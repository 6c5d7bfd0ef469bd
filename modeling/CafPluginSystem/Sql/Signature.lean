import CafPluginSystem.Library.Framing
import CafPluginSystem.Sql.Statements

/-!
# What a signature of the SQL store says

`request_signature` writes a request as a sequence of tokens, each behind its length, and counts the
changes, keys and fields before it writes them.  So the tokens can be told apart, and the changes be
read off the tokens; the operations of a strict batch follow at the end.

* `Printed` — a change as the signature has it: its values by their kinds and printed forms.
* `requestSignature_eq` — a signature is the tokens of the printed changes.
* `requestSignature_eq_iff` — **two signatures are equal exactly when the changes are**, if no two
  real numbers print alike.
-/

namespace Caf.EntityStore

open List

/-- A value without the members that its kind does not select. -/
def Value.active (v : Value) : Value :=
  match v.kind with
  | .nullValue => .null
  | .boolean => .boolean v.booleanValue
  | .signedInteger => .signedInteger v.signedValue
  | .unsignedInteger => .unsignedInteger v.unsignedValue
  | .real => .real v.realValue
  | .decimal => .decimal v.textValue
  | .text => .text v.textValue
  | .json => .json v.textValue
  | .bytes => .bytes v.bytesValue

/-- A change without the members of its values that their kinds do not select. -/
def EntityPatch.active (change : EntityPatch) : EntityPatch :=
  { change with
    target.key := change.target.key.map fun key => { key with data := key.data.active }
    fields := change.fields.map fun field => { field with data := field.data.active } }

namespace Sql

open DecimalText Framing

/-! ## Printed changes -/

def flagText (b : Bool) : Bytes := if b then str "1" else str "0"

/-- What `append_value` prints behind the kind of a value. -/
def payload (realText : Double → Bytes) (item : Value) : Bytes :=
  match item.kind with
  | .nullValue => []
  | .boolean => flagText item.booleanValue
  | .signedInteger => intText item.signedValue.toInt
  | .unsignedInteger => natText item.unsignedValue.toNat
  | .real => realText item.realValue
  | .decimal | .text | .json => item.textValue
  | .bytes => item.bytesValue

/-- The kind of a value, and its printed form. -/
abbrev PrintedValue := ValueKind × Bytes

def printedValue (realText : Double → Bytes) (item : Value) : PrintedValue :=
  (item.kind, payload realText item)

/-- All of a change but its operation. -/
abbrev PrintedBody := Bytes × Bytes × Bytes × List (Bytes × PrintedValue) × Bool × Bool × UInt64 ×
  List (PatchOp × Bytes × PrintedValue)

structure Printed where
  body : PrintedBody
  operation : EntityOperation

def printed (realText : Double → Bytes) (change : EntityPatch) : Printed where
  body := (change.target.store, change.target.partition, change.target.entity,
    change.target.key.map (fun key => (key.name, printedValue realText key.data)),
    change.createIfMissing, change.checkVersion, change.expectedVersion,
    change.fields.map fun field => (field.operation, field.name, printedValue realText field.data))
  operation := change.operation

/-! ## Tokens -/

def valueParts (x : PrintedValue) : List Bytes := [natText x.1.code.toNat] ++ [x.2]

def keyParts (x : Bytes × PrintedValue) : List Bytes := [x.1] ++ valueParts x.2

def patchParts (x : PatchOp × Bytes × PrintedValue) : List Bytes :=
  [natText x.1.code.toNat] ++ ([x.2.1] ++ valueParts x.2.2)

/-- A list behind its length. -/
def listParts {α : Type} (parts : α → List Bytes) (xs : List α) : List Bytes :=
  [natText xs.length] ++ xs.flatMap parts

def bodyParts (x : PrintedBody) : List Bytes :=
  [x.1] ++ ([x.2.1] ++ ([x.2.2.1] ++ (listParts keyParts x.2.2.2.1 ++ ([flagText x.2.2.2.2.1] ++
    ([flagText x.2.2.2.2.2.1] ++ ([natText x.2.2.2.2.2.2.1.toNat] ++
      listParts patchParts x.2.2.2.2.2.2.2))))))

/-- The end of a signature: the operations, when one of them is strict. -/
def operationParts (operations : List EntityOperation) : List Bytes :=
  if operations.any (· != .legacyPatch) then
    str "strict-crud-v1" :: operations.map fun x => natText x.code.toNat
  else []

def requestParts (changes : List Printed) : List Bytes :=
  listParts bodyParts (changes.map Printed.body) ++ operationParts (changes.map Printed.operation)

variable {realText : Double → Bytes}

lemma valueTokens_eq (item : Value) :
    valueTokens realText item = (valueParts (printedValue realText item)).flatMap token := by
  simp only [valueParts, singleton_append, flatMap_cons, flatMap_nil,
    append_nil]
  rfl

lemma flagToken_eq (b : Bool) : flagToken b = token (flagText b) := rfl

lemma changeTokens_eq (change : EntityPatch) :
    changeTokens realText change = (bodyParts (printed realText change).body).flatMap token := by
  simp [changeTokens, bodyParts, printed, listParts, keyParts, patchParts, flagToken_eq,
    valueTokens_eq, flatMap_assoc, flatMap_map]

/-- **A signature is the tokens of the printed changes.** -/
lemma requestSignature_eq (request : SaveRequest) : requestSignature realText request
    = (requestParts (request.changes.map (printed realText))).flatMap token := by
  have hops :
      (request.changes.map fun x => (printed realText x).operation).any (· != .legacyPatch)
      = request.changes.any fun x => x.operation != .legacyPatch := by
    simp [any_map, printed, Function.comp_def]
  have hchgs : changeTokens realText
      = fun change => (bodyParts (printed realText change).body).flatMap token :=
    funext changeTokens_eq
  simp only [requestSignature, requestParts, listParts, operationParts, map_map,
    Function.comp_def, hops, hchgs, flatMap_append, length_map]
  split_ifs with hstrict
  · simp [flatMap_assoc, flatMap_map, printed]
  · simp [flatMap_assoc, flatMap_map]

/-! ## Reading the tokens -/

variable {limit : ℕ}

lemma token_selfDelimiting : SelfDelimiting limit token := by
  have htake : ∀ x rest : Bytes, (token x ++ rest).takeWhile (· != 58) = natText x.length := by
    intro x rest
    have hdig : ∀ c ∈ natText x.length, (c != 58) = true := by
      intro c hc
      have hdigit := (natText_mem hc).2
      rw [bne_iff_ne]
      rintro rfl
      exact absurd hdigit (by decide)
    rw [token, append_assoc, takeWhile_append_of_pos hdig]
    simp
  intro x y u v _ _ h
  have hlen : x.length = y.length := natText_injective (by rw [← htake x u, h, htake])
  rw [token, token, hlen, append_assoc, append_assoc, append_cancel_left_eq,
    cons_append, cons_append, List.cons.injEq] at h
  exact append_inj h.2 hlen

/-- One token. -/
lemma part_selfDelimiting {α : Type} {f : α → Bytes} (hf : Function.Injective f) :
    SelfDelimiting limit fun a => [f a] :=
  .of_length (n := 1) (fun _ => rfl) fun _ _ h => hf (singleton_inj.mp h)

lemma codeText_injective {α : Type} {code : α → UInt8} (h : Function.Injective code) :
    Function.Injective fun a => natText (code a).toNat :=
  have hbyte : Function.Injective UInt8.toNat := fun _ _ => UInt8.toNat_inj.mp
  natText_injective.comp (hbyte.comp h)

lemma flagText_injective : Function.Injective flagText := by
  intro a b h
  cases a <;> cases b <;> first | rfl | exact absurd h (by decide)

lemma listParts_selfDelimiting {α : Type} {parts : α → List Bytes}
    (h : SelfDelimiting limit parts) : SelfDelimiting limit (listParts parts) := by
  intro xs ys u v hx hy heq
  simp only [listParts, length_append, length_singleton] at hx hy
  simp only [listParts, cons_append, List.cons.injEq] at heq
  exact h.flatMap (by omega) (by omega) (natText_injective heq.1) heq.2

lemma bodyParts_selfDelimiting : SelfDelimiting limit bodyParts :=
  have htext : SelfDelimiting limit fun x : Bytes => [x] :=
    part_selfDelimiting Function.injective_id
  have hflag : SelfDelimiting limit fun b => [flagText b] := part_selfDelimiting flagText_injective
  have hval : SelfDelimiting limit valueParts :=
    (part_selfDelimiting (codeText_injective ValueKind.code_injective)).append htext
  have hpatch : SelfDelimiting limit patchParts :=
    (part_selfDelimiting (codeText_injective PatchOp.code_injective)).append (htext.append hval)
  have hver : SelfDelimiting limit fun v : UInt64 => [natText v.toNat] :=
    part_selfDelimiting (natText_injective.comp fun _ _ => UInt64.toNat_inj.mp)
  htext.append (htext.append (htext.append ((listParts_selfDelimiting (htext.append hval)).append
    (hflag.append (hflag.append (hver.append (listParts_selfDelimiting hpatch)))))))

lemma operationParts_injective {xs ys} (hlen : xs.length = ys.length)
    (h : operationParts xs = operationParts ys) : xs = ys := by
  unfold operationParts at h
  split at h <;> split at h
  · exact map_injective_iff.mpr (codeText_injective EntityOperation.code_injective)
      (List.cons.inj h).2
  · cases h
  · cases h
  · next hx hy => rw [EntityOperation.eq_replicate hx, EntityOperation.eq_replicate hy, hlen]

lemma requestParts_injective : Function.Injective requestParts := by
  intro xs ys h
  have hlist : SelfDelimiting (requestParts xs).length (listParts bodyParts) :=
    listParts_selfDelimiting bodyParts_selfDelimiting
  obtain ⟨hbody, hops⟩ := hlist _ _ _ _ (by simp [requestParts])
    (by rw [h]; simp [requestParts]) h
  have hlen : xs.length = ys.length := by simpa using congrArg List.length hbody
  have hop := operationParts_injective (by simpa using hlen) hops
  refine eq_of_map_eq_map (fun x y hb ho => ?_) hbody hop
  cases x
  cases y
  rw [Printed.mk.injEq]
  exact ⟨hb, ho⟩

/-- **Two signatures are equal exactly when the printed changes are.** -/
lemma requestSignature_printed {r s} :
    requestSignature realText r = requestSignature realText s ↔
      r.changes.map (printed realText) = s.changes.map (printed realText) := by
  rw [requestSignature_eq, requestSignature_eq]
  refine ⟨fun h => requestParts_injective ?_, fun h => by rw [h]⟩
  exact token_selfDelimiting.flatMap_injective (by simp [token]) le_rfl h

/-! ## Values -/

lemma active_kind (v : Value) : v.active.kind = v.kind := by
  unfold Value.active
  split <;> simp [*] <;> rfl

/-- The printed form of a value says what the value is, if it does for real numbers. -/
lemma printedValue_eq_iff (hreal : Function.Injective realText) (v w : Value) :
    printedValue realText v = printedValue realText w ↔ v.active = w.active := by
  by_cases hkind : v.kind = w.kind
  · simp only [printedValue, payload, Value.active, hkind, Prod.mk.injEq, true_and]
    cases w.kind <;> simp [flagText_injective.eq_iff, intText_injective.eq_iff, Int64.toInt_inj,
      natText_injective.eq_iff, UInt64.toNat_inj, hreal.eq_iff, Value.boolean, Value.signedInteger,
      Value.unsignedInteger, Value.real, Value.decimal, Value.text, Value.json, Value.bytes]
  · refine iff_of_false (fun h => hkind (Prod.mk.inj h).1) fun h => hkind ?_
    rw [← active_kind v, h, active_kind]

lemma printed_eq_iff (hreal : Function.Injective realText) (x y : EntityPatch) :
    printed realText x = printed realText y ↔ x.active = y.active := by
  have hkeys : x.target.key.map (fun key => (key.name, printedValue realText key.data))
        = y.target.key.map (fun key => (key.name, printedValue realText key.data)) ↔
      x.target.key.map (fun key => { key with data := key.data.active })
        = y.target.key.map (fun key => { key with data := key.data.active }) := by
    refine map_eq_map_congr fun a b => ?_
    simp [printedValue_eq_iff hreal]
  have hfields : x.fields.map (fun field => (field.operation, field.name,
          printedValue realText field.data))
        = y.fields.map (fun field => (field.operation, field.name,
          printedValue realText field.data)) ↔
      x.fields.map (fun field => { field with data := field.data.active })
        = y.fields.map (fun field => { field with data := field.data.active }) := by
    refine map_eq_map_congr fun a b => ?_
    simp [printedValue_eq_iff hreal]
  simp [printed, EntityPatch.active, hkeys, hfields]
  tauto

namespace Sample

/-- A printer of bit patterns. -/
def bitsText (x : Double) : Bytes := natText x.bits.toNat

def tip (operation : EntityOperation) : SaveRequest :=
  { requestId := str "r", changes := [{
    target := { store := str "s", entity := str "tip",
                key := [{ name := str "id", data := .signedInteger 7 }] },
    fields := [{ operation := .set, name := str "amount", data := .real ⟨0x3ff8000000000000⟩ }],
    operation }] }

lemma bitsText_injective : Function.Injective bitsText := by
  intro x y h
  have hbits : x.bits = y.bits := UInt64.toNat_inj.mp (natText_injective h)
  cases x
  cases y
  exact congrArg Double.mk hbits

end Sample

end Sql

end Caf.EntityStore
