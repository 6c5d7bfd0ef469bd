import CafPluginSystem.EntityStore.Contract
import CafPluginSystem.Library.Chunks
import CafPluginSystem.Library.DecimalText

/-!
# The frames of the bridge

External processes talk to the bridge (`bridge_actor.cpp`) in frames: a header line `<KIND> <id> [<status>] <len>`,
`len` bytes of payload and a newline.  `try_parse_frame` takes a frame from the front of the buffer of a connection.

* `tryParseFrame_append` — what was recognised stays recognised when more arrives.
* `tryParseFrame_result` — a `RESULT` frame is read as it was written.
-/

namespace Caf.Bridge

open DecimalText List

variable {c : UInt8} {front back text rest buf payload : Bytes}

def newline : UInt8 := 10
def space : UInt8 := 32
def carriageReturn : UInt8 := 13

/-! ## Texts -/

/-- `find` for a character, with the text before it and the text after it. -/
def splitFirst (c : UInt8) : Bytes → Option (Bytes × Bytes)
  | [] => none
  | b :: bs => if b = c then some ([], bs) else (splitFirst c bs).map fun (front, back) => (b :: front, back)

/-- `rfind` for a character, with the text before it and the text after it. -/
def splitLast (c : UInt8) (text : Bytes) : Option (Bytes × Bytes) :=
  (splitFirst c text.reverse).map fun (back, front) => (front.reverse, back.reverse)

lemma splitFirst_eq (h : c ∉ front) :
    splitFirst c (front ++ c :: back) = some (front, back) := by
  induction front with
  | nil => simp [splitFirst]
  | cons b bs ih =>
    obtain ⟨hb, hbs⟩ : c ≠ b ∧ c ∉ bs := by simpa using h
    simp [splitFirst, Ne.symm hb, ih hbs]

lemma splitFirst_none : splitFirst c text = none ↔ c ∉ text := by
  induction text with
  | nil => simp [splitFirst]
  | cons b bs ih =>
    by_cases hb : b = c
    · simp [splitFirst, hb]
    · simp [splitFirst, hb, ih, Ne.symm hb]

lemma splitFirst_some (h : splitFirst c text = some (front, back)) :
    text = front ++ c :: back ∧ c ∉ front := by
  induction text generalizing front with
  | nil => simp [splitFirst] at h
  | cons b bs ih =>
    by_cases hb : b = c
    · obtain ⟨rfl, rfl⟩ : [] = front ∧ bs = back := by simpa [splitFirst, hb] using h
      simp [hb]
    · obtain ⟨front', hfront', rfl⟩ : ∃ front', splitFirst c bs = some (front', back) ∧ b :: front' = front := by
        simpa [splitFirst, hb] using h
      obtain ⟨rfl, hnot⟩ := ih hfront'
      exact ⟨rfl, by simp [Ne.symm hb, hnot]⟩

/-- The first occurrence stays the first one when more is appended. -/
lemma splitFirst_append (h : splitFirst c text = some (front, back))
    (more : Bytes) : splitFirst c (text ++ more) = some (front, back ++ more) := by
  obtain ⟨rfl, hnot⟩ := splitFirst_some h
  rw [append_assoc, cons_append]
  exact splitFirst_eq hnot

lemma splitLast_eq (h : c ∉ back) :
    splitLast c (front ++ c :: back) = some (front, back) := by
  have hreverse : (front ++ c :: back).reverse = back.reverse ++ c :: front.reverse := by simp
  rw [splitLast, hreverse, splitFirst_eq (by simpa using h)]
  simp

/-! ## Writing -/

/-- `header_line`. -/
def headerLine (kind : Bytes) (id : ℤ) (status : Bytes) (len : ℕ) : Bytes :=
  kind ++ [space] ++ intText id ++ (if status.isEmpty then [] else [space] ++ status) ++ [space] ++ natText len
    ++ [newline]

/-- The status of a `RESULT`. -/
def statusText (ok : Bool) : Bytes := if ok then str "OK" else str "ERR"

/-- A `RESULT` as the bridge writes it. -/
def resultFrame (id : ℤ) (ok : Bool) (payload : Bytes) : Bytes :=
  headerLine (str "RESULT") id (statusText ok) payload.length ++ payload ++ [newline]

/-! ## Reading -/

/-- `ParsedFrame`, with the members that its kind gives a meaning. -/
inductive ParsedFrame where
  | invalid
  | call (id : ℤ) (svc : Bytes) (proto : ℕ) (payload : Bytes)
  | result (id : ℤ) (ok : Bool) (payload : Bytes)
deriving DecidableEq, Repr

/-- The parts of a header line. -/
structure Header where
  kind : Bytes
  id : Bytes
  third : Bytes
  len : ℕ
deriving DecidableEq, Repr

/-- The largest payload: 64 MiB. -/
def maxPayload : ℕ := 64 * 1024 * 1024

/-- The header line: the length is behind the last space, the kind and the id are in front of the first two of the
rest.  None is a protocol error. -/
def parseHeader (head : Bytes) : Option Header :=
  match splitLast space head with
  | none => none
  | some (front, lenText) =>
    let lenText := (lenText.reverse.dropWhile fun c => c == newline || c == carriageReturn).reverse
    match splitFirst space front with
    | none => none
    | some (kind, rest) =>
      match splitFirst space rest with
      | none => none
      | some (id, third) =>
        match stoull? lenText with
        | none => none
        | some len => if len > maxPayload then none else some { kind, id, third, len }

/-- The frame, once its payload is there. -/
def parseBody (head : Header) (payload : Bytes) : ParsedFrame :=
  match stoi? head.id with
  | none => .invalid
  | some id =>
    if head.kind = str "CALL" then
      match splitFirst space head.third with
      | none => .invalid
      | some (svc, protoText) =>
        match stoull? protoText with
        | none => .invalid
        | some proto => if proto > 0xFFFF then .invalid else .call id svc proto payload
    else if head.kind = str "RESULT" then .result id (head.third = str "OK") payload
    else .invalid

/-- `try_parse_frame`: a frame and the buffer after it, or none while there is not enough. -/
def tryParseFrame (buf : Bytes) : Option (ParsedFrame × Bytes) :=
  match splitFirst newline buf with
  | none => none
  | some (head, body) =>
    match parseHeader head with
    | none => some (.invalid, buf)
    | some header =>
      if body.length < header.len + 1 then none
      else if body[header.len]? ≠ some newline then some (.invalid, buf)
      else some (parseBody header (body.take header.len), body.drop (header.len + 1))

/-! ## More data -/

variable {frame : ParsedFrame}

/-- **A frame stays what it was when more arrives**, and a protocol error stays one. -/
theorem tryParseFrame_append (h : tryParseFrame buf = some (frame, rest)) (more : Bytes) :
    ∃ rest', tryParseFrame (buf ++ more) = some (frame, rest') ∧
      (frame ≠ .invalid → rest' = rest ++ more) := by
  unfold tryParseFrame at h ⊢
  cases hsplit : splitFirst newline buf with
  | none => simp [hsplit] at h
  | some parts =>
    obtain ⟨head, body⟩ := parts
    simp only [hsplit] at h
    simp only [splitFirst_append hsplit more]
    cases hhead : parseHeader head with
    | none =>
      obtain ⟨rfl, -⟩ : ParsedFrame.invalid = frame ∧ buf = rest := by simpa [hhead] using h
      exact ⟨_, rfl, fun hval => absurd rfl hval⟩
    | some header =>
      simp only [hhead] at h ⊢
      by_cases hshort : body.length < header.len + 1
      · simp [hshort] at h
      · rw [if_neg hshort] at h
        have hlen : header.len < body.length := by omega
        rw [if_neg (by rw [length_append]; omega), getElem?_append_left hlen,
          take_append_of_le_length hlen.le, drop_append_of_le_length hlen]
        split at h
        · rename_i hnewline
          obtain ⟨rfl, -⟩ : ParsedFrame.invalid = frame ∧ buf = rest := by simpa using h
          exact ⟨_, if_pos hnewline, fun hval => absurd rfl hval⟩
        · rename_i hnewline
          obtain ⟨rfl, rfl⟩ := Prod.mk.inj (Option.some.inj h)
          exact ⟨_, if_neg hnewline, fun _ => rfl⟩

/-- A frame that was taken is gone from the buffer. -/
lemma tryParseFrame_length (h : tryParseFrame buf = some (frame, rest))
    (hval : frame ≠ .invalid) : ∃ taken, buf = taken ++ rest ∧ 0 < taken.length := by
  unfold tryParseFrame at h
  cases hsplit : splitFirst newline buf with
  | none => simp [hsplit] at h
  | some parts =>
    obtain ⟨head, body⟩ := parts
    obtain ⟨rfl, -⟩ := splitFirst_some hsplit
    simp only [hsplit] at h
    cases hhead : parseHeader head with
    | none =>
      simp only [hhead] at h
      exact absurd (Prod.mk.inj (Option.some.inj h)).1.symm hval
    | some header =>
      simp only [hhead] at h
      split at h
      · simp at h
      · split at h
        · exact absurd (Prod.mk.inj (Option.some.inj h)).1.symm hval
        · obtain ⟨-, rfl⟩ := Prod.mk.inj (Option.some.inj h)
          refine ⟨head ++ newline :: body.take (header.len + 1), ?_, by simp⟩
          rw [append_assoc, cons_append, take_append_drop]

/-! ## Round trip -/

lemma not_mem_intText (hc : c.toNat < 45) (i : ℤ) : c ∉ intText i := by
  intro hmem
  rcases intText_mem hmem with rfl | h
  · exact absurd hc (by decide)
  · omega

lemma not_mem_natText (hc : c.toNat < 48) (n : ℕ) : c ∉ natText n := by
  intro hmem
  have := natText_mem hmem
  omega

/-- The length has no line end behind it. -/
lemma trimmed_natText (n : ℕ) :
    ((natText n).reverse.dropWhile fun c => c == newline || c == carriageReturn).reverse = natText n := by
  have hkeep : ∀ c ∈ (natText n).reverse, (c == newline || c == carriageReturn) = false := by
    intro c hc
    have hdigit := natText_mem (mem_reverse.mp hc)
    have hne : c ≠ newline ∧ c ≠ carriageReturn := by
      constructor
      · rintro rfl
        exact absurd hdigit (by decide)
      · rintro rfl
        exact absurd hdigit (by decide)
    simp [hne]
  cases hrev : (natText n).reverse with
  | nil => exact absurd (reverse_eq_nil_iff.mp hrev) (natText_ne_nil n)
  | cons c cs =>
    rw [dropWhile_cons, hkeep c (hrev ▸ mem_cons_self)]
    simp only [Bool.false_eq_true, if_false]
    rw [← hrev, reverse_reverse]

/-- A header line with a kind, an id and a third part is read part by part. -/
lemma parseHeader_eq {kind id : Bytes} (third : Bytes) {len : ℕ} (hkind : space ∉ kind) (hid : space ∉ id)
    (hlen : len ≤ maxPayload) :
    parseHeader (kind ++ space :: (id ++ space :: (third ++ space :: natText len))) = some ⟨kind, id, third, len⟩ := by
  have hlast : splitLast space (kind ++ space :: (id ++ space :: (third ++ space :: natText len)))
      = some (kind ++ space :: (id ++ space :: third), natText len) := by
    have hassoc : kind ++ space :: (id ++ space :: (third ++ space :: natText len))
        = (kind ++ space :: (id ++ space :: third)) ++ space :: natText len := by simp
    rw [hassoc]
    exact splitLast_eq (not_mem_natText (by decide) len)
  have hsmall : len < 2 ^ 64 := lt_of_le_of_lt hlen (by decide)
  unfold parseHeader
  simp only [hlast, trimmed_natText, splitFirst_eq hkind, splitFirst_eq hid, stoull_natText hsmall]
  rw [if_neg (by omega)]

/-- A header line and a payload of the length it says, with a newline behind it. -/
lemma tryParseFrame_eq {head : Bytes} {header : Header} (rest : Bytes) (hline : newline ∉ head)
    (hhead : parseHeader head = some header) (hlen : header.len = payload.length) :
    tryParseFrame (head ++ newline :: (payload ++ newline :: rest)) = some (parseBody header payload, rest) := by
  unfold tryParseFrame
  simp only [splitFirst_eq hline, hhead]
  have hbyte : (payload ++ newline :: rest)[header.len]? = some newline := by
    rw [hlen, getElem?_append_right le_rfl]
    simp
  have hdrop : (payload ++ newline :: rest).drop (header.len + 1) = rest := by
    rw [hlen, ← drop_drop, drop_left]
    rfl
  rw [if_neg (by rw [hlen, length_append, length_cons]; omega), if_neg (by simp [hbyte]), hdrop, hlen,
    take_left]

lemma resultFrame_eq (id : ℤ) (ok : Bool) (payload : Bytes) :
    resultFrame id ok payload = (str "RESULT" ++ space :: (intText id ++ space :: (statusText ok ++ space ::
      natText payload.length))) ++ newline :: (payload ++ [newline]) := by
  have hstat : (statusText ok).isEmpty = false := by cases ok <;> rfl
  simp [resultFrame, headerLine, hstat]

/-- **A `RESULT` frame is read as it was written**, whatever its payload. -/
theorem tryParseFrame_result {id : ℤ} (hlo : -2147483648 ≤ id) (hhi : id ≤ 2147483647) (ok : Bool)
    (hpay : payload.length ≤ maxPayload) (rest : Bytes) :
    tryParseFrame (resultFrame id ok payload ++ rest) = some (.result id ok payload, rest) := by
  have hstat : ∀ c ∈ statusText ok, 45 < c.toNat := by cases ok <;> decide +kernel
  have hline : newline ∉ str "RESULT" ++ space :: (intText id ++ space :: (statusText ok ++ space ::
      natText payload.length)) := by
    simp only [mem_append, mem_cons, not_or]
    refine ⟨by decide, by decide, not_mem_intText (by decide) id, by decide, fun hmem => ?_, by decide,
      not_mem_natText (by decide) _⟩
    exact absurd (hstat _ hmem) (by decide)
  have hheader := parseHeader_eq (statusText ok) (show space ∉ str "RESULT" by decide)
    (not_mem_intText (c := space) (by decide) id) hpay
  have hread := tryParseFrame_eq rest hline hheader rfl
  have hbody : parseBody ⟨str "RESULT", intText id, statusText ok, payload.length⟩ payload = .result id ok payload := by
    unfold parseBody
    simp only [stoi_intText hlo hhi]
    cases ok <;> rfl
  have happend : resultFrame id ok payload ++ rest = (str "RESULT" ++ space :: (intText id ++ space ::
      (statusText ok ++ space :: natText payload.length))) ++ newline :: (payload ++ newline :: rest) := by
    rw [resultFrame_eq]
    simp
  rw [happend, hread, hbody]

end Caf.Bridge
