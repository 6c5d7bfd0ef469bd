import CafPluginSystem.Redis.Engine

/-!
# What a request can be refused with

Everything the adapter computes from a request alone — reading and adding decimals, encoding
values, validating a patch, naming a hash field, signing — fails only with `invalid_request`.  An
`internal_error` says that something stored is not what the adapter writes; it can come only from
`Reader`, `decode`, `replay` and `validate_document`.
-/

namespace Caf.EntityStore.Redis

open EntityCodec Fallible

/-- The computation fails only with `invalid_request`. -/
abbrev Refuses {α : Type} (x : Except EntityError α) : Prop :=
  Raises (fun error => error.code = .invalidRequest) x

/-- The computation does not fail with `internal_error`. -/
abbrev NotInternal {α : Type} (x : Except EntityError α) : Prop :=
  Raises (fun error => error.code ≠ .internalError) x

variable {p : Platform} {α : Type}

lemma Refuses.notInternal {x : Except EntityError α} (h : Refuses x) : NotInternal x :=
  h.mono fun error herr => by simp [herr]

@[simp] lemma refuses_invalid (message : Bytes) : Refuses (invalid message : Except EntityError α) :=
  Raises.error_iff.mpr rfl

/-! ## Decimals -/

namespace Decimal

lemma normalize_refuses (digits : List DecimalText.Digit) (scale : ℕ) (negative : Bool) :
    Refuses (normalize digits scale negative) := by
  unfold normalize
  split
  · simp
  · split <;> simp

lemma readMantissa_refuses : ∀ (text : Bytes) (dot : Bool) (digits : List DecimalText.Digit)
    (fraction : ℕ), Refuses (readMantissa dot digits fraction text)
  | [], dot, digits, fraction => by simp [readMantissa]
  | c :: rest, dot, digits, fraction => by
    rw [readMantissa]
    split
    · simp
    · split
      · exact readMantissa_refuses rest _ _ _
      · split
        · simp
        · exact readMantissa_refuses rest _ _ _

lemma readExponent_refuses (text : Bytes) : Refuses (readExponent text) := by
  unfold readExponent
  split
  · simp
  · split
    · simp
    · split <;> simp

lemma ofText_refuses (text : Bytes) : Refuses (ofText text) := by
  unfold ofText
  split
  · simp
  · refine (readMantissa_refuses _ _ _ _).bind ?_
    rintro ⟨digits, fraction, tail⟩ -
    dsimp only
    split
    · simp
    · refine (readExponent_refuses _).bind fun exponent _ => ?_
      split
      · exact normalize_refuses _ _ _
      · exact normalize_refuses _ _ _

lemma integer_refuses (d : Decimal) : Refuses d.integer := by
  unfold integer
  split <;> simp

lemma add_refuses (x y : Decimal) : Refuses (x.add y) := by
  unfold add
  dsimp only
  split
  · simp
  · split
    · exact normalize_refuses _ _ _
    · split
      · exact normalize_refuses _ _ _
      · exact normalize_refuses _ _ _

end Decimal

/-! ## Values -/

namespace EntityCodec

lemma check_refuses (data : Bytes) : Refuses (Writer.check data) := by
  unfold Writer.check
  split <;> simp

lemma text_refuses (data value : Bytes) : Refuses (Writer.text data value) := by
  unfold Writer.text
  split
  · simp
  · exact check_refuses _

lemma contentOf_refuses (item : Value) : Refuses (contentOf p item) := by
  unfold contentOf
  split
  case h_5 => split <;> simp
  case h_6 => exact (Decimal.ofText_refuses _).bind fun _ _ => by simp
  case h_8 => split <;> simp
  all_goals simp

lemma encodeValue_refuses (out : Bytes) (item : Value) : Refuses (encodeValue p out item) := by
  rw [encodeValue_eq]
  refine (contentOf_refuses item).bind fun c _ => ?_
  unfold write
  split
  · exact text_refuses _ _
  · simp

lemma numericText_refuses (item : Value) : Refuses (numericText p item) := by
  unfold numericText
  split
  case h_3 => exact (Decimal.ofText_refuses _).bind fun _ _ => by simp
  case h_4 =>
    split
    · simp
    · split <;> simp
  all_goals simp

lemma validateValue_refuses (item : Value) (field : FieldSchema) (key : Bool) :
    Refuses (validateValue p item field key) := by
  have hrest : Refuses (do let _ ← encodeValue p [] item; .ok ()) :=
    (encodeValue_refuses [] item).bind fun _ _ => by simp
  unfold validateValue
  split
  · exact Raises.guard rfl fun _ => hrest
  · exact Raises.guard rfl fun _ => hrest

lemma incrementReal_refuses (before delta : Value) : Refuses (incrementReal p before delta) := by
  refine (numericText_refuses delta).bind fun text _ => ?_
  split
  · simp
  · split <;> simp

lemma incrementSum_refuses (before : Value) (change : Decimal) (kind : ValueKind) :
    Refuses (incrementSum p before change kind) := by
  refine (numericText_refuses before).bind fun beforeText _ => ?_
  refine (Decimal.ofText_refuses beforeText).bind fun augend _ => ?_
  refine (Decimal.add_refuses augend change).bind fun sum _ => ?_
  split
  · simp
  · refine (Decimal.integer_refuses sum).bind fun text _ => ?_
    split
    · split <;> simp
    · split <;> simp

lemma incrementExact_refuses (before delta : Value) (kind : ValueKind) :
    Refuses (incrementExact p before delta kind) := by
  refine (numericText_refuses delta).bind fun deltaText _ => ?_
  refine (Decimal.ofText_refuses deltaText).bind fun change _ => ?_
  split
  · exact incrementSum_refuses before change kind
  · exact (Decimal.integer_refuses change).bind fun _ _ => incrementSum_refuses before change kind

lemma increment_refuses (before delta : Value) (kind : ValueKind) :
    Refuses (increment p before delta kind) := by
  unfold increment
  split
  · simp
  · split
    · exact incrementReal_refuses before delta
    · exact incrementExact_refuses before delta kind

/-! ## Encodings -/

lemma encodeEntry_refuses (out : Bytes) (entry : Bytes × Value) :
    Refuses (encodeEntry p out entry) :=
  (text_refuses _ _).bind fun _ _ => encodeValue_refuses _ _

lemma encode_refuses (document : Document) : Refuses (encode p document) := by
  refine (text_refuses _ _).bind fun out _ => ?_
  exact (Raises.foldlM encodeEntry_refuses _ _).bind fun _ _ => check_refuses _

lemma encodeTarget_refuses (out : Bytes) (target : EntityRef) :
    Refuses (encodeTarget p out target) :=
  (text_refuses _ _).bind fun _ _ => (text_refuses _ _).bind fun _ _ =>
    (text_refuses _ _).bind fun _ _ => Raises.foldlM (fun _ _ => encodeEntry_refuses _ _) _ _

lemma encodeChange_refuses (out : Bytes) (change : EntityPatch) :
    Refuses (encodeChange p out change) := by
  refine (encodeTarget_refuses out change.target).bind fun out _ => ?_
  exact Raises.foldlM (fun _ _ => (text_refuses _ _).bind fun _ _ => encodeValue_refuses _ _) _ _

lemma signature_refuses (request : SaveRequest) : Refuses (signature p request) := by
  refine (text_refuses _ _).bind fun out _ => ?_
  refine (Raises.foldlM encodeChange_refuses _ _).bind fun out _ => ?_
  split
  · exact (text_refuses _ _).bind fun _ _ => check_refuses _
  · exact check_refuses _

lemma collectKeys_refuses (target : EntityRef) : ∀ (keys : List FieldSchema) (m : StringMap Value),
    Refuses (collectKeys p target keys m)
  | [], m => by simp [collectKeys]
  | key :: keys, m => by
    rw [collectKeys]
    split
    · simp
    · exact (validateValue_refuses _ _ _).bind fun _ _ => collectKeys_refuses target keys _

lemma objectField_refuses (mapped : EntitySchema) (target : EntityRef) :
    Refuses (objectField p mapped target) := by
  unfold objectField
  refine Raises.guard rfl fun _ => (text_refuses _ _).bind fun _ _ => ?_
  refine (text_refuses _ _).bind fun _ _ => (collectKeys_refuses _ _ _).bind fun keys _ => ?_
  exact (Raises.foldlM encodeEntry_refuses _ _).bind fun _ _ => check_refuses _

lemma ledgerField_refuses (requestId : Bytes) : Refuses (ledgerField requestId) :=
  (text_refuses _ _).bind fun _ _ => (text_refuses _ _).bind fun _ _ => check_refuses _

lemma ledger_refuses (signature : Bytes) (result : SaveResult) : Refuses (ledger signature result) :=
  (text_refuses _ _).bind fun _ _ => (text_refuses _ _).bind fun _ _ => check_refuses _

end EntityCodec

/-! ## Requests -/

lemma validatePatch_refuses (mapped : EntitySchema) (patch : EntityPatch) :
    Refuses (validatePatch p mapped patch) := by
  refine Raises.guard rfl fun _ => Raises.forM fun field _ => ?_
  unfold validatePatchField
  split
  · simp
  · split
    · exact validateValue_refuses _ _ _
    · split <;> simp
    · split
      · simp
      · refine (numericText_refuses _).bind fun text _ => ?_
        refine (Decimal.ofText_refuses _).bind fun delta _ => ?_
        split
        · exact (Decimal.integer_refuses _).bind fun _ _ => by simp
        · simp

lemma checkConfig_refuses (engine : Engine) : Refuses (checkConfig engine) := by
  unfold checkConfig
  split <;> simp

lemma orInvalid_refuses (x : Except Bytes Unit) : Refuses (orInvalid x) := by
  cases x <;> simp [orInvalid]

lemma findStore_refuses (engine : Engine) (name : Bytes) (write : Bool) :
    Refuses (findStore engine name write) := by
  unfold findStore
  split
  · simp
  · exact Raises.guard rfl fun _ => by simp

lemma findEntity_refuses (store : StoreSchema) (name : Bytes) : Refuses (findEntity store name) := by
  unfold findEntity
  split <;> simp

/-- **Before it talks to Redis, `save` fails only with `invalid_request`.** -/
lemma prepare_refuses (engine : Engine) (request : SaveRequest) :
    Refuses (prepare p engine request) := by
  unfold prepare
  refine (checkConfig_refuses engine).bind fun _ _ => (orInvalid_refuses _).bind fun _ _ => ?_
  refine Raises.guard rfl fun _ => (findStore_refuses _ _ _).bind fun store _ => ?_
  refine (Raises.mapM (fun patch => ?_) _).bind fun _ _ => ?_
  · exact (findEntity_refuses _ _).bind fun _ _ => (validatePatch_refuses _ _).bind fun _ _ =>
      objectField_refuses _ _
  · exact (signature_refuses _).bind fun _ _ => (ledgerField_refuses _).bind fun _ _ => by simp

/-- **Before it talks to Redis, `load` fails only with `invalid_request`.** -/
lemma prepareLoad_refuses (engine : Engine) (request : LoadRequest) :
    Refuses (prepareLoad p engine request) := by
  refine (checkConfig_refuses engine).bind fun _ _ => (orInvalid_refuses _).bind fun _ _ => ?_
  refine (findStore_refuses _ _ _).bind fun _ _ => (findEntity_refuses _ _).bind fun mapped _ => ?_
  refine (objectField_refuses _ _).bind fun _ _ => Raises.bind ?_ fun _ _ => by simp
  unfold selectFields
  split
  · simp
  · refine Raises.mapM (fun name => ?_) _
    split <;> simp

end Caf.EntityStore.Redis
