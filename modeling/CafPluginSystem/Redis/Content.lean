import CafPluginSystem.Redis.Codec
import CafPluginSystem.Redis.Numerals

/-!
# What an encoding says

The codec forgets two things about a value: the members its kind does not select, and which of
several texts or bit patterns stands for one decimal or one zero.  `Content` is what is left, and
`contentOf` reads it off a value.  Everything the codec writes is a function of contents:

* `encodeValue_eq_ok` — a value is written as the encoding of its content;
* `decodeValue_encoding` — which reads back as that content, in canonical form;
* `decode_encode` — a document reads back with its values in canonical form;
* `document_codec` — and from nothing shorter or longer.
-/

namespace Caf.EntityStore.Redis

open DecimalText Framing Fallible List StringMap

variable {out data : Bytes} {document : Document} {limit : ℕ}

/-- A value up to canonicalisation. -/
inductive Content where
  | null
  | boolean (x : Bool)
  | signed (x : Int64)
  | unsigned (x : UInt64)
  | real (x : Double)
  | decimal (x : Decimal)
  | text (x : Bytes)
  | json (x : Bytes)
  | bytes (x : Bytes)

/-- A text behind its length. -/
def frame (text : Bytes) : Bytes := bigEndian (UInt64.ofNat text.length) ++ text

namespace Content

def kind : Content → ValueKind
  | null => .nullValue
  | boolean _ => .boolean
  | signed _ => .signedInteger
  | unsigned _ => .unsignedInteger
  | real _ => .real
  | decimal _ => .decimal
  | text _ => .text
  | json _ => .json
  | bytes _ => .bytes

/-- The text that is written behind its length, for the kinds that have one. -/
def framed? : Content → Option Bytes
  | decimal x => some x.str
  | text x => some x
  | json x => some x
  | bytes x => some x
  | _ => none

/-- What follows the byte of the kind. -/
def payload : Content → Bytes
  | null => []
  | boolean x => [if x then 1 else 0]
  | signed x => bigEndian x.toUInt64
  | unsigned x => bigEndian x
  | real x => bigEndian x.bits
  | decimal x => frame x.str
  | text x => frame x
  | json x => frame x
  | bytes x => frame x

def encoding (c : Content) : Bytes := c.kind.code :: c.payload

/-- The canonical value with this content. -/
def toValue : Content → Value
  | null => .null
  | boolean x => .boolean x
  | signed x => .signedInteger x
  | unsigned x => .unsignedInteger x
  | real x => .real x
  | decimal x => .decimal x.str
  | text x => .text x
  | json x => .json x
  | bytes x => .bytes x

@[simp] lemma toValue_kind (c : Content) : c.toValue.kind = c.kind := by
  cases c <;> rfl

end Content

/-- The content of a value that the codec accepts. -/
def contentOf (p : Platform) (item : Value) : Except EntityError Content :=
  match item.kind with
  | .nullValue => .ok .null
  | .boolean => .ok (.boolean item.booleanValue)
  | .signedInteger => .ok (.signed item.signedValue)
  | .unsignedInteger => .ok (.unsigned item.unsignedValue)
  | .real =>
    if !item.realValue.isFinite then invalid (str "non-finite real")
    else .ok (.real (if item.realValue.isZero then .zero else item.realValue))
  | .decimal => do
      let parsed ← Decimal.ofText item.textValue
      .ok (.decimal parsed)
  | .text => .ok (.text item.textValue)
  | .json =>
    if !p.jsonContainer item.textValue then
      invalid (str "JSON field must be one object or array")
    else .ok (.json item.textValue)
  | .bytes => .ok (.bytes item.bytesValue)

/-- The canonical form of a value; a value without content stays as it is. -/
def canonicalValue (p : Platform) (item : Value) : Value :=
  match contentOf p item with
  | .ok c => c.toValue
  | .error _ => item

variable {c : Content}

lemma contentOf_kind {p item} (h : contentOf p item = .ok c) :
    c.kind = item.kind := by
  unfold contentOf at h
  cases hk : item.kind with
  | real | json =>
    simp only [hk] at h
    split at h
    · cases h
    · cases h
      rfl
  | decimal =>
    simp only [hk] at h
    obtain ⟨d, -, hd⟩ := bind_eq_ok.mp h
    cases hd
    rfl
  | _ =>
    simp only [hk, Except.ok.injEq] at h
    rw [← h]
    rfl

/-! ## Writing -/

namespace Writer

lemma check_eq_ok :
    check data = .ok out ↔ out = data ∧ data.length ≤ maxBytes := by
  unfold check
  split
  · next h =>
    constructor
    · intro hbad
      cases hbad
    · rintro ⟨-, hle⟩
      omega
  · next h =>
    constructor
    · intro hok
      cases hok
      exact ⟨rfl, by omega⟩
    · rintro ⟨rfl, -⟩
      rfl

lemma take_eq_ok :
    take data = .ok out ↔ out = data ∧ data.length ≤ maxBytes := check_eq_ok

/-- Writing a text appends it behind its length, if the limit is kept. -/
lemma text_eq_ok {value} :
    text data value = .ok out ↔ out = data ++ frame value ∧ out.length ≤ maxBytes := by
  unfold text number frame
  split
  · next h =>
    constructor
    · intro hbad
      cases hbad
    · rintro ⟨rfl, hle⟩
      simp only [length_append] at hle
      omega
  · rw [check_eq_ok, append_assoc]
    constructor
    · rintro ⟨rfl, hle⟩
      exact ⟨rfl, hle⟩
    · rintro ⟨rfl, hle⟩
      exact ⟨rfl, hle⟩

end Writer

namespace EntityCodec

variable {p : Platform}

/-- Writing a content: a text is checked against the limit, the rest is only appended. -/
def write (out : Bytes) (c : Content) : Except EntityError Bytes :=
  match c.framed? with
  | some text => Writer.text (out ++ [c.kind.code]) text
  | none => .ok (out ++ c.encoding)

lemma write_eq_ok {out'} :
    write out c = .ok out' ↔
      out' = out ++ c.encoding ∧ (c.framed?.isSome → out'.length ≤ Writer.maxBytes) := by
  cases c <;>
    simp [write, Content.framed?, Content.encoding, Content.payload, Writer.text_eq_ok,
      eq_comm (a := out ++ _)]

/-- Encoding a value is taking its content and writing it. -/
lemma encodeValue_eq (out : Bytes) (item : Value) :
    encodeValue p out item = contentOf p item >>= write out := by
  unfold encodeValue contentOf
  cases hk : item.kind with
  | real =>
    simp only
    split <;> simp [invalid, write, Content.framed?, Content.encoding, Content.payload,
      Content.kind, Writer.byte, Writer.number]
  | decimal => simp [write, Content.framed?, Content.kind, Writer.byte]
  | json =>
    simp only
    split <;> simp [invalid, write, Content.framed?, Content.kind, Writer.byte]
  | _ => simp [write, Content.framed?, Content.encoding, Content.payload, Content.kind,
      Writer.byte, Writer.number]

/-- **A value is written as the encoding of its content**; texts are checked against the limit. -/
lemma encodeValue_eq_ok {out' item} :
    encodeValue p out item = .ok out' ↔
      ∃ c, contentOf p item = .ok c ∧ out' = out ++ c.encoding ∧
        (c.framed?.isSome → out'.length ≤ Writer.maxBytes) := by
  simp only [encodeValue_eq, bind_eq_ok, write_eq_ok]

end EntityCodec

/-! ## Reading -/

lemma frame_ne_nil (text : Bytes) : frame text ≠ [] := by
  simp [frame, bigEndian]

lemma frame_length (text : Bytes) : (frame text).length = 8 + text.length := by
  simp [frame]

namespace Reader

lemma numberLoop_append (rest : Bytes) : ∀ (bytes : Bytes) (out : UInt64),
    numberLoop bytes.length out (bytes ++ rest) = .ok (ofBigEndian out bytes, rest)
  | [], _ => rfl
  | c :: bytes, out => by
    simp only [length_cons, numberLoop, cons_append, byte, ok_bind]
    rw [numberLoop_append rest bytes]
    rfl

@[simp] lemma number_bigEndian (v : UInt64) (rest : Bytes) :
    number (bigEndian v ++ rest) = .ok (v, rest) := by
  have h := numberLoop_append rest (bigEndian v) 0
  rw [ofBigEndian_bigEndian] at h
  exact h

lemma text_frame {text} (rest : Bytes) (h : text.length < 2 ^ 64) :
    Reader.text (frame text ++ rest) = .ok (text, rest) := by
  have hcount : (UInt64.ofNat text.length).toNat = text.length := by
    rw [UInt64.toNat_ofNat']
    omega
  simp [Reader.text, frame, append_assoc, hcount]

end Reader

lemma frame_selfDelimiting (hlimit : limit < 2 ^ 64) : SelfDelimiting limit frame := by
  apply selfDelimiting_of_reader
  intro text rest h
  rw [frame_length] at h
  exact Reader.text_frame rest (by omega)

namespace Content

/-- The texts of a content fit into their length fields. -/
lemma framed_length_lt {text} (hc : c.framed? = some text)
    (h : c.encoding.length ≤ limit) (hlimit : limit < 2 ^ 64) : text.length < 2 ^ 64 := by
  cases c <;> simp only [framed?, reduceCtorEq, Option.some.injEq] at hc
  all_goals
    subst hc
    simp only [encoding, payload, length_cons, frame_length] at h
    omega

lemma toValue_injective : Function.Injective toValue := by
  intro c d h
  have hkind := congrArg Value.kind h
  rw [toValue_kind, toValue_kind] at hkind
  cases c <;> cases d <;> simp only [kind, reduceCtorEq] at hkind <;>
    simp only [toValue, Value.boolean, Value.signedInteger, Value.unsignedInteger, Value.real,
      Value.decimal, Value.text, Value.json, Value.bytes, Value.mk.injEq, true_and, and_true,
      and_self] at h <;>
    simp [h]
  exact Decimal.str_injective h

end Content

namespace EntityCodec

/-- **An encoded content reads back in canonical form.** -/
lemma decodeValue_encoding (rest : Bytes)
    (h : c.encoding.length ≤ limit) (hlimit : limit < 2 ^ 64) :
    decodeValue (c.encoding ++ rest) = .ok (c.toValue, rest) := by
  cases c with
  | boolean x =>
    cases x <;> simp [decodeValue, Content.encoding, Content.payload, Content.kind,
      ValueKind.code, Reader.byte, Content.toValue]
  | decimal x | text x | json x | bytes x =>
    have htext := Reader.text_frame rest (Content.framed_length_lt rfl h hlimit)
    simp [decodeValue, Content.encoding, Content.payload, Content.kind, ValueKind.code,
      Reader.byte, Content.toValue, htext]
  | _ =>
    simp [decodeValue, Content.encoding, Content.payload, Content.kind, ValueKind.code,
      Reader.byte, Content.toValue]

end EntityCodec

lemma encoding_selfDelimiting (hlimit : limit < 2 ^ 64) :
    SelfDelimiting limit Content.encoding := by
  intro c d u v hc hd heq
  have hread := EntityCodec.decodeValue_encoding u hc hlimit
  rw [heq, EntityCodec.decodeValue_encoding v hd hlimit, Except.ok.injEq, Prod.mk.injEq] at hread
  exact ⟨(Content.toValue_injective hread.1).symm, hread.2.symm⟩

/-! ## Documents -/

lemma maxBytes_lt : Writer.maxBytes < 2 ^ 64 := by norm_num [Writer.maxBytes]

/-- A named content, as the loops of the codec write it. -/
def entryEncoding (entry : Bytes × Content) : Bytes := frame entry.1 ++ entry.2.encoding

def entryContent (p : Platform) (entry : Bytes × Value) : Except EntityError (Bytes × Content) := do
  let c ← contentOf p entry.2
  .ok (entry.1, c)

lemma entryEncoding_ne_nil (entry : Bytes × Content) : entryEncoding entry ≠ [] := by
  simp [entryEncoding, frame_ne_nil]

lemma entryEncoding_selfDelimiting : SelfDelimiting Writer.maxBytes entryEncoding :=
  (frame_selfDelimiting maxBytes_lt).append (encoding_selfDelimiting maxBytes_lt)

/-- The contents of some entries, as values, are their canonical forms. -/
lemma mapM_entryContent {p} : ∀ {entries : List (Bytes × Value)}
    {contents : List (Bytes × Content)}, entries.mapM (entryContent p) = .ok contents →
      contents.map (fun e => (e.1, e.2.toValue)) = entries.map fun e => (e.1, canonicalValue p e.2)
  | [], contents, h => by
    cases h
    rfl
  | entry :: entries, contents, h => by
    simp only [mapM_cons, entryContent, bind_eq_ok, pure_eq_ok] at h
    obtain ⟨c, ⟨content, hcont, hc⟩, cs, hcs, hcons⟩ := h
    cases hc
    cases hcons
    simp [mapM_entryContent hcs, canonicalValue, hcont]

namespace EntityCodec

variable {p : Platform}

lemma encodeEntry_appends : Appends (encodeEntry p) (entryContent p) entryEncoding := by
  intro out out' entry h
  obtain ⟨mid, hname, hval⟩ := bind_eq_ok.mp h
  obtain ⟨rfl, -⟩ := Writer.text_eq_ok.mp hname
  obtain ⟨c, hc, rfl, -⟩ := encodeValue_eq_ok.mp hval
  exact ⟨(entry.1, c), by simp [entryContent, hc], by simp [entryEncoding]⟩

/-- The bytes of a document with the given entries. -/
def documentBytes (version : UInt64) (entries : List (Bytes × Content)) : Bytes :=
  frame (str "redis-entity-v1") ++ (bigEndian version ++ counted entryEncoding entries)

/-- What `encode` writes. -/
lemma encode_eq_ok {bytes} (h : encode p document = .ok bytes) :
    ∃ entries, document.fields.toList.mapM (entryContent p) = .ok entries ∧
      entries.length = document.fields.size ∧
      bytes = documentBytes document.version entries ∧ bytes.length ≤ Writer.maxBytes := by
  simp only [encode, bind_eq_ok, Writer.text_eq_ok, Writer.take_eq_ok] at h
  obtain ⟨out, ⟨rfl, -⟩, out', hloop, rfl, hle⟩ := h
  obtain ⟨entries, hents, rfl⟩ := encodeEntry_appends.foldlM hloop
  have hlen : entries.length = document.fields.size := by
    have := congrArg List.length (mapM_entryContent hents)
    simpa [Std.ExtTreeMap.length_toList] using this
  refine ⟨entries, hents, hlen, ?_, hle⟩
  simp [documentBytes, counted, Writer.number, hlen]

/-- The field loop reads entries with distinct new columns back into the map. -/
lemma decodeFields_entries (rest : Bytes) : ∀ (entries : List (Bytes × Content))
    (fields : StringMap Value), (entries.flatMap entryEncoding).length ≤ Writer.maxBytes →
      entries.Pairwise (fun a b => a.1 ≠ b.1) → (∀ e ∈ entries, e.1 ∉ fields) →
      decodeFields entries.length fields (entries.flatMap entryEncoding ++ rest)
        = .ok (fields.insertMany (entries.map fun e => (e.1, e.2.toValue)), rest)
  | [], fields, _, _, _ => by
    simp [decodeFields, Std.ExtTreeMap.insertMany_nil]
  | (column, c) :: entries, fields, hlen, hdist, hnew => by
    have hmax := maxBytes_lt
    simp only [flatMap_cons, length_append, entryEncoding, frame_length] at hlen
    rw [pairwise_cons] at hdist
    have hcol : column ∉ fields := hnew (column, c) (by simp)
    have hrest : ∀ e ∈ entries, e.1 ∉ fields.insert column c.toValue := by
      intro e he
      rw [mem_insert, not_or]
      exact ⟨hdist.1 e he, hnew e (by simp [he])⟩
    simp only [length_cons, decodeFields, flatMap_cons, entryEncoding,
      append_assoc, map_cons, Std.ExtTreeMap.insertMany_cons]
    rw [Reader.text_frame _ (by omega)]
    simp only [ok_bind]
    rw [decodeValue_encoding _ (show c.encoding.length ≤ Writer.maxBytes by omega) hmax]
    simp only [ok_bind, if_neg hcol]
    exact decodeFields_entries rest entries _ (by omega)
      hdist.2 hrest

/-- **A stored document reads back with its values in canonical form.**  `decode` accepts fewer
fields than `encode` writes, hence the bound on their number. -/
theorem decode_encode {bytes} (h : encode p document = .ok bytes)
    (hpos : document.version ≠ 0) (hmax : document.version ≤ int64Max)
    (hsize : document.fields.size ≤ 65536) :
    decode bytes = .ok { version := document.version,
                         fields := document.fields.map fun _ => canonicalValue p } := by
  obtain ⟨entries, hents, hlen, rfl, hle⟩ := encode_eq_ok h
  have hvalues := mapM_entryContent hents
  have hlimit := hle
  simp only [documentBytes, counted, length_append, frame_length, bigEndian_length] at hlimit
  have hcount : (UInt64.ofNat entries.length).toNat = entries.length := by
    rw [UInt64.toNat_ofNat']
    omega
  have hdist : entries.Pairwise fun a b => a.1 ≠ b.1 := by
    have hcols : entries.map Prod.fst = document.fields.toList.map Prod.fst := by
      have := congrArg (List.map Prod.fst) hvalues
      simpa [Function.comp_def] using this
    have := toList_distinct document.fields
    rw [← pairwise_map (f := Prod.fst) (R := fun a b => a ≠ b)] at this ⊢
    rwa [hcols]
  have hfields := decodeFields_entries [] entries ∅ (by omega) hdist (by simp)
  rw [hvalues, insertMany_toList, append_nil] at hfields
  have hmake : Reader.make (documentBytes document.version entries)
      = .ok (documentBytes document.version entries) := if_neg (by omega)
  have hver : ¬(document.version = 0 ∨ document.version > int64Max) := by
    rw [not_or]
    exact ⟨hpos, UInt64.not_lt.mpr hmax⟩
  have hfew : ¬(UInt64.ofNat entries.length > 65536) := by
    rw [gt_iff_lt, UInt64.lt_iff_toNat_lt, hcount]
    have : (65536 : UInt64).toNat = 65536 := rfl
    omega
  unfold decode
  rw [hmake]
  simp only [ok_bind, documentBytes]
  rw [Reader.text_frame _ (by decide)]
  simp [ok_bind, Reader.number_bigEndian, if_neg hver, counted, hfew, hcount, hfields, Reader.finish]

end EntityCodec

/-! ## Encodings that are cut off or go on -/

namespace Reader

lemma byte_extensible : Extensible byte := by
  intro data c rest h more
  cases data with
  | nil => cases h
  | cons first data =>
    cases h
    rfl

lemma numberLoop_extensible (n : ℕ) : ∀ out, Extensible (numberLoop n out) := by
  induction n with
  | zero =>
    intro out data a rest h more
    cases h
    rfl
  | succ n ih =>
    intro out data a rest h more
    exact byte_extensible.bind_eq_ok h more fun c mid hc => ih _ mid a rest hc more

lemma text_extensible : Extensible Reader.text := by
  intro data text rest h more
  refine (numberLoop_extensible 8 0).bind_eq_ok h more fun count mid hcount => ?_
  obtain ⟨hlen, htext⟩ := guard_eq_ok.mp hcount
  have hle : count.toNat ≤ mid.length := Nat.not_lt.mp hlen
  cases htext
  dsimp only
  rw [if_neg (by rw [length_append]; omega), take_append_of_le_length hle,
    drop_append_of_le_length hle]

end Reader

namespace EntityCodec

lemma decodeValue_extensible : Extensible decodeValue := by
  intro data a rest h more
  have hnum := Reader.numberLoop_extensible 8 0
  refine Reader.byte_extensible.bind_eq_ok h more fun kind mid hval => ?_
  dsimp only at hval ⊢
  split_ifs at hval ⊢
  · cases hval
    rfl
  · refine Reader.byte_extensible.bind_eq_ok hval more fun b mid hb => ?_
    dsimp only at hb ⊢
    split_ifs at hb ⊢
    · cases hb
    · cases hb
      rfl
  iterate 3 exact hnum.bind_eq_ok hval more fun n mid hn => by cases hn; rfl
  iterate 4 exact Reader.text_extensible.bind_eq_ok hval more fun text mid ht => by cases ht; rfl
  · cases hval

lemma decodeFields_extensible (n : ℕ) : ∀ fields, Extensible (decodeFields n fields) := by
  induction n with
  | zero =>
    intro fields data a rest h more
    cases h
    rfl
  | succ n ih =>
    intro fields data a rest h more
    refine Reader.text_extensible.bind_eq_ok h more fun column mid hcol => ?_
    refine decodeValue_extensible.bind_eq_ok hcol more fun item mid hitem => ?_
    obtain ⟨hnew, hrest⟩ := guard_eq_ok.mp hitem
    exact guard_eq_ok.mpr ⟨hnew, ih _ mid a rest hrest more⟩

/-- What `decode` accepts it does not accept with anything behind it. -/
lemma decode_extended {more} (h : decode data = .ok document)
    (hmore : more ≠ []) : ∃ error, decode (data ++ more) = .error error := by
  simp only [decode, corrupt, bind_eq_ok, guard_eq_ok, error_bind] at h
  obtain ⟨start, hmake, ⟨format, d₁⟩, hformat, hname, ⟨version, d₂⟩, hver, hrange, ⟨count, d₃⟩,
    hcount, hfew, ⟨fields, d₄⟩, hfields, _, hfinish, -⟩ := h
  obtain rfl : data = start := by
    unfold Reader.make at hmake
    split at hmake
    · cases hmake
    · exact Except.ok.inj hmake
  obtain rfl : d₄ = [] := by
    cases d₄ with
    | nil => rfl
    | cons c rest => cases hfinish
  have htrailing : ∃ error, Reader.finish more = .error error := by
    cases more with
    | nil => exact absurd rfl hmore
    | cons c rest => exact ⟨_, rfl⟩
  obtain ⟨error, herr⟩ := htrailing
  by_cases hlong : (data ++ more).length > Writer.maxBytes
  · have hmake' : Reader.make (data ++ more) = corrupt (str "stored entity exceeds size limit") :=
      if_pos hlong
    exact ⟨_, by rw [decode, hmake']; rfl⟩
  · refine ⟨error, ?_⟩
    have hver' := Reader.numberLoop_extensible 8 0 _ _ _ hver more
    have hcount' := Reader.numberLoop_extensible 8 0 _ _ _ hcount more
    simp only [decode, Reader.make, if_neg hlong, ok_bind, corrupt, Reader.number,
      Reader.text_extensible _ _ _ hformat more, if_neg hname, hver', if_neg hrange, hcount',
      if_neg hfew, decodeFields_extensible _ _ _ _ _ hfields more, nil_append, herr,
      error_bind]

variable {p : Platform}

/-- **The document codec.**  An encoding reads back as its document in canonical form, no proper part
at its front and nothing that continues it is accepted, and two documents with one encoding are equal
up to canonicalisation. -/
theorem document_codec {document : Document} {bytes : Bytes} (h : encode p document = .ok bytes)
    (hpos : document.version ≠ 0) (hmax : document.version ≤ int64Max)
    (hsize : document.fields.size ≤ 65536) :
    decode bytes = .ok { version := document.version,
                         fields := document.fields.map fun _ => canonicalValue p } ∧
    (∀ front more, more ≠ [] → bytes = front ++ more → ∃ error, decode front = .error error) ∧
    (∀ more, more ≠ [] → ∃ error, decode (bytes ++ more) = .error error) ∧
    ∀ document' : Document, encode p document' = .ok bytes → document'.version ≠ 0 →
      document'.version ≤ int64Max → document'.fields.size ≤ 65536 →
      document'.version = document.version ∧ (document'.fields.map fun _ => canonicalValue p)
        = document.fields.map fun _ => canonicalValue p := by
  have hdec := decode_encode h hpos hmax hsize
  refine ⟨hdec, fun front more hmore hsplit => ?_, fun more => decode_extended hdec, ?_⟩
  · cases hfront : decode front with
    | error error => exact ⟨error, rfl⟩
    | ok document' =>
      obtain ⟨error, herr⟩ := decode_extended hfront hmore
      rw [← hsplit, hdec] at herr
      cases herr
  · intro document' h' hpos' hmax' hsize'
    have hsame := (decode_encode h' hpos' hmax' hsize').symm.trans hdec
    exact Document.mk.inj (Except.ok.inj hsame)

namespace Sample

def item : Document where
  version := 3
  fields := (∅ : StringMap Value).insert (str "price") (.decimal (str "1.50"))

def stored : Bytes := (encode .integral item).toOption.getD []

end Sample

open Sample in
/-- One byte behind the encoding of a document is one too many. -/
theorem document_codec_item : encode .integral item = .ok stored ∧
    ∃ error, decode (stored ++ [0]) = .error error :=
  have h : encode .integral item = .ok stored := by decide +kernel
  ⟨h, (document_codec h (by decide +kernel) (by decide +kernel) (by decide +kernel)).2.2.1 [0] (by decide)⟩

end EntityCodec

end Caf.EntityStore.Redis
