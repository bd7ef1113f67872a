import OpenPubSub.NetworkMessage.EncodeDecode
import OpenPubSub.NetworkMessage.Sizes
import OpenPubSub.Types.Refit

/-!
# Encoding DataSetMessages that were decoded

Whatever bytes a DataSetMessage was read from, its own encoding takes no more of them.

- `Takes R x`: a value that `x` reads is as `R` says about it and the number of bytes it took.
  `Puts put R x s` is the same for a decoder that puts the value into a structure, and
  `Guarded` for a section with an enable flag.
- `DataSetMessage.HoldsPlain` asks for the field encoding and the types of the Variants only.
- **`takes_uaDataSetMessage`**: then the message can be encoded and read back, and
  is not longer than it was.
-/

namespace OpenPubSub

open Routine

variable {src : Bytes} {T : DataTypes} {M N α : Type}

/-! ## The judgements -/

/-- A value that is read is as `R` says about it and the number of bytes it took. -/
def Takes (R : α → Nat → Prop) (x : Routine ErrorCode Nat α) : Prop :=
  ∀ p a q, x p = .done a q → ∃ n, q = p + n ∧ R a n

/-- The same for a decoder that puts the value into the structure. -/
def Puts (put : α → M → M) (R : α → Nat → Prop) (x : Decoder M Unit) (s : Decoding M) : Prop :=
  ∀ t, x s = .done () t → ∃ a n, t = ⟨s.offset + n, put a s.dst⟩ ∧ R a n

/-- The same for a section that is there if `c` is set. -/
structure Guarded (c : Bool) (R : α → Nat → Prop) (blank a : α) (n : Nat) : Prop where
  present : c = true → R a n
  absent : c = false → a = blank ∧ n = 0

theorem Refits.takes {P : α → Prop} {size : α → Nat} {x : Dec α} (hx : Refits src P size x) :
    Takes (fun a n => P a ∧ size a ≤ n) (uaDecodeBinary x) := by
  intro p a q h
  obtain ⟨t, ht, rfl⟩ := uaDecodeBinary_eq_done h
  obtain ⟨hP, hmoved⟩ := hx _ _ _ ht
  have hadvance : p + size a ≤ t.pos := hmoved.advance
  exact ⟨t.pos - p, by omega, hP, by omega⟩

/-- What was read, and what has become of the structure. -/
theorem Takes.read [Inhabited α] {R : α → Nat → Prop} {x : Routine ErrorCode Nat α}
    (hx : Takes R x) {put : α → M → M} {s t : Decoding M} (h : decodeInto x put s = .done () t) :
    ∃ a n, x s.offset = .done a (s.offset + n) ∧ t = ⟨s.offset + n, put a s.dst⟩ ∧ R a n := by
  obtain ⟨a, ha, hdst⟩ := decodeInto_eq_done h
  obtain ⟨n, hn, hR⟩ := hx _ _ _ ha
  refine ⟨a, n, hn ▸ ha, ?_, hR⟩
  rw [← hn, ← hdst]

theorem Takes.puts [Inhabited α] {R : α → Nat → Prop} {x : Routine ErrorCode Nat α}
    (hx : Takes R x) {put : α → M → M} (s : Decoding M) : Puts put R (decodeInto x put) s := by
  intro t ht
  obtain ⟨a, n, -, hn, hR⟩ := hx.read ht
  exact ⟨a, n, hn, hR⟩

theorem Takes.ofLocal {R : α → Nat → Prop} {x : Routine ErrorCode Nat α} (hx : Takes R x)
    {s t : Decoding M} {a : α} (h : decodeLocal x s = .done a t) :
    ∃ n, t = ⟨s.offset + n, s.dst⟩ ∧ R a n := by
  obtain ⟨q, hq, rfl⟩ := zoom_eq_done.mp h
  obtain ⟨n, rfl, hR⟩ := hx _ _ _ hq
  exact ⟨n, rfl, hR⟩

theorem Puts.onFlag {R : α → Nat → Prop} {put : α → M → M} {flag : M → Bool} {x : Decoder M Unit}
    {s : Decoding M} {b : α} (hx : flag s.dst = true → Puts put R x s)
    (hblank : put b s.dst = s.dst) :
    Puts put (Guarded (flag s.dst) R b) (onFlag flag x) s := by
  intro t ht
  have hrun : (if flag s.dst then x else pure ()) s = .done () t := ht
  cases hc : flag s.dst with
  | true =>
    rw [hc, if_pos rfl] at hrun
    obtain ⟨a, n, hn, hR⟩ := hx hc t hrun
    exact ⟨a, n, hn, fun _ => hR, Bool.noConfusion⟩
  | false =>
    rw [hc, if_neg Bool.false_ne_true] at hrun
    cases hrun
    exact ⟨b, 0, by rw [hblank]; rfl, Bool.noConfusion, fun _ => ⟨rfl, rfl⟩⟩

/-- A structure inside the structure. -/
theorem Puts.part {R : N → Nat → Prop} {get : M → N} {put : N → M → M} {x : Decoder N Unit}
    {s : Decoding M} (hx : Puts (fun b _ => b) R x ⟨s.offset, get s.dst⟩) :
    Puts put R (decodePart get put x) s := by
  intro t ht
  obtain ⟨u, hu, rfl⟩ := zoom_eq_done.mp ht
  obtain ⟨b, n, rfl, hR⟩ := hx u hu
  exact ⟨b, n, rfl, hR⟩

/-- What is there takes `k` bytes or more. -/
theorem Guarded.le {c : Bool} {k n : Nat} {blank a : α}
    (h : Guarded c (fun (_ : α) n => k ≤ n) blank a n) : (if c then k else 0) ≤ n := by
  cases c with
  | true => exact h.present rfl
  | false => exact Nat.zero_le n

/-- Values read one after the other. -/
theorem Takes.all {R : α → Nat → Prop} {x : Routine ErrorCode Nat α} (hx : Takes R x) {p : Nat}
    {as : List α} {ns : List Nat} (h : Consecutive x p as ns) : ∀ a ∈ as, ∃ n, R a n :=
  h.forall_of_read fun q a r ha => by
    obtain ⟨n, -, hR⟩ := hx q a r ha
    exact ⟨n, hR⟩

theorem Takes.sum_le {R : α → Nat → Prop} {x : Routine ErrorCode Nat α} (hx : Takes R x) {p : Nat}
    {as : List α} {ns : List Nat} (h : Consecutive x p as ns) {size : α → Nat}
    (hsize : ∀ a ∈ as, ∀ n, R a n → size a ≤ n) : (as.map size).sum ≤ ns.sum :=
  h.sum_le fun a ha q n hread => by
    obtain ⟨k, hk, hR⟩ := hx _ _ _ hread
    rw [Nat.add_left_cancel hk]
    exact hsize a ha k hR

theorem takes_of_moved {k : Nat} {x : Dec α}
    (hx : ∀ {s a t}, x s = .done a t → Moved True src k s t) :
    Takes (fun _ n => k ≤ n) (uaDecodeBinary x) := by
  intro p a q h
  obtain ⟨t, ht, rfl⟩ := uaDecodeBinary_eq_done h
  have hadvance : p + k ≤ t.pos := (hx ht).advance
  exact ⟨t.pos - p, by omega, by omega⟩

theorem takes_uaByte : Takes (fun _ n => 1 ≤ n) (uaByteDecodeBinary src) :=
  takes_of_moved byteDecodeBinary_moved

theorem takes_uaUInt16 : Takes (fun _ n => 2 ≤ n) (uaUInt16DecodeBinary src) :=
  takes_of_moved uint16DecodeBinary_moved

theorem takes_uaUInt32 : Takes (fun _ n => 4 ≤ n) (uaUInt32DecodeBinary src) :=
  takes_of_moved uint32DecodeBinary_moved

theorem takes_uaUInt64 : Takes (fun _ n => 8 ≤ n) (uaUInt64DecodeBinary src) :=
  takes_of_moved uint64DecodeBinary_moved

/-! ## DataSetMessageHeader -/

/-- Without the second flag byte the message is a key frame without timestamps. -/
theorem dataSetFlagsDecodeBinary_puts (p : Nat) :
    Puts (fun h _ => h.flagsOnly)
      (fun (h : DataSetMessageHeader) n => 1 + (if h.dataSetFlags2Enabled then 1 else 0) ≤ n)
      (dataSetFlagsDecodeBinary src) ⟨p, default⟩ := by
  intro t ht
  obtain ⟨v, s₁, hv, ht⟩ := bind_eq_done.mp ht
  obtain ⟨n, rfl, hn⟩ := takes_uaByte.ofLocal hv
  obtain ⟨_, s₂, hassign, ht⟩ := bind_eq_done.mp ht
  cases hassign
  unfold onBit at ht
  split at ht
  · obtain ⟨v', s₃, hv', hassign⟩ := bind_eq_done.mp ht
    obtain ⟨n', rfl, hn'⟩ := takes_uaByte.ofLocal hv'
    have hdst := (Outcome.done.inj hassign).2
    refine ⟨t.dst, n + n', ?_, ?_⟩
    · rw [← hdst, ← Nat.add_assoc]
      rfl
    · have hle : (if t.dst.dataSetFlags2Enabled then 1 else 0) ≤ 1 := by split <;> omega
      exact Nat.le_trans (Nat.add_le_add_left hle 1) (Nat.add_le_add hn hn')
  · have hdst := (Outcome.done.inj ht).2
    refine ⟨t.dst, n, ?_, ?_⟩
    · rw [← hdst]
      rfl
    · rw [← hdst]
      exact hn

/-- The header has zeros where there is no section, and its encoding fits. -/
theorem dataSetMessageHeaderDecodeBinary_puts (s : Decoding DataSetMessageHeader) :
    Puts (fun h _ => h)
      (fun h n => h.IsZeroed ∧ (pieceBytes (dataSetMessageHeaderPieces 0 h)).length ≤ n)
      (dataSetMessageHeaderDecodeBinary src) s := by
  intro t ht
  obtain ⟨_, _, hassign, ht⟩ := bind_eq_done.mp ht
  cases hassign
  obtain ⟨_, _, hflags, ht⟩ := bind_eq_done.mp ht
  obtain ⟨h, n, rfl, hn⟩ := dataSetFlagsDecodeBinary_puts _ _ hflags
  -- section by section, each behind its flag
  obtain ⟨_, _, hsection, ht⟩ := bind_eq_done.mp ht
  obtain ⟨sequenceNr, n₁, rfl, h₁⟩ := Puts.onFlag (fun _ => takes_uaUInt16.puts _) rfl _ hsection
  obtain ⟨_, _, hsection, ht⟩ := bind_eq_done.mp ht
  obtain ⟨timestamp, n₂, rfl, h₂⟩ := Puts.onFlag (fun _ => takes_uaUInt64.puts _) rfl _ hsection
  obtain ⟨_, _, hsection, ht⟩ := bind_eq_done.mp ht
  obtain ⟨picoSeconds, n₃, rfl, h₃⟩ := Puts.onFlag (fun _ => takes_uaUInt16.puts _) rfl _ hsection
  obtain ⟨_, _, hsection, ht⟩ := bind_eq_done.mp ht
  obtain ⟨status, n₄, rfl, h₄⟩ := Puts.onFlag (fun _ => takes_uaUInt16.puts _) rfl _ hsection
  obtain ⟨_, _, hsection, ht⟩ := bind_eq_done.mp ht
  obtain ⟨majorVersion, n₅, rfl, h₅⟩ := Puts.onFlag (fun _ => takes_uaUInt32.puts _) rfl _ hsection
  obtain ⟨minorVersion, n₆, rfl, h₆⟩ := Puts.onFlag (fun _ => takes_uaUInt32.puts _) rfl _ ht
  have hoffset : s.offset + n + n₁ + n₂ + n₃ + n₄ + n₅ + n₆ =
      s.offset + (n + n₁ + n₂ + n₃ + n₄ + n₅ + n₆) := by omega
  refine ⟨_, _, congrArg (Decoding.mk · _) hoffset, ?_, ?_⟩
  · exact ⟨fun hc => (h₁.absent hc).1, fun hc => (h₂.absent hc).1, fun hc => (h₃.absent hc).1,
      fun hc => (h₄.absent hc).1, fun hc => (h₅.absent hc).1, fun hc => (h₆.absent hc).1⟩
  · have hlen := Nat.add_le_add (Nat.add_le_add (Nat.add_le_add (Nat.add_le_add (Nat.add_le_add
      (Nat.add_le_add hn h₁.le) h₂.le) h₃.le) h₄.le) h₅.le) h₆.le
    refine Nat.le_trans (Nat.le_of_eq ?_) hlen
    simp only [dataSetMessageHeaderPieces, pieceBytes_append, pieceBytes_ite, pieceBytes_cons,
      pieceBytes_nil, List.append_nil, List.length_append, apply_ite List.length,
      List.length_singleton, List.length_nil, leBytes_length, Nat.add_assoc]
    rfl

/-! ## Fields -/

/-- A field in VARIANT encoding is a Variant and nothing else. If its Variant is of a plain
type, the field can be encoded, in `n` bytes or less. -/
structure FieldRefits (T : DataTypes) (encoding : FieldEncoding) (f : DataValue) (n : Nat) :
    Prop where
  fits : f.FitsEncoding encoding
  plain : f.value.HoldsPlain → IsPlainField T encoding f
  length : f.value.HoldsPlain → ((leafSpec T).bytes encoding f).length ≤ n

/-- Whether or not the value is as it should be, the offset has moved forward. -/
theorem Moves.takes {I : Prop} {k : Nat} {R : α → Nat → Prop} {x : Dec α}
    (hx : Moves I src (decodeFuel src) k x)
    (hR : ∀ p a t, x ⟨p, 0⟩ = .done a t → R a (t.pos - p)) : Takes R (uaDecodeBinary x) := by
  intro p a q h
  obtain ⟨t, ht, rfl⟩ := uaDecodeBinary_eq_done h
  have hmoved := hx ⟨p, 0⟩ (fuelled_decodeFuel p)
  rw [ht] at hmoved
  have hadvance : p + k ≤ t.pos := hmoved.advance
  exact ⟨t.pos - p, by omega, hR p a t ht⟩

theorem takes_uaVariant (hT : StandardTypes T) :
    Takes (fun v n => v.HoldsPlain → (Variant.IsPlain T v ∧ (variantPlan T v).ok = true) ∧
      (variantPlan T v).bytes.length ≤ n) (uaVariantDecodeBinary src T) := by
  refine uaVariant_moves.takes fun p v t ht hv => ?_
  obtain ⟨hplain, hok, hmoved⟩ := variantDecodeBinary_refits hT.withoutCustomTypes ht hv
  exact ⟨⟨Variant.isPlain_withoutCustomTypes.mp hplain, hok⟩,
    Nat.le_sub_of_add_le' hmoved.advance⟩

/-- A field value, in the two encodings that have one. -/
theorem takes_fieldValue (hT : StandardTypes T) (encoding : FieldEncoding) :
    Takes (FieldRefits T encoding) (fieldValueDecodeBinary src T encoding) := by
  cases encoding with
  | variant =>
    intro p f q h
    obtain ⟨v, hv, rfl⟩ := map_eq_done.mp h
    obtain ⟨n, rfl, hplain⟩ := takes_uaVariant hT _ _ _ hv
    exact ⟨n, rfl, fun _ => rfl, fun h => (hplain h).1, fun h => (hplain h).2⟩
  | dataValue =>
    refine uaDataValue_moves.takes fun p f t ht =>
      ⟨fun h => absurd h (by decide), fun h => ?_, fun h => ?_⟩
    · obtain ⟨hplain, hok, -⟩ := dataValueDecodeBinary_refits hT.withoutCustomTypes ht h
      exact ⟨DataValueOf.isPlain_withoutCustomTypes.mp hplain, hok⟩
    · obtain ⟨-, -, hmoved⟩ := dataValueDecodeBinary_refits hT.withoutCustomTypes ht h
      exact Nat.le_sub_of_add_le' hmoved.advance
  | rawData | reserved =>
    intro p f q h
    cases h

/-- An iteration of the key frame loop, VARIANT encoding. -/
theorem keyFrameVariant_collects (hT : StandardTypes T) (d : DataSetMessage) :
    Consecutive.Collects (fieldValueDecodeBinary src T .variant) (keyFrameState d) default
      (keyFrameVariantDecodeBinary src T) := by
  intro i fs q u hi h
  obtain ⟨_, _, hassign, h⟩ := bind_eq_done.mp h
  rw [assign_onField hi] at hassign
  cases hassign
  obtain ⟨_, _, hvalue, hassign⟩ := bind_eq_done.mp h
  obtain ⟨v, n, hv, rfl, -⟩ := (takes_uaVariant hT).read hvalue
  refine ⟨_, n, map_done hv, ?_⟩
  rw [← (Outcome.done.inj hassign).2]
  have hi' : (fs.set i default)[i]? = some (default : DataValue) := set_of_getElem? hi
  show keyFrameState d (q + n) (((fs.set i default).modify i _).modify i _) = _
  rw [modify_eq_set_of_getElem? hi', List.set_set, modify_eq_set_of_getElem? (set_of_getElem? hi),
    List.set_set]

/-- The same in DATAVALUE encoding. -/
theorem keyFrameDataValue_collects (hT : StandardTypes T) (d : DataSetMessage) :
    Consecutive.Collects (fieldValueDecodeBinary src T .dataValue) (keyFrameState d) default
      (keyFrameDataValueDecodeBinary src T) := by
  intro i fs q u hi h
  obtain ⟨f, n, hf, rfl, -⟩ := (takes_fieldValue hT .dataValue).read h
  refine ⟨f, n, hf, ?_⟩
  show keyFrameState d (q + n) (fs.modify i _) = _
  rw [modify_eq_set_of_getElem? hi]

/-- A delta frame field: its index and its value. -/
def deltaFrameFieldDecodeBinary (src : Bytes) (T : DataTypes) (encoding : FieldEncoding) :
    Routine ErrorCode Nat DeltaFrameField := do
  let fieldIndex ← uaUInt16DecodeBinary src
  let fieldValue ← fieldValueDecodeBinary src T encoding
  pure ⟨.init fieldIndex, .init fieldValue⟩

/-- What is written for a delta frame field is its index and its value. -/
def deltaFieldLength (T : DataTypes) (encoding : FieldEncoding) (f : DeltaFrameField) : Nat :=
  (f.pair?.map fun p => 2 + ((leafSpec T).bytes encoding p.2).length).getD 0

/-- Both were written, and the field is as a field of a key frame. -/
structure DeltaFieldRefits (T : DataTypes) (encoding : FieldEncoding) (f : DeltaFrameField)
    (n : Nat) : Prop where
  written : ∃ p, f.pair? = some p
  fits : ∀ p, f.pair? = some p → p.2.FitsEncoding encoding
  plain : ∀ p, f.pair? = some p → p.2.value.HoldsPlain → IsPlainField T encoding p.2
  length : (∀ p, f.pair? = some p → p.2.value.HoldsPlain) → deltaFieldLength T encoding f ≤ n

theorem takes_deltaFrameField (hT : StandardTypes T) (encoding : FieldEncoding) :
    Takes (DeltaFieldRefits T encoding) (deltaFrameFieldDecodeBinary src T encoding) := by
  intro p f q h
  obtain ⟨index, q', hindex, h⟩ := bind_eq_done.mp h
  obtain ⟨value, q'', hvalue, hpure⟩ := bind_eq_done.mp h
  cases hpure
  obtain ⟨k, rfl, hk⟩ := takes_uaUInt16 _ _ _ hindex
  obtain ⟨n, rfl, hn⟩ := takes_fieldValue hT encoding _ _ _ hvalue
  refine ⟨k + n, Nat.add_assoc _ _ _, ⟨_, rfl⟩, ?_, ?_, fun h => ?_⟩
  · intro p hp
    cases hp
    exact hn.fits
  · intro p hp
    cases hp
    exact hn.plain
  · exact Nat.add_le_add hk (hn.length (h _ rfl))

/-- The field index at the beginning of an iteration of the delta frame loops. -/
theorem deltaFrameIndex_read {d : DataSetMessage} {i q : Nat} {fs : List DeltaFrameField}
    {u : Decoding DataSetMessage} (hi : fs[i]? = some .uninit)
    (h : deltaFrameIndexDecodeBinary src i (deltaFrameState d q fs) = .done () u) :
    ∃ index k, uaUInt16DecodeBinary src q = .done index (q + k) ∧
      u = deltaFrameState d (q + k) (fs.set i ⟨.init index, .uninit⟩) := by
  obtain ⟨index, k, hindex, rfl, -⟩ := takes_uaUInt16.read h
  refine ⟨index, k, hindex, ?_⟩
  show deltaFrameState d (q + k) (fs.modify i _) = _
  rw [modify_eq_set_of_getElem? hi]
  rfl

/-- An iteration of the delta frame loop, VARIANT encoding. -/
theorem deltaFrameVariant_collects (hT : StandardTypes T) (d : DataSetMessage) :
    Consecutive.Collects (deltaFrameFieldDecodeBinary src T .variant) (deltaFrameState d) .uninit
      (deltaFrameVariantDecodeBinary src T) := by
  intro i fs q u hi h
  obtain ⟨_, _, hlead, h⟩ := bind_eq_done.mp h
  obtain ⟨index, k, hindex, rfl⟩ := deltaFrameIndex_read hi hlead
  obtain ⟨_, _, hassign, h⟩ := bind_eq_done.mp h
  rw [assign_onDeltaField (set_of_getElem? hi), List.set_set] at hassign
  cases hassign
  obtain ⟨_, _, hvalue, hassign⟩ := bind_eq_done.mp h
  obtain ⟨v, n, hv, rfl, -⟩ := (takes_uaVariant hT).read hvalue
  refine ⟨⟨.init index, .init { (default : DataValue) with value := v, hasValue := true }⟩, k + n,
    ?_, ?_⟩
  · rw [← Nat.add_assoc]
    exact bind_eq_done.mpr ⟨index, _, hindex, bind_eq_done.mpr ⟨_, _, map_done hv, rfl⟩⟩
  · rw [← (Outcome.done.inj hassign).2, ← Nat.add_assoc]
    show deltaFrameState d (q + k + n) (((fs.set i _).modify i _).modify i _) = _
    rw [modify_eq_set_of_getElem? (set_of_getElem? hi), List.set_set,
      modify_eq_set_of_getElem? (set_of_getElem? hi), List.set_set]
    rfl

/-- The same in DATAVALUE encoding. -/
theorem deltaFrameDataValue_collects (hT : StandardTypes T) (d : DataSetMessage) :
    Consecutive.Collects (deltaFrameFieldDecodeBinary src T .dataValue) (deltaFrameState d) .uninit
      (deltaFrameDataValueDecodeBinary src T) := by
  intro i fs q u hi h
  obtain ⟨_, _, hlead, h⟩ := bind_eq_done.mp h
  obtain ⟨index, k, hindex, rfl⟩ := deltaFrameIndex_read hi hlead
  obtain ⟨f, n, hf, rfl, -⟩ := (takes_fieldValue hT .dataValue).read h
  refine ⟨⟨.init index, .init f⟩, k + n, ?_, ?_⟩
  · rw [← Nat.add_assoc]
    exact bind_eq_done.mpr ⟨index, _, hindex, bind_eq_done.mpr ⟨_, _, hf, rfl⟩⟩
  · rw [← Nat.add_assoc]
    show deltaFrameState d (q + k + n) ((fs.set i _).modify i _) = _
    rw [modify_eq_set_of_getElem? (set_of_getElem? hi), List.set_set]

/-! ## DataSetMessages -/

/-- The message has fields in VARIANT or DATAVALUE encoding, unless it is a keep-alive, and
their Variants are of plain types. -/
structure DataSetMessage.HoldsPlain (d : DataSetMessage) : Prop where
  encoding : d.header.dataSetMessageType ≠ .keepAlive → d.header.fieldEncoding.hasFields = true
  keyFields : ∀ f ∈ d.keyFields, f.value.HoldsPlain
  deltaFields : ∀ p ∈ d.deltaFields, p.2.value.HoldsPlain

/-- The message with all array dimensions as lists. -/
def DataSetMessage.trimmed (d : DataSetMessage) : DataSetMessage :=
  { d with
    dataSetFields := d.dataSetFields.map (·.map DataValueOf.trimmed)
    deltaFrameFields := d.deltaFrameFields.map (·.map DeltaFrameField.trimmed) }

/-- The message can be encoded, in `n` bytes or less, and what is received then is the same
message. -/
structure DataSetMessage.Refits (T : DataTypes) (d : DataSetMessage) (n : Nat) : Prop where
  filled : d.Filled (IsPlainField T)
  canonical : d.Canonical
  encodable : d.Encodable (leafSpec T)
  length : (dataSetMessageBytes (leafSpec T) d).length ≤ n
  received : d.received.trimmed = d.trimmed

theorem ne_rawData_of_hasFields {encoding : FieldEncoding} (h : encoding.hasFields = true) :
    encoding ≠ .rawData := by
  rintro rfl
  cases h

theorem keyFrame_refits (hT : StandardTypes T) {d : DataSetMessage}
    (htype : d.header.dataSetMessageType = .dataKeyFrame) (hzero : d.header.IsZeroed)
    (hnames : d.fieldNames = none) (hnodelta : d.deltaFrameFields = none) {fs : List DataValue}
    (hfields : d.dataSetFields = some fs) (hlen : fs.length = d.fieldCount.toNat) {n p : Nat}
    {ns : List Nat} (hn : (pieceBytes (dataSetMessageHeaderPieces 0 d.header)).length + 2 ≤ n)
    (hfs : Consecutive (fieldValueDecodeBinary src T d.header.fieldEncoding) p fs ns)
    (hd : d.HoldsPlain) : d.Refits T (n + ns.sum) := by
  have hother : d.header.dataSetMessageType ≠ .dataDeltaFrame := by
    rw [htype]
    decide
  have hhas : d.header.fieldEncoding.hasFields = true := hd.encoding (by
    rw [htype]
    decide)
  have hkey : d.keyFields = fs := by rw [DataSetMessage.keyFields, if_pos hhas, hfields]; rfl
  have hholds := hd.keyFields
  rw [hkey] at hholds
  have hrefits := (takes_fieldValue hT _).all hfs
  -- a plain field takes as many bytes in its encoding as it was read from, or fewer
  have hplain : ∀ f ∈ fs, IsPlainField T d.header.fieldEncoding f := fun f hf => by
    obtain ⟨k, hk⟩ := hrefits f hf
    exact hk.plain (hholds f hf)
  constructor
  case filled =>
    refine ⟨fun _ _ => ?_, fun _ => ?_, fun h => absurd h hother, fun h => absurd h hother,
      fun h => absurd h hother⟩
    · rw [hfields]
      exact hlen
    · rw [hkey]
      exact hplain
  case canonical =>
    refine ⟨hzero, ?_, hnames, fun _ => hhas, fun _ f hf => ?_, fun h => absurd htype h,
      fun h => absurd h hother, fun _ => hnodelta, fun h => ?_⟩
    · rw [htype]
      rfl
    · rw [hfields] at hf
      obtain ⟨k, hk⟩ := hrefits f hf
      exact hk.fits
    · exact absurd (htype.symm.trans h) (by decide)
  case encodable =>
    unfold DataSetMessage.Encodable
    rw [htype]
    refine ⟨ne_rawData_of_hasFields hhas, ?_⟩
    rw [hkey]
    exact fun f hf => (readsBack_of_isPlainField hT (hplain f hf)).ok
  case length =>
    have hsum :
      (fs.map fun f => ((leafSpec T).bytes d.header.fieldEncoding f).length).sum ≤ ns.sum :=
      (takes_fieldValue hT _).sum_le hfs fun f hf k hk => hk.length (hholds f hf)
    rw [dataSetMessageBytes, dataSetMessagePieces, htype, pieceBytes_append]
    simp only [pieceBytes_keyFrame hhas, hfields, Option.getD_some, List.length_append,
      leBytes_length, List.length_flatMap]
    omega
  case received =>
    simp only [DataSetMessage.received, DataSetMessage.trimmed, htype, hfields, Option.getD_some,
      Option.map_some, map_map_of_idempotent dataValue_trimmed_trimmed]

theorem deltaFrame_refits (hT : StandardTypes T) {d : DataSetMessage}
    (htype : d.header.dataSetMessageType = .dataDeltaFrame) (hzero : d.header.IsZeroed)
    (hnames : d.fieldNames = none) (hnokey : d.dataSetFields = none) {fs : List DeltaFrameField}
    (hfields : d.deltaFrameFields = some fs) (hlen : fs.length = d.fieldCount.toNat) {n p : Nat}
    {ns : List Nat} (hn : (pieceBytes (dataSetMessageHeaderPieces 0 d.header)).length + 2 ≤ n)
    (hfs : Consecutive (deltaFrameFieldDecodeBinary src T d.header.fieldEncoding) p fs ns)
    (hd : d.HoldsPlain) : d.Refits T (n + ns.sum) := by
  have hother : d.header.dataSetMessageType ≠ .dataKeyFrame := by
    rw [htype]
    decide
  have hhas : d.header.fieldEncoding.hasFields = true := hd.encoding (by
    rw [htype]
    decide)
  have hrefits := (takes_deltaFrameField hT _).all hfs
  have hwritten : ∀ f ∈ fs, ∃ p, f.pair? = some p := fun f hf => by
    obtain ⟨k, hk⟩ := hrefits f hf
    exact hk.written
  -- index and value of every slot were read
  obtain ⟨ps, rfl⟩ := exists_map_ofPair hwritten
  have hdelta : d.deltaFields = ps := by
    rw [DataSetMessage.deltaFields, if_pos hhas, hfields, Option.getD_some, filterMap_pair?_map]
  have hholds := hd.deltaFields
  rw [hdelta] at hholds
  have hplain : ∀ p ∈ ps, IsPlainField T d.header.fieldEncoding p.2 := fun p hp => by
    obtain ⟨k, hk⟩ := hrefits _ (List.mem_map_of_mem hp)
    exact hk.plain p rfl (hholds p hp)
  constructor
  case filled =>
    refine ⟨fun h => absurd h hother, fun h => absurd h hother, fun _ _ => ?_, fun _ _ => ?_,
      fun _ => ?_⟩
    · rw [hfields]
      exact hlen
    · rw [hfields]
      exact hwritten
    · rw [hdelta]
      exact hplain
  case canonical =>
    refine ⟨hzero, ?_, hnames, fun _ => hhas, fun h => absurd h hother, fun _ => hnokey,
      fun _ p hp => ?_, fun h => absurd htype h, fun h => ?_⟩
    · rw [htype]
      rfl
    · rw [hdelta] at hp
      obtain ⟨k, hk⟩ := hrefits _ (List.mem_map_of_mem hp)
      exact hk.fits p rfl
    · exact absurd (htype.symm.trans h) (by decide)
  case encodable =>
    unfold DataSetMessage.Encodable
    rw [htype]
    refine ⟨ne_rawData_of_hasFields hhas, ?_⟩
    rw [hdelta]
    exact fun p hp => (readsBack_of_isPlainField hT (hplain p hp)).ok
  case length =>
    have hsum : ((ps.map DeltaFrameField.ofPair).map
        (deltaFieldLength T d.header.fieldEncoding)).sum ≤ ns.sum :=
      (takes_deltaFrameField hT _).sum_le hfs fun f hf k hk => hk.length fun p hp => by
        obtain ⟨p', hp', rfl⟩ := List.mem_map.mp hf
        cases hp
        exact hholds _ hp'
    rw [List.map_map] at hsum
    have hlength : (ps.flatMap fun p =>
        leBytes 2 p.1.toNat ++ (leafSpec T).bytes d.header.fieldEncoding p.2).length ≤ ns.sum := by
      refine Nat.le_trans (Nat.le_of_eq ?_) hsum
      rw [List.length_flatMap]
      congr 1
      refine List.map_congr_left fun p _ => ?_
      rw [List.length_append, leBytes_length]
      rfl
    rw [dataSetMessageBytes, dataSetMessagePieces, htype, pieceBytes_append]
    simp only [pieceBytes_deltaFrame hhas, hdelta, List.length_append, leBytes_length]
    omega
  case received =>
    simp only [DataSetMessage.received, DataSetMessage.trimmed, htype, hfields, Option.getD_some,
      Option.map_some, map_map_of_idempotent deltaFrameField_trimmed_trimmed]

theorem keepAlive_refits {d : DataSetMessage} (htype : d.header.dataSetMessageType = .keepAlive)
    (hzero : d.header.IsZeroed) (hd : d = DataSetMessage.ofHeader d.header) {n : Nat}
    (hn : (pieceBytes (dataSetMessageHeaderPieces 0 d.header)).length ≤ n) : d.Refits T n := by
  have hkey : d.header.dataSetMessageType ≠ .dataKeyFrame := by
    rw [htype]
    decide
  have hdelta : d.header.dataSetMessageType ≠ .dataDeltaFrame := by
    rw [htype]
    decide
  constructor
  case filled =>
    exact ⟨fun h => absurd h hkey, fun h => absurd h hkey, fun h => absurd h hdelta,
      fun h => absurd h hdelta, fun h => absurd h hdelta⟩
  case canonical =>
    refine ⟨hzero, ?_, ?_, fun h => absurd htype h, fun h => absurd h hkey, fun _ => ?_,
      fun h => absurd h hdelta, fun _ => ?_, fun _ => ?_⟩
    · rw [htype]
      rfl
    -- nothing behind the header was touched
    all_goals
      rw [hd]
      rfl
  case encodable =>
    unfold DataSetMessage.Encodable
    rw [htype]
    trivial
  case length =>
    rw [dataSetMessageBytes, dataSetMessagePieces, htype, List.append_nil]
    exact hn
  case received =>
    simp only [DataSetMessage.received, htype]

/-- Field count and fields of a key frame. -/
theorem keyFrameFields_eq_done {item : Routine ErrorCode Nat DataValue} {d : DataSetMessage}
    {p : Nat} {field : Nat → Decoder DataSetMessage Unit} {t : Decoding DataSetMessage}
    (hitem : ∀ d, Consecutive.Collects item (keyFrameState d) default field)
    (ht : (decodeInto (uaUInt16DecodeBinary src) (fun v d => { d with fieldCount := v }) >>=
      fun _ => keyFrameFieldsDecodeBinary field) ⟨p, d⟩ = .done () t) :
    ∃ count fs k ns, 2 ≤ k ∧ fs.length = UInt16.toNat count ∧ Consecutive item (p + k) fs ns ∧
      t = keyFrameState { d with fieldCount := count } (p + k + ns.sum) fs := by
  obtain ⟨_, _, hcount, hfields⟩ := bind_eq_done.mp ht
  obtain ⟨count, k, rfl, hk⟩ := takes_uaUInt16.puts _ _ hcount
  obtain ⟨fs, ns, hfs, hlen, rfl⟩ := Consecutive.of_forUpTo (hitem { d with fieldCount := count })
    (p := p + k) hfields
  exact ⟨count, fs, k, ns, hk, hlen, hfs, rfl⟩

/-- Field count and fields of a delta frame. -/
theorem deltaFrameFields_eq_done {item : Routine ErrorCode Nat DeltaFrameField} {d : DataSetMessage}
    {p : Nat} {field : Nat → Decoder DataSetMessage Unit} {t : Decoding DataSetMessage}
    (hitem : ∀ d, Consecutive.Collects item (deltaFrameState d) .uninit field)
    (ht : (decodeInto (uaUInt16DecodeBinary src) (fun v d => { d with fieldCount := v }) >>=
      fun _ => deltaFrameFieldsDecodeBinary field) ⟨p, d⟩ = .done () t) :
    ∃ count fs k ns, 2 ≤ k ∧ fs.length = UInt16.toNat count ∧ Consecutive item (p + k) fs ns ∧
      t = deltaFrameState { d with fieldCount := count } (p + k + ns.sum) fs := by
  obtain ⟨_, _, hcount, hfields⟩ := bind_eq_done.mp ht
  obtain ⟨count, k, rfl, hk⟩ := takes_uaUInt16.puts _ _ hcount
  obtain ⟨fs, ns, hfs, hlen, rfl⟩ := Consecutive.of_forUpTo (hitem { d with fieldCount := count })
    (p := p + k) hfields
  exact ⟨count, fs, k, ns, hk, hlen, hfs, rfl⟩

/-- Behind a header the field count is followed by the fields, in one of two encodings. -/
theorem frameData_refits {h : DataSetMessageHeader} (halive : h.dataSetMessageType ≠ .keepAlive)
    {p k : Nat} {variant dataValue : Decoder DataSetMessage Unit} {t : Decoding DataSetMessage}
    (hfields : ∀ x, (h.fieldEncoding = .variant ∧ x = variant ∨
        h.fieldEncoding = .dataValue ∧ x = dataValue) →
      (decodeInto (uaUInt16DecodeBinary src) (fun v d => { d with fieldCount := v }) >>= fun _ => x)
        ⟨p + k, DataSetMessage.ofHeader h⟩ = .done () t →
      ∃ n, t.offset = p + n ∧ (t.dst.HoldsPlain → t.dst.Refits T n))
    (ht : (if h.fieldEncoding ≠ .rawData then
        decodeInto (uaUInt16DecodeBinary src) (fun v d => { d with fieldCount := v }) >>= fun _ =>
          match h.fieldEncoding with
          | .variant => variant
          | .rawData => fail badNotImplemented
          | .dataValue => dataValue
          | .reserved => pure ()
      else pure ()) ⟨p + k, DataSetMessage.ofHeader h⟩ = .done () t) :
    ∃ n, t.offset = p + n ∧ (t.dst.HoldsPlain → t.dst.Refits T n) := by
  cases hencoding : h.fieldEncoding with
  | variant =>
    rw [hencoding, if_pos (by decide)] at ht
    exact hfields _ (.inl ⟨hencoding, rfl⟩) ht
  | dataValue =>
    rw [hencoding, if_pos (by decide)] at ht
    exact hfields _ (.inr ⟨hencoding, rfl⟩) ht
  | rawData =>
    rw [hencoding, if_neg (by decide)] at ht
    cases ht
    -- RawData: no field is read, and no message with plain fields looks like this
    refine ⟨k, rfl, fun hd => absurd (hd.encoding halive) ?_⟩
    show ¬ h.fieldEncoding.hasFields = true
    rw [hencoding]
    decide
  | reserved =>
    rw [hencoding, if_pos (by decide)] at ht
    obtain ⟨_, _, hcount, hpure⟩ := bind_eq_done.mp ht
    obtain ⟨count, l, rfl, -⟩ := takes_uaUInt16.puts _ _ hcount
    cases hpure
    refine ⟨k + l, Nat.add_assoc _ _ _, fun hd => absurd (hd.encoding halive) ?_⟩
    show ¬ h.fieldEncoding.hasFields = true
    rw [hencoding]
    decide

/-- The data of a key frame. -/
theorem keyFrameDataDecodeBinary_refits (hT : StandardTypes T) {h : DataSetMessageHeader}
    (htype : h.dataSetMessageType = .dataKeyFrame) (hzero : h.IsZeroed) {p k : Nat}
    (hk : (pieceBytes (dataSetMessageHeaderPieces 0 h)).length ≤ k) {t : Decoding DataSetMessage}
    (ht : keyFrameDataDecodeBinary src T ⟨p + k, DataSetMessage.ofHeader h⟩ = .done () t) :
    ∃ n, t.offset = p + n ∧ (t.dst.HoldsPlain → t.dst.Refits T n) := by
  have halive : h.dataSetMessageType ≠ .keepAlive := by
    rw [htype]
    decide
  obtain ⟨_, _, hcurrent, ht⟩ := bind_eq_done.mp ht
  cases hcurrent
  refine frameData_refits halive (fun x hx hrun => ?_) ht
  have hitem : ∃ field, x = keyFrameFieldsDecodeBinary field ∧ ∀ d, Consecutive.Collects
      (fieldValueDecodeBinary src T h.fieldEncoding) (keyFrameState d) default field := by
    rcases hx with ⟨hencoding, rfl⟩ | ⟨hencoding, rfl⟩
    · exact ⟨_, rfl, hencoding ▸ keyFrameVariant_collects hT⟩
    · exact ⟨_, rfl, hencoding ▸ keyFrameDataValue_collects hT⟩
  obtain ⟨field, rfl, hitem⟩ := hitem
  obtain ⟨count, fs, l, ns, hl, hlen, hfs, rfl⟩ := keyFrameFields_eq_done hitem hrun
  refine ⟨k + l + ns.sum, ?_, fun hd => ?_⟩
  · show p + k + l + ns.sum = _
    omega
  · exact keyFrame_refits hT htype hzero rfl rfl rfl hlen (Nat.add_le_add hk hl) hfs hd

/-- The data of a delta frame. -/
theorem deltaFrameDataDecodeBinary_refits (hT : StandardTypes T) {h : DataSetMessageHeader}
    (htype : h.dataSetMessageType = .dataDeltaFrame) (hzero : h.IsZeroed) {p k : Nat}
    (hk : (pieceBytes (dataSetMessageHeaderPieces 0 h)).length ≤ k) {t : Decoding DataSetMessage}
    (ht : deltaFrameDataDecodeBinary src T ⟨p + k, DataSetMessage.ofHeader h⟩ = .done () t) :
    ∃ n, t.offset = p + n ∧ (t.dst.HoldsPlain → t.dst.Refits T n) := by
  have halive : h.dataSetMessageType ≠ .keepAlive := by
    rw [htype]
    decide
  obtain ⟨_, _, hcurrent, ht⟩ := bind_eq_done.mp ht
  cases hcurrent
  refine frameData_refits halive (fun x hx hrun => ?_) ht
  have hitem : ∃ field, x = deltaFrameFieldsDecodeBinary field ∧ ∀ d, Consecutive.Collects
      (deltaFrameFieldDecodeBinary src T h.fieldEncoding) (deltaFrameState d) .uninit field := by
    rcases hx with ⟨hencoding, rfl⟩ | ⟨hencoding, rfl⟩
    · exact ⟨_, rfl, hencoding ▸ deltaFrameVariant_collects hT⟩
    · exact ⟨_, rfl, hencoding ▸ deltaFrameDataValue_collects hT⟩
  obtain ⟨field, rfl, hitem⟩ := hitem
  obtain ⟨count, fs, l, ns, hl, hlen, hfs, rfl⟩ := deltaFrameFields_eq_done hitem hrun
  refine ⟨k + l + ns.sum, ?_, fun hd => ?_⟩
  · show p + k + l + ns.sum = _
    omega
  · exact deltaFrame_refits hT htype hzero rfl rfl rfl hlen (Nat.add_le_add hk hl) hfs hd

/-- **DataSetMessages.** Whatever bytes a message with plain fields was read from, it can be
encoded in as many bytes, and is read back then. -/
theorem takes_uaDataSetMessage (hT : StandardTypes T) :
    Takes (fun d n => d.HoldsPlain → d.Refits T n) (uaDataSetMessageDecodeBinary src T) := by
  intro p d q h
  unfold uaDataSetMessageDecodeBinary at h
  split at h
  case h_2 | h_3 => cases h
  case h_1 t ht =>
    obtain ⟨rfl, rfl⟩ := Outcome.done.inj h
    obtain ⟨_, _, hassign, ht⟩ := bind_eq_done.mp ht
    cases hassign
    obtain ⟨_, _, hheader, ht⟩ := bind_eq_done.mp ht
    obtain ⟨h, k, rfl, hzero, hk⟩ := Puts.part (dataSetMessageHeaderDecodeBinary_puts _) _ hheader
    obtain ⟨_, _, hcurrent, ht⟩ := bind_eq_done.mp ht
    cases hcurrent
    dsimp only at ht
    -- the frames take what their fields take
    cases htype : h.dataSetMessageType with
    | dataKeyFrame =>
      rw [htype] at ht
      exact keyFrameDataDecodeBinary_refits hT htype hzero hk ht
    | dataDeltaFrame =>
      rw [htype] at ht
      exact deltaFrameDataDecodeBinary_refits hT htype hzero hk ht
    | keepAlive =>
      rw [htype] at ht
      cases ht
      exact ⟨k, rfl, fun _ => keepAlive_refits htype hzero rfl hk⟩
    | event | reserved v =>
      rw [htype] at ht
      cases ht

end OpenPubSub
