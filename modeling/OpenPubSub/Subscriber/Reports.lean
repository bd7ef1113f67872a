import OpenPubSub.NetworkMessage.Cleanup
import OpenPubSub.Subscriber.Listen
import OpenPubSub.Types.VariantShape

/-!
# Which values are reported

`listen` decides what to print by the type of a field alone. Here its loops are
compared with the values the decoder produced, and both with the datagram.

- `expectedReports` are the scalar values of the well-known types, in order.
- `VisitedValuesPresent` says that there is an object wherever `listen` reads one.
- `Frame.wellKnownValues` are the values in question as they lie in the datagram; a
  value carries the type by its first bytes, whether it is a scalar, an array or an
  empty array.
- `Frame.ObjectsPresent`, `Frame.OnlyScalars` and `Frame.NoScalars` are conditions on
  these. They decide, frame by frame, whether the output of `listen` is defined,
  whether it is the expected one, and whether nothing is expected.
- **`visitedValuesPresent_iff`**: when nothing absent is read.
-/

namespace OpenPubSub

open Routine

/-! ## What should be reported -/

/-- The report of a scalar of a well-known type. -/
def DataValue.scalarReports (field : DataValue) : List Report :=
  ((field.value.type.bind wellKnown).bind fun k => k.report field.value.data).toList

/-- The scalars of a key frame. -/
def DataSetMessage.scalarReports (d : DataSetMessage) : List Report :=
  if d.header.dataSetMessageType ≠ .dataKeyFrame then []
  else ((d.dataSetFields.getD []).take d.fieldCount.toNat).flatMap DataValue.scalarReports

/-- The scalars of all key frames of a message. -/
def expectedReports (m : NetworkMessage) : List Report :=
  ((m.payload.dataSetMessages.getD []).take m.dataSetMessageCount).flatMap
    DataSetMessage.scalarReports

/-- If the field is of a well-known type, an object of that type is behind its data
pointer. -/
def DataValue.ObjectPresent (field : DataValue) : Prop :=
  ∀ k, field.value.type.bind wellKnown = some k →
    ∃ v r, field.value.data.pointee = some v ∧ k.report v = some r

/-- Wherever the loops of `listen` come to, there is a field to look at, and an object
if its value is read. -/
def VisitedValuesPresent (m : NetworkMessage) : Prop :=
  ∀ j < m.payloadHeader.count.toNat, ∃ d, (m.payload.dataSetMessages.getD [])[j]? = some d ∧
    (d.header.dataSetMessageType = .dataKeyFrame → ∀ i < d.fieldCount.toNat,
      ∃ field, (d.dataSetFields.getD [])[i]? = some field ∧ field.ObjectPresent)

theorem fieldReports_isSome_iff {field : DataValue} :
    (fieldReports field).isSome = true ↔ field.ObjectPresent := by
  unfold fieldReports DataValue.ObjectPresent
  cases field.value.type.bind wellKnown with
  | none => simp
  | some k => simp [Option.isSome_iff_exists, Option.bind_eq_some_iff]

theorem dataSetMessageReports_isSome_iff {d : DataSetMessage} :
    (dataSetMessageReports d).isSome = true ↔
      (d.header.dataSetMessageType = .dataKeyFrame → ∀ i < d.fieldCount.toNat,
        ∃ field, (d.dataSetFields.getD [])[i]? = some field ∧ field.ObjectPresent) := by
  unfold dataSetMessageReports keyFrameReports
  by_cases ht : d.header.dataSetMessageType = .dataKeyFrame
  · rw [if_neg (Decidable.not_not.mpr ht), collect_isSome_iff]
    simp only [ht, true_implies, isSome_bind_iff, fieldReports_isSome_iff]
  · rw [if_pos ht]
    simp [ht]

/-- The output of `listen` is defined if and only if nothing absent is read. -/
theorem networkMessageReports_isSome_iff {m : NetworkMessage}
    (ht : m.networkMessageType = .dataSet) :
    (networkMessageReports m).isSome = true ↔ VisitedValuesPresent m := by
  unfold networkMessageReports
  rw [if_neg (Decidable.not_not.mpr ht)]
  split
  · next hc =>
    have h0 : m.payloadHeader.count.toNat = 0 := by
      have := UInt8.lt_iff_toNat_lt.mp hc.2
      simpa using this
    simp [VisitedValuesPresent, h0]
  · rw [collect_isSome_iff]
    simp only [isSome_bind_iff, dataSetMessageReports_isSome_iff]
    rfl

/-! ## Values in the datagram -/

variable (src : Bytes) (T : DataTypes)

/-- The Variant of the field value at `p`, if the bytes hold one. -/
def fieldVariantAt (encoding : FieldEncoding) (p : Nat) : Option Ctx :=
  match encoding with
  | .variant => some ⟨p, 0⟩
  | .dataValue => if byteAt src p &&& 0x01 != 0 then some ⟨p + 1, 1⟩ else none
  | _ => none

/-- The Variant at `c` is of a well-known type. -/
def wellKnownAt (c : Ctx) : Option WellKnown :=
  (variantTypeAt src T.withoutCustomTypes c).bind wellKnown

namespace Frame

/-- The Variant of the field value at `p`, if it is of a well-known type. -/
def wellKnownValueAt (f : Frame) (p : Nat) : Option Ctx :=
  (fieldVariantAt src f.header.fieldEncoding p).filter fun c => (wellKnownAt src T c).isSome

/-- The values of well-known types. -/
def wellKnownValues (f : Frame) : List Ctx := f.valueStarts.filterMap (f.wellKnownValueAt src T)

/-- All values that are read are there. -/
def ObjectsPresent (f : Frame) : Prop :=
  f.isKeyFrame = true → f.isReserved = false ∧
    ∀ c ∈ f.wellKnownValues src T, variantIsArrayAt src c.pos = true →
      0 < arrayLengthAt src (c.pos + 1)

/-- All values that are read are scalars. -/
def OnlyScalars (f : Frame) : Prop :=
  f.isKeyFrame = true → f.isReserved = false ∧
    ∀ c ∈ f.wellKnownValues src T, variantIsArrayAt src c.pos = false

/-- There is no scalar to report. -/
def NoScalars (f : Frame) : Prop :=
  f.isKeyFrame = true → ∀ c ∈ f.wellKnownValues src T, variantIsArrayAt src c.pos = true

end Frame

variable {src T}

/-! ## One field -/

theorem wellKnown_eq_some {type : DataTypeRef} {k : WellKnown} (h : wellKnown type = some k) :
    type = DataTypes.builtin k.kind := by
  unfold wellKnown at h
  split at h
  · cases h
    assumption
  · split at h
    · cases h
      assumption
    · split at h
      · cases h
        assumption
      · cases h

theorem WellKnown.isBuiltin (k : WellKnown) : k.kind.isBuiltin = true := by
  cases k <;> rfl

theorem WellKnown.overlayable (k : WellKnown) : k.kind.overlayable = true := by
  cases k <;> rfl

/-- The pointer type fits the object. -/
theorem WellKnown.report_of_hasKind {k : WellKnown} {v : Value} (h : v.hasKind k.kind = true) :
    v.pointee = some v ∧ ∃ r, k.report v = some r := by
  cases k with
  | byte =>
    cases v with
    | byte b => exact ⟨rfl, .byte b, rfl⟩
    | _ => cases h
  | uint32 =>
    cases v with
    | uint32 b => exact ⟨rfl, .uint32 b, rfl⟩
    | _ => cases h
  | dateTime =>
    cases v with
    | uint64 b => exact ⟨rfl, .dateTime b, rfl⟩
    | _ => cases h

/-- The Variant on the wire and the field made of it. -/
theorem Frame.Reads.variant {f : Frame} {p : Nat} {v : DataValue} (h : f.Reads src T p v) :
    match fieldVariantAt src f.header.fieldEncoding p with
    | some c => VariantShape src T.withoutCustomTypes c v.value
    | none => v.value.type = none := by
  obtain ⟨q, h⟩ := h
  unfold fieldVariantAt
  cases henc : f.header.fieldEncoding with
  | variant =>
    rw [henc] at h
    obtain ⟨w, hw, rfl⟩ := map_eq_done.mp h
    obtain ⟨t, hw, -⟩ := uaDecodeBinary_eq_done hw
    exact variantDecodeBinary_shape hw
  | dataValue =>
    rw [henc] at h
    obtain ⟨t, h, -⟩ := uaDecodeBinary_eq_done h
    have hvalue := dataValueDecodeBinary_value h
    -- a DataValue may be without a value
    by_cases hmask : byteAt src p &&& 0x01 != 0
    · rw [if_pos hmask] at hvalue
      simpa only [hmask, if_true] using hvalue
    · rw [if_neg hmask] at hvalue
      simp only [hmask, Bool.false_eq_true, if_false, hvalue]
      rfl
  | rawData =>
    rw [henc] at h
    cases h
  | reserved =>
    rw [henc] at h
    cases h

/-- What `listen` makes of a field, by the value `o` on the wire. -/
inductive FieldCase (src : Bytes) (o : Option Ctx) (field : DataValue) : Prop where
  | other (value : o = none) (reports : fieldReports field = some [])
      (scalars : field.scalarReports = [])
  | scalar (c : Ctx) (r : Report) (value : o = some c) (array : variantIsArrayAt src c.pos = false)
      (reports : fieldReports field = some [r]) (scalars : field.scalarReports = [r])
  | array (c : Ctx) (r : Report) (value : o = some c) (array : variantIsArrayAt src c.pos = true)
      (length : 0 < arrayLengthAt src (c.pos + 1)) (reports : fieldReports field = some [r])
      (scalars : field.scalarReports = [])
  | empty (c : Ctx) (value : o = some c) (array : variantIsArrayAt src c.pos = true)
      (length : ¬ 0 < arrayLengthAt src (c.pos + 1)) (reports : fieldReports field = none)
      (scalars : field.scalarReports = [])

theorem fieldReports_of_other {field : DataValue} (h : field.value.type.bind wellKnown = none) :
    fieldReports field = some [] ∧ field.scalarReports = [] := by
  simp [fieldReports, DataValue.scalarReports, h]

/-- A value of a well-known type on the wire. -/
theorem VariantShape.fieldCase {field : DataValue} {c : Ctx} {k : WellKnown}
    (h : VariantShape src T.withoutCustomTypes c field.value) (hk : wellKnownAt src T c = some k) :
    FieldCase src (some c) field := by
  obtain ⟨type, htype, hwk⟩ := Option.bind_eq_some_iff.mp hk
  rw [← h.type] at htype
  obtain rfl := wellKnown_eq_some hwk
  have hkind : (T.withoutCustomTypes.get (DataTypes.builtin k.kind)).typeKind = k.kind :=
    T.withoutCustomTypes.get_builtin k.isBuiltin
  have hreports : fieldReports field =
      (field.value.data.pointee.bind k.report).map fun r => [r] := by
    simp [fieldReports, htype, hwk]
  have hscalars : field.scalarReports = (k.report field.value.data).toList := by
    simp [DataValue.scalarReports, htype, hwk]
  cases hb : variantIsArrayAt src c.pos with
  | false =>
    have hdata := h.scalar hb _ htype
    rw [hkind] at hdata
    obtain ⟨hp, r, hr⟩ := WellKnown.report_of_hasKind hdata
    refine .scalar c r rfl hb ?_ ?_
    · rw [hreports, hp, Option.bind_some, hr, Option.map_some]
    · rw [hscalars, hr, Option.toList_some]
  | true =>
    have hdata := h.array hb _ htype
    have hnone : ∀ xs, k.report (.array xs) = none := fun xs => by cases k <;> rfl
    unfold ArrayShape at hdata
    split at hdata
    · -- an empty array has the sentinel or NULL for its data
      next hlen =>
      refine .empty c rfl hb (by omega) ?_ ?_
      · rw [hreports]
        rcases hdata with hd | hd
        · rw [hd]
          rfl
        · rw [hd]
          rfl
      · rw [hscalars]
        rcases hdata with hd | hd
        · rw [hd]
          cases k <;> rfl
        · rw [hd, hnone, Option.toList_none]
    · -- otherwise its first element is read as if it were a scalar
      next hlen =>
      obtain ⟨x, xs, hd, hx⟩ := hdata
      rw [hkind] at hx
      obtain ⟨-, r, hr⟩ := WellKnown.report_of_hasKind (hx k.overlayable)
      refine .array c r rfl hb (by omega) ?_ ?_
      · rw [hreports, hd]
        show Option.map _ (k.report x) = _
        rw [hr, Option.map_some]
      · rw [hscalars, hd, hnone, Option.toList_none]

/-- **The fields of a frame**, one by one. -/
theorem Frame.Reads.fieldCase {f : Frame} {p : Nat} {v : DataValue} (h : f.Reads src T p v) :
    FieldCase src (f.wellKnownValueAt src T p) v := by
  have hv := h.variant
  unfold Frame.wellKnownValueAt
  cases hc : fieldVariantAt src f.header.fieldEncoding p with
  | none =>
    rw [hc] at hv
    have hother : v.value.type.bind wellKnown = none := by rw [hv, Option.bind_none]
    obtain ⟨hr, hs⟩ := fieldReports_of_other hother
    exact .other rfl hr hs
  | some c =>
    rw [hc] at hv
    cases hk : wellKnownAt src T c with
    | none =>
      have hother : v.value.type.bind wellKnown = none := by
        rw [hv.type]
        exact hk
      obtain ⟨hr, hs⟩ := fieldReports_of_other hother
      exact .other (by simp [hk]) hr hs
    | some k =>
      rw [Option.filter_some, hk, if_pos (by rfl)]
      exact hv.fieldCase hk

namespace FieldCase

variable {o : Option Ctx} {field : DataValue}

theorem isSome_iff (h : FieldCase src o field) : (fieldReports field).isSome = true ↔
    ∀ c ∈ o, variantIsArrayAt src c.pos = true → 0 < arrayLengthAt src (c.pos + 1) := by
  cases h with
  | other value reports _ => simp [value, reports]
  | scalar c r value array reports _ => simp [value, array, reports]
  | array c r value array length reports _ => simp [value, array, length, reports]
  | empty c value array length reports _ => simpa [value, array, reports] using length

theorem eq_scalarReports_iff (h : FieldCase src o field) :
    fieldReports field = some field.scalarReports ↔
      ∀ c ∈ o, variantIsArrayAt src c.pos = false := by
  cases h with
  | other value reports scalars => simp [value, reports, scalars]
  | scalar c r value array reports scalars => simp [value, array, reports, scalars]
  | array c r value array _ reports scalars => simp [value, array, reports, scalars]
  | empty c value array _ reports _ => simp [value, array, reports]

theorem scalarReports_eq_nil_iff (h : FieldCase src o field) :
    field.scalarReports = [] ↔ ∀ c ∈ o, variantIsArrayAt src c.pos = true := by
  cases h with
  | other value _ scalars => simp [value, scalars]
  | scalar c r value array _ scalars => simp [value, array, scalars]
  | array c r value array _ _ scalars => simp [value, array, scalars]
  | empty c value array _ _ scalars => simp [value, array, scalars]

/-- A scalar that should be reported is. -/
theorem covers (h : FieldCase src o field) : Covers field.scalarReports (fieldReports field) := by
  cases h with
  | other _ reports scalars => exact covers_of_eq (by rw [reports, scalars])
  | scalar c r _ _ reports scalars => exact covers_of_eq (by rw [reports, scalars])
  | array c r _ _ _ reports scalars =>
    rw [reports, scalars]
    rintro _ ⟨⟩
    exact ⟨Nat.zero_le _, fun hlen => nomatch hlen⟩
  | empty c _ _ _ reports _ =>
    rw [reports]
    rintro _ ⟨⟩

end FieldCase

/-! ## One DataSetMessage -/

/-- Encodings without values have no values of a well-known type. -/
theorem Frame.wellKnownValues_eq_nil {f : Frame} (h : f.header.fieldEncoding.hasValues = false) :
    f.wellKnownValues src T = [] := by
  refine List.filterMap_eq_nil_iff.mpr fun p _ => ?_
  unfold Frame.wellKnownValueAt fieldVariantAt
  cases henc : f.header.fieldEncoding with
  | variant => rw [henc] at h; cases h
  | dataValue => rw [henc] at h; cases h
  | rawData => rfl
  | reserved => rfl

/-- What holds of the fields of a frame, by their values on the wire. -/
theorem Frame.forall_fields_iff {f : Frame} {vs : List DataValue} {P : Ctx → Prop}
    {Q : DataValue → Prop} (reads : List.Forall₂ (f.Reads src T) f.valueStarts vs)
    (h : ∀ p v, f.Reads src T p v → ((∀ c ∈ f.wellKnownValueAt src T p, P c) ↔ Q v)) :
    (∀ c ∈ f.wellKnownValues src T, P c) ↔ ∀ v ∈ vs, Q v := by
  rw [← forall_iff_of_forall₂ reads h]
  simp only [Frame.wellKnownValues, List.mem_filterMap]
  constructor
  · intro hall p hp c hc
    exact hall c ⟨p, hp, hc⟩
  · rintro hall c ⟨p, hp, hc⟩
    exact hall p hp c hc

/-- What `listen` makes of a DataSetMessage, by the frame on the wire. -/
inductive FrameCase (src : Bytes) (T : DataTypes) (f : Frame) (d : DataSetMessage) : Prop where
  | other (type : f.isKeyFrame = false) (reports : dataSetMessageReports d = some [])
      (scalars : d.scalarReports = [])
  | fields {vs : List DataValue} (type : f.isKeyFrame = true) (encoding : f.isReserved = false)
      (reads : List.Forall₂ (f.Reads src T) f.valueStarts vs)
      (reports : dataSetMessageReports d = gather fieldReports vs)
      (scalars : d.scalarReports = vs.flatMap DataValue.scalarReports)
  | bare (type : f.isKeyFrame = true) (encoding : f.isReserved = false)
      (values : f.wellKnownValues src T = []) (reports : dataSetMessageReports d = some [])
      (scalars : d.scalarReports = [])
  | reserved (type : f.isKeyFrame = true) (encoding : f.isReserved = true)
      (values : f.wellKnownValues src T = []) (reports : dataSetMessageReports d = none)
      (scalars : d.scalarReports = [])

theorem dataSetMessageReports_of_other {d : DataSetMessage}
    (h : d.header.dataSetMessageType ≠ .dataKeyFrame) :
    dataSetMessageReports d = some [] ∧ d.scalarReports = [] :=
  ⟨if_pos h, if_pos h⟩

theorem dataSetMessageReports_of_keyFrame {d : DataSetMessage}
    (h : d.header.dataSetMessageType = .dataKeyFrame) :
    dataSetMessageReports d = keyFrameReports d ∧ d.scalarReports =
      ((d.dataSetFields.getD []).take d.fieldCount.toNat).flatMap DataValue.scalarReports :=
  ⟨if_neg (Decidable.not_not.mpr h), if_neg (Decidable.not_not.mpr h)⟩

/-- A count without an array: the first access is undefined. -/
theorem keyFrameReports_of_no_array {d : DataSetMessage} (h : d.dataSetFields = none)
    (hcount : d.fieldCount ≠ 0) : keyFrameReports d = none := by
  have hpos : 0 < d.fieldCount.toNat := by
    have h0 : d.fieldCount.toNat ≠ 0 := fun h0 => hcount (UInt16.toNat_inj.mp h0)
    omega
  have hsome : ¬ (keyFrameReports d).isSome = true := by
    unfold keyFrameReports
    rw [collect_isSome_iff]
    intro hall
    have hfirst := hall 0 hpos
    rw [h] at hfirst
    cases hfirst
  simpa using hsome

/-- **The DataSetMessages**, one by one. -/
theorem Frame.Describes.frameCase {f : Frame} {d : DataSetMessage} (h : f.Describes src T d) :
    FrameCase src T f d := by
  by_cases hkey : f.isKeyFrame = true
  · have ht := isKeyFrame_iff.mp hkey
    cases h with
    | @keyFrame vs type values count reads =>
      have hlen : vs.length = f.fieldCount.toNat := reads.length_eq.symm.trans count
      obtain ⟨hr, hs⟩ := dataSetMessageReports_of_keyFrame
        (d := ⟨f.header, f.fieldCount, some vs, none, none⟩) ht
      refine .fields hkey (isReserved_of_hasValues values) reads ?_ ?_
      · rw [hr]
        show collect f.fieldCount.toNat (fun i => vs[i]?.bind fieldReports) = _
        rw [← hlen, collect_getElem?]
      · rw [hs]
        show (vs.take f.fieldCount.toNat).flatMap _ = _
        rw [← hlen, List.take_length]
    | deltaFrame type _ _ _ _ =>
      rw [isDeltaFrame_iff, ht] at type
      cases type
    | bare values count =>
      obtain ⟨hr, hs⟩ := dataSetMessageReports_of_keyFrame
        (d := ⟨f.header, f.fieldCount, none, none, none⟩) ht
      have henc : f.header.fieldEncoding.hasValues = false := by
        unfold Frame.hasValues at values
        rw [hasFieldCount_of_keyFrame ht] at values
        cases he : f.header.fieldEncoding <;> simp_all [FieldEncoding.hasValues]
      have hscalars :
          (DataSetMessage.mk f.header f.fieldCount none none none).scalarReports = [] := by
        rw [hs]
        simp
      -- no array, so it depends on the count whether the loop reads from it
      by_cases hcount : f.fieldCount = 0
      · refine .bare hkey (by simp [Frame.isReserved, hcount])
          (Frame.wellKnownValues_eq_nil henc) ?_ hscalars
        rw [hr]
        unfold keyFrameReports
        rw [hcount]
        rfl
      · refine .reserved hkey (count hcount) (Frame.wellKnownValues_eq_nil henc) ?_ hscalars
        rw [hr]
        exact keyFrameReports_of_no_array rfl hcount
  · have ht : f.header.dataSetMessageType ≠ .dataKeyFrame := fun ht => hkey (isKeyFrame_iff.mpr ht)
    have hd : d.header = f.header := by
      cases h <;> rfl
    obtain ⟨hr, hs⟩ := dataSetMessageReports_of_other (d := d) (by rwa [hd])
    exact .other (by simpa using hkey) hr hs

namespace FrameCase

variable {f : Frame} {d : DataSetMessage}

theorem isSome_iff (h : FrameCase src T f d) :
    (dataSetMessageReports d).isSome = true ↔ f.ObjectsPresent src T := by
  unfold Frame.ObjectsPresent
  cases h with
  | other type reports _ => simp [type, reports]
  | fields type encoding reads reports _ =>
    rw [reports, gather_isSome_iff, Frame.forall_fields_iff reads fun p v hv =>
      hv.fieldCase.isSome_iff.symm]
    simp [type, encoding]
  | bare type encoding values reports _ => simp [encoding, values, reports]
  | reserved type encoding _ reports _ => simp [type, encoding, reports]

theorem eq_scalarReports_iff (h : FrameCase src T f d) :
    dataSetMessageReports d = some d.scalarReports ↔ f.OnlyScalars src T := by
  unfold Frame.OnlyScalars
  cases h with
  | other type reports scalars => simp [type, reports, scalars]
  | @fields vs type encoding reads reports scalars =>
    have hcovers := forall_of_forall₂ reads fun p v hv => hv.fieldCase.covers
    rw [reports, scalars, gather_eq_some_iff hcovers, Frame.forall_fields_iff reads fun p v hv =>
      hv.fieldCase.eq_scalarReports_iff.symm]
    simp [type, encoding]
  | bare type encoding values reports scalars => simp [encoding, values, reports, scalars]
  | reserved type encoding _ reports _ => simp [type, encoding, reports]

theorem scalarReports_eq_nil_iff (h : FrameCase src T f d) :
    d.scalarReports = [] ↔ f.NoScalars src T := by
  unfold Frame.NoScalars
  cases h with
  | other type _ scalars => simp [type, scalars]
  | fields type _ reads _ scalars =>
    rw [scalars, List.flatMap_eq_nil_iff, Frame.forall_fields_iff reads fun p v hv =>
      hv.fieldCase.scalarReports_eq_nil_iff.symm]
    simp [type]
  | bare _ _ values _ scalars => simp [values, scalars]
  | reserved _ _ values _ scalars => simp [values, scalars]

theorem covers (h : FrameCase src T f d) : Covers d.scalarReports (dataSetMessageReports d) := by
  cases h with
  | other _ reports scalars => exact covers_of_eq (by rw [reports, scalars])
  | @fields vs _ _ reads reports scalars =>
    rw [reports, scalars]
    exact covers_gather (forall_of_forall₂ reads fun p v hv => hv.fieldCase.covers)
  | bare _ _ _ reports scalars => exact covers_of_eq (by rw [reports, scalars])
  | reserved _ _ _ reports _ =>
    rw [reports]
    rintro _ ⟨⟩

end FrameCase

/-! ## The message -/

theorem dataSetMessageCount_of_enabled {m : NetworkMessage} (h : m.payloadHeaderEnabled = true) :
    m.dataSetMessageCount = m.payloadHeader.count.toNat := by
  simp [NetworkMessage.dataSetMessageCount, h]

/-- The loops of `listen` over an accepted message. Without a payload header there is a
message, but the counter that bounds the loop is zero. -/
theorem Decoded.reports {offset : Nat} {m : NetworkMessage} (h : Decoded src T offset m) :
    ∃ ds, expectedReports m = ds.flatMap DataSetMessage.scalarReports ∧
      List.Forall₂ (fun p d => FrameCase src T (frameAt src T p) d) (frameStarts src T offset) ds ∧
      networkMessageReports m =
        if payloadHeaderFlag src offset then gather dataSetMessageReports ds else some [] := by
  obtain ⟨ds, hds, hlen, hframes⟩ := h.messages
  refine ⟨ds, ?_, hframes.imp fun _ _ hd => hd.frameCase, ?_⟩
  · unfold expectedReports
    rw [hds, Option.getD_some, ← hlen, List.take_length]
  · unfold networkMessageReports
    rw [if_neg (Decidable.not_not.mpr h.type), ← h.enabled, hds, Option.getD_some]
    cases henabled : m.payloadHeaderEnabled with
    | false =>
      have hzero : m.payloadHeader.count = 0 := by
        rw [h.arrays.payloadHeader.absent henabled]
        rfl
      rw [hzero]
      rfl
    | true =>
      rw [dataSetMessageCount_of_enabled henabled] at hlen
      rw [← hlen, collect_getElem?, if_pos rfl]
      split
      · next hc =>
        -- no DataSetMessage at all
        have hcount : m.payloadHeader.count.toNat < 1 := UInt8.lt_iff_toNat_lt.mp hc.2
        cases ds with
        | nil => rfl
        | cons d ds =>
          rw [List.length_cons] at hlen
          omega
      · rfl

/-- **When the output of `listen` is the expected one.** -/
theorem Decoded.reports_eq_expected_iff {offset : Nat} {m : NetworkMessage}
    (h : Decoded src T offset m) :
    networkMessageReports m = some (expectedReports m) ↔ ∀ f ∈ frames src T offset,
      if payloadHeaderFlag src offset then f.OnlyScalars src T else f.NoScalars src T := by
  obtain ⟨ds, hexpected, hframes, hreports⟩ := h.reports
  rw [hexpected, hreports, frames, List.forall_mem_map]
  cases payloadHeaderFlag src offset with
  | true =>
    simp only [if_true]
    rw [gather_eq_some_iff (forall_of_forall₂ hframes fun _ _ hd => hd.covers)]
    exact (forall_iff_of_forall₂ hframes fun _ _ hd => hd.eq_scalarReports_iff.symm).symm
  | false =>
    simp only [Bool.false_eq_true, if_false, Option.some.injEq]
    rw [forall_iff_of_forall₂ hframes fun _ _ hd => hd.scalarReports_eq_nil_iff.symm,
      eq_comm, List.flatMap_eq_nil_iff]

/-- **When `listen` reads nothing that is absent**: in a message with a payload header,
no key frame counts fields of the reserved encoding, and no array of a well-known type
is empty. -/
theorem Decoded.reports_isSome_iff {offset : Nat} {m : NetworkMessage}
    (h : Decoded src T offset m) :
    (networkMessageReports m).isSome = true ↔
      (payloadHeaderFlag src offset = true →
        ∀ f ∈ frames src T offset, f.ObjectsPresent src T) := by
  obtain ⟨ds, -, hframes, hreports⟩ := h.reports
  rw [hreports, frames, List.forall_mem_map]
  cases payloadHeaderFlag src offset with
  | true =>
    simp only [if_true, true_implies]
    rw [gather_isSome_iff]
    exact (forall_iff_of_forall₂ hframes fun _ _ hd => hd.isSome_iff.symm).symm
  | false => simp

/-- **When the values that `listen` reads are there.** -/
theorem visitedValuesPresent_iff {t : DecodeCall} (h : decodeAt src T 0 = .done () t) :
    VisitedValuesPresent t.dst ↔
      (payloadHeaderFlag src 0 = true → ∀ f ∈ frames src T 0, f.ObjectsPresent src T) := by
  have hdecoded : Decoded src T 0 t.dst := decoded_of_done h
  rw [← networkMessageReports_isSome_iff hdecoded.type]
  exact hdecoded.reports_isSome_iff

/-- A key frame with the Byte 42, behind a payload header. -/
def byteKeyFrame : Bytes := [0x41, 0x01, 0x01, 0x00, 0x01, 0x01, 0x00, 0x03, 0x2A]

theorem byteKeyFrame_frames : frames byteKeyFrame builtinTypes 0 =
    [⟨{ (default : DataSetMessageHeader) with dataSetMessageValid := true }, 1, [7]⟩] := rfl

/-- Its value is a scalar. -/
theorem byteKeyFrame_onlyScalars :
    ∀ f ∈ frames byteKeyFrame builtinTypes 0, f.OnlyScalars byteKeyFrame builtinTypes := by
  intro f hf
  rw [byteKeyFrame_frames] at hf
  rw [List.mem_singleton.mp hf]
  intro _
  refine ⟨rfl, fun c hc => ?_⟩
  have hvalues : c ∈ [(⟨7, 0⟩ : Ctx)] := hc
  rw [List.mem_singleton.mp hvalues]
  rfl

/-- Scalars are there to be read. -/
theorem Frame.OnlyScalars.objectsPresent {f : Frame} (h : f.OnlyScalars src T) :
    f.ObjectsPresent src T := by
  intro hkey
  obtain ⟨hencoding, hscalars⟩ := h hkey
  refine ⟨hencoding, fun c hc harray => ?_⟩
  rw [hscalars c hc] at harray
  cases harray

theorem byteKeyFrame_valuesPresent :
    ∃ t, decodeAt byteKeyFrame builtinTypes 0 = .done () t ∧ VisitedValuesPresent t.dst := by
  obtain ⟨t, ht⟩ : ∃ t, decodeAt byteKeyFrame builtinTypes 0 = .done () t := ⟨_, rfl⟩
  exact ⟨t, ht, (visitedValuesPresent_iff ht).mpr fun _ f hf =>
    (byteKeyFrame_onlyScalars f hf).objectsPresent⟩

/-- A key frame with one array of Bytes, which is empty: `listen` reads a Byte through
the sentinel. -/
theorem emptyByteArray_not_present :
    ∃ t, decodeAt [0x41, 0x01, 0x01, 0x00, 0x01, 0x01, 0x00, 0x83, 0x00, 0x00, 0x00, 0x00]
        builtinTypes 0 = .done () t ∧ ¬ VisitedValuesPresent t.dst := by
  refine ⟨_, rfl, fun h => ?_⟩
  obtain ⟨d, hd, hfields⟩ := h 0 (by decide)
  cases hd
  obtain ⟨field, hfield, hpresent⟩ := hfields rfl 0 (by decide)
  cases hfield
  obtain ⟨v, r, hv, -⟩ := hpresent .byte rfl
  cases hv

end OpenPubSub
