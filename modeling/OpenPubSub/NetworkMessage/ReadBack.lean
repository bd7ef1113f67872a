import OpenPubSub.Lib.Fill
import OpenPubSub.NetworkMessage.Decode
import OpenPubSub.NetworkMessage.EncodeLayout
import OpenPubSub.Types.RoundTrip

/-!
# Reading DataSetMessages back

Where the bytes of a DataSetMessage stand, the decoder fills a structure with this message.

- `DecodesTo src bs d e x`: where the bytes `bs` stand, `x` turns the structure `d` into
  `e` and moves behind them. A loop over an array is one rule (`decodesTo_forUpTo`).
- `FieldSpec.ReadsBack` is what is needed of a field, `DataSetMessage.Canonical` of a
  message: what is not there is zero. `DataSetMessage.received` is what the decoder makes of
  such a message.
-/

namespace OpenPubSub

open Routine

variable {src : Bytes} {T : DataTypes} {M N α β : Type} {as bs : Bytes}

/-! ## The judgement -/

/-- Where the bytes `bs` stand, the decoder turns `d` into `e` and moves behind them. -/
def DecodesTo (src bs : Bytes) (d e : M) (x : Decoder M Unit) : Prop :=
  ∀ p : Nat, At src p bs → x ⟨p, d⟩ = .done () ⟨p + bs.length, e⟩

section Rules

variable {d e f : M} {x y : Decoder M Unit}

theorem DecodesTo.congr (h : DecodesTo src as d e x) (hbs : as = bs) (he : e = f) :
    DecodesTo src bs d f x := hbs ▸ he ▸ h

/-- Nothing is read and nothing changes. -/
theorem decodesTo_pure : DecodesTo src [] d d (pure ()) := fun _ _ => rfl

theorem decodesTo_assign {g : M → M} (h : g d = e) : DecodesTo src [] d e (assign g) :=
  h ▸ fun _ _ => rfl

/-- In a row: the second goes on in what the first left. -/
theorem DecodesTo.bind (hx : DecodesTo src as d e x) (hy : DecodesTo src bs e f y) :
    DecodesTo src (as ++ bs) d f (x >>= fun _ => y) := by
  intro p hat
  obtain ⟨has, hbs⟩ := at_append.mp hat
  rw [bind_done (hx p has), hy _ hbs, List.length_append, Nat.add_assoc]

/-- A value for a member. -/
theorem decodesTo_into [Inhabited α] {x : Routine ErrorCode Nat α} {put : α → M → M} {a : α}
    (hx : ReadsAt src bs a x) (h : put a d = e) : DecodesTo src bs d e (decodeInto x put) := by
  subst h
  intro p hat
  simp only [decodeInto, hx p hat]

/-- A local variable, and what is done with it. -/
theorem decodesTo_local {x : Routine ErrorCode Nat α} {a : α} {y : α → Decoder M Unit}
    (hx : ReadsAt src as a x) (hy : DecodesTo src bs d e (y a)) :
    DecodesTo src (as ++ bs) d e (decodeLocal x >>= y) := by
  intro p hat
  obtain ⟨has, hbs⟩ := at_append.mp hat
  have hrun : decodeLocal x ⟨p, d⟩ = .done a ⟨p + as.length, d⟩ := by
    simp only [decodeLocal, zoom, hx p has]
  rw [bind_done hrun, hy _ hbs, List.length_append, Nat.add_assoc]

/-- A local variable that is assigned from. -/
theorem decodesTo_localAssign {x : Routine ErrorCode Nat α} {a : α} {g : α → M → M}
    (hx : ReadsAt src bs a x) (h : g a d = e) :
    DecodesTo src bs d e (decodeLocal x >>= fun v => assign (g v)) :=
  (decodesTo_local hx (decodesTo_assign h)).congr (List.append_nil bs) rfl

/-- The structure as it is now is at hand in what follows. -/
theorem decodesTo_current {y : M → Decoder M Unit} (hy : DecodesTo src bs d e (y d)) :
    DecodesTo src bs d e (current >>= y) := hy

/-- A section that is there where its flag is set, in the message and in the structure. -/
theorem decodesTo_onFlag {flag : M → Bool} {c : Bool} (hc : flag d = c)
    (hx : c = true → DecodesTo src bs d e x) (hd : c = false → d = e) :
    DecodesTo src (if c then bs else []) d e (onFlag flag x) := by
  refine decodesTo_current ?_
  rw [hc]
  cases c with
  | true => exact hx rfl
  | false =>
    rw [← hd rfl]
    exact decodesTo_pure

/-- A member with a section of its own. -/
theorem decodesTo_member [Inhabited α] {flag : M → Bool} {c : Bool}
    {x : Routine ErrorCode Nat α} {put : α → M → M} {a : α} (hc : flag d = c)
    (hx : c = true → ReadsAt src bs a x) (hput : put a d = e) (hd : c = false → d = e) :
    DecodesTo src (if c then bs else []) d e (onFlag flag (decodeInto x put)) :=
  decodesTo_onFlag hc (fun h => decodesTo_into (hx h) hput) hd

/-- A section that is there where a bit is set. -/
theorem decodesTo_onBit {v mask : UInt8} {c : Bool} (hc : bitSet v mask = c)
    (hx : c = true → DecodesTo src bs d e x) (hd : c = false → d = e) :
    DecodesTo src (if c then bs else []) d e (onBit v mask x) := by
  rw [onBit, hc]
  cases c with
  | true => exact hx rfl
  | false =>
    rw [← hd rfl]
    exact decodesTo_pure

/-- A section that writes into one member of the structure. -/
theorem decodesTo_part {get : M → N} {put : N → M → M} {n : N} {x : Decoder N Unit}
    (hx : DecodesTo src bs (get d) n x) :
    DecodesTo src bs d (put n d) (decodePart get put x) := by
  intro p hat
  simp only [decodePart, zoom, hx p hat]

/-- A loop that fills an array of blanks, item by item. The induction is on the items left;
`pre` are the items in front of them. -/
theorem decodesTo_loopFrom (state : List β → M) {item : α → β} {blank : β} {bytes : α → Bytes}
    {body : Nat → Decoder M Unit} {xs : List α}
    (h : ∀ pre post, ∀ a ∈ xs, DecodesTo src (bytes a) (state (pre ++ blank :: post))
      (state (pre ++ item a :: post)) (body pre.length)) (pre : List β) :
    DecodesTo src (xs.flatMap bytes) (state (pre ++ List.replicate xs.length blank))
      (state (pre ++ xs.map item)) (loopFrom body pre.length xs.length) := by
  induction xs generalizing pre with
  | nil => exact decodesTo_pure
  | cons a xs ih =>
    have ha := h pre (List.replicate xs.length blank) a (List.mem_cons_self ..)
    have ih := ih (fun pre post b hb => h pre post b (List.mem_cons_of_mem _ hb)) (pre ++ [item a])
    simp only [List.append_assoc, List.singleton_append, List.length_append,
      List.length_singleton] at ih
    exact ha.bind ih

/-- A loop that fills an array: behind what was read stand the elements that were not. -/
theorem decodesTo_forUpTo (state : List β → M) {item : α → β} {blank : β} {bytes : α → Bytes}
    {body : Nat → Decoder M Unit} {xs : List α} {n : Nat} (hn : xs.length = n)
    (h : ∀ pre post, ∀ a ∈ xs, DecodesTo src (bytes a) (state (pre ++ blank :: post))
      (state (pre ++ item a :: post)) (body pre.length)) :
    DecodesTo src (xs.flatMap bytes) (state (List.replicate n blank)) (state (xs.map item))
      (forUpTo n body) := by
  subst hn
  exact decodesTo_loopFrom state h []

end Rules

/-! ## Flag bytes -/

/-- The first byte of flags of a DataSetMessage, bit by bit. -/
theorem dataSetFlags1_fields (h : DataSetMessageHeader) :
    FieldEncoding.ofByte ((h.dataSetFlags1 &&& dsMessageHeaderFieldEncodingMask) >>> dsMhShiftLen) =
        h.fieldEncoding ∧
      bitSet h.dataSetFlags1 dsMessageHeaderDsMsgValid = h.dataSetMessageValid ∧
      bitSet h.dataSetFlags1 dsMessageHeaderSeqNrEnabledMask =
        h.dataSetMessageSequenceNrEnabled ∧
      bitSet h.dataSetFlags1 dsMessageHeaderStatusEnabledMask = h.statusEnabled ∧
      bitSet h.dataSetFlags1 dsMessageHeaderConfigMajorVersionEnabledMask =
        h.configVersionMajorVersionEnabled ∧
      bitSet h.dataSetFlags1 dsMessageHeaderConfigMinorVersionEnabledMask =
        h.configVersionMinorVersionEnabled ∧
      bitSet h.dataSetFlags1 dsMessageHeaderFlags2EnabledMask = h.dataSetFlags2Enabled := by
  have hbits : ∀ encoding : FieldEncoding, ∀ a b c d e f : Bool,
      let v := encoding.toByte <<< dsMhShiftLen ||| maskBit a dsMessageHeaderDsMsgValid |||
        maskBit b dsMessageHeaderSeqNrEnabledMask ||| maskBit c dsMessageHeaderStatusEnabledMask |||
        maskBit d dsMessageHeaderConfigMajorVersionEnabledMask |||
        maskBit e dsMessageHeaderConfigMinorVersionEnabledMask |||
        maskBit f dsMessageHeaderFlags2EnabledMask
      FieldEncoding.ofByte ((v &&& dsMessageHeaderFieldEncodingMask) >>> dsMhShiftLen) =
          encoding ∧ bitSet v dsMessageHeaderDsMsgValid = a ∧
        bitSet v dsMessageHeaderSeqNrEnabledMask = b ∧
        bitSet v dsMessageHeaderStatusEnabledMask = c ∧
        bitSet v dsMessageHeaderConfigMajorVersionEnabledMask = d ∧
        bitSet v dsMessageHeaderConfigMinorVersionEnabledMask = e ∧
        bitSet v dsMessageHeaderFlags2EnabledMask = f := by
    intro encoding
    cases encoding <;> decide
  exact hbits ..

/-- The types the decoder knows what to do with. -/
def DataSetMessageType.isImplemented (type : DataSetMessageType) : Bool :=
  match type with
  | .dataKeyFrame | .dataDeltaFrame | .keepAlive => true
  | _ => false

/-- The second byte of flags of a DataSetMessage, for the types that are implemented. -/
theorem dataSetFlags2_fields {h : DataSetMessageHeader}
    (htype : h.dataSetMessageType.isImplemented = true) :
    DataSetMessageType.ofByte (h.dataSetFlags2 &&& dsMessageHeaderDsMessageTypeMask) =
        h.dataSetMessageType ∧
      bitSet h.dataSetFlags2 dsMessageHeaderTimestampEnabledMask = h.timestampEnabled ∧
      bitSet h.dataSetFlags2 dsMessageHeaderPicosecondsIncludedMask = h.picoSecondsIncluded := by
  unfold DataSetMessageHeader.dataSetFlags2
  generalize h.timestampEnabled = a
  generalize h.picoSecondsIncluded = b
  cases hkind : h.dataSetMessageType with
  | dataKeyFrame | dataDeltaFrame | keepAlive =>
    revert a b
    decide
  | event | reserved v =>
    rw [hkind] at htype
    cases htype

/-! ## DataSetMessageHeader -/

/-- The members whose sections are disabled are zero. -/
structure DataSetMessageHeader.IsZeroed (h : DataSetMessageHeader) : Prop where
  sequenceNr : h.dataSetMessageSequenceNrEnabled = false → h.dataSetMessageSequenceNr = 0
  timestamp : h.timestampEnabled = false → h.timestamp = 0
  picoSeconds : h.picoSecondsIncluded = false → h.picoSeconds = 0
  status : h.statusEnabled = false → h.status = 0
  majorVersion : h.configVersionMajorVersionEnabled = false → h.configVersionMajorVersion = 0
  minorVersion : h.configVersionMinorVersionEnabled = false → h.configVersionMinorVersion = 0

/-- What the flag bytes tell of a header. -/
def DataSetMessageHeader.flagsOnly (h : DataSetMessageHeader) : DataSetMessageHeader :=
  { h with
    dataSetMessageSequenceNr := 0
    timestamp := 0
    picoSeconds := 0
    status := 0
    configVersionMajorVersion := 0
    configVersionMinorVersion := 0 }

/-- The flags of a DataSetMessage. Where the second byte is missing its fields are at their
defaults. -/
theorem decodesTo_dataSetFlags {h : DataSetMessageHeader}
    (htype : h.dataSetMessageType.isImplemented = true) :
    DecodesTo src ([h.dataSetFlags1] ++ if h.dataSetFlags2Enabled then [h.dataSetFlags2] else [])
      default h.flagsOnly (dataSetFlagsDecodeBinary src) := by
  obtain ⟨hencoding, hvalid, hseq, hstatus, hmajor, hminor, hflags2⟩ := dataSetFlags1_fields h
  obtain ⟨hkind, htimestamp, hpico⟩ := dataSetFlags2_fields htype
  -- what the first byte leaves of the second one
  let first : DataSetMessageHeader := { h.flagsOnly with
    dataSetMessageType := .dataKeyFrame, timestampEnabled := false, picoSecondsIncluded := false }
  have hsecond :
    DecodesTo src [h.dataSetFlags2] first h.flagsOnly (dataSetFlags2DecodeBinary src) := by
    refine decodesTo_localAssign (readsAt_uaByte _) ?_
    simp only [hkind, htimestamp, hpico]
    rfl
  have hnone : h.dataSetFlags2Enabled = false → first = h.flagsOnly := by
    intro hflags
    simp only [DataSetMessageHeader.dataSetFlags2Enabled, Bool.or_eq_false_iff, bne_eq_false_iff_eq]
      at hflags
    obtain ⟨⟨htype, htime⟩, hpico⟩ := hflags
    simp only [first, DataSetMessageHeader.flagsOnly, htype, htime, hpico]
  refine decodesTo_local (readsAt_uaByte _) ?_
  refine DecodesTo.bind (e := first) (decodesTo_assign ?_)
    (decodesTo_onBit hflags2 (fun _ => hsecond) hnone)
  simp only [hencoding, hvalid, hseq, hstatus, hmajor, hminor]
  rfl

/-- A header comes back. -/
theorem decodesTo_dataSetMessageHeader {h d : DataSetMessageHeader}
    (htype : h.dataSetMessageType.isImplemented = true) (hzero : h.IsZeroed) :
    DecodesTo src (pieceBytes (dataSetMessageHeaderPieces 0 h)) d h
      (dataSetMessageHeaderDecodeBinary src) := by
  -- after each section the members of those that follow are still zero
  refine DecodesTo.congr ((decodesTo_assign rfl).bind ((decodesTo_dataSetFlags htype).bind
    ((decodesTo_member (e := { h with
        timestamp := 0, picoSeconds := 0, status := 0, configVersionMajorVersion := 0,
        configVersionMinorVersion := 0 }) rfl (fun _ => readsAt_uaUInt16 _) rfl fun hc => ?_).bind
      ((decodesTo_member (e := { h with
          picoSeconds := 0, status := 0, configVersionMajorVersion := 0,
          configVersionMinorVersion := 0 }) rfl (fun _ => readsAt_uaUInt64 _) rfl fun hc => ?_).bind
        ((decodesTo_member (e := { h with
            status := 0, configVersionMajorVersion := 0, configVersionMinorVersion := 0 }) rfl
          (fun _ => readsAt_uaUInt16 _) rfl fun hc => ?_).bind
          ((decodesTo_member (e := { h with
              configVersionMajorVersion := 0, configVersionMinorVersion := 0 }) rfl
            (fun _ => readsAt_uaUInt16 _) rfl fun hc => ?_).bind
            ((decodesTo_member (e := { h with configVersionMinorVersion := 0 }) rfl
              (fun _ => readsAt_uaUInt32 _) rfl fun hc => ?_).bind
              (decodesTo_member (e := h) rfl (fun _ => readsAt_uaUInt32 _) rfl
                fun hc => ?_)))))))) ?_ rfl
  · simp only [DataSetMessageHeader.flagsOnly, hzero.sequenceNr hc]
  · simp only [hzero.timestamp hc]
  · simp only [hzero.picoSeconds hc]
  · simp only [hzero.status hc]
  · simp only [hzero.majorVersion hc]
  · simp only [← hzero.minorVersion hc]
  · simp only [dataSetMessageHeaderPieces, pieceBytes_append, pieceBytes_ite, pieceBytes_cons,
      pieceBytes_nil, List.append_nil]
    rfl

/-! ## DataSetMessages -/

/-- A field that can be encoded, and comes back apart from dimensions of length zero. -/
structure FieldSpec.ReadsBack (S : FieldSpec) (T : DataTypes) (encoding : FieldEncoding)
    (f : DataValue) : Prop where
  meets : S.Meets T encoding f
  ok : S.ok encoding f
  variant : encoding = .variant → ∀ src,
    ReadsAt src (S.bytes encoding f) f.value.trimmed (uaVariantDecodeBinary src T)
  dataValue : encoding = .dataValue → ∀ src,
    ReadsAt src (S.bytes encoding f) f.trimmed (uaDataValueDecodeBinary src T)

/-- In VARIANT encoding a field is a Variant and nothing else. -/
def DataValueOf.FitsEncoding (encoding : FieldEncoding) (f : DataValue) : Prop :=
  encoding = .variant → f = { (default : DataValue) with value := f.value, hasValue := true }

/-- A message that the encoder and the decoder know: of one of the three types, with the
fields of its type only, in VARIANT or DATAVALUE encoding, and with everything zero that is
not there. -/
structure DataSetMessage.Canonical (d : DataSetMessage) : Prop where
  header : d.header.IsZeroed
  type : d.header.dataSetMessageType.isImplemented = true
  fieldNames : d.fieldNames = none
  encoding : d.header.dataSetMessageType ≠ .keepAlive → d.header.fieldEncoding.hasFields = true
  keyFields : d.header.dataSetMessageType = .dataKeyFrame →
    ∀ f ∈ d.dataSetFields.getD [], f.FitsEncoding d.header.fieldEncoding
  noKeyFields : d.header.dataSetMessageType ≠ .dataKeyFrame → d.dataSetFields = none
  deltaFields : d.header.dataSetMessageType = .dataDeltaFrame →
    ∀ p ∈ d.deltaFields, p.2.FitsEncoding d.header.fieldEncoding
  noDeltaFields : d.header.dataSetMessageType ≠ .dataDeltaFrame → d.deltaFrameFields = none
  noFields : d.header.dataSetMessageType = .keepAlive → d.fieldCount = 0

/-- The field as the decoder leaves it. -/
def DeltaFrameField.trimmed (f : DeltaFrameField) : DeltaFrameField :=
  { f with fieldValue := f.fieldValue.map DataValueOf.trimmed }

/-- What the decoder makes of a message: the arrays of its type are there, even if they are
empty. -/
def DataSetMessage.received (d : DataSetMessage) : DataSetMessage :=
  match d.header.dataSetMessageType with
  | .dataKeyFrame =>
    { d with dataSetFields := some ((d.dataSetFields.getD []).map DataValueOf.trimmed) }
  | .dataDeltaFrame =>
    { d with deltaFrameFields := some ((d.deltaFrameFields.getD []).map DeltaFrameField.trimmed) }
  | _ => d

variable {S : FieldSpec} {d : DataSetMessage} {encoding : FieldEncoding}

namespace DataSetMessage

/-- The message with these fields. -/
def withFields (d : DataSetMessage) (fs : List DataValue) : DataSetMessage :=
  { d with dataSetFields := some fs }

/-- The message with these delta frame fields. -/
def withDeltaFields (d : DataSetMessage) (fs : List DeltaFrameField) : DataSetMessage :=
  { d with deltaFrameFields := some fs }

theorem withFields_onField (d : DataSetMessage) (pre post : List DataValue) (b : DataValue)
    (f : DataValue → DataValue) :
    (d.withFields (pre ++ b :: post)).onField pre.length f = d.withFields (pre ++ f b :: post) := by
  simp only [onField, withFields, Option.map_some, modify_middle]

theorem withDeltaFields_onDeltaField (d : DataSetMessage) (pre post : List DeltaFrameField)
    (b : DeltaFrameField) (f : DeltaFrameField → DeltaFrameField) :
    (d.withDeltaFields (pre ++ b :: post)).onDeltaField pre.length f =
      d.withDeltaFields (pre ++ f b :: post) := by
  simp only [onDeltaField, withDeltaFields, Option.map_some, modify_middle]

end DataSetMessage

open DataSetMessage

/-- A field that is a Variant only is one also when it comes back. -/
theorem trimmed_of_fitsEncoding {f : DataValue} (hf : f.FitsEncoding .variant) :
    f.trimmed = { (default : DataValue) with value := f.value.trimmed, hasValue := true } := by
  have h := hf rfl
  rw [DataValueOf.trimmed, h]

/-- A field of a key frame that is a Variant. -/
theorem decodesTo_keyFrameVariant {f : DataValue} (hf : S.ReadsBack T .variant f)
    (hshape : f.FitsEncoding .variant) (d : DataSetMessage) (pre post : List DataValue) :
    DecodesTo src (S.bytes .variant f) (d.withFields (pre ++ default :: post))
      (d.withFields (pre ++ f.trimmed :: post)) (keyFrameVariantDecodeBinary src T pre.length) := by
  rw [trimmed_of_fitsEncoding hshape]
  exact ((decodesTo_assign (withFields_onField ..)).bind
    ((decodesTo_into (hf.variant rfl src) (withFields_onField ..)).bind
      (decodesTo_assign (withFields_onField ..)))).congr (by simp) rfl

/-- A field of a key frame that is a DataValue. -/
theorem decodesTo_keyFrameDataValue {f : DataValue} (hf : S.ReadsBack T .dataValue f)
    (d : DataSetMessage) (pre post : List DataValue) :
    DecodesTo src (S.bytes .dataValue f) (d.withFields (pre ++ default :: post))
      (d.withFields (pre ++ f.trimmed :: post))
      (keyFrameDataValueDecodeBinary src T pre.length) :=
  decodesTo_into (hf.dataValue rfl src) (withFields_onField ..)

/-- The fields of a key frame, as many as the counter says. -/
theorem decodesTo_keyFrameFields {fs : List DataValue} {field : Nat → Decoder DataSetMessage Unit}
    (hcount : fs.length = d.fieldCount.toNat)
    (hfield : ∀ pre post, ∀ f ∈ fs, DecodesTo src (S.bytes encoding f)
      (d.withFields (pre ++ default :: post)) (d.withFields (pre ++ f.trimmed :: post))
      (field pre.length)) :
    DecodesTo src (fs.flatMap (S.bytes encoding)) d
      (d.withFields (fs.map DataValueOf.trimmed)) (keyFrameFieldsDecodeBinary field) :=
  decodesTo_current ((decodesTo_assign rfl).bind (decodesTo_forUpTo _ hcount hfield))

/-- A header that has been read, and nothing else. -/
def DataSetMessage.ofHeader (h : DataSetMessageHeader) : DataSetMessage :=
  { (default : DataSetMessage) with header := h }

/-- Encodings with branches for fields have a field count. -/
theorem pieceBytes_fieldCount (h : d.header.fieldEncoding.hasFields = true) :
    pieceBytes (fieldCountPieces d) = leBytes 2 d.fieldCount.toNat := by
  unfold fieldCountPieces
  cases hencoding : d.header.fieldEncoding with
  | variant | dataValue => simp
  | rawData | reserved =>
    rw [hencoding] at h
    cases h

theorem pieceBytes_keyFrame (h : d.header.fieldEncoding.hasFields = true) :
    pieceBytes (keyFramePieces S 0 d) = leBytes 2 d.fieldCount.toNat ++
      (d.dataSetFields.getD []).flatMap (S.bytes d.header.fieldEncoding) := by
  have hfields := @pieceBytes_zipIdx _ d.keyFields (fun j f =>
    [⟨fieldItem d.header.fieldEncoding 0 j f, S.bytes d.header.fieldEncoding f⟩]) _
    (fun _ _ _ => List.append_nil _) 0
  rw [keyFramePieces, pieceBytes_append, pieceBytes_fieldCount h, hfields,
    DataSetMessage.keyFields, if_pos h]

theorem pieceBytes_deltaFrame (h : d.header.fieldEncoding.hasFields = true) :
    pieceBytes (deltaFramePieces S d) = leBytes 2 d.fieldCount.toNat ++
      d.deltaFields.flatMap fun p => leBytes 2 p.1.toNat ++ S.bytes d.header.fieldEncoding p.2 := by
  have hfields := @pieceBytes_zipIdx _ d.deltaFields (fun _ p =>
    [.plain (leBytes 2 p.1.toNat), .plain (S.bytes d.header.fieldEncoding p.2)])
    (fun p => leBytes 2 p.1.toNat ++ S.bytes d.header.fieldEncoding p.2)
    (fun _ _ _ => by simp) 0
  rw [deltaFramePieces, pieceBytes_append, pieceBytes_fieldCount h, hfields]

/-- The payload of a key frame. -/
theorem decodesTo_keyFrameData (htype : d.header.dataSetMessageType = .dataKeyFrame)
    (hfilled : d.Filled (S.ReadsBack T)) (hd : d.Canonical) :
    DecodesTo src (pieceBytes (keyFramePieces S 0 d)) (.ofHeader d.header) d.received
      (keyFrameDataDecodeBinary src T) := by
  have hfields := hd.encoding (by rw [htype]; decide)
  have hcount := hfilled.keyLength htype hfields
  have hkey : d.keyFields = d.dataSetFields.getD [] := if_pos hfields
  have hback := hfilled.keyFields htype
  have hshape := hd.keyFields htype
  have hnodelta := hd.noDeltaFields (by rw [htype]; decide)
  let counted : DataSetMessage :=
    { DataSetMessage.ofHeader d.header with fieldCount := d.fieldCount }
  have hreceived : d.received =
      counted.withFields ((d.dataSetFields.getD []).map DataValueOf.trimmed) := by
    simp only [DataSetMessage.received, htype, withFields, hd.fieldNames, hnodelta]
    rfl
  rw [hkey] at hback
  rw [pieceBytes_keyFrame hfields, hreceived, keyFrameDataDecodeBinary]
  refine decodesTo_current ?_
  have hcounted : DecodesTo src (leBytes 2 d.fieldCount.toNat) (.ofHeader d.header) counted
      (decodeInto (uaUInt16DecodeBinary src) fun v d => { d with fieldCount := v }) :=
    decodesTo_into (readsAt_uaUInt16 _) rfl
  have hheader : (DataSetMessage.ofHeader d.header).header = d.header := rfl
  rw [hheader]
  -- the count in front is read in any encoding, the fields only in two of them
  cases hencoding : d.header.fieldEncoding with
  | variant =>
    rw [hencoding] at hback hshape
    have hloop : DecodesTo src _ counted _ (keyFrameFieldsDecodeBinary _) :=
      decodesTo_keyFrameFields hcount
      fun pre post f hf => decodesTo_keyFrameVariant (hback f hf) (hshape f hf) counted pre post
    exact hcounted.bind hloop
  | dataValue =>
    rw [hencoding] at hback
    have hloop : DecodesTo src _ counted _ (keyFrameFieldsDecodeBinary _) :=
      decodesTo_keyFrameFields hcount
      fun pre post f hf => decodesTo_keyFrameDataValue (hback f hf) counted pre post
    exact hcounted.bind hloop
  | rawData | reserved =>
    rw [hencoding] at hfields
    cases hfields

/-! ### Delta frames -/

/-- Index and value of a field, as they come back. -/
def receivedPair (p : UInt16 × DataValue) : DeltaFrameField := ⟨.init p.1, .init p.2.trimmed⟩

/-- The index of a field of a delta frame. -/
theorem decodesTo_deltaFrameIndex (i : UInt16) (d : DataSetMessage)
    (pre post : List DeltaFrameField)
    (b : DeltaFrameField) :
    DecodesTo src (leBytes 2 i.toNat) (d.withDeltaFields (pre ++ b :: post))
      (d.withDeltaFields (pre ++ { b with fieldIndex := .init i } :: post))
      (deltaFrameIndexDecodeBinary src pre.length) :=
  decodesTo_into (readsAt_uaUInt16 i) (withDeltaFields_onDeltaField ..)

/-- A field of a delta frame that is a Variant. -/
theorem decodesTo_deltaFrameVariant {p : UInt16 × DataValue} (hp : S.ReadsBack T .variant p.2)
    (hshape : p.2.FitsEncoding .variant) (d : DataSetMessage) (pre post : List DeltaFrameField) :
    DecodesTo src (leBytes 2 p.1.toNat ++ S.bytes .variant p.2)
      (d.withDeltaFields (pre ++ .uninit :: post))
      (d.withDeltaFields (pre ++ receivedPair p :: post))
      (deltaFrameVariantDecodeBinary src T pre.length) := by
  rw [receivedPair, trimmed_of_fitsEncoding hshape]
  exact ((decodesTo_deltaFrameIndex p.1 d pre post _).bind
    ((decodesTo_assign (withDeltaFields_onDeltaField ..)).bind
      ((decodesTo_into (hp.variant rfl src) (withDeltaFields_onDeltaField ..)).bind
        (decodesTo_assign (withDeltaFields_onDeltaField ..))))).congr (by simp) rfl

/-- A field of a delta frame that is a DataValue. -/
theorem decodesTo_deltaFrameDataValue {p : UInt16 × DataValue} (hp : S.ReadsBack T .dataValue p.2)
    (d : DataSetMessage) (pre post : List DeltaFrameField) :
    DecodesTo src (leBytes 2 p.1.toNat ++ S.bytes .dataValue p.2)
      (d.withDeltaFields (pre ++ .uninit :: post))
      (d.withDeltaFields (pre ++ receivedPair p :: post))
      (deltaFrameDataValueDecodeBinary src T pre.length) :=
  (decodesTo_deltaFrameIndex p.1 d pre post _).bind
    (decodesTo_into (hp.dataValue rfl src) (withDeltaFields_onDeltaField ..))

/-- The fields of a delta frame, as many as the counter says. -/
theorem decodesTo_deltaFrameFields {ps : List (UInt16 × DataValue)}
    {field : Nat → Decoder DataSetMessage Unit} (hcount : ps.length = d.fieldCount.toNat)
    (hfield : ∀ pre post, ∀ p ∈ ps, DecodesTo src (leBytes 2 p.1.toNat ++ S.bytes encoding p.2)
      (d.withDeltaFields (pre ++ .uninit :: post))
      (d.withDeltaFields (pre ++ receivedPair p :: post)) (field pre.length)) :
    DecodesTo src (ps.flatMap fun p => leBytes 2 p.1.toNat ++ S.bytes encoding p.2) d
      (d.withDeltaFields (ps.map receivedPair)) (deltaFrameFieldsDecodeBinary field) :=
  decodesTo_current ((decodesTo_assign rfl).bind (decodesTo_forUpTo _ hcount hfield))

/-- The payload of a delta frame. -/
theorem decodesTo_deltaFrameData (htype : d.header.dataSetMessageType = .dataDeltaFrame)
    (hfilled : d.Filled (S.ReadsBack T)) (hd : d.Canonical) :
    DecodesTo src (pieceBytes (deltaFramePieces S d)) (.ofHeader d.header) d.received
      (deltaFrameDataDecodeBinary src T) := by
  have hfields := hd.encoding (by rw [htype]; decide)
  have hcount := hfilled.deltaLength htype hfields
  obtain ⟨ps, hps⟩ := exists_map_ofPair (hfilled.deltaInit htype hfields)
  -- all slots of the array were written, so they are pairs
  have hdelta : d.deltaFields = ps := by
    rw [DataSetMessage.deltaFields, if_pos hfields, hps, filterMap_pair?_map]
  have hback := hfilled.deltaFields htype
  have hshape := hd.deltaFields htype
  have hnokey := hd.noKeyFields (by rw [htype]; decide)
  let counted : DataSetMessage :=
    { DataSetMessage.ofHeader d.header with fieldCount := d.fieldCount }
  have hreceived : d.received = counted.withDeltaFields (ps.map receivedPair) := by
    have htrimmed : (d.deltaFrameFields.getD []).map DeltaFrameField.trimmed =
        ps.map receivedPair := by
      rw [hps, List.map_map]
      rfl
    simp only [DataSetMessage.received, htype, htrimmed, withDeltaFields, hd.fieldNames, hnokey]
    rfl
  rw [hps, List.length_map] at hcount
  rw [hdelta] at hback hshape
  rw [pieceBytes_deltaFrame hfields, hreceived, hdelta, deltaFrameDataDecodeBinary]
  refine decodesTo_current ?_
  have hcounted : DecodesTo src (leBytes 2 d.fieldCount.toNat) (.ofHeader d.header) counted
      (decodeInto (uaUInt16DecodeBinary src) fun v d => { d with fieldCount := v }) :=
    decodesTo_into (readsAt_uaUInt16 _) rfl
  have hheader : (DataSetMessage.ofHeader d.header).header = d.header := rfl
  rw [hheader]
  cases hencoding : d.header.fieldEncoding with
  | variant =>
    rw [hencoding] at hback hshape
    have hloop : DecodesTo src _ counted _ (deltaFrameFieldsDecodeBinary _) :=
      decodesTo_deltaFrameFields hcount
      fun pre post p hp => decodesTo_deltaFrameVariant (hback p hp) (hshape p hp) counted pre post
    exact hcounted.bind hloop
  | dataValue =>
    rw [hencoding] at hback
    have hloop : DecodesTo src _ counted _ (deltaFrameFieldsDecodeBinary _) :=
      decodesTo_deltaFrameFields hcount
      fun pre post p hp => decodesTo_deltaFrameDataValue (hback p hp) counted pre post
    exact hcounted.bind hloop
  | rawData | reserved =>
    rw [hencoding] at hfields
    cases hfields

/-- **A DataSetMessage comes back.** -/
theorem decodesTo_dataSetMessage (hfilled : d.Filled (S.ReadsBack T)) (hd : d.Canonical)
    (old : DataSetMessage) :
    DecodesTo src (dataSetMessageBytes S d) old d.received (dataSetMessageDecodeBinary src T) := by
  have hheader : DecodesTo src (pieceBytes (dataSetMessageHeaderPieces 0 d.header)) default
      (DataSetMessage.ofHeader d.header)
      (decodePart DataSetMessage.header (fun h d => { d with header := h })
        (dataSetMessageHeaderDecodeBinary src)) :=
    decodesTo_part (decodesTo_dataSetMessageHeader hd.type hd.header)
  rw [dataSetMessageBytes, dataSetMessagePieces, pieceBytes_append]
  refine ((decodesTo_assign rfl).bind (hheader.bind (decodesTo_current ?_))).congr rfl rfl
  have hsame : (DataSetMessage.ofHeader d.header).header = d.header := rfl
  rw [hsame]
  cases htype : d.header.dataSetMessageType with
  | dataKeyFrame => exact decodesTo_keyFrameData htype hfilled hd
  | dataDeltaFrame => exact decodesTo_deltaFrameData htype hfilled hd
  | keepAlive =>
    -- a keep-alive is its header, and nothing else
    have hreceived : d.received = DataSetMessage.ofHeader d.header := by
      have hnokey := hd.noKeyFields (by rw [htype]; decide)
      have hnodelta := hd.noDeltaFields (by rw [htype]; decide)
      simp only [DataSetMessage.received, htype]
      have hcount := hd.noFields htype
      have hnames := hd.fieldNames
      obtain ⟨header, fieldCount, dataSetFields, fieldNames, deltaFrameFields⟩ := d
      subst hnokey hnodelta hcount hnames
      rfl
    rw [hreceived]
    exact decodesTo_pure
  | event | reserved v =>
    have himplemented := hd.type
    rw [htype] at himplemented
    cases himplemented

end OpenPubSub
