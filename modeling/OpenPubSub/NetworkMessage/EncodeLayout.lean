import OpenPubSub.NetworkMessage.Pieces

/-!
# The layout of encoded messages

The pieces of a DataSetMessage and of a NetworkMessage, section by section, and that
encoder and size calculation go over them (`Lays`).

- `FieldSpec` is what is known about the fields of DataSetMessages: their bytes, and
  whether they can be encoded. The rest of the layout does not depend on it.
- `DataSetMessage.Filled` and its companions for the other sections say that the arrays
  are as long as their counters. Where they fail the C code reads behind an array.
-/

namespace OpenPubSub

open Routine Writer

variable {T : DataTypes}

/-! ## Fields -/

/-- What is written for a field of a DataSetMessage. -/
def fieldEncodeBinary (T : DataTypes) (encoding : FieldEncoding) (f : DataValue) : Enc :=
  match encoding with
  | .variant => uaVariantEncodeBinary T f.value
  | .dataValue => uaDataValueEncodeBinary T f
  | .rawData | .reserved => pure ()

/-- What is counted for a field of a DataSetMessage. -/
def fieldCalcSizeBinary (T : DataTypes) (encoding : FieldEncoding) (f : DataValue) : Option Nat :=
  match encoding with
  | .variant => uaVariantCalcSizeBinary T f.value
  | .dataValue => uaDataValueCalcSizeBinary T f
  | .rawData | .reserved => some 0

/-- The bytes of fields, and whether they can be encoded. -/
structure FieldSpec where
  bytes : FieldEncoding → DataValue → Bytes
  ok : FieldEncoding → DataValue → Prop

/-- Encoder and size calculation treat the field as the specification says. -/
structure FieldSpec.Meets (S : FieldSpec) (T : DataTypes) (encoding : FieldEncoding)
    (f : DataValue) : Prop where
  commits : Commits (S.bytes encoding f) (S.ok encoding f) (fieldEncodeBinary T encoding f)
  size : fieldCalcSizeBinary T encoding f = some (S.bytes encoding f).length

/-- Fields that are empty or of leaf types. -/
def leafSpec (T : DataTypes) : FieldSpec where
  bytes encoding f :=
    match encoding with
    | .variant => (variantPlan T f.value).bytes
    | .dataValue => dataValueBytes T f
    | .rawData | .reserved => []
  ok encoding f :=
    match encoding with
    | .variant => (variantPlan T f.value).ok = true
    | .dataValue => f.hasValue = true → (variantPlan T f.value).ok = true
    | .rawData | .reserved => True

/-- The Variant that is encoded with the field is empty or of a leaf type. -/
def IsLeafField (encoding : FieldEncoding) (f : DataValue) : Prop :=
  match encoding with
  | .variant => Variant.IsLeaf f.value
  | .dataValue => f.IsLeaf
  | .rawData | .reserved => True

/-- Leaf fields are laid out by their plans. -/
theorem leafSpec_meets (hT : StandardTypes T) {encoding : FieldEncoding} {f : DataValue}
    (h : IsLeafField encoding f) : (leafSpec T).Meets T encoding f := by
  cases encoding with
  | variant => exact ⟨commits_uaVariant hT h, uaVariantCalcSizeBinary_eq hT h⟩
  | dataValue => exact ⟨commits_uaDataValue hT h, uaDataValueCalcSizeBinary_eq hT h⟩
  | rawData => exact ⟨commits_pure, rfl⟩
  | reserved => exact ⟨commits_pure, rfl⟩

/-- A field is written and counted. -/
theorem lays_field {S : FieldSpec} {encoding : FieldEncoding} {f : DataValue}
    (h : S.Meets T encoding f) :
    Lays [.plain (S.bytes encoding f)] (S.ok encoding f) (fieldEncodeBinary T encoding f)
      (addCalcSize (fieldCalcSizeBinary T encoding f)) := by
  rw [h.size]
  exact lays_plain h.commits rfl

/-! ## DataSetMessageHeader -/

/-- The header of a DataSetMessage, with what goes into the offset table. -/
def dataSetMessageHeaderPieces (i : Nat) (h : DataSetMessageHeader) : List Piece :=
  [.plain [h.dataSetFlags1]] ++
    ((if h.dataSetFlags2Enabled then [.plain [h.dataSetFlags2]] else []) ++
      ((if h.dataSetMessageSequenceNrEnabled then
          [⟨some (.dataSetMessageSequenceNumber, .dataSetMessageSequenceNr i),
            leBytes 2 h.dataSetMessageSequenceNr.toNat⟩] else []) ++
        ((if h.timestampEnabled then [.plain (leBytes 8 h.timestamp.toNat)] else []) ++
          ((if h.picoSecondsIncluded then [.plain (leBytes 2 h.picoSeconds.toNat)] else []) ++
            ((if h.statusEnabled then [.plain (leBytes 2 h.status.toNat)] else []) ++
              ((if h.configVersionMajorVersionEnabled then
                  [.plain (leBytes 4 h.configVersionMajorVersion.toNat)] else []) ++
                (if h.configVersionMinorVersionEnabled then
                  [.plain (leBytes 4 h.configVersionMinorVersion.toNat)] else [])))))))

/-- The header of a DataSetMessage. -/
theorem lays_dataSetMessageHeader (i : Nat) (h : DataSetMessageHeader) :
    Lays (dataSetMessageHeaderPieces i h) True (dataSetMessageHeaderEncodeBinary h)
      (dataSetMessageHeaderSizing i h) :=
  (lays_plain (commits_uaByte _) rfl).bind
    ((lays_plainIf (commits_uaByte _) rfl).bind
      ((lays_item rfl (lays_plain (commits_uaUInt16 _) (leBytes_length 2 _))).ite.bind
        ((lays_plainIf (commits_uaUInt64 _) (leBytes_length 8 _)).bind
          ((lays_plainIf (commits_uaUInt16 _) (leBytes_length 2 _)).bind
            ((lays_plainIf (commits_uaUInt16 _) (leBytes_length 2 _)).bind
              ((lays_plainIf (commits_uaUInt32 _) (leBytes_length 4 _)).bind
                (lays_plainIf (commits_uaUInt32 _) (leBytes_length 4 _)))))))) |>.congr (by simp)

/-! ## DataSetMessage -/

/-- The entry for field `j` of message number `i`. -/
def fieldItem (encoding : FieldEncoding) (i j : Nat) (f : DataValue) :
    Option (NetworkMessageOffsetType × OffsetSource) :=
  match encoding with
  | .variant => some (.payloadVariant, .fieldData i j f.value.type)
  | .dataValue => some (.payloadDataValue, .dataSetFields i)
  | .rawData | .reserved => none

/-- Does the encoding have branches for fields? -/
def FieldEncoding.hasFields (encoding : FieldEncoding) : Bool :=
  match encoding with
  | .variant | .dataValue => true
  | .rawData | .reserved => false

/-- The fields a key frame is encoded with. -/
def DataSetMessage.keyFields (d : DataSetMessage) : List DataValue :=
  if d.header.fieldEncoding.hasFields then d.dataSetFields.getD [] else []

/-- Index and value of a delta frame field, if both were ever written. -/
def DeltaFrameField.pair? (f : DeltaFrameField) : Option (UInt16 × DataValue) :=
  match f.fieldIndex, f.fieldValue with
  | .init i, .init v => some (i, v)
  | _, _ => none

/-- The fields a delta frame is encoded with. -/
def DataSetMessage.deltaFields (d : DataSetMessage) : List (UInt16 × DataValue) :=
  if d.header.fieldEncoding.hasFields then
    (d.deltaFrameFields.getD []).filterMap DeltaFrameField.pair? else []

/-- The counter of the fields. -/
def fieldCountPieces (d : DataSetMessage) : List Piece :=
  if d.header.fieldEncoding != .rawData then [.plain (leBytes 2 d.fieldCount.toNat)] else []

/-- The fields of a key frame, each of which has an entry. -/
def keyFramePieces (S : FieldSpec) (i : Nat) (d : DataSetMessage) : List Piece :=
  fieldCountPieces d ++ d.keyFields.zipIdx.flatMap fun p =>
    [⟨fieldItem d.header.fieldEncoding i p.2 p.1, S.bytes d.header.fieldEncoding p.1⟩]

/-- The fields of a delta frame, behind their indices. None has an entry. -/
def deltaFramePieces (S : FieldSpec) (d : DataSetMessage) : List Piece :=
  fieldCountPieces d ++ d.deltaFields.zipIdx.flatMap fun p =>
    [.plain (leBytes 2 p.1.1.toNat), .plain (S.bytes d.header.fieldEncoding p.1.2)]

/-- The pieces of message number `i`. -/
def dataSetMessagePieces (S : FieldSpec) (i : Nat) (d : DataSetMessage) : List Piece :=
  dataSetMessageHeaderPieces i d.header ++
    match d.header.dataSetMessageType with
    | .dataKeyFrame => keyFramePieces S i d
    | .dataDeltaFrame => deltaFramePieces S d
    | _ => []

/-- The message can be encoded: it is of a type that is implemented, not RAWDATA, and has
no field that is refused. -/
def DataSetMessage.Encodable (S : FieldSpec) (d : DataSetMessage) : Prop :=
  match d.header.dataSetMessageType with
  | .dataKeyFrame => d.header.fieldEncoding ≠ .rawData ∧
      ∀ f ∈ d.keyFields, S.ok d.header.fieldEncoding f
  | .dataDeltaFrame => d.header.fieldEncoding ≠ .rawData ∧
      ∀ f ∈ d.deltaFields, S.ok d.header.fieldEncoding f.2
  | .keepAlive => True
  | _ => False

/-- The array of fields is as long as the field count, every field that is used was written
and has the property `P`. -/
structure DataSetMessage.Filled (P : FieldEncoding → DataValue → Prop) (d : DataSetMessage) :
    Prop where
  keyLength : d.header.dataSetMessageType = .dataKeyFrame →
    d.header.fieldEncoding.hasFields = true → (d.dataSetFields.getD []).length = d.fieldCount.toNat
  keyFields : d.header.dataSetMessageType = .dataKeyFrame →
    ∀ f ∈ d.keyFields, P d.header.fieldEncoding f
  deltaLength : d.header.dataSetMessageType = .dataDeltaFrame →
    d.header.fieldEncoding.hasFields = true →
      (d.deltaFrameFields.getD []).length = d.fieldCount.toNat
  deltaInit : d.header.dataSetMessageType = .dataDeltaFrame →
    d.header.fieldEncoding.hasFields = true →
      ∀ f ∈ d.deltaFrameFields.getD [], ∃ p, f.pair? = some p
  deltaFields : d.header.dataSetMessageType = .dataDeltaFrame →
    ∀ f ∈ d.deltaFields, P d.header.fieldEncoding f.2

theorem DataSetMessage.Filled.imp {P Q : FieldEncoding → DataValue → Prop} {d : DataSetMessage}
    (h : d.Filled P) (hPQ : ∀ encoding f, P encoding f → Q encoding f) : d.Filled Q where
  keyLength := h.keyLength
  keyFields htype f hf := hPQ _ f (h.keyFields htype f hf)
  deltaLength := h.deltaLength
  deltaInit := h.deltaInit
  deltaFields htype f hf := hPQ _ f.2 (h.deltaFields htype f hf)

theorem zipIdx_flatMap_fst {α β : Type} (xs : List α) (n : Nat) (f : α → List β) :
    ((xs.zipIdx n).flatMap fun p => f p.1) = xs.flatMap f := by
  have h : ((xs.zipIdx n).map Prod.fst).flatMap f = xs.flatMap f := by rw [List.zipIdx_map_fst]
  rwa [List.flatMap_map] at h

/-- The bytes of an array, whose pieces may depend on the index. -/
theorem pieceBytes_zipIdx {α : Type} {xs : List α} {piece : Nat → α → List Piece}
    {bytes : α → Bytes} (h : ∀ i, ∀ x ∈ xs, pieceBytes (piece i x) = bytes x) (n : Nat) :
    pieceBytes ((xs.zipIdx n).flatMap fun p => piece p.2 p.1) = xs.flatMap bytes := by
  induction xs generalizing n with
  | nil => rfl
  | cons x xs ih =>
    rw [List.zipIdx_cons, List.flatMap_cons, pieceBytes_append, List.flatMap_cons,
      h n x (List.mem_cons_self ..), ih (fun i y hy => h i y (List.mem_cons_of_mem _ hy))]

/-- A loop over an array: the encoder goes from element to element, the size calculation
knows their indices. -/
theorem lays_forUpTo {α : Type} {xs : List α} {n : Nat} {piece : Nat → α → List Piece}
    {ok : α → Prop} {f : α → Enc} {g : Nat → α → Sizing} (hn : xs.length = n)
    (h : ∀ i, ∀ x ∈ xs, Lays (piece i x) (ok x) (f x) (g i x))
    (hbytes : ∀ i, ∀ x ∈ xs, pieceBytes (piece i x) = pieceBytes (piece 0 x)) :
    Lays (xs.zipIdx.flatMap fun p => piece p.2 p.1) (∀ x ∈ xs, ok x)
      (forUpTo n (element xs f)) (forUpTo n fun i => sizeElement xs (g i) i) := by
  refine ⟨?_, sizes_forUpTo hn fun i x hx => (h i x hx).sizes⟩
  subst hn
  rw [forUpTo_element, pieceBytes_zipIdx hbytes 0]
  exact commits_each fun x hx => (h 0 x hx).commits

/-- A key frame field in VARIANT encoding. -/
theorem lays_variantField {S : FieldSpec} {f : DataValue} (i j : Nat) (h : S.Meets T .variant f) :
    Lays [⟨fieldItem .variant i j f, S.bytes .variant f⟩] (S.ok .variant f)
      (uaVariantEncodeBinary T f.value)
      (do
        recordOffset .payloadVariant (.fieldData i j f.value.type)
        addCalcSize (uaVariantCalcSizeBinary T f.value)) :=
  lays_item rfl (lays_field h)

/-- A key frame field in DATAVALUE encoding. -/
theorem lays_dataValueField {S : FieldSpec} {f : DataValue} (i j : Nat)
    (h : S.Meets T .dataValue f) :
    Lays [⟨fieldItem .dataValue i j f, S.bytes .dataValue f⟩] (S.ok .dataValue f)
      (uaDataValueEncodeBinary T f)
      (do
        recordOffset .payloadDataValue (.dataSetFields i)
        addCalcSize (uaDataValueCalcSizeBinary T f)) :=
  lays_item rfl (lays_field h)

/-- A key frame. -/
theorem lays_keyFrame {S : FieldSpec} (i : Nat) {d : DataSetMessage}
    (htype : d.header.dataSetMessageType = .dataKeyFrame) (hd : d.Filled (S.Meets T)) :
    Lays (keyFramePieces S i d)
      (d.header.fieldEncoding ≠ .rawData ∧ ∀ f ∈ d.keyFields, S.ok d.header.fieldEncoding f)
      (keyFrameDataEncodeBinary T d) (keyFrameDataSizing T i d) := by
  have hcount := lays_plainIf (c := d.header.fieldEncoding != .rawData)
    (commits_uaUInt16 d.fieldCount) (leBytes_length 2 _)
  have hlength := hd.keyLength htype
  have hfields := hd.keyFields htype
  unfold keyFramePieces keyFrameDataEncodeBinary keyFrameDataSizing fieldCountPieces
  unfold DataSetMessage.keyFields at *
  cases henc : d.header.fieldEncoding with
  | variant =>
    rw [henc] at hcount hlength hfields
    have hlay := fun j f hf => lays_variantField i j (hfields f hf)
    have hloop := lays_forUpTo (hlength rfl) hlay fun _ _ _ => rfl
    exact (hcount.bind hloop).congr (by simp [FieldEncoding.hasFields])
  | dataValue =>
    rw [henc] at hcount hlength hfields
    have hlay := fun j f hf => lays_dataValueField i j (hfields f hf)
    have hloop := lays_forUpTo (hlength rfl) hlay fun _ _ _ => rfl
    exact (hcount.bind hloop).congr (by simp [FieldEncoding.hasFields])
  -- RawData is refused by the encoder and counted as nothing
  | rawData =>
    rw [henc] at hcount
    have hfail : Lays [] False (fail badNotImplemented) (pure ()) :=
      ⟨commits_fail _, sizes_nil⟩
    exact (hcount.bind hfail).congr (by simp)
  | reserved =>
    rw [henc] at hcount
    exact (hcount.bind lays_nil).congr (by simp [FieldEncoding.hasFields])

/-- A delta frame field that was written. -/
def DeltaFrameField.ofPair (p : UInt16 × DataValue) : DeltaFrameField := ⟨.init p.1, .init p.2⟩

theorem filterMap_pair?_map (ps : List (UInt16 × DataValue)) :
    (ps.map DeltaFrameField.ofPair).filterMap DeltaFrameField.pair? = ps := by
  induction ps with
  | nil => rfl
  | cons p ps ih =>
    have hp : (DeltaFrameField.ofPair p).pair? = some p := rfl
    rw [List.map_cons, List.filterMap_cons_some hp, ih]

/-- An array of fields that were all written is the array of their contents. -/
theorem exists_map_ofPair {xs : List DeltaFrameField} (h : ∀ f ∈ xs, ∃ p, f.pair? = some p) :
    ∃ ps : List (UInt16 × DataValue), xs = ps.map DeltaFrameField.ofPair := by
  induction xs with
  | nil => exact ⟨[], rfl⟩
  | cons x xs ih =>
    obtain ⟨⟨p, hp⟩, hxs⟩ := List.forall_mem_cons.mp h
    obtain ⟨ps, rfl⟩ := ih hxs
    refine ⟨p :: ps, ?_⟩
    obtain ⟨fieldIndex, fieldValue⟩ := x
    cases fieldIndex <;> cases fieldValue <;> simp [DeltaFrameField.pair?] at hp
    rw [List.map_cons, ← hp]
    rfl

/-- A delta frame field in one of the two encodings. -/
theorem lays_deltaField {S : FieldSpec} {encoding : FieldEncoding} (p : UInt16 × DataValue)
    (h : S.Meets T encoding p.2) :
    Lays [.plain (leBytes 2 p.1.toNat), .plain (S.bytes encoding p.2)] (S.ok encoding p.2)
      (deltaFrameFieldEncodeBinary (fieldEncodeBinary T encoding) (.ofPair p))
      (do
        addSize 2
        addCalcSize (fieldCalcSizeBinary T encoding p.2)) :=
  ((lays_plain (commits_uaUInt16 p.1) (leBytes_length 2 _)).bind (lays_field h)).congr (by simp)

/-- Looking an element up in a list that is mapped. -/
theorem element_map {α β : Type} (xs : List α) (c : α → β) (f : β → Enc) :
    element (xs.map c) f = element xs fun x => f (c x) := by
  funext i
  unfold element
  rw [List.getElem?_map]
  cases xs[i]? <;> rfl

theorem sizeElement_map {α β : Type} (xs : List α) (c : α → β) (f : β → Sizing) :
    sizeElement (xs.map c) f = sizeElement xs fun x => f (c x) := by
  funext i
  unfold sizeElement
  rw [List.getElem?_map]
  cases xs[i]? <;> rfl

/-- The loop over the fields of a delta frame, where `g` counts one field. -/
theorem lays_deltaFields {S : FieldSpec} {encoding : FieldEncoding} {xs : List DeltaFrameField}
    {n : Nat} {g : DeltaFrameField → Sizing} (hn : xs.length = n)
    (hinit : ∀ f ∈ xs, ∃ p, f.pair? = some p)
    (hfields : ∀ p ∈ xs.filterMap DeltaFrameField.pair?, S.Meets T encoding p.2)
    (hg : ∀ p, g (.ofPair p) = do
      addSize 2
      addCalcSize (fieldCalcSizeBinary T encoding p.2)) :
    Lays ((xs.filterMap DeltaFrameField.pair?).zipIdx.flatMap fun p =>
        [.plain (leBytes 2 p.1.1.toNat), .plain (S.bytes encoding p.1.2)])
      (∀ p ∈ xs.filterMap DeltaFrameField.pair?, S.ok encoding p.2)
      (forUpTo n (element xs (deltaFrameFieldEncodeBinary (fieldEncodeBinary T encoding))))
      (forUpTo n (sizeElement xs g)) := by
  obtain ⟨ps, rfl⟩ := exists_map_ofPair hinit
  rw [filterMap_pair?_map] at *
  rw [element_map, sizeElement_map, funext hg]
  rw [List.length_map] at hn
  have hlay := fun (_ : Nat) p hp => lays_deltaField p (hfields p hp)
  exact lays_forUpTo hn hlay fun _ _ _ => rfl

/-- A delta frame. -/
theorem lays_deltaFrame {S : FieldSpec} {d : DataSetMessage}
    (htype : d.header.dataSetMessageType = .dataDeltaFrame) (hd : d.Filled (S.Meets T)) :
    Lays (deltaFramePieces S d)
      (d.header.fieldEncoding ≠ .rawData ∧ ∀ f ∈ d.deltaFields, S.ok d.header.fieldEncoding f.2)
      (deltaFrameDataEncodeBinary T d) (deltaFrameDataSizing T d) := by
  have hcount := lays_plain (commits_uaUInt16 d.fieldCount) (leBytes_length 2 _)
  have hlength := hd.deltaLength htype
  have hinit := hd.deltaInit htype
  have hfields := hd.deltaFields htype
  unfold deltaFramePieces deltaFrameDataEncodeBinary deltaFrameDataSizing fieldCountPieces
  unfold DataSetMessage.deltaFields at *
  cases henc : d.header.fieldEncoding with
  | variant =>
    rw [henc] at hlength hinit hfields
    have hloop := lays_deltaFields (g := deltaFrameVariantSizing T) (hlength rfl) (hinit rfl)
      hfields fun _ => rfl
    exact (hcount.bind hloop).congr (by simp [FieldEncoding.hasFields])
  | dataValue =>
    rw [henc] at hlength hinit hfields
    have hloop := lays_deltaFields (g := deltaFrameDataValueSizing T) (hlength rfl) (hinit rfl)
      hfields fun _ => rfl
    exact (hcount.bind hloop).congr (by simp [FieldEncoding.hasFields])
  | rawData =>
    -- the field count is written, but not counted
    refine ⟨?_, sizes_nil⟩
    exact ((commits_uaUInt16 d.fieldCount).bind (commits_fail badNotImplemented)).of_not
      (fun h => h.2) _ |>.congr rfl (by simp)
  | reserved => exact (hcount.bind lays_nil).congr (by simp [FieldEncoding.hasFields])

/-- Encoder and size calculation go over the pieces of a DataSetMessage. -/
theorem lays_dataSetMessage {S : FieldSpec} (i : Nat) {d : DataSetMessage}
    (hd : d.Filled (S.Meets T)) :
    Lays (dataSetMessagePieces S i d) (d.Encodable S) (dataSetMessageEncodeBinary T d)
      (dataSetMessageSizing T i d) := by
  have hheader := lays_dataSetMessageHeader i d.header
  have hfail : Lays [] False (fail badNotImplemented) (pure ()) := ⟨commits_fail _, sizes_nil⟩
  unfold dataSetMessagePieces DataSetMessage.Encodable dataSetMessageEncodeBinary
    dataSetMessageSizing
  cases htype : d.header.dataSetMessageType with
  | dataKeyFrame => exact (hheader.bind (lays_keyFrame i htype hd)).congr (by simp)
  | dataDeltaFrame => exact (hheader.bind (lays_deltaFrame htype hd)).congr (by simp)
  | event => exact (hheader.bind hfail).congr (by simp)
  | keepAlive => exact (hheader.bind lays_nil).congr (by simp)
  | reserved v => exact (hheader.bind hfail).congr (by simp)

/-! ## The header sections of a NetworkMessage -/

/-- The flag bytes. -/
def flagsPieces (m : NetworkMessage) : List Piece :=
  [.plain [m.uadpFlags]] ++
    (if m.extendedFlags1Enabled then
      [.plain [m.extendedFlags1]] ++
        (if m.extendedFlags2Enabled then [.plain [m.extendedFlags2]] else [])
    else [])

/-- The flag bytes. -/
theorem lays_flags (m : NetworkMessage) :
    Lays (flagsPieces m) True (flagsEncodeBinary m) (do
      addSize 1
      sizingIf m.extendedFlags1Enabled do
        addSize 1
        addSizeIf m.extendedFlags2Enabled 1) :=
  (lays_plain (commits_uaByte _) rfl).bind
    ((lays_plain (commits_uaByte _) rfl).bind (lays_plainIf (commits_uaByte _) rfl)).ite
      |>.congr (by simp)

/-- The publisher id, in the form that its type has. -/
def publisherIdBytes (id : PublisherId) : Bytes :=
  match id with
  | .byte v => [v]
  | .uint16 v => leBytes 2 v.toNat
  | .uint32 v => leBytes 4 v.toNat
  | .uint64 v => leBytes 8 v.toNat
  | .string s => stringBytes s
  | .reserved _ => []

/-- The type is one of the five enumerators, and a string is not too long. -/
def PublisherId.fits (id : PublisherId) : Bool :=
  match id with
  | .string s => stringFits s
  | .reserved _ => false
  | _ => true

/-- The publisher id. -/
theorem lays_publisherId (hT : StandardTypes T) (id : PublisherId) :
    Lays [.plain (publisherIdBytes id)] (id.fits = true) (publisherIdEncodeBinary T id)
      (addSize (publisherIdCalcSizeBinary id)) := by
  cases id with
  | byte v => exact (lays_plain (commits_uaByte v) rfl).congr (by simp [PublisherId.fits])
  | uint16 v =>
    exact (lays_plain (commits_uaUInt16 v) (leBytes_length 2 _)).congr (by simp [PublisherId.fits])
  | uint32 v =>
    exact (lays_plain (commits_uaUInt32 v) (leBytes_length 4 _)).congr (by simp [PublisherId.fits])
  | uint64 v =>
    exact (lays_plain (commits_uaUInt64 v) (leBytes_length 8 _)).congr (by simp [PublisherId.fits])
  | string s => exact lays_plain (commits_uaString hT s) (stringBytes_length s)
  | reserved v =>
    exact (lays_plain (commits_fail badInternalError) rfl).congr (by simp [PublisherId.fits])

/-- The group header, with what may be updated. -/
def groupHeaderPieces (g : NetworkMessageGroupHeader) : List Piece :=
  [.plain [g.flags]] ++
    ((if g.writerGroupIdEnabled then
        [⟨some (.writerGroupId, .none), leBytes 2 g.writerGroupId.toNat⟩] else []) ++
      ((if g.groupVersionEnabled then [.plain (leBytes 4 g.groupVersion.toNat)] else []) ++
        ((if g.networkMessageNumberEnabled then
            [.plain (leBytes 2 g.networkMessageNumber.toNat)] else []) ++
          (if g.sequenceNumberEnabled then
            [⟨some (.networkMessageSequenceNumber, .sequenceNumber),
              leBytes 2 g.sequenceNumber.toNat⟩] else []))))

/-- The group header. -/
theorem lays_groupHeader (g : NetworkMessageGroupHeader) :
    Lays (groupHeaderPieces g) True (groupHeaderEncodeBinary g) (groupHeaderSizing g) :=
  (lays_plain (commits_uaByte _) rfl).bind
    ((lays_rtItem rfl (lays_plain (commits_uaUInt16 _) (leBytes_length 2 _))).ite.bind
      ((lays_plainIf (commits_uaUInt32 _) (leBytes_length 4 _)).bind
        ((lays_plainIf (commits_uaUInt16 _) (leBytes_length 2 _)).bind
          (lays_item rfl (lays_plain (commits_uaUInt16 _) (leBytes_length 2 _))).ite)))
      |>.congr (by simp)

/-- Everything up to the payload header. -/
def headPieces (m : NetworkMessage) : List Piece :=
  flagsPieces m ++
    ((if m.publisherIdEnabled then
        [⟨some (.publisherId, .none), publisherIdBytes m.publisherId⟩] else []) ++
      ((if m.dataSetClassIdEnabled then [.plain m.dataSetClassId.memory] else []) ++
        (if m.groupHeaderEnabled then groupHeaderPieces m.groupHeader else [])))

/-- The encoders of these sections. -/
def headEncodeBinary (T : DataTypes) (m : NetworkMessage) : Enc := do
  flagsEncodeBinary m
  encodeIf m.publisherIdEnabled (publisherIdEncodeBinary T m.publisherId)
  encodeIf m.dataSetClassIdEnabled (uaGuidEncodeBinary m.dataSetClassId)
  encodeIf m.groupHeaderEnabled (groupHeaderEncodeBinary m.groupHeader)

/-- The size calculations of these sections. -/
def headSizing (m : NetworkMessage) : Sizing := do
  (do
    addSize 1
    sizingIf m.extendedFlags1Enabled do
      addSize 1
      addSizeIf m.extendedFlags2Enabled 1)
  sizingIf m.publisherIdEnabled do
    recordRTOffset .publisherId
    addSize (publisherIdCalcSizeBinary m.publisherId)
  addSizeIf m.dataSetClassIdEnabled 16
  sizingIf m.groupHeaderEnabled (groupHeaderSizing m.groupHeader)

/-- The sections in front of the payload header. -/
theorem lays_head (hT : StandardTypes T) (m : NetworkMessage) :
    Lays (headPieces m) (m.publisherIdEnabled = true → m.publisherId.fits = true)
      (headEncodeBinary T m) (headSizing m) :=
  (lays_flags m).bind
    ((lays_rtItem rfl (lays_publisherId hT m.publisherId)).ite.bind
      ((lays_plainIf (commits_uaGuid _) (guid_memory_length _)).bind
        (lays_groupHeader m.groupHeader).ite)) |>.congr (by simp)

/-- The pieces of the payload header: count and writer ids. -/
def payloadHeaderPieces (m : NetworkMessage) : List Piece :=
  [.plain [m.payloadHeader.count]] ++
    [⟨some (.dataSetWriterId, .none),
      (m.payloadHeader.dataSetWriterIds.getD []).flatMap fun id => leBytes 2 id.toNat⟩]

/-- The security header. -/
def securityHeaderPieces (h : NetworkMessageSecurityHeader) : List Piece :=
  [.plain [h.flags]] ++
    ([.plain (leBytes 4 h.securityTokenId.toNat)] ++
      ([.plain [h.nonceLength]] ++
        ((if decide (h.nonceLength > 0) then [.plain (h.messageNonce.getD [])] else []) ++
          (if h.securityFooterEnabled then [.plain (leBytes 2 h.securityFooterSize.toNat)]
          else []))))

/-- The bytes of an array, one by one. -/
theorem commits_bytes {bs : Bytes} {n : Nat} (hn : bs.length = n) :
    Commits bs True (forUpTo n (element bs uaByteEncodeBinary)) := by
  subst hn
  rw [forUpTo_element]
  exact (commits_each fun b _ => commits_uaByte b).congr (by simp) (by simp)

/-- The security header, whose nonce is as long as its counter says. -/
theorem lays_securityHeader {h : NetworkMessageSecurityHeader}
    (hnonce : (h.messageNonce.getD []).length = h.nonceLength.toNat) :
    Lays (securityHeaderPieces h) True (securityHeaderEncodeBinary h) (securityHeaderSizing h) := by
  have hloop : Lays (if decide (h.nonceLength > 0) then [.plain (h.messageNonce.getD [])] else [])
      True (forUpTo h.nonceLength.toNat (element (h.messageNonce.getD []) uaByteEncodeBinary))
      (addSizeIf (h.nonceLength > 0) (1 * h.nonceLength.toNat)) := by
    refine ⟨(commits_bytes hnonce).congr ?_ Iff.rfl, sizes_plainIf fun _ => ?_⟩
    · by_cases hpos : h.nonceLength > 0
      · simp [hpos]
      · have hzero : h.nonceLength.toNat = 0 := by
          rw [gt_iff_lt, UInt8.lt_iff_toNat_lt] at hpos
          simpa using hpos
        rw [hzero] at hnonce
        simp [hpos, List.length_eq_zero_iff.mp hnonce]
    · omega
  exact (lays_plain (commits_uaByte _) rfl).bind
    ((lays_plain (commits_uaUInt32 _) (leBytes_length 4 _)).bind
      ((lays_plain (commits_uaByte _) rfl).bind
        (hloop.bind (lays_plainIf (commits_uaUInt16 _) (leBytes_length 2 _)))))
    |>.congr (by simp)

/-! ## Timestamp, picoseconds and promoted fields -/

/-- A promoted field, as a field. -/
def fieldOfVariant (v : Variant) : DataValue := { (default : DataValue) with value := v }

/-- The promoted fields that were written. -/
def NetworkMessage.promoted (m : NetworkMessage) : List Variant :=
  (m.promotedFields.getD []).filterMap fun slot =>
    match slot with
    | .init v => some v
    | .uninit => none

/-- The size in front of the promoted fields: the sum of the sizes, modulo 2^16. -/
def promotedSize (S : FieldSpec) (m : NetworkMessage) : UInt16 :=
  UInt16.ofNat (m.promoted.flatMap fun v => S.bytes .variant (fieldOfVariant v)).length

/-- Timestamp, picoseconds and promoted fields. -/
def extendedHeaderPieces (S : FieldSpec) (m : NetworkMessage) : List Piece :=
  (if m.timestampEnabled then
      [⟨some (.timestamp, .none), leBytes 8 m.timestamp.toNat⟩] else []) ++
    ((if m.picosecondsEnabled then
        [⟨some (.timestampPicoseconds, .none), leBytes 2 m.picoseconds.toNat⟩] else []) ++
      (if m.promotedFieldsEnabled then
        [.plain (leBytes 2 (promotedSize S m).toNat)] ++
          m.promoted.map fun v => .plain (S.bytes .variant (fieldOfVariant v))
      else []))

/-- The array of promoted fields is as long as its counter, and every element was written and
has the property `P`. -/
structure PromotedFilled (P : FieldEncoding → DataValue → Prop) (m : NetworkMessage) : Prop where
  init : m.promotedFields.getD [] = m.promoted.map Slot.init
  length : m.promoted.length = m.promotedFieldsSize.toNat
  fields : ∀ v ∈ m.promoted, P .variant (fieldOfVariant v)

/-- The loops go through the promoted fields in order. -/
theorem promotedField?_eq {S : FieldSpec} {m : NetworkMessage} (h : PromotedFilled (S.Meets T) m)
    (i : Nat) : m.promotedField? i = m.promoted[i]? := by
  unfold NetworkMessage.promotedField?
  rw [h.init, List.getElem?_map]
  cases m.promoted[i]? <;> rfl

/-- The sum of the sizes of the promoted fields that are left, by induction on them. -/
theorem promotedFieldsCalcSize_eq {S : FieldSpec} {m : NetworkMessage}
    (h : PromotedFilled (S.Meets T) m) (vs : List Variant) (ys : List Variant)
    (hm : m.promoted = ys ++ vs) (n : Nat) :
    promotedFieldsCalcSize T m ys.length vs.length (UInt16.ofNat n) =
      some (UInt16.ofNat
        (n + (vs.flatMap fun v => S.bytes .variant (fieldOfVariant v)).length)) := by
  induction vs generalizing ys n with
  | nil => rfl
  | cons v vs ih =>
    have hv : v ∈ m.promoted := by simp [hm]
    have hget : m.promotedField? ys.length = some v := by
      rw [promotedField?_eq h, hm]
      simp
    have hsize : uaVariantCalcSizeBinary T v =
        some (S.bytes .variant (fieldOfVariant v)).length := (h.fields v hv).size
    have hmod : ∀ k, UInt16.ofNat ((UInt16.ofNat n).toNat + k) = UInt16.ofNat (n + k) := by
      intro k
      exact UInt16.toNat_inj.mp (by simp [UInt16.toNat_ofNat'])
    have ih := ih (ys ++ [v]) (by rw [hm, List.append_assoc, List.singleton_append])
      (n + (S.bytes .variant (fieldOfVariant v)).length)
    rw [List.length_append, List.length_singleton] at ih
    simp only [List.length_cons, promotedFieldsCalcSize, hget, Option.bind_some, hsize, hmod, ih,
      List.flatMap_cons, List.length_append, Nat.add_assoc]

theorem promotedFieldsCalcSize_promoted {S : FieldSpec} {m : NetworkMessage}
    (h : PromotedFilled (S.Meets T) m) :
    promotedFieldsCalcSize T m 0 m.promotedFieldsSize.toNat 0 = some (promotedSize S m) := by
  have hsum := promotedFieldsCalcSize_eq h m.promoted [] rfl 0
  rwa [h.length, Nat.zero_add] at hsum

/-- The size calculation of the extended header. -/
theorem sizes_extendedHeader {S : FieldSpec} {m : NetworkMessage}
    (h : m.promotedFieldsEnabled = true → PromotedFilled (S.Meets T) m) :
    Sizes (extendedHeaderPieces S m) (extendedHeaderSizing T m) := by
  refine (Sizes.ite fun _ => sizes_item rfl (sizes_plain (leBytes_length 8 _))).bind
    ((Sizes.ite fun _ => sizes_item rfl (sizes_plain (leBytes_length 2 _))).bind
      (Sizes.ite fun henabled => ?_))
  have hm := h henabled
  have hloop : Sizes (m.promoted.map fun v => .plain (S.bytes .variant (fieldOfVariant v)))
      (forUpTo m.promotedFieldsSize.toNat fun i =>
        addCalcSize ((m.promotedField? i).bind (uaVariantCalcSizeBinary T))) := by
    have hbody : (fun i => addCalcSize ((m.promotedField? i).bind (uaVariantCalcSizeBinary T))) =
        fun i => sizeElement m.promoted (fun v => addCalcSize (uaVariantCalcSizeBinary T v)) i := by
      funext i
      rw [promotedField?_eq hm, sizeElement]
      cases m.promoted[i]? <;> rfl
    have hpieces : (m.promoted.map fun v => Piece.plain (S.bytes .variant (fieldOfVariant v))) =
        m.promoted.zipIdx.flatMap fun p => [.plain (S.bytes .variant (fieldOfVariant p.1))] := by
      rw [List.map_eq_flatMap]
      exact (zipIdx_flatMap_fst m.promoted 0
        fun v => [Piece.plain (S.bytes .variant (fieldOfVariant v))]).symm
    have hlay := fun (_ : Nat) v hv => (lays_field (hm.fields v hv)).sizes
    rw [hbody, hpieces]
    exact sizes_forUpTo hm.length hlay
  exact (sizes_plain (leBytes_length 2 _)).bind hloop

/-! ## The payload -/

theorem pieceBytes_ite_item (c : Bool)
    (item item' : Option (NetworkMessageOffsetType × OffsetSource)) (bs : Bytes) :
    pieceBytes (if c then [⟨item, bs⟩] else []) = pieceBytes (if c then [⟨item', bs⟩] else []) := by
  cases c <;> rfl

/-- The number of a message is in the entries of the table only. -/
theorem pieceBytes_dataSetMessage (S : FieldSpec) (i : Nat) (d : DataSetMessage) :
    pieceBytes (dataSetMessagePieces S i d) = pieceBytes (dataSetMessagePieces S 0 d) := by
  have hheader : pieceBytes (dataSetMessageHeaderPieces i d.header) =
      pieceBytes (dataSetMessageHeaderPieces 0 d.header) := by
    simp only [dataSetMessageHeaderPieces, pieceBytes_append]
    rw [pieceBytes_ite_item d.header.dataSetMessageSequenceNrEnabled
      (some (.dataSetMessageSequenceNumber, .dataSetMessageSequenceNr i))
      (some (.dataSetMessageSequenceNumber, .dataSetMessageSequenceNr 0))]
  have hkey : ∀ i, pieceBytes (d.keyFields.zipIdx.flatMap fun p =>
      [⟨fieldItem d.header.fieldEncoding i p.2 p.1, S.bytes d.header.fieldEncoding p.1⟩]) =
      d.keyFields.flatMap (S.bytes d.header.fieldEncoding) := by
    intro i
    exact @pieceBytes_zipIdx _ _ (fun j f =>
      [⟨fieldItem d.header.fieldEncoding i j f, S.bytes d.header.fieldEncoding f⟩]) _
      (fun _ _ _ => by simp) 0
  unfold dataSetMessagePieces
  rw [pieceBytes_append, pieceBytes_append, hheader]
  cases d.header.dataSetMessageType with
  | dataKeyFrame => simp only [keyFramePieces, pieceBytes_append, hkey]
  | _ => rfl

/-- The bytes of a DataSetMessage. -/
def dataSetMessageBytes (S : FieldSpec) (d : DataSetMessage) : Bytes :=
  pieceBytes (dataSetMessagePieces S 0 d)

/-- A DataSetMessage is as long as its size is calculated to be. -/
theorem dataSetMessageCalcSizeBinary_eq {S : FieldSpec} {d : DataSetMessage}
    (hd : d.Filled (S.Meets T)) :
    dataSetMessageCalcSizeBinary T d = some (dataSetMessageBytes S d).length := by
  have hrun := (lays_dataSetMessage 0 hd).sizes ⟨0, none⟩
  simp only [dataSetMessageCalcSizeBinary, Sizing.result, hrun, Sizer.advance, Option.map_some,
    Nat.zero_add, dataSetMessageBytes]

/-- A DataSetMessage in the payload. -/
theorem lays_payloadMessage {S : FieldSpec} (i : Nat) {d : DataSetMessage}
    (hd : d.Filled (S.Meets T)) :
    Lays (dataSetMessagePieces S i d) (d.Encodable S) (dataSetMessageEncodeBinary T d)
      (payloadMessageSizing T i d) := by
  have hlay := lays_dataSetMessage i hd
  refine ⟨hlay.commits, ?_⟩
  intro s
  have hlen : (dataSetMessageBytes S d).length =
      (pieceBytes (dataSetMessagePieces S i d)).length := by
    rw [dataSetMessageBytes, ← pieceBytes_dataSetMessage S i d]
  have htable : whenTable (keepSize (dataSetMessageSizing T i d)) s =
      .done () ⟨s.size, (s.advance (dataSetMessagePieces S i d)).offsetBuffer⟩ := by
    obtain ⟨size, offsetBuffer⟩ := s
    cases offsetBuffer with
    | none => rfl
    | some b => simp [whenTable, keepSize, zoom, hlay.sizes _]
  rw [payloadMessageSizing, bind_done htable, dataSetMessageCalcSizeBinary_eq hd, hlen]
  rfl

/-- The size that is written for message number `i`. -/
def writtenSize (S : FieldSpec) (m : NetworkMessage) (i : Nat) : UInt16 :=
  let calculated := UInt16.ofNat (dataSetMessageBytes S (m.dataSetMessageAt i)).length
  match m.payload.sizes with
  | none => calculated
  | some sizes => if sizes[i]?.getD 0 ≠ 0 then sizes[i]?.getD 0 else calculated

/-- The sizes of the DataSetMessages, where there are several. -/
def sizesPieces (S : FieldSpec) (m : NetworkMessage) : List Piece :=
  if m.payloadHeaderEnabled && decide (m.payloadHeader.count > 1) then
    [.plain ((List.range m.payloadHeader.count.toNat).flatMap fun i =>
      leBytes 2 (writtenSize S m i).toNat)]
  else []

/-- There are as many DataSetMessages as announced, and as many sizes if there are any. -/
structure PayloadFilled (P : FieldEncoding → DataValue → Prop) (m : NetworkMessage) : Prop where
  length : (m.payload.dataSetMessages.getD []).length = m.dataSetMessageCount
  sizes : m.payloadHeaderEnabled = true → ∀ sizes, m.payload.sizes = some sizes →
    sizes.length = m.payloadHeader.count.toNat
  messages : ∀ d ∈ m.payload.dataSetMessages.getD [], d.Filled P

/-- The size that is written for a DataSetMessage. -/
theorem dataSetMessageSize_eq {S : FieldSpec} {m : NetworkMessage}
    (hm : PayloadFilled (S.Meets T) m) (hheader : m.payloadHeaderEnabled = true) {i : Nat}
    (hi : i < m.payloadHeader.count.toNat) :
    dataSetMessageSize T m i = some (writtenSize S m i) := by
  have hcount : m.dataSetMessageCount = m.payloadHeader.count.toNat := if_pos hheader
  have hlt : i < (m.payload.dataSetMessages.getD []).length := by rw [hm.length, hcount]; exact hi
  have hget : (m.payload.dataSetMessages.getD [])[i]? = some (m.dataSetMessageAt i) := by
    unfold NetworkMessage.dataSetMessageAt
    rw [List.getElem?_eq_getElem hlt]
    rfl
  have hd : (m.dataSetMessageAt i).Filled (S.Meets T) :=
    hm.messages _ (List.mem_of_getElem? hget)
  unfold dataSetMessageSize writtenSize
  rw [hget, Option.bind_some, dataSetMessageCalcSizeBinary_eq hd, Option.map_some]
  cases hsizes : m.payload.sizes with
  | none => rfl
  | some sizes =>
    have hsize : i < sizes.length := by rw [hm.sizes hheader sizes hsizes]; exact hi
    simp only [List.getElem?_eq_getElem hsize, Option.getD_some]
    split <;> rfl

theorem commits_loopFrom {n : Nat} {f : Nat → Enc} {bytes : Nat → Bytes} (i : Nat)
    (h : ∀ j, i ≤ j → j < i + n → Commits (bytes j) True (f j)) :
    Commits ((List.range' i n).flatMap bytes) True (loopFrom f i n) := by
  induction n generalizing i with
  | zero => exact commits_pure
  | succ n ih =>
    rw [List.range'_succ, List.flatMap_cons, loopFrom_succ]
    exact ((h i (Nat.le_refl i) (by omega)).bind
      (ih (i + 1) fun j hij hj => h j (by omega) (by omega))).congr rfl (by simp)

/-- The sizes of the DataSetMessages. -/
theorem lays_sizes {S : FieldSpec} {m : NetworkMessage} (hm : PayloadFilled (S.Meets T) m) :
    Lays (sizesPieces S m) True
      (encodeIf (m.payloadHeaderEnabled && decide (m.payloadHeader.count > 1))
        (forUpTo m.payloadHeader.count.toNat (sizeEncodeBinary T m)))
      (addSizeIf (m.payloadHeaderEnabled && decide (m.payloadHeader.count > 1))
        (2 * m.payloadHeader.count.toNat)) := by
  unfold sizesPieces
  cases hc : m.payloadHeaderEnabled && decide (m.payloadHeader.count > 1) with
  | false => exact ⟨commits_pure, sizes_zero⟩
  | true =>
    have hheader : m.payloadHeaderEnabled = true := (Bool.and_eq_true _ _ ▸ hc).1
    have hloop : Commits ((List.range m.payloadHeader.count.toNat).flatMap fun i =>
        leBytes 2 (writtenSize S m i).toNat) True
        (forUpTo m.payloadHeader.count.toNat (sizeEncodeBinary T m)) := by
      rw [List.range_eq_range']
      refine commits_loopFrom 0 fun j _ hj => ?_
      rw [Nat.zero_add] at hj
      rw [sizeEncodeBinary, dataSetMessageSize_eq hm hheader hj]
      exact commits_uaUInt16 _
    have hlen : ((List.range m.payloadHeader.count.toNat).flatMap fun i =>
        leBytes 2 (writtenSize S m i).toNat).length = 2 * m.payloadHeader.count.toNat := by
      simp only [List.length_flatMap, leBytes_length, List.map_const', List.sum_replicate_nat,
        List.length_range]
      exact Nat.mul_comm _ _
    exact (lays_plainIf (c := true) hloop hlen).congr (by simp)

/-- The DataSetMessages, one behind the other. -/
def messagesPieces (S : FieldSpec) (m : NetworkMessage) : List Piece :=
  (m.payload.dataSetMessages.getD []).zipIdx.flatMap fun p => dataSetMessagePieces S p.2 p.1

/-- The DataSetMessages. -/
theorem lays_messages {S : FieldSpec} {m : NetworkMessage} (hm : PayloadFilled (S.Meets T) m) :
    Lays (messagesPieces S m) (∀ d ∈ m.payload.dataSetMessages.getD [], d.Encodable S)
      (forUpTo m.dataSetMessageCount
        (element (m.payload.dataSetMessages.getD []) (dataSetMessageEncodeBinary T)))
      (forUpTo m.dataSetMessageCount fun i =>
        sizeElement (m.payload.dataSetMessages.getD []) (payloadMessageSizing T i) i) :=
  lays_forUpTo hm.length (fun i d hd => lays_payloadMessage i (hm.messages d hd))
    fun i d _ => pieceBytes_dataSetMessage S i d

/-! ## Security footer and signature -/

/-- With a footer that the 8-bit counter can reach the end of, and more fuel than there is
room, the loop is a plain loop over the bytes. The induction is on the bytes left. -/
theorem securityFooterEncodeLoop_eq {size : UInt16} (hsize : size.toNat ≤ 255) (rest : Bytes) :
    ∀ (front : Bytes) (i : UInt8) (fuel : Nat) (s : Buffer), s.Valid → s.room < fuel →
      i.toNat = front.length → (front ++ rest).length = size.toNat →
        securityFooterEncodeLoop (front ++ rest) size fuel i s =
          each uaByteEncodeBinary rest s := by
  induction rest with
  | nil =>
    intro front i fuel s _ hfuel hi hlen
    obtain ⟨fuel, rfl⟩ : ∃ n, fuel = n + 1 := ⟨fuel - 1, by omega⟩
    rw [List.append_nil] at hlen
    rw [securityFooterEncodeLoop, if_neg (by omega)]
    rfl
  | cons b rest ih =>
    intro front i fuel s hs hfuel hi hlen
    obtain ⟨fuel, rfl⟩ : ∃ n, fuel = n + 1 := ⟨fuel - 1, by omega⟩
    have hlen' := hlen
    rw [List.length_append, List.length_cons] at hlen'
    have hstep : securityFooterEncodeLoop (front ++ b :: rest) size (fuel + 1) i =
        (uaByteEncodeBinary b >>= fun _ =>
          securityFooterEncodeLoop (front ++ b :: rest) size fuel (i + 1)) := by
      rw [securityFooterEncodeLoop, if_pos (by omega), hi, element_append]
    rw [hstep]
    show _ = (uaByteEncodeBinary b >>= fun _ => each uaByteEncodeBinary rest) s
    by_cases hroom : [b].length ≤ s.room
    · have hrun := ((commits_uaByte b) s hs).1 trivial hroom
      -- the counter does not wrap around: there are at most 255 bytes
      have hnext : (i + 1).toNat = (front ++ [b]).length := by
        rw [UInt8.toNat_add, hi, List.length_append]
        show (front.length + 1) % 256 = front.length + 1
        omega
      have hleft : (s.write [b]).room < fuel := by
        rw [Buffer.write_room hroom hs]
        simp only [List.length_singleton] at *
        omega
      rw [bind_done hrun, bind_done hrun]
      have ih := ih (front ++ [b]) (i + 1) fuel (s.write [b]) (Buffer.write_valid hroom hs) hleft
        hnext (by rw [List.append_assoc, List.singleton_append, hlen])
      rwa [List.append_assoc, List.singleton_append] at ih
    · -- no room for this byte: both loops stop in the same state
      obtain ⟨e, t, hrun, -⟩ := ((commits_uaByte b) s hs).2 fun h => hroom h.2
      rw [bind_fail hrun, bind_fail hrun]

/-- The loop over the footer counts up to its size. -/
theorem commits_securityFooter {m : NetworkMessage}
    (hlen : (m.securityFooter.getD []).length = m.securityHeader.securityFooterSize.toNat)
    (hsize : m.securityHeader.securityFooterSize.toNat ≤ 255) :
    Commits (m.securityFooter.getD []) True (securityFooterEncodeBinary m) := by
  intro s hs
  have hroom : s.room < s.bytes.length + 1 := by
    unfold Buffer.room
    omega
  have hloop : securityFooterEncodeBinary m s =
      each uaByteEncodeBinary (m.securityFooter.getD []) s :=
    securityFooterEncodeLoop_eq hsize _ [] 0 _ s hs hroom rfl hlen
  rw [hloop, ← forUpTo_element]
  exact commits_bytes rfl s hs

/-- The footer and the signature. -/
def trailerPieces (m : NetworkMessage) : List Piece :=
  (if m.securityHeader.securityFooterEnabled then [.plain (m.securityFooter.getD [])] else []) ++
    (if m.securityHeader.networkMessageSigned then [.plain (stringBytes m.signature)] else [])

/-- The nonce and the footer are as long as their counters, and the footer is one that the
loop over it can reach the end of. -/
structure SecurityFilled (m : NetworkMessage) : Prop where
  nonce : (m.securityHeader.messageNonce.getD []).length = m.securityHeader.nonceLength.toNat
  footer : m.securityHeader.securityFooterEnabled = true →
    (m.securityFooter.getD []).length = m.securityHeader.securityFooterSize.toNat
  footerSize : m.securityHeader.securityFooterEnabled = true →
    m.securityHeader.securityFooterSize.toNat ≤ 255

/-- The footer and the signature. -/
theorem lays_trailer (hT : StandardTypes T) {m : NetworkMessage} (hm : SecurityFilled m) :
    Lays (trailerPieces m)
      (m.securityHeader.networkMessageSigned = true → stringFits m.signature = true)
      (securityTrailerEncodeBinary T m)
      (do
        addSizeIf m.securityHeader.securityFooterEnabled m.securityHeader.securityFooterSize.toNat
        addSizeIf m.securityHeader.networkMessageSigned (stringCalcSizeBinary m.signature)) := by
  have hfooter : Lays (if m.securityHeader.securityFooterEnabled then
      [.plain (m.securityFooter.getD [])] else []) True
      (encodeIf m.securityHeader.securityFooterEnabled (securityFooterEncodeBinary m))
      (addSizeIf m.securityHeader.securityFooterEnabled
        m.securityHeader.securityFooterSize.toNat) := by
    cases henabled : m.securityHeader.securityFooterEnabled with
    | false => exact ⟨commits_pure, sizes_zero⟩
    | true =>
      have hcommits := commits_securityFooter (hm.footer henabled) (hm.footerSize henabled)
      exact (lays_plainIf (c := true) hcommits (hm.footer henabled)).congr (by simp)
  exact (hfooter.bind (lays_plainIf (commits_uaString hT m.signature)
    (stringBytes_length m.signature))).congr (by simp)

/-! ## Sections without entries -/

theorem isPlain_flags (m : NetworkMessage) : IsPlain (flagsPieces m) :=
  (isPlain_plain _).append (.ite fun _ => (isPlain_plain _).append (isPlain_plainIf _ _))

theorem isPlain_promoted (S : FieldSpec) (m : NetworkMessage) :
    IsPlain (if m.promotedFieldsEnabled then
      [.plain (leBytes 2 (promotedSize S m).toNat)] ++
        m.promoted.map fun v => .plain (S.bytes .variant (fieldOfVariant v)) else []) := by
  refine .ite fun _ => (isPlain_plain _).append fun piece hpiece => ?_
  obtain ⟨v, -, rfl⟩ := List.mem_map.mp hpiece
  rfl

theorem isPlain_securityHeader (h : NetworkMessageSecurityHeader) :
    IsPlain (securityHeaderPieces h) :=
  (isPlain_plain _).append <| (isPlain_plain _).append <| (isPlain_plain _).append <|
    (isPlain_plainIf _ _).append (isPlain_plainIf _ _)

theorem isPlain_trailer (m : NetworkMessage) : IsPlain (trailerPieces m) :=
  (isPlain_plainIf _ _).append (isPlain_plainIf _ _)

/-- What follows the sequence number in the header of a DataSetMessage. -/
theorem isPlain_afterSequenceNr (h : DataSetMessageHeader) :
    IsPlain ((if h.timestampEnabled then [.plain (leBytes 8 h.timestamp.toNat)] else []) ++
      ((if h.picoSecondsIncluded then [.plain (leBytes 2 h.picoSeconds.toNat)] else []) ++
        ((if h.statusEnabled then [.plain (leBytes 2 h.status.toNat)] else []) ++
          ((if h.configVersionMajorVersionEnabled then
              [.plain (leBytes 4 h.configVersionMajorVersion.toNat)] else []) ++
            (if h.configVersionMinorVersionEnabled then
              [.plain (leBytes 4 h.configVersionMinorVersion.toNat)] else []))))) :=
  (isPlain_plainIf _ _).append <| (isPlain_plainIf _ _).append <| (isPlain_plainIf _ _).append <|
    (isPlain_plainIf _ _).append (isPlain_plainIf _ _)

theorem isPlain_deltaFrame (S : FieldSpec) (d : DataSetMessage) :
    IsPlain (deltaFramePieces S d) := by
  refine (isPlain_plainIf _ _).append fun piece hpiece => ?_
  obtain ⟨p, -, hp⟩ := List.mem_flatMap.mp hpiece
  simp only [List.mem_cons, List.not_mem_nil, or_false] at hp
  rcases hp with rfl | rfl <;> rfl

end OpenPubSub
