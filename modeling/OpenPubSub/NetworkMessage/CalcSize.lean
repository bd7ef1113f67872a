import OpenPubSub.NetworkMessage.Decode
import OpenPubSub.Types.CalcSize

/-!
# The size of network messages, and the offset table

`UA_NetworkMessage_calcSizeBinary` and `UA_DataSetMessage_calcSizeBinary`. Both add up
sizes, and note on the way where in the message the items are that change from one
publishing cycle to the next.

- The state is the running `size` and the table, if the caller passes one. A failing
  routine is a `return 0`.
- An entry of the table points into the message. `OffsetSource` is what it points to:
  the pointer is followed when the entry is used, and sees the message as it is then.
  Only the type of a field is copied into the entry.
- Allocations succeed.
-/

namespace OpenPubSub

open Routine

/-! ## The offset table -/

/-- `UA_NetworkMessageOffsetType` -/
inductive NetworkMessageOffsetType where
  | dataSetMessageSequenceNumber | networkMessageSequenceNumber | timestampPicoseconds
  | timestamp | timestampNow | payloadDataValue | payloadVariant | payloadRaw
  | publisherId | writerGroupId | dataSetWriterId
  deriving DecidableEq, Repr

/-- What `offsetData.value.value` leads to: nothing, a fresh DataValue around a pointer into
the message, or the fields of a DataSetMessage. -/
inductive OffsetSource where
  | none
  | sequenceNumber
  | dataSetMessageSequenceNr (message : Nat)
  | fieldData (message field : Nat) (type : Option DataTypeRef)
  | dataSetFields (message : Nat)
  deriving DecidableEq

/-- `UA_NetworkMessageOffset` -/
structure NetworkMessageOffset where
  contentType : NetworkMessageOffsetType
  offset : Nat
  source : OffsetSource
  deriving DecidableEq

/-- What the size calculation uses of a `UA_NetworkMessageOffsetBuffer`. -/
structure NetworkMessageOffsetBuffer where
  offsets : List NetworkMessageOffset
  rtSubscriberEnabled : Bool
  deriving DecidableEq

/-! ## Adding up -/

/-- The running size, and the table unless it is NULL. -/
structure Sizer where
  size : Nat
  offsetBuffer : Option NetworkMessageOffsetBuffer
  deriving DecidableEq

/-- A size calculation. -/
abbrev Sizing := Routine Unit Sizer Unit

/-- `size += n` -/
def addSize (n : Nat) : Sizing := modify fun s => { s with size := s.size + n }

/-- `size += …_calcSizeBinary(p)` -/
def addCalcSize (n : Option Nat) : Sizing :=
  match n with
  | some n => addSize n
  | none => fault

/-- `if(c) size += n` -/
def addSizeIf (c : Bool) (n : Nat) : Sizing := addSize (sizeIf c n)

/-- One more entry, for the current size. -/
def NetworkMessageOffsetBuffer.push (b : NetworkMessageOffsetBuffer) (size : Nat)
    (contentType : NetworkMessageOffsetType) (source : OffsetSource) :
    NetworkMessageOffsetBuffer :=
  { b with offsets := b.offsets ++ [⟨contentType, size, source⟩] }

/-- `if(offsetBuffer) { … }` -/
def recordOffset (contentType : NetworkMessageOffsetType) (source : OffsetSource) : Sizing :=
  modify fun s => { s with
    offsetBuffer := s.offsetBuffer.map fun b => b.push s.size contentType source }

/-- `if(offsetBuffer && offsetBuffer->RTsubscriberEnabled) { … }` -/
def recordRTOffset (contentType : NetworkMessageOffsetType) : Sizing :=
  modify fun s => { s with
    offsetBuffer := s.offsetBuffer.map fun b =>
      if b.rtSubscriberEnabled then b.push s.size contentType .none else b }

/-- `if(c) { … }` -/
def sizingIf (c : Bool) (x : Sizing) : Sizing := if c then x else pure ()

/-- `if(offsetBuffer) x();` -/
def whenTable (x : Sizing) : Sizing := fun s =>
  if s.offsetBuffer.isSome then x s else .done () s

/-- A call for the sake of the table: what it adds up is not added to `size`. -/
def keepSize (x : Sizing) : Sizing :=
  zoom id (fun t s => { s with offsetBuffer := t.offsetBuffer }) x

/-- `x[i]`, where there may be no element `i`. -/
def sizeElement {α : Type} (xs : List α) (f : α → Sizing) (i : Nat) : Sizing :=
  match xs[i]? with
  | some x => f x
  | none => fault

variable (T : DataTypes)

/-! ## DataSetMessage -/

/-- The header part of `UA_DataSetMessage_calcSizeBinary`, for message number `i`. -/
def dataSetMessageHeaderSizing (i : Nat) (h : DataSetMessageHeader) : Sizing := do
  addSize 1
  addSizeIf h.dataSetFlags2Enabled 1
  sizingIf h.dataSetMessageSequenceNrEnabled do
    recordOffset .dataSetMessageSequenceNumber (.dataSetMessageSequenceNr i)
    addSize 2
  addSizeIf h.timestampEnabled 8
  addSizeIf h.picoSecondsIncluded 2
  addSizeIf h.statusEnabled 2
  addSizeIf h.configVersionMajorVersionEnabled 4
  addSizeIf h.configVersionMinorVersionEnabled 4

/-- Field `j` of a key frame, VARIANT encoding. -/
def keyFrameVariantSizing (i : Nat) (fields : List DataValue) (j : Nat) : Sizing :=
  sizeElement fields (fun f => do
    recordOffset .payloadVariant (.fieldData i j f.value.type)
    addCalcSize (uaVariantCalcSizeBinary T f.value)) j

/-- Field `j` of a key frame, DATAVALUE encoding. Every entry gets the pointer to the whole
array. -/
def keyFrameDataValueSizing (i : Nat) (fields : List DataValue) (j : Nat) : Sizing :=
  sizeElement fields (fun f => do
    recordOffset .payloadDataValue (.dataSetFields i)
    addCalcSize (uaDataValueCalcSizeBinary T f)) j

/-- The data of a key frame. -/
def keyFrameDataSizing (i : Nat) (d : DataSetMessage) : Sizing := do
  addSizeIf (d.header.fieldEncoding != .rawData) 2
  match d.header.fieldEncoding with
  | .variant =>
    forUpTo d.fieldCount.toNat (keyFrameVariantSizing T i (d.dataSetFields.getD []))
  | .dataValue =>
    forUpTo d.fieldCount.toNat (keyFrameDataValueSizing T i (d.dataSetFields.getD []))
  | .rawData | .reserved => pure ()

/-- The value of a delta frame field. -/
def DeltaFrameField.value? (f : DeltaFrameField) : Option DataValue :=
  match f.fieldValue with
  | .init v => some v
  | .uninit => none

/-- One field of a delta frame, VARIANT encoding. -/
def deltaFrameVariantSizing (f : DeltaFrameField) : Sizing := do
  addSize 2
  addCalcSize (f.value?.bind fun v => uaVariantCalcSizeBinary T v.value)

/-- One field of a delta frame, DATAVALUE encoding. -/
def deltaFrameDataValueSizing (f : DeltaFrameField) : Sizing := do
  addSize 2
  addCalcSize (f.value?.bind (uaDataValueCalcSizeBinary T))

/-- The data of a delta frame. -/
def deltaFrameDataSizing (d : DataSetMessage) : Sizing := do
  addSizeIf (d.header.fieldEncoding != .rawData) 2
  match d.header.fieldEncoding with
  | .variant =>
    forUpTo d.fieldCount.toNat
      (sizeElement (d.deltaFrameFields.getD []) (deltaFrameVariantSizing T))
  | .dataValue =>
    forUpTo d.fieldCount.toNat
      (sizeElement (d.deltaFrameFields.getD []) (deltaFrameDataValueSizing T))
  | .rawData | .reserved => pure ()

/-- `UA_DataSetMessage_calcSizeBinary`, for message number `i`: the current offset is the
size in the state. -/
def dataSetMessageSizing (i : Nat) (d : DataSetMessage) : Sizing := do
  dataSetMessageHeaderSizing i d.header
  match d.header.dataSetMessageType with
  | .dataKeyFrame => keyFrameDataSizing T i d
  | .dataDeltaFrame => deltaFrameDataSizing T d
  | _ => pure ()

/-- The result of a size calculation, and the table it leaves. -/
def Sizing.result (x : Sizing) (offsetBuffer : Option NetworkMessageOffsetBuffer)
    (currentOffset : Nat) : Option (Nat × Option NetworkMessageOffsetBuffer) :=
  match x ⟨currentOffset, offsetBuffer⟩ with
  | .done _ s => some (s.size, s.offsetBuffer)
  | .fail _ s => some (0, s.offsetBuffer)
  | .fault => none

/-- `UA_DataSetMessage_calcSizeBinary(p, NULL, 0)` -/
def dataSetMessageCalcSizeBinary (d : DataSetMessage) : Option Nat :=
  (Sizing.result (dataSetMessageSizing T 0 d) none 0).map Prod.fst

/-! ## NetworkMessage -/

/-- `promotedFields[i]` -/
def NetworkMessage.promotedField? (m : NetworkMessage) (i : Nat) : Option Variant :=
  match (m.promotedFields.getD [])[i]? with
  | some (.init v) => some v
  | _ => none

/-- The member of the union that is added; a reserved type adds nothing. -/
def publisherIdCalcSizeBinary : PublisherId → Nat
  | .byte _ => 1
  | .uint16 _ => 2
  | .uint32 _ => 4
  | .uint64 _ => 8
  | .string s => stringCalcSizeBinary s
  | .reserved _ => 0

def groupHeaderSizing (g : NetworkMessageGroupHeader) : Sizing := do
  addSize 1
  sizingIf g.writerGroupIdEnabled do
    recordRTOffset .writerGroupId
    addSize 2
  addSizeIf g.groupVersionEnabled 4
  addSizeIf g.networkMessageNumberEnabled 2
  sizingIf g.sequenceNumberEnabled do
    recordOffset .networkMessageSequenceNumber .sequenceNumber
    addSize 2

/-- Without writer ids the calculation ends with `return 0`. -/
def payloadHeaderSizing (m : NetworkMessage) : Sizing :=
  if m.networkMessageType = .dataSet then do
    addSize 1
    if m.payloadHeader.dataSetWriterIds.isSome then do
      recordRTOffset .dataSetWriterId
      addSize (2 * m.payloadHeader.count.toNat)
    else fail ()
  else pure ()

/-- Timestamp, picoseconds and promoted fields. -/
def extendedHeaderSizing (m : NetworkMessage) : Sizing := do
  sizingIf m.timestampEnabled do
    recordOffset .timestamp .none
    addSize 8
  sizingIf m.picosecondsEnabled do
    recordOffset .timestampPicoseconds .none
    addSize 2
  sizingIf m.promotedFieldsEnabled do
    addSize 2
    forUpTo m.promotedFieldsSize.toNat fun i =>
      addCalcSize ((m.promotedField? i).bind (uaVariantCalcSizeBinary T))

def securityHeaderSizing (h : NetworkMessageSecurityHeader) : Sizing := do
  addSize 1
  addSize 4
  addSize 1
  addSizeIf (h.nonceLength > 0) (1 * h.nonceLength.toNat)
  addSizeIf h.securityFooterEnabled 2

/-- A DataSetMessage is measured once for the table, from the current size, and once more
for the sum. -/
def payloadMessageSizing (i : Nat) (d : DataSetMessage) : Sizing := do
  whenTable (keepSize (dataSetMessageSizing T i d))
  addCalcSize (dataSetMessageCalcSizeBinary T d)

/-- The DataSetMessages and the sizes in front of them. -/
def payloadSizing (m : NetworkMessage) : Sizing :=
  if m.networkMessageType = .dataSet then do
    addSizeIf (m.payloadHeaderEnabled && decide (m.payloadHeader.count > 1))
      (2 * m.payloadHeader.count.toNat)
    forUpTo m.dataSetMessageCount fun i =>
      sizeElement (m.payload.dataSetMessages.getD []) (payloadMessageSizing T i) i
  else pure ()

/-- The body of `UA_NetworkMessage_calcSizeBinary`. -/
def networkMessageSizing (p : NetworkMessage) : Sizing := do
  addSize 1
  sizingIf p.extendedFlags1Enabled do
    addSize 1
    addSizeIf p.extendedFlags2Enabled 1
  sizingIf p.publisherIdEnabled do
    recordRTOffset .publisherId
    addSize (publisherIdCalcSizeBinary p.publisherId)
  addSizeIf p.dataSetClassIdEnabled 16
  sizingIf p.groupHeaderEnabled (groupHeaderSizing p.groupHeader)
  sizingIf p.payloadHeaderEnabled (payloadHeaderSizing p)
  extendedHeaderSizing T p
  sizingIf p.securityEnabled (securityHeaderSizing p.securityHeader)
  payloadSizing T p
  sizingIf p.securityEnabled do
    addSizeIf p.securityHeader.securityFooterEnabled p.securityHeader.securityFooterSize.toNat
    addSizeIf p.securityHeader.networkMessageSigned (stringCalcSizeBinary p.signature)

/-- `UA_NetworkMessage_calcSizeBinary`: the size and the table. -/
def networkMessageCalcSizeBinary (p : NetworkMessage)
    (offsetBuffer : Option NetworkMessageOffsetBuffer) :
    Option (Nat × Option NetworkMessageOffsetBuffer) :=
  Sizing.result (networkMessageSizing T p) offsetBuffer 0

end OpenPubSub
