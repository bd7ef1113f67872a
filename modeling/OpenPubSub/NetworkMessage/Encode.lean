import OpenPubSub.NetworkMessage.CalcSize
import OpenPubSub.Types.EncodeBinary

/-!
# Encoding network messages

`UA_NetworkMessage_encodeBinary` and the DataSetMessage encoders it calls, section by
section in the order of the source.

- Most statuses are checked at once. Those of the count byte, the timestamp, the
  picoseconds and the promoted fields are overwritten or never looked at (`dropStatus`).
- Loops run over a counter of the message; an element the array does not have is
  `fault`.
- The loop over the security footer compares an 8-bit counter with a 16-bit size and
  runs on fuel: each turn writes a byte of the buffer.
-/

namespace OpenPubSub

open Routine Writer

variable (T : DataTypes)

/-! ## DataSetMessageHeader -/

namespace DataSetMessageHeader

def dataSetFlags1 (src : DataSetMessageHeader) : UInt8 :=
  src.fieldEncoding.toByte <<< dsMhShiftLen |||
    maskBit src.dataSetMessageValid dsMessageHeaderDsMsgValid |||
    maskBit src.dataSetMessageSequenceNrEnabled dsMessageHeaderSeqNrEnabledMask |||
    maskBit src.statusEnabled dsMessageHeaderStatusEnabledMask |||
    maskBit src.configVersionMajorVersionEnabled dsMessageHeaderConfigMajorVersionEnabledMask |||
    maskBit src.configVersionMinorVersionEnabled dsMessageHeaderConfigMinorVersionEnabledMask |||
    maskBit src.dataSetFlags2Enabled dsMessageHeaderFlags2EnabledMask

def dataSetFlags2 (src : DataSetMessageHeader) : UInt8 :=
  src.dataSetMessageType.toByte |||
    maskBit src.timestampEnabled dsMessageHeaderTimestampEnabledMask |||
    maskBit src.picoSecondsIncluded dsMessageHeaderPicosecondsIncludedMask

end DataSetMessageHeader

def dataSetMessageHeaderEncodeBinary (src : DataSetMessageHeader) : Enc := do
  uaByteEncodeBinary src.dataSetFlags1
  encodeIf src.dataSetFlags2Enabled (uaByteEncodeBinary src.dataSetFlags2)
  encodeIf src.dataSetMessageSequenceNrEnabled
    (uaUInt16EncodeBinary src.dataSetMessageSequenceNr)
  encodeIf src.timestampEnabled (uaUInt64EncodeBinary src.timestamp)
  encodeIf src.picoSecondsIncluded (uaUInt16EncodeBinary src.picoSeconds)
  encodeIf src.statusEnabled (uaUInt16EncodeBinary src.status)
  encodeIf src.configVersionMajorVersionEnabled
    (uaUInt32EncodeBinary src.configVersionMajorVersion)
  encodeIf src.configVersionMinorVersionEnabled
    (uaUInt32EncodeBinary src.configVersionMinorVersion)

/-! ## DataSetMessage -/

/-- The data of a key frame. The reserved encoding has a count but no branch. -/
def keyFrameDataEncodeBinary (src : DataSetMessage) : Enc := do
  encodeIf (src.header.fieldEncoding != .rawData) (uaUInt16EncodeBinary src.fieldCount)
  match src.header.fieldEncoding with
  | .variant =>
    forUpTo src.fieldCount.toNat
      (element (src.dataSetFields.getD []) fun f => uaVariantEncodeBinary T f.value)
  | .rawData => fail badNotImplemented
  | .dataValue =>
    forUpTo src.fieldCount.toNat (element (src.dataSetFields.getD []) (uaDataValueEncodeBinary T))
  | .reserved => pure ()

/-- Encode a member of an array from `UA_malloc`. -/
def slotEncodeBinary {α : Type} (f : α → Enc) : Slot α → Enc
  | .init a => f a
  | .uninit => fault

/-- One field of a delta frame, where `f` encodes the value. -/
def deltaFrameFieldEncodeBinary (f : DataValue → Enc) (field : DeltaFrameField) : Enc := do
  slotEncodeBinary uaUInt16EncodeBinary field.fieldIndex
  slotEncodeBinary f field.fieldValue

/-- The data of a delta frame: the field count is there in every encoding. -/
def deltaFrameDataEncodeBinary (src : DataSetMessage) : Enc := do
  uaUInt16EncodeBinary src.fieldCount
  match src.header.fieldEncoding with
  | .variant =>
    forUpTo src.fieldCount.toNat (element (src.deltaFrameFields.getD [])
      (deltaFrameFieldEncodeBinary fun v => uaVariantEncodeBinary T v.value))
  | .rawData => fail badNotImplemented
  | .dataValue =>
    forUpTo src.fieldCount.toNat (element (src.deltaFrameFields.getD [])
      (deltaFrameFieldEncodeBinary (uaDataValueEncodeBinary T)))
  | .reserved => pure ()

def dataSetMessageEncodeBinary (src : DataSetMessage) : Enc := do
  dataSetMessageHeaderEncodeBinary src.header
  match src.header.dataSetMessageType with
  | .dataKeyFrame => keyFrameDataEncodeBinary T src
  | .dataDeltaFrame => deltaFrameDataEncodeBinary T src
  | .keepAlive => pure ()
  | _ => fail badNotImplemented

/-! ## The header sections of a NetworkMessage -/

namespace NetworkMessage

/-- UADPVersion and UADP flags. -/
def uadpFlags (src : NetworkMessage) : UInt8 :=
  src.version ||| maskBit src.publisherIdEnabled nmPublisherIdEnabledMask |||
    maskBit src.groupHeaderEnabled nmGroupHeaderEnabledMask |||
    maskBit src.payloadHeaderEnabled nmPayloadHeaderEnabledMask |||
    maskBit src.extendedFlags1Enabled nmExtendedFlags1EnabledMask

def extendedFlags1 (src : NetworkMessage) : UInt8 :=
  src.publisherId.typeByte ||| maskBit src.dataSetClassIdEnabled nmDataSetClassIdEnabledMask |||
    maskBit src.securityEnabled nmSecurityEnabledMask |||
    maskBit src.timestampEnabled nmTimestampEnabledMask |||
    maskBit src.picosecondsEnabled nmPicosecondsEnabledMask |||
    maskBit src.extendedFlags2Enabled nmExtendedFlags2EnabledMask

def extendedFlags2 (src : NetworkMessage) : UInt8 :=
  src.networkMessageType.toByte <<< nmShiftLen |||
    maskBit src.chunkMessage nmChunkMessageMask |||
    maskBit src.promotedFieldsEnabled nmPromotedFieldsEnabledMask

end NetworkMessage

/-- UADPVersion, UADP flags and both bytes of extended flags. -/
def flagsEncodeBinary (src : NetworkMessage) : Enc := do
  uaByteEncodeBinary src.uadpFlags
  encodeIf src.extendedFlags1Enabled do
    uaByteEncodeBinary src.extendedFlags1
    encodeIf src.extendedFlags2Enabled (uaByteEncodeBinary src.extendedFlags2)

def publisherIdEncodeBinary : PublisherId → Enc
  | .byte v => uaByteEncodeBinary v
  | .uint16 v => uaUInt16EncodeBinary v
  | .uint32 v => uaUInt32EncodeBinary v
  | .uint64 v => uaUInt64EncodeBinary v
  | .string s => uaStringEncodeBinary T s
  | .reserved _ => fail badInternalError

/-- `groupFlags` -/
def NetworkMessageGroupHeader.flags (src : NetworkMessageGroupHeader) : UInt8 :=
  maskBit src.writerGroupIdEnabled groupHeaderWriterGroupIdEnabled |||
    maskBit src.groupVersionEnabled groupHeaderGroupVersionEnabled |||
    maskBit src.networkMessageNumberEnabled groupHeaderNmNumberEnabled |||
    maskBit src.sequenceNumberEnabled groupHeaderSequenceNumberEnabled

def groupHeaderEncodeBinary (src : NetworkMessageGroupHeader) : Enc := do
  uaByteEncodeBinary src.flags
  encodeIf src.writerGroupIdEnabled (uaUInt16EncodeBinary src.writerGroupId)
  encodeIf src.groupVersionEnabled (uaUInt32EncodeBinary src.groupVersion)
  encodeIf src.networkMessageNumberEnabled (uaUInt16EncodeBinary src.networkMessageNumber)
  encodeIf src.sequenceNumberEnabled (uaUInt16EncodeBinary src.sequenceNumber)

/-- The status of the count byte is overwritten by the first writer id. -/
def payloadHeaderEncodeBinary (src : NetworkMessage) : Enc :=
  if src.networkMessageType ≠ .dataSet then fail badNotImplemented
  else do
    dropStatus (uaByteEncodeBinary src.payloadHeader.count)
    match src.payloadHeader.dataSetWriterIds with
    | none => fail badEncodingError
    | some ids => forUpTo src.payloadHeader.count.toNat (element ids uaUInt16EncodeBinary)

/-- `pfSize = (UA_UInt16)(pfSize + UA_Variant_calcSizeBinary(&src->promotedFields[i]))`, `n`
times from element `i` on. -/
def promotedFieldsCalcSize (src : NetworkMessage) : Nat → Nat → UInt16 → Option UInt16
  | _, 0, pfSize => some pfSize
  | i, n + 1, pfSize =>
    ((src.promotedField? i).bind (uaVariantCalcSizeBinary T)).bind fun size =>
      promotedFieldsCalcSize src (i + 1) n (UInt16.ofNat (pfSize.toNat + size))

/-- Their size, and the promoted fields. Nobody looks at the accumulated status. -/
def promotedFieldsEncodeBinary (src : NetworkMessage) : Enc :=
  match promotedFieldsCalcSize T src 0 src.promotedFieldsSize.toNat 0 with
  | none => fault
  | some pfSize =>
    dropStatus <| accum (uaUInt16EncodeBinary pfSize) fun _ =>
      accumFrom (element (src.promotedFields.getD [])
        (slotEncodeBinary (uaVariantEncodeBinary T))) 0 src.promotedFieldsSize.toNat

/-- Timestamp, picoseconds and promoted fields. -/
def extendedHeaderEncodeBinary (src : NetworkMessage) : Enc := do
  encodeIf src.timestampEnabled (dropStatus (uaUInt64EncodeBinary src.timestamp))
  encodeIf src.picosecondsEnabled (dropStatus (uaUInt16EncodeBinary src.picoseconds))
  encodeIf src.promotedFieldsEnabled (promotedFieldsEncodeBinary T src)

/-- `securityFlags` -/
def NetworkMessageSecurityHeader.flags (src : NetworkMessageSecurityHeader) : UInt8 :=
  maskBit src.networkMessageSigned securityHeaderNmSigned |||
    maskBit src.networkMessageEncrypted securityHeaderNmEncrypted |||
    maskBit src.securityFooterEnabled securityHeaderSecFooterEnabled |||
    maskBit src.forceKeyReset securityHeaderForceKeyReset

def securityHeaderEncodeBinary (src : NetworkMessageSecurityHeader) : Enc := do
  uaByteEncodeBinary src.flags
  uaUInt32EncodeBinary src.securityTokenId
  uaByteEncodeBinary src.nonceLength
  forUpTo src.nonceLength.toNat (element (src.messageNonce.getD []) uaByteEncodeBinary)
  encodeIf src.securityFooterEnabled (uaUInt16EncodeBinary src.securityFooterSize)

/-- Everything before the DataSetMessages. -/
def headersEncodeBinary (src : NetworkMessage) : Enc := do
  flagsEncodeBinary src
  encodeIf src.publisherIdEnabled (publisherIdEncodeBinary T src.publisherId)
  encodeIf src.dataSetClassIdEnabled (uaGuidEncodeBinary src.dataSetClassId)
  encodeIf src.groupHeaderEnabled (groupHeaderEncodeBinary src.groupHeader)
  encodeIf src.payloadHeaderEnabled (payloadHeaderEncodeBinary src)
  extendedHeaderEncodeBinary T src
  encodeIf src.securityEnabled (securityHeaderEncodeBinary src.securityHeader)

/-! ## The payload -/

/-- `sz` of DataSetMessage `i`: the size is calculated if it is not specified. -/
def dataSetMessageSize (src : NetworkMessage) (i : Nat) : Option UInt16 :=
  let calculated := (((src.payload.dataSetMessages.getD [])[i]?).bind
    (dataSetMessageCalcSizeBinary T)).map UInt16.ofNat
  match src.payload.sizes with
  | none => calculated
  | some sizes =>
    match sizes[i]? with
    | none => none
    | some size => if size ≠ 0 then some size else calculated

/-- The size of DataSetMessage `i`. -/
def sizeEncodeBinary (src : NetworkMessage) (i : Nat) : Enc :=
  match dataSetMessageSize T src i with
  | some sz => uaUInt16EncodeBinary sz
  | none => fault

/-- `for(UA_Byte i = 0; i < securityFooterSize; i++)`: the counter has eight bits, the size
sixteen. The first argument is fuel. -/
def securityFooterEncodeLoop (footer : Bytes) (size : UInt16) : Nat → UInt8 → Enc
  | 0, _ => fault
  | fuel + 1, i =>
    if i.toNat < size.toNat then do
      element footer uaByteEncodeBinary i.toNat
      securityFooterEncodeLoop footer size fuel (i + 1)
    else
      pure ()

def securityFooterEncodeBinary (src : NetworkMessage) : Enc := fun s =>
  -- every turn but the last one writes a byte
  securityFooterEncodeLoop (src.securityFooter.getD []) src.securityHeader.securityFooterSize
    (s.bytes.length + 1) 0 s

/-- Security footer and signature. -/
def securityTrailerEncodeBinary (src : NetworkMessage) : Enc := do
  encodeIf src.securityHeader.securityFooterEnabled (securityFooterEncodeBinary src)
  encodeIf src.securityHeader.networkMessageSigned (uaStringEncodeBinary T src.signature)

/-- The sections from the payload on. -/
def payloadEncodeBinary (src : NetworkMessage) : Enc :=
  if src.networkMessageType ≠ .dataSet then fail badNotImplemented
  else do
    encodeIf (src.payloadHeaderEnabled && decide (src.payloadHeader.count > 1))
      (forUpTo src.payloadHeader.count.toNat (sizeEncodeBinary T src))
    forUpTo src.dataSetMessageCount
      (element (src.payload.dataSetMessages.getD []) (dataSetMessageEncodeBinary T))
    encodeIf src.securityEnabled (securityTrailerEncodeBinary T src)

def networkMessageEncodeBinary (src : NetworkMessage) : Enc := do
  headersEncodeBinary T src
  payloadEncodeBinary T src

end OpenPubSub
