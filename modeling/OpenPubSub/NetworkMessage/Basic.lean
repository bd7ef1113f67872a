import OpenPubSub.Types.DataTypes

/-!
# Network messages

The structures of `ua_pubsub_networkmessage.h`.

- Enumerations are read from a few bits without a check, so each one keeps the
  values its C enumerators do not name in a `reserved` constructor.
- `PublisherId` is `publisherIdType` together with the union it selects.
- The union of a DataSetMessage is three members: `fieldCount`, which the two
  frame types share, and one array each. Only the array of the message's own type
  is ever accessed.
- A pointer to an array is `none` for NULL. An element of an array that comes
  from `UA_malloc` is a `Slot`, which knows whether it was ever written; arrays
  from `UA_calloc` and `UA_Array_new` start out as zeros.
-/

namespace OpenPubSub

/-! ## Memory that may be uninitialised -/

/-- An element of an array obtained with `UA_malloc`. -/
inductive Slot (α : Type) where
  | uninit
  | init (a : α)

namespace Slot

variable {α : Type}

/-- Was the slot ever written? -/
def isInit : Slot α → Bool
  | .uninit => false
  | .init _ => true

/-- Assign to a member of the slot. -/
def map (f : α → α) : Slot α → Slot α
  | .uninit => .uninit
  | .init a => .init (f a)

@[simp] theorem isInit_init (a : α) : (init a).isInit = true := rfl

@[simp] theorem isInit_uninit : (uninit : Slot α).isInit = false := rfl

@[simp] theorem map_init (f : α → α) (a : α) : (init a).map f = init (f a) := rfl

/-- What is done to the content does not initialise it. -/
@[simp] theorem isInit_map (f : α → α) (s : Slot α) : (s.map f).isInit = s.isInit := by
  cases s <;> rfl

end Slot

/-! ## Enumerations -/

/-- `UA_FieldEncoding`, two bits on the wire. -/
inductive FieldEncoding where
  | variant | rawData | dataValue | reserved
  deriving DecidableEq, Repr

instance : Inhabited FieldEncoding := ⟨.variant⟩

/-- `(UA_FieldEncoding)v` -/
def FieldEncoding.ofByte (v : UInt8) : FieldEncoding :=
  match v.toNat with
  | 0 => .variant
  | 1 => .rawData
  | 2 => .dataValue
  | _ => .reserved

/-- `(UA_Byte)encoding` -/
def FieldEncoding.toByte : FieldEncoding → UInt8
  | .variant => 0
  | .rawData => 1
  | .dataValue => 2
  | .reserved => 3

/-- `UA_DataSetMessageType`, four bits on the wire; `reserved v` is `4 + v`. -/
inductive DataSetMessageType where
  | dataKeyFrame | dataDeltaFrame | event | keepAlive
  | reserved (v : Fin 12)
  deriving DecidableEq, Repr

instance : Inhabited DataSetMessageType := ⟨.dataKeyFrame⟩

/-- `(UA_DataSetMessageType)v` -/
def DataSetMessageType.ofByte (v : UInt8) : DataSetMessageType :=
  match v.toNat with
  | 0 => .dataKeyFrame
  | 1 => .dataDeltaFrame
  | 2 => .event
  | 3 => .keepAlive
  | n + 4 => .reserved (Fin.ofNat 12 n)

/-- `(UA_Byte)type` -/
def DataSetMessageType.toByte : DataSetMessageType → UInt8
  | .dataKeyFrame => 0
  | .dataDeltaFrame => 1
  | .event => 2
  | .keepAlive => 3
  | .reserved v => UInt8.ofNat (4 + v)

/-- `UA_NetworkMessageType`, three bits on the wire; `reserved v` is `3 + v`. -/
inductive NetworkMessageType where
  | dataSet | discoveryRequest | discoveryResponse
  | reserved (v : Fin 5)
  deriving DecidableEq, Repr

instance : Inhabited NetworkMessageType := ⟨.dataSet⟩

/-- `(UA_NetworkMessageType)v` -/
def NetworkMessageType.ofByte (v : UInt8) : NetworkMessageType :=
  match v.toNat with
  | 0 => .dataSet
  | 1 => .discoveryRequest
  | 2 => .discoveryResponse
  | n + 3 => .reserved (Fin.ofNat 5 n)

/-- `(UA_Byte)type` -/
def NetworkMessageType.toByte : NetworkMessageType → UInt8
  | .dataSet => 0
  | .discoveryRequest => 1
  | .discoveryResponse => 2
  | .reserved v => UInt8.ofNat (3 + v)

/-- `publisherIdType`, three bits on the wire, and the member of the union
`publisherId` it selects; `reserved v` is the type `5 + v`. -/
inductive PublisherId where
  | byte (v : UInt8)
  | uint16 (v : UInt16)
  | uint32 (v : UInt32)
  | uint64 (v : UInt64)
  | string (s : UAString)
  | reserved (v : Fin 3)
  deriving DecidableEq

instance : Inhabited PublisherId := ⟨.byte 0⟩

namespace PublisherId

/-- `publisherIdType = (UA_PublisherIdDatatype)v`, with a zeroed union. -/
def zeroOfType (v : UInt8) : PublisherId :=
  match v.toNat with
  | 0 => .byte 0
  | 1 => .uint16 0
  | 2 => .uint32 0
  | 3 => .uint64 0
  | 4 => .string none
  | n + 5 => .reserved (Fin.ofNat 3 n)

/-- `(UA_Byte)publisherIdType` -/
def typeByte : PublisherId → UInt8
  | .byte _ => 0
  | .uint16 _ => 1
  | .uint32 _ => 2
  | .uint64 _ => 3
  | .string _ => 4
  | .reserved v => UInt8.ofNat (5 + v)

end PublisherId

/-! ## DataSetMessages -/

/-- `UA_DataSetMessageHeader` -/
structure DataSetMessageHeader where
  dataSetMessageValid : Bool
  fieldEncoding : FieldEncoding
  dataSetMessageSequenceNrEnabled : Bool
  timestampEnabled : Bool
  statusEnabled : Bool
  configVersionMajorVersionEnabled : Bool
  configVersionMinorVersionEnabled : Bool
  dataSetMessageType : DataSetMessageType
  picoSecondsIncluded : Bool
  dataSetMessageSequenceNr : UInt16
  timestamp : UInt64
  picoSeconds : UInt16
  status : UInt16
  configVersionMajorVersion : UInt32
  configVersionMinorVersion : UInt32
  deriving DecidableEq, Inhabited

/-- `UA_DataSetMessage_DeltaFrameField`, in an array from `UA_malloc`. -/
structure DeltaFrameField where
  fieldIndex : Slot UInt16
  fieldValue : Slot DataValue

/-- A delta frame field nothing was written to. -/
def DeltaFrameField.uninit : DeltaFrameField := ⟨.uninit, .uninit⟩

/-- `UA_DataSetMessage`; the member `data` is flattened. -/
structure DataSetMessage where
  header : DataSetMessageHeader
  fieldCount : UInt16
  dataSetFields : Option (List DataValue)
  fieldNames : Option (List UAString)
  deltaFrameFields : Option (List DeltaFrameField)
  deriving Inhabited

/-! ## NetworkMessages -/

/-- `UA_NetworkMessageGroupHeader` -/
structure NetworkMessageGroupHeader where
  writerGroupIdEnabled : Bool
  groupVersionEnabled : Bool
  networkMessageNumberEnabled : Bool
  sequenceNumberEnabled : Bool
  writerGroupId : UInt16
  groupVersion : UInt32
  networkMessageNumber : UInt16
  sequenceNumber : UInt16
  deriving DecidableEq, Inhabited

/-- `UA_DataSetPayloadHeader` -/
structure DataSetPayloadHeader where
  count : UInt8
  dataSetWriterIds : Option (List UInt16)
  deriving DecidableEq, Inhabited

/-- `UA_NetworkMessageSecurityHeader` -/
structure NetworkMessageSecurityHeader where
  networkMessageSigned : Bool
  networkMessageEncrypted : Bool
  securityFooterEnabled : Bool
  forceKeyReset : Bool
  securityTokenId : UInt32
  nonceLength : UInt8
  messageNonce : UAString
  securityFooterSize : UInt16
  deriving DecidableEq, Inhabited

/-- `UA_DataSetPayload` -/
structure DataSetPayload where
  sizes : Option (List UInt16)
  dataSetMessages : Option (List DataSetMessage)
  deriving Inhabited

/-- `UA_NetworkMessage` -/
structure NetworkMessage where
  version : UInt8
  messageIdEnabled : Bool
  messageId : UAString
  publisherIdEnabled : Bool
  groupHeaderEnabled : Bool
  payloadHeaderEnabled : Bool
  dataSetClassIdEnabled : Bool
  securityEnabled : Bool
  timestampEnabled : Bool
  picosecondsEnabled : Bool
  chunkMessage : Bool
  promotedFieldsEnabled : Bool
  networkMessageType : NetworkMessageType
  publisherId : PublisherId
  dataSetClassId : Guid
  groupHeader : NetworkMessageGroupHeader
  payloadHeader : DataSetPayloadHeader
  timestamp : UInt64
  picoseconds : UInt16
  promotedFieldsSize : UInt16
  promotedFields : Option (List (Slot Variant))
  securityHeader : NetworkMessageSecurityHeader
  payload : DataSetPayload
  securityFooter : UAString
  signature : UAString
  deriving Inhabited

/-! ## Flag bytes -/

def nmVersionMask : UInt8 := 15
def nmPublisherIdEnabledMask : UInt8 := 16
def nmGroupHeaderEnabledMask : UInt8 := 32
def nmPayloadHeaderEnabledMask : UInt8 := 64
def nmExtendedFlags1EnabledMask : UInt8 := 128
def nmPublisherIdMask : UInt8 := 7
def nmDataSetClassIdEnabledMask : UInt8 := 8
def nmSecurityEnabledMask : UInt8 := 16
def nmTimestampEnabledMask : UInt8 := 32
def nmPicosecondsEnabledMask : UInt8 := 64
def nmExtendedFlags2EnabledMask : UInt8 := 128
def nmNetworkMsgTypeMask : UInt8 := 28
def nmChunkMessageMask : UInt8 := 1
def nmPromotedFieldsEnabledMask : UInt8 := 2
def groupHeaderWriterGroupIdEnabled : UInt8 := 1
def groupHeaderGroupVersionEnabled : UInt8 := 2
def groupHeaderNmNumberEnabled : UInt8 := 4
def groupHeaderSequenceNumberEnabled : UInt8 := 8
def securityHeaderNmSigned : UInt8 := 1
def securityHeaderNmEncrypted : UInt8 := 2
def securityHeaderSecFooterEnabled : UInt8 := 4
def securityHeaderForceKeyReset : UInt8 := 8
def dsMessageHeaderDsMsgValid : UInt8 := 1
def dsMessageHeaderFieldEncodingMask : UInt8 := 6
def dsMessageHeaderSeqNrEnabledMask : UInt8 := 8
def dsMessageHeaderStatusEnabledMask : UInt8 := 16
def dsMessageHeaderConfigMajorVersionEnabledMask : UInt8 := 32
def dsMessageHeaderConfigMinorVersionEnabledMask : UInt8 := 64
def dsMessageHeaderFlags2EnabledMask : UInt8 := 128
def dsMessageHeaderDsMessageTypeMask : UInt8 := 15
def dsMessageHeaderTimestampEnabledMask : UInt8 := 16
def dsMessageHeaderPicosecondsIncludedMask : UInt8 := 32
def nmShiftLen : UInt8 := 2
def dsMhShiftLen : UInt8 := 1

/-- `(v & mask) != 0` -/
def bitSet (v mask : UInt8) : Bool := v &&& mask != 0

/-- Is the second byte of extended flags written? -/
def NetworkMessage.extendedFlags2Enabled (src : NetworkMessage) : Bool :=
  src.chunkMessage || src.promotedFieldsEnabled || src.networkMessageType != .dataSet

/-- Is the first byte of extended flags written? The second one asks for it. -/
def NetworkMessage.extendedFlags1Enabled (src : NetworkMessage) : Bool :=
  src.publisherId.typeByte != 0 || src.dataSetClassIdEnabled || src.securityEnabled
    || src.timestampEnabled || src.picosecondsEnabled || src.extendedFlags2Enabled

/-- Is the second byte of flags of a DataSetMessage written? -/
def DataSetMessageHeader.dataSetFlags2Enabled (src : DataSetMessageHeader) : Bool :=
  src.dataSetMessageType != .dataKeyFrame || src.timestampEnabled || src.picoSecondsIncluded

end OpenPubSub
