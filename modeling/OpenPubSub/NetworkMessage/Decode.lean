import OpenPubSub.NetworkMessage.Basic
import OpenPubSub.Types.DecodeBinary

/-!
# Decoding network messages

`UA_NetworkMessage_decodeBinaryInternal` and the DataSetMessage decoders it
calls, section by section in the order of the source. The state of a decoder is
the offset together with the structure it fills, and both are kept when it
fails: what is half built is what the cleanup gets to see.

- `decodeInto` is a call `UA_X_decodeBinary(src, offset, &dst->member)`.
- `onFlag` is a section that an enable flag of the message guards.
- The two loops whose length is not a counter of the message run on fuel:
  `promotedFieldsLoop` stops at a byte position, and `securityFooterLoop` compares
  an 8-bit counter with a 16-bit size.

The calls of this file pass no custom types to the decoders of Variants and DataValues
(`withoutCustomTypes`): of the type table they see `UA_TYPES` alone.
-/

namespace OpenPubSub

open Routine

/-- The state of `UA_X_decodeBinary(src, offset, dst)`. -/
structure Decoding (M : Type) where
  offset : Nat
  dst : M

/-- A decoder that fills an `M`. -/
abbrev Decoder (M α : Type) := Routine ErrorCode (Decoding M) α

section Calls

variable {M α : Type}

/-- Decode into a member. A failing `UA_decodeBinary` zeroes its target. -/
def decodeInto [Inhabited α] (x : Routine ErrorCode Nat α) (put : α → M → M) : Decoder M Unit :=
  fun s =>
    match x s.offset with
    | .done a offset => .done () ⟨offset, put a s.dst⟩
    | .fail e offset => .fail e ⟨offset, put default s.dst⟩
    | .fault => .fault

/-- Decode into a local variable. -/
def decodeLocal (x : Routine ErrorCode Nat α) : Decoder M α :=
  zoom Decoding.offset (fun offset s => { s with offset := offset }) x

/-- Assign to members. -/
def assign (f : M → M) : Decoder M Unit := modify fun s => { s with dst := f s.dst }

/-- Read the structure filled so far. -/
def current : Decoder M M := gets Decoding.dst

/-- `if(dst->flag) { … }` -/
def onFlag (flag : M → Bool) (x : Decoder M Unit) : Decoder M Unit := do
  let m ← current
  if flag m then x else pure ()

/-- `if((v & mask) != 0) { … }` -/
def onBit (v mask : UInt8) (x : Decoder M Unit) : Decoder M Unit :=
  if bitSet v mask then x else pure ()

/-- Decode a structure inside the structure. -/
def decodePart {N : Type} (get : M → N) (put : N → M → M) (x : Decoder N Unit) : Decoder M Unit :=
  zoom (fun s => ⟨s.offset, get s.dst⟩) (fun t s => ⟨t.offset, put t.dst s.dst⟩) x

end Calls

variable (src : Bytes) (T : DataTypes)

/-! ## DataSetMessageHeader -/

def dataSetFlags2DecodeBinary : Decoder DataSetMessageHeader Unit := do
  let v ← decodeLocal (uaByteDecodeBinary src)
  assign fun h => { h with
    dataSetMessageType := .ofByte (v &&& dsMessageHeaderDsMessageTypeMask)
    timestampEnabled := bitSet v dsMessageHeaderTimestampEnabledMask
    picoSecondsIncluded := bitSet v dsMessageHeaderPicosecondsIncludedMask }

/-- Both flag bytes. Without the second one the message is a key frame and has no
timestamps, as the initial memset left it. -/
def dataSetFlagsDecodeBinary : Decoder DataSetMessageHeader Unit := do
  let v ← decodeLocal (uaByteDecodeBinary src)
  assign fun h => { h with
    fieldEncoding := .ofByte ((v &&& dsMessageHeaderFieldEncodingMask) >>> dsMhShiftLen)
    dataSetMessageValid := bitSet v dsMessageHeaderDsMsgValid
    dataSetMessageSequenceNrEnabled := bitSet v dsMessageHeaderSeqNrEnabledMask
    statusEnabled := bitSet v dsMessageHeaderStatusEnabledMask
    configVersionMajorVersionEnabled := bitSet v dsMessageHeaderConfigMajorVersionEnabledMask
    configVersionMinorVersionEnabled := bitSet v dsMessageHeaderConfigMinorVersionEnabledMask }
  onBit v dsMessageHeaderFlags2EnabledMask (dataSetFlags2DecodeBinary src)

/-- The members without a section keep the zero of the initial memset. -/
def dataSetMessageHeaderDecodeBinary : Decoder DataSetMessageHeader Unit := do
  assign fun _ => default
  dataSetFlagsDecodeBinary src
  onFlag (·.dataSetMessageSequenceNrEnabled) <|
    decodeInto (uaUInt16DecodeBinary src) fun v h => { h with dataSetMessageSequenceNr := v }
  onFlag (·.timestampEnabled) <|
    decodeInto (uaUInt64DecodeBinary src) fun v h => { h with timestamp := v }
  onFlag (·.picoSecondsIncluded) <|
    decodeInto (uaUInt16DecodeBinary src) fun v h => { h with picoSeconds := v }
  onFlag (·.statusEnabled) <|
    decodeInto (uaUInt16DecodeBinary src) fun v h => { h with status := v }
  onFlag (·.configVersionMajorVersionEnabled) <|
    decodeInto (uaUInt32DecodeBinary src) fun v h => { h with configVersionMajorVersion := v }
  onFlag (·.configVersionMinorVersionEnabled) <|
    decodeInto (uaUInt32DecodeBinary src) fun v h => { h with configVersionMinorVersion := v }

/-! ## DataSetMessage -/

namespace DataSetMessage

/-- Change `dataSetFields[i]`. -/
def onField (i : Nat) (f : DataValue → DataValue) (d : DataSetMessage) : DataSetMessage :=
  { d with dataSetFields := d.dataSetFields.map (·.modify i f) }

/-- Change `deltaFrameFields[i]`. -/
def onDeltaField (i : Nat) (f : DeltaFrameField → DeltaFrameField) (d : DataSetMessage) :
    DataSetMessage :=
  { d with deltaFrameFields := d.deltaFrameFields.map (·.modify i f) }

end DataSetMessage

/-- Body of the key frame loop, VARIANT encoding. -/
def keyFrameVariantDecodeBinary (i : Nat) : Decoder DataSetMessage Unit := do
  assign (·.onField i fun _ => default)
  decodeInto (uaVariantDecodeBinary src T) fun v d => d.onField i fun f => { f with value := v }
  assign (·.onField i fun f => { f with hasValue := true })

/-- Body of the key frame loop, DATAVALUE encoding. -/
def keyFrameDataValueDecodeBinary (i : Nat) : Decoder DataSetMessage Unit :=
  decodeInto (uaDataValueDecodeBinary src T) fun v d => d.onField i fun _ => v

/-- `dataSetFields = UA_Array_new(fieldCount, …)` and the loop over the fields. -/
def keyFrameFieldsDecodeBinary (field : Nat → Decoder DataSetMessage Unit) :
    Decoder DataSetMessage Unit := do
  let d ← current
  assign fun d => { d with dataSetFields := some (List.replicate d.fieldCount.toNat default) }
  forUpTo d.fieldCount.toNat field

/-- The data of a key frame. RAWDATA has no field count and no fields that are
read; the reserved encoding has a count but no branch. -/
def keyFrameDataDecodeBinary : Decoder DataSetMessage Unit := do
  let d ← current
  if d.header.fieldEncoding ≠ .rawData then do
    decodeInto (uaUInt16DecodeBinary src) fun v d => { d with fieldCount := v }
    match d.header.fieldEncoding with
    | .variant => keyFrameFieldsDecodeBinary (keyFrameVariantDecodeBinary src T)
    | .rawData => fail badNotImplemented
    | .dataValue => keyFrameFieldsDecodeBinary (keyFrameDataValueDecodeBinary src T)
    | .reserved => pure ()

/-- The field index that starts the body of the delta frame loops. -/
def deltaFrameIndexDecodeBinary (i : Nat) : Decoder DataSetMessage Unit :=
  decodeInto (uaUInt16DecodeBinary src) fun v d =>
    d.onDeltaField i fun f => { f with fieldIndex := .init v }

/-- Body of the delta frame loop, VARIANT encoding. -/
def deltaFrameVariantDecodeBinary (i : Nat) : Decoder DataSetMessage Unit := do
  deltaFrameIndexDecodeBinary src i
  assign (·.onDeltaField i fun f => { f with fieldValue := .init default })
  decodeInto (uaVariantDecodeBinary src T) fun v d =>
    d.onDeltaField i fun f => { f with fieldValue := f.fieldValue.map ({ · with value := v }) }
  assign (·.onDeltaField i fun f =>
    { f with fieldValue := f.fieldValue.map ({ · with hasValue := true }) })

/-- Body of the delta frame loop, DATAVALUE encoding. -/
def deltaFrameDataValueDecodeBinary (i : Nat) : Decoder DataSetMessage Unit := do
  deltaFrameIndexDecodeBinary src i
  decodeInto (uaDataValueDecodeBinary src T) fun v d =>
    d.onDeltaField i fun f => { f with fieldValue := .init v }

/-- `deltaFrameFields = UA_malloc(…)` and the loop over the fields. -/
def deltaFrameFieldsDecodeBinary (field : Nat → Decoder DataSetMessage Unit) :
    Decoder DataSetMessage Unit := do
  let d ← current
  assign fun d => { d with deltaFrameFields := some (List.replicate d.fieldCount.toNat .uninit) }
  forUpTo d.fieldCount.toNat field

/-- The data of a delta frame. -/
def deltaFrameDataDecodeBinary : Decoder DataSetMessage Unit := do
  let d ← current
  if d.header.fieldEncoding ≠ .rawData then do
    decodeInto (uaUInt16DecodeBinary src) fun v d => { d with fieldCount := v }
    match d.header.fieldEncoding with
    | .variant => deltaFrameFieldsDecodeBinary (deltaFrameVariantDecodeBinary src T)
    | .rawData => fail badNotImplemented
    | .dataValue => deltaFrameFieldsDecodeBinary (deltaFrameDataValueDecodeBinary src T)
    | .reserved => pure ()

def dataSetMessageDecodeBinary : Decoder DataSetMessage Unit := do
  assign fun _ => default
  decodePart DataSetMessage.header (fun h d => { d with header := h })
    (dataSetMessageHeaderDecodeBinary src)
  let d ← current
  match d.header.dataSetMessageType with
  | .dataKeyFrame => keyFrameDataDecodeBinary src T
  | .dataDeltaFrame => deltaFrameDataDecodeBinary src T
  | .keepAlive => pure ()
  | _ => fail badNotImplemented

/-! ## The header sections of a NetworkMessage -/

def extendedFlags2DecodeBinary : Decoder NetworkMessage Unit := do
  let v ← decodeLocal (uaByteDecodeBinary src)
  assign fun m => { m with
    chunkMessage := bitSet v nmChunkMessageMask
    promotedFieldsEnabled := bitSet v nmPromotedFieldsEnabledMask
    networkMessageType := .ofByte ((v &&& nmNetworkMsgTypeMask) >>> nmShiftLen) }

def extendedFlags1DecodeBinary : Decoder NetworkMessage Unit := do
  let v ← decodeLocal (uaByteDecodeBinary src)
  assign fun m => { m with
    publisherId := .zeroOfType (v &&& nmPublisherIdMask)
    dataSetClassIdEnabled := bitSet v nmDataSetClassIdEnabledMask
    securityEnabled := bitSet v nmSecurityEnabledMask
    timestampEnabled := bitSet v nmTimestampEnabledMask
    picosecondsEnabled := bitSet v nmPicosecondsEnabledMask }
  onBit v nmExtendedFlags2EnabledMask (extendedFlags2DecodeBinary src)

/-- UADPVersion, UADP flags and both bytes of extended flags. -/
def flagsDecodeBinary : Decoder NetworkMessage Unit := do
  let v ← decodeLocal (uaByteDecodeBinary src)
  assign fun m => { m with
    version := v &&& nmVersionMask
    publisherIdEnabled := bitSet v nmPublisherIdEnabledMask
    groupHeaderEnabled := bitSet v nmGroupHeaderEnabledMask
    payloadHeaderEnabled := bitSet v nmPayloadHeaderEnabledMask }
  onBit v nmExtendedFlags1EnabledMask (extendedFlags1DecodeBinary src)

def publisherIdDecodeBinary : Decoder NetworkMessage Unit := do
  let m ← current
  match m.publisherId with
  | .byte _ =>
    decodeInto (uaByteDecodeBinary src) fun v m => { m with publisherId := .byte v }
  | .uint16 _ =>
    decodeInto (uaUInt16DecodeBinary src) fun v m => { m with publisherId := .uint16 v }
  | .uint32 _ =>
    decodeInto (uaUInt32DecodeBinary src) fun v m => { m with publisherId := .uint32 v }
  | .uint64 _ =>
    decodeInto (uaUInt64DecodeBinary src) fun v m => { m with publisherId := .uint64 v }
  | .string _ =>
    decodeInto (uaStringDecodeBinary src T) fun v m => { m with publisherId := .string v }
  | .reserved _ => fail badInternalError

def groupHeaderDecodeBinary : Decoder NetworkMessageGroupHeader Unit := do
  let v ← decodeLocal (uaByteDecodeBinary src)
  assign fun g => { g with
    writerGroupIdEnabled := bitSet v groupHeaderWriterGroupIdEnabled
    groupVersionEnabled := bitSet v groupHeaderGroupVersionEnabled
    networkMessageNumberEnabled := bitSet v groupHeaderNmNumberEnabled
    sequenceNumberEnabled := bitSet v groupHeaderSequenceNumberEnabled }
  onFlag (·.writerGroupIdEnabled) <|
    decodeInto (uaUInt16DecodeBinary src) fun v g => { g with writerGroupId := v }
  onFlag (·.groupVersionEnabled) <|
    decodeInto (uaUInt32DecodeBinary src) fun v g => { g with groupVersion := v }
  onFlag (·.networkMessageNumberEnabled) <|
    decodeInto (uaUInt16DecodeBinary src) fun v g => { g with networkMessageNumber := v }
  onFlag (·.sequenceNumberEnabled) <|
    decodeInto (uaUInt16DecodeBinary src) fun v g => { g with sequenceNumber := v }

/-- A `UA_UInt16` array of `count` zeros, filled by a loop. -/
def uint16ArrayDecodeBinary {M : Type} (count : Nat) (get : M → Option (List UInt16))
    (put : Option (List UInt16) → M → M) : Decoder M Unit := do
  assign (put (some (List.replicate count 0)))
  forUpTo count fun i =>
    decodeInto (uaUInt16DecodeBinary src) fun v m => put ((get m).map (·.set i v)) m

def payloadHeaderDecodeBinary : Decoder NetworkMessage Unit := do
  let m ← current
  if m.networkMessageType ≠ .dataSet then
    fail badNotImplemented
  else do
    decodeInto (uaByteDecodeBinary src) fun v m =>
      { m with payloadHeader := { m.payloadHeader with count := v } }
    let m ← current
    uint16ArrayDecodeBinary src m.payloadHeader.count.toNat (·.payloadHeader.dataSetWriterIds)
      fun ids m => { m with payloadHeader := { m.payloadHeader with dataSetWriterIds := ids } }

namespace NetworkMessage

/-- Change `promotedFields[i]`. -/
def onPromotedField (i : Nat) (f : Slot Variant → Slot Variant) (m : NetworkMessage) :
    NetworkMessage :=
  { m with promotedFields := m.promotedFields.map (·.modify i f) }

/-- `UA_malloc` or `UA_realloc` to `counter + 1` elements. -/
def growPromotedFields (counter : Nat) (m : NetworkMessage) : NetworkMessage :=
  { m with
    promotedFields := some (m.promotedFields.getD [] ++ [.uninit])
    promotedFieldsSize := UInt16.ofNat (counter + 1) }

end NetworkMessage

/-- One more promoted field. -/
def promotedFieldDecodeBinary (counter : Nat) : Decoder NetworkMessage Unit := do
  assign (NetworkMessage.growPromotedFields counter)
  assign (NetworkMessage.onPromotedField counter fun _ => .init default)
  decodeInto (uaVariantDecodeBinary src T) fun v =>
    NetworkMessage.onPromotedField counter fun _ => .init v

/-- The `do … while` over the promoted fields. The first argument is fuel. -/
def promotedFieldsLoop (offsetEnd : Nat) : Nat → Nat → Decoder NetworkMessage Unit
  | 0, _ => fault
  | fuel + 1, counter => do
    promotedFieldDecodeBinary src T counter
    let offset ← gets Decoding.offset
    if offset < offsetEnd then promotedFieldsLoop offsetEnd fuel (counter + 1) else pure ()

/-- The declared size is a number of bytes. -/
def promotedFieldsDecodeBinary : Decoder NetworkMessage Unit := do
  let promotedFieldsSize ← decodeLocal (uaUInt16DecodeBinary src)
  if promotedFieldsSize > 0 then do
    let offset ← gets Decoding.offset
    -- every field takes a byte or more
    promotedFieldsLoop src T (offset + promotedFieldsSize.toNat) promotedFieldsSize.toNat 0

/-- The buffer comes from `UA_ByteString_allocBuffer`; the loop writes every byte of
it before anything reads one. -/
def messageNonceDecodeBinary : Decoder NetworkMessageSecurityHeader Unit := do
  let h ← current
  assign fun h => { h with messageNonce := some (List.replicate h.nonceLength.toNat 0) }
  forUpTo h.nonceLength.toNat fun i =>
    decodeInto (uaByteDecodeBinary src) fun v h =>
      { h with messageNonce := h.messageNonce.map (·.set i v) }

def securityHeaderDecodeBinary : Decoder NetworkMessageSecurityHeader Unit := do
  let v ← decodeLocal (uaByteDecodeBinary src)
  assign fun h => { h with
    networkMessageSigned := bitSet v securityHeaderNmSigned
    networkMessageEncrypted := bitSet v securityHeaderNmEncrypted
    securityFooterEnabled := bitSet v securityHeaderSecFooterEnabled
    forceKeyReset := bitSet v securityHeaderForceKeyReset }
  decodeInto (uaUInt32DecodeBinary src) fun v h => { h with securityTokenId := v }
  decodeInto (uaByteDecodeBinary src) fun v h => { h with nonceLength := v }
  onFlag (·.nonceLength > 0) (messageNonceDecodeBinary src)
  onFlag (·.securityFooterEnabled) <|
    decodeInto (uaUInt16DecodeBinary src) fun v h => { h with securityFooterSize := v }

/-- Everything before the DataSetMessages. -/
def headersDecodeBinary : Decoder NetworkMessage Unit := do
  assign fun _ => default
  flagsDecodeBinary src
  onFlag (·.publisherIdEnabled) (publisherIdDecodeBinary src T)
  onFlag (·.dataSetClassIdEnabled) <|
    decodeInto (uaGuidDecodeBinary src) fun v m => { m with dataSetClassId := v }
  onFlag (·.groupHeaderEnabled) <|
    decodePart NetworkMessage.groupHeader (fun g m => { m with groupHeader := g })
      (groupHeaderDecodeBinary src)
  onFlag (·.payloadHeaderEnabled) (payloadHeaderDecodeBinary src)
  onFlag (·.timestampEnabled) <|
    decodeInto (uaUInt64DecodeBinary src) fun v m => { m with timestamp := v }
  onFlag (·.picosecondsEnabled) <|
    decodeInto (uaUInt16DecodeBinary src) fun v m => { m with picoseconds := v }
  onFlag (·.promotedFieldsEnabled) (promotedFieldsDecodeBinary src T)
  onFlag (·.securityEnabled) <|
    decodePart NetworkMessage.securityHeader (fun h m => { m with securityHeader := h })
      (securityHeaderDecodeBinary src)

/-! ## The payload -/

namespace NetworkMessage

/-- How many DataSetMessages the payload holds: one without a payload header. -/
def dataSetMessageCount (m : NetworkMessage) : Nat :=
  if m.payloadHeaderEnabled then m.payloadHeader.count.toNat else 1

/-- The message in `dataSetMessages[i]`. -/
def dataSetMessageAt (i : Nat) (m : NetworkMessage) : DataSetMessage :=
  (m.payload.dataSetMessages.getD [])[i]?.getD default

/-- Assign `dataSetMessages[i]`. -/
def setDataSetMessage (i : Nat) (d : DataSetMessage) (m : NetworkMessage) : NetworkMessage :=
  { m with payload := { m.payload with
      dataSetMessages := m.payload.dataSetMessages.map (·.set i d) } }

end NetworkMessage

/-- The array of sizes, present from two DataSetMessages on. -/
def sizesDecodeBinary : Decoder NetworkMessage Unit := do
  let m ← current
  if m.payloadHeaderEnabled ∧ m.payloadHeader.count > 1 then
    uint16ArrayDecodeBinary src m.payloadHeader.count.toNat (·.payload.sizes)
      fun sizes m => { m with payload := { m.payload with sizes := sizes } }

/-- `dataSetMessages = UA_calloc(count, …)` and the loop over the messages. -/
def dataSetMessagesDecodeBinary : Decoder NetworkMessage Unit := do
  let m ← current
  assign fun m => { m with payload := { m.payload with
    dataSetMessages := some (List.replicate m.dataSetMessageCount default) } }
  forUpTo m.dataSetMessageCount fun i =>
    decodePart (NetworkMessage.dataSetMessageAt i) (NetworkMessage.setDataSetMessage i)
      (dataSetMessageDecodeBinary src T)

/-- `securityFooter.data[i]` -/
def securityFooterByteDecodeBinary (i : UInt8) : Decoder NetworkMessage Unit :=
  decodeInto (uaByteDecodeBinary src) fun v m =>
    { m with securityFooter := m.securityFooter.map (·.set i.toNat v) }

/-- `for(UA_Byte i = 0; i < securityFooterSize; i++)`: the counter has eight bits,
the size sixteen. The first argument is fuel. -/
def securityFooterLoop : Nat → UInt8 → Decoder NetworkMessage Unit
  | 0, _ => fault
  | fuel + 1, i => do
    let m ← current
    if i.toNat < m.securityHeader.securityFooterSize.toNat then do
      securityFooterByteDecodeBinary src i
      securityFooterLoop fuel (i + 1)
    else
      pure ()

def securityFooterDecodeBinary : Decoder NetworkMessage Unit := do
  let m ← current
  if m.securityHeader.securityFooterEnabled ∧ m.securityHeader.securityFooterSize > 0 then do
    assign fun m => { m with
      securityFooter := some (List.replicate m.securityHeader.securityFooterSize.toNat 0) }
    -- every byte of the footer is a byte of the message, and the loop ends with it
    securityFooterLoop src (src.length + 1) 0

/-- Security footer and signature. -/
def securityTrailerDecodeBinary : Decoder NetworkMessage Unit := do
  securityFooterDecodeBinary src
  onFlag (·.securityHeader.networkMessageSigned) <|
    decodeInto (uaStringDecodeBinary src T) fun v m => { m with signature := v }

/-- The sections from the payload on. -/
def payloadDecodeBinary : Decoder NetworkMessage Unit := do
  let m ← current
  if m.networkMessageType ≠ .dataSet then
    fail badNotImplemented
  else do
    sizesDecodeBinary src
    dataSetMessagesDecodeBinary src T
    onFlag (·.securityEnabled) (securityTrailerDecodeBinary src T)

def networkMessageDecodeBinaryInternal : Decoder NetworkMessage Unit := do
  headersDecodeBinary src T
  payloadDecodeBinary src T

end OpenPubSub
