import OpenPubSub.NetworkMessage.Decode

/-!
# Cleaning up

`UA_NetworkMessage_clear`, `UA_DataSetMessage_free` and the decoder's own call to
them.

The cleanup loops run over the counters of the message. They are modelled by the
list of what they visit, in order: the slots whose contents are cleared and the
buffers that are released. Whether a visited slot holds anything is a question to
the message (`isInitialised`), so that the accesses and the memory are described
independently. Clearing the contents of an initialised slot and releasing a buffer
are taken to work.
-/

namespace OpenPubSub

open Routine

/-- The buffers that belong to a message. The arrays of a DataSetMessage are
numbered by its position. -/
inductive OwnedBuffer where
  | promotedFields
  | messageNonce
  | dataSetWriterIds
  | sizes
  | dataSetMessages
  | dataSetFields (i : Nat)
  | fieldNames (i : Nat)
  | deltaFrameFields (i : Nat)
  | securityFooter
  | messageId
  | publisherIdString
  | signature
  deriving DecidableEq, Repr

/-- What the cleanup touches: `slot b i` clears the contents of `b[i]`, `buffer b`
releases `b`. -/
inductive Target where
  | slot (b : OwnedBuffer) (i : Nat)
  | buffer (b : OwnedBuffer)
  deriving DecidableEq, Repr

/-- One access of the cleanup, and whether its target was initialised. -/
structure ClearEvent where
  target : Target
  initialised : Bool
  deriving DecidableEq, Repr

/-- Does the target hold something that can be cleared? -/
def NetworkMessage.isInitialised (m : NetworkMessage) : Target → Bool
  | .buffer _ => true
  | .slot .promotedFields i => ((m.promotedFields.getD [])[i]?.map Slot.isInit).getD false
  | .slot .dataSetWriterIds i => i < (m.payloadHeader.dataSetWriterIds.getD []).length
  | .slot .sizes i => i < (m.payload.sizes.getD []).length
  | .slot (.dataSetFields j) i => i < ((m.dataSetMessageAt j).dataSetFields.getD []).length
  | .slot (.fieldNames j) i => i < ((m.dataSetMessageAt j).fieldNames.getD []).length
  | .slot (.deltaFrameFields j) i =>
    (((m.dataSetMessageAt j).deltaFrameFields.getD [])[i]?.map
      fun f => f.fieldValue.isInit).getD false
  | .slot _ _ => false

/-- The slots `b[0], …, b[count - 1]`. -/
def slots (b : OwnedBuffer) (count : Nat) : List Target := (List.range count).map (.slot b)

/-- `UA_Array_delete(array, count, type)` -/
def arrayDelete (b : OwnedBuffer) (count : Nat) : List Target := slots b count ++ [.buffer b]

/-- `UA_DataSetMessage_free`, for the message in `dataSetMessages[i]`. -/
def dataSetMessageFree (i : Nat) (p : DataSetMessage) : List Target :=
  match p.header.dataSetMessageType with
  | .dataKeyFrame =>
    (if p.dataSetFields.isSome then arrayDelete (.dataSetFields i) p.fieldCount.toNat else []) ++
      (if p.fieldNames.isSome then arrayDelete (.fieldNames i) p.fieldCount.toNat else [])
  | .dataDeltaFrame =>
    if p.deltaFrameFields.isSome then
      (match p.header.fieldEncoding with
        | .dataValue | .variant => slots (.deltaFrameFields i) p.fieldCount.toNat
        | _ => []) ++ [.buffer (.deltaFrameFields i)]
    else []
  | _ => []

/-- The payload part of `UA_NetworkMessage_clear`. -/
def payloadClearTargets (p : NetworkMessage) : List Target :=
  if p.networkMessageType = .dataSet then
    (if p.payloadHeaderEnabled then
      (if p.payloadHeader.dataSetWriterIds.isSome then
        arrayDelete .dataSetWriterIds p.payloadHeader.count.toNat else []) ++
      (if p.payload.sizes.isSome then arrayDelete .sizes p.payloadHeader.count.toNat else [])
    else []) ++
    (if p.payload.dataSetMessages.isSome then
      (List.range p.dataSetMessageCount).flatMap (fun i =>
        dataSetMessageFree i (p.dataSetMessageAt i)) ++ [.buffer .dataSetMessages]
    else [])
  else []

/-- Everything `UA_NetworkMessage_clear` visits, in order. -/
def clearTargets (p : NetworkMessage) : List Target :=
  (if p.promotedFieldsEnabled then arrayDelete .promotedFields p.promotedFieldsSize.toNat
    else []) ++
  (if p.securityEnabled && p.securityHeader.nonceLength > 0 then [.buffer .messageNonce]
    else []) ++
  payloadClearTargets p ++
  (if p.securityHeader.securityFooterEnabled && p.securityHeader.securityFooterSize > 0 then
    [.buffer .securityFooter] else []) ++
  (if p.messageIdEnabled then [.buffer .messageId] else []) ++
  (if p.publisherIdEnabled && p.publisherId.typeByte == 4 then [.buffer .publisherIdString]
    else [])

/-- `UA_NetworkMessage_clear`: the accesses, and the zeroed message. -/
def networkMessageClear (p : NetworkMessage) : List ClearEvent × NetworkMessage :=
  ((clearTargets p).map fun t => ⟨t, p.isInitialised t⟩, default)

/-! ## The decoder -/

/-- A call of `UA_NetworkMessage_decodeBinary`: the structure it decodes into, and
the accesses of the cleanup it ran. -/
structure DecodeCall extends Decoding NetworkMessage where
  cleared : List ClearEvent

variable (src : Bytes) (T : DataTypes)

/-- `UA_NetworkMessage_decodeBinary`: a failing decode clears what it built and
returns its own status. -/
def networkMessageDecodeBinary : Routine ErrorCode DecodeCall Unit := fun s =>
  match networkMessageDecodeBinaryInternal src T s.toDecoding with
  | .done _ t => .done () { s with toDecoding := t }
  | .fail e t =>
    .fail e {
      offset := t.offset
      dst := (networkMessageClear t.dst).2
      cleared := s.cleared ++ (networkMessageClear t.dst).1 }
  | .fault => .fault

/-- The call on a fresh message. -/
def decodeAt (offset : Nat) : Outcome ErrorCode DecodeCall Unit :=
  networkMessageDecodeBinary src T ⟨⟨offset, default⟩, []⟩

end OpenPubSub
