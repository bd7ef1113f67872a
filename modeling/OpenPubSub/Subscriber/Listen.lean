import OpenPubSub.Lib.Gather
import OpenPubSub.NetworkMessage.Clear

/-!
# The subscriber

`Subscriber::listen` and `Subscriber::run` of `subscription.cpp`. The logging calls
are modelled by what they log: the type and the value of a field.

- The Subscriber keeps its NetworkMessage and its buffer from one call to the next.
- What the channel's `receive` leaves in the buffer is the argument of `listen`.
- A field is printed by looking at its type alone and reading one object through the
  data pointer. A pointer without an object behind it is undefined, `none`; so is a
  cleanup that touches what was never initialised.
- Allocations succeed.
-/

namespace OpenPubSub

open Routine

/-! ## The content of a message -/

/-- A logged field. -/
inductive Report where
  | byte (v : UInt8)
  | uint32 (v : UInt32)
  | dateTime (v : UInt64)
  deriving DecidableEq, Repr

/-- The well-known content types. -/
inductive WellKnown where
  | byte | uint32 | dateTime
  deriving DecidableEq, Repr

namespace WellKnown

def kind : WellKnown → DataTypeKind
  | .byte => .byte
  | .uint32 => .uint32
  | .dateTime => .dateTime

/-- The object at which a pointer of this type points. -/
def report : WellKnown → Value → Option Report
  | .byte, .byte v => some (.byte v)
  | .uint32, .uint32 v => some (.uint32 v)
  | .dateTime, .uint64 v => some (.dateTime v)
  | _, _ => none

end WellKnown

/-- `currentType == &UA_TYPES[…]`, in the order of the tests. -/
def wellKnown (type : DataTypeRef) : Option WellKnown :=
  if type = DataTypes.builtin .byte then some .byte
  else if type = DataTypes.builtin .uint32 then some .uint32
  else if type = DataTypes.builtin .dateTime then some .dateTime
  else none

/-- What a data pointer points at: an array is entered at its first element. -/
def Value.pointee : Value → Option Value
  | .null => none
  | .array xs => xs.head?
  | v => some v

/-- What is logged about one field. -/
def fieldReports (field : DataValue) : Option (List Report) :=
  match field.value.type.bind wellKnown with
  | none => some []
  | some k => (field.value.data.pointee.bind k.report).map fun r => [r]

/-- The loop over the fields of a key frame. -/
def keyFrameReports (dsm : DataSetMessage) : Option (List Report) :=
  collect dsm.fieldCount.toNat fun i => (dsm.dataSetFields.getD [])[i]?.bind fieldReports

/-- What is logged about one DataSetMessage. -/
def dataSetMessageReports (dsm : DataSetMessage) : Option (List Report) :=
  if dsm.header.dataSetMessageType ≠ .dataKeyFrame then some [] else keyFrameReports dsm

/-- What is logged about a NetworkMessage. The loop is bounded by the counter of the
payload header, whether there is one or not. -/
def networkMessageReports (m : NetworkMessage) : Option (List Report) :=
  if m.networkMessageType ≠ .dataSet then some []
  else if m.payloadHeaderEnabled ∧ m.payloadHeader.count < 1 then some []
  else collect m.payloadHeader.count.toNat fun j =>
    (m.payload.dataSetMessages.getD [])[j]?.bind dataSetMessageReports

/-! ## The subscriber -/

/-- The members of a Subscriber that `listen` uses. An empty buffer is `none`. -/
structure Subscriber where
  networkMessage : NetworkMessage
  buffer : UAString

/-- `Subscriber::Subscriber` -/
def Subscriber.new : Subscriber := ⟨default, none⟩

/-- The size of the buffer that `listen` allocates. -/
def listenBufferSize : Nat := 512

/-- What `receive` leaves: its status and the contents of the buffer. A timeout leaves
no contents. -/
structure Received where
  status : StatusCode
  bytes : Bytes
  length_le : bytes.length ≤ listenBufferSize

/-- What a call of `listen` returns and logs. -/
structure Listened where
  status : StatusCode
  reports : List Report
  deriving DecidableEq

/-- The accesses of a cleanup are defined where their targets were initialised. -/
def requireInitialised (events : List ClearEvent) : Routine ErrorCode Subscriber Unit :=
  if events.all ClearEvent.initialised then pure () else fault

variable (T : DataTypes)

/-- `memset`, then decode the buffer into the message. Nobody looks at the status. -/
def decodeBuffer : Routine ErrorCode Subscriber Unit := fun s =>
  match decodeAt (s.buffer.getD []) T 0 with
  | .done _ t => .done () { s with networkMessage := t.dst }
  | .fail _ t => requireInitialised t.cleared { s with networkMessage := t.dst }
  | .fault => .fault

/-- `UA_ByteString_clear(&buffer)` -/
def clearBuffer : Routine ErrorCode Subscriber Unit := modify fun s => { s with buffer := none }

/-- Log the content of the message. -/
def logMessage : Routine ErrorCode Subscriber (List Report) := fun s =>
  match networkMessageReports s.networkMessage with
  | some reports => .done reports s
  | none => .fault

/-- `UA_NetworkMessage_clear(&networkMessage)` -/
def clearMessage : Routine ErrorCode Subscriber Unit := fun s =>
  requireInitialised (networkMessageClear s.networkMessage).1
    { s with networkMessage := (networkMessageClear s.networkMessage).2 }

def listen (received : Received) : Routine ErrorCode Subscriber Listened := do
  modify fun s => { s with buffer := some received.bytes }
  if received.status ≠ good ∨ received.bytes.length = 0 then do
    clearBuffer
    pure ⟨good, []⟩
  else do
    decodeBuffer T
    clearBuffer
    let reports ← logMessage
    clearMessage
    pure ⟨received.status, reports⟩

/-- `Subscriber::run`, for as many calls as `receive` is answered. -/
def run : List Received → Routine ErrorCode Subscriber (List Listened)
  | [] => pure []
  | received :: rest => do
    let listened ← listen T received
    if listened.status = good then (listened :: ·) <$> run rest else pure [listened]

end OpenPubSub
