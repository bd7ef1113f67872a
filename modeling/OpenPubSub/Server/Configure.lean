import OpenPubSub.NetworkMessage.Basic

/-!
# Configuring the server

The wrappers of `openPubSub.cpp` around the configuration functions of open62541, which
is not part of the tree.

- A `Request` is what a wrapper hands to open62541, a `Reply` what it gets back: a status
  and, if that is GOOD, the identifier of the entity that was created.
- `Impl` holds the four identifiers the wrappers share. `std::make_unique` zeroes it, and
  the constructor of `Server` sets `m_server`.
- An identifier is a `Slot`: `addReaderGroup` hands over a local variable that was never
  written.
- A `Call` is a public method together with the replies open62541 will give to it, and
  `run` executes one call after the other.

Constants of generated headers (the node of the current time, the attribute of a value)
are not looked into.
-/

namespace OpenPubSub

namespace Server

/-! ## Configurations -/

/-- `UA_NetworkAddressUrlDataType` -/
structure NetworkAddressUrl where
  networkInterface : UAString
  url : UAString
  deriving DecidableEq

/-- `UA_PubSubConnectionConfig`, with the numeric publisher id, an unsigned 32-bit integer. -/
structure PubSubConnectionConfig where
  name : String
  transportProfileUri : UAString
  enabled : Bool
  address : NetworkAddressUrl
  publisherId : UInt32
  deriving DecidableEq

/-- The variable a field publishes: that of the server's current time, or one that the
caller names. -/
inductive PublishedVariable where
  | serverStatusCurrentTime
  | node (id : NodeId)
  deriving DecidableEq

/-- `UA_DataSetFieldConfig`, for a field of a variable. -/
structure DataSetFieldConfig where
  fieldNameAlias : String
  promotedField : Bool
  publishedVariable : PublishedVariable
  deriving DecidableEq

/-- `UA_UadpNetworkMessageContentMask` -/
inductive NetworkMessageContent where
  | publisherId | groupHeader | writerGroupId | payloadHeader
  deriving DecidableEq

/-- `UA_WriterGroupConfig` -/
structure WriterGroupConfig where
  name : String
  publishingInterval : Nat
  enabled : Bool
  writerGroupId : UInt16
  maxEncapsulatedDataSetMessageCount : UInt16
  networkMessageContentMask : List NetworkMessageContent
  deriving DecidableEq

/-- `UA_DataSetWriterConfig` -/
structure DataSetWriterConfig where
  name : String
  dataSetWriterId : UInt16
  keyFrameCount : UInt32
  deriving DecidableEq

/-! ## open62541 -/

/-- An identifier that is handed over. -/
abbrev Ident := Slot NodeId

/-- A call of open62541. -/
inductive Request where
  | addPubSubConnection (config : PubSubConnectionConfig)
  | addPublishedDataSet (name : String)
  | addDataSetField (publishedDataSet : Ident) (config : DataSetFieldConfig)
  | addWriterGroup (connection : Ident) (config : WriterGroupConfig)
  | setWriterGroupOperational (writerGroup : Ident)
  | addDataSetWriter (writerGroup publishedDataSet : Ident) (config : DataSetWriterConfig)
  | addReaderGroup (connection : Ident) (name : String)
  | getPubSubConnectionConfig (connection : Ident)
  | removePubSubConnection (connection : Ident)
  | getDataSetWriterConfig (dataSetWriter : Ident)
  | removeDataSetWriter (dataSetWriter : Ident)

/-- What open62541 answers. Only the functions that create something use `ident`. -/
structure Reply where
  status : StatusCode
  ident : NodeId

/-- The out parameter: written on success, left alone on failure. -/
def Reply.store (r : Reply) (old : NodeId) : NodeId := if r.status = good then r.ident else old

/-- A request, and the answer to it. -/
structure Exchange where
  request : Request
  reply : Reply

/-! ## The wrappers -/

/-- `Server::Impl`: the identifiers, the transport profile, and whether `m_server` is
set. -/
structure Impl where
  connectionIdent : NodeId
  publishedDataSetIdent : NodeId
  writerGroupIdent : NodeId
  dataSetWriterIdent : NodeId
  transportProfile : NetworkAddressUrl
  server : Bool

/-- `UA_STRING(s)` -/
def uaString (s : String) : UAString := some s.toUTF8.toList

/-- `Server::Server` -/
def Impl.new : Impl where
  connectionIdent := default
  publishedDataSetIdent := default
  writerGroupIdent := default
  dataSetWriterIdent := default
  transportProfile :=
    ⟨none, uaString "http://opcfoundation.org/UA-Profile/Transport/pubsub-udp-uadp"⟩
  server := true

/-- What a wrapper does: the members after it, its exchanges with open62541, and the
status it returns, if it returns one. -/
structure Effect where
  impl : Impl
  exchanges : List Exchange
  status : Option StatusCode

variable (s : Impl)

/-- The status is not looked at. A negative `pubId` is stored modulo 2^32. -/
def addPubSubConnection (networkAddressUrl : NetworkAddressUrl) (connectionName : String)
    (pubId : Int) (r : Reply) : Effect where
  impl := { s with connectionIdent := r.store s.connectionIdent }
  exchanges := [⟨.addPubSubConnection {
    name := connectionName
    transportProfileUri := s.transportProfile.url
    enabled := true
    address := networkAddressUrl
    publisherId := UInt32.ofInt pubId }, r⟩]
  status := none

def addPublishedDataSet (pdsName : String) (r : Reply) : Effect where
  impl := { s with publishedDataSetIdent := r.store s.publishedDataSetIdent }
  exchanges := [⟨.addPublishedDataSet pdsName, r⟩]
  status := none

def addDataSetField (fieldName : String) (r : Reply) : Effect where
  impl := s
  exchanges := [⟨.addDataSetField (.init s.publishedDataSetIdent)
    ⟨fieldName, false, .serverStatusCurrentTime⟩, r⟩]
  status := none

def addInt32DataSetField (publishedVariable : NodeId) (r : Reply) : Effect where
  impl := s
  exchanges := [⟨.addDataSetField (.init s.publishedDataSetIdent)
    ⟨"Int32", false, .node publishedVariable⟩, r⟩]
  status := none

/-- The group is set operational with the identifier the creation has left, whatever its
status was. -/
def addWriterGroup (r operational : Reply) : Effect where
  impl := { s with writerGroupIdent := r.store s.writerGroupIdent }
  exchanges := [
    ⟨.addWriterGroup (.init s.connectionIdent) {
      name := "Int32 WriterGroup"
      publishingInterval := 500
      enabled := false
      writerGroupId := 100
      maxEncapsulatedDataSetMessageCount := 3
      networkMessageContentMask := [.publisherId, .groupHeader, .writerGroupId, .payloadHeader] },
      r⟩,
    ⟨.setWriterGroupOperational (.init (r.store s.writerGroupIdent)), operational⟩]
  status := none

def addDataSetWriter (r : Reply) : Effect where
  impl := { s with dataSetWriterIdent := r.store s.dataSetWriterIdent }
  exchanges := [⟨.addDataSetWriter (.init s.writerGroupIdent) (.init s.publishedDataSetIdent)
    ⟨"Demo DataSetWriter", 62541, 10⟩, r⟩]
  status := none

/-- The connection is the local variable `m_connectionIdentifier`, which nothing is
assigned to, and not the member. -/
def addReaderGroup (r : Reply) : Effect :=
  if s.server then
    ⟨s, [⟨.addReaderGroup .uninit "ReaderGroup1", r⟩], some (good ||| r.status)⟩
  else
    ⟨s, [], some badInternalError.1⟩

def getPubSubConnectionConfig (r : Reply) : Effect :=
  ⟨s, [⟨.getPubSubConnectionConfig (.init s.connectionIdent), r⟩], some r.status⟩

def removePubSubConnection (r : Reply) : Effect :=
  ⟨s, [⟨.removePubSubConnection (.init s.connectionIdent), r⟩], some r.status⟩

def getDataSetWriterConfig (r : Reply) : Effect :=
  ⟨s, [⟨.getDataSetWriterConfig (.init s.dataSetWriterIdent), r⟩], some r.status⟩

def removeDataSetWriter (r : Reply) : Effect :=
  ⟨s, [⟨.removeDataSetWriter (.init s.dataSetWriterIdent), r⟩], some r.status⟩

/-! ## Runs -/

/-- A call of a public method, and the replies it will get. -/
inductive Call where
  | addPubSubConnection (networkAddressUrl : NetworkAddressUrl) (connectionName : String)
      (pubId : Int) (r : Reply)
  | addPublishedDataSet (pdsName : String) (r : Reply)
  | addDataSetField (fieldName : String) (r : Reply)
  | addInt32DataSetField (publishedVariable : NodeId) (r : Reply)
  | addWriterGroup (r operational : Reply)
  | addDataSetWriter (r : Reply)
  | addReaderGroup (r : Reply)
  | getPubSubConnectionConfig (r : Reply)
  | removePubSubConnection (r : Reply)
  | getDataSetWriterConfig (r : Reply)
  | removeDataSetWriter (r : Reply)

/-- Execute one call. -/
def step : Call → Effect
  | .addPubSubConnection networkAddressUrl connectionName pubId r =>
    addPubSubConnection s networkAddressUrl connectionName pubId r
  | .addPublishedDataSet pdsName r => addPublishedDataSet s pdsName r
  | .addDataSetField fieldName r => addDataSetField s fieldName r
  | .addInt32DataSetField publishedVariable r => addInt32DataSetField s publishedVariable r
  | .addWriterGroup r operational => addWriterGroup s r operational
  | .addDataSetWriter r => addDataSetWriter s r
  | .addReaderGroup r => addReaderGroup s r
  | .getPubSubConnectionConfig r => getPubSubConnectionConfig s r
  | .removePubSubConnection r => removePubSubConnection s r
  | .getDataSetWriterConfig r => getDataSetWriterConfig s r
  | .removeDataSetWriter r => removeDataSetWriter s r

/-- The exchanges of a run, from the members `s` on. -/
def run (s : Impl) : List Call → List Exchange
  | [] => []
  | c :: cs => (step s c).exchanges ++ run (step s c).impl cs

end Server

end OpenPubSub
