import OpenPubSub.Lib.Chunks
import OpenPubSub.Types.EncodeBinary

/-!
# Binary encoding in chunks

The encoders of `ua_types_encoding_binary.c` once more, for callers of `UA_encodeBinary` that pass
a callback. It is called when the end of the buffer is reached, sends the chunk, and replaces the
buffer.

- `exchangeCallback` is the callback with its handle, or `none` for NULL.
- `direct` are the encoders that never exchange the buffer, as they are.
- Everything that calls `encodeWithExchangeBuffer` or copies an overlayable array has a definition
  here, under the same name.
- A callback may put buffers without room in place, and then the loop of
  `Array_encodeBinaryOverlayable` goes on without an end. Here it is allowed one buffer for
  each byte and the first one; more of them count as undefined.
-/

namespace OpenPubSub

open Routine Writer

/-- An encoder whose buffer may be exchanged. -/
abbrev ChunkEnc (σ α : Type) := Routine ErrorCode (Chunk σ) α

namespace Chunked

variable {σ : Type} (exchangeCallback : Option (Callback ErrorCode σ)) (T : DataTypes)

/-! ## Primitives -/

/-- If encoding fails, exchange the buffer and try again. -/
def encodeWithExchangeBuffer (x : ChunkEnc σ Unit) : ChunkEnc σ Unit :=
  retry badEncodingLimitsExceeded badEncodingError exchangeCallback x

/-- An encoder that does not call `exchangeBuffer`. -/
abbrev direct (x : Enc) : ChunkEnc σ Unit := onBuffer x

/-! ## Arrays -/

/-- `Array_encodeBinaryOverlayable` -/
def arrayEncodeBinaryOverlayable (memory : Option Bytes) : ChunkEnc σ Unit :=
  match memory with
  | some bytes => stream badEncodingError exchangeCallback (bytes.length + 2) bytes
  | none => fault

/-- `Array_encodeBinary` -/
def arrayEncodeBinary (type : DataType) (length : Option Nat) (memory : Option Bytes)
    (elements : ChunkEnc σ Unit) : ChunkEnc σ Unit :=
  if length.getD 0 > int32Max then fail badInternalError
  else do
    encodeWithExchangeBuffer exchangeCallback
      (direct (uint32EncodeBinary (signedLengthWord length)))
    if length.getD 0 = 0 then pure ()
    else if type.overlayable then arrayEncodeBinaryOverlayable exchangeCallback memory
    else elements

/-- An array whose elements are encoded one by one by `f`. -/
def listEncodeBinary {α : Type} (type : DataType) (memory : α → Option Bytes) (f : α → Enc)
    (src : Option (List α)) : ChunkEnc σ Unit :=
  arrayEncodeBinary exchangeCallback type (src.map List.length)
    (arrayMemory type.memSize memory (src.getD []))
    (eachChunk (fun x => encodeWithExchangeBuffer exchangeCallback (direct (f x))) (src.getD []))

/-! ## Built-in types -/

def stringEncodeBinary (src : UAString) : ChunkEnc σ Unit :=
  listEncodeBinary exchangeCallback (T.get (DataTypes.builtin .byte)) (fun b => some [b])
    byteEncodeBinary src

def dimensionsEncodeBinary (dimensions : List UInt32) : ChunkEnc σ Unit :=
  listEncodeBinary exchangeCallback (T.get (DataTypes.builtin .int32))
    (fun d => some (leBytes 4 d.toNat)) uint32EncodeBinary (some dimensions)

/-- `NodeId_encodeBinaryWithEncodingMask` -/
def nodeIdEncodeBinaryWithEncodingMask (src : NodeId) (encoding : UInt8) : ChunkEnc σ Unit :=
  match src.identifier with
  | .numeric _ | .guid _ => direct (OpenPubSub.nodeIdEncodeBinaryWithEncodingMask T src encoding)
  | .string s => do
    direct (accum (byteEncodeBinary (encoding ||| 3)) fun _ =>
      uint16EncodeBinary src.namespaceIndex)
    stringEncodeBinary exchangeCallback T s
  | .byteString s => do
    direct (accum (byteEncodeBinary (encoding ||| 5)) fun _ =>
      uint16EncodeBinary src.namespaceIndex)
    stringEncodeBinary exchangeCallback T s

def nodeIdEncodeBinary (src : NodeId) : ChunkEnc σ Unit :=
  nodeIdEncodeBinaryWithEncodingMask exchangeCallback T src 0

/-- `if(c) x();` -/
def encodeIf (c : Bool) (x : ChunkEnc σ Unit) : ChunkEnc σ Unit := if c then x else pure ()

def expandedNodeIdEncodeBinary (src : ExpandedNodeId) : ChunkEnc σ Unit := do
  nodeIdEncodeBinaryWithEncodingMask exchangeCallback T src.nodeId
    ((if hasBytes src.namespaceUri then expandedNodeIdNamespaceUriFlag else 0) |||
      (if src.serverIndex > 0 then expandedNodeIdServerIndexFlag else 0))
  encodeIf (hasBytes src.namespaceUri) (stringEncodeBinary exchangeCallback T src.namespaceUri)
  encodeIf (src.serverIndex > 0)
    (encodeWithExchangeBuffer exchangeCallback (direct (uint32EncodeBinary src.serverIndex)))

def qualifiedNameEncodeBinary (src : QualifiedName) : ChunkEnc σ Unit := do
  direct (uint16EncodeBinary src.namespaceIndex)
  stringEncodeBinary exchangeCallback T src.name

def localizedTextEncodeBinary (src : LocalizedText) : ChunkEnc σ Unit := do
  direct (byteEncodeBinary ((if src.locale.isSome then localizedTextMaskLocale else 0) |||
    (if src.text.isSome then localizedTextMaskText else 0)))
  accum (encodeIf src.locale.isSome (stringEncodeBinary exchangeCallback T src.locale)) fun _ =>
    encodeIf src.text.isSome (stringEncodeBinary exchangeCallback T src.text)

/-- A member that is written if it is there. -/
def encodeSome {α : Type} (x : Option α) (f : α → ChunkEnc σ Unit) : ChunkEnc σ Unit :=
  match x with
  | some a => f a
  | none => pure ()

/-- The mask and the numeric content are written at once. -/
def diagnosticInfoEncodeBinary : DiagnosticInfo → ChunkEnc σ Unit
  | .mk symbolicId namespaceUri localizedText locale additionalInfo innerStatusCode inner => do
    direct <| accum (byteEncodeBinary (maskBit symbolicId.isSome 0x01 |||
      maskBit namespaceUri.isSome 0x02 ||| maskBit localizedText.isSome 0x04 |||
      maskBit locale.isSome 0x08 ||| maskBit additionalInfo.isSome 0x10 |||
      maskBit inner.isSome 0x20)) fun _ =>
      accum (OpenPubSub.encodeSome symbolicId uint32EncodeBinary) fun _ =>
        accum (OpenPubSub.encodeSome namespaceUri uint32EncodeBinary) fun _ =>
          accum (OpenPubSub.encodeSome localizedText uint32EncodeBinary) fun _ =>
            OpenPubSub.encodeSome locale uint32EncodeBinary
    encodeSome additionalInfo (stringEncodeBinary exchangeCallback T)
    encodeSome innerStatusCode fun v =>
      encodeWithExchangeBuffer exchangeCallback (direct (uint32EncodeBinary v))
    match inner with
    | some d => encodeWithExchangeBuffer exchangeCallback (diagnosticInfoEncodeBinary d)
    | none => pure ()

/-! ## Nested types -/

mutual

/-- `encodeBinaryJumpTable[kind](src, type, ctx)` -/
def encodeBinaryJumpTable (depth : Nat) (kind : DataTypeKind) (type : DataTypeRef) (src : Value) :
    ChunkEnc σ Unit :=
  match kind, src with
  | .boolean, .byte v | .sByte, .byte v | .byte, .byte v => direct (byteEncodeBinary v)
  | .int16, .uint16 v | .uint16, .uint16 v => direct (uint16EncodeBinary v)
  | .int32, .uint32 v | .uint32, .uint32 v | .float, .uint32 v | .statusCode, .uint32 v
  | .enum, .uint32 v => direct (uint32EncodeBinary v)
  | .int64, .uint64 v | .uint64, .uint64 v | .double, .uint64 v | .dateTime, .uint64 v =>
    direct (uint64EncodeBinary v)
  | .string, .string s | .byteString, .string s | .xmlElement, .string s =>
    stringEncodeBinary exchangeCallback T s
  | .guid, .guid g => direct (guidEncodeBinary g)
  | .nodeId, .nodeId n => nodeIdEncodeBinary exchangeCallback T n
  | .expandedNodeId, .expandedNodeId n => expandedNodeIdEncodeBinary exchangeCallback T n
  | .qualifiedName, .qualifiedName n => qualifiedNameEncodeBinary exchangeCallback T n
  | .localizedText, .localizedText t => localizedTextEncodeBinary exchangeCallback T t
  | .extensionObject, .extensionObject e => extensionObjectEncodeBinary depth e
  | .dataValue, .dataValue d => dataValueEncodeBinary depth d
  | .variant, .variant v => variantEncodeBinary depth v
  | .diagnosticInfo, .diagnosticInfo d => diagnosticInfoEncodeBinary exchangeCallback T d
  | .struct, .struct members | .bitfieldCluster, .struct members => do
    direct (checkDepth depth)
    encodeBinaryStruct (depth + 1) type (T.get type).members members
  | .optStruct, .optStruct members => do
    direct (checkDepth depth)
    direct (optEncodingMaskEncodeBinary T type (T.get type).members members)
    encodeBinaryStructWithOptFields (depth + 1) type (T.get type).members members
  | .union, .union selection member => do
    direct (checkDepth depth)
    direct (uint32EncodeBinary selection)
    match selection.toNat with
    | 0 => pure ()
    | i + 1 =>
      match (T.get type).members[i]? with
      | none => fault
      | some m =>
        encodeWithExchangeBuffer exchangeCallback <|
          encodeBinaryJumpTable (depth + 1) (T.get (DataTypes.memberType type m)).typeKind
            (DataTypes.memberType type m) member
  | .decimal, _ => fail badNotImplemented
  | _, _ => fault
  termination_by structural src

def variantEncodeBinary (depth : Nat) : VariantOf Value → ChunkEnc σ Unit
  | ⟨none, _, _⟩ => direct (byteEncodeBinary 0)
  | ⟨some type, data, dimensions⟩ => do
    direct (byteEncodeBinary (variantEncodingByte (T.get type).typeKind data.isArray
      (decide ((dimensions.getD []).length > 0))))
    if data.isArray then
      if (T.get type).typeKind.isUnwrapped then valuesEncodeBinary depth type data
      else variantEncodeBinaryWrapExtensionObject depth type data
    else if (T.get type).typeKind.isUnwrapped then
      encodeWithExchangeBuffer exchangeCallback
        (encodeBinaryJumpTable depth (T.get type).typeKind type data)
    else
      encodeWithExchangeBuffer exchangeCallback do
        direct (extensionObjectHeaderEncodeBinary T type
          (calcSizeBinaryJumpTable T (T.get type).typeKind type data))
        encodeWithExchangeBuffer exchangeCallback
          (encodeBinaryJumpTable depth (T.get type).typeKind type data)
    encodeIf (data.isArray && decide ((dimensions.getD []).length > 0))
      (dimensionsEncodeBinary exchangeCallback T (dimensions.getD []))
  termination_by structural src => src

def dataValueEncodeBinary (depth : Nat) : DataValueOf Value → ChunkEnc σ Unit
  | ⟨hasValue, hasStatus, hasSourceTimestamp, hasServerTimestamp, hasSourcePicoseconds,
      hasServerPicoseconds, value, status, sourceTimestamp, sourcePicoseconds, serverTimestamp,
      serverPicoseconds⟩ => do
    direct (byteEncodeBinary (maskBit hasValue 0x01 ||| maskBit hasStatus 0x02 |||
      maskBit hasSourceTimestamp 0x04 ||| maskBit hasServerTimestamp 0x08 |||
      maskBit hasSourcePicoseconds 0x10 ||| maskBit hasServerPicoseconds 0x20))
    encodeIf hasValue (variantEncodeBinary depth value)
    accum (encodeIf hasStatus
      (encodeWithExchangeBuffer exchangeCallback (direct (uint32EncodeBinary status)))) fun _ =>
      accum (encodeIf hasSourceTimestamp (encodeWithExchangeBuffer exchangeCallback
        (direct (uint64EncodeBinary sourceTimestamp)))) fun _ =>
      accum (encodeIf hasSourcePicoseconds (encodeWithExchangeBuffer exchangeCallback
        (direct (uint16EncodeBinary sourcePicoseconds)))) fun _ =>
      accum (encodeIf hasServerTimestamp (encodeWithExchangeBuffer exchangeCallback
        (direct (uint64EncodeBinary serverTimestamp)))) fun _ =>
      encodeIf hasServerPicoseconds (encodeWithExchangeBuffer exchangeCallback
        (direct (uint16EncodeBinary serverPicoseconds)))
  termination_by structural src => src

def extensionObjectEncodeBinary (depth : Nat) : ExtensionObjectOf Value → ChunkEnc σ Unit
  | .encoded typeId .noBody => do
    nodeIdEncodeBinary exchangeCallback T typeId
    encodeWithExchangeBuffer exchangeCallback (direct (byteEncodeBinary 0))
  | .encoded typeId (.byteString body) => do
    nodeIdEncodeBinary exchangeCallback T typeId
    encodeWithExchangeBuffer exchangeCallback (direct (byteEncodeBinary 1))
    stringEncodeBinary exchangeCallback T body
  | .encoded typeId (.xml body) => do
    nodeIdEncodeBinary exchangeCallback T typeId
    encodeWithExchangeBuffer exchangeCallback (direct (byteEncodeBinary 2))
    stringEncodeBinary exchangeCallback T body
  | .decoded type data =>
    if data.isNull then fail badEncodingError
    else do
      -- the NodeId of the encoding is numeric, and so no buffer is exchanged here
      direct (extensionObjectHeaderEncodeBinary T type
        (calcSizeBinaryJumpTable T (T.get type).typeKind type data))
      encodeWithExchangeBuffer exchangeCallback
        (encodeBinaryJumpTable depth (T.get type).typeKind type data)
  termination_by structural src => src

/-- `Variant_encodeBinaryWrapExtensionObject` for an array. -/
def variantEncodeBinaryWrapExtensionObject (depth : Nat) (type : DataTypeRef) :
    Value → ChunkEnc σ Unit
  | .null => direct (uint32EncodeBinary 0)
  | .array xs =>
    if xs.length > int32Max then fail badEncodingError
    else do
      direct (uint32EncodeBinary (UInt32.ofNat xs.length))
      wrappedElementsEncodeBinary depth type xs
  | _ => fault
  termination_by structural data => data

/-- The loop of `Variant_encodeBinaryWrapExtensionObject`. -/
def wrappedElementsEncodeBinary (depth : Nat) (type : DataTypeRef) : List Value → ChunkEnc σ Unit
  | [] => pure ()
  | x :: xs => do
    encodeWithExchangeBuffer exchangeCallback do
      direct (extensionObjectHeaderEncodeBinary T type
        (calcSizeBinaryJumpTable T (T.get type).typeKind type x))
      encodeWithExchangeBuffer exchangeCallback
        (encodeBinaryJumpTable depth (T.get type).typeKind type x)
    wrappedElementsEncodeBinary depth type xs
  termination_by structural xs => xs

/-- `Array_encodeBinary(data, length, type, ctx)` -/
def valuesEncodeBinary (depth : Nat) (type : DataTypeRef) : Value → ChunkEnc σ Unit
  | .array xs =>
    arrayEncodeBinary exchangeCallback (T.get type) (some xs.length)
      (arrayMemory (T.get type).memSize Value.memory xs)
      (elementsEncodeBinary depth (T.get type).typeKind type xs)
  | .null => arrayEncodeBinary exchangeCallback (T.get type) none none (pure ())
  | _ => fault
  termination_by structural data => data

/-- `Array_encodeBinaryComplex` -/
def elementsEncodeBinary (depth : Nat) (kind : DataTypeKind) (type : DataTypeRef) :
    List Value → ChunkEnc σ Unit
  | [] => pure ()
  | x :: xs => do
    encodeWithExchangeBuffer exchangeCallback (encodeBinaryJumpTable depth kind type x)
    elementsEncodeBinary depth kind type xs
  termination_by structural xs => xs

/-- The member loop of `encodeBinaryStruct`. -/
def encodeBinaryStruct (depth : Nat) (owner : DataTypeRef) (members : List DataTypeMember) :
    List Value → ChunkEnc σ Unit
  | [] => if members.isEmpty then pure () else fault
  | x :: xs =>
    match members with
    | [] => fault
    | m :: members => do
      if m.isArray then valuesEncodeBinary depth (DataTypes.memberType owner m) x
      else encodeWithExchangeBuffer exchangeCallback (encodeBinaryJumpTable depth
        (T.get (DataTypes.memberType owner m)).typeKind (DataTypes.memberType owner m) x)
      encodeBinaryStruct depth owner members xs
  termination_by structural xs => xs

/-- The member loop of `encodeBinaryStructWithOptFields`. -/
def encodeBinaryStructWithOptFields (depth : Nat) (owner : DataTypeRef)
    (members : List DataTypeMember) : List Value → ChunkEnc σ Unit
  | [] => if members.isEmpty then pure () else fault
  | x :: xs =>
    match members with
    | [] => fault
    | m :: members => do
      if m.isOptional && x.isNull then pure ()
      else if m.isArray then valuesEncodeBinary depth (DataTypes.memberType owner m) x
      else encodeWithExchangeBuffer exchangeCallback (encodeBinaryJumpTable depth
        (T.get (DataTypes.memberType owner m)).typeKind (DataTypes.memberType owner m) x)
      encodeBinaryStructWithOptFields depth owner members xs
  termination_by structural xs => xs

end

/-! ## The entry point -/

/-- `UA_encodeBinary(src, type, bufPos, bufEnd, exchangeCallback, exchangeHandle)` -/
def uaEncodeBinary (kind : DataTypeKind) (type : DataTypeRef) (src : Value) : ChunkEnc σ Unit :=
  encodeWithExchangeBuffer exchangeCallback
    (encodeBinaryJumpTable exchangeCallback T 0 kind type src)

end Chunked

end OpenPubSub
