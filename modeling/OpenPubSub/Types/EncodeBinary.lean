import OpenPubSub.Lib.Writer
import OpenPubSub.Types.CalcSize
import OpenPubSub.Types.DecodeBinary

/-!
# Binary encoding of values

The encoding half of `ua_types_encoding_binary.c`, one definition per C function, on a
64-bit little-endian platform with IEEE 754 floating point.

- The buffer and the position in it are the state. `ctx->depth`, which only the
  structure encoders count, is the argument `depth`.
- No caller of the PubSub code passes a callback that exchanges the buffer:
  `exchangeBuffer` fails, and `encodeWithExchangeBuffer` goes back to the last good
  position.
- `Array_encodeBinary` is generic in what an element is. An overlayable array is copied
  from memory, which needs elements whose memory is known (`Value.memory`).
- `UA_encodeBinary` is `encodeWithExchangeBuffer` at depth 0: it moves the caller's
  position on failure, too.
- The jump table and the functions it calls recurse over the object.
-/

namespace OpenPubSub

open Routine Writer

/-- An encoder. -/
abbrev Enc := Routine ErrorCode Buffer Unit

/-! ## Primitives -/

/-- Without a callback, `exchangeBuffer` returns `UA_STATUSCODE_BADENCODINGERROR`. -/
def encodeWithExchangeBuffer (x : Enc) : Enc :=
  goBack badEncodingLimitsExceeded badEncodingError x

/-- Check for room, copy and advance: the body of the integer encoders. -/
def fixedEncodeBinary (bs : Bytes) : Enc := store badEncodingLimitsExceeded bs

def byteEncodeBinary (v : UInt8) : Enc := fixedEncodeBinary [v]

def uint16EncodeBinary (v : UInt16) : Enc := fixedEncodeBinary (leBytes 2 v.toNat)

def uint32EncodeBinary (v : UInt32) : Enc := fixedEncodeBinary (leBytes 4 v.toNat)

def uint64EncodeBinary (v : UInt64) : Enc := fixedEncodeBinary (leBytes 8 v.toNat)

/-! ## Objects in memory -/

/-- A Guid as it lies in memory. -/
def Guid.memory (g : Guid) : Bytes :=
  leBytes 4 g.data1.toNat ++ leBytes 2 g.data2.toNat ++ leBytes 2 g.data3.toNat ++
    leBytes 8 g.data4.toNat

/-- An object as it lies in memory, if it holds no pointers. -/
def Value.memory : Value → Option Bytes
  | .byte v => some [v]
  | .uint16 v => some (leBytes 2 v.toNat)
  | .uint32 v => some (leBytes 4 v.toNat)
  | .uint64 v => some (leBytes 8 v.toNat)
  | .guid g => some g.memory
  | .raw bytes => some bytes
  | _ => none

/-- An array in memory, of elements that take `memSize` bytes each. -/
def arrayMemory {α : Type} (memSize : Nat) (memory : α → Option Bytes) : List α → Option Bytes
  | [] => some []
  | x :: xs => do
    let bytes ← memory x
    let rest ← arrayMemory memSize memory xs
    if bytes.length = memSize then some (bytes ++ rest) else none

/-! ## Arrays -/

/-- `UA_INT32_MAX` -/
def int32Max : Nat := 2147483647

/-- The `i32` in front of an array: -1 for NULL. -/
def signedLengthWord : Option Nat → UInt32
  | none => 0xFFFFFFFF
  | some n => UInt32.ofNat n

/-- `Array_encodeBinaryOverlayable` -/
def arrayEncodeBinaryOverlayable (memory : Option Bytes) : Enc :=
  match memory with
  | some bytes => fill badEncodingError bytes
  | none => fault

/-- `Array_encodeBinary`. A `length` of `none` stands for the NULL pointer, and `elements`
encodes one element after the other. -/
def arrayEncodeBinary (type : DataType) (length : Option Nat) (memory : Option Bytes)
    (elements : Enc) : Enc :=
  if length.getD 0 > int32Max then fail badInternalError
  else do
    encodeWithExchangeBuffer (uint32EncodeBinary (signedLengthWord length))
    if length.getD 0 = 0 then pure ()
    else if type.overlayable then arrayEncodeBinaryOverlayable memory
    else elements

/-! ## Built-in types -/

variable (T : DataTypes)

/-- An array whose elements are encoded one by one by `f`. -/
def listEncodeBinary {α : Type} (type : DataType) (memory : α → Option Bytes) (f : α → Enc)
    (src : Option (List α)) : Enc :=
  arrayEncodeBinary type (src.map List.length) (arrayMemory type.memSize memory (src.getD []))
    (each (fun x => encodeWithExchangeBuffer (f x)) (src.getD []))

def stringEncodeBinary (src : UAString) : Enc :=
  listEncodeBinary (T.get (DataTypes.builtin .byte)) (fun b => some [b]) byteEncodeBinary src

/-- The dimensions of a Variant, an `Int32` array. -/
def dimensionsEncodeBinary (dimensions : List UInt32) : Enc :=
  listEncodeBinary (T.get (DataTypes.builtin .int32)) (fun d => some (leBytes 4 d.toNat))
    uint32EncodeBinary (some dimensions)

def guidEncodeBinary (src : Guid) : Enc :=
  accum (uint32EncodeBinary src.data1) fun _ =>
    accum (uint16EncodeBinary src.data2) fun _ =>
      accumGuard (uint16EncodeBinary src.data3) (pure ()) fun _ =>
        fixedEncodeBinary (leBytes 8 src.data4.toNat)

/-- `NodeId_encodeBinaryWithEncodingMask` -/
def nodeIdEncodeBinaryWithEncodingMask (src : NodeId) (encoding : UInt8) : Enc :=
  match src.identifier with
  | .numeric id =>
    if id.toNat > uint16Max ∨ src.namespaceIndex.toNat > byteMax then
      accum (byteEncodeBinary (encoding ||| 2)) fun _ =>
        accum (uint16EncodeBinary src.namespaceIndex) fun _ => uint32EncodeBinary id
    else if id.toNat > byteMax ∨ src.namespaceIndex > 0 then
      accum (byteEncodeBinary (encoding ||| 1)) fun _ =>
        accum (byteEncodeBinary src.namespaceIndex.toUInt8) fun _ =>
          uint16EncodeBinary id.toUInt16
    else
      accum (byteEncodeBinary (encoding ||| 0)) fun _ => byteEncodeBinary id.toUInt8
  | .string s => do
    accum (byteEncodeBinary (encoding ||| 3)) fun _ => uint16EncodeBinary src.namespaceIndex
    stringEncodeBinary T s
  | .guid g =>
    accum (byteEncodeBinary (encoding ||| 4)) fun _ =>
      accum (uint16EncodeBinary src.namespaceIndex) fun _ => guidEncodeBinary g
  | .byteString s => do
    accum (byteEncodeBinary (encoding ||| 5)) fun _ => uint16EncodeBinary src.namespaceIndex
    stringEncodeBinary T s

def nodeIdEncodeBinary (src : NodeId) : Enc := nodeIdEncodeBinaryWithEncodingMask T src 0

/-- `if(c) x();` -/
def encodeIf (c : Bool) (x : Enc) : Enc := if c then x else pure ()

/-- `data > UA_EMPTY_ARRAY_SENTINEL` -/
def hasBytes (s : UAString) : Bool := (s.getD []).length > 0

def expandedNodeIdEncodeBinary (src : ExpandedNodeId) : Enc := do
  nodeIdEncodeBinaryWithEncodingMask T src.nodeId
    ((if hasBytes src.namespaceUri then expandedNodeIdNamespaceUriFlag else 0) |||
      (if src.serverIndex > 0 then expandedNodeIdServerIndexFlag else 0))
  encodeIf (hasBytes src.namespaceUri) (stringEncodeBinary T src.namespaceUri)
  encodeIf (src.serverIndex > 0) (encodeWithExchangeBuffer (uint32EncodeBinary src.serverIndex))

def qualifiedNameEncodeBinary (src : QualifiedName) : Enc := do
  uint16EncodeBinary src.namespaceIndex
  stringEncodeBinary T src.name

def localizedTextEncodeBinary (src : LocalizedText) : Enc := do
  byteEncodeBinary ((if src.locale.isSome then localizedTextMaskLocale else 0) |||
    (if src.text.isSome then localizedTextMaskText else 0))
  accum (encodeIf src.locale.isSome (stringEncodeBinary T src.locale)) fun _ =>
    encodeIf src.text.isSome (stringEncodeBinary T src.text)

/-- `encodingMask |= (u8)(src->has… << shift)` -/
def maskBit (c : Bool) (bit : UInt8) : UInt8 := if c then bit else 0

/-- A member that is written if it is there. -/
def encodeSome {α : Type} (x : Option α) (f : α → Enc) : Enc :=
  match x with
  | some a => f a
  | none => pure ()

/-- The mask has no bit for the inner status code, and its bit for the inner
DiagnosticInfo. -/
def diagnosticInfoEncodeBinary : DiagnosticInfo → Enc
  | .mk symbolicId namespaceUri localizedText locale additionalInfo innerStatusCode inner => do
    accum (byteEncodeBinary (maskBit symbolicId.isSome 0x01 ||| maskBit namespaceUri.isSome 0x02 |||
      maskBit localizedText.isSome 0x04 ||| maskBit locale.isSome 0x08 |||
      maskBit additionalInfo.isSome 0x10 ||| maskBit inner.isSome 0x20)) fun _ =>
      accum (encodeSome symbolicId uint32EncodeBinary) fun _ =>
        accum (encodeSome namespaceUri uint32EncodeBinary) fun _ =>
          accum (encodeSome localizedText uint32EncodeBinary) fun _ =>
            encodeSome locale uint32EncodeBinary
    encodeSome additionalInfo (stringEncodeBinary T)
    encodeSome innerStatusCode fun v => encodeWithExchangeBuffer (uint32EncodeBinary v)
    match inner with
    | some d => encodeWithExchangeBuffer (diagnosticInfoEncodeBinary d)
    | none => pure ()

/-! ## Nested types -/

/-- `sizeof(void*)` -/
def pointerSize : Nat := 8

/-- The encoding mask: which optional members hold anything? The loop goes over a mandatory
member by the size of its type, also over an array, where only a length and a pointer stand.
`ahead` is how far this has taken it beyond the members (or back, where it is negative), and
`none` stands for an optional member that is not looked for where it is. -/
def optEncodingMask (owner : DataTypeRef) :
    List DataTypeMember → List Value → Nat → Int → Option UInt32
  | m :: members, x :: xs, o, ahead =>
    if m.isOptional then
      if ahead = 0 then
        (optEncodingMask owner members xs (o + 1) ahead).map
          ((if x.isNull then 0 else (1 : UInt32) <<< UInt32.ofNat o) ||| ·)
      else none
    else if m.isArray then
      optEncodingMask owner members xs o
        (ahead + ((T.get (DataTypes.memberType owner m)).memSize - pointerSize))
    else optEncodingMask owner members xs o ahead
  | _, _, _, _ => some 0

/-- The mask in front of the members. -/
def optEncodingMaskEncodeBinary (owner : DataTypeRef) (members : List DataTypeMember)
    (xs : List Value) : Enc :=
  match optEncodingMask T owner members xs 0 0 with
  | some encodingMask => uint32EncodeBinary encodingMask
  | none => fault

/-- `if(ctx->depth > UA_ENCODING_MAX_RECURSION) return UA_STATUSCODE_BADENCODINGERROR;` -/
def checkDepth (depth : Nat) : Enc :=
  if encodingMaxRecursion < depth then fail badEncodingError else pure ()

/-- The encoding byte of a Variant with content of kind `kind`. -/
def variantEncodingByte (kind : DataTypeKind) (isArray hasDimensions : Bool) : UInt8 :=
  (variantTypeIdMask &&& UInt8.ofNat (
    if kind.isBuiltin then kind.index + 1
    else if kind = .enum then DataTypeKind.int32.index + 1
    else DataTypeKind.extensionObject.index + 1)) |||
  (if isArray then variantArrayMask else 0) |||
  (if isArray && hasDimensions then variantDimensionsMask else 0)

/-- Type id, encoding byte and length in front of a decoded ExtensionObject of type `type`
whose content takes `size` bytes. -/
def extensionObjectHeaderEncodeBinary (type : DataTypeRef) (size : Option Nat) : Enc :=
  match (T.get type).typeId.identifier, size with
  | .numeric _, some len => do
    nodeIdEncodeBinary T
      ⟨(T.get type).typeId.namespaceIndex, .numeric (T.get type).binaryEncodingId⟩
    accumGuard (byteEncodeBinary 1)
      (if len > int32Max then fail badEncodingError else pure ()) fun _ =>
      uint32EncodeBinary (UInt32.ofNat len)
  | .numeric _, none => fault
  | _, _ => fail badEncodingError

mutual

/-- `encodeBinaryJumpTable[kind](src, type, ctx)` -/
def encodeBinaryJumpTable (depth : Nat) (kind : DataTypeKind) (type : DataTypeRef) (src : Value) :
    Enc :=
  match kind, src with
  | .boolean, .byte v | .sByte, .byte v | .byte, .byte v => byteEncodeBinary v
  | .int16, .uint16 v | .uint16, .uint16 v => uint16EncodeBinary v
  | .int32, .uint32 v | .uint32, .uint32 v | .float, .uint32 v | .statusCode, .uint32 v
  | .enum, .uint32 v => uint32EncodeBinary v
  | .int64, .uint64 v | .uint64, .uint64 v | .double, .uint64 v | .dateTime, .uint64 v =>
    uint64EncodeBinary v
  | .string, .string s | .byteString, .string s | .xmlElement, .string s => stringEncodeBinary T s
  | .guid, .guid g => guidEncodeBinary g
  | .nodeId, .nodeId n => nodeIdEncodeBinary T n
  | .expandedNodeId, .expandedNodeId n => expandedNodeIdEncodeBinary T n
  | .qualifiedName, .qualifiedName n => qualifiedNameEncodeBinary T n
  | .localizedText, .localizedText t => localizedTextEncodeBinary T t
  | .extensionObject, .extensionObject e => extensionObjectEncodeBinary depth e
  | .dataValue, .dataValue d => dataValueEncodeBinary depth d
  | .variant, .variant v => variantEncodeBinary depth v
  | .diagnosticInfo, .diagnosticInfo d => diagnosticInfoEncodeBinary T d
  | .struct, .struct members | .bitfieldCluster, .struct members => do
    checkDepth depth
    encodeBinaryStruct (depth + 1) type (T.get type).members members
  | .optStruct, .optStruct members => do
    checkDepth depth
    optEncodingMaskEncodeBinary T type (T.get type).members members
    encodeBinaryStructWithOptFields (depth + 1) type (T.get type).members members
  | .union, .union selection member => do
    checkDepth depth
    uint32EncodeBinary selection
    match selection.toNat with
    | 0 => pure ()
    | i + 1 =>
      match (T.get type).members[i]? with
      | none => fault
      | some m =>
        encodeWithExchangeBuffer <|
          encodeBinaryJumpTable (depth + 1) (T.get (DataTypes.memberType type m)).typeKind
            (DataTypes.memberType type m) member
  | .decimal, _ => fail badNotImplemented
  | _, _ => fault
  termination_by structural src

def variantEncodeBinary (depth : Nat) : VariantOf Value → Enc
  | ⟨none, _, _⟩ => byteEncodeBinary 0
  | ⟨some type, data, dimensions⟩ => do
    byteEncodeBinary (variantEncodingByte (T.get type).typeKind data.isArray
      (decide ((dimensions.getD []).length > 0)))
    if data.isArray then
      if (T.get type).typeKind.isUnwrapped then valuesEncodeBinary depth type data
      else variantEncodeBinaryWrapExtensionObject depth type data
    else if (T.get type).typeKind.isUnwrapped then
      encodeWithExchangeBuffer (encodeBinaryJumpTable depth (T.get type).typeKind type data)
    else
      -- the loop of `Variant_encodeBinaryWrapExtensionObject` runs once
      encodeWithExchangeBuffer do
        extensionObjectHeaderEncodeBinary T type
          (calcSizeBinaryJumpTable T (T.get type).typeKind type data)
        encodeWithExchangeBuffer (encodeBinaryJumpTable depth (T.get type).typeKind type data)
    encodeIf (data.isArray && decide ((dimensions.getD []).length > 0))
      (dimensionsEncodeBinary T (dimensions.getD []))
  termination_by structural src => src

/-- The fields after the Variant are encoded even if one of them fails. -/
def dataValueEncodeBinary (depth : Nat) : DataValueOf Value → Enc
  | ⟨hasValue, hasStatus, hasSourceTimestamp, hasServerTimestamp, hasSourcePicoseconds,
      hasServerPicoseconds, value, status, sourceTimestamp, sourcePicoseconds, serverTimestamp,
      serverPicoseconds⟩ => do
    byteEncodeBinary (maskBit hasValue 0x01 ||| maskBit hasStatus 0x02 |||
      maskBit hasSourceTimestamp 0x04 ||| maskBit hasServerTimestamp 0x08 |||
      maskBit hasSourcePicoseconds 0x10 ||| maskBit hasServerPicoseconds 0x20)
    encodeIf hasValue (variantEncodeBinary depth value)
    accum (encodeIf hasStatus (encodeWithExchangeBuffer (uint32EncodeBinary status))) fun _ =>
      accum (encodeIf hasSourceTimestamp
        (encodeWithExchangeBuffer (uint64EncodeBinary sourceTimestamp))) fun _ =>
      accum (encodeIf hasSourcePicoseconds
        (encodeWithExchangeBuffer (uint16EncodeBinary sourcePicoseconds))) fun _ =>
      accum (encodeIf hasServerTimestamp
        (encodeWithExchangeBuffer (uint64EncodeBinary serverTimestamp))) fun _ =>
      encodeIf hasServerPicoseconds
        (encodeWithExchangeBuffer (uint16EncodeBinary serverPicoseconds))
  termination_by structural src => src

def extensionObjectEncodeBinary (depth : Nat) : ExtensionObjectOf Value → Enc
  | .encoded typeId .noBody => do
    nodeIdEncodeBinary T typeId
    encodeWithExchangeBuffer (byteEncodeBinary 0)
  | .encoded typeId (.byteString body) => do
    nodeIdEncodeBinary T typeId
    encodeWithExchangeBuffer (byteEncodeBinary 1)
    stringEncodeBinary T body
  | .encoded typeId (.xml body) => do
    nodeIdEncodeBinary T typeId
    encodeWithExchangeBuffer (byteEncodeBinary 2)
    stringEncodeBinary T body
  | .decoded type data =>
    if data.isNull then fail badEncodingError
    else do
      extensionObjectHeaderEncodeBinary T type
        (calcSizeBinaryJumpTable T (T.get type).typeKind type data)
      encodeWithExchangeBuffer (encodeBinaryJumpTable depth (T.get type).typeKind type data)
  termination_by structural src => src

/-- `Variant_encodeBinaryWrapExtensionObject` for an array. The length of a NULL array is
written as 0. -/
def variantEncodeBinaryWrapExtensionObject (depth : Nat) (type : DataTypeRef) : Value → Enc
  | .null => uint32EncodeBinary 0
  | .array xs =>
    if xs.length > int32Max then fail badEncodingError
    else do
      uint32EncodeBinary (UInt32.ofNat xs.length)
      wrappedElementsEncodeBinary depth type xs
  | _ => fault
  termination_by structural data => data

/-- The loop of `Variant_encodeBinaryWrapExtensionObject`. -/
def wrappedElementsEncodeBinary (depth : Nat) (type : DataTypeRef) : List Value → Enc
  | [] => pure ()
  | x :: xs => do
    encodeWithExchangeBuffer do
      extensionObjectHeaderEncodeBinary T type
        (calcSizeBinaryJumpTable T (T.get type).typeKind type x)
      encodeWithExchangeBuffer (encodeBinaryJumpTable depth (T.get type).typeKind type x)
    wrappedElementsEncodeBinary depth type xs
  termination_by structural xs => xs

/-- `Array_encodeBinary(data, length, type, ctx)` -/
def valuesEncodeBinary (depth : Nat) (type : DataTypeRef) : Value → Enc
  | .array xs =>
    arrayEncodeBinary (T.get type) (some xs.length)
      (arrayMemory (T.get type).memSize Value.memory xs)
      (elementsEncodeBinary depth (T.get type).typeKind type xs)
  | .null => arrayEncodeBinary (T.get type) none none (pure ())
  | _ => fault
  termination_by structural data => data

/-- `Array_encodeBinaryComplex` -/
def elementsEncodeBinary (depth : Nat) (kind : DataTypeKind) (type : DataTypeRef) :
    List Value → Enc
  | [] => pure ()
  | x :: xs => do
    encodeWithExchangeBuffer (encodeBinaryJumpTable depth kind type x)
    elementsEncodeBinary depth kind type xs
  termination_by structural xs => xs

/-- The member loop of `encodeBinaryStruct`, for a structure of type `owner`. -/
def encodeBinaryStruct (depth : Nat) (owner : DataTypeRef) (members : List DataTypeMember) :
    List Value → Enc
  | [] => if members.isEmpty then pure () else fault
  | x :: xs =>
    match members with
    | [] => fault
    | m :: members => do
      if m.isArray then valuesEncodeBinary depth (DataTypes.memberType owner m) x
      else encodeWithExchangeBuffer (encodeBinaryJumpTable depth
        (T.get (DataTypes.memberType owner m)).typeKind (DataTypes.memberType owner m) x)
      encodeBinaryStruct depth owner members xs
  termination_by structural xs => xs

/-- The member loop of `encodeBinaryStructWithOptFields`. -/
def encodeBinaryStructWithOptFields (depth : Nat) (owner : DataTypeRef)
    (members : List DataTypeMember) : List Value → Enc
  | [] => if members.isEmpty then pure () else fault
  | x :: xs =>
    match members with
    | [] => fault
    | m :: members => do
      if m.isOptional && x.isNull then pure ()
      else if m.isArray then valuesEncodeBinary depth (DataTypes.memberType owner m) x
      else encodeWithExchangeBuffer (encodeBinaryJumpTable depth
        (T.get (DataTypes.memberType owner m)).typeKind (DataTypes.memberType owner m) x)
      encodeBinaryStructWithOptFields depth owner members xs
  termination_by structural xs => xs

end

/-! ## Entry points -/

def uaByteEncodeBinary (v : UInt8) : Enc := encodeWithExchangeBuffer (byteEncodeBinary v)

def uaUInt16EncodeBinary (v : UInt16) : Enc := encodeWithExchangeBuffer (uint16EncodeBinary v)

def uaUInt32EncodeBinary (v : UInt32) : Enc := encodeWithExchangeBuffer (uint32EncodeBinary v)

def uaUInt64EncodeBinary (v : UInt64) : Enc := encodeWithExchangeBuffer (uint64EncodeBinary v)

def uaStringEncodeBinary (s : UAString) : Enc := encodeWithExchangeBuffer (stringEncodeBinary T s)

def uaGuidEncodeBinary (g : Guid) : Enc := encodeWithExchangeBuffer (guidEncodeBinary g)

def uaVariantEncodeBinary (v : Variant) : Enc :=
  encodeWithExchangeBuffer (variantEncodeBinary T 0 v)

def uaDataValueEncodeBinary (d : DataValue) : Enc :=
  encodeWithExchangeBuffer (dataValueEncodeBinary T 0 d)

end OpenPubSub
