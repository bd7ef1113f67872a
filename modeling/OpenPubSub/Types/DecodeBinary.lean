import Mathlib.Algebra.Ring.Int.Defs
import OpenPubSub.Lib.Routine
import OpenPubSub.Lib.Bytes
import OpenPubSub.Types.DataTypes

/-!
# Binary decoding of values

The decoding half of `ua_types_encoding_binary.c`, one definition per C
function, on a 64-bit little-endian platform with IEEE 754 floating point (the
integer and floating point decoders are then plain copies).

- `Ctx` is the cursor: the position in the message and the nesting counter. The
  end of the message is the length of `src`. A copy out of the message that is
  not covered by it is `fault`.
- `need`/`peek`/`skip` are the three things a primitive does: check, copy,
  advance. The ExtensionObject decoders `skip` without a `need`.
- `Array_decodeBinary` is generic in what an element is; it serves strings,
  array dimensions and arrays of values.
- The jump table is an open recursion: the decoders of nested types take the
  table as the argument `jump`, and `decodeBinaryJumpTable` ties the knot by
  fuel. `decodeFuel` is more than any message can use.
- `UA_decodeBinary` is `uaDecodeBinary`: a fresh cursor at the offset, which moves
  only when decoding succeeds.

Allocations succeed. What a failing decoder has already stored in its out
parameter is not modelled at this level, because `UA_decodeBinary` clears it.
-/

namespace OpenPubSub

open Routine

/-! ## The cursor -/

/-- `UA_ENCODING_MAX_RECURSION` -/
def encodingMaxRecursion : Nat := 100

/-- `Ctx`: position and nesting counter. -/
structure Ctx where
  pos : Nat
  depth : Nat
  deriving DecidableEq

/-- A decoder of `α`. -/
abbrev Dec (α : Type) := Routine ErrorCode Ctx α

/-- The decoder jump table. -/
abbrev Jump := DataTypeKind → DataTypeRef → Dec Value

section Cursor

variable (src : Bytes)

/-- `if(ctx->pos + n > ctx->end) return UA_STATUSCODE_BADDECODINGERROR;` -/
def need (n : Nat) : Dec Unit := fun c =>
  if c.pos + n ≤ src.length then .done () c else .fail badDecodingError c

/-- `memcpy(dst, ctx->pos, n)` -/
def peek (n : Nat) : Dec Bytes := fun c =>
  if c.pos + n ≤ src.length then .done ((src.drop c.pos).take n) c else .fault

/-- `ctx->pos += n` -/
def skip (n : Nat) : Dec Unit := modify fun c => { c with pos := c.pos + n }

/-- `if(ctx->depth > UA_ENCODING_MAX_RECURSION) return UA_STATUSCODE_BADENCODINGERROR;` -/
def checkRecursion : Dec Unit := fun c =>
  if encodingMaxRecursion < c.depth then .fail badEncodingError c else .done () c

/-- `ctx->depth++; ret = x(); ctx->depth--;` -/
def deeper {α : Type} (x : Dec α) : Dec α := fun c =>
  match x { c with depth := c.depth + 1 } with
  | .done a t => .done a { t with depth := t.depth - 1 }
  | .fail e t => .fail e { t with depth := t.depth - 1 }
  | .fault => .fault

/-! ## Primitives -/

/-- Look at the next byte without advancing. -/
def peekByte : Dec UInt8 := do
  need src 1
  (fun bytes => UInt8.ofNat (ofLE bytes)) <$> peek src 1

/-- Check, copy and advance: the body of the integer decoders. -/
def fixedDecodeBinary (n : Nat) : Dec Bytes := do
  need src n
  let bytes ← peek src n
  skip n
  pure bytes

def byteDecodeBinary : Dec UInt8 :=
  (fun bytes => UInt8.ofNat (ofLE bytes)) <$> fixedDecodeBinary src 1

def uint16DecodeBinary : Dec UInt16 :=
  (fun bytes => UInt16.ofNat (ofLE bytes)) <$> fixedDecodeBinary src 2

def uint32DecodeBinary : Dec UInt32 :=
  (fun bytes => UInt32.ofNat (ofLE bytes)) <$> fixedDecodeBinary src 4

def uint64DecodeBinary : Dec UInt64 :=
  (fun bytes => UInt64.ofNat (ofLE bytes)) <$> fixedDecodeBinary src 8

/-- `*dst = (*ctx->pos > 0) ? true : false` -/
def booleanDecodeBinary : Dec UInt8 :=
  (fun b => if b > 0 then 1 else 0) <$> byteDecodeBinary src

/-! ## Arrays -/

/-- The 32 bits of an `i32`, as the number they stand for. -/
def signedLength (w : UInt32) : Int :=
  if w.toNat < 2 ^ 31 then w.toNat else (w.toNat : Int) - 2 ^ 32

variable (T : DataTypes)

/-- `Array_decodeBinary` for elements of the entry `type` of the type table.
`ofMemory` reads an element out of its bytes in memory, `element` decodes one. -/
def arrayDecodeBinary {α : Type} (type : DataType) (ofMemory : Bytes → α)
    (element : Dec α) : Dec (Option (List α)) := do
  let length ← uint32DecodeBinary src
  if signedLength length ≤ 0 then
    pure (if signedLength length < 0 then none else some [])
  else
    -- filter out arrays that can obviously not be decoded
    need src (type.memSize * length.toNat / 32)
    if type.overlayable then
      (fun bytes => some ((chunks type.memSize length.toNat bytes).map ofMemory)) <$>
        fixedDecodeBinary src (type.memSize * length.toNat)
    else
      some <$> times element length.toNat

/-! ## Built-in types -/

/-- A one-byte object in memory. -/
def byteOfMemory (bytes : Bytes) : UInt8 := UInt8.ofNat (ofLE bytes)

/-- A four-byte object in memory. -/
def uint32OfMemory (bytes : Bytes) : UInt32 := UInt32.ofNat (ofLE bytes)

def stringDecodeBinary : Dec UAString :=
  arrayDecodeBinary src (T.get (DataTypes.builtin .byte)) byteOfMemory (byteDecodeBinary src)

/-- An `Int32` array: the dimensions of a Variant. -/
def dimensionsDecodeBinary : Dec (Option (List UInt32)) :=
  arrayDecodeBinary src (T.get (DataTypes.builtin .int32)) uint32OfMemory
    (uint32DecodeBinary src)

def guidDecodeBinary : Dec Guid :=
  accumGuard
    (accum (uint32DecodeBinary src) fun data1 =>
      accum (uint16DecodeBinary src) fun data2 =>
        accum (uint16DecodeBinary src) fun data3 => pure (data1, data2, data3))
    (need src 8)
    fun (data1, data2, data3) =>
      (fun data4 => ⟨data1, data2, data3, UInt64.ofNat (ofLE data4)⟩) <$> fixedDecodeBinary src 8

/-- `UA_EXPANDEDNODEID_SERVERINDEX_FLAG` -/
def expandedNodeIdServerIndexFlag : UInt8 := 0x40

/-- `UA_EXPANDEDNODEID_NAMESPACEURI_FLAG` -/
def expandedNodeIdNamespaceUriFlag : UInt8 := 0x80

/-- The encoding byte without the bits used only for ExpandedNodeIds. -/
def nodeIdForm (encodingByte : UInt8) : Nat :=
  (encodingByte &&&
    ~~~ (expandedNodeIdServerIndexFlag ||| expandedNodeIdNamespaceUriFlag)).toNat

def nodeIdDecodeBinary : Dec NodeId := do
  let encodingByte ← byteDecodeBinary src
  match nodeIdForm encodingByte with
  | 0 => (fun id => ⟨0, .numeric id.toUInt32⟩) <$> byteDecodeBinary src
  | 1 =>
    accum (byteDecodeBinary src) fun ns =>
      accum (uint16DecodeBinary src) fun id => pure ⟨ns.toUInt16, .numeric id.toUInt32⟩
  | 2 =>
    accum (uint16DecodeBinary src) fun ns =>
      accum (uint32DecodeBinary src) fun id => pure ⟨ns, .numeric id⟩
  | 3 =>
    accum (uint16DecodeBinary src) fun ns =>
      accum (stringDecodeBinary src T) fun id => pure ⟨ns, .string id⟩
  | 4 =>
    accum (uint16DecodeBinary src) fun ns =>
      accum (guidDecodeBinary src) fun id => pure ⟨ns, .guid id⟩
  | 5 =>
    accum (uint16DecodeBinary src) fun ns =>
      accum (stringDecodeBinary src T) fun id => pure ⟨ns, .byteString id⟩
  | _ => fail badInternalError

def expandedNodeIdDecodeBinary : Dec ExpandedNodeId := do
  -- the encoding mask is read in place, and once more by the NodeId
  let encoding ← peekByte src
  let hasUri := encoding &&& expandedNodeIdNamespaceUriFlag != 0
  accum (nodeIdDecodeBinary src T) fun nodeId =>
    accum (whenSet hasUri (stringDecodeBinary src T)) fun uri =>
      accum (whenSet (encoding &&& expandedNodeIdServerIndexFlag != 0)
        (uint32DecodeBinary src)) fun serverIndex =>
        pure ⟨if hasUri then { nodeId with namespaceIndex := 0 } else nodeId, uri, serverIndex⟩

def qualifiedNameDecodeBinary : Dec QualifiedName :=
  accum (uint16DecodeBinary src) fun namespaceIndex =>
    accum (stringDecodeBinary src T) fun name => pure ⟨namespaceIndex, name⟩

/-- `UA_LOCALIZEDTEXT_ENCODINGMASKTYPE_LOCALE` -/
def localizedTextMaskLocale : UInt8 := 0x01

/-- `UA_LOCALIZEDTEXT_ENCODINGMASKTYPE_TEXT` -/
def localizedTextMaskText : UInt8 := 0x02

def localizedTextDecodeBinary : Dec LocalizedText :=
  accum (byteDecodeBinary src) fun encoding =>
    accum (whenSet (encoding &&& localizedTextMaskLocale != 0) (stringDecodeBinary src T))
      fun locale =>
    accum (whenSet (encoding &&& localizedTextMaskText != 0) (stringDecodeBinary src T))
      fun text => pure ⟨locale, text⟩

/-- `if(mask & bit) { dst->hasX = true; ret |= x; }` -/
def optional {α : Type} (mask bit : UInt8) (x : Dec α) : Dec (Option α) :=
  whenSet (mask &&& bit != 0) (some <$> x)

/-- `DiagnosticInfo_decodeBinary` recurses into itself; the recursion is on the
fuel. -/
def diagnosticInfoDecodeBinary : Nat → Dec DiagnosticInfo
  | 0 => fault
  | fuel + 1 => do
    let mask ← byteDecodeBinary src
    accumGuard
      (accum (optional mask 0x01 (uint32DecodeBinary src)) fun symbolicId =>
        accum (optional mask 0x02 (uint32DecodeBinary src)) fun namespaceUri =>
        accum (optional mask 0x04 (uint32DecodeBinary src)) fun localizedText =>
        accum (optional mask 0x08 (uint32DecodeBinary src)) fun locale =>
        accum (optional mask 0x10 (stringDecodeBinary src T)) fun additionalInfo =>
        accum (optional mask 0x20 (uint32DecodeBinary src)) fun innerStatusCode =>
          pure (DiagnosticInfo.mk symbolicId namespaceUri localizedText locale
            additionalInfo innerStatusCode))
      (whenSet (mask &&& 0x40 != 0) checkRecursion)
      fun info =>
        accum (optional mask 0x40 (deeper (diagnosticInfoDecodeBinary fuel))) fun inner =>
          pure (info inner)

/-! ## Nested types -/

/-- An array of objects of type `type`, through the jump table. -/
def valuesDecodeBinary (jump : Jump) (type : DataTypeRef) : Dec Value :=
  (fun elements => elements.elim .null .array) <$>
    arrayDecodeBinary src (T.get type) (Value.ofMemory (T.get type).typeKind)
      (jump (T.get type).typeKind type)

/-- A known type is decoded in place, after jumping over the length field. -/
def extensionObjectDecodeBinaryContent (jump : Jump) (typeId : NodeId) :
    Dec ExtensionObject :=
  match T.findDataTypeByBinary typeId with
  | none => (fun body => .encoded typeId (.byteString body)) <$> stringDecodeBinary src T
  | some type => do
    skip 4
    (.decoded type) <$> jump (T.get type).typeKind type

def extensionObjectDecodeBinary (jump : Jump) : Dec ExtensionObject := do
  let (binTypeId, encoding) ←
    accum (nodeIdDecodeBinary src T) fun binTypeId =>
      accum (byteDecodeBinary src) fun encoding => pure (binTypeId, encoding)
  match encoding.toNat with
  | 0 => pure (.encoded binTypeId .noBody)
  | 1 => extensionObjectDecodeBinaryContent src T jump binTypeId
  | 2 => (fun body => .encoded binTypeId (.xml body)) <$> stringDecodeBinary src T
  | _ => fail badDecodingError

/-- Once type and encoding are known: a structure of known type is unwrapped,
anything else is read once more from `oldPos`, as an ExtensionObject. -/
def variantDecodeBinaryUnwrapContent (jump : Jump) (oldPos : Nat) (typeId : NodeId)
    (encoding : UInt8) : Dec (DataTypeRef × Value) :=
  match if encoding = 1 then T.findDataTypeByBinary typeId else none with
  | some type => do
    skip 4
    (Prod.mk type) <$> jump (T.get type).typeKind type
  | none => do
    let type := DataTypes.builtin .extensionObject
    modify fun c => { c with pos := oldPos }
    (Prod.mk type) <$> jump (T.get type).typeKind type

def variantDecodeBinaryUnwrapExtensionObject (jump : Jump) : Dec (DataTypeRef × Value) := do
  let oldPos ← gets Ctx.pos
  let typeId ← nodeIdDecodeBinary src T
  let encoding ← byteDecodeBinary src
  variantDecodeBinaryUnwrapContent T jump oldPos typeId encoding

/-- `UA_VARIANT_ENCODINGMASKTYPE_TYPEID_MASK` -/
def variantTypeIdMask : UInt8 := 0x3F

/-- `UA_VARIANT_ENCODINGMASKTYPE_DIMENSIONS` -/
def variantDimensionsMask : UInt8 := 0x40

/-- `UA_VARIANT_ENCODINGMASKTYPE_ARRAY` -/
def variantArrayMask : UInt8 := 0x80

/-- `(encodingByte & TYPEID_MASK) - 1`, when that is the kind of a built-in type
(a masked byte of zero wraps around to no kind at all). -/
def variantTypeKind (encodingByte : UInt8) : Option DataTypeKind :=
  match (encodingByte &&& variantTypeIdMask).toNat with
  | 0 => none
  | typeKind + 1 => DataTypeKind.ofBuiltinIndex typeKind

/-- The content of a Variant of built-in kind `kind`. -/
def variantDecodeBinaryContent (jump : Jump) (kind : DataTypeKind) (isArray : Bool) :
    Dec (DataTypeRef × Value) :=
  let type := DataTypes.builtin kind
  if isArray then
    (Prod.mk type) <$> valuesDecodeBinary src T jump type
  else if kind ≠ .extensionObject then
    (Prod.mk type) <$> jump kind type
  else
    variantDecodeBinaryUnwrapExtensionObject src T jump

def variantDecodeBinary (jump : Jump) : Dec Variant := do
  let encodingByte ← byteDecodeBinary src
  if encodingByte = 0 then
    pure default
  else
    let isArray := encodingByte &&& variantArrayMask != 0
    match variantTypeKind encodingByte with
    | none => fail badDecodingError
    | some kind =>
      -- a Variant cannot contain a Variant, but an array of Variants
      if kind = .variant ∧ isArray = false then
        fail badDecodingError
      else do
        checkRecursion
        deeper <|
          accum (variantDecodeBinaryContent src T jump kind isArray) fun (type, data) =>
            accum (whenSet (isArray && encodingByte &&& variantDimensionsMask != 0)
              (dimensionsDecodeBinary src T)) fun dimensions =>
              pure ⟨some type, data, dimensions⟩

/-- `MAX_PICO_SECONDS` -/
def maxPicoSeconds : UInt16 := 9999

def clampPicoSeconds (p : UInt16) : UInt16 := if p > maxPicoSeconds then maxPicoSeconds else p

def dataValueDecodeBinary (jump : Jump) : Dec DataValue := do
  let mask ← byteDecodeBinary src
  checkRecursion
  deeper <|
    accum (whenSet (mask &&& 0x01 != 0) (variantDecodeBinary src T jump)) fun value =>
    accum (whenSet (mask &&& 0x02 != 0) (uint32DecodeBinary src)) fun status =>
    accum (whenSet (mask &&& 0x04 != 0) (uint64DecodeBinary src)) fun sourceTimestamp =>
    accum (whenSet (mask &&& 0x10 != 0) (uint16DecodeBinary src)) fun sourcePicoseconds =>
    accum (whenSet (mask &&& 0x08 != 0) (uint64DecodeBinary src)) fun serverTimestamp =>
    accum (whenSet (mask &&& 0x20 != 0) (uint16DecodeBinary src)) fun serverPicoseconds =>
      pure {
        hasValue := mask &&& 0x01 != 0
        hasStatus := mask &&& 0x02 != 0
        hasSourceTimestamp := mask &&& 0x04 != 0
        hasServerTimestamp := mask &&& 0x08 != 0
        hasSourcePicoseconds := mask &&& 0x10 != 0
        hasServerPicoseconds := mask &&& 0x20 != 0
        value := value
        status := status
        sourceTimestamp := sourceTimestamp
        sourcePicoseconds := clampPicoSeconds sourcePicoseconds
        serverTimestamp := serverTimestamp
        serverPicoseconds := clampPicoSeconds serverPicoseconds }

/-! ## Structured types -/

/-- One member that is present, of a structure of type `owner`. -/
def memberDecodeBinary (jump : Jump) (owner : DataTypeRef) (m : DataTypeMember) : Dec Value :=
  let type := DataTypes.memberType owner m
  if m.isArray then valuesDecodeBinary src T jump type
  else jump (T.get type).typeKind type

/-- The member loop of `decodeBinaryStructure`. -/
def decodeMembers (jump : Jump) (owner : DataTypeRef) : List DataTypeMember → Dec (List Value)
  | [] => pure []
  | m :: members => do
    let value ← memberDecodeBinary src T jump owner m
    let values ← decodeMembers jump owner members
    pure (value :: values)

def decodeBinaryStructure (jump : Jump) (type : DataTypeRef) : Dec (List Value) := do
  checkRecursion
  deeper (decodeMembers src T jump type (T.get type).members)

/-- Bit `o` of the encoding mask tells whether an optional member is contained. -/
def optMemberDecodeBinary (jump : Jump) (owner : DataTypeRef) (encodingMask : UInt32) (o : Nat)
    (m : DataTypeMember) : Dec Value :=
  if m.isOptional && !encodingMask.toNat.testBit o then pure .null
  else memberDecodeBinary src T jump owner m

/-- The member loop of `decodeBinaryStructureWithOptFields`; `o` counts the
optional members seen so far. -/
def decodeOptMembers (jump : Jump) (owner : DataTypeRef) (encodingMask : UInt32) :
    Nat → List DataTypeMember → Dec (List Value)
  | _, [] => pure []
  | o, m :: members => do
    let value ← optMemberDecodeBinary src T jump owner encodingMask o m
    let values ← decodeOptMembers jump owner encodingMask
      (if m.isOptional then o + 1 else o) members
    pure (value :: values)

def decodeBinaryStructureWithOptFields (jump : Jump) (type : DataTypeRef) :
    Dec (List Value) := do
  checkRecursion
  deeper do
    let encodingMask ← uint32DecodeBinary src
    decodeOptMembers src T jump type encodingMask 0 (T.get type).members

/-- The recursion limit is checked first but the counter goes up for the selected
member only. -/
def decodeBinaryUnion (jump : Jump) (type : DataTypeRef) : Dec Value := do
  checkRecursion
  let selection ← uint32DecodeBinary src
  match selection.toNat with
  | 0 => pure (.union selection .null)
  | i + 1 =>
    match (T.get type).members[i]? with
    | none => fail badDecodingError
    | some m =>
      let memberType := DataTypes.memberType type m
      (Value.union selection) <$> deeper (jump (T.get memberType).typeKind memberType)

/-! ## The jump table -/

/-- `decodeBinaryJumpTable[kind](dst, type, ctx)` -/
def decodeBinaryJumpTable : Nat → Jump
  | 0, _, _ => fault
  | fuel + 1, kind, type =>
    match kind with
    | .boolean => .byte <$> booleanDecodeBinary src
    | .sByte | .byte => .byte <$> byteDecodeBinary src
    | .int16 | .uint16 => .uint16 <$> uint16DecodeBinary src
    | .int32 | .uint32 | .float | .statusCode | .enum => .uint32 <$> uint32DecodeBinary src
    | .int64 | .uint64 | .double | .dateTime => .uint64 <$> uint64DecodeBinary src
    | .string | .byteString | .xmlElement => .string <$> stringDecodeBinary src T
    | .guid => .guid <$> guidDecodeBinary src
    | .nodeId => .nodeId <$> nodeIdDecodeBinary src T
    | .expandedNodeId => .expandedNodeId <$> expandedNodeIdDecodeBinary src T
    | .qualifiedName => .qualifiedName <$> qualifiedNameDecodeBinary src T
    | .localizedText => .localizedText <$> localizedTextDecodeBinary src T
    | .extensionObject =>
      .extensionObject <$> extensionObjectDecodeBinary src T (decodeBinaryJumpTable fuel)
    | .dataValue => .dataValue <$> dataValueDecodeBinary src T (decodeBinaryJumpTable fuel)
    | .variant => .variant <$> variantDecodeBinary src T (decodeBinaryJumpTable fuel)
    | .diagnosticInfo => .diagnosticInfo <$> diagnosticInfoDecodeBinary src T (fuel + 1)
    | .struct => .struct <$> decodeBinaryStructure src T (decodeBinaryJumpTable fuel) type
    | .optStruct =>
      .optStruct <$> decodeBinaryStructureWithOptFields src T (decodeBinaryJumpTable fuel) type
    | .union => decodeBinaryUnion src T (decodeBinaryJumpTable fuel) type
    | .decimal | .bitfieldCluster => fail badNotImplemented

/-- Fuel that no message exhausts: a nested call has consumed a byte or raised
the nesting counter. -/
def decodeFuel : Nat := src.length + 102

end Cursor

/-! ## Entry points -/

/-- `UA_decodeBinary`: the offset moves only when decoding succeeds. -/
def uaDecodeBinary {α : Type} (x : Dec α) : Routine ErrorCode Nat α := fun offset =>
  match x ⟨offset, 0⟩ with
  | .done a c => .done a c.pos
  | .fail e _ => .fail e offset
  | .fault => .fault

variable (src : Bytes) (T : DataTypes)

def uaByteDecodeBinary : Routine ErrorCode Nat UInt8 := uaDecodeBinary (byteDecodeBinary src)

def uaUInt16DecodeBinary : Routine ErrorCode Nat UInt16 :=
  uaDecodeBinary (uint16DecodeBinary src)

def uaUInt32DecodeBinary : Routine ErrorCode Nat UInt32 :=
  uaDecodeBinary (uint32DecodeBinary src)

def uaUInt64DecodeBinary : Routine ErrorCode Nat UInt64 :=
  uaDecodeBinary (uint64DecodeBinary src)

def uaStringDecodeBinary : Routine ErrorCode Nat UAString :=
  uaDecodeBinary (stringDecodeBinary src T)

def uaGuidDecodeBinary : Routine ErrorCode Nat Guid := uaDecodeBinary (guidDecodeBinary src)

/-- `UA_Variant_decodeBinary`, which passes no custom types. -/
def uaVariantDecodeBinary : Routine ErrorCode Nat Variant :=
  uaDecodeBinary (variantDecodeBinary src T.withoutCustomTypes
    (decodeBinaryJumpTable src T.withoutCustomTypes (decodeFuel src)))

/-- `UA_DataValue_decodeBinary`, which passes none either. -/
def uaDataValueDecodeBinary : Routine ErrorCode Nat DataValue :=
  uaDecodeBinary (dataValueDecodeBinary src T.withoutCustomTypes
    (decodeBinaryJumpTable src T.withoutCustomTypes (decodeFuel src)))

end OpenPubSub
