import OpenPubSub.Lib.Bytes

/-!
# Data types and values of the binary protocol

The data model shared by encoder, decoder and size calculation
(`ua_types_encoding_binary.c`).

- Status codes: `StatusCode` is the 32-bit word the C code accumulates with
  `|=`; an `ErrorCode` is one that is not GOOD, so that "returns an error" and
  "returns GOOD" cannot be confused.
- The type table `UA_TYPES` is generated at build time and not part of the
  tree. `DataTypes` is a table as the code uses it: arrays of type
  descriptions, addressed by `DataTypeRef` (the pointer `&UA_TYPES[i]`), with
  the one fact the code builds on as a field, that the first 25 entries are the
  built-in types in the order of their kinds.
- `Value` is an object as reachable through a `void*`: the member types of the
  built-in types, structures and unions as trees, `null` for a NULL pointer,
  `array []` for `UA_EMPTY_ARRAY_SENTINEL`.

Pointers are modelled by what they point to: a `UAString` is `none` for NULL
data, `some []` for the empty-array sentinel. Timestamps and floating point
numbers are their 64- and 32-bit patterns, as the wire format treats them.
-/

namespace OpenPubSub

/-! ## Status codes -/

/-- `UA_StatusCode`. -/
abbrev StatusCode := UInt32

def good : StatusCode := 0x00000000

/-- A status other than GOOD. -/
def ErrorCode := { code : StatusCode // code ≠ good }

instance : DecidableEq ErrorCode := inferInstanceAs (DecidableEq { code // code ≠ good })

theorem or_ne_good {a b : StatusCode} (h : a ≠ good) : a ||| b ≠ good := by
  intro hab
  have h0 : a.toNat ||| b.toNat = 0 := by
    rw [← UInt32.toNat_or, hab]
    rfl
  exact h (UInt32.toNat_inj.mp (Nat.or_eq_zero_iff.mp h0).1)

/-- `ret |= code` on two errors. -/
instance : OrOp ErrorCode where
  or a b := ⟨a.1 ||| b.1, or_ne_good a.2⟩

def badInternalError : ErrorCode := ⟨0x80020000, by decide⟩
def badEncodingError : ErrorCode := ⟨0x80060000, by decide⟩
def badDecodingError : ErrorCode := ⟨0x80070000, by decide⟩
def badEncodingLimitsExceeded : ErrorCode := ⟨0x80080000, by decide⟩
def badNotSupported : ErrorCode := ⟨0x803D0000, by decide⟩
def badNotImplemented : ErrorCode := ⟨0x80400000, by decide⟩

/-! ## Built-in types -/

/-- `UA_ByteString` contents. -/
abbrev Bytes := List UInt8

/-- `UA_String`, `UA_ByteString`, `UA_XmlElement`: `none` is NULL data,
`some []` the empty-array sentinel. -/
abbrev UAString := Option Bytes

/-- `UA_Guid`; the eight bytes of `data4` are kept as one little-endian word. -/
structure Guid where
  data1 : UInt32
  data2 : UInt16
  data3 : UInt16
  data4 : UInt64
  deriving DecidableEq, Inhabited

/-- A `UA_Guid` as it lies in memory. -/
def Guid.ofMemory (bytes : Bytes) : Guid where
  data1 := UInt32.ofNat (ofLE (bytes.take 4))
  data2 := UInt16.ofNat (ofLE ((bytes.drop 4).take 2))
  data3 := UInt16.ofNat (ofLE ((bytes.drop 6).take 2))
  data4 := UInt64.ofNat (ofLE ((bytes.drop 8).take 8))

/-- The identifier union of a `UA_NodeId`, tagged by `identifierType`. -/
inductive NodeIdIdentifier where
  | numeric (v : UInt32)
  | string (s : UAString)
  | guid (g : Guid)
  | byteString (s : UAString)
  deriving DecidableEq

instance : Inhabited NodeIdIdentifier := ⟨.numeric 0⟩

/-- `UA_NodeId`. -/
structure NodeId where
  namespaceIndex : UInt16
  identifier : NodeIdIdentifier
  deriving DecidableEq, Inhabited

/-- `UA_ExpandedNodeId`. -/
structure ExpandedNodeId where
  nodeId : NodeId
  namespaceUri : UAString
  serverIndex : UInt32
  deriving DecidableEq, Inhabited

/-- `UA_QualifiedName`. -/
structure QualifiedName where
  namespaceIndex : UInt16
  name : UAString
  deriving DecidableEq, Inhabited

/-- `UA_LocalizedText`. -/
structure LocalizedText where
  locale : UAString
  text : UAString
  deriving DecidableEq, Inhabited

/-- `UA_DiagnosticInfo`: an optional member and its `has…` flag are one
`Option`. -/
inductive DiagnosticInfo where
  | mk (symbolicId namespaceUri localizedText locale : Option UInt32)
      (additionalInfo : Option UAString) (innerStatusCode : Option StatusCode)
      (innerDiagnosticInfo : Option DiagnosticInfo)

instance : Inhabited DiagnosticInfo := ⟨.mk none none none none none none none⟩

/-! ## Type descriptions -/

/-- `UA_DataTypeKind`, numbered in the order of declaration (the order of the
jump tables). -/
inductive DataTypeKind where
  | boolean | sByte | byte | int16 | uint16 | int32 | uint32 | int64 | uint64
  | float | double | string | dateTime | guid | byteString | xmlElement | nodeId
  | expandedNodeId | statusCode | qualifiedName | localizedText | extensionObject
  | dataValue | variant | diagnosticInfo | decimal | enum | struct | optStruct
  | union | bitfieldCluster
  deriving DecidableEq, Repr, Inhabited

namespace DataTypeKind

/-- All kinds, in the order of the jump tables. -/
def all : List DataTypeKind :=
  [boolean, sByte, byte, int16, uint16, int32, uint32, int64, uint64, float, double,
    string, dateTime, guid, byteString, xmlElement, nodeId, expandedNodeId, statusCode,
    qualifiedName, localizedText, extensionObject, dataValue, variant, diagnosticInfo,
    decimal, enum, struct, optStruct, union, bitfieldCluster]

/-- The enumerator's number. -/
def index (k : DataTypeKind) : Nat := k.ctorIdx

/-- `typeKind <= UA_DATATYPEKIND_DIAGNOSTICINFO`. -/
def isBuiltin (k : DataTypeKind) : Bool := k.index ≤ 24

/-- The kind of number `n`, if it is a built-in one. -/
def ofBuiltinIndex (n : Nat) : Option DataTypeKind :=
  if n ≤ 24 then all[n]? else none

theorem all_index (k : DataTypeKind) : all[k.index]? = some k := by
  cases k <;> rfl

theorem ofBuiltinIndex_index {k : DataTypeKind} (h : k.isBuiltin = true) :
    ofBuiltinIndex k.index = some k := by
  have hle : k.index ≤ 24 := by simpa [isBuiltin] using h
  rw [ofBuiltinIndex, if_pos hle, all_index]

theorem index_of_ofBuiltinIndex {n : Nat} {k : DataTypeKind}
    (h : ofBuiltinIndex n = some k) : k.index = n ∧ k.isBuiltin = true := by
  unfold ofBuiltinIndex at h
  split at h
  · rename_i hn
    have key : ∀ m : Fin 25, ∀ k ∈ all[m.val]?, k.index = m.val ∧ k.isBuiltin = true := by
      decide
    exact key ⟨n, by omega⟩ k h
  · cases h

end DataTypeKind

/-- A `const UA_DataType*`: entry `index` of `UA_TYPES` (`array = 0`) or of the
`array`-th custom type array. -/
structure DataTypeRef where
  array : Nat
  index : Nat
  deriving DecidableEq, Inhabited

/-- `UA_DataTypeMember`, without the memory layout. -/
structure DataTypeMember where
  memberTypeIndex : Nat
  namespaceZero : Bool
  isArray : Bool
  isOptional : Bool

/-- `UA_DataType`, without the memory layout of its members. -/
structure DataType where
  typeId : NodeId
  binaryEncodingId : UInt32
  memSize : Nat
  typeKind : DataTypeKind
  overlayable : Bool
  members : List DataTypeMember

/-- `UA_TYPES` and the custom type arrays. The first 25 entries of `UA_TYPES`
are the built-in types. -/
structure DataTypes where
  types : Nat → Nat → DataType
  typesSize : Nat → Nat
  customArrays : Nat
  builtin_kind : ∀ k : DataTypeKind, k.isBuiltin = true → (types 0 k.index).typeKind = k

namespace DataTypes

/-- Dereference a type pointer. -/
def get (T : DataTypes) (r : DataTypeRef) : DataType := T.types r.array r.index

/-- `&UA_TYPES[UA_TYPES_…]` of a built-in type. -/
def builtin (k : DataTypeKind) : DataTypeRef := ⟨0, k.index⟩

theorem get_builtin (T : DataTypes) {k : DataTypeKind} (h : k.isBuiltin = true) :
    (T.get (builtin k)).typeKind = k := T.builtin_kind k h

/-- `&typelists[!m->namespaceZero][m->memberTypeIndex]`, for a member of a type
from the array of `r`. -/
def memberType (r : DataTypeRef) (m : DataTypeMember) : DataTypeRef :=
  ⟨if m.namespaceZero then 0 else r.array, m.memberTypeIndex⟩

/-- Does entry `r` have the encoding id `numeric` in namespace `ns`? -/
def encodesAs (T : DataTypes) (ns : UInt16) (numeric : UInt32) (r : DataTypeRef) : Bool :=
  (T.get r).binaryEncodingId == numeric && (T.get r).typeId.namespaceIndex == ns

/-- `UA_findDataTypeByBinaryInternal`: only numeric ids are looked up, in
`UA_TYPES` first and then in the custom arrays in order. -/
def findDataTypeByBinary (T : DataTypes) (typeId : NodeId) : Option DataTypeRef :=
  match typeId.identifier with
  | .numeric numeric =>
    (List.range (T.customArrays + 1)).findSome? fun a =>
      ((List.range (T.typesSize a)).map fun i => DataTypeRef.mk a i).find?
        (T.encodesAs typeId.namespaceIndex numeric)
  | _ => none

/-- The table where `customTypes` is NULL: only `UA_TYPES` is looked up. -/
def withoutCustomTypes (T : DataTypes) : DataTypes := { T with customArrays := 0 }

@[simp] theorem withoutCustomTypes_get (T : DataTypes) : T.withoutCustomTypes.get = T.get := rfl

theorem withoutCustomTypes_eq {T : DataTypes} (h : T.customArrays = 0) :
    T.withoutCustomTypes = T := by
  cases T
  cases h
  rfl

end DataTypes

/-- `sizeof` of the built-in types on a 64-bit platform. -/
def builtinMemSize (kind : DataTypeKind) : Nat :=
  match kind with
  | .boolean | .sByte | .byte => 1
  | .int16 | .uint16 => 2
  | .int32 | .uint32 | .float | .statusCode => 4
  | .int64 | .uint64 | .double | .dateTime => 8
  | .string | .byteString | .xmlElement | .guid => 16
  | .nodeId | .qualifiedName => 24
  | .localizedText => 32
  | .expandedNodeId | .extensionObject | .variant => 48
  | .diagnosticInfo => 56
  | .dataValue => 80
  | _ => 0

/-- The kinds whose objects in memory are their encoding, on a little-endian
platform. -/
def DataTypeKind.overlayable (kind : DataTypeKind) : Bool :=
  match kind with
  | .boolean | .sByte | .byte | .int16 | .uint16 | .int32 | .uint32 | .int64 | .uint64 | .float
  | .double | .dateTime | .guid | .statusCode => true
  | _ => false

/-- The built-in part of `UA_TYPES`, without any structure. -/
def builtinTypes : DataTypes where
  types _ i :=
    let kind := (DataTypeKind.ofBuiltinIndex i).getD .boolean
    { typeId := ⟨0, .numeric (UInt32.ofNat (i + 1))⟩
      binaryEncodingId := 0
      memSize := builtinMemSize kind
      typeKind := kind
      overlayable := kind.overlayable
      members := [] }
  typesSize _ := 25
  customArrays := 0
  builtin_kind k h := by simp only [DataTypeKind.ofBuiltinIndex_index h, Option.getD_some]

/-- A union of a Byte and a Double. -/
def levelType : DataType where
  typeId := ⟨1, .numeric 5010⟩
  binaryEncodingId := 5011
  memSize := 16
  typeKind := .union
  overlayable := false
  members := [⟨2, true, false, false⟩, ⟨10, true, false, false⟩]

/-- Such a union, a String that need not be there, and an array of UInt16. -/
def readingType : DataType where
  typeId := ⟨1, .numeric 5020⟩
  binaryEncodingId := 5021
  memSize := 40
  typeKind := .optStruct
  overlayable := false
  members := [⟨25, true, false, false⟩, ⟨11, true, false, true⟩, ⟨4, true, true, false⟩]

/-- The built-in part of `UA_TYPES`, with these two behind it. -/
def readingTypes : DataTypes where
  types a i :=
    if i = 25 then levelType else if i = 26 then readingType else builtinTypes.types a i
  typesSize _ := 27
  customArrays := 0
  builtin_kind k h := by cases k <;> first | rfl | cases h

theorem get_readingTypes (r : DataTypeRef) :
    readingTypes.get r = builtinTypes.get r ∨ readingTypes.get r = levelType ∨
      readingTypes.get r = readingType := by
  obtain ⟨a, i⟩ := r
  simp only [DataTypes.get, readingTypes]
  by_cases hlevel : i = 25
  · exact .inr (.inl (if_pos hlevel))
  · rw [if_neg hlevel]
    by_cases hreading : i = 26
    · exact .inr (.inr (if_pos hreading))
    · exact .inl (if_neg hreading)

theorem get_builtin_readingTypes {k : DataTypeKind} (h : k.isBuiltin = true) :
    readingTypes.get (DataTypes.builtin k) = builtinTypes.get (DataTypes.builtin k) := by
  cases k <;> first | rfl | cases h

/-! ## Values -/

/-- `UA_Variant` over the objects `V`: `type = none` is the empty Variant. -/
structure VariantOf (V : Type) where
  type : Option DataTypeRef
  data : V
  arrayDimensions : Option (List UInt32)

/-- `UA_DataValue` over the objects `V`. -/
structure DataValueOf (V : Type) where
  hasValue : Bool
  hasStatus : Bool
  hasSourceTimestamp : Bool
  hasServerTimestamp : Bool
  hasSourcePicoseconds : Bool
  hasServerPicoseconds : Bool
  value : VariantOf V
  status : StatusCode
  sourceTimestamp : UInt64
  sourcePicoseconds : UInt16
  serverTimestamp : UInt64
  serverPicoseconds : UInt16

/-- `UA_ExtensionObjectEncoding` of content that is still encoded. -/
inductive EncodedBody where
  | noBody
  | byteString (body : UAString)
  | xml (body : UAString)

/-- `UA_ExtensionObject` over the objects `V`. -/
inductive ExtensionObjectOf (V : Type) where
  | encoded (typeId : NodeId) (body : EncodedBody)
  | decoded (type : DataTypeRef) (data : V)

/-- An object as a `void*` reaches it. `null` is the NULL pointer, `array []`
the empty-array sentinel, `raw` an overlayable structure copied as bytes. -/
inductive Value where
  | null
  | byte (v : UInt8)
  | uint16 (v : UInt16)
  | uint32 (v : UInt32)
  | uint64 (v : UInt64)
  | string (s : UAString)
  | guid (g : Guid)
  | nodeId (n : NodeId)
  | expandedNodeId (n : ExpandedNodeId)
  | qualifiedName (n : QualifiedName)
  | localizedText (t : LocalizedText)
  | extensionObject (e : ExtensionObjectOf Value)
  | dataValue (d : DataValueOf Value)
  | variant (v : VariantOf Value)
  | diagnosticInfo (d : DiagnosticInfo)
  | raw (bytes : Bytes)
  | struct (members : List Value)
  | optStruct (members : List Value)
  | union (selection : UInt32) (member : Value)
  | array (elements : List Value)

instance : Inhabited Value := ⟨.null⟩

/-- The object of kind `kind` whose bytes in memory are `bytes`. Objects that are
copied as a whole and have structure keep their bytes. -/
def Value.ofMemory (kind : DataTypeKind) (bytes : Bytes) : Value :=
  match kind with
  | .boolean | .sByte | .byte => .byte (UInt8.ofNat (ofLE bytes))
  | .int16 | .uint16 => .uint16 (UInt16.ofNat (ofLE bytes))
  | .int32 | .uint32 | .float | .statusCode | .enum => .uint32 (UInt32.ofNat (ofLE bytes))
  | .int64 | .uint64 | .double | .dateTime => .uint64 (UInt64.ofNat (ofLE bytes))
  | .guid => .guid (Guid.ofMemory bytes)
  | _ => .raw bytes

/-- `UA_Variant`. -/
abbrev Variant := VariantOf Value

/-- `UA_DataValue`. -/
abbrev DataValue := DataValueOf Value

/-- `UA_ExtensionObject`. -/
abbrev ExtensionObject := ExtensionObjectOf Value

/-- `UA_Variant_init`. -/
instance : Inhabited Variant := ⟨⟨none, .null, none⟩⟩

/-- `UA_DataValue_init`. -/
instance : Inhabited DataValue :=
  ⟨⟨false, false, false, false, false, false, default, 0, 0, 0, 0, 0⟩⟩

instance : Inhabited ExtensionObject := ⟨.encoded default .noBody⟩

end OpenPubSub
