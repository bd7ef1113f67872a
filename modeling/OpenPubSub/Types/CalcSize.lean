import OpenPubSub.Types.DataTypes

/-!
# The size of encoded values

The size calculation of `ua_types_encoding_binary.c`, one definition per C function.
`none` stands for a read through a pointer that has no object of the expected kind
behind it; a size that is reported as 0 because the object cannot be encoded is `some 0`.

The jump table and the functions it calls recurse over the object.

For an optional member that is there, `calcSizeBinaryStructureWithOptFields` hands the
address of the pointer to the jump table, and not the pointer. `pointerCalcSizeBinary` is
what the table makes of that address.
-/

namespace OpenPubSub

/-! ## Pointers -/

/-- `data <= UA_EMPTY_ARRAY_SENTINEL`, or a positive array length. -/
def Value.isArray : Value → Bool
  | .null | .array _ => true
  | _ => false

/-- The array length that goes with a data pointer. -/
def Value.arrayLength : Value → Nat
  | .array xs => xs.length
  | _ => 0

/-- `data == NULL` -/
def Value.isNull : Value → Bool
  | .null => true
  | _ => false

/-- `type->typeKind <= UA_DATATYPEKIND_DIAGNOSTICINFO` or an enumeration: the kinds a
Variant holds without an ExtensionObject around them. -/
def DataTypeKind.isUnwrapped (kind : DataTypeKind) : Bool := kind.isBuiltin || kind == .enum

/-! ## Built-in types -/

/-- `Array_calcSizeBinary`; `content` is the sum over the elements. -/
def arrayCalcSizeBinary (type : DataType) (length : Nat) (content : Option Nat) : Option Nat :=
  if type.overlayable then some (4 + type.memSize * length) else content.map (4 + ·)

def stringCalcSizeBinary (src : UAString) : Nat := 4 + (src.getD []).length

/-- `UA_UINT16_MAX` -/
def uint16Max : Nat := 65535

/-- `UA_BYTE_MAX` -/
def byteMax : Nat := 255

def nodeIdCalcSizeBinary (src : NodeId) : Nat :=
  match src.identifier with
  | .numeric id =>
    if id.toNat > uint16Max ∨ src.namespaceIndex.toNat > byteMax then 1 + 6
    else if id.toNat > byteMax ∨ src.namespaceIndex > 0 then 1 + 3
    else 1 + 1
  | .string s | .byteString s => 1 + 2 + stringCalcSizeBinary s
  | .guid _ => 1 + 18

def expandedNodeIdCalcSizeBinary (src : ExpandedNodeId) : Nat :=
  nodeIdCalcSizeBinary src.nodeId +
    (if (src.namespaceUri.getD []).length > 0 then stringCalcSizeBinary src.namespaceUri else 0) +
    (if src.serverIndex > 0 then 4 else 0)

def qualifiedNameCalcSizeBinary (src : QualifiedName) : Nat := 2 + stringCalcSizeBinary src.name

def localizedTextCalcSizeBinary (src : LocalizedText) : Nat :=
  1 + (if src.locale.isSome then stringCalcSizeBinary src.locale else 0) +
    (if src.text.isSome then stringCalcSizeBinary src.text else 0)

/-- `s += …; s += …;` -/
def sumSizes : List (Option Nat) → Option Nat
  | [] => some 0
  | s :: rest => s.bind fun n => (sumSizes rest).map (n + ·)

@[simp] theorem sumSizes_nil : sumSizes [] = some 0 := rfl

@[simp] theorem sumSizes_cons (n : Nat) (rest : List (Option Nat)) :
    sumSizes (some n :: rest) = (sumSizes rest).map (n + ·) := rfl

/-- `if(src->has…) s += n` -/
def sizeIf (c : Bool) (n : Nat) : Nat := if c then n else 0

def diagnosticInfoCalcSizeBinary : DiagnosticInfo → Nat
  | .mk symbolicId namespaceUri localizedText locale additionalInfo innerStatusCode inner =>
    1 + sizeIf symbolicId.isSome 4 + sizeIf namespaceUri.isSome 4 + sizeIf localizedText.isSome 4 +
      sizeIf locale.isSome 4 +
      (match additionalInfo with | some s => stringCalcSizeBinary s | none => 0) +
      sizeIf innerStatusCode.isSome 4 +
      match inner with
      | some d => diagnosticInfoCalcSizeBinary d
      | none => 0

variable (T : DataTypes)

/-- The dimensions of a Variant. -/
def dimensionsCalcSizeBinary (dimensions : List UInt32) : Option Nat :=
  arrayCalcSizeBinary (T.get (DataTypes.builtin .int32)) dimensions.length
    (some (4 * dimensions.length))

/-! ## The jump table, at a pointer -/

mutual

/-- `calcSizeBinaryJumpTable[kind](&p, type)`, where `p` points to the object. A function of
fixed size does not look at what it is given, and is right. Every other one takes the pointer
and what is behind it for the object. -/
def pointerCalcSizeBinary (kind : DataTypeKind) (type : DataTypeRef) (p : Value) : Option Nat :=
  match kind, p with
  | .boolean, _ | .sByte, _ | .byte, _ => some 1
  | .int16, _ | .uint16, _ => some 2
  | .int32, _ | .uint32, _ | .float, _ | .statusCode, _ | .enum, _ => some 4
  | .int64, _ | .uint64, _ | .double, _ | .dateTime, _ => some 8
  | .guid, _ => some 16
  | .struct, .struct members => pointerCalcSizeBinaryMembers false type (T.get type).members members
  | .optStruct, .optStruct members =>
    sumSizes [some 4, pointerCalcSizeBinaryMembers true type (T.get type).members members]
  | .decimal, _ | .bitfieldCluster, _ => some 0
  | _, _ => none
  termination_by structural p

/-- The member loops there. The length of an array is read, and so is the pointer to an
optional member. -/
def pointerCalcSizeBinaryMembers (withOptFields : Bool) (owner : DataTypeRef)
    (members : List DataTypeMember) : List Value → Option Nat
  | [] => if members.isEmpty then some 0 else none
  | x :: xs =>
    match members with
    | [] => none
    | m :: members =>
      if m.isArray || (withOptFields && m.isOptional) then none
      else
        sumSizes [
          pointerCalcSizeBinary (T.get (DataTypes.memberType owner m)).typeKind
            (DataTypes.memberType owner m) x,
          pointerCalcSizeBinaryMembers withOptFields owner members xs]
  termination_by structural xs => xs

end

/-! ## The jump table -/

mutual

/-- `calcSizeBinaryJumpTable[kind](p, type)` -/
def calcSizeBinaryJumpTable (kind : DataTypeKind) (type : DataTypeRef) (p : Value) : Option Nat :=
  match kind, p with
  | .boolean, _ | .sByte, _ | .byte, _ => some 1
  | .int16, _ | .uint16, _ => some 2
  | .int32, _ | .uint32, _ | .float, _ | .statusCode, _ | .enum, _ => some 4
  | .int64, _ | .uint64, _ | .double, _ | .dateTime, _ => some 8
  | .string, .string s | .byteString, .string s | .xmlElement, .string s =>
    some (stringCalcSizeBinary s)
  | .guid, _ => some 16
  | .nodeId, .nodeId n => some (nodeIdCalcSizeBinary n)
  | .expandedNodeId, .expandedNodeId n => some (expandedNodeIdCalcSizeBinary n)
  | .qualifiedName, .qualifiedName n => some (qualifiedNameCalcSizeBinary n)
  | .localizedText, .localizedText t => some (localizedTextCalcSizeBinary t)
  | .extensionObject, .extensionObject e => extensionObjectCalcSizeBinary e
  | .dataValue, .dataValue d => dataValueCalcSizeBinary d
  | .variant, .variant v => variantCalcSizeBinary v
  | .diagnosticInfo, .diagnosticInfo d => some (diagnosticInfoCalcSizeBinary d)
  | .struct, .struct members => calcSizeBinaryStructure type (T.get type).members members
  | .optStruct, .optStruct members =>
    sumSizes [some 4, calcSizeBinaryStructureWithOptFields type (T.get type).members members]
  | .union, .union selection member =>
    match selection.toNat with
    | 0 => some (T.get (DataTypes.builtin .uint32)).memSize
    | i + 1 =>
      match (T.get type).members[i]? with
      | none => none
      | some m =>
        sumSizes [some (T.get (DataTypes.builtin .uint32)).memSize,
          calcSizeBinaryJumpTable (T.get (DataTypes.memberType type m)).typeKind
            (DataTypes.memberType type m) member]
  | .decimal, _ | .bitfieldCluster, _ => some 0
  | _, _ => none
  termination_by structural p

def variantCalcSizeBinary : VariantOf Value → Option Nat
  | ⟨none, _, _⟩ => some 1
  | ⟨some type, data, dimensions⟩ =>
    sumSizes [some 1,
      if data.isArray then valuesCalcSizeBinary type data
      else calcSizeBinaryJumpTable (T.get type).typeKind type data,
      -- NodeId, encoding byte and length of each ExtensionObject
      some (if (T.get type).typeKind.isUnwrapped then 0
        else (nodeIdCalcSizeBinary (T.get type).typeId + 1 + 4) *
          if data.isArray then data.arrayLength else 1),
      if data.isArray && decide ((dimensions.getD []).length > 0) then
        dimensionsCalcSizeBinary T (dimensions.getD [])
      else some 0]
  termination_by structural v => v

def dataValueCalcSizeBinary : DataValueOf Value → Option Nat
  | ⟨hasValue, hasStatus, hasSourceTimestamp, hasServerTimestamp, hasSourcePicoseconds,
      hasServerPicoseconds, value, _, _, _, _, _⟩ =>
    sumSizes [some 1, if hasValue then variantCalcSizeBinary value else some 0,
      some (sizeIf hasStatus 4), some (sizeIf hasSourceTimestamp 8),
      some (sizeIf hasSourcePicoseconds 2), some (sizeIf hasServerTimestamp 8),
      some (sizeIf hasServerPicoseconds 2)]
  termination_by structural d => d

def extensionObjectCalcSizeBinary : ExtensionObjectOf Value → Option Nat
  | .encoded typeId .noBody => some (1 + nodeIdCalcSizeBinary typeId)
  | .encoded typeId (.byteString body) | .encoded typeId (.xml body) =>
    some (1 + nodeIdCalcSizeBinary typeId + stringCalcSizeBinary body)
  | .decoded type data =>
    match data.isNull, (T.get type).typeId.identifier with
    | false, .numeric _ =>
      sumSizes [some (1 + nodeIdCalcSizeBinary (T.get type).typeId + 4),
        calcSizeBinaryJumpTable (T.get type).typeKind type data]
    | _, _ => some 0
  termination_by structural e => e

/-- `Array_calcSizeBinary(data, length, type)` -/
def valuesCalcSizeBinary (type : DataTypeRef) : Value → Option Nat
  | .array xs =>
    arrayCalcSizeBinary (T.get type) xs.length
      (elementsCalcSizeBinary (T.get type).typeKind type xs)
  | .null => arrayCalcSizeBinary (T.get type) 0 (some 0)
  | _ => none
  termination_by structural v => v

/-- The loop over the elements of an array. -/
def elementsCalcSizeBinary (kind : DataTypeKind) (type : DataTypeRef) : List Value → Option Nat
  | [] => some 0
  | x :: xs =>
    sumSizes [calcSizeBinaryJumpTable kind type x, elementsCalcSizeBinary kind type xs]
  termination_by structural xs => xs

/-- The member loop of `calcSizeBinaryStructure`, for a structure of type `owner`. -/
def calcSizeBinaryStructure (owner : DataTypeRef) (members : List DataTypeMember) :
    List Value → Option Nat
  | [] => if members.isEmpty then some 0 else none
  | x :: xs =>
    match members with
    | [] => none
    | m :: members =>
      sumSizes [
        if m.isArray then valuesCalcSizeBinary (DataTypes.memberType owner m) x
        else calcSizeBinaryJumpTable (T.get (DataTypes.memberType owner m)).typeKind
          (DataTypes.memberType owner m) x,
        calcSizeBinaryStructure owner members xs]
  termination_by structural xs => xs

/-- The member loop of `calcSizeBinaryStructureWithOptFields`. An array is reached through
its pointer, and a mandatory object is in place. -/
def calcSizeBinaryStructureWithOptFields (owner : DataTypeRef) (members : List DataTypeMember) :
    List Value → Option Nat
  | [] => if members.isEmpty then some 0 else none
  | x :: xs =>
    match members with
    | [] => none
    | m :: members =>
      sumSizes [
        if m.isOptional && x.isNull then some 0
        else if m.isArray then valuesCalcSizeBinary (DataTypes.memberType owner m) x
        else if m.isOptional then
          pointerCalcSizeBinary T (T.get (DataTypes.memberType owner m)).typeKind
            (DataTypes.memberType owner m) x
        else calcSizeBinaryJumpTable (T.get (DataTypes.memberType owner m)).typeKind
          (DataTypes.memberType owner m) x,
        calcSizeBinaryStructureWithOptFields owner members xs]
  termination_by structural xs => xs

end

/-! ## Where the pointer does no harm -/

variable {T}

theorem sumSizes_eq_some {s t : Option Nat} {n : Nat} (h : sumSizes [s, t] = some n) :
    ∃ a b, s = some a ∧ t = some b ∧ n = a + b := by
  cases s with
  | none => cases h
  | some a =>
    cases t with
    | none => cases h
    | some b =>
      cases h
      exact ⟨a, b, rfl, rfl, rfl⟩

mutual

/-- A size that is calculated at the pointer is the one of the object: it depends on the type
alone. The induction is on the object, which only gives the shape of the type. -/
theorem calcSizeBinaryJumpTable_of_pointer {kind : DataTypeKind} {type : DataTypeRef} {p : Value}
    {n : Nat} (h : pointerCalcSizeBinary T kind type p = some n) :
    calcSizeBinaryJumpTable T kind type p = some n := by
  match p with
  | .struct members =>
    cases kind with
    | struct => exact calcSizeBinaryStructure_of_pointer h
    | _ => exact h
  | .optStruct members =>
    cases kind with
    | optStruct =>
      obtain ⟨a, b, ha, hb, rfl⟩ := sumSizes_eq_some h
      cases ha
      simp [calcSizeBinaryJumpTable, calcSizeBinaryStructureWithOptFields_of_pointer hb]
    | _ => exact h
  | .null | .byte _ | .uint16 _ | .uint32 _ | .uint64 _ | .string _ | .guid _ | .nodeId _
  | .expandedNodeId _ | .qualifiedName _ | .localizedText _ | .raw _ | .array _
  | .extensionObject _ | .dataValue _ | .variant _ | .diagnosticInfo _ | .union _ _ =>
    cases kind <;> first
      | exact h
      | cases h
  termination_by structural p

theorem calcSizeBinaryStructure_of_pointer {owner : DataTypeRef} {members : List DataTypeMember}
    {xs : List Value} {n : Nat}
    (h : pointerCalcSizeBinaryMembers T false owner members xs = some n) :
    calcSizeBinaryStructure T owner members xs = some n := by
  match xs, members with
  | [], _ => exact h
  | _ :: _, [] => exact h
  | x :: xs, m :: members =>
    simp only [pointerCalcSizeBinaryMembers, Bool.false_and, Bool.or_false] at h
    cases hm : m.isArray with
    | true => simp [hm] at h
    | false =>
      rw [hm, if_neg Bool.false_ne_true] at h
      obtain ⟨a, b, ha, hb, rfl⟩ := sumSizes_eq_some h
      simp [calcSizeBinaryStructure, hm, calcSizeBinaryJumpTable_of_pointer ha,
        calcSizeBinaryStructure_of_pointer hb]
  termination_by structural xs

theorem calcSizeBinaryStructureWithOptFields_of_pointer {owner : DataTypeRef}
    {members : List DataTypeMember} {xs : List Value} {n : Nat}
    (h : pointerCalcSizeBinaryMembers T true owner members xs = some n) :
    calcSizeBinaryStructureWithOptFields T owner members xs = some n := by
  match xs, members with
  | [], _ => exact h
  | _ :: _, [] => exact h
  | x :: xs, m :: members =>
    simp only [pointerCalcSizeBinaryMembers, Bool.true_and, Bool.or_eq_true] at h
    by_cases hread : m.isArray = true ∨ m.isOptional = true
    · rw [if_pos hread] at h
      cases h
    · rw [if_neg hread] at h
      obtain ⟨harray, hopt⟩ := not_or.mp hread
      obtain ⟨a, b, ha, hb, rfl⟩ := sumSizes_eq_some h
      simp [calcSizeBinaryStructureWithOptFields, harray, hopt,
        calcSizeBinaryJumpTable_of_pointer ha, calcSizeBinaryStructureWithOptFields_of_pointer hb]
  termination_by structural xs

end

variable (T)

/-! ## Entry points -/

/-- `UA_Variant_calcSizeBinary` -/
abbrev uaVariantCalcSizeBinary (src : Variant) : Option Nat := variantCalcSizeBinary T src

/-- `UA_DataValue_calcSizeBinary` -/
abbrev uaDataValueCalcSizeBinary (src : DataValue) : Option Nat := dataValueCalcSizeBinary T src

end OpenPubSub
