import OpenPubSub.Lib.Completes
import OpenPubSub.Types.EncodeSizes
import OpenPubSub.Types.Nested

/-!
# The binary format

The format in which objects of all kinds are sent, over an arbitrary type table, as a
relation between objects and bytes. It knows nothing of buffers, positions and statuses.

- `Wire T n i bs`: on level `n` of the nesting, `bs` stand for `i`. A `WireItem` is an object,
  an array, or the members of a structure, and there is a rule for each form. Every Variant,
  DataValue, structure and union opens a level, and there are 101 of them.
- The decoder looks up the type of an ExtensionObject by its encoding id, and jumps over
  the length of the body. So the rules ask that the table knows the id, but not that the
  length is right.
- In front of the elements of an array the decoder wants a byte for 32 bytes of memory.
- A structure with optional members has an encoding if the encoder finds them all when it
  makes the mask.
- **`Wire.completes`**: the encoder writes these bytes.

DiagnosticInfos are left out (`Types/DiagnosticInfo.lean`), and so are Decimals and bit
fields, which the decoder does not implement.
-/

namespace OpenPubSub

open Routine Writer

variable (T : DataTypes)

/-! ## Parts -/

def nodeIdBytes (id : NodeId) : Bytes := nodeIdHead id 0 ++ (nodeIdRest T id).bytes

/-- Encoding id, encoding byte and length in front of a decoded object. -/
def wrapperBytes (type : DataTypeRef) (size : Nat) : Bytes :=
  nodeIdBytes T (T.encodingId type) ++ ([1] ++ leBytes 4 size)

/-- The object `x` can be sent in an ExtensionObject, and is recognised. Its length is the
calculated one. -/
structure Wraps (type : DataTypeRef) (x : Value) (size : Nat) : Prop where
  typeId : ∃ id, (T.get type).typeId.identifier = .numeric id
  found : T.findDataTypeByBinary (T.encodingId type) = some type
  counted : calcSizeBinaryJumpTable T (T.get type).typeKind type x = some size
  fits : size ≤ int32Max

/-- The kind in the encoding byte of a Variant. -/
def DataTypeKind.announced (kind : DataTypeKind) : DataTypeKind :=
  if kind.isBuiltin then kind else if kind = .enum then .int32 else .extensionObject

/-- The type that the receiver of a Variant knows. -/
def DataTypes.announced (type : DataTypeRef) : DataTypeRef :=
  DataTypes.builtin (T.get type).typeKind.announced

/-- Which of the optional members are there. -/
def optFlags : List DataTypeMember → List Value → List Bool
  | m :: ms, x :: xs => if m.isOptional then (!x.isNull) :: optFlags ms xs else optFlags ms xs
  | _, _ => []

/-! ## The format -/

/-- What is sent in one piece: an object, an array with its length, its elements, the same in
ExtensionObjects, and one or all members of a structure of type `owner`. -/
inductive WireItem where
  | object (kind : DataTypeKind) (type : DataTypeRef) (x : Value)
  | values (type : DataTypeRef) (x : Value)
  | elements (type : DataTypeRef) (xs : List Value)
  | wrapped (type : DataTypeRef) (xs : List Value)
  | member (owner : DataTypeRef) (m : DataTypeMember) (x : Value)
  | members (owner : DataTypeRef) (ms : List DataTypeMember) (xs : List Value)
  | optMembers (owner : DataTypeRef) (ms : List DataTypeMember) (xs : List Value)

/-- On level `n`, the bytes stand for the item. -/
inductive Wire : Nat → WireItem → Bytes → Prop where
  | leaf {n kind type x} (hkind : kind.isLeaf = true) (hx : x.isOfKind kind = true)
      (hnormal : x.isNormal kind = true) (hfits : x.wireFits T = true) :
      Wire n (.object kind type x) (x.wireBytes T)
  | enum {n type} (v : UInt32) : Wire n (.object .enum type (.uint32 v)) (leBytes 4 v.toNat)
  -- structures
  | struct {n type xs bs} (hn : n ≤ encodingMaxRecursion)
      (hxs : Wire (n + 1) (.members type (T.get type).members xs) bs) :
      Wire n (.object .struct type (.struct xs)) bs
  | optStruct {n type xs mask bs} (hn : n ≤ encodingMaxRecursion)
      (hcount : ((T.get type).members.filter DataTypeMember.isOptional).length ≤ 32)
      (hmask : optEncodingMask T type (T.get type).members xs 0 0 = some mask)
      (hxs : Wire (n + 1) (.optMembers type (T.get type).members xs) bs) :
      Wire n (.object .optStruct type (.optStruct xs)) (leBytes 4 mask.toNat ++ bs)
  | noSelection {n type} (hn : n ≤ encodingMaxRecursion) (x : Value) :
      Wire n (.object .union type (.union 0 x)) (leBytes 4 0)
  | selection {n type selection i m x bs} (hn : n ≤ encodingMaxRecursion)
      (hselection : selection.toNat = i + 1) (hm : (T.get type).members[i]? = some m)
      (hx : Wire (n + 1) (.object (T.get (DataTypes.memberType type m)).typeKind
        (DataTypes.memberType type m) x) bs) :
      Wire n (.object .union type (.union selection x)) (leBytes 4 selection.toNat ++ bs)
  | memberObject {n owner m x bs} (hm : m.isArray = false)
      (hx : Wire n (.object (T.get (DataTypes.memberType owner m)).typeKind
        (DataTypes.memberType owner m) x) bs) :
      Wire n (.member owner m x) bs
  | memberArray {n owner m x bs} (hm : m.isArray = true)
      (hx : Wire n (.values (DataTypes.memberType owner m) x) bs) : Wire n (.member owner m x) bs
  | noMembers {n owner} : Wire n (.members owner [] []) []
  | members {n owner m ms x xs bs cs} (hx : Wire n (.member owner m x) bs)
      (hxs : Wire n (.members owner ms xs) cs) :
      Wire n (.members owner (m :: ms) (x :: xs)) (bs ++ cs)
  | noOptMembers {n owner} : Wire n (.optMembers owner [] []) []
  | absent {n owner m ms xs cs} (hm : m.isOptional = true)
      (hxs : Wire n (.optMembers owner ms xs) cs) :
      Wire n (.optMembers owner (m :: ms) (.null :: xs)) cs
  | present {n owner m ms x xs bs cs} (hm : m.isOptional = true → x.isNull = false)
      (hx : Wire n (.member owner m x) bs) (hxs : Wire n (.optMembers owner ms xs) cs) :
      Wire n (.optMembers owner (m :: ms) (x :: xs)) (bs ++ cs)
  -- arrays
  | nullArray {n type} : Wire n (.values type .null) (lengthBytes none)
  | values {n type xs bs} (hlen : xs.length ≤ int32Max)
      (hroom : (T.get type).memSize * xs.length / 32 ≤ bs.length)
      (hxs : Wire n (.elements type xs) bs) :
      Wire n (.values type (.array xs)) (lengthBytes (some xs.length) ++ bs)
  | copied {n type xs bs} (hover : (T.get type).overlayable = true)
      (hmem : arrayMemory (T.get type).memSize Value.memory xs = some bs)
      (hback : ∀ x ∈ xs, x.memory.map (Value.ofMemory (T.get type).typeKind) = some x) :
      Wire n (.elements type xs) bs
  | noElements {n type} (hover : (T.get type).overlayable = false) : Wire n (.elements type []) []
  | elements {n type x xs bs cs} (hover : (T.get type).overlayable = false)
      (hx : Wire n (.object (T.get type).typeKind type x) bs)
      (hxs : Wire n (.elements type xs) cs) : Wire n (.elements type (x :: xs)) (bs ++ cs)
  -- ExtensionObjects
  | noBody {n type id} (hid : (nodeIdRest T id).ok = true) :
      Wire n (.object .extensionObject type (.extensionObject (.encoded id .noBody)))
        (nodeIdBytes T id ++ [0])
  | byteString {n type id body} (hid : (nodeIdRest T id).ok = true)
      (hunknown : T.findDataTypeByBinary id = none) (hbody : stringFits body = true) :
      Wire n (.object .extensionObject type (.extensionObject (.encoded id (.byteString body))))
        (nodeIdBytes T id ++ ([1] ++ stringBytes body))
  | xml {n type id body} (hid : (nodeIdRest T id).ok = true) (hbody : stringFits body = true) :
      Wire n (.object .extensionObject type (.extensionObject (.encoded id (.xml body))))
        (nodeIdBytes T id ++ ([2] ++ stringBytes body))
  | decoded {n type r x size bs} (hwraps : Wraps T r x size)
      (hx : Wire n (.object (T.get r).typeKind r x) bs) :
      Wire n (.object .extensionObject type (.extensionObject (.decoded r x)))
        (wrapperBytes T r size ++ bs)
  -- Variants and DataValues
  | emptyVariant {n type} (data : Value) (dimensions : Option (List UInt32)) :
      Wire n (.object .variant type (.variant ⟨none, data, dimensions⟩)) [0]
  | scalar {n type r x bs} (dimensions : Option (List UInt32)) (hn : n ≤ encodingMaxRecursion)
      (hkind : (T.get r).typeKind.isUnwrapped = true) (hvariant : (T.get r).typeKind ≠ .variant)
      (hencoded : ∀ r y, x ≠ .extensionObject (.decoded r y))
      (hx : Wire (n + 1) (.object (T.get r).typeKind r x) bs) :
      Wire n (.object .variant type (.variant ⟨some r, x, dimensions⟩))
        ([variantEncodingByte (T.get r).typeKind false false] ++ bs)
  | unwrapped {n type e r x size bs} (dimensions : Option (List UInt32))
      (hn : n ≤ encodingMaxRecursion) (hkind : (T.get e).typeKind = .extensionObject)
      (hwraps : Wraps T r x size) (hx : Wire (n + 1) (.object (T.get r).typeKind r x) bs) :
      Wire n (.object .variant type
        (.variant ⟨some e, .extensionObject (.decoded r x), dimensions⟩))
        ([variantEncodingByte .extensionObject false false] ++ (wrapperBytes T r size ++ bs))
  | array {n type r x dimensions bs} (hn : n ≤ encodingMaxRecursion)
      (hkind : (T.get r).typeKind.isUnwrapped = true)
      (hsize : (T.get r).memSize = (T.get (T.announced r)).memSize)
      (hover : (T.get r).overlayable = (T.get (T.announced r)).overlayable)
      (hdimensions : (dimensions.getD []).length ≤ int32Max)
      (hx : Wire (n + 1) (.values r x) bs) :
      Wire n (.object .variant type (.variant ⟨some r, x, dimensions⟩))
        ([variantEncodingByte (T.get r).typeKind true (decide ((dimensions.getD []).length > 0))] ++
          (bs ++ wireDimensions x dimensions))
  | structured {n type r x size bs} (dimensions : Option (List UInt32))
      (hn : n ≤ encodingMaxRecursion) (hkind : (T.get r).typeKind.isUnwrapped = false)
      (hwraps : Wraps T r x size) (hx : Wire (n + 1) (.object (T.get r).typeKind r x) bs) :
      Wire n (.object .variant type (.variant ⟨some r, x, dimensions⟩))
        ([variantEncodingByte (T.get r).typeKind false false] ++ (wrapperBytes T r size ++ bs))
  | noStructures {n type r dimensions} (hn : n ≤ encodingMaxRecursion)
      (hkind : (T.get r).typeKind.isUnwrapped = false)
      (hdimensions : (dimensions.getD []).length ≤ int32Max) :
      Wire n (.object .variant type (.variant ⟨some r, .null, dimensions⟩))
        ([variantEncodingByte (T.get r).typeKind true (decide ((dimensions.getD []).length > 0))] ++
          (lengthBytes (some 0) ++ wireDimensions .null dimensions))
  | structures {n type r xs dimensions bs} (hn : n ≤ encodingMaxRecursion)
      (hkind : (T.get r).typeKind.isUnwrapped = false) (hlen : xs.length ≤ int32Max)
      (hdimensions : (dimensions.getD []).length ≤ int32Max)
      (hxs : Wire (n + 1) (.wrapped r xs) bs) :
      Wire n (.object .variant type (.variant ⟨some r, .array xs, dimensions⟩))
        ([variantEncodingByte (T.get r).typeKind true (decide ((dimensions.getD []).length > 0))] ++
          ((lengthBytes (some xs.length) ++ bs) ++ wireDimensions (.array xs) dimensions))
  | noWrapped {n r} : Wire n (.wrapped r []) []
  | wrapped {n r x xs size bs cs} (hwraps : Wraps T r x size)
      (hx : Wire n (.object (T.get r).typeKind r x) bs) (hxs : Wire n (.wrapped r xs) cs) :
      Wire n (.wrapped r (x :: xs)) ((wrapperBytes T r size ++ bs) ++ cs)
  | dataValue {n type} {d : DataValue} {bs} (hn : n ≤ encodingMaxRecursion)
      (hsource : d.hasSourcePicoseconds = true → d.sourcePicoseconds ≤ maxPicoSeconds)
      (hserver : d.hasServerPicoseconds = true → d.serverPicoseconds ≤ maxPicoSeconds)
      (hset : d.hasValue = true)
      (hvalue : Wire (n + 1) (.object .variant type (.variant d.value)) bs) :
      Wire n (.object .dataValue type (.dataValue d))
        ([dataValueMask d] ++ (bs ++ dataValueTailBytes d))
  | emptyDataValue {n type} {d : DataValue} (hn : n ≤ encodingMaxRecursion)
      (hsource : d.hasSourcePicoseconds = true → d.sourcePicoseconds ≤ maxPicoSeconds)
      (hserver : d.hasServerPicoseconds = true → d.serverPicoseconds ≤ maxPicoSeconds)
      (hclear : d.hasValue = false) :
      Wire n (.object .dataValue type (.dataValue d)) ([dataValueMask d] ++ dataValueTailBytes d)

variable {T}

/-! ## The encoder -/

/-- What the encoder does with an item. -/
def WireItem.encodeBinary (T : DataTypes) (depth : Nat) : WireItem → Enc
  | .object kind type x => encodeBinaryJumpTable T depth kind type x
  | .values type x => valuesEncodeBinary T depth type x
  | .elements type xs =>
    if (T.get type).overlayable then
      arrayEncodeBinaryOverlayable (arrayMemory (T.get type).memSize Value.memory xs)
    else elementsEncodeBinary T depth (T.get type).typeKind type xs
  | .wrapped type xs => wrappedElementsEncodeBinary T depth type xs
  | .member owner m x =>
    if m.isArray then valuesEncodeBinary T depth (DataTypes.memberType owner m) x
    else encodeWithExchangeBuffer (encodeBinaryJumpTable T depth
      (T.get (DataTypes.memberType owner m)).typeKind (DataTypes.memberType owner m) x)
  | .members owner ms xs => encodeBinaryStruct T depth owner ms xs
  | .optMembers owner ms xs => encodeBinaryStructWithOptFields T depth owner ms xs

/-- The member loops go from member to member. -/
theorem encodeBinaryStruct_cons (depth : Nat) (owner : DataTypeRef) (m : DataTypeMember)
    (ms : List DataTypeMember) (x : Value) (xs : List Value) :
    encodeBinaryStruct T depth owner (m :: ms) (x :: xs) =
      ((WireItem.member owner m x).encodeBinary T depth >>= fun _ =>
        encodeBinaryStruct T depth owner ms xs) := by
  rw [WireItem.encodeBinary, encodeBinaryStruct]
  cases m.isArray <;> rfl

theorem encodeBinaryStructWithOptFields_cons {depth : Nat} {owner : DataTypeRef}
    {m : DataTypeMember} {ms : List DataTypeMember} {x : Value} {xs : List Value}
    (h : ¬ (m.isOptional && x.isNull) = true) :
    encodeBinaryStructWithOptFields T depth owner (m :: ms) (x :: xs) =
      ((WireItem.member owner m x).encodeBinary T depth >>= fun _ =>
        encodeBinaryStructWithOptFields T depth owner ms xs) := by
  rw [WireItem.encodeBinary, encodeBinaryStructWithOptFields, if_neg h]
  cases m.isArray <;> rfl

theorem completes_byte (v : UInt8) : Completes [v] (byteEncodeBinary v) :=
  (plans_byte v).commits.completes rfl

theorem completes_uint32 (v : UInt32) :
    Completes (leBytes 4 v.toNat) (uint32EncodeBinary v) :=
  (plans_uint32 v).commits.completes rfl

theorem completes_length (length : Option Nat) :
    Completes (lengthBytes length) (uint32EncodeBinary (signedLengthWord length)) :=
  completes_uint32 _

theorem completes_nodeId (hT : StandardTypes T) {id : NodeId} (hid : (nodeIdRest T id).ok = true) :
    Completes (nodeIdBytes T id) (nodeIdEncodeBinary T id) :=
  (plans_nodeId hT id 0).commits.completes hid

theorem completes_string (hT : StandardTypes T) {s : UAString} (hs : stringFits s = true) :
    Completes (stringBytes s) (stringEncodeBinary T s) :=
  ((plans_string hT s).commits.completes ((stringPlan_ok s).trans hs)).congr (by simp)

theorem completes_checkDepth {depth : Nat} (h : depth ≤ encodingMaxRecursion) :
    Completes [] (checkDepth depth) := by
  rw [checkDepth, if_neg (by omega)]
  exact completes_pure

/-- Type id, encoding byte and length. -/
theorem Wraps.completes (hT : StandardTypes T) {type : DataTypeRef} {x : Value} {size : Nat}
    (h : Wraps T type x size) :
    Completes (wrapperBytes T type size) (extensionObjectHeaderEncodeBinary T type
      (calcSizeBinaryJumpTable T (T.get type).typeKind type x)) := by
  obtain ⟨id, hid⟩ := h.typeId
  have hfits := h.fits
  have hword : (UInt32.ofNat size).toNat = size := by
    unfold int32Max at hfits
    rw [UInt32.toNat_ofNat', Nat.mod_eq_of_lt (by omega)]
  simp only [extensionObjectHeaderEncodeBinary, hid, h.counted]
  have hlength := completes_uint32 (UInt32.ofNat size)
  rw [hword] at hlength
  exact (completes_nodeId hT rfl).bind ((completes_byte 1).accumGuard (fun _ =>
    congrFun (if_neg (by omega)) _) hlength)

/-- An array, given its elements. -/
theorem completes_array {type : DataType} {length : Option Nat} {memory : Option Bytes} {x : Enc}
    {bs : Bytes} (hlen : length.getD 0 ≤ int32Max) (hnil : length.getD 0 = 0 → bs = [])
    (h : length.getD 0 ≠ 0 → Completes bs
      (if type.overlayable then arrayEncodeBinaryOverlayable memory else x)) :
    Completes (lengthBytes length ++ bs) (arrayEncodeBinary type length memory x) := by
  rw [arrayEncodeBinary, if_neg (by omega)]
  refine (completes_length length).goBack.bind ?_
  by_cases hzero : length.getD 0 = 0
  · rw [if_pos hzero, hnil hzero]
    exact completes_pure
  · rw [if_neg hzero]
    exact h hzero

theorem completes_dimensions (hT : StandardTypes T) (data : Value)
    {dimensions : Option (List UInt32)} (h : (dimensions.getD []).length ≤ int32Max) :
    Completes (wireDimensions data dimensions)
      (encodeIf (data.isArray && decide ((dimensions.getD []).length > 0))
        (dimensionsEncodeBinary T (dimensions.getD []))) :=
  (commits_wireDimensions hT data dimensions).completes (by rw [decide_eq_true h, Bool.or_true])

/-! ## Objects and arrays -/

variable {n : Nat} {kind : DataTypeKind} {type : DataTypeRef} {x : Value} {bs : Bytes}

/-- An object is neither an array nor a NULL pointer. -/
theorem Wire.isArray_object (h : Wire T n (.object kind type x) bs) : x.isArray = false := by
  cases h with
  | leaf hkind hx hnormal hfits => exact isArray_of_isOfKind hx
  | _ => rfl

theorem Wire.isNull_object (h : Wire T n (.object kind type x) bs) : x.isNull = false := by
  have harray := h.isArray_object
  cases x with
  | null => cases harray
  | _ => rfl

theorem Wire.isArray_values (h : Wire T n (.values type x) bs) : x.isArray = true := by
  cases h with
  | nullArray => rfl
  | values hlen hroom hxs => rfl

/-- The elements of an empty array. -/
theorem Wire.elements_nil (h : Wire T n (.elements type []) bs) : bs = [] := by
  cases h with
  | copied hover hmem hback => exact (Option.some.inj hmem).symm
  | noElements hover => rfl

/-- The content of a Variant that is no array. -/
theorem completes_scalarVariant (type : DataTypeRef) {depth : Nat} {r : DataTypeRef} {as : Bytes}
    (harray : x.isArray = false) (dimensions : Option (List UInt32))
    (h : Completes as
      (if (T.get r).typeKind.isUnwrapped then
        encodeWithExchangeBuffer (encodeBinaryJumpTable T depth (T.get r).typeKind r x)
      else encodeWithExchangeBuffer do
        extensionObjectHeaderEncodeBinary T r
          (calcSizeBinaryJumpTable T (T.get r).typeKind r x)
        encodeWithExchangeBuffer (encodeBinaryJumpTable T depth (T.get r).typeKind r x))) :
    Completes ([variantEncodingByte (T.get r).typeKind false false] ++ as)
      (encodeBinaryJumpTable T depth .variant type (.variant ⟨some r, x, dimensions⟩)) := by
  have hbyte := completes_byte (variantEncodingByte (T.get r).typeKind false
    (decide ((dimensions.getD []).length > 0)))
  have hrest := h.bind (completes_pure (ε := ErrorCode))
  rw [List.append_nil] at hrest
  simp only [encodeBinaryJumpTable, variantEncodeBinary, harray, encodeIf, Bool.false_and,
    Bool.false_eq_true, if_false]
  cases hkind : (T.get r).typeKind.isUnwrapped with
  | true =>
    rw [hkind] at hrest
    exact hbyte.bind hrest
  | false =>
    rw [hkind] at hrest
    exact hbyte.bind hrest

/-- The content of a Variant that is an array. -/
theorem completes_arrayVariant (hT : StandardTypes T) (type : DataTypeRef) {depth : Nat}
    {r : DataTypeRef} {as : Bytes}
    (harray : x.isArray = true) {dimensions : Option (List UInt32)}
    (hdimensions : (dimensions.getD []).length ≤ int32Max)
    (h : Completes as
      (if (T.get r).typeKind.isUnwrapped then valuesEncodeBinary T depth r x
        else variantEncodeBinaryWrapExtensionObject T depth r x)) :
    Completes ([variantEncodingByte (T.get r).typeKind true
        (decide ((dimensions.getD []).length > 0))] ++ (as ++ wireDimensions x dimensions))
      (encodeBinaryJumpTable T depth .variant type (.variant ⟨some r, x, dimensions⟩)) := by
  have hrest := h.bind (completes_dimensions hT x hdimensions)
  simp only [encodeBinaryJumpTable, variantEncodeBinary]
  simp only [harray, if_true] at hrest ⊢
  cases hkind : (T.get r).typeKind.isUnwrapped with
  | true =>
    rw [hkind] at hrest
    exact (completes_byte _).bind hrest
  | false =>
    rw [hkind] at hrest
    exact (completes_byte _).bind hrest

/-- A structure with optional members: the mask in front of the members. -/
theorem completes_optStruct {depth : Nat} {xs : List Value} {mask : UInt32}
    (hdepth : depth ≤ encodingMaxRecursion)
    (hmask : optEncodingMask T type (T.get type).members xs 0 0 = some mask)
    (h : Completes bs
      (encodeBinaryStructWithOptFields T (depth + 1) type (T.get type).members xs)) :
    Completes (leBytes 4 mask.toNat ++ bs)
      (encodeBinaryJumpTable T depth .optStruct type (.optStruct xs)) := by
  have hword : Completes (leBytes 4 mask.toNat)
      (optEncodingMaskEncodeBinary T type (T.get type).members xs) := by
    simp only [optEncodingMaskEncodeBinary, hmask]
    exact completes_uint32 mask
  exact (completes_checkDepth hdepth).bind (hword.bind h)

/-- A union: the selection in front of the selected member. -/
theorem completes_union {depth : Nat} {selection : UInt32} {i : Nat} {m : DataTypeMember}
    (hdepth : depth ≤ encodingMaxRecursion) (hselection : selection.toNat = i + 1)
    (hm : (T.get type).members[i]? = some m)
    (h : Completes bs (encodeBinaryJumpTable T (depth + 1)
      (T.get (DataTypes.memberType type m)).typeKind (DataTypes.memberType type m) x)) :
    Completes (leBytes 4 selection.toNat ++ bs)
      (encodeBinaryJumpTable T depth .union type (.union selection x)) := by
  have hmember : Completes (leBytes 4 selection.toNat ++ bs) (uint32EncodeBinary selection >>=
      fun _ => encodeWithExchangeBuffer (encodeBinaryJumpTable T (depth + 1)
        (T.get (DataTypes.memberType type m)).typeKind (DataTypes.memberType type m) x)) :=
    (completes_uint32 selection).bind h.goBack
  have hall := (completes_checkDepth hdepth).bind hmember
  rw [List.nil_append] at hall
  -- the selection is also the length of what is matched on
  generalize leBytes 4 selection.toNat ++ bs = cs at hall
  simp only [encodeBinaryJumpTable, hselection, hm]
  exact hall

/-- A decoded ExtensionObject: the wrapper in front of the object. -/
theorem completes_decoded (hT : StandardTypes T) (type : DataTypeRef) {depth : Nat}
    {r : DataTypeRef} {size : Nat} (hwraps : Wraps T r x size) (hnull : x.isNull = false)
    (h : Completes bs (encodeBinaryJumpTable T depth (T.get r).typeKind r x)) :
    Completes (wrapperBytes T r size ++ bs)
      (encodeBinaryJumpTable T depth .extensionObject type (.extensionObject (.decoded r x))) := by
  simp only [encodeBinaryJumpTable, extensionObjectEncodeBinary, hnull, Bool.false_eq_true,
    if_false]
  exact (hwraps.completes hT).bind h.goBack

/-- A DataValue, given its Variant, if it has one. -/
theorem completes_dataValue (type : DataTypeRef) {depth : Nat} {d : DataValue}
    (h : Completes bs (encodeIf d.hasValue (variantEncodeBinary T depth d.value))) :
    Completes ([dataValueMask d] ++ (bs ++ dataValueTailBytes d))
      (encodeBinaryJumpTable T depth .dataValue type (.dataValue d)) := by
  have hall := (completes_byte (dataValueMask d)).bind
    (h.bind ((commits_dataValueTail d).completes trivial))
  obtain ⟨hasValue, hasStatus, hasSourceTimestamp, hasServerTimestamp, hasSourcePicoseconds,
    hasServerPicoseconds, value, status, sourceTimestamp, sourcePicoseconds, serverTimestamp,
    serverPicoseconds⟩ := d
  exact hall

/-- **The encoder writes the bytes of the format**. The induction is on the item. Only
structures and unions count towards the depth of the encoder, so it never exceeds the level. -/
theorem Wire.completes (hT : StandardTypes T) {i : WireItem} (h : Wire T n i bs) {depth : Nat}
    (hdepth : depth ≤ n) : Completes bs (i.encodeBinary T depth) := by
  induction h generalizing depth with
  -- a leaf has a plan, and it completes where it fits
  | @leaf n kind type x hkind hx hnormal hfits =>
    obtain ⟨hbytes, hok⟩ := wireBytes_leaf (T := T) hx
    rw [hok] at hfits
    rw [hbytes]
    exact (plans_value hT hx depth type).commits.completes (by simpa [Value.plan] using hfits)
  | enum v => exact completes_uint32 v
  | struct hn hxs ih =>
    exact (completes_checkDepth (by omega)).bind (ih (Nat.succ_le_succ hdepth))
  | optStruct hn hcount hmask hxs ih =>
    exact completes_optStruct (by omega) hmask (ih (Nat.succ_le_succ hdepth))
  | noSelection hn x =>
    exact (completes_checkDepth (by omega)).bind ((completes_uint32 0).bind completes_pure)
  | selection hn hselection hm hx ih =>
    exact completes_union (by omega) hselection hm (ih (Nat.succ_le_succ hdepth))
  | memberObject hm hx ih =>
    rw [WireItem.encodeBinary, hm]
    exact (ih hdepth).goBack
  | memberArray hm hx ih =>
    rw [WireItem.encodeBinary, hm]
    exact ih hdepth
  | noMembers => exact completes_pure
  | members hx hxs ihx ihxs =>
    rw [WireItem.encodeBinary, encodeBinaryStruct_cons]
    exact (ihx hdepth).bind (ihxs hdepth)
  | noOptMembers => exact completes_pure
  | @absent n owner m ms xs cs hm hxs ih =>
    simp only [WireItem.encodeBinary, encodeBinaryStructWithOptFields, hm, Value.isNull]
    exact completes_pure.bind (ih hdepth)
  | @present n owner m ms x xs bs cs hm hx hxs ihx ihxs =>
    have hskip : ¬ (m.isOptional && x.isNull) = true := by
      intro hskip
      obtain ⟨hopt, hnull⟩ := (Bool.and_eq_true ..).mp hskip
      rw [hm hopt] at hnull
      cases hnull
    rw [WireItem.encodeBinary, encodeBinaryStructWithOptFields_cons hskip]
    exact (ihx hdepth).bind (ihxs hdepth)
  | nullArray => exact completes_array (Nat.zero_le _) (fun _ => rfl) fun h => absurd rfl h
  | values hlen hroom hxs ih =>
    simp only [WireItem.encodeBinary, valuesEncodeBinary]
    refine completes_array hlen (fun hnil => ?_) fun _ => ih hdepth
    rw [Option.getD_some, List.length_eq_zero_iff] at hnil
    subst hnil
    exact hxs.elements_nil
  | copied hover hmem hback =>
    rw [WireItem.encodeBinary, if_pos hover, hmem]
    exact (emits_fill hard_badEncodingError).commits.completes rfl
  | noElements hover =>
    rw [WireItem.encodeBinary, if_neg (by rw [hover]; decide)]
    exact completes_pure
  | @elements n type x xs bs cs hover hx hxs ihx ihxs =>
    have ihxs := ihxs hdepth
    have hcopy : ¬ (T.get type).overlayable = true := by
      rw [hover]
      decide
    rw [WireItem.encodeBinary, if_neg hcopy] at ihxs ⊢
    exact (ihx hdepth).goBack.bind ihxs
  | noBody hid => exact (completes_nodeId hT hid).bind (completes_byte 0).goBack
  | byteString hid hunknown hbody =>
    exact (completes_nodeId hT hid).bind
      ((completes_byte 1).goBack.bind (completes_string hT hbody))
  | xml hid hbody =>
    exact (completes_nodeId hT hid).bind
      ((completes_byte 2).goBack.bind (completes_string hT hbody))
  | @decoded n type r x size bs hwraps hx ih =>
    exact completes_decoded hT type hwraps hx.isNull_object (ih hdepth)
  | emptyVariant data dimensions => exact completes_byte 0
  | @scalar n type r x bs dimensions hn hkind hvariant hencoded hx ih =>
    refine completes_scalarVariant type hx.isArray_object dimensions ?_
    rw [if_pos hkind]
    exact (ih (Nat.le_succ_of_le hdepth)).goBack
  | @unwrapped n type e r x size bs dimensions hn hkind hwraps hx ih =>
    have hall : Completes (wrapperBytes T r size ++ bs) (encodeWithExchangeBuffer
        (encodeBinaryJumpTable T depth .extensionObject e (.extensionObject (.decoded r x)))) :=
      (completes_decoded hT e hwraps hx.isNull_object (ih (Nat.le_succ_of_le hdepth))).goBack
    rw [← hkind] at hall ⊢
    refine completes_scalarVariant type rfl dimensions ?_
    rw [if_pos (by rw [hkind]; rfl)]
    exact hall
  | @array n type r x dimensions bs hn hkind hsize hover hdimensions hx ih =>
    refine completes_arrayVariant hT type hx.isArray_values hdimensions ?_
    rw [if_pos hkind]
    exact ih (Nat.le_succ_of_le hdepth)
  | @structured n type r x size bs dimensions hn hkind hwraps hx ih =>
    refine completes_scalarVariant type hx.isArray_object dimensions ?_
    rw [if_neg (by rw [hkind]; decide)]
    exact ((hwraps.completes hT).bind (ih (Nat.le_succ_of_le hdepth)).goBack).goBack
  | @noStructures n type r dimensions hn hkind hdimensions =>
    refine completes_arrayVariant hT type rfl hdimensions ?_
    rw [if_neg (by rw [hkind]; decide)]
    exact completes_length (some 0)
  | @structures n type r xs dimensions bs hn hkind hlen hdimensions hxs ih =>
    refine completes_arrayVariant hT type rfl hdimensions ?_
    rw [if_neg (by rw [hkind]; decide)]
    simp only [variantEncodeBinaryWrapExtensionObject, if_neg (Nat.not_lt.mpr hlen)]
    exact (completes_length (some _)).bind (ih (Nat.le_succ_of_le hdepth))
  | noWrapped => exact completes_pure
  | wrapped hwraps hx hxs ihx ihxs =>
    exact ((hwraps.completes hT).bind (ihx hdepth).goBack).goBack.bind (ihxs hdepth)
  | @dataValue n type d bs hn hsource hserver hset hvalue ih =>
    refine completes_dataValue type ?_
    rw [hset]
    exact ih (Nat.le_succ_of_le hdepth)
  | @emptyDataValue n type d hn hsource hserver hclear =>
    have hnone : Completes [] (encodeIf d.hasValue (variantEncodeBinary T depth d.value)) := by
      rw [hclear]
      exact completes_pure
    exact completes_dataValue type hnone

end OpenPubSub
