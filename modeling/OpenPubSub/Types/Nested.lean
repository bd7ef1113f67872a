import OpenPubSub.Lib.Measured
import OpenPubSub.Types.RoundTrip

/-!
# Nested field values

Variants that hold scalars and arrays of the leaf types, arrays of Variants and arrays of
DataValues, nested in each other.

- `Value.Nests m kind x`: `x` is such an object of kind `kind`, with at most `m` Variants
  and DataValues open at once.
- `Value.wireBytes` are the bytes of an object, `Value.wireFits` tells whether all lengths
  in it fit an Int32.
- `commits_nested`: the encoder writes these bytes. `nested_calcSize`: the size calculation
  counts them.
- `Value.received` is the object in the form in which a decoder leaves it, which
  `Value.isReceived` recognises (`received_eq_iff`).
-/

namespace OpenPubSub

open Routine Writer

/-! ## The values -/

/-- What a nested Variant may hold. -/
def DataTypeKind.isField (kind : DataTypeKind) : Bool :=
  kind.isLeaf || kind == .variant || kind == .dataValue

/-- A field is of a leaf type, a Variant or a DataValue. -/
theorem DataTypeKind.isField_cases {kind : DataTypeKind} (h : kind.isField = true) :
    kind.isLeaf = true ∨ kind = .variant ∨ kind = .dataValue := by
  cases kind <;> first | exact .inl rfl | exact .inr (.inl rfl) | exact .inr (.inr rfl) | cases h

theorem DataTypeKind.isBuiltin_of_isField {kind : DataTypeKind} (h : kind.isField = true) :
    kind.isBuiltin = true := by
  cases kind <;> first | rfl | cases h

/-- Only leaf types are copied from memory. -/
theorem isLeaf_of_overlayable {T : DataTypes} (hT : StandardTypes T) {kind : DataTypeKind}
    (hkind : kind.isField = true) (hover : (T.get (DataTypes.builtin kind)).overlayable = true) :
    kind.isLeaf = true ∧ kind.overlayable = true := by
  have hoverlay := hT.overlayable kind (DataTypeKind.isBuiltin_of_isField hkind) hover
  rcases DataTypeKind.isField_cases hkind with hleaf | rfl | rfl
  · exact ⟨hleaf, hoverlay⟩
  · cases hoverlay
  · cases hoverlay

/-- A field value with at most `m` levels. A Boolean is 0 or 1, and picoseconds are at most
9999. -/
inductive Value.Nests : Nat → DataTypeKind → Value → Prop where
  | leaf {m kind x} (hkind : kind.isLeaf = true) (hx : x.isOfKind kind = true)
      (hnormal : x.isNormal kind = true) : Nests m kind x
  | empty {m} (data : Value) (dimensions : Option (List UInt32)) :
      Nests (m + 1) .variant (.variant ⟨none, data, dimensions⟩)
  | scalar {m kind data} (dimensions : Option (List UInt32)) (hkind : kind.isLeaf = true)
      (hdata : data.isOfKind kind = true) (hnormal : data.isNormal kind = true) :
      Nests (m + 1) .variant (.variant ⟨some (DataTypes.builtin kind), data, dimensions⟩)
  | noArray {m kind} (dimensions : Option (List UInt32)) (hkind : kind.isField = true) :
      Nests (m + 1) .variant (.variant ⟨some (DataTypes.builtin kind), .null, dimensions⟩)
  | array {m kind xs} (dimensions : Option (List UInt32)) (hkind : kind.isField = true)
      (hxs : ∀ x ∈ xs, Nests m kind x) :
      Nests (m + 1) .variant (.variant ⟨some (DataTypes.builtin kind), .array xs, dimensions⟩)
  | dataValue {m} {d : DataValueOf Value}
      (hvalue : d.hasValue = true → Nests m .variant (.variant d.value))
      (hsource : d.hasSourcePicoseconds = true → d.sourcePicoseconds ≤ maxPicoSeconds)
      (hserver : d.hasServerPicoseconds = true → d.serverPicoseconds ≤ maxPicoSeconds) :
      Nests (m + 1) .dataValue (.dataValue d)

/-! ## The bytes -/

/-- `isArray && src->arrayDimensionsSize > 0` -/
def hasWireDimensions (data : Value) (dimensions : Option (List UInt32)) : Bool :=
  data.isArray && decide ((dimensions.getD []).length > 0)

/-- The dimensions are written behind an array that has any. -/
def wireDimensions (data : Value) (dimensions : Option (List UInt32)) : Bytes :=
  if hasWireDimensions data dimensions then dimensionsBytes (dimensions.getD []) else []

section

variable (T : DataTypes)

mutual

/-- The bytes of a value, by recursion on it. -/
def Value.wireBytes : Value → Bytes
  | .variant v => variantWireBytes v
  | .dataValue d => dataValueWireBytes d
  | .array xs => lengthBytes (some xs.length) ++ elementsWireBytes xs
  | .null => lengthBytes none
  | x => (x.plan T).bytes
  termination_by structural x => x

def variantWireBytes : VariantOf Value → Bytes
  | ⟨none, _, _⟩ => [0]
  | ⟨some type, data, dimensions⟩ =>
    [variantEncodingByte (T.get type).typeKind data.isArray
      (decide ((dimensions.getD []).length > 0))] ++
      (data.wireBytes ++ wireDimensions data dimensions)
  termination_by structural v => v

def dataValueWireBytes : DataValueOf Value → Bytes
  | d@⟨hasValue, _, _, _, _, _, value, _, _, _, _, _⟩ =>
    [dataValueMask d] ++
      ((if hasValue then variantWireBytes value else []) ++ dataValueTailBytes d)
  termination_by structural d => d

def elementsWireBytes : List Value → Bytes
  | [] => []
  | x :: xs => x.wireBytes ++ elementsWireBytes xs
  termination_by structural xs => xs

end

mutual

/-- All lengths fit an Int32. -/
def Value.wireFits : Value → Bool
  | .variant v => variantWireFits v
  | .dataValue d => dataValueWireFits d
  | .array xs => decide (xs.length ≤ int32Max) && elementsWireFits xs
  | .null => true
  | x => (x.plan T).ok
  termination_by structural x => x

def variantWireFits : VariantOf Value → Bool
  | ⟨none, _, _⟩ => true
  | ⟨some _, data, dimensions⟩ => data.wireFits &&
      (!hasWireDimensions data dimensions || decide ((dimensions.getD []).length ≤ int32Max))
  termination_by structural v => v

def dataValueWireFits : DataValueOf Value → Bool
  | ⟨hasValue, _, _, _, _, _, value, _, _, _, _, _⟩ => !hasValue || variantWireFits value
  termination_by structural d => d

def elementsWireFits : List Value → Bool
  | [] => true
  | x :: xs => x.wireFits && elementsWireFits xs
  termination_by structural xs => xs

end

end

variable {T : DataTypes}

/-- An object of a leaf kind. -/
theorem wireBytes_leaf {kind : DataTypeKind} {x : Value} (hx : x.isOfKind kind = true) :
    x.wireBytes T = (x.plan T).bytes ∧ x.wireFits T = (x.plan T).ok := by
  unfold Value.isOfKind at hx
  split at hx
  case h_22 => cases hx
  all_goals exact ⟨rfl, rfl⟩

/-! ## The encoder -/

/-- The members after the Variant. -/
theorem commits_dataValueTail (d : DataValue) :
    Commits (dataValueTailBytes d) True
      (accum (encodeIf d.hasStatus
          (encodeWithExchangeBuffer (uint32EncodeBinary d.status))) fun _ =>
        accum (encodeIf d.hasSourceTimestamp
          (encodeWithExchangeBuffer (uint64EncodeBinary d.sourceTimestamp))) fun _ =>
        accum (encodeIf d.hasSourcePicoseconds
          (encodeWithExchangeBuffer (uint16EncodeBinary d.sourcePicoseconds))) fun _ =>
        accum (encodeIf d.hasServerTimestamp
          (encodeWithExchangeBuffer (uint64EncodeBinary d.serverTimestamp))) fun _ =>
        encodeIf d.hasServerPicoseconds
          (encodeWithExchangeBuffer (uint16EncodeBinary d.serverPicoseconds))) :=
  ((commits_uaUInt32 d.status).ite.accum ((commits_uaUInt64 d.sourceTimestamp).ite.accum
    ((commits_uaUInt16 d.sourcePicoseconds).ite.accum
      ((commits_uaUInt64 d.serverTimestamp).ite.accum
        (commits_uaUInt16 d.serverPicoseconds).ite)))).congr rfl (by simp)

/-- The dimensions are refused only if they are too many. -/
theorem commits_wireDimensions (hT : StandardTypes T) (data : Value)
    (dimensions : Option (List UInt32)) :
    Commits (wireDimensions data dimensions)
      ((!hasWireDimensions data dimensions ||
        decide ((dimensions.getD []).length ≤ int32Max)) = true)
      (encodeIf (data.isArray && decide ((dimensions.getD []).length > 0))
        (dimensionsEncodeBinary T (dimensions.getD []))) := by
  have h : Commits (dimensionsBytes (dimensions.getD []))
      ((dimensions.getD []).length ≤ int32Max) (dimensionsEncodeBinary T (dimensions.getD [])) :=
    (plans_dimensions hT _).commits.congr (by simp) (by simp [dimensionsPlan_ok])
  unfold wireDimensions hasWireDimensions
  cases data.isArray && decide ((dimensions.getD []).length > 0) with
  | true => exact h.congr rfl (by simp)
  | false => exact commits_pure.congr rfl (by simp)

/-- An array, given its elements one by one. -/
theorem commits_array {type : DataType} {xs : List Value} {memory : Option Bytes} {x : Enc}
    (hmem : type.overlayable = true → xs.length ≠ 0 → memory = some (elementsWireBytes T xs) ∧
      elementsWireFits T xs = true)
    (hx : type.overlayable = false →
      Commits (elementsWireBytes T xs) (elementsWireFits T xs = true) x) :
    Commits (Value.wireBytes T (.array xs)) (Value.wireFits T (.array xs) = true)
      (arrayEncodeBinary type (some xs.length) memory x) := by
  have hhead : Commits (lengthBytes (some xs.length)) True
      (encodeWithExchangeBuffer (uint32EncodeBinary (signedLengthWord (some xs.length)))) :=
    commits_fixed _
  have hcontent : Commits (elementsWireBytes T xs) (elementsWireFits T xs = true)
      (if xs.length = 0 then pure ()
        else if type.overlayable then arrayEncodeBinaryOverlayable memory else x) := by
    by_cases hnil : xs.length = 0
    · rw [if_pos hnil, List.length_eq_zero_iff.mp hnil]
      exact commits_pure.congr rfl (by simp [elementsWireFits])
    · rw [if_neg hnil]
      cases hover : type.overlayable with
      | true =>
        obtain ⟨hbytes, hfits⟩ := hmem hover hnil
        rw [if_pos rfl, hbytes, hfits]
        exact (emits_fill hard_badEncodingError).commits.congr rfl (by simp)
      | false =>
        rw [if_neg Bool.false_ne_true]
        exact hx hover
  simp only [Value.wireBytes, Value.wireFits, arrayEncodeBinary, Option.getD_some]
  -- a length that does not fit is refused before anything is written
  by_cases hlen : xs.length > int32Max
  · rw [if_pos hlen]
    refine ((commits_fail badInternalError).of_not (fun h => h) _).congr rfl ?_
    rw [decide_eq_false (by omega), Bool.false_and]
    simp
  · rw [if_neg hlen, decide_eq_true (by omega), Bool.true_and]
    exact (hhead.bind hcontent).congr rfl (by simp)

/-- The elements one behind the other, given each of them. -/
theorem commits_elements {kind : DataTypeKind} {depth : Nat} {type : DataTypeRef} {xs : List Value}
    (h : ∀ x ∈ xs, Commits (x.wireBytes T) (x.wireFits T = true)
      (encodeBinaryJumpTable T depth kind type x)) :
    Commits (elementsWireBytes T xs) (elementsWireFits T xs = true)
      (elementsEncodeBinary T depth kind type xs) := by
  induction xs with
  | nil =>
    simp only [elementsEncodeBinary, elementsWireBytes, elementsWireFits]
    exact commits_pure.congr rfl (by simp)
  | cons x xs ih =>
    obtain ⟨hx, hxs⟩ := List.forall_mem_cons.mp h
    simp only [elementsEncodeBinary, elementsWireBytes, elementsWireFits]
    exact (hx.goBack.bind (ih hxs)).congr rfl (by simp)

/-- Leaf objects as they lie in memory. -/
theorem elements_leaf {kind : DataTypeKind} {xs : List Value}
    (h : ∀ x ∈ xs, x.isOfKind kind = true) :
    elementsWireBytes T xs = xs.flatMap fun x => (x.plan T).bytes := by
  induction xs with
  | nil => rfl
  | cons x xs ih =>
    obtain ⟨hx, hxs⟩ := List.forall_mem_cons.mp h
    rw [elementsWireBytes, (wireBytes_leaf hx).1, ih hxs, List.flatMap_cons]

/-- A number of fixed size always fits. -/
theorem elementsFit_overlayable {kind : DataTypeKind} {xs : List Value}
    (hkind : kind.overlayable = true) (h : ∀ x ∈ xs, x.isOfKind kind = true) :
    elementsWireFits T xs = true := by
  induction xs with
  | nil => rfl
  | cons x xs ih =>
    obtain ⟨hx, hxs⟩ := List.forall_mem_cons.mp h
    rw [elementsWireFits, (wireBytes_leaf hx).2, ih hxs, Bool.and_true]
    unfold Value.isOfKind at hx
    split at hx
    case h_14 | h_15 | h_16 | h_18 | h_19 | h_20 | h_21 => cases hkind
    case h_22 => cases hx
    all_goals rfl

/-- A value of a leaf type nests nothing. -/
theorem Value.Nests.isOfKind {m : Nat} {kind : DataTypeKind} {x : Value} (h : Value.Nests m kind x)
    (hkind : kind.isLeaf = true) : x.isOfKind kind = true ∧ x.isNormal kind = true := by
  cases h with
  | leaf _ hx hnormal => exact ⟨hx, hnormal⟩
  | _ => cases hkind

/-- An array of nested objects. -/
theorem commits_nestedArray (hT : StandardTypes T) {m : Nat} {kind : DataTypeKind}
    (hkind : kind.isField = true) {depth : Nat} {xs : List Value}
    (hxs : ∀ x ∈ xs, Value.Nests m kind x)
    (h : ∀ x ∈ xs, Commits (x.wireBytes T) (x.wireFits T = true)
      (encodeBinaryJumpTable T depth kind (DataTypes.builtin kind) x)) :
    Commits (Value.wireBytes T (.array xs)) (Value.wireFits T (.array xs) = true)
      (valuesEncodeBinary T depth (DataTypes.builtin kind) (.array xs)) := by
  have hbuiltin := DataTypeKind.isBuiltin_of_isField hkind
  simp only [valuesEncodeBinary]
  refine commits_array (fun hover _ => ?_) fun _ => ?_
  · obtain ⟨hleaf, hoverlay⟩ := isLeaf_of_overlayable hT hkind hover
    have hof : ∀ x ∈ xs, x.isOfKind kind = true := fun x hx => ((hxs x hx).isOfKind hleaf).1
    refine ⟨?_, elementsFit_overlayable hoverlay hof⟩
    rw [elements_leaf hof]
    exact arrayMemory_values hT hleaf (List.all_eq_true.mpr hof) hover
  · rw [T.get_builtin hbuiltin]
    exact commits_elements h

/-- A Variant, given its content. -/
theorem commits_nestedVariant (hT : StandardTypes T) {kind : DataTypeKind}
    (hbuiltin : kind.isBuiltin = true) {depth : Nat} {data : Value}
    (dimensions : Option (List UInt32)) (type : DataTypeRef)
    (h : Commits (data.wireBytes T) (data.wireFits T = true)
      (if data.isArray then valuesEncodeBinary T depth (DataTypes.builtin kind) data
        else encodeWithExchangeBuffer
          (encodeBinaryJumpTable T depth kind (DataTypes.builtin kind) data))) :
    Commits (Value.wireBytes T (.variant ⟨some (DataTypes.builtin kind), data, dimensions⟩))
      (Value.wireFits T (.variant ⟨some (DataTypes.builtin kind), data, dimensions⟩) = true)
      (encodeBinaryJumpTable T depth .variant type
        (.variant ⟨some (DataTypes.builtin kind), data, dimensions⟩)) := by
  have hall := (commits_byte (variantEncodingByte kind data.isArray
    (decide ((dimensions.getD []).length > 0)))).bind
      (h.bind (commits_wireDimensions hT data dimensions))
  have hunwrapped : kind.isUnwrapped = true := by
    rw [DataTypeKind.isUnwrapped, hbuiltin, Bool.true_or]
  simp only [encodeBinaryJumpTable, variantEncodeBinary, hunwrapped, if_true,
    T.get_builtin hbuiltin, Value.wireBytes, variantWireBytes, Value.wireFits, variantWireFits]
  cases harray : data.isArray with
  | true =>
    simp only [harray, if_true] at hall ⊢
    exact hall.congr rfl (by simp)
  | false =>
    simp only [harray, Bool.false_eq_true, if_false] at hall ⊢
    exact hall.congr rfl (by simp)

/-- **The encoder writes the bytes of a nested value**, if all lengths fit. The induction is on
the levels. -/
theorem commits_nested (hT : StandardTypes T) {m : Nat} {kind : DataTypeKind} {x : Value}
    (h : Value.Nests m kind x) (depth : Nat) (type : DataTypeRef) :
    Commits (x.wireBytes T) (x.wireFits T = true) (encodeBinaryJumpTable T depth kind type x) := by
  induction h generalizing type with
  | leaf hkind hx hnormal =>
    obtain ⟨hbytes, hfits⟩ := wireBytes_leaf (T := T) hx
    rw [hbytes, hfits]
    exact (plans_value hT hx depth type).commits.congr rfl (by simp [Value.plan])
  | empty data dimensions =>
    simp only [encodeBinaryJumpTable, variantEncodeBinary]
    exact (commits_byte 0).congr rfl (by simp [Value.wireFits, variantWireFits])
  | @scalar m kind data dimensions hkind hdata hnormal =>
    obtain ⟨hbytes, hfits⟩ := wireBytes_leaf (T := T) hdata
    refine commits_nestedVariant hT (DataTypeKind.isBuiltin_of_isLeaf hkind) dimensions type ?_
    rw [isArray_of_isOfKind hdata, if_neg Bool.false_ne_true, hbytes, hfits]
    exact (plans_value hT hdata depth _).commits.goBack.congr rfl (by simp [Value.plan])
  | @noArray m kind dimensions hkind =>
    refine commits_nestedVariant hT (DataTypeKind.isBuiltin_of_isField hkind) dimensions type ?_
    simp only [Value.isArray, if_true, valuesEncodeBinary]
    have h : Plans [] (arrayPlan (T.get (DataTypes.builtin kind)) none [] [])
        (arrayEncodeBinary (T.get (DataTypes.builtin kind)) none none (pure ())) :=
      plans_array (fun _ h => absurd rfl h) emits_pure
    exact h.commits.congr rfl (by simp [Value.wireFits, arrayPlan])
  | @array m kind xs dimensions hkind hxs ih =>
    refine commits_nestedVariant hT (DataTypeKind.isBuiltin_of_isField hkind) dimensions type ?_
    exact commits_nestedArray hT hkind hxs fun x hx => ih x hx _
  -- the value is encoded one level deeper, and the rest is flat
  | @dataValue m d hvalue hsource hserver ih =>
    have hinner : Commits (if d.hasValue then variantWireBytes T d.value else [])
        ((!d.hasValue || variantWireFits T d.value) = true)
        (encodeIf d.hasValue (variantEncodeBinary T depth d.value)) := by
      cases hset : d.hasValue with
      | true =>
        have h := ih hset type
        simp only [Value.wireBytes, Value.wireFits, encodeBinaryJumpTable] at h
        exact h.congr rfl (by simp)
      | false => exact commits_pure.congr rfl (by simp)
    have hall := (commits_byte (dataValueMask d)).bind (hinner.bind (commits_dataValueTail d))
    obtain ⟨hasValue, hasStatus, hasSourceTimestamp, hasServerTimestamp, hasSourcePicoseconds,
      hasServerPicoseconds, value, status, sourceTimestamp, sourcePicoseconds, serverTimestamp,
      serverPicoseconds⟩ := d
    simp only [encodeBinaryJumpTable, dataValueEncodeBinary, Value.wireBytes, dataValueWireBytes,
      Value.wireFits, dataValueWireFits]
    exact hall.congr rfl (by simp)

/-! ## The size calculation -/

/-- An array, given its elements one by one. -/
theorem nestedArray_calcSize (hT : StandardTypes T) {m : Nat} {kind : DataTypeKind}
    (hkind : kind.isField = true) {xs : List Value} (hxs : ∀ x ∈ xs, Value.Nests m kind x)
    (h : ∀ x ∈ xs, calcSizeBinaryJumpTable T kind (DataTypes.builtin kind) x =
      some (x.wireBytes T).length) :
    valuesCalcSizeBinary T (DataTypes.builtin kind) (.array xs) =
      some (Value.wireBytes T (.array xs)).length := by
  simp only [valuesCalcSizeBinary, arrayCalcSizeBinary, Value.wireBytes, List.length_append,
    lengthBytes_length]
  cases hover : (T.get (DataTypes.builtin kind)).overlayable with
  | true =>
    obtain ⟨hleaf, hoverlay⟩ := isLeaf_of_overlayable hT hkind hover
    have hof : ∀ x ∈ xs, x.isOfKind kind = true := fun x hx => ((hxs x hx).isOfKind hleaf).1
    have hlen := length_flatMap_const fun x hx => (memory_eq (T := T) (hof x hx) hoverlay).2
    rw [if_pos rfl, elements_leaf hof, hlen,
      hT.memSize kind (DataTypeKind.isBuiltin_of_isLeaf hleaf)]
  | false =>
    have hsum : elementsCalcSizeBinary T kind (DataTypes.builtin kind) xs =
        some (elementsWireBytes T xs).length := by
      clear hxs
      induction xs with
      | nil => rfl
      | cons x xs ih =>
        obtain ⟨hx, hxs⟩ := List.forall_mem_cons.mp h
        rw [elementsCalcSizeBinary, hx, ih hxs, elementsWireBytes, List.length_append]
        rfl
    rw [if_neg Bool.false_ne_true, T.get_builtin (DataTypeKind.isBuiltin_of_isField hkind), hsum]
    rfl

/-- A Variant, given its content. -/
theorem nestedVariant_calcSize (hT : StandardTypes T) {kind : DataTypeKind}
    (hbuiltin : kind.isBuiltin = true) {data : Value} (dimensions : Option (List UInt32))
    (h : (if data.isArray then valuesCalcSizeBinary T (DataTypes.builtin kind) data
      else calcSizeBinaryJumpTable T kind (DataTypes.builtin kind) data) =
        some (data.wireBytes T).length) :
    variantCalcSizeBinary T ⟨some (DataTypes.builtin kind), data, dimensions⟩ =
      some (variantWireBytes T ⟨some (DataTypes.builtin kind), data, dimensions⟩).length := by
  have hunwrapped : kind.isUnwrapped = true := by
    rw [DataTypeKind.isUnwrapped, hbuiltin, Bool.true_or]
  have hdimensions : (if data.isArray && decide ((dimensions.getD []).length > 0) then
      dimensionsCalcSizeBinary T (dimensions.getD []) else some 0) =
      some (wireDimensions data dimensions).length := by
    unfold wireDimensions hasWireDimensions
    split
    · exact dimensionsCalcSizeBinary_eq hT _
    · rfl
  simp only [variantCalcSizeBinary, T.get_builtin hbuiltin, h, hunwrapped, if_true, hdimensions,
    sumSizes_cons, sumSizes_nil, Option.map_some, variantWireBytes, List.length_append,
    List.length_singleton, Nat.zero_add, Nat.add_zero]

/-- **The size calculation counts the bytes of a nested value**. -/
theorem nested_calcSize (hT : StandardTypes T) {m : Nat} {kind : DataTypeKind} {x : Value}
    (h : Value.Nests m kind x) (type : DataTypeRef) :
    calcSizeBinaryJumpTable T kind type x = some (x.wireBytes T).length := by
  induction h generalizing type with
  | leaf hkind hx hnormal =>
    rw [(wireBytes_leaf hx).1]
    exact calcSizeBinaryJumpTable_eq hx type
  | empty data dimensions => rfl
  | @scalar m kind data dimensions hkind hdata hnormal =>
    simp only [calcSizeBinaryJumpTable]
    refine nestedVariant_calcSize hT (DataTypeKind.isBuiltin_of_isLeaf hkind) dimensions ?_
    rw [isArray_of_isOfKind hdata, if_neg Bool.false_ne_true, (wireBytes_leaf hdata).1]
    exact calcSizeBinaryJumpTable_eq hdata _
  | @noArray m kind dimensions hkind =>
    simp only [calcSizeBinaryJumpTable]
    refine nestedVariant_calcSize hT (DataTypeKind.isBuiltin_of_isField hkind) dimensions ?_
    simp only [Value.isArray, if_true, valuesCalcSizeBinary, arrayCalcSizeBinary]
    split <;> rfl
  | @array m kind xs dimensions hkind hxs ih =>
    simp only [calcSizeBinaryJumpTable]
    exact nestedVariant_calcSize hT (DataTypeKind.isBuiltin_of_isField hkind) dimensions
      (nestedArray_calcSize hT hkind hxs fun x hx => ih x hx _)
  | @dataValue m d hvalue hsource hserver ih =>
    have hinner : (if d.hasValue then variantCalcSizeBinary T d.value else some 0) =
        some (if d.hasValue then variantWireBytes T d.value else []).length := by
      cases hset : d.hasValue with
      | true =>
        have h := ih hset type
        simp only [calcSizeBinaryJumpTable] at h
        exact h
      | false => rfl
    -- what a flag guards is counted if it is written
    have hif : ∀ (c : Bool) (k n : Nat), (if c then leBytes k n else []).length = sizeIf c k := by
      intro c k n
      cases c <;> simp [sizeIf]
    obtain ⟨hasValue, hasStatus, hasSourceTimestamp, hasServerTimestamp, hasSourcePicoseconds,
      hasServerPicoseconds, value, status, sourceTimestamp, sourcePicoseconds, serverTimestamp,
      serverPicoseconds⟩ := d
    simp only [calcSizeBinaryJumpTable, dataValueCalcSizeBinary, hinner, sumSizes_cons,
      sumSizes_nil, Option.map_some, Value.wireBytes, dataValueWireBytes, dataValueTailBytes,
      List.length_append, hif, List.length_singleton, Nat.add_zero]

/-! ## What the receiver gets -/

/-- A namespace URI replaces the namespace index, and an empty one is not sent. -/
def ExpandedNodeId.received (id : ExpandedNodeId) : ExpandedNodeId where
  nodeId := if hasBytes id.namespaceUri then { id.nodeId with namespaceIndex := 0 } else id.nodeId
  namespaceUri := nullIfEmpty id.namespaceUri
  serverIndex := id.serverIndex

/-- `received` changes nothing. -/
def ExpandedNodeId.isReceived (id : ExpandedNodeId) : Bool :=
  match id.namespaceUri with
  | none => true
  | some [] => false
  | some (_ :: _) => id.nodeId.namespaceIndex == 0

mutual

/-- What the receiver gets of a value, by recursion on it. -/
def Value.received : Value → Value
  | .expandedNodeId id => .expandedNodeId id.received
  | .variant v => .variant (variantReceived v)
  | .dataValue d => .dataValue (dataValueReceived d)
  | .array xs => .array (elementsReceived xs)
  | x => x
  termination_by structural x => x

/-- Only an array has dimensions, and dimensions of length zero are not sent. -/
def variantReceived : VariantOf Value → VariantOf Value
  | ⟨none, _, _⟩ => default
  | ⟨some type, data, dimensions⟩ =>
    ⟨some type, data.received, if data.isArray then nullIfEmpty dimensions else none⟩
  termination_by structural v => v

/-- A member that is not there is zero. -/
def dataValueReceived : DataValueOf Value → DataValueOf Value
  | ⟨hasValue, hasStatus, hasSourceTimestamp, hasServerTimestamp, hasSourcePicoseconds,
      hasServerPicoseconds, value, status, sourceTimestamp, sourcePicoseconds, serverTimestamp,
      serverPicoseconds⟩ =>
    ⟨hasValue, hasStatus, hasSourceTimestamp, hasServerTimestamp, hasSourcePicoseconds,
      hasServerPicoseconds, if hasValue then variantReceived value else default,
      if hasStatus then status else 0, if hasSourceTimestamp then sourceTimestamp else 0,
      if hasSourcePicoseconds then sourcePicoseconds else 0,
      if hasServerTimestamp then serverTimestamp else 0,
      if hasServerPicoseconds then serverPicoseconds else 0⟩
  termination_by structural d => d

def elementsReceived : List Value → List Value
  | [] => []
  | x :: xs => x.received :: elementsReceived xs
  termination_by structural xs => xs

end

/-- A Variant after `UA_Variant_init`. -/
def variantIsInitial : VariantOf Value → Bool
  | ⟨type, data, dimensions⟩ => type.isNone && data.isNull && dimensions.isNone

mutual

/-- `received` changes nothing (`received_eq_iff`). -/
def Value.isReceived : Value → Bool
  | .expandedNodeId id => id.isReceived
  | .variant v => variantIsReceived v
  | .dataValue d => dataValueIsReceived d
  | .array xs => elementsAreReceived xs
  | _ => true
  termination_by structural x => x

def variantIsReceived : VariantOf Value → Bool
  | ⟨none, data, dimensions⟩ => variantIsInitial ⟨none, data, dimensions⟩
  | ⟨some _, data, dimensions⟩ =>
    data.isReceived && if data.isArray then dimensions != some [] else dimensions.isNone
  termination_by structural v => v

def dataValueIsReceived : DataValueOf Value → Bool
  | ⟨hasValue, hasStatus, hasSourceTimestamp, hasServerTimestamp, hasSourcePicoseconds,
      hasServerPicoseconds, value, status, sourceTimestamp, sourcePicoseconds, serverTimestamp,
      serverPicoseconds⟩ =>
    (if hasValue then variantIsReceived value else variantIsInitial value) &&
      (hasStatus || status == 0) && (hasSourceTimestamp || sourceTimestamp == 0) &&
      (hasSourcePicoseconds || sourcePicoseconds == 0) &&
      (hasServerTimestamp || serverTimestamp == 0) &&
      (hasServerPicoseconds || serverPicoseconds == 0)
  termination_by structural d => d

def elementsAreReceived : List Value → Bool
  | [] => true
  | x :: xs => x.isReceived && elementsAreReceived xs
  termination_by structural xs => xs

end

/-- An empty URI arrives as a null one. -/
theorem ExpandedNodeId.received_eq_iff (id : ExpandedNodeId) :
    id.received = id ↔ id.isReceived = true := by
  obtain ⟨⟨ns, identifier⟩, uri, serverIndex⟩ := id
  cases uri with
  | none => simp [ExpandedNodeId.received, ExpandedNodeId.isReceived, nullIfEmpty, hasBytes]
  | some bytes =>
    cases bytes with
    | nil => simp [ExpandedNodeId.received, ExpandedNodeId.isReceived, nullIfEmpty, hasBytes]
    | cons b bytes =>
      have hzero : (0 : UInt16) = ns ↔ ns = 0 := ⟨Eq.symm, Eq.symm⟩
      simp [ExpandedNodeId.received, ExpandedNodeId.isReceived, nullIfEmpty, hasBytes, hzero]

/-- A list arrives as it is unless it is empty. -/
theorem nullIfEmpty_eq_self_iff {α : Type} [DecidableEq α] {xs : Option (List α)} :
    nullIfEmpty xs = xs ↔ (xs != some []) = true := by
  cases xs with
  | none => simp [nullIfEmpty]
  | some ys =>
    cases ys with
    | nil => simp [nullIfEmpty]
    | cons y ys => simp [nullIfEmpty]

/-- The empty Variant arrives as the initial one. -/
theorem default_eq_iff (v : VariantOf Value) : default = v ↔ variantIsInitial v = true := by
  obtain ⟨type, data, dimensions⟩ := v
  show (⟨none, .null, none⟩ : Variant) = _ ↔ _
  cases type <;> cases data <;> cases dimensions <;> simp [variantIsInitial, Value.isNull]

/-- A number that is zero where it is not sent. -/
theorem ite_zero_eq_iff {α : Type} [OfNat α 0] [BEq α] [LawfulBEq α] (c : Bool) (n : α) :
    (if c then n else 0) = n ↔ (c || n == 0) = true := by
  cases c with
  | true => simp
  | false =>
    rw [Bool.false_or, beq_iff_eq]
    exact ⟨Eq.symm, Eq.symm⟩

mutual

/-- **The values that arrive as they are**, by recursion on the value. -/
theorem Value.received_eq_iff (x : Value) : x.received = x ↔ x.isReceived = true := by
  match x with
  | .expandedNodeId id =>
    simp only [Value.received, Value.isReceived, Value.expandedNodeId.injEq]
    exact id.received_eq_iff
  | .variant v =>
    simp only [Value.received, Value.isReceived, Value.variant.injEq]
    exact variantReceived_eq_iff v
  | .dataValue d =>
    simp only [Value.received, Value.isReceived, Value.dataValue.injEq]
    exact dataValueReceived_eq_iff d
  | .array xs =>
    simp only [Value.received, Value.isReceived, Value.array.injEq]
    exact elementsReceived_eq_iff xs
  | .null | .byte _ | .uint16 _ | .uint32 _ | .uint64 _ | .string _ | .guid _ | .nodeId _
  | .qualifiedName _ | .localizedText _ | .raw _ | .extensionObject _ | .diagnosticInfo _
  | .struct _ | .optStruct _ | .union _ _ => simp [Value.received, Value.isReceived]
  termination_by structural x

theorem variantReceived_eq_iff (v : VariantOf Value) :
    variantReceived v = v ↔ variantIsReceived v = true := by
  match v with
  | ⟨none, data, dimensions⟩ => exact default_eq_iff _
  | ⟨some type, data, dimensions⟩ =>
    have hdata := Value.received_eq_iff data
    simp only [variantReceived, variantIsReceived, VariantOf.mk.injEq, true_and, Bool.and_eq_true]
    refine and_congr hdata ?_
    cases data.isArray with
    | true => exact nullIfEmpty_eq_self_iff
    | false => cases dimensions <;> simp
  termination_by structural v

theorem dataValueReceived_eq_iff (d : DataValueOf Value) :
    dataValueReceived d = d ↔ dataValueIsReceived d = true := by
  match d with
  | ⟨hasValue, hasStatus, hasSourceTimestamp, hasServerTimestamp, hasSourcePicoseconds,
      hasServerPicoseconds, value, status, sourceTimestamp, sourcePicoseconds, serverTimestamp,
      serverPicoseconds⟩ =>
    have hvalue : (if hasValue then variantReceived value else default) = value ↔
        (if hasValue then variantIsReceived value else variantIsInitial value) = true := by
      cases hasValue with
      | true => exact variantReceived_eq_iff value
      | false => exact default_eq_iff value
    simp only [dataValueReceived, dataValueIsReceived, DataValueOf.mk.injEq, true_and,
      Bool.and_eq_true, ite_zero_eq_iff, hvalue, and_assoc]
  termination_by structural d

theorem elementsReceived_eq_iff (xs : List Value) :
    elementsReceived xs = xs ↔ elementsAreReceived xs = true := by
  match xs with
  | [] => simp [elementsReceived, elementsAreReceived]
  | x :: xs =>
    simp only [elementsReceived, elementsAreReceived, List.cons.injEq, Bool.and_eq_true]
    exact and_congr (Value.received_eq_iff x) (elementsReceived_eq_iff xs)
  termination_by structural xs

end

/-! ## Without custom types

No type is looked up by its encoding id, so that the bytes are the same without them. -/

mutual

/-- No type is looked up by its id, and so the bytes do not depend on the custom types. -/
theorem Value.wire_withoutCustomTypes (x : Value) :
    x.wireBytes T.withoutCustomTypes = x.wireBytes T ∧
      x.wireFits T.withoutCustomTypes = x.wireFits T := by
  match x with
  | .variant v => exact variantWire_withoutCustomTypes v
  | .dataValue d => exact dataValueWire_withoutCustomTypes d
  | .array xs =>
    obtain ⟨hbytes, hfits⟩ := elementsWire_withoutCustomTypes xs
    simp only [Value.wireBytes, Value.wireFits, hbytes, hfits, and_self]
  | .null | .byte _ | .uint16 _ | .uint32 _ | .uint64 _ | .string _ | .guid _ | .nodeId _
  | .expandedNodeId _ | .qualifiedName _ | .localizedText _ | .raw _ | .extensionObject _
  | .diagnosticInfo _ | .struct _ | .optStruct _ | .union _ _ => exact ⟨rfl, rfl⟩
  termination_by structural x

theorem variantWire_withoutCustomTypes (v : VariantOf Value) :
    variantWireBytes T.withoutCustomTypes v = variantWireBytes T v ∧
      variantWireFits T.withoutCustomTypes v = variantWireFits T v := by
  match v with
  | ⟨none, data, dimensions⟩ => exact ⟨rfl, rfl⟩
  | ⟨some type, data, dimensions⟩ =>
    obtain ⟨hbytes, hfits⟩ := Value.wire_withoutCustomTypes data
    simp only [variantWireBytes, variantWireFits, hbytes, hfits, DataTypes.withoutCustomTypes_get,
      and_self]
  termination_by structural v

theorem dataValueWire_withoutCustomTypes (d : DataValueOf Value) :
    dataValueWireBytes T.withoutCustomTypes d = dataValueWireBytes T d ∧
      dataValueWireFits T.withoutCustomTypes d = dataValueWireFits T d := by
  match d with
  | ⟨hasValue, _, _, _, _, _, value, _, _, _, _, _⟩ =>
    obtain ⟨hbytes, hfits⟩ := variantWire_withoutCustomTypes value
    simp only [dataValueWireBytes, dataValueWireFits, hbytes, hfits, and_self]
  termination_by structural d

theorem elementsWire_withoutCustomTypes (xs : List Value) :
    elementsWireBytes T.withoutCustomTypes xs = elementsWireBytes T xs ∧
      elementsWireFits T.withoutCustomTypes xs = elementsWireFits T xs := by
  match xs with
  | [] => exact ⟨rfl, rfl⟩
  | x :: xs =>
    obtain ⟨hbytes, hfits⟩ := Value.wire_withoutCustomTypes x
    obtain ⟨hbytes', hfits'⟩ := elementsWire_withoutCustomTypes xs
    simp only [elementsWireBytes, elementsWireFits, hbytes, hfits, hbytes', hfits', and_self]
  termination_by structural xs

end

end OpenPubSub
