import OpenPubSub.Types.DecodeBounds

/-!
# What a Variant on the wire decodes to

The type and the kind of data of a decoded Variant, read off the bytes at which it
begins: the encoding byte, the type id of a wrapped structure, the array length.

- `variantTypeAt` and `variantIsArrayAt` and `arrayLengthAt` look at the bytes only.
- `Value.hasKind` tells whether an object has the representation of a built-in kind.
- **`variantDecodeBinary_shape`**: what a successful decoder returns. The data of an
  array with a length of zero or less is NULL or the empty-array sentinel.
-/

namespace OpenPubSub

open Routine

/-! ## Looking at the bytes -/

section

variable (src : Bytes) (T : DataTypes)

/-- The array length at `p`. -/
def arrayLengthAt (p : Nat) : Int := signedLength (uint32OfMemory ((src.drop p).take 4))

/-- The structure an ExtensionObject at `c` holds, if it is of a known type. -/
def wrappedTypeAt (c : Ctx) : Option DataTypeRef :=
  match (nodeIdDecodeBinary src T >>= fun typeId =>
    (Prod.mk typeId) <$> byteDecodeBinary src) c with
  | .done (typeId, encoding) _ =>
    if encoding = 1 then T.findDataTypeByBinary typeId else none
  | _ => none

/-- The array bit of the Variant at `p`. -/
def variantIsArrayAt (p : Nat) : Bool := byteAt src p &&& variantArrayMask != 0

/-- The type of the Variant at `c`. -/
def variantTypeAt (c : Ctx) : Option DataTypeRef :=
  (variantTypeKind (byteAt src c.pos)).map fun kind =>
    if variantIsArrayAt src c.pos = false ∧ kind = .extensionObject then
      (wrappedTypeAt src T ⟨c.pos + 1, c.depth + 1⟩).getD (DataTypes.builtin .extensionObject)
    else DataTypes.builtin kind

end

/-! ## Objects of the built-in kinds -/

/-- The object has the representation of the built-in kind. Other kinds are not
told apart. -/
def Value.hasKind (kind : DataTypeKind) (v : Value) : Bool :=
  match kind, v with
  | .boolean, .byte _ | .sByte, .byte _ | .byte, .byte _ => true
  | .int16, .uint16 _ | .uint16, .uint16 _ => true
  | .int32, .uint32 _ | .uint32, .uint32 _ | .float, .uint32 _ | .statusCode, .uint32 _ => true
  | .int64, .uint64 _ | .uint64, .uint64 _ | .double, .uint64 _ | .dateTime, .uint64 _ => true
  | .string, .string _ | .byteString, .string _ | .xmlElement, .string _ => true
  | .guid, .guid _ => true
  | .nodeId, .nodeId _ => true
  | .expandedNodeId, .expandedNodeId _ => true
  | .qualifiedName, .qualifiedName _ => true
  | .localizedText, .localizedText _ => true
  | .extensionObject, .extensionObject _ => true
  | .dataValue, .dataValue _ => true
  | .variant, .variant _ => true
  | .diagnosticInfo, .diagnosticInfo _ => true
  | _, _ => !kind.isBuiltin

variable {src : Bytes} {T : DataTypes} {α : Type}

theorem Value.hasKind_of_not_builtin {kind : DataTypeKind} (h : kind.isBuiltin = false)
    (v : Value) : v.hasKind kind = true := by
  cases kind <;> first | rfl | cases h

/-- Mapping a constructor over a decoder. -/
theorem hasKind_of_map {x : Dec α} {f : α → Value} {kind : DataTypeKind}
    (hf : ∀ a, (f a).hasKind kind = true) {s t : Ctx} {v : Value}
    (h : (f <$> x) s = .done v t) : v.hasKind kind = true := by
  obtain ⟨a, -, rfl⟩ := map_eq_done.mp h
  exact hf a

/-- The jump table returns objects of the kind it is asked for. -/
theorem decodeBinaryJumpTable_hasKind {n : Nat} {kind : DataTypeKind} {type : DataTypeRef}
    {s t : Ctx} {v : Value} (h : decodeBinaryJumpTable src T n kind type s = .done v t) :
    v.hasKind kind = true := by
  cases n with
  | zero => cases h
  | succ n =>
    cases kind with
    | enum => exact Value.hasKind_of_not_builtin rfl v
    | struct => exact Value.hasKind_of_not_builtin rfl v
    | optStruct => exact Value.hasKind_of_not_builtin rfl v
    | union => exact Value.hasKind_of_not_builtin rfl v
    | decimal => exact Value.hasKind_of_not_builtin rfl v
    | bitfieldCluster => exact Value.hasKind_of_not_builtin rfl v
    | _ => exact hasKind_of_map (fun _ => rfl) h

/-- The kinds that are overlayable have a representation that is read from memory. -/
theorem Value.hasKind_ofMemory {kind : DataTypeKind} (h : kind.overlayable = true)
    (bytes : Bytes) : (Value.ofMemory kind bytes).hasKind kind = true := by
  cases kind <;> first | rfl | cases h

/-! ## Running the primitives -/

theorem uint32DecodeBinary_eq_done {s t : Ctx} {w : UInt32}
    (h : uint32DecodeBinary src s = .done w t) :
    w = uint32OfMemory ((src.drop s.pos).take 4) ∧ t = { s with pos := s.pos + 4 } := by
  obtain ⟨bytes, hb, rfl⟩ := map_eq_done.mp h
  rw [fixedDecodeBinary_run] at hb
  split at hb
  · cases hb
    exact ⟨rfl, rfl⟩
  · cases hb

theorem times_length {x : Dec α} : ∀ {n : Nat} {s t : Ctx} {as : List α},
    times x n s = .done as t → as.length = n
  | 0, _, _, _, h => by
    cases h
    rfl
  | n + 1, s, t, as, h => by
    rw [times_succ] at h
    obtain ⟨a, s', -, h⟩ := bind_eq_done.mp h
    obtain ⟨as', s'', has, h⟩ := bind_eq_done.mp h
    cases h
    exact congrArg Nat.succ (times_length has)

/-- Every element a loop collects is a result of the element decoder. -/
theorem forall_mem_times {p : α → Prop} {x : Dec α} (hx : ∀ s a t, x s = .done a t → p a) :
    ∀ {n : Nat} {s t : Ctx} {as : List α}, times x n s = .done as t → ∀ a ∈ as, p a
  | 0, _, _, _, h => by
    cases h
    simp
  | n + 1, s, t, as, h => by
    rw [times_succ] at h
    obtain ⟨a, s', ha, h⟩ := bind_eq_done.mp h
    obtain ⟨as', s'', has, h⟩ := bind_eq_done.mp h
    cases h
    exact List.forall_mem_cons.mpr ⟨hx s a s' ha, forall_mem_times hx has⟩

theorem chunks_length (k : Nat) : ∀ n bs, (chunks k n bs).length = n
  | 0, _ => rfl
  | n + 1, bs => congrArg Nat.succ (chunks_length k n (bs.drop k))

/-- An array of objects of the type, by the length at its head. -/
def ArrayShape (src : Bytes) (T : DataTypes) (p : Nat) (type : DataTypeRef) (data : Value) : Prop :=
  if arrayLengthAt src p ≤ 0 then data = .null ∨ data = .array []
  else ∃ x xs, data = .array (x :: xs) ∧
    ((T.get type).typeKind.overlayable = true → x.hasKind (T.get type).typeKind = true)

theorem valuesDecodeBinary_shape {n : Nat} {type : DataTypeRef} {s t : Ctx} {v : Value}
    (h : valuesDecodeBinary src T (decodeBinaryJumpTable src T n) type s = .done v t) :
    ArrayShape src T s.pos type v := by
  obtain ⟨elements, he, rfl⟩ := map_eq_done.mp h
  obtain ⟨length, s', hl, he⟩ := bind_eq_done.mp he
  obtain ⟨rfl, rfl⟩ := uint32DecodeBinary_eq_done hl
  show if signedLength _ ≤ 0 then _ else _
  by_cases hlen : signedLength (uint32OfMemory ((src.drop s.pos).take 4)) ≤ 0
  · -- no element: the null array and the empty one differ in the sign of the length
    rw [if_pos hlen] at he ⊢
    obtain ⟨rfl, rfl⟩ : _ = elements ∧ _ = t := by simpa using he
    split
    · exact .inl rfl
    · exact .inr rfl
  · rw [if_neg hlen] at he ⊢
    obtain ⟨-, s'', -, he⟩ := bind_eq_done.mp he
    -- a positive length is a number of elements other than zero
    have hpos : (uint32OfMemory ((src.drop s.pos).take 4)).toNat ≠ 0 := by
      intro h0
      exact hlen (by simp [signedLength, h0])
    cases hover : (T.get type).overlayable with
    -- copied: every element is cut from the bytes
    | true =>
      rw [hover, if_pos rfl] at he
      obtain ⟨bytes, -, rfl⟩ := map_eq_done.mp he
      obtain ⟨m, hm⟩ := Nat.exists_eq_succ_of_ne_zero hpos
      rw [hm]
      exact ⟨_, _, rfl, fun hk => Value.hasKind_ofMemory hk _⟩
    -- decoded one by one: the kind is that of the jump table
    | false =>
      rw [hover, if_neg Bool.false_ne_true] at he
      obtain ⟨as, has, rfl⟩ := map_eq_done.mp he
      cases as with
      | nil => exact absurd (times_length has).symm hpos
      | cons a as =>
        exact ⟨a, as, rfl, fun _ => (List.forall_mem_cons.mp
          (forall_mem_times (fun _ _ _ => decodeBinaryJumpTable_hasKind) has)).1⟩

/-! ## The Variant -/

theorem deeper_eq_done {x : Dec α} {s t : Ctx} {a : α} (h : deeper x s = .done a t) :
    ∃ t', x { s with depth := s.depth + 1 } = .done a t' ∧
      t = { t' with depth := t'.depth - 1 } := by
  unfold deeper at h
  cases hx : x { s with depth := s.depth + 1 } with
  | done b t' =>
    rw [hx] at h
    cases h
    exact ⟨t', rfl, rfl⟩
  | fail e t' => simp [hx] at h
  | fault => simp [hx] at h

/-- A structure of known type, or an ExtensionObject. -/
theorem variantDecodeBinaryUnwrapExtensionObject_shape {n : Nat} {s t : Ctx}
    {type : DataTypeRef} {data : Value}
    (h : variantDecodeBinaryUnwrapExtensionObject src T (decodeBinaryJumpTable src T n) s =
      .done (type, data) t) :
    type = (wrappedTypeAt src T s).getD (DataTypes.builtin .extensionObject) ∧
      data.hasKind (T.get type).typeKind = true := by
  change (nodeIdDecodeBinary src T >>= fun typeId => byteDecodeBinary src >>= fun encoding =>
    variantDecodeBinaryUnwrapContent T (decodeBinaryJumpTable src T n) s.pos typeId encoding) s =
      _ at h
  obtain ⟨typeId, u, hn, h⟩ := bind_eq_done.mp h
  obtain ⟨encoding, w, hb, h⟩ := bind_eq_done.mp h
  -- what the decoder looks up is what stands at the start of the content
  have hwrapped : wrappedTypeAt src T s =
      if encoding = 1 then T.findDataTypeByBinary typeId else none := by
    unfold wrappedTypeAt
    rw [bind_done hn, map_done hb]
  rw [hwrapped]
  unfold variantDecodeBinaryUnwrapContent at h
  cases hfind : (if encoding = 1 then T.findDataTypeByBinary typeId else none) with
  | some known =>
    rw [hfind] at h
    obtain ⟨-, w', -, h⟩ := bind_eq_done.mp h
    obtain ⟨v, hv, hpair⟩ := map_eq_done.mp h
    cases hpair
    exact ⟨rfl, decodeBinaryJumpTable_hasKind hv⟩
  -- back to the start: an ExtensionObject after all
  | none =>
    rw [hfind] at h
    obtain ⟨-, w', -, h⟩ := bind_eq_done.mp h
    obtain ⟨v, hv, hpair⟩ := map_eq_done.mp h
    cases hpair
    exact ⟨rfl, decodeBinaryJumpTable_hasKind hv⟩

/-- The content of a Variant of kind `kind`. -/
theorem variantDecodeBinaryContent_shape {n : Nat} {kind : DataTypeKind} {isArray : Bool}
    {s t : Ctx} {type : DataTypeRef} {data : Value} (hkind : kind.isBuiltin = true)
    (h : variantDecodeBinaryContent src T (decodeBinaryJumpTable src T n) kind isArray s =
      .done (type, data) t) :
    (type = if isArray = false ∧ kind = .extensionObject then
      (wrappedTypeAt src T s).getD (DataTypes.builtin .extensionObject)
      else DataTypes.builtin kind) ∧
    (isArray = false → data.hasKind (T.get type).typeKind = true) ∧
    (isArray = true → ArrayShape src T s.pos type data) := by
  unfold variantDecodeBinaryContent at h
  cases isArray with
  | true =>
    obtain ⟨data', hdata, hpair⟩ := map_eq_done.mp h
    cases hpair
    exact ⟨rfl, fun hf => (nomatch hf), fun _ => valuesDecodeBinary_shape hdata⟩
  | false =>
    by_cases hext : kind ≠ .extensionObject
    · rw [if_neg Bool.false_ne_true, if_pos hext] at h
      obtain ⟨data', hdata, hpair⟩ := map_eq_done.mp h
      cases hpair
      refine ⟨by rw [if_neg fun hc => hext hc.2], fun _ => ?_, fun hf => (nomatch hf)⟩
      rw [T.get_builtin hkind]
      exact decodeBinaryJumpTable_hasKind hdata
    · rw [if_neg Bool.false_ne_true, if_neg hext] at h
      obtain ⟨htype, hdata⟩ := variantDecodeBinaryUnwrapExtensionObject_shape h
      exact ⟨by rw [if_pos ⟨rfl, Decidable.not_not.mp hext⟩, htype], fun _ => hdata,
        fun hf => (nomatch hf)⟩

/-- What the decoder of a Variant at `c` returns. -/
structure VariantShape (src : Bytes) (T : DataTypes) (c : Ctx) (v : Variant) : Prop where
  type : v.type = variantTypeAt src T c
  scalar : variantIsArrayAt src c.pos = false → ∀ type, v.type = some type →
    v.data.hasKind (T.get type).typeKind = true
  array : variantIsArrayAt src c.pos = true → ∀ type, v.type = some type →
    ArrayShape src T (c.pos + 1) type v.data

theorem checkRecursion_eq_done {s t : Ctx} {u : Unit} (h : checkRecursion s = .done u t) :
    t = s := by
  unfold checkRecursion at h
  split at h
  · cases h
  · cases h
    rfl

/-- **What a successful Variant decoder returns.** -/
theorem variantDecodeBinary_shape {n : Nat} {c t : Ctx} {v : Variant}
    (h : variantDecodeBinary src T (decodeBinaryJumpTable src T n) c = .done v t) :
    VariantShape src T c v := by
  obtain ⟨b, c', hb, h⟩ := bind_eq_done.mp h
  obtain ⟨rfl, rfl⟩ := byteDecodeBinary_eq_done hb
  by_cases h0 : byteAt src c.pos = 0
  · -- the empty Variant
    rw [if_pos h0] at h
    cases h
    refine ⟨?_, ?_, ?_⟩
    · unfold variantTypeAt
      rw [h0]
      rfl
    · rintro _ _ ⟨⟩
    · rintro _ _ ⟨⟩
  · rw [if_neg h0] at h
    simp only at h
    cases hkind : variantTypeKind (byteAt src c.pos) with
    | none => simp [hkind] at h
    | some kind =>
      simp only [hkind] at h
      -- a Variant alone in a Variant is refused
      split at h
      · cases h
      · obtain ⟨_, c', hcheck, h⟩ := bind_eq_done.mp h
        obtain rfl := checkRecursion_eq_done hcheck
        obtain ⟨t', h, -⟩ := deeper_eq_done h
        obtain ⟨⟨type, data⟩, u, hcontent, h⟩ := accum_eq_done.mp h
        obtain ⟨dimensions, w, -, h⟩ := accum_eq_done.mp h
        cases h
        obtain ⟨htype, hscalar, harray⟩ :=
          variantDecodeBinaryContent_shape (variantTypeKind_isBuiltin hkind) hcontent
        refine ⟨?_, ?_, ?_⟩
        · unfold variantTypeAt
          rw [hkind, Option.map_some]
          exact congrArg some htype
        · rintro hf _ ⟨⟩
          exact hscalar hf
        · rintro ht _ ⟨⟩
          exact harray ht

/-- The Variant in a DataValue, if the mask announces one. -/
theorem dataValueDecodeBinary_value {n : Nat} {c t : Ctx} {v : DataValue}
    (h : dataValueDecodeBinary src T (decodeBinaryJumpTable src T n) c = .done v t) :
    if byteAt src c.pos &&& 0x01 != 0 then VariantShape src T ⟨c.pos + 1, c.depth + 1⟩ v.value
    else v.value = default := by
  obtain ⟨mask, c', hb, h⟩ := bind_eq_done.mp h
  obtain ⟨rfl, rfl⟩ := byteDecodeBinary_eq_done hb
  obtain ⟨_, c', hcheck, h⟩ := bind_eq_done.mp h
  obtain rfl := checkRecursion_eq_done hcheck
  obtain ⟨t', h, -⟩ := deeper_eq_done h
  obtain ⟨value, _, hvalue, h⟩ := accum_eq_done.mp h
  obtain ⟨status, _, -, h⟩ := accum_eq_done.mp h
  obtain ⟨sourceTimestamp, _, -, h⟩ := accum_eq_done.mp h
  obtain ⟨sourcePicoseconds, _, -, h⟩ := accum_eq_done.mp h
  obtain ⟨serverTimestamp, _, -, h⟩ := accum_eq_done.mp h
  obtain ⟨serverPicoseconds, _, -, h⟩ := accum_eq_done.mp h
  cases h
  unfold whenSet at hvalue
  split at hvalue
  · next hmask =>
    rw [if_pos hmask]
    exact variantDecodeBinary_shape hvalue
  · next hmask =>
    rw [if_neg hmask]
    cases hvalue
    rfl

end OpenPubSub
