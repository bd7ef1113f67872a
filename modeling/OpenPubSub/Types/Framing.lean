import OpenPubSub.Types.VariantShape

/-!
# What is decoded in a message is decoded in every message around it

A decoder on `src`, and on a message in which `src` stands `k` bytes behind the beginning, with
anything in front and behind.

- `Sits k src src'`: where the bytes are.
- `Framed k x x'`: what `x` reads, `x'` reads `k` bytes further on. One rule for each way to
  combine decoders.
- **`decodeBinaryJumpTable_framed`**: the jump tables. There may be more fuel in the larger
  message, and never less.
-/

namespace OpenPubSub

open Routine

/-- `src` stands in `src'`, `k` bytes behind the beginning. -/
def Sits (k : Nat) (src src' : Bytes) : Prop :=
  ∃ front behind, front.length = k ∧ src' = front ++ src ++ behind

/-- The cursor in the larger message. -/
def Ctx.shift (k : Nat) (c : Ctx) : Ctx := { c with pos := k + c.pos }

/-- What `x` reads, `x'` reads `k` bytes further on. -/
def Framed {α : Type} (k : Nat) (x x' : Dec α) : Prop :=
  ∀ s a t, x s = .done a t → x' (s.shift k) = .done a (t.shift k)

variable {α β : Type} {k : Nat} {src src' : Bytes}

namespace Sits

/-- The larger message ends where the smaller one does, or behind it. -/
theorem length (h : Sits k src src') : k + src.length ≤ src'.length := by
  obtain ⟨front, behind, rfl, rfl⟩ := h
  simp only [List.length_append]
  omega

/-- The same bytes are read there. -/
theorem window (h : Sits k src src') {p j : Nat} (hp : p + j ≤ src.length) :
    (src'.drop (k + p)).take j = (src.drop p).take j := by
  obtain ⟨front, behind, rfl, rfl⟩ := h
  rw [List.append_assoc, List.drop_length_add_append, List.drop_append_of_le_length (by omega),
    List.take_append_of_le_length (by rw [List.length_drop]; omega)]

end Sits

/-! ## Rules -/

namespace Framed

theorem pure {a : α} : Framed k (Pure.pure a : Dec α) (Pure.pure a) := by
  intro s b t h
  cases h
  rfl

theorem fail {e : ErrorCode} : Framed k (Routine.fail e : Dec α) (Routine.fail e) := by
  intro s a t h
  cases h

/-- One decoder after the other, both further on. -/
theorem bind {x x' : Dec α} {f f' : α → Dec β} (hx : Framed k x x')
    (hf : ∀ a, Framed k (f a) (f' a)) : Framed k (x >>= f) (x' >>= f') := by
  intro s b u h
  obtain ⟨a, t, hxs, hft⟩ := bind_eq_done.mp h
  exact bind_eq_done.mpr ⟨a, t.shift k, hx _ _ _ hxs, hf a _ _ _ hft⟩

theorem map {x x' : Dec α} {f : α → β} (hx : Framed k x x') : Framed k (f <$> x) (f <$> x') :=
  bind hx fun _ => pure

/-- The accumulating style. Only successes are compared, and in a success every part succeeded. -/
theorem accumGuard [Inhabited α] {x x' : Dec α} {g g' : Dec Unit} {f f' : α → Dec β}
    (hx : Framed k x x') (hg : Framed k g g') (hf : ∀ a, Framed k (f a) (f' a)) :
    Framed k (Routine.accumGuard x g f) (Routine.accumGuard x' g' f') := by
  intro s b u h
  obtain ⟨a, t, t', hxs, hgt, hft⟩ := accumGuard_eq_done.mp h
  exact accumGuard_eq_done.mpr ⟨a, t.shift k, t'.shift k, hx _ _ _ hxs, hg _ _ _ hgt,
    hf a _ _ _ hft⟩

theorem accum [Inhabited α] {x x' : Dec α} {f f' : α → Dec β} (hx : Framed k x x')
    (hf : ∀ a, Framed k (f a) (f' a)) : Framed k (Routine.accum x f) (Routine.accum x' f') :=
  accumGuard hx pure hf

/-- A part that may be missing. -/
theorem whenSet [Inhabited α] {c : Bool} {x x' : Dec α} (hx : Framed k x x') :
    Framed k (whenSet c x) (whenSet c x') := by
  cases c with
  | true => exact hx
  | false => exact pure

/-- An array, element by element. -/
theorem times {x x' : Dec α} (hx : Framed k x x') : ∀ j, Framed k (times x j) (times x' j)
  | 0 => pure
  | j + 1 => bind hx fun _ => bind (times hx j) fun _ => pure

/-- Nesting does not depend on where the bytes stand. -/
theorem deeper {x x' : Dec α} (hx : Framed k x x') : Framed k (deeper x) (deeper x') := by
  intro s a t h
  unfold OpenPubSub.deeper at h ⊢
  cases hxs : x { s with depth := s.depth + 1 } with
  | done b u =>
    rw [hxs] at h
    cases h
    have hrun : x' { s.shift k with depth := s.depth + 1 } = .done a (u.shift k) :=
      hx _ _ _ hxs
    simp only [Ctx.shift] at hrun ⊢
    rw [hrun]
  | fail e u => simp [hxs] at h
  | fault => simp [hxs] at h

/-- The counter is the same on both sides. -/
theorem checkRecursion : Framed k checkRecursion checkRecursion := by
  intro s a t h
  unfold OpenPubSub.checkRecursion at h ⊢
  by_cases hdepth : encodingMaxRecursion < s.depth
  · rw [if_pos hdepth] at h
    cases h
  · rw [if_neg hdepth] at h
    cases h
    exact if_neg hdepth

/-- The cursor moves by the same distance. -/
theorem skip (j : Nat) : Framed k (skip j) (OpenPubSub.skip j) := by
  intro s a t h
  cases h
  show Outcome.done () (⟨k + s.pos + j, s.depth⟩ : Ctx) = .done () ⟨k + (s.pos + j), s.depth⟩
  rw [Nat.add_assoc]

/-- There is no less behind the cursor in the larger message. -/
theorem need (hsrc : Sits k src src') (j : Nat) :
    Framed k (need src j) (OpenPubSub.need src' j) := by
  intro s a t h
  have hlen := hsrc.length
  unfold OpenPubSub.need at h ⊢
  by_cases hj : s.pos + j ≤ src.length
  · rw [if_pos hj] at h
    cases h
    refine if_pos ?_
    show k + s.pos + j ≤ src'.length
    omega
  · rw [if_neg hj] at h
    cases h

/-- The same bytes are found further on. -/
theorem peek (hsrc : Sits k src src') (j : Nat) :
    Framed k (peek src j) (OpenPubSub.peek src' j) := by
  intro s a t h
  have hlen := hsrc.length
  unfold OpenPubSub.peek at h ⊢
  by_cases hj : s.pos + j ≤ src.length
  · rw [if_pos hj] at h
    cases h
    have hj' : (s.shift k).pos + j ≤ src'.length := by
      show k + s.pos + j ≤ src'.length
      omega
    rw [if_pos hj']
    exact congrArg (fun bytes => Outcome.done bytes (s.shift k)) (hsrc.window hj)
  · rw [if_neg hj] at h
    cases h

end Framed

/-! ## Primitives -/

section

variable (hsrc : Sits k src src')
include hsrc

theorem peekByte_framed : Framed k (peekByte src) (peekByte src') :=
  .bind (.need hsrc 1) fun _ => (Framed.peek hsrc 1).map

/-- A number of fixed size. -/
theorem fixedDecodeBinary_framed (j : Nat) :
    Framed k (fixedDecodeBinary src j) (fixedDecodeBinary src' j) :=
  .bind (.need hsrc j) fun _ => .bind (.peek hsrc j) fun _ => .bind (.skip j) fun _ => .pure

theorem byteDecodeBinary_framed : Framed k (byteDecodeBinary src) (byteDecodeBinary src') :=
  (fixedDecodeBinary_framed hsrc 1).map

theorem uint16DecodeBinary_framed : Framed k (uint16DecodeBinary src) (uint16DecodeBinary src') :=
  (fixedDecodeBinary_framed hsrc 2).map

theorem uint32DecodeBinary_framed : Framed k (uint32DecodeBinary src) (uint32DecodeBinary src') :=
  (fixedDecodeBinary_framed hsrc 4).map

theorem uint64DecodeBinary_framed : Framed k (uint64DecodeBinary src) (uint64DecodeBinary src') :=
  (fixedDecodeBinary_framed hsrc 8).map

/-! ## Built-in types -/

variable {T : DataTypes}

/-- An array. The plausibility check lets pass what it let pass in the smaller message. -/
theorem arrayDecodeBinary_framed {type : DataType} {ofMemory : Bytes → α} {element element' : Dec α}
    (he : Framed k element element') :
    Framed k (arrayDecodeBinary src type ofMemory element)
      (arrayDecodeBinary src' type ofMemory element') := by
  refine .bind (uint32DecodeBinary_framed hsrc) fun length => ?_
  by_cases h : signedLength length ≤ 0
  · rw [if_pos h, if_pos h]
    exact .pure
  · rw [if_neg h, if_neg h]
    -- there is more behind the cursor than in the smaller message
    refine .bind (.need hsrc _) fun _ => ?_
    cases type.overlayable with
    | true => exact (fixedDecodeBinary_framed hsrc _).map
    | false => exact (he.times _).map

theorem stringDecodeBinary_framed :
    Framed k (stringDecodeBinary src T) (stringDecodeBinary src' T) :=
  arrayDecodeBinary_framed hsrc (byteDecodeBinary_framed hsrc)

theorem dimensionsDecodeBinary_framed :
    Framed k (dimensionsDecodeBinary src T) (dimensionsDecodeBinary src' T) :=
  arrayDecodeBinary_framed hsrc (uint32DecodeBinary_framed hsrc)

theorem guidDecodeBinary_framed : Framed k (guidDecodeBinary src) (guidDecodeBinary src') :=
  .accumGuard
    (.accum (uint32DecodeBinary_framed hsrc) fun _ =>
      .accum (uint16DecodeBinary_framed hsrc) fun _ =>
      .accum (uint16DecodeBinary_framed hsrc) fun _ => .pure)
    (.need hsrc 8) fun _ => (fixedDecodeBinary_framed hsrc 8).map

/-- The encoding byte decides about the rest. -/
theorem nodeIdDecodeBinary_framed :
    Framed k (nodeIdDecodeBinary src T) (nodeIdDecodeBinary src' T) := by
  have hword := uint16DecodeBinary_framed hsrc
  refine .bind (byteDecodeBinary_framed hsrc) fun encodingByte => ?_
  match nodeIdForm encodingByte with
  | 0 => exact (byteDecodeBinary_framed hsrc).map
  | 1 => exact .accum (byteDecodeBinary_framed hsrc) fun _ => .accum hword fun _ => .pure
  | 2 => exact .accum hword fun _ => .accum (uint32DecodeBinary_framed hsrc) fun _ => .pure
  | 3 => exact .accum hword fun _ => .accum (stringDecodeBinary_framed hsrc) fun _ => .pure
  | 4 => exact .accum hword fun _ => .accum (guidDecodeBinary_framed hsrc) fun _ => .pure
  | 5 => exact .accum hword fun _ => .accum (stringDecodeBinary_framed hsrc) fun _ => .pure
  | _ + 6 => exact .fail

/-- The flags are in the encoding byte of the NodeId, which is looked at in advance. -/
theorem expandedNodeIdDecodeBinary_framed :
    Framed k (expandedNodeIdDecodeBinary src T) (expandedNodeIdDecodeBinary src' T) :=
  .bind (peekByte_framed hsrc) fun _ => .accum (nodeIdDecodeBinary_framed hsrc) fun _ =>
    .accum (.whenSet (stringDecodeBinary_framed hsrc)) fun _ =>
      .accum (.whenSet (uint32DecodeBinary_framed hsrc)) fun _ => .pure

theorem qualifiedNameDecodeBinary_framed :
    Framed k (qualifiedNameDecodeBinary src T) (qualifiedNameDecodeBinary src' T) :=
  .accum (uint16DecodeBinary_framed hsrc) fun _ =>
    .accum (stringDecodeBinary_framed hsrc) fun _ => .pure

theorem localizedTextDecodeBinary_framed :
    Framed k (localizedTextDecodeBinary src T) (localizedTextDecodeBinary src' T) :=
  .accum (byteDecodeBinary_framed hsrc) fun _ =>
    .accum (.whenSet (stringDecodeBinary_framed hsrc)) fun _ =>
      .accum (.whenSet (stringDecodeBinary_framed hsrc)) fun _ => .pure

omit hsrc in
theorem optional_framed {mask bit : UInt8} {x x' : Dec α} (hx : Framed k x x') :
    Framed k (optional mask bit x) (optional mask bit x') :=
  .whenSet hx.map

/-- Induction on the fuel of the smaller message. -/
theorem diagnosticInfoDecodeBinary_framed : ∀ {m m' : Nat}, m ≤ m' →
    Framed k (diagnosticInfoDecodeBinary src T m) (diagnosticInfoDecodeBinary src' T m')
  | 0, _, _ => fun _ _ _ h => nomatch h
  | m + 1, m' + 1, hm => by
    have hword := uint32DecodeBinary_framed hsrc
    have hinner := diagnosticInfoDecodeBinary_framed (Nat.le_of_succ_le_succ hm)
    refine .bind (byteDecodeBinary_framed hsrc) fun mask => ?_
    refine .accumGuard ?_ (.whenSet .checkRecursion) fun _ =>
      .accum (optional_framed hinner.deeper) fun _ => .pure
    exact .accum (optional_framed hword) fun _ => .accum (optional_framed hword) fun _ =>
      .accum (optional_framed hword) fun _ => .accum (optional_framed hword) fun _ =>
      .accum (optional_framed (stringDecodeBinary_framed hsrc)) fun _ =>
      .accum (optional_framed hword) fun _ => .pure

/-! ## Nested types -/

variable {jump jump' : Jump} (hjump : ∀ kind type, Framed k (jump kind type) (jump' kind type))
include hjump

/-- The elements are read through the jump table. -/
theorem valuesDecodeBinary_framed (type : DataTypeRef) :
    Framed k (valuesDecodeBinary src T jump type) (valuesDecodeBinary src' T jump' type) :=
  (arrayDecodeBinary_framed hsrc (hjump _ _)).map

/-- A type id that is known leads to an object behind the length, any other to a ByteString. -/
theorem extensionObjectDecodeBinaryContent_framed (typeId : NodeId) :
    Framed k (extensionObjectDecodeBinaryContent src T jump typeId)
      (extensionObjectDecodeBinaryContent src' T jump' typeId) := by
  unfold extensionObjectDecodeBinaryContent
  cases T.findDataTypeByBinary typeId with
  | none => exact (stringDecodeBinary_framed hsrc).map
  | some type => exact .bind (.skip 4) fun _ => (hjump _ _).map

/-- A type id, an encoding byte, and a body. -/
theorem extensionObjectDecodeBinary_framed :
    Framed k (extensionObjectDecodeBinary src T jump)
      (extensionObjectDecodeBinary src' T jump') := by
  refine .bind (.accum (nodeIdDecodeBinary_framed hsrc) fun _ =>
    .accum (byteDecodeBinary_framed hsrc) fun _ => .pure) fun header => ?_
  obtain ⟨binTypeId, encoding⟩ := header
  match h : encoding.toNat with
  | 0 =>
    simp only [h]
    exact .pure
  | 1 =>
    simp only [h]
    exact extensionObjectDecodeBinaryContent_framed hsrc hjump binTypeId
  | 2 =>
    simp only [h]
    exact (stringDecodeBinary_framed hsrc).map
  | _ + 3 =>
    simp only [h]
    exact .fail

/-- Where the content is read once more, it starts at the old position in both. -/
theorem variantDecodeBinaryUnwrapExtensionObject_framed :
    Framed k (variantDecodeBinaryUnwrapExtensionObject src T jump)
      (variantDecodeBinaryUnwrapExtensionObject src' T jump') := by
  intro s a t h
  have hcontent : ∀ typeId encoding, Framed k
      (variantDecodeBinaryUnwrapContent T jump s.pos typeId encoding)
      (variantDecodeBinaryUnwrapContent T jump' (k + s.pos) typeId encoding) := by
    intro typeId encoding
    unfold variantDecodeBinaryUnwrapContent
    split
    · exact .bind (.skip 4) fun _ => (hjump _ _).map
    · refine .bind (fun _ _ _ hback => ?_) fun _ => (hjump _ _).map
      cases hback
      rfl
  have hall : Framed k
      (nodeIdDecodeBinary src T >>= fun typeId => byteDecodeBinary src >>= fun encoding =>
        variantDecodeBinaryUnwrapContent T jump s.pos typeId encoding)
      (nodeIdDecodeBinary src' T >>= fun typeId => byteDecodeBinary src' >>= fun encoding =>
        variantDecodeBinaryUnwrapContent T jump' (k + s.pos) typeId encoding) :=
    .bind (nodeIdDecodeBinary_framed hsrc) fun _ => .bind (byteDecodeBinary_framed hsrc) fun _ =>
      hcontent _ _
  exact hall _ _ _ h

/-- An array, an ExtensionObject that is unwrapped, or a single object. -/
theorem variantDecodeBinaryContent_framed (kind : DataTypeKind) (isArray : Bool) :
    Framed k (variantDecodeBinaryContent src T jump kind isArray)
      (variantDecodeBinaryContent src' T jump' kind isArray) := by
  unfold variantDecodeBinaryContent
  cases isArray with
  | true => exact (valuesDecodeBinary_framed hsrc hjump _).map
  | false =>
    by_cases hx : kind ≠ .extensionObject
    · rw [if_neg Bool.false_ne_true, if_pos hx, if_neg Bool.false_ne_true, if_pos hx]
      exact (hjump _ _).map
    · rw [if_neg Bool.false_ne_true, if_neg hx, if_neg Bool.false_ne_true, if_neg hx]
      exact variantDecodeBinaryUnwrapExtensionObject_framed hsrc hjump

/-- The encoding byte says what follows, and whether there are dimensions. -/
theorem variantDecodeBinary_framed :
    Framed k (variantDecodeBinary src T jump) (variantDecodeBinary src' T jump') := by
  refine .bind (byteDecodeBinary_framed hsrc) fun encodingByte => ?_
  by_cases h0 : encodingByte = 0
  · rw [if_pos h0, if_pos h0]
    exact .pure
  · rw [if_neg h0, if_neg h0]
    simp only
    cases variantTypeKind encodingByte with
    | none => exact .fail
    | some kind =>
      simp only
      split
      · exact .fail
      · refine .bind .checkRecursion fun _ => .deeper ?_
        exact .accum (variantDecodeBinaryContent_framed hsrc hjump kind _) fun _ =>
          .accum (.whenSet (dimensionsDecodeBinary_framed hsrc)) fun _ => .pure

/-- The encoding mask says which members follow. -/
theorem dataValueDecodeBinary_framed :
    Framed k (dataValueDecodeBinary src T jump) (dataValueDecodeBinary src' T jump') :=
  .bind (byteDecodeBinary_framed hsrc) fun _ => .bind .checkRecursion fun _ => .deeper <|
    .accum (.whenSet (variantDecodeBinary_framed hsrc hjump)) fun _ =>
    .accum (.whenSet (uint32DecodeBinary_framed hsrc)) fun _ =>
    .accum (.whenSet (uint64DecodeBinary_framed hsrc)) fun _ =>
    .accum (.whenSet (uint16DecodeBinary_framed hsrc)) fun _ =>
    .accum (.whenSet (uint64DecodeBinary_framed hsrc)) fun _ =>
    .accum (.whenSet (uint16DecodeBinary_framed hsrc)) fun _ => .pure

/-! ## Structured types -/

theorem memberDecodeBinary_framed (owner : DataTypeRef) (m : DataTypeMember) :
    Framed k (memberDecodeBinary src T jump owner m)
      (memberDecodeBinary src' T jump' owner m) := by
  unfold memberDecodeBinary
  cases m.isArray with
  | true => exact valuesDecodeBinary_framed hsrc hjump _
  | false => exact hjump _ _

/-- The members of a structure, one after the other. -/
theorem decodeMembers_framed (owner : DataTypeRef) :
    ∀ members, Framed k (decodeMembers src T jump owner members)
      (decodeMembers src' T jump' owner members)
  | [] => .pure
  | m :: members =>
    .bind (memberDecodeBinary_framed hsrc hjump owner m) fun _ =>
      .bind (decodeMembers_framed owner members) fun _ => .pure

/-- The same where the mask leaves some of them out. -/
theorem decodeOptMembers_framed (owner : DataTypeRef) (encodingMask : UInt32) :
    ∀ members o, Framed k (decodeOptMembers src T jump owner encodingMask o members)
      (decodeOptMembers src' T jump' owner encodingMask o members)
  | [], _ => .pure
  | m :: members, o => by
    refine .bind ?_ fun _ =>
      .bind (decodeOptMembers_framed owner encodingMask members _) fun _ => .pure
    unfold optMemberDecodeBinary
    split
    · exact .pure
    · exact memberDecodeBinary_framed hsrc hjump owner m

/-- The selection, and the member it selects. -/
theorem decodeBinaryUnion_framed (type : DataTypeRef) :
    Framed k (decodeBinaryUnion src T jump type) (decodeBinaryUnion src' T jump' type) := by
  refine .bind .checkRecursion fun _ => .bind (uint32DecodeBinary_framed hsrc) fun selection => ?_
  match selection.toNat with
  | 0 => exact .pure
  | i + 1 =>
    simp only
    cases (T.get type).members[i]? with
    | none => exact .fail
    | some m => exact (hjump _ _).deeper.map

omit hjump

/-! ## The jump table -/

/-- **The jump tables.** Induction on the fuel of the smaller message. -/
theorem decodeBinaryJumpTable_framed : ∀ {m m' : Nat}, m ≤ m' → ∀ kind type,
    Framed k (decodeBinaryJumpTable src T m kind type) (decodeBinaryJumpTable src' T m' kind type)
  | 0, _, _, _, _ => fun _ _ _ h => nomatch h
  | m + 1, m' + 1, hm, kind, type => by
    have ih : ∀ kind type, Framed k (decodeBinaryJumpTable src T m kind type)
      (decodeBinaryJumpTable src' T m' kind type) :=
      decodeBinaryJumpTable_framed (Nat.le_of_succ_le_succ hm)
    -- there is fuel on both sides, and both go the same way
    cases kind with
    | boolean => exact (byteDecodeBinary_framed hsrc).map.map
    | sByte | byte => exact (byteDecodeBinary_framed hsrc).map
    | int16 | uint16 => exact (uint16DecodeBinary_framed hsrc).map
    | int32 | uint32 | float | statusCode | enum => exact (uint32DecodeBinary_framed hsrc).map
    | int64 | uint64 | double | dateTime => exact (uint64DecodeBinary_framed hsrc).map
    | string | byteString | xmlElement => exact (stringDecodeBinary_framed hsrc).map
    | guid => exact (guidDecodeBinary_framed hsrc).map
    | nodeId => exact (nodeIdDecodeBinary_framed hsrc).map
    | expandedNodeId => exact (expandedNodeIdDecodeBinary_framed hsrc).map
    | qualifiedName => exact (qualifiedNameDecodeBinary_framed hsrc).map
    | localizedText => exact (localizedTextDecodeBinary_framed hsrc).map
    | extensionObject => exact (extensionObjectDecodeBinary_framed hsrc ih).map
    | dataValue => exact (dataValueDecodeBinary_framed hsrc ih).map
    | variant => exact (variantDecodeBinary_framed hsrc ih).map
    | diagnosticInfo => exact (diagnosticInfoDecodeBinary_framed hsrc hm).map
    | struct =>
      exact (Framed.bind .checkRecursion fun _ =>
        (decodeMembers_framed hsrc ih type _).deeper).map
    | optStruct =>
      exact (Framed.bind .checkRecursion fun _ => Framed.deeper
        (.bind (uint32DecodeBinary_framed hsrc) fun mask =>
          decodeOptMembers_framed hsrc ih type mask _ _)).map
    | union => exact decodeBinaryUnion_framed hsrc ih type
    | decimal | bitfieldCluster => exact .fail

/-- There is enough fuel for every message inside. -/
theorem decodeFuel_le : decodeFuel src ≤ decodeFuel src' := by
  have hlen := hsrc.length
  unfold decodeFuel
  omega

end

end OpenPubSub
