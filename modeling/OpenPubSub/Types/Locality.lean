import OpenPubSub.Types.VariantShape

/-!
# What a decoder reads is all it depends on

Two decoders on messages that agree in a window of `n` bytes, at `p` in one of them and
at `p'` in the other. If both succeed, and the second one stays in its window, then they
have read the same value and the same number of bytes. Whether they succeed is another
matter: the length of what follows decides about that too.

- `Local p p' n x x'` says so of `x` and `x'`, one rule for each way to combine
  decoders.
- **`decodeBinaryJumpTable_local`**: the jump tables, whatever fuel either has.
-/

namespace OpenPubSub

open Routine

/-- The same position relative to `p` and `p'`, and the same nesting. -/
def Apart (p p' : Nat) (s s' : Ctx) : Prop :=
  ∃ i, s.pos = p + i ∧ s'.pos = p' + i ∧ s.depth = s'.depth

/-- `x'` only moves forward, and `x` agrees with it as long as it stays in its window. -/
structure Local {α : Type} (p p' n : Nat) (x x' : Dec α) : Prop where
  grows : ∀ {s a t}, x' s = .done a t → s.pos ≤ t.pos
  same : ∀ {s s' a a' t t'}, Apart p p' s s' → x s = .done a t → x' s' = .done a' t' →
    t'.pos ≤ p' + n → a = a' ∧ Apart p p' t t'

variable {α β : Type} {p p' n : Nat} {src src' : Bytes}

/-! ## Rules -/

namespace Local

/-- What reads nothing leaves both cursors where they are. -/
theorem pure {a : α} : Local p p' n (Pure.pure a) (Pure.pure a) := by
  constructor
  · intro s b t h
    cases h
    exact Nat.le_refl _
  · intro s s' b b' t t' hst h h' _
    cases h
    cases h'
    exact ⟨rfl, hst⟩

/-- A decoder that never succeeds. -/
theorem never {x x' : Dec α} (hx : ∀ s a t, x s ≠ .done a t)
    (hgrows : ∀ {s a t}, x' s = .done a t → s.pos ≤ t.pos) : Local p p' n x x' :=
  ⟨hgrows, fun _ h => absurd h (hx _ _ _)⟩

theorem fail {e : ErrorCode} : Local p p' n (Routine.fail e : Dec α) (Routine.fail e) :=
  never (fun _ _ _ h => nomatch h) fun h => nomatch h

/-- One decoder after the other. The window holds what the second one read, and so what the first
one did. -/
theorem bind {x x' : Dec α} {f f' : α → Dec β} (hx : Local p p' n x x')
    (hf : ∀ a, Local p p' n (f a) (f' a)) : Local p p' n (x >>= f) (x' >>= f') := by
  constructor
  · intro s b u h
    obtain ⟨a, t, hxs, hft⟩ := bind_eq_done.mp h
    exact Nat.le_trans (hx.grows hxs) ((hf a).grows hft)
  · intro s s' b b' u u' hs h h' hend
    obtain ⟨a, t, hxs, hft⟩ := bind_eq_done.mp h
    obtain ⟨a', t', hxs', hft'⟩ := bind_eq_done.mp h'
    have hmid : t'.pos ≤ p' + n := Nat.le_trans ((hf a').grows hft') hend
    obtain ⟨rfl, ht⟩ := hx.same hs hxs hxs' hmid
    exact (hf a).same ht hft hft' hend

theorem map {x x' : Dec α} {f : α → β} (hx : Local p p' n x x') :
    Local p p' n (f <$> x) (f <$> x') :=
  bind hx fun _ => pure

/-- The accumulating style. In a success every part succeeded. -/
theorem accumGuard [Inhabited α] {x x' : Dec α} {g g' : Dec Unit} {f f' : α → Dec β}
    (hx : Local p p' n x x') (hg : Local p p' n g g') (hf : ∀ a, Local p p' n (f a) (f' a)) :
    Local p p' n (Routine.accumGuard x g f) (Routine.accumGuard x' g' f') := by
  have hseq : ∀ (x : Dec α) (g : Dec Unit) (f : α → Dec β) (s u : Ctx) (b : β),
      Routine.accumGuard x g f s = .done b u → (x >>= fun a => g >>= fun _ => f a) s =
        .done b u := by
    intro x g f s u b h
    obtain ⟨a, t, t', hxs, hgt, hft⟩ := accumGuard_eq_done.mp h
    exact bind_eq_done.mpr ⟨a, t, hxs, bind_eq_done.mpr ⟨(), t', hgt, hft⟩⟩
  have hlocal := hx.bind fun a => hg.bind fun _ => hf a
  exact ⟨fun h => hlocal.grows (hseq _ _ _ _ _ _ h), fun hs h h' =>
    hlocal.same hs (hseq _ _ _ _ _ _ h) (hseq _ _ _ _ _ _ h')⟩

theorem accum [Inhabited α] {x x' : Dec α} {f f' : α → Dec β} (hx : Local p p' n x x')
    (hf : ∀ a, Local p p' n (f a) (f' a)) :
    Local p p' n (Routine.accum x f) (Routine.accum x' f') :=
  accumGuard hx pure hf

/-- A part that may be missing, on both sides. -/
theorem whenSet [Inhabited α] {c : Bool} {x x' : Dec α} (hx : Local p p' n x x') :
    Local p p' n (whenSet c x) (whenSet c x') := by
  cases c with
  | true => exact hx
  | false => exact pure

/-- An array, element by element. -/
theorem times {x x' : Dec α} (hx : Local p p' n x x') :
    ∀ j, Local p p' n (times x j) (times x' j)
  | 0 => pure
  | j + 1 => bind hx fun _ => bind (times hx j) fun _ => pure

/-- Nesting is counted in the same way on both sides. -/
theorem deeper {x x' : Dec α} (hx : Local p p' n x x') :
    Local p p' n (deeper x) (deeper x') := by
  -- a success inside, one level deeper
  have hinside : ∀ {x : Dec α} {s a t}, OpenPubSub.deeper x s = .done a t →
      ∃ u, x { s with depth := s.depth + 1 } = .done a u ∧
        t = { u with depth := u.depth - 1 } := by
    intro x s a t h
    unfold OpenPubSub.deeper at h
    cases hxs : x { s with depth := s.depth + 1 } with
    | done b u =>
      rw [hxs] at h
      cases h
      exact ⟨u, rfl, rfl⟩
    | fail e u => simp [hxs] at h
    | fault => simp [hxs] at h
  constructor
  · intro s a t h
    obtain ⟨u, hu, rfl⟩ := hinside h
    have hgrows := hx.grows hu
    exact hgrows
  · rintro s s' a a' t t' ⟨i, hi, hi', hdepth⟩ h h' hend
    obtain ⟨u, hu, rfl⟩ := hinside h
    obtain ⟨u', hu', rfl⟩ := hinside h'
    have hapart : Apart p p' { s with depth := s.depth + 1 } { s' with depth := s'.depth + 1 } :=
      ⟨i, hi, hi', congrArg (· + 1) hdepth⟩
    obtain ⟨rfl, j, hj, hj', hdepth'⟩ := hx.same hapart hu hu' hend
    exact ⟨rfl, j, hj, hj', congrArg (· - 1) hdepth'⟩

/-- The counter is the same on both sides. -/
theorem checkRecursion : Local p p' n checkRecursion checkRecursion := by
  have hrun : ∀ {s a t}, OpenPubSub.checkRecursion s = .done a t → t = s := by
    intro s a t h
    unfold OpenPubSub.checkRecursion at h
    split at h
    · cases h
    · cases h
      rfl
  constructor
  · intro s a t h
    exact Nat.le_of_eq (congrArg Ctx.pos (hrun h).symm)
  · intro s s' a a' t t' hs h h' _
    rw [hrun h, hrun h']
    exact ⟨rfl, hs⟩

/-- How much is left may differ. It is only asked, and nothing is read. -/
theorem need (j j' : Nat) : Local p p' n (need src j) (OpenPubSub.need src' j') := by
  have hrun : ∀ {src j s a t}, OpenPubSub.need src j s = .done a t → t = s := by
    intro src j s a t h
    unfold OpenPubSub.need at h
    split at h
    · cases h
      rfl
    · cases h
  constructor
  · intro s a t h
    exact Nat.le_of_eq (congrArg Ctx.pos (hrun h).symm)
  · intro s s' a a' t t' hs h h' _
    rw [hrun h, hrun h']
    exact ⟨rfl, hs⟩

/-- The unchecked jump goes equally far in both. -/
theorem skip (j : Nat) : Local p p' n (skip j) (OpenPubSub.skip j) := by
  constructor
  · intro s a t h
    cases h
    exact Nat.le_add_right _ _
  · rintro s s' a a' t t' ⟨i, hi, hi', hdepth⟩ h h' _
    cases h
    cases h'
    exact ⟨rfl, i + j, by simp only [hi, Nat.add_assoc], by simp only [hi', Nat.add_assoc], hdepth⟩

end Local

/-! ## Primitives -/

section

variable (hsrc : (src.drop p).take n = (src'.drop p').take n)
include hsrc

/-- Bytes inside the windows. -/
theorem window_apart {i j : Nat} (h : i + j ≤ n) :
    (src.drop (p + i)).take j = (src'.drop (p' + i)).take j := by
  have hin : ∀ bs : Bytes, (bs.drop i).take j = ((bs.take n).drop i).take j := by
    intro bs
    rw [List.drop_take, List.take_take, Nat.min_eq_left (by omega)]
  rw [← List.drop_drop, ← List.drop_drop, hin, hsrc, ← hin]

/-- A number of fixed size: its bytes are in the window. -/
theorem fixedDecodeBinary_local (j : Nat) :
    Local p p' n (fixedDecodeBinary src j) (fixedDecodeBinary src' j) := by
  have hrun : ∀ {src : Bytes} {s a t}, fixedDecodeBinary src j s = .done a t →
      a = (src.drop s.pos).take j ∧ t = { s with pos := s.pos + j } := by
    intro src s a t h
    rw [fixedDecodeBinary_run] at h
    split at h
    · cases h
      exact ⟨rfl, rfl⟩
    · cases h
  constructor
  · intro s a t h
    rw [(hrun h).2]
    exact Nat.le_add_right _ _
  · rintro s s' a a' t t' ⟨i, hi, hi', hdepth⟩ h h' hend
    obtain ⟨rfl, rfl⟩ := hrun h
    obtain ⟨rfl, rfl⟩ := hrun h'
    dsimp only at hend
    constructor
    · rw [hi, hi']
      exact window_apart hsrc (by omega)
    · exact ⟨i + j, by simp only [hi, Nat.add_assoc], by simp only [hi', Nat.add_assoc], hdepth⟩

theorem byteDecodeBinary_local : Local p p' n (byteDecodeBinary src) (byteDecodeBinary src') :=
  (fixedDecodeBinary_local hsrc 1).map

theorem uint16DecodeBinary_local :
    Local p p' n (uint16DecodeBinary src) (uint16DecodeBinary src') :=
  (fixedDecodeBinary_local hsrc 2).map

theorem uint32DecodeBinary_local :
    Local p p' n (uint32DecodeBinary src) (uint32DecodeBinary src') :=
  (fixedDecodeBinary_local hsrc 4).map

theorem uint64DecodeBinary_local :
    Local p p' n (uint64DecodeBinary src) (uint64DecodeBinary src') :=
  (fixedDecodeBinary_local hsrc 8).map

/-! ## Built-in types -/

variable {T : DataTypes}

/-- An array: the length is the same, and then each element. -/
theorem arrayDecodeBinary_local {type : DataType} {ofMemory : Bytes → α} {element element' : Dec α}
    (he : Local p p' n element element') :
    Local p p' n (arrayDecodeBinary src type ofMemory element)
      (arrayDecodeBinary src' type ofMemory element') := by
  refine (uint32DecodeBinary_local hsrc).bind fun length => ?_
  by_cases h : signedLength length ≤ 0
  · rw [if_pos h, if_pos h]
    exact .pure
  · rw [if_neg h, if_neg h]
    refine (Local.need _ _).bind fun _ => ?_
    cases type.overlayable with
    | true => exact (fixedDecodeBinary_local hsrc _).map
    | false => exact (he.times _).map

theorem stringDecodeBinary_local :
    Local p p' n (stringDecodeBinary src T) (stringDecodeBinary src' T) :=
  arrayDecodeBinary_local hsrc (byteDecodeBinary_local hsrc)

theorem dimensionsDecodeBinary_local :
    Local p p' n (dimensionsDecodeBinary src T) (dimensionsDecodeBinary src' T) :=
  arrayDecodeBinary_local hsrc (uint32DecodeBinary_local hsrc)

theorem guidDecodeBinary_local : Local p p' n (guidDecodeBinary src) (guidDecodeBinary src') :=
  .accumGuard
    (.accum (uint32DecodeBinary_local hsrc) fun _ => .accum (uint16DecodeBinary_local hsrc) fun _ =>
      .accum (uint16DecodeBinary_local hsrc) fun _ => .pure)
    (.need _ _) fun _ => (fixedDecodeBinary_local hsrc 8).map

/-- The encoding byte decides about the rest. -/
theorem nodeIdDecodeBinary_local :
    Local p p' n (nodeIdDecodeBinary src T) (nodeIdDecodeBinary src' T) := by
  have hword := uint16DecodeBinary_local hsrc
  refine (byteDecodeBinary_local hsrc).bind fun encodingByte => ?_
  match nodeIdForm encodingByte with
  | 0 => exact (byteDecodeBinary_local hsrc).map
  | 1 => exact .accum (byteDecodeBinary_local hsrc) fun _ => .accum hword fun _ => .pure
  | 2 => exact .accum hword fun _ => .accum (uint32DecodeBinary_local hsrc) fun _ => .pure
  | 3 => exact .accum hword fun _ => .accum (stringDecodeBinary_local hsrc) fun _ => .pure
  | 4 => exact .accum hword fun _ => .accum (guidDecodeBinary_local hsrc) fun _ => .pure
  | 5 => exact .accum hword fun _ => .accum (stringDecodeBinary_local hsrc) fun _ => .pure
  | _ + 6 => exact .fail

/-- A byte is looked at in place, and then read as the first one of something else. -/
theorem peekByte_local [Inhabited α] {x x' : Dec α} {f f' : UInt8 → α → Dec β}
    (hx : Local p p' n x x') (hstep : ∀ {s a t}, x' s = .done a t → s.pos + 1 ≤ t.pos)
    (hf : ∀ b a, Local p p' n (f b a) (f' b a)) :
    Local p p' n (peekByte src >>= fun b => accum x (f b))
      (peekByte src' >>= fun b => accum x' (f' b)) := by
  have hrun : ∀ {src : Bytes} {s b t}, peekByte src s = .done b t →
      b = UInt8.ofNat (ofLE ((src.drop s.pos).take 1)) ∧ t = s := by
    intro src s b t h
    obtain ⟨_, u, hneed, hpeek⟩ := bind_eq_done.mp h
    obtain ⟨bytes, hbytes, rfl⟩ := map_eq_done.mp hpeek
    unfold need at hneed
    unfold peek at hbytes
    by_cases hlen : s.pos + 1 ≤ src.length
    · rw [if_pos hlen] at hneed
      cases hneed
      rw [if_pos hlen] at hbytes
      cases hbytes
      exact ⟨rfl, rfl⟩
    · rw [if_neg hlen] at hneed
      cases hneed
  constructor
  · intro s a t h
    obtain ⟨b, u, hpeek, hrest⟩ := bind_eq_done.mp h
    obtain ⟨-, rfl⟩ := hrun hpeek
    exact (hx.accum (hf b)).grows hrest
  · intro s s' a a' t t' hs h h' hend
    obtain ⟨b, u, hpeek, hrest⟩ := bind_eq_done.mp h
    obtain ⟨b', u', hpeek', hrest'⟩ := bind_eq_done.mp h'
    obtain ⟨rfl, rfl⟩ := hrun hpeek
    obtain ⟨rfl, rfl⟩ := hrun hpeek'
    -- the byte is in the window, because the rest goes beyond it
    obtain ⟨_, v, hfirst, hnext⟩ := accum_eq_done.mp hrest'
    have hread := Nat.le_trans (hstep hfirst) ((hf _ _).grows hnext)
    obtain ⟨i, hi, hi', hdepth⟩ := hs
    have hbyte : (src.drop u.pos).take 1 = (src'.drop u'.pos).take 1 := by
      rw [hi, hi']
      exact window_apart hsrc (by omega)
    rw [hbyte] at hrest
    exact (hx.accum (hf _)).same ⟨i, hi, hi', hdepth⟩ hrest hrest' hend

omit hsrc in
/-- A NodeId takes at least its encoding byte. -/
theorem nodeIdDecodeBinary_step {s t : Ctx} {a : NodeId}
    (h : nodeIdDecodeBinary src T s = .done a t) : s.pos + 1 ≤ t.pos := by
  have hmoves : ∀ n, Moves False src n 2 (nodeIdDecodeBinary src T) := fun _ =>
    nodeIdDecodeBinary_moves
  have hrun := hmoves _ s (Nat.lt_succ_self _)
  rw [h] at hrun
  exact Nat.le_of_succ_le hrun.advance

/-- The byte that is looked at in advance is one that the NodeId reads, so it is in the window. -/
theorem expandedNodeIdDecodeBinary_local :
    Local p p' n (expandedNodeIdDecodeBinary src T) (expandedNodeIdDecodeBinary src' T) :=
  peekByte_local hsrc (nodeIdDecodeBinary_local hsrc) nodeIdDecodeBinary_step fun _ _ =>
    .accum (.whenSet (stringDecodeBinary_local hsrc)) fun _ =>
      .accum (.whenSet (uint32DecodeBinary_local hsrc)) fun _ => .pure

theorem qualifiedNameDecodeBinary_local :
    Local p p' n (qualifiedNameDecodeBinary src T) (qualifiedNameDecodeBinary src' T) :=
  .accum (uint16DecodeBinary_local hsrc) fun _ =>
    .accum (stringDecodeBinary_local hsrc) fun _ => .pure

theorem localizedTextDecodeBinary_local :
    Local p p' n (localizedTextDecodeBinary src T) (localizedTextDecodeBinary src' T) :=
  .accum (byteDecodeBinary_local hsrc) fun _ =>
    .accum (.whenSet (stringDecodeBinary_local hsrc)) fun _ =>
      .accum (.whenSet (stringDecodeBinary_local hsrc)) fun _ => .pure

omit hsrc in
/-- A member that is there if its bit is set. -/
theorem optional_local {mask bit : UInt8} {x x' : Dec α} (hx : Local p p' n x x') :
    Local p p' n (optional mask bit x) (optional mask bit x') :=
  .whenSet hx.map

/-- One level of nesting. -/
theorem diagnosticInfoDecodeBinary_step {m m' : Nat}
    (ih : Local p p' n (diagnosticInfoDecodeBinary src T m)
      (diagnosticInfoDecodeBinary src' T m')) :
    Local p p' n (diagnosticInfoDecodeBinary src T (m + 1))
      (diagnosticInfoDecodeBinary src' T (m' + 1)) := by
  have hword : Local p p' n (uint32DecodeBinary src) (uint32DecodeBinary src') :=
    uint32DecodeBinary_local hsrc
  refine (byteDecodeBinary_local hsrc).bind fun mask => ?_
  refine .accumGuard ?_ (.whenSet .checkRecursion) fun _ =>
    .accum (optional_local ih.deeper) fun _ => .pure
  exact .accum (optional_local hword) fun _ => .accum (optional_local hword) fun _ =>
    .accum (optional_local hword) fun _ => .accum (optional_local hword) fun _ =>
    .accum (optional_local (stringDecodeBinary_local hsrc)) fun _ =>
    .accum (optional_local hword) fun _ => .pure

omit hsrc in
/-- The same decoder in two windows, or rather in one. -/
theorem diagnosticInfoDecodeBinary_self :
    ∀ m, Local p p n (diagnosticInfoDecodeBinary src T m) (diagnosticInfoDecodeBinary src T m)
  | 0 => .never (fun _ _ _ h => nomatch h) fun h => nomatch h
  | m + 1 => diagnosticInfoDecodeBinary_step rfl (diagnosticInfoDecodeBinary_self m)

/-- Induction on the fuel of the one side, for any fuel of the other. -/
theorem diagnosticInfoDecodeBinary_local :
    ∀ m m', Local p p' n (diagnosticInfoDecodeBinary src T m) (diagnosticInfoDecodeBinary src' T m')
  | 0, m' => .never (fun _ _ _ h => nomatch h)
    (diagnosticInfoDecodeBinary_self (p := p') (n := n) m').grows
  | _ + 1, 0 => ⟨fun h => (nomatch h), fun _ _ h => (nomatch h)⟩
  | m + 1, m' + 1 => diagnosticInfoDecodeBinary_step hsrc (diagnosticInfoDecodeBinary_local m m')

/-! ## Nested types -/

variable (p p' n src' T) in
/-- What the two jump tables have to guarantee to their callers. -/
structure JumpLocal (jump jump' : Jump) : Prop where
  entry : ∀ type, Local p p' n (jump (T.get type).typeKind type) (jump' (T.get type).typeKind type)
  header : ∀ {s a t}, jump' .extensionObject (DataTypes.builtin .extensionObject) s = .done a t →
    ∃ typeId encoding u v, nodeIdDecodeBinary src' T s = .done typeId u ∧
      byteDecodeBinary src' u = .done encoding v ∧ v.pos ≤ t.pos

variable {jump jump' : Jump}

omit hsrc in
/-- The entry of a built-in type. -/
theorem JumpLocal.builtin (h : JumpLocal p p' n src' T jump jump') {kind : DataTypeKind}
    (hk : kind.isBuiltin = true) :
    Local p p' n (jump kind (DataTypes.builtin kind)) (jump' kind (DataTypes.builtin kind)) := by
  have hj := h.entry (DataTypes.builtin kind)
  rwa [T.get_builtin hk] at hj

/-- The elements are read through the jump table. -/
theorem valuesDecodeBinary_local (h : JumpLocal p p' n src' T jump jump') (type : DataTypeRef) :
    Local p p' n (valuesDecodeBinary src T jump type) (valuesDecodeBinary src' T jump' type) :=
  (arrayDecodeBinary_local hsrc (h.entry type)).map

/-- Behind type id and encoding. -/
theorem extensionObjectBody_local (h : JumpLocal p p' n src' T jump jump') (binTypeId : NodeId)
    (encoding : UInt8) :
    Local p p' n
      (match encoding.toNat with
        | 0 => Pure.pure (.encoded binTypeId .noBody)
        | 1 => extensionObjectDecodeBinaryContent src T jump binTypeId
        | 2 => (fun body => .encoded binTypeId (.xml body)) <$> stringDecodeBinary src T
        | _ => Routine.fail badDecodingError)
      (match encoding.toNat with
        | 0 => Pure.pure (.encoded binTypeId .noBody)
        | 1 => extensionObjectDecodeBinaryContent src' T jump' binTypeId
        | 2 => (fun body => .encoded binTypeId (.xml body)) <$> stringDecodeBinary src' T
        | _ => Routine.fail badDecodingError) := by
  match encoding.toNat with
  | 0 => exact .pure
  | 1 =>
    simp only
    unfold extensionObjectDecodeBinaryContent
    cases T.findDataTypeByBinary binTypeId with
    | none => exact (stringDecodeBinary_local hsrc).map
    | some type => exact (Local.skip 4).bind fun _ => (h.entry type).map
  | 2 => exact (stringDecodeBinary_local hsrc).map
  | _ + 3 => exact .fail

/-- A type id, an encoding byte, and a body. -/
theorem extensionObjectDecodeBinary_local (h : JumpLocal p p' n src' T jump jump') :
    Local p p' n (extensionObjectDecodeBinary src T jump)
      (extensionObjectDecodeBinary src' T jump') :=
  Local.bind (.accum (nodeIdDecodeBinary_local hsrc) fun _ =>
    .accum (byteDecodeBinary_local hsrc) fun _ => .pure) fun header =>
      extensionObjectBody_local hsrc h header.1 header.2

omit hsrc in
theorem nodeId_byte_depth {s u v : Ctx} {typeId : NodeId} {encoding : UInt8}
    (hn : nodeIdDecodeBinary src T s = .done typeId u)
    (hb : byteDecodeBinary src u = .done encoding v) : v.depth = s.depth := by
  have hnodeId : ∀ n, Moves False src n 2 (nodeIdDecodeBinary src T) := fun _ =>
    nodeIdDecodeBinary_moves
  have hbyte : ∀ n, Moves False src n 1 (byteDecodeBinary src) := fun _ => byteDecodeBinary_moves
  have hs := hnodeId _ s (Nat.lt_succ_self _)
  have hu := hbyte _ u (Nat.lt_succ_self _)
  rw [hn] at hs
  rw [hb] at hu
  exact hu.depth_eq.trans hs.depth_eq

omit hsrc in
/-- The content of a known type is read behind the length, and that of an unknown type as an
ExtensionObject from the beginning. -/
theorem variantDecodeBinaryUnwrapExtensionObject_done {s t : Ctx} {a : DataTypeRef × Value}
    (h : variantDecodeBinaryUnwrapExtensionObject src T jump s = .done a t) :
    ∃ typeId encoding u v, nodeIdDecodeBinary src T s = .done typeId u ∧
      byteDecodeBinary src u = .done encoding v ∧
      match if encoding = 1 then T.findDataTypeByBinary typeId else none with
      | some type => (skip 4 >>= fun _ => Prod.mk type <$> jump (T.get type).typeKind type) v =
          .done a t
      | none => (Prod.mk (DataTypes.builtin .extensionObject) <$>
          jump .extensionObject (DataTypes.builtin .extensionObject)) s = .done a t := by
  change (nodeIdDecodeBinary src T >>= fun typeId => byteDecodeBinary src >>= fun encoding =>
    variantDecodeBinaryUnwrapContent T jump s.pos typeId encoding) s = .done a t at h
  obtain ⟨typeId, u, hn, hrest⟩ := bind_eq_done.mp h
  obtain ⟨encoding, v, hb, hcontent⟩ := bind_eq_done.mp hrest
  refine ⟨typeId, encoding, u, v, hn, hb, ?_⟩
  unfold variantDecodeBinaryUnwrapContent at hcontent
  cases hfind : (if encoding = 1 then T.findDataTypeByBinary typeId else none) with
  | some type =>
    rw [hfind] at hcontent
    exact hcontent
  | none =>
    rw [hfind] at hcontent
    -- nothing but the position has changed, and it is set back
    have hback : ({ v with pos := s.pos } : Ctx) = s := by
      rw [nodeId_byte_depth hn hb]
    have hkind : (T.get (DataTypes.builtin .extensionObject)).typeKind = .extensionObject :=
      T.get_builtin rfl
    obtain ⟨_, w, hmodify, hjump⟩ := bind_eq_done.mp hcontent
    cases hmodify
    have hagain : (Prod.mk (DataTypes.builtin .extensionObject) <$>
        jump (T.get (DataTypes.builtin .extensionObject)).typeKind
          (DataTypes.builtin .extensionObject)) { v with pos := s.pos } = .done a t := hjump
    rw [hback, hkind] at hagain
    exact hagain

/-- Both sides unwrap the object, or both go back in front of the header. -/
theorem variantDecodeBinaryUnwrapExtensionObject_local (h : JumpLocal p p' n src' T jump jump') :
    Local p p' n (variantDecodeBinaryUnwrapExtensionObject src T jump)
      (variantDecodeBinaryUnwrapExtensionObject src' T jump') := by
  have hskip : ∀ type, Local p p' n
      (skip 4 >>= fun _ => Prod.mk type <$> jump (T.get type).typeKind type)
      (skip 4 >>= fun _ => Prod.mk type <$> jump' (T.get type).typeKind type) := fun type =>
    (Local.skip 4).bind fun _ => (h.entry type).map
  have hagain : Local p p' n
      (Prod.mk (DataTypes.builtin .extensionObject) <$>
        jump .extensionObject (DataTypes.builtin .extensionObject))
      (Prod.mk (DataTypes.builtin .extensionObject) <$>
        jump' .extensionObject (DataTypes.builtin .extensionObject)) := (h.builtin rfl).map
  -- the header of the second one is read before its end
  have hheader : ∀ {s' a' t'}, variantDecodeBinaryUnwrapExtensionObject src' T jump' s' =
      .done a' t' → ∀ {typeId encoding u v}, nodeIdDecodeBinary src' T s' = .done typeId u →
        byteDecodeBinary src' u = .done encoding v → v.pos ≤ t'.pos := by
    intro s' a' t' hdone typeId encoding u v hn hb
    obtain ⟨typeId', encoding', u', v', hn', hb', hcontent⟩ :=
      variantDecodeBinaryUnwrapExtensionObject_done hdone
    obtain ⟨rfl, rfl⟩ := Outcome.done.inj (hn'.symm.trans hn)
    obtain ⟨rfl, rfl⟩ := Outcome.done.inj (hb'.symm.trans hb)
    split at hcontent
    · exact (hskip _).grows hcontent
    · obtain ⟨_, hjump, -⟩ := map_eq_done.mp hcontent
      obtain ⟨_, _, _, v'', hn'', hb'', hle⟩ := h.header hjump
      obtain ⟨rfl, rfl⟩ := Outcome.done.inj (hn''.symm.trans hn)
      obtain ⟨rfl, rfl⟩ := Outcome.done.inj (hb''.symm.trans hb)
      exact hle
  have hbyte : Local 0 0 0 (byteDecodeBinary src') (byteDecodeBinary src') :=
    byteDecodeBinary_local rfl
  constructor
  · intro s a t hdone
    obtain ⟨typeId, encoding, u, v, hn, hb, -⟩ :=
      variantDecodeBinaryUnwrapExtensionObject_done hdone
    have hu := nodeIdDecodeBinary_step hn
    have hv := hbyte.grows hb
    have ht := hheader hdone hn hb
    omega
  · intro s s' a a' t t' hs hdone hdone' hend
    obtain ⟨typeId, encoding, u, v, hn, hb, hcontent⟩ :=
      variantDecodeBinaryUnwrapExtensionObject_done hdone
    obtain ⟨typeId', encoding', u', v', hn', hb', hcontent'⟩ :=
      variantDecodeBinaryUnwrapExtensionObject_done hdone'
    have hv' : v'.pos ≤ p' + n := Nat.le_trans (hheader hdone' hn' hb') hend
    have hu' : u'.pos ≤ p' + n := Nat.le_trans (hbyte.grows hb') hv'
    obtain ⟨rfl, hu⟩ := (nodeIdDecodeBinary_local hsrc).same hs hn hn' hu'
    obtain ⟨rfl, hv⟩ := (byteDecodeBinary_local hsrc).same hu hb hb' hv'
    cases hfind : (if encoding = 1 then T.findDataTypeByBinary typeId else none) with
    | some type =>
      rw [hfind] at hcontent hcontent'
      exact (hskip type).same hv hcontent hcontent' hend
    | none =>
      rw [hfind] at hcontent hcontent'
      exact hagain.same hs hcontent hcontent' hend

/-- An array, an ExtensionObject that is unwrapped, or a single object. -/
theorem variantDecodeBinaryContent_local (h : JumpLocal p p' n src' T jump jump')
    {kind : DataTypeKind} (hk : kind.isBuiltin = true) (isArray : Bool) :
    Local p p' n (variantDecodeBinaryContent src T jump kind isArray)
      (variantDecodeBinaryContent src' T jump' kind isArray) := by
  unfold variantDecodeBinaryContent
  cases isArray with
  | true => exact (valuesDecodeBinary_local hsrc h _).map
  | false =>
    by_cases hx : kind ≠ .extensionObject
    · rw [if_neg Bool.false_ne_true, if_pos hx, if_neg Bool.false_ne_true, if_pos hx]
      exact (h.builtin hk).map
    · rw [if_neg Bool.false_ne_true, if_neg hx, if_neg Bool.false_ne_true, if_neg hx]
      exact variantDecodeBinaryUnwrapExtensionObject_local hsrc h

/-- The encoding byte says what follows, and whether there are dimensions. -/
theorem variantDecodeBinary_local (h : JumpLocal p p' n src' T jump jump') :
    Local p p' n (variantDecodeBinary src T jump) (variantDecodeBinary src' T jump') := by
  refine (byteDecodeBinary_local hsrc).bind fun encodingByte => ?_
  by_cases h0 : encodingByte = 0
  · rw [if_pos h0, if_pos h0]
    exact .pure
  · rw [if_neg h0, if_neg h0]
    simp only
    cases hkind : variantTypeKind encodingByte with
    | none => exact .fail
    | some kind =>
      have hk := variantTypeKind_isBuiltin hkind
      simp only
      split
      · exact .fail
      · refine Local.checkRecursion.bind fun _ => .deeper ?_
        exact .accum (variantDecodeBinaryContent_local hsrc h hk _) fun _ =>
          .accum (.whenSet (dimensionsDecodeBinary_local hsrc)) fun _ => .pure

/-- The encoding mask says which members follow. -/
theorem dataValueDecodeBinary_local (h : JumpLocal p p' n src' T jump jump') :
    Local p p' n (dataValueDecodeBinary src T jump) (dataValueDecodeBinary src' T jump') :=
  (byteDecodeBinary_local hsrc).bind fun _ => Local.checkRecursion.bind fun _ => .deeper <|
    .accum (.whenSet (variantDecodeBinary_local hsrc h)) fun _ =>
    .accum (.whenSet (uint32DecodeBinary_local hsrc)) fun _ =>
    .accum (.whenSet (uint64DecodeBinary_local hsrc)) fun _ =>
    .accum (.whenSet (uint16DecodeBinary_local hsrc)) fun _ =>
    .accum (.whenSet (uint64DecodeBinary_local hsrc)) fun _ =>
    .accum (.whenSet (uint16DecodeBinary_local hsrc)) fun _ => .pure

/-! ## Structured types -/

theorem memberDecodeBinary_local (h : JumpLocal p p' n src' T jump jump') (owner : DataTypeRef)
    (m : DataTypeMember) :
    Local p p' n (memberDecodeBinary src T jump owner m)
      (memberDecodeBinary src' T jump' owner m) := by
  unfold memberDecodeBinary
  cases m.isArray with
  | true => exact valuesDecodeBinary_local hsrc h _
  | false => exact h.entry _

/-- The members of a structure, one after the other. -/
theorem decodeMembers_local (h : JumpLocal p p' n src' T jump jump') (owner : DataTypeRef) :
    ∀ members, Local p p' n (decodeMembers src T jump owner members)
      (decodeMembers src' T jump' owner members)
  | [] => .pure
  | m :: members =>
    (memberDecodeBinary_local hsrc h owner m).bind fun _ =>
      (decodeMembers_local h owner members).bind fun _ => .pure

/-- The same where the mask leaves some of them out. -/
theorem decodeOptMembers_local (h : JumpLocal p p' n src' T jump jump') (owner : DataTypeRef)
    (encodingMask : UInt32) :
    ∀ members o, Local p p' n (decodeOptMembers src T jump owner encodingMask o members)
      (decodeOptMembers src' T jump' owner encodingMask o members)
  | [], _ => .pure
  | m :: members, o => by
    refine Local.bind ?_ fun _ =>
      (decodeOptMembers_local h owner encodingMask members _).bind fun _ => .pure
    unfold optMemberDecodeBinary
    split
    · exact .pure
    · exact memberDecodeBinary_local hsrc h owner m

/-- The selection, and the member it selects. -/
theorem decodeBinaryUnion_local (h : JumpLocal p p' n src' T jump jump') (type : DataTypeRef) :
    Local p p' n (decodeBinaryUnion src T jump type) (decodeBinaryUnion src' T jump' type) := by
  refine Local.checkRecursion.bind fun _ => (uint32DecodeBinary_local hsrc).bind fun selection => ?_
  match selection.toNat with
  | 0 => exact .pure
  | i + 1 =>
    simp only
    cases (T.get type).members[i]? with
    | none => exact .fail
    | some m => exact (h.entry _).deeper.map

/-! ## The jump table -/

/-- One level of nesting, one case for each kind of object. -/
theorem decodeBinaryJumpTable_step {m m' : Nat}
    (ih : JumpLocal p p' n src' T (decodeBinaryJumpTable src T m)
      (decodeBinaryJumpTable src' T m')) :
    JumpLocal p p' n src' T (decodeBinaryJumpTable src T (m + 1))
      (decodeBinaryJumpTable src' T (m' + 1)) := by
  constructor
  · intro type
    cases (T.get type).typeKind with
    | boolean => exact (byteDecodeBinary_local hsrc).map.map
    | sByte => exact (byteDecodeBinary_local hsrc).map
    | byte => exact (byteDecodeBinary_local hsrc).map
    | int16 => exact (uint16DecodeBinary_local hsrc).map
    | uint16 => exact (uint16DecodeBinary_local hsrc).map
    | int32 => exact (uint32DecodeBinary_local hsrc).map
    | uint32 => exact (uint32DecodeBinary_local hsrc).map
    | float => exact (uint32DecodeBinary_local hsrc).map
    | statusCode => exact (uint32DecodeBinary_local hsrc).map
    | enum => exact (uint32DecodeBinary_local hsrc).map
    | int64 => exact (uint64DecodeBinary_local hsrc).map
    | uint64 => exact (uint64DecodeBinary_local hsrc).map
    | double => exact (uint64DecodeBinary_local hsrc).map
    | dateTime => exact (uint64DecodeBinary_local hsrc).map
    | string => exact (stringDecodeBinary_local hsrc).map
    | byteString => exact (stringDecodeBinary_local hsrc).map
    | xmlElement => exact (stringDecodeBinary_local hsrc).map
    | guid => exact (guidDecodeBinary_local hsrc).map
    | nodeId => exact (nodeIdDecodeBinary_local hsrc).map
    | expandedNodeId => exact (expandedNodeIdDecodeBinary_local hsrc).map
    | qualifiedName => exact (qualifiedNameDecodeBinary_local hsrc).map
    | localizedText => exact (localizedTextDecodeBinary_local hsrc).map
    | extensionObject => exact (extensionObjectDecodeBinary_local hsrc ih).map
    | dataValue => exact (dataValueDecodeBinary_local hsrc ih).map
    | variant => exact (variantDecodeBinary_local hsrc ih).map
    | diagnosticInfo => exact (diagnosticInfoDecodeBinary_local hsrc (m + 1) (m' + 1)).map
    | struct =>
      exact (Local.checkRecursion.bind fun _ => (decodeMembers_local hsrc ih type _).deeper).map
    | optStruct =>
      exact (Local.checkRecursion.bind fun _ => Local.deeper
        ((uint32DecodeBinary_local hsrc).bind fun mask =>
          decodeOptMembers_local hsrc ih type mask _ _)).map
    | union => exact decodeBinaryUnion_local hsrc ih type
    | decimal => exact .fail
    | bitfieldCluster => exact .fail
  · -- what is jumped over still lies behind the header of the object
    intro s a t h
    obtain ⟨e, hobject, -⟩ := map_eq_done.mp h
    obtain ⟨⟨typeId, encoding⟩, v, hhead, hrest⟩ := bind_eq_done.mp hobject
    obtain ⟨_, u, hn, hb⟩ := accum_eq_done.mp hhead
    obtain ⟨_, w, hb, hpair⟩ := accum_eq_done.mp hb
    cases hpair
    exact ⟨typeId, encoding, u, v, hn, hb,
      (extensionObjectBody_local hsrc ih typeId encoding).grows hrest⟩

omit hsrc in
/-- The same table on both sides: the induction is on its fuel. -/
theorem decodeBinaryJumpTable_self :
    ∀ m, JumpLocal p p n src T (decodeBinaryJumpTable src T m) (decodeBinaryJumpTable src T m)
  | 0 => ⟨fun _ => .never (fun _ _ _ h => nomatch h) fun h => (nomatch h), fun h => (nomatch h)⟩
  | m + 1 => decodeBinaryJumpTable_step rfl (decodeBinaryJumpTable_self m)

/-- **The jump tables.** Induction on the fuel of both. -/
theorem decodeBinaryJumpTable_local :
    ∀ m m', JumpLocal p p' n src' T (decodeBinaryJumpTable src T m)
      (decodeBinaryJumpTable src' T m')
  | 0, m' =>
    have hself : JumpLocal p' p' n src' T _ _ := decodeBinaryJumpTable_self m'
    ⟨fun type => .never (fun _ _ _ h => nomatch h) (hself.entry type).grows, hself.header⟩
  | _ + 1, 0 => ⟨fun _ => ⟨fun h => (nomatch h), fun _ _ h => (nomatch h)⟩, fun h => (nomatch h)⟩
  | m + 1, m' + 1 => decodeBinaryJumpTable_step hsrc (decodeBinaryJumpTable_local m m')

end

end OpenPubSub
