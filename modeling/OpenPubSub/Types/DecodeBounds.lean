import OpenPubSub.Types.DecodeBinary

/-!
# The cursor of the value decoders

Where a value decoder leaves the cursor, for every message, every type table and
every value nested to any depth.

- `Moves I src n k x`: started with the fuel `n` that its position and nesting
  counter call for, `x` never copies from outside `src`; when it succeeds the
  cursor has gone forward by `k` or more, and not beyond the end if `I` holds, and
  the nesting counter is back to what it was.
- `Moves.bind`, `Moves.accumGuard`, … combine such facts the way the code combines
  calls. `Moves.step` is the one that spends fuel: what runs after a byte was
  consumed gets by with less.
- `skip_moves`: jumping over a length field unchecked is harmless if whatever is
  decoded after it consumes a byte, and checks. A structure without members
  consumes none, so the values below an ExtensionObject stay inside if every
  structure of the table has a member: this is what the `I` of the nested decoders
  says.
- **`decodeBinaryJumpTable_moves`**: the jump table moves the cursor.
- **`uaDecodeBinary_moves`**: so do the entry points.
-/

namespace OpenPubSub

open Routine

/-- Every structure type of the table has a member. -/
def DataTypes.NonemptyStructs (T : DataTypes) : Prop :=
  ∀ type, (T.get type).typeKind = .struct → (T.get type).members ≠ []

/-- The built-in types have no structures, and so no empty ones. -/
theorem builtinTypes_nonemptyStructs : builtinTypes.NonemptyStructs := by
  intro type h
  change (DataTypeKind.ofBuiltinIndex type.index).getD .boolean = .struct at h
  cases hk : DataTypeKind.ofBuiltinIndex type.index with
  | none => simp [hk] at h
  | some kind =>
    have hb := (DataTypeKind.index_of_ofBuiltinIndex hk).2
    rw [hk, Option.getD_some] at h
    rw [h] at hb
    exact absurd hb (by decide)

/-! ## What a decoder may do to the cursor -/

/-- A success: at least `k` forward, given `I` not beyond the end, as deep as
before. -/
structure Moved (I : Prop) (src : Bytes) (k : Nat) (s t : Ctx) : Prop where
  advance : s.pos + k ≤ t.pos
  inside : I → t.pos ≤ max s.pos src.length
  depth_eq : t.depth = s.depth

/-- A failure: not backwards, and as deep as before. -/
structure Stopped (s t : Ctx) : Prop where
  advance : s.pos ≤ t.pos
  depth_eq : t.depth = s.depth

/-- The bytes and nesting levels left are fewer than `n`. -/
def Fuelled (src : Bytes) (n : Nat) (s : Ctx) : Prop :=
  (src.length - s.pos) + (encodingMaxRecursion + 1 - s.depth) < n

/-- `x` is regular on `n` fuel and moves the cursor by `k` or more. -/
def Moves {α : Type} (I : Prop) (src : Bytes) (n k : Nat) (x : Dec α) : Prop :=
  ∀ s, Fuelled src n s → (x s).Sat (fun _ t => Moved I src k s t) (fun _ t => Stopped s t)

variable {α β : Type} {I : Prop} {src : Bytes} {n k l m : Nat}

theorem Moved.refl (s : Ctx) : Moved I src 0 s s :=
  ⟨Nat.le_refl _, fun _ => Nat.le_max_left _ _, rfl⟩

/-- Two moves add up. -/
theorem Moved.trans {s t u : Ctx} (h₁ : Moved I src k s t) (h₂ : Moved I src l t u) :
    Moved I src (k + l) s u := by
  have a := h₁.advance
  have a' := h₂.advance
  refine ⟨by omega, fun hI => ?_, h₂.depth_eq.trans h₁.depth_eq⟩
  have h := h₁.inside hI
  have h' := h₂.inside hI
  omega

/-- What consumed more has consumed less. -/
theorem Moved.weaken {s t : Ctx} (h : Moved I src k s t) (hl : l ≤ k) : Moved I src l s t :=
  ⟨by have := h.advance; omega, h.inside, h.depth_eq⟩

/-- What stays inside in any case. -/
theorem Moved.of_true {s t : Ctx} (h : Moved True src k s t) : Moved I src k s t :=
  ⟨h.advance, fun _ => h.inside trivial, h.depth_eq⟩

/-- Where a success ends a failure could have ended. -/
theorem Moved.stopped {s t : Ctx} (h : Moved I src k s t) : Stopped s t :=
  ⟨by have := h.advance; omega, h.depth_eq⟩

theorem Stopped.refl (s : Ctx) : Stopped s s := ⟨Nat.le_refl _, rfl⟩

theorem Stopped.trans {s t u : Ctx} (h₁ : Stopped s t) (h₂ : Stopped t u) : Stopped s u :=
  ⟨Nat.le_trans h₁.advance h₂.advance, h₂.depth_eq.trans h₁.depth_eq⟩

/-- Fuel lasts as long as the cursor does not go back. -/
theorem Fuelled.of_stopped {s t : Ctx} (h : Fuelled src n s) (hst : Stopped s t) :
    Fuelled src n t := by
  have a := hst.advance
  unfold Fuelled at *
  rw [hst.depth_eq]
  omega

/-- Consuming a byte saves fuel. -/
theorem Fuelled.of_moved {s t : Ctx} (h : Fuelled src (n + 1) s)
    (hst : Moved True src (k + 1) s t) : Fuelled src n t := by
  have a := hst.advance
  have b := hst.inside trivial
  unfold Fuelled at *
  rw [hst.depth_eq]
  omega

/-! ## Rules -/

namespace Moves

theorem pure {a : α} : Moves I src n 0 (Pure.pure a : Dec α) := fun s _ => Moved.refl s

theorem fail {e : ErrorCode} : Moves I src n k (Routine.fail e : Dec α) := fun s _ =>
  Stopped.refl s

theorem weaken {x : Dec α} (h : Moves I src n k x) (hl : l ≤ k) : Moves I src n l x :=
  fun s hs => (h s hs).imp (fun _ _ ht => ht.weaken hl) fun _ _ ht => ht

/-- Without a promise about the end of the message. -/
theorem of_false {x : Dec α} (h : Moves I src n k x) : Moves False src n 0 x := fun s hs =>
  (h s hs).imp (fun _ _ ht => ⟨ht.stopped.advance, False.elim, ht.depth_eq⟩) fun _ _ ht => ht

/-- More fuel than needed does no harm. -/
theorem of_succ {x : Dec α} (h : Moves I src (n + 1) k x) : Moves I src n k x := fun s hs =>
  h s (Nat.lt_succ_of_lt hs)

/-- In a row: what both consume adds up. -/
theorem bind {x : Dec α} {f : α → Dec β} (hx : Moves I src n k x)
    (hf : ∀ a, Moves I src n l (f a)) : Moves I src n (k + l) (x >>= f) := by
  intro s hs
  have h := hx s hs
  rw [bind_run]
  cases hxs : x s with
  | done a t =>
    rw [hxs] at h
    have ht : Fuelled src n t := hs.of_stopped h.stopped
    exact (hf a t ht).imp (fun _ _ hu => h.trans hu) fun _ _ hu => h.stopped.trans hu
  | fail e t =>
    rw [hxs] at h
    exact h
  | fault =>
    rw [hxs] at h
    exact h

/-- Sequencing after a byte was consumed: the rest gets by with less fuel. -/
theorem step {x : Dec α} {f : α → Dec β} (hx : Moves True src (n + 1) (k + 1) x)
    (hf : ∀ a, Moves I src n l (f a)) : Moves I src (n + 1) (k + 1 + l) (x >>= f) := by
  intro s hs
  have h := hx s hs
  rw [bind_run]
  cases hxs : x s with
  | done a t =>
    rw [hxs] at h
    have ht : Fuelled src n t := hs.of_moved h
    exact (hf a t ht).imp (fun _ _ hu => h.of_true.trans hu) fun _ _ hu => h.stopped.trans hu
  | fail e t =>
    rw [hxs] at h
    exact h
  | fault =>
    rw [hxs] at h
    exact h

theorem map {x : Dec α} {f : α → β} (hx : Moves I src n k x) : Moves I src n k (f <$> x) :=
  bind hx fun _ => pure

/-- The accumulating style with a guard that looks but does not read. -/
theorem accumGuard [Inhabited α] {x : Dec α} {g : Dec Unit} {f : α → Dec β}
    (hx : Moves I src n k x) (hg : Moves I src n l g) (hf : ∀ a, Moves I src n m (f a)) :
    Moves I src n (k + (l + m)) (Routine.accumGuard x g f) := by
  intro s hs
  have h := hx s hs
  cases hxs : x s with
  | done a t =>
    rw [hxs] at h
    have hrun : Routine.accumGuard x g f s = (g >>= fun _ => f a) t := by
      simp only [Routine.accumGuard, hxs]
    rw [hrun]
    have hgf := bind hg (fun _ => hf a) t (hs.of_stopped h.stopped)
    exact hgf.imp (fun _ _ hu => h.trans hu) fun _ _ hu => h.stopped.trans hu
  | fault =>
    rw [hxs] at h
    exact absurd h (by simp)
  | fail e t =>
    -- what still runs starts from where `x` stopped
    rw [hxs] at h
    rw [accumGuard_fail hxs]
    have h' := hg t (hs.of_stopped h)
    cases hgt : g t with
    | fault =>
      rw [hgt] at h'
      exact h'
    | fail e' t' =>
      rw [hgt] at h'
      exact Stopped.trans h h'
    | done c t' =>
      rw [hgt] at h'
      have hst := Stopped.trans h h'.stopped
      have h'' := hf default t' (hs.of_stopped hst)
      show ((f default t').after e).Sat _ _
      cases hft : f default t' with
      | done b u =>
        rw [hft] at h''
        exact hst.trans h''.stopped
      | fail e' u =>
        rw [hft] at h''
        exact hst.trans h''
      | fault =>
        rw [hft] at h''
        exact h''

/-- The accumulating style: the second reads on also after a failure. -/
theorem accum [Inhabited α] {x : Dec α} {f : α → Dec β} (hx : Moves I src n k x)
    (hf : ∀ a, Moves I src n l (f a)) : Moves I src n (k + l) (Routine.accum x f) :=
  (accumGuard hx pure hf).weaken (by omega)

/-- A part behind a flag may consume nothing. -/
theorem whenSet [Inhabited α] {c : Bool} {x : Dec α} (hx : Moves I src n k x) :
    Moves I src n 0 (whenSet c x) := by
  cases c with
  | true => exact hx.weaken (Nat.zero_le k)
  | false => exact pure

/-- An array may have no elements. -/
theorem times {x : Dec α} (hx : Moves I src n k x) : ∀ m, Moves I src n 0 (times x m)
  | 0 => pure
  | m + 1 =>
    (bind hx fun _ => bind (times hx m) fun _ => pure).weaken (Nat.zero_le _)

/-- The counter goes up and down around `x`. -/
theorem deeper_sat {x : Dec α} {s : Ctx}
    (h : (x { s with depth := s.depth + 1 }).Sat
      (fun _ t => Moved I src k { s with depth := s.depth + 1 } t)
      (fun _ t => Stopped { s with depth := s.depth + 1 } t)) :
    (OpenPubSub.deeper x s).Sat (fun _ t => Moved I src k s t) (fun _ t => Stopped s t) := by
  unfold OpenPubSub.deeper
  cases hxs : x { s with depth := s.depth + 1 } with
  | done a t =>
    rw [hxs] at h
    exact ⟨h.advance, h.inside, by simp [h.depth_eq]⟩
  | fail e t =>
    rw [hxs] at h
    exact ⟨h.advance, by simp [h.depth_eq]⟩
  | fault =>
    rw [hxs] at h
    exact h

/-- Going one level deeper needs no more fuel. -/
theorem deeper {x : Dec α} (hx : Moves I src n k x) : Moves I src n k (deeper x) := by
  intro s hs
  refine deeper_sat (hx _ ?_)
  unfold Fuelled at *
  simp only
  omega

theorem checkRecursion : Moves I src n 0 checkRecursion := by
  intro s _
  unfold OpenPubSub.checkRecursion
  split
  · exact Stopped.refl s
  · exact Moved.refl s

/-- Below the recursion limit the next level saves fuel. -/
theorem checked {x : Dec α} (hx : Moves I src n k x) :
    Moves I src (n + 1) k (OpenPubSub.checkRecursion >>= fun _ => OpenPubSub.deeper x) := by
  intro s hs
  by_cases hd : encodingMaxRecursion < s.depth
  · have hcheck : OpenPubSub.checkRecursion s = .fail badEncodingError s := if_pos hd
    rw [bind_fail hcheck]
    exact Stopped.refl s
  · have hcheck : OpenPubSub.checkRecursion s = .done () s := if_neg hd
    rw [bind_done hcheck]
    refine deeper_sat (hx _ ?_)
    unfold Fuelled at *
    simp only
    omega

end Moves

/-! ## Primitives -/

/-- A look ahead at the length of the message. -/
theorem need_moves (j : Nat) : Moves I src n 0 (need src j) := by
  intro s _
  unfold need
  split
  · exact Moved.refl s
  · exact Stopped.refl s

/-- A byte that is looked at but not read. -/
theorem peekByte_moves : Moves I src n 0 (peekByte src) := by
  intro s _
  show ((need src 1 >>= fun _ => _ <$> peek src 1) s).Sat _ _
  by_cases h : s.pos + 1 ≤ src.length
  · have hneed : need src 1 s = .done () s := if_pos h
    have hpeek : peek src 1 s = .done ((src.drop s.pos).take 1) s := if_pos h
    rw [bind_done hneed, map_done hpeek]
    exact Moved.refl s
  · have hneed : need src 1 s = .fail badDecodingError s := if_neg h
    rw [bind_fail hneed]
    exact Stopped.refl s

/-- A checked copy is the window at the cursor, or an error. -/
theorem fixedDecodeBinary_run (j : Nat) (s : Ctx) :
    fixedDecodeBinary src j s =
      if s.pos + j ≤ src.length then
        .done ((src.drop s.pos).take j) { s with pos := s.pos + j }
      else .fail badDecodingError s := by
  unfold fixedDecodeBinary
  by_cases h : s.pos + j ≤ src.length
  · have hneed : need src j s = .done () s := if_pos h
    have hpeek : peek src j s = .done ((src.drop s.pos).take j) s := if_pos h
    rw [bind_done hneed, bind_done hpeek, if_pos h]
    rfl
  · have hneed : need src j s = .fail badDecodingError s := if_neg h
    rw [bind_fail hneed, if_neg h]

/-- The byte at `p`. -/
def byteAt (src : Bytes) (p : Nat) : UInt8 := byteOfMemory ((src.drop p).take 1)

/-- A byte that was read is the one that stands there. -/
theorem byteDecodeBinary_eq_done {s t : Ctx} {b : UInt8}
    (h : byteDecodeBinary src s = .done b t) :
    b = byteAt src s.pos ∧ t = { s with pos := s.pos + 1 } := by
  obtain ⟨bytes, hb, rfl⟩ := map_eq_done.mp h
  rw [fixedDecodeBinary_run] at hb
  split at hb
  · cases hb
    exact ⟨rfl, rfl⟩
  · cases hb

theorem uint16DecodeBinary_pos {s t : Ctx} {w : UInt16} (h : uint16DecodeBinary src s = .done w t) :
    t.pos = s.pos + 2 := by
  obtain ⟨bytes, hb, -⟩ := map_eq_done.mp h
  rw [fixedDecodeBinary_run] at hb
  split at hb
  · cases hb
    rfl
  · cases hb

/-- Copied bytes are all inside of the message. -/
theorem fixedDecodeBinary_moves (j : Nat) : Moves I src n j (fixedDecodeBinary src j) := by
  intro s _
  rw [fixedDecodeBinary_run]
  split
  · rename_i h
    exact ⟨Nat.le_refl _, fun _ => Nat.le_trans h (Nat.le_max_right _ _), rfl⟩
  · exact Stopped.refl s

theorem byteDecodeBinary_moves : Moves I src n 1 (byteDecodeBinary src) :=
  (fixedDecodeBinary_moves 1).map

theorem uint16DecodeBinary_moves : Moves I src n 2 (uint16DecodeBinary src) :=
  (fixedDecodeBinary_moves 2).map

theorem uint32DecodeBinary_moves : Moves I src n 4 (uint32DecodeBinary src) :=
  (fixedDecodeBinary_moves 4).map

theorem uint64DecodeBinary_moves : Moves I src n 8 (uint64DecodeBinary src) :=
  (fixedDecodeBinary_moves 8).map

/-- **The unchecked jump.** It may leave the message. If what follows consumes a
byte it fails there, so a success is back inside. -/
theorem skip_moves {j : Nat} {x : Dec α} (hx : Moves I src n 0 x) (hx' : I → Moves I src n 1 x) :
    Moves I src n 0 (skip j >>= fun _ => x) := by
  intro s hs
  have hrun : (skip j >>= fun _ => x) s = x { s with pos := s.pos + j } := rfl
  have hst : Stopped s { s with pos := s.pos + j } := ⟨Nat.le_add_right _ _, rfl⟩
  have hs' := hs.of_stopped hst
  have h := hx _ hs'
  rw [hrun]
  cases hxs : x { s with pos := s.pos + j } with
  | done a t =>
    rw [hxs] at h
    refine ⟨(hst.trans h.stopped).advance, fun hI => ?_, h.depth_eq⟩
    have h' := hx' hI _ hs'
    rw [hxs] at h'
    have a := h'.advance
    have b := h'.inside hI
    simp only at a b
    omega
  -- it has failed where it jumped to, maybe beyond the end: only a success has to be inside
  | fail e t =>
    rw [hxs] at h
    exact hst.trans h
  | fault =>
    rw [hxs] at h
    exact h

/-! ## Built-in types -/

variable {T : DataTypes}

/-- An array has at least its length; one that would leave the message is refused before it is
copied. -/
theorem arrayDecodeBinary_moves {type : DataType} {ofMemory : Bytes → α} {element : Dec α}
    (he : Moves I src n 0 element) :
    Moves I src (n + 1) 4 (arrayDecodeBinary src type ofMemory element) := by
  refine Moves.step (k := 3) (l := 0) uint32DecodeBinary_moves fun length => ?_
  by_cases h : signedLength length ≤ 0
  · rw [if_pos h]
    exact Moves.pure
  · rw [if_neg h]
    refine Moves.bind (k := 0) (l := 0) (need_moves _) fun _ => ?_
    cases type.overlayable with
    | true => exact (fixedDecodeBinary_moves _).map.weaken (Nat.zero_le _)
    | false => exact (Moves.times he _).map

/-- An array whose elements need no fuel. -/
theorem arrayDecodeBinary_moves_flat {type : DataType} {ofMemory : Bytes → α} {element : Dec α}
    (he : ∀ n, Moves I src n 0 element) :
    Moves I src n 4 (arrayDecodeBinary src type ofMemory element) :=
  (arrayDecodeBinary_moves (he n)).of_succ

theorem stringDecodeBinary_moves : Moves I src n 4 (stringDecodeBinary src T) :=
  arrayDecodeBinary_moves_flat fun _ => byteDecodeBinary_moves.weaken (Nat.zero_le _)

theorem dimensionsDecodeBinary_moves : Moves I src n 4 (dimensionsDecodeBinary src T) :=
  arrayDecodeBinary_moves_flat fun _ => uint32DecodeBinary_moves.weaken (Nat.zero_le _)

theorem guidDecodeBinary_moves : Moves I src n 16 (guidDecodeBinary src) :=
  Moves.accumGuard (k := 8) (l := 0)
    (.accum uint32DecodeBinary_moves fun _ =>
      .accum uint16DecodeBinary_moves fun _ => .accum uint16DecodeBinary_moves fun _ => .pure)
    (need_moves 8) fun _ => (fixedDecodeBinary_moves 8).map

/-- The shortest form of a NodeId has two bytes. -/
theorem nodeIdDecodeBinary_moves : Moves I src n 2 (nodeIdDecodeBinary src T) := by
  refine Moves.bind (l := 1) byteDecodeBinary_moves fun _ => ?_
  split
  · exact byteDecodeBinary_moves.map
  · exact (Moves.accum byteDecodeBinary_moves fun _ =>
      .accum uint16DecodeBinary_moves fun _ => .pure).weaken (by omega)
  · exact (Moves.accum uint16DecodeBinary_moves fun _ =>
      .accum uint32DecodeBinary_moves fun _ => .pure).weaken (by omega)
  · exact (Moves.accum uint16DecodeBinary_moves fun _ =>
      .accum stringDecodeBinary_moves fun _ => .pure).weaken (by omega)
  · exact (Moves.accum uint16DecodeBinary_moves fun _ =>
      .accum guidDecodeBinary_moves fun _ => .pure).weaken (by omega)
  · exact (Moves.accum uint16DecodeBinary_moves fun _ =>
      .accum stringDecodeBinary_moves fun _ => .pure).weaken (by omega)
  · exact Moves.fail

theorem expandedNodeIdDecodeBinary_moves : Moves I src n 2 (expandedNodeIdDecodeBinary src T) :=
  Moves.bind peekByte_moves fun _ =>
    .accum nodeIdDecodeBinary_moves fun _ =>
      .accum (.whenSet stringDecodeBinary_moves) fun _ =>
        .accum (.whenSet uint32DecodeBinary_moves) fun _ => .pure

/-- A member behind a bit of the mask. -/
theorem optional_moves {mask bit : UInt8} {x : Dec α} (hx : Moves I src n k x) :
    Moves I src n 0 (optional mask bit x) :=
  Moves.whenSet hx.map

theorem qualifiedNameDecodeBinary_moves : Moves I src n 6 (qualifiedNameDecodeBinary src T) :=
  Moves.accum uint16DecodeBinary_moves fun _ => .accum stringDecodeBinary_moves fun _ => .pure

theorem localizedTextDecodeBinary_moves : Moves I src n 1 (localizedTextDecodeBinary src T) :=
  Moves.accum byteDecodeBinary_moves fun _ =>
    .accum (.whenSet stringDecodeBinary_moves) fun _ =>
      .accum (.whenSet stringDecodeBinary_moves) fun _ => .pure

/-- Induction on the fuel: the inner DiagnosticInfo starts after the mask byte. -/
theorem diagnosticInfoDecodeBinary_moves :
    ∀ n, Moves I src n 1 (diagnosticInfoDecodeBinary src T n)
  | 0 => fun s hs => absurd hs (Nat.not_lt_zero _)
  | n + 1 => by
    have ih := diagnosticInfoDecodeBinary_moves n
    refine Moves.step (k := 0) (l := 0) byteDecodeBinary_moves fun mask => ?_
    refine Moves.accumGuard (k := 0) (l := 0) (m := 0) ?_ (.whenSet .checkRecursion) fun _ =>
      .accum (optional_moves ih.deeper) fun _ => .pure
    exact .accum (optional_moves uint32DecodeBinary_moves) fun _ =>
      .accum (optional_moves uint32DecodeBinary_moves) fun _ =>
      .accum (optional_moves uint32DecodeBinary_moves) fun _ =>
      .accum (optional_moves uint32DecodeBinary_moves) fun _ =>
      .accum (optional_moves stringDecodeBinary_moves) fun _ =>
      .accum (optional_moves uint32DecodeBinary_moves) fun _ => .pure

/-! ## Nested types -/

/-- What the jump table has to guarantee to its callers. -/
structure JumpMoves (src : Bytes) (T : DataTypes) (n : Nat) (jump : Jump) : Prop where
  forward : ∀ type, Moves T.NonemptyStructs src n 0 (jump (T.get type).typeKind type)
  consumes : T.NonemptyStructs → ∀ type,
    Moves T.NonemptyStructs src n 1 (jump (T.get type).typeKind type)

variable {jump : Jump}

/-- The scalar of a Variant is looked up by its kind alone. -/
theorem JumpMoves.builtin (h : JumpMoves src T n jump) {kind : DataTypeKind}
    (hk : kind.isBuiltin = true) :
    Moves T.NonemptyStructs src n 0 (jump kind (DataTypes.builtin kind)) := by
  have hj := h.forward (DataTypes.builtin kind)
  rwa [T.get_builtin hk] at hj

/-- Jump over the length field of an ExtensionObject, then decode its content. -/
theorem JumpMoves.skip {α : Type} {j : Nat} {f : Value → α} (h : JumpMoves src T n jump)
    (type : DataTypeRef) : Moves T.NonemptyStructs src n 0
      (skip j >>= fun _ => f <$> jump (T.get type).typeKind type) :=
  skip_moves (h.forward type).map fun hT => (h.consumes hT type).map

/-- The encoding byte only names built-in types. -/
theorem variantTypeKind_isBuiltin {b : UInt8} {kind : DataTypeKind}
    (h : variantTypeKind b = some kind) : kind.isBuiltin = true := by
  unfold variantTypeKind at h
  split at h
  · cases h
  · exact (DataTypeKind.index_of_ofBuiltinIndex h).2

/-- The array in a Variant or a structure. -/
theorem valuesDecodeBinary_moves (h : JumpMoves src T n jump) (type : DataTypeRef) :
    Moves T.NonemptyStructs src n 4 (valuesDecodeBinary src T jump type) :=
  ((arrayDecodeBinary_moves (h.forward type)).map).of_succ

/-- An ExtensionObject. Its content consumes nothing where there is no body. -/
theorem extensionObjectDecodeBinary_moves (h : JumpMoves src T n jump) :
    Moves T.NonemptyStructs src (n + 1) 1 (extensionObjectDecodeBinary src T jump) := by
  have hhead : Moves True src (n + 1) 3
      (accum (nodeIdDecodeBinary src T) fun binTypeId =>
        accum (byteDecodeBinary src) fun encoding => Pure.pure (binTypeId, encoding)) :=
    .accum nodeIdDecodeBinary_moves fun _ => .accum byteDecodeBinary_moves fun _ => .pure
  refine (Moves.step (k := 2) (l := 0) hhead ?_).weaken (by omega)
  rintro ⟨binTypeId, encoding⟩
  simp only
  split
  · exact Moves.pure
  · unfold extensionObjectDecodeBinaryContent
    split
    · exact stringDecodeBinary_moves.map.weaken (Nat.zero_le _)
    · exact h.skip _
  · exact stringDecodeBinary_moves.map.weaken (Nat.zero_le _)
  · exact Moves.fail

/-- Rewinding to where the ExtensionObject began leaves the fuel as it was. -/
theorem variantDecodeBinaryUnwrapContent_moves (h : JumpMoves src T n jump) {s u : Ctx}
    (hs : Fuelled src n s) (hsu : Moved T.NonemptyStructs src 3 s u) (typeId : NodeId)
    (encoding : UInt8) : (variantDecodeBinaryUnwrapContent T jump s.pos typeId encoding u).Sat
      (fun _ t => Moved T.NonemptyStructs src 0 s t) (fun _ t => Stopped s t) := by
  unfold variantDecodeBinaryUnwrapContent
  cases if encoding = 1 then T.findDataTypeByBinary typeId else none with
  | some type =>
    have hj : Moves T.NonemptyStructs src n 0 (skip 4 >>= fun _ =>
        Prod.mk type <$> jump (T.get type).typeKind type) := h.skip type
    refine (hj u (hs.of_stopped hsu.stopped)).imp (fun _ t ht => ?_) fun _ t ht =>
      hsu.stopped.trans ht
    exact (hsu.trans ht).weaken (by omega)
  | none =>
    -- the cursor is back at `s`
    have hu : ({ u with pos := s.pos } : Ctx) = s := by
      rw [show u.depth = s.depth from hsu.depth_eq]
    show ((Prod.mk _ <$> jump _ _) { u with pos := s.pos }).Sat _ _
    rw [hu]
    exact (h.forward _).map s hs

/-- The one decoder that goes back: to where the content started, not in front of it. -/
theorem variantDecodeBinaryUnwrapExtensionObject_moves (h : JumpMoves src T n jump) :
    Moves T.NonemptyStructs src n 0 (variantDecodeBinaryUnwrapExtensionObject src T jump) := by
  intro s hs
  show ((nodeIdDecodeBinary src T >>= fun typeId => byteDecodeBinary src >>= fun encoding =>
    variantDecodeBinaryUnwrapContent T jump s.pos typeId encoding) s).Sat _ _
  rw [bind_run]
  have hn : (nodeIdDecodeBinary src T s).Sat (fun _ t => Moved T.NonemptyStructs src 2 s t)
      (fun _ t => Stopped s t) := nodeIdDecodeBinary_moves s hs
  cases hns : nodeIdDecodeBinary src T s with
  | fail e t =>
    rw [hns] at hn
    exact hn
  | fault =>
    rw [hns] at hn
    exact hn
  | done typeId t =>
    rw [hns] at hn
    show ((byteDecodeBinary src >>= fun encoding =>
      variantDecodeBinaryUnwrapContent T jump s.pos typeId encoding) t).Sat _ _
    rw [bind_run]
    have hb : (byteDecodeBinary src t).Sat (fun _ u => Moved T.NonemptyStructs src 1 t u)
        (fun _ u => Stopped t u) := byteDecodeBinary_moves t (hs.of_stopped hn.stopped)
    cases hbt : byteDecodeBinary src t with
    | fail e u =>
      rw [hbt] at hb
      exact hn.stopped.trans hb
    | fault =>
      rw [hbt] at hb
      exact hb
    | done encoding u =>
      rw [hbt] at hb
      -- id and encoding were read, so the content may go back to where they began
      exact variantDecodeBinaryUnwrapContent_moves h hs (hn.trans hb) typeId encoding

/-- The content behind the encoding byte. -/
theorem variantDecodeBinaryContent_moves (h : JumpMoves src T n jump) {kind : DataTypeKind}
    (hk : kind.isBuiltin = true) (isArray : Bool) :
    Moves T.NonemptyStructs src n 0 (variantDecodeBinaryContent src T jump kind isArray) := by
  unfold variantDecodeBinaryContent
  cases isArray with
  | true => exact (valuesDecodeBinary_moves h _).map.weaken (Nat.zero_le _)
  | false =>
    by_cases hx : kind ≠ .extensionObject
    · rw [if_neg (by simp), if_pos hx]
      exact (h.builtin hk).map
    · rw [if_neg (by simp), if_neg hx]
      exact variantDecodeBinaryUnwrapExtensionObject_moves h

/-- A Variant has at least its encoding byte. -/
theorem variantDecodeBinary_moves (h : JumpMoves src T n jump) :
    Moves T.NonemptyStructs src (n + 1) 1 (variantDecodeBinary src T jump) := by
  refine Moves.step (k := 0) (l := 0) byteDecodeBinary_moves fun encodingByte => ?_
  by_cases h0 : encodingByte = 0
  · rw [if_pos h0]
    exact Moves.pure
  · rw [if_neg h0]
    simp only
    cases hkind : variantTypeKind encodingByte with
    | none => exact Moves.fail
    | some kind =>
      have hk := variantTypeKind_isBuiltin hkind
      simp only
      split
      · exact Moves.fail
      · refine Moves.bind (k := 0) (l := 0) Moves.checkRecursion fun _ => Moves.deeper ?_
        exact .accum (variantDecodeBinaryContent_moves h hk _) fun _ =>
          .accum (.whenSet dimensionsDecodeBinary_moves) fun _ => .pure

/-- A DataValue has at least its mask. -/
theorem dataValueDecodeBinary_moves (h : JumpMoves src T n jump) :
    Moves T.NonemptyStructs src (n + 1) 1 (dataValueDecodeBinary src T jump) :=
  Moves.step (k := 0) byteDecodeBinary_moves fun _ =>
    .bind .checkRecursion fun _ => .deeper <|
      .accum (.whenSet (variantDecodeBinary_moves h).of_succ) fun _ =>
      .accum (.whenSet uint32DecodeBinary_moves) fun _ =>
      .accum (.whenSet uint64DecodeBinary_moves) fun _ =>
      .accum (.whenSet uint16DecodeBinary_moves) fun _ =>
      .accum (.whenSet uint64DecodeBinary_moves) fun _ =>
      .accum (.whenSet uint16DecodeBinary_moves) fun _ => .pure

/-! ## Structured types -/

/-- A member of a structure. -/
theorem memberDecodeBinary_moves (h : JumpMoves src T n jump) (owner : DataTypeRef)
    (m : DataTypeMember) :
    Moves T.NonemptyStructs src n 0 (memberDecodeBinary src T jump owner m) := by
  unfold memberDecodeBinary
  cases m.isArray with
  | true => exact (valuesDecodeBinary_moves h _).weaken (Nat.zero_le _)
  | false => exact h.forward _

/-- Where no structure is empty every member has a byte. -/
theorem memberDecodeBinary_consumes (h : JumpMoves src T n jump) (hT : T.NonemptyStructs)
    (owner : DataTypeRef) (m : DataTypeMember) :
    Moves T.NonemptyStructs src n 1 (memberDecodeBinary src T jump owner m) := by
  unfold memberDecodeBinary
  cases m.isArray with
  | true => exact (valuesDecodeBinary_moves h _).weaken (by omega)
  | false => exact h.consumes hT _

/-- The members one behind the other. -/
theorem decodeMembers_moves (h : JumpMoves src T n jump) (owner : DataTypeRef) :
    ∀ members, Moves T.NonemptyStructs src n 0 (decodeMembers src T jump owner members)
  | [] => .pure
  | m :: members =>
    Moves.bind (memberDecodeBinary_moves h owner m) fun _ =>
      .bind (decodeMembers_moves h owner members) fun _ => .pure

/-- A structure consumes a byte because its first member does. -/
theorem decodeMembers_consumes (h : JumpMoves src T n jump) (hT : T.NonemptyStructs)
    (owner : DataTypeRef) {members : List DataTypeMember} (hne : members ≠ []) :
    Moves T.NonemptyStructs src n 1 (decodeMembers src T jump owner members) := by
  cases members with
  | nil => exact absurd rfl hne
  | cons m members =>
    exact Moves.bind (memberDecodeBinary_consumes h hT owner m) fun _ =>
      .bind (decodeMembers_moves h owner members) fun _ => .pure

/-- The members behind an encoding mask, where any may be absent. -/
theorem decodeOptMembers_moves (h : JumpMoves src T n jump) (owner : DataTypeRef)
    (encodingMask : UInt32) :
    ∀ members o, Moves T.NonemptyStructs src n 0
      (decodeOptMembers src T jump owner encodingMask o members)
  | [], _ => .pure
  | m :: members, o => by
    refine Moves.bind (k := 0) (l := 0) ?_ fun _ =>
      .bind (decodeOptMembers_moves h owner encodingMask members _) fun _ => .pure
    unfold optMemberDecodeBinary
    split
    · exact Moves.pure
    · exact memberDecodeBinary_moves h owner m

/-- A union has at least its selection. -/
theorem decodeBinaryUnion_moves (h : JumpMoves src T n jump) (type : DataTypeRef) :
    Moves T.NonemptyStructs src (n + 1) 1 (decodeBinaryUnion src T jump type) := by
  unfold decodeBinaryUnion
  refine (Moves.bind .checkRecursion fun _ =>
    Moves.step (k := 3) (l := 0) uint32DecodeBinary_moves fun selection => ?_).weaken (by omega)
  split
  · exact Moves.pure
  · split
    · exact Moves.fail
    · exact (h.forward _).deeper.map

/-! ## The jump table -/

/-- Every kind but a structure consumes a byte, whatever the table. -/
theorem decodeBinaryJumpTable_consumes
    (ih : JumpMoves src T n (decodeBinaryJumpTable src T n)) (type : DataTypeRef)
    (hstruct : (T.get type).typeKind ≠ .struct) : Moves T.NonemptyStructs src (n + 1) 1
      (decodeBinaryJumpTable src T (n + 1) (T.get type).typeKind type) := by
  cases hkind : (T.get type).typeKind with
  | boolean => exact byteDecodeBinary_moves.map.map
  | sByte => exact byteDecodeBinary_moves.map
  | byte => exact byteDecodeBinary_moves.map
  | int16 => exact uint16DecodeBinary_moves.map.weaken (by omega)
  | uint16 => exact uint16DecodeBinary_moves.map.weaken (by omega)
  | int32 => exact uint32DecodeBinary_moves.map.weaken (by omega)
  | uint32 => exact uint32DecodeBinary_moves.map.weaken (by omega)
  | float => exact uint32DecodeBinary_moves.map.weaken (by omega)
  | statusCode => exact uint32DecodeBinary_moves.map.weaken (by omega)
  | enum => exact uint32DecodeBinary_moves.map.weaken (by omega)
  | int64 => exact uint64DecodeBinary_moves.map.weaken (by omega)
  | uint64 => exact uint64DecodeBinary_moves.map.weaken (by omega)
  | double => exact uint64DecodeBinary_moves.map.weaken (by omega)
  | dateTime => exact uint64DecodeBinary_moves.map.weaken (by omega)
  | string => exact stringDecodeBinary_moves.map.weaken (by omega)
  | byteString => exact stringDecodeBinary_moves.map.weaken (by omega)
  | xmlElement => exact stringDecodeBinary_moves.map.weaken (by omega)
  | guid => exact guidDecodeBinary_moves.map.weaken (by omega)
  | nodeId => exact nodeIdDecodeBinary_moves.map.weaken (by omega)
  | expandedNodeId => exact expandedNodeIdDecodeBinary_moves.map.weaken (by omega)
  | qualifiedName => exact qualifiedNameDecodeBinary_moves.map.weaken (by omega)
  | localizedText => exact localizedTextDecodeBinary_moves.map
  | extensionObject => exact (extensionObjectDecodeBinary_moves ih).map
  | dataValue => exact (dataValueDecodeBinary_moves ih).map
  | variant => exact (variantDecodeBinary_moves ih).map
  | diagnosticInfo => exact (diagnosticInfoDecodeBinary_moves (n + 1)).map
  | struct => exact absurd hkind hstruct
  -- the mask or the selection takes four bytes, whatever follows
  | optStruct =>
    refine (Moves.map (Moves.checked (k := 1) ?_))
    exact (Moves.bind uint32DecodeBinary_moves fun mask =>
      decodeOptMembers_moves ih type mask _ _).weaken (by omega)
  | union => exact decodeBinaryUnion_moves ih type
  | decimal => exact Moves.fail
  | bitfieldCluster => exact Moves.fail

/-- **The jump table moves forward.** Induction on the fuel: a nested call comes
after a byte was consumed, or one level deeper. -/
theorem decodeBinaryJumpTable_moves :
    ∀ n, JumpMoves src T n (decodeBinaryJumpTable src T n)
  | 0 =>
    ⟨fun _ _ hs => absurd hs (Nat.not_lt_zero _), fun _ _ _ hs => absurd hs (Nat.not_lt_zero _)⟩
  | n + 1 => by
    have ih : JumpMoves src T n (decodeBinaryJumpTable src T n) := decodeBinaryJumpTable_moves n
    refine ⟨fun type => ?_, fun hT type => ?_⟩
    · by_cases hkind : (T.get type).typeKind = .struct
      · rw [hkind]
        exact (Moves.checked (decodeMembers_moves ih type _)).map
      · exact (decodeBinaryJumpTable_consumes ih type hkind).weaken (Nat.zero_le _)
    · by_cases hkind : (T.get type).typeKind = .struct
      · rw [hkind]
        exact (Moves.checked (decodeMembers_consumes ih hT type (hT type hkind))).map
      · exact decodeBinaryJumpTable_consumes ih type hkind

/-! ## Entry points -/

/-- At the start of a message the fuel suffices, wherever the offset. -/
theorem fuelled_decodeFuel (offset : Nat) : Fuelled src (decodeFuel src) ⟨offset, 0⟩ := by
  unfold Fuelled decodeFuel encodingMaxRecursion
  simp only
  omega

/-- **An entry point moves the offset only on success**, forward and given `I` not
beyond the end. -/
theorem uaDecodeBinary_moves {x : Dec α} (hx : Moves I src (decodeFuel src) k x) (offset : Nat) :
    (uaDecodeBinary x offset).Sat
      (fun _ offset' => offset + k ≤ offset' ∧ (I → offset' ≤ max offset src.length))
      (fun _ offset' => offset' = offset) := by
  have h := hx ⟨offset, 0⟩ (fuelled_decodeFuel offset)
  unfold uaDecodeBinary
  cases hxs : x ⟨offset, 0⟩ with
  | done a t =>
    rw [hxs] at h
    exact ⟨h.advance, h.inside⟩
  | fail e t => exact rfl
  | fault =>
    rw [hxs] at h
    exact h

/-- A successful call ran the decoder from a fresh cursor. -/
theorem uaDecodeBinary_eq_done {x : Dec α} {p q : Nat} {a : α}
    (h : uaDecodeBinary x p = .done a q) : ∃ t, x ⟨p, 0⟩ = .done a t ∧ t.pos = q := by
  unfold uaDecodeBinary at h
  cases hx : x ⟨p, 0⟩ with
  | done b t =>
    rw [hx] at h
    cases h
    exact ⟨t, rfl, rfl⟩
  | fail e t =>
    rw [hx] at h
    cases h
  | fault =>
    rw [hx] at h
    cases h

end OpenPubSub
