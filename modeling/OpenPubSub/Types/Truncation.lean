import OpenPubSub.Types.DecodeBounds

/-!
# Values in a message that was cut off

The value decoders on `src.take m` against the same decoders on `src`. A decoder
looks at the length of the message only to refuse, so on the shorter message it
either does the same or fails, also in the accumulating style where it goes on
after a failure.

- `Cut src m n x x'` says so of `x` on `src` and `x'` on `src.take m`, together with
  what is needed to go on: `x'` is regular on `n` fuel. Its rules mirror those of
  `Moves`.
- **`decodeBinaryJumpTable_cut`**: the jump tables, whatever fuel either has.
- `uaDecodeBinary_cut`: the entry points.
-/

namespace OpenPubSub

open Routine

/-- `x'`, on `src.take m`, agrees with `x` or fails. -/
def Cut {α : Type} (src : Bytes) (m n : Nat) (x x' : Dec α) : Prop :=
  Curtails (Fuelled (src.take m) n) x x' ∧ Moves False (src.take m) n 0 x'

variable {α β : Type} {I : Prop} {src : Bytes} {m n k : Nat}

/-- A regular decoder leaves fuel for what follows, on both exits. -/
theorem Moves.spec {x : Dec α} (h : Moves I src n k x) :
    Spec (Fuelled src n) x (fun _ => Fuelled src n) (fun _ => Fuelled src n) := fun s hs =>
  (h s hs).imp (fun _ _ ht => hs.of_stopped ht.stopped) fun _ _ ht => hs.of_stopped ht

/-- A regular decoder ends regularly. -/
theorem Moves.regular {x : Dec α} (h : Moves I src n k x) :
    Spec (Fuelled src n) x (fun _ _ => True) (fun _ _ => True) := fun s hs =>
  (h s hs).imp (fun _ _ _ => trivial) fun _ _ _ => trivial

/-- Where the cursor is after a success. -/
theorem Moves.done {x : Dec α} (h : Moves I src n k x) {s t : Ctx} {a : α}
    (hs : Fuelled src n s) (hrun : x s = .done a t) : Moved I src k s t := by
  have := h s hs
  rwa [hrun] at this

/-! ## Rules -/

namespace Cut

theorem pure {a : α} : Cut src m n (Pure.pure a) (Pure.pure a) :=
  ⟨Curtails.refl _, Moves.pure⟩

theorem fail {e : ErrorCode} : Cut src m n (Routine.fail e : Dec α) (Routine.fail e) :=
  ⟨Curtails.refl _, Moves.fail⟩

/-- One decoder after the other. A success leaves fuel for the second. -/
theorem bind {x x' : Dec α} {f f' : α → Dec β} (hx : Cut src m n x x')
    (hf : ∀ a, Cut src m n (f a) (f' a)) : Cut src m n (x >>= f) (x' >>= f') := by
  refine ⟨Curtails.bind hx.1 (fun s a t hs hrun => ?_) fun a => (hf a).1,
    Moves.bind hx.2 fun a => (hf a).2⟩
  exact hs.of_stopped (hx.2.done hs hrun).stopped

/-- Sequencing after a byte was consumed. -/
theorem step {x x' : Dec α} {f f' : α → Dec β} (hx : Cut src m (n + 1) x x')
    (hm : Moves True (src.take m) (n + 1) (k + 1) x') (hf : ∀ a, Cut src m n (f a) (f' a)) :
    Cut src m (n + 1) (x >>= f) (x' >>= f') := by
  refine ⟨Curtails.bind hx.1 (fun s a t hs hrun => ?_) fun a => (hf a).1,
    (Moves.step hm fun a => (hf a).2).weaken (Nat.zero_le _)⟩
  exact hs.of_moved (hm.done hs hrun)

theorem map {x x' : Dec α} {f : α → β} (hx : Cut src m n x x') :
    Cut src m n (f <$> x) (f <$> x') :=
  bind hx fun _ => pure

/-- The accumulating style: what runs after a failure cannot make the whole a success. -/
theorem accumGuard [Inhabited α] {x x' : Dec α} {g g' : Dec Unit} {f f' : α → Dec β}
    (hx : Cut src m n x x') (hg : Cut src m n g g') (hf : ∀ a, Cut src m n (f a) (f' a)) :
    Cut src m n (Routine.accumGuard x g f) (Routine.accumGuard x' g' f') := by
  refine ⟨Curtails.accumGuard hx.1 hg.1 (fun a => (hf a).1) hx.2.spec ?_ fun a =>
    (hf a).2.regular, Moves.accumGuard hx.2 hg.2 fun a => (hf a).2⟩
  exact hg.2.spec.conseq (fun _ h => h) (fun _ _ h => h) fun _ _ _ => trivial

theorem accum [Inhabited α] {x x' : Dec α} {f f' : α → Dec β} (hx : Cut src m n x x')
    (hf : ∀ a, Cut src m n (f a) (f' a)) :
    Cut src m n (Routine.accum x f) (Routine.accum x' f') :=
  accumGuard hx pure hf

/-- A part that may be missing. -/
theorem whenSet [Inhabited α] {c : Bool} {x x' : Dec α} (hx : Cut src m n x x') :
    Cut src m n (whenSet c x) (whenSet c x') := by
  cases c with
  | true => exact hx
  | false => exact pure

/-- An array, element by element. -/
theorem times {x x' : Dec α} (hx : Cut src m n x x') :
    ∀ j, Cut src m n (times x j) (times x' j)
  | 0 => pure
  | j + 1 => bind hx fun _ => bind (times hx j) fun _ => pure

/-- One level down, and up again. -/
theorem deeper_curtails {x x' : Dec α} {s : Ctx}
    (h : ∀ a t, x { s with depth := s.depth + 1 } = .done a t →
      x' { s with depth := s.depth + 1 } = .done a t ∨
        ∃ e u, x' { s with depth := s.depth + 1 } = .fail e u) (a : α) (t : Ctx)
    (hd : deeper x s = .done a t) :
    deeper x' s = .done a t ∨ ∃ e u, deeper x' s = .fail e u := by
  unfold deeper at hd ⊢
  cases hxs : x { s with depth := s.depth + 1 } with
  | fail e u => simp [hxs] at hd
  | fault => simp [hxs] at hd
  | done b u =>
    rw [hxs] at hd
    rcases h b u hxs with h' | ⟨e, v, h'⟩
    · rw [h']
      exact .inl hd
    · rw [h']
      exact .inr ⟨e, _, rfl⟩

/-- A nested object has one level less to go, and as much fuel. -/
theorem deeper {x x' : Dec α} (hx : Cut src m n x x') :
    Cut src m n (deeper x) (deeper x') := by
  refine ⟨fun s hs => deeper_curtails (hx.1 _ ?_), hx.2.deeper⟩
  unfold Fuelled at *
  simp only
  omega

/-- The counter is the same in both messages. -/
theorem checkRecursion : Cut src m n checkRecursion checkRecursion :=
  ⟨Curtails.refl _, Moves.checkRecursion⟩

/-- Below the recursion limit the next level saves fuel. -/
theorem checked {x x' : Dec α} (hx : Cut src m n x x') :
    Cut src m (n + 1) (OpenPubSub.checkRecursion >>= fun _ => OpenPubSub.deeper x)
      (OpenPubSub.checkRecursion >>= fun _ => OpenPubSub.deeper x') := by
  refine ⟨fun s hs a t h => ?_, hx.2.checked⟩
  by_cases hd : encodingMaxRecursion < s.depth
  · have hcheck : OpenPubSub.checkRecursion s = .fail badEncodingError s := if_pos hd
    rw [bind_fail hcheck] at h
    cases h
  · have hcheck : OpenPubSub.checkRecursion s = .done () s := if_neg hd
    rw [bind_done hcheck] at h ⊢
    refine deeper_curtails (hx.1 _ ?_) a t h
    unfold Fuelled at *
    simp only
    omega

/-- Less fuel is asked of the caller than there is. -/
theorem of_succ {x x' : Dec α} (h : Cut src m (n + 1) x x') : Cut src m n x x' :=
  ⟨h.1.mono fun _ hs => Nat.lt_succ_of_lt hs, h.2.of_succ⟩

end Cut

/-! ## Primitives -/

/-- A window that the shorter message covers is the same. -/
theorem window_take {p j : Nat} (h : p + j ≤ (src.take m).length) :
    ((src.take m).drop p).take j = (src.drop p).take j := by
  rw [List.length_take] at h
  rw [List.drop_take, List.take_take, Nat.min_eq_left (by omega)]

/-- What is there in the shorter message is there in the longer one. -/
theorem need_cut (j : Nat) : Cut src m n (need src j) (need (src.take m) j) := by
  refine ⟨fun s _ a t h => ?_, need_moves j⟩
  by_cases h' : s.pos + j ≤ (src.take m).length
  · have hsrc : s.pos + j ≤ src.length := by
      rw [List.length_take] at h'
      omega
    have hrun : need src j s = .done () s := if_pos hsrc
    rw [hrun] at h
    cases h
    exact .inl (if_pos h')
  · exact .inr ⟨_, _, if_neg h'⟩

/-- A number of fixed size: all of its bytes are there, or it is refused. -/
theorem fixedDecodeBinary_cut (j : Nat) :
    Cut src m n (fixedDecodeBinary src j) (fixedDecodeBinary (src.take m) j) := by
  refine ⟨fun s _ a t h => ?_, (fixedDecodeBinary_moves j).weaken (Nat.zero_le _)⟩
  rw [fixedDecodeBinary_run] at h ⊢
  by_cases h' : s.pos + j ≤ (src.take m).length
  · have hsrc : s.pos + j ≤ src.length := by
      rw [List.length_take] at h'
      omega
    rw [if_pos hsrc] at h
    rw [if_pos h', window_take h']
    exact .inl h
  · rw [if_neg h']
    exact .inr ⟨_, _, rfl⟩

/-- A byte that is looked at in advance. -/
theorem peekByte_cut : Cut src m n (peekByte src) (peekByte (src.take m)) := by
  refine ⟨fun s hs a t h => ?_, peekByte_moves⟩
  by_cases h' : s.pos + 1 ≤ (src.take m).length
  · have hsrc : s.pos + 1 ≤ src.length := by
      rw [List.length_take] at h'
      omega
    have hneed : need src 1 s = .done () s := if_pos hsrc
    have hpeek : peek src 1 s = .done ((src.drop s.pos).take 1) s := if_pos hsrc
    have hneed' : need (src.take m) 1 s = .done () s := if_pos h'
    have hpeek' : peek (src.take m) 1 s = .done ((src.drop s.pos).take 1) s := by
      rw [← window_take h']
      exact if_pos h'
    have hrun : peekByte src s = peekByte (src.take m) s := by
      unfold peekByte
      rw [bind_done hneed, bind_done hneed', map_done hpeek, map_done hpeek']
    rw [← hrun]
    exact .inl h
  · have hneed : need (src.take m) 1 s = .fail badDecodingError s := if_neg h'
    exact .inr ⟨_, _, bind_fail hneed⟩

theorem byteDecodeBinary_cut :
    Cut src m n (byteDecodeBinary src) (byteDecodeBinary (src.take m)) :=
  (fixedDecodeBinary_cut 1).map

theorem uint16DecodeBinary_cut :
    Cut src m n (uint16DecodeBinary src) (uint16DecodeBinary (src.take m)) :=
  (fixedDecodeBinary_cut 2).map

theorem uint32DecodeBinary_cut :
    Cut src m n (uint32DecodeBinary src) (uint32DecodeBinary (src.take m)) :=
  (fixedDecodeBinary_cut 4).map

theorem uint64DecodeBinary_cut :
    Cut src m n (uint64DecodeBinary src) (uint64DecodeBinary (src.take m)) :=
  (fixedDecodeBinary_cut 8).map

/-- The unchecked jump lands at the same place in both. -/
theorem skip_cut {j : Nat} {x x' : Dec α} (hx : Cut src m n x x') :
    Cut src m n (skip j >>= fun _ => x) (skip j >>= fun _ => x') := by
  refine ⟨fun s hs a t h => ?_, skip_moves hx.2 False.elim⟩
  have hst : Stopped s { s with pos := s.pos + j } := ⟨Nat.le_add_right _ _, rfl⟩
  exact hx.1 _ (hs.of_stopped hst) a t h

/-! ## Built-in types -/

variable {T : DataTypes}

/-- An array. Its length word takes bytes, so the elements have less fuel. -/
theorem arrayDecodeBinary_cut {type : DataType} {ofMemory : Bytes → α} {element element' : Dec α}
    (he : Cut src m n element element') :
    Cut src m (n + 1) (arrayDecodeBinary src type ofMemory element)
      (arrayDecodeBinary (src.take m) type ofMemory element') := by
  refine Cut.step (k := 3) uint32DecodeBinary_cut uint32DecodeBinary_moves fun length => ?_
  by_cases h : signedLength length ≤ 0
  · rw [if_pos h, if_pos h]
    exact Cut.pure
  · rw [if_neg h, if_neg h]
    refine Cut.bind (need_cut _) fun _ => ?_
    cases type.overlayable with
    | true => exact (fixedDecodeBinary_cut _).map
    | false => exact (Cut.times he _).map

theorem stringDecodeBinary_cut :
    Cut src m n (stringDecodeBinary src T) (stringDecodeBinary (src.take m) T) :=
  (arrayDecodeBinary_cut byteDecodeBinary_cut).of_succ

theorem dimensionsDecodeBinary_cut :
    Cut src m n (dimensionsDecodeBinary src T) (dimensionsDecodeBinary (src.take m) T) :=
  (arrayDecodeBinary_cut uint32DecodeBinary_cut).of_succ

theorem guidDecodeBinary_cut :
    Cut src m n (guidDecodeBinary src) (guidDecodeBinary (src.take m)) :=
  Cut.accumGuard
    (.accum uint32DecodeBinary_cut fun _ =>
      .accum uint16DecodeBinary_cut fun _ => .accum uint16DecodeBinary_cut fun _ => .pure)
    (need_cut 8) fun _ => (fixedDecodeBinary_cut 8).map

/-- The encoding byte decides about the rest. -/
theorem nodeIdDecodeBinary_cut :
    Cut src m n (nodeIdDecodeBinary src T) (nodeIdDecodeBinary (src.take m) T) := by
  refine Cut.bind byteDecodeBinary_cut fun encodingByte => ?_
  match nodeIdForm encodingByte with
  | 0 => exact byteDecodeBinary_cut.map
  | 1 =>
    exact .accum byteDecodeBinary_cut fun _ => .accum uint16DecodeBinary_cut fun _ => .pure
  | 2 =>
    exact .accum uint16DecodeBinary_cut fun _ => .accum uint32DecodeBinary_cut fun _ => .pure
  | 3 =>
    exact .accum uint16DecodeBinary_cut fun _ => .accum stringDecodeBinary_cut fun _ => .pure
  | 4 =>
    exact .accum uint16DecodeBinary_cut fun _ => .accum guidDecodeBinary_cut fun _ => .pure
  | 5 =>
    exact .accum uint16DecodeBinary_cut fun _ => .accum stringDecodeBinary_cut fun _ => .pure
  | _ + 6 => exact Cut.fail

/-- A byte looked at in advance, a NodeId, and what the byte announces. -/
theorem expandedNodeIdDecodeBinary_cut :
    Cut src m n (expandedNodeIdDecodeBinary src T) (expandedNodeIdDecodeBinary (src.take m) T) :=
  Cut.bind peekByte_cut fun _ =>
    .accum nodeIdDecodeBinary_cut fun _ =>
      .accum (.whenSet stringDecodeBinary_cut) fun _ =>
        .accum (.whenSet uint32DecodeBinary_cut) fun _ => .pure

theorem qualifiedNameDecodeBinary_cut :
    Cut src m n (qualifiedNameDecodeBinary src T) (qualifiedNameDecodeBinary (src.take m) T) :=
  Cut.accum uint16DecodeBinary_cut fun _ => .accum stringDecodeBinary_cut fun _ => .pure

theorem localizedTextDecodeBinary_cut :
    Cut src m n (localizedTextDecodeBinary src T) (localizedTextDecodeBinary (src.take m) T) :=
  Cut.accum byteDecodeBinary_cut fun _ =>
    .accum (.whenSet stringDecodeBinary_cut) fun _ =>
      .accum (.whenSet stringDecodeBinary_cut) fun _ => .pure

theorem optional_cut {mask bit : UInt8} {x x' : Dec α} (hx : Cut src m n x x') :
    Cut src m n (optional mask bit x) (optional mask bit x') :=
  Cut.whenSet hx.map

/-- A decoder without fuel never succeeds, and asks nothing of the other one. -/
theorem cut_of_never {x x' : Dec α} (hx : ∀ s a t, x s ≠ .done a t)
    (hm : Moves False (src.take m) n k x') : Cut src m n x x' :=
  ⟨fun s _ a t h => absurd h (hx s a t), hm.weaken (Nat.zero_le _)⟩

/-- Induction on the fuel of the longer message. -/
theorem diagnosticInfoDecodeBinary_cut :
    ∀ n n', Cut src m n' (diagnosticInfoDecodeBinary src T n)
      (diagnosticInfoDecodeBinary (src.take m) T n')
  | 0, n' => cut_of_never (fun _ _ _ h => nomatch h) (diagnosticInfoDecodeBinary_moves n')
  | _ + 1, 0 =>
    ⟨fun _ hs => absurd hs (Nat.not_lt_zero _), fun _ hs => absurd hs (Nat.not_lt_zero _)⟩
  | n + 1, n' + 1 => by
    have ih := diagnosticInfoDecodeBinary_cut n n'
    refine Cut.step (k := 0) byteDecodeBinary_cut byteDecodeBinary_moves fun mask => ?_
    refine Cut.accumGuard ?_ (.whenSet .checkRecursion) fun _ =>
      .accum (optional_cut ih.deeper) fun _ => .pure
    exact .accum (optional_cut uint32DecodeBinary_cut) fun _ =>
      .accum (optional_cut uint32DecodeBinary_cut) fun _ =>
      .accum (optional_cut uint32DecodeBinary_cut) fun _ =>
      .accum (optional_cut uint32DecodeBinary_cut) fun _ =>
      .accum (optional_cut stringDecodeBinary_cut) fun _ =>
      .accum (optional_cut uint32DecodeBinary_cut) fun _ => .pure

/-! ## Nested types -/

/-- What the two jump tables have to guarantee to their callers. -/
structure JumpCut (src : Bytes) (T : DataTypes) (m n : Nat) (jump jump' : Jump) : Prop where
  curtails : ∀ type, Curtails (Fuelled (src.take m) n) (jump (T.get type).typeKind type)
    (jump' (T.get type).typeKind type)
  moves : JumpMoves (src.take m) T n jump'

variable {jump jump' : Jump}

/-- The entry of a type. -/
theorem JumpCut.cut (h : JumpCut src T m n jump jump') (type : DataTypeRef) :
    Cut src m n (jump (T.get type).typeKind type) (jump' (T.get type).typeKind type) :=
  ⟨h.curtails type, (h.moves.forward type).of_false⟩

/-- The entry of a built-in type. -/
theorem JumpCut.builtin (h : JumpCut src T m n jump jump') {kind : DataTypeKind}
    (hk : kind.isBuiltin = true) :
    Cut src m n (jump kind (DataTypes.builtin kind)) (jump' kind (DataTypes.builtin kind)) := by
  have hj := h.cut (DataTypes.builtin kind)
  rwa [T.get_builtin hk] at hj

/-- The elements are read through the jump table. -/
theorem valuesDecodeBinary_cut (h : JumpCut src T m n jump jump') (type : DataTypeRef) :
    Cut src m n (valuesDecodeBinary src T jump type)
      (valuesDecodeBinary (src.take m) T jump' type) :=
  ((arrayDecodeBinary_cut (h.cut type)).map).of_succ

/-- A type id, an encoding byte, and a body. The id takes bytes, so the body has less fuel. -/
theorem extensionObjectDecodeBinary_cut (h : JumpCut src T m n jump jump') :
    Cut src m (n + 1) (extensionObjectDecodeBinary src T jump)
      (extensionObjectDecodeBinary (src.take m) T jump') := by
  refine Cut.step (k := 2)
    (.accum nodeIdDecodeBinary_cut fun _ => .accum byteDecodeBinary_cut fun _ => .pure)
    (.accum nodeIdDecodeBinary_moves fun _ => .accum byteDecodeBinary_moves fun _ => .pure) ?_
  rintro ⟨binTypeId, encoding⟩
  simp only
  match encoding.toNat with
  | 0 => exact Cut.pure
  | 1 =>
    simp only
    unfold extensionObjectDecodeBinaryContent
    cases T.findDataTypeByBinary binTypeId with
    | none => exact stringDecodeBinary_cut.map
    | some type => exact skip_cut (h.cut type).map
  | 2 => exact stringDecodeBinary_cut.map
  | _ + 3 => exact Cut.fail

/-- Both rewind to the same position. -/
theorem variantDecodeBinaryUnwrapContent_cut (h : JumpCut src T m n jump jump') {s u : Ctx}
    (hs : Fuelled (src.take m) n s) (hsu : Stopped s u) (typeId : NodeId) (encoding : UInt8)
    (a : DataTypeRef × Value) (t : Ctx)
    (hrun : variantDecodeBinaryUnwrapContent T jump s.pos typeId encoding u = .done a t) :
    variantDecodeBinaryUnwrapContent T jump' s.pos typeId encoding u = .done a t ∨
      ∃ e v, variantDecodeBinaryUnwrapContent T jump' s.pos typeId encoding u = .fail e v := by
  unfold variantDecodeBinaryUnwrapContent at hrun ⊢
  cases hfind : (if encoding = 1 then T.findDataTypeByBinary typeId else none) with
  | some type =>
    rw [hfind] at hrun
    have hcut : Cut src m n (skip 4 >>= fun _ => Prod.mk type <$> jump (T.get type).typeKind type)
        (skip 4 >>= fun _ => Prod.mk type <$> jump' (T.get type).typeKind type) :=
      skip_cut (h.cut type).map
    exact hcut.1 u (hs.of_stopped hsu) a t hrun
  | none =>
    rw [hfind] at hrun
    have hu : Fuelled (src.take m) n { u with pos := s.pos } := by
      unfold Fuelled at *
      rw [show u.depth = s.depth from hsu.depth_eq]
      exact hs
    exact ((h.cut _).map (f := Prod.mk (DataTypes.builtin .extensionObject))).1 _ hu a t hrun

/-- The header is read, and the cursor may go back in front of it. It goes back to the same place
in both messages. -/
theorem variantDecodeBinaryUnwrapExtensionObject_cut (h : JumpCut src T m n jump jump') :
    Cut src m n (variantDecodeBinaryUnwrapExtensionObject src T jump)
      (variantDecodeBinaryUnwrapExtensionObject (src.take m) T jump') := by
  refine ⟨fun s hs a v hrun => ?_,
    (variantDecodeBinaryUnwrapExtensionObject_moves h.moves).of_false⟩
  change (nodeIdDecodeBinary src T >>= fun typeId => byteDecodeBinary src >>= fun encoding =>
    variantDecodeBinaryUnwrapContent T jump s.pos typeId encoding) s = .done a v at hrun
  obtain ⟨typeId, t, hn, hrun⟩ := bind_eq_done.mp hrun
  obtain ⟨encoding, u, hb, hrun⟩ := bind_eq_done.mp hrun
  show (nodeIdDecodeBinary (src.take m) T >>= fun typeId =>
      byteDecodeBinary (src.take m) >>= fun encoding =>
        variantDecodeBinaryUnwrapContent T jump' s.pos typeId encoding) s = _ ∨
    ∃ e v', (nodeIdDecodeBinary (src.take m) T >>= fun typeId =>
      byteDecodeBinary (src.take m) >>= fun encoding =>
        variantDecodeBinaryUnwrapContent T jump' s.pos typeId encoding) s = .fail e v'
  have hnm : (nodeIdDecodeBinary (src.take m) T s).Sat (fun _ t => Moved True (src.take m) 2 s t)
      (fun _ t => Stopped s t) := nodeIdDecodeBinary_moves s hs
  -- the type id and the encoding byte are the same in both, or the shorter message ends here
  rcases nodeIdDecodeBinary_cut.1 s hs typeId t hn with hn' | ⟨e, t', hn'⟩
  · rw [hn'] at hnm
    have ht := hs.of_stopped hnm.stopped
    have hbm : (byteDecodeBinary (src.take m) t).Sat (fun _ u => Moved True (src.take m) 1 t u)
        (fun _ u => Stopped t u) := byteDecodeBinary_moves t ht
    rw [bind_done hn']
    rcases byteDecodeBinary_cut.1 t ht encoding u hb with hb' | ⟨e, u', hb'⟩
    · rw [hb'] at hbm
      rw [bind_done hb']
      -- both go on at one place, and one of the two may go back to the start
      exact variantDecodeBinaryUnwrapContent_cut h hs (hnm.stopped.trans hbm.stopped) typeId
        encoding a v hrun
    · exact .inr ⟨e, u', bind_fail hb'⟩
  · exact .inr ⟨e, t', bind_fail hn'⟩

/-- An array, an ExtensionObject that is unwrapped, or a single object. -/
theorem variantDecodeBinaryContent_cut (h : JumpCut src T m n jump jump') {kind : DataTypeKind}
    (hk : kind.isBuiltin = true) (isArray : Bool) :
    Cut src m n (variantDecodeBinaryContent src T jump kind isArray)
      (variantDecodeBinaryContent (src.take m) T jump' kind isArray) := by
  unfold variantDecodeBinaryContent
  cases isArray with
  | true => exact (valuesDecodeBinary_cut h _).map
  | false =>
    by_cases hx : kind ≠ .extensionObject
    · rw [if_neg (by simp), if_pos hx, if_neg (by simp), if_pos hx]
      exact (h.builtin hk).map
    · rw [if_neg (by simp), if_neg hx, if_neg (by simp), if_neg hx]
      exact variantDecodeBinaryUnwrapExtensionObject_cut h

/-- The encoding byte takes one byte, so the content has less fuel. -/
theorem variantDecodeBinary_cut (h : JumpCut src T m n jump jump') :
    Cut src m (n + 1) (variantDecodeBinary src T jump)
      (variantDecodeBinary (src.take m) T jump') := by
  refine Cut.step (k := 0) byteDecodeBinary_cut byteDecodeBinary_moves fun encodingByte => ?_
  by_cases h0 : encodingByte = 0
  · rw [if_pos h0, if_pos h0]
    exact Cut.pure
  · rw [if_neg h0, if_neg h0]
    simp only
    cases hkind : variantTypeKind encodingByte with
    | none => exact Cut.fail
    | some kind =>
      have hk := variantTypeKind_isBuiltin hkind
      simp only
      split
      · exact Cut.fail
      · refine Cut.bind .checkRecursion fun _ => .deeper ?_
        exact .accum (variantDecodeBinaryContent_cut h hk _) fun _ =>
          .accum (.whenSet dimensionsDecodeBinary_cut) fun _ => .pure

/-- The encoding mask takes one byte, so the Variant has less fuel. -/
theorem dataValueDecodeBinary_cut (h : JumpCut src T m n jump jump') :
    Cut src m (n + 1) (dataValueDecodeBinary src T jump)
      (dataValueDecodeBinary (src.take m) T jump') :=
  Cut.step (k := 0) byteDecodeBinary_cut byteDecodeBinary_moves fun _ =>
    .bind .checkRecursion fun _ => .deeper <|
      .accum (.whenSet (variantDecodeBinary_cut h).of_succ) fun _ =>
      .accum (.whenSet uint32DecodeBinary_cut) fun _ =>
      .accum (.whenSet uint64DecodeBinary_cut) fun _ =>
      .accum (.whenSet uint16DecodeBinary_cut) fun _ =>
      .accum (.whenSet uint64DecodeBinary_cut) fun _ =>
      .accum (.whenSet uint16DecodeBinary_cut) fun _ => .pure

/-! ## Structured types -/

theorem memberDecodeBinary_cut (h : JumpCut src T m n jump jump') (owner : DataTypeRef)
    (mem : DataTypeMember) :
    Cut src m n (memberDecodeBinary src T jump owner mem)
      (memberDecodeBinary (src.take m) T jump' owner mem) := by
  unfold memberDecodeBinary
  cases mem.isArray with
  | true => exact valuesDecodeBinary_cut h _
  | false => exact h.cut _

/-- The members of a structure, one after the other. -/
theorem decodeMembers_cut (h : JumpCut src T m n jump jump') (owner : DataTypeRef) :
    ∀ members, Cut src m n (decodeMembers src T jump owner members)
      (decodeMembers (src.take m) T jump' owner members)
  | [] => .pure
  | mem :: members =>
    Cut.bind (memberDecodeBinary_cut h owner mem) fun _ =>
      .bind (decodeMembers_cut h owner members) fun _ => .pure

/-- The same where the mask leaves some of them out. -/
theorem decodeOptMembers_cut (h : JumpCut src T m n jump jump') (owner : DataTypeRef)
    (encodingMask : UInt32) :
    ∀ members o, Cut src m n (decodeOptMembers src T jump owner encodingMask o members)
      (decodeOptMembers (src.take m) T jump' owner encodingMask o members)
  | [], _ => .pure
  | mem :: members, o => by
    refine Cut.bind ?_ fun _ =>
      .bind (decodeOptMembers_cut h owner encodingMask members _) fun _ => .pure
    unfold optMemberDecodeBinary
    split
    · exact Cut.pure
    · exact memberDecodeBinary_cut h owner mem

/-- The selection takes four bytes, so the member has less fuel. -/
theorem decodeBinaryUnion_cut (h : JumpCut src T m n jump jump') (type : DataTypeRef) :
    Cut src m (n + 1) (decodeBinaryUnion src T jump type)
      (decodeBinaryUnion (src.take m) T jump' type) := by
  refine Cut.bind .checkRecursion fun _ => ?_
  refine Cut.step (k := 3) uint32DecodeBinary_cut uint32DecodeBinary_moves fun selection => ?_
  match selection.toNat with
  | 0 => exact Cut.pure
  | i + 1 =>
    simp only
    cases (T.get type).members[i]? with
    | none => exact Cut.fail
    | some mem => exact (h.cut _).deeper.map

/-! ## The jump table -/

/-- **The jump tables.** Induction on the fuel of the longer message. -/
theorem decodeBinaryJumpTable_cut :
    ∀ n n', JumpCut src T m n' (decodeBinaryJumpTable src T n)
      (decodeBinaryJumpTable (src.take m) T n')
  | 0, n' => ⟨fun _ _ _ _ _ h => (nomatch h), decodeBinaryJumpTable_moves n'⟩
  | _ + 1, 0 =>
    ⟨fun _ _ hs => absurd hs (Nat.not_lt_zero _), decodeBinaryJumpTable_moves 0⟩
  | n + 1, n' + 1 => by
    -- the induction is on the fuel of both at once: a nested value is one call down in either
    have ih : JumpCut src T m n' (decodeBinaryJumpTable src T n)
      (decodeBinaryJumpTable (src.take m) T n') := decodeBinaryJumpTable_cut n n'
    refine ⟨fun type => ?_, decodeBinaryJumpTable_moves (n' + 1)⟩
    cases (T.get type).typeKind with
    | boolean => exact byteDecodeBinary_cut.map.map.1
    | sByte => exact byteDecodeBinary_cut.map.1
    | byte => exact byteDecodeBinary_cut.map.1
    | int16 => exact uint16DecodeBinary_cut.map.1
    | uint16 => exact uint16DecodeBinary_cut.map.1
    | int32 => exact uint32DecodeBinary_cut.map.1
    | uint32 => exact uint32DecodeBinary_cut.map.1
    | float => exact uint32DecodeBinary_cut.map.1
    | statusCode => exact uint32DecodeBinary_cut.map.1
    | enum => exact uint32DecodeBinary_cut.map.1
    | int64 => exact uint64DecodeBinary_cut.map.1
    | uint64 => exact uint64DecodeBinary_cut.map.1
    | double => exact uint64DecodeBinary_cut.map.1
    | dateTime => exact uint64DecodeBinary_cut.map.1
    | string => exact stringDecodeBinary_cut.map.1
    | byteString => exact stringDecodeBinary_cut.map.1
    | xmlElement => exact stringDecodeBinary_cut.map.1
    | guid => exact guidDecodeBinary_cut.map.1
    | nodeId => exact nodeIdDecodeBinary_cut.map.1
    | expandedNodeId => exact expandedNodeIdDecodeBinary_cut.map.1
    | qualifiedName => exact qualifiedNameDecodeBinary_cut.map.1
    | localizedText => exact localizedTextDecodeBinary_cut.map.1
    | extensionObject => exact (extensionObjectDecodeBinary_cut ih).map.1
    | dataValue => exact (dataValueDecodeBinary_cut ih).map.1
    | variant => exact (variantDecodeBinary_cut ih).map.1
    | diagnosticInfo => exact (diagnosticInfoDecodeBinary_cut (n + 1) (n' + 1)).map.1
    | struct => exact (Cut.checked (decodeMembers_cut ih type _)).map.1
    | optStruct =>
      exact (Cut.checked (.bind uint32DecodeBinary_cut fun mask =>
        decodeOptMembers_cut ih type mask _ _)).map.1
    | union => exact (decodeBinaryUnion_cut ih type).1
    -- not implemented: both refuse
    | decimal => exact Cut.fail.1
    | bitfieldCluster => exact Cut.fail.1

/-! ## Entry points -/

/-- At the entry points both start with enough fuel. -/
theorem uaDecodeBinary_cut {x x' : Dec α} (h : Cut src m (decodeFuel (src.take m)) x x') :
    Curtails (fun _ => True) (uaDecodeBinary x) (uaDecodeBinary x') := by
  intro offset _ a offset' hrun
  unfold uaDecodeBinary at hrun ⊢
  cases hx : x ⟨offset, 0⟩ with
  | fail e t => simp [hx] at hrun
  | fault => simp [hx] at hrun
  | done b t =>
    rw [hx] at hrun
    rcases h.1 _ (fuelled_decodeFuel offset) b t hx with hx' | ⟨e, t', hx'⟩
    · rw [hx']
      exact .inl hrun
    · rw [hx']
      exact .inr ⟨e, offset, rfl⟩

theorem uaVariantDecodeBinary_cut :
    Curtails (fun _ => True) (uaVariantDecodeBinary src T)
      (uaVariantDecodeBinary (src.take m) T) :=
  uaDecodeBinary_cut (variantDecodeBinary_cut (decodeBinaryJumpTable_cut _ _)).of_succ

theorem uaDataValueDecodeBinary_cut :
    Curtails (fun _ => True) (uaDataValueDecodeBinary src T)
      (uaDataValueDecodeBinary (src.take m) T) :=
  uaDecodeBinary_cut (dataValueDecodeBinary_cut (decodeBinaryJumpTable_cut _ _)).of_succ

end OpenPubSub
