import OpenPubSub.NetworkMessage.Encode
import OpenPubSub.Types.EncodePlan

/-!
# Pieces of a message

Encoder and size calculation are two traversals of the same message. `Piece`s are what
both go over: some bytes, and how the offset table calls them if it has an entry for
them.

- `Sizes pieces u`: the calculation `u` adds the bytes of `pieces` to the size, and records
  those that are items.
- `Lays pieces ok x u`: on top of that, the encoder `x` writes these bytes. One rule for
  each way in which the source goes from one section to the next.
-/

namespace OpenPubSub

open Routine Writer

/-! ## Pieces -/

/-- Bytes of a message, and the kind and source of the table entry for them. -/
structure Piece where
  item : Option (NetworkMessageOffsetType × OffsetSource)
  bytes : Bytes

namespace Piece

/-- Bytes the table has no entry for. -/
abbrev plain (bs : Bytes) : Piece := ⟨none, bs⟩

end Piece

/-- The bytes of all pieces. -/
def pieceBytes (pieces : List Piece) : Bytes := pieces.flatMap Piece.bytes

/-- Recorded for subscribers only. -/
def NetworkMessageOffsetType.forSubscriber (contentType : NetworkMessageOffsetType) : Bool :=
  match contentType with
  | .publisherId | .writerGroupId | .dataSetWriterId => true
  | _ => false

/-- The table entry of a piece at `offset`. -/
def Piece.mark (rt : Bool) (offset : Nat) (piece : Piece) : List NetworkMessageOffset :=
  match piece.item with
  | some (contentType, source) =>
    if contentType.forSubscriber && !rt then [] else [⟨contentType, offset, source⟩]
  | none => []

/-- The table entries of the pieces from `offset` on. -/
def marks (rt : Bool) : Nat → List Piece → List NetworkMessageOffset
  | _, [] => []
  | offset, piece :: pieces => piece.mark rt offset ++ marks rt (offset + piece.bytes.length) pieces

@[simp] theorem pieceBytes_nil : pieceBytes [] = [] := rfl

@[simp] theorem pieceBytes_cons (piece : Piece) (pieces : List Piece) :
    pieceBytes (piece :: pieces) = piece.bytes ++ pieceBytes pieces := rfl

@[simp] theorem pieceBytes_append (as bs : List Piece) :
    pieceBytes (as ++ bs) = pieceBytes as ++ pieceBytes bs := List.flatMap_append

/-- A section that may be missing. -/
theorem pieceBytes_ite (c : Bool) (pieces : List Piece) :
    pieceBytes (if c then pieces else []) = if c then pieceBytes pieces else [] := by
  cases c <;> rfl

/-- The entries of what follows start where the bytes before it end. -/
theorem marks_append (rt : Bool) (offset : Nat) (as bs : List Piece) :
    marks rt offset (as ++ bs) =
      marks rt offset as ++ marks rt (offset + (pieceBytes as).length) bs := by
  induction as generalizing offset with
  | nil => rfl
  | cons a as ih =>
    rw [List.cons_append, marks, marks, ih, List.append_assoc, pieceBytes_cons,
      List.length_append, Nat.add_assoc]

/-! ## Pieces without entries -/

section IsPlain

variable {as bs pieces : List Piece}

/-- No entries. -/
def IsPlain (pieces : List Piece) : Prop := ∀ piece ∈ pieces, piece.item = none

theorem IsPlain.append (ha : IsPlain as) (hb : IsPlain bs) : IsPlain (as ++ bs) := by
  intro piece hpiece
  rcases List.mem_append.mp hpiece with h | h
  · exact ha piece h
  · exact hb piece h

theorem isPlain_nil : IsPlain [] := fun _ h => absurd h List.not_mem_nil

theorem isPlain_plain (bs : Bytes) : IsPlain [.plain bs] := fun piece hpiece => by
  rw [List.mem_singleton.mp hpiece]

/-- An optional part is plain if it is plain where it is there. -/
theorem IsPlain.ite {c : Bool} (h : c = true → IsPlain pieces) :
    IsPlain (if c then pieces else []) := by
  cases c with
  | true => exact h rfl
  | false => exact isPlain_nil

theorem isPlain_plainIf (c : Bool) (bs : Bytes) : IsPlain (if c then [.plain bs] else []) :=
  .ite fun _ => isPlain_plain bs

/-- Where nothing is recorded the offset buffer stays as it is. -/
theorem IsPlain.marks {rt : Bool} (h : IsPlain pieces) (offset : Nat) :
    marks rt offset pieces = [] := by
  induction pieces generalizing offset with
  | nil => rfl
  | cons piece pieces ih =>
    obtain ⟨hpiece, hpieces⟩ := List.forall_mem_cons.mp h
    rw [OpenPubSub.marks, ih hpieces, Piece.mark, hpiece]
    rfl

end IsPlain

/-! ## Size calculations -/

/-- The state after the pieces. -/
def Sizer.advance (s : Sizer) (pieces : List Piece) : Sizer where
  size := s.size + (pieceBytes pieces).length
  offsetBuffer := s.offsetBuffer.map fun b =>
    { b with offsets := b.offsets ++ marks b.rtSubscriberEnabled s.size pieces }

/-- The calculation goes over the pieces. -/
def Sizes (pieces : List Piece) (u : Sizing) : Prop :=
  ∀ s : Sizer, u s = .done () (s.advance pieces)

section Sizes

variable {as bs pieces : List Piece} {u v : Sizing}

theorem advance_append (s : Sizer) (as bs : List Piece) :
    s.advance (as ++ bs) = (s.advance as).advance bs := by
  obtain ⟨size, offsetBuffer⟩ := s
  simp only [Sizer.advance, pieceBytes_append, List.length_append, Option.map_map,
    Sizer.mk.injEq]
  refine ⟨by omega, ?_⟩
  congr 1
  funext b
  simp only [Function.comp_apply, marks_append, List.append_assoc]

theorem sizes_nil : Sizes [] (pure () : Sizing) := by
  rintro ⟨size, offsetBuffer⟩
  cases offsetBuffer <;> simp [Sizer.advance, marks]

/-- Two calculations in a row: the second starts at the size and the entry the first left. -/
theorem Sizes.bind (hu : Sizes as u) (hv : Sizes bs v) : Sizes (as ++ bs) (u >>= fun _ => v) := by
  intro s
  rw [bind_done (hu s), hv, advance_append]

/-- A part that is counted only where it is there. -/
theorem Sizes.ite {c : Bool} (hu : c = true → Sizes pieces u) :
    Sizes (if c then pieces else []) (sizingIf c u) := by
  cases c with
  | true => exact hu rfl
  | false => exact sizes_nil

/-- A size that is added is the number of bytes. -/
theorem sizes_plain {bs : Bytes} {n : Nat} (h : bs.length = n) :
    Sizes [.plain bs] (addSize n) := by
  rintro ⟨size, offsetBuffer⟩
  cases offsetBuffer <;> simp [addSize, Sizer.advance, marks, Piece.mark, h]

/-- An addend of zero, for a string that is not there. -/
theorem sizes_zero : Sizes [] (addSize 0) := by
  rintro ⟨size, offsetBuffer⟩
  cases offsetBuffer <;> simp [addSize, Sizer.advance, marks]

theorem sizes_plainIf {c : Bool} {bs : Bytes} {n : Nat} (h : c = true → bs.length = n) :
    Sizes (if c then [.plain bs] else []) (addSizeIf c n) := by
  cases c with
  | true => exact sizes_plain (h rfl)
  | false => exact sizes_zero

/-- An entry, and then the size of what it is for. -/
theorem sizes_item {contentType : NetworkMessageOffsetType} {source : OffsetSource} {bs : Bytes}
    {u : Sizing} (hkind : contentType.forSubscriber = false) (hu : Sizes [.plain bs] u) :
    Sizes [⟨some (contentType, source), bs⟩] (recordOffset contentType source >>= fun _ => u) := by
  intro s
  have hrun : recordOffset contentType source s = .done ()
      { s with offsetBuffer := s.offsetBuffer.map fun b => b.push s.size contentType source } := rfl
  rw [bind_done hrun, hu]
  obtain ⟨size, offsetBuffer⟩ := s
  cases offsetBuffer <;>
    simp [Sizer.advance, marks, Piece.mark, NetworkMessageOffsetBuffer.push, hkind]

/-- The same for an entry that only subscribers get. -/
theorem sizes_rtItem {contentType : NetworkMessageOffsetType} {bs : Bytes} {u : Sizing}
    (hkind : contentType.forSubscriber = true) (hu : Sizes [.plain bs] u) :
    Sizes [⟨some (contentType, .none), bs⟩] (recordRTOffset contentType >>= fun _ => u) := by
  intro s
  have hrun : recordRTOffset contentType s = .done ()
      { s with offsetBuffer := s.offsetBuffer.map fun b =>
          if b.rtSubscriberEnabled then b.push s.size contentType .none else b } := rfl
  rw [bind_done hrun, hu]
  obtain ⟨size, offsetBuffer⟩ := s
  cases offsetBuffer with
  | none => simp [Sizer.advance]
  | some b =>
    cases hrt : b.rtSubscriberEnabled <;>
      simp [Sizer.advance, marks, Piece.mark, NetworkMessageOffsetBuffer.push, hkind, hrt]

/-- A loop over the elements of an array, which go over pieces of their own. -/
theorem sizes_loop {α : Type} {piece : Nat → α → List Piece} {f : Nat → α → Sizing}
    {xs : List α} (h : ∀ i, ∀ x ∈ xs, Sizes (piece i x) (f i x)) (ys : List α) :
    Sizes ((xs.zipIdx ys.length).flatMap fun p => piece p.2 p.1)
      (loopFrom (fun i => sizeElement (ys ++ xs) (f i) i) ys.length xs.length) := by
  induction xs generalizing ys with
  | nil => exact sizes_nil
  | cons x xs ih =>
    have ih := ih (fun i y hy => h i y (List.mem_cons_of_mem _ hy)) (ys ++ [x])
    rw [List.append_assoc, List.singleton_append, List.length_append,
      List.length_singleton] at ih
    have hx : sizeElement (ys ++ x :: xs) (f ys.length) ys.length = f ys.length x := by
      unfold sizeElement
      simp
    rw [List.zipIdx_cons, List.flatMap_cons, List.length_cons, loopFrom_succ, hx]
    exact (h _ x (List.mem_cons_self ..)).bind ih

/-- A loop over the elements, each of which may record entries of its own. -/
theorem sizes_forUpTo {α : Type} {piece : Nat → α → List Piece} {f : Nat → α → Sizing}
    {xs : List α} {n : Nat} (hn : xs.length = n) (h : ∀ i, ∀ x ∈ xs, Sizes (piece i x) (f i x)) :
    Sizes (xs.zipIdx.flatMap fun p => piece p.2 p.1)
      (forUpTo n fun i => sizeElement xs (f i) i) := by
  subst hn
  exact sizes_loop h []

end Sizes

/-! ## Encoder and size calculation -/

/-- The encoder `x` writes the pieces, and the calculation `u` goes over them. -/
structure Lays (pieces : List Piece) (ok : Prop) (x : Enc) (u : Sizing) : Prop where
  commits : Commits (pieceBytes pieces) ok x
  sizes : Sizes pieces u

section Lays

variable {as bs pieces : List Piece} {a b ok : Prop} {x y : Enc} {u v : Sizing}

theorem Lays.congr (h : Lays pieces a x u) (hab : a ↔ b) : Lays pieces b x u :=
  ⟨h.commits.congr rfl hab, h.sizes⟩

theorem lays_nil : Lays [] True (pure ()) (pure ()) := ⟨commits_pure, sizes_nil⟩

/-- Encoder and size calculation go through the same parts in the same order. -/
theorem Lays.bind (hx : Lays as a x u) (hy : Lays bs b y v) :
    Lays (as ++ bs) (a ∧ b) (x >>= fun _ => y) (u >>= fun _ => v) :=
  ⟨(hx.commits.bind hy.commits).congr (pieceBytes_append _ _).symm Iff.rfl,
    hx.sizes.bind hy.sizes⟩

/-- A section that may be missing is asked for nothing where it is. -/
theorem Lays.ite {c : Bool} (h : Lays pieces ok x u) :
    Lays (if c then pieces else []) (c = true → ok) (encodeIf c x) (sizingIf c u) :=
  ⟨h.commits.ite.congr (pieceBytes_ite _ _).symm Iff.rfl, Sizes.ite fun _ => h.sizes⟩

/-- Bytes that are written and counted. -/
theorem lays_plain {bs : Bytes} {n : Nat} (h : Commits bs ok x) (hn : bs.length = n) :
    Lays [.plain bs] ok x (addSize n) :=
  ⟨h.congr (List.append_nil _).symm Iff.rfl, sizes_plain hn⟩

theorem lays_plainIf {c : Bool} {bs : Bytes} {n : Nat} (h : Commits bs ok x)
    (hn : bs.length = n) :
    Lays (if c then [.plain bs] else []) (c = true → ok) (encodeIf c x) (addSizeIf c n) :=
  ⟨h.ite.congr (by cases c <;> simp) Iff.rfl, sizes_plainIf fun _ => hn⟩

/-- What the publisher updates: the entry is recorded before the size is added. -/
theorem lays_item {contentType : NetworkMessageOffsetType} {source : OffsetSource} {bs : Bytes}
    (hkind : contentType.forSubscriber = false) (h : Lays [.plain bs] ok x u) :
    Lays [⟨some (contentType, source), bs⟩] ok x (recordOffset contentType source >>= fun _ => u) :=
  ⟨h.commits, sizes_item hkind h.sizes⟩

/-- What only the subscriber reads. -/
theorem lays_rtItem {contentType : NetworkMessageOffsetType} {bs : Bytes}
    (hkind : contentType.forSubscriber = true) (h : Lays [.plain bs] ok x u) :
    Lays [⟨some (contentType, .none), bs⟩] ok x (recordRTOffset contentType >>= fun _ => u) :=
  ⟨h.commits, sizes_rtItem hkind h.sizes⟩

end Lays

end OpenPubSub
