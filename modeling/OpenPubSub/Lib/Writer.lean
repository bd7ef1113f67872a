import OpenPubSub.Lib.Bytes
import OpenPubSub.Lib.Routine

/-!
# Routines that write into a buffer

A buffer of fixed size and a position in it. Writers check for room before they write,
and what they leave behind when there is none differs: a primitive writes nothing, a
sequence of primitives stops in the middle, a copy of many bytes fills what room there
is.

- `Plan` is what is to be written, piece by piece: as a whole or not at all, as much as
  fits, or nothing because it is refused. `Plan.produce` is what a plan puts out into a
  given room.
- `Emits K head p x`: the routine `x` writes `head` and then carries out `p`. If `head`
  does not fit, it fails with the status `limits` and may leave anything behind its old
  position; otherwise what it puts out is exactly `produce`, also when it fails. One
  rule for each way to combine routines.
- `Commits bs ok x` forgets what a failing routine leaves behind, and `Drops ps x` is for
  routines whose status nobody reads.
-/

/-- A buffer and the position of the next byte. -/
structure Buffer where
  bytes : List UInt8
  pos : Nat
  deriving DecidableEq

namespace Buffer

/-- The bytes left. -/
def room (s : Buffer) : Nat := s.bytes.length - s.pos

/-- Write `bs` and advance. -/
def write (s : Buffer) (bs : List UInt8) : Buffer := ⟨splice s.bytes s.pos bs, s.pos + bs.length⟩

/-- The position is inside the buffer. -/
def Valid (s : Buffer) : Prop := s.pos ≤ s.bytes.length

/-- `t` is `s` after `out` was put out; what follows is unspecified. -/
structure Extends (s : Buffer) (out : List UInt8) (t : Buffer) : Prop where
  length : t.bytes.length = s.bytes.length
  pos : t.pos = s.pos + out.length
  valid : t.Valid
  bytes : t.bytes.take t.pos = s.bytes.take s.pos ++ out

/-- `t` comes after `s`, and what was written before `s` is still there. -/
structure Keeps (s t : Buffer) : Prop where
  length : t.bytes.length = s.bytes.length
  pos : s.pos ≤ t.pos
  valid : t.Valid
  bytes : t.bytes.take s.pos = s.bytes.take s.pos

variable {s t u : Buffer} {as bs : List UInt8}

@[simp] theorem write_nil (s : Buffer) : s.write [] = s := by
  simp [write, splice_nil]

/-- In a row. -/
theorem write_write (h : (as ++ bs).length ≤ s.room) (hs : s.Valid) :
    (s.write as).write bs = s.write (as ++ bs) := by
  unfold room at h
  unfold Valid at hs
  have hle : s.pos + (as ++ bs).length ≤ s.bytes.length := by omega
  simp only [write, splice_splice hle, List.length_append, Nat.add_assoc]

/-- The buffer is as long as before. -/
theorem write_bytes_length (h : bs.length ≤ s.room) (hs : s.Valid) :
    (s.write bs).bytes.length = s.bytes.length := by
  unfold room at h
  unfold Valid at hs
  exact splice_length (by omega)

/-- What was written is no longer free. -/
theorem write_room (h : bs.length ≤ s.room) (hs : s.Valid) :
    (s.write bs).room = s.room - bs.length := by
  have hlen := write_bytes_length h hs
  unfold room at *
  rw [hlen]
  show s.bytes.length - (s.pos + bs.length) = _
  omega

/-- What fits leaves the position inside of the buffer. -/
theorem write_valid (h : bs.length ≤ s.room) (hs : s.Valid) : (s.write bs).Valid := by
  have hlen := write_bytes_length h hs
  unfold Valid room at *
  show s.pos + bs.length ≤ (s.write bs).bytes.length
  omega

/-- What fits is appended. -/
theorem write_extends (h : bs.length ≤ s.room) (hs : s.Valid) : s.Extends bs (s.write bs) := by
  refine ⟨write_bytes_length h hs, rfl, write_valid h hs, ?_⟩
  unfold room at h
  unfold Valid at hs
  exact splice_take (by omega)

/-- A buffer that is overwritten as a whole. -/
theorem write_all {buffer : List UInt8} (h : buffer.length = bs.length) :
    (⟨buffer, 0⟩ : Buffer).write bs = ⟨bs, bs.length⟩ := by
  simp [write, splice, ← h]

/-- What was written is there. -/
theorem write_at (hs : s.Valid) : At (s.write bs).bytes s.pos bs := splice_at hs

namespace Extends

theorem refl (hs : s.Valid) : s.Extends [] s := ⟨rfl, rfl, hs, (List.append_nil _).symm⟩

theorem trans (h₁ : s.Extends as t) (h₂ : t.Extends bs u) : s.Extends (as ++ bs) u := by
  refine ⟨h₂.length.trans h₁.length, ?_, h₂.valid, ?_⟩
  · rw [h₂.pos, h₁.pos, List.length_append, Nat.add_assoc]
  · rw [h₂.bytes, h₁.bytes, List.append_assoc]

theorem room (h : s.Extends as t) : t.room = s.room - as.length := by
  unfold Buffer.room
  rw [h.length, h.pos]
  omega

/-- What was written before stays. -/
theorem keeps (h : s.Extends as t) : s.Keeps t := by
  refine ⟨h.length, by rw [h.pos]; omega, h.valid, ?_⟩
  have htake : t.bytes.take s.pos = (t.bytes.take t.pos).take s.pos := by
    rw [List.take_take, Nat.min_eq_left (by rw [h.pos]; omega)]
  rw [htake, h.bytes, List.take_append_of_le_length (by
    have := h.valid
    have := h.pos
    have := h.length
    unfold Valid at *
    rw [List.length_take]
    omega), List.take_take, Nat.min_self]

end Extends

namespace Keeps

theorem refl (hs : s.Valid) : s.Keeps s := ⟨rfl, Nat.le_refl _, hs, rfl⟩

theorem trans (h₁ : s.Keeps t) (h₂ : t.Keeps u) : s.Keeps u := by
  refine ⟨h₂.length.trans h₁.length, Nat.le_trans h₁.pos h₂.pos, h₂.valid, ?_⟩
  have htake : u.bytes.take s.pos = (u.bytes.take t.pos).take s.pos := by
    rw [List.take_take, Nat.min_eq_left h₁.pos]
  rw [htake, h₂.bytes, List.take_take, Nat.min_eq_left h₁.pos, h₁.bytes]

/-- Going back to the old position. -/
theorem goBack (h : s.Keeps t) (hs : s.Valid) : s.Extends [] { t with pos := s.pos } := by
  refine ⟨h.length, rfl, ?_, ?_⟩
  · unfold Valid at *
    rw [h.length]
    exact hs
  · rw [List.append_nil]
    exact h.bytes

end Keeps

end Buffer

/-! ## Plans -/

/-- What is to be written: bytes that are `cut` off where the room ends, or written as a
whole or not at all; bytes that are refused; two plans, where the second one is given up
if the first fails (`seq`), or carried out all the same (`both`). -/
inductive Plan where
  | chunk (cut : Bool) (bs : List UInt8)
  | refuse (bs : List UInt8)
  | seq (p q : Plan)
  | both (p q : Plan)

namespace Plan

/-- Nothing to write. -/
abbrev empty : Plan := chunk false []

/-- Bytes written as a whole or not at all. -/
abbrev whole (bs : List UInt8) : Plan := chunk false bs

/-- As many bytes as fit. -/
abbrev part (bs : List UInt8) : Plan := chunk true bs

/-- One plan after the other, up to the first that fails. -/
def all : List Plan → Plan
  | [] => empty
  | p :: ps => seq p (all ps)

/-- The bytes of a plan. -/
def bytes : Plan → List UInt8
  | chunk _ bs => bs
  | refuse bs => bs
  | seq p q => p.bytes ++ q.bytes
  | both p q => p.bytes ++ q.bytes

/-- Nothing in the plan is refused. -/
def ok : Plan → Bool
  | chunk _ _ => true
  | refuse _ => false
  | seq p q => p.ok && q.ok
  | both p q => p.ok && q.ok

/-- What a plan puts out into `room` bytes, and whether it comes to its end. -/
def produce : Plan → Nat → List UInt8 × Bool
  | chunk cut bs, room =>
    if bs.length ≤ room then (bs, true) else (if cut then bs.take room else [], false)
  | refuse _, _ => ([], false)
  | seq p q, room =>
    if (p.produce room).2 then
      ((p.produce room).1 ++ (q.produce (room - (p.produce room).1.length)).1,
        (q.produce (room - (p.produce room).1.length)).2)
    else p.produce room
  | both p q, room =>
    ((p.produce room).1 ++ (q.produce (room - (p.produce room).1.length)).1,
      (p.produce room).2 && (q.produce (room - (p.produce room).1.length)).2)

variable {p q : Plan} {room : Nat} {bs out : List UInt8} {cut done : Bool}

@[simp] theorem bytes_chunk : (chunk cut bs).bytes = bs := rfl

@[simp] theorem bytes_refuse : (refuse bs).bytes = bs := rfl

@[simp] theorem bytes_seq : (seq p q).bytes = p.bytes ++ q.bytes := rfl

@[simp] theorem bytes_both : (both p q).bytes = p.bytes ++ q.bytes := rfl

@[simp] theorem bytes_all (ps : List Plan) : (all ps).bytes = ps.flatMap bytes := by
  induction ps with
  | nil => rfl
  | cons p ps ih => simp only [all, bytes_seq, ih, List.flatMap_cons]

@[simp] theorem ok_chunk : (chunk cut bs).ok = true := rfl

@[simp] theorem ok_refuse : (refuse bs).ok = false := rfl

@[simp] theorem ok_seq : (seq p q).ok = (p.ok && q.ok) := rfl

@[simp] theorem ok_both : (both p q).ok = (p.ok && q.ok) := rfl

theorem ok_all (ps : List Plan) : (all ps).ok = true ↔ ∀ p ∈ ps, p.ok = true := by
  induction ps with
  | nil => simp [all]
  | cons p ps ih => simp [all, ih]

/-- A piece that fits. -/
theorem produce_fits (h : bs.length ≤ room) : (chunk cut bs).produce room = (bs, true) :=
  if_pos h

/-- A piece that does not fit is cut off, or left out as a whole. -/
theorem produce_short (h : ¬ bs.length ≤ room) :
    (chunk cut bs).produce room = (if cut then bs.take room else [], false) :=
  if_neg h

@[simp] theorem produce_empty : empty.produce room = ([], true) :=
  produce_fits (Nat.zero_le room)

/-- The first goes out, and the second into the rest of the room. -/
theorem produce_seq_done (h : p.produce room = (out, true)) :
    (seq p q).produce room =
      (out ++ (q.produce (room - out.length)).1, (q.produce (room - out.length)).2) := by
  simp only [produce, h, if_true]

/-- The first stops, and the second is not reached. -/
theorem produce_seq_stop (h : p.produce room = (out, false)) :
    (seq p q).produce room = (out, false) := by
  simp only [produce, h, Bool.false_eq_true, if_false]

theorem produce_seq_empty (p : Plan) (room : Nat) :
    (seq p empty).produce room = p.produce room := by
  cases hp : p.produce room with
  | mk out done =>
    cases done with
    | true => rw [produce_seq_done hp, produce_empty, List.append_nil]
    | false => exact produce_seq_stop hp

/-- The second goes out also where the first stopped. -/
theorem produce_both (h : p.produce room = (out, done)) :
    (both p q).produce room =
      (out ++ (q.produce (room - out.length)).1, done && (q.produce (room - out.length)).2) := by
  simp only [produce, h]

/-- Where the second of two plans comes to. -/
theorem produce_seq_eq (h : (seq p q).produce room = (out, done)) :
    (∃ out₁ out₂, p.produce room = (out₁, true) ∧ q.produce (room - out₁.length) = (out₂, done) ∧
      out = out₁ ++ out₂) ∨ p.produce room = (out, false) ∧ done = false := by
  cases hp : p.produce room with
  | mk out₁ done₁ =>
    cases done₁ with
    | true =>
      rw [produce_seq_done hp] at h
      cases h
      exact .inl ⟨out₁, _, rfl, rfl, rfl⟩
    | false =>
      rw [produce_seq_stop hp] at h
      cases h
      exact .inr ⟨rfl, rfl⟩

/-- Nothing is put out beyond the room. -/
theorem produce_length_le (p : Plan) (room : Nat) : (p.produce room).1.length ≤ room := by
  induction p generalizing room with
  | chunk cut bs =>
    by_cases h : bs.length ≤ room
    · rw [produce_fits h]
      exact h
    · rw [produce_short h]
      cases cut with
      | true => exact Nat.le_trans (by simp) (Nat.min_le_left room bs.length)
      | false => exact Nat.zero_le _
  | refuse bs => exact Nat.zero_le _
  -- the second part gets the room that the first one leaves
  | seq p q ihp ihq =>
    have hp := ihp room
    have hq := ihq (room - (p.produce room).1.length)
    unfold produce
    split
    · rw [List.length_append]
      omega
    · exact hp
  | both p q ihp ihq =>
    have hp := ihp room
    have hq := ihq (room - (p.produce room).1.length)
    unfold produce
    rw [List.length_append]
    omega

/-- No more goes out than there is room. -/
theorem length_le_of_produce (h : p.produce room = (out, done)) : out.length ≤ room := by
  have hle := produce_length_le p room
  rwa [h] at hle

/-- A plan comes to its end if and only if it fits and nothing is refused. Then all of it
is put out. -/
theorem produce_eq_true_iff (p : Plan) (room : Nat) (out : List UInt8) :
    p.produce room = (out, true) ↔ out = p.bytes ∧ p.bytes.length ≤ room ∧ p.ok = true := by
  induction p generalizing room out with
  | chunk cut bs =>
    by_cases h : bs.length ≤ room
    · rw [produce_fits h]
      simp [h, eq_comm]
    · rw [produce_short h]
      simp [h]
  | refuse bs => simp [produce]
  | seq p q ihp ihq =>
    rw [bytes_seq, List.length_append, ok_seq, Bool.and_eq_true]
    constructor
    · intro h
      rcases produce_seq_eq h with ⟨out₁, out₂, h₁, h₂, rfl⟩ | ⟨-, hdone⟩
      · obtain ⟨rfl, hlen₁, hok₁⟩ := (ihp _ _).mp h₁
        obtain ⟨rfl, hlen₂, hok₂⟩ := (ihq _ _).mp h₂
        exact ⟨rfl, by omega, hok₁, hok₂⟩
      · cases hdone
    · rintro ⟨rfl, hlen, hok₁, hok₂⟩
      have h₁ : p.produce room = (p.bytes, true) := (ihp _ _).mpr ⟨rfl, by omega, hok₁⟩
      have h₂ : q.produce (room - p.bytes.length) = (q.bytes, true) :=
        (ihq _ _).mpr ⟨rfl, by omega, hok₂⟩
      rw [produce_seq_done h₁, h₂]
  -- unlike in a sequence, the second part is run in any case, and both must be done
  | both p q ihp ihq =>
    rw [bytes_both, List.length_append, ok_both, Bool.and_eq_true]
    constructor
    · intro h
      cases hp : p.produce room with
      | mk out₁ done₁ =>
        rw [produce_both hp, Prod.mk.injEq, Bool.and_eq_true] at h
        obtain ⟨rfl, rfl, hq⟩ := h
        obtain ⟨rfl, hlen₁, hok₁⟩ := (ihp _ _).mp hp
        obtain ⟨hbytes, hlen₂, hok₂⟩ := (ihq _ _).mp (Prod.ext rfl hq)
        exact ⟨congrArg (p.bytes ++ ·) hbytes, by omega, hok₁, hok₂⟩
    · rintro ⟨rfl, hlen, hok₁, hok₂⟩
      have h₁ : p.produce room = (p.bytes, true) := (ihp _ _).mpr ⟨rfl, by omega, hok₁⟩
      have h₂ : q.produce (room - p.bytes.length) = (q.bytes, true) :=
        (ihq _ _).mpr ⟨rfl, by omega, hok₂⟩
      rw [produce_both h₁, h₂]
      rfl

/-- With room for all of it a plan that is not refused goes out. -/
theorem produce_eq_of_ok (hlen : p.bytes.length ≤ room) (hok : p.ok = true) :
    p.produce room = (p.bytes, true) :=
  (produce_eq_true_iff p room _).mpr ⟨rfl, hlen, hok⟩

end Plan

/-! ## Writers -/

namespace Writer

open Routine

variable {ε : Type}

/-- Check for room, write `bs`, advance. -/
def store (limits : ε) (bs : List UInt8) : Routine ε Buffer Unit := fun s =>
  if s.pos + bs.length ≤ s.bytes.length then .done () (s.write bs) else .fail limits s

/-- Write as much of `bs` as there is room for. -/
def fill (refused : ε) (bs : List UInt8) : Routine ε Buffer Unit := fun s =>
  if s.pos + bs.length ≤ s.bytes.length then .done () (s.write bs)
  else .fail refused (s.write (bs.take s.room))

/-- On the status `limits` go back to the old position, and fail with `refused`. -/
def goBack [DecidableEq ε] (limits refused : ε) (x : Routine ε Buffer Unit) :
    Routine ε Buffer Unit :=
  onFail x fun s e t => if e = limits then (refused, { t with pos := s.pos }) else (e, t)

/-- One call for each element. -/
def each {α : Type} (f : α → Routine ε Buffer Unit) : List α → Routine ε Buffer Unit
  | [] => pure ()
  | x :: xs => do
    f x
    each f xs

/-- `f(x[i])`, where there may be no element `i`. -/
def element {α : Type} (xs : List α) (f : α → Routine ε Buffer Unit) (i : Nat) :
    Routine ε Buffer Unit :=
  match xs[i]? with
  | some x => f x
  | none => fault

theorem element_append {α : Type} {f : α → Routine ε Buffer Unit} (ys : List α) (x : α)
    (xs : List α) : element (ys ++ x :: xs) f ys.length = f x := by
  unfold element
  simp

/-- A loop that looks its elements up goes through the list. -/
theorem loopFrom_element {α : Type} {f : α → Routine ε Buffer Unit} (ys : List α) :
    ∀ xs : List α, loopFrom (element (ys ++ xs) f) ys.length xs.length = each f xs
  | [] => rfl
  | x :: xs => by
    have ih := loopFrom_element (f := f) (ys ++ [x]) xs
    rw [List.append_assoc, List.singleton_append, List.length_append,
      List.length_singleton] at ih
    rw [List.length_cons, loopFrom_succ, ih, element_append]
    rfl

/-- The loop over the indices of an array. -/
theorem forUpTo_element {α : Type} (f : α → Routine ε Buffer Unit) (xs : List α) :
    forUpTo xs.length (element xs f) = each f xs :=
  loopFrom_element [] xs

/-- `for(i = 0; i < n; i++) ret |= body(i);` -/
def accumFrom [OrOp ε] (body : Nat → Routine ε Buffer Unit) : Nat → Nat → Routine ε Buffer Unit
  | _, 0 => pure ()
  | i, n + 1 => accum (body i) fun _ => accumFrom body (i + 1) n

/-! ## What writers put out -/

/-- The statuses of a family of writers: `limits`, which callers go back on, and the hard
ones, which they pass on. Accumulating does not lead from one kind to the other. -/
structure Statuses (ε : Type) [OrOp ε] where
  limits : ε
  hard : ε → Prop
  limits_or : limits ||| limits = limits
  hard_or : ∀ {a b}, hard a → hard b → hard (a ||| b)

/-- `x` writes `head` and then carries out the plan `p`. -/
structure Emits [OrOp ε] (K : Statuses ε) (head : List UInt8) (p : Plan)
    (x : Routine ε Buffer Unit) : Prop where
  done : ∀ {s : Buffer} {out : List UInt8}, s.Valid → head.length ≤ s.room →
    p.produce (s.room - head.length) = (out, true) → x s = .done () (s.write (head ++ out))
  stop : ∀ {s : Buffer} {out : List UInt8}, s.Valid → head.length ≤ s.room →
    p.produce (s.room - head.length) = (out, false) →
      ∃ e t, x s = .fail e t ∧ K.hard e ∧ s.Extends (head ++ out) t
  short : ∀ {s : Buffer}, s.Valid → ¬ head.length ≤ s.room →
    ∃ t, x s = .fail K.limits t ∧ s.Keeps t

/-- `x` writes `bs` if it can be written (`ok`) and fits, and fails otherwise. -/
def Commits (bs : List UInt8) (ok : Prop) (x : Routine ε Buffer Unit) : Prop :=
  ∀ s : Buffer, s.Valid →
    (ok → bs.length ≤ s.room → x s = .done () (s.write bs)) ∧
    (¬ (ok ∧ bs.length ≤ s.room) → ∃ e t, x s = .fail e t ∧ s.Keeps t)

/-! ## Rules for `Emits` -/

section Emits

variable [OrOp ε] {K : Statuses ε} {refused : ε} {as bs : List UInt8} {p q : Plan}
  {x y : Routine ε Buffer Unit}

/-- Nothing is written. -/
theorem emits_pure : Emits K [] .empty (pure () : Routine ε Buffer Unit) := by
  refine ⟨?_, ?_, ?_⟩
  · intro s out _ _ hout
    rw [Plan.produce_empty] at hout
    cases hout
    rw [List.append_nil, Buffer.write_nil]
    rfl
  · intro s out _ _ hout
    rw [Plan.produce_empty] at hout
    cases hout
  · intro s _ h
    exact absurd (Nat.zero_le _) h

/-- A value of fixed size is in the head. -/
theorem emits_store : Emits K bs .empty (store K.limits bs) := by
  refine ⟨?_, ?_, ?_⟩
  · intro s out hs h hout
    rw [Plan.produce_empty] at hout
    cases hout
    unfold Buffer.Valid Buffer.room at *
    rw [List.append_nil]
    exact if_pos (by omega)
  · intro s out _ _ hout
    rw [Plan.produce_empty] at hout
    cases hout
  · intro s hs h
    refine ⟨s, if_neg ?_, .refl hs⟩
    unfold Buffer.Valid Buffer.room at *
    omega

/-- As much as there is room for goes out. -/
theorem emits_fill (h : K.hard refused) : Emits K [] (.part bs) (fill refused bs) := by
  have hroom : ∀ s : Buffer, s.Valid →
      (bs.length ≤ s.room - 0 ↔ s.pos + bs.length ≤ s.bytes.length) := by
    intro s hs
    unfold Buffer.Valid Buffer.room at *
    omega
  refine ⟨?_, ?_, ?_⟩
  · intro s out hs _ hout
    by_cases hfit : bs.length ≤ s.room - 0
    · rw [List.length_nil, Plan.produce_fits hfit] at hout
      cases hout
      exact if_pos ((hroom s hs).mp hfit)
    · rw [List.length_nil, Plan.produce_short hfit] at hout
      cases hout
  · intro s out hs _ hout
    by_cases hfit : bs.length ≤ s.room - 0
    · rw [List.length_nil, Plan.produce_fits hfit] at hout
      cases hout
    · rw [List.length_nil, Plan.produce_short hfit] at hout
      cases hout
      -- a part of the bytes is put out, as far as there is room
      refine ⟨refused, _, if_neg fun hc => hfit ((hroom s hs).mpr hc), h, ?_⟩
      refine Buffer.write_extends ?_ hs
      rw [List.nil_append, if_pos rfl, List.length_take]
      exact Nat.min_le_left _ _
  · intro s _ hs
    exact absurd (Nat.zero_le _) hs

/-- A refusal, whatever could have been written. -/
theorem emits_fail {e : ε} (h : K.hard e) (bs : List UInt8) :
    Emits K [] (.refuse bs) (fail e : Routine ε Buffer Unit) := by
  refine ⟨?_, ?_, ?_⟩
  · rintro s _ - - ⟨⟩
  · rintro s _ hs - ⟨⟩
    exact ⟨e, s, rfl, h, .refl hs⟩
  · intro s _ hs
    exact absurd (Nat.zero_le _) hs

/-- A head that is all there is to write. -/
theorem Emits.head_done (h : Emits K as .empty x) {s : Buffer} (hs : s.Valid)
    (hlen : as.length ≤ s.room) : x s = .done () (s.write as) := by
  rw [h.done hs hlen Plan.produce_empty, List.append_nil]

/-- A plan without a head that goes out. -/
theorem Emits.run (h : Emits K [] p x) {s : Buffer} {out : List UInt8} (hs : s.Valid)
    (hout : p.produce s.room = (out, true)) : x s = .done () (s.write out) :=
  h.done hs (Nat.zero_le _) hout

/-- A plan without a head that stops. -/
theorem Emits.stops (h : Emits K [] p x) {s : Buffer} {out : List UInt8} (hs : s.Valid)
    (hout : p.produce s.room = (out, false)) :
    ∃ e t, x s = .fail e t ∧ K.hard e ∧ s.Extends out t :=
  h.stop hs (Nat.zero_le _) hout

/-- A head before a writer. -/
theorem Emits.bind_head (hx : Emits K as .empty x) (hy : Emits K bs p y) :
    Emits K (as ++ bs) p (x >>= fun _ => y) := by
  have hrest : ∀ {s : Buffer}, s.Valid → (as ++ bs).length ≤ s.room →
      as.length ≤ s.room ∧ bs.length ≤ (s.write as).room ∧
        (s.write as).room - bs.length = s.room - (as ++ bs).length := by
    intro s hs h
    rw [List.length_append] at *
    rw [Buffer.write_room (by omega) hs]
    omega
  refine ⟨?_, ?_, ?_⟩
  · intro s out hs h hout
    obtain ⟨has, hbs, hroom⟩ := hrest hs h
    have hfit : (as ++ (bs ++ out)).length ≤ s.room := by
      have hle := Plan.length_le_of_produce hout
      simp only [List.length_append] at *
      omega
    rw [bind_done (hx.head_done hs has), hy.done (Buffer.write_valid has hs) hbs
      (by rw [hroom, hout]), Buffer.write_write hfit hs, List.append_assoc]
  · intro s out hs h hout
    obtain ⟨has, hbs, hroom⟩ := hrest hs h
    obtain ⟨e, t, hrun, he, ht⟩ := hy.stop (Buffer.write_valid has hs) hbs (by rw [hroom, hout])
    refine ⟨e, t, by rw [bind_done (hx.head_done hs has), hrun], he, ?_⟩
    rw [List.append_assoc]
    exact (Buffer.write_extends has hs).trans ht
  · intro s hs h
    -- the room is short for the first head, or for the second one behind it
    by_cases has : as.length ≤ s.room
    · have hbs : ¬ bs.length ≤ (s.write as).room := by
        rw [List.length_append] at h
        rw [Buffer.write_room has hs]
        omega
      obtain ⟨t, hrun, ht⟩ := hy.short (Buffer.write_valid has hs) hbs
      exact ⟨t, by rw [bind_done (hx.head_done hs has), hrun],
        (Buffer.write_extends has hs).keeps.trans ht⟩
    · obtain ⟨t, hrun, ht⟩ := hx.short hs has
      exact ⟨t, bind_fail hrun, ht⟩

/-- A writer without a head after another one. -/
theorem Emits.bind (hx : Emits K as p x) (hy : Emits K [] q y) :
    Emits K as (.seq p q) (x >>= fun _ => y) := by
  have hlen : ∀ {s : Buffer} {out : List UInt8} {done : Bool}, as.length ≤ s.room →
      p.produce (s.room - as.length) = (out, done) → (as ++ out).length ≤ s.room := by
    intro s out done h hout
    have hle := Plan.length_le_of_produce hout
    rw [List.length_append]
    omega
  have hroom : ∀ {s : Buffer} {out : List UInt8}, s.Valid → (as ++ out).length ≤ s.room →
      (s.write (as ++ out)).room - ([] : List UInt8).length =
        s.room - as.length - out.length := by
    intro s out hs h
    rw [Buffer.write_room h hs, List.length_append, List.length_nil]
    omega
  refine ⟨?_, ?_, ?_⟩
  · intro s out hs h hout
    -- both parts are done, or the first one stops
    rcases Plan.produce_seq_eq hout with ⟨out₁, out₂, h₁, h₂, rfl⟩ | ⟨-, hd⟩
    · have hfit := hlen h h₁
      rw [bind_done (hx.done hs h h₁), hy.done (Buffer.write_valid hfit hs) (Nat.zero_le _)
        (by rw [hroom hs hfit, h₂]), List.nil_append, Buffer.write_write _ hs, List.append_assoc]
      have hle := Plan.length_le_of_produce h₂
      simp only [List.length_append] at *
      omega
    · cases hd
  · intro s out hs h hout
    rcases Plan.produce_seq_eq hout with ⟨out₁, out₂, h₁, h₂, rfl⟩ | ⟨h₁, -⟩
    · have hfit := hlen h h₁
      obtain ⟨e, t, hrun, he, ht⟩ := hy.stop (Buffer.write_valid hfit hs) (Nat.zero_le _)
        (by rw [hroom hs hfit, h₂])
      refine ⟨e, t, by rw [bind_done (hx.done hs h h₁), hrun], he, ?_⟩
      rw [← List.append_assoc]
      exact (Buffer.write_extends hfit hs).trans ht
    · obtain ⟨e, t, hrun, he, ht⟩ := hx.stop hs h h₁
      exact ⟨e, t, bind_fail hrun, he, ht⟩
  · intro s hs h
    obtain ⟨t, hrun, ht⟩ := hx.short hs h
    exact ⟨t, bind_fail hrun, ht⟩

/-- `ret |= x(); ret |= y();` for two heads. After a failing `x` it does not matter what
`y` writes. -/
theorem Emits.accum_head (hx : Emits K as .empty x) (hy : Emits K bs .empty y) :
    Emits K (as ++ bs) .empty (accum x fun _ => y) := by
  refine ⟨?_, ?_, ?_⟩
  · intro s out hs h hout
    rw [Plan.produce_empty] at hout
    cases hout
    have has : as.length ≤ s.room := by
      rw [List.length_append] at h
      omega
    have hbs : bs.length ≤ (s.write as).room := by
      rw [List.length_append] at h
      rw [Buffer.write_room has hs]
      omega
    rw [accum_done (hx.head_done hs has), hy.head_done (Buffer.write_valid has hs) hbs,
      List.append_nil, Buffer.write_write h hs]
  · intro s out _ _ hout
    rw [Plan.produce_empty] at hout
    cases hout
  · intro s hs h
    by_cases has : as.length ≤ s.room
    · have hbs : ¬ bs.length ≤ (s.write as).room := by
        rw [List.length_append] at h
        rw [Buffer.write_room has hs]
        omega
      obtain ⟨t, hrun, ht⟩ := hy.short (Buffer.write_valid has hs) hbs
      exact ⟨t, by rw [accum_done (hx.head_done hs has), hrun],
        (Buffer.write_extends has hs).keeps.trans ht⟩
    · obtain ⟨t, hrun, ht⟩ := hx.short hs has
      -- the second head is tried where the first one has failed, and may fit there
      have hafter : accum x (fun _ => y) s = (y t).after K.limits := accumGuard_fail hrun
      rw [hafter]
      by_cases hbs : bs.length ≤ t.room
      · rw [hy.head_done ht.valid hbs]
        exact ⟨_, rfl, ht.trans (Buffer.write_extends hbs ht.valid).keeps⟩
      · obtain ⟨u, hrun', hu⟩ := hy.short ht.valid hbs
        rw [hrun']
        refine ⟨u, ?_, ht.trans hu⟩
        show Outcome.fail (K.limits ||| K.limits) u = _
        rw [K.limits_or]

/-- `ret |= x(); ret |= y();` for two writers without a head. -/
theorem Emits.accum (hx : Emits K [] p x) (hy : Emits K [] q y) :
    Emits K [] (.both p q) (Routine.accum x fun _ => y) := by
  refine ⟨?_, ?_, ?_⟩
  · intro s out hs _ hout
    show _ = Outcome.done () (s.write out)
    change (Plan.both p q).produce s.room = _ at hout
    cases hp : p.produce s.room with
    | mk out₁ done₁ =>
      rw [Plan.produce_both hp, Prod.mk.injEq, Bool.and_eq_true] at hout
      obtain ⟨rfl, rfl, hq⟩ := hout
      have hlen₁ := Plan.length_le_of_produce hp
      have hlen₂ := q.produce_length_le (s.room - out₁.length)
      have hq' : q.produce (s.write out₁).room = ((q.produce (s.room - out₁.length)).1, true) := by
        rw [Buffer.write_room hlen₁ hs]
        exact Prod.ext rfl hq
      rw [accum_done (hx.run hs hp), hy.run (Buffer.write_valid hlen₁ hs) hq',
        Buffer.write_write (by rw [List.length_append]; omega) hs]
  · intro s out hs _ hout
    show ∃ e t, _ ∧ _ ∧ s.Extends out t
    change (Plan.both p q).produce s.room = _ at hout
    cases hp : p.produce s.room with
    | mk out₁ done₁ =>
      rw [Plan.produce_both hp, Prod.mk.injEq] at hout
      obtain ⟨rfl, hq⟩ := hout
      cases done₁ with
      | true =>
        have ht := Buffer.write_extends (Plan.length_le_of_produce hp) hs
        obtain ⟨e, u, hrun, he, hu⟩ := hy.stops ht.valid (Prod.ext rfl (by rwa [ht.room]))
        refine ⟨e, u, ?_, he, ht.trans ?_⟩
        · rw [accum_done (hx.run hs hp), hrun]
        · rwa [ht.room] at hu
      | false =>
        -- `y` goes on where `x` stopped
        obtain ⟨e, t, hrun, he, ht⟩ := hx.stops hs hp
        have hafter : Routine.accum x (fun _ => y) s = (y t).after e := accumGuard_fail hrun
        rw [hafter, ← ht.room]
        cases hqt : q.produce t.room with
        | mk out₂ done₂ =>
          cases done₂ with
          | true =>
            rw [hy.run ht.valid hqt]
            exact ⟨e, _, rfl, he,
              ht.trans (Buffer.write_extends (Plan.length_le_of_produce hqt) ht.valid)⟩
          | false =>
            obtain ⟨e', u, hrun', he', hu⟩ := hy.stops ht.valid hqt
            rw [hrun']
            exact ⟨e ||| e', u, rfl, K.hard_or he he', ht.trans hu⟩
  · intro s _ hs
    exact absurd (Nat.zero_le _) hs

/-- Whoever goes back on `limits` makes the head a part of the plan. -/
theorem Emits.goBack [DecidableEq ε] (hx : Emits K as p x) (hlimits : ¬ K.hard K.limits)
    (h : K.hard refused) : Emits K [] (.seq (.whole as) p) (goBack K.limits refused x) := by
  refine ⟨?_, ?_, ?_⟩
  · intro s out hs _ hout
    rcases Plan.produce_seq_eq hout with ⟨out₁, out₂, h₁, h₂, rfl⟩ | ⟨-, hd⟩
    · obtain ⟨rfl, has, -⟩ := (Plan.produce_eq_true_iff _ _ _).mp h₁
      unfold Writer.goBack onFail
      rw [hx.done hs has h₂]
      rfl
    · cases hd
  · intro s out hs _ hout
    unfold Writer.goBack onFail
    rcases Plan.produce_seq_eq hout with ⟨out₁, out₂, h₁, h₂, rfl⟩ | ⟨h₁, -⟩
    · obtain ⟨rfl, has, -⟩ := (Plan.produce_eq_true_iff _ _ _).mp h₁
      obtain ⟨e, t, hrun, he, ht⟩ := hx.stop hs has h₂
      have hne : e ≠ K.limits := fun hc => hlimits (hc ▸ he)
      refine ⟨e, t, ?_, he, ht⟩
      simp only [hrun, hne, if_false]
    · -- the plan stops at the head: it is short, and the position goes back
      by_cases has : as.length ≤ s.room - 0
      · rw [List.length_nil, Plan.produce_fits has] at h₁
        cases h₁
      · rw [List.length_nil, Plan.produce_short has] at h₁
        cases h₁
        obtain ⟨t, hrun, ht⟩ := hx.short hs has
        refine ⟨refused, { t with pos := s.pos }, ?_, h, ht.goBack hs⟩
        simp only [hrun, if_true]
  · intro s _ hs
    exact absurd (Nat.zero_le _) hs

/-- Another plan for the same bytes. -/
theorem Emits.congr (hx : Emits K as p x) (h : ∀ room, p.produce room = q.produce room) :
    Emits K as q x := by
  refine ⟨?_, ?_, hx.short⟩
  · intro s out hs has hout
    exact hx.done hs has (by rw [h, hout])
  · intro s out hs has hout
    exact hx.stop hs has (by rw [h, hout])

/-- The head is taken back where it does not fit. -/
theorem Emits.goBack_head [DecidableEq ε] (hx : Emits K as .empty x) (hlimits : ¬ K.hard K.limits)
    (h : K.hard refused) : Emits K [] (.whole as) (Writer.goBack K.limits refused x) :=
  (hx.goBack hlimits h).congr (Plan.produce_seq_empty _)

/-- `if(c) x();` -/
theorem Emits.ite {c : Bool} (hx : c = true → Emits K [] p x) :
    Emits K [] (if c then p else .empty) (if c then x else pure () : Routine ε Buffer Unit) := by
  cases c with
  | true => exact hx rfl
  | false => exact emits_pure

/-- One plan for each element. -/
theorem emits_each {α : Type} {f : α → Routine ε Buffer Unit} {plan : α → Plan} {xs : List α}
    (h : ∀ a ∈ xs, Emits K [] (plan a) (f a)) : Emits K [] (.all (xs.map plan)) (each f xs) := by
  induction xs with
  | nil => exact emits_pure
  | cons a xs ih =>
    obtain ⟨ha, hxs⟩ := List.forall_mem_cons.mp h
    exact ha.bind (ih hxs)

end Emits

/-! ## Rules for `Commits` -/

section Commits

variable {limits refused : ε} {as bs : List UInt8} {p : Plan} {a b : Prop}
  {x y : Routine ε Buffer Unit}

/-- A plan is carried out where it is not refused and there is room. -/
theorem Emits.commits [OrOp ε] {K : Statuses ε} (h : Emits K as p x) :
    Commits (as ++ p.bytes) (p.ok = true) x := by
  intro s hs
  rw [List.length_append]
  constructor
  · intro hok hlen
    exact h.done hs (by omega) (Plan.produce_eq_of_ok (by omega) hok)
  · intro hno
    by_cases has : as.length ≤ s.room
    · cases hout : p.produce (s.room - as.length) with
      | mk out done =>
        cases done with
        | true =>
          obtain ⟨-, hlen, hok⟩ := (Plan.produce_eq_true_iff _ _ _).mp hout
          exact absurd ⟨hok, by omega⟩ hno
        | false =>
          obtain ⟨e, t, hrun, -, ht⟩ := h.stop hs has hout
          exact ⟨e, t, hrun, ht.keeps⟩
    · obtain ⟨t, hrun, ht⟩ := h.short hs has
      exact ⟨K.limits, t, hrun, ht⟩

/-- The same bytes and the same condition, in other words. -/
theorem Commits.congr (h : Commits as a x) (hbs : as = bs) (hab : a ↔ b) : Commits bs b x := by
  subst hbs
  intro s hs
  rw [← hab]
  exact h s hs

/-- What fails anyway may be said to write anything. -/
theorem Commits.of_not (h : Commits as a x) (ha : ¬ a) (bs : List UInt8) : Commits bs False x := by
  intro s hs
  exact ⟨False.elim, fun _ => (h s hs).2 fun hc => ha hc.1⟩

/-- Nothing is written. -/
theorem commits_pure : Commits [] True (pure () : Routine ε Buffer Unit) := by
  intro s hs
  refine ⟨fun _ _ => ?_, fun h => absurd ⟨trivial, Nat.zero_le _⟩ h⟩
  rw [Buffer.write_nil]
  rfl

/-- A refusal never succeeds. -/
theorem commits_fail (e : ε) : Commits [] False (fail e : Routine ε Buffer Unit) := by
  intro s hs
  exact ⟨False.elim, fun _ => ⟨e, s, rfl, .refl hs⟩⟩

/-- In a row: both have to be accepted. -/
theorem Commits.bind (hx : Commits as a x) (hy : Commits bs b y) :
    Commits (as ++ bs) (a ∧ b) (x >>= fun _ => y) := by
  intro s hs
  rw [List.length_append]
  by_cases ha : a ∧ as.length ≤ s.room
  · have hrun := (hx s hs).1 ha.1 ha.2
    have hys := hy _ (Buffer.write_valid ha.2 hs)
    rw [Buffer.write_room ha.2 hs] at hys
    rw [bind_done hrun]
    constructor
    · rintro ⟨-, hb⟩ hlen
      rw [hys.1 hb (by omega), Buffer.write_write _ hs]
      rwa [List.length_append]
    · intro hno
      obtain ⟨e, t, hrun', ht⟩ := hys.2 fun hb => hno ⟨⟨ha.1, hb.1⟩, by omega⟩
      exact ⟨e, t, hrun', (Buffer.write_extends ha.2 hs).keeps.trans ht⟩
  · obtain ⟨e, t, hrun, ht⟩ := (hx s hs).2 ha
    constructor
    · rintro ⟨hok, -⟩ hlen
      exact absurd ⟨hok, by omega⟩ ha
    · intro _
      exact ⟨e, t, bind_fail hrun, ht⟩

/-- `ret |= x(); ret |= y();` -/
theorem Commits.accum [OrOp ε] (hx : Commits as a x) (hy : Commits bs b y) :
    Commits (as ++ bs) (a ∧ b) (accum x fun _ => y) := by
  intro s hs
  rw [List.length_append]
  by_cases ha : a ∧ as.length ≤ s.room
  · have hrun := (hx s hs).1 ha.1 ha.2
    have hys := hy _ (Buffer.write_valid ha.2 hs)
    rw [Buffer.write_room ha.2 hs] at hys
    rw [accum_done hrun]
    constructor
    · rintro ⟨-, hb⟩ hlen
      rw [hys.1 hb (by omega), Buffer.write_write _ hs]
      rwa [List.length_append]
    · intro hno
      obtain ⟨e, t, hrun', ht⟩ := hys.2 fun hb => hno ⟨⟨ha.1, hb.1⟩, by omega⟩
      exact ⟨e, t, hrun', (Buffer.write_extends ha.2 hs).keeps.trans ht⟩
  · obtain ⟨e, t, hrun, ht⟩ := (hx s hs).2 ha
    constructor
    · rintro ⟨hok, -⟩ hlen
      exact absurd ⟨hok, by omega⟩ ha
    · intro _
      -- the second part still runs, but the status of the first one stays
      have hafter : Routine.accum x (fun _ => y) s = (y t).after e := accumGuard_fail hrun
      rw [hafter]
      by_cases hb : b ∧ bs.length ≤ t.room
      · rw [(hy t ht.valid).1 hb.1 hb.2]
        exact ⟨e, _, rfl, ht.trans (Buffer.write_extends hb.2 ht.valid).keeps⟩
      · obtain ⟨e', u, hrun', hu⟩ := (hy t ht.valid).2 hb
        rw [hrun']
        exact ⟨e ||| e', u, rfl, ht.trans hu⟩

/-- A success did not go back. -/
theorem Commits.goBack [DecidableEq ε] (hx : Commits as a x) :
    Commits as a (goBack limits refused x) := by
  intro s hs
  constructor
  · intro hok hlen
    unfold Writer.goBack onFail
    rw [(hx s hs).1 hok hlen]
  · intro hno
    obtain ⟨e, t, hrun, ht⟩ := (hx s hs).2 hno
    unfold Writer.goBack onFail
    simp only [hrun]
    by_cases he : e = limits
    · rw [if_pos he]
      exact ⟨_, _, rfl, (ht.goBack hs).keeps⟩
    · rw [if_neg he]
      exact ⟨_, _, rfl, ht⟩

/-- `if(c) x();` -/
theorem Commits.ite {c : Bool} (hx : Commits bs b x) :
    Commits (if c then bs else []) (c = true → b)
      (if c then x else pure () : Routine ε Buffer Unit) := by
  cases c with
  | true => exact hx.congr rfl (by simp)
  | false => exact commits_pure.congr rfl (by simp)

/-- The elements of a list, one after the other. -/
theorem commits_each {α : Type} {f : α → Routine ε Buffer Unit} {bytes : α → List UInt8}
    {ok : α → Prop} {xs : List α} (h : ∀ v ∈ xs, Commits (bytes v) (ok v) (f v)) :
    Commits (xs.flatMap bytes) (∀ v ∈ xs, ok v) (each f xs) := by
  induction xs with
  | nil => exact commits_pure.congr rfl (by simp)
  | cons v xs ih =>
    obtain ⟨hv, hxs⟩ := List.forall_mem_cons.mp h
    exact (hv.bind (ih hxs)).congr rfl List.forall_mem_cons.symm

end Commits

/-! ## Writers nobody looks after -/

/-- What a list of plans puts out if each one goes on where the one before stopped. -/
def produceAll : List Plan → Nat → List UInt8
  | [], _ => []
  | p :: ps, room => (p.produce room).1 ++ produceAll ps (room - (p.produce room).1.length)

/-- `x` always comes to an end, and puts out what it can of each of `ps`. -/
def Drops (ps : List Plan) (x : Routine ε Buffer Unit) : Prop :=
  ∀ s : Buffer, s.Valid → ∃ t, x s = .done () t ∧ s.Extends (produceAll ps s.room) t

section Drops

variable {p : Plan} {ps qs : List Plan} {room : Nat} {x y : Routine ε Buffer Unit}

/-- The rest of the room is for what follows. -/
theorem produceAll_append (ps qs : List Plan) (room : Nat) :
    produceAll (ps ++ qs) room =
      produceAll ps room ++ produceAll qs (room - (produceAll ps room).length) := by
  induction ps generalizing room with
  | nil => rfl
  | cons p ps ih =>
    simp only [List.cons_append, produceAll, ih, List.append_assoc, List.length_append,
      Nat.sub_sub]

theorem drops_pure : Drops [] (pure () : Routine ε Buffer Unit) := fun s hs =>
  ⟨s, rfl, .refl hs⟩

/-- In a row: the second goes on in the rest of the room. -/
theorem Drops.bind (hx : Drops ps x) (hy : Drops qs y) : Drops (ps ++ qs) (x >>= fun _ => y) := by
  intro s hs
  obtain ⟨t, hrun, ht⟩ := hx s hs
  obtain ⟨u, hrun', hu⟩ := hy t ht.valid
  refine ⟨u, by rw [bind_done hrun, hrun'], ?_⟩
  rw [produceAll_append, ← ht.room]
  exact ht.trans hu

/-- A part that may be missing. -/
theorem Drops.ite {c : Bool} (hx : c = true → Drops ps x) :
    Drops (if c then ps else []) (if c then x else pure () : Routine ε Buffer Unit) := by
  cases c with
  | true => exact hx rfl
  | false => exact drops_pure

end Drops

/-! ## Writers nobody looks after, in the middle of others -/

/-- The room after `head` and what of `loose` can be put out. -/
def roomAfter (head : List UInt8) (loose : List Plan) (room : Nat) : Nat :=
  room - head.length - (produceAll loose (room - head.length)).length

/-- `x` writes `head`, then what it can of `loose`, then `tail`. It comes to its end if
`head` and `tail` can be written (`ok`) and fit, and fails otherwise. -/
def Spans (head : List UInt8) (loose : List Plan) (tail : List UInt8) (ok : Prop)
    (x : Routine ε Buffer Unit) : Prop :=
  ∀ s : Buffer, s.Valid →
    (ok ∧ head.length ≤ s.room ∧ tail.length ≤ roomAfter head loose s.room →
      ∃ t, x s = .done () t ∧
        s.Extends (head ++ produceAll loose (s.room - head.length) ++ tail) t) ∧
    (¬ (ok ∧ head.length ≤ s.room ∧ tail.length ≤ roomAfter head loose s.room) →
      ∃ e t, x s = .fail e t)

section Spans

variable {head tail : List UInt8} {loose : List Plan} {a b ok : Prop}
  {x y z : Routine ε Buffer Unit}

/-- The same condition, in other words. -/
theorem Spans.congr (h : Spans head loose tail a x) (hab : a ↔ b) :
    Spans head loose tail b x := by
  intro s hs
  rw [← hab]
  exact h s hs

end Spans

end Writer
