import OpenPubSub.Lib.Completes

/-!
# Writers measured by their successes

Nothing is known beforehand about what a writer writes, but a single success tells: the
same bytes are written into any buffer that has room for them.

- `Keeping x`: whatever the exit, `x` leaves what was written before it.
- `Measured P x`: a success of `x` anywhere determines what `x` writes everywhere, and
  the number of bytes has the property `P`. For a size calculation, `P n` says that it
  comes to `n`.

One rule for each way to combine writers. The rules for sequences take it as an
argument how the properties of the parts make up the property of the whole.
-/

namespace Writer

open Routine

variable {ε : Type} {x y : Routine ε Buffer Unit}

/-! ## What was written before -/

/-- Both exits come after the buffer `s`, and leave what is in it. -/
def Keeping (x : Routine ε Buffer Unit) : Prop :=
  ∀ s : Buffer, s.Valid → match x s with
    | .done _ t => s.Keeps t
    | .fail _ t => s.Keeps t
    | .fault => True

namespace Keeping

theorem done (h : Keeping x) {s t : Buffer} (hs : s.Valid) (hrun : x s = .done () t) :
    s.Keeps t := by
  have := h s hs
  rwa [hrun] at this

theorem failed (h : Keeping x) {s t : Buffer} {e : ε} (hs : s.Valid) (hrun : x s = .fail e t) :
    s.Keeps t := by
  have := h s hs
  rwa [hrun] at this

/-- A writer that is known byte for byte. -/
theorem of_commits {bs : List UInt8} {ok : Prop} (h : Commits bs ok x) : Keeping x := by
  intro s hs
  by_cases hc : ok ∧ bs.length ≤ s.room
  · rw [(h s hs).1 hc.1 hc.2]
    exact (Buffer.write_extends hc.2 hs).keeps
  · obtain ⟨e, t, hrun, ht⟩ := (h s hs).2 hc
    rw [hrun]
    exact ht

theorem pure : Keeping (Pure.pure () : Routine ε Buffer Unit) := fun _ hs => .refl hs

theorem fault : Keeping (Routine.fault : Routine ε Buffer Unit) := fun _ _ => trivial

/-- In a row: what the first wrote the second keeps as well. -/
theorem bind (hx : Keeping x) (hy : Keeping y) : Keeping (x >>= fun _ => y) := by
  intro s hs
  cases hxs : x s with
  | done _ t =>
    have ht := hx.done hs hxs
    rw [bind_done hxs]
    cases hys : y t with
    | done _ u => exact ht.trans (hy.done ht.valid hys)
    | fail e u => exact ht.trans (hy.failed ht.valid hys)
    | fault => trivial
  | fail e t =>
    rw [bind_fail hxs]
    exact hx.failed hs hxs
  | fault =>
    rw [bind_fault hxs]
    trivial

/-- In the accumulating style, where the second writes after a failure too. -/
theorem accum [OrOp ε] (hx : Keeping x) (hy : Keeping y) :
    Keeping (Routine.accum x fun _ => y) := by
  intro s hs
  cases hxs : x s with
  | done _ t =>
    have ht := hx.done hs hxs
    rw [accum_done hxs]
    cases hys : y t with
    | done _ u => exact ht.trans (hy.done ht.valid hys)
    | fail e u => exact ht.trans (hy.failed ht.valid hys)
    | fault => trivial
  | fail e t =>
    -- `y` goes on where `x` stopped
    have ht := hx.failed hs hxs
    have hrun : Routine.accum x (fun _ => y) s = (y t).after e := accumGuard_fail hxs
    rw [hrun]
    cases hys : y t with
    | done _ u => exact ht.trans (hy.done ht.valid hys)
    | fail e' u => exact ht.trans (hy.failed ht.valid hys)
    | fault => trivial
  | fault =>
    have hrun : Routine.accum x (fun _ => y) s = .fault := by
      simp only [Routine.accum, accumGuard, hxs]
    rw [hrun]
    trivial

/-- The position is taken back only over what was written since. -/
theorem goBack [DecidableEq ε] {limits refused : ε} (hx : Keeping x) :
    Keeping (goBack limits refused x) := by
  intro s hs
  unfold Writer.goBack onFail
  cases hxs : x s with
  | done _ t => exact hx.done hs hxs
  | fail e t =>
    have ht := hx.failed hs hxs
    by_cases he : e = limits
    · simp only [he, if_true]
      exact (ht.goBack hs).keeps
    · simp only [he, if_false]
      exact ht
  | fault => trivial

/-- The status says nothing about the buffer. -/
theorem dropStatus (hx : Keeping x) : Keeping (Routine.dropStatus x) := by
  intro s hs
  unfold Routine.dropStatus
  cases hxs : x s with
  | done _ t => exact hx.done hs hxs
  | fail e t => exact hx.failed hs hxs
  | fault => trivial

theorem ite {c : Prop} [Decidable c] (hx : c → Keeping x) (hy : ¬ c → Keeping y) :
    Keeping (if c then x else y) := by
  by_cases hc : c
  · rw [if_pos hc]
    exact hx hc
  · rw [if_neg hc]
    exact hy hc

/-- An element that is looked up: a missing one faults. -/
theorem element {α : Type} {xs : List α} {f : α → Routine ε Buffer Unit}
    (h : ∀ a ∈ xs, Keeping (f a)) (i : Nat) : Keeping (element xs f i) := by
  unfold Writer.element
  cases hget : xs[i]? with
  | some a => exact h a (List.mem_of_getElem? hget)
  | none => exact fault

/-- A loop that stops at the first failure. -/
theorem loopFrom {body : Nat → Routine ε Buffer Unit} (h : ∀ i, Keeping (body i)) :
    ∀ n i, Keeping (loopFrom body i n)
  | 0, _ => pure
  | n + 1, i => (h i).bind (loopFrom h n (i + 1))

/-- A loop that goes on after a failure. -/
theorem accumFrom [OrOp ε] {body : Nat → Routine ε Buffer Unit} (h : ∀ i, Keeping (body i)) :
    ∀ n i, Keeping (accumFrom body i n)
  | 0, _ => pure
  | n + 1, i => (h i).accum (accumFrom h n (i + 1))

/-- Every element of an array that was written was written at some point. Induction on the
elements. -/
theorem each_eq_done {α : Type} {f : α → Routine ε Buffer Unit} {xs : List α}
    (h : ∀ a ∈ xs, Keeping (f a)) {s t : Buffer} (hs : s.Valid)
    (hrun : each f xs s = .done () t) : ∀ a ∈ xs, ∃ u v, u.Valid ∧ f a u = .done () v := by
  induction xs generalizing s with
  | nil => exact nofun
  | cons x xs ih =>
    obtain ⟨hx, hxs⟩ := List.forall_mem_cons.mp h
    obtain ⟨_, u, hfirst, hrest⟩ := bind_eq_done.mp hrun
    exact List.forall_mem_cons.mpr
      ⟨⟨s, u, hs, hfirst⟩, ih hxs (hx.done hs hfirst).valid hrest⟩

end Keeping

/-! ## What a success tells -/

/-- What `x` writes if it ever succeeds, and how much of it. -/
structure Measured (P : Nat → Prop) (x : Routine ε Buffer Unit) : Prop where
  keeping : Keeping x
  commits : ∀ {s t : Buffer}, s.Valid → x s = .done () t →
    ∃ bs, Commits bs True x ∧ P bs.length

/-- The bytes of a success. -/
theorem Commits.done_eq {bs : List UInt8} (h : Commits bs True x) {s t : Buffer} (hs : s.Valid)
    (hrun : x s = .done () t) : bs.length ≤ s.room ∧ t = s.write bs := by
  by_cases hroom : bs.length ≤ s.room
  · rw [(h s hs).1 trivial hroom] at hrun
    cases hrun
    exact ⟨hroom, rfl⟩
  · obtain ⟨e, u, hfail, -⟩ := (h s hs).2 fun hc => hroom hc.2
    rw [hrun] at hfail
    cases hfail

/-- A success was not refused. -/
theorem Commits.ok_of_done {bs : List UInt8} {ok : Prop} (h : Commits bs ok x) {s t : Buffer}
    (hs : s.Valid) (hrun : x s = .done () t) : ok := by
  by_cases hok : ok
  · exact hok
  · obtain ⟨e, u, hfail, -⟩ := (h s hs).2 fun hc => hok hc.1
    rw [hrun] at hfail
    cases hfail

/-- A buffer with just enough room. -/
def blank (n : Nat) : Buffer := ⟨List.replicate n 0, 0⟩

theorem blank_valid (n : Nat) : (blank n).Valid := Nat.zero_le _

@[simp] theorem blank_room (n : Nat) : (blank n).room = n := List.length_replicate

/-- What is written everywhere is written there. -/
theorem Commits.done_blank {bs : List UInt8} (h : Commits bs True x) :
    x (blank bs.length) = .done () ((blank bs.length).write bs) :=
  (h _ (blank_valid _)).1 trivial (Nat.le_of_eq (blank_room _).symm)

/-- A writer writes one thing. -/
theorem Commits.unique {as bs : List UInt8} (ha : Commits as True x) (hb : Commits bs True x) :
    as = bs := by
  have hs := blank_valid as.length
  obtain ⟨hroom, heq⟩ := hb.done_eq hs ha.done_blank
  have hfits : as.length ≤ (blank as.length).room := Nat.le_of_eq (blank_room _).symm
  have hlen : as.length = bs.length := Nat.add_left_cancel (congrArg Buffer.pos heq)
  have hwritten := (Buffer.write_extends hfits hs).bytes
  rw [heq, (Buffer.write_extends hroom hs).bytes] at hwritten
  exact (List.append_cancel_left hwritten).symm

namespace Measured

variable {P Q R : Nat → Prop}

/-- Whatever `x` is known to write. -/
theorem length (h : Measured P x) {bs : List UInt8} (hbs : Commits bs True x) : P bs.length := by
  obtain ⟨cs, hcs, hP⟩ := h.commits (blank_valid _) hbs.done_blank
  rw [hbs.unique hcs]
  exact hP

/-- One success is enough. -/
theorem of_completes (h : Measured P x) {bs : List UInt8} (hbs : Completes bs x) :
    Commits bs True x ∧ P bs.length := by
  have hroom : bs.length ≤ (blank bs.length).room := Nat.le_of_eq (blank_room _).symm
  obtain ⟨cs, hcs, hP⟩ := h.commits (blank_valid _) (hbs _ (blank_valid _) hroom)
  rw [hbs.unique (hcs.completes trivial)]
  exact ⟨hcs, hP⟩

/-- A weaker fact about the number of bytes. -/
theorem imp (h : Measured P x) (hPQ : ∀ n, P n → Q n) : Measured Q x where
  keeping := h.keeping
  commits hs hrun :=
    let ⟨bs, hbs, hP⟩ := h.commits hs hrun
    ⟨bs, hbs, hPQ _ hP⟩

theorem of_commits {bs : List UInt8} (h : Commits bs True x) (hP : P bs.length) :
    Measured P x :=
  ⟨.of_commits h, fun _ _ => ⟨bs, h, hP⟩⟩

theorem pure (hP : P 0) : Measured P (Pure.pure () : Routine ε Buffer Unit) :=
  of_commits commits_pure hP

theorem fail (e : ε) : Measured P (Routine.fail e : Routine ε Buffer Unit) :=
  ⟨.of_commits (commits_fail e), nofun⟩

theorem fault : Measured P (Routine.fault : Routine ε Buffer Unit) := ⟨.fault, nofun⟩

/-- Whoever is known to write `bs` or to fail. -/
theorem of_ok {bs : List UInt8} {ok : Prop} (h : Commits bs ok x) (hP : P bs.length) :
    Measured P x := by
  refine ⟨.of_commits h, fun {s t} hs hrun => ?_⟩
  exact ⟨bs, h.congr rfl (iff_true_intro (h.ok_of_done hs hrun)), hP⟩

/-- A guard that refuses, whatever came before. -/
theorem accumGuard_fail [OrOp ε] (hx : Keeping x) (e : ε) (f : Unit → Routine ε Buffer Unit) :
    Measured P (accumGuard x (Routine.fail e) f) := by
  constructor
  · intro s hs
    unfold accumGuard
    cases hxs : x s with
    | done _ t => exact hx.done hs hxs
    | fail e' t => exact hx.failed hs hxs
    | fault => trivial
  · intro s t _ hrun
    obtain ⟨_, _, _, _, hg, _⟩ := accumGuard_eq_done.mp hrun
    cases hg

/-- In a row: the numbers of bytes add up. -/
theorem bind (hx : Measured P x) (hy : Measured Q y) (h : ∀ a b, P a → Q b → R (a + b)) :
    Measured R (x >>= fun _ => y) := by
  refine ⟨hx.keeping.bind hy.keeping, fun {s u} hs hrun => ?_⟩
  obtain ⟨_, t, hxs, hyt⟩ := bind_eq_done.mp hrun
  obtain ⟨as, has, hP⟩ := hx.commits hs hxs
  obtain ⟨bs, hbs, hQ⟩ := hy.commits (hx.keeping.done hs hxs).valid hyt
  refine ⟨as ++ bs, (has.bind hbs).congr rfl (by simp), ?_⟩
  rw [List.length_append]
  exact h _ _ hP hQ

/-- In the accumulating style a success is one of both. -/
theorem accum [OrOp ε] (hx : Measured P x) (hy : Measured Q y)
    (h : ∀ a b, P a → Q b → R (a + b)) : Measured R (Routine.accum x fun _ => y) := by
  refine ⟨hx.keeping.accum hy.keeping, fun {s u} hs hrun => ?_⟩
  obtain ⟨_, t, hxs, hyt⟩ := accum_eq_done.mp hrun
  obtain ⟨as, has, hP⟩ := hx.commits hs hxs
  obtain ⟨bs, hbs, hQ⟩ := hy.commits (hx.keeping.done hs hxs).valid hyt
  refine ⟨as ++ bs, (has.accum hbs).congr rfl (by simp), ?_⟩
  rw [List.length_append]
  exact h _ _ hP hQ

/-- A success did not go back. -/
theorem goBack [DecidableEq ε] {limits refused : ε} (hx : Measured P x) :
    Measured P (goBack limits refused x) := by
  refine ⟨hx.keeping.goBack, fun {s t} hs hrun => ?_⟩
  unfold Writer.goBack onFail at hrun
  cases hxs : x s with
  | done _ t' =>
    obtain ⟨bs, hbs, hP⟩ := hx.commits hs hxs
    exact ⟨bs, hbs.goBack, hP⟩
  | fail e t' =>
    rw [hxs] at hrun
    cases hrun
  | fault =>
    rw [hxs] at hrun
    cases hrun

theorem ite {c : Prop} [Decidable c] (hx : c → Measured P x) (hy : ¬ c → Measured P y) :
    Measured P (if c then x else y) := by
  by_cases hc : c
  · rw [if_pos hc]
    exact hx hc
  · rw [if_neg hc]
    exact hy hc

theorem element {α : Type} {xs : List α} {f : α → Routine ε Buffer Unit} {i : Nat}
    (h : ∀ a, xs[i]? = some a → Measured P (f a)) : Measured P (element xs f i) := by
  unfold Writer.element
  cases hget : xs[i]? with
  | some a => exact h a hget
  | none => exact fault

end Measured

end Writer
