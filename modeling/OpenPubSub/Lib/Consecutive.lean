import Mathlib.Algebra.Ring.Nat
import OpenPubSub.Lib.Fill

/-!
# Items read one after the other

A loop that reads an array takes each element where it stopped after the one
before. A format may also declare how long each element is, and then there is a
second answer to where an element begins.

- `Consecutive item p as ns`: from `p` on `item` reads the values `as`, and takes
  `ns` positions for them.
- `AtDeclared item p as ns`: every value lies where the declared lengths `ns` put
  it.
- **`Consecutive.atDeclared_iff`**: the second is the case only for the lengths the
  items really have.
- `Consecutive.sum_eq_iff`: where a run ends that goes on as long as it is short of a
  position.
- `Consecutive.of_forUpTo`, `Consecutive.forUpTo_run`: a loop that fills an array
  succeeds by reading it consecutively.
-/

namespace Routine

variable {ε σ α : Type}

/-- `item` is run again and again from `p` on, reads `as`, and moves on by `ns`. -/
inductive Consecutive (item : Routine ε Nat α) : Nat → List α → List Nat → Prop
  | nil {p : Nat} : Consecutive item p [] []
  | cons {p n : Nat} {a : α} {as : List α} {ns : List Nat} (read : item p = .done a (p + n))
      (rest : Consecutive item (p + n) as ns) : Consecutive item p (a :: as) (n :: ns)

/-- The `i`-th value is read behind the first `i` declared lengths, and in exactly
its own declared length. -/
def AtDeclared (item : Routine ε Nat α) (p : Nat) (as : List α) (ns : List Nat) : Prop :=
  ∀ i (h : i < as.length), item (p + (ns.take i).sum) = .done as[i] (p + (ns.take (i + 1)).sum)

theorem atDeclared_cons {item : Routine ε Nat α} {p n : Nat} {a : α} {as : List α}
    {ns : List Nat} : AtDeclared item p (a :: as) (n :: ns) ↔
      item p = .done a (p + n) ∧ AtDeclared item (p + n) as ns := by
  constructor
  · intro h
    constructor
    · exact h 0 (Nat.zero_lt_succ _)
    · intro i hi
      have hnext := h (i + 1) (Nat.succ_lt_succ hi)
      simpa only [List.take_succ_cons, List.sum_cons, ← Nat.add_assoc,
        List.getElem_cons_succ] using hnext
  · rintro ⟨hread, hrest⟩ i hi
    cases i with
    | zero => exact hread
    | succ i =>
      have hnext := hrest i (Nat.lt_of_succ_lt_succ hi)
      simpa only [List.take_succ_cons, List.sum_cons, ← Nat.add_assoc,
        List.getElem_cons_succ] using hnext

namespace Consecutive

variable {item : Routine ε Nat α} {p : Nat} {as : List α} {ns : List Nat}

/-- Two runs from one position differ only in how far they go. -/
theorem prefix_or_prefix {bs : List α} {ms : List Nat} (h : Consecutive item p as ns)
    (h' : Consecutive item p bs ms) : ns <+: ms ∨ ms <+: ns := by
  induction h generalizing bs ms with
  | nil => exact .inl (List.nil_prefix)
  | @cons p n a as ns read _ ih =>
    cases h' with
    | nil => exact .inr (List.nil_prefix)
    | @cons _ m b bs ms read' rest' =>
      have heq : p + n = p + m := (Outcome.done.inj (read.symm.trans read')).2
      obtain rfl : n = m := Nat.add_left_cancel heq
      rcases ih rest' with hle | hle
      · exact .inl ((List.prefix_cons_inj n).mpr hle)
      · exact .inr ((List.prefix_cons_inj n).mpr hle)

/-- A run that stops at the first position from `p + n` on stops at `p + n` if that is a
position between two items. -/
theorem sum_eq_iff {n : Nat} (h : Consecutive item p as ns) (hne : ns ≠ [])
    (hend : n ≤ ns.sum) (hbefore : ns.dropLast.sum < n) :
    ns.sum = n ↔ ∃ bs ms, Consecutive item p bs ms ∧ ms.sum = n := by
  constructor
  · intro hn
    exact ⟨as, ns, h, hn⟩
  · rintro ⟨bs, ms, h', rfl⟩
    rcases h.prefix_or_prefix h' with ⟨rest, rfl⟩ | ⟨rest, rfl⟩
    · rw [List.sum_append] at hend ⊢
      omega
    · cases hrest : rest with
      | nil => rw [List.append_nil]
      | cons r rest' =>
        -- `ms` would be a proper prefix, and too short
        rw [hrest, List.dropLast_append_of_ne_nil (List.cons_ne_nil _ _), List.sum_append]
          at hbefore
        omega

/-- **Declared and real lengths.** A value determines how far its item went, so the
positions agree only when all the lengths do. -/
theorem atDeclared_iff (h : Consecutive item p as ns) {ms : List Nat}
    (hlen : ms.length = as.length) : AtDeclared item p as ms ↔ ms = ns := by
  induction h generalizing ms with
  | nil =>
    obtain rfl := List.length_eq_zero_iff.mp hlen
    exact ⟨fun _ => rfl, fun _ i hi => absurd hi (Nat.not_lt_zero i)⟩
  | @cons p n a as ns read rest ih =>
    cases ms with
    | nil => exact absurd hlen (by simp)
    | cons m ms =>
      rw [atDeclared_cons, List.cons.injEq]
      constructor
      · rintro ⟨hm, hms⟩
        have heq : p + n = p + m := (Outcome.done.inj (read.symm.trans hm)).2
        obtain rfl : n = m := Nat.add_left_cancel heq
        exact ⟨rfl, (ih (Nat.succ.inj hlen)).mp hms⟩
      · rintro ⟨rfl, rfl⟩
        exact ⟨read, (ih (Nat.succ.inj hlen)).mpr rfl⟩

/-- What each single read guarantees holds of all the values. -/
theorem forall_of_read {P : α → Prop} (h : Consecutive item p as ns)
    (hitem : ∀ q a r, item q = .done a r → P a) : ∀ a ∈ as, P a := by
  induction h with
  | nil => exact fun a ha => absurd ha List.not_mem_nil
  | cons read _ ih => exact List.forall_mem_cons.mpr ⟨hitem _ _ _ read, ih⟩

/-- Values that are no longer than what they were read from are not longer together. -/
theorem sum_le {size : α → Nat} (h : Consecutive item p as ns)
    (hitem : ∀ a ∈ as, ∀ q n, item q = .done a (q + n) → size a ≤ n) :
    (as.map size).sum ≤ ns.sum := by
  induction h with
  | nil => exact Nat.le_refl _
  | cons read _ ih =>
    obtain ⟨hfirst, hrest⟩ := List.forall_mem_cons.mp hitem
    rw [List.map_cons, List.sum_cons, List.sum_cons]
    exact Nat.add_le_add (hfirst _ _ read) (ih hrest)

/-- A run that reads something ends where its last item does. -/
theorem end_le {limit : Nat} (h : Consecutive item p as ns) (hne : as ≠ [])
    (hitem : ∀ a ∈ as, ∀ q r, item q = .done a r → r ≤ limit) : p + ns.sum ≤ limit := by
  induction h with
  | nil => exact absurd rfl hne
  | @cons p n a as ns read rest ih =>
    obtain ⟨hfirst, hrest⟩ := List.forall_mem_cons.mp hitem
    rw [List.sum_cons, ← Nat.add_assoc]
    cases rest with
    | nil => exact hfirst _ _ read
    | cons read' rest' => exact ih (List.cons_ne_nil _ _) hrest

/-- Iteration `i` succeeds only by reading the item into element `i`. -/
def Collects (item : Routine ε Nat α) (state : Nat → List α → σ) (blank : α)
    (body : Nat → Routine ε σ Unit) : Prop :=
  ∀ i bs q u, bs[i]? = some blank → body i (state q bs) = .done () u →
    ∃ a n, item q = .done a (q + n) ∧ u = state (q + n) (bs.set i a)

/-- From element `pre.length` on. Induction on the number of elements left. -/
theorem of_loopFrom {state : Nat → List α → σ} {blank : α} {body : Nat → Routine ε σ Unit}
    (hbody : Collects item state blank body) : ∀ (n : Nat) (pre : List α) (p : Nat) (u : σ),
      loopFrom body pre.length n (state p (pre ++ List.replicate n blank)) = .done () u →
      ∃ as ns, Consecutive item p as ns ∧ as.length = n ∧ u = state (p + ns.sum) (pre ++ as)
  | 0, pre, p, u, h => by
    obtain rfl := (Outcome.done.inj h).2
    exact ⟨[], [], .nil, rfl, rfl⟩
  | n + 1, pre, p, u, h => by
    rw [loopFrom_succ] at h
    obtain ⟨_, t, hb, hrest⟩ := bind_eq_done.mp h
    have hblank : (pre ++ List.replicate (n + 1) blank)[pre.length]? = some blank := by
      simp [List.replicate_succ]
    obtain ⟨a, k, hread, rfl⟩ := hbody _ _ _ _ hblank hb
    rw [Fills.set_append_replicate] at hrest
    have hlen : pre.length + 1 = (pre ++ [a]).length := by simp
    rw [hlen] at hrest
    obtain ⟨as, ns, has, hn, rfl⟩ := of_loopFrom hbody n (pre ++ [a]) (p + k) u hrest
    refine ⟨a :: as, k :: ns, .cons hread has, congrArg Nat.succ hn, ?_⟩
    rw [List.sum_cons, List.append_assoc, List.singleton_append, Nat.add_assoc]

/-- The whole loop, on an array of blanks. -/
theorem of_forUpTo {state : Nat → List α → σ} {blank : α} {body : Nat → Routine ε σ Unit}
    (hbody : Collects item state blank body) {n : Nat} {u : σ}
    (h : forUpTo n body (state p (List.replicate n blank)) = .done () u) :
    ∃ as ns, Consecutive item p as ns ∧ as.length = n ∧ u = state (p + ns.sum) as :=
  of_loopFrom hbody n [] p u h

/-- Conversely, a body that stores what the item reads runs to the end of them.
Induction on the reads, with the elements already stored in front. -/
theorem loopFrom_run {state : Nat → List α → σ} {blank : α} {body : Nat → Routine ε σ Unit}
    (hbody : ∀ i bs q a r, item q = .done a r →
      body i (state q bs) = .done () (state r (bs.set i a)))
    (h : Consecutive item p as ns) (pre : List α) :
    loopFrom body pre.length as.length (state p (pre ++ List.replicate as.length blank)) =
      .done () (state (p + ns.sum) (pre ++ as)) := by
  induction h generalizing pre with
  | nil => rfl
  | @cons p n a as ns read _ ih =>
    rw [List.length_cons, loopFrom_succ, bind_done (hbody _ _ _ _ _ read),
      Fills.set_append_replicate]
    have hlen : pre.length + 1 = (pre ++ [a]).length := by simp
    rw [hlen, ih (pre ++ [a]), List.sum_cons, List.append_assoc, List.singleton_append,
      Nat.add_assoc]

theorem forUpTo_run {state : Nat → List α → σ} {blank : α} {body : Nat → Routine ε σ Unit}
    (hbody : ∀ i bs q a r, item q = .done a r →
      body i (state q bs) = .done () (state r (bs.set i a)))
    (h : Consecutive item p as ns) :
    forUpTo as.length body (state p (List.replicate as.length blank)) =
      .done () (state (p + ns.sum) as) :=
  loopFrom_run hbody h []

end Consecutive

end Routine
