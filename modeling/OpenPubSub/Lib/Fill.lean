import Mathlib.Data.List.Forall2
import OpenPubSub.Lib.Routine

/-!
# Loops that fill an array

A decoder fills an array element by element and stops at the first element it
cannot read. What the array looks like afterwards depends on where that was.

- `starts lead item n p` are the positions at which such a loop begins to read an
  item, computed from the input alone.
- `Fills` is what one iteration does to the array.
- **`Fills.loop`**: the whole loop. On success every element corresponds to its
  start. On failure the elements before the last start are complete, one element
  is half built, and the rest are as they were allocated.
-/

namespace Routine

variable {ε σ α β : Type}

/-- The positions at which `item` is run by a loop of `n` iterations from `p` on,
each time after `lead`. The loop ends where one of the two fails. -/
def starts (lead : Routine ε Nat Unit) (item : Routine ε Nat α) : Nat → Nat → List Nat
  | 0, _ => []
  | n + 1, p =>
    match lead p with
    | .done _ q =>
      q :: match item q with
        | .done _ r => starts lead item n r
        | _ => []
    | _ => []

section

variable {lead : Routine ε Nat Unit} {item : Routine ε Nat α} {n p q r : Nat} {a : α} {e : ε}

@[simp] theorem starts_zero : starts lead item 0 p = [] := rfl

theorem starts_done (hl : lead p = .done () q) (hi : item q = .done a r) :
    starts lead item (n + 1) p = q :: starts lead item n r := by
  simp only [starts, hl, hi]

theorem starts_fail (hl : lead p = .done () q) (hi : item q = .fail e r) :
    starts lead item (n + 1) p = [q] := by
  simp only [starts, hl, hi]

theorem starts_lead_fail (hl : lead p = .fail e q) : starts lead item (n + 1) p = [] := by
  simp only [starts, hl]

end

/-- Iteration `i` replaces element `i` of the array, so far a `blank`. `R q b`: the
element `b` was read at `q`. `F q b`: reading at `q` failed and left `b`. `U b`: the
item was not reached and `b` is what was left. -/
def Fills (lead : Routine ε Nat Unit) (item : Routine ε Nat α) (state : Nat → List β → σ)
    (blank : β) (R F : Nat → β → Prop) (U : β → Prop) (body : Nat → Routine ε σ Unit) : Prop :=
  ∀ i bs p, bs[i]? = some blank → (body i (state p bs)).Sat
    (fun _ t => ∃ q r a b, lead p = .done () q ∧ item q = .done a r ∧
      t = state r (bs.set i b) ∧ R q b)
    (fun _ t => ∃ o b, t = state o (bs.set i b) ∧
      ((∃ q e r, lead p = .done () q ∧ item q = .fail e r ∧ F q b) ∨
        (∃ e q, lead p = .fail e q) ∧ U b))

/-- The array after a failing loop over the starts `S`. -/
def HalfFilled (R F : Nat → β → Prop) (U : β → Prop) (blank : β) (S : List Nat) (n : Nat)
    (bs : List β) : Prop :=
  ∃ S' done b k, bs = done ++ b :: List.replicate k blank ∧ done.length + 1 + k = n ∧
    List.Forall₂ R S' done ∧ ((∃ q, S = S' ++ [q] ∧ F q b) ∨ S = S' ∧ U b)

/-- Two lists in step: what corresponds pointwise corresponds for all elements. -/
theorem forall_iff_of_forall₂ {R : α → β → Prop} {A : α → Prop} {B : β → Prop} {as : List α}
    {bs : List β} (h : List.Forall₂ R as bs) (hAB : ∀ a b, R a b → (A a ↔ B b)) :
    (∀ a ∈ as, A a) ↔ ∀ b ∈ bs, B b := by
  induction h with
  | nil => simp
  | cons hab _ ih => rw [List.forall_mem_cons, List.forall_mem_cons, hAB _ _ hab, ih]

/-- What holds of everything that corresponds to something. -/
theorem forall_of_forall₂ {R : α → β → Prop} {B : β → Prop} {as : List α} {bs : List β}
    (h : List.Forall₂ R as bs) (hB : ∀ a b, R a b → B b) : ∀ b ∈ bs, B b := by
  induction h with
  | nil => simp
  | cons hab _ ih => exact List.forall_mem_cons.mpr ⟨hB _ _ hab, ih⟩

@[simp] theorem modify_middle {β : Type} (pre post : List β) (b : β) (f : β → β) :
    (pre ++ b :: post).modify pre.length f = pre ++ f b :: post := by
  induction pre with
  | nil => rfl
  | cons a pre ih => simp [ih]

namespace Fills

variable {lead : Routine ε Nat Unit} {item : Routine ε Nat α} {state : Nat → List β → σ}
  {R F : Nat → β → Prop} {U : β → Prop} {body : Nat → Routine ε σ Unit} {blank : β}

theorem set_append_replicate (pre : List β) (b : β) (n : Nat) :
    (pre ++ List.replicate (n + 1) blank).set pre.length b =
      (pre ++ [b]) ++ List.replicate n blank := by
  rw [List.set_append_right _ _ (Nat.le_refl _), Nat.sub_self, List.replicate_succ,
    List.set_cons_zero, List.append_assoc, List.singleton_append]

/-- From element `pre.length` on. Induction on the number of elements left. -/
theorem loopFrom (h : Fills lead item state blank R F U body) :
    ∀ (n : Nat) (pre : List β) (p : Nat),
      (loopFrom body pre.length n (state p (pre ++ List.replicate n blank))).Sat
        (fun _ t => ∃ r bs, t = state r (pre ++ bs) ∧ (starts lead item n p).length = n ∧
          List.Forall₂ R (starts lead item n p) bs)
        (fun _ t => ∃ r bs, t = state r (pre ++ bs) ∧
          HalfFilled R F U blank (starts lead item n p) n bs)
  | 0, pre, p => ⟨p, [], rfl, rfl, .nil⟩
  | n + 1, pre, p => by
    rw [loopFrom_succ, bind_run]
    have hblank : (pre ++ List.replicate (n + 1) blank)[pre.length]? = some blank := by
      simp [List.replicate_succ]
    have hb := h pre.length _ p hblank
    cases hrun : body pre.length (state p (pre ++ List.replicate (n + 1) blank)) with
    | fault =>
      rw [hrun] at hb
      exact hb
    -- this element is the half-filled one, the rest is blank
    | fail e t =>
      rw [hrun] at hb
      obtain ⟨o, b, rfl, hcase⟩ := hb
      refine ⟨o, b :: List.replicate n blank, by rw [set_append_replicate]; simp, ?_⟩
      refine ⟨[], [], b, n, rfl, by simp; omega, .nil, ?_⟩
      rcases hcase with ⟨q, e', r, hl, hi, hF⟩ | ⟨⟨e', q, hl⟩, hU⟩
      · exact .inl ⟨q, by rw [starts_fail hl hi, List.nil_append], hF⟩
      · exact .inr ⟨starts_lead_fail hl, hU⟩
    | done u t =>
      rw [hrun] at hb
      obtain ⟨q, r, a, b, hl, hi, rfl, hR⟩ := hb
      -- the element joins those in front, and the loop goes on behind it
      have ih := loopFrom h n (pre ++ [b]) r
      rw [List.length_append, List.length_singleton] at ih
      simp only [set_append_replicate, starts_done hl hi]
      refine ih.imp ?_ ?_
      · rintro _ u ⟨r', bs, rfl, hlen, hbs⟩
        exact ⟨r', b :: bs, by simp, congrArg Nat.succ hlen, .cons hR hbs⟩
      · rintro _ u ⟨r', bs, rfl, S', done, b', k, rfl, hk, hdone, hcase⟩
        refine ⟨r', b :: (done ++ b' :: List.replicate k blank), by simp, ?_⟩
        refine ⟨q :: S', b :: done, b', k, rfl, by simp only [List.length_cons]; omega,
          .cons hR hdone, ?_⟩
        -- a later element has failed: the lists of it get this one in front
        rcases hcase with ⟨q', hS, hF⟩ | ⟨hS, hU⟩
        · exact .inl ⟨q', by rw [hS, List.cons_append], hF⟩
        · exact .inr ⟨by rw [hS], hU⟩

/-- **The whole loop**, on an array of blanks. -/
theorem loop (h : Fills lead item state blank R F U body) (n p : Nat) :
    (forUpTo n body (state p (List.replicate n blank))).Sat
      (fun _ t => ∃ r bs, t = state r bs ∧ (starts lead item n p).length = n ∧
        List.Forall₂ R (starts lead item n p) bs)
      (fun _ t => ∃ r bs, t = state r bs ∧
        HalfFilled R F U blank (starts lead item n p) n bs) :=
  loopFrom h n [] p

end Fills

end Routine
