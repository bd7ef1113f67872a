import Mathlib.Data.List.Basic

/-!
# Loops that gather output

A loop over an array appends to an output at each element, and is undefined as soon as
one of its steps is. `none` stands for an undefined step.

- `collect n f` is the loop over indices, as it is written in C; `gather g xs` is the
  same loop over a list. `collect_getElem?` identifies the two.
- `gather_isSome_iff`: the loop is defined if and only if each step is.
- `gather_eq_some_iff`: if no step puts out less than it should, the loop as a whole
  puts out what it should if and only if each step does.
-/

section

variable {α β : Type}

/-- `for(i = 0; i < n; i++)` from `i` on, appending `f i`. -/
def collectFrom (f : Nat → Option (List β)) : Nat → Nat → Option (List β)
  | _, 0 => some []
  | i, n + 1 => do
    let out ← f i
    let rest ← collectFrom f (i + 1) n
    pure (out ++ rest)

/-- `for(i = 0; i < n; i++)`, appending `f i`. -/
def collect (n : Nat) (f : Nat → Option (List β)) : Option (List β) := collectFrom f 0 n

/-- The loop over the elements of a list. -/
def gather (g : α → Option (List β)) : List α → Option (List β)
  | [] => some []
  | x :: xs => do
    let out ← g x
    let rest ← gather g xs
    pure (out ++ rest)

variable {g : α → Option (List β)} {h : α → List β}

theorem gather_cons_eq_some {x : α} {xs : List α} {l : List β} :
    gather g (x :: xs) = some l ↔
      ∃ out rest, g x = some out ∧ gather g xs = some rest ∧ l = out ++ rest := by
  simp only [gather, Option.bind_eq_bind, Option.bind_eq_some_iff, Option.pure_def,
    Option.some.injEq]
  constructor
  · rintro ⟨out, hx, rest, hxs, rfl⟩
    exact ⟨out, rest, hx, hxs, rfl⟩
  · rintro ⟨out, rest, hx, hxs, rfl⟩
    exact ⟨out, hx, rest, hxs, rfl⟩

theorem collectFrom_getElem? (ys : List α) : ∀ xs : List α,
    collectFrom (fun i => (ys ++ xs)[i]?.bind g) ys.length xs.length = gather g xs
  | [] => rfl
  | x :: xs => by
    have ih := collectFrom_getElem? (ys ++ [x]) xs
    rw [List.append_assoc, List.singleton_append, List.length_append,
      List.length_singleton] at ih
    have hx : (ys ++ x :: xs)[ys.length]? = some x := by simp
    show ((ys ++ x :: xs)[ys.length]?.bind g).bind _ = (g x).bind _
    rw [hx, Option.bind_some, ih]

/-- The loop over the indices of an array. -/
theorem collect_getElem? (xs : List α) :
    collect xs.length (fun i => xs[i]?.bind g) = gather g xs :=
  collectFrom_getElem? [] xs

theorem collectFrom_isSome_iff {f : Nat → Option (List β)} : ∀ {n i : Nat},
    (collectFrom f i n).isSome = true ↔ ∀ j < n, (f (i + j)).isSome = true
  | 0, i => by simp [collectFrom]
  | n + 1, i => by
    have hsucc : (∀ j < n + 1, (f (i + j)).isSome = true) ↔
        (f i).isSome = true ∧ ∀ j < n, (f (i + 1 + j)).isSome = true := by
      constructor
      · intro h
        refine ⟨h 0 (Nat.succ_pos n), fun j hj => ?_⟩
        rw [Nat.add_assoc, Nat.add_comm 1 j]
        exact h (j + 1) (Nat.succ_lt_succ hj)
      · rintro ⟨h₀, h⟩ j hj
        cases j with
        | zero => exact h₀
        | succ j =>
          have hj' := h j (Nat.lt_of_succ_lt_succ hj)
          rwa [Nat.add_assoc, Nat.add_comm 1 j] at hj'
    rw [hsucc, ← collectFrom_isSome_iff]
    simp only [collectFrom, Option.bind_eq_bind]
    cases f i with
    | none => simp
    | some out => cases collectFrom f (i + 1) n <;> simp

/-- The loop over indices is defined if each of its steps is. -/
theorem collect_isSome_iff {n : Nat} {f : Nat → Option (List β)} :
    (collect n f).isSome = true ↔ ∀ j < n, (f j).isSome = true := by
  have h : (collect n f).isSome = true ↔ ∀ j < n, (f (0 + j)).isSome = true :=
    collectFrom_isSome_iff
  simpa only [Nat.zero_add] using h

/-- A step that looks something up first. -/
theorem isSome_bind_iff {o : Option α} :
    (o.bind g).isSome = true ↔ ∃ x, o = some x ∧ (g x).isSome = true := by
  cases o <;> simp

/-- The loop is defined if each step is. -/
theorem gather_isSome_iff {xs : List α} :
    (gather g xs).isSome = true ↔ ∀ x ∈ xs, (g x).isSome = true := by
  induction xs with
  | nil => simp [gather]
  | cons x xs ih =>
    rw [List.forall_mem_cons, ← ih]
    simp only [gather, Option.bind_eq_bind]
    cases g x with
    | none => simp
    | some out => cases gather g xs <;> simp

/-- An output that is not shorter than `h`, and `h` itself if it is not longer. -/
def Covers (h : List β) (out : Option (List β)) : Prop :=
  ∀ l, out = some l → h.length ≤ l.length ∧ (l.length = h.length → l = h)

theorem covers_of_eq {h : List β} {out : Option (List β)} (heq : out = some h) : Covers h out := by
  rintro l hl
  rw [heq, Option.some.injEq] at hl
  subst hl
  exact ⟨Nat.le_refl _, fun _ => rfl⟩

/-- Steps that put out enough make a loop that does. -/
theorem covers_gather : ∀ {xs : List α}, (∀ x ∈ xs, Covers (h x) (g x)) →
    Covers (xs.flatMap h) (gather g xs)
  | [], _ => covers_of_eq rfl
  | x :: xs, hc => by
    rw [List.forall_mem_cons] at hc
    rintro l hl
    obtain ⟨out, rest, hx, hxs, rfl⟩ := gather_cons_eq_some.mp hl
    obtain ⟨hle, heq⟩ := hc.1 out hx
    obtain ⟨hle', heq'⟩ := covers_gather hc.2 rest hxs
    rw [List.flatMap_cons, List.length_append, List.length_append]
    refine ⟨by omega, fun hlen => ?_⟩
    rw [heq (by omega), heq' (by omega)]

/-- **The loop puts out what it should if each step does.** -/
theorem gather_eq_some_iff : ∀ {xs : List α}, (∀ x ∈ xs, Covers (h x) (g x)) →
    (gather g xs = some (xs.flatMap h) ↔ ∀ x ∈ xs, g x = some (h x))
  | [], _ => by simp [gather]
  | x :: xs, hc => by
    rw [List.forall_mem_cons] at hc
    rw [List.forall_mem_cons, ← gather_eq_some_iff hc.2, gather_cons_eq_some, List.flatMap_cons]
    constructor
    · rintro ⟨out, rest, hx, hxs, happ⟩
      obtain ⟨hle, heq⟩ := hc.1 out hx
      obtain ⟨hle', heq'⟩ := covers_gather hc.2 rest hxs
      have hlen := congrArg List.length happ
      rw [List.length_append, List.length_append] at hlen
      rw [heq (by omega)] at hx
      rw [heq' (by omega)] at hxs
      exact ⟨hx, hxs⟩
    · rintro ⟨hx, hxs⟩
      exact ⟨h x, xs.flatMap h, hx, hxs, rfl⟩

/-- A loop over the indices of converted elements, whose steps all put out something. -/
theorem collect_map_eq_flatMap {γ : Type} {c : γ → α} {h : γ → List β} {xs : List γ} {n : Nat}
    (hn : xs.length = n) (hg : ∀ x ∈ xs, g (c x) = some (h x)) :
    collect n (fun i => (xs.map c)[i]?.bind g) = some (xs.flatMap h) := by
  subst hn
  simp only [List.getElem?_map, Option.bind_map]
  rw [collect_getElem?]
  exact (gather_eq_some_iff fun x hx => covers_of_eq (hg x hx)).mpr hg

end
