/-!
# Status-returning routines

C code without exceptions follows one calling convention: a routine runs on
some state, writes through its out parameters, and returns a status. The
caller tests the status at once (`if(rv != GOOD) return rv;`), accumulates it
(`ret |= next();` and go on), or drops it. `Routine ε σ α` is that convention
as a monad, with the state a routine leaves behind kept on *every* exit, and a
third outcome for what the language leaves undefined (an access outside the
memory the program owns).

- `Routine.bind` is the early return; `accumGuard`/`accum` the accumulating
  style; `dropStatus` the status nobody reads; `onFail` the caller that patches
  state and status of a failed callee; `zoom` a call on a part of the state;
  `loopFrom`/`forUpTo` a counting loop; `times` a loop that fills an array.
- inversion lemmas (`bind_eq_done`, `accumGuard_eq_done`, …) read a successful
  run backwards.
- `Spec` is the Hoare triple with one postcondition per exit; `Spec.bind` and
  `Spec.conseq` are its rules.
- `Curtails` relates a routine to the same routine run on less input: the
  second agrees with every success of the first, or fails.
-/

/-- How a routine ends: with a value, with an error status, or in behaviour the
language leaves undefined. The state is kept on both regular exits. -/
inductive Outcome (ε σ α : Type) where
  | done (val : α) (st : σ)
  | fail (code : ε) (st : σ)
  | fault

/-- The outcome of a run that started with the error `e` already accumulated. -/
def Outcome.after {ε σ α : Type} [OrOp ε] (e : ε) : Outcome ε σ α → Outcome ε σ α
  | .done _ u => .fail e u
  | .fail e' u => .fail (e ||| e') u
  | .fault => .fault

/-- A status-returning routine on the state `σ`. -/
def Routine (ε σ α : Type) : Type := σ → Outcome ε σ α

namespace Routine

variable {ε σ τ α β : Type}

/-! ## The operations -/

instance : Monad (Routine ε σ) where
  pure a := fun s => .done a s
  bind x f := fun s =>
    match x s with
    | .done a t => f a t
    | .fail e t => .fail e t
    | .fault => .fault

/-- `return code;` -/
def fail (e : ε) : Routine ε σ α := fun s => .fail e s

/-- An access the language gives no meaning to. -/
def fault : Routine ε σ α := fun _ => .fault

/-- Read a part of the state. -/
def gets (f : σ → α) : Routine ε σ α := fun s => .done (f s) s

/-- Assign to the state. -/
def modify (f : σ → σ) : Routine ε σ Unit := fun s => .done () (f s)

/-- `ret |= x(); if(!g) return code; f`: run `x` and go on whatever its status
was. The guard `g` returns early, with its own status *instead of* the
accumulated one. After a failed `x` its out parameter still holds the default
it was initialised with. -/
def accumGuard [OrOp ε] [Inhabited α] (x : Routine ε σ α) (g : Routine ε σ Unit)
    (f : α → Routine ε σ β) : Routine ε σ β := fun s =>
  match x s with
  | .done a t => (g >>= fun _ => f a) t
  | .fail e t =>
    match g t with
    | .done _ t' => (f default t').after e
    | .fail e' t' => .fail e' t'
    | .fault => .fault
  | .fault => .fault

/-- `ret |= x(); f`, with no early return in between. -/
def accum [OrOp ε] [Inhabited α] (x : Routine ε σ α) (f : α → Routine ε σ β) :
    Routine ε σ β :=
  accumGuard x (pure ()) f

/-- Call `x` and never look at the status it returned. -/
def dropStatus (x : Routine ε σ Unit) : Routine ε σ Unit := fun s =>
  match x s with
  | .done _ t => .done () t
  | .fail _ t => .done () t
  | .fault => .fault

/-- Patch the state and the status when `x` fails; the patch sees the state
from before the call. -/
def onFail (x : Routine ε σ α) (h : σ → ε → σ → ε × σ) : Routine ε σ α := fun s =>
  match x s with
  | .done a t => .done a t
  | .fail e t => .fail (h s e t).1 (h s e t).2
  | .fault => .fault

/-- Call a routine on a part of the state. -/
def zoom (get : σ → τ) (set : τ → σ → σ) (x : Routine ε τ α) : Routine ε σ α :=
  fun s =>
    match x (get s) with
    | .done a t => .done a (set t s)
    | .fail e t => .fail e (set t s)
    | .fault => .fault

/-- `n` iterations of `body(i++);`. -/
def loopFrom (body : Nat → Routine ε σ Unit) : Nat → Nat → Routine ε σ Unit
  | _, 0 => pure ()
  | i, n + 1 => do
    body i
    loopFrom body (i + 1) n

/-- `for(i = 0; i < n; i++) body(i);` -/
def forUpTo (n : Nat) (body : Nat → Routine ε σ Unit) : Routine ε σ Unit :=
  loopFrom body 0 n

/-- `if(c) x();`, where the out parameter keeps its default otherwise. -/
def whenSet [Inhabited α] (c : Bool) (x : Routine ε σ α) : Routine ε σ α :=
  if c then x else pure default

/-- Run `x` `n` times and collect the values. -/
def times (x : Routine ε σ α) : Nat → Routine ε σ (List α)
  | 0 => pure []
  | n + 1 => do
    let a ← x
    let as ← times x n
    pure (a :: as)

/-! ## Running the operations -/

@[simp] theorem pure_run (a : α) (s : σ) :
    (pure a : Routine ε σ α) s = .done a s := rfl

@[simp] theorem fail_run (e : ε) (s : σ) :
    (fail e : Routine ε σ α) s = .fail e s := rfl

@[simp] theorem fault_run (s : σ) : (fault : Routine ε σ α) s = .fault := rfl

@[simp] theorem gets_run (f : σ → α) (s : σ) :
    (gets f : Routine ε σ α) s = .done (f s) s := rfl

@[simp] theorem modify_run (f : σ → σ) (s : σ) :
    (modify f : Routine ε σ Unit) s = .done () (f s) := rfl

/-- What follows runs on a success only. -/
theorem bind_run (x : Routine ε σ α) (f : α → Routine ε σ β) (s : σ) :
    (x >>= f) s = match x s with
      | .done a t => f a t
      | .fail e t => .fail e t
      | .fault => .fault := rfl

theorem bind_done {x : Routine ε σ α} {f : α → Routine ε σ β} {s t : σ} {a : α}
    (h : x s = .done a t) : (x >>= f) s = f a t := by
  rw [bind_run, h]

theorem bind_fail {x : Routine ε σ α} {f : α → Routine ε σ β} {s t : σ} {e : ε}
    (h : x s = .fail e t) : (x >>= f) s = .fail e t := by
  rw [bind_run, h]

theorem bind_fault {x : Routine ε σ α} {f : α → Routine ε σ β} {s : σ}
    (h : x s = .fault) : (x >>= f) s = .fault := by
  rw [bind_run, h]

theorem accumGuard_done [OrOp ε] [Inhabited α] {x : Routine ε σ α}
    {g : Routine ε σ Unit} {f : α → Routine ε σ β} {s t t' : σ} {a : α}
    (hx : x s = .done a t) (hg : g t = .done () t') :
    accumGuard x g f s = f a t' := by
  simp only [accumGuard, hx, bind_run, hg]

/-- After a failed `x` the guard still runs, and then the rest on the default. -/
theorem accumGuard_fail [OrOp ε] [Inhabited α] {x : Routine ε σ α}
    {g : Routine ε σ Unit} {f : α → Routine ε σ β} {s t : σ} {e : ε}
    (hx : x s = .fail e t) :
    accumGuard x g f s = match g t with
      | .done _ t' => (f default t').after e
      | .fail e' t' => .fail e' t'
      | .fault => .fault := by
  simp only [accumGuard, hx]

theorem accum_done [OrOp ε] [Inhabited α] {x : Routine ε σ α}
    {f : α → Routine ε σ β} {s t : σ} {a : α} (hx : x s = .done a t) :
    accum x f s = f a t :=
  accumGuard_done hx rfl

/-- Three in a row. -/
theorem bind_assoc {γ : Type} (x : Routine ε σ α) (f : α → Routine ε σ β)
    (g : β → Routine ε σ γ) : (x >>= f) >>= g = x >>= fun a => f a >>= g := by
  funext s
  simp only [bind_run]
  cases x s <;> rfl

/-! ## Reading a successful run backwards -/

/-- Both succeeded. -/
theorem bind_eq_done {x : Routine ε σ α} {f : α → Routine ε σ β} {s u : σ} {b : β} :
    (x >>= f) s = .done b u ↔ ∃ a t, x s = .done a t ∧ f a t = .done b u := by
  rw [bind_run]
  cases x s with
  | done a t =>
    constructor
    · exact fun h => ⟨a, t, rfl, h⟩
    · rintro ⟨_, _, ⟨rfl, rfl⟩, h⟩
      exact h
  | fail e t => simp
  | fault => simp

/-- What runs after a failure cannot make the whole a success. -/
theorem after_ne_done [OrOp ε] (e : ε) (o : Outcome ε σ α) (a : α) (u : σ) :
    o.after e ≠ .done a u := by
  cases o <;> simp [Outcome.after]

/-- All three succeeded. -/
theorem accumGuard_eq_done [OrOp ε] [Inhabited α] {x : Routine ε σ α}
    {g : Routine ε σ Unit} {f : α → Routine ε σ β} {s u : σ} {b : β} :
    accumGuard x g f s = .done b u ↔
      ∃ a t t', x s = .done a t ∧ g t = .done () t' ∧ f a t' = .done b u := by
  constructor
  · intro h
    unfold accumGuard at h
    cases hx : x s with
    | done a t =>
      rw [hx] at h
      obtain ⟨_, t', hg, hf⟩ := bind_eq_done.mp h
      exact ⟨a, t, t', rfl, hg, hf⟩
    | fault => simp [hx] at h
    | fail e t =>
      cases hg : g t with
      | done c t' => simp [hx, hg, after_ne_done] at h
      | fail e' t' => simp [hx, hg] at h
      | fault => simp [hx, hg] at h
  · rintro ⟨a, t, t', hx, hg, hf⟩
    rw [accumGuard_done hx hg, hf]

/-- Both succeeded. -/
theorem accum_eq_done [OrOp ε] [Inhabited α] {x : Routine ε σ α}
    {f : α → Routine ε σ β} {s u : σ} {b : β} :
    accum x f s = .done b u ↔ ∃ a t, x s = .done a t ∧ f a t = .done b u := by
  simp [accum, accumGuard_eq_done]

/-- On a part of the state. -/
theorem zoom_eq_done {get : σ → τ} {set : τ → σ → σ} {x : Routine ε τ α} {s u : σ}
    {a : α} :
    zoom get set x s = .done a u ↔ ∃ t, x (get s) = .done a t ∧ u = set t s := by
  unfold zoom
  cases x (get s) with
  | done a' t =>
    simp only [Outcome.done.injEq]
    constructor
    · rintro ⟨rfl, rfl⟩
      exact ⟨t, ⟨rfl, rfl⟩, rfl⟩
    · rintro ⟨t', ⟨rfl, rfl⟩, rfl⟩
      exact ⟨rfl, rfl⟩
  | fail e t => simp
  | fault => simp

theorem map_eq_done {x : Routine ε σ α} {f : α → β} {s u : σ} {b : β} :
    (f <$> x) s = .done b u ↔ ∃ a, x s = .done a u ∧ b = f a := by
  show (x >>= fun a => pure (f a)) s = _ ↔ _
  rw [bind_eq_done]
  constructor
  · rintro ⟨a, t, hx, h⟩
    cases h
    exact ⟨a, hx, rfl⟩
  · rintro ⟨a, hx, rfl⟩
    exact ⟨a, u, hx, rfl⟩

theorem map_done {x : Routine ε σ α} {f : α → β} {s u : σ} {a : α}
    (h : x s = .done a u) : (f <$> x) s = .done (f a) u :=
  map_eq_done.mpr ⟨a, h, rfl⟩

theorem loopFrom_succ (body : Nat → Routine ε σ Unit) (i n : Nat) :
    loopFrom body i (n + 1) = (body i >>= fun _ => loopFrom body (i + 1) n) := rfl

theorem times_succ (x : Routine ε σ α) (n : Nat) :
    times x (n + 1) = (x >>= fun a => times x n >>= fun as => pure (a :: as)) := rfl

end Routine

/-! ## Hoare triples with one postcondition per exit -/

/-- The outcome is regular and satisfies the postcondition of its exit. -/
def Outcome.Sat {ε σ α : Type} (o : Outcome ε σ α) (Q : α → σ → Prop)
    (E : ε → σ → Prop) : Prop :=
  match o with
  | .done a t => Q a t
  | .fail e t => E e t
  | .fault => False

namespace Outcome

variable {ε σ α : Type} {Q Q' : α → σ → Prop} {E E' : ε → σ → Prop}

@[simp] theorem sat_done {a : α} {t : σ} : (done a t : Outcome ε σ α).Sat Q E ↔ Q a t :=
  Iff.rfl

@[simp] theorem sat_fail {e : ε} {t : σ} : (fail e t : Outcome ε σ α).Sat Q E ↔ E e t :=
  Iff.rfl

@[simp] theorem sat_fault : (fault : Outcome ε σ α).Sat Q E ↔ False := Iff.rfl

/-- Weaker postconditions. -/
theorem Sat.imp {o : Outcome ε σ α} (h : o.Sat Q E) (hQ : ∀ a t, Q a t → Q' a t)
    (hE : ∀ e t, E e t → E' e t) : o.Sat Q' E' := by
  cases o with
  | done a t => exact hQ a t h
  | fail e t => exact hE e t h
  | fault => exact h

end Outcome

namespace Routine

variable {ε σ τ α β : Type}

/-- `{P} x {Q | E}`: started in a state with `P`, the routine ends regularly,
with `Q` on success and with `E` on failure. In particular it never reaches
undefined behaviour. -/
def Spec (P : σ → Prop) (x : Routine ε σ α) (Q : α → σ → Prop) (E : ε → σ → Prop) :
    Prop :=
  ∀ s, P s → (x s).Sat Q E

/-- Sequencing, from one initial state. -/
theorem bind_sat {x : Routine ε σ α} {f : α → Routine ε σ β} {s : σ} {Q : α → σ → Prop}
    {R : β → σ → Prop} {E : ε → σ → Prop} (hx : (x s).Sat Q E)
    (hf : ∀ a t, Q a t → (f a t).Sat R E) : ((x >>= f) s).Sat R E := by
  rw [bind_run]
  cases hxs : x s with
  | done a t =>
    rw [hxs] at hx
    exact hf a t hx
  | fail e t =>
    rw [hxs] at hx
    exact hx
  | fault =>
    rw [hxs] at hx
    exact hx

namespace Spec

variable {P P' : σ → Prop} {Q Q' : α → σ → Prop} {R : β → σ → Prop}
  {E E' : ε → σ → Prop}

theorem pure {a : α} (h : ∀ s, P s → Q a s) :
    Spec P (Pure.pure a : Routine ε σ α) Q E := h

theorem fail {e : ε} (h : ∀ s, P s → E e s) :
    Spec P (Routine.fail e : Routine ε σ α) Q E := h

theorem modify {f : σ → σ} {Q : Unit → σ → Prop} (h : ∀ s, P s → Q () (f s)) :
    Spec P (Routine.modify f : Routine ε σ Unit) Q E := h

/-- The rule of consequence. -/
theorem conseq {x : Routine ε σ α} (h : Spec P' x Q' E') (hP : ∀ s, P s → P' s)
    (hQ : ∀ a s, Q' a s → Q a s) (hE : ∀ e s, E' e s → E e s) : Spec P x Q E :=
  fun s hs => (h s (hP s hs)).imp hQ hE

/-- The early-return rule: the error postcondition holds wherever the sequence
stops. -/
theorem bind {x : Routine ε σ α} {f : α → Routine ε σ β} (hx : Spec P x Q E)
    (hf : ∀ a, Spec (Q a) (f a) R E) : Spec P (x >>= f) R E := fun s hs =>
  bind_sat (hx s hs) fun a => hf a

end Spec

/-! ## The same routine on less input -/

/-- `x'` agrees with every success of `x`, or fails. -/
def Curtails (P : σ → Prop) (x x' : Routine ε σ α) : Prop :=
  ∀ s, P s → ∀ a t, x s = .done a t →
    x' s = .done a t ∨ ∃ e t', x' s = .fail e t'

namespace Curtails

variable {P : σ → Prop}

/-- On the same input. -/
theorem refl (x : Routine ε σ α) : Curtails P x x := fun _ _ _ _ h => .inl h

/-- Sequencing: where `x'` succeeds, the rest may be compared from there on. -/
theorem bind {x x' : Routine ε σ α} {f f' : α → Routine ε σ β} {P' : σ → Prop}
    (hx : Curtails P x x') (hP : ∀ s a t, P s → x' s = .done a t → P' t)
    (hf : ∀ a, Curtails P' (f a) (f' a)) : Curtails P (x >>= f) (x' >>= f') := by
  intro s hs b u h
  obtain ⟨a, t, hxs, hfa⟩ := bind_eq_done.mp h
  rcases hx s hs a t hxs with hx' | ⟨e, t', hx'⟩
  · rcases hf a t (hP s a t hs hx') b u hfa with hf' | ⟨e, t', hf'⟩
    · exact .inl (by rw [bind_done hx', hf'])
    · exact .inr ⟨e, t', by rw [bind_done hx', hf']⟩
  · exact .inr ⟨e, t', bind_fail hx'⟩

/-- Accumulation: once `x'` has failed the run ends in a failure, provided what
still runs ends regularly. -/
theorem accumGuard [OrOp ε] [Inhabited α] {x x' : Routine ε σ α}
    {g g' : Routine ε σ Unit} {f f' : α → Routine ε σ β} {P₁ P₂ : σ → Prop}
    (hx : Curtails P x x') (hg : Curtails P₁ g g') (hf : ∀ a, Curtails P₂ (f a) (f' a))
    (hxP : Spec P x' (fun _ => P₁) (fun _ => P₁))
    (hgP : Spec P₁ g' (fun _ => P₂) (fun _ _ => True))
    (hfP : ∀ a, Spec P₂ (f' a) (fun _ _ => True) (fun _ _ => True)) :
    Curtails P (Routine.accumGuard x g f) (Routine.accumGuard x' g' f') := by
  intro s hs b u h
  obtain ⟨a, t, t', hxs, hgt, hft⟩ := accumGuard_eq_done.mp h
  have hP₁ := hxP s hs
  -- the first of the three that is curtailed decides
  rcases hx s hs a t hxs with hx' | ⟨e, v, hx'⟩
  · rw [hx'] at hP₁
    have hP₂ := hgP t hP₁
    rcases hg t hP₁ () t' hgt with hg' | ⟨e, v, hg'⟩
    · rw [hg'] at hP₂
      rw [accumGuard_done hx' hg']
      exact hf a t' hP₂ b u hft
    · refine .inr ⟨e, v, ?_⟩
      simp only [Routine.accumGuard, hx']
      exact bind_fail hg'
  · -- `x'` has failed: whatever follows, the accumulated status is an error
    rw [hx'] at hP₁
    have hP₂ := hgP v hP₁
    right
    simp only [Routine.accumGuard, hx']
    cases hg' : g' v with
    | done c w =>
      rw [hg'] at hP₂
      have hend := hfP default w hP₂
      cases hf' : f' default w with
      | done c' z => exact ⟨e, z, by simp [Outcome.after, hf']⟩
      | fail e' z => exact ⟨e ||| e', z, by simp [Outcome.after, hf']⟩
      | fault =>
        rw [hf'] at hend
        exact absurd hend (by simp)
    | fail e' w => exact ⟨e', w, rfl⟩
    | fault =>
      rw [hg'] at hP₂
      exact absurd hP₂ (by simp)

theorem ite {c : Prop} [Decidable c] {x x' y y' : Routine ε σ α}
    (hx : c → Curtails P x x') (hy : ¬ c → Curtails P y y') :
    Curtails P (if c then x else y) (if c then x' else y') := by
  by_cases hc : c
  · rw [if_pos hc, if_pos hc]
    exact hx hc
  · rw [if_neg hc, if_neg hc]
    exact hy hc

/-- Fewer states to start in. -/
theorem mono {x x' : Routine ε σ α} {P' : σ → Prop} (h : Curtails P' x x')
    (hP : ∀ s, P s → P' s) : Curtails P x x' := fun s hs => h s (hP s hs)

end Curtails

end Routine
