import Mathlib.Data.List.Chain

/-!
# Runs of a step function

A system that takes one step at a time: `step e s` is the state after the event `e`,
or `none` where `e` cannot happen in `s`.

- `steps` is a run, `steps_append` its composition.
- `steps_invariant` and `steps_history` say what holds at the end of a run: a property
  of the state that every step keeps, or one of the state and the events so far.
- `steps_total`: where every event can happen, no run stops.
- `steps_chain`: a run of events that follow one another does not stop.
- `steps_rank`: a rank that no step raises and the counted steps lower bounds how many
  of these there are.
-/

variable {ε σ : Type} {step : ε → σ → Option σ}

/-- One step after the other. -/
def steps (step : ε → σ → Option σ) : List ε → σ → Option σ
  | [], s => some s
  | e :: es, s => (step e s).bind (steps step es)

theorem steps_cons {e : ε} {es : List ε} {s t : σ} (h : steps step (e :: es) s = some t) :
    ∃ u, step e s = some u ∧ steps step es u = some t :=
  Option.bind_eq_some_iff.mp h

theorem steps_append (es fs : List ε) (s : σ) :
    steps step (es ++ fs) s = (steps step es s).bind (steps step fs) := by
  induction es generalizing s with
  | nil => rfl
  | cons e es ih =>
    show (step e s).bind (steps step (es ++ fs)) = _
    cases hstep : step e s with
    | none => simp [steps, hstep]
    | some t => simpa [steps, hstep] using ih t

/-- A run through an event, in its parts. -/
theorem steps_split {es fs : List ε} {e : ε} {s t : σ}
    (h : steps step (es ++ e :: fs) s = some t) :
    ∃ u v, steps step es s = some u ∧ step e u = some v ∧ steps step fs v = some t := by
  rw [steps_append] at h
  obtain ⟨u, hes, hrest⟩ := Option.bind_eq_some_iff.mp h
  obtain ⟨v, hstep, hfs⟩ := steps_cons hrest
  exact ⟨u, v, hes, hstep, hfs⟩

theorem steps_invariant {I : σ → Prop} (hI : ∀ {e s t}, step e s = some t → I s → I t)
    {es : List ε} {s t : σ} (h : steps step es s = some t) (hs : I s) : I t := by
  induction es generalizing s with
  | nil =>
    cases h
    exact hs
  | cons e es ih =>
    obtain ⟨u, hstep, hrest⟩ := steps_cons h
    exact ih hrest (hI hstep hs)

/-- Where every event can happen and keeps the invariant, no run stops. -/
theorem steps_total {I : σ → Prop} (hI : ∀ e s, I s → ∃ t, step e s = some t ∧ I t)
    (es : List ε) {s : σ} (hs : I s) : ∃ t, steps step es s = some t ∧ I t := by
  induction es generalizing s with
  | nil => exact ⟨s, rfl, hs⟩
  | cons e es ih =>
    obtain ⟨t, hstep, ht⟩ := hI e s hs
    obtain ⟨u, hsteps, hu⟩ := ih ht
    refine ⟨u, ?_, hu⟩
    show (step e s).bind (steps step es) = some u
    rw [hstep]
    exact hsteps

/-- A property of the state and the events that led to it. -/
theorem steps_history {I : List ε → σ → Prop}
    (hI : ∀ {past e s t}, step e s = some t → I past s → I (past ++ [e]) t)
    {es : List ε} {s t : σ} (h : steps step es s = some t) (hs : I [] s) : I es t := by
  suffices hlast : ∀ {es past s}, steps step es s = some t → I past s → I (past ++ es) t from
    hlast h hs
  intro es
  induction es with
  | nil =>
    intro past s h hs
    cases h
    rwa [List.append_nil]
  | cons e es ih =>
    intro past s h hs
    obtain ⟨u, hstep, hrest⟩ := steps_cons h
    have hlast := ih hrest (hI hstep hs)
    rwa [List.append_assoc] at hlast

/-- Events that may follow one another, where the state is always right for the last one: the
run does not stop, and its state is right for the last event. -/
theorem steps_chain {R : ε → ε → Prop} {I : ε → σ → Prop}
    (hI : ∀ {e f s}, R e f → I e s → ∃ t, step f s = some t ∧ I f t)
    {e : ε} {es : List ε} {s : σ} (h : List.IsChain R (e :: es)) (hs : I e s) :
    ∃ t, steps step es s = some t ∧ I (es.getLastD e) t := by
  induction es generalizing e s with
  | nil => exact ⟨s, rfl, hs⟩
  | cons f es ih =>
    obtain ⟨hnext, hrest⟩ := List.isChain_cons_cons.mp h
    obtain ⟨u, hstep, hu⟩ := hI hnext hs
    obtain ⟨t, hrun, ht⟩ := ih hrest hu
    refine ⟨t, ?_, ?_⟩
    · rw [steps, hstep]
      exact hrun
    · rwa [List.getLastD_cons]

/-- Where it does not matter which event was the last one. -/
theorem isChain_cons_of_forall {P : ε → Prop} {e : ε} {es : List ε} (h : ∀ f ∈ es, P f) :
    List.IsChain (fun _ f => P f) (e :: es) := by
  induction es generalizing e with
  | nil => exact .singleton e
  | cons f es ih =>
    exact .cons_cons (h f List.mem_cons_self) (ih fun g hg => h g (List.mem_cons_of_mem f hg))

/-- The steps that lower the rank are at most as many as the rank they start from. -/
theorem steps_rank {I : σ → Prop} (rank : σ → Nat) {counted : ε → Bool}
    (hI : ∀ {e s t}, step e s = some t → I s →
      I t ∧ rank t + (if counted e then 1 else 0) ≤ rank s)
    {es : List ε} {s t : σ} (h : steps step es s = some t) (hs : I s) :
    rank t + es.countP counted ≤ rank s := by
  induction es generalizing s with
  | nil =>
    cases h
    exact Nat.le_refl _
  | cons e es ih =>
    obtain ⟨u, hstep, hrest⟩ := steps_cons h
    obtain ⟨hu, hle⟩ := hI hstep hs
    have hrun := ih hrest hu
    rw [List.countP_cons]
    omega
