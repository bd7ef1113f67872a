import OpenPubSub.Lib.Steps
import OpenPubSub.Subscriber.Run

/-!
# Stopping the subscriber

`main` of the playground, `init`, `Subscriber::run` and `stopHandler` of
`subscription.cpp`, one step at a time. A stop request may come between any two steps
once the handlers are installed.

- `Main.step` is the program: the location of `main`, what each step does, and what a
  call of `listen` returns, for every answer of the allocation and of `receive`.
- `run` sets `m_running` at its entry, as the constructor did before. A stop that
  `init` already lets through is overwritten there (`stop_run`).
- `fresh_step`: between two calls of `listen` the Subscriber is as it was constructed, so a
  call comes back from every harmless answer (`goesOn_of_fresh`).
- **`stops_honoured`**: in every run without such a stop, no call starts after the first
  test that follows a stop, `run` returns after at most three more steps of its own, and
  it returns for no other reason than a stop or a failed allocation. Each of these steps can
  be taken, whatever is received, as long as the datagrams are harmless.
- `stop_kept_iff`: for each stop by itself, the one that is lost is the one before
  `run`'s entry.
-/

namespace OpenPubSub

open Routine

/-! ## The program -/

/-- Where `main` is: before `init`, before `run`, at the test of the loop, in its body,
in a call of `listen`, behind the loop. -/
inductive Location where
  | constructed | installed | loopTest | loopBody | listening | returned
  deriving DecidableEq, Repr

/-- `main`, with the Subscriber it declares, its `m_running` and the `retval` of `run`. -/
structure Main where
  location : Location
  running : Bool
  retval : StatusCode
  subscriber : Subscriber

/-- `Subscriber sub;`. The initialiser of `m_running` is `true`. -/
def Main.new : Main := ⟨.constructed, true, good, Subscriber.new⟩

/-- What a call of `listen` meets: no memory for its buffer, or an answer of the channel. -/
inductive Answer where
  | allocationFailed (status : ErrorCode)
  | received (r : Received)

inductive Event where
  | init
  | run
  | test
  | call
  | listened (a : Answer)
  | stop

/-- A step of `main`, not one of the handler. -/
def Event.isOwn : Event → Bool
  | .stop => false
  | _ => true

variable (T : DataTypes)

/-- `retval = listen();`, from the call to the assignment. A call that runs into undefined
behaviour does not come back. -/
def Main.listened (m : Main) : Answer → Option Main
  | .allocationFailed e =>
    some { m with
      location := .loopTest, retval := e.val, subscriber := { m.subscriber with buffer := none } }
  | .received r =>
    match listen T r m.subscriber with
    | .done l s => some { m with location := .loopTest, retval := l.status, subscriber := s }
    | _ => none

def Main.step (e : Event) (m : Main) : Option Main :=
  match m.location, e with
  | .constructed, .stop => none
  -- `stopSubcription` writes the flag, wherever `main` is
  | _, .stop => some { m with running := false }
  | .constructed, .init => some { m with location := .installed }
  -- the flag is set a second time, whatever it is by now
  | .installed, .run => some { m with location := .loopTest, running := true, retval := good }
  | .loopTest, .test =>
    some { m with location := if m.running ∧ m.retval = good then .loopBody else .returned }
  | .loopBody, .call => some { m with location := .listening }
  | .listening, .listened a => m.listened T a
  | _, _ => none

/-- The events of a run, from the declaration of the Subscriber. -/
def Main.after (es : List Event) : Option Main := steps (Main.step T) es Main.new

/-! ## What is asked of a run -/

/-- A call of `listen` comes back from this answer. -/
def Answer.Harmless (T : DataTypes) : Answer → Prop
  | .allocationFailed _ => True
  | .received r => OpenPubSub.Harmless T r

/-- `main` can go on, whatever it is that it waits for: a call of `listen` may meet any
harmless answer. -/
def Main.GoesOn (m : Main) : Prop :=
  match m.location with
  | .listening => ∀ a : Answer, a.Harmless T → (m.step T (.listened a)).isSome
  | _ => ∃ e, e.isOwn = true ∧ (m.step T e).isSome

/-- A run that ends in `m`. -/
structure StopsHonoured (es : List Event) (m : Main) : Prop where
  /-- No call starts after the first test that follows a stop. -/
  quiet : ∀ pre mid post, es = pre ++ .stop :: (mid ++ .call :: post) → .test ∉ mid
  /-- After a stop `run` has returned, or it can go on and has taken at most two of the
  three steps it has left. -/
  returns : ∀ pre mid, es = pre ++ .stop :: mid → m.location = .returned ∨
    mid.countP Event.isOwn ≤ 2 ∧ m.GoesOn T
  /-- `run` returns only when it was told to, or when there was no memory. -/
  told : m.location = .returned → .stop ∈ es ∨ ∃ e, .listened (.allocationFailed e) ∈ es

/-- No stop comes before `run`'s entry. -/
def stopsAfterEntry : List Event → Bool
  | [] => true
  | .run :: _ => true
  | .stop :: _ => false
  | _ :: es => stopsAfterEntry es

variable {T}

/-! ## One step -/

/-- The status of `listen` is GOOD, whatever was received. -/
theorem listen_status {r : Received} {s s' : Subscriber} {l : Listened}
    (h : listen T r s = .done l s') : l.status = good := by
  by_cases hp : r.Processed
  · rcases decodeAt_cases r.bytes T 0 with ⟨t, hd⟩ | ⟨e, t, hd⟩
    · rw [listen_accepted hp hd] at h
      cases hreports : networkMessageReports t.dst with
      | none =>
        rw [hreports] at h
        cases h
      | some reports =>
        rw [hreports] at h
        cases h
        rfl
    · rw [listen_rejected hp hd] at h
      split at h
      · cases h
        rfl
      · cases h
  · rw [listen_idle hp] at h
    cases h
    rfl

/-- **What a step can do**, from which location to which. -/
inductive Main.Step (T : DataTypes) (m : Main) : Event → Main → Prop where
  | stop (h : m.location ≠ .constructed) : Main.Step T m .stop { m with running := false }
  | init (h : m.location = .constructed) : Main.Step T m .init { m with location := .installed }
  | run (h : m.location = .installed) :
      Main.Step T m .run { m with location := .loopTest, running := true, retval := good }
  | again (h : m.location = .loopTest) (hrun : m.running = true) (hgood : m.retval = good) :
      Main.Step T m .test { m with location := .loopBody }
  | leave (h : m.location = .loopTest) (hstop : m.running = false ∨ m.retval ≠ good) :
      Main.Step T m .test { m with location := .returned }
  | call (h : m.location = .loopBody) : Main.Step T m .call { m with location := .listening }
  | unallocated (h : m.location = .listening) (e : ErrorCode) :
      Main.Step T m (.listened (.allocationFailed e))
        { m with
          location := .loopTest, retval := e.val
          subscriber := { m.subscriber with buffer := none } }
  | received (h : m.location = .listening) (r : Received) (l : Listened) (s : Subscriber)
      (hlisten : listen T r m.subscriber = .done l s) :
      Main.Step T m (.listened (.received r))
        { m with location := .loopTest, retval := good, subscriber := s }

theorem main_step_listened {m m' : Main} {a : Answer} (hloc : m.location = .listening)
    (h : m.listened T a = some m') : Main.Step T m (.listened a) m' := by
  cases a with
  | allocationFailed e =>
    cases h
    exact .unallocated hloc e
  | received r =>
    simp only [Main.listened] at h
    split at h
    · next l s hl =>
      cases h
      rw [listen_status hl]
      exact .received hloc r l s hl
    · cases h

theorem main_step {m m' : Main} {e : Event} (h : m.step T e = some m') : Main.Step T m e m' := by
  unfold Main.step at h
  split at h
  · cases h
  · next hloc =>
    cases h
    exact .stop hloc
  · next hloc =>
    cases h
    exact .init hloc
  · next hloc =>
    cases h
    exact .run hloc
  · next hloc =>
    cases h
    -- the loop test: another call, or the loop is left
    split
    · next hon => exact .again hloc hon.1 hon.2
    · next hoff =>
      refine .leave hloc ?_
      by_cases hrun : m.running = true
      · exact .inr fun hgood => hoff ⟨hrun, hgood⟩
      · exact .inl (Bool.eq_false_iff.mpr hrun)
  · next hloc =>
    cases h
    exact .call hloc
  · next hloc => exact main_step_listened hloc h
  · cases h

/-! ## After a stop -/

/-- `run` has been entered. -/
def Location.Entered : Location → Prop
  | .constructed | .installed => False
  | _ => True

/-- How many of its own steps `run` has left once the flag is down. -/
def Location.left : Location → Nat
  | .loopBody => 3
  | .listening => 2
  | .loopTest => 1
  | _ => 0

/-- `run` has been told to stop and has not returned to its entry. -/
structure Main.Told (m : Main) : Prop where
  entered : m.location.Entered
  down : m.running = false

theorem entered_step {m m' : Main} {e : Event} (h : m.step T e = some m')
    (hm : m.location.Entered) : m'.location.Entered := by
  cases main_step h with
  | stop => exact hm
  | init hloc => rw [hloc] at hm; exact hm.elim
  | _ => trivial

/-- A step after a stop leaves the flag down, and each one of `main`'s own brings it
nearer to the end. -/
theorem told_step {m m' : Main} {e : Event} (h : m.step T e = some m') (hm : m.Told) :
    m'.Told ∧ m'.location.left + (if e.isOwn then 1 else 0) ≤ m.location.left := by
  obtain ⟨hentered, hdown⟩ := hm
  refine ⟨⟨entered_step h hentered, ?_⟩, ?_⟩
  · cases main_step h with
    | run hloc => rw [hloc] at hentered; exact hentered.elim
    | stop => rfl
    | _ => exact hdown
  · cases main_step h with
    | stop => exact Nat.le_refl _
    | init hloc => rw [hloc] at hentered; exact hentered.elim
    | run hloc => rw [hloc] at hentered; exact hentered.elim
    | again _ hrun => rw [hdown] at hrun; cases hrun
    | leave hloc | call hloc | unallocated hloc | received hloc =>
      rw [hloc]
      exact Nat.le_refl _

theorem returned_step {m m' : Main} {e : Event} (h : m.step T e = some m')
    (hm : m.location = .returned) : m'.location = .returned := by
  cases main_step h with
  | stop => exact hm
  | leave => rfl
  | init hloc | run hloc | again hloc | call hloc | unallocated hloc | received hloc =>
    rw [hm] at hloc
    cases hloc

/-- The first test after a stop leaves the loop. -/
theorem returned_of_test {es : List Event} {m m' : Main} (h : steps (Main.step T) es m = some m')
    (hm : m.Told) (htest : .test ∈ es) : m'.location = .returned := by
  obtain ⟨pre, post, rfl⟩ := List.append_of_mem htest
  obtain ⟨u, v, hpre, hstep, hpost⟩ := steps_split h
  have hu : u.Told := steps_invariant (I := Main.Told) (fun h hs => (told_step h hs).1) hpre hm
  refine steps_invariant (I := fun m => m.location = .returned) returned_step hpost ?_
  cases main_step hstep with
  | again _ hrun =>
    rw [hu.down] at hrun
    cases hrun
  | leave => rfl

/-! ## Between two calls -/

/-- After each call the Subscriber is as it was constructed. -/
theorem fresh_step {m m' : Main} {e : Event} (h : m.step T e = some m')
    (hm : m.subscriber = Subscriber.new) : m'.subscriber = Subscriber.new := by
  cases main_step h with
  | unallocated =>
    show ({ m.subscriber with buffer := none } : Subscriber) = Subscriber.new
    rw [hm]
    rfl
  | received _ r l s hlisten =>
    rw [hm] at hlisten
    obtain ⟨-, hs, -⟩ := (listen_step r).2 l s hlisten
    exact hs
  | _ => exact hm

theorem fresh_of_after {es : List Event} {m : Main} (h : Main.after T es = some m) :
    m.subscriber = Subscriber.new :=
  steps_invariant (I := fun m => m.subscriber = Subscriber.new) fresh_step h rfl

/-- Wherever `main` is, it can go on. -/
theorem goesOn_of_fresh {m : Main} (hfresh : m.subscriber = Subscriber.new)
    (h : m.location ≠ .returned) : m.GoesOn T := by
  unfold Main.GoesOn
  cases hloc : m.location with
  | constructed => exact ⟨.init, rfl, by simp [Main.step, hloc]⟩
  | installed => exact ⟨.run, rfl, by simp [Main.step, hloc]⟩
  | loopTest => exact ⟨.test, rfl, by simp [Main.step, hloc]⟩
  | loopBody => exact ⟨.call, rfl, by simp [Main.step, hloc]⟩
  | listening =>
    intro a ha
    cases a with
    | allocationFailed e => simp [Main.step, hloc, Main.listened]
    | received r =>
      obtain ⟨l, hl⟩ := (listen_step r).1 ha
      simp [Main.step, hloc, Main.listened, hfresh, hl]
  | returned => exact absurd hloc h

/-! ## The flag and the status -/

/-- Why the flag is down, why the status is an error, and why `run` has returned. -/
structure Explained (es : List Event) (m : Main) : Prop where
  down : m.running = false → .stop ∈ es
  error : m.retval ≠ good → ∃ e, .listened (.allocationFailed e) ∈ es
  returned : m.location = .returned → .stop ∈ es ∨ ∃ e, .listened (.allocationFailed e) ∈ es

theorem explained_step {es : List Event} {m m' : Main} {e : Event} (h : m.step T e = some m')
    (hm : Explained es m) : Explained (es ++ [e]) m' := by
  obtain ⟨hdown, herror, hreturned⟩ := hm
  have hpast : ∀ {e' : Event}, e' ∈ es → e' ∈ es ++ [e] := fun he => List.mem_append_left _ he
  have hnow : e ∈ es ++ [e] := List.mem_append_right _ (List.mem_singleton_self e)
  have herror' : m.retval ≠ good → ∃ e', .listened (.allocationFailed e') ∈ es ++ [e] :=
    fun hr => (herror hr).imp fun _ he => hpast he
  cases main_step h with
  | stop => exact ⟨fun _ => hnow, herror', fun _ => .inl hnow⟩
  | init => exact ⟨fun hd => hpast (hdown hd), herror', (nomatch ·)⟩
  | run => exact ⟨(nomatch ·), fun hr => absurd rfl hr, (nomatch ·)⟩
  | again => exact ⟨fun hd => hpast (hdown hd), herror', (nomatch ·)⟩
  | leave _ hstop =>
    refine ⟨fun hd => hpast (hdown hd), herror', fun _ => ?_⟩
    rcases hstop with hd | hr
    · exact .inl (hpast (hdown hd))
    · exact .inr (herror' hr)
  | call => exact ⟨fun hd => hpast (hdown hd), herror', (nomatch ·)⟩
  | unallocated _ e => exact ⟨fun hd => hpast (hdown hd), fun _ => ⟨e, hnow⟩, (nomatch ·)⟩
  | received =>
    exact ⟨fun hd => hpast (hdown hd), fun hr => absurd rfl hr, (nomatch ·)⟩

theorem explained_of_after {es : List Event} {m : Main} (h : Main.after T es = some m) :
    Explained es m :=
  steps_history (I := Explained) explained_step h
    ⟨(nomatch ·), fun hr => absurd rfl hr, (nomatch ·)⟩

/-! ## Every run -/

/-- Of all stops it is the one before `run`'s entry that is overwritten there. -/
theorem stop_run {m : Main} (h : m.location = .installed) :
    ((m.step T .stop).bind (Main.step T .run)) = m.step T .run := by
  simp [Main.step, h]

/-- **Which stop is kept**: after it the first test leaves the loop, unless `main` was
between `init` and `run`. -/
theorem stop_kept_iff {m m' : Main} (h : m.step T .stop = some m') :
    (∀ es m'', steps (Main.step T) es m' = some m'' → .test ∈ es → m''.location = .returned) ↔
      m.location ≠ .installed := by
  cases main_step h with
  | stop hinit =>
    constructor
    · intro hkept hloc
      have hrun : steps (Main.step T) [.run, .test] { m with running := false } =
          some { m with location := .loopBody, running := true, retval := good } := by
        simp [steps, Main.step, hloc]
      cases hkept _ _ hrun (List.mem_cons_of_mem _ (List.mem_singleton_self _))
    · intro hloc es m'' hes htest
      refine returned_of_test hes ⟨?_, rfl⟩ htest
      show m.location.Entered
      revert hinit hloc
      cases m.location <;> simp [Location.Entered]

theorem run_mem_of_stop {pre post : List Event}
    (h : stopsAfterEntry (pre ++ .stop :: post) = true) : .run ∈ pre := by
  induction pre with
  | nil => cases h
  | cons e pre ih =>
    cases e with
    | run => exact List.mem_cons_self
    | stop => cases h
    | _ => exact List.mem_cons_of_mem _ (ih h)

theorem entered_of_run {es : List Event} {m m' : Main} (h : steps (Main.step T) es m = some m')
    (hrun : .run ∈ es) : m'.location.Entered := by
  obtain ⟨pre, post, rfl⟩ := List.append_of_mem hrun
  obtain ⟨u, v, -, hstep, hpost⟩ := steps_split h
  refine steps_invariant (I := fun m => m.location.Entered) entered_step hpost ?_
  cases main_step hstep
  trivial

/-- A stop after `run`'s entry. -/
theorem told_of_stop {pre : List Event} {m m' : Main}
    (h : Main.after T pre = some m) (hrun : .run ∈ pre) (hstop : m.step T .stop = some m') :
    m'.Told := by
  have hentered : m.location.Entered := entered_of_run h hrun
  cases main_step hstop
  exact ⟨hentered, rfl⟩

/-- What is left to `run` after a stop. -/
theorem returns_of_told {es : List Event} {m m' : Main}
    (h : steps (Main.step T) es m = some m') (hm : m.Told)
    (hfresh : m'.subscriber = Subscriber.new) :
    m'.location = .returned ∨ es.countP Event.isOwn ≤ 2 ∧ m'.GoesOn T := by
  by_cases hloc : m'.location = .returned
  · exact .inl hloc
  · have hm' : m'.Told := steps_invariant (I := Main.Told) (fun h hs => (told_step h hs).1) h hm
    have hrank := steps_rank (fun m : Main => m.location.left) told_step h hm
    have hstart : m.location.left ≤ 3 := by cases m.location <;> decide
    have hend : 1 ≤ m'.location.left := by
      have hentered := hm'.entered
      revert hloc hentered
      cases m'.location <;> simp [Location.Entered, Location.left]
    exact .inr ⟨by omega, goesOn_of_fresh hfresh hloc⟩

/-- **A stop request is honoured in every run in which none comes before `run`'s
entry.** -/
theorem stops_honoured {es : List Event} {m : Main} (h : Main.after T es = some m)
    (hstops : stopsAfterEntry es = true) : StopsHonoured T es m where
  quiet := by
    rintro pre mid post rfl htest
    obtain ⟨u, v, hpre, hstop, hrest⟩ := steps_split h
    have hv := told_of_stop hpre (run_mem_of_stop hstops) hstop
    obtain ⟨w, w', hmid, hcall, -⟩ := steps_split hrest
    have hw := returned_of_test hmid hv htest
    cases main_step hcall with
    | call hloc =>
      rw [hw] at hloc
      cases hloc
  returns := by
    rintro pre mid rfl
    obtain ⟨u, v, hpre, hstop, hmid⟩ := steps_split h
    exact returns_of_told hmid (told_of_stop hpre (run_mem_of_stop hstops) hstop)
      (fresh_of_after h)
  told := (explained_of_after h).returned

/-- Two calls, and a stop during the second. -/
theorem stops_honoured_interrupted : ∃ m,
    Main.after builtinTypes [.init, .run, .test, .call, .listened (.received ⟨good, [], by decide⟩),
      .test, .call, .stop, .listened (.received ⟨0x80110000, [], by decide⟩), .test] = some m ∧
    StopsHonoured builtinTypes [.init, .run, .test, .call,
      .listened (.received ⟨good, [], by decide⟩), .test, .call, .stop,
      .listened (.received ⟨0x80110000, [], by decide⟩), .test] m :=
  ⟨_, rfl, stops_honoured rfl rfl⟩

/-- A stop before `run`'s entry: the loop starts all the same. -/
theorem stop_before_entry_lost : ∃ m,
    Main.after builtinTypes [.init, .stop, .run, .test, .call] = some m ∧
      ¬ StopsHonoured builtinTypes [.init, .stop, .run, .test, .call] m := by
  refine ⟨_, rfl, fun h => ?_⟩
  exact h.quiet [.init] [.run, .test] [] rfl (List.mem_cons_of_mem _ (List.mem_singleton_self _))

end OpenPubSub
