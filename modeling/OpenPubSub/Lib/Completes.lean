import OpenPubSub.Lib.Writer

/-!
# Writers that come to their end

`Completes bs x`: given room for `bs`, the routine `x` writes `bs` and succeeds. What it does
with less room is left open, and so it does not matter who looks at the status.
-/

namespace Writer

open Routine

variable {ε : Type} {as bs : List UInt8} {x y : Routine ε Buffer Unit}

/-- With enough room, `x` writes `bs`. -/
def Completes (bs : List UInt8) (x : Routine ε Buffer Unit) : Prop :=
  ∀ s : Buffer, s.Valid → bs.length ≤ s.room → x s = .done () (s.write bs)

/-- A writer that is known byte for byte completes where its condition holds. -/
theorem Commits.completes {ok : Prop} (h : Commits bs ok x) (hok : ok) : Completes bs x :=
  fun s hs hroom => (h s hs).1 hok hroom

theorem Completes.congr (h : Completes as x) (hbs : as = bs) : Completes bs x := hbs ▸ h

/-- A writer that completes writes one thing: in a buffer that is large enough for both, both
stand at the same position. -/
theorem Completes.unique (ha : Completes as x) (hb : Completes bs x) : as = bs := by
  let s : Buffer := ⟨List.replicate (as.length + bs.length) 0, 0⟩
  have hs : s.Valid := Nat.zero_le _
  have hroom : s.room = as.length + bs.length := List.length_replicate
  have hrun := (ha s hs (by omega)).symm.trans (hb s hs (by omega))
  have hsame : s.write as = s.write bs := (Outcome.done.inj hrun).2
  have hlen : as.length = bs.length := Nat.add_left_cancel (congrArg Buffer.pos hsame)
  have has : At (s.write as).bytes s.pos as := Buffer.write_at hs
  have hbs : At (s.write as).bytes s.pos bs := hsame ▸ Buffer.write_at hs
  exact (List.prefix_of_prefix_length_le has hbs (Nat.le_of_eq hlen)).eq_of_length hlen

/-- From the start of a buffer that is long enough. -/
theorem Completes.from_start (h : Completes bs x) {buffer : List UInt8}
    (hroom : bs.length ≤ buffer.length) :
    x ⟨buffer, 0⟩ = .done () ⟨bs ++ buffer.drop bs.length, bs.length⟩ := by
  have hrun := h ⟨buffer, 0⟩ (Nat.zero_le _) hroom
  rw [hrun, Buffer.write, splice, Nat.zero_add]
  rfl

/-- Writing nothing takes no room. -/
theorem completes_pure : Completes [] (pure () : Routine ε Buffer Unit) := fun s _ _ =>
  congrArg (Outcome.done ()) (Buffer.write_nil s).symm

/-- In a row: the second has the room that the first left. -/
theorem Completes.bind (hx : Completes as x) (hy : Completes bs y) :
    Completes (as ++ bs) (x >>= fun _ => y) := by
  intro s hs hroom
  have hsum := hroom
  rw [List.length_append] at hsum
  have has : as.length ≤ s.room := by omega
  have hbs : bs.length ≤ (s.write as).room := by
    rw [Buffer.write_room has hs]
    omega
  rw [bind_done (hx s hs has), hy _ (Buffer.write_valid has hs) hbs, Buffer.write_write hroom hs]

/-- A part that may be missing. -/
theorem Completes.ite {c : Bool} (hx : c = true → Completes bs x) :
    Completes (if c then bs else []) (if c then x else pure () : Routine ε Buffer Unit) := by
  cases c with
  | true => exact hx rfl
  | false => exact completes_pure

theorem Completes.dropStatus (hx : Completes bs x) : Completes bs (Routine.dropStatus x) := by
  intro s hs hroom
  rw [Routine.dropStatus, hx s hs hroom]

/-- With all of the room there is no reason to go back. -/
theorem Completes.goBack [DecidableEq ε] {limits refused : ε} (hx : Completes bs x) :
    Completes bs (Writer.goBack limits refused x) := by
  intro s hs hroom
  rw [Writer.goBack, onFail, hx s hs hroom]

/-- With a check in between that lets everything pass. -/
theorem Completes.accumGuard [OrOp ε] {g : Routine ε Buffer Unit} (hx : Completes as x)
    (hg : ∀ s, g s = .done () s) (hy : Completes bs y) :
    Completes (as ++ bs) (Routine.accumGuard x g fun _ => y) := by
  intro s hs hroom
  have has : as.length ≤ s.room := by
    rw [List.length_append] at hroom
    omega
  have hbind := hx.bind hy s hs hroom
  rw [bind_done (hx s hs has)] at hbind
  rw [accumGuard_done (hx s hs has) (hg _), hbind]

/-- In the accumulating style, where no failure is there to be accumulated. -/
theorem Completes.accum [OrOp ε] (hx : Completes as x) (hy : Completes bs y) :
    Completes (as ++ bs) (Routine.accum x fun _ => y) := hx.accumGuard (fun _ => rfl) hy

/-- Elements of an array are written one after the other. The induction is on the elements; `ys`
are those in front of them, `zs` those behind. -/
theorem completes_accumFrom [OrOp ε] {α : Type} {f : α → Routine ε Buffer Unit}
    {bytes : α → List UInt8} {xs : List α} (h : ∀ a ∈ xs, Completes (bytes a) (f a))
    (ys zs : List α) :
    Completes (xs.flatMap bytes)
      (accumFrom (element (ys ++ (xs ++ zs)) f) ys.length xs.length) := by
  induction xs generalizing ys with
  | nil => exact completes_pure
  | cons a xs ih =>
    obtain ⟨ha, hxs⟩ := List.forall_mem_cons.mp h
    have ih := ih hxs (ys ++ [a])
    rw [List.append_assoc, List.singleton_append, List.length_append,
      List.length_singleton] at ih
    have hstep : Completes (bytes a ++ xs.flatMap bytes)
        (Routine.accum (element (ys ++ a :: (xs ++ zs)) f ys.length) fun _ =>
          accumFrom (element (ys ++ a :: (xs ++ zs)) f) (ys.length + 1) xs.length) := by
      rw [element_append]
      exact ha.accum ih
    exact hstep

end Writer
