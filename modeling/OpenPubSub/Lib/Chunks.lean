import OpenPubSub.Lib.Measured

/-!
# Writing in chunks

A writer whose output is longer than the buffer. When the buffer is full somebody takes it and
puts another one in its place, and a routine that had no room left is started again.

- `Chunk σ`: the buffer, what was taken before, and `out`, which is both together.
- `exchange`, `retry` and `stream` are the three places where a buffer may be exchanged:
  on its own, around a routine that fails with the status `limits`, and in the middle of a copy
  of many bytes.
- `Direct K k x`: `x` writes up to `k` bytes into the buffer it is in, all or none of them.
- `Chunks K N k x y`: `y` does in chunks what `x` does in one buffer, if every new buffer has room
  for `N` bytes. Up to `k` bytes go into the buffer it starts in. `y` fails with `limits` only
  where there is no room for these, and before any exchange.

There is one rule for each way to combine writers. `Chunks.out_iff` is what they lead to.
-/

namespace Writer

open Routine

variable {ε σ α : Type}

/-- The buffer and where in it the output begins, whoever takes it when it is full, and what they
have taken before. -/
structure Chunk (σ : Type) where
  handle : σ
  sent : List UInt8
  start : Nat
  buffer : Buffer

/-- Takes the buffer and puts another one in its place. -/
abbrev Callback (ε σ : Type) := Routine ε (σ × Buffer) Unit

namespace Chunk

/-- All the output, taken or not. -/
def out (s : Chunk σ) : List UInt8 := s.sent ++ (s.buffer.bytes.take s.buffer.pos).drop s.start

structure Valid (s : Chunk σ) : Prop where
  start : s.start ≤ s.buffer.pos
  buffer : s.buffer.Valid

/-- `t` comes after `s` in the same buffer. -/
structure Same (s t : Chunk σ) : Prop where
  handle : t.handle = s.handle
  sent : t.sent = s.sent
  start : t.start = s.start
  buffer : s.buffer.Keeps t.buffer

/-- Put `bs` out without an exchange. -/
def write (s : Chunk σ) (bs : List UInt8) : Chunk σ := { s with buffer := s.buffer.write bs }

variable {s t u : Chunk σ} {as bs : List UInt8}

/-- What fits leaves the chunk valid. -/
theorem write_valid (hs : s.Valid) (h : bs.length ≤ s.buffer.room) : (s.write bs).Valid :=
  ⟨Nat.le_trans hs.start (Nat.le_add_right _ _), Buffer.write_valid h hs.buffer⟩

/-- What fits is appended to the output. -/
theorem write_out (hs : s.Valid) (h : bs.length ≤ s.buffer.room) :
    (s.write bs).out = s.out ++ bs := by
  have hwritten : (s.buffer.write bs).bytes.take (s.buffer.write bs).pos =
      s.buffer.bytes.take s.buffer.pos ++ bs := (Buffer.write_extends h hs.buffer).bytes
  have hlen : s.start ≤ (s.buffer.bytes.take s.buffer.pos).length := by
    have hpos := hs.buffer
    unfold Buffer.Valid at hpos
    rw [List.length_take, Nat.min_eq_left hpos]
    exact hs.start
  show s.sent ++ List.drop s.start
    (List.take (s.buffer.write bs).pos (s.buffer.write bs).bytes) = _
  rw [hwritten, List.drop_append_of_le_length hlen, out, List.append_assoc]

/-- What fits comes after what was there, in the same buffer. -/
theorem same_write (hs : s.Valid) (h : bs.length ≤ s.buffer.room) : s.Same (s.write bs) :=
  ⟨rfl, rfl, rfl, (Buffer.write_extends h hs.buffer).keeps⟩

namespace Same

theorem trans (h₁ : s.Same t) (h₂ : t.Same u) : s.Same u :=
  ⟨h₂.handle.trans h₁.handle, h₂.sent.trans h₁.sent, h₂.start.trans h₁.start,
    h₁.buffer.trans h₂.buffer⟩

theorem valid (h : s.Same t) (hs : s.Valid) : t.Valid :=
  ⟨h.start ▸ Nat.le_trans hs.start h.buffer.pos, h.buffer.valid⟩

/-- Back at the old position nothing has changed. -/
theorem goBack (h : s.Same t) (hs : s.Valid) :
    Valid { t with buffer := { t.buffer with pos := s.buffer.pos } } ∧
      out { t with buffer := { t.buffer with pos := s.buffer.pos } } = s.out := by
  refine ⟨⟨h.start ▸ hs.start, ?_⟩, ?_⟩
  · have hpos := hs.buffer
    unfold Buffer.Valid at hpos ⊢
    rw [h.buffer.length]
    exact hpos
  · show t.sent ++ List.drop t.start (List.take s.buffer.pos t.buffer.bytes) = _
    rw [h.sent, h.start, h.buffer.bytes, out]

end Same

end Chunk

/-! ## Exchanging the buffer -/

/-- A call in the current buffer. -/
def onBuffer (x : Routine ε Buffer α) : Routine ε (Chunk σ) α :=
  zoom Chunk.buffer (fun b s => { s with buffer := b }) x

/-- Let the buffer be taken. Without a callback this fails with `refused`. -/
def exchange (refused : ε) : Option (Callback ε σ) → Routine ε (Chunk σ) Unit
  | none => fail refused
  | some callback => fun s =>
    match callback (s.handle, s.buffer) with
    | .done _ (handle, buffer) => .done () ⟨handle, s.out, buffer.pos, buffer⟩
    | .fail e (handle, buffer) => .fail e { s with handle := handle, buffer := buffer }
    | .fault => .fault

/-- On the status `limits` go back to the old position, and start again in the next buffer. -/
def retry [DecidableEq ε] (limits refused : ε) (callback : Option (Callback ε σ))
    (x : Routine ε (Chunk σ) Unit) : Routine ε (Chunk σ) Unit := fun s =>
  match x s with
  | .done _ t => .done () t
  | .fail e t =>
    if e = limits then
      (exchange refused callback >>= fun _ => x)
        { t with buffer := { t.buffer with pos := s.buffer.pos } }
    else .fail e t
  | .fault => .fault

/-- Fill one buffer after the other with `bs`. There are at most `fuel` of them. -/
def stream (refused : ε) (callback : Option (Callback ε σ)) :
    Nat → List UInt8 → Routine ε (Chunk σ) Unit
  | 0, _ => fault
  | fuel + 1, bs => fun s =>
    if s.buffer.pos + bs.length ≤ s.buffer.bytes.length then .done () (s.write bs)
    else (exchange refused callback >>= fun _ =>
      stream refused callback fuel (bs.drop s.buffer.room)) (s.write (bs.take s.buffer.room))

/-- One call for each element. -/
def eachChunk (f : α → Routine ε (Chunk σ) Unit) : List α → Routine ε (Chunk σ) Unit
  | [] => pure ()
  | x :: xs => do
    f x
    eachChunk f xs

section OnBuffer

variable {x x' : Routine ε Buffer Unit}

/-- In a row. -/
theorem onBuffer_bind :
    (onBuffer (x >>= fun _ => x') : Routine ε (Chunk σ) Unit) =
      (onBuffer x >>= fun _ => onBuffer x') := by
  funext s
  simp only [onBuffer, zoom, bind_run]
  cases x s.buffer <;> rfl

/-- In the accumulating style. -/
theorem onBuffer_accum [OrOp ε] :
    (onBuffer (Routine.accum x fun _ => x') : Routine ε (Chunk σ) Unit) =
      Routine.accum (onBuffer x) fun _ => onBuffer x' := by
  funext s
  simp only [onBuffer, zoom, Routine.accum, accumGuard, bind_run, pure_run]
  cases x s.buffer with
  | done _ t => rfl
  | fail e t =>
    dsimp only
    cases x' t <;> rfl
  | fault => rfl

/-- Without a callback there is no second try. -/
theorem onBuffer_goBack [DecidableEq ε] (limits refused : ε) :
    (onBuffer (goBack limits refused x) : Routine ε (Chunk σ) Unit) =
      retry limits refused none (onBuffer x) := by
  funext s
  simp only [onBuffer, zoom, goBack, onFail, retry]
  cases x s.buffer with
  | done _ t => rfl
  | fail e t =>
    by_cases he : e = limits
    · simp only [he, if_true]
      rfl
    · simp only [he, if_false]
  | fault => rfl

/-- Without a callback the bytes that do not fit are refused. -/
theorem onBuffer_fill (refused : ε) (fuel : Nat) (bs : List UInt8) :
    (onBuffer (fill refused bs) : Routine ε (Chunk σ) Unit) =
      stream refused none (fuel + 1) bs := by
  funext s
  simp only [onBuffer, zoom, fill, stream]
  by_cases hfits : s.buffer.pos + bs.length ≤ s.buffer.bytes.length
  · simp only [if_pos hfits]
    rfl
  · simp only [if_neg hfits]
    rfl

end OnBuffer

/-- The buffer is always taken, and there is room for `N` bytes in the next one. -/
def Supplies (N : Nat) (callback : Callback ε σ) : Prop :=
  ∀ handle buffer, buffer.Valid → ∃ handle' buffer',
    callback (handle, buffer) = .done () (handle', buffer') ∧ buffer'.Valid ∧ N ≤ buffer'.room

/-- The next buffer is empty, and nothing is lost. -/
theorem exchange_some {N : Nat} {callback : Callback ε σ} (h : Supplies N callback) (refused : ε)
    {s : Chunk σ} (hs : s.Valid) : ∃ t, exchange refused (some callback) s = .done () t ∧
      t.Valid ∧ t.out = s.out ∧ N ≤ t.buffer.room := by
  obtain ⟨handle, buffer, hrun, hvalid, hroom⟩ := h s.handle s.buffer hs.buffer
  refine ⟨⟨handle, s.out, buffer.pos, buffer⟩, ?_, ⟨Nat.le_refl _, hvalid⟩, ?_, hroom⟩
  · simp only [exchange, hrun]
  · show s.out ++ List.drop buffer.pos (List.take buffer.pos buffer.bytes) = s.out
    rw [List.drop_eq_nil_of_le (List.length_take_le _ _), List.append_nil]

/-- A copy comes to its end, since every buffer takes a byte or more. Only the first one may be
full. -/
theorem stream_some {N : Nat} {callback : Callback ε σ} (h : Supplies N callback) (hN : 0 < N)
    (refused : ε) {fuel : Nat} {bs : List UInt8} {s : Chunk σ} (hs : s.Valid)
    (hfuel : bs.length + (if s.buffer.room = 0 then 1 else 0) < fuel) :
    ∃ t, stream refused (some callback) fuel bs s = .done () t ∧ t.Valid ∧ t.out = s.out ++ bs := by
  -- one buffer after the other; a full one costs a turn without a byte, but only at the start
  induction fuel generalizing bs s with
  | zero => exact absurd hfuel (Nat.not_lt_zero _)
  | succ fuel ih =>
    have hpos := hs.buffer
    unfold Buffer.Valid at hpos
    have hroom : s.buffer.room = s.buffer.bytes.length - s.buffer.pos := rfl
    by_cases hfits : s.buffer.pos + bs.length ≤ s.buffer.bytes.length
    · have hle : bs.length ≤ s.buffer.room := by omega
      exact ⟨s.write bs, if_pos hfits, Chunk.write_valid hs hle, Chunk.write_out hs hle⟩
    · -- this buffer is filled up, and the rest goes into the next ones
      have hlen : (bs.take s.buffer.room).length ≤ s.buffer.room := List.length_take_le _ _
      obtain ⟨t, hexchange, ht, hout, hnext⟩ :=
        exchange_some h refused (Chunk.write_valid hs hlen)
      have hrest : (bs.drop s.buffer.room).length +
        (if t.buffer.room = 0 then 1 else 0) < fuel := by
        rw [if_neg (by omega), List.length_drop]
        by_cases hfull : s.buffer.room = 0
        · rw [if_pos hfull] at hfuel
          omega
        · omega
      obtain ⟨u, hrun, hu, hall⟩ := ih ht hrest
      refine ⟨u, ?_, hu, ?_⟩
      · simp only [stream, if_neg hfits]
        rw [bind_done hexchange, hrun]
      · rw [hall, hout, Chunk.write_out hs hlen, List.append_assoc, List.take_append_drop]

/-! ## Writers that need no exchange -/

section Judgements

variable [OrOp ε] {K K' : Statuses ε} {N k l : Nat} {as bs cs : List UInt8}
  {x x' : Routine ε Buffer Unit}

theorem Emits.commits_head (h : Emits K as .empty x) : Commits as True x :=
  h.commits.congr (List.append_nil _) (iff_of_true rfl trivial)

/-- Bytes that are copied as far as there is room, and refused if that is not all. -/
theorem commits_fill {refused : ε} (h : K.hard refused) : Commits bs True (fill refused bs) :=
  (emits_fill h).commits.congr rfl (iff_of_true rfl trivial)

omit [OrOp ε] in
/-- In a row, where neither can be refused. -/
theorem Commits.bind_done (hx : Commits as True x) (hx' : Commits bs True x') :
    Commits (as ++ bs) True (x >>= fun _ => x') :=
  (hx.bind hx').congr rfl (iff_of_true ⟨trivial, trivial⟩ trivial)

/-- In the accumulating style, where neither can be refused. -/
theorem Commits.accum_done (hx : Commits as True x) (hx' : Commits bs True x') :
    Commits (as ++ bs) True (Routine.accum x fun _ => x') :=
  (hx.accum hx').congr rfl (iff_of_true ⟨trivial, trivial⟩ trivial)

/-- More statuses may count as hard. -/
theorem Emits.mono {p : Plan} (h : Emits K as p x) (hlimits : K.limits = K'.limits)
    (hhard : ∀ e, K.hard e → K'.hard e) : Emits K' as p x where
  done := h.done
  stop hs hlen hout :=
    let ⟨e, t, hrun, he, ht⟩ := h.stop hs hlen hout
    ⟨e, t, hrun, hhard e he, ht⟩
  short hs hlen := hlimits ▸ h.short hs hlen

/-- Up to `k` bytes are written, if there is room for them, or it fails. -/
structure Direct (K : Statuses ε) (k : Nat) (x : Routine ε Buffer Unit) : Prop where
  keeping : Keeping x
  emits : ∀ {s t : Buffer}, s.Valid → x s = .done () t → ∃ as, as.length ≤ k ∧ Emits K as .empty x
  failed : ∀ {s t : Buffer} {e : ε}, s.Valid → x s = .fail e t →
    K.hard e ∨ e = K.limits ∧ s.room < k

namespace Direct

/-- A writer that is known byte for byte, and sent as a whole. -/
theorem of_emits (h : Emits K as .empty x) : Direct K as.length x where
  keeping := .of_commits h.commits
  emits _ _ := ⟨as, Nat.le_refl _, h⟩
  failed := by
    intro s t e hs hrun
    by_cases hlen : as.length ≤ s.room
    · rw [h.head_done hs hlen] at hrun
      cases hrun
    · obtain ⟨u, hshort, -⟩ := h.short hs hlen
      rw [hrun] at hshort
      exact .inr ⟨(Outcome.fail.inj hshort).1, Nat.lt_of_not_le hlen⟩

/-- More room may be asked for. -/
theorem mono (h : Direct K k x) (hkl : k ≤ l) : Direct K l x where
  keeping := h.keeping
  emits hs hrun :=
    let ⟨as, hlen, has⟩ := h.emits hs hrun
    ⟨as, Nat.le_trans hlen hkl, has⟩
  failed hs hrun := (h.failed hs hrun).imp_right fun ⟨he, hroom⟩ =>
    ⟨he, Nat.lt_of_lt_of_le hroom hkl⟩

theorem fail {e : ε} (h : K.hard e) : Direct K 0 (Routine.fail e : Routine ε Buffer Unit) where
  keeping := .of_commits (commits_fail e)
  emits := nofun
  failed _ hrun := .inl ((Outcome.fail.inj hrun).1 ▸ h)

theorem fault : Direct K 0 (Routine.fault : Routine ε Buffer Unit) where
  keeping := .fault
  emits := nofun
  failed := nofun

/-- A guard that refuses, whatever came before. -/
theorem accumGuard_fail {e : ε} (h : K.hard e) (hx : Keeping x)
    (f : Unit → Routine ε Buffer Unit) : Direct K 0 (accumGuard x (Routine.fail e) f) where
  keeping := (Measured.accumGuard_fail (P := fun _ => False) hx e f).keeping
  emits _ hrun := by
    obtain ⟨_, _, _, _, hg, _⟩ := accumGuard_eq_done.mp hrun
    cases hg
  failed := by
    intro s t e' hs hrun
    unfold accumGuard at hrun
    cases hxs : x s with
    | done _ u =>
      rw [hxs] at hrun
      cases hrun
      exact .inl h
    | fail e'' u =>
      rw [hxs] at hrun
      cases hrun
      exact .inl h
    | fault =>
      rw [hxs] at hrun
      cases hrun

/-- In a row: the room for both is asked for at once. -/
theorem bind (hx : Direct K k x) (hx' : Direct K l x') :
    Direct K (k + l) (x >>= fun _ => x') where
  keeping := hx.keeping.bind hx'.keeping
  emits hs hrun := by
    obtain ⟨_, u, hxs, hxu⟩ := bind_eq_done.mp hrun
    obtain ⟨as, hk, has⟩ := hx.emits hs hxs
    obtain ⟨bs, hl, hbs⟩ := hx'.emits (hx.keeping.done hs hxs).valid hxu
    refine ⟨as ++ bs, ?_, has.bind_head hbs⟩
    rw [List.length_append]
    exact Nat.add_le_add hk hl
  failed := by
    intro s t e hs hrun
    cases hxs : x s with
    | done _ u =>
      rw [bind_done hxs] at hrun
      obtain ⟨as, hk, has⟩ := hx.emits hs hxs
      refine (hx'.failed (hx.keeping.done hs hxs).valid hrun).imp_right fun ⟨he, hroom⟩ => ⟨he, ?_⟩
      -- the room was short at the second part, which begins behind the first
      obtain ⟨hfits, rfl⟩ := has.commits_head.done_eq hs hxs
      rw [Buffer.write_room hfits hs] at hroom
      omega
    | fail e' u =>
      rw [bind_fail hxs] at hrun
      cases hrun
      exact (hx.failed hs hxs).imp_right fun ⟨he, hroom⟩ => ⟨he, by omega⟩
    | fault =>
      rw [bind_fault hxs] at hrun
      cases hrun

end Direct

/-! ## Writers in chunks -/

/-- `y` puts `as` into the buffer it starts in, and `bs` behind it. If there is no room for `as`,
it fails with `limits` and the buffer is still there. -/
structure Streams (K : Statuses ε) (as bs : List UInt8) (y : Routine ε (Chunk σ) Unit) : Prop where
  done : ∀ {s : Chunk σ}, s.Valid → as.length ≤ s.buffer.room →
    ∃ t, y s = .done () t ∧ t.Valid ∧ t.out = s.out ++ (as ++ bs)
  short : ∀ {s : Chunk σ}, s.Valid → ¬ as.length ≤ s.buffer.room →
    ∃ t, y s = .fail K.limits t ∧ s.Same t

/-- The status `limits` says that there was no room for `k` bytes in the buffer, which is still
there. -/
def Ends (K : Statuses ε) (k : Nat) (s : Chunk σ) : Outcome ε (Chunk σ) Unit → Prop
  | .done _ t => t.Valid
  | .fail e t => t.Valid ∧ (K.hard e ∨ e = K.limits ∧ s.buffer.room < k ∧ s.Same t)
  | .fault => True

/-- `y` does in chunks what `x` does in one buffer. -/
structure Chunks (σ : Type) (K : Statuses ε) (N k : Nat) (x : Routine ε Buffer Unit)
    (y : Option (Callback ε σ) → Routine ε (Chunk σ) Unit) : Prop where
  keeping : Keeping x
  null : y none = onBuffer x
  sends : ∀ {f : Callback ε σ}, Supplies N f → ∀ {s t : Buffer}, s.Valid → x s = .done () t →
    ∃ as bs, as.length ≤ k ∧ Commits (as ++ bs) True x ∧ Streams K as bs (y (some f))
  only : ∀ {f : Callback ε σ}, Supplies N f → ∀ {s t : Chunk σ}, s.Valid →
    y (some f) s = .done () t → ∃ bs, Commits bs True x
  ends : ∀ {f : Callback ε σ}, Supplies N f → ∀ {s : Chunk σ}, s.Valid → Ends K k s (y (some f) s)

namespace Streams

variable {y y' : Routine ε (Chunk σ) Unit}

/-- In a row: the second puts nothing into the buffer the first one started in. -/
theorem bind (hy : Streams K as bs y) (hy' : Streams K [] cs y') :
    Streams K as (bs ++ cs) (y >>= fun _ => y') where
  done hs hlen := by
    obtain ⟨t, hrun, ht, hout⟩ := hy.done hs hlen
    obtain ⟨u, hrun', hu, hout'⟩ := hy'.done ht (Nat.zero_le _)
    refine ⟨u, by rw [bind_done hrun, hrun'], hu, ?_⟩
    rw [hout', hout, List.nil_append, List.append_assoc, List.append_assoc]
  short hs hlen := by
    obtain ⟨t, hrun, ht⟩ := hy.short hs hlen
    exact ⟨t, bind_fail hrun, ht⟩

/-- What fits into the buffer goes there first. -/
theorem bind_direct (hx : Emits K as .empty x) (hy : Streams K bs cs y) :
    Streams K (as ++ bs) cs (onBuffer x >>= fun _ => y) := by
  have hdone : ∀ {s : Chunk σ}, s.Valid → as.length ≤ s.buffer.room →
      onBuffer x s = .done () (s.write as) := fun hs hlen => by
    simp only [onBuffer, zoom, hx.head_done hs.buffer hlen, Chunk.write]
  have hroom : ∀ {s : Chunk σ}, s.Valid → as.length ≤ s.buffer.room →
      (s.write as).buffer.room = s.buffer.room - as.length := fun hs hlen =>
    Buffer.write_room hlen hs.buffer
  constructor
  · intro s hs hlen
    rw [List.length_append] at hlen
    have has : as.length ≤ s.buffer.room := by omega
    obtain ⟨t, hrun, ht, hout⟩ := hy.done (Chunk.write_valid hs has) (by
      rw [hroom hs has]
      omega)
    refine ⟨t, by rw [bind_done (hdone hs has), hrun], ht, ?_⟩
    rw [hout, Chunk.write_out hs has]
    simp only [List.append_assoc]
  · intro s hs hlen
    rw [List.length_append] at hlen
    by_cases has : as.length ≤ s.buffer.room
    · obtain ⟨t, hrun, ht⟩ := hy.short (Chunk.write_valid hs has) (by
        rw [hroom hs has]
        omega)
      exact ⟨t, by rw [bind_done (hdone hs has), hrun], (Chunk.same_write hs has).trans ht⟩
    · -- the first part does not fit: nothing is sent
      obtain ⟨b, hrun, hb⟩ := hx.short hs.buffer has
      refine ⟨{ s with buffer := b }, bind_fail ?_, ⟨rfl, rfl, rfl, hb⟩⟩
      simp only [onBuffer, zoom, hrun]

/-- A writer that does not exchange the buffer. -/
theorem direct (hx : Emits K as .empty x) : Streams K as [] (onBuffer (σ := σ) x) := by
  have hpure : Streams K [] [] (pure () : Routine ε (Chunk σ) Unit) := {
    done hs _ := ⟨_, rfl, hs, (List.append_nil _).symm⟩
    short _ h := absurd (Nat.zero_le _) h }
  have h := bind_direct hx hpure
  rw [List.append_nil] at h
  have heq : (onBuffer x >>= fun _ => pure () : Routine ε (Chunk σ) Unit) = onBuffer x := by
    funext s
    rw [bind_run]
    cases onBuffer x s <;> rfl
  rwa [heq] at h

end Streams

namespace Ends

variable {s : Chunk σ} {y y' : Routine ε (Chunk σ) Unit} {o : Outcome ε (Chunk σ) Unit}

/-- More room may be asked for. -/
theorem mono (h : Ends K k s o) (hkl : k ≤ l) : Ends K l s o := by
  cases o with
  | done _ t => exact h
  | fail e t =>
    exact ⟨h.1, h.2.imp_right fun ⟨he, hroom, hsame⟩ =>
      ⟨he, Nat.lt_of_lt_of_le hroom hkl, hsame⟩⟩
  | fault => trivial

/-- Without need of room there is no status `limits`. -/
theorem of_zero {t : Chunk σ} (h : Ends K 0 t o) : Ends K k s o := by
  cases o with
  | done _ u => exact h
  | fail e u => exact ⟨h.1, h.2.imp_right fun hc => absurd hc.2.1 (Nat.not_lt_zero _)⟩
  | fault => trivial

/-- In a row: behind a success the second needs no room of its own. -/
theorem bind (h : Ends K k s (y s)) (h' : ∀ t : Chunk σ, t.Valid → Ends K 0 t (y' t)) :
    Ends K k s ((y >>= fun _ => y') s) := by
  rw [bind_run]
  cases hy : y s with
  | done _ t =>
    rw [hy] at h
    exact (h' t h).of_zero
  | fail e t =>
    rw [hy] at h
    exact h
  | fault => trivial

/-- In the accumulating style, where neither needs room. -/
theorem accum (h : Ends K 0 s (y s)) (h' : ∀ t : Chunk σ, t.Valid → Ends K 0 t (y' t)) :
    Ends K 0 s (Routine.accum y (fun _ => y') s) := by
  cases hy : y s with
  | done _ t =>
    rw [hy] at h
    rw [accum_done hy]
    exact (h' t h).of_zero
  | fail e t =>
    rw [hy] at h
    obtain ⟨ht, he⟩ := h
    have hhard : K.hard e := he.resolve_right fun hc => absurd hc.2.1 (Nat.not_lt_zero _)
    have hrun : Routine.accum y (fun _ => y') s = (y' t).after e := accumGuard_fail hy
    have hend := h' t ht
    rw [hrun]
    -- the second status is added to the first
    cases hy' : y' t with
    | done _ u =>
      rw [hy'] at hend
      exact ⟨hend, .inl hhard⟩
    | fail e' u =>
      rw [hy'] at hend
      have hhard' : K.hard e' := hend.2.resolve_right fun hc => absurd hc.2.1 (Nat.not_lt_zero _)
      exact ⟨hend.1, .inl (K.hard_or hhard hhard')⟩
    | fault => trivial
  | fault =>
    have hrun : Routine.accum y (fun _ => y') s = .fault := by
      simp only [Routine.accum, accumGuard, hy]
    rw [hrun]
    trivial

end Ends

namespace Chunks

variable {y y' : Option (Callback ε σ) → Routine ε (Chunk σ) Unit}

/-- More room may be asked for. -/
theorem mono (h : Chunks σ K N k x y) (hkl : k ≤ l) : Chunks σ K N l x y where
  keeping := h.keeping
  null := h.null
  sends hf _ _ hs hrun :=
    let ⟨as, bs, hlen, hrest⟩ := h.sends hf hs hrun
    ⟨as, bs, Nat.le_trans hlen hkl, hrest⟩
  only := h.only
  ends hf _ hs := (h.ends hf hs).mono hkl

theorem of_direct (h : Direct K k x) : Chunks σ K N k x fun _ => onBuffer x where
  keeping := h.keeping
  null := rfl
  sends := by
    intro f hf s t hs hrun
    obtain ⟨as, hlen, has⟩ := h.emits hs hrun
    refine ⟨as, [], hlen, ?_, .direct has⟩
    rw [List.append_nil]
    exact has.commits_head
  only := by
    intro f hf s t hs hdone
    obtain ⟨b, hrun, -⟩ := zoom_eq_done.mp hdone
    obtain ⟨as, -, has⟩ := h.emits hs.buffer hrun
    exact ⟨as, has.commits_head⟩
  ends := by
    intro f hf s hs
    simp only [onBuffer, zoom]
    cases hx : x s.buffer with
    | done _ t =>
      have hsame : s.Same { s with buffer := t } := ⟨rfl, rfl, rfl, h.keeping.done hs.buffer hx⟩
      exact hsame.valid hs
    -- a failing head has sent nothing: the buffer is the one it was called with
    | fail e t =>
      have hsame : s.Same { s with buffer := t } := ⟨rfl, rfl, rfl, h.keeping.failed hs.buffer hx⟩
      exact ⟨hsame.valid hs, (h.failed hs.buffer hx).imp_right fun ⟨he, hroom⟩ =>
        ⟨he, hroom, hsame⟩⟩
    | fault => trivial

theorem of_emits (h : Emits K as .empty x) : Chunks σ K N as.length x fun _ => onBuffer x :=
  .of_direct (.of_emits h)

theorem pure : Chunks σ K N 0 (Pure.pure ()) fun _ => Pure.pure () := of_emits emits_pure

theorem fail {e : ε} (h : K.hard e) : Chunks σ K N 0 (Routine.fail e) fun _ => Routine.fail e :=
  of_direct (.fail h)

theorem fault : Chunks σ K N 0 Routine.fault fun _ => Routine.fault := of_direct .fault

theorem ite {c : Prop} [Decidable c] (hx : c → Chunks σ K N k x y)
    (hx' : ¬ c → Chunks σ K N k x' y') :
    Chunks σ K N k (if c then x else x') fun f => if c then y f else y' f := by
  by_cases hc : c
  · simp only [if_pos hc]
    exact hx hc
  · simp only [if_neg hc]
    exact hx' hc

/-- In front of a writer that does exchange the buffer. -/
theorem bind_direct (hx : Direct K k x) (h : Chunks σ K N l x' y') :
    Chunks σ K N (k + l) (x >>= fun _ => x') fun f => onBuffer x >>= fun _ => y' f where
  keeping := hx.keeping.bind h.keeping
  null := by rw [h.null, onBuffer_bind]
  sends := by
    intro f hf s t hs hrun
    obtain ⟨_, u, hxs, hxu⟩ := bind_eq_done.mp hrun
    obtain ⟨as, hk, has⟩ := hx.emits hs hxs
    obtain ⟨bs, cs, hl, hcommits, hsends⟩ := h.sends hf (hx.keeping.done hs hxs).valid hxu
    refine ⟨as ++ bs, cs, ?_, ?_, hsends.bind_direct has⟩
    · rw [List.length_append]
      exact Nat.add_le_add hk hl
    · rw [List.append_assoc]
      exact has.commits_head.bind_done hcommits
  only := by
    intro f hf s t hs hdone
    obtain ⟨_, u, hfirst, hrest⟩ := bind_eq_done.mp hdone
    have hu := (of_direct (σ := σ) (N := N) hx).ends hf hs
    rw [hfirst] at hu
    obtain ⟨as, has⟩ := (of_direct (N := N) hx).only hf hs hfirst
    obtain ⟨bs, hbs⟩ := h.only hf hu hrest
    exact ⟨as ++ bs, has.bind_done hbs⟩
  ends := by
    intro f hf s hs
    have hfirst := (of_direct (σ := σ) (N := N) hx).ends hf hs
    rw [bind_run]
    cases hy : onBuffer x s with
    | done _ t =>
      obtain ⟨b, hxs, rfl⟩ := zoom_eq_done.mp hy
      obtain ⟨as, hk, has⟩ := hx.emits hs.buffer hxs
      obtain ⟨hfits, rfl⟩ := has.commits_head.done_eq hs.buffer hxs
      have hroom : (s.write as).buffer.room = s.buffer.room - as.length :=
        Buffer.write_room hfits hs.buffer
      have hrest := h.ends hf (Chunk.write_valid hs hfits)
      -- what the second part reports as short is short by what the first one took
      show Ends K (k + l) s (y' (some f) (s.write as))
      cases hy' : y' (some f) (s.write as) with
      | done _ u =>
        rw [hy'] at hrest
        exact hrest
      | fail e u =>
        rw [hy'] at hrest
        exact ⟨hrest.1, hrest.2.imp_right fun ⟨he, hlt, hsame⟩ =>
          ⟨he, by omega, (Chunk.same_write hs hfits).trans hsame⟩⟩
      | fault => trivial
    | fail e t =>
      rw [hy] at hfirst
      exact hfirst.mono (Nat.le_add_right k l)
    | fault => trivial

/-- In a row: only the first may ask for room in the buffer it finds. -/
theorem bind (h : Chunks σ K N k x y) (h' : Chunks σ K N 0 x' y') :
    Chunks σ K N k (x >>= fun _ => x') fun f => y f >>= fun _ => y' f where
  keeping := h.keeping.bind h'.keeping
  null := by rw [h.null, h'.null, onBuffer_bind]
  sends := by
    intro f hf s t hs hrun
    obtain ⟨_, u, hxs, hxu⟩ := bind_eq_done.mp hrun
    obtain ⟨as, bs, hk, hcommits, hfirst⟩ := h.sends hf hs hxs
    obtain ⟨as', cs, hzero, hcommits', hsecond⟩ :=
      h'.sends hf (h.keeping.done hs hxs).valid hxu
    obtain rfl := List.length_eq_zero_iff.mp (Nat.le_zero.mp hzero)
    refine ⟨as, bs ++ cs, hk, ?_, hfirst.bind hsecond⟩
    rw [← List.append_assoc]
    exact hcommits.bind_done hcommits'
  only := by
    intro f hf s t hs hdone
    obtain ⟨_, u, hfirst, hrest⟩ := bind_eq_done.mp hdone
    have hu := h.ends hf hs
    rw [hfirst] at hu
    obtain ⟨as, has⟩ := h.only hf hs hfirst
    obtain ⟨bs, hbs⟩ := h'.only hf hu hrest
    exact ⟨as ++ bs, has.bind_done hbs⟩
  ends hf _ hs := (h.ends hf hs).bind fun _ ht => h'.ends hf ht

/-- Neither of them starts in the buffer it finds. -/
theorem accum (h : Chunks σ K N 0 x y) (h' : Chunks σ K N 0 x' y') :
    Chunks σ K N 0 (Routine.accum x fun _ => x') fun f => Routine.accum (y f) fun _ => y' f where
  keeping := h.keeping.accum h'.keeping
  null := by rw [h.null, h'.null, onBuffer_accum]
  sends := by
    intro f hf s t hs hrun
    obtain ⟨_, u, hxs, hxu⟩ := accum_eq_done.mp hrun
    obtain ⟨as, bs, hzero, hcommits, hfirst⟩ := h.sends hf hs hxs
    obtain ⟨as', cs, hzero', hcommits', hsecond⟩ :=
      h'.sends hf (h.keeping.done hs hxs).valid hxu
    obtain rfl := List.length_eq_zero_iff.mp (Nat.le_zero.mp hzero)
    obtain rfl := List.length_eq_zero_iff.mp (Nat.le_zero.mp hzero')
    have hsends := hfirst.bind hsecond
    refine ⟨[], bs ++ cs, hzero, hcommits.accum_done hcommits', ?_⟩
    -- without a head it cannot be short, and both are run to their end
    constructor
    · intro c hc hlen
      obtain ⟨v, hdone, hv⟩ := hsends.done hc hlen
      obtain ⟨_, w, hy, hy'⟩ := bind_eq_done.mp hdone
      exact ⟨v, accum_eq_done.mpr ⟨_, w, hy, hy'⟩, hv⟩
    · intro c hc hlen
      exact absurd (Nat.zero_le _) hlen
  only := by
    intro f hf s t hs hdone
    obtain ⟨_, u, hfirst, hrest⟩ := accum_eq_done.mp hdone
    have hu := h.ends hf hs
    rw [hfirst] at hu
    obtain ⟨as, has⟩ := h.only hf hs hfirst
    obtain ⟨bs, hbs⟩ := h'.only hf hu hrest
    exact ⟨as ++ bs, has.accum_done hbs⟩
  ends hf _ hs := (h.ends hf hs).accum fun _ ht => h'.ends hf ht

/-- What does not fit into the rest of the buffer fits into the next one. -/
theorem retry [DecidableEq ε] {refused : ε} (h : Chunks σ K N k x y) (hkN : k ≤ N)
    (hlimits : ¬ K.hard K.limits) :
    Chunks σ K N 0 (goBack K.limits refused x)
      fun f => Writer.retry K.limits refused f (y f) where
  keeping := h.keeping.goBack
  null := by rw [h.null, onBuffer_goBack]
  sends := by
    intro f hf s t hs hrun
    have hxs : x s = .done () t := by
      unfold goBack onFail at hrun
      cases hxs : x s with
      | done _ u =>
        rw [hxs] at hrun
        exact hrun
      | fail e u =>
        rw [hxs] at hrun
        cases hrun
      | fault =>
        rw [hxs] at hrun
        cases hrun
    obtain ⟨as, bs, hk, hcommits, hsends⟩ := h.sends hf hs hxs
    -- in every valid chunk all of it goes out, at once or after one exchange
    have hdone : ∀ {c : Chunk σ}, c.Valid → ∃ z, Writer.retry K.limits refused (some f)
        (y (some f)) c = .done () z ∧ z.Valid ∧ z.out = c.out ++ (as ++ bs) := by
      intro c hc
      by_cases hfits : as.length ≤ c.buffer.room
      · obtain ⟨v, hdone, hv⟩ := hsends.done hc hfits
        exact ⟨v, by simp only [Writer.retry, hdone], hv⟩
      · -- short: back to where it began, and once more in a new buffer
        obtain ⟨v, hshort, hsame⟩ := hsends.short hc hfits
        obtain ⟨hback, hout⟩ := hsame.goBack hc
        obtain ⟨w, hexchange, hw, hnext, hN⟩ := exchange_some hf refused hback
        obtain ⟨z, hdone, hz, hall⟩ := hsends.done hw (by omega)
        refine ⟨z, ?_, hz, by rw [hall, hnext, hout]⟩
        simp only [Writer.retry, hshort, if_true]
        rw [bind_done hexchange, hdone]
    exact ⟨[], as ++ bs, Nat.zero_le _, hcommits.goBack, fun hc _ => hdone hc,
      fun _ hlen => absurd (Nat.zero_le _) hlen⟩
  only := by
    intro f hf s t hs hdone
    have hend := h.ends hf hs
    unfold Writer.retry at hdone
    cases hy : y (some f) s with
    | done _ u =>
      obtain ⟨bs, hbs⟩ := h.only hf hs hy
      exact ⟨bs, hbs.goBack⟩
    | fail e u =>
      rw [hy] at hdone hend
      by_cases he : e = K.limits
      · -- the second attempt succeeded, in a new buffer
        subst he
        obtain ⟨-, hhard | ⟨-, -, hsame⟩⟩ := hend
        · exact absurd hhard hlimits
        obtain ⟨hback, -⟩ := hsame.goBack hs
        obtain ⟨w, hexchange, hw, -, -⟩ := exchange_some hf refused hback
        simp only [if_true] at hdone
        rw [bind_done hexchange] at hdone
        obtain ⟨bs, hbs⟩ := h.only hf hw hdone
        exact ⟨bs, hbs.goBack⟩
      · simp only [he, if_false] at hdone
        cases hdone
    | fault =>
      rw [hy] at hdone
      cases hdone
  ends := by
    intro f hf s hs
    have hend := h.ends hf hs
    unfold Writer.retry
    cases hy : y (some f) s with
    | done _ t =>
      rw [hy] at hend
      exact hend
    | fail e t =>
      rw [hy] at hend
      obtain ⟨ht, hhard | ⟨rfl, -, hsame⟩⟩ := hend
      · have hne : e ≠ K.limits := fun hc => hlimits (hc ▸ hhard)
        simp only [hne, if_false]
        exact ⟨ht, .inl hhard⟩
      · -- the second attempt has room for the head, so it is not short
        obtain ⟨hback, -⟩ := hsame.goBack hs
        obtain ⟨w, hexchange, hw, -, hN⟩ := exchange_some hf refused hback
        have hsecond := h.ends hf hw
        simp only [if_true]
        rw [bind_done hexchange]
        cases hy' : y (some f) w with
        | done _ u =>
          rw [hy'] at hsecond
          exact hsecond
        | fail e u =>
          rw [hy'] at hsecond
          refine ⟨hsecond.1, .inl (hsecond.2.resolve_right fun hc => ?_)⟩
          have hlt := hc.2.1
          omega
        | fault => trivial
    | fault => trivial

theorem stream {refused : ε} (hrefused : K.hard refused) (hN : 0 < N) (bs : List UInt8) :
    Chunks σ K N 0 (fill refused bs) fun f => Writer.stream refused f (bs.length + 2) bs where
  keeping := .of_commits (commits_fill hrefused)
  null := (onBuffer_fill refused (bs.length + 1) bs).symm
  sends := by
    intro f hf s t hs hrun
    refine ⟨[], bs, Nat.zero_le _, commits_fill hrefused, fun hc _ => ?_, fun _ hlen =>
      absurd (Nat.zero_le _) hlen⟩
    exact stream_some hf hN refused hc (by split <;> omega)
  only _ _ _ _ _ := ⟨bs, commits_fill hrefused⟩
  ends := by
    intro f hf s hs
    have hfuel : bs.length + (if s.buffer.room = 0 then 1 else 0) < bs.length + 2 := by
      split <;> omega
    obtain ⟨t, hrun, ht, -⟩ := stream_some hf hN refused hs hfuel
    rw [hrun]
    exact ht

theorem each {g : α → Routine ε Buffer Unit}
    {g' : Option (Callback ε σ) → α → Routine ε (Chunk σ) Unit}
    (h : ∀ a, Chunks σ K N 0 (g a) fun f => g' f a) (xs : List α) :
    Chunks σ K N 0 (Writer.each g xs) fun f => eachChunk (g' f) xs := by
  induction xs with
  | nil => exact pure
  | cons x xs ih => exact (h x).bind ih

/-- The writer on its own, whatever the first buffer has room for: it comes to its end if and
only if it does so in one buffer that is long enough, and puts the same bytes out. -/
theorem out_iff (h : Chunks σ K N 0 x y) {f : Callback ε σ} (hf : Supplies N f) {c : Chunk σ}
    (hc : c.Valid) :
    (∃ d, y (some f) c = .done () d ∧ d.Valid ∧ d.out = c.out ++ bs) ↔ Commits bs True x := by
  have hsent : ∀ {s t : Buffer}, s.Valid → x s = .done () t → ∃ as d, Commits as True x ∧
      y (some f) c = .done () d ∧ d.Valid ∧ d.out = c.out ++ as := by
    intro s t hs hrun
    obtain ⟨as, bs, hzero, hcommits, hsends⟩ := h.sends hf hs hrun
    obtain rfl := List.length_eq_zero_iff.mp (Nat.le_zero.mp hzero)
    obtain ⟨d, hdone, hd⟩ := hsends.done hc (Nat.zero_le _)
    exact ⟨bs, d, hcommits, hdone, hd⟩
  constructor
  · rintro ⟨d, hdone, -, hout⟩
    obtain ⟨as, has⟩ := h.only hf hc hdone
    obtain ⟨bs', d', hcommits, hdone', -, hout'⟩ := hsent (blank_valid _) has.done_blank
    obtain rfl := (Outcome.done.inj (hdone.symm.trans hdone')).2
    rwa [List.append_cancel_left (hout.symm.trans hout')]
  · intro hcommits
    obtain ⟨as, d, has, hdone, hd, hout⟩ := hsent (blank_valid _) hcommits.done_blank
    exact ⟨d, hdone, hd, by rw [hout, has.unique hcommits]⟩

end Chunks

end Judgements

end Writer
