import OpenPubSub.Subscriber.Reports

/-!
# Runs of the subscriber

One call of `listen` after the other, on the members of one Subscriber.

- `listen_idle`, `listen_accepted` and `listen_rejected` say what a call does, from
  any state: nothing was received, or the decoder accepts the datagram, or it rejects
  it. Every call that comes back leaves a Subscriber as it was constructed.
- **`listen_reports_iff`**: for which accepted datagrams the reports are the expected
  ones. With a payload header the arrays of a well-known type are in the way, which
  are reported by their first element; without one nothing is reported.
- `Harmless` datagrams are those for which a call comes back at all.
- **`run_independent_iff`**: the calls of a run are independent of each other, as long
  as every datagram is harmless.
-/

namespace OpenPubSub

open Routine

variable {T : DataTypes}

/-! ## One call -/

/-- A datagram was received. -/
def Received.Processed (r : Received) : Prop := r.status = good ∧ r.bytes.length ≠ 0

/-- The decoder accepts the datagram. -/
def Received.Accepted (T : DataTypes) (r : Received) : Prop :=
  ∃ t, decodeAt r.bytes T 0 = .done () t

theorem listen_idle {r : Received} (h : ¬ r.Processed) (s : Subscriber) :
    listen T r s = .done ⟨good, []⟩ { s with buffer := none } := by
  have hidle : r.status ≠ good ∨ r.bytes.length = 0 := by
    unfold Received.Processed at h
    by_cases hs : r.status = good
    · exact .inr (Decidable.not_not.mp fun hl => h ⟨hs, hl⟩)
    · exact .inl hs
  show (if _ then _ else _ : Routine ErrorCode Subscriber Listened) _ = _
  rw [if_pos hidle]
  rfl

/-- What a call does once a datagram is in the buffer. -/
theorem listen_processed {r : Received} (h : r.Processed) (s : Subscriber) :
    listen T r s = (do
      decodeBuffer T
      clearBuffer
      let reports ← logMessage
      clearMessage
      pure ⟨r.status, reports⟩ : Routine ErrorCode Subscriber Listened)
        { s with buffer := some r.bytes } := by
  have hbusy : ¬ (r.status ≠ good ∨ r.bytes.length = 0) := by
    rintro (hs | hl)
    · exact hs h.1
    · exact h.2 hl
  show (if _ then _ else _ : Routine ErrorCode Subscriber Listened) _ = _
  rw [if_neg hbusy]

/-- An accepted datagram is logged, and then cleared as a whole. -/
theorem listen_accepted {r : Received} {t : DecodeCall} (h : r.Processed)
    (hd : decodeAt r.bytes T 0 = .done () t) (s : Subscriber) :
    listen T r s = match networkMessageReports t.dst with
      | some reports => .done ⟨good, reports⟩ Subscriber.new
      | none => .fault := by
  have hdecode : decodeBuffer T { s with buffer := some r.bytes } =
      .done () { networkMessage := t.dst, buffer := some r.bytes } := by
    simp only [decodeBuffer, Option.getD_some, hd]
  have hclear : (networkMessageClear t.dst).1.all ClearEvent.initialised = true := by
    have hdecoded : Decoded r.bytes T 0 t.dst := decoded_of_done hd
    simpa [networkMessageClear] using hdecoded.initialised
  rw [listen_processed h, bind_done hdecode, h.1]
  show (logMessage >>= fun reports => _) (Subscriber.mk t.dst none) = _
  cases hr : networkMessageReports t.dst with
  | none =>
    -- a value that is not there: the dereference is undefined, and the call has no end
    have hlog : logMessage (Subscriber.mk t.dst none) = .fault := by
      simp only [logMessage, hr]
    rw [bind_fault hlog]
  | some reports =>
    have hlog : logMessage (Subscriber.mk t.dst none) = .done reports ⟨t.dst, none⟩ := by
      simp only [logMessage, hr]
    rw [bind_done hlog]
    have hcleared : clearMessage (Subscriber.mk t.dst none) = .done () Subscriber.new := by
      unfold clearMessage requireInitialised
      rw [if_pos hclear]
      rfl
    rw [bind_done hcleared]
    rfl

/-- Of a rejected datagram nothing is left to log. The decoder has cleaned up. -/
theorem listen_rejected {r : Received} {e : ErrorCode} {t : DecodeCall} (h : r.Processed)
    (hd : decodeAt r.bytes T 0 = .fail e t) (s : Subscriber) :
    listen T r s = if t.cleared.all ClearEvent.initialised then .done ⟨good, []⟩ Subscriber.new
      else .fault := by
  obtain ⟨-, -, -, hzero, -⟩ := networkMessageDecodeBinary_eq_fail hd
  have hdecode : decodeBuffer T { s with buffer := some r.bytes } =
      requireInitialised t.cleared { networkMessage := t.dst, buffer := some r.bytes } := by
    simp only [decodeBuffer, Option.getD_some, hd]
  rw [listen_processed h, bind_run, hdecode, h.1, hzero]
  unfold requireInitialised
  by_cases hall : t.cleared.all ClearEvent.initialised = true
  · rw [if_pos hall, if_pos hall]
    rfl
  · rw [if_neg hall, if_neg hall]
    rfl

/-- The decoder returns. -/
theorem decodeAt_cases (src : Bytes) (T : DataTypes) (offset : Nat) :
    (∃ t, decodeAt src T offset = .done () t) ∨ ∃ e t, decodeAt src T offset = .fail e t := by
  have hexits : (networkMessageDecodeBinaryInternal src T ⟨offset, default⟩).Sat _ _ :=
    networkMessageDecodeBinaryInternal_exits ⟨offset, default⟩
  unfold decodeAt networkMessageDecodeBinary
  cases hrun : networkMessageDecodeBinaryInternal src T ⟨offset, default⟩ with
  | done _ t => exact .inl ⟨_, rfl⟩
  | fail e t => exact .inr ⟨e, _, rfl⟩
  | fault =>
    rw [hrun] at hexits
    exact hexits.elim

/-- There is nothing to decode in an empty buffer. -/
theorem ne_nil_of_accepted {bytes : Bytes} {t : DecodeCall}
    (h : decodeAt bytes T 0 = .done () t) : bytes.length ≠ 0 := by
  intro hlen
  obtain rfl := List.length_eq_zero_iff.mp hlen
  cases h

/-- **When `listen` reports what it received.** -/
theorem listen_reports_iff {r : Received} {t : DecodeCall} (hr : r.status = good)
    (hd : decodeAt r.bytes T 0 = .done () t) (s : Subscriber) :
    (∃ l s', listen T r s = .done l s' ∧ l.reports = expectedReports t.dst) ↔
      ∀ f ∈ frames r.bytes T 0,
        if payloadHeaderFlag r.bytes 0 then f.OnlyScalars r.bytes T
        else f.NoScalars r.bytes T := by
  have hdecoded : Decoded r.bytes T 0 t.dst := decoded_of_done hd
  rw [← hdecoded.reports_eq_expected_iff, listen_accepted ⟨hr, ne_nil_of_accepted hd⟩ hd]
  cases networkMessageReports t.dst with
  | none => simp
  | some reports =>
    constructor
    · rintro ⟨l, s', ⟨⟩, hl⟩
      exact congrArg some hl
    · intro hl
      exact ⟨_, _, rfl, Option.some.inj hl⟩

/-- The Byte is reported. -/
theorem byteKeyFrame_reported :
    ∃ t l s', decodeAt byteKeyFrame builtinTypes 0 = .done () t ∧
      listen builtinTypes ⟨good, byteKeyFrame, by decide⟩ Subscriber.new = .done l s' ∧
      l.reports = expectedReports t.dst := by
  obtain ⟨t, ht⟩ : ∃ t, decodeAt byteKeyFrame builtinTypes 0 = .done () t := ⟨_, rfl⟩
  have hheader : payloadHeaderFlag byteKeyFrame 0 = true := rfl
  obtain ⟨l, s', hl, hreports⟩ := (listen_reports_iff
    (r := ⟨good, byteKeyFrame, by decide⟩) rfl ht Subscriber.new).mpr fun f hf =>
      (if_pos hheader).mpr (byteKeyFrame_onlyScalars f hf)
  exact ⟨t, l, s', ht, hl, hreports⟩

/-- The same key frame without a payload header: the Byte is not reported. -/
theorem headerlessByteKeyFrame_not_reported :
    ∃ t, decodeAt [0x01, 0x01, 0x01, 0x00, 0x03, 0x2A] builtinTypes 0 = .done () t ∧
      ¬ ∃ l s', listen builtinTypes ⟨good, [0x01, 0x01, 0x01, 0x00, 0x03, 0x2A], by decide⟩
        Subscriber.new = .done l s' ∧ l.reports = expectedReports t.dst := by
  refine ⟨_, rfl, ?_⟩
  rintro ⟨l, s', hl, hreports⟩
  cases hl
  cases hreports

/-! ## Runs -/

/-- A datagram with which `listen` stays inside initialised memory. -/
def Harmless (T : DataTypes) (r : Received) : Prop :=
  r.Processed → (∀ f ∈ frames r.bytes T 0, f.ValuesReached) ∧
    (r.Accepted T → payloadHeaderFlag r.bytes 0 = true →
      ∀ f ∈ frames r.bytes T 0, f.ObjectsPresent r.bytes T)

/-- The frames of an accepted datagram are complete. -/
theorem Decoded.valuesReached {src : Bytes} {offset : Nat} {m : NetworkMessage}
    (h : Decoded src T offset m) : ∀ f ∈ frames src T offset, f.ValuesReached := by
  obtain ⟨ds, -, -, hframes⟩ := h.messages
  rw [frames, List.forall_mem_map]
  exact forall_of_forall₂ hframes.flip fun _ _ hd => hd.clearable.2

/-- **One call from a fresh Subscriber**: it comes back if and only if the datagram is
harmless, and then with the Subscriber as it was. -/
theorem listen_step (r : Received) :
    (Harmless T r → ∃ l, listen T r Subscriber.new = .done l Subscriber.new) ∧
      ∀ l s, listen T r Subscriber.new = .done l s →
        Harmless T r ∧ s = Subscriber.new ∧ l.status = good ∧
          (¬ r.Accepted T → l.reports = []) := by
  by_cases hp : r.Processed
  · rcases decodeAt_cases r.bytes T 0 with ⟨t, hd⟩ | ⟨e, t, hd⟩
    · have hdecoded : Decoded r.bytes T 0 t.dst := decoded_of_done hd
      have hsome := hdecoded.reports_isSome_iff
      rw [listen_accepted hp hd]
      constructor
      · intro h
        obtain ⟨reports, hreports⟩ := Option.isSome_iff_exists.mp (hsome.mpr ((h hp).2 ⟨t, hd⟩))
        rw [hreports]
        exact ⟨_, rfl⟩
      · intro l s h
        cases hreports : networkMessageReports t.dst with
        | none =>
          rw [hreports] at h
          cases h
        | some reports =>
          rw [hreports] at h hsome
          cases h
          exact ⟨fun _ => ⟨hdecoded.valuesReached, fun _ => hsome.mp rfl⟩, rfl, rfl,
            fun hrej => absurd ⟨t, hd⟩ hrej⟩
    · -- a rejected datagram: only the cleanup can go wrong
      have hcleared := decodeAt_cleared_initialised_iff hd
      rw [← List.all_eq_true] at hcleared
      rw [listen_rejected hp hd]
      constructor
      · intro h
        rw [if_pos (hcleared.mpr (h hp).1)]
        exact ⟨_, rfl⟩
      · intro l s h
        split at h
        · next hall =>
          cases h
          refine ⟨fun _ => ⟨hcleared.mp hall, ?_⟩, rfl, rfl, fun _ => rfl⟩
          rintro ⟨t', hd'⟩
          rw [hd] at hd'
          cases hd'
        · cases h
  · -- nothing was received, or nothing that is decoded
    rw [listen_idle hp]
    constructor
    · intro _
      exact ⟨_, rfl⟩
    · rintro l s ⟨⟩
      exact ⟨fun h => absurd h hp, rfl, rfl, fun _ => rfl⟩

/-- The call that received `r` returned as if it had been the only one. -/
structure Alone (T : DataTypes) (r : Received) (l : Listened) : Prop where
  alone : run T [r] Subscriber.new = .done [l] Subscriber.new
  status : l.status = good
  rejected : ¬ r.Accepted T → l.reports = []

/-- After each call the Subscriber is as it was constructed, and each call returned as
if it had been the only one. -/
def RunsIndependently (T : DataTypes) (rs : List Received) : Prop :=
  ∀ pre, pre <+: rs → ∃ ls, run T pre Subscriber.new = .done ls Subscriber.new ∧
    List.Forall₂ (Alone T) pre ls

/-- A call and the calls after it. -/
theorem run_cons {r : Received} {rs : List Received} {l : Listened}
    (h : listen T r Subscriber.new = .done l Subscriber.new) (hl : l.status = good) :
    run T (r :: rs) Subscriber.new = ((l :: ·) <$> run T rs) Subscriber.new := by
  show (listen T r >>= _) _ = _
  rw [bind_done h, if_pos hl]

theorem alone_of_listen {r : Received} {l : Listened}
    (h : listen T r Subscriber.new = .done l Subscriber.new) : Alone T r l := by
  obtain ⟨-, -, hl, hrej⟩ := (listen_step r).2 _ _ h
  refine ⟨?_, hl, hrej⟩
  rw [run_cons h hl]
  rfl

/-- Harmless datagrams, one after the other. -/
theorem run_of_harmless : ∀ {rs : List Received}, (∀ r ∈ rs, Harmless T r) →
    ∃ ls, run T rs Subscriber.new = .done ls Subscriber.new ∧ List.Forall₂ (Alone T) rs ls
  | [], _ => ⟨[], rfl, .nil⟩
  | r :: rs, h => by
    obtain ⟨hr, hrs⟩ := List.forall_mem_cons.mp h
    obtain ⟨l, hl⟩ := (listen_step r).1 hr
    obtain ⟨ls, hls, halone⟩ := run_of_harmless hrs
    have hr' := alone_of_listen hl
    exact ⟨l :: ls, by rw [run_cons hl hr'.status, map_done hls], .cons hr' halone⟩

/-- A run that comes back has met harmless datagrams only. -/
theorem harmless_of_run : ∀ {rs : List Received} {ls : List Listened} {s : Subscriber},
    run T rs Subscriber.new = .done ls s → ∀ r ∈ rs, Harmless T r
  | [], _, _, _ => by simp
  | r :: rs, ls, s, h => by
    obtain ⟨l, s', hl, hrest⟩ := bind_eq_done.mp h
    obtain ⟨hr, rfl, hstatus, -⟩ := (listen_step r).2 _ _ hl
    rw [if_pos hstatus] at hrest
    obtain ⟨ls', hls, -⟩ := map_eq_done.mp hrest
    exact List.forall_mem_cons.mpr ⟨hr, harmless_of_run hls⟩

/-- **When the calls of a run are independent of each other.** -/
theorem run_independent_iff (rs : List Received) :
    RunsIndependently T rs ↔ ∀ r ∈ rs, Harmless T r := by
  constructor
  · intro h
    obtain ⟨ls, hls, -⟩ := h rs (List.prefix_refl rs)
    exact harmless_of_run hls
  · intro h pre hpre
    exact run_of_harmless fun r hr => h r (hpre.subset hr)

/-- A run on a delta frame of one field that ends before the field: the decoder's
cleanup runs over memory that nothing was ever written to. -/
theorem cutDeltaFrame_not_independent :
    ¬ RunsIndependently builtinTypes
      [⟨good, [0x01, 0x81, 0x01, 0x01, 0x00], by decide⟩] := by
  intro h
  obtain ⟨ls, hls, -⟩ := h _ (List.prefix_refl _)
  cases hls

end OpenPubSub
