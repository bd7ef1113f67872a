import OpenPubSub.NetworkMessage.Cleanup
import OpenPubSub.Types.RoundTrip

/-!
# What the cleanup releases

The memory that a decoder attached to a message, against what `UA_NetworkMessage_clear`
releases of it.

- `NetworkMessage.Owns` is what the message holds on to, member by member and without a look
  at the flags that the cleanup tests.
- `NetworkMessage.Guarded` says that the flags are set for what is there. Every section of the
  decoder keeps it.
- Only the signature is never released. **`releasesAll_iff`**: nothing is left behind unless
  the datagram ends with one.
-/

namespace OpenPubSub

open Routine

/-! ## Ownership -/

/-- The buffers a message holds on to, and the elements of its arrays that may hold on to
more. -/
def NetworkMessage.Owns (m : NetworkMessage) : Target → Prop
  | .buffer .promotedFields => m.promotedFields.isSome = true
  | .slot .promotedFields i => i < (m.promotedFields.getD []).length
  | .buffer .messageNonce => m.securityHeader.messageNonce.getD [] ≠ []
  | .buffer .dataSetWriterIds => m.payloadHeader.dataSetWriterIds.isSome = true
  | .buffer .sizes => m.payload.sizes.isSome = true
  | .buffer .dataSetMessages => m.payload.dataSetMessages.isSome = true
  | .buffer (.dataSetFields j) => (m.dataSetMessageAt j).dataSetFields.isSome = true
  | .slot (.dataSetFields j) i => i < ((m.dataSetMessageAt j).dataSetFields.getD []).length
  | .buffer (.fieldNames j) => (m.dataSetMessageAt j).fieldNames.isSome = true
  | .slot (.fieldNames j) i => i < ((m.dataSetMessageAt j).fieldNames.getD []).length
  | .buffer (.deltaFrameFields j) => (m.dataSetMessageAt j).deltaFrameFields.isSome = true
  | .slot (.deltaFrameFields j) i => i < ((m.dataSetMessageAt j).deltaFrameFields.getD []).length
  | .buffer .securityFooter => m.securityFooter.getD [] ≠ []
  | .buffer .messageId => m.messageId.getD [] ≠ []
  | .buffer .publisherIdString => ∃ s : UAString, m.publisherId = .string s ∧ s.getD [] ≠ []
  | .buffer .signature => m.signature.getD [] ≠ []
  -- the elements of other arrays are numbers
  | .slot _ _ => False

/-- The arrays of a DataSetMessage are those of its type, and as long as its counter. -/
structure DataSetMessage.Releasable (d : DataSetMessage) : Prop where
  dataSetFields : ∀ vs, d.dataSetFields = some vs →
    d.header.dataSetMessageType = .dataKeyFrame ∧ vs.length = d.fieldCount.toNat
  fieldNames : d.fieldNames = none
  deltaFrameFields : ∀ fs, d.deltaFrameFields = some fs →
    d.header.dataSetMessageType = .dataDeltaFrame ∧ d.header.fieldEncoding.hasValues = true ∧
      fs.length = d.fieldCount.toNat

/-- What is there has its flags set. -/
def NetworkMessage.Guarded (m : NetworkMessage) : Prop :=
  (m.payloadHeader.dataSetWriterIds.isSome = true →
    m.networkMessageType = .dataSet ∧ m.payloadHeaderEnabled = true) ∧
  (m.payload.sizes.isSome = true →
    m.networkMessageType = .dataSet ∧ m.payloadHeaderEnabled = true) ∧
  (m.payload.dataSetMessages.isSome = true → m.networkMessageType = .dataSet) ∧
  (m.promotedFields.isSome = true → m.promotedFieldsEnabled = true) ∧
  (m.securityFooter.isSome = true →
    m.securityHeader.securityFooterEnabled = true ∧ m.securityHeader.securityFooterSize > 0) ∧
  (m.publisherIdEnabled = false → ∀ s, m.publisherId = .string s → s = none) ∧
  m.messageId = none

theorem not_mem_clearTargets_signature (m : NetworkMessage) :
    .buffer .signature ∉ clearTargets m := fun h =>
  absurd ((clearTargets_segment m).rank _ h).2 (by decide)

section Clear

variable {m : NetworkMessage}

/-- Targets that are visited under a condition. -/
theorem mem_ite_of {α : Type} {c : Prop} [Decidable c] {xs : List α} {x : α} (hc : c)
    (hx : x ∈ xs) : x ∈ if c then xs else [] := by rwa [if_pos hc]

theorem buffer_mem_arrayDelete (b : OwnedBuffer) (n : Nat) : .buffer b ∈ arrayDelete b n :=
  List.mem_append_right _ (List.mem_singleton.mpr rfl)

/-- Every slot below the counter is freed. -/
theorem slot_mem_arrayDelete {b : OwnedBuffer} {n i : Nat} (hi : i < n) :
    .slot b i ∈ arrayDelete b n :=
  List.mem_append_left _ (List.mem_map_of_mem (List.mem_range.mpr hi))

/-- A slot that is owned is below the counter of its array. -/
theorem lt_of_owned {α : Type} {xs : Option (List α)} {i n : Nat} (hi : i < (xs.getD []).length)
    (hlen : ∀ ys, xs = some ys → ys.length = n) : xs.isSome = true ∧ i < n := by
  cases xs with
  | none => exact absurd hi (Nat.not_lt_zero i)
  | some ys => exact ⟨rfl, hlen ys rfl ▸ hi⟩

/-- `UA_DataSetMessage_free` releases all of a DataSetMessage. -/
theorem DataSetMessage.Releasable.mem_free {d : DataSetMessage} (h : d.Releasable) (j : Nat) :
    (d.dataSetFields.isSome = true → .buffer (.dataSetFields j) ∈ dataSetMessageFree j d ∧
      ∀ i < (d.dataSetFields.getD []).length, .slot (.dataSetFields j) i ∈ dataSetMessageFree j d) ∧
    (d.deltaFrameFields.isSome = true → .buffer (.deltaFrameFields j) ∈ dataSetMessageFree j d ∧
      ∀ i < (d.deltaFrameFields.getD []).length,
        .slot (.deltaFrameFields j) i ∈ dataSetMessageFree j d) := by
  constructor
  · intro hsome
    obtain ⟨vs, hvs⟩ := Option.isSome_iff_exists.mp hsome
    obtain ⟨htype, hlen⟩ := h.dataSetFields vs hvs
    have hfree : ∀ x ∈ arrayDelete (.dataSetFields j) d.fieldCount.toNat,
        x ∈ dataSetMessageFree j d := fun x hx => by
      unfold dataSetMessageFree
      rw [htype]
      exact List.mem_append_left _ (mem_ite_of hsome hx)
    refine ⟨hfree _ (buffer_mem_arrayDelete _ _), fun i hi => hfree _ (slot_mem_arrayDelete ?_)⟩
    rwa [hvs, Option.getD_some, hlen] at hi
  · intro hsome
    obtain ⟨fs, hfs⟩ := Option.isSome_iff_exists.mp hsome
    obtain ⟨htype, hvalues, hlen⟩ := h.deltaFrameFields fs hfs
    have hfree : ∀ x ∈ arrayDelete (.deltaFrameFields j) d.fieldCount.toNat,
        x ∈ dataSetMessageFree j d := fun x hx => by
      unfold dataSetMessageFree
      rw [htype]
      refine mem_ite_of hsome ?_
      -- without values in the fields, the cleanup would pass them by
      cases hencoding : d.header.fieldEncoding with
      | variant => exact hx
      | dataValue => exact hx
      | rawData | reserved =>
        rw [hencoding] at hvalues
        cases hvalues
    refine ⟨hfree _ (buffer_mem_arrayDelete _ _), fun i hi => hfree _ (slot_mem_arrayDelete ?_)⟩
    rwa [hfs, Option.getD_some, hlen] at hi

/-- The message whose arrays belong to number `j` is there. -/
theorem lt_length_of_dataSetMessageAt {j : Nat} (h : m.dataSetMessageAt j ≠ default) :
    j < (m.payload.dataSetMessages.getD []).length := by
  by_cases hj : j < (m.payload.dataSetMessages.getD []).length
  · exact hj
  · refine absurd ?_ h
    rw [NetworkMessage.dataSetMessageAt, List.getElem?_eq_none (Nat.le_of_not_lt hj)]
    rfl

/-- The payload is cleared with the message. -/
theorem payload_mem_clearTargets {y : Target} (h : y ∈ payloadClearTargets m) :
    y ∈ clearTargets m := by
  simp only [clearTargets, List.mem_append]
  exact .inl (.inl (.inl (.inr h)))

/-- The arrays of a DataSetMessage, which is there if it owns anything. -/
theorem free_mem_clearTargets (hguarded : m.Guarded)
    (hcount : (m.payload.dataSetMessages.getD []).length ≤ m.dataSetMessageCount) {j : Nat}
    (hj : m.dataSetMessageAt j ≠ default) {y : Target}
    (h : y ∈ dataSetMessageFree j (m.dataSetMessageAt j)) : y ∈ clearTargets m := by
  obtain ⟨-, -, hpayload, -⟩ := hguarded
  have hlt := lt_length_of_dataSetMessageAt hj
  have hsome : m.payload.dataSetMessages.isSome = true := by
    cases hds : m.payload.dataSetMessages with
    | none =>
      rw [hds] at hlt
      exact absurd hlt (Nat.not_lt_zero j)
    | some ds => rfl
  refine payload_mem_clearTargets (mem_ite_of (hpayload hsome) (List.mem_append_right _
    (mem_ite_of hsome (List.mem_append_left _
      (List.mem_flatMap.mpr ⟨j, List.mem_range.mpr ?_, h⟩)))))
  omega

/-- The promoted fields are cleared if they are enabled, and they are there only then. -/
theorem promotedFields_mem_clearTargets (hguarded : m.Guarded)
    (hsome : m.promotedFields.isSome = true) {y : Target}
    (h : y ∈ arrayDelete .promotedFields m.promotedFieldsSize.toNat) : y ∈ clearTargets m := by
  obtain ⟨-, -, -, hpromoted, -⟩ := hguarded
  simp only [clearTargets, List.mem_append]
  exact .inl (.inl (.inl (.inl (.inl (mem_ite_of (hpromoted hsome) h)))))

/-- The nonce is cleared where it is not empty. -/
theorem messageNonce_mem_clearTargets (harrays : ArraysOk m)
    (h : m.securityHeader.messageNonce.getD [] ≠ []) :
    .buffer .messageNonce ∈ clearTargets m := by
  have hlen := harrays.securityHeader.length
  have hpos := List.length_pos_iff.mpr h
  have henabled : m.securityEnabled = true := by
    cases henabled : m.securityEnabled with
    | true => rfl
    | false =>
      rw [harrays.securityHeader.absent henabled] at h
      exact absurd rfl h
  have hnonce : m.securityHeader.nonceLength > 0 := by
    rw [gt_iff_lt, UInt8.lt_iff_toNat_lt, ← hlen]
    exact hpos
  simp only [clearTargets, List.mem_append]
  exact .inl (.inl (.inl (.inl (.inr
    (mem_ite_of (by simp [henabled, hnonce]) (List.mem_singleton.mpr rfl))))))

/-- The footer is cleared where it is not empty. -/
theorem securityFooter_mem_clearTargets (hguarded : m.Guarded)
    (h : m.securityFooter.getD [] ≠ []) : .buffer .securityFooter ∈ clearTargets m := by
  obtain ⟨-, -, -, -, hfooter, -⟩ := hguarded
  have hsome : m.securityFooter.isSome = true := by
    cases hf : m.securityFooter with
    | none =>
      rw [hf] at h
      exact absurd rfl h
    | some f => rfl
  obtain ⟨henabled, hsize⟩ := hfooter hsome
  simp only [clearTargets, List.mem_append]
  exact .inl (.inl (.inr (mem_ite_of (by simp [henabled, hsize]) (List.mem_singleton.mpr rfl))))

/-- A publisher id that is a string is cleared if it is enabled, and it is a string only then. -/
theorem publisherIdString_mem_clearTargets (hguarded : m.Guarded) {s : UAString}
    (hs : m.publisherId = .string s) (h : s.getD [] ≠ []) :
    .buffer .publisherIdString ∈ clearTargets m := by
  obtain ⟨-, -, -, -, -, hpublisher, -⟩ := hguarded
  have henabled : m.publisherIdEnabled = true := by
    cases henabled : m.publisherIdEnabled with
    | true => rfl
    | false =>
      rw [hpublisher henabled s hs] at h
      exact absurd rfl h
  simp only [clearTargets, List.mem_append]
  exact .inr (mem_ite_of (by rw [henabled, hs]; rfl) (List.mem_singleton.mpr rfl))

/-- Every object in an array is released with the array. -/
theorem slot_mem_clearTargets_of_owns (harrays : ArraysOk m) (hguarded : m.Guarded)
    (hcount : (m.payload.dataSetMessages.getD []).length ≤ m.dataSetMessageCount)
    (hmessages : ∀ j, (m.dataSetMessageAt j).Releasable) {b : OwnedBuffer} {i : Nat}
    (hx : m.Owns (.slot b i)) : .slot b i ∈ clearTargets m := by
  cases b with
  | promotedFields =>
    obtain ⟨hsome, hi⟩ := lt_of_owned hx fun ys hys => by
      have hlen := harrays.promotedFields.length
      rwa [hys] at hlen
    exact promotedFields_mem_clearTargets hguarded hsome (slot_mem_arrayDelete hi)
  | dataSetFields j =>
    have hi : i < ((m.dataSetMessageAt j).dataSetFields.getD []).length := hx
    have hsome : (m.dataSetMessageAt j).dataSetFields.isSome = true := (lt_of_owned hi
      fun ys hys => ((hmessages j).dataSetFields ys hys).2).1
    refine free_mem_clearTargets hguarded hcount (fun h => ?_)
      (((hmessages j).mem_free j).1 hsome |>.2 i hi)
    rw [h] at hsome
    cases hsome
  -- nobody fills in the names
  | fieldNames j =>
    have hi : i < ((m.dataSetMessageAt j).fieldNames.getD []).length := hx
    rw [(hmessages j).fieldNames] at hi
    exact absurd hi (Nat.not_lt_zero i)
  | deltaFrameFields j =>
    have hi : i < ((m.dataSetMessageAt j).deltaFrameFields.getD []).length := hx
    have hsome : (m.dataSetMessageAt j).deltaFrameFields.isSome = true := (lt_of_owned hi
      fun ys hys => ((hmessages j).deltaFrameFields ys hys).2.2).1
    refine free_mem_clearTargets hguarded hcount (fun h => ?_)
      (((hmessages j).mem_free j).2 hsome |>.2 i hi)
    rw [h] at hsome
    cases hsome
  | _ => exact hx.elim

/-- Everything but the signature is released. -/
theorem mem_clearTargets_of_owns (harrays : ArraysOk m) (hguarded : m.Guarded)
    (hcount : (m.payload.dataSetMessages.getD []).length ≤ m.dataSetMessageCount)
    (hmessages : ∀ j, (m.dataSetMessageAt j).Releasable) {x : Target} (hx : m.Owns x)
    (hsignature : x ≠ .buffer .signature) : x ∈ clearTargets m := by
  obtain ⟨hids, hsizes, hpayload, -, -, -, hid⟩ := id hguarded
  cases x with
  | slot b i => exact slot_mem_clearTargets_of_owns harrays hguarded hcount hmessages hx
  | buffer b =>
    cases b with
    | promotedFields =>
      exact promotedFields_mem_clearTargets hguarded hx (buffer_mem_arrayDelete _ _)
    | messageNonce => exact messageNonce_mem_clearTargets harrays hx
    | dataSetWriterIds =>
      obtain ⟨htype, henabled⟩ := hids hx
      exact payload_mem_clearTargets (mem_ite_of htype (List.mem_append_left _
        (mem_ite_of henabled (List.mem_append_left _
          (mem_ite_of hx (buffer_mem_arrayDelete _ _))))))
    | sizes =>
      obtain ⟨htype, henabled⟩ := hsizes hx
      exact payload_mem_clearTargets (mem_ite_of htype (List.mem_append_left _
        (mem_ite_of henabled (List.mem_append_right _
          (mem_ite_of hx (buffer_mem_arrayDelete _ _))))))
    | dataSetMessages =>
      exact payload_mem_clearTargets (mem_ite_of (hpayload hx) (List.mem_append_right _
        (mem_ite_of hx (List.mem_append_right _ (List.mem_singleton.mpr rfl)))))
    | dataSetFields j =>
      have hsome : (m.dataSetMessageAt j).dataSetFields.isSome = true := hx
      refine free_mem_clearTargets hguarded hcount (fun h => ?_)
        (((hmessages j).mem_free j).1 hsome).1
      rw [h] at hsome
      cases hsome
    | fieldNames j =>
      have hsome : (m.dataSetMessageAt j).fieldNames.isSome = true := hx
      rw [(hmessages j).fieldNames] at hsome
      cases hsome
    | deltaFrameFields j =>
      have hsome : (m.dataSetMessageAt j).deltaFrameFields.isSome = true := hx
      refine free_mem_clearTargets hguarded hcount (fun h => ?_)
        (((hmessages j).mem_free j).2 hsome).1
      rw [h] at hsome
      cases hsome
    | securityFooter => exact securityFooter_mem_clearTargets hguarded hx
    -- the id is never decoded
    | messageId =>
      have hne : m.messageId.getD [] ≠ [] := hx
      rw [hid] at hne
      exact absurd rfl hne
    | publisherIdString =>
      obtain ⟨s, hs, hne⟩ := hx
      exact publisherIdString_mem_clearTargets hguarded hs hne
    -- the one member that UA_NetworkMessage_clear forgets
    | signature => exact absurd rfl hsignature

end Clear

/-! ## Flags and arrays during decoding -/

variable {src : Bytes} {T : DataTypes}

/-- The flags are set for what is there, and the security trailer has not been reached. -/
abbrev Unsigned (m : NetworkMessage) : Prop :=
  m.Guarded ∧ m.signature = none ∧ m.securityFooter = none

/-- Nothing but flags has been read. -/
def NetworkMessage.OnlyFlags (m : NetworkMessage) : Prop :=
  m.payloadHeader = default ∧ m.payload = default ∧ m.promotedFields = none ∧
    m.securityFooter = none ∧ (∀ s, m.publisherId = .string s → s = none) ∧ m.messageId = none ∧
    m.signature = none

theorem NetworkMessage.OnlyFlags.unsigned {m : NetworkMessage} (h : m.OnlyFlags) : Unsigned m := by
  obtain ⟨hheader, hpayload, hpromoted, hfooter, hid, hmessageId, hsignature⟩ := h
  refine ⟨⟨?_, ?_, ?_, ?_, ?_, fun _ => hid, hmessageId⟩, hsignature, hfooter⟩
  · rw [hheader]
    exact nofun
  · rw [hpayload]
    exact nofun
  · rw [hpayload]
    exact nofun
  · rw [hpromoted]
    exact nofun
  · rw [hfooter]
    exact nofun

theorem zeroOfType_string {v : UInt8} {s : UAString} (h : PublisherId.zeroOfType v = .string s) :
    s = none := by
  unfold PublisherId.zeroOfType at h
  split at h <;> cases h
  rfl

/-- The flags are all that the flag bytes leave. -/
theorem flagsDecodeBinary_onlyFlags :
    Ends NetworkMessage.OnlyFlags (flagsDecodeBinary src) NetworkMessage.OnlyFlags
      NetworkMessage.OnlyFlags := by
  refine .bind (.decodeLocal (fun _ h => h) fun _ h => h) fun v => ?_
  refine .bind (.assign fun _ h => h) fun _ => .onBit ?_ fun _ h => h
  refine .bind (.decodeLocal (fun _ h => h) fun _ h => h) fun w => ?_
  refine .bind (Q := NetworkMessage.OnlyFlags) (.assign ?_) fun _ => .onBit ?_ fun _ h => h
  · rintro m ⟨hheader, hpayload, hpromoted, hfooter, -, hrest⟩
    exact ⟨hheader, hpayload, hpromoted, hfooter, fun _ => zeroOfType_string, hrest⟩
  · exact .bind (.decodeLocal (fun _ h => h) fun _ h => h) fun _ => .assign fun _ h => h

/-- An enabled publisher id may be any string. -/
theorem publisherIdDecodeBinary_unsigned :
    Ends (fun m => Unsigned m ∧ m.publisherIdEnabled = true) (publisherIdDecodeBinary src T)
      Unsigned Unsigned := by
  have hset : ∀ (id : PublisherId) (m : NetworkMessage), Unsigned m ∧ m.publisherIdEnabled = true →
      Unsigned { m with publisherId := id } := by
    rintro id m ⟨⟨⟨hids, hsizes, hmessages, hpromoted, hfooter, -, hid⟩, hsignature⟩, henabled⟩
    refine ⟨⟨hids, hsizes, hmessages, hpromoted, hfooter, fun h => ?_, hid⟩, hsignature⟩
    exact absurd (henabled.symm.trans h) (by decide)
  refine Ends.current_bind fun m _ => ?_
  refine Ends.weaken (fun _ h => h.2) ?_
  cases m.publisherId with
  | byte v => exact .decodeInto (fun a m h => hset (.byte a) m h) fun m h => hset _ m h
  | uint16 v => exact .decodeInto (fun a m h => hset (.uint16 a) m h) fun m h => hset _ m h
  | uint32 v => exact .decodeInto (fun a m h => hset (.uint32 a) m h) fun m h => hset _ m h
  | uint64 v => exact .decodeInto (fun a m h => hset (.uint64 a) m h) fun m h => hset _ m h
  | string v => exact .decodeInto (fun a m h => hset (.string a) m h) fun m h => hset _ m h
  | reserved v => exact .fail fun _ h => h.1

/-- The payload header leaves the signature alone. -/
theorem payloadHeaderDecodeBinary_unsigned :
    Ends (fun m => Unsigned m ∧ m.payloadHeaderEnabled = true) (payloadHeaderDecodeBinary src)
      Unsigned Unsigned := by
  have hset : ∀ (header : DataSetPayloadHeader) (m : NetworkMessage), (Unsigned m ∧
      m.payloadHeaderEnabled = true) ∧ m.networkMessageType = .dataSet →
      (Unsigned { m with payloadHeader := header } ∧
        m.payloadHeaderEnabled = true) ∧ m.networkMessageType = .dataSet := by
    rintro header m ⟨⟨⟨⟨-, hrest⟩, hsignature⟩, henabled⟩, htype⟩
    exact ⟨⟨⟨⟨fun _ => ⟨htype, henabled⟩, hrest⟩, hsignature⟩, henabled⟩, htype⟩
  refine .current_bind fun m _ => .ite (fun _ => .fail fun _ h => h.2.1) fun htype => ?_
  refine .bind (Q := fun m => (Unsigned m ∧ m.payloadHeaderEnabled = true) ∧
    m.networkMessageType = .dataSet) (.decodeInto ?_ ?_) fun _ => .current_bind fun m _ =>
      uint16ArrayDecodeBinary_ends (Q := fun m => (Unsigned m ∧ m.payloadHeaderEnabled = true) ∧
        m.networkMessageType = .dataSet) (fun m h => hset _ m h.2) (fun m i v h => hset _ m h)
        (fun _ h => h.1.1) |>.conseq (fun _ h => h) (fun _ h => h.1.1) fun _ h => h
  · rintro v m' ⟨rfl, h⟩
    exact hset _ m' ⟨h, Classical.not_not.mp htype⟩
  · rintro m' ⟨rfl, h⟩
    exact (hset _ m' ⟨h, Classical.not_not.mp htype⟩).1.1

/-- The promoted fields leave the signature alone. -/
theorem promotedFieldsDecodeBinary_unsigned :
    Ends (fun m => Unsigned m ∧ m.promotedFieldsEnabled = true) (promotedFieldsDecodeBinary src T)
      Unsigned Unsigned := by
  have hset : ∀ (fields : Option (List (Slot Variant))) (n : UInt16) (m : NetworkMessage),
      Unsigned m ∧ m.promotedFieldsEnabled = true →
      Unsigned { m with promotedFields := fields, promotedFieldsSize := n } ∧
        m.promotedFieldsEnabled = true := by
    rintro fields n m ⟨⟨⟨hids, hsizes, hmessages, -, hrest⟩, hsignature⟩, henabled⟩
    exact ⟨⟨⟨hids, hsizes, hmessages, fun _ => henabled, hrest⟩, hsignature⟩, henabled⟩
  have hfield : ∀ counter, Ends (fun m => Unsigned m ∧ m.promotedFieldsEnabled = true)
      (promotedFieldDecodeBinary src T counter)
      (fun m => Unsigned m ∧ m.promotedFieldsEnabled = true)
      (fun m => Unsigned m ∧ m.promotedFieldsEnabled = true) := fun counter =>
    .bind (.assign fun m h => hset _ _ m h) fun _ =>
      .bind (.assign fun m h => hset _ _ m h) fun _ =>
      .decodeInto (fun _ m h => hset _ _ m h) fun m h => hset _ _ m h
  -- the loop adds to the promoted fields, and their flag stays on
  have hloop : ∀ offsetEnd fuel counter, Ends (fun m => Unsigned m ∧ m.promotedFieldsEnabled = true)
      (promotedFieldsLoop src T offsetEnd fuel counter)
      (fun m => Unsigned m ∧ m.promotedFieldsEnabled = true)
      (fun m => Unsigned m ∧ m.promotedFieldsEnabled = true) := by
    intro offsetEnd fuel
    induction fuel with
    | zero => exact fun _ _ _ => trivial
    | succ fuel ih =>
      intro counter
      exact .bind (hfield counter) fun _ => .gets_bind fun _ =>
        .ite (fun _ => ih (counter + 1)) fun _ => .pure fun _ h => h
  exact (Ends.bind (.decodeLocal (fun _ h => h) fun _ h => h) fun _ =>
    .ite (fun _ => .gets_bind fun _ => hloop _ _ 0) fun _ => .pure fun _ h => h).conseq
      (fun _ h => h) (fun _ h => h.1) fun _ h => h.1

/-- The headers leave the signature alone. -/
theorem headersDecodeBinary_unsigned :
    Ends (fun _ => True) (headersDecodeBinary src T) Unsigned Unsigned := by
  refine .bind (Q := NetworkMessage.OnlyFlags)
    (.assign fun _ _ => ⟨rfl, rfl, rfl, rfl, fun _ h => (by cases h), rfl, rfl⟩) fun _ => ?_
  refine .bind (flagsDecodeBinary_onlyFlags.conseq (fun _ h => h) (fun _ h => h.unsigned)
    fun _ h => h.unsigned) fun _ => ?_
  refine .bind (.onFlag publisherIdDecodeBinary_unsigned fun _ h _ => h) fun _ => ?_
  refine .bind (.onFlag (.decodeInto (fun _ _ h => h.1) fun _ h => h.1) fun _ h _ => h) fun _ => ?_
  refine .bind (.onFlag (.decodePart (Ends.trivially (P := fun _ => True)) (fun _ _ => trivial)
    (fun _ _ h _ => h.1) fun _ _ h _ => h.1) fun _ h _ => h) fun _ => ?_
  refine .bind (.onFlag payloadHeaderDecodeBinary_unsigned fun _ h _ => h) fun _ => ?_
  refine .bind (.onFlag (.decodeInto (fun _ _ h => h.1) fun _ h => h.1) fun _ h _ => h) fun _ => ?_
  refine .bind (.onFlag (.decodeInto (fun _ _ h => h.1) fun _ h => h.1) fun _ h _ => h) fun _ => ?_
  refine .bind (.onFlag promotedFieldsDecodeBinary_unsigned fun _ h _ => h) fun _ => ?_
  have hset : ∀ (m : NetworkMessage) (h : NetworkMessageSecurityHeader), Unsigned m →
      Unsigned { m with securityHeader := h } := by
    rintro m h ⟨⟨hids, hsizes, hmessages, hpromoted, -, hrest⟩, hsignature, hfooter⟩
    refine ⟨⟨hids, hsizes, hmessages, hpromoted, ?_, hrest⟩, hsignature, hfooter⟩
    show m.securityFooter.isSome = true → _
    rw [hfooter]
    exact nofun
  exact .onFlag (.decodePart (Ends.trivially (P := fun _ => True)) (fun _ _ => trivial)
    (fun m n h _ => hset m n h.1) fun m n h _ => hset m n h.1) fun _ h _ => h

/-- The sizes leave the signature alone. -/
theorem sizesDecodeBinary_unsigned :
    Ends (fun m => Unsigned m ∧ m.networkMessageType = .dataSet) (sizesDecodeBinary src)
      (fun m => Unsigned m ∧ m.networkMessageType = .dataSet)
      (fun m => Unsigned m ∧ m.networkMessageType = .dataSet) := by
  have hset : ∀ (sizes : Option (List UInt16)) (m : NetworkMessage), (Unsigned m ∧
      m.networkMessageType = .dataSet) ∧ m.payloadHeaderEnabled = true →
      (Unsigned { m with payload := { m.payload with sizes := sizes } } ∧
        m.networkMessageType = .dataSet) ∧ m.payloadHeaderEnabled = true := by
    rintro sizes m ⟨⟨⟨⟨hids, -, hrest⟩, hsignature⟩, htype⟩, henabled⟩
    exact ⟨⟨⟨⟨hids, fun _ => ⟨htype, henabled⟩, hrest⟩, hsignature⟩, htype⟩, henabled⟩
  refine .current_bind fun m _ => .ite (fun hc => ?_) fun _ => .pure fun _ h => h.2
  let P := fun m : NetworkMessage => (Unsigned m ∧ m.networkMessageType = .dataSet) ∧
    m.payloadHeaderEnabled = true
  suffices harray : Ends _ _ P P from harray.conseq (fun _ h => h) (fun _ h => h.1) fun _ h => h.1
  refine uint16ArrayDecodeBinary_ends ?_ (fun m i v h => hset _ m h) fun _ h => h
  rintro m' ⟨rfl, h⟩
  exact hset _ m' ⟨h, hc.1⟩

/-- The DataSetMessages leave the signature alone. -/
theorem dataSetMessagesDecodeBinary_unsigned :
    Ends (fun m => Unsigned m ∧ m.networkMessageType = .dataSet) (dataSetMessagesDecodeBinary src T)
      Unsigned Unsigned := by
  have hset : ∀ (ds : Option (List DataSetMessage)) (m : NetworkMessage), (Unsigned m ∧
      m.networkMessageType = .dataSet) →
      (Unsigned { m with payload := { m.payload with dataSetMessages := ds } } ∧
        m.networkMessageType = .dataSet) := by
    rintro ds m ⟨⟨⟨hids, hsizes, -, hrest⟩, hsignature⟩, htype⟩
    exact ⟨⟨⟨hids, hsizes, fun _ => htype, hrest⟩, hsignature⟩, htype⟩
  let P := fun m : NetworkMessage => Unsigned m ∧ m.networkMessageType = .dataSet
  have hmessage : ∀ i, Ends P (decodePart (NetworkMessage.dataSetMessageAt i)
      (NetworkMessage.setDataSetMessage i) (dataSetMessageDecodeBinary src T)) P P := fun i =>
    .decodePart (Ends.trivially (P := fun _ => True)) (fun _ _ => trivial)
      (fun m d h _ => hset _ m h) fun m d h _ => hset _ m h
  refine .current_bind fun m _ => .weaken (fun _ h => h.2) ?_
  suffices hall : Ends P _ P P from hall.conseq (fun _ h => h) (fun _ h => h.1) fun _ h => h.1
  exact .bind (Q := P) (.assign fun m h => hset _ m h) fun _ => .forUpTo hmessage

/-! ## The sections in front of the signature -/

section

variable (src T)

/-- Everything but the signature. -/
def beforeSignatureDecodeBinary : Decoder NetworkMessage Unit := do
  headersDecodeBinary src T
  let m ← current
  if m.networkMessageType ≠ .dataSet then
    fail badNotImplemented
  else do
    sizesDecodeBinary src
    dataSetMessagesDecodeBinary src T
    onFlag (·.securityEnabled) (securityFooterDecodeBinary src)

/-- The message is signed. -/
def NetworkMessage.isSigned (m : NetworkMessage) : Bool :=
  m.securityEnabled && m.securityHeader.networkMessageSigned

/-- Where the signature begins, if the decoder gets there. -/
def signatureStart (offset : Nat) : Option Nat :=
  match beforeSignatureDecodeBinary src T ⟨offset, default⟩ with
  | .done _ s => if s.dst.isSigned then some s.offset else none
  | _ => none

end

/-- The footer, and what is known of the message while it is read. -/
def NetworkMessage.InFooter (m : NetworkMessage) : Prop :=
  m.Guarded ∧ m.signature = none ∧ m.securityEnabled = true

/-- The footer leaves the signature alone. -/
theorem securityFooterDecodeBinary_unsigned :
    Ends (fun m => Unsigned m ∧ m.securityEnabled = true) (securityFooterDecodeBinary src)
      NetworkMessage.InFooter NetworkMessage.InFooter := by
  have hset : ∀ (f : UAString) (m : NetworkMessage), m.InFooter →
      m.securityHeader.securityFooterEnabled = true ∧ m.securityHeader.securityFooterSize > 0 →
      NetworkMessage.InFooter { m with securityFooter := f } := by
    rintro f m ⟨⟨hids, hsizes, hmessages, hpromoted, -, hrest⟩, hsignature⟩ hc
    exact ⟨⟨hids, hsizes, hmessages, hpromoted, fun _ => hc, hrest⟩, hsignature⟩
  let P := fun m : NetworkMessage => m.InFooter ∧
    m.securityHeader.securityFooterEnabled = true ∧ m.securityHeader.securityFooterSize > 0
  -- the loop stores bytes into a footer that is there
  have hloop : ∀ fuel i, Ends P (securityFooterLoop src fuel i) P P := by
    intro fuel
    induction fuel with
    | zero => exact fun _ _ _ => trivial
    | succ fuel ih =>
      intro i
      refine .current_bind fun m _ => .weaken (fun _ h => h.2) (.ite (fun _ => ?_) fun _ =>
        .pure fun _ h => h)
      exact .bind (.decodeInto (fun v m h => ⟨hset _ m h.1 h.2, h.2⟩)
        fun m h => ⟨hset _ m h.1 h.2, h.2⟩) fun _ => ih (i + 1)
  refine .current_bind fun m _ => .ite (fun hc => ?_) fun _ => .pure ?_
  · refine (Ends.bind (Q := P) (.assign ?_) fun _ => hloop _ _).conseq (fun _ h => h)
      (fun _ h => h.1) fun _ h => h.1
    rintro m' ⟨rfl, hm, henabled⟩
    exact ⟨hset _ m' ⟨hm.1, hm.2.1, henabled⟩ hc, hc⟩
  · rintro m' ⟨rfl, hm, henabled⟩
    exact ⟨hm.1, hm.2.1, henabled⟩

/-- Up to the signature, every failure and every success leaves flags for what is there. -/
theorem beforeSignatureDecodeBinary_guarded :
    Ends (fun _ => True) (beforeSignatureDecodeBinary src T)
      (fun m => m.Guarded ∧ m.signature = none) (fun m => m.Guarded ∧ m.signature = none) := by
  refine .bind (headersDecodeBinary_unsigned.conseq (fun _ h => h) (fun _ h => h)
    fun _ h => ⟨h.1, h.2.1⟩) fun _ => .current_bind fun m _ =>
      .ite (fun _ => .fail fun _ h => ⟨h.2.1, h.2.2.1⟩) fun htype => ?_
  refine .bind (Q := fun m => Unsigned m ∧ m.networkMessageType = .dataSet)
    (sizesDecodeBinary_unsigned.conseq ?_ (fun _ h => h) fun _ h => ⟨h.1.1, h.1.2.1⟩) fun _ => ?_
  · rintro m' ⟨rfl, hm⟩
    exact ⟨hm, Classical.not_not.mp htype⟩
  refine .bind (dataSetMessagesDecodeBinary_unsigned.conseq (fun _ h => h) (fun _ h => h)
    fun _ h => ⟨h.1, h.2.1⟩) fun _ => .onFlag ?_ fun _ h _ => ⟨h.1, h.2.1⟩
  exact securityFooterDecodeBinary_unsigned.conseq (fun _ h => h) (fun _ h => ⟨h.1, h.2.1⟩)
    fun _ h => ⟨h.1, h.2.1⟩

/-! ## DataSetMessages at the exits -/

/-- A NULL pointer leads to nothing. -/
theorem forall_eq_some_none {α : Type} {P : α → Prop} : ∀ a, (none : Option α) = some a → P a :=
  nofun

theorem releasable_default : (default : DataSetMessage).Releasable :=
  ⟨forall_eq_some_none, rfl, forall_eq_some_none⟩

/-- A DataSetMessage that was decoded. -/
theorem Frame.Describes.releasable {f : Frame} {d : DataSetMessage} (h : f.Describes src T d) :
    d.Releasable := by
  cases h with
  | keyFrame htype _ hcount hreads =>
    refine ⟨fun vs hvs => ?_, rfl, forall_eq_some_none⟩
    obtain rfl := Option.some.inj hvs
    exact ⟨isKeyFrame_iff.mp htype, hreads.length_eq.symm.trans hcount⟩
  | deltaFrame htype hvalues _ hlen _ =>
    refine ⟨forall_eq_some_none, rfl, fun fs hfs => ?_⟩
    obtain rfl := Option.some.inj hfs
    rw [Frame.hasValues, Bool.and_eq_true] at hvalues
    exact ⟨isDeltaFrame_iff.mp htype, hvalues.2, hlen⟩
  | bare => exact ⟨forall_eq_some_none, rfl, forall_eq_some_none⟩

/-- A DataSetMessage whose decoder failed. -/
theorem Frame.Interrupted.releasable {f : Frame} {d : DataSetMessage} (h : f.Interrupted d) :
    d.Releasable := by
  cases h with
  | keyFrame htype hlen =>
    refine ⟨fun vs hvs => ?_, rfl, forall_eq_some_none⟩
    obtain rfl := Option.some.inj hvs
    exact ⟨isKeyFrame_iff.mp htype, hlen⟩
  | deltaFrame htype hvalues hlen _ =>
    refine ⟨forall_eq_some_none, rfl, fun fs hfs => ?_⟩
    obtain rfl := Option.some.inj hfs
    rw [Frame.hasValues, Bool.and_eq_true] at hvalues
    exact ⟨isDeltaFrame_iff.mp htype, hvalues.2, hlen⟩
  | bare => exact ⟨forall_eq_some_none, rfl, forall_eq_some_none⟩

/-- The arrays are as long as their counters, and there are no more DataSetMessages than the
cleanup visits. -/
structure NetworkMessage.Countable (m : NetworkMessage) : Prop where
  arrays : ArraysOk m
  count : (m.payload.dataSetMessages.getD []).length ≤ m.dataSetMessageCount
  messages : ∀ d ∈ m.payload.dataSetMessages.getD [], d.Releasable

/-- Also where there is no DataSetMessage. -/
theorem NetworkMessage.Countable.at {m : NetworkMessage} (h : m.Countable) (j : Nat) :
    (m.dataSetMessageAt j).Releasable := by
  unfold NetworkMessage.dataSetMessageAt
  cases hd : (m.payload.dataSetMessages.getD [])[j]? with
  | none => exact releasable_default
  | some d => exact h.messages d (List.mem_of_getElem? hd)

/-- What a success leaves. -/
theorem Decoded.countable {offset : Nat} {m : NetworkMessage} (h : Decoded src T offset m) :
    m.Countable := by
  obtain ⟨ds, hds, hlen, hall⟩ := h.messages
  refine ⟨h.arrays, ?_, ?_⟩
  · rw [hds]
    exact Nat.le_of_eq hlen
  · rw [hds]
    exact forall_of_forall₂ hall fun p d hd => hd.releasable

/-- What a failure leaves. -/
theorem HalfDecoded.countable {offset : Nat} {m : NetworkMessage}
    (h : HalfDecoded src T offset m) : m.Countable := by
  cases h with
  | before harrays hnone _ =>
    refine ⟨harrays, ?_, ?_⟩
    · rw [hnone]
      exact Nat.zero_le _
    · rw [hnone]
      exact fun d hd => absurd hd List.not_mem_nil
  -- the loop broke off: the messages in front, a half-filled one, and blanks
  | @messages m ds _ harrays hhalf =>
    obtain ⟨starts, done, b, k, rfl, hlen, hdone, hlast⟩ := hhalf
    have hb : b.Releasable := by
      rcases hlast with ⟨q, -, hb⟩ | ⟨-, hb⟩
      · exact hb.releasable
      · exact hb.elim
    refine ⟨⟨harrays.1, harrays.2, harrays.3, harrays.4⟩, ?_, fun d hd => ?_⟩
    · show (done ++ b :: List.replicate k default).length ≤ m.dataSetMessageCount
      rw [List.length_append, List.length_cons, List.length_replicate]
      omega
    · change d ∈ done ++ b :: List.replicate k default at hd
      rcases List.mem_append.mp hd with hd | hd
      · exact forall_of_forall₂ hdone (fun p d hd => hd.releasable) d hd
      · rcases List.mem_cons.mp hd with rfl | hd
        · exact hb
        · rw [List.eq_of_mem_replicate hd]
          exact releasable_default
  | @trailer m ds footer signature _ harrays hlen hall =>
    have hcount : ds.length ≤ m.dataSetMessageCount := Nat.le_of_eq hlen
    have hds : ∀ d ∈ ds, d.Releasable := forall_of_forall₂ hall fun p d hd => hd.releasable
    exact ⟨⟨harrays.1, harrays.2, harrays.3, harrays.4⟩, hcount, hds⟩

/-! ## What is released -/

/-- All memory of the message is among what `UA_NetworkMessage_clear` releases. -/
def NetworkMessage.ReleasesAll (m : NetworkMessage) : Prop :=
  ∀ x, m.Owns x → x ∈ (networkMessageClear m).1.map ClearEvent.target

/-- **All that is owned is freed but for the signature.** -/
theorem releasesAll_iff_signature {m : NetworkMessage} (hm : m.Countable) (hguarded : m.Guarded) :
    m.ReleasesAll ↔ m.signature.getD [] = [] := by
  have htargets : (networkMessageClear m).1.map ClearEvent.target = clearTargets m := by
    rw [networkMessageClear, List.map_map]
    exact List.map_id _
  unfold NetworkMessage.ReleasesAll
  rw [htargets]
  constructor
  · intro h
    by_cases hnil : m.signature.getD [] = []
    · exact hnil
    · exact absurd (h (.buffer .signature) hnil) (not_mem_clearTargets_signature m)
  · intro hnil x hx
    refine mem_clearTargets_of_owns hm.arrays hguarded hm.count hm.at hx ?_
    rintro rfl
    exact hx hnil

/-! ## The signature -/

/-- The footer leaves the security flag alone. -/
theorem securityFooterDecodeBinary_enabled :
    Ends (fun m => m.securityEnabled = true) (securityFooterDecodeBinary src)
      (fun m => m.securityEnabled = true) fun _ => True := by
  have hloop : ∀ fuel i, Ends (fun m => m.securityEnabled = true) (securityFooterLoop src fuel i)
      (fun m => m.securityEnabled = true) fun _ => True := by
    intro fuel
    induction fuel with
    | zero => exact fun _ _ _ => trivial
    | succ fuel ih =>
      intro i
      exact .current_bind fun m _ => .weaken (fun _ h => h.2) (.ite (fun _ =>
        .bind (.decodeInto (fun _ _ h => h) fun _ _ => trivial) fun _ => ih (i + 1)) fun _ =>
          .pure fun _ h => h)
  exact .current_bind fun m _ => .weaken (fun _ h => h.2) (.ite (fun _ =>
    .bind (Q := fun m => m.securityEnabled = true) (.assign fun _ h => h) fun _ => hloop _ _)
      fun _ => .pure fun _ h => h)

/-- The signature is the last section. -/
theorem networkMessageDecodeBinaryInternal_eq :
    networkMessageDecodeBinaryInternal src T = (beforeSignatureDecodeBinary src T >>= fun _ =>
      onFlag NetworkMessage.isSigned <|
        decodeInto (uaStringDecodeBinary src T) fun v m => { m with signature := v }) := by
  have htrailer : onFlag (·.securityEnabled) (securityTrailerDecodeBinary src T) =
      (onFlag (·.securityEnabled) (securityFooterDecodeBinary src) >>= fun _ =>
        onFlag NetworkMessage.isSigned <|
          decodeInto (uaStringDecodeBinary src T) fun v m => { m with signature := v }) := by
    funext s
    have hflag : ∀ (x : Decoder NetworkMessage Unit), onFlag (·.securityEnabled) x s =
        (if s.dst.securityEnabled then x else pure () : Decoder NetworkMessage Unit) s :=
      fun _ => rfl
    rw [hflag, bind_run, hflag]
    cases henabled : s.dst.securityEnabled with
    | false =>
      show Outcome.done () s = (if s.dst.isSigned then _ else _ : Decoder NetworkMessage Unit) s
      rw [NetworkMessage.isSigned, henabled]
      rfl
    | true =>
      simp only [if_true]
      rw [securityTrailerDecodeBinary, bind_run]
      cases hrun : securityFooterDecodeBinary src s with
      | fault => rfl
      | fail e t => rfl
      -- the footer leaves the flags as they are
      | done u t =>
        have ht := securityFooterDecodeBinary_enabled.done henabled hrun
        show (if t.dst.securityHeader.networkMessageSigned then _ else _ :
          Decoder NetworkMessage Unit) t =
            (if t.dst.isSigned then _ else _ : Decoder NetworkMessage Unit) t
        rw [NetworkMessage.isSigned, ht, Bool.true_and]
  unfold networkMessageDecodeBinaryInternal beforeSignatureDecodeBinary payloadDecodeBinary
  simp only [Routine.bind_assoc, htrailer]
  congr 1
  funext _
  congr 1
  funext m
  by_cases htype : m.networkMessageType = .dataSet
  · simp only [htype, ne_eq, not_true_eq_false, if_false, Routine.bind_assoc]
  · simp only [ne_eq, htype, not_false_eq_true, if_true]
    rfl

/-- The bytes that are not copied are read one by one. -/
theorem times_byte_le {n : Nat} {s t : Ctx} {bs : Bytes}
    (h : times (byteDecodeBinary src) n s = .done bs t) (hn : 0 < n) : s.pos + n ≤ src.length := by
  induction n generalizing s t bs with
  | zero => exact absurd hn (Nat.lt_irrefl 0)
  | succ n ih =>
    obtain ⟨b, s', hb, hrest⟩ := bind_eq_done.mp h
    obtain ⟨cs, t', hcs, -⟩ := bind_eq_done.mp hrest
    have hs' := (byteDecodeBinary_eq_done hb).2
    have hle : s.pos + 1 ≤ src.length := by
      obtain ⟨bytes, hb, -⟩ := map_eq_done.mp hb
      rw [fixedDecodeBinary_run] at hb
      split at hb
      · assumption
      · cases hb
    by_cases hzero : n = 0
    · omega
    · have := ih hcs (Nat.pos_of_ne_zero hzero)
      rw [hs'] at this
      simp only at this
      omega

/-- A positive length is the number that stands there. -/
theorem arrayLengthAt_pos {p : Nat} (h : 0 < arrayLengthAt src p) :
    (arrayLengthAt src p).toNat = (uint32OfMemory ((src.drop p).take 4)).toNat ∧
      (uint32OfMemory ((src.drop p).take 4)).toNat < 2 ^ 31 := by
  have hlt := (uint32OfMemory ((src.drop p).take 4)).toNat_lt
  change 0 < signedLength (uint32OfMemory ((src.drop p).take 4)) at h
  show (signedLength (uint32OfMemory ((src.drop p).take 4))).toNat = _ ∧ _
  unfold signedLength at h ⊢
  split at h
  · omega
  · rename_i hneg
    rw [if_neg hneg]
    omega

/-- A string with characters that was read has a positive length, and all of it is there. -/
theorem uaStringDecodeBinary_inside (hT : StandardTypes T) {p q : Nat} {s : UAString}
    (hrun : uaStringDecodeBinary src T p = .done s q) (hne : s.getD [] ≠ []) :
    0 < arrayLengthAt src p ∧ p + 4 + (arrayLengthAt src p).toNat ≤ src.length := by
  have hsize : (T.get (DataTypes.builtin .byte)).memSize = 1 := hT.memSize .byte rfl
  obtain ⟨c, hread, -⟩ := uaDecodeBinary_eq_done hrun
  obtain ⟨v, c', hv, hrest⟩ := bind_eq_done.mp hread
  obtain ⟨rfl, rfl⟩ := uint32DecodeBinary_eq_done hv
  have hpos : 0 < arrayLengthAt src p := by
    by_cases hle : signedLength (uint32OfMemory ((src.drop p).take 4)) ≤ 0
    · rw [if_pos hle] at hrest
      cases hrest
      split at hne
      · exact absurd rfl hne
      · exact absurd rfl hne
    · exact Int.lt_of_not_ge hle
  obtain ⟨hnat, -⟩ := arrayLengthAt_pos hpos
  have hnot : ¬ signedLength (uint32OfMemory ((src.drop p).take 4)) ≤ 0 := Int.not_le.mpr hpos
  rw [if_neg hnot, hsize, Nat.one_mul] at hrest
  obtain ⟨u, c'', hneed, hdata⟩ := bind_eq_done.mp hrest
  have hc : c'' = ⟨p + 4, 0⟩ := by
    unfold need at hneed
    split at hneed
    · cases hneed
      rfl
    · cases hneed
  subst hc
  refine ⟨hpos, ?_⟩
  rw [hnat]
  -- the characters are copied, or read one by one
  split at hdata
  · obtain ⟨bytes, hbytes, -⟩ := map_eq_done.mp hdata
    rw [fixedDecodeBinary_run] at hbytes
    split at hbytes
    · assumption
    · cases hbytes
  · obtain ⟨bytes, hbytes, -⟩ := map_eq_done.mp hdata
    have hpositive : 0 < (uint32OfMemory ((src.drop p).take 4)).toNat := by omega
    exact times_byte_le hbytes hpositive

/-- Where a positive length and all of the characters stand, they are the encoding of a string. -/
theorem at_stringBytes {p n : Nat} (hn : n = (uint32OfMemory ((src.drop p).take 4)).toNat)
    (hle : p + 4 + n ≤ src.length) :
    At src p (stringBytes (some ((src.drop (p + 4)).take n))) := by
  have hdata : ((src.drop (p + 4)).take n).length = n := by
    rw [List.length_take, List.length_drop]
    omega
  have hfour : ((src.drop p).take 4).length = 4 := by
    rw [List.length_take, List.length_drop]
    omega
  have hword : leBytes 4 n = (src.drop p).take 4 := by
    have hofLE : n = ofLE ((src.drop p).take 4) := by
      rw [hn]
      show (UInt32.ofNat (ofLE ((src.drop p).take 4))).toNat = _
      rw [UInt32.toNat_ofNat', Nat.mod_eq_of_lt]
      have := ofLE_lt ((src.drop p).take 4)
      rwa [hfour] at this
    have hback := leBytes_ofLE ((src.drop p).take 4)
    rwa [hfour, ← hofLE] at hback
  have hbytes : stringBytes (some ((src.drop (p + 4)).take n)) =
      (src.drop p).take 4 ++ (src.drop (p + 4)).take n := by
    show leBytes 4 (UInt32.ofNat ((src.drop (p + 4)).take n).length).toNat ++ _ = _
    rw [hdata, hn, UInt32.ofNat_toNat, ← hn, hword]
    rfl
  rw [hbytes, at_append, hfour]
  exact ⟨List.take_prefix 4 _, List.take_prefix _ _⟩

/-- A string with characters is read where its length is positive and all of it is there. -/
theorem uaStringDecodeBinary_nonempty_iff (hT : StandardTypes T) (p : Nat) :
    (∃ (s : UAString) (q : Nat), uaStringDecodeBinary src T p = .done s q ∧ s.getD [] ≠ []) ↔
      0 < arrayLengthAt src p ∧ p + 4 + (arrayLengthAt src p).toNat ≤ src.length := by
  constructor
  · rintro ⟨s, q, hrun, hne⟩
    exact uaStringDecodeBinary_inside hT hrun hne
  · rintro ⟨hpos, hle⟩
    obtain ⟨hnat, hlt⟩ := arrayLengthAt_pos hpos
    have hdata : ((src.drop (p + 4)).take (arrayLengthAt src p).toNat).length =
        (arrayLengthAt src p).toNat := by
      rw [List.length_take, List.length_drop]
      omega
    have hfits : stringFits (some ((src.drop (p + 4)).take (arrayLengthAt src p).toNat)) = true :=
      decide_eq_true (by
        show ((src.drop (p + 4)).take (arrayLengthAt src p).toNat).length ≤ int32Max
        rw [hdata]
        unfold int32Max
        omega)
    refine ⟨_, _, readsAt_uaString hT hfits p (at_stringBytes hnat hle), fun hnil => ?_⟩
    rw [Option.getD_some] at hnil
    rw [hnil] at hdata
    have hzero : (arrayLengthAt src p).toNat = 0 := hdata.symm
    omega

/-! ## The whole decoder -/

variable (src T) in
/-- At both exits of the decoder, the cleanup that follows releases all that was attached. -/
def ReleasesAll (offset : Nat) : Prop :=
  (networkMessageDecodeBinaryInternal src T ⟨offset, default⟩).Sat
    (fun _ t => t.dst.ReleasesAll) (fun _ t => t.dst.ReleasesAll)

variable (src T) in
/-- The datagram ends with a signature of at least one byte. -/
def CarriesSignature (offset : Nat) : Prop :=
  ∃ p, signatureStart src T offset = some p ∧ 0 < arrayLengthAt src p ∧
    p + 4 + (arrayLengthAt src p).toNat ≤ src.length

/-- A failure in front of the signature. -/
theorem releasesAll_of_fail {offset : Nat} {s : Decoding NetworkMessage} {e : ErrorCode}
    (h : beforeSignatureDecodeBinary src T ⟨offset, default⟩ = .fail e s) :
    ReleasesAll src T offset := by
  have hexits := @networkMessageDecodeBinaryInternal_exits src T ⟨offset, default⟩
  obtain ⟨hguarded, hsignature⟩ := beforeSignatureDecodeBinary_guarded.failed trivial h
  have hrun : networkMessageDecodeBinaryInternal src T ⟨offset, default⟩ = .fail e s := by
    rw [networkMessageDecodeBinaryInternal_eq, bind_fail h]
  unfold ReleasesAll
  rw [hrun] at hexits ⊢
  have hm : s.dst.Countable := HalfDecoded.countable hexits
  exact (releasesAll_iff_signature hm hguarded).mpr (by rw [hsignature]; rfl)

/-- **Everything is released unless the datagram carries a signature.** -/
theorem releasesAll_iff (hT : StandardTypes T) (offset : Nat) :
    ReleasesAll src T offset ↔ ¬ CarriesSignature src T offset := by
  have hexits := @networkMessageDecodeBinaryInternal_exits src T ⟨offset, default⟩
  have hinternal := @networkMessageDecodeBinaryInternal_eq src T
  cases hrun : beforeSignatureDecodeBinary src T ⟨offset, default⟩ with
  | fault =>
    rw [hinternal, bind_run, hrun] at hexits
    exact absurd hexits (by simp)
  | fail e s =>
    -- it has failed before it came to a signature
    refine iff_of_true (releasesAll_of_fail hrun) ?_
    rintro ⟨p, hp, -⟩
    rw [signatureStart, hrun] at hp
    cases hp
  | done u s =>
    obtain ⟨hguarded, hsignature⟩ := beforeSignatureDecodeBinary_guarded.done trivial hrun
    have hlast : networkMessageDecodeBinaryInternal src T ⟨offset, default⟩ =
        (if s.dst.isSigned then
          decodeInto (uaStringDecodeBinary src T) fun v m => { m with signature := v }
        else pure () : Decoder NetworkMessage Unit) s := by
      rw [hinternal, bind_done hrun]
      rfl
    have hstart : signatureStart src T offset = if s.dst.isSigned then some s.offset else none := by
      rw [signatureStart, hrun]
    rw [hlast] at hexits
    unfold ReleasesAll CarriesSignature
    rw [hlast, hstart]
    cases hsigned : s.dst.isSigned with
    | false =>
      rw [hsigned] at hexits
      have hm : s.dst.Countable := Decoded.countable hexits
      refine iff_of_true ((releasesAll_iff_signature hm hguarded).mpr (by rw [hsignature]; rfl)) ?_
      rintro ⟨p, hp, -⟩
      cases hp
    | true =>
      rw [hsigned] at hexits
      -- only a signature with a byte in it has a buffer
      have hcarries : (∃ p, (if true then some s.offset else none) = some p ∧
          0 < arrayLengthAt src p ∧ p + 4 + (arrayLengthAt src p).toNat ≤ src.length) ↔
          ∃ (v : UAString) (q : Nat), uaStringDecodeBinary src T s.offset = .done v q ∧
            v.getD [] ≠ [] := by
        rw [uaStringDecodeBinary_nonempty_iff hT]
        simp
      rw [hcarries]
      simp only [if_true, decodeInto] at hexits ⊢
      cases hread : uaStringDecodeBinary src T s.offset with
      | fault =>
        rw [hread] at hexits
        exact absurd hexits (by simp)
      | fail e q =>
        rw [hread] at hexits
        have hm : NetworkMessage.Countable { s.dst with signature := default } :=
          HalfDecoded.countable hexits
        refine iff_of_true ((releasesAll_iff_signature hm hguarded).mpr rfl) ?_
        rintro ⟨v, q, hv, -⟩
        cases hv
      | done v q =>
        rw [hread] at hexits
        have hm : NetworkMessage.Countable { s.dst with signature := v } :=
          Decoded.countable hexits
        refine (releasesAll_iff_signature hm hguarded).trans ?_
        constructor
        · rintro hnil ⟨v', q', hv, hne⟩
          cases hv
          exact hne hnil
        · intro h
          by_cases hnil : v.getD [] = []
          · exact hnil
          · exact absurd ⟨v, q, rfl, hnil⟩ h

/-- A keep-alive message with a signature of one byte. -/
def signedKeepAlive : Bytes :=
  [0x81, 0x10, 0x01, 0, 0, 0, 0, 0, 0x80, 0x03, 1, 0, 0, 0, 0x2A]

/-- It is accepted, and its signature is never released. -/
theorem signedKeepAlive_not_released : ¬ ReleasesAll signedKeepAlive builtinTypes 0 := by
  intro h
  obtain ⟨t, hrun, hsignature⟩ : ∃ t, networkMessageDecodeBinaryInternal signedKeepAlive
      builtinTypes ⟨0, default⟩ = .done () t ∧ t.dst.signature = some [0x2A] := ⟨_, rfl, rfl⟩
  unfold ReleasesAll at h
  rw [hrun] at h
  have howned : t.dst.Owns (.buffer .signature) := by
    show t.dst.signature.getD [] ≠ []
    rw [hsignature]
    exact List.cons_ne_nil _ _
  obtain ⟨event, hevent, htarget⟩ := List.mem_map.mp (h _ howned)
  obtain ⟨target, htarget', rfl⟩ := List.mem_map.mp hevent
  exact not_mem_clearTargets_signature t.dst (htarget ▸ htarget')

/-- Cut off in front of its signature, it is rejected, and nothing is left behind. -/
theorem cutKeepAlive_released : ReleasesAll (signedKeepAlive.take 10) builtinTypes 0 := by
  refine (releasesAll_iff standardTypes_builtinTypes 0).mpr ?_
  rintro ⟨p, hp, -, hle⟩
  have hstart : signatureStart (signedKeepAlive.take 10) builtinTypes 0 = some 10 := rfl
  obtain rfl := Option.some.inj (hstart.symm.trans hp)
  have hlen : (signedKeepAlive.take 10).length = 10 := rfl
  omega

end OpenPubSub
