import OpenPubSub.NetworkMessage.Counters

/-!
# Which accepted messages are well formed

A consumer of a message indexes its arrays below their counters.

- `NetworkMessage.WellFormed` says that every array is as long as its counter.
- `reservedKeyFrame_not_wellFormed` is an accepted datagram whose message is not: a
  key frame announces a field in the field encoding 3, for which the decoder has no
  branch, so the count stays without an array.
- **`networkMessageDecodeBinary_wellFormed_iff`**: frames of this kind are all that
  can go wrong.
-/

namespace OpenPubSub

open Routine

/-- The arrays of a DataSetMessage are as long as its counter. -/
structure DataSetMessage.WellFormed (d : DataSetMessage) : Prop where
  keyFrame : d.header.dataSetMessageType = .dataKeyFrame →
    (d.dataSetFields.getD []).length = d.fieldCount.toNat
  deltaFrame : d.header.dataSetMessageType = .dataDeltaFrame →
    (d.deltaFrameFields.getD []).length = d.fieldCount.toNat

/-- The arrays of a NetworkMessage are as long as their counters. -/
structure NetworkMessage.WellFormed (m : NetworkMessage) : Prop where
  dataSetWriterIds : m.payloadHeaderEnabled = true →
    (m.payloadHeader.dataSetWriterIds.getD []).length = m.payloadHeader.count.toNat
  sizes : ∀ sizes, m.payload.sizes = some sizes → sizes.length = m.payloadHeader.count.toNat
  sizesPresent : m.payload.sizes.isSome = decide (m.payloadHeader.count > 1)
  dataSetMessages : (m.payload.dataSetMessages.getD []).length =
    if m.payloadHeaderEnabled then m.payloadHeader.count.toNat else 1
  frames : ∀ d ∈ m.payload.dataSetMessages.getD [], d.WellFormed
  promotedFields : (m.promotedFields.getD []).length = m.promotedFieldsSize.toNat
  messageNonce :
    (m.securityHeader.messageNonce.getD []).length = m.securityHeader.nonceLength.toNat
  securityFooter : (m.securityFooter.getD []).length = m.securityHeader.securityFooterSize.toNat

variable {src : Bytes} {T : DataTypes}

theorem isReserved_of_hasValues {f : Frame} (h : f.hasValues = true) : f.isReserved = false := by
  have henc : f.header.fieldEncoding ≠ .reserved := by
    intro he
    simp [Frame.hasValues, he, FieldEncoding.hasValues] at h
  simp [Frame.isReserved, henc]

theorem type_of_hasFieldCount {h : DataSetMessageHeader} (hh : h.hasFieldCount = true) :
    h.dataSetMessageType = .dataKeyFrame ∨ h.dataSetMessageType = .dataDeltaFrame := by
  simp only [DataSetMessageHeader.hasFieldCount, Bool.and_eq_true, Bool.or_eq_true,
    beq_iff_eq] at hh
  exact hh.1

/-- Only the reserved encoding leaves a count without an array. -/
theorem Frame.Describes.wellFormed_iff {f : Frame} {d : DataSetMessage}
    (h : f.Describes src T d) : f.isReserved = false ↔ d.WellFormed := by
  cases h with
  | keyFrame type values count reads =>
    refine iff_of_true (isReserved_of_hasValues values) ⟨fun _ => ?_, fun ht => ?_⟩
    · exact reads.length_eq.symm.trans count
    · rw [Frame.isKeyFrame, show f.header.dataSetMessageType = _ from ht] at type
      cases type
  | deltaFrame type values _ length _ =>
    refine iff_of_true (isReserved_of_hasValues values) ⟨fun ht => ?_, fun _ => length⟩
    rw [Frame.isDeltaFrame, show f.header.dataSetMessageType = _ from ht] at type
    cases type
  | bare values count =>
    by_cases h0 : f.fieldCount = 0
    · refine iff_of_true (by simp [Frame.isReserved, h0]) ⟨fun _ => ?_, fun _ => ?_⟩
      · show 0 = f.fieldCount.toNat
        rw [h0]
        rfl
      · show 0 = f.fieldCount.toNat
        rw [h0]
        rfl
    · -- a count, and nothing it counts
      have hres := count h0
      refine iff_of_false (by rw [hres]; exact Bool.noConfusion) fun hwf => h0 ?_
      have hh : f.header.hasFieldCount = true := by
        simp only [Frame.isReserved, Bool.and_eq_true] at hres
        exact hres.1.1
      have hz : f.fieldCount.toNat = 0 := by
        rcases type_of_hasFieldCount hh with ht | ht
        · exact (hwf.keyFrame ht).symm
        · exact (hwf.deltaFrame ht).symm
      exact UInt16.toNat_inj.mp hz

/-- A successful call comes from a successful decoder. -/
theorem networkMessageDecodeBinary_eq_done {s t : DecodeCall}
    (h : networkMessageDecodeBinary src T s = .done () t) :
    networkMessageDecodeBinaryInternal src T s.toDecoding = .done () t.toDecoding ∧
      t.cleared = s.cleared := by
  unfold networkMessageDecodeBinary at h
  cases hrun : networkMessageDecodeBinaryInternal src T s.toDecoding with
  | done u v =>
    simp only [hrun, Outcome.done.injEq, true_and] at h
    subst h
    exact ⟨rfl, rfl⟩
  | fail e v => simp [hrun] at h
  | fault => simp [hrun] at h

theorem decoded_of_done {s t : DecodeCall} (h : networkMessageDecodeBinary src T s = .done () t) :
    Decoded src T s.offset t.dst := by
  have hexits : (networkMessageDecodeBinaryInternal src T s.toDecoding).Sat _ _ :=
    networkMessageDecodeBinaryInternal_exits s.toDecoding
  rw [(networkMessageDecodeBinary_eq_done h).1] at hexits
  exact hexits

/-- **Which accepted messages are well formed**: those without a frame that announces
fields in the reserved encoding. -/
theorem networkMessageDecodeBinary_wellFormed_iff {s t : DecodeCall}
    (h : networkMessageDecodeBinary src T s = .done () t) :
    t.dst.WellFormed ↔ ∀ f ∈ frames src T s.offset, f.isReserved = false := by
  obtain ⟨-, -, arrays, sizes, footer, ds, hds, hlen, hframes⟩ := decoded_of_done h
  have hiff : (∀ f ∈ frames src T s.offset, f.isReserved = false) ↔ ∀ d ∈ ds, d.WellFormed := by
    rw [frames, List.forall_mem_map]
    exact forall_iff_of_forall₂ hframes fun _ _ hd => hd.wellFormed_iff
  rw [hiff]
  constructor
  · intro hwf d hd
    exact hwf.frames d (by rwa [hds, Option.getD_some])
  · intro hwf
    refine ⟨fun _ => arrays.payloadHeader.length, arrays.sizes, sizes, ?_, ?_,
      arrays.promotedFields.length, arrays.securityHeader.length, footer⟩
    · rw [hds, Option.getD_some, hlen]
      rfl
    · rw [hds, Option.getD_some]
      exact hwf

/-- A key frame with one Boolean field. -/
theorem booleanKeyFrame_wellFormed :
    ∃ t, networkMessageDecodeBinary [0x01, 0x01, 0x01, 0x00, 0x01, 0x01] builtinTypes
        ⟨⟨0, default⟩, []⟩ = .done () t ∧ t.dst.WellFormed := by
  obtain ⟨t, ht⟩ : ∃ t, networkMessageDecodeBinary [0x01, 0x01, 0x01, 0x00, 0x01, 0x01]
      builtinTypes ⟨⟨0, default⟩, []⟩ = .done () t := ⟨_, rfl⟩
  have hframes : ∀ f ∈ frames [0x01, 0x01, 0x01, 0x00, 0x01, 0x01] builtinTypes 0,
      f.isReserved = false := by decide
  exact ⟨t, ht, (networkMessageDecodeBinary_wellFormed_iff ht).mpr hframes⟩

/-- A key frame that announces one field in the reserved encoding is accepted. -/
theorem reservedKeyFrame_not_wellFormed :
    ∃ t, networkMessageDecodeBinary [0x01, 0x07, 0x01, 0x00] builtinTypes ⟨⟨0, default⟩, []⟩ =
      .done () t ∧ ¬ t.dst.WellFormed := by
  refine ⟨_, rfl, fun hwf => ?_⟩
  have hframe := (hwf.frames _ (List.mem_singleton.mpr rfl)).keyFrame rfl
  exact absurd hframe (by decide)

end OpenPubSub
