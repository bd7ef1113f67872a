import Mathlib.Data.List.Nodup
import OpenPubSub.NetworkMessage.WellFormed

/-!
# What the cleanup of a failing decoder touches

`UA_NetworkMessage_clear` runs on a structure that may be half built.

- `clearTargets_nodup`: no structure at all makes it visit anything twice.
- `clearTargets_initialised_iff`: for a structure that comes from the decoder, what it
  visits is initialised unless a DataSetMessage is at fault (`Clearable`).
- `deltaFrame_cleanup_uninitialised` is a datagram for which one is: the array of a
  delta frame is not zeroed, the decoder stops before its last field, and the cleanup
  runs over all of them.
- **`decodeAt_cleanup_iff`**: this is the only way.
-/

namespace OpenPubSub

open Routine

/-! ## Nothing is visited twice -/

/-- The buffer a target belongs to. -/
def Target.owner : Target → OwnedBuffer
  | .slot b _ => b
  | .buffer b => b

/-- The DataSetMessage a buffer belongs to. -/
def OwnedBuffer.message : OwnedBuffer → Option Nat
  | .dataSetFields i | .fieldNames i | .deltaFrameFields i => some i
  | _ => none

/-- Targets of different arrays are different. -/
theorem nodup_append_of_owner {xs ys : List Target} (hx : xs.Nodup) (hy : ys.Nodup)
    (h : ∀ x ∈ xs, ∀ y ∈ ys, x.owner ≠ y.owner) : (xs ++ ys).Nodup :=
  List.nodup_append.mpr ⟨hx, hy, fun x hx y hy hxy => h x hx y hy (congrArg Target.owner hxy)⟩

theorem slots_nodup (b : OwnedBuffer) (n : Nat) : (slots b n).Nodup :=
  List.nodup_range.map fun i j h => by simpa using h

/-- A slot belongs to its array. -/
theorem owner_of_mem_slots {b : OwnedBuffer} {n : Nat} {x : Target} (h : x ∈ slots b n) :
    x.owner = b := by
  obtain ⟨i, -, rfl⟩ := List.mem_map.mp h
  rfl

/-- An array is freed once, and each of its slots once. -/
theorem arrayDelete_nodup (b : OwnedBuffer) (n : Nat) : (arrayDelete b n).Nodup := by
  refine List.nodup_append.mpr ⟨slots_nodup b n, List.nodup_singleton _, ?_⟩
  rintro x hx y hy rfl
  rw [List.mem_singleton] at hy
  subst hy
  obtain ⟨i, -, h⟩ := List.mem_map.mp hx
  cases h

/-- What is freed with an array belongs to it. -/
theorem owner_of_mem_arrayDelete {b : OwnedBuffer} {n : Nat} {x : Target}
    (h : x ∈ arrayDelete b n) : x.owner = b := by
  rcases List.mem_append.mp h with h | h
  · exact owner_of_mem_slots h
  · rw [List.mem_singleton.mp h]
    rfl

/-- A list that is there under a condition. -/
theorem mem_of_mem_ite {α : Type} {c : Prop} [Decidable c] {xs : List α} {x : α}
    (h : x ∈ if c then xs else []) : x ∈ xs := by
  split at h
  · exact h
  · cases h

theorem nodup_ite {α : Type} {c : Prop} [Decidable c] {xs : List α} (h : xs.Nodup) :
    (if c then xs else []).Nodup := by
  split
  · exact h
  · exact List.nodup_nil

/-- What is freed with a DataSetMessage belongs to it. -/
theorem message_of_mem_dataSetMessageFree {i : Nat} {d : DataSetMessage} {x : Target}
    (h : x ∈ dataSetMessageFree i d) : x.owner.message = some i := by
  unfold dataSetMessageFree at h
  split at h
  · rcases List.mem_append.mp h with h | h
    · rw [owner_of_mem_arrayDelete (mem_of_mem_ite h)]
      rfl
    · rw [owner_of_mem_arrayDelete (mem_of_mem_ite h)]
      rfl
  · rcases List.mem_append.mp (mem_of_mem_ite h) with h | h
    · split at h
      · rw [owner_of_mem_slots h]
        rfl
      · rw [owner_of_mem_slots h]
        rfl
      · cases h
    · rw [List.mem_singleton.mp h]
      rfl
  · cases h

/-- A DataSetMessage frees nothing twice. -/
theorem dataSetMessageFree_nodup (i : Nat) (d : DataSetMessage) :
    (dataSetMessageFree i d).Nodup := by
  unfold dataSetMessageFree
  split
  · refine nodup_append_of_owner (nodup_ite (arrayDelete_nodup _ _))
      (nodup_ite (arrayDelete_nodup _ _)) fun x hx y hy => ?_
    rw [owner_of_mem_arrayDelete (mem_of_mem_ite hx), owner_of_mem_arrayDelete (mem_of_mem_ite hy)]
    exact OwnedBuffer.noConfusion
  · refine nodup_ite ?_
    split
    · exact arrayDelete_nodup _ _
    · exact arrayDelete_nodup _ _
    · exact List.nodup_singleton _
  · exact List.nodup_nil

/-- The order in which the cleanup comes to the buffers. -/
def OwnedBuffer.rank : OwnedBuffer → Nat
  | .promotedFields => 0
  | .messageNonce => 1
  | .dataSetWriterIds => 2
  | .sizes => 3
  | .dataSetFields _ | .fieldNames _ | .deltaFrameFields _ => 4
  | .dataSetMessages => 5
  | .securityFooter => 6
  | .messageId => 7
  | .publisherIdString => 8
  | .signature => 9

/-- A segment without repetitions, of buffers whose rank is in `[lo, hi)`. -/
structure Segment (lo hi : Nat) (xs : List Target) : Prop where
  nodup : xs.Nodup
  rank : ∀ x ∈ xs, lo ≤ x.owner.rank ∧ x.owner.rank < hi

namespace Segment

variable {lo hi : Nat} {xs ys : List Target}

theorem ite {c : Prop} [Decidable c] (h : Segment lo hi xs) :
    Segment lo hi (if c then xs else []) :=
  ⟨nodup_ite h.nodup, fun x hx => h.rank x (mem_of_mem_ite hx)⟩

/-- Segments of increasing rank have nothing in common. -/
theorem append (mid : Nat) (hx : Segment lo mid xs) (hy : Segment mid hi ys) (hlo : lo ≤ mid)
    (hhi : mid ≤ hi) : Segment lo hi (xs ++ ys) := by
  refine ⟨nodup_append_of_owner hx.nodup hy.nodup fun x hxs y hys h => ?_, fun x h => ?_⟩
  · have h₁ := (hx.rank x hxs).2
    have h₂ := (hy.rank y hys).1
    rw [h] at h₁
    omega
  · rcases List.mem_append.mp h with h | h
    · have := hx.rank x h
      omega
    · have := hy.rank x h
      omega

theorem buffer (b : OwnedBuffer) : Segment b.rank (b.rank + 1) [.buffer b] := by
  refine ⟨List.nodup_singleton _, fun x hx => ?_⟩
  rw [List.mem_singleton.mp hx]
  exact ⟨Nat.le_refl _, Nat.lt_succ_self _⟩

theorem arrayDelete (b : OwnedBuffer) (n : Nat) :
    Segment b.rank (b.rank + 1) (arrayDelete b n) := by
  refine ⟨arrayDelete_nodup b n, fun x hx => ?_⟩
  rw [owner_of_mem_arrayDelete hx]
  exact ⟨Nat.le_refl _, Nat.lt_succ_self _⟩

end Segment

/-- The arrays of the DataSetMessages are told apart by the message they belong to. -/
theorem dataSetMessagesFree_segment (p : NetworkMessage) (n : Nat) :
    Segment 4 5 ((List.range n).flatMap fun i => dataSetMessageFree i (p.dataSetMessageAt i)) := by
  refine ⟨List.nodup_flatMap.mpr ⟨fun i _ => dataSetMessageFree_nodup i _, ?_⟩, fun x hx => ?_⟩
  · refine List.nodup_range.imp fun {i j} hij x hx hy => hij ?_
    have hi := message_of_mem_dataSetMessageFree hx
    rw [message_of_mem_dataSetMessageFree hy, Option.some.injEq] at hi
    exact hi.symm
  · obtain ⟨i, -, hx⟩ := List.mem_flatMap.mp hx
    have h := message_of_mem_dataSetMessageFree hx
    cases hb : x.owner <;> simp_all [OwnedBuffer.message, OwnedBuffer.rank]

/-- The payload: sizes, DataSetMessages and what they own. -/
theorem payloadClearTargets_segment (p : NetworkMessage) :
    Segment 2 6 (payloadClearTargets p) := by
  refine Segment.ite (.append 4 (.ite ?_) (.ite ?_) (by decide) (by decide))
  · exact .append 3 (Segment.arrayDelete .dataSetWriterIds _).ite
      (Segment.arrayDelete .sizes _).ite (by decide) (by decide)
  · exact .append 5 (dataSetMessagesFree_segment p _)
      (Segment.buffer .dataSetMessages) (by decide) (by decide)

/-- All targets, in the order of their ranks. -/
theorem clearTargets_segment (p : NetworkMessage) : Segment 0 9 (clearTargets p) := by
  refine .append 8 ?_ (Segment.buffer .publisherIdString).ite (by decide) (by decide)
  refine .append 7 ?_ (Segment.buffer .messageId).ite (by decide) (by decide)
  refine .append 6 ?_ (Segment.buffer .securityFooter).ite (by decide) (by decide)
  refine .append 2 ?_ (payloadClearTargets_segment p) (by decide) (by decide)
  exact .append 1 (Segment.arrayDelete .promotedFields _).ite
    (Segment.buffer .messageNonce).ite (by decide) (by decide)

/-- **The cleanup visits nothing twice**, whatever the structure. -/
theorem clearTargets_nodup (p : NetworkMessage) : (clearTargets p).Nodup :=
  (clearTargets_segment p).nodup

/-! ## What is visited was initialised -/

/-- The slots that `UA_DataSetMessage_free` visits are there and hold something. -/
def DataSetMessage.Clearable (d : DataSetMessage) : Prop :=
  match d.header.dataSetMessageType with
  | .dataKeyFrame =>
    (∀ vs, d.dataSetFields = some vs → d.fieldCount.toNat ≤ vs.length) ∧
      ∀ names, d.fieldNames = some names → d.fieldCount.toNat ≤ names.length
  | .dataDeltaFrame =>
    ∀ fs, d.deltaFrameFields = some fs → d.header.fieldEncoding.hasValues = true →
      ∀ i < d.fieldCount.toNat, ∃ x, fs[i]? = some x ∧ x.fieldValue.isInit = true
  | _ => True

theorem forall_mem_append {α : Type} {p : α → Prop} {xs ys : List α} :
    (∀ x ∈ xs ++ ys, p x) ↔ (∀ x ∈ xs, p x) ∧ ∀ y ∈ ys, p y := by
  simp only [List.mem_append, or_imp, forall_and]

theorem forall_mem_ite {α : Type} {p : α → Prop} {c : Prop} [Decidable c] {xs : List α} :
    (∀ x ∈ if c then xs else [], p x) ↔ (c → ∀ x ∈ xs, p x) := by
  by_cases hc : c
  · simp [hc]
  · simp [hc]

theorem forall_mem_slots {p : Target → Prop} {b : OwnedBuffer} {n : Nat} :
    (∀ x ∈ slots b n, p x) ↔ ∀ i < n, p (.slot b i) := by
  simp only [slots, List.forall_mem_map, List.mem_range]

/-- A pointer of the structure itself is always initialised. -/
theorem initialised_buffer (m : NetworkMessage) (b : OwnedBuffer) :
    ∀ x ∈ [Target.buffer b], m.isInitialised x = true := by
  intro x hx
  rw [List.mem_singleton.mp hx]
  rfl

/-- An array can be freed where all of its slots are initialised. -/
theorem initialised_arrayDelete {m : NetworkMessage} {b : OwnedBuffer} {n : Nat} :
    (∀ x ∈ arrayDelete b n, m.isInitialised x = true) ↔
      ∀ i < n, m.isInitialised (.slot b i) = true := by
  rw [arrayDelete, forall_mem_append, forall_mem_slots]
  exact and_iff_left (initialised_buffer m b)

/-- Below a length, seen from the counter. -/
theorem forall_lt_length {n len : Nat} : (∀ i < n, i < len) ↔ n ≤ len := by
  constructor
  · intro h
    by_contra hlt
    exact Nat.lt_irrefl len (h len (by omega))
  · intro h i hi
    omega

/-- Slots of an array that may be absent. -/
theorem forall_slots_getD {α : Type} {xs : Option (List α)} {n : Nat} :
    (xs.isSome = true → ∀ i < n, decide (i < (xs.getD []).length) = true) ↔
      ∀ ys, xs = some ys → n ≤ ys.length := by
  cases xs with
  | none => simp
  | some ys => simpa using forall_lt_length

/-- A DataSetMessage can be freed where the array that its type has is initialised. -/
theorem initialised_dataSetMessageFree (m : NetworkMessage) (i : Nat) :
    (∀ x ∈ dataSetMessageFree i (m.dataSetMessageAt i), m.isInitialised x = true) ↔
      (m.dataSetMessageAt i).Clearable := by
  unfold dataSetMessageFree DataSetMessage.Clearable
  cases (m.dataSetMessageAt i).header.dataSetMessageType with
  | dataKeyFrame =>
    simp only [forall_mem_append, forall_mem_ite, initialised_arrayDelete]
    exact and_congr forall_slots_getD forall_slots_getD
  -- the values are visited only in encodings that have some; the array itself always is
  | dataDeltaFrame =>
    simp only [forall_mem_append, forall_mem_ite]
    cases hfs : (m.dataSetMessageAt i).deltaFrameFields with
    | none => simp
    | some fs =>
      have hslot : ∀ j, m.isInitialised (.slot (.deltaFrameFields i) j) = true ↔
          ∃ x, fs[j]? = some x ∧ x.fieldValue.isInit = true := by
        intro j
        show ((((m.dataSetMessageAt i).deltaFrameFields.getD [])[j]?.map _).getD false) = true ↔ _
        rw [hfs, Option.getD_some]
        cases fs[j]? <;> simp
      have hbuffer : m.isInitialised (.buffer (.deltaFrameFields i)) = true := rfl
      cases henc : (m.dataSetMessageAt i).header.fieldEncoding with
      | variant => simp [FieldEncoding.hasValues, forall_mem_slots, hslot, hbuffer]
      | rawData => simp [FieldEncoding.hasValues, hbuffer]
      | dataValue => simp [FieldEncoding.hasValues, forall_mem_slots, hslot, hbuffer]
      | reserved => simp [FieldEncoding.hasValues, hbuffer]
  | event => simp
  | keepAlive => simp
  | reserved v => simp

/-- **What the cleanup visits is initialised** if every DataSetMessage is fit for it. -/
theorem clearTargets_initialised_iff {m : NetworkMessage} (h : ArraysOk m) :
    (∀ x ∈ clearTargets m, m.isInitialised x = true) ↔
      (m.networkMessageType = .dataSet → m.payload.dataSetMessages.isSome = true →
        ∀ i < m.dataSetMessageCount, (m.dataSetMessageAt i).Clearable) := by
  have hpromoted : ∀ i < m.promotedFieldsSize.toNat,
      m.isInitialised (.slot .promotedFields i) = true := by
    intro i hi
    have hlen := h.promotedFields.length
    show (((m.promotedFields.getD [])[i]?.map Slot.isInit).getD false) = true
    rw [List.getElem?_eq_getElem (by omega), Option.map_some, Option.getD_some]
    exact h.promotedFields.initialised _ (List.getElem_mem _)
  have hids : ∀ i < m.payloadHeader.count.toNat,
      m.isInitialised (.slot .dataSetWriterIds i) = true := by
    intro i hi
    have hlen := h.payloadHeader.length
    show decide _ = true
    exact decide_eq_true (by omega)
  have hsizes : m.payload.sizes.isSome = true → ∀ i < m.payloadHeader.count.toNat,
      m.isInitialised (.slot .sizes i) = true :=
    forall_slots_getD.mpr fun sizes hs => Nat.le_of_eq (h.sizes sizes hs).symm
  have hmessages : (∀ x ∈ (List.range m.dataSetMessageCount).flatMap fun i =>
      dataSetMessageFree i (m.dataSetMessageAt i), m.isInitialised x = true) ↔
        ∀ i < m.dataSetMessageCount, (m.dataSetMessageAt i).Clearable := by
    simp only [List.mem_flatMap, List.mem_range]
    constructor
    · intro hall i hi
      exact (initialised_dataSetMessageFree m i).mp fun x hx => hall x ⟨i, hi, hx⟩
    · rintro hall x ⟨i, hi, hx⟩
      exact (initialised_dataSetMessageFree m i).mpr (hall i hi) x hx
  -- everything but the DataSetMessages is initialised whenever the arrays are
  unfold clearTargets payloadClearTargets
  simp only [forall_mem_append, forall_mem_ite, initialised_arrayDelete, hmessages]
  constructor
  · rintro ⟨⟨⟨⟨-, hpayload⟩, -⟩, -⟩, -⟩ ht hsome
    exact ((hpayload ht).2 hsome).1
  · intro hall
    refine ⟨⟨⟨⟨⟨fun _ => hpromoted, fun _ => initialised_buffer m _⟩, fun ht => ?_⟩,
      fun _ => initialised_buffer m _⟩, fun _ => initialised_buffer m _⟩,
      fun _ => initialised_buffer m _⟩
    exact ⟨fun _ => ⟨fun _ => hids, hsizes⟩, fun hsome =>
      ⟨hall ht hsome, initialised_buffer m _⟩⟩

/-! ## The DataSetMessages of a failing decoder -/

variable {src : Bytes} {T : DataTypes}

theorem isKeyFrame_iff {f : Frame} :
    f.isKeyFrame = true ↔ f.header.dataSetMessageType = .dataKeyFrame := by
  simp [Frame.isKeyFrame]

theorem isDeltaFrame_iff {f : Frame} :
    f.isDeltaFrame = true ↔ f.header.dataSetMessageType = .dataDeltaFrame := by
  simp [Frame.isDeltaFrame]

/-- Without arrays there is nothing to visit. -/
theorem clearable_of_no_arrays {d : DataSetMessage} (h₁ : d.dataSetFields = none)
    (h₂ : d.fieldNames = none) (h₃ : d.deltaFrameFields = none) : d.Clearable := by
  unfold DataSetMessage.Clearable
  split <;> simp [h₁, h₂, h₃]

/-- A key frame with as many fields as its counter says. -/
theorem clearable_of_keyFrame {h : DataSetMessageHeader} {n : UInt16} {vs : List DataValue}
    (ht : h.dataSetMessageType = .dataKeyFrame) (hlen : vs.length = n.toNat) :
    (DataSetMessage.mk h n (some vs) none none).Clearable := by
  simp [DataSetMessage.Clearable, ht, hlen]

/-- The values of a delta frame: each slot that is visited must hold one. -/
theorem clearable_deltaFrame_iff {h : DataSetMessageHeader} {n : UInt16}
    {fs : List DeltaFrameField} (ht : h.dataSetMessageType = .dataDeltaFrame)
    (he : h.fieldEncoding.hasValues = true) (hlen : fs.length = n.toNat) :
    (DataSetMessage.mk h n none none (some fs)).Clearable ↔
      ∀ x ∈ fs, x.fieldValue.isInit = true := by
  simp only [DataSetMessage.Clearable, ht, he, Option.some.injEq, forall_eq', true_implies]
  constructor
  · intro hall x hx
    obtain ⟨i, hi⟩ := List.mem_iff_getElem?.mp hx
    obtain ⟨hlt, -⟩ := List.getElem?_eq_some_iff.mp hi
    obtain ⟨y, hy, hinit⟩ := hall i (by omega)
    rw [hi, Option.some.injEq] at hy
    rwa [hy]
  · intro hall i hi
    exact ⟨fs[i], List.getElem?_eq_getElem (by omega), hall _ (List.getElem_mem _)⟩

theorem hasValues_encoding {f : Frame} (h : f.hasValues = true) :
    f.header.fieldEncoding.hasValues = true := by
  simp only [Frame.hasValues, Bool.and_eq_true] at h
  exact h.2

/-- A decoded message is fit for the cleanup, and all its values were reached. -/
theorem Frame.Describes.clearable {f : Frame} {d : DataSetMessage} (h : f.Describes src T d) :
    d.Clearable ∧ f.ValuesReached := by
  cases h with
  | keyFrame type values count reads =>
    refine ⟨clearable_of_keyFrame (isKeyFrame_iff.mp type) (reads.length_eq.symm.trans count), ?_⟩
    exact fun _ _ => count
  | deltaFrame type values count length initialised =>
    exact ⟨(clearable_deltaFrame_iff (isDeltaFrame_iff.mp type) (hasValues_encoding values)
      length).mpr initialised, fun _ _ => count⟩
  | bare values count =>
    refine ⟨clearable_of_no_arrays rfl rfl rfl, fun _ hv => ?_⟩
    rw [values] at hv
    cases hv

/-- A message whose decoder failed is fit for the cleanup if its values were reached. -/
theorem Frame.Interrupted.clearable_iff {f : Frame} {d : DataSetMessage} (h : f.Interrupted d) :
    d.Clearable ↔ f.ValuesReached := by
  cases h with
  | keyFrame type length =>
    refine iff_of_true (clearable_of_keyFrame (isKeyFrame_iff.mp type) length) fun hd _ => ?_
    rw [isDeltaFrame_iff, isKeyFrame_iff.mp type] at hd
    cases hd
  | deltaFrame type values length initialised =>
    rw [clearable_deltaFrame_iff (isDeltaFrame_iff.mp type) (hasValues_encoding values) length,
      initialised]
    exact ⟨fun h _ _ => h, fun h => h type values⟩
  | bare count starts =>
    refine iff_of_true (clearable_of_no_arrays rfl rfl rfl) fun _ _ => ?_
    rw [count, starts]
    rfl

/-- The DataSetMessage at a place. -/
theorem dataSetMessageAt_of_getElem? {m : NetworkMessage} {ds : List DataSetMessage} {i : Nat}
    {d : DataSetMessage} (hds : m.payload.dataSetMessages = some ds) (h : ds[i]? = some d) :
    m.dataSetMessageAt i = d := by
  show ((m.payload.dataSetMessages.getD [])[i]?).getD default = d
  rw [hds, Option.getD_some, h, Option.getD_some]

/-- The DataSetMessages, one by one. -/
theorem forall_clearable_iff {m : NetworkMessage} {ds : List DataSetMessage}
    (hds : m.payload.dataSetMessages = some ds) (hlen : ds.length = m.dataSetMessageCount) :
    (∀ i < m.dataSetMessageCount, (m.dataSetMessageAt i).Clearable) ↔ ∀ d ∈ ds, d.Clearable := by
  constructor
  · intro hall d hd
    obtain ⟨i, hi⟩ := List.mem_iff_getElem?.mp hd
    obtain ⟨hlt, -⟩ := List.getElem?_eq_some_iff.mp hi
    have hc := hall i (by omega)
    rwa [dataSetMessageAt_of_getElem? hds hi] at hc
  · intro hall i hi
    have hlt : i < ds.length := by omega
    rw [dataSetMessageAt_of_getElem? hds (List.getElem?_eq_getElem hlt)]
    exact hall _ (List.getElem_mem hlt)

/-- An accepted message can be cleaned up. -/
theorem Decoded.initialised {offset : Nat} {m : NetworkMessage} (h : Decoded src T offset m) :
    ∀ x ∈ clearTargets m, m.isInitialised x = true := by
  obtain ⟨ds, hds, hlen, hframes⟩ := h.messages
  exact (clearTargets_initialised_iff h.arrays).mpr fun _ _ =>
    (forall_clearable_iff hds hlen).mpr (forall_of_forall₂ hframes fun _ _ hd => hd.clearable.1)

/-- In a half filled payload everything depends on the last frame that was reached. -/
theorem halfFilled_clearable_iff {S : List Nat} {n : Nat} {ds : List DataSetMessage}
    (h : HalfFilled (fun p d => (frameAt src T p).Describes src T d)
      (fun p d => (frameAt src T p).Interrupted d) (fun _ => False) default S n ds) :
    ds.length = n ∧
      ((∀ d ∈ ds, d.Clearable) ↔ ∀ p ∈ S, (frameAt src T p).ValuesReached) := by
  obtain ⟨S', done, b, k, rfl, hlen, hdone, ⟨q, rfl, hb⟩ | ⟨-, hfalse⟩⟩ := h
  · refine ⟨by simp only [List.length_append, List.length_cons, List.length_replicate]; omega, ?_⟩
    have hblank : ∀ d ∈ List.replicate k (default : DataSetMessage), d.Clearable := by
      intro d hd
      rw [List.eq_of_mem_replicate hd]
      exact clearable_of_no_arrays rfl rfl rfl
    rw [forall_mem_append, forall_mem_append, List.forall_mem_cons, List.forall_mem_singleton,
      hb.clearable_iff, ← forall_iff_of_forall₂ hdone fun p d hd =>
        iff_of_true hd.clearable.2 hd.clearable.1]
    exact and_congr_right' (and_iff_left hblank)
  · exact hfalse.elim

/-- What the cleanup visits in a half decoded message. -/
theorem HalfDecoded.initialised_iff {offset : Nat} {m : NetworkMessage}
    (h : HalfDecoded src T offset m) :
    (∀ x ∈ clearTargets m, m.isInitialised x = true) ↔
      ∀ f ∈ frames src T offset, f.ValuesReached := by
  rw [frames, List.forall_mem_map]
  cases h with
  | before arrays messages starts =>
    rw [clearTargets_initialised_iff arrays, starts, messages]
    simp
  | @messages m ds type arrays half =>
    obtain ⟨hlen, hiff⟩ := halfFilled_clearable_iff half
    have harrays : ArraysOk (m.withMessages ds) :=
      ⟨arrays.payloadHeader, arrays.promotedFields, arrays.securityHeader, arrays.sizes⟩
    rw [clearTargets_initialised_iff harrays, ← hiff,
      ← forall_clearable_iff (m := m.withMessages ds) rfl hlen]
    exact ⟨fun hall => hall type rfl, fun hall _ _ => hall⟩
  | @trailer m ds f s type arrays length messages =>
    have harrays : ArraysOk ((m.withMessages ds).withTrailer f s) :=
      ⟨arrays.payloadHeader, arrays.promotedFields, arrays.securityHeader, arrays.sizes⟩
    rw [clearTargets_initialised_iff harrays, forall_iff_of_forall₂ messages fun p d hd =>
      iff_of_true hd.clearable.2 hd.clearable.1,
      ← forall_clearable_iff (m := (m.withMessages ds).withTrailer f s) rfl length]
    exact ⟨fun hall => hall type rfl, fun hall _ _ => hall⟩

/-- A failing call comes from a failing decoder, and cleans up what that left. -/
theorem networkMessageDecodeBinary_eq_fail {s t : DecodeCall} {e : ErrorCode}
    (h : networkMessageDecodeBinary src T s = .fail e t) :
    ∃ u, networkMessageDecodeBinaryInternal src T s.toDecoding = .fail e u ∧
      t.offset = u.offset ∧ t.dst = default ∧
      t.cleared = s.cleared ++ (clearTargets u.dst).map fun x => ⟨x, u.dst.isInitialised x⟩ := by
  unfold networkMessageDecodeBinary at h
  cases hrun : networkMessageDecodeBinaryInternal src T s.toDecoding with
  | done _ u => simp [hrun] at h
  | fault => simp [hrun] at h
  | fail e' u =>
    simp only [hrun, Outcome.fail.injEq] at h
    obtain ⟨rfl, rfl⟩ := h
    exact ⟨u, rfl, rfl, rfl, rfl⟩

/-- The accesses of the cleanup of a failing decode. -/
theorem decodeAt_cleared {offset : Nat} {e : ErrorCode} {t : DecodeCall}
    (h : decodeAt src T offset = .fail e t) :
    ∃ m : NetworkMessage, HalfDecoded src T offset m ∧
      t.cleared = (clearTargets m).map fun x => ⟨x, m.isInitialised x⟩ := by
  obtain ⟨u, hrun, -, -, hcleared⟩ := networkMessageDecodeBinary_eq_fail h
  have hexits : (networkMessageDecodeBinaryInternal src T ⟨offset, default⟩).Sat _ _ :=
    networkMessageDecodeBinaryInternal_exits ⟨offset, default⟩
  rw [hrun] at hexits
  exact ⟨u.dst, hexits, hcleared⟩

/-- The cleanup of a failing decode touches initialised slots only. -/
theorem decodeAt_cleared_initialised_iff {offset : Nat} {e : ErrorCode} {t : DecodeCall}
    (h : decodeAt src T offset = .fail e t) :
    (∀ ev ∈ t.cleared, ev.initialised = true) ↔ ∀ f ∈ frames src T offset, f.ValuesReached := by
  obtain ⟨m, hm, hcleared⟩ := decodeAt_cleared h
  rw [← hm.initialised_iff, hcleared, List.forall_mem_map]

/-- **When the cleanup of a failing decode is safe**: it touches initialised slots
only, and each once, if and only if in every delta frame that was reached the decoder
got as far as the value of the last field. -/
theorem decodeAt_cleanup_iff {offset : Nat} {e : ErrorCode} {t : DecodeCall}
    (h : decodeAt src T offset = .fail e t) :
    ((∀ ev ∈ t.cleared, ev.initialised = true) ∧ (t.cleared.map ClearEvent.target).Nodup) ↔
      ∀ f ∈ frames src T offset, f.ValuesReached := by
  rw [← decodeAt_cleared_initialised_iff h]
  refine and_iff_left ?_
  obtain ⟨m, -, hcleared⟩ := decodeAt_cleared h
  have hmap : (clearTargets m).map (ClearEvent.target ∘ fun x => ⟨x, m.isInitialised x⟩) =
      clearTargets m := List.map_id _
  rw [hcleared, List.map_map, hmap]
  exact clearTargets_nodup m

/-- A key frame that ends inside its only field. -/
theorem cutKeyFrame_cleanup :
    ∃ e t, decodeAt [0x01, 0x01, 0x01, 0x00, 0x01] builtinTypes 0 = .fail e t ∧
      (∀ ev ∈ t.cleared, ev.initialised = true) ∧ (t.cleared.map ClearEvent.target).Nodup := by
  obtain ⟨e, t, h⟩ : ∃ e t, decodeAt [0x01, 0x01, 0x01, 0x00, 0x01] builtinTypes 0 = .fail e t :=
    ⟨_, _, rfl⟩
  have hkey : ∀ f ∈ frames [0x01, 0x01, 0x01, 0x00, 0x01] builtinTypes 0,
      f.isDeltaFrame = false := by decide
  -- no delta frame, and so no slot that could have been left out
  refine ⟨e, t, h, (decodeAt_cleanup_iff h).mpr fun f hf hdelta => ?_⟩
  rw [hkey f hf] at hdelta
  cases hdelta

/-- A delta frame of one field that ends before the field: its slot is cleared, but
nothing was ever written to it. -/
theorem deltaFrame_cleanup_uninitialised :
    ∃ e t, decodeAt [0x01, 0x81, 0x01, 0x01, 0x00] builtinTypes 0 = .fail e t ∧
      ∃ ev ∈ t.cleared, ev.initialised = false :=
  ⟨_, _, rfl, ⟨.slot (.deltaFrameFields 0) 0, false⟩, by decide, rfl⟩

end OpenPubSub
