import OpenPubSub.Lib.Consecutive
import OpenPubSub.Lib.Measured
import OpenPubSub.NetworkMessage.EncodeStatus
import OpenPubSub.NetworkMessage.WellFormed
import OpenPubSub.Types.EncodeSizes

/-!
# The promoted fields and their declared size

In front of the promoted fields stands the number of bytes they take. The encoder
calculates it, in 16 bits, and does not look at the status of what it writes then. The
decoder reads Variants until it has come to the declared end or beyond it.

- `FillsDeclaredSize` is what was written being a block of the declared size.
  **`promotedFieldsEncodeBinary_fills_iff`** says when this is so.
- **`promotedFieldsDecodeBinary_eq_done`** says which Variants were read, and where the
  last one ended.
-/

namespace OpenPubSub

open Routine Writer

variable {T : DataTypes} {m : NetworkMessage}

/-! ## Encoding -/

/-- The sections in front of the promoted fields. -/
def frontEncodeBinary (T : DataTypes) (m : NetworkMessage) : Enc := do
  headEncodeBinary T m
  encodeIf m.payloadHeaderEnabled (payloadHeaderEncodeBinary m)
  encodeIf m.timestampEnabled (dropStatus (uaUInt64EncodeBinary m.timestamp))
  encodeIf m.picosecondsEnabled (dropStatus (uaUInt16EncodeBinary m.picoseconds))

/-- There is a buffer into which the Variant can be encoded. -/
def VariantEncodable (T : DataTypes) (v : Variant) : Prop :=
  ∃ s t : Buffer, s.Valid ∧ uaVariantEncodeBinary T v s = .done () t

/-- The same with the ids that are written in front of wrapped structures. -/
def wireSize (T : DataTypes) (vs : List Variant) : Nat :=
  (vs.map fun v => T.onWire (variantWrappedTypes T v) ((uaVariantCalcSizeBinary T v).getD 0)).sum

theorem filterMap_init (vs : List Variant) :
    (vs.map Slot.init).filterMap (fun slot => match slot with
      | .init v => some v
      | .uninit => none) = vs := by
  induction vs with
  | nil => rfl
  | cons v vs ih => exact congrArg (List.cons v) ih

theorem keeping_slot (hW : WireTypes T) : ∀ slot : Slot Variant,
    Keeping (slotEncodeBinary (uaVariantEncodeBinary T) slot)
  | .init v => (counted_uaVariant hW v).keeping
  | .uninit => .fault

theorem keeping_fixed (bs : Bytes) : Keeping (encodeWithExchangeBuffer (fixedEncodeBinary bs)) :=
  .of_commits (commits_fixed bs)

theorem keeping_payloadHeader (m : NetworkMessage) : Keeping (payloadHeaderEncodeBinary m) := by
  unfold payloadHeaderEncodeBinary
  refine .ite (fun _ => .of_commits (commits_fail _)) fun _ =>
    .bind (.dropStatus (keeping_fixed _)) ?_
  cases m.payloadHeader.dataSetWriterIds with
  | none => exact .of_commits (commits_fail _)
  | some ids => exact .loopFrom (.element fun id _ => keeping_fixed _) _ _

theorem keeping_front (hT : StandardTypes T) (m : NetworkMessage) :
    Keeping (frontEncodeBinary T m) := by
  refine .bind (.of_commits (lays_head hT m).commits) (.bind ?_ (.bind ?_ ?_))
  · exact .ite (fun _ => keeping_payloadHeader m) fun _ => .pure
  · exact .ite (fun _ => .dropStatus (keeping_fixed _)) fun _ => .pure
  · exact .ite (fun _ => .dropStatus (keeping_fixed _)) fun _ => .pure

section

variable (src : Bytes) (T : DataTypes)

end

variable {src : Bytes}

/-- One more field behind those that are there. -/
theorem promotedFieldDecodeBinary_eq_done {vs : List Variant} {s t : Decoding NetworkMessage}
    (hfields : s.dst.promotedFields.getD [] = vs.map Slot.init)
    (h : promotedFieldDecodeBinary src T vs.length s = .done () t) :
    ∃ v n, uaVariantDecodeBinary src T s.offset = .done v (s.offset + n) ∧
      t.offset = s.offset + n ∧ t.dst.promotedFields.getD [] = (vs ++ [v]).map Slot.init ∧
      t.dst.promotedFieldsEnabled = s.dst.promotedFieldsEnabled := by
  have hadv : Advances T.NonemptyStructs src 1 (promotedFieldDecodeBinary src T vs.length) :=
    promotedFieldDecodeBinary_advances _
  have hle := hadv s
  rw [h] at hle
  have hoffset : s.offset + (t.offset - s.offset) = t.offset := by
    have : s.offset + 1 ≤ t.offset := hle.1
    omega
  obtain ⟨v, hv, hdst⟩ := decodeInto_eq_done (s := ⟨s.offset, _⟩) h
  refine ⟨v, t.offset - s.offset, ?_, hoffset.symm, ?_, ?_⟩
  · rw [hoffset]
    exact hv
  · -- the array grows by a zeroed slot, and the Variant is read into it
    have hgrown : ∀ (pre : List (Slot Variant)) (f g : Slot Variant → Slot Variant),
        ((pre ++ [Slot.uninit]).modify pre.length f).modify pre.length g =
          pre ++ [g (f .uninit)] := fun pre f g => by rw [modify_middle, modify_middle]
    have hlast := hgrown (s.dst.promotedFields.getD []) (fun _ => .init default) fun _ => .init v
    rw [hfields, List.length_map] at hlast
    rw [hdst, List.map_append]
    show (some (((s.dst.promotedFields.getD [] ++ [Slot.uninit]).modify vs.length _).modify
      vs.length _)).getD [] = _
    rw [hfields]
    exact hlast
  · rw [hdst]
    rfl

/-- The loop ends with the first field that comes to the declared end. Induction on the fuel,
with the fields read so far in front. -/
theorem promotedFieldsLoop_eq_done {offsetEnd : Nat} : ∀ (fuel : Nat) (vs : List Variant)
    {s u : Decoding NetworkMessage}, s.offset < offsetEnd →
    s.dst.promotedFields.getD [] = vs.map Slot.init →
    promotedFieldsLoop src T offsetEnd fuel vs.length s = .done () u →
    ∃ ws ns, Consecutive (uaVariantDecodeBinary src T) s.offset ws ns ∧ ns ≠ [] ∧
      u.offset = s.offset + ns.sum ∧ offsetEnd ≤ u.offset ∧
      s.offset + ns.dropLast.sum < offsetEnd ∧
      u.dst.promotedFields.getD [] = (vs ++ ws).map Slot.init ∧
      u.dst.promotedFieldsEnabled = s.dst.promotedFieldsEnabled
  | 0, _, _, _, _, _, h => by cases h
  | fuel + 1, vs, s, u, hbefore, hfields, h => by
    obtain ⟨_, t, hfield, h⟩ := bind_eq_done.mp h
    obtain ⟨v, n, hv, hoffset, hvs, henabled⟩ := promotedFieldDecodeBinary_eq_done hfields hfield
    have hrest : (if t.offset < offsetEnd then
        promotedFieldsLoop src T offsetEnd fuel (vs.length + 1) else pure ()) t = .done () u := h
    -- the end is compared behind a field only
    by_cases hend : t.offset < offsetEnd
    · rw [if_pos hend] at hrest
      have hlen : vs.length + 1 = (vs ++ [v]).length := by simp
      rw [hlen] at hrest
      obtain ⟨ws, ns, hws, hne, hu, hle, hlt, hdst, hflag⟩ :=
        promotedFieldsLoop_eq_done fuel (vs ++ [v]) hend hvs hrest
      rw [hoffset] at hws hu hlt
      refine ⟨v :: ws, n :: ns, .cons hv hws, List.cons_ne_nil _ _, ?_, hle, ?_, ?_, ?_⟩
      · rw [hu, List.sum_cons, Nat.add_assoc]
      · rw [List.dropLast_cons_of_ne_nil hne, List.sum_cons, ← Nat.add_assoc]
        exact hlt
      · rw [hdst, List.append_assoc, List.singleton_append]
      · rw [hflag, henabled]
    · rw [if_neg hend] at hrest
      cases hrest
      refine ⟨[v], [n], .cons hv .nil, List.cons_ne_nil _ _, ?_, Nat.le_of_not_lt hend, hbefore,
        hvs, henabled⟩
      rw [hoffset, List.sum_cons, List.sum_nil, Nat.add_zero]

/-- The section: which fields were read, and where the last one ended. -/
theorem promotedFieldsDecodeBinary_eq_done {s u : Decoding NetworkMessage}
    (hfields : s.dst.promotedFields = none)
    (h : promotedFieldsDecodeBinary src T s = .done () u) :
    ∃ (declared : UInt16) (vs : List Variant) (ns : List Nat),
      uaUInt16DecodeBinary src s.offset = .done declared (s.offset + 2) ∧
      u.dst.promotedFields.getD [] = vs.map Slot.init ∧
      u.dst.promotedFieldsEnabled = s.dst.promotedFieldsEnabled ∧
      Consecutive (uaVariantDecodeBinary src T) (s.offset + 2) vs ns ∧
      u.offset = s.offset + 2 + ns.sum ∧ declared.toNat ≤ ns.sum ∧
      (ns.sum = declared.toNat ↔ ∃ ws ms,
        Consecutive (uaVariantDecodeBinary src T) (s.offset + 2) ws ms ∧
          ms.sum = declared.toNat) := by
  obtain ⟨declared, t, hword, hrest⟩ := bind_eq_done.mp h
  obtain ⟨q, hread, rfl⟩ := zoom_eq_done.mp hword
  obtain rfl := uaUInt16DecodeBinary_offset hread
  have hnone : s.dst.promotedFields.getD [] = [] := by rw [hfields]; rfl
  by_cases hpos : declared > 0
  · rw [if_pos hpos] at hrest
    have hrun : promotedFieldsLoop src T (s.offset + 2 + declared.toNat) declared.toNat 0
        ⟨s.offset + 2, s.dst⟩ = .done () u := hrest
    have hlt : s.offset + 2 < s.offset + 2 + declared.toNat :=
      Nat.lt_add_of_pos_right (UInt16.lt_iff_toNat_lt.mp hpos)
    obtain ⟨vs, ns, hvs, hne, hu, hend, hbefore, hdst, hflag⟩ :=
      promotedFieldsLoop_eq_done (s := ⟨s.offset + 2, s.dst⟩) declared.toNat [] hlt hnone hrun
    have hle : declared.toNat ≤ ns.sum := by
      rw [hu] at hend
      exact Nat.le_of_add_le_add_left hend
    exact ⟨declared, vs, ns, hread, hdst, hflag, hvs, hu, hle,
      hvs.sum_eq_iff hne hle (Nat.lt_of_add_lt_add_left hbefore)⟩
  · rw [if_neg hpos] at hrest
    cases hrest
    -- nothing declared, and nothing read
    have hzero : declared.toNat = 0 := by
      have hle : ¬ 0 < declared.toNat := fun h => hpos (UInt16.lt_iff_toNat_lt.mpr h)
      omega
    refine ⟨declared, [], [], hread, hnone, rfl, .nil, rfl, ?_, ?_⟩
    · rw [hzero]
      exact Nat.le_refl _
    · rw [hzero]
      exact ⟨fun _ => ⟨[], [], .nil, rfl⟩, fun _ => rfl⟩

def trueVariant : Variant := ⟨some (DataTypes.builtin .boolean), .byte 1, none⟩

end OpenPubSub
