import OpenPubSub.NetworkMessage.Clear
import OpenPubSub.Types.DecodeBounds

/-!
# The decode cursor stays inside the datagram

The offset of the NetworkMessage decoder, for every byte string, every start offset
and every combination of sections.

- `Advances I src k x`: `x` never copies from outside `src`, and when it succeeds the
  offset has gone forward by `k` or more and given `I` is not beyond the end.
- `promotedFieldsLoop_advances` and `securityFooterLoop_advances` show that the fuel
  of the two open-ended loops suffices: each iteration consumes a byte.
- **`networkMessageDecodeBinaryInternal_advances`**: the sections composed.
- **`networkMessageDecodeBinary_in_bounds`**: a successful decode moves the offset
  forward and leaves it inside.
-/

namespace OpenPubSub

open Routine

/-- `x` reads inside `src` only, and moves the offset by `k` or more. -/
def Advances {M α : Type} (I : Prop) (src : Bytes) (k : Nat) (x : Decoder M α) : Prop :=
  ∀ s, (x s).Sat
    (fun _ t => s.offset + k ≤ t.offset ∧ (I → t.offset ≤ max s.offset src.length))
    (fun _ _ => True)

namespace Advances

variable {M N α β : Type} {I : Prop} {src : Bytes} {k l : Nat}

/-- Moving further is moving as far. -/
theorem weaken {x : Decoder M α} (h : Advances I src k x) (hl : l ≤ k) : Advances I src l x :=
  fun s => (h s).imp (fun _ _ ⟨h₁, h₂⟩ => ⟨by omega, h₂⟩) fun _ _ h => h

theorem pure {a : α} : Advances I src 0 (Pure.pure a : Decoder M α) := fun _ =>
  ⟨Nat.le_refl _, fun _ => Nat.le_max_left _ _⟩

theorem fail {e : ErrorCode} : Advances I src k (Routine.fail e : Decoder M α) := fun _ => trivial

theorem assign {f : M → M} : Advances I src 0 (assign f) := fun _ =>
  ⟨Nat.le_refl _, fun _ => Nat.le_max_left _ _⟩

/-- One section after the other: the distances add up. -/
theorem bind {x : Decoder M α} {f : α → Decoder M β} (hx : Advances I src k x)
    (hf : ∀ a, Advances I src l (f a)) : Advances I src (k + l) (x >>= f) := by
  intro s
  have h := hx s
  rw [bind_run]
  cases hxs : x s with
  | done a t =>
    rw [hxs] at h
    obtain ⟨h₁, h₂⟩ := h
    refine (hf a t).imp (fun _ u ⟨h₃, h₄⟩ => ⟨by omega, fun hI => ?_⟩) fun _ _ h => h
    have := h₂ hI
    have := h₄ hI
    omega
  | fail e t => trivial
  | fault =>
    rw [hxs] at h
    exact h

/-- Reading the structure built so far moves nothing. -/
theorem current_bind {f : M → Decoder M β} (hf : ∀ m, Advances I src k (f m)) :
    Advances I src k (current >>= f) := fun s => hf s.dst s

/-- A section that may be missing moves the offset by 0 or more. -/
theorem onFlag {flag : M → Bool} {x : Decoder M Unit} (hx : Advances I src k x) :
    Advances I src 0 (onFlag flag x) := by
  refine current_bind fun m => ?_
  cases flag m with
  | true => exact hx.weaken (Nat.zero_le k)
  | false => exact pure

/-- The same for a bit of a flag byte. -/
theorem onBit {v mask : UInt8} {x : Decoder M Unit} (hx : Advances I src k x) :
    Advances I src 0 (onBit v mask x) := by
  unfold OpenPubSub.onBit
  cases bitSet v mask with
  | true => exact hx.weaken (Nat.zero_le k)
  | false => exact pure

/-- A value that is stored in the message. The decoder of the value starts with the fuel of the
whole datagram. -/
theorem decodeInto [Inhabited α] {x : Dec α} {put : α → M → M}
    (hx : Moves I src (decodeFuel src) k x) :
    Advances I src k (decodeInto (uaDecodeBinary x) put) := by
  intro s
  have h := uaDecodeBinary_moves hx s.offset
  unfold OpenPubSub.decodeInto
  cases hxs : uaDecodeBinary x s.offset with
  | done a t =>
    rw [hxs] at h
    exact h
  | fail e t => trivial
  | fault =>
    rw [hxs] at h
    exact h

/-- A value that is kept in a local variable. -/
theorem decodeLocal {x : Dec α} (hx : Moves I src (decodeFuel src) k x) :
    Advances I src k (decodeLocal (uaDecodeBinary x) : Decoder M α) := by
  intro s
  have h := uaDecodeBinary_moves hx s.offset
  unfold OpenPubSub.decodeLocal zoom
  cases hxs : uaDecodeBinary x s.offset with
  | done a t =>
    rw [hxs] at h
    exact h
  | fail e t => trivial
  | fault =>
    rw [hxs] at h
    exact h

/-- A header that is a structure of its own inside the message: its decoder has the same offset. -/
theorem decodePart {get : M → N} {put : N → M → M} {x : Decoder N Unit}
    (hx : Advances I src k x) : Advances I src k (decodePart get put x) := by
  intro s
  have h := hx ⟨s.offset, get s.dst⟩
  unfold OpenPubSub.decodePart zoom
  cases hxs : x ⟨s.offset, get s.dst⟩ with
  | done a t =>
    rw [hxs] at h
    exact h
  | fail e t => trivial
  | fault =>
    rw [hxs] at h
    exact h

/-- A loop is only asked not to move backwards. The induction is on the turns that are left. -/
theorem loopFrom {body : Nat → Decoder M Unit} (hbody : ∀ i, Advances I src 0 (body i)) :
    ∀ n i, Advances I src 0 (loopFrom body i n)
  | 0, _ => pure
  | n + 1, i => bind (hbody i) fun _ => loopFrom hbody n (i + 1)

theorem forUpTo {n : Nat} {body : Nat → Decoder M Unit}
    (hbody : ∀ i, Advances I src 0 (body i)) : Advances I src 0 (forUpTo n body) :=
  loopFrom hbody n 0

end Advances

variable {I : Prop} {src : Bytes} {T : DataTypes}

/-- A 16-bit word takes two bytes. -/
theorem uaUInt16DecodeBinary_offset {p q : Nat} {v : UInt16}
    (h : uaUInt16DecodeBinary src p = .done v q) : q = p + 2 := by
  obtain ⟨t, ht, rfl⟩ := uaDecodeBinary_eq_done h
  exact uint16DecodeBinary_pos ht

/-- What a success of `decodeInto` stored. -/
theorem decodeInto_eq_done {M α : Type} [Inhabited α] {x : Routine ErrorCode Nat α}
    {put : α → M → M} {s u : Decoding M} (h : decodeInto x put s = .done () u) :
    ∃ a, x s.offset = .done a u.offset ∧ u.dst = put a s.dst := by
  unfold decodeInto at h
  cases hx : x s.offset with
  | done a q =>
    rw [hx] at h
    cases h
    exact ⟨a, rfl, rfl⟩
  | fail e q =>
    rw [hx] at h
    cases h
  | fault =>
    rw [hx] at h
    cases h

/-- A Variant takes at least its encoding byte. -/
theorem uaVariant_moves :
    Moves T.NonemptyStructs src (decodeFuel src) 1
      (variantDecodeBinary src T.withoutCustomTypes
        (decodeBinaryJumpTable src T.withoutCustomTypes (decodeFuel src))) :=
  (variantDecodeBinary_moves (decodeBinaryJumpTable_moves _)).of_succ

/-- A DataValue takes at least its encoding mask. -/
theorem uaDataValue_moves :
    Moves T.NonemptyStructs src (decodeFuel src) 1
      (dataValueDecodeBinary src T.withoutCustomTypes
        (decodeBinaryJumpTable src T.withoutCustomTypes (decodeFuel src))) :=
  (dataValueDecodeBinary_moves (decodeBinaryJumpTable_moves _)).of_succ

/-! ## DataSetMessages -/

/-- The first flag byte is always there. -/
theorem dataSetFlagsDecodeBinary_advances : Advances I src 1 (dataSetFlagsDecodeBinary src) :=
  Advances.bind (l := 0) (.decodeLocal byteDecodeBinary_moves) fun _ =>
    .bind (k := 0) (l := 0) .assign fun _ =>
      .onBit (.bind (.decodeLocal byteDecodeBinary_moves) fun _ => .assign)

theorem dataSetMessageHeaderDecodeBinary_advances :
    Advances I src 1 (dataSetMessageHeaderDecodeBinary src) :=
  Advances.bind (k := 0) (l := 1) .assign fun _ =>
    .bind (l := 0) dataSetFlagsDecodeBinary_advances fun _ =>
    .bind (.onFlag (.decodeInto uint16DecodeBinary_moves)) fun _ =>
    .bind (.onFlag (.decodeInto uint64DecodeBinary_moves)) fun _ =>
    .bind (.onFlag (.decodeInto uint16DecodeBinary_moves)) fun _ =>
    .bind (.onFlag (.decodeInto uint16DecodeBinary_moves)) fun _ =>
    .bind (.onFlag (.decodeInto uint32DecodeBinary_moves)) fun _ =>
      .onFlag (.decodeInto uint32DecodeBinary_moves)

/-- The array of the fields takes no bytes of its own. -/
theorem keyFrameFieldsDecodeBinary_advances {field : Nat → Decoder DataSetMessage Unit}
    (hf : ∀ i, Advances I src 0 (field i)) : Advances I src 0 (keyFrameFieldsDecodeBinary field) :=
  .current_bind fun _ => .bind .assign fun _ => .forUpTo hf

theorem deltaFrameFieldsDecodeBinary_advances {field : Nat → Decoder DataSetMessage Unit}
    (hf : ∀ i, Advances I src 0 (field i)) :
    Advances I src 0 (deltaFrameFieldsDecodeBinary field) :=
  .current_bind fun _ => .bind .assign fun _ => .forUpTo hf

theorem keyFrameVariantDecodeBinary_advances (i : Nat) :
    Advances T.NonemptyStructs src 1 (keyFrameVariantDecodeBinary src T i) :=
  .bind (k := 0) (l := 1) .assign fun _ =>
    .bind (l := 0) (.decodeInto (uaVariant_moves)) fun _ => .assign

/-- An index of two bytes, and a Variant. -/
theorem deltaFrameVariantDecodeBinary_advances (i : Nat) :
    Advances T.NonemptyStructs src 3 (deltaFrameVariantDecodeBinary src T i) :=
  .bind (l := 1) (.decodeInto uint16DecodeBinary_moves) fun _ =>
    .bind (k := 0) (l := 1) .assign fun _ =>
    .bind (l := 0) (.decodeInto (uaVariant_moves)) fun _ => .assign

/-- An index of two bytes, and a DataValue. -/
theorem deltaFrameDataValueDecodeBinary_advances (i : Nat) :
    Advances T.NonemptyStructs src 3 (deltaFrameDataValueDecodeBinary src T i) :=
  .bind (.decodeInto uint16DecodeBinary_moves) fun _ => .decodeInto (uaDataValue_moves)

/-- A key frame may have no fields at all. -/
theorem keyFrameDataDecodeBinary_advances :
    Advances T.NonemptyStructs src 0 (keyFrameDataDecodeBinary src T) := by
  refine Advances.current_bind fun d => ?_
  split
  · refine (Advances.bind (l := 0) (.decodeInto uint16DecodeBinary_moves) fun _ => ?_).weaken
      (Nat.zero_le _)
    cases d.header.fieldEncoding with
    | variant =>
      exact keyFrameFieldsDecodeBinary_advances fun i =>
        (keyFrameVariantDecodeBinary_advances i).weaken (Nat.zero_le _)
    | rawData => exact Advances.fail
    | dataValue =>
      exact keyFrameFieldsDecodeBinary_advances fun i =>
        (Advances.decodeInto (uaDataValue_moves)).weaken (Nat.zero_le _)
    | reserved => exact Advances.pure
  · exact Advances.pure

theorem deltaFrameDataDecodeBinary_advances :
    Advances T.NonemptyStructs src 0 (deltaFrameDataDecodeBinary src T) := by
  refine Advances.current_bind fun d => ?_
  split
  · refine (Advances.bind (l := 0) (.decodeInto uint16DecodeBinary_moves) fun _ => ?_).weaken
      (Nat.zero_le _)
    cases d.header.fieldEncoding with
    | variant =>
      exact deltaFrameFieldsDecodeBinary_advances fun i =>
        (deltaFrameVariantDecodeBinary_advances i).weaken (Nat.zero_le _)
    | rawData => exact Advances.fail
    | dataValue =>
      exact deltaFrameFieldsDecodeBinary_advances fun i =>
        (deltaFrameDataValueDecodeBinary_advances i).weaken (Nat.zero_le _)
    | reserved => exact Advances.pure
  · exact Advances.pure

/-- A DataSetMessage takes at least the first flag byte of its header. -/
theorem dataSetMessageDecodeBinary_advances :
    Advances T.NonemptyStructs src 1 (dataSetMessageDecodeBinary src T) := by
  refine Advances.bind (k := 0) (l := 1) .assign fun _ => ?_
  refine Advances.bind (l := 0) (.decodePart dataSetMessageHeaderDecodeBinary_advances)
    fun _ => ?_
  refine Advances.current_bind fun d => ?_
  cases d.header.dataSetMessageType with
  | dataKeyFrame => exact keyFrameDataDecodeBinary_advances
  | dataDeltaFrame => exact deltaFrameDataDecodeBinary_advances
  | keepAlive => exact Advances.pure
  | event => exact Advances.fail
  | reserved v => exact Advances.fail

/-! ## Header sections -/

/-- The first byte of a NetworkMessage is always there. -/
theorem flagsDecodeBinary_advances : Advances I src 1 (flagsDecodeBinary src) :=
  Advances.bind (l := 0) (.decodeLocal byteDecodeBinary_moves) fun _ =>
    .bind (k := 0) (l := 0) .assign fun _ =>
      .onBit (.bind (l := 0) (.decodeLocal byteDecodeBinary_moves) fun _ =>
        .bind (k := 0) (l := 0) .assign fun _ =>
          .onBit (.bind (.decodeLocal byteDecodeBinary_moves) fun _ => .assign))

theorem publisherIdDecodeBinary_advances : Advances I src 0 (publisherIdDecodeBinary src T) := by
  refine Advances.current_bind fun m => ?_
  cases m.publisherId with
  | byte v => exact (Advances.decodeInto byteDecodeBinary_moves).weaken (Nat.zero_le _)
  | uint16 v => exact (Advances.decodeInto uint16DecodeBinary_moves).weaken (Nat.zero_le _)
  | uint32 v => exact (Advances.decodeInto uint32DecodeBinary_moves).weaken (Nat.zero_le _)
  | uint64 v => exact (Advances.decodeInto uint64DecodeBinary_moves).weaken (Nat.zero_le _)
  | string s => exact (Advances.decodeInto stringDecodeBinary_moves).weaken (Nat.zero_le _)
  | reserved v => exact Advances.fail

theorem groupHeaderDecodeBinary_advances : Advances I src 0 (groupHeaderDecodeBinary src) :=
  (Advances.bind (.decodeLocal byteDecodeBinary_moves) fun _ =>
    .bind .assign fun _ =>
    .bind (.onFlag (.decodeInto uint16DecodeBinary_moves)) fun _ =>
    .bind (.onFlag (.decodeInto uint32DecodeBinary_moves)) fun _ =>
    .bind (.onFlag (.decodeInto uint16DecodeBinary_moves)) fun _ =>
      .onFlag (.decodeInto uint16DecodeBinary_moves)).weaken (Nat.zero_le _)

/-- An array whose length was read before. It may be 0. -/
theorem uint16ArrayDecodeBinary_advances {M : Type} {count : Nat}
    {get : M → Option (List UInt16)} {put : Option (List UInt16) → M → M} :
    Advances I src 0 (uint16ArrayDecodeBinary src count get put) :=
  .bind .assign fun _ => .forUpTo fun _ =>
    (Advances.decodeInto uint16DecodeBinary_moves).weaken (Nat.zero_le _)

theorem payloadHeaderDecodeBinary_advances : Advances I src 0 (payloadHeaderDecodeBinary src) := by
  refine Advances.current_bind fun m => ?_
  split
  · exact Advances.fail
  · exact (Advances.bind (.decodeInto byteDecodeBinary_moves) fun _ =>
      .current_bind fun _ => uint16ArrayDecodeBinary_advances).weaken (Nat.zero_le _)

/-- Each turn of the loop reads a Variant, which is what brings it to its end. -/
theorem promotedFieldDecodeBinary_advances (counter : Nat) :
    Advances T.NonemptyStructs src 1 (promotedFieldDecodeBinary src T counter) :=
  .bind (k := 0) (l := 1) .assign fun _ =>
    .bind (k := 0) (l := 1) .assign fun _ => .decodeInto (uaVariant_moves)

/-- Induction on the fuel: while the position `offsetEnd` is not reached there is
fuel for each byte up to it. -/
theorem promotedFieldsLoop_advances (offsetEnd : Nat) :
    ∀ (fuel counter : Nat) (s : Decoding NetworkMessage), offsetEnd ≤ s.offset + fuel →
      0 < fuel →
      (promotedFieldsLoop src T offsetEnd fuel counter s).Sat
        (fun _ t =>
          s.offset ≤ t.offset ∧ (T.NonemptyStructs → t.offset ≤ max s.offset src.length))
        (fun _ _ => True)
  | 0, _, _, _, h => absurd h (Nat.lt_irrefl 0)
  | fuel + 1, counter, s, hfuel, _ => by
    show ((promotedFieldDecodeBinary src T counter >>= fun _ =>
      gets Decoding.offset >>= fun offset =>
        if offset < offsetEnd then promotedFieldsLoop src T offsetEnd fuel (counter + 1)
        else Pure.pure ()) s).Sat _ _
    rw [bind_run]
    have hadv : Advances T.NonemptyStructs src 1 (promotedFieldDecodeBinary src T counter) :=
      promotedFieldDecodeBinary_advances counter
    have h := hadv s
    cases hb : promotedFieldDecodeBinary src T counter s with
    -- a failing turn says nothing about the position
    | fail e t => trivial
    | fault =>
      rw [hb] at h
      exact h
    | done a t =>
      rw [hb] at h
      obtain ⟨h₁, h₂⟩ := h
      show ((if t.offset < offsetEnd then
        promotedFieldsLoop src T offsetEnd fuel (counter + 1) else Pure.pure ()) t).Sat _ _
      by_cases hlt : t.offset < offsetEnd
      · rw [if_pos hlt]
        -- each turn takes a byte at least, so the fuel lasts
        have ih := promotedFieldsLoop_advances offsetEnd fuel (counter + 1) t (by omega)
          (by omega)
        refine ih.imp (fun _ u ⟨h₃, h₄⟩ => ⟨by omega, fun hT => ?_⟩) fun _ _ h => h
        have := h₂ hT
        have := h₄ hT
        omega
      · rw [if_neg hlt]
        exact ⟨by omega, h₂⟩

/-- The loop has as much fuel as the declared size, and each turn takes a byte of it. -/
theorem promotedFieldsDecodeBinary_advances :
    Advances T.NonemptyStructs src 0 (promotedFieldsDecodeBinary src T) := by
  refine (Advances.bind (l := 0) (.decodeLocal uint16DecodeBinary_moves) fun size => ?_).weaken
    (Nat.zero_le _)
  split
  · rename_i hsize
    intro s
    refine promotedFieldsLoop_advances _ _ 0 s (Nat.le_refl _) ?_
    exact hsize
  · exact Advances.pure

theorem messageNonceDecodeBinary_advances : Advances I src 0 (messageNonceDecodeBinary src) :=
  .current_bind fun _ => .bind .assign fun _ => .forUpTo fun _ =>
    (Advances.decodeInto byteDecodeBinary_moves).weaken (Nat.zero_le _)

theorem securityHeaderDecodeBinary_advances :
    Advances I src 0 (securityHeaderDecodeBinary src) :=
  (Advances.bind (.decodeLocal byteDecodeBinary_moves) fun _ =>
    .bind .assign fun _ =>
    .bind (.decodeInto uint32DecodeBinary_moves) fun _ =>
    .bind (.decodeInto byteDecodeBinary_moves) fun _ =>
    .bind (.onFlag messageNonceDecodeBinary_advances) fun _ =>
      .onFlag (.decodeInto uint16DecodeBinary_moves)).weaken (Nat.zero_le _)

/-- **The sections in front of the payload.** -/
theorem headersDecodeBinary_advances :
    Advances T.NonemptyStructs src 1 (headersDecodeBinary src T) :=
  Advances.bind (k := 0) (l := 1) .assign fun _ =>
    .bind (l := 0) flagsDecodeBinary_advances fun _ =>
    .bind (.onFlag publisherIdDecodeBinary_advances) fun _ =>
    .bind (.onFlag (.decodeInto guidDecodeBinary_moves)) fun _ =>
    .bind (.onFlag (.decodePart groupHeaderDecodeBinary_advances)) fun _ =>
    .bind (.onFlag payloadHeaderDecodeBinary_advances) fun _ =>
    .bind (.onFlag (.decodeInto uint64DecodeBinary_moves)) fun _ =>
    .bind (.onFlag (.decodeInto uint16DecodeBinary_moves)) fun _ =>
    .bind (.onFlag (promotedFieldsDecodeBinary_advances)) fun _ =>
      .onFlag (.decodePart securityHeaderDecodeBinary_advances)

/-! ## Payload -/

theorem sizesDecodeBinary_advances : Advances I src 0 (sizesDecodeBinary src) := by
  refine Advances.current_bind fun m => ?_
  split
  · exact uint16ArrayDecodeBinary_advances
  · exact Advances.pure

/-- The array of the messages takes no bytes of its own. -/
theorem dataSetMessagesDecodeBinary_advances :
    Advances T.NonemptyStructs src 0 (dataSetMessagesDecodeBinary src T) :=
  Advances.current_bind fun _ => .bind .assign fun _ => .forUpTo fun _ =>
    (Advances.decodePart (dataSetMessageDecodeBinary_advances)).weaken (Nat.zero_le _)

/-- Induction on the fuel: a counter that wraps around keeps the loop going for as
long as there are bytes, and the fuel covers each of them. -/
theorem securityFooterLoop_advances {I : Prop} :
    ∀ (fuel : Nat) (i : UInt8) (s : Decoding NetworkMessage), src.length - s.offset < fuel →
      (securityFooterLoop src fuel i s).Sat
        (fun _ t => s.offset ≤ t.offset ∧ (I → t.offset ≤ max s.offset src.length))
        (fun _ _ => True)
  | 0, _, _, h => absurd h (Nat.not_lt_zero _)
  | fuel + 1, i, s, hfuel => by
    show ((if i.toNat < s.dst.securityHeader.securityFooterSize.toNat then
      securityFooterByteDecodeBinary src i >>= fun _ => securityFooterLoop src fuel (i + 1)
      else Pure.pure ()) s).Sat _ _
    by_cases hi : i.toNat < s.dst.securityHeader.securityFooterSize.toNat
    · rw [if_pos hi, bind_run]
      have h : Advances True src 1 (securityFooterByteDecodeBinary src i) :=
        .decodeInto byteDecodeBinary_moves
      have hs := h s
      cases hb : securityFooterByteDecodeBinary src i s with
      | fail e t => trivial
      | fault =>
        rw [hb] at hs
        exact hs
      | done a t =>
        rw [hb] at hs
        obtain ⟨h₁, h₂⟩ := hs
        have h₂ := h₂ trivial
        -- a byte was read, so there is one less to go
        have ih := securityFooterLoop_advances (I := I) fuel (i + 1) t (by omega)
        refine ih.imp (fun _ u ⟨h₃, h₄⟩ => ⟨by omega, fun hI => ?_⟩) fun _ _ h => h
        have := h₄ hI
        omega
    · rw [if_neg hi]
      exact ⟨Nat.le_refl _, fun _ => Nat.le_max_left _ _⟩

/-- The footer and the signature. -/
theorem securityTrailerDecodeBinary_advances :
    Advances I src 0 (securityTrailerDecodeBinary src T) := by
  refine Advances.bind (k := 0) (l := 0) ?_ fun _ => .onFlag (.decodeInto stringDecodeBinary_moves)
  refine Advances.current_bind fun m => ?_
  split
  · refine Advances.bind (k := 0) (l := 0) .assign fun _ => fun s => ?_
    exact securityFooterLoop_advances _ 0 s (by omega)
  · exact Advances.pure

/-- **The sections composed.** -/
theorem networkMessageDecodeBinaryInternal_advances :
    Advances T.NonemptyStructs src 1 (networkMessageDecodeBinaryInternal src T) := by
  refine Advances.bind (l := 0) (headersDecodeBinary_advances) fun _ => ?_
  refine Advances.current_bind fun m => ?_
  split
  · exact Advances.fail
  · exact Advances.bind (k := 0) (l := 0) sizesDecodeBinary_advances fun _ =>
      .bind (dataSetMessagesDecodeBinary_advances) fun _ =>
        .onFlag securityTrailerDecodeBinary_advances

/-- The same for the call that cleans up after a failure. -/
theorem networkMessageDecodeBinary_advances (s : DecodeCall) :
    (networkMessageDecodeBinary src T s).Sat
      (fun _ t =>
        s.offset + 1 ≤ t.offset ∧ (T.NonemptyStructs → t.offset ≤ max s.offset src.length))
      (fun _ _ => True) := by
  have hadv : Advances T.NonemptyStructs src 1 (networkMessageDecodeBinaryInternal src T) :=
    networkMessageDecodeBinaryInternal_advances
  have h := hadv s.toDecoding
  unfold networkMessageDecodeBinary
  cases hs : networkMessageDecodeBinaryInternal src T s.toDecoding with
  | done a t =>
    rw [hs] at h
    exact h
  | fail e t => trivial
  | fault =>
    rw [hs] at h
    exact h

/-- **The cursor stays inside the datagram.** No copy reaches outside `src`, and a
successful decode moves the offset forward and leaves it inside. -/
theorem networkMessageDecodeBinary_in_bounds (hT : T.NonemptyStructs) {s : DecodeCall}
    (hs : s.offset ≤ src.length) :
    networkMessageDecodeBinary src T s ≠ .fault ∧
      ∀ t, networkMessageDecodeBinary src T s = .done () t →
        s.offset < t.offset ∧ t.offset ≤ src.length := by
  have h : (networkMessageDecodeBinary src T s).Sat _ _ :=
    networkMessageDecodeBinary_advances s
  refine ⟨fun hf => ?_, fun t ht => ?_⟩
  · rw [hf] at h
    exact h
  · rw [ht] at h
    obtain ⟨h₁, h₂⟩ := h
    have := h₂ hT
    exact ⟨h₁, by omega⟩

/-- A keep-alive message of three bytes. -/
theorem keepAlive_in_bounds :
    networkMessageDecodeBinary [0x01, 0x81, 0x03] builtinTypes ⟨⟨0, default⟩, []⟩ ≠ .fault ∧
      ∀ t, networkMessageDecodeBinary [0x01, 0x81, 0x03] builtinTypes ⟨⟨0, default⟩, []⟩ =
        .done () t → 0 < t.offset ∧ t.offset ≤ 3 :=
  networkMessageDecodeBinary_in_bounds builtinTypes_nonemptyStructs (by decide)

end OpenPubSub
