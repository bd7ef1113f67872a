import OpenPubSub.NetworkMessage.DecodeBounds
import OpenPubSub.Types.Truncation

/-!
# A truncated message is never accepted

The NetworkMessage decoder on `src.take m` against the decoder on `src`. Between the
calls of the value decoders it looks only at what it has decoded so far and at the
offset, so the comparison of values carries over section by section.

- `CutShort x x'`: from the same state, `x'` does what `x` does when that succeeds, or
  fails.
- **`networkMessageDecodeBinaryInternal_cut`**: the decoder on a truncated message.
- **`networkMessageDecodeBinary_truncated`**: a message cut off before the end of
  what was consumed is refused. An agreeing run would leave the offset beyond the
  end, which `networkMessageDecodeBinary_in_bounds` excludes.
-/

namespace OpenPubSub

open Routine

/-- `x'` agrees with every success of `x`, or fails. -/
def CutShort {M α : Type} (x x' : Decoder M α) : Prop := Curtails (fun _ => True) x x'

namespace CutShort

variable {M N α β : Type}

theorem refl {x : Decoder M α} : CutShort x x := Curtails.refl x

/-- One section after the other. Once `x'` has failed nothing more is run. -/
theorem bind {x x' : Decoder M α} {f f' : α → Decoder M β} (hx : CutShort x x')
    (hf : ∀ a, CutShort (f a) (f' a)) : CutShort (x >>= f) (x' >>= f') :=
  Curtails.bind hx (fun _ _ _ _ _ => trivial) hf

/-- What depends on the message read so far: it is the same in both runs. -/
theorem current_bind {f f' : M → Decoder M β} (hf : ∀ m, CutShort (f m) (f' m)) :
    CutShort (current >>= f) (current >>= f') :=
  bind refl hf

/-- A section that is there if a bit of a flag byte is set. -/
theorem onBit {v mask : UInt8} {x x' : Decoder M Unit} (hx : CutShort x x') :
    CutShort (onBit v mask x) (onBit v mask x') :=
  Curtails.ite (fun _ => hx) fun _ => refl

/-- A section that is there if the message says so. -/
theorem onFlag {flag : M → Bool} {x x' : Decoder M Unit} (hx : CutShort x x') :
    CutShort (onFlag flag x) (onFlag flag x') :=
  current_bind fun _ => Curtails.ite (fun _ => hx) fun _ => refl

/-- A value that is stored in the message. Both runs store the same one, or the shorter message
failed to hold it. -/
theorem decodeInto [Inhabited α] {x x' : Routine ErrorCode Nat α} {put : α → M → M}
    (hx : Curtails (fun _ => True) x x') : CutShort (decodeInto x put) (decodeInto x' put) := by
  intro s _ a t h
  unfold OpenPubSub.decodeInto at h ⊢
  cases hxs : x s.offset with
  | fail e o => simp [hxs] at h
  | fault => simp [hxs] at h
  | done b o =>
    rw [hxs] at h
    rcases hx s.offset trivial b o hxs with hx' | ⟨e, o', hx'⟩
    · rw [hx']
      exact .inl h
    · rw [hx']
      exact .inr ⟨e, _, rfl⟩

/-- A routine that works on a part of the state. -/
theorem zoom {σ τ : Type} {get : σ → τ} {set : τ → σ → σ} {x x' : Routine ErrorCode τ α}
    (hx : Curtails (fun _ => True) x x') :
    Curtails (fun _ => True) (zoom get set x) (zoom get set x') := by
  intro s _ a u h
  obtain ⟨t, hxs, rfl⟩ := zoom_eq_done.mp h
  rcases hx (get s) trivial a t hxs with hx' | ⟨e, t', hx'⟩
  · exact .inl (zoom_eq_done.mpr ⟨t, hx', rfl⟩)
  · exact .inr ⟨e, set t' s, by simp only [Routine.zoom, hx']⟩

theorem decodeLocal {x x' : Routine ErrorCode Nat α} (hx : Curtails (fun _ => True) x x') :
    CutShort (decodeLocal x : Decoder M α) (decodeLocal x') :=
  zoom hx

/-- A header that is a structure of its own inside the message. -/
theorem decodePart {get : M → N} {put : N → M → M} {x x' : Decoder N Unit}
    (hx : CutShort x x') : CutShort (decodePart get put x) (decodePart get put x') :=
  zoom hx

/-- The same number of turns. The induction is on those that are left. -/
theorem loopFrom {body body' : Nat → Decoder M Unit} (h : ∀ i, CutShort (body i) (body' i)) :
    ∀ n i, CutShort (loopFrom body i n) (loopFrom body' i n)
  | 0, _ => refl
  | n + 1, i => bind (h i) fun _ => loopFrom h n (i + 1)

theorem forUpTo {n : Nat} {body body' : Nat → Decoder M Unit}
    (h : ∀ i, CutShort (body i) (body' i)) : CutShort (forUpTo n body) (forUpTo n body') :=
  loopFrom h n 0

end CutShort

variable {src : Bytes} {T : DataTypes} {m : Nat}

/-! ## DataSetMessages -/

/-- Two flag bytes, and the members they announce, in the order of the source. -/
theorem dataSetMessageHeaderDecodeBinary_cut :
    CutShort (dataSetMessageHeaderDecodeBinary src)
      (dataSetMessageHeaderDecodeBinary (src.take m)) :=
  .bind .refl fun _ =>
    .bind (.bind (.decodeLocal (uaDecodeBinary_cut byteDecodeBinary_cut)) fun _ =>
      .bind .refl fun _ =>
        .onBit (.bind (.decodeLocal (uaDecodeBinary_cut byteDecodeBinary_cut)) fun _ => .refl))
      fun _ =>
    .bind (.onFlag (.decodeInto (uaDecodeBinary_cut uint16DecodeBinary_cut))) fun _ =>
    .bind (.onFlag (.decodeInto (uaDecodeBinary_cut uint64DecodeBinary_cut))) fun _ =>
    .bind (.onFlag (.decodeInto (uaDecodeBinary_cut uint16DecodeBinary_cut))) fun _ =>
    .bind (.onFlag (.decodeInto (uaDecodeBinary_cut uint16DecodeBinary_cut))) fun _ =>
    .bind (.onFlag (.decodeInto (uaDecodeBinary_cut uint32DecodeBinary_cut))) fun _ =>
      .onFlag (.decodeInto (uaDecodeBinary_cut uint32DecodeBinary_cut))

/-- The number of fields was read before the loop, so both runs take equally many turns. -/
theorem keyFrameFieldsDecodeBinary_cut {field field' : Nat → Decoder DataSetMessage Unit}
    (h : ∀ i, CutShort (field i) (field' i)) :
    CutShort (keyFrameFieldsDecodeBinary field) (keyFrameFieldsDecodeBinary field') :=
  .current_bind fun _ => .bind .refl fun _ => .forUpTo h

theorem deltaFrameFieldsDecodeBinary_cut {field field' : Nat → Decoder DataSetMessage Unit}
    (h : ∀ i, CutShort (field i) (field' i)) :
    CutShort (deltaFrameFieldsDecodeBinary field) (deltaFrameFieldsDecodeBinary field') :=
  .current_bind fun _ => .bind .refl fun _ => .forUpTo h

/-- A field of a key frame is its value. -/
theorem keyFrameVariantDecodeBinary_cut (i : Nat) :
    CutShort (keyFrameVariantDecodeBinary src T i)
      (keyFrameVariantDecodeBinary (src.take m) T i) :=
  .bind .refl fun _ => .bind (.decodeInto (uaVariantDecodeBinary_cut)) fun _ => .refl

/-- A field of a delta frame is an index and a value. -/
theorem deltaFrameVariantDecodeBinary_cut (i : Nat) :
    CutShort (deltaFrameVariantDecodeBinary src T i)
      (deltaFrameVariantDecodeBinary (src.take m) T i) :=
  .bind (.decodeInto (uaDecodeBinary_cut uint16DecodeBinary_cut)) fun _ =>
    .bind .refl fun _ => .bind (.decodeInto (uaVariantDecodeBinary_cut)) fun _ => .refl

theorem deltaFrameDataValueDecodeBinary_cut (i : Nat) :
    CutShort (deltaFrameDataValueDecodeBinary src T i)
      (deltaFrameDataValueDecodeBinary (src.take m) T i) :=
  .bind (.decodeInto (uaDecodeBinary_cut uint16DecodeBinary_cut)) fun _ =>
    .decodeInto (uaDataValueDecodeBinary_cut)

/-- A key frame, whatever the encoding of its fields. RawData is not decoded. -/
theorem keyFrameDataDecodeBinary_cut :
    CutShort (keyFrameDataDecodeBinary src T) (keyFrameDataDecodeBinary (src.take m) T) := by
  refine CutShort.current_bind fun d => ?_
  refine Curtails.ite (fun _ => ?_) fun _ => Curtails.refl _
  -- behind the number of fields the encoding decides, which is in the header
  refine CutShort.bind (.decodeInto (uaDecodeBinary_cut uint16DecodeBinary_cut)) fun _ => ?_
  cases d.header.fieldEncoding with
  | variant => exact keyFrameFieldsDecodeBinary_cut fun i => keyFrameVariantDecodeBinary_cut i
  | rawData => exact CutShort.refl
  | dataValue =>
    exact keyFrameFieldsDecodeBinary_cut fun i => .decodeInto (uaDataValueDecodeBinary_cut)
  | reserved => exact CutShort.refl

/-- The same for a delta frame. -/
theorem deltaFrameDataDecodeBinary_cut :
    CutShort (deltaFrameDataDecodeBinary src T) (deltaFrameDataDecodeBinary (src.take m) T) := by
  refine CutShort.current_bind fun d => ?_
  refine Curtails.ite (fun _ => ?_) fun _ => Curtails.refl _
  refine CutShort.bind (.decodeInto (uaDecodeBinary_cut uint16DecodeBinary_cut)) fun _ => ?_
  cases d.header.fieldEncoding with
  | variant =>
    exact deltaFrameFieldsDecodeBinary_cut fun i => deltaFrameVariantDecodeBinary_cut i
  | rawData => exact CutShort.refl
  | dataValue =>
    exact deltaFrameFieldsDecodeBinary_cut fun i => deltaFrameDataValueDecodeBinary_cut i
  | reserved => exact CutShort.refl

/-- A DataSetMessage of any type. The header says which one, and it was read in both runs. -/
theorem dataSetMessageDecodeBinary_cut :
    CutShort (dataSetMessageDecodeBinary src T) (dataSetMessageDecodeBinary (src.take m) T) := by
  refine CutShort.bind .refl fun _ => ?_
  refine CutShort.bind (.decodePart dataSetMessageHeaderDecodeBinary_cut) fun _ => ?_
  refine CutShort.current_bind fun d => ?_
  cases d.header.dataSetMessageType with
  | dataKeyFrame => exact keyFrameDataDecodeBinary_cut
  | dataDeltaFrame => exact deltaFrameDataDecodeBinary_cut
  | keepAlive => exact CutShort.refl
  | event => exact CutShort.refl
  | reserved v => exact CutShort.refl

/-! ## Header sections -/

/-- Up to three flag bytes. The second and the third are there if the one before says so. -/
theorem flagsDecodeBinary_cut :
    CutShort (flagsDecodeBinary src) (flagsDecodeBinary (src.take m)) :=
  .bind (.decodeLocal (uaDecodeBinary_cut byteDecodeBinary_cut)) fun _ =>
    .bind .refl fun _ =>
      .onBit (.bind (.decodeLocal (uaDecodeBinary_cut byteDecodeBinary_cut)) fun _ =>
        .bind .refl fun _ =>
          .onBit (.bind (.decodeLocal (uaDecodeBinary_cut byteDecodeBinary_cut)) fun _ => .refl))

/-- The type of the publisher id is known from the flags. -/
theorem publisherIdDecodeBinary_cut :
    CutShort (publisherIdDecodeBinary src T) (publisherIdDecodeBinary (src.take m) T) := by
  refine CutShort.current_bind fun m => ?_
  cases m.publisherId with
  | byte v => exact .decodeInto (uaDecodeBinary_cut byteDecodeBinary_cut)
  | uint16 v => exact .decodeInto (uaDecodeBinary_cut uint16DecodeBinary_cut)
  | uint32 v => exact .decodeInto (uaDecodeBinary_cut uint32DecodeBinary_cut)
  | uint64 v => exact .decodeInto (uaDecodeBinary_cut uint64DecodeBinary_cut)
  | string s => exact .decodeInto (uaDecodeBinary_cut stringDecodeBinary_cut)
  | reserved v => exact CutShort.refl

theorem groupHeaderDecodeBinary_cut :
    CutShort (groupHeaderDecodeBinary src) (groupHeaderDecodeBinary (src.take m)) :=
  .bind (.decodeLocal (uaDecodeBinary_cut byteDecodeBinary_cut)) fun _ =>
    .bind .refl fun _ =>
    .bind (.onFlag (.decodeInto (uaDecodeBinary_cut uint16DecodeBinary_cut))) fun _ =>
    .bind (.onFlag (.decodeInto (uaDecodeBinary_cut uint32DecodeBinary_cut))) fun _ =>
    .bind (.onFlag (.decodeInto (uaDecodeBinary_cut uint16DecodeBinary_cut))) fun _ =>
      .onFlag (.decodeInto (uaDecodeBinary_cut uint16DecodeBinary_cut))

/-- An array whose length was read before. -/
theorem uint16ArrayDecodeBinary_cut {M : Type} {count : Nat} {get : M → Option (List UInt16)}
    {put : Option (List UInt16) → M → M} :
    CutShort (uint16ArrayDecodeBinary src count get put)
      (uint16ArrayDecodeBinary (src.take m) count get put) :=
  .bind .refl fun _ => .forUpTo fun _ => .decodeInto (uaDecodeBinary_cut uint16DecodeBinary_cut)

theorem payloadHeaderDecodeBinary_cut :
    CutShort (payloadHeaderDecodeBinary src) (payloadHeaderDecodeBinary (src.take m)) :=
  .current_bind fun _ => Curtails.ite (fun _ => Curtails.refl _) fun _ =>
    CutShort.bind (.decodeInto (uaDecodeBinary_cut byteDecodeBinary_cut)) fun _ =>
      .current_bind fun _ => uint16ArrayDecodeBinary_cut

/-- One turn of the loop over the promoted fields: the array grows by one, and a Variant goes into
the last slot. -/
theorem promotedFieldDecodeBinary_cut (counter : Nat) :
    CutShort (promotedFieldDecodeBinary src T counter)
      (promotedFieldDecodeBinary (src.take m) T counter) :=
  .bind .refl fun _ => .bind .refl fun _ => .decodeInto (uaVariantDecodeBinary_cut)

/-- Both loops have the fuel of the declared size. -/
theorem promotedFieldsLoop_cut (offsetEnd : Nat) :
    ∀ fuel counter, CutShort (promotedFieldsLoop src T offsetEnd fuel counter)
      (promotedFieldsLoop (src.take m) T offsetEnd fuel counter)
  | 0, _ => .refl
  | fuel + 1, counter =>
    .bind (promotedFieldDecodeBinary_cut counter) fun _ =>
      .bind .refl fun _ =>
        Curtails.ite (fun _ => promotedFieldsLoop_cut offsetEnd fuel (counter + 1)) fun _ =>
          Curtails.refl _

/-- The end of the loop is the declared size, which is the same in both runs. -/
theorem promotedFieldsDecodeBinary_cut :
    CutShort (promotedFieldsDecodeBinary src T) (promotedFieldsDecodeBinary (src.take m) T) :=
  .bind (.decodeLocal (uaDecodeBinary_cut uint16DecodeBinary_cut)) fun _ =>
    Curtails.ite (fun _ => CutShort.bind .refl fun _ => promotedFieldsLoop_cut _ _ _)
      fun _ => Curtails.refl _

theorem securityHeaderDecodeBinary_cut :
    CutShort (securityHeaderDecodeBinary src) (securityHeaderDecodeBinary (src.take m)) :=
  .bind (.decodeLocal (uaDecodeBinary_cut byteDecodeBinary_cut)) fun _ =>
    .bind .refl fun _ =>
    .bind (.decodeInto (uaDecodeBinary_cut uint32DecodeBinary_cut)) fun _ =>
    .bind (.decodeInto (uaDecodeBinary_cut byteDecodeBinary_cut)) fun _ =>
    .bind (.onFlag (.current_bind fun _ => .bind .refl fun _ => .forUpTo fun _ =>
      .decodeInto (uaDecodeBinary_cut byteDecodeBinary_cut))) fun _ =>
      .onFlag (.decodeInto (uaDecodeBinary_cut uint16DecodeBinary_cut))

/-- **The sections in front of the payload.** -/
theorem headersDecodeBinary_cut :
    CutShort (headersDecodeBinary src T) (headersDecodeBinary (src.take m) T) :=
  .bind .refl fun _ =>
    .bind flagsDecodeBinary_cut fun _ =>
    .bind (.onFlag publisherIdDecodeBinary_cut) fun _ =>
    .bind (.onFlag (.decodeInto (uaDecodeBinary_cut guidDecodeBinary_cut))) fun _ =>
    .bind (.onFlag (.decodePart groupHeaderDecodeBinary_cut)) fun _ =>
    .bind (.onFlag payloadHeaderDecodeBinary_cut) fun _ =>
    .bind (.onFlag (.decodeInto (uaDecodeBinary_cut uint64DecodeBinary_cut))) fun _ =>
    .bind (.onFlag (.decodeInto (uaDecodeBinary_cut uint16DecodeBinary_cut))) fun _ =>
    .bind (.onFlag (promotedFieldsDecodeBinary_cut)) fun _ =>
      .onFlag (.decodePart securityHeaderDecodeBinary_cut)

/-! ## Payload -/

theorem sizesDecodeBinary_cut :
    CutShort (sizesDecodeBinary src) (sizesDecodeBinary (src.take m)) :=
  .current_bind fun _ => Curtails.ite (fun _ => uint16ArrayDecodeBinary_cut) fun _ =>
    Curtails.refl _

/-- As many DataSetMessages as the payload header counts, or one. -/
theorem dataSetMessagesDecodeBinary_cut :
    CutShort (dataSetMessagesDecodeBinary src T) (dataSetMessagesDecodeBinary (src.take m) T) :=
  .current_bind fun _ => .bind .refl fun _ => .forUpTo fun _ =>
    .decodePart (dataSetMessageDecodeBinary_cut)

/-- The fuels differ: each covers the bytes of its own message. -/
theorem securityFooterLoop_cut :
    ∀ (fuel fuel' : Nat) (i : UInt8) (s : Decoding NetworkMessage) (t : Decoding NetworkMessage),
      (src.take m).length - s.offset < fuel' → securityFooterLoop src fuel i s = .done () t →
      securityFooterLoop (src.take m) fuel' i s = .done () t ∨
        ∃ e t', securityFooterLoop (src.take m) fuel' i s = .fail e t'
  | 0, _, _, _, _, _, h => nomatch h
  | _ + 1, 0, _, _, _, h, _ => absurd h (Nat.not_lt_zero _)
  | fuel + 1, fuel' + 1, i, s, t, hfuel, h => by
    change (if i.toNat < s.dst.securityHeader.securityFooterSize.toNat then
      securityFooterByteDecodeBinary src i >>= fun _ => securityFooterLoop src fuel (i + 1)
      else Pure.pure ()) s = _ at h
    show (if i.toNat < s.dst.securityHeader.securityFooterSize.toNat then
        securityFooterByteDecodeBinary (src.take m) i >>= fun _ =>
          securityFooterLoop (src.take m) fuel' (i + 1)
        else Pure.pure ()) s = _ ∨
      ∃ e t', (if i.toNat < s.dst.securityHeader.securityFooterSize.toNat then
        securityFooterByteDecodeBinary (src.take m) i >>= fun _ =>
          securityFooterLoop (src.take m) fuel' (i + 1)
        else Pure.pure ()) s = .fail e t'
    by_cases hi : i.toNat < s.dst.securityHeader.securityFooterSize.toNat
    · rw [if_pos hi] at h ⊢
      -- one more byte: it is the same one, and it takes one of the shorter message's fuel
      have hbyte : CutShort (securityFooterByteDecodeBinary src i)
          (securityFooterByteDecodeBinary (src.take m) i) :=
        .decodeInto (uaDecodeBinary_cut byteDecodeBinary_cut)
      have hadv : Advances True (src.take m) 1 (securityFooterByteDecodeBinary (src.take m) i) :=
        .decodeInto byteDecodeBinary_moves
      obtain ⟨_, u, hb, hrest⟩ := bind_eq_done.mp h
      rcases hbyte s trivial () u hb with hb' | ⟨e, u', hb'⟩
      · have hs := hadv s
        rw [hb'] at hs
        obtain ⟨h₁, h₂⟩ := hs
        have h₂ := h₂ trivial
        rw [bind_done hb']
        exact securityFooterLoop_cut fuel fuel' (i + 1) u t (by omega) hrest
      · exact .inr ⟨e, u', bind_fail hb'⟩
    · rw [if_neg hi] at h ⊢
      exact .inl h

/-- The footer starts at the same counter in both messages, so the two loops can be compared
although their fuels differ. -/
theorem securityFooterDecodeBinary_cut :
    CutShort (securityFooterDecodeBinary src) (securityFooterDecodeBinary (src.take m)) :=
  .current_bind fun _ => Curtails.ite
    (fun _ => CutShort.bind .refl fun _ => fun s _ _ t h =>
      securityFooterLoop_cut _ _ 0 s t (by omega) h)
    fun _ => Curtails.refl _

/-- **The decoder on a truncated message** does the same, or fails. -/
theorem networkMessageDecodeBinaryInternal_cut :
    CutShort (networkMessageDecodeBinaryInternal src T)
      (networkMessageDecodeBinaryInternal (src.take m) T) :=
  .bind (headersDecodeBinary_cut) fun _ =>
    .current_bind fun _ => Curtails.ite (fun _ => Curtails.refl _) fun _ =>
      CutShort.bind sizesDecodeBinary_cut fun _ =>
        .bind (dataSetMessagesDecodeBinary_cut) fun _ =>
          .onFlag (.bind securityFooterDecodeBinary_cut fun _ =>
            .onFlag (.decodeInto (uaDecodeBinary_cut stringDecodeBinary_cut)))

/-- A success starts inside the message: it moves the offset, and never beyond the end. -/
theorem offset_le_of_done (hT : T.NonemptyStructs) {s t : DecodeCall}
    (h : networkMessageDecodeBinary src T s = .done () t) : s.offset ≤ src.length := by
  have hadvances : (networkMessageDecodeBinary src T s).Sat _ _ :=
    networkMessageDecodeBinary_advances s
  rw [h] at hadvances
  obtain ⟨hforward, hinside⟩ := hadvances
  have hend := hinside hT
  omega

/-- **A truncated message is refused.** The decoder consumed `t.offset - s.offset`
bytes; with fewer of them left it returns an error. -/
theorem networkMessageDecodeBinary_truncated (hT : T.NonemptyStructs) {s t : DecodeCall}
    (h : networkMessageDecodeBinary src T s = .done () t) {k : Nat}
    (hk : k < t.offset - s.offset) :
    ∃ e t', networkMessageDecodeBinary (src.take (s.offset + k)) T s = .fail e t' := by
  have hs : s.offset ≤ src.length := offset_le_of_done hT h
  have hlen : (src.take (s.offset + k)).length ≤ s.offset + k := List.length_take_le _ _
  have hs' : s.offset ≤ (src.take (s.offset + k)).length := by
    rw [List.length_take]
    omega
  obtain ⟨hfault, hin⟩ := networkMessageDecodeBinary_in_bounds hT hs'
  -- the decoder on `src` succeeded inside the wrapper
  obtain ⟨u, hu, rfl⟩ : ∃ u, networkMessageDecodeBinaryInternal src T s.toDecoding = .done () u ∧
      t = { s with toDecoding := u } := by
    unfold networkMessageDecodeBinary at h
    cases hrun : networkMessageDecodeBinaryInternal src T s.toDecoding with
    | done a u =>
      simp only [hrun, Outcome.done.injEq, true_and] at h
      exact ⟨u, rfl, h.symm⟩
    | fail e u => simp [hrun] at h
    | fault => simp [hrun] at h
  rcases networkMessageDecodeBinaryInternal_cut (m := s.offset + k) s.toDecoding trivial () u hu
    with hagree | ⟨e, t', hfail⟩
  · -- an agreeing run would end beyond the end
    have hdone : networkMessageDecodeBinary (src.take (s.offset + k)) T s =
        .done () { s with toDecoding := u } := by
      simp only [networkMessageDecodeBinary, hagree]
    have := (hin _ hdone).2
    simp only at this hk
    omega
  · refine ⟨e, ⟨⟨t'.offset, (networkMessageClear t'.dst).2⟩,
      s.cleared ++ (networkMessageClear t'.dst).1⟩, ?_⟩
    simp only [networkMessageDecodeBinary, hfail]

/-- A keep-alive message of three bytes, without the last. -/
theorem keepAlive_truncated :
    ∃ e t', networkMessageDecodeBinary ([0x01, 0x81, 0x03].take (0 + 2)) builtinTypes
      ⟨⟨0, default⟩, []⟩ = .fail e t' :=
  networkMessageDecodeBinary_truncated (s := ⟨⟨0, default⟩, []⟩) builtinTypes_nonemptyStructs
    rfl (by decide)

end OpenPubSub
