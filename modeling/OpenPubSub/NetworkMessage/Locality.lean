import OpenPubSub.NetworkMessage.Compare
import OpenPubSub.Types.Locality

/-!
# An accepted message is all in its bytes

The NetworkMessage decoder on two datagrams that agree in a window of `n` bytes, at `p` in
one of them and at `p'` in the other. What stands before and behind the windows may differ.

- `Tracks p p' n x x'`: if both succeed, and `x'` stays in its window, they have filled the
  same structure and read the same number of bytes.
- `tracking`: its rules, and with them the comparison of the whole decoder.
- **`networkMessageDecodeBinary_unambiguous`**: an accepted message is not the beginning of
  a different one.
-/

namespace OpenPubSub

open Routine

/-- The same structure, and the same position relative to `p` and `p'`. -/
def Abreast {M : Type} (p p' : Nat) (s s' : Decoding M) : Prop :=
  s.dst = s'.dst ∧ ∃ i, s.offset = p + i ∧ s'.offset = p' + i

/-- `x'` only moves forward, and `x` fills what it fills as long as it stays in its window. -/
structure Tracks {M α : Type} (p p' n : Nat) (x x' : Decoder M α) : Prop where
  grows : ∀ {s a t}, p' ≤ s.offset → x' s = .done a t → s.offset ≤ t.offset
  same : ∀ {s s' a a' t t'}, Abreast p p' s s' → x s = .done a t → x' s' = .done a' t' →
    t'.offset ≤ p' + n → a = a' ∧ Abreast p p' t t'

variable {M N α β : Type} {p p' n : Nat} {src src' : Bytes} {T : DataTypes}

/-! ## Calls of the value decoders -/

namespace Local

variable {x x' : Dec α}

theorem offset_le (hx : Local p p' n x x') {a : α} {o q : Nat}
    (h : uaDecodeBinary x' o = .done a q) : o ≤ q := by
  obtain ⟨c, hc, rfl⟩ := uaDecodeBinary_eq_done h
  exact hx.grows hc

/-- Each call has a fresh cursor, in its own datagram. -/
theorem offset_same (hx : Local p p' n x x') {a a' : α} {o o' q q' : Nat}
    (ho : ∃ i, o = p + i ∧ o' = p' + i) (h : uaDecodeBinary x o = .done a q)
    (h' : uaDecodeBinary x' o' = .done a' q') (hend : q' ≤ p' + n) :
    a = a' ∧ ∃ i, q = p + i ∧ q' = p' + i := by
  obtain ⟨i, hi, hi'⟩ := ho
  obtain ⟨c, hc, rfl⟩ := uaDecodeBinary_eq_done h
  obtain ⟨c', hc', rfl⟩ := uaDecodeBinary_eq_done h'
  have hapart : Apart p p' ⟨o, 0⟩ ⟨o', 0⟩ := ⟨i, hi, hi', rfl⟩
  obtain ⟨rfl, j, hj, hj', -⟩ := hx.same hapart hc hc' hend
  exact ⟨rfl, j, hj, hj'⟩

end Local

/-! ## Rules -/

namespace Tracks

/-- Something that leaves the offset alone, and looks only at the structure. -/
theorem still {x : Decoder M α} (result : M → α) (change : M → M)
    (hx : ∀ s, x s = .done (result s.dst) ⟨s.offset, change s.dst⟩) : Tracks p p' n x x := by
  constructor
  · intro s a t _ h
    rw [hx] at h
    cases h
    exact Nat.le_refl _
  · rintro s s' a a' t t' ⟨hdst, hoffset⟩ h h' _
    rw [hx] at h h'
    cases h
    cases h'
    rw [hdst]
    exact ⟨rfl, rfl, hoffset⟩

theorem stop {x x' : Decoder M α} (hx : ∀ s a t, x s ≠ .done a t)
    (hx' : ∀ s a t, x' s ≠ .done a t) : Tracks p p' n x x' :=
  ⟨fun _ h => absurd h (hx' _ _ _), fun _ h => absurd h (hx _ _ _)⟩

theorem bind {x x' : Decoder M α} {f f' : α → Decoder M β} (hx : Tracks p p' n x x')
    (hf : ∀ a, Tracks p p' n (f a) (f' a)) : Tracks p p' n (x >>= f) (x' >>= f') := by
  constructor
  · intro s b u hp h
    obtain ⟨a, t, hxs, hft⟩ := bind_eq_done.mp h
    have ht := hx.grows hp hxs
    exact Nat.le_trans ht ((hf a).grows (Nat.le_trans hp ht) hft)
  · intro s s' b b' u u' hs h h' hend
    obtain ⟨a, t, hxs, hft⟩ := bind_eq_done.mp h
    obtain ⟨a', t', hxs', hft'⟩ := bind_eq_done.mp h'
    have hp : p' ≤ s'.offset := by
      obtain ⟨i, -, hi⟩ := hs.2
      omega
    have hmid := (hf a').grows (Nat.le_trans hp (hx.grows hp hxs')) hft'
    obtain ⟨rfl, ht⟩ := hx.same hs hxs hxs' (Nat.le_trans hmid hend)
    exact (hf a).same ht hft hft' hend

/-- The offsets are not the same, but equally far into the windows. -/
theorem offset_bind {f f' : Nat → Decoder M β}
    (hf : ∀ i, Tracks p p' n (f (p + i)) (f' (p' + i))) :
    Tracks p p' n (gets Decoding.offset >>= f) (gets Decoding.offset >>= f') := by
  constructor
  · intro s b t hp h
    obtain ⟨i, hi⟩ := Nat.exists_eq_add_of_le hp
    have hrun : f' s.offset s = .done b t := h
    rw [hi] at hrun
    exact (hf i).grows hp hrun
  · intro s s' b b' t t' hs h h' hend
    have ⟨_, i, hi, hi'⟩ := hs
    have hrun : f s.offset s = .done b t := h
    have hrun' : f' s'.offset s' = .done b' t' := h'
    rw [hi] at hrun
    rw [hi'] at hrun'
    exact (hf i).same hs hrun hrun' hend

theorem decodeLocal {x x' : Dec α} (hx : Local p p' n x x') :
    Tracks p p' n (decodeLocal (uaDecodeBinary x) : Decoder M α)
      (decodeLocal (uaDecodeBinary x')) := by
  constructor
  · intro s a t _ h
    obtain ⟨q, hq, rfl⟩ := zoom_eq_done.mp h
    exact hx.offset_le hq
  · rintro s s' a a' t t' ⟨hdst, hoffset⟩ h h' hend
    obtain ⟨q, hq, rfl⟩ := zoom_eq_done.mp h
    obtain ⟨q', hq', rfl⟩ := zoom_eq_done.mp h'
    obtain ⟨rfl, hoffset'⟩ := hx.offset_same hoffset hq hq' hend
    exact ⟨rfl, hdst, hoffset'⟩

theorem decodeInto [Inhabited α] {put : α → M → M} {x x' : Dec α} (hx : Local p p' n x x') :
    Tracks p p' n (decodeInto (uaDecodeBinary x) put) (decodeInto (uaDecodeBinary x') put) := by
  constructor
  · intro s a t _ h
    obtain ⟨v, hv, -⟩ := decodeInto_eq_done h
    exact hx.offset_le hv
  · rintro s s' a a' t t' ⟨hdst, hoffset⟩ h h' hend
    obtain ⟨v, hv, hput⟩ := decodeInto_eq_done h
    obtain ⟨v', hv', hput'⟩ := decodeInto_eq_done h'
    obtain ⟨rfl, hoffset'⟩ := hx.offset_same hoffset hv hv' hend
    exact ⟨rfl, by rw [hput, hput', hdst], hoffset'⟩

theorem decodePart {get : M → N} {put : N → M → M} {x x' : Decoder N Unit}
    (hx : Tracks p p' n x x') :
    Tracks p p' n (decodePart get put x) (decodePart get put x') := by
  constructor
  · intro s a t hp h
    obtain ⟨u, hu, rfl⟩ := zoom_eq_done.mp h
    exact hx.grows (s := ⟨s.offset, get s.dst⟩) hp hu
  · rintro s s' a a' t t' ⟨hdst, hoffset⟩ h h' hend
    obtain ⟨u, hu, rfl⟩ := zoom_eq_done.mp h
    obtain ⟨u', hu', rfl⟩ := zoom_eq_done.mp h'
    have hpart : Abreast p p' (⟨s.offset, get s.dst⟩ : Decoding N) ⟨s'.offset, get s'.dst⟩ :=
      ⟨congrArg get hdst, hoffset⟩
    obtain ⟨rfl, hpart', hend'⟩ := hx.same hpart hu hu' hend
    refine ⟨rfl, ?_, hend'⟩
    show put u.dst s.dst = put u'.dst s'.dst
    rw [hpart', hdst]

end Tracks

/-- The rules for all sections. -/
def tracking (T : DataTypes) (hsrc : (src.drop p).take n = (src'.drop p').take n) :
    Comparison src src' T p p' where
  values := Local p p' n
  sections := Tracks p p' n
  byte := byteDecodeBinary_local hsrc
  uint16 := uint16DecodeBinary_local hsrc
  uint32 := uint32DecodeBinary_local hsrc
  uint64 := uint64DecodeBinary_local hsrc
  guid := guidDecodeBinary_local hsrc
  string := stringDecodeBinary_local hsrc
  variant := variantDecodeBinary_local hsrc (decodeBinaryJumpTable_local hsrc _ _)
  dataValue := dataValueDecodeBinary_local hsrc (decodeBinaryJumpTable_local hsrc _ _)
  still := Tracks.still
  stop := Tracks.stop
  bind := Tracks.bind
  offset := Tracks.offset_bind
  part := Tracks.decodePart
  read := Tracks.decodeLocal
  into := Tracks.decodeInto

/-- In one and the same window. -/
theorem securityFooterLoop_self :
    ∀ fuel i, Tracks p p n (securityFooterLoop src fuel i) (securityFooterLoop src fuel i)
  | 0, _ => .stop (fun _ _ _ h => (nomatch h)) fun _ _ _ h => (nomatch h)
  | fuel + 1, i =>
    (tracking builtinTypes rfl).securityFooterLoop_succ (securityFooterLoop_self fuel (i + 1))

/-- The fuels differ: each covers the bytes of its own datagram. -/
theorem securityFooterLoop_tracks (hsrc : (src.drop p).take n = (src'.drop p').take n) :
    ∀ fuel fuel' i, Tracks p p' n (securityFooterLoop src fuel i)
      (securityFooterLoop src' fuel' i)
  | 0, fuel', i =>
    ⟨(securityFooterLoop_self (p := p') (n := n) fuel' i).grows, fun _ h => (nomatch h)⟩
  | _ + 1, 0, _ => ⟨fun _ h => (nomatch h), fun _ _ h => (nomatch h)⟩
  | fuel + 1, fuel' + 1, i =>
    (tracking builtinTypes hsrc).securityFooterLoop_succ
      (securityFooterLoop_tracks hsrc fuel fuel' (i + 1))

/-- **An accepted message is not the beginning of a different one.** If a message is accepted
where the bytes of another accepted message stand, it is that message and no longer, whatever
comes before and behind either of them. -/
theorem networkMessageDecodeBinary_unambiguous {s t s' t' : DecodeCall}
    (h : networkMessageDecodeBinary src T s = .done () t)
    (h' : networkMessageDecodeBinary src' T s' = .done () t')
    (hbytes : (src.drop s.offset).take (t'.offset - s'.offset) =
      (src'.drop s'.offset).take (t'.offset - s'.offset)) :
    t.dst = t'.dst ∧ t.offset - s.offset = t'.offset - s'.offset := by
  have htracks : Tracks s.offset s'.offset (t'.offset - s'.offset) _ _ :=
    (tracking T hbytes).internal (securityFooterLoop_tracks hbytes _ _ 0)
  have hstart : Abreast s.offset s'.offset (⟨s.offset, default⟩ : Decoding NetworkMessage)
      ⟨s'.offset, default⟩ := ⟨rfl, 0, rfl, rfl⟩
  have hend : t'.offset ≤ s'.offset + (t'.offset - s'.offset) := by omega
  obtain ⟨-, hdst, i, hi, hi'⟩ := htracks.same hstart (networkMessageDecodeBinary_done h _).1
    (networkMessageDecodeBinary_done h' _).1 hend
  exact ⟨hdst, by omega⟩

/-- A keep-alive message of three bytes, in front of one datagram and at the end of another. -/
theorem keepAlive_unambiguous : ∃ t t' : DecodeCall,
    decodeAt [0x01, 0x81, 0x03, 0x2A] builtinTypes 0 = .done () t ∧
      decodeAt [0xFF, 0x01, 0x81, 0x03] builtinTypes 1 = .done () t' ∧
      t.dst = t'.dst ∧ t.offset - 0 = t'.offset - 1 := by
  have h : decodeAt [0x01, 0x81, 0x03, 0x2A] builtinTypes 0 = .done () _ := rfl
  have h' : decodeAt [0xFF, 0x01, 0x81, 0x03] builtinTypes 1 = .done () _ := rfl
  exact ⟨_, _, h, h', networkMessageDecodeBinary_unambiguous h h' rfl⟩

end OpenPubSub
