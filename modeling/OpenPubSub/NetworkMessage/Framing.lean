import OpenPubSub.NetworkMessage.Compare
import OpenPubSub.Types.Framing

/-!
# A message inside a larger datagram

Whatever is put in front of a message and behind it, the decoder that starts behind what is in
front accepts it as before, and reads the same.

- `FramedAt k x x'`: what `x` fills in, `x'` fills in `k` bytes further on.
- `framing`: its rules, and with them the comparison of the whole decoder.
- **`networkMessageDecodeBinary_framed`**: a message that is accepted on its own is accepted in
  every datagram around it.
-/

namespace OpenPubSub

open Routine

/-- The offset in the larger datagram. -/
def Decoding.shift {M : Type} (k : Nat) (s : Decoding M) : Decoding M :=
  { s with offset := k + s.offset }

/-- What `x` fills in, `x'` fills in `k` bytes further on. -/
def FramedAt {M α : Type} (k : Nat) (x x' : Decoder M α) : Prop :=
  ∀ s a t, x s = .done a t → x' (s.shift k) = .done a (t.shift k)

variable {M N α β : Type} {k : Nat} {src src' : Bytes} {T : DataTypes}

/-- A call of a value decoder. -/
theorem Framed.offset {x x' : Dec α} (hx : Framed k x x') {a : α} {o q : Nat}
    (h : uaDecodeBinary x o = .done a q) : uaDecodeBinary x' (k + o) = .done a (k + q) := by
  obtain ⟨c, hc, rfl⟩ := uaDecodeBinary_eq_done h
  have hrun : x' ⟨k + o, 0⟩ = .done a (c.shift k) := hx _ _ _ hc
  unfold uaDecodeBinary
  rw [hrun]
  rfl

/-! ## Rules -/

namespace FramedAt

theorem still {x : Decoder M α} (result : M → α) (change : M → M)
    (hx : ∀ s, x s = .done (result s.dst) ⟨s.offset, change s.dst⟩) : FramedAt k x x := by
  intro s a t h
  rw [hx] at h ⊢
  cases h
  rfl

theorem stop {x x' : Decoder M α} (hx : ∀ s a t, x s ≠ .done a t) : FramedAt k x x' :=
  fun _ _ _ h => absurd h (hx _ _ _)

theorem bind {x x' : Decoder M α} {f f' : α → Decoder M β} (hx : FramedAt k x x')
    (hf : ∀ a, FramedAt k (f a) (f' a)) : FramedAt k (x >>= f) (x' >>= f') := by
  intro s b u h
  obtain ⟨a, t, hxs, hft⟩ := bind_eq_done.mp h
  exact bind_eq_done.mpr ⟨a, t.shift k, hx _ _ _ hxs, hf a _ _ _ hft⟩

theorem offset_bind {f f' : Nat → Decoder M β} (hf : ∀ i, FramedAt k (f (0 + i)) (f' (k + i))) :
    FramedAt k (gets Decoding.offset >>= f) (gets Decoding.offset >>= f') := by
  intro s b t h
  have hrun : f (0 + s.offset) s = .done b t := by
    rw [Nat.zero_add]
    exact h
  exact hf s.offset _ _ _ hrun

theorem decodePart {get : M → N} {put : N → M → M} {x x' : Decoder N Unit}
    (hx : FramedAt k x x') : FramedAt k (decodePart get put x) (decodePart get put x') := by
  intro s a t h
  obtain ⟨u, hu, rfl⟩ := zoom_eq_done.mp h
  exact zoom_eq_done.mpr ⟨u.shift k, hx _ _ _ hu, rfl⟩

theorem decodeLocal {x x' : Dec α} (hx : Framed k x x') :
    FramedAt k (decodeLocal (uaDecodeBinary x) : Decoder M α)
      (decodeLocal (uaDecodeBinary x')) := by
  intro s a t h
  obtain ⟨q, hq, rfl⟩ := zoom_eq_done.mp h
  exact zoom_eq_done.mpr ⟨k + q, hx.offset hq, rfl⟩

theorem decodeInto [Inhabited α] {put : α → M → M} {x x' : Dec α} (hx : Framed k x x') :
    FramedAt k (decodeInto (uaDecodeBinary x) put) (decodeInto (uaDecodeBinary x') put) := by
  intro s a t h
  obtain ⟨v, hv, hput⟩ := decodeInto_eq_done h
  have hrun : uaDecodeBinary x' (k + s.offset) = .done v (k + t.offset) := hx.offset hv
  simp only [OpenPubSub.decodeInto, Decoding.shift, hrun, hput]

end FramedAt

/-- The rules for all sections. -/
def framing (T : DataTypes) (hsrc : Sits k src src') : Comparison src src' T 0 k where
  values := Framed k
  sections := FramedAt k
  byte := byteDecodeBinary_framed hsrc
  uint16 := uint16DecodeBinary_framed hsrc
  uint32 := uint32DecodeBinary_framed hsrc
  uint64 := uint64DecodeBinary_framed hsrc
  guid := guidDecodeBinary_framed hsrc
  string := stringDecodeBinary_framed hsrc
  variant := variantDecodeBinary_framed hsrc
    (decodeBinaryJumpTable_framed hsrc (decodeFuel_le hsrc))
  dataValue := dataValueDecodeBinary_framed hsrc
    (decodeBinaryJumpTable_framed hsrc (decodeFuel_le hsrc))
  still := FramedAt.still
  stop hx _ := FramedAt.stop hx
  bind := FramedAt.bind
  offset := FramedAt.offset_bind
  part := FramedAt.decodePart
  read := FramedAt.decodeLocal
  into := FramedAt.decodeInto

/-- Induction on the fuel of the smaller datagram. -/
theorem securityFooterLoop_framed (hsrc : Sits k src src') :
    ∀ {fuel fuel' : Nat}, fuel ≤ fuel' → ∀ i,
      FramedAt k (securityFooterLoop src fuel i) (securityFooterLoop src' fuel' i)
  | 0, _, _, _ => fun _ _ _ h => nomatch h
  | _ + 1, _ + 1, hfuel, i =>
    (framing builtinTypes hsrc).securityFooterLoop_succ
      (securityFooterLoop_framed hsrc (Nat.le_of_succ_le_succ hfuel) (i + 1))

/-! ## Accepted messages -/

/-- **A message that is accepted on its own** is accepted with anything in front of it and behind
it, and read in the same way. -/
theorem networkMessageDecodeBinary_framed (front behind : Bytes) {s t s' : DecodeCall}
    (h : networkMessageDecodeBinary src T s = .done () t)
    (hs : s'.offset = front.length + s.offset) :
    networkMessageDecodeBinary (front ++ src ++ behind) T s' =
      .done () ⟨⟨front.length + t.offset, t.dst⟩, s'.cleared⟩ := by
  have hsrc : Sits front.length src (front ++ src ++ behind) := ⟨front, behind, rfl, rfl⟩
  have hlen := hsrc.length
  have hframed : FramedAt front.length _ _ := (framing T hsrc).internal
    (securityFooterLoop_framed hsrc (by omega) 0)
  have hrun := hframed _ _ _ (networkMessageDecodeBinary_done h s'.dst).1
  have hstart : Decoding.shift front.length ⟨s.offset, s'.dst⟩ = s'.toDecoding := by
    show (⟨front.length + s.offset, s'.dst⟩ : Decoding NetworkMessage) = s'.toDecoding
    rw [← hs]
  rw [hstart] at hrun
  simp only [networkMessageDecodeBinary, hrun]
  rfl

/-- A keep-alive message of three bytes, with a byte in front of it and two behind it. -/
theorem keepAlive_framed : ∃ t : DecodeCall,
    decodeAt [0x01, 0x81, 0x03] builtinTypes 0 = .done () t ∧
      decodeAt [0xFF, 0x01, 0x81, 0x03, 0x2A, 0x00] builtinTypes 1 =
        .done () ⟨⟨1 + t.offset, t.dst⟩, []⟩ := by
  have h : decodeAt [0x01, 0x81, 0x03] builtinTypes 0 = .done () _ := rfl
  have hs : (⟨⟨1, default⟩, []⟩ : DecodeCall).offset = ([0xFF] : Bytes).length + 0 := rfl
  exact ⟨_, h, networkMessageDecodeBinary_framed [0xFF] [0x2A, 0x00] h hs⟩

end OpenPubSub
