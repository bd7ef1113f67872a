import OpenPubSub.NetworkMessage.DecodeBounds

/-!
# The decoder on two datagrams

`UA_NetworkMessage_decodeBinaryInternal` on `src` and on `src'`, compared section by section.

Between the calls of the value decoders the decoder looks at what is filled so far and at the
offset, and not at the bytes. A `Comparison` is a relation between value decoders and one between
decoders that fill a structure, together with a rule for each way in which the sections are put
together. `p` and `p'` are the positions from which offsets are counted.

- **`Comparison.internal`**: the whole decoder. It runs through the sections once for
  all comparisons.
- The loop over the security footer has the fuel of its own datagram. There is a step lemma for
  it, and the whole loop is left to the comparison.
-/

namespace OpenPubSub

open Routine

/-- A relation between the decoders on `src` and those on `src'`. -/
structure Comparison (src src' : Bytes) (T : DataTypes) (p p' : Nat) where
  values : ∀ {α : Type}, Dec α → Dec α → Prop
  sections : ∀ {M α : Type}, Decoder M α → Decoder M α → Prop
  byte : values (byteDecodeBinary src) (byteDecodeBinary src')
  uint16 : values (uint16DecodeBinary src) (uint16DecodeBinary src')
  uint32 : values (uint32DecodeBinary src) (uint32DecodeBinary src')
  uint64 : values (uint64DecodeBinary src) (uint64DecodeBinary src')
  guid : values (guidDecodeBinary src) (guidDecodeBinary src')
  string : values (stringDecodeBinary src T) (stringDecodeBinary src' T)
  variant : values
    (variantDecodeBinary src T.withoutCustomTypes
      (decodeBinaryJumpTable src T.withoutCustomTypes (decodeFuel src)))
    (variantDecodeBinary src' T.withoutCustomTypes
      (decodeBinaryJumpTable src' T.withoutCustomTypes (decodeFuel src')))
  dataValue : values
    (dataValueDecodeBinary src T.withoutCustomTypes
      (decodeBinaryJumpTable src T.withoutCustomTypes (decodeFuel src)))
    (dataValueDecodeBinary src' T.withoutCustomTypes
      (decodeBinaryJumpTable src' T.withoutCustomTypes (decodeFuel src')))
  /-- Something that leaves the offset alone, and looks only at the structure. -/
  still : ∀ {M α : Type} {x : Decoder M α} (result : M → α) (change : M → M),
    (∀ s, x s = .done (result s.dst) ⟨s.offset, change s.dst⟩) → sections x x
  stop : ∀ {M α : Type} {x x' : Decoder M α}, (∀ s a t, x s ≠ .done a t) →
    (∀ s a t, x' s ≠ .done a t) → sections x x'
  bind : ∀ {M α β : Type} {x x' : Decoder M α} {f f' : α → Decoder M β}, sections x x' →
    (∀ a, sections (f a) (f' a)) → sections (x >>= f) (x' >>= f')
  /-- The offsets differ, but are equally far from `p` and `p'`. -/
  offset : ∀ {M β : Type} {f f' : Nat → Decoder M β},
    (∀ i, sections (f (p + i)) (f' (p' + i))) →
      sections (gets Decoding.offset >>= f) (gets Decoding.offset >>= f')
  part : ∀ {M N : Type} {get : M → N} {put : N → M → M} {x x' : Decoder N Unit},
    sections x x' → sections (decodePart get put x) (decodePart get put x')
  read : ∀ {M α : Type} {x x' : Dec α}, values x x' →
    sections (decodeLocal (uaDecodeBinary x) : Decoder M α) (decodeLocal (uaDecodeBinary x'))
  into : ∀ {M α : Type} [Inhabited α] {put : α → M → M} {x x' : Dec α}, values x x' →
    sections (decodeInto (uaDecodeBinary x) put) (decodeInto (uaDecodeBinary x') put)

namespace Comparison

variable {src src' : Bytes} {T : DataTypes} {p p' : Nat} (C : Comparison src src' T p p')
  {M α β : Type}

/-! ## Derived rules -/

/-- What reads nothing is the same on both datagrams. -/
theorem pure {a : α} : C.sections (Pure.pure a : Decoder M α) (Pure.pure a) :=
  C.still (fun _ => a) id fun _ => rfl

/-- A change of the structure alone. -/
theorem assign {f : M → M} : C.sections (assign f) (assign f) :=
  C.still (fun _ => ()) f fun _ => rfl

/-- An error on both sides. -/
theorem fail {e : ErrorCode} : C.sections (fail e : Decoder M α) (fail e) :=
  C.stop (fun _ _ _ h => (nomatch h)) fun _ _ _ h => (nomatch h)

theorem fault : C.sections (fault : Decoder M α) fault :=
  C.stop (fun _ _ _ h => (nomatch h)) fun _ _ _ h => (nomatch h)

/-- What is filled so far is the same on both sides, and so is what depends on it. -/
theorem current {f f' : M → Decoder M β} (hf : ∀ m, C.sections (f m) (f' m)) :
    C.sections (current >>= f) (current >>= f') :=
  C.bind (C.still id id fun _ => rfl) hf

/-- A branch on something that both sides agree about. -/
theorem ite {c c' : Prop} [Decidable c] [Decidable c'] {x x' y y' : Decoder M α} (hc : c ↔ c')
    (hx : C.sections x x') (hy : C.sections y y') :
    C.sections (if c then x else y) (if c' then x' else y') := by
  by_cases h : c
  · rw [if_pos h, if_pos (hc.mp h)]
    exact hx
  · rw [if_neg h, if_neg fun h' => h (hc.mpr h')]
    exact hy

/-- A section that is there if a bit of a flag byte is set. -/
theorem onBit {v mask : UInt8} {x x' : Decoder M Unit} (hx : C.sections x x') :
    C.sections (onBit v mask x) (onBit v mask x') :=
  C.ite Iff.rfl hx C.pure

/-- A section that is there if the structure says so. -/
theorem onFlag {flag : M → Bool} {x x' : Decoder M Unit} (hx : C.sections x x') :
    C.sections (onFlag flag x) (onFlag flag x') :=
  C.current fun _ => C.ite Iff.rfl hx C.pure

/-- A counted loop, by induction on the number of rounds that are left. -/
theorem loopFrom {body body' : Nat → Decoder M Unit} (h : ∀ i, C.sections (body i) (body' i)) :
    ∀ k i, C.sections (loopFrom body i k) (loopFrom body' i k)
  | 0, _ => C.pure
  | k + 1, i => C.bind (h i) fun _ => loopFrom h k (i + 1)

/-- As many turns on both sides. -/
theorem forUpTo {k : Nat} {body body' : Nat → Decoder M Unit}
    (h : ∀ i, C.sections (body i) (body' i)) : C.sections (forUpTo k body) (forUpTo k body') :=
  C.loopFrom h k 0

/-! ## DataSetMessages -/

/-- Two flag bytes, and the members they announce. -/
theorem dataSetMessageHeader :
    C.sections (dataSetMessageHeaderDecodeBinary src) (dataSetMessageHeaderDecodeBinary src') :=
  C.bind C.assign fun _ =>
    C.bind (C.bind (C.read C.byte) fun _ => C.bind C.assign fun _ =>
      C.onBit (C.bind (C.read C.byte) fun _ => C.assign)) fun _ =>
    C.bind (C.onFlag (C.into C.uint16)) fun _ =>
    C.bind (C.onFlag (C.into C.uint64)) fun _ =>
    C.bind (C.onFlag (C.into C.uint16)) fun _ =>
    C.bind (C.onFlag (C.into C.uint16)) fun _ =>
    C.bind (C.onFlag (C.into C.uint32)) fun _ => C.onFlag (C.into C.uint32)

/-- The count was read before; the elements are read one by one. -/
theorem keyFrameFields {field field' : Nat → Decoder DataSetMessage Unit}
    (h : ∀ i, C.sections (field i) (field' i)) :
    C.sections (keyFrameFieldsDecodeBinary field) (keyFrameFieldsDecodeBinary field') :=
  C.current fun _ => C.bind C.assign fun _ => C.forUpTo h

theorem deltaFrameFields {field field' : Nat → Decoder DataSetMessage Unit}
    (h : ∀ i, C.sections (field i) (field' i)) :
    C.sections (deltaFrameFieldsDecodeBinary field) (deltaFrameFieldsDecodeBinary field') :=
  C.current fun _ => C.bind C.assign fun _ => C.forUpTo h

/-- A field of a key frame is its value. -/
theorem keyFrameVariant (i : Nat) :
    C.sections (keyFrameVariantDecodeBinary src T i) (keyFrameVariantDecodeBinary src' T i) :=
  C.bind C.assign fun _ => C.bind (C.into C.variant) fun _ => C.assign

/-- A field of a delta frame is an index and a value. -/
theorem deltaFrameVariant (i : Nat) :
    C.sections (deltaFrameVariantDecodeBinary src T i)
      (deltaFrameVariantDecodeBinary src' T i) :=
  C.bind (C.into C.uint16) fun _ => C.bind C.assign fun _ =>
    C.bind (C.into C.variant) fun _ => C.assign

/-- A key frame. Where the fields are not decoded, neither side succeeds. -/
theorem keyFrameData :
    C.sections (keyFrameDataDecodeBinary src T) (keyFrameDataDecodeBinary src' T) := by
  refine C.current fun d => C.ite Iff.rfl (C.bind (C.into C.uint16) fun _ => ?_) C.pure
  cases d.header.fieldEncoding with
  | variant => exact C.keyFrameFields C.keyFrameVariant
  | rawData => exact C.fail
  | dataValue => exact C.keyFrameFields fun _ => C.into C.dataValue
  | reserved => exact C.pure

theorem deltaFrameData :
    C.sections (deltaFrameDataDecodeBinary src T) (deltaFrameDataDecodeBinary src' T) := by
  refine C.current fun d => C.ite Iff.rfl (C.bind (C.into C.uint16) fun _ => ?_) C.pure
  cases d.header.fieldEncoding with
  | variant => exact C.deltaFrameFields C.deltaFrameVariant
  | rawData => exact C.fail
  | dataValue =>
    exact C.deltaFrameFields fun _ => C.bind (C.into C.uint16) fun _ => C.into C.dataValue
  | reserved => exact C.pure

/-- A DataSetMessage, by the type in its header. -/
theorem dataSetMessage :
    C.sections (dataSetMessageDecodeBinary src T) (dataSetMessageDecodeBinary src' T) := by
  refine C.bind C.assign fun _ => C.bind (C.part C.dataSetMessageHeader) fun _ =>
    C.current fun d => ?_
  cases d.header.dataSetMessageType with
  | dataKeyFrame => exact C.keyFrameData
  | dataDeltaFrame => exact C.deltaFrameData
  | keepAlive => exact C.pure
  | event => exact C.fail
  | reserved v => exact C.fail

/-! ## Header sections -/

/-- Up to three flag bytes. -/
theorem flags : C.sections (flagsDecodeBinary src) (flagsDecodeBinary src') :=
  C.bind (C.read C.byte) fun _ => C.bind C.assign fun _ =>
    C.onBit (C.bind (C.read C.byte) fun _ => C.bind C.assign fun _ =>
      C.onBit (C.bind (C.read C.byte) fun _ => C.assign))

/-- By the type that the flags announce. -/
theorem publisherId :
    C.sections (publisherIdDecodeBinary src T) (publisherIdDecodeBinary src' T) := by
  refine C.current fun m => ?_
  cases m.publisherId with
  | byte v => exact C.into C.byte
  | uint16 v => exact C.into C.uint16
  | uint32 v => exact C.into C.uint32
  | uint64 v => exact C.into C.uint64
  | string s => exact C.into C.string
  | reserved v => exact C.fail

theorem groupHeader : C.sections (groupHeaderDecodeBinary src) (groupHeaderDecodeBinary src') :=
  C.bind (C.read C.byte) fun _ => C.bind C.assign fun _ =>
    C.bind (C.onFlag (C.into C.uint16)) fun _ =>
    C.bind (C.onFlag (C.into C.uint32)) fun _ =>
    C.bind (C.onFlag (C.into C.uint16)) fun _ => C.onFlag (C.into C.uint16)

/-- An array whose length was read before. -/
theorem uint16Array {count : Nat} {get : M → Option (List UInt16)}
    {put : Option (List UInt16) → M → M} :
    C.sections (uint16ArrayDecodeBinary src count get put)
      (uint16ArrayDecodeBinary src' count get put) :=
  C.bind C.assign fun _ => C.forUpTo fun _ => C.into C.uint16

theorem payloadHeader :
    C.sections (payloadHeaderDecodeBinary src) (payloadHeaderDecodeBinary src') :=
  C.current fun _ => C.ite Iff.rfl C.fail <|
    C.bind (C.into C.byte) fun _ => C.current fun _ => C.uint16Array

/-- One turn of the loop: a new slot, and a Variant in it. -/
theorem promotedField (counter : Nat) :
    C.sections (promotedFieldDecodeBinary src T counter)
      (promotedFieldDecodeBinary src' T counter) :=
  C.bind C.assign fun _ => C.bind C.assign fun _ => C.into C.variant

/-- The blocks end equally far from `p` and `p'`, and both loops have the fuel of the declared
size. -/
theorem promotedFieldsLoop (length : Nat) :
    ∀ fuel counter, C.sections (promotedFieldsLoop src T (p + length) fuel counter)
      (promotedFieldsLoop src' T (p' + length) fuel counter)
  | 0, _ => C.fault
  | fuel + 1, counter =>
    C.bind (C.promotedField counter) fun _ => C.offset fun i =>
      C.ite (by rw [Nat.add_lt_add_iff_left, Nat.add_lt_add_iff_left])
        (promotedFieldsLoop length fuel (counter + 1)) C.pure

/-- The end of the loop is the offset behind the declared size, which is equally far on both sides.
-/
theorem promotedFields :
    C.sections (promotedFieldsDecodeBinary src T) (promotedFieldsDecodeBinary src' T) := by
  refine C.bind (C.read C.uint16) fun size => C.ite Iff.rfl (C.offset fun i => ?_) C.pure
  rw [Nat.add_assoc, Nat.add_assoc]
  exact C.promotedFieldsLoop (i + size.toNat) _ _

theorem securityHeader :
    C.sections (securityHeaderDecodeBinary src) (securityHeaderDecodeBinary src') :=
  C.bind (C.read C.byte) fun _ => C.bind C.assign fun _ =>
    C.bind (C.into C.uint32) fun _ => C.bind (C.into C.byte) fun _ =>
    C.bind (C.onFlag (C.current fun _ => C.bind C.assign fun _ =>
      C.forUpTo fun _ => C.into C.byte)) fun _ => C.onFlag (C.into C.uint16)

/-- **The sections in front of the payload.** -/
theorem headers : C.sections (headersDecodeBinary src T) (headersDecodeBinary src' T) :=
  C.bind C.assign fun _ =>
    C.bind C.flags fun _ =>
    C.bind (C.onFlag C.publisherId) fun _ =>
    C.bind (C.onFlag (C.into C.guid)) fun _ =>
    C.bind (C.onFlag (C.part C.groupHeader)) fun _ =>
    C.bind (C.onFlag C.payloadHeader) fun _ =>
    C.bind (C.onFlag (C.into C.uint64)) fun _ =>
    C.bind (C.onFlag (C.into C.uint16)) fun _ =>
    C.bind (C.onFlag C.promotedFields) fun _ => C.onFlag (C.part C.securityHeader)

/-! ## Payload -/

theorem sizes : C.sections (sizesDecodeBinary src) (sizesDecodeBinary src') :=
  C.current fun _ => C.ite Iff.rfl C.uint16Array C.pure

/-- The DataSetMessages, as many as the payload header counts. -/
theorem dataSetMessages :
    C.sections (dataSetMessagesDecodeBinary src T) (dataSetMessagesDecodeBinary src' T) :=
  C.current fun _ => C.bind C.assign fun _ => C.forUpTo fun _ => C.part C.dataSetMessage

/-- One byte of the footer, and then the rest of it. -/
theorem securityFooterLoop_succ {fuel fuel' : Nat} {i : UInt8}
    (h : C.sections (securityFooterLoop src fuel (i + 1))
      (securityFooterLoop src' fuel' (i + 1))) :
    C.sections (securityFooterLoop src (fuel + 1) i)
      (securityFooterLoop src' (fuel' + 1) i) :=
  C.current fun _ => C.ite Iff.rfl (C.bind (C.into C.byte) fun _ => h) C.pure

/-- **The whole decoder**, given the loop over the security footer. -/
theorem internal
    (hfooter : C.sections (securityFooterLoop src (src.length + 1) 0)
      (securityFooterLoop src' (src'.length + 1) 0)) :
    C.sections (networkMessageDecodeBinaryInternal src T)
      (networkMessageDecodeBinaryInternal src' T) :=
  have htrailer : C.sections (securityTrailerDecodeBinary src T)
      (securityTrailerDecodeBinary src' T) :=
    C.bind (C.current fun _ => C.ite Iff.rfl (C.bind C.assign fun _ => hfooter) C.pure)
      fun _ => C.onFlag (C.into C.string)
  C.bind C.headers fun _ => C.current fun _ => C.ite Iff.rfl C.fail <|
    C.bind C.sizes fun _ => C.bind C.dataSetMessages fun _ => C.onFlag htrailer

end Comparison

/-- What was in the structure before is overwritten. -/
theorem networkMessageDecodeBinary_done {src : Bytes} {T : DataTypes} {s t : DecodeCall}
    (h : networkMessageDecodeBinary src T s = .done () t) (m : NetworkMessage) :
    networkMessageDecodeBinaryInternal src T ⟨s.offset, m⟩ = .done () t.toDecoding ∧
      t.cleared = s.cleared := by
  unfold networkMessageDecodeBinary at h
  have hfresh : networkMessageDecodeBinaryInternal src T ⟨s.offset, m⟩ =
      networkMessageDecodeBinaryInternal src T s.toDecoding := rfl
  rw [hfresh]
  cases hrun : networkMessageDecodeBinaryInternal src T s.toDecoding with
  | done _ u =>
    rw [hrun] at h
    cases h
    exact ⟨rfl, rfl⟩
  | fail e u => simp [hrun] at h
  | fault => simp [hrun] at h

end OpenPubSub
