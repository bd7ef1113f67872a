import OpenPubSub.NetworkMessage.PromotedFields
import OpenPubSub.NetworkMessage.Refit

/-!
# Decoding normalises once

The decoder tolerates more than the encoder writes: flag bytes that say nothing, reserved bits,
long forms of a NodeId, lengths below -1, promoted fields that end behind their declared size.
What it makes of them is a message the encoder can express.

- One lemma for each section: what the decoder puts into the message, and that it is no longer
  than what it was read from.
- `HeadersRefit` collects them for the headers, `NetworkMessage.Refits` for the message.
- **`networkMessageDecodeBinary_normalises`**: a message that was decoded can be encoded, in no
  more bytes, and is decoded to itself.
-/

namespace OpenPubSub

open Routine Writer

variable {src : Bytes} {T : DataTypes}

/-! ## The flags -/

/-- A zeroed publisher id is known by its type. -/
theorem zeroOfType_typeByte (v : UInt8) :
    PublisherId.zeroOfType (PublisherId.zeroOfType v).typeByte = PublisherId.zeroOfType v := by
  generalize hid : PublisherId.zeroOfType v = id
  unfold PublisherId.zeroOfType at hid
  split at hid
  case h_6 n _ =>
    subst hid
    generalize Fin.ofNat 3 n = k
    revert k
    decide
  all_goals
    subst hid
    rfl

/-- The flag bytes that are written, counted. -/
theorem flagsPieces_length (m : NetworkMessage) :
    (pieceBytes (flagsPieces m)).length = 1 + (if m.extendedFlags1Enabled then
      1 + (if m.extendedFlags2Enabled then 1 else 0) else 0) := by
  simp only [flagsPieces, pieceBytes_append, pieceBytes_ite, pieceBytes_cons, pieceBytes_nil,
    List.append_nil, List.length_append, List.length_singleton, apply_ite List.length,
    List.length_nil]

/-- Flag bytes that are not there leave zeros. -/
theorem flagsDecodeBinary_puts (p : Nat) :
    Puts (fun m _ => m.readUpTo 0)
      (fun (m : NetworkMessage) n => m.version ≤ 15 ∧
        (m.messageIdEnabled = false ∧ m.messageId = none) ∧
        (pieceBytes (flagsPieces (m.readUpTo 0))).length ≤ n)
      (flagsDecodeBinary src) ⟨p, default⟩ := by
  intro t ht
  obtain ⟨v, _, hv, ht⟩ := bind_eq_done.mp ht
  obtain ⟨n, rfl, hn⟩ := takes_uaByte.ofLocal hv
  obtain ⟨_, _, hassign, ht⟩ := bind_eq_done.mp ht
  cases hassign
  have hversion : v &&& nmVersionMask ≤ 15 := by
    rw [UInt8.le_iff_toNat_le, UInt8.toNat_and]
    exact Nat.and_le_right
  unfold onBit at ht
  split at ht
  -- one flag byte
  case isFalse =>
    have hdst := (Outcome.done.inj ht).2
    refine ⟨t.dst, n, ?_, ?_, ?_, ?_⟩
    · rw [← hdst]
      rfl
    · rw [← hdst]
      exact hversion
    · rw [← hdst]
      exact ⟨rfl, rfl⟩
    · rw [flagsPieces_length, ← hdst]
      exact hn
  case isTrue =>
    obtain ⟨v', _, hv', ht⟩ := bind_eq_done.mp ht
    obtain ⟨n', rfl, hn'⟩ := takes_uaByte.ofLocal hv'
    obtain ⟨_, _, hassign, ht⟩ := bind_eq_done.mp ht
    cases hassign
    unfold onBit at ht
    split at ht
    -- two flag bytes
    case isFalse =>
      have hdst := (Outcome.done.inj ht).2
      refine ⟨t.dst, n + n', ?_, ?_, ?_, ?_⟩
      · rw [← hdst, ← Nat.add_assoc]
        simp only [NetworkMessage.readUpTo, zeroOfType_typeByte]
        rfl
      · rw [← hdst]
        exact hversion
      · rw [← hdst]
        exact ⟨rfl, rfl⟩
      · have hnone : (t.dst.readUpTo 0).extendedFlags2Enabled = false := by
          rw [← hdst]
          rfl
        rw [flagsPieces_length, hnone, if_neg Bool.false_ne_true]
        split <;> omega
    -- all three of them
    case isTrue =>
      obtain ⟨v'', _, hv'', hassign⟩ := bind_eq_done.mp ht
      obtain ⟨n'', rfl, hn''⟩ := takes_uaByte.ofLocal hv''
      have hdst := (Outcome.done.inj hassign).2
      refine ⟨t.dst, n + n' + n'', ?_, ?_, ?_, ?_⟩
      · rw [← hdst, ← Nat.add_assoc, ← Nat.add_assoc]
        simp only [NetworkMessage.readUpTo, zeroOfType_typeByte]
        rfl
      · rw [← hdst]
        exact hversion
      · rw [← hdst]
        exact ⟨rfl, rfl⟩
      · rw [flagsPieces_length]
        split
        · split <;> omega
        · omega

/-! ## The sections in front of the payload header -/

/-- A string, with the bytes it took. -/
theorem takes_uaString (hT : StandardTypes T) :
    Takes (fun s n => stringFits s = true ∧ (stringBytes s).length ≤ n)
      (uaStringDecodeBinary src T) := (stringDecodeBinary_refits hT).takes

theorem takes_uaGuid : Takes (fun _ n => 16 ≤ n) (uaGuidDecodeBinary src) :=
  takes_of_moved guidDecodeBinary_moved

/-- A publisher id of the type the flags announced. -/
structure PublisherIdRefits (type : UInt8) (id : PublisherId) (n : Nat) : Prop where
  typeByte : id.typeByte = type
  fits : id.fits = true
  length : (publisherIdBytes id).length ≤ n

/-- The publisher id, with the bytes it took. -/
theorem publisherIdDecodeBinary_puts (hT : StandardTypes T) (s : Decoding NetworkMessage) :
    Puts (fun id m => { m with publisherId := id })
      (PublisherIdRefits s.dst.publisherId.typeByte) (publisherIdDecodeBinary src T) s := by
  intro t ht
  obtain ⟨_, _, hcurrent, ht⟩ := bind_eq_done.mp ht
  cases hcurrent
  -- the flags have put a zero of the announced type there
  cases hid : s.dst.publisherId with
  | byte v =>
    rw [hid] at ht
    obtain ⟨w, n, rfl, hn⟩ := takes_uaByte.puts _ _ ht
    exact ⟨.byte w, n, rfl, rfl, rfl, hn⟩
  | uint16 v =>
    rw [hid] at ht
    obtain ⟨w, n, rfl, hn⟩ := takes_uaUInt16.puts _ _ ht
    exact ⟨.uint16 w, n, rfl, rfl, rfl, Nat.le_trans (Nat.le_of_eq (leBytes_length 2 _)) hn⟩
  | uint32 v =>
    rw [hid] at ht
    obtain ⟨w, n, rfl, hn⟩ := takes_uaUInt32.puts _ _ ht
    exact ⟨.uint32 w, n, rfl, rfl, rfl, Nat.le_trans (Nat.le_of_eq (leBytes_length 4 _)) hn⟩
  | uint64 v =>
    rw [hid] at ht
    obtain ⟨w, n, rfl, hn⟩ := takes_uaUInt64.puts _ _ ht
    exact ⟨.uint64 w, n, rfl, rfl, rfl, Nat.le_trans (Nat.le_of_eq (leBytes_length 8 _)) hn⟩
  | string v =>
    rw [hid] at ht
    obtain ⟨w, n, rfl, hfits, hn⟩ := (takes_uaString hT).puts _ _ ht
    exact ⟨.string w, n, rfl, rfl, hfits, hn⟩
  | reserved v =>
    rw [hid] at ht
    cases ht

/-- The group header, with the bytes it took. -/
theorem groupHeaderDecodeBinary_puts (p : Nat) :
    Puts (fun g _ => g) (fun g n => g.IsZeroed ∧ (pieceBytes (groupHeaderPieces g)).length ≤ n)
      (groupHeaderDecodeBinary src) ⟨p, default⟩ := by
  intro t ht
  obtain ⟨v, _, hv, ht⟩ := bind_eq_done.mp ht
  obtain ⟨n, rfl, hn⟩ := takes_uaByte.ofLocal hv
  obtain ⟨_, _, hassign, ht⟩ := bind_eq_done.mp ht
  cases hassign
  -- section by section, each behind its flag
  obtain ⟨_, _, hsection, ht⟩ := bind_eq_done.mp ht
  obtain ⟨writerGroupId, n₁, rfl, h₁⟩ := Puts.onFlag (fun _ => takes_uaUInt16.puts _) rfl _ hsection
  obtain ⟨_, _, hsection, ht⟩ := bind_eq_done.mp ht
  obtain ⟨groupVersion, n₂, rfl, h₂⟩ := Puts.onFlag (fun _ => takes_uaUInt32.puts _) rfl _ hsection
  obtain ⟨_, _, hsection, ht⟩ := bind_eq_done.mp ht
  obtain ⟨number, n₃, rfl, h₃⟩ := Puts.onFlag (fun _ => takes_uaUInt16.puts _) rfl _ hsection
  obtain ⟨sequenceNumber, n₄, rfl, h₄⟩ := Puts.onFlag (fun _ => takes_uaUInt16.puts _) rfl _ ht
  have hoffset : p + n + n₁ + n₂ + n₃ + n₄ = p + (n + n₁ + n₂ + n₃ + n₄) := by omega
  refine ⟨_, _, congrArg (Decoding.mk · _) hoffset, ?_, ?_⟩
  · exact ⟨fun hc => (h₁.absent hc).1, fun hc => (h₂.absent hc).1, fun hc => (h₃.absent hc).1,
      fun hc => (h₄.absent hc).1⟩
  · have hlen := Nat.add_le_add (Nat.add_le_add (Nat.add_le_add (Nat.add_le_add hn h₁.le) h₂.le)
      h₃.le) h₄.le
    refine Nat.le_trans (Nat.le_of_eq ?_) hlen
    simp only [groupHeaderPieces, pieceBytes_append, pieceBytes_ite, pieceBytes_cons,
      pieceBytes_nil, List.append_nil, List.length_append, apply_ite List.length,
      List.length_singleton, List.length_nil, leBytes_length, Nat.add_assoc]

/-! ## Arrays in front of the payload -/

/-- A counter, and as many words. -/
structure PayloadHeaderRefits (h : DataSetPayloadHeader) (n : Nat) : Prop where
  present : h.dataSetWriterIds.isSome = true
  length : ∀ ids, h.dataSetWriterIds = some ids → ids.length = h.count.toNat
  size : 1 + 2 * h.count.toNat ≤ n

/-- The payload header, with the bytes it took. -/
theorem payloadHeaderDecodeBinary_puts (s : Decoding NetworkMessage) :
    Puts (fun h m => { m with payloadHeader := h }) PayloadHeaderRefits
      (payloadHeaderDecodeBinary src) s := by
  intro t ht
  obtain ⟨_, _, hcurrent, ht⟩ := bind_eq_done.mp ht
  cases hcurrent
  by_cases htype : s.dst.networkMessageType ≠ .dataSet
  · rw [if_pos htype] at ht
    cases ht
  · rw [if_neg htype] at ht
    obtain ⟨_, _, hcount, ht⟩ := bind_eq_done.mp ht
    obtain ⟨count, n, rfl, hn⟩ := takes_uaByte.puts _ _ hcount
    obtain ⟨_, _, hcurrent, ht⟩ := bind_eq_done.mp ht
    cases hcurrent
    obtain ⟨ids, -, hlen, rfl⟩ :=
      uint16ArrayDecodeBinary_eq_done ht (fun _ _ => rfl) fun _ _ _ => rfl
    refine ⟨⟨count, some ids⟩, n + 2 * count.toNat, ?_, rfl, ?_, Nat.add_le_add_right hn _⟩
    · rw [← Nat.add_assoc]
    · rintro _ ⟨rfl⟩
      exact hlen

/-- The bytes of the nonce. -/
structure NonceRefits (nonceLength : UInt8) (nonce : UAString) (n : Nat) : Prop where
  length : (nonce.getD []).length = nonceLength.toNat
  null : nullIfEmpty nonce = nonce
  size : nonceLength.toNat ≤ n

theorem nullIfEmpty_some {β : Type} {xs : List β} (h : 0 < xs.length) :
    nullIfEmpty (some xs) = some xs :=
  nullIfEmpty_of_ne_nil (List.ne_nil_of_length_pos h)

/-- The nonce, with the bytes it took. -/
theorem messageNonceDecodeBinary_puts (s : Decoding NetworkMessageSecurityHeader)
    (hpos : s.dst.nonceLength > 0) :
    Puts (fun nonce h => { h with messageNonce := nonce }) (NonceRefits s.dst.nonceLength)
      (messageNonceDecodeBinary src) s := by
  have hitem : Consecutive.Collects (uaByteDecodeBinary src)
      (fun p bs => (⟨p, { s.dst with messageNonce := some bs }⟩ :
        Decoding NetworkMessageSecurityHeader)) 0 fun i =>
        decodeInto (uaByteDecodeBinary src) fun v h =>
          { h with messageNonce := h.messageNonce.map (·.set i v) } := by
    intro i bs q u _ h
    obtain ⟨v, n, hv, rfl, -⟩ := takes_uaByte.read h
    exact ⟨v, n, hv, rfl⟩
  intro t ht
  obtain ⟨_, _, hcurrent, ht⟩ := bind_eq_done.mp ht
  cases hcurrent
  obtain ⟨_, _, hassign, ht⟩ := bind_eq_done.mp ht
  cases hassign
  obtain ⟨bs, ns, hbs, hlen, rfl⟩ := Consecutive.of_forUpTo hitem (p := s.offset) ht
  have hsum : (bs.map fun _ => 1).sum ≤ ns.sum := takes_uaByte.sum_le hbs fun _ _ _ h => h
  rw [List.map_const', List.sum_replicate_nat, Nat.mul_one, hlen] at hsum
  refine ⟨some bs, ns.sum, rfl, hlen, nullIfEmpty_some ?_, hsum⟩
  rw [hlen]
  exact UInt8.lt_iff_toNat_lt.mp hpos

/-- A security header with a nonce of the announced length. -/
structure SecurityHeaderRefits (h : NetworkMessageSecurityHeader) (n : Nat) : Prop where
  nonce : (h.messageNonce.getD []).length = h.nonceLength.toNat
  null : nullIfEmpty h.messageNonce = h.messageNonce
  footerSize : h.securityFooterEnabled = false → h.securityFooterSize = 0
  length : (pieceBytes (securityHeaderPieces h)).length ≤ n

/-- The security header, with the bytes it took. -/
theorem securityHeaderDecodeBinary_puts (p : Nat) :
    Puts (fun h _ => h) SecurityHeaderRefits (securityHeaderDecodeBinary src) ⟨p, default⟩ := by
  intro t ht
  obtain ⟨v, _, hv, ht⟩ := bind_eq_done.mp ht
  obtain ⟨n, rfl, hn⟩ := takes_uaByte.ofLocal hv
  obtain ⟨_, _, hassign, ht⟩ := bind_eq_done.mp ht
  cases hassign
  obtain ⟨_, _, hsection, ht⟩ := bind_eq_done.mp ht
  obtain ⟨tokenId, n₁, rfl, h₁⟩ := takes_uaUInt32.puts _ _ hsection
  obtain ⟨_, _, hsection, ht⟩ := bind_eq_done.mp ht
  obtain ⟨nonceLength, n₂, rfl, h₂⟩ := takes_uaByte.puts _ _ hsection
  obtain ⟨_, _, hsection, ht⟩ := bind_eq_done.mp ht
  obtain ⟨nonce, n₃, rfl, h₃⟩ := Puts.onFlag
    (fun hpos => messageNonceDecodeBinary_puts _ (of_decide_eq_true hpos)) rfl _ hsection
  obtain ⟨footerSize, n₄, rfl, h₄⟩ := Puts.onFlag (fun _ => takes_uaUInt16.puts _) rfl _ ht
  have hnonce : NonceRefits nonceLength nonce n₃ := by
    by_cases hpos : nonceLength > 0
    · exact h₃.present (decide_eq_true hpos)
    · -- the length 0, and no nonce
      obtain ⟨rfl, rfl⟩ := h₃.absent (decide_eq_false hpos)
      have hzero : nonceLength.toNat = 0 := by
        have hle : ¬ 0 < nonceLength.toNat := fun h => hpos (UInt8.lt_iff_toNat_lt.mpr h)
        omega
      exact ⟨hzero.symm, rfl, Nat.le_of_eq hzero⟩
  have hoffset : p + n + n₁ + n₂ + n₃ + n₄ = p + (n + n₁ + n₂ + n₃ + n₄) := by omega
  refine ⟨_, _, congrArg (Decoding.mk · _) hoffset, hnonce.length, hnonce.null,
    fun hc => (h₄.absent hc).1, ?_⟩
  have hbytes : (if decide (nonceLength > 0) then (nonce.getD []).length else 0) ≤ n₃ := by
    split
    · rw [hnonce.length]
      exact hnonce.size
    · exact Nat.zero_le _
  have hlen :=
    Nat.add_le_add (Nat.add_le_add (Nat.add_le_add (Nat.add_le_add hn h₁) h₂) hbytes) h₄.le
  refine Nat.le_trans (Nat.le_of_eq ?_) hlen
  simp only [securityHeaderPieces, pieceBytes_append, pieceBytes_ite, pieceBytes_cons,
    pieceBytes_nil, List.append_nil, List.length_append, apply_ite List.length,
    List.length_singleton, List.length_nil, leBytes_length, Nat.add_assoc]

/-! ## Promoted fields -/

/-- The message with these promoted fields. -/
def NetworkMessage.withPromoted (m : NetworkMessage)
    (fields : Option (List (Slot Variant)) × UInt16) : NetworkMessage :=
  { m with promotedFields := fields.1, promotedFieldsSize := fields.2 }

/-- Only the promoted fields have changed, and there is no array of length zero. -/
def ChangesPromoted (m₀ m : NetworkMessage) : Prop :=
  ∃ fields, m = m₀.withPromoted fields ∧ ∀ xs, fields.1 = some xs → 0 < xs.length

theorem promotedFieldDecodeBinary_changes (m₀ : NetworkMessage) (counter : Nat) :
    Ends (ChangesPromoted m₀) (promotedFieldDecodeBinary src T counter) (ChangesPromoted m₀)
      fun _ => True := by
  have hmodify : ∀ (f : Slot Variant → Slot Variant) m, ChangesPromoted m₀ m →
      ChangesPromoted m₀ (m.onPromotedField counter f) := by
    rintro f _ ⟨fields, rfl, hpos⟩
    refine ⟨⟨fields.1.map (·.modify counter f), fields.2⟩, rfl, fun xs hxs => ?_⟩
    obtain ⟨ys, hys, rfl⟩ := Option.map_eq_some_iff.mp hxs
    rw [List.length_modify]
    exact hpos ys hys
  have hgrow : ∀ m, ChangesPromoted m₀ m → ChangesPromoted m₀ (m.growPromotedFields counter) := by
    rintro _ ⟨fields, rfl, -⟩
    refine ⟨⟨some (fields.1.getD [] ++ [.uninit]), UInt16.ofNat (counter + 1)⟩, rfl, ?_⟩
    rintro _ ⟨rfl⟩
    rw [List.length_append]
    exact Nat.succ_pos _
  exact .bind (.assign hgrow) fun _ => .bind (.assign fun m h => hmodify _ m h) fun _ =>
    .decodeInto (fun v m h => hmodify _ m h) fun _ _ => trivial

/-- The promoted fields leave the other members alone. -/
theorem promotedFieldsDecodeBinary_changes {m₀ : NetworkMessage} (h : m₀.promotedFields = none) :
    Ends (fun m => m = m₀) (promotedFieldsDecodeBinary src T) (ChangesPromoted m₀)
      fun _ => True := by
  have hstart : ∀ m, m = m₀ → ChangesPromoted m₀ m := by
    intro m hm
    refine ⟨⟨m₀.promotedFields, m₀.promotedFieldsSize⟩, hm, fun xs hxs => ?_⟩
    rw [h] at hxs
    cases hxs
  have hloop : ∀ offsetEnd fuel counter, Ends (ChangesPromoted m₀)
      (promotedFieldsLoop src T offsetEnd fuel counter) (ChangesPromoted m₀) fun _ => True := by
    intro offsetEnd fuel
    induction fuel with
    | zero => exact fun _ _ _ => trivial
    | succ fuel ih =>
      intro counter
      exact .bind (promotedFieldDecodeBinary_changes m₀ counter) fun _ => .gets_bind fun _ =>
        .ite (fun _ => ih (counter + 1)) fun _ => .pure fun _ h => h
  exact .bind (.decodeLocal hstart fun _ _ => trivial) fun _ =>
    .ite (fun _ => .gets_bind fun _ => hloop _ _ _) fun _ => .pure fun _ h => h

/-- The Variants that were written, in `n` bytes with their declared size in front. -/
structure PromotedRefits (src : Bytes) (T : DataTypes)
    (fields : Option (List (Slot Variant)) × UInt16) (n : Nat) : Prop where
  null : ∀ xs, fields.1 = some xs → 0 < xs.length
  written : ∃ vs : List Variant, fields.1.getD [] = vs.map .init ∧
    ((∀ v ∈ vs, v.HoldsPlain) →
      (∀ v ∈ vs, Variant.IsPlain T v ∧ (variantPlan T v).ok = true) ∧
      2 + (vs.flatMap fun v => (variantPlan T v).bytes).length ≤ n ∧
      (vs.flatMap fun v => (variantPlan T v).bytes).length ≤ src.length)

/-- A Variant that was read ends inside the message. -/
theorem uaVariantDecodeBinary_inside (hT : StandardTypes T) {v : Variant} (hv : v.HoldsPlain)
    {p q : Nat} (h : uaVariantDecodeBinary src T p = .done v q) : q ≤ src.length := by
  have hforward : (uaVariantDecodeBinary src T p).Sat _ _ := uaDecodeBinary_moves uaVariant_moves p
  rw [h] at hforward
  have hlt : p + 1 ≤ q := hforward.1
  obtain ⟨t, ht, rfl⟩ := uaDecodeBinary_eq_done h
  obtain ⟨-, -, hmoved⟩ := variantDecodeBinary_refits hT.withoutCustomTypes ht hv
  have hinside : t.pos ≤ max p src.length := hmoved.inside trivial
  omega

/-- The promoted fields, with the bytes they took. -/
theorem promotedFieldsDecodeBinary_puts (hT : StandardTypes T) {s : Decoding NetworkMessage}
    (hfields : s.dst.promotedFields = none) :
    Puts (fun fields m => m.withPromoted fields) (PromotedRefits src T)
      (promotedFieldsDecodeBinary src T) s := by
  intro t ht
  obtain ⟨fields, hdst, hnull⟩ := (promotedFieldsDecodeBinary_changes hfields).done rfl ht
  obtain ⟨declared, vs, ns, -, hvs, -, hread, hoffset, -, -⟩ :=
    promotedFieldsDecodeBinary_eq_done hfields ht
  rw [hdst] at hvs
  refine ⟨fields, 2 + ns.sum, ?_, hnull, vs, hvs, fun hplain => ⟨fun v hv => ?_, ?_⟩⟩
  · show t = ⟨_, s.dst.withPromoted fields⟩
    rw [← Nat.add_assoc, ← hoffset, ← hdst]
  · obtain ⟨n, hn⟩ := (takes_uaVariant hT).all hread v hv
    exact (hn (hplain v hv)).1
  · have hsum : (vs.map fun v => (variantPlan T v).bytes.length).sum ≤ ns.sum :=
      (takes_uaVariant hT).sum_le hread fun v hv n hn => (hn (hplain v hv)).2
    rw [List.length_flatMap]
    refine ⟨Nat.add_le_add_left hsum 2, ?_⟩
    cases vs with
    | nil => exact Nat.zero_le _
    | cons v vs =>
      have hend := hread.end_le (List.cons_ne_nil _ _) fun v hv _ _ h =>
        uaVariantDecodeBinary_inside hT (hplain v hv) h
      omega

/-! ## The payload -/

/-- As many sizes as DataSetMessages. -/
structure SizesRefit (m : NetworkMessage) (sizes : Option (List UInt16)) (n : Nat) : Prop where
  length : ∀ xs, sizes = some xs → xs.length = m.payloadHeader.count.toNat
  size : (if m.payloadHeaderEnabled && decide (m.payloadHeader.count > 1) then
    2 * m.payloadHeader.count.toNat else 0) ≤ n

/-- The sizes, with the bytes they took. -/
theorem sizesDecodeBinary_puts {s : Decoding NetworkMessage} (hnone : s.dst.payload.sizes = none) :
    Puts (fun sizes m => { m with payload := { m.payload with sizes := sizes } })
      (SizesRefit s.dst) (sizesDecodeBinary src) s := by
  intro t ht
  obtain ⟨_, _, hcurrent, ht⟩ := bind_eq_done.mp ht
  cases hcurrent
  by_cases hc : s.dst.payloadHeaderEnabled = true ∧ s.dst.payloadHeader.count > 1
  · rw [if_pos hc] at ht
    obtain ⟨sizes, -, hlen, rfl⟩ :=
      uint16ArrayDecodeBinary_eq_done ht (fun _ _ => rfl) fun _ _ _ => rfl
    refine ⟨some sizes, _, rfl, ?_, ?_⟩
    · rintro _ ⟨rfl⟩
      exact hlen
    · split
      · exact Nat.le_refl _
      · exact Nat.zero_le _
  · rw [if_neg hc] at ht
    cases ht
    refine ⟨none, 0, ?_, fun _ h => ?_, ?_⟩
    · show s = ⟨s.offset, { s.dst with payload := { s.dst.payload with sizes := none } }⟩
      rw [← hnone]
    · cases h
    · exact Nat.le_of_eq (if_neg (by simpa using hc))

/-- As many DataSetMessages as announced. -/
structure MessagesRefit (T : DataTypes) (count : Nat) (ds : List DataSetMessage) (n : Nat) :
    Prop where
  length : ds.length = count
  refits : ∀ d ∈ ds, d.HoldsPlain → ∃ k, d.Refits T k
  size : (∀ d ∈ ds, d.HoldsPlain) →
    (ds.map fun d => (dataSetMessageBytes (leafSpec T) d).length).sum ≤ n

/-- The DataSetMessages, with the bytes they took. -/
theorem dataSetMessagesDecodeBinary_puts (hT : StandardTypes T) (s : Decoding NetworkMessage) :
    Puts (fun ds m => m.withMessages ds) (MessagesRefit T s.dst.dataSetMessageCount)
      (dataSetMessagesDecodeBinary src T) s := by
  intro t ht
  obtain ⟨ds, ns, hds, hlen, rfl⟩ :=
    Consecutive.of_forUpTo (messages_collects s.dst) (p := s.offset) ht
  refine ⟨ds, ns.sum, rfl, hlen, fun d hd hplain => ?_, fun hplain => ?_⟩
  · obtain ⟨k, hk⟩ := (takes_uaDataSetMessage hT).all hds d hd
    exact ⟨k, hk hplain⟩
  · exact (takes_uaDataSetMessage hT).sum_le hds fun d hd k hk => (hk (hplain d hd)).length

/-! ## Security footer and signature -/

/-- A loop with an 8-bit counter that ends has gone over a short footer. Induction on the
fuel, with the bytes that are left. -/
theorem securityFooterLoop_puts : ∀ (fuel : Nat) (i : UInt8) (s : Decoding NetworkMessage)
    (footer : Bytes), s.dst.securityFooter = some footer →
    Puts (fun bs m => { m with securityFooter := some bs })
      (fun bs n => bs.length = footer.length ∧ s.dst.securityHeader.securityFooterSize.toNat ≤ 255 ∧
        s.dst.securityHeader.securityFooterSize.toNat - i.toNat ≤ n)
      (securityFooterLoop src fuel i) s := by
  intro fuel
  induction fuel with
  | zero =>
    intro i s footer _ t ht
    -- the fuel is used up only by a counter that wraps around
    cases ht
  | succ fuel ih =>
    intro i s footer hfooter t ht
    obtain ⟨_, _, hcurrent, ht⟩ := bind_eq_done.mp ht
    cases hcurrent
    by_cases hlt : i.toNat < s.dst.securityHeader.securityFooterSize.toNat
    · rw [if_pos hlt] at ht
      obtain ⟨_, _, hbyte, ht⟩ := bind_eq_done.mp ht
      obtain ⟨v, n, rfl, hn⟩ := takes_uaByte.puts _ _ hbyte
      obtain ⟨bs, k, rfl, hlen, hsize, hk⟩ := ih (i + 1) _ (footer.set i.toNat v)
        (congrArg (Option.map (·.set i.toNat v)) hfooter) t ht
      refine ⟨bs, n + k, ?_, hlen.trans List.length_set, hsize, ?_⟩
      · rw [← Nat.add_assoc]
      · -- below 255 the counter does not wrap
        have hnext : (i + 1).toNat = i.toNat + 1 := by
          have hsize' : s.dst.securityHeader.securityFooterSize.toNat ≤ 255 := hsize
          rw [UInt8.toNat_add]
          show (i.toNat + 1) % 256 = _
          omega
        rw [hnext] at hk
        have hk' : s.dst.securityHeader.securityFooterSize.toNat - (i.toNat + 1) ≤ k := hk
        omega
    · rw [if_neg hlt] at ht
      cases ht
      refine ⟨footer, 0, ?_, rfl, ?_, ?_⟩
      · show s = ⟨s.offset, { s.dst with securityFooter := some footer }⟩
        rw [← hfooter]
      · have := i.toNat_lt
        omega
      · omega

/-- A footer of the announced length, which is one that the loop over it can reach the end
of. -/
structure FooterRefits (h : NetworkMessageSecurityHeader) (footer : UAString) (n : Nat) : Prop where
  length : (footer.getD []).length = h.securityFooterSize.toNat
  null : nullIfEmpty footer = footer
  short : h.securityFooterSize.toNat ≤ 255
  size : h.securityFooterSize.toNat ≤ n

/-- The footer, with the bytes it took. -/
theorem securityFooterDecodeBinary_puts {s : Decoding NetworkMessage}
    (hnone : s.dst.securityFooter = none)
    (hsize : s.dst.securityHeader.securityFooterEnabled = false →
      s.dst.securityHeader.securityFooterSize = 0) :
    Puts (fun footer m => { m with securityFooter := footer })
      (FooterRefits s.dst.securityHeader) (securityFooterDecodeBinary src) s := by
  intro t ht
  obtain ⟨_, _, hcurrent, ht⟩ := bind_eq_done.mp ht
  cases hcurrent
  by_cases hc : s.dst.securityHeader.securityFooterEnabled = true ∧
      s.dst.securityHeader.securityFooterSize > 0
  · rw [if_pos hc] at ht
    obtain ⟨_, _, hassign, ht⟩ := bind_eq_done.mp ht
    cases hassign
    obtain ⟨bs, n, rfl, hlen, hshort, hn⟩ := securityFooterLoop_puts _ _ _ _ rfl t ht
    rw [List.length_replicate] at hlen
    refine ⟨some bs, n, rfl, hlen, nullIfEmpty_some ?_, hshort, hn⟩
    rw [hlen]
    exact UInt16.lt_iff_toNat_lt.mp hc.2
  · rw [if_neg hc] at ht
    cases ht
    -- disabled, or of the announced length 0
    have hzero : s.dst.securityHeader.securityFooterSize = 0 := by
      cases henabled : s.dst.securityHeader.securityFooterEnabled with
      | false => exact hsize henabled
      | true =>
        have hle : ¬ 0 < s.dst.securityHeader.securityFooterSize.toNat := fun h =>
          hc ⟨henabled, UInt16.lt_iff_toNat_lt.mpr h⟩
        exact UInt16.toNat_inj.mp (by simpa using hle)
    refine ⟨none, 0, ?_, ?_, rfl, ?_, ?_⟩
    · show s = ⟨s.offset, { s.dst with securityFooter := none }⟩
      rw [← hnone]
    all_goals
      rw [hzero]
      decide

/-! ## The headers -/

/-- The pieces in front of the payload. -/
def frontPieces (S : FieldSpec) (m : NetworkMessage) : List Piece :=
  headPieces m ++ ((if m.payloadHeaderEnabled then payloadHeaderPieces m else []) ++
    (extendedHeaderPieces S m ++
      (if m.securityEnabled then securityHeaderPieces m.securityHeader else [])))

/-- What is there is no longer than what it was read from. -/
theorem Guarded.length_le {α : Type} {c : Bool} {R : α → Nat → Prop} {blank a : α} {n k : Nat}
    (h : Guarded c R blank a n) (hle : R a n → k ≤ n) : (if c then k else 0) ≤ n := by
  cases c with
  | true => exact hle (h.present rfl)
  | false => exact Nat.zero_le n

/-- The promoted fields that were written are all there are. -/
theorem promoted_eq {m : NetworkMessage} {vs : List Variant}
    (h : m.promotedFields.getD [] = vs.map .init) : m.promoted = vs := by
  rw [NetworkMessage.promoted, h]
  exact filterMap_init vs

/-- The sections in front of the payload, one by one. -/
theorem frontPieces_length (S : FieldSpec) (m : NetworkMessage) :
    (pieceBytes (frontPieces S m)).length =
      (pieceBytes (flagsPieces m)).length +
      (if m.publisherIdEnabled then (publisherIdBytes m.publisherId).length else 0) +
      (if m.dataSetClassIdEnabled then 16 else 0) +
      (if m.groupHeaderEnabled then (pieceBytes (groupHeaderPieces m.groupHeader)).length else 0) +
      (if m.payloadHeaderEnabled then (pieceBytes (payloadHeaderPieces m)).length else 0) +
      (if m.timestampEnabled then 8 else 0) + (if m.picosecondsEnabled then 2 else 0) +
      (if m.promotedFieldsEnabled then
        2 + (m.promoted.flatMap fun v => S.bytes .variant (fieldOfVariant v)).length else 0) +
      (if m.securityEnabled then (pieceBytes (securityHeaderPieces m.securityHeader)).length
        else 0) := by
  have hpromoted : ∀ vs : List Variant,
      (pieceBytes (vs.map fun v => .plain (S.bytes .variant (fieldOfVariant v)))).length =
        (vs.flatMap fun v => S.bytes .variant (fieldOfVariant v)).length := fun vs => by
    rw [pieceBytes, List.flatMap_map]
  simp only [frontPieces, headPieces, extendedHeaderPieces, pieceBytes_append, pieceBytes_ite,
    pieceBytes_cons, pieceBytes_nil, List.append_nil, List.length_append, apply_ite List.length,
    List.length_nil, leBytes_length, guid_memory_length, hpromoted, Nat.add_assoc]

/-- The payload header is written in the bytes it was read from. -/
theorem payloadHeaderPieces_length {m : NetworkMessage} {n : Nat}
    (h : PayloadHeaderRefits m.payloadHeader n) :
    (pieceBytes (payloadHeaderPieces m)).length ≤ n := by
  obtain ⟨ids, hids⟩ := Option.isSome_iff_exists.mp h.present
  have hsize := h.size
  rw [← h.length ids hids] at hsize
  refine Nat.le_trans (Nat.le_of_eq ?_) hsize
  simp only [payloadHeaderPieces, hids, Option.getD_some, pieceBytes_append, pieceBytes_cons,
    pieceBytes_nil, List.append_nil, List.length_append, List.length_singleton, List.length_flatMap,
    leBytes_length, List.map_const', List.sum_replicate_nat, Nat.mul_comm]

/-- The headers have zeros where there is no section, and can be encoded. -/
structure HeadersRefit (src : Bytes) (T : DataTypes) (m : NetworkMessage) (n : Nat) : Prop where
  version : m.version ≤ 15
  noMessageId : m.messageIdEnabled = false ∧ m.messageId = none
  publisherId : m.publisherIdEnabled = false → m.publisherId = .zeroOfType m.publisherId.typeByte
  publisherIdFits : m.publisherIdEnabled = true → m.publisherId.fits = true
  dataSetClassId : m.dataSetClassIdEnabled = false → m.dataSetClassId = default
  groupHeader : m.groupHeaderEnabled = false → m.groupHeader = default
  groupHeaderMembers : m.groupHeader.IsZeroed
  payloadHeader : m.payloadHeaderEnabled = false → m.payloadHeader = default
  writerIds : m.payloadHeaderEnabled = true →
    ∃ ids, m.payloadHeader.dataSetWriterIds = some ids ∧ ids.length = m.payloadHeader.count.toNat
  timestamp : m.timestampEnabled = false → m.timestamp = 0
  picoseconds : m.picosecondsEnabled = false → m.picoseconds = 0
  noPromoted : m.promotedFieldsEnabled = false → m.promotedFieldsSize = 0 ∧ m.promotedFields = none
  promoted : ∃ k, PromotedRefits src T (m.promotedFields, m.promotedFieldsSize) k
  noSecurity : m.securityEnabled = false → m.securityHeader = default
  security : ∃ k, SecurityHeaderRefits m.securityHeader k
  payload : m.payload = default
  noFooter : m.securityFooter = none
  noSignature : m.signature = none
  length : (∀ v ∈ m.promoted, v.HoldsPlain) → (pieceBytes (frontPieces (leafSpec T) m)).length ≤ n

/-- All headers, section by section. -/
theorem headersDecodeBinary_refits (hT : StandardTypes T) {s t : Decoding NetworkMessage}
    (ht : headersDecodeBinary src T s = .done () t) :
    ∃ n, t.offset = s.offset + n ∧ HeadersRefit src T t.dst n := by
  obtain ⟨_, _, hassign, ht⟩ := bind_eq_done.mp ht
  cases hassign
  obtain ⟨_, _, hsection, ht⟩ := bind_eq_done.mp ht
  -- each section takes its bytes, and says what it has put
  obtain ⟨m, n, rfl, hversion, hnoMessageId, hflags⟩ := flagsDecodeBinary_puts _ _ hsection
  obtain ⟨_, _, hsection, ht⟩ := bind_eq_done.mp ht
  obtain ⟨id, n₁, rfl, h₁⟩ := Puts.onFlag (b := (m.readUpTo 0).publisherId)
    (fun _ => publisherIdDecodeBinary_puts hT _) rfl _ hsection
  obtain ⟨_, _, hsection, ht⟩ := bind_eq_done.mp ht
  obtain ⟨classId, n₂, rfl, h₂⟩ := Puts.onFlag (fun _ => takes_uaGuid.puts _) rfl _ hsection
  obtain ⟨_, _, hsection, ht⟩ := bind_eq_done.mp ht
  obtain ⟨groupHeader, n₃, rfl, h₃⟩ := Puts.onFlag
    (fun _ => Puts.part (groupHeaderDecodeBinary_puts _)) rfl _ hsection
  obtain ⟨_, _, hsection, ht⟩ := bind_eq_done.mp ht
  obtain ⟨payloadHeader, n₄, rfl, h₄⟩ := Puts.onFlag
    (fun _ => payloadHeaderDecodeBinary_puts _) rfl _ hsection
  obtain ⟨_, _, hsection, ht⟩ := bind_eq_done.mp ht
  obtain ⟨timestamp, n₅, rfl, h₅⟩ := Puts.onFlag (fun _ => takes_uaUInt64.puts _) rfl _ hsection
  obtain ⟨_, _, hsection, ht⟩ := bind_eq_done.mp ht
  obtain ⟨picoseconds, n₆, rfl, h₆⟩ := Puts.onFlag (fun _ => takes_uaUInt16.puts _) rfl _ hsection
  obtain ⟨_, _, hsection, ht⟩ := bind_eq_done.mp ht
  obtain ⟨promoted, n₇, rfl, h₇⟩ := Puts.onFlag (b := (none, 0))
    (fun _ => promotedFieldsDecodeBinary_puts hT rfl) rfl _ hsection
  obtain ⟨securityHeader, n₈, rfl, h₈⟩ := Puts.onFlag
    (fun _ => Puts.part (securityHeaderDecodeBinary_puts _)) rfl _ ht
  -- the type of the publisher id was in the flags, whether there is an id or not
  have htype : id.typeByte = (m.readUpTo 0).publisherId.typeByte := by
    cases hc : m.publisherIdEnabled with
    | true => exact (h₁.present hc).typeByte
    | false => rw [(h₁.absent hc).1]
  refine ⟨n + n₁ + n₂ + n₃ + n₄ + n₅ + n₆ + n₇ + n₈, ?_, ?_⟩
  · show s.offset + n + n₁ + n₂ + n₃ + n₄ + n₅ + n₆ + n₇ + n₈ = _
    omega
  constructor
  case version => exact hversion
  case noMessageId => exact hnoMessageId
  case publisherId =>
    intro hc
    show id = .zeroOfType id.typeByte
    rw [htype]
    exact (h₁.absent hc).1.trans (zeroOfType_typeByte _).symm
  case publisherIdFits => exact fun hc => (h₁.present hc).fits
  case dataSetClassId => exact fun hc => (h₂.absent hc).1
  case groupHeader => exact fun hc => (h₃.absent hc).1
  case groupHeaderMembers =>
    cases hc : m.groupHeaderEnabled with
    | true => exact (h₃.present hc).1
    | false =>
      show groupHeader.IsZeroed
      rw [(h₃.absent hc).1]
      exact ⟨fun _ => rfl, fun _ => rfl, fun _ => rfl, fun _ => rfl⟩
  case payloadHeader => exact fun hc => (h₄.absent hc).1
  case writerIds =>
    intro hc
    obtain ⟨ids, hids⟩ := Option.isSome_iff_exists.mp (h₄.present hc).present
    exact ⟨ids, hids, (h₄.present hc).length ids hids⟩
  case timestamp => exact fun hc => (h₅.absent hc).1
  case picoseconds => exact fun hc => (h₆.absent hc).1
  case noPromoted =>
    intro hc
    obtain ⟨rfl, -⟩ := h₇.absent hc
    exact ⟨rfl, rfl⟩
  case promoted =>
    cases hc : m.promotedFieldsEnabled with
    | true => exact ⟨n₇, h₇.present hc⟩
    | false =>
      obtain ⟨rfl, -⟩ := h₇.absent hc
      exact ⟨2, fun _ h => absurd h (by simp [NetworkMessage.withPromoted]), [], rfl, fun _ =>
        ⟨fun _ h => absurd h List.not_mem_nil, Nat.le_refl _, Nat.zero_le _⟩⟩
  case noSecurity => exact fun hc => (h₈.absent hc).1
  case security =>
    cases hc : m.securityEnabled with
    | true => exact ⟨n₈, h₈.present hc⟩
    | false =>
      obtain ⟨rfl, -⟩ := h₈.absent hc
      exact ⟨_, rfl, rfl, fun _ => rfl, Nat.le_refl _⟩
  case payload => rfl
  case noFooter => rfl
  case noSignature => rfl
  case length =>
    intro hplain
    -- each section is encoded in what it took, or less
    rw [frontPieces_length]
    refine Nat.add_le_add (Nat.add_le_add (Nat.add_le_add (Nat.add_le_add (Nat.add_le_add
      (Nat.add_le_add (Nat.add_le_add (Nat.add_le_add ?_ (h₁.length_le fun hR => hR.length)) h₂.le)
      (h₃.length_le fun hR => hR.2)) (h₄.length_le fun hR => ?_)) h₅.le) h₆.le)
      (h₇.length_le fun hR => ?_)) (h₈.length_le fun hR => hR.length)
    · refine Nat.le_trans (Nat.le_of_eq ?_) hflags
      rw [flagsPieces_length, flagsPieces_length]
      simp only [NetworkMessage.extendedFlags1Enabled, NetworkMessage.withPromoted, htype]
      rfl
    · exact payloadHeaderPieces_length hR
    · obtain ⟨vs, hvs, hrefits⟩ := hR.written
      rw [promoted_eq hvs] at hplain ⊢
      exact (hrefits hplain).2.1

/-! ## The whole message -/

/-- What follows the DataSetMessages of a message with a security header. -/
structure TrailerRefits (h : NetworkMessageSecurityHeader) (trailer : UAString × UAString)
    (n : Nat) : Prop where
  footer : ∃ k, FooterRefits h trailer.1 k
  noSignature : h.networkMessageSigned = false → trailer.2 = none
  signature : h.networkMessageSigned = true → stringFits trailer.2 = true
  length : h.securityFooterSize.toNat +
    (if h.networkMessageSigned then (stringBytes trailer.2).length else 0) ≤ n

/-- Footer and signature, with the bytes they took. -/
theorem securityTrailerDecodeBinary_puts (hT : StandardTypes T) {s : Decoding NetworkMessage}
    (hnone : s.dst.securityFooter = none) (hnosignature : s.dst.signature = none)
    (hsize : s.dst.securityHeader.securityFooterEnabled = false →
      s.dst.securityHeader.securityFooterSize = 0) :
    Puts (fun trailer m => { m with securityFooter := trailer.1, signature := trailer.2 })
      (TrailerRefits s.dst.securityHeader) (securityTrailerDecodeBinary src T) s := by
  intro t ht
  obtain ⟨_, _, hfooter, ht⟩ := bind_eq_done.mp ht
  obtain ⟨footer, n, rfl, hn⟩ := securityFooterDecodeBinary_puts hnone hsize _ hfooter
  obtain ⟨signature, k, rfl, hk⟩ := Puts.onFlag (b := none) (fun _ => (takes_uaString hT).puts _)
    (by rw [← hnosignature]) _ ht
  refine ⟨⟨footer, signature⟩, n + k, ?_, ⟨n, hn⟩, fun hc => (hk.absent hc).1,
    fun hc => (hk.present hc).1, Nat.add_le_add hn.size (hk.length_le fun hR => hR.2)⟩
  rw [← Nat.add_assoc]

/-- The key and delta frames of the message are in VARIANT or DATAVALUE encoding, and all its
Variants are of plain types. -/
structure NetworkMessage.HoldsPlain (m : NetworkMessage) : Prop where
  promoted : ∀ v ∈ m.promoted, v.HoldsPlain
  messages : ∀ d ∈ m.payload.dataSetMessages.getD [], d.HoldsPlain

/-- The message with all array dimensions as lists, and without the array of sizes. -/
def NetworkMessage.trimmed (m : NetworkMessage) : NetworkMessage :=
  { m with
    promotedFields := m.promotedFields.map (·.map (·.map VariantOf.trimmed))
    payload := {
      sizes := none
      dataSetMessages := m.payload.dataSetMessages.map (·.map DataSetMessage.trimmed) } }

/-- The message can be encoded, in `n` bytes or less, and what is received then is the same
message. -/
structure NetworkMessage.Refits (T : DataTypes) (m : NetworkMessage) (n : Nat) : Prop where
  filled : m.Filled (IsPlainField T)
  encodable : m.Encodable (leafSpec T)
  canonical : m.Canonical
  promotedFit : m.PromotedFit (leafSpec T)
  length : (pieceBytes (messagePieces (leafSpec T) m)).length ≤ n
  received : (m.received (leafSpec T)).trimmed = m.trimmed

/-- The sections of a message, one by one. -/
theorem messagePieces_length (S : FieldSpec) (m : NetworkMessage) :
    (pieceBytes (messagePieces S m)).length = (pieceBytes (frontPieces S m)).length +
      (if m.payloadHeaderEnabled && decide (m.payloadHeader.count > 1) then
        2 * m.payloadHeader.count.toNat else 0) +
      ((m.payload.dataSetMessages.getD []).map fun d => (dataSetMessageBytes S d).length).sum +
      (if m.securityEnabled then (pieceBytes (trailerPieces m)).length else 0) := by
  have hsizes : (pieceBytes (sizesPieces S m)).length =
      if m.payloadHeaderEnabled && decide (m.payloadHeader.count > 1) then
        2 * m.payloadHeader.count.toNat else 0 := by
    unfold sizesPieces
    split
    · simp only [pieceBytes_cons, pieceBytes_nil, List.append_nil, List.length_flatMap,
        leBytes_length, List.map_const', List.sum_replicate_nat, List.length_range]
      exact Nat.mul_comm _ _
    · rfl
  rw [← hsizes, ← List.length_flatMap, ← pieceBytes_messages]
  simp only [messagePieces, tailPieces, frontPieces, pieceBytes_append, pieceBytes_ite,
    List.length_append, apply_ite List.length, List.length_nil, Nat.add_assoc]

/-- Footer and signature are encoded in what they took. -/
theorem TrailerRefits.pieces_length {m : NetworkMessage} {n : Nat}
    (h : TrailerRefits m.securityHeader (m.securityFooter, m.signature) n) :
    (pieceBytes (trailerPieces m)).length ≤ n := by
  obtain ⟨k, hfooter⟩ := h.footer
  have hbytes : (if m.securityHeader.securityFooterEnabled then (m.securityFooter.getD []).length
      else 0) ≤ m.securityHeader.securityFooterSize.toNat := by
    split
    · exact Nat.le_of_eq hfooter.length
    · exact Nat.zero_le _
  refine Nat.le_trans ?_ h.length
  simp only [trailerPieces, pieceBytes_append, pieceBytes_ite, pieceBytes_cons, pieceBytes_nil,
    List.append_nil, List.length_append, apply_ite List.length, List.length_nil]
  exact Nat.add_le_add_right hbytes _

/-- Promoted fields that were read are null or not empty, and so they arrive as they are. -/
theorem PromotedRefits.trimmed {fields : Option (List (Slot Variant))} {size : UInt16} {n : Nat}
    (h : PromotedRefits src T (fields, size) n) :
    (nullIfEmpty (fields.map (List.map (Slot.map VariantOf.trimmed)))).map
        (List.map (Slot.map VariantOf.trimmed)) =
      fields.map (List.map (Slot.map VariantOf.trimmed)) := by
  cases fields with
  | none => rfl
  | some xs =>
    have hpos : 0 < (xs.map (Slot.map VariantOf.trimmed)).length := by
      rw [List.length_map]
      exact h.null xs rfl
    rw [Option.map_some, nullIfEmpty_some hpos, Option.map_some,
      map_map_of_idempotent slot_trimmed_trimmed]

/-- **What was read can be written in the bytes it was read from.** Given the headers. -/
theorem refits_of_headers {m₀ m : NetworkMessage} {n : Nat} (hm₀ : HeadersRefit src T m₀ n)
    (htype : m₀.networkMessageType = .dataSet) (hsrc : src.length ≤ 65507)
    (hcount : (m₀.promotedFields.getD []).length = m₀.promotedFieldsSize.toNat)
    {sizes : Option (List UInt16)} {ds : List DataSetMessage} {trailer : UAString × UAString}
    {n₁ n₂ n₃ : Nat} (hsizes : SizesRefit m₀ sizes n₁)
    (hds : MessagesRefit T m₀.dataSetMessageCount ds n₂)
    (htrailer :
      Guarded m₀.securityEnabled (TrailerRefits m₀.securityHeader) (none, none) trailer n₃)
    (hm : m = { m₀ with
      payload := ⟨sizes, some ds⟩, securityFooter := trailer.1, signature := trailer.2 })
    (hplain : m.HoldsPlain) : m.Refits T (n + n₁ + n₂ + n₃) := by
  subst hm
  obtain ⟨k, hpromoted⟩ := hm₀.promoted
  obtain ⟨vs, hvs, hvariants⟩ := hpromoted.written
  have hsame := promoted_eq hvs
  have hholds : ∀ v ∈ m₀.promoted, v.HoldsPlain := hplain.promoted
  obtain ⟨l, hsecurity⟩ := hm₀.security
  have hvalues := hvariants (hsame ▸ hholds)
  have hmessages : ∀ d ∈ ds, ∃ k, d.Refits T k := fun d hd =>
    hds.refits d hd (hplain.messages d hd)
  constructor
  case filled =>
    refine ⟨htype, fun hc ids hids => ?_, fun _ => ⟨?_, ?_, ?_⟩, fun hc => ?_, hds.length,
      fun _ => hsizes.length, fun d hd => ?_⟩
    · obtain ⟨ids', hids', hlen⟩ := hm₀.writerIds hc
      rwa [← Option.some.inj (hids'.symm.trans hids)]
    · show m₀.promotedFields.getD [] = m₀.promoted.map .init
      rw [hsame, hvs]
    · show m₀.promoted.length = m₀.promotedFieldsSize.toNat
      rw [hsame, ← hcount, hvs, List.length_map]
    · show ∀ v ∈ m₀.promoted, _
      rw [hsame]
      exact hvalues.1
    · obtain ⟨k', hfooter⟩ := (htrailer.present hc).footer
      exact ⟨hsecurity.nonce, fun _ => hfooter.length, fun _ => hfooter.short⟩
    · obtain ⟨k', hd⟩ := hmessages d hd
      exact hd.filled
  case encodable =>
    refine ⟨fun hc => ?_, hm₀.publisherIdFits, fun d hd => ?_, fun hc =>
      (htrailer.present hc).signature⟩
    · obtain ⟨ids, hids, -⟩ := hm₀.writerIds hc
      exact Option.isSome_of_eq_some hids
    · obtain ⟨k', hd⟩ := hmessages d hd
      exact hd.encodable
  case canonical =>
    refine ⟨hm₀.version, hm₀.noMessageId, hm₀.publisherId, hm₀.dataSetClassId, hm₀.groupHeader,
      hm₀.groupHeaderMembers, hm₀.payloadHeader, hm₀.timestamp, hm₀.picoseconds, fun hc => ?_,
      hm₀.noSecurity, hsecurity.footerSize, fun hc => ?_, fun hc => ?_, fun d hd => ?_⟩
    · obtain ⟨hsize, hnone⟩ := hm₀.noPromoted hc
      exact ⟨hsize, congrArg (Option.getD · []) hnone⟩
    · -- without a footer the loop had nothing to read
      cases hsec : m₀.securityEnabled with
      | true =>
        obtain ⟨k', hfooter⟩ := (htrailer.present hsec).footer
        have hlen := hfooter.length
        rw [hsecurity.footerSize hc] at hlen
        exact List.length_eq_zero_iff.mp hlen
      | false =>
        obtain ⟨rfl, -⟩ := htrailer.absent hsec
        rfl
    · cases hsec : m₀.securityEnabled with
      | true => exact (htrailer.present hsec).noSignature hc
      | false =>
        obtain ⟨rfl, -⟩ := htrailer.absent hsec
        rfl
    · obtain ⟨k', hd⟩ := hmessages d hd
      exact hd.canonical
  case promotedFit =>
    intro _
    show (m₀.promoted.flatMap _).length ≤ 65535
    rw [hsame]
    -- they came in a datagram
    exact Nat.le_trans hvalues.2.2 (Nat.le_trans hsrc (by decide))
  case length =>
    rw [messagePieces_length]
    refine Nat.add_le_add (Nat.add_le_add (Nat.add_le_add (hm₀.length hholds) hsizes.size)
      (hds.size hplain.messages)) (htrailer.length_le fun hR => hR.pieces_length)
  case received =>
    -- nothing here is empty but not null
    have hnull : nullIfEmpty trailer.1 = trailer.1 := by
      cases hsec : m₀.securityEnabled with
      | true =>
        obtain ⟨k', hfooter⟩ := (htrailer.present hsec).footer
        exact hfooter.null
      | false =>
        obtain ⟨rfl, -⟩ := htrailer.absent hsec
        rfl
    have hreceived : (ds.map DataSetMessage.received).map DataSetMessage.trimmed =
        ds.map DataSetMessage.trimmed := by
      rw [List.map_map]
      refine List.map_congr_left fun d hd => ?_
      obtain ⟨k', hd⟩ := hmessages d hd
      exact hd.received
    simp only [NetworkMessage.received, NetworkMessage.trimmed, hnull, hpromoted.trimmed,
      hsecurity.null,
      Option.getD_some, Option.map_some, hreceived]

theorem withoutTrailer {m : NetworkMessage} (hfooter : m.securityFooter = none)
    (hsignature : m.signature = none) :
    { m with securityFooter := none, signature := none } = m := by
  obtain ⟨⟩ := m
  subst hfooter hsignature
  rfl

/-- The whole message. -/
theorem networkMessageDecodeBinary_refits (hT : StandardTypes T) (hsrc : src.length ≤ 65507)
    {call t : DecodeCall} (h : networkMessageDecodeBinary src T call = .done () t)
    (hplain : t.dst.HoldsPlain) : ∃ n, t.offset = call.offset + n ∧ t.dst.Refits T n := by
  obtain ⟨_, s, hheaders, ht⟩ := bind_eq_done.mp (networkMessageDecodeBinary_eq_done h).1
  obtain ⟨n, hn, hm⟩ := headersDecodeBinary_refits hT hheaders
  have hcount := (headersDecodeBinary_ends.done trivial hheaders).2.1.length
  obtain ⟨_, _, hcurrent, ht⟩ := bind_eq_done.mp ht
  cases hcurrent
  by_cases htype : s.dst.networkMessageType ≠ .dataSet
  · rw [if_pos htype] at ht
    cases ht
  · rw [if_neg htype] at ht
    obtain ⟨_, _, hsection, ht⟩ := bind_eq_done.mp ht
    obtain ⟨sizes, n₁, rfl, h₁⟩ :=
      sizesDecodeBinary_puts (congrArg DataSetPayload.sizes hm.payload) _ hsection
    obtain ⟨_, _, hsection, ht⟩ := bind_eq_done.mp ht
    obtain ⟨ds, n₂, rfl, h₂⟩ := dataSetMessagesDecodeBinary_puts hT _ _ hsection
    obtain ⟨l, hsecurity⟩ := hm.security
    -- the hypotheses about the headers hold of the message that the payload was put into
    obtain ⟨trailer, n₃, hdst, h₃⟩ := Puts.onFlag (b := (none, none)) (fun _ =>
      securityTrailerDecodeBinary_puts hT (by exact hm.noFooter) (by exact hm.noSignature)
        (by exact hsecurity.footerSize))
      (withoutTrailer (by exact hm.noFooter) (by exact hm.noSignature)) _ ht
    have hoffset : t.offset = s.offset + n₁ + n₂ + n₃ := congrArg Decoding.offset hdst
    refine ⟨n + n₁ + n₂ + n₃, by omega, ?_⟩
    exact refits_of_headers hm (not_not.mp htype) hsrc hcount h₁ h₂ h₃ (congrArg Decoding.dst hdst)
      hplain

/-- **Decoding normalises once.** A message that was decoded from whatever bytes, and holds
plain fields, has an encoding. A buffer of the calculated size takes it, it is no longer than
what the decoder went over, and wherever it stands the decoder reads the same message. -/
theorem networkMessageDecodeBinary_normalises (hT : StandardTypes T) (hsrc : src.length ≤ 65507)
    {call t : DecodeCall} (h : networkMessageDecodeBinary src T call = .done () t)
    (hplain : t.dst.HoldsPlain) :
    ∃ bs : Bytes, networkMessageCalcSizeBinary T t.dst none = some (bs.length, none) ∧
      (∀ buffer : Bytes, buffer.length = bs.length →
        networkMessageEncodeBinary T t.dst ⟨buffer, 0⟩ = .done () ⟨bs, bs.length⟩) ∧
      call.offset + bs.length ≤ t.offset ∧
      ∀ (src' : Bytes) (call' : DecodeCall), At src' call'.offset bs → ∃ m' : NetworkMessage,
        networkMessageDecodeBinary src' T call' =
          .done () { call' with offset := call'.offset + bs.length, dst := m' } ∧
        m'.trimmed = t.dst.trimmed := by
  obtain ⟨n, hn, hm⟩ := networkMessageDecodeBinary_refits hT hsrc h hplain
  have hback : t.dst.Filled ((leafSpec T).ReadsBack T) :=
    hm.filled.imp fun _ _ => readsBack_of_isPlainField hT
  have hmeets : t.dst.Filled ((leafSpec T).Meets T) := hback.imp fun _ _ h => h.meets
  have hwrites : t.dst.Filled ((leafSpec T).Writes T) := hback.imp fun _ _ h => ⟨h.meets, h.ok⟩
  refine ⟨pieceBytes (messagePieces (leafSpec T) t.dst),
    networkMessageCalcSizeBinary_eq hT hmeets hm.encodable.writerIds none,
    fun buffer hlen => ?_, ?_, fun src' call' hat => ?_⟩
  · have hroom : (pieceBytes (messagePieces (leafSpec T) t.dst)).length ≤
        (⟨buffer, 0⟩ : Buffer).room := by simp [Buffer.room, hlen]
    rw [completes_networkMessage hT hwrites hm.encodable _ (Nat.zero_le _) hroom,
      Buffer.write_all hlen]
  · rw [hn]
    exact Nat.add_le_add_left hm.length _
  · exact ⟨t.dst.received (leafSpec T),
      networkMessageDecodeBinary_reads hT hback hm.encodable hm.canonical hm.promotedFit hat,
      hm.received⟩

/-- A key frame with one Boolean, behind a byte of extended flags that says nothing. The
Boolean is neither 0 nor 1. -/
def irregularKeyFrame : Bytes := [0x81, 0x00, 0x01, 0x01, 0x00, 0x01, 0x07]

/-- The message in it. -/
def trueMessage : NetworkMessage :=
  { (default : NetworkMessage) with
    version := 1
    payload := ⟨none, some [{ (default : DataSetMessage) with
      header := { (default : DataSetMessageHeader) with dataSetMessageValid := true }
      fieldCount := 1
      dataSetFields :=
        some [{ (default : DataValue) with value := trueVariant, hasValue := true }] }]⟩ }

theorem trueMessage_holdsPlain : trueMessage.HoldsPlain where
  promoted _ hv := absurd hv List.not_mem_nil
  messages d hd := by
    rw [List.mem_singleton.mp hd]
    refine ⟨fun _ => rfl, fun f hf => ?_, fun p hp => absurd hp List.not_mem_nil⟩
    rw [List.mem_singleton.mp hf]
    rintro _ ⟨rfl⟩
    exact ⟨.boolean, rfl, rfl⟩

theorem irregularKeyFrame_normalises : ∃ (bs : Bytes) (m' : NetworkMessage),
    networkMessageCalcSizeBinary builtinTypes trueMessage none = some (bs.length, none) ∧
      0 + bs.length ≤ irregularKeyFrame.length ∧
      networkMessageDecodeBinary bs builtinTypes ⟨⟨0, default⟩, []⟩ =
        .done () ⟨⟨0 + bs.length, m'⟩, []⟩ ∧ m'.trimmed = trueMessage.trimmed := by
  have hrun : networkMessageDecodeBinary irregularKeyFrame builtinTypes ⟨⟨0, default⟩, []⟩ =
      .done () ⟨⟨irregularKeyFrame.length, trueMessage⟩, []⟩ := rfl
  obtain ⟨bs, hsize, -, hlen, hread⟩ := networkMessageDecodeBinary_normalises
    standardTypes_builtinTypes (by decide) hrun trueMessage_holdsPlain
  obtain ⟨m', hm', hsame⟩ := hread bs ⟨⟨0, default⟩, []⟩ (List.prefix_refl bs)
  exact ⟨bs, m', hsize, hlen, hm', hsame⟩

end OpenPubSub
