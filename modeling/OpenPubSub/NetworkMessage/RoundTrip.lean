import OpenPubSub.NetworkMessage.EncodeStatus
import OpenPubSub.NetworkMessage.ReadBack

/-!
# The round trip

Where the bytes of a NetworkMessage stand, the decoder fills the structure with this message.

- `NetworkMessage.Canonical`: what is disabled is zero. `NetworkMessage.received` is what the
  decoder makes of such a message; `NetworkMessage.readUpTo` of its first `k` sections.
- `NetworkMessage.comparable` is a message without its array of sizes, with every array as the
  list of its elements. It is the same for a message and what is received of it.
- **`decodesTo_networkMessage`**: the decoder makes this of the bytes of a message.
-/

namespace OpenPubSub

open Routine

variable {src : Bytes} {T : DataTypes} {S : FieldSpec} {m : NetworkMessage}

/-! ## Flag bytes -/

/-- The first byte: the version is in the bits below the flags. -/
theorem uadpFlags_fields {m : NetworkMessage} (hversion : m.version ≤ 15) :
    m.uadpFlags &&& nmVersionMask = m.version ∧
      bitSet m.uadpFlags nmPublisherIdEnabledMask = m.publisherIdEnabled ∧
      bitSet m.uadpFlags nmGroupHeaderEnabledMask = m.groupHeaderEnabled ∧
      bitSet m.uadpFlags nmPayloadHeaderEnabledMask = m.payloadHeaderEnabled ∧
      bitSet m.uadpFlags nmExtendedFlags1EnabledMask = m.extendedFlags1Enabled := by
  have hbits : ∀ version : Fin 16, ∀ a b c d : Bool,
      let v := UInt8.ofNat version ||| maskBit a nmPublisherIdEnabledMask |||
        maskBit b nmGroupHeaderEnabledMask ||| maskBit c nmPayloadHeaderEnabledMask |||
        maskBit d nmExtendedFlags1EnabledMask
      v &&& nmVersionMask = UInt8.ofNat version ∧ bitSet v nmPublisherIdEnabledMask = a ∧
        bitSet v nmGroupHeaderEnabledMask = b ∧ bitSet v nmPayloadHeaderEnabledMask = c ∧
        bitSet v nmExtendedFlags1EnabledMask = d := by
    decide +kernel
  have hlt : m.version.toNat < 16 := Nat.lt_succ_of_le (UInt8.le_iff_toNat_le.mp hversion)
  have h := hbits ⟨m.version.toNat, hlt⟩ m.publisherIdEnabled m.groupHeaderEnabled
    m.payloadHeaderEnabled m.extendedFlags1Enabled
  simp only [UInt8.ofNat_toNat] at h
  exact h

/-- The first byte of extended flags: the type of the publisher id and five flags. -/
theorem extendedFlags1_fields (m : NetworkMessage) :
    m.extendedFlags1 &&& nmPublisherIdMask = m.publisherId.typeByte ∧
      bitSet m.extendedFlags1 nmDataSetClassIdEnabledMask = m.dataSetClassIdEnabled ∧
      bitSet m.extendedFlags1 nmSecurityEnabledMask = m.securityEnabled ∧
      bitSet m.extendedFlags1 nmTimestampEnabledMask = m.timestampEnabled ∧
      bitSet m.extendedFlags1 nmPicosecondsEnabledMask = m.picosecondsEnabled ∧
      bitSet m.extendedFlags1 nmExtendedFlags2EnabledMask = m.extendedFlags2Enabled := by
  have hbits : ∀ type : Fin 8, ∀ a b c d e : Bool,
      let v := UInt8.ofNat type ||| maskBit a nmDataSetClassIdEnabledMask |||
        maskBit b nmSecurityEnabledMask ||| maskBit c nmTimestampEnabledMask |||
        maskBit d nmPicosecondsEnabledMask ||| maskBit e nmExtendedFlags2EnabledMask
      v &&& nmPublisherIdMask = UInt8.ofNat type ∧ bitSet v nmDataSetClassIdEnabledMask = a ∧
        bitSet v nmSecurityEnabledMask = b ∧ bitSet v nmTimestampEnabledMask = c ∧
        bitSet v nmPicosecondsEnabledMask = d ∧ bitSet v nmExtendedFlags2EnabledMask = e := by
    decide +kernel
  have hlt : m.publisherId.typeByte.toNat < 8 := by
    cases m.publisherId with
    | reserved v =>
      revert v
      decide
    | _ => simp [PublisherId.typeByte]
  have h := hbits ⟨m.publisherId.typeByte.toNat, hlt⟩ m.dataSetClassIdEnabled m.securityEnabled
    m.timestampEnabled m.picosecondsEnabled m.extendedFlags2Enabled
  simp only [UInt8.ofNat_toNat] at h
  exact h

/-- The second byte of extended flags, for a DataSet message. -/
theorem extendedFlags2_fields (htype : m.networkMessageType = .dataSet) :
    bitSet m.extendedFlags2 nmChunkMessageMask = m.chunkMessage ∧
      bitSet m.extendedFlags2 nmPromotedFieldsEnabledMask = m.promotedFieldsEnabled ∧
      NetworkMessageType.ofByte ((m.extendedFlags2 &&& nmNetworkMsgTypeMask) >>> nmShiftLen) =
        m.networkMessageType := by
  unfold NetworkMessage.extendedFlags2
  rw [htype]
  generalize m.chunkMessage = a
  generalize m.promotedFieldsEnabled = b
  revert a b
  decide

/-- The flags of the group header, bit by bit. -/
theorem groupHeaderFlags_fields (g : NetworkMessageGroupHeader) :
    bitSet g.flags groupHeaderWriterGroupIdEnabled = g.writerGroupIdEnabled ∧
      bitSet g.flags groupHeaderGroupVersionEnabled = g.groupVersionEnabled ∧
      bitSet g.flags groupHeaderNmNumberEnabled = g.networkMessageNumberEnabled ∧
      bitSet g.flags groupHeaderSequenceNumberEnabled = g.sequenceNumberEnabled := by
  have hbits : ∀ a b c d : Bool,
      let v := maskBit a groupHeaderWriterGroupIdEnabled |||
        maskBit b groupHeaderGroupVersionEnabled ||| maskBit c groupHeaderNmNumberEnabled |||
        maskBit d groupHeaderSequenceNumberEnabled
      bitSet v groupHeaderWriterGroupIdEnabled = a ∧ bitSet v groupHeaderGroupVersionEnabled = b ∧
        bitSet v groupHeaderNmNumberEnabled = c ∧
        bitSet v groupHeaderSequenceNumberEnabled = d := by decide
  exact hbits ..

/-- The flags of the security header, bit by bit. -/
theorem securityHeaderFlags_fields (h : NetworkMessageSecurityHeader) :
    bitSet h.flags securityHeaderNmSigned = h.networkMessageSigned ∧
      bitSet h.flags securityHeaderNmEncrypted = h.networkMessageEncrypted ∧
      bitSet h.flags securityHeaderSecFooterEnabled = h.securityFooterEnabled ∧
      bitSet h.flags securityHeaderForceKeyReset = h.forceKeyReset := by
  have hbits : ∀ a b c d : Bool,
      let v := maskBit a securityHeaderNmSigned ||| maskBit b securityHeaderNmEncrypted |||
        maskBit c securityHeaderSecFooterEnabled ||| maskBit d securityHeaderForceKeyReset
      bitSet v securityHeaderNmSigned = a ∧ bitSet v securityHeaderNmEncrypted = b ∧
        bitSet v securityHeaderSecFooterEnabled = c ∧
        bitSet v securityHeaderForceKeyReset = d := by decide
  exact hbits ..

/-! ## What is received -/

/-- The sections of a group header that are disabled are zero. -/
structure NetworkMessageGroupHeader.IsZeroed (g : NetworkMessageGroupHeader) : Prop where
  writerGroupId : g.writerGroupIdEnabled = false → g.writerGroupId = 0
  groupVersion : g.groupVersionEnabled = false → g.groupVersion = 0
  networkMessageNumber : g.networkMessageNumberEnabled = false → g.networkMessageNumber = 0
  sequenceNumber : g.sequenceNumberEnabled = false → g.sequenceNumber = 0

/-- What is disabled, or not part of the UADP format, is zero. -/
structure NetworkMessage.Canonical (m : NetworkMessage) : Prop where
  version : m.version ≤ 15
  noMessageId : m.messageIdEnabled = false ∧ m.messageId = none
  publisherId : m.publisherIdEnabled = false →
    m.publisherId = .zeroOfType m.publisherId.typeByte
  dataSetClassId : m.dataSetClassIdEnabled = false → m.dataSetClassId = default
  groupHeader : m.groupHeaderEnabled = false → m.groupHeader = default
  groupHeaderMembers : m.groupHeader.IsZeroed
  payloadHeader : m.payloadHeaderEnabled = false → m.payloadHeader = default
  timestamp : m.timestampEnabled = false → m.timestamp = 0
  picoseconds : m.picosecondsEnabled = false → m.picoseconds = 0
  promotedFields : m.promotedFieldsEnabled = false →
    m.promotedFieldsSize = 0 ∧ m.promotedFields.getD [] = []
  securityHeader : m.securityEnabled = false → m.securityHeader = default
  securityFooterSize : m.securityHeader.securityFooterEnabled = false →
    m.securityHeader.securityFooterSize = 0
  securityFooter : m.securityHeader.securityFooterEnabled = false → m.securityFooter.getD [] = []
  signature : m.securityHeader.networkMessageSigned = false → m.signature = none
  messages : ∀ d ∈ m.payload.dataSetMessages.getD [], d.Canonical

namespace NetworkMessage

/-- What the decoder makes of a message: the sizes are those that were written. -/
def received (S : FieldSpec) (m : NetworkMessage) : NetworkMessage :=
  { m with
    promotedFields := nullIfEmpty (m.promotedFields.map (·.map (·.map VariantOf.trimmed)))
    securityHeader := { m.securityHeader with
      messageNonce := nullIfEmpty m.securityHeader.messageNonce }
    payload := {
      sizes :=
        if m.payloadHeaderEnabled && decide (m.payloadHeader.count > 1) then
          some ((List.range m.payloadHeader.count.toNat).map (writtenSize S m))
        else none
      dataSetMessages :=
        some ((m.payload.dataSetMessages.getD []).map DataSetMessage.received) }
    securityFooter := nullIfEmpty m.securityFooter }

/-- The first `k` sections behind the flags, and zero for what follows them. -/
def readUpTo (k : Nat) (r : NetworkMessage) : NetworkMessage :=
  { r with
    publisherId := if 1 ≤ k then r.publisherId else .zeroOfType r.publisherId.typeByte
    dataSetClassId := if 2 ≤ k then r.dataSetClassId else default
    groupHeader := if 3 ≤ k then r.groupHeader else default
    payloadHeader := if 4 ≤ k then r.payloadHeader else default
    timestamp := if 5 ≤ k then r.timestamp else 0
    picoseconds := if 6 ≤ k then r.picoseconds else 0
    promotedFieldsSize := if 7 ≤ k then r.promotedFieldsSize else 0
    promotedFields := if 7 ≤ k then r.promotedFields else none
    securityHeader := if 8 ≤ k then r.securityHeader else default
    payload := {
      sizes := if 9 ≤ k then r.payload.sizes else none
      dataSetMessages := if 10 ≤ k then r.payload.dataSetMessages else none }
    securityFooter := if 11 ≤ k then r.securityFooter else none
    signature := if 12 ≤ k then r.signature else none }

end NetworkMessage

/-! ## The header sections -/

/-- The three flag bytes. Where one is not written its fields are at their defaults. -/
theorem decodesTo_flags (htype : m.networkMessageType = .dataSet) (hm : m.Canonical) :
    DecodesTo src (pieceBytes (flagsPieces m)) default (m.readUpTo 0) (flagsDecodeBinary src) := by
  obtain ⟨hversion, hpublisher, hgroup, hpayload, hflags1⟩ := uadpFlags_fields hm.version
  obtain ⟨hid, hclass, hsecurity, htime, hpico, hflags2⟩ := extendedFlags1_fields m
  obtain ⟨hchunk, hpromoted, hkind⟩ := extendedFlags2_fields htype
  -- what the first two bytes leave of the third, and the first byte of the other two
  let second : NetworkMessage := { m.readUpTo 0 with
    chunkMessage := false, promotedFieldsEnabled := false, networkMessageType := .dataSet }
  let first : NetworkMessage := { second with
    publisherId := default, dataSetClassIdEnabled := false, securityEnabled := false,
    timestampEnabled := false, picosecondsEnabled := false }
  have hthird : DecodesTo src [m.extendedFlags2] second (m.readUpTo 0)
      (extendedFlags2DecodeBinary src) := by
    refine decodesTo_localAssign (readsAt_uaByte _) ?_
    simp only [hchunk, hpromoted, hkind]
    rfl
  have hnothird : m.extendedFlags2Enabled = false → second = m.readUpTo 0 := by
    intro hflags
    simp only [NetworkMessage.extendedFlags2Enabled, Bool.or_eq_false_iff] at hflags
    obtain ⟨⟨hchunk, hpromoted⟩, -⟩ := hflags
    simp only [second, NetworkMessage.readUpTo, hchunk, hpromoted, htype]
  have hsecond : DecodesTo src ([m.extendedFlags1] ++
      if m.extendedFlags2Enabled then [m.extendedFlags2] else []) first (m.readUpTo 0)
      (extendedFlags1DecodeBinary src) := by
    refine decodesTo_local (readsAt_uaByte _) (DecodesTo.bind (e := second) (decodesTo_assign ?_)
      (decodesTo_onBit hflags2 (fun _ => hthird) hnothird))
    simp only [hid, hclass, hsecurity, htime, hpico]
    rfl
  have hnosecond : m.extendedFlags1Enabled = false → first = m.readUpTo 0 := by
    intro hflags
    simp only [NetworkMessage.extendedFlags1Enabled, Bool.or_eq_false_iff, bne_eq_false_iff_eq]
      at hflags
    obtain ⟨⟨⟨⟨⟨hid, hclass⟩, hsecurity⟩, htime⟩, hpico⟩, hflags⟩ := hflags
    rw [← hnothird hflags]
    simp only [first, second, NetworkMessage.readUpTo, hid, hclass, hsecurity, htime, hpico]
    rfl
  refine (decodesTo_local (readsAt_uaByte m.uadpFlags) (DecodesTo.bind (e := first)
    (decodesTo_assign ?_) (decodesTo_onBit hflags1 (fun _ => hsecond) hnosecond))).congr ?_ rfl
  · simp only [hversion, hpublisher, hgroup, hpayload, first, second, NetworkMessage.readUpTo,
      hm.noMessageId.1, hm.noMessageId.2]
    rfl
  · simp only [flagsPieces, pieceBytes_append, pieceBytes_ite, pieceBytes_cons, pieceBytes_nil,
      List.append_nil, List.nil_append]

/-- The type of the id was read with the flags. -/
theorem decodesTo_publisherId (hT : StandardTypes T) {id : PublisherId} (hid : id.fits = true)
    {s : NetworkMessage} (hs : s.publisherId = .zeroOfType id.typeByte) :
    DecodesTo src (publisherIdBytes id) s { s with publisherId := id }
      (publisherIdDecodeBinary src T) := by
  refine decodesTo_current ?_
  rw [hs]
  cases id with
  | byte v => exact decodesTo_into (readsAt_uaByte v) rfl
  | uint16 v => exact decodesTo_into (readsAt_uaUInt16 v) rfl
  | uint32 v => exact decodesTo_into (readsAt_uaUInt32 v) rfl
  | uint64 v => exact decodesTo_into (readsAt_uaUInt64 v) rfl
  | string v => exact decodesTo_into (readsAt_uaString hT hid) rfl
  | reserved v => cases hid

/-- The group header: what a clear flag leaves out is zero. -/
theorem decodesTo_groupHeader {g : NetworkMessageGroupHeader} (hg : g.IsZeroed) :
    DecodesTo src (pieceBytes (groupHeaderPieces g)) default g (groupHeaderDecodeBinary src) := by
  obtain ⟨hid, hversion, hnumber, hseq⟩ := groupHeaderFlags_fields g
  -- the flags put zeros, and each section its member
  refine DecodesTo.congr (decodesTo_local (readsAt_uaByte g.flags)
    (DecodesTo.bind (e := { g with
        writerGroupId := 0, groupVersion := 0, networkMessageNumber := 0, sequenceNumber := 0 })
      (decodesTo_assign ?_)
      ((decodesTo_member (e := { g with
          groupVersion := 0, networkMessageNumber := 0, sequenceNumber := 0 }) rfl
        (fun _ => readsAt_uaUInt16 _) rfl fun hc => ?_).bind
        ((decodesTo_member (e := { g with networkMessageNumber := 0, sequenceNumber := 0 }) rfl
          (fun _ => readsAt_uaUInt32 _) rfl fun hc => ?_).bind
          ((decodesTo_member (e := { g with sequenceNumber := 0 }) rfl
            (fun _ => readsAt_uaUInt16 _) rfl fun hc => ?_).bind
            (decodesTo_member (e := g) rfl (fun _ => readsAt_uaUInt16 _) rfl
              fun hc => ?_)))))) ?_ rfl
  · simp only [hid, hversion, hnumber, hseq]
    rfl
  · simp only [hg.writerGroupId hc]
  · simp only [hg.groupVersion hc]
  · simp only [hg.networkMessageNumber hc]
  · simp only [← hg.sequenceNumber hc]
  · simp only [groupHeaderPieces, pieceBytes_append, pieceBytes_ite, pieceBytes_cons,
      pieceBytes_nil, List.append_nil, List.nil_append]

/-- An array of 16-bit numbers. -/
theorem decodesTo_uint16Array {M : Type} (get : M → Option (List UInt16))
    (put : Option (List UInt16) → M → M) (hget : ∀ xs d, get (put xs d) = xs)
    (hput : ∀ xs ys d, put ys (put xs d) = put ys d) {xs : List UInt16} {n : Nat}
    (hn : xs.length = n) (d : M) :
    DecodesTo src (xs.flatMap fun v => leBytes 2 v.toNat) d (put (some xs) d)
      (uint16ArrayDecodeBinary src n get put) := by
  have hloop : DecodesTo src (xs.flatMap fun v => leBytes 2 v.toNat)
      (put (some (List.replicate n 0)) d) (put (some (xs.map fun v => v)) d)
      (forUpTo n fun i => decodeInto (uaUInt16DecodeBinary src) fun v m =>
        put ((get m).map (·.set i v)) m) :=
    decodesTo_forUpTo (fun xs => put (some xs) d) hn fun pre post v _ =>
      decodesTo_into (readsAt_uaUInt16 v) (by
        rw [hget, hput, Option.map_some, List.set_append_right _ _ (Nat.le_refl _), Nat.sub_self,
          List.set_cons_zero])
  rw [List.map_id'] at hloop
  exact (decodesTo_assign rfl).bind hloop

/-- The payload header: the counter and as many writer ids. -/
theorem decodesTo_payloadHeader {s : NetworkMessage} (htype : s.networkMessageType = .dataSet)
    {h : DataSetPayloadHeader} {ids : List UInt16} (hids : h.dataSetWriterIds = some ids)
    (hlen : ids.length = h.count.toNat) :
    DecodesTo src ([h.count] ++ ids.flatMap fun id => leBytes 2 id.toNat) s
      { s with payloadHeader := h } (payloadHeaderDecodeBinary src) := by
  refine decodesTo_current ?_
  rw [if_neg (not_not_intro htype)]
  have harray := fun d => @decodesTo_uint16Array src _
    (fun m : NetworkMessage => m.payloadHeader.dataSetWriterIds)
    (fun ids m => { m with payloadHeader := { m.payloadHeader with dataSetWriterIds := ids } })
    (fun _ _ => rfl) (fun _ _ _ => rfl) _ _ hlen d
  refine ((decodesTo_into (readsAt_uaByte h.count) rfl).bind (decodesTo_current (harray _))).congr
    rfl ?_
  rw [← hids]

/-! ## Promoted fields -/

/-- No Variant takes no bytes. -/
theorem FieldSpec.ReadsBack.pos {f : DataValue} (h : S.ReadsBack T .variant f) :
    0 < (S.bytes .variant f).length := by
  refine List.length_pos_iff.mpr fun hnil => ?_
  have hread := h.variant rfl [] 0 (by rw [hnil]; exact at_nil _ _)
  have hfail : uaVariantDecodeBinary [] T 0 = .fail badDecodingError 0 := rfl
  rw [hfail] at hread
  cases hread

/-- The message with these promoted fields behind those it has. -/
def NetworkMessage.addPromoted (s : NetworkMessage) (vs : List Variant) : NetworkMessage :=
  { s with
    promotedFields := some (s.promotedFields.getD [] ++ vs.map fun v => .init v.trimmed)
    promotedFieldsSize := UInt16.ofNat ((s.promotedFields.getD []).length + vs.length) }

/-- One promoted field, appended to those that were read before. -/
theorem decodesTo_promotedField {v : Variant} (hv : S.ReadsBack T .variant (fieldOfVariant v))
    {s : NetworkMessage} {counter : Nat} (hs : (s.promotedFields.getD []).length = counter) :
    DecodesTo src (S.bytes .variant (fieldOfVariant v)) s (s.addPromoted [v])
      (promotedFieldDecodeBinary src T counter) := by
  subst hs
  have hmodify : ∀ (b : Slot Variant) (f : Slot Variant → Slot Variant) (n : UInt16),
      NetworkMessage.onPromotedField (s.promotedFields.getD []).length f
        { s with
          promotedFields := some (s.promotedFields.getD [] ++ [b]), promotedFieldsSize := n } =
      { s with
        promotedFields := some (s.promotedFields.getD [] ++ [f b]), promotedFieldsSize := n } :=
    fun b f n => by simp only [NetworkMessage.onPromotedField, Option.map_some, modify_middle]
  exact ((decodesTo_assign rfl).bind ((decodesTo_assign (hmodify _ _ _)).bind
    (decodesTo_into (hv.variant rfl src) (hmodify _ _ _)))).congr (by simp) rfl

/-- The loop stops behind the last field. The induction is on the fields left. -/
theorem promotedFieldsLoop_run (vs : List Variant) :
    ∀ (v : Variant) (s : NetworkMessage) (p fuel counter : Nat),
      (∀ w ∈ v :: vs, S.ReadsBack T .variant (fieldOfVariant w)) →
      At src p ((v :: vs).flatMap fun w => S.bytes .variant (fieldOfVariant w)) →
      vs.length < fuel → (s.promotedFields.getD []).length = counter →
        promotedFieldsLoop src T
          (p + ((v :: vs).flatMap fun w => S.bytes .variant (fieldOfVariant w)).length) fuel counter
          ⟨p, s⟩ =
        .done () ⟨p + ((v :: vs).flatMap fun w => S.bytes .variant (fieldOfVariant w)).length,
          s.addPromoted (v :: vs)⟩ := by
  induction vs with
  | nil =>
    intro v s p fuel counter hback hat hfuel hs
    obtain ⟨fuel, rfl⟩ : ∃ n, fuel = n + 1 := ⟨fuel - 1, by omega⟩
    simp only [List.flatMap_cons, List.flatMap_nil, List.append_nil] at hat ⊢
    have hv := decodesTo_promotedField (hback v (List.mem_cons_self ..)) hs p hat
    rw [promotedFieldsLoop, bind_done hv, bind_done (gets_run _ _), if_neg (Nat.lt_irrefl _)]
    rfl
  | cons w ws ih =>
    intro v s p fuel counter hback hat hfuel hs
    obtain ⟨fuel, rfl⟩ : ∃ n, fuel = n + 1 := ⟨fuel - 1, by omega⟩
    obtain ⟨hv, hws⟩ := List.forall_mem_cons.mp hback
    have hpos := (hws w (List.mem_cons_self ..)).pos
    rw [List.flatMap_cons] at hat ⊢
    obtain ⟨hatv, hatws⟩ := at_append.mp hat
    have hfirst := decodesTo_promotedField hv hs p hatv
    -- there is another field behind this one, of one byte at least
    have hmore : p + (S.bytes .variant (fieldOfVariant v)).length <
        p + (S.bytes .variant (fieldOfVariant v) ++
          (w :: ws).flatMap fun w => S.bytes .variant (fieldOfVariant w)).length := by
      simp only [List.length_append, List.flatMap_cons]
      omega
    have ih := ih w (s.addPromoted [v]) _ fuel (counter + 1) hws hatws
      (by simp only [List.length_cons] at hfuel; omega) (by simp [NetworkMessage.addPromoted, hs])
    rw [promotedFieldsLoop, bind_done hfirst, bind_done (gets_run _ _), if_pos hmore,
      List.length_append, ← Nat.add_assoc, ih]
    simp [NetworkMessage.addPromoted, Nat.add_assoc, Nat.add_comm 1]

theorem promoted_received (hm : PromotedFilled (S.ReadsBack T) m) :
    (m.received S).promotedFields =
      nullIfEmpty (some (m.promoted.map fun v => .init v.trimmed)) := by
  refine nullIfEmpty_congr ?_
  rw [getD_map_list, hm.init, List.map_map]
  rfl

/-- The promoted fields: the loop ends where their declared size does. -/
theorem decodesTo_promotedFields (hm : PromotedFilled (S.ReadsBack T) m)
    (hsize : (m.promoted.flatMap fun v => S.bytes .variant (fieldOfVariant v)).length ≤ 65535)
    {s : NetworkMessage} (hs : s.promotedFields = none) (hs' : s.promotedFieldsSize = 0) :
    DecodesTo src (leBytes 2 (promotedSize S m).toNat ++
        m.promoted.flatMap fun v => S.bytes .variant (fieldOfVariant v)) s
      { s with
        promotedFieldsSize := m.promotedFieldsSize
        promotedFields := (m.received S).promotedFields }
      (promotedFieldsDecodeBinary src T) := by
  have hword : (promotedSize S m).toNat =
      (m.promoted.flatMap fun v => S.bytes .variant (fieldOfVariant v)).length := by
    rw [promotedSize, UInt16.toNat_ofNat', Nat.mod_eq_of_lt (by omega)]
  have hlen := hm.length
  refine decodesTo_local (readsAt_uaUInt16 _) ?_
  rw [promoted_received hm]
  cases hvs : m.promoted with
  -- the size 0: the loop is not entered
  | nil =>
    rw [hvs] at hword hlen
    have hzero : ¬ promotedSize S m > 0 := by
      rw [gt_iff_lt, UInt16.lt_iff_toNat_lt, hword]
      exact Nat.lt_irrefl 0
    have hnone : m.promotedFieldsSize = 0 := UInt16.toNat_inj.mp hlen.symm
    rw [if_neg hzero, hnone]
    have hsame : s = { s with promotedFieldsSize := 0, promotedFields := none } := by
      rw [← hs', ← hs]
    exact decodesTo_pure.congr rfl hsame
  | cons v vs =>
    have hback := hm.fields
    rw [hvs] at hword hlen hback
    -- a Variant takes a byte at least, so the size is fuel for all of them
    have hcount : vs.length < (promotedSize S m).toNat := by
      have hle : 0 * (v :: vs).length ≤ _ ∧ (v :: vs).length ≤
          ((v :: vs).flatMap fun w => S.bytes .variant (fieldOfVariant w)).length :=
        le_length_flatMap fun w hw => ⟨Nat.zero_le _, (hback w hw).pos⟩
      rw [hword]
      exact hle.2
    have hpos : promotedSize S m > 0 := by
      rw [gt_iff_lt, UInt16.lt_iff_toNat_lt]
      exact Nat.lt_of_le_of_lt (Nat.zero_le _) hcount
    rw [if_pos hpos]
    rw [hword] at hcount
    intro p hat
    have hrun := promotedFieldsLoop_run vs v s p _ 0 hback hat hcount (by rw [hs]; rfl)
    rw [bind_done (gets_run _ _), hword]
    refine hrun.trans ?_
    have hadd : s.addPromoted (v :: vs) = { s with
        promotedFieldsSize := m.promotedFieldsSize
        promotedFields := nullIfEmpty (some ((v :: vs).map fun v => .init v.trimmed)) } := by
      have hsize : m.promotedFieldsSize = UInt16.ofNat (v :: vs).length := by
        rw [hlen, UInt16.ofNat_toNat]
      rw [NetworkMessage.addPromoted, hs, hsize]
      simp [nullIfEmpty]
    rw [hadd]

/-! ## Security header and trailer -/

/-- The nonce, byte by byte. -/
theorem decodesTo_messageNonce {nonce : Bytes} {s : NetworkMessageSecurityHeader}
    (hlen : nonce.length = s.nonceLength.toNat) :
    DecodesTo src nonce s { s with messageNonce := some nonce } (messageNonceDecodeBinary src) := by
  have hloop : DecodesTo src (nonce.flatMap fun b => [b])
      { s with messageNonce := some (List.replicate s.nonceLength.toNat 0) }
      { s with messageNonce := some (nonce.map fun b => b) }
      (forUpTo s.nonceLength.toNat fun i => decodeInto (uaByteDecodeBinary src) fun v h =>
        { h with messageNonce := h.messageNonce.map (·.set i v) }) :=
    decodesTo_forUpTo (fun bytes => { s with messageNonce := some bytes }) hlen fun pre post v _ =>
      decodesTo_into (readsAt_uaByte v) (by
        rw [Option.map_some, List.set_append_right _ _ (Nat.le_refl _), Nat.sub_self,
          List.set_cons_zero])
  rw [List.map_id'] at hloop
  refine (decodesTo_current ((decodesTo_assign rfl).bind hloop)).congr ?_ rfl
  simp

/-- The security header. -/
theorem decodesTo_securityHeader {h : NetworkMessageSecurityHeader}
    (hnonce : (h.messageNonce.getD []).length = h.nonceLength.toNat)
    (hsize : h.securityFooterEnabled = false → h.securityFooterSize = 0) :
    DecodesTo src (pieceBytes (securityHeaderPieces h)) default
      { h with messageNonce := nullIfEmpty h.messageNonce } (securityHeaderDecodeBinary src) := by
  obtain ⟨hsigned, hencrypted, hfooter, hreset⟩ := securityHeaderFlags_fields h
  have hpos : h.nonceLength > 0 ↔ h.messageNonce.getD [] ≠ [] := by
    rw [gt_iff_lt, UInt8.lt_iff_toNat_lt, ← hnonce, ← List.length_pos_iff]
    rfl
  -- a nonce without bytes comes back as NULL
  have hsection : DecodesTo src
      (if decide (h.nonceLength > 0) then h.messageNonce.getD [] else [])
      { h with messageNonce := none, securityFooterSize := 0 }
      { h with messageNonce := nullIfEmpty h.messageNonce, securityFooterSize := 0 }
      (onFlag (·.nonceLength > 0) (messageNonceDecodeBinary src)) := by
    refine decodesTo_onFlag rfl (fun hc => ?_) fun hc => ?_
    · have hne := hpos.mp (of_decide_eq_true hc)
      rw [nullIfEmpty_of_ne_nil hne]
      exact decodesTo_messageNonce hnonce
    · have hnil : h.messageNonce.getD [] = [] := by
        by_cases hne : h.messageNonce.getD [] = []
        · exact hne
        · exact absurd (hpos.mpr hne) (of_decide_eq_false hc)
      rw [nullIfEmpty_of_nil hnil]
  refine DecodesTo.congr (decodesTo_local (readsAt_uaByte h.flags)
    (DecodesTo.bind (e := { h with
        securityTokenId := 0, nonceLength := 0, messageNonce := none, securityFooterSize := 0 })
      (decodesTo_assign ?_)
      ((decodesTo_into (e := { h with
          nonceLength := 0, messageNonce := none, securityFooterSize := 0 })
        (readsAt_uaUInt32 h.securityTokenId) rfl).bind
        ((decodesTo_into (e := { h with messageNonce := none, securityFooterSize := 0 })
          (readsAt_uaByte h.nonceLength) rfl).bind
          (hsection.bind
            (decodesTo_member (e := { h with messageNonce := nullIfEmpty h.messageNonce }) rfl
              (fun _ => readsAt_uaUInt16 h.securityFooterSize) rfl fun hc => ?_)))))) ?_ rfl
  · simp only [hsigned, hencrypted, hfooter, hreset]
    rfl
  · simp only [← hsize hc]
  · simp only [securityHeaderPieces, pieceBytes_append, pieceBytes_ite, pieceBytes_cons,
      pieceBytes_nil, List.append_nil, List.nil_append]

/-- The message with this footer. -/
def NetworkMessage.withFooter (s : NetworkMessage) (footer : Bytes) : NetworkMessage :=
  { s with securityFooter := some footer }

/-- One byte of the footer, written over the zero that stood there. -/
theorem decodesTo_securityFooterByte (s : NetworkMessage) (front rest : Bytes)
    (b : UInt8) {i : UInt8}
    (hi : i.toNat = front.length) :
    DecodesTo src [b] (s.withFooter (front ++ List.replicate (rest.length + 1) 0))
      (s.withFooter ((front ++ [b]) ++ List.replicate rest.length 0))
      (securityFooterByteDecodeBinary src i) := by
  refine decodesTo_into (readsAt_uaByte b) ?_
  simp only [NetworkMessage.withFooter, Option.map_some, List.replicate_succ, hi,
    List.set_append_right _ _ (Nat.le_refl _), Nat.sub_self, List.set_cons_zero,
    List.append_assoc, List.singleton_append]

/-- With a footer that the 8-bit counter can reach the end of, the loop reads all its bytes.
The induction is on the bytes left; `front` are those that were read. -/
theorem securityFooterLoop_run {s : NetworkMessage}
    (hsize : s.securityHeader.securityFooterSize.toNat ≤ 255) (rest : Bytes) :
    ∀ (front : Bytes) (i : UInt8) (fuel p : Nat), rest.length < fuel → i.toNat = front.length →
      front.length + rest.length = s.securityHeader.securityFooterSize.toNat → At src p rest →
        securityFooterLoop src fuel i
            ⟨p, s.withFooter (front ++ List.replicate rest.length 0)⟩ =
          .done () ⟨p + rest.length, s.withFooter (front ++ rest)⟩ := by
  have hstep : ∀ (fuel p : Nat) (i : UInt8) (f : Bytes),
      securityFooterLoop src (fuel + 1) i ⟨p, s.withFooter f⟩ =
        (if i.toNat < s.securityHeader.securityFooterSize.toNat then
          securityFooterByteDecodeBinary src i >>= fun _ => securityFooterLoop src fuel (i + 1)
        else pure () : Decoder NetworkMessage Unit) ⟨p, s.withFooter f⟩ := fun _ _ _ _ => rfl
  induction rest with
  | nil =>
    intro front i fuel p hfuel hi hlen hat
    obtain ⟨fuel, rfl⟩ : ∃ n, fuel = n + 1 := ⟨fuel - 1, by omega⟩
    rw [List.length_nil, Nat.add_zero] at hlen
    rw [hstep, if_neg (by omega)]
    rfl
  | cons b rest ih =>
    intro front i fuel p hfuel hi hlen hat
    obtain ⟨fuel, rfl⟩ : ∃ n, fuel = n + 1 := ⟨fuel - 1, by omega⟩
    obtain ⟨hatb, hatrest⟩ := at_append.mp (show At src p ([b] ++ rest) from hat)
    rw [List.length_cons] at hlen hfuel
    have hbyte := decodesTo_securityFooterByte s front rest b hi p hatb
    -- at most 255 bytes, so the counter does not wrap around
    have hnext : (i + 1).toNat = (front ++ [b]).length := by
      rw [UInt8.toNat_add, hi, List.length_append]
      show (front.length + 1) % 256 = front.length + 1
      omega
    have ih := ih (front ++ [b]) (i + 1) fuel (p + [b].length) (by omega) hnext
      (by rw [List.length_append, List.length_singleton]; omega) hatrest
    rw [List.length_cons, hstep, if_pos (by omega), bind_done hbyte, ih]
    simp [Nat.add_assoc, Nat.add_comm 1]

/-- A footer of length zero is a NULL pointer when it comes back. -/
theorem decodesTo_securityFooter {s : NetworkMessage} {footer : UAString} {c : Bool}
    (hc : s.securityHeader.securityFooterEnabled = c) (hnil : c = false → footer.getD [] = [])
    (hlen : c = true → (footer.getD []).length = s.securityHeader.securityFooterSize.toNat)
    (hsize : c = true → s.securityHeader.securityFooterSize.toNat ≤ 255)
    (hnone : s.securityFooter = none) :
    DecodesTo src (if c then footer.getD [] else []) s
      { s with securityFooter := nullIfEmpty footer } (securityFooterDecodeBinary src) := by
  refine decodesTo_current ?_
  rw [hc]
  by_cases hempty : footer.getD [] = []
  · have hoff : ¬ (c = true ∧ s.securityHeader.securityFooterSize > 0) := by
      rintro ⟨henabled, hpos⟩
      rw [gt_iff_lt, UInt16.lt_iff_toNat_lt, ← hlen henabled, hempty] at hpos
      exact Nat.lt_irrefl 0 hpos
    have hbytes : [] = if c then footer.getD [] else [] := by
      rw [hempty]
      exact (ite_self []).symm
    have hsame : s = { s with securityFooter := nullIfEmpty footer } := by
      rw [nullIfEmpty_of_nil hempty, ← hnone]
    rw [if_neg hoff]
    exact decodesTo_pure.congr hbytes hsame
  · cases c with
    | false => exact absurd (hnil rfl) hempty
    | true =>
      have hlen := hlen rfl
      have hpos : s.securityHeader.securityFooterSize > 0 := by
        rw [gt_iff_lt, UInt16.lt_iff_toNat_lt, ← hlen]
        exact List.length_pos_iff.mpr hempty
      rw [nullIfEmpty_of_ne_nil hempty, if_pos rfl, if_pos ⟨rfl, hpos⟩]
      intro p hat
      have hfuel := hat.le_length_of_pos (List.length_pos_iff.mpr hempty)
      have hrun := securityFooterLoop_run (hsize rfl) (footer.getD []) [] 0 (src.length + 1) p
        (by omega) rfl (by rw [List.length_nil, Nat.zero_add, hlen]) hat
      rw [hlen, List.nil_append] at hrun
      rw [hlen]
      exact hrun

/-- The footer and the signature. -/
theorem decodesTo_securityTrailer (hT : StandardTypes T) (hfilled : SecurityFilled m)
    (hfits : m.securityHeader.networkMessageSigned = true → stringFits m.signature = true)
    (hm : m.Canonical) {s : NetworkMessage}
    (hfooter : s.securityHeader.securityFooterEnabled = m.securityHeader.securityFooterEnabled)
    (hfooterSize : s.securityHeader.securityFooterSize = m.securityHeader.securityFooterSize)
    (hsigned : s.securityHeader.networkMessageSigned = m.securityHeader.networkMessageSigned)
    (hnone : s.securityFooter = none ∧ s.signature = none) :
    DecodesTo src (pieceBytes (trailerPieces m)) s
      { s with securityFooter := nullIfEmpty m.securityFooter, signature := m.signature }
      (securityTrailerDecodeBinary src T) := by
  have hread : DecodesTo src _ s _ (securityFooterDecodeBinary src) :=
    decodesTo_securityFooter hfooter hm.securityFooter
      (fun h => by rw [hfooterSize]; exact hfilled.footer h)
      (fun h => by rw [hfooterSize]; exact hfilled.footerSize h) hnone.1
  refine (hread.bind (decodesTo_member hsigned (fun h => readsAt_uaString hT (hfits h)) rfl
    fun h => ?_)).congr ?_ rfl
  · rw [hm.signature h, ← hnone.2]
  · simp only [trailerPieces, pieceBytes_append, pieceBytes_ite, pieceBytes_cons, pieceBytes_nil,
      List.append_nil]

/-! ## The payload -/

/-- The message with these sizes. -/
def NetworkMessage.withSizes (s : NetworkMessage) (sizes : Option (List UInt16)) : NetworkMessage :=
  { s with payload := { s.payload with sizes := sizes } }

/-- The sizes: there are none with a single DataSetMessage. -/
theorem decodesTo_sizes {s : NetworkMessage}
    (henabled : s.payloadHeaderEnabled = m.payloadHeaderEnabled)
    (hheader : s.payloadHeader = m.payloadHeader) (hnone : s.payload.sizes = none) :
    DecodesTo src (pieceBytes (sizesPieces S m)) s (s.withSizes (m.received S).payload.sizes)
      (sizesDecodeBinary src) := by
  refine decodesTo_current ?_
  rw [henabled, hheader]
  unfold sizesPieces NetworkMessage.received
  cases hc : m.payloadHeaderEnabled && decide (m.payloadHeader.count > 1) with
  | false =>
    have hoff : ¬ (m.payloadHeaderEnabled = true ∧ m.payloadHeader.count > 1) := by
      simpa using hc
    have hsame : s = s.withSizes none := by rw [NetworkMessage.withSizes, ← hnone]
    rw [if_neg hoff]
    exact decodesTo_pure.congr rfl hsame
  | true =>
    have hon : m.payloadHeaderEnabled = true ∧ m.payloadHeader.count > 1 := by simpa using hc
    have harray := @decodesTo_uint16Array src _ (fun m : NetworkMessage => m.payload.sizes)
      (fun sizes m => { m with payload := { m.payload with sizes := sizes } }) (fun _ _ => rfl)
      (fun _ _ _ => rfl) ((List.range m.payloadHeader.count.toNat).map (writtenSize S m)) _
      (by rw [List.length_map, List.length_range]) s
    rw [if_pos hon]
    exact harray.congr (by simp [List.flatMap_map]) rfl

/-- The message with these DataSetMessages. -/
def NetworkMessage.withDataSetMessages (s : NetworkMessage) (ds : List DataSetMessage) :
    NetworkMessage :=
  { s with payload := { s.payload with dataSetMessages := some ds } }

/-- One DataSetMessage, written over the zeroed one that stood there. -/
theorem decodesTo_payloadMessage {d : DataSetMessage} (hfilled : d.Filled (S.ReadsBack T))
    (hd : d.Canonical) (s : NetworkMessage) (pre post : List DataSetMessage) :
    DecodesTo src (dataSetMessageBytes S d) (s.withDataSetMessages (pre ++ default :: post))
      (s.withDataSetMessages (pre ++ d.received :: post))
      (decodePart (NetworkMessage.dataSetMessageAt pre.length)
        (NetworkMessage.setDataSetMessage pre.length) (dataSetMessageDecodeBinary src T)) := by
  refine (decodesTo_part (decodesTo_dataSetMessage hfilled hd _)).congr rfl ?_
  simp only [NetworkMessage.setDataSetMessage, NetworkMessage.withDataSetMessages, Option.map_some,
    List.set_append_right _ _ (Nat.le_refl _), Nat.sub_self, List.set_cons_zero]

theorem pieceBytes_messages (S : FieldSpec) (m : NetworkMessage) :
    pieceBytes (messagesPieces S m) =
      (m.payload.dataSetMessages.getD []).flatMap (dataSetMessageBytes S) :=
  pieceBytes_zipIdx (fun i d _ => pieceBytes_dataSetMessage S i d) 0

/-- All DataSetMessages, one behind the other. -/
theorem decodesTo_dataSetMessages (hfilled : PayloadFilled (S.ReadsBack T) m) (hm : m.Canonical)
    {s : NetworkMessage} (hcount : s.dataSetMessageCount = m.dataSetMessageCount) :
    DecodesTo src (pieceBytes (messagesPieces S m)) s
      (s.withDataSetMessages ((m.payload.dataSetMessages.getD []).map DataSetMessage.received))
      (dataSetMessagesDecodeBinary src T) := by
  rw [pieceBytes_messages]
  refine decodesTo_current ((decodesTo_assign rfl).bind ?_)
  rw [hcount]
  exact decodesTo_forUpTo s.withDataSetMessages hfilled.length fun pre post d hd =>
    decodesTo_payloadMessage (hfilled.messages d hd) (hm.messages d hd) s pre post

/-! ## The whole message -/

/-- The message as the sections behind the flags fill it. -/
def NetworkMessage.stage (S : FieldSpec) (m : NetworkMessage) (k : Nat) : NetworkMessage :=
  (m.received S).readUpTo k

/-- All sections before the payload. Each is read into what the sections before it left. -/
theorem decodesTo_headers (hT : StandardTypes T) (hfilled : m.Filled (S.ReadsBack T))
    (hencodable : m.Encodable S) (hm : m.Canonical)
    (hpromoted : m.promotedFieldsEnabled = true →
      (m.promoted.flatMap fun v => S.bytes .variant (fieldOfVariant v)).length ≤ 65535)
    (old : NetworkMessage) :
    DecodesTo src (pieceBytes (headPieces m ++
      ((if m.payloadHeaderEnabled then payloadHeaderPieces m else []) ++
        (extendedHeaderPieces S m ++
          if m.securityEnabled then securityHeaderPieces m.securityHeader else [])))) old
      (m.stage S 8) (headersDecodeBinary src T) := by
  -- stage by stage; what is disabled was zero, and stays so
  have hflags : DecodesTo src (pieceBytes (flagsPieces m)) default (m.stage S 0)
      (flagsDecodeBinary src) := decodesTo_flags hfilled.type hm
  have hid : DecodesTo src (if m.publisherIdEnabled then publisherIdBytes m.publisherId else [])
      (m.stage S 0) (m.stage S 1) (onFlag (·.publisherIdEnabled) (publisherIdDecodeBinary src T)) :=
    decodesTo_onFlag rfl (fun h => decodesTo_publisherId hT (hencodable.publisherId h) rfl)
      fun h => by
        have hzero := hm.publisherId h
        simp only [NetworkMessage.stage, NetworkMessage.readUpTo, NetworkMessage.received, ← hzero]
        rfl
  have hclass : DecodesTo src (if m.dataSetClassIdEnabled then m.dataSetClassId.memory else [])
      (m.stage S 1) (m.stage S 2) (onFlag (·.dataSetClassIdEnabled) <|
        decodeInto (uaGuidDecodeBinary src) fun v m => { m with dataSetClassId := v }) :=
    decodesTo_member rfl (fun _ => readsAt_uaGuid _) rfl fun h => by
      have hzero := hm.dataSetClassId h
      simp only [NetworkMessage.stage, NetworkMessage.readUpTo, NetworkMessage.received, hzero]
      rfl
  have hgroup : DecodesTo src (if m.groupHeaderEnabled then
      pieceBytes (groupHeaderPieces m.groupHeader) else []) (m.stage S 2) (m.stage S 3)
      (onFlag (·.groupHeaderEnabled) <|
        decodePart NetworkMessage.groupHeader (fun g m => { m with groupHeader := g })
          (groupHeaderDecodeBinary src)) :=
    decodesTo_onFlag rfl (fun _ => decodesTo_part (decodesTo_groupHeader hm.groupHeaderMembers))
      fun h => by
        have hzero := hm.groupHeader h
        simp only [NetworkMessage.stage, NetworkMessage.readUpTo, NetworkMessage.received, hzero]
        rfl
  have hheader : DecodesTo src (if m.payloadHeaderEnabled then
      pieceBytes (payloadHeaderPieces m) else []) (m.stage S 3) (m.stage S 4)
      (onFlag (·.payloadHeaderEnabled) (payloadHeaderDecodeBinary src)) :=
    decodesTo_onFlag rfl (fun h => by
        obtain ⟨ids, hids⟩ := Option.isSome_iff_exists.mp (hencodable.writerIds h)
        have htype : (m.stage S 3).networkMessageType = .dataSet := hfilled.type
        refine (decodesTo_payloadHeader htype hids (hfilled.writerIds h ids hids)).congr ?_ rfl
        simp [payloadHeaderPieces, hids])
      fun h => by
        have hzero := hm.payloadHeader h
        simp only [NetworkMessage.stage, NetworkMessage.readUpTo, NetworkMessage.received, hzero]
        rfl
  have htimestamp : DecodesTo src (if m.timestampEnabled then leBytes 8 m.timestamp.toNat else [])
      (m.stage S 4) (m.stage S 5) (onFlag (·.timestampEnabled) <|
        decodeInto (uaUInt64DecodeBinary src) fun v m => { m with timestamp := v }) :=
    decodesTo_member rfl (fun _ => readsAt_uaUInt64 _) rfl fun h => by
      have hzero := hm.timestamp h
      simp only [NetworkMessage.stage, NetworkMessage.readUpTo, NetworkMessage.received, hzero]
      rfl
  have hpico : DecodesTo src (if m.picosecondsEnabled then leBytes 2 m.picoseconds.toNat else [])
      (m.stage S 5) (m.stage S 6) (onFlag (·.picosecondsEnabled) <|
        decodeInto (uaUInt16DecodeBinary src) fun v m => { m with picoseconds := v }) :=
    decodesTo_member rfl (fun _ => readsAt_uaUInt16 _) rfl fun h => by
      have hzero := hm.picoseconds h
      simp only [NetworkMessage.stage, NetworkMessage.readUpTo, NetworkMessage.received, hzero]
      rfl
  have hfields : DecodesTo src (if m.promotedFieldsEnabled then
      leBytes 2 (promotedSize S m).toNat ++
        m.promoted.flatMap fun v => S.bytes .variant (fieldOfVariant v) else [])
      (m.stage S 6) (m.stage S 7)
      (onFlag (·.promotedFieldsEnabled) (promotedFieldsDecodeBinary src T)) :=
    decodesTo_onFlag rfl (fun h =>
        decodesTo_promotedFields (hfilled.promoted h) (hpromoted h) rfl rfl)
      fun h => by
        obtain ⟨hzero, hnil⟩ := hm.promotedFields h
        have hnone : (m.received S).promotedFields = none :=
          nullIfEmpty_of_nil (by rw [getD_map_list, hnil, List.map_nil])
        have hsize : (m.received S).promotedFieldsSize = 0 := hzero
        simp only [NetworkMessage.stage, NetworkMessage.readUpTo, hnone, hsize]
        rfl
  have hsecurity : DecodesTo src (if m.securityEnabled then
      pieceBytes (securityHeaderPieces m.securityHeader) else []) (m.stage S 7) (m.stage S 8)
      (onFlag (·.securityEnabled) <|
        decodePart NetworkMessage.securityHeader (fun h m => { m with securityHeader := h })
          (securityHeaderDecodeBinary src)) :=
    decodesTo_onFlag rfl (fun h =>
        decodesTo_part (decodesTo_securityHeader (hfilled.security h).nonce hm.securityFooterSize))
      fun h => by
        have hzero := hm.securityHeader h
        simp only [NetworkMessage.stage, NetworkMessage.readUpTo, NetworkMessage.received, hzero]
        rfl
  refine ((decodesTo_assign rfl).bind (hflags.bind (hid.bind (hclass.bind (hgroup.bind
    (hheader.bind (htimestamp.bind (hpico.bind (hfields.bind hsecurity))))))))).congr ?_ rfl
  have hvariants : pieceBytes (m.promoted.map fun v =>
      .plain (S.bytes .variant (fieldOfVariant v))) =
      m.promoted.flatMap fun v => S.bytes .variant (fieldOfVariant v) := by
    rw [pieceBytes, List.flatMap_map]
  simp only [headPieces, extendedHeaderPieces, pieceBytes_append, pieceBytes_ite, pieceBytes_cons,
    pieceBytes_nil, hvariants, List.append_nil, List.nil_append, List.append_assoc]

/-- The payload and the trailer. -/
theorem decodesTo_payload (hT : StandardTypes T) (hfilled : m.Filled (S.ReadsBack T))
    (hencodable : m.Encodable S) (hm : m.Canonical) :
    DecodesTo src (pieceBytes (sizesPieces S m ++ (messagesPieces S m ++
        if m.securityEnabled then trailerPieces m else []))) (m.stage S 8) (m.received S)
      (payloadDecodeBinary src T) := by
  have hsizes : DecodesTo src (pieceBytes (sizesPieces S m)) (m.stage S 8) (m.stage S 9)
      (sizesDecodeBinary src) := decodesTo_sizes rfl rfl rfl
  have hmessages : DecodesTo src (pieceBytes (messagesPieces S m)) (m.stage S 9) (m.stage S 10)
      (dataSetMessagesDecodeBinary src T) := decodesTo_dataSetMessages hfilled.payload hm rfl
  -- without security there is no trailer, and nothing to put
  have htrailer : DecodesTo src (if m.securityEnabled then pieceBytes (trailerPieces m) else [])
      (m.stage S 10) (m.received S)
      (onFlag (·.securityEnabled) (securityTrailerDecodeBinary src T)) :=
    decodesTo_onFlag rfl (fun h => decodesTo_securityTrailer hT (hfilled.security h)
        (hencodable.signature h) hm rfl rfl rfl ⟨rfl, rfl⟩)
      fun h => by
        have hzero := hm.securityHeader h
        have hfooter : (m.received S).securityFooter = none :=
          nullIfEmpty_of_nil (hm.securityFooter (by rw [hzero]; rfl))
        have hsignature : (m.received S).signature = none := hm.signature (by rw [hzero]; rfl)
        have hlast : m.received S = m.stage S 12 := rfl
        rw [hlast]
        simp only [NetworkMessage.stage, NetworkMessage.readUpTo, hfooter, hsignature]
        rfl
  have htype : (m.stage S 8).networkMessageType = .dataSet := hfilled.type
  refine decodesTo_current ?_
  rw [if_neg (not_not_intro htype)]
  refine (hsizes.bind (hmessages.bind htrailer)).congr ?_ rfl
  simp only [pieceBytes_append, pieceBytes_ite]

/-- **A NetworkMessage comes back.** -/
theorem decodesTo_networkMessage (hT : StandardTypes T) (hfilled : m.Filled (S.ReadsBack T))
    (hencodable : m.Encodable S) (hm : m.Canonical)
    (hpromoted : m.promotedFieldsEnabled = true →
      (m.promoted.flatMap fun v => S.bytes .variant (fieldOfVariant v)).length ≤ 65535)
    (old : NetworkMessage) :
    DecodesTo src (pieceBytes (messagePieces S m)) old (m.received S)
      (networkMessageDecodeBinaryInternal src T) := by
  refine ((decodesTo_headers hT hfilled hencodable hm hpromoted old).bind
    (decodesTo_payload hT hfilled hencodable hm)).congr ?_ rfl
  simp only [messagePieces, tailPieces, pieceBytes_append, List.append_assoc]

/-! ## Comparing messages -/

/-- The message with arrays of length zero as NULL pointers, and without dimensions of length
zero. -/
def DataSetMessage.comparable (d : DataSetMessage) : DataSetMessage :=
  { d with
    dataSetFields := nullIfEmpty (d.dataSetFields.map (·.map DataValueOf.trimmed))
    fieldNames := nullIfEmpty d.fieldNames
    deltaFrameFields := nullIfEmpty (d.deltaFrameFields.map (·.map DeltaFrameField.trimmed)) }

/-- The same for a NetworkMessage, without its array of sizes. -/
def NetworkMessage.comparable (m : NetworkMessage) : NetworkMessage :=
  { m with
    payloadHeader := { m.payloadHeader with
      dataSetWriterIds := nullIfEmpty m.payloadHeader.dataSetWriterIds }
    promotedFields := nullIfEmpty (m.promotedFields.map (·.map (·.map VariantOf.trimmed)))
    securityHeader := { m.securityHeader with
      messageNonce := nullIfEmpty m.securityHeader.messageNonce }
    payload := {
      sizes := none
      dataSetMessages :=
        nullIfEmpty (m.payload.dataSetMessages.map (·.map DataSetMessage.comparable)) }
    securityFooter := nullIfEmpty m.securityFooter }

@[simp] theorem nullIfEmpty_getD {α : Type} (xs : Option (List α)) :
    (nullIfEmpty xs).getD [] = xs.getD [] := by
  by_cases hnil : xs.getD [] = []
  · rw [nullIfEmpty_of_nil hnil, hnil]
    rfl
  · rw [nullIfEmpty_of_ne_nil hnil]
    rfl

@[simp] theorem trimmed_trimmed {V : Type} (v : VariantOf V) : v.trimmed.trimmed = v.trimmed := by
  have h : nullIfEmpty (nullIfEmpty v.arrayDimensions) = nullIfEmpty v.arrayDimensions :=
    nullIfEmpty_congr (nullIfEmpty_getD _)
  simp only [VariantOf.trimmed, h]

@[simp] theorem dataValue_trimmed_trimmed {V : Type} (d : DataValueOf V) :
    d.trimmed.trimmed = d.trimmed := by
  simp only [DataValueOf.trimmed, trimmed_trimmed]

@[simp] theorem deltaFrameField_trimmed_trimmed (f : DeltaFrameField) :
    f.trimmed.trimmed = f.trimmed := by
  obtain ⟨fieldIndex, fieldValue⟩ := f
  cases fieldValue with
  | uninit => rfl
  | init v =>
    simp only [DeltaFrameField.trimmed, Slot.map_init, dataValue_trimmed_trimmed]

@[simp] theorem slot_trimmed_trimmed (v : Slot Variant) :
    (v.map VariantOf.trimmed).map VariantOf.trimmed = v.map VariantOf.trimmed := by
  cases v with
  | uninit => rfl
  | init v => simp only [Slot.map_init, trimmed_trimmed]

/-- What is done to each element may be done twice. -/
theorem nullIfEmpty_map_congr {α β : Type} {f : α → β} {xs ys : Option (List α)}
    (h : (ys.getD []).map f = (xs.getD []).map f) :
    nullIfEmpty (ys.map (List.map f)) = nullIfEmpty (xs.map (List.map f)) :=
  nullIfEmpty_congr (by rw [getD_map_list, getD_map_list, h])

/-- What changes nothing the second time changes nothing on a list. -/
theorem map_map_of_idempotent {α : Type} {f : α → α} (h : ∀ a, f (f a) = f a) (xs : List α) :
    (xs.map f).map f = xs.map f := by
  rw [List.map_map]
  exact List.map_congr_left fun a _ => h a

/-- A DataSetMessage compares equal to what is received of it. -/
theorem DataSetMessage.comparable_received (d : DataSetMessage) :
    d.received.comparable = d.comparable := by
  unfold DataSetMessage.received
  cases d.header.dataSetMessageType with
  | dataKeyFrame =>
    have h : nullIfEmpty ((some ((d.dataSetFields.getD []).map DataValueOf.trimmed)).map
        (List.map DataValueOf.trimmed)) =
        nullIfEmpty (d.dataSetFields.map (List.map DataValueOf.trimmed)) :=
      nullIfEmpty_map_congr (map_map_of_idempotent dataValue_trimmed_trimmed _)
    simp only [DataSetMessage.comparable, h]
  | dataDeltaFrame =>
    have h : nullIfEmpty ((some ((d.deltaFrameFields.getD []).map DeltaFrameField.trimmed)).map
        (List.map DeltaFrameField.trimmed)) =
        nullIfEmpty (d.deltaFrameFields.map (List.map DeltaFrameField.trimmed)) :=
      nullIfEmpty_map_congr (map_map_of_idempotent deltaFrameField_trimmed_trimmed _)
    simp only [DataSetMessage.comparable, h]
  | _ => rfl

/-- What is received of a message is this message. -/
theorem NetworkMessage.comparable_received (S : FieldSpec) (m : NetworkMessage) :
    (m.received S).comparable = m.comparable := by
  have hpromoted : nullIfEmpty ((nullIfEmpty (m.promotedFields.map
      (List.map (Slot.map VariantOf.trimmed)))).map (List.map (Slot.map VariantOf.trimmed))) =
      nullIfEmpty (m.promotedFields.map (List.map (Slot.map VariantOf.trimmed))) :=
    nullIfEmpty_map_congr (by
      rw [nullIfEmpty_getD, getD_map_list, map_map_of_idempotent slot_trimmed_trimmed])
  have hmessages : nullIfEmpty ((some ((m.payload.dataSetMessages.getD []).map
      DataSetMessage.received)).map (List.map DataSetMessage.comparable)) =
      nullIfEmpty (m.payload.dataSetMessages.map (List.map DataSetMessage.comparable)) :=
    nullIfEmpty_map_congr (by
      rw [Option.getD_some, List.map_map]
      exact List.map_congr_left fun d _ => DataSetMessage.comparable_received d)
  have hnonce : nullIfEmpty (nullIfEmpty m.securityHeader.messageNonce) =
      nullIfEmpty m.securityHeader.messageNonce := nullIfEmpty_congr (nullIfEmpty_getD _)
  have hfooter : nullIfEmpty (nullIfEmpty m.securityFooter) = nullIfEmpty m.securityFooter :=
    nullIfEmpty_congr (nullIfEmpty_getD _)
  simp only [NetworkMessage.comparable, NetworkMessage.received, hpromoted, hmessages, hnonce,
    hfooter]

end OpenPubSub
