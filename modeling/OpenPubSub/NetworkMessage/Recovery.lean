import OpenPubSub.NetworkMessage.AnyInput

/-!
# Back in step after any input

A subscriber that uses the fast path may be given anything between two messages of its layout:
truncated datagrams, messages of another layout, noise. The items may hold anything after that,
but the rest of the structure is that of the template, and the next message replaces all items.

- `Patched.withHeaderItems` and `Patched.dataSetMessages`: what a message brings back, and what
  was never gone.
- `covers_received`: the template has what its own table stands for.
- **`receiveCycles_recover`**: after any input, the next message of the layout is read as the full
  decoder reads it.
-/

namespace OpenPubSub

open Routine Writer

variable {T : DataTypes} {S : FieldSpec} {m₀ m m' p nm : NetworkMessage}
  {d₀ d : DataSetMessage} {written : List NetworkMessageOffsetType} {k : Nat}

/-! ## What is left of the structure -/

namespace Patched

/-- New items go into the same structure. -/
theorem withHeaderItems (h : Patched written k m m') (p : NetworkMessage)
    (ds : List DataSetMessage) :
    (m'.withHeaderItems p).withDataSetMessages ds =
      (m.withHeaderItems p).withDataSetMessages ds := by
  have hblank : ∀ m : NetworkMessage, (m.withHeaderItems p).withDataSetMessages ds =
      (m.blank.withHeaderItems p).withDataSetMessages ds := by
    intro m
    have hids : ∀ ids : Option (List UInt16), ids.map (·.set 0 p.firstWriterId) =
        (ids.map (·.set 0 0)).map (·.set 0 p.firstWriterId) := by
      intro ids
      cases ids with
      | none => rfl
      | some ids => rw [Option.map_some, Option.map_some, Option.map_some, List.set_set]
    simp only [NetworkMessage.withHeaderItems, NetworkMessage.setFirstWriterId,
      NetworkMessage.withGroupItems, NetworkMessage.withPublisherId,
      NetworkMessage.withDataSetMessages, NetworkMessage.blank, ← hids]
  rw [hblank m', h.blank, ← hblank]

theorem groupHeader (h : Patched written k m m') (hid : .writerGroupId ∉ written)
    (hnumber : .networkMessageSequenceNumber ∉ written) : m'.groupHeader = m.groupHeader := by
  have hrest : m'.blank.groupHeader = m.blank.groupHeader := by rw [h.blank]
  have hself : ∀ m : NetworkMessage, m.groupHeader = { m.blank.groupHeader with
      writerGroupId := m.groupHeader.writerGroupId
      sequenceNumber := m.groupHeader.sequenceNumber } := fun _ => rfl
  rw [hself m', hself m, hrest, h.writerGroupId hid, h.sequenceNumber hnumber]

/-- The DataSetMessage is there, with as many fields as before. -/
theorem dataSetMessages (h : Patched written k m m') {fs : List DataValue}
    (hm : m.payload.dataSetMessages = some [d.withFields fs]) :
    m'.payload.dataSetMessages = some [d.withFields m'.firstFields] ∧
      m'.firstFields.length = fs.length := by
  have hrest : m'.blank.payload.dataSetMessages = m.blank.payload.dataSetMessages := by
    rw [h.blank]
  simp only [NetworkMessage.blank, hm, Option.map_some, List.modify_zero_cons] at hrest
  obtain ⟨ds, hds, hmodified⟩ := Option.map_eq_some_iff.mp hrest
  -- but for the fields of the first message, the structures agree
  cases ds with
  | nil => cases hmodified
  | cons x ds =>
    rw [List.modify_zero_cons, List.cons.injEq] at hmodified
    obtain ⟨hx, rfl⟩ := hmodified
    obtain ⟨xs, hxs⟩ : ∃ xs, x.dataSetFields = some xs := by
      have hsome := congrArg (fun d => d.dataSetFields.isSome) hx
      simp only [Option.isSome_map, DataSetMessage.withFields, Option.isSome_some] at hsome
      exact Option.isSome_iff_exists.mp hsome
    have hfirst : m'.firstFields = xs := by
      simp only [NetworkMessage.firstFields, hds, Option.getD_some, List.head?_cons,
        Option.bind_some, hxs]
    have hfields := congrArg DataSetMessage.dataSetFields hx
    have hrest := congrArg (fun d => { d with dataSetFields := some xs }) hx
    simp only [hxs, Option.map_some, DataSetMessage.withFields, Option.some.injEq] at hfields
    rw [hfirst, hds]
    refine ⟨congrArg (fun d => some [d]) ?_, ?_⟩
    · have hself : x = { x with dataSetFields := some xs } := by rw [← hxs]
      exact hself.trans hrest
    · simpa only [List.length_map] using congrArg List.length hfields

/-- The fields are as they are encoded. -/
theorem fitsEncoding (h : Patched written k m m') {encoding : FieldEncoding}
    (hvariant : encoding = .variant → .payloadDataValue ∉ written)
    (hm : ∀ f ∈ m.firstFields, DataValueOf.FitsEncoding encoding f) :
    ∀ f ∈ m'.firstFields, DataValueOf.FitsEncoding encoding f := by
  intro f' hf' hencoding
  obtain ⟨f, hf, v, b, rfl⟩ := h.variants (hvariant hencoding) f' hf'
  rw [hm f hf hencoding]
  rfl

/-- What followed the template follows it still, if the items that have no bytes have no entries
either. -/
theorem follows (h : Patched written k m m') (hm : m.Follows p)
    (hid : p.publisherIdEnabled = false → .publisherId ∉ written)
    (hgroup : p.groupHeaderEnabled = false ∨ p.groupHeader.writerGroupIdEnabled = false →
      .writerGroupId ∉ written)
    (hnumber : p.groupHeaderEnabled = false ∨ p.groupHeader.sequenceNumberEnabled = false →
      .networkMessageSequenceNumber ∉ written)
    (hids : p.payloadHeaderEnabled = false → .dataSetWriterId ∉ written) : m'.Follows p where
  publisherIdType := h.typeByte.trans hm.publisherIdType
  publisherId henabled := (h.publisherId (hid henabled)).trans (hm.publisherId henabled)
  groupHeader henabled := (h.groupHeader (hgroup (.inl henabled)) (hnumber (.inl henabled))).trans
    (hm.groupHeader henabled)
  writerGroupId henabled :=
    (h.writerGroupId (hgroup (.inr henabled))).trans (hm.writerGroupId henabled)
  sequenceNumber henabled :=
    (h.sequenceNumber (hnumber (.inr henabled))).trans (hm.sequenceNumber henabled)
  writerIds henabled := by
    have hlength := congrArg Footing.writerIds h.footing
    refine List.ne_nil_of_length_pos (Nat.lt_of_lt_of_eq ?_ hlength.symm)
    exact List.length_pos_iff.mpr (hm.writerIds henabled)
  noWriterIds henabled := (h.writerIds (hids henabled)).trans (hm.noWriterIds henabled)

end Patched

/-! ## The entries of a template -/

/-- The entry, if the item is there. -/
def entryIf (c : Bool) (contentType : NetworkMessageOffsetType) : List NetworkMessageOffsetType :=
  if c then [contentType] else []

theorem recordedIf_contentType (c : Bool) (contentType : NetworkMessageOffsetType)
    (source : OffsetSource) (x : Enc) :
    (recordedIf c contentType source x).map RecordedItem.contentType = entryIf c contentType := by
  cases c <;> rfl

/-- For the header items. -/
def NetworkMessage.headerEntries (m : NetworkMessage) : List NetworkMessageOffsetType :=
  entryIf m.publisherIdEnabled .publisherId ++
    (entryIf (m.groupHeaderEnabled && m.groupHeader.writerGroupIdEnabled) .writerGroupId ++
      (entryIf (m.groupHeaderEnabled && m.groupHeader.sequenceNumberEnabled)
          .networkMessageSequenceNumber ++
        entryIf m.payloadHeaderEnabled .dataSetWriterId))

/-- For the fields. -/
def DataSetMessage.fieldEntries (d : DataSetMessage) : List NetworkMessageOffsetType :=
  match d.header.fieldEncoding with
  | .variant => List.replicate (d.dataSetFields.getD []).length .payloadVariant
  | .dataValue => List.replicate (d.dataSetFields.getD []).length .payloadDataValue
  | .rawData | .reserved => []

theorem recordedItems_contentType (hkey : m.HoldsKeyFrame d) (hpatch : m.Patchable) :
    (m.recordedItems T true).map RecordedItem.contentType =
      m.headerEntries ++ d.fieldEntries := by
  have hfields : (keyFrameItems T 0 d).map RecordedItem.contentType = d.fieldEntries := by
    unfold keyFrameItems DataSetMessage.fieldEntries
    cases d.header.fieldEncoding <;> simp [List.map_const', Function.comp_def]
  have hmessage : (dataSetMessageItems T 0 d).map RecordedItem.contentType = d.fieldEntries := by
    rw [dataSetMessageItems, hkey.type, hpatch.sequenceNr d hkey.mem]
    exact hfields
  -- the group header gives two entries at most
  have hgroup : (if m.groupHeaderEnabled then groupHeaderItems true m.groupHeader else []).map
      RecordedItem.contentType =
        entryIf (m.groupHeaderEnabled && m.groupHeader.writerGroupIdEnabled) .writerGroupId ++
          entryIf (m.groupHeaderEnabled && m.groupHeader.sequenceNumberEnabled)
            .networkMessageSequenceNumber := by
    cases m.groupHeaderEnabled with
    | false => rfl
    | true =>
      simp only [if_true, groupHeaderItems, List.map_append, recordedIf_contentType, Bool.true_and]
  have hmessages : (m.payload.dataSetMessages.getD []).zipIdx.flatMap
      (fun p => dataSetMessageItems T p.2 p.1) = dataSetMessageItems T 0 d := by
    rw [hkey.messages]
    exact List.append_nil _
  simp only [NetworkMessage.recordedItems, hmessages, hpatch.timestamp, hpatch.picoseconds,
    List.map_append, recordedIf_contentType, hgroup, hmessage, Bool.true_and,
    NetworkMessage.headerEntries, List.append_assoc]
  rfl

/-- The entries of the table, one for each item. -/
theorem marks_contentType (hT : StandardTypes T) (hm : m.ComesBack S T) (hkey : m.HoldsKeyFrame d)
    (hpatch : m.Patchable) :
    (marks true 0 (messagePieces S m)).map NetworkMessageOffset.contentType =
      m.headerEntries ++ d.fieldEntries := by
  have hpoints : Points true (messagePieces S m) (m.recordedItems T true) :=
    points_networkMessage hT hm.writes hm.encodable (hm.writerIds_ne_nil hkey)
  have hnames := hpoints.names (pieceBytes (messagePieces S m)) 0 0 (List.prefix_refl _)
  rw [← recordedItems_contentType hkey hpatch, ← List.forall₂_eq_eq_eq, List.forall₂_map_left_iff,
    List.forall₂_map_right_iff]
  exact hnames.imp fun _ _ h => h.1

theorem mem_entryIf {c : Bool} {x y : NetworkMessageOffsetType} :
    x ∈ entryIf c y ↔ c = true ∧ x = y := by
  cases c <;> simp [entryIf]

theorem mem_fieldEntries {x : NetworkMessageOffsetType} (h : x ∈ d.fieldEntries) :
    x = .payloadVariant ∨ x = .payloadDataValue ∧ d.header.fieldEncoding = .dataValue := by
  unfold DataSetMessage.fieldEntries at h
  cases hencoding : d.header.fieldEncoding with
  | variant =>
    rw [hencoding] at h
    exact .inl (List.eq_of_mem_replicate h)
  | dataValue =>
    rw [hencoding] at h
    exact .inr ⟨List.eq_of_mem_replicate h, rfl⟩
  | rawData | reserved =>
    rw [hencoding] at h
    cases h

/-- What a template has where the table has an entry of this type. -/
def HasItem (m : NetworkMessage) (d : DataSetMessage) (x : NetworkMessageOffsetType) : Prop :=
  match x with
  | .publisherId => m.publisherIdEnabled = true
  | .writerGroupId => m.groupHeaderEnabled = true ∧ m.groupHeader.writerGroupIdEnabled = true
  | .networkMessageSequenceNumber =>
    m.groupHeaderEnabled = true ∧ m.groupHeader.sequenceNumberEnabled = true
  | .dataSetWriterId => m.payloadHeaderEnabled = true
  | .payloadDataValue => d.header.fieldEncoding = .dataValue
  | .payloadVariant => True
  | _ => False

theorem hasItem {x : NetworkMessageOffsetType} (hx : x ∈ m.headerEntries ++ d.fieldEntries) :
    HasItem m d x := by
  simp only [NetworkMessage.headerEntries, List.mem_append, mem_entryIf, Bool.and_eq_true] at hx
  obtain ((⟨h, rfl⟩ | ⟨h, rfl⟩ | ⟨h, rfl⟩ | ⟨h, rfl⟩) | hfield) := hx
  · exact h
  · exact h
  · exact h
  · exact h
  · obtain rfl | ⟨rfl, h⟩ := mem_fieldEntries hfield
    · trivial
    · exact h

theorem countP_entries (hfields : d.header.fieldEncoding.hasFields = true) :
    (m.headerEntries ++ d.fieldEntries).countP NetworkMessageOffsetType.isField =
      d.keyFields.length := by
  have hnone : ∀ (c : Bool) (x : NetworkMessageOffsetType), x.isField = false →
      (entryIf c x).countP NetworkMessageOffsetType.isField = 0 := by
    intro c x hx
    cases c <;> simp [entryIf, hx]
  have hkey : d.keyFields = d.dataSetFields.getD [] := if_pos hfields
  have hall : d.fieldEntries.countP NetworkMessageOffsetType.isField = d.keyFields.length := by
    rw [hkey, DataSetMessage.fieldEntries]
    cases hencoding : d.header.fieldEncoding with
    | variant | dataValue => exact List.countP_replicate.trans (if_pos rfl)
    | rawData | reserved =>
      rw [hencoding] at hfields
      cases hfields
  simp only [NetworkMessage.headerEntries, List.countP_append, hnone _ .publisherId rfl,
    hnone _ .writerGroupId rfl, hnone _ .networkMessageSequenceNumber rfl,
    hnone _ .dataSetWriterId rfl, hall, Nat.zero_add]

/-- What was decoded has all that the table of the message stands for. -/
theorem covers_received (hm : m.ComesBack S T) (hkey : m.HoldsKeyFrame d)
    {offsets : List NetworkMessageOffset}
    (hentries : offsets.map NetworkMessageOffset.contentType = m.headerEntries ++ d.fieldEntries) :
    (m.received S).footing.Covers 0 offsets := by
  have hreached : ((m.received S).footing.reached offsets).Sublist
      (m.headerEntries ++ d.fieldEntries) := hentries ▸ List.takeWhile_sublist _
  constructor
  · intro hmem
    have henabled : m.payloadHeaderEnabled = true := hasItem (hreached.subset hmem)
    exact List.length_pos_iff.mpr (hm.writerIds_ne_nil hkey henabled)
  · have hfields := (hm.canonical.messages d hkey.mem).encoding (by rw [hkey.type]; decide)
    have hlength : (m.received S).firstFields.length = d.keyFields.length := by
      unfold NetworkMessage.firstFields
      rw [received_messages hm hkey]
      exact List.length_map _
    calc 0 + (m.received S).footing.reachedFields offsets
        = ((m.received S).footing.reached offsets).countP _ := Nat.zero_add _
      _ ≤ (m.headerEntries ++ d.fieldEntries).countP NetworkMessageOffsetType.isField :=
        hreached.countP_le
      _ = (m.received S).firstFields.length := by rw [countP_entries hfields, hlength]

theorem HasItem.of_sameLayout {x : NetworkMessageOffsetType} (hx : HasItem m₀ d₀ x)
    (hsame : m₀.SameLayout S m) (hd : d₀.SameLayout S d) : HasItem m d x := by
  have hgroup : m.groupHeaderEnabled = m₀.groupHeaderEnabled :=
    hsame.flag NetworkMessage.groupHeaderEnabled
  cases x with
  | publisherId => exact (hsame.flag NetworkMessage.publisherIdEnabled).trans hx
  | writerGroupId =>
    exact ⟨hgroup.trans hx.1, (hsame.flag fun m => m.groupHeader.writerGroupIdEnabled).trans hx.2⟩
  | networkMessageSequenceNumber =>
    exact ⟨hgroup.trans hx.1, (hsame.flag fun m => m.groupHeader.sequenceNumberEnabled).trans hx.2⟩
  | dataSetWriterId => exact (hsame.flag NetworkMessage.payloadHeaderEnabled).trans hx
  | payloadDataValue => exact (hd.flag fun h => h.fieldEncoding).trans hx
  | _ => exact hx

/-! ## The next message -/

/-- **One message** of the layout replaces all that may have been written. -/
theorem Patched.cycle (h : Patched written k (m₀.received S) nm)
    (hwritten : ∀ x ∈ written, HasItem m₀ d₀ x) (hm₀ : m₀.ComesBack S T)
    (hkey₀ : m₀.HoldsKeyFrame d₀) (hpatch : m₀.Patchable) (hp : p.ComesBack S T)
    (hsame : m₀.SameLayout S p) {e : Delivery}
    (hat : At e.src e.start (pieceBytes (messagePieces S p))) :
    ∃ nm', subscriberCycle T (marks true 0 (messagePieces S m₀)) e nm = some nm' ∧
      Subscribed S T m₀ d₀ p nm' := by
  obtain ⟨dₚ, hkeyₚ, hdₚ⟩ := holdsKeyFrame_of_sameLayout hkey₀ hsame
  have hpatchₚ := (patchable_of_sameLayout hkey₀ hkeyₚ hsame hdₚ).mpr hpatch
  -- the message has all items that may have been written
  have hitems : ∀ x ∈ written, HasItem p dₚ x := fun x hx => (hwritten x hx).of_sameLayout hsame hdₚ
  have habsent : ∀ x, ¬ HasItem p dₚ x → x ∉ written := fun x hx hmem => hx (hitems x hmem)
  have hfollows : nm.Follows p := by
    refine h.follows (follows_received hm₀ hp hkey₀ hsame) (fun hno => habsent _ ?_)
      (fun hno => habsent _ ?_) (fun hno => habsent _ ?_) (fun hno => habsent _ ?_)
    · exact fun hitem => Bool.false_ne_true (hno.symm.trans hitem)
    · rintro ⟨hgroup, hid⟩
      exact hno.elim (fun hno => Bool.false_ne_true (hno.symm.trans hgroup))
        fun hno => Bool.false_ne_true (hno.symm.trans hid)
    · rintro ⟨hgroup, hnumber⟩
      exact hno.elim (fun hno => Bool.false_ne_true (hno.symm.trans hgroup))
        fun hno => Bool.false_ne_true (hno.symm.trans hnumber)
    · exact fun hitem => Bool.false_ne_true (hno.symm.trans hitem)
  obtain ⟨hmessages, hcount⟩ := h.dataSetMessages (received_messages hm₀ hkey₀)
  have hlen : nm.firstFields.length = dₚ.keyFields.length := by
    have hsizes := congrArg List.length hdₚ.sizes
    rw [List.length_map, List.length_map] at hsizes
    rw [hcount, List.length_map, hsizes]
  have hfits : ∀ f ∈ nm.firstFields, DataValueOf.FitsEncoding dₚ.header.fieldEncoding f := by
    refine h.fitsEncoding (fun hvariant => habsent _ fun hitem => ?_) ?_
    · exact absurd (hvariant.symm.trans hitem) (by decide)
    · have hfirst : (m₀.received S).firstFields = d₀.keyFields.map DataValueOf.trimmed := by
        unfold NetworkMessage.firstFields
        rw [received_messages hm₀ hkey₀]
        rfl
      rw [hfirst]
      exact fitsEncoding_trimmed hm₀ hkey₀ hdₚ
  -- the table is that of the message, too
  have hloop : updateLoop e.src T e.start (marks true 0 (messagePieces S m₀)) =
      updateLoop e.src T e.start (marks true 0 (messagePieces S p)) :=
    updateLoop_congr (marks_sameLayout hm₀ hp hkey₀ hkeyₚ hsame hpatch.publisherId true)
  obtain ⟨hupdates, -⟩ :=
    @updates_networkMessage e.src T S _ _ _ d₀ _ hp hkeyₚ hpatchₚ hfollows hmessages hlen hfits
  have hsrc : At e.src (0 + e.start) (pieceBytes (messagePieces S p)) := by rwa [Nat.zero_add]
  obtain ⟨position, hrun⟩ := hupdates e.start 0 0 hsrc
  refine ⟨m₀.patched S d₀ p dₚ, ?_, hp, hsame, dₚ, hkeyₚ, hdₚ, rfl⟩
  simp only [subscriberCycle, networkMessageUpdateBufferedNwMessage, hloop, hrun]
  exact congrArg some (h.withHeaderItems p _)

/-- **Back in step.** The template was decoded once, and the table is that of the template. Whatever
the subscriber is given after that, the fast path stays inside the arrays, and it succeeds with the
next message of the layout and reads it as the full decoder does. -/
theorem receiveCycles_recover (hT : StandardTypes T) (hm₀ : m₀.ComesBack S T)
    (hkey₀ : m₀.HoldsKeyFrame d₀) (hpatch : m₀.Patchable) {size : Nat}
    {table : NetworkMessageOffsetBuffer}
    (htable : networkMessageCalcSizeBinary T m₀ (some ⟨[], true⟩) = some (size, some table))
    {e₀ : Delivery} {stop₀ : Nat} (hplace₀ : m₀.StandsAt T e₀.src e₀.start stop₀)
    {old₀ : NetworkMessage} (hnm : networkMessageDecodeBinary e₀.src T ⟨⟨e₀.start, old₀⟩, []⟩ =
      .done () ⟨⟨stop₀, nm⟩, []⟩)
    (es : List Delivery) {e : Delivery} (he : e.Carries S T m₀ m) (old : NetworkMessage) :
    ∃ nm' nm'' r stop, steps (receiveCycle T table.offsets) es nm = some nm' ∧
      subscriberCycle T table.offsets e nm' = some nm'' ∧
      networkMessageDecodeBinary e.src T ⟨⟨e.start, old⟩, []⟩ = .done () ⟨⟨stop, r⟩, []⟩ ∧
        nm''.AgreesWith r := by
  have hfirst : e₀.Carries S T m₀ m₀ := ⟨hm₀, .refl S m₀, stop₀, hplace₀⟩
  obtain rfl : nm = m₀.received S := by
    obtain ⟨stop, hread⟩ := hfirst.decode hT old₀
    rw [hnm] at hread
    exact congrArg (fun c : DecodeCall => c.dst) (Outcome.done.inj hread).2
  obtain rfl : table = ⟨marks true 0 (messagePieces S m₀), true⟩ := by
    rw [hm₀.calcSize hT] at htable
    exact (Option.some.inj (Prod.mk.inj (Option.some.inj htable)).2).symm
  have hentries : (marks true 0 (messagePieces S m₀)).map NetworkMessageOffset.contentType =
      m₀.headerEntries ++ d₀.fieldEntries := marks_contentType hT hm₀ hkey₀ hpatch
  obtain ⟨stop, hread⟩ := he.decode hT old
  obtain ⟨hm, hsame, stop', hplace⟩ := he
  -- everything in front of the message
  obtain ⟨nm', hrun, hpatched⟩ :=
    @receiveCycles_patched T _ _ (covers_received hm₀ hkey₀ hentries) es
  have hwritten : ∀ x ∈ (m₀.received S).footing.reached (marks true 0 (messagePieces S m₀)),
      HasItem m₀ d₀ x := fun x hx =>
    hasItem (hentries ▸ (List.takeWhile_sublist _).subset hx)
  -- and the message itself
  obtain ⟨nm'', hcycle, hsubscribed⟩ := hpatched.cycle hwritten hm₀ hkey₀ hpatch hm hsame
    ((standsAt_iff hT hm).mp hplace).1
  exact ⟨nm', nm'', m.received S, stop, hrun, hcycle, hread,
    hsubscribed.agreesWith hm₀ hkey₀ hpatch⟩

/-- A truncated message and an empty buffer, and then the second message. -/
theorem numberedByteMessage_recovered : ∃ nm' nm'' r stop,
    steps (receiveCycle builtinTypes numberedByteRtTable.offsets)
        [⟨[0x31, 9, 8, 7], 0⟩, ⟨[], 5⟩] (numberedByteMessage 1 42) = some nm' ∧
      subscriberCycle builtinTypes numberedByteRtTable.offsets ⟨shiftedNumberedByte, 1⟩ nm' =
        some nm'' ∧
      networkMessageDecodeBinary shiftedNumberedByte builtinTypes ⟨⟨1, default⟩, []⟩ =
        .done () ⟨⟨stop, r⟩, []⟩ ∧ nm''.AgreesWith r := by
  obtain ⟨d, hkey⟩ := numberedByteMessage_holdsKeyFrame 1 42
  have hm := numberedByteMessage_comesBack 1 42
  have htable : networkMessageCalcSizeBinary builtinTypes (numberedByteMessage 1 42)
      (some ⟨[], true⟩) = some (10, some numberedByteRtTable) := rfl
  have hread : networkMessageDecodeBinary numberedByteBuffer builtinTypes ⟨⟨0, default⟩, []⟩ =
      .done () ⟨⟨10, numberedByteMessage 1 42⟩, []⟩ :=
    hm.decode standardTypes_builtinTypes ⟨[0xFF], rfl⟩
  exact @receiveCycles_recover builtinTypes (leafSpec builtinTypes) _ _ _ d
    standardTypes_builtinTypes hm hkey (numberedByteMessage_patchable 1 42) 10 numberedByteRtTable
    htable ⟨numberedByteBuffer, 0⟩ 10 numberedByteMessage_standsAt default hread
    [⟨[0x31, 9, 8, 7], 0⟩, ⟨[], 5⟩] ⟨shiftedNumberedByte, 1⟩ numberedByteMessage_carried default

end OpenPubSub
