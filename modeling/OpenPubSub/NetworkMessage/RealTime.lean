import OpenPubSub.NetworkMessage.FastPath
import OpenPubSub.NetworkMessage.PublisherFastPath

/-!
# Publisher and subscriber, cycle after cycle

Both sides keep their message, and exchange bytes. The publisher writes the items that changed
over its last message, the subscriber reads the items it has entries for into its own. Neither
the encoder nor the decoder runs again after the first message.

- `Subscribed m₀ m nm`: `nm` is the template with the items of `m`. `Subscribed.cycle` is the
  step.
- **`subscriberCycles_agree`**: whatever messages of the layout are delivered, and where, the
  subscriber has what the decoder reads in the last one.
- **`exchangeCycles_agree`**: both fast paths together. The subscriber has what was published.
-/

namespace OpenPubSub

open Routine Writer

variable {T : DataTypes} {S : FieldSpec} {m₀ m p : NetworkMessage} {d₀ d : DataSetMessage}

/-! ## Messages of one layout -/

theorem DataSetMessage.SameLayout.refl (S : FieldSpec) (d : DataSetMessage) : d.SameLayout S d :=
  ⟨rfl, rfl, rfl⟩

/-- Two messages of the layout of a third. -/
theorem DataSetMessage.SameLayout.of_both {e : DataSetMessage} (hd : d₀.SameLayout S d)
    (he : d₀.SameLayout S e) : d.SameLayout S e :=
  ⟨he.flags.trans hd.flags.symm, he.fieldCount.trans hd.fieldCount.symm,
    he.sizes.trans hd.sizes.symm⟩

theorem NetworkMessage.SameLayout.refl (S : FieldSpec) (m : NetworkMessage) : m.SameLayout S m :=
  ⟨rfl, rfl, rfl, rfl, List.forall₂_same.mpr fun d _ => .refl S d⟩

theorem NetworkMessage.SameLayout.of_both (hm : m₀.SameLayout S m) (hp : m₀.SameLayout S p) :
    m.SameLayout S p where
  flags := hp.flags.trans hm.flags.symm
  count := hp.count.trans hm.count.symm
  nonceLength := hp.nonceLength.trans hm.nonceLength.symm
  promoted := hp.promoted.trans hm.promoted.symm
  messages := by
    have hlength := hm.messages.length_eq
    refine List.forall₂_iff_get.mpr ⟨hlength.symm.trans hp.messages.length_eq, fun i hi hi' => ?_⟩
    have hi₀ : i < (m₀.payload.dataSetMessages.getD []).length := hlength ▸ hi
    exact (hm.messages.get hi₀ hi).of_both (hp.messages.get hi₀ hi')

/-! ## The subscriber -/

/-- The items of the message, put into the template. -/
def NetworkMessage.patched (S : FieldSpec) (m₀ : NetworkMessage) (d₀ : DataSetMessage)
    (m : NetworkMessage) (d : DataSetMessage) : NetworkMessage :=
  ((m₀.received S).withHeaderItems m).withDataSetMessages
    [d₀.withFields (d.keyFields.map DataValueOf.trimmed)]

/-- What a subscriber has after a message of the layout: the template with its items. -/
structure Subscribed (S : FieldSpec) (T : DataTypes) (m₀ : NetworkMessage) (d₀ : DataSetMessage)
    (m nm : NetworkMessage) : Prop where
  comesBack : m.ComesBack S T
  sameLayout : m₀.SameLayout S m
  items : ∃ d, m.HoldsKeyFrame d ∧ d₀.SameLayout S d ∧ nm = m₀.patched S d₀ m d

/-- Its own items do not change a message. -/
theorem received_withHeaderItems (S : FieldSpec) (m : NetworkMessage) :
    (m.received S).withHeaderItems m = m.received S := by
  have hids : m.payloadHeader.dataSetWriterIds.map (·.set 0 m.firstWriterId) =
      m.payloadHeader.dataSetWriterIds := by
    rw [NetworkMessage.firstWriterId]
    cases m.payloadHeader.dataSetWriterIds with
    | none => rfl
    | some ids => cases ids <;> rfl
  show ({ m.received S with payloadHeader := { m.payloadHeader with
    dataSetWriterIds := m.payloadHeader.dataSetWriterIds.map (·.set 0 m.firstWriterId) } } :
      NetworkMessage) = _
  rw [hids]
  rfl

/-- Items that were put in before are replaced. -/
theorem withHeaderItems_withHeaderItems (nm m p : NetworkMessage) :
    (nm.withHeaderItems m).withHeaderItems p = nm.withHeaderItems p := by
  have hids : ∀ (ids : Option (List UInt16)) (v w : UInt16),
      (ids.map (·.set 0 v)).map (·.set 0 w) = ids.map (·.set 0 w) := by
    intro ids v w
    cases ids with
    | none => rfl
    | some ids => rw [Option.map_some, Option.map_some, Option.map_some, List.set_set]
  simp only [NetworkMessage.withHeaderItems, NetworkMessage.setFirstWriterId,
    NetworkMessage.withGroupItems, NetworkMessage.withPublisherId, hids]

theorem patched_withHeaderItems (m p : NetworkMessage) (ds : List DataSetMessage) :
    ((m₀.patched S d₀ m d).withHeaderItems p).withDataSetMessages ds =
      ((m₀.received S).withHeaderItems p).withDataSetMessages ds := by
  rw [← withHeaderItems_withHeaderItems (m₀.received S) m p]
  rfl

/-- The template with the items of one message follows all others of the layout. -/
theorem follows_patched (hm₀ : (m₀.received S).Follows p) (hm : (m.received S).Follows p) :
    (m₀.patched S d₀ m d).Follows p where
  publisherIdType := hm.publisherIdType
  publisherId := hm.publisherId
  groupHeader henabled := by
    have hold : m₀.groupHeader = p.groupHeader := hm₀.groupHeader henabled
    have hnew : m.groupHeader = p.groupHeader := hm.groupHeader henabled
    show ({ m₀.groupHeader with
      writerGroupId := m.groupHeader.writerGroupId
      sequenceNumber := m.groupHeader.sequenceNumber } : NetworkMessageGroupHeader) = _
    rw [hold, hnew]
  writerGroupId := hm.writerGroupId
  sequenceNumber := hm.sequenceNumber
  writerIds henabled := by
    -- one id is replaced, so there are as many as in the template
    have hold := hm₀.writerIds henabled
    show (m₀.payloadHeader.dataSetWriterIds.map (·.set 0 m.firstWriterId)).getD [] ≠ []
    intro hnil
    apply hold
    show m₀.payloadHeader.dataSetWriterIds.getD [] = []
    cases hids : m₀.payloadHeader.dataSetWriterIds with
    | none => rfl
    | some ids =>
      rw [hids] at hnil
      exact (List.set_eq_nil_iff _ _).mp hnil
  noWriterIds henabled := by
    have hold : m₀.payloadHeader.dataSetWriterIds = none := hm₀.noWriterIds henabled
    show m₀.payloadHeader.dataSetWriterIds.map (·.set 0 m.firstWriterId) = none
    rw [hold]
    rfl

/-- The template itself, as it was decoded. -/
theorem subscribed_received (hm₀ : m₀.ComesBack S T) (hkey₀ : m₀.HoldsKeyFrame d₀) :
    Subscribed S T m₀ d₀ m₀ (m₀.received S) where
  comesBack := hm₀
  sameLayout := .refl S m₀
  items := by
    refine ⟨d₀, hkey₀, .refl S d₀, ?_⟩
    rw [NetworkMessage.patched, received_withHeaderItems]
    exact (withDataSetMessages_self (received_messages hm₀ hkey₀)).symm

/-- The items of the last message, as the decoder reads them. -/
theorem Subscribed.agreesWith {nm : NetworkMessage} (h : Subscribed S T m₀ d₀ m nm)
    (hm₀ : m₀.ComesBack S T) (hkey₀ : m₀.HoldsKeyFrame d₀) (hpatch : m₀.Patchable) :
    nm.AgreesWith (m.received S) := by
  obtain ⟨d, hkey, hd, rfl⟩ := h.items
  exact agreesWith_received hm₀ h.comesBack hkey₀ hkey h.sameLayout hd hpatch

/-- The bytes a subscriber is given, and where its message begins. -/
structure Delivery where
  src : Bytes
  start : Nat

/-- One cycle with the fast path. -/
def subscriberCycle (T : DataTypes) (offsets : List NetworkMessageOffset) (e : Delivery)
    (nm : NetworkMessage) : Option NetworkMessage :=
  match networkMessageUpdateBufferedNwMessage e.src T offsets ⟨nm, e.start⟩ with
  | .done _ b => some b.nm
  | _ => none

/-- **One cycle.** The items are replaced by those of the message that stands there. -/
theorem Subscribed.cycle {nm : NetworkMessage} (h : Subscribed S T m₀ d₀ m nm)
    (hm₀ : m₀.ComesBack S T) (hkey₀ : m₀.HoldsKeyFrame d₀) (hpatch : m₀.Patchable)
    (hp : p.ComesBack S T) (hsame : m₀.SameLayout S p) {e : Delivery}
    (hat : At e.src e.start (pieceBytes (messagePieces S p))) :
    ∃ nm', subscriberCycle T (marks true 0 (messagePieces S m₀)) e nm = some nm' ∧
      Subscribed S T m₀ d₀ p nm' := by
  obtain ⟨dₚ, hkeyₚ, hdₚ⟩ := holdsKeyFrame_of_sameLayout hkey₀ hsame
  obtain ⟨d, hkey, hd, rfl⟩ := h.items
  have hpatchₚ := (patchable_of_sameLayout hkey₀ hkeyₚ hsame hdₚ).mpr hpatch
  -- the table is that of the message, too
  have hloop : updateLoop e.src T e.start (marks true 0 (messagePieces S m₀)) =
      updateLoop e.src T e.start (marks true 0 (messagePieces S p)) :=
    updateLoop_congr (marks_sameLayout hm₀ hp hkey₀ hkeyₚ hsame hpatch.publisherId true)
  have hfollows : (m₀.patched S d₀ m d).Follows p :=
    follows_patched (follows_received hm₀ hp hkey₀ hsame)
      (follows_received h.comesBack hp hkey (h.sameLayout.of_both hsame))
  have hlen : (d.keyFields.map DataValueOf.trimmed).length = dₚ.keyFields.length := by
    have hsizes := congrArg List.length (hd.of_both hdₚ).sizes
    rw [List.length_map, List.length_map] at hsizes
    rw [List.length_map, hsizes]
  obtain ⟨hupdates, -⟩ := @updates_networkMessage e.src T S _ _ _ d₀ _ hp hkeyₚ hpatchₚ hfollows rfl
    hlen (fitsEncoding_trimmed h.comesBack hkey (hd.of_both hdₚ))
  have hsrc : At e.src (0 + e.start) (pieceBytes (messagePieces S p)) := by rwa [Nat.zero_add]
  obtain ⟨position, hrun⟩ := hupdates e.start 0 0 hsrc
  refine ⟨m₀.patched S d₀ p dₚ, ?_, hp, hsame, dₚ, hkeyₚ, hdₚ, rfl⟩
  simp only [subscriberCycle, networkMessageUpdateBufferedNwMessage, hloop, hrun]
  exact congrArg some (patched_withHeaderItems m p _)

theorem NetworkMessage.ComesBack.writes (hm : m.ComesBack S T) : m.Filled (S.Writes T) :=
  hm.filled.imp fun _ _ hf => ⟨hf.meets, hf.ok⟩

/-- What the decoder makes of the message, where it stands. -/
theorem NetworkMessage.ComesBack.decode (hm : m.ComesBack S T) (hT : StandardTypes T)
    {src : Bytes} {start : Nat} {old : NetworkMessage}
    (hat : At src start (pieceBytes (messagePieces S m))) :
    networkMessageDecodeBinary src T ⟨⟨start, old⟩, []⟩ = .done ()
      ⟨⟨start + (pieceBytes (messagePieces S m)).length, m.received S⟩, []⟩ :=
  @networkMessageDecodeBinary_reads T S m hT hm.filled hm.encodable hm.canonical hm.promoted src
    ⟨⟨start, old⟩, []⟩ hat

/-- A message of the layout of the template stands there. -/
def Delivery.Carries (S : FieldSpec) (T : DataTypes) (m₀ : NetworkMessage) (e : Delivery)
    (m : NetworkMessage) : Prop :=
  m.ComesBack S T ∧ m₀.SameLayout S m ∧ ∃ stop, m.StandsAt T e.src e.start stop

/-- What the decoder makes of it. -/
theorem Delivery.Carries.decode {e : Delivery} (h : e.Carries S T m₀ m) (hT : StandardTypes T)
    (old : NetworkMessage) : ∃ stop, networkMessageDecodeBinary e.src T ⟨⟨e.start, old⟩, []⟩ =
      .done () ⟨⟨stop, m.received S⟩, []⟩ := by
  obtain ⟨hm, -, stop, hplace⟩ := h
  exact ⟨_, hm.decode hT ((standsAt_iff hT hm).mp hplace).1⟩

/-- Size and table of a message that comes back. -/
theorem NetworkMessage.ComesBack.calcSize (hm : m.ComesBack S T) (hT : StandardTypes T)
    (rt : Bool) : networkMessageCalcSizeBinary T m (some ⟨[], rt⟩) =
      some ((pieceBytes (messagePieces S m)).length,
        some ⟨marks rt 0 (messagePieces S m), rt⟩) := by
  have hmeets : m.Filled (S.Meets T) := hm.filled.imp fun _ _ h => h.meets
  rw [networkMessageCalcSizeBinary_eq hT hmeets hm.encodable.writerIds]
  rfl

/-- **The subscriber, over whole runs.** The template was decoded once, and the table is that of
the template. Whatever messages of its layout are delivered then, the fast path never fails, and
after each of them the subscriber has what the full decoder reads in the last one. -/
theorem subscriberCycles_agree (hT : StandardTypes T) (hm₀ : m₀.ComesBack S T)
    (hkey₀ : m₀.HoldsKeyFrame d₀) (hpatch : m₀.Patchable) {size : Nat}
    {table : NetworkMessageOffsetBuffer}
    (htable : networkMessageCalcSizeBinary T m₀ (some ⟨[], true⟩) = some (size, some table))
    {e₀ : Delivery} {stop₀ : Nat} (hplace₀ : m₀.StandsAt T e₀.src e₀.start stop₀)
    {old₀ nm : NetworkMessage} (hnm : networkMessageDecodeBinary e₀.src T ⟨⟨e₀.start, old₀⟩, []⟩ =
      .done () ⟨⟨stop₀, nm⟩, []⟩)
    {es : List Delivery} (hes : ∀ e ∈ es, ∃ m, e.Carries S T m₀ m) (old : NetworkMessage) :
    ∃ nm' r stop, steps (subscriberCycle T table.offsets) es nm = some nm' ∧
      networkMessageDecodeBinary (es.getLastD e₀).src T ⟨⟨(es.getLastD e₀).start, old⟩, []⟩ =
        .done () ⟨⟨stop, r⟩, []⟩ ∧ nm'.AgreesWith r := by
  have hfirst : e₀.Carries S T m₀ m₀ := ⟨hm₀, .refl S m₀, stop₀, hplace₀⟩
  obtain rfl : nm = m₀.received S := by
    obtain ⟨stop, hread⟩ := hfirst.decode hT old₀
    rw [hnm] at hread
    exact congrArg (fun c : DecodeCall => c.dst) (Outcome.done.inj hread).2
  obtain rfl : table = ⟨marks true 0 (messagePieces S m₀), true⟩ := by
    rw [hm₀.calcSize hT] at htable
    exact (Option.some.inj (Prod.mk.inj (Option.some.inj htable)).2).symm
  -- after each cycle: the items of the message that was delivered last
  obtain ⟨nm', hrun, m, hcarries, hsubscribed⟩ := steps_chain
    (I := fun e nm => ∃ m, Delivery.Carries S T m₀ e m ∧ Subscribed S T m₀ d₀ m nm)
    (fun ⟨p, hcarries⟩ ⟨m, _, h⟩ => by
      obtain ⟨hp, hsame, stop, hplace⟩ := hcarries
      obtain ⟨nm', hcycle, hnext⟩ :=
        h.cycle hm₀ hkey₀ hpatch hp hsame ((standsAt_iff hT hp).mp hplace).1
      exact ⟨nm', hcycle, p, ⟨hp, hsame, stop, hplace⟩, hnext⟩)
    (isChain_cons_of_forall hes) ⟨m₀, hfirst, subscribed_received hm₀ hkey₀⟩
  obtain ⟨stop, hread⟩ := hcarries.decode hT old
  exact ⟨nm', m.received S, stop, hrun, hread, hsubscribed.agreesWith hm₀ hkey₀ hpatch⟩

section

variable (n n' : UInt16) (b b' : UInt8)

theorem numberedByteMessage_canonical : (numberedByteMessage n b).Canonical where
  version := by show (1 : UInt8) ≤ 15; decide
  noMessageId := ⟨rfl, rfl⟩
  publisherId := nofun
  dataSetClassId _ := rfl
  groupHeader := nofun
  groupHeaderMembers := ⟨fun _ => rfl, fun _ => rfl, fun _ => rfl, nofun⟩
  payloadHeader _ := rfl
  timestamp _ := rfl
  picoseconds _ := rfl
  promotedFields _ := ⟨rfl, rfl⟩
  securityHeader _ := rfl
  securityFooterSize _ := rfl
  securityFooter _ := rfl
  signature _ := rfl
  messages d hd := by
    rw [List.mem_singleton.mp hd]
    refine ⟨⟨fun _ => rfl, fun _ => rfl, fun _ => rfl, fun _ => rfl, fun _ => rfl, fun _ => rfl⟩,
      rfl, rfl, fun _ => rfl, fun _ f hf => ?_, fun h => absurd rfl h, nofun, fun _ => rfl, nofun⟩
    rw [List.mem_singleton.mp hf]
    exact fun _ => rfl

theorem numberedByteMessage_comesBack :
    (numberedByteMessage n b).ComesBack (leafSpec builtinTypes) builtinTypes where
  filled := (numberedByteMessage_filled n b).imp fun _ _ =>
    readsBack_of_isPlainField standardTypes_builtinTypes
  encodable := numberedByteMessage_encodable n b
  canonical := numberedByteMessage_canonical n b
  promoted := nofun

theorem numberedByteMessage_patchable : (numberedByteMessage n b).Patchable :=
  ⟨fun _ => rfl, rfl, rfl, fun d hd => by
    rw [List.mem_singleton.mp hd]
    rfl⟩

theorem numberedByteMessage_holdsKeyFrame :
    ∃ d, (numberedByteMessage n b).HoldsKeyFrame d := ⟨_, rfl, rfl⟩

theorem numberedByteMessage_sameLayout : (numberedByteMessage n b).SameLayout
    (leafSpec builtinTypes) (numberedByteMessage n' b') :=
  ⟨rfl, rfl, rfl, rfl, .cons ⟨rfl, rfl, rfl⟩ .nil⟩

end

/-- The second message, behind another byte. -/
def shiftedNumberedByte : Bytes := [0xFF, 0x31, 7, 8, 2, 0, 0, 1, 0, 3, 43]

/-- The table of these messages for subscribers. -/
def numberedByteRtTable : NetworkMessageOffsetBuffer :=
  ⟨[⟨.publisherId, 1, .none⟩, ⟨.networkMessageSequenceNumber, 3, .sequenceNumber⟩,
    ⟨.payloadVariant, 8, .fieldData 0 0 (some (DataTypes.builtin .byte))⟩], true⟩

theorem numberedByteMessage_standsAt : (numberedByteMessage 1 42).StandsAt builtinTypes
    numberedByteBuffer 0 10 :=
  (standsAt_iff standardTypes_builtinTypes (numberedByteMessage_comesBack 1 42)).mpr
    ⟨⟨[0xFF], rfl⟩, rfl⟩

theorem numberedByteMessage_carried : Delivery.Carries (leafSpec builtinTypes) builtinTypes
    (numberedByteMessage 1 42) ⟨shiftedNumberedByte, 1⟩ (numberedByteMessage 2 43) :=
  have hm := numberedByteMessage_comesBack 2 43
  ⟨hm, numberedByteMessage_sameLayout 1 2 42 43, 11,
    (standsAt_iff standardTypes_builtinTypes hm).mpr ⟨⟨[], rfl⟩, rfl⟩⟩

theorem numberedByteMessage_followed : ∃ nm' r stop,
    steps (subscriberCycle builtinTypes numberedByteRtTable.offsets)
        [⟨shiftedNumberedByte, 1⟩, ⟨numberedByteBuffer, 0⟩, ⟨shiftedNumberedByte, 1⟩]
        (numberedByteMessage 1 42) = some nm' ∧
      networkMessageDecodeBinary shiftedNumberedByte builtinTypes ⟨⟨1, default⟩, []⟩ =
        .done () ⟨⟨stop, r⟩, []⟩ ∧ nm'.AgreesWith r := by
  obtain ⟨d, hkey⟩ := numberedByteMessage_holdsKeyFrame 1 42
  have hm := numberedByteMessage_comesBack 1 42
  have hsame := numberedByteMessage_sameLayout 1 1 42 42
  have htable : networkMessageCalcSizeBinary builtinTypes (numberedByteMessage 1 42)
      (some ⟨[], true⟩) = some (10, some numberedByteRtTable) := rfl
  have hread : networkMessageDecodeBinary numberedByteBuffer builtinTypes ⟨⟨0, default⟩, []⟩ =
      .done () ⟨⟨10, numberedByteMessage 1 42⟩, []⟩ :=
    hm.decode standardTypes_builtinTypes ⟨[0xFF], rfl⟩
  have hfirst : Delivery.Carries (leafSpec builtinTypes) builtinTypes (numberedByteMessage 1 42)
      ⟨numberedByteBuffer, 0⟩ (numberedByteMessage 1 42) :=
    ⟨hm, hsame, 10, numberedByteMessage_standsAt⟩
  refine @subscriberCycles_agree builtinTypes (leafSpec builtinTypes) _ d
    standardTypes_builtinTypes hm hkey (numberedByteMessage_patchable 1 42) 10 numberedByteRtTable
    htable ⟨numberedByteBuffer, 0⟩ 10 numberedByteMessage_standsAt default _ hread
    [⟨shiftedNumberedByte, 1⟩, ⟨numberedByteBuffer, 0⟩, ⟨shiftedNumberedByte, 1⟩] ?_ default
  intro e he
  simp only [List.mem_cons, List.not_mem_nil, or_false] at he
  rcases he with rfl | rfl | rfl
  · exact ⟨_, numberedByteMessage_carried⟩
  · exact ⟨_, hfirst⟩
  · exact ⟨_, numberedByteMessage_carried⟩

/-! ## The publisher's side -/

/-- Another value of the same size has as many bytes. -/
theorem bytes_length_changed {encoding : FieldEncoding} {f₀ f : DataValue}
    (hf₀ : S.Meets T encoding f₀) (hf : S.Meets T encoding f)
    (hchange : DataValueOf.ChangesTo T encoding f₀ f) :
    (S.bytes encoding f).length = (S.bytes encoding f₀).length :=
  Option.some.inj ((hf.size.symm.trans hchange.size).trans hf₀.size)

/-- A message that is changed in place keeps its layout. -/
theorem sameLayout_changed (hkey : m.HoldsKeyFrame d) (hm : m.ComesBack S T)
    (hchange : m.ChangesTo T p) (hp : p.ComesBack S T) : m.SameLayout S p := by
  obtain ⟨n, ds, rfl, hmessages⟩ := hchange
  rw [hkey.messages] at hmessages
  obtain ⟨e, es, ⟨k, fs, rfl, hfields⟩, hes, rfl⟩ := List.forall₂_cons_left_iff.mp hmessages
  obtain rfl := List.forall₂_nil_left_iff.mp hes
  have hmem : (d.withSequenceNr k).withFields fs ∈ [(d.withSequenceNr k).withFields fs] :=
    List.mem_singleton.mpr rfl
  have hencoding := (hm.canonical.messages d hkey.mem).encoding (by rw [hkey.type]; decide)
  have hall : d.keyFields = d.dataSetFields.getD [] := if_pos hencoding
  have hall' : ((d.withSequenceNr k).withFields fs).keyFields = fs := if_pos hencoding
  have hold := (hm.filled.payload.messages d hkey.mem).keyFields hkey.type
  have hnew : ∀ f ∈ ((d.withSequenceNr k).withFields fs).keyFields,
      S.ReadsBack T d.header.fieldEncoding f :=
    (hp.filled.payload.messages _ hmem).keyFields hkey.type
  rw [hall] at hold
  rw [hall'] at hnew
  refine ⟨rfl, rfl, rfl, rfl, ?_⟩
  rw [hkey.messages]
  refine .cons ⟨rfl, rfl, ?_⟩ .nil
  rw [hall, hall']
  -- each field has kept the size of its encoding
  refine List.ext_getElem (by simp only [List.length_map, hfields.length_eq]) fun j hj hj' => ?_
  rw [List.length_map] at hj hj'
  rw [List.getElem_map, List.getElem_map]
  exact bytes_length_changed (hold _ (List.getElem_mem hj')).meets
    (hnew _ (List.getElem_mem hj)).meets (hfields.get hj' hj)

/-- What a subscriber can follow, a publisher can update. -/
theorem updatable_of_patchable (h : m.Patchable) : m.Updatable false :=
  ⟨fun _ => rfl, fun _ _ => rfl, fun _ => rfl, h.timestamp, h.picoseconds⟩

/-! ## Both sides -/

/-- The publisher's buffer, and the subscriber's message. -/
structure Exchange where
  buffer : Bytes
  nm : NetworkMessage

/-- One cycle: the message, as it is now, is brought into the buffer, and the buffer is sent. -/
def exchangeCycle (T : DataTypes) (offsets rtOffsets : List NetworkMessageOffset)
    (p : NetworkMessage) (s : Exchange) : Option Exchange := do
  let buffer ← publishCycle T offsets p s.buffer
  let nm ← subscriberCycle T rtOffsets ⟨buffer, 0⟩ s.nm
  some ⟨buffer, nm⟩

/-- The message that is sent after this one. -/
structure NetworkMessage.SentAfter (S : FieldSpec) (T : DataTypes) (old new : NetworkMessage) :
    Prop where
  changes : old.ChangesTo T new
  served : new.Served T
  comesBack : new.ComesBack S T

/-- Between two cycles: the buffer begins with the last message, and the subscriber has it. -/
structure Exchanged (S : FieldSpec) (T : DataTypes) (m₀ : NetworkMessage) (d₀ : DataSetMessage)
    (rest : Bytes) (m : NetworkMessage) (s : Exchange) : Prop where
  table : marks false 0 (messagePieces S m) = marks false 0 (messagePieces S m₀)
  buffer : s.buffer = pieceBytes (messagePieces S m) ++ rest
  length : (pieceBytes (messagePieces S m)).length = (pieceBytes (messagePieces S m₀)).length
  subscribed : Subscribed S T m₀ d₀ m s.nm

theorem Exchanged.cycle {rest : Bytes} {s : Exchange} (h : Exchanged S T m₀ d₀ rest m s)
    (hm₀ : m₀.ComesBack S T) (hkey₀ : m₀.HoldsKeyFrame d₀) (hpatch : m₀.Patchable)
    (hnext : m.SentAfter S T p) :
    ∃ t, exchangeCycle T (marks false 0 (messagePieces S m₀)) (marks true 0 (messagePieces S m₀))
      p s = some t ∧ Exchanged S T m₀ d₀ rest p t := by
  have hm := h.subscribed.comesBack
  obtain ⟨d, hkey, hd, -⟩ := h.subscribed.items
  have hsame : m₀.SameLayout S p :=
    (h.subscribed.sameLayout.of_both (.refl S m₀)).of_both
      (sameLayout_changed hkey hm hnext.changes hnext.comesBack)
  have hpatchₘ := (patchable_of_sameLayout hkey₀ hkey h.subscribed.sameLayout hd).mpr hpatch
  have hrewrites : Rewrites T p false _ _ (m.Updatable false) :=
    rewrites_networkMessage hnext.changes hm.writes hnext.comesBack.writes hnext.served
  -- the publisher
  have hbuffer := hrewrites.update (updatable_of_patchable hpatchₘ) rest
  rw [h.table] at hbuffer
  -- the subscriber
  obtain ⟨nm, hcycle, hsubscribed⟩ := @Subscribed.cycle T S m₀ m p d₀ s.nm h.subscribed hm₀ hkey₀
    hpatch hnext.comesBack hsame ⟨pieceBytes (messagePieces S p) ++ rest, 0⟩ ⟨rest, rfl⟩
  refine ⟨⟨pieceBytes (messagePieces S p) ++ rest, nm⟩, ?_, ?_, rfl, ?_, hsubscribed⟩
  · rw [exchangeCycle, publishCycle, h.buffer, hbuffer]
    show (subscriberCycle _ _ _ _).bind _ = _
    rw [hcycle]
    rfl
  · rw [hrewrites.table, h.table]
  · rw [hrewrites.length, h.length]

/-- **Publisher and subscriber.** The first message was encoded and decoded, and both tables are
those of the first message. However it is changed in place from cycle to cycle, neither fast path
fails. After each cycle the buffer holds what the encoder writes for the last message, the decoder
reads that message in it, and the subscriber has the items of it. -/
theorem exchangeCycles_agree (hT : StandardTypes T) (hm₀ : m₀.ComesBack S T)
    (hkey₀ : m₀.HoldsKeyFrame d₀) (hpatch : m₀.Patchable) {size : Nat}
    {table rtTable : NetworkMessageOffsetBuffer}
    (htable : networkMessageCalcSizeBinary T m₀ (some ⟨[], false⟩) = some (size, some table))
    (hrtTable : networkMessageCalcSizeBinary T m₀ (some ⟨[], true⟩) = some (size, some rtTable))
    {buffer₀ : Bytes} (hroom : size ≤ buffer₀.length) {s : Exchange} {stop : Nat}
    (hbuffer : networkMessageEncodeBinary T m₀ ⟨buffer₀, 0⟩ = .done () ⟨s.buffer, stop⟩)
    {old₀ : NetworkMessage} (hnm : networkMessageDecodeBinary s.buffer T ⟨⟨0, old₀⟩, []⟩ =
      .done () ⟨⟨stop, s.nm⟩, []⟩)
    {ms : List NetworkMessage} (hms : List.IsChain (NetworkMessage.SentAfter S T) (m₀ :: ms))
    (old : NetworkMessage) :
    ∃ t, steps (exchangeCycle T table.offsets rtTable.offsets) ms s = some t ∧
      networkMessageEncodeBinary T (ms.getLastD m₀) ⟨buffer₀, 0⟩ = .done () ⟨t.buffer, size⟩ ∧
      networkMessageDecodeBinary t.buffer T ⟨⟨0, old⟩, []⟩ =
        .done () ⟨⟨size, (ms.getLastD m₀).received S⟩, []⟩ ∧
      t.nm.AgreesWith ((ms.getLastD m₀).received S) := by
  rw [hm₀.calcSize hT] at htable hrtTable
  obtain ⟨hsize, hmarks⟩ := Prod.mk.inj (Option.some.inj htable)
  obtain rfl := hsize
  obtain rfl := Option.some.inj hmarks
  obtain rfl := Option.some.inj (Prod.mk.inj (Option.some.inj hrtTable)).2
  have hcompletes : ∀ {m : NetworkMessage}, m.ComesBack S T →
      Completes (pieceBytes (messagePieces S m)) (networkMessageEncodeBinary T m) := fun hm =>
    completes_networkMessage hT hm.writes hm.encodable
  rw [(hcompletes hm₀).from_start hroom] at hbuffer
  have hstart := congrArg Buffer.bytes (Outcome.done.inj hbuffer).2
  have hdst : s.nm = m₀.received S := by
    rw [hm₀.decode hT ⟨_, hstart⟩] at hnm
    exact (congrArg (fun c : DecodeCall => c.dst) (Outcome.done.inj hnm).2).symm
  obtain ⟨t, hrun, hlast⟩ := steps_chain
    (I := Exchanged S T m₀ d₀ (buffer₀.drop (pieceBytes (messagePieces S m₀)).length))
    (fun hnext h => h.cycle hm₀ hkey₀ hpatch hnext) hms
    ⟨rfl, hstart.symm, rfl, hdst ▸ subscribed_received hm₀ hkey₀⟩
  have hm := hlast.subscribed.comesBack
  have hlength := hlast.length
  refine ⟨t, hrun, ?_, ?_, hlast.subscribed.agreesWith hm₀ hkey₀ hpatch⟩
  · rw [(hcompletes hm).from_start (hlength ▸ hroom), hlength, hlast.buffer]
  · rw [hm.decode hT ⟨_, hlast.buffer.symm⟩, hlength, Nat.zero_add]

theorem numberedByteMessage_sentAfter (n n' : UInt16) (b b' : UInt8) :
    (numberedByteMessage n b).SentAfter (leafSpec builtinTypes) builtinTypes
      (numberedByteMessage n' b') :=
  ⟨numberedByteMessage_changesTo n n' b b', (numberedByteMessage_publishable n' b').served,
    numberedByteMessage_comesBack n' b'⟩

theorem numberedByteMessage_exchanged : ∃ t,
    steps (exchangeCycle builtinTypes numberedByteTable.offsets numberedByteRtTable.offsets)
        [numberedByteMessage 2 43, numberedByteMessage 3 44]
        ⟨numberedByteBuffer, numberedByteMessage 1 42⟩ = some t ∧
      t.nm.AgreesWith ((numberedByteMessage 3 44).received (leafSpec builtinTypes)) := by
  obtain ⟨d, hkey⟩ := numberedByteMessage_holdsKeyFrame 1 42
  have hm := numberedByteMessage_comesBack 1 42
  have hbuffer : networkMessageEncodeBinary builtinTypes (numberedByteMessage 1 42)
      ⟨numberedByteBuffer, 0⟩ = .done () ⟨numberedByteBuffer, 10⟩ := rfl
  have hread : networkMessageDecodeBinary numberedByteBuffer builtinTypes ⟨⟨0, default⟩, []⟩ =
      .done () ⟨⟨10, numberedByteMessage 1 42⟩, []⟩ :=
    hm.decode standardTypes_builtinTypes ⟨[0xFF], rfl⟩
  have hms : List.IsChain (NetworkMessage.SentAfter (leafSpec builtinTypes) builtinTypes)
      [numberedByteMessage 1 42, numberedByteMessage 2 43, numberedByteMessage 3 44] :=
    .cons_cons (numberedByteMessage_sentAfter 1 2 42 43)
      (.cons_cons (numberedByteMessage_sentAfter 2 3 43 44) (.singleton _))
  obtain ⟨t, hrun, -, -, hagrees⟩ := @exchangeCycles_agree builtinTypes (leafSpec builtinTypes) _ d
    standardTypes_builtinTypes hm hkey (numberedByteMessage_patchable 1 42) 10 numberedByteTable
    numberedByteRtTable rfl rfl numberedByteBuffer (by decide)
    ⟨numberedByteBuffer, numberedByteMessage 1 42⟩ 10 hbuffer default hread _ hms default
  exact ⟨t, hrun, hagrees⟩

end OpenPubSub
