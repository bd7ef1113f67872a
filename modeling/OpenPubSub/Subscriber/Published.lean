import OpenPubSub.NetworkMessage.FastPath
import OpenPubSub.NetworkMessage.Truncation
import OpenPubSub.Subscriber.Run

/-!
# From the publisher to the log

What the encoder writes for a message is sent as a datagram, and a Subscriber that runs logs the
scalars of that message. Nothing else is logged: not for timeouts, and not for datagrams the
buffer was too small for.

- `NetworkMessage.shownReports` are the scalars in the message as it was published.
- `Received.Shows` and `Received.CutOff` are the answers of `receive`: a message, none, or a
  part of one.
- **`run_shows`**: the log of a whole run.
-/

namespace OpenPubSub

open Routine Writer

variable {T : DataTypes} {S : FieldSpec} {m : NetworkMessage} {d : DataSetMessage}

/-! ## What is shown of a message -/

/-- A field of a well-known type is a scalar. -/
def DataValue.ShowsScalar (f : DataValue) : Prop :=
  ∀ k, f.value.type.bind wellKnown = some k → (k.report f.value.data).isSome = true

/-- Arrays of the well-known types are not among the fields of key frames. -/
def NetworkMessage.ShowsScalars (m : NetworkMessage) : Prop :=
  ∀ d ∈ m.payload.dataSetMessages.getD [], d.header.dataSetMessageType = .dataKeyFrame →
    ∀ f ∈ d.dataSetFields.getD [], DataValue.ShowsScalar f

/-- The scalars of all key frames. Without a payload header, `listen` does not know how many
DataSetMessages there are. -/
def NetworkMessage.shownReports (m : NetworkMessage) : List Report :=
  if m.payloadHeaderEnabled then expectedReports m else []

/-- A scalar is the object behind its own pointer. -/
theorem pointee_of_report {k : WellKnown} {v : Value} {r : Report} (h : k.report v = some r) :
    v.pointee = some v := by
  cases v with
  | null | array _ => cases k <;> cases h
  | _ => rfl

theorem fieldReports_of_scalar {f : DataValue} (h : f.ShowsScalar) :
    fieldReports f = some f.scalarReports := by
  unfold fieldReports DataValue.scalarReports
  cases hk : f.value.type.bind wellKnown with
  | none => rfl
  | some k =>
    obtain ⟨r, hr⟩ := Option.isSome_iff_exists.mp (h k hk)
    simp only [pointee_of_report hr, Option.bind_some, hr, Option.map_some, Option.toList_some]

/-- A DataSetMessage as it is received. -/
theorem dataSetMessageReports_received (hfilled : d.Filled (S.ReadsBack T)) (hd : d.Canonical)
    (h : d.header.dataSetMessageType = .dataKeyFrame →
      ∀ f ∈ d.dataSetFields.getD [], DataValue.ShowsScalar f) :
    dataSetMessageReports d.received = some d.scalarReports := by
  have htype : d.received.header = d.header := by
    unfold DataSetMessage.received
    cases d.header.dataSetMessageType <;> rfl
  unfold dataSetMessageReports DataSetMessage.scalarReports
  rw [htype]
  by_cases hkey : d.header.dataSetMessageType = .dataKeyFrame
  · have hencoding := hd.encoding (by rw [hkey]; decide)
    have hlength := hfilled.keyLength hkey hencoding
    have hreceived : d.received =
        d.withFields ((d.dataSetFields.getD []).map DataValueOf.trimmed) := by
      simp only [DataSetMessage.received, hkey]
      rfl
    rw [if_neg (not_not_intro hkey), if_neg (not_not_intro hkey), hreceived, keyFrameReports]
    show collect d.fieldCount.toNat (fun i => ((d.dataSetFields.getD []).map
      DataValueOf.trimmed)[i]?.bind fieldReports) = _
    rw [← hlength, List.take_length]
    exact collect_map_eq_flatMap rfl fun f hf => fieldReports_of_scalar (h hkey f hf)
  · rw [if_pos hkey, if_pos hkey]

/-- The whole message, as it is received. -/
theorem networkMessageReports_received (hm : m.ComesBack S T) (hshows : m.ShowsScalars) :
    networkMessageReports (m.received S) = some m.shownReports := by
  have htype : (m.received S).networkMessageType = .dataSet := hm.filled.type
  have henabled : (m.received S).payloadHeaderEnabled = m.payloadHeaderEnabled := rfl
  have hheader : (m.received S).payloadHeader = m.payloadHeader := rfl
  have hmessages : (m.received S).payload.dataSetMessages.getD [] =
      (m.payload.dataSetMessages.getD []).map DataSetMessage.received := rfl
  unfold networkMessageReports NetworkMessage.shownReports
  rw [if_neg (not_not_intro htype), henabled, hheader, hmessages]
  cases hon : m.payloadHeaderEnabled with
  | false =>
    -- the count of a header that is not there is zero
    rw [hm.canonical.payloadHeader hon]
    rfl
  | true =>
    have hlength : (m.payload.dataSetMessages.getD []).length = m.payloadHeader.count.toNat := by
      rw [hm.filled.payload.length, NetworkMessage.dataSetMessageCount, if_pos hon]
    have hnone : m.payloadHeader.count < 1 → m.payload.dataSetMessages.getD [] = [] := by
      intro hcount
      have hlt : m.payloadHeader.count.toNat < 1 := UInt8.lt_iff_toNat_lt.mp hcount
      exact List.length_eq_zero_iff.mp (by omega)
    have hexpected : expectedReports m =
        (m.payload.dataSetMessages.getD []).flatMap DataSetMessage.scalarReports := by
      rw [expectedReports, ← hm.filled.payload.length, List.take_length]
    rw [if_pos rfl, hexpected]
    by_cases hcount : m.payloadHeader.count < 1
    · rw [if_pos ⟨rfl, hcount⟩, hnone hcount]
      rfl
    · rw [if_neg fun h => hcount h.2]
      exact collect_map_eq_flatMap hlength fun d hd => dataSetMessageReports_received
        (hm.filled.payload.messages d hd) (hm.canonical.messages d hd) (hshows d hd)

/-! ## The log of a run -/

/-- What is received in one call, and what is shown of it. -/
inductive Received.Shows (S : FieldSpec) (T : DataTypes) (r : Received) : List Report → Prop where
  | idle : ¬ r.Processed → r.Shows S T []
  | message (m : NetworkMessage) (stop : Nat) : r.status = good → m.ComesBack S T →
      m.ShowsScalars → m.StandsAt T r.bytes 0 stop → r.Shows S T m.shownReports

/-- The buffer was too small for the message. -/
def Received.CutOff (S : FieldSpec) (T : DataTypes) (r : Received) : Prop :=
  ∃ (m : NetworkMessage) (src : Bytes) (stop k : Nat), m.ComesBack S T ∧
    m.StandsAt T src 0 stop ∧ k < stop ∧ r.bytes = src.take k

theorem decodeAt_of_standsAt (hT : StandardTypes T) (hm : m.ComesBack S T) {src : Bytes}
    {stop : Nat} (hplace : m.StandsAt T src 0 stop) :
    decodeAt src T 0 = .done () ⟨⟨stop, m.received S⟩, []⟩ := by
  obtain ⟨hat, rfl⟩ := (standsAt_iff hT hm).mp hplace
  exact @networkMessageDecodeBinary_reads T S m hT hm.filled hm.encodable hm.canonical hm.promoted
    src ⟨⟨0, default⟩, []⟩ hat

/-- A message that is not whole is refused. -/
theorem not_accepted_of_cutOff (hT : StandardTypes T) (hstructs : T.NonemptyStructs) {r : Received}
    (h : r.CutOff S T) : ¬ r.Accepted T := by
  obtain ⟨m, src, stop, k, hm, hplace, hk, hbytes⟩ := h
  rintro ⟨t, hdecode⟩
  rw [hbytes] at hdecode
  obtain ⟨hwhole, -⟩ := networkMessageDecodeBinary_eq_done (decodeAt_of_standsAt hT hm hplace)
  obtain ⟨hrun, -⟩ := networkMessageDecodeBinary_eq_done hdecode
  rcases networkMessageDecodeBinaryInternal_cut (m := k) _ trivial () _ hwhole with
    hagree | ⟨e, u, hfail⟩
  · -- the same run would end behind the end
    have hadvances : (networkMessageDecodeBinaryInternal (src.take k) T ⟨0, default⟩).Sat _ _ :=
      networkMessageDecodeBinaryInternal_advances ⟨0, default⟩
    rw [hagree] at hadvances
    have hend : stop ≤ max 0 (src.take k).length := hadvances.2 hstructs
    have hlength := List.length_take_le k src
    omega
  · rw [hrun] at hfail
    cases hfail

theorem listen_shows (hT : StandardTypes T) {r : Received} {reports : List Report}
    (h : r.Shows S T reports) :
    listen T r Subscriber.new = .done ⟨good, reports⟩ Subscriber.new := by
  cases h with
  | idle hidle =>
    rw [listen_idle hidle]
    rfl
  | message m stop hstatus hm hshows hplace =>
    have hdecode := decodeAt_of_standsAt hT hm hplace
    rw [listen_accepted ⟨hstatus, ne_nil_of_accepted hdecode⟩ hdecode,
      networkMessageReports_received hm hshows]

/-- **The log of a run.** Whatever is received, timeouts and whole messages in any order, each call
logs the scalars of its message. With messages that were cut off in between, a run that comes
back has logged nothing of these. -/
theorem run_shows (hT : StandardTypes T) (hstructs : T.NonemptyStructs) {rs : List Received}
    {reports : List (List Report)} :
    (List.Forall₂ (Received.Shows S T) rs reports →
      run T rs Subscriber.new = .done (reports.map (⟨good, ·⟩)) Subscriber.new) ∧
    (List.Forall₂ (fun r l => r.Shows S T l ∨ r.CutOff S T ∧ l = []) rs reports →
      ∀ ls s, run T rs Subscriber.new = .done ls s →
        ls = reports.map (⟨good, ·⟩) ∧ s = Subscriber.new) := by
  constructor
  · intro h
    induction h with
    | nil => rfl
    | cons hr _ ih => rw [run_cons (listen_shows hT hr) rfl, map_done ih, List.map_cons]
  · intro h
    induction h with
    | nil =>
      rintro ls s ⟨⟩
      exact ⟨rfl, rfl⟩
    | @cons r l rs reports hr _ ih =>
      intro ls s hrun
      obtain ⟨listened, s', hlisten, hrest⟩ := bind_eq_done.mp hrun
      obtain ⟨-, rfl, hstatus, hrejected⟩ := (listen_step r).2 _ _ hlisten
      have hlog : listened = ⟨good, l⟩ := by
        rcases hr with hshows | ⟨hcut, rfl⟩
        · rw [listen_shows hT hshows] at hlisten
          exact (Outcome.done.inj hlisten).1.symm
        · have hnone := hrejected (not_accepted_of_cutOff hT hstructs hcut)
          rw [← hstatus, ← hnone]
      rw [if_pos hstatus] at hrest
      obtain ⟨ls', hls', rfl⟩ := map_eq_done.mp hrest
      obtain ⟨rfl, rfl⟩ := ih ls' s hls'
      exact ⟨by rw [hlog, List.map_cons], rfl⟩

/-- A key frame with the Byte 42, behind a payload header. -/
def announcedByteMessage : NetworkMessage :=
  { (default : NetworkMessage) with
    version := 1
    payloadHeaderEnabled := true
    payloadHeader := ⟨1, some [1]⟩
    payload := ⟨none, some [{ (default : DataSetMessage) with
      header := { (default : DataSetMessageHeader) with dataSetMessageValid := true }
      fieldCount := 1
      dataSetFields := some [byteField] }]⟩ }

/-- Its encoding. -/
def announcedByteBytes : Bytes := [0x41, 0x01, 0x01, 0x00, 0x01, 0x01, 0x00, 0x03, 0x2A]

theorem announcedByteMessage_comesBack :
    announcedByteMessage.ComesBack (leafSpec builtinTypes) builtinTypes where
  filled := {
    type := rfl
    writerIds := by
      rintro - ids ⟨⟩
      rfl
    promoted := nofun
    security := nofun
    payload := ⟨rfl, nofun, fun d hd => by
      rw [List.mem_singleton.mp hd]
      refine ⟨fun _ _ => rfl, fun _ f hf => ?_, nofun, nofun, nofun⟩
      rw [List.mem_singleton.mp hf]
      exact readsBack_of_isPlainField standardTypes_builtinTypes byteField_isPlain⟩ }
  encodable := {
    writerIds _ := rfl
    publisherId := nofun
    messages d hd := by
      rw [List.mem_singleton.mp hd]
      refine ⟨nofun, fun f hf => ?_⟩
      rw [List.mem_singleton.mp hf]
      exact byteField_isPlain.2
    signature := nofun }
  canonical := {
    version := by decide
    noMessageId := ⟨rfl, rfl⟩
    publisherId _ := rfl
    dataSetClassId _ := rfl
    groupHeader _ := rfl
    groupHeaderMembers := ⟨fun _ => rfl, fun _ => rfl, fun _ => rfl, fun _ => rfl⟩
    payloadHeader := nofun
    timestamp _ := rfl
    picoseconds _ := rfl
    promotedFields _ := ⟨rfl, rfl⟩
    securityHeader _ := rfl
    securityFooterSize _ := rfl
    securityFooter _ := rfl
    signature _ := rfl
    messages d hd := by
      rw [List.mem_singleton.mp hd]
      refine ⟨⟨fun _ => rfl, fun _ => rfl, fun _ => rfl, fun _ => rfl, fun _ => rfl,
        fun _ => rfl⟩, rfl, rfl, fun _ => rfl, fun _ f hf => ?_, fun h => absurd rfl h, nofun,
        fun _ => rfl, nofun⟩
      rw [List.mem_singleton.mp hf]
      exact fun _ => rfl }
  promoted := nofun

theorem announcedByteMessage_standsAt :
    announcedByteMessage.StandsAt builtinTypes announcedByteBytes 0 9 :=
  (standsAt_iff standardTypes_builtinTypes announcedByteMessage_comesBack).mpr ⟨⟨[], rfl⟩, rfl⟩

/-- The datagram as a whole, and without its last byte. -/
def announcedByte : Received := ⟨good, announcedByteBytes, by decide⟩

def cutByte : Received := ⟨good, announcedByteBytes.take 8, by decide⟩

theorem announcedByte_shows :
    announcedByte.Shows (leafSpec builtinTypes) builtinTypes [.byte 42] := by
  have hshows : announcedByteMessage.ShowsScalars := by
    intro d hd _ f hf k hk
    rw [List.mem_singleton.mp hd] at hf
    rw [List.mem_singleton.mp hf] at hk ⊢
    cases hk
    rfl
  exact .message announcedByteMessage 9 rfl announcedByteMessage_comesBack hshows
    announcedByteMessage_standsAt

theorem announcedByteMessage_logged :
    run builtinTypes [⟨0x00AA0000, [], by decide⟩, announcedByte] Subscriber.new =
        .done [⟨good, []⟩, ⟨good, [.byte 42]⟩] Subscriber.new ∧
      ∀ ls s, run builtinTypes [cutByte, announcedByte] Subscriber.new = .done ls s →
        ls = [⟨good, []⟩, ⟨good, [.byte 42]⟩] ∧ s = Subscriber.new := by
  have hcut : cutByte.CutOff (leafSpec builtinTypes) builtinTypes :=
    ⟨announcedByteMessage, announcedByteBytes, 9, 8, announcedByteMessage_comesBack,
      announcedByteMessage_standsAt, by decide, rfl⟩
  obtain ⟨hwhole, -⟩ := @run_shows builtinTypes (leafSpec builtinTypes) standardTypes_builtinTypes
    builtinTypes_nonemptyStructs [⟨0x00AA0000, [], by decide⟩, announcedByte] [[], [.byte 42]]
  obtain ⟨-, hparts⟩ := @run_shows builtinTypes (leafSpec builtinTypes) standardTypes_builtinTypes
    builtinTypes_nonemptyStructs [cutByte, announcedByte] [[], [.byte 42]]
  exact ⟨hwhole (.cons (.idle fun h => absurd h.1 (by decide)) (.cons announcedByte_shows .nil)),
    hparts (.cons (.inr ⟨hcut, rfl⟩) (.cons (.inl announcedByte_shows) .nil))⟩

end OpenPubSub
