import OpenPubSub.NetworkMessage.UpdateNwMessage

/-!
# The fast path and the full decoder

The table of the template has an entry for each item of its pieces, and the next message has
the same items at the same offsets. So the loop over the table is followed piece by piece, in
the message that is there now.

- `updates_networkMessage`: the loop replaces the header items and the fields of the one key
  frame. `refuses_networkMessage`: or it meets an entry that is not supported.
- `NetworkMessage.SameLayout` is what two messages of one template have in common, and
  `marks_sameLayout` what this means for the table.
- **`networkMessageUpdateBufferedNwMessage_keyFrame`**: with one key frame and supported items
  the fast path leaves what the decoder reads. With others it returns BADNOTSUPPORTED.
-/

namespace OpenPubSub

open Routine Writer

variable {src : Bytes} {T : DataTypes} {S : FieldSpec} {m₀ m nm : NetworkMessage}
  {d₀ d : DataSetMessage} {encoding : FieldEncoding}

/-! ## The items of the header sections -/

section Items

variable {α : Type} [Inhabited α] {x : Routine ErrorCode Nat α}
  {put : α → NetworkMessage → NetworkMessage} {a : α} {p q : Nat}

/-- An update that reads its item. -/
theorem updateFrom_done (hx : x p = .done a q) (nm : NetworkMessage) (j : Nat) :
    updateFrom x put ⟨nm, j, p, none⟩ = .done () ⟨put a nm, j, q, none⟩ := by
  simp only [updateFrom, decodeInto, hx]

/-- And the check behind it passes. -/
theorem updateFrom_checked (hx : x p = .done a q) (nm : NetworkMessage) (j : Nat) :
    (updateFrom x put >>= fun _ => returnIfBad) ⟨nm, j, p, none⟩ =
      .done () ⟨put a nm, j, q, none⟩ := by
  rw [bind_done (updateFrom_done hx nm j)]
  rfl

end Items

/-- Is the id a string? -/
def PublisherId.isString (id : PublisherId) : Bool :=
  match id with
  | .string _ => true
  | _ => false

/-- The number of the type. -/
def PublisherId.form (id : PublisherId) : Nat :=
  match id with
  | .byte _ => 0
  | .uint16 _ => 1
  | .uint32 _ => 2
  | .uint64 _ => 3
  | .string _ => 4
  | .reserved v => 5 + v

theorem typeByte_toNat (id : PublisherId) : id.typeByte.toNat = id.form := by
  cases id with
  | reserved v =>
    revert v
    decide
  | _ => rfl

/-- Ids of one type are of one form. -/
theorem sameForm_of_typeByte {x id : PublisherId} (h : x.typeByte = id.typeByte) :
    match id with
    | .byte _ => ∃ w, x = .byte w
    | .uint16 _ => ∃ w, x = .uint16 w
    | .uint32 _ => ∃ w, x = .uint32 w
    | .uint64 _ => ∃ w, x = .uint64 w
    | .string _ => ∃ w, x = .string w
    | .reserved _ => ∃ w, x = .reserved w := by
  have hform : x.form = id.form := by rw [← typeByte_toNat, ← typeByte_toNat, h]
  cases x <;> cases id <;>
    first
    | exact ⟨_, rfl⟩
    | (simp [PublisherId.form] at hform <;> omega)

/-- The type byte tells whether the publisher id is a string. -/
theorem isString_of_typeByte {x id : PublisherId} (h : x.typeByte = id.typeByte) :
    x.isString = id.isString := by
  have hform := sameForm_of_typeByte h
  cases id with
  | _ =>
    obtain ⟨w, rfl⟩ := hform
    rfl

/-- The message with this publisher id. -/
def NetworkMessage.withPublisherId (m : NetworkMessage) (id : PublisherId) : NetworkMessage :=
  { m with publisherId := id }

/-- The publisher id is updated if it is a number of the type it had. -/
theorem updatesTo_publisherId {id : PublisherId} (hid : id.fits = true)
    (hstring : id.isString = false) (htype : nm.publisherId.typeByte = id.typeByte) (j : Nat) :
    UpdatesTo src T [⟨some (.publisherId, .none), publisherIdBytes id⟩] (nm, j)
      (nm.withPublisherId id, j) := by
  refine updatesTo_item fun p hat => ?_
  show updatePublisherId src ⟨nm, j, p, none⟩ = _
  have hform := sameForm_of_typeByte htype
  unfold updatePublisherId
  -- the union is read in the form that the template left in it
  cases id with
  | byte v =>
    obtain ⟨w, hw⟩ := hform
    simp only [hw, updateFrom_done (readsAt_uaByte v p hat)]
    rfl
  | uint16 v =>
    obtain ⟨w, hw⟩ := hform
    simp only [hw, updateFrom_done (readsAt_uaUInt16 v p hat)]
    rfl
  | uint32 v =>
    obtain ⟨w, hw⟩ := hform
    simp only [hw, updateFrom_done (readsAt_uaUInt32 v p hat)]
    rfl
  | uint64 v =>
    obtain ⟨w, hw⟩ := hform
    simp only [hw, updateFrom_done (readsAt_uaUInt64 v p hat)]
    rfl
  | string s => cases hstring
  | reserved v => cases hid

/-- The members of the group header the table may have entries for. -/
def NetworkMessage.withGroupItems (m : NetworkMessage) (g : NetworkMessageGroupHeader) :
    NetworkMessage :=
  { m with groupHeader := { m.groupHeader with
      writerGroupId := g.writerGroupId, sequenceNumber := g.sequenceNumber } }

/-- The group header: what has no entry was the same before. -/
theorem updates_groupHeader {g : NetworkMessageGroupHeader}
    (hgroup : g.writerGroupIdEnabled = false → nm.groupHeader.writerGroupId = g.writerGroupId)
    (hnumber : g.sequenceNumberEnabled = false →
      nm.groupHeader.sequenceNumber = g.sequenceNumber) (j : Nat) :
    Updates src T (groupHeaderPieces g) (nm, j) (nm.withGroupItems g, j) := by
  -- the message between the two items
  let first : NetworkMessage :=
    { nm with groupHeader := { nm.groupHeader with writerGroupId := g.writerGroupId } }
  have hfirst : Updates src T (if g.writerGroupIdEnabled then
      [⟨some (.writerGroupId, .none), leBytes 2 g.writerGroupId.toNat⟩] else [])
      (nm, j) (first, j) := by
    refine .ite (fun _ => (updatesTo_item fun p hat => ?_).updates) fun h => ?_
    · exact updateFrom_checked (readsAt_uaUInt16 _ p hat) nm j
    · simp only [first, ← hgroup h]
  have hsecond : Updates src T (if g.sequenceNumberEnabled then
      [⟨some (.networkMessageSequenceNumber, .sequenceNumber), leBytes 2 g.sequenceNumber.toNat⟩]
      else []) (first, j) (nm.withGroupItems g, j) := by
    refine .ite (fun _ => (updatesTo_item fun p hat => ?_).updates) fun h => ?_
    · exact updateFrom_checked (readsAt_uaUInt16 _ p hat) first j
    · simp only [first, NetworkMessage.withGroupItems, ← hnumber h]
  exact (isPlain_plain _).updates.append (hfirst.append ((isPlain_plainIf _ _).updates.append
    ((isPlain_plainIf _ _).updates.append hsecond)))

/-- Of the writer ids the first one is read. -/
theorem updates_writerId {ids : List UInt16} {id : UInt16}
    (hold : nm.payloadHeader.dataSetWriterIds.getD [] ≠ []) (j : Nat) :
    Updates src T [⟨some (.dataSetWriterId, .none), (id :: ids).flatMap fun id =>
      leBytes 2 id.toNat⟩] (nm, j) (nm.setFirstWriterId id, j) := by
  intro pos offset o hat
  rw [pieceBytes_cons, pieceBytes_nil, List.append_nil, List.flatMap_cons, at_append] at hat
  have hread := readsAt_uaUInt16 id _ hat.1
  have hwriter : updateWriterId src ⟨nm, j, offset + pos, none⟩ =
      .done () ⟨nm.setFirstWriterId id, j, offset + pos + (leBytes 2 id.toNat).length, none⟩ := by
    rw [updateWriterId, if_neg hold]
    exact updateFrom_done hread nm j
  refine ⟨offset + pos + (leBytes 2 id.toNat).length, ?_⟩
  rw [updateLoop_item]
  exact bind_done hwriter

/-! ## Fields -/

section Fields

variable {α : Type} [Inhabited α] {x : Routine ErrorCode Nat α} {put : α → DataValue → DataValue}
  {a : α} {p q : Nat} {old : DataValue} (ds : List DataSetMessage) (pre post : List DataValue)

/-- The field that the counter points at. -/
theorem onFirstField_middle (f : DataValue → DataValue) :
    (nm.withDataSetMessages (d.withFields (pre ++ old :: post) :: ds)).onFirstField pre.length f =
      nm.withDataSetMessages (d.withFields (pre ++ f old :: post) :: ds) := by
  simp only [NetworkMessage.onFirstField, NetworkMessage.withDataSetMessages, Option.map_some,
    List.modify_zero_cons, DataSetMessage.withFields_onField]

/-- A field is read into its place. -/
theorem updateField_done (hx : x p = .done a q) :
    updateField x put
        ⟨nm.withDataSetMessages (d.withFields (pre ++ old :: post) :: ds), pre.length, p, none⟩ =
      .done () ⟨nm.withDataSetMessages (d.withFields (pre ++ put a old :: post) :: ds), pre.length,
        q, none⟩ := by
  have hfield : (nm.withDataSetMessages
      (d.withFields (pre ++ old :: post) :: ds)).firstField? pre.length = some old := by
    simp only [NetworkMessage.firstField?, NetworkMessage.withDataSetMessages,
      DataSetMessage.withFields, Option.getD_some, List.head?_cons, Option.bind_some,
      List.getElem?_append_right (Nat.le_refl _), Nat.sub_self, List.getElem?_cons_zero]
  rw [updateField, hfield, if_pos (Option.isSome_some), updateFrom_done hx, onFirstField_middle]

/-- The counter goes on to the next field. -/
theorem nextField_done (f : DataValue → DataValue) :
    nextField f
        ⟨nm.withDataSetMessages (d.withFields (pre ++ old :: post) :: ds), pre.length, q, none⟩ =
      .done () ⟨nm.withDataSetMessages (d.withFields (pre ++ f old :: post) :: ds), pre.length + 1,
        q, none⟩ := by
  rw [nextField, modify_run, onFirstField_middle]

/-- One field is replaced by the one that is received. -/
theorem updatesTo_field (hfields : encoding.hasFields = true) {f : DataValue}
    (hf : S.ReadsBack T encoding f) (hshape : f.FitsEncoding encoding)
    (hold : old.FitsEncoding encoding) (i j : Nat) :
    UpdatesTo src T [⟨fieldItem encoding i j f, S.bytes encoding f⟩]
      (nm.withDataSetMessages (d.withFields (pre ++ old :: post) :: ds), pre.length)
      (nm.withDataSetMessages (d.withFields (pre ++ f.trimmed :: post) :: ds),
        pre.length + 1) := by
  cases encoding with
  | variant =>
    refine updatesTo_item fun p hat => ?_
    have hread := hf.variant rfl src p hat
    have hresult : f.trimmed = { old with value := f.value.trimmed, hasValue := true } := by
      rw [trimmed_of_fitsEncoding hshape, hold rfl]
    rw [hresult]
    show (updateField (uaVariantDecodeBinary src T) _ >>= fun _ => _) _ = _
    rw [bind_done (updateField_done ds pre post hread)]
    exact nextField_done ds pre post fun f => { f with hasValue := true }
  | dataValue =>
    refine updatesTo_item fun p hat => ?_
    have hread := hf.dataValue rfl src p hat
    show (updateField (uaDataValueDecodeBinary src T) _ >>= fun _ => _) _ = _
    rw [bind_done (updateField_done ds pre post hread)]
    exact nextField_done ds pre post id
  | rawData | reserved => cases hfields

/-- All fields, as long as there is one to replace for each. The induction is on the fields
left; `pre` are those that were replaced. -/
theorem updatesTo_fields (hfields : encoding.hasFields = true) {f : DataValue}
    {fs olds : List DataValue} (hf : ∀ g ∈ f :: fs, S.ReadsBack T encoding g)
    (hshape : ∀ g ∈ f :: fs, g.FitsEncoding encoding) (hlen : olds.length = (f :: fs).length)
    (hold : ∀ old ∈ olds, DataValueOf.FitsEncoding encoding old) (i j : Nat) :
    UpdatesTo src T (((f :: fs).zipIdx j).flatMap fun p =>
        [⟨fieldItem encoding i p.2 p.1, S.bytes encoding p.1⟩])
      (nm.withDataSetMessages (d.withFields (pre ++ olds) :: ds), pre.length)
      (nm.withDataSetMessages (d.withFields (pre ++ (f :: fs).map DataValueOf.trimmed) :: ds),
        pre.length + (f :: fs).length) := by
  induction fs generalizing f olds pre j with
  | nil =>
    obtain ⟨old, rfl⟩ := List.length_eq_one_iff.mp hlen
    exact updatesTo_field ds pre [] hfields (hf f (List.mem_singleton_self f))
      (hshape f (List.mem_singleton_self f)) (hold old (List.mem_singleton_self old)) i j
  | cons g gs ih =>
    obtain ⟨old, olds, rfl⟩ := List.exists_cons_of_length_eq_add_one hlen
    obtain ⟨hf, hfs⟩ := List.forall_mem_cons.mp hf
    obtain ⟨hshape, hshapes⟩ := List.forall_mem_cons.mp hshape
    obtain ⟨hold, holds⟩ := List.forall_mem_cons.mp hold
    have ih := ih (pre ++ [f.trimmed]) hfs hshapes (Nat.succ.inj hlen) holds (j + 1)
    simp only [List.append_assoc, List.singleton_append, List.length_append,
      List.length_singleton] at ih
    have hfirst : UpdatesTo src T _ (nm.withDataSetMessages (d.withFields _ :: ds), _) _ :=
      updatesTo_field ds pre olds hfields hf hshape hold i j
    rw [List.zipIdx_cons, List.flatMap_cons, List.length_cons, Nat.add_comm (List.length _) 1,
      ← Nat.add_assoc]
    exact hfirst.updates.appendTo ih

end Fields

/-! ## The header of a DataSetMessage -/

/-- Without a sequence number nothing in the header has an entry. -/
theorem isPlain_dataSetMessageHeader {h : DataSetMessageHeader}
    (hnumber : h.dataSetMessageSequenceNrEnabled = false) (i : Nat) :
    IsPlain (dataSetMessageHeaderPieces i h) := by
  refine (isPlain_plain _).append ((isPlain_plainIf _ _).append
    (IsPlain.append ?_ (isPlain_afterSequenceNr h)))
  rw [hnumber]
  exact isPlain_nil

/-- The sequence number has an entry that no update serves. -/
theorem refuses_dataSetMessageHeader {h : DataSetMessageHeader}
    (hnumber : h.dataSetMessageSequenceNrEnabled = true) (i : Nat) (s : NetworkMessage × Nat) :
    Refuses src T (dataSetMessageHeaderPieces i h) s := by
  refine (isPlain_plain _).updates.refuses ((isPlain_plainIf _ _).updates.refuses
    (Refuses.append ?_ _))
  rw [hnumber]
  exact refuses_item fun p => rfl

/-! ## One key frame -/

/-- A message with one DataSetMessage, which is a key frame. -/
structure NetworkMessage.HoldsKeyFrame (m : NetworkMessage) (d : DataSetMessage) : Prop where
  messages : m.payload.dataSetMessages.getD [] = [d]
  type : d.header.dataSetMessageType = .dataKeyFrame

/-- The key frame is one of the DataSetMessages. -/
theorem NetworkMessage.HoldsKeyFrame.mem (hm : m.HoldsKeyFrame d) :
    d ∈ m.payload.dataSetMessages.getD [] := by
  rw [hm.messages]
  exact List.mem_singleton_self d

/-- A single key frame is all of the payload. -/
theorem messagesPieces_single (S : FieldSpec) (hm : m.HoldsKeyFrame d) :
    messagesPieces S m = dataSetMessageHeaderPieces 0 d.header ++ keyFramePieces S 0 d := by
  rw [messagesPieces, hm.messages]
  simp only [List.zipIdx_cons, List.zipIdx_nil, List.flatMap_cons, List.flatMap_nil,
    List.append_nil, dataSetMessagePieces, hm.type]

/-- All fields of a key frame are read into those that were there before. -/
theorem updates_keyFrame {d e : DataSetMessage} {olds : List DataValue}
    (hfilled : d.Filled (S.ReadsBack T)) (hd : d.Canonical)
    (htype : d.header.dataSetMessageType = .dataKeyFrame)
    (hlen : olds.length = d.keyFields.length)
    (hold : ∀ old ∈ olds, DataValueOf.FitsEncoding d.header.fieldEncoding old)
    (ds : List DataSetMessage) :
    Updates src T (keyFramePieces S 0 d) (nm.withDataSetMessages (e.withFields olds :: ds), 0)
        (nm.withDataSetMessages (e.withFields (d.keyFields.map DataValueOf.trimmed) :: ds),
          d.keyFields.length) ∧
      (d.keyFields ≠ [] → UpdatesTo src T (keyFramePieces S 0 d)
        (nm.withDataSetMessages (e.withFields olds :: ds), 0)
        (nm.withDataSetMessages (e.withFields (d.keyFields.map DataValueOf.trimmed) :: ds),
          d.keyFields.length)) := by
  have hfields := hd.encoding (by rw [htype]; decide)
  have hback := hfilled.keyFields htype
  have hshape := hd.keyFields htype
  have hkey : d.keyFields = d.dataSetFields.getD [] := if_pos hfields
  have hcount : IsPlain (fieldCountPieces d) := isPlain_plainIf _ _
  rw [← hkey] at hshape
  cases hcons : d.keyFields with
  | nil =>
    rw [hcons, List.length_nil, List.length_eq_zero_iff] at hlen
    subst hlen
    refine ⟨IsPlain.updates ?_, fun h => absurd rfl h⟩
    rw [keyFramePieces, hcons]
    exact hcount.append isPlain_nil
  | cons f fs =>
    rw [hcons] at hlen hback hshape
    have hloop :
      UpdatesTo src T _ (nm.withDataSetMessages (e.withFields ([] ++ olds) :: ds), _) _ :=
      updatesTo_fields ds [] hfields hback hshape hlen hold 0 0
    rw [List.nil_append, List.nil_append, List.length_nil, Nat.zero_add] at hloop
    have hall := hcount.updates.appendTo hloop
    rw [keyFramePieces, hcons]
    exact ⟨hall.updates, fun _ => hall⟩

/-! ## The whole message -/

/-- The table has entries the update knows only: no timestamps, no sequence numbers of
DataSetMessages, and a publisher id that is not a string. -/
structure NetworkMessage.Patchable (m : NetworkMessage) : Prop where
  publisherId : m.publisherIdEnabled = true → m.publisherId.isString = false
  timestamp : m.timestampEnabled = false
  picoseconds : m.picosecondsEnabled = false
  sequenceNr : ∀ d ∈ m.payload.dataSetMessages.getD [],
    d.header.dataSetMessageSequenceNrEnabled = false

/-- What `m` has no bytes for is the same in `nm`. -/
structure NetworkMessage.Follows (nm m : NetworkMessage) : Prop where
  publisherIdType : nm.publisherId.typeByte = m.publisherId.typeByte
  publisherId : m.publisherIdEnabled = false → nm.publisherId = m.publisherId
  groupHeader : m.groupHeaderEnabled = false → nm.groupHeader = m.groupHeader
  writerGroupId : m.groupHeader.writerGroupIdEnabled = false →
    nm.groupHeader.writerGroupId = m.groupHeader.writerGroupId
  sequenceNumber : m.groupHeader.sequenceNumberEnabled = false →
    nm.groupHeader.sequenceNumber = m.groupHeader.sequenceNumber
  writerIds : m.payloadHeaderEnabled = true → nm.payloadHeader.dataSetWriterIds.getD [] ≠ []
  noWriterIds : m.payloadHeaderEnabled = false → nm.payloadHeader.dataSetWriterIds = none

/-- The first writer id. -/
def NetworkMessage.firstWriterId (m : NetworkMessage) : UInt16 :=
  (m.payloadHeader.dataSetWriterIds.getD []).headD 0

/-- The header items of `m` in `nm`. -/
def NetworkMessage.withHeaderItems (nm m : NetworkMessage) : NetworkMessage :=
  ((nm.withPublisherId m.publisherId).withGroupItems m.groupHeader).setFirstWriterId m.firstWriterId

/-- The sections in front of the payload header. -/
theorem updates_head (hid : m.publisherIdEnabled = true →
      m.publisherId.fits = true ∧ m.publisherId.isString = false)
    (hnm : nm.Follows m) (j : Nat) :
    Updates src T (headPieces m) (nm, j)
      ((nm.withPublisherId m.publisherId).withGroupItems m.groupHeader, j) := by
  have hpublisher : Updates src T (if m.publisherIdEnabled then
      [⟨some (.publisherId, .none), publisherIdBytes m.publisherId⟩] else []) (nm, j)
      (nm.withPublisherId m.publisherId, j) := by
    refine .ite (fun h => ?_) fun h => ?_
    · exact (updatesTo_publisherId (hid h).1 (hid h).2 hnm.publisherIdType j).updates
    · rw [NetworkMessage.withPublisherId, ← hnm.publisherId h]
  have hgroup : Updates src T (if m.groupHeaderEnabled then groupHeaderPieces m.groupHeader else [])
      (nm.withPublisherId m.publisherId, j)
      ((nm.withPublisherId m.publisherId).withGroupItems m.groupHeader, j) := by
    refine .ite (fun _ => ?_) fun h => ?_
    · exact @updates_groupHeader _ _ (nm.withPublisherId m.publisherId) _ hnm.writerGroupId
        hnm.sequenceNumber j
    · rw [NetworkMessage.withGroupItems, ← hnm.groupHeader h]
      rfl
  exact (isPlain_flags m).updates.append (hpublisher.append ((isPlain_plainIf _ _).updates.append
    hgroup))

/-- Of the writer ids only the first has an entry. -/
theorem updates_payloadHeader (hids : m.payloadHeaderEnabled = true →
      m.payloadHeader.dataSetWriterIds.getD [] ≠ [])
    (hold : m.payloadHeaderEnabled = true → nm.payloadHeader.dataSetWriterIds.getD [] ≠ [])
    (hnone : m.payloadHeaderEnabled = false → nm.payloadHeader.dataSetWriterIds = none)
    (j : Nat) :
    Updates src T (if m.payloadHeaderEnabled then payloadHeaderPieces m else []) (nm, j)
      (nm.setFirstWriterId m.firstWriterId, j) := by
  refine .ite (fun h => ?_) fun h => ?_
  · obtain ⟨id, ids, hcons⟩ := List.exists_cons_of_ne_nil (hids h)
    have hfirst : m.firstWriterId = id := by rw [NetworkMessage.firstWriterId, hcons]; rfl
    rw [payloadHeaderPieces, hcons, hfirst]
    exact (isPlain_plain _).updates.append (updates_writerId (hold h) j)
  · have hnone := hnone h
    rw [NetworkMessage.setFirstWriterId, hnone, Option.map_none, ← hnone]

theorem withDataSetMessages_self {ds : List DataSetMessage}
    (h : nm.payload.dataSetMessages = some ds) : nm.withDataSetMessages ds = nm := by
  rw [NetworkMessage.withDataSetMessages, ← h]

/-- Without timestamps nothing in the extended header has an entry. -/
theorem isPlain_extendedHeader (htimestamp : m.timestampEnabled = false)
    (hpico : m.picosecondsEnabled = false) : IsPlain (extendedHeaderPieces S m) := by
  rw [extendedHeaderPieces, htimestamp, hpico]
  exact isPlain_nil.append (isPlain_nil.append (isPlain_promoted S m))

/-- The timestamps have entries that no update serves. -/
theorem refuses_extendedHeader
    (h : m.timestampEnabled = true ∨ m.picosecondsEnabled = true) (s : NetworkMessage × Nat) :
    Refuses src T (extendedHeaderPieces S m) s := by
  cases htimestamp : m.timestampEnabled with
  | true =>
    rw [extendedHeaderPieces, htimestamp]
    exact (refuses_item fun p => rfl).append _
  | false =>
    rw [htimestamp] at h
    have hpico := h.resolve_left Bool.false_ne_true
    rw [extendedHeaderPieces, htimestamp, hpico]
    exact isPlain_nil.updates.refuses ((refuses_item fun p => rfl).append _)

/-- Everything in front of the DataSetMessages. -/
def leadPieces (S : FieldSpec) (m : NetworkMessage) : List Piece :=
  (if m.securityEnabled then securityHeaderPieces m.securityHeader else []) ++ sizesPieces S m

/-- Security header and sizes have no entry. -/
theorem isPlain_lead (S : FieldSpec) (m : NetworkMessage) : IsPlain (leadPieces S m) :=
  (IsPlain.ite fun _ => isPlain_securityHeader _).append (isPlain_plainIf _ _)

/-- The sections of a message with one key frame. -/
theorem messagePieces_eq (S : FieldSpec) (hm : m.HoldsKeyFrame d) :
    messagePieces S m = headPieces m ++ ((if m.payloadHeaderEnabled then payloadHeaderPieces m
      else []) ++ (extendedHeaderPieces S m ++ (leadPieces S m ++
        (dataSetMessageHeaderPieces 0 d.header ++ (keyFramePieces S 0 d ++
          if m.securityEnabled then trailerPieces m else []))))) := by
  simp only [messagePieces, tailPieces, messagesPieces_single S hm, leadPieces, List.append_assoc]

/-- A message that the encoder writes as `S` says, and that comes back. -/
structure NetworkMessage.ComesBack (S : FieldSpec) (T : DataTypes) (m : NetworkMessage) : Prop where
  filled : m.Filled (S.ReadsBack T)
  encodable : m.Encodable S
  canonical : m.Canonical
  promoted : m.PromotedFit S

namespace NetworkMessage.ComesBack

/-- A payload header with a message has a writer id. -/
theorem writerIds_ne_nil (hm : m.ComesBack S T) (hkey : m.HoldsKeyFrame d)
    (henabled : m.payloadHeaderEnabled = true) : m.payloadHeader.dataSetWriterIds.getD [] ≠ [] := by
  obtain ⟨ids, hids⟩ := Option.isSome_iff_exists.mp (hm.encodable.writerIds henabled)
  have hcount := hm.filled.writerIds henabled ids hids
  have hmessages := hm.filled.payload.length
  rw [hkey.messages, NetworkMessage.dataSetMessageCount, if_pos henabled, ← hcount] at hmessages
  rw [hids, Option.getD_some]
  rintro rfl
  cases hmessages

end NetworkMessage.ComesBack

/-- Everything in front of the fields, where all of it is supported. -/
theorem updates_front (hm : m.ComesBack S T) (hkey : m.HoldsKeyFrame d)
    (hid : m.publisherIdEnabled = true → m.publisherId.isString = false) (hnm : nm.Follows m) :
    Updates src T (headPieces m) (nm, 0)
        ((nm.withPublisherId m.publisherId).withGroupItems m.groupHeader, 0) ∧
      Updates src T (if m.payloadHeaderEnabled then payloadHeaderPieces m else [])
        ((nm.withPublisherId m.publisherId).withGroupItems m.groupHeader, 0)
        (nm.withHeaderItems m, 0) :=
  ⟨updates_head (fun h => ⟨hm.encodable.publisherId h, hid h⟩) hnm 0,
    @updates_payloadHeader src T m ((nm.withPublisherId m.publisherId).withGroupItems m.groupHeader)
      (hm.writerIds_ne_nil hkey) hnm.writerIds hnm.noWriterIds 0⟩

/-- Where the message stands, the update replaces all items, and is at the end if a field is. -/
theorem updates_networkMessage {e : DataSetMessage} {olds : List DataValue}
    (hm : m.ComesBack S T) (hkey : m.HoldsKeyFrame d) (hpatch : m.Patchable) (hnm : nm.Follows m)
    (hmessages : nm.payload.dataSetMessages = some [e.withFields olds])
    (hlen : olds.length = d.keyFields.length)
    (hold : ∀ old ∈ olds, DataValueOf.FitsEncoding d.header.fieldEncoding old) :
    let t := ((nm.withHeaderItems m).withDataSetMessages
      [e.withFields (d.keyFields.map DataValueOf.trimmed)], d.keyFields.length)
    Updates src T (messagePieces S m) (nm, 0) t ∧
      (d.keyFields ≠ [] →
        pieceBytes (if m.securityEnabled then trailerPieces m else []) = [] →
        UpdatesTo src T (messagePieces S m) (nm, 0) t) := by
  have hd := hkey.mem
  obtain ⟨hhead, hheader⟩ : Updates src T (headPieces m) _ _ ∧ _ :=
    updates_front hm hkey hpatch.publisherId hnm
  have hextended : IsPlain (extendedHeaderPieces S m) :=
    isPlain_extendedHeader hpatch.timestamp hpatch.picoseconds
  have hfirst : IsPlain (dataSetMessageHeaderPieces 0 d.header) :=
    isPlain_dataSetMessageHeader (hpatch.sequenceNr d hd) 0
  have htrailer : IsPlain (if m.securityEnabled then trailerPieces m else []) :=
    .ite fun _ => isPlain_trailer m
  have hself : (nm.withHeaderItems m).withDataSetMessages [e.withFields olds] =
      nm.withHeaderItems m := withDataSetMessages_self hmessages
  obtain ⟨hfields, hfieldsTo⟩ := @updates_keyFrame src T S (nm.withHeaderItems m) d e olds
    (hm.filled.payload.messages d hd) (hm.canonical.messages d hd) hkey.type hlen hold []
  rw [hself] at hfields hfieldsTo
  rw [messagePieces_eq S hkey]
  refine ⟨?_, fun hne hnil => ?_⟩
  · exact hhead.append (hheader.append (hextended.updates.append ((isPlain_lead S m).updates.append
      (hfirst.updates.append (hfields.append htrailer.updates)))))
  · have hlast := (hfieldsTo hne).appendPlain htrailer hnil
    exact hhead.appendTo (hheader.appendTo (hextended.updates.appendTo
      ((isPlain_lead S m).updates.appendTo (hfirst.updates.appendTo hlast))))

/-- Otherwise it meets an entry that is not supported. -/
theorem refuses_networkMessage (hm : m.ComesBack S T) (hkey : m.HoldsKeyFrame d)
    (hid : m.publisherIdEnabled = true → m.publisherId.isString = false)
    (hpatch : ¬ m.Patchable) (hnm : nm.Follows m) :
    Refuses src T (messagePieces S m) (nm, 0) := by
  obtain ⟨hhead, hheader⟩ : Updates src T (headPieces m) _ _ ∧ _ := updates_front hm hkey hid hnm
  rw [messagePieces_eq S hkey]
  refine hhead.refuses (hheader.refuses ?_)
  by_cases htimes : m.timestampEnabled = true ∨ m.picosecondsEnabled = true
  · exact (refuses_extendedHeader htimes _).append _
  · rw [not_or, Bool.not_eq_true, Bool.not_eq_true] at htimes
    have hnumber : d.header.dataSetMessageSequenceNrEnabled = true := by
      by_contra hnumber
      rw [Bool.not_eq_true] at hnumber
      refine hpatch ⟨hid, htimes.1, htimes.2, fun d' hd' => ?_⟩
      rw [hkey.messages] at hd'
      rw [List.mem_singleton.mp hd', hnumber]
    exact (isPlain_extendedHeader htimes.1 htimes.2).updates.refuses
      ((isPlain_lead S m).updates.refuses ((refuses_dataSetMessageHeader hnumber 0 _).append _))

/-! ## Messages of one layout -/

/-- Kind of entry and length. -/
def Piece.shape (piece : Piece) : Option NetworkMessageOffsetType × Nat :=
  (piece.item.map Prod.fst, piece.bytes.length)

/-- Pieces of one shape have the same entries, but for what these point to. -/
theorem marks_key {as bs : List Piece} (h : as.map Piece.shape = bs.map Piece.shape) (rt : Bool)
    (offset : Nat) :
    (marks rt offset as).map NetworkMessageOffset.key =
      (marks rt offset bs).map NetworkMessageOffset.key := by
  induction as generalizing bs offset with
  | nil =>
    rw [List.map_nil, eq_comm, List.map_eq_nil_iff] at h
    rw [h]
  | cons a as ih =>
    obtain ⟨b, rest, rfl, hshape, hrest⟩ := List.map_eq_cons_iff.mp h.symm
    obtain ⟨item, bytes⟩ := a
    obtain ⟨item', bytes'⟩ := b
    obtain ⟨hitem, hlen⟩ := Prod.mk.inj hshape
    -- both pieces have an entry of this kind, or neither has one
    have hmark : (Piece.mark rt offset ⟨item, bytes⟩).map NetworkMessageOffset.key =
        (Piece.mark rt offset ⟨item', bytes'⟩).map NetworkMessageOffset.key := by
      cases item with
      | none =>
        cases item' with
        | none => rfl
        | some _ => cases hitem
      | some i =>
        cases item' with
        | none => cases hitem
        | some i' =>
          obtain ⟨contentType, source⟩ := i
          obtain ⟨contentType', source'⟩ := i'
          obtain rfl : contentType' = contentType := Option.some.inj hitem
          simp only [Piece.mark]
          split <;> rfl
    rw [marks, marks, List.map_append, List.map_append, hmark, ← show bytes'.length = bytes.length
      from hlen, ih hrest.symm]

/-- A section that may be missing. -/
@[simp] theorem shapes_ite (c : Bool) (pieces : List Piece) :
    (if c then pieces else []).map Piece.shape = if c then pieces.map Piece.shape else [] := by
  cases c <;> rfl

@[simp] theorem shape_leBytes (item : Option (NetworkMessageOffsetType × OffsetSource))
    (k n : Nat) :
    Piece.shape ⟨item, leBytes k n⟩ = (item.map Prod.fst, k) := by
  rw [Piece.shape, leBytes_length]

@[simp] theorem shape_byte (item : Option (NetworkMessageOffsetType × OffsetSource)) (b : UInt8) :
    Piece.shape ⟨item, [b]⟩ = (item.map Prod.fst, 1) := rfl

/-- What the flags tell of a group header. -/
def NetworkMessageGroupHeader.flagsOnly (g : NetworkMessageGroupHeader) :
    NetworkMessageGroupHeader :=
  { g with writerGroupId := 0, groupVersion := 0, networkMessageNumber := 0, sequenceNumber := 0 }

/-- What the flags tell of a message. -/
def NetworkMessage.flagsOnly (m : NetworkMessage) : NetworkMessage :=
  { (default : NetworkMessage) with
    publisherIdEnabled := m.publisherIdEnabled
    groupHeaderEnabled := m.groupHeaderEnabled
    payloadHeaderEnabled := m.payloadHeaderEnabled
    dataSetClassIdEnabled := m.dataSetClassIdEnabled
    securityEnabled := m.securityEnabled
    timestampEnabled := m.timestampEnabled
    picosecondsEnabled := m.picosecondsEnabled
    chunkMessage := m.chunkMessage
    promotedFieldsEnabled := m.promotedFieldsEnabled
    networkMessageType := m.networkMessageType
    publisherId := .zeroOfType m.publisherId.typeByte
    groupHeader := m.groupHeader.flagsOnly
    securityHeader := { (default : NetworkMessageSecurityHeader) with
      networkMessageSigned := m.securityHeader.networkMessageSigned
      networkMessageEncrypted := m.securityHeader.networkMessageEncrypted
      securityFooterEnabled := m.securityHeader.securityFooterEnabled
      forceKeyReset := m.securityHeader.forceKeyReset } }

/-- The same flags, count and sizes of the fields. -/
structure DataSetMessage.SameLayout (S : FieldSpec) (d₀ d : DataSetMessage) : Prop where
  flags : d.header.flagsOnly = d₀.header.flagsOnly
  fieldCount : d.fieldCount = d₀.fieldCount
  sizes : d.keyFields.map (fun f => (S.bytes d.header.fieldEncoding f).length) =
    d₀.keyFields.map fun f => (S.bytes d₀.header.fieldEncoding f).length

/-- The same flags, counts and sizes of the fields. -/
structure NetworkMessage.SameLayout (S : FieldSpec) (m₀ m : NetworkMessage) : Prop where
  flags : m.flagsOnly = m₀.flagsOnly
  count : m.payloadHeader.count = m₀.payloadHeader.count
  nonceLength : m.securityHeader.nonceLength = m₀.securityHeader.nonceLength
  promoted : m.promoted.map (fun v => (S.bytes .variant (fieldOfVariant v)).length) =
    m₀.promoted.map fun v => (S.bytes .variant (fieldOfVariant v)).length
  messages : List.Forall₂ (DataSetMessage.SameLayout S) (m₀.payload.dataSetMessages.getD [])
    (m.payload.dataSetMessages.getD [])

/-- The group header is shaped by its flags. -/
theorem shapes_groupHeader (g : NetworkMessageGroupHeader) :
    (groupHeaderPieces g).map Piece.shape = (groupHeaderPieces g.flagsOnly).map Piece.shape := by
  simp only [groupHeaderPieces, List.map_append, shapes_ite, List.map_cons, List.map_nil,
    shape_leBytes, shape_byte]
  rfl

/-- The header of a DataSetMessage is shaped by its flags. -/
theorem shapes_dataSetMessageHeader (h : DataSetMessageHeader) :
    (dataSetMessageHeaderPieces 0 h).map Piece.shape =
      (dataSetMessageHeaderPieces 0 h.flagsOnly).map Piece.shape := by
  simp only [dataSetMessageHeaderPieces, List.map_append, shapes_ite, List.map_cons, List.map_nil,
    shape_leBytes, shape_byte]
  rfl

theorem typeByte_zeroOfType (id : PublisherId) :
    (PublisherId.zeroOfType id.typeByte).typeByte = id.typeByte := by
  cases id with
  | reserved v =>
    revert v
    decide
  | _ => rfl

/-- The flag bytes are shaped by the flags. -/
theorem shapes_flags (m : NetworkMessage) :
    (flagsPieces m).map Piece.shape = (flagsPieces m.flagsOnly).map Piece.shape := by
  have hflags : m.flagsOnly.extendedFlags1Enabled = m.extendedFlags1Enabled := by
    rw [NetworkMessage.extendedFlags1Enabled, NetworkMessage.extendedFlags1Enabled,
      show m.flagsOnly.publisherId.typeByte = m.publisherId.typeByte from typeByte_zeroOfType _]
    rfl
  simp only [flagsPieces, List.map_append, shapes_ite, List.map_cons, List.map_nil, shape_byte,
    hflags]
  rfl

/-- A numeric publisher id is as long as its type says. -/
theorem publisherIdBytes_length {x id : PublisherId} (h : x.typeByte = id.typeByte)
    (hid : id.isString = false) :
    (publisherIdBytes x).length = (publisherIdBytes id).length := by
  have hform := sameForm_of_typeByte h
  cases id with
  | string s => cases hid
  | _ =>
    obtain ⟨w, rfl⟩ := hform
    simp only [publisherIdBytes, List.length_singleton, List.length_nil, leBytes_length]

section SameLayout

variable (hsame : m₀.SameLayout S m)

include hsame

/-- Whatever depends on the flags alone. -/
theorem NetworkMessage.SameLayout.flag {α : Type} (f : NetworkMessage → α) :
    f m.flagsOnly = f m₀.flagsOnly := congrArg f hsame.flags

theorem NetworkMessage.SameLayout.typeByte : m.publisherId.typeByte = m₀.publisherId.typeByte := by
  have h := hsame.flag fun m => m.publisherId.typeByte
  rwa [show m.flagsOnly.publisherId.typeByte = m.publisherId.typeByte from typeByte_zeroOfType _,
    show m₀.flagsOnly.publisherId.typeByte = m₀.publisherId.typeByte from
      typeByte_zeroOfType _] at h

/-- The sections in front of the payload header, in two messages of one layout. -/
theorem shapes_head (hid : m₀.publisherIdEnabled = true → m₀.publisherId.isString = false) :
    (headPieces m).map Piece.shape = (headPieces m₀).map Piece.shape := by
  have henabled : m.publisherIdEnabled = m₀.publisherIdEnabled :=
    hsame.flag NetworkMessage.publisherIdEnabled
  have hclass : m.dataSetClassIdEnabled = m₀.dataSetClassIdEnabled :=
    hsame.flag NetworkMessage.dataSetClassIdEnabled
  have hgroup : m.groupHeaderEnabled = m₀.groupHeaderEnabled :=
    hsame.flag NetworkMessage.groupHeaderEnabled
  have hmembers : m.groupHeader.flagsOnly = m₀.groupHeader.flagsOnly :=
    hsame.flag NetworkMessage.groupHeader
  have hpublisher : (if m.publisherIdEnabled then
      [Piece.shape ⟨some (.publisherId, .none), publisherIdBytes m.publisherId⟩] else []) =
      if m₀.publisherIdEnabled then
        [Piece.shape ⟨some (.publisherId, .none), publisherIdBytes m₀.publisherId⟩] else [] := by
    rw [henabled]
    split
    case isTrue h =>
      rw [Piece.shape, Piece.shape, publisherIdBytes_length hsame.typeByte (hid h)]
    case isFalse => rfl
  simp only [headPieces, List.map_append, shapes_ite, List.map_cons, List.map_nil, hpublisher,
    shapes_flags m, shapes_flags m₀, shapes_groupHeader m.groupHeader,
    shapes_groupHeader m₀.groupHeader, hsame.flags, hmembers, hclass, hgroup]
  simp only [Piece.shape, guid_memory_length]

/-- The payload header, in two messages of one layout. -/
theorem shapes_payloadHeader (hids : m.payloadHeaderEnabled = true →
      (m.payloadHeader.dataSetWriterIds.getD []).length = m.payloadHeader.count.toNat)
    (hids₀ : m₀.payloadHeaderEnabled = true →
      (m₀.payloadHeader.dataSetWriterIds.getD []).length = m₀.payloadHeader.count.toNat) :
    (if m.payloadHeaderEnabled then payloadHeaderPieces m else []).map Piece.shape =
      (if m₀.payloadHeaderEnabled then payloadHeaderPieces m₀ else []).map Piece.shape := by
  have henabled : m.payloadHeaderEnabled = m₀.payloadHeaderEnabled :=
    hsame.flag NetworkMessage.payloadHeaderEnabled
  rw [henabled] at hids ⊢
  cases h : m₀.payloadHeaderEnabled with
  | false => rfl
  | true =>
    simp only [if_true, payloadHeaderPieces, List.map_append, List.map_cons, List.map_nil,
      Piece.shape, List.length_flatMap, leBytes_length, List.map_const', hids h, hids₀ h,
      hsame.count]

/-- The extended header, in two messages of one layout. -/
theorem shapes_extendedHeader :
    (extendedHeaderPieces S m).map Piece.shape = (extendedHeaderPieces S m₀).map Piece.shape := by
  have htimestamp : m.timestampEnabled = m₀.timestampEnabled :=
    hsame.flag NetworkMessage.timestampEnabled
  have hpico : m.picosecondsEnabled = m₀.picosecondsEnabled :=
    hsame.flag NetworkMessage.picosecondsEnabled
  have henabled : m.promotedFieldsEnabled = m₀.promotedFieldsEnabled :=
    hsame.flag NetworkMessage.promotedFieldsEnabled
  have hpromoted : ∀ m : NetworkMessage, (m.promoted.map fun v =>
      Piece.plain (S.bytes .variant (fieldOfVariant v))).map Piece.shape =
      (m.promoted.map fun v => (S.bytes .variant (fieldOfVariant v)).length).map fun n =>
        (none, n) := fun m => by rw [List.map_map, List.map_map]; rfl
  simp only [extendedHeaderPieces, List.map_append, shapes_ite, List.map_cons, List.map_nil,
    shape_leBytes, hpromoted, hsame.promoted, htimestamp, hpico, henabled]

/-- Security header and sizes, in two messages of one layout. -/
theorem shapes_lead (hnonce : m.securityEnabled = true →
      (m.securityHeader.messageNonce.getD []).length = m.securityHeader.nonceLength.toNat)
    (hnonce₀ : m₀.securityEnabled = true →
      (m₀.securityHeader.messageNonce.getD []).length = m₀.securityHeader.nonceLength.toNat) :
    (leadPieces S m).map Piece.shape = (leadPieces S m₀).map Piece.shape := by
  have hsecurity : m.securityEnabled = m₀.securityEnabled :=
    hsame.flag NetworkMessage.securityEnabled
  have henabled : m.payloadHeaderEnabled = m₀.payloadHeaderEnabled :=
    hsame.flag NetworkMessage.payloadHeaderEnabled
  have hfooter : m.securityHeader.securityFooterEnabled = m₀.securityHeader.securityFooterEnabled :=
    hsame.flag fun m => m.securityHeader.securityFooterEnabled
  have hheader : (if m.securityEnabled then securityHeaderPieces m.securityHeader else []).map
      Piece.shape = (if m₀.securityEnabled then securityHeaderPieces m₀.securityHeader else []).map
        Piece.shape := by
    rw [hsecurity] at hnonce ⊢
    cases h : m₀.securityEnabled with
    | false => rfl
    | true =>
      simp only [if_true, securityHeaderPieces, List.map_append, shapes_ite, List.map_cons,
        List.map_nil, Piece.shape, leBytes_length, List.length_singleton, hnonce h, hnonce₀ h,
        hsame.nonceLength, hfooter]
  have hsizes : (sizesPieces S m).map Piece.shape = (sizesPieces S m₀).map Piece.shape := by
    simp only [sizesPieces, shapes_ite, List.map_cons, List.map_nil, Piece.shape,
      List.length_flatMap, leBytes_length, List.map_const', List.length_range, hsame.count,
      henabled]
  rw [leadPieces, leadPieces, List.map_append, List.map_append, hheader, hsizes]

end SameLayout

theorem DataSetMessage.SameLayout.flag {α : Type} (hd : d₀.SameLayout S d)
    (f : DataSetMessageHeader → α) : f d.header.flagsOnly = f d₀.header.flagsOnly :=
  congrArg f hd.flags

/-- The fields, in two key frames of one layout. -/
theorem shapes_keyFrame (hd : d₀.SameLayout S d) :
    (keyFramePieces S 0 d).map Piece.shape = (keyFramePieces S 0 d₀).map Piece.shape := by
  have hencoding : d.header.fieldEncoding = d₀.header.fieldEncoding :=
    hd.flag fun h => h.fieldEncoding
  have hkind : ∀ (encoding : FieldEncoding) (j : Nat) (f : DataValue),
      (fieldItem encoding 0 j f).map Prod.fst = (fieldItem encoding 0 0 default).map Prod.fst := by
    intro encoding j f
    cases encoding <;> rfl
  have hfields : ∀ d : DataSetMessage, (d.keyFields.zipIdx.flatMap fun p =>
      [(⟨fieldItem d.header.fieldEncoding 0 p.2 p.1, S.bytes d.header.fieldEncoding p.1⟩ :
        Piece)]).map
        Piece.shape = (d.keyFields.map fun f => (S.bytes d.header.fieldEncoding f).length).map
          fun n => ((fieldItem d.header.fieldEncoding 0 0 default).map Prod.fst, n) := by
    intro d
    rw [List.map_flatMap, List.map_map, List.map_eq_flatMap]
    simp only [List.map_cons, List.map_nil, Piece.shape, hkind]
    exact zipIdx_flatMap_fst d.keyFields 0 fun f =>
      [((fieldItem d.header.fieldEncoding 0 0 default).map Prod.fst,
        (S.bytes d.header.fieldEncoding f).length)]
  simp only [keyFramePieces, fieldCountPieces, List.map_append, shapes_ite, List.map_cons,
    List.map_nil, shape_leBytes, hfields, hd.sizes]
  rw [hencoding]

/-- **Messages of one layout have their entries at the same offsets**, unless the publisher id is
a string. -/
theorem marks_sameLayout (hm₀ : m₀.ComesBack S T) (hm : m.ComesBack S T)
    (hkey₀ : m₀.HoldsKeyFrame d₀) (hkey : m.HoldsKeyFrame d) (hsame : m₀.SameLayout S m)
    (hid : m₀.publisherIdEnabled = true → m₀.publisherId.isString = false) (rt : Bool) :
    (marks rt 0 (messagePieces S m₀)).map NetworkMessageOffset.key =
      (marks rt 0 (messagePieces S m)).map NetworkMessageOffset.key := by
  have hd : d₀.SameLayout S d := by
    have hmessages := hsame.messages
    rw [hkey₀.messages, hkey.messages, List.forall₂_cons] at hmessages
    exact hmessages.1
  have hids : ∀ {m : NetworkMessage}, m.ComesBack S T → m.payloadHeaderEnabled = true →
      (m.payloadHeader.dataSetWriterIds.getD []).length = m.payloadHeader.count.toNat := by
    intro m hm henabled
    obtain ⟨ids, hids⟩ := Option.isSome_iff_exists.mp (hm.encodable.writerIds henabled)
    rw [hids]
    exact hm.filled.writerIds henabled ids hids
  have hheader : (dataSetMessageHeaderPieces 0 d.header).map Piece.shape =
      (dataSetMessageHeaderPieces 0 d₀.header).map Piece.shape := by
    rw [shapes_dataSetMessageHeader d.header, shapes_dataSetMessageHeader d₀.header, hd.flags]
  -- the trailer may be of another length, but has no entries
  have hmarks : ∀ {m : NetworkMessage} {d : DataSetMessage}, m.HoldsKeyFrame d →
      marks rt 0 (messagePieces S m) = marks rt 0 (headPieces m ++
        ((if m.payloadHeaderEnabled then payloadHeaderPieces m else []) ++
          (extendedHeaderPieces S m ++ (leadPieces S m ++
            (dataSetMessageHeaderPieces 0 d.header ++ keyFramePieces S 0 d))))) := by
    intro m d hkey
    have htrailer : IsPlain (if m.securityEnabled then trailerPieces m else []) :=
      .ite fun _ => isPlain_trailer m
    simp only [messagePieces_eq S hkey, ← List.append_assoc]
    rw [marks_append, htrailer.marks, List.append_nil]
  rw [hmarks hkey₀, hmarks hkey]
  refine marks_key ?_ rt 0
  simp only [List.map_append, shapes_head hsame hid,
    shapes_payloadHeader hsame (hids hm) (hids hm₀), shapes_extendedHeader hsame,
    shapes_lead hsame (fun h => (hm.filled.security h).nonce)
      (fun h => (hm₀.filled.security h).nonce), hheader, shapes_keyFrame hd]

/-! ## The fast path -/

/-- What the encoder writes for `m` stands in `src` between these positions. -/
def NetworkMessage.StandsAt (T : DataTypes) (m : NetworkMessage) (src : Bytes) (start stop : Nat) :
    Prop :=
  ∃ bs, Completes bs (networkMessageEncodeBinary T m) ∧ At src start bs ∧ stop = start + bs.length

/-- The last byte of the message is the last one of a field: there are fields, and neither
footer bytes nor a signature behind them. -/
structure NetworkMessage.EndsWithField (m : NetworkMessage) : Prop where
  fields : ∀ d ∈ m.payload.dataSetMessages.getD [], d.fieldCount ≠ 0
  noFooter : m.securityEnabled = true → m.securityHeader.securityFooterEnabled = true →
    m.securityHeader.securityFooterSize = 0
  noSignature : m.securityEnabled = true → m.securityHeader.networkMessageSigned = false

/-- Publisher id, writer group id, first writer id, sequence numbers and fields are the same. -/
structure NetworkMessage.AgreesWith (nm r : NetworkMessage) : Prop where
  publisherId : nm.publisherId = r.publisherId
  writerGroupId : nm.groupHeader.writerGroupId = r.groupHeader.writerGroupId
  dataSetWriterId : (nm.payloadHeader.dataSetWriterIds.getD []).head? =
    (r.payloadHeader.dataSetWriterIds.getD []).head?
  sequenceNumber : nm.groupHeader.sequenceNumber = r.groupHeader.sequenceNumber
  messages : (nm.payload.dataSetMessages.getD []).map (fun d =>
      (d.header.dataSetMessageSequenceNr, d.dataSetFields)) =
    (r.payload.dataSetMessages.getD []).map fun d =>
      (d.header.dataSetMessageSequenceNr, d.dataSetFields)

/-- Where a message stands, told by its bytes. -/
theorem standsAt_iff (hT : StandardTypes T) (hm : m.ComesBack S T) {start stop : Nat} :
    m.StandsAt T src start stop ↔ At src start (pieceBytes (messagePieces S m)) ∧
      stop = start + (pieceBytes (messagePieces S m)).length := by
  have hwrites : m.Filled (S.Writes T) := hm.filled.imp fun _ _ h => ⟨h.meets, h.ok⟩
  have hcompletes := completes_networkMessage hT hwrites hm.encodable
  constructor
  · rintro ⟨bs, hbs, hat, hstop⟩
    obtain rfl := hbs.unique hcompletes
    exact ⟨hat, hstop⟩
  · rintro ⟨hat, hstop⟩
    exact ⟨_, hcompletes, hat, hstop⟩

/-- What is received of a template follows the messages of its layout. -/
theorem follows_received (hm₀ : m₀.ComesBack S T) (hm : m.ComesBack S T)
    (hkey₀ : m₀.HoldsKeyFrame d₀) (hsame : m₀.SameLayout S m) : (m₀.received S).Follows m where
  publisherIdType := hsame.typeByte.symm
  -- what is disabled is zero in both
  publisherId henabled := by
    have henabled₀ : m₀.publisherIdEnabled = m.publisherIdEnabled :=
      (hsame.flag NetworkMessage.publisherIdEnabled).symm
    have hzero := hm.canonical.publisherId henabled
    have hzero₀ := hm₀.canonical.publisherId (henabled₀.trans henabled)
    rw [hsame.typeByte, ← hzero₀] at hzero
    exact hzero.symm
  groupHeader henabled := by
    have henabled₀ : m₀.groupHeaderEnabled = m.groupHeaderEnabled :=
      (hsame.flag NetworkMessage.groupHeaderEnabled).symm
    exact (hm₀.canonical.groupHeader (henabled₀.trans henabled)).trans
      (hm.canonical.groupHeader henabled).symm
  writerGroupId henabled := by
    have henabled₀ : m₀.groupHeader.writerGroupIdEnabled = m.groupHeader.writerGroupIdEnabled :=
      (hsame.flag fun m => m.groupHeader.writerGroupIdEnabled).symm
    exact (hm₀.canonical.groupHeaderMembers.writerGroupId (henabled₀.trans henabled)).trans
      (hm.canonical.groupHeaderMembers.writerGroupId henabled).symm
  sequenceNumber henabled := by
    have henabled₀ : m₀.groupHeader.sequenceNumberEnabled = m.groupHeader.sequenceNumberEnabled :=
      (hsame.flag fun m => m.groupHeader.sequenceNumberEnabled).symm
    exact (hm₀.canonical.groupHeaderMembers.sequenceNumber (henabled₀.trans henabled)).trans
      (hm.canonical.groupHeaderMembers.sequenceNumber henabled).symm
  writerIds henabled := by
    have henabled₀ : m₀.payloadHeaderEnabled = m.payloadHeaderEnabled :=
      (hsame.flag NetworkMessage.payloadHeaderEnabled).symm
    exact hm₀.writerIds_ne_nil hkey₀ (henabled₀.trans henabled)
  noWriterIds henabled := by
    have henabled₀ : m₀.payloadHeaderEnabled = m.payloadHeaderEnabled :=
      (hsame.flag NetworkMessage.payloadHeaderEnabled).symm
    exact congrArg DataSetPayloadHeader.dataSetWriterIds
      (hm₀.canonical.payloadHeader (henabled₀.trans henabled))

/-- A message of the same layout holds a key frame too. -/
theorem holdsKeyFrame_of_sameLayout (hkey₀ : m₀.HoldsKeyFrame d₀) (hsame : m₀.SameLayout S m) :
    ∃ d, m.HoldsKeyFrame d ∧ d₀.SameLayout S d := by
  have hmessages := hsame.messages
  rw [hkey₀.messages] at hmessages
  obtain ⟨d, ds, hd, hds, hcons⟩ := List.forall₂_cons_left_iff.mp hmessages
  obtain rfl := List.forall₂_nil_left_iff.mp hds
  have htype : d.header.dataSetMessageType = d₀.header.dataSetMessageType :=
    hd.flag fun h => h.dataSetMessageType
  exact ⟨d, ⟨hcons, htype.trans hkey₀.type⟩, hd⟩

/-- What the fast path asks of a message, section by section. -/
theorem patchable_iff (hkey : m.HoldsKeyFrame d) :
    m.Patchable ↔ (m.publisherIdEnabled = true → m.publisherId.isString = false) ∧
      m.timestampEnabled = false ∧ m.picosecondsEnabled = false ∧
        d.header.dataSetMessageSequenceNrEnabled = false := by
  refine ⟨fun h => ⟨h.publisherId, h.timestamp, h.picoseconds, h.sequenceNr d hkey.mem⟩, ?_⟩
  rintro ⟨hid, htimestamp, hpico, hnumber⟩
  refine ⟨hid, htimestamp, hpico, fun d' hd' => ?_⟩
  rw [hkey.messages] at hd'
  rw [List.mem_singleton.mp hd', hnumber]

/-- It asks nothing that is not a matter of layout. -/
theorem patchable_of_sameLayout (hkey₀ : m₀.HoldsKeyFrame d₀) (hkey : m.HoldsKeyFrame d)
    (hsame : m₀.SameLayout S m) (hd : d₀.SameLayout S d) : m.Patchable ↔ m₀.Patchable := by
  have hstring : m.publisherId.isString = m₀.publisherId.isString :=
    isString_of_typeByte hsame.typeByte
  have henabled : m.publisherIdEnabled = m₀.publisherIdEnabled :=
    hsame.flag NetworkMessage.publisherIdEnabled
  have htimestamp : m.timestampEnabled = m₀.timestampEnabled :=
    hsame.flag NetworkMessage.timestampEnabled
  have hpico : m.picosecondsEnabled = m₀.picosecondsEnabled :=
    hsame.flag NetworkMessage.picosecondsEnabled
  have hnumber : d.header.dataSetMessageSequenceNrEnabled =
      d₀.header.dataSetMessageSequenceNrEnabled := hd.flag fun h =>
        h.dataSetMessageSequenceNrEnabled
  rw [patchable_iff hkey, patchable_iff hkey₀, hstring, henabled, htimestamp, hpico, hnumber]

/-- A string in front of all other entries is not supported. -/
theorem updateLoop_string (hkey : m₀.HoldsKeyFrame d₀) (henabled : m₀.publisherIdEnabled = true)
    (hstring : m₀.publisherId.isString = true) (pos o j : Nat) :
    ∃ u, updateLoop src T pos (marks true 0 (messagePieces S m₀)) ⟨m₀.received S, j, o, none⟩ =
      .fail badNotSupported u := by
  have hid : (m₀.received S).publisherId.isString = true := hstring
  have hcontent : ∀ p, updateContent src T .publisherId ⟨m₀.received S, j, p, none⟩ =
      .fail badNotSupported ⟨m₀.received S, j, p, none⟩ := by
    intro p
    show updatePublisherId src _ = _
    unfold updatePublisherId
    cases h : (m₀.received S).publisherId with
    | string _ | reserved _ => rfl
    | byte _ | uint16 _ | uint32 _ | uint64 _ =>
      rw [h] at hid
      cases hid
  rw [messagePieces_eq S hkey, headPieces, henabled, if_pos rfl]
  simp only [List.append_assoc, marks_append, (isPlain_flags m₀).marks, List.nil_append,
    updateLoop_append]
  rw [bind_run, updateLoop_item, hcontent]
  exact ⟨_, rfl⟩

/-- The receiver holds the same key frame. -/
theorem received_messages (hm : m.ComesBack S T) (hkey : m.HoldsKeyFrame d) :
    (m.received S).payload.dataSetMessages =
      some [d.withFields (d.keyFields.map DataValueOf.trimmed)] := by
  have hfields := (hm.canonical.messages d hkey.mem).encoding (by rw [hkey.type]; decide)
  have hd : d.received = d.withFields (d.keyFields.map DataValueOf.trimmed) := by
    simp only [DataSetMessage.received, hkey.type, DataSetMessage.keyFields, hfields, if_true]
    rfl
  show some ((m.payload.dataSetMessages.getD []).map DataSetMessage.received) = _
  rw [hkey.messages, List.map_singleton, hd]

/-- What was replaced is what the decoder reads. -/
theorem agreesWith_received (hm₀ : m₀.ComesBack S T) (hm : m.ComesBack S T)
    (hkey₀ : m₀.HoldsKeyFrame d₀) (hkey : m.HoldsKeyFrame d) (hsame : m₀.SameLayout S m)
    (hd : d₀.SameLayout S d) (hpatch : m₀.Patchable) :
    (((m₀.received S).withHeaderItems m).withDataSetMessages
      [d₀.withFields (d.keyFields.map DataValueOf.trimmed)]).AgreesWith (m.received S) where
  publisherId := rfl
  writerGroupId := rfl
  sequenceNumber := rfl
  dataSetWriterId := by
    have henabled₀ : m₀.payloadHeaderEnabled = m.payloadHeaderEnabled :=
      (hsame.flag NetworkMessage.payloadHeaderEnabled).symm
    show ((m₀.payloadHeader.dataSetWriterIds.map (·.set 0 m.firstWriterId)).getD []).head? =
      (m.payloadHeader.dataSetWriterIds.getD []).head?
    cases henabled : m.payloadHeaderEnabled with
    -- the first writer id was replaced; both messages have one
    | true =>
      obtain ⟨id, ids, hcons⟩ := List.exists_cons_of_ne_nil (hm.writerIds_ne_nil hkey henabled)
      obtain ⟨id₀, ids₀, hcons₀⟩ := List.exists_cons_of_ne_nil
        (hm₀.writerIds_ne_nil hkey₀ (henabled₀.trans henabled))
      have hids₀ : m₀.payloadHeader.dataSetWriterIds = some (id₀ :: ids₀) := by
        cases hids : m₀.payloadHeader.dataSetWriterIds with
        | none =>
          rw [hids] at hcons₀
          cases hcons₀
        | some ids' =>
          rw [hids, Option.getD_some] at hcons₀
          rw [hcons₀]
      rw [hids₀, NetworkMessage.firstWriterId, hcons]
      rfl
    | false =>
      rw [hm₀.canonical.payloadHeader (henabled₀.trans henabled),
        hm.canonical.payloadHeader henabled]
      rfl
  messages := by
    -- no entry for the sequence number: it is disabled, and zero in both
    have hpatch' := (patchable_of_sameLayout hkey₀ hkey hsame hd).mpr hpatch
    have hnumber₀ := ((patchable_iff hkey₀).mp hpatch).2.2.2
    have hnumber := ((patchable_iff hkey).mp hpatch').2.2.2
    have hzero₀ := (hm₀.canonical.messages d₀ hkey₀.mem).header.sequenceNr hnumber₀
    have hzero := (hm.canonical.messages d hkey.mem).header.sequenceNr hnumber
    rw [received_messages hm hkey]
    show [(d₀.header.dataSetMessageSequenceNr, _)] = [(d.header.dataSetMessageSequenceNr, _)]
    rw [hzero₀, hzero]
    rfl

theorem fitsEncoding_trimmed (hm₀ : m₀.ComesBack S T) (hkey₀ : m₀.HoldsKeyFrame d₀)
    (hd : d₀.SameLayout S d) :
    ∀ old ∈ d₀.keyFields.map DataValueOf.trimmed,
      DataValueOf.FitsEncoding d.header.fieldEncoding old := by
  have hencoding : d.header.fieldEncoding = d₀.header.fieldEncoding := hd.flag fun h =>
    h.fieldEncoding
  have hcanonical := hm₀.canonical.messages d₀ hkey₀.mem
  have hkey : d₀.keyFields = d₀.dataSetFields.getD [] :=
    if_pos (hcanonical.encoding (by rw [hkey₀.type]; decide))
  intro old hold hvariant
  obtain ⟨f, hf, rfl⟩ := List.mem_map.mp hold
  rw [hkey] at hf
  have hshape := hcanonical.keyFields hkey₀.type f hf
  rw [← hencoding, hvariant] at hshape
  rw [trimmed_of_fitsEncoding hshape]

namespace NetworkMessage.EndsWithField

/-- A message that ends with a field has one. -/
theorem keyFields_ne_nil (h : m.EndsWithField) (hm : m.ComesBack S T) (hkey : m.HoldsKeyFrame d) :
    d.keyFields ≠ [] := by
  have hfields := (hm.canonical.messages d hkey.mem).encoding (by rw [hkey.type]; decide)
  have hlength := (hm.filled.payload.messages d hkey.mem).keyLength hkey.type hfields
  have hd : d.keyFields = d.dataSetFields.getD [] := if_pos hfields
  rw [hd]
  intro hnil
  rw [hnil] at hlength
  exact h.fields d hkey.mem (UInt16.toNat_inj.mp hlength.symm)

/-- A message that ends with a field has nothing behind it. -/
theorem trailer (h : m.EndsWithField) (hm : m.ComesBack S T) :
    pieceBytes (if m.securityEnabled then trailerPieces m else []) = [] := by
  cases hsecurity : m.securityEnabled with
  | false => rfl
  | true =>
    have hfooter : m.securityHeader.securityFooterEnabled = true →
        m.securityFooter.getD [] = [] := fun henabled => by
      have hlength := (hm.filled.security hsecurity).footer henabled
      rw [h.noFooter hsecurity henabled] at hlength
      exact List.length_eq_zero_iff.mp hlength
    rw [if_pos rfl, trailerPieces, h.noSignature hsecurity]
    cases henabled : m.securityHeader.securityFooterEnabled with
    | false => rfl
    | true =>
      rw [if_pos rfl, hfooter henabled]
      rfl

end NetworkMessage.EndsWithField

/-- **The fast path and the full decoder.** For a template with one key frame, and a further
message of its layout wherever it stands: if all items are supported, the fast path returns GOOD
and leaves what the decoder reads there, and its position is the end of a message that ends with
a field. Otherwise it returns BADNOTSUPPORTED, and the position is as it was. -/
theorem networkMessageUpdateBufferedNwMessage_keyFrame (hT : StandardTypes T)
    (hm₀ : m₀.ComesBack S T) (hkey₀ : m₀.HoldsKeyFrame d₀) {size : Nat}
    {table : NetworkMessageOffsetBuffer}
    (htable : networkMessageCalcSizeBinary T m₀ (some ⟨[], true⟩) = some (size, some table))
    {src₀ : Bytes} {start₀ stop₀ : Nat} (hplace₀ : m₀.StandsAt T src₀ start₀ stop₀)
    {old₀ nm : NetworkMessage}
    (hnm : networkMessageDecodeBinary src₀ T ⟨⟨start₀, old₀⟩, []⟩ = .done () ⟨⟨stop₀, nm⟩, []⟩)
    (hm : m.ComesBack S T) (hsame : m₀.SameLayout S m) {start stop : Nat}
    (hplace : m.StandsAt T src start stop) (old : NetworkMessage) :
    ∃ r, networkMessageDecodeBinary src T ⟨⟨start, old⟩, []⟩ = .done () ⟨⟨stop, r⟩, []⟩ ∧
      (m₀.Patchable → ∃ nm' position,
        networkMessageUpdateBufferedNwMessage src T table.offsets ⟨nm, start⟩ =
          .done () ⟨nm', position⟩ ∧ nm'.AgreesWith r ∧ (m.EndsWithField → position = stop)) ∧
      (¬ m₀.Patchable → ∃ nm',
        networkMessageUpdateBufferedNwMessage src T table.offsets ⟨nm, start⟩ =
          .fail badNotSupported ⟨nm', start⟩) := by
  obtain ⟨hat₀, rfl⟩ := (standsAt_iff hT hm₀).mp hplace₀
  obtain ⟨hat, rfl⟩ := (standsAt_iff hT hm).mp hplace
  obtain ⟨d, hkey, hd⟩ := holdsKeyFrame_of_sameLayout hkey₀ hsame
  -- the template as it was decoded, and its table
  obtain rfl : nm = m₀.received S := by
    have hread : networkMessageDecodeBinary src₀ T ⟨⟨start₀, old₀⟩, []⟩ = _ :=
      networkMessageDecodeBinary_reads hT hm₀.filled hm₀.encodable hm₀.canonical hm₀.promoted hat₀
    rw [hnm] at hread
    exact congrArg (fun c : DecodeCall => c.dst) (Outcome.done.inj hread).2
  obtain rfl : table = ⟨marks true 0 (messagePieces S m₀), true⟩ := by
    have hmeets : m₀.Filled (S.Meets T) := hm₀.filled.imp fun _ _ h => h.meets
    rw [networkMessageCalcSizeBinary_eq hT hmeets hm₀.encodable.writerIds] at htable
    exact (Option.some.inj (Prod.mk.inj (Option.some.inj htable)).2).symm
  have hread : networkMessageDecodeBinary src T ⟨⟨start, old⟩, []⟩ = _ :=
    networkMessageDecodeBinary_reads hT hm.filled hm.encodable hm.canonical hm.promoted hat
  refine ⟨m.received S, hread, ?_⟩
  by_cases hstring : m₀.publisherIdEnabled = true ∧ m₀.publisherId.isString = true
  · -- the first entry is that of the string
    obtain ⟨u, hrun⟩ : ∃ u, updateLoop src T start (marks true 0 (messagePieces S m₀)) _ = _ :=
      updateLoop_string hkey₀ hstring.1 hstring.2 start 0 0
    refine ⟨fun hpatch => ?_, fun _ => ⟨u.nm, ?_⟩⟩
    · have hid := hpatch.publisherId hstring.1
      rw [hstring.2] at hid
      cases hid
    · simp only [networkMessageUpdateBufferedNwMessage, hrun]
  · have hid₀ : m₀.publisherIdEnabled = true → m₀.publisherId.isString = false := fun h =>
      eq_false_of_ne_true fun hs => hstring ⟨h, hs⟩
    have hid : m.publisherIdEnabled = true → m.publisherId.isString = false := fun h =>
      (isString_of_typeByte hsame.typeByte).trans
        (hid₀ ((hsame.flag NetworkMessage.publisherIdEnabled).symm.trans h))
    have hloop : updateLoop src T start (marks true 0 (messagePieces S m₀)) =
        updateLoop src T start (marks true 0 (messagePieces S m)) :=
      updateLoop_congr (marks_sameLayout hm₀ hm hkey₀ hkey hsame hid₀ true)
    have hfollows := follows_received hm₀ hm hkey₀ hsame
    have hsrc : At src (0 + start) (pieceBytes (messagePieces S m)) := by rwa [Nat.zero_add]
    refine ⟨fun hpatch => ?_, fun hpatch => ?_⟩
    · have hpatch' := (patchable_of_sameLayout hkey₀ hkey hsame hd).mpr hpatch
      have hlen : (d₀.keyFields.map DataValueOf.trimmed).length = d.keyFields.length := by
        have hsizes := congrArg List.length hd.sizes
        rw [List.length_map, List.length_map] at hsizes
        rw [List.length_map, hsizes]
      obtain ⟨hupdates, hends⟩ := updates_networkMessage hm hkey hpatch' hfollows
        (received_messages hm₀ hkey₀) hlen (fitsEncoding_trimmed hm₀ hkey₀ hd)
      have hagrees := agreesWith_received hm₀ hm hkey₀ hkey hsame hd hpatch
      by_cases hfield : m.EndsWithField
      · have hrun := hends (hfield.keyFields_ne_nil hm hkey) (hfield.trailer hm) start 0 0 hsrc
        rw [Nat.zero_add] at hrun
        refine ⟨_, _, ?_, hagrees, fun _ => rfl⟩
        simp only [networkMessageUpdateBufferedNwMessage, hloop, hrun]
      · obtain ⟨position, hrun⟩ := hupdates start 0 0 hsrc
        refine ⟨_, position, ?_, hagrees, fun h => absurd h hfield⟩
        simp only [networkMessageUpdateBufferedNwMessage, hloop, hrun]
    · have hpatch' := mt (patchable_of_sameLayout hkey₀ hkey hsame hd).mp hpatch
      obtain ⟨u, hrun⟩ := refuses_networkMessage hm hkey hid hpatch' hfollows start 0 0 hsrc
      refine ⟨u.nm, ?_⟩
      simp only [networkMessageUpdateBufferedNwMessage, hloop, hrun]

theorem byteMessage_comesBack : byteMessage.ComesBack (leafSpec builtinTypes) builtinTypes where
  filled := byteMessage_filled.imp fun _ _ => readsBack_of_isPlainField standardTypes_builtinTypes
  encodable := byteMessage_encodable
  canonical := byteMessage_canonical
  promoted := nofun

/-- The encoding of the message with the Byte 42, behind another byte. -/
def shiftedByteMessage : Bytes := [0xFF, 0x11, 7, 0, 1, 0, 3, 42]

theorem byteMessage_standsAt : byteMessage.StandsAt builtinTypes shiftedByteMessage 1 8 :=
  (standsAt_iff standardTypes_builtinTypes byteMessage_comesBack).mpr ⟨⟨[], rfl⟩, rfl⟩

theorem byteMessage_fastPath : ∃ r nm' : NetworkMessage,
    networkMessageDecodeBinary shiftedByteMessage builtinTypes ⟨⟨1, default⟩, []⟩ =
      .done () ⟨⟨8, r⟩, []⟩ ∧
    networkMessageUpdateBufferedNwMessage shiftedByteMessage builtinTypes
        [⟨.publisherId, 1, .none⟩,
          ⟨.payloadVariant, 5, .fieldData 0 0 (some (DataTypes.builtin .byte))⟩] ⟨byteMessage, 1⟩ =
      .done () ⟨nm', 8⟩ ∧ nm'.AgreesWith r := by
  have hkey : byteMessage.HoldsKeyFrame
      { (default : DataSetMessage) with fieldCount := 1, dataSetFields := some [byteField] } :=
    ⟨rfl, rfl⟩
  have hsame : byteMessage.SameLayout (leafSpec builtinTypes) byteMessage :=
    ⟨rfl, rfl, rfl, rfl, .cons ⟨rfl, rfl, rfl⟩ .nil⟩
  have hpatch : byteMessage.Patchable := (patchable_iff hkey).mpr ⟨fun _ => rfl, rfl, rfl, rfl⟩
  have hends : byteMessage.EndsWithField := by
    refine ⟨fun d hd => ?_, nofun, nofun⟩
    rw [List.mem_singleton.mp hd]
    decide
  obtain ⟨r, hread, hupdate, -⟩ := networkMessageUpdateBufferedNwMessage_keyFrame
    standardTypes_builtinTypes byteMessage_comesBack hkey rfl byteMessage_standsAt
    (show networkMessageDecodeBinary shiftedByteMessage builtinTypes ⟨⟨1, default⟩, []⟩ =
      .done () ⟨⟨8, byteMessage⟩, []⟩ from rfl)
    byteMessage_comesBack hsame byteMessage_standsAt default
  obtain ⟨nm', position, hrun, hagrees, hstop⟩ := hupdate hpatch
  rw [hstop hends] at hrun
  exact ⟨r, nm', hread, hrun, hagrees⟩

/-- With the same bytes as template and as next message: where the message ends, and what the
update returns and leaves as the position. -/
def replay (bytes : Bytes) : Option (Nat × Option (StatusCode × Nat)) :=
  match networkMessageDecodeBinary bytes builtinTypes ⟨⟨0, default⟩, []⟩ with
  | .done _ call =>
    match networkMessageCalcSizeBinary builtinTypes call.dst (some ⟨[], true⟩) with
    | some (_, some table) =>
      match networkMessageUpdateBufferedNwMessage bytes builtinTypes table.offsets
        ⟨call.dst, 0⟩ with
      | .done _ b => some (call.offset, some (good, b.bufferPosition))
      | .fail e b => some (call.offset, some (e.val, b.bufferPosition))
      | .fault => some (call.offset, none)
    | _ => none
  | _ => none

/-- The message with a timestamp. -/
def timedByteMessage : Bytes := [0x91, 0x20, 7, 5, 0, 0, 0, 0, 0, 0, 0, 0, 1, 0, 3, 42]

/-- The message with a second key frame. -/
def twoByteMessage : Bytes :=
  [0x51, 7, 2, 1, 0, 2, 0, 5, 0, 5, 0, 0, 1, 0, 3, 42, 0, 1, 0, 3, 42]

/-- The message with a signature. -/
def signedByteMessage : Bytes :=
  [0x91, 0x10, 7, 1, 0, 0, 0, 0, 0, 0, 1, 0, 3, 42, 1, 0, 0, 0, 9]

/-- A timestamp is not supported, the field of a second key frame is looked for behind those of
the first one, and in front of a signature the position stays behind. -/
theorem fastPath_not_decoder :
    replay timedByteMessage = some (16, some (badNotSupported.val, 0)) ∧
      replay twoByteMessage = some (21, none) ∧
      replay signedByteMessage = some (19, some (good, 14)) := by
  decide +kernel

end OpenPubSub
