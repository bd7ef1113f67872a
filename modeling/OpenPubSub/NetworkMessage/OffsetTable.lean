import Mathlib.Data.List.Forall2
import OpenPubSub.NetworkMessage.EncodeSizes
import OpenPubSub.NetworkMessage.SecurityFooter

/-!
# The offset table

The size calculation notes where the items of a message are that change in every
publishing cycle. The encoder knows nothing about these offsets.

- `NetworkMessage.recordedItems` lists the items of a message, and how each of them is
  encoded.
- `Points` relates pieces of a message to items, one rule for each way in which sections
  are put together.
- **`offsetTable_names`**: a message is written with its items where the table says. Of the
  promoted fields, whose status is dropped, this takes that they can be encoded, and of all
  fields that they are counted as they are written (`FieldCounted`).
-/

namespace OpenPubSub

open Routine Writer

variable {T : DataTypes}

/-! ## Items -/

/-- Something the table has an entry for, and how it is encoded. -/
structure RecordedItem where
  contentType : NetworkMessageOffsetType
  source : OffsetSource
  encode : Enc

/-- The item, if it is there. -/
def recordedIf (c : Bool) (contentType : NetworkMessageOffsetType) (source : OffsetSource)
    (encode : Enc) : List RecordedItem :=
  if c then [⟨contentType, source, encode⟩] else []

section

variable (T : DataTypes)

/-- The fields of a key frame. -/
def keyFrameItems (i : Nat) (d : DataSetMessage) : List RecordedItem :=
  match d.header.fieldEncoding with
  | .variant => (d.dataSetFields.getD []).zipIdx.map fun p =>
      ⟨.payloadVariant, .fieldData i p.2 p.1.value.type, uaVariantEncodeBinary T p.1.value⟩
  | .dataValue => (d.dataSetFields.getD []).zipIdx.map fun p =>
      ⟨.payloadDataValue, .dataSetFields i, uaDataValueEncodeBinary T p.1⟩
  | .rawData | .reserved => []

/-- Sequence number and fields of message number `i`. -/
def dataSetMessageItems (i : Nat) (d : DataSetMessage) : List RecordedItem :=
  recordedIf d.header.dataSetMessageSequenceNrEnabled .dataSetMessageSequenceNumber
      (.dataSetMessageSequenceNr i) (uaUInt16EncodeBinary d.header.dataSetMessageSequenceNr) ++
    match d.header.dataSetMessageType with
    | .dataKeyFrame => keyFrameItems T i d
    | _ => []

def groupHeaderItems (rt : Bool) (g : NetworkMessageGroupHeader) : List RecordedItem :=
  recordedIf (rt && g.writerGroupIdEnabled) .writerGroupId .none
      (uaUInt16EncodeBinary g.writerGroupId) ++
    recordedIf g.sequenceNumberEnabled .networkMessageSequenceNumber .sequenceNumber
      (uaUInt16EncodeBinary g.sequenceNumber)

/-- The items of a message, in the order in which they are written. The identifiers are for
subscribers only. -/
def NetworkMessage.recordedItems (rt : Bool) (m : NetworkMessage) : List RecordedItem :=
  (recordedIf (rt && m.publisherIdEnabled) .publisherId .none
      (publisherIdEncodeBinary T m.publisherId) ++
    (if m.groupHeaderEnabled then groupHeaderItems rt m.groupHeader else [])) ++
  (recordedIf (rt && m.payloadHeaderEnabled) .dataSetWriterId .none
      (element (m.payloadHeader.dataSetWriterIds.getD []) uaUInt16EncodeBinary 0) ++
  ((recordedIf m.timestampEnabled .timestamp .none (uaUInt64EncodeBinary m.timestamp) ++
    recordedIf m.picosecondsEnabled .timestampPicoseconds .none
      (uaUInt16EncodeBinary m.picoseconds)) ++
  (m.payload.dataSetMessages.getD []).zipIdx.flatMap fun p => dataSetMessageItems T p.2 p.1))

end

/-- The entry is for the item, and behind `start` its offset is where the item was written. -/
def NetworkMessageOffset.Names (bs : Bytes) (start : Nat) (e : NetworkMessageOffset)
    (item : RecordedItem) : Prop :=
  e.contentType = item.contentType ∧ e.source = item.source ∧
    ∃ bytes, Commits bytes True item.encode ∧ At bs (start + e.offset) bytes

/-! ## Pieces and items -/

/-- Wherever the pieces are, the entries for them name the items, and no item is empty. -/
structure Points (rt : Bool) (pieces : List Piece) (items : List RecordedItem) : Prop where
  names : ∀ (bs : Bytes) (start offset : Nat), At bs (start + offset) (pieceBytes pieces) →
    List.Forall₂ (NetworkMessageOffset.Names bs start) (marks rt offset pieces) items
  nonempty : ∀ piece ∈ pieces, piece.item ≠ none → piece.bytes ≠ []

namespace Points

variable {rt : Bool} {as bs pieces : List Piece} {xs ys items : List RecordedItem}

theorem nil : Points rt [] [] := ⟨fun _ _ _ _ => .nil, nofun⟩

theorem append (ha : Points rt as xs) (hb : Points rt bs ys) :
    Points rt (as ++ bs) (xs ++ ys) := by
  constructor
  · intro src start offset hat
    rw [pieceBytes_append, at_append, Nat.add_assoc] at hat
    rw [marks_append]
    exact List.rel_append (ha.names src start offset hat.1) (hb.names src start _ hat.2)
  · intro piece hpiece
    rcases List.mem_append.mp hpiece with h | h
    · exact ha.nonempty piece h
    · exact hb.nonempty piece h

theorem ite {c : Bool} (h : c = true → Points rt pieces items) :
    Points rt (if c then pieces else []) (if c then items else []) := by
  cases c with
  | true => exact h rfl
  | false => exact nil

theorem plain (bs : Bytes) : Points rt [.plain bs] [] := by
  constructor
  · intro _ _ _ _
    exact .nil
  · intro piece hpiece hitem
    rw [List.mem_singleton.mp hpiece] at hitem
    exact absurd rfl hitem

theorem plainIf (c : Bool) (bs : Bytes) : Points rt (if c then [.plain bs] else []) [] := by
  cases c with
  | true => exact plain bs
  | false => exact nil

/-- A piece with an entry begins with its item. -/
theorem of_prefix (contentType : NetworkMessageOffsetType) (source : OffsetSource)
    {bs out : Bytes} {x : Enc} (h : Commits out True x) (hout : out ≠ []) (hbs : out <+: bs) :
    Points rt [⟨some (contentType, source), bs⟩]
      (recordedIf (!contentType.forSubscriber || rt) contentType source x) := by
  constructor
  · intro src start offset hat
    have hitem : At src (start + offset) out := by
      rw [pieceBytes_cons, pieceBytes_nil, List.append_nil] at hat
      exact hbs.trans hat
    simp only [marks, Piece.mark, List.append_nil, recordedIf]
    cases contentType.forSubscriber <;> cases rt <;>
      first
      | exact .nil
      | exact .cons ⟨rfl, rfl, out, h, hitem⟩ .nil
  · intro piece hpiece _
    rw [List.mem_singleton.mp hpiece]
    rintro rfl
    exact hout (List.prefix_nil.mp hbs)

/-- An item everybody needs. -/
theorem item {c : Bool} (contentType : NetworkMessageOffsetType) (source : OffsetSource)
    {bs : Bytes} {x : Enc} (hkind : contentType.forSubscriber = false)
    (h : c = true → Commits bs True x) (hbs : bs ≠ []) :
    Points rt (if c then [⟨some (contentType, source), bs⟩] else [])
      (recordedIf c contentType source x) := by
  cases c with
  | true =>
    have hpoints : Points rt _ _ :=
      of_prefix contentType source (h rfl) hbs (List.prefix_refl bs)
    rw [hkind] at hpoints
    exact hpoints
  | false => exact nil

/-- An item subscribers need. -/
theorem rtItem {c : Bool} (contentType : NetworkMessageOffsetType) {bs out : Bytes} {x : Enc}
    (hkind : contentType.forSubscriber = true) (h : c = true → Commits out True x)
    (hout : c = true → out ≠ []) (hbs : c = true → out <+: bs) :
    Points rt (if c then [⟨some (contentType, .none), bs⟩] else [])
      (recordedIf (rt && c) contentType .none x) := by
  cases c with
  | true =>
    have hpoints : Points rt _ _ := of_prefix contentType .none (h rfl) (hout rfl) (hbs rfl)
    rw [hkind] at hpoints
    rw [Bool.and_true]
    exact hpoints
  | false =>
    rw [Bool.and_false]
    exact nil

/-- Elements of an array, whose pieces may depend on the index. Induction on the elements. -/
theorem zipIdx {α : Type} {xs : List α} {piece : Nat → α → List Piece}
    {items : Nat → α → List RecordedItem}
    (h : ∀ i, ∀ x ∈ xs, Points rt (piece i x) (items i x)) (n : Nat) :
    Points rt ((xs.zipIdx n).flatMap fun p => piece p.2 p.1)
      ((xs.zipIdx n).flatMap fun p => items p.2 p.1) := by
  induction xs generalizing n with
  | nil => exact nil
  | cons x xs ih =>
    rw [List.zipIdx_cons, List.flatMap_cons, List.flatMap_cons]
    exact (h n x (List.mem_cons_self ..)).append
      (ih (fun i y hy => h i y (List.mem_cons_of_mem _ hy)) (n + 1))

/-- Pieces without an entry. -/
theorem of_plain (h : IsPlain pieces) : Points rt pieces [] := by
  induction pieces with
  | nil => exact nil
  | cons piece pieces ih =>
    obtain ⟨hpiece, hpieces⟩ := List.forall_mem_cons.mp h
    obtain ⟨item, bs⟩ := piece
    obtain rfl : item = none := hpiece
    exact (plain bs).append (ih hpieces)

end Points

section

variable {rt : Bool} {S : FieldSpec} {m : NetworkMessage}

theorem leBytes_ne_nil {k : Nat} (hk : 0 < k) (n : Nat) : leBytes k n ≠ [] := by
  refine List.ne_nil_of_length_pos ?_
  rw [leBytes_length]
  exact hk

/-- A field begins with a byte of its own. -/
theorem uaVariantEncodeBinary_ne_nil {v : Variant} {bs : Bytes}
    (h : Commits bs True (uaVariantEncodeBinary T v)) : bs ≠ [] := by
  rintro rfl
  have hfail : uaVariantEncodeBinary T v (blank 0) = .fail badEncodingError (blank 0) := by
    obtain ⟨_ | type, data, dimensions⟩ := v <;> rfl
  have hdone := h.done_blank
  rw [List.length_nil, hfail] at hdone
  cases hdone

theorem uaDataValueEncodeBinary_ne_nil {d : DataValue} {bs : Bytes}
    (h : Commits bs True (uaDataValueEncodeBinary T d)) : bs ≠ [] := by
  rintro rfl
  have hfail : uaDataValueEncodeBinary T d (blank 0) = .fail badEncodingError (blank 0) := by
    cases d
    rfl
  have hdone := h.done_blank
  rw [List.length_nil, hfail] at hdone
  cases hdone

/-- What is known to be written where the encoder does not refuse. -/
theorem commits_of_ok {bs : Bytes} {ok : Prop} {x : Enc} (h : Commits bs ok x) (hok : ok) :
    Commits bs True x := h.congr rfl (iff_true_intro hok)

theorem publisherIdBytes_ne_nil {id : PublisherId} (h : id.fits = true) :
    publisherIdBytes id ≠ [] := by
  cases id with
  | byte v => exact List.cons_ne_nil _ _
  | uint16 v => exact leBytes_ne_nil (by decide) _
  | uint32 v => exact leBytes_ne_nil (by decide) _
  | uint64 v => exact leBytes_ne_nil (by decide) _
  | string s =>
    have hlen := stringBytes_length s
    exact List.ne_nil_of_length_pos (by
      show 0 < (stringBytes s).length
      rw [hlen, stringCalcSizeBinary]
      omega)
  | reserved v => exact absurd h Bool.false_ne_true

theorem points_groupHeader (g : NetworkMessageGroupHeader) :
    Points rt (groupHeaderPieces g) (groupHeaderItems rt g) := by
  have hword : ∀ v : UInt16, Commits (leBytes 2 v.toNat) True (uaUInt16EncodeBinary v) :=
    commits_uaUInt16
  have hne : ∀ n, leBytes 2 n ≠ [] := leBytes_ne_nil (by decide)
  have hgroup : Points rt _ _ := .rtItem .writerGroupId rfl
    (fun _ : g.writerGroupIdEnabled = true => hword g.writerGroupId) (fun _ => hne _)
    fun _ => List.prefix_refl _
  have hnumber : Points rt _ _ := .item .networkMessageSequenceNumber .sequenceNumber rfl
    (fun _ : g.sequenceNumberEnabled = true => hword g.sequenceNumber) (hne _)
  exact (Points.plain _).append (hgroup.append ((Points.plainIf _ _).append
    ((Points.plainIf _ _).append hnumber)))

/-- Publisher id and group header. -/
theorem points_head (hT : StandardTypes T)
    (hfits : m.publisherIdEnabled = true → m.publisherId.fits = true) :
    Points rt (headPieces m)
      (recordedIf (rt && m.publisherIdEnabled) .publisherId .none
        (publisherIdEncodeBinary T m.publisherId) ++
          (if m.groupHeaderEnabled then groupHeaderItems rt m.groupHeader else [])) := by
  have hcommits : m.publisherIdEnabled = true → Commits (publisherIdBytes m.publisherId) True
      (publisherIdEncodeBinary T m.publisherId) := fun h =>
    (commits_of_ok (lays_publisherId hT m.publisherId).commits (hfits h)).congr
      (by rw [pieceBytes_cons, pieceBytes_nil, List.append_nil]) Iff.rfl
  have hid : Points rt _ _ := .rtItem .publisherId rfl hcommits
    (fun h => publisherIdBytes_ne_nil (hfits h)) fun _ => List.prefix_refl _
  exact (Points.of_plain (isPlain_flags m)).append (hid.append ((Points.plainIf _ _).append
    (.ite fun _ => points_groupHeader m.groupHeader)))

/-- The first writer id, if there is one. -/
theorem points_payloadHeader
    (hids : m.payloadHeaderEnabled = true → m.payloadHeader.dataSetWriterIds.getD [] ≠ []) :
    Points rt (if m.payloadHeaderEnabled then payloadHeaderPieces m else [])
      (recordedIf (rt && m.payloadHeaderEnabled) .dataSetWriterId .none
        (element (m.payloadHeader.dataSetWriterIds.getD []) uaUInt16EncodeBinary 0)) := by
  cases henabled : m.payloadHeaderEnabled with
  | false =>
    rw [Bool.and_false]
    exact .nil
  | true =>
    obtain ⟨id, ids, hcons⟩ := List.exists_cons_of_ne_nil (hids henabled)
    have hfirst : Commits (leBytes 2 id.toNat) True
        (element (m.payloadHeader.dataSetWriterIds.getD []) uaUInt16EncodeBinary 0) := by
      rw [hcons]
      exact commits_uaUInt16 id
    have hprefix : leBytes 2 id.toNat <+:
        (m.payloadHeader.dataSetWriterIds.getD []).flatMap fun id => leBytes 2 id.toNat := by
      rw [hcons, List.flatMap_cons]
      exact List.prefix_append _ _
    have hid : Points rt _ _ := .rtItem (c := true) .dataSetWriterId rfl
      (fun _ => hfirst) (fun _ => leBytes_ne_nil (by decide) _) fun _ => hprefix
    exact (Points.plain _).append hid

theorem points_extendedHeader (S : FieldSpec) (m : NetworkMessage) :
    Points rt (extendedHeaderPieces S m)
      (recordedIf m.timestampEnabled .timestamp .none (uaUInt64EncodeBinary m.timestamp) ++
        recordedIf m.picosecondsEnabled .timestampPicoseconds .none
          (uaUInt16EncodeBinary m.picoseconds)) := by
  have htimestamp : Points rt _ _ := .item .timestamp .none rfl
    (fun _ : m.timestampEnabled = true => commits_uaUInt64 m.timestamp)
    (leBytes_ne_nil (by decide) _)
  have hpico : Points rt _ _ := .item .timestampPicoseconds .none rfl
    (fun _ : m.picosecondsEnabled = true => commits_uaUInt16 m.picoseconds)
    (leBytes_ne_nil (by decide) _)
  have hpromoted : Points rt _ [] := .of_plain (isPlain_promoted S m)
  have hitems := htimestamp.append (hpico.append hpromoted)
  rwa [List.append_nil] at hitems

theorem points_dataSetMessageHeader (i : Nat) (h : DataSetMessageHeader) :
    Points rt (dataSetMessageHeaderPieces i h)
      (recordedIf h.dataSetMessageSequenceNrEnabled .dataSetMessageSequenceNumber
        (.dataSetMessageSequenceNr i) (uaUInt16EncodeBinary h.dataSetMessageSequenceNr)) := by
  have hnumber : Points rt _ _ := .item .dataSetMessageSequenceNumber
    (.dataSetMessageSequenceNr i) rfl
    (fun _ : h.dataSetMessageSequenceNrEnabled = true =>
      commits_uaUInt16 h.dataSetMessageSequenceNr) (leBytes_ne_nil (by decide) _)
  rw [← List.append_nil (recordedIf ..)]
  exact (Points.plain _).append ((Points.plainIf _ _).append
    (hnumber.append (.of_plain (isPlain_afterSequenceNr h))))

/-- The fields of a key frame, each with its entry. -/
theorem points_keyFrame (i : Nat) {d : DataSetMessage}
    (hfields : ∀ f ∈ d.keyFields, S.Writes T d.header.fieldEncoding f) :
    Points rt (keyFramePieces S i d) (keyFrameItems T i d) := by
  -- the field count has no entry of its own
  have hcount : Points rt (fieldCountPieces d) [] := .plainIf _ _
  unfold keyFramePieces keyFrameItems
  unfold DataSetMessage.keyFields at *
  cases henc : d.header.fieldEncoding with
  | variant =>
    rw [henc] at hfields
    have hfield : ∀ j, ∀ f ∈ d.dataSetFields.getD [],
        Points rt [⟨fieldItem .variant i j f, S.bytes .variant f⟩]
          [⟨.payloadVariant, .fieldData i j f.value.type, uaVariantEncodeBinary T f.value⟩] := by
      intro j f hf
      have hcommits := commits_of_ok (hfields f hf).meets.commits (hfields f hf).ok
      exact .item (c := true) _ _ rfl (fun _ => hcommits) (uaVariantEncodeBinary_ne_nil hcommits)
    dsimp only
    rw [List.map_eq_flatMap]
    exact hcount.append (.zipIdx hfield 0)
  | dataValue =>
    rw [henc] at hfields
    have hfield : ∀ j, ∀ f ∈ d.dataSetFields.getD [],
        Points rt [⟨fieldItem .dataValue i j f, S.bytes .dataValue f⟩]
          [⟨.payloadDataValue, .dataSetFields i, uaDataValueEncodeBinary T f⟩] := by
      intro j f hf
      have hcommits := commits_of_ok (hfields f hf).meets.commits (hfields f hf).ok
      exact .item (c := true) _ _ rfl (fun _ => hcommits) (uaDataValueEncodeBinary_ne_nil hcommits)
    dsimp only
    rw [List.map_eq_flatMap]
    exact hcount.append (.zipIdx hfield 0)
  | rawData => exact hcount.append .nil
  | reserved => exact hcount.append .nil

theorem points_dataSetMessage (i : Nat) {d : DataSetMessage} (hd : d.Filled (S.Writes T)) :
    Points rt (dataSetMessagePieces S i d) (dataSetMessageItems T i d) := by
  refine (points_dataSetMessageHeader i d.header).append ?_
  cases htype : d.header.dataSetMessageType with
  | dataKeyFrame => exact points_keyFrame i (hd.keyFields htype)
  | dataDeltaFrame => exact .of_plain (isPlain_deltaFrame S d)
  | _ => exact .nil

/-- Everything behind the promoted fields. -/
theorem points_tail (hm : PayloadFilled (S.Writes T) m) :
    Points rt (tailPieces S m)
      ((m.payload.dataSetMessages.getD []).zipIdx.flatMap fun p =>
        dataSetMessageItems T p.2 p.1) := by
  have hheader : Points rt (if m.securityEnabled then securityHeaderPieces m.securityHeader else [])
      [] := .of_plain (.ite fun _ => isPlain_securityHeader _)
  have htrailer : Points rt (if m.securityEnabled then trailerPieces m else []) [] :=
    .of_plain (.ite fun _ => isPlain_trailer m)
  have hmessages : Points rt (messagesPieces S m) _ :=
    .zipIdx (fun i d hd => points_dataSetMessage (T := T) i (hm.messages d hd)) 0
  rw [← List.append_nil (List.flatMap ..)]
  exact hheader.append ((Points.plainIf _ _).append (hmessages.append htrailer))

/-- The pieces of a message and its items. -/
theorem points_networkMessage (hT : StandardTypes T) (hm : m.Filled (S.Writes T))
    (hencodable : m.Encodable S)
    (hids : m.payloadHeaderEnabled = true → m.payloadHeader.dataSetWriterIds.getD [] ≠ []) :
    Points rt (messagePieces S m) (m.recordedItems T rt) :=
  (points_head hT hencodable.publisherId).append ((points_payloadHeader hids).append
    ((points_extendedHeader S m).append (points_tail hm.payload)))

end

/-! ## What a success tells about the fields -/

/-- What a field is written as, if it can be written. -/
noncomputable def writtenSpec (T : DataTypes) : FieldSpec where
  bytes encoding f := Classical.epsilon fun bs => Commits bs True (fieldEncodeBinary T encoding f)
  ok encoding f := ∃ bs, Commits bs True (fieldEncodeBinary T encoding f)

/-- A field is counted as it is written: the calculation takes no pointer to an optional
member for the member, and the ids in front of wrapped structures are as long as those it
counts. -/
structure FieldCounted (T : DataTypes) (encoding : FieldEncoding) (f : DataValue) : Prop where
  calculated : (fieldCalcSizeBinary T encoding f).isSome = true
  ids : T.typeIdsSize (encoding.wrappedTypes T f) = T.encodingIdsSize (encoding.wrappedTypes T f)

theorem counted_field (hW : WireTypes T) (encoding : FieldEncoding) (f : DataValue) :
    Counted T (encoding.wrappedTypes T f) (fieldCalcSizeBinary T encoding f)
      (fieldEncodeBinary T encoding f) := by
  cases encoding with
  | variant => exact counted_uaVariant hW f.value
  | dataValue => exact counted_uaDataValue hW f
  | rawData => exact Counted.pure
  | reserved => exact Counted.pure

theorem writtenSpec_writes (hW : WireTypes T) {encoding : FieldEncoding} {f : DataValue}
    (hok : (writtenSpec T).ok encoding f) (hcounted : FieldCounted T encoding f) :
    (writtenSpec T).Writes T encoding f := by
  have hcommits :
    Commits ((writtenSpec T).bytes encoding f) True (fieldEncodeBinary T encoding f) :=
    Classical.epsilon_spec hok
  obtain ⟨c, hc⟩ := Option.isSome_iff_exists.mp hcounted.calculated
  have hlen := (counted_field hW encoding f).length hcommits c hc
  have hsize : c = ((writtenSpec T).bytes encoding f).length := by
    have hids := hcounted.ids
    omega
  exact ⟨⟨hcommits.congr rfl (iff_of_true trivial hok), hc.trans (congrArg some hsize)⟩, hok⟩

theorem writtenSpec_ok (hW : WireTypes T) {encoding : FieldEncoding} {f : DataValue} {s t : Buffer}
    (hs : s.Valid) (hrun : fieldEncodeBinary T encoding f s = .done () t) :
    (writtenSpec T).ok encoding f := by
  obtain ⟨bs, hbs, -⟩ := (counted_field hW encoding f).commits hs hrun
  exact ⟨bs, hbs⟩

/-- The fields of a key frame that was written. -/
theorem keyFields_of_done (hW : WireTypes T) (encoding : FieldEncoding) {fields : List DataValue}
    {n : Nat} (hn : fields.length = n) {s t : Buffer} (hs : s.Valid)
    (hrun : forUpTo n (element fields (fieldEncodeBinary T encoding)) s = .done () t) :
    ∀ f ∈ fields, (writtenSpec T).ok encoding f := by
  subst hn
  rw [forUpTo_element] at hrun
  intro f hf
  obtain ⟨u, v, hu, hdone⟩ := Keeping.each_eq_done
    (fun f _ => (counted_field hW encoding f).keeping) hs hrun f hf
  exact writtenSpec_ok hW hu hdone

/-- The fields of a delta frame that was written. -/
theorem deltaFields_of_done (hW : WireTypes T) {encoding : FieldEncoding} {g : DataValue → Enc}
    (hg : g = fieldEncodeBinary T encoding) {fields : List DeltaFrameField} {n : Nat}
    (hn : fields.length = n) {s t : Buffer} (hs : s.Valid)
    (hrun : forUpTo n (element fields (deltaFrameFieldEncodeBinary g)) s = .done () t) :
    ∀ p ∈ fields.filterMap DeltaFrameField.pair?, (writtenSpec T).ok encoding p.2 := by
  subst hn hg
  rw [forUpTo_element] at hrun
  have hkeeping :
    ∀ field, Keeping (deltaFrameFieldEncodeBinary (fieldEncodeBinary T encoding) field) :=
    fun field =>
      have htallied := tallied_deltaField (fun v => counted_field hW encoding v) field
      htallied.elim fun _ h => h.1.keeping
  intro p hp
  obtain ⟨⟨fieldIndex, fieldValue⟩, hfield, hpair⟩ := List.mem_filterMap.mp hp
  obtain ⟨u, v, hu, hdone⟩ := Keeping.each_eq_done (fun field _ => hkeeping field) hs hrun _ hfield
  cases fieldIndex with
  | uninit => cases hpair
  | init index =>
    cases fieldValue with
    | uninit => cases hpair
    | init value =>
      cases hpair
      obtain ⟨_, w, hindex, hvalue⟩ := bind_eq_done.mp hdone
      have hw := ((keeping_fixed (leBytes 2 index.toNat)).done hu hindex).valid
      exact writtenSpec_ok hW hw hvalue

/-- A message that was written could be encoded. -/
theorem dataSetMessage_encodable (hW : WireTypes T) {d : DataSetMessage}
    (hd : d.Filled fun _ _ => True) {s t : Buffer} (hs : s.Valid)
    (hrun : dataSetMessageEncodeBinary T d s = .done () t) : d.Encodable (writtenSpec T) := by
  obtain ⟨_, u, hheader, hdata⟩ := bind_eq_done.mp hrun
  have hu := ((Keeping.of_commits (lays_dataSetMessageHeader 0 d.header).commits).done hs
    hheader).valid
  unfold DataSetMessage.Encodable
  cases htype : d.header.dataSetMessageType with
  | dataKeyFrame =>
    rw [htype] at hdata
    obtain ⟨_, v, hcount, hfields⟩ := bind_eq_done.mp hdata
    have hv := ((Keeping.ite (fun _ => keeping_fixed _) fun _ => .pure).done hu hcount).valid
    have hlength := hd.keyLength htype
    unfold DataSetMessage.keyFields
    cases henc : d.header.fieldEncoding with
    | variant =>
      rw [henc] at hfields hlength
      exact ⟨nofun, keyFields_of_done hW .variant (hlength rfl) hv hfields⟩
    | dataValue =>
      rw [henc] at hfields hlength
      exact ⟨nofun, keyFields_of_done hW .dataValue (hlength rfl) hv hfields⟩
    -- the encoder refuses this encoding
    | rawData =>
      rw [henc] at hfields
      cases hfields
    | reserved => exact ⟨nofun, fun f hf => absurd hf List.not_mem_nil⟩
  | dataDeltaFrame =>
    rw [htype] at hdata
    obtain ⟨_, v, hcount, hfields⟩ := bind_eq_done.mp hdata
    have hv := ((keeping_fixed _).done hu hcount).valid
    have hlength := hd.deltaLength htype
    unfold DataSetMessage.deltaFields
    cases henc : d.header.fieldEncoding with
    | variant =>
      rw [henc] at hfields hlength
      exact ⟨nofun, deltaFields_of_done hW rfl (hlength rfl) hv hfields⟩
    | dataValue =>
      rw [henc] at hfields hlength
      exact ⟨nofun, deltaFields_of_done hW rfl (hlength rfl) hv hfields⟩
    | rawData =>
      rw [henc] at hfields
      cases hfields
    | reserved => exact ⟨nofun, fun p hp => absurd hp List.not_mem_nil⟩
  | keepAlive => trivial
  | event =>
    rw [htype] at hdata
    cases hdata
  | reserved v =>
    rw [htype] at hdata
    cases hdata

/-! ## The whole table -/

/-- All arrays are as long as their counters. -/
structure NetworkMessage.MatchesCounters (m : NetworkMessage) : Prop where
  type : m.networkMessageType = .dataSet
  writerIds : m.payloadHeaderEnabled = true → ∀ ids, m.payloadHeader.dataSetWriterIds = some ids →
    ids.length = m.payloadHeader.count.toNat
  promoted : m.promotedFieldsEnabled = true → PromotedFilled (fun _ _ => True) m
  nonce : m.securityEnabled = true →
    (m.securityHeader.messageNonce.getD []).length = m.securityHeader.nonceLength.toNat
  footer : m.securityEnabled = true → m.securityHeader.securityFooterEnabled = true →
    (m.securityFooter.getD []).length = m.securityHeader.securityFooterSize.toNat
  payload : PayloadFilled (fun _ _ => True) m

/-- The fields of a key or delta frame. -/
def DataSetMessage.frameFields (d : DataSetMessage) : List DataValue :=
  match d.header.dataSetMessageType with
  | .dataKeyFrame => d.keyFields
  | .dataDeltaFrame => d.deltaFields.map Prod.snd
  | _ => []

/-- The promoted fields can be encoded, and all fields are counted as they are written. -/
structure NetworkMessage.FieldsCounted (T : DataTypes) (m : NetworkMessage) : Prop where
  promotedEncodable : m.promotedFieldsEnabled = true → ∀ v ∈ m.promoted, VariantEncodable T v
  promotedCounted : m.promotedFieldsEnabled = true →
    ∀ v ∈ m.promoted, FieldCounted T .variant (fieldOfVariant v)
  frameCounted : ∀ d ∈ m.payload.dataSetMessages.getD [], ∀ f ∈ d.frameFields,
    FieldCounted T d.header.fieldEncoding f

variable {m : NetworkMessage}

theorem dataSetMessage_filled (hW : WireTypes T) {d : DataSetMessage}
    (hd : d.Filled fun _ _ => True) (hencodable : d.Encodable (writtenSpec T))
    (hcounted : ∀ f ∈ d.frameFields, FieldCounted T d.header.fieldEncoding f) :
    d.Filled ((writtenSpec T).Writes T) where
  keyLength := hd.keyLength
  keyFields htype f hf := by
    simp only [DataSetMessage.Encodable, DataSetMessage.frameFields, htype] at hencodable hcounted
    exact writtenSpec_writes hW (hencodable.2 f hf) (hcounted f hf)
  deltaLength := hd.deltaLength
  deltaInit := hd.deltaInit
  deltaFields htype f hf := by
    simp only [DataSetMessage.Encodable, DataSetMessage.frameFields, htype] at hencodable hcounted
    exact writtenSpec_writes hW (hencodable.2 f hf) (hcounted f.2 (List.mem_map_of_mem hf))

/-- Where an encoder came to its end, every section in it did. -/
theorem networkMessage_encodable (hW : WireTypes T) (hm : m.MatchesCounters) {s t : Buffer}
    (hs : s.Valid) (hrun : networkMessageEncodeBinary T m s = .done () t) :
    m.Encodable (writtenSpec T) := by
  have hT := hW.toStandardTypes
  -- the sections in front
  have hsections := hrun
  rw [networkMessageEncodeBinary_eq] at hsections
  obtain ⟨_, u, hhead, hsections⟩ := bind_eq_done.mp hsections
  obtain ⟨_, v, hheader, -⟩ := bind_eq_done.mp hsections
  -- the payload
  obtain ⟨_, w, hheaders, hpayload⟩ := bind_eq_done.mp hrun
  have hw := ((keeping_headers hW m).done hs hheaders).valid
  rw [payloadEncodeBinary, if_neg (not_not_intro hm.type)] at hpayload
  obtain ⟨_, x, hsizes, hpayload⟩ := bind_eq_done.mp hpayload
  obtain ⟨_, y, hmessages, htrailer⟩ := bind_eq_done.mp hpayload
  have hx := ((Keeping.ite (fun _ => .loopFrom (fun i => (measured_size i).keeping) _ _)
    fun _ => .pure).done hw hsizes).valid
  have hkeeping : ∀ d : DataSetMessage, Keeping (dataSetMessageEncodeBinary T d) :=
    fun d => (counted_dataSetMessage hW d).keeping
  have hy := ((Keeping.loopFrom (Keeping.element fun d _ => hkeeping d) _ _).done hx
    hmessages).valid
  constructor
  · intro henabled
    cases hids : m.payloadHeader.dataSetWriterIds with
    | some ids => rfl
    | none =>
      rw [henabled, encodeIf, if_pos rfl, payloadHeaderEncodeBinary,
        if_neg (not_not_intro hm.type), hids] at hheader
      obtain ⟨_, _, _, hfail⟩ := bind_eq_done.mp hheader
      cases hfail
  · exact (lays_head hT m).commits.ok_of_done hs hhead
  · rw [← hm.payload.length, forUpTo_element] at hmessages
    intro d hd
    obtain ⟨p, q, hp, hdone⟩ := Keeping.each_eq_done (fun d _ => hkeeping d) hx hmessages d hd
    exact dataSetMessage_encodable hW (hm.payload.messages d hd) hp hdone
  · intro hsecurity hsigned
    rw [hsecurity] at htrailer
    obtain ⟨_, z, hfooter, hsignature⟩ := bind_eq_done.mp htrailer
    have hz : z.Valid := by
      cases henabled : m.securityHeader.securityFooterEnabled with
      | false =>
        rw [henabled] at hfooter
        cases hfooter
        exact hy
      | true =>
        rw [henabled] at hfooter
        by_cases hsize : 255 < m.securityHeader.securityFooterSize.toNat
        · exact absurd hrun
            (networkMessageEncodeBinary_not_done hm.type hsecurity henabled hsize _ _)
        · have hcommits := commits_securityFooter (hm.footer hsecurity henabled)
            (Nat.le_of_not_lt hsize)
          exact ((Keeping.of_commits hcommits).done hy hfooter).valid
    rw [hsigned] at hsignature
    exact (commits_uaString hT m.signature).ok_of_done hz hsignature

/-- Nothing is left to be desired of a message that was encoded. -/
theorem networkMessage_filled (hW : WireTypes T) (hm : m.MatchesCounters)
    (hfields : m.FieldsCounted T) {s t : Buffer} (hs : s.Valid)
    (hrun : networkMessageEncodeBinary T m s = .done () t) :
    m.Filled ((writtenSpec T).Writes T) where
  type := hm.type
  writerIds := hm.writerIds
  promoted henabled := by
    refine ⟨(hm.promoted henabled).init, (hm.promoted henabled).length, fun v hv => ?_⟩
    obtain ⟨p, q, hp, hdone⟩ := hfields.promotedEncodable henabled v hv
    have hok : (writtenSpec T).ok .variant (fieldOfVariant v) := writtenSpec_ok hW hp hdone
    exact writtenSpec_writes hW hok (hfields.promotedCounted henabled v hv)
  security henabled := by
    refine ⟨hm.nonce henabled, hm.footer henabled, fun hfooter => Nat.le_of_not_lt fun hsize => ?_⟩
    exact networkMessageEncodeBinary_not_done hm.type henabled hfooter hsize _ _ hrun
  payload := by
    refine ⟨hm.payload.length, hm.payload.sizes, fun d hd => ?_⟩
    exact dataSetMessage_filled hW (hm.payload.messages d hd)
      ((networkMessage_encodable hW hm hs hrun).messages d hd) (hfields.frameCounted d hd)

end OpenPubSub
