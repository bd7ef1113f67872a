import OpenPubSub.Lib.Steps
import OpenPubSub.NetworkMessage.OffsetTable
import OpenPubSub.NetworkMessage.RoundTrip
import OpenPubSub.NetworkMessage.UpdateMessage

/-!
# The fast path and the full encoder

A message is changed in place, field sizes and all pointers stay. Its pieces are then as long as
they were, so the table still says where the items are, and each item is written over its old
bytes (`Rewrites`). The comparison goes section by section.

- `NetworkMessage.ChangesTo` is what may change from one cycle to the next.
- `NetworkMessage.Served` is what the entries of the table have to do with the fields: an array
  is sent as a scalar, and DataValues as the first of them, so these have to come to the same.
- **`networkMessageUpdateBufferedMessage_eq_encode`**: with supported entries, the fast path
  leaves what the encoder writes. With others it returns BADNOTSUPPORTED.
-/

namespace OpenPubSub

open Routine Writer

/-! ## Changes in place -/

/-- NULL and the sentinel have nothing behind them that could change. -/
def Value.ChangesInPlace (old new : Value) : Prop :=
  (new = .null ↔ old = .null) ∧ (new = .array [] ↔ old = .array [])

/-- Another value of the same type and encoded size. A Variant is changed behind its data
pointer. -/
structure DataValueOf.ChangesTo (T : DataTypes) (encoding : FieldEncoding) (old new : DataValue) :
    Prop where
  type : new.value.type = old.value.type
  inPlace : encoding = .variant → old.value.data.ChangesInPlace new.value.data
  size : fieldCalcSizeBinary T encoding new = fieldCalcSizeBinary T encoding old

/-- The message with this sequence number. -/
def DataSetMessage.withSequenceNr (d : DataSetMessage) (n : UInt16) : DataSetMessage :=
  { d with header := { d.header with dataSetMessageSequenceNr := n } }

/-- Another sequence number, and other fields. -/
def DataSetMessage.ChangesTo (T : DataTypes) (old new : DataSetMessage) : Prop :=
  ∃ n fs, new = (old.withSequenceNr n).withFields fs ∧
    List.Forall₂ (DataValueOf.ChangesTo T old.header.fieldEncoding) (old.dataSetFields.getD []) fs

/-- The message with this sequence number of the group. -/
def NetworkMessage.withSequenceNumber (m : NetworkMessage) (n : UInt16) : NetworkMessage :=
  { m with groupHeader := { m.groupHeader with sequenceNumber := n } }

/-- Another sequence number of the group, and other DataSetMessages. -/
def NetworkMessage.ChangesTo (T : DataTypes) (old new : NetworkMessage) : Prop :=
  ∃ n ds, new = (old.withSequenceNumber n).withDataSetMessages ds ∧
    List.Forall₂ (DataSetMessage.ChangesTo T) (old.payload.dataSetMessages.getD []) ds

/-! ## Fields the entries are right for -/

/-- `UA_Variant_setScalar` with data and type of the Variant makes the same of it: no array, or
one without elements and dimensions. -/
def VariantOf.isScalarOrEmpty (v : Variant) : Bool :=
  v.type.isNone ||
    match v.data with
    | .array (_ :: _) => false
    | .array [] | .null => (v.arrayDimensions.getD []).isEmpty
    | _ => true

/-- Variants are scalars or empty, and DataValues are encoded like the first one. -/
structure DataSetMessage.Served (T : DataTypes) (d : DataSetMessage) : Prop where
  variant : d.header.fieldEncoding = .variant →
    ∀ f ∈ d.dataSetFields.getD [], f.value.isScalarOrEmpty = true
  dataValue : d.header.fieldEncoding = .dataValue → ∀ f ∈ d.dataSetFields.getD [],
    ∀ g, (d.dataSetFields.getD [])[0]? = some g →
      uaDataValueEncodeBinary T g = uaDataValueEncodeBinary T f

/-- All key frames of the message are. -/
def NetworkMessage.Served (T : DataTypes) (m : NetworkMessage) : Prop :=
  ∀ d ∈ m.payload.dataSetMessages.getD [], d.header.dataSetMessageType = .dataKeyFrame → d.Served T

/-- The table has entries the update knows only: no timestamps, and no identifiers, which are
for subscribers. -/
structure NetworkMessage.Updatable (rt : Bool) (m : NetworkMessage) : Prop where
  publisherId : m.publisherIdEnabled = true → rt = false
  writerGroupId : m.groupHeaderEnabled = true → m.groupHeader.writerGroupIdEnabled = true →
    rt = false
  writerIds : m.payloadHeaderEnabled = true → rt = false
  timestamp : m.timestampEnabled = false
  picoseconds : m.picosecondsEnabled = false

variable {T : DataTypes} {S : FieldSpec} {rt : Bool}

/-- Without an array, dimensions are not encoded. -/
theorem variantEncodeBinary_no_dimensions {v : Variant}
    (h : v.data.isArray = true → v.arrayDimensions.getD [] = []) (depth : Nat) :
    variantEncodeBinary T depth ⟨v.type, v.data, none⟩ = variantEncodeBinary T depth v := by
  obtain ⟨type, data, dimensions⟩ := v
  cases type with
  | none => rfl
  | some type =>
    cases harray : data.isArray with
    | true =>
      have hnone : dimensions.getD [] = [] := h harray
      simp only [variantEncodeBinary, hnone, Option.getD_none]
    | false =>
      simp only [variantEncodeBinary, variantEncodingByte, harray, Bool.false_and, encodeIf,
        Bool.false_eq_true, if_false]

theorem uaVariantEncodeBinary_setScalar {v : Variant} (h : v.isScalarOrEmpty = true) :
    uaVariantEncodeBinary T (variantSetScalar v.data v.type) = uaVariantEncodeBinary T v := by
  obtain ⟨type, data, dimensions⟩ := v
  cases type with
  | none => rfl
  | some type =>
    refine congrArg encodeWithExchangeBuffer (Eq.trans (congrArg _ ?_)
      (variantEncodeBinary_no_dimensions (fun harray => ?_) 0))
    · -- the data is not an array with elements
      cases data with
      | array xs =>
        cases xs with
        | nil => rfl
        | cons x xs => cases h
      | _ => rfl
    · cases data with
      | array xs =>
        cases xs with
        | nil => exact List.isEmpty_iff.mp h
        | cons x xs => cases h
      | null => exact List.isEmpty_iff.mp h
      | _ => cases harray

/-! ## DataSetMessages -/

section DataSetMessage

variable {p : NetworkMessage} {old : DataSetMessage} {i : Nat} {n : UInt16} {fs : List DataValue}

theorem completes_dataUInt16 (source : OffsetSource) {v : UInt16}
    (h : source.value? p =
      some (dataValueSetScalar (.uint16 v) (some (DataTypes.builtin .uint16)))) :
    Completes (leBytes 2 v.toNat) (encodeSource p source dataUInt16EncodeBinary) := by
  rw [encodeSource, h]
  exact (commits_uaUInt16 v).completes trivial

theorem rewrites_dataSetMessageHeader (h : DataSetMessageHeader)
    (hget : p.message? i = some ((old.withSequenceNr n).withFields fs)) :
    Rewrites T p rt (dataSetMessageHeaderPieces i h)
      (dataSetMessageHeaderPieces i { h with dataSetMessageSequenceNr := n }) True := by
  have hnumber : Completes (leBytes 2 n.toNat)
      (encodeSource p (.dataSetMessageSequenceNr i) dataUInt16EncodeBinary) := by
    refine completes_dataUInt16 _ ?_
    rw [OffsetSource.value?, hget]
    rfl
  have hitem : Rewrites T p rt
      [⟨some (.dataSetMessageSequenceNumber, .dataSetMessageSequenceNr i),
        leBytes 2 h.dataSetMessageSequenceNr.toNat⟩]
      [⟨some (.dataSetMessageSequenceNumber, .dataSetMessageSequenceNr i), leBytes 2 n.toNat⟩]
      True :=
    rewrites_item rfl (fun _ => rfl) hnumber (by rw [leBytes_length, leBytes_length])
  exact ((isPlain_plain _).rewrites.append ((isPlain_plainIf _ _).rewrites.append
    ((Rewrites.ite fun _ => hitem).append (isPlain_afterSequenceNr _).rewrites))).congr (by simp)

/-- A field is written as it is now. -/
theorem rewrites_field {encoding : FieldEncoding} (hencoding : encoding.hasFields = true)
    {f₀ f : DataValue} {j : Nat} (hf₀ : S.Writes T encoding f₀) (hf : S.Writes T encoding f)
    (hchange : DataValueOf.ChangesTo T encoding f₀ f) (hget : p.keyField? i j = some f)
    (hscalar : encoding = .variant → f.value.isScalarOrEmpty = true)
    (hfirst : encoding = .dataValue → ∃ g, p.keyField? i 0 = some g ∧
      uaDataValueEncodeBinary T g = uaDataValueEncodeBinary T f) :
    Rewrites T p rt [⟨fieldItem encoding i j f₀, S.bytes encoding f₀⟩]
      [⟨fieldItem encoding i j f, S.bytes encoding f⟩] True := by
  have hlen : (S.bytes encoding f).length = (S.bytes encoding f₀).length :=
    Option.some.inj ((hf.meets.size.symm.trans hchange.size).trans hf₀.meets.size)
  have hwrites := hf.meets.commits.completes hf.ok
  cases encoding with
  -- the entry has kept the type, and the update makes a scalar of type and data
  | variant =>
    have hsame := uaVariantEncodeBinary_setScalar (T := T) (hscalar rfl)
    have hentry : Completes (S.bytes .variant f) (encodeSource p (.fieldData i j f₀.value.type)
        fun d => uaVariantEncodeBinary T d.value) := by
      rw [encodeSource, OffsetSource.value?, hget, ← hchange.type]
      show Completes _ (uaVariantEncodeBinary T (variantSetScalar f.value.data f.value.type))
      rw [hsame]
      exact hwrites
    show Rewrites T p rt [⟨some (.payloadVariant, .fieldData i j f₀.value.type), _⟩]
      [⟨some (.payloadVariant, .fieldData i j f.value.type), _⟩] True
    rw [hchange.type]
    exact rewrites_item rfl (fun _ => rfl) hentry hlen
  -- every entry of the frame points to the first field
  | dataValue =>
    obtain ⟨g, hg, hsame⟩ := hfirst rfl
    have hentry : Completes (S.bytes .dataValue f)
        (encodeSource p (.dataSetFields i) (uaDataValueEncodeBinary T)) := by
      rw [encodeSource, OffsetSource.value?, hg]
      show Completes _ (uaDataValueEncodeBinary T g)
      rw [hsame]
      exact hwrites
    exact rewrites_item rfl (fun _ => rfl) hentry hlen
  | rawData | reserved => cases hencoding

theorem rewrites_keyFrame (hold : old.Filled (S.Writes T))
    (hnew : ((old.withSequenceNr n).withFields fs).Filled (S.Writes T))
    (htype : old.header.dataSetMessageType = .dataKeyFrame)
    (hfields : List.Forall₂ (DataValueOf.ChangesTo T old.header.fieldEncoding)
      (old.dataSetFields.getD []) fs)
    (hget : p.message? i = some ((old.withSequenceNr n).withFields fs))
    (hserved : ((old.withSequenceNr n).withFields fs).Served T) :
    Rewrites T p rt (keyFramePieces S i old)
      (keyFramePieces S i ((old.withSequenceNr n).withFields fs)) True := by
  have hcount : IsPlain (fieldCountPieces old) := isPlain_plainIf _ _
  have hloop : Rewrites T p rt
      (old.keyFields.zipIdx.flatMap fun q =>
        [⟨fieldItem old.header.fieldEncoding i q.2 q.1, S.bytes old.header.fieldEncoding q.1⟩])
      (((old.withSequenceNr n).withFields fs).keyFields.zipIdx.flatMap fun q =>
        [⟨fieldItem old.header.fieldEncoding i q.2 q.1, S.bytes old.header.fieldEncoding q.1⟩])
      True := by
    have hkey := hold.keyFields htype
    have hkey' : ∀ f ∈ ((old.withSequenceNr n).withFields fs).keyFields,
        S.Writes T old.header.fieldEncoding f := hnew.keyFields htype
    cases hencoding : old.header.fieldEncoding.hasFields with
    | false =>
      have hnone : old.keyFields = [] := if_neg (hencoding ▸ Bool.false_ne_true)
      have hnone' : ((old.withSequenceNr n).withFields fs).keyFields = [] :=
        if_neg (hencoding ▸ Bool.false_ne_true)
      rw [hnone, hnone']
      exact isPlain_nil.rewrites
    -- field for field, each found in the changed message at its index
    | true =>
      have hall : old.keyFields = old.dataSetFields.getD [] := if_pos hencoding
      have hall' : ((old.withSequenceNr n).withFields fs).keyFields = fs := if_pos hencoding
      rw [hall] at hkey ⊢
      rw [hall'] at hkey' ⊢
      refine @rewrites_zipIdx T p rt DataValue (old.dataSetFields.getD []) fs
        (fun j f =>
          [⟨fieldItem old.header.fieldEncoding i j f, S.bytes old.header.fieldEncoding f⟩])
        (fun j f =>
          [⟨fieldItem old.header.fieldEncoding i j f, S.bytes old.header.fieldEncoding f⟩])
        0 hfields.length_eq.symm fun j f₀ f hf₀ hf => ?_
      obtain ⟨hj₀, rfl⟩ := List.getElem?_eq_some_iff.mp hf₀
      obtain ⟨hj, rfl⟩ := List.getElem?_eq_some_iff.mp hf
      have hfield : ∀ k, p.keyField? i k = fs[k]? := by
        intro k
        rw [NetworkMessage.keyField?, hget]
        rfl
      rw [Nat.zero_add]
      refine rewrites_field hencoding (hkey _ (List.getElem_mem hj₀))
        (hkey' _ (List.getElem_mem hj))
        (hfields.get hj₀ hj) ((hfield j).trans hf)
        (fun hvariant => hserved.variant hvariant _ (List.getElem_mem hj)) fun hdata => ?_
      have hpos : 0 < fs.length := by omega
      have hzero : fs[0]? = some fs[0] := List.getElem?_eq_getElem hpos
      exact ⟨fs[0], (hfield 0).trans hzero, hserved.dataValue hdata _ (List.getElem_mem hj) _ hzero⟩
  exact (hcount.rewrites.append hloop).congr (by simp)

/-- A DataSetMessage is written as it is now. Only key frames have entries for their data. -/
theorem rewrites_dataSetMessage {new : DataSetMessage} (hchange : old.ChangesTo T new)
    (hold : old.Filled (S.Writes T)) (hnew : new.Filled (S.Writes T))
    (hget : p.message? i = some new)
    (hserved : new.header.dataSetMessageType = .dataKeyFrame → new.Served T) :
    Rewrites T p rt (dataSetMessagePieces S i old) (dataSetMessagePieces S i new) True := by
  obtain ⟨n, fs, rfl, hfields⟩ := hchange
  have hheader : Rewrites T p rt _ _ True := rewrites_dataSetMessageHeader old.header hget
  have hsame : ((old.withSequenceNr n).withFields fs).header.dataSetMessageType =
      old.header.dataSetMessageType := rfl
  unfold dataSetMessagePieces
  rw [hsame] at hserved ⊢
  cases htype : old.header.dataSetMessageType with
  | dataKeyFrame =>
    exact (hheader.append (rewrites_keyFrame hold hnew htype hfields hget (hserved htype))).congr
      (by simp)
  | dataDeltaFrame =>
    exact (hheader.append (isPlain_deltaFrame S old).rewrites).congr (by simp)
  | event | keepAlive | reserved => exact (hheader.append isPlain_nil.rewrites).congr (by simp)

end DataSetMessage

/-! ## Sections in front of the DataSetMessages -/

section Sections

variable {p m : NetworkMessage}

theorem rewrites_groupHeader (g : NetworkMessageGroupHeader) :
    Rewrites T p rt (groupHeaderPieces g)
      (groupHeaderPieces { g with sequenceNumber := p.groupHeader.sequenceNumber })
      (g.writerGroupIdEnabled = true → rt = false) := by
  have hgroup : Rewrites T p rt [⟨some (.writerGroupId, .none), leBytes 2 g.writerGroupId.toNat⟩]
      _ _ := rewrites_unsupported fun _ => rfl
  have hsequence := completes_dataUInt16 (p := p) .sequenceNumber rfl
  have hnumber : Rewrites T p rt
      [⟨some (.networkMessageSequenceNumber, .sequenceNumber), leBytes 2 g.sequenceNumber.toNat⟩]
      [⟨some (.networkMessageSequenceNumber, .sequenceNumber),
        leBytes 2 p.groupHeader.sequenceNumber.toNat⟩] True :=
    rewrites_item rfl (fun _ => rfl) hsequence (by rw [leBytes_length, leBytes_length])
  exact ((isPlain_plain _).rewrites.append ((Rewrites.ite fun _ => hgroup).append
    ((isPlain_plainIf _ _).rewrites.append ((isPlain_plainIf _ _).rewrites.append
      (Rewrites.ite fun _ => hnumber))))).congr (by simp [NetworkMessageOffsetType.forSubscriber])

/-- Publisher id and group header. -/
theorem rewrites_head (m : NetworkMessage) (n : UInt16)
    (hnumber : p.groupHeader.sequenceNumber = n) :
    Rewrites T p rt (headPieces m) (headPieces (m.withSequenceNumber n))
      ((m.publisherIdEnabled = true → rt = false) ∧
        (m.groupHeaderEnabled = true → m.groupHeader.writerGroupIdEnabled = true →
          rt = false)) := by
  subst hnumber
  have hid : Rewrites T p rt [⟨some (.publisherId, .none), publisherIdBytes m.publisherId⟩] _ _ :=
    rewrites_unsupported fun _ => rfl
  exact ((isPlain_flags m).rewrites.append ((Rewrites.ite fun _ => hid).append
    ((isPlain_plainIf _ _).rewrites.append
      (Rewrites.ite fun _ => rewrites_groupHeader m.groupHeader)))).congr
        (by simp [NetworkMessageOffsetType.forSubscriber])

theorem rewrites_payloadHeader (m : NetworkMessage) :
    Rewrites T p rt (payloadHeaderPieces m) (payloadHeaderPieces m) (rt = false) := by
  have hids : Rewrites T p rt [⟨some (.dataSetWriterId, .none),
      (m.payloadHeader.dataSetWriterIds.getD []).flatMap fun id => leBytes 2 id.toNat⟩] _ _ :=
    rewrites_unsupported fun _ => rfl
  exact ((isPlain_plain _).rewrites.append hids).congr
    (by simp [NetworkMessageOffsetType.forSubscriber])

theorem rewrites_extendedHeader (m : NetworkMessage) :
    Rewrites T p rt (extendedHeaderPieces S m) (extendedHeaderPieces S m)
      (m.timestampEnabled = false ∧ m.picosecondsEnabled = false) := by
  have htimestamp : Rewrites T p rt [⟨some (.timestamp, .none), leBytes 8 m.timestamp.toNat⟩] _ _ :=
    rewrites_unsupported fun _ => rfl
  have hpico : Rewrites T p rt
      [⟨some (.timestampPicoseconds, .none), leBytes 2 m.picoseconds.toNat⟩] _ _ :=
    rewrites_unsupported fun _ => rfl
  exact ((Rewrites.ite fun _ => htimestamp).append ((Rewrites.ite fun _ => hpico).append
    (isPlain_promoted S m).rewrites)).congr (by simp [NetworkMessageOffsetType.forSubscriber])

end Sections

/-! ## The whole message -/

section NetworkMessage

variable {m p : NetworkMessage} {n : UInt16} {ds : List DataSetMessage}

/-- The messages at one index. -/
theorem rewrites_messageAt (hp : p.payload.dataSetMessages = some ds)
    (hmessages : List.Forall₂ (DataSetMessage.ChangesTo T) (m.payload.dataSetMessages.getD []) ds)
    (hold : PayloadFilled (S.Writes T) m) (hnew : PayloadFilled (S.Writes T) p)
    (hserved : p.Served T) {i : Nat} {old new : DataSetMessage}
    (hi : (m.payload.dataSetMessages.getD [])[i]? = some old) (hi' : ds[i]? = some new) :
    Rewrites T p rt (dataSetMessagePieces S i old) (dataSetMessagePieces S i new) True := by
  have hds : p.payload.dataSetMessages.getD [] = ds := by rw [hp, Option.getD_some]
  have hmem : new ∈ p.payload.dataSetMessages.getD [] := hds ▸ List.mem_of_getElem? hi'
  have hget : p.message? i = some new := by rw [NetworkMessage.message?, hds, hi']
  have hchange : old.ChangesTo T new := by
    obtain ⟨hlt, rfl⟩ := List.getElem?_eq_some_iff.mp hi
    obtain ⟨hlt', rfl⟩ := List.getElem?_eq_some_iff.mp hi'
    exact hmessages.get hlt hlt'
  exact rewrites_dataSetMessage hchange (hold.messages _ (List.mem_of_getElem? hi))
    (hnew.messages _ hmem) hget (hserved _ hmem)

/-- No message changes its size, so the sizes that are written stay. -/
theorem sizesPieces_changed (hp : p = (m.withSequenceNumber n).withDataSetMessages ds)
    (hmessages : List.Forall₂ (DataSetMessage.ChangesTo T) (m.payload.dataSetMessages.getD []) ds)
    (hold : PayloadFilled (S.Writes T) m) (hnew : PayloadFilled (S.Writes T) p)
    (hserved : p.Served T) : sizesPieces S p = sizesPieces S m := by
  have hds : p.payload.dataSetMessages = some ds := hp ▸ rfl
  have hlen : ∀ i, (dataSetMessageBytes S (p.dataSetMessageAt i)).length =
      (dataSetMessageBytes S (m.dataSetMessageAt i)).length := by
    intro i
    have hsame := hmessages.length_eq
    unfold NetworkMessage.dataSetMessageAt
    rw [hds, Option.getD_some]
    cases hi : (m.payload.dataSetMessages.getD [])[i]? with
    | none =>
      have hi' : ds[i]? = none := by
        rw [List.getElem?_eq_none_iff] at hi ⊢
        omega
      rw [hi']
    | some old =>
      obtain ⟨hlt, -⟩ := List.getElem?_eq_some_iff.mp hi
      have hi' : ds[i]? = some ds[i] := List.getElem?_eq_getElem (hsame ▸ hlt)
      -- whatever is rewritten keeps its length
      have hrewrites : Rewrites T p false _ _ True :=
        rewrites_messageAt hds hmessages hold hnew hserved hi hi'
      rw [hi', Option.getD_some, Option.getD_some, dataSetMessageBytes, dataSetMessageBytes,
        ← pieceBytes_dataSetMessage S i, ← pieceBytes_dataSetMessage S i old]
      exact hrewrites.length
  have hwritten : ∀ i, writtenSize S p i = writtenSize S m i := by
    intro i
    have hsizes : p.payload.sizes = m.payload.sizes := hp ▸ rfl
    rw [writtenSize, writtenSize, hlen, hsizes]
  have henabled : p.payloadHeaderEnabled = m.payloadHeaderEnabled := hp ▸ rfl
  have hcount : p.payloadHeader.count = m.payloadHeader.count := hp ▸ rfl
  simp only [sizesPieces, hwritten, henabled, hcount]

/-- From the message as it was, the table leads to the message as it is now. -/
theorem rewrites_networkMessage (hchange : m.ChangesTo T p) (hold : m.Filled (S.Writes T))
    (hnew : p.Filled (S.Writes T)) (hserved : p.Served T) :
    Rewrites T p rt (messagePieces S m) (messagePieces S p) (m.Updatable rt) := by
  obtain ⟨n, ds, hp, hmessages⟩ := hchange
  have hds : p.payload.dataSetMessages = some ds := hp ▸ rfl
  -- what does not change
  have hhead' : headPieces p = headPieces (m.withSequenceNumber n) := hp ▸ rfl
  have henabled : p.payloadHeaderEnabled = m.payloadHeaderEnabled := hp ▸ rfl
  have hheader' : payloadHeaderPieces p = payloadHeaderPieces m := hp ▸ rfl
  have hextended' : extendedHeaderPieces S p = extendedHeaderPieces S m := hp ▸ rfl
  have hhead : Rewrites T p rt (headPieces m) (headPieces (m.withSequenceNumber n)) _ :=
    rewrites_head m n (hp ▸ rfl)
  have hheader : Rewrites T p rt (if m.payloadHeaderEnabled then payloadHeaderPieces m else []) _
      (m.payloadHeaderEnabled = true → rt = false) := Rewrites.ite fun _ => rewrites_payloadHeader m
  have hextended : Rewrites T p rt (extendedHeaderPieces S m) _ _ := rewrites_extendedHeader m
  have htail : Rewrites T p rt (tailPieces S m) (tailPieces S p) True := by
    have hloop : Rewrites T p rt (messagesPieces S m) (messagesPieces S p) True := by
      rw [messagesPieces, messagesPieces, hds, Option.getD_some]
      refine @rewrites_zipIdx T p rt DataSetMessage _ ds (dataSetMessagePieces S)
        (dataSetMessagePieces S) 0 hmessages.length_eq.symm fun i old new hi hi' => ?_
      rw [Nat.zero_add]
      exact rewrites_messageAt hds hmessages hold.payload hnew.payload hserved hi hi'
    have hsizes := sizesPieces_changed hp hmessages hold.payload hnew.payload hserved
    have hsecurity : p.securityEnabled = m.securityEnabled := hp ▸ rfl
    have hsecurityHeader : p.securityHeader = m.securityHeader := hp ▸ rfl
    have htrailer : trailerPieces p = trailerPieces m := hp ▸ rfl
    rw [tailPieces, tailPieces, hsizes, hsecurity, hsecurityHeader, htrailer]
    have hplain : IsPlain (sizesPieces S m) := isPlain_plainIf _ _
    exact ((IsPlain.ite fun _ => isPlain_securityHeader _).rewrites.append
      (hplain.rewrites.append (hloop.append
        (IsPlain.ite fun _ => isPlain_trailer m).rewrites))).congr (by simp)
  rw [messagePieces, messagePieces, hhead', henabled, hheader', hextended']
  refine (hhead.append (hheader.append (hextended.append htail))).congr ⟨fun h => ?_, fun h => ?_⟩
  · obtain ⟨⟨hid, hgroup⟩, hids, ⟨htimestamp, hpico⟩, -⟩ := h
    exact ⟨hid, hgroup, hids, htimestamp, hpico⟩
  · exact ⟨⟨h.publisherId, h.writerGroupId⟩, h.writerIds, ⟨h.timestamp, h.picoseconds⟩, trivial⟩

/-- Counters and arrays of a message that is changed in place still match. -/
theorem matchesCounters_changed (hchange : m.ChangesTo T p) (hm : m.MatchesCounters) :
    p.MatchesCounters := by
  obtain ⟨n, ds, rfl, hmessages⟩ := hchange
  refine ⟨hm.type, hm.writerIds, fun h => ?_, hm.nonce, hm.footer, ?_, hm.payload.sizes, ?_⟩
  · obtain ⟨hinit, hlength, hfields⟩ := hm.promoted h
    exact ⟨hinit, hlength, hfields⟩
  · exact hmessages.length_eq.symm.trans hm.payload.length
  · intro d hd
    have hmem : d ∈ ds := hd
    obtain ⟨i, hlt, rfl⟩ := List.getElem_of_mem hmem
    have hlt₀ : i < (m.payload.dataSetMessages.getD []).length := hmessages.length_eq ▸ hlt
    obtain ⟨n', fs, hnew, hfields⟩ := hmessages.get hlt₀ hlt
    have hold := hm.payload.messages _ (List.getElem_mem hlt₀)
    rw [List.get_eq_getElem] at hnew
    rw [hnew]
    exact {
      keyLength := fun htype hencoding =>
        hfields.length_eq.symm.trans (hold.keyLength htype hencoding)
      keyFields := fun _ _ _ => trivial
      deltaLength := hold.deltaLength
      deltaInit := hold.deltaInit
      deltaFields := fun _ _ _ => trivial }

end NetworkMessage

/-! ## The fast path -/

/-- The encoder comes to the end of the message, and the entries are right for the fields. -/
structure NetworkMessage.Publishable (T : DataTypes) (m : NetworkMessage) : Prop where
  fields : m.FieldsCounted T
  served : m.Served T
  encodes : ∃ s t : Buffer, s.Valid ∧ networkMessageEncodeBinary T m s = .done () t

section FastPath

variable {m p : NetworkMessage} {as bs : List Piece} {ok : Prop}

theorem Rewrites.update (h : Rewrites T p rt as bs ok) (hok : ok) (rest : Bytes) :
    networkMessageUpdateBufferedMessage T p (marks rt 0 as) (pieceBytes as ++ rest) =
      .done () (pieceBytes bs ++ rest) := by
  have hloop := h.done hok [] rest
  simp only [List.length_nil, List.nil_append] at hloop
  rw [networkMessageUpdateBufferedMessage, hloop]

/-- What is written for the message, whatever the buffer. -/
noncomputable def writtenBytes (T : DataTypes) (m : NetworkMessage) : Bytes :=
  pieceBytes (messagePieces (writtenSpec T) m)

theorem NetworkMessage.Publishable.filled (hm : m.Publishable T) (hW : WireTypes T)
    (hcounters : m.MatchesCounters) : m.Filled ((writtenSpec T).Writes T) := by
  obtain ⟨s, t, hs, hrun⟩ := hm.encodes
  exact networkMessage_filled hW hcounters hm.fields hs hrun

theorem NetworkMessage.Publishable.encodable (hm : m.Publishable T) (hW : WireTypes T)
    (hcounters : m.MatchesCounters) : m.Encodable (writtenSpec T) := by
  obtain ⟨s, t, hs, hrun⟩ := hm.encodes
  exact networkMessage_encodable hW hcounters hs hrun

/-- With enough room, all of them are written. -/
theorem NetworkMessage.Publishable.completes (hm : m.Publishable T) (hW : WireTypes T)
    (hcounters : m.MatchesCounters) :
    Completes (writtenBytes T m) (networkMessageEncodeBinary T m) :=
  completes_networkMessage hW.toStandardTypes (hm.filled hW hcounters) (hm.encodable hW hcounters)

/-- Its size, and the entries of its table. -/
theorem NetworkMessage.Publishable.calcSize (hm : m.Publishable T) (hW : WireTypes T)
    (hcounters : m.MatchesCounters) (rt : Bool) :
    networkMessageCalcSizeBinary T m (some ⟨[], rt⟩) = some ((writtenBytes T m).length,
      some ⟨marks rt 0 (messagePieces (writtenSpec T) m), rt⟩) := by
  have hmeets : m.Filled ((writtenSpec T).Meets T) :=
    (hm.filled hW hcounters).imp fun _ _ h => h.meets
  rw [networkMessageCalcSizeBinary_eq hW.toStandardTypes hmeets
    (hm.encodable hW hcounters).writerIds]
  rfl

/-- A message that can be encoded is, with enough room. -/
theorem exists_encode (hT : StandardTypes T) (hm : m.Filled (S.Writes T))
    (hencodable : m.Encodable S) :
    ∃ s t : Buffer, s.Valid ∧ networkMessageEncodeBinary T m s = .done () t := by
  have hroom : (pieceBytes (messagePieces S m)).length ≤
      (⟨List.replicate (pieceBytes (messagePieces S m)).length 0, 0⟩ : Buffer).room := by
    show _ ≤ (List.replicate _ _).length - 0
    rw [List.length_replicate]
    exact Nat.le_refl _
  exact ⟨_, _, Nat.zero_le _,
    completes_networkMessage hT hm hencodable _ (Nat.zero_le _) hroom⟩

/-- The step from one publishable message to the next. -/
theorem rewrites_published (hW : WireTypes T) (hcounters : m.MatchesCounters)
    (hm : m.Publishable T) (hchange : m.ChangesTo T p) (hp : p.Publishable T) :
    Rewrites T p rt (messagePieces (writtenSpec T) m) (messagePieces (writtenSpec T) p)
      (m.Updatable rt) :=
  rewrites_networkMessage hchange (hm.filled hW hcounters)
    (hp.filled hW (matchesCounters_changed hchange hcounters)) hp.served

end FastPath

/-- The message with a Byte, and a sequence number of the group. -/
def numberedByteMessage (n : UInt16) (b : UInt8) : NetworkMessage :=
  { byteMessage with
    groupHeaderEnabled := true
    groupHeader := { (default : NetworkMessageGroupHeader) with
      sequenceNumberEnabled := true, sequenceNumber := n }
    payload := ⟨none, some [{ (default : DataSetMessage) with
      fieldCount := 1
      dataSetFields := some [{ byteField with
        value := ⟨some (DataTypes.builtin .byte), .byte b, none⟩ }] }]⟩ }

section

variable (n n' : UInt16) (b b' : UInt8)

theorem numberedByteMessage_filled :
    (numberedByteMessage n b).Filled (IsPlainField builtinTypes) where
  type := rfl
  writerIds := nofun
  promoted := nofun
  security := nofun
  payload := ⟨rfl, nofun, fun d hd => by
    rw [List.mem_singleton.mp hd]
    refine ⟨fun _ _ => rfl, fun _ f hf => ?_, nofun, nofun, nofun⟩
    rw [List.mem_singleton.mp hf]
    exact ⟨.value rfl rfl rfl fun _ => rfl, rfl⟩⟩

theorem numberedByteMessage_encodable :
    (numberedByteMessage n b).Encodable (leafSpec builtinTypes) where
  writerIds := nofun
  publisherId _ := rfl
  messages d hd := by
    rw [List.mem_singleton.mp hd]
    exact ⟨nofun, fun f hf => by
      rw [List.mem_singleton.mp hf]
      exact rfl⟩
  signature := nofun

theorem numberedByteMessage_publishable :
    (numberedByteMessage n b).Publishable builtinTypes where
  fields := {
    promotedEncodable := nofun
    promotedCounted := nofun
    frameCounted d hd f hf := by
      obtain rfl := List.mem_singleton.mp hd
      obtain rfl := List.mem_singleton.mp hf
      exact ⟨rfl, rfl⟩ }
  served d hd _ := by
    obtain rfl := List.mem_singleton.mp hd
    refine ⟨fun _ f hf => ?_, nofun⟩
    obtain rfl := List.mem_singleton.mp hf
    rfl
  encodes :=
    have hwrites := (numberedByteMessage_filled n b).imp fun _ _ h =>
      have hread := readsBack_of_isPlainField standardTypes_builtinTypes h
      (⟨hread.meets, hread.ok⟩ : (leafSpec builtinTypes).Writes builtinTypes _ _)
    exists_encode standardTypes_builtinTypes hwrites (numberedByteMessage_encodable n b)

theorem numberedByteMessage_changesTo :
    (numberedByteMessage n b).ChangesTo builtinTypes (numberedByteMessage n' b') := by
  have hfield : DataValueOf.ChangesTo builtinTypes .variant
      { byteField with value := ⟨some (DataTypes.builtin .byte), .byte b, none⟩ }
      { byteField with value := ⟨some (DataTypes.builtin .byte), .byte b', none⟩ } :=
    ⟨rfl, fun _ => ⟨⟨nofun, nofun⟩, ⟨nofun, nofun⟩⟩, rfl⟩
  exact ⟨n', _, rfl, .cons ⟨0, _, rfl, .cons hfield .nil⟩ .nil⟩

end

/-- The table of all these messages. -/
def numberedByteTable : NetworkMessageOffsetBuffer :=
  ⟨[⟨.networkMessageSequenceNumber, 3, .sequenceNumber⟩,
    ⟨.payloadVariant, 8, .fieldData 0 0 (some (DataTypes.builtin .byte))⟩], false⟩

/-- The first message, with a byte behind it. -/
def numberedByteBuffer : Bytes := [0x31, 7, 8, 1, 0, 0, 1, 0, 3, 42, 0xFF]

/-- One cycle brings the message, as it is now, into the buffer. -/
def publishCycle (T : DataTypes) (offsets : List NetworkMessageOffset) (p : NetworkMessage)
    (buffer : Bytes) : Option Bytes :=
  match networkMessageUpdateBufferedMessage T p offsets buffer with
  | .done _ buffer' => some buffer'
  | _ => none

/-- The message that is published after this one. -/
structure NetworkMessage.NextTo (T : DataTypes) (old new : NetworkMessage) : Prop where
  changes : old.ChangesTo T new
  publishable : new.Publishable T

section Runs

variable {m p : NetworkMessage} {ms : List NetworkMessage}

/-- Which entries are supported does not change. -/
theorem updatable_changed (hchange : m.ChangesTo T p) (hok : m.Updatable rt) :
    p.Updatable rt := by
  obtain ⟨n, ds, rfl, -⟩ := hchange
  exact ⟨hok.publisherId, hok.writerGroupId, hok.writerIds, hok.timestamp, hok.picoseconds⟩

/-- The state of the publisher between two cycles: the buffer begins with the last message, and
the table is that of the last message, too. -/
structure Published (T : DataTypes) (rt : Bool) (offsets : List NetworkMessageOffset)
    (rest : Bytes) (m : NetworkMessage) (buffer : Bytes) : Prop where
  counters : m.MatchesCounters
  publishable : m.Publishable T
  updatable : m.Updatable rt
  table : marks rt 0 (messagePieces (writtenSpec T) m) = offsets
  buffer : buffer = writtenBytes T m ++ rest

theorem Published.cycle {offsets : List NetworkMessageOffset} {rest buffer : Bytes}
    (h : Published T rt offsets rest m buffer) (hW : WireTypes T) (hnext : m.NextTo T p) :
    ∃ buffer', publishCycle T offsets p buffer = some buffer' ∧
      Published T rt offsets rest p buffer' ∧ buffer'.length = buffer.length := by
  have hrewrites : Rewrites T p rt _ _ (m.Updatable rt) :=
    rewrites_published hW h.counters h.publishable hnext.changes hnext.publishable
  have hrun := hrewrites.update h.updatable rest
  have hlength : (writtenBytes T p).length = (writtenBytes T m).length := hrewrites.length
  rw [h.table] at hrun
  refine ⟨writtenBytes T p ++ rest, ?_, ⟨?_, hnext.publishable, ?_, ?_, rfl⟩, ?_⟩
  · rw [publishCycle, h.buffer, writtenBytes, hrun]
    rfl
  · exact matchesCounters_changed hnext.changes h.counters
  · exact updatable_changed hnext.changes h.updatable
  · rw [hrewrites.table, h.table]
  · rw [h.buffer, List.length_append, List.length_append, hlength]

end Runs

end OpenPubSub
