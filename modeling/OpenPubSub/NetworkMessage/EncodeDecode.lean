import OpenPubSub.Lib.Completes
import OpenPubSub.NetworkMessage.Clear
import OpenPubSub.NetworkMessage.RoundTrip

/-!
# Encoding and then decoding

A buffer of the calculated size is enough for a message whose fields can all be encoded, and
what is written there is decoded to the same message.

- `completes_networkMessage`: with enough room the encoder writes all pieces, whether it looks
  at the status or not.
- `IsPlainField`: fields that are empty or of plain types.
- **`networkMessage_roundTrip`**: encoder, decoder and size calculation agree.
-/

namespace OpenPubSub

open Routine Writer

variable {T : DataTypes} {S : FieldSpec} {m : NetworkMessage}

/-! ## Complete messages -/

/-- A field the specification describes, and that can be encoded. -/
structure FieldSpec.Writes (S : FieldSpec) (T : DataTypes) (encoding : FieldEncoding)
    (f : DataValue) : Prop where
  meets : S.Meets T encoding f
  ok : S.ok encoding f

theorem completes_payloadHeader (htype : m.networkMessageType = .dataSet) {ids : List UInt16}
    (hids : m.payloadHeader.dataSetWriterIds = some ids)
    (hlen : ids.length = m.payloadHeader.count.toNat) :
    Completes (pieceBytes (payloadHeaderPieces m)) (payloadHeaderEncodeBinary m) := by
  have hcount : Completes [m.payloadHeader.count] (uaByteEncodeBinary m.payloadHeader.count) :=
    (commits_uaByte _).completes trivial
  have hwords : Commits (ids.flatMap fun id => leBytes 2 id.toNat) (∀ id ∈ ids, True)
      (each uaUInt16EncodeBinary ids) := commits_each fun id _ => commits_uaUInt16 id
  rw [payloadHeaderEncodeBinary_eq htype hids hlen]
  exact (hcount.dropStatus.bind (hwords.completes fun _ _ => trivial)).congr
    (by simp [payloadHeaderPieces, hids])

theorem completes_promotedFields (hm : PromotedFilled (S.Writes T) m) :
    Completes (leBytes 2 (promotedSize S m).toNat ++
        m.promoted.flatMap fun v => S.bytes .variant (fieldOfVariant v))
      (promotedFieldsEncodeBinary T m) := by
  have hmeets : PromotedFilled (S.Meets T) m :=
    ⟨hm.init, hm.length, fun v hv => (hm.fields v hv).meets⟩
  have hsize :
    Completes (leBytes 2 (promotedSize S m).toNat) (uaUInt16EncodeBinary (promotedSize S m)) :=
    (commits_uaUInt16 _).completes trivial
  have hloop : Completes (m.promoted.flatMap fun v => S.bytes .variant (fieldOfVariant v))
      (accumFrom (element m.promoted (uaVariantEncodeBinary T)) 0 m.promoted.length) := by
    have hloop := completes_accumFrom (fun v hv =>
      have hfield := hm.fields v hv
      hfield.meets.commits.completes hfield.ok) [] []
    rwa [List.append_nil] at hloop
  rw [promotedFieldsEncodeBinary, promotedFieldsCalcSize_promoted hmeets, hm.init, element_map,
    ← hm.length]
  exact (hsize.accum hloop).dropStatus

theorem completes_extendedHeader
    (hm : m.promotedFieldsEnabled = true → PromotedFilled (S.Writes T) m) :
    Completes (pieceBytes (extendedHeaderPieces S m)) (extendedHeaderEncodeBinary T m) := by
  have htimestamp : Completes (leBytes 8 m.timestamp.toNat)
      (dropStatus (uaUInt64EncodeBinary m.timestamp)) :=
    ((commits_uaUInt64 _).completes trivial).dropStatus
  have hpico : Completes (leBytes 2 m.picoseconds.toNat)
      (dropStatus (uaUInt16EncodeBinary m.picoseconds)) :=
    ((commits_uaUInt16 _).completes trivial).dropStatus
  have hfields : ∀ vs : List Variant,
      pieceBytes (vs.map fun v => .plain (S.bytes .variant (fieldOfVariant v))) =
        vs.flatMap fun v => S.bytes .variant (fieldOfVariant v) := fun vs => by
    rw [pieceBytes, List.flatMap_map]
  refine ((Completes.ite fun _ => htimestamp).bind ((Completes.ite fun _ => hpico).bind
    (Completes.ite fun h => completes_promotedFields (hm h)))).congr ?_
  simp only [extendedHeaderPieces, pieceBytes_append, pieceBytes_ite, pieceBytes_cons,
    pieceBytes_nil, List.append_nil, hfields]

/-- With enough room the encoder writes all pieces of a message. -/
theorem completes_networkMessage (hT : StandardTypes T) (hm : m.Filled (S.Writes T))
    (hencodable : m.Encodable S) :
    Completes (pieceBytes (messagePieces S m)) (networkMessageEncodeBinary T m) := by
  have hmeets : m.Filled (S.Meets T) := hm.imp fun _ _ h => h.meets
  have hhead := (lays_head hT m).commits.completes hencodable.publisherId
  have htail := (lays_tail hT hmeets).commits.completes
    ⟨hencodable.messages, hencodable.signature⟩
  have hheader :
    Completes (if m.payloadHeaderEnabled then pieceBytes (payloadHeaderPieces m) else [])
      (encodeIf m.payloadHeaderEnabled (payloadHeaderEncodeBinary m)) := Completes.ite fun h => by
    obtain ⟨ids, hids⟩ := Option.isSome_iff_exists.mp (hencodable.writerIds h)
    exact completes_payloadHeader hm.type hids (hm.writerIds h ids hids)
  rw [networkMessageEncodeBinary_eq]
  refine (hhead.bind (hheader.bind ((completes_extendedHeader hm.promoted).bind htail))).congr ?_
  simp only [messagePieces, pieceBytes_append, pieceBytes_ite]

/-! ## Plain fields -/

/-- The field holds a Variant of a plain type that can be encoded. -/
def IsPlainField (T : DataTypes) (encoding : FieldEncoding) (f : DataValue) : Prop :=
  match encoding with
  | .variant => Variant.IsPlain T f.value ∧ (variantPlan T f.value).ok = true
  | .dataValue => f.IsPlain T ∧ (f.hasValue = true → (variantPlan T f.value).ok = true)
  | .rawData | .reserved => True

theorem readsBack_of_isPlainField (hT : StandardTypes T) {encoding : FieldEncoding} {f : DataValue}
    (h : IsPlainField T encoding f) : (leafSpec T).ReadsBack T encoding f := by
  cases encoding with
  | variant =>
    exact ⟨leafSpec_meets hT h.1.isLeaf, h.2, fun _ _ => readsAt_uaVariant hT h.1 h.2, nofun⟩
  | dataValue =>
    exact ⟨leafSpec_meets hT h.1.isLeaf, h.2, nofun, fun _ _ => readsAt_uaDataValue hT h.1 h.2⟩
  | rawData => exact ⟨leafSpec_meets hT trivial, trivial, nofun, nofun⟩
  | reserved => exact ⟨leafSpec_meets hT trivial, trivial, nofun, nofun⟩

/-! ## The round trip -/

variable (S m) in
/-- The encoded promoted fields have a size of 16 bits. -/
def NetworkMessage.PromotedFit : Prop :=
  m.promotedFieldsEnabled = true →
    (m.promoted.flatMap fun v => S.bytes .variant (fieldOfVariant v)).length ≤ 65535

/-- Where a message stands, a call of the decoder fills the structure with it. -/
theorem networkMessageDecodeBinary_reads (hT : StandardTypes T) (hm : m.Filled (S.ReadsBack T))
    (hencodable : m.Encodable S) (hcanonical : m.Canonical) (hpromoted : m.PromotedFit S)
    {src : Bytes} {call : DecodeCall} (hat : At src call.offset (pieceBytes (messagePieces S m))) :
    networkMessageDecodeBinary src T call = .done () { call with
      offset := call.offset + (pieceBytes (messagePieces S m)).length, dst := m.received S } := by
  have hrun := decodesTo_networkMessage hT hm hencodable hcanonical hpromoted call.dst
    call.offset hat
  have hcall : (⟨call.offset, call.dst⟩ : Decoding NetworkMessage) = call.toDecoding := rfl
  rw [hcall] at hrun
  rw [networkMessageDecodeBinary, hrun]

/-- The sizes are left to the encoder, which has enough bits for them. -/
def NetworkMessage.LeavesSizes (S : FieldSpec) (m : NetworkMessage) : Prop :=
  (∀ size ∈ m.payload.sizes.getD [], size = 0) ∧
    ∀ d ∈ m.payload.dataSetMessages.getD [], (dataSetMessageBytes S d).length ≤ 65535

/-- What is written for the sizes is true. -/
theorem received_sizes {P : FieldEncoding → DataValue → Prop} (hm : PayloadFilled P m)
    (hsizes : m.LeavesSizes S) {sizes : List UInt16}
    (h : (m.received S).payload.sizes = some sizes) :
    sizes.map UInt16.toNat =
      (m.payload.dataSetMessages.getD []).map fun d => (dataSetMessageBytes S d).length := by
  unfold NetworkMessage.received at h
  split at h
  case isFalse => cases h
  case isTrue henabled =>
    rw [Bool.and_eq_true] at henabled
    have hlen : (m.payload.dataSetMessages.getD []).length = m.payloadHeader.count.toNat := by
      rw [hm.length, NetworkMessage.dataSetMessageCount, if_pos henabled.1]
    obtain rfl := Option.some.inj h
    rw [List.map_map]
    refine List.ext_getElem (by simp [hlen]) fun i hi hi' => ?_
    rw [List.length_map] at hi'
    have hget : m.dataSetMessageAt i = (m.payload.dataSetMessages.getD [])[i] := by
      rw [NetworkMessage.dataSetMessageAt, List.getElem?_eq_getElem hi', Option.getD_some]
    have hle := hsizes.2 _ (List.getElem_mem hi')
    -- the entry is zero, or there is none, so the size is calculated, and 16 bits are enough for it
    have hcalculated : writtenSize S m i =
        UInt16.ofNat (dataSetMessageBytes S (m.dataSetMessageAt i)).length := by
      unfold writtenSize
      cases hs : m.payload.sizes with
      | none => rfl
      | some sizes =>
        have hzero : sizes[i]?.getD 0 = 0 := by
          cases hx : sizes[i]? with
          | none => rfl
          | some size =>
            exact hsizes.1 size (by rw [hs]; exact List.mem_of_getElem? hx)
        exact if_neg (not_not_intro hzero)
    simp only [List.getElem_map, List.getElem_range, Function.comp_apply, hcalculated, hget]
    rw [UInt16.toNat_ofNat', Nat.mod_eq_of_lt (by omega)]

/-- A message comes through: the calculated size is the number of bytes that the encoder
writes, and wherever they stand the decoder reads the same message and stops behind it. -/
theorem networkMessage_roundTrip (hT : StandardTypes T) (hm : m.Filled (IsPlainField T))
    (hencodable : m.Encodable (leafSpec T)) (hcanonical : m.Canonical)
    (hpromoted : m.PromotedFit (leafSpec T)) (hsizes : m.LeavesSizes (leafSpec T)) :
    ∃ bs : Bytes, networkMessageCalcSizeBinary T m none = some (bs.length, none) ∧
      (∀ s : Buffer, s.Valid → bs.length ≤ s.room →
        networkMessageEncodeBinary T m s = .done () (s.write bs)) ∧
      ∀ (src : Bytes) (call : DecodeCall), At src call.offset bs →
        ∃ m' : NetworkMessage,
          networkMessageDecodeBinary src T call =
            .done () { call with offset := call.offset + bs.length, dst := m' } ∧
          m'.comparable = m.comparable ∧
          ∀ sizes, m'.payload.sizes = some sizes → sizes.map UInt16.toNat =
            (m.payload.dataSetMessages.getD []).map fun d =>
              (dataSetMessageBytes (leafSpec T) d).length := by
  have hback : m.Filled ((leafSpec T).ReadsBack T) :=
    hm.imp fun _ _ => readsBack_of_isPlainField hT
  have hmeets : m.Filled ((leafSpec T).Meets T) := hback.imp fun _ _ h => h.meets
  have hwrites : m.Filled ((leafSpec T).Writes T) := hback.imp fun _ _ h => ⟨h.meets, h.ok⟩
  refine ⟨pieceBytes (messagePieces (leafSpec T) m),
    networkMessageCalcSizeBinary_eq hT hmeets hencodable.writerIds none,
    completes_networkMessage hT hwrites hencodable, fun src call hat => ?_⟩
  exact ⟨m.received (leafSpec T),
    networkMessageDecodeBinary_reads hT hback hencodable hcanonical hpromoted hat,
    NetworkMessage.comparable_received _ m, fun sizes => received_sizes hm.payload hsizes⟩

/-- The scalar Byte 42. -/
def byteField : DataValue :=
  { (default : DataValue) with
    value := ⟨some (DataTypes.builtin .byte), .byte 42, none⟩, hasValue := true }

/-- A key frame with one field, from publisher 7. -/
def byteMessage : NetworkMessage :=
  { (default : NetworkMessage) with
    version := 1
    publisherIdEnabled := true
    publisherId := .byte 7
    payload := ⟨none, some [{ (default : DataSetMessage) with
      fieldCount := 1, dataSetFields := some [byteField] }]⟩ }

theorem byteField_isPlain : IsPlainField builtinTypes .variant byteField :=
  ⟨.value rfl rfl rfl fun _ => rfl, rfl⟩

theorem byteMessage_filled : byteMessage.Filled (IsPlainField builtinTypes) where
  type := rfl
  writerIds := nofun
  promoted := nofun
  security := nofun
  payload := ⟨rfl, nofun, fun d hd => by
    rw [List.mem_singleton.mp hd]
    refine ⟨fun _ _ => rfl, fun _ f hf => ?_, nofun, nofun, nofun⟩
    rw [List.mem_singleton.mp hf]
    exact byteField_isPlain⟩

theorem byteMessage_encodable : byteMessage.Encodable (leafSpec builtinTypes) where
  writerIds := nofun
  publisherId _ := rfl
  messages d hd := by
    rw [List.mem_singleton.mp hd]
    refine ⟨nofun, fun f hf => ?_⟩
    rw [List.mem_singleton.mp hf]
    exact byteField_isPlain.2
  signature := nofun

theorem byteMessage_canonical : byteMessage.Canonical where
  version := by decide
  noMessageId := ⟨rfl, rfl⟩
  publisherId := nofun
  dataSetClassId _ := rfl
  groupHeader _ := rfl
  groupHeaderMembers := ⟨fun _ => rfl, fun _ => rfl, fun _ => rfl, fun _ => rfl⟩
  payloadHeader _ := rfl
  timestamp _ := rfl
  picoseconds _ := rfl
  promotedFields _ := ⟨rfl, rfl⟩
  securityHeader _ := rfl
  securityFooterSize _ := rfl
  securityFooter _ := rfl
  signature _ := rfl
  messages d hd := by
    rw [List.mem_singleton.mp hd]
    refine ⟨⟨fun _ => rfl, fun _ => rfl, fun _ => rfl, fun _ => rfl, fun _ => rfl, fun _ => rfl⟩,
      rfl, rfl, fun _ => rfl, fun _ f hf => ?_, fun h => absurd rfl h, nofun, fun _ => rfl, nofun⟩
    rw [List.mem_singleton.mp hf]
    exact fun _ => rfl

theorem byteMessage_roundTrip :
    ∃ (bs : Bytes) (m' : NetworkMessage),
      networkMessageCalcSizeBinary builtinTypes byteMessage none = some (bs.length, none) ∧
      networkMessageDecodeBinary bs builtinTypes ⟨⟨0, default⟩, []⟩ =
        .done () ⟨⟨0 + bs.length, m'⟩, []⟩ ∧
      m'.comparable = byteMessage.comparable := by
  obtain ⟨bs, hsize, -, hread⟩ := networkMessage_roundTrip standardTypes_builtinTypes
    byteMessage_filled byteMessage_encodable byteMessage_canonical nofun
    ⟨nofun, fun d hd => by
      rw [List.mem_singleton.mp hd]
      decide⟩
  obtain ⟨m', hrun, hsame, -⟩ := hread bs ⟨⟨0, default⟩, []⟩ (List.prefix_refl bs)
  exact ⟨bs, m', hsize, hrun, hsame⟩

end OpenPubSub
