import OpenPubSub.NetworkMessage.EncodeDecode
import OpenPubSub.NetworkMessage.OffsetTable
import OpenPubSub.Types.WireRoundTrip

/-!
# Messages with structured fields

A field may hold whatever the binary format can express: structures, unions and arrays of
them, nested Variants and DataValues, ExtensionObjects. The message comes through all the same.

- `FieldSpec.OnWire`: the bytes of the specification stand for the field, the size calculation
  counts them, and the field arrives as it is.
- `FieldSpec.OnWire.readsBack`: all that the results about messages ask of a field.
- **`structuredMessage_roundTrip`**: encoder, decoder and size calculation agree on messages
  with such fields.
-/

namespace OpenPubSub

open Routine Writer

variable {T : DataTypes} {S : FieldSpec} {m : NetworkMessage} {encoding : FieldEncoding}
  {f : DataValue}

/-! ## Fields -/

/-- The bytes of the specification stand for the field. -/
def FieldSpec.Stands (S : FieldSpec) (T : DataTypes) (encoding : FieldEncoding) (f : DataValue) :
    Prop :=
  match encoding with
  | .variant =>
    Wire T 0 (.object .variant (DataTypes.builtin .variant) (.variant f.value))
      (S.bytes encoding f)
  | .dataValue =>
    Wire T 0 (.object .dataValue (DataTypes.builtin .dataValue) (.dataValue f))
      (S.bytes encoding f)
  | .rawData | .reserved => S.bytes encoding f = []

/-- What arrives is the field, up to dimensions of length 0. -/
def DataValueOf.ArrivesWhole (T : DataTypes) (encoding : FieldEncoding) (f : DataValue) : Prop :=
  match encoding with
  | .variant => variantArrives T f.value = f.value.trimmed
  | .dataValue => dataValueArrives T f = f.trimmed
  | .rawData | .reserved => True

/-- The field is sent in the binary format, and comes through. -/
structure FieldSpec.OnWire (S : FieldSpec) (T : DataTypes) (encoding : FieldEncoding)
    (f : DataValue) : Prop where
  ok : S.ok encoding f
  stands : S.Stands T encoding f
  counted : FieldCounted T encoding f
  whole : f.ArrivesWhole T encoding

/-- The encoder writes the bytes, with the exchange of buffers around it. -/
theorem FieldSpec.Stands.completes (hT : StandardTypes T) (h : S.Stands T encoding f) :
    Completes (S.bytes encoding f) (fieldEncodeBinary T encoding f) := by
  cases encoding with
  | variant =>
    have hwire : Completes (S.bytes .variant f) (variantEncodeBinary T 0 f.value) :=
      Wire.completes hT h (Nat.le_refl 0)
    exact hwire.goBack
  | dataValue =>
    have hwire : Completes (S.bytes .dataValue f) (dataValueEncodeBinary T 0 f) :=
      Wire.completes hT h (Nat.le_refl 0)
    exact hwire.goBack
  | rawData =>
    have hempty : S.bytes .rawData f = [] := h
    rw [hempty]
    exact completes_pure
  | reserved =>
    have hempty : S.bytes .reserved f = [] := h
    rw [hempty]
    exact completes_pure

/-- One success is enough for the encoder to be known, and its calculated size with it. -/
theorem FieldSpec.OnWire.meets (hW : WireTypes T) (h : S.OnWire T encoding f) :
    S.Meets T encoding f := by
  obtain ⟨hcommits, hcounts⟩ :=
    (counted_field hW encoding f).of_completes (h.stands.completes hW.toStandardTypes)
  obtain ⟨size, hsize⟩ := Option.isSome_iff_exists.mp h.counted.calculated
  have hlen := hcounts size hsize
  have hids := h.counted.ids
  obtain rfl : size = (S.bytes encoding f).length := by omega
  exact ⟨hcommits.congr rfl (iff_of_true trivial h.ok), hsize⟩

/-- A Variant on the wire is read where it stands. -/
theorem readsAt_wireVariant (hT : StandardTypes T) (hcustom : T.customArrays = 0) {v : Variant}
    {bs src : Bytes}
    (h : Wire T 0 (.object .variant (DataTypes.builtin .variant) (.variant v)) bs) :
    ReadsAt src bs (variantArrives T v) (uaVariantDecodeBinary src T) := by
  intro p hat
  -- the fuel of a message is enough for its bytes and 101 levels
  have hlen : bs.length ≤ src.length := by
    have hle : bs.length ≤ (src.drop p).length := List.IsPrefix.length_le hat
    rw [List.length_drop] at hle
    omega
  have hread : Reads src 0 bs (Value.arrives T (.variant v))
      (decodeBinaryJumpTable src T (decodeFuel src + 1) .variant (DataTypes.builtin .variant)) :=
    h.readsBack hT (by unfold decodeFuel encodingMaxRecursion; omega)
  have hvariant : Reads src 0 bs (variantArrives T v)
      (variantDecodeBinary src T (decodeBinaryJumpTable src T (decodeFuel src))) :=
    .of_map (fun _ _ h => Value.variant.inj h) hread
  rw [uaVariantDecodeBinary, DataTypes.withoutCustomTypes_eq hcustom]
  exact hvariant.readsAt p hat

theorem readsAt_wireDataValue (hT : StandardTypes T) (hcustom : T.customArrays = 0)
    {d : DataValue} {bs src : Bytes}
    (h : Wire T 0 (.object .dataValue (DataTypes.builtin .dataValue) (.dataValue d)) bs) :
    ReadsAt src bs (dataValueArrives T d) (uaDataValueDecodeBinary src T) := by
  intro p hat
  have hlen : bs.length ≤ src.length := by
    have hle : bs.length ≤ (src.drop p).length := List.IsPrefix.length_le hat
    rw [List.length_drop] at hle
    omega
  have hread : Reads src 0 bs (Value.arrives T (.dataValue d))
      (decodeBinaryJumpTable src T (decodeFuel src + 1) .dataValue
        (DataTypes.builtin .dataValue)) :=
    h.readsBack hT (by unfold decodeFuel encodingMaxRecursion; omega)
  have hdataValue : Reads src 0 bs (dataValueArrives T d)
      (dataValueDecodeBinary src T (decodeBinaryJumpTable src T (decodeFuel src))) :=
    .of_map (fun _ _ h => Value.dataValue.inj h) hread
  rw [uaDataValueDecodeBinary, DataTypes.withoutCustomTypes_eq hcustom]
  exact hdataValue.readsAt p hat

/-- Fields on the wire have all that a round trip of messages takes. -/
theorem FieldSpec.OnWire.readsBack (hW : WireTypes T) (hcustom : T.customArrays = 0)
    (h : S.OnWire T encoding f) : S.ReadsBack T encoding f where
  meets := h.meets hW
  ok := h.ok
  variant := by
    rintro rfl src
    have hread : ReadsAt src (S.bytes .variant f) _ (uaVariantDecodeBinary src T) :=
      readsAt_wireVariant hW.toStandardTypes hcustom h.stands
    have hwhole : variantArrives T f.value = f.value.trimmed := h.whole
    rwa [hwhole] at hread
  dataValue := by
    rintro rfl src
    have hread : ReadsAt src (S.bytes .dataValue f) _ (uaDataValueDecodeBinary src T) :=
      readsAt_wireDataValue hW.toStandardTypes hcustom h.stands
    have hwhole : dataValueArrives T f = f.trimmed := h.whole
    rwa [hwhole] at hread

/-! ## The round trip -/

/-- A message with structured fields comes through, where all types are in `UA_TYPES`: no others
are known to the decoder of a network message. The calculated size is the number of bytes
that the encoder writes, and wherever they stand the decoder reads the same message and stops
behind them. -/
theorem structuredMessage_roundTrip (hW : WireTypes T) (hcustom : T.customArrays = 0)
    (hm : m.Filled (S.OnWire T)) (hencodable : m.Encodable S) (hcanonical : m.Canonical)
    (hpromoted : m.PromotedFit S) (hsizes : m.LeavesSizes S) :
    ∃ bs : Bytes, networkMessageCalcSizeBinary T m none = some (bs.length, none) ∧
      (∀ s : Buffer, s.Valid → bs.length ≤ s.room →
        networkMessageEncodeBinary T m s = .done () (s.write bs)) ∧
      ∀ (src : Bytes) (call : DecodeCall), At src call.offset bs →
        ∃ m' : NetworkMessage,
          networkMessageDecodeBinary src T call =
            .done () { call with offset := call.offset + bs.length, dst := m' } ∧
          m'.comparable = m.comparable ∧
          ∀ sizes, m'.payload.sizes = some sizes → sizes.map UInt16.toNat =
            (m.payload.dataSetMessages.getD []).map fun d => (dataSetMessageBytes S d).length := by
  have hT := hW.toStandardTypes
  have hback : m.Filled (S.ReadsBack T) := hm.imp fun _ _ h => h.readsBack hW hcustom
  have hmeets : m.Filled (S.Meets T) := hback.imp fun _ _ h => h.meets
  have hwrites : m.Filled (S.Writes T) := hback.imp fun _ _ h => ⟨h.meets, h.ok⟩
  refine ⟨pieceBytes (messagePieces S m),
    networkMessageCalcSizeBinary_eq hT hmeets hencodable.writerIds none,
    completes_networkMessage hT hwrites hencodable, fun src call hat => ?_⟩
  have hread := networkMessageDecodeBinary_reads hT hback hencodable hcanonical hpromoted hat
  exact ⟨m.received S, hread,
    NetworkMessage.comparable_received _ m, fun sizes => received_sizes hm.payload hsizes⟩

/-! ## A structure in a message -/

/-- A reading, and nothing else. -/
def readingField : DataValue :=
  { (default : DataValue) with value := readingVariant, hasValue := true }

/-- The bytes of a reading. -/
def readingSpec : FieldSpec where
  bytes _ _ := readingBytes
  ok _ _ := True

def readingMessage : NetworkMessage :=
  { byteMessage with
    payload := ⟨none, some [{ (default : DataSetMessage) with
      fieldCount := 1, dataSetFields := some [readingField] }]⟩ }

theorem readingField_onWire : readingSpec.OnWire readingTypes .variant readingField where
  ok := trivial
  stands := wire_readingVariant
  counted := ⟨rfl, rfl⟩
  whole := rfl

theorem readingMessage_roundTrip :
    ∃ (bs : Bytes) (m' : NetworkMessage),
      networkMessageCalcSizeBinary readingTypes readingMessage none = some (bs.length, none) ∧
      networkMessageDecodeBinary bs readingTypes ⟨⟨0, default⟩, []⟩ =
        .done () ⟨⟨0 + bs.length, m'⟩, []⟩ ∧
      m'.comparable = readingMessage.comparable := by
  have hm : readingMessage.Filled (readingSpec.OnWire readingTypes) := {
    type := rfl
    writerIds := nofun
    promoted := nofun
    security := nofun
    payload := ⟨rfl, nofun, fun d hd => by
      rw [List.mem_singleton.mp hd]
      refine ⟨fun _ _ => rfl, fun _ f hf => ?_, nofun, nofun, nofun⟩
      rw [List.mem_singleton.mp hf]
      exact readingField_onWire⟩ }
  have hencodable : readingMessage.Encodable readingSpec := {
    writerIds := nofun
    publisherId _ := rfl
    messages d hd := by
      rw [List.mem_singleton.mp hd]
      exact ⟨nofun, fun _ _ => trivial⟩
    signature := nofun }
  -- but for the fields, it is the message with a byte
  have hcanonical : readingMessage.Canonical := { byteMessage_canonical with
    messages d hd := by
      rw [List.mem_singleton.mp hd]
      refine ⟨⟨fun _ => rfl, fun _ => rfl, fun _ => rfl, fun _ => rfl, fun _ => rfl, fun _ => rfl⟩,
        rfl, rfl, fun _ => rfl, fun _ f hf => ?_, fun h => absurd rfl h, nofun, fun _ => rfl, nofun⟩
      rw [List.mem_singleton.mp hf]
      exact fun _ => rfl }
  obtain ⟨bs, hsize, -, hread⟩ := structuredMessage_roundTrip wireTypes_readingTypes rfl hm
    hencodable hcanonical nofun ⟨nofun, fun d hd => by
      rw [List.mem_singleton.mp hd]
      decide⟩
  obtain ⟨m', hrun, hsame, -⟩ := hread bs ⟨⟨0, default⟩, []⟩ (List.prefix_refl bs)
  exact ⟨bs, m', hsize, hrun, hsame⟩

end OpenPubSub
