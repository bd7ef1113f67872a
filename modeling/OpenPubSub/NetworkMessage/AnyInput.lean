import OpenPubSub.NetworkMessage.RealTime
import OpenPubSub.NetworkMessage.OffsetTable

/-!
# The subscriber's fast path under any input

What `UA_NetworkMessage_updateBufferedNwMessage` does when the bytes it is given are not those of
the message the table was made for, call after call on the same structure, and whatever the calls
return.

- Only entries in front of the first one that is not supported are `reached`. A structure `Covers`
  them if it has a writer id and enough fields.
- `Patched` says what calls leave alone, and **`receiveCycles_patched`** that this is all but the
  items of reached entries.
- **`receiveCycles_inBounds_iff`**: no sequence of inputs leads out of the arrays if and only if
  the structure covers the table.
-/

namespace OpenPubSub

open Routine Writer

variable {src : Bytes} {T : DataTypes} {S : FieldSpec} {m₀ m m' nm : NetworkMessage}
  {d₀ d : DataSetMessage}

/-! ## What the table needs -/

/-- Is the id a number? -/
def PublisherId.isNumeric (id : PublisherId) : Bool :=
  match id with
  | .byte _ | .uint16 _ | .uint32 _ | .uint64 _ => true
  | .string _ | .reserved _ => false

/-- The fields of the first DataSetMessage. -/
def NetworkMessage.firstFields (nm : NetworkMessage) : List DataValue :=
  ((nm.payload.dataSetMessages.getD []).head?.bind DataSetMessage.dataSetFields).getD []

/-- What the entries of a table meet in a structure. -/
structure Footing where
  numericId : Bool
  writerIds : Nat
  fields : Nat

def NetworkMessage.footing (nm : NetworkMessage) : Footing where
  numericId := nm.publisherId.isNumeric
  writerIds := (nm.payloadHeader.dataSetWriterIds.getD []).length
  fields := nm.firstFields.length

namespace NetworkMessageOffsetType

/-- An entry for a field. -/
def isField (c : NetworkMessageOffsetType) : Bool :=
  match c with
  | .payloadDataValue | .payloadVariant => true
  | _ => false

/-- Whether the update goes on behind such an entry. -/
def supported (f : Footing) (c : NetworkMessageOffsetType) : Bool :=
  match c with
  | .publisherId => f.numericId
  | .writerGroupId | .dataSetWriterId | .networkMessageSequenceNumber => true
  | .payloadDataValue | .payloadVariant => true
  | _ => false

end NetworkMessageOffsetType

namespace Footing

/-- The entries in front of the first one that is not supported. -/
def reached (f : Footing) (offsets : List NetworkMessageOffset) : List NetworkMessageOffsetType :=
  (offsets.map NetworkMessageOffset.contentType).takeWhile (NetworkMessageOffsetType.supported f)

/-- How many fields they stand for. -/
def reachedFields (f : Footing) (offsets : List NetworkMessageOffset) : Nat :=
  (f.reached offsets).countP NetworkMessageOffsetType.isField

/-- There is a writer id, and a field for each entry from field `j` on. -/
structure Covers (f : Footing) (j : Nat) (offsets : List NetworkMessageOffset) : Prop where
  writerId : .dataSetWriterId ∈ f.reached offsets → 0 < f.writerIds
  fields : j + f.reachedFields offsets ≤ f.fields

instance (f : Footing) (j : Nat) (offsets : List NetworkMessageOffset) :
    Decidable (f.Covers j offsets) :=
  decidable_of_iff ((.dataSetWriterId ∈ f.reached offsets → 0 < f.writerIds) ∧
      j + f.reachedFields offsets ≤ f.fields)
    ⟨fun h => ⟨h.1, h.2⟩, fun h => ⟨h.1, h.2⟩⟩

end Footing

/-- One call, whatever it returns. -/
def receiveCycle (T : DataTypes) (offsets : List NetworkMessageOffset) (e : Delivery)
    (nm : NetworkMessage) : Option NetworkMessage :=
  match networkMessageUpdateBufferedNwMessage e.src T offsets ⟨nm, e.start⟩ with
  | .done _ b | .fail _ b => some b.nm
  | .fault => none

/-! ## What calls leave alone -/

namespace NetworkMessage

/-- Everything taken out that an update may write. -/
def blank (m : NetworkMessage) : NetworkMessage :=
  { m with
    publisherId := default
    groupHeader := { m.groupHeader with writerGroupId := 0, sequenceNumber := 0 }
    payloadHeader := { m.payloadHeader with
      dataSetWriterIds := m.payloadHeader.dataSetWriterIds.map (·.set 0 0) }
    payload := { m.payload with
      dataSetMessages := m.payload.dataSetMessages.map (·.modify 0 fun d =>
        { d with dataSetFields := d.dataSetFields.map (·.map fun _ => default) }) } }

/-- A field is looked up in the first DataSetMessage. -/
theorem firstField?_eq (m : NetworkMessage) (i : Nat) : m.firstField? i = m.firstFields[i]? := by
  unfold firstField? firstFields
  cases (m.payload.dataSetMessages.getD []).head? <;> rfl

/-- Only the field that is pointed at changes. -/
theorem firstFields_onFirstField (j : Nat) (f : DataValue → DataValue) (m : NetworkMessage) :
    (m.onFirstField j f).firstFields = m.firstFields.modify j f := by
  unfold onFirstField firstFields
  cases m.payload.dataSetMessages with
  | none => simp
  | some ds =>
    cases ds with
    | nil => simp
    | cons d ds => cases hfields : d.dataSetFields <;> simp [hfields, DataSetMessage.onField]

/-- Changing a field changes nothing but fields. -/
theorem blank_onFirstField (j : Nat) (f : DataValue → DataValue) (m : NetworkMessage) :
    (m.onFirstField j f).blank = m.blank := by
  have hmessages : (m.onFirstField j f).blank.payload = m.blank.payload := by
    unfold onFirstField blank
    cases m.payload.dataSetMessages with
    | none => rfl
    | some ds =>
      cases ds with
      | nil => rfl
      | cons d ds =>
        cases hfields : d.dataSetFields with
        | none => simp [DataSetMessage.onField, hfields]
        | some fs => simp [DataSetMessage.onField, hfields, List.map_const']
  show ({ m.blank with payload := (m.onFirstField j f).blank.payload } : NetworkMessage) = m.blank
  rw [hmessages]

/-- Changing a writer id changes nothing but writer ids. -/
theorem blank_setFirstWriterId (v : UInt16) (m : NetworkMessage) :
    (m.setFirstWriterId v).blank = m.blank := by
  unfold setFirstWriterId blank
  cases m.payloadHeader.dataSetWriterIds with
  | none => rfl
  | some ids => simp [List.set_set]

end NetworkMessage

/-- `f'` is `f` with another value. -/
def DataValueOf.Revalued (f f' : DataValue) : Prop :=
  ∃ v b, f' = { f with value := v, hasValue := f.hasValue || b }

theorem DataValueOf.Revalued.refl (f : DataValue) : f.Revalued f :=
  ⟨f.value, false, by rw [Bool.or_false]⟩

/-- Two updates of one field. -/
theorem DataValueOf.Revalued.trans {f g h : DataValue} (hfg : f.Revalued g) (hgh : g.Revalued h) :
    f.Revalued h := by
  obtain ⟨v, b, rfl⟩ := hfg
  obtain ⟨w, c, rfl⟩ := hgh
  exact ⟨w, b || c, by rw [Bool.or_assoc]⟩

/-- `m'` is `m` but for the items of the entries in `written` and the first `k` fields. -/
structure Patched (written : List NetworkMessageOffsetType) (k : Nat) (m m' : NetworkMessage) :
    Prop where
  blank : m'.blank = m.blank
  typeByte : m'.publisherId.typeByte = m.publisherId.typeByte
  publisherId : .publisherId ∉ written → m'.publisherId = m.publisherId
  writerGroupId : .writerGroupId ∉ written →
    m'.groupHeader.writerGroupId = m.groupHeader.writerGroupId
  sequenceNumber : .networkMessageSequenceNumber ∉ written →
    m'.groupHeader.sequenceNumber = m.groupHeader.sequenceNumber
  writerIds : .dataSetWriterId ∉ written →
    m'.payloadHeader.dataSetWriterIds = m.payloadHeader.dataSetWriterIds
  fields : ∀ i, k ≤ i → m'.firstFields[i]? = m.firstFields[i]?
  variants : .payloadDataValue ∉ written → ∀ f' ∈ m'.firstFields, ∃ f ∈ m.firstFields,
    DataValueOf.Revalued f f'

namespace Patched

variable {written : List NetworkMessageOffsetType} {k : Nat}

theorem refl (written : List NetworkMessageOffsetType) (k : Nat) (m : NetworkMessage) :
    Patched written k m m where
  blank := rfl
  typeByte := rfl
  publisherId _ := rfl
  writerGroupId _ := rfl
  sequenceNumber _ := rfl
  writerIds _ := rfl
  fields _ _ := rfl
  variants _ f hf := ⟨f, hf, .refl f⟩

/-- Two calls in a row. -/
theorem trans {m'' : NetworkMessage} (h : Patched written k m m') (h' : Patched written k m' m'') :
    Patched written k m m'' where
  blank := h'.blank.trans h.blank
  typeByte := h'.typeByte.trans h.typeByte
  publisherId hid := (h'.publisherId hid).trans (h.publisherId hid)
  writerGroupId hid := (h'.writerGroupId hid).trans (h.writerGroupId hid)
  sequenceNumber hid := (h'.sequenceNumber hid).trans (h.sequenceNumber hid)
  writerIds hid := (h'.writerIds hid).trans (h.writerIds hid)
  fields i hi := (h'.fields i hi).trans (h.fields i hi)
  variants hvariant f'' hf'' := by
    obtain ⟨f', hf', hlast⟩ := h'.variants hvariant f'' hf''
    obtain ⟨f, hf, hfirst⟩ := h.variants hvariant f' hf'
    exact ⟨f, hf, hfirst.trans hlast⟩

/-- Whatever is put into the header items. -/
theorem put_publisherId (hmem : .publisherId ∈ written) {id : PublisherId}
    (hid : id.typeByte = m.publisherId.typeByte) :
    Patched written k m { m with publisherId := id } :=
  { refl written k m with
    blank := rfl
    typeByte := hid
    publisherId := fun h => absurd hmem h }

/-- The writer group id is written where it has an entry. -/
theorem put_writerGroupId (hmem : .writerGroupId ∈ written) (v : UInt16) :
    Patched written k m { m with groupHeader := { m.groupHeader with writerGroupId := v } } :=
  { refl written k m with
    blank := rfl
    writerGroupId := fun h => absurd hmem h }

/-- The sequence number is written where it has an entry. -/
theorem put_sequenceNumber (hmem : .networkMessageSequenceNumber ∈ written) (v : UInt16) :
    Patched written k m { m with groupHeader := { m.groupHeader with sequenceNumber := v } } :=
  { refl written k m with
    blank := rfl
    sequenceNumber := fun h => absurd hmem h }

/-- The first writer id is written where it has an entry. -/
theorem put_writerId (hmem : .dataSetWriterId ∈ written) (v : UInt16) :
    Patched written k m (m.setFirstWriterId v) :=
  { refl written k m with
    blank := m.blank_setFirstWriterId v
    writerIds := fun h => absurd hmem h }

/-- And into a field. In VARIANT encoding it keeps all but its value. -/
theorem put_field {j : Nat} (hj : j < k) {g : DataValue → DataValue}
    (hg : .payloadDataValue ∉ written → ∀ f : DataValue, f.Revalued (g f)) :
    Patched written k m (m.onFirstField j g) :=
  { refl written k m with
    blank := m.blank_onFirstField j g
    fields := by
      intro i hi
      have hne : j ≠ i := by omega
      rw [NetworkMessage.firstFields_onFirstField, List.getElem?_modify_ne _ _ hne]
    variants := by
      intro hvariant f' hf'
      rw [NetworkMessage.firstFields_onFirstField] at hf'
      obtain ⟨i, hi⟩ := List.mem_iff_getElem?.mp hf'
      rw [List.getElem?_modify] at hi
      obtain ⟨f, hf, rfl⟩ := Option.map_eq_some_iff.mp hi
      refine ⟨f, List.mem_of_getElem? hf, ?_⟩
      by_cases hji : j = i
      · simp only [if_pos hji]
        exact hg hvariant f
      · simp only [if_neg hji]
        exact .refl f }

/-- A table finds the same structure. -/
theorem footing (h : Patched written k m m') : m'.footing = m.footing := by
  have hnumeric : ∀ id : PublisherId, id.isNumeric = decide (id.form < 4) := by
    intro id
    cases id with
    | reserved v =>
      have hlarge : ¬ 5 + v.val < 4 := by omega
      exact (decide_eq_false hlarge).symm
    | _ => rfl
  have hids : ∀ m : NetworkMessage, (m.blank.payloadHeader.dataSetWriterIds.getD []).length =
      (m.payloadHeader.dataSetWriterIds.getD []).length := by
    intro m
    unfold NetworkMessage.blank
    cases m.payloadHeader.dataSetWriterIds <;> simp
  have hfields : ∀ m : NetworkMessage, m.blank.firstFields.length = m.firstFields.length := by
    intro m
    unfold NetworkMessage.blank NetworkMessage.firstFields
    cases m.payload.dataSetMessages with
    | none => rfl
    | some ds =>
      cases ds with
      | nil => rfl
      | cons d ds => cases hd : d.dataSetFields <;> simp [hd]
  have hform : m'.publisherId.form = m.publisherId.form := by
    rw [← typeByte_toNat, ← typeByte_toNat, h.typeByte]
  -- the arrays are in what the fast path leaves alone, and the form of the publisher id tells
  -- whether it is a number
  unfold NetworkMessage.footing
  rw [hnumeric, hnumeric, hform, ← hids m', ← hfields m', h.blank, hids, hfields]

end Patched

/-! ## One entry -/

section Steps

variable {α : Type} [Inhabited α] {x : Dec α} {I : NetworkMessage → Prop} {j : Nat}
  {E : ErrorCode → NwUpdate → Prop}

/-- Read or not, something is put into the member, and the loop goes on. -/
theorem updateFrom_spec {put : α → NetworkMessage → NetworkMessage}
    (hx : Moves False src (decodeFuel src) 0 x) (hput : ∀ a nm, I nm → I (put a nm)) :
    Spec (fun s => I s.nm ∧ s.payloadCounter = j) (updateFrom (uaDecodeBinary x) put)
      (fun _ s => I s.nm ∧ s.payloadCounter = j) E := by
  intro s hs
  have hmoves := uaDecodeBinary_moves hx s.offset
  unfold updateFrom decodeInto
  cases hrun : uaDecodeBinary x s.offset with
  | done a q => exact ⟨hput a _ hs.1, hs.2⟩
  | fail e q => exact ⟨hput default _ hs.1, hs.2⟩
  | fault =>
    rw [hrun] at hmoves
    exact hmoves

theorem returnIfBad_spec {P : NwUpdate → Prop} :
    Spec P returnIfBad (fun _ => P) (fun _ => P) := by
  intro s hs
  unfold returnIfBad
  cases s.rv <;> exact hs

variable {written : List NetworkMessageOffsetType} {k : Nat}

/-- The publisher id keeps its type, and is only written if it is a number. -/
theorem updatePublisherId_spec (hmem : m.footing.numericId = true → .publisherId ∈ written) :
    Spec (fun s => Patched written k m s.nm ∧ s.payloadCounter = j) (updatePublisherId src)
      (fun _ s => m.footing.numericId = true ∧ Patched written k m s.nm ∧ s.payloadCounter = j)
      (fun _ s => Patched written k m s.nm) := by
  rintro s ⟨hs, hj⟩
  have hfooting : m.footing.numericId = s.nm.publisherId.isNumeric := by
    rw [← hs.footing]
    rfl
  rw [hfooting] at hmem ⊢
  -- the member that is there is replaced by one of the same type
  have hmember : ∀ {α : Type} [Inhabited α] {x : Dec α} (put : α → PublisherId),
      Moves False src (decodeFuel src) 0 x → s.nm.publisherId.isNumeric = true →
      (∀ a, (put a).typeByte = s.nm.publisherId.typeByte) →
      (updateFrom (uaDecodeBinary x) (fun a nm => { nm with publisherId := put a }) s).Sat
        (fun _ t => s.nm.publisherId.isNumeric = true ∧ Patched written k m t.nm ∧
          t.payloadCounter = j) (fun _ t => Patched written k m t.nm) := by
    intro α _ x put hx hnumeric htype
    refine (updateFrom_spec (I := Patched written k m) hx (fun a nm hnm => ?_) s ⟨hs, hj⟩).imp
      (fun _ _ h => ⟨hnumeric, h⟩) fun _ _ h => h
    exact hnm.trans (.put_publisherId (hmem hnumeric)
      ((htype a).trans (hs.typeByte.trans hnm.typeByte.symm)))
  unfold updatePublisherId
  cases hid : s.nm.publisherId with
  | byte v =>
    rw [hid] at hmember
    exact hmember .byte (byteDecodeBinary_moves.weaken (Nat.zero_le _)) rfl fun _ => rfl
  | uint16 v =>
    rw [hid] at hmember
    exact hmember .uint16 (uint16DecodeBinary_moves.weaken (Nat.zero_le _)) rfl fun _ => rfl
  | uint32 v =>
    rw [hid] at hmember
    exact hmember .uint32 (uint32DecodeBinary_moves.weaken (Nat.zero_le _)) rfl fun _ => rfl
  | uint64 v =>
    rw [hid] at hmember
    exact hmember .uint64 (uint64DecodeBinary_moves.weaken (Nat.zero_le _)) rfl fun _ => rfl
  | string v => exact hs
  | reserved v => exact hs

/-- The writer id, where there is one. -/
theorem updateWriterId_spec (hmem : .dataSetWriterId ∈ written) (hids : 0 < m.footing.writerIds) :
    Spec (fun s => Patched written k m s.nm ∧ s.payloadCounter = j) (updateWriterId src)
      (fun _ s => Patched written k m s.nm ∧ s.payloadCounter = j)
      (fun _ s => Patched written k m s.nm) := by
  rintro s ⟨hs, hj⟩
  rw [← hs.footing] at hids
  have hne : ¬ s.nm.payloadHeader.dataSetWriterIds.getD [] = [] := List.ne_nil_of_length_pos hids
  unfold updateWriterId
  rw [if_neg hne]
  exact updateFrom_spec (I := Patched written k m) (uint16DecodeBinary_moves.weaken (Nat.zero_le _))
    (fun a nm hnm => hnm.trans (.put_writerId hmem a)) s ⟨hs, hj⟩

/-- The field that the counter points at, where there is one. -/
theorem updateField_spec {put : α → DataValue → DataValue}
    (hx : Moves False src (decodeFuel src) 0 x) (hj : j < k) (hk : k ≤ m.footing.fields)
    (hput : ∀ a, .payloadDataValue ∉ written → ∀ f : DataValue, f.Revalued (put a f)) :
    Spec (fun s => Patched written k m s.nm ∧ s.payloadCounter = j)
      (updateField (uaDecodeBinary x) put)
      (fun _ s => Patched written k m s.nm ∧ s.payloadCounter = j)
      (fun _ s => Patched written k m s.nm) := by
  rintro s ⟨hs, rfl⟩
  have hlt : s.payloadCounter < s.nm.firstFields.length := by
    rw [← hs.footing] at hk
    exact Nat.lt_of_lt_of_le hj hk
  have hfield : (s.nm.firstField? s.payloadCounter).isSome = true := by
    rw [NetworkMessage.firstField?_eq, List.getElem?_eq_getElem hlt]
    rfl
  unfold updateField
  rw [if_pos hfield]
  exact updateFrom_spec (I := Patched written k m) hx
    (fun a nm hnm => hnm.trans (.put_field hj (hput a))) s ⟨hs, rfl⟩

/-- The counter goes on by one. -/
theorem nextField_spec {g : DataValue → DataValue} (hj : j < k)
    (hg : .payloadDataValue ∉ written → ∀ f : DataValue, f.Revalued (g f)) :
    Spec (fun s => Patched written k m s.nm ∧ s.payloadCounter = j) (nextField g)
      (fun _ s => Patched written k m s.nm ∧ s.payloadCounter = j + 1)
      (fun _ s => Patched written k m s.nm) := by
  refine .modify ?_
  rintro s ⟨hs, rfl⟩
  exact ⟨hs.trans (.put_field hj hg), rfl⟩

/-- How far an entry moves the counter of the fields. -/
def NetworkMessageOffsetType.fieldStep (c : NetworkMessageOffsetType) : Nat :=
  if c.isField then 1 else 0

/-- One entry, where the structure has what it stands for. -/
theorem updateContent_spec {c : NetworkMessageOffsetType}
    (hmem : c.supported m.footing = true → c ∈ written)
    (hid : c = .dataSetWriterId → 0 < m.footing.writerIds)
    (hj : j + c.fieldStep ≤ k) (hk : k ≤ m.footing.fields) :
    Spec (fun s => Patched written k m s.nm ∧ s.payloadCounter = j) (updateContent src T c)
      (fun _ s => c.supported m.footing = true ∧ Patched written k m s.nm ∧
        s.payloadCounter = j + c.fieldStep) (fun _ s => Patched written k m s.nm) := by
  have hchecked : Spec (fun s => Patched written k m s.nm ∧ s.payloadCounter = j) returnIfBad
      (fun _ s => Patched written k m s.nm ∧ s.payloadCounter = j)
      (fun _ s => Patched written k m s.nm) :=
    returnIfBad_spec.conseq (fun _ h => h) (fun _ _ h => h) fun _ _ h => h.1
  have hitem : ∀ {put : UInt16 → NetworkMessage → NetworkMessage},
      (∀ v nm, Patched written k nm (put v nm)) →
      Spec (fun s => Patched written k m s.nm ∧ s.payloadCounter = j)
        (updateFrom (uaUInt16DecodeBinary src) put >>= fun _ => returnIfBad)
        (fun _ s => Patched written k m s.nm ∧ s.payloadCounter = j)
        (fun _ s => Patched written k m s.nm) := fun hput =>
    .bind (updateFrom_spec (I := Patched written k m)
      (uint16DecodeBinary_moves.weaken (Nat.zero_le _)) fun v nm hnm => hnm.trans (hput v nm))
      fun _ => hchecked
  -- the entry is a supported one where its own part of the switch comes to an end
  have hdone : ∀ {x : NwUpdating} {i : Nat}, c.supported m.footing = true →
      Spec (fun s => Patched written k m s.nm ∧ s.payloadCounter = j) x
        (fun _ s => Patched written k m s.nm ∧ s.payloadCounter = i)
        (fun _ s => Patched written k m s.nm) →
      Spec (fun s => Patched written k m s.nm ∧ s.payloadCounter = j) x
        (fun _ s => c.supported m.footing = true ∧ Patched written k m s.nm ∧
          s.payloadCounter = i) (fun _ s => Patched written k m s.nm) := fun hc hx =>
    hx.conseq (fun _ h => h) (fun _ _ h => ⟨hc, h⟩) fun _ _ h => h
  cases c with
  | publisherId => exact updatePublisherId_spec hmem
  | writerGroupId => exact hdone rfl (hitem fun v _ => .put_writerGroupId (hmem rfl) v)
  | networkMessageSequenceNumber =>
    exact hdone rfl (hitem fun v _ => .put_sequenceNumber (hmem rfl) v)
  | dataSetWriterId =>
    exact hdone rfl (.bind (updateWriterId_spec (hmem rfl) (hid rfl)) fun _ => hchecked)
  | payloadDataValue =>
    have hput : .payloadDataValue ∉ written → ∀ g : DataValue → DataValue, ∀ f : DataValue,
        f.Revalued (g f) := fun hnot => absurd (hmem rfl) hnot
    exact hdone rfl (.bind (updateField_spec uaDataValue_moves.of_false hj hk
      fun v hnot => hput hnot fun _ => v) fun _ => .bind hchecked fun _ =>
        nextField_spec hj fun hnot => hput hnot id)
  | payloadVariant =>
    have hvalue : ∀ (v : Variant) (f : DataValue), f.Revalued { f with value := v } :=
      fun v f => ⟨v, false, by rw [Bool.or_false]⟩
    have hflag : ∀ f : DataValue, f.Revalued { f with hasValue := true } :=
      fun f => ⟨f.value, true, by rw [Bool.or_true]⟩
    exact hdone rfl (.bind (updateField_spec uaVariant_moves.of_false hj hk fun v _ => hvalue v)
      fun _ => .bind hchecked fun _ => nextField_spec hj fun _ => hflag)
  | _ => exact .fail fun _ h => h.1

end Steps

/-! ## The table -/

namespace Footing

variable {f : Footing} {e : NetworkMessageOffset} {es : List NetworkMessageOffset} {j : Nat}

theorem reached_supported (h : e.contentType.supported f = true) :
    f.reached (e :: es) = e.contentType :: f.reached es :=
  List.takeWhile_cons_of_pos h

theorem reached_unsupported (h : e.contentType.supported f = false) : f.reached (e :: es) = [] :=
  List.takeWhile_cons_of_neg (by rw [h]; decide)

theorem reachedFields_supported (h : e.contentType.supported f = true) :
    f.reachedFields (e :: es) = e.contentType.fieldStep + f.reachedFields es := by
  unfold reachedFields
  rw [reached_supported h, List.countP_cons, Nat.add_comm]
  rfl

end Footing

/-- An entry that is refused reads no field. -/
theorem fieldStep_unsupported {f : Footing} {c : NetworkMessageOffsetType}
    (h : c.supported f = false) : c.fieldStep = 0 := by
  cases c with
  | payloadDataValue | payloadVariant => cases h
  | _ => rfl

section

variable {written : List NetworkMessageOffsetType} {k : Nat}

/-- The loop. The induction is on the entries left; `j` fields were read. -/
theorem updateLoop_spec (pos : Nat) (hk : k ≤ m.footing.fields) {es : List NetworkMessageOffset}
    {j : Nat} (hmem : ∀ c ∈ m.footing.reached es, c ∈ written)
    (hid : .dataSetWriterId ∈ m.footing.reached es → 0 < m.footing.writerIds)
    (hj : j + m.footing.reachedFields es ≤ k) :
    Spec (fun s => Patched written k m s.nm ∧ s.payloadCounter = j) (updateLoop src T pos es)
      (fun _ s => Patched written k m s.nm) (fun _ s => Patched written k m s.nm) := by
  induction es generalizing j with
  | nil => exact .pure fun _ h => h.1
  | cons e es ih =>
    -- what holds of all entries reached holds of this one, if it is reached
    have hitem : e.contentType.supported m.footing = true → e.contentType ∈ written ∧
        (e.contentType = .dataSetWriterId → 0 < m.footing.writerIds) := by
      intro hc
      rw [Footing.reached_supported hc] at hmem hid
      exact ⟨hmem _ (List.mem_cons_self ..), fun heq => hid (heq ▸ List.mem_cons_self ..)⟩
    have hstep : j + e.contentType.fieldStep ≤ k := by
      cases hc : e.contentType.supported m.footing with
      | true =>
        rw [Footing.reachedFields_supported hc] at hj
        omega
      | false =>
        rw [fieldStep_unsupported hc]
        omega
    refine .bind (.bind (.modify fun _ h => h) fun _ => updateContent_spec (fun hc => (hitem hc).1)
      (fun heq => (hitem (heq ▸ rfl)).2 heq) hstep hk) fun _ => ?_
    -- the loop goes on only behind a supported entry
    rintro s ⟨hc, hs, hcounter⟩
    rw [Footing.reached_supported hc] at hmem hid
    rw [Footing.reachedFields_supported hc, ← Nat.add_assoc] at hj
    exact ih (fun c hmem' => hmem c (List.mem_cons_of_mem _ hmem'))
      (fun hmem' => hid (List.mem_cons_of_mem _ hmem')) hj s ⟨hs, hcounter⟩

end

/-! ## An input that leads everywhere -/

/-- Zeros can be read as whatever an entry stands for. -/
structure ReadsZeros (src : Bytes) (T : DataTypes) (p : Nat) : Prop where
  byte : ∃ q, uaByteDecodeBinary src p = .done 0 q
  uint16 : ∃ q, uaUInt16DecodeBinary src p = .done 0 q
  uint32 : ∃ q, uaUInt32DecodeBinary src p = .done 0 q
  uint64 : ∃ q, uaUInt64DecodeBinary src p = .done 0 q
  variant : ∃ q, uaVariantDecodeBinary src T p = .done default q
  dataValue : ∃ q, uaDataValueDecodeBinary src T p = .done default q

/-- All numbers can be read from zeros. -/
theorem readsZeros {p n : Nat} (hn : p + 8 ≤ n) : ReadsZeros (List.replicate n 0) T p := by
  have hat : ∀ {k : Nat}, k ≤ 8 → At (List.replicate n (0 : UInt8)) p (List.replicate k 0) := by
    intro k hk
    rw [At, List.drop_replicate, List.prefix_replicate_iff, List.length_replicate]
    exact ⟨by omega, rfl⟩
  have hbyte : byteDecodeBinary (List.replicate n 0) ⟨p, 0⟩ = .done 0 ⟨p + 1, 0⟩ :=
    reads_byte 0 ⟨p, 0⟩ (hat (k := 1) (by omega)) (Nat.le_refl 0)
  refine ⟨⟨_, readsAt_uaByte 0 p (hat (k := 1) (by omega))⟩,
    ⟨_, readsAt_uaUInt16 0 p (hat (k := 2) (by omega))⟩,
    ⟨_, readsAt_uaUInt32 0 p (hat (k := 4) (by omega))⟩,
    ⟨_, readsAt_uaUInt64 0 p (hat (k := 8) (by omega))⟩, ⟨p + 1, ?_⟩, ⟨p + 1, ?_⟩⟩
  · unfold uaVariantDecodeBinary uaDecodeBinary variantDecodeBinary
    rw [bind_done hbyte]
    rfl
  · unfold uaDataValueDecodeBinary uaDecodeBinary dataValueDecodeBinary
    rw [bind_done hbyte]
    rfl

/-- Reading the zeros is a success, after which the loop goes on. -/
theorem updateFrom_ne_fail {α : Type} [Inhabited α] {x : Routine ErrorCode Nat α}
    {put : α → NetworkMessage → NetworkMessage} {s : NwUpdate} {a : α} {f : NwUpdating}
    (hx : ∃ q, x s.offset = .done a q) (hf : ∀ t, t.rv = none → ∀ e u, f t ≠ .fail e u)
    (e : ErrorCode) (u : NwUpdate) : (updateFrom x put >>= fun _ => f) s ≠ .fail e u := by
  obtain ⟨q, hq⟩ := hx
  have hrun : updateFrom x put s =
      .done () { s with nm := put a s.nm, offset := q, rv := none } := by
    simp only [updateFrom, decodeInto, hq]
  rw [bind_done hrun]
  exact hf _ rfl e u

/-- The check passes where nothing failed before. -/
theorem returnIfBad_ne_fail {t : NwUpdate} (h : t.rv = none) (e : ErrorCode) (u : NwUpdate) :
    returnIfBad t ≠ .fail e u := by
  unfold returnIfBad
  rw [h]
  exact fun h => nomatch h

theorem pure_ne_fail {t : NwUpdate} (e : ErrorCode) (u : NwUpdate) :
    (pure () : NwUpdating) t ≠ .fail e u := fun h => nomatch h

theorem returnIfBad_nextField_ne_fail {g : DataValue → DataValue} {t : NwUpdate}
    (h : t.rv = none) (e : ErrorCode) (u : NwUpdate) :
    (returnIfBad >>= fun _ => nextField g) t ≠ .fail e u := by
  have hrun : returnIfBad t = .done () t := by
    unfold returnIfBad
    rw [h]
  rw [bind_done hrun]
  exact fun h => nomatch h

theorem bind_ne_fail {x y : NwUpdating} {f : Unit → NwUpdating} {s : NwUpdate}
    (h : x s = y s ∨ x s = .fault) {e : ErrorCode} {u : NwUpdate}
    (hy : (y >>= f) s ≠ .fail e u) : (x >>= f) s ≠ .fail e u := by
  obtain h | h := h
  · rwa [bind_run, h, ← bind_run]
  · rw [bind_fault h]
    exact fun h => nomatch h

/-- The writer id is there, or the update runs into undefined behaviour. -/
theorem updateWriterId_cases (src : Bytes) (s : NwUpdate) :
    updateWriterId src s =
        updateFrom (uaUInt16DecodeBinary src) NetworkMessage.setFirstWriterId s ∨
      updateWriterId src s = .fault := by
  unfold updateWriterId
  split
  · exact .inr rfl
  · exact .inl rfl

/-- The field is there, or the update runs into undefined behaviour. -/
theorem updateField_cases {α : Type} [Inhabited α] (x : Routine ErrorCode Nat α)
    (put : α → DataValue → DataValue) (s : NwUpdate) :
    updateField x put s =
        updateFrom x (fun v => NetworkMessage.onFirstField s.payloadCounter (put v)) s ∨
      updateField x put s = .fault := by
  unfold updateField
  split
  · exact .inl rfl
  · exact .inr rfl

/-- From zeros no supported entry fails to be read. -/
theorem updateContent_ne_fail {c : NetworkMessageOffsetType} {s : NwUpdate}
    (hzeros : ReadsZeros src T s.offset) (hc : c.supported s.nm.footing = true) (e : ErrorCode)
    (u : NwUpdate) : updateContent src T c s ≠ .fail e u := by
  have hlast : ∀ {x : NwUpdating}, (∀ e u, (x >>= fun _ => pure ()) s ≠ .fail e u) →
      x s ≠ .fail e u := fun h hfail => h e u (bind_fail hfail)
  -- there are zeros enough for whatever the entry reads
  cases c with
  | publisherId =>
    have hnumeric : s.nm.publisherId.isNumeric = true := hc
    show updatePublisherId src s ≠ _
    unfold updatePublisherId
    cases hid : s.nm.publisherId with
    | byte v => exact hlast (updateFrom_ne_fail hzeros.byte fun _ _ => pure_ne_fail)
    | uint16 v => exact hlast (updateFrom_ne_fail hzeros.uint16 fun _ _ => pure_ne_fail)
    | uint32 v => exact hlast (updateFrom_ne_fail hzeros.uint32 fun _ _ => pure_ne_fail)
    | uint64 v => exact hlast (updateFrom_ne_fail hzeros.uint64 fun _ _ => pure_ne_fail)
    | string v | reserved v =>
      rw [hid] at hnumeric
      cases hnumeric
  | writerGroupId | networkMessageSequenceNumber =>
    exact updateFrom_ne_fail hzeros.uint16 (fun _ => returnIfBad_ne_fail) e u
  | dataSetWriterId =>
    exact bind_ne_fail (updateWriterId_cases src s)
      (updateFrom_ne_fail hzeros.uint16 (fun _ => returnIfBad_ne_fail) e u)
  | payloadDataValue =>
    exact bind_ne_fail (updateField_cases _ _ s)
      (updateFrom_ne_fail hzeros.dataValue (fun _ => returnIfBad_nextField_ne_fail) e u)
  | payloadVariant =>
    exact bind_ne_fail (updateField_cases _ _ s)
      (updateFrom_ne_fail hzeros.variant (fun _ => returnIfBad_nextField_ne_fail) e u)
  | _ => cases hc

/-- An entry without anything it stands for. -/
theorem updateContent_fault {c : NetworkMessageOffsetType} {s : NwUpdate}
    (hj : s.payloadCounter ≤ s.nm.footing.fields)
    (h : ¬ ((c = .dataSetWriterId → 0 < s.nm.footing.writerIds) ∧
      s.payloadCounter + c.fieldStep ≤ s.nm.footing.fields)) :
    updateContent src T c s = .fault := by
  have hfield : c.isField = true → ¬ (s.nm.firstField? s.payloadCounter).isSome = true := by
    intro hc hsome
    rw [NetworkMessage.firstField?_eq, isSome_getElem?] at hsome
    refine h ⟨fun heq => ?_, ?_⟩
    · rw [heq] at hc
      cases hc
    · rw [NetworkMessageOffsetType.fieldStep, if_pos hc]
      exact hsome
  cases c with
  | payloadDataValue | payloadVariant =>
    exact bind_fault (if_neg (hfield rfl))
  | dataSetWriterId =>
    have hids : s.nm.payloadHeader.dataSetWriterIds.getD [] = [] := by
      by_contra hne
      exact h ⟨fun _ => List.length_pos_iff.mpr hne, hj⟩
    exact bind_fault (if_pos hids)
  | _ => exact absurd ⟨nofun, hj⟩ h

/-- The loop over the zeros comes to the first entry without anything it stands for. -/
theorem updateLoop_fault {n pos : Nat} {es : List NetworkMessageOffset} {s : NwUpdate}
    (hn : ∀ e ∈ es, e.offset + pos + 8 ≤ n) (hj : s.payloadCounter ≤ s.nm.footing.fields)
    (h : ¬ s.nm.footing.Covers s.payloadCounter es) :
    updateLoop (List.replicate n 0) T pos es s = .fault := by
  induction es generalizing s with
  | nil => exact absurd ⟨nofun, hj⟩ h
  | cons e es ih =>
    cases hc : e.contentType.supported s.nm.footing with
    -- the loop returns here, so nothing behind this entry is reached
    | false =>
      refine absurd ⟨?_, ?_⟩ h
      · rw [Footing.reached_unsupported hc]
        exact nofun
      · rw [Footing.reachedFields, Footing.reached_unsupported hc]
        exact hj
    | true =>
      have hitem : updateItem (List.replicate n 0) T pos e s =
          updateContent (List.replicate n 0) T e.contentType { s with offset := e.offset + pos } :=
        rfl
      by_cases hentry : (e.contentType = .dataSetWriterId → 0 < s.nm.footing.writerIds) ∧
          s.payloadCounter + e.contentType.fieldStep ≤ s.nm.footing.fields
      · have hspec : Spec _ (updateContent (List.replicate n 0) T e.contentType) _ _ :=
          updateContent_spec (fun _ => List.mem_singleton_self e.contentType) hentry.1 hentry.2
            (Nat.le_refl s.nm.footing.fields)
        have hsat := hspec { s with offset := e.offset + pos } ⟨.refl .., rfl⟩
        have hzeros : ReadsZeros (List.replicate n 0) T (e.offset + pos) :=
          readsZeros (hn e (List.mem_cons_self ..))
        have hgoes := fun err u =>
          updateContent_ne_fail (s := { s with offset := e.offset + pos }) hzeros hc err u
        rw [← hitem] at hsat hgoes
        cases hrun : updateItem (List.replicate n 0) T pos e s with
        | done _ t =>
          rw [hrun] at hsat
          obtain ⟨-, ht, hcounter⟩ := hsat
          have hcounter : t.payloadCounter = s.payloadCounter + e.contentType.fieldStep := hcounter
          rw [updateLoop, bind_done hrun]
          -- the structure does not cover the rest of the table, either
          refine ih (fun e' he' => hn e' (List.mem_cons_of_mem _ he')) ?_ fun hcovers => h ⟨?_, ?_⟩
          · rw [hcounter, ht.footing]
            exact hentry.2
          · rw [Footing.reached_supported hc, List.mem_cons]
            rintro (heq | hmem)
            · exact hentry.1 heq.symm
            · rw [← ht.footing]
              exact hcovers.writerId (ht.footing ▸ hmem)
          · have hfields := hcovers.fields
            rw [ht.footing, hcounter] at hfields
            rw [Footing.reachedFields_supported hc, ← Nat.add_assoc]
            exact hfields
        | fail err t => exact absurd hrun (hgoes err t)
        | fault => exact bind_fault hrun
      · exact bind_fault (hitem.trans (updateContent_fault hj hentry))

/-- **One call**, on whatever input. -/
theorem receiveCycle_patched {offsets : List NetworkMessageOffset}
    (hcovers : nm.footing.Covers 0 offsets) (e : Delivery) :
    ∃ nm', receiveCycle T offsets e nm = some nm' ∧
      Patched (nm.footing.reached offsets) (nm.footing.reachedFields offsets) nm nm' := by
  have hfields := hcovers.fields
  rw [Nat.zero_add] at hfields
  have hloop : Spec _ (updateLoop e.src T e.start offsets) _ _ :=
    updateLoop_spec e.start hfields (fun _ hc => hc) hcovers.writerId
      (Nat.le_of_eq (Nat.zero_add _))
  have hsat := hloop ⟨nm, 0, 0, none⟩ ⟨.refl .., rfl⟩
  unfold receiveCycle networkMessageUpdateBufferedNwMessage
  cases hrun : updateLoop e.src T e.start offsets ⟨nm, 0, 0, none⟩ with
  | done _ s =>
    rw [hrun] at hsat
    cases hrv : s.rv with
    | none => exact ⟨s.nm, by simp only [hrv], hsat⟩
    | some _ => exact ⟨s.nm, by simp only [hrv], hsat⟩
  | fail _ s =>
    rw [hrun] at hsat
    exact ⟨s.nm, rfl, hsat⟩
  | fault =>
    rw [hrun] at hsat
    exact hsat.elim

/-- **Nothing but the items of reached entries ever changes**, whatever is received. -/
theorem receiveCycles_patched {offsets : List NetworkMessageOffset}
    (hcovers : nm.footing.Covers 0 offsets) (es : List Delivery) :
    ∃ nm', steps (receiveCycle T offsets) es nm = some nm' ∧
      Patched (nm.footing.reached offsets) (nm.footing.reachedFields offsets) nm nm' := by
  refine steps_total (fun e nm' hnm' => ?_) es (.refl ..)
  rw [← hnm'.footing] at hcovers
  obtain ⟨nm'', hcycle, hpatched⟩ := receiveCycle_patched hcovers e
  rw [hnm'.footing] at hpatched
  exact ⟨nm'', hcycle, hnm'.trans hpatched⟩

/-- There is a place behind all items. -/
theorem exists_behind (offsets : List NetworkMessageOffset) :
    ∃ n, ∀ e ∈ offsets, e.offset + 0 + 8 ≤ n := by
  induction offsets with
  | nil => exact ⟨0, nofun⟩
  | cons e es ih =>
    obtain ⟨n, hn⟩ := ih
    refine ⟨max (e.offset + 0 + 8) n, List.forall_mem_cons.mpr ⟨Nat.le_max_left .., ?_⟩⟩
    exact fun e' he' => Nat.le_trans (hn e' he') (Nat.le_max_right ..)

/-- **No input leads out of the arrays**, in any run, if and only if the structure covers the
table. -/
theorem receiveCycles_inBounds_iff {offsets : List NetworkMessageOffset} :
    (∀ es : List Delivery, (steps (receiveCycle T offsets) es nm).isSome = true) ↔
      nm.footing.Covers 0 offsets := by
  constructor
  · intro hall
    by_contra hcovers
    -- one buffer of zeros is enough
    obtain ⟨n, hn⟩ := exists_behind offsets
    have hloop : updateLoop (List.replicate n 0) T 0 offsets ⟨nm, 0, 0, none⟩ = .fault :=
      updateLoop_fault hn (Nat.zero_le _) hcovers
    have hcycle : receiveCycle T offsets ⟨List.replicate n 0, 0⟩ nm = none := by
      simp only [receiveCycle, networkMessageUpdateBufferedNwMessage, hloop]
    have hone := hall [⟨List.replicate n 0, 0⟩]
    rw [steps, hcycle] at hone
    cases hone
  · intro hcovers es
    obtain ⟨nm', hsteps, -⟩ := receiveCycles_patched hcovers es
    rw [hsteps]
    rfl

/-- The second of two key frames with one field each. -/
example : ¬ Footing.Covers ⟨true, 2, 1⟩ 0
    [⟨.publisherId, 1, .none⟩, ⟨.dataSetWriterId, 3, .none⟩, ⟨.payloadVariant, 14, .none⟩,
      ⟨.payloadVariant, 19, .none⟩] := by decide

end OpenPubSub
