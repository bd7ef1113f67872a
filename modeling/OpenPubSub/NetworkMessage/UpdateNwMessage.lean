import OpenPubSub.NetworkMessage.CalcSize
import OpenPubSub.NetworkMessage.EncodeDecode

/-!
# The subscriber's fast path

`UA_NetworkMessage_updateBufferedNwMessage` does not decode the next message as a whole. It
takes the offset table of a template, and the template itself as it was decoded, and patches
the items the table has entries for.

- `updateItem` is one iteration, `updateLoop` the loop. An index outside of an array is a
  `fault`.
-/

namespace OpenPubSub

open Routine

/-! ## The function -/

/-- `buffer->nm` and the variables of the loop. -/
structure NwUpdate where
  nm : NetworkMessage
  payloadCounter : Nat
  offset : Nat
  rv : Option ErrorCode

/-- One iteration, or a part of it. -/
abbrev NwUpdating := Routine ErrorCode NwUpdate Unit

/-- `rv = UA_X_decodeBinary(src, &offset, &nm->member)` -/
def updateFrom {α : Type} [Inhabited α] (x : Routine ErrorCode Nat α)
    (put : α → NetworkMessage → NetworkMessage) : NwUpdating := fun s =>
  match decodeInto x put ⟨s.offset, s.nm⟩ with
  | .done _ t => .done () { s with nm := t.dst, offset := t.offset, rv := none }
  | .fail e t => .done () { s with nm := t.dst, offset := t.offset, rv := some e }
  | .fault => .fault

/-- `if(rv != UA_STATUSCODE_GOOD) return rv;` -/
def returnIfBad : NwUpdating := fun s =>
  match s.rv with
  | none => .done () s
  | some e => .fail e s

namespace NetworkMessage

/-- `dataSetMessages[0].data.keyFrameData.dataSetFields[j]`, if it exists. -/
def firstField? (m : NetworkMessage) (j : Nat) : Option DataValue :=
  (m.payload.dataSetMessages.getD []).head?.bind fun d => (d.dataSetFields.getD [])[j]?

/-- Change this field. -/
def onFirstField (j : Nat) (f : DataValue → DataValue) (m : NetworkMessage) : NetworkMessage :=
  { m with payload := { m.payload with
      dataSetMessages := m.payload.dataSetMessages.map (·.modify 0 (·.onField j f)) } }

/-- Assign to `dataSetWriterIds[0]`. -/
def setFirstWriterId (v : UInt16) (m : NetworkMessage) : NetworkMessage :=
  { m with payloadHeader := { m.payloadHeader with
      dataSetWriterIds := m.payloadHeader.dataSetWriterIds.map (·.set 0 v) } }

end NetworkMessage

section

variable (src : Bytes) (T : DataTypes)

/-- The member of the union that `publisherIdType` of the template selects. -/
def updatePublisherId : NwUpdating := fun s =>
  match s.nm.publisherId with
  | .byte _ =>
    updateFrom (uaByteDecodeBinary src) (fun v m => { m with publisherId := .byte v }) s
  | .uint16 _ =>
    updateFrom (uaUInt16DecodeBinary src) (fun v m => { m with publisherId := .uint16 v }) s
  | .uint32 _ =>
    updateFrom (uaUInt32DecodeBinary src) (fun v m => { m with publisherId := .uint32 v }) s
  | .uint64 _ =>
    updateFrom (uaUInt64DecodeBinary src) (fun v m => { m with publisherId := .uint64 v }) s
  | .string _ | .reserved _ => .fail badNotSupported s

/-- `dataSetWriterIds[0]`, where there may be no element. -/
def updateWriterId : NwUpdating := fun s =>
  if s.nm.payloadHeader.dataSetWriterIds.getD [] = [] then .fault
  else updateFrom (uaUInt16DecodeBinary src) NetworkMessage.setFirstWriterId s

/-- `dataSetFields[payloadCounter]`, where there may be no element. -/
def updateField {α : Type} [Inhabited α] (x : Routine ErrorCode Nat α)
    (put : α → DataValue → DataValue) : NwUpdating := fun s =>
  if (s.nm.firstField? s.payloadCounter).isSome then
    updateFrom x (fun v => NetworkMessage.onFirstField s.payloadCounter (put v)) s
  else .fault

/-- `payloadCounter++`, after a last assignment to the field. -/
def nextField (f : DataValue → DataValue) : NwUpdating := modify fun s => { s with
  nm := s.nm.onFirstField s.payloadCounter f
  payloadCounter := s.payloadCounter + 1 }

/-- The body of the switch. -/
def updateContent (contentType : NetworkMessageOffsetType) : NwUpdating :=
  match contentType with
  | .publisherId => updatePublisherId src
  | .writerGroupId => do
    updateFrom (uaUInt16DecodeBinary src) fun v m =>
      { m with groupHeader := { m.groupHeader with writerGroupId := v } }
    returnIfBad
  | .dataSetWriterId => do
    updateWriterId src
    returnIfBad
  | .networkMessageSequenceNumber => do
    updateFrom (uaUInt16DecodeBinary src) fun v m =>
      { m with groupHeader := { m.groupHeader with sequenceNumber := v } }
    returnIfBad
  | .payloadDataValue => do
    updateField (uaDataValueDecodeBinary src T) fun v _ => v
    returnIfBad
    nextField id
  | .payloadVariant => do
    updateField (uaVariantDecodeBinary src T) fun v f => { f with value := v }
    returnIfBad
    nextField fun f => { f with hasValue := true }
  | _ => fail badNotSupported

/-- One iteration: the content behind `buffer->offsets[i].offset + *bufferPosition`. -/
def updateItem (bufferPosition : Nat) (e : NetworkMessageOffset) : NwUpdating := do
  modify fun s => { s with offset := e.offset + bufferPosition }
  updateContent src T e.contentType

/-- The loop over the table. -/
def updateLoop (bufferPosition : Nat) : List NetworkMessageOffset → NwUpdating
  | [] => pure ()
  | e :: es => do
    updateItem src T bufferPosition e
    updateLoop bufferPosition es

/-- `buffer->nm` and `*bufferPosition` -/
structure NwMessageBuffer where
  nm : NetworkMessage
  bufferPosition : Nat

/-- `UA_NetworkMessage_updateBufferedNwMessage`: the position is assigned in front of the last
return only, whatever `rv` is there. -/
def networkMessageUpdateBufferedNwMessage (offsets : List NetworkMessageOffset) :
    Routine ErrorCode NwMessageBuffer Unit := fun b =>
  match updateLoop src T b.bufferPosition offsets ⟨b.nm, 0, 0, none⟩ with
  | .done _ s =>
    match s.rv with
    | none => .done () ⟨s.nm, s.offset⟩
    | some e => .fail e ⟨s.nm, s.offset⟩
  | .fail e s => .fail e ⟨s.nm, b.bufferPosition⟩
  | .fault => .fault

end

/-! ## The loop over the entries of pieces -/

section Judgements

variable {src : Bytes} {T : DataTypes} {as bs pieces : List Piece} {s t u : NetworkMessage × Nat}

/-- What an iteration uses of an entry. -/
def NetworkMessageOffset.key (e : NetworkMessageOffset) : NetworkMessageOffsetType × Nat :=
  (e.contentType, e.offset)

theorem updateLoop_congr {pos : Nat} {es es' : List NetworkMessageOffset}
    (h : es.map NetworkMessageOffset.key = es'.map NetworkMessageOffset.key) :
    updateLoop src T pos es = updateLoop src T pos es' := by
  induction es generalizing es' with
  | nil =>
    rw [List.map_nil, eq_comm, List.map_eq_nil_iff] at h
    rw [h]
  | cons e es ih =>
    obtain ⟨e', rest, rfl, hkey, hrest⟩ := List.map_eq_cons_iff.mp h.symm
    have hitem : updateItem src T pos e = updateItem src T pos e' := by
      rw [updateItem, updateItem, (Prod.mk.inj hkey).1, (Prod.mk.inj hkey).2]
    rw [updateLoop, updateLoop, hitem, ih hrest.symm]

theorem updateLoop_append (pos : Nat) (es es' : List NetworkMessageOffset) :
    updateLoop src T pos (es ++ es') =
      (updateLoop src T pos es >>= fun _ => updateLoop src T pos es') := by
  induction es with
  | nil => rfl
  | cons e es ih => rw [List.cons_append, updateLoop, updateLoop, ih, bind_assoc]

/-- Where the pieces stand, the loop over their entries patches the message and moves the
counter of the fields. -/
def Updates (src : Bytes) (T : DataTypes) (pieces : List Piece) (s t : NetworkMessage × Nat) :
    Prop :=
  ∀ pos offset o : Nat, At src (offset + pos) (pieceBytes pieces) → ∃ o',
    updateLoop src T pos (marks true offset pieces) ⟨s.1, s.2, o, none⟩ =
      .done () ⟨t.1, t.2, o', none⟩

/-- The same, and the last entry was read up to the end of the pieces. -/
def UpdatesTo (src : Bytes) (T : DataTypes) (pieces : List Piece) (s t : NetworkMessage × Nat) :
    Prop :=
  ∀ pos offset o : Nat, At src (offset + pos) (pieceBytes pieces) →
    updateLoop src T pos (marks true offset pieces) ⟨s.1, s.2, o, none⟩ =
      .done () ⟨t.1, t.2, offset + pos + (pieceBytes pieces).length, none⟩

/-- An entry of the pieces is of a kind that is not supported. -/
def Refuses (src : Bytes) (T : DataTypes) (pieces : List Piece) (s : NetworkMessage × Nat) : Prop :=
  ∀ pos offset o : Nat, At src (offset + pos) (pieceBytes pieces) → ∃ u : NwUpdate,
    updateLoop src T pos (marks true offset pieces) ⟨s.1, s.2, o, none⟩ = .fail badNotSupported u

theorem IsPlain.updates (h : IsPlain pieces) : Updates src T pieces s s := by
  intro pos offset o _
  rw [h.marks]
  exact ⟨o, rfl⟩

theorem UpdatesTo.updates (h : UpdatesTo src T pieces s t) : Updates src T pieces s t :=
  fun pos offset o hat => ⟨_, h pos offset o hat⟩

theorem Updates.append (ha : Updates src T as s t) (hb : Updates src T bs t u) :
    Updates src T (as ++ bs) s u := by
  intro pos offset o hat
  rw [pieceBytes_append, at_append, Nat.add_right_comm] at hat
  obtain ⟨o₁, hrun⟩ := ha pos offset o hat.1
  rw [marks_append, updateLoop_append, bind_done hrun]
  exact hb pos _ o₁ hat.2

theorem Updates.appendTo (ha : Updates src T as s t) (hb : UpdatesTo src T bs t u) :
    UpdatesTo src T (as ++ bs) s u := by
  intro pos offset o hat
  rw [pieceBytes_append, at_append, Nat.add_right_comm] at hat
  obtain ⟨o₁, hrun⟩ := ha pos offset o hat.1
  rw [marks_append, updateLoop_append, bind_done hrun, hb pos _ o₁ hat.2, pieceBytes_append,
    List.length_append]
  exact congrArg (fun o' => Outcome.done () (NwUpdate.mk u.1 u.2 o' none)) (by omega)

/-- Pieces behind the last entry, which have no bytes. -/
theorem UpdatesTo.appendPlain (ha : UpdatesTo src T as s t) (hb : IsPlain bs)
    (hnil : pieceBytes bs = []) : UpdatesTo src T (as ++ bs) s t := by
  intro pos offset o hat
  rw [pieceBytes_append, hnil, List.append_nil] at hat ⊢
  rw [marks_append, hb.marks, List.append_nil]
  exact ha pos offset o hat

theorem Updates.ite {c : Bool} (h : c = true → Updates src T pieces s t)
    (hsame : c = false → s = t) : Updates src T (if c then pieces else []) s t := by
  cases c with
  | true => exact h rfl
  | false => exact hsame rfl ▸ isPlain_nil.updates

theorem Updates.refuses (ha : Updates src T as s t) (hb : Refuses src T bs t) :
    Refuses src T (as ++ bs) s := by
  intro pos offset o hat
  rw [pieceBytes_append, at_append, Nat.add_right_comm] at hat
  obtain ⟨o₁, hrun⟩ := ha pos offset o hat.1
  rw [marks_append, updateLoop_append, bind_done hrun]
  exact hb pos _ o₁ hat.2

theorem Refuses.append (ha : Refuses src T as s) (bs : List Piece) :
    Refuses src T (as ++ bs) s := by
  intro pos offset o hat
  rw [pieceBytes_append, at_append] at hat
  obtain ⟨u, hrun⟩ := ha pos offset o hat.1
  rw [marks_append, updateLoop_append, bind_fail hrun]
  exact ⟨u, rfl⟩

/-- The loop over one entry. -/
theorem updateLoop_item {contentType : NetworkMessageOffsetType} {source : OffsetSource}
    {bs : Bytes} (pos offset o : Nat) (nm : NetworkMessage) (j : Nat) :
    updateLoop src T pos (marks true offset [⟨some (contentType, source), bs⟩]) ⟨nm, j, o, none⟩ =
      updateContent src T contentType ⟨nm, j, offset + pos, none⟩ := by
  have hmark : marks true offset [⟨some (contentType, source), bs⟩] =
      [⟨contentType, offset, source⟩] := by
    simp only [marks, Piece.mark, Bool.not_true, Bool.and_false, Bool.false_eq_true, if_false,
      List.append_nil]
  have hpure : ∀ x : NwUpdating, (x >>= fun _ => pure ()) = x := by
    intro x
    funext s
    rw [bind_run]
    cases x s <;> rfl
  rw [hmark, updateLoop, updateLoop, hpure]
  rfl

theorem updatesTo_item {contentType : NetworkMessageOffsetType} {source : OffsetSource}
    {bs : Bytes} (h : ∀ p, At src p bs → updateContent src T contentType ⟨s.1, s.2, p, none⟩ =
      .done () ⟨t.1, t.2, p + bs.length, none⟩) :
    UpdatesTo src T [⟨some (contentType, source), bs⟩] s t := by
  intro pos offset o hat
  rw [pieceBytes_cons, pieceBytes_nil, List.append_nil] at hat ⊢
  rw [updateLoop_item, h _ hat]

theorem refuses_item {contentType : NetworkMessageOffsetType} {source : OffsetSource}
    {bs : Bytes} (h : ∀ p, updateContent src T contentType ⟨s.1, s.2, p, none⟩ =
      .fail badNotSupported ⟨s.1, s.2, p, none⟩) :
    Refuses src T [⟨some (contentType, source), bs⟩] s := by
  intro pos offset o _
  rw [updateLoop_item, h]
  exact ⟨_, rfl⟩

end Judgements

end OpenPubSub
