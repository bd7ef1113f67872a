import OpenPubSub.Lib.Completes
import OpenPubSub.NetworkMessage.EncodeLayout

/-!
# The publisher's fast path

`UA_NetworkMessage_updateBufferedMessage` does not encode the next message as a whole. The
buffer holds the last one, and the items the offset table has entries for are written over it.

- `OffsetSource.value?` follows the pointer of an entry into the message as it is now.
- `updateBufferedItem` is one iteration, `updateBufferedLoop` the loop. `rv` is that of the last
  iteration.
- `Rewrites rt as bs ok`: where the pieces `as` stand, the loop over their entries leaves the
  pieces `bs`, if the entries are supported (`ok`).
-/

namespace OpenPubSub

open Routine Writer

/-! ## The function -/

/-- The object that a pointer to the data of a Variant leads to: of an array, the first
element. -/
def Value.asScalar : Value → Value
  | .array (x :: _) => x
  | v => v

/-- `UA_Variant_setScalar` into a fresh Variant, with the data pointer of another one. -/
def variantSetScalar (data : Value) (type : Option DataTypeRef) : Variant :=
  ⟨type, data.asScalar, none⟩

/-- `UA_DataValue_new` around such a Variant. -/
def dataValueSetScalar (data : Value) (type : Option DataTypeRef) : DataValue :=
  { (default : DataValue) with value := variantSetScalar data type }

namespace NetworkMessage

variable (p : NetworkMessage)

/-- `dataSetMessages[i]`, if it exists. -/
def message? (i : Nat) : Option DataSetMessage := (p.payload.dataSetMessages.getD [])[i]?

/-- `dataSetMessages[i].data.keyFrameData.dataSetFields[j]`, if it exists. -/
def keyField? (i j : Nat) : Option DataValue :=
  (p.message? i).bind fun d => (d.dataSetFields.getD [])[j]?

end NetworkMessage

/-- `offsetData.value.value`, for an entry that points into `p`. -/
def OffsetSource.value? (p : NetworkMessage) (source : OffsetSource) : Option DataValue :=
  match source with
  | .none => Option.none
  | .sequenceNumber =>
    some (dataValueSetScalar (.uint16 p.groupHeader.sequenceNumber)
      (some (DataTypes.builtin .uint16)))
  | .dataSetMessageSequenceNr i => (p.message? i).map fun d =>
    dataValueSetScalar (.uint16 d.header.dataSetMessageSequenceNr)
      (some (DataTypes.builtin .uint16))
  | .fieldData i j type => (p.keyField? i j).map fun f => dataValueSetScalar f.value.data type
  | .dataSetFields i => p.keyField? i 0

/-- Encode what the entry points to; a pointer that leads nowhere is a `fault`. -/
def encodeSource (p : NetworkMessage) (source : OffsetSource) (f : DataValue → Enc) : Enc :=
  match source.value? p with
  | some d => f d
  | none => fault

/-- `UA_UInt16_encodeBinary((UA_UInt16*)offsetData.value.value->value.data, …)` -/
def dataUInt16EncodeBinary (d : DataValue) : Enc :=
  match d.value.data with
  | .uint16 v => uaUInt16EncodeBinary v
  | _ => fault

/-- The buffer and the status. -/
structure MessageUpdate where
  buffer : Bytes
  rv : Option ErrorCode

/-- One iteration. -/
abbrev MessageUpdating := Routine ErrorCode MessageUpdate Unit

/-- `bufPos = &buffer->buffer.data[offset]; rv = x(…, &bufPos, bufEnd)` -/
def rewriteAt (offset : Nat) (x : Enc) : MessageUpdating := fun s =>
  match x ⟨s.buffer, offset⟩ with
  | .done _ t => .done () ⟨t.bytes, none⟩
  | .fail e t => .done () ⟨t.bytes, some e⟩
  | .fault => .fault

section

variable (T : DataTypes) (p : NetworkMessage)

/-- The encoder the switch has for the entry, if it has one. -/
def offsetEncodeBinary? (e : NetworkMessageOffset) : Option Enc :=
  match e.contentType with
  | .dataSetMessageSequenceNumber => some (encodeSource p e.source dataUInt16EncodeBinary)
  | .networkMessageSequenceNumber => some (encodeSource p e.source dataUInt16EncodeBinary)
  | .payloadDataValue => some (encodeSource p e.source (uaDataValueEncodeBinary T))
  | .payloadVariant => some (encodeSource p e.source fun d => uaVariantEncodeBinary T d.value)
  | _ => none

/-- The body of the loop. -/
def updateBufferedItem (e : NetworkMessageOffset) : MessageUpdating :=
  match offsetEncodeBinary? T p e with
  | some x => rewriteAt e.offset x
  | none => fail badNotSupported

/-- The loop over the table. -/
def updateBufferedLoop : List NetworkMessageOffset → MessageUpdating
  | [] => pure ()
  | e :: es => do
    updateBufferedItem T p e
    updateBufferedLoop es

/-- `UA_NetworkMessage_updateBufferedMessage`, where the entries of the table point into `p`. -/
def networkMessageUpdateBufferedMessage (offsets : List NetworkMessageOffset) :
    Routine ErrorCode Bytes Unit := fun buffer =>
  match updateBufferedLoop T p offsets ⟨buffer, none⟩ with
  | .done _ s =>
    match s.rv with
    | none => .done () s.buffer
    | some e => .fail e s.buffer
  | .fail e s => .fail e s.buffer
  | .fault => .fault

/-- What the entry points to stands in the buffer, where the entry says. -/
def NetworkMessageOffset.UpToDate (buffer : Bytes) (e : NetworkMessageOffset) : Prop :=
  ∃ x bs, offsetEncodeBinary? T p e = some x ∧ Completes bs x ∧ At buffer e.offset bs

end

/-! ## The loop over the entries of pieces -/

section Judgement

variable {T : DataTypes} {p : NetworkMessage} {rt : Bool} {as bs cs ds : List Piece} {a b : Prop}

theorem updateBufferedLoop_append (es es' : List NetworkMessageOffset) :
    updateBufferedLoop T p (es ++ es') =
      (updateBufferedLoop T p es >>= fun _ => updateBufferedLoop T p es') := by
  induction es with
  | nil => rfl
  | cons e es ih => rw [List.cons_append, updateBufferedLoop, updateBufferedLoop, ih, bind_assoc]

/-- Between `before` and `behind`, the pieces `as` become the pieces `bs`. Entries that are not
supported end the loop. -/
structure Rewrites (T : DataTypes) (p : NetworkMessage) (rt : Bool) (as bs : List Piece)
    (ok : Prop) : Prop where
  length : (pieceBytes bs).length = (pieceBytes as).length
  table : ∀ offset, marks rt offset bs = marks rt offset as
  done : ok → ∀ before behind : Bytes,
    updateBufferedLoop T p (marks rt before.length as)
        ⟨before ++ (pieceBytes as ++ behind), none⟩ =
      .done () ⟨before ++ (pieceBytes bs ++ behind), none⟩
  stop : ¬ ok → ∀ before behind : Bytes, ∃ s,
    updateBufferedLoop T p (marks rt before.length as)
        ⟨before ++ (pieceBytes as ++ behind), none⟩ = .fail badNotSupported s
  upToDate : ok → ∀ (buffer : Bytes) (offset : Nat), At buffer offset (pieceBytes bs) →
    ∀ e ∈ marks rt offset as, e.UpToDate T p buffer

theorem Rewrites.congr (h : Rewrites T p rt as bs a) (hab : a ↔ b) : Rewrites T p rt as bs b :=
  propext hab ▸ h

/-- Bytes without entries stay. -/
theorem IsPlain.rewrites (h : IsPlain as) : Rewrites T p rt as as True where
  length := rfl
  table _ := rfl
  done _ before behind := by
    rw [h.marks]
    rfl
  stop hno := absurd trivial hno
  upToDate _ buffer offset _ e he := by
    rw [h.marks] at he
    cases he

theorem Rewrites.append (hab : Rewrites T p rt as bs a) (hcd : Rewrites T p rt cs ds b) :
    Rewrites T p rt (as ++ cs) (bs ++ ds) (a ∧ b) where
  length := by rw [pieceBytes_append, pieceBytes_append, List.length_append, List.length_append,
    hab.length, hcd.length]
  table offset := by rw [marks_append, marks_append, hab.table, hab.length, hcd.table]
  done h before behind := by
    have hfirst := hab.done h.1 before (pieceBytes cs ++ behind)
    have hsecond := hcd.done h.2 (before ++ pieceBytes bs) behind
    simp only [List.length_append, hab.length, List.append_assoc] at hsecond
    simp only [pieceBytes_append, marks_append, updateBufferedLoop_append, List.append_assoc]
    rw [bind_done hfirst, hsecond]
  stop h before behind := by
    simp only [pieceBytes_append, marks_append, updateBufferedLoop_append, List.append_assoc]
    by_cases ha : a
    · -- the first pieces are supported, so the loop comes to the second ones
      have hfirst := hab.done ha before (pieceBytes cs ++ behind)
      obtain ⟨s, hsecond⟩ := hcd.stop (fun hb => h ⟨ha, hb⟩) (before ++ pieceBytes bs) behind
      simp only [List.length_append, hab.length, List.append_assoc] at hsecond
      exact ⟨s, by rw [bind_done hfirst, hsecond]⟩
    · obtain ⟨s, hfirst⟩ := hab.stop ha before (pieceBytes cs ++ behind)
      exact ⟨s, by rw [bind_fail hfirst]⟩
  upToDate h buffer offset hat e he := by
    rw [pieceBytes_append, at_append] at hat
    rw [marks_append] at he
    rcases List.mem_append.mp he with he | he
    · exact hab.upToDate h.1 buffer offset hat.1 e he
    · rw [hab.length] at hat
      exact hcd.upToDate h.2 buffer _ hat.2 e he

theorem Rewrites.ite {c : Bool} (h : c = true → Rewrites T p rt as bs a) :
    Rewrites T p rt (if c then as else []) (if c then bs else []) (c = true → a) := by
  cases c with
  | true => exact (h rfl).congr (by simp)
  | false => exact isPlain_nil.rewrites.congr (by simp)

/-- The loop over a single entry. -/
theorem updateBufferedLoop_singleton (e : NetworkMessageOffset) :
    updateBufferedLoop T p [e] = updateBufferedItem T p e := by
  funext s
  rw [updateBufferedLoop, updateBufferedLoop, bind_run]
  cases updateBufferedItem T p e s <;> rfl

/-- Bytes in the middle are overwritten. -/
theorem rewriteAt_middle {x : Enc} {out old : Bytes} (hx : Completes out x)
    (hlen : out.length = old.length) (before behind : Bytes) (rv : Option ErrorCode) :
    rewriteAt before.length x ⟨before ++ (old ++ behind), rv⟩ =
      .done () ⟨before ++ (out ++ behind), none⟩ := by
  have hvalid : (⟨before ++ (old ++ behind), before.length⟩ : Buffer).Valid := by
    rw [Buffer.Valid, List.length_append]
    exact Nat.le_add_right _ _
  have hroom : out.length ≤ (⟨before ++ (old ++ behind), before.length⟩ : Buffer).room := by
    show out.length ≤ (before ++ (old ++ behind)).length - before.length
    rw [List.length_append, List.length_append]
    omega
  have hbytes : splice (before ++ (old ++ behind)) before.length out =
      before ++ (out ++ behind) := by
    rw [splice, hlen, List.take_left, ← List.drop_drop, List.drop_left, List.drop_left,
      List.append_assoc]
  rw [rewriteAt, hx _ hvalid hroom, Buffer.write, hbytes]

/-- An entry that the switch has an encoder for. -/
theorem rewrites_item {contentType : NetworkMessageOffsetType} {source : OffsetSource}
    {old out : Bytes} {x : Enc}
    (hkind : contentType.forSubscriber = false)
    (hentry : ∀ offset, offsetEncodeBinary? T p ⟨contentType, offset, source⟩ = some x)
    (hx : Completes out x) (hlen : out.length = old.length) :
    Rewrites T p rt [⟨some (contentType, source), old⟩] [⟨some (contentType, source), out⟩]
      True := by
  have hmark : ∀ offset bytes, marks rt offset [⟨some (contentType, source), bytes⟩] =
      [⟨contentType, offset, source⟩] := by
    intro offset bytes
    simp only [marks, Piece.mark, hkind, Bool.false_and, Bool.false_eq_true, if_false,
      List.append_nil]
  refine ⟨by simpa using hlen, fun offset => by rw [hmark, hmark], fun _ before behind => ?_,
    fun hno => absurd trivial hno, fun _ buffer offset hat e he => ?_⟩
  · simp only [hmark, updateBufferedLoop_singleton, updateBufferedItem, hentry, pieceBytes_cons,
      pieceBytes_nil, List.append_nil]
    exact rewriteAt_middle hx hlen before behind none
  · rw [hmark] at he
    obtain rfl := List.mem_singleton.mp he
    rw [pieceBytes_cons, pieceBytes_nil, List.append_nil] at hat
    exact ⟨x, out, hentry offset, hx, hat⟩

/-- An entry that the switch has no encoder for, in the tables of everybody or only in those of
subscribers. -/
theorem rewrites_unsupported {contentType : NetworkMessageOffsetType} {source : OffsetSource}
    {bytes : Bytes}
    (hentry : ∀ offset, offsetEncodeBinary? T p ⟨contentType, offset, source⟩ = none) :
    Rewrites T p rt [⟨some (contentType, source), bytes⟩] [⟨some (contentType, source), bytes⟩]
      (contentType.forSubscriber = true ∧ rt = false) := by
  by_cases hok : contentType.forSubscriber = true ∧ rt = false
  · have hmark : ∀ offset, marks rt offset [⟨some (contentType, source), bytes⟩] = [] := by
      intro offset
      simp only [marks, Piece.mark, hok.1, hok.2, Bool.not_false, Bool.and_self, if_true,
        List.append_nil]
    refine ⟨rfl, fun _ => rfl, fun _ before behind => ?_, fun hno => absurd hok hno,
      fun _ _ offset _ e he => ?_⟩
    · rw [hmark]
      rfl
    · rw [hmark] at he
      cases he
  · have hmark : ∀ offset, marks rt offset [⟨some (contentType, source), bytes⟩] =
        [⟨contentType, offset, source⟩] := by
      intro offset
      have hkind : (contentType.forSubscriber && !rt) = false := by
        cases rt <;> simp_all
      simp only [marks, Piece.mark, hkind, Bool.false_eq_true, if_false, List.append_nil]
    refine ⟨rfl, fun _ => rfl, fun h => absurd h hok, fun _ before behind => ?_,
      fun h => absurd h hok⟩
    simp only [hmark, updateBufferedLoop_singleton, updateBufferedItem, hentry]
    exact ⟨_, rfl⟩

/-- Arrays of one length, whose elements become one another. The induction is on the arrays;
`n` is the index of their first elements. -/
theorem rewrites_zipIdx {α : Type} {xs ys : List α} {piece piece' : Nat → α → List Piece} (n : Nat)
    (hlen : ys.length = xs.length)
    (h : ∀ i x y, xs[i]? = some x → ys[i]? = some y →
      Rewrites T p rt (piece (n + i) x) (piece' (n + i) y) True) :
    Rewrites T p rt ((xs.zipIdx n).flatMap fun q => piece q.2 q.1)
      ((ys.zipIdx n).flatMap fun q => piece' q.2 q.1) True := by
  induction xs generalizing ys n with
  | nil =>
    rw [List.length_eq_zero_iff.mp hlen]
    exact isPlain_nil.rewrites
  | cons x xs ih =>
    obtain ⟨y, ys, rfl⟩ := List.exists_cons_of_length_eq_add_one hlen
    have hfirst := h 0 x y rfl rfl
    have hrest := ih (n + 1) (Nat.succ.inj hlen) fun i x' y' hx hy => by
      rw [Nat.add_assoc, Nat.add_comm 1]
      exact h (i + 1) x' y' hx hy
    rw [List.zipIdx_cons, List.zipIdx_cons, List.flatMap_cons, List.flatMap_cons]
    exact (hfirst.append hrest).congr (and_self_iff)

end Judgement

end OpenPubSub
