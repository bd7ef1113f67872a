import OpenPubSub.Lib.Fill
import OpenPubSub.NetworkMessage.DecodeBounds

/-!
# DataSetMessages as they lie in a datagram

A view of the payload that is computed from the bytes alone, one position after the
other, and what the decoder makes of it.

- A `Frame` is the header of a DataSetMessage, its field count, and the positions at
  which its field values begin. `frameAt` reads the frame at a position and `frames`
  lists those of a datagram, up to and including the first one that cannot be
  decoded.
- `Frame.Describes` and `Frame.Interrupted` relate a frame to the DataSetMessage
  that a successful and a failing decoder leave.
- **`dataSetMessageDecodeBinary_layout`**: every outcome of the DataSetMessage
  decoder is one of the two.
-/

namespace OpenPubSub

open Routine

/-! ## The view -/

/-- The encodings for which the decoder knows how to read fields. -/
def FieldEncoding.hasValues : FieldEncoding → Bool
  | .variant | .dataValue => true
  | _ => false

/-- Key frames and delta frames count their fields, unless these are raw. -/
def DataSetMessageHeader.hasFieldCount (h : DataSetMessageHeader) : Bool :=
  (h.dataSetMessageType == .dataKeyFrame || h.dataSetMessageType == .dataDeltaFrame) &&
    h.fieldEncoding != .rawData

/-- A DataSetMessage as it lies in the datagram. -/
structure Frame where
  header : DataSetMessageHeader
  fieldCount : UInt16
  valueStarts : List Nat
  deriving DecidableEq, Inhabited

namespace Frame

/-- The frame lists fields that are read one by one. -/
def hasValues (f : Frame) : Bool := f.header.hasFieldCount && f.header.fieldEncoding.hasValues

def isKeyFrame (f : Frame) : Bool := f.header.dataSetMessageType == .dataKeyFrame

def isDeltaFrame (f : Frame) : Bool := f.header.dataSetMessageType == .dataDeltaFrame

/-- Fields are announced in an encoding that has no meaning. -/
def isReserved (f : Frame) : Bool :=
  f.header.hasFieldCount && f.header.fieldEncoding == .reserved && f.fieldCount != 0

/-- If the fields are those of a delta frame, the value of each one is reached. -/
def ValuesReached (f : Frame) : Prop :=
  f.isDeltaFrame = true → f.hasValues = true → f.valueStarts.length = f.fieldCount.toNat

instance (f : Frame) : Decidable f.ValuesReached :=
  inferInstanceAs (Decidable (_ → _ → _))

end Frame

variable (src : Bytes) (T : DataTypes)

/-- A field value in the given encoding. A Variant is what a DataValue holds. -/
def fieldValueDecodeBinary : FieldEncoding → Routine ErrorCode Nat DataValue
  | .variant =>
    (fun v => { (default : DataValue) with value := v, hasValue := true }) <$>
      uaVariantDecodeBinary src T
  | .dataValue => uaDataValueDecodeBinary src T
  | _ => fail badNotImplemented

/-- What precedes a field value: the field index in a delta frame. -/
def fieldLead : DataSetMessageType → Routine ErrorCode Nat Unit
  | .dataDeltaFrame => (fun _ => ()) <$> uaUInt16DecodeBinary src
  | _ => pure ()

/-- Where the `n` field values behind a header begin, the first field being at `p`. -/
def fieldValueStarts (h : DataSetMessageHeader) (n : UInt16) (p : Nat) : List Nat :=
  starts (fieldLead src h.dataSetMessageType) (fieldValueDecodeBinary src T h.fieldEncoding)
    n.toNat p

/-- What follows a header at `p`. -/
def frameAfter (h : DataSetMessageHeader) (p : Nat) : Frame :=
  if h.hasFieldCount then
    match uaUInt16DecodeBinary src p with
    | .done n q => ⟨h, n, fieldValueStarts src T h n q⟩
    | _ => ⟨h, 0, []⟩
  else ⟨h, 0, []⟩

/-- The frame at `p`. -/
def frameAt (p : Nat) : Frame :=
  match dataSetMessageHeaderDecodeBinary src ⟨p, default⟩ with
  | .done _ s => frameAfter src T s.dst s.offset
  | _ => default

/-- A DataSetMessage on its own. -/
def uaDataSetMessageDecodeBinary : Routine ErrorCode Nat DataSetMessage := fun p =>
  match dataSetMessageDecodeBinary src T ⟨p, default⟩ with
  | .done _ s => .done s.dst s.offset
  | .fail e s => .fail e s.offset
  | .fault => .fault

/-- Where the DataSetMessages of the datagram begin, the NetworkMessage being at
`offset`. -/
def frameStarts (offset : Nat) : List Nat :=
  match (headersDecodeBinary src T >>= fun _ => sizesDecodeBinary src) ⟨offset, default⟩ with
  | .done _ s =>
    if s.dst.networkMessageType = .dataSet then
      starts (pure ()) (uaDataSetMessageDecodeBinary src T) s.dst.dataSetMessageCount s.offset
    else []
  | _ => []

/-- The DataSetMessages of the datagram. -/
def frames (offset : Nat) : List Frame := (frameStarts src T offset).map (frameAt src T)

/-! ## What the decoder makes of a frame -/

/-- `v` is the field value at `p`. -/
def Frame.Reads (f : Frame) (p : Nat) (v : DataValue) : Prop :=
  ∃ q, fieldValueDecodeBinary src T f.header.fieldEncoding p = .done v q

/-- The decoder read the frame `f` as this message. -/
inductive Frame.Describes (f : Frame) : DataSetMessage → Prop where
  | keyFrame {vs : List DataValue} (type : f.isKeyFrame = true) (values : f.hasValues = true)
      (count : f.valueStarts.length = f.fieldCount.toNat)
      (reads : List.Forall₂ (f.Reads src T) f.valueStarts vs) :
      Describes f ⟨f.header, f.fieldCount, some vs, none, none⟩
  | deltaFrame {fs : List DeltaFrameField} (type : f.isDeltaFrame = true)
      (values : f.hasValues = true) (count : f.valueStarts.length = f.fieldCount.toNat)
      (length : fs.length = f.fieldCount.toNat)
      (initialised : ∀ x ∈ fs, x.fieldValue.isInit = true) :
      Describes f ⟨f.header, f.fieldCount, none, none, some fs⟩
  | bare (values : f.hasValues = false) (count : f.fieldCount ≠ 0 → f.isReserved = true) :
      Describes f ⟨f.header, f.fieldCount, none, none, none⟩

/-- The decoder failed on the frame `f` and left this message. -/
inductive Frame.Interrupted (f : Frame) : DataSetMessage → Prop where
  | keyFrame {vs : List DataValue} (type : f.isKeyFrame = true)
      (length : vs.length = f.fieldCount.toNat) :
      Interrupted f ⟨f.header, f.fieldCount, some vs, none, none⟩
  | deltaFrame {fs : List DeltaFrameField} (type : f.isDeltaFrame = true)
      (values : f.hasValues = true) (length : fs.length = f.fieldCount.toNat)
      (initialised : (∀ x ∈ fs, x.fieldValue.isInit = true) ↔
        f.valueStarts.length = f.fieldCount.toNat) :
      Interrupted f ⟨f.header, f.fieldCount, none, none, some fs⟩
  | bare {h : DataSetMessageHeader} (count : f.fieldCount = 0) (starts : f.valueStarts = []) :
      Interrupted f ⟨h, 0, none, none, none⟩

/-! ## Calls that end regularly -/

section

variable {src T} {M α : Type}

/-- `x` ends regularly, and a failure leaves the offset. -/
def Regular {α : Type} (x : Routine ErrorCode Nat α) : Prop :=
  ∀ o, (x o).Sat (fun _ _ => True) (fun _ o' => o' = o)

theorem Moves.regular_ua {I : Prop} {k : Nat} {x : Dec α} (hx : Moves I src (decodeFuel src) k x) :
    Regular (uaDecodeBinary x) := fun o =>
  (uaDecodeBinary_moves hx o).imp (fun _ _ _ => trivial) fun _ _ h => h

/-- The two outcomes of a call that decodes into a member. -/
theorem Regular.decodeInto_sat [Inhabited α] {x : Routine ErrorCode Nat α} (hx : Regular x)
    {put : α → M → M} {s : Decoding M} {Q : Unit → Decoding M → Prop}
    {E : ErrorCode → Decoding M → Prop}
    (hQ : ∀ a r, x s.offset = .done a r → Q () ⟨r, put a s.dst⟩)
    (hE : ∀ e, x s.offset = .fail e s.offset → E e ⟨s.offset, put default s.dst⟩) :
    (decodeInto x put s).Sat Q E := by
  have h := hx s.offset
  unfold decodeInto
  cases hrun : x s.offset with
  | done a r => exact hQ a r hrun
  | fail e o =>
    rw [hrun] at h
    obtain rfl : o = s.offset := h
    exact hE e hrun
  | fault =>
    rw [hrun] at h
    exact h

theorem uaUInt16DecodeBinary_regular : Regular (uaUInt16DecodeBinary src) :=
  (uint16DecodeBinary_moves (I := True)).regular_ua

theorem uaVariantDecodeBinary_regular : Regular (uaVariantDecodeBinary src T) :=
  uaVariant_moves.regular_ua

theorem uaDataValueDecodeBinary_regular : Regular (uaDataValueDecodeBinary src T) :=
  uaDataValue_moves.regular_ua

end

/-! ## The field loops -/

section

variable {src T}

theorem modify_eq_set_of_getElem? {β : Type} {f : β → β} {bs : List β} {i : Nat} {b : β}
    (h : bs[i]? = some b) : bs.modify i f = bs.set i (f b) := by
  have : Inhabited β := ⟨b⟩
  rw [List.modify_eq_set, h, Option.getD_some]

theorem set_of_getElem? {β : Type} {bs : List β} {i : Nat} {b c : β} (h : bs[i]? = some b) :
    (bs.set i c)[i]? = some c := by
  obtain ⟨hlt, -⟩ := List.getElem?_eq_some_iff.mp h
  simp [hlt]

/-- The state of a key frame loop. -/
def keyFrameState (d : DataSetMessage) (p : Nat) (vs : List DataValue) : Decoding DataSetMessage :=
  ⟨p, { d with dataSetFields := some vs }⟩

/-- The state of a delta frame loop. -/
def deltaFrameState (d : DataSetMessage) (p : Nat) (fs : List DeltaFrameField) :
    Decoding DataSetMessage :=
  ⟨p, { d with deltaFrameFields := some fs }⟩

theorem assign_onField {d : DataSetMessage} {p i : Nat} {vs : List DataValue} {v : DataValue}
    {f : DataValue → DataValue} (h : vs[i]? = some v) :
    assign (·.onField i f) (keyFrameState d p vs) =
      .done () (keyFrameState d p (vs.set i (f v))) := by
  show Outcome.done () _ = _
  rw [← modify_eq_set_of_getElem? h]
  rfl

theorem keyFrameVariantDecodeBinary_fills (d : DataSetMessage) :
    Fills (pure ()) (fieldValueDecodeBinary src T .variant) (keyFrameState d) default
      (fun p v => ∃ q, fieldValueDecodeBinary src T .variant p = .done v q)
      (fun _ _ => True) (fun _ => False) (keyFrameVariantDecodeBinary src T) := by
  intro i vs p hi
  unfold keyFrameVariantDecodeBinary
  rw [bind_done (assign_onField hi)]
  have hi' : (vs.set i default)[i]? = some (default : DataValue) := set_of_getElem? hi
  refine bind_sat (Q := fun _ t => ∃ v r, uaVariantDecodeBinary src T p = .done v r ∧
    t = keyFrameState d r (vs.set i { (default : DataValue) with value := v })) ?_ ?_
  · refine uaVariantDecodeBinary_regular.decodeInto_sat (fun v r hv => ⟨v, r, hv, ?_⟩) ?_
    · show keyFrameState d r ((vs.set i default).modify i _) = _
      rw [modify_eq_set_of_getElem? hi', List.set_set]
    · intro e he
      refine ⟨p, { (default : DataValue) with value := default }, ?_,
        .inl ⟨p, e, p, rfl, ?_, trivial⟩⟩
      · show keyFrameState d p ((vs.set i default).modify i _) = _
        rw [modify_eq_set_of_getElem? hi', List.set_set]
      · show (_ <$> uaVariantDecodeBinary src T) p = _
        exact bind_fail he
  · rintro _ _ ⟨v, r, hv, rfl⟩
    rw [assign_onField (set_of_getElem? hi), List.set_set]
    have hread : fieldValueDecodeBinary src T .variant p =
        .done { (default : DataValue) with value := v, hasValue := true } r := map_done hv
    exact ⟨p, r, _, _, rfl, hread, rfl, r, hread⟩

theorem keyFrameDataValueDecodeBinary_fills (d : DataSetMessage) :
    Fills (pure ()) (fieldValueDecodeBinary src T .dataValue) (keyFrameState d) default
      (fun p v => ∃ q, fieldValueDecodeBinary src T .dataValue p = .done v q)
      (fun _ _ => True) (fun _ => False) (keyFrameDataValueDecodeBinary src T) := by
  intro i vs p hi
  refine uaDataValueDecodeBinary_regular.decodeInto_sat (fun v r hv => ?_) fun e he => ?_
  · refine ⟨p, r, v, v, rfl, hv, ?_, r, hv⟩
    show keyFrameState d r (vs.modify i _) = _
    rw [modify_eq_set_of_getElem? hi]
  · refine ⟨p, default, ?_, .inl ⟨p, e, p, rfl, he, trivial⟩⟩
    show keyFrameState d p (vs.modify i _) = _
    rw [modify_eq_set_of_getElem? hi]

/-- The field index that precedes a value. -/
theorem deltaFrameIndexDecodeBinary_sat {d : DataSetMessage} {p i : Nat}
    {fs : List DeltaFrameField} (hi : fs[i]? = some .uninit) :
    (deltaFrameIndexDecodeBinary src i (deltaFrameState d p fs)).Sat
      (fun _ t => ∃ k q, fieldLead src .dataDeltaFrame p = .done () q ∧
        t = deltaFrameState d q (fs.set i ⟨.init k, .uninit⟩))
      (fun _ t => ∃ o b, t = deltaFrameState d o (fs.set i b) ∧
        (∃ e q, fieldLead src .dataDeltaFrame p = .fail e q) ∧ b.fieldValue.isInit = false) := by
  refine uaUInt16DecodeBinary_regular.decodeInto_sat (fun k q hk => ?_) fun e he => ?_
  · refine ⟨k, q, map_done hk, ?_⟩
    show deltaFrameState d q (fs.modify i _) = _
    rw [modify_eq_set_of_getElem? hi]
    rfl
  · refine ⟨p, ⟨.init 0, .uninit⟩, ?_, ⟨e, p, bind_fail he⟩, rfl⟩
    show deltaFrameState d p (fs.modify i _) = _
    rw [modify_eq_set_of_getElem? hi]
    rfl

theorem assign_onDeltaField {d : DataSetMessage} {p i : Nat} {fs : List DeltaFrameField}
    {x : DeltaFrameField} {f : DeltaFrameField → DeltaFrameField} (h : fs[i]? = some x) :
    assign (·.onDeltaField i f) (deltaFrameState d p fs) =
      .done () (deltaFrameState d p (fs.set i (f x))) := by
  show Outcome.done () _ = _
  rw [← modify_eq_set_of_getElem? h]
  rfl

/-- What an iteration of the delta frame loops guarantees about the slot it fills. -/
abbrev deltaFrameFills (src : Bytes) (T : DataTypes) (encoding : FieldEncoding)
    (field : Nat → Decoder DataSetMessage Unit) (d : DataSetMessage) : Prop :=
  Fills (fieldLead src .dataDeltaFrame) (fieldValueDecodeBinary src T encoding)
    (deltaFrameState d) .uninit (fun _ x => x.fieldValue.isInit = true)
    (fun _ x => x.fieldValue.isInit = true) (fun x => x.fieldValue.isInit = false) field

theorem deltaFrameVariantDecodeBinary_fills (d : DataSetMessage) :
    deltaFrameFills src T .variant (deltaFrameVariantDecodeBinary src T) d := by
  intro i fs p hi
  refine bind_sat ((deltaFrameIndexDecodeBinary_sat hi).imp (fun _ _ h => h) ?_) ?_
  · -- no index: the value slot was never written
    rintro _ t ⟨o, b, rfl, hl, hb⟩
    exact ⟨o, b, rfl, .inr ⟨hl, hb⟩⟩
  · rintro _ _ ⟨k, q, hl, rfl⟩
    have hi' : (fs.set i ⟨.init k, .uninit⟩)[i]? = some ⟨.init k, .uninit⟩ := set_of_getElem? hi
    rw [bind_done (assign_onDeltaField hi'), List.set_set]
    refine bind_sat (Q := fun _ t => ∃ v r, uaVariantDecodeBinary src T q = .done v r ∧
      t = deltaFrameState d r
        (fs.set i ⟨.init k, .init { (default : DataValue) with value := v }⟩)) ?_ ?_
    · refine uaVariantDecodeBinary_regular.decodeInto_sat (fun v r hv => ⟨v, r, hv, ?_⟩) ?_
      · show deltaFrameState d r ((fs.set i _).modify i _) = _
        rw [modify_eq_set_of_getElem? (set_of_getElem? hi), List.set_set]
        rfl
      · -- the value slot was initialised before the Variant was decoded
        intro e he
        refine ⟨q, ⟨.init k, .init { (default : DataValue) with value := default }⟩, ?_,
          .inl ⟨q, e, q, hl, bind_fail he, rfl⟩⟩
        show deltaFrameState d q ((fs.set i _).modify i _) = _
        rw [modify_eq_set_of_getElem? (set_of_getElem? hi), List.set_set]
        rfl
    · rintro _ _ ⟨v, r, hv, rfl⟩
      rw [assign_onDeltaField (set_of_getElem? hi), List.set_set]
      exact ⟨q, r, _, _, hl, map_done hv, rfl, rfl⟩

theorem deltaFrameDataValueDecodeBinary_fills (d : DataSetMessage) :
    deltaFrameFills src T .dataValue (deltaFrameDataValueDecodeBinary src T) d := by
  intro i fs p hi
  refine bind_sat ((deltaFrameIndexDecodeBinary_sat hi).imp (fun _ _ h => h) ?_) ?_
  · rintro _ t ⟨o, b, rfl, hl, hb⟩
    exact ⟨o, b, rfl, .inr ⟨hl, hb⟩⟩
  · rintro _ _ ⟨k, q, hl, rfl⟩
    refine uaDataValueDecodeBinary_regular.decodeInto_sat (fun v r hv => ?_) fun e he => ?_
    · refine ⟨q, r, v, ⟨.init k, .init v⟩, hl, hv, ?_, rfl⟩
      show deltaFrameState d r ((fs.set i _).modify i _) = _
      rw [modify_eq_set_of_getElem? (set_of_getElem? hi), List.set_set]
    · refine ⟨q, ⟨.init k, .init default⟩, ?_, .inl ⟨q, e, q, hl, he, rfl⟩⟩
      show deltaFrameState d q ((fs.set i _).modify i _) = _
      rw [modify_eq_set_of_getElem? (set_of_getElem? hi), List.set_set]

/-! ## The data of the two frame types -/

/-- Behind a header at `p`, `h` is followed by `n` fields from `q` on. -/
theorem frameAfter_of_count {h : DataSetMessageHeader} {p q : Nat} {n : UInt16}
    (hh : h.hasFieldCount = true) (hn : uaUInt16DecodeBinary src p = .done n q) :
    frameAfter src T h p = ⟨h, n, fieldValueStarts src T h n q⟩ := by
  simp only [frameAfter, hh, if_true, hn]

theorem frameAfter_of_count_fail {h : DataSetMessageHeader} {p q : Nat} {e : ErrorCode}
    (hn : uaUInt16DecodeBinary src p = .fail e q) : frameAfter src T h p = ⟨h, 0, []⟩ := by
  unfold frameAfter
  split
  · rw [hn]
  · rfl

theorem frameAfter_of_no_count {h : DataSetMessageHeader} {p : Nat}
    (hh : h.hasFieldCount = false) : frameAfter src T h p = ⟨h, 0, []⟩ := by
  simp [frameAfter, hh]

/-- What a routine that decodes the data behind the header `h` at `p` leaves. -/
abbrev DataLayout (src : Bytes) (T : DataTypes) (h : DataSetMessageHeader) (p : Nat)
    (x : Decoder DataSetMessage Unit) : Prop :=
  (x ⟨p, ⟨h, 0, none, none, none⟩⟩).Sat
    (fun _ t => (frameAfter src T h p).Describes src T t.dst)
    (fun _ t => (frameAfter src T h p).Interrupted t.dst)

/-- Decode the count, then the fields. -/
theorem dataLayout_of_count {h : DataSetMessageHeader} {p : Nat}
    {x : Decoder DataSetMessage Unit} (hh : h.hasFieldCount = true)
    (hx : ∀ n q, uaUInt16DecodeBinary src p = .done n q →
      (x ⟨q, ⟨h, n, none, none, none⟩⟩).Sat
        (fun _ t => (Frame.mk h n (fieldValueStarts src T h n q)).Describes src T t.dst)
        (fun _ t => (Frame.mk h n (fieldValueStarts src T h n q)).Interrupted t.dst)) :
    DataLayout src T h p (decodeInto (uaUInt16DecodeBinary src)
      (fun v d => { d with fieldCount := v }) >>= fun _ => x) := by
  refine bind_sat (Q := fun _ t => ∃ n q, uaUInt16DecodeBinary src p = .done n q ∧
    t = ⟨q, ⟨h, n, none, none, none⟩⟩) ?_ ?_
  · refine uaUInt16DecodeBinary_regular.decodeInto_sat (fun n q hn => ⟨n, q, hn, rfl⟩)
      fun e he => ?_
    rw [frameAfter_of_count_fail he]
    exact .bare rfl rfl
  · rintro _ _ ⟨n, q, hn, rfl⟩
    rw [frameAfter_of_count hh hn]
    exact hx n q hn

/-- The fields of a key frame, from what one iteration does. -/
theorem keyFrameFieldsDecodeBinary_layout {h : DataSetMessageHeader} {n : UInt16} {q : Nat}
    {field : Nat → Decoder DataSetMessage Unit} (ht : h.dataSetMessageType = .dataKeyFrame)
    (he : h.fieldEncoding.hasValues = true)
    (hf : Fills (pure ()) (fieldValueDecodeBinary src T h.fieldEncoding)
      (keyFrameState ⟨h, n, none, none, none⟩) default
      (fun p v => ∃ q, fieldValueDecodeBinary src T h.fieldEncoding p = .done v q)
      (fun _ _ => True) (fun _ => False) field) :
    (keyFrameFieldsDecodeBinary field ⟨q, ⟨h, n, none, none, none⟩⟩).Sat
      (fun _ t => (Frame.mk h n (fieldValueStarts src T h n q)).Describes src T t.dst)
      (fun _ t => (Frame.mk h n (fieldValueStarts src T h n q)).Interrupted t.dst) := by
  have hstarts : fieldValueStarts src T h n q =
      starts (pure ()) (fieldValueDecodeBinary src T h.fieldEncoding) n.toNat q := by
    unfold fieldValueStarts
    rw [ht]
    rfl
  have hkey : (Frame.mk h n (fieldValueStarts src T h n q)).isKeyFrame = true := by
    simp [Frame.isKeyFrame, ht]
  refine (hf.loop n.toNat q).imp ?_ ?_
  · rintro _ t ⟨r, vs, rfl, hlen, hreads⟩
    rw [← hstarts] at hlen hreads
    refine .keyFrame hkey ?_ hlen hreads
    cases henc : h.fieldEncoding <;>
      simp_all [Frame.hasValues, DataSetMessageHeader.hasFieldCount, FieldEncoding.hasValues]
  · rintro _ t ⟨r, vs, rfl, S', done, b, k, rfl, hlen, -, -⟩
    exact .keyFrame hkey (by simp only [List.length_append, List.length_cons,
      List.length_replicate]; omega)

/-- The slots of a half filled array are initialised up to where a value was reached. -/
theorem initialised_of_halfFilled {S : List Nat} {n : Nat} {fs : List DeltaFrameField}
    (h : HalfFilled (fun _ x => x.fieldValue.isInit = true)
      (fun _ (x : DeltaFrameField) => x.fieldValue.isInit = true)
      (fun x => x.fieldValue.isInit = false) .uninit S n fs) :
    fs.length = n ∧ ((∀ x ∈ fs, x.fieldValue.isInit = true) ↔ S.length = n) := by
  obtain ⟨S', done, b, k, rfl, hlen, hdone, hcase⟩ := h
  have hS' : S'.length = done.length := hdone.length_eq
  have hinit : ∀ x ∈ done, x.fieldValue.isInit = true := by
    intro x hx
    clear hcase hlen hS'
    induction hdone with
    | nil => cases hx
    | cons hb _ ih =>
      rcases List.mem_cons.mp hx with rfl | hx
      · exact hb
      · exact ih hx
  refine ⟨by simp only [List.length_append, List.length_cons, List.length_replicate]; omega, ?_⟩
  rcases hcase with ⟨q, rfl, hb⟩ | ⟨rfl, hb⟩
  · rw [List.length_append, List.length_singleton]
    constructor
    · intro hall
      -- a blank slot would be one that is not initialised
      cases k with
      | zero => omega
      | succ k => exact absurd (hall .uninit (by simp [List.replicate_succ])) (by decide)
    · intro hS x hx
      obtain rfl : k = 0 := by omega
      rcases List.mem_append.mp hx with hx | hx
      · exact hinit x hx
      · rw [List.replicate_zero, List.mem_singleton] at hx
        rwa [hx]
  · refine ⟨fun hall => ?_, fun hS => by omega⟩
    have := hall b (by simp)
    rw [hb] at this
    cases this

theorem initialised_of_forall₂ {S : List Nat} {fs : List DeltaFrameField}
    (h : List.Forall₂ (fun _ x => x.fieldValue.isInit = true) S fs) :
    ∀ x ∈ fs, x.fieldValue.isInit = true := by
  induction h with
  | nil => simp
  | cons hb _ ih =>
    intro x hx
    rcases List.mem_cons.mp hx with rfl | hx
    · exact hb
    · exact ih x hx

/-- The fields of a delta frame, from what one iteration does. -/
theorem deltaFrameFieldsDecodeBinary_layout {h : DataSetMessageHeader} {n : UInt16} {q : Nat}
    {field : Nat → Decoder DataSetMessage Unit} (ht : h.dataSetMessageType = .dataDeltaFrame)
    (he : h.fieldEncoding.hasValues = true)
    (hf : deltaFrameFills src T h.fieldEncoding field ⟨h, n, none, none, none⟩) :
    (deltaFrameFieldsDecodeBinary field ⟨q, ⟨h, n, none, none, none⟩⟩).Sat
      (fun _ t => (Frame.mk h n (fieldValueStarts src T h n q)).Describes src T t.dst)
      (fun _ t => (Frame.mk h n (fieldValueStarts src T h n q)).Interrupted t.dst) := by
  have hstarts : fieldValueStarts src T h n q = starts (fieldLead src .dataDeltaFrame)
      (fieldValueDecodeBinary src T h.fieldEncoding) n.toNat q := by
    unfold fieldValueStarts
    rw [ht]
  have hdelta : (Frame.mk h n (fieldValueStarts src T h n q)).isDeltaFrame = true := by
    simp [Frame.isDeltaFrame, ht]
  have hvalues : (Frame.mk h n (fieldValueStarts src T h n q)).hasValues = true := by
    cases henc : h.fieldEncoding <;>
      simp_all [Frame.hasValues, DataSetMessageHeader.hasFieldCount, FieldEncoding.hasValues]
  refine (hf.loop n.toNat q).imp ?_ ?_
  · rintro _ t ⟨r, fs, rfl, hlen, hreads⟩
    rw [← hstarts] at hlen hreads
    exact .deltaFrame hdelta hvalues hlen (hreads.length_eq.symm.trans hlen)
      (initialised_of_forall₂ hreads)
  · rintro _ t ⟨r, fs, rfl, hhalf⟩
    rw [← hstarts] at hhalf
    obtain ⟨hlen, hinit⟩ := initialised_of_halfFilled hhalf
    exact .deltaFrame hdelta hvalues hlen hinit

theorem hasFieldCount_of_keyFrame {h : DataSetMessageHeader}
    (ht : h.dataSetMessageType = .dataKeyFrame) :
    h.hasFieldCount = (h.fieldEncoding != .rawData) := by
  simp [DataSetMessageHeader.hasFieldCount, ht]

theorem hasFieldCount_of_deltaFrame {h : DataSetMessageHeader}
    (ht : h.dataSetMessageType = .dataDeltaFrame) :
    h.hasFieldCount = (h.fieldEncoding != .rawData) := by
  simp [DataSetMessageHeader.hasFieldCount, ht]

/-- Without fields that can be read, no array is built. -/
theorem bare_sat {h : DataSetMessageHeader} {q : Nat} {n : UInt16} {S : List Nat}
    (hh : h.hasFieldCount = true) (he : h.fieldEncoding = .reserved) :
    ((pure () : Decoder DataSetMessage Unit) ⟨q, ⟨h, n, none, none, none⟩⟩).Sat
      (fun _ t => (Frame.mk h n S).Describes src T t.dst)
      (fun _ t => (Frame.mk h n S).Interrupted t.dst) := by
  refine .bare ?_ fun hn => ?_
  · simp [Frame.hasValues, he, FieldEncoding.hasValues]
  · simpa [Frame.isReserved, hh, he] using hn

/-- Raw fields are not counted, and nothing is read. -/
theorem dataLayout_rawData {h : DataSetMessageHeader} {p : Nat}
    (hh : h.hasFieldCount = false) : DataLayout src T h p (pure ()) := by
  show (frameAfter src T h p).Describes src T ⟨h, 0, none, none, none⟩
  rw [frameAfter_of_no_count hh]
  exact .bare (by simp [Frame.hasValues, hh]) fun h0 => absurd rfl h0

theorem keyFrameDataDecodeBinary_layout {h : DataSetMessageHeader} {p : Nat}
    (ht : h.dataSetMessageType = .dataKeyFrame) :
    DataLayout src T h p (keyFrameDataDecodeBinary src T) := by
  have hcount := hasFieldCount_of_keyFrame ht
  show ((if h.fieldEncoding ≠ .rawData then _ else _ : Decoder DataSetMessage Unit) _).Sat _ _
  by_cases hraw : h.fieldEncoding ≠ .rawData
  · rw [if_pos hraw]
    have hh : h.hasFieldCount = true := by simpa [hcount] using hraw
    refine dataLayout_of_count hh fun n q _ => ?_
    simp only
    cases henc : h.fieldEncoding with
    | variant =>
      refine keyFrameFieldsDecodeBinary_layout ht (by rw [henc]; rfl) ?_
      rw [henc]
      exact keyFrameVariantDecodeBinary_fills _
    | rawData => exact absurd henc hraw
    | dataValue =>
      refine keyFrameFieldsDecodeBinary_layout ht (by rw [henc]; rfl) ?_
      rw [henc]
      exact keyFrameDataValueDecodeBinary_fills _
    | reserved => exact bare_sat hh henc
  · rw [if_neg hraw]
    exact dataLayout_rawData (by simpa [hcount] using hraw)

theorem deltaFrameDataDecodeBinary_layout {h : DataSetMessageHeader} {p : Nat}
    (ht : h.dataSetMessageType = .dataDeltaFrame) :
    DataLayout src T h p (deltaFrameDataDecodeBinary src T) := by
  have hcount := hasFieldCount_of_deltaFrame ht
  show ((if h.fieldEncoding ≠ .rawData then _ else _ : Decoder DataSetMessage Unit) _).Sat _ _
  by_cases hraw : h.fieldEncoding ≠ .rawData
  · rw [if_pos hraw]
    have hh : h.hasFieldCount = true := by simpa [hcount] using hraw
    refine dataLayout_of_count hh fun n q _ => ?_
    simp only
    cases henc : h.fieldEncoding with
    | variant =>
      refine deltaFrameFieldsDecodeBinary_layout ht (by rw [henc]; rfl) ?_
      rw [henc]
      exact deltaFrameVariantDecodeBinary_fills _
    | rawData => exact absurd henc hraw
    | dataValue =>
      refine deltaFrameFieldsDecodeBinary_layout ht (by rw [henc]; rfl) ?_
      rw [henc]
      exact deltaFrameDataValueDecodeBinary_fills _
    | reserved => exact bare_sat hh henc
  · rw [if_neg hraw]
    exact dataLayout_rawData (by simpa [hcount] using hraw)

/-! ## DataSetMessages -/

/-- **Every outcome of the DataSetMessage decoder**, seen from the frame in the
datagram. -/
theorem dataSetMessageDecodeBinary_layout (p : Nat) :
    (dataSetMessageDecodeBinary src T ⟨p, default⟩).Sat
      (fun _ t => (frameAt src T p).Describes src T t.dst)
      (fun _ t => (frameAt src T p).Interrupted t.dst) := by
  have hadv : Advances True src 1 (dataSetMessageHeaderDecodeBinary src) :=
    dataSetMessageHeaderDecodeBinary_advances
  have hheader := hadv ⟨p, default⟩
  show ((decodePart DataSetMessage.header (fun h d => { d with header := h })
    (dataSetMessageHeaderDecodeBinary src) >>= fun _ => _) ⟨p, ⟨default, 0, none, none, none⟩⟩).Sat
    _ _
  unfold frameAt
  cases hrun : dataSetMessageHeaderDecodeBinary src ⟨p, default⟩ with
  | fault =>
    rw [hrun] at hheader
    exact absurd hheader (by simp)
  | fail e s =>
    have hpart : decodePart DataSetMessage.header (fun h d => { d with header := h })
        (dataSetMessageHeaderDecodeBinary src) ⟨p, ⟨default, 0, none, none, none⟩⟩ =
          .fail e ⟨s.offset, ⟨s.dst, 0, none, none, none⟩⟩ := by
      simp only [decodePart, zoom, hrun]
    -- nothing behind the header was touched
    rw [bind_fail hpart]
    exact .bare rfl rfl
  | done u s =>
    have hpart : decodePart DataSetMessage.header (fun h d => { d with header := h })
        (dataSetMessageHeaderDecodeBinary src) ⟨p, ⟨default, 0, none, none, none⟩⟩ =
          .done () ⟨s.offset, ⟨s.dst, 0, none, none, none⟩⟩ := by
      simp only [decodePart, zoom, hrun]
    have hcurrent : current (⟨s.offset, ⟨s.dst, 0, none, none, none⟩⟩ : Decoding DataSetMessage) =
        .done ⟨s.dst, 0, none, none, none⟩ ⟨s.offset, ⟨s.dst, 0, none, none, none⟩⟩ := rfl
    rw [bind_done hpart, bind_done hcurrent]
    have hother : s.dst.dataSetMessageType ≠ .dataKeyFrame →
        s.dst.dataSetMessageType ≠ .dataDeltaFrame → s.dst.hasFieldCount = false := by
      intro hkey hdelta
      simp [DataSetMessageHeader.hasFieldCount, hkey, hdelta]
    have hfail : s.dst.hasFieldCount = false →
        (frameAfter src T s.dst s.offset).Interrupted ⟨s.dst, 0, none, none, none⟩ := by
      intro hh
      rw [frameAfter_of_no_count hh]
      exact .bare rfl rfl
    -- only key and delta frames have fields
    cases ht : s.dst.dataSetMessageType with
    | dataKeyFrame => exact keyFrameDataDecodeBinary_layout ht
    | dataDeltaFrame => exact deltaFrameDataDecodeBinary_layout ht
    | keepAlive => exact dataLayout_rawData (hother (by simp [ht]) (by simp [ht]))
    | event => exact hfail (hother (by simp [ht]) (by simp [ht]))
    | reserved v => exact hfail (hother (by simp [ht]) (by simp [ht]))

end

end OpenPubSub
