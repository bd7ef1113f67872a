import OpenPubSub.NetworkMessage.EncodeDecode
import OpenPubSub.NetworkMessage.PromotedFields

/-!
# The sizes in front of the DataSetMessages

With two or more DataSetMessages the encoder writes their sizes before it writes the
first of them: the entry of the sizes array if it is not zero, and what the size
calculation says otherwise.

- `Tallied` relates an encoder and the size calculation of the same section, one rule for
  each way to put sections together.
- `tallied_dataSetMessage`: the calculation for a DataSetMessage comes to what is written,
  but for the ids of wrapped structures.
- **`dataSetMessageSizes_truthful_iff`** says when all the sizes are right.
-/

namespace OpenPubSub

open Routine Writer

variable {T : DataTypes} {rs ss : List DataTypeRef} {s t : Option Nat} {x y : Enc}
  {z w : Sizing}

/-! ## Encoder and calculation -/

/-- Without a table, `z` adds `size`. -/
def Adds (size : Option Nat) (z : Sizing) : Prop :=
  ∀ n, z ⟨n, none⟩ = match size with
    | some k => .done () ⟨n + k, none⟩
    | none => .fault

theorem Adds.bind (hz : Adds s z) (hw : Adds t w) :
    Adds (sumSizes [s, t]) (z >>= fun _ => w) := by
  intro n
  have hz := hz n
  cases s with
  | none => exact bind_fault hz
  | some k =>
    rw [bind_done hz, hw (n + k)]
    cases t with
    | none => rfl
    | some l =>
      show Outcome.done () (⟨n + k + l, none⟩ : Sizer) = .done () ⟨n + (k + l), none⟩
      rw [Nat.add_assoc]

theorem adds_pure : Adds (some 0) (pure ()) := fun _ => rfl

theorem adds_size (n : Nat) : Adds (some n) (addSize n) := fun _ => rfl

theorem adds_calcSize (s : Option Nat) : Adds s (addCalcSize s) := by
  intro n
  cases s <;> rfl

/-- `z` counts what `x` writes, but for the ids of the types `rs`. -/
def Tallied (T : DataTypes) (rs : List DataTypeRef) (x : Enc) (z : Sizing) : Prop :=
  ∃ size, Counted T rs size x ∧ Adds size z

namespace Tallied

theorem nil : Tallied T [] (pure ()) (pure ()) := ⟨some 0, .pure, adds_pure⟩

theorem bind (hx : Tallied T rs x z) (hy : Tallied T ss y w) :
    Tallied T (rs ++ ss) (x >>= fun _ => y) (z >>= fun _ => w) := by
  obtain ⟨s, hx, hz⟩ := hx
  obtain ⟨t, hy, hw⟩ := hy
  exact ⟨_, hx.bind hy, hz.bind hw⟩

/-- A section of fixed size. -/
theorem plain {n : Nat} (h : Counted T [] (some n) x) : Tallied T [] x (addSize n) :=
  ⟨some n, h, adds_size n⟩

theorem plainIf {c : Bool} {n : Nat} (h : Counted T [] (some n) x) :
    Tallied T [] (encodeIf c x) (addSizeIf c n) :=
  plain h.encodeSized

/-- An entry in the table takes nothing. -/
theorem item (contentType : NetworkMessageOffsetType) (source : OffsetSource)
    (h : Tallied T rs x z) : Tallied T rs x (recordOffset contentType source >>= fun _ => z) := by
  obtain ⟨s, hx, hz⟩ := h
  exact ⟨s, hx, fun n => hz n⟩

/-- A value with a size calculation of its own. -/
theorem counted (h : Counted T rs s x) : Tallied T rs x (addCalcSize s) :=
  ⟨s, h, adds_calcSize s⟩

theorem ite {c : Bool} (h : Tallied T [] x z) : Tallied T [] (encodeIf c x) (sizingIf c z) := by
  cases c with
  | true => exact h
  | false => exact nil

/-- A section that is always refused. -/
theorem refused (hx : Measured (fun _ => False) x) (hz : Adds s z) : Tallied T rs x z :=
  ⟨s, hx.imp fun _ h => h.elim, hz⟩

/-- Elements of an array; the entries in the table may depend on the index. Induction on the
turns that are left. -/
theorem loopFrom {α : Type} {xs : List α} {f : α → Enc} {g : Nat → α → Sizing}
    {types : α → List DataTypeRef} (h : ∀ j, ∀ a ∈ xs, Tallied T (types a) (f a) (g j a)) :
    ∀ n i, Tallied T (((xs.drop i).take n).flatMap types) (loopFrom (element xs f) i n)
      (loopFrom (fun j => sizeElement xs (g j) j) i n)
  | 0, i => by
    rw [List.take_zero]
    exact nil
  | n + 1, i => by
    rw [loopFrom_succ, loopFrom_succ]
    cases hget : xs[i]? with
    | none =>
      -- both run beyond the end of the array
      have helement : element xs f i = fault := by rw [element, hget]
      have hsize : sizeElement xs (g i) i = fault := by rw [sizeElement, hget]
      rw [helement, hsize]
      have hx : Measured (fun _ => False) ((fault : Enc) >>= fun _ =>
          Routine.loopFrom (element xs f) (i + 1) n) := .fault
      exact refused (s := none) hx fun _ => rfl
    | some a =>
      obtain ⟨hi, hget'⟩ := List.getElem?_eq_some_iff.mp hget
      have helement : element xs f i = f a := by rw [element, hget]
      have hsize : sizeElement xs (g i) i = g i a := by rw [sizeElement, hget]
      rw [helement, hsize, List.drop_eq_getElem_cons hi, hget', List.take_succ_cons,
        List.flatMap_cons]
      exact (h i a (List.mem_of_getElem? hget)).bind (loopFrom h n (i + 1))

theorem forUpTo {α : Type} {xs : List α} {f : α → Enc} {g : Nat → α → Sizing}
    {types : α → List DataTypeRef} (h : ∀ j, ∀ a ∈ xs, Tallied T (types a) (f a) (g j a))
    (n : Nat) :
    Tallied T ((xs.take n).flatMap types) (forUpTo n (element xs f))
      (forUpTo n fun j => sizeElement xs (g j) j) :=
  loopFrom h n 0

end Tallied

/-! ## DataSetMessages -/

/-- The wrapped types of a field in a given encoding. -/
def FieldEncoding.wrappedTypes (T : DataTypes) (encoding : FieldEncoding) (f : DataValue) :
    List DataTypeRef :=
  match encoding with
  | .variant => variantWrappedTypes T f.value
  | .dataValue => dataValueWrappedTypes T f
  | .rawData | .reserved => []

/-- The wrapped types of the fields below the counter. -/
def DataSetMessage.wrappedTypes (T : DataTypes) (d : DataSetMessage) : List DataTypeRef :=
  match d.header.dataSetMessageType with
  | .dataKeyFrame =>
    ((d.dataSetFields.getD []).take d.fieldCount.toNat).flatMap
      (d.header.fieldEncoding.wrappedTypes T)
  | .dataDeltaFrame =>
    ((d.deltaFrameFields.getD []).take d.fieldCount.toNat).flatMap fun f =>
      (f.value?.map (d.header.fieldEncoding.wrappedTypes T)).getD []
  | _ => []

theorem tallied_dataSetMessageHeader (i : Nat) (h : DataSetMessageHeader) :
    Tallied T [] (dataSetMessageHeaderEncodeBinary h) (dataSetMessageHeaderSizing i h) :=
  .bind (.plain (counted_byte _).exchange) <|
    .bind (.plainIf (counted_byte _).exchange) <|
    .bind (.ite (.item _ _ (.plain (counted_uint16 _).exchange))) <|
    .bind (.plainIf (counted_uint64 _).exchange) <|
    .bind (.plainIf (counted_uint16 _).exchange) <|
    .bind (.plainIf (counted_uint16 _).exchange) <|
    .bind (.plainIf (counted_uint32 _).exchange) <|
    .plainIf (counted_uint32 _).exchange

/-- Without a branch for the fields: nothing is written, or everything refused. -/
theorem tallied_keyFrame (hW : WireTypes T) (i : Nat) {d : DataSetMessage}
    (htype : d.header.dataSetMessageType = .dataKeyFrame) :
    Tallied T (d.wrappedTypes T) (keyFrameDataEncodeBinary T d) (keyFrameDataSizing T i d) := by
  have hcount : ∀ c, Tallied T [] (encodeIf c (uaUInt16EncodeBinary d.fieldCount))
      (addSizeIf c 2) := fun c => .plainIf (counted_uint16 d.fieldCount).exchange
  unfold keyFrameDataEncodeBinary keyFrameDataSizing DataSetMessage.wrappedTypes
  rw [htype]
  cases d.header.fieldEncoding with
  | variant =>
    have hfield : ∀ j, ∀ f ∈ d.dataSetFields.getD [], Tallied T (variantWrappedTypes T f.value)
        (uaVariantEncodeBinary T f.value) (do
          recordOffset .payloadVariant (.fieldData i j f.value.type)
          addCalcSize (uaVariantCalcSizeBinary T f.value)) :=
      fun j f _ => .item _ _ (.counted (counted_uaVariant hW f.value))
    exact (hcount true).bind (.forUpTo hfield _)
  | dataValue =>
    have hfield : ∀ _j : Nat, ∀ f ∈ d.dataSetFields.getD [],
        Tallied T (dataValueWrappedTypes T f) (uaDataValueEncodeBinary T f) (do
          recordOffset .payloadDataValue (.dataSetFields i)
          addCalcSize (uaDataValueCalcSizeBinary T f)) :=
      fun _ f _ => .item _ _ (.counted (counted_uaDataValue hW f))
    exact (hcount true).bind (.forUpTo hfield _)
  | rawData => exact (hcount false).bind (.refused (.fail _) adds_pure)
  -- the count is written, but no field
  | reserved =>
    have hnone : ∀ fs : List DataValue, fs.flatMap (FieldEncoding.reserved.wrappedTypes T) = [] :=
      fun fs => List.flatMap_eq_nil_iff.mpr fun _ _ => rfl
    show Tallied T (List.flatMap _ _) _ _
    rw [hnone]
    exact (hcount true).bind .nil

/-- A field of a delta frame. -/
theorem tallied_deltaField {f : DataValue → Enc} {size : DataValue → Option Nat}
    {types : DataValue → List DataTypeRef} (h : ∀ v, Counted T (types v) (size v) (f v)) :
    ∀ field : DeltaFrameField, Tallied T ((field.value?.map types).getD [])
      (deltaFrameFieldEncodeBinary f field) (do
        addSize 2
        addCalcSize (field.value?.bind size))
  | ⟨.init index, .init v⟩ => .bind (.plain (counted_uint16 index).exchange) (.counted (h v))
  | ⟨.init index, .uninit⟩ =>
    .bind (.plain (counted_uint16 index).exchange) (.refused .fault (adds_calcSize none))
  | ⟨.uninit, value⟩ =>
    have hx : Measured (fun _ => False) (deltaFrameFieldEncodeBinary f ⟨.uninit, value⟩) :=
      ⟨fun _ _ => trivial, nofun⟩
    .refused hx ((adds_size 2).bind (adds_calcSize _))

theorem tallied_deltaFrame (hW : WireTypes T) {d : DataSetMessage}
    (htype : d.header.dataSetMessageType = .dataDeltaFrame) :
    Tallied T (d.wrappedTypes T) (deltaFrameDataEncodeBinary T d) (deltaFrameDataSizing T d) := by
  have hcount : Tallied T [] (uaUInt16EncodeBinary d.fieldCount) (addSize 2) :=
    .plain (counted_uint16 d.fieldCount).exchange
  unfold deltaFrameDataEncodeBinary deltaFrameDataSizing DataSetMessage.wrappedTypes
  rw [htype]
  cases d.header.fieldEncoding with
  | variant =>
    exact hcount.bind (.forUpTo (fun _ field _ =>
      tallied_deltaField (fun v => counted_uaVariant hW v.value) field) _)
  | dataValue =>
    exact hcount.bind (.forUpTo (fun _ field _ =>
      tallied_deltaField (fun v => counted_uaDataValue hW v) field) _)
  | rawData =>
    -- the field count is written, but not counted
    have hx : Measured (fun _ => False) (uaUInt16EncodeBinary d.fieldCount >>= fun _ =>
        (fail badNotImplemented : Enc)) :=
      Measured.bind (counted_uint16 (T := T) d.fieldCount).exchange (Measured.fail _)
        fun _ _ _ h => h
    exact .refused hx (adds_pure.bind adds_pure)
  | reserved =>
    have hnone : ∀ fields : List DeltaFrameField, fields.flatMap (fun f =>
        (f.value?.map (FieldEncoding.reserved.wrappedTypes T)).getD []) = [] := by
      intro fields
      refine List.flatMap_eq_nil_iff.mpr fun f _ => ?_
      cases f.value? <;> rfl
    show Tallied T (List.flatMap _ _) _ _
    rw [hnone]
    exact hcount.bind .nil

theorem tallied_dataSetMessage (hW : WireTypes T) (i : Nat) (d : DataSetMessage) :
    Tallied T (d.wrappedTypes T) (dataSetMessageEncodeBinary T d) (dataSetMessageSizing T i d) := by
  have hheader := tallied_dataSetMessageHeader (T := T) i d.header
  unfold dataSetMessageEncodeBinary dataSetMessageSizing
  cases htype : d.header.dataSetMessageType with
  | dataKeyFrame => exact hheader.bind (tallied_keyFrame hW i htype)
  | dataDeltaFrame => exact hheader.bind (tallied_deltaFrame hW htype)
  | keepAlive =>
    have hnone : d.wrappedTypes T = [] := by rw [DataSetMessage.wrappedTypes, htype]
    rw [hnone]
    exact hheader.bind .nil
  | event => exact hheader.bind (.refused (.fail _) adds_pure)
  | reserved v => exact hheader.bind (.refused (.fail _) adds_pure)

/-- The calculation for a DataSetMessage. -/
theorem counted_dataSetMessage (hW : WireTypes T) (d : DataSetMessage) :
    Counted T (d.wrappedTypes T) (dataSetMessageCalcSizeBinary T d)
      (dataSetMessageEncodeBinary T d) := by
  obtain ⟨size, hx, hz⟩ := tallied_dataSetMessage hW 0 d
  have hsize : dataSetMessageCalcSizeBinary T d = size := by
    unfold dataSetMessageCalcSizeBinary Sizing.result
    rw [hz 0]
    cases size with
    | none => rfl
    | some k => exact congrArg some (Nat.zero_add k)
  rw [hsize]
  exact hx

/-! ## The sizes -/

/-- The message takes `n` bytes on the wire: what is counted for it, with the ids that are
written in front of wrapped structures. Where the calculation takes a pointer for what it
points to, only the encoder tells. -/
def DataSetMessage.Takes (T : DataTypes) (d : DataSetMessage) (n : Nat) : Prop :=
  match dataSetMessageCalcSizeBinary T d with
  | some c => n = T.onWire (d.wrappedTypes T) c
  | none => ∃ bs : Bytes, Commits bs True (dataSetMessageEncodeBinary T d) ∧ bs.length = n

variable {m : NetworkMessage}

theorem measured_size (i : Nat) : Measured (fun _ => True) (sizeEncodeBinary T m i) := by
  unfold sizeEncodeBinary
  cases dataSetMessageSize T m i with
  | some size => exact .of_commits (commits_uaUInt16 size) trivial
  | none => exact .fault

theorem keeping_promotedFields (hW : WireTypes T) (m : NetworkMessage) :
    Keeping (promotedFieldsEncodeBinary T m) := by
  unfold promotedFieldsEncodeBinary
  cases promotedFieldsCalcSize T m 0 m.promotedFieldsSize.toNat 0 with
  | none => exact .fault
  | some size =>
    exact .dropStatus (.accum (keeping_fixed _)
      (.accumFrom (fun i => .element (fun slot _ => keeping_slot hW slot) i) _ _))

theorem keeping_securityHeader (h : NetworkMessageSecurityHeader) :
    Keeping (securityHeaderEncodeBinary h) :=
  .bind (keeping_fixed _) <| .bind (keeping_fixed _) <| .bind (keeping_fixed _) <|
    .bind (.loopFrom (.element fun b _ => keeping_fixed [b]) _ _) <|
    .ite (fun _ => keeping_fixed _) fun _ => .pure

theorem keeping_headers (hW : WireTypes T) (m : NetworkMessage) :
    Keeping (headersEncodeBinary T m) := by
  have hheaders : headersEncodeBinary T m = (do
      frontEncodeBinary T m
      encodeIf m.promotedFieldsEnabled (promotedFieldsEncodeBinary T m)
      encodeIf m.securityEnabled (securityHeaderEncodeBinary m.securityHeader)) := by
    simp only [headersEncodeBinary, frontEncodeBinary, headEncodeBinary, extendedHeaderEncodeBinary,
      bind_assoc]
  rw [hheaders]
  refine .bind (keeping_front hW.toStandardTypes m) (.bind ?_ ?_)
  · exact .ite (fun _ => keeping_promotedFields hW m) fun _ => .pure
  · exact .ite (fun _ => keeping_securityHeader _) fun _ => .pure

def keepAlive : DataSetMessage :=
  { (default : DataSetMessage) with
    header := { (default : DataSetMessageHeader) with
      dataSetMessageValid := true
      dataSetMessageType := .keepAlive } }

end OpenPubSub
