import OpenPubSub.Types.DecodeBounds

/-!
# Nested values

How deep the decoders recurse. Six of them raise the nesting counter around the calls of
the jump table that they make; ExtensionObject is the one that does not.

- `tableBody nest` is one level of the jump table: what the decoders do until they call
  the jump table again, with `nest` for what happens around a counted step. With `deeper`
  it is the decoder (`decodeBinaryJumpTable_succ`).
- `SameAt d x y`: with the counter at `d`, `x` and `y` do the same, and the counter is
  back to `d` on both exits. `tableBody_sameAt` is the step lemma: two levels of the table
  are the same if what they call is, at the depths at which they call it.
- `decodeBinaryJumpTable_balanced`: the counter is left as it was found.
- `levels_counted`: an assertion that the counter stays within its bound changes nothing.
- `levels_uncounted`: without the counted steps, two levels of the table are all there is,
  so there is no cycle without one.
- `levels_bounded`: how many calls of the table can be open at once, whatever the input.
-/

namespace OpenPubSub

open Routine

/-- What happens around a counted step. -/
abbrev Nest := ∀ α : Type, Dec α → Dec α

/-- The step is counted. -/
def counted : Nest := fun _ x => deeper x

/-- The counter must not exceed `bound`. -/
def countedUpTo (bound : Nat) : Nest := fun _ x c =>
  if c.depth + 1 ≤ bound then deeper x c else .fault

/-- Something else happens instead of the step. -/
def cut (stop : ∀ α : Type, Dec α) : Nest := fun α _ => stop α

/-- The DiagnosticInfo in a value that the table decoded as one. -/
def Value.toDiagnosticInfo : Value → DiagnosticInfo
  | .diagnosticInfo d => d
  | _ => default

/-! ## One level of the jump table -/

section Body

variable (nest : Nest) (src : Bytes) (T : DataTypes)

/-- `DiagnosticInfo_decodeBinary`, which calls itself. -/
def diagnosticInfoBody (inner : Dec DiagnosticInfo) : Dec DiagnosticInfo := do
  let mask ← byteDecodeBinary src
  accumGuard
    (accum (optional mask 0x01 (uint32DecodeBinary src)) fun symbolicId =>
      accum (optional mask 0x02 (uint32DecodeBinary src)) fun namespaceUri =>
      accum (optional mask 0x04 (uint32DecodeBinary src)) fun localizedText =>
      accum (optional mask 0x08 (uint32DecodeBinary src)) fun locale =>
      accum (optional mask 0x10 (stringDecodeBinary src T)) fun additionalInfo =>
      accum (optional mask 0x20 (uint32DecodeBinary src)) fun innerStatusCode =>
        pure (DiagnosticInfo.mk symbolicId namespaceUri localizedText locale
          additionalInfo innerStatusCode))
    (whenSet (mask &&& 0x40 != 0) checkRecursion)
    fun info =>
      accum (optional mask 0x40 (nest _ inner)) fun inner =>
        pure (info inner)

/-- `Variant_decodeBinary` -/
def variantBody (jump : Jump) : Dec Variant := do
  let encodingByte ← byteDecodeBinary src
  if encodingByte = 0 then
    pure default
  else
    let isArray := encodingByte &&& variantArrayMask != 0
    match variantTypeKind encodingByte with
    | none => fail badDecodingError
    | some kind =>
      if kind = .variant ∧ isArray = false then
        fail badDecodingError
      else do
        checkRecursion
        nest _ <|
          accum (variantDecodeBinaryContent src T jump kind isArray) fun (type, data) =>
            accum (whenSet (isArray && encodingByte &&& variantDimensionsMask != 0)
              (dimensionsDecodeBinary src T)) fun dimensions =>
              pure ⟨some type, data, dimensions⟩

/-- `DataValue_decodeBinary`, which calls `Variant_decodeBinary` directly. -/
def dataValueBody (jump : Jump) : Dec DataValue := do
  let mask ← byteDecodeBinary src
  checkRecursion
  nest _ <|
    accum (whenSet (mask &&& 0x01 != 0) (variantBody nest src T jump)) fun value =>
    accum (whenSet (mask &&& 0x02 != 0) (uint32DecodeBinary src)) fun status =>
    accum (whenSet (mask &&& 0x04 != 0) (uint64DecodeBinary src)) fun sourceTimestamp =>
    accum (whenSet (mask &&& 0x10 != 0) (uint16DecodeBinary src)) fun sourcePicoseconds =>
    accum (whenSet (mask &&& 0x08 != 0) (uint64DecodeBinary src)) fun serverTimestamp =>
    accum (whenSet (mask &&& 0x20 != 0) (uint16DecodeBinary src)) fun serverPicoseconds =>
      pure {
        hasValue := mask &&& 0x01 != 0
        hasStatus := mask &&& 0x02 != 0
        hasSourceTimestamp := mask &&& 0x04 != 0
        hasServerTimestamp := mask &&& 0x08 != 0
        hasSourcePicoseconds := mask &&& 0x10 != 0
        hasServerPicoseconds := mask &&& 0x20 != 0
        value := value
        status := status
        sourceTimestamp := sourceTimestamp
        sourcePicoseconds := clampPicoSeconds sourcePicoseconds
        serverTimestamp := serverTimestamp
        serverPicoseconds := clampPicoSeconds serverPicoseconds }

/-- `decodeBinaryStructure` -/
def structureBody (jump : Jump) (type : DataTypeRef) : Dec (List Value) := do
  checkRecursion
  nest _ (decodeMembers src T jump type (T.get type).members)

/-- `decodeBinaryStructureWithOptFields` -/
def optStructureBody (jump : Jump) (type : DataTypeRef) : Dec (List Value) := do
  checkRecursion
  nest _ do
    let encodingMask ← uint32DecodeBinary src
    decodeOptMembers src T jump type encodingMask 0 (T.get type).members

/-- `decodeBinaryUnion` -/
def unionBody (jump : Jump) (type : DataTypeRef) : Dec Value := do
  checkRecursion
  let selection ← uint32DecodeBinary src
  match selection.toNat with
  | 0 => pure (.union selection .null)
  | i + 1 =>
    match (T.get type).members[i]? with
    | none => fail badDecodingError
    | some m =>
      let memberType := DataTypes.memberType type m
      (Value.union selection) <$> nest _ (jump (T.get memberType).typeKind memberType)

/-- One level of `decodeBinaryJumpTable`; a leaf type makes no calls. -/
def tableBody (jump : Jump) : Jump := fun kind type =>
  match kind with
  | .extensionObject => .extensionObject <$> extensionObjectDecodeBinary src T jump
  | .dataValue => .dataValue <$> dataValueBody nest src T jump
  | .variant => .variant <$> variantBody nest src T jump
  | .diagnosticInfo => .diagnosticInfo <$>
      diagnosticInfoBody nest src T (Value.toDiagnosticInfo <$> jump .diagnosticInfo type)
  | .struct => .struct <$> structureBody nest src T jump type
  | .optStruct => .optStruct <$> optStructureBody nest src T jump type
  | .union => unionBody nest src T jump type
  | _ => decodeBinaryJumpTable src T 1 kind type

/-- `n` levels of the table, above `jump`. -/
def levels : Nat → Jump → Jump
  | 0, jump => jump
  | n + 1, jump => tableBody nest src T (levels n jump)

end Body

variable {α β : Type} {src : Bytes} {T : DataTypes} {nest nest' : Nest} {jump jump' : Jump}
  {d n : Nat}

/-- A DiagnosticInfo comes back out of the table as it went in. -/
theorem toDiagnosticInfo_map (x : Dec DiagnosticInfo) :
    Value.toDiagnosticInfo <$> (Value.diagnosticInfo <$> x) = x := by
  funext s
  cases hx : x s with
  | done a t => exact map_done (map_done hx)
  | fail e t => exact bind_fail (bind_fail hx)
  | fault => exact bind_fault (bind_fault hx)

/-- **A level of the decoders**: the table is built from its bodies. -/
theorem decodeBinaryJumpTable_succ (n : Nat) :
    decodeBinaryJumpTable src T (n + 1) =
      tableBody counted src T (decodeBinaryJumpTable src T n) := by
  funext kind type
  cases kind with
  | diagnosticInfo =>
    cases n with
    | zero => rfl
    | succ n =>
      show _ = Value.diagnosticInfo <$> diagnosticInfoBody counted src T
        (Value.toDiagnosticInfo <$>
          (Value.diagnosticInfo <$> diagnosticInfoDecodeBinary src T (n + 1)))
      rw [toDiagnosticInfo_map]
      rfl
  | _ => rfl

/-- The jump table, level by level. -/
theorem decodeBinaryJumpTable_levels (n : Nat) :
    decodeBinaryJumpTable src T n = levels counted src T n fun _ _ => fault := by
  induction n with
  | zero => rfl
  | succ n ih => rw [decodeBinaryJumpTable_succ, ih, levels]

/-! ## The same at one depth -/

/-- The counter is at `d`. -/
def LeftAt (d : Nat) : Outcome ErrorCode Ctx α → Prop
  | .done _ t => t.depth = d
  | .fail _ t => t.depth = d
  | .fault => True

/-- With the counter at `d`, `x` and `y` do the same and leave it there. -/
def SameAt (d : Nat) (x y : Dec α) : Prop := ∀ s, s.depth = d → x s = y s ∧ LeftAt d (x s)

/-- A failure before does not change the depth. -/
theorem LeftAt.after {o : Outcome ErrorCode Ctx α} (h : LeftAt d o) (e : ErrorCode) :
    LeftAt d (o.after e) := by
  cases o with
  | done a t => exact h
  | fail e' t => exact h
  | fault => trivial

/-- A decoder that makes no calls. -/
theorem sameAt_of_moves {k : Nat} {x : Dec α} (h : ∀ n, Moves False src n k x) : SameAt d x x := by
  intro s hs
  have hx := h ((src.length - s.pos) + (encodingMaxRecursion + 1 - s.depth) + 1) s
    (Nat.lt_succ_self _)
  refine ⟨rfl, ?_⟩
  cases hxs : x s with
  | done a t =>
    rw [hxs] at hx
    exact hx.depth_eq.trans hs
  | fail e t =>
    rw [hxs] at hx
    exact hx.depth_eq.trans hs
  | fault => trivial

namespace SameAt

theorem pure (a : α) : SameAt d (Pure.pure a : Dec α) (Pure.pure a) := fun _ hs => ⟨rfl, hs⟩

theorem fail (e : ErrorCode) : SameAt d (Routine.fail e : Dec α) (Routine.fail e) :=
  fun _ hs => ⟨rfl, hs⟩

/-- In a row. -/
theorem bind {x y : Dec α} {f g : α → Dec β} (hx : SameAt d x y)
    (hf : ∀ a, SameAt d (f a) (g a)) : SameAt d (x >>= f) (y >>= g) := by
  intro s hs
  obtain ⟨heq, hleft⟩ := hx s hs
  rw [bind_run, bind_run, ← heq]
  cases hxs : x s with
  | done a t =>
    rw [hxs] at hleft
    exact hf a t hleft
  | fail e t =>
    rw [hxs] at hleft
    exact ⟨rfl, hleft⟩
  | fault => exact ⟨rfl, trivial⟩

theorem map {x y : Dec α} (hx : SameAt d x y) (f : α → β) : SameAt d (f <$> x) (f <$> y) :=
  hx.bind fun a => .pure (f a)

/-- What runs after the guard may rely on the guard having let it through. -/
theorem accumGuard [Inhabited α] {x y : Dec α} {g g' : Dec Unit} {f f' : α → Dec β}
    (hx : SameAt d x y) (hg : SameAt d g g')
    (hf : (∃ s t, s.depth = d ∧ g s = .done () t) → ∀ a, SameAt d (f a) (f' a)) :
    SameAt d (Routine.accumGuard x g f) (Routine.accumGuard y g' f') := by
  intro s hs
  obtain ⟨heq, hleft⟩ := hx s hs
  unfold Routine.accumGuard
  rw [← heq]
  cases hxs : x s with
  | fault => exact ⟨rfl, trivial⟩
  | done a t =>
    rw [hxs] at hleft
    obtain ⟨hgeq, hgleft⟩ := hg t hleft
    show (g >>= fun _ => f a) t = (g' >>= fun _ => f' a) t ∧ LeftAt d ((g >>= fun _ => f a) t)
    rw [bind_run, bind_run, ← hgeq]
    cases hgt : g t with
    | done _ u =>
      rw [hgt] at hgleft
      exact hf ⟨t, u, hleft, hgt⟩ a u hgleft
    | fail e u =>
      rw [hgt] at hgleft
      exact ⟨rfl, hgleft⟩
    | fault => exact ⟨rfl, trivial⟩
  -- the guard is asked after a failure, too
  | fail e t =>
    rw [hxs] at hleft
    obtain ⟨hgeq, hgleft⟩ := hg t hleft
    simp only [← hgeq]
    cases hgt : g t with
    | done _ u =>
      rw [hgt] at hgleft
      obtain ⟨hfeq, hfleft⟩ := hf ⟨t, u, hleft, hgt⟩ default u hgleft
      exact ⟨congrArg (·.after e) hfeq, hfleft.after e⟩
    | fail e' u =>
      rw [hgt] at hgleft
      exact ⟨rfl, hgleft⟩
    | fault => exact ⟨rfl, trivial⟩

/-- In the accumulating style. -/
theorem accum [Inhabited α] {x y : Dec α} {f g : α → Dec β} (hx : SameAt d x y)
    (hf : ∀ a, SameAt d (f a) (g a)) : SameAt d (Routine.accum x f) (Routine.accum y g) :=
  hx.accumGuard (.pure ()) fun _ => hf

theorem whenSet [Inhabited α] {x y : Dec α} {c : Bool} (hx : c = true → SameAt d x y) :
    SameAt d (whenSet c x) (whenSet c y) := by
  cases c with
  | true => exact hx rfl
  | false => exact .pure default

theorem times {x y : Dec α} (hx : SameAt d x y) (n : Nat) :
    SameAt d (times x n) (times y n) := by
  induction n with
  | zero => exact .pure []
  | succ n ih => exact hx.bind fun _ => ih.bind fun _ => .pure _

theorem checkRecursion : SameAt d checkRecursion checkRecursion := by
  intro s hs
  unfold OpenPubSub.checkRecursion
  split
  · exact ⟨rfl, hs⟩
  · exact ⟨rfl, hs⟩

/-- Beyond the limit nothing is done after the check. -/
theorem checked {x y : Dec α} (hx : d ≤ encodingMaxRecursion → SameAt d x y) :
    SameAt d (OpenPubSub.checkRecursion >>= fun _ => x)
      (OpenPubSub.checkRecursion >>= fun _ => y) := by
  intro s hs
  by_cases hd : encodingMaxRecursion < s.depth
  · have hcheck : OpenPubSub.checkRecursion s = .fail badEncodingError s := if_pos hd
    rw [bind_fail hcheck, bind_fail hcheck]
    exact ⟨rfl, hs⟩
  · have hcheck : OpenPubSub.checkRecursion s = .done () s := if_neg hd
    rw [bind_done hcheck, bind_done hcheck]
    exact hx (by omega) s hs

/-- The counter goes up and down. -/
theorem deeper {x y : Dec α} (hx : SameAt (d + 1) x y) :
    SameAt d (OpenPubSub.deeper x) (OpenPubSub.deeper y) := by
  intro s hs
  obtain ⟨heq, hleft⟩ := hx { s with depth := s.depth + 1 } (by rw [hs])
  unfold OpenPubSub.deeper
  rw [← heq]
  cases hxs : x { s with depth := s.depth + 1 } with
  | done a t =>
    rw [hxs] at hleft
    exact ⟨rfl, by rw [LeftAt, show t.depth = d + 1 from hleft, Nat.add_sub_cancel]⟩
  | fail e t =>
    rw [hxs] at hleft
    exact ⟨rfl, by rw [LeftAt, show t.depth = d + 1 from hleft, Nat.add_sub_cancel]⟩
  | fault => exact ⟨rfl, trivial⟩

end SameAt

/-! ## The same level -/

/-- Two kinds of counted step, of which one keeps what the other does below the limit. -/
def Nest.Same (nest nest' : Nest) : Prop :=
  ∀ {α : Type} {x y : Dec α} {d : Nat}, d ≤ encodingMaxRecursion →
    SameAt (d + 1) x y → SameAt d (nest α x) (nest' α y)

/-- Two tables that do the same at depth `d`. -/
def JumpsSame (d : Nat) (jump jump' : Jump) : Prop :=
  ∀ kind type, SameAt d (jump kind type) (jump' kind type)

/-- Two tables that do the same deeper than `d`, up to one level beyond the limit. -/
def JumpsSameBelow (d : Nat) (jump jump' : Jump) : Prop :=
  ∀ e, d < e → e ≤ encodingMaxRecursion + 1 → JumpsSame e jump jump'

/-- The tables agree one level down. -/
theorem JumpsSameBelow.next (h : JumpsSameBelow d jump jump') (hd : d ≤ encodingMaxRecursion) :
    JumpsSame (d + 1) jump jump' := h _ (Nat.lt_succ_self d) (Nat.succ_le_succ hd)

/-- Tables that agree deeper than a level agree deeper than the next one. -/
theorem JumpsSameBelow.succ (h : JumpsSameBelow d jump jump') : JumpsSameBelow (d + 1) jump jump' :=
  fun e he hle => h e (Nat.lt_of_succ_lt he) hle

theorem sameAt_byte : SameAt d (byteDecodeBinary src) (byteDecodeBinary src) :=
  sameAt_of_moves fun _ => byteDecodeBinary_moves

theorem sameAt_uint16 : SameAt d (uint16DecodeBinary src) (uint16DecodeBinary src) :=
  sameAt_of_moves fun _ => uint16DecodeBinary_moves

theorem sameAt_uint32 : SameAt d (uint32DecodeBinary src) (uint32DecodeBinary src) :=
  sameAt_of_moves fun _ => uint32DecodeBinary_moves

theorem sameAt_uint64 : SameAt d (uint64DecodeBinary src) (uint64DecodeBinary src) :=
  sameAt_of_moves fun _ => uint64DecodeBinary_moves

theorem sameAt_string : SameAt d (stringDecodeBinary src T) (stringDecodeBinary src T) :=
  sameAt_of_moves fun _ => stringDecodeBinary_moves

theorem sameAt_nodeId : SameAt d (nodeIdDecodeBinary src T) (nodeIdDecodeBinary src T) :=
  sameAt_of_moves fun _ => nodeIdDecodeBinary_moves

/-- The cursor may move if the depth stays. -/
theorem sameAt_modify {f : Ctx → Ctx} (hf : ∀ s, (f s).depth = s.depth) :
    SameAt d (modify f : Dec Unit) (modify f) := fun s hs => ⟨rfl, (hf s).trans hs⟩

/-- An array, from one element to the next. -/
theorem sameAt_array {type : DataType} {ofMemory : Bytes → α} {element element' : Dec α}
    (h : SameAt d element element') :
    SameAt d (arrayDecodeBinary src type ofMemory element)
      (arrayDecodeBinary src type ofMemory element') := by
  refine sameAt_uint32.bind fun length => ?_
  by_cases hle : signedLength length ≤ 0
  · rw [if_pos hle, if_pos hle]
    exact .pure _
  · rw [if_neg hle, if_neg hle]
    refine (sameAt_of_moves fun _ => need_moves _).bind fun _ => ?_
    cases type.overlayable with
    | true => exact (sameAt_of_moves fun _ => fixedDecodeBinary_moves _).map _
    | false => exact (h.times _).map _

/-- An array. -/
theorem sameAt_values (h : JumpsSame d jump jump') (type : DataTypeRef) :
    SameAt d (valuesDecodeBinary src T jump type) (valuesDecodeBinary src T jump' type) :=
  (sameAt_array (h _ _)).map _

/-- An ExtensionObject in a Variant. -/
theorem sameAt_unwrap (h : JumpsSame d jump jump') :
    SameAt d (variantDecodeBinaryUnwrapExtensionObject src T jump)
      (variantDecodeBinaryUnwrapExtensionObject src T jump') := by
  refine SameAt.bind (fun _ hs => ⟨rfl, hs⟩) fun oldPos => ?_
  refine sameAt_nodeId.bind fun typeId => sameAt_byte.bind fun encoding => ?_
  unfold variantDecodeBinaryUnwrapContent
  cases if encoding = 1 then T.findDataTypeByBinary typeId else none with
  | some type =>
    refine SameAt.bind ?_ fun _ => (h _ _).map _
    exact sameAt_modify fun _ => rfl
  | none =>
    refine SameAt.bind ?_ fun _ => (h _ _).map _
    exact sameAt_modify fun _ => rfl

/-- The content of a Variant. -/
theorem sameAt_variantContent (h : JumpsSame d jump jump') (kind : DataTypeKind) (isArray : Bool) :
    SameAt d (variantDecodeBinaryContent src T jump kind isArray)
      (variantDecodeBinaryContent src T jump' kind isArray) := by
  unfold variantDecodeBinaryContent
  cases isArray with
  | true => exact (sameAt_values h _).map _
  | false =>
    by_cases hkind : kind ≠ .extensionObject
    · rw [if_neg Bool.false_ne_true, if_neg Bool.false_ne_true, if_pos hkind, if_pos hkind]
      exact (h _ _).map _
    · rw [if_neg Bool.false_ne_true, if_neg Bool.false_ne_true, if_neg hkind, if_neg hkind]
      exact sameAt_unwrap h

/-- A member of a structure. -/
theorem sameAt_member (h : JumpsSame d jump jump') (owner : DataTypeRef) (m : DataTypeMember) :
    SameAt d (memberDecodeBinary src T jump owner m) (memberDecodeBinary src T jump' owner m) := by
  unfold memberDecodeBinary
  cases m.isArray with
  | true => exact sameAt_values h _
  | false => exact h _ _

/-- The members of a structure. -/
theorem sameAt_members (h : JumpsSame d jump jump') (owner : DataTypeRef)
    (members : List DataTypeMember) : SameAt d (decodeMembers src T jump owner members)
      (decodeMembers src T jump' owner members) := by
  induction members with
  | nil => exact .pure _
  | cons m members ih => exact (sameAt_member h owner m).bind fun _ => ih.bind fun _ => .pure _

/-- The members behind an encoding mask. -/
theorem sameAt_optMembers (h : JumpsSame d jump jump') (owner : DataTypeRef) (mask : UInt32)
    (members : List DataTypeMember) (o : Nat) :
    SameAt d (decodeOptMembers src T jump owner mask o members)
      (decodeOptMembers src T jump' owner mask o members) := by
  induction members generalizing o with
  | nil => exact .pure _
  | cons m members ih =>
    refine SameAt.bind ?_ fun _ => (ih _).bind fun _ => .pure _
    unfold optMemberDecodeBinary
    split
    · exact .pure _
    · exact sameAt_member h owner m

/-- An ExtensionObject decodes what it knows without counting a level. -/
theorem sameAt_extensionObject
    (h : ∀ typeId type, T.findDataTypeByBinary typeId = some type →
      SameAt d (jump (T.get type).typeKind type) (jump' (T.get type).typeKind type)) :
    SameAt d (extensionObjectDecodeBinary src T jump)
      (extensionObjectDecodeBinary src T jump') := by
  have hhead : SameAt d
      (accum (nodeIdDecodeBinary src T) fun binTypeId =>
        accum (byteDecodeBinary src) fun encoding => Pure.pure (binTypeId, encoding))
      (accum (nodeIdDecodeBinary src T) fun binTypeId =>
        accum (byteDecodeBinary src) fun encoding => Pure.pure (binTypeId, encoding)) :=
    sameAt_nodeId.accum fun _ => sameAt_byte.accum fun _ => .pure _
  refine hhead.bind ?_
  rintro ⟨typeId, encoding⟩
  dsimp only
  split
  · exact .pure _
  · unfold extensionObjectDecodeBinaryContent
    cases hfind : T.findDataTypeByBinary typeId with
    | none => exact sameAt_string.map _
    | some type =>
      refine SameAt.bind ?_ fun _ => (h typeId type hfind).map _
      exact sameAt_modify fun _ => rfl
  · exact sameAt_string.map _
  · exact .fail _

section Bodies

variable (hn : nest.Same nest') (hj : JumpsSameBelow d jump jump')

include hn hj

/-- A Variant. -/
theorem sameAt_variantBody :
    SameAt d (variantBody nest src T jump) (variantBody nest' src T jump') := by
  refine sameAt_byte.bind fun encodingByte => ?_
  by_cases hzero : encodingByte = 0
  · rw [if_pos hzero, if_pos hzero]
    exact .pure _
  · rw [if_neg hzero, if_neg hzero]
    dsimp only
    cases variantTypeKind encodingByte with
    | none => exact .fail _
    | some kind =>
      dsimp only
      split
      · exact .fail _
      · refine .checked fun hd => hn hd ?_
        refine (sameAt_variantContent (hj.next hd) kind _).accum fun content => ?_
        have hdimensions : SameAt (d + 1) (dimensionsDecodeBinary src T)
            (dimensionsDecodeBinary src T) := sameAt_of_moves fun _ => dimensionsDecodeBinary_moves
        exact (SameAt.whenSet fun _ => hdimensions).accum fun _ => .pure _

/-- A DataValue. -/
theorem sameAt_dataValueBody :
    SameAt d (dataValueBody nest src T jump) (dataValueBody nest' src T jump') := by
  refine sameAt_byte.bind fun mask => .checked fun hd => hn hd ?_
  -- the Variant is one level deeper, and what it calls is deeper still
  refine (SameAt.whenSet fun _ => sameAt_variantBody hn hj.succ).accum fun _ => ?_
  refine (SameAt.whenSet fun _ => sameAt_uint32).accum fun _ => ?_
  refine (SameAt.whenSet fun _ => sameAt_uint64).accum fun _ => ?_
  refine (SameAt.whenSet fun _ => sameAt_uint16).accum fun _ => ?_
  refine (SameAt.whenSet fun _ => sameAt_uint64).accum fun _ => ?_
  exact (SameAt.whenSet fun _ => sameAt_uint16).accum fun _ => .pure _

/-- A DiagnosticInfo. -/
theorem sameAt_diagnosticInfoBody (type : DataTypeRef) :
    SameAt d
      (diagnosticInfoBody nest src T (Value.toDiagnosticInfo <$> jump .diagnosticInfo type))
      (diagnosticInfoBody nest' src T (Value.toDiagnosticInfo <$> jump' .diagnosticInfo type)) := by
  refine sameAt_byte.bind fun mask => ?_
  refine SameAt.accumGuard ?_ (.whenSet fun _ => .checkRecursion) ?_
  · refine (sameAt_of_moves fun _ => optional_moves uint32DecodeBinary_moves).accum fun _ => ?_
    refine (sameAt_of_moves fun _ => optional_moves uint32DecodeBinary_moves).accum fun _ => ?_
    refine (sameAt_of_moves fun _ => optional_moves uint32DecodeBinary_moves).accum fun _ => ?_
    refine (sameAt_of_moves fun _ => optional_moves uint32DecodeBinary_moves).accum fun _ => ?_
    refine (sameAt_of_moves fun _ => optional_moves stringDecodeBinary_moves).accum fun _ => ?_
    exact (sameAt_of_moves fun _ => optional_moves uint32DecodeBinary_moves).accum fun _ => .pure _
  · rintro ⟨s, t, hs, hguard⟩ info
    refine (SameAt.whenSet fun hset => ?_).accum fun _ => .pure _
    -- the guard is the check that the step needs
    rw [hset] at hguard
    have hd : d ≤ encodingMaxRecursion := by
      by_cases hlimit : encodingMaxRecursion < s.depth
      · have hfail : checkRecursion s = .fail badEncodingError s := if_pos hlimit
        cases hfail.symm.trans hguard
      · omega
    exact (hn hd ((hj.next hd _ _).map _)).map _

/-- A structure. -/
theorem sameAt_structureBody (type : DataTypeRef) :
    SameAt d (structureBody nest src T jump type) (structureBody nest' src T jump' type) :=
  .checked fun hd => hn hd (sameAt_members (hj.next hd) type _)

/-- A structure with optional members. -/
theorem sameAt_optStructureBody (type : DataTypeRef) :
    SameAt d (optStructureBody nest src T jump type) (optStructureBody nest' src T jump' type) :=
  .checked fun hd => hn hd <| sameAt_uint32.bind fun mask =>
    sameAt_optMembers (hj.next hd) type mask _ _

/-- A union. -/
theorem sameAt_unionBody (type : DataTypeRef) :
    SameAt d (unionBody nest src T jump type) (unionBody nest' src T jump' type) := by
  refine .checked fun hd => sameAt_uint32.bind fun selection => ?_
  cases selection.toNat with
  | zero => exact .pure _
  | succ i =>
    dsimp only
    cases (T.get type).members[i]? with
    | none => exact .fail _
    | some m => exact (hn hd (hj.next hd _ _)).map _

/-- **One level**: two levels are the same where the calls of the counted steps are, and an
ExtensionObject's own calls. -/
theorem tableBody_sameAt (kind : DataTypeKind) (type : DataTypeRef)
    (hflat : kind = .extensionObject → ∀ typeId type, T.findDataTypeByBinary typeId = some type →
      SameAt d (jump (T.get type).typeKind type) (jump' (T.get type).typeKind type)) :
    SameAt d (tableBody nest src T jump kind type) (tableBody nest' src T jump' kind type) := by
  cases kind with
  | extensionObject => exact (sameAt_extensionObject (hflat rfl)).map _
  | dataValue => exact (sameAt_dataValueBody hn hj).map _
  | variant => exact (sameAt_variantBody hn hj).map _
  | diagnosticInfo => exact (sameAt_diagnosticInfoBody hn hj type).map _
  | struct => exact (sameAt_structureBody hn hj type).map _
  | optStruct => exact (sameAt_optStructureBody hn hj type).map _
  | union => exact sameAt_unionBody hn hj type
  -- the leaf types make no calls
  | boolean => exact (sameAt_byte.map _).map _
  | sByte | byte => exact sameAt_byte.map _
  | int16 | uint16 => exact sameAt_uint16.map _
  | int32 | uint32 | float | statusCode | enum => exact sameAt_uint32.map _
  | int64 | uint64 | double | dateTime => exact sameAt_uint64.map _
  | string | byteString | xmlElement => exact sameAt_string.map _
  | guid => exact (sameAt_of_moves fun _ => guidDecodeBinary_moves).map _
  | nodeId => exact sameAt_nodeId.map _
  | expandedNodeId => exact (sameAt_of_moves fun _ => expandedNodeIdDecodeBinary_moves).map _
  | qualifiedName => exact (sameAt_of_moves fun _ => qualifiedNameDecodeBinary_moves).map _
  | localizedText => exact (sameAt_of_moves fun _ => localizedTextDecodeBinary_moves).map _
  | decimal | bitfieldCluster => exact .fail _

end Bodies

/-! ## All levels -/

/-- Two kinds of counted step that keep the same make the same decoder. -/
theorem levels_sameAt (hn : nest.Same nest') (n d : Nat) :
    JumpsSame d (levels nest src T n fun _ _ => fault) (levels nest' src T n fun _ _ => fault) := by
  induction n generalizing d with
  | zero => exact fun _ _ _ _ => ⟨rfl, trivial⟩
  | succ n ih =>
    intro kind type
    exact tableBody_sameAt hn (fun e _ _ => ih e) kind type fun _ _ _ _ => ih d _ _

theorem counted_same : counted.Same counted := fun _ h => h.deeper

/-- **The counter is left as it was found.** -/
theorem decodeBinaryJumpTable_balanced (n : Nat) (kind : DataTypeKind) (type : DataTypeRef)
    (s : Ctx) : LeftAt s.depth (decodeBinaryJumpTable src T n kind type s) := by
  rw [decodeBinaryJumpTable_levels]
  exact (levels_sameAt counted_same n s.depth kind type s rfl).2

/-- Below the limit the assertion holds. -/
theorem countedUpTo_same : (countedUpTo (encodingMaxRecursion + 1)).Same counted := by
  intro α x y d hd h s hs
  have hrun : countedUpTo (encodingMaxRecursion + 1) α x s = deeper x s := if_pos (by omega)
  rw [hrun]
  exact h.deeper s hs

/-- `UA_decodeBinary` for a Variant, with `nest` around the counted steps. -/
def uaVariantDecodeBinaryNest (nest : Nest) (src : Bytes) (T : DataTypes) :
    Routine ErrorCode Nat Variant :=
  uaDecodeBinary (variantBody nest src T.withoutCustomTypes
    (levels nest src T.withoutCustomTypes (decodeFuel src) fun _ _ => fault))

/-- `UA_decodeBinary` for a DataValue, with `nest` around the counted steps. -/
def uaDataValueDecodeBinaryNest (nest : Nest) (src : Bytes) (T : DataTypes) :
    Routine ErrorCode Nat DataValue :=
  uaDecodeBinary (dataValueBody nest src T.withoutCustomTypes
    (levels nest src T.withoutCustomTypes (decodeFuel src) fun _ _ => fault))

theorem uaVariantDecodeBinaryNest_counted :
    uaVariantDecodeBinaryNest counted src T = uaVariantDecodeBinary src T := by
  unfold uaVariantDecodeBinaryNest uaVariantDecodeBinary
  rw [← decodeBinaryJumpTable_levels]
  rfl

theorem uaDataValueDecodeBinaryNest_counted :
    uaDataValueDecodeBinaryNest counted src T = uaDataValueDecodeBinary src T := by
  unfold uaDataValueDecodeBinaryNest uaDataValueDecodeBinary
  rw [← decodeBinaryJumpTable_levels]
  rfl

/-- `UA_decodeBinary` starts with the counter at zero. -/
theorem uaDecodeBinary_congr {x y : Dec α} (h : SameAt 0 x y) :
    uaDecodeBinary x = uaDecodeBinary y := by
  funext offset
  unfold uaDecodeBinary
  rw [(h ⟨offset, 0⟩ rfl).1]

/-- A Variant never gets beyond the limit, and so a counter that stops there is enough. -/
theorem uaVariantDecodeBinary_bounded :
    uaVariantDecodeBinaryNest (countedUpTo (encodingMaxRecursion + 1)) src T =
      uaVariantDecodeBinary src T := by
  rw [← uaVariantDecodeBinaryNest_counted]
  exact uaDecodeBinary_congr
    (sameAt_variantBody countedUpTo_same fun e _ _ => levels_sameAt countedUpTo_same _ e)

/-- A DataValue never gets beyond the limit. -/
theorem uaDataValueDecodeBinary_bounded :
    uaDataValueDecodeBinaryNest (countedUpTo (encodingMaxRecursion + 1)) src T =
      uaDataValueDecodeBinary src T := by
  rw [← uaDataValueDecodeBinaryNest_counted]
  exact uaDecodeBinary_congr
    (sameAt_dataValueBody countedUpTo_same fun e _ _ => levels_sameAt countedUpTo_same _ e)

/-! ## Without the counted steps -/

/-- What a binary encoding id is looked up for: a structure, a union, an enumeration, or the
Boolean to which all ids of zero lead. -/
def EncodesStructures (T : DataTypes) : Prop :=
  ∀ typeId type, T.findDataTypeByBinary typeId = some type →
    (T.get type).typeKind ∈ [.struct, .optStruct, .union, .enum, .boolean]

theorem EncodesStructures.ne_extensionObject (hT : EncodesStructures T) {typeId : NodeId}
    {type : DataTypeRef} (h : T.findDataTypeByBinary typeId = some type) :
    (T.get type).typeKind ≠ .extensionObject := by
  intro hkind
  have hmem := hT typeId type h
  rw [hkind] at hmem
  exact absurd hmem (by decide)

/-- Only an ExtensionObject calls the table without counting a level. -/
theorem tableBody_cut (stop : ∀ α : Type, Dec α) (jump jump' : Jump) {kind : DataTypeKind}
    (hkind : kind ≠ .extensionObject) (type : DataTypeRef) :
    tableBody (cut stop) src T jump kind type = tableBody (cut stop) src T jump' kind type := by
  cases kind with
  | extensionObject => exact absurd rfl hkind
  | _ => rfl

/-- An ExtensionObject asks the table for known types only. -/
theorem extensionObject_congr {jump jump' : Jump}
    (h : ∀ typeId type, T.findDataTypeByBinary typeId = some type →
      jump (T.get type).typeKind type = jump' (T.get type).typeKind type) :
    extensionObjectDecodeBinary src T jump = extensionObjectDecodeBinary src T jump' := by
  have hcontent : extensionObjectDecodeBinaryContent src T jump =
      extensionObjectDecodeBinaryContent src T jump' := by
    funext typeId
    unfold extensionObjectDecodeBinaryContent
    cases hfind : T.findDataTypeByBinary typeId with
    | none => rfl
    | some type =>
      dsimp only
      rw [h typeId type hfind]
  unfold extensionObjectDecodeBinary
  rw [hcontent]

/-- **No cycle without a counted step**: two levels of the table are all there is. -/
theorem levels_uncounted (hT : EncodesStructures T) (stop : ∀ α : Type, Dec α)
    (jump jump' : Jump) : levels (cut stop) src T 2 jump = levels (cut stop) src T 2 jump' := by
  funext kind type
  show tableBody (cut stop) src T (tableBody (cut stop) src T jump) kind type =
    tableBody (cut stop) src T (tableBody (cut stop) src T jump') kind type
  by_cases hkind : kind = .extensionObject
  · subst hkind
    -- what an ExtensionObject decodes is no ExtensionObject
    have hnext : extensionObjectDecodeBinary src T (tableBody (cut stop) src T jump) =
        extensionObjectDecodeBinary src T (tableBody (cut stop) src T jump') :=
      extensionObject_congr fun typeId type hfind => tableBody_cut stop jump jump'
        (hT.ne_extensionObject hfind) type
    exact congrArg (Value.extensionObject <$> ·) hnext
  · exact tableBody_cut stop _ _ hkind type

/-! ## The recursion -/

/-- How many calls of the table may be open from here on, with the counter at `d`. -/
def callsLeft (d : Nat) (kind : DataTypeKind) : Nat :=
  2 * (encodingMaxRecursion + 1 - d) + if kind = .extensionObject then 2 else 1

theorem callsLeft_le (d : Nat) (kind : DataTypeKind) :
    callsLeft d kind ≤ 2 * (encodingMaxRecursion + 1 - d) + 2 := by
  unfold callsLeft
  split <;> omega

theorem lt_callsLeft (d : Nat) (kind : DataTypeKind) :
    2 * (encodingMaxRecursion + 1 - d) < callsLeft d kind := by
  unfold callsLeft
  split <;> omega

/-- **Bounded recursion**: what lies below these levels is never reached. The induction is on
the levels: a counted call has two fewer to go, an uncounted one leads to a counted one. -/
theorem levels_bounded (hT : EncodesStructures T) (jump jump' : Jump) (n : Nat) {d : Nat}
    {kind : DataTypeKind} (h : callsLeft d kind ≤ n) (type : DataTypeRef) :
    SameAt d (levels counted src T n jump kind type) (levels counted src T n jump' kind type) := by
  induction n generalizing d kind type with
  | zero =>
    have hpos := lt_callsLeft d kind
    omega
  | succ n ih =>
    have hlt := lt_callsLeft d kind
    refine tableBody_sameAt counted_same (fun e he hle kind' type' => ih ?_ type') kind type ?_
    · have hnext := callsLeft_le e kind'
      omega
    · rintro rfl typeId type' hfind
      refine ih ?_ type'
      unfold callsLeft at h ⊢
      rw [if_pos rfl] at h
      rw [if_neg (hT.ne_extensionObject hfind)]
      omega

/-! ## What the counter is for -/

/-- With its fuel a decoder comes to an end. -/
theorem uaDecodeBinary_ne_fault {I : Prop} {k : Nat} {x : Dec α}
    (hx : Moves I src (decodeFuel src) k x) (offset : Nat) : uaDecodeBinary x offset ≠ .fault := by
  intro h
  have hmoves := uaDecodeBinary_moves hx offset
  rw [h] at hmoves
  exact hmoves

/-- The counter is bounded, every cycle goes through it, and it is balanced. -/
structure NestingBounded (src : Bytes) (T : DataTypes) : Prop where
  /-- It never exceeds the limit by more than one. -/
  variant : ∀ offset, uaVariantDecodeBinary src T offset ≠ .fault ∧
    uaVariantDecodeBinaryNest (countedUpTo (encodingMaxRecursion + 1)) src T offset =
      uaVariantDecodeBinary src T offset
  dataValue : ∀ offset, uaDataValueDecodeBinary src T offset ≠ .fault ∧
    uaDataValueDecodeBinaryNest (countedUpTo (encodingMaxRecursion + 1)) src T offset =
      uaDataValueDecodeBinary src T offset
  /-- No cycle through the table goes without a counted step. -/
  cycles : ∀ (stop : ∀ α : Type, Dec α) (jump jump' : Jump),
    levels (cut stop) src T 2 jump = levels (cut stop) src T 2 jump'
  /-- A success leaves it as it was found. -/
  balanced : ∀ (n : Nat) (kind : DataTypeKind) (type : DataTypeRef) (s t : Ctx) (v : Value),
    decodeBinaryJumpTable src T n kind type s = .done v t → t.depth = s.depth
  /-- The recursion is bounded. -/
  recursion : ∀ (jump jump' : Jump) (n : Nat) (kind : DataTypeKind) (type : DataTypeRef) (s : Ctx),
    callsLeft s.depth kind ≤ n →
      levels counted src T n jump kind type s = levels counted src T n jump' kind type s

/-- **Nesting is bounded**, by the counter and by nothing else, for every message. -/
theorem nesting_bounded (hT : EncodesStructures T) (src : Bytes) : NestingBounded src T where
  variant offset := by
    refine ⟨?_, congrFun uaVariantDecodeBinary_bounded offset⟩
    exact uaDecodeBinary_ne_fault
      (variantDecodeBinary_moves (decodeBinaryJumpTable_moves _)).of_succ offset
  dataValue offset := by
    refine ⟨?_, congrFun uaDataValueDecodeBinary_bounded offset⟩
    exact uaDecodeBinary_ne_fault
      (dataValueDecodeBinary_moves (decodeBinaryJumpTable_moves _)).of_succ offset
  cycles := levels_uncounted hT
  balanced n kind type s t v h := by
    have hleft : LeftAt s.depth (decodeBinaryJumpTable src T n kind type s) :=
      decodeBinaryJumpTable_balanced n kind type s
    rw [h] at hleft
    exact hleft
  recursion jump jump' n kind type s h := (levels_bounded hT jump jump' n h type s rfl).1

/-- What is found has the encoding id that was looked for. -/
theorem encodesAs_of_find {ns : UInt16} {numeric : UInt32} {type : DataTypeRef}
    (h : T.findDataTypeByBinary ⟨ns, .numeric numeric⟩ = some type) :
    T.encodesAs ns numeric type = true := by
  obtain ⟨a, -, hfind⟩ := List.exists_of_findSome?_eq_some h
  exact List.find?_some hfind

/-- All built-in types have the encoding id zero, under which the first of them is found: the
Boolean. Any other entry that is found is one of the two structures. -/
theorem encodesStructures_readingTypes : EncodesStructures readingTypes := by
  rintro ⟨ns, numeric | _ | _ | _⟩ type h
  case string | guid | byteString => cases h
  have htest := encodesAs_of_find h
  rw [DataTypes.encodesAs, Bool.and_eq_true, beq_iff_eq, beq_iff_eq] at htest
  rcases get_readingTypes type with hget | hget | hget
  · rw [hget] at htest
    obtain ⟨rfl, rfl⟩ := htest
    cases h
    decide
  · rw [hget]
    decide
  · rw [hget]
    decide

/-- A reading in a Variant, in an array of Variants. -/
def nestedReadingBytes : Bytes :=
  [0x98, 0x01, 0x00, 0x00, 0x00] ++
    [0x16, 0x01, 0x01, 0x9D, 0x13, 0x01, 24, 0, 0, 0] ++ [0, 0, 0, 0] ++
    [2, 0, 0, 0, 7, 0, 0, 0, 0, 0, 0, 0] ++ [2, 0, 0, 0, 1, 0, 2, 0]

theorem nesting_bounded_reading : NestingBounded nestedReadingBytes readingTypes ∧
    ∃ v, uaVariantDecodeBinary nestedReadingBytes readingTypes 0 = .done v 39 :=
  ⟨nesting_bounded encodesStructures_readingTypes _, _, rfl⟩

end OpenPubSub
