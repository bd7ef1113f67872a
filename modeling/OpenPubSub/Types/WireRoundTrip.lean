import OpenPubSub.Types.NestedRoundTrip
import OpenPubSub.Types.WireFormat

/-!
# Decoding the binary format

Where the bytes of the format stand, the decoder reads the object they stand for and stops
behind them.

- `Value.arrives`: what the receiver gets. A Variant never holds a single ExtensionObject of
  known type but the object in it, and an array of structures is an array of
  ExtensionObjects. Enumerations are Int32 in a Variant.
- `WireItem.ReadsBack`: what the decoder does with the bytes of an item.
- **`Wire.readsBack`**: by induction on the item. A nested call has consumed a byte or opened
  a level, and so the fuel lasts.
- **`wire_roundTrip`**: encoder, size calculation and decoder agree on the format.
-/

namespace OpenPubSub

open Routine Writer

/-! ## What the receiver gets -/

/-- The structures of an array, in ExtensionObjects. -/
def wrapElements (type : DataTypeRef) : Value → Value
  | .array ys => .array (ys.map fun y => .extensionObject (.decoded type y))
  | _ => .array []

/-- An ExtensionObject of known type gives way to its content. -/
def unwrapExtensionObject (type : DataTypeRef) : Value → DataTypeRef × Value
  | .extensionObject (.decoded r y) => (r, y)
  | y => (type, y)

/-- The Variant that arrives, with the data as they arrive. -/
def VariantOf.arrived (T : DataTypes) (type : DataTypeRef) (data : Value)
    (dimensions : Option (List UInt32)) : Variant :=
  if data.isArray then
    ⟨some (T.announced type),
      if (T.get type).typeKind.isUnwrapped then data else wrapElements type data,
      nullIfEmpty dimensions⟩
  else if (T.get type).typeKind.isUnwrapped then
    ⟨some (unwrapExtensionObject (T.announced type) data).1,
      (unwrapExtensionObject (T.announced type) data).2, none⟩
  else ⟨some type, data, none⟩

section

variable (T : DataTypes)

mutual

def Value.arrives : Value → Value
  | .expandedNodeId id => .expandedNodeId id.received
  | .extensionObject e => .extensionObject (extensionObjectArrives e)
  | .variant v => .variant (variantArrives v)
  | .dataValue d => .dataValue (dataValueArrives d)
  | .struct xs => .struct (elementsArrive xs)
  | .optStruct xs => .optStruct (elementsArrive xs)
  | .union selection x => .union selection (if selection.toNat = 0 then .null else x.arrives)
  | .array xs => .array (elementsArrive xs)
  | x => x
  termination_by structural x => x

def extensionObjectArrives : ExtensionObjectOf Value → ExtensionObjectOf Value
  | .encoded typeId body => .encoded typeId body
  | .decoded type x => .decoded type x.arrives
  termination_by structural e => e

def variantArrives : VariantOf Value → VariantOf Value
  | ⟨none, _, _⟩ => default
  | ⟨some type, data, dimensions⟩ => .arrived T type data.arrives dimensions
  termination_by structural v => v

/-- A member that is not there is zero. -/
def dataValueArrives : DataValueOf Value → DataValueOf Value
  | ⟨hasValue, hasStatus, hasSourceTimestamp, hasServerTimestamp, hasSourcePicoseconds,
      hasServerPicoseconds, value, status, sourceTimestamp, sourcePicoseconds, serverTimestamp,
      serverPicoseconds⟩ =>
    ⟨hasValue, hasStatus, hasSourceTimestamp, hasServerTimestamp, hasSourcePicoseconds,
      hasServerPicoseconds, if hasValue then variantArrives value else default,
      if hasStatus then status else 0, if hasSourceTimestamp then sourceTimestamp else 0,
      if hasSourcePicoseconds then sourcePicoseconds else 0,
      if hasServerTimestamp then serverTimestamp else 0,
      if hasServerPicoseconds then serverPicoseconds else 0⟩
  termination_by structural d => d

def elementsArrive : List Value → List Value
  | [] => []
  | x :: xs => x.arrives :: elementsArrive xs
  termination_by structural xs => xs

end

end

variable {src : Bytes} {T : DataTypes} {α β : Type} {n fuel : Nat} {as bs cs : Bytes}
  {type : DataTypeRef} {x : Value}

theorem elementsArrive_eq_map (xs : List Value) :
    elementsArrive T xs = xs.map (Value.arrives T) := by
  induction xs with
  | nil => rfl
  | cons x xs ih => rw [elementsArrive, ih, List.map_cons]

theorem isArray_arrives (x : Value) : (x.arrives T).isArray = x.isArray := by
  cases x <;> simp [Value.arrives, Value.isArray]

theorem arrives_leaf {kind : DataTypeKind} (hx : x.isOfKind kind = true) :
    x.arrives T = x.received := by
  unfold Value.isOfKind at hx
  split at hx
  case h_22 => cases hx
  all_goals simp [Value.arrives, Value.received]

/-- Objects without pointers arrive as they are. -/
theorem arrives_of_memory {bytes : Bytes} (h : x.memory = some bytes) : x.arrives T = x := by
  cases x with
  | byte v | uint16 v | uint32 v | uint64 v | guid g | raw bytes => rfl
  | _ => cases h

/-! ## Parts -/

/-- Under a constructor. -/
theorem Reads.of_map {a : α} {y : Dec α} {g : α → β} (hg : Function.Injective g)
    (h : Reads src n bs (g a) (g <$> y)) : Reads src n bs a y := by
  intro c hat hdepth
  obtain ⟨a', hrun, hga⟩ := map_eq_done.mp (h c hat hdepth)
  rw [hrun, hg hga]

theorem reads_skip {k : Nat} (h : bs.length = k) : Reads src n bs () (skip k) := by
  intro c _ _
  rw [h]
  rfl

/-- The NodeId and the encoding byte of an ExtensionObject. -/
theorem reads_extensionObjectHead (hT : StandardTypes T) {id : NodeId}
    (hid : (nodeIdRest T id).ok = true) (encoding : UInt8) :
    Reads src n (nodeIdBytes T id ++ [encoding]) (id, encoding)
      (accum (nodeIdDecodeBinary src T) fun binTypeId =>
        accum (byteDecodeBinary src) fun encoding => pure (binTypeId, encoding)) :=
  (reads_nodeId hT hid).accum ((reads_byte encoding).accum_pure rfl)

/-- An ExtensionObject whose body stays as it is. -/
theorem reads_encoded (hT : StandardTypes T) {jump : Jump} {id : NodeId}
    (hid : (nodeIdRest T id).ok = true) (encoding : UInt8) {e : ExtensionObject}
    (h : Reads src n bs e (match encoding.toNat with
      | 0 => pure (.encoded id .noBody)
      | 1 => extensionObjectDecodeBinaryContent src T jump id
      | 2 => (fun body => .encoded id (.xml body)) <$> stringDecodeBinary src T
      | _ => fail badDecodingError)) :
    Reads src n ((nodeIdBytes T id ++ [encoding]) ++ bs) e
      (extensionObjectDecodeBinary src T jump) :=
  (reads_extensionObjectHead hT hid encoding).bind h

/-- The length is jumped over. -/
theorem reads_decoded (hT : StandardTypes T) {jump : Jump} {y : Value} {size : Nat}
    (hfound : T.findDataTypeByBinary (T.encodingId type) = some type)
    (h : Reads src n bs y (jump (T.get type).typeKind type)) :
    Reads src n (wrapperBytes T type size ++ bs) (.decoded type y)
      (extensionObjectDecodeBinary src T jump) := by
  have hbody : Reads src n (leBytes 4 size ++ bs) (.decoded type y)
      (extensionObjectDecodeBinaryContent src T jump (T.encodingId type)) := by
    rw [extensionObjectDecodeBinaryContent, hfound]
    exact (reads_skip (leBytes_length 4 size)).bind h.map
  refine (reads_encoded hT rfl 1 hbody).congr ?_
  simp only [wrapperBytes, List.append_assoc]

/-! ## Optional members -/

theorem optFlags_length_le (ms : List DataTypeMember) (xs : List Value) :
    (optFlags ms xs).length ≤ (ms.filter DataTypeMember.isOptional).length := by
  induction ms generalizing xs with
  | nil => exact Nat.zero_le _
  | cons m ms ih =>
    cases xs with
    | nil => exact Nat.zero_le _
    | cons x xs =>
      rw [optFlags, List.filter_cons]
      by_cases hm : m.isOptional = true
      · rw [if_pos hm, if_pos hm]
        exact Nat.succ_le_succ (ih xs)
      · rw [if_neg hm, if_neg hm]
        exact ih xs

/-- A single bit. -/
theorem toNat_one_shiftLeft {o : Nat} (h : o < 32) :
    ((1 : UInt32) <<< UInt32.ofNat o).toNat = 2 ^ o := by
  have hword : (UInt32.ofNat o).toNat = o := by
    rw [UInt32.toNat_ofNat', Nat.mod_eq_of_lt (by omega)]
  rw [UInt32.toNat_shiftLeft, hword, Nat.mod_eq_of_lt h]
  show 1 <<< o % 2 ^ 32 = 2 ^ o
  rw [Nat.one_shiftLeft, Nat.mod_eq_of_lt (Nat.pow_lt_pow_right (by decide) h)]

/-- The bit of the optional member with the number `o`. -/
theorem memberBit_testBit (x : Value) {o : Nat} (h : o < 32) (j : Nat) :
    (if x.isNull then (0 : UInt32) else 1 <<< UInt32.ofNat o).toNat.testBit j =
      (!x.isNull && decide (o = j)) := by
  cases x.isNull with
  | true => simp
  | false =>
    show ((1 : UInt32) <<< UInt32.ofNat o).toNat.testBit j = _
    rw [toNat_one_shiftLeft h, Nat.testBit_two_pow]
    simp

/-- A flag in front of others, as a bit in front of others. -/
theorem cons_flag_testBit (flag : Bool) (flags : List Bool) (o j : Nat) :
    ((flag && decide (o = j)) || (decide (o + 1 ≤ j) && flags.getD (j - (o + 1)) false)) =
      (decide (o ≤ j) && (flag :: flags).getD (j - o) false) := by
  -- the bit of this member, one in front of it, or one behind it
  rcases Nat.lt_trichotomy o j with hlt | rfl | hgt
  · obtain ⟨k, rfl⟩ : ∃ k, j = o + 1 + k := ⟨j - (o + 1), by omega⟩
    have hk : o + 1 + k - o = k + 1 := by omega
    rw [hk, List.getD_cons_succ]
    simp only [show ¬ o = o + 1 + k by omega, show o + 1 ≤ o + 1 + k by omega,
      show o ≤ o + 1 + k by omega, Nat.add_sub_cancel_left, decide_true, decide_false,
      Bool.and_false, Bool.false_or, Bool.true_and]
  · simp [show ¬ o + 1 ≤ o by omega]
  · simp [show ¬ o = j by omega, show ¬ o + 1 ≤ j by omega, show ¬ o ≤ j by omega]

/-- The bits of the encoding mask, counted from the optional members already seen. The bits in
front of them are clear. -/
theorem optEncodingMask_testBit {owner : DataTypeRef} {ms : List DataTypeMember}
    {xs : List Value} {o : Nat} {ahead : Int} {mask : UInt32}
    (hmask : optEncodingMask T owner ms xs o ahead = some mask)
    (h : o + (optFlags ms xs).length ≤ 32) (j : Nat) :
    mask.toNat.testBit j = (decide (o ≤ j) && (optFlags ms xs).getD (j - o) false) := by
  induction ms generalizing xs o ahead mask with
  | nil =>
    cases hmask
    simp [optFlags]
  | cons m ms ih =>
    cases xs with
    | nil =>
      cases hmask
      simp [optFlags]
    | cons x xs =>
      rw [optFlags] at h ⊢
      rw [optEncodingMask] at hmask
      by_cases hm : m.isOptional = true
      · rw [if_pos hm, List.length_cons] at h
        rw [if_pos hm] at hmask ⊢
        -- there is a mask only where the loop is at the member
        by_cases hahead : ahead = 0
        · rw [if_pos hahead] at hmask
          obtain ⟨rest, hrest, rfl⟩ := Option.map_eq_some_iff.mp hmask
          rw [UInt32.toNat_or, Nat.testBit_or, memberBit_testBit x (by omega),
            ih hrest (by omega), cons_flag_testBit]
        · rw [if_neg hahead] at hmask
          cases hmask
      · rw [if_neg hm] at h hmask ⊢
        -- a mandatory member has no bit
        by_cases harray : m.isArray = true
        · rw [if_pos harray] at hmask
          exact ih hmask h
        · rw [if_neg harray] at hmask
          exact ih hmask h

/-! ## Arrays -/

theorem arrayMemory_eq_some {memSize : Nat} {memory : α → Option Bytes} {xs : List α}
    (h : arrayMemory memSize memory xs = some bs) :
    bs = xs.flatMap (fun x => (memory x).getD []) ∧
      ∀ x ∈ xs, ((memory x).getD []).length = memSize := by
  induction xs generalizing bs with
  | nil =>
    cases h
    exact ⟨rfl, fun _ h => absurd h List.not_mem_nil⟩
  | cons x xs ih =>
    simp only [arrayMemory, Option.bind_eq_bind, Option.bind_eq_some_iff] at h
    obtain ⟨b, hb, rest, hrest, h⟩ := h
    obtain ⟨hbytes, hlen⟩ := ih hrest
    by_cases hsize : b.length = memSize
    · rw [if_pos hsize] at h
      cases h
      refine ⟨by rw [List.flatMap_cons, hb, ← hbytes]; rfl, List.forall_mem_cons.mpr ⟨?_, hlen⟩⟩
      rw [hb]
      exact hsize
    · rw [if_neg hsize] at h
      cases h

/-- An array with its length. The bytes of the length stand in the message, and so the copy of
an array without bytes starts inside of it. -/
theorem reads_wireArray {type : DataType} {ofMemory : Bytes → α} {element : Dec α} {ys : List α}
    (hlen : ys.length ≤ int32Max) (hroom : type.memSize * ys.length / 32 ≤ bs.length)
    (hnil : ys = [] → bs = [])
    (hcopied : type.overlayable = true → bs.length = type.memSize * ys.length ∧
      (chunks type.memSize ys.length bs).map ofMemory = ys)
    (helement : type.overlayable = false → Reads src n bs ys (times element ys.length)) :
    Reads src n (lengthBytes (some ys.length) ++ bs) (some ys)
      (arrayDecodeBinary src type ofMemory element) := by
  intro c hat hdepth
  have hbound := hat.le_length_of_pos (by rw [List.length_append, lengthBytes_length]; omega)
  obtain ⟨hlength, hbytes⟩ := at_append.mp hat
  rw [List.length_append, lengthBytes_length] at hbound
  rw [lengthBytes_length] at hbytes
  obtain ⟨hword, hsigned⟩ := signedLength_some hlen
  have hstart : uint32DecodeBinary src c =
      .done (signedLengthWord (some ys.length)) { c with pos := c.pos + 4 } := by
    have hread : Reads src n (lengthBytes (some ys.length)) _ (uint32DecodeBinary src) :=
      reads_uint32 _
    rw [hread c hlength hdepth, lengthBytes_length]
  rw [arrayDecodeBinary, bind_done hstart, hsigned, hword, List.length_append, lengthBytes_length,
    ← Nat.add_assoc]
  -- an empty array returns before the size filter
  by_cases hempty : ys.length = 0
  · have hys := List.length_eq_zero_iff.mp hempty
    subst hys
    rw [hnil rfl]
    rfl
  · rw [if_neg (by omega)]
    -- the size filter: a 32nd of the memory has to follow
    have hneed : need src (type.memSize * ys.length / 32) { c with pos := c.pos + 4 } =
        .done () { c with pos := c.pos + 4 } :=
      if_pos (by show c.pos + 4 + _ ≤ _; omega)
    rw [bind_done hneed]
    cases hover : type.overlayable with
    | true =>
      obtain ⟨hsize, hcopy⟩ := hcopied hover
      have hfixed : fixedDecodeBinary src (type.memSize * ys.length) { c with pos := c.pos + 4 } =
          .done bs { c with pos := c.pos + 4 + bs.length } := by
        rw [← hsize, fixedDecodeBinary_run, if_pos (by show c.pos + 4 + _ ≤ _; omega)]
        show Outcome.done ((src.drop (c.pos + 4)).take bs.length) _ = _
        rw [hbytes.take_eq]
      rw [if_pos rfl, map_done hfixed, hcopy]
    | false =>
      rw [if_neg Bool.false_ne_true]
      exact (helement hover).map _ hbytes hdepth

/-! ## Variants and DataValues -/

theorem DataTypeKind.isBuiltin_announced (kind : DataTypeKind) :
    kind.announced.isBuiltin = true := by
  cases kind <;> rfl

theorem DataTypeKind.eq_of_announced {kind kind' : DataTypeKind} (h : kind.isUnwrapped = true)
    (hne : kind' ≠ .int32) (hannounced : kind.announced = kind') : kind = kind' := by
  subst hannounced
  cases kind <;> first | rfl | exact absurd rfl hne | cases h

theorem variantEncodingByte_announced (kind : DataTypeKind) (isArray dimensions : Bool) :
    variantEncodingByte kind isArray dimensions =
      variantEncodingByte kind.announced isArray dimensions := by
  cases kind <;> rfl

/-- The decoder of a kind that is sent as it is does not look at the type. -/
theorem decodeBinaryJumpTable_announced {kind : DataTypeKind} (h : kind.isUnwrapped = true)
    (fuel : Nat) (type type' : DataTypeRef) :
    decodeBinaryJumpTable src T fuel kind.announced type' =
      decodeBinaryJumpTable src T fuel kind type := by
  cases fuel with
  | zero => rfl
  | succ fuel => cases kind <;> first | rfl | cases h

/-- A Variant, given its content and its dimensions. -/
theorem reads_wireVariant {jump : Jump} (hn : n ≤ encodingMaxRecursion) {kind : DataTypeKind}
    {isArray hasDimensions : Bool} {data : Value} {dimensions : Option (List UInt32)}
    (hvariant : ¬ (kind.announced = .variant ∧ isArray = false))
    (hcontent : Reads src (n + 1) as (type, data)
      (variantDecodeBinaryContent src T jump kind.announced isArray))
    (hdimensions : Reads src (n + 1) bs dimensions
      (whenSet (isArray && hasDimensions) (dimensionsDecodeBinary src T))) :
    Reads src n ([variantEncodingByte kind isArray hasDimensions] ++ (as ++ bs))
      ⟨some type, data, dimensions⟩ (variantDecodeBinary src T jump) := by
  rw [variantEncodingByte_announced]
  obtain ⟨hzero, htype, harray, hdims⟩ :=
    variantEncodingByte_fields kind.isBuiltin_announced isArray hasDimensions
  have hrest := hcontent.accum (f := fun content =>
    accum (whenSet (isArray && hasDimensions) (dimensionsDecodeBinary src T)) fun dimensions =>
      pure (⟨some content.1, content.2, dimensions⟩ : Variant)) (hdimensions.accum_pure rfl)
  unfold variantDecodeBinary
  refine (reads_byte _).bind ?_
  simp only [if_neg hzero, htype, harray, if_neg hvariant, hdims]
  exact ((reads_checkRecursion hn).bind hrest.deeper).congr (List.nil_append _)

/-- A Variant without an array has no dimensions. -/
theorem reads_wireScalar {jump : Jump} (hn : n ≤ encodingMaxRecursion) {kind : DataTypeKind}
    {data : Value} (hvariant : kind.announced ≠ .variant)
    (hcontent : Reads src (n + 1) as (type, data)
      (variantDecodeBinaryContent src T jump kind.announced false)) :
    Reads src n ([variantEncodingByte kind false false] ++ as) ⟨some type, data, none⟩
      (variantDecodeBinary src T jump) :=
  (reads_wireVariant hn (fun h => hvariant h.1) hcontent (reads_pure none)).congr
    (by rw [List.append_nil])

/-- A Variant with an array. -/
theorem reads_wireArrayVariant (hT : StandardTypes T) {jump : Jump} (hn : n ≤ encodingMaxRecursion)
    {kind : DataTypeKind} {data y : Value} {dimensions : Option (List UInt32)}
    (harray : data.isArray = true) (hdimensions : (dimensions.getD []).length ≤ int32Max)
    (hcontent : Reads src (n + 1) as (type, y)
      (variantDecodeBinaryContent src T jump kind.announced true)) :
    Reads src n ([variantEncodingByte kind true (decide ((dimensions.getD []).length > 0))] ++
        (as ++ wireDimensions data dimensions)) ⟨some type, y, nullIfEmpty dimensions⟩
      (variantDecodeBinary src T jump) := by
  have hdims : Reads src (n + 1) (wireDimensions data dimensions) _ _ :=
    reads_wireDimensions hT (by rw [decide_eq_true hdimensions, Bool.or_true])
  rw [harray, if_pos rfl] at hdims
  exact reads_wireVariant hn (fun h => Bool.noConfusion h.2) hcontent hdims

/-- The object behind a header that announces a known type. -/
theorem reads_unwrapped (hT : StandardTypes T) {jump : Jump} {y : Value} {size : Nat}
    (hfound : T.findDataTypeByBinary (T.encodingId type) = some type)
    (h : Reads src n bs y (jump (T.get type).typeKind type)) :
    Reads src n (wrapperBytes T type size ++ bs) (type, y)
      (variantDecodeBinaryContent src T jump .extensionObject false) := by
  have hcontent : ∀ oldPos, Reads src n (leBytes 4 size ++ bs) (type, y)
      (variantDecodeBinaryUnwrapContent T jump oldPos (T.encodingId type) 1) := by
    intro oldPos
    rw [variantDecodeBinaryUnwrapContent, if_pos rfl, hfound]
    exact (reads_skip (leBytes_length 4 size)).bind h.map
  intro c hat hdepth
  have hbytes : wrapperBytes T type size ++ bs =
      nodeIdBytes T (T.encodingId type) ++ ([1] ++ (leBytes 4 size ++ bs)) := by
    simp only [wrapperBytes, List.append_assoc]
  rw [hbytes] at hat ⊢
  exact ((reads_nodeId hT rfl).bind ((reads_byte 1).bind (hcontent c.pos))) c hat hdepth

/-- Anything else is read once more, as an ExtensionObject. -/
theorem reads_rewound (hT : StandardTypes T) {jump : Jump} {y : Value} {id : NodeId}
    {encoding : UInt8} (hid : (nodeIdRest T id).ok = true)
    (hunknown : (if encoding = 1 then T.findDataTypeByBinary id else none) = none)
    (hbs : bs = nodeIdBytes T id ++ ([encoding] ++ as))
    (h : Reads src n bs y (jump .extensionObject (DataTypes.builtin .extensionObject))) :
    Reads src n bs (DataTypes.builtin .extensionObject, y)
      (variantDecodeBinaryContent src T jump .extensionObject false) := by
  intro c hat hdepth
  have hhead := hat
  rw [hbs] at hhead
  obtain ⟨hnode, hrest⟩ := at_append.mp hhead
  obtain ⟨hbyte, -⟩ := at_append.mp hrest
  have hcontent : variantDecodeBinaryUnwrapContent T jump c.pos id encoding
      ⟨c.pos + (nodeIdBytes T id).length + [encoding].length, c.depth⟩ =
        .done (DataTypes.builtin .extensionObject, y) { c with pos := c.pos + bs.length } := by
    have hkind : (T.get (DataTypes.builtin .extensionObject)).typeKind = .extensionObject :=
      T.get_builtin rfl
    rw [variantDecodeBinaryUnwrapContent, hunknown]
    show (Prod.mk _ <$> jump _ _) c = _
    rw [hkind]
    exact h.map c hat hdepth
  -- the type is not known: the decoder goes back to where the content started
  show variantDecodeBinaryUnwrapExtensionObject src T jump c = _
  unfold variantDecodeBinaryUnwrapExtensionObject
  have hid' : nodeIdDecodeBinary src T c =
      .done id { c with pos := c.pos + (nodeIdBytes T id).length } :=
    reads_nodeId hT hid c hnode hdepth
  rw [bind_done (show gets Ctx.pos c = .done c.pos c from rfl), bind_done hid',
    bind_done (reads_byte encoding ⟨c.pos + (nodeIdBytes T id).length, c.depth⟩ hbyte hdepth)]
  exact hcontent

/-- A DataValue, given its Variant. -/
theorem reads_wireDataValue {jump : Jump} (hn : n ≤ encodingMaxRecursion) {d : DataValue}
    {v : Variant} (hsource : d.hasSourcePicoseconds = true → d.sourcePicoseconds ≤ maxPicoSeconds)
    (hserver : d.hasServerPicoseconds = true → d.serverPicoseconds ≤ maxPicoSeconds)
    (hvalue : Reads src (n + 1) as v (whenSet d.hasValue (variantDecodeBinary src T jump)))
    (harrives : v = if d.hasValue then variantArrives T d.value else default) :
    Reads src n ([dataValueMask d] ++ (as ++ dataValueTailBytes d)) (dataValueArrives T d)
      (dataValueDecodeBinary src T jump) := by
  obtain ⟨hvalueBit, hstatus, hsourceBit, hserverBit, hsourcePico, hserverPico⟩ :=
    dataValueMask_fields d
  subst harrives
  obtain ⟨hasValue, hasStatus, hasSourceTimestamp, hasServerTimestamp, hasSourcePicoseconds,
    hasServerPicoseconds, value, status, sourceTimestamp, sourcePicoseconds, serverTimestamp,
    serverPicoseconds⟩ := d
  unfold dataValueDecodeBinary
  refine (reads_byte _).bind ?_
  simp only [hvalueBit, hstatus, hsourceBit, hserverBit, hsourcePico, hserverPico]
  exact ((reads_checkRecursion hn).bind
    (hvalue.accum (reads_dataValueTail hsource hserver _)).deeper).congr (List.nil_append _)

/-! ## The decoder -/

/-- What the decoder does with the bytes of an item. Elements that are copied are taken apart
by their size. -/
def WireItem.ReadsBack (src : Bytes) (T : DataTypes) (n : Nat) (bs : Bytes) (jump : Jump) :
    WireItem → Prop
  | .object kind type x => Reads src n bs (x.arrives T) (jump kind type)
  | .values type x => Reads src n bs (x.arrives T) (valuesDecodeBinary src T jump type)
  | .elements type xs =>
    ((T.get type).overlayable = true → bs.length = (T.get type).memSize * xs.length ∧
      (chunks (T.get type).memSize xs.length bs).map (Value.ofMemory (T.get type).typeKind) =
        elementsArrive T xs) ∧
    ((T.get type).overlayable = false → Reads src n bs (elementsArrive T xs)
      (times (jump (T.get type).typeKind type) xs.length))
  | .wrapped type xs =>
    Reads src n bs ((elementsArrive T xs).map fun y => .extensionObject (.decoded type y))
      (times (jump .extensionObject (DataTypes.builtin .extensionObject)) xs.length)
  | .member owner m x => Reads src n bs (x.arrives T) (memberDecodeBinary src T jump owner m)
  | .members owner ms xs =>
    Reads src n bs (elementsArrive T xs) (decodeMembers src T jump owner ms)
  | .optMembers owner ms xs => ∀ (mask : UInt32) (o : Nat),
    (∀ i, mask.toNat.testBit (o + i) = (optFlags ms xs).getD i false) →
      Reads src n bs (elementsArrive T xs) (decodeOptMembers src T jump owner mask o ms)

theorem length_elementsArrive (xs : List Value) : (elementsArrive T xs).length = xs.length := by
  rw [elementsArrive_eq_map, List.length_map]

/-- Objects that are copied from memory, and back. -/
theorem copied_arrive {xs : List Value}
    (hmem : arrayMemory (T.get type).memSize Value.memory xs = some bs)
    (hback : ∀ x ∈ xs, x.memory.map (Value.ofMemory (T.get type).typeKind) = some x) :
    bs.length = (T.get type).memSize * xs.length ∧
      (chunks (T.get type).memSize xs.length bs).map (Value.ofMemory (T.get type).typeKind) =
        elementsArrive T xs := by
  obtain ⟨hbytes, hlen⟩ := arrayMemory_eq_some hmem
  refine ⟨arrayMemory_length hmem, ?_⟩
  rw [hbytes, chunks_flatMap hlen, List.map_map, elementsArrive_eq_map]
  refine List.map_congr_left fun x hx => ?_
  obtain ⟨bytes, hmemory, hof⟩ := Option.map_eq_some_iff.mp (hback x hx)
  rw [Function.comp_apply, hmemory, arrives_of_memory hmemory]
  exact hof

/-- An array in a Variant is announced as one of a type that looks the same. -/
theorem valuesDecodeBinary_announced (hkind : (T.get type).typeKind.isUnwrapped = true)
    (hsize : (T.get type).memSize = (T.get (T.announced type)).memSize)
    (hover : (T.get type).overlayable = (T.get (T.announced type)).overlayable) (fuel : Nat) :
    valuesDecodeBinary src T (decodeBinaryJumpTable src T fuel) (T.announced type) =
      valuesDecodeBinary src T (decodeBinaryJumpTable src T fuel) type := by
  have htype : (T.get (T.announced type)).typeKind = (T.get type).typeKind.announced :=
    T.get_builtin (DataTypeKind.isBuiltin_announced _)
  have hmemory : Value.ofMemory (T.get type).typeKind.announced =
      Value.ofMemory (T.get type).typeKind := by
    cases (T.get type).typeKind <;> rfl
  simp only [valuesDecodeBinary, arrayDecodeBinary, htype, hmemory, ← hsize, ← hover,
    decodeBinaryJumpTable_announced hkind fuel type (T.announced type)]

theorem five_le_wrapperBytes (type : DataTypeRef) (size : Nat) :
    5 ≤ (wrapperBytes T type size).length := by
  simp only [wrapperBytes, List.length_append, List.length_singleton, leBytes_length]
  omega

theorem Wire.wrapped_length {xs : List Value} (h : Wire T n (.wrapped type xs) bs) :
    5 * xs.length ≤ bs.length := by
  induction xs generalizing bs with
  | nil => exact Nat.zero_le _
  | cons x xs ih =>
    cases h with
    | @wrapped _ _ _ _ size _ _ hwraps hx hxs =>
      have hrest := ih hxs
      have hhead := five_le_wrapperBytes (T := T) type size
      rw [List.length_append, List.length_append, List.length_cons]
      omega

theorem Wire.wrapped_nil (h : Wire T n (.wrapped type []) bs) : bs = [] := by
  cases h
  rfl

/-- An ExtensionObject that stays as it is has an id in front that is not looked up, or not
found. -/
theorem Wire.encoded_head (h : Wire T n (.object .extensionObject type x) bs)
    (hencoded : ∀ r y, x ≠ .extensionObject (.decoded r y)) :
    ∃ id encoding as, (nodeIdRest T id).ok = true ∧
      (if encoding = 1 then T.findDataTypeByBinary id else none) = none ∧
      bs = nodeIdBytes T id ++ ([encoding] ++ as) := by
  cases h with
  | leaf hkind hx hnormal hfits => cases hkind
  | noBody hid => exact ⟨_, 0, [], hid, rfl, rfl⟩
  | byteString hid hunknown hbody => exact ⟨_, 1, _, hid, hunknown, rfl⟩
  | xml hid hbody => exact ⟨_, 2, _, hid, rfl, rfl⟩
  | decoded hwraps hx => exact absurd rfl (hencoded _ _)

theorem unwrapExtensionObject_arrives (type : DataTypeRef)
    (hencoded : ∀ r y, x ≠ .extensionObject (.decoded r y)) :
    unwrapExtensionObject type (x.arrives T) = (type, x.arrives T) := by
  cases x with
  | extensionObject e =>
    cases e with
    | encoded id body => rfl
    | decoded r y => exact absurd rfl (hencoded r y)
  | _ => rfl

theorem DataTypeKind.announced_of_not_unwrapped {kind : DataTypeKind}
    (h : kind.isUnwrapped = false) : kind.announced = .extensionObject := by
  cases kind <;> first | rfl | cases h

/-- An array of structures is one of ExtensionObjects. -/
theorem reads_wrappedArray (hT : StandardTypes T) {jump : Jump} {kind : DataTypeKind}
    (hkind : kind.isUnwrapped = false) {ys : List Value} (hlen : ys.length ≤ int32Max)
    (hroom : 5 * ys.length ≤ bs.length) (hnil : ys = [] → bs = [])
    (h : Reads src n bs ys
      (times (jump .extensionObject (DataTypes.builtin .extensionObject)) ys.length)) :
    Reads src n (lengthBytes (some ys.length) ++ bs)
      (DataTypes.builtin .extensionObject, Value.array ys)
      (variantDecodeBinaryContent src T jump kind.announced true) := by
  have htype : (T.get (DataTypes.builtin .extensionObject)).typeKind = .extensionObject :=
    T.get_builtin rfl
  have hsize : (T.get (DataTypes.builtin .extensionObject)).memSize = 48 :=
    hT.memSize .extensionObject rfl
  rw [DataTypeKind.announced_of_not_unwrapped hkind, variantDecodeBinaryContent, if_pos rfl]
  refine Reads.map (Reads.map (a := some ys) (reads_wireArray hlen ?_ hnil ?_ ?_))
  · rw [hsize]
    omega
  · intro hover
    cases hT.overlayable .extensionObject rfl hover
  · intro _
    rw [htype]
    exact h

/-- A single object in a Variant that does not give way to its content. -/
theorem reads_scalarContent (hT : StandardTypes T)
    (hkind : (T.get type).typeKind.isUnwrapped = true)
    (hencoded : ∀ r y, x ≠ .extensionObject (.decoded r y))
    (hx : Wire T n (.object (T.get type).typeKind type x) bs)
    (h : Reads src n bs (x.arrives T)
      (decodeBinaryJumpTable src T fuel (T.get type).typeKind type)) :
    Reads src n bs (T.announced type, x.arrives T) (variantDecodeBinaryContent src T
      (decodeBinaryJumpTable src T fuel) (T.get type).typeKind.announced false) := by
  have hjump : ∀ type', Reads src n bs (x.arrives T)
      (decodeBinaryJumpTable src T fuel (T.get type).typeKind.announced type') := fun type' => by
    rw [decodeBinaryJumpTable_announced hkind fuel type type']
    exact h
  unfold DataTypes.announced
  generalize (T.get type).typeKind = kind at hkind hx hjump
  by_cases hextension : kind = .extensionObject
  · subst hextension
    obtain ⟨id, encoding, as, hid, hunknown, hbs⟩ := hx.encoded_head hencoded
    exact reads_rewound hT hid hunknown hbs (hjump _)
  · have hannounced : kind.announced ≠ .extensionObject := fun h =>
      hextension (DataTypeKind.eq_of_announced hkind nofun h)
    rw [variantDecodeBinaryContent, if_neg Bool.false_ne_true, if_pos hannounced]
    exact (hjump _).map

/-! ### The rules, one by one

What a rule makes of the items it is about. An object takes one of the fuel, so that what is
inside of it is read with one less. -/

/-- A structure with optional members, given the members. -/
theorem readsBack_optStruct {xs : List Value} {mask : UInt32} (hn : n ≤ encodingMaxRecursion)
    (hcount : ((T.get type).members.filter DataTypeMember.isOptional).length ≤ 32)
    (hmask : optEncodingMask T type (T.get type).members xs 0 0 = some mask)
    (h : (WireItem.optMembers type (T.get type).members xs).ReadsBack src T (n + 1) bs
      (decodeBinaryJumpTable src T fuel)) :
    (WireItem.object .optStruct type (.optStruct xs)).ReadsBack src T n
      (leBytes 4 mask.toNat ++ bs) (decodeBinaryJumpTable src T (fuel + 1)) := by
  have hflags := optFlags_length_le (T.get type).members xs
  -- the bits of the mask that was written are the flags of the members
  have hmembers := h mask 0 fun i => by
    rw [optEncodingMask_testBit hmask (by omega), decide_eq_true (by omega), Bool.true_and,
      Nat.zero_add, Nat.sub_zero]
  exact Reads.map ((reads_checkRecursion hn).bind (Reads.deeper ((reads_uint32 _).bind hmembers)))

/-- A union, given the selected member. -/
theorem readsBack_selection {selection : UInt32} {i : Nat} {m : DataTypeMember}
    (hn : n ≤ encodingMaxRecursion) (hselection : selection.toNat = i + 1)
    (hm : (T.get type).members[i]? = some m)
    (h : (WireItem.object (T.get (DataTypes.memberType type m)).typeKind
      (DataTypes.memberType type m) x).ReadsBack src T (n + 1) bs
        (decodeBinaryJumpTable src T fuel)) :
    (WireItem.object .union type (.union selection x)).ReadsBack src T n
      (leBytes 4 selection.toNat ++ bs) (decodeBinaryJumpTable src T (fuel + 1)) := by
  have hmember : Reads src (n + 1) bs (x.arrives T) (decodeBinaryJumpTable src T fuel
      (T.get (DataTypes.memberType type m)).typeKind (DataTypes.memberType type m)) := h
  have hunion : (Value.union selection x).arrives T = .union selection (x.arrives T) := by
    rw [Value.arrives, if_neg (by omega)]
  rw [WireItem.ReadsBack, hunion]
  refine Reads.congr ((reads_checkRecursion hn).bind ((reads_uint32 selection).bind ?_))
    (List.nil_append _)
  simp only [hselection, hm]
  exact hmember.deeper.map

/-- An optional member that is absent: its bit is clear, and the next bit is for the next
optional member. -/
theorem readsBack_absent {jump : Jump} {owner : DataTypeRef} {m : DataTypeMember}
    {ms : List DataTypeMember} {xs : List Value} (hm : m.isOptional = true)
    (h : (WireItem.optMembers owner ms xs).ReadsBack src T n bs jump) :
    (WireItem.optMembers owner (m :: ms) (.null :: xs)).ReadsBack src T n bs jump := by
  intro mask o hmask
  have hclear : mask.toNat.testBit o = false := by
    have hbit := hmask 0
    rwa [optFlags, if_pos hm] at hbit
  have hmembers := h mask (o + 1) fun i => by
    have hbit := hmask (i + 1)
    rw [optFlags, if_pos hm, List.getD_cons_succ] at hbit
    rw [← hbit]
    congr 1
    omega
  rw [decodeOptMembers, optMemberDecodeBinary, hm, hclear,
    if_pos (show (true && !false) = true from rfl), if_pos rfl]
  exact Reads.bind (reads_pure Value.null) (Reads.map hmembers)

/-- A member that is present. Only an optional one has a bit. -/
theorem readsBack_present {jump : Jump} {owner : DataTypeRef} {m : DataTypeMember}
    {ms : List DataTypeMember} {xs : List Value} (hm : m.isOptional = true → x.isNull = false)
    (hx : (WireItem.member owner m x).ReadsBack src T n as jump)
    (hxs : (WireItem.optMembers owner ms xs).ReadsBack src T n bs jump) :
    (WireItem.optMembers owner (m :: ms) (x :: xs)).ReadsBack src T n (as ++ bs) jump := by
  intro mask o hmask
  have hread : optMemberDecodeBinary src T jump owner mask o m =
      memberDecodeBinary src T jump owner m := by
    refine if_neg fun hskip => ?_
    obtain ⟨hopt, hclear⟩ := (Bool.and_eq_true ..).mp hskip
    have hbit := hmask 0
    rw [optFlags, if_pos hopt, hm hopt, Nat.add_zero] at hbit
    rw [hbit] at hclear
    cases hclear
  have hmembers := hxs mask (if m.isOptional then o + 1 else o) fun i => by
    by_cases hopt : m.isOptional = true
    · have hbit := hmask (i + 1)
      rw [optFlags, if_pos hopt, List.getD_cons_succ] at hbit
      rw [if_pos hopt, ← hbit]
      congr 1
      omega
    · have hbit := hmask i
      rw [optFlags, if_neg hopt] at hbit
      rw [if_neg hopt, hbit]
  rw [decodeOptMembers, hread]
  exact Reads.bind hx (Reads.map hmembers)

/-- An array, given its elements. -/
theorem readsBack_values {jump : Jump} {xs : List Value} (hlen : xs.length ≤ int32Max)
    (hroom : (T.get type).memSize * xs.length / 32 ≤ bs.length)
    (hxs : Wire T n (.elements type xs) bs)
    (h : (WireItem.elements type xs).ReadsBack src T n bs jump) :
    (WireItem.values type (.array xs)).ReadsBack src T n
      (lengthBytes (some xs.length) ++ bs) jump := by
  obtain ⟨hcopied, helement⟩ := h
  have hys := length_elementsArrive (T := T) xs
  rw [← hys] at hlen hroom hcopied helement ⊢
  refine Reads.map (reads_wireArray hlen hroom (fun hnil => ?_) hcopied helement)
  have hxsnil : xs = [] := List.eq_nil_of_length_eq_zero (by rw [← hys, hnil]; rfl)
  subst hxsnil
  exact hxs.elements_nil

/-- A Variant with an object of a kind that is no structure. -/
theorem readsBack_scalar (hT : StandardTypes T) {r : DataTypeRef}
    (dimensions : Option (List UInt32)) (hn : n ≤ encodingMaxRecursion)
    (hkind : (T.get r).typeKind.isUnwrapped = true) (hvariant : (T.get r).typeKind ≠ .variant)
    (hencoded : ∀ r y, x ≠ .extensionObject (.decoded r y))
    (hx : Wire T (n + 1) (.object (T.get r).typeKind r x) bs)
    (h : (WireItem.object (T.get r).typeKind r x).ReadsBack src T (n + 1) bs
      (decodeBinaryJumpTable src T fuel)) :
    (WireItem.object .variant type (.variant ⟨some r, x, dimensions⟩)).ReadsBack src T n
      ([variantEncodingByte (T.get r).typeKind false false] ++ bs)
      (decodeBinaryJumpTable src T (fuel + 1)) := by
  have hannounced : (T.get r).typeKind.announced ≠ .variant := fun h =>
    hvariant (DataTypeKind.eq_of_announced hkind (by decide) h)
  have hread := reads_wireScalar hn hannounced (reads_scalarContent hT hkind hencoded hx h)
  rw [WireItem.ReadsBack, Value.arrives, variantArrives, VariantOf.arrived, isArray_arrives,
    hx.isArray_object, if_neg Bool.false_ne_true, if_pos hkind,
    unwrapExtensionObject_arrives _ hencoded]
  exact hread.map

/-- A Variant with an ExtensionObject that the decoder unwraps. -/
theorem readsBack_unwrapped (hT : StandardTypes T) {e r : DataTypeRef} {size : Nat}
    (dimensions : Option (List UInt32)) (hn : n ≤ encodingMaxRecursion)
    (hkind : (T.get e).typeKind = .extensionObject) (hwraps : Wraps T r x size)
    (h : (WireItem.object (T.get r).typeKind r x).ReadsBack src T (n + 1) bs
      (decodeBinaryJumpTable src T fuel)) :
    (WireItem.object .variant type
      (.variant ⟨some e, .extensionObject (.decoded r x), dimensions⟩)).ReadsBack src T n
      ([variantEncodingByte .extensionObject false false] ++ (wrapperBytes T r size ++ bs))
      (decodeBinaryJumpTable src T (fuel + 1)) := by
  have hcontent : Reads src (n + 1) bs (x.arrives T)
      (decodeBinaryJumpTable src T fuel (T.get r).typeKind r) := h
  have hread : Reads src n ([variantEncodingByte .extensionObject false false] ++
      (wrapperBytes T r size ++ bs)) (⟨some r, x.arrives T, none⟩ : Variant)
      (variantDecodeBinary src T (decodeBinaryJumpTable src T fuel)) :=
    reads_wireScalar hn (by decide) (reads_unwrapped hT hwraps.found hcontent)
  rw [WireItem.ReadsBack, Value.arrives, variantArrives, VariantOf.arrived, hkind]
  exact hread.map

/-- A Variant with a structure. -/
theorem readsBack_structured (hT : StandardTypes T) {r : DataTypeRef} {size : Nat}
    (dimensions : Option (List UInt32)) (hn : n ≤ encodingMaxRecursion)
    (hkind : (T.get r).typeKind.isUnwrapped = false) (hwraps : Wraps T r x size)
    (hx : Wire T (n + 1) (.object (T.get r).typeKind r x) bs)
    (h : (WireItem.object (T.get r).typeKind r x).ReadsBack src T (n + 1) bs
      (decodeBinaryJumpTable src T fuel)) :
    (WireItem.object .variant type (.variant ⟨some r, x, dimensions⟩)).ReadsBack src T n
      ([variantEncodingByte (T.get r).typeKind false false] ++ (wrapperBytes T r size ++ bs))
      (decodeBinaryJumpTable src T (fuel + 1)) := by
  have hcontent : Reads src (n + 1) bs (x.arrives T)
      (decodeBinaryJumpTable src T fuel (T.get r).typeKind r) := h
  have hannounced := DataTypeKind.announced_of_not_unwrapped hkind
  have hread : Reads src n ([variantEncodingByte (T.get r).typeKind false false] ++
      (wrapperBytes T r size ++ bs)) (⟨some r, x.arrives T, none⟩ : Variant)
      (variantDecodeBinary src T (decodeBinaryJumpTable src T fuel)) := by
    refine reads_wireScalar hn (by rw [hannounced]; decide) ?_
    rw [hannounced]
    exact reads_unwrapped hT hwraps.found hcontent
  rw [WireItem.ReadsBack, Value.arrives, variantArrives, VariantOf.arrived, isArray_arrives,
    hx.isArray_object, if_neg Bool.false_ne_true, hkind, if_neg Bool.false_ne_true]
  exact hread.map

/-- A Variant with an array of a kind that is no structure. -/
theorem readsBack_array (hT : StandardTypes T) {r : DataTypeRef}
    {dimensions : Option (List UInt32)} (hn : n ≤ encodingMaxRecursion)
    (hkind : (T.get r).typeKind.isUnwrapped = true)
    (hsize : (T.get r).memSize = (T.get (T.announced r)).memSize)
    (hover : (T.get r).overlayable = (T.get (T.announced r)).overlayable)
    (hdimensions : (dimensions.getD []).length ≤ int32Max) (hx : Wire T (n + 1) (.values r x) bs)
    (h : (WireItem.values r x).ReadsBack src T (n + 1) bs (decodeBinaryJumpTable src T fuel)) :
    (WireItem.object .variant type (.variant ⟨some r, x, dimensions⟩)).ReadsBack src T n
      ([variantEncodingByte (T.get r).typeKind true (decide ((dimensions.getD []).length > 0))] ++
        (bs ++ wireDimensions x dimensions))
      (decodeBinaryJumpTable src T (fuel + 1)) := by
  have harray := hx.isArray_values
  have hvalues : Reads src (n + 1) bs (T.announced r, x.arrives T)
      (variantDecodeBinaryContent src T (decodeBinaryJumpTable src T fuel)
        (T.get r).typeKind.announced true) := by
    rw [variantDecodeBinaryContent, if_pos rfl]
    show Reads src (n + 1) bs _ (Prod.mk _ <$> valuesDecodeBinary src T _ (T.announced r))
    rw [valuesDecodeBinary_announced hkind hsize hover]
    exact h.map
  have hread := reads_wireArrayVariant hT hn harray hdimensions hvalues
  rw [WireItem.ReadsBack, Value.arrives, variantArrives, VariantOf.arrived, isArray_arrives,
    harray, if_pos rfl, if_pos hkind]
  exact hread.map

/-- A Variant with a NULL pointer to structures: an array of ExtensionObjects of length 0. -/
theorem readsBack_noStructures (hT : StandardTypes T) {r : DataTypeRef}
    {dimensions : Option (List UInt32)} (hn : n ≤ encodingMaxRecursion)
    (hkind : (T.get r).typeKind.isUnwrapped = false)
    (hdimensions : (dimensions.getD []).length ≤ int32Max) :
    (WireItem.object .variant type (.variant ⟨some r, .null, dimensions⟩)).ReadsBack src T n
      ([variantEncodingByte (T.get r).typeKind true (decide ((dimensions.getD []).length > 0))] ++
        (lengthBytes (some 0) ++ wireDimensions .null dimensions))
      (decodeBinaryJumpTable src T (fuel + 1)) := by
  have hcontent : Reads src (n + 1) (lengthBytes (some ([] : List Value).length) ++ [])
      (DataTypes.builtin .extensionObject, Value.array []) (variantDecodeBinaryContent src T
        (decodeBinaryJumpTable src T fuel) (T.get r).typeKind.announced true) :=
    reads_wrappedArray hT hkind (Nat.zero_le _) (Nat.zero_le _) (fun _ => rfl) (reads_pure [])
  have hread := reads_wireArrayVariant hT hn (show Value.null.isArray = true from rfl)
    hdimensions hcontent
  rw [List.append_nil] at hread
  rw [WireItem.ReadsBack, Value.arrives, variantArrives, VariantOf.arrived, isArray_arrives,
    Value.isArray, if_pos rfl, hkind, if_neg Bool.false_ne_true, DataTypes.announced,
    DataTypeKind.announced_of_not_unwrapped hkind]
  exact hread.map

/-- A Variant with an array of structures: an array of ExtensionObjects. -/
theorem readsBack_structures (hT : StandardTypes T) {r : DataTypeRef} {xs : List Value}
    {dimensions : Option (List UInt32)} (hn : n ≤ encodingMaxRecursion)
    (hkind : (T.get r).typeKind.isUnwrapped = false) (hlen : xs.length ≤ int32Max)
    (hdimensions : (dimensions.getD []).length ≤ int32Max)
    (hxs : Wire T (n + 1) (.wrapped r xs) bs)
    (h : (WireItem.wrapped r xs).ReadsBack src T (n + 1) bs (decodeBinaryJumpTable src T fuel)) :
    (WireItem.object .variant type (.variant ⟨some r, .array xs, dimensions⟩)).ReadsBack src T n
      ([variantEncodingByte (T.get r).typeKind true (decide ((dimensions.getD []).length > 0))] ++
        ((lengthBytes (some xs.length) ++ bs) ++ wireDimensions (.array xs) dimensions))
      (decodeBinaryJumpTable src T (fuel + 1)) := by
  have hroom := hxs.wrapped_length
  have helements : Reads src (n + 1) bs
      ((elementsArrive T xs).map fun y => .extensionObject (.decoded r y))
      (times (decodeBinaryJumpTable src T fuel .extensionObject
        (DataTypes.builtin .extensionObject)) xs.length) := h
  have hys : ((elementsArrive T xs).map fun y =>
      Value.extensionObject (.decoded r y)).length = xs.length := by
    rw [List.length_map, length_elementsArrive]
  generalize hwrapped : ((elementsArrive T xs).map fun y =>
    Value.extensionObject (.decoded r y)) = ys at helements hys
  rw [← hys] at hlen hroom helements
  -- no structure is no byte
  have hnil : ys = [] → bs = [] := fun h => by
    rw [h, List.length_nil, eq_comm, List.length_eq_zero_iff] at hys
    subst hys
    exact hxs.wrapped_nil
  have hcontent := reads_wrappedArray hT hkind hlen hroom hnil helements
  have hread := reads_wireArrayVariant hT hn (show (Value.array xs).isArray = true from rfl)
    hdimensions hcontent
  rw [hys] at hread
  rw [WireItem.ReadsBack, Value.arrives, variantArrives, VariantOf.arrived, isArray_arrives,
    Value.isArray, if_pos rfl, hkind, if_neg Bool.false_ne_true, DataTypes.announced,
    DataTypeKind.announced_of_not_unwrapped hkind, Value.arrives, wrapElements, hwrapped]
  exact hread.map

/-- A DataValue with a Variant. The Variant is read with the fuel of the DataValue, of which it
takes one itself. -/
theorem readsBack_dataValue {d : DataValue} (hn : n ≤ encodingMaxRecursion)
    (hsource : d.hasSourcePicoseconds = true → d.sourcePicoseconds ≤ maxPicoSeconds)
    (hserver : d.hasServerPicoseconds = true → d.serverPicoseconds ≤ maxPicoSeconds)
    (hset : d.hasValue = true)
    (h : (WireItem.object .variant type (.variant d.value)).ReadsBack src T (n + 1) bs
      (decodeBinaryJumpTable src T (fuel + 1))) :
    (WireItem.object .dataValue type (.dataValue d)).ReadsBack src T n
      ([dataValueMask d] ++ (bs ++ dataValueTailBytes d))
      (decodeBinaryJumpTable src T (fuel + 1)) := by
  have hread : Reads src (n + 1) bs (Value.arrives T (.variant d.value))
      (decodeBinaryJumpTable src T (fuel + 1) .variant type) := h
  have hvariant : Reads src (n + 1) bs (variantArrives T d.value)
      (variantDecodeBinary src T (decodeBinaryJumpTable src T fuel)) :=
    .of_map (fun v w h => Value.variant.inj h) hread
  have hmember : Reads src (n + 1) bs (variantArrives T d.value) (whenSet d.hasValue
      (variantDecodeBinary src T (decodeBinaryJumpTable src T fuel))) := by
    rw [hset]
    exact hvariant
  exact Reads.map (reads_wireDataValue hn hsource hserver hmember (by rw [hset, if_pos rfl]))

/-- The null array: only its length, which is negative. -/
theorem readsBack_nullArray {jump : Jump} :
    (WireItem.values type .null).ReadsBack src T n (lengthBytes none) jump := by
  have hread : Reads src n (lengthBytes none ++ []) none (arrayDecodeBinary src (T.get type)
      (Value.ofMemory (T.get type).typeKind) (jump (T.get type).typeKind type)) :=
    (reads_uint32 _).bind (reads_pure none)
  exact hread.map

/-- One more element of an array that is not copied. -/
theorem readsBack_elements {jump : Jump} {xs : List Value}
    (hover : (T.get type).overlayable = false)
    (hx : (WireItem.object (T.get type).typeKind type x).ReadsBack src T n as jump)
    (hxs : (WireItem.elements type xs).ReadsBack src T n bs jump) :
    (WireItem.elements type (x :: xs)).ReadsBack src T n (as ++ bs) jump := by
  refine ⟨fun hnot => absurd (hover.symm.trans hnot) (by decide), fun _ => ?_⟩
  have hread : Reads src n as (x.arrives T) (jump (T.get type).typeKind type) := hx
  have hreads := hxs.2 hover
  exact Reads.bind hread (Reads.map hreads)

/-- An ExtensionObject without a body: the encoding byte is the last one. -/
theorem readsBack_noBody (hT : StandardTypes T) {id : NodeId}
    (hid : (nodeIdRest T id).ok = true) :
    (WireItem.object .extensionObject type (.extensionObject (.encoded id .noBody))).ReadsBack
      src T n (nodeIdBytes T id ++ [0]) (decodeBinaryJumpTable src T (fuel + 1)) := by
  have hread : Reads src n ((nodeIdBytes T id ++ [0]) ++ []) (.encoded id .noBody)
      (extensionObjectDecodeBinary src T (decodeBinaryJumpTable src T fuel)) :=
    reads_encoded hT hid 0 (reads_pure _)
  rw [List.append_nil] at hread
  exact hread.map

/-- A body in binary of a type that the receiver does not know stays encoded. -/
theorem readsBack_byteString (hT : StandardTypes T) {id : NodeId} {body : UAString}
    (hid : (nodeIdRest T id).ok = true) (hunknown : T.findDataTypeByBinary id = none)
    (hbody : stringFits body = true) :
    (WireItem.object .extensionObject type
      (.extensionObject (.encoded id (.byteString body)))).ReadsBack src T n
        (nodeIdBytes T id ++ ([1] ++ stringBytes body))
        (decodeBinaryJumpTable src T (fuel + 1)) := by
  have hcontent : Reads src n (stringBytes body) (.encoded id (.byteString body))
      (extensionObjectDecodeBinaryContent src T (decodeBinaryJumpTable src T fuel) id) := by
    rw [extensionObjectDecodeBinaryContent, hunknown]
    exact (reads_string hT hbody).map
  exact ((reads_encoded hT hid 1 hcontent).map).congr (List.append_assoc ..)

/-- A body in XML stays encoded, whatever the receiver knows. -/
theorem readsBack_xml (hT : StandardTypes T) {id : NodeId} {body : UAString}
    (hid : (nodeIdRest T id).ok = true) (hbody : stringFits body = true) :
    (WireItem.object .extensionObject type
      (.extensionObject (.encoded id (.xml body)))).ReadsBack src T n
        (nodeIdBytes T id ++ ([2] ++ stringBytes body))
        (decodeBinaryJumpTable src T (fuel + 1)) := by
  have hcontent : Reads src n (stringBytes body) (.encoded id (.xml body) : ExtensionObject)
      ((fun body => .encoded id (.xml body)) <$> stringDecodeBinary src T) :=
    (reads_string hT hbody).map
  exact ((reads_encoded hT hid 2 hcontent).map).congr (List.append_assoc ..)

/-- One more wrapped structure of an array. Its body is decoded one call down, and so is handed
to the jump table with one less of fuel. -/
theorem readsBack_wrapped (hT : StandardTypes T) {r : DataTypeRef} {xs : List Value} {size : Nat}
    (hfound : T.findDataTypeByBinary (T.encodingId r) = some r)
    (hx : (WireItem.object (T.get r).typeKind r x).ReadsBack src T n bs
      (decodeBinaryJumpTable src T fuel))
    (hxs : (WireItem.wrapped r xs).ReadsBack src T n cs
      (decodeBinaryJumpTable src T (fuel + 1))) :
    (WireItem.wrapped r (x :: xs)).ReadsBack src T n ((wrapperBytes T r size ++ bs) ++ cs)
      (decodeBinaryJumpTable src T (fuel + 1)) := by
  have hcontent : Reads src n bs (x.arrives T)
      (decodeBinaryJumpTable src T fuel (T.get r).typeKind r) := hx
  have hread : Reads src n (wrapperBytes T r size ++ bs) _ _ := reads_decoded hT hfound hcontent
  exact Reads.bind hread.map (Reads.map hxs)

/-- A DataValue without its Variant. -/
theorem readsBack_emptyDataValue {d : DataValue} (hn : n ≤ encodingMaxRecursion)
    (hsource : d.hasSourcePicoseconds = true → d.sourcePicoseconds ≤ maxPicoSeconds)
    (hserver : d.hasServerPicoseconds = true → d.serverPicoseconds ≤ maxPicoSeconds)
    (hclear : d.hasValue = false) :
    (WireItem.object .dataValue type (.dataValue d)).ReadsBack src T n
      ([dataValueMask d] ++ dataValueTailBytes d)
      (decodeBinaryJumpTable src T (fuel + 1)) := by
  have hvariant : Reads src (n + 1) [] (default : Variant) (whenSet d.hasValue
      (variantDecodeBinary src T (decodeBinaryJumpTable src T fuel))) := by
    rw [hclear]
    exact reads_pure default
  exact Reads.map (reads_wireDataValue hn hsource hserver hvariant
    (by rw [hclear, if_neg Bool.false_ne_true]))

/-- **Where the bytes of the format stand, the decoder reads what they stand for**. The
induction is on the item. The fuel is more than the bytes and the levels that are left. -/
theorem Wire.readsBack (hT : StandardTypes T) {i : WireItem} (h : Wire T n i bs)
    (hfuel : bs.length + (encodingMaxRecursion + 1 - n) < fuel) :
    i.ReadsBack src T n bs (decodeBinaryJumpTable src T fuel) := by
  induction h generalizing fuel with
  | @leaf n kind type x hkind hx hnormal hfits =>
    obtain ⟨fuel, rfl⟩ := Nat.exists_eq_add_one_of_ne_zero (Nat.ne_zero_of_lt hfuel)
    rw [WireItem.ReadsBack, arrives_leaf hx]
    exact reads_leaf hT hkind hx hnormal hfits fuel type
  | enum v =>
    obtain ⟨fuel, rfl⟩ := Nat.exists_eq_add_one_of_ne_zero (Nat.ne_zero_of_lt hfuel)
    exact (reads_uint32 v).map
  | struct hn hxs ih =>
    obtain ⟨fuel, rfl⟩ := Nat.exists_eq_add_one_of_ne_zero (Nat.ne_zero_of_lt hfuel)
    have hmembers := @ih fuel (by omega)
    exact Reads.map ((reads_checkRecursion hn).bind (Reads.deeper hmembers))
  | optStruct hn hcount hmask hxs ih =>
    obtain ⟨fuel, rfl⟩ := Nat.exists_eq_add_one_of_ne_zero (Nat.ne_zero_of_lt hfuel)
    rw [List.length_append, leBytes_length] at hfuel
    exact readsBack_optStruct hn hcount hmask (ih (by omega))
  | noSelection hn x =>
    obtain ⟨fuel, rfl⟩ := Nat.exists_eq_add_one_of_ne_zero (Nat.ne_zero_of_lt hfuel)
    exact (reads_checkRecursion hn).bind ((reads_uint32 0).bind (reads_pure _))
  | selection hn hselection hm hx ih =>
    obtain ⟨fuel, rfl⟩ := Nat.exists_eq_add_one_of_ne_zero (Nat.ne_zero_of_lt hfuel)
    rw [List.length_append, leBytes_length] at hfuel
    exact readsBack_selection hn hselection hm (ih (by omega))
  | @memberObject n owner m x bs hm hx ih =>
    rw [WireItem.ReadsBack, memberDecodeBinary, if_neg (by rw [hm]; decide)]
    exact ih hfuel
  | @memberArray n owner m x bs hm hx ih =>
    rw [WireItem.ReadsBack, memberDecodeBinary, if_pos hm]
    exact ih hfuel
  | noMembers => exact reads_pure []
  | members hx hxs ihx ihxs =>
    rw [List.length_append] at hfuel
    have hmember := @ihx fuel (by omega)
    have hmembers := @ihxs fuel (by omega)
    exact (Reads.bind hmember (Reads.map hmembers))
  | noOptMembers => exact fun _ _ _ => reads_pure []
  | absent hm hxs ih => exact readsBack_absent hm (ih hfuel)
  | present hm hx hxs ihx ihxs =>
    rw [List.length_append] at hfuel
    exact readsBack_present hm (ihx (by omega)) (ihxs (by omega))
  | nullArray => exact readsBack_nullArray
  | values hlen hroom hxs ih =>
    rw [List.length_append] at hfuel
    exact readsBack_values hlen hroom hxs (ih (by omega))
  | copied hover hmem hback =>
    exact ⟨fun _ => copied_arrive hmem hback, fun hnot =>
      absurd (hover.symm.trans hnot) (by decide)⟩
  | noElements hover =>
    exact ⟨fun hnot => absurd (hover.symm.trans hnot) (by decide), fun _ => reads_pure []⟩
  | elements hover hx hxs ihx ihxs =>
    rw [List.length_append] at hfuel
    exact readsBack_elements hover (ihx (by omega)) (ihxs (by omega))
  | noBody hid =>
    obtain ⟨fuel, rfl⟩ := Nat.exists_eq_add_one_of_ne_zero (Nat.ne_zero_of_lt hfuel)
    exact readsBack_noBody hT hid
  | byteString hid hunknown hbody =>
    obtain ⟨fuel, rfl⟩ := Nat.exists_eq_add_one_of_ne_zero (Nat.ne_zero_of_lt hfuel)
    exact readsBack_byteString hT hid hunknown hbody
  | xml hid hbody =>
    obtain ⟨fuel, rfl⟩ := Nat.exists_eq_add_one_of_ne_zero (Nat.ne_zero_of_lt hfuel)
    exact readsBack_xml hT hid hbody
  | @decoded n type r x size bs hwraps hx ih =>
    obtain ⟨fuel, rfl⟩ := Nat.exists_eq_add_one_of_ne_zero (Nat.ne_zero_of_lt hfuel)
    have hheader := five_le_wrapperBytes (T := T) r size
    rw [List.length_append] at hfuel
    exact (reads_decoded hT hwraps.found (@ih fuel (by omega))).map
  | emptyVariant data dimensions =>
    obtain ⟨fuel, rfl⟩ := Nat.exists_eq_add_one_of_ne_zero (Nat.ne_zero_of_lt hfuel)
    refine Reads.map fun c hat hdepth => ?_
    rw [variantDecodeBinary, bind_done (reads_byte 0 c hat hdepth), if_pos rfl]
    rfl
  | scalar dimensions hn hkind hvariant hencoded hx ih =>
    obtain ⟨fuel, rfl⟩ := Nat.exists_eq_add_one_of_ne_zero (Nat.ne_zero_of_lt hfuel)
    rw [List.length_append, List.length_singleton] at hfuel
    exact readsBack_scalar hT dimensions hn hkind hvariant hencoded hx (ih (by omega))
  | unwrapped dimensions hn hkind hwraps hx ih =>
    obtain ⟨fuel, rfl⟩ := Nat.exists_eq_add_one_of_ne_zero (Nat.ne_zero_of_lt hfuel)
    rw [List.length_append, List.length_singleton, List.length_append] at hfuel
    exact readsBack_unwrapped hT dimensions hn hkind hwraps (ih (by omega))
  | array hn hkind hsize hover hdimensions hx ih =>
    obtain ⟨fuel, rfl⟩ := Nat.exists_eq_add_one_of_ne_zero (Nat.ne_zero_of_lt hfuel)
    rw [List.length_append, List.length_singleton, List.length_append] at hfuel
    exact readsBack_array hT hn hkind hsize hover hdimensions hx (ih (by omega))
  | structured dimensions hn hkind hwraps hx ih =>
    obtain ⟨fuel, rfl⟩ := Nat.exists_eq_add_one_of_ne_zero (Nat.ne_zero_of_lt hfuel)
    rw [List.length_append, List.length_singleton, List.length_append] at hfuel
    exact readsBack_structured hT dimensions hn hkind hwraps hx (ih (by omega))
  | noStructures hn hkind hdimensions =>
    obtain ⟨fuel, rfl⟩ := Nat.exists_eq_add_one_of_ne_zero (Nat.ne_zero_of_lt hfuel)
    exact readsBack_noStructures hT hn hkind hdimensions
  | structures hn hkind hlen hdimensions hxs ih =>
    obtain ⟨fuel, rfl⟩ := Nat.exists_eq_add_one_of_ne_zero (Nat.ne_zero_of_lt hfuel)
    simp only [List.length_append, List.length_singleton] at hfuel
    exact readsBack_structures hT hn hkind hlen hdimensions hxs (ih (by omega))
  | noWrapped => exact reads_pure []
  | @wrapped n r x xs size bs cs hwraps hx hxs ihx ihxs =>
    obtain ⟨fuel, rfl⟩ := Nat.exists_eq_add_one_of_ne_zero (Nat.ne_zero_of_lt hfuel)
    have hheader := five_le_wrapperBytes (T := T) r size
    rw [List.length_append, List.length_append] at hfuel
    exact readsBack_wrapped hT hwraps.found (ihx (by omega)) (ihxs (by omega))
  | dataValue hn hsource hserver hset hvalue ih =>
    obtain ⟨fuel, rfl⟩ := Nat.exists_eq_add_one_of_ne_zero (Nat.ne_zero_of_lt hfuel)
    simp only [List.length_append, List.length_singleton] at hfuel
    exact readsBack_dataValue hn hsource hserver hset (ih (by omega))
  | emptyDataValue hn hsource hserver hclear =>
    obtain ⟨fuel, rfl⟩ := Nat.exists_eq_add_one_of_ne_zero (Nat.ne_zero_of_lt hfuel)
    exact readsBack_emptyDataValue hn hsource hserver hclear

theorem wireTypes_readingTypes : WireTypes readingTypes where
  memSize k hk := by
    rw [get_builtin_readingTypes hk]
    exact standardTypes_builtinTypes.memSize k hk
  overlayable k hk := by
    rw [get_builtin_readingTypes hk]
    exact standardTypes_builtinTypes.overlayable k hk
  wireSize r x n hover h := by
    -- a built-in type, or one of the two structures
    rcases get_readingTypes r with hget | hget | hget
    · rw [hget] at hover h ⊢
      exact calcSizeBinaryJumpTable_overlayable hover h
    · rw [hget] at hover
      cases hover
    · rw [hget] at hover
      cases hover
  noCluster r := by
    rcases get_readingTypes r with hget | hget | hget
    · rw [hget]
      exact wireTypes_builtinTypes.noCluster _
    · rw [hget]
      exact nofun
    · rw [hget]
      exact nofun

/-- A reading without its String, in a Variant. -/
def readingVariant : Variant :=
  ⟨some ⟨0, 26⟩,
    .optStruct [.union 2 (.uint64 7), .null, .array [.uint16 1, .uint16 2]], none⟩

def readingBytes : Bytes :=
  [0x16, 0x01, 0x01, 0x9D, 0x13, 0x01, 24, 0, 0, 0] ++ [0, 0, 0, 0] ++
    [2, 0, 0, 0, 7, 0, 0, 0, 0, 0, 0, 0] ++ [2, 0, 0, 0, 1, 0, 2, 0]

theorem wire_readingVariant :
    Wire readingTypes 0 (.object .variant (DataTypes.builtin .variant) (.variant readingVariant))
      readingBytes := by
  have hnumbers : Wire readingTypes 2 (.values (DataTypes.builtin .uint16)
      (.array [.uint16 1, .uint16 2])) [2, 0, 0, 0, 1, 0, 2, 0] :=
    .values (by decide) (by decide) (.copied rfl rfl
      (List.forall_mem_cons.mpr ⟨rfl, List.forall_mem_cons.mpr ⟨rfl, nofun⟩⟩))
  have hlevel : Wire readingTypes 2 (.object .union ⟨0, 25⟩ (.union 2 (.uint64 7)))
      [2, 0, 0, 0, 7, 0, 0, 0, 0, 0, 0, 0] :=
    .selection (by decide) rfl rfl (.leaf rfl rfl rfl rfl)
  have hreading : Wire readingTypes 1 (.object .optStruct ⟨0, 26⟩
      (.optStruct [.union 2 (.uint64 7), .null, .array [.uint16 1, .uint16 2]])) _ :=
    .optStruct (by decide) (by decide) rfl (.present nofun (.memberObject rfl hlevel)
      (.absent rfl (.present nofun (.memberArray rfl hnumbers) .noOptMembers)))
  exact .structured none (by decide) rfl ⟨⟨_, rfl⟩, rfl, rfl, by decide⟩ hreading

end OpenPubSub
