import OpenPubSub.Types.EncodeBinary

/-!
# What the encoders put out

For objects of the leaf built-in types, and Variants and DataValues around them: the plan
that the encoder carries out (`Emits`), whatever the room in the buffer, and the size
calculation, which gives the number of bytes of the plan.

- `encodingStatuses` are the statuses of these encoders: running out of room in a
  primitive is patched by the next `encodeWithExchangeBuffer`, everything else is passed
  on.
- The plan of an array depends on the type table: elements that are overlayable are
  copied as far as there is room, all others are written one by one. Its bytes do not.
- `StandardTypes` is what is needed of the built-in part of the table.
-/

namespace OpenPubSub

open Routine Writer

/-! ## Statuses -/

/-- The statuses of the encoders of leaf types. -/
def encodingStatuses : Statuses ErrorCode where
  limits := badEncodingLimitsExceeded
  hard e := e = badEncodingError ∨ e = badInternalError
  limits_or := by decide
  hard_or := by
    rintro a b (rfl | rfl) (rfl | rfl)
    · exact .inl (by decide)
    · exact .inl (by decide)
    · exact .inl (by decide)
    · exact .inr (by decide)

/-- An encoder carries out a plan. -/
abbrev Plans (head : Bytes) (p : Plan) (x : Enc) : Prop := Emits encodingStatuses head p x

theorem not_hard_limits : ¬ encodingStatuses.hard encodingStatuses.limits := by
  rintro (h | h) <;> exact absurd h (by decide)

theorem hard_badEncodingError : encodingStatuses.hard badEncodingError := .inl rfl

theorem hard_badInternalError : encodingStatuses.hard badInternalError := .inr rfl

/-- In `encodeWithExchangeBuffer` also the head is taken back where it does not fit. -/
theorem Plans.exchange {head : Bytes} {p : Plan} {x : Enc} (h : Plans head p x) :
    Plans [] (.seq (.whole head) p) (encodeWithExchangeBuffer x) :=
  Emits.goBack h not_hard_limits hard_badEncodingError

theorem Plans.exchange_head {head : Bytes} {x : Enc} (h : Plans head .empty x) :
    Plans [] (.whole head) (encodeWithExchangeBuffer x) :=
  Emits.goBack_head h not_hard_limits hard_badEncodingError

/-- Bytes that are copied as a whole. -/
theorem plans_fixed (bs : Bytes) : Plans bs .empty (fixedEncodeBinary bs) := emits_store

theorem plans_byte (v : UInt8) : Plans [v] .empty (byteEncodeBinary v) := plans_fixed _

theorem plans_uint16 (v : UInt16) : Plans (leBytes 2 v.toNat) .empty (uint16EncodeBinary v) :=
  plans_fixed _

theorem plans_uint32 (v : UInt32) : Plans (leBytes 4 v.toNat) .empty (uint32EncodeBinary v) :=
  plans_fixed _

theorem plans_uint64 (v : UInt64) : Plans (leBytes 8 v.toNat) .empty (uint64EncodeBinary v) :=
  plans_fixed _

/-- A part that may be missing. -/
theorem plans_encodeIf {c : Bool} {p : Plan} {x : Enc} (h : c = true → Plans [] p x) :
    Plans [] (if c then p else .empty) (encodeIf c x) :=
  Emits.ite h

/-! ## The type table -/

/-- The built-in types have their size on a 64-bit platform, and those the code copies as
they are look the same in memory and on the wire. -/
structure StandardTypes (T : DataTypes) : Prop where
  memSize : ∀ k : DataTypeKind, k.isBuiltin = true →
    (T.get (DataTypes.builtin k)).memSize = builtinMemSize k
  overlayable : ∀ k : DataTypeKind, k.isBuiltin = true →
    (T.get (DataTypes.builtin k)).overlayable = true → k.overlayable = true

/-- The table of the built-in types is one of those that the results are about. -/
theorem standardTypes_builtinTypes : StandardTypes builtinTypes := by
  refine ⟨?_, ?_⟩
  · intro k hk
    show builtinMemSize ((DataTypeKind.ofBuiltinIndex k.index).getD .boolean) = _
    rw [DataTypeKind.ofBuiltinIndex_index hk, Option.getD_some]
  · intro k hk h
    have hget : ((DataTypeKind.ofBuiltinIndex k.index).getD .boolean).overlayable = true := h
    rwa [DataTypeKind.ofBuiltinIndex_index hk, Option.getD_some] at hget

variable {T : DataTypes}

/-! ## Arrays -/

/-- Elements with the size of the type lie in memory one behind the other. -/
theorem arrayMemory_eq {α : Type} {memSize : Nat} {memory : α → Option Bytes}
    {bytes : α → Bytes} {xs : List α}
    (h : ∀ x ∈ xs, memory x = some (bytes x) ∧ (bytes x).length = memSize) :
    arrayMemory memSize memory xs = some (xs.flatMap bytes) := by
  induction xs with
  | nil => rfl
  | cons x xs ih =>
    obtain ⟨⟨hmem, hlen⟩, hxs⟩ := List.forall_mem_cons.mp h
    simp [arrayMemory, hmem, ih hxs, hlen]

/-- The length in front of an array. -/
def lengthBytes (length : Option Nat) : Bytes := leBytes 4 (signedLengthWord length).toNat

@[simp] theorem lengthBytes_length (length : Option Nat) : (lengthBytes length).length = 4 :=
  leBytes_length 4 _

/-- The plan of an array with the bytes `content`, which are those of its `elements`. -/
def arrayPlan (type : DataType) (length : Option Nat) (content : Bytes) (elements : List Plan) :
    Plan :=
  if length.getD 0 > int32Max then .refuse (lengthBytes length ++ content)
  else .seq (.whole (lengthBytes length))
    (if length.getD 0 = 0 then .empty
    else if type.overlayable then .part content
    else .all elements)

/-- The bytes of an array, whether it is copied or goes element by element. -/
theorem arrayPlan_bytes {type : DataType} {length : Option Nat} {content : Bytes}
    {elements : List Plan} (hnil : length.getD 0 = 0 → content = [])
    (h : elements.flatMap Plan.bytes = content) :
    (arrayPlan type length content elements).bytes = lengthBytes length ++ content := by
  unfold arrayPlan
  split
  · rfl
  · rw [Plan.bytes_seq, Plan.bytes_chunk]
    congr 1
    split
    · rename_i hlen
      exact (hnil hlen).symm
    · split
      · rfl
      · rw [Plan.bytes_all, h]

/-- Only the length can be refused. -/
theorem arrayPlan_ok {type : DataType} {length : Option Nat} {content : Bytes}
    {elements : List Plan} (h : ∀ p ∈ elements, p.ok = true) :
    (arrayPlan type length content elements).ok = true ↔ length.getD 0 ≤ int32Max := by
  unfold arrayPlan
  split
  · rename_i hlen
    simp only [Plan.ok_refuse, Bool.false_eq_true, false_iff]
    omega
  · rename_i hlen
    have hcontent : (if length.getD 0 = 0 then Plan.empty
        else if type.overlayable then .part content else .all elements).ok = true := by
      split
      · rfl
      · split
        · rfl
        · exact (Plan.ok_all _).mpr h
    simp only [Plan.ok_seq, Plan.ok_chunk, hcontent, Bool.and_self, true_iff]
    omega

/-- The encoder of arrays, given the plans of the elements. -/
theorem plans_array {type : DataType} {length : Option Nat} {memory : Option Bytes}
    {content : Bytes} {elements : List Plan} {x : Enc}
    (hmem : type.overlayable = true → length.getD 0 ≠ 0 → memory = some content)
    (hx : Plans [] (.all elements) x) :
    Plans [] (arrayPlan type length content elements)
      (arrayEncodeBinary type length memory x) := by
  unfold arrayPlan arrayEncodeBinary
  by_cases hlen : length.getD 0 > int32Max
  · rw [if_pos hlen, if_pos hlen]
    exact emits_fail hard_badInternalError _
  · rw [if_neg hlen, if_neg hlen]
    have hhead : Plans [] (.whole (lengthBytes length))
        (encodeWithExchangeBuffer (uint32EncodeBinary (signedLengthWord length))) :=
      (plans_fixed _).exchange_head
    -- overlayable elements are copied at once, the others encoded one by one
    have hcontent : Plans [] (if length.getD 0 = 0 then .empty
        else if type.overlayable then .part content else .all elements)
        (if length.getD 0 = 0 then pure ()
          else if type.overlayable then arrayEncodeBinaryOverlayable memory else x) := by
      by_cases h0 : length.getD 0 = 0
      · rw [if_pos h0, if_pos h0]
        exact emits_pure
      · rw [if_neg h0, if_neg h0]
        by_cases hover : type.overlayable = true
        · rw [if_pos hover, if_pos hover, hmem hover h0]
          exact emits_fill hard_badEncodingError
        · rw [if_neg hover, if_neg hover]
          exact hx
    exact hhead.bind hcontent

/-- Arrays whose elements have a fixed encoding, which is how they lie in memory. -/
theorem plans_list {α : Type} {type : DataType} {memory : α → Option Bytes} {bytes : α → Bytes}
    {f : α → Enc} {src : Option (List α)}
    (hmem : type.overlayable = true →
      ∀ x ∈ src.getD [], memory x = some (bytes x) ∧ (bytes x).length = type.memSize)
    (hf : ∀ x ∈ src.getD [], Plans (bytes x) .empty (f x)) :
    Plans [] (arrayPlan type (src.map List.length) ((src.getD []).flatMap bytes)
      ((src.getD []).map fun x => .whole (bytes x))) (listEncodeBinary type memory f src) :=
  plans_array (fun hover _ => arrayMemory_eq (hmem hover))
    (emits_each fun x hx => (hf x hx).exchange_head)

/-! ## Strings and dimensions -/

/-- Length and characters; the null string has the length -1. -/
def stringBytes (s : UAString) : Bytes := lengthBytes (s.map List.length) ++ s.getD []

/-- At most `UA_INT32_MAX` bytes. -/
def stringFits (s : UAString) : Bool := decide ((s.getD []).length ≤ int32Max)

/-- A string is an array of bytes. -/
def stringPlan (T : DataTypes) (s : UAString) : Plan :=
  arrayPlan (T.get (DataTypes.builtin .byte)) (s.map List.length) (s.getD [])
    ((s.getD []).map fun b => .whole [b])

/-- The dimensions of an array are an array of numbers. -/
def dimensionsBytes (dimensions : List UInt32) : Bytes :=
  lengthBytes (some dimensions.length) ++ dimensions.flatMap fun d => leBytes 4 d.toNat

/-- The dimensions are copied, as all arrays of numbers. -/
def dimensionsPlan (T : DataTypes) (dimensions : List UInt32) : Plan :=
  arrayPlan (T.get (DataTypes.builtin .int32)) (some dimensions.length)
    (dimensions.flatMap fun d => leBytes 4 d.toNat)
    (dimensions.map fun d => .whole (leBytes 4 d.toNat))

theorem getD_map_length {α : Type} (s : Option (List α)) :
    (s.map List.length).getD 0 = (s.getD []).length := by
  cases s <;> rfl

theorem flatMap_bytes_whole {α : Type} (xs : List α) (bytes : α → Bytes) :
    (xs.map fun x => Plan.whole (bytes x)).flatMap Plan.bytes = xs.flatMap bytes := by
  rw [List.flatMap_map]
  rfl

theorem ok_whole {α : Type} (xs : List α) (bytes : α → Bytes) :
    ∀ p ∈ xs.map fun x => Plan.whole (bytes x), p.ok = true := by
  intro p hp
  obtain ⟨x, -, rfl⟩ := List.mem_map.mp hp
  rfl

@[simp] theorem stringPlan_bytes (s : UAString) : (stringPlan T s).bytes = stringBytes s := by
  have hsingle : (s.getD []).flatMap (fun b => [b]) = s.getD [] := by simp
  refine arrayPlan_bytes (fun h => ?_) ?_
  · rw [getD_map_length] at h
    exact List.length_eq_zero_iff.mp h
  · rw [flatMap_bytes_whole, hsingle]

/-- A string is refused for its length alone. -/
theorem stringPlan_ok (s : UAString) : (stringPlan T s).ok = stringFits s := by
  rw [Bool.eq_iff_iff, stringPlan, arrayPlan_ok (ok_whole _ _), getD_map_length, stringFits,
    decide_eq_true_iff]

/-- The size calculation counts a string as it is written. -/
theorem stringBytes_length (s : UAString) : (stringBytes s).length = stringCalcSizeBinary s := by
  rw [stringBytes, List.length_append, lengthBytes_length]
  rfl

/-- The encoder of strings. -/
theorem plans_string (hT : StandardTypes T) (s : UAString) :
    Plans [] (stringPlan T s) (stringEncodeBinary T s) := by
  have hsingle : (s.getD []).flatMap (fun b => [b]) = s.getD [] := by simp
  have h : Plans [] _ (stringEncodeBinary T s) :=
    plans_list (fun _ b _ => ⟨rfl, (hT.memSize .byte rfl).symm⟩) fun b _ => plans_byte b
  rwa [hsingle] at h

@[simp] theorem dimensionsPlan_bytes (dimensions : List UInt32) :
    (dimensionsPlan T dimensions).bytes = dimensionsBytes dimensions := by
  refine arrayPlan_bytes (fun h => ?_) (flatMap_bytes_whole _ _)
  have hnil : dimensions = [] := List.length_eq_zero_iff.mp h
  rw [hnil]
  rfl

theorem dimensionsPlan_ok (dimensions : List UInt32) :
    (dimensionsPlan T dimensions).ok = decide (dimensions.length ≤ int32Max) := by
  rw [Bool.eq_iff_iff, dimensionsPlan, arrayPlan_ok (ok_whole _ _), decide_eq_true_iff]
  rfl

theorem dimensionsCalcSizeBinary_eq (hT : StandardTypes T) (dimensions : List UInt32) :
    dimensionsCalcSizeBinary T dimensions = some (dimensionsBytes dimensions).length := by
  have hlen : (dimensions.flatMap fun d => leBytes 4 d.toNat).length = 4 * dimensions.length := by
    simp only [List.length_flatMap, leBytes_length, List.map_const', List.sum_replicate_nat]
    exact Nat.mul_comm _ _
  rw [dimensionsCalcSizeBinary, dimensionsBytes, List.length_append, lengthBytes_length, hlen,
    arrayCalcSizeBinary, hT.memSize .int32 rfl]
  split <;> rfl

theorem plans_dimensions (hT : StandardTypes T) (dimensions : List UInt32) :
    Plans [] (dimensionsPlan T dimensions) (dimensionsEncodeBinary T dimensions) := by
  have hsize : (T.get (DataTypes.builtin .int32)).memSize = 4 := hT.memSize .int32 rfl
  have h : Plans [] (arrayPlan _ ((some dimensions).map List.length) _ _)
      (dimensionsEncodeBinary T dimensions) :=
    plans_list (fun _ d _ => ⟨rfl, by rw [leBytes_length, hsize]⟩) fun d _ => plans_uint32 d
  exact h

/-! ## Identifiers and names -/

@[simp] theorem guid_memory_length (g : Guid) : g.memory.length = 16 := by
  simp [Guid.memory]

/-- A Guid is written field by field, in the order it lies in memory. -/
theorem plans_guid (g : Guid) : Plans g.memory .empty (guidEncodeBinary g) := by
  have h := (plans_uint32 g.data1).accum_head
    ((plans_uint16 g.data2).accum_head
      ((plans_uint16 g.data3).accum_head (plans_fixed (leBytes 8 g.data4.toNat))))
  rw [Guid.memory, List.append_assoc, List.append_assoc]
  exact h

/-- The bytes of a NodeId up to a string. -/
def nodeIdHead (src : NodeId) (encoding : UInt8) : Bytes :=
  match src.identifier with
  | .numeric id =>
    if id.toNat > uint16Max ∨ src.namespaceIndex.toNat > byteMax then
      [encoding ||| 2] ++ (leBytes 2 src.namespaceIndex.toNat ++ leBytes 4 id.toNat)
    else if id.toNat > byteMax ∨ src.namespaceIndex > 0 then
      [encoding ||| 1] ++ ([src.namespaceIndex.toUInt8] ++ leBytes 2 id.toUInt16.toNat)
    else [encoding ||| 0] ++ [id.toUInt8]
  | .string _ => [encoding ||| 3] ++ leBytes 2 src.namespaceIndex.toNat
  | .guid g => [encoding ||| 4] ++ (leBytes 2 src.namespaceIndex.toNat ++ g.memory)
  | .byteString _ => [encoding ||| 5] ++ leBytes 2 src.namespaceIndex.toNat

/-- The string of a NodeId. -/
def nodeIdRest (T : DataTypes) (src : NodeId) : Plan :=
  match src.identifier with
  | .string s | .byteString s => stringPlan T s
  | .numeric _ | .guid _ => .empty

/-- The encoder of NodeIds: the head has the form that the identifier asks for. -/
theorem plans_nodeId (hT : StandardTypes T) (src : NodeId) (encoding : UInt8) :
    Plans (nodeIdHead src encoding) (nodeIdRest T src)
      (nodeIdEncodeBinaryWithEncodingMask T src encoding) := by
  obtain ⟨ns, identifier⟩ := src
  cases identifier with
  | numeric id =>
    simp only [nodeIdHead, nodeIdRest, nodeIdEncodeBinaryWithEncodingMask]
    split
    · exact (plans_byte _).accum_head ((plans_uint16 ns).accum_head (plans_uint32 id))
    · split
      · exact (plans_byte _).accum_head ((plans_byte _).accum_head (plans_uint16 _))
      · exact (plans_byte _).accum_head (plans_byte _)
  | guid g =>
    exact (plans_byte (encoding ||| 4)).accum_head ((plans_uint16 ns).accum_head (plans_guid g))
  | string s =>
    have h := ((plans_byte (encoding ||| 3)).accum_head (plans_uint16 ns)).bind_head
      (plans_string hT s)
    rwa [List.append_nil] at h
  | byteString s =>
    have h := ((plans_byte (encoding ||| 5)).accum_head (plans_uint16 ns)).bind_head
      (plans_string hT s)
    rwa [List.append_nil] at h

/-- The size of a NodeId is calculated for the form it is written in. -/
theorem nodeIdCalcSizeBinary_eq (src : NodeId) (encoding : UInt8) :
    nodeIdCalcSizeBinary src =
      (nodeIdHead src encoding).length + (nodeIdRest T src).bytes.length := by
  obtain ⟨ns, identifier⟩ := src
  cases identifier with
  | numeric id =>
    simp only [nodeIdHead, nodeIdRest, nodeIdCalcSizeBinary]
    split
    · simp
    · split <;> simp
  | guid g => simp [nodeIdHead, nodeIdRest, nodeIdCalcSizeBinary]
  | string s => simp [nodeIdHead, nodeIdRest, nodeIdCalcSizeBinary, stringBytes_length]
  | byteString s => simp [nodeIdHead, nodeIdRest, nodeIdCalcSizeBinary, stringBytes_length]

/-- The encoding mask of an ExpandedNodeId. -/
def expandedNodeIdMask (src : ExpandedNodeId) : UInt8 :=
  (if hasBytes src.namespaceUri then expandedNodeIdNamespaceUriFlag else 0) |||
    (if src.serverIndex > 0 then expandedNodeIdServerIndexFlag else 0)

/-- The URI and the server index, each behind its flag. -/
def expandedNodeIdRest (T : DataTypes) (src : ExpandedNodeId) : Plan :=
  .seq (nodeIdRest T src.nodeId)
    (.seq (if hasBytes src.namespaceUri then stringPlan T src.namespaceUri else .empty)
      (if decide (src.serverIndex > 0) then .whole (leBytes 4 src.serverIndex.toNat) else .empty))

/-- The flags are in the first byte of the NodeId. -/
theorem plans_expandedNodeId (hT : StandardTypes T) (src : ExpandedNodeId) :
    Plans (nodeIdHead src.nodeId (expandedNodeIdMask src)) (expandedNodeIdRest T src)
      (expandedNodeIdEncodeBinary T src) :=
  (plans_nodeId hT src.nodeId _).bind
    ((plans_encodeIf fun _ => plans_string hT src.namespaceUri).bind
      (plans_encodeIf fun _ => (plans_uint32 src.serverIndex).exchange_head))

/-- The size of an ExpandedNodeId is that of what is written. -/
theorem expandedNodeIdCalcSizeBinary_eq (src : ExpandedNodeId) :
    expandedNodeIdCalcSizeBinary src =
      (nodeIdHead src.nodeId (expandedNodeIdMask src)).length +
        (expandedNodeIdRest T src).bytes.length := by
  rw [expandedNodeIdCalcSizeBinary, expandedNodeIdRest, Plan.bytes_seq, Plan.bytes_seq,
    List.length_append, List.length_append,
    nodeIdCalcSizeBinary_eq (T := T) src.nodeId (expandedNodeIdMask src)]
  have huri : (if hasBytes src.namespaceUri then stringPlan T src.namespaceUri
      else Plan.empty).bytes.length =
      if (src.namespaceUri.getD []).length > 0 then stringCalcSizeBinary src.namespaceUri
      else 0 := by
    unfold hasBytes
    by_cases h : (src.namespaceUri.getD []).length > 0 <;> simp [h, stringBytes_length]
  have hindex : (if decide (src.serverIndex > 0) then Plan.whole (leBytes 4 src.serverIndex.toNat)
      else Plan.empty).bytes.length = if src.serverIndex > 0 then 4 else 0 := by
    by_cases h : src.serverIndex > 0 <;> simp [h]
  rw [huri, hindex]
  omega

/-- The encoder of QualifiedNames. -/
theorem plans_qualifiedName (hT : StandardTypes T) (src : QualifiedName) :
    Plans (leBytes 2 src.namespaceIndex.toNat) (stringPlan T src.name)
      (qualifiedNameEncodeBinary T src) := by
  have h := (plans_uint16 src.namespaceIndex).bind_head (plans_string hT src.name)
  rwa [List.append_nil] at h

theorem qualifiedNameCalcSizeBinary_eq (src : QualifiedName) :
    qualifiedNameCalcSizeBinary src =
      (leBytes 2 src.namespaceIndex.toNat).length + (stringPlan T src.name).bytes.length := by
  simp [qualifiedNameCalcSizeBinary, stringBytes_length]

/-- The encoding mask of a LocalizedText. -/
def localizedTextMask (src : LocalizedText) : UInt8 :=
  (if src.locale.isSome then localizedTextMaskLocale else 0) |||
    (if src.text.isSome then localizedTextMaskText else 0)

/-- The text is written even if the locale fails. -/
def localizedTextRest (T : DataTypes) (src : LocalizedText) : Plan :=
  .both (if src.locale.isSome then stringPlan T src.locale else .empty)
    (if src.text.isSome then stringPlan T src.text else .empty)

/-- The encoder of LocalizedTexts: a null string is left out, an empty one is written. -/
theorem plans_localizedText (hT : StandardTypes T) (src : LocalizedText) :
    Plans [localizedTextMask src] (localizedTextRest T src) (localizedTextEncodeBinary T src) :=
  (plans_byte (localizedTextMask src)).bind_head
    ((plans_encodeIf fun _ => plans_string hT src.locale).accum
      (plans_encodeIf fun _ => plans_string hT src.text))

theorem localizedTextCalcSizeBinary_eq (src : LocalizedText) :
    localizedTextCalcSizeBinary src =
      [localizedTextMask src].length + (localizedTextRest T src).bytes.length := by
  obtain ⟨locale, text⟩ := src
  cases locale <;> cases text <;>
    simp [localizedTextCalcSizeBinary, localizedTextRest, stringBytes_length, Nat.add_assoc]

/-! ## Objects of leaf types -/

/-- The built-in kinds whose objects hold no other values. -/
def DataTypeKind.isLeaf (kind : DataTypeKind) : Bool :=
  match kind with
  | .extensionObject | .dataValue | .variant | .diagnosticInfo | .decimal | .enum | .struct
  | .optStruct | .union | .bitfieldCluster => false
  | _ => true

theorem DataTypeKind.isBuiltin_of_isLeaf {kind : DataTypeKind} (h : kind.isLeaf = true) :
    kind.isBuiltin = true := by
  cases kind <;> first | rfl | cases h

/-- The value is an object of the leaf kind `kind`. -/
def Value.isOfKind (kind : DataTypeKind) (v : Value) : Bool :=
  match kind, v with
  | .boolean, .byte _ | .sByte, .byte _ | .byte, .byte _ | .int16, .uint16 _ | .uint16, .uint16 _
  | .int32, .uint32 _ | .uint32, .uint32 _ | .float, .uint32 _ | .statusCode, .uint32 _
  | .int64, .uint64 _ | .uint64, .uint64 _ | .double, .uint64 _ | .dateTime, .uint64 _
  | .string, .string _ | .byteString, .string _ | .xmlElement, .string _ | .guid, .guid _
  | .nodeId, .nodeId _ | .expandedNodeId, .expandedNodeId _ | .qualifiedName, .qualifiedName _
  | .localizedText, .localizedText _ => true
  | _, _ => false

/-- What its encoder writes as a whole. -/
def Value.head : Value → Bytes
  | .byte v => [v]
  | .uint16 v => leBytes 2 v.toNat
  | .uint32 v => leBytes 4 v.toNat
  | .uint64 v => leBytes 8 v.toNat
  | .guid g => g.memory
  | .nodeId n => nodeIdHead n 0
  | .expandedNodeId n => nodeIdHead n.nodeId (expandedNodeIdMask n)
  | .qualifiedName n => leBytes 2 n.namespaceIndex.toNat
  | .localizedText t => [localizedTextMask t]
  | _ => []

/-- What its encoder writes after that. -/
def Value.rest (T : DataTypes) : Value → Plan
  | .string s => stringPlan T s
  | .nodeId n => nodeIdRest T n
  | .expandedNodeId n => expandedNodeIdRest T n
  | .qualifiedName n => stringPlan T n.name
  | .localizedText t => localizedTextRest T t
  | _ => .empty

/-- The plan of `encodeWithExchangeBuffer`. -/
def Value.plan (T : DataTypes) (v : Value) : Plan := .seq (.whole v.head) (v.rest T)

/-- An object of a leaf type is encoded in the same way under every type of its kind. -/
theorem plans_value (hT : StandardTypes T) {kind : DataTypeKind} {v : Value}
    (hv : v.isOfKind kind = true) (depth : Nat) (type : DataTypeRef) :
    Plans v.head (v.rest T) (encodeBinaryJumpTable T depth kind type v) := by
  unfold Value.isOfKind at hv
  -- the kinds that share an encoder, one after the other
  split at hv
  case h_1 v | h_2 v | h_3 v =>
    simp only [encodeBinaryJumpTable]
    exact plans_byte v
  case h_4 v | h_5 v =>
    simp only [encodeBinaryJumpTable]
    exact plans_uint16 v
  case h_6 v | h_7 v | h_8 v | h_9 v =>
    simp only [encodeBinaryJumpTable]
    exact plans_uint32 v
  case h_10 v | h_11 v | h_12 v | h_13 v =>
    simp only [encodeBinaryJumpTable]
    exact plans_uint64 v
  case h_14 s | h_15 s | h_16 s =>
    simp only [encodeBinaryJumpTable]
    exact plans_string hT s
  case h_17 g =>
    simp only [encodeBinaryJumpTable]
    exact plans_guid g
  case h_18 n =>
    simp only [encodeBinaryJumpTable]
    exact plans_nodeId hT n 0
  case h_19 n =>
    simp only [encodeBinaryJumpTable]
    exact plans_expandedNodeId hT n
  case h_20 n =>
    simp only [encodeBinaryJumpTable]
    exact plans_qualifiedName hT n
  case h_21 t =>
    simp only [encodeBinaryJumpTable]
    exact plans_localizedText hT t
  case h_22 => cases hv

/-- **The size calculation of the leaf types counts what the encoder writes**. -/
theorem calcSizeBinaryJumpTable_eq {kind : DataTypeKind} {v : Value}
    (hv : v.isOfKind kind = true) (type : DataTypeRef) :
    calcSizeBinaryJumpTable T kind type v = some (v.plan T).bytes.length := by
  rw [Value.plan, Plan.bytes_seq, Plan.bytes_chunk, List.length_append]
  unfold Value.isOfKind at hv
  split at hv
  case h_1 | h_2 | h_3 | h_4 | h_5 | h_6 | h_7 | h_8 | h_9 | h_10 | h_11 | h_12 | h_13 | h_17 =>
    simp [calcSizeBinaryJumpTable, Value.head, Value.rest]
  case h_14 s | h_15 s | h_16 s =>
    simp [calcSizeBinaryJumpTable, Value.head, Value.rest, stringBytes_length]
  case h_18 n =>
    simp only [calcSizeBinaryJumpTable]
    exact congrArg some (nodeIdCalcSizeBinary_eq n 0)
  case h_19 n =>
    simp only [calcSizeBinaryJumpTable]
    exact congrArg some (expandedNodeIdCalcSizeBinary_eq n)
  case h_20 n =>
    simp only [calcSizeBinaryJumpTable]
    exact congrArg some (qualifiedNameCalcSizeBinary_eq n)
  case h_21 t =>
    simp only [calcSizeBinaryJumpTable]
    exact congrArg some (localizedTextCalcSizeBinary_eq t)
  case h_22 => cases hv

/-- Objects of an overlayable kind are their encoding. -/
theorem memory_eq {kind : DataTypeKind} {v : Value} (hv : v.isOfKind kind = true)
    (h : kind.overlayable = true) :
    v.memory = some (v.plan T).bytes ∧ (v.plan T).bytes.length = builtinMemSize kind := by
  unfold Value.isOfKind at hv
  split at hv
  case h_1 | h_2 | h_3 | h_4 | h_5 | h_6 | h_7 | h_8 | h_9 | h_10 | h_11 | h_12 | h_13 | h_17 =>
    simp [Value.memory, Value.plan, Value.head, Value.rest, builtinMemSize]
  case h_14 | h_15 | h_16 | h_18 | h_19 | h_20 | h_21 => cases h
  case h_22 => cases hv

/-! ## Variants -/

/-- What a Variant over the kind `kind` may hold: no array, an array or a scalar. -/
def Value.isDataOf (kind : DataTypeKind) : Value → Bool
  | .null => true
  | .array xs => xs.all (Value.isOfKind kind)
  | v => v.isOfKind kind

/-- A Variant that is empty, or holds objects of a leaf type. -/
inductive Variant.IsLeaf : Variant → Prop where
  | empty (data : Value) (dimensions : Option (List UInt32)) : IsLeaf ⟨none, data, dimensions⟩
  | value {kind : DataTypeKind} {data : Value} (dimensions : Option (List UInt32))
      (hkind : kind.isLeaf = true) (hdata : data.isDataOf kind = true) :
      IsLeaf ⟨some (DataTypes.builtin kind), data, dimensions⟩

/-- The elements of the array a data pointer leads to. -/
def Value.elements : Value → List Value
  | .array xs => xs
  | _ => []

/-- The plan of `Array_encodeBinary` for objects of type `type`. -/
def valuesPlan (T : DataTypes) (type : DataTypeRef) : Value → Plan
  | .array xs =>
    arrayPlan (T.get type) (some xs.length) (xs.flatMap fun x => (x.plan T).bytes)
      (xs.map (Value.plan T))
  | _ => arrayPlan (T.get type) none [] []

/-- `isArray && src->arrayDimensionsSize > 0` -/
def hasDimensions (v : Variant) : Bool :=
  v.data.isArray && decide ((v.arrayDimensions.getD []).length > 0)

/-- The encoding byte. -/
def variantHead (T : DataTypes) (v : Variant) : Bytes :=
  match v.type with
  | none => [0]
  | some type => [variantEncodingByte (T.get type).typeKind v.data.isArray
      (decide ((v.arrayDimensions.getD []).length > 0))]

/-- The content and the dimensions. -/
def variantRest (T : DataTypes) (v : Variant) : Plan :=
  match v.type with
  | none => .empty
  | some type =>
    .seq (if v.data.isArray then valuesPlan T type v.data else v.data.plan T)
      (if hasDimensions v then dimensionsPlan T (v.arrayDimensions.getD []) else .empty)

/-- The plan of `UA_Variant_encodeBinary`. -/
def variantPlan (T : DataTypes) (v : Variant) : Plan :=
  .seq (.whole (variantHead T v)) (variantRest T v)

/-- The elements of an array, one by one. -/
theorem plans_elements (hT : StandardTypes T) {kind : DataTypeKind} {xs : List Value}
    (h : xs.all (Value.isOfKind kind) = true) (depth : Nat) (type : DataTypeRef) :
    Plans [] (.all (xs.map (Value.plan T))) (elementsEncodeBinary T depth kind type xs) := by
  induction xs with
  | nil =>
    simp only [elementsEncodeBinary]
    exact emits_pure
  | cons x xs ih =>
    simp only [List.all_cons, Bool.and_eq_true] at h
    simp only [elementsEncodeBinary]
    exact (plans_value hT h.1 depth type).exchange.bind (ih h.2)

/-- An array of leaf values that may be copied lies in memory as it is sent. -/
theorem arrayMemory_values (hT : StandardTypes T) {kind : DataTypeKind} (hkind : kind.isLeaf = true)
    {xs : List Value} (h : xs.all (Value.isOfKind kind) = true)
    (hover : (T.get (DataTypes.builtin kind)).overlayable = true) :
    arrayMemory (T.get (DataTypes.builtin kind)).memSize Value.memory xs =
      some (xs.flatMap fun x => (x.plan T).bytes) := by
  have hbuiltin := DataTypeKind.isBuiltin_of_isLeaf hkind
  rw [hT.memSize kind hbuiltin]
  exact arrayMemory_eq fun x hx =>
    memory_eq (List.all_eq_true.mp h x hx) (hT.overlayable kind hbuiltin hover)

/-- An array of leaf values. -/
theorem plans_values (hT : StandardTypes T) {kind : DataTypeKind} (hkind : kind.isLeaf = true)
    {data : Value} (hdata : data.isDataOf kind = true) (harray : data.isArray = true)
    (depth : Nat) :
    Plans [] (valuesPlan T (DataTypes.builtin kind) data)
      (valuesEncodeBinary T depth (DataTypes.builtin kind) data) := by
  cases data with
  | null =>
    simp only [valuesEncodeBinary]
    exact plans_array (fun _ h => absurd rfl h) emits_pure
  | array xs =>
    simp only [valuesEncodeBinary]
    refine plans_array (fun hover _ => arrayMemory_values hT hkind hdata hover) ?_
    rw [T.get_builtin (DataTypeKind.isBuiltin_of_isLeaf hkind)]
    exact plans_elements hT hdata depth _
  | _ => cases harray

/-- A scalar is of the kind itself, an array is of elements of the kind. -/
theorem isOfKind_of_isDataOf {kind : DataTypeKind} {data : Value}
    (h : data.isDataOf kind = true) (harray : data.isArray = false) :
    data.isOfKind kind = true := by
  cases data <;> first | exact h | cases harray

/-- A scalar is no array. -/
theorem isArray_of_isOfKind {kind : DataTypeKind} {v : Value} (hv : v.isOfKind kind = true) :
    v.isArray = false := by
  cases v with
  | null | array xs => cases kind <;> cases hv
  | _ => rfl

/-- The encoder of Variants with leaf content. -/
theorem plans_variant (hT : StandardTypes T) {v : Variant} (hv : v.IsLeaf) (depth : Nat) :
    Plans (variantHead T v) (variantRest T v) (variantEncodeBinary T depth v) := by
  cases hv with
  | empty data dimensions =>
    simp only [variantEncodeBinary]
    exact plans_byte 0
  | @value kind data dimensions hkind hdata =>
    have hunwrapped : (T.get (DataTypes.builtin kind)).typeKind.isUnwrapped = true := by
      rw [T.get_builtin (DataTypeKind.isBuiltin_of_isLeaf hkind), DataTypeKind.isUnwrapped,
        DataTypeKind.isBuiltin_of_isLeaf hkind, Bool.true_or]
    -- dimensions are written behind arrays only
    have hdimensions :
      Plans [] _ (encodeIf (data.isArray && decide ((dimensions.getD []).length > 0))
        (dimensionsEncodeBinary T (dimensions.getD []))) :=
      plans_encodeIf fun _ => plans_dimensions hT (dimensions.getD [])
    simp only [variantEncodeBinary, hunwrapped, if_true]
    cases harray : data.isArray with
    | true =>
      have hcontent := plans_values hT hkind hdata harray depth
      simp only [variantHead, variantRest, hasDimensions, harray, if_true] at hdimensions ⊢
      exact (plans_byte _).bind_head (hcontent.bind hdimensions)
    | false =>
      have hcontent := (plans_value hT (isOfKind_of_isDataOf hdata harray) depth
        (DataTypes.builtin kind)).exchange
      simp only [variantHead, variantRest, hasDimensions, harray, Bool.false_eq_true, if_false,
        T.get_builtin (DataTypeKind.isBuiltin_of_isLeaf hkind)] at hdimensions ⊢
      exact (plans_byte _).bind_head (hcontent.bind hdimensions)

/-- `UA_Variant_encodeBinary` carries out its plan. -/
theorem plans_uaVariant (hT : StandardTypes T) {v : Variant} (hv : v.IsLeaf) :
    Plans [] (variantPlan T v) (uaVariantEncodeBinary T v) :=
  (plans_variant hT hv 0).exchange

theorem valuesPlan_bytes_length {kind : DataTypeKind} {data : Value}
    (harray : data.isArray = true) :
    (valuesPlan T (DataTypes.builtin kind) data).bytes.length =
      4 + (data.elements.flatMap fun x => (x.plan T).bytes).length := by
  cases data with
  | null =>
    show (arrayPlan _ none [] []).bytes.length = _
    rw [arrayPlan_bytes (fun _ => rfl) rfl, List.length_append, lengthBytes_length]
    rfl
  | array xs =>
    have hnil : (some xs.length).getD 0 = 0 → (xs.flatMap fun x => (x.plan T).bytes) = [] := by
      intro h
      rw [List.length_eq_zero_iff.mp h, List.flatMap_nil]
    rw [valuesPlan, arrayPlan_bytes hnil (List.flatMap_map ..), List.length_append,
      lengthBytes_length]
    rfl
  | _ => cases harray

/-- The sizes of the elements add up to their bytes. -/
theorem elementsCalcSizeBinary_eq {kind : DataTypeKind} {xs : List Value}
    (h : xs.all (Value.isOfKind kind) = true) (type : DataTypeRef) :
    elementsCalcSizeBinary T kind type xs =
      some (xs.flatMap fun x => (x.plan T).bytes).length := by
  induction xs with
  | nil => rfl
  | cons x xs ih =>
    simp only [List.all_cons, Bool.and_eq_true] at h
    simp only [elementsCalcSizeBinary, calcSizeBinaryJumpTable_eq h.1, ih h.2, sumSizes_cons,
      sumSizes_nil, Option.map_some, Nat.add_zero, List.flatMap_cons, List.length_append]

/-- An array is four bytes and its elements, also where its size is a product. -/
theorem valuesCalcSizeBinary_eq (hT : StandardTypes T) {kind : DataTypeKind}
    (hkind : kind.isLeaf = true) {data : Value} (hdata : data.isDataOf kind = true)
    (harray : data.isArray = true) :
    valuesCalcSizeBinary T (DataTypes.builtin kind) data =
      some (valuesPlan T (DataTypes.builtin kind) data).bytes.length := by
  have hbuiltin := DataTypeKind.isBuiltin_of_isLeaf hkind
  rw [valuesPlan_bytes_length harray]
  cases data with
  | null =>
    simp only [valuesCalcSizeBinary, arrayCalcSizeBinary]
    split <;> rfl
  | array xs =>
    simp only [valuesCalcSizeBinary, arrayCalcSizeBinary, Value.elements]
    split
    · rename_i hover
      have hsize : ∀ x ∈ xs, (x.plan T).bytes.length = builtinMemSize kind := fun x hx =>
        (memory_eq (List.all_eq_true.mp hdata x hx) (hT.overlayable kind hbuiltin hover)).2
      rw [hT.memSize kind hbuiltin, List.length_flatMap, List.map_congr_left hsize,
        List.map_const', List.sum_replicate_nat, Nat.mul_comm]
    · rw [T.get_builtin hbuiltin, elementsCalcSizeBinary_eq hdata]
      rfl
  | _ => cases harray

/-- The size calculation of a Variant gives the number of bytes of its plan. -/
theorem uaVariantCalcSizeBinary_eq (hT : StandardTypes T) {v : Variant} (hv : v.IsLeaf) :
    uaVariantCalcSizeBinary T v = some (variantPlan T v).bytes.length := by
  cases hv with
  | empty data dimensions => rfl
  | @value kind data dimensions hkind hdata =>
    have hunwrapped : (T.get (DataTypes.builtin kind)).typeKind.isUnwrapped = true := by
      rw [T.get_builtin (DataTypeKind.isBuiltin_of_isLeaf hkind), DataTypeKind.isUnwrapped,
        DataTypeKind.isBuiltin_of_isLeaf hkind, Bool.true_or]
    have hcontent : (if data.isArray then valuesCalcSizeBinary T (DataTypes.builtin kind) data
        else calcSizeBinaryJumpTable T (T.get (DataTypes.builtin kind)).typeKind
          (DataTypes.builtin kind) data) =
        some (if data.isArray then valuesPlan T (DataTypes.builtin kind) data
          else data.plan T).bytes.length := by
      cases harray : data.isArray with
      | true => exact valuesCalcSizeBinary_eq hT hkind hdata harray
      | false =>
        rw [T.get_builtin (DataTypeKind.isBuiltin_of_isLeaf hkind)]
        exact calcSizeBinaryJumpTable_eq (isOfKind_of_isDataOf hdata harray) _
    -- they are counted under the same condition as they are written
    have hdimensions : (if data.isArray && decide ((dimensions.getD []).length > 0) then
        dimensionsCalcSizeBinary T (dimensions.getD []) else some 0) =
        some (if hasDimensions ⟨some (DataTypes.builtin kind), data, dimensions⟩ then
          dimensionsPlan T (dimensions.getD []) else .empty).bytes.length := by
      unfold hasDimensions
      split
      · rw [dimensionsCalcSizeBinary_eq hT, dimensionsPlan_bytes]
      · rfl
    simp only [uaVariantCalcSizeBinary, variantCalcSizeBinary, hcontent, hdimensions, hunwrapped,
      if_true, sumSizes_cons, sumSizes_nil, Option.map_some, variantPlan, variantHead, variantRest,
      Plan.bytes_seq, Plan.bytes_chunk, List.length_append, List.length_singleton, Nat.zero_add,
      Nat.add_zero]

/-! ## Calls from outside -/

theorem commits_byte (v : UInt8) : Commits [v] True (byteEncodeBinary v) :=
  (plans_byte v).commits.congr (List.append_nil _) (by simp)

/-- A value of fixed size, in a call from outside. -/
theorem commits_fixed (bs : Bytes) :
    Commits bs True (encodeWithExchangeBuffer (fixedEncodeBinary bs)) :=
  (plans_fixed bs).exchange_head.commits.congr rfl (by simp)

theorem commits_uaByte (v : UInt8) : Commits [v] True (uaByteEncodeBinary v) := commits_fixed _

theorem commits_uaUInt16 (v : UInt16) :
    Commits (leBytes 2 v.toNat) True (uaUInt16EncodeBinary v) := commits_fixed _

theorem commits_uaUInt32 (v : UInt32) :
    Commits (leBytes 4 v.toNat) True (uaUInt32EncodeBinary v) := commits_fixed _

theorem commits_uaUInt64 (v : UInt64) :
    Commits (leBytes 8 v.toNat) True (uaUInt64EncodeBinary v) := commits_fixed _

theorem commits_uaGuid (g : Guid) : Commits g.memory True (uaGuidEncodeBinary g) :=
  (plans_guid g).exchange_head.commits.congr rfl (by simp)

theorem commits_uaString (hT : StandardTypes T) (s : UAString) :
    Commits (stringBytes s) (stringFits s = true) (uaStringEncodeBinary T s) :=
  (plans_string hT s).exchange.commits.congr (by simp) (by simp [stringPlan_ok])

/-- A Variant that is written by the network message code. -/
theorem commits_uaVariant (hT : StandardTypes T) {v : Variant} (hv : v.IsLeaf) :
    Commits (variantPlan T v).bytes ((variantPlan T v).ok = true) (uaVariantEncodeBinary T v) :=
  (plans_uaVariant hT hv).commits

/-! ## DataValues -/

/-- The encoding mask of a DataValue. -/
def dataValueMask (d : DataValue) : UInt8 :=
  maskBit d.hasValue 0x01 ||| maskBit d.hasStatus 0x02 ||| maskBit d.hasSourceTimestamp 0x04 |||
    maskBit d.hasServerTimestamp 0x08 ||| maskBit d.hasSourcePicoseconds 0x10 |||
    maskBit d.hasServerPicoseconds 0x20

/-- The members of a DataValue after the Variant. -/
def dataValueTailBytes (d : DataValue) : Bytes :=
  (if d.hasStatus then leBytes 4 d.status.toNat else []) ++
    ((if d.hasSourceTimestamp then leBytes 8 d.sourceTimestamp.toNat else []) ++
      ((if d.hasSourcePicoseconds then leBytes 2 d.sourcePicoseconds.toNat else []) ++
        ((if d.hasServerTimestamp then leBytes 8 d.serverTimestamp.toNat else []) ++
          (if d.hasServerPicoseconds then leBytes 2 d.serverPicoseconds.toNat else []))))

/-- The bytes of a DataValue: its mask, the Variant, and the members behind it. -/
def dataValueBytes (T : DataTypes) (d : DataValue) : Bytes :=
  [dataValueMask d] ++
    ((if d.hasValue then (variantPlan T d.value).bytes else []) ++ dataValueTailBytes d)

/-- The Variant of a DataValue is empty or of a leaf type. -/
def DataValue.IsLeaf (d : DataValue) : Prop := d.hasValue = true → Variant.IsLeaf d.value

/-- A DataValue that is written by the network message code. Only its Variant can be refused. -/
theorem commits_uaDataValue (hT : StandardTypes T) {d : DataValue} (hd : d.IsLeaf) :
    Commits (dataValueBytes T d) (d.hasValue = true → (variantPlan T d.value).ok = true)
      (uaDataValueEncodeBinary T d) := by
  obtain ⟨hasValue, hasStatus, hasSourceTimestamp, hasServerTimestamp, hasSourcePicoseconds,
    hasServerPicoseconds, value, status, sourceTimestamp, sourcePicoseconds, serverTimestamp,
    serverPicoseconds⟩ := d
  have htail := (commits_uaUInt32 status).ite (c := hasStatus) |>.accum
    ((commits_uaUInt64 sourceTimestamp).ite (c := hasSourceTimestamp) |>.accum
      ((commits_uaUInt16 sourcePicoseconds).ite (c := hasSourcePicoseconds) |>.accum
        ((commits_uaUInt64 serverTimestamp).ite (c := hasServerTimestamp) |>.accum
          ((commits_uaUInt16 serverPicoseconds).ite (c := hasServerPicoseconds)))))
  have hvalue : Commits (if hasValue then (variantPlan T value).bytes else [])
      (hasValue = true → (variantPlan T value).ok = true)
      (encodeIf hasValue (variantEncodeBinary T 0 value)) := by
    cases hasValue with
    | true =>
      exact (plans_variant hT (hd rfl) 0).commits.congr rfl (by simp [variantPlan])
    | false => exact commits_pure.congr rfl (by simp)
  have hmask := (plans_byte (dataValueMask ⟨hasValue, hasStatus, hasSourceTimestamp,
    hasServerTimestamp, hasSourcePicoseconds, hasServerPicoseconds, value, status,
    sourceTimestamp, sourcePicoseconds, serverTimestamp, serverPicoseconds⟩)).commits
  unfold uaDataValueEncodeBinary encodeWithExchangeBuffer
  simp only [dataValueEncodeBinary]
  exact (hmask.bind (hvalue.bind htail)).goBack.congr rfl (by simp)

/-- The size calculation of a DataValue gives the number of its bytes. -/
theorem uaDataValueCalcSizeBinary_eq (hT : StandardTypes T) {d : DataValue} (hd : d.IsLeaf) :
    uaDataValueCalcSizeBinary T d = some (dataValueBytes T d).length := by
  obtain ⟨hasValue, hasStatus, hasSourceTimestamp, hasServerTimestamp, hasSourcePicoseconds,
    hasServerPicoseconds, value, status, sourceTimestamp, sourcePicoseconds, serverTimestamp,
    serverPicoseconds⟩ := d
  have hif : ∀ (c : Bool) (k n : Nat), (if c then leBytes k n else []).length = sizeIf c k := by
    intro c k n
    cases c <;> simp [sizeIf]
  have hvalue : (if hasValue then variantCalcSizeBinary T value else some 0) =
      some (if hasValue then (variantPlan T value).bytes else []).length := by
    cases hasValue with
    | true => exact uaVariantCalcSizeBinary_eq hT (hd rfl)
    | false => rfl
  simp only [uaDataValueCalcSizeBinary, dataValueCalcSizeBinary, hvalue, sumSizes_cons,
    sumSizes_nil, Option.map_some, dataValueBytes, dataValueTailBytes, List.length_append, hif,
    List.length_singleton, Nat.add_zero]

end OpenPubSub
