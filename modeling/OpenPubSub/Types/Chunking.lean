import OpenPubSub.Types.EncodeChunks
import OpenPubSub.Types.EncodeSizes

/-!
# Encoding in chunks is encoding

The encoders with a callback against the ones without, for objects of every kind and any type
table.

- `chunkStatuses` are the statuses of all encoders. All but
  `UA_STATUSCODE_BADENCODINGLIMITSEXCEEDED` are final.
- `headRoom` is what a new buffer needs to have room for. A NodeId with a Guid is written in one
  piece, and no other type takes more before it calls `encodeWithExchangeBuffer`.
- **`chunks_jumpTable`** and its companions: by induction on the object, one case for each kind
  of object.
-/

namespace OpenPubSub

open Routine Writer

/-! ## Statuses -/

/-- The statuses of the encoders: either the buffer is full, or one of three bits is set that
this status does not have. -/
def chunkStatuses : Statuses ErrorCode where
  limits := badEncodingLimitsExceeded
  hard e := e.1 &&& 0x00460000 ≠ 0
  limits_or := encodingStatuses.limits_or
  hard_or := by
    intro a b ha _ hab
    refine ha (UInt32.toBitVec_inj.mp ?_)
    have hor : (a.1.toBitVec ||| b.1.toBitVec) &&& 0x00460000#32 = 0#32 :=
      congrArg UInt32.toBitVec hab
    rw [BitVec.and_or_distrib_right, BitVec.or_eq_zero_iff] at hor
    exact hor.1

/-- The most bytes that are written in one piece. -/
def headRoom : Nat := 19

/-- `y` does in chunks what `x` does in one buffer, and writes up to `k` bytes at first. -/
abbrev InChunks (σ : Type) (k : Nat) (x : Enc)
    (y : Option (Callback ErrorCode σ) → ChunkEnc σ Unit) : Prop :=
  Chunks σ chunkStatuses headRoom k x y

/-- What refuses in one buffer refuses in chunks. -/
theorem chunks_hard {e : ErrorCode} (h : encodingStatuses.hard e) : chunkStatuses.hard e := by
  rcases h with rfl | rfl
  · exact (by decide : (0x80060000 : UInt32) &&& 0x00460000 ≠ 0)
  · exact (by decide : (0x80020000 : UInt32) &&& 0x00460000 ≠ 0)

theorem chunks_hard_notImplemented : chunkStatuses.hard badNotImplemented :=
  (by decide : (0x80400000 : UInt32) &&& 0x00460000 ≠ 0)

theorem chunks_not_hard_limits : ¬ chunkStatuses.hard chunkStatuses.limits :=
  (by decide : ¬ (0x80080000 : UInt32) &&& 0x00460000 ≠ 0)

variable {σ : Type} {T : DataTypes} {k : Nat} {x : Enc}
  {y : Option (Callback ErrorCode σ) → ChunkEnc σ Unit}

/-! ## Encoders that never exchange the buffer -/

/-- A value of fixed size, as the encoder into one buffer writes it. -/
theorem direct_plans {head : Bytes} (h : Plans head .empty x) (hk : head.length ≤ k) :
    Direct chunkStatuses k x := by
  have hx : Emits chunkStatuses head .empty x := h.mono rfl fun _ => chunks_hard
  exact (Direct.of_emits hx).mono hk

theorem direct_byte (v : UInt8) : Direct chunkStatuses 1 (byteEncodeBinary v) :=
  direct_plans (plans_byte v) (Nat.le_refl _)

theorem direct_uint16 (v : UInt16) : Direct chunkStatuses 2 (uint16EncodeBinary v) :=
  direct_plans (plans_uint16 v) (by rw [leBytes_length])

theorem direct_uint32 (v : UInt32) : Direct chunkStatuses 4 (uint32EncodeBinary v) :=
  direct_plans (plans_uint32 v) (by rw [leBytes_length])

/-- A mask that cannot be told writes nothing. -/
theorem direct_optEncodingMask (owner : DataTypeRef) (members : List DataTypeMember)
    (xs : List Value) :
    Direct chunkStatuses 4 (optEncodingMaskEncodeBinary T owner members xs) := by
  unfold optEncodingMaskEncodeBinary
  cases optEncodingMask T owner members xs 0 0 with
  | some mask => exact direct_uint32 mask
  | none => exact Direct.fault.mono (Nat.zero_le _)

theorem direct_uint64 (v : UInt64) : Direct chunkStatuses 8 (uint64EncodeBinary v) :=
  direct_plans (plans_uint64 v) (by rw [leBytes_length])

theorem direct_guid (g : Guid) : Direct chunkStatuses 16 (guidEncodeBinary g) :=
  direct_plans (plans_guid g) (by rw [guid_memory_length])

/-- The check of the depth writes nothing. -/
theorem direct_checkDepth (depth : Nat) : Direct chunkStatuses 0 (checkDepth depth) := by
  unfold checkDepth
  by_cases hdepth : encodingMaxRecursion < depth
  · rw [if_pos hdepth]
    exact .fail (chunks_hard hard_badEncodingError)
  · rw [if_neg hdepth]
    exact direct_plans emits_pure (Nat.le_refl _)

/-- A numeric NodeId in each of its three forms. -/
theorem direct_numericNodeId (ns : UInt16) (id : UInt32) (encoding : UInt8) :
    Direct chunkStatuses 7
      (nodeIdEncodeBinaryWithEncodingMask T ⟨ns, .numeric id⟩ encoding) := by
  simp only [nodeIdEncodeBinaryWithEncodingMask]
  split
  · exact direct_plans ((plans_byte _).accum_head ((plans_uint16 ns).accum_head (plans_uint32 id)))
      (by simp)
  · split
    · exact direct_plans ((plans_byte _).accum_head ((plans_byte _).accum_head (plans_uint16 _)))
        (by simp)
    · exact direct_plans ((plans_byte _).accum_head (plans_byte _)) (by simp)

/-- The largest head there is: with a Guid. -/
theorem direct_guidNodeId (ns : UInt16) (g : Guid) (encoding : UInt8) :
    Direct chunkStatuses headRoom
      (nodeIdEncodeBinaryWithEncodingMask T ⟨ns, .guid g⟩ encoding) :=
  direct_plans ((plans_byte _).accum_head ((plans_uint16 ns).accum_head (plans_guid g)))
    (by simp [headRoom])

/-- The mask and the namespace index of a NodeId with a string. -/
theorem direct_nodeIdHead (mask : UInt8) (ns : UInt16) :
    Direct chunkStatuses 3 (accum (byteEncodeBinary mask) fun _ => uint16EncodeBinary ns) :=
  direct_plans ((plans_byte mask).accum_head (plans_uint16 ns)) (by simp)

/-- Type id, encoding byte and length, in front of an object that may be too long. -/
theorem direct_extensionObjectHeader (type : DataTypeRef) (size : Option Nat) :
    Direct chunkStatuses 12 (extensionObjectHeaderEncodeBinary T type size) := by
  unfold extensionObjectHeaderEncodeBinary
  split
  · next len _ =>
    have hrest : Direct chunkStatuses 5 (accumGuard (byteEncodeBinary 1)
        (if len > int32Max then fail badEncodingError else pure ()) fun _ =>
          uint32EncodeBinary (UInt32.ofNat len)) := by
      by_cases hlen : len > int32Max
      · rw [if_pos hlen]
        exact (Direct.accumGuard_fail (chunks_hard hard_badEncodingError)
          (direct_byte 1).keeping _).mono (Nat.zero_le _)
      · rw [if_neg hlen]
        exact direct_plans ((plans_byte 1).accum_head (plans_uint32 _)) (by simp)
    exact (direct_numericNodeId _ _ 0).bind hrest
  · exact Direct.fault.mono (Nat.zero_le _)
  · exact (Direct.fail (chunks_hard hard_badEncodingError)).mono (Nat.zero_le _)

/-- A number that is written if it is there. -/
theorem plans_encodeSome_uint32 (o : Option UInt32) :
    ∃ bs : Bytes, bs.length ≤ 4 ∧ Plans bs .empty (encodeSome o uint32EncodeBinary) := by
  cases o with
  | some v => exact ⟨_, by rw [leBytes_length], plans_uint32 v⟩
  | none => exact ⟨[], Nat.zero_le _, emits_pure⟩

/-- The mask and the numeric content of a DiagnosticInfo. -/
theorem direct_diagnosticInfoHead (mask : UInt8) (a b c d : Option UInt32) :
    Direct chunkStatuses 17 (accum (byteEncodeBinary mask) fun _ =>
      accum (encodeSome a uint32EncodeBinary) fun _ =>
        accum (encodeSome b uint32EncodeBinary) fun _ =>
          accum (encodeSome c uint32EncodeBinary) fun _ => encodeSome d uint32EncodeBinary) := by
  obtain ⟨as, ha, has⟩ := plans_encodeSome_uint32 a
  obtain ⟨bs, hb, hbs⟩ := plans_encodeSome_uint32 b
  obtain ⟨cs, hc, hcs⟩ := plans_encodeSome_uint32 c
  obtain ⟨ds, hd, hds⟩ := plans_encodeSome_uint32 d
  refine direct_plans ((plans_byte mask).accum_head
    (has.accum_head (hbs.accum_head (hcs.accum_head hds)))) ?_
  simp only [List.length_append, List.length_singleton]
  omega

/-! ## Encoders that exchange the buffer -/

/-- `encodeWithExchangeBuffer` -/
theorem InChunks.exchange (h : InChunks σ k x y) (hk : k ≤ headRoom) :
    InChunks σ 0 (encodeWithExchangeBuffer x) fun f => Chunked.encodeWithExchangeBuffer f (y f) :=
  h.retry hk chunks_not_hard_limits

/-- Behind the exchange a value of fixed size needs no room. -/
theorem InChunks.exchange_direct (h : Direct chunkStatuses k x) (hk : k ≤ headRoom) :
    InChunks σ 0 (encodeWithExchangeBuffer x)
      fun f => Chunked.encodeWithExchangeBuffer f (Chunked.direct x) :=
  InChunks.exchange (.of_direct h) hk

/-- `if(c) x();` -/
theorem InChunks.encodeIf {c : Bool} (h : InChunks σ 0 x y) :
    InChunks σ 0 (encodeIf c x) fun f => Chunked.encodeIf c (y f) :=
  Chunks.ite (fun _ => h) fun _ => .pure

/-- A member that is written if it is there. -/
theorem chunks_encodeSome {α : Type} {f : α → Enc}
    {g : Option (Callback ErrorCode σ) → α → ChunkEnc σ Unit} (o : Option α)
    (h : ∀ a, InChunks σ 0 (f a) fun c => g c a) :
    InChunks σ 0 (encodeSome o f) fun c => Chunked.encodeSome o (g c) := by
  cases o with
  | some a => exact h a
  | none => exact .pure

/-- The length, and then the elements. A copy from memory goes over any number of buffers. -/
theorem chunks_array (type : DataType) (length : Option Nat) (memory : Option Bytes)
    (h : InChunks σ 0 x y) :
    InChunks σ 0 (arrayEncodeBinary type length memory x)
      fun f => Chunked.arrayEncodeBinary f type length memory (y f) := by
  unfold arrayEncodeBinary Chunked.arrayEncodeBinary
  refine .ite (fun _ => .fail (chunks_hard hard_badInternalError)) fun _ => ?_
  refine (InChunks.exchange_direct (direct_uint32 _) (by decide)).bind ?_
  refine .ite (fun _ => .pure) fun _ => .ite (fun _ => ?_) fun _ => h
  unfold arrayEncodeBinaryOverlayable Chunked.arrayEncodeBinaryOverlayable
  cases memory with
  | some bytes => exact .stream (chunks_hard hard_badEncodingError) (by decide) bytes
  | none => exact .fault

/-- An array of values of fixed size. -/
theorem chunks_list {α : Type} (type : DataType) (memory : α → Option Bytes) (f : α → Enc)
    (hf : ∀ a, Direct chunkStatuses 4 (f a)) (src : Option (List α)) :
    InChunks σ 0 (listEncodeBinary type memory f src)
      fun c => Chunked.listEncodeBinary c type memory f src :=
  chunks_array type _ _ (.each (fun a => InChunks.exchange_direct (hf a) (by decide)) _)

/-- A string is copied piece by piece. -/
theorem chunks_string (src : UAString) :
    InChunks σ 0 (stringEncodeBinary T src) fun f => Chunked.stringEncodeBinary f T src :=
  chunks_list _ _ _ (fun b => (direct_byte b).mono (by decide)) src

theorem chunks_dimensions (dimensions : List UInt32) :
    InChunks σ 0 (dimensionsEncodeBinary T dimensions)
      fun f => Chunked.dimensionsEncodeBinary f T dimensions :=
  chunks_list _ _ _ direct_uint32 (some dimensions)

/-- A NodeId: the head directly, a string behind it in chunks. -/
theorem chunks_nodeIdMask (src : NodeId) (encoding : UInt8) :
    InChunks σ headRoom (nodeIdEncodeBinaryWithEncodingMask T src encoding)
      fun f => Chunked.nodeIdEncodeBinaryWithEncodingMask f T src encoding := by
  obtain ⟨ns, identifier⟩ := src
  cases identifier with
  | numeric id => exact .of_direct ((direct_numericNodeId ns id encoding).mono (by decide))
  | guid g => exact .of_direct (direct_guidNodeId ns g encoding)
  | string s =>
    exact (Chunks.bind_direct (direct_nodeIdHead _ ns) (chunks_string s)).mono (by decide)
  | byteString s =>
    exact (Chunks.bind_direct (direct_nodeIdHead _ ns) (chunks_string s)).mono (by decide)

theorem chunks_nodeId (src : NodeId) :
    InChunks σ headRoom (nodeIdEncodeBinary T src) fun f => Chunked.nodeIdEncodeBinary f T src :=
  chunks_nodeIdMask src 0

/-- The URI and the server index are behind an exchange of their own. -/
theorem chunks_expandedNodeId (src : ExpandedNodeId) :
    InChunks σ headRoom (expandedNodeIdEncodeBinary T src)
      fun f => Chunked.expandedNodeIdEncodeBinary f T src :=
  (chunks_nodeIdMask src.nodeId _).bind ((chunks_string src.namespaceUri).encodeIf.bind
    (InChunks.exchange_direct (direct_uint32 src.serverIndex) (by decide)).encodeIf)

/-- The namespace directly, the name in chunks. -/
theorem chunks_qualifiedName (src : QualifiedName) :
    InChunks σ 2 (qualifiedNameEncodeBinary T src)
      fun f => Chunked.qualifiedNameEncodeBinary f T src :=
  .bind_direct (direct_uint16 src.namespaceIndex) (chunks_string src.name)

/-- The mask directly, locale and text in chunks. -/
theorem chunks_localizedText (src : LocalizedText) :
    InChunks σ 1 (localizedTextEncodeBinary T src)
      fun f => Chunked.localizedTextEncodeBinary f T src :=
  .bind_direct (direct_byte _)
    ((chunks_string src.locale).encodeIf.accum (chunks_string src.text).encodeIf)

/-- A DiagnosticInfo, given the one inside it. -/
theorem chunks_diagnosticInfo_mk (symbolicId namespaceUri localizedText locale : Option UInt32)
    (additionalInfo : Option UAString) (innerStatusCode : Option StatusCode)
    {inner : Option DiagnosticInfo}
    (h : ∀ d ∈ inner, InChunks σ 17 (diagnosticInfoEncodeBinary T d)
      fun f => Chunked.diagnosticInfoEncodeBinary f T d) :
    InChunks σ 17 (diagnosticInfoEncodeBinary T (.mk symbolicId namespaceUri localizedText locale
        additionalInfo innerStatusCode inner))
      fun f => Chunked.diagnosticInfoEncodeBinary f T (.mk symbolicId namespaceUri localizedText
        locale additionalInfo innerStatusCode inner) := by
  unfold diagnosticInfoEncodeBinary Chunked.diagnosticInfoEncodeBinary
  refine .bind_direct (direct_diagnosticInfoHead _ _ _ _ _)
    ((chunks_encodeSome additionalInfo chunks_string).bind
      ((chunks_encodeSome innerStatusCode fun v =>
        InChunks.exchange_direct (direct_uint32 v) (by decide)).bind ?_))
  cases inner with
  | some d => exact InChunks.exchange (h d rfl) (by decide)
  | none => exact .pure

/-- The chain of DiagnosticInfos, by induction on it. The mask and the four numbers are written
directly. -/
theorem chunks_diagnosticInfo : ∀ d : DiagnosticInfo,
    InChunks σ 17 (diagnosticInfoEncodeBinary T d)
      fun f => Chunked.diagnosticInfoEncodeBinary f T d
  | .mk _ _ _ _ _ _ none =>
    chunks_diagnosticInfo_mk _ _ _ _ _ _ fun _ h => absurd h (Option.not_mem_none _)
  | .mk _ _ _ _ _ _ (some inner) =>
    chunks_diagnosticInfo_mk _ _ _ _ _ _ fun _ h =>
      Option.mem_some.mp h ▸ chunks_diagnosticInfo inner

/-! ## Objects of every kind -/

/-- An object that does not suit its kind is not encoded. -/
theorem encodeBinaryJumpTable_unsuited {kind : DataTypeKind} {v : Value}
    (hv : v.suits kind = false) (depth : Nat) (type : DataTypeRef) :
    encodeBinaryJumpTable T depth kind type v =
      if kind = .decimal then fail badNotImplemented else fault := by
  unfold encodeBinaryJumpTable
  split
  case h_31 => exact (if_pos rfl).symm
  case h_32 => exact (if_neg (by assumption)).symm
  all_goals cases hv

/-- Nor is it in chunks. -/
theorem Chunked.encodeBinaryJumpTable_unsuited {kind : DataTypeKind} {v : Value}
    (hv : v.suits kind = false) (f : Option (Writer.Callback ErrorCode σ)) (depth : Nat)
    (type : DataTypeRef) :
    Chunked.encodeBinaryJumpTable f T depth kind type v =
      if kind = .decimal then fail badNotImplemented else fault := by
  unfold Chunked.encodeBinaryJumpTable
  split
  case h_31 => exact (if_pos rfl).symm
  case h_32 => exact (if_neg (by assumption)).symm
  all_goals cases hv

/-- The jump tables refuse the same objects. -/
theorem chunks_unsuited {kind : DataTypeKind} {v : Value} (hv : v.suits kind = false)
    (depth : Nat) (type : DataTypeRef) :
    InChunks σ 0 (encodeBinaryJumpTable T depth kind type v)
      fun f => Chunked.encodeBinaryJumpTable f T depth kind type v := by
  simp only [encodeBinaryJumpTable_unsuited hv, Chunked.encodeBinaryJumpTable_unsuited hv]
  by_cases hdecimal : kind = .decimal
  · simp only [if_pos hdecimal]
    exact .fail chunks_hard_notImplemented
  · simp only [if_neg hdecimal]
    exact .fault

/-- An object of a leaf kind. -/
theorem chunks_leaf {kind : DataTypeKind} {v : Value} (hv : v.isOfKind kind = true) (depth : Nat)
    (type : DataTypeRef) :
    InChunks σ headRoom (encodeBinaryJumpTable T depth kind type v)
      fun f => Chunked.encodeBinaryJumpTable f T depth kind type v := by
  unfold Value.isOfKind at hv
  split at hv
  case h_1 v | h_2 v | h_3 v => exact .of_direct ((direct_byte v).mono (by decide))
  case h_4 v | h_5 v => exact .of_direct ((direct_uint16 v).mono (by decide))
  case h_6 v | h_7 v | h_8 v | h_9 v => exact .of_direct ((direct_uint32 v).mono (by decide))
  case h_10 v | h_11 v | h_12 v | h_13 v => exact .of_direct ((direct_uint64 v).mono (by decide))
  case h_14 s | h_15 s | h_16 s => exact (chunks_string s).mono (by decide)
  case h_17 g => exact .of_direct ((direct_guid g).mono (by decide))
  case h_18 n => exact chunks_nodeId n
  case h_19 n => exact chunks_expandedNodeId n
  case h_20 n => exact (chunks_qualifiedName n).mono (by decide)
  case h_21 t => exact (chunks_localizedText t).mono (by decide)
  case h_22 => cases hv

/-- An object that holds no others. -/
theorem chunks_flat (depth : Nat) (kind : DataTypeKind) (type : DataTypeRef) {v : Value}
    (hv : v.isFlat = true) :
    InChunks σ headRoom (encodeBinaryJumpTable T depth kind type v)
      fun f => Chunked.encodeBinaryJumpTable f T depth kind type v := by
  by_cases hleaf : v.isOfKind kind = true
  · exact chunks_leaf hleaf depth type
  by_cases henum : ∃ n, kind = .enum ∧ v = .uint32 n
  · obtain ⟨n, rfl, rfl⟩ := henum
    exact .of_direct ((direct_uint32 n).mono (by decide))
  · refine (chunks_unsuited ?_ depth type).mono (Nat.zero_le _)
    unfold Value.suits
    split <;> first
      | exact absurd ⟨_, rfl, rfl⟩ henum
      | exact Bool.eq_false_iff.mpr hleaf
      | cases hv

/-- An object with type id, encoding byte and length in front. -/
theorem chunks_wrapped (type : DataTypeRef) (size : Option Nat) (h : InChunks σ headRoom x y) :
    InChunks σ 12 (extensionObjectHeaderEncodeBinary T type size >>= fun _ =>
        encodeWithExchangeBuffer x)
      fun f => Chunked.direct (extensionObjectHeaderEncodeBinary T type size) >>= fun _ =>
        Chunked.encodeWithExchangeBuffer f (y f) :=
  .bind_direct (direct_extensionObjectHeader type size) (h.exchange (Nat.le_refl _))

mutual

/-- An object of any kind. -/
theorem chunks_jumpTable (depth : Nat) (kind : DataTypeKind) (type : DataTypeRef) (v : Value) :
    InChunks σ headRoom (encodeBinaryJumpTable T depth kind type v)
      fun f => Chunked.encodeBinaryJumpTable f T depth kind type v := by
  cases hv : v.suits kind with
  | false => exact (chunks_unsuited hv depth type).mono (Nat.zero_le _)
  | true =>
    -- the data pointer has the shape the kind asks for, one case for each of them
    match v with
    | .extensionObject e =>
      cases kind <;> first
        | exact absurd hv Bool.false_ne_true
        | exact chunks_extensionObject depth e
    | .dataValue d =>
      cases kind <;> first
        | exact absurd hv Bool.false_ne_true
        | exact (chunks_dataValue depth d).mono (by decide)
    | .variant v =>
      cases kind <;> first
        | exact absurd hv Bool.false_ne_true
        | exact (chunks_variant depth v).mono (by decide)
    | .diagnosticInfo d =>
      cases kind <;> first
        | exact absurd hv Bool.false_ne_true
        | exact (chunks_diagnosticInfo d).mono (by decide)
    | .struct members =>
      have hstruct := Chunks.bind_direct (direct_checkDepth depth)
        (chunks_struct (depth + 1) type (T.get type).members members)
      cases kind <;> first
        | exact absurd hv Bool.false_ne_true
        | exact hstruct.mono (by decide)
    | .optStruct members =>
      have hstruct := Chunks.bind_direct (direct_checkDepth depth) (Chunks.bind_direct
        (direct_optEncodingMask (T := T) type (T.get type).members members)
          (chunks_optStruct (depth + 1) type (T.get type).members members))
      cases kind <;> first
        | exact absurd hv Bool.false_ne_true
        | exact hstruct.mono (by decide)
    | .union selection member =>
      -- a selection of 0 has no member, and one beyond the members is undefined
      have hmember : InChunks σ 0
          (match selection.toNat with
            | 0 => pure ()
            | i + 1 => match (T.get type).members[i]? with
              | none => fault
              | some m => encodeWithExchangeBuffer <|
                encodeBinaryJumpTable T (depth + 1) (T.get (DataTypes.memberType type m)).typeKind
                  (DataTypes.memberType type m) member)
          (fun f => match selection.toNat with
            | 0 => pure ()
            | i + 1 => match (T.get type).members[i]? with
              | none => fault
              | some m => Chunked.encodeWithExchangeBuffer f <|
                Chunked.encodeBinaryJumpTable f T (depth + 1)
                  (T.get (DataTypes.memberType type m)).typeKind (DataTypes.memberType type m)
                  member) := by
        cases selection.toNat with
        | zero => exact .pure
        | succ i =>
          dsimp only
          cases (T.get type).members[i]? with
          | none => exact .fault
          | some m =>
            exact InChunks.exchange (chunks_jumpTable (depth + 1)
              (T.get (DataTypes.memberType type m)).typeKind (DataTypes.memberType type m) member)
              (Nat.le_refl _)
      have hunion := Chunks.bind_direct (direct_checkDepth depth)
        (Chunks.bind_direct (direct_uint32 selection) hmember)
      cases kind <;> first
        | exact absurd hv Bool.false_ne_true
        | exact hunion.mono (by decide)
    | .null | .byte _ | .uint16 _ | .uint32 _ | .uint64 _ | .string _ | .guid _ | .nodeId _
    | .expandedNodeId _ | .qualifiedName _ | .localizedText _ | .raw _ | .array _ =>
      exact chunks_flat depth kind type rfl
  termination_by structural v

/-- A Variant. -/
theorem chunks_variant (depth : Nat) (v : VariantOf Value) :
    InChunks σ 5 (variantEncodeBinary T depth v)
      fun f => Chunked.variantEncodeBinary f T depth v := by
  match v with
  | ⟨none, _, _⟩ => exact .of_direct ((direct_byte 0).mono (by decide))
  | ⟨some type, data, dimensions⟩ =>
    have hscalar := chunks_jumpTable depth (T.get type).typeKind type data
    have hwrapped := chunks_wrapped (T := T) type
      (calcSizeBinaryJumpTable T (T.get type).typeKind type data) hscalar
    have hvalues := chunks_values depth type data
    have harray := chunks_wrappedArray depth type data
    have hdimensions := InChunks.encodeIf
      (c := data.isArray && decide ((dimensions.getD []).length > 0))
      (chunks_dimensions (σ := σ) (T := T) (dimensions.getD []))
    simp only [variantEncodeBinary, Chunked.variantEncodeBinary]
    generalize (data.isArray && decide ((dimensions.getD []).length > 0)) = c at hdimensions ⊢
    -- scalar or array, in an ExtensionObject or not
    cases data.isArray <;> cases (T.get type).typeKind.isUnwrapped
    · exact (Chunks.bind_direct (direct_byte _)
        ((hwrapped.exchange (by decide)).bind hdimensions)).mono (by decide)
    · exact (Chunks.bind_direct (direct_byte _)
        ((hscalar.exchange (Nat.le_refl _)).bind hdimensions)).mono (by decide)
    · exact .bind_direct (direct_byte _) (harray.bind hdimensions)
    · exact (Chunks.bind_direct (direct_byte _) (hvalues.bind hdimensions)).mono (by decide)
  termination_by structural v

/-- A DataValue. -/
theorem chunks_dataValue (depth : Nat) (d : DataValueOf Value) :
    InChunks σ 6 (dataValueEncodeBinary T depth d)
      fun f => Chunked.dataValueEncodeBinary f T depth d := by
  match d with
  | ⟨hasValue, hasStatus, hasSourceTimestamp, hasServerTimestamp, hasSourcePicoseconds,
      hasServerPicoseconds, value, status, sourceTimestamp, sourcePicoseconds, serverTimestamp,
      serverPicoseconds⟩ =>
    have hvalue : InChunks σ 5 (encodeIf hasValue (variantEncodeBinary T depth value))
        fun f => Chunked.encodeIf hasValue (Chunked.variantEncodeBinary f T depth value) :=
      .ite (fun _ => chunks_variant depth value) fun _ => Chunks.pure.mono (by decide)
    have hstatus := InChunks.exchange_direct (σ := σ) (direct_uint32 status) (by decide)
    have hsource := InChunks.exchange_direct (σ := σ) (direct_uint64 sourceTimestamp) (by decide)
    have hsourcePico := InChunks.exchange_direct (σ := σ) (direct_uint16 sourcePicoseconds)
      (by decide)
    have hserver := InChunks.exchange_direct (σ := σ) (direct_uint64 serverTimestamp) (by decide)
    have hserverPico := InChunks.exchange_direct (σ := σ) (direct_uint16 serverPicoseconds)
      (by decide)
    exact .bind_direct (direct_byte _) (hvalue.bind (hstatus.encodeIf.accum
      (hsource.encodeIf.accum (hsourcePico.encodeIf.accum
        (hserver.encodeIf.accum hserverPico.encodeIf)))))
  termination_by structural d

/-- An ExtensionObject. -/
theorem chunks_extensionObject (depth : Nat) (e : ExtensionObjectOf Value) :
    InChunks σ headRoom (extensionObjectEncodeBinary T depth e)
      fun f => Chunked.extensionObjectEncodeBinary f T depth e := by
  match e with
  | .encoded typeId .noBody =>
    exact (chunks_nodeId typeId).bind (InChunks.exchange_direct (direct_byte 0) (by decide))
  | .encoded typeId (.byteString body) =>
    exact (chunks_nodeId typeId).bind
      ((InChunks.exchange_direct (direct_byte 1) (by decide)).bind (chunks_string body))
  | .encoded typeId (.xml body) =>
    exact (chunks_nodeId typeId).bind
      ((InChunks.exchange_direct (direct_byte 2) (by decide)).bind (chunks_string body))
  | .decoded type data =>
    exact .ite (fun _ => (Chunks.fail (chunks_hard hard_badEncodingError)).mono (by decide))
      fun _ => (chunks_wrapped type _
        (chunks_jumpTable depth (T.get type).typeKind type data)).mono (by decide)
  termination_by structural e

/-- An array of structures in a Variant. -/
theorem chunks_wrappedArray (depth : Nat) (type : DataTypeRef) (data : Value) :
    InChunks σ 4 (variantEncodeBinaryWrapExtensionObject T depth type data)
      fun f => Chunked.variantEncodeBinaryWrapExtensionObject f T depth type data := by
  match data with
  | .array xs =>
    exact .ite (fun _ => (Chunks.fail (chunks_hard hard_badEncodingError)).mono (by decide))
      fun _ => .bind_direct (direct_uint32 _) (chunks_wrappedElements depth type xs)
  | .null => exact .of_direct (direct_uint32 0)
  | .extensionObject _ | .dataValue _ | .variant _ | .diagnosticInfo _ | .struct _ | .optStruct _
  | .union _ _ | .byte _ | .uint16 _ | .uint32 _ | .uint64 _ | .string _ | .guid _ | .nodeId _
  | .expandedNodeId _ | .qualifiedName _ | .localizedText _ | .raw _ =>
    exact Chunks.fault.mono (by decide)
  termination_by structural data

/-- The structures of such an array, each behind its header. -/
theorem chunks_wrappedElements (depth : Nat) (type : DataTypeRef) (xs : List Value) :
    InChunks σ 0 (wrappedElementsEncodeBinary T depth type xs)
      fun f => Chunked.wrappedElementsEncodeBinary f T depth type xs := by
  match xs with
  | [] => exact .pure
  | x :: xs =>
    have hx := chunks_wrapped (T := T) type (calcSizeBinaryJumpTable T (T.get type).typeKind type x)
      (chunks_jumpTable depth (T.get type).typeKind type x)
    exact (hx.exchange (by decide)).bind (chunks_wrappedElements depth type xs)
  termination_by structural xs

/-- An array. -/
theorem chunks_values (depth : Nat) (type : DataTypeRef) (data : Value) :
    InChunks σ 0 (valuesEncodeBinary T depth type data)
      fun f => Chunked.valuesEncodeBinary f T depth type data := by
  match data with
  | .array xs => exact chunks_array _ _ _ (chunks_elements depth (T.get type).typeKind type xs)
  | .null => exact chunks_array _ _ _ .pure
  | .extensionObject _ | .dataValue _ | .variant _ | .diagnosticInfo _ | .struct _ | .optStruct _
  | .union _ _ | .byte _ | .uint16 _ | .uint32 _ | .uint64 _ | .string _ | .guid _ | .nodeId _
  | .expandedNodeId _ | .qualifiedName _ | .localizedText _ | .raw _ => exact .fault
  termination_by structural data

/-- The elements of an array, each behind an exchange of its own. -/
theorem chunks_elements (depth : Nat) (kind : DataTypeKind) (type : DataTypeRef)
    (xs : List Value) :
    InChunks σ 0 (elementsEncodeBinary T depth kind type xs)
      fun f => Chunked.elementsEncodeBinary f T depth kind type xs := by
  match xs with
  | [] => exact .pure
  | x :: xs =>
    have hx := (chunks_jumpTable depth kind type x).exchange (Nat.le_refl _)
    exact hx.bind (chunks_elements depth kind type xs)
  termination_by structural xs

/-- The members of a structure. -/
theorem chunks_struct (depth : Nat) (owner : DataTypeRef) (members : List DataTypeMember)
    (xs : List Value) :
    InChunks σ 0 (encodeBinaryStruct T depth owner members xs)
      fun f => Chunked.encodeBinaryStruct f T depth owner members xs := by
  match xs, members with
  | [], [] => exact .pure
  | [], _ :: _ => exact .fault
  | _ :: _, [] => exact .fault
  | x :: xs, m :: members =>
    have hvalues := chunks_values depth (DataTypes.memberType owner m) x
    have hscalar := (chunks_jumpTable depth (T.get (DataTypes.memberType owner m)).typeKind
      (DataTypes.memberType owner m) x).exchange (Nat.le_refl _)
    have hrest := chunks_struct depth owner members xs
    simp only [encodeBinaryStruct, Chunked.encodeBinaryStruct]
    cases m.isArray
    · exact hscalar.bind hrest
    · exact hvalues.bind hrest
  termination_by structural xs

/-- The members of a structure that are there. -/
theorem chunks_optStruct (depth : Nat) (owner : DataTypeRef) (members : List DataTypeMember)
    (xs : List Value) :
    InChunks σ 0 (encodeBinaryStructWithOptFields T depth owner members xs)
      fun f => Chunked.encodeBinaryStructWithOptFields f T depth owner members xs := by
  match xs, members with
  | [], [] => exact .pure
  | [], _ :: _ => exact .fault
  | _ :: _, [] => exact .fault
  | x :: xs, m :: members =>
    have hvalues := chunks_values depth (DataTypes.memberType owner m) x
    have hscalar := (chunks_jumpTable depth (T.get (DataTypes.memberType owner m)).typeKind
      (DataTypes.memberType owner m) x).exchange (Nat.le_refl _)
    have hrest := chunks_optStruct depth owner members xs
    simp only [encodeBinaryStructWithOptFields, Chunked.encodeBinaryStructWithOptFields]
    cases m.isOptional && x.isNull
    · cases m.isArray
      · exact hscalar.bind hrest
      · exact hvalues.bind hrest
    · exact Chunks.pure.bind hrest
  termination_by structural xs

end

/-! ## `UA_encodeBinary` with a callback -/

theorem chunks_uaEncodeBinary (T : DataTypes) (kind : DataTypeKind) (type : DataTypeRef)
    (v : Value) :
    InChunks σ 0 (encodeWithExchangeBuffer (encodeBinaryJumpTable T 0 kind type v))
      fun f => Chunked.uaEncodeBinary f T kind type v :=
  (chunks_jumpTable 0 kind type v).exchange (Nat.le_refl _)

/-- An object goes through a callback if and only if it can be encoded into one buffer, however
much room the first buffer has. All chunks together are then what is written into the one. -/
theorem uaEncodeBinary_inChunks (T : DataTypes) (kind : DataTypeKind) (type : DataTypeRef)
    (v : Value) {f : Callback ErrorCode σ} (hf : Supplies headRoom f) {c : Chunk σ}
    (hc : c.Valid) (bs : Bytes) :
    (∃ d, Chunked.uaEncodeBinary (some f) T kind type v c = .done () d ∧ d.Valid ∧
        d.out = c.out ++ bs) ↔
      Commits bs True (encodeWithExchangeBuffer (encodeBinaryJumpTable T 0 kind type v)) :=
  (chunks_uaEncodeBinary T kind type v).out_iff hf hc

/-- Stores the chunks, and puts an empty buffer of `size` bytes in place. -/
def collectChunk (size : Nat) : Callback ErrorCode (List Bytes) := fun (sent, buffer) =>
  .done () (sent ++ [buffer.bytes.take buffer.pos], blank size)

/-- A callback that takes everything and hands out a fresh buffer. -/
theorem supplies_collectChunk (size : Nat) : Supplies size (collectChunk size) :=
  fun sent buffer _ => ⟨sent ++ [buffer.bytes.take buffer.pos], blank size, rfl, blank_valid size,
    Nat.le_of_eq (blank_room size).symm⟩

/-- No chunk sent yet, and room for `n` bytes. -/
def firstChunk (n : Nat) : Chunk (List Bytes) := ⟨[], [], 0, blank n⟩

theorem firstChunk_valid (n : Nat) : (firstChunk n).Valid := ⟨Nat.le_refl _, blank_valid n⟩

/-- A String of 100 bytes, of which the first buffer has room for one. -/
theorem longString_inChunks : ∃ d, Chunked.uaEncodeBinary (some (collectChunk headRoom))
    builtinTypes .string (DataTypes.builtin .string) (.string (some (List.replicate 100 7)))
      (firstChunk 5) = .done () d ∧ d.Valid ∧
    d.out = (firstChunk 5).out ++ stringBytes (some (List.replicate 100 7)) :=
  (uaEncodeBinary_inChunks builtinTypes .string _ _ (supplies_collectChunk headRoom)
    (firstChunk_valid 5) _).mpr
      ((commits_uaString standardTypes_builtinTypes _).congr rfl (iff_of_true rfl trivial))

/-- `BADENCODINGLIMITSEXCEEDED` means that the first buffer was too short and is still there, at
every depth of an object and whether or not the object can be encoded. `UA_encodeBinary` does not
return it. -/
theorem limitsExceeded_before_exchange (T : DataTypes) {f : Callback ErrorCode σ}
    (hf : Supplies headRoom f) {c : Chunk σ} (hc : c.Valid) (depth : Nat) (kind : DataTypeKind)
    (type : DataTypeRef) (v : Value) :
    (∀ t, Chunked.encodeBinaryJumpTable (some f) T depth kind type v c =
        .fail badEncodingLimitsExceeded t → c.buffer.room < headRoom ∧ c.Same t) ∧
      ∀ t, Chunked.uaEncodeBinary (some f) T kind type v c ≠
        .fail badEncodingLimitsExceeded t := by
  have hnothard : ¬ chunkStatuses.hard badEncodingLimitsExceeded := chunks_not_hard_limits
  constructor
  · intro t hrun
    have hend := (chunks_jumpTable (T := T) depth kind type v).ends hf hc
    rw [hrun] at hend
    exact (hend.2.resolve_left hnothard).2
  · intro t hrun
    have hend := (chunks_uaEncodeBinary T kind type v).ends hf hc
    rw [hrun] at hend
    exact absurd (hend.2.resolve_left hnothard).2.1 (Nat.not_lt_zero _)

/-- A NodeId with a Guid, and room for five bytes. -/
def guidNodeId : Value := .nodeId ⟨1, .guid ⟨1, 2, 3, 4⟩⟩

theorem guidNodeId_limitsExceeded : ∃ t, Chunked.encodeBinaryJumpTable
    (some (collectChunk headRoom)) builtinTypes 0 .nodeId (DataTypes.builtin .nodeId) guidNodeId
      (firstChunk 5) = .fail badEncodingLimitsExceeded t ∧ (firstChunk 5).Same t :=
  ⟨_, rfl, ((limitsExceeded_before_exchange builtinTypes (supplies_collectChunk headRoom)
    (firstChunk_valid 5) 0 .nodeId (DataTypes.builtin .nodeId) guidNodeId).1 _ rfl).2⟩

/-- Buffers of 18 bytes are too short. -/
example : ∃ t, Chunked.uaEncodeBinary (some (collectChunk 18)) builtinTypes .nodeId
    (DataTypes.builtin .nodeId) guidNodeId (firstChunk 18) = .fail badEncodingLimitsExceeded t :=
  ⟨_, rfl⟩

end OpenPubSub
