import OpenPubSub.Lib.Measured
import OpenPubSub.Types.EncodePlan

/-!
# The calculated size and the written size

Objects of every kind, structures and unions included: how many bytes an encoder has
written where it succeeds.

- `WireTypes` is what has to hold of the type table. An overlayable type takes as many
  bytes in memory as on the wire.
- The size calculation counts the type id in front of a wrapped structure, and the
  encoder writes its encoding id. `wrappedTypes` lists the types for which this matters,
  and `onWire` corrects a calculated size. Where the two ids of a type take equally many
  bytes (`HeaderFits`), nothing is to be corrected.
- The calculation may take the pointer to an optional member for the member and come to no
  end, where the encoder does. Nothing is said about its size then.
- **`counted_jumpTable`** and its companions: by induction on the object, one case for
  each kind of object.
-/

namespace OpenPubSub

open Routine Writer

variable (T : DataTypes)

/-! ## The type table -/

/-- What the size calculation relies on. -/
structure WireTypes : Prop extends StandardTypes T where
  wireSize : ∀ r x n, (T.get r).overlayable = true →
    calcSizeBinaryJumpTable T (T.get r).typeKind r x = some n → n = (T.get r).memSize
  noCluster : ∀ r, (T.get r).typeKind ≠ .bitfieldCluster

/-- The NodeId in front of a wrapped object of type `r`. -/
def DataTypes.encodingId (r : DataTypeRef) : NodeId :=
  ⟨(T.get r).typeId.namespaceIndex, .numeric (T.get r).binaryEncodingId⟩

/-- The type id and the encoding id take equally many bytes. -/
def DataTypes.HeaderFits (r : DataTypeRef) : Prop :=
  nodeIdCalcSizeBinary (T.encodingId r) = nodeIdCalcSizeBinary (T.get r).typeId

mutual

/-- The types of the objects inside `v` that are written with type id and length. -/
def Value.wrappedTypes (v : Value) : List DataTypeRef :=
  match v with
  | .extensionObject e => extensionObjectWrappedTypes e
  | .dataValue d => dataValueWrappedTypes d
  | .variant v => variantWrappedTypes v
  | .struct xs | .optStruct xs | .array xs => listWrappedTypes xs
  | .union selection x => if selection.toNat = 0 then [] else x.wrappedTypes
  | _ => []
  termination_by structural v

/-- A decoded object is wrapped; an encoded one carries its own type id. -/
def extensionObjectWrappedTypes : ExtensionObjectOf Value → List DataTypeRef
  | .encoded _ _ => []
  | .decoded type data => type :: data.wrappedTypes
  termination_by structural e => e

/-- A structure is wrapped for a Variant, and in an array once for each element. -/
def variantWrappedTypes : VariantOf Value → List DataTypeRef
  | ⟨none, _, _⟩ => []
  | ⟨some type, data, _⟩ =>
    (if (T.get type).typeKind.isUnwrapped then []
      else List.replicate (if data.isArray then data.arrayLength else 1) type) ++
      data.wrappedTypes
  termination_by structural v => v

def dataValueWrappedTypes : DataValueOf Value → List DataTypeRef
  | ⟨hasValue, _, _, _, _, _, value, _, _, _, _, _⟩ =>
    if hasValue then variantWrappedTypes value else []
  termination_by structural d => d

def listWrappedTypes : List Value → List DataTypeRef
  | [] => []
  | x :: xs => x.wrappedTypes ++ listWrappedTypes xs
  termination_by structural xs => xs

end

/-- What is counted for the ids of the types `rs`. -/
def DataTypes.typeIdsSize (rs : List DataTypeRef) : Nat :=
  (rs.map fun r => nodeIdCalcSizeBinary (T.get r).typeId).sum

/-- What is written for them. -/
def DataTypes.encodingIdsSize (rs : List DataTypeRef) : Nat :=
  (rs.map fun r => nodeIdCalcSizeBinary (T.encodingId r)).sum

/-- The calculated size `n`, with the ids of the wrapped types `rs` that are written. -/
def DataTypes.onWire (rs : List DataTypeRef) (n : Nat) : Nat :=
  n + T.encodingIdsSize rs - T.typeIdsSize rs

/-- If the calculation comes to its end, it comes to `n`, but for the ids of the types `rs`. -/
def CountsTo (rs : List DataTypeRef) (size : Option Nat) (n : Nat) : Prop :=
  ∀ c, size = some c → c + T.encodingIdsSize rs = n + T.typeIdsSize rs

/-- An encoder that writes as much as `size` says, but for the ids of the types `rs`. -/
abbrev Counted (T : DataTypes) (rs : List DataTypeRef) (size : Option Nat) (x : Enc) : Prop :=
  Measured (CountsTo T rs size) x

variable {T} {rs ss : List DataTypeRef} {s t : Option Nat} {x y : Enc}

/-- Types whose ids take equally many bytes need no correction. -/
theorem DataTypes.idsSize_eq (h : ∀ r ∈ rs, T.HeaderFits r) :
    T.encodingIdsSize rs = T.typeIdsSize rs := by
  unfold DataTypes.encodingIdsSize DataTypes.typeIdsSize
  rw [List.map_congr_left h]

/-- Where every header is counted as it is written, the calculated size is right. -/
theorem CountsTo.eq_of_fits {n c : Nat} (h : CountsTo T rs s n) (hs : s = some c)
    (hfits : ∀ r ∈ rs, T.HeaderFits r) : c = n := by
  have hn := h c hs
  rw [DataTypes.idsSize_eq hfits] at hn
  exact Nat.add_right_cancel hn

namespace CountsTo

theorem of_eq {n : Nat} (h : s = some n) : CountsTo T [] s n := by
  rintro c hc
  cases h.symm.trans hc
  rfl

/-- Sizes add up, and so do the headers in them. -/
theorem sum {a b : Nat} (hs : CountsTo T rs s a) (ht : CountsTo T ss t b) :
    CountsTo T (rs ++ ss) (sumSizes [s, t]) (a + b) := by
  intro e he
  obtain ⟨c, d, rfl, rfl, rfl⟩ := sumSizes_eq_some he
  have hc := hs c rfl
  have hd := ht d rfl
  simp only [DataTypes.encodingIdsSize, DataTypes.typeIdsSize, List.map_append,
    List.sum_append] at hc hd ⊢
  omega

/-- The order in which the types are listed is of no account. -/
theorem mono {n : Nat} (h : CountsTo T rs s n)
    (hrs : ∀ f : DataTypeRef → Nat, (rs.map f).sum = (ss.map f).sum)
    (hst : ∀ c, t = some c → s = some c) : CountsTo T ss t n := by
  intro c ht
  have hc := h c (hst c ht)
  unfold DataTypes.encodingIdsSize DataTypes.typeIdsSize at hc ⊢
  rw [← hrs, ← hrs]
  exact hc

end CountsTo

namespace Counted

/-- A value with a plan and no header. -/
theorem of_plans {head : Bytes} {p : Plan} (h : Plans head p x)
    (hs : s = some (head.length + p.bytes.length)) : Counted T [] s x := by
  refine .of_ok h.commits (.of_eq ?_)
  rw [hs, List.length_append]

/-- The same headers in another order. -/
theorem mono (h : Counted T rs s x)
    (hrs : ∀ f : DataTypeRef → Nat, (rs.map f).sum = (ss.map f).sum)
    (hst : ∀ n, t = some n → s = some n) : Counted T ss t x :=
  h.imp fun _ hn => hn.mono hrs hst

/-- The exchange of the buffer does not change what is counted. -/
theorem exchange (h : Counted T rs s x) : Counted T rs s (encodeWithExchangeBuffer x) :=
  h.goBack

/-- In a row. -/
theorem bind (hx : Counted T rs s x) (hy : Counted T ss t y) :
    Counted T (rs ++ ss) (sumSizes [s, t]) (x >>= fun _ => y) :=
  Measured.bind hx hy fun _ _ => .sum

/-- In the accumulating style. -/
theorem accum (hx : Counted T rs s x) (hy : Counted T ss t y) :
    Counted T (rs ++ ss) (sumSizes [s, t]) (Routine.accum x fun _ => y) :=
  Measured.accum hx hy fun _ _ => .sum

theorem pure : Counted T [] (some 0) (Pure.pure () : Enc) := Measured.pure (.of_eq rfl)

/-- `if(c) x();` -/
theorem encodeIf {c : Bool} (h : c = true → Counted T rs s x) :
    Counted T (if c then rs else []) (if c then s else some 0) (encodeIf c x) := by
  cases c with
  | true => exact h rfl
  | false => exact pure

end Counted

/-- Fixed bytes. -/
theorem counted_fixed (bs : Bytes) {n : Nat} (h : bs.length = n) :
    Counted T [] (some n) (fixedEncodeBinary bs) :=
  .of_plans (plans_fixed bs) (by simp [h])

theorem counted_byte (v : UInt8) : Counted T [] (some 1) (byteEncodeBinary v) :=
  counted_fixed _ rfl

theorem counted_uint16 (v : UInt16) : Counted T [] (some 2) (uint16EncodeBinary v) :=
  counted_fixed _ (leBytes_length 2 _)

theorem counted_uint32 (v : UInt32) : Counted T [] (some 4) (uint32EncodeBinary v) :=
  counted_fixed _ (leBytes_length 4 _)

theorem counted_uint64 (v : UInt64) : Counted T [] (some 8) (uint64EncodeBinary v) :=
  counted_fixed _ (leBytes_length 8 _)

/-- The check of the depth writes nothing. -/
theorem counted_checkDepth (depth : Nat) : Counted T [] (some 0) (checkDepth depth) :=
  .ite (fun _ => .fail _) fun _ => Counted.pure

/-! ## Arrays -/

/-- Elements in memory take their size each. -/
theorem arrayMemory_length {α : Type} {memSize : Nat} {memory : α → Option Bytes} {xs : List α}
    {bytes : Bytes} (h : arrayMemory memSize memory xs = some bytes) :
    bytes.length = memSize * xs.length := by
  induction xs generalizing bytes with
  | nil =>
    cases h
    rfl
  | cons x xs ih =>
    simp only [arrayMemory, Option.bind_eq_bind, Option.bind_eq_some_iff] at h
    obtain ⟨b, -, rest, hrest, h⟩ := h
    split at h
    · next hlen =>
      cases h
      rw [List.length_append, hlen, ih hrest, List.length_cons]
      exact (Nat.mul_succ memSize xs.length ▸ Nat.add_comm _ _)
    · cases h

/-- An array takes four bytes for its length, and then what its elements take. -/
theorem counted_array {type : DataType} (length : Option Nat) {memory : Option Bytes}
    (hmemory : ∀ bytes, memory = some bytes →
      bytes.length = type.memSize * length.getD 0 ∧ rs = [])
    (hnil : length.getD 0 = 0 → s = some 0 ∧ rs = []) (hx : Counted T rs s x) :
    Counted T rs (arrayCalcSizeBinary type (length.getD 0) s)
      (arrayEncodeBinary type length memory x) := by
  unfold arrayEncodeBinary
  refine .ite (fun _ => .fail _) fun _ => ?_
  -- the calculation multiplies where the encoder copies
  have hcontent : Counted T rs
      (if type.overlayable then some (type.memSize * length.getD 0) else s)
      (if length.getD 0 = 0 then pure ()
        else if type.overlayable then arrayEncodeBinaryOverlayable memory else x) := by
    refine .ite (fun h0 => .pure ?_) fun _ => .ite (fun hover => ?_) fun hover => ?_
    · obtain ⟨rfl, rfl⟩ := hnil h0
      rw [h0, Nat.mul_zero, ite_self]
      exact .of_eq rfl
    · rw [if_pos hover]
      unfold arrayEncodeBinaryOverlayable
      cases hm : memory with
      | none => exact .fault
      | some bytes =>
        obtain ⟨hlen, rfl⟩ := hmemory bytes hm
        refine Counted.of_plans (emits_fill hard_badEncodingError) ?_
        rw [List.length_nil, Nat.zero_add, Plan.bytes_chunk, hlen]
    · rw [if_neg hover]
      exact hx
  refine ((counted_uint32 _).exchange.bind hcontent).mono (fun _ => rfl) fun n hn => ?_
  unfold arrayCalcSizeBinary at hn
  by_cases hover : type.overlayable = true
  · simpa [hover] using hn
  · simpa [hover, sumSizes] using hn

/-! ## Objects without a table of their own -/

/-- The dimensions of an array. -/
theorem counted_dimensions (hT : StandardTypes T) (dimensions : List UInt32) :
    Counted T [] (dimensionsCalcSizeBinary T dimensions) (dimensionsEncodeBinary T dimensions) := by
  refine .of_plans (plans_dimensions hT dimensions) ?_
  rw [dimensionsCalcSizeBinary_eq hT, dimensionsPlan_bytes, List.length_nil, Nat.zero_add]

/-- A string. -/
theorem counted_string (hT : StandardTypes T) (src : UAString) :
    Counted T [] (some (stringCalcSizeBinary src)) (stringEncodeBinary T src) := by
  refine .of_plans (plans_string hT src) ?_
  rw [stringPlan_bytes, stringBytes_length, List.length_nil, Nat.zero_add]

/-- A NodeId, in any of its forms. -/
theorem counted_nodeId (hT : StandardTypes T) (src : NodeId) :
    Counted T [] (some (nodeIdCalcSizeBinary src)) (nodeIdEncodeBinary T src) :=
  .of_plans (plans_nodeId hT src 0) (congrArg some (nodeIdCalcSizeBinary_eq src 0))

/-- A member that is written if it is there. -/
theorem counted_encodeSome {α : Type} {f : α → Enc} {n : Nat} (o : Option α)
    (hf : ∀ a, Counted T [] (some n) (f a)) :
    Counted T [] (some (sizeIf o.isSome n)) (encodeSome o f) := by
  cases o with
  | some a => exact hf a
  | none => exact .pure

theorem counted_additionalInfo (hT : StandardTypes T) (additionalInfo : Option UAString) :
    Counted T [] (some (match additionalInfo with
      | some s => stringCalcSizeBinary s
      | none => 0)) (encodeSome additionalInfo (stringEncodeBinary T)) := by
  cases additionalInfo with
  | some s => exact counted_string hT s
  | none => exact .pure

/-- The next DiagnosticInfo of the chain, given that it is counted. -/
theorem counted_innerDiagnosticInfo {inner : Option DiagnosticInfo} :
    (∀ d ∈ inner, Counted T [] (some (diagnosticInfoCalcSizeBinary d))
      (diagnosticInfoEncodeBinary T d)) →
    Counted T [] (some (match inner with
      | some d => diagnosticInfoCalcSizeBinary d
      | none => 0)) (match inner with
        | some d => encodeWithExchangeBuffer (diagnosticInfoEncodeBinary T d)
        | none => pure ()) := by
  intro h
  cases inner with
  | some d => exact (h d rfl).exchange
  | none => exact .pure

/-- A DiagnosticInfo, given the one inside it. -/
theorem counted_diagnosticInfo_mk (hT : StandardTypes T)
    (symbolicId namespaceUri localizedText locale : Option UInt32)
    (additionalInfo : Option UAString)
    (innerStatusCode : Option StatusCode) {inner : Option DiagnosticInfo}
    (h : ∀ d ∈ inner, Counted T [] (some (diagnosticInfoCalcSizeBinary d))
      (diagnosticInfoEncodeBinary T d)) :
    Counted T [] (some (diagnosticInfoCalcSizeBinary (.mk symbolicId namespaceUri localizedText
        locale additionalInfo innerStatusCode inner)))
      (diagnosticInfoEncodeBinary T (.mk symbolicId namespaceUri localizedText locale
        additionalInfo innerStatusCode inner)) := by
  unfold diagnosticInfoEncodeBinary diagnosticInfoCalcSizeBinary
  refine (((counted_byte _).accum ((counted_encodeSome symbolicId counted_uint32).accum
    ((counted_encodeSome namespaceUri counted_uint32).accum
      ((counted_encodeSome localizedText counted_uint32).accum
        (counted_encodeSome locale counted_uint32))))).bind
    ((counted_additionalInfo hT additionalInfo).bind ((counted_encodeSome innerStatusCode fun v =>
      (counted_uint32 v).exchange).bind (counted_innerDiagnosticInfo h)))).mono
        (fun _ => rfl) fun n hn => ?_
  cases additionalInfo <;> cases inner <;>
    simp only [sumSizes_cons, sumSizes_nil, Option.map_some, Option.some.injEq] at hn ⊢ <;>
    omega

/-- The chain of DiagnosticInfos, by induction on it. -/
theorem counted_diagnosticInfo (hT : StandardTypes T) : ∀ d : DiagnosticInfo,
    Counted T [] (some (diagnosticInfoCalcSizeBinary d)) (diagnosticInfoEncodeBinary T d)
  | .mk _ _ _ _ _ _ none =>
    counted_diagnosticInfo_mk hT _ _ _ _ _ _ fun _ h => absurd h (Option.not_mem_none _)
  | .mk _ _ _ _ _ _ (some inner) =>
    counted_diagnosticInfo_mk hT _ _ _ _ _ _ fun _ h =>
      Option.mem_some.mp h ▸ counted_diagnosticInfo hT inner

/-- Type id, encoding byte and length. -/
theorem counted_extensionObjectHeader (hT : StandardTypes T) (type : DataTypeRef)
    (size : Option Nat) :
    Counted T [type] (some (nodeIdCalcSizeBinary (T.get type).typeId + 1 + 4))
      (extensionObjectHeaderEncodeBinary T type size) := by
  unfold extensionObjectHeaderEncodeBinary
  split
  · next len _ =>
    have hrest : Counted T [] (some 5) (accumGuard (byteEncodeBinary 1)
        (if len > int32Max then fail badEncodingError else pure ()) fun _ =>
          uint32EncodeBinary (UInt32.ofNat len)) := by
      by_cases hlen : len > int32Max
      · rw [if_pos hlen]
        exact .accumGuard_fail (counted_byte (T := T) 1).keeping _ _
      · rw [if_neg hlen]
        exact (counted_byte 1).accum (counted_uint32 _)
    refine ((counted_nodeId hT (T.encodingId type)).bind hrest).imp fun n hn => ?_
    have hn : nodeIdCalcSizeBinary (T.encodingId type) + 5 = n :=
      hn.eq_of_fits rfl fun _ hr => absurd hr List.not_mem_nil
    rintro c ⟨⟩
    simp only [DataTypes.encodingIdsSize, DataTypes.typeIdsSize, List.map_cons, List.map_nil,
      List.sum_cons, List.sum_nil]
    omega
  · exact .fault
  · exact .fail _

/-! ## Objects of every kind -/

/-- An object of a leaf kind. -/
theorem counted_leaf (hT : StandardTypes T) {kind : DataTypeKind} {v : Value}
    (hv : v.isOfKind kind = true) (depth : Nat) (type : DataTypeRef) :
    Counted T [] (calcSizeBinaryJumpTable T kind type v)
      (encodeBinaryJumpTable T depth kind type v) := by
  refine .of_plans (plans_value hT hv depth type) ?_
  rw [calcSizeBinaryJumpTable_eq (T := T) hv type, Value.plan, Plan.bytes_seq, Plan.bytes_chunk,
    List.length_append]

/-- Is there an encoder for the object as one of kind `kind`? -/
def Value.suits (kind : DataTypeKind) (v : Value) : Bool :=
  match kind, v with
  | .extensionObject, .extensionObject _ | .dataValue, .dataValue _ | .variant, .variant _
  | .diagnosticInfo, .diagnosticInfo _ | .struct, .struct _ | .bitfieldCluster, .struct _
  | .optStruct, .optStruct _ | .union, .union _ _ | .enum, .uint32 _ => true
  | _, _ => v.isOfKind kind

/-- The jump table refuses every other object. -/
theorem counted_unsuited {kind : DataTypeKind} {v : Value} (hv : v.suits kind = false)
    (depth : Nat) (type : DataTypeRef) :
    Counted T rs s (encodeBinaryJumpTable T depth kind type v) := by
  have h : encodeBinaryJumpTable T depth kind type v = fault ∨
      encodeBinaryJumpTable T depth kind type v = fail badNotImplemented := by
    unfold encodeBinaryJumpTable
    split <;> first | exact .inl rfl | exact .inr rfl | cases hv
  rcases h with h | h
  · rw [h]
    exact .fault
  · rw [h]
    exact .fail _

/-- The objects that hold no others. -/
def Value.isFlat : Value → Bool
  | .extensionObject _ | .dataValue _ | .variant _ | .diagnosticInfo _ | .struct _ | .optStruct _
  | .union _ _ => false
  | _ => true

/-- An object without parts that are objects themselves. -/
theorem counted_flat (hT : StandardTypes T) (depth : Nat) (kind : DataTypeKind)
    (type : DataTypeRef) {v : Value} (hv : v.isFlat = true) :
    Counted T (v.wrappedTypes T) (calcSizeBinaryJumpTable T kind type v)
      (encodeBinaryJumpTable T depth kind type v) := by
  by_cases hleaf : v.isOfKind kind = true
  · have hrs : v.wrappedTypes T = [] := by
      cases v <;> first
        | rfl
        | exact absurd hv Bool.false_ne_true
        | (cases kind <;> exact absurd hleaf Bool.false_ne_true)
    rw [hrs]
    exact counted_leaf hT hleaf depth type
  by_cases henum : ∃ n, kind = .enum ∧ v = .uint32 n
  · obtain ⟨n, rfl, rfl⟩ := henum
    exact counted_uint32 n
  · refine counted_unsuited ?_ depth type
    unfold Value.suits
    split <;> first
      | exact absurd ⟨_, rfl, rfl⟩ henum
      | exact Bool.eq_false_iff.mpr hleaf
      | cases hv

/-- The elements of an overlayable array take what the calculation counts without looking at
them. -/
theorem elementsCalcSizeBinary_overlayable (hW : WireTypes T) {type : DataTypeRef}
    (hover : (T.get type).overlayable = true) {xs : List Value} {n : Nat}
    (h : elementsCalcSizeBinary T (T.get type).typeKind type xs = some n) :
    n = (T.get type).memSize * xs.length := by
  induction xs generalizing n with
  | nil =>
    cases h
    rfl
  | cons x xs ih =>
    simp only [elementsCalcSizeBinary] at h
    cases hx : calcSizeBinaryJumpTable T (T.get type).typeKind type x with
    | none => simp [hx, sumSizes] at h
    | some a =>
      cases hxs : elementsCalcSizeBinary T (T.get type).typeKind type xs with
      | none => simp [hx, hxs, sumSizes] at h
      | some b =>
        have hn : a + b = n := by simpa [hx, hxs, sumSizes] using h
        rw [← hn, hW.wireSize type x a hover hx, ih hxs, List.length_cons, Nat.mul_succ,
          Nat.add_comm]

/-- An object that is copied from memory holds no others. -/
theorem listWrappedTypes_of_memory {memSize : Nat} {xs : List Value} {bytes : Bytes}
    (h : arrayMemory memSize Value.memory xs = some bytes) : listWrappedTypes T xs = [] := by
  induction xs generalizing bytes with
  | nil => rfl
  | cons x xs ih =>
    simp only [arrayMemory, Option.bind_eq_bind, Option.bind_eq_some_iff] at h
    obtain ⟨b, hx, rest, hrest, -⟩ := h
    rw [listWrappedTypes, ih hrest, List.append_nil]
    cases x <;> first | rfl | cases hx

/-- A value that is not there has no headers. -/
theorem wrappedTypes_of_isNull {v : Value} (h : v.isNull = true) : v.wrappedTypes T = [] := by
  cases v <;> first | rfl | cases h

/-- An object with type id, encoding byte and length in front. The length is the calculated
one, so the calculation has come to its end. -/
theorem measured_wrapped (hT : StandardTypes T) (type : DataTypeRef) (hx : Counted T rs s x) :
    Measured (fun n => s.isSome = true ∧ CountsTo T (type :: rs)
        (sumSizes [some (nodeIdCalcSizeBinary (T.get type).typeId + 1 + 4), s]) n)
      (extensionObjectHeaderEncodeBinary T type s >>= fun _ => encodeWithExchangeBuffer x) := by
  have hcounted := (counted_extensionObjectHeader hT type s).bind hx.exchange
  cases s with
  | some c => exact hcounted.imp fun _ hn => ⟨rfl, hn⟩
  | none =>
    have hheader : Measured (fun _ => False) (extensionObjectHeaderEncodeBinary T type none) := by
      unfold extensionObjectHeaderEncodeBinary
      cases (T.get type).typeId.identifier with
      | numeric id => exact .fault
      | string s | guid g | byteString s => exact .fail _
    exact hheader.bind hx.exchange nofun

/-- A structure behind its header, which is counted from the type id and not from the id that is
written. -/
theorem counted_wrapped (hT : StandardTypes T) (type : DataTypeRef) (hx : Counted T rs s x) :
    Counted T (type :: rs) (sumSizes [some (nodeIdCalcSizeBinary (T.get type).typeId + 1 + 4), s])
      (extensionObjectHeaderEncodeBinary T type s >>= fun _ => encodeWithExchangeBuffer x) :=
  (measured_wrapped hT type hx).imp fun _ h => h.2

/-- The mask in front of optional members. -/
theorem counted_optEncodingMask (owner : DataTypeRef) (members : List DataTypeMember)
    (xs : List Value) : Counted T [] (some 4) (optEncodingMaskEncodeBinary T owner members xs) := by
  unfold optEncodingMaskEncodeBinary
  cases optEncodingMask T owner members xs 0 0 with
  | some mask => exact counted_uint32 mask
  | none => exact .fault

/-- `if(src->has…) x();`, for a member of fixed size. -/
theorem Counted.encodeSized {c : Bool} {n : Nat} (h : Counted T [] (some n) x) :
    Counted T [] (some (sizeIf c n)) (OpenPubSub.encodeIf c x) := by
  cases c with
  | true => exact h
  | false => exact .pure

mutual

/-- **An object of any kind is counted as it is written, up to the headers of its structures.** -/
theorem counted_jumpTable (hW : WireTypes T) (depth : Nat) {kind : DataTypeKind}
    (hkind : kind ≠ .bitfieldCluster) (type : DataTypeRef) (v : Value) :
    Counted T (v.wrappedTypes T) (calcSizeBinaryJumpTable T kind type v)
      (encodeBinaryJumpTable T depth kind type v) := by
  cases hv : v.suits kind with
  | false => exact counted_unsuited hv depth type
  | true =>
    -- the data pointer has the shape the kind asks for, one case for each of them
    match v with
    | .extensionObject e =>
      cases kind <;> first
        | exact absurd hv Bool.false_ne_true
        | exact counted_extensionObject hW depth e
    | .dataValue d =>
      cases kind <;> first
        | exact absurd hv Bool.false_ne_true
        | exact counted_dataValue hW depth d
    | .variant v =>
      cases kind <;> first
        | exact absurd hv Bool.false_ne_true
        | exact counted_variant hW depth v
    | .diagnosticInfo d =>
      cases kind <;> first
        | exact absurd hv Bool.false_ne_true
        | exact counted_diagnosticInfo hW.toStandardTypes d
    | .struct members =>
      have hstruct := (counted_checkDepth depth).bind
        (counted_struct hW (depth + 1) type (T.get type).members members)
      cases kind <;> first
        | exact absurd hv Bool.false_ne_true
        | exact absurd rfl hkind
        | exact hstruct.mono (fun _ => rfl) (by simp [sumSizes, calcSizeBinaryJumpTable])
    | .optStruct members =>
      have hstruct := (counted_checkDepth depth).bind
        ((counted_optEncodingMask type (T.get type).members members).bind
          (counted_optStruct hW (depth + 1) type (T.get type).members members))
      cases kind <;> first
        | exact absurd hv Bool.false_ne_true
        | exact hstruct.mono (fun _ => rfl) (by simp [sumSizes, calcSizeBinaryJumpTable])
    | .union selection member =>
      have hmember : Counted T (if selection.toNat = 0 then [] else member.wrappedTypes T)
          (match selection.toNat with
            | 0 => some 0
            | i + 1 => match (T.get type).members[i]? with
              | none => none
              | some m => calcSizeBinaryJumpTable T (T.get (DataTypes.memberType type m)).typeKind
                (DataTypes.memberType type m) member)
          (match selection.toNat with
            | 0 => pure ()
            | i + 1 => match (T.get type).members[i]? with
              | none => fault
              | some m => encodeWithExchangeBuffer <|
                encodeBinaryJumpTable T (depth + 1) (T.get (DataTypes.memberType type m)).typeKind
                  (DataTypes.memberType type m) member) := by
        cases selection.toNat with
        -- without a selection there is no member to encode
        | zero => exact .pure
        | succ i =>
          dsimp only
          rw [if_neg (Nat.succ_ne_zero i)]
          cases (T.get type).members[i]? with
          | none => exact .fault
          | some m =>
            exact (counted_jumpTable hW (depth + 1) (hW.noCluster (DataTypes.memberType type m))
              (DataTypes.memberType type m) member).exchange
      have hunion := (counted_checkDepth depth).bind ((counted_uint32 selection).bind hmember)
      have hmem : (T.get (DataTypes.builtin .uint32)).memSize = 4 := hW.memSize .uint32 rfl
      cases kind <;> first
        | exact absurd hv Bool.false_ne_true
        | refine hunion.mono (fun _ => rfl) fun n hn => ?_
          simp only [calcSizeBinaryJumpTable, hmem] at hn
          cases hsel : selection.toNat with
          | zero => simpa [hsel, sumSizes] using hn
          | succ i =>
            cases hm : (T.get type).members[i]? with
            | none => simp [hsel, hm] at hn
            | some m => simpa [hsel, hm, sumSizes] using hn
    | .null | .byte _ | .uint16 _ | .uint32 _ | .uint64 _ | .string _ | .guid _ | .nodeId _
    | .expandedNodeId _ | .qualifiedName _ | .localizedText _ | .raw _ | .array _ =>
      exact counted_flat hW.toStandardTypes depth kind type rfl
  termination_by structural v

/-- A Variant. -/
theorem counted_variant (hW : WireTypes T) (depth : Nat) (v : VariantOf Value) :
    Counted T (variantWrappedTypes T v) (variantCalcSizeBinary T v)
      (variantEncodeBinary T depth v) := by
  match v with
  | ⟨none, _, _⟩ => exact counted_byte 0
  | ⟨some type, data, dimensions⟩ =>
    have hdimensions := Counted.encodeIf
      (c := data.isArray && decide ((dimensions.getD []).length > 0)) fun _ =>
        counted_dimensions hW.toStandardTypes (dimensions.getD [])
    have hvalues := counted_values hW depth type data
    have harray := counted_wrappedArray hW depth type data
    have hscalar := counted_jumpTable hW depth (hW.noCluster type) type data
    have hwrapped := counted_wrapped hW.toStandardTypes type hscalar
    rw [ite_self] at hdimensions
    simp only [variantEncodeBinary, variantCalcSizeBinary, variantWrappedTypes]
    generalize (if data.isArray && decide ((dimensions.getD []).length > 0) then
      dimensionsCalcSizeBinary T (dimensions.getD []) else some 0) = dims at hdimensions ⊢
    generalize encodeIf (data.isArray && decide ((dimensions.getD []).length > 0))
      (dimensionsEncodeBinary T (dimensions.getD [])) = encodeDimensions at hdimensions ⊢
    -- scalar or array, in an ExtensionObject or not
    cases data.isArray <;> cases (T.get type).typeKind.isUnwrapped
    · refine ((counted_byte _).bind (hwrapped.exchange.bind hdimensions)).mono ?_ ?_
      · simp
      · cases calcSizeBinaryJumpTable T (T.get type).typeKind type data <;> cases dims <;>
          simp [sumSizes]
        omega
    · refine ((counted_byte _).bind (hscalar.exchange.bind hdimensions)).mono ?_ ?_
      · simp
      · cases calcSizeBinaryJumpTable T (T.get type).typeKind type data <;> cases dims <;>
          simp [sumSizes]
    · refine ((counted_byte _).bind (harray.bind hdimensions)).mono ?_ ?_
      · simp
      · cases valuesCalcSizeBinary T type data <;> cases dims <;> simp [sumSizes]
        omega
    · refine ((counted_byte _).bind (hvalues.bind hdimensions)).mono ?_ ?_
      · simp
      · cases valuesCalcSizeBinary T type data <;> cases dims <;> simp [sumSizes]
  termination_by structural v

/-- A DataValue. -/
theorem counted_dataValue (hW : WireTypes T) (depth : Nat) (d : DataValueOf Value) :
    Counted T (dataValueWrappedTypes T d) (dataValueCalcSizeBinary T d)
      (dataValueEncodeBinary T depth d) := by
  match d with
  | ⟨hasValue, hasStatus, hasSourceTimestamp, hasServerTimestamp, hasSourcePicoseconds,
      hasServerPicoseconds, value, status, sourceTimestamp, sourcePicoseconds, serverTimestamp,
      serverPicoseconds⟩ =>
    have hvalue := Counted.encodeIf (c := hasValue) fun _ => counted_variant hW depth value
    have hstatus := (counted_uint32 (T := T) status).exchange.encodeSized (c := hasStatus)
    have hsource := (counted_uint64 (T := T) sourceTimestamp).exchange.encodeSized
      (c := hasSourceTimestamp)
    have hsourcePico := (counted_uint16 (T := T) sourcePicoseconds).exchange.encodeSized
      (c := hasSourcePicoseconds)
    have hserver := (counted_uint64 (T := T) serverTimestamp).exchange.encodeSized
      (c := hasServerTimestamp)
    have hserverPico := (counted_uint16 (T := T) serverPicoseconds).exchange.encodeSized
      (c := hasServerPicoseconds)
    simp only [dataValueEncodeBinary, dataValueCalcSizeBinary, dataValueWrappedTypes]
    refine ((counted_byte _).bind (hvalue.bind (hstatus.accum (hsource.accum (hsourcePico.accum
      (hserver.accum hserverPico)))))).mono ?_ ?_
    · simp
    · cases hasValue <;> cases variantCalcSizeBinary T value <;> simp [sumSizes]
  termination_by structural d

/-- An ExtensionObject. -/
theorem counted_extensionObject (hW : WireTypes T) (depth : Nat) (e : ExtensionObjectOf Value) :
    Counted T (extensionObjectWrappedTypes T e) (extensionObjectCalcSizeBinary T e)
      (extensionObjectEncodeBinary T depth e) := by
  match e with
  | .encoded typeId .noBody =>
    exact ((counted_nodeId hW.toStandardTypes typeId).bind (counted_byte 0).exchange).mono
      (fun _ => rfl) (by simp [extensionObjectCalcSizeBinary, Nat.add_comm])
  | .encoded typeId (.byteString body) =>
    exact ((counted_nodeId hW.toStandardTypes typeId).bind ((counted_byte 1).exchange.bind
      (counted_string hW.toStandardTypes body))).mono
      (fun _ => rfl) (by simp [extensionObjectCalcSizeBinary]; omega)
  | .encoded typeId (.xml body) =>
    exact ((counted_nodeId hW.toStandardTypes typeId).bind ((counted_byte 2).exchange.bind
      (counted_string hW.toStandardTypes body))).mono
      (fun _ => rfl) (by simp [extensionObjectCalcSizeBinary]; omega)
  | .decoded type data =>
    have hdata := counted_wrapped hW.toStandardTypes type
      (counted_jumpTable hW depth (hW.noCluster type) type data)
    simp only [extensionObjectEncodeBinary, extensionObjectCalcSizeBinary,
      extensionObjectWrappedTypes]
    refine .ite (fun _ => .fail _) fun hnull => ?_
    rw [Bool.eq_false_iff.mpr hnull]
    cases hid : (T.get type).typeId.identifier with
    | numeric id =>
      -- the calculation adds the same parts in another order
      refine hdata.mono (fun _ => rfl) ?_
      cases calcSizeBinaryJumpTable T (T.get type).typeKind type data <;> simp [sumSizes]
      omega
    | string s | guid g | byteString s =>
      unfold extensionObjectHeaderEncodeBinary
      rw [hid]
      exact Measured.bind (P := fun _ => False) (.fail _)
        (counted_jumpTable hW depth (hW.noCluster type) type data).exchange nofun
  termination_by structural e

/-- An array of structures in a Variant, with one header for each. -/
theorem counted_wrappedArray (hW : WireTypes T) (depth : Nat) (type : DataTypeRef) (v : Value) :
    Counted T (List.replicate v.arrayLength type ++ v.wrappedTypes T)
      (sumSizes [valuesCalcSizeBinary T type v,
        some ((nodeIdCalcSizeBinary (T.get type).typeId + 1 + 4) * v.arrayLength)])
      (variantEncodeBinaryWrapExtensionObject T depth type v) := by
  match v with
  | .null =>
    refine (counted_uint32 0).mono (fun _ => rfl) ?_
    simp [valuesCalcSizeBinary, arrayCalcSizeBinary, Value.arrayLength, sumSizes]
  | .array xs =>
    simp only [variantEncodeBinaryWrapExtensionObject, valuesCalcSizeBinary, Value.arrayLength]
    refine .ite (fun _ => .fail _) fun _ => ?_
    refine Measured.bind (counted_uint32 (T := T) (UInt32.ofNat xs.length))
      (measured_wrappedElements hW depth type xs) fun a b ha hb => ?_
    obtain ⟨n, hn⟩ := Option.isSome_iff_exists.mp hb.1
    refine (ha.sum hb.2).mono (fun _ => rfl) ?_
    unfold arrayCalcSizeBinary
    rw [hn]
    by_cases hover : (T.get type).overlayable = true
    · -- the calculation has not looked at the elements
      rw [elementsCalcSizeBinary_overlayable hW hover hn, if_pos hover]
      simp [sumSizes, Nat.add_assoc]
    · rw [if_neg hover]
      simp [sumSizes, Nat.add_assoc]
  | .byte _ | .uint16 _ | .uint32 _ | .uint64 _ | .string _ | .guid _ | .nodeId _
  | .expandedNodeId _ | .qualifiedName _ | .localizedText _ | .raw _ | .extensionObject _
  | .dataValue _ | .variant _ | .diagnosticInfo _ | .struct _ | .optStruct _ | .union _ _ =>
    exact .fault
  termination_by structural v

/-- Every element of the array has a length of its own in front, so all of them are counted. -/
theorem measured_wrappedElements (hW : WireTypes T) (depth : Nat) (type : DataTypeRef)
    (xs : List Value) :
    Measured (fun n => (elementsCalcSizeBinary T (T.get type).typeKind type xs).isSome = true ∧
      CountsTo T (List.replicate xs.length type ++ listWrappedTypes T xs)
        (sumSizes [elementsCalcSizeBinary T (T.get type).typeKind type xs,
          some ((nodeIdCalcSizeBinary (T.get type).typeId + 1 + 4) * xs.length)]) n)
      (wrappedElementsEncodeBinary T depth type xs) := by
  match xs with
  | [] => exact .pure ⟨rfl, (CountsTo.of_eq rfl).mono (fun _ => rfl) fun _ h => h⟩
  | x :: xs =>
    have hx := measured_wrapped hW.toStandardTypes type
      (counted_jumpTable hW depth (hW.noCluster type) type x)
    refine Measured.bind hx.goBack (measured_wrappedElements hW depth type xs) fun a b ha hb => ?_
    obtain ⟨c, hc⟩ := Option.isSome_iff_exists.mp ha.1
    obtain ⟨d, hd⟩ := Option.isSome_iff_exists.mp hb.1
    refine ⟨?_, (ha.2.sum hb.2).mono ?_ ?_⟩
    · simp [elementsCalcSizeBinary, hc, hd]
    · intro f
      simp only [listWrappedTypes, List.length_cons, List.replicate_succ, List.map_append,
        List.map_cons, List.sum_append, List.sum_cons]
      omega
    · simp only [elementsCalcSizeBinary, List.length_cons, hc, hd]
      simp [sumSizes, Nat.mul_succ]
      omega
  termination_by structural xs

/-- An array. -/
theorem counted_values (hW : WireTypes T) (depth : Nat) (type : DataTypeRef) (v : Value) :
    Counted T (v.wrappedTypes T) (valuesCalcSizeBinary T type v)
      (valuesEncodeBinary T depth type v) := by
  match v with
  | .null =>
    exact counted_array none nofun (fun _ => ⟨rfl, rfl⟩) .pure
  | .array xs =>
    refine counted_array (some xs.length) (fun bytes h =>
      ⟨arrayMemory_length h, listWrappedTypes_of_memory h⟩) ?_
      (counted_elements hW depth (hW.noCluster type) type xs)
    intro hnil
    rw [List.length_eq_zero_iff.mp hnil]
    exact ⟨rfl, rfl⟩
  | .byte _ | .uint16 _ | .uint32 _ | .uint64 _ | .string _ | .guid _ | .nodeId _
  | .expandedNodeId _ | .qualifiedName _ | .localizedText _ | .raw _ | .extensionObject _
  | .dataValue _ | .variant _ | .diagnosticInfo _ | .struct _ | .optStruct _ | .union _ _ =>
    exact .fault
  termination_by structural v

/-- The elements of an array. -/
theorem counted_elements (hW : WireTypes T) (depth : Nat) {kind : DataTypeKind}
    (hkind : kind ≠ .bitfieldCluster) (type : DataTypeRef) (xs : List Value) :
    Counted T (listWrappedTypes T xs) (elementsCalcSizeBinary T kind type xs)
      (elementsEncodeBinary T depth kind type xs) := by
  match xs with
  | [] => exact .pure
  | x :: xs =>
    exact (counted_jumpTable hW depth hkind type x).exchange.bind
      (counted_elements hW depth hkind type xs)
  termination_by structural xs

/-- The members of a structure. -/
theorem counted_struct (hW : WireTypes T) (depth : Nat) (owner : DataTypeRef)
    (members : List DataTypeMember) (xs : List Value) :
    Counted T (listWrappedTypes T xs) (calcSizeBinaryStructure T owner members xs)
      (encodeBinaryStruct T depth owner members xs) := by
  match xs, members with
  | [], [] => exact .pure
  | [], _ :: _ => exact .fault
  | _ :: _, [] => exact .fault
  | x :: xs, m :: members =>
    have hvalues := counted_values hW depth (DataTypes.memberType owner m) x
    have hscalar := (counted_jumpTable hW depth (hW.noCluster (DataTypes.memberType owner m))
      (DataTypes.memberType owner m) x).exchange
    have hrest := counted_struct hW depth owner members xs
    simp only [encodeBinaryStruct, calcSizeBinaryStructure, listWrappedTypes]
    cases m.isArray
    · exact hscalar.bind hrest
    · exact hvalues.bind hrest
  termination_by structural xs

/-- The members of a structure that are there. Where the size calculation does not come to its
end there is nothing to show. -/
theorem counted_optStruct (hW : WireTypes T) (depth : Nat) (owner : DataTypeRef)
    (members : List DataTypeMember) (xs : List Value) :
    Counted T (listWrappedTypes T xs) (calcSizeBinaryStructureWithOptFields T owner members xs)
      (encodeBinaryStructWithOptFields T depth owner members xs) := by
  match xs, members with
  | [], [] => exact .pure
  | [], _ :: _ => exact .fault
  | _ :: _, [] => exact .fault
  | x :: xs, m :: members =>
    have hvalues := counted_values hW depth (DataTypes.memberType owner m) x
    have hscalar := (counted_jumpTable hW depth (hW.noCluster (DataTypes.memberType owner m))
      (DataTypes.memberType owner m) x).exchange
    have hpointer := hscalar.mono (fun _ => rfl) fun _ => calcSizeBinaryJumpTable_of_pointer
    have hrest := counted_optStruct hW depth owner members xs
    simp only [encodeBinaryStructWithOptFields, calcSizeBinaryStructureWithOptFields,
      listWrappedTypes]
    -- a member that is not there takes nothing
    cases hskip : m.isOptional && x.isNull
    · cases m.isArray
      · cases m.isOptional
        · exact hscalar.bind hrest
        · exact hpointer.bind hrest
      · exact hvalues.bind hrest
    · have hnull : x.wrappedTypes T = [] := wrappedTypes_of_isNull (Bool.and_eq_true .. ▸ hskip).2
      rw [hnull]
      exact Counted.pure.bind hrest
  termination_by structural xs

end

/-! ## Entry points -/

theorem counted_uaVariant (hW : WireTypes T) (v : Variant) :
    Counted T (variantWrappedTypes T v) (uaVariantCalcSizeBinary T v)
      (uaVariantEncodeBinary T v) :=
  (counted_variant hW 0 v).exchange

theorem counted_uaDataValue (hW : WireTypes T) (d : DataValue) :
    Counted T (dataValueWrappedTypes T d) (uaDataValueCalcSizeBinary T d)
      (uaDataValueEncodeBinary T d) :=
  (counted_dataValue hW 0 d).exchange

/-! ## The built-in types -/

/-- The calculation for a kind that is copied from memory. -/
theorem calcSizeBinaryJumpTable_overlayable {kind : DataTypeKind} (hk : kind.overlayable = true)
    {r : DataTypeRef} {x : Value} {n : Nat} (h : calcSizeBinaryJumpTable T kind r x = some n) :
    n = builtinMemSize kind := by
  cases kind <;> first
    | exact absurd hk Bool.false_ne_true
    | (simp only [calcSizeBinaryJumpTable, Option.some.injEq] at h
       exact h.symm)

/-- The table of the built-in types is one of those that the results are about. -/
theorem wireTypes_builtinTypes : WireTypes builtinTypes where
  toStandardTypes := standardTypes_builtinTypes
  wireSize _ _ _ hover h := calcSizeBinaryJumpTable_overlayable hover h
  noCluster r := by
    show (DataTypeKind.ofBuiltinIndex r.index).getD .boolean ≠ .bitfieldCluster
    cases hk : DataTypeKind.ofBuiltinIndex r.index with
    | none => nofun
    | some k =>
      intro (hcluster : k = _)
      have hbuiltin := (DataTypeKind.index_of_ofBuiltinIndex hk).2
      rw [hcluster] at hbuiltin
      cases hbuiltin

end OpenPubSub
