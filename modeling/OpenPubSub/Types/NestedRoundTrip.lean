import OpenPubSub.Types.DecodeBounds
import OpenPubSub.Types.Nested

/-!
# Decoding nested values

The decoder on the bytes of a nested value. In front of the elements of an array it checks
that the bytes left in the message are enough for the array length. The check estimates the
elements by their size in memory, 48 bytes for a Variant and 80 for a DataValue, and takes
one byte of the message for 32 bytes of memory. An empty Variant or DataValue is a single
byte, so the check refuses long arrays of them at the end of a message.

- `Value.isPlausible` is the check, for all arrays inside an object with so many bytes
  after it.
- `Decides src n after bs ok a x` is the judgement: where `bs` stand with `after` bytes behind
  them, the decoder `x` reads `a` if `ok`, and does not succeed otherwise.
- **`decides_nested`**: by induction on the levels. The nesting counter never stands in the
  way of 100 levels.
-/

namespace OpenPubSub

open Routine Writer

/-! ## The check in front of an array -/

section

variable (T : DataTypes)

mutual

/-- With `after` bytes behind the object, there are enough bytes for each array in it. The
elements of the object itself, if it is an array, take `size` bytes of memory each. -/
def Value.isPlausible (size after : Nat) : Value → Bool
  | .variant v => variantIsPlausible after v
  | .dataValue d => dataValueIsPlausible after d
  | .array xs =>
    decide (size * xs.length / 32 ≤ (elementsWireBytes T xs).length + after) &&
      elementsArePlausible after xs
  | _ => true
  termination_by structural x => x

def variantIsPlausible (after : Nat) : VariantOf Value → Bool
  | ⟨none, _, _⟩ => true
  | ⟨some type, data, dimensions⟩ =>
    data.isPlausible (T.get type).memSize ((wireDimensions data dimensions).length + after)
  termination_by structural v => v

def dataValueIsPlausible (after : Nat) : DataValueOf Value → Bool
  | d@⟨hasValue, _, _, _, _, _, value, _, _, _, _, _⟩ =>
    !hasValue || variantIsPlausible ((dataValueTailBytes d).length + after) value
  termination_by structural d => d

def elementsArePlausible (after : Nat) : List Value → Bool
  | [] => true
  | x :: xs =>
    x.isPlausible 0 ((elementsWireBytes T xs).length + after) && elementsArePlausible after xs
  termination_by structural xs => xs

end

end

variable {src : Bytes} {T : DataTypes} {α β : Type} {n after : Nat} {as bs : Bytes}

/-! ## The judgement -/

/-- Where the bytes `bs` stand with `after` bytes behind them to the end of the message, and
the nesting counter is at most `n`, the decoder reads `a` if `ok`. Otherwise it does not
succeed. -/
def Decides (src : Bytes) (n after : Nat) (bs : Bytes) (ok : Bool) (a : α) (x : Dec α) : Prop :=
  ∀ c : Ctx, At src c.pos bs → c.pos + bs.length + after = src.length → c.depth ≤ n →
    (ok = true → x c = .done a { c with pos := c.pos + bs.length }) ∧
      (ok = false → ∀ b t, x c ≠ .done b t)

namespace Decides

variable {ok ok' : Bool} {a : α} {b : β} {x : Dec α} {f : α → Dec β}

theorem of_reads (h : Reads src n bs a x) : Decides src n after bs true a x :=
  fun c hat _ hdepth => ⟨fun _ => h c hat hdepth, nofun⟩

theorem congr (h : Decides src n after as ok a x) (hbs : as = bs) (hok : ok = ok') :
    Decides src n after bs ok' a x := hbs ▸ hok ▸ h

/-- Two parts. What is read first has the bytes of the second part behind it, too. -/
theorem seq {y : Dec β}
    (hy : ∀ {s u b}, y s = .done b u ↔ ∃ a t, x s = .done a t ∧ f a t = .done b u)
    (hx : Decides src n (bs.length + after) as ok a x) (hf : Decides src n after bs ok' b (f a)) :
    Decides src n after (as ++ bs) (ok && ok') b y := by
  intro c hat hend hdepth
  rw [List.length_append] at hend ⊢
  obtain ⟨has, hbs⟩ := at_append.mp hat
  obtain ⟨hread, hrefuse⟩ := hx c has (by omega) hdepth
  obtain ⟨hread', hrefuse'⟩ :=
    hf { c with pos := c.pos + as.length } hbs (by show _ + _ + _ + _ = _; omega) hdepth
  constructor
  · intro hok
    obtain ⟨hfirst, hsecond⟩ := (Bool.and_eq_true ..).mp hok
    refine hy.mpr ⟨a, _, hread hfirst, ?_⟩
    rw [hread' hsecond, Nat.add_assoc]
  · intro hok b' u hrun
    obtain ⟨a', t, hfirst, hsecond⟩ := hy.mp hrun
    cases ok with
    | false => exact hrefuse rfl a' t hfirst
    | true =>
      rw [hread rfl] at hfirst
      cases hfirst
      exact hrefuse' hok b' u hsecond

theorem bind (hx : Decides src n (bs.length + after) as ok a x)
    (hf : Decides src n after bs ok' b (f a)) :
    Decides src n after (as ++ bs) (ok && ok') b (x >>= f) := seq bind_eq_done hx hf

theorem accum [Inhabited α] (hx : Decides src n (bs.length + after) as ok a x)
    (hf : Decides src n after bs ok' b (f a)) :
    Decides src n after (as ++ bs) (ok && ok') b (Routine.accum x f) := seq accum_eq_done hx hf

theorem map {g : α → β} (hx : Decides src n after bs ok a x) :
    Decides src n after bs ok (g a) (g <$> x) := by
  intro c hat hend hdepth
  obtain ⟨hread, hrefuse⟩ := hx c hat hend hdepth
  refine ⟨fun hok => map_done (hread hok), fun hok b t hrun => ?_⟩
  obtain ⟨a', hx', -⟩ := map_eq_done.mp hrun
  exact hrefuse hok a' t hx'

/-- Under a constructor. -/
theorem of_map {g : α → β} (hg : Function.Injective g)
    (h : Decides src n after bs ok (g a) (g <$> x)) : Decides src n after bs ok a x := by
  intro c hat hend hdepth
  obtain ⟨hread, hrefuse⟩ := h c hat hend hdepth
  constructor
  · intro hok
    obtain ⟨a', hx', hga⟩ := map_eq_done.mp (hread hok)
    rw [hx', hg hga]
  · exact fun hok b t hrun => hrefuse hok (g b) t (map_done hrun)

theorem deeper (hx : Decides src (n + 1) after bs ok a x) :
    Decides src n after bs ok a (OpenPubSub.deeper x) := by
  intro c hat hend hdepth
  obtain ⟨hread, hrefuse⟩ :=
    hx { c with depth := c.depth + 1 } hat hend (Nat.succ_le_succ hdepth)
  constructor
  · intro hok
    simp only [OpenPubSub.deeper, hread hok, Nat.add_sub_cancel]
  · intro hok b t hrun
    obtain ⟨u, hx', -⟩ := deeper_eq_done hrun
    exact hrefuse hok b u hx'

/-- The check itself. -/
theorem need (k : Nat) :
    Decides src n after [] (decide (k ≤ after)) () (OpenPubSub.need src k) := by
  intro c _ hend _
  rw [List.length_nil, Nat.add_zero] at hend
  constructor
  · intro hok
    exact if_pos (by have := of_decide_eq_true hok; omega)
  · intro hok b t hrun
    have hlong := of_decide_eq_false hok
    rw [OpenPubSub.need, if_neg (by omega)] at hrun
    cases hrun

end Decides

/-! ## Leaf objects -/

/-- The first byte of a NodeId holds its form. -/
theorem nodeIdHead_eq_cons (id : NodeId) (e : UInt8) :
    ∃ k ∈ ([0, 1, 2, 3, 4, 5] : List UInt8), ∃ rest, nodeIdHead id e = (e ||| k) :: rest := by
  obtain ⟨ns, identifier⟩ := id
  cases identifier with
  | numeric id =>
    simp only [nodeIdHead]
    split
    · exact ⟨2, by decide, _, rfl⟩
    · split
      · exact ⟨1, by decide, _, rfl⟩
      · exact ⟨0, by decide, _, rfl⟩
  | string s => exact ⟨3, by decide, _, rfl⟩
  | guid g => exact ⟨4, by decide, _, rfl⟩
  | byteString s => exact ⟨5, by decide, _, rfl⟩

/-- The flags of an ExpandedNodeId stand in the same byte. -/
theorem expandedNodeIdMask_fields (id : ExpandedNodeId) :
    KeepsForm (expandedNodeIdMask id) ∧ ∀ k ∈ ([0, 1, 2, 3, 4, 5] : List UInt8),
      ((expandedNodeIdMask id ||| k) &&& expandedNodeIdNamespaceUriFlag != 0) =
          hasBytes id.namespaceUri ∧
        ((expandedNodeIdMask id ||| k) &&& expandedNodeIdServerIndexFlag != 0) =
          decide (id.serverIndex > 0) := by
  have hbits : ∀ a b : Bool,
      let e := (if a then expandedNodeIdNamespaceUriFlag else 0) |||
        (if b then expandedNodeIdServerIndexFlag else 0)
      (nodeIdForm (e ||| 0) = 0 ∧ nodeIdForm (e ||| 1) = 1 ∧ nodeIdForm (e ||| 2) = 2 ∧
        nodeIdForm (e ||| 3) = 3 ∧ nodeIdForm (e ||| 4) = 4 ∧ nodeIdForm (e ||| 5) = 5) ∧
      ∀ k ∈ ([0, 1, 2, 3, 4, 5] : List UInt8),
        ((e ||| k) &&& expandedNodeIdNamespaceUriFlag != 0) = a ∧
          ((e ||| k) &&& expandedNodeIdServerIndexFlag != 0) = b := by
    intro a b
    refine ⟨by cases a <;> cases b <;> decide, fun k hk => ?_⟩
    simp only [List.mem_cons, List.not_mem_nil, or_false] at hk
    rcases hk with rfl | rfl | rfl | rfl | rfl | rfl <;> cases a <;> cases b <;> decide
  have hfields := hbits (hasBytes id.namespaceUri) (decide (id.serverIndex > 0))
  simp only [decide_eq_true_eq] at hfields
  exact hfields

theorem peekByte_done {b : UInt8} {c : Ctx} (hat : At src c.pos (b :: bs)) :
    peekByte src c = .done b c := by
  have happend : At src c.pos ([b] ++ bs) := hat
  have hfirst : At src c.pos [b] := (at_append.mp happend).1
  have hlen : c.pos + 1 ≤ src.length := hfirst.le_length_of_pos Nat.one_pos
  have htake : (src.drop c.pos).take 1 = [b] := hfirst.take_eq
  have hneed : OpenPubSub.need src 1 c = .done () c := if_pos hlen
  have hpeek : peek src 1 c = .done [b] c := by rw [peek, if_pos hlen, htake]
  rw [peekByte, bind_done hneed, map_done hpeek, uint8_ofLE]

theorem reads_expandedNodeId (hT : StandardTypes T) {id : ExpandedNodeId}
    (hid : (expandedNodeIdRest T id).ok = true) :
    Reads src n (nodeIdHead id.nodeId (expandedNodeIdMask id) ++ (expandedNodeIdRest T id).bytes)
      id.received (expandedNodeIdDecodeBinary src T) := by
  obtain ⟨hform, hflags⟩ := expandedNodeIdMask_fields id
  obtain ⟨k, hk, rest, hhead⟩ := nodeIdHead_eq_cons id.nodeId (expandedNodeIdMask id)
  obtain ⟨huri, hindex⟩ := hflags k hk
  simp only [expandedNodeIdRest, Plan.ok_seq, Bool.and_eq_true] at hid
  obtain ⟨hnode, hstring, -⟩ := hid
  have huriRead : Reads src n (if hasBytes id.namespaceUri then stringBytes id.namespaceUri else [])
      (nullIfEmpty id.namespaceUri)
      (whenSet (hasBytes id.namespaceUri) (stringDecodeBinary src T)) := by
    refine Reads.whenSet (fun hset => ?_) fun hclear => ?_
    · have hne : id.namespaceUri.getD [] ≠ [] := List.length_pos_iff.mp (of_decide_eq_true hset)
      -- a URI with bytes is not NULL
      have hself : nullIfEmpty id.namespaceUri = id.namespaceUri := by
        rw [nullIfEmpty_of_ne_nil hne]
        cases h : id.namespaceUri with
        | none => exact absurd (by rw [h]; rfl) hne
        | some uri => rfl
      rw [hset, if_pos rfl, stringPlan_ok] at hstring
      rw [hself]
      exact reads_string hT hstring
    · have hnil : id.namespaceUri.getD [] = [] :=
        List.eq_nil_of_length_eq_zero (Nat.eq_zero_of_not_pos (of_decide_eq_false hclear))
      exact nullIfEmpty_of_nil hnil
  have hindexRead : Reads src n
      (if decide (id.serverIndex > 0) then leBytes 4 id.serverIndex.toNat else []) id.serverIndex
      (whenSet (decide (id.serverIndex > 0)) (uint32DecodeBinary src)) := by
    refine Reads.whenSet (fun _ => reads_uint32 _) fun hclear => ?_
    have hzero := of_decide_eq_false hclear
    rw [gt_iff_lt, UInt32.lt_iff_toNat_lt] at hzero
    exact UInt32.toNat_inj.mp (Nat.eq_zero_of_not_pos hzero)
  have hall : Reads src n _ id.received
      (accum (nodeIdDecodeBinary src T) fun nodeId =>
        accum (whenSet (hasBytes id.namespaceUri) (stringDecodeBinary src T)) fun uri =>
        accum (whenSet (decide (id.serverIndex > 0)) (uint32DecodeBinary src)) fun serverIndex =>
        pure ⟨if hasBytes id.namespaceUri then { nodeId with namespaceIndex := 0 } else nodeId,
          uri, serverIndex⟩) :=
    (reads_flaggedNodeId hT hform hnode).accum (huriRead.accum (hindexRead.accum_pure rfl))
  have hbytes : nodeIdHead id.nodeId (expandedNodeIdMask id) ++ (expandedNodeIdRest T id).bytes =
      (nodeIdHead id.nodeId (expandedNodeIdMask id) ++ (nodeIdRest T id.nodeId).bytes) ++
        ((if hasBytes id.namespaceUri then stringBytes id.namespaceUri else []) ++
          (if decide (id.serverIndex > 0) then leBytes 4 id.serverIndex.toNat else [])) := by
    rw [expandedNodeIdRest, Plan.bytes_seq, Plan.bytes_seq, List.append_assoc]
    congr 3
    · split <;> simp
    · split <;> simp
  intro c hat hdepth
  -- the flags are looked at, and the byte is read once more as that of the NodeId
  have hpeek : peekByte src c = .done (expandedNodeIdMask id ||| k) c := by
    have hfirst := hat
    rw [hhead] at hfirst
    exact peekByte_done hfirst
  rw [expandedNodeIdDecodeBinary, bind_done hpeek]
  simp only [huri, hindex]
  rw [hbytes] at hat ⊢
  exact hall c hat hdepth

/-- A leaf object comes back as `received`. -/
theorem reads_leaf (hT : StandardTypes T) {kind : DataTypeKind} {x : Value}
    (hkind : kind.isLeaf = true) (hx : x.isOfKind kind = true) (hnormal : x.isNormal kind = true)
    (hfits : x.wireFits T = true) (fuel : Nat) (type : DataTypeRef) :
    Reads src n (x.wireBytes T) x.received (decodeBinaryJumpTable src T (fuel + 1) kind type) := by
  obtain ⟨hbytes, hfitsPlan⟩ := wireBytes_leaf (T := T) hx
  rw [hfitsPlan] at hfits
  by_cases hexpanded : kind = .expandedNodeId
  · subst hexpanded
    cases x with
    | expandedNodeId id =>
      simp only [Value.plan, Plan.ok_seq, Plan.ok_chunk, Bool.true_and] at hfits
      exact (reads_expandedNodeId hT hfits).map
    | _ => cases hx
  · have hplain : kind.isPlain = true := by
      rw [DataTypeKind.isPlain, hkind, Bool.true_and, bne_iff_ne]
      exact hexpanded
    have hself : x.received = x := by
      cases x with
      | expandedNodeId id => cases kind <;> first | exact absurd rfl hexpanded | cases hx
      | variant v => cases kind <;> cases hx
      | dataValue d => cases kind <;> cases hx
      | array xs => cases kind <;> cases hx
      | _ => rfl
    rw [hbytes, hself]
    exact reads_value hT hplain hx hnormal hfits fuel type

/-- A leaf object holds no array. -/
theorem isPlausible_leaf {kind : DataTypeKind} {x : Value} (hx : x.isOfKind kind = true)
    (size after : Nat) : x.isPlausible T size after = true := by
  unfold Value.isOfKind at hx
  split at hx
  case h_22 => cases hx
  all_goals rfl

theorem decides_leaf (hT : StandardTypes T) {kind : DataTypeKind} {x : Value}
    (hkind : kind.isLeaf = true) (hx : x.isOfKind kind = true) (hnormal : x.isNormal kind = true)
    (hfits : x.wireFits T = true) (size fuel : Nat) (type : DataTypeRef) :
    Decides src n after (x.wireBytes T) (x.isPlausible T size after) x.received
      (decodeBinaryJumpTable src T (fuel + 1) kind type) := by
  rw [isPlausible_leaf hx]
  exact .of_reads (reads_leaf hT hkind hx hnormal hfits fuel type)

/-! ## Arrays -/

/-- The elements, one after the other. The induction is on the elements, with all bytes after
an element behind it. -/
theorem decides_elements {element : Dec Value} {xs : List Value}
    (h : ∀ x ∈ xs, ∀ after, Decides src n after (x.wireBytes T) (x.isPlausible T 0 after)
      x.received element) (after : Nat) :
    Decides src n after (elementsWireBytes T xs) (elementsArePlausible T after xs)
      (elementsReceived xs) (times element xs.length) := by
  induction xs with
  | nil => exact .of_reads (reads_pure [])
  | cons x xs ih =>
    obtain ⟨hx, hxs⟩ := List.forall_mem_cons.mp h
    have hrest : Decides src n after (elementsWireBytes T xs) (elementsArePlausible T after xs)
        (x.received :: elementsReceived xs)
        (times element xs.length >>= fun rest => pure (x.received :: rest)) := (ih hxs).map
    exact (hx _).bind hrest

/-- The check passes or not, and then the elements come back or not. -/
theorem decides_array {type : DataType} {ofMemory : Bytes → Value} {element : Dec Value}
    {xs : List Value} (hlen : xs.length ≤ int32Max)
    (hcopied : type.overlayable = true → xs ≠ [] →
      Decides src n after (elementsWireBytes T xs) (elementsArePlausible T after xs)
        (some (elementsReceived xs))
        ((fun bytes => some ((chunks type.memSize xs.length bytes).map ofMemory)) <$>
          fixedDecodeBinary src (type.memSize * xs.length)))
    (helement : type.overlayable = false → ∀ x ∈ xs, ∀ after,
      Decides src n after (x.wireBytes T) (x.isPlausible T 0 after) x.received element) :
    Decides src n after (Value.wireBytes T (.array xs))
      (Value.isPlausible T type.memSize after (.array xs)) (some (elementsReceived xs))
      (arrayDecodeBinary src type ofMemory element) := by
  obtain ⟨hword, hsigned⟩ := signedLength_some hlen
  refine ((Decides.of_reads (reads_uint32 _)).bind ?_).congr rfl (Bool.true_and _)
  simp only [hword, hsigned]
  by_cases hnil : xs = []
  · subst hnil
    exact (Decides.of_reads (reads_pure (some []))).congr rfl
      (by simp [Value.isPlausible, elementsArePlausible])
  · have hpos : 0 < xs.length := List.length_pos_iff.mpr hnil
    rw [if_neg (by omega)]
    refine ((Decides.need _).bind ?_).congr (List.nil_append _) rfl
    cases hover : type.overlayable with
    | true => exact hcopied hover hnil
    | false => exact (decides_elements (helement hover) after).map

/-- The elements of an array that is copied. -/
theorem copied_leaves {kind : DataTypeKind} (hkind : kind.overlayable = true) {xs : List Value}
    (h : ∀ x ∈ xs, x.isOfKind kind = true) :
    elementsReceived xs = xs ∧ ∀ after, elementsArePlausible T after xs = true := by
  induction xs with
  | nil => exact ⟨rfl, fun _ => rfl⟩
  | cons x xs ih =>
    obtain ⟨hx, hxs⟩ := List.forall_mem_cons.mp h
    obtain ⟨hreceived, hplausible⟩ := ih hxs
    refine ⟨?_, fun after => ?_⟩
    · have hself : x.received = x := by
        unfold Value.isOfKind at hx
        split at hx
        case h_19 => cases hkind
        case h_22 => cases hx
        all_goals rfl
      rw [elementsReceived, hself, hreceived]
    · rw [elementsArePlausible, isPlausible_leaf hx, hplausible, Bool.and_true]

/-- An array of nested objects. -/
theorem decides_nestedArray (hT : StandardTypes T) {m : Nat} {kind : DataTypeKind}
    (hkind : kind.isField = true) {jump : Jump} {xs : List Value}
    (hxs : ∀ x ∈ xs, Value.Nests m kind x) (hfits : Value.wireFits T (.array xs) = true)
    (h : ∀ x ∈ xs, x.wireFits T = true → ∀ after, Decides src n after (x.wireBytes T)
      (x.isPlausible T 0 after) x.received (jump kind (DataTypes.builtin kind))) :
    Decides src n after (Value.wireBytes T (.array xs))
      (Value.isPlausible T (T.get (DataTypes.builtin kind)).memSize after (.array xs))
      (Value.received (.array xs))
      (valuesDecodeBinary src T jump (DataTypes.builtin kind)) := by
  have hbuiltin := DataTypeKind.isBuiltin_of_isField hkind
  simp only [Value.wireFits, Bool.and_eq_true, decide_eq_true_eq] at hfits
  obtain ⟨hlen, helements⟩ := hfits
  have hfit : ∀ x ∈ xs, x.wireFits T = true := by
    clear hxs h hlen
    induction xs with
    | nil => exact fun _ h => absurd h List.not_mem_nil
    | cons x xs ih =>
      simp only [elementsWireFits, Bool.and_eq_true] at helements
      exact List.forall_mem_cons.mpr ⟨helements.1, ih helements.2⟩
  rw [valuesDecodeBinary]
  refine Decides.map (decides_array hlen (fun hover hne => ?_) fun _ x hx => ?_)
  · -- elements that are copied are leaves, and the filter lets these through
    obtain ⟨hleaf, hoverlay⟩ := isLeaf_of_overlayable hT hkind hover
    have hof : ∀ x ∈ xs, x.isOfKind kind = true := fun x hx => ((hxs x hx).isOfKind hleaf).1
    obtain ⟨hreceived, hplausible⟩ := copied_leaves (T := T) hoverlay hof
    have hpos : xs.length ≤ (xs.flatMap fun x => (x.plan T).bytes).length :=
      (le_length_flatMap fun x hx => memSize_le_plan (hof x hx)).2
    have hxspos : 0 < xs.length := List.length_pos_iff.mpr hne
    rw [hreceived, hplausible, elements_leaf hof, hT.memSize kind hbuiltin, T.get_builtin hbuiltin]
    exact .of_reads (reads_copied (by omega) fun x hx =>
      ⟨(memory_eq (hof x hx) hoverlay).2, ofMemory_plan (hof x hx) hoverlay⟩)
  · rw [T.get_builtin hbuiltin]
    exact h x hx (hfit x hx)

/-! ## Variants and DataValues -/

/-- The dimensions that were written. -/
theorem reads_wireDimensions (hT : StandardTypes T) {data : Value}
    {dimensions : Option (List UInt32)}
    (hfits : (!hasWireDimensions data dimensions ||
      decide ((dimensions.getD []).length ≤ int32Max)) = true) :
    Reads src n (wireDimensions data dimensions)
      (if data.isArray then nullIfEmpty dimensions else none)
      (whenSet (data.isArray && decide ((dimensions.getD []).length > 0))
        (dimensionsDecodeBinary src T)) := by
  refine Reads.whenSet (fun hset => ?_) fun hclear => ?_
  · obtain ⟨harray, hpos⟩ := (Bool.and_eq_true ..).mp hset
    rw [show hasWireDimensions data dimensions = true from hset, Bool.not_true, Bool.false_or]
      at hfits
    rw [if_pos harray, nullIfEmpty_of_ne_nil (List.length_pos_iff.mp (of_decide_eq_true hpos))]
    exact reads_dimensions hT (of_decide_eq_true hfits)
  · cases harray : data.isArray with
    | true =>
      rw [hasWireDimensions, harray, Bool.true_and] at hclear
      rw [if_pos rfl, nullIfEmpty_of_nil]
      · rfl
      · exact List.eq_nil_of_length_eq_zero (Nat.eq_zero_of_not_pos (of_decide_eq_false hclear))
    | false => rfl

/-- A Variant, given its content. -/
theorem decides_nestedVariant (hT : StandardTypes T) (hn : n ≤ encodingMaxRecursion)
    {kind : DataTypeKind} (hkind : kind.isField = true) {jump : Jump} {data : Value}
    {dimensions : Option (List UInt32)} (hvariant : ¬ (kind = .variant ∧ data.isArray = false))
    (hfits : variantWireFits T ⟨some (DataTypes.builtin kind), data, dimensions⟩ = true)
    (h : ∀ after, Decides src (n + 1) after (data.wireBytes T)
      (data.isPlausible T (T.get (DataTypes.builtin kind)).memSize after) data.received
      (if data.isArray then valuesDecodeBinary src T jump (DataTypes.builtin kind)
        else jump kind (DataTypes.builtin kind))) :
    Decides src n after
      (variantWireBytes T ⟨some (DataTypes.builtin kind), data, dimensions⟩)
      (variantIsPlausible T after ⟨some (DataTypes.builtin kind), data, dimensions⟩)
      (variantReceived ⟨some (DataTypes.builtin kind), data, dimensions⟩)
      (variantDecodeBinary src T jump) := by
  have hbuiltin := DataTypeKind.isBuiltin_of_isField hkind
  obtain ⟨hzero, htype, harray, hdims⟩ := variantEncodingByte_fields hbuiltin data.isArray
    (decide ((dimensions.getD []).length > 0))
  have hextension : kind ≠ .extensionObject := by
    rintro rfl
    cases hkind
  have hcontent : ∀ after, Decides src (n + 1) after (data.wireBytes T)
      (data.isPlausible T (T.get (DataTypes.builtin kind)).memSize after)
      (DataTypes.builtin kind, data.received)
      (variantDecodeBinaryContent src T jump kind data.isArray) := by
    intro after
    have hdata := h after
    unfold variantDecodeBinaryContent
    -- an array, or an object that is in no ExtensionObject
    cases hcase : data.isArray with
    | true =>
      rw [hcase, if_pos rfl] at hdata
      exact hdata.map
    | false =>
      rw [hcase, if_neg Bool.false_ne_true] at hdata
      rw [if_neg Bool.false_ne_true, if_pos hextension]
      exact hdata.map
  simp only [variantWireFits, Bool.and_eq_true] at hfits
  have hrest : Decides src (n + 1) after (data.wireBytes T ++ wireDimensions data dimensions) _ _
      (accum (variantDecodeBinaryContent src T jump kind data.isArray) fun content =>
        accum (whenSet (data.isArray && decide ((dimensions.getD []).length > 0))
          (dimensionsDecodeBinary src T)) fun dimensions =>
          pure (⟨some content.1, content.2, dimensions⟩ : Variant)) :=
    (hcontent _).accum (.of_reads ((reads_wireDimensions hT hfits.2).accum_pure rfl))
  unfold variantDecodeBinary
  simp only [variantWireBytes, variantIsPlausible, variantReceived, T.get_builtin hbuiltin]
  refine ((Decides.of_reads (reads_byte _)).bind ?_).congr rfl (Bool.true_and _)
  simp only [if_neg hzero, htype, harray, if_neg hvariant, hdims]
  exact ((Decides.of_reads (reads_checkRecursion hn)).bind hrest.deeper).congr
    (List.nil_append _) (by simp)

/-- A member that is not there is read as zero. -/
theorem reads_member [Inhabited α] (c : Bool) {a : α} {x : Dec α} (h : Reads src n bs a x) :
    Reads src n (if c then bs else []) (if c then a else default) (whenSet c x) := by
  cases c with
  | true => exact h
  | false => exact reads_pure default

/-- The members after the Variant. -/
theorem reads_dataValueTail {d : DataValue}
    (hsource : d.hasSourcePicoseconds = true → d.sourcePicoseconds ≤ maxPicoSeconds)
    (hserver : d.hasServerPicoseconds = true → d.serverPicoseconds ≤ maxPicoSeconds) (v : Variant) :
    Reads src n (dataValueTailBytes d)
      ⟨d.hasValue, d.hasStatus, d.hasSourceTimestamp, d.hasServerTimestamp,
        d.hasSourcePicoseconds, d.hasServerPicoseconds, v, if d.hasStatus then d.status else 0,
        if d.hasSourceTimestamp then d.sourceTimestamp else 0,
        if d.hasSourcePicoseconds then d.sourcePicoseconds else 0,
        if d.hasServerTimestamp then d.serverTimestamp else 0,
        if d.hasServerPicoseconds then d.serverPicoseconds else 0⟩
      (accum (whenSet d.hasStatus (uint32DecodeBinary src)) fun status =>
        accum (whenSet d.hasSourceTimestamp (uint64DecodeBinary src)) fun sourceTimestamp =>
        accum (whenSet d.hasSourcePicoseconds (uint16DecodeBinary src)) fun sourcePicoseconds =>
        accum (whenSet d.hasServerTimestamp (uint64DecodeBinary src)) fun serverTimestamp =>
        accum (whenSet d.hasServerPicoseconds (uint16DecodeBinary src)) fun serverPicoseconds =>
        pure (⟨d.hasValue, d.hasStatus, d.hasSourceTimestamp, d.hasServerTimestamp,
          d.hasSourcePicoseconds, d.hasServerPicoseconds, v, status, sourceTimestamp,
          clampPicoSeconds sourcePicoseconds, serverTimestamp,
          clampPicoSeconds serverPicoseconds⟩ : DataValue)) := by
  have hclamp : ∀ (c : Bool) (p : UInt16), (c = true → p ≤ maxPicoSeconds) →
      clampPicoSeconds (if c then p else 0) = if c then p else 0 := by
    intro c p hp
    cases c with
    | true => exact clampPicoSeconds_of_le (hp rfl)
    | false => rfl
  refine (reads_member d.hasStatus (reads_uint32 _)).accum
    ((reads_member d.hasSourceTimestamp (reads_uint64 _)).accum
      ((reads_member d.hasSourcePicoseconds (reads_uint16 _)).accum
        ((reads_member d.hasServerTimestamp (reads_uint64 _)).accum
          ((reads_member d.hasServerPicoseconds (reads_uint16 _)).accum_pure ?_))))
  rw [← hclamp _ _ hsource, ← hclamp _ _ hserver]
  rfl

/-- A DataValue, given its Variant. -/
theorem decides_nestedDataValue (hn : n ≤ encodingMaxRecursion) {jump : Jump} {d : DataValue}
    (hsource : d.hasSourcePicoseconds = true → d.sourcePicoseconds ≤ maxPicoSeconds)
    (hserver : d.hasServerPicoseconds = true → d.serverPicoseconds ≤ maxPicoSeconds)
    (h : d.hasValue = true → ∀ after, Decides src (n + 1) after (variantWireBytes T d.value)
      (variantIsPlausible T after d.value) (variantReceived d.value)
      (variantDecodeBinary src T jump)) :
    Decides src n after (dataValueWireBytes T d) (dataValueIsPlausible T after d)
      (dataValueReceived d) (dataValueDecodeBinary src T jump) := by
  obtain ⟨hvalue, hstatus, hsourceBit, hserverBit, hsourcePico, hserverPico⟩ :=
    dataValueMask_fields d
  have hinner : Decides src (n + 1) ((dataValueTailBytes d).length + after)
      (if d.hasValue then variantWireBytes T d.value else [])
      (!d.hasValue || variantIsPlausible T ((dataValueTailBytes d).length + after) d.value)
      (if d.hasValue then variantReceived d.value else default)
      (whenSet d.hasValue (variantDecodeBinary src T jump)) := by
    cases hset : d.hasValue with
    | true => exact h hset _
    | false => exact .of_reads (reads_pure default)
  obtain ⟨hasValue, hasStatus, hasSourceTimestamp, hasServerTimestamp, hasSourcePicoseconds,
    hasServerPicoseconds, value, status, sourceTimestamp, sourcePicoseconds, serverTimestamp,
    serverPicoseconds⟩ := d
  simp only [dataValueWireBytes, dataValueIsPlausible, dataValueReceived]
  unfold dataValueDecodeBinary
  refine ((Decides.of_reads (reads_byte _)).bind ?_).congr rfl (Bool.true_and _)
  simp only [hvalue, hstatus, hsourceBit, hserverBit, hsourcePico, hserverPico]
  exact ((Decides.of_reads (reads_checkRecursion hn)).bind
    (hinner.accum (.of_reads (reads_dataValueTail hsource hserver _))).deeper).congr
      (List.nil_append _) (by simp)

/-- **A nested value comes back as `received`, or is refused.** The induction is on the levels:
each of them takes one of the fuel and raises the nesting counter by one. -/
theorem decides_nested (hT : StandardTypes T) {m : Nat} {kind : DataTypeKind} {x : Value}
    (h : Value.Nests m kind x) (hfits : x.wireFits T = true) {fuel : Nat} (hfuel : m ≤ fuel)
    (hn : n + m ≤ encodingMaxRecursion + 1) (size after : Nat) (type : DataTypeRef) :
    Decides src n after (x.wireBytes T) (x.isPlausible T size after) x.received
      (decodeBinaryJumpTable src T (fuel + 1) kind type) := by
  induction h generalizing n fuel size after type with
  | leaf hkind hx hnormal => exact decides_leaf hT hkind hx hnormal hfits size fuel type
  | empty data dimensions =>
    refine Decides.of_reads (Reads.map fun c hat hdepth => ?_)
    rw [variantDecodeBinary, bind_done (reads_byte 0 c hat hdepth), if_pos rfl]
    rfl
  | @scalar m kind data dimensions hkind hdata hnormal =>
    have harray := isArray_of_isOfKind hdata
    have hfield : kind.isField = true := by rw [DataTypeKind.isField, hkind]; rfl
    have hvariant : ¬ (kind = .variant ∧ data.isArray = false) := by
      rintro ⟨rfl, -⟩
      cases hkind
    obtain ⟨fuel, rfl⟩ : ∃ k, fuel = k + 1 := ⟨fuel - 1, by omega⟩
    refine Decides.map (decides_nestedVariant hT (by omega) hfield hvariant hfits fun after => ?_)
    rw [harray, if_neg Bool.false_ne_true]
    simp only [Value.wireFits, variantWireFits, Bool.and_eq_true] at hfits
    exact decides_leaf hT hkind hdata hnormal hfits.1 _ fuel _
  -- a length of -1, and no element
  | @noArray m kind dimensions hkind =>
    refine Decides.map (decides_nestedVariant hT (by omega) hkind (fun h =>
      Bool.noConfusion h.2) hfits fun after => ?_)
    have hread : Reads src (n + 1) (lengthBytes none ++ []) none
        (arrayDecodeBinary src (T.get (DataTypes.builtin kind))
          (Value.ofMemory (T.get (DataTypes.builtin kind)).typeKind)
          (decodeBinaryJumpTable src T fuel (T.get (DataTypes.builtin kind)).typeKind
            (DataTypes.builtin kind))) :=
      reads_array (fun _ => []) none (Nat.zero_le _) (fun _ h => absurd h List.not_mem_nil)
        (fun _ _ h => absurd h List.not_mem_nil) fun _ _ h => absurd h List.not_mem_nil
    exact (Decides.of_reads hread).map
  | @array m kind xs dimensions hkind hxs ih =>
    obtain ⟨fuel, rfl⟩ : ∃ k, fuel = k + 1 := ⟨fuel - 1, by omega⟩
    refine Decides.map (decides_nestedVariant hT (by omega) hkind (fun h =>
      Bool.noConfusion h.2) hfits fun after => ?_)
    simp only [Value.wireFits, variantWireFits, Bool.and_eq_true] at hfits
    refine decides_nestedArray hT hkind hxs ?_ fun x hx hfit after => ?_
    · simp only [Value.wireFits, Bool.and_eq_true]
      exact hfits.1
    · -- the filter of an array counts for its own elements: each element begins anew
      exact ih x hx hfit (by omega) (by omega) 0 after _
  | @dataValue m d hvalue hsource hserver ih =>
    obtain ⟨fuel, rfl⟩ : ∃ k, fuel = k + 1 := ⟨fuel - 1, by omega⟩
    refine Decides.map (decides_nestedDataValue (by omega) hsource hserver fun hset after => ?_)
    have hfit : variantWireFits T d.value = true := by
      obtain ⟨hasValue, _, _, _, _, _, value, _, _, _, _, _⟩ := d
      cases hset
      exact hfits
    have hvalue : Decides src (n + 1) after (Value.wireBytes T (.variant d.value))
        (Value.isPlausible T size after (.variant d.value)) (Value.received (.variant d.value))
        (decodeBinaryJumpTable src T (fuel + 1 + 1) .variant type) :=
      ih hset hfit (by omega) (by omega) size after type
    exact .of_map (fun v w h => Value.variant.inj h) hvalue

/-! ## Without custom types -/

mutual

theorem Value.isPlausible_withoutCustomTypes (size after : Nat) (x : Value) :
    x.isPlausible T.withoutCustomTypes size after = x.isPlausible T size after := by
  match x with
  | .variant v => exact variantIsPlausible_withoutCustomTypes after v
  | .dataValue d => exact dataValueIsPlausible_withoutCustomTypes after d
  | .array xs =>
    simp only [Value.isPlausible, (elementsWire_withoutCustomTypes xs).1,
      elementsArePlausible_withoutCustomTypes after xs]
  | .null | .byte _ | .uint16 _ | .uint32 _ | .uint64 _ | .string _ | .guid _ | .nodeId _
  | .expandedNodeId _ | .qualifiedName _ | .localizedText _ | .raw _ | .extensionObject _
  | .diagnosticInfo _ | .struct _ | .optStruct _ | .union _ _ => rfl
  termination_by structural x

theorem variantIsPlausible_withoutCustomTypes (after : Nat) (v : VariantOf Value) :
    variantIsPlausible T.withoutCustomTypes after v = variantIsPlausible T after v := by
  match v with
  | ⟨none, _, _⟩ => rfl
  | ⟨some _, data, _⟩ =>
    simp only [variantIsPlausible, DataTypes.withoutCustomTypes_get,
      Value.isPlausible_withoutCustomTypes _ _ data]
  termination_by structural v

theorem dataValueIsPlausible_withoutCustomTypes (after : Nat) (d : DataValueOf Value) :
    dataValueIsPlausible T.withoutCustomTypes after d = dataValueIsPlausible T after d := by
  match d with
  | ⟨_, _, _, _, _, _, value, _, _, _, _, _⟩ =>
    simp only [dataValueIsPlausible, variantIsPlausible_withoutCustomTypes _ value]
  termination_by structural d

theorem elementsArePlausible_withoutCustomTypes (after : Nat) (xs : List Value) :
    elementsArePlausible T.withoutCustomTypes after xs = elementsArePlausible T after xs := by
  match xs with
  | [] => rfl
  | x :: xs =>
    simp only [elementsArePlausible, (elementsWire_withoutCustomTypes xs).1,
      Value.isPlausible_withoutCustomTypes _ _ x, elementsArePlausible_withoutCustomTypes after xs]
  termination_by structural xs

end

/-! ## The round trip -/

/-- Decoding the bytes of a nested Variant, with nothing behind them. -/
theorem nestedVariant_decoded_iff (hT : StandardTypes T) {v : Variant}
    (hv : Value.Nests encodingMaxRecursion .variant (.variant v))
    (hfits : variantWireFits T v = true) (w : Variant) :
    uaVariantDecodeBinary (variantWireBytes T v) T 0 =
        .done w (variantWireBytes T v).length ↔
      variantIsPlausible T 0 v = true ∧ w = variantReceived v := by
  obtain ⟨hbytes, hfits'⟩ := variantWire_withoutCustomTypes (T := T) v
  rw [← hfits'] at hfits
  rw [← hbytes, ← variantIsPlausible_withoutCustomTypes, uaVariantDecodeBinary]
  generalize hbs : variantWireBytes T.withoutCustomTypes v = bs
  have hdecides : Decides bs 0 0 bs (variantIsPlausible T.withoutCustomTypes 0 v)
      (variantReceived v) (variantDecodeBinary bs T.withoutCustomTypes
        (decodeBinaryJumpTable bs T.withoutCustomTypes (decodeFuel bs))) := by
    rw [← hbs]
    exact .of_map (g := Value.variant) (fun v w h => Value.variant.inj h)
      (decides_nested hT.withoutCustomTypes hv hfits
        (by unfold decodeFuel encodingMaxRecursion; omega) (by decide) 0 0
        (DataTypes.builtin .variant))
  obtain ⟨hread, hrefuse⟩ := hdecides ⟨0, 0⟩ (List.prefix_refl _)
    (by rw [Nat.zero_add, Nat.add_zero]) (Nat.le_refl 0)
  constructor
  · intro hrun
    obtain ⟨c, hrun, -⟩ := uaDecodeBinary_eq_done hrun
    -- a success is one of a plausible value, and then there is only one
    cases hok : variantIsPlausible T.withoutCustomTypes 0 v with
    | false => exact absurd hrun (hrefuse hok w c)
    | true =>
      rw [hread hok] at hrun
      cases hrun
      exact ⟨rfl, rfl⟩
  · rintro ⟨hok, rfl⟩
    rw [uaDecodeBinary, hread hok]
    show Outcome.done _ (0 + _) = _
    rw [Nat.zero_add]

/-- **Decoding the bytes of a nested Variant** with nothing behind them gives the same Variant
exactly if each array in it has enough bytes behind its length, and the Variant is in the form
in which a decoder leaves it. -/
theorem nested_roundTrip_iff (hT : StandardTypes T) {v : Variant} {s t : Buffer}
    (hv : Value.Nests encodingMaxRecursion .variant (.variant v)) (hs : s.Valid)
    (h : uaVariantEncodeBinary T v s = .done () t) :
    ∃ bs : Bytes, bs.length ≤ s.room ∧ t = s.write bs ∧
      uaVariantCalcSizeBinary T v = some bs.length ∧
      (uaVariantDecodeBinary bs T 0 = .done v bs.length ↔
        variantIsPlausible T 0 v = true ∧ variantIsReceived v = true) := by
  have hcommits : Commits (variantWireBytes T v) (variantWireFits T v = true)
      (uaVariantEncodeBinary T v) := (commits_nested hT hv 0 (DataTypes.builtin .variant)).goBack
  have hfits := hcommits.ok_of_done hs h
  obtain ⟨hroom, hwritten⟩ := (hcommits.congr rfl (iff_true_intro hfits)).done_eq hs h
  refine ⟨variantWireBytes T v, hroom, hwritten, nested_calcSize hT hv (DataTypes.builtin .variant),
    ?_⟩
  rw [nestedVariant_decoded_iff hT hv hfits, eq_comm (a := v), variantReceived_eq_iff]

/-- Two Variants with a number, in an array. -/
def numberVariants : Variant :=
  ⟨some (DataTypes.builtin .variant), .array [
    .variant ⟨some (DataTypes.builtin .uint64), .uint64 7, none⟩,
    .variant ⟨some (DataTypes.builtin .byte), .byte 9, none⟩], none⟩

theorem numberVariants_nests :
    Value.Nests encodingMaxRecursion .variant (.variant numberVariants) :=
  .array none rfl (List.forall_mem_cons.mpr ⟨.scalar none rfl rfl rfl,
    List.forall_mem_cons.mpr ⟨.scalar none rfl rfl rfl, nofun⟩⟩)

/-- Variants with something in them come back. -/
theorem nested_roundTrip_numbers :
    ∃ t, uaVariantEncodeBinary builtinTypes numberVariants (blank 20) = .done () t ∧
      ∃ bs : Bytes, bs.length ≤ 20 ∧ t = (blank 20).write bs ∧
        uaVariantCalcSizeBinary builtinTypes numberVariants = some bs.length ∧
        uaVariantDecodeBinary bs builtinTypes 0 = .done numberVariants bs.length := by
  obtain ⟨bs, hroom, ht, hsize, hiff⟩ := nested_roundTrip_iff standardTypes_builtinTypes
    numberVariants_nests (blank_valid 20) rfl
  exact ⟨_, rfl, bs, hroom, ht, hsize, hiff.mpr ⟨rfl, rfl⟩⟩

/-- Two empty Variants in an array: the decoder wants three bytes, and two are there. One empty
DataValue in an array: it wants two bytes, and one is there. -/
theorem nested_empties_refused :
    (∃ v t, Value.Nests encodingMaxRecursion .variant (.variant v) ∧
      uaVariantEncodeBinary builtinTypes v (blank 7) = .done () t ∧
      t.bytes = [0x98, 0x02, 0x00, 0x00, 0x00, 0x00, 0x00] ∧
      uaVariantDecodeBinary t.bytes builtinTypes 0 = .fail badDecodingError 0) ∧
    ∃ v t, Value.Nests encodingMaxRecursion .variant (.variant v) ∧
      uaVariantEncodeBinary builtinTypes v (blank 6) = .done () t ∧
      t.bytes = [0x97, 0x01, 0x00, 0x00, 0x00, 0x00] ∧
      uaVariantDecodeBinary t.bytes builtinTypes 0 = .fail badDecodingError 0 := by
  refine ⟨⟨⟨some (DataTypes.builtin .variant), .array [.variant default, .variant default], none⟩,
      _, ?_, rfl, rfl, rfl⟩,
    ⟨some (DataTypes.builtin .dataValue), .array [.dataValue default], none⟩, _, ?_, rfl, rfl, rfl⟩
  · exact .array none rfl (List.forall_mem_cons.mpr ⟨.empty _ _,
      List.forall_mem_cons.mpr ⟨.empty _ _, nofun⟩⟩)
  · exact .array none rfl (List.forall_mem_cons.mpr ⟨.dataValue nofun nofun nofun, nofun⟩)

end OpenPubSub
