import OpenPubSub.Types.EncodePlan
import OpenPubSub.Types.VariantShape

/-!
# Decoding what was encoded

For the leaf types without ExpandedNodeIds: where the bytes of a value stand in a message,
the decoder reads this value and stops behind them.

- `Reads src n bs a x` is the judgement. The bytes of a sequence are the concatenation of the
  bytes of its parts, and every way in which the source goes from one part to the next has
  its rule.
- `Value.IsNormal` rules out what the decoder reads as something else: a Boolean other than
  0 and 1. An array of Booleans that is copied from memory keeps them.
- **`reads_variant`**, `reads_dataValue`: a Variant and a DataValue come back, apart from
  array dimensions of length zero.
-/

namespace OpenPubSub

open Routine

variable {src : Bytes} {T : DataTypes} {α β : Type} {n : Nat} {as bs : Bytes}

/-! ## The judgement -/

/-- Where the bytes `bs` stand, and the nesting counter is at most `n`, the decoder reads `a`
and moves behind them. -/
def Reads (src : Bytes) (n : Nat) (bs : Bytes) (a : α) (x : Dec α) : Prop :=
  ∀ c : Ctx, At src c.pos bs → c.depth ≤ n → x c = .done a { c with pos := c.pos + bs.length }

section Rules

variable {a : α} {b : β} {x : Dec α} {f : α → Dec β}

/-- Nothing is read where nothing was written. -/
theorem reads_pure (a : α) : Reads src n [] a (pure a) := fun _ _ _ => rfl

theorem Reads.congr (h : Reads src n as a x) (hbs : as = bs) : Reads src n bs a x := hbs ▸ h

/-- In a row: the second reads on where the first stopped. -/
theorem Reads.bind (hx : Reads src n as a x) (hf : Reads src n bs b (f a)) :
    Reads src n (as ++ bs) b (x >>= f) := by
  intro c hat hdepth
  obtain ⟨has, hbs⟩ := at_append.mp hat
  have hnext := hf { c with pos := c.pos + as.length } hbs hdepth
  rw [bind_done (hx c has hdepth), List.length_append, ← Nat.add_assoc]
  exact hnext

/-- What is done to the result does not move the position. -/
theorem Reads.map {f : α → β} (hx : Reads src n bs a x) : Reads src n bs (f a) (f <$> x) :=
  fun c hat hdepth => map_done (hx c hat hdepth)

theorem Reads.accumGuard [Inhabited α] {g : Dec Unit} (hx : Reads src n as a x)
    (hg : ∀ c : Ctx, At src c.pos bs → c.depth ≤ n → g c = .done () c)
    (hf : Reads src n bs b (f a)) : Reads src n (as ++ bs) b (accumGuard x g f) := by
  intro c hat hdepth
  obtain ⟨has, hbs⟩ := at_append.mp hat
  have hguard := hg { c with pos := c.pos + as.length } hbs hdepth
  have hnext := hf { c with pos := c.pos + as.length } hbs hdepth
  rw [accumGuard_done (hx c has hdepth) hguard, List.length_append, ← Nat.add_assoc]
  exact hnext

/-- In the accumulating style, where no failure is there to be accumulated. -/
theorem Reads.accum [Inhabited α] (hx : Reads src n as a x) (hf : Reads src n bs b (f a)) :
    Reads src n (as ++ bs) b (accum x f) :=
  hx.accumGuard (fun _ _ _ => rfl) hf

/-- The last part of a structure. -/
theorem Reads.accum_pure [Inhabited α] {f : α → β} (hx : Reads src n as a x) (hb : f a = b) :
    Reads src n as b (Routine.accum x fun a => Pure.pure (f a)) := by
  have h := hx.accum (f := fun a => Pure.pure (f a)) (reads_pure (f a))
  rw [List.append_nil, hb] at h
  exact h

/-- A part behind a flag: without it the default is returned. -/
theorem Reads.whenSet [Inhabited α] {c : Bool} (hx : c = true → Reads src n bs a x)
    (ha : c = false → a = default) : Reads src n (if c then bs else []) a (whenSet c x) := by
  cases c with
  | true => exact hx rfl
  | false =>
    rw [ha rfl]
    exact reads_pure default

/-- One level down. -/
theorem Reads.deeper (hx : Reads src (n + 1) bs a x) : Reads src n bs a (deeper x) := by
  intro c hat hdepth
  have hrun := hx { c with depth := c.depth + 1 } hat (Nat.succ_le_succ hdepth)
  simp only [OpenPubSub.deeper, hrun, Nat.add_sub_cancel]

/-- The check of the depth, where there is a level left. -/
theorem reads_checkRecursion (hn : n ≤ encodingMaxRecursion) :
    Reads src n [] () checkRecursion := by
  intro c _ hdepth
  exact if_neg (by omega)

/-- An array, element by element. The induction is on the elements. -/
theorem reads_times {bytes : α → Bytes} {xs : List α}
    (h : ∀ a ∈ xs, Reads src n (bytes a) a x) :
    Reads src n (xs.flatMap bytes) xs (times x xs.length) := by
  induction xs with
  | nil => exact reads_pure []
  | cons a xs ih =>
    obtain ⟨ha, hxs⟩ := List.forall_mem_cons.mp h
    have hrest := (ih hxs).bind (f := fun as => pure (a :: as)) (reads_pure (a :: xs))
    rw [List.append_nil] at hrest
    exact ha.bind hrest

end Rules

/-! ## Primitives -/

/-- Bytes that are copied as a whole. -/
theorem reads_fixed (hbs : 0 < bs.length) :
    Reads src n bs bs (fixedDecodeBinary src bs.length) := by
  intro c hat _
  rw [fixedDecodeBinary_run, if_pos (hat.le_length_of_pos hbs), hat.take_eq]

/-- Bytes that stand for something else. -/
theorem reads_memory {k : Nat} (hk : 0 < k) (hbs : bs.length = k) (f : Bytes → α) :
    Reads src n bs (f bs) (f <$> fixedDecodeBinary src k) := by
  subst hbs
  exact (reads_fixed hk).map

@[simp] theorem uint8_ofLE (v : UInt8) : UInt8.ofNat (ofLE [v]) = v := by
  show UInt8.ofNat (v.toNat + 256 * 0) = v
  rw [Nat.mul_zero, Nat.add_zero, UInt8.ofNat_toNat]

@[simp] theorem uint16_ofLE (v : UInt16) : UInt16.ofNat (ofLE (leBytes 2 v.toNat)) = v := by
  rw [ofLE_leBytes_of_lt v.toNat_lt, UInt16.ofNat_toNat]

@[simp] theorem uint32_ofLE (v : UInt32) : UInt32.ofNat (ofLE (leBytes 4 v.toNat)) = v := by
  rw [ofLE_leBytes_of_lt v.toNat_lt, UInt32.ofNat_toNat]

@[simp] theorem uint64_ofLE (v : UInt64) : UInt64.ofNat (ofLE (leBytes 8 v.toNat)) = v := by
  rw [ofLE_leBytes_of_lt v.toNat_lt, UInt64.ofNat_toNat]

theorem reads_byte (v : UInt8) : Reads src n [v] v (byteDecodeBinary src) := by
  have h : Reads src n [v] (UInt8.ofNat (ofLE [v])) (byteDecodeBinary src) :=
    reads_memory Nat.one_pos rfl _
  rwa [uint8_ofLE] at h

theorem reads_uint16 (v : UInt16) : Reads src n (leBytes 2 v.toNat) v (uint16DecodeBinary src) := by
  have h : Reads src n (leBytes 2 v.toNat) (UInt16.ofNat (ofLE (leBytes 2 v.toNat)))
      (uint16DecodeBinary src) := reads_memory (by decide) (leBytes_length 2 _) _
  rwa [uint16_ofLE] at h

theorem reads_uint32 (v : UInt32) : Reads src n (leBytes 4 v.toNat) v (uint32DecodeBinary src) := by
  have h : Reads src n (leBytes 4 v.toNat) (UInt32.ofNat (ofLE (leBytes 4 v.toNat)))
      (uint32DecodeBinary src) := reads_memory (by decide) (leBytes_length 4 _) _
  rwa [uint32_ofLE] at h

theorem reads_uint64 (v : UInt64) : Reads src n (leBytes 8 v.toNat) v (uint64DecodeBinary src) := by
  have h : Reads src n (leBytes 8 v.toNat) (UInt64.ofNat (ofLE (leBytes 8 v.toNat)))
      (uint64DecodeBinary src) := reads_memory (by decide) (leBytes_length 8 _) _
  rwa [uint64_ofLE] at h

/-- A Boolean is 0 or 1. -/
theorem reads_boolean {v : UInt8} (hv : v ≤ 1) : Reads src n [v] v (booleanDecodeBinary src) := by
  have hread : Reads src n [v] (if v > 0 then 1 else 0) (booleanDecodeBinary src) :=
    (reads_byte v).map
  have hcases : v = 0 ∨ v = 1 := by
    have htoNat := UInt8.le_iff_toNat_le.mp hv
    rw [← UInt8.toNat_inj, ← UInt8.toNat_inj]
    show v.toNat = 0 ∨ v.toNat = 1
    have hone : (1 : UInt8).toNat = 1 := rfl
    omega
  rcases hcases with rfl | rfl
  · exact hread
  · exact hread

/-! ## Arrays -/

/-- Elements of one size are cut where they were put together. -/
theorem chunks_flatMap {bytes : α → Bytes} {k : Nat} {xs : List α}
    (h : ∀ a ∈ xs, (bytes a).length = k) :
    chunks k xs.length (xs.flatMap bytes) = xs.map bytes := by
  induction xs with
  | nil => rfl
  | cons a xs ih =>
    obtain ⟨ha, hxs⟩ := List.forall_mem_cons.mp h
    rw [List.length_cons, List.flatMap_cons, chunks, ← ha, List.take_left, List.drop_left, ha,
      ih hxs, List.map_cons]

theorem length_flatMap_const {bytes : α → Bytes} {k : Nat} {xs : List α}
    (h : ∀ a ∈ xs, (bytes a).length = k) : (xs.flatMap bytes).length = k * xs.length := by
  rw [List.length_flatMap, List.map_congr_left h, List.map_const', List.sum_replicate_nat,
    Nat.mul_comm]

/-- Enough bytes for the check in front of the elements. -/
theorem le_length_flatMap {bytes : α → Bytes} {k : Nat} {xs : List α}
    (h : ∀ a ∈ xs, k ≤ 32 * (bytes a).length ∧ 0 < (bytes a).length) :
    k * xs.length ≤ 32 * (xs.flatMap bytes).length ∧ xs.length ≤ (xs.flatMap bytes).length := by
  induction xs with
  | nil => exact ⟨Nat.zero_le _, Nat.zero_le _⟩
  | cons a xs ih =>
    obtain ⟨ha, hxs⟩ := List.forall_mem_cons.mp h
    have := ih hxs
    rw [List.length_cons, List.flatMap_cons, List.length_append, Nat.mul_succ]
    omega

/-- A length that fits is read as the number it was written for. -/
theorem signedLength_some {k : Nat} (hk : k ≤ int32Max) :
    (signedLengthWord (some k)).toNat = k ∧ signedLength (signedLengthWord (some k)) = k := by
  unfold int32Max at hk
  have hword : (signedLengthWord (some k)).toNat = k := by
    show (UInt32.ofNat k).toNat = k
    rw [UInt32.toNat_ofNat', Nat.mod_eq_of_lt (by omega)]
  refine ⟨hword, ?_⟩
  unfold signedLength
  rw [hword, if_pos (by omega)]

/-- Elements that are copied out of the message. -/
theorem reads_copied {size : Nat} {ofMemory : Bytes → α} {bytes : α → Bytes} {xs : List α}
    (hpos : 0 < (xs.flatMap bytes).length)
    (hmem : ∀ a ∈ xs, (bytes a).length = size ∧ ofMemory (bytes a) = a) :
    Reads src n (xs.flatMap bytes) (some xs)
      ((fun bytes => some ((chunks size xs.length bytes).map ofMemory)) <$>
        fixedDecodeBinary src (size * xs.length)) := by
  have hlength := length_flatMap_const fun a ha => (hmem a ha).1
  have hread : Reads src n (xs.flatMap bytes) (xs.flatMap bytes)
      (fixedDecodeBinary src (size * xs.length)) := by
    rw [← hlength]
    exact reads_fixed hpos
  have hcopy : (chunks size xs.length (xs.flatMap bytes)).map ofMemory = xs := by
    have hmap : xs.map (ofMemory ∘ bytes) = xs.map id :=
      List.map_congr_left fun a ha => (hmem a ha).2
    rw [chunks_flatMap fun a ha => (hmem a ha).1, List.map_map, hmap, List.map_id]
  have hcopied := hread.map (f := fun bytes => some ((chunks size xs.length bytes).map ofMemory))
  rw [hcopy] at hcopied
  exact hcopied

/-- An array whose elements read back one by one, or are copied when they look the same in
memory. -/
theorem reads_array {type : DataType} {ofMemory : Bytes → α} {element : Dec α}
    (bytes : α → Bytes) (xs : Option (List α)) (hlen : (xs.getD []).length ≤ int32Max)
    (hsize : ∀ a ∈ xs.getD [], type.memSize ≤ 32 * (bytes a).length ∧ 0 < (bytes a).length)
    (hmem : type.overlayable = true →
      ∀ a ∈ xs.getD [], (bytes a).length = type.memSize ∧ ofMemory (bytes a) = a)
    (helement : type.overlayable = false → ∀ a ∈ xs.getD [], Reads src n (bytes a) a element) :
    Reads src n (lengthBytes (xs.map List.length) ++ (xs.getD []).flatMap bytes) xs
      (arrayDecodeBinary src type ofMemory element) := by
  refine (reads_uint32 _).bind ?_
  cases xs with
  | none => exact reads_pure none
  | some xs =>
    obtain ⟨hword, hsigned⟩ := signedLength_some hlen
    simp only [Option.map_some, Option.getD_some] at *
    by_cases hnil : xs.length = 0
    · rw [List.length_eq_zero_iff.mp hnil]
      exact reads_pure (some [])
    · rw [if_neg (by omega), hword]
      obtain ⟨hle, hlen⟩ := le_length_flatMap hsize
      have hneed : ∀ c : Ctx, At src c.pos (xs.flatMap bytes) →
          need src (type.memSize * xs.length / 32) c = .done () c := fun c hat => by
        have hbound := hat.le_length_of_pos (by omega)
        exact if_pos (by omega)
      intro c hat hdepth
      rw [bind_done (hneed c hat)]
      cases hover : type.overlayable with
      | true => exact reads_copied (by omega) (hmem hover) c hat hdepth
      | false => exact (reads_times (helement hover)).map c hat hdepth

/-! ## Strings and dimensions -/

/-- A string, with the null string and the empty one told apart. -/
theorem reads_string (hT : StandardTypes T) {s : UAString} (hs : stringFits s = true) :
    Reads src n (stringBytes s) s (stringDecodeBinary src T) := by
  have hsize : (T.get (DataTypes.builtin .byte)).memSize = 1 := hT.memSize .byte rfl
  have hread : Reads src n (lengthBytes (s.map List.length) ++ (s.getD []).flatMap fun b => [b]) s
      (stringDecodeBinary src T) := by
    refine reads_array (fun b => [b]) s (of_decide_eq_true hs) (fun b _ => ?_)
      (fun _ b _ => ?_) fun _ b _ => ?_
    · rw [hsize, List.length_singleton]
      exact ⟨by decide, by decide⟩
    · rw [hsize]
      exact ⟨rfl, uint8_ofLE b⟩
    · exact reads_byte b
  have hsingle : (s.getD []).flatMap (fun b => [b]) = s.getD [] := by simp
  rwa [hsingle] at hread

/-- The dimensions of an array. -/
theorem reads_dimensions (hT : StandardTypes T) {dimensions : List UInt32}
    (hlen : dimensions.length ≤ int32Max) :
    Reads src n (dimensionsBytes dimensions) (some dimensions) (dimensionsDecodeBinary src T) := by
  have hsize : (T.get (DataTypes.builtin .int32)).memSize = 4 := hT.memSize .int32 rfl
  refine reads_array (fun d => leBytes 4 d.toNat) (some dimensions) hlen (fun d _ => ?_)
    (fun _ d _ => ?_) fun _ d _ => ?_
  · rw [hsize, leBytes_length]
    exact ⟨by decide, by decide⟩
  · rw [hsize]
    exact ⟨leBytes_length 4 _, uint32_ofLE d⟩
  · exact reads_uint32 d

/-! ## Identifiers and names -/

/-- A Guid. -/
theorem reads_guid (g : Guid) : Reads src n g.memory g (guidDecodeBinary src) := by
  have hparts : Reads src n (leBytes 4 g.data1.toNat ++ (leBytes 2 g.data2.toNat ++
      leBytes 2 g.data3.toNat)) (g.data1, g.data2, g.data3)
      (accum (uint32DecodeBinary src) fun data1 =>
        accum (uint16DecodeBinary src) fun data2 =>
          accum (uint16DecodeBinary src) fun data3 => pure (data1, data2, data3)) :=
    (reads_uint32 _).accum ((reads_uint16 _).accum ((reads_uint16 _).accum_pure rfl))
  have hdata4 : Reads src n (leBytes 8 g.data4.toNat) g
      ((fun data4 => (⟨g.data1, g.data2, g.data3, UInt64.ofNat (ofLE data4)⟩ : Guid)) <$>
        fixedDecodeBinary src 8) := by
    have h : Reads src n (leBytes 8 g.data4.toNat) _
        ((fun data4 => (⟨g.data1, g.data2, g.data3, UInt64.ofNat (ofLE data4)⟩ : Guid)) <$>
          fixedDecodeBinary src 8) := reads_memory (by decide) (leBytes_length 8 _) _
    rwa [uint64_ofLE] at h
  have hneed : ∀ c : Ctx, At src c.pos (leBytes 8 g.data4.toNat) → c.depth ≤ n →
      need src 8 c = .done () c := by
    intro c hat _
    have hbound := hat.le_length_of_pos (by rw [leBytes_length]; decide)
    rw [leBytes_length] at hbound
    exact if_pos hbound
  refine (hparts.accumGuard hneed hdata4).congr ?_
  simp only [Guid.memory, List.append_assoc]

/-- Flags of an ExpandedNodeId that the decoder of the NodeId masks out again. -/
def KeepsForm (e : UInt8) : Prop :=
  nodeIdForm (e ||| 0) = 0 ∧ nodeIdForm (e ||| 1) = 1 ∧ nodeIdForm (e ||| 2) = 2 ∧
    nodeIdForm (e ||| 3) = 3 ∧ nodeIdForm (e ||| 4) = 4 ∧ nodeIdForm (e ||| 5) = 5

/-- The three numeric forms: the shortest one that holds both numbers. -/
theorem reads_numericNodeId {e : UInt8} (he : KeepsForm e) (ns : UInt16) (id : UInt32) :
    Reads src n (nodeIdHead ⟨ns, .numeric id⟩ e) ⟨ns, .numeric id⟩ (nodeIdDecodeBinary src T) := by
  obtain ⟨hzero, hone, htwo, -⟩ := he
  simp only [nodeIdHead]
  split
  · refine (reads_byte _).bind ?_
    rw [htwo]
    exact ((reads_uint16 ns).accum ((reads_uint32 id).accum_pure rfl)).congr (by simp)
  · rename_i hlong
    obtain ⟨hid, hns⟩ := not_or.mp hlong
    unfold uint16Max at hid
    unfold byteMax at hns
    split
    · -- both numbers fit into the shorter form
      have hns : ns.toUInt8.toUInt16 = ns := by
        apply UInt16.toNat_inj.mp
        simp only [UInt8.toNat_toUInt16, UInt16.toNat_toUInt8]
        omega
      have hid : id.toUInt16.toUInt32 = id := by
        apply UInt32.toNat_inj.mp
        simp only [UInt16.toNat_toUInt32, UInt32.toNat_toUInt16]
        omega
      refine (reads_byte _).bind ?_
      rw [hone]
      exact ((reads_byte ns.toUInt8).accum ((reads_uint16 id.toUInt16).accum_pure
        (by rw [hns, hid]))).congr (by simp)
    · rename_i hmiddle
      obtain ⟨hid, hns⟩ := not_or.mp hmiddle
      unfold byteMax at hid
      have hns : ns = 0 := by
        rw [gt_iff_lt, UInt16.lt_iff_toNat_lt] at hns
        exact UInt16.toNat_inj.mp (Nat.eq_zero_of_not_pos hns)
      have hid : id.toUInt8.toUInt32 = id := by
        apply UInt32.toNat_inj.mp
        simp only [UInt8.toNat_toUInt32, UInt32.toNat_toUInt8]
        omega
      refine (reads_byte _).bind ?_
      have hread : Reads src n [id.toUInt8] _
          ((fun id => (⟨0, .numeric id.toUInt32⟩ : NodeId)) <$> byteDecodeBinary src) :=
        (reads_byte _).map
      rw [hid] at hread
      rw [hzero, hns]
      exact hread

/-- A NodeId with the flags of an ExpandedNodeId in its first byte. -/
theorem reads_flaggedNodeId (hT : StandardTypes T) {e : UInt8} (he : KeepsForm e) {id : NodeId}
    (hid : (nodeIdRest T id).ok = true) :
    Reads src n (nodeIdHead id e ++ (nodeIdRest T id).bytes) id (nodeIdDecodeBinary src T) := by
  have hnumeric := he
  obtain ⟨-, -, -, hthree, hfour, hfive⟩ := he
  obtain ⟨ns, identifier⟩ := id
  -- the form is the only thing in the low bits of the first byte
  cases identifier with
  | numeric id => exact (reads_numericNodeId hnumeric ns id).congr (List.append_nil _).symm
  | string s =>
    have hs : Reads src n (stringBytes s) s (stringDecodeBinary src T) :=
      reads_string hT ((stringPlan_ok s).symm.trans hid)
    have hbytes : nodeIdHead ⟨ns, .string s⟩ e ++ (nodeIdRest T ⟨ns, .string s⟩).bytes =
        [e ||| 3] ++ (leBytes 2 ns.toNat ++ stringBytes s) := by simp [nodeIdHead, nodeIdRest]
    rw [hbytes]
    refine (reads_byte _).bind ?_
    rw [hthree]
    exact (reads_uint16 ns).accum (hs.accum_pure rfl)
  | guid g =>
    have hbytes : nodeIdHead ⟨ns, .guid g⟩ e ++ (nodeIdRest T ⟨ns, .guid g⟩).bytes =
        [e ||| 4] ++ (leBytes 2 ns.toNat ++ g.memory) := by simp [nodeIdHead, nodeIdRest]
    rw [hbytes]
    refine (reads_byte _).bind ?_
    rw [hfour]
    exact (reads_uint16 ns).accum ((reads_guid g).accum_pure rfl)
  | byteString s =>
    have hs : Reads src n (stringBytes s) s (stringDecodeBinary src T) :=
      reads_string hT ((stringPlan_ok s).symm.trans hid)
    have hbytes : nodeIdHead ⟨ns, .byteString s⟩ e ++ (nodeIdRest T ⟨ns, .byteString s⟩).bytes =
        [e ||| 5] ++ (leBytes 2 ns.toNat ++ stringBytes s) := by simp [nodeIdHead, nodeIdRest]
    rw [hbytes]
    refine (reads_byte _).bind ?_
    rw [hfive]
    exact (reads_uint16 ns).accum (hs.accum_pure rfl)

/-- A NodeId: the flags are clear. -/
theorem reads_nodeId (hT : StandardTypes T) {id : NodeId} (hid : (nodeIdRest T id).ok = true) :
    Reads src n (nodeIdHead id 0 ++ (nodeIdRest T id).bytes) id (nodeIdDecodeBinary src T) :=
  reads_flaggedNodeId hT ⟨rfl, rfl, rfl, rfl, rfl, rfl⟩ hid

/-- A QualifiedName. -/
theorem reads_qualifiedName (hT : StandardTypes T) {name : QualifiedName}
    (hname : (stringPlan T name.name).ok = true) :
    Reads src n (leBytes 2 name.namespaceIndex.toNat ++ (stringPlan T name.name).bytes) name
      (qualifiedNameDecodeBinary src T) := by
  have hs : Reads src n (stringBytes name.name) name.name (stringDecodeBinary src T) :=
    reads_string hT ((stringPlan_ok name.name).symm.trans hname)
  refine Reads.congr ((reads_uint16 _).accum (hs.accum_pure rfl)) ?_
  simp

/-- A string with a bit in the mask. -/
theorem reads_maskedString (hT : StandardTypes T) {c : Bool} {s : UAString} (hc : c = s.isSome)
    (hs : (if s.isSome then stringPlan T s else .empty).ok = true) :
    Reads src n (if s.isSome then stringPlan T s else .empty).bytes s
      (whenSet c (stringDecodeBinary src T)) := by
  subst hc
  have h : Reads src n (if s.isSome then stringBytes s else []) s
      (whenSet s.isSome (stringDecodeBinary src T)) := Reads.whenSet
    (fun hsome => reads_string hT (by rwa [if_pos hsome, stringPlan_ok] at hs))
    (fun hnone => Option.isNone_iff_eq_none.mp (by simpa using hnone))
  refine h.congr ?_
  cases s <;> simp

/-- A LocalizedText. -/
theorem reads_localizedText (hT : StandardTypes T) {text : LocalizedText}
    (htext : (localizedTextRest T text).ok = true) :
    Reads src n ([localizedTextMask text] ++ (localizedTextRest T text).bytes) text
      (localizedTextDecodeBinary src T) := by
  obtain ⟨locale, text⟩ := text
  have hmask : ∀ a b : Bool,
      (((if a then localizedTextMaskLocale else 0) ||| (if b then localizedTextMaskText else 0)) &&&
        localizedTextMaskLocale != 0) = a ∧
      (((if a then localizedTextMaskLocale else 0) ||| (if b then localizedTextMaskText else 0)) &&&
        localizedTextMaskText != 0) = b := by decide
  obtain ⟨hlocaleBit, htextBit⟩ := hmask locale.isSome text.isSome
  simp only [localizedTextRest, Plan.ok_both, Bool.and_eq_true] at htext
  refine Reads.congr ((reads_byte _).accum
    ((reads_maskedString hT hlocaleBit htext.1).accum
      ((reads_maskedString hT htextBit htext.2).accum_pure rfl))) ?_
  simp only [localizedTextMask, localizedTextRest, Plan.bytes_both]

/-! ## Objects of leaf types -/

/-- The leaf kinds whose objects come back as they were: an ExpandedNodeId does not. -/
def DataTypeKind.isPlain (kind : DataTypeKind) : Bool := kind.isLeaf && kind != .expandedNodeId

theorem DataTypeKind.isLeaf_of_isPlain {kind : DataTypeKind} (h : kind.isPlain = true) :
    kind.isLeaf = true := (Bool.and_eq_true _ _ ▸ h).1

/-- A Boolean is 0 or 1. -/
def Value.isNormal (kind : DataTypeKind) : Value → Bool
  | .byte v => kind != .boolean || decide (v ≤ 1)
  | _ => true

/-- An object of a plain kind comes back, under every type of its kind. -/
theorem reads_value (hT : StandardTypes T) {kind : DataTypeKind} {v : Value}
    (hkind : kind.isPlain = true) (hv : v.isOfKind kind = true) (hnormal : v.isNormal kind = true)
    (hok : (v.plan T).ok = true) (fuel : Nat) (type : DataTypeRef) :
    Reads src n (v.plan T).bytes v (decodeBinaryJumpTable src T (fuel + 1) kind type) := by
  rw [Value.plan, Plan.bytes_seq, Plan.bytes_chunk]
  simp only [Value.plan, Plan.ok_seq, Plan.ok_chunk, Bool.true_and] at hok
  unfold Value.isOfKind at hv
  -- the kinds that share a decoder, one after the other
  split at hv
  case h_1 v =>
    have hv : v ≤ 1 := by simpa [Value.isNormal] using hnormal
    exact (reads_boolean hv).map
  case h_2 v | h_3 v => exact (reads_byte v).map
  case h_4 v | h_5 v => exact ((reads_uint16 v).map).congr (List.append_nil _).symm
  case h_6 v | h_7 v | h_8 v | h_9 v =>
    exact ((reads_uint32 v).map).congr (List.append_nil _).symm
  case h_10 v | h_11 v | h_12 v | h_13 v =>
    exact ((reads_uint64 v).map).congr (List.append_nil _).symm
  case h_14 s | h_15 s | h_16 s =>
    exact ((reads_string hT ((stringPlan_ok s).symm.trans hok)).map).congr
      (stringPlan_bytes s).symm
  case h_17 g => exact ((reads_guid g).map).congr (List.append_nil _).symm
  case h_18 id => exact (reads_nodeId hT hok).map
  case h_19 => cases hkind
  case h_20 name => exact (reads_qualifiedName hT hok).map
  case h_21 text => exact (reads_localizedText hT hok).map
  case h_22 => cases hv

/-- A Guid is read back from the memory it lies in. -/
theorem guid_ofMemory (g : Guid) : Guid.ofMemory g.memory = g := by
  obtain ⟨data1, data2, data3, data4⟩ := g
  simp [Guid.ofMemory, Guid.memory, List.drop_append, List.take_of_length_le,
    List.drop_of_length_le]

/-- An object that is copied from memory. -/
theorem ofMemory_plan {kind : DataTypeKind} {v : Value} (hv : v.isOfKind kind = true)
    (h : kind.overlayable = true) : Value.ofMemory kind (v.plan T).bytes = v := by
  unfold Value.isOfKind at hv
  split at hv
  case h_1 | h_2 | h_3 | h_4 | h_5 | h_6 | h_7 | h_8 | h_9 | h_10 | h_11 | h_12 | h_13 =>
    simp [Value.plan, Value.head, Value.rest, Value.ofMemory]
  case h_17 g => simp [Value.plan, Value.head, Value.rest, Value.ofMemory, guid_ofMemory]
  case h_14 | h_15 | h_16 | h_18 | h_19 | h_20 | h_21 => cases h
  case h_22 => cases hv

/-- The check in front of an array asks for no more than its elements take. -/
theorem memSize_le_plan {kind : DataTypeKind} {v : Value} (hv : v.isOfKind kind = true) :
    builtinMemSize kind ≤ 32 * (v.plan T).bytes.length ∧ 0 < (v.plan T).bytes.length := by
  -- even the shortest NodeId takes two bytes
  have hhead : ∀ (id : NodeId) (e : UInt8), 2 ≤ (nodeIdHead id e).length := by
    rintro ⟨ns, identifier⟩ e
    cases identifier with
    | numeric id =>
      simp only [nodeIdHead]
      split
      · simp
      · split <;> simp
    | _ => simp [nodeIdHead]
  rw [Value.plan, Plan.bytes_seq, Plan.bytes_chunk, List.length_append]
  unfold Value.isOfKind at hv
  split at hv
  case h_14 s | h_15 s | h_16 s =>
    simp only [Value.head, Value.rest, stringPlan_bytes, stringBytes_length, stringCalcSizeBinary,
      builtinMemSize, List.length_nil]
    omega
  case h_18 id =>
    have := hhead id 0
    simp only [Value.head, builtinMemSize]
    omega
  case h_19 id =>
    have := hhead id.nodeId (expandedNodeIdMask id)
    simp only [Value.head, builtinMemSize]
    omega
  case h_20 | h_21 =>
    simp only [Value.head, builtinMemSize, leBytes_length, List.length_singleton]
    omega
  case h_22 => cases hv
  all_goals simp [Value.head, Value.rest, builtinMemSize]

/-! ## Variants -/

/-- An array that is not refused fits, and so do its elements where they are encoded one by one. -/
theorem ok_of_arrayPlan {type : DataType} {length : Option Nat} {content : Bytes}
    {elements : List Plan} (h : (arrayPlan type length content elements).ok = true) :
    length.getD 0 ≤ int32Max ∧
      (type.overlayable = false → length.getD 0 ≠ 0 → ∀ p ∈ elements, p.ok = true) := by
  unfold arrayPlan at h
  split at h
  · cases h
  · rename_i hlen
    refine ⟨Nat.le_of_not_lt hlen, fun hover hne => ?_⟩
    simp only [Plan.ok_seq, Plan.ok_chunk, Bool.true_and, if_neg hne, hover, Bool.false_eq_true,
      if_false] at h
    exact (Plan.ok_all elements).mp h

/-- The data are as a decoder of objects of kind `kind` leaves them. -/
def Value.isNormalData (T : DataTypes) (kind : DataTypeKind) : Value → Bool
  | .array xs => (T.get (DataTypes.builtin kind)).overlayable || xs.all (Value.isNormal kind)
  | v => v.isNormal kind

/-- A Variant that is empty, or holds a scalar or an array of a plain type. Only an array has
dimensions. -/
inductive Variant.IsPlain (T : DataTypes) : Variant → Prop where
  | empty {dimensions : Option (List UInt32)} (hdimensions : dimensions.getD [] = []) :
      IsPlain T ⟨none, .null, dimensions⟩
  | value {kind : DataTypeKind} {data : Value} {dimensions : Option (List UInt32)}
      (hkind : kind.isPlain = true) (hdata : data.isDataOf kind = true)
      (hnormal : data.isNormalData T kind = true)
      (hdimensions : data.isArray = false → dimensions.getD [] = []) :
      IsPlain T ⟨some (DataTypes.builtin kind), data, dimensions⟩

theorem Variant.IsPlain.isLeaf {v : Variant} (h : v.IsPlain T) : v.IsLeaf := by
  cases h with
  | empty => exact .empty _ _
  | value hkind hdata => exact .value _ (DataTypeKind.isLeaf_of_isPlain hkind) hdata

/-- An array of length zero as a NULL pointer. -/
def nullIfEmpty {α : Type} (xs : Option (List α)) : Option (List α) :=
  if (xs.getD []).isEmpty then none else xs

/-- An empty list is not told apart from a null one. -/
theorem nullIfEmpty_of_nil {α : Type} {xs : Option (List α)} (h : xs.getD [] = []) :
    nullIfEmpty xs = none := by
  rw [nullIfEmpty, h, List.isEmpty_nil, if_pos rfl]

theorem nullIfEmpty_of_ne_nil {α : Type} {xs : Option (List α)} (h : xs.getD [] ≠ []) :
    nullIfEmpty xs = some (xs.getD []) := by
  cases xs with
  | none => exact absurd rfl h
  | some ys => exact if_neg fun hempty => h (List.isEmpty_iff.mp hempty)

/-- The elements are all that counts. -/
theorem nullIfEmpty_congr {α : Type} {xs ys : Option (List α)} (h : xs.getD [] = ys.getD []) :
    nullIfEmpty xs = nullIfEmpty ys := by
  by_cases hnil : xs.getD [] = []
  · rw [nullIfEmpty_of_nil hnil, nullIfEmpty_of_nil (h ▸ hnil)]
  · rw [nullIfEmpty_of_ne_nil hnil, nullIfEmpty_of_ne_nil (h ▸ hnil), h]

theorem getD_map_list {α β : Type} (f : α → β) (xs : Option (List α)) :
    (xs.map (List.map f)).getD [] = (xs.getD []).map f := by
  cases xs <;> rfl

/-- Dimensions of length zero are not written. -/
def VariantOf.trimmed {V : Type} (v : VariantOf V) : VariantOf V :=
  { v with arrayDimensions := nullIfEmpty v.arrayDimensions }

/-- An array of leaf values, copied or element by element. -/
theorem reads_values (hT : StandardTypes T) {kind : DataTypeKind} {data : Value}
    (hkind : kind.isPlain = true) (hdata : data.isDataOf kind = true)
    (hnormal : data.isNormalData T kind = true) (harray : data.isArray = true)
    (hok : (valuesPlan T (DataTypes.builtin kind) data).ok = true) (fuel : Nat) :
    Reads src n (valuesPlan T (DataTypes.builtin kind) data).bytes data
      (valuesDecodeBinary src T (decodeBinaryJumpTable src T (fuel + 1))
        (DataTypes.builtin kind)) := by
  have hbuiltin := DataTypeKind.isBuiltin_of_isLeaf (DataTypeKind.isLeaf_of_isPlain hkind)
  have htype := T.get_builtin hbuiltin
  cases data with
  | null =>
    have hread : Reads src n (lengthBytes none ++ []) none
        (arrayDecodeBinary src (T.get (DataTypes.builtin kind)) (Value.ofMemory kind)
          (decodeBinaryJumpTable src T (fuel + 1) kind (DataTypes.builtin kind))) :=
      reads_array (fun v => (v.plan T).bytes) none (Nat.zero_le _)
        (fun _ h => absurd h List.not_mem_nil) (fun _ _ h => absurd h List.not_mem_nil)
        (fun _ _ h => absurd h List.not_mem_nil)
    rw [valuesDecodeBinary, htype]
    exact hread.map
  | array xs =>
    have hall : ∀ x ∈ xs, x.isOfKind kind = true := List.all_eq_true.mp hdata
    obtain ⟨hlen, helements⟩ := ok_of_arrayPlan hok
    have hread : Reads src n (lengthBytes ((some xs).map List.length) ++
        xs.flatMap fun x => (x.plan T).bytes) (some xs)
        (arrayDecodeBinary src (T.get (DataTypes.builtin kind)) (Value.ofMemory kind)
          (decodeBinaryJumpTable src T (fuel + 1) kind (DataTypes.builtin kind))) := by
      refine reads_array (fun v => (v.plan T).bytes) (some xs) hlen (fun x hx => ?_)
        (fun hover x hx => ?_) fun hover x hx => ?_
      · rw [hT.memSize kind hbuiltin]
        exact memSize_le_plan (hall x hx)
      · have hkind := hT.overlayable kind hbuiltin hover
        rw [hT.memSize kind hbuiltin]
        exact ⟨(memory_eq (hall x hx) hkind).2, ofMemory_plan (hall x hx) hkind⟩
      · have hnormal : x.isNormal kind = true := by
          rw [Value.isNormalData, hover, Bool.false_or] at hnormal
          exact List.all_eq_true.mp hnormal x hx
        -- the plan of an array without elements says nothing of them
        have hne : xs.length ≠ 0 := fun h => by
          rw [List.length_eq_zero_iff.mp h] at hx
          exact absurd hx List.not_mem_nil
        exact reads_value hT hkind (hall x hx) hnormal
          (helements hover hne _ (List.mem_map_of_mem hx)) fuel _
    have hbytes : (valuesPlan T (DataTypes.builtin kind) (.array xs)).bytes =
        lengthBytes (some xs.length) ++ xs.flatMap fun x => (x.plan T).bytes := by
      refine arrayPlan_bytes (fun h => ?_) (List.flatMap_map ..)
      rw [List.length_eq_zero_iff.mp h, List.flatMap_nil]
    rw [valuesDecodeBinary, htype, hbytes]
    exact hread.map
  | _ => cases harray

/-- The encoding byte tells kind, array bit and dimensions bit apart. -/
theorem variantEncodingByte_fields {kind : DataTypeKind} (hkind : kind.isBuiltin = true)
    (isArray dimensions : Bool) :
    variantEncodingByte kind isArray dimensions ≠ 0 ∧
      variantTypeKind (variantEncodingByte kind isArray dimensions) = some kind ∧
      (variantEncodingByte kind isArray dimensions &&& variantArrayMask != 0) = isArray ∧
      (isArray && variantEncodingByte kind isArray dimensions &&& variantDimensionsMask != 0) =
        (isArray && dimensions) := by
  cases kind <;> revert hkind isArray dimensions <;> decide

/-- Dimensions come back if there are any. -/
theorem reads_trimmedDimensions (hT : StandardTypes T) {type : Option DataTypeRef} {data : Value}
    {dimensions : Option (List UInt32)}
    (hscalar : data.isArray = false → dimensions.getD [] = [])
    (hok : (if hasDimensions ⟨type, data, dimensions⟩ then dimensionsPlan T (dimensions.getD [])
      else .empty).ok = true) :
    Reads src n (if hasDimensions ⟨type, data, dimensions⟩ then
        dimensionsPlan T (dimensions.getD []) else .empty).bytes
      (nullIfEmpty dimensions) (whenSet (data.isArray && decide ((dimensions.getD []).length > 0))
        (dimensionsDecodeBinary src T)) := by
  by_cases hnil : dimensions.getD [] = []
  · have hnone : hasDimensions ⟨type, data, dimensions⟩ = false := by simp [hasDimensions, hnil]
    rw [nullIfEmpty_of_nil hnil, hnone, hnil]
    simp only [List.length_nil, gt_iff_lt, Nat.lt_irrefl, decide_false, Bool.and_false]
    exact reads_pure none
  · have harray : data.isArray = true := by
      cases h : data.isArray with
      | true => rfl
      | false => exact absurd (hscalar h) hnil
    have hlen : (dimensions.getD []).length > 0 := List.length_pos_iff.mpr hnil
    have hsome : hasDimensions ⟨type, data, dimensions⟩ = true := by
      simp [hasDimensions, harray, hlen]
    rw [hsome] at hok ⊢
    rw [nullIfEmpty_of_ne_nil hnil, harray, decide_eq_true hlen, if_pos rfl, dimensionsPlan_bytes]
    rw [if_pos rfl, dimensionsPlan_ok] at hok
    exact reads_dimensions hT (of_decide_eq_true hok)

/-- A Variant comes back. -/
theorem reads_variant (hT : StandardTypes T) {v : Variant} (hv : v.IsPlain T)
    (hok : (variantPlan T v).ok = true) (hn : n ≤ encodingMaxRecursion) (fuel : Nat) :
    Reads src n (variantPlan T v).bytes v.trimmed
      (variantDecodeBinary src T (decodeBinaryJumpTable src T (fuel + 1))) := by
  cases hv with
  | @empty dimensions hdimensions =>
    have htrim : VariantOf.trimmed (⟨none, .null, dimensions⟩ : Variant) = default := by
      rw [VariantOf.trimmed, nullIfEmpty_of_nil hdimensions]
      rfl
    rw [htrim]
    intro c hat hdepth
    rw [variantDecodeBinary, bind_done (reads_byte 0 c hat hdepth), if_pos rfl]
    rfl
  | @value kind data dimensions hkind hdata hnormal hdimensions =>
    have hbuiltin := DataTypeKind.isBuiltin_of_isLeaf (DataTypeKind.isLeaf_of_isPlain hkind)
    obtain ⟨hzero, htype, harray, hdims⟩ := variantEncodingByte_fields hbuiltin data.isArray
      (decide ((dimensions.getD []).length > 0))
    have hscalar : ¬ (kind = .variant ∧ data.isArray = false) := by
      rintro ⟨rfl, -⟩
      cases hkind
    simp only [variantPlan, Plan.ok_seq, Plan.ok_chunk, Bool.true_and, variantRest,
      Bool.and_eq_true] at hok
    have hcontent : Reads src (n + 1)
        (if data.isArray then valuesPlan T (DataTypes.builtin kind) data else data.plan T).bytes
        (DataTypes.builtin kind, data)
        (variantDecodeBinaryContent src T (decodeBinaryJumpTable src T (fuel + 1)) kind
          data.isArray) := by
      -- the array bit decides how the content is read
      cases hdata' : data.isArray with
      | true =>
        rw [hdata'] at hok
        exact (reads_values hT hkind hdata hnormal hdata' hok.1 fuel).map
      | false =>
        rw [hdata'] at hok
        have hextension : kind ≠ .extensionObject := by
          rintro rfl
          cases hkind
        have hnormal : data.isNormal kind = true := by
          cases data <;> first | exact hnormal | cases hdata'
        have hread : Reads src (n + 1) (data.plan T).bytes data (decodeBinaryJumpTable src T
            (fuel + 1) kind (DataTypes.builtin kind)) :=
          reads_value hT hkind (isOfKind_of_isDataOf hdata hdata') hnormal hok.1 fuel _
        simp only [variantDecodeBinaryContent, Bool.false_eq_true, if_false, if_pos hextension]
        exact hread.map
    have hhead : variantHead T ⟨some (DataTypes.builtin kind), data, dimensions⟩ =
        [variantEncodingByte kind data.isArray (decide ((dimensions.getD []).length > 0))] := by
      simp only [variantHead, T.get_builtin hbuiltin]
    rw [variantPlan, Plan.bytes_seq, Plan.bytes_chunk, hhead, variantDecodeBinary]
    refine (reads_byte _).bind ?_
    simp only [if_neg hzero, htype, harray, if_neg hscalar, hdims]
    have hrest := hcontent.accum (f := fun content =>
      accum (whenSet (data.isArray && decide ((dimensions.getD []).length > 0))
        (dimensionsDecodeBinary src T)) fun dimensions =>
        pure (⟨some content.1, content.2, dimensions⟩ : Variant))
      ((reads_trimmedDimensions hT hdimensions hok.2).accum_pure rfl)
    exact ((reads_checkRecursion hn).bind hrest.deeper).congr (by simp [variantRest])

/-! ## DataValues -/

/-- The Variant is plain, members that are not there are zero, and the picoseconds are in
range. -/
structure DataValueOf.IsPlain (T : DataTypes) (d : DataValue) : Prop where
  value : d.hasValue = true → Variant.IsPlain T d.value
  noValue : d.hasValue = false → d.value = default
  noStatus : d.hasStatus = false → d.status = 0
  noSourceTimestamp : d.hasSourceTimestamp = false → d.sourceTimestamp = 0
  noSourcePicoseconds : d.hasSourcePicoseconds = false → d.sourcePicoseconds = 0
  noServerTimestamp : d.hasServerTimestamp = false → d.serverTimestamp = 0
  noServerPicoseconds : d.hasServerPicoseconds = false → d.serverPicoseconds = 0
  sourcePicoseconds : d.sourcePicoseconds ≤ maxPicoSeconds
  serverPicoseconds : d.serverPicoseconds ≤ maxPicoSeconds

theorem DataValueOf.IsPlain.isLeaf {d : DataValue} (h : d.IsPlain T) : d.IsLeaf :=
  fun hvalue => (h.value hvalue).isLeaf

/-- Dimensions of length zero are not written. -/
def DataValueOf.trimmed {V : Type} (d : DataValueOf V) : DataValueOf V :=
  { d with value := d.value.trimmed }

/-- The bits of the encoding mask. -/
theorem dataValueMask_fields (d : DataValue) :
    (dataValueMask d &&& 0x01 != 0) = d.hasValue ∧ (dataValueMask d &&& 0x02 != 0) = d.hasStatus ∧
      (dataValueMask d &&& 0x04 != 0) = d.hasSourceTimestamp ∧
      (dataValueMask d &&& 0x08 != 0) = d.hasServerTimestamp ∧
      (dataValueMask d &&& 0x10 != 0) = d.hasSourcePicoseconds ∧
      (dataValueMask d &&& 0x20 != 0) = d.hasServerPicoseconds := by
  have hbits : ∀ a b c d e f : Bool,
      let mask := maskBit a 0x01 ||| maskBit b 0x02 ||| maskBit c 0x04 ||| maskBit d 0x08 |||
        maskBit e 0x10 ||| maskBit f 0x20
      (mask &&& 0x01 != 0) = a ∧ (mask &&& 0x02 != 0) = b ∧ (mask &&& 0x04 != 0) = c ∧
        (mask &&& 0x08 != 0) = d ∧ (mask &&& 0x10 != 0) = e ∧ (mask &&& 0x20 != 0) = f := by
    decide
  exact hbits ..

/-- Picoseconds in range are left as they are. -/
theorem clampPicoSeconds_of_le {p : UInt16} (h : p ≤ maxPicoSeconds) : clampPicoSeconds p = p :=
  if_neg (UInt16.not_lt.mpr h)

/-- A DataValue comes back. -/
theorem reads_dataValue (hT : StandardTypes T) {d : DataValue} (hd : d.IsPlain T)
    (hok : d.hasValue = true → (variantPlan T d.value).ok = true) (hn : n < encodingMaxRecursion)
    (fuel : Nat) :
    Reads src n (dataValueBytes T d) d.trimmed
      (dataValueDecodeBinary src T (decodeBinaryJumpTable src T (fuel + 1))) := by
  obtain ⟨hvalue, hstatus, hsource, hserver, hsourcePico, hserverPico⟩ := dataValueMask_fields d
  have hread : Reads src (n + 1) (if d.hasValue then (variantPlan T d.value).bytes else [])
      d.value.trimmed (whenSet d.hasValue
        (variantDecodeBinary src T (decodeBinaryJumpTable src T (fuel + 1)))) :=
    Reads.whenSet (fun h => reads_variant hT (hd.value h) (hok h) hn fuel) fun h => by
      rw [hd.noValue h]
      rfl
  rw [dataValueBytes, dataValueDecodeBinary]
  refine (reads_byte _).bind ?_
  simp only [hvalue, hstatus, hsource, hserver, hsourcePico, hserverPico]
  refine Reads.congr ((reads_checkRecursion (Nat.le_of_lt hn)).bind (Reads.deeper (hread.accum
    ((Reads.whenSet (fun _ => reads_uint32 d.status) hd.noStatus).accum
      ((Reads.whenSet (fun _ => reads_uint64 d.sourceTimestamp) hd.noSourceTimestamp).accum
        ((Reads.whenSet (fun _ => reads_uint16 d.sourcePicoseconds) hd.noSourcePicoseconds).accum
          ((Reads.whenSet (fun _ => reads_uint64 d.serverTimestamp) hd.noServerTimestamp).accum
            ((Reads.whenSet (fun _ => reads_uint16 d.serverPicoseconds)
              hd.noServerPicoseconds).accum_pure ?_)))))))) ?_
  · rw [clampPicoSeconds_of_le hd.sourcePicoseconds, clampPicoSeconds_of_le hd.serverPicoseconds]
    rfl
  · rfl

/-! ## Calls from outside -/

/-- Where the bytes `bs` stand, `UA_decodeBinary` reads `a` and moves the offset behind them. -/
def ReadsAt (src bs : Bytes) (a : α) (x : Routine ErrorCode Nat α) : Prop :=
  ∀ p : Nat, At src p bs → x p = .done a (p + bs.length)

/-- A call from outside starts at level 0, wherever it is made. -/
theorem Reads.readsAt {a : α} {x : Dec α} (h : Reads src 0 bs a x) :
    ReadsAt src bs a (uaDecodeBinary x) := by
  intro p hat
  rw [uaDecodeBinary, h ⟨p, 0⟩ hat (Nat.le_refl 0)]

theorem readsAt_uaByte (v : UInt8) : ReadsAt src [v] v (uaByteDecodeBinary src) :=
  (reads_byte v).readsAt

theorem readsAt_uaUInt16 (v : UInt16) :
    ReadsAt src (leBytes 2 v.toNat) v (uaUInt16DecodeBinary src) := (reads_uint16 v).readsAt

theorem readsAt_uaUInt32 (v : UInt32) :
    ReadsAt src (leBytes 4 v.toNat) v (uaUInt32DecodeBinary src) := (reads_uint32 v).readsAt

theorem readsAt_uaUInt64 (v : UInt64) :
    ReadsAt src (leBytes 8 v.toNat) v (uaUInt64DecodeBinary src) := (reads_uint64 v).readsAt

theorem readsAt_uaGuid (g : Guid) : ReadsAt src g.memory g (uaGuidDecodeBinary src) :=
  (reads_guid g).readsAt

theorem readsAt_uaString (hT : StandardTypes T) {s : UAString} (hs : stringFits s = true) :
    ReadsAt src (stringBytes s) s (uaStringDecodeBinary src T) := (reads_string hT hs).readsAt

/-! A network message is decoded without custom types. No plan looks a type up by its encoding
id, so it is the same without them. -/

theorem StandardTypes.withoutCustomTypes (hT : StandardTypes T) :
    StandardTypes T.withoutCustomTypes := ⟨hT.memSize, hT.overlayable⟩

theorem Variant.isPlain_withoutCustomTypes {v : Variant} :
    v.IsPlain T.withoutCustomTypes ↔ v.IsPlain T := by
  constructor
  · rintro (⟨hdimensions⟩ | ⟨hkind, hdata, hnormal, hdimensions⟩)
    · exact .empty hdimensions
    · exact .value hkind hdata hnormal hdimensions
  · rintro (⟨hdimensions⟩ | ⟨hkind, hdata, hnormal, hdimensions⟩)
    · exact .empty hdimensions
    · exact .value hkind hdata hnormal hdimensions

theorem DataValueOf.isPlain_withoutCustomTypes {d : DataValue} :
    d.IsPlain T.withoutCustomTypes ↔ d.IsPlain T := by
  constructor
  · intro h
    exact { h with value := fun hset => Variant.isPlain_withoutCustomTypes.mp (h.value hset) }
  · intro h
    exact { h with value := fun hset => Variant.isPlain_withoutCustomTypes.mpr (h.value hset) }

theorem variantPlan_withoutCustomTypes (v : Variant) :
    variantPlan T.withoutCustomTypes v = variantPlan T v := rfl

theorem dataValueBytes_withoutCustomTypes (d : DataValue) :
    dataValueBytes T.withoutCustomTypes d = dataValueBytes T d := rfl

/-- A Variant that is read by the network message code. -/
theorem readsAt_uaVariant (hT : StandardTypes T) {v : Variant} (hv : v.IsPlain T)
    (hok : (variantPlan T v).ok = true) :
    ReadsAt src (variantPlan T v).bytes v.trimmed (uaVariantDecodeBinary src T) := by
  rw [← variantPlan_withoutCustomTypes] at hok ⊢
  exact (reads_variant hT.withoutCustomTypes (Variant.isPlain_withoutCustomTypes.mpr hv) hok
    (Nat.zero_le _) _).readsAt

/-- A DataValue that is read by the network message code. -/
theorem readsAt_uaDataValue (hT : StandardTypes T) {d : DataValue} (hd : d.IsPlain T)
    (hok : d.hasValue = true → (variantPlan T d.value).ok = true) :
    ReadsAt src (dataValueBytes T d) d.trimmed (uaDataValueDecodeBinary src T) := by
  rw [← variantPlan_withoutCustomTypes] at hok
  rw [← dataValueBytes_withoutCustomTypes]
  exact (reads_dataValue hT.withoutCustomTypes (DataValueOf.isPlain_withoutCustomTypes.mpr hd) hok
    (by decide) _).readsAt

end OpenPubSub
