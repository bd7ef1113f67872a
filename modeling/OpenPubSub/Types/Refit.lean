import OpenPubSub.Types.Locality
import OpenPubSub.Types.RoundTrip

/-!
# Encoding what was decoded

Whatever bytes a value was read from, its own encoding takes no more of them.

- `Refits src P size x`: a value that `x` has read is as `P` says, and the cursor has moved by
  its `size` or more, inside the message. There is one lemma for every decoder of a plain type.
- `VariantOf.HoldsPlain` asks for the type of a Variant only.
- **`variantDecodeBinary_refits`**, `dataValueDecodeBinary_refits`: then the Variant can be
  encoded and read back, and is not longer than it was.
-/

namespace OpenPubSub

open Routine

variable {src : Bytes} {T : DataTypes} {α β : Type}

/-! ## The judgement -/

/-- The value has property `P`, and the cursor has passed its size. -/
def Refits (src : Bytes) (P : α → Prop) (size : α → Nat) (x : Dec α) : Prop :=
  ∀ s a t, x s = .done a t → P a ∧ Moved True src (size a) s t

/-- A success moves the cursor, whatever the fuel. -/
theorem Moves.moved {k : Nat} {x : Dec α} (hx : ∀ n, Moves True src n k x) {s t : Ctx} {a : α}
    (h : x s = .done a t) : Moved True src k s t := by
  have hs := hx _ s (Nat.lt_succ_self _)
  rw [h] at hs
  exact hs

/-- Two moves, for what is asked of both. -/
theorem Moved.join {k l m : Nat} {s t u : Ctx} (h : Moved True src k s t)
    (h' : Moved True src l t u) (hm : m ≤ k + l) : Moved True src m s u :=
  (h.trans h').weaken hm

/-- The cursor of a nested call. -/
theorem Moved.deeper {k : Nat} {s t : Ctx}
    (h : Moved True src k { s with depth := s.depth + 1 } t) :
    Moved True src k s { t with depth := t.depth - 1 } := by
  refine ⟨h.advance, h.inside, ?_⟩
  have hdepth := h.depth_eq
  dsimp only at hdepth ⊢
  omega

/-- A part behind a flag: without it the default is returned. -/
theorem Refits.whenSet [Inhabited α] {P : α → Prop} {size : α → Nat} {c : Bool} {x : Dec α}
    (hx : Refits src P size x) {s t : Ctx} {a : α} (h : whenSet c x s = .done a t) :
    (c = true → P a) ∧
      (c = false → a = default) ∧ Moved True src (if c then size a else 0) s t := by
  cases c with
  | true =>
    obtain ⟨hP, hmoved⟩ := hx s a t h
    exact ⟨fun _ => hP, fun hc => (nomatch hc), hmoved⟩
  | false =>
    obtain ⟨rfl, rfl⟩ := Outcome.done.inj (show Outcome.done default s = .done a t from h)
    exact ⟨fun hc => (nomatch hc), fun _ => rfl, Moved.refl s⟩

/-- The elements of a loop, by induction on their number. -/
theorem Refits.times {P : α → Prop} {size : α → Nat} {x : Dec α} (hx : Refits src P size x) :
    ∀ n, Refits src (fun as => ∀ a ∈ as, P a) (fun as => (as.map size).sum) (times x n)
  | 0 => by
    intro s as t h
    obtain ⟨rfl, rfl⟩ := Outcome.done.inj (show Outcome.done [] s = .done as t from h)
    exact ⟨fun _ ha => absurd ha List.not_mem_nil, Moved.refl s⟩
  | n + 1 => by
    intro s as t h
    rw [times_succ] at h
    obtain ⟨a, u, ha, h⟩ := bind_eq_done.mp h
    obtain ⟨as', v, has, hpure⟩ := bind_eq_done.mp h
    cases hpure
    obtain ⟨hP, hfirst⟩ := hx s a u ha
    obtain ⟨hall, hrest⟩ := hx.times n u as' _ has
    refine ⟨List.forall_mem_cons.mpr ⟨hP, hall⟩, ?_⟩
    show Moved True src (size a + (as'.map size).sum) s _
    exact hfirst.trans hrest

/-! ## Primitives -/

theorem byteDecodeBinary_moved {s t : Ctx} {v : UInt8} (h : byteDecodeBinary src s = .done v t) :
    Moved True src 1 s t := Moves.moved (fun _ => byteDecodeBinary_moves) h

theorem uint16DecodeBinary_moved {s t : Ctx} {v : UInt16}
    (h : uint16DecodeBinary src s = .done v t) : Moved True src 2 s t :=
  Moves.moved (fun _ => uint16DecodeBinary_moves) h

theorem uint32DecodeBinary_moved {s t : Ctx} {v : UInt32}
    (h : uint32DecodeBinary src s = .done v t) : Moved True src 4 s t :=
  Moves.moved (fun _ => uint32DecodeBinary_moves) h

theorem uint64DecodeBinary_moved {s t : Ctx} {v : UInt64}
    (h : uint64DecodeBinary src s = .done v t) : Moved True src 8 s t :=
  Moves.moved (fun _ => uint64DecodeBinary_moves) h

theorem guidDecodeBinary_moved {s t : Ctx} {v : Guid} (h : guidDecodeBinary src s = .done v t) :
    Moved True src 16 s t := Moves.moved (fun _ => guidDecodeBinary_moves) h

/-! ## Arrays -/

/-- All pieces that are cut have the size that was asked for. -/
theorem chunks_flatten_length (k : Nat) : ∀ (n : Nat) (bs : Bytes), bs.length = k * n →
    ∀ c ∈ chunks k n bs, c.length = k
  | 0, _, _, c, hc => absurd hc List.not_mem_nil
  | n + 1, bs, hlen, c, hc => by
    rw [Nat.mul_succ] at hlen
    rcases List.mem_cons.mp hc with rfl | hc
    · rw [List.length_take]
      omega
    · exact chunks_flatten_length k n (bs.drop k) (by rw [List.length_drop]; omega) c hc

/-- Copied bytes are as many as were asked for. -/
theorem fixedDecodeBinary_done {j : Nat} {s t : Ctx} {bs : Bytes}
    (h : fixedDecodeBinary src j s = .done bs t) : bs.length = j ∧ Moved True src j s t := by
  refine ⟨?_, Moves.moved (fun _ => fixedDecodeBinary_moves j) h⟩
  rw [fixedDecodeBinary_run] at h
  split at h
  · rename_i hle
    cases h
    rw [List.length_take, List.length_drop]
    omega
  · cases h

/-- Elements that are at most so large. -/
theorem sum_map_le_const {size : α → Nat} {k : Nat} : ∀ {as : List α}, (∀ a ∈ as, size a ≤ k) →
    (as.map size).sum ≤ k * as.length
  | [], _ => Nat.zero_le _
  | a :: as, h => by
    obtain ⟨ha, has⟩ := List.forall_mem_cons.mp h
    have hrest := sum_map_le_const has
    rw [List.map_cons, List.sum_cons, List.length_cons, Nat.mul_succ]
    omega

/-- An array that was copied, or read element by element. -/
theorem arrayDecodeBinary_refits {type : DataType} {ofMemory : Bytes → α} {element : Dec α}
    {P : α → Prop} {size : α → Nat}
    (hmem : type.overlayable = true → ∀ bs : Bytes, bs.length = type.memSize →
      P (ofMemory bs) ∧ size (ofMemory bs) ≤ type.memSize)
    (helement : type.overlayable = false → Refits src P size element) :
    Refits src (fun xs => (xs.getD []).length ≤ int32Max ∧ ∀ a ∈ xs.getD [], P a)
      (fun xs => 4 + ((xs.getD []).map size).sum)
      (arrayDecodeBinary src type ofMemory element) := by
  intro s xs t h
  obtain ⟨length, u, hlength, h⟩ := bind_eq_done.mp h
  have hhead := uint32DecodeBinary_moved hlength
  by_cases hle : signedLength length ≤ 0
  · -- NULL or the empty array
    rw [if_pos hle] at h
    cases h
    split
    · exact ⟨⟨Nat.zero_le _, fun _ ha => absurd ha List.not_mem_nil⟩, hhead⟩
    · exact ⟨⟨Nat.zero_le _, fun _ ha => absurd ha List.not_mem_nil⟩, hhead⟩
  · rw [if_neg hle] at h
    obtain ⟨_, v, hneed, h⟩ := bind_eq_done.mp h
    have hmoved : Moved True src 0 u v := Moves.moved (fun _ => need_moves _) hneed
    -- the length was read as a signed number, and is positive
    have hmax : length.toNat ≤ int32Max := by
      have hlt := length.toNat_lt
      unfold signedLength at hle
      unfold int32Max
      split at hle <;> omega
    cases hover : type.overlayable with
    | true =>
      rw [hover, if_pos rfl] at h
      obtain ⟨bs, hbs, rfl⟩ := map_eq_done.mp h
      obtain ⟨hlen, hrest⟩ := fixedDecodeBinary_done hbs
      have hall : ∀ a ∈ (chunks type.memSize length.toNat bs).map ofMemory,
          P a ∧ size a ≤ type.memSize := by
        intro a ha
        obtain ⟨c, hc, rfl⟩ := List.mem_map.mp ha
        exact hmem hover c (chunks_flatten_length _ _ bs hlen c hc)
      have hsum := sum_map_le_const fun a ha => (hall a ha).2
      have hcount : ((chunks type.memSize length.toNat bs).map ofMemory).length = length.toNat := by
        rw [List.length_map, chunks_length]
      rw [hcount] at hsum
      refine ⟨⟨?_, fun a ha => (hall a ha).1⟩, (hhead.trans hmoved).join hrest ?_⟩
      · exact Nat.le_trans (Nat.le_of_eq hcount) hmax
      · dsimp only [Option.getD_some]
        omega
    | false =>
      rw [hover, if_neg Bool.false_ne_true] at h
      obtain ⟨as, has, rfl⟩ := map_eq_done.mp h
      obtain ⟨hall, hrest⟩ := (helement hover).times length.toNat v as t has
      refine ⟨⟨?_, hall⟩, (hhead.trans hmoved).join hrest ?_⟩
      · exact Nat.le_trans (Nat.le_of_eq (times_length has)) hmax
      · dsimp only [Option.getD_some]
        omega

/-! ## Strings and dimensions -/

/-- A string that was read can be written in its place. -/
theorem stringDecodeBinary_refits (hT : StandardTypes T) :
    Refits src (fun s => stringFits s = true) (fun s => (stringBytes s).length)
      (stringDecodeBinary src T) := by
  have hsize : (T.get (DataTypes.builtin .byte)).memSize = 1 := hT.memSize .byte rfl
  have harray := @arrayDecodeBinary_refits src UInt8 (T.get (DataTypes.builtin .byte))
    byteOfMemory (byteDecodeBinary src) (fun _ => True) (fun _ => 1)
    (fun _ _ _ => ⟨trivial, Nat.le_of_eq hsize.symm⟩)
    fun _ _ _ _ hv => ⟨trivial, byteDecodeBinary_moved hv⟩
  intro s a t h
  obtain ⟨⟨hlen, -⟩, hmoved⟩ := harray s a t h
  refine ⟨decide_eq_true hlen, hmoved.weaken ?_⟩
  simp only [stringBytes, List.length_append, lengthBytes_length, List.map_const',
    List.sum_replicate_nat]
  omega

/-- The dimensions that were read can be written in their place. -/
theorem dimensionsDecodeBinary_refits (hT : StandardTypes T) :
    Refits src (fun dimensions => (dimensionsPlan T (dimensions.getD [])).ok = true)
      (fun dimensions => (dimensionsPlan T (dimensions.getD [])).bytes.length)
      (dimensionsDecodeBinary src T) := by
  have hsize : (T.get (DataTypes.builtin .int32)).memSize = 4 := hT.memSize .int32 rfl
  have harray := @arrayDecodeBinary_refits src UInt32 (T.get (DataTypes.builtin .int32))
    uint32OfMemory (uint32DecodeBinary src) (fun _ => True) (fun _ => 4)
    (fun _ _ _ => ⟨trivial, Nat.le_of_eq hsize.symm⟩)
    fun _ _ _ _ hv => ⟨trivial, uint32DecodeBinary_moved hv⟩
  intro s a t h
  obtain ⟨⟨hlen, -⟩, hmoved⟩ := harray s a t h
  have hwords : ((a.getD []).flatMap fun d => leBytes 4 d.toNat).length = 4 * (a.getD []).length :=
    length_flatMap_const fun d _ => leBytes_length 4 d.toNat
  refine ⟨(dimensionsPlan_ok _).trans (decide_eq_true hlen), hmoved.weaken ?_⟩
  simp only [dimensionsPlan_bytes, dimensionsBytes, List.length_append, lengthBytes_length, hwords,
    List.map_const', List.sum_replicate_nat]
  omega

/-! ## Identifiers and names -/

/-- The shortest numeric form takes no more than any other. -/
theorem numericNodeId_length (ns : UInt16) (id : UInt32) :
    (nodeIdHead ⟨ns, .numeric id⟩ 0).length ≤ 7 ∧
      (ns.toNat ≤ byteMax → id.toNat ≤ uint16Max →
        (nodeIdHead ⟨ns, .numeric id⟩ 0).length ≤ 4) ∧
      (ns = 0 → id.toNat ≤ byteMax → (nodeIdHead ⟨ns, .numeric id⟩ 0).length ≤ 2) := by
  simp only [nodeIdHead]
  split
  · rename_i hlong
    refine ⟨by simp, fun hns hid => absurd hlong (by omega), fun hns hid => ?_⟩
    subst hns
    unfold byteMax at hid
    unfold uint16Max byteMax at hlong
    have hzero : (0 : UInt16).toNat = 0 := rfl
    omega
  · split
    · rename_i hmiddle
      refine ⟨by simp, fun _ _ => by simp, fun hns hid => ?_⟩
      subst hns
      rcases hmiddle with hid' | hns
      · omega
      · exact absurd hns (by decide)
    · exact ⟨by simp, fun _ _ => by simp, fun _ _ => by simp⟩

/-- A NodeId that was read is written in its shortest form, which is not longer. -/
theorem nodeIdDecodeBinary_refits (hT : StandardTypes T) :
    Refits src (fun id => (nodeIdRest T id).ok = true)
      (fun id => (nodeIdHead id 0).length + (nodeIdRest T id).bytes.length)
      (nodeIdDecodeBinary src T) := by
  -- a namespace and a string
  have hstring : ∀ (mk : UAString → NodeIdIdentifier) (s t : Ctx) (id : NodeId),
      accum (uint16DecodeBinary src) (fun ns => accum (stringDecodeBinary src T)
        fun s => pure (⟨ns, mk s⟩ : NodeId)) s = .done id t →
      ∃ ns a, id = ⟨ns, mk a⟩ ∧ stringFits a = true ∧
        Moved True src (2 + (stringBytes a).length) s t := by
    intro mk s t id h
    obtain ⟨ns, u, hns, h⟩ := accum_eq_done.mp h
    obtain ⟨a, v, ha, hpure⟩ := accum_eq_done.mp h
    cases hpure
    obtain ⟨hfits, hmoved⟩ := stringDecodeBinary_refits hT u a _ ha
    exact ⟨ns, a, rfl, hfits, (uint16DecodeBinary_moved hns).trans hmoved⟩
  intro s id t h
  obtain ⟨encodingByte, u, hbyte, h⟩ := bind_eq_done.mp h
  have hfirst := byteDecodeBinary_moved hbyte
  generalize nodeIdForm encodingByte = form at h
  rcases form with _ | _ | _ | _ | _ | _ | form
  · obtain ⟨b, hb, rfl⟩ := map_eq_done.mp h
    have hlen := (numericNodeId_length 0 b.toUInt32).2.2 rfl (by
      rw [UInt8.toNat_toUInt32]
      exact Nat.le_of_lt_succ b.toNat_lt)
    refine ⟨rfl, hfirst.join (byteDecodeBinary_moved hb) ?_⟩
    simpa [nodeIdRest] using hlen
  · obtain ⟨b, v, hb, h⟩ := accum_eq_done.mp h
    obtain ⟨w, x, hw, hpure⟩ := accum_eq_done.mp h
    cases hpure
    have hlen := (numericNodeId_length b.toUInt16 w.toUInt32).2.1
      (by rw [UInt8.toNat_toUInt16]; exact Nat.le_of_lt_succ b.toNat_lt)
      (by rw [UInt16.toNat_toUInt32]; exact Nat.le_of_lt_succ w.toNat_lt)
    refine ⟨rfl, hfirst.join ((byteDecodeBinary_moved hb).trans (uint16DecodeBinary_moved hw)) ?_⟩
    simpa [nodeIdRest] using hlen
  · obtain ⟨ns, v, hns, h⟩ := accum_eq_done.mp h
    obtain ⟨id, x, hid, hpure⟩ := accum_eq_done.mp h
    cases hpure
    have hlen := (numericNodeId_length ns id).1
    refine ⟨rfl, hfirst.join ((uint16DecodeBinary_moved hns).trans
      (uint32DecodeBinary_moved hid)) ?_⟩
    simpa [nodeIdRest] using hlen
  · obtain ⟨ns, a, rfl, hfits, hmoved⟩ := hstring .string u t id h
    refine ⟨(stringPlan_ok a).trans hfits, hfirst.join hmoved ?_⟩
    simp [nodeIdHead, nodeIdRest]
    omega
  · obtain ⟨ns, v, hns, h⟩ := accum_eq_done.mp h
    obtain ⟨g, x, hg, hpure⟩ := accum_eq_done.mp h
    cases hpure
    refine ⟨rfl, hfirst.join ((uint16DecodeBinary_moved hns).trans (guidDecodeBinary_moved hg)) ?_⟩
    simp [nodeIdHead, nodeIdRest]
  · obtain ⟨ns, a, rfl, hfits, hmoved⟩ := hstring .byteString u t id h
    refine ⟨(stringPlan_ok a).trans hfits, hfirst.join hmoved ?_⟩
    simp [nodeIdHead, nodeIdRest]
    omega
  · cases h

/-- A QualifiedName. -/
theorem qualifiedNameDecodeBinary_refits (hT : StandardTypes T) :
    Refits src (fun name => (stringPlan T name.name).ok = true)
      (fun name => (leBytes 2 name.namespaceIndex.toNat).length +
        (stringPlan T name.name).bytes.length)
      (qualifiedNameDecodeBinary src T) := by
  intro s name t h
  obtain ⟨ns, u, hns, h⟩ := accum_eq_done.mp h
  obtain ⟨a, v, ha, hpure⟩ := accum_eq_done.mp h
  cases hpure
  obtain ⟨hfits, hmoved⟩ := stringDecodeBinary_refits hT u a _ ha
  refine ⟨(stringPlan_ok a).trans hfits, (uint16DecodeBinary_moved hns).join hmoved ?_⟩
  simp

/-- A string that was read because of a bit, and is written if it is not NULL. -/
theorem maskedString_refits (hT : StandardTypes T) {c : Bool} {s t : Ctx} {a : UAString}
    (h : whenSet c (stringDecodeBinary src T) s = .done a t) :
    (if a.isSome then stringPlan T a else .empty).ok = true ∧
      Moved True src (if a.isSome then stringPlan T a else .empty).bytes.length s t := by
  obtain ⟨hfits, hnone, hmoved⟩ := (stringDecodeBinary_refits hT).whenSet h
  cases c with
  | true =>
    cases a with
    | none => exact ⟨rfl, hmoved.weaken (Nat.zero_le _)⟩
    | some bs =>
      refine ⟨(stringPlan_ok (T := T) (some bs)).trans (hfits rfl), ?_⟩
      rw [if_pos Option.isSome_some, stringPlan_bytes]
      exact hmoved
  | false =>
    obtain rfl : a = none := hnone rfl
    exact ⟨rfl, hmoved⟩

/-- A LocalizedText: what is written behind its mask was read. -/
theorem localizedTextDecodeBinary_refits (hT : StandardTypes T) :
    Refits src (fun text => (localizedTextRest T text).ok = true)
      (fun text => [localizedTextMask text].length + (localizedTextRest T text).bytes.length)
      (localizedTextDecodeBinary src T) := by
  intro s text t h
  obtain ⟨mask, u, hmask, h⟩ := accum_eq_done.mp h
  obtain ⟨locale, v, hlocale, h⟩ := accum_eq_done.mp h
  obtain ⟨text', w, htext, hpure⟩ := accum_eq_done.mp h
  cases hpure
  obtain ⟨hok, hmoved⟩ := maskedString_refits hT hlocale
  obtain ⟨hok', hmoved'⟩ := maskedString_refits hT htext
  refine ⟨?_, (byteDecodeBinary_moved hmask).join (hmoved.trans hmoved') ?_⟩
  · simp only [localizedTextRest, Plan.ok_both, hok, hok', Bool.and_self]
  · simp only [localizedTextRest, Plan.bytes_both, List.length_append, List.length_singleton]
    exact Nat.le_refl _

/-! ## Objects of plain types -/

/-- The jump table, at a plain kind. -/
theorem decodeBinaryJumpTable_refits (hT : StandardTypes T) {kind : DataTypeKind}
    (hkind : kind.isPlain = true) (fuel : Nat) (type : DataTypeRef) :
    Refits src
      (fun v => v.isOfKind kind = true ∧ v.isNormal kind = true ∧ (v.plan T).ok = true)
      (fun v => (v.plan T).bytes.length) (decodeBinaryJumpTable src T fuel kind type) := by
  intro s v t h
  cases fuel with
  | zero => cases h
  | succ fuel =>
    have hlength : (v.plan T).bytes.length = v.head.length + (v.rest T).bytes.length := by
      rw [Value.plan, Plan.bytes_seq, Plan.bytes_chunk, List.length_append]
    dsimp only
    rw [hlength]
    cases kind with
    | boolean =>
      obtain ⟨b, hb, rfl⟩ := map_eq_done.mp h
      obtain ⟨w, hw, rfl⟩ := map_eq_done.mp hb
      -- every byte but 0 is read as 1
      refine ⟨⟨rfl, ?_, rfl⟩, byteDecodeBinary_moved hw⟩
      show decide ((if w > 0 then (1 : UInt8) else 0) ≤ 1) = true
      split <;> decide
    | sByte | byte =>
      obtain ⟨b, hb, rfl⟩ := map_eq_done.mp h
      exact ⟨⟨rfl, rfl, rfl⟩, byteDecodeBinary_moved hb⟩
    | int16 | uint16 =>
      obtain ⟨w, hw, rfl⟩ := map_eq_done.mp h
      exact ⟨⟨rfl, rfl, rfl⟩, uint16DecodeBinary_moved hw⟩
    | int32 | uint32 | float | statusCode =>
      obtain ⟨w, hw, rfl⟩ := map_eq_done.mp h
      exact ⟨⟨rfl, rfl, rfl⟩, uint32DecodeBinary_moved hw⟩
    | int64 | uint64 | double | dateTime =>
      obtain ⟨w, hw, rfl⟩ := map_eq_done.mp h
      exact ⟨⟨rfl, rfl, rfl⟩, uint64DecodeBinary_moved hw⟩
    | string | byteString | xmlElement =>
      obtain ⟨a, ha, rfl⟩ := map_eq_done.mp h
      obtain ⟨hfits, hmoved⟩ := stringDecodeBinary_refits hT s a t ha
      refine ⟨⟨rfl, rfl, (stringPlan_ok a).trans hfits⟩, hmoved.weaken ?_⟩
      simp [Value.head, Value.rest]
    | guid =>
      obtain ⟨g, hg, rfl⟩ := map_eq_done.mp h
      exact ⟨⟨rfl, rfl, rfl⟩, (guidDecodeBinary_moved hg).weaken (by simp [Value.head, Value.rest])⟩
    | nodeId =>
      obtain ⟨id, hid, rfl⟩ := map_eq_done.mp h
      obtain ⟨hok, hmoved⟩ := nodeIdDecodeBinary_refits hT s id t hid
      exact ⟨⟨rfl, rfl, hok⟩, hmoved⟩
    | qualifiedName =>
      obtain ⟨name, hname, rfl⟩ := map_eq_done.mp h
      obtain ⟨hok, hmoved⟩ := qualifiedNameDecodeBinary_refits hT s name t hname
      exact ⟨⟨rfl, rfl, hok⟩, hmoved⟩
    | localizedText =>
      obtain ⟨text, htext, rfl⟩ := map_eq_done.mp h
      obtain ⟨hok, hmoved⟩ := localizedTextDecodeBinary_refits hT s text t htext
      exact ⟨⟨rfl, rfl, hok⟩, hmoved⟩
    | _ => cases hkind

/-- An object that was copied from memory. -/
theorem ofMemory_isOfKind {kind : DataTypeKind} (h : kind.overlayable = true) (bytes : Bytes) :
    (Value.ofMemory kind bytes).isOfKind kind = true := by
  cases kind <;> first | rfl | cases h

/-- What was read as data of the kind `kind`, without the dimensions. -/
structure IsPlainData (T : DataTypes) (kind : DataTypeKind) (isArray : Bool) (data : Value) :
    Prop where
  shape : data.isArray = isArray
  isData : data.isDataOf kind = true
  normal : data.isNormalData T kind = true
  ok : (if data.isArray then valuesPlan T (DataTypes.builtin kind) data else data.plan T).ok = true

/-- The bytes of the data, without the dimensions. -/
def dataLength (T : DataTypes) (kind : DataTypeKind) (data : Value) : Nat :=
  (if data.isArray then valuesPlan T (DataTypes.builtin kind) data else data.plan T).bytes.length

/-- An element of an array of plain values, copied or decoded. -/
def IsPlainElement (T : DataTypes) (kind : DataTypeKind) (v : Value) : Prop :=
  v.isOfKind kind = true ∧
    ((T.get (DataTypes.builtin kind)).overlayable || v.isNormal kind) = true ∧
    ((T.get (DataTypes.builtin kind)).overlayable || (v.plan T).ok) = true

/-- An array of plain values. -/
theorem valuesDecodeBinary_refits (hT : StandardTypes T) {kind : DataTypeKind}
    (hkind : kind.isPlain = true) (fuel : Nat) :
    Refits src (IsPlainData T kind true) (dataLength T kind)
      (valuesDecodeBinary src T (decodeBinaryJumpTable src T fuel) (DataTypes.builtin kind)) := by
  have hbuiltin := DataTypeKind.isBuiltin_of_isLeaf (DataTypeKind.isLeaf_of_isPlain hkind)
  have htype := T.get_builtin hbuiltin
  have harray : Refits src
      (fun xs => (xs.getD []).length ≤ int32Max ∧ ∀ a ∈ xs.getD [], IsPlainElement T kind a)
      (fun xs => 4 + ((xs.getD []).map fun v => (v.plan T).bytes.length).sum)
      (arrayDecodeBinary src (T.get (DataTypes.builtin kind)) (Value.ofMemory kind)
        (decodeBinaryJumpTable src T fuel kind (DataTypes.builtin kind))) := by
    -- copied objects have nothing to check, others are read one by one
    refine arrayDecodeBinary_refits (fun hover bs hlen => ?_) fun hover s v t h => ?_
    · have hoverlay := hT.overlayable kind hbuiltin hover
      have hof := ofMemory_isOfKind hoverlay bs
      refine ⟨⟨hof, by rw [hover, Bool.true_or], by rw [hover, Bool.true_or]⟩, ?_⟩
      exact Nat.le_of_eq ((memory_eq hof hoverlay).2.trans (hT.memSize kind hbuiltin).symm)
    · obtain ⟨⟨hof, hnormal, hok⟩, hmoved⟩ := decodeBinaryJumpTable_refits hT hkind fuel _ s v t h
      exact ⟨⟨hof, by rw [hnormal, Bool.or_true], by rw [hok, Bool.or_true]⟩, hmoved⟩
  intro s data t h
  rw [valuesDecodeBinary, htype] at h
  obtain ⟨elements, helements, rfl⟩ := map_eq_done.mp h
  obtain ⟨⟨hmax, hall⟩, hmoved⟩ := harray s elements t helements
  cases elements with
  | none =>
    refine ⟨⟨rfl, rfl, rfl, rfl⟩, hmoved.weaken ?_⟩
    exact Nat.le_of_eq (lengthBytes_length none)
  | some xs =>
    rw [Option.getD_some] at hmax hall
    refine ⟨⟨rfl, List.all_eq_true.mpr fun v hv => (hall v hv).1, ?_, ?_⟩, hmoved.weaken ?_⟩
    · show ((T.get (DataTypes.builtin kind)).overlayable || xs.all (Value.isNormal kind)) = true
      cases hover : (T.get (DataTypes.builtin kind)).overlayable with
      | true => rfl
      | false =>
        rw [Bool.false_or]
        refine List.all_eq_true.mpr fun v hv => ?_
        have hnormal := (hall v hv).2.1
        rwa [hover, Bool.false_or] at hnormal
    · show (arrayPlan _ _ _ _).ok = true
      cases hover : (T.get (DataTypes.builtin kind)).overlayable with
      | true =>
        have hnot : ¬ (some xs.length).getD 0 > int32Max := Nat.not_lt.mpr hmax
        rw [arrayPlan, if_neg hnot, hover]
        simp only [Plan.ok_seq, Plan.ok_chunk, Bool.true_and, if_true]
        split <;> rfl
      | false =>
        refine (arrayPlan_ok fun p hp => ?_).mpr hmax
        obtain ⟨v, hv, rfl⟩ := List.mem_map.mp hp
        have hok := (hall v hv).2.2
        rwa [hover, Bool.false_or] at hok
    · show (arrayPlan _ _ _ _).bytes.length ≤ _
      rw [arrayPlan_bytes (fun hnil => by rw [List.length_eq_zero_iff.mp hnil]; rfl)
        (List.flatMap_map ..), List.length_append, lengthBytes_length, List.length_flatMap]
      exact Nat.le_refl _

/-- A scalar, told as the content of a Variant. -/
theorem scalar_isPlainData {kind : DataTypeKind} {v : Value} (hv : v.isOfKind kind = true)
    (hnormal : v.isNormal kind = true) (hok : (v.plan T).ok = true) :
    IsPlainData T kind false v ∧ dataLength T kind v = (v.plan T).bytes.length := by
  have harray := isArray_of_isOfKind hv
  refine ⟨⟨harray, ?_, ?_, ?_⟩, ?_⟩
  · cases v <;> first | exact hv | cases harray
  · cases v <;> first | exact hnormal | cases harray
  · rw [harray]
    exact hok
  · rw [dataLength, harray]
    rfl

/-! ## Variants and DataValues -/

/-- The Variant is empty or of a plain built-in type. -/
def VariantOf.HoldsPlain {V : Type} (v : VariantOf V) : Prop :=
  ∀ type, v.type = some type → ∃ kind : DataTypeKind, kind.isPlain = true ∧
    type = DataTypes.builtin kind

/-- A built-in kind is known by its type. -/
theorem builtin_injective {kind kind' : DataTypeKind} (h : kind.isBuiltin = true)
    (h' : kind'.isBuiltin = true) (heq : DataTypes.builtin kind = DataTypes.builtin kind') :
    kind = kind' := by
  have hget : (builtinTypes.get (DataTypes.builtin kind)).typeKind =
      (builtinTypes.get (DataTypes.builtin kind')).typeKind := by rw [heq]
  rwa [builtinTypes.get_builtin h, builtinTypes.get_builtin h'] at hget

/-- The content of a Variant, in whatever way it came to a plain type. -/
theorem variantDecodeBinaryContent_refits (hT : StandardTypes T) {kind kind' : DataTypeKind}
    {isArray : Bool} {fuel : Nat} {s t : Ctx} {data : Value} (hkind : kind.isBuiltin = true)
    (hplain : kind'.isPlain = true)
    (h : variantDecodeBinaryContent src T (decodeBinaryJumpTable src T fuel) kind isArray s =
      .done (DataTypes.builtin kind', data) t) :
    IsPlainData T kind' isArray data ∧ Moved True src (dataLength T kind' data) s t := by
  have hbuiltin := DataTypeKind.isBuiltin_of_isLeaf (DataTypeKind.isLeaf_of_isPlain hplain)
  have hvalue : ∀ {type : DataTypeRef} {u : Ctx},
      decodeBinaryJumpTable src T fuel kind' type u = .done data t →
      IsPlainData T kind' false data ∧ Moved True src (dataLength T kind' data) u t := by
    intro type u hrun
    obtain ⟨⟨hof, hnormal, hok⟩, hmoved⟩ :=
      decodeBinaryJumpTable_refits hT hplain fuel type u data t hrun
    obtain ⟨hdata, hlen⟩ := scalar_isPlainData hof hnormal hok
    exact ⟨hdata, hlen ▸ hmoved⟩
  unfold variantDecodeBinaryContent at h
  cases isArray with
  | true =>
    obtain ⟨data', hdata, hpair⟩ := map_eq_done.mp h
    obtain ⟨htype, rfl⟩ := Prod.mk.inj hpair
    obtain rfl := builtin_injective hbuiltin hkind htype
    exact valuesDecodeBinary_refits hT hplain fuel s data t hdata
  | false =>
    rw [if_neg Bool.false_ne_true] at h
    by_cases hext : kind ≠ .extensionObject
    · rw [if_pos hext] at h
      obtain ⟨data', hdata, hpair⟩ := map_eq_done.mp h
      obtain ⟨htype, rfl⟩ := Prod.mk.inj hpair
      obtain rfl := builtin_injective hbuiltin hkind htype
      exact hvalue hdata
    · -- a wrapped object of a built-in type: its type id and its length are not written again
      rw [if_neg hext] at h
      obtain ⟨typeId, encoding, u, v, hn, hb, hcontent⟩ :=
        variantDecodeBinaryUnwrapExtensionObject_done h
      have hhead := (nodeIdDecodeBinary_refits hT s typeId u hn).2.trans (byteDecodeBinary_moved hb)
      split at hcontent
      · next type hfind =>
        obtain ⟨_, w, hskip, hjump⟩ := bind_eq_done.mp hcontent
        cases hskip
        obtain ⟨data', hdata, hpair⟩ := map_eq_done.mp hjump
        obtain ⟨rfl, rfl⟩ := Prod.mk.inj hpair
        rw [T.get_builtin hbuiltin] at hdata
        obtain ⟨hplainData, hmoved⟩ := hvalue hdata
        refine ⟨hplainData, ?_, fun _ => ?_, hmoved.depth_eq.trans hhead.depth_eq⟩
        · have hadvance := hmoved.advance
          have hbefore := hhead.advance
          dsimp only at hadvance
          omega
        · -- nothing is checked before the length is skipped, but the object is read inside
          have hinside := hmoved.inside trivial
          have hadvance := hmoved.advance
          have hbefore := hhead.inside trivial
          have hpos : 0 < dataLength T kind' data := by
            have hscalar := hplainData.shape
            have hof := isOfKind_of_isDataOf hplainData.isData hscalar
            rw [dataLength, hscalar, if_neg Bool.false_ne_true]
            exact (memSize_le_plan hof).2
          dsimp only at hinside hadvance
          omega
      · obtain ⟨data', -, hpair⟩ := map_eq_done.mp hcontent
        obtain ⟨htype, -⟩ := Prod.mk.inj hpair
        rw [builtin_injective hbuiltin rfl htype] at hplain
        cases hplain

/-- Dimensions that were read because of a bit, and are written if there are any. -/
theorem maskedDimensions_refits (hT : StandardTypes T) {c : Bool} {s t : Ctx}
    {dimensions : Option (List UInt32)}
    (h : whenSet c (dimensionsDecodeBinary src T) s = .done dimensions t)
    (type : Option DataTypeRef) (data : Value) :
    (if hasDimensions ⟨type, data, dimensions⟩ then dimensionsPlan T (dimensions.getD [])
      else .empty).ok = true ∧
    Moved True src (if hasDimensions ⟨type, data, dimensions⟩ then
      dimensionsPlan T (dimensions.getD []) else .empty).bytes.length s t := by
  obtain ⟨hok, hnone, hmoved⟩ := (dimensionsDecodeBinary_refits hT).whenSet h
  cases c with
  | true =>
    cases hasDimensions (⟨type, data, dimensions⟩ : Variant) with
    | true => exact ⟨hok rfl, hmoved⟩
    | false => exact ⟨rfl, hmoved.weaken (Nat.zero_le _)⟩
  | false =>
    obtain rfl : dimensions = none := hnone rfl
    have hnot : hasDimensions (⟨type, data, none⟩ : Variant) = false := by simp [hasDimensions]
    rw [hnot]
    exact ⟨rfl, hmoved⟩

/-- **A Variant of a plain type** can be encoded and read back, and is no longer than it was. -/
theorem variantDecodeBinary_refits (hT : StandardTypes T) {fuel : Nat} {s t : Ctx} {v : Variant}
    (h : variantDecodeBinary src T (decodeBinaryJumpTable src T fuel) s = .done v t)
    (hv : v.HoldsPlain) :
    Variant.IsPlain T v ∧ (variantPlan T v).ok = true ∧
      Moved True src (variantPlan T v).bytes.length s t := by
  obtain ⟨b, u, hb, hrest⟩ := bind_eq_done.mp h
  have hfirst := byteDecodeBinary_moved hb
  by_cases hzero : b = 0
  · -- the empty Variant
    rw [if_pos hzero] at hrest
    cases hrest
    exact ⟨.empty rfl, rfl, hfirst⟩
  · rw [if_neg hzero] at hrest
    simp only at hrest
    cases hkind : variantTypeKind b with
    | none => simp [hkind] at hrest
    | some kind =>
      simp only [hkind] at hrest
      split at hrest
      · cases hrest
      · obtain ⟨_, u', hcheck, hnested⟩ := bind_eq_done.mp hrest
        obtain rfl := checkRecursion_eq_done hcheck
        obtain ⟨t', hinner, rfl⟩ := deeper_eq_done hnested
        obtain ⟨⟨type, data⟩, w, hcontent, htail⟩ := accum_eq_done.mp hinner
        obtain ⟨dimensions, x, hdimensions, hpure⟩ := accum_eq_done.mp htail
        cases hpure
        obtain ⟨kind', hplain, rfl⟩ := hv type rfl
        obtain ⟨hdata, hmoved⟩ := variantDecodeBinaryContent_refits hT
          (variantTypeKind_isBuiltin hkind) hplain hcontent
        obtain ⟨hok, hmoved'⟩ := maskedDimensions_refits hT hdimensions
          (some (DataTypes.builtin kind')) data
        -- a scalar has no array bit, and the dimensions are read with that bit only
        have hscalar : data.isArray = false → dimensions.getD [] = [] := fun hfalse => by
          rw [((dimensionsDecodeBinary_refits hT).whenSet hdimensions).2.1
            (by rw [← hdata.shape, hfalse, Bool.false_and])]
          rfl
        refine ⟨.value hplain hdata.isData hdata.normal hscalar, ?_, ?_⟩
        · simp only [variantPlan, variantRest, Plan.ok_seq, Plan.ok_chunk, Bool.true_and,
            Bool.and_eq_true]
          exact ⟨hdata.ok, hok⟩
        · refine hfirst.join (hmoved.trans hmoved').deeper ?_
          simp only [variantPlan, variantHead, variantRest, Plan.bytes_seq, Plan.bytes_chunk,
            List.length_append, List.length_singleton, dataLength]
          exact Nat.le_refl _

/-- Picoseconds that were read are in range. -/
theorem clampPicoSeconds_le (p : UInt16) : clampPicoSeconds p ≤ maxPicoSeconds := by
  unfold clampPicoSeconds
  split
  · exact UInt16.le_refl _
  · next h => exact UInt16.not_lt.mp h

/-- **A DataValue** that holds such a Variant, with its picoseconds in range. -/
theorem dataValueDecodeBinary_refits (hT : StandardTypes T) {fuel : Nat} {s t : Ctx} {d : DataValue}
    (h : dataValueDecodeBinary src T (decodeBinaryJumpTable src T fuel) s = .done d t)
    (hd : d.value.HoldsPlain) :
    d.IsPlain T ∧ (d.hasValue = true → (variantPlan T d.value).ok = true) ∧
      Moved True src (dataValueBytes T d).length s t := by
  obtain ⟨mask, u, hmask, hrest⟩ := bind_eq_done.mp h
  obtain ⟨_, u', hcheck, hnested⟩ := bind_eq_done.mp hrest
  obtain rfl := checkRecursion_eq_done hcheck
  obtain ⟨t', hinner, rfl⟩ := deeper_eq_done hnested
  obtain ⟨value, _, hvalue, hinner⟩ := accum_eq_done.mp hinner
  obtain ⟨status, _, hstatus, hinner⟩ := accum_eq_done.mp hinner
  obtain ⟨sourceTimestamp, _, hsource, hinner⟩ := accum_eq_done.mp hinner
  obtain ⟨sourcePicoseconds, _, hsourcePico, hinner⟩ := accum_eq_done.mp hinner
  obtain ⟨serverTimestamp, _, hserver, hinner⟩ := accum_eq_done.mp hinner
  obtain ⟨serverPicoseconds, _, hserverPico, hpure⟩ := accum_eq_done.mp hinner
  cases hpure
  have h16 : Refits src (fun _ => True) (fun _ => 2) (uint16DecodeBinary src) :=
    fun _ _ _ hv => ⟨trivial, uint16DecodeBinary_moved hv⟩
  have h32 : Refits src (fun _ => True) (fun _ => 4) (uint32DecodeBinary src) :=
    fun _ _ _ hv => ⟨trivial, uint32DecodeBinary_moved hv⟩
  have h64 : Refits src (fun _ => True) (fun _ => 8) (uint64DecodeBinary src) :=
    fun _ _ _ hv => ⟨trivial, uint64DecodeBinary_moved hv⟩
  obtain ⟨-, hnoStatus, hmoved₁⟩ := h32.whenSet hstatus
  obtain ⟨-, hnoSource, hmoved₂⟩ := h64.whenSet hsource
  obtain ⟨-, hnoSourcePico, hmoved₃⟩ := h16.whenSet hsourcePico
  obtain ⟨-, hnoServer, hmoved₄⟩ := h64.whenSet hserver
  obtain ⟨-, hnoServerPico, hmoved₅⟩ := h16.whenSet hserverPico
  -- a value that is not there is left as it was: zero
  have hheld : ∀ {c : Bool} {w : Ctx}, whenSet c (variantDecodeBinary src T
      (decodeBinaryJumpTable src T fuel)) ⟨u'.pos, u'.depth + 1⟩ = .done value w →
      (c = true → Variant.IsPlain T value ∧ (variantPlan T value).ok = true) ∧
      (c = false → value = default) ∧ Moved True src
        (if c then (variantPlan T value).bytes.length else 0) ⟨u'.pos, u'.depth + 1⟩ w := by
    intro c w hrun
    cases c with
    | true =>
      obtain ⟨hplain, hok, hmoved⟩ := variantDecodeBinary_refits hT hrun hd
      exact ⟨fun _ => ⟨hplain, hok⟩, fun hc => (nomatch hc), hmoved⟩
    | false =>
      cases hrun
      exact ⟨fun hc => (nomatch hc), fun _ => rfl, Moved.refl _⟩
  obtain ⟨hplain, hnoValue, hmoved⟩ := hheld hvalue
  refine ⟨⟨fun h => (hplain h).1, hnoValue, hnoStatus, hnoSource, fun h => ?_, hnoServer,
    fun h => ?_, clampPicoSeconds_le _, clampPicoSeconds_le _⟩, fun h => (hplain h).2, ?_⟩
  · -- picoseconds are cut off at 9999, which keeps the zero
    show clampPicoSeconds sourcePicoseconds = 0
    rw [hnoSourcePico h]
    rfl
  · show clampPicoSeconds serverPicoseconds = 0
    rw [hnoServerPico h]
    rfl
  · refine (byteDecodeBinary_moved hmask).join (hmoved.trans (hmoved₁.trans (hmoved₂.trans
      (hmoved₃.trans (hmoved₄.trans hmoved₅))))).deeper ?_
    simp only [dataValueBytes, dataValueTailBytes, List.length_append, List.length_singleton,
      apply_ite List.length, List.length_nil, leBytes_length]
    exact Nat.le_refl _

end OpenPubSub
