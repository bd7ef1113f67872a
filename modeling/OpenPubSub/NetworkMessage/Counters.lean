import OpenPubSub.NetworkMessage.Layout

/-!
# Counters and arrays during decoding

The structure a decoder fills, at every exit of every section: each array that was
built so far is as long as its counter, whether the section succeeded or failed.

- `Ends P x Q E`: from a structure with `P`, a success leaves one with `Q` and a
  failure one with `E`. Nothing is said about termination, which `Advances` covers.
- `Stage a b c` splits the structure before the payload into the parts that belong
  to the payload header, the promoted fields and the security header, so that a
  section changes its own part only.
- **`networkMessageDecodeBinaryInternal_exits`**: the structure at both exits of the
  decoder, with its DataSetMessages compared to the frames of the datagram.
-/

namespace OpenPubSub

open Routine

/-! ## Two postconditions on the structure -/

/-- From a structure with `P`, a success leaves `Q` and a failure `E`. -/
def Ends {M α : Type} (P : M → Prop) (x : Decoder M α) (Q E : M → Prop) : Prop :=
  ∀ s, P s.dst → match x s with
    | .done _ t => Q t.dst
    | .fail _ t => E t.dst
    | .fault => True

namespace Ends

variable {M N α β : Type} {P P' Q Q' R E E' : M → Prop}

/-- On a success. -/
theorem done {x : Decoder M α} (h : Ends P x Q E) {s t : Decoding M} {a : α} (hs : P s.dst)
    (hrun : x s = .done a t) : Q t.dst := by
  have := h s hs
  rwa [hrun] at this

/-- On a failure. -/
theorem failed {x : Decoder M α} (h : Ends P x Q E) {s t : Decoding M} {e : ErrorCode}
    (hs : P s.dst) (hrun : x s = .fail e t) : E t.dst := by
  have := h s hs
  rwa [hrun] at this

/-- More is known before, or less is asked for after. -/
theorem conseq {x : Decoder M α} (h : Ends P' x Q' E') (hP : ∀ m, P m → P' m)
    (hQ : ∀ m, Q' m → Q m) (hE : ∀ m, E' m → E m) : Ends P x Q E := by
  intro s hs
  have hx := h s (hP _ hs)
  cases hxs : x s with
  | done a t =>
    rw [hxs] at hx
    exact hQ _ hx
  | fail e t =>
    rw [hxs] at hx
    exact hE _ hx
  | fault => trivial

theorem trivially {x : Decoder M α} : Ends P x (fun _ => True) fun _ => True := by
  intro s _
  cases x s <;> exact trivial

theorem weaken {x : Decoder M α} (hP : ∀ m, P m → P' m) (h : Ends P' x Q E) : Ends P x Q E :=
  h.conseq hP (fun _ h => h) fun _ h => h

theorem pure {a : α} (h : ∀ m, P m → Q m) : Ends P (Pure.pure a : Decoder M α) Q E :=
  fun s hs => h s.dst hs

theorem fail {e : ErrorCode} (h : ∀ m, P m → E m) : Ends P (Routine.fail e : Decoder M α) Q E :=
  fun s hs => h s.dst hs

theorem assign {f : M → M} (h : ∀ m, P m → Q (f m)) : Ends P (assign f) Q E :=
  fun s hs => h s.dst hs

/-- In a row. -/
theorem bind {x : Decoder M α} {f : α → Decoder M β} (hx : Ends P x Q E)
    (hf : ∀ a, Ends Q (f a) R E) : Ends P (x >>= f) R E := by
  intro s hs
  rw [bind_run]
  cases hxs : x s with
  | done a t => exact hf a t (hx.done hs hxs)
  | fail e t => exact hx.failed hs hxs
  | fault => trivial

/-- The structure as it is now is at hand in what follows. -/
theorem current_bind {f : M → Decoder M β}
    (hf : ∀ m, P m → Ends (fun m' => m' = m ∧ P m') (f m) Q E) : Ends P (current >>= f) Q E :=
  fun s hs => hf s.dst hs s ⟨rfl, hs⟩

theorem gets_bind {γ : Type} {g : Decoding M → γ} {f : γ → Decoder M β}
    (hf : ∀ a, Ends P (f a) Q E) : Ends P (gets g >>= f) Q E := fun s hs => hf (g s) s hs

theorem ite {c : Prop} [Decidable c] {x y : Decoder M α} (hx : c → Ends P x Q E)
    (hy : ¬ c → Ends P y Q E) : Ends P (if c then x else y) Q E := by
  by_cases hc : c
  · rw [if_pos hc]
    exact hx hc
  · rw [if_neg hc]
    exact hy hc

/-- A section that is decoded where its flag is set. -/
theorem onFlag {flag : M → Bool} {x : Decoder M Unit}
    (hx : Ends (fun m => P m ∧ flag m = true) x Q E) (hy : ∀ m, P m → flag m = false → Q m) :
    Ends P (onFlag flag x) Q E := by
  refine current_bind fun m _ => ite (fun hc => ?_) fun hc => ?_
  · refine hx.conseq ?_ (fun _ h => h) fun _ h => h
    rintro _ ⟨rfl, hP⟩
    exact ⟨hP, hc⟩
  · refine pure ?_
    rintro _ ⟨rfl, hP⟩
    exact hy _ hP (Bool.eq_false_iff.mpr hc)

/-- A section that is decoded where a bit is set in a byte that was read. -/
theorem onBit {v mask : UInt8} {x : Decoder M Unit} (hx : Ends P x Q E) (hy : ∀ m, P m → Q m) :
    Ends P (onBit v mask x) Q E :=
  ite (fun _ => hx) fun _ => pure hy

/-- A value for a member: a failing decoder leaves the default there. -/
theorem decodeInto [Inhabited α] {x : Routine ErrorCode Nat α} {put : α → M → M}
    (hQ : ∀ a m, P m → Q (put a m)) (hE : ∀ m, P m → E (put default m)) :
    Ends P (decodeInto x put) Q E := by
  intro s hs
  unfold OpenPubSub.decodeInto
  cases x s.offset with
  | done a o => exact hQ a _ hs
  | fail e o => exact hE _ hs
  | fault => trivial

/-- A value for a local variable. -/
theorem decodeLocal {x : Routine ErrorCode Nat α} (hQ : ∀ m, P m → Q m) (hE : ∀ m, P m → E m) :
    Ends P (decodeLocal x : Decoder M α) Q E := by
  intro s hs
  unfold OpenPubSub.decodeLocal zoom
  cases x s.offset with
  | done a o => exact hQ _ hs
  | fail e o => exact hE _ hs
  | fault => trivial

/-- A section that writes into one member of the structure. -/
theorem decodePart {get : M → N} {put : N → M → M} {x : Decoder N Unit} {P' Q' E' : N → Prop}
    (hx : Ends P' x Q' E') (hP : ∀ m, P m → P' (get m)) (hQ : ∀ m n, P m → Q' n → Q (put n m))
    (hE : ∀ m n, P m → E' n → E (put n m)) : Ends P (decodePart get put x) Q E := by
  intro s hs
  unfold OpenPubSub.decodePart zoom
  cases hxs : x ⟨s.offset, get s.dst⟩ with
  | done a t => exact hQ _ _ hs (hx.done (s := ⟨s.offset, get s.dst⟩) (hP _ hs) hxs)
  | fail e t => exact hE _ _ hs (hx.failed (s := ⟨s.offset, get s.dst⟩) (hP _ hs) hxs)
  | fault => trivial

/-- A loop keeps what each iteration keeps. -/
theorem loopFrom {body : Nat → Decoder M Unit} (hbody : ∀ i, Ends P (body i) P E) :
    ∀ n i, Ends P (loopFrom body i n) P E
  | 0, _ => pure fun _ h => h
  | n + 1, i => bind (hbody i) fun _ => loopFrom hbody n (i + 1)

/-- A loop that keeps what it found. -/
theorem forUpTo {n : Nat} {body : Nat → Decoder M Unit} (hbody : ∀ i, Ends P (body i) P E) :
    Ends P (forUpTo n body) P E :=
  loopFrom hbody n 0

end Ends

variable {src : Bytes} {T : DataTypes}

/-! ## The parts of the structure before the payload -/

/-- The writer ids are as many as the counter says. -/
structure PayloadHeaderOk (enabled : Bool) (h : DataSetPayloadHeader) : Prop where
  length : (h.dataSetWriterIds.getD []).length = h.count.toNat
  absent : enabled = false → h = default

/-- `c` promoted fields were started, and each holds a Variant. -/
structure PromotedFieldsCount (c : Nat) (fields : Option (List (Slot Variant))) (size : UInt16) :
    Prop where
  length : (fields.getD []).length = c
  counter : size = UInt16.ofNat c
  initialised : ∀ v ∈ fields.getD [], v.isInit = true

/-- The promoted fields are as many as the counter says. -/
def PromotedFieldsOk (fields : Option (List (Slot Variant))) (size : UInt16) : Prop :=
  PromotedFieldsCount size.toNat fields size

/-- The nonce is as long as its counter says, and only an enabled security header
has a footer. -/
structure SecurityHeaderOk (enabled : Bool) (h : NetworkMessageSecurityHeader) : Prop where
  length : (h.messageNonce.getD []).length = h.nonceLength.toNat
  footer : h.securityFooterEnabled = false → h.securityFooterSize = 0
  absent : enabled = false → h = default

/-- The structure before the payload, part by part. -/
def Stage (a : Bool → DataSetPayloadHeader → Prop)
    (b : Option (List (Slot Variant)) → UInt16 → Prop)
    (c : Bool → NetworkMessageSecurityHeader → Prop) (m : NetworkMessage) : Prop :=
  a m.payloadHeaderEnabled m.payloadHeader ∧ b m.promotedFields m.promotedFieldsSize ∧
    c m.securityEnabled m.securityHeader ∧ m.payload = default ∧ m.securityFooter = none

/-- A part that no section has touched. -/
abbrev Untouched {α : Type} [Inhabited α] (_ : Bool) (h : α) : Prop := h = default

/-- Promoted fields that no section has touched. -/
abbrev NoPromotedFields (fields : Option (List (Slot Variant))) (size : UInt16) : Prop :=
  fields = none ∧ size = 0

/-- The structure once all headers are decoded. -/
abbrev HeadersOk : NetworkMessage → Prop :=
  Stage PayloadHeaderOk PromotedFieldsOk SecurityHeaderOk

/-- A payload header that was not reached has no arrays. -/
theorem PayloadHeaderOk.untouched {enabled : Bool} {h : DataSetPayloadHeader}
    (hh : Untouched enabled h) : PayloadHeaderOk enabled h := by
  subst hh
  exact ⟨rfl, fun _ => rfl⟩

/-- Promoted fields that were not reached have no array. -/
theorem PromotedFieldsOk.none {fields : Option (List (Slot Variant))} {size : UInt16}
    (h : NoPromotedFields fields size) : PromotedFieldsOk fields size := by
  obtain ⟨rfl, rfl⟩ := h
  exact ⟨rfl, rfl, by simp⟩

/-- A security header that was not reached has no nonce. -/
theorem SecurityHeaderOk.untouched {enabled : Bool} {h : NetworkMessageSecurityHeader}
    (hh : Untouched enabled h) : SecurityHeaderOk enabled h := by
  subst hh
  exact ⟨rfl, fun _ => rfl, fun _ => rfl⟩

section

variable {a a' : Bool → DataSetPayloadHeader → Prop}
  {b b' : Option (List (Slot Variant)) → UInt16 → Prop}
  {c c' : Bool → NetworkMessageSecurityHeader → Prop}

/-- Part by part. -/
theorem Stage.imp {m : NetworkMessage} (h : Stage a b c m) (ha : ∀ e p, a e p → a' e p)
    (hb : ∀ f n, b f n → b' f n) (hc : ∀ e p, c e p → c' e p) : Stage a' b' c' m :=
  ⟨ha _ _ h.1, hb _ _ h.2.1, hc _ _ h.2.2.1, h.2.2.2⟩

/-! ## Sections that touch none of the parts -/

/-- The flags touch none of the parts. -/
theorem flagsDecodeBinary_ends :
    Ends (Stage Untouched NoPromotedFields Untouched) (flagsDecodeBinary src)
      (Stage Untouched NoPromotedFields Untouched)
      (Stage Untouched NoPromotedFields Untouched) :=
  .bind (.decodeLocal (fun _ h => h) fun _ h => h) fun _ =>
    .bind (.assign fun _ h => h) fun _ =>
      .onBit (.bind (.decodeLocal (fun _ h => h) fun _ h => h) fun _ =>
        .bind (.assign fun _ h => h) fun _ =>
          .onBit (.bind (.decodeLocal (fun _ h => h) fun _ h => h) fun _ => .assign fun _ h => h)
            fun _ h => h)
        fun _ h => h

theorem publisherIdDecodeBinary_ends :
    Ends (Stage a b c) (publisherIdDecodeBinary src T) (Stage a b c) (Stage a b c) := by
  refine Ends.current_bind fun m _ => ?_
  refine Ends.weaken (fun _ h => h.2) ?_
  cases m.publisherId with
  | byte v => exact .decodeInto (fun _ _ h => h) fun _ h => h
  | uint16 v => exact .decodeInto (fun _ _ h => h) fun _ h => h
  | uint32 v => exact .decodeInto (fun _ _ h => h) fun _ h => h
  | uint64 v => exact .decodeInto (fun _ _ h => h) fun _ h => h
  | string v => exact .decodeInto (fun _ _ h => h) fun _ h => h
  | reserved v => exact .fail fun _ h => h

theorem groupHeaderDecodeBinary_ends :
    Ends (Stage a b c)
      (decodePart NetworkMessage.groupHeader (fun g m => { m with groupHeader := g })
      (groupHeaderDecodeBinary src)) (Stage a b c) (Stage a b c) :=
  .decodePart (Ends.trivially (P := fun _ => True)) (fun _ _ => trivial) (fun _ _ h _ => h)
    fun _ _ h _ => h

/-! ## The payload header -/

/-- An array of 16-bit numbers is allocated before it is filled. -/
theorem uint16ArrayDecodeBinary_ends {M : Type} {P Q E : M → Prop} {count : Nat}
    {get : M → Option (List UInt16)} {put : Option (List UInt16) → M → M}
    (halloc : ∀ m, P m → Q (put (some (List.replicate count 0)) m))
    (hset : ∀ m i v, Q m → Q (put ((get m).map (·.set i v)) m)) (hE : ∀ m, Q m → E m) :
    Ends P (uint16ArrayDecodeBinary src count get put) Q E :=
  .bind (.assign halloc) fun _ => .forUpTo fun i =>
    .decodeInto (fun v m h => hset m i v h) fun m h => hE _ (hset m i default h)

/-- Writing an element does not change the length of an array. -/
theorem getD_map_set_length {α : Type} (xs : Option (List α)) (i : Nat) (v : α) :
    ((xs.map (·.set i v)).getD []).length = (xs.getD []).length := by
  cases xs with
  | none => rfl
  | some xs => exact List.length_set

/-- The counter of the payload header is the length of the array that was made for it. -/
theorem payloadHeaderDecodeBinary_ends :
    Ends (fun m => Stage Untouched b c m ∧ m.payloadHeaderEnabled = true)
      (payloadHeaderDecodeBinary src) (Stage PayloadHeaderOk b c) (Stage PayloadHeaderOk b c) := by
  refine Ends.current_bind fun m _ => .ite (fun _ => .fail ?_) fun _ => ?_
  · rintro m ⟨-, h, -⟩
    exact h.imp (fun _ _ => .untouched) (fun _ _ h => h) fun _ _ h => h
  · refine .bind (Q := Stage (fun e h => e = true ∧ h.dataSetWriterIds = none) b c)
      (.decodeInto ?_ ?_) fun _ => .current_bind fun m hm => ?_
    · rintro v m ⟨-, ⟨ha, h⟩, he⟩
      exact ⟨⟨he, by rw [ha]; rfl⟩, h⟩
    · rintro m ⟨-, ⟨ha, h⟩, he⟩
      refine ⟨⟨by rw [ha]; rfl, fun he' => ?_⟩, h⟩
      rw [show m.payloadHeaderEnabled = true from he] at he'
      cases he'
    · -- an array of as many zeros as there are ids, and then one after the other is set
      refine uint16ArrayDecodeBinary_ends ?_ ?_ fun _ h => h
      · rintro m' ⟨rfl, ⟨he, -⟩, h⟩
        refine ⟨⟨by simp, fun he' => ?_⟩, h⟩
        rw [show m'.payloadHeaderEnabled = true from he] at he'
        cases he'
      · rintro m' i v ⟨⟨hlen, habs⟩, h⟩
        refine ⟨⟨?_, fun he => ?_⟩, h⟩
        · exact (getD_map_set_length _ _ _).trans hlen
        · show DataSetPayloadHeader.mk m'.payloadHeader.count _ = _
          rw [habs he]
          rfl

/-! ## The promoted fields -/

/-- One promoted field more, and one element more in the array, also where decoding it failed. -/
theorem promotedFieldDecodeBinary_ends (counter : Nat) :
    Ends (Stage a (PromotedFieldsCount counter) c) (promotedFieldDecodeBinary src T counter)
      (Stage a (PromotedFieldsCount (counter + 1)) c)
      (Stage a (PromotedFieldsCount (counter + 1)) c) := by
  have hset : ∀ v m, Stage a (PromotedFieldsCount (counter + 1)) c m → Stage a
      (PromotedFieldsCount (counter + 1)) c (NetworkMessage.onPromotedField counter
        (fun _ => .init v) m) := by
    rintro v m ⟨ha, ⟨hlen, hsize, hinit⟩, h⟩
    refine ⟨ha, ⟨?_, hsize, ?_⟩, h⟩
    · show ((m.promotedFields.map _).getD []).length = _
      cases hp : m.promotedFields <;> simp_all
    · show ∀ x ∈ (m.promotedFields.map (·.modify counter fun _ => Slot.init v)).getD [],
        x.isInit = true
      cases hp : m.promotedFields with
      | none => simp
      | some fields =>
        rw [hp, Option.getD_some] at hinit
        intro x hx
        rw [Option.map_some, Option.getD_some] at hx
        obtain ⟨i, hi⟩ := List.mem_iff_getElem?.mp hx
        rw [List.getElem?_modify] at hi
        obtain ⟨y, hy, rfl⟩ := Option.map_eq_some_iff.mp hi
        split
        · rfl
        · exact hinit y (List.mem_of_getElem? hy)
  -- the new slot is written right after it was allocated
  refine .bind (Q := fun m => Stage a (PromotedFieldsCount (counter + 1)) c
    (NetworkMessage.onPromotedField counter (fun _ => .init default) m)) (.assign ?_) fun _ =>
    .bind (.assign fun _ h => h) fun _ =>
      .decodeInto (fun v m h => hset v m h) fun m h => hset default m h
  rintro m ⟨ha, ⟨hlen, -, hinit⟩, h⟩
  refine ⟨ha, ⟨?_, rfl, ?_⟩, h⟩
  · show ((m.promotedFields.getD [] ++ [Slot.uninit]).modify counter _).length = _
    rw [List.length_modify, List.length_append, hlen, List.length_singleton]
  · show ∀ x ∈ (m.promotedFields.getD [] ++ [Slot.uninit]).modify counter
      (fun _ => Slot.init default), x.isInit = true
    have hlast : (m.promotedFields.getD [] ++ [(Slot.uninit : Slot Variant)])[counter]? =
        some .uninit := by
      rw [← hlen]
      simp
    rw [modify_eq_set_of_getElem? hlast, List.set_append_right _ _ (by omega), hlen,
      Nat.sub_self]
    intro x hx
    rcases List.mem_append.mp hx with hx | hx
    · exact hinit x hx
    · rw [List.set_cons_zero, List.mem_singleton] at hx
      rw [hx]
      rfl

/-- The declared size bounds the number of fields, so the 16-bit counter holds it. -/
theorem PromotedFieldsCount.ok {n : Nat} {fields : Option (List (Slot Variant))} {size : UInt16}
    (h : PromotedFieldsCount n fields size) (hn : n < 65536) : PromotedFieldsOk fields size := by
  have hsize : size.toNat = n := by
    rw [h.counter, UInt16.toNat_ofNat']
    omega
  exact ⟨h.length.trans hsize.symm, by simp, h.initialised⟩

/-- Induction on the fuel: after each field the counter has gone up by one, and what
is left of the fuel down by one. -/
theorem promotedFieldsLoop_ends (offsetEnd : Nat) : ∀ fuel counter, counter + fuel < 65536 →
    Ends (Stage a (PromotedFieldsCount counter) c)
      (promotedFieldsLoop src T offsetEnd fuel counter) (Stage a PromotedFieldsOk c)
      (Stage a PromotedFieldsOk c)
  | 0, _, _ => fun _ _ => trivial
  | fuel + 1, counter, hlt => by
    have hok : ∀ m, Stage a (PromotedFieldsCount (counter + 1)) c m →
        Stage a PromotedFieldsOk c m := fun m h =>
      h.imp (fun _ _ h => h) (fun _ _ h => h.ok (by omega)) fun _ _ h => h
    refine .bind ((promotedFieldDecodeBinary_ends counter).conseq (fun _ h => h) (fun _ h => h) hok)
      fun _ => .gets_bind fun offset => .ite (fun _ => ?_) fun _ => .pure hok
    exact promotedFieldsLoop_ends offsetEnd fuel (counter + 1) (by omega)

/-- The loop over the promoted fields counts them as it goes. -/
theorem promotedFieldsDecodeBinary_ends :
    Ends (Stage a NoPromotedFields c) (promotedFieldsDecodeBinary src T)
      (Stage a PromotedFieldsOk c) (Stage a PromotedFieldsOk c) := by
  have hok : ∀ m, Stage a NoPromotedFields c m → Stage a PromotedFieldsOk c m := fun m h =>
    h.imp (fun _ _ h => h) (fun _ _ => .none) fun _ _ h => h
  refine .bind (.decodeLocal (Q := Stage a NoPromotedFields c) (fun _ h => h) hok) fun size =>
    .ite (fun _ => .gets_bind fun offset => ?_) fun _ => .pure hok
  refine (promotedFieldsLoop_ends _ _ 0 ?_).conseq (fun m h => ?_) (fun _ h => h) fun _ h => h
  · have := size.toNat_lt
    omega
  · refine h.imp (fun _ _ h => h) (fun f n hn => ?_) fun _ _ h => h
    obtain ⟨rfl, rfl⟩ := hn
    exact ⟨rfl, rfl, by simp⟩

/-! ## The security header -/

/-- The nonce writes only itself. -/
theorem messageNonceDecodeBinary_ends {P : NetworkMessageSecurityHeader → Prop}
    (hP : ∀ h nonce, P h → P { h with messageNonce := nonce }) :
    Ends (fun h => P h) (messageNonceDecodeBinary src)
      (fun h => P h ∧ (h.messageNonce.getD []).length = h.nonceLength.toNat)
      (fun h => P h ∧ (h.messageNonce.getD []).length = h.nonceLength.toNat) := by
  refine .current_bind fun h _ => .bind (.assign ?_) fun _ => .forUpTo fun i => .decodeInto ?_ ?_
  · rintro _ ⟨rfl, hh⟩
    exact ⟨hP _ _ hh, by simp⟩
  · rintro v h ⟨hh, hlen⟩
    exact ⟨hP _ _ hh, (getD_map_set_length _ _ _).trans hlen⟩
  · rintro h ⟨hh, hlen⟩
    exact ⟨hP _ _ hh, (getD_map_set_length _ _ _).trans hlen⟩

/-- The security header: the size of the footer is read only with its flag. -/
theorem securityHeaderDecodeBinary_ends :
    Ends (fun h => h = default) (securityHeaderDecodeBinary src) (SecurityHeaderOk true)
      (SecurityHeaderOk true) := by
  have hok : ∀ h : NetworkMessageSecurityHeader, (h.messageNonce.getD []).length =
      h.nonceLength.toNat → h.securityFooterSize = 0 → SecurityHeaderOk true h := fun h hn hf =>
    ⟨hn, fun _ => hf, fun he => by cases he⟩
  refine .bind (Q := fun h => h = default) (.decodeLocal (fun _ h => h) ?_) fun v => ?_
  · rintro _ rfl
    exact hok _ rfl rfl
  refine .bind (Q := fun h => h.messageNonce = none ∧ h.nonceLength = 0 ∧
    h.securityFooterSize = 0) (.assign ?_) fun _ => ?_
  · rintro _ rfl
    exact ⟨rfl, rfl, rfl⟩
  refine .bind (Q := fun h => h.messageNonce = none ∧ h.nonceLength = 0 ∧
    h.securityFooterSize = 0) (.decodeInto (fun _ _ h => h) ?_) fun _ => ?_
  · rintro h ⟨hn, hl, hf⟩
    exact hok _ (by simp only [hn, hl]; rfl) hf
  refine .bind (Q := fun h => h.messageNonce = none ∧ h.securityFooterSize = 0)
    (.decodeInto (fun _ _ h => ⟨h.1, h.2.2⟩) ?_) fun _ => ?_
  · rintro h ⟨hn, -, hf⟩
    exact hok _ (by simp only [hn]; rfl) hf
  refine .bind (Q := fun h => h.securityFooterSize = 0 ∧
    (h.messageNonce.getD []).length = h.nonceLength.toNat) (.onFlag ?_ ?_) fun _ => .onFlag ?_ ?_
  · refine (messageNonceDecodeBinary_ends (P := fun h => h.securityFooterSize = 0)
      fun _ _ h => h).conseq (fun _ h => h.1.2) (fun _ h => h) ?_
    rintro h ⟨hf, hn⟩
    exact hok h hn hf
  · rintro h ⟨hn, hf⟩ hflag
    -- no nonce is read for the length 0
    have hz : h.nonceLength = 0 := by
      apply UInt8.toNat_inj.mp
      have : ¬ (0 : UInt8).toNat < h.nonceLength.toNat := by
        simpa [UInt8.lt_iff_toNat_lt] using hflag
      simpa using this
    exact ⟨hf, by rw [hn, hz]; rfl⟩
  · -- the footer size is read last, so it is 0 wherever the header breaks off before
    refine .decodeInto ?_ ?_
    · rintro v h ⟨⟨-, hn⟩, hflag⟩
      refine ⟨hn, fun hf => ?_, fun he => by cases he⟩
      rw [show h.securityFooterEnabled = true from hflag] at hf
      cases hf
    · rintro h ⟨⟨-, hn⟩, -⟩
      exact hok _ hn rfl
  · rintro h ⟨hf, hn⟩ -
    exact hok h hn hf

theorem securityHeader_ends :
    Ends (fun m => Stage a b Untouched m ∧ m.securityEnabled = true)
      (decodePart NetworkMessage.securityHeader (fun h m => { m with securityHeader := h })
        (securityHeaderDecodeBinary src)) (Stage a b SecurityHeaderOk)
      (Stage a b SecurityHeaderOk) := by
  have hset : ∀ m h, (Stage a b Untouched m ∧ m.securityEnabled = true) →
      SecurityHeaderOk true h → Stage a b SecurityHeaderOk { m with securityHeader := h } := by
    rintro m h ⟨⟨ha, hb, -, hm⟩, he⟩ hh
    refine ⟨ha, hb, ?_, hm⟩
    show SecurityHeaderOk m.securityEnabled h
    rwa [he]
  exact .decodePart securityHeaderDecodeBinary_ends (fun m h => h.1.2.2.1) hset hset

end

section

variable (src T)

/-- The sections in front of the promoted fields. -/
def frontDecodeBinary : Decoder NetworkMessage Unit := do
  assign fun _ => default
  flagsDecodeBinary src
  onFlag (·.publisherIdEnabled) (publisherIdDecodeBinary src T)
  onFlag (·.dataSetClassIdEnabled) <|
    decodeInto (uaGuidDecodeBinary src) fun v m => { m with dataSetClassId := v }
  onFlag (·.groupHeaderEnabled) <|
    decodePart NetworkMessage.groupHeader (fun g m => { m with groupHeader := g })
      (groupHeaderDecodeBinary src)
  onFlag (·.payloadHeaderEnabled) (payloadHeaderDecodeBinary src)
  onFlag (·.timestampEnabled) <|
    decodeInto (uaUInt64DecodeBinary src) fun v m => { m with timestamp := v }
  onFlag (·.picosecondsEnabled) <|
    decodeInto (uaUInt16DecodeBinary src) fun v m => { m with picoseconds := v }

theorem headersDecodeBinary_eq : headersDecodeBinary src T = (do
    frontDecodeBinary src T
    onFlag (·.promotedFieldsEnabled) (promotedFieldsDecodeBinary src T)
    onFlag (·.securityEnabled) <|
      decodePart NetworkMessage.securityHeader (fun h m => { m with securityHeader := h })
        (securityHeaderDecodeBinary src)) := by
  simp only [headersDecodeBinary, frontDecodeBinary, bind_assoc]

end

/-- The sections in front of the promoted fields. -/
theorem frontDecodeBinary_ends :
    Ends (fun _ => True) (frontDecodeBinary src T)
      (Stage PayloadHeaderOk NoPromotedFields Untouched) HeadersOk := by
  have hok₀ : ∀ m, Stage Untouched NoPromotedFields Untouched m → HeadersOk m := fun m h =>
    h.imp (fun _ _ => .untouched) (fun _ _ => .none) fun _ _ => .untouched
  have hok₁ : ∀ m, Stage PayloadHeaderOk NoPromotedFields Untouched m → HeadersOk m := fun m h =>
    h.imp (fun _ _ h => h) (fun _ _ => .none) fun _ _ => .untouched
  refine .bind (Q := Stage Untouched NoPromotedFields Untouched)
    (.assign fun _ _ => ⟨rfl, ⟨rfl, rfl⟩, rfl, rfl, rfl⟩) fun _ => ?_
  refine .bind (flagsDecodeBinary_ends.conseq (fun _ h => h) (fun _ h => h) hok₀) fun _ => ?_
  refine .bind (Q := Stage Untouched NoPromotedFields Untouched) (.onFlag
    (publisherIdDecodeBinary_ends.conseq (fun _ h => h.1) (fun _ h => h) hok₀)
    fun _ h _ => h) fun _ => ?_
  refine .bind (Q := Stage Untouched NoPromotedFields Untouched)
    (.onFlag (.decodeInto (fun _ _ h => h.1) fun _ h => hok₀ _ h.1) fun _ h _ => h) fun _ => ?_
  refine .bind (Q := Stage Untouched NoPromotedFields Untouched) (.onFlag
    (groupHeaderDecodeBinary_ends.conseq (fun _ h => h.1) (fun _ h => h) hok₀)
    fun _ h _ => h) fun _ => ?_
  refine .bind (Q := Stage PayloadHeaderOk NoPromotedFields Untouched) (.onFlag
    (payloadHeaderDecodeBinary_ends.conseq (fun _ h => h) (fun _ h => h) hok₁)
    fun _ h _ => h.imp (fun _ _ => .untouched) (fun _ _ h => h) fun _ _ h => h) fun _ => ?_
  refine .bind (Q := Stage PayloadHeaderOk NoPromotedFields Untouched)
    (.onFlag (.decodeInto (fun _ _ h => h.1) fun _ h => hok₁ _ h.1) fun _ h _ => h) fun _ => ?_
  exact .onFlag (.decodeInto (fun _ _ h => h.1) fun _ h => hok₁ _ h.1) fun _ h _ => h

/-- **The headers.** Whether they succeed or fail, the arrays match their counters. -/
theorem headersDecodeBinary_ends :
    Ends (fun _ => True) (headersDecodeBinary src T) HeadersOk HeadersOk := by
  have hok₂ : ∀ m, Stage PayloadHeaderOk PromotedFieldsOk Untouched m → HeadersOk m := fun m h =>
    h.imp (fun _ _ h => h) (fun _ _ h => h) fun _ _ => .untouched
  rw [headersDecodeBinary_eq]
  refine .bind frontDecodeBinary_ends fun _ => ?_
  refine .bind (Q := Stage PayloadHeaderOk PromotedFieldsOk Untouched) (.onFlag
    (promotedFieldsDecodeBinary_ends.conseq (fun _ h => h.1) (fun _ h => h) hok₂)
    fun _ h _ => h.imp (fun _ _ h => h) (fun _ _ => .none) fun _ _ h => h) fun _ => ?_
  exact .onFlag securityHeader_ends fun m h _ => hok₂ m h

/-! ## The flag of the payload header -/

/-- The payload header flag of the NetworkMessage at `offset`. -/
def payloadHeaderFlag (src : Bytes) (offset : Nat) : Bool :=
  bitSet (byteAt src offset) nmPayloadHeaderEnabledMask

section

variable {e : Bool}

/-- The payload header is enabled, or not. -/
abbrev Enabled (e : Bool) (m : NetworkMessage) : Prop := m.payloadHeaderEnabled = e

theorem publisherIdDecodeBinary_enabled :
    Ends (Enabled e) (publisherIdDecodeBinary src T) (Enabled e) fun _ => True := by
  refine Ends.current_bind fun m _ => ?_
  refine Ends.weaken (fun _ h => h.2) ?_
  cases m.publisherId with
  | byte v => exact .decodeInto (fun _ _ h => h) fun _ _ => trivial
  | uint16 v => exact .decodeInto (fun _ _ h => h) fun _ _ => trivial
  | uint32 v => exact .decodeInto (fun _ _ h => h) fun _ _ => trivial
  | uint64 v => exact .decodeInto (fun _ _ h => h) fun _ _ => trivial
  | string v => exact .decodeInto (fun _ _ h => h) fun _ _ => trivial
  | reserved v => exact .fail fun _ _ => trivial

theorem payloadHeaderDecodeBinary_enabled :
    Ends (Enabled e) (payloadHeaderDecodeBinary src) (Enabled e) fun _ => True :=
  .current_bind fun _ _ => .weaken (fun _ h => h.2) <| .ite (fun _ => .fail fun _ _ => trivial)
    fun _ => .bind (Q := Enabled e) (.decodeInto (fun _ _ h => h) fun _ _ => trivial) fun _ =>
      .current_bind fun _ _ => .weaken (fun _ h => h.2) <|
        uint16ArrayDecodeBinary_ends (fun _ h => h) (fun _ _ _ h => h) fun _ _ => trivial

/-- The loop leaves the flag of the payload header alone. -/
theorem promotedFieldsLoop_enabled (offsetEnd : Nat) : ∀ fuel counter,
    Ends (Enabled e) (promotedFieldsLoop src T offsetEnd fuel counter) (Enabled e) fun _ => True
  | 0, _ => fun _ _ => trivial
  | fuel + 1, counter =>
    .bind (Q := Enabled e) (.bind (Q := Enabled e) (.assign fun _ h => h) fun _ =>
      .bind (Q := Enabled e) (.assign fun _ h => h) fun _ =>
        .decodeInto (fun _ _ h => h) fun _ _ => trivial) fun _ =>
      .gets_bind fun _ => .ite (fun _ => promotedFieldsLoop_enabled offsetEnd fuel (counter + 1))
        fun _ => .pure fun _ h => h

/-- The sections behind the UADP flags leave the flag alone. -/
theorem sections_enabled : Ends (Enabled e) (do
      onFlag (·.publisherIdEnabled) (publisherIdDecodeBinary src T)
      onFlag (·.dataSetClassIdEnabled) <|
        decodeInto (uaGuidDecodeBinary src) fun v m => { m with dataSetClassId := v }
      onFlag (·.groupHeaderEnabled) <|
        decodePart NetworkMessage.groupHeader (fun g m => { m with groupHeader := g })
          (groupHeaderDecodeBinary src)
      onFlag (·.payloadHeaderEnabled) (payloadHeaderDecodeBinary src)
      onFlag (·.timestampEnabled) <|
        decodeInto (uaUInt64DecodeBinary src) fun v m => { m with timestamp := v }
      onFlag (·.picosecondsEnabled) <|
        decodeInto (uaUInt16DecodeBinary src) fun v m => { m with picoseconds := v }
      onFlag (·.promotedFieldsEnabled) (promotedFieldsDecodeBinary src T)
      onFlag (·.securityEnabled) <|
        decodePart NetworkMessage.securityHeader (fun h m => { m with securityHeader := h })
          (securityHeaderDecodeBinary src)) (Enabled e) fun _ => True := by
  have onFlag : ∀ {flag : NetworkMessage → Bool} {x : Decoder NetworkMessage Unit},
      Ends (Enabled e) x (Enabled e) (fun _ => True) →
        Ends (Enabled e) (onFlag flag x) (Enabled e) fun _ => True := fun hx =>
    .onFlag (hx.weaken fun _ h => h.1) fun _ h _ => h
  have part : ∀ {N : Type} {get : NetworkMessage → N} {put : N → NetworkMessage → NetworkMessage}
      {x : Decoder N Unit}, (∀ n m, Enabled e m → Enabled e (put n m)) →
        Ends (Enabled e) (decodePart get put x) (Enabled e) fun _ => True := fun hput =>
    .decodePart (Ends.trivially (P := fun _ => True)) (fun _ _ => trivial)
      (fun _ _ h _ => hput _ _ h) fun _ _ _ _ => trivial
  refine .bind (onFlag publisherIdDecodeBinary_enabled) fun _ => ?_
  refine .bind (onFlag (.decodeInto (fun _ _ h => h) fun _ _ => trivial)) fun _ => ?_
  refine .bind (onFlag (part fun _ _ h => h)) fun _ => ?_
  refine .bind (onFlag payloadHeaderDecodeBinary_enabled) fun _ => ?_
  refine .bind (onFlag (.decodeInto (fun _ _ h => h) fun _ _ => trivial)) fun _ => ?_
  refine .bind (onFlag (.decodeInto (fun _ _ h => h) fun _ _ => trivial)) fun _ => ?_
  refine .bind (onFlag ?_) fun _ => onFlag (part fun _ _ h => h)
  exact .bind (.decodeLocal (fun _ h => h) fun _ _ => trivial) fun _ =>
    .ite (fun _ => .gets_bind fun _ => promotedFieldsLoop_enabled _ _ _) fun _ => .pure fun _ h => h

/-- The first byte decides whether there is a payload header. -/
theorem headersDecodeBinary_enabled {s t : Decoding NetworkMessage} {u : Unit}
    (h : headersDecodeBinary src T s = .done u t) :
    Enabled (payloadHeaderFlag src s.offset) t.dst := by
  obtain ⟨_, s₁, ⟨⟩, hrest⟩ := bind_eq_done.mp h
  obtain ⟨_, s₂, hfirst, hsections⟩ := bind_eq_done.mp hrest
  obtain ⟨v, s₃, h₃, h₂⟩ := bind_eq_done.mp hfirst
  obtain ⟨o, hbyte, rfl⟩ := zoom_eq_done.mp h₃
  -- the flags are those of the first byte, and no section behind it changes them
  have hv : v = byteAt src s.offset := by
    unfold uaByteDecodeBinary uaDecodeBinary at hbyte
    cases hrun : byteDecodeBinary src ⟨s.offset, 0⟩ with
    | done b c =>
      rw [hrun] at hbyte
      cases hbyte
      exact (byteDecodeBinary_eq_done hrun).1
    | fail e c => simp [hrun] at hbyte
    | fault => simp [hrun] at hbyte
  have hflags : Ends (fun _ => True) (assign (fun m => { m with
        version := v &&& nmVersionMask
        publisherIdEnabled := bitSet v nmPublisherIdEnabledMask
        groupHeaderEnabled := bitSet v nmGroupHeaderEnabledMask
        payloadHeaderEnabled := bitSet v nmPayloadHeaderEnabledMask }) >>= fun _ =>
      onBit v nmExtendedFlags1EnabledMask (extendedFlags1DecodeBinary src))
      (Enabled (bitSet v nmPayloadHeaderEnabledMask)) fun _ => True :=
    .bind (.assign fun _ _ => rfl) fun _ =>
      .onBit (.bind (.decodeLocal (fun _ h => h) fun _ _ => trivial) fun _ =>
        .bind (.assign fun _ h => h) fun _ =>
          .onBit (.bind (.decodeLocal (fun _ h => h) fun _ _ => trivial) fun _ =>
            .assign fun _ h => h) fun _ h => h) fun _ h => h
  rw [payloadHeaderFlag, ← hv]
  exact sections_enabled.done (hflags.done trivial h₂) hsections

end

/-! ## The payload -/

/-- The arrays of a message that is being decoded, up to its DataSetMessages. -/
structure ArraysOk (m : NetworkMessage) : Prop where
  payloadHeader : PayloadHeaderOk m.payloadHeaderEnabled m.payloadHeader
  promotedFields : PromotedFieldsOk m.promotedFields m.promotedFieldsSize
  securityHeader : SecurityHeaderOk m.securityEnabled m.securityHeader
  sizes : ∀ sizes, m.payload.sizes = some sizes → sizes.length = m.payloadHeader.count.toNat

/-- The sizes are there if and only if there are several DataSetMessages. -/
def SizesPresent (m : NetworkMessage) : Prop :=
  m.payload.sizes.isSome = decide (m.payloadHeader.count > 1)

/-- Behind the headers the sizes are not there yet. -/
theorem HeadersOk.arraysOk {m : NetworkMessage} (h : HeadersOk m) : ArraysOk m := by
  obtain ⟨ha, hb, hc, hp, -⟩ := h
  refine ⟨ha, hb, hc, fun sizes hs => ?_⟩
  rw [hp] at hs
  cases hs

/-- Before the DataSetMessages. -/
def BeforeMessages (m : NetworkMessage) : Prop :=
  ArraysOk m ∧ m.payload.dataSetMessages = none ∧ m.securityFooter = none

/-- The sizes of the messages, which are there where there are several. -/
theorem sizesDecodeBinary_ends :
    Ends HeadersOk (sizesDecodeBinary src) (fun m => BeforeMessages m ∧ SizesPresent m)
      BeforeMessages := by
  refine .current_bind fun m hm => .ite (fun hc => ?_) fun hc => .pure ?_
  · refine uint16ArrayDecodeBinary_ends ?_ ?_ fun _ h => h.1
    · rintro _ ⟨rfl, ⟨ha, hb, hc', hp, hf⟩⟩
      refine ⟨⟨⟨ha, hb, hc', ?_⟩, congrArg DataSetPayload.dataSetMessages hp, hf⟩, ?_⟩
      · rintro _ ⟨⟩
        exact List.length_replicate
      · show true = decide _
        exact (decide_eq_true hc.2).symm
    · rintro m' i v ⟨⟨⟨ha, hb, hc', hs⟩, hd, hf⟩, hpres⟩
      refine ⟨⟨⟨ha, hb, hc', fun sizes hsizes => ?_⟩, hd, hf⟩, ?_⟩
      · obtain ⟨sizes', hs', rfl⟩ := Option.map_eq_some_iff.mp hsizes
        exact List.length_set.trans (hs sizes' hs')
      · exact Option.isSome_map.trans hpres
  · rintro m ⟨rfl, h⟩
    obtain ⟨ha, -, -, hp, hf⟩ := id h
    refine ⟨⟨h.arraysOk, congrArg DataSetPayload.dataSetMessages hp, hf⟩, ?_⟩
    -- without a payload header the counter is zero
    have hcount : ¬ m.payloadHeader.count > 1 := by
      intro hgt
      cases he : m.payloadHeaderEnabled with
      | true => exact hc ⟨he, hgt⟩
      | false =>
        rw [ha.absent he] at hgt
        exact absurd hgt (by decide)
    show m.payload.sizes.isSome = decide _
    rw [decide_eq_false hcount, show m.payload.sizes = none from congrArg DataSetPayload.sizes hp]
    rfl

/-- `m` with these DataSetMessages. -/
def NetworkMessage.withMessages (m : NetworkMessage) (ds : List DataSetMessage) : NetworkMessage :=
  { m with payload := { m.payload with dataSetMessages := some ds } }

/-- The state of the loop over the DataSetMessages. -/
def messagesState (m : NetworkMessage) (p : Nat) (ds : List DataSetMessage) :
    Decoding NetworkMessage :=
  ⟨p, m.withMessages ds⟩

/-- A message that was decoded into a structure of zeros. -/
theorem uaDataSetMessageDecodeBinary_done {p : Nat} {t : Decoding DataSetMessage}
    (h : dataSetMessageDecodeBinary src T ⟨p, default⟩ = .done () t) :
    uaDataSetMessageDecodeBinary src T p = .done t.dst t.offset := by
  simp only [uaDataSetMessageDecodeBinary, h]

theorem uaDataSetMessageDecodeBinary_fail {p : Nat} {t : Decoding DataSetMessage} {e : ErrorCode}
    (h : dataSetMessageDecodeBinary src T ⟨p, default⟩ = .fail e t) :
    uaDataSetMessageDecodeBinary src T p = .fail e t.offset := by
  simp only [uaDataSetMessageDecodeBinary, h]

/-- The messages of the payload are described by where each of them starts. -/
theorem dataSetMessage_fills (m : NetworkMessage) :
    Fills (pure ()) (uaDataSetMessageDecodeBinary src T) (messagesState m) default
      (fun p d => (frameAt src T p).Describes src T d)
      (fun p d => (frameAt src T p).Interrupted d) (fun _ => False)
      (fun i => decodePart (NetworkMessage.dataSetMessageAt i) (NetworkMessage.setDataSetMessage i)
        (dataSetMessageDecodeBinary src T)) := by
  intro i ds p _
  -- the message begins with a memset, whatever the array held
  have hfresh : dataSetMessageDecodeBinary src T
      ⟨p, NetworkMessage.dataSetMessageAt i (m.withMessages ds)⟩ =
        dataSetMessageDecodeBinary src T ⟨p, default⟩ := rfl
  have h : (dataSetMessageDecodeBinary src T ⟨p, default⟩).Sat _ _ :=
    dataSetMessageDecodeBinary_layout p
  cases hrun : dataSetMessageDecodeBinary src T ⟨p, default⟩ with
  | fault =>
    rw [hrun] at h
    exact absurd h (by simp)
  | done u t =>
    rw [hrun] at h
    simp only [messagesState, decodePart, zoom, hfresh, hrun]
    exact ⟨p, t.offset, t.dst, t.dst, rfl, uaDataSetMessageDecodeBinary_done hrun, rfl, h⟩
  | fail e t =>
    rw [hrun] at h
    simp only [messagesState, decodePart, zoom, hfresh, hrun]
    exact ⟨t.offset, t.dst, rfl, .inl ⟨p, e, t.offset, rfl,
      uaDataSetMessageDecodeBinary_fail hrun, h⟩⟩

/-- `m` with this footer and this signature. -/
def NetworkMessage.withTrailer (m : NetworkMessage) (footer signature : UAString) :
    NetworkMessage :=
  { m with securityFooter := footer, signature := signature }

/-- The trailer changes the footer and the signature only. -/
theorem securityFooterLoop_ends {m : NetworkMessage} {n : Nat} : ∀ fuel i,
    Ends (fun m' => ∃ f s, m' = m.withTrailer f s ∧ (f.getD []).length = n)
      (securityFooterLoop src fuel i)
      (fun m' => ∃ f s, m' = m.withTrailer f s ∧ (f.getD []).length = n)
      (fun m' => ∃ f s, m' = m.withTrailer f s)
  | 0, _ => fun _ _ => trivial
  | fuel + 1, i => by
    refine .current_bind fun m' _ => .weaken (fun _ h => h.2) ?_
    refine .ite (fun _ => .bind (.decodeInto ?_ ?_) fun _ => securityFooterLoop_ends fuel (i + 1))
      fun _ => .pure fun _ h => h
    · rintro v _ ⟨f, s, rfl, hf⟩
      exact ⟨_, s, rfl, (getD_map_set_length _ _ _).trans hf⟩
    · rintro _ ⟨f, s, rfl, -⟩
      exact ⟨_, s, rfl⟩

/-- The trailer: the footer has the size that the header names. -/
theorem securityTrailerDecodeBinary_ends {m : NetworkMessage} (hfooter : m.securityFooter = none)
    (hsize : m.securityHeader.securityFooterEnabled = false →
      m.securityHeader.securityFooterSize = 0) :
    Ends (fun m' => m' = m) (securityTrailerDecodeBinary src T)
      (fun m' => ∃ f s, m' = m.withTrailer f s ∧
        (f.getD []).length = m.securityHeader.securityFooterSize.toNat)
      (fun m' => ∃ f s, m' = m.withTrailer f s) := by
  refine .bind (Q := fun m' => ∃ f s, m' = m.withTrailer f s ∧
    (f.getD []).length = m.securityHeader.securityFooterSize.toNat) ?_ fun _ => .onFlag ?_ ?_
  · refine .current_bind fun m₀ h₀ => ?_
    subst h₀
    refine .ite (fun _ => ?_) fun hc => .pure ?_
    · refine .bind (.assign ?_) fun _ => securityFooterLoop_ends _ _
      rintro _ ⟨rfl, -⟩
      exact ⟨_, _, rfl, by simp⟩
    · rintro m₀ ⟨rfl, -⟩
      refine ⟨none, m₀.signature, by rw [← hfooter]; rfl, ?_⟩
      -- no footer: it is disabled, or of size 0
      have hz : m₀.securityHeader.securityFooterSize = 0 := by
        cases he : m₀.securityHeader.securityFooterEnabled with
        | false => exact hsize he
        | true =>
          apply UInt16.toNat_inj.mp
          have : ¬ 0 < m₀.securityHeader.securityFooterSize.toNat := by
            simpa [he, UInt16.lt_iff_toNat_lt] using hc
          simpa using this
      rw [hz]
      rfl
  · refine .decodeInto ?_ ?_
    · rintro v _ ⟨⟨f, s, rfl, hf⟩, -⟩
      exact ⟨f, v, rfl, hf⟩
    · rintro _ ⟨⟨f, s, rfl, -⟩, -⟩
      exact ⟨f, _, rfl⟩
  · exact fun _ h _ => h

/-! ## The whole message -/

variable (src T)

/-- What a successful decoder leaves, seen from the frames of the datagram. -/
structure Decoded (offset : Nat) (m : NetworkMessage) : Prop where
  type : m.networkMessageType = .dataSet
  enabled : m.payloadHeaderEnabled = payloadHeaderFlag src offset
  arrays : ArraysOk m
  sizes : SizesPresent m
  footer : (m.securityFooter.getD []).length = m.securityHeader.securityFooterSize.toNat
  messages : ∃ ds, m.payload.dataSetMessages = some ds ∧ ds.length = m.dataSetMessageCount ∧
    List.Forall₂ (fun p d => (frameAt src T p).Describes src T d) (frameStarts src T offset) ds

/-- What a failing decoder leaves, by where it failed. -/
inductive HalfDecoded (offset : Nat) : NetworkMessage → Prop where
  | before {m : NetworkMessage} (arrays : ArraysOk m) (messages : m.payload.dataSetMessages = none)
      (starts : frameStarts src T offset = []) : HalfDecoded offset m
  | messages {m : NetworkMessage} {ds : List DataSetMessage}
      (type : m.networkMessageType = .dataSet) (arrays : ArraysOk m)
      (half : HalfFilled (fun p d => (frameAt src T p).Describes src T d)
        (fun p d => (frameAt src T p).Interrupted d) (fun _ => False) default
        (frameStarts src T offset) m.dataSetMessageCount ds) :
      HalfDecoded offset (m.withMessages ds)
  | trailer {m : NetworkMessage} {ds : List DataSetMessage} {f s : UAString}
      (type : m.networkMessageType = .dataSet) (arrays : ArraysOk m)
      (length : ds.length = m.dataSetMessageCount)
      (messages : List.Forall₂ (fun p d => (frameAt src T p).Describes src T d)
        (frameStarts src T offset) ds) :
      HalfDecoded offset ((m.withMessages ds).withTrailer f s)

variable {src T}

/-- Where the messages start, if the headers were decoded. -/
theorem frameStarts_of_done {offset : Nat} {s u : Decoding NetworkMessage}
    (hh : headersDecodeBinary src T ⟨offset, default⟩ = .done () s)
    (hs : sizesDecodeBinary src s = .done () u) (ht : u.dst.networkMessageType = .dataSet) :
    frameStarts src T offset = starts (pure ()) (uaDataSetMessageDecodeBinary src T)
      u.dst.dataSetMessageCount u.offset := by
  unfold frameStarts
  rw [bind_done hh, hs]
  exact if_pos ht

/-- No message starts if the headers were not. -/
theorem frameStarts_of_fail {offset : Nat} {s : Decoding NetworkMessage} {e : ErrorCode}
    (h : (headersDecodeBinary src T >>= fun _ => sizesDecodeBinary src) ⟨offset, default⟩ =
      .fail e s) : frameStarts src T offset = [] := by
  unfold frameStarts
  rw [h]

/-- The array of sizes leaves the headers alone. -/
theorem sizesDecodeBinary_headers {t : NetworkMessageType} {e : Bool} :
    Ends (fun m => m.networkMessageType = t ∧ Enabled e m) (sizesDecodeBinary src)
      (fun m => m.networkMessageType = t ∧ Enabled e m) fun _ => True :=
  .current_bind fun _ _ => .ite
    (fun _ => uint16ArrayDecodeBinary_ends (fun _ h => h.2) (fun _ _ _ h => h) fun _ _ => trivial)
    fun _ => .pure fun _ h => h.2

/-- No frame is reached when the message is of another type. -/
theorem frameStarts_of_type {offset : Nat} {s : Decoding NetworkMessage}
    (hh : headersDecodeBinary src T ⟨offset, default⟩ = .done () s)
    (ht : s.dst.networkMessageType ≠ .dataSet) : frameStarts src T offset = [] := by
  unfold frameStarts
  rw [bind_done hh]
  cases hs : sizesDecodeBinary src s with
  | done _ u =>
    have hu := sizesDecodeBinary_headers.done (s := s) ⟨rfl, rfl⟩ hs
    exact if_neg (hu.1 ▸ ht)
  | fail e u => rfl
  | fault => rfl

/-- The DataSetMessages and what follows them. -/
theorem messages_exits {offset : Nat} {u : Decoding NetworkMessage}
    (hb : BeforeMessages u.dst) (hsizes : SizesPresent u.dst)
    (ht : u.dst.networkMessageType = .dataSet)
    (henabled : Enabled (payloadHeaderFlag src offset) u.dst)
    (hstarts : frameStarts src T offset = starts (pure ()) (uaDataSetMessageDecodeBinary src T)
      u.dst.dataSetMessageCount u.offset) :
    ((dataSetMessagesDecodeBinary src T >>= fun _ =>
      onFlag (·.securityEnabled) (securityTrailerDecodeBinary src T)) u).Sat
      (fun _ t => Decoded src T offset t.dst) (fun _ t => HalfDecoded src T offset t.dst) := by
  obtain ⟨harrays, -, hfooter⟩ := hb
  have hloop : (dataSetMessagesDecodeBinary src T u).Sat _ _ :=
    (dataSetMessage_fills u.dst).loop u.dst.dataSetMessageCount u.offset
  rw [← hstarts] at hloop
  refine bind_sat (hloop.imp (fun _ _ h => h) ?_) ?_
  · -- the loop breaks off with one message half-filled
    rintro _ _ ⟨r, ds, rfl, hhalf⟩
    exact .messages ht harrays hhalf
  · -- all messages are there, and the trailer can still fail
    rintro _ _ ⟨r, ds, rfl, hlen, hds⟩
    have hcount : ds.length = u.dst.dataSetMessageCount := hds.length_eq.symm.trans hlen
    have htrailer : Ends (fun m => m = u.dst.withMessages ds) (onFlag (·.securityEnabled)
        (securityTrailerDecodeBinary src T)) (fun m => ∃ f s, m =
          (u.dst.withMessages ds).withTrailer f s ∧
          (f.getD []).length = u.dst.securityHeader.securityFooterSize.toNat)
        (fun m => ∃ f s, m = (u.dst.withMessages ds).withTrailer f s) := by
      refine .onFlag ((securityTrailerDecodeBinary_ends (m := u.dst.withMessages ds) hfooter
        harrays.securityHeader.footer).conseq (fun _ h => h.1) (fun _ h => h) fun _ h => h) ?_
      rintro _ rfl hflag
      refine ⟨none, u.dst.signature, by rw [← hfooter]; rfl, ?_⟩
      rw [harrays.securityHeader.absent hflag]
      rfl
    have hadv :
      Advances True src 0 (onFlag (·.securityEnabled) (securityTrailerDecodeBinary src T)) :=
      .onFlag securityTrailerDecodeBinary_advances
    have hregular := hadv (messagesState u.dst r ds)
    cases hrun : onFlag (·.securityEnabled) (securityTrailerDecodeBinary src T)
        (messagesState u.dst r ds) with
    | fault =>
      rw [hrun] at hregular
      exact absurd hregular (by simp)
    | done _ t =>
      obtain ⟨f, s, hm, hf⟩ := htrailer.done (s := messagesState u.dst r ds) rfl hrun
      show Decoded src T offset t.dst
      rw [hm]
      refine ⟨ht, henabled, ⟨harrays.payloadHeader, harrays.promotedFields, harrays.securityHeader,
        harrays.sizes⟩, hsizes, hf, ds, rfl, hcount, hds⟩
    | fail e t =>
      obtain ⟨f, s, hm⟩ := htrailer.failed (s := messagesState u.dst r ds) rfl hrun
      show HalfDecoded src T offset t.dst
      rw [hm]
      exact .trailer ht harrays hcount hds

/-- **The structure at both exits of the decoder.** -/
theorem networkMessageDecodeBinaryInternal_exits (s : Decoding NetworkMessage) :
    (networkMessageDecodeBinaryInternal src T s).Sat
      (fun _ t => Decoded src T s.offset t.dst) (fun _ t => HalfDecoded src T s.offset t.dst) := by
  have hadv : Advances T.NonemptyStructs src 1 (headersDecodeBinary src T) :=
    headersDecodeBinary_advances
  have hregular := hadv s
  have hfresh : headersDecodeBinary src T ⟨s.offset, default⟩ = headersDecodeBinary src T s := rfl
  show ((headersDecodeBinary src T >>= fun _ => payloadDecodeBinary src T) s).Sat _ _
  cases hh : headersDecodeBinary src T s with
  | fault =>
    rw [hh] at hregular
    exact absurd hregular (by simp)
  | fail e t =>
    -- in the headers: no message is there yet
    rw [bind_fail hh]
    have hstarts := frameStarts_of_fail (bind_fail (hfresh.trans hh))
    have hok : HeadersOk t.dst := headersDecodeBinary_ends.failed trivial hh
    exact .before hok.arraysOk (congrArg DataSetPayload.dataSetMessages hok.2.2.2.1) hstarts
  | done _ t =>
    rw [bind_done hh]
    have hok : HeadersOk t.dst := headersDecodeBinary_ends.done trivial hh
    show ((if t.dst.networkMessageType ≠ .dataSet then fail badNotImplemented
      else sizesDecodeBinary src >>= fun _ => dataSetMessagesDecodeBinary src T >>= fun _ =>
        onFlag (·.securityEnabled) (securityTrailerDecodeBinary src T) :
          Decoder NetworkMessage Unit) t).Sat _ _
    by_cases ht : t.dst.networkMessageType = .dataSet
    · rw [if_neg (not_not_intro ht)]
      have hsadv : Advances True src 0 (sizesDecodeBinary src) := sizesDecodeBinary_advances
      have hsregular := hsadv t
      cases hs : sizesDecodeBinary src t with
      | fault =>
        rw [hs] at hsregular
        exact absurd hsregular (by simp)
      | fail e u =>
        -- in the sizes: still no message
        rw [bind_fail hs]
        obtain ⟨harrays, hnone, -⟩ := sizesDecodeBinary_ends.failed hok hs
        exact .before harrays hnone
          (frameStarts_of_fail ((bind_done (hfresh.trans hh)).trans hs))
      | done _ u =>
        rw [bind_done hs]
        obtain ⟨hbefore, hsizes⟩ := sizesDecodeBinary_ends.done hok hs
        have henabled : Enabled (payloadHeaderFlag src s.offset) t.dst :=
          headersDecodeBinary_enabled hh
        obtain ⟨hu, hue⟩ := sizesDecodeBinary_headers.done ⟨ht, henabled⟩ hs
        exact messages_exits hbefore hsizes hu hue
          (frameStarts_of_done (hfresh.trans hh) hs hu)
    · -- a message type that is not implemented
      rw [if_pos ht]
      exact .before hok.arraysOk (congrArg DataSetPayload.dataSetMessages hok.2.2.2.1)
        (frameStarts_of_type (hfresh.trans hh) ht)

end OpenPubSub
