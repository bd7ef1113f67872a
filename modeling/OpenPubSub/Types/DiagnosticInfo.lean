import OpenPubSub.Lib.Measured
import OpenPubSub.Types.EncodeSizes
import OpenPubSub.Types.RoundTrip

/-!
# DiagnosticInfos on the wire

Encoder and decoder agree on the order of the seven optional members, and on the bits of
the first five.

- `commits_diagnosticInfo`: the bytes that the encoder writes, at every level of the
  chain, and `diagnosticInfoBytes_length`: as many as the size calculation says.
- The encoder marks an inner DiagnosticInfo with the bit from which the decoder reads an
  inner status code, and an inner status code with none (`diagnosticInfoMask_inner`).
- **`diagnosticInfo_roundTrip_iff`**: which DiagnosticInfos come back.
-/

namespace OpenPubSub

open Routine Writer

variable {T : DataTypes} {src : Bytes} {n : Nat}

/-! ## The bytes -/

/-- The bytes of an optional member. -/
def optionalBytes {α : Type} (f : α → Bytes) : Option α → Bytes
  | some a => f a
  | none => []

@[simp] theorem optionalBytes_some {α : Type} (f : α → Bytes) (a : α) :
    optionalBytes f (some a) = f a := rfl

@[simp] theorem optionalBytes_none {α : Type} (f : α → Bytes) : optionalBytes f none = [] := rfl

def uint32Bytes (v : UInt32) : Bytes := leBytes 4 v.toNat

def diagnosticInfoMask (symbolicId namespaceUri localizedText locale additionalInfo inner : Bool) :
    UInt8 :=
  maskBit symbolicId 0x01 ||| maskBit namespaceUri 0x02 ||| maskBit localizedText 0x04 |||
    maskBit locale 0x08 ||| maskBit additionalInfo 0x10 ||| maskBit inner 0x20

def diagnosticInfoBytes : DiagnosticInfo → Bytes
  | .mk symbolicId namespaceUri localizedText locale additionalInfo innerStatusCode inner =>
    [diagnosticInfoMask symbolicId.isSome namespaceUri.isSome localizedText.isSome locale.isSome
      additionalInfo.isSome inner.isSome] ++
    (optionalBytes uint32Bytes symbolicId ++ (optionalBytes uint32Bytes namespaceUri ++
      (optionalBytes uint32Bytes localizedText ++ optionalBytes uint32Bytes locale))) ++
    (optionalBytes stringBytes additionalInfo ++
      (optionalBytes uint32Bytes innerStatusCode ++
        match inner with
        | some d => diagnosticInfoBytes d
        | none => []))

/-- Every additional info has a length for which there is an Int32. -/
def diagnosticInfoFits : DiagnosticInfo → Bool
  | .mk _ _ _ _ additionalInfo _ inner =>
    additionalInfo.all stringFits &&
      match inner with
      | some d => diagnosticInfoFits d
      | none => true

/-- The members for which the encoder and the decoder use different bits. -/
def DiagnosticInfo.hasInner : DiagnosticInfo → Bool
  | .mk _ _ _ _ _ innerStatusCode inner => innerStatusCode.isSome || inner.isSome

/-- `UA_decodeBinary` for a DiagnosticInfo. -/
def uaDiagnosticInfoDecodeBinary (src : Bytes) (T : DataTypes) :
    Routine ErrorCode Nat DiagnosticInfo :=
  uaDecodeBinary (diagnosticInfoDecodeBinary src T (decodeFuel src))

/-! ## The encoder -/

theorem commits_encodeSome {α : Type} {bytes : α → Bytes} {ok : α → Bool} {f : α → Enc}
    (hf : ∀ a, Commits (bytes a) (ok a = true) (f a)) (o : Option α) :
    Commits (optionalBytes bytes o) (o.all ok = true) (encodeSome o f) := by
  cases o with
  | some a => exact hf a
  | none => exact commits_pure.congr rfl (by simp)

theorem commits_uint32 (v : UInt32) : Commits (uint32Bytes v) True (uint32EncodeBinary v) :=
  (plans_uint32 v).commits.congr (List.append_nil _) (by simp)

theorem commits_encodeSome_uint32 (o : Option UInt32) :
    Commits (optionalBytes uint32Bytes o) True (encodeSome o uint32EncodeBinary) := by
  cases o with
  | some v => exact commits_uint32 v
  | none => exact commits_pure

/-- The induction is on the chain of inner DiagnosticInfos. -/
theorem commits_diagnosticInfo (hT : StandardTypes T) : ∀ d : DiagnosticInfo,
    Commits (diagnosticInfoBytes d) (diagnosticInfoFits d = true) (diagnosticInfoEncodeBinary T d)
  | .mk symbolicId namespaceUri localizedText locale additionalInfo innerStatusCode inner => by
    have hstring : ∀ s, Commits (stringBytes s) (stringFits s = true) (stringEncodeBinary T s) :=
      fun s => (plans_string hT s).commits.congr (by simp) (by simp [stringPlan_ok])
    have hcode : Commits (optionalBytes uint32Bytes innerStatusCode) True
        (encodeSome innerStatusCode fun v => encodeWithExchangeBuffer (uint32EncodeBinary v)) := by
      cases innerStatusCode with
      | some v => exact (commits_uint32 v).goBack
      | none => exact commits_pure
    have hinner : Commits (match inner with | some d => diagnosticInfoBytes d | none => [])
        ((match inner with | some d => diagnosticInfoFits d | none => true) = true)
        (match inner with
          | some d => encodeWithExchangeBuffer (diagnosticInfoEncodeBinary T d)
          | none => pure ()) := by
      cases inner with
      | some d => exact (commits_diagnosticInfo hT d).goBack
      | none => exact commits_pure.congr rfl (by simp)
    -- the mask and the four codes are added up with |=, so all of them are tried
    have hhead := (commits_byte (diagnosticInfoMask symbolicId.isSome namespaceUri.isSome
      localizedText.isSome locale.isSome additionalInfo.isSome inner.isSome)).accum
        ((commits_encodeSome_uint32 symbolicId).accum
          ((commits_encodeSome_uint32 namespaceUri).accum
          ((commits_encodeSome_uint32 localizedText).accum (commits_encodeSome_uint32 locale))))
    have hall := hhead.bind ((commits_encodeSome hstring additionalInfo).bind (hcode.bind hinner))
    unfold diagnosticInfoEncodeBinary diagnosticInfoBytes diagnosticInfoFits
    exact hall.congr rfl (by simp only [true_and, Bool.and_eq_true])

theorem optionalBytes_length {α : Type} {f : α → Bytes} {k : Nat} (hf : ∀ a, (f a).length = k)
    (o : Option α) : (optionalBytes f o).length = sizeIf o.isSome k := by
  cases o with
  | some a => exact hf a
  | none => rfl

theorem uint32Bytes_length (v : UInt32) : (uint32Bytes v).length = 4 := leBytes_length 4 _

/-- The size calculation counts the bytes, at every level. -/
theorem diagnosticInfoBytes_length : ∀ d : DiagnosticInfo,
    (diagnosticInfoBytes d).length = diagnosticInfoCalcSizeBinary d
  | .mk symbolicId namespaceUri localizedText locale additionalInfo innerStatusCode inner => by
    unfold diagnosticInfoBytes diagnosticInfoCalcSizeBinary
    cases inner with
    | some d =>
      have ih := diagnosticInfoBytes_length d
      cases additionalInfo <;>
        simp only [List.length_append, List.length_singleton, List.length_nil, optionalBytes_some,
          optionalBytes_none, optionalBytes_length uint32Bytes_length, stringBytes_length] <;> omega
    | none =>
      cases additionalInfo <;>
        simp only [List.length_append, List.length_singleton, List.length_nil, optionalBytes_some,
          optionalBytes_none, optionalBytes_length uint32Bytes_length, stringBytes_length] <;> omega

/-! ## The decoder -/

/-- The bits that the decoder tests, in the mask that the encoder writes. -/
theorem diagnosticInfoMask_members (a b c d e f : Bool) :
    let mask := diagnosticInfoMask a b c d e f
    (mask &&& 0x01 != 0) = a ∧ (mask &&& 0x02 != 0) = b ∧ (mask &&& 0x04 != 0) = c ∧
      (mask &&& 0x08 != 0) = d ∧ (mask &&& 0x10 != 0) = e := by
  revert a b c d e f
  decide

/-- The bit of the inner status code is the one of the inner DiagnosticInfo; its own bit is
never set. -/
theorem diagnosticInfoMask_inner (a b c d e f : Bool) :
    let mask := diagnosticInfoMask a b c d e f
    (mask &&& 0x20 != 0) = f ∧ (mask &&& 0x40 != 0) = false := by
  revert a b c d e f
  decide

theorem reads_optional {α : Type} {bytes : α → Bytes} {x : Dec α} {mask bit : UInt8} {o : Option α}
    (hset : (mask &&& bit != 0) = o.isSome) (hx : ∀ a, o = some a → Reads src n (bytes a) a x) :
    Reads src n (optionalBytes bytes o) o (optional mask bit x) := by
  unfold optional
  rw [hset]
  cases o with
  | some a => exact (hx a rfl).map
  | none => exact reads_pure none

/-- Without an inner status code and an inner DiagnosticInfo, the decoder reads the bytes
back. -/
theorem reads_diagnosticInfo (hT : StandardTypes T) {d : DiagnosticInfo}
    (hd : diagnosticInfoFits d = true) (hinner : d.hasInner = false) (fuel : Nat) :
    Reads src n (diagnosticInfoBytes d) d (diagnosticInfoDecodeBinary src T (fuel + 1)) := by
  obtain ⟨symbolicId, namespaceUri, localizedText, locale, additionalInfo, innerStatusCode,
    inner⟩ := d
  obtain ⟨hcode, hnone⟩ := Bool.or_eq_false_iff.mp hinner
  obtain rfl := Option.isNone_iff_eq_none.mp (Option.isSome_eq_false_iff.mp hcode)
  obtain rfl := Option.isNone_iff_eq_none.mp (Option.isSome_eq_false_iff.mp hnone)
  let mask := diagnosticInfoMask symbolicId.isSome namespaceUri.isSome localizedText.isSome
    locale.isSome additionalInfo.isSome false
  obtain ⟨h1, h2, h3, h4, h5⟩ := diagnosticInfoMask_members symbolicId.isSome namespaceUri.isSome
    localizedText.isSome locale.isSome additionalInfo.isSome false
  obtain ⟨h6, h7⟩ := diagnosticInfoMask_inner symbolicId.isSome namespaceUri.isSome
    localizedText.isSome locale.isSome additionalInfo.isSome false
  have hfits : ∀ s, additionalInfo = some s → stringFits s = true := by
    rintro s rfl
    simpa [diagnosticInfoFits] using hd
  have hnothing : ∀ d : DiagnosticInfo, (none : Option DiagnosticInfo) ≠ some d :=
    fun d h => nomatch h
  have hchain : Reads src n (optionalBytes diagnosticInfoBytes none) none
      (optional mask 0x40 (deeper (diagnosticInfoDecodeBinary src T fuel))) :=
    reads_optional h7 fun d h => absurd h (hnothing d)
  have hlast : Reads src n (optionalBytes uint32Bytes none) none
      (optional mask 0x20 (uint32DecodeBinary src)) := reads_optional h6 fun v _ => reads_uint32 v
  -- the members in front of the inner DiagnosticInfo
  have hmembers : Reads src n (optionalBytes uint32Bytes symbolicId ++
      (optionalBytes uint32Bytes namespaceUri ++ (optionalBytes uint32Bytes localizedText ++
        (optionalBytes uint32Bytes locale ++
          (optionalBytes stringBytes additionalInfo ++ optionalBytes uint32Bytes none)))))
      (DiagnosticInfo.mk symbolicId namespaceUri localizedText locale additionalInfo none)
      (accum (optional mask 0x01 (uint32DecodeBinary src)) fun symbolicId =>
        accum (optional mask 0x02 (uint32DecodeBinary src)) fun namespaceUri =>
        accum (optional mask 0x04 (uint32DecodeBinary src)) fun localizedText =>
        accum (optional mask 0x08 (uint32DecodeBinary src)) fun locale =>
        accum (optional mask 0x10 (stringDecodeBinary src T)) fun additionalInfo =>
        accum (optional mask 0x20 (uint32DecodeBinary src)) fun innerStatusCode =>
          pure (DiagnosticInfo.mk symbolicId namespaceUri localizedText locale
            additionalInfo innerStatusCode)) := by
    refine (reads_optional h1 fun v _ => reads_uint32 v).accum ?_
    refine (reads_optional h2 fun v _ => reads_uint32 v).accum ?_
    refine (reads_optional h3 fun v _ => reads_uint32 v).accum ?_
    refine (reads_optional h4 fun v _ => reads_uint32 v).accum ?_
    refine (reads_optional h5 fun s hs => reads_string hT (hfits s hs)).accum ?_
    exact hlast.accum_pure rfl
  unfold diagnosticInfoDecodeBinary
  refine ((reads_byte mask).bind (hmembers.accumGuard (fun c _ _ => by rw [h7]; rfl)
    (hchain.accum_pure rfl))).congr ?_
  simp only [diagnosticInfoBytes, mask, optionalBytes_none, Option.isSome_none, List.append_nil,
    List.append_assoc]

/-! ## What comes back -/

/-- A member that was not marked is absent. -/
theorem isSome_of_optional {α : Type} {x : Dec α} {mask bit : UInt8} {o : Option α} {s t : Ctx}
    (h : optional mask bit x s = .done o t) (ho : o.isSome = true) :
    (mask &&& bit != 0) = true := by
  by_cases hset : (mask &&& bit != 0) = true
  · exact hset
  · unfold optional at h
    rw [Bool.not_eq_true] at hset
    rw [hset] at h
    cases h
    cases ho

/-- What the decoder reads has the inner members that are marked. -/
theorem marked_of_decoded {fuel : Nat} {mask : UInt8} {c c' : Ctx}
    {symbolicId namespaceUri localizedText locale : Option UInt32}
    {additionalInfo : Option UAString}
    {innerStatusCode : Option StatusCode} {inner : Option DiagnosticInfo}
    (hat : At src c.pos [mask])
    (h : diagnosticInfoDecodeBinary src T (fuel + 1) c = .done (.mk symbolicId namespaceUri
      localizedText locale additionalInfo innerStatusCode inner) c') :
    (innerStatusCode.isSome = true → (mask &&& 0x20 != 0) = true) ∧
      (inner.isSome = true → (mask &&& 0x40 != 0) = true) := by
  unfold diagnosticInfoDecodeBinary at h
  rw [bind_done (reads_byte mask c hat (Nat.le_refl _))] at h
  obtain ⟨info, u, v, hmembers, -, h⟩ := accumGuard_eq_done.mp h
  obtain ⟨_, w, hinner, h⟩ := accum_eq_done.mp h
  obtain ⟨_, _, -, hmembers⟩ := accum_eq_done.mp hmembers
  obtain ⟨_, _, -, hmembers⟩ := accum_eq_done.mp hmembers
  obtain ⟨_, _, -, hmembers⟩ := accum_eq_done.mp hmembers
  obtain ⟨_, _, -, hmembers⟩ := accum_eq_done.mp hmembers
  obtain ⟨_, _, -, hmembers⟩ := accum_eq_done.mp hmembers
  obtain ⟨_, _, hcode, hmembers⟩ := accum_eq_done.mp hmembers
  cases hmembers
  cases h
  exact ⟨isSome_of_optional hcode, isSome_of_optional hinner⟩

/-- The mask stands in front. -/
theorem at_diagnosticInfoMask {p : Nat}
    {symbolicId namespaceUri localizedText locale : Option UInt32}
    {additionalInfo : Option UAString}
    {innerStatusCode : Option StatusCode} {inner : Option DiagnosticInfo}
    (h : At src p (diagnosticInfoBytes (.mk symbolicId namespaceUri localizedText locale
      additionalInfo innerStatusCode inner))) :
    At src p [diagnosticInfoMask symbolicId.isSome namespaceUri.isSome localizedText.isSome
      locale.isSome additionalInfo.isSome inner.isSome] := by
  unfold diagnosticInfoBytes at h
  exact (at_append.mp (at_append.mp h).1).1

/-- **A DiagnosticInfo comes back if and only if it has neither an inner status code nor an
inner DiagnosticInfo.** -/
theorem diagnosticInfo_roundTrip_iff (hT : StandardTypes T) {d : DiagnosticInfo} {s t : Buffer}
    (hs : s.Valid) (h : diagnosticInfoEncodeBinary T d s = .done () t) :
    ∃ bs, bs.length ≤ s.room ∧ t = s.write bs ∧ bs.length = diagnosticInfoCalcSizeBinary d ∧
      ((∀ src, ReadsAt src bs d (uaDiagnosticInfoDecodeBinary src T)) ↔ d.hasInner = false) := by
  have hcommits := commits_diagnosticInfo hT d
  have hfits := hcommits.ok_of_done hs h
  obtain ⟨hroom, hwritten⟩ := (hcommits.congr rfl (iff_true_intro hfits)).done_eq hs h
  refine ⟨diagnosticInfoBytes d, hroom, hwritten, diagnosticInfoBytes_length d, ?_, ?_⟩
  · intro hback
    -- the bytes on their own
    have hat : At (diagnosticInfoBytes d) 0 (diagnosticInfoBytes d) := List.prefix_refl _
    obtain ⟨c, hrun, -⟩ := uaDecodeBinary_eq_done (hback _ 0 hat)
    obtain ⟨symbolicId, namespaceUri, localizedText, locale, additionalInfo, code, inner⟩ := d
    obtain ⟨hcodeBit, hinnerBit⟩ := diagnosticInfoMask_inner symbolicId.isSome namespaceUri.isSome
      localizedText.isSome locale.isSome additionalInfo.isSome inner.isSome
    obtain ⟨hcode, hinner⟩ := marked_of_decoded (at_diagnosticInfoMask hat) hrun
    rw [hcodeBit] at hcode
    rw [hinnerBit] at hinner
    -- an inner DiagnosticInfo is never read, and without one no status code is
    have hnone : inner.isSome = false := Bool.eq_false_iff.mpr fun h => nomatch hinner h
    have hnoCode : code.isSome = false :=
      Bool.eq_false_iff.mpr fun h => nomatch (hcode h).symm.trans hnone
    exact Bool.or_eq_false_iff.mpr ⟨hnoCode, hnone⟩
  · intro hinner src
    exact (reads_diagnosticInfo hT hfits hinner (src.length + 101)).readsAt

/-- A DiagnosticInfo with the members for which encoder and decoder agree. -/
def agreedInfo : DiagnosticInfo :=
  .mk (some 1) none (some 2) (some 3) (some (some [0x61])) none none

/-- It is read back wherever its bytes stand. -/
theorem diagnosticInfo_roundTrip_members :
    ∃ t, diagnosticInfoEncodeBinary builtinTypes agreedInfo (blank 18) = .done () t ∧
      ∃ bs, bs.length = 18 ∧ t = (blank 18).write bs ∧
        ∀ src, ReadsAt src bs agreedInfo (uaDiagnosticInfoDecodeBinary src builtinTypes) := by
  obtain ⟨bs, -, ht, hlen, hiff⟩ := diagnosticInfo_roundTrip_iff
    (d := agreedInfo) wireTypes_builtinTypes.toStandardTypes (blank_valid 18) rfl
  exact ⟨_, rfl, bs, hlen, ht, hiff.mpr rfl⟩

/-- The decoder stops in front of the status code that was written. For an inner
DiagnosticInfo it looks for a status code. -/
theorem diagnosticInfo_inner_lost :
    (∃ t, diagnosticInfoEncodeBinary builtinTypes (.mk none none none none none (some 7) none)
        (blank 5) = .done () t ∧ t.bytes = [0x00, 0x07, 0x00, 0x00, 0x00] ∧
      uaDiagnosticInfoDecodeBinary t.bytes builtinTypes 0 =
        .done (.mk none none none none none none none) 1) ∧
    ∃ t, diagnosticInfoEncodeBinary builtinTypes
        (.mk none none none none none none (some (.mk none none none none none none none)))
        (blank 2) = .done () t ∧ t.bytes = [0x20, 0x00] ∧
      ∃ e, uaDiagnosticInfoDecodeBinary t.bytes builtinTypes 0 = .fail e 0 :=
  ⟨⟨_, rfl, rfl, rfl⟩, _, rfl, rfl, badDecodingError, rfl⟩

end OpenPubSub
