import OpenPubSub.NetworkMessage.EncodeDecode

/-!
# Security footers

The size of a security footer has 16 bits, but the counters of both loops over it have eight.
Up to 255 bytes that makes no difference. From 256 on the comparison with the size is always
true, and the encoder goes on until its buffer is full.

- `FooterPasses`: encoder and decoder do to footer and signature what they should.
- **`footerPasses_iff`**: they do so for footers of at most 255 bytes.
-/

namespace OpenPubSub

open Routine Writer

variable {T : DataTypes} {S : FieldSpec} {m : NetworkMessage}

/-- The message with a footer of no bytes. -/
def NetworkMessage.withoutFooter (m : NetworkMessage) : NetworkMessage :=
  { m with
    securityHeader := { m.securityHeader with securityFooterSize := 0 }
    securityFooter := none }

/-- Everything but the security footer is as the encoder and the decoder need it, and the
footer is as long as its size says. -/
structure NetworkMessage.HasFooter (S : FieldSpec) (T : DataTypes) (m : NetworkMessage) : Prop where
  filled : m.withoutFooter.Filled (S.ReadsBack T)
  encodable : m.withoutFooter.Encodable S
  canonical : m.withoutFooter.Canonical
  promotedFit : m.withoutFooter.PromotedFit S
  securityEnabled : m.securityEnabled = true
  footerEnabled : m.securityHeader.securityFooterEnabled = true
  footerLength : (m.securityFooter.getD []).length = m.securityHeader.securityFooterSize.toNat

/-- The signature, if the message is signed. -/
def NetworkMessage.signatureBytes (m : NetworkMessage) : Bytes :=
  if m.securityHeader.networkMessageSigned then stringBytes m.signature else []

/-- A buffer of the calculated size takes the message, with the footer and then the signature
at its end, and the decoder gets both of them back. -/
def FooterPasses (T : DataTypes) (m : NetworkMessage) : Prop :=
  ∃ front bs : Bytes, bs = front ++ (m.securityFooter.getD [] ++ m.signatureBytes) ∧
    networkMessageCalcSizeBinary T m none = some (bs.length, none) ∧
    (∀ buffer : Bytes, buffer.length = bs.length →
      networkMessageEncodeBinary T m ⟨buffer, 0⟩ = .done () ⟨bs, bs.length⟩) ∧
    ∀ (src : Bytes) (call : DecodeCall), At src call.offset bs → ∃ m' : NetworkMessage,
      networkMessageDecodeBinary src T call =
        .done () { call with offset := call.offset + bs.length, dst := m' } ∧
      m'.securityFooter.getD [] = m.securityFooter.getD [] ∧ m'.signature = m.signature

/-! ## Short footers -/

namespace NetworkMessage.HasFooter

variable (hm : m.HasFooter S T) (hsize : m.securityHeader.securityFooterSize.toNat ≤ 255)
include hm

theorem encodable' : m.Encodable S where
  writerIds := hm.encodable.writerIds
  publisherId := hm.encodable.publisherId
  messages := hm.encodable.messages
  signature := hm.encodable.signature

theorem canonical' : m.Canonical where
  version := hm.canonical.version
  noMessageId := hm.canonical.noMessageId
  publisherId := hm.canonical.publisherId
  dataSetClassId := hm.canonical.dataSetClassId
  groupHeader := hm.canonical.groupHeader
  groupHeaderMembers := hm.canonical.groupHeaderMembers
  payloadHeader := hm.canonical.payloadHeader
  timestamp := hm.canonical.timestamp
  picoseconds := hm.canonical.picoseconds
  promotedFields := hm.canonical.promotedFields
  securityHeader h := absurd (hm.securityEnabled.symm.trans h) (by decide)
  securityFooterSize h := absurd (hm.footerEnabled.symm.trans h) (by decide)
  securityFooter h := absurd (hm.footerEnabled.symm.trans h) (by decide)
  signature := hm.canonical.signature
  messages := hm.canonical.messages

include hsize in
theorem filled' : m.Filled (S.ReadsBack T) where
  type := hm.filled.type
  writerIds := hm.filled.writerIds
  promoted h := ⟨(hm.filled.promoted h).init, (hm.filled.promoted h).length,
    (hm.filled.promoted h).fields⟩
  security h := ⟨(hm.filled.security h).nonce, fun _ => hm.footerLength, fun _ => hsize⟩
  payload := ⟨hm.filled.payload.length, hm.filled.payload.sizes, hm.filled.payload.messages⟩

end NetworkMessage.HasFooter

/-- Footer and signature are the last bytes of a message. -/
theorem messageBytes_eq (hsecurity : m.securityEnabled = true)
    (hfooter : m.securityHeader.securityFooterEnabled = true) :
    pieceBytes (messagePieces S m) =
      pieceBytes (headPieces m ++ ((if m.payloadHeaderEnabled then payloadHeaderPieces m else []) ++
        (extendedHeaderPieces S m ++ (securityHeaderPieces m.securityHeader ++
          (sizesPieces S m ++ messagesPieces S m))))) ++
        (m.securityFooter.getD [] ++ m.signatureBytes) := by
  simp only [messagePieces, tailPieces, trailerPieces, hsecurity, hfooter, if_true,
    pieceBytes_append, pieceBytes_ite, pieceBytes_cons, pieceBytes_nil, List.append_nil,
    List.append_assoc, NetworkMessage.signatureBytes]

theorem footerPasses_of_le (hT : StandardTypes T) (hm : m.HasFooter S T)
    (hsize : m.securityHeader.securityFooterSize.toNat ≤ 255) : FooterPasses T m := by
  have hfilled := hm.filled' hsize
  have hencodable := hm.encodable'
  have hmeets : m.Filled (S.Meets T) := hfilled.imp fun _ _ h => h.meets
  have hwrites : m.Filled (S.Writes T) := hfilled.imp fun _ _ h => ⟨h.meets, h.ok⟩
  refine ⟨_, _, messageBytes_eq hm.securityEnabled hm.footerEnabled,
    networkMessageCalcSizeBinary_eq hT hmeets hencodable.writerIds none,
    fun buffer hlen => ?_, fun src call hat => ?_⟩
  · have hroom : (pieceBytes (messagePieces S m)).length ≤ (⟨buffer, 0⟩ : Buffer).room := by
      simp [Buffer.room, hlen]
    rw [completes_networkMessage hT hwrites hencodable _ (Nat.zero_le _) hroom,
      Buffer.write_all hlen]
  · exact ⟨m.received S,
      networkMessageDecodeBinary_reads hT hfilled hencodable hm.canonical' hm.promotedFit hat,
      nullIfEmpty_getD _, rfl⟩

/-! ## Long footers -/

/-- An 8-bit counter never gets to the end of a footer of 256 bytes or more. The induction is
on the fuel, which is all that makes the model stop. -/
theorem securityFooterEncodeLoop_not_done {footer : Bytes} {size : UInt16}
    (hsize : 255 < size.toNat)
    (fuel : Nat) : ∀ (i : UInt8) (s t : Buffer),
      securityFooterEncodeLoop footer size fuel i s ≠ .done () t := by
  induction fuel with
  | zero =>
    intro i s t h
    cases h
  | succ fuel ih =>
    intro i s t h
    have hlt := i.toNat_lt
    rw [securityFooterEncodeLoop, if_pos (by omega)] at h
    obtain ⟨u, s', -, hrest⟩ := bind_eq_done.mp h
    exact ih (i + 1) s' t hrest

theorem networkMessageEncodeBinary_not_done (htype : m.networkMessageType = .dataSet)
    (hsecurity : m.securityEnabled = true)
    (hfooter : m.securityHeader.securityFooterEnabled = true)
    (hsize : 255 < m.securityHeader.securityFooterSize.toNat) (s t : Buffer) :
    networkMessageEncodeBinary T m s ≠ .done () t := by
  intro h
  obtain ⟨u, s₁, -, hpayload⟩ := bind_eq_done.mp h
  rw [payloadEncodeBinary, if_neg (not_not_intro htype)] at hpayload
  obtain ⟨u, s₂, -, hmessages⟩ := bind_eq_done.mp hpayload
  obtain ⟨u, s₃, -, htrailer⟩ := bind_eq_done.mp hmessages
  rw [hsecurity, encodeIf, if_pos rfl] at htrailer
  obtain ⟨u, s₄, hloop, -⟩ := bind_eq_done.mp htrailer
  rw [hfooter, encodeIf, if_pos rfl] at hloop
  exact securityFooterEncodeLoop_not_done hsize _ 0 s₃ s₄ hloop

/-- Footers of at most 255 bytes pass, and no longer ones. -/
theorem footerPasses_iff (hT : StandardTypes T) (hm : m.HasFooter S T) :
    FooterPasses T m ↔ m.securityHeader.securityFooterSize.toNat ≤ 255 := by
  refine ⟨fun h => ?_, footerPasses_of_le hT hm⟩
  by_cases hsize : m.securityHeader.securityFooterSize.toNat ≤ 255
  · exact hsize
  · obtain ⟨front, bs, -, -, hencode, -⟩ := h
    have hrun := hencode bs rfl
    exact absurd hrun
      (networkMessageEncodeBinary_not_done (m := m) hm.filled.type hm.securityEnabled
      hm.footerEnabled (by omega) _ _)

/-- A keep-alive message with this security footer. -/
def footerMessage (footer : Bytes) : NetworkMessage :=
  { (default : NetworkMessage) with
    version := 1
    securityEnabled := true
    securityHeader := { (default : NetworkMessageSecurityHeader) with
      securityFooterEnabled := true, securityFooterSize := UInt16.ofNat footer.length }
    payload := ⟨none, some [{ (default : DataSetMessage) with
      header := { (default : DataSetMessageHeader) with dataSetMessageType := .keepAlive } }]⟩
    securityFooter := some footer }

theorem footerMessage_hasFooter {footer : Bytes} (hlen : footer.length < 65536) :
    (footerMessage footer).HasFooter (leafSpec builtinTypes) builtinTypes where
  filled := {
    type := rfl
    writerIds := nofun
    promoted := nofun
    security _ := ⟨rfl, fun _ => rfl, fun _ => Nat.zero_le _⟩
    payload := ⟨rfl, nofun, fun d hd => by
      rw [List.mem_singleton.mp hd]
      exact ⟨nofun, nofun, nofun, nofun, nofun⟩⟩ }
  encodable := {
    writerIds := nofun
    publisherId := nofun
    messages d hd := by
      rw [List.mem_singleton.mp hd]
      exact trivial
    signature := nofun }
  canonical := {
    version := show (1 : UInt8) ≤ 15 by decide
    noMessageId := ⟨rfl, rfl⟩
    publisherId _ := rfl
    dataSetClassId _ := rfl
    groupHeader _ := rfl
    groupHeaderMembers := ⟨fun _ => rfl, fun _ => rfl, fun _ => rfl, fun _ => rfl⟩
    payloadHeader _ := rfl
    timestamp _ := rfl
    picoseconds _ := rfl
    promotedFields _ := ⟨rfl, rfl⟩
    securityHeader := nofun
    securityFooterSize _ := rfl
    securityFooter _ := rfl
    signature _ := rfl
    messages d hd := by
      rw [List.mem_singleton.mp hd]
      exact ⟨⟨fun _ => rfl, fun _ => rfl, fun _ => rfl, fun _ => rfl, fun _ => rfl, fun _ => rfl⟩,
        rfl, rfl, fun h => absurd rfl h, nofun, fun _ => rfl, nofun, fun _ => rfl, fun _ => rfl⟩ }
  promotedFit := nofun
  securityEnabled := rfl
  footerEnabled := rfl
  footerLength := by
    -- a length of 16 bits is kept
    show footer.length = (UInt16.ofNat footer.length).toNat
    rw [UInt16.toNat_ofNat', Nat.mod_eq_of_lt hlen]

theorem footerMessage_not_passes {footer : Bytes}
    (hsize : 255 < (UInt16.ofNat footer.length).toNat) :
    ¬ FooterPasses builtinTypes (footerMessage footer) := by
  rintro ⟨front, bs, -, -, hencode, -⟩
  exact networkMessageEncodeBinary_not_done rfl rfl rfl hsize _ _ (hencode bs rfl)

/-- A footer of 256 bytes is never written. -/
theorem longFooter_not_passes :
    (footerMessage (List.replicate 256 0)).HasFooter (leafSpec builtinTypes) builtinTypes ∧
      ¬ FooterPasses builtinTypes (footerMessage (List.replicate 256 0)) := by
  refine ⟨footerMessage_hasFooter ?_, footerMessage_not_passes ?_⟩
  · rw [List.length_replicate]
    decide
  · rw [List.length_replicate]
    decide

/-- One of three bytes is. -/
theorem shortFooter_passes : FooterPasses builtinTypes (footerMessage [1, 2, 3]) :=
  (footerPasses_iff standardTypes_builtinTypes (footerMessage_hasFooter (by decide))).mpr
    (by decide)

end OpenPubSub
