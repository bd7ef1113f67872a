import OpenPubSub.Lib.Consecutive
import OpenPubSub.NetworkMessage.WellFormed

/-!
# Declared sizes of DataSetMessages

A payload header with two or more DataSetMessages is followed by an array of their
sizes. The decoder stores the array and does not look at it again: each
DataSetMessage begins where the decoder of the one before stopped.

- `payloadStart` is the cursor right after the array.
- **`dataSetMessages_consecutive`**: what an accepted message says about positions.
  The DataSetMessages lie one after the other from `payloadStart` on, and they are
  at their declared positions exactly when every declared size is the number of
  bytes that the decoder took for that message.
-/

namespace OpenPubSub

open Routine

/-- The cursor right after the array of sizes. -/
def payloadStart (src : Bytes) (T : DataTypes) (offset : Nat) : Option Nat :=
  match (headersDecodeBinary src T >>= fun _ => sizesDecodeBinary src) ⟨offset, default⟩ with
  | .done _ s => some s.offset
  | _ => none

/-- The values that the message announces and this decoder reads: a keep-alive has
none, and the fields of a key or delta frame are Variants or DataValues. -/
def DataSetMessage.HasReadableFields (d : DataSetMessage) : Prop :=
  d.header.dataSetMessageType = .keepAlive ∨ d.header.fieldEncoding.hasValues = true

/-- There is a value for every announced field. -/
structure DataSetMessage.AllFieldsRead (d : DataSetMessage) : Prop where
  keyFrame : d.header.dataSetMessageType = .dataKeyFrame →
    (d.dataSetFields.getD []).length = d.fieldCount.toNat
  deltaFrame : d.header.dataSetMessageType = .dataDeltaFrame →
    (d.deltaFrameFields.getD []).length = d.fieldCount.toNat

variable {src : Bytes} {T : DataTypes}

/-! ## The two arrays -/

/-- The message with these sizes, and the cursor at `p`. -/
def sizesState (m : NetworkMessage) (p : Nat) (sizes : List UInt16) : Decoding NetworkMessage :=
  ⟨p, { m with payload := { m.payload with sizes := some sizes } }⟩

/-- Words take two bytes each. -/
theorem uint16_lengths {p : Nat} {ids : List UInt16} {ns : List Nat}
    (h : Consecutive (uaUInt16DecodeBinary src) p ids ns) : ns = List.replicate ids.length 2 := by
  induction h with
  | nil => rfl
  | @cons p n v ids ns read _ ih =>
    have hn : p + n = p + 2 := uaUInt16DecodeBinary_offset read
    rw [ih, Nat.add_left_cancel hn, List.length_cons, List.replicate_succ]

/-- An array of words in any member, read element by element. -/
theorem uint16ArrayDecodeBinary_eq_done {M : Type} {count : Nat} {get : M → Option (List UInt16)}
    {put : Option (List UInt16) → M → M} {s t : Decoding M}
    (h : uint16ArrayDecodeBinary src count get put s = .done () t)
    (hget : ∀ xs m, get (put xs m) = xs) (hput : ∀ xs ys m, put xs (put ys m) = put xs m) :
    ∃ xs, Consecutive (uaUInt16DecodeBinary src) s.offset xs (List.replicate count 2) ∧
      xs.length = count ∧ t = ⟨s.offset + 2 * count, put (some xs) s.dst⟩ := by
  have hitem : Consecutive.Collects (uaUInt16DecodeBinary src)
      (fun p xs => (⟨p, put (some xs) s.dst⟩ : Decoding M)) 0 fun i =>
        decodeInto (uaUInt16DecodeBinary src) fun v m => put ((get m).map (·.set i v)) m := by
    intro i xs q u _ h
    obtain ⟨v, hv, hdst⟩ := decodeInto_eq_done h
    have hoffset : u.offset = q + 2 := uaUInt16DecodeBinary_offset hv
    refine ⟨v, 2, hoffset ▸ hv, ?_⟩
    rw [hget, hput] at hdst
    rw [← hoffset]
    exact congrArg (Decoding.mk u.offset) hdst
  obtain ⟨_, _, hassign, h⟩ := bind_eq_done.mp h
  cases hassign
  obtain ⟨xs, ns, hxs, rfl, rfl⟩ := Consecutive.of_forUpTo hitem h
  obtain rfl := uint16_lengths hxs
  refine ⟨xs, hxs, rfl, ?_⟩
  rw [List.sum_replicate_nat, Nat.mul_comm]

theorem messages_collects (m : NetworkMessage) :
    Consecutive.Collects (uaDataSetMessageDecodeBinary src T) (messagesState m) default fun i =>
      decodePart (NetworkMessage.dataSetMessageAt i) (NetworkMessage.setDataSetMessage i)
        (dataSetMessageDecodeBinary src T) := by
  intro i ds q u _ h
  obtain ⟨t, ht, rfl⟩ := zoom_eq_done.mp h
  -- the message begins with a memset, whatever the array held
  have hfresh : dataSetMessageDecodeBinary src T ⟨q, default⟩ = .done () t := ht
  have hadv : Advances T.NonemptyStructs src 1 (dataSetMessageDecodeBinary src T) :=
    dataSetMessageDecodeBinary_advances
  have hle := hadv ⟨q, default⟩
  rw [hfresh] at hle
  have hoffset : q + (t.offset - q) = t.offset := by
    have : q + 1 ≤ t.offset := hle.1
    omega
  refine ⟨t.dst, t.offset - q, ?_, ?_⟩
  · rw [hoffset]
    exact uaDataSetMessageDecodeBinary_done hfresh
  · rw [hoffset]
    rfl

/-- One turn of the loop over the DataSetMessages. -/
theorem messageDecodeBinary_run {m : NetworkMessage} (i : Nat) (ds : List DataSetMessage)
    (p : Nat) (d : DataSetMessage) (q : Nat)
    (h : uaDataSetMessageDecodeBinary src T p = .done d q) :
    decodePart (NetworkMessage.dataSetMessageAt i) (NetworkMessage.setDataSetMessage i)
      (dataSetMessageDecodeBinary src T) (messagesState m p ds) =
        .done () (messagesState m q (ds.set i d)) := by
  unfold uaDataSetMessageDecodeBinary at h
  split at h
  · next t ht =>
    cases h
    have hfresh : dataSetMessageDecodeBinary src T
        ⟨p, NetworkMessage.dataSetMessageAt i (m.withMessages ds)⟩ = .done () t := ht
    simp only [messagesState, decodePart, zoom, hfresh]
    rfl
  · cases h
  · cases h

/-! ## The sections of the payload -/

/-- Nothing has touched the payload and the header that announces it. -/
structure SamePayload (m₀ m : NetworkMessage) : Prop where
  enabled : m.payloadHeaderEnabled = m₀.payloadHeaderEnabled
  header : m.payloadHeader = m₀.payloadHeader
  payload : m.payload = m₀.payload

/-- The array of sizes, where there is one. -/
theorem sizesDecodeBinary_eq_done {s u : Decoding NetworkMessage}
    (h : sizesDecodeBinary src s = .done () u) :
    u.dst.payloadHeaderEnabled = s.dst.payloadHeaderEnabled ∧
      u.dst.payloadHeader = s.dst.payloadHeader ∧
      (s.dst.payloadHeaderEnabled = true → s.dst.payloadHeader.count > 1 → ∃ sizes,
        Consecutive (uaUInt16DecodeBinary src) s.offset sizes
          (List.replicate s.dst.payloadHeader.count.toNat 2) ∧
        sizes.length = s.dst.payloadHeader.count.toNat ∧
        u = sizesState s.dst (s.offset + 2 * s.dst.payloadHeader.count.toNat) sizes) := by
  have hrun : sizesDecodeBinary src s =
      (if s.dst.payloadHeaderEnabled = true ∧ s.dst.payloadHeader.count > 1 then
        uint16ArrayDecodeBinary src s.dst.payloadHeader.count.toNat (·.payload.sizes)
          fun sizes m => { m with payload := { m.payload with sizes := sizes } }
      else pure ()) s := rfl
  rw [hrun] at h
  by_cases hc : s.dst.payloadHeaderEnabled = true ∧ s.dst.payloadHeader.count > 1
  · rw [if_pos hc] at h
    obtain ⟨sizes, hsizes, hlen, rfl⟩ :=
      uint16ArrayDecodeBinary_eq_done h (fun _ _ => rfl) fun _ _ _ => rfl
    exact ⟨rfl, rfl, fun _ _ => ⟨sizes, hsizes, hlen, rfl⟩⟩
  · rw [if_neg hc] at h
    cases h
    exact ⟨rfl, rfl, fun he hcount => absurd ⟨he, hcount⟩ hc⟩

/-- The trailer changes the footer and the signature only. -/
theorem trailer_samePayload (m₀ : NetworkMessage) :
    Ends (SamePayload m₀) (onFlag (·.securityEnabled) (securityTrailerDecodeBinary src T))
      (SamePayload m₀) (SamePayload m₀) := by
  have hloop : ∀ fuel i, Ends (SamePayload m₀) (securityFooterLoop src fuel i) (SamePayload m₀)
      (SamePayload m₀) := by
    intro fuel
    induction fuel with
    | zero => exact fun _ _ _ => trivial
    | succ fuel ih =>
      intro i
      refine .current_bind fun m' _ => .weaken (fun _ h => h.2) ?_
      exact .ite (fun _ => .bind (.decodeInto (fun _ _ h => ⟨h.1, h.2, h.3⟩)
        fun _ h => ⟨h.1, h.2, h.3⟩) fun _ => ih (i + 1)) fun _ => .pure fun _ h => h
  refine .onFlag (.weaken (fun _ h => h.1) ?_) fun _ h _ => h
  refine .bind (.current_bind fun m' _ => .weaken (fun _ h => h.2) ?_) fun _ =>
    .onFlag (.decodeInto (fun _ _ h => ⟨h.1.1, h.1.2, h.1.3⟩) fun _ h => ⟨h.1.1, h.1.2, h.1.3⟩)
      fun _ h _ => h
  exact .ite (fun _ => .bind (.assign fun _ h => ⟨h.1, h.2, h.3⟩) fun _ => hloop _ _)
    fun _ => .pure fun _ h => h

/-- The DataSetMessages, and what follows them. -/
theorem payloadDecodeBinary_eq_done {s t : Decoding NetworkMessage}
    (h : payloadDecodeBinary src T s = .done () t) :
    ∃ u ds lengths, sizesDecodeBinary src s = .done () u ∧
      Consecutive (uaDataSetMessageDecodeBinary src T) u.offset ds lengths ∧
      ds.length = u.dst.dataSetMessageCount ∧ SamePayload (u.dst.withMessages ds) t.dst := by
  have hrun : payloadDecodeBinary src T s =
      (if s.dst.networkMessageType ≠ .dataSet then fail badNotImplemented
      else sizesDecodeBinary src >>= fun _ => dataSetMessagesDecodeBinary src T >>= fun _ =>
        onFlag (·.securityEnabled) (securityTrailerDecodeBinary src T)) s := rfl
  rw [hrun] at h
  by_cases ht : s.dst.networkMessageType ≠ .dataSet
  · rw [if_pos ht] at h
    cases h
  · rw [if_neg ht] at h
    obtain ⟨_, u, hu, h⟩ := bind_eq_done.mp h
    obtain ⟨_, v, hv, h⟩ := bind_eq_done.mp h
    obtain ⟨ds, lengths, hds, hlen, rfl⟩ := Consecutive.of_forUpTo (messages_collects u.dst) hv
    have hsame : SamePayload (u.dst.withMessages ds) t.dst := (trailer_samePayload _).done
      (s := messagesState u.dst (u.offset + lengths.sum) ds) ⟨rfl, rfl, rfl⟩ h
    exact ⟨u, ds, lengths, hu, hds, hlen, hsame⟩

/-! ## Accepted messages -/

/-- A frame with readable fields is not left without an array. -/
theorem Frame.hasValues_of_encoding {f : Frame}
    (htype : f.header.dataSetMessageType = .dataKeyFrame ∨
      f.header.dataSetMessageType = .dataDeltaFrame)
    (hencoding : f.header.fieldEncoding.hasValues = true) : f.hasValues = true := by
  have hraw : f.header.fieldEncoding ≠ .rawData := by
    intro hraw
    rw [hraw] at hencoding
    cases hencoding
  rcases htype with htype | htype <;>
    simp [Frame.hasValues, DataSetMessageHeader.hasFieldCount, htype, hraw, hencoding]

theorem Frame.Describes.allFieldsRead {f : Frame} {d : DataSetMessage}
    (h : f.Describes src T d) (hd : d.HasReadableFields) : d.AllFieldsRead := by
  cases h with
  | keyFrame type values count reads =>
    refine ⟨fun _ => reads.length_eq.symm.trans count, fun hdelta => ?_⟩
    have hkey : f.header.dataSetMessageType = .dataKeyFrame := by
      simpa [Frame.isKeyFrame] using type
    exact absurd (hkey.symm.trans hdelta) (by simp)
  | deltaFrame type values count length initialised =>
    refine ⟨fun hkey => ?_, fun _ => length⟩
    have hdelta : f.header.dataSetMessageType = .dataDeltaFrame := by
      simpa [Frame.isDeltaFrame] using type
    exact absurd (hkey.symm.trans hdelta) (by simp)
  | bare values count =>
    have hnone : ¬ (f.header.dataSetMessageType = .dataKeyFrame ∨
        f.header.dataSetMessageType = .dataDeltaFrame) := by
      intro htype
      rcases hd with halive | hencoding
      · rcases htype with htype | htype <;> exact absurd (halive.symm.trans htype) (by simp)
      · rw [Frame.hasValues_of_encoding htype hencoding] at values
        cases values
    exact ⟨fun hkey => absurd (.inl hkey) hnone, fun hdelta => absurd (.inr hdelta) hnone⟩

/-- What a DataSetMessage holds once it is decoded. -/
theorem allFieldsRead_of_done {p q : Nat} {d : DataSetMessage}
    (h : uaDataSetMessageDecodeBinary src T p = .done d q) :
    d.HasReadableFields → d.AllFieldsRead := by
  have hlayout : (dataSetMessageDecodeBinary src T ⟨p, default⟩).Sat _ _ :=
    dataSetMessageDecodeBinary_layout p
  unfold uaDataSetMessageDecodeBinary at h
  split at h
  · next s hs =>
    obtain ⟨rfl, -⟩ := Outcome.done.inj h
    rw [hs] at hlayout
    exact hlayout.allFieldsRead
  · cases h
  · cases h

/-- **Positions in an accepted message.** The sizes are the words in front of
`payloadStart`. The DataSetMessages follow one after the other, each where the one
before stopped. They are where the sizes declare them to be exactly when every size
is the number of bytes that the decoder took for its DataSetMessage. -/
theorem dataSetMessages_consecutive {call t : DecodeCall}
    (h : networkMessageDecodeBinary src T call = .done () t)
    (hheader : t.dst.payloadHeaderEnabled = true) (hcount : 2 ≤ t.dst.payloadHeader.count.toNat)
    (hfields : ∀ d ∈ t.dst.payload.dataSetMessages.getD [], d.HasReadableFields) :
    ∃ sizes ds lengths p,
      t.dst.payload.sizes = some sizes ∧ sizes.length = t.dst.payloadHeader.count.toNat ∧
      t.dst.payload.dataSetMessages = some ds ∧ ds.length = t.dst.payloadHeader.count.toNat ∧
      payloadStart src T call.offset = some (p + 2 * sizes.length) ∧
      Consecutive (uaUInt16DecodeBinary src) p sizes (List.replicate sizes.length 2) ∧
      Consecutive (uaDataSetMessageDecodeBinary src T) (p + 2 * sizes.length) ds lengths ∧
      (∀ d ∈ ds, d.AllFieldsRead) ∧
      (AtDeclared (uaDataSetMessageDecodeBinary src T) (p + 2 * sizes.length) ds
        (sizes.map (·.toNat)) ↔ sizes.map (·.toNat) = lengths) := by
  obtain ⟨_, s, hheaders, hpayload⟩ := bind_eq_done.mp (networkMessageDecodeBinary_eq_done h).1
  obtain ⟨u, ds, lengths, hsizesrun, hmessages, hlen, hsame⟩ :=
    payloadDecodeBinary_eq_done hpayload
  obtain ⟨henabled, hpayloadHeader, hpresent⟩ := sizesDecodeBinary_eq_done hsizesrun
  have header : t.dst.payloadHeader = s.dst.payloadHeader := hsame.header.trans hpayloadHeader
  -- the message at the end has the header it had in front of the payload
  have hon : s.dst.payloadHeaderEnabled = true := (hsame.enabled.trans henabled).symm.trans hheader
  have hgt : s.dst.payloadHeader.count > 1 := by
    rw [header] at hcount
    exact UInt8.lt_iff_toNat_lt.mpr hcount
  obtain ⟨sizes, hsizes, hsizeslen, rfl⟩ := hpresent hon hgt
  have hstart : payloadStart src T call.offset = some (s.offset + 2 * sizes.length) := by
    have hfresh : headersDecodeBinary src T ⟨call.offset, default⟩ = .done () s := hheaders
    unfold payloadStart
    rw [bind_done hfresh, hsizesrun, hsizeslen]
    rfl
  have hds : t.dst.payload.dataSetMessages = some ds :=
    congrArg DataSetPayload.dataSetMessages hsame.payload
  have hdslen : ds.length = sizes.length := by
    have hmany : (sizesState s.dst (s.offset + 2 * s.dst.payloadHeader.count.toNat)
        sizes).dst.dataSetMessageCount = s.dst.payloadHeader.count.toNat := if_pos hon
    exact (hlen.trans hmany).trans hsizeslen.symm
  rw [← hsizeslen] at hsizes
  replace hmessages : Consecutive (uaDataSetMessageDecodeBinary src T)
      (s.offset + 2 * sizes.length) ds lengths := by
    rw [hsizeslen]
    exact hmessages
  -- a DataSetMessage that was decoded has all its fields
  have hread : ∀ d ∈ ds, d.HasReadableFields → d.AllFieldsRead :=
    hmessages.forall_of_read fun _ _ _ => allFieldsRead_of_done
  refine ⟨sizes, ds, lengths, s.offset, congrArg DataSetPayload.sizes hsame.payload, ?_, hds, ?_,
    hstart, hsizes, hmessages, fun d hd => hread d hd (hfields d ?_), ?_⟩
  · exact hsizeslen.trans (congrArg (·.count.toNat) header.symm)
  · exact hdslen.trans (hsizeslen.trans (congrArg (·.count.toNat) header.symm))
  · rw [hds]
    exact hd
  · exact hmessages.atDeclared_iff (by rw [List.length_map, hdslen])

/-! ## Two keep-alives with wrong sizes -/

/-- The sizes announce nine bytes, and each keep-alive takes two. -/
def oversizedKeepAlives : Bytes := [0x41, 2, 1, 0, 2, 0, 9, 0, 9, 0, 0x81, 3, 0x81, 3]

/-- A valid keep-alive. -/
def keepAliveMessage : DataSetMessage :=
  { (default : DataSetMessage) with
    header := { (default : DataSetMessageHeader) with
      dataSetMessageValid := true
      dataSetMessageType := .keepAlive } }

/-- What the sections in front of the DataSetMessages leave. -/
def oversizedHeaders : NetworkMessage :=
  { (default : NetworkMessage) with
    version := 1
    payloadHeaderEnabled := true
    payloadHeader := ⟨2, some [1, 2]⟩
    payload := ⟨some [9, 9], none⟩ }

theorem oversizedKeepAlives_start :
    (headersDecodeBinary oversizedKeepAlives builtinTypes >>= fun _ =>
      sizesDecodeBinary oversizedKeepAlives) ⟨0, default⟩ = .done () ⟨10, oversizedHeaders⟩ := rfl

theorem oversizedKeepAlives_messages :
    Consecutive (uaDataSetMessageDecodeBinary oversizedKeepAlives builtinTypes) 10
      [keepAliveMessage, keepAliveMessage] [2, 2] :=
  .cons rfl (.cons rfl .nil)

theorem decodeAt_oversizedKeepAlives :
    decodeAt oversizedKeepAlives builtinTypes 0 = .done ()
      ⟨messagesState oversizedHeaders 14 [keepAliveMessage, keepAliveMessage], []⟩ := by
  obtain ⟨_, s, hheaders, hsizes⟩ := bind_eq_done.mp oversizedKeepAlives_start
  have hloop : forUpTo 2 _ (messagesState oversizedHeaders 10 (List.replicate 2 default)) =
      .done () (messagesState oversizedHeaders 14 [keepAliveMessage, keepAliveMessage]) :=
    oversizedKeepAlives_messages.forUpTo_run messageDecodeBinary_run
  have htype : s.dst.networkMessageType = .dataSet :=
    (sizesDecodeBinary_headers.done (s := s) ⟨rfl, rfl⟩ hsizes).1.symm
  have hpayload : payloadDecodeBinary oversizedKeepAlives builtinTypes s = .done ()
      (messagesState oversizedHeaders 14 [keepAliveMessage, keepAliveMessage]) := by
    show (if s.dst.networkMessageType ≠ .dataSet then fail badNotImplemented
      else sizesDecodeBinary _ >>= fun _ => dataSetMessagesDecodeBinary _ _ >>= fun _ => _ :
        Decoder NetworkMessage Unit) s = _
    rw [if_neg (not_not_intro htype), bind_done hsizes]
    exact bind_done hloop
  have hrun : networkMessageDecodeBinaryInternal oversizedKeepAlives builtinTypes ⟨0, default⟩ =
      .done () _ := (bind_done hheaders).trans hpayload
  rw [decodeAt, networkMessageDecodeBinary, hrun]

theorem oversizedKeepAlives_consecutive :
    ∃ ds lengths p, payloadStart oversizedKeepAlives builtinTypes 0 = some p ∧ ds.length = 2 ∧
      Consecutive (uaDataSetMessageDecodeBinary oversizedKeepAlives builtinTypes) p ds lengths := by
  have hfields : ∀ d ∈ [keepAliveMessage, keepAliveMessage], d.HasReadableFields := by
    intro d hd
    rcases List.mem_cons.mp hd with rfl | hd
    · exact .inl rfl
    · exact .inl (by rw [List.mem_singleton.mp hd]; rfl)
  obtain ⟨sizes, ds, lengths, p, -, -, -, hlen, hstart, -, hmessages, -⟩ :=
    dataSetMessages_consecutive decodeAt_oversizedKeepAlives rfl (by decide) hfields
  exact ⟨ds, lengths, _, hstart, hlen, hmessages⟩

/-- The message is accepted although neither DataSetMessage has its declared size. -/
theorem oversizedKeepAlives_not_atDeclared :
    ∃ t sizes ds p, decodeAt oversizedKeepAlives builtinTypes 0 = .done () t ∧
      t.dst.payloadHeaderEnabled = true ∧ 2 ≤ t.dst.payloadHeader.count.toNat ∧
      t.dst.payload.sizes = some sizes ∧ t.dst.payload.dataSetMessages = some ds ∧
      payloadStart oversizedKeepAlives builtinTypes 0 = some p ∧
      ¬ AtDeclared (uaDataSetMessageDecodeBinary oversizedKeepAlives builtinTypes) p ds
        (sizes.map (·.toNat)) := by
  have hstart : payloadStart oversizedKeepAlives builtinTypes 0 = some 10 := by
    rw [payloadStart, oversizedKeepAlives_start]
  refine ⟨_, _, _, _, decodeAt_oversizedKeepAlives, rfl, by decide, rfl, rfl, hstart, ?_⟩
  rw [oversizedKeepAlives_messages.atDeclared_iff rfl]
  decide

end OpenPubSub
