import Mathlib.Algebra.Ring.Nat

/-!
# Byte strings: little-endian numbers and windows

- `leBytes k n` are the low `k` base-256 digits of `n`, least significant first,
  and `ofLE` reads such digits back; they are inverse to each other at a fixed
  width (`ofLE_leBytes`, `leBytes_ofLE`).
- `At src p bs` says that the bytes `bs` stand in `src` from position `p` on.
  It splits along concatenation (`at_append`), which is how a format made of
  consecutive sections is taken apart.
- `splice dst p bs` overwrites `dst` with `bs` from position `p` on.
-/

/-! ## Little-endian numbers -/

/-- The low `k` bytes of `n`, least significant first. -/
def leBytes : Nat → Nat → List UInt8
  | 0, _ => []
  | k + 1, n => UInt8.ofNat n :: leBytes k (n / 256)

/-- The number a little-endian byte string denotes. -/
def ofLE : List UInt8 → Nat
  | [] => 0
  | b :: bs => b.toNat + 256 * ofLE bs

@[simp] theorem leBytes_length (k : Nat) : ∀ n, (leBytes k n).length = k := by
  induction k with
  | zero => exact fun _ => rfl
  | succ k ih => exact fun n => congrArg Nat.succ (ih (n / 256))

/-- Bytes hold a number up to their width. -/
theorem ofLE_leBytes (k : Nat) : ∀ n, ofLE (leBytes k n) = n % 256 ^ k := by
  induction k with
  | zero => exact fun n => (Nat.mod_one n).symm
  | succ k ih =>
    intro n
    show (UInt8.ofNat n).toNat + 256 * ofLE (leBytes k (n / 256)) = n % 256 ^ (k + 1)
    have hpow : 256 ^ (k + 1) = 256 * 256 ^ k := Nat.pow_succ'
    rw [ih, UInt8.toNat_ofNat', hpow, Nat.mod_mul]

/-- Bytes hold no number beyond their width. -/
theorem ofLE_lt : ∀ bs : List UInt8, ofLE bs < 256 ^ bs.length
  | [] => Nat.one_pos
  | b :: bs => by
    have ih := ofLE_lt bs
    have hb := b.toNat_lt
    show b.toNat + 256 * ofLE bs < 256 ^ (bs.length + 1)
    rw [Nat.pow_succ]
    omega

/-- A number is written back as the bytes it was read from. -/
theorem leBytes_ofLE : ∀ bs : List UInt8, leBytes bs.length (ofLE bs) = bs
  | [] => rfl
  | b :: bs => by
    have hb := b.toNat_lt
    show UInt8.ofNat (b.toNat + 256 * ofLE bs)
      :: leBytes bs.length ((b.toNat + 256 * ofLE bs) / 256) = b :: bs
    have hdiv : (b.toNat + 256 * ofLE bs) / 256 = ofLE bs := by omega
    have hmod : UInt8.ofNat (b.toNat + 256 * ofLE bs) = b := by
      apply UInt8.toNat_inj.mp
      rw [UInt8.toNat_ofNat']
      omega
    rw [hdiv, hmod, leBytes_ofLE bs]

/-- A number that fits in `k` bytes survives the wire. -/
theorem ofLE_leBytes_of_lt {k n : Nat} (h : n < 256 ^ k) : ofLE (leBytes k n) = n := by
  rw [ofLE_leBytes, Nat.mod_eq_of_lt h]

/-! ## Records of one size -/

/-- The first `n` records of `k` bytes each. -/
def chunks (k : Nat) : Nat → List UInt8 → List (List UInt8)
  | 0, _ => []
  | n + 1, bs => bs.take k :: chunks k n (bs.drop k)

/-! ## Windows -/

/-- The bytes `bs` stand in `src` at position `p`. -/
def At (src : List UInt8) (p : Nat) (bs : List UInt8) : Prop :=
  bs <+: src.drop p

theorem at_nil (src : List UInt8) (p : Nat) : At src p [] :=
  List.nil_prefix

/-- A window in two parts. -/
theorem at_append {src : List UInt8} {p : Nat} {bs cs : List UInt8} :
    At src p (bs ++ cs) ↔ At src p bs ∧ At src (p + bs.length) cs := by
  unfold At
  constructor
  · rintro ⟨rest, h⟩
    rw [List.append_assoc] at h
    refine ⟨⟨cs ++ rest, h⟩, ⟨rest, ?_⟩⟩
    rw [← List.drop_drop, ← h, List.drop_left]
  · rintro ⟨⟨r₁, h₁⟩, ⟨r₂, h₂⟩⟩
    refine ⟨r₂, ?_⟩
    rw [← List.drop_drop, ← h₁, List.drop_left] at h₂
    rw [List.append_assoc, h₂, h₁]

theorem At.take_eq {src : List UInt8} {p : Nat} {bs : List UInt8} (h : At src p bs) :
    (src.drop p).take bs.length = bs :=
  (List.prefix_iff_eq_take.mp h).symm

/-- A nonempty window lies inside. -/
theorem At.le_length_of_pos {src : List UInt8} {p : Nat} {bs : List UInt8}
    (h : At src p bs) (hb : 0 < bs.length) : p + bs.length ≤ src.length := by
  have := h.length_le
  rw [List.length_drop] at this
  omega

/-- The window of a string inside a concatenation. -/
theorem at_append_left (pre bs post : List UInt8) :
    At (pre ++ (bs ++ post)) pre.length bs := by
  unfold At
  rw [List.drop_left]
  exact List.prefix_append bs post

/-! ## Overwriting -/

/-- `dst` with the bytes from position `p` on replaced by `bs`. -/
def splice (dst : List UInt8) (p : Nat) (bs : List UInt8) : List UInt8 :=
  dst.take p ++ bs ++ dst.drop (p + bs.length)

/-- Bytes are put over others, not between them. -/
theorem splice_length {dst : List UInt8} {p : Nat} {bs : List UInt8}
    (h : p + bs.length ≤ dst.length) : (splice dst p bs).length = dst.length := by
  simp only [splice, List.length_append, List.length_take, List.length_drop]
  omega

theorem splice_nil {dst : List UInt8} {p : Nat} : splice dst p [] = dst := by
  simp [splice, List.take_append_drop]

/-- What is in front stays, and the new bytes follow. -/
theorem splice_take {dst : List UInt8} {p : Nat} {bs : List UInt8}
    (h : p + bs.length ≤ dst.length) :
    (splice dst p bs).take (p + bs.length) = dst.take p ++ bs := by
  have hlen : (dst.take p ++ bs).length = p + bs.length := by
    rw [List.length_append, List.length_take, Nat.min_eq_left (by omega)]
  rw [splice, ← hlen, List.take_left]

/-- What is behind stays. -/
theorem splice_drop {dst : List UInt8} {p : Nat} {bs : List UInt8}
    (h : p + bs.length ≤ dst.length) :
    (splice dst p bs).drop (p + bs.length) = dst.drop (p + bs.length) := by
  have hlen : (dst.take p ++ bs).length = p + bs.length := by
    rw [List.length_append, List.length_take, Nat.min_eq_left (by omega)]
  have h' : (splice dst p bs).drop (dst.take p ++ bs).length = dst.drop (p + bs.length) :=
    List.drop_left
  rwa [hlen] at h'

/-- The new bytes are where they were put. -/
theorem splice_at {dst : List UInt8} {p : Nat} {bs : List UInt8} (h : p ≤ dst.length) :
    At (splice dst p bs) p bs := by
  have hat := at_append_left (dst.take p) bs (dst.drop (p + bs.length))
  rwa [List.length_take, Nat.min_eq_left h, ← List.append_assoc] at hat

/-- Two consecutive writes are one. -/
theorem splice_splice {dst : List UInt8} {p : Nat} {bs cs : List UInt8}
    (h : p + (bs ++ cs).length ≤ dst.length) :
    splice (splice dst p bs) (p + bs.length) cs = splice dst p (bs ++ cs) := by
  rw [List.length_append] at h
  have h₁ : p + bs.length ≤ dst.length := by omega
  have hdrop : (splice dst p bs).drop (p + bs.length + cs.length)
      = dst.drop (p + bs.length + cs.length) := by
    rw [← List.drop_drop, splice_drop h₁, List.drop_drop]
  show (splice dst p bs).take (p + bs.length) ++ cs
    ++ (splice dst p bs).drop (p + bs.length + cs.length) = splice dst p (bs ++ cs)
  rw [splice_take h₁, hdrop, splice, List.length_append, Nat.add_assoc]
  simp only [List.append_assoc]
