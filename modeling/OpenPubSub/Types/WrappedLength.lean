import OpenPubSub.Types.Locality

/-!
# The length of wrapped structures

An ExtensionObject of a known type has a length in front of its body. Both decoders that
unwrap such an object jump over it, and read the body as far as it goes.

- `LengthRespected`: the body went as far as the length says.
- `IsEncoding`: some decoder has read these bytes, all of them, as an object of the type.
- **`wrappedStructure_length_iff`**: the length is respected exactly when as many bytes as
  it says are an encoding of the type.
-/

namespace OpenPubSub

open Routine

/-- The length field at `p`, unless the message ends in it. -/
def statedLength (src : Bytes) (p : Nat) : Option Int :=
  if p + 4 ≤ src.length then some (arrayLengthAt src p) else none

/-- At `s` begins an ExtensionObject of the known type `type`, with its length field at `c`. -/
def WrapsKnown (src : Bytes) (T : DataTypes) (s : Ctx) (type : DataTypeRef) (c : Ctx) : Prop :=
  ∃ typeId u, nodeIdDecodeBinary src T s = .done typeId u ∧
    byteDecodeBinary src u = .done 1 c ∧ T.findDataTypeByBinary typeId = some type

/-- From the length field at `c` to `t`, the body took as many bytes as the length says. -/
def LengthRespected (src : Bytes) (c t : Ctx) : Prop :=
  ∃ n : Nat, statedLength src c.pos = some n ∧ t.pos = c.pos + 4 + n

/-- In some message, `n` bytes are read as an object of the type, and `bs` is what there is of
them. -/
def IsEncoding (T : DataTypes) (type : DataTypeRef) (depth n : Nat) (bs : Bytes) : Prop :=
  ∃ (src : Bytes) (p fuel : Nat) (v : Value) (t : Ctx), (src.drop p).take n = bs ∧
    decodeBinaryJumpTable src T fuel (T.get type).typeKind type ⟨p, depth⟩ = .done v t ∧
    t.pos = p + n

/-- As many bytes as the length says, an encoding of the type. -/
def HoldsBody (src : Bytes) (T : DataTypes) (type : DataTypeRef) (c : Ctx) : Prop :=
  ∃ n : Nat, statedLength src c.pos = some n ∧
    IsEncoding T type c.depth n ((src.drop (c.pos + 4)).take n)

variable {src : Bytes} {T : DataTypes} {type : DataTypeRef} {fuel : Nat} {c t : Ctx}

/-- What is read behind the length. -/
theorem body_length_iff {v : Value}
    (h : decodeBinaryJumpTable src T fuel (T.get type).typeKind type
      { c with pos := c.pos + 4 } = .done v t) :
    LengthRespected src c t ↔ HoldsBody src T type c := by
  constructor
  · rintro ⟨n, hlength, hend⟩
    exact ⟨n, hlength, src, c.pos + 4, fuel, v, t, rfl, h, hend⟩
  · rintro ⟨n, hlength, src', p', fuel', v', t', hwindow, h', hend⟩
    refine ⟨n, hlength, ?_⟩
    have hlocal : JumpLocal (c.pos + 4) p' n src' T (decodeBinaryJumpTable src T fuel)
        (decodeBinaryJumpTable src' T fuel') := decodeBinaryJumpTable_local hwindow.symm fuel fuel'
    have hstart : Apart (c.pos + 4) p' { c with pos := c.pos + 4 } ⟨p', c.depth⟩ :=
      ⟨0, rfl, rfl, rfl⟩
    obtain ⟨-, i, hi, hi', -⟩ := (hlocal.entry type).same hstart h h' (Nat.le_of_eq hend)
    rw [hi, Nat.add_left_cancel (hi'.symm.trans hend)]

/-- **Wrapped structures.** Where either decoder succeeds, the length is respected exactly when
the bytes it speaks of are an encoding of the type. -/
theorem wrappedStructure_length_iff {s : Ctx} (hs : WrapsKnown src T s type c) (fuel : Nat) :
    (∀ e t, extensionObjectDecodeBinary src T (decodeBinaryJumpTable src T fuel) s = .done e t →
      (LengthRespected src c t ↔ HoldsBody src T type c)) ∧
    (∀ x t, variantDecodeBinaryUnwrapExtensionObject src T (decodeBinaryJumpTable src T fuel) s =
        .done x t → (LengthRespected src c t ↔ HoldsBody src T type c)) := by
  obtain ⟨typeId, u, hn, hb, hfind⟩ := hs
  constructor
  · -- on its own: the header was read in the accumulating style
    intro e t h
    obtain ⟨⟨typeId', encoding⟩, v, hhead, hrest⟩ := bind_eq_done.mp h
    obtain ⟨_, u', hn', hhead⟩ := accum_eq_done.mp hhead
    obtain ⟨_, v', hb', hpair⟩ := accum_eq_done.mp hhead
    cases hpair
    obtain ⟨rfl, rfl⟩ := Outcome.done.inj (hn.symm.trans hn')
    obtain ⟨rfl, rfl⟩ := Outcome.done.inj (hb.symm.trans hb')
    have hbody : extensionObjectDecodeBinaryContent src T (decodeBinaryJumpTable src T fuel) typeId
        c = .done e t := hrest
    rw [extensionObjectDecodeBinaryContent, hfind] at hbody
    obtain ⟨_, w, hskip, hjump⟩ := bind_eq_done.mp hbody
    -- four bytes are passed over, whatever they say
    cases hskip
    obtain ⟨x, hx, -⟩ := map_eq_done.mp hjump
    exact body_length_iff hx
  · -- in a Variant: the header was read once more to look ahead
    intro x t h
    obtain ⟨typeId', encoding, u', v, hn', hb', hcontent⟩ :=
      variantDecodeBinaryUnwrapExtensionObject_done h
    obtain ⟨rfl, rfl⟩ := Outcome.done.inj (hn.symm.trans hn')
    obtain ⟨rfl, rfl⟩ := Outcome.done.inj (hb.symm.trans hb')
    rw [if_pos rfl, hfind] at hcontent
    obtain ⟨_, w, hskip, hjump⟩ := bind_eq_done.mp hcontent
    cases hskip
    obtain ⟨y, hy, -⟩ := map_eq_done.mp hjump
    exact body_length_iff hy

/-- A structure with a single member, a Byte. -/
def counterType : DataType where
  typeId := ⟨1, .numeric 5000⟩
  binaryEncodingId := 5001
  memSize := 1
  typeKind := .struct
  overlayable := false
  members := [⟨2, true, false, false⟩]

/-- The built-in types, and this structure as a custom type. -/
def counterTypes : DataTypes where
  types a i := if a = 0 then builtinTypes.types 0 i else counterType
  typesSize a := if a = 0 then 25 else 1
  customArrays := 1
  builtin_kind := builtinTypes.builtin_kind

/-- The ExtensionObject of a structure from namespace 1, with its stated length and its body. -/
def counterBytes (length : UInt8) (body : Bytes) : Bytes :=
  [1, 1, 0x89, 0x13, 1, length, 0, 0, 0] ++ body

/-- The one byte behind the length is an encoding of the structure, and the decoder stops behind
it. -/
theorem counterBytes_lengthRespected :
    ∃ e t, extensionObjectDecodeBinary (counterBytes 1 [7]) counterTypes
        (decodeBinaryJumpTable (counterBytes 1 [7]) counterTypes 2) ⟨0, 0⟩ = .done e t ∧
      LengthRespected (counterBytes 1 [7]) ⟨5, 0⟩ t := by
  have hwraps : WrapsKnown (counterBytes 1 [7]) counterTypes ⟨0, 0⟩ ⟨1, 0⟩ ⟨5, 0⟩ :=
    ⟨⟨1, .numeric 5001⟩, ⟨4, 0⟩, rfl, rfl, rfl⟩
  have hdecode : extensionObjectDecodeBinary (counterBytes 1 [7]) counterTypes
      (decodeBinaryJumpTable (counterBytes 1 [7]) counterTypes 2) ⟨0, 0⟩ =
        .done (.decoded ⟨1, 0⟩ (.struct [.byte 7])) ⟨10, 0⟩ := rfl
  have hbody : HoldsBody (counterBytes 1 [7]) counterTypes ⟨1, 0⟩ ⟨5, 0⟩ :=
    ⟨1, rfl, [7], 0, 2, .struct [.byte 7], ⟨1, 0⟩, rfl, rfl, rfl⟩
  exact ⟨_, _, hdecode, ((wrappedStructure_length_iff hwraps 2).1 _ _ hdecode).mpr hbody⟩

/-- The sender's structure has a second member, and the next value is looked for there. -/
theorem counterBytes_length_not_respected :
    WrapsKnown (counterBytes 2 [7, 8]) counterTypes ⟨0, 0⟩ ⟨1, 0⟩ ⟨5, 0⟩ ∧
      (∃ e t, extensionObjectDecodeBinary (counterBytes 2 [7, 8]) counterTypes
        (decodeBinaryJumpTable (counterBytes 2 [7, 8]) counterTypes 2) ⟨0, 0⟩ = .done e t ∧
        ¬ LengthRespected (counterBytes 2 [7, 8]) ⟨5, 0⟩ t) ∧
      ∃ x t, variantDecodeBinaryUnwrapExtensionObject (counterBytes 2 [7, 8]) counterTypes
        (decodeBinaryJumpTable (counterBytes 2 [7, 8]) counterTypes 2) ⟨0, 0⟩ = .done x t ∧
        ¬ LengthRespected (counterBytes 2 [7, 8]) ⟨5, 0⟩ t := by
  have hlength : statedLength (counterBytes 2 [7, 8]) 5 = some 2 := rfl
  have hnot : ¬ LengthRespected (counterBytes 2 [7, 8]) ⟨5, 0⟩ ⟨10, 0⟩ := by
    rintro ⟨n, hn, hend⟩
    rw [hlength] at hn
    cases n with
    | zero => cases hend
    | succ n =>
      cases n with
      | zero => cases hn
      | succ n =>
        dsimp only at hend
        omega
  refine ⟨⟨⟨1, .numeric 5001⟩, ⟨4, 0⟩, rfl, rfl, rfl⟩,
    ⟨.decoded ⟨1, 0⟩ (.struct [.byte 7]), ⟨10, 0⟩, rfl, hnot⟩,
    ⟨(⟨1, 0⟩, .struct [.byte 7]), ⟨10, 0⟩, rfl, hnot⟩⟩

end OpenPubSub
