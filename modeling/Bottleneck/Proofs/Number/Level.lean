import Bottleneck.Number.Fixed
import Bottleneck.Number.Order
import Mathlib.Algebra.GroupWithZero.Nat

/-!
Doubles as integers. The level of a double is the number of doubles from zero up to it, counted
downwards for a negative one, so the two zeros share a level. Main statement: the level can be told
from the parts of a double as well, of which a mantissa and an exponent are the digits
(`levelOf_unpack`).
-/

namespace Bottleneck.Number

open Float.Model (Format UnpackedFloat)
open Float.Model.UnpackedFloat (unpackExponent unpackMantissa unpackSign Sign)

def level (x : Float) : Int :=
  let bits := x.toBits.toNat
  if bits < signBit then bits else signBit - bits

/-- The total order tells the two zeros apart and agrees with the levels otherwise. -/
theorem level_le_of_place_le {x y : Float} (h : place x ≤ place y) : level x ≤ level y := by
  have hx := x.toBits.toNat_lt
  have hy := y.toBits.toNat_lt
  unfold place signBit at h
  unfold level signBit
  dsimp only at h ⊢
  generalize x.toBits.toNat = xbits, y.toBits.toNat = ybits at *
  by_cases hxsign : xbits < 0x8000000000000000 <;> by_cases hysign : ybits < 0x8000000000000000 <;>
    simp only [hxsign, hysign, if_true, if_false] at h ⊢ <;> omega

/-! ## The parts of a double -/

/-- The level of an unpacked double. A mantissa and an exponent are the low and the high digits of
one number. -/
def levelOf : UnpackedFloat → Int
  | .notANumber => 0
  | .infinity sign => sign.apply (0x7FF * fractions)
  | .zero _ => 0
  | .finite sign mantissa exponent _ => sign.apply ((exponent + 1074) * fractions + mantissa)

/-- A mantissa has 53 digits, or fewer with the least exponent. -/
structure Full (mantissa : Nat) (exponent : Int) : Prop where
  mantissa_lt : mantissa < 2 * fractions
  le_exponent : -1074 ≤ exponent
  le_mantissa : fractions ≤ mantissa ∨ exponent = -1074

/-- A double that is finite has a full mantissa and an exponent below that of infinity. -/
def Canonical : UnpackedFloat → Prop
  | .finite _ mantissa exponent _ => Full mantissa exponent ∧ exponent ≤ 971
  | _ => True

section Fields

variable (b : BitVec Format.binary64.numBits)

theorem toNat_unpackExponent : (unpackExponent b).toNat = b.toNat / fractions % 0x800 := by
  simp [unpackExponent, Format.binary64, Nat.shiftRight_eq_div_pow, fractions]

theorem toNat_unpackMantissa : (unpackMantissa b).toNat = b.toNat % fractions := by
  simp [unpackMantissa, Format.binary64, fractions]

theorem ofBitVec_unpackSign :
    Sign.ofBitVec (unpackSign b) = if b.toNat < signBit then .positive else .negative := by
  have hsize : b.toNat < 2 ^ 64 := b.isLt
  have hsign : (unpackSign b).toNat = b.toNat / signBit := by
    delta unpackSign
    simp [Format.binary64, Nat.shiftRight_eq_div_pow, signBit]
    omega
  have hzero : unpackSign b = 0#1 ↔ b.toNat < signBit := by
    rw [← BitVec.toNat_inj, hsign]
    simp [signBit]
  simp only [Sign.ofBitVec, hzero]

/-- The fields of a double read as one number. -/
theorem toNat_mod_signBit : b.toNat % signBit =
    (unpackExponent b).toNat * fractions + (unpackMantissa b).toNat := by
  rw [toNat_unpackExponent, toNat_unpackMantissa, signBit, fractions]
  omega

theorem toNat_one_append {n : Nat} (v : BitVec n) : (1#1 ++ v).toNat = 2 ^ n + v.toNat := by
  rw [BitVec.toNat_append, ← Nat.shiftLeft_add_eq_or_of_lt v.isLt]
  simp [Nat.shiftLeft_eq]

end Fields

/-- How the fields of a double read. -/
inductive Unpacks (sign : Sign) : Nat → Nat → UnpackedFloat → Prop where
  | infinity : Unpacks sign 0x7FF 0 (.infinity sign)
  | notANumber {mantissa : Nat} (h : 0 < mantissa) : Unpacks sign 0x7FF mantissa .notANumber
  | zero : Unpacks sign 0 0 (.zero sign)
  | subnormal {mantissa : Nat} (h : 0 < mantissa) :
      Unpacks sign 0 mantissa (.finite sign mantissa (-1074) h)
  | normal {exponent mantissa : Nat} (h : 0 < exponent) (h' : exponent < 0x7FF)
      (hm : 0 < fractions + mantissa) :
      Unpacks sign exponent mantissa (.finite sign (fractions + mantissa) (exponent - 1075) hm)

theorem finite_congr {sign : Sign} {mantissa mantissa' : Nat} {exponent exponent' : Int}
    (hmantissa : mantissa = mantissa') (hexponent : exponent = exponent') (h : 0 < mantissa) :
    UnpackedFloat.finite sign mantissa exponent h =
      .finite sign mantissa' exponent' (hmantissa ▸ h) := by
  subst hmantissa hexponent
  rfl

theorem unpacks_unpack (b : BitVec Format.binary64.numBits) :
    Unpacks (Sign.ofBitVec (unpackSign b)) (unpackExponent b).toNat (unpackMantissa b).toNat
      (UnpackedFloat.unpack .binary64 b) := by
  have hsize : (unpackExponent b).toNat < 0x800 := (unpackExponent b).isLt
  delta UnpackedFloat.unpack
  dsimp only
  by_cases hspecial : unpackExponent b = -BitVec.ofNat Format.binary64.exponentBits 1
  · rw [if_pos hspecial, hspecial]
    by_cases hmantissa : unpackMantissa b = 0#_
    · rw [if_pos hmantissa, hmantissa]
      exact .infinity
    · rw [if_neg hmantissa]
      exact .notANumber (Nat.pos_of_ne_zero fun h => hmantissa (BitVec.toNat_inj.mp h))
  rw [if_neg hspecial]
  by_cases hexponent : unpackExponent b = 0#_
  · rw [if_pos hexponent, hexponent]
    by_cases hmantissa : unpackMantissa b = 0#_
    · rw [dif_pos hmantissa, hmantissa]
      exact .zero
    · rw [dif_neg hmantissa]
      exact .subnormal (Nat.pos_of_ne_zero fun h => hmantissa (BitVec.toNat_inj.mp h))
  · rw [if_neg hexponent]
    have hpos : (unpackExponent b).toNat ≠ 0 := fun h => hexponent (BitVec.toNat_inj.mp h)
    have hlt : (unpackExponent b).toNat ≠ 0x7FF := fun h => hspecial (BitVec.toNat_inj.mp h)
    refine (congrArg (Unpacks _ _ _) (finite_congr (toNat_one_append _) rfl _)).mpr ?_
    exact .normal (by omega) (by omega) _

namespace Unpacks

variable {sign : Sign} {exponent mantissa : Nat} {u : UnpackedFloat}

theorem canonical (h : Unpacks sign exponent mantissa u) (hmantissa : mantissa < fractions) :
    Canonical u := by
  unfold fractions at hmantissa
  cases h with
  | subnormal => exact ⟨⟨by unfold fractions; omega, by omega, .inr rfl⟩, by omega⟩
  | normal =>
    exact ⟨⟨by unfold fractions; omega, by omega, .inl (Nat.le_add_right ..)⟩, by omega⟩
  | _ => trivial

theorem levelOf_eq (h : Unpacks sign exponent mantissa u) (hnan : u.isNaN = false) :
    levelOf u = sign.apply (exponent * fractions + mantissa : Nat) := by
  cases h with
  | notANumber => cases hnan
  | infinity => rfl
  | zero => cases sign <;> rfl
  | subnormal =>
    exact congrArg sign.apply (by omega)
  | normal =>
    exact congrArg sign.apply (by unfold fractions; omega)

end Unpacks

theorem canonical_unpack (x : Float) : Canonical x.toModel.unpack :=
  (unpacks_unpack x.toBits.toBitVec).canonical (@unpackMantissa .binary64 _).isLt

theorem levelOf_unpack {x : Float} (h : x.isNaN = false) : levelOf x.toModel.unpack = level x := by
  have hlevel := (unpacks_unpack x.toBits.toBitVec).levelOf_eq h
  rw [← toNat_mod_signBit, ofBitVec_unpackSign] at hlevel
  change levelOf x.toModel.unpack = _ at hlevel
  rw [hlevel]
  have hsize := x.toBits.toNat_lt
  change Sign.apply (if x.toBits.toNat < signBit then _ else _) (x.toBits.toNat % signBit : Nat) = _
  unfold level signBit
  dsimp only
  split
  · exact congrArg Nat.cast (Nat.mod_eq_of_lt ‹_›)
  · change -((x.toBits.toNat % 0x8000000000000000 : Nat) : Int) = _
    omega

end Bottleneck.Number
