/-!
The total order of doubles. Unlike the comparison of numbers it puts the negative zero before the
positive one, and every value has a place in it.
-/

namespace Bottleneck.Number

/-- The bit pattern of the negative zero, of which nothing but the sign bit is set. -/
def signBit : Nat := 0x8000000000000000

/-- The place of a double in the total order. The bit patterns of positive numbers ascend with the
number and those of negative numbers descend, so the latter are counted backwards from the sign
bit. -/
def place (x : Float) : Nat :=
  let bits := x.toBits.toNat
  if bits < signBit then signBit + bits else 2 * signBit - 1 - bits

/-- Two doubles share a place only if they are the same bit pattern. -/
theorem place_inj {x y : Float} : place x = place y ↔ x.toBits = y.toBits := by
  have hx := x.toBits.toNat_lt
  have hy := y.toBits.toNat_lt
  rw [← UInt64.toNat_inj]
  unfold place signBit
  dsimp only
  split <;> split <;> omega

end Bottleneck.Number
