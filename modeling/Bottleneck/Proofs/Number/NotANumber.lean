import Bottleneck.Number.Decimal

/-!
Arithmetic that cannot fail. Packing a value into a double keeps what is not NaN that way
(`isNaN_pack`), and a product or a quotient is NaN only where a zero meets a zero or an infinity, so
no power of ten makes one. Main statement: a decimal number with an exponent, however large, is
never NaN (`isNaN_ofScientific`).
-/

namespace Bottleneck.Number

open Float.Model (Format UnpackedFloat)
open Float.Model.UnpackedFloat (unpackExponent unpackExponent_packComponents roundWithAccuracy
  Accuracy)

/-- A finite value that is not zero. -/
def isMagnitude : UnpackedFloat → Bool
  | .finite .. => true
  | _ => false

/-- A choice between values none of which is NaN. -/
theorem isNaN_dite {p : Prop} [Decidable p] {x : p → UnpackedFloat} {y : ¬ p → UnpackedFloat}
    (hx : ∀ h, (x h).isNaN = false) (hy : ∀ h, (y h).isNaN = false) :
    (if h : p then x h else y h).isNaN = false := by
  by_cases h : p
  · rw [dif_pos h]
    exact hx h
  · rw [dif_neg h]
    exact hy h

theorem isNaN_ite {p : Prop} [Decidable p] {x y : UnpackedFloat} (hx : x.isNaN = false)
    (hy : y.isNaN = false) : (if p then x else y).isNaN = false :=
  isNaN_dite (fun _ => hx) (fun _ => hy)

/-! ## Packing -/

/-- Only the greatest exponent is left for NaN. -/
theorem isNaN_unpack {b : BitVec Format.binary64.numBits}
    (h : unpackExponent b ≠ -BitVec.ofNat Format.binary64.exponentBits 1) :
    (UnpackedFloat.unpack .binary64 b).isNaN = false := by
  delta UnpackedFloat.unpack
  dsimp only
  rw [if_neg h]
  exact isNaN_ite (isNaN_dite (fun _ => rfl) (fun _ => rfl)) rfl

/-- **Packing makes no NaN**: a value that is too large becomes infinite. -/
theorem isNaN_pack (u : UnpackedFloat) : (Float.Model.pack u).isNaN = u.isNaN := by
  change (UnpackedFloat.unpack .binary64 (UnpackedFloat.pack .binary64 u)).isNaN = u.isNaN
  cases u with
  | notANumber => rfl
  | infinity sign => cases sign <;> rfl
  | zero sign => cases sign <;> rfl
  | finite sign mantissa exponent positive =>
    change _ = false
    delta UnpackedFloat.pack
    dsimp only
    split
    · cases sign <;> rfl
    · rename_i hsmall
      split
      · refine isNaN_unpack ?_
        rw [unpackExponent_packComponents]
        intro heq
        have hnat := congrArg BitVec.toNat heq
        simp [Format.binary64] at hnat hsmall
        omega
      · refine isNaN_unpack ?_
        rw [unpackExponent_packComponents]
        decide

/-! ## Operations -/

theorem isNaN_roundWithAccuracy (spec : Format) (sign : UnpackedFloat.Sign) (mantissa : Nat)
    (exponent : Int) (accuracy : Accuracy) :
    (roundWithAccuracy spec sign mantissa exponent accuracy).isNaN = false := by
  unfold roundWithAccuracy
  exact isNaN_dite (fun _ => rfl) (fun _ => rfl)

/-- A finite factor that is not zero makes no NaN and takes none away. -/
theorem isNaN_mul (spec : Format) {x y : UnpackedFloat} (hy : isMagnitude y = true) :
    (UnpackedFloat.mul spec x y).isNaN = x.isNaN := by
  cases y with
  | finite =>
    cases x with
    | finite => exact isNaN_roundWithAccuracy ..
    | _ => rfl
  | _ => cases hy

theorem isNaN_magnitude_mul (spec : Format) {x y : UnpackedFloat} (hx : isMagnitude x = true) :
    (UnpackedFloat.mul spec x y).isNaN = y.isNaN := by
  cases x with
  | finite =>
    cases y with
    | finite => exact isNaN_roundWithAccuracy ..
    | _ => rfl
  | _ => cases hx

theorem isNaN_div (spec : Format) {x y : UnpackedFloat} (hy : isMagnitude y = true) :
    (UnpackedFloat.div spec x y).isNaN = x.isNaN := by
  cases y with
  | finite =>
    cases x with
    | finite => exact isNaN_roundWithAccuracy ..
    | _ => rfl
  | _ => cases hy

theorem isNaN_toFloat (n : UInt64) : n.toFloat.isNaN = false := by
  change (Float.Model.pack (UnpackedFloat.ofUInt64 .binary64 n)).isNaN = false
  rw [isNaN_pack, UnpackedFloat.ofUInt64, UnpackedFloat.ofNat, UnpackedFloat.ofInt,
    UnpackedFloat.normalize]
  split
  · exact isNaN_roundWithAccuracy ..
  · rfl
  · exact isNaN_roundWithAccuracy ..

/-! ## Decimal numbers -/

/-- The powers of ten that are doubles are finite and not zero. -/
theorem isMagnitude_powerOfTen (i : Fin 23) :
    isMagnitude (Float.exactlyRepresentablePowersOfTen[i]).toModel.unpack = true := by
  revert i
  decide

/-- A short number with a small exponent takes one of these operations on doubles. -/
theorem isNaN_scaled {x y : Float} (hy : isMagnitude y.toModel.unpack = true) :
    (x * y).isNaN = x.isNaN ∧ (x / y).isNaN = x.isNaN := by
  change (Float.Model.pack (.mul .binary64 x.toModel.unpack y.toModel.unpack)).isNaN =
    x.toModel.unpack.isNaN ∧
      (Float.Model.pack (.div .binary64 x.toModel.unpack y.toModel.unpack)).isNaN =
        x.toModel.unpack.isNaN
  rw [isNaN_pack, isNaN_pack]
  exact ⟨isNaN_mul _ hy, isNaN_div _ hy⟩

theorem isNaN_scaled_left {x y : Float} (hx : isMagnitude x.toModel.unpack = true) :
    (x * y).isNaN = y.isNaN := by
  change (Float.Model.pack (.mul .binary64 x.toModel.unpack y.toModel.unpack)).isNaN =
    y.toModel.unpack.isNaN
  rw [isNaN_pack]
  exact isNaN_magnitude_mul _ hx

/-- Any other number is computed from its digits and its power of ten and then rounded. -/
theorem isNaN_unpacked_ofScientific (spec : Format) (digits : Nat) (exponent : Int) :
    (UnpackedFloat.ofScientific spec digits exponent).isNaN = false := by
  unfold UnpackedFloat.ofScientific
  refine isNaN_dite (fun _ => rfl) fun _ => ?_
  refine isNaN_ite rfl (isNaN_ite rfl ?_)
  exact isNaN_ite (isNaN_mul spec rfl) (isNaN_div spec rfl)

/-- **A decimal number is never NaN.** -/
theorem isNaN_ofScientific (digits : Nat) (negative : Bool) (exponent : Nat) :
    (Float.ofScientific digits negative exponent).isNaN = false := by
  unfold Float.ofScientific
  split
  · rename_i hsmall
    have hpower := isMagnitude_powerOfTen ⟨exponent, by omega⟩
    obtain ⟨hmul, hdiv⟩ := isNaN_scaled (x := digits.toUInt64.toFloat) hpower
    dsimp only
    split
    · exact hdiv.trans (isNaN_toFloat digits.toUInt64)
    · exact hmul.trans (isNaN_toFloat digits.toUInt64)
  · change (Float.Model.pack (UnpackedFloat.ofScientific .binary64 digits _)).isNaN = false
    rw [isNaN_pack]
    exact isNaN_unpacked_ofScientific ..

theorem isNaN_of_isFinite {x : Float} (h : x.isFinite = true) : x.isNaN = false := by
  change x.toModel.unpack.isFinite = true at h
  change x.toModel.unpack.isNaN = false
  cases hx : x.toModel.unpack with
  | notANumber => rw [hx] at h; cases h
  | _ => rfl

theorem isNaN_neg (x : Float) : (-x).isNaN = x.isNaN := by
  change (Float.Model.pack x.toModel.unpack.neg).isNaN = x.toModel.unpack.isNaN
  rw [isNaN_pack]
  cases x.toModel.unpack <;> rfl

end Bottleneck.Number
