import Bottleneck.Proofs.Number.Level

/-!
Comparing doubles. The comparison of numbers is that of their levels (`le_iff_level`,
`lt_iff_level`), so it is a total preorder once NaN is left out. It does not look at all of the bit
pattern: the two zeros are equal to it, and nothing else equals zero (`beq_zero_iff`).
-/

namespace Bottleneck.Number

open Float.Model (UnpackedFloat)
open Float.Model.UnpackedFloat (Sign)

/-- A double is its bit pattern. -/
theorem eq_of_toBits_eq {x y : Float} (h : x.toBits = y.toBits) : x = y := by
  obtain ⟨⟨xbits, _⟩⟩ := x
  obtain ⟨⟨ybits, _⟩⟩ := y
  change xbits = ybits at h
  subst h
  rfl

theorem eq_of_place_eq {x y : Float} (h : place x = place y) : x = y :=
  eq_of_toBits_eq (place_inj.mp h)

/-! ## Levels in order -/

/-- What comparing two integers comes to. -/
inductive Compares (a b : Int) : Option Ordering → Prop where
  | lt (h : a < b) : Compares a b (some .lt)
  | eq (h : a = b) : Compares a b (some .eq)
  | gt (h : b < a) : Compares a b (some .gt)

/-- The greater exponent decides, and among equal ones the mantissa. -/
theorem compares_full {m m' : Nat} {e e' : Int} (h : Full m e) (h' : Full m' e') :
    Compares ((e + 1074) * fractions + m) ((e' + 1074) * fractions + m')
      (some ((compare e e').then (compare m m'))) := by
  obtain ⟨hm, he, hfull⟩ := h
  obtain ⟨hm', he', hfull'⟩ := h'
  unfold fractions at *
  cases hexponent : compare e e' with
  | lt =>
    have := Int.compare_eq_lt.mp hexponent
    exact .lt (by omega)
  | gt =>
    have := Int.compare_eq_gt.mp hexponent
    exact .gt (by omega)
  | eq =>
    obtain rfl := Int.compare_eq_eq.mp hexponent
    cases hmantissa : compare m m' with
    | lt =>
      have := Nat.compare_eq_lt.mp hmantissa
      exact .lt (by omega)
    | gt =>
      have := Nat.compare_eq_gt.mp hmantissa
      exact .gt (by omega)
    | eq =>
      obtain rfl := Nat.compare_eq_eq.mp hmantissa
      exact .eq rfl

theorem Compares.swap {a b : Int} {o : Ordering} (h : Compares a b (some o)) :
    Compares (-a) (-b) (some o.swap) := by
  cases h with
  | lt h => exact .gt (Int.neg_lt_neg h)
  | eq h => exact .eq (congrArg _ h)
  | gt h => exact .lt (Int.neg_lt_neg h)

/-- A finite double that is not zero lies between zero and infinity. -/
theorem Full.level_bounds {m : Nat} {e : Int} (h : Full m e) (hm : 0 < m) (he : e ≤ 971) :
    0 < (e + 1074) * fractions + m ∧ (e + 1074) * fractions + m < 0x7FF * fractions := by
  obtain ⟨hlt, hle, -⟩ := h
  unfold fractions at *
  omega

theorem levelOf_le {u : UnpackedFloat} (h : Canonical u) : levelOf u ≤ 0x7FF * fractions := by
  cases u with
  | notANumber => decide
  | zero sign => cases sign <;> decide
  | infinity sign => cases sign <;> decide
  | finite sign m e hm =>
    obtain ⟨hpos, hlt⟩ := h.1.level_bounds hm h.2
    cases sign with
    | positive => exact Int.le_of_lt hlt
    | negative => exact Int.le_trans (Int.le_of_lt (Int.neg_neg_of_pos hpos)) (by decide)

@[simp] theorem apply_positive (n : Int) : Sign.positive.apply n = n := rfl

@[simp] theorem apply_negative (n : Int) : Sign.negative.apply n = -n := rfl

theorem compares_finite {s t : Sign} {m m' : Nat} {e e' : Int} {hm : 0 < m} {hm' : 0 < m'}
    (h : Canonical (.finite s m e hm)) (h' : Canonical (.finite t m' e' hm')) :
    Compares (levelOf (.finite s m e hm)) (levelOf (.finite t m' e' hm'))
      (UnpackedFloat.compare (.finite s m e hm) (.finite t m' e' hm')) := by
  obtain ⟨hpos, -⟩ := h.1.level_bounds hm h.2
  obtain ⟨hpos', -⟩ := h'.1.level_bounds hm' h'.2
  cases s with
  | positive =>
    cases t with
    | positive => exact compares_full h.1 h'.1
    | negative => exact .gt (Int.lt_trans (Int.neg_neg_of_pos hpos') hpos)
  | negative =>
    cases t with
    | positive => exact .lt (Int.lt_trans (Int.neg_neg_of_pos hpos) hpos')
    | negative => exact (compares_full h.1 h'.1).swap

/-- **Comparing doubles comes to comparing their levels.** -/
theorem compares_compare {u v : UnpackedFloat} (hu : Canonical u) (hv : Canonical v)
    (hunan : u.isNaN = false) (hvnan : v.isNaN = false) :
    Compares (levelOf u) (levelOf v) (u.compare v) := by
  have htop : (0 : Int) < 0x7FF * fractions := by decide
  cases u <;> cases v
  case notANumber.notANumber | notANumber.infinity | notANumber.zero | notANumber.finite =>
    cases hunan
  case infinity.notANumber | zero.notANumber | finite.notANumber => cases hvnan
  case zero.zero => exact .eq rfl
  case finite.finite => exact compares_finite hu hv
  case infinity.infinity s t =>
    cases s <;> cases t <;> constructor <;> dsimp only [levelOf, apply_positive, apply_negative] <;>
      omega
  case infinity.zero s t =>
    cases s <;> constructor <;> dsimp only [levelOf, apply_positive, apply_negative] <;> omega
  case zero.infinity s t =>
    cases t <;> constructor <;> dsimp only [levelOf, apply_positive, apply_negative] <;> omega
  case infinity.finite s t m e hm =>
    obtain ⟨hpos, hlt⟩ := hv.1.level_bounds hm hv.2
    cases s <;> cases t <;> constructor <;> dsimp only [levelOf, apply_positive, apply_negative] <;>
      omega
  case finite.infinity s m e hm t =>
    obtain ⟨hpos, hlt⟩ := hu.1.level_bounds hm hu.2
    cases s <;> cases t <;> constructor <;> dsimp only [levelOf, apply_positive, apply_negative] <;>
      omega
  case zero.finite s t m e hm =>
    obtain ⟨hpos, hlt⟩ := hv.1.level_bounds hm hv.2
    cases t <;> constructor <;> dsimp only [levelOf, apply_positive, apply_negative] <;> omega
  case finite.zero s m e hm t =>
    obtain ⟨hpos, hlt⟩ := hu.1.level_bounds hm hu.2
    cases s <;> constructor <;> dsimp only [levelOf, apply_positive, apply_negative] <;> omega

theorem Compares.isLE_iff {a b : Int} {o : Option Ordering} (h : Compares a b o) :
    o.any (·.isLE) = true ↔ a ≤ b := by
  cases h with
  | lt h => exact iff_of_true rfl (Int.le_of_lt h)
  | eq h => exact iff_of_true rfl (Int.le_of_eq h)
  | gt h => exact iff_of_false Bool.false_ne_true (Int.not_le.mpr h)

theorem Compares.isLT_iff {a b : Int} {o : Option Ordering} (h : Compares a b o) :
    (o == some .lt) = true ↔ a < b := by
  cases h with
  | lt h => exact iff_of_true rfl h
  | eq h => exact iff_of_false Bool.false_ne_true (Int.not_lt.mpr (Int.le_of_eq h.symm))
  | gt h => exact iff_of_false Bool.false_ne_true (Int.not_lt.mpr (Int.le_of_lt h))

/-! ## Comparing -/

variable {x y z : Float}

theorem compares_level (hx : x.isNaN = false) (hy : y.isNaN = false) :
    Compares (level x) (level y) (x.toModel.unpack.compare y.toModel.unpack) := by
  rw [← levelOf_unpack hx, ← levelOf_unpack hy]
  exact compares_compare (canonical_unpack x) (canonical_unpack y) hx hy

/-- NaN compares with nothing. -/
theorem compare_eq_none {u v : UnpackedFloat} (h : u.isNaN = true ∨ v.isNaN = true) :
    u.compare v = none := by
  rcases h with h | h
  · cases u with
    | notANumber => rfl
    | _ => cases h
  · cases v with
    | notANumber => cases u <;> rfl
    | _ => cases h

theorem le_iff_compare :
    x ≤ y ↔ (x.toModel.unpack.compare y.toModel.unpack).any (·.isLE) = true := by
  change decide ((x.toModel.unpack.compare y.toModel.unpack).any (·.isLE) = true) = true ↔ _
  exact decide_eq_true_iff

theorem lt_iff_compare :
    x < y ↔ (x.toModel.unpack.compare y.toModel.unpack == some .lt) = true := by
  change decide ((x.toModel.unpack.compare y.toModel.unpack == some .lt) = true) = true ↔ _
  exact decide_eq_true_iff

/-- **The order of doubles is the order of their levels**, NaN apart. -/
theorem le_iff_level (hx : x.isNaN = false) (hy : y.isNaN = false) :
    x ≤ y ↔ level x ≤ level y := le_iff_compare.trans (compares_level hx hy).isLE_iff

theorem lt_iff_level (hx : x.isNaN = false) (hy : y.isNaN = false) :
    x < y ↔ level x < level y := lt_iff_compare.trans (compares_level hx hy).isLT_iff

/-- No level is above that of infinity. -/
theorem level_le_infinity (h : x.isNaN = false) : level x ≤ 0x7FF * fractions := by
  rw [← levelOf_unpack h]
  exact levelOf_le (canonical_unpack x)

theorem isNaN_of_le (h : x ≤ y) : x.isNaN = false ∧ y.isNaN = false := by
  rw [le_iff_compare] at h
  constructor
  · cases hx : x.isNaN with
    | false => rfl
    | true => rw [compare_eq_none (.inl hx)] at h; cases h
  · cases hy : y.isNaN with
    | false => rfl
    | true => rw [compare_eq_none (.inr hy)] at h; cases h

theorem le_of_lt (h : x < y) : x ≤ y := by
  rw [lt_iff_compare, beq_iff_eq] at h
  rw [le_iff_compare, h]
  rfl

/-- Comparing is transitive. -/
theorem le_trans (hxy : x ≤ y) (hyz : y ≤ z) : x ≤ z := by
  obtain ⟨hx, hy⟩ := isNaN_of_le hxy
  obtain ⟨-, hz⟩ := isNaN_of_le hyz
  rw [le_iff_level hx hy] at hxy
  rw [le_iff_level hy hz] at hyz
  exact (le_iff_level hx hz).mpr (Int.le_trans hxy hyz)

theorem lt_of_lt_of_le (hxy : x < y) (hyz : y ≤ z) : x < z := by
  obtain ⟨hx, hy⟩ := isNaN_of_le (le_of_lt hxy)
  obtain ⟨-, hz⟩ := isNaN_of_le hyz
  rw [lt_iff_level hx hy] at hxy
  rw [le_iff_level hy hz] at hyz
  exact (lt_iff_level hx hz).mpr (Int.lt_of_lt_of_le hxy hyz)

theorem lt_of_le_of_lt (hxy : x ≤ y) (hyz : y < z) : x < z := by
  obtain ⟨hx, hy⟩ := isNaN_of_le hxy
  obtain ⟨-, hz⟩ := isNaN_of_le (le_of_lt hyz)
  rw [le_iff_level hx hy] at hxy
  rw [lt_iff_level hy hz] at hyz
  exact (lt_iff_level hx hz).mpr (Int.lt_of_le_of_lt hxy hyz)

theorem not_le (hx : x.isNaN = false) (hy : y.isNaN = false) : ¬ x ≤ y ↔ y < x := by
  rw [le_iff_level hx hy, lt_iff_level hy hx, Int.not_le]

/-- A double that is not at or below another one is above it or NaN. -/
theorem not_le_iff (hy : y.isNaN = false) : ¬ x ≤ y ↔ y < x ∨ x.isNaN = true := by
  cases hx : x.isNaN with
  | false => simp only [not_le hx hy, Bool.false_eq_true, or_false]
  | true =>
    have hle : ¬ x ≤ y := fun hle => Bool.false_ne_true ((isNaN_of_le hle).1.symm.trans hx)
    exact iff_of_true hle (.inr rfl)

/-- What a positive double can be. -/
theorem unpack_of_pos (h : 0 < x) :
    x.toModel.unpack = .infinity .positive ∨
      ∃ m e hm, x.toModel.unpack = .finite .positive m e hm := by
  rw [lt_iff_compare] at h
  change (UnpackedFloat.compare (.zero .positive) x.toModel.unpack == some .lt) = true at h
  cases hx : x.toModel.unpack with
  | notANumber => rw [hx] at h; cases h
  | zero sign => rw [hx] at h; cases h
  | infinity sign =>
    cases sign with
    | positive => exact .inl rfl
    | negative => rw [hx] at h; cases h
  | finite sign m e hm =>
    cases sign with
    | positive => exact .inr ⟨m, e, hm, rfl⟩
    | negative => rw [hx] at h; cases h

theorem le_of_place_le (hx : x.isNaN = false) (hy : y.isNaN = false) (h : place x ≤ place y) :
    x ≤ y := (le_iff_level hx hy).mpr (level_le_of_place_le h)

/-! ## Zeros -/

theorem beq_zero_iff_unpack :
    (x == 0) = true ↔ ∃ sign, x.toModel.unpack = .zero sign := by
  have hbeq : (x == 0) = x.toModel.unpack.beq (.zero .positive) := rfl
  rw [hbeq]
  cases x.toModel.unpack with
  | zero sign => exact iff_of_true rfl ⟨sign, rfl⟩
  | notANumber => exact iff_of_false Bool.false_ne_true nofun
  | infinity sign => cases sign <;> exact iff_of_false Bool.false_ne_true nofun
  | finite sign => cases sign <;> exact iff_of_false Bool.false_ne_true nofun

/-- Only the two zeros have the level zero. -/
theorem eq_zero_of_level (h : level x = 0) : x = 0 ∨ x = -0 := by
  have hbits : x.toBits.toNat = 0 ∨ x.toBits.toNat = signBit := by
    unfold level at h
    dsimp only at h
    split at h <;> omega
  rcases hbits with hbits | hbits
  · exact .inl (eq_of_toBits_eq (UInt64.toNat_inj.mp hbits))
  · exact .inr (eq_of_toBits_eq (UInt64.toNat_inj.mp hbits))

/-- What is not negative is positive or one of the two zeros. -/
theorem pos_or_eq_zero (h : 0 ≤ x) : 0 < x ∨ x = 0 ∨ x = -0 := by
  obtain ⟨hzero, hx⟩ := isNaN_of_le h
  rw [le_iff_level hzero hx] at h
  rw [lt_iff_level hzero hx]
  rcases Int.lt_or_eq_of_le h with hlt | heq
  · exact .inl hlt
  · exact .inr (eq_zero_of_level heq.symm)

/-- **What equals zero is one of the two zeros.** -/
theorem beq_zero_iff : (x == 0) = true ↔ x = 0 ∨ x = -0 := by
  refine ⟨fun h => ?_, fun h => ?_⟩
  · obtain ⟨sign, hunpack⟩ := beq_zero_iff_unpack.mp h
    have hnan : x.isNaN = false := congrArg UnpackedFloat.isNaN hunpack
    refine eq_zero_of_level ?_
    rw [← levelOf_unpack hnan, hunpack]
    rfl
  · rcases h with rfl | rfl <;> rfl

end Bottleneck.Number
