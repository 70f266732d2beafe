import Bottleneck.Proofs.Number.Comparison
import Bottleneck.Proofs.Number.NotANumber

/-!
Products of doubles, and when a quotient is NaN. A product is the exact one, rounded, and rounding
is one division of natural numbers with a tie going to the even quotient
(`level_pack_roundWithAccuracy`). It keeps the order, also where two numbers are rounded to
different exponents (`roundedLevel_le`). Main statements: multiplying by a positive number keeps the
order of positive numbers (`mul_le_mul_left`), and a factor that is not less than one makes none of
them less (`le_mul_of_one_le`).
-/

namespace Bottleneck.Number

open Float.Model (Format UnpackedFloat totalExponent)
open Float.Model.UnpackedFloat (ExtendedMantissa Sign roundWithAccuracy shiftToTargetExponent
  packComponents)

/-! ## Rounding a quotient -/

theorem roundDiv_le_roundDiv {m n d : Nat} (h : m ≤ n) : roundDiv m d ≤ roundDiv n d := by
  have hm := Nat.div_add_mod m d
  have hn := Nat.div_add_mod n d
  have hquotient : m / d ≤ n / d := Nat.div_le_div_right h
  unfold roundDiv
  dsimp only
  rcases Nat.lt_or_eq_of_le hquotient with hlt | heq
  · split <;> split <;> omega
  · rw [heq] at hm
    have hrest : m % d ≤ n % d := by omega
    rw [heq]
    split <;> split <;> omega

theorem roundDiv_mul_right {m d c : Nat} (hc : 0 < c) :
    roundDiv (m * c) (d * c) = roundDiv m d := by
  unfold roundDiv
  dsimp only
  have hlt : 2 * (m % d * c) < d * c ↔ 2 * (m % d) < d := by
    rw [← Nat.mul_assoc, Nat.mul_lt_mul_right hc]
  have heq : 2 * (m % d * c) = d * c ↔ 2 * (m % d) = d := by
    rw [← Nat.mul_assoc, Nat.mul_left_inj (Nat.pos_iff_ne_zero.mp hc)]
  simp only [Nat.mul_div_mul_right _ _ hc, Nat.mul_mod_mul_right, hlt, heq]

theorem div_le_roundDiv (m d : Nat) : m / d ≤ roundDiv m d ∧ roundDiv m d ≤ m / d + 1 := by
  unfold roundDiv
  dsimp only
  split <;> omega

/-! ## Shifting -/

/-- The two bits that a shift keeps apart tell how the rest compares with one half. -/
structure Shifted (m k : Nat) (em : ExtendedMantissa) : Prop where
  mantissa : em.mantissa = m / 2 ^ k
  roundBit : em.roundBit = decide (2 ^ k ≤ 2 * (m % 2 ^ k))
  stickyBit : em.stickyBit = decide (2 * (m % 2 ^ k) ≠ 0 ∧ 2 * (m % 2 ^ k) ≠ 2 ^ k)

theorem Shifted.succ {m k : Nat} {em : ExtendedMantissa} (h : Shifted m k em) :
    Shifted m (k + 1) em.shiftRightOne := by
  have hrest : m % 2 ^ (k + 1) = m % 2 ^ k + 2 ^ k * (m / 2 ^ k % 2) := by
    rw [Nat.pow_succ, Nat.mod_mul]
  have hlt : m % 2 ^ k < 2 ^ k := Nat.mod_lt _ (Nat.two_pow_pos k)
  have hdigit : m / 2 ^ k % 2 = 0 ∨ m / 2 ^ k % 2 = 1 := by omega
  refine ⟨?_, ?_, ?_⟩
  · change em.mantissa / 2 = _
    rw [h.mantissa, Nat.div_div_eq_div_mul, Nat.pow_succ]
  · change (em.mantissa % 2 != 0) = _
    rw [h.mantissa, hrest, Nat.pow_succ]
    rcases hdigit with hd | hd <;> rw [hd] <;> simp <;> omega
  · change (em.roundBit || em.stickyBit) = _
    rw [h.roundBit, h.stickyBit, hrest, Nat.pow_succ, ← Bool.decide_or]
    refine decide_eq_decide.mpr ?_
    rcases hdigit with hd | hd <;> rw [hd] <;> omega

theorem shifted_shiftRight (m k : Nat) :
    Shifted m k (ExtendedMantissa.ofMantissaAndAccuracy m .exact >>> k) := by
  change Shifted m k (k.repeat ExtendedMantissa.shiftRightOne ⟨m, false, false⟩)
  induction k with
  | zero =>
    exact ⟨by simp [Nat.repeat], by simp [Nat.repeat, Nat.mod_one],
      by simp [Nat.repeat, Nat.mod_one]⟩
  | succ k ih => exact ih.succ

/-- Shifting and rounding is division. -/
theorem Shifted.roundedMantissa {m k : Nat} {em : ExtendedMantissa} (h : Shifted m k em) :
    em.roundedMantissa = roundDiv m (2 ^ k) := by
  obtain ⟨quotient, roundBit, stickyBit⟩ := em
  obtain ⟨hquotient, hround, hsticky⟩ := h
  dsimp only at hquotient hround hsticky
  have hpos := Nat.two_pow_pos k
  unfold roundDiv
  dsimp only
  rw [← hquotient]
  cases roundBit with
  | false =>
    rw [eq_comm, decide_eq_false_iff_not] at hround
    rw [if_pos (.inl (Nat.lt_of_not_le hround))]
    cases stickyBit <;> rfl
  | true =>
    rw [eq_comm, decide_eq_true_eq] at hround
    cases stickyBit with
    | false =>
      rw [eq_comm, decide_eq_false_iff_not] at hsticky
      change quotient + quotient % 2 = _
      split <;> omega
    | true =>
      rw [eq_comm, decide_eq_true_eq] at hsticky
      rw [if_neg (by omega)]
      rfl

/-! ## Rounding to a double -/

/-- The level of the double that is nearest to a positive number, which is given in units of the
square of the least positive double. -/
def roundedLevel (units : Nat) : Int :=
  let shift := max (units.log2 - 52) 1074
  min ((shift - 1074 : Int) * fractions + roundDiv units (2 ^ shift)) (0x7FF * fractions)

theorem roundDiv_bounds (units : Nat) :
    let shift := max (units.log2 - 52) 1074
    roundDiv units (2 ^ shift) ≤ 2 * fractions ∧
      (fractions ≤ roundDiv units (2 ^ shift) ∨ shift = 1074) := by
  intro shift
  obtain ⟨hfloor, hceil⟩ := div_le_roundDiv units (2 ^ shift)
  constructor
  · have hlt : units < 2 ^ 53 * 2 ^ shift := by
      rw [← Nat.pow_add]
      exact Nat.lt_of_lt_of_le Nat.lt_log2_self (Nat.pow_le_pow_right (by decide) (by omega))
    have hquotient := (Nat.div_lt_iff_lt_mul (Nat.two_pow_pos shift)).mpr hlt
    unfold fractions
    omega
  · by_cases hleast : shift = 1074
    · exact .inr hleast
    · have hne : units ≠ 0 := by
        rintro rfl
        exact hleast rfl
      have hle : 2 ^ 52 * 2 ^ shift ≤ units := by
        rw [← Nat.pow_add]
        exact Nat.le_trans (Nat.pow_le_pow_right (by decide) (by omega)) (Nat.log2_self_le hne)
      have hquotient := (Nat.le_div_iff_mul_le (Nat.two_pow_pos shift)).mpr hle
      exact .inl (Nat.le_trans hquotient hfloor)

/-- **Rounding keeps the order.** Where two numbers are rounded to different exponents, the greater
one has a full mantissa. -/
theorem roundedLevel_le {units units' : Nat} (h : units ≤ units') :
    roundedLevel units ≤ roundedLevel units' := by
  have hlog : units.log2 ≤ units'.log2 := by
    by_cases hzero : units = 0
    · rw [hzero]
      exact Nat.zero_le _
    · exact (Nat.le_log2 (by omega)).mpr (Nat.le_trans (Nat.log2_self_le hzero) h)
  obtain ⟨hupper, -⟩ := roundDiv_bounds units
  obtain ⟨-, hlower⟩ := roundDiv_bounds units'
  unfold roundedLevel fractions at *
  dsimp only at *
  have hshift : max (units.log2 - 52) 1074 ≤ max (units'.log2 - 52) 1074 := by omega
  have hleast : 1074 ≤ max (units.log2 - 52) 1074 := Nat.le_max_right ..
  generalize max (units.log2 - 52) 1074 = shift, max (units'.log2 - 52) 1074 = shift' at *
  rcases Nat.lt_or_eq_of_le hshift with hlt | rfl
  · -- the carry of the lesser one is the least that a full mantissa with a greater exponent can be
    omega
  · have := roundDiv_le_roundDiv (d := 2 ^ shift) h
    omega

/-! ## Packing -/

theorem toNat_packComponents (sign : Sign) (exponent : BitVec 11) (mantissa : BitVec 52) :
    (packComponents .binary64 sign exponent mantissa).toNat =
      (sign.toBitVec.toNat * 0x800 + exponent.toNat) * fractions + mantissa.toNat := by
  change (sign.toBitVec ++ exponent ++ mantissa).toNat = _
  rw [BitVec.toNat_append, BitVec.toNat_append, ← Nat.shiftLeft_add_eq_or_of_lt exponent.isLt,
    ← Nat.shiftLeft_add_eq_or_of_lt mantissa.isLt, Nat.shiftLeft_eq, Nat.shiftLeft_eq]
  rfl

theorem level_packed_positive {exponent : BitVec 11} {mantissa : BitVec 52} (u : UnpackedFloat)
    (h : UnpackedFloat.pack .binary64 u = packComponents .binary64 .positive exponent mantissa) :
    level (.ofModel (.pack u)) = exponent.toNat * fractions + mantissa.toNat := by
  have hbits : (Float.ofModel (.pack u)).toBits.toNat =
      exponent.toNat * fractions + mantissa.toNat := by
    change (UnpackedFloat.pack .binary64 u).toNat = _
    rw [h, toNat_packComponents]
    change (0 * 0x800 + _) * _ + _ = _
    rw [Nat.zero_mul, Nat.zero_add]
  have hexponent := exponent.isLt
  have hmantissa := mantissa.isLt
  unfold level
  dsimp only
  rw [hbits, if_pos]
  · push_cast
    rfl
  · unfold signBit fractions
    omega

theorem pack_finite {sign : Sign} {m : Nat} {e : Int} (hm : 0 < m) (h : m < 2 * fractions) :
    UnpackedFloat.pack .binary64 (.finite sign m e hm) =
      if 0x7FF ≤ (e + 1075).toNat then packComponents .binary64 sign (-1#11) 0
      else if fractions ≤ m then
        packComponents .binary64 sign (BitVec.ofNat 11 (e + 1075).toNat) (BitVec.ofNat 52 m)
      else packComponents .binary64 sign 0#11 (BitVec.ofNat 52 m) := by
  have hbiased : (e + Format.binary64.exponentBias +
      Format.binary64.mantissaBitsWithoutImplicit).toNat = (e + 1075).toNat := by
    change (e + (1023 : Nat) + (52 : Nat)).toNat = _
    omega
  have hlarge : 2 ^ Format.binary64.exponentBits ≤ (e + 1075).toNat + 1 ↔
      0x7FF ≤ (e + 1075).toNat := Nat.succ_le_succ_iff
  have hfull : m.log2 + 1 = Format.binary64.mantissaBits ↔ fractions ≤ m := by
    have hlt : m.log2 < 53 := (Nat.log2_lt (Nat.ne_of_gt hm)).mpr h
    rw [show fractions = 2 ^ 52 from rfl, ← Nat.le_log2 (Nat.ne_of_gt hm)]
    change m.log2 + 1 = 53 ↔ _
    omega
  delta UnpackedFloat.pack
  dsimp only
  rw [hbiased]
  simp only [hlarge, hfull]
  rfl

/-- The mantissa may be zero. -/
def finiteOrZero (sign : Sign) (m : Nat) (e : Int) : UnpackedFloat :=
  if h : m = 0 then .zero sign else .finite sign m e (Nat.pos_of_ne_zero h)

/-- A number that is already rounded keeps its level, unless it is too large. -/
theorem level_pack_finiteOrZero {m : Nat} {e : Int} (h : Full m e) :
    level (.ofModel (.pack (finiteOrZero .positive m e))) =
      min ((e + 1074) * fractions + m) (0x7FF * fractions) := by
  obtain ⟨hlt, hle, hfull⟩ := h
  by_cases hzero : m = 0
  · subst hzero
    rw [hfull.resolve_left (by decide)]
    rfl
  have hpos : 0 < m := Nat.pos_of_ne_zero hzero
  have hpack : UnpackedFloat.pack .binary64 (.finite .positive m e hpos) = _ := pack_finite hpos hlt
  rw [finiteOrZero, dif_neg hzero]
  by_cases hlarge : 0x7FF ≤ (e + 1075).toNat
  · rw [if_pos hlarge] at hpack
    rw [level_packed_positive _ hpack]
    change 2047 * 4503599627370496 + 0 = _
    unfold fractions at *
    omega
  rw [if_neg hlarge] at hpack
  by_cases hnormal : fractions ≤ m
  · rw [if_pos hnormal] at hpack
    rw [level_packed_positive _ hpack, BitVec.toNat_ofNat, BitVec.toNat_ofNat]
    unfold fractions at *
    omega
  · rw [if_neg hnormal] at hpack
    rw [level_packed_positive _ hpack, BitVec.toNat_ofNat, BitVec.toNat_ofNat]
    unfold fractions at *
    omega

/-! ## Rounding a mantissa -/

theorem targetExponent_eq (m : Nat) (e : Int) :
    Format.binary64.targetExponent (totalExponent m e) = max (m.log2 + e - 52) (-1074) := by
  change max ((m.log2 : Int) + 1 + e - (53 : Nat)) (-1074) = _
  omega

theorem shiftToTargetExponent_eq (m : Nat) (e : Int) {k : Nat}
    (hk : (max (m.log2 + e - 52) (-1074) - e).toNat = k) :
    shiftToTargetExponent .binary64 m e .exact =
      (ExtendedMantissa.ofMantissaAndAccuracy m .exact >>> k, e + k) := by
  subst hk
  rw [← targetExponent_eq]
  rfl

/-- A rounded mantissa that is one too long carries over into the exponent. -/
def carried (sign : Sign) (m : Nat) (e : Int) : UnpackedFloat :=
  let shifted := shiftToTargetExponent .binary64 m e .exact
  finiteOrZero sign shifted.1.mantissa shifted.2

theorem level_pack_carried {m : Nat} {e : Int} (hm : m ≤ 2 * fractions) (he : -1074 ≤ e)
    (hfull : fractions ≤ m ∨ e = -1074) :
    level (.ofModel (.pack (carried .positive m e))) =
      min ((e + 1074) * fractions + m) (0x7FF * fractions) := by
  rcases Nat.lt_or_eq_of_le hm with hlt | rfl
  · have hlog : m.log2 < 53 := by
      by_cases hzero : m = 0
      · rw [hzero]
        decide
      · exact (Nat.log2_lt hzero).mpr hlt
    rw [carried, shiftToTargetExponent_eq (k := 0) m e (by omega)]
    dsimp only
    rw [(shifted_shiftRight m 0).mantissa, Nat.pow_zero, Nat.div_one, Int.natCast_zero,
      Int.add_zero]
    exact level_pack_finiteOrZero ⟨hlt, he, hfull⟩
  · have hlog : (2 * fractions).log2 = 53 := Nat.log2_two_pow (n := 53)
    have hhalf : Full (2 * fractions / 2 ^ 1) (e + (1 : Nat)) :=
      ⟨by decide, by omega, .inl (by decide)⟩
    rw [carried, shiftToTargetExponent_eq (k := 1) _ e (by omega)]
    dsimp only
    rw [(shifted_shiftRight _ 1).mantissa, level_pack_finiteOrZero hhalf]
    unfold fractions
    omega

theorem log2_mul_two_pow {m : Nat} (hm : 0 < m) (k : Nat) : (m * 2 ^ k).log2 = m.log2 + k := by
  induction k with
  | zero => rw [Nat.pow_zero, Nat.mul_one, Nat.add_zero]
  | succ k ih =>
    have hpos : m * 2 ^ k ≠ 0 := Nat.ne_of_gt (Nat.mul_pos hm (Nat.two_pow_pos k))
    rw [Nat.pow_succ, ← Nat.mul_assoc, Nat.mul_comm, Nat.log2_two_mul hpos, ih, Nat.add_assoc]

theorem roundWithAccuracy_eq (sign : Sign) (m : Nat) (e : Int) :
    roundWithAccuracy .binary64 sign m e .exact =
      carried sign (shiftToTargetExponent .binary64 m e .exact).1.roundedMantissa
        (shiftToTargetExponent .binary64 m e .exact).2 := rfl

/-- **Rounding is one division**, of a number of units that stands for mantissa and exponent. -/
theorem level_pack_roundWithAccuracy {m : Nat} {e : Int} (hm : 0 < m) (he : -2148 ≤ e)
    (hdrop : e ≤ max (m.log2 + e - 52) (-1074)) :
    level (.ofModel (.pack (roundWithAccuracy .binary64 .positive m e .exact))) =
      roundedLevel (m * 2 ^ (e + 2148).toNat) := by
  obtain ⟨k, hk⟩ : ∃ k, (max (m.log2 + e - 52) (-1074) - e).toNat = k := ⟨_, rfl⟩
  obtain ⟨j, hj⟩ : ∃ j, (e + 2148).toNat = j := ⟨_, rfl⟩
  have hlog := log2_mul_two_pow hm j
  have hshift : max ((m * 2 ^ j).log2 - 52) 1074 = k + j := by omega
  have hdivision : roundDiv (m * 2 ^ j) (2 ^ (k + j)) = roundDiv m (2 ^ k) := by
    rw [Nat.pow_add, roundDiv_mul_right (Nat.two_pow_pos j)]
  obtain ⟨hupper, hlower⟩ := roundDiv_bounds (m * 2 ^ j)
  rw [hshift, hdivision] at hupper hlower
  rw [roundWithAccuracy_eq, shiftToTargetExponent_eq m e hk,
    (shifted_shiftRight m k).roundedMantissa,
    level_pack_carried hupper (by omega) (hlower.imp_right (by omega)), hj, roundedLevel,
    hshift, hdivision]
  have hexponent : ((k + j : Nat) : Int) - 1074 = e + k + 1074 := by omega
  rw [hexponent]

/-! ## Products -/

theorem units_le {m m' : Nat} {e e' : Int} (h : Full m e) (h' : Full m' e')
    (hle : (e + 1074) * fractions + m ≤ (e' + 1074) * fractions + m') :
    m * 2 ^ (e + 1074).toNat ≤ m' * 2 ^ (e' + 1074).toNat := by
  obtain ⟨hm, he, hfull⟩ := h
  obtain ⟨hm', he', hfull'⟩ := h'
  unfold fractions at *
  rcases Int.lt_trichotomy e e' with hlt | rfl | hgt
  · have hhigh : 2 ^ ((e + 1074).toNat + 1) ≤ 2 ^ (e' + 1074).toNat :=
      Nat.pow_le_pow_right (by decide) (by omega)
    rw [Nat.pow_succ] at hhigh
    calc m * 2 ^ (e + 1074).toNat
      _ ≤ (2 * 0x10000000000000) * 2 ^ (e + 1074).toNat :=
        Nat.mul_le_mul_right _ (Nat.le_of_lt hm)
      _ ≤ 0x10000000000000 * 2 ^ (e' + 1074).toNat := by omega
      _ ≤ m' * 2 ^ (e' + 1074).toNat := Nat.mul_le_mul_right _ (by omega)
  · exact Nat.mul_le_mul_right _ (by omega)
  · omega

/-- The exact product has enough digits to be rounded, unless its exponent is too small. -/
theorem le_exponent_mul {m m' : Nat} {e e' : Int} (hm : 0 < m) (hm' : 0 < m') (h : Full m e)
    (h' : Full m' e') : e + e' ≤ max ((m * m').log2 + (e + e') - 52) (-1074) := by
  obtain ⟨-, hle, hfull⟩ := h
  obtain ⟨-, hle', hfull'⟩ := h'
  by_cases hlong : fractions ≤ m * m'
  · have hlog : 52 ≤ (m * m').log2 := (Nat.le_log2 (Nat.ne_of_gt (Nat.mul_pos hm hm'))).mpr hlong
    omega
  · -- a short product has short factors, and a short mantissa has the least exponent
    have hshort : ¬ fractions ≤ m ∧ ¬ fractions ≤ m' :=
      ⟨fun h => hlong (Nat.le_trans h (Nat.le_mul_of_pos_right m hm')),
        fun h => hlong (Nat.le_trans h (Nat.le_mul_of_pos_left m' hm))⟩
    omega

/-- The product of two doubles is the exact one, rounded once. -/
theorem level_mul_finite {x y : Float} {m m' : Nat} {e e' : Int} {hm : 0 < m} {hm' : 0 < m'}
    (hx : x.toModel.unpack = .finite .positive m e hm)
    (hy : y.toModel.unpack = .finite .positive m' e' hm') :
    level (x * y) = roundedLevel (m * 2 ^ (e + 1074).toNat * (m' * 2 ^ (e' + 1074).toNat)) := by
  have hcx := canonical_unpack x
  have hcy := canonical_unpack y
  rw [hx] at hcx
  rw [hy] at hcy
  have hle := hcx.1.le_exponent
  have hle' := hcy.1.le_exponent
  have hproduct : x * y =
      .ofModel (.pack (roundWithAccuracy .binary64 .positive (m * m') (e + e') .exact)) := by
    change Float.ofModel (.pack (UnpackedFloat.mul .binary64 x.toModel.unpack y.toModel.unpack)) = _
    rw [hx, hy]
    rfl
  have hscale : (e + e' + 2148).toNat = (e + 1074).toNat + (e' + 1074).toNat := by omega
  rw [hproduct, level_pack_roundWithAccuracy (Nat.mul_pos hm hm') (by omega)
    (le_exponent_mul hm hm' hcx.1 hcy.1), hscale, Nat.pow_add, Nat.mul_mul_mul_comm]

/-- The product of two positive doubles, one of which is infinite, is infinite. -/
theorem level_mul_infinity {x y : Float} (hx : 0 < x) (hy : 0 < y)
    (h : x.toModel.unpack = .infinity .positive ∨ y.toModel.unpack = .infinity .positive) :
    level (x * y) = 0x7FF * fractions := by
  change level (.ofModel (.pack (.mul .binary64 x.toModel.unpack y.toModel.unpack))) = _
  rcases unpack_of_pos hx with hx | ⟨m, e, hm, hx⟩ <;>
    rcases unpack_of_pos hy with hy | ⟨m', e', hm', hy⟩ <;> rw [hx, hy] at h ⊢
  · rfl
  · rfl
  · rfl
  · rcases h with h | h <;> cases h

theorem isNaN_mul_of_pos {x y : Float} (hx : 0 < x) (hy : 0 < y) : (x * y).isNaN = false := by
  change (Float.Model.pack (UnpackedFloat.mul .binary64 x.toModel.unpack y.toModel.unpack)).isNaN =
    false
  rw [isNaN_pack]
  rcases unpack_of_pos hx with hx | ⟨m, e, hm, hx⟩ <;>
    rcases unpack_of_pos hy with hy | ⟨m', e', hm', hy⟩ <;> rw [hx, hy]
  · rfl
  · rfl
  · rfl
  · exact isNaN_roundWithAccuracy ..

/-- A quotient with a positive denominator is NaN for two infinities only. -/
theorem isNaN_div_of_pos {x y : Float} (hx : x.isNaN = false) (hy : 0 < y) :
    (x / y).isNaN = true ↔ x.isInf = true ∧ y.isInf = true := by
  change (Float.Model.pack (.div .binary64 x.toModel.unpack y.toModel.unpack)).isNaN = true ↔
    x.toModel.unpack.isInf = true ∧ y.toModel.unpack.isInf = true
  change x.toModel.unpack.isNaN = false at hx
  rw [isNaN_pack]
  rcases unpack_of_pos hy with hy | ⟨m, e, hm, hy⟩
  · rw [hy]
    cases hx' : x.toModel.unpack with
    | notANumber => rw [hx'] at hx; cases hx
    | infinity sign => exact iff_of_true rfl ⟨rfl, rfl⟩
    | zero sign => exact iff_of_false Bool.false_ne_true fun h => Bool.false_ne_true h.1
    | finite sign => exact iff_of_false Bool.false_ne_true fun h => Bool.false_ne_true h.1
  · rw [hy, isNaN_div _ rfl, hx]
    exact iff_of_false Bool.false_ne_true fun h => Bool.false_ne_true h.2

/-- **Multiplying by a positive number keeps the order** of positive numbers. The product may be
rounded, to zero or to infinity as well. -/
theorem mul_le_mul_left {t x y : Float} (ht : 0 < t) (hx : 0 < x) (hxy : x ≤ y) :
    t * x ≤ t * y := by
  have hy : 0 < y := lt_of_lt_of_le hx hxy
  obtain ⟨hxnan, hynan⟩ := isNaN_of_le hxy
  rw [le_iff_level (isNaN_mul_of_pos ht hx) (isNaN_mul_of_pos ht hy)]
  rcases unpack_of_pos ht with ht' | ⟨mt, et, hmt, ht'⟩
  · rw [level_mul_infinity ht hy (.inl ht')]
    exact level_le_infinity (isNaN_mul_of_pos ht hx)
  rcases unpack_of_pos hy with hy' | ⟨my, ey, hmy, hy'⟩
  · rw [level_mul_infinity ht hy (.inr hy')]
    exact level_le_infinity (isNaN_mul_of_pos ht hx)
  rw [le_iff_level hxnan hynan, ← levelOf_unpack hxnan, ← levelOf_unpack hynan] at hxy
  have hcx := canonical_unpack x
  have hcy := canonical_unpack y
  rw [hy'] at hxy hcy
  rcases unpack_of_pos hx with hx' | ⟨mx, ex, hmx, hx'⟩
  · -- nothing finite is at or above infinity
    rw [hx'] at hxy
    exact absurd (hcy.1.level_bounds hmy hcy.2).2 (Int.not_lt.mpr hxy)
  · rw [hx'] at hxy hcx
    rw [level_mul_finite ht' hx', level_mul_finite ht' hy']
    exact roundedLevel_le (Nat.mul_le_mul_left _ (units_le hcx.1 hcy.1 hxy))

/-! ## Factors that are not less than one -/

/-- Rounding leaves alone what is a double already, here as its product with one. -/
theorem roundedLevel_units {m : Nat} {e : Int} (hm : 0 < m) (h : Full m e) (he : e ≤ 971) :
    roundedLevel (m * 2 ^ (e + 1074).toNat * (fractions * 2 ^ (-52 + 1074 : Int).toNat)) =
      (e + 1074) * fractions + m := by
  obtain ⟨-, hlt⟩ := h.level_bounds hm he
  obtain ⟨hsize, hle, hfull⟩ := h
  obtain ⟨k, hk⟩ : ∃ k, (-52 + 1074 : Int).toNat = k := ⟨_, rfl⟩
  obtain ⟨shift, hshift⟩ : ∃ shift, (e + 1074).toNat + (52 + k) = shift := ⟨_, rfl⟩
  have hone : fractions * 2 ^ k = 2 ^ (52 + k) := (Nat.pow_add 2 52 k).symm
  have hlog : m.log2 < 53 := (Nat.log2_lt (Nat.ne_of_gt hm)).mpr hsize
  have hlog' : fractions ≤ m → 52 ≤ m.log2 := fun hfull =>
    (Nat.le_log2 (Nat.ne_of_gt hm)).mpr hfull
  have hdrop : max ((m * 2 ^ shift).log2 - 52) 1074 = shift := by
    rw [log2_mul_two_pow hm]
    omega
  have hquotient : roundDiv (m * 2 ^ shift) (2 ^ shift) = m := by
    have hdivision := roundDiv_mul_right (m := m) (d := 1) (Nat.two_pow_pos shift)
    rw [Nat.one_mul] at hdivision
    rw [hdivision, roundDiv, Nat.div_one, Nat.mod_one]
    rfl
  have hexponent : (shift - 1074 : Int) = e + 1074 := by omega
  rw [hk, hone, Nat.mul_assoc, ← Nat.pow_add, hshift, roundedLevel, hdrop, hquotient, hexponent]
  exact Int.min_eq_left (Int.le_of_lt hlt)

/-- **A factor that is not less than one makes no positive number less.** -/
theorem le_mul_of_one_le {t x : Float} (ht : 1 ≤ t) (hx : 0 < x) : x ≤ t * x := by
  have htpos : 0 < t := lt_of_lt_of_le (by decide) ht
  obtain ⟨-, htnan⟩ := isNaN_of_le ht
  obtain ⟨-, hxnan⟩ := isNaN_of_le (le_of_lt hx)
  rw [le_iff_level hxnan (isNaN_mul_of_pos htpos hx)]
  rcases unpack_of_pos htpos with ht' | ⟨mt, et, hmt, ht'⟩
  · rw [level_mul_infinity htpos hx (.inl ht')]
    exact level_le_infinity hxnan
  rcases unpack_of_pos hx with hx' | ⟨mx, ex, hmx, hx'⟩
  · rw [level_mul_infinity htpos hx (.inr hx')]
    exact level_le_infinity hxnan
  have hct := canonical_unpack t
  have hcx := canonical_unpack x
  rw [ht'] at hct
  rw [hx'] at hcx
  have hone : fractions * 2 ^ (-52 + 1074 : Int).toNat ≤ mt * 2 ^ (et + 1074).toNat := by
    rw [le_iff_level (by decide) htnan, ← levelOf_unpack htnan, ht'] at ht
    exact units_le ⟨by decide, by decide, .inl (by decide)⟩ hct.1 ht
  rw [level_mul_finite ht' hx', ← levelOf_unpack hxnan, hx']
  change (ex + 1074) * fractions + mx ≤ _
  rw [← roundedLevel_units hmx hcx.1 hcx.2, Nat.mul_comm _ (fractions * _)]
  exact roundedLevel_le (Nat.mul_le_mul_right _ hone)

end Bottleneck.Number
