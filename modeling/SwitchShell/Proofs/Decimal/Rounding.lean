import Mathlib
import SwitchShell.Json.Reader

namespace SwitchShell.Decimal

/-! How far rounding takes a floating-point number up.

An operation of floating-point numbers rounds its exact result once, which adds
less than the last place of the mantissa.  The bounds here are a whole last
place for each operation; what they are for is that products stay finite.
-/

open Float.Model Float.Model.UnpackedFloat

variable {mantissa shift : Nat} {exponent : Int} {bound first second : ℚ}
  {unpacked left right : UnpackedFloat}

/-- What one rounding multiplies at most. -/
def slack : ℚ := 1 + 2 ^ (-52 : Int)

/-- A power with any exponent is a quotient of two powers. -/
theorem zpow_mul_pow_neg {base : ℚ} (nonzero : base ≠ 0) (exponent : Int) :
    base ^ exponent * base ^ (-exponent).toNat = base ^ exponent.toNat := by
  rw [← zpow_natCast, ← zpow_natCast, ← zpow_add₀ nonzero]
  congr 1
  omega

theorem one_le_slack : 1 ≤ slack := by
  norm_num [slack]

theorem slack_le : slack ≤ 3 / 2 := by
  norm_num [slack]

theorem slack_nonneg : 0 ≤ slack := zero_le_one.trans one_le_slack

/-- A positive number with a full mantissa, not far below one and at most `bound`. -/
def AtMost (bound : ℚ) : UnpackedFloat → Prop
  | .finite .positive mantissa exponent _ =>
      2 ^ 52 ≤ mantissa ∧ mantissa < 2 ^ 53 ∧ -52 ≤ exponent ∧ (mantissa : ℚ) * 2 ^ exponent ≤ bound
  | _ => False

theorem shift_mantissa (extended : ExtendedMantissa) :
    (extended >>> shift).mantissa = extended.mantissa / 2 ^ shift := by
  induction shift with
  | zero => simp [HShiftRight.hShiftRight, Nat.repeat]
  | succ shift ih =>
      change (extended >>> shift).mantissa / 2 = _
      rw [ih, Nat.div_div_eq_div_mul, Nat.pow_succ]

theorem roundedMantissa_le (extended : ExtendedMantissa) :
    extended.mantissa ≤ extended.roundedMantissa ∧
      extended.roundedMantissa ≤ extended.mantissa + 1 := by
  obtain ⟨mantissa, round, sticky⟩ := extended
  cases round <;> cases sticky <;>
    simp [ExtendedMantissa.roundedMantissa, ExtendedMantissa.accuracy, Accuracy.roundToNearestEven]
  omega

theorem targetExponent_eq (low : -1021 ≤ (mantissa.log2 : Int) + exponent) :
    Format.binary64.targetExponent (totalExponent mantissa exponent) =
      mantissa.log2 + exponent - 52 := by
  simp [Format.targetExponent, totalExponent, Format.mantissaBits, Format.minExponent]
  omega

/-- A mantissa that is not too long is left as it is. -/
theorem shift_of_lt (short : mantissa < 2 ^ 53) (low : -1074 ≤ exponent) :
    shiftToTargetExponent .binary64 mantissa exponent .exact = (⟨mantissa, false, false⟩, exponent) := by
  have size : mantissa.log2 ≤ 52 := by
    by_cases zero : mantissa = 0
    · simp [zero]
    · have := (Nat.log2_lt zero).mpr short
      omega
  have target : Format.binary64.targetExponent (totalExponent mantissa exponent) ≤ exponent := by
    simp [Format.targetExponent, totalExponent, Format.mantissaBits, Format.minExponent]
    omega
  have still : (Format.binary64.targetExponent (totalExponent mantissa exponent) - exponent).toNat = 0 := by
    omega
  simp [shiftToTargetExponent, shiftToExponent, still, HShiftRight.hShiftRight, Nat.repeat,
    ExtendedMantissa.ofMantissaAndAccuracy]

/-- A mantissa that rounding has made one digit longer is halved. -/
theorem shift_of_eq (low : -1074 ≤ exponent) :
    shiftToTargetExponent .binary64 (2 ^ 53) exponent .exact =
      (⟨2 ^ 52, false, false⟩, exponent + 1) := by
  have target : Format.binary64.targetExponent (totalExponent (2 ^ 53) exponent) = exponent + 1 := by
    rw [targetExponent_eq] <;> rw [Nat.log2_two_pow] <;> omega
  unfold shiftToTargetExponent
  rw [target]
  simp [shiftToExponent, HShiftRight.hShiftRight, Nat.repeat,
    ExtendedMantissa.ofMantissaAndAccuracy, ExtendedMantissa.shiftRightOne]

/-- The first shift of a long mantissa keeps 53 digits. -/
theorem shift_of_le (length : mantissa.log2 = 52 + shift)
    (low : -1021 ≤ (mantissa.log2 : Int) + exponent) :
    shiftToTargetExponent .binary64 mantissa exponent .exact =
      ((ExtendedMantissa.ofMantissaAndAccuracy mantissa .exact) >>> shift, exponent + shift) := by
  have amount : (Format.binary64.targetExponent (totalExponent mantissa exponent) - exponent).toNat =
      shift := by
    rw [targetExponent_eq low]
    omega
  rw [shiftToTargetExponent, shiftToExponent, amount]

/-- One more than the kept digits is not far above the number. -/
theorem kept_le {rounded : Nat} (exponent : Int) (long : 2 ^ (52 + shift) ≤ mantissa)
    (rounding : rounded ≤ mantissa / 2 ^ shift + 1) :
    (rounded : ℚ) * 2 ^ (exponent + shift) ≤ mantissa * 2 ^ exponent * slack := by
  have part : rounded * 2 ^ shift ≤ mantissa + 2 ^ shift :=
    calc rounded * 2 ^ shift ≤ (mantissa / 2 ^ shift + 1) * 2 ^ shift := Nat.mul_le_mul_right _ rounding
      _ = mantissa / 2 ^ shift * 2 ^ shift + 2 ^ shift := by ring
      _ ≤ mantissa + 2 ^ shift := Nat.add_le_add_right (Nat.div_mul_le_self _ _) _
  have last : (2 : ℚ) ^ shift ≤ mantissa * 2 ^ (-52 : Int) := by
    have long : (2 : ℚ) ^ 52 * 2 ^ shift ≤ mantissa := by
      rw [← pow_add]
      exact_mod_cast long
    rw [zpow_neg, ← div_eq_mul_inv, le_div_iff₀ (by positivity), mul_comm]
    exact_mod_cast long
  calc (rounded : ℚ) * 2 ^ (exponent + shift) = rounded * 2 ^ shift * 2 ^ exponent := by
        rw [zpow_add₀ two_ne_zero, zpow_natCast]
        ring
    _ ≤ (mantissa + 2 ^ shift) * 2 ^ exponent := by
        gcongr
        exact_mod_cast part
    _ ≤ (mantissa + mantissa * 2 ^ (-52 : Int)) * 2 ^ exponent := by gcongr
    _ = mantissa * 2 ^ exponent * slack := by
        rw [slack]
        ring

theorem atMost_round (mantissa : Nat) (exponent : Int) (full : 2 ^ 52 ≤ mantissa)
    (low : 0 ≤ (mantissa.log2 : Int) + exponent) :
    AtMost (mantissa * 2 ^ exponent * slack)
      (roundWithAccuracy .binary64 .positive mantissa exponent .exact) := by
  have positive : mantissa ≠ 0 := by omega
  obtain ⟨shift, length⟩ := Nat.exists_eq_add_of_le ((Nat.le_log2 positive).mpr full)
  have long : 2 ^ (52 + shift) ≤ mantissa := length ▸ Nat.log2_self_le positive
  have short : mantissa < 2 ^ (53 + shift) := by
    have above : mantissa < 2 ^ (mantissa.log2 + 1) := Nat.lt_log2_self
    rw [length] at above
    rwa [show 53 + shift = 52 + shift + 1 by omega]
  have keptFull : 2 ^ 52 ≤ mantissa / 2 ^ shift := by
    rwa [Nat.le_div_iff_mul_le (by positivity), ← Nat.pow_add]
  have keptShort : mantissa / 2 ^ shift < 2 ^ 53 := by
    rwa [Nat.div_lt_iff_lt_mul (by positivity), ← Nat.pow_add]
  have rounding := roundedMantissa_le ((ExtendedMantissa.ofMantissaAndAccuracy mantissa .exact) >>> shift)
  rw [shift_mantissa, ExtendedMantissa.ofMantissaAndAccuracy] at rounding
  have rounded := kept_le exponent long rounding.2
  rw [roundWithAccuracy, shift_of_le length (by omega), ExtendedMantissa.ofMantissaAndAccuracy]
  dsimp only at rounding rounded ⊢
  generalize (ExtendedMantissa.mk mantissa false false >>> shift).roundedMantissa = result at *
  -- Rounding may carry into one digit more than fits.
  rcases Nat.lt_or_ge result (2 ^ 53) with fits | carried
  · have some : result ≠ 0 := by omega
    rw [shift_of_lt fits (by omega)]
    dsimp only
    rw [dif_neg some]
    exact ⟨by omega, fits, by omega, rounded⟩
  · obtain rfl : result = 2 ^ 53 := by omega
    rw [shift_of_eq (by omega)]
    refine ⟨Nat.le_refl _, by dsimp only; decide, by omega, ?_⟩
    refine le_trans (le_of_eq ?_) rounded
    rw [zpow_add_one₀ two_ne_zero]
    push_cast
    ring

theorem AtMost.mono (within : AtMost first unpacked) (more : first ≤ second) :
    AtMost second unpacked := by
  cases unpacked with
  | finite sign mantissa exponent positive =>
      cases sign with
      | positive => exact ⟨within.1, within.2.1, within.2.2.1, within.2.2.2.trans more⟩
      | negative => cases within
  | _ => cases within

theorem AtMost.exists_finite (within : AtMost bound unpacked) :
    ∃ mantissa exponent positive, unpacked = .finite .positive mantissa exponent positive ∧
      2 ^ 52 ≤ mantissa ∧ mantissa < 2 ^ 53 ∧ -52 ≤ exponent ∧
      (mantissa : ℚ) * 2 ^ exponent ≤ bound := by
  cases unpacked with
  | finite sign mantissa exponent positive =>
      cases sign with
      | positive => exact ⟨mantissa, exponent, positive, rfl, within⟩
      | negative => cases within
  | _ => cases within

theorem AtMost.isInf (within : AtMost bound unpacked) : unpacked.isInf = false := by
  obtain ⟨mantissa, exponent, positive, rfl, _⟩ := within.exists_finite
  rfl

theorem AtMost.mul (within : AtMost first left) (within' : AtMost second right) :
    AtMost (first * second * slack) (left.mul .binary64 right) := by
  obtain ⟨mantissa, exponent, positive, rfl, full, _, low, below⟩ := within.exists_finite
  obtain ⟨mantissa', exponent', positive', rfl, full', _, low', below'⟩ := within'.exists_finite
  have long : 2 ^ 52 * 2 ^ 52 ≤ mantissa * mantissa' := Nat.mul_le_mul full full'
  have digits : 104 ≤ (mantissa * mantissa').log2 := (Nat.le_log2 (by omega)).mpr long
  have rounded := atMost_round (mantissa * mantissa') (exponent + exponent') (by omega) (by omega)
  refine rounded.mono ?_
  have product : ((mantissa * mantissa' : Nat) : ℚ) * 2 ^ (exponent + exponent') =
      mantissa * 2 ^ exponent * (mantissa' * 2 ^ exponent') := by
    rw [zpow_add₀ two_ne_zero]
    push_cast
    ring
  have firstPositive : 0 ≤ first := le_trans (by positivity) below
  rw [product]
  unfold slack
  gcongr

/-- A number with a full mantissa keeps its parts when it is put into 64 bits. -/
theorem unpack_pack (positive : 0 < mantissa) (full : 2 ^ 52 ≤ mantissa) (short : mantissa < 2 ^ 53)
    (low : -1074 ≤ exponent) (high : exponent < 972) :
    (Float.Model.pack (.finite .positive mantissa exponent positive)).unpack =
      .finite .positive mantissa exponent positive := by
  have digits : mantissa.log2 = 52 := (Nat.log2_eq_iff (by omega)).mpr ⟨full, short⟩
  obtain ⟨biased, same⟩ := Int.eq_ofNat_of_zero_le (show 0 ≤ exponent + 1075 - 1 by omega)
  have within : biased + 1 < 2 ^ 11 - 1 := by omega
  have stored : (exponent + Format.binary64.exponentBias + Format.binary64.mantissaBitsWithoutImplicit).toNat =
      biased + 1 := by
    change (exponent + 1023 + 52).toNat = _
    omega
  have packed : UnpackedFloat.pack .binary64 (.finite .positive mantissa exponent positive) =
      packComponents .binary64 .positive (BitVec.ofNat 11 (biased + 1)) (BitVec.ofNat 52 mantissa) := by
    simp only [UnpackedFloat.pack, stored, digits]
    rw [if_neg (by omega), if_pos (by rfl)]
  have exponentBits : (BitVec.ofNat 11 (biased + 1)).toNat = biased + 1 := by
    rw [BitVec.toNat_ofNat]
    omega
  have finite : BitVec.ofNat 11 (biased + 1) ≠ -1#11 := by
    intro top
    have number := congrArg BitVec.toNat top
    rw [exponentBits] at number
    exact absurd number (by change _ ≠ 2047; omega)
  have normal : BitVec.ofNat 11 (biased + 1) ≠ 0#11 := by
    intro bottom
    have number := congrArg BitVec.toNat bottom
    rw [exponentBits] at number
    exact absurd number (by change _ ≠ 0; omega)
  have mantissaBits : (1#1 ++ BitVec.ofNat 52 mantissa).toNat = mantissa := by
    rw [BitVec.toNat_append, BitVec.toNat_ofNat, BitVec.toNat_ofNat,
      ← Nat.shiftLeft_add_eq_or_of_lt (Nat.mod_lt _ (by decide)), Nat.shiftLeft_eq]
    omega
  unfold Float.Model.unpack Float.Model.pack
  simp only [packed, UnpackedFloat.unpack, unpackExponent_packComponents, unpackMantissa_packComponents,
    unpackSign_packComponents]
  rw [if_neg finite, if_neg normal]
  simp only [exponentBits, mantissaBits, UnpackedFloat.finite.injEq, true_and]
  refine ⟨rfl, ?_⟩
  change ((biased + 1 : Nat) : Int) - (1023 + 52) = exponent
  omega

theorem AtMost.unpack_pack (within : AtMost bound unpacked) (small : bound < 2 ^ 1024) :
    (Float.Model.pack unpacked).unpack = unpacked := by
  obtain ⟨mantissa, exponent, positive, rfl, full, short, low, below⟩ := within.exists_finite
  have part : (2 : ℚ) ^ (52 + exponent) < 2 ^ (1024 : Int) := by
    rw [zpow_add₀ two_ne_zero]
    refine lt_of_le_of_lt (le_trans ?_ below) (by exact_mod_cast small)
    gcongr
    exact_mod_cast full
  have high := (zpow_lt_zpow_iff_right₀ one_lt_two).mp part
  exact Decimal.unpack_pack positive full short (by omega) (by omega)

/-- A number of 64 bits that is finite and at most `bound`. -/
def FloatAtMost (bound : ℚ) (value : Float) : Prop :=
  AtMost bound value.toModel.unpack

variable {value other : Float} {number : Nat}

theorem floatAtMost_pack (within : AtMost bound unpacked) (small : bound < 2 ^ 1024) :
    FloatAtMost bound ⟨Float.Model.pack unpacked⟩ := by
  rw [FloatAtMost, within.unpack_pack small]
  exact within

theorem FloatAtMost.isInf (within : FloatAtMost bound value) : value.isInf = false :=
  AtMost.isInf within

theorem FloatAtMost.mul (within : FloatAtMost first value) (within' : FloatAtMost second other)
    (small : first * second * slack < 2 ^ 1024) :
    FloatAtMost (first * second * slack) (value * other) :=
  floatAtMost_pack (AtMost.mul within within') small

theorem atMost_ofScientific (positive : 0 < number) (tens : Nat) (small : tens ≤ 2 ^ 11) :
    AtMost (number * 10 ^ tens * slack) (UnpackedFloat.ofScientific .binary64 number tens) := by
  have above : ¬ (tens : Int) > 2 ^ Format.binary64.exponentBits := by
    change ¬ (tens : Int) > 2 ^ 11
    exact_mod_cast Nat.not_lt.mpr small
  have below : ¬ (tens : Int) < -(2 ^ Format.binary64.exponentBits + (number.log2 : Int)) := by
    change ¬ (tens : Int) < -(2 ^ 11 + (number.log2 : Int))
    omega
  rw [UnpackedFloat.ofScientific, dif_neg (by omega), if_neg above, if_neg below,
    if_pos (Int.natCast_nonneg tens)]
  -- The mantissa is made long enough before the two numbers are multiplied.
  have shifted : number <<< Format.binary64.mantissaBits = number * 2 ^ 53 := Nat.shiftLeft_eq _ _
  have long : 2 ^ 53 ≤ number * 2 ^ 53 * 10 ^ tens := by
    calc 2 ^ 53 = 1 * 2 ^ 53 * 1 := rfl
      _ ≤ number * 2 ^ 53 * 10 ^ tens :=
        Nat.mul_le_mul (Nat.mul_le_mul_right _ positive) (Nat.one_le_pow _ _ (by decide))
  have digits : 53 ≤ (number * 2 ^ 53 * 10 ^ tens).log2 := (Nat.le_log2 (by omega)).mpr long
  have rounded := atMost_round (number * 2 ^ 53 * 10 ^ tens) (-53) (by omega) (by omega)
  rw [← shifted] at rounded
  refine AtMost.mono rounded (le_of_eq ?_)
  rw [shifted]
  push_cast
  rw [zpow_neg]
  field_simp
  norm_num

theorem atMost_ofNat (positive : 0 < number) :
    AtMost (number * slack) (UnpackedFloat.ofNat .binary64 number) := by
  have sign : compare (number : Int) 0 = .gt := by
    rw [compare_gt_iff_gt]
    omega
  have amount : (0 - Format.binary64.targetExponent (totalExponent number 0)).toNat =
      52 - number.log2 := by
    rw [targetExponent_eq (by omega)]
    omega
  have shifted : number <<< (52 - number.log2) = number * 2 ^ (52 - number.log2) := Nat.shiftLeft_eq _ _
  have full : 2 ^ 52 ≤ number * 2 ^ (52 - number.log2) :=
    calc 2 ^ 52 ≤ 2 ^ (number.log2 + (52 - number.log2)) := Nat.pow_le_pow_right (by decide) (by omega)
      _ = 2 ^ number.log2 * 2 ^ (52 - number.log2) := Nat.pow_add _ _ _
      _ ≤ number * 2 ^ (52 - number.log2) := Nat.mul_le_mul_right _ (Nat.log2_self_le (by omega))
  have digits : 52 ≤ (number * 2 ^ (52 - number.log2)).log2 := (Nat.le_log2 (by omega)).mpr full
  rw [UnpackedFloat.ofNat, UnpackedFloat.ofInt, UnpackedFloat.normalize, sign]
  dsimp only
  rw [UnpackedFloat.round, Int.toNat_natCast, decreaseExponent]
  dsimp only
  rw [amount, shifted]
  refine AtMost.mono (atMost_round _ _ full (by omega)) (le_of_eq ?_)
  push_cast
  rw [zero_sub, zpow_neg, zpow_natCast]
  field_simp

/-- An exact power of ten. -/
def isPower (tens : Nat) (value : Float) : Bool :=
  match value.toModel.unpack with
  | .finite .positive mantissa exponent _ =>
      2 ^ 52 ≤ mantissa && mantissa < 2 ^ 53 && -52 ≤ exponent &&
        mantissa * 2 ^ exponent.toNat ≤ 10 ^ tens * 2 ^ (-exponent).toNat
  | _ => false

theorem floatAtMost_of_isPower {tens : Nat} (power : isPower tens value = true) :
    FloatAtMost (10 ^ tens) value := by
  unfold isPower at power
  split at power
  · rename_i mantissa exponent positive parts
    simp only [Bool.and_eq_true, decide_eq_true_eq] at power
    obtain ⟨⟨⟨full, short⟩, low⟩, below⟩ := power
    rw [FloatAtMost, parts]
    refine ⟨full, short, low, ?_⟩
    refine le_of_mul_le_mul_right ?_ (show (0 : ℚ) < 2 ^ (-exponent).toNat by positivity)
    rw [mul_assoc, zpow_mul_pow_neg two_ne_zero]
    exact_mod_cast below
  · contradiction

theorem isPower_ofScientific : ∀ tens < 23, isPower tens (.ofScientific 1 false tens) = true := by
  decide +kernel

theorem isPower_table_zero :
    isPower 0 Float.exactlyRepresentablePowersOfTen[0] = true := by
  decide +kernel

/-- A whole number as a floating-point number. -/
theorem floatAtMost_number (positive : 0 < number) (small : number ≤ Text.maxUnsigned64) :
    FloatAtMost (number * slack * slack) (.ofScientific number false 0) := by
  have bounded : (number : ℚ) * slack * slack < 2 ^ 1024 := by
    calc (number : ℚ) * slack * slack ≤ Text.maxUnsigned64 * slack * slack := by
          have nonnegative := slack_nonneg
          gcongr
      _ < 2 ^ 128 := by norm_num [slack, Text.maxUnsigned64]
      _ ≤ 2 ^ 1024 := pow_le_pow_right₀ one_le_two (by decide)
  have more : (number : ℚ) * slack ≤ number * slack * slack :=
    le_mul_of_one_le_right (mul_nonneg (by positivity) slack_nonneg) one_le_slack
  rw [Float.ofScientific]
  split
  · rename_i exact
    have same : number.toUInt64.toNat = number := UInt64.toNat_ofNat_of_lt' (by
      change number < 2 ^ 64
      omega)
    have whole : FloatAtMost (number * slack) number.toUInt64.toFloat := by
      refine floatAtMost_pack ?_ (more.trans_lt bounded)
      rw [UnpackedFloat.ofUInt64, same]
      exact atMost_ofNat positive
    have product := whole.mul (floatAtMost_of_isPower isPower_table_zero) (by simpa using bounded)
    simpa using product
  · refine floatAtMost_pack ?_ bounded
    have within := atMost_ofScientific positive 0 (Nat.zero_le _)
    rw [pow_zero, mul_one] at within
    exact within.mono more

theorem floatAtMost_power {tens : Nat} (small : tens ≤ 308) :
    FloatAtMost (10 ^ tens * slack) (.ofScientific 1 false tens) := by
  rcases Nat.lt_or_ge tens 23 with exact | large
  · exact AtMost.mono (floatAtMost_of_isPower (isPower_ofScientific tens exact))
      (le_mul_of_one_le_right (by positivity) one_le_slack)
  · rw [Float.ofScientific, dif_neg (by omega)]
    refine floatAtMost_pack ?_ ?_
    · have within := atMost_ofScientific Nat.one_pos tens (by omega)
      rw [Nat.cast_one, one_mul] at within
      exact within
    · have largest : (10 : ℚ) ^ 308 * 3 < 2 ^ 1024 * 2 := by
        exact_mod_cast (by decide +kernel : 10 ^ 308 * 3 < 2 ^ 1024 * 2)
      calc (10 : ℚ) ^ tens * slack ≤ 10 ^ 308 * (3 / 2) := by
            have nonnegative := slack_nonneg
            have little := slack_le
            gcongr
            norm_num
        _ < 2 ^ 1024 := by rwa [← mul_div_assoc, div_lt_iff₀ two_pos]

open Json (scaleFloat)

/-- Numbers up to this one are read as finite ones, whatever their digits. -/
def readableLimit : ℚ := (2 ^ 55 - 34) * 2 ^ 969

/-- Making a number smaller always succeeds. -/
theorem scaleFloat_isSome_of_neg {tens : Int} (small : tens < 0) (steps : Nat) :
    (scaleFloat value tens steps).isSome = true := by
  induction steps generalizing value tens with
  | zero => rfl
  | succ steps ih =>
      rw [scaleFloat]
      split
      · rw [if_neg (by omega)]
        rfl
      · split
        · rfl
        · rw [if_neg (by omega)]
          exact ih (by omega)

theorem tens_le {tens : Nat} (positive : 0 < number)
    (below : (number : ℚ) * 10 ^ tens ≤ readableLimit) : tens ≤ 308 := by
  by_contra large
  have more : (10 : ℚ) ^ 309 ≤ number * 10 ^ tens :=
    calc (10 : ℚ) ^ 309 ≤ 10 ^ tens := pow_le_pow_right₀ (by norm_num) (by omega)
      _ ≤ number * 10 ^ tens := le_mul_of_one_le_left (by positivity) (by exact_mod_cast positive)
  have less : readableLimit < 10 ^ 309 :=
    calc readableLimit ≤ 2 ^ 55 * 2 ^ 969 := by
          unfold readableLimit
          gcongr
          norm_num
      _ < 10 ^ 309 := by exact_mod_cast (by decide +kernel : 2 ^ 55 * 2 ^ 969 < 10 ^ 309)
  exact absurd (more.trans below) (not_le.mpr less)

theorem limit_slack : readableLimit * (slack * slack * slack * slack) < 2 ^ 1024 := by
  have part : (2 ^ 55 - 34) * (slack * slack * slack * slack) < 2 ^ 55 := by norm_num [slack]
  calc readableLimit * (slack * slack * slack * slack)
      = (2 ^ 55 - 34) * (slack * slack * slack * slack) * 2 ^ 969 := by
        rw [readableLimit, mul_right_comm]
    _ < 2 ^ 55 * 2 ^ 969 := by gcongr
    _ = 2 ^ 1024 := by rw [← pow_add]

theorem isInf_zero_mul (within : FloatAtMost bound other) :
    (Float.ofScientific 0 false 0 * other).isInf = false := by
  obtain ⟨mantissa, exponent, positive, parts, _⟩ := within.exists_finite
  have zero : (Float.ofScientific 0 false 0).toModel.unpack = .zero .positive := rfl
  change (Float.Model.pack (UnpackedFloat.mul .binary64 (Float.ofScientific 0 false 0).toModel.unpack
    other.toModel.unpack)).unpack.isInf = false
  rw [zero, parts]
  change (Float.Model.pack (.zero .positive)).unpack.isInf = false
  decide +kernel

/-- A number that is not too large is scaled to a finite one. -/
theorem scaleFloat_isSome_of_le (tens : Nat) (small : number ≤ Text.maxUnsigned64)
    (below : (number : ℚ) * 10 ^ tens ≤ readableLimit) :
    (scaleFloat (.ofScientific number false 0) tens 8).isSome = true := by
  have scaled (few : tens ≤ 308)
      (finite : (Float.ofScientific number false 0 * .ofScientific 1 false tens).isInf = false) :
      (scaleFloat (.ofScientific number false 0) tens 8).isSome = true := by
    rw [scaleFloat, if_pos (by omega), if_pos (by omega)]
    simp only [Int.natAbs_natCast, finite, Bool.false_eq_true, ↓reduceIte, Option.isSome_some]
  rcases Nat.eq_zero_or_pos number with rfl | positive
  · by_cases few : tens ≤ 308
    · exact scaled few (isInf_zero_mul (floatAtMost_power few))
    · have zero : (Float.ofScientific 0 false 0 == 0.0) = true := by decide +kernel
      rw [scaleFloat, if_neg (by omega), if_pos zero]
      rfl
  · have few := tens_le positive below
    have product : number * slack * slack * (10 ^ tens * slack) * slack < (2 : ℚ) ^ 1024 := by
      calc number * slack * slack * (10 ^ tens * slack) * slack
          = number * 10 ^ tens * (slack * slack * slack * slack) := by ring
        _ ≤ readableLimit * (slack * slack * slack * slack) := by
            have nonnegative := slack_nonneg
            gcongr
        _ < 2 ^ 1024 := limit_slack
    exact scaled few ((floatAtMost_number positive small).mul (floatAtMost_power few) product).isInf

/-- Exponents of two digits are not too large for any number of 64 bits. -/
theorem scaleFloat_isSome {tens : Int} (small : number ≤ Text.maxUnsigned64) (few : tens ≤ 100) :
    (scaleFloat (.ofScientific number false 0) tens 8).isSome = true := by
  rcases lt_or_ge tens 0 with negative | nonnegative
  · exact scaleFloat_isSome_of_neg negative 8
  · obtain ⟨tens, rfl⟩ := Int.eq_ofNat_of_zero_le nonnegative
    refine scaleFloat_isSome_of_le tens small ?_
    calc (number : ℚ) * 10 ^ tens ≤ Text.maxUnsigned64 * 10 ^ 100 := by
          gcongr
          · norm_num
          · omega
      _ ≤ 2 ^ 54 * 2 ^ 400 := by
          exact_mod_cast (by decide +kernel : Text.maxUnsigned64 * 10 ^ 100 ≤ 2 ^ 54 * 2 ^ 400)
      _ ≤ readableLimit := by
          unfold readableLimit
          gcongr <;> norm_num

end SwitchShell.Decimal
