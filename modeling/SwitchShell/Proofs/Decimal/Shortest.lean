import SwitchShell.Decimal.Shortest
import SwitchShell.Proofs.Decimal.Rounding

namespace SwitchShell.Decimal

open Json (scaleFloat)

variable {interval : Interval} {tens : Int} {decimal : Decimal} {bits : Nat}

/-- A point inside an interval is not beyond its ends. -/
theorem between_of_inside {low point high : Nat} {closed : Bool}
    (inside : (if closed then decide (low ≤ point) && decide (point ≤ high)
      else decide (low < point) && decide (point < high)) = true) : low ≤ point ∧ point ≤ high := by
  cases closed <;> simp at inside <;> omega

theorem between_of_onGrid? (found : interval.onGrid? tens = some decimal) :
    decimal.tens = tens ∧
      interval.low * (scaled interval.twos tens).1 ≤
        decimal.digits * (scaled interval.twos tens).2 ∧
      decimal.digits * (scaled interval.twos tens).2 ≤
        interval.high * (scaled interval.twos tens).1 := by
  obtain ⟨unit, grid, scale⟩ : ∃ unit grid, scaled interval.twos tens = (unit, grid) := ⟨_, _, rfl⟩
  unfold Interval.onGrid? at found
  rw [scale] at found ⊢
  dsimp only at found ⊢
  -- Whichever of the two candidates is picked was found inside.
  split at found
  · contradiction
  · rename_i inside _
    cases found
    exact ⟨rfl, between_of_inside inside⟩
  · rename_i _ inside
    cases found
    exact ⟨rfl, between_of_inside inside⟩
  · rename_i below above
    split at found <;> cases found
    · exact ⟨rfl, between_of_inside below⟩
    · exact ⟨rfl, between_of_inside above⟩

/-- The two sides of a comparison stand for numbers on one scale. -/
theorem le_of_scaled {digits count : Nat} {twos : Int}
    (below : digits * (scaled twos tens).2 ≤ count * (scaled twos tens).1) :
    (digits : ℚ) * 10 ^ tens ≤ count * 2 ^ twos := by
  have cast : (digits : ℚ) * (10 ^ tens.toNat * 2 ^ (-twos).toNat) ≤
      count * (2 ^ twos.toNat * 10 ^ (-tens).toNat) := by
    exact_mod_cast below
  rw [← zpow_mul_pow_neg (by norm_num) tens, ← zpow_mul_pow_neg (by norm_num) twos] at cast
  refine le_of_mul_le_mul_right ?_ (show (0 : ℚ) < 10 ^ (-tens).toNat * 2 ^ (-twos).toNat by positivity)
  calc (digits : ℚ) * 10 ^ tens * (10 ^ (-tens).toNat * 2 ^ (-twos).toNat)
      = digits * (10 ^ tens * 10 ^ (-tens).toNat * 2 ^ (-twos).toNat) := by ring
    _ ≤ count * (2 ^ twos * 2 ^ (-twos).toNat * 10 ^ (-tens).toNat) := cast
    _ = count * 2 ^ twos * (10 ^ (-tens).toNat * 2 ^ (-twos).toNat) := by ring

theorem search_le (count : Nat) :
    ((interval.search tens count).digits : ℚ) * 10 ^ (interval.search tens count).tens ≤
      interval.high * 2 ^ interval.twos := by
  induction count generalizing tens with
  | zero =>
      rw [Interval.search, Nat.cast_zero, zero_mul]
      positivity
  | succ count ih =>
      rw [Interval.search]
      split
      · rename_i decimal found
        obtain ⟨rfl, _, below⟩ := between_of_onGrid? found
        exact le_of_scaled below
      · exact ih

theorem shortest_le (bits : Nat) :
    ((shortest bits).digits : ℚ) * 10 ^ (shortest bits).tens ≤
      (Interval.ofBits bits).high * 2 ^ (Interval.ofBits bits).twos :=
  search_le 24

/-- The largest exponent is the one of the last numbers. -/
theorem high_bounds (small : bits < 0x7FEFFFFFFFFFFFF8) :
    (Interval.ofBits bits).high ≤ 2 ^ 54 * 2 ∧ (Interval.ofBits bits).twos ≤ 968 ∨
      (Interval.ofBits bits).high ≤ 2 ^ 55 - 34 ∧ (Interval.ofBits bits).twos ≤ 969 := by
  have grid : Nat.pow 2 52 = 0x10000000000000 := rfl
  have range : Nat.pow 2 11 = 2048 := rfl
  simp only [Interval.ofBits, grid, range]
  split <;> omega

/-- All but the eight largest finite numbers are clearly below the largest one. -/
theorem high_le (small : bits < 0x7FEFFFFFFFFFFFF8) :
    ((Interval.ofBits bits).high : ℚ) * 2 ^ (Interval.ofBits bits).twos ≤ readableLimit := by
  have limit : readableLimit = (2 ^ 55 - 34 : Nat) * 2 ^ (969 : Int) := by
    rw [readableLimit, show (969 : Int) = (969 : Nat) from rfl, zpow_natCast]
    congr 1
    norm_num
  rcases high_bounds small with ⟨high, twos⟩ | ⟨high, twos⟩
  · calc ((Interval.ofBits bits).high : ℚ) * 2 ^ (Interval.ofBits bits).twos
        ≤ (2 ^ 54 * 2 : Nat) * 2 ^ (968 : Int) := by
          gcongr
          norm_num
      _ = (2 ^ 54 : Nat) * 2 ^ (969 : Int) := by
          rw [show (969 : Int) = 968 + 1 from rfl, zpow_add_one₀ two_ne_zero, Nat.cast_mul]
          ring
      _ ≤ (2 ^ 55 - 34 : Nat) * 2 ^ (969 : Int) := by
          gcongr
          decide
      _ = readableLimit := limit.symm
  · calc ((Interval.ofBits bits).high : ℚ) * 2 ^ (Interval.ofBits bits).twos
        ≤ (2 ^ 55 - 34 : Nat) * 2 ^ (969 : Int) := by
          gcongr
          norm_num
      _ = readableLimit := limit.symm

/-- Only where no grid has a decimal the digits are zero. -/
theorem search_zero (positive : 0 < interval.low) (count : Nat)
    (zero : (interval.search tens count).digits = 0) : (interval.search tens count).tens = 0 := by
  induction count generalizing tens with
  | zero => rfl
  | succ count ih =>
      rw [Interval.search] at zero ⊢
      split at zero
      · rename_i decimal found
        obtain ⟨_, above, _⟩ := between_of_onGrid? found
        have unit : 0 < (scaled interval.twos tens).1 :=
          Nat.mul_pos (Nat.pow_pos (by decide)) (Nat.pow_pos (by decide))
        rw [zero, Nat.zero_mul] at above
        exact absurd above (Nat.not_le.mpr (Nat.mul_pos positive unit))
      · exact ih zero

theorem shortest_zero (nonzero : bits % 2 ^ 63 ≠ 0) (zero : (shortest bits).digits = 0) :
    (shortest bits).tens = 0 := by
  refine search_zero ?_ 24 zero
  have grid : Nat.pow 2 52 = 0x10000000000000 := rfl
  have range : Nat.pow 2 11 = 2048 := rfl
  simp only [Interval.ofBits, grid, range, beq_iff_eq, Bool.and_eq_true, decide_eq_true_eq]
  split <;> split <;> omega

theorem le_search_tens (interval : Interval) (tens : Int) (count : Nat) :
    tens - count ≤ (interval.search tens count).tens ∨ (interval.search tens count).tens = 0 := by
  induction count generalizing tens with
  | zero => exact .inr rfl
  | succ count ih =>
      rw [Interval.search]
      split
      · rename_i decimal found
        obtain ⟨rfl, _⟩ := between_of_onGrid? found
        exact .inl (by omega)
      · have later := ih (tens - 1)
        omega

/-- Small numbers do not have arbitrarily small exponents. -/
theorem le_shortest_tens (bits : Nat) : -400 ≤ (shortest bits).tens := by
  have twos : -1076 ≤ (Interval.ofBits bits).twos := by
    simp only [Interval.ofBits]
    split <;> omega
  have least := le_search_tens (Interval.ofBits bits)
    (((Interval.ofBits bits).value.log2 + (Interval.ofBits bits).twos) * 30103 / 100000 + 2) 24
  change _ ∨ (shortest bits).tens = 0 at least
  change _ ≤ (shortest bits).tens ∨ _ at least
  omega

/-- The shortest decimals of the eight largest finite numbers are read. -/
theorem shortest_largest :
    ∀ index < 8, (shortest (0x7FEFFFFFFFFFFFF8 + index)).digits ≤ Text.maxUnsigned64 ∧
      (scaleFloat (.ofScientific (shortest (0x7FEFFFFFFFFFFFF8 + index)).digits false 0)
        (shortest (0x7FEFFFFFFFFFFFF8 + index)).tens 8).isSome = true := by
  decide +kernel

/-- Finite numbers are below the first power of two that is not finite. -/
theorem shortest_le_two_pow (finite : bits < 0x7FF0000000000000) :
    ((shortest bits).digits : ℚ) * 10 ^ (shortest bits).tens ≤ 2 ^ (1024 : Int) := by
  have bounds : (Interval.ofBits bits).high ≤ 2 ^ 55 ∧ (Interval.ofBits bits).twos ≤ 969 := by
    have grid : Nat.pow 2 52 = 0x10000000000000 := rfl
    have range : Nat.pow 2 11 = 2048 := rfl
    simp only [Interval.ofBits, grid, range]
    split <;> omega
  calc ((shortest bits).digits : ℚ) * 10 ^ (shortest bits).tens
      ≤ (Interval.ofBits bits).high * 2 ^ (Interval.ofBits bits).twos := shortest_le bits
    _ ≤ (2 ^ 55 : Nat) * 2 ^ (969 : Int) := by
        gcongr
        · exact bounds.1
        · norm_num
        · exact bounds.2
    _ = 2 ^ (1024 : Int) := by
        rw [Nat.cast_pow, Nat.cast_ofNat, ← zpow_natCast, ← zpow_add₀ two_ne_zero]
        rfl

/-- The first digits of a shortest decimal are scaled to a finite number, if
they are not too many for 64 bits. -/
theorem scaleFloat_shortest {kept dropped : Nat} (finite : bits < 0x7FF0000000000000)
    (fits : kept ≤ Text.maxUnsigned64) (part : kept * 10 ^ dropped ≤ (shortest bits).digits)
    (all : (shortest bits).digits ≤ Text.maxUnsigned64 →
      kept = (shortest bits).digits ∧ dropped = 0) :
    (scaleFloat (.ofScientific kept false 0) ((shortest bits).tens + dropped) 8).isSome = true := by
  rcases Nat.lt_or_ge bits 0x7FEFFFFFFFFFFFF8 with small | large
  · rcases lt_or_ge ((shortest bits).tens + dropped) 0 with negative | nonnegative
    · exact scaleFloat_isSome_of_neg negative 8
    · obtain ⟨tens, same⟩ := Int.eq_ofNat_of_zero_le nonnegative
      rw [same]
      refine scaleFloat_isSome_of_le tens fits ?_
      calc (kept : ℚ) * 10 ^ tens = kept * 10 ^ dropped * 10 ^ (shortest bits).tens := by
            rw [← zpow_natCast 10 tens, ← same, zpow_add₀ (by norm_num), zpow_natCast]
            ring
        _ ≤ (shortest bits).digits * 10 ^ (shortest bits).tens := by
            gcongr
            exact_mod_cast part
        _ ≤ readableLimit := (shortest_le bits).trans (high_le small)
  · obtain ⟨index, rfl⟩ := Nat.exists_eq_add_of_le large
    obtain ⟨short, some⟩ := shortest_largest index (by omega)
    obtain ⟨rfl, rfl⟩ := all short
    rwa [Nat.cast_zero, Int.add_zero]

end SwitchShell.Decimal
