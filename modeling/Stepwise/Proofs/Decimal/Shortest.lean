import Stepwise.Decimal.Shortest
import Stepwise.Proofs.Double.Rounding
import Mathlib

/-!
# The shortest decimal lies in the cell

The search for the fewest digits only accepts decimals in the cell of the double, and it accepts one: on
the finest grid that is searched, the neighbours of the double are less than a quarter of a unit away.
-/

namespace Stepwise.Decimal

open Double (Canonical Cell Nearest zpow_two_pos)

section Scaled

variable (mantissa : ℕ) (exponent shift : ℤ)

/-- A power as a quotient of two, of which one is one. -/
lemma pow_toNat_div (b : ℕ) (pos : 0 < b) :
    ((Nat.pow b shift.toNat : ℕ) : ℚ) / (Nat.pow b (-shift).toNat : ℕ) = (b : ℚ) ^ shift := by
  have ne : (b : ℚ) ≠ 0 := by exact_mod_cast pos.ne'
  change ((b ^ shift.toNat : ℕ) : ℚ) / (b ^ (-shift).toNat : ℕ) = _
  rw [Nat.cast_pow, Nat.cast_pow, ← zpow_natCast, ← zpow_natCast, ← zpow_sub₀ ne]
  congr 1
  omega

/-- The denominator of a scaled value is positive. -/
lemma scaled_snd_pos : 0 < (scaled mantissa exponent shift).2 :=
  Nat.mul_pos (Nat.pow_pos (by norm_num)) (Nat.pow_pos (by norm_num))

/-- The numerator of a scaled value is positive if the mantissa is. -/
lemma scaled_fst_pos (pos : 0 < mantissa) : 0 < (scaled mantissa exponent shift).1 :=
  Nat.mul_pos (Nat.mul_pos pos (Nat.pow_pos (by norm_num))) (Nat.pow_pos (by norm_num))

/-- Numerator and denominator of a scaled value have the value as their quotient. -/
lemma scaled_eq :
    ((scaled mantissa exponent shift).1 : ℚ) / (scaled mantissa exponent shift).2 =
      mantissa * 2 ^ exponent * 10 ^ shift := by
  have two := pow_toNat_div exponent 2 (by norm_num)
  have ten := pow_toNat_div shift 10 (by norm_num)
  rw [Nat.cast_ofNat] at two ten
  rw [scaled, Nat.cast_mul, Nat.cast_mul, Nat.cast_mul, mul_div_mul_comm, mul_div_assoc, two, ten]

end Scaled

section Leading

variable {num den : ℕ}

/-- A positive number is at least the power of ten of its first digit. -/
lemma pow_digitCount_le {n : ℕ} (pos : 0 < n) : 10 ^ (digitCount n - 1) ≤ n := by
  by_contra! lt
  rcases Nat.eq_zero_or_pos (digitCount n - 1) with zero | one_le
  · rw [zero] at lt
    omega
  · have := (Nat.length_toDigits_le_iff (by norm_num) one_le).mpr lt
    rw [digitCount] at *
    omega

/-- A number is below the power of ten with as many zeros as it has digits. -/
lemma lt_pow_digitCount (n : ℕ) : n < 10 ^ digitCount n :=
  (Nat.length_toDigits_le_iff (by norm_num) Nat.length_toDigits_pos).mp le_rfl

/-- A positive fraction is at least the power of ten of its leading digit. -/
lemma zpow_leadingPower_le (num_pos : 0 < num) (den_pos : 0 < den) :
    (10 : ℚ) ^ leadingPower num den ≤ num / den := by
  have den_pos' : (0 : ℚ) < den := by exact_mod_cast den_pos
  rw [leadingPower, le_div_iff₀ den_pos']
  split
  case isTrue le =>
    have whole := Nat.div_pos le den_pos
    have one_le : 1 ≤ digitCount (num / den) := Nat.length_toDigits_pos
    have le := Nat.le_trans (Nat.mul_le_mul_right den (pow_digitCount_le whole))
      (Nat.div_mul_le_self num den)
    rw [← Nat.cast_one, ← Nat.cast_sub one_le, zpow_natCast]
    exact_mod_cast le
  case isFalse gt =>
    have below := lt_pow_digitCount ((den - 1) / num)
    rw [Nat.div_lt_iff_lt_mul num_pos] at below
    have le : den ≤ 10 ^ digitCount ((den - 1) / num) * num := by omega
    rw [zpow_neg, zpow_natCast, inv_mul_le_iff₀ (by positivity)]
    exact_mod_cast le

end Leading

section Grid

variable {mantissa n : ℕ} {exponent power : ℤ}

/-- A quarter of the last place of a double, and the distance of the points of a grid. -/
def scale (exponent power : ℤ) : ℕ × ℕ :=
  scaled 1 (exponent - 2) (-power)

/-- How many quarters of the last place are in front of a double. -/
def gap (mantissa : ℕ) (exponent : ℤ) : ℕ :=
  if mantissa = Nat.pow 2 52 ∧ -1074 < exponent then 1 else 2

/-- A point of a grid reads back. -/
def readsBack (mantissa : ℕ) (exponent power : ℤ) (n : ℕ) : Bool :=
  let (unit, step) := scale exponent power
  let least := (4 * mantissa - gap mantissa exponent) * unit
  let greatest := (4 * mantissa + 2) * unit
  if mantissa % 2 = 0 then least ≤ n * step ∧ n * step ≤ greatest
  else least < n * step ∧ n * step < greatest

/-- Of the two points of a grid around a double, the one that reads back is taken, and the nearer one if
both do. -/
lemma onGrid_eq :
    onGrid mantissa exponent power =
      let (unit, step) := scale exponent power
      let below := 4 * mantissa * unit / step
      match readsBack mantissa exponent power below, readsBack mantissa exponent power (below + 1) with
      | true, true =>
        some (if 2 * (4 * mantissa * unit - below * step) < step then below else below + 1)
      | true, false => some below
      | false, true => some (below + 1)
      | false, false => none :=
  rfl

/-- A point that is found on a grid reads back. -/
lemma readsBack_of_onGrid (h : onGrid mantissa exponent power = some n) :
    readsBack mantissa exponent power n = true := by
  rw [onGrid_eq] at h
  dsimp only at h
  split at h
  case h_1 below above =>
    cases h
    split
    · exact below
    · exact above
  case h_2 below _ => cases h; exact below
  case h_3 _ above => cases h; exact above
  case h_4 => cases h

/-- A quarter of the last place is positive. -/
lemma scale_fst_pos : 0 < (scale exponent power).1 :=
  scaled_fst_pos _ _ _ Nat.one_pos

/-- A point of a grid, counted in quarters of the last place of a double. -/
lemma mul_scale_snd (n : ℕ) (exponent power : ℤ) :
    (n * (scale exponent power).2 : ℚ) =
      4 * (n * 10 ^ power / 2 ^ exponent) * (scale exponent power).1 := by
  have unit : ((scale exponent power).1 : ℚ) ≠ 0 := by exact_mod_cast scale_fst_pos.ne'
  have step : ((scale exponent power).2 : ℚ) ≠ 0 := by exact_mod_cast (scaled_snd_pos ..).ne'
  have value := scaled_eq 1 (exponent - 2) (-power)
  change ((scale exponent power).1 : ℚ) / (scale exponent power).2 = _ at value
  rw [div_eq_iff step, Nat.cast_one, one_mul, zpow_sub₀ (by norm_num), zpow_neg, zpow_ofNat] at value
  rw [value]
  have two := (zpow_two_pos exponent).ne'
  have ten : (10 : ℚ) ^ power ≠ 0 := zpow_ne_zero _ (by norm_num)
  field_simp
  norm_num

/-- The gap in front of a double is two quarters of the last place, and one quarter just above a power of
two. -/
lemma gap_spec (pos : 0 < mantissa) (exponent : ℤ) :
    ((4 * mantissa - gap mantissa exponent : ℕ) : ℚ) = 4 * mantissa - gap mantissa exponent ∧
      gap mantissa exponent ≤ 2 ∧ (mantissa = 2 ^ 52 → -1074 < exponent → gap mantissa exponent = 1) := by
  have le : gap mantissa exponent ≤ 2 := by
    unfold gap
    split <;> omega
  refine ⟨?_, le, fun power above => if_pos ⟨power, above⟩⟩
  rw [Nat.cast_sub (by omega), Nat.cast_mul, Nat.cast_ofNat]

/-- A point that reads back is rounded to the double. -/
lemma cell_of_readsBack (pos : 0 < mantissa) (h : readsBack mantissa exponent power n = true) :
    Cell mantissa exponent (n * 10 ^ power) := by
  obtain ⟨front, gap_le, close⟩ := gap_spec pos exponent
  have gap_le' : (gap mantissa exponent : ℚ) ≤ 2 := by exact_mod_cast gap_le
  have unit : (0 : ℚ) < (scale exponent power).1 := by exact_mod_cast scale_fst_pos
  have point := mul_scale_snd n exponent power
  unfold readsBack at h
  dsimp only at h
  split at h
  case isTrue even =>
    obtain ⟨low, high⟩ := of_decide_eq_true h
    rw [← Nat.cast_le (α := ℚ), Nat.cast_mul, Nat.cast_mul, point, mul_le_mul_iff_left₀ unit] at low high
    rw [front] at low
    push_cast at high
    refine ⟨?_, fun power above => ?_⟩
    · rw [Nearest, if_pos even]
      constructor <;> linarith
    · rw [close power above, power] at low
      push_cast at low
      linarith
  case isFalse odd =>
    obtain ⟨low, high⟩ := of_decide_eq_true h
    rw [← Nat.cast_lt (α := ℚ), Nat.cast_mul, Nat.cast_mul, point, mul_lt_mul_iff_left₀ unit] at low high
    rw [front] at low
    push_cast at high
    refine ⟨?_, fun power => absurd (power ▸ rfl) odd⟩
    rw [Nearest, if_neg odd]
    constructor <;> linarith

/-- On a grid that is fine enough, the point below a double reads back. -/
lemma readsBack_below (pos : 0 < mantissa)
    (fine : (scale exponent power).2 ≤ (scale exponent power).1) :
    readsBack mantissa exponent power
      (4 * mantissa * (scale exponent power).1 / (scale exponent power).2) = true := by
  have unit_pos : 0 < (scale exponent power).1 := scale_fst_pos
  have step_pos : 0 < (scale exponent power).2 := scaled_snd_pos ..
  unfold readsBack
  dsimp only
  generalize (scale exponent power).1 = unit at *
  generalize (scale exponent power).2 = step at *
  have gap_pos : 0 < gap mantissa exponent := by
    unfold gap
    split <;> omega
  have gap_le := (gap_spec pos exponent).2.1
  -- Rounding down goes back by less than a step, which is at most a quarter of the last place.
  have low : (4 * mantissa - gap mantissa exponent) * unit < 4 * mantissa * unit / step * step := by
    have near := Nat.lt_div_mul_add step_pos (a := 4 * mantissa * unit)
    have wide := Nat.le_mul_of_pos_left unit gap_pos
    have le := Nat.mul_le_mul_right unit (show gap mantissa exponent ≤ 4 * mantissa by omega)
    rw [Nat.sub_mul]
    omega
  have high : 4 * mantissa * unit / step * step < (4 * mantissa + 2) * unit := by
    have near := Nat.div_mul_le_self (4 * mantissa * unit) step
    rw [Nat.add_mul]
    omega
  split
  · exact decide_eq_true ⟨low.le, high.le⟩
  · exact decide_eq_true ⟨low, high⟩

/-- A grid that is at least as fine as the doubles has a point that reads back. -/
lemma onGrid_isSome (pos : 0 < mantissa)
    (fine : (scale exponent power).2 ≤ (scale exponent power).1) :
    (onGrid mantissa exponent power).isSome = true := by
  have below := readsBack_below pos fine
  rw [onGrid_eq]
  dsimp only
  rw [below]
  split
  case h_1 => rfl
  case h_2 => rfl
  case h_3 e _ => cases e
  case h_4 e _ => cases e

end Grid

variable {mantissa : ℕ} {exponent : ℤ}

/-- The last grid that is searched is fine enough. -/
lemma fine_leadingPower (pos : 0 < mantissa) (lt : mantissa < 2 ^ 53) (exponent : ℤ) :
    let (num, den) := scaled mantissa exponent 0
    (scale exponent (leadingPower num den - 17)).2 ≤ (scale exponent (leadingPower num den - 17)).1 := by
  have leading := zpow_leadingPower_le (scaled_fst_pos mantissa exponent 0 pos)
    (scaled_snd_pos mantissa exponent 0)
  rw [scaled_eq, zpow_zero, mul_one] at leading
  dsimp only
  generalize leadingPower _ _ = power at *
  have unit : (0 : ℚ) < (scale exponent (power - 17)).1 := by exact_mod_cast scale_fst_pos
  have point := mul_scale_snd 1 exponent (power - 17)
  have small : 4 * (10 ^ (power - 17) / 2 ^ exponent : ℚ) ≤ 1 := by
    have bound : (mantissa : ℚ) < 2 ^ 53 := by exact_mod_cast lt
    rw [← div_le_iff₀ (zpow_two_pos exponent)] at leading
    rw [zpow_sub₀ (by norm_num), zpow_ofNat, div_right_comm]
    linarith
  rw [Nat.cast_one, one_mul, one_mul] at point
  rw [← Nat.cast_le (α := ℚ), point]
  exact mul_le_of_le_one_left unit.le small

/-- The shortest decimal of a double lies in its cell. -/
theorem cell_shortest (canonical : Canonical mantissa exponent) :
    Cell mantissa exponent
      ((shortest mantissa exponent).units * 10 ^ (shortest mantissa exponent).power) := by
  obtain ⟨pos, lt, -, -, -⟩ := canonical
  have fine := fine_leadingPower pos lt exponent
  unfold shortest
  dsimp only at fine ⊢
  generalize leadingPower _ _ = leading at fine ⊢
  cases found : List.findSome? _ _ with
  | none =>
    -- The last of the grids is fine enough.
    rw [List.findSome?_eq_none_iff] at found
    have nothing := found (leading - 17)
      (List.mem_map.mpr ⟨18, List.mem_range.mpr (by norm_num), by omega⟩)
    have some := onGrid_isSome pos fine
    rw [Option.map_eq_none_iff] at nothing
    rw [nothing] at some
    cases some
  | some amount =>
    obtain ⟨power, -, e⟩ := List.exists_of_findSome?_eq_some found
    obtain ⟨n, point, rfl⟩ := Option.map_eq_some_iff.mp e
    exact cell_of_readsBack pos (readsBack_of_onGrid point)

end Stepwise.Decimal
