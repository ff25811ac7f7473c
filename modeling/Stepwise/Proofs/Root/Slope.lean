import Stepwise.Proofs.Double.Overflow
import Stepwise.Proofs.Root.Path
import Mathlib

/-!
# Slopes that overflow

The slope of a function at a point is a quotient of the difference of two values. It overflows exactly
if the values are far enough apart. A step along such a slope does not move, so a search stops there as
if the point were a root.
-/

namespace Stepwise.Root

open Double

/-- The least difference of two values whose slope overflows. -/
def steepest : Float :=
  3.595386269724632e302

/-- Two values of smaller magnitude differ by less than the least difference whose slope overflows. -/
def gentle : Float :=
  1.797693134862316e302

section Overflow

variable {forward backward x value slope : Float}

/-- The number that the width of the difference quotient stands for. -/
lemma value_width : Double.value (2.0 * 1e-6) = (4722366482869645 : ℕ) * 2 ^ (-71 : ℤ) := by
  have bits : (2.0 * 1e-6 : Float) = Float.ofBits 0x3ec0c6f7a0b5ed8d := by
    decide +kernel
  have unpacked : (Float.ofBits 0x3ec0c6f7a0b5ed8d).toModel.unpack =
      .finite .positive 4722366482869645 (-71) (by norm_num) := by
    rfl
  rw [bits, Double.value, unpacked, valueOf, signed]

/-- The number that the least difference with an overflow stands for. -/
lemma value_steepest : Double.value steepest = (4722366482869645 : ℕ) * 2 ^ (953 : ℤ) := by
  have bits : steepest = Float.ofBits 0x7ec0c6f7a0b5ed8d := by
    decide +kernel
  have unpacked : (Float.ofBits 0x7ec0c6f7a0b5ed8d).toModel.unpack =
      .finite .positive 4722366482869645 953 (by norm_num) := by
    rfl
  rw [bits, Double.value, unpacked, valueOf, signed]

/-- The number that the bound for gentle values stands for. -/
lemma value_gentle : Double.value gentle = (4722366482869645 : ℕ) * 2 ^ (952 : ℤ) := by
  have bits : gentle = Float.ofBits 0x7eb0c6f7a0b5ed8d := by
    decide +kernel
  have unpacked : (Float.ofBits 0x7eb0c6f7a0b5ed8d).toModel.unpack =
      .finite .positive 4722366482869645 952 (by norm_num) := by
    rfl
  rw [bits, Double.value, unpacked, valueOf, signed]

/-- The width and both bounds are finite. -/
lemma isFinite_bounds :
    (2.0 * 1e-6 : Float).isFinite = true ∧ steepest.isFinite = true ∧ gentle.isFinite = true := by
  decide +kernel

/-- A slope overflows exactly if the two values differ enough. -/
lemma isFinite_slope_iff :
    ((forward - backward) / (2.0 * 1e-6)).isFinite = true ↔ (forward - backward).abs < steepest := by
  obtain ⟨width, bound, -⟩ := isFinite_bounds
  cases finite : (forward - backward).isFinite with
  | false =>
    rw [not_isFinite_div finite]
    exact iff_of_false nofun (not_abs_lt finite)
  | true =>
    obtain ⟨finite', abs⟩ := value_abs finite
    have positive : (0 : ℚ) < (4722366482869645 : ℕ) * 2 ^ (-71 : ℤ) := mul_zpow_two_pos (by norm_num) _
    rw [isFinite_div_iff finite width (by rw [value_width]; exact positive.ne'),
      lt_iff_value finite' bound, abs, value_width, value_steepest, abs_of_pos positive]
    have scaled : (2 ^ 1024 * ((4722366482869645 : ℕ) * 2 ^ (-71 : ℤ)) : ℚ) =
        (4722366482869645 : ℕ) * 2 ^ (953 : ℤ) := by
      rw [mul_left_comm, ← zpow_natCast, ← zpow_add₀ two_ne_zero]
      rfl
    rw [scaled]

/-- A slope taken from finite values is a number, at most an infinite one. -/
lemma isNaN_slope (hf : forward.isFinite = true) (hb : backward.isFinite = true) :
    ((forward - backward) / (2.0 * 1e-6)).isNaN = false := by
  have positive : (0 : ℚ) < (4722366482869645 : ℕ) * 2 ^ (-71 : ℤ) := mul_zpow_two_pos (by norm_num) _
  have number : (forward - backward).isNaN = false := by
    rw [isNaN_sub hb]
    exact isNaN_of_isFinite hf
  exact isNaN_div number isFinite_bounds.1 (by rw [value_width]; exact positive.ne')

/-- The slope between two values that are not too large does not overflow. -/
lemma abs_sub_lt_steepest (hf : forward.isFinite = true) (hb : backward.isFinite = true)
    (lt : forward.abs < gentle) (lt' : backward.abs < gentle) :
    (forward - backward).abs < steepest := by
  obtain ⟨-, bound, half⟩ := isFinite_bounds
  obtain ⟨finite, abs⟩ := value_abs hf
  obtain ⟨finite', abs'⟩ := value_abs hb
  rw [lt_iff_value finite half, abs] at lt
  rw [lt_iff_value finite' half, abs'] at lt'
  have twice : 2 * Double.value gentle = Double.value steepest := by
    rw [value_gentle, value_steepest, mul_left_comm, ← zpow_one_add₀ two_ne_zero]
    rfl
  have range := abs_value_lt bound
  rw [abs_of_pos (by rw [value_steepest]; exact mul_zpow_two_pos (by norm_num) _)] at range
  -- The larger of the two magnitudes is a point of the grid, so twice of it bounds the difference.
  obtain ⟨w, grid, le, le', below⟩ : ∃ w, OnGrid w ∧ |Double.value forward| ≤ w ∧
      |Double.value backward| ≤ w ∧ w < Double.value gentle := by
    rcases le_total |Double.value forward| |Double.value backward| with le | le
    · exact ⟨_, (onGrid_value hb).abs, le, le_refl _, lt'⟩
    · exact ⟨_, (onGrid_value hf).abs, le_refl _, le, lt⟩
  have room : 2 * w < 2 ^ 1024 := by
    rw [← twice] at range
    exact (mul_lt_mul_of_pos_left below two_pos).trans range
  obtain ⟨finite, within⟩ := abs_value_sub_le hf hb grid le le' room
  obtain ⟨finite', abs⟩ := value_abs finite
  rw [lt_iff_value finite' bound, abs]
  linarith

/-- A step along a slope that overflowed does not move. -/
lemma next_of_overflow (hx : x.isFinite = true) (hv : value.isFinite = true)
    (infinite : slope.isFinite = false) (number : slope.isNaN = false) :
    (x - value / slope == x) = true ∧ ∀ tol : Float, (x - value / slope - x).abs < tol ↔ 0.0 < tol := by
  obtain ⟨finite, zero⟩ := value_div_infinite hv infinite number
  obtain ⟨finite', same⟩ := value_sub_of_value_eq_zero hx finite zero
  obtain ⟨finite'', zero'⟩ := value_sub_eq_zero finite' hx same
  exact ⟨(beq_iff_value finite' hx).mpr same, fun tol => abs_lt_iff_of_value_eq_zero finite'' zero'⟩

end Overflow

namespace Newton

variable {f : Float → Except ε Float} {step : Tangent Float}

/-- The two values that the slope of a step is taken from. -/
structure Measured (f : Float → Except ε Float) (step : Tangent Float) (forward backward : Float) :
    Prop where
  ahead : f (step.x + 1e-6) = .ok forward
  behind : f (step.x - 1e-6) = .ok backward
  slope : step.slope = (forward - backward) / (2.0 * 1e-6)

/-- The slope of a step is taken from two values beside its point. -/
lemma measured_of_taken (taken : step.Taken f) : ∃ forward backward, Measured f step forward backward := by
  obtain ⟨forward, ahead, rest⟩ := bind_eq_ok_iff.mp taken.slope
  obtain ⟨backward, behind, rest⟩ := bind_eq_ok_iff.mp rest
  exact ⟨forward, backward, ahead, behind, (Except.ok.inj rest).symm⟩

/-- Where a search stops that takes a step along a slope that overflowed. -/
structure Stuck (tol : Float) (steps : List (Tangent Float)) (result : Result Float)
    (step : Tangent Float) : Prop where
  unmoved : (step.next == step.x) = true
  last : 0.0 < tol → steps.getLast? = some step
  converged : 0.0 < tol → result.converged = true
  root : 0.0 < tol → result.root = some step.next

/-- A search that takes a step along a slope that overflowed stops there. -/
lemma stuck_of_overflow {x tol : Float} {budget : Nat} {steps : List (Tangent Float)}
    {result : Result Float} (coherent : Coherent f x tol budget steps result)
    (finite : ∀ y value, f y = .ok value → value.isFinite = true) (mem : step ∈ steps)
    (infinite : step.slope.isFinite = false) (number : step.slope.isNaN = false) :
    Stuck tol steps result step := by
  have taken := coherent.taken step mem
  have visited : step.x ∈ result.history := by
    obtain ⟨i, h, rfl⟩ := List.getElem_of_mem mem
    exact List.mem_of_getElem? (coherent.point i h)
  obtain ⟨unmoved, stops⟩ :=
    next_of_overflow (coherent.finite step.x visited) (finite _ _ taken.value) infinite number
  have next : step.next = step.x - step.value / step.slope := taken.next
  rw [← next] at unmoved stops
  have last (pos : 0.0 < tol) : steps.getLast? = some step := by
    -- Only the last step meets the stop test.
    have meets : StopTest tol step := (stops tol).mpr pos
    have split := List.dropLast_append_getLast (List.ne_nil_of_mem mem)
    rw [← split] at mem
    rcases List.mem_append.mp mem with earlier | here
    · exact absurd meets (coherent.unstopped step earlier)
    · rw [List.mem_singleton.mp here]
      exact List.getLast?_eq_getLast_of_ne_nil _
  refine ⟨unmoved, last, fun pos => ?_, fun pos => ?_⟩
  · exact coherent.converged_iff_stopTest.mpr ⟨step, last pos, (stops tol).mpr pos⟩
  · obtain ⟨root, found, visited, -⟩ := coherent.root
    rw [coherent.history, List.getLast?_cons, List.getLast?_map, last pos] at visited
    cases visited
    exact found

end Newton

/-- Where the values of a function are finite, a search by Newton's method takes its slopes from two
values each, and a slope overflows exactly if the two differ by the least such difference or more. That
cannot be if all values are below half of it. A step along a slope that overflowed does not move, so
with a positive tolerance the search stops there as if it had found a root. -/
theorem newton_slope_overflow {f : ScalarFunction} {x tol : Float} {budget : Nat}
    {result : Result Float} (finite : ∀ y value, f.value y = .ok value → value.isFinite = true)
    (hx : x.isFinite = true) (ht : 0.0 ≤ tol) (h : (newton f x tol budget).run.result = .ok result) :
    ∃ steps, result.trace = steps.map .tangent ∧
      (∀ step ∈ steps, ∃ forward backward, Newton.Measured f.value step forward backward ∧
        (step.slope.isFinite = true ↔ (forward - backward).abs < steepest)) ∧
      (∀ step ∈ steps, step.slope.isFinite = false → Newton.Stuck tol steps result step) ∧
      ((∀ y value, f.value y = .ok value → value.abs < gentle) →
        ∀ step ∈ steps, step.slope.isFinite = true) := by
  rw [newton_eq budget hx ht, mapError_eq_ok_iff] at h
  obtain ⟨steps, coherent⟩ := Newton.iterate_result_spec hx h
  refine ⟨steps, coherent.trace, ?_, ?_, ?_⟩
  · intro step mem
    obtain ⟨forward, backward, measured⟩ := Newton.measured_of_taken (coherent.taken step mem)
    refine ⟨forward, backward, measured, ?_⟩
    rw [measured.slope]
    exact isFinite_slope_iff
  · intro step mem infinite
    obtain ⟨forward, backward, measured⟩ := Newton.measured_of_taken (coherent.taken step mem)
    refine Newton.stuck_of_overflow coherent finite mem infinite ?_
    rw [measured.slope]
    exact isNaN_slope (finite _ _ measured.ahead) (finite _ _ measured.behind)
  · intro small step mem
    obtain ⟨forward, backward, measured⟩ := Newton.measured_of_taken (coherent.taken step mem)
    rw [measured.slope, isFinite_slope_iff]
    exact abs_sub_lt_steepest (finite _ _ measured.ahead) (finite _ _ measured.behind)
      (small _ _ measured.ahead) (small _ _ measured.behind)

/-- A function given at all points counts as having only finite values. -/
lemma isFinite_of_ofTotal {name : String} {f : Float → Float} {x value : Float}
    (h : (ScalarFunction.ofTotal name f).value x = .ok value) : value.isFinite = true := by
  change (if (f x).isFinite then _ else _) = _ at h
  split at h
  case isTrue finite =>
    cases h
    exact finite
  case isFalse => cases h

/-- The slopes on the way to the root of the parabola do not overflow. -/
theorem newton_parabola_slopes :
    (∀ y value, parabola.value y = .ok value → value.isFinite = true) ∧
      (1.0 : Float).isFinite = true ∧ (0.0 : Float) ≤ 1e-4 ∧
      ∃ result, (newton parabola 1.0 1e-4 10).run.result = .ok result ∧ result.trace.length = 4 ∧
        ∃ steps, result.trace = steps.map .tangent ∧
          (∀ step ∈ steps, ∃ forward backward, Newton.Measured parabola.value step forward backward ∧
            (step.slope.isFinite = true ↔ (forward - backward).abs < steepest)) ∧
          (∀ step ∈ steps, step.slope.isFinite = false → Newton.Stuck 1e-4 steps result step) ∧
          ((∀ y value, parabola.value y = .ok value → value.abs < gentle) →
            ∀ step ∈ steps, step.slope.isFinite = true) := by
  have finite (y value : Float) (h : parabola.value y = .ok value) : value.isFinite = true :=
    isFinite_of_ofTotal h
  have hx : (1.0 : Float).isFinite = true := by decide +kernel
  have ht : (0.0 : Float) ≤ 1e-4 := by decide +kernel
  have evaluated :
      (newton parabola 1.0 1e-4 10).run.result.toOption.map (·.trace.length) = some 4 := by
    decide +kernel
  obtain ⟨result, h, length⟩ := toOption_map_eq_some_iff.mp evaluated
  exact ⟨finite, hx, ht, result, h, length, newton_slope_overflow finite hx ht h⟩

/-- A line through zero with the largest double on top of zero. -/
def spike : ScalarFunction :=
  .ofTotal "spike" fun x => if x.abs < 1e-7 then 1.7976931348623157e308 else 0.5 * x

/-- Next to the spike the slope overflows, and the search takes a point for a root at which the function
is not zero. -/
theorem newton_spike_stuck :
    (∀ y value, spike.value y = .ok value → value.isFinite = true) ∧
      (-1e-6 : Float).isFinite = true ∧ (0.0 : Float) ≤ 1e-4 ∧
      spike.value (-1e-6) = .ok (-5e-7) ∧
      (newton spike (-1e-6) 1e-4 10).run.result =
        .ok { method := .newton, root := some (-1e-6), iterations := 1, converged := true
              trace := [.tangent { iteration := 1, x := -1e-6, value := -5e-7, slope := 1.0 / 0.0,
                                   next := -1e-6 }]
              history := [-1e-6, -1e-6], diagnostic := none } ∧
      (1.0 / 0.0 : Float).isFinite = false := by
  refine ⟨fun y value h => isFinite_of_ofTotal h, ?_⟩
  decide +kernel

end Stepwise.Root
