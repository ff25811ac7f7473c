import Stepwise.Linear.Diagnostics
import Stepwise.Proofs.Double.Value
import Stepwise.Proofs.Linear.Residuals
import Stepwise.Proofs.Linear.SingularValues
import Stepwise.Proofs.Linear.Trace

/-!
# The verdict on a solved system

Whether a system has a solution is decided by how many singular values are above a bound, for the
coefficients and for all entries. A point that is close to a solution ties the singular values of all
entries to those of the coefficients, from both sides. So a solved system is found to have no solution
only if a singular value of its coefficients is small but not far below the bound, and this does happen.
-/

namespace Stepwise.Linear

open Double (value)
open InnerProductSpace

/-- The singular values of a matrix with at most as many rows as columns, from the largest one on. -/
noncomputable def singularValue {n m : ℕ} (M : Matrix (Fin n) (Fin m) ℝ) (k : ℕ) : ℝ :=
  M.transpose.toEuclideanLin.singularValues k

/-- Computed numbers are, in some order, the singular values of a matrix up to an error. -/
def Accurate {n m : ℕ} (error : ℝ) (computed : List Float) (M : Matrix (Fin n) (Fin m) ℝ) : Prop :=
  ∃ values : Fin n → Float, computed.Perm ((List.finRange n).map values) ∧
    ∀ k, (values k).isFinite = true ∧ |(value (values k) : ℝ) - singularValue M k| ≤ error

/-- The point with some doubles as coordinates. -/
noncomputable def point {n : ℕ} (x : Vector Float n) : EuclideanSpace ℝ (Fin n) :=
  WithLp.toLp 2 fun i => (value (x.get i) : ℝ)

/-- A bound for the square of a length one of whose two parts is bounded by the other. -/
lemma sq_add_sq_le {a p q r : ℝ} (ha : 0 ≤ a) (hq : 0 ≤ q) (le : |r| ≤ p * a + q) :
    a ^ 2 + r ^ 2 ≤ (√(1 + p ^ 2) * a + q) ^ 2 := by
  have square : √(1 + p ^ 2) ^ 2 = 1 + p ^ 2 := Real.sq_sqrt (by positivity)
  have root : p ≤ √(1 + p ^ 2) := Real.le_sqrt_of_sq_le (le_add_of_nonneg_left zero_le_one)
  calc a ^ 2 + r ^ 2 ≤ a ^ 2 + (p * a + q) ^ 2 :=
        add_le_add le_rfl (sq_le_sq' (neg_le_of_abs_le le) (le_of_abs_le le))
    _ = (1 + p ^ 2) * a ^ 2 + 2 * (p * (a * q)) + q ^ 2 := by ring
    _ ≤ (1 + p ^ 2) * a ^ 2 + 2 * (√(1 + p ^ 2) * (a * q)) + q ^ 2 := by gcongr
    _ = (√(1 + p ^ 2) * a + q) ^ 2 := by
        rw [add_sq, mul_pow, square]
        ring

namespace Equations

variable {n : ℕ} (system : Equations Float n)

/-- The coefficients of a system as real numbers. -/
noncomputable def realCoefficients : Matrix (Fin n) (Fin n) ℝ :=
  Matrix.of fun i j => (value (system.coefficient i j) : ℝ)

/-- The right sides of a system as real numbers. -/
noncomputable def realRightSides : EuclideanSpace ℝ (Fin n) :=
  WithLp.toLp 2 fun i => (value (system.rightSide i) : ℝ)

/-- All entries of a system as real numbers. -/
noncomputable def realEntries : Matrix (Fin n) (Fin (n + 1)) ℝ :=
  Matrix.of fun i j => (value (system.entry i j) : ℝ)

/-- How far the two sides of the equations are from each other at a point. -/
noncomputable def gap (x : EuclideanSpace ℝ (Fin n)) : ℝ :=
  ‖system.realCoefficients.toEuclideanLin x - system.realRightSides‖

/-- A combination of the equations has a combination of the coefficients and one of the right sides. -/
lemma sq_norm_combination (y : EuclideanSpace ℝ (Fin n)) :
    ‖system.realEntries.transpose.toEuclideanLin y‖ ^ 2 =
      ‖system.realCoefficients.transpose.toEuclideanLin y‖ ^ 2 + ⟪system.realRightSides, y⟫_ℝ ^ 2 := by
  have right : system.realEntries.transpose.toEuclideanLin y (Fin.last n) =
      ⟪system.realRightSides, y⟫_ℝ := by
    rw [EuclideanSpace.inner_eq_star_dotProduct, dotProduct_comm]
    rfl
  rw [EuclideanSpace.real_norm_sq_eq, EuclideanSpace.real_norm_sq_eq, Fin.sum_univ_castSucc, right]
  rfl

/-- The coefficients can be moved to the other side of an inner product by transposing them. -/
lemma inner_apply (x y : EuclideanSpace ℝ (Fin n)) :
    ⟪system.realCoefficients.toEuclideanLin x, y⟫_ℝ =
      ⟪x, system.realCoefficients.transpose.toEuclideanLin y⟫_ℝ := by
  rw [← Matrix.conjTranspose_eq_transpose_of_trivial, Matrix.toEuclideanLin_conjTranspose_eq_adjoint,
    LinearMap.adjoint_inner_right]

/-- The right sides in a combination of the equations, by a point and how far it is from a solution. -/
lemma abs_inner_le (x y : EuclideanSpace ℝ (Fin n)) :
    |⟪system.realRightSides, y⟫_ℝ| ≤
      ‖x‖ * ‖system.realCoefficients.transpose.toEuclideanLin y‖ + system.gap x * ‖y‖ := by
  have split : ⟪system.realRightSides, y⟫_ℝ =
      ⟪x, system.realCoefficients.transpose.toEuclideanLin y⟫_ℝ -
        ⟪system.realCoefficients.toEuclideanLin x - system.realRightSides, y⟫_ℝ := by
    rw [inner_sub_left, inner_apply, sub_sub_cancel]
  rw [split]
  exact (abs_sub _ _).trans (add_le_add (abs_real_inner_le_norm _ _) (abs_real_inner_le_norm _ _))

/-- The right sides do not make a singular value smaller. -/
lemma singularValue_le {k : ℕ} (lt : k < n) :
    singularValue system.realCoefficients k ≤ singularValue system.realEntries k := by
  have bounded (y : EuclideanSpace ℝ (Fin n)) :
      ‖system.realCoefficients.transpose.toEuclideanLin y‖ ≤
        1 * ‖system.realEntries.transpose.toEuclideanLin y‖ + 0 * ‖y‖ := by
    rw [one_mul, zero_mul, add_zero]
    refine le_of_sq_le_sq ?_ (norm_nonneg _)
    rw [sq_norm_combination]
    exact le_add_of_nonneg_right (sq_nonneg _)
  refine (singularValues_le zero_le_one bounded ?_).trans_eq (by rw [one_mul, add_zero]; rfl)
  rwa [finrank_euclideanSpace_fin]

/-- Near a solution, the right sides do not make a singular value much larger. -/
lemma singularValue_entries_le (x : EuclideanSpace ℝ (Fin n)) {k : ℕ} (lt : k < n) :
    singularValue system.realEntries k ≤
      √(1 + ‖x‖ ^ 2) * singularValue system.realCoefficients k + system.gap x := by
  have bounded (y : EuclideanSpace ℝ (Fin n)) :
      ‖system.realEntries.transpose.toEuclideanLin y‖ ≤
        √(1 + ‖x‖ ^ 2) * ‖system.realCoefficients.transpose.toEuclideanLin y‖ +
          system.gap x * ‖y‖ := by
    have gap : 0 ≤ system.gap x * ‖y‖ := mul_nonneg (norm_nonneg _) (norm_nonneg y)
    refine le_of_sq_le_sq ?_ (by positivity)
    rw [sq_norm_combination]
    exact sq_add_sq_le (norm_nonneg _) gap (system.abs_inner_le x y)
  refine singularValues_le (Real.sqrt_nonneg _) bounded ?_
  rwa [finrank_euclideanSpace_fin]

end Equations

/-- The singular values do not grow. -/
lemma singularValue_antitone {n m : ℕ} (M : Matrix (Fin n) (Fin m) ℝ) : Antitone (singularValue M) :=
  M.transpose.toEuclideanLin.singularValues_antitone

section Counting

variable {n : ℕ} {values : Fin n → Float} {computed computed' : List Float} {x : Float} {σ error : ℝ}

/-- The bound for the rank is finite. -/
lemma isFinite_rankBound : rankBound.isFinite = true := by
  decide +kernel

/-- A number that counts for the rank stands for a singular value that is not far below the bound. -/
lemma lt_of_rankBound_lt (close : x.isFinite = true ∧ |(value x : ℝ) - σ| ≤ error)
    (lt : rankBound < x) : (value rankBound : ℝ) - error < σ := by
  have lt' : (value rankBound : ℝ) < value x :=
    Rat.cast_lt.mpr ((Double.lt_iff_value isFinite_rankBound close.1).mp lt)
  linarith [le_of_abs_le close.2]

/-- A number that does not count for the rank stands for a singular value that is not far above the
bound. -/
lemma le_of_not_rankBound_lt (close : x.isFinite = true ∧ |(value x : ℝ) - σ| ≤ error)
    (not_lt : ¬ rankBound < x) : σ ≤ value rankBound + error := by
  have le : (value x : ℝ) ≤ value rankBound := by
    rw [Double.lt_iff_value isFinite_rankBound close.1] at not_lt
    exact Rat.cast_le.mpr (le_of_not_gt not_lt)
  linarith [neg_le_of_abs_le close.2]

/-- The places at which a number counts for the rank. -/
def counted (values : Fin n → Float) : Finset (Fin n) :=
  {k | rankBound < values k}

/-- A place counts exactly if its number is above the bound for the rank. -/
lemma mem_counted {k : Fin n} : k ∈ counted values ↔ rankBound < values k := by
  rw [counted, Finset.mem_filter, and_iff_right (Finset.mem_univ k)]

/-- How many numbers are above the bound does not depend on their order. -/
lemma countP_eq_card (perm : computed.Perm ((List.finRange n).map values)) :
    (computed.countP fun value => rankBound < value) = (counted values).card := by
  rw [perm.countP_eq, List.countP_map, counted, ← List.toFinset_finRange]
  exact ((List.nodup_finRange n).card_eq_countP).symm

variable {system : Equations Float n}

/-- If different numbers of singular values count for the ranks, two singular values at the same place
are on different sides of the bound, up to the error. -/
lemma exists_of_countP_ne (accurate : Accurate error computed system.realCoefficients)
    (accurate' : Accurate error computed' system.realEntries)
    (ne : (computed.countP fun value => rankBound < value) ≠
      computed'.countP fun value => rankBound < value) :
    ∃ k < n, singularValue system.realCoefficients k ≤ value rankBound + error ∧
      value rankBound - error < singularValue system.realEntries k := by
  obtain ⟨values, perm, close⟩ := accurate
  obtain ⟨values', perm', close'⟩ := accurate'
  rw [countP_eq_card perm, countP_eq_card perm'] at ne
  obtain ⟨k, differ⟩ : ∃ k, ¬ (k ∈ counted values ↔ k ∈ counted values') := by
    by_contra! same
    exact ne (congrArg Finset.card (Finset.ext same))
  rw [mem_counted, mem_counted] at differ
  have le := system.singularValue_le k.isLt
  refine ⟨k, k.isLt, ?_⟩
  by_cases above : rankBound < values k
  case pos =>
    have below : ¬ rankBound < values' k := fun above' => differ (iff_of_true above above')
    exact ⟨le.trans (le_of_not_rankBound_lt (close' k) below),
      (lt_of_rankBound_lt (close k) above).trans_le le⟩
  case neg =>
    have above' : rankBound < values' k := by
      by_contra below
      exact differ (iff_of_false above below)
    exact ⟨le_of_not_rankBound_lt (close k) above,
      lt_of_rankBound_lt (close' k) above'⟩

/-- If two singular values at the same place are clearly on different sides of the bound, fewer singular
values of the coefficients count for the rank. -/
lemma countP_lt (accurate : Accurate error computed system.realCoefficients)
    (accurate' : Accurate error computed' system.realEntries) {k : ℕ} (lt : k < n)
    (below : singularValue system.realCoefficients k ≤ value rankBound - error)
    (above : value rankBound + error < singularValue system.realEntries k) :
    (computed.countP fun value => rankBound < value) <
      computed'.countP fun value => rankBound < value := by
  obtain ⟨values, perm, close⟩ := accurate
  obtain ⟨values', perm', close'⟩ := accurate'
  rw [countP_eq_card perm, countP_eq_card perm']
  -- the places up to `k` are counted for all entries, and no place from `k` on is for the coefficients
  have counted_lt (i : Fin n) (mem : i ∈ counted values) : i.val < k := by
    by_contra! behind
    have := lt_of_rankBound_lt (close i) (mem_counted.mp mem)
    linarith [singularValue_antitone system.realCoefficients behind]
  have mem_of_le (i : Fin n) (before : i.val ≤ k) : i ∈ counted values' := by
    by_contra below
    have := le_of_not_rankBound_lt (close' i) (mt mem_counted.mpr below)
    linarith [singularValue_antitone system.realEntries before]
  have subset : counted values ⊆ counted values' := fun i mem => mem_of_le i (counted_lt i mem).le
  refine Finset.card_lt_card ((Finset.ssubset_iff_of_subset subset).mpr ⟨⟨k, lt⟩, ?_, fun mem => ?_⟩)
  · exact mem_of_le ⟨k, lt⟩ le_rfl
  · exact (counted_lt ⟨k, lt⟩ mem).false

end Counting

/-- A system that is accepted gets a verdict: do as many singular values count for the coefficients as
for all entries? -/
lemma hasSolutionBy_eq_ok_iff {values : List (List Float) → List Float} {rows : List (List Float)}
    {verdict : Bool} :
    (hasSolutionBy values rows).run.result = .ok verdict ↔
      ∃ system, Equations.ofRows rows = .ok system ∧
        (rank values system.coefficients == rank values system.rows) = verdict := by
  have e : (hasSolutionBy values rows).run.result = Equations.ofRows rows >>= fun system =>
      .ok (rank values system.coefficients == rank values system.rows) := by
    unfold hasSolutionBy
    rw [run_result_lift]
    refine congrArg _ (funext fun system => ?_)
    dsimp only
    generalize rank values system.coefficients = first
    generalize rank values system.rows = second
    cases (first == second) <;> rfl
  rw [e, bind_eq_ok_iff]
  simp only [Except.ok.injEq]

/-- The entries of a system that is accepted are those of its rows. -/
lemma Equations.entry_of_ofRows {rows : List (List Float)} {system : Equations Float rows.length}
    (accepted : Equations.ofRows rows = .ok system) (i : Fin rows.length) (j : Fin (rows.length + 1)) :
    system.entry i j = (rows.get i).getD j 0.0 := by
  rw [ofRows, exists_ofRows_iff.mp ⟨system, accepted⟩] at accepted
  cases accepted
  rw [entry_eq_getElem, Vector.getElem_ofFn, Vector.getElem_ofFn]
  rfl

section Sheared

/-- Two equations in two unknowns, at some scale. -/
def sheared (t : Float) : List (List Float) :=
  [[t, 1.5 * t, 0.75 * t], [0, t, -1.5 * t]]

/-- The sheared equations stand for exact equations at some scale. -/
structure Scaled (t : Float) (τ : ℚ) : Prop where
  nonneg : 0 ≤ τ
  rows : ((sheared t).map fun row => row.map value) =
    [[τ, 3 / 2 * τ, 3 / 4 * τ], [0, τ, -(3 / 2 * τ)]]

variable {t : Float} {τ : ℚ} {system : Equations Float 2}

/-- The entries of the sheared equations as real numbers. -/
lemma realEntries_sheared (accepted : Equations.ofRows (sheared t) = .ok system)
    (scaled : Scaled t τ) :
    system.realEntries = !![(τ : ℝ), 3 / 2 * τ, 3 / 4 * τ; 0, τ, -(3 / 2 * τ)] := by
  have entry (i : Fin 2) (j : Fin 3) : system.entry i j = ((sheared t).get i).getD j 0.0 :=
    Equations.entry_of_ofRows accepted i j
  have rows := scaled.rows
  simp only [sheared, List.map_cons, List.map_nil, List.cons.injEq, and_true] at rows
  obtain ⟨⟨a, b, c⟩, d, e, f⟩ := rows
  ext i j
  rw [Equations.realEntries, Matrix.of_apply, entry]
  fin_cases i <;> fin_cases j <;> simp [sheared, *]

/-- The coefficients of the sheared equations as real numbers. -/
lemma realCoefficients_sheared (accepted : Equations.ofRows (sheared t) = .ok system)
    (scaled : Scaled t τ) :
    system.realCoefficients = !![(τ : ℝ), 3 / 2 * τ; 0, τ] := by
  ext i j
  change system.realEntries i j.castSucc = _
  rw [realEntries_sheared accepted scaled]
  fin_cases i <;> fin_cases j <;> rfl

/-- The singular values of a matrix that stretches along (2, 1) and (1, -2). -/
lemma singularValue_of_axes {m : ℕ} {M : Matrix (Fin 2) (Fin m) ℝ} {most least : ℝ} (nonneg : 0 ≤ least)
    (le : least ≤ most)
    (axes : ∀ y, 5 * ‖M.transpose.toEuclideanLin y‖ ^ 2 =
      most ^ 2 * (2 * y 0 + y 1) ^ 2 + least ^ 2 * (y 0 - 2 * y 1) ^ 2) :
    singularValue M 0 = most ∧ singularValue M 1 = least := by
  have scaled (c : ℝ) (y : EuclideanSpace ℝ (Fin 2)) :
      5 * (c * ‖y‖) ^ 2 = c ^ 2 * (2 * y 0 + y 1) ^ 2 + c ^ 2 * (y 0 - 2 * y 1) ^ 2 := by
    rw [mul_pow, EuclideanSpace.real_norm_sq_eq, Fin.sum_univ_two]
    ring
  have most_nonneg : 0 ≤ most := nonneg.trans le
  have squares : least ^ 2 ≤ most ^ 2 := pow_le_pow_left₀ nonneg le 2
  obtain ⟨y, ne, along⟩ : ∃ y : EuclideanSpace ℝ (Fin 2), y ≠ 0 ∧ y 0 - 2 * y 1 = 0 :=
    ⟨!₂[2, 1], fun zero => two_ne_zero (congrFun (congrArg WithLp.ofLp zero) 0), by simp⟩
  obtain ⟨z, ne', across⟩ : ∃ z : EuclideanSpace ℝ (Fin 2), z ≠ 0 ∧ 2 * z 0 + z 1 = 0 :=
    ⟨!₂[1, -2], fun zero => one_ne_zero (congrFun (congrArg WithLp.ofLp zero) 0), by simp⟩
  constructor
  · refine singularValues_zero_eq (y := y) (fun v => le_of_sq_le_sq ?_ (by positivity)) ne ?_
    · have less := mul_le_mul_of_nonneg_right squares (sq_nonneg (v 0 - 2 * v 1))
      linarith [axes v, scaled most v]
    · rw [← sq_eq_sq₀ (norm_nonneg _) (by positivity), ← mul_right_inj' (by norm_num : (5 : ℝ) ≠ 0),
        axes, scaled, along]
      ring
  · refine singularValues_last_eq (y := z) (fun v => le_of_sq_le_sq ?_ (norm_nonneg _)) ne' ?_ ?_
    · have less := mul_le_mul_of_nonneg_right squares (sq_nonneg (2 * v 0 + v 1))
      linarith [axes v, scaled least v]
    · rw [← sq_eq_sq₀ (norm_nonneg _) (by positivity), ← mul_right_inj' (by norm_num : (5 : ℝ) ≠ 0),
        axes, scaled, across]
      ring
    · rw [finrank_euclideanSpace_fin]

/-- The coefficients of the sheared equations stretch by twice the scale and by half of it. -/
lemma singularValue_coefficients (accepted : Equations.ofRows (sheared t) = .ok system)
    (scaled : Scaled t τ) :
    singularValue system.realCoefficients 0 = (2 * τ : ℚ) ∧
      singularValue system.realCoefficients 1 = (1 / 2 * τ : ℚ) := by
  have nonneg : (0 : ℝ) ≤ τ := Rat.cast_nonneg.mpr scaled.nonneg
  rw [realCoefficients_sheared accepted scaled]
  push_cast
  refine singularValue_of_axes (by positivity) (by linarith) fun y => ?_
  rw [EuclideanSpace.real_norm_sq_eq, Fin.sum_univ_two]
  simp [Matrix.toLpLin_apply]
  ring

/-- All entries of the sheared equations stretch by twice the scale and by seven quarters of it. -/
lemma singularValue_entries (accepted : Equations.ofRows (sheared t) = .ok system)
    (scaled : Scaled t τ) :
    singularValue system.realEntries 0 = (2 * τ : ℚ) ∧
      singularValue system.realEntries 1 = (7 / 4 * τ : ℚ) := by
  have nonneg : (0 : ℝ) ≤ τ := Rat.cast_nonneg.mpr scaled.nonneg
  rw [realEntries_sheared accepted scaled]
  push_cast
  refine singularValue_of_axes (by positivity) (by linarith) fun y => ?_
  rw [EuclideanSpace.real_norm_sq_eq, Fin.sum_univ_three]
  simp [Matrix.toLpLin_apply, Matrix.mulVec, dotProduct, Fin.sum_univ_two]
  ring

/-- Two numbers that are close to the two singular values of a matrix are accurate. -/
lemma accurate_pair {m : ℕ} {M : Matrix (Fin 2) (Fin m) ℝ} {a b : Float} {most least error : ℚ}
    (found : singularValue M 0 = most ∧ singularValue M 1 = least)
    (close : (a.isFinite = true ∧ |value a - most| ≤ error) ∧
      (b.isFinite = true ∧ |value b - least| ≤ error)) : Accurate error [a, b] M := by
  refine ⟨![a, b], .refl _, fun k => ?_⟩
  fin_cases k
  · refine ⟨close.1.1, ?_⟩
    rw [show singularValue M _ = most from found.1]
    exact_mod_cast close.1.2
  · refine ⟨close.2.1, ?_⟩
    rw [show singularValue M _ = least from found.2]
    exact_mod_cast close.2.2

/-- Rotations find the singular values of the sheared equations, up to an error. -/
lemma accurate_sheared {a b c d : Float} {error : ℚ}
    (accepted : Equations.ofRows (sheared t) = .ok system) (scaled : Scaled t τ)
    (coefficients : singularValues ((sheared t).map (·.take 2)) = [a, b])
    (entries : singularValues (sheared t) = [c, d])
    (close : (a.isFinite = true ∧ |value a - 2 * τ| ≤ error) ∧
      (b.isFinite = true ∧ |value b - 1 / 2 * τ| ≤ error))
    (close' : (c.isFinite = true ∧ |value c - 2 * τ| ≤ error) ∧
      (d.isFinite = true ∧ |value d - 7 / 4 * τ| ≤ error)) :
    Accurate error (singularValues system.coefficients) system.realCoefficients ∧
      Accurate error (singularValues system.rows) system.realEntries := by
  have rows : system.rows = sheared t := Equations.rows_of_ofRows accepted
  rw [Equations.coefficients, rows, coefficients, entries]
  exact ⟨accurate_pair (singularValue_coefficients accepted scaled) close,
    accurate_pair (singularValue_entries accepted scaled) close'⟩

end Sheared

namespace Solver

variable {solver : Solver Float} {values : List (List Float) → List Float} {error : ℝ}

/-- A solved system gets a verdict. If singular values are computed up to an error, the verdict is that it
has no solution only if a singular value of the coefficients is not above the bound, and the one of all
entries at the same place is, up to this error. The point that the solver found shows that the former is
then not far below the bound. Conversely, the verdict is that there is no solution if the bound clearly
separates two singular values at the same place. So there is a solution by the verdict if all singular
values of the coefficients are clearly above the bound. -/
theorem solveRows_hasSolution {rows : List (List Float)} {system : Equations Float rows.length}
    {result : SolveResult Float rows.length}
    (h : (solver.solveRows rows).run.result = .ok result) (solved : result.status = .solved)
    (accepted : Equations.ofRows rows = .ok system)
    (accurate : Accurate error (values system.coefficients) system.realCoefficients)
    (accurate' : Accurate error (values system.rows) system.realEntries) :
    ∃ x verdict, result.solution = some x ∧ (∀ component ∈ x.toList, component.isFinite = true) ∧
      (hasSolutionBy values rows).run.result = .ok verdict ∧
      (verdict = false → ∃ k < rows.length,
        singularValue system.realCoefficients k ≤ value rankBound + error ∧
        value rankBound - error < singularValue system.realEntries k ∧
        singularValue system.realEntries k ≤ √(1 + ‖point x‖ ^ 2) *
          singularValue system.realCoefficients k + system.gap (point x)) ∧
      (∀ k < rows.length, singularValue system.realCoefficients k ≤ value rankBound - error →
        value rankBound + error < singularValue system.realEntries k → verdict = false) ∧
      ((∀ k < rows.length, value rankBound + error < singularValue system.realCoefficients k) →
        verdict = true) := by
  obtain ⟨system', accepted', rfl⟩ := solveRows_eq_ok_iff.mp h
  cases accepted.symm.trans accepted'
  obtain ⟨x, ending⟩ := Run.status_eq_solved_iff.mp solved
  -- If the ranks differ, a singular value counts for all entries that does not for the coefficients.
  have contradiction (equal : (rank values system.coefficients == rank values system.rows) = false) :=
    exists_of_countP_ne accurate accurate' (beq_eq_false_iff_ne.mp equal)
  refine ⟨x, _, Run.result_solution ending, isFinite_of_run ending,
    hasSolutionBy_eq_ok_iff.mpr ⟨system, accepted, rfl⟩, fun equal => ?_, fun k lt below above => ?_,
    fun above => ?_⟩
  · obtain ⟨k, lt, below, above⟩ := contradiction equal
    exact ⟨k, lt, below, above, system.singularValue_entries_le (point x) lt⟩
  · exact beq_eq_false_iff_ne.mpr (countP_lt accurate accurate' lt below above).ne
  · rw [← Bool.not_eq_false]
    intro equal
    obtain ⟨k, lt, below, -⟩ := contradiction equal
    exact absurd below (above k lt).not_ge

/-- The sheared equations at scale one are solved, and there is a solution by the verdict. -/
theorem solveRows_sheared_hasSolution :
    ∃ system result, ((usual true).solveRows (sheared 1)).run.result = .ok result ∧
      result.status = .solved ∧ Equations.ofRows (sheared 1) = .ok system ∧
      Accurate (1 / 10 ^ 15) (singularValues system.coefficients) system.realCoefficients ∧
      Accurate (1 / 10 ^ 15) (singularValues system.rows) system.realEntries ∧
      (hasSolutionBy singularValues (sheared 1)).run.result = .ok true := by
  obtain ⟨result, h, solved⟩ : ∃ result, ((usual true).solveRows (sheared 1)).run.result = .ok result ∧
      result.status = .solved := toOption_map_eq_some_iff.mp (by decide +kernel)
  obtain ⟨system, accepted, -⟩ := solveRows_eq_ok_iff.mp h
  have scaled : Scaled 1 1 := ⟨zero_le_one, by decide +kernel⟩
  obtain ⟨accurate, accurate'⟩ := @accurate_sheared 1 1 system 2 0.4999999999999999 2
    1.7499999999999998 (1 / 10 ^ 15) accepted scaled (by decide +kernel) (by decide +kernel)
    (by decide +kernel) (by decide +kernel)
  push_cast at accurate accurate'
  obtain ⟨x, verdict, -, -, found, -, -, solvable⟩ :=
    solveRows_hasSolution h solved accepted accurate accurate'
  obtain rfl : verdict = true := by
    have bound : (value rankBound : ℝ) ≤ (1 / 10 ^ 9 : ℚ) := Rat.cast_le.mpr (by decide +kernel)
    obtain ⟨most, least⟩ := @singularValue_coefficients 1 1 system accepted scaled
    push_cast at bound most least
    refine solvable fun k lt => ?_
    obtain rfl | rfl : k = 0 ∨ k = 1 := by
      change k < 2 at lt
      omega
    · exact lt_of_lt_of_eq (by linarith) most.symm
    · exact lt_of_lt_of_eq (by linarith) least.symm
  exact ⟨system, result, h, solved, accepted, accurate, accurate', found⟩

/-- Two equations at a tiny scale, with coefficients that are far from singular. -/
def tiny : List (List Float) :=
  sheared 1.1641532182693481e-10

/-- Not every system that is solved has a solution by the verdict, even if singular values are computed
up to a tiny error. -/
theorem not_all_solved_have_solutions :
    ¬ ∀ (pivoting : Bool) (values : List (List Float) → List Float) (rows : List (List Float))
      (system : Equations Float rows.length) (result : SolveResult Float rows.length),
      ((usual pivoting).solveRows rows).run.result = .ok result → result.status = .solved →
        Equations.ofRows rows = .ok system →
        Accurate (1 / 10 ^ 20) (values system.coefficients) system.realCoefficients →
        Accurate (1 / 10 ^ 20) (values system.rows) system.realEntries →
          (hasSolutionBy values rows).run.result = .ok true := by
  intro agree
  obtain ⟨result, h, solved⟩ : ∃ result, ((usual true).solveRows tiny).run.result = .ok result ∧
      result.status = .solved := toOption_map_eq_some_iff.mp (by decide +kernel)
  obtain ⟨system, accepted, -⟩ := solveRows_eq_ok_iff.mp h
  have scaled : Scaled 1.1641532182693481e-10 (1 / 2 ^ 33) := ⟨by positivity, by decide +kernel⟩
  obtain ⟨accurate, accurate'⟩ := @accurate_sheared 1.1641532182693481e-10 (1 / 2 ^ 33) system
    2.3283064365386963e-10 5.8207660913467394e-11 2.3283064365386963e-10 2.037268131971359e-10
    (1 / 10 ^ 20) accepted scaled (by decide +kernel) (by decide +kernel) (by decide +kernel)
    (by decide +kernel)
  push_cast at accurate accurate'
  have solvable := agree true singularValues tiny system result h solved accepted accurate accurate'
  obtain ⟨verdict, unsolvable, none⟩ : ∃ verdict,
      (hasSolutionBy singularValues tiny).run.result = .ok verdict ∧ verdict = false :=
    toOption_map_eq_some_iff.mp (by decide +kernel)
  cases solvable.symm.trans unsolvable
  cases none

end Solver

end Stepwise.Linear
