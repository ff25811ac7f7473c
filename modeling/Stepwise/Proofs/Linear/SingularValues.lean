import Mathlib

/-!
# Bounds on singular values

A linear map stretches the vectors of an orthonormal basis by its singular values. So it stretches no
vector that has no part along the first directions by more than the next singular value, and no vector
that has no part along the last directions by less than the one before them. Two maps on one space have a
common vector of both kinds, and if one map is bounded by the other one on all vectors, its singular
values are bounded in the same way.
-/

namespace Stepwise.Linear

open Module InnerProductSpace

variable {E F G : Type*} [NormedAddCommGroup E] [InnerProductSpace ℝ E] [FiniteDimensional ℝ E]
  [NormedAddCommGroup F] [InnerProductSpace ℝ F] [FiniteDimensional ℝ F]
  [NormedAddCommGroup G] [InnerProductSpace ℝ G] [FiniteDimensional ℝ G]

/-- An orthonormal basis of directions, which a linear map stretches by its singular values. -/
noncomputable def directions (T : E →ₗ[ℝ] F) : OrthonormalBasis (Fin (finrank ℝ E)) ℝ E :=
  T.isSymmetric_adjoint_comp_self.eigenvectorBasis rfl

/-- The part of a vector along a direction of a map. -/
noncomputable def part (T : E →ₗ[ℝ] F) (i : Fin (finrank ℝ E)) : E →ₗ[ℝ] ℝ :=
  innerₛₗ ℝ (directions T i)

variable {S : E →ₗ[ℝ] F} {T : E →ₗ[ℝ] G} {y : E} {k : ℕ} {c d : ℝ}

/-- The part along a direction is the inner product with it. -/
lemma part_apply (T : E →ₗ[ℝ] F) (i : Fin (finrank ℝ E)) (y : E) :
    part T i y = ⟪directions T i, y⟫_ℝ :=
  rfl

/-- A map and its adjoint together stretch the part along a direction by the square of its singular value.
-/
lemma part_adjoint_apply (T : E →ₗ[ℝ] F) (i : Fin (finrank ℝ E)) (y : E) :
    part T i (T.adjoint (T y)) = T.singularValues i ^ 2 * part T i y := by
  rw [T.sq_singularValues_fin rfl, part_apply, part_apply, ← OrthonormalBasis.repr_apply_apply,
    ← OrthonormalBasis.repr_apply_apply]
  exact T.isSymmetric_adjoint_comp_self.eigenvectorBasis_apply_self_apply rfl y i

/-- The squares of the parts add up to the square of the length. -/
lemma sq_norm_eq (T : E →ₗ[ℝ] F) (y : E) : ‖y‖ ^ 2 = ∑ i, part T i y ^ 2 := by
  simp only [part_apply, ← (directions T).sum_sq_norm_inner_right y, Real.norm_eq_abs, sq_abs]

/-- The length of the image of a vector, by the parts of the vector. -/
lemma sq_norm_apply_eq (T : E →ₗ[ℝ] F) (y : E) :
    ‖T y‖ ^ 2 = ∑ i : Fin (finrank ℝ E), T.singularValues i ^ 2 * part T i y ^ 2 := by
  calc ‖T y‖ ^ 2 = ⟪y, T.adjoint (T y)⟫_ℝ := by
        rw [LinearMap.adjoint_inner_right, real_inner_self_eq_norm_sq]
    _ = ∑ i, ⟪y, directions T i⟫_ℝ * part T i (T.adjoint (T y)) :=
        ((directions T).sum_inner_mul_inner _ _).symm
    _ = ∑ i : Fin (finrank ℝ E), T.singularValues i ^ 2 * part T i y ^ 2 := by
        refine Finset.sum_congr rfl fun i _ => ?_
        rw [part_adjoint_apply, real_inner_comm, ← part_apply]
        ring

/-- A vector with no part along the first directions is stretched by at most the next singular value. -/
lemma norm_apply_le (none : ∀ i : Fin (finrank ℝ E), i < k → part T i y = 0) :
    ‖T y‖ ≤ T.singularValues k * ‖y‖ := by
  refine le_of_sq_le_sq ?_ (mul_nonneg (T.singularValues_nonneg k) (norm_nonneg y))
  rw [mul_pow, sq_norm_apply_eq, sq_norm_eq T, Finset.mul_sum]
  refine Finset.sum_le_sum fun i _ => ?_
  rcases lt_or_ge i.val k with before | behind
  · rw [none i before, zero_pow two_ne_zero, mul_zero, mul_zero]
  · have le := pow_le_pow_left₀ (T.singularValues_nonneg i) (T.singularValues_antitone behind) 2
    exact mul_le_mul_of_nonneg_right le (sq_nonneg _)

/-- A vector with no part along the last directions is stretched by at least the singular value before
them. -/
lemma le_norm_apply (none : ∀ i : Fin (finrank ℝ E), k < i → part T i y = 0) :
    T.singularValues k * ‖y‖ ≤ ‖T y‖ := by
  refine le_of_sq_le_sq ?_ (norm_nonneg _)
  rw [mul_pow, sq_norm_apply_eq, sq_norm_eq T, Finset.mul_sum]
  refine Finset.sum_le_sum fun i _ => ?_
  rcases le_or_gt i.val k with before | behind
  · have le := pow_le_pow_left₀ (T.singularValues_nonneg k) (T.singularValues_antitone before) 2
    exact mul_le_mul_of_nonneg_right le (sq_nonneg _)
  · rw [none i behind, zero_pow two_ne_zero, mul_zero, mul_zero]

/-- Some vector has no part along the last directions of one map and none along the first ones of another
map: together these are fewer conditions than there are dimensions. -/
lemma exists_between (S : E →ₗ[ℝ] F) (T : E →ₗ[ℝ] G) (lt : k < finrank ℝ E) :
    ∃ y ≠ 0, (∀ i : Fin (finrank ℝ E), k < i → part S i y = 0) ∧
      ∀ i : Fin (finrank ℝ E), i < k → part T i y = 0 := by
  let parts : E →ₗ[ℝ] {i : Fin (finrank ℝ E) // i ≠ ⟨k, lt⟩} → ℝ :=
    LinearMap.pi fun i => if k < i.val then part S i else part T i
  have fewer : finrank ℝ ({i : Fin (finrank ℝ E) // i ≠ ⟨k, lt⟩} → ℝ) < finrank ℝ E := by
    rw [finrank_fintype_fun_eq_card, Fintype.card_subtype_compl, Fintype.card_subtype_eq,
      Fintype.card_fin]
    exact Nat.sub_lt (Nat.zero_lt_of_lt lt) one_pos
  obtain ⟨y, zero, ne⟩ :=
    Submodule.exists_mem_ne_zero_of_ne_bot (parts.ker_ne_bot_of_finrank_lt fewer)
  have none (i : Fin (finrank ℝ E)) (other : i ≠ ⟨k, lt⟩) :
      (if k < i.val then part S i else part T i) y = 0 :=
    congrFun (LinearMap.mem_ker.mp zero) ⟨i, other⟩
  refine ⟨y, ne, fun i behind => ?_, fun i before => ?_⟩
  · have other := none i (Fin.ne_of_val_ne behind.ne')
    rwa [if_pos behind] at other
  · have other := none i (Fin.ne_of_val_ne before.ne)
    rwa [if_neg before.not_gt] at other

/-- If one map is bounded by another one, its singular values are bounded in the same way. -/
theorem singularValues_le (nonneg : 0 ≤ c) (bounded : ∀ y, ‖S y‖ ≤ c * ‖T y‖ + d * ‖y‖)
    (lt : k < finrank ℝ E) : S.singularValues k ≤ c * T.singularValues k + d := by
  obtain ⟨y, ne, last, first⟩ := exists_between S T lt
  refine le_of_mul_le_mul_right ?_ (norm_pos_iff.mpr ne)
  calc S.singularValues k * ‖y‖ ≤ ‖S y‖ := le_norm_apply last
    _ ≤ c * ‖T y‖ + d * ‖y‖ := bounded y
    _ ≤ c * (T.singularValues k * ‖y‖) + d * ‖y‖ := by
        gcongr
        exact norm_apply_le first
    _ = (c * T.singularValues k + d) * ‖y‖ := by ring

/-- The first singular value is the most by which a vector is stretched. -/
lemma singularValues_zero_eq (bounded : ∀ y, ‖T y‖ ≤ c * ‖y‖) (ne : y ≠ 0)
    (reached : ‖T y‖ = c * ‖y‖) : T.singularValues 0 = c := by
  obtain ⟨z, ne', last, -⟩ := exists_between T T (finrank_pos_iff_exists_ne_zero.mpr ⟨y, ne⟩)
  apply le_antisymm
  · exact le_of_mul_le_mul_right ((le_norm_apply last).trans (bounded z)) (norm_pos_iff.mpr ne')
  · exact le_of_mul_le_mul_right (reached.symm.le.trans (norm_apply_le fun i => nofun))
      (norm_pos_iff.mpr ne)

/-- The last singular value is the least by which a vector is stretched. -/
lemma singularValues_last_eq (bounded : ∀ y, c * ‖y‖ ≤ ‖T y‖) (ne : y ≠ 0)
    (reached : ‖T y‖ = c * ‖y‖) (last : k + 1 = finrank ℝ E) : T.singularValues k = c := by
  obtain ⟨z, ne', -, first⟩ := exists_between T T (k.lt_succ_self.trans_eq last)
  apply le_antisymm
  · refine le_of_mul_le_mul_right ((le_norm_apply fun i behind => ?_).trans reached.le)
      (norm_pos_iff.mpr ne)
    omega
  · exact le_of_mul_le_mul_right ((bounded z).trans (norm_apply_le first)) (norm_pos_iff.mpr ne')

end Stepwise.Linear
