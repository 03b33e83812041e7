import Mathlib.Analysis.Real.Sqrt
import Mathlib.Data.Matrix.Mul
import Mathlib.Tactic.NormNum

/-!
# Cosine similarity

The helpers for vectors in memory, in exact arithmetic. Both keep a division by zero away with the
same bound on the product of the norms: below it `cosine_similarity` gives zero, and
`cosine_similarity_matrix` divides by the bound. Neither leaves `[-1, 1]`
(`abs_cosineSimilarity_le_one`, `abs_cosineSimilarityMatrix_le_one`), but below the bound they agree
on orthogonal vectors only.
-/

namespace FaceRecognition.Recognition

noncomputable section

variable {d n : ℕ}

/-- `np.linalg.norm` -/
def linalgNorm (v : Fin d → ℝ) : ℝ := √(∑ i, v i ^ 2)

def cosineSimilarity (a b : Fin d → ℝ) : ℝ :=
  let denom := linalgNorm a * linalgNorm b
  if denom < 1e-12 then 0 else dotProduct a b / denom

def cosineSimilarityMatrix (query : Fin d → ℝ) (gallery : Fin n → Fin d → ℝ) : Fin n → ℝ :=
  let qNorm := linalgNorm query
  let gNorm := fun i => linalgNorm (gallery i)
  let denom := fun i => max (qNorm * gNorm i) 1e-12
  fun i => dotProduct (gallery i) query / denom i

/-! ### The range -/

theorem abs_dotProduct_le (a b : Fin d → ℝ) :
    |dotProduct a b| ≤ linalgNorm a * linalgNorm b := by
  have hle : ∀ a : Fin d → ℝ, dotProduct a b ≤ linalgNorm a * linalgNorm b := fun a =>
    Real.sum_mul_le_sqrt_mul_sqrt Finset.univ a b
  have hneg : linalgNorm (-a) = linalgNorm a := by simp [linalgNorm]
  refine abs_le'.2 ⟨hle a, ?_⟩
  rw [← neg_dotProduct, ← hneg]
  exact hle (-a)

theorem abs_cosineSimilarity_le_one (a b : Fin d → ℝ) : |cosineSimilarity a b| ≤ 1 := by
  simp only [cosineSimilarity]
  split_ifs with hsmall
  · simp
  · have hpos : 0 < linalgNorm a * linalgNorm b := by
      linarith [not_lt.1 hsmall, (by norm_num : (0 : ℝ) < 1e-12)]
    rw [abs_div, abs_of_pos hpos, div_le_one hpos]
    exact abs_dotProduct_le a b

theorem cosineSimilarityMatrix_apply (query : Fin d → ℝ) (gallery : Fin n → Fin d → ℝ)
    (i : Fin n) : cosineSimilarityMatrix query gallery i =
      dotProduct query (gallery i) / max (linalgNorm query * linalgNorm (gallery i)) 1e-12 := by
  rw [dotProduct_comm, cosineSimilarityMatrix]

theorem abs_cosineSimilarityMatrix_le_one (query : Fin d → ℝ)
    (gallery : Fin n → Fin d → ℝ) (i : Fin n) :
    |cosineSimilarityMatrix query gallery i| ≤ 1 := by
  have hpos : 0 < max (linalgNorm query * linalgNorm (gallery i)) 1e-12 :=
    lt_max_of_lt_right (by norm_num)
  rw [cosineSimilarityMatrix_apply, abs_div, abs_of_pos hpos, div_le_one hpos]
  exact (abs_dotProduct_le query (gallery i)).trans (le_max_left _ _)

/-! ### Batched and pairwise -/

/-- **The batched similarity is the pairwise one** iff the product of the norms is not below the
bound, or the vectors are orthogonal. -/
theorem cosineSimilarityMatrix_eq_iff (query : Fin d → ℝ) (gallery : Fin n → Fin d → ℝ)
    (i : Fin n) : cosineSimilarityMatrix query gallery i = cosineSimilarity query (gallery i) ↔
      1e-12 ≤ linalgNorm query * linalgNorm (gallery i) ∨ dotProduct query (gallery i) = 0 := by
  rw [cosineSimilarityMatrix_apply]
  simp only [cosineSimilarity]
  rcases lt_or_ge (linalgNorm query * linalgNorm (gallery i)) 1e-12 with hsmall | hlarge
  · have hbound : (1e-12 : ℝ) ≠ 0 := by norm_num
    rw [if_pos hsmall, max_eq_right hsmall.le, div_eq_zero_iff, or_iff_left hbound,
      or_iff_right hsmall.not_ge]
  · rw [if_neg hlarge.not_gt, max_eq_left hlarge]
    exact iff_of_true rfl (.inl hlarge)

/-- Two parallel vectors of one coordinate: the pairwise similarity is 0, the batched one 0.1. -/
theorem tiny_vectors_disagree :
    cosineSimilarity ![(1e-7 : ℝ)] ![1e-6] = 0 ∧
      cosineSimilarityMatrix ![(1e-7 : ℝ)] ![![1e-6]] 0 = 1 / 10 := by
  have hnorm : ∀ x : ℝ, 0 ≤ x → linalgNorm ![x] = x := fun x hx => by
    simp [linalgNorm, Real.sqrt_sq hx]
  have hdot : dotProduct ![(1e-7 : ℝ)] ![1e-6] = 1e-13 := by
    norm_num [dotProduct]
  rw [cosineSimilarityMatrix_apply, Matrix.cons_val_zero, cosineSimilarity, hnorm _ (by norm_num),
    hnorm _ (by norm_num), hdot]
  constructor <;> norm_num

/-- Vectors of length one need no division. -/
theorem similarity_of_unit {query : Fin d → ℝ} {gallery : Fin n → Fin d → ℝ} {i : Fin n}
    (hquery : linalgNorm query = 1) (hrow : linalgNorm (gallery i) = 1) :
    cosineSimilarityMatrix query gallery i = dotProduct query (gallery i) ∧
      cosineSimilarity query (gallery i) = dotProduct query (gallery i) := by
  rw [cosineSimilarityMatrix_apply, cosineSimilarity, hquery, hrow]
  norm_num

end

end FaceRecognition.Recognition
