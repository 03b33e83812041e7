import Mathlib.Tactic.Linarith
import Mathlib.Tactic.Positivity
import FaceRecognition.Lib.Greedy
import FaceRecognition.Recognition.Anchors

/-!
# Non-maximum suppression

`_nms` is a greedy selection from the boxes in the order of their scores (`nmsLoop_eq_select`). For
boxes with `x1 <= x2` and `y1 <= y2` every area is positive, so the overlap ratio is defined and the
selection is what it should be (`nms_greedy`).

The areas of other boxes may be zero or negative. A box that overlaps another one has a positive
area all the same, so the denominator of the ratio is zero exactly when the two areas add up to zero
(`nmsUnion_eq_zero_iff`). Then the quotient is undefined, and the later of the two boxes is dropped
although they are disjoint (`suppression_needs_overlap_iff`).
-/

namespace FaceRecognition.Recognition

open Arrays

/-- `areas[i] + areas[order[1:]] - inter` -/
def nmsUnion (a b : Det) : ℚ := nmsArea a + nmsArea b - overlap a b

/-- `ovr` -/
def overlapRatio (a b : Det) : ℚ := overlap a b / nmsUnion a b

theorem survives_iff {thresh : ℚ} {a b : Det} :
    survives thresh a b = true ↔ nmsUnion a b ≠ 0 ∧ overlapRatio a b ≤ thresh := by
  simp [survives, nmsUnion, overlapRatio]

/-! ### Overlap and area -/

/-- The sides of the intersection are symmetric in the boxes. -/
theorem overlap_comm (a b : Det) : overlap a b = overlap b a := by
  unfold overlap
  rw [min_comm a.bbox.x2, max_comm a.bbox.x1, min_comm a.bbox.y2, max_comm a.bbox.y1]

theorem overlapRatio_comm (a b : Det) : overlapRatio a b = overlapRatio b a := by
  rw [overlapRatio, overlapRatio, nmsUnion, nmsUnion, overlap_comm, add_comm]

theorem overlap_nonneg (a b : Det) : 0 ≤ overlap a b :=
  mul_nonneg (le_max_left _ _) (le_max_left _ _)

/-- A side of a nonempty intersection is a side of both boxes at most. -/
theorem side_le {u₁ u₂ v₁ v₂ : ℚ} (h : 0 < max 0 (min u₂ v₂ - max u₁ v₁ + 1)) :
    max 0 (min u₂ v₂ - max u₁ v₁ + 1) ≤ u₂ - u₁ + 1 := by
  have hmin := min_le_left u₂ v₂
  have hmax := le_max_left u₁ v₁
  rcases lt_max_iff.1 h with h | h
  · exact absurd h (lt_irrefl 0)
  · rw [max_eq_right h.le]
    linarith

/-- A box that overlaps another one has a positive area, though its sides may be negative. -/
theorem overlap_le_area {a b : Det} (h : 0 < overlap a b) : overlap a b ≤ nmsArea a := by
  have hw : 0 < max 0 (min a.bbox.x2 b.bbox.x2 - max a.bbox.x1 b.bbox.x1 + 1) :=
    (le_max_left _ _).lt_of_ne fun he => h.ne' (by rw [overlap, ← he, zero_mul])
  have hh : 0 < max 0 (min a.bbox.y2 b.bbox.y2 - max a.bbox.y1 b.bbox.y1 + 1) :=
    (le_max_left _ _).lt_of_ne fun he => h.ne' (by rw [overlap, ← he, mul_zero])
  exact mul_le_mul (side_le hw) (side_le hh) hh.le (hw.le.trans (side_le hw))

theorem overlap_le_area_right {a b : Det} (h : 0 < overlap a b) : overlap a b ≤ nmsArea b := by
  rw [overlap_comm] at h ⊢
  exact overlap_le_area h

theorem nmsUnion_eq_zero_iff {a b : Det} :
    nmsUnion a b = 0 ↔ nmsArea a + nmsArea b = 0 := by
  rcases (overlap_nonneg a b).eq_or_lt with h | h
  · rw [nmsUnion, ← h, sub_zero]
  · have ha := overlap_le_area h
    have hb := overlap_le_area_right h
    unfold nmsUnion
    constructor <;> intro hzero <;> linarith

/-! ### The loop -/

/-- Box `j` is left in the order when box `i` is taken. -/
def tolerates (dets : List Det) (thresh : ℚ) (i j : ℕ) : Bool :=
  (dets[i]?.bind fun a => dets[j]?.map (survives thresh a)).getD false

theorem nmsLoop_eq_select (dets : List Det) (thresh : ℚ) (order : List ℕ) :
    nmsLoop dets thresh order = Greedy.select (tolerates dets thresh) order := by
  fun_induction nmsLoop with
  | case1 => rw [Greedy.select]
  | case2 i rest ih => rw [Greedy.select, ih]; rfl

section
variable {dets : List Det} {thresh : ℚ} {i j : ℕ} {a b : Det} (ha : dets[i]? = some a)
  (hb : dets[j]? = some b)
include ha hb

theorem tolerates_iff : tolerates dets thresh i j = true ↔ survives thresh a b = true := by
  rw [tolerates, ha, hb]
  rfl

theorem tolerates_eq_false : tolerates dets thresh i j = false ↔ survives thresh a b = false := by
  rw [tolerates, ha, hb]
  rfl

end

/-- Indices ordered by the scores of their boxes, largest first. -/
def ScoreGe (dets : List Det) (i j : ℕ) : Prop :=
  ∀ a ∈ dets[i]?, ∀ b ∈ dets[j]?, b.score ≤ a.score

theorem descending_scoreGe (A : Argsort ℚ) (dets : List Det) :
    (A.descending (dets.map Det.score)).Pairwise (ScoreGe dets) := by
  refine List.pairwise_reverse.2 ((A.sorted _).imp fun {i j} h => ?_)
  intro a ha b hb
  refine h b.score ?_ a.score ?_
  · rw [List.getElem?_map, Option.mem_def.1 hb]
    rfl
  · rw [List.getElem?_map, Option.mem_def.1 ha]
    rfl

/-! ### Greedy suppression -/

/-- The boxes do not overlap too much. -/
def Compatible (dets : List Det) (thresh : ℚ) (i j : ℕ) : Prop :=
  ∀ a ∈ dets[i]?, ∀ b ∈ dets[j]?, overlapRatio a b ≤ thresh

instance (dets : List Det) (thresh : ℚ) : Std.Symm (Compatible dets thresh) where
  symm _ _ h a ha b hb := overlapRatio_comm a b ▸ h b hb a ha

/-- What `_nms` returns for the boxes. -/
structure GreedyNms (dets : List Det) (thresh : ℚ) (keep : List ℕ) : Prop where
  inRange : ∀ i ∈ keep, i < dets.length
  distinct : keep.Nodup
  byScore : keep.Pairwise (ScoreGe dets)
  compatible : ∀ i ∈ keep, ∀ j ∈ keep, i ≠ j → Compatible dets thresh i j
  suppressed : ∀ j b, dets[j]? = some b → j ∉ keep → ∃ i ∈ keep, ∃ a, dets[i]? = some a ∧
    thresh < overlapRatio a b ∧ b.score ≤ a.score

/-- The corners are in order. -/
def BBox.Ordered (b : BBox) : Prop := b.x1 ≤ b.x2 ∧ b.y1 ≤ b.y2

theorem one_le_nmsArea {d : Det} (h : d.bbox.Ordered) : 1 ≤ nmsArea d := by
  obtain ⟨hx, hy⟩ := h
  exact one_le_mul_of_one_le_of_one_le (by linarith) (by linarith)

theorem survives_ordered {thresh : ℚ} {a b : Det} (ha : a.bbox.Ordered) (hb : b.bbox.Ordered) :
    survives thresh a b = true ↔ overlapRatio a b ≤ thresh := by
  have hareaA := one_le_nmsArea ha
  have hareaB := one_le_nmsArea hb
  have hunion : nmsUnion a b ≠ 0 := fun h => by
    have := nmsUnion_eq_zero_iff.1 h
    linarith
  rw [survives_iff]
  exact and_iff_right hunion

/-- **`_nms` is greedy non-maximum suppression** on boxes whose corners are in order. -/
theorem nms_greedy (D : SCRFDetector) (dets : List Det) (thresh : ℚ)
    (hordered : ∀ d ∈ dets, d.bbox.Ordered) : GreedyNms dets thresh (D.nms dets thresh) := by
  have hselect : D.nms dets thresh = Greedy.select (tolerates dets thresh)
      (D.argsort.descending (dets.map Det.score)) := nmsLoop_eq_select dets thresh _
  have hperm : (D.argsort.descending (dets.map Det.score)).Perm (List.range dets.length) := by
    simpa using D.argsort.descending_perm (dets.map Det.score)
  have hsub : (Greedy.select (tolerates dets thresh)
      (D.argsort.descending (dets.map Det.score))).Sublist _ := Greedy.select_sublist _
  have hdet : ∀ {i : ℕ} {d : Det}, dets[i]? = some d → d.bbox.Ordered := fun h =>
    hordered _ (List.mem_of_getElem? h)
  rw [hselect]
  constructor
  · intro i hi
    exact List.mem_range.1 (hperm.subset (hsub.subset hi))
  · exact (D.argsort.descending_nodup _).sublist hsub
  · exact (descending_scoreGe D.argsort dets).sublist hsub
  · have hcompatible : (Greedy.select (tolerates dets thresh)
        (D.argsort.descending (dets.map Det.score))).Pairwise (Compatible dets thresh) := by
      refine (Greedy.pairwise_select _).imp fun {i j} h a ha b hb => ?_
      exact (survives_ordered (hdet ha) (hdet hb)).1 ((tolerates_iff ha hb).1 h)
    exact fun i hi j hj hne => hcompatible.forall hi hj hne
  · intro j b hb hj
    have hmem : j ∈ D.argsort.descending (dets.map Det.score) :=
      hperm.symm.subset (List.mem_range.2 (List.getElem?_eq_some_iff.1 hb).1)
    obtain ⟨i, hi, hscore, hrejects⟩ := Greedy.rejected (descending_scoreGe D.argsort dets) hmem hj
    obtain ⟨a, ha⟩ : ∃ a, dets[i]? = some a :=
      ⟨_, List.getElem?_eq_getElem (List.mem_range.1 (hperm.subset (hsub.subset hi)))⟩
    have hratio : ¬ overlapRatio a b ≤ thresh := fun h => by
      have hsurvives := (survives_ordered (hdet ha) (hdet hb)).2 h
      rw [(tolerates_eq_false ha hb).1 hrejects] at hsurvives
      cases hsurvives
    exact ⟨i, hi, a, ha, not_le.1 hratio, hscore a ha b hb⟩

/-- A face found twice, and another one. -/
def twoFaces : List Det :=
  [⟨⟨10, 10, 50, 50⟩, 9 / 10⟩, ⟨⟨12, 12, 52, 52⟩, 8 / 10⟩, ⟨⟨100, 100, 140, 140⟩, 7 / 10⟩]

theorem nms_greedy_twoFaces :
    GreedyNms twoFaces (2 / 5) (SCRFDetector.flatDetector.nms twoFaces (2 / 5)) :=
  nms_greedy SCRFDetector.flatDetector twoFaces (2 / 5) (by
    simp only [twoFaces, List.mem_cons, List.not_mem_nil, or_false]
    rintro d (rfl | rfl | rfl) <;> norm_num [BBox.Ordered])

/-! ### Suppression without overlap -/

/-- The area of the corners as `_nms` computes it. -/
def BBox.area (b : BBox) : ℚ := (b.x2 - b.x1 + 1) * (b.y2 - b.y1 + 1)

/-- Whenever `_nms` divides, the divisor is not zero, and it drops a box only for another one that
it overlaps. -/
def SuppressionNeedsOverlap (D : SCRFDetector) (dets : List Det) (thresh : ℚ) : Prop :=
  ∀ p ∈ Greedy.compared (tolerates dets thresh) (D.argsort.descending (dets.map Det.score)),
    ∀ a ∈ dets[p.1]?, ∀ b ∈ dets[p.2]?,
      nmsUnion a b ≠ 0 ∧ (tolerates dets thresh p.1 p.2 = false → overlap a b ≠ 0)

/-- One comparison. -/
theorem drops_overlapping {thresh : ℚ} (h : 0 ≤ thresh) {a b : Det}
    (hsum : nmsArea a + nmsArea b ≠ 0) :
    nmsUnion a b ≠ 0 ∧ (survives thresh a b = false → overlap a b ≠ 0) := by
  have hunion : nmsUnion a b ≠ 0 := mt nmsUnion_eq_zero_iff.1 hsum
  refine ⟨hunion, fun hdropped hzero => ?_⟩
  have hratio : overlapRatio a b ≤ thresh := by rwa [overlapRatio, hzero, zero_div]
  rw [survives_iff.2 ⟨hunion, hratio⟩] at hdropped
  cases hdropped

/-- No box is taken while one is left whose area and its own add up to zero. -/
def NeverCancels (D : SCRFDetector) (dets : List Det) (thresh : ℚ) : Prop :=
  ∀ p ∈ Greedy.compared (tolerates dets thresh) (D.argsort.descending (dets.map Det.score)),
    ∀ a ∈ dets[p.1]?, ∀ b ∈ dets[p.2]?, a.bbox.area + b.bbox.area ≠ 0

theorem suppressionNeedsOverlap_iff {D : SCRFDetector} {dets : List Det} {thresh : ℚ}
    (h : 0 ≤ thresh) : SuppressionNeedsOverlap D dets thresh ↔ NeverCancels D dets thresh := by
  constructor
  · intro hneeds p hp a ha b hb hzero
    exact (hneeds p hp a ha b hb).1 (nmsUnion_eq_zero_iff.2 hzero)
  · intro hcancels p hp a ha b hb
    obtain ⟨hunion, hoverlap⟩ := drops_overlapping h (hcancels p hp a ha b hb)
    exact ⟨hunion, fun hdropped => hoverlap ((tolerates_eq_false ha hb).1 hdropped)⟩

/-- Scores that put the box `i` first. -/
def firstOnly (n i : ℕ) : List ℚ := (List.range n).map fun k => if k = i then 1 else 0

section scores
variable {boxes : List BBox}

theorem box_of_det {scores : List ℚ} {i : ℕ} {d : Det}
    (h : (List.zipWith Det.mk boxes scores)[i]? = some d) : boxes[i]? = some d.bbox := by
  obtain ⟨b, s, hb, -, rfl⟩ := List.getElem?_zipWith_eq_some.1 h
  exact hb

theorem det_firstOnly (i : ℕ) {k : ℕ} (hk : k < boxes.length) :
    (List.zipWith Det.mk boxes (firstOnly boxes.length i))[k]? =
      some ⟨boxes[k], if k = i then 1 else 0⟩ := by
  simp [firstOnly, hk]

/-- The box with the one positive score is taken first, and all others are compared with it. -/
theorem compared_firstOnly (D : SCRFDetector) (thresh : ℚ) {i j : ℕ} (hi : i < boxes.length)
    (hj : j < boxes.length) (hne : i ≠ j) :
    (i, j) ∈ Greedy.compared
      (tolerates (List.zipWith Det.mk boxes (firstOnly boxes.length i)) thresh)
      (D.argsort.descending
        ((List.zipWith Det.mk boxes (firstOnly boxes.length i)).map Det.score)) := by
  have hdet : ∀ k (hk : k < boxes.length), _ := fun k hk => det_firstOnly i hk
  have hlength : (List.zipWith Det.mk boxes (firstOnly boxes.length i)).length = boxes.length := by
    simp [firstOnly]
  generalize List.zipWith Det.mk boxes (firstOnly boxes.length i) = dets at hdet hlength ⊢
  have hperm : (D.argsort.descending (dets.map Det.score)).Perm (List.range boxes.length) := by
    simpa [hlength] using D.argsort.descending_perm (dets.map Det.score)
  have hsorted := descending_scoreGe D.argsort dets
  generalize D.argsort.descending (dets.map Det.score) = order at hperm hsorted ⊢
  have hmem : ∀ k < boxes.length, k ∈ order := fun k hk =>
    hperm.symm.subset (List.mem_range.2 hk)
  cases order with
  | nil => cases hmem i hi
  | cons k rest =>
    have hk : k < boxes.length := List.mem_range.1 (hperm.subset List.mem_cons_self)
    have hfirst : k = i := by
      by_contra hki
      have hrest : i ∈ rest := (List.mem_cons.1 (hmem i hi)).resolve_left fun he => hki he.symm
      have hle := (List.pairwise_cons.1 hsorted).1 i hrest _ (hdet k hk) _ (hdet i hi)
      simp only [hki, if_true, if_false] at hle
      linarith
    subst hfirst
    have hrest : j ∈ rest := (List.mem_cons.1 (hmem j hj)).resolve_left (Ne.symm hne)
    rw [Greedy.compared]
    exact List.mem_append_left _ (List.mem_map.2 ⟨j, hrest, rfl⟩)

theorem neverCancels_of_pairwise (D : SCRFDetector) (thresh : ℚ) (scores : List ℚ)
    (hboxes : boxes.Pairwise fun b b' => b.area + b'.area ≠ 0) :
    NeverCancels D (List.zipWith Det.mk boxes scores) thresh := by
  intro p hp a ha b hb
  have hne : p.1 ≠ p.2 := by
    have hnodup := (D.argsort.descending_nodup _).sublist (Greedy.compared_sublist hp)
    simpa using hnodup
  obtain ⟨hi, hai⟩ := List.getElem?_eq_some_iff.1 (box_of_det ha)
  obtain ⟨hj, hbj⟩ := List.getElem?_eq_some_iff.1 (box_of_det hb)
  rw [← hai, ← hbj]
  rcases lt_or_gt_of_ne hne with hlt | hlt
  · exact List.pairwise_iff_getElem.1 hboxes _ _ hi hj hlt
  · rw [add_comm]
    exact List.pairwise_iff_getElem.1 hboxes _ _ hj hi hlt

end scores

/-- **Suppression needs overlap** iff no box is taken while one is left whose area cancels its own;
for all scores iff no two of the areas cancel. -/
theorem suppression_needs_overlap_iff (D : SCRFDetector) (boxes : List BBox) (thresh : ℚ)
    (hthresh : 0 ≤ thresh) :
    (∀ scores : List ℚ, scores.length = boxes.length →
      (SuppressionNeedsOverlap D (List.zipWith Det.mk boxes scores) thresh ↔
        NeverCancels D (List.zipWith Det.mk boxes scores) thresh)) ∧
    ((∀ scores : List ℚ, scores.length = boxes.length →
      SuppressionNeedsOverlap D (List.zipWith Det.mk boxes scores) thresh) ↔
        boxes.Pairwise fun b b' => b.area + b'.area ≠ 0) := by
  refine ⟨fun scores _ => suppressionNeedsOverlap_iff hthresh, fun hneeds => ?_, ?_⟩
  · refine List.pairwise_iff_getElem.2 fun i j hi hj hlt hzero => ?_
    have hcancels := suppressionNeedsOverlap_iff hthresh |>.1
      (hneeds (firstOnly boxes.length i) (by simp [firstOnly]))
    exact hcancels _ (compared_firstOnly D thresh hi hj hlt.ne) _ (det_firstOnly i hi) _
      (det_firstOnly i hj) hzero
  · intro hboxes scores _
    exact (suppressionNeedsOverlap_iff hthresh).2 (neverCancels_of_pairwise D thresh scores hboxes)

theorem suppression_needs_overlap_apart :
    SuppressionNeedsOverlap SCRFDetector.flatDetector
      (List.zipWith Det.mk [⟨10, 10, 50, 50⟩, ⟨100, 100, 140, 140⟩] [9 / 10, 8 / 10]) (2 / 5) :=
  (suppression_needs_overlap_iff SCRFDetector.flatDetector
    [⟨10, 10, 50, 50⟩, ⟨100, 100, 140, 140⟩] (2 / 5) (by norm_num)).2.2
      (by norm_num [BBox.area]) [9 / 10, 8 / 10] rfl

/-- Two boxes of no width, far from each other. -/
def withoutWidth : List Det := [⟨⟨10, 10, 9, 50⟩, 9 / 10⟩, ⟨⟨100, 100, 99, 140⟩, 8 / 10⟩]

theorem disjoint_box_dropped :
    SCRFDetector.flatDetector.nms withoutWidth (2 / 5) = [0] ∧
      ¬ SuppressionNeedsOverlap SCRFDetector.flatDetector withoutWidth (2 / 5) := by
  have horder : SCRFDetector.flatDetector.argsort.descending (withoutWidth.map Det.score) =
      [0, 1] := by decide +kernel
  have hremaining : remaining withoutWidth (2 / 5) 0 [1] = [] := by decide +kernel
  constructor
  · rw [SCRFDetector.nms, horder, nmsLoop, hremaining, nmsLoop]
  · intro hneeds
    have hcompared : (0, 1) ∈ Greedy.compared (tolerates withoutWidth (2 / 5)) [0, 1] := by
      rw [Greedy.compared]
      exact List.mem_append_left _ List.mem_cons_self
    rw [SuppressionNeedsOverlap, horder] at hneeds
    exact (hneeds (0, 1) hcompared _ rfl _ rfl).1 (by norm_num [nmsUnion, nmsArea, overlap])

end FaceRecognition.Recognition
