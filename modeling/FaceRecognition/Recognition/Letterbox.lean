import Mathlib.Tactic.FieldSimp
import Mathlib.Tactic.Linarith
import Mathlib.Tactic.Ring
import FaceRecognition.Recognition.Scrfd

/-!
# The letterbox

`detect` scales an image so that its longer side is the side of the model input, and truncates the
other one. The truncated side vanishes when the image is longer than it is wide by more than the
side of the model (`letterbox_well_formed_iff`).

Detections are mapped back by `det_scale`, the ratio of the heights. It is the ratio of the widths
only when nothing is truncated: at the right edge of the image the difference is what the truncation
has cut off, scaled back, and it exceeds one pixel for large images (`mapped_back_iff`).
-/

namespace FaceRecognition.Recognition

open SCRFDetector (unscale)

/-- `(new_w, new_h)` -/
def newSize (side imH imW : ℕ) : ℤ × ℤ :=
  let imRatio : ℚ := imH / imW
  let modelRatio : ℚ := side / side
  if modelRatio < imRatio then (truncInt (side / imRatio), side)
  else (side, truncInt (side * imRatio))

def detScale (side imH imW : ℕ) : ℚ := (newSize side imH imW).2 / imH

/-- The letterbox resizes to `newSize` and scales back by `detScale`. -/
theorem letterbox_eq (D : SCRFDetector) (image : Image) (hh : 1 ≤ image.height)
    (hw : 1 ≤ image.width) (hside : 1 ≤ D.inputSize) :
    D.letterbox image =
      (D.resize image (newSize D.inputSize image.height image.width).1
        (newSize D.inputSize image.height image.width).2).map fun resized =>
          (SCRFDetector.canvas D.inputSize resized,
            detScale D.inputSize image.height image.width) := by
  rw [SCRFDetector.letterbox, if_neg (by omega)]
  simp only [newSize, detScale]
  split_ifs <;> first | rfl | omega

/-! ### The size -/

theorem truncInt_div (a b : ℕ) : truncInt ((a : ℚ) / b) = (a / b : ℕ) := by
  rw [truncInt, if_pos (by positivity)]
  exact_mod_cast Rat.floor_natCast_div_natCast a b

section
variable {side h w : ℕ} (hw : 1 ≤ w) (hside : 1 ≤ side)
include hw hside

theorem modelRatio_lt_iff : (side : ℚ) / side < h / w ↔ w < h := by
  have hsideQ : (0 : ℚ) < side := by exact_mod_cast hside
  have hwQ : (0 : ℚ) < w := by exact_mod_cast hw
  rw [div_self hsideQ.ne', lt_div_iff₀ hwQ, one_mul]
  exact Nat.cast_lt

theorem newSize_tall (h₀ : w < h) : newSize side h w = (((side * w / h : ℕ) : ℤ), (side : ℤ)) := by
  have hratio : (side : ℚ) / (h / w) = ((side * w : ℕ) : ℚ) / h := by
    rw [div_div_eq_mul_div, Nat.cast_mul]
  simp only [newSize]
  rw [if_pos ((modelRatio_lt_iff hw hside).2 h₀), hratio, truncInt_div]

theorem newSize_wide (h₀ : h ≤ w) : newSize side h w = ((side : ℤ), ((side * h / w : ℕ) : ℤ)) := by
  have hratio : (side : ℚ) * (h / w) = ((side * h : ℕ) : ℚ) / w := by
    rw [← mul_div_assoc, Nat.cast_mul]
  simp only [newSize]
  rw [if_neg (mt (modelRatio_lt_iff hw hside).1 (not_lt.2 h₀)), hratio, truncInt_div]

end

/-- The resize, the slice assignment and the division by `det_scale` are all defined. -/
structure WellFormed (side imH imW : ℕ) : Prop where
  width : 1 ≤ (newSize side imH imW).1 ∧ (newSize side imH imW).1 ≤ side
  height : 1 ≤ (newSize side imH imW).2 ∧ (newSize side imH imW).2 ≤ side
  fills : (newSize side imH imW).1 = side ∨ (newSize side imH imW).2 = side
  scale : 0 < detScale side imH imW

/-- A side shrunk by no more than the side of the model. -/
theorem one_le_shrunk_iff {side short long : ℕ} (hlong : 1 ≤ long) :
    1 ≤ side * short / long ↔ long ≤ side * short :=
  Nat.one_le_div_iff hlong

theorem shrunk_le {side short long : ℕ} (h : short ≤ long) : side * short / long ≤ side :=
  Nat.div_le_of_le_mul (by rw [Nat.mul_comm long]; exact Nat.mul_le_mul_left side h)

theorem wellFormed_iff_of_size {side imH imW newW newH : ℕ} (hh : 1 ≤ imH)
    (hsize : newSize side imH imW = ((newW : ℤ), (newH : ℤ))) : WellFormed side imH imW ↔
      (1 ≤ newW ∧ newW ≤ side) ∧ (1 ≤ newH ∧ newH ≤ side) ∧ (newW = side ∨ newH = side) := by
  have hhQ : (0 : ℚ) < imH := by exact_mod_cast hh
  constructor
  · rintro ⟨hwidth, hheight, hfills, -⟩
    rw [hsize] at hwidth hheight hfills
    dsimp only at hwidth hheight hfills
    exact ⟨by exact_mod_cast hwidth, by exact_mod_cast hheight, by exact_mod_cast hfills⟩
  · rintro ⟨hwidth, hheight, hfills⟩
    have hscale : 0 < detScale side imH imW := by
      rw [detScale, hsize]
      dsimp only
      exact div_pos (by exact_mod_cast hheight.1) hhQ
    refine ⟨?_, ?_, ?_, hscale⟩ <;> rw [hsize] <;> dsimp only
    · exact_mod_cast hwidth
    · exact_mod_cast hheight
    · exact_mod_cast hfills

/-- **The letterbox is well-formed** iff neither side of the image is longer than the other one by
more than the side of the model input. -/
theorem letterbox_well_formed_iff (side imH imW : ℕ) (hside : 1 ≤ side) (hh : 1 ≤ imH)
    (hw : 1 ≤ imW) : WellFormed side imH imW ↔ imH ≤ side * imW ∧ imW ≤ side * imH := by
  rcases lt_or_ge imW imH with hlt | hle
  · have hwide : imW ≤ side * imH := hlt.le.trans (Nat.le_mul_of_pos_left imH hside)
    have hbound : side * imW / imH ≤ side := shrunk_le hlt.le
    rw [wellFormed_iff_of_size hh (newSize_tall hw hside hlt), one_le_shrunk_iff hh]
    exact ⟨fun h => ⟨h.1.1, hwide⟩, fun h => ⟨⟨h.1, hbound⟩, ⟨hside, le_rfl⟩, .inr rfl⟩⟩
  · have htall : imH ≤ side * imW := hle.trans (Nat.le_mul_of_pos_left imW hside)
    have hbound : side * imH / imW ≤ side := shrunk_le hle
    rw [wellFormed_iff_of_size hh (newSize_wide hw hside hle), one_le_shrunk_iff hw]
    exact ⟨fun h => ⟨htall, h.2.1.1⟩, fun h => ⟨⟨hside, le_rfl⟩, ⟨h.2, hbound⟩, .inl rfl⟩⟩

theorem letterbox_well_formed_photo : WellFormed 640 480 640 :=
  (letterbox_well_formed_iff 640 480 640 (by decide) (by decide) (by decide)).2 (by decide)

/-- An image of one column and 641 rows is resized to no column. -/
theorem letterbox_without_width : newSize 640 641 1 = (0, 640) ∧ ¬ WellFormed 640 641 1 := by
  have hsize : newSize 640 641 1 = (0, 640) := by decide +kernel
  refine ⟨hsize, fun h => ?_⟩
  have hwidth := h.width.1
  rw [hsize] at hwidth
  exact absurd hwidth (by decide)

/-! ### Mapping back -/

/-- Where the resize puts a point of the image. -/
def toModel (side imH imW : ℕ) (p : Point) : Point :=
  ⟨p.x * (newSize side imH imW).1 / imW, p.y * (newSize side imH imW).2 / imH⟩

def InImage (imH imW : ℕ) (p : Point) : Prop := (0 ≤ p.x ∧ p.x ≤ imW) ∧ 0 ≤ p.y ∧ p.y ≤ imH

def WithinAPixel (p q : Point) : Prop := |p.x - q.x| ≤ 1 ∧ |p.y - q.y| ≤ 1

/-- What the truncation cuts off the shorter side is at most a pixel of the image. -/
def CutsAPixel (side imH imW : ℕ) : Prop :=
  if imW < imH then side * imW % imH ≤ side else side * imH % imW ≤ side * imH / imW

instance (side imH imW : ℕ) : Decidable (CutsAPixel side imH imW) :=
  inferInstanceAs (Decidable (if imW < imH then _ else _))

section
variable {side imH imW : ℕ}

/-- The image and the model are not empty when the resized image is not. -/
theorem sizes_pos (hnew : 1 ≤ (newSize side imH imW).2) : 1 ≤ side ∧ 1 ≤ imH ∧ 1 ≤ imW := by
  by_contra hpos
  have hzero : side = 0 ∨ imH = 0 ∨ imW = 0 := by omega
  have hempty : (newSize side imH imW).2 = 0 := by
    simp only [newSize]
    rcases hzero with rfl | rfl | rfl
    · split_ifs <;> simp [truncInt]
    · rw [if_neg (by simp; positivity)]
      simp [truncInt]
    · rw [if_neg (by simp; positivity)]
      simp [truncInt]
  omega

/-- Mapping back stretches the image along its width. -/
theorem unscale_toModel (hh : 1 ≤ imH) (hnew : 1 ≤ (newSize side imH imW).2) (p : Point) :
    unscale (detScale side imH imW) (toModel side imH imW p) =
      ⟨p.x * ((newSize side imH imW).1 * imH / (imW * (newSize side imH imW).2)), p.y⟩ := by
  have hhQ : (imH : ℚ) ≠ 0 := by exact_mod_cast (by omega : imH ≠ 0)
  have hnewQ : ((newSize side imH imW).2 : ℚ) ≠ 0 := by
    exact_mod_cast (by omega : (newSize side imH imW).2 ≠ 0)
  rw [unscale, toModel, detScale]
  congr 1 <;> field_simp

/-- A stretch moves the far end the most. -/
theorem stretch_within_iff {w k : ℚ} (hw : 0 ≤ w) :
    (∀ x, 0 ≤ x → x ≤ w → |x * k - x| ≤ 1) ↔ |w * k - w| ≤ 1 := by
  constructor
  · exact fun h => h w hw le_rfl
  · intro h x hx hxw
    have hmoved : ∀ z : ℚ, 0 ≤ z → |z * k - z| = z * |k - 1| := fun z hz => by
      rw [← mul_sub_one, abs_mul, abs_of_nonneg hz]
    rw [hmoved w hw] at h
    rw [hmoved x hx]
    exact (mul_le_mul_of_nonneg_right hxw (abs_nonneg _)).trans h

/-- The right edge is moved by what one side has more than its share, in units of the height. -/
theorem right_edge_iff {newW newH : ℤ} (hw : 1 ≤ imW) (hnew : 1 ≤ newH) :
    |(imW : ℚ) * (newW * imH / (imW * newH)) - imW| ≤ 1 ↔ |newW * imH - imW * newH| ≤ newH := by
  have hwQ : (imW : ℚ) ≠ 0 := by exact_mod_cast (by omega : imW ≠ 0)
  have hnewQ : (0 : ℚ) < newH := by exact_mod_cast (by omega : 0 < newH)
  have hmoved : (imW : ℚ) * (newW * imH / (imW * newH)) - imW =
      ((newW * imH - imW * newH : ℤ) : ℚ) / newH := by
    push_cast
    field_simp
  rw [hmoved, abs_div, abs_of_pos hnewQ, div_le_one hnewQ, ← Int.cast_abs, Int.cast_le]

theorem cuts_iff (hside : 1 ≤ side) (hw : 1 ≤ imW) :
    |(newSize side imH imW).1 * imH - imW * (newSize side imH imW).2| ≤
      (newSize side imH imW).2 ↔ CutsAPixel side imH imW := by
  rcases lt_or_ge imW imH with hlt | hle
  · have hrest : ((side * imW / imH : ℕ) : ℤ) * imH - imW * side = -(side * imW % imH : ℕ) := by
      have hdiv : ((side * imW / imH * imH + side * imW % imH : ℕ) : ℤ) = (side * imW : ℕ) :=
        congrArg _ (Nat.div_add_mod' (side * imW) imH)
      rw [Nat.cast_add, Nat.cast_mul _ imH, Nat.cast_mul side, mul_comm (side : ℤ)] at hdiv
      linarith
    rw [newSize_tall hw hside hlt, CutsAPixel, if_pos hlt]
    dsimp only
    rw [hrest, abs_neg, Nat.abs_cast, Nat.cast_le]
  · have hrest : (side : ℤ) * imH - imW * (side * imH / imW : ℕ) = (side * imH % imW : ℕ) := by
      have hdiv : ((imW * (side * imH / imW) + side * imH % imW : ℕ) : ℤ) = (side * imH : ℕ) :=
        congrArg _ (Nat.div_add_mod (side * imH) imW)
      rw [Nat.cast_add, Nat.cast_mul imW, Nat.cast_mul side] at hdiv
      linarith
    rw [newSize_wide hw hside hle, CutsAPixel, if_neg (not_lt.2 hle)]
    dsimp only
    rw [hrest, Nat.abs_cast, Nat.cast_le]

end

/-- **Mapping back undoes the letterbox** up to a pixel iff the truncation cuts no more off. -/
theorem mapped_back_iff (side imH imW : ℕ) (hnewH : 1 ≤ (newSize side imH imW).2) :
    (∀ p, InImage imH imW p →
      WithinAPixel (unscale (detScale side imH imW) (toModel side imH imW p)) p) ↔
        CutsAPixel side imH imW := by
  obtain ⟨hside, hh, hw⟩ := sizes_pos hnewH
  rw [← cuts_iff hside hw, ← right_edge_iff hw hnewH, ← stretch_within_iff imW.cast_nonneg]
  constructor
  · intro h x hx hxw
    have hnear := h ⟨x, 0⟩ ⟨⟨hx, hxw⟩, le_rfl, imH.cast_nonneg⟩
    rw [unscale_toModel hh hnewH] at hnear
    exact hnear.1
  · intro h p hp
    rw [unscale_toModel hh hnewH]
    exact ⟨h p.x hp.1.1 hp.1.2, by simp⟩

theorem mapped_back_wide :
    WithinAPixel (unscale (detScale 640 480 853) (toModel 640 480 853 ⟨853, 480⟩)) ⟨853, 480⟩ :=
  (mapped_back_iff 640 480 853 (by decide +kernel)).2 (by decide) ⟨853, 480⟩
    (by norm_num [InImage])

/-- The right edge of a photo of 4000 by 2999 pixels comes back seven pixels outside of it. -/
theorem right_edge_off : newSize 640 2999 4000 = (640, 479) ∧ InImage 2999 4000 ⟨4000, 0⟩ ∧
    ¬ WithinAPixel (unscale (detScale 640 2999 4000) (toModel 640 2999 4000 ⟨4000, 0⟩))
      ⟨4000, 0⟩ := by
  have hsize : newSize 640 2999 4000 = (640, 479) := by decide +kernel
  refine ⟨hsize, ?_, ?_⟩
  · norm_num [InImage]
  · rintro ⟨hx, -⟩
    rw [unscale, toModel, detScale, hsize] at hx
    norm_num at hx

end FaceRecognition.Recognition
