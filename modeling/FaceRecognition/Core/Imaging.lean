import Mathlib.Tactic.Linarith
import FaceRecognition.Core.Exceptions
import FaceRecognition.Core.Numbers
import FaceRecognition.Lib.Arrays
import FaceRecognition.Recognition.Types

/-!
# Thumbnails

`make_face_thumbnail` crops a face with a margin around it, shrinks the crop when it is too large
and encodes it. The crop is clamped to the image (`cropRegion_inside`) and does not lose a pixel of
the face (`cropRegion_has`), however the box lies; the shrunk picture keeps a pixel on each side.
-/

namespace FaceRecognition.Imaging

open FaceRecognition.Recognition

/-! ### Pixels -/

/-- `image[y, x, c]` -/
def pixel (image : Image) (y x c : ℕ) : UInt8 := image.data.getD ((y * image.width + x) * 3 + c) 0

/-- The image with the given channels. -/
def ofPixels (height width : ℕ) (f : ℕ → ℕ → ℕ → UInt8) : Image where
  height := height
  width := width
  data := (List.range height).flatMap fun y => (List.range width).flatMap fun x =>
    (List.range 3).map fun c => f y x c

theorem pixel_ofPixels {height width y x c : ℕ} (f : ℕ → ℕ → ℕ → UInt8) (hy : y < height)
    (hx : x < width) (hc : c < 3) : pixel (ofPixels height width f) y x c = f y x c := by
  have hrow : ∀ y, ((List.range width).flatMap fun x => (List.range 3).map fun c => f y x c) =
      (List.range (width * 3)).map fun k => f y (k / 3) (k % 3) := fun y =>
    Arrays.flatMap_range width 3 (f y)
  have hchannel : (ofPixels height width f).data[width * 3 * y + (x * 3 + c)]? =
      some (f y ((x * 3 + c) / 3) ((x * 3 + c) % 3)) := by
    simp only [ofPixels, hrow]
    exact Arrays.getElem?_grid (fun y k => f y (k / 3) (k % 3)) hy (by omega)
  have hdiv : (x * 3 + c) / 3 = x := by omega
  have hmod : (x * 3 + c) % 3 = c := by omega
  have hindex : (y * width + x) * 3 + c = width * 3 * y + (x * 3 + c) := by ring
  rw [pixel, List.getD_eq_getElem?_getD]
  show Option.getD (_)[(y * width + x) * 3 + c]? 0 = _
  rw [hindex, hchannel, hdiv, hmod, Option.getD_some]

/-- Where a slice of an axis of length `n` starts or stops. -/
def sliceBound (n : ℕ) (i : ℤ) : ℕ := if i < 0 then (i + n).toNat else min i.toNat n

structure Region where
  x1 : ℤ
  y1 : ℤ
  x2 : ℤ
  y2 : ℤ
  deriving DecidableEq, Repr

/-- `image[y1:y2, x1:x2]` -/
def crop (image : Image) (r : Region) : Image :=
  let (y1, y2) := (sliceBound image.height r.y1, sliceBound image.height r.y2)
  let (x1, x2) := (sliceBound image.width r.x1, sliceBound image.width r.x2)
  ofPixels (y2 - y1) (x2 - x1) fun y x c => pixel image (y1 + y) (x1 + x) c

/-- `image.size` -/
def size (image : Image) : ℕ := image.height * image.width * 3

/-- A region with a pixel, and with none outside the image. -/
structure Region.Inside (r : Region) (image : Image) : Prop where
  left : 0 ≤ r.x1
  right : r.x2 ≤ image.width
  top : 0 ≤ r.y1
  bottom : r.y2 ≤ image.height
  width : r.x1 < r.x2
  height : r.y1 < r.y2

def Region.Has (r : Region) (y x : ℕ) : Prop := (r.x1 ≤ x ∧ x < r.x2) ∧ r.y1 ≤ y ∧ y < r.y2

section
variable {image : Image} {r : Region} (hr : r.Inside image)
include hr

theorem crop_inside : crop image r = ofPixels (r.y2 - r.y1).toNat (r.x2 - r.x1).toNat
    fun y x c => pixel image (r.y1.toNat + y) (r.x1.toNat + x) c := by
  obtain ⟨hleft, hright, htop, hbottom, hwidth, hheight⟩ := hr
  have hbound : ∀ {n : ℕ} {i : ℤ}, 0 ≤ i → i ≤ n → sliceBound n i = i.toNat := by
    intro n i h0 hn
    rw [sliceBound, if_neg (by omega)]
    omega
  simp only [crop]
  rw [hbound htop (by omega), hbound (by omega) hbottom, hbound hleft (by omega),
    hbound (by omega) hright]
  congr 1 <;> omega

theorem crop_nonempty : 1 ≤ (crop image r).height ∧ 1 ≤ (crop image r).width := by
  have hwidth := hr.width
  have hheight := hr.height
  rw [crop_inside hr]
  simp only [ofPixels]
  omega

/-- The crop shows the pixels of its region. -/
theorem pixel_crop {y x c : ℕ} (h : r.Has y x) (hc : c < 3) :
    pixel (crop image r) (y - r.y1.toNat) (x - r.x1.toNat) c = pixel image y x c := by
  obtain ⟨⟨hx1, hx2⟩, hy1, hy2⟩ := h
  have hleft := hr.left
  have htop := hr.top
  rw [crop_inside hr, pixel_ofPixels _ (by omega) (by omega) hc]
  congr 1 <;> omega

end

/-! ### The function -/

/-- The calls of `cv2`. -/
structure Codec where
  /-- `cv2.resize(image, (w, h))` -/
  resize : Image → ℤ → ℤ → Except Exc Image
  /-- `cv2.imencode(".jpg", image, [cv2.IMWRITE_JPEG_QUALITY, quality])`, `none` when not `ok` -/
  imencode : Image → ℤ → Except Exc (Option Bytes)

/-- `cv2.resize` gives an image of the size it is asked for. -/
def Codec.Resizes (C : Codec) : Prop :=
  ∀ (image : Image) (w h : ℤ), 1 ≤ image.height → 1 ≤ image.width → 1 ≤ w → 1 ≤ h →
    ∃ resized, C.resize image w h = .ok resized ∧ resized.width = w ∧ resized.height = h

structure ThumbnailOptions where
  maxSize : ℤ := 220
  margin : ℚ := 3 / 10
  jpegQuality : ℤ := 85

def cropRegion (image : Image) (bbox : BBox) (margin : ℚ) : Region :=
  let (mx, my) := ((bbox.x2 - bbox.x1) * margin, (bbox.y2 - bbox.y1) * margin)
  { x1 := max 0 (truncInt (bbox.x1 - mx))
    y1 := max 0 (truncInt (bbox.y1 - my))
    x2 := min image.width (truncInt (bbox.x2 + mx))
    y2 := min image.height (truncInt (bbox.y2 + my)) }

namespace Codec

variable (C : Codec)

def shrink (maxSize : ℤ) (crop : Image) : Except Exc Image :=
  let (ch, cw) := (crop.height, crop.width)
  let scale : ℚ := maxSize / max ch cw
  if scale < 1 then C.resize crop (max 1 (truncInt (cw * scale))) (max 1 (truncInt (ch * scale)))
  else .ok crop

/-- What is handed to the encoder, `none` when the function returns before. -/
def thumbnailPicture (imageBgr : Image) (bbox : BBox) (o : ThumbnailOptions) :
    Except Exc (Option Image) :=
  let r := cropRegion imageBgr bbox o.margin
  if r.x2 ≤ r.x1 ∨ r.y2 ≤ r.y1 then .ok none
  else if size (crop imageBgr r) = 0 then .ok none
  else (C.shrink o.maxSize (crop imageBgr r)).map some

def makeFaceThumbnail (imageBgr : Image) (bbox : BBox) (o : ThumbnailOptions) :
    Except Exc (Option Bytes) := do
  match ← C.thumbnailPicture imageBgr bbox o with
  | none => return none
  | some picture => C.imencode picture o.jpegQuality

end Codec

/-! ### The region -/

/-- Row `y`, column `x` of the image lies in the box. -/
structure WholePixel (bbox : BBox) (image : Image) (y x : ℕ) : Prop where
  columns : bbox.x1 ≤ x ∧ (x : ℚ) + 1 ≤ bbox.x2
  rows : bbox.y1 ≤ y ∧ (y : ℚ) + 1 ≤ bbox.y2
  inImage : x < image.width ∧ y < image.height

theorem cropRegion_inside {image : Image} {bbox : BBox} {margin : ℚ}
    (hx : (cropRegion image bbox margin).x1 < (cropRegion image bbox margin).x2)
    (hy : (cropRegion image bbox margin).y1 < (cropRegion image bbox margin).y2) :
    (cropRegion image bbox margin).Inside image where
  left := le_max_left _ _
  right := min_le_left _ _
  top := le_max_left _ _
  bottom := min_le_left _ _
  width := hx
  height := hy

/-- Clamping and truncation keep a whole pixel of a side of the box. -/
theorem clamped_has {a b m : ℚ} (hm : 0 ≤ m) {n i : ℕ} (hi : a ≤ i ∧ (i : ℚ) + 1 ≤ b)
    (hn : i < n) : max 0 (truncInt (a - m)) ≤ i ∧ i < min (n : ℤ) (truncInt (b + m)) := by
  have hlow : truncInt (a - m) ≤ i := truncInt_le (by push_cast; linarith [hi.1])
  have hhigh : (i : ℤ) + 1 ≤ truncInt (b + m) := le_truncInt (by push_cast; linarith [hi.2])
  exact ⟨max_le (by omega) hlow, lt_min (by exact_mod_cast hn) (by omega)⟩

theorem cropRegion_has {image : Image} {bbox : BBox} {margin : ℚ} (hmargin : 0 ≤ margin)
    (hx : bbox.x1 ≤ bbox.x2) (hy : bbox.y1 ≤ bbox.y2) {y x : ℕ}
    (h : WholePixel bbox image y x) : (cropRegion image bbox margin).Has y x :=
  ⟨clamped_has (mul_nonneg (sub_nonneg.2 hx) hmargin) h.columns h.inImage.1,
    clamped_has (mul_nonneg (sub_nonneg.2 hy) hmargin) h.rows h.inImage.2⟩

/-! ### The picture -/

/-- Both sides between 1 and `maxSize`. -/
structure Fits (maxSize : ℤ) (picture : Image) : Prop where
  height : 1 ≤ picture.height ∧ picture.height ≤ maxSize
  width : 1 ≤ picture.width ∧ picture.width ≤ maxSize

/-- A side that is scaled with the longer one. -/
theorem scaled_le {maxSize : ℤ} (hmax : 1 ≤ maxSize) {side long : ℕ} (hlong : 1 ≤ long)
    (hside : side ≤ long) : max 1 (truncInt (side * ((maxSize : ℚ) / long))) ≤ maxSize := by
  have hmaxQ : (0 : ℚ) ≤ maxSize := by exact_mod_cast (by omega : 0 ≤ maxSize)
  have hlongQ : (0 : ℚ) < long := by exact_mod_cast hlong
  have hsideQ : (side : ℚ) ≤ long := by exact_mod_cast hside
  refine max_le hmax (truncInt_le ?_)
  calc (side : ℚ) * (maxSize / long) ≤ long * (maxSize / long) :=
        mul_le_mul_of_nonneg_right hsideQ (div_nonneg hmaxQ hlongQ.le)
    _ = maxSize := mul_div_cancel₀ _ hlongQ.ne'

namespace Codec

variable {C : Codec}

theorem shrink_fits (hC : C.Resizes) {maxSize : ℤ} (hmax : 1 ≤ maxSize) {crop : Image}
    (hh : 1 ≤ crop.height) (hw : 1 ≤ crop.width) :
    ∃ picture, C.shrink maxSize crop = .ok picture ∧ Fits maxSize picture := by
  have hlong : 1 ≤ max crop.height crop.width := hh.trans (le_max_left _ _)
  simp only [shrink]
  split_ifs with hscale
  · obtain ⟨picture, hresize, hwidth, hheight⟩ := hC crop _ _ hh hw
      (le_max_left 1 (truncInt (crop.width * ((maxSize : ℚ) / (max crop.height crop.width : ℕ)))))
      (le_max_left 1 (truncInt (crop.height * ((maxSize : ℚ) / (max crop.height crop.width : ℕ)))))
    refine ⟨picture, hresize, ⟨?_, ?_⟩, ?_, ?_⟩
    · have hone : (1 : ℤ) ≤ picture.height := hheight ▸ le_max_left _ _
      exact_mod_cast hone
    · exact hheight.trans_le (scaled_le hmax hlong (le_max_left _ _))
    · have hone : (1 : ℤ) ≤ picture.width := hwidth ▸ le_max_left _ _
      exact_mod_cast hone
    · exact hwidth.trans_le (scaled_le hmax hlong (le_max_right _ _))
  · have hlongQ : (0 : ℚ) < (max crop.height crop.width : ℕ) := by exact_mod_cast hlong
    have hfit : ((max crop.height crop.width : ℕ) : ℤ) ≤ maxSize := by
      have hle := (one_le_div hlongQ).1 (not_lt.1 hscale)
      exact_mod_cast hle
    exact ⟨crop, rfl, ⟨hh, by omega⟩, hw, by omega⟩

/-- The function returns before it crops, or a picture that fits is encoded. -/
theorem thumbnailPicture_cases (hC : C.Resizes) (image : Image) (bbox : BBox)
    {o : ThumbnailOptions} (hmax : 1 ≤ o.maxSize) :
    (¬ (cropRegion image bbox o.margin).Inside image ∧
        C.thumbnailPicture image bbox o = .ok none) ∨
      (cropRegion image bbox o.margin).Inside image ∧ ∃ picture,
        C.shrink o.maxSize (crop image (cropRegion image bbox o.margin)) = .ok picture ∧
          C.thumbnailPicture image bbox o = .ok (some picture) ∧ Fits o.maxSize picture := by
  by_cases hempty : (cropRegion image bbox o.margin).x2 ≤ (cropRegion image bbox o.margin).x1 ∨
      (cropRegion image bbox o.margin).y2 ≤ (cropRegion image bbox o.margin).y1
  · refine .inl ⟨fun hinside => ?_, if_pos hempty⟩
    exact hempty.elim (not_le.2 hinside.width) (not_le.2 hinside.height)
  · have hinside := cropRegion_inside (not_le.1 (not_or.1 hempty).1) (not_le.1 (not_or.1 hempty).2)
    obtain ⟨hh, hw⟩ := crop_nonempty hinside
    have hsize : size (crop image (cropRegion image bbox o.margin)) ≠ 0 :=
      Nat.mul_ne_zero (Nat.mul_ne_zero (by omega) (by omega)) (by omega)
    obtain ⟨picture, hshrink, hfits⟩ := shrink_fits hC hmax hh hw
    refine .inr ⟨hinside, picture, hshrink, ?_, hfits⟩
    simp only [thumbnailPicture]
    rw [if_neg hempty, if_neg hsize, hshrink]
    rfl

end Codec

/-- **Thumbnails are safe and faithful.** Either there is nothing to encode, or the crop lies inside
the image and a picture of at most `max_size` pixels a side is encoded; and the crop shows every
whole pixel of the box, so that there is only nothing to encode when there is no such pixel. -/
theorem thumbnail_safe_and_faithful (C : Codec) (hC : C.Resizes) (image : Image) (bbox : BBox)
    (o : ThumbnailOptions) (hmargin : 0 ≤ o.margin) (hmax : 1 ≤ o.maxSize) :
    let r := cropRegion image bbox o.margin
    (C.thumbnailPicture image bbox o = .ok none ∧ C.makeFaceThumbnail image bbox o = .ok none ∨
      r.Inside image ∧ ∃ picture, C.shrink o.maxSize (crop image r) = .ok picture ∧
        C.thumbnailPicture image bbox o = .ok (some picture) ∧ Fits o.maxSize picture ∧
          C.makeFaceThumbnail image bbox o = C.imencode picture o.jpegQuality) ∧
    (bbox.x1 ≤ bbox.x2 → bbox.y1 ≤ bbox.y2 →
      (∀ y x, WholePixel bbox image y x → r.Inside image ∧ r.Has y x ∧ ∀ c < 3,
        pixel (crop image r) (y - r.y1.toNat) (x - r.x1.toNat) c = pixel image y x c) ∧
      (C.thumbnailPicture image bbox o = .ok none → ¬ ∃ y x, WholePixel bbox image y x) ∧
      (C.makeFaceThumbnail image bbox o = .ok none → (∃ y x, WholePixel bbox image y x) →
        ∃ picture, C.thumbnailPicture image bbox o = .ok (some picture) ∧
          C.imencode picture o.jpegQuality = .ok none)) := by
  intro r
  have hinside : ∀ y x, r.Has y x → r.Inside image := fun y x h =>
    cropRegion_inside (h.1.1.trans_lt h.1.2) (h.2.1.trans_lt h.2.2)
  rcases Codec.thumbnailPicture_cases hC image bbox hmax with
    ⟨hout, hnone⟩ | ⟨hin, picture, hshrink, hsome, hfits⟩
  · have hreturn : C.makeFaceThumbnail image bbox o = .ok none := by
      rw [Codec.makeFaceThumbnail, hnone]
      rfl
    refine ⟨.inl ⟨hnone, hreturn⟩, fun hx hy => ?_⟩
    have hno : ∀ y x, ¬ WholePixel bbox image y x := fun y x h =>
      hout (hinside y x (cropRegion_has hmargin hx hy h))
    exact ⟨fun y x h => (hno y x h).elim, fun _ ⟨y, x, h⟩ => hno y x h,
      fun _ ⟨y, x, h⟩ => (hno y x h).elim⟩
  · have hencode : C.makeFaceThumbnail image bbox o = C.imencode picture o.jpegQuality := by
      rw [Codec.makeFaceThumbnail, hsome]
      rfl
    refine ⟨.inr ⟨hin, picture, hshrink, hsome, hfits, hencode⟩, fun hx hy => ⟨?_, ?_, ?_⟩⟩
    · intro y x h
      have hhas := cropRegion_has hmargin hx hy h
      exact ⟨hin, hhas, fun c hc => pixel_crop hin hhas hc⟩
    · intro hnone
      rw [hsome] at hnone
      cases hnone
    · intro hreturn _
      exact ⟨picture, hsome, hencode ▸ hreturn⟩

/-- Resizing to the nearest pixels, and an encoder that writes them as they are between the first
and the last marker of a JPEG file. -/
def nearestCodec : Codec where
  resize image w h :=
    if 1 ≤ w ∧ 1 ≤ h then
      .ok (ofPixels h.toNat w.toNat fun y x c =>
        pixel image (y * image.height / h.toNat) (x * image.width / w.toNat) c)
    else .error ⟨.valueError, "inv_scale_x > 0", []⟩
  imencode image _ := .ok (some (0xFF :: 0xD8 :: image.data ++ [0xFF, 0xD9]))

theorem nearestCodec_resizes : nearestCodec.Resizes := fun image w h _ _ hw hh =>
  ⟨_, if_pos ⟨hw, hh⟩, Int.toNat_of_nonneg (by omega), Int.toNat_of_nonneg (by omega)⟩

/-- A grey picture of four by four pixels. -/
def greyPicture : Image := ofPixels 4 4 fun _ _ _ => 128

theorem thumbnail_of_grey : ∃ picture thumbnail,
    nearestCodec.thumbnailPicture greyPicture ⟨1, 1, 3, 3⟩ { maxSize := 2 } = .ok (some picture) ∧
      Fits 2 picture ∧ (cropRegion greyPicture ⟨1, 1, 3, 3⟩ (3 / 10)).Has 2 1 ∧
        nearestCodec.makeFaceThumbnail greyPicture ⟨1, 1, 3, 3⟩ { maxSize := 2 } =
          .ok (some thumbnail) := by
  have hpixel : WholePixel ⟨1, 1, 3, 3⟩ greyPicture 2 1 :=
    ⟨by norm_num, by norm_num, by decide⟩
  obtain ⟨hcases, hfaithful⟩ := thumbnail_safe_and_faithful nearestCodec nearestCodec_resizes
    greyPicture ⟨1, 1, 3, 3⟩ { maxSize := 2 } (by norm_num) (by norm_num)
  obtain ⟨hshown, hnone, -⟩ := hfaithful (by norm_num) (by norm_num)
  rcases hcases with ⟨hempty, -⟩ | ⟨-, picture, -, hsome, hfits, hencode⟩
  · exact (hnone hempty ⟨2, 1, hpixel⟩).elim
  · exact ⟨picture, _, hsome, hfits, (hshown 2 1 hpixel).2.1, hencode⟩

end FaceRecognition.Imaging
