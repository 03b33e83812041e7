import FaceRecognition.Recognition.Forward
import Mathlib.Tactic.IntervalCases

/-!
# Every detection comes from one anchor

An anchor is a level, a cell of its grid and a slot. For a keypoint model all arrays of the
post-processing are images of one list of anchors: `level_eq` shows it for a level, where the rows
of the outputs and the cached centers are laid out alike, and `select_eq` carries it through the
stacking, the sort, NMS and the second sort, because indexing commutes with `map`.
-/

namespace FaceRecognition.Recognition

open Arrays

/-- The cells of a side that a level covers, the last one perhaps only in part. -/
def cells (side stride : ℕ) : ℕ := (side + stride - 1) / stride

/-- A model with nine outputs of the right shapes on a side that is a multiple of 32. -/
structure KeypointModel (D : SCRFDetector) : Prop where
  numOutputs : D.numOutputs = 9
  side : 32 ∣ D.inputSize
  rows : ∀ img idx stride, (stride, idx) ∈ featStrideFpn.zipIdx → ∀ k < 3,
    ((D.run img).getD (idx + k * 3) []).length =
      cells D.inputSize stride * cells D.inputSize stride * 2
  /-- One score, four distances and five offsets with two coordinates. -/
  columns : ∀ img, ∀ idx < 3, ∀ k < 3, ∀ row ∈ (D.run img).getD (idx + k * 3) [],
    row.length = [1, 4, 10].getD k 0

/-- The rows of a level: two for each cell of its grid. -/
def levelRows (side level : ℕ) : ℕ :=
  side / featStrideFpn.getD level 0 * (side / featStrideFpn.getD level 0) * 2

def levelCenters (side level : ℕ) : List Point :=
  anchorCenters 2 (side / featStrideFpn.getD level 0) (side / featStrideFpn.getD level 0)
    (featStrideFpn.getD level 0)

structure Anchor where
  level : ℕ
  x : ℕ
  y : ℕ
  slot : ℕ
  deriving DecidableEq, Repr

namespace Anchor

def stride (a : Anchor) : ℕ := featStrideFpn.getD a.level 0

structure Valid (side : ℕ) (a : Anchor) : Prop where
  level : a.level < 3
  x : a.x < side / a.stride
  y : a.y < side / a.stride
  slot : a.slot < 2

def row (side : ℕ) (a : Anchor) : ℕ := (a.y * (side / a.stride) + a.x) * 2 + a.slot

def center (a : Anchor) : Point := ⟨a.x * a.stride, a.y * a.stride⟩

section
variable (side : ℕ) (netOuts : List Tensor) (a : Anchor)

/-- The row of the anchor in the output `k` of its level. -/
def output (k : ℕ) : List ℚ := (netOuts.getD (a.level + k * 3) []).getD (a.row side) []

def score : ℚ := (a.output side netOuts 0).getD 0 0

def bbox : BBox :=
  distance2bboxRow a.center ((a.output side netOuts 1).map (· * (a.stride : ℚ)))

def kps : Landmarks :=
  distance2kpsRow a.center ((a.output side netOuts 2).map (· * (a.stride : ℚ)))

end

/-- The face of the anchor alone. -/
def face (side : ℕ) (netOuts : List Tensor) (detScale : ℚ) (a : Anchor) : DetectedFace where
  bbox := SCRFDetector.unscaleBBox detScale (a.bbox side netOuts)
  score := a.score side netOuts
  landmarks := SCRFDetector.unscaleKps detScale (a.kps side netOuts)

/-- The anchor of a row. -/
def ofRow (side level r : ℕ) : Anchor where
  level := level
  x := r / 2 % (side / featStrideFpn.getD level 0)
  y := r / 2 / (side / featStrideFpn.getD level 0)
  slot := r % 2

theorem row_ofRow (side level r : ℕ) : (ofRow side level r).row side = r := by
  show (r / 2 / (side / featStrideFpn.getD level 0) * (side / featStrideFpn.getD level 0) +
    r / 2 % (side / featStrideFpn.getD level 0)) * 2 + r % 2 = r
  rw [Nat.div_add_mod', Nat.div_add_mod']

theorem valid_ofRow {side level r : ℕ} (hlevel : level < 3) (hr : r < levelRows side level) :
    (ofRow side level r).Valid side := by
  have hcell : r / 2 < side / featStrideFpn.getD level 0 * (side / featStrideFpn.getD level 0) :=
    Nat.div_lt_of_lt_mul (Nat.mul_comm _ 2 ▸ hr)
  have hpos : 0 < side / featStrideFpn.getD level 0 := by
    refine Nat.pos_of_ne_zero fun h => ?_
    rw [h, Nat.zero_mul] at hcell
    exact Nat.not_lt_zero _ hcell
  exact ⟨hlevel, Nat.mod_lt _ hpos, Nat.div_lt_of_lt_mul hcell, Nat.mod_lt _ (by omega)⟩

theorem ofRow_injective (side level : ℕ) : Function.Injective (ofRow side level) := by
  intro r r' h
  rw [← row_ofRow side level r, h, row_ofRow]

end Anchor

/-! ### One level -/

theorem cells_eq {side stride : ℕ} (h : stride ∣ side) (hs : 0 < stride) :
    cells side stride = side / stride := by
  obtain ⟨k, rfl⟩ := h
  rw [cells, Nat.mul_div_cancel_left k hs, Nat.add_sub_assoc hs, Nat.mul_add_div hs,
    Nat.div_eq_of_lt (Nat.sub_lt hs Nat.one_pos), Nat.add_zero]

theorem levelCenters_eq (side level : ℕ) : levelCenters side level =
    (List.range (levelRows side level)).map fun r => (Anchor.ofRow side level r).center := by
  have hpair : ∀ p : Point, List.replicate 2 p = (List.range 2).map fun _ => p := fun _ => rfl
  rw [levelCenters, anchorCenters, if_pos (by omega), flatMap_range, List.flatMap_map]
  simp only [hpair]
  rw [flatMap_range]
  rfl

theorem flatten_column {t : Tensor} (h : ∀ row ∈ t, row.length = 1) :
    t.flatten = t.map fun row => row.getD 0 0 := by
  induction t with
  | nil => rfl
  | cons row t ih =>
    obtain ⟨s, rfl⟩ := List.length_eq_one_iff.1 (h row List.mem_cons_self)
    rw [List.flatten_cons, ih fun row hr => h row (List.mem_cons_of_mem _ hr)]
    rfl

namespace SCRFDetector

variable {D : SCRFDetector}

/-- The anchors of a level whose score reaches the threshold, in the order of the rows. -/
def found (D : SCRFDetector) (netOuts : List Tensor) (level : ℕ) : List Anchor :=
  ((List.range (levelRows D.inputSize level)).filter fun r =>
      D.detThreshold ≤ (Anchor.ofRow D.inputSize level r).score D.inputSize netOuts).map
        (Anchor.ofRow D.inputSize level)

section
variable (hD : KeypointModel D)
include hD

theorem config_eq : D.config = ⟨3, true, 2⟩ := by
  rw [config, hD.numOutputs]
  rfl

theorem stride_dvd {level : ℕ} (hlevel : level < 3) :
    featStrideFpn.getD level 0 ∣ D.inputSize ∧ 0 < featStrideFpn.getD level 0 := by
  have hside := hD.side
  interval_cases level
  · exact ⟨Dvd.dvd.trans (by decide) hside, by decide⟩
  · exact ⟨Dvd.dvd.trans (by decide) hside, by decide⟩
  · exact ⟨hside, by decide⟩

/-- The outputs of a level, one row for each anchor. -/
theorem output_eq (img : Image) {level k : ℕ} (hlevel : level < 3) (hk : k < 3) :
    (D.run img).getD (level + k * 3) [] =
      (List.range (levelRows D.inputSize level)).map fun r =>
        (Anchor.ofRow D.inputSize level r).output D.inputSize (D.run img) k := by
  have hmem : (featStrideFpn.getD level 0, level) ∈ featStrideFpn.zipIdx := by
    interval_cases level <;> decide
  have hlen := hD.rows img level _ hmem k hk
  rw [cells_eq (stride_dvd hD hlevel).1 (stride_dvd hD hlevel).2] at hlen
  refine (eq_map_range _ []).trans ?_
  rw [hlen]
  refine List.map_congr_left fun r _ => ?_
  rw [Anchor.output, Anchor.row_ofRow]
  rfl

theorem hasShape_output (img : Image) {level k : ℕ} (hlevel : level < 3) (hk : k < 3) :
    (D.run img)[level + k * 3]? = some ((D.run img).getD (level + k * 3) []) ∧
      HasShape ((D.run img).getD (level + k * 3) []) (levelRows D.inputSize level)
        ([1, 4, 10].getD k 0) := by
  have hlt : level + k * 3 < (D.run img).length := by
    rw [D.run_length, hD.numOutputs]
    omega
  refine ⟨by rw [List.getD_eq_getElem?_getD, List.getElem?_eq_getElem hlt]; rfl, ?_,
    hD.columns img level hlevel k hk⟩
  rw [output_eq hD img hlevel hk, List.length_map, List.length_range]

/-- A level has what its anchors have. -/
def levelOf (D : SCRFDetector) (netOuts : List Tensor) (level : ℕ) : Level where
  scores := (D.found netOuts level).map (Anchor.score D.inputSize netOuts)
  bboxes := (D.found netOuts level).map (Anchor.bbox D.inputSize netOuts)
  kpss := (D.found netOuts level).map (Anchor.kps D.inputSize netOuts)

theorem plainLevel_eq (img : Image) {level : ℕ} (hlevel : level < 3) :
    D.plainLevel D.detThreshold (featStrideFpn.getD level 0) (levelCenters D.inputSize level)
        ((D.run img).getD level []) ((D.run img).getD (level + 3) [])
        ((D.run img).getD (level + 3 * 2) []) = D.levelOf (D.run img) level := by
  have hscores : ((D.run img).getD level []).flatten =
      (List.range (levelRows D.inputSize level)).map fun r =>
        (Anchor.ofRow D.inputSize level r).score D.inputSize (D.run img) := by
    have hcolumn := hD.columns img level hlevel 0 (by omega)
    have hout := output_eq hD img hlevel (k := 0) (by omega)
    rw [Nat.zero_mul, Nat.add_zero] at hcolumn hout
    rw [flatten_column hcolumn, hout, List.map_map]
    rfl
  have hbboxes : List.zipWith distance2bboxRow (levelCenters D.inputSize level)
      (times (featStrideFpn.getD level 0) ((D.run img).getD (level + 3) [])) =
      (List.range (levelRows D.inputSize level)).map fun r =>
        (Anchor.ofRow D.inputSize level r).bbox D.inputSize (D.run img) := by
    have hout := output_eq hD img hlevel (k := 1) (by omega)
    rw [levelCenters_eq, times, hout, List.map_map, List.zipWith_map, List.zipWith_self]
    rfl
  have hkpss : List.zipWith distance2kpsRow (levelCenters D.inputSize level)
      (times (featStrideFpn.getD level 0) ((D.run img).getD (level + 3 * 2) [])) =
      (List.range (levelRows D.inputSize level)).map fun r =>
        (Anchor.ofRow D.inputSize level r).kps D.inputSize (D.run img) := by
    have hout := output_eq hD img hlevel (k := 2) (by omega)
    rw [levelCenters_eq, times, hout, List.map_map, List.zipWith_map, List.zipWith_self]
    rfl
  have hrange : ∀ r ∈ (List.range (levelRows D.inputSize level)).filter fun r =>
        D.detThreshold ≤ (Anchor.ofRow D.inputSize level r).score D.inputSize (D.run img),
      r < levelRows D.inputSize level :=
    fun r hr => List.mem_range.1 (List.mem_filter.1 hr).1
  rw [plainLevel, config_eq hD]
  dsimp only
  rw [hscores, hbboxes, hkpss, whereIdx_map_range, gather_map_range _ hrange,
    gather_map_range _ hrange, gather_map_range _ hrange, levelOf, found, List.map_map,
    List.map_map, List.map_map]
  rfl

theorem levelAt_eq (img : Image) {level : ℕ} (hlevel : level < 3) :
    D.levelAt (D.run img) D.detThreshold (featStrideFpn.getD level 0, level) =
      .ok (D.levelOf (D.run img) level) := by
  obtain ⟨hscores, hscoreShape⟩ := hasShape_output hD img hlevel (k := 0) (by omega)
  obtain ⟨hbboxes, hbboxShape⟩ := hasShape_output hD img hlevel (k := 1) (by omega)
  have hkps := hasShape_output hD img hlevel (k := 2) (by omega)
  have hcenters : (levelCenters D.inputSize level).length = levelRows D.inputSize level := by
    rw [levelCenters_eq, List.length_map, List.length_range]
  rw [Nat.zero_mul, Nat.add_zero] at hscores hscoreShape
  rw [Nat.one_mul] at hbboxes hbboxShape
  rw [← plainLevel_eq hD img hlevel, levelAt, config_eq hD]
  dsimp only
  rw [netOut_eq_ok.2 hscores, Fallible.ok_bind, netOut_eq_ok.2 hbboxes, Fallible.ok_bind]
  refine level_of_shapes hcenters hscoreShape hbboxShape fun _ => ?_
  rw [config_eq hD]
  exact hkps

end

/-- The anchors of all levels, in the order in which their rows are stacked. -/
def allFound (D : SCRFDetector) (netOuts : List Tensor) : List Anchor :=
  (List.range 3).flatMap (D.found netOuts)

theorem forward_eq (hD : KeypointModel D) {cache : CenterCache} (h : Faithful D cache)
    (detImg : Image) : (D.forward detImg D.detThreshold cache).1 =
      .ok ((List.range 3).map (D.levelOf (D.run detImg))) := by
  have hstrides : featStrideFpn.zipIdx =
      (List.range 3).map fun level => (featStrideFpn.getD level 0, level) := rfl
  rw [forward, (levels_eq _ _ _ h).1, hstrides, List.mapM_map]
  exact Fallible.mapM_ok fun level hl => levelAt_eq hD detImg (List.mem_range.1 hl)

/-- The stacked arrays. -/
theorem stacked_eq (netOuts : List Tensor) :
    ((List.range 3).map (D.levelOf netOuts)).flatMap Level.scores =
        (D.allFound netOuts).map (Anchor.score D.inputSize netOuts) ∧
      ((List.range 3).map (D.levelOf netOuts)).flatMap Level.bboxes =
        (D.allFound netOuts).map (Anchor.bbox D.inputSize netOuts) ∧
      ((List.range 3).map (D.levelOf netOuts)).flatMap Level.kpss =
        (D.allFound netOuts).map (Anchor.kps D.inputSize netOuts) := by
  rw [allFound, List.map_flatMap, List.map_flatMap, List.map_flatMap, List.flatMap_map,
    List.flatMap_map, List.flatMap_map]
  exact ⟨rfl, rfl, rfl⟩

theorem mem_found {netOuts : List Tensor} {level : ℕ} {a : Anchor} (hlevel : level < 3)
    (h : a ∈ D.found netOuts level) : a.level = level ∧ a.Valid D.inputSize ∧
      D.detThreshold ≤ a.score D.inputSize netOuts := by
  obtain ⟨r, hr, rfl⟩ := List.mem_map.1 h
  obtain ⟨hrange, hscore⟩ := List.mem_filter.1 hr
  exact ⟨rfl, Anchor.valid_ofRow hlevel (List.mem_range.1 hrange), by simpa using hscore⟩

theorem mem_allFound {netOuts : List Tensor} {a : Anchor} (h : a ∈ D.allFound netOuts) :
    a.Valid D.inputSize ∧ D.detThreshold ≤ a.score D.inputSize netOuts := by
  obtain ⟨level, hlevel, ha⟩ := List.mem_flatMap.1 h
  exact (mem_found (List.mem_range.1 hlevel) ha).2

theorem nodup_allFound (netOuts : List Tensor) : (D.allFound netOuts).Nodup := by
  refine List.nodup_flatMap.2 ⟨fun level _ => ?_, ?_⟩
  · exact (List.nodup_range.filter _).map (Anchor.ofRow_injective D.inputSize level)
  · refine List.nodup_range.imp_of_mem fun hl hl' hne a ha ha' => hne ?_
    rw [← (mem_found (List.mem_range.1 hl) ha).1, (mem_found (List.mem_range.1 hl') ha').1]

/-! ### From the stacked arrays to the faces -/

theorem nmsLoop_sublist (dets : List Det) (thresh : ℚ) (order : List ℕ) :
    (nmsLoop dets thresh order).Sublist order := by
  fun_induction nmsLoop with
  | case1 => exact List.Sublist.refl _
  | case2 i rest ih => exact (ih.trans (remaining_sublist dets thresh i rest)).cons_cons i

theorem nms_nodup (dets : List Det) (thresh : ℚ) : (D.nms dets thresh).Nodup :=
  (D.argsort.descending_nodup _).sublist (nmsLoop_sublist dets thresh _)

/-- The boxes and scores of anchors, as rows. -/
def detOf (side : ℕ) (netOuts : List Tensor) (detScale : ℚ) (a : Anchor) : Det :=
  ⟨unscaleBBox detScale (a.bbox side netOuts), a.score side netOuts⟩

/-- The anchors NMS leaves, largest score first. -/
def survivors (D : SCRFDetector) (netOuts : List Tensor) (detScale : ℚ) : List Anchor :=
  let anchors := D.allFound netOuts
  let sorted := gather anchors
    (D.argsort.descending (anchors.map (Anchor.score D.inputSize netOuts)))
  gather sorted (D.nms (sorted.map (detOf D.inputSize netOuts detScale)) D.nmsThreshold)

/-- The indices `keepTop` selects. -/
def topIdx (D : SCRFDetector) (netOuts : List Tensor) (detScale : ℚ) (imgShape : ℕ × ℕ)
    (maxNum : ℕ) : List ℕ :=
  (D.argsort.descending ((D.survivors netOuts detScale).map fun a =>
    priority imgShape (a.face D.inputSize netOuts detScale).bbox)).take maxNum

theorem survivors_subset (netOuts : List Tensor) (detScale : ℚ) :
    D.survivors netOuts detScale ⊆ D.allFound netOuts :=
  List.Subset.trans (gather_subset _ _) (gather_subset _ _)

theorem survivors_nodup (netOuts : List Tensor) (detScale : ℚ) :
    (D.survivors netOuts detScale).Nodup :=
  gather_nodup (gather_nodup (nodup_allFound netOuts) (D.argsort.descending_nodup _))
    (nms_nodup _ _)

theorem topIdx_nodup (netOuts : List Tensor) (detScale : ℚ) (imgShape : ℕ × ℕ) (maxNum : ℕ) :
    (D.topIdx netOuts detScale imgShape maxNum).Nodup :=
  (D.argsort.descending_nodup _).sublist (List.take_sublist _ _)

/-- The landmarks of an anchor in the image. -/
def landmarksOf (side : ℕ) (netOuts : List Tensor) (detScale : ℚ) (a : Anchor) : Landmarks :=
  unscaleKps detScale (a.kps side netOuts)

theorem faces_eq (side : ℕ) (netOuts : List Tensor) (detScale : ℚ) (anchors : List Anchor) :
    List.zipWith (fun (d : Det) kps => (⟨d.bbox, d.score, kps⟩ : DetectedFace))
        (anchors.map (detOf side netOuts detScale))
        (anchors.map (landmarksOf side netOuts detScale)) =
      anchors.map (Anchor.face side netOuts detScale) := by
  rw [List.zipWith_map, List.zipWith_self]
  rfl

theorem keepTop_eq (netOuts : List Tensor) (detScale : ℚ) (imgShape : ℕ × ℕ) (maxNum : ℕ) :
    D.keepTop ((D.survivors netOuts detScale).map (detOf D.inputSize netOuts detScale))
        ((D.survivors netOuts detScale).map (landmarksOf D.inputSize netOuts detScale)) imgShape
        maxNum =
      ((gather (D.survivors netOuts detScale) (D.topIdx netOuts detScale imgShape maxNum)).map
          (detOf D.inputSize netOuts detScale),
        (gather (D.survivors netOuts detScale) (D.topIdx netOuts detScale imgShape maxNum)).map
          (landmarksOf D.inputSize netOuts detScale)) := by
  rw [keepTop, gather_map, gather_map, List.map_map]
  rfl

theorem select_eq (hD : KeypointModel D) {netOuts : List Tensor} {levels : List Level}
    (hscores : levels.flatMap Level.scores =
      (D.allFound netOuts).map (Anchor.score D.inputSize netOuts))
    (hbboxes : levels.flatMap Level.bboxes =
      (D.allFound netOuts).map (Anchor.bbox D.inputSize netOuts))
    (hkpss : levels.flatMap Level.kpss = (D.allFound netOuts).map (Anchor.kps D.inputSize netOuts))
    (detScale : ℚ) (imgShape : ℕ × ℕ) (maxNum : ℤ) :
    D.select levels detScale imgShape maxNum =
      (if 0 < maxNum ∧ maxNum < (D.survivors netOuts detScale).length then
        gather (D.survivors netOuts detScale) (D.topIdx netOuts detScale imgShape maxNum.toNat)
      else D.survivors netOuts detScale).map (Anchor.face D.inputSize netOuts detScale) := by
  have hpre : List.zipWith Det.mk
      (((D.allFound netOuts).map (Anchor.bbox D.inputSize netOuts)).map (unscaleBBox detScale))
      ((D.allFound netOuts).map (Anchor.score D.inputSize netOuts)) =
        (D.allFound netOuts).map (detOf D.inputSize netOuts detScale) := by
    rw [List.map_map, List.zipWith_map, List.zipWith_self]
    rfl
  have hkps : ((D.allFound netOuts).map (Anchor.kps D.inputSize netOuts)).map
      (unscaleKps detScale) = (D.allFound netOuts).map (landmarksOf D.inputSize netOuts detScale) :=
    List.map_map
  have hsurvivors : gather (gather (D.allFound netOuts)
      (D.argsort.descending ((D.allFound netOuts).map (Anchor.score D.inputSize netOuts))))
        (D.nms ((gather (D.allFound netOuts) (D.argsort.descending
          ((D.allFound netOuts).map (Anchor.score D.inputSize netOuts)))).map
            (detOf D.inputSize netOuts detScale)) D.nmsThreshold) = D.survivors netOuts detScale :=
    rfl
  rw [select, hscores, hbboxes, hkpss, config_eq hD]
  dsimp only
  rw [hpre, hkps, gather_map, gather_map, gather_map, gather_map, if_pos (rfl : true = true),
    hsurvivors, List.length_map, List.length_map]
  have hnone : (D.allFound netOuts).length = 0 → D.survivors netOuts detScale = [] := fun h =>
    List.eq_nil_of_subset_nil (List.length_eq_zero_iff.1 h ▸ survivors_subset netOuts detScale)
  split_ifs with hempty htop htop
  · rw [hnone hempty, List.length_nil] at htop
    omega
  · rw [hnone hempty]
    rfl
  · rw [keepTop_eq]
    exact faces_eq _ _ _ _
  · exact faces_eq _ _ _ _

/-! ### The faces a call returns -/

/-- The faces are those of the anchors, which are different and reach the threshold. -/
structure FromAnchors (D : SCRFDetector) (netOuts : List Tensor) (detScale : ℚ)
    (anchors : List Anchor) (faces : List DetectedFace) : Prop where
  faces_eq : faces = anchors.map (Anchor.face D.inputSize netOuts detScale)
  distinct : anchors.Nodup
  valid : ∀ a ∈ anchors, a.Valid D.inputSize
  score_ge : ∀ a ∈ anchors, D.detThreshold ≤ a.score D.inputSize netOuts

/-- `faces` is what `max_num` leaves of the faces `all`. -/
def Selection (D : SCRFDetector) (netOuts : List Tensor) (detScale : ℚ) (imgShape : ℕ × ℕ)
    (maxNum : ℤ) (all faces : List DetectedFace) : Prop :=
  ∃ anchors kept, FromAnchors D netOuts detScale anchors all ∧
    FromAnchors D netOuts detScale kept faces ∧ kept ⊆ anchors ∧ (maxNum ≤ 0 → kept = anchors) ∧
    (0 < maxNum → kept.length = min maxNum.toNat anchors.length ∧
      ∀ a ∈ anchors, a ∉ kept → ∀ b ∈ kept,
        priority imgShape (a.face D.inputSize netOuts detScale).bbox ≤
          priority imgShape (b.face D.inputSize netOuts detScale).bbox)

theorem fromAnchors_of_subset {netOuts : List Tensor} {detScale : ℚ} {anchors : List Anchor}
    (hnodup : anchors.Nodup) (hsub : anchors ⊆ D.survivors netOuts detScale) :
    FromAnchors D netOuts detScale anchors
      (anchors.map (Anchor.face D.inputSize netOuts detScale)) where
  faces_eq := rfl
  distinct := hnodup
  valid _ ha := (mem_allFound (survivors_subset netOuts detScale (hsub ha))).1
  score_ge _ ha := (mem_allFound (survivors_subset netOuts detScale (hsub ha))).2

theorem topIdx_dominates {netOuts : List Tensor} {detScale : ℚ} {imgShape : ℕ × ℕ} {maxNum : ℕ}
    {a b : Anchor} (ha : a ∈ D.survivors netOuts detScale)
    (hdropped : a ∉ gather (D.survivors netOuts detScale)
      (D.topIdx netOuts detScale imgShape maxNum))
    (hb : b ∈ gather (D.survivors netOuts detScale)
      (D.topIdx netOuts detScale imgShape maxNum)) :
    priority imgShape (a.face D.inputSize netOuts detScale).bbox ≤
      priority imgShape (b.face D.inputSize netOuts detScale).bbox := by
  obtain ⟨i, hi, hbi⟩ := List.mem_filterMap.1 hb
  obtain ⟨j, hj⟩ := List.mem_iff_getElem?.1 ha
  have hjdropped : j ∉ D.topIdx netOuts detScale imgShape maxNum := fun hmem =>
    hdropped (List.mem_filterMap.2 ⟨j, hmem, hj⟩)
  obtain ⟨hjlt, -⟩ := List.getElem?_eq_some_iff.1 hj
  refine D.argsort.le_of_take _ hi ?_ hjdropped ?_ ?_
  · rwa [List.length_map]
  · rw [List.getElem?_map, hbi]
    rfl
  · rw [List.getElem?_map, hj]
    rfl

theorem length_topIdx (netOuts : List Tensor) (detScale : ℚ) (imgShape : ℕ × ℕ) (maxNum : ℕ) :
    (gather (D.survivors netOuts detScale) (D.topIdx netOuts detScale imgShape maxNum)).length =
      min maxNum (D.survivors netOuts detScale).length := by
  have hperm := D.argsort.descending_perm ((D.survivors netOuts detScale).map fun a =>
    priority imgShape (a.face D.inputSize netOuts detScale).bbox)
  have hlt : ∀ i ∈ D.topIdx netOuts detScale imgShape maxNum,
      i < (D.survivors netOuts detScale).length := by
    intro i hi
    have hmem := hperm.mem_iff.1 (List.mem_of_mem_take hi)
    rwa [List.length_map, List.mem_range] at hmem
  rw [length_gather hlt, topIdx, List.length_take, hperm.length_eq, List.length_range,
    List.length_map]

theorem selection_detectAt (hD : KeypointModel D) {cache cache' : CenterCache}
    (hcache : Warm D cache) (hcache' : Warm D cache') (detImg : Image) (detScale : ℚ)
    (imgShape : ℕ × ℕ) (maxNum : ℤ) :
    ∃ all faces, (D.detectAt detImg detScale imgShape 0 cache).1 = .ok all ∧
      (D.detectAt detImg detScale imgShape maxNum cache').1 = .ok faces ∧
        Selection D (D.run detImg) detScale imgShape maxNum all faces := by
  have hfaces : ∀ {cache : CenterCache}, Warm D cache → ∀ maxNum : ℤ,
      (D.detectAt detImg detScale imgShape maxNum cache).1 =
        .ok ((if 0 < maxNum ∧ maxNum < (D.survivors (D.run detImg) detScale).length then
          gather (D.survivors (D.run detImg) detScale)
            (D.topIdx (D.run detImg) detScale imgShape maxNum.toNat)
        else D.survivors (D.run detImg) detScale).map
          (Anchor.face D.inputSize (D.run detImg) detScale)) := by
    intro cache hwarm maxNum
    obtain ⟨hscores, hbboxes, hkpss⟩ := stacked_eq (D := D) (D.run detImg)
    rw [detectAt]
    dsimp only
    rw [forward_eq hD hwarm.faithful detImg]
    exact congrArg Except.ok (select_eq hD hscores hbboxes hkpss detScale imgShape maxNum)
  have hnodup := survivors_nodup (D := D) (D.run detImg) detScale
  refine ⟨_, _, hfaces hcache 0, hfaces hcache' maxNum, ?_⟩
  rw [if_neg (fun h => lt_irrefl 0 h.1)]
  refine ⟨D.survivors (D.run detImg) detScale, _,
    fromAnchors_of_subset hnodup (List.Subset.refl _), fromAnchors_of_subset ?_ ?_, ?_, ?_, ?_⟩
  · split_ifs
    · exact gather_nodup hnodup (topIdx_nodup _ _ _ _)
    · exact hnodup
  · split_ifs
    · exact gather_subset _ _
    · exact List.Subset.refl _
  · split_ifs
    · exact gather_subset _ _
    · exact List.Subset.refl _
  · exact fun hmax => if_neg fun h => absurd h.1 (not_lt.2 hmax)
  · intro hmax
    split_ifs with htop
    · exact ⟨length_topIdx _ _ _ _, fun a ha hdropped b hb => topIdx_dominates ha hdropped hb⟩
    · refine ⟨?_, fun a ha hdropped => absurd ha hdropped⟩
      have hle : (D.survivors (D.run detImg) detScale).length ≤ maxNum :=
        not_lt.1 fun h => htop ⟨hmax, h⟩
      omega

/-! ### A whole call -/

theorem letterbox_pos {imageBgr detImg : Image} {detScale : ℚ}
    (h : D.letterbox imageBgr = .ok (detImg, detScale)) : 0 < detScale := by
  rw [letterbox] at h
  split_ifs at h with hsize hheight
  have hresized : ∀ newW newH : ℤ, (D.resize imageBgr newW newH).map (fun resized =>
      (canvas D.inputSize resized, (newH : ℚ) / imageBgr.height)) = .ok (detImg, detScale) →
        0 < detScale := by
    intro newW newH hmap
    cases hresize : D.resize imageBgr newW newH with
    | error e =>
      rw [hresize] at hmap
      cases hmap
    | ok resized =>
      rw [hresize] at hmap
      cases hmap
      have hnewH : (0 : ℚ) < newH := Int.cast_pos.2 (D.resize_pos hresize).2
      exact div_pos hnewH (Nat.cast_pos.2 (Nat.pos_of_ne_zero hheight))
  dsimp only at h
  split_ifs at h
  · exact hresized _ _ h
  · exact hresized _ _ h

theorem detections_from_anchors (hD : KeypointModel D) {cache cache' : CenterCache}
    (hcache : Warm D cache) (hcache' : Warm D cache') :
    (∀ detImg detScale imgShape maxNum, 0 < detScale →
      ∃ all faces, (D.detectAt detImg detScale imgShape 0 cache).1 = .ok all ∧
        (D.detectAt detImg detScale imgShape maxNum cache').1 = .ok faces ∧
          Selection D (D.run detImg) detScale imgShape maxNum all faces) ∧
    ∀ imageBgr maxNum faces, (D.detect imageBgr maxNum cache').1 = .ok faces →
      ∃ detImg detScale all, D.letterbox imageBgr = .ok (detImg, detScale) ∧ 0 < detScale ∧
        (D.detect imageBgr 0 cache).1 = .ok all ∧
        Selection D (D.run detImg) detScale (imageBgr.height, imageBgr.width) maxNum all faces := by
  refine ⟨fun detImg detScale imgShape maxNum _ =>
    selection_detectAt hD hcache hcache' detImg detScale imgShape maxNum,
    fun imageBgr maxNum faces h => ?_⟩
  rw [detect] at h ⊢
  cases hletterbox : D.letterbox imageBgr with
  | error e =>
    rw [hletterbox] at h
    cases h
  | ok r =>
    obtain ⟨detImg, detScale⟩ := r
    rw [hletterbox] at h
    obtain ⟨all, faces', hall, hfaces, hselection⟩ := selection_detectAt hD hcache hcache' detImg
      detScale (imageBgr.height, imageBgr.width) maxNum
    obtain rfl := Except.ok.inj (hfaces.symm.trans h)
    exact ⟨detImg, detScale, all, rfl, letterbox_pos hletterbox, hall, hselection⟩

/-- What calls came before makes no difference to a call. -/
theorem detect_eq_cold {cache : CenterCache} (h : Warm D cache) (imageBgr : Image) (maxNum : ℤ) :
    (D.detect imageBgr maxNum cache).1 = (D.detect imageBgr maxNum []).1 := by
  rw [detect, detect]
  cases D.letterbox imageBgr with
  | error e => rfl
  | ok r =>
    have hforward : (D.forward r.1 D.detThreshold cache).1 = (D.forward r.1 D.detThreshold []).1 :=
      (levels_eq _ _ _ h.faithful).1.trans (levels_eq _ _ _ faithful_nil).1.symm
    exact congrArg (Except.map fun levels => D.select levels _ _ _) hforward

/-! ### A detector with the same output everywhere -/

def flatOutputs : List Tensor :=
  [1, 4, 10].flatMap fun columns => [32, 8, 2].map fun rows =>
    List.replicate rows (List.replicate columns (3 / 4))

def flatDetector : SCRFDetector where
  numOutputs := 9
  run _ := flatOutputs
  run_length _ := rfl
  resize image w h :=
    if 0 < w ∧ 0 < h then .ok ⟨h.toNat, w.toNat, image.data⟩
    else .error ⟨.valueError, "inv_scale_x > 0", []⟩
  resize_pos h := by
    split_ifs at h with hpos
    exact hpos
  argsort := .byInsertion
  inputSize := 32
  detThreshold := 1 / 2
  nmsThreshold := 2 / 5

theorem keypointModel_flat : KeypointModel flatDetector where
  numOutputs := rfl
  side := Nat.dvd_refl 32
  rows img idx stride hmem k hk := by
    have hcases : (stride = 8 ∧ idx = 0) ∨ (stride = 16 ∧ idx = 1) ∨ (stride = 32 ∧ idx = 2) := by
      simpa [featStrideFpn] using hmem
    rcases hcases with ⟨rfl, rfl⟩ | ⟨rfl, rfl⟩ | ⟨rfl, rfl⟩ <;> interval_cases k <;> rfl
  columns img idx hidx k hk row hrow := by
    interval_cases idx <;> interval_cases k <;> rw [List.eq_of_mem_replicate hrow] <;> rfl

theorem detections_from_anchors_flat :
    ∃ all faces, (flatDetector.detectAt ⟨32, 32, []⟩ (32 / 100) (100, 100) 0 []).1 = .ok all ∧
      (flatDetector.detectAt ⟨32, 32, []⟩ (32 / 100) (100, 100) 1 []).1 = .ok faces ∧
        Selection flatDetector flatOutputs (32 / 100) (100, 100) 1 all faces := by
  have hcold : Warm flatDetector [] := ⟨[], rfl⟩
  exact (detections_from_anchors keypointModel_flat hcold hcold).1 ⟨32, 32, []⟩ (32 / 100)
    (100, 100) 1 (by norm_num)

end SCRFDetector

end FaceRecognition.Recognition
