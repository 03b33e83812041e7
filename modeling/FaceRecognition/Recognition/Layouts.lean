import FaceRecognition.Recognition.Forward

/-!
# Layouts of the network outputs

`_init_anchor_config` infers from the number of outputs where the scores, the boxes and the
landmarks of a level are, and `_forward` reads them for the three strides 8, 16 and 32. The two only
fit for one of the counts that the fallback branch accepts (`decodes_completely_iff`): for the others
a pass reads an output that is not there (`pass_raises`), takes boxes for scores, or leaves the
scores of the levels from the fourth on unread.
-/

namespace FaceRecognition.Recognition

open Arrays

/-- The outputs that are read for the level `idx`. -/
def levelReads (c : AnchorConfig) (idx : ℕ) : List ℕ :=
  [idx, idx + c.fmc] ++ if c.useKps then [idx + c.fmc * 2] else []

theorem levelReads_lt_iff (c : AnchorConfig) (idx n : ℕ) : (∀ i ∈ levelReads c idx, i < n) ↔
    (idx < n ∧ idx + c.fmc < n) ∧ (c.useKps = true → idx + c.fmc * 2 < n) := by
  cases huse : c.useKps <;> simp [levelReads, huse, and_assoc]

/-- The outputs that are read as scores, one for each stride. -/
def scoreReads : List ℕ := featStrideFpn.zipIdx.map Prod.snd

def passReads (c : AnchorConfig) : List ℕ := scoreReads.flatMap (levelReads c)

namespace SCRFDetector

variable {D : SCRFDetector} {netOuts : List Tensor} {threshold : ℚ}

/-! ### The reads of a pass -/

theorem netOut_returns_iff {i : ℕ} :
    (∃ t, netOut netOuts i = .ok t) ↔ i < netOuts.length := by
  simp [netOut_eq_ok, List.getElem?_eq_some_iff]

/-- A level that is decoded has read outputs that are there, and keeps the scores from the threshold
on, each with its box. -/
theorem levelAt_ok {s : ℕ × ℕ} {level : Level} (h : D.levelAt netOuts threshold s = .ok level) :
    (∀ i ∈ levelReads D.config s.2, i < netOuts.length) ∧
      level.scores = ((netOuts.getD s.2 []).flatten.filter fun score => threshold ≤ score) ∧
        level.bboxes.length = level.scores.length := by
  obtain ⟨scores, hscores, h⟩ := Fallible.bind_eq_ok.1 h
  obtain ⟨bboxPreds, hbboxes, h⟩ := Fallible.bind_eq_ok.1 h
  obtain ⟨decoded, -, h⟩ := Fallible.bind_eq_ok.1 h
  obtain ⟨bboxes, htake, h⟩ := Fallible.bind_eq_ok.1 h
  have hread : s.2 < netOuts.length ∧ s.2 + D.config.fmc < netOuts.length :=
    ⟨netOut_returns_iff.1 ⟨_, hscores⟩, netOut_returns_iff.1 ⟨_, hbboxes⟩⟩
  have hkept : gather scores.flatten (whereIdx (fun score => threshold ≤ score) scores.flatten) =
      ((netOuts.getD s.2 []).flatten.filter fun score => threshold ≤ score) := by
    rw [gather_whereIdx, List.getD_eq_getElem?_getD, netOut_eq_ok.1 hscores]
    rfl
  have hlength : bboxes.length = (gather scores.flatten
      (whereIdx (fun score => threshold ≤ score) scores.flatten)).length := by
    rw [takeRows_eq_ok htake, length_gather fun i hi => mem_whereIdx hi]
  rw [levelReads_lt_iff]
  split_ifs at h with huse
  · obtain ⟨kpsPreds, hkps, h⟩ := Fallible.bind_eq_ok.1 h
    obtain ⟨kpss, -, h⟩ := Fallible.bind_eq_ok.1 h
    obtain ⟨kept, -, h⟩ := Fallible.bind_eq_ok.1 h
    obtain rfl := Except.ok.inj h
    exact ⟨⟨hread, fun _ => netOut_returns_iff.1 ⟨_, hkps⟩⟩, hkept, hlength⟩
  · obtain rfl := Except.ok.inj h
    exact ⟨⟨hread, fun hkps => absurd hkps huse⟩, hkept, hlength⟩

/-! ### The counts that fit -/

theorem mem_scoreReads {k : ℕ} : k ∈ scoreReads ↔ k < 3 := by
  have hreads : scoreReads = List.range 3 := rfl
  rw [hreads, List.mem_range]

theorem passReads_lt_iff (c : AnchorConfig) (n : ℕ) : (∀ i ∈ passReads c, i < n) ↔
    2 + c.fmc < n ∧ (c.useKps = true → 2 + c.fmc * 2 < n) := by
  have hlevels : (∀ i ∈ passReads c, i < n) ↔ ∀ idx ∈ scoreReads, ∀ i ∈ levelReads c idx, i < n :=
    List.forall_mem_flatMap
  rw [hlevels]
  simp only [levelReads_lt_iff, mem_scoreReads]
  constructor
  · intro h
    exact ⟨(h 2 (by omega)).1.2, (h 2 (by omega)).2⟩
  · rintro ⟨hboxes, hkps⟩ idx hidx
    exact ⟨⟨by omega, by omega⟩, fun huse => lt_of_le_of_lt (by omega) (hkps huse)⟩

/-- The counts whose outputs are all there. -/
theorem passReads_fit_iff (n : ℕ) :
    (∀ i ∈ passReads (initAnchorConfig n), i < n) ↔ 5 ≤ n ∧ n ≤ 9 ∨ n = 15 := by
  rw [passReads_lt_iff]
  by_cases h6 : n = 6
  · subst h6
    decide
  by_cases h9 : n = 9
  · subst h9
    decide
  by_cases h15 : n = 15
  · subst h15
    decide
  rw [initAnchorConfig, if_neg h6, if_neg h9, if_neg h15]
  simp only [decide_eq_true_eq]
  omega

/-- Three levels with scores and boxes, with landmarks or without them, and what passes for two or
three levels with an output more. -/
theorem layout_fits_iff (n : ℕ) : ((∀ i ∈ passReads (initAnchorConfig n), i < n) ∧
    ∀ k < (initAnchorConfig n).fmc, k ∈ scoreReads) ↔ n = 5 ∨ n = 6 ∨ n = 7 ∨ n = 9 := by
  have hscores : (∀ k < (initAnchorConfig n).fmc, k ∈ scoreReads) ↔
      (initAnchorConfig n).fmc ≤ 3 := by
    simp only [mem_scoreReads]
    exact ⟨fun h => not_lt.1 fun hlt => lt_irrefl _ (h 3 hlt), fun h k hk => hk.trans_le h⟩
  rw [hscores, passReads_fit_iff]
  constructor
  · rintro ⟨hcount, hfmc⟩
    have hsmall : n ≠ 8 ∧ n ≠ 15 := by
      constructor <;> rintro rfl <;> exact absurd hfmc (by decide)
    omega
  · rintro (rfl | rfl | rfl | rfl) <;> decide

/-- The rows of the outputs of a level: the level `k` has the stride `8 * 2 ^ k`. -/
def anchorRows (c : AnchorConfig) (side k : ℕ) : ℕ :=
  side / (8 * 2 ^ k) * (side / (8 * 2 ^ k)) * c.numAnchors

/-- Scores, boxes and landmarks, as far as there are any, with a row for each anchor. -/
def HasLayout (c : AnchorConfig) (side : ℕ) (netOuts : List Tensor) : Prop :=
  ∀ k < c.fmc, (∀ t ∈ netOuts[k]?, HasShape t (anchorRows c side k) 1) ∧
    (∀ t ∈ netOuts[k + c.fmc]?, HasShape t (anchorRows c side k) 4) ∧
      (c.useKps = true → ∀ t ∈ netOuts[k + c.fmc * 2]?, HasShape t (anchorRows c side k) 10)

instance (t : Tensor) (rows columns : ℕ) : Decidable (HasShape t rows columns) :=
  decidable_of_iff (t.length = rows ∧ ∀ row ∈ t, row.length = columns)
    ⟨fun h => ⟨h.1, h.2⟩, fun h => ⟨h.rows, h.columns⟩⟩

instance (c : AnchorConfig) (side : ℕ) (netOuts : List Tensor) :
    Decidable (HasLayout c side netOuts) :=
  inferInstanceAs (Decidable (∀ _ < _, _))

/-- The model has outputs of the shapes that its layout says. -/
def LaidOut (D : SCRFDetector) : Prop := ∀ img, HasLayout D.config D.inputSize (D.run img)

/-- A pass reads outputs that are there, the scores of all levels among them, and keeps those from
the threshold on, with their boxes. -/
structure DecodesCompletely (D : SCRFDetector) (detImg : Image) (threshold : ℚ)
    (cache : CenterCache) : Prop where
  inRange : ∀ i ∈ passReads D.config, i < D.numOutputs
  scoresRead : ∀ k < D.config.fmc, k ∈ scoreReads
  kept : ∃ ls, (D.forward detImg threshold cache).1 = .ok ls ∧
    ∀ k < D.config.fmc, ∃ level, ls[k]? = some level ∧
      level.scores = (((D.run detImg).getD k []).flatten.filter fun s => threshold ≤ s) ∧
        level.bboxes.length = level.scores.length

section
variable {cache : CenterCache} {detImg : Image}

/-- A pass that returns has read outputs that are there, and has decoded three levels. -/
theorem of_forward_ok (hcache : Faithful D cache) {ls : List Level}
    (h : (D.forward detImg threshold cache).1 = .ok ls) :
    (∀ i ∈ passReads D.config, i < D.numOutputs) ∧
      ∀ k ∈ scoreReads, ∃ level, ls[k]? = some level ∧
        level.scores = (((D.run detImg).getD k []).flatten.filter fun s => threshold ≤ s) ∧
          level.bboxes.length = level.scores.length := by
  rw [forward, (levels_eq _ _ _ hcache).1] at h
  have hlevel : ∀ k ∈ scoreReads, ∃ stride level, ls[k]? = some level ∧
      D.levelAt (D.run detImg) threshold (stride, k) = .ok level := by
    intro k hk
    obtain ⟨⟨stride, idx⟩, hstride, rfl⟩ := List.mem_map.1 hk
    have hget : featStrideFpn.zipIdx[idx]? = some (stride, idx) := by
      rw [List.getElem?_zipIdx, List.mem_zipIdx_iff_getElem?.1 hstride, Option.map_some,
        Nat.zero_add]
    obtain ⟨level, hok, hlevel⟩ := Fallible.getElem?_of_mapM h hget
    exact ⟨stride, level, hlevel, hok⟩
  constructor
  · rw [passReads, List.forall_mem_flatMap]
    intro k hk
    obtain ⟨stride, level, -, hok⟩ := hlevel k hk
    rw [← D.run_length detImg]
    exact (levelAt_ok hok).1
  · intro k hk
    obtain ⟨stride, level, hget, hok⟩ := hlevel k hk
    exact ⟨level, hget, (levelAt_ok hok).2⟩

/-- **Every pass raises** for less than five outputs, and from ten on except for fifteen. -/
theorem pass_raises (hcache : Faithful D cache)
    (hcount : D.numOutputs < 5 ∨ 10 ≤ D.numOutputs ∧ D.numOutputs ≠ 15) :
    ∃ e, (D.forward detImg threshold cache).1 = .error e := by
  cases h : (D.forward detImg threshold cache).1 with
  | error e => exact ⟨e, rfl⟩
  | ok ls =>
    have hfits := (passReads_fit_iff D.numOutputs).1 (of_forward_ok hcache h).1
    omega

theorem length_anchorCenters (height width stride : ℕ) :
    (anchorCenters 1 height width stride).length = height * width := by
  rw [anchorCenters, if_neg (by omega), flatMap_range, List.length_map, List.length_range]

/-- Three levels of scores and boxes and one more output. -/
theorem decodesCompletely_of_seven (hcount : D.numOutputs = 7) (hshapes : LaidOut D)
    (hcache : Faithful D cache) : DecodesCompletely D detImg threshold cache := by
  have hconfig : D.config = ⟨3, false, 1⟩ := by
    rw [config, hcount]
    rfl
  have hlayout := hshapes detImg
  rw [hconfig] at hlayout
  have hreturns : ∀ s ∈ featStrideFpn.zipIdx, ∃ level,
      D.levelAt (D.run detImg) threshold s = .ok level := by
    rintro ⟨stride, k⟩ hmem
    have hstride : k < 3 ∧ stride = 8 * 2 ^ k := by
      have hcases : (stride = 8 ∧ k = 0) ∨ (stride = 16 ∧ k = 1) ∨ (stride = 32 ∧ k = 2) := by
        simpa [featStrideFpn] using hmem
      rcases hcases with ⟨rfl, rfl⟩ | ⟨rfl, rfl⟩ | ⟨rfl, rfl⟩ <;> decide
    obtain ⟨hk, rfl⟩ := hstride
    have hlength : (D.run detImg).length = 7 := (D.run_length detImg).trans hcount
    obtain ⟨scores, hscores⟩ := netOut_returns_iff.2 (by omega : k < (D.run detImg).length)
    obtain ⟨bboxPreds, hbboxes⟩ := netOut_returns_iff.2 (by omega : k + 3 < (D.run detImg).length)
    obtain ⟨hscoreShape, hbboxShape, -⟩ := hlayout k hk
    have hscoreShape := hscoreShape scores (netOut_eq_ok.1 hscores)
    have hbboxShape := hbboxShape bboxPreds (netOut_eq_ok.1 hbboxes)
    rw [anchorRows, Nat.mul_one] at hscoreShape hbboxShape
    refine ⟨D.plainLevel threshold (8 * 2 ^ k) (anchorCenters 1 (D.inputSize / (8 * 2 ^ k))
      (D.inputSize / (8 * 2 ^ k)) (8 * 2 ^ k)) scores bboxPreds [], ?_⟩
    rw [levelAt, hconfig]
    dsimp only
    rw [hscores, Fallible.ok_bind, hbboxes, Fallible.ok_bind]
    exact level_of_shapes (length_anchorCenters ..) hscoreShape hbboxShape
      fun huse => by simp [hconfig] at huse
  obtain ⟨ls, hls⟩ := Fallible.mapM_returns hreturns
  have hforward : (D.forward detImg threshold cache).1 = .ok ls :=
    (levels_eq _ _ _ hcache).1.trans hls
  obtain ⟨hreads, hkept⟩ := of_forward_ok hcache hforward
  have hscores : ∀ k < D.config.fmc, k ∈ scoreReads := fun k hk => by
    rw [hconfig] at hk
    exact mem_scoreReads.2 hk
  exact ⟨hreads, hscores, ls, hforward, fun k hk => hkept k (hscores k hk)⟩

end

/-! ### Models of every count -/

/-- `cv2.resize` of a black image. -/
def resizeBlack (w h : ℤ) : Except Exc Image :=
  if 0 < w ∧ 0 < h then .ok ⟨h.toNat, w.toNat, List.replicate (h.toNat * w.toNat * 3) 0⟩
  else .error ⟨.valueError, "inv_scale_x > 0", []⟩

theorem resizeBlack_pos {w h : ℤ} {r : Image} (hr : resizeBlack w h = .ok r) : 0 < w ∧ 0 < h := by
  rw [resizeBlack] at hr
  split_ifs at hr with hpos
  exact hpos

/-- A model on squares of 64 pixels that always has the same outputs. -/
def ofOutputs (netOuts : List Tensor) : SCRFDetector where
  numOutputs := netOuts.length
  run _ := netOuts
  run_length _ := rfl
  resize _ := resizeBlack
  resize_pos := resizeBlack_pos
  argsort := .byInsertion
  inputSize := 64
  detThreshold := 1 / 2
  nmsThreshold := 2 / 5

/-- The output `i` of a layout, with the same value everywhere. -/
def flatOutput (c : AnchorConfig) (i : ℕ) : Tensor :=
  if i < c.fmc then List.replicate (anchorRows c 64 i) [3 / 4]
  else if i < c.fmc * 2 then
    List.replicate (anchorRows c 64 (i - c.fmc)) (List.replicate 4 (3 / 4))
  else List.replicate (anchorRows c 64 (i - c.fmc * 2)) (List.replicate 10 (3 / 4))

def outputsOf (n : ℕ) : List Tensor := (List.range n).map (flatOutput (initAnchorConfig n))

theorem hasShape_replicate (rows : ℕ) (row : List ℚ) :
    HasShape (List.replicate rows row) rows row.length :=
  ⟨List.length_replicate, fun _ hrow => congrArg List.length (List.eq_of_mem_replicate hrow)⟩

theorem laidOut_outputsOf (n : ℕ) : LaidOut (ofOutputs (outputsOf n)) := by
  have hlength : (outputsOf n).length = n := by simp [outputsOf]
  have hconfig : (ofOutputs (outputsOf n)).config = initAnchorConfig n :=
    congrArg initAnchorConfig hlength
  have houtput : ∀ i, ∀ t ∈ (outputsOf n)[i]?, t = flatOutput (initAnchorConfig n) i := by
    intro i t ht
    have hi : i < n := hlength ▸ (List.getElem?_eq_some_iff.1 ht).1
    rw [outputsOf, Option.mem_def, List.getElem?_map, List.getElem?_range hi] at ht
    exact (Option.some.inj ht).symm
  intro img k hk
  rw [hconfig] at hk ⊢
  refine ⟨fun t ht => ?_, fun t ht => ?_, fun _ t ht => ?_⟩
  · rw [houtput k t ht, flatOutput, if_pos hk]
    exact hasShape_replicate _ _
  · rw [houtput _ t ht, flatOutput, if_neg (by omega), if_pos (by omega), Nat.add_sub_cancel]
    exact hasShape_replicate _ _
  · rw [houtput _ t ht, flatOutput, if_neg (by omega), if_neg (by omega), Nat.add_sub_cancel]
    exact hasShape_replicate _ _

/-- Scores and boxes of two levels, and one more output. -/
def fiveOutputs : List Tensor :=
  ([1, 4].flatMap fun columns => [64, 16].map fun rows =>
    List.replicate rows (List.replicate columns (3 / 4))) ++ [List.replicate 4 [0, 0, 0, 0]]

/-- The third stride takes the boxes of the first for scores. -/
theorem five_outputs_raise : LaidOut (ofOutputs fiveOutputs) ∧
    ((ofOutputs fiveOutputs).forward ⟨64, 64, []⟩ (1 / 2) []).1.map (fun _ => ()) =
      .error (outOfBounds 4 0 4) := by
  refine ⟨fun _ => ?_, by decide +kernel⟩
  have hlayout : HasLayout ⟨2, false, 1⟩ 64 fiveOutputs := by decide +kernel
  exact hlayout

/-- **Of the layouts of the fallback branch the one with seven outputs is decoded completely**, in
every pass of every model that has it, and no other one. -/
theorem decodes_completely_iff {n : ℕ} (h6 : n ≠ 6) (h9 : n ≠ 9) :
    (∀ D : SCRFDetector, D.numOutputs = n → LaidOut D → ∀ detImg threshold cache,
      Faithful D cache → DecodesCompletely D detImg threshold cache) ↔ n = 7 := by
  constructor
  · intro h
    have hlength : (ofOutputs (outputsOf n)).numOutputs = n := by simp [ofOutputs, outputsOf]
    have hdecoded := h _ hlength (laidOut_outputsOf n) ⟨64, 64, []⟩ (1 / 2) [] faithful_nil
    have hfits := (layout_fits_iff _).1 ⟨hdecoded.inRange, hdecoded.scoresRead⟩
    rw [hlength] at hfits
    obtain rfl | hseven : n = 5 ∨ n = 7 := by omega
    · obtain ⟨hshapes, hraises⟩ := five_outputs_raise
      obtain ⟨ls, hreturns, -⟩ := (h _ rfl hshapes ⟨64, 64, []⟩ (1 / 2) [] faithful_nil).kept
      rw [hreturns] at hraises
      cases hraises
    · exact hseven
  · rintro rfl D hcount hshapes detImg threshold cache hcache
    exact decodesCompletely_of_seven hcount hshapes hcache

theorem seven_outputs_decoded :
    DecodesCompletely (ofOutputs (outputsOf 7)) ⟨64, 64, []⟩ (1 / 2) [] :=
  (decodes_completely_iff (by decide) (by decide)).2 rfl (ofOutputs (outputsOf 7)) rfl
    (laidOut_outputsOf 7) ⟨64, 64, []⟩ (1 / 2) [] faithful_nil

/-- Scores, boxes and landmarks of five levels; only the one cell of the fourth has a face. -/
def fifteenOutputs : List Tensor :=
  [1, 4, 10].flatMap fun columns => [64, 16, 4, 1, 0].map fun rows =>
    List.replicate rows (List.replicate columns (if rows = 1 then 3 / 4 else 0))

/-- The pass stops after three levels of five. -/
theorem fifteen_outputs_lose_face : (ofOutputs fifteenOutputs).numOutputs = 15 ∧
    LaidOut (ofOutputs fifteenOutputs) ∧ fifteenOutputs.getD 3 [] = [[3 / 4]] ∧
      ((ofOutputs fifteenOutputs).forward ⟨64, 64, []⟩ (1 / 2) []).1.map
        (fun levels => levels.map Level.scores) = .ok [[], [], []] ∧
      ¬ DecodesCompletely (ofOutputs fifteenOutputs) ⟨64, 64, []⟩ (1 / 2) [] := by
  refine ⟨rfl, fun _ => ?_, rfl, by decide +kernel, fun h => ?_⟩
  · have hlayout : HasLayout ⟨5, true, 1⟩ 64 fifteenOutputs := by decide +kernel
    exact hlayout
  · exact absurd (mem_scoreReads.1 (h.scoresRead 3 (by decide))) (by decide)

end SCRFDetector

end FaceRecognition.Recognition
