import FaceRecognition.Lib.Fallible
import FaceRecognition.Lib.Run
import FaceRecognition.Recognition.Scrfd

/-!
# The forward pass

Where the outputs of a level have a row for each anchor center, nothing raises, and the level is the
one of parallel arrays indexed alike (`level_of_shapes`).

The cache only saves work: from every cache that calls lead to, the pass is the one that computes all
centers again (`levels_eq`), whether it raises or not.
-/

namespace FaceRecognition.Recognition

open Arrays

/-! ### Arrays that fit -/

structure HasShape (t : Tensor) (rows columns : ℕ) : Prop where
  rows : t.length = rows
  columns : ∀ row ∈ t, row.length = columns

theorem HasShape.times {t : Tensor} {rows columns : ℕ} (h : HasShape t rows columns)
    (stride : ℕ) : HasShape (times stride t) rows columns where
  rows := (List.length_map _).trans h.rows
  columns row hrow := by
    obtain ⟨row', hrow', rfl⟩ := List.mem_map.1 hrow
    exact (List.length_map _).trans (h.columns row' hrow')

theorem HasShape.length_flatten {t : Tensor} {rows : ℕ} (h : HasShape t rows 1) :
    t.flatten.length = rows := by
  have hlen := length_flatMap_eq (f := id) h.columns
  rwa [List.flatMap_id, Nat.one_mul, h.rows] at hlen

theorem takeRows_ok {α : Type} {rows : List α} {idx : List ℕ} (h : ∀ i ∈ idx, i < rows.length) :
    takeRows rows idx = .ok (gather rows idx) := by
  have hnone : idx.find? (fun i => rows.length ≤ i) = none := by
    simpa using h
  rw [takeRows, hnone]

theorem takeRows_eq_ok {α : Type} {rows out : List α} {idx : List ℕ}
    (h : takeRows rows idx = .ok out) : out.length = idx.length := by
  rw [takeRows] at h
  split at h
  · cases h
  · rename_i hnone
    obtain rfl := Except.ok.inj h
    exact length_gather (by simpa using hnone)

theorem checkColumn_ok {t : Tensor} {rows columns j : ℕ} (h : HasShape t rows columns)
    (hj : j < columns) : checkColumn t j = .ok () := by
  have hnone : t.find? (fun row => row.length ≤ j) = none := by
    simp only [List.find?_eq_none, decide_eq_true_eq, not_le]
    exact fun row hrow => (h.columns row hrow).symm ▸ hj
  rw [checkColumn, hnone]

section
variable {points : List Point} {distance : Tensor} {n : ℕ}

theorem pairRows_ok (hpoints : points.length = n) (hrows : distance.length = n) :
    pairRows points distance = .ok (points.zip distance) := by
  rw [pairRows, broadcast_of_length_eq (hpoints.trans hrows.symm)]

theorem distance2bbox_ok (hpoints : points.length = n) (h : HasShape distance n 4) :
    distance2bbox points distance = .ok (List.zipWith distance2bboxRow points distance) := by
  rw [distance2bbox, checkColumn_ok h (by omega), pairRows_ok hpoints h.rows,
    checkColumn_ok h (by omega), checkColumn_ok h (by omega), checkColumn_ok h (by omega)]
  exact congrArg Except.ok (List.map_zip_eq_zipWith ..)

/-- The landmarks of a row of ten offsets. -/
def distance2kpsRow (point : Point) (distance : List ℚ) : Landmarks := fun i =>
  ⟨point.x + distance.getD (2 * i) 0, point.y + distance.getD (2 * i + 1) 0⟩

theorem getElem?_kpsCoords (point : Point) (distance : List ℚ) (i : ℕ) :
    (kpsCoords point distance)[i]? =
      distance[i]?.map ((if i % 2 = 0 then point.x else point.y) + ·) := by
  rw [kpsCoords, List.getElem?_map, List.getElem?_zipIdx, Option.map_map, Nat.zero_add]
  rfl

/-- Rows of ten coordinates are cut where they were put together. -/
theorem landmarksAt_flatMap {rows : List (Point × List ℚ)} (h : ∀ row ∈ rows, row.2.length = 10)
    {i : ℕ} {row : Point × List ℚ} (hrow : rows[i]? = some row) :
    landmarksAt (rows.flatMap fun row => kpsCoords row.1 row.2) i =
      distance2kpsRow row.1 row.2 := by
  have hlen : ∀ row ∈ rows, (kpsCoords row.1 row.2).length = 10 := fun row hmem => by
    rw [kpsCoords, List.length_map, List.length_zipIdx, h row hmem]
  have hcoord : ∀ j < 10, (rows.flatMap fun row => kpsCoords row.1 row.2).getD (10 * i + j) 0 =
      (if j % 2 = 0 then row.1.x else row.1.y) + row.2.getD j 0 := fun j hj => by
    have hlt : j < row.2.length := (h row (List.mem_of_getElem? hrow)).symm ▸ hj
    rw [List.getD_eq_getElem?_getD, getElem?_flatMap hlen hj, hrow, Option.bind_some,
      getElem?_kpsCoords, List.getD_eq_getElem?_getD, List.getElem?_eq_getElem hlt]
    rfl
  funext k
  have hk := k.isLt
  rw [landmarksAt, distance2kpsRow, hcoord _ (by omega), hcoord _ (by omega),
    if_pos (Nat.mul_mod_right 2 k), if_neg (by omega)]

theorem distance2kps_ok (hpoints : points.length = n) (h : HasShape distance n 10) :
    distance2kps points distance = .ok (List.zipWith distance2kpsRow points distance) := by
  have hnil : [] ∉ distance := fun hmem => by simpa using h.columns [] hmem
  have hodd : distance.find? (fun row => row.length % 2 = 1) = none := by
    simp only [List.find?_eq_none, decide_eq_true_eq]
    exact fun row hrow => by simp [h.columns row hrow]
  have hrows : ∀ row ∈ points.zip distance, row.2.length = 10 := fun row hrow =>
    h.columns _ (List.of_mem_zip hrow).2
  have hcoords : ∀ row ∈ points.zip distance, (kpsCoords row.1 row.2).length = 10 :=
    fun row hrow => by rw [kpsCoords, List.length_map, List.length_zipIdx, hrows row hrow]
  have hcount := length_flatMap_eq hcoords
  rw [distance2kps, if_neg hnil, pairRows_ok hpoints h.rows]
  simp only [hodd, Fallible.ok_bind, hcount, Nat.mul_mod_right, if_true,
    Nat.mul_div_cancel_left _ (by omega : 0 < 10)]
  have hzip : List.zipWith distance2kpsRow points distance =
      (points.zip distance).map fun row => distance2kpsRow row.1 row.2 :=
    (List.map_uncurry_zip_eq_zipWith ..).symm
  refine congrArg Except.ok (List.ext_getElem? fun i => ?_)
  rw [hzip, List.getElem?_map, List.getElem?_map]
  cases hrow : (points.zip distance)[i]? with
  | none =>
    rw [List.getElem?_eq_none (by simpa using List.getElem?_eq_none_iff.1 hrow)]
    rfl
  | some row =>
    have hi := (List.getElem?_eq_some_iff.1 hrow).1
    rw [List.getElem?_range hi]
    exact congrArg some (landmarksAt_flatMap hrows hrow)

end

namespace SCRFDetector

variable {D : SCRFDetector}

/-! ### A level -/

theorem netOut_eq_ok {netOuts : List Tensor} {i : ℕ} {t : Tensor} :
    netOut netOuts i = .ok t ↔ netOuts[i]? = some t := by
  rw [netOut]
  cases netOuts[i]? <;> simp

/-- The level of arrays that fit. -/
def plainLevel (D : SCRFDetector) (threshold : ℚ) (stride : ℕ) (anchorCenters : List Point)
    (scores bboxPreds kpsPreds : Tensor) : Level :=
  let posInds := whereIdx (fun s => threshold ≤ s) scores.flatten
  { scores := gather scores.flatten posInds
    bboxes :=
      gather (List.zipWith distance2bboxRow anchorCenters (times stride bboxPreds)) posInds
    kpss := if D.config.useKps then
        gather (List.zipWith distance2kpsRow anchorCenters (times stride kpsPreds)) posInds
      else [] }

theorem level_of_shapes {netOuts : List Tensor} {threshold : ℚ} {idx stride n : ℕ}
    {anchorCenters : List Point} {scores bboxPreds kpsPreds : Tensor}
    (hcenters : anchorCenters.length = n) (hscores : HasShape scores n 1)
    (hbboxes : HasShape bboxPreds n 4) (hkps : D.config.useKps = true →
      netOuts[idx + D.config.fmc * 2]? = some kpsPreds ∧ HasShape kpsPreds n 10) :
    D.level netOuts threshold idx stride anchorCenters scores bboxPreds =
      .ok (D.plainLevel threshold stride anchorCenters scores bboxPreds kpsPreds) := by
  have hrange : ∀ i ∈ whereIdx (fun s => threshold ≤ s) scores.flatten, i < n := fun i hi =>
    hscores.length_flatten ▸ mem_whereIdx hi
  have htake : ∀ {α : Type} (f : Point → List ℚ → α) {t : Tensor}, t.length = n →
      takeRows (List.zipWith f anchorCenters t) (whereIdx (fun s => threshold ≤ s) scores.flatten) =
        .ok (gather (List.zipWith f anchorCenters t)
          (whereIdx (fun s => threshold ≤ s) scores.flatten)) := fun f t ht =>
    takeRows_ok fun i hi => by
      rw [List.length_zipWith, hcenters, ht, min_self]
      exact hrange i hi
  rw [level]
  simp only [distance2bbox_ok hcenters (hbboxes.times stride), Fallible.ok_bind,
    htake distance2bboxRow (hbboxes.times stride).rows]
  cases huse : D.config.useKps with
  | false =>
    simp only [plainLevel, huse]
    rfl
  | true =>
    obtain ⟨hread, hshape⟩ := hkps huse
    simp only [if_true, netOut_eq_ok.2 hread, distance2kps_ok hcenters (hshape.times stride),
      Fallible.ok_bind, htake distance2kpsRow (hshape.times stride).rows, plainLevel, huse]
    rfl

/-! ### The anchor cache -/

/-- Every entry is what a cold cache would compute. -/
def Faithful (D : SCRFDetector) (cache : CenterCache) : Prop :=
  ∀ key points, (key, points) ∈ cache →
    points = anchorCenters D.config.numAnchors key.1 key.2.1 key.2.2

/-- The caches that calls of `detect` lead to from the empty one. -/
def Warm (D : SCRFDetector) (cache : CenterCache) : Prop :=
  ∃ calls : List (Image × ℤ),
    Run.exec (fun cache call => some (D.detect call.1 call.2 cache).2) [] calls = some cache

theorem faithful_nil : Faithful D [] := fun _ _ hmem => by cases hmem

theorem centers_eq {cache : CenterCache} (h : Faithful D cache) (key : ℕ × ℕ × ℕ) :
    (D.centers key cache).1 = anchorCenters D.config.numAnchors key.1 key.2.1 key.2.2 ∧
      Faithful D (D.centers key cache).2 := by
  rw [centers]
  cases hlookup : cache.lookup key with
  | some points =>
    obtain ⟨before, after, rfl, -⟩ := List.lookup_eq_some_iff.1 hlookup
    exact ⟨h key points (by simp), h⟩
  | none =>
    refine ⟨rfl, ?_⟩
    dsimp only
    split_ifs
    · intro key' points hmem
      rcases List.mem_cons.1 hmem with he | hmem
      · cases he
        rfl
      · exact h key' points hmem
    · exact h

/-- A level without the cache. -/
def levelAt (D : SCRFDetector) (netOuts : List Tensor) (threshold : ℚ) (s : ℕ × ℕ) :
    Except Exc Level := do
  let scores ← netOut netOuts s.2
  let bboxPreds ← netOut netOuts (s.2 + D.config.fmc)
  D.level netOuts threshold s.2 s.1
    (anchorCenters D.config.numAnchors (D.inputSize / s.1) (D.inputSize / s.1) s.1) scores bboxPreds

theorem levels_eq (netOuts : List Tensor) (threshold : ℚ) (strides : List (ℕ × ℕ))
    {cache : CenterCache} (h : Faithful D cache) :
    (D.levels netOuts threshold strides cache).1 = strides.mapM (D.levelAt netOuts threshold) ∧
      Faithful D (D.levels netOuts threshold strides cache).2 := by
  induction strides generalizing cache with
  | nil => exact ⟨rfl, h⟩
  | cons s strides ih =>
    obtain ⟨stride, idx⟩ := s
    obtain ⟨hcenters, hcache⟩ := centers_eq h (D.inputSize / stride, D.inputSize / stride, stride)
    obtain ⟨hrest, hfinal⟩ := ih hcache
    rw [levels, List.mapM_cons, levelAt]
    cases hscores : netOut netOuts idx with
    | error e => exact ⟨rfl, h⟩
    | ok scores =>
      cases hbboxes : netOut netOuts (idx + D.config.fmc) with
      | error e => exact ⟨rfl, h⟩
      | ok bboxPreds =>
        dsimp only [Fallible.ok_bind]
        rw [hcenters]
        cases D.level netOuts threshold idx stride _ scores bboxPreds with
        | error e => exact ⟨rfl, hcache⟩
        | ok level =>
          refine ⟨?_, hfinal⟩
          dsimp only [Fallible.ok_bind]
          rw [hrest]
          cases strides.mapM (D.levelAt netOuts threshold) <;> rfl

theorem faithful_detect {cache : CenterCache} (h : Faithful D cache) (imageBgr : Image)
    (maxNum : ℤ) : Faithful D (D.detect imageBgr maxNum cache).2 := by
  rw [detect]
  cases D.letterbox imageBgr with
  | error e => exact h
  | ok r => exact (levels_eq (D.run r.1) D.detThreshold featStrideFpn.zipIdx h).2

theorem Warm.faithful {cache : CenterCache} (h : Warm D cache) : Faithful D cache := by
  obtain ⟨calls, hrun⟩ := h
  refine Run.exec_inv (I := Faithful D) (fun cache call cache' hc hstep => ?_) faithful_nil hrun
  cases hstep
  exact faithful_detect hc call.1 call.2

end SCRFDetector

end FaceRecognition.Recognition
