import FaceRecognition.Core.Numbers
import FaceRecognition.Lib.Arrays
import FaceRecognition.Recognition.Types

/-!
# SCRFDetector

The post-processing of the face detector. Scores, boxes and landmarks travel as three parallel
arrays: they are decoded level by level, filtered by the score, stacked, sorted, thinned by NMS and
cut to `max_num`. All arithmetic is exact; an output of the network is the list of its rows. An
index that is not there and shapes that do not fit raise, as they do in numpy; of an output without
rows the columns are taken to be there.
-/

namespace FaceRecognition.Recognition

open Arrays

/-- An array of shape `(N, C)`. -/
abbrev Tensor := List (List ℚ)

abbrev Landmarks := Fin 5 → Point

/-! ### Decoding a level -/

def distance2bboxRow (point : Point) (distance : List ℚ) : BBox where
  x1 := point.x - distance.getD 0 0
  y1 := point.y - distance.getD 1 0
  x2 := point.x + distance.getD 2 0
  y2 := point.y + distance.getD 3 0

def notBroadcast (m n : ℕ) : Exc :=
  ⟨.valueError, "operands could not be broadcast together with shapes (" ++ toString m ++ ",) (" ++
    toString n ++ ",) ", []⟩

/-- `a[idx]` -/
def takeRows {α : Type} (rows : List α) (idx : List ℕ) : Except Exc (List α) :=
  match idx.find? fun i => rows.length ≤ i with
  | some i => .error (outOfBounds i 0 rows.length)
  | none => .ok (gather rows idx)

/-- `distance[:, j]` -/
def checkColumn (distance : Tensor) (j : ℕ) : Except Exc Unit :=
  match distance.find? fun row => row.length ≤ j with
  | some row => .error (outOfBounds j 1 row.length)
  | none => .ok ()

/-- The points next to the rows that are added to them. -/
def pairRows (points : List Point) (distance : Tensor) : Except Exc (List (Point × List ℚ)) :=
  match broadcast points distance with
  | some rows => .ok rows
  | none => .error (notBroadcast points.length distance.length)

def distance2bbox (points : List Point) (distance : Tensor) : Except Exc (List BBox) := do
  checkColumn distance 0
  let rows ← pairRows points distance
  checkColumn distance 1
  checkColumn distance 2
  checkColumn distance 3
  return rows.map fun row => distance2bboxRow row.1 row.2

/-- `px, py, px, py, ..` of a row -/
def kpsCoords (point : Point) (distance : List ℚ) : List ℚ :=
  distance.zipIdx.map fun d => (if d.2 % 2 = 0 then point.x else point.y) + d.1

/-- The row `i` of `reshape(-1, 5, 2)`. -/
def landmarksAt (coords : List ℚ) (i : ℕ) : Landmarks := fun k =>
  ⟨coords.getD (10 * i + 2 * k) 0, coords.getD (10 * i + (2 * k + 1)) 0⟩

/-- `_distance2kps(points, distance).reshape(-1, 5, 2)` -/
def distance2kps (points : List Point) (distance : Tensor) : Except Exc (List Landmarks) := do
  if [] ∈ distance then throw ⟨.valueError, "need at least one array to stack", []⟩
  let rows ← pairRows points distance
  match distance.find? fun row => row.length % 2 = 1 with
  | some row => throw (outOfBounds row.length 1 row.length)
  | none =>
    let coords := rows.flatMap fun row => kpsCoords row.1 row.2
    if coords.length % 10 = 0 then
      return (List.range (coords.length / 10)).map (landmarksAt coords)
    else throw ⟨.valueError, "cannot reshape array of size " ++ toString coords.length ++
      " into shape (5,2)", []⟩

/-- `preds * stride` -/
def times (stride : ℕ) (preds : Tensor) : Tensor := preds.map (·.map (· * stride))

structure AnchorConfig where
  fmc : ℕ
  useKps : Bool
  numAnchors : ℕ
  deriving DecidableEq, Repr

def initAnchorConfig (numOutputs : ℕ) : AnchorConfig :=
  if numOutputs = 6 then ⟨3, false, 2⟩
  else if numOutputs = 9 then ⟨3, true, 2⟩
  else ⟨numOutputs / (if numOutputs = 15 then 3 else 2), 9 ≤ numOutputs, 1⟩

def featStrideFpn : List ℕ := [8, 16, 32]

/-- The grid of `(x * stride, y * stride)`, row by row, every point once for each anchor. -/
def anchorCenters (numAnchors height width stride : ℕ) : List Point :=
  let grid := (List.range height).flatMap fun y : ℕ => (List.range width).map fun x : ℕ =>
    (⟨x * stride, y * stride⟩ : Point)
  if 1 < numAnchors then grid.flatMap (List.replicate numAnchors) else grid

/-- `_center_cache`, by `(height, width, stride)`. -/
abbrev CenterCache := List ((ℕ × ℕ × ℕ) × List Point)

structure SCRFDetector where
  /-- `len(self.output_names)` -/
  numOutputs : ℕ
  /-- `cv2.dnn.blobFromImage` and `session.run` -/
  run : Image → List Tensor
  /-- `session.run` gives an output for each name. -/
  run_length : ∀ image, (run image).length = numOutputs
  /-- `cv2.resize(image, (new_w, new_h))` -/
  resize : Image → ℤ → ℤ → Except Exc Image
  /-- `cv2.resize` rejects an empty size. -/
  resize_pos : ∀ {image r w h}, resize image w h = .ok r → 0 < w ∧ 0 < h
  argsort : Argsort ℚ
  inputSize : ℕ
  detThreshold : ℚ
  nmsThreshold : ℚ

/-- What a level appends to the three lists. -/
structure Level where
  scores : List ℚ
  bboxes : List BBox
  kpss : List Landmarks

/-- A row of the stacked boxes and scores. -/
structure Det where
  bbox : BBox
  score : ℚ
  deriving DecidableEq, Repr

/-! ### NMS -/

def overlap (a b : Det) : ℚ :=
  max 0 (min a.bbox.x2 b.bbox.x2 - max a.bbox.x1 b.bbox.x1 + 1) *
    max 0 (min a.bbox.y2 b.bbox.y2 - max a.bbox.y1 b.bbox.y1 + 1)

def nmsArea (d : Det) : ℚ := (d.bbox.x2 - d.bbox.x1 + 1) * (d.bbox.y2 - d.bbox.y1 + 1)

/-- `ovr <= thresh`; a division by zero gives inf or nan, which is not. -/
def survives (thresh : ℚ) (a b : Det) : Bool :=
  let union := nmsArea a + nmsArea b - overlap a b
  union ≠ 0 ∧ overlap a b / union ≤ thresh

/-- `order[inds + 1]` -/
def remaining (dets : List Det) (thresh : ℚ) (i : ℕ) (rest : List ℕ) : List ℕ :=
  rest.filter fun j => (dets[i]?.bind fun a => dets[j]?.map (survives thresh a)).getD false

theorem remaining_sublist (dets : List Det) (thresh : ℚ) (i : ℕ) (rest : List ℕ) :
    (remaining dets thresh i rest).Sublist rest :=
  List.filter_sublist

def nmsLoop (dets : List Det) (thresh : ℚ) : List ℕ → List ℕ
  | [] => []
  | i :: rest => i :: nmsLoop dets thresh (remaining dets thresh i rest)
termination_by order => order.length
decreasing_by exact Nat.lt_succ_of_le (remaining_sublist dets thresh i rest).length_le

namespace SCRFDetector

variable (D : SCRFDetector)

def nms (dets : List Det) (thresh : ℚ) : List ℕ :=
  nmsLoop dets thresh (D.argsort.descending (dets.map Det.score))

/-! ### The forward pass -/

def config : AnchorConfig := initAnchorConfig D.numOutputs

def centers (key : ℕ × ℕ × ℕ) (cache : CenterCache) : List Point × CenterCache :=
  match cache.lookup key with
  | some anchorCenters => (anchorCenters, cache)
  | none =>
    let anchorCenters := anchorCenters D.config.numAnchors key.1 key.2.1 key.2.2
    (anchorCenters, if cache.length < 100 then (key, anchorCenters) :: cache else cache)

/-- `net_outs[i]` -/
def netOut (netOuts : List Tensor) (i : ℕ) : Except Exc Tensor :=
  match netOuts[i]? with
  | some t => .ok t
  | none => .error ⟨.indexError, "list index out of range", []⟩

/-- A level, from its scores and boxes and the anchor centers. -/
def level (netOuts : List Tensor) (threshold : ℚ) (idx stride : ℕ) (anchorCenters : List Point)
    (scores bboxPreds : Tensor) : Except Exc Level := do
  let scores := scores.flatten
  let posInds := whereIdx (fun s => threshold ≤ s) scores
  let bboxes ← distance2bbox anchorCenters (times stride bboxPreds)
  let bboxes ← takeRows bboxes posInds
  if D.config.useKps then
    let kpsPreds ← netOut netOuts (idx + D.config.fmc * 2)
    let kpss ← distance2kps anchorCenters (times stride kpsPreds)
    let kpss ← takeRows kpss posInds
    return ⟨gather scores posInds, bboxes, kpss⟩
  else return ⟨gather scores posInds, bboxes, []⟩

/-- The levels; centers that are computed stay in the cache when their level raises. -/
def levels (netOuts : List Tensor) (threshold : ℚ) :
    List (ℕ × ℕ) → CenterCache → Except Exc (List Level) × CenterCache
  | [], cache => (.ok [], cache)
  | (stride, idx) :: strides, cache =>
    match netOut netOuts idx, netOut netOuts (idx + D.config.fmc) with
    | .ok scores, .ok bboxPreds =>
      let (height, width) := (D.inputSize / stride, D.inputSize / stride)
      let (anchorCenters, cache) := D.centers (height, width, stride) cache
      match D.level netOuts threshold idx stride anchorCenters scores bboxPreds with
      | .error e => (.error e, cache)
      | .ok level =>
        let (rest, cache) := levels netOuts threshold strides cache
        (rest.map (level :: ·), cache)
    | .error e, _ => (.error e, cache)
    | _, .error e => (.error e, cache)

def forward (detImg : Image) (threshold : ℚ) (cache : CenterCache) :
    Except Exc (List Level) × CenterCache :=
  D.levels (D.run detImg) threshold featStrideFpn.zipIdx cache

/-! ### Detection -/

def zeroDivision (message : String) : Exc := ⟨.zeroDivisionError, message, []⟩

/-- The resized image in the top left corner of a black square. -/
def canvas (side : ℕ) (resized : Image) : Image where
  height := side
  width := side
  data := (List.range side).flatMap fun y => (List.range side).flatMap fun x =>
    (List.range 3).map fun c =>
      if y < resized.height ∧ x < resized.width then
        resized.data.getD ((y * resized.width + x) * 3 + c) 0
      else 0

/-- The padded square image and `det_scale`. -/
def letterbox (imageBgr : Image) : Except Exc (Image × ℚ) :=
  if imageBgr.width = 0 ∨ D.inputSize = 0 then .error (zeroDivision "division by zero")
  else
    let imRatio : ℚ := imageBgr.height / imageBgr.width
    let modelRatio : ℚ := D.inputSize / D.inputSize
    let (newH, newW) : ℤ × ℤ :=
      if modelRatio < imRatio then (D.inputSize, truncInt (D.inputSize / imRatio))
      else (truncInt (D.inputSize * imRatio), D.inputSize)
    if imageBgr.height = 0 then .error (zeroDivision "division by zero")
    else
      let detScale : ℚ := newH / imageBgr.height
      (D.resize imageBgr newW newH).map fun resized => (canvas D.inputSize resized, detScale)

/-- `bboxes / det_scale` -/
def unscaleBBox (detScale : ℚ) (b : BBox) : BBox :=
  ⟨b.x1 / detScale, b.y1 / detScale, b.x2 / detScale, b.y2 / detScale⟩

/-- A point in the pixels of the image. -/
def unscale (detScale : ℚ) (p : Point) : Point := ⟨p.x / detScale, p.y / detScale⟩

/-- `kpss / det_scale` -/
def unscaleKps (detScale : ℚ) (kps : Landmarks) : Landmarks := fun i => unscale detScale (kps i)

/-- The area weighted toward the image center, for an image of shape `(height, width)`. -/
def priority (imgShape : ℕ × ℕ) (b : BBox) : ℚ :=
  let area := (b.x2 - b.x1) * (b.y2 - b.y1)
  let cx : ℚ := imgShape.2 / 2
  let cy : ℚ := imgShape.1 / 2
  let distSq := ((b.x1 + b.x2) / 2 - cx) ^ 2 + ((b.y1 + b.y2) / 2 - cy) ^ 2
  area - distSq * 2

def keepTop (det : List Det) (kpss : List Landmarks) (imgShape : ℕ × ℕ) (maxNum : ℕ) :
    List Det × List Landmarks :=
  let idx := (D.argsort.descending (det.map fun d => priority imgShape d.bbox)).take maxNum
  (gather det idx, gather kpss idx)

/-- `detect` after the forward pass. -/
def select (levels : List Level) (detScale : ℚ) (imgShape : ℕ × ℕ) (maxNum : ℤ) :
    List DetectedFace :=
  let scores := levels.flatMap Level.scores
  if scores.length = 0 then []
  else
    let order := D.argsort.descending scores
    let bboxes := (levels.flatMap Level.bboxes).map (unscaleBBox detScale)
    let preDet := gather (List.zipWith Det.mk bboxes scores) order
    let keep := D.nms preDet D.nmsThreshold
    let det := gather preDet keep
    let kpss :=
      if D.config.useKps then
        gather (gather ((levels.flatMap Level.kpss).map (unscaleKps detScale)) order) keep
      else List.replicate det.length fun _ => ⟨0, 0⟩
    let (det, kpss) :=
      if 0 < maxNum ∧ maxNum < det.length then D.keepTop det kpss imgShape maxNum.toNat
      else (det, kpss)
    List.zipWith (fun d kps => ⟨d.bbox, d.score, kps⟩) det kpss

/-- `detect` after the letterbox. -/
def detectAt (detImg : Image) (detScale : ℚ) (imgShape : ℕ × ℕ) (maxNum : ℤ)
    (cache : CenterCache) : Except Exc (List DetectedFace) × CenterCache :=
  let (levels, cache) := D.forward detImg D.detThreshold cache
  (levels.map fun levels => D.select levels detScale imgShape maxNum, cache)

def detect (imageBgr : Image) (maxNum : ℤ) (cache : CenterCache) :
    Except Exc (List DetectedFace) × CenterCache :=
  match D.letterbox imageBgr with
  | .error e => (.error e, cache)
  | .ok (detImg, detScale) =>
    D.detectAt detImg detScale (imageBgr.height, imageBgr.width) maxNum cache

end SCRFDetector

end FaceRecognition.Recognition
