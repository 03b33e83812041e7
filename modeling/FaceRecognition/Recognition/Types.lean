import FaceRecognition.Core.Exceptions
import Mathlib.Data.Rat.Floor

/-!
# Values of the recognition pipeline

Images, boxes, detections and embeddings, on exact numbers.
-/

namespace FaceRecognition.Recognition

abbrev Bytes := List UInt8

/-- A BGR image of shape `(height, width, 3)`. -/
structure Image where
  height : ℕ
  width : ℕ
  data : Bytes
  deriving DecidableEq, Repr

/-- `bbox`, in image pixels. -/
structure BBox where
  x1 : ℚ
  y1 : ℚ
  x2 : ℚ
  y2 : ℚ
  deriving DecidableEq, Repr

structure Point where
  x : ℚ
  y : ℚ
  deriving DecidableEq, Repr

def embeddingDim : ℕ := 512

abbrev Embedding := Fin embeddingDim → ℚ

/-- One detected face: box, detection score, five landmarks. -/
structure DetectedFace where
  bbox : BBox
  score : ℚ
  landmarks : Fin 5 → Point

namespace DetectedFace

def width (f : DetectedFace) : ℚ := f.bbox.x2 - f.bbox.x1

def height (f : DetectedFace) : ℚ := f.bbox.y2 - f.bbox.y1

end DetectedFace

/-- An index into an array along an axis. -/
def outOfBounds (index axis size : ℕ) : Exc :=
  ⟨.indexError, "index " ++ toString index ++ " is out of bounds for axis " ++ toString axis ++
    " with size " ++ toString size, []⟩

structure FaceResult where
  detection : DetectedFace
  embedding : Embedding

end FaceRecognition.Recognition
