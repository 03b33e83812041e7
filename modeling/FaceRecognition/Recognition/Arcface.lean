import FaceRecognition.Recognition.Types

/-!
# ArcFaceEmbedder

A stack of aligned crops is embedded by one call of the network, a single crop as a stack of one.
-/

namespace FaceRecognition.Recognition

structure ArcFaceEmbedder where
  /-- `_preprocess` and `session.run`: the rows of the output for a stack of crops -/
  run : List Image → Except Exc (List Embedding)
  /-- `_l2_normalize` of one row -/
  l2Normalize : Embedding → Embedding

namespace ArcFaceEmbedder

def embedBatch (E : ArcFaceEmbedder) (alignedFaces : List Image) :
    Except Exc (List Embedding) :=
  if alignedFaces.isEmpty then .ok [] else (E.run alignedFaces).map (·.map E.l2Normalize)

def embed (E : ArcFaceEmbedder) (alignedFace : Image) : Except Exc Embedding := do
  let embeddings ← E.embedBatch [alignedFace]
  match embeddings[0]? with
  | some embedding => .ok embedding
  | none => .error (outOfBounds 0 0 embeddings.length)

end ArcFaceEmbedder

end FaceRecognition.Recognition
