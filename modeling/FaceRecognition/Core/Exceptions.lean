import Mathlib.Data.Nat.Notation

/-!
# Exceptions

The domain errors the services raise, and the exceptions of the libraries below them that pass
through the same handlers. `message` is the text `str(exc)` gives.
-/

namespace FaceRecognition

inductive ExcKind where
  | noFaceDetectedError
  | multipleFacesError
  | invalidImageError
  | lowQualityFaceError
  | entityNotFoundError
  | entityConflictError
  | valueError
  | indexError
  | osError
  | integrityError
  | dataError
  | staleDataError
  | pendingRollbackError
  | operationalError
  | invalidRequestError
  | responseValidationError
  | typeError
  | zeroDivisionError
  | authenticationError
  | rateLimitExceededError
  deriving DecidableEq, Repr

structure Exc where
  kind : ExcKind
  message : String
  detail : List (String × ℕ) := []
  deriving DecidableEq, Repr

end FaceRecognition
