import Mathlib.Logic.Function.Basic
import Mathlib.Data.List.Basic

/-!
# Families of independent machines

One machine `step : S → I → S × O` per key, all kept in one map `K → S`; an input names its key and
touches that component only. `outputs_of_key`: what a key's inputs are answered depends on that
key's inputs alone, so a property of the joint run is a property of the run of one machine.
-/

namespace Keyed

variable {K S I O : Type} [DecidableEq K]

/-- The outputs of one machine on a list of inputs. -/
def runOne (step : S → I → S × O) (s : S) : List I → List O
  | [] => []
  | i :: is => (step s i).2 :: runOne step (step s i).1 is

/-- The outputs of the family, each with the key it was produced for. -/
def runAll (step : S → I → S × O) (s : K → S) : List (K × I) → List (K × O)
  | [] => []
  | (k, i) :: is => (k, (step (s k) i).2) :: runAll step (Function.update s k (step (s k) i).1) is

/-- The part of a tagged list that belongs to `k`, without its tags. -/
def ofKey {β : Type} (k : K) (l : List (K × β)) : List β :=
  (l.filter fun x => x.1 = k).map (·.2)

theorem ofKey_cons {β : Type} (k : K) (x : K × β) (l : List (K × β)) :
    ofKey k (x :: l) = if x.1 = k then x.2 :: ofKey k l else ofKey k l := by
  by_cases h : x.1 = k <;> simp [ofKey, h]

theorem ofKey_filter {β : Type} (k : K) (l : List (K × β)) :
    ofKey k (l.filter fun x => x.1 = k) = ofKey k l := by
  simp [ofKey, List.filter_filter]

theorem outputs_of_key (step : S → I → S × O) (s : K → S) (k : K) (l : List (K × I)) :
    ofKey k (runAll step s l) = runOne step (s k) (ofKey k l) := by
  induction l generalizing s with
  | nil => rfl
  | cons x l ih =>
    obtain ⟨k', i⟩ := x
    rw [runAll, ofKey_cons, ofKey_cons, ih]
    by_cases h : k' = k
    · subst h
      simp [runOne]
    · simp [h, Function.update_of_ne (Ne.symm h)]

end Keyed
