import FaceRecognition.Lib.Trimming
import Mathlib.Data.Nat.Notation

/-!
# Strings of the source language

Text that is known to be Unicode is a `String`. A `str` of the source language can also hold
surrogates, which a file name with undecodable bytes brings in; where that matters it is a `PyStr`.
-/

namespace FaceRecognition

/-- `str.isspace` of one character. -/
def isSpace (c : Char) : Bool :=
  let n := c.toNat
  (9 ≤ n && n ≤ 13) || (28 ≤ n && n ≤ 32) || n = 0x85 || n = 0xa0 || n = 0x1680 ||
    (0x2000 ≤ n && n ≤ 0x200a) || n = 0x2028 || n = 0x2029 || n = 0x202f || n = 0x205f || n = 0x3000

/-- `s.strip()` -/
def strip (s : String) : String :=
  String.ofList ((s.toList.dropWhile isSpace).reverse.dropWhile isSpace).reverse

theorem toList_strip (s : String) : (strip s).toList = Trimming.trim isSpace s.toList :=
  String.toList_ofList

/-- `s.lower()` on ASCII letters. -/
def lower (s : String) : String := String.ofList (s.toList.map Char.toLower)

theorem toList_lower (s : String) : (lower s).toList = s.toList.map Char.toLower :=
  String.toList_ofList

/-- `s[:n]` -/
def truncate (n : ℕ) (s : String) : String := String.ofList (s.toList.take n)

/-! ### Strings with surrogates -/

inductive CodePoint where
  | scalar (c : Char)
  /-- `0xd800 + n` -/
  | surrogate (n : Fin 0x800)
  deriving DecidableEq, Repr

/-- `str` -/
structure PyStr where
  points : List CodePoint
  deriving DecidableEq, Repr

/-- The characters, when there is no surrogate. -/
def scalars : List CodePoint → Option (List Char)
  | [] => some []
  | .scalar c :: points => (scalars points).map (c :: ·)
  | .surrogate _ :: _ => none

theorem scalars_eq_some {points : List CodePoint} {cs : List Char} :
    scalars points = some cs ↔ points = cs.map .scalar := by
  induction points generalizing cs with
  | nil => cases cs <;> simp [scalars]
  | cons p points ih =>
    cases p with
    | scalar c =>
      rw [scalars, Option.map_eq_some_iff]
      constructor
      · rintro ⟨cs, hcs, rfl⟩
        rw [ih.1 hcs]
        rfl
      · intro h
        obtain ⟨d, cs, rfl⟩ : ∃ d ds, cs = d :: ds := by
          cases cs with
          | nil => cases h
          | cons d ds => exact ⟨d, ds, rfl⟩
        obtain ⟨hc, hcs⟩ := List.cons.inj h
        exact ⟨cs, ih.2 hcs, by rw [CodePoint.scalar.inj hc]⟩
    | surrogate n => cases cs <;> simp [scalars]

namespace PyStr

/-- Unicode text. -/
def ofString (s : String) : PyStr := ⟨s.toList.map .scalar⟩

instance : Coe String PyStr := ⟨ofString⟩

/-- `s.encode("utf-8")`, as the text that the bytes stand for; it raises on a surrogate. -/
def encode (s : PyStr) : Option String := (scalars s.points).map String.ofList

theorem encode_eq_some {s : PyStr} {t : String} : s.encode = some t ↔ s = ofString t := by
  rw [encode, Option.map_eq_some_iff]
  constructor
  · rintro ⟨cs, hcs, rfl⟩
    rw [ofString, String.toList_ofList, ← scalars_eq_some.1 hcs]
  · rintro rfl
    exact ⟨t.toList, scalars_eq_some.2 rfl, String.ofList_toList⟩

theorem encode_ofString (s : String) : encode s = some s := encode_eq_some.2 rfl

/-- There is no surrogate in it. -/
def isEncodable (s : PyStr) : Bool := s.encode.isSome

theorem isEncodable_eq_true {s : PyStr} : s.isEncodable ↔ ∃ t : String, s = t := by
  rw [isEncodable, Option.isSome_iff_exists]
  exact exists_congr fun _ => encode_eq_some

theorem isEncodable_eq_false {s : PyStr} : ¬ s.isEncodable ↔ s.encode = none := by
  rw [isEncodable, Option.not_isSome_iff_eq_none]

end PyStr

example : strip "  Ada Lovelace\n" = "Ada Lovelace" := by decide +kernel

end FaceRecognition
