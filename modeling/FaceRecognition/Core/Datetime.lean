import Mathlib.Data.List.Basic
import Mathlib.Tactic.IntervalCases
import Mathlib.Tactic.Ring

/-!
# Moments as text

A moment in UTC with microseconds, as `datetime.now(UTC)` gives it. `isoformat` writes it and
`fromisoformat` reads such a text back (`fromisoformat_isoformat`). Of the formats that
`datetime.fromisoformat` accepts, the one `isoformat` writes for UTC is modelled.
-/

namespace FaceRecognition

def daysInMonth (year month : ℕ) : ℕ :=
  if month = 2 then
    if year % 4 = 0 ∧ (year % 100 ≠ 0 ∨ year % 400 = 0) then 29 else 28
  else if month = 4 ∨ month = 6 ∨ month = 9 ∨ month = 11 then 30
  else 31

structure Datetime where
  year : ℕ
  month : ℕ
  day : ℕ
  hour : ℕ
  minute : ℕ
  second : ℕ
  microsecond : ℕ
  date : (1 ≤ year ∧ year ≤ 9999) ∧ (1 ≤ month ∧ month ≤ 12) ∧ 1 ≤ day ∧ day ≤ daysInMonth year month
  time : hour < 24 ∧ minute < 60 ∧ second < 60 ∧ microsecond < 1000000
  deriving DecidableEq, Repr

namespace Datetime

/-- The last `width` decimal digits of `n`. -/
def padded : ℕ → ℕ → List Char
  | 0, _ => []
  | width + 1, n => (n / 10 ^ width % 10).digitChar :: padded width n

/-- The text of numbers, each after its separator and as wide as given. -/
def writeFields (fields : List (Char × ℕ × ℕ)) : List Char :=
  fields.flatMap fun f => f.1 :: padded f.2.1 f.2.2

/-- `self.isoformat()` -/
def isoformat (d : Datetime) : String :=
  String.ofList (padded 4 d.year ++ writeFields [('-', 2, d.month), ('-', 2, d.day),
    ('T', 2, d.hour), (':', 2, d.minute), (':', 2, d.second)] ++
    writeFields (if d.microsecond = 0 then [] else [('.', 6, d.microsecond)]) ++ "+00:00".toList)

/-- The number that `width` digits at the front give, and what follows them. -/
def takeNumber : ℕ → ℕ → List Char → Option (ℕ × List Char)
  | 0, acc, cs => some (acc, cs)
  | width + 1, acc, c :: cs =>
    if c.isDigit then takeNumber width (10 * acc + (c.toNat - '0'.toNat)) cs else none
  | _ + 1, _, [] => none

/-- Numbers after the given separators, as wide as given, and what follows them. -/
def readFields : List (Char × ℕ) → List Char → Option (List ℕ × List Char)
  | [], cs => some ([], cs)
  | (separator, width) :: fields, c :: cs =>
    if c = separator then
      (takeNumber width 0 cs).bind fun r =>
        (readFields fields r.2).map fun rest => (r.1 :: rest.1, rest.2)
    else none
  | _ :: _, [] => none

/-- The moment with these numbers, when there is one. -/
def ofNumbers (year month day hour minute second microsecond : ℕ) : Option Datetime :=
  if hd : (1 ≤ year ∧ year ≤ 9999) ∧ (1 ≤ month ∧ month ≤ 12) ∧
      1 ≤ day ∧ day ≤ daysInMonth year month then
    if ht : hour < 24 ∧ minute < 60 ∧ second < 60 ∧ microsecond < 1000000 then
      some ⟨year, month, day, hour, minute, second, microsecond, hd, ht⟩
    else none
  else none

/-- The end of a text: microseconds when there are any, and the offset of UTC. -/
def readFraction (cs : List Char) : Option ℕ :=
  if cs = "+00:00".toList then some 0
  else match readFields [('.', 6)] cs with
    | some ([microsecond], rest) => if rest = "+00:00".toList then some microsecond else none
    | _ => none

/-- `datetime.fromisoformat`, `none` for a `ValueError` -/
def fromisoformat (text : String) : Option Datetime :=
  match takeNumber 4 0 text.toList with
  | none => none
  | some (year, cs) =>
    match readFields [('-', 2), ('-', 2), ('T', 2), (':', 2), (':', 2)] cs with
    | some ([month, day, hour, minute, second], rest) =>
      (readFraction rest).bind (ofNumbers year month day hour minute second)
    | _ => none

/-! ### Reading back -/

theorem takeNumber_padded (width : ℕ) {n : ℕ} (h : n < 10 ^ width) (cs : List Char) :
    takeNumber width 0 (padded width n ++ cs) = some (n, cs) := by
  have hacc : ∀ acc, takeNumber width acc (padded width n ++ cs) =
      some (acc * 10 ^ width + n % 10 ^ width, cs) := by
    clear h
    induction width with
    | zero => intro acc; simp [takeNumber, padded, Nat.mod_one]
    | succ width ih =>
      intro acc
      have hdigit : n / 10 ^ width % 10 < 10 := Nat.mod_lt _ (by omega)
      have hvalue : (n / 10 ^ width % 10).digitChar.toNat - '0'.toNat = n / 10 ^ width % 10 :=
        Nat.toNat_digitChar_sub_48_of_lt_ten hdigit
      have hisDigit : (n / 10 ^ width % 10).digitChar.isDigit = true := by
        interval_cases n / 10 ^ width % 10 <;> rfl
      rw [padded, List.cons_append, takeNumber, if_pos hisDigit, hvalue, ih, Nat.mod_pow_succ,
        Nat.pow_succ]
      congr 2
      ring
  rw [hacc, Nat.zero_mul, Nat.zero_add, Nat.mod_eq_of_lt h]

theorem readFields_writeFields (fields : List (Char × ℕ × ℕ))
    (h : ∀ f ∈ fields, f.2.2 < 10 ^ f.2.1) (cs : List Char) :
    readFields (fields.map fun f => (f.1, f.2.1)) (writeFields fields ++ cs) =
      some (fields.map fun f => f.2.2, cs) := by
  induction fields with
  | nil => rfl
  | cons f fields ih =>
    have hrest := ih fun g hg => h g (by simp [hg])
    have hfirst := takeNumber_padded f.2.1 (h f (by simp)) (writeFields fields ++ cs)
    show readFields _ ((f.1 :: padded f.2.1 f.2.2 ++ writeFields fields) ++ cs) = _
    rw [List.append_assoc, List.cons_append, List.map_cons, readFields, if_pos rfl, hfirst,
      Option.bind_some, hrest]
    rfl

theorem ofNumbers_self (d : Datetime) :
    ofNumbers d.year d.month d.day d.hour d.minute d.second d.microsecond = some d := by
  rw [ofNumbers, dif_pos d.date, dif_pos d.time]

theorem readFraction_write {n : ℕ} (h : n < 1000000) :
    readFraction (writeFields (if n = 0 then [] else [('.', 6, n)]) ++ "+00:00".toList) =
      some n := by
  by_cases hn : n = 0
  · subst hn
    exact if_pos rfl
  · have hfields := readFields_writeFields [('.', 6, n)] (by simpa using h)
      "+00:00".toList
    have hne : writeFields [('.', 6, n)] ++ "+00:00".toList ≠ "+00:00".toList := by
      intro he
      cases congrArg List.head? he
    simp only [List.map_cons, List.map_nil] at hfields
    rw [if_neg hn, readFraction, if_neg hne, hfields]
    exact if_pos rfl

theorem day_lt (d : Datetime) : d.day < 100 := by
  have hle := d.date.2.2.2
  unfold daysInMonth at hle
  split_ifs at hle <;> omega

theorem fromisoformat_isoformat (d : Datetime) : fromisoformat d.isoformat = some d := by
  have hdate := d.date
  have htime := d.time
  have hday := d.day_lt
  have hyear := @takeNumber_padded 4 d.year (by omega)
  have hfields := readFields_writeFields [('-', 2, d.month), ('-', 2, d.day), ('T', 2, d.hour),
    (':', 2, d.minute), (':', 2, d.second)] (by simp; omega)
  simp only [List.map_cons, List.map_nil] at hfields
  rw [fromisoformat, isoformat, String.toList_ofList, List.append_assoc, List.append_assoc, hyear]
  dsimp only
  rw [hfields]
  dsimp only
  rw [readFraction_write htime.2.2.2, Option.bind_some, ofNumbers_self]

end Datetime

end FaceRecognition
