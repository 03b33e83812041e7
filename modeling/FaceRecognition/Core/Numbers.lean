import Mathlib.Data.Rat.Floor

/-!
# Number conversions of the source language

`int(x)` and `round(x, n)` on exact values.
-/

namespace FaceRecognition

/-- `int(x)`: truncation toward zero. -/
def truncInt (x : ℚ) : ℤ := if 0 ≤ x then ⌊x⌋ else ⌈x⌉

theorem truncInt_le {x : ℚ} {n : ℤ} (h : x ≤ n) : truncInt x ≤ n := by
  rw [truncInt]
  split_ifs
  · exact_mod_cast (Int.floor_le x).trans h
  · exact Int.ceil_le.2 h

theorem le_truncInt {x : ℚ} {n : ℤ} (h : n ≤ x) : n ≤ truncInt x := by
  rw [truncInt]
  split_ifs
  · exact Int.le_floor.2 h
  · exact_mod_cast h.trans (Int.le_ceil x)

/-- The integer nearest to `x`, the even one when two are. -/
def roundHalfEven (x : ℚ) : ℤ :=
  let d := x - ⌊x⌋
  if d < 1 / 2 then ⌊x⌋
  else if 1 / 2 < d then ⌊x⌋ + 1
  else if ⌊x⌋ % 2 = 0 then ⌊x⌋ else ⌊x⌋ + 1

theorem roundHalfEven_le {x : ℚ} {n : ℤ} (h : x ≤ n) : roundHalfEven x ≤ n := by
  have hfloor : ⌊x⌋ ≤ n := Int.floor_le_iff.2 (h.trans_lt (by simp))
  simp only [roundHalfEven]
  rcases hfloor.eq_or_lt with heq | hlt
  · have hx : x = n := le_antisymm h (heq ▸ Int.floor_le x)
    rw [hx, Int.floor_intCast, sub_self, if_pos (by norm_num)]
  · split_ifs <;> omega

theorem le_roundHalfEven {x : ℚ} {n : ℤ} (h : n ≤ x) : n ≤ roundHalfEven x := by
  have hfloor : n ≤ ⌊x⌋ := Int.le_floor.2 h
  simp only [roundHalfEven]
  split_ifs <;> omega

/-- Half-way cases go to the even one. -/
theorem le_roundHalfEven_iff {x : ℚ} {n : ℤ} :
    n ≤ roundHalfEven x ↔ n - 1 / 2 < x ∨ n - 1 / 2 = x ∧ n % 2 = 0 := by
  have hfloor := Int.floor_le x
  have hceil := Int.lt_floor_add_one x
  rcases lt_trichotomy n (⌊x⌋ + 1) with hlt | rfl | hgt
  · have hle : (n : ℚ) ≤ ⌊x⌋ := by exact_mod_cast Int.lt_add_one_iff.1 hlt
    refine iff_of_true ?_ (.inl (by linarith))
    simp only [roundHalfEven]
    split_ifs <;> omega
  · simp only [roundHalfEven]
    push_cast
    rcases lt_trichotomy (x - ⌊x⌋) (1 / 2) with hd | hd | hd
    · rw [if_pos hd]
      refine iff_of_false (by omega) ?_
      rintro (h | ⟨h, -⟩) <;> linarith
    · have hhalf : (⌊x⌋ : ℚ) + 1 - 1 / 2 = x := by linarith
      rw [if_neg hd.not_lt, if_neg hd.not_gt]
      simp only [hhalf, lt_irrefl, false_or, true_and]
      split_ifs <;> omega
    · rw [if_neg hd.le.not_gt, if_pos hd]
      exact iff_of_true le_rfl (.inl (by linarith))
  · have hge : (⌊x⌋ : ℚ) + 1 + 1 ≤ n := by exact_mod_cast Int.add_one_le_iff.2 hgt
    refine iff_of_false ?_ ?_
    · simp only [roundHalfEven]
      split_ifs <;> omega
    · rintro (h | ⟨h, -⟩) <;> linarith

/-- `round(x, n)`. -/
def roundDigits (n : ℕ) (x : ℚ) : ℚ := roundHalfEven (x * 10 ^ n) / 10 ^ n

theorem roundDigits_unit (n : ℕ) {x : ℚ} (h : 0 ≤ x) (h' : x ≤ 1) :
    0 ≤ roundDigits n x ∧ roundDigits n x ≤ 1 := by
  have hpos : (0 : ℚ) < 10 ^ n := by positivity
  have hlow : 0 ≤ roundHalfEven (x * 10 ^ n) := le_roundHalfEven (by push_cast; positivity)
  have hhigh : roundHalfEven (x * 10 ^ n) ≤ 10 ^ n := by
    apply roundHalfEven_le
    push_cast
    exact mul_le_of_le_one_left hpos.le h'
  rw [roundDigits, div_le_one hpos]
  exact ⟨div_nonneg (by exact_mod_cast hlow) hpos.le, by exact_mod_cast hhigh⟩

/-- Past the middle between the last number with `n` decimals before `t` and the first from `t` on,
or on it when the latter is the even one. -/
def RoundsTo (n : ℕ) (t x : ℚ) : Prop :=
  ⌈t * 10 ^ n⌉ - 1 / 2 < x * 10 ^ n ∨ ⌈t * 10 ^ n⌉ - 1 / 2 = x * 10 ^ n ∧ ⌈t * 10 ^ n⌉ % 2 = 0

theorem le_roundDigits_iff {n : ℕ} {t x : ℚ} : t ≤ roundDigits n x ↔ RoundsTo n t x := by
  have hpos : (0 : ℚ) < 10 ^ n := by positivity
  rw [roundDigits, le_div_iff₀ hpos, ← Int.ceil_le, le_roundHalfEven_iff, RoundsTo]

/-- A number from `t` on is rounded to one from `t` on when `t` has no more decimals. -/
theorem RoundsTo.of_le {n : ℕ} {t x : ℚ} {k : ℤ} (hk : t * 10 ^ n = k) (h : t ≤ x) :
    RoundsTo n t x := by
  have hmul : t * 10 ^ n ≤ x * 10 ^ n := mul_le_mul_of_nonneg_right h (by positivity)
  rw [hk] at hmul
  rw [RoundsTo, hk, Int.ceil_intCast]
  exact .inl (by linarith)

/-- `x` in the format `.0f`. -/
def formatFixed0 (x : ℚ) : String :=
  (if x < 0 ∧ roundHalfEven x = 0 then "-" else "") ++ toString (roundHalfEven x)

example : (truncInt (-3 / 2), roundHalfEven (5 / 2), roundDigits 1 (1 / 4)) = (-1, 2, 1 / 5) := by
  decide +kernel

end FaceRecognition
