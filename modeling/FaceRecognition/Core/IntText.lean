import Mathlib.Algebra.Order.Group.Int
import Mathlib.Tactic.IntervalCases
import FaceRecognition.Core.Strings

/-!
# Integers as text

`int(s)` and `str(n)`. A text of `int` may carry white space around it, a sign, single underscores
between its digits, and decimal digits of any script. What `str` writes, `int` reads back
(`readInt_toString`).
-/

namespace FaceRecognition

/-- The zeros of the decimal digits (Unicode category Nd); each is followed by its nine others. -/
def digitZeros : List ℕ :=
  [0x30, 0x660, 0x6f0, 0x7c0, 0x966, 0x9e6, 0xa66, 0xae6, 0xb66, 0xbe6, 0xc66, 0xce6, 0xd66, 0xde6,
    0xe50, 0xed0, 0xf20, 0x1040, 0x1090, 0x17e0, 0x1810, 0x1946, 0x19d0, 0x1a80, 0x1a90, 0x1b50,
    0x1bb0, 0x1c40, 0x1c50, 0xa620, 0xa8d0, 0xa900, 0xa9d0, 0xa9f0, 0xaa50, 0xabf0, 0xff10,
    0x104a0, 0x10d30, 0x11066, 0x110f0, 0x11136, 0x111d0, 0x112f0, 0x11450, 0x114d0, 0x11650,
    0x116c0, 0x11730, 0x118e0, 0x11950, 0x11c50, 0x11d50, 0x11da0, 0x11f50, 0x16a60, 0x16ac0,
    0x16b50, 0x1d7ce, 0x1d7d8, 0x1d7e2, 0x1d7ec, 0x1d7f6, 0x1e140, 0x1e2f0, 0x1e4f0, 0x1e950,
    0x1fbf0]

def decimalValue (c : Char) : Option ℕ :=
  (digitZeros.find? fun z => z ≤ c.toNat ∧ c.toNat < z + 10).map fun z => c.toNat - z

/-- The rest of a run of digits after some that give `acc`. -/
def moreDigits (acc : ℕ) : List Char → Option ℕ
  | [] => some acc
  | '_' :: c :: cs => (decimalValue c).bind fun d => moreDigits (10 * acc + d) cs
  | c :: cs => (decimalValue c).bind fun d => moreDigits (10 * acc + d) cs

def readDigits : List Char → Option ℕ
  | [] => none
  | c :: cs => (decimalValue c).bind fun d => moreDigits d cs

def readSigned : List Char → Option ℤ
  | '-' :: cs => (readDigits cs).map fun n => -(n : ℤ)
  | '+' :: cs => (readDigits cs).map fun n => (n : ℤ)
  | cs => (readDigits cs).map fun n => (n : ℤ)

/-- `int(s)` without its limit on the number of digits, `none` for a `ValueError`. -/
def readInt (s : String) : Option ℤ := readSigned (strip s).toList

/-- `sys.get_int_max_str_digits()` -/
def maxStrDigits : ℕ := 4300

/-- `int(s)` -/
def int (s : String) : Option ℤ :=
  if s.toList.countP (fun c => (decimalValue c).isSome) ≤ maxStrDigits then readInt s else none

/-! ### Reading back what `str` writes -/

theorem decimalValue_digitChar {d : ℕ} (h : d < 10) : decimalValue d.digitChar = some d := by
  interval_cases d <;> rfl

theorem moreDigits_cons {c : Char} (h : c ≠ '_') (acc : ℕ) (cs : List Char) :
    moreDigits acc (c :: cs) = (decimalValue c).bind fun d => moreDigits (10 * acc + d) cs := by
  rw [moreDigits]
  exact fun _ _ hc => absurd hc h

theorem moreDigits_append {acc n : ℕ} {cs : List Char} (hcs : ∀ c ∈ cs, c ≠ '_') (cs' : List Char)
    (h : moreDigits acc cs = some n) : moreDigits acc (cs ++ cs') = moreDigits n cs' := by
  induction cs generalizing acc with
  | nil => cases h; rfl
  | cons c cs ih =>
    have hc : c ≠ '_' := hcs c (by simp)
    rw [moreDigits_cons hc] at h
    obtain ⟨d, hd, h⟩ := Option.bind_eq_some_iff.1 h
    rw [List.cons_append, moreDigits_cons hc, hd]
    exact ih (fun c hc => hcs c (by simp [hc])) h

theorem readDigits_append {n : ℕ} {cs : List Char} (hcs : ∀ c ∈ cs, c ≠ '_') (cs' : List Char)
    (h : readDigits cs = some n) : readDigits (cs ++ cs') = moreDigits n cs' := by
  cases cs with
  | nil => cases h
  | cons c cs =>
    obtain ⟨d, hd, h⟩ := Option.bind_eq_some_iff.1 h
    rw [List.cons_append, readDigits, hd]
    exact moreDigits_append (fun c hc => hcs c (by simp [hc])) cs' h

theorem readDigits_toDigits (n : ℕ) : readDigits (Nat.toDigits 10 n) = some n := by
  induction n using Nat.base_induction 10 (by omega) with
  | single m hm =>
    rw [Nat.toDigits_of_lt_base hm, readDigits, decimalValue_digitChar hm]
    rfl
  | digit m k hk hm ih =>
    have hne : ∀ c ∈ Nat.toDigits 10 m, c ≠ '_' := fun c hc he =>
      Nat.underscore_not_in_toDigits (he ▸ hc)
    have hk' : k.digitChar ≠ '_' := by interval_cases k <;> decide
    rw [← Nat.toDigits_append_toDigits (by omega) hm hk, readDigits_append hne _ ih,
      Nat.toDigits_of_lt_base hk, moreDigits_cons hk', decimalValue_digitChar hk]
    rfl

theorem toString_injective : Function.Injective fun n : ℕ => toString n := by
  intro m n h
  have hdigits : Nat.toDigits 10 m = Nat.toDigits 10 n := by
    have := congrArg String.toList h
    simpa [toString, Nat.repr] using this
  have hread := congrArg readDigits hdigits
  rw [readDigits_toDigits, readDigits_toDigits] at hread
  exact Option.some.inj hread

theorem readSigned_of_digits {cs : List Char} {n : ℕ} (h : readDigits cs = some n) :
    readSigned cs = some n := by
  unfold readSigned
  split
  · cases h
  · cases h
  · rw [h]
    rfl

theorem strip_of_no_space {s : String} (h : ∀ c ∈ s.toList, isSpace c = false) : strip s = s := by
  have htrim : Trimming.trim isSpace s.toList = s.toList := Trimming.trim_eq_self_of_ends
    ⟨fun c hc => h c (List.mem_of_mem_head? hc), fun c hc => h c (List.mem_of_mem_getLast? hc)⟩
  apply String.toList_injective
  rw [toList_strip, htrim]

theorem isSpace_of_isDigit {c : Char} (h : c.isDigit) : isSpace c = false := by
  rw [Char.isDigit_iff_toNat] at h
  have hlow : 48 ≤ c.toNat := h.1
  have hhigh : c.toNat ≤ 57 := h.2
  unfold isSpace
  simp only [Bool.or_eq_false_iff, Bool.and_eq_false_iff, decide_eq_false_iff_not]
  omega

theorem readInt_toString (n : ℤ) : readInt (toString n) = some n := by
  have hdigit : ∀ m : ℕ, ∀ c ∈ Nat.toDigits 10 m, isSpace c = false := fun m c hc =>
    isSpace_of_isDigit (Nat.isDigit_of_mem_toDigits (by omega) (by omega) hc)
  cases n with
  | ofNat n =>
    have hlist : (toString (Int.ofNat n)).toList = Nat.toDigits 10 n := Nat.toList_repr
    rw [readInt, strip_of_no_space (hlist ▸ hdigit n), hlist,
      readSigned_of_digits (readDigits_toDigits n)]
    rfl
  | negSucc n =>
    have hlist : (toString (Int.negSucc n)).toList = '-' :: Nat.toDigits 10 (n + 1) := by
      show ("-" ++ (n + 1).repr).toList = _
      rw [String.toList_append, Nat.toList_repr]
      rfl
    have hspace : ∀ c ∈ (toString (Int.negSucc n)).toList, isSpace c = false := by
      rw [hlist]
      exact List.forall_mem_cons.2 ⟨rfl, hdigit _⟩
    rw [readInt, strip_of_no_space hspace, hlist, readSigned, readDigits_toDigits]
    rfl

end FaceRecognition
