import Mathlib.Data.List.Sort

/-!
# Rankings

Sorting by a total preorder, as `ORDER BY` does, commutes with dropping rows (`filter_sort`): a
selection before the sort and one after it give the same list. The rows that pass a threshold on
the sort key are a prefix of the ranking, so a `LIMIT` before the threshold test loses none that
belongs to the result (`filter_take`).
-/

namespace Ranking

open List

variable {α : Type}

/-! ### Thresholds on a ranking -/

/-- `p` holds of a row whenever it holds of a row behind it. -/
def UpClosed (p : α → Bool) (l : List α) : Prop := l.Pairwise fun a b => p b = true → p a = true

theorem filter_eq_nil_of_head {p : α → Bool} {a : α} {l : List α} (h : UpClosed p (a :: l))
    (ha : p a = false) : (a :: l).filter p = [] := by
  rw [filter_eq_nil_iff]
  intro b hb
  rcases mem_cons.1 hb with rfl | hb
  · simp [ha]
  · intro hpb
    rw [(pairwise_cons.1 h).1 b hb hpb] at ha
    cases ha

theorem filter_take {p : α → Bool} {l : List α} (h : UpClosed p l) (k : ℕ) :
    (l.take k).filter p = (l.filter p).take k := by
  induction l generalizing k with
  | nil => simp
  | cons a l ih =>
    cases k with
    | zero => simp
    | succ k =>
      cases ha : p a with
      | true =>
        rw [take_succ_cons, filter_cons_of_pos ha, filter_cons_of_pos ha, take_succ_cons,
          ih (pairwise_cons.1 h).2]
      | false =>
        rw [filter_eq_nil_of_head h ha, take_nil]
        exact filter_eq_nil_of_head (h.sublist (take_sublist (k + 1) (a :: l))) ha

theorem head?_filter {p : α → Bool} {l : List α} (h : UpClosed p l) :
    (l.filter p).head? = l.head?.filter p := by
  cases l with
  | nil => rfl
  | cons a l =>
    cases ha : p a with
    | true => simp [ha, Option.filter]
    | false => simp [filter_eq_nil_of_head h ha, ha, Option.filter]

/-! ### Sorting -/

variable {r : α → α → Prop} [DecidableRel r]

theorem orderedInsert_of_le {a : α} {l : List α} (h : ∀ b ∈ l, r a b) :
    orderedInsert r a l = a :: l := by
  cases l with
  | nil => rfl
  | cons b l => exact orderedInsert_cons_of_le r l (h b (by simp))

variable [IsTrans α r]

theorem filter_orderedInsert (p : α → Bool) (a : α) {l : List α} (hl : l.Pairwise r) :
    (orderedInsert r a l).filter p =
      if p a then orderedInsert r a (l.filter p) else l.filter p := by
  induction l with
  | nil => cases h : p a <;> simp [h]
  | cons b l ih =>
    obtain ⟨hb, hl⟩ := pairwise_cons.1 hl
    by_cases hab : r a b
    · have hle : ∀ c ∈ (b :: l).filter p, r a c := by
        intro c hc
        rcases mem_cons.1 (mem_filter.1 hc).1 with rfl | hc
        · exact hab
        · exact IsTrans.trans a b c hab (hb c hc)
      rw [orderedInsert_cons_of_le r l hab, orderedInsert_of_le hle, filter_cons]
    · rw [orderedInsert_of_not_le r l hab]
      cases hpb : p b with
      | false => rw [filter_cons_of_neg (by simp [hpb]), ih hl, filter_cons_of_neg (by simp [hpb])]
      | true =>
        rw [filter_cons_of_pos hpb, ih hl, filter_cons_of_pos hpb,
          orderedInsert_of_not_le r _ hab]
        split_ifs <;> rfl

variable [Std.Total r]

/-- A selection commutes with the sort. -/
theorem filter_sort (p : α → Bool) (l : List α) :
    (insertionSort r l).filter p = insertionSort r (l.filter p) := by
  induction l with
  | nil => rfl
  | cons a l ih =>
    rw [insertionSort_cons, filter_orderedInsert p a (pairwise_insertionSort r l), ih]
    cases h : p a <;> simp [h]

end Ranking
