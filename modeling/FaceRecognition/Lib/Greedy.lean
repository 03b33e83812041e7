import Mathlib.Data.List.Pairwise

/-!
# Greedy selection

The first element of a list is taken, the later ones that it does not tolerate are dropped, and so
on. What is taken is a sublist whose elements tolerate each other (`pairwise_select`), and whatever
is dropped comes after one that has been taken and does not tolerate it (`rejected`).
-/

namespace Greedy

variable {α : Type} (tolerates : α → α → Bool)

/-- What is left of the list once `a` has been taken. -/
def left (a : α) (l : List α) : List α := l.filter (tolerates a)

theorem left_sublist (a : α) (l : List α) : (left tolerates a l).Sublist l := List.filter_sublist

def select : List α → List α
  | [] => []
  | a :: l => a :: select (left tolerates a l)
termination_by l => l.length
decreasing_by exact Nat.lt_succ_of_le (left_sublist tolerates a l).length_le

/-- Every element taken, with each one that is compared with it. -/
def compared : List α → List (α × α)
  | [] => []
  | a :: l => l.map (fun b => (a, b)) ++ compared (left tolerates a l)
termination_by l => l.length
decreasing_by exact Nat.lt_succ_of_le (left_sublist tolerates a l).length_le

variable {tolerates}

theorem select_sublist (l : List α) : (select tolerates l).Sublist l := by
  fun_induction select with
  | case1 => exact .slnil
  | case2 a l ih => exact (ih.trans (left_sublist tolerates a l)).cons_cons a

theorem pairwise_select (l : List α) :
    (select tolerates l).Pairwise fun a b => tolerates a b = true := by
  fun_induction select with
  | case1 => exact .nil
  | case2 a l ih =>
    refine List.pairwise_cons.2 ⟨fun b hb => ?_, ih⟩
    exact (List.mem_filter.1 ((select_sublist _).subset hb)).2

theorem rejected {r : α → α → Prop} {l : List α} (hl : l.Pairwise r) {b : α} (hb : b ∈ l)
    (hdropped : b ∉ select tolerates l) :
    ∃ a ∈ select tolerates l, r a b ∧ tolerates a b = false := by
  fun_induction select with
  | case1 => cases hb
  | case2 a l ih =>
    obtain ⟨ha, hl⟩ := List.pairwise_cons.1 hl
    have hbl : b ∈ l := (List.mem_cons.1 hb).resolve_left fun he => hdropped (by simp [he])
    cases htolerates : tolerates a b with
    | false => exact ⟨a, List.mem_cons_self, ha b hbl, htolerates⟩
    | true =>
      have hrest : b ∉ select tolerates (left tolerates a l) := fun h =>
        hdropped (List.mem_cons_of_mem a h)
      obtain ⟨c, hc, hrejects⟩ := ih (hl.sublist (left_sublist tolerates a l))
        (List.mem_filter.2 ⟨hbl, htolerates⟩) hrest
      exact ⟨c, List.mem_cons_of_mem a hc, hrejects⟩

theorem compared_sublist {l : List α} {p : α × α} (hp : p ∈ compared tolerates l) :
    [p.1, p.2].Sublist l := by
  fun_induction compared with
  | case1 => cases hp
  | case2 a l ih =>
    rcases List.mem_append.1 hp with hp | hp
    · obtain ⟨b, hb, rfl⟩ := List.mem_map.1 hp
      exact (List.singleton_sublist.2 hb).cons_cons a
    · exact ((ih hp).trans (left_sublist tolerates a l)).cons a

end Greedy
