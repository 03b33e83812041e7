import Mathlib.Data.List.Nodup
import Mathlib.Algebra.Order.Group.Nat
import Mathlib.Tactic.Common

/-!
# Pages of an order with ties

A query with ORDER BY, LIMIT and OFFSET shows a part of an arrangement of the rows: sorted by a key,
the greatest first, and in any order among ties. Each page is a query of its own, so it may be cut
from another arrangement. The pages show every row once, whatever the arrangements, iff ties never
cross the border of a page (`each_once_iff`): a row is then always on the page of its key, and
otherwise two rows that change places at a border are shown twice and not at all.
-/

namespace Paging

variable {α β : Type}

/-- What a query makes of its rows. -/
structure Arrangement [LinearOrder β] (key : α → β) where
  arrange : List α → List α
  perm : ∀ rows, (arrange rows).Perm rows
  sorted : ∀ rows, (arrange rows).Pairwise fun x y => key y ≤ key x

def page (L k : ℕ) (l : List α) : List α := (l.drop (k * L)).take L

/-- The pages from `k` on, until an empty one. -/
inductive Pages (fetch : ℕ → List α) : ℕ → List α → Prop
  | last {k : ℕ} (h : fetch k = []) : Pages fetch k []
  | next {k : ℕ} {rest : List α} (h : fetch k ≠ []) (hrest : Pages fetch (k + 1) rest) :
    Pages fetch k (fetch k ++ rest)

theorem exists_pages (fetch : ℕ → List α) {n : ℕ} (hn : fetch n = []) :
    ∀ d k, k + d = n → ∃ shown, Pages fetch k shown := by
  intro d
  induction d with
  | zero =>
    rintro k rfl
    exact ⟨[], .last hn⟩
  | succ d ih =>
    intro k hk
    by_cases h : fetch k = []
    · exact ⟨[], .last h⟩
    · obtain ⟨rest, hrest⟩ := ih (k + 1) (by omega)
      exact ⟨_, .next h hrest⟩

/-- Two pages in a row are shown one after the other. -/
theorem Pages.sublist {fetch : ℕ → List α} {k : ℕ} {shown : List α} (h : Pages fetch k shown)
    {i : ℕ} (hk : k ≤ i) (hne : ∀ j, k ≤ j → j ≤ i + 1 → fetch j ≠ []) :
    (fetch i ++ fetch (i + 1)).Sublist shown := by
  induction h with
  | last h => exact absurd h (hne _ le_rfl (by omega))
  | @next k rest h hrest ih =>
    rcases hk.eq_or_lt with rfl | hlt
    · cases hrest with
      | last hnil => exact absurd hnil (hne _ (by omega) le_rfl)
      | next h' hrest' => exact (List.sublist_append_left _ _).append_left _
    · have hrest := ih hlt fun j hj => hne j (by omega)
      exact hrest.trans (List.sublist_append_right _ _)

theorem mem_page {L : ℕ} (hL : 0 < L) {k : ℕ} {l : List α} {x : α} :
    x ∈ page L k l ↔ ∃ i, l[i]? = some x ∧ i / L = k := by
  rw [page, List.mem_iff_getElem?]
  constructor
  · rintro ⟨i, hi⟩
    rw [List.getElem?_take, List.getElem?_drop] at hi
    split_ifs at hi with hlt
    refine ⟨k * L + i, hi, ?_⟩
    rw [mul_comm, Nat.mul_add_div hL, Nat.div_eq_of_lt hlt, add_zero]
  · rintro ⟨i, hi, rfl⟩
    refine ⟨i % L, ?_⟩
    rw [List.getElem?_take, if_pos (Nat.mod_lt i hL), List.getElem?_drop, Nat.div_add_mod']
    exact hi

theorem page_sublist (L k : ℕ) (l : List α) : (page L k l).Sublist l :=
  (List.take_sublist _ _).trans (List.drop_sublist _ _)

theorem page_eq_nil {L : ℕ} (hL : 0 < L) {k : ℕ} {l : List α} :
    page L k l = [] ↔ l.length ≤ k * L := by
  rw [page, List.take_eq_nil_iff, List.drop_eq_nil_iff]
  exact or_iff_right hL.ne'

/-! ### Where the rows of a key stand -/

section
variable [LinearOrder β] {key : α → β} {rows l : List α}

/-- How many rows stand before those of the key. -/
def newer (key : α → β) (rows : List α) (t : β) : ℕ := rows.countP fun x => t < key x

def notOlder (key : α → β) (rows : List α) (t : β) : ℕ := rows.countP fun x => t ≤ key x

theorem notOlder_le_newer (key : α → β) (rows : List α) {s t : β} (h : s < t) :
    notOlder key rows t ≤ newer key rows s :=
  List.countP_mono_left fun _ _ hx => by simpa using h.trans_le (by simpa using hx)

theorem notOlder_le_length (key : α → β) (rows : List α) (t : β) :
    notOlder key rows t ≤ rows.length := List.countP_le_length

theorem exists_split {i : ℕ} {x : α} (h : l[i]? = some x) :
    ∃ p q, l = p ++ x :: q ∧ p.length = i := by
  obtain ⟨hi, rfl⟩ := List.getElem?_eq_some_iff.1 h
  refine ⟨l.take i, l.drop (i + 1), ?_, List.length_take_of_le hi.le⟩
  rw [List.getElem_cons_drop, List.take_append_drop]

/-- The rows of a key stand together. -/
theorem position (hperm : l.Perm rows) (hsorted : l.Pairwise fun x y => key y ≤ key x) {i : ℕ}
    {x : α} (h : l[i]? = some x) :
    newer key rows (key x) ≤ i ∧ i < notOlder key rows (key x) := by
  obtain ⟨p, q, rfl, rfl⟩ := exists_split h
  obtain ⟨-, hq, hp⟩ := List.pairwise_append.1 hsorted
  have hafter : q.countP (fun y => decide (key x < key y)) = 0 := by
    rw [List.countP_eq_zero]
    intro y hy
    simpa using (List.pairwise_cons.1 hq).1 y hy
  have hbefore : p.countP (fun y => decide (key x ≤ key y)) = p.length := by
    rw [List.countP_eq_length]
    intro y hy
    simpa using hp y hy x List.mem_cons_self
  rw [newer, notOlder, ← hperm.countP_eq, ← hperm.countP_eq, List.countP_append,
    List.countP_append, hbefore, List.countP_cons_of_neg (by simp), hafter,
    List.countP_cons_of_pos (by simp)]
  exact ⟨List.countP_le_length, by omega⟩

theorem key_of_position (hperm : l.Perm rows) (hsorted : l.Pairwise fun x y => key y ≤ key x)
    {i : ℕ} {x : α} (h : l[i]? = some x) {t : β} (hnewer : newer key rows t ≤ i)
    (hnotOlder : i < notOlder key rows t) : key x = t := by
  obtain ⟨hfrom, hto⟩ := position hperm hsorted h
  rcases lt_trichotomy (key x) t with hlt | heq | hgt
  · have hbefore := notOlder_le_newer key rows hlt
    omega
  · exact heq
  · have hafter := notOlder_le_newer key rows hgt
    omega

/-! ### Every row once -/

/-- The first and the last row of each key are on one page. -/
def OnOnePage (key : α → β) (L : ℕ) (rows : List α) : Prop :=
  ∀ x ∈ rows, newer key rows (key x) / L = (notOlder key rows (key x) - 1) / L

instance (L : ℕ) : Decidable (OnOnePage key L rows) := List.decidableBAll _ _

/-- One page holds everything. -/
theorem onOnePage_of_length_le {L : ℕ} (h : rows.length ≤ L) : OnOnePage key L rows := by
  intro x hx
  have hnotOlder := notOlder_le_length key rows (key x)
  have hnewer : newer key rows (key x) < rows.length := by
    refine lt_of_le_of_ne List.countP_le_length fun hall => ?_
    simpa using List.countP_eq_length.1 hall x hx
  rw [Nat.div_eq_of_lt (by omega), Nat.div_eq_of_lt (by omega)]

theorem newer_add_tied (key : α → β) (rows : List α) (t : β) :
    newer key rows t + (rows.countP fun x => key x = t) = notOlder key rows t := by
  induction rows with
  | nil => rfl
  | cons x rows ih =>
    simp only [newer, notOlder, List.countP_cons, decide_eq_true_eq] at ih ⊢
    rcases lt_trichotomy t (key x) with hlt | heq | hgt
    · simp only [hlt, hlt.le, hlt.ne', if_true, if_false]
      omega
    · simp only [heq, lt_irrefl, le_refl, if_true, if_false] at ih ⊢
      omega
    · simp only [hgt.not_gt, hgt.not_ge, hgt.ne, if_false]
      omega

/-- There are at most as many ties as rows on a page. -/
theorem OnOnePage.tied_le {L : ℕ} (hL : 0 < L) (hone : OnOnePage key L rows) (t : β) :
    (rows.countP fun x => key x = t) ≤ L := by
  by_contra! hmany
  obtain ⟨x, hx, hkey⟩ := List.countP_pos_iff.1 (hL.trans hmany)
  obtain rfl : key x = t := of_decide_eq_true hkey
  have hpage := hone x hx
  have hadd := newer_add_tied key rows (key x)
  have hfirst := Nat.div_add_mod (newer key rows (key x)) L
  have hlast := Nat.div_add_mod (notOlder key rows (key x) - 1) L
  have hmod := Nat.mod_lt (notOlder key rows (key x) - 1) hL
  rw [← hpage] at hlast
  omega

theorem OnOnePage.page_eq {L : ℕ} (hone : OnOnePage key L rows) (hperm : l.Perm rows)
    (hsorted : l.Pairwise fun x y => key y ≤ key x) {i : ℕ} {x : α} (h : l[i]? = some x) :
    i / L = newer key rows (key x) / L := by
  obtain ⟨hfrom, hto⟩ := position hperm hsorted h
  have hx : x ∈ rows := hperm.mem_iff.1 (List.mem_of_getElem? h)
  apply le_antisymm
  · rw [hone x hx]
    exact Nat.div_le_div_right (by omega)
  · exact Nat.div_le_div_right hfrom

theorem OnOnePage.exists_index {L : ℕ} (hone : OnOnePage key L rows) (q : Arrangement key) {x : α}
    (hx : x ∈ rows) :
    ∃ i, (q.arrange rows)[i]? = some x ∧ i / L = newer key rows (key x) / L := by
  obtain ⟨i, hi⟩ := List.mem_iff_getElem?.1 ((q.perm rows).mem_iff.2 hx)
  exact ⟨i, hi, hone.page_eq (q.perm rows) (q.sorted rows) hi⟩

/-- A page shows the rows whose keys belong there. -/
theorem OnOnePage.page_perm {L : ℕ} (hL : 0 < L) (hnodup : rows.Nodup)
    (hone : OnOnePage key L rows) (q : Arrangement key) (k : ℕ) :
    (page L k (q.arrange rows)).Perm (rows.filter fun x => newer key rows (key x) / L = k) := by
  have harranged : (q.arrange rows).Nodup := (q.perm rows).nodup_iff.2 hnodup
  rw [List.perm_ext_iff_of_nodup (harranged.sublist (page_sublist L k _)) (hnodup.filter _)]
  intro x
  rw [mem_page hL, List.mem_filter, decide_eq_true_eq]
  constructor
  · rintro ⟨i, hi, rfl⟩
    refine ⟨(q.perm rows).mem_iff.1 (List.mem_of_getElem? hi), ?_⟩
    exact (hone.page_eq (q.perm rows) (q.sorted rows) hi).symm
  · rintro ⟨hx, rfl⟩
    exact hone.exists_index q hx

/-- The pages from `k` on show the rows whose keys belong there. -/
theorem OnOnePage.perm {L : ℕ} (hL : 0 < L) (hnodup : rows.Nodup) (hone : OnOnePage key L rows)
    {query : ℕ → Arrangement key} {k : ℕ} {shown : List α}
    (h : Pages (fun k => page L k ((query k).arrange rows)) k shown) :
    shown.Perm (rows.filter fun x => k ≤ newer key rows (key x) / L) := by
  induction h with
  | @last k h =>
    have hnone : (rows.filter fun x => k ≤ newer key rows (key x) / L) = [] := by
      rw [List.filter_eq_nil_iff]
      intro x hx hk
      obtain ⟨i, hi, hpage⟩ := hone.exists_index (query k) hx
      have hlt : i < k * L :=
        (List.getElem?_eq_some_iff.1 hi).1.trans_le ((page_eq_nil hL).1 h)
      rw [← hpage, decide_eq_true_eq] at hk
      exact absurd ((Nat.div_lt_iff_lt_mul hL).2 hlt) (not_lt.2 hk)
    rw [hnone]
  | @next k rest h hrest ih =>
    have hsplit := List.filter_append_perm (fun x => decide (newer key rows (key x) / L = k))
      (rows.filter fun x => k ≤ newer key rows (key x) / L)
    rw [List.filter_filter, List.filter_filter] at hsplit
    have hhere : (rows.filter fun x => newer key rows (key x) / L = k) = rows.filter fun x =>
        decide (newer key rows (key x) / L = k) && decide (k ≤ newer key rows (key x) / L) := by
      refine List.filter_congr fun x _ => ?_
      rw [← Bool.decide_and, decide_eq_decide]
      omega
    have hlater : (rows.filter fun x => k + 1 ≤ newer key rows (key x) / L) = rows.filter fun x =>
        !decide (newer key rows (key x) / L = k) && decide (k ≤ newer key rows (key x) / L) := by
      refine List.filter_congr fun x _ => ?_
      rw [← decide_not, ← Bool.decide_and, decide_eq_decide]
      omega
    rw [← hhere, ← hlater] at hsplit
    exact ((hone.page_perm hL hnodup (query k) k).append ih).trans hsplit

/-! ### Rows that change places -/

variable (key) in
def byKey : Arrangement key where
  arrange rows := rows.mergeSort fun x y => key y ≤ key x
  perm rows := List.mergeSort_perm rows _
  sorted rows := by
    have hsorted : (rows.mergeSort fun x y => decide (key y ≤ key x)).Pairwise
        fun x y => decide (key y ≤ key x) = true := by
      refine List.pairwise_mergeSort (fun x y z hxy hyz => ?_) (fun x y => ?_) rows
      · rw [decide_eq_true_eq] at hxy hyz ⊢
        exact hyz.trans hxy
      · simpa using le_total (key y) (key x)
    exact hsorted.imp of_decide_eq_true

open Classical in
/-- The arrangement that is given for the rows, and the one of `byKey` for all others. -/
noncomputable def given (hperm : l.Perm rows) (hsorted : l.Pairwise fun x y => key y ≤ key x) :
    Arrangement key where
  arrange rows' := if rows' = rows then l else (byKey key).arrange rows'
  perm rows' := by
    split_ifs with h
    · exact h ▸ hperm
    · exact (byKey key).perm rows'
  sorted rows' := by
    split_ifs
    · exact hsorted
    · exact (byKey key).sorted rows'

theorem given_arrange (hperm : l.Perm rows) (hsorted : l.Pairwise fun x y => key y ≤ key x) :
    (given hperm hsorted).arrange rows = l := if_pos rfl

theorem swap {p q : List α} {y z : α} (h : key y = key z) (hperm : (p ++ y :: z :: q).Perm rows)
    (hsorted : (p ++ y :: z :: q).Pairwise fun x y => key y ≤ key x) :
    (p ++ z :: y :: q).Perm rows ∧ (p ++ z :: y :: q).Pairwise fun x y => key y ≤ key x := by
  refine ⟨((List.Perm.swap y z q).append_left p).trans hperm, ?_⟩
  rw [← List.pairwise_map (f := key) (R := fun s t => t ≤ s)] at hsorted ⊢
  simpa [h] using hsorted

/-- At the border of a page there are two ties. -/
theorem exists_border {L : ℕ} (hL : 0 < L) (hone : ¬ OnOnePage key L rows) :
    ∃ k p y z q, (byKey key).arrange rows = p ++ y :: z :: q ∧ p.length + 1 = (k + 1) * L ∧
      key y = key z := by
  simp only [OnOnePage, not_forall] at hone
  obtain ⟨x, hx, hne⟩ := hone
  have hperm := (byKey key).perm rows
  have hsorted := (byKey key).sorted rows
  obtain ⟨i, hi⟩ := List.mem_iff_getElem?.1 (hperm.mem_iff.2 hx)
  have hpos := position hperm hsorted hi
  have hlt : newer key rows (key x) / L < (notOlder key rows (key x) - 1) / L :=
    lt_of_le_of_ne (Nat.div_le_div_right (by omega)) hne
  obtain ⟨k, hk⟩ := Nat.exists_eq_succ_of_ne_zero (Nat.ne_zero_of_lt hlt)
  have hfrom : newer key rows (key x) < (k + 1) * L := by
    rw [← Nat.div_lt_iff_lt_mul hL]
    exact hlt.trans_eq hk
  have hto : (k + 1) * L ≤ notOlder key rows (key x) - 1 := by
    rw [← Nat.succ_eq_add_one, ← hk]
    exact Nat.div_mul_le_self _ L
  have hlength := hperm.length_eq
  have hend := notOlder_le_length key rows (key x)
  have hmem : ∀ j, newer key rows (key x) ≤ j → j < notOlder key rows (key x) →
      ∃ y, ((byKey key).arrange rows)[j]? = some y ∧ key y = key x := by
    intro j hj hj'
    have hget := List.getElem?_eq_getElem (l := (byKey key).arrange rows) (i := j) (by omega)
    exact ⟨_, hget, key_of_position hperm hsorted hget hj hj'⟩
  obtain ⟨y, hy, hkey⟩ := hmem ((k + 1) * L - 1) (by omega) (by omega)
  obtain ⟨z, hz, hkey'⟩ := hmem ((k + 1) * L) (by omega) (by omega)
  obtain ⟨p, rest, hsplit, hplen⟩ := exists_split hy
  have hborder : p.length + 1 = (k + 1) * L := by omega
  rw [hsplit, ← hborder, List.getElem?_append_right (by omega), Nat.add_sub_cancel_left] at hz
  obtain ⟨q, rfl⟩ : ∃ q, rest = z :: q := by
    cases rest with
    | nil => cases hz
    | cons z' q => exact ⟨q, by rw [show z' = z from Option.some.inj hz]⟩
  exact ⟨k, p, y, z, q, hsplit, hborder, hkey.trans hkey'.symm⟩

/-- Two ties at the border of a page change places between the queries. -/
theorem exists_shown_twice {L : ℕ} (hL : 0 < L) (hone : ¬ OnOnePage key L rows) :
    ∃ query : ℕ → Arrangement key, ∀ shown,
      Pages (fun k => page L k ((query k).arrange rows)) 0 shown → ¬ shown.Nodup := by
  obtain ⟨k, p, y, z, q, harrange, hborder, hkey⟩ := exists_border hL hone
  obtain ⟨hperm, hsorted⟩ := swap hkey (harrange ▸ (byKey key).perm rows)
    (harrange ▸ (byKey key).sorted rows)
  refine ⟨fun j => if j = k + 1 then given hperm hsorted else byKey key, fun shown h hnodup => ?_⟩
  have hlength : rows.length = (k + 1) * L + 1 + q.length := by
    rw [← hperm.length_eq, ← hborder]
    simp only [List.length_append, List.length_cons]
    omega
  have hsub := h.sublist (Nat.zero_le k) fun j _ hj hnil => by
    have hend := (page_eq_nil hL).1 hnil
    rw [(Arrangement.perm _ rows).length_eq] at hend
    have hle := Nat.mul_le_mul_right L hj
    omega
  have hfirst : y ∈ page L k ((byKey key).arrange rows) := by
    rw [mem_page hL, harrange]
    refine ⟨p.length, by simp, ?_⟩
    have hlast : p.length = L * k + (L - 1) := by
      rw [Nat.add_one_mul, Nat.mul_comm k] at hborder
      omega
    rw [hlast, Nat.mul_add_div hL, Nat.div_eq_of_lt (by omega), add_zero]
  have hsecond : y ∈ page L (k + 1) (p ++ z :: y :: q) := by
    rw [mem_page hL]
    refine ⟨p.length + 1, by simp, ?_⟩
    rw [hborder, Nat.mul_div_cancel _ hL]
  have hdisjoint := (List.nodup_append.1 (hnodup.sublist hsub)).2.2
  dsimp only at hdisjoint
  rw [if_neg (by omega), if_pos rfl, given_arrange] at hdisjoint
  exact hdisjoint y hfirst y hsecond rfl

/-- **Every row is shown once**, in every order of the ties, iff no tie crosses the border of a page.
`view` is what the rows are told apart by. -/
theorem each_once_iff {γ : Type} (view : α → γ) {L : ℕ} (hL : 0 < L)
    (hnodup : (rows.map view).Nodup) :
    (∀ query : ℕ → Arrangement key, ∃ shown,
      Pages (fun k => page L k ((query k).arrange rows)) 0 shown ∧
        (shown.map view).Perm (rows.map view)) ↔ OnOnePage key L rows := by
  constructor
  · intro honce
    by_contra hone
    obtain ⟨query, htwice⟩ := exists_shown_twice hL hone
    obtain ⟨shown, hpages, hperm⟩ := honce query
    exact htwice shown hpages (.of_map view (hperm.nodup_iff.2 hnodup))
  · intro hone query
    have hend : page L rows.length ((query rows.length).arrange rows) = [] := by
      rw [page_eq_nil hL, ((query rows.length).perm rows).length_eq]
      exact Nat.le_mul_of_pos_right _ hL
    obtain ⟨shown, hpages⟩ := exists_pages (fun k => page L k ((query k).arrange rows)) hend
      rows.length 0 (Nat.zero_add _)
    have hperm := hone.perm hL (.of_map view hnodup) hpages
    have hall : (rows.filter fun x => 0 ≤ newer key rows (key x) / L) = rows := by simp
    rw [hall] at hperm
    exact ⟨shown, hpages, hperm.map view⟩

end
end Paging
