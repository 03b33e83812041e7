import Mathlib.Data.List.Sort

/-!
# Arrays with one axis of rows

Selecting rows by a list of indices, sorting by indices, and grids laid out row by row. Selection
commutes with `map` (`gather_map`): arrays that are images of one list stay so when they are indexed
alike, and that is how parallel arrays are kept together.
-/

namespace Arrays

variable {α β κ : Type}

/-- `a[idx]` -/
def gather (l : List α) (idx : List ℕ) : List α := idx.filterMap fun i => l[i]?

/-- `np.where(p(a))[0]` -/
def whereIdx (p : α → Bool) (l : List α) : List ℕ :=
  (List.range l.length).filter fun i => l[i]?.any p

theorem gather_map (f : α → β) (l : List α) (idx : List ℕ) :
    gather (l.map f) idx = (gather l idx).map f := by
  rw [gather, gather, List.map_filterMap]
  exact List.filterMap_congr fun i _ => List.getElem?_map

theorem gather_subset (l : List α) (idx : List ℕ) : gather l idx ⊆ l := by
  intro a ha
  obtain ⟨i, -, hi⟩ := List.mem_filterMap.1 ha
  exact List.mem_of_getElem? hi

theorem length_gather {l : List α} {idx : List ℕ} (h : ∀ i ∈ idx, i < l.length) :
    (gather l idx).length = idx.length := by
  induction idx with
  | nil => rfl
  | cons i idx ih =>
    have hlt := h i List.mem_cons_self
    have hi : l[i]? = some l[i] := List.getElem?_eq_getElem hlt
    rw [gather, List.filterMap_cons_some hi, List.length_cons, List.length_cons]
    exact congrArg (· + 1) (ih fun j hj => h j (List.mem_cons_of_mem i hj))

theorem gather_nodup {l : List α} {idx : List ℕ} (h : l.Nodup) (hidx : idx.Nodup) :
    (gather l idx).Nodup := by
  refine List.Nodup.filterMap (fun i j a hi hj => ?_) hidx
  obtain ⟨hi', rfl⟩ := List.getElem?_eq_some_iff.1 hi
  obtain ⟨hj', he⟩ := List.getElem?_eq_some_iff.1 hj
  exact (h.getElem_inj_iff.1 he).symm

theorem mem_whereIdx {p : α → Bool} {l : List α} {i : ℕ} (h : i ∈ whereIdx p l) : i < l.length :=
  List.mem_range.1 (List.mem_filter.1 h).1

/-! ### Shapes -/

/-- The rows of two arrays side by side; an array of one row is repeated. -/
def broadcast (l : List α) (m : List β) : Option (List (α × β)) :=
  if l.length = m.length then some (l.zip m)
  else match l, m with
    | [a], m => some (m.map (a, ·))
    | l, [b] => some (l.map (·, b))
    | _, _ => none

theorem broadcast_of_length_eq {l : List α} {m : List β} (h : l.length = m.length) :
    broadcast l m = some (l.zip m) :=
  if_pos h

/-- Rows of `n` elements, put one after another. -/
theorem getElem?_flatMap {f : α → List β} {l : List α} {n j : ℕ}
    (h : ∀ a ∈ l, (f a).length = n) (hj : j < n) (i : ℕ) :
    (l.flatMap f)[n * i + j]? = l[i]?.bind fun a => (f a)[j]? := by
  induction l generalizing i with
  | nil => rfl
  | cons a l ih =>
    obtain ⟨hfirst, hrest⟩ := List.forall_mem_cons.1 h
    rw [List.flatMap_cons]
    cases i with
    | zero =>
      rw [Nat.mul_zero, Nat.zero_add, List.getElem?_append_left (by omega)]
      rfl
    | succ i =>
      have hshift : n * (i + 1) + j = (f a).length + (n * i + j) := by
        rw [hfirst, Nat.mul_succ]
        omega
      rw [hshift, List.getElem?_append_right (by omega), Nat.add_sub_cancel_left, ih hrest]
      rfl

theorem length_flatMap_eq {f : α → List β} {l : List α} {n : ℕ} (h : ∀ a ∈ l, (f a).length = n) :
    (l.flatMap f).length = n * l.length := by
  induction l with
  | nil => rfl
  | cons a l ih =>
    obtain ⟨hfirst, hrest⟩ := List.forall_mem_cons.1 h
    rw [List.flatMap_cons, List.length_append, hfirst, ih hrest, List.length_cons, Nat.mul_succ,
      Nat.add_comm]

/-! ### Sorting -/

/-- `argsort`: the order of equal elements is left open. -/
structure Argsort (κ : Type) [LE κ] where
  sort : List κ → List ℕ
  perm : ∀ l, (sort l).Perm (List.range l.length)
  sorted : ∀ l, (sort l).Pairwise fun i j => ∀ a ∈ l[i]?, ∀ b ∈ l[j]?, a ≤ b

section
variable [LinearOrder κ] (A : Argsort κ) (l : List κ)

theorem Argsort.nodup : (A.sort l).Nodup := (A.perm l).nodup_iff.2 List.nodup_range

/-- Indices, largest element first. -/
def Argsort.descending : List ℕ := (A.sort l).reverse

theorem Argsort.descending_perm : (A.descending l).Perm (List.range l.length) :=
  (List.reverse_perm _).trans (A.perm l)

theorem Argsort.descending_nodup : (A.descending l).Nodup :=
  List.nodup_reverse.2 (A.nodup l)

/-- What is not among the first `k` is not larger than what is. -/
theorem Argsort.le_of_take {k i j : ℕ} (hi : i ∈ (A.descending l).take k) (hj : j < l.length)
    (hdropped : j ∉ (A.descending l).take k) {a b : κ} (ha : l[i]? = some a) (hb : l[j]? = some b) :
    b ≤ a := by
  have hmem : j ∈ (A.descending l).take k ++ (A.descending l).drop k := by
    rw [List.take_append_drop, (A.descending_perm l).mem_iff]
    exact List.mem_range.2 hj
  have hdrop := (List.mem_append.1 hmem).resolve_left hdropped
  have hsorted : (A.descending l).Pairwise fun i j => ∀ a ∈ l[j]?, ∀ b ∈ l[i]?, a ≤ b :=
    List.pairwise_reverse.2 (A.sorted l)
  rw [← List.take_append_drop k (A.descending l), List.pairwise_append] at hsorted
  exact hsorted.2.2 i hi j hdrop b hb a ha

end

/-- Insertion sort of the indices. -/
def Argsort.byInsertion [LinearOrder κ] [Inhabited κ] : Argsort κ where
  sort l := (List.range l.length).insertionSort fun i j => l.getD i default ≤ l.getD j default
  perm _ := List.perm_insertionSort _ _
  sorted l := by
    have : Std.Total fun i j => l.getD i default ≤ l.getD j default := ⟨fun _ _ => le_total _ _⟩
    have : IsTrans ℕ fun i j => l.getD i default ≤ l.getD j default := ⟨fun _ _ _ => le_trans⟩
    refine (List.pairwise_insertionSort (fun i j => l.getD i default ≤ l.getD j default)
      (List.range l.length)).imp fun hle a ha b hb => ?_
    rwa [List.getD_eq_getElem?_getD, List.getD_eq_getElem?_getD, ha, hb] at hle

/-! ### Grids -/

theorem eq_map_range (l : List α) (d : α) : l = (List.range l.length).map fun i => l.getD i d := by
  refine List.ext_getElem (by simp) fun i hi _ => ?_
  simp [List.getElem?_eq_getElem hi]

/-- A grid of `m` rows and `n` columns, laid out row by row. -/
theorem flatMap_range (m n : ℕ) (f : ℕ → ℕ → α) :
    ((List.range m).flatMap fun i => (List.range n).map (f i)) =
      (List.range (m * n)).map fun k => f (k / n) (k % n) := by
  induction m with
  | zero => simp
  | succ m ih =>
    rw [List.range_succ, List.flatMap_append, ih, Nat.succ_mul, List.range_add, List.map_append,
      List.map_map, List.flatMap_singleton]
    refine congrArg _ (List.map_congr_left fun j hj => ?_)
    have hj := List.mem_range.1 hj
    have hn : 0 < n := by omega
    simp [Nat.mul_comm m n, Nat.mul_add_div hn, Nat.div_eq_of_lt hj, Nat.mod_eq_of_lt hj]

/-- Row `i`, column `j` of a grid. -/
theorem getElem?_grid {m n i j : ℕ} (f : ℕ → ℕ → α) (hi : i < m) (hj : j < n) :
    ((List.range m).flatMap fun i => (List.range n).map (f i))[n * i + j]? = some (f i j) := by
  have hn : 0 < n := by omega
  have hlt : n * i + j < m * n := by
    calc n * i + j < n * i + n := Nat.add_lt_add_left hj _
      _ = (i + 1) * n := by rw [Nat.succ_mul, Nat.mul_comm]
      _ ≤ m * n := Nat.mul_le_mul_right n hi
  have hdiv : (n * i + j) / n = i := by
    rw [Nat.mul_add_div hn, Nat.div_eq_of_lt hj, Nat.add_zero]
  have hmod : (n * i + j) % n = j := by rw [Nat.mul_add_mod, Nat.mod_eq_of_lt hj]
  rw [flatMap_range, List.getElem?_map, List.getElem?_range hlt, Option.map_some, hdiv, hmod]

theorem gather_map_range (f : ℕ → α) {n : ℕ} {idx : List ℕ} (h : ∀ i ∈ idx, i < n) :
    gather ((List.range n).map f) idx = idx.map f := by
  rw [gather, ← List.filterMap_eq_map]
  refine List.filterMap_congr fun i hi => ?_
  simp [List.getElem?_range (h i hi)]

theorem whereIdx_map_range (p : α → Bool) (f : ℕ → α) (n : ℕ) :
    whereIdx p ((List.range n).map f) = (List.range n).filter fun i => p (f i) := by
  rw [whereIdx, List.length_map, List.length_range]
  refine List.filter_congr fun i hi => ?_
  simp [List.getElem?_range (List.mem_range.1 hi)]

theorem gather_whereIdx (p : α → Bool) (l : List α) : gather l (whereIdx p l) = l.filter p := by
  have hfilter : ∀ d, gather l (whereIdx p l) = l.filter p := fun d => by
    rw [eq_map_range l d, whereIdx_map_range, gather_map_range _ fun i hi =>
      List.mem_range.1 (List.mem_of_mem_filter hi), List.filter_map]
    rfl
  cases l with
  | nil => rfl
  | cons a l => exact hfilter a

end Arrays
