import Mathlib.Data.List.Nodup

/-!
# Tables with a primary key

A table is a list of rows, in physical order, together with the proof that no two rows share their
primary key. `put` writes a row (in place of the one with its key, at the end otherwise), `erase`
removes one, `get?` looks one up. The lemmas say what a lookup finds after a write, so callers
reason about rows and keys and never about positions.
-/

namespace Relational

class PrimaryKey (ρ : Type) (κ : outParam Type) where
  pk : ρ → κ

export PrimaryKey (pk)

variable {ρ κ : Type} [PrimaryKey ρ κ]

structure Table (ρ : Type) {κ : Type} [PrimaryKey ρ κ] where
  rows : List ρ
  nodup : (rows.map pk).Nodup

namespace Table

@[ext] theorem ext {t t' : Table ρ} (h : t.rows = t'.rows) : t = t' := by
  cases t; cases t'; cases h; rfl

instance [DecidableEq ρ] : DecidableEq (Table ρ) := fun t t' =>
  decidable_of_iff (t.rows = t'.rows) ⟨ext, fun h => h ▸ rfl⟩

def empty : Table ρ := ⟨[], List.nodup_nil⟩

theorem eq_of_pk_eq (t : Table ρ) {r r' : ρ} (h : r ∈ t.rows) (h' : r' ∈ t.rows)
    (hk : pk r = pk r') : r = r' :=
  List.inj_on_of_nodup_map t.nodup h h' hk

/-- Every row through a function that keeps the key. -/
def map {ρ' : Type} [PrimaryKey ρ' κ] (t : Table ρ) (f : ρ → ρ') (hf : ∀ r, pk (f r) = pk r) :
    Table ρ' where
  rows := t.rows.map f
  nodup := by
    rw [List.map_map, show (pk ∘ f : ρ → κ) = pk from funext hf]
    exact t.nodup

variable [DecidableEq κ]

def get? (t : Table ρ) (k : κ) : Option ρ := t.rows.find? fun r => pk r = k

theorem get?_eq_some {t : Table ρ} {k : κ} {r : ρ} :
    t.get? k = some r ↔ r ∈ t.rows ∧ pk r = k := by
  constructor
  · intro h
    exact ⟨List.mem_of_find?_eq_some h, by simpa using List.find?_some h⟩
  · rintro ⟨hr, rfl⟩
    cases h : t.get? (pk r) with
    | none =>
      have := List.find?_eq_none.1 h r hr
      simp at this
    | some r' =>
      have hk : pk r' = pk r := by simpa using List.find?_some h
      rw [t.eq_of_pk_eq (List.mem_of_find?_eq_some h) hr hk]

theorem get?_eq_none {t : Table ρ} {k : κ} : t.get? k = none ↔ ∀ r ∈ t.rows, pk r ≠ k := by
  simp [get?, List.find?_eq_none]

theorem mem_iff_get? {t : Table ρ} {r : ρ} : r ∈ t.rows ↔ t.get? (pk r) = some r := by
  simp [get?_eq_some]

theorem pk_of_get? {t : Table ρ} {k : κ} {r : ρ} (h : t.get? k = some r) : pk r = k :=
  (get?_eq_some.1 h).2

/-! ### Writing a row -/

/-- The row `r` in place of the one with its key, or at the end. -/
def upsert (r : ρ) : List ρ → List ρ
  | [] => [r]
  | x :: xs => if pk x = pk r then r :: xs else x :: upsert r xs

theorem upsert_of_new {r : ρ} {l : List ρ} (h : ∀ x ∈ l, pk x ≠ pk r) : upsert r l = l ++ [r] := by
  induction l with
  | nil => rfl
  | cons x xs ih =>
    rw [upsert, if_neg (h x (by simp)), ih fun y hy => h y (by simp [hy])]
    rfl

theorem map_upsert_of_mem {β : Type} (f : ρ → β) {r : ρ} {l : List ρ} (h : ∃ x ∈ l, pk x = pk r)
    (hf : ∀ x ∈ l, pk x = pk r → f x = f r) : (upsert r l).map f = l.map f := by
  induction l with
  | nil => simp at h
  | cons x xs ih =>
    by_cases hx : pk x = pk r
    · simp [upsert, hx, hf x (by simp) hx]
    · obtain ⟨y, hy, hk⟩ := h
      have hy' : y ∈ xs := (List.mem_cons.1 hy).resolve_left fun he => hx (he ▸ hk)
      simp [upsert, hx, ih ⟨y, hy', hk⟩ fun z hz => hf z (by simp [hz])]

theorem nodup_upsert {r : ρ} {l : List ρ} (h : (l.map pk).Nodup) :
    ((upsert r l).map pk).Nodup := by
  by_cases hr : ∃ x ∈ l, pk x = pk r
  · rwa [map_upsert_of_mem pk hr fun _ _ hk => hk]
  · have hr' : ∀ x ∈ l, pk x ≠ pk r := fun x hx hk => hr ⟨x, hx, hk⟩
    rw [upsert_of_new hr', List.map_append]
    refine h.append (by simp) ?_
    simpa [List.Disjoint] using hr'

theorem find?_upsert (r : ρ) (l : List ρ) (k : κ) :
    (upsert r l).find? (fun x => pk x = k) =
      if pk r = k then some r else l.find? fun x => pk x = k := by
  induction l with
  | nil => by_cases h : pk r = k <;> simp [upsert, h]
  | cons x xs ih =>
    by_cases hx : pk x = pk r
    · by_cases h : pk r = k
      · simp [upsert, hx, h]
      · simp [upsert, hx, h]
    · rw [upsert, if_neg hx, List.find?_cons, List.find?_cons, ih]
      by_cases h : pk r = k
      · have : pk x ≠ k := fun he => hx (he.trans h.symm)
        simp [this, h]
      · simp [h]

def put (t : Table ρ) (r : ρ) : Table ρ := ⟨upsert r t.rows, nodup_upsert t.nodup⟩

theorem get?_put (t : Table ρ) (r : ρ) (k : κ) :
    (t.put r).get? k = if pk r = k then some r else t.get? k :=
  find?_upsert r t.rows k

@[simp] theorem get?_put_self (t : Table ρ) (r : ρ) : (t.put r).get? (pk r) = some r := by
  simp [get?_put]

theorem get?_put_of_ne (t : Table ρ) {r : ρ} {k : κ} (h : pk r ≠ k) :
    (t.put r).get? k = t.get? k := by
  simp [get?_put, h]

theorem mem_put {t : Table ρ} {r x : ρ} :
    x ∈ (t.put r).rows ↔ x = r ∨ x ∈ t.rows ∧ pk r ≠ pk x := by
  rw [mem_iff_get?, get?_put]
  by_cases h : pk r = pk x
  · simp [h, eq_comm]
  · have hne : x ≠ r := fun he => h (he ▸ rfl)
    simp [h, hne, mem_iff_get?]

/-- A row that differs from the one with its key in columns that are not looked at. -/
theorem map_put_of_mem {β : Type} (f : ρ → β) {t : Table ρ} {r x : ρ} (hx : x ∈ t.rows)
    (hk : pk x = pk r) (hf : f x = f r) : (t.put r).rows.map f = t.rows.map f :=
  map_upsert_of_mem f ⟨x, hx, hk⟩ fun _ hy hyk =>
    (congrArg f (t.eq_of_pk_eq hy hx (hyk.trans hk.symm))).trans hf

theorem rows_put_of_new {t : Table ρ} {r : ρ} (h : t.get? (pk r) = none) :
    (t.put r).rows = t.rows ++ [r] :=
  upsert_of_new (get?_eq_none.1 h)

/-! ### Removing a row -/

def erase (t : Table ρ) (k : κ) : Table ρ where
  rows := t.rows.filter fun r => pk r ≠ k
  nodup := t.nodup.sublist (List.filter_sublist.map _)

theorem mem_erase {t : Table ρ} {k : κ} {r : ρ} :
    r ∈ (t.erase k).rows ↔ r ∈ t.rows ∧ pk r ≠ k := by
  simp [erase]

theorem get?_erase (t : Table ρ) (k k' : κ) :
    (t.erase k).get? k' = if k' = k then none else t.get? k' := by
  by_cases h : k' = k
  · rw [if_pos h, get?_eq_none]
    intro r hr hk
    exact (mem_erase.1 hr).2 (hk.trans h)
  · rw [if_neg h]
    apply Option.ext
    intro r
    rw [get?_eq_some, get?_eq_some, mem_erase]
    constructor
    · rintro ⟨⟨hr, -⟩, hk⟩
      exact ⟨hr, hk⟩
    · rintro ⟨hr, hk⟩
      exact ⟨⟨hr, hk ▸ h⟩, hk⟩

end Table
end Relational
