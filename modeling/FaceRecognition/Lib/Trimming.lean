import Mathlib.Data.List.DropRight

/-!
# Trimming

A list without what satisfies `p` at its two ends. Nothing is trimmed exactly when the ends do not
satisfy `p`; when the ends are among what a trim has not lost, it has lost nothing.
-/

namespace Trimming

variable {α : Type}

def trim (p : α → Bool) (l : List α) : List α := ((l.dropWhile p).reverse.dropWhile p).reverse

/-- The first and the last element, if there are any, satisfy `q`. -/
structure Ends (q : α → Prop) (l : List α) : Prop where
  first : ∀ a ∈ l.head?, q a
  last : ∀ a ∈ l.getLast?, q a

instance (q : α → Prop) [DecidablePred q] (l : List α) : Decidable (Ends q l) :=
  decidable_of_iff ((∀ a ∈ l.head?, q a) ∧ ∀ a ∈ l.getLast?, q a)
    ⟨fun h => ⟨h.1, h.2⟩, fun h => ⟨h.1, h.2⟩⟩

variable {p q : α → Bool} {l : List α}

theorem Ends.imp {P Q : α → Prop} (h : Ends P l) (himp : ∀ a, P a → Q a) : Ends Q l :=
  ⟨fun a ha => himp a (h.first a ha), fun a ha => himp a (h.last a ha)⟩

theorem Ends.reverse {P : α → Prop} (h : Ends P l) : Ends P l.reverse :=
  ⟨fun a ha => h.last a (by rwa [List.head?_reverse] at ha),
    fun a ha => h.first a (by rwa [List.getLast?_reverse] at ha)⟩

theorem ends_and {P Q : α → Prop} : Ends (fun a => P a ∧ Q a) l ↔ Ends P l ∧ Ends Q l :=
  ⟨fun h => ⟨h.imp fun _ ha => ha.1, h.imp fun _ ha => ha.2⟩, fun h =>
    ⟨fun a ha => ⟨h.1.first a ha, h.2.first a ha⟩, fun a ha => ⟨h.1.last a ha, h.2.last a ha⟩⟩⟩

theorem dropWhile_eq_self_iff_head? : l.dropWhile p = l ↔ ∀ a ∈ l.head?, p a = false := by
  cases l with
  | nil => exact iff_of_true rfl fun a ha => by cases ha
  | cons a l => simp [List.dropWhile_eq_self_iff]

theorem trim_eq_self_of_ends (h : Ends (p · = false) l) : trim p l = l := by
  rw [trim, dropWhile_eq_self_iff_head?.2 h.first, dropWhile_eq_self_iff_head?.2 h.reverse.first,
    List.reverse_reverse]

theorem trim_prefix_dropWhile : trim p l <+: l.dropWhile p := List.rdropWhile_prefix p _

theorem trim_sublist : List.Sublist (trim p l) l :=
  trim_prefix_dropWhile.sublist.trans (List.dropWhile_sublist p)

theorem ends_trim (p : α → Bool) (l : List α) : Ends (p · = false) (trim p l) where
  first a ha := by
    have hhead : a ∈ (l.dropWhile p).head? := by
      obtain ⟨rest, hrest⟩ := trim_prefix_dropWhile (p := p) (l := l)
      rw [← hrest, List.head?_append, Option.mem_def.1 ha]
      rfl
    have := List.head?_dropWhile_not p l
    rw [Option.mem_def.1 hhead] at this
    exact this
  last a ha := by
    rw [trim, List.getLast?_reverse] at ha
    have := List.head?_dropWhile_not p (l.dropWhile p).reverse
    rw [Option.mem_def.1 ha] at this
    exact this

theorem trim_eq_self_iff : trim p l = l ↔ Ends (p · = false) l :=
  ⟨fun h => h ▸ ends_trim p l, trim_eq_self_of_ends⟩

/-- What is dropped has an element that is counted. -/
theorem dropWhile_eq_self_of_countP (hfirst : ∀ a ∈ l.head?, q a = true)
    (hcount : l.countP q ≤ (l.dropWhile p).countP q) : l.dropWhile p = l := by
  rw [dropWhile_eq_self_iff_head?]
  cases l with
  | nil => exact fun a ha => by cases ha
  | cons a l =>
    rintro _ ⟨⟩
    by_contra hp
    rw [List.dropWhile_cons_of_pos (by simpa using hp),
      List.countP_cons_of_pos (hfirst a rfl)] at hcount
    have := (List.dropWhile_sublist p (l := l)).countP_le (p := q)
    omega

theorem trim_eq_self_of_countP (hends : Ends (q · = true) l)
    (hcount : l.countP q ≤ (trim p l).countP q) : trim p l = l := by
  have hback : (trim p l).countP q = ((l.dropWhile p).reverse.dropWhile p).countP q :=
    List.countP_reverse
  have hle := (List.dropWhile_sublist p (l := (l.dropWhile p).reverse)).countP_le (p := q)
  rw [List.countP_reverse] at hle
  have hfront : l.dropWhile p = l := dropWhile_eq_self_of_countP hends.first (by omega)
  rw [hfront] at hback
  have hrest : l.reverse.dropWhile p = l.reverse :=
    dropWhile_eq_self_of_countP hends.reverse.first (by rw [List.countP_reverse]; omega)
  rw [trim, hfront, hrest, List.reverse_reverse]

end Trimming
