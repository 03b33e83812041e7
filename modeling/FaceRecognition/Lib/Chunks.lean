import Mathlib.Data.List.Basic
import Mathlib.Algebra.Order.Group.Int

/-!
# Collecting a list into chunks

A loop appends the elements to a buffer and hands the buffer on when it has reached a size; what is
left at the end is handed on too. The chunks are full except the last one (`chunked_collect`), and
a list of such chunks is what the loop makes of its concatenation (`collect_flatten`): so leaving
out whole chunks does not shift the borders of the others.
-/

namespace Chunks

variable {α : Type}

/-- The buffers handed on, from a buffer that holds `buffer`. A size below one counts as one. -/
def collect (size : ℤ) (buffer : List α) : List α → List (List α)
  | [] => if buffer = [] then [] else [buffer]
  | a :: l =>
    if size ≤ (buffer ++ [a]).length then (buffer ++ [a]) :: collect size [] l
    else collect size (buffer ++ [a]) l

theorem flatten_collect (size : ℤ) (buffer l : List α) :
    (collect size buffer l).flatten = buffer ++ l := by
  induction l generalizing buffer with
  | nil =>
    rw [collect]
    split_ifs with h <;> simp [h]
  | cons a l ih =>
    rw [collect]
    split_ifs <;> simp [ih]

/-- No chunk is empty or longer than `n`, and all but the last are full. -/
structure Chunked (n : ℕ) (chunks : List (List α)) : Prop where
  ne_nil : ∀ b ∈ chunks, b ≠ []
  length_le : ∀ b ∈ chunks, b.length ≤ n
  full : chunks.Pairwise fun b _ => b.length = n

theorem Chunked.sublist {n : ℕ} {chunks chunks' : List (List α)} (h : Chunked n chunks)
    (hs : chunks'.Sublist chunks) : Chunked n chunks' :=
  ⟨fun b hb => h.ne_nil b (hs.subset hb), fun b hb => h.length_le b (hs.subset hb),
    h.full.sublist hs⟩

/-- The size the loop really uses. -/
def effective (size : ℤ) : ℕ := max 1 size.toNat

theorem size_le_iff {size : ℤ} {n : ℕ} (hn : 0 < n) : size ≤ n ↔ effective size ≤ n := by
  rw [effective]
  omega

theorem chunked_collect (size : ℤ) {buffer : List α} (h : buffer.length < effective size)
    (l : List α) : Chunked (effective size) (collect size buffer l) := by
  induction l generalizing buffer with
  | nil =>
    rw [collect]
    split_ifs with hb
    · exact ⟨by simp, by simp, .nil⟩
    · exact ⟨by simpa using hb, by simpa using h.le, by simp⟩
  | cons a l ih =>
    have hpos : 0 < (buffer ++ [a]).length := by simp
    rw [collect]
    split_ifs with hsize
    · rw [size_le_iff hpos, List.length_append, List.length_singleton] at hsize
      have hlen : (buffer ++ [a]).length = effective size := by
        rw [List.length_append, List.length_singleton]
        omega
      obtain ⟨hne, hle, hfull⟩ := @ih [] (by simp [effective])
      refine ⟨?_, ?_, List.pairwise_cons.2 ⟨fun _ _ => hlen, hfull⟩⟩
      · exact List.forall_mem_cons.2 ⟨by simp, hne⟩
      · exact List.forall_mem_cons.2 ⟨hlen.le, hle⟩
    · rw [size_le_iff hpos] at hsize
      exact ih (not_le.1 hsize)

/-- A chunk that is not full is not handed on before the end of the list. -/
theorem collect_of_short {size : ℤ} {buffer l : List α}
    (h : (buffer ++ l).length < effective size) :
    collect size buffer l = if buffer ++ l = [] then [] else [buffer ++ l] := by
  induction l generalizing buffer with
  | nil => rw [collect, List.append_nil]
  | cons a l ih =>
    have hsplit : buffer ++ a :: l = buffer ++ [a] ++ l := by simp
    rw [hsplit] at h ⊢
    have hsize : ¬ size ≤ (buffer ++ [a]).length := by
      rw [size_le_iff (by simp)]
      rw [List.length_append] at h
      omega
    rw [collect, if_neg hsize, ih h]

/-- A full chunk is handed on when its last element has come. -/
theorem collect_of_full {size : ℤ} {buffer l rest : List α} (hl : l ≠ [])
    (h : (buffer ++ l).length = effective size) :
    collect size buffer (l ++ rest) = (buffer ++ l) :: collect size [] rest := by
  induction l generalizing buffer with
  | nil => exact absurd rfl hl
  | cons a l ih =>
    have hsplit : buffer ++ a :: l = buffer ++ [a] ++ l := by simp
    rw [hsplit] at h ⊢
    rw [List.cons_append, collect]
    cases l with
    | nil =>
      rw [List.append_nil] at h ⊢
      rw [if_pos ((size_le_iff (by simp)).2 h.ge), List.nil_append]
    | cons b l =>
      have hsize : ¬ size ≤ (buffer ++ [a]).length := by
        rw [size_le_iff (by simp)]
        rw [List.length_append, List.length_cons] at h
        omega
      rw [if_neg hsize, ih (by simp) h]

theorem collect_flatten {size : ℤ} {chunks : List (List α)} (h : Chunked (effective size) chunks) :
    collect size [] chunks.flatten = chunks := by
  induction chunks with
  | nil => rfl
  | cons b chunks ih =>
    have hb : b ≠ [] := h.ne_nil b (by simp)
    have hrest := ih (h.sublist (List.sublist_cons_self b chunks))
    rw [List.flatten_cons]
    cases chunks with
    | nil =>
      rcases (h.length_le b (by simp)).lt_or_eq with hlt | heq
      · rw [List.flatten_nil, List.append_nil, collect_of_short (by simpa using hlt)]
        simp [hb]
      · rw [collect_of_full hb (by simpa using heq)]
        rfl
    | cons b' chunks =>
      have hlen : b.length = effective size := (List.pairwise_cons.1 h.full).1 b' (by simp)
      rw [collect_of_full hb (by simpa using hlen), hrest]
      rfl

end Chunks
