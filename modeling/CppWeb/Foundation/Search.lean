/-
  Foundation/Search.lean --- the first occurrence of a pattern, and what is left
  when a sequence is cut at its occurrences.

  `search` answers like `std::search`: the index of the first occurrence, or the
  length of the sequence when there is none.  `cut` takes off what stands before
  the first occurrence; `Cuts` is any number of cuts in a row.

  Cutting does not depend on what has not arrived yet: a cut that is possible is
  the same after the sequence was extended (`cut_append`).  Hence the pieces that
  are cut off a sequence as it arrives, and the rest in which there is nothing
  left to cut, are determined by the sequence alone (`Cuts.unique`).
-/
import Mathlib.Data.List.TakeDrop

set_option autoImplicit false

namespace CppWeb.Foundation

variable {α : Type}

/-- The pattern stands at index `i`. -/
def OccursAt (pattern l : List α) (i : Nat) : Prop := pattern <+: l.drop i

theorem OccursAt.le {pattern l : List α} {i : Nat} (h : OccursAt pattern l i)
    (hpattern : pattern ≠ []) : i + pattern.length ≤ l.length := by
  have hlen := List.IsPrefix.length_le h
  have hpos := List.length_pos_iff.mpr hpattern
  rw [List.length_drop] at hlen
  omega

theorem OccursAt.append {pattern l : List α} {i : Nat} (h : OccursAt pattern l i)
    (hpattern : pattern ≠ []) (more : List α) : OccursAt pattern (l ++ more) i := by
  have hle := h.le hpattern
  rw [OccursAt, List.drop_append_of_le_length (by omega)]
  exact List.IsPrefix.trans h (List.prefix_append _ _)

/-- An occurrence that ends within the first part of a sequence is one of that
part. -/
theorem OccursAt.of_append {pattern l more : List α} {i : Nat}
    (h : OccursAt pattern (l ++ more) i) (hend : i + pattern.length ≤ l.length) :
    OccursAt pattern l i := by
  rw [OccursAt, List.drop_append_of_le_length (by omega)] at h
  refine List.prefix_of_prefix_length_le h (List.prefix_append _ _) ?_
  rw [List.length_drop]
  omega

variable [DecidableEq α]

/-- The index of the first occurrence, the length if there is none. -/
def search (pattern : List α) : List α → Nat
  | [] => 0
  | x :: rest => if pattern.isPrefixOf (x :: rest) then 0 else search pattern rest + 1

theorem search_le (pattern l : List α) : search pattern l ≤ l.length := by
  induction l with
  | nil => exact Nat.le_refl _
  | cons x rest ih =>
    rw [search]
    split
    · exact Nat.zero_le _
    · exact Nat.succ_le_succ ih

theorem occursAt_search {pattern l : List α} (h : search pattern l < l.length) :
    OccursAt pattern l (search pattern l) := by
  induction l with
  | nil => exact absurd h (Nat.lt_irrefl _)
  | cons x rest ih =>
    rw [search] at h ⊢
    split at h
    · rename_i hprefix
      rw [if_pos hprefix]
      exact List.isPrefixOf_iff_prefix.mp hprefix
    · rename_i hprefix
      rw [if_neg hprefix]
      exact ih (Nat.lt_of_succ_lt_succ h)

theorem not_occursAt_of_lt_search {pattern l : List α} {i : Nat} (h : i < search pattern l) :
    ¬ OccursAt pattern l i := by
  induction l generalizing i with
  | nil => exact absurd h (Nat.not_lt_zero _)
  | cons x rest ih =>
    rw [search] at h
    split at h
    · exact absurd h (Nat.not_lt_zero _)
    · rename_i hprefix
      cases i with
      | zero => exact fun hocc => hprefix (List.isPrefixOf_iff_prefix.mpr hocc)
      | succ i => exact ih (Nat.lt_of_succ_lt_succ h)

/-- **The search is exact.** -/
theorem search_eq_iff {pattern l : List α} (hpattern : pattern ≠ []) {i : Nat} :
    (search pattern l = i ∧ i < l.length) ↔
      OccursAt pattern l i ∧ ∀ j, j < i → ¬ OccursAt pattern l j := by
  constructor
  · rintro ⟨rfl, hlt⟩
    exact ⟨occursAt_search hlt, fun j hj => not_occursAt_of_lt_search hj⟩
  · rintro ⟨hocc, hfirst⟩
    have hpos := List.length_pos_iff.mpr hpattern
    have hle := hocc.le hpattern
    have hlt : i < l.length := by omega
    rcases Nat.lt_trichotomy (search pattern l) i with hless | heq | hmore
    · exact absurd (occursAt_search (Nat.lt_trans hless hlt)) (hfirst _ hless)
    · exact ⟨heq, hlt⟩
    · exact absurd hocc (not_occursAt_of_lt_search hmore)

theorem search_eq_length_iff {pattern l : List α} (hpattern : pattern ≠ []) :
    search pattern l = l.length ↔ ∀ i, ¬ OccursAt pattern l i := by
  constructor
  · intro h i hocc
    have hpos := List.length_pos_iff.mpr hpattern
    have hle := hocc.le hpattern
    exact not_occursAt_of_lt_search (by omega) hocc
  · intro h
    by_contra hne
    have hle := search_le pattern l
    exact h _ (occursAt_search (by omega))

/-- A match is not moved by what comes after it. -/
theorem search_append {pattern l : List α} (hpattern : pattern ≠ [])
    (h : search pattern l < l.length) (more : List α) :
    search pattern (l ++ more) = search pattern l := by
  have hocc := occursAt_search h
  refine ((search_eq_iff hpattern).mpr ⟨hocc.append hpattern more, ?_⟩).1
  intro j hj hoccj
  have hle := hocc.le hpattern
  exact not_occursAt_of_lt_search hj (hoccj.of_append (by omega))

/-! ## Cutting -/

/-- What stands before the first occurrence, and what stands behind it. -/
def cut (pattern l : List α) : Option (List α × List α) :=
  if search pattern l = l.length then none
  else some (l.take (search pattern l), l.drop (search pattern l + pattern.length))

theorem cut_eq_none_iff {pattern l : List α} :
    cut pattern l = none ↔ search pattern l = l.length := by
  unfold cut
  split
  · rename_i h
    simp [h]
  · rename_i h
    simp [h]

theorem cut_append {pattern l : List α} (hpattern : pattern ≠ []) {piece rest : List α}
    (h : cut pattern l = some (piece, rest)) (more : List α) :
    cut pattern (l ++ more) = some (piece, rest ++ more) := by
  unfold cut at h
  split at h
  · cases h
  · rename_i hne
    have hlt : search pattern l < l.length := Nat.lt_of_le_of_ne (search_le _ _) hne
    have hle := (occursAt_search hlt).le hpattern
    cases h
    rw [cut, search_append hpattern hlt, if_neg, List.take_append_of_le_length (Nat.le_of_lt hlt),
      List.drop_append_of_le_length hle]
    rw [List.length_append]
    omega

/-- The rest is shorter than the sequence. -/
theorem length_of_cut {pattern l : List α} (hpattern : pattern ≠ []) {piece rest : List α}
    (h : cut pattern l = some (piece, rest)) : rest.length < l.length := by
  unfold cut at h
  split at h
  · cases h
  · rename_i hne
    have hlt : search pattern l < l.length := Nat.lt_of_le_of_ne (search_le _ _) hne
    have hpos := List.length_pos_iff.mpr hpattern
    cases h
    rw [List.length_drop]
    omega

/-- Cutting the pieces off a sequence, one after the other, leaves a rest. -/
inductive Cuts (pattern : List α) : List α → List (List α) → List α → Prop where
  | refl (l : List α) : Cuts pattern l [] l
  | cons {l piece rest : List α} {pieces : List (List α)} {tail : List α}
      (head : cut pattern l = some (piece, rest)) (more : Cuts pattern rest pieces tail) :
      Cuts pattern l (piece :: pieces) tail

namespace Cuts

variable {pattern : List α}

/-- What arrives later is behind everything that was cut off. -/
theorem append (hpattern : pattern ≠ []) {l tail : List α} {pieces : List (List α)}
    (h : Cuts pattern l pieces tail) (more : List α) :
    Cuts pattern (l ++ more) pieces (tail ++ more) := by
  induction h with
  | refl l => exact refl _
  | cons head _ ih => exact cons (cut_append hpattern head more) ih

/-- One more cut. -/
theorem concat {l tail piece rest : List α} {pieces : List (List α)}
    (h : Cuts pattern l pieces tail) (hcut : cut pattern tail = some (piece, rest)) :
    Cuts pattern l (pieces ++ [piece]) rest := by
  induction h with
  | refl l => exact cons hcut (refl rest)
  | cons head _ ih => exact cons head (ih hcut)

/-- **Complete cuttings of one sequence are the same.** -/
theorem unique {l tail tail' : List α} {pieces pieces' : List (List α)}
    (h : Cuts pattern l pieces tail) (h' : Cuts pattern l pieces' tail')
    (htail : cut pattern tail = none) (htail' : cut pattern tail' = none) :
    pieces = pieces' ∧ tail = tail' := by
  induction h generalizing pieces' with
  | refl l =>
    cases h' with
    | refl l => exact ⟨rfl, rfl⟩
    | cons head' _ =>
      rw [htail] at head'
      cases head'
  | cons head _ ih =>
    cases h' with
    | refl l =>
      rw [htail'] at head
      cases head
    | cons head' more' =>
      rw [head] at head'
      cases head'
      obtain ⟨hpieces, hrest⟩ := ih more' htail
      exact ⟨congrArg _ hpieces, hrest⟩

end Cuts

end CppWeb.Foundation
