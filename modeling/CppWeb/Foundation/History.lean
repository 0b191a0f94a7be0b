/-
  Foundation/History.lean --- how often a quantity has entered a set.

  A history is the list of the values that a quantity has had, oldest first.
  The quantity enters the set when a value inside follows one outside.  The
  rules say how the entries of a history grow with it, and that between two
  entries the quantity has been outside.
-/
import Mathlib.Data.List.Basic

set_option autoImplicit false

namespace CppWeb.Foundation

variable {α : Type} (p : α → Prop) [DecidablePred p]

/-- The values with which the history enters `p`. -/
def entries : List α → List α
  | [] => []
  | [_] => []
  | x :: y :: rest => (if ¬ p x ∧ p y then [y] else []) ++ entries (y :: rest)

/-- One more value. -/
theorem entries_concat {history : List α} {x : α} (hlast : history.getLast? = some x) (y : α) :
    entries p (history ++ [y]) = entries p history ++ if ¬ p x ∧ p y then [y] else [] := by
  induction history with
  | nil => cases hlast
  | cons first rest ih =>
    cases rest with
    | nil =>
      obtain rfl : first = x := by simpa using hlast
      simp [entries]
    | cons second rest =>
      have hrest := ih (by simpa using hlast)
      rw [List.cons_append, List.cons_append, entries, ← List.cons_append, hrest, entries,
        List.append_assoc]

theorem entries_concat_of_not {history : List α} {x : α} (hlast : history.getLast? = some x)
    {y : α} (h : p y → p x) : entries p (history ++ [y]) = entries p history := by
  rw [entries_concat p hlast, if_neg, List.append_nil]
  exact fun henters => henters.1 (h henters.2)

/-- A history that stays inside enters no more. -/
theorem entries_append_of_forall {history : List α} {x : α} (hlast : history.getLast? = some x)
    (hx : p x) {later : List α} (h : ∀ y ∈ later, p y) :
    entries p (history ++ later) = entries p history := by
  induction later generalizing history x with
  | nil => rw [List.append_nil]
  | cons y later ih =>
    obtain ⟨hy, hlater⟩ := List.forall_mem_cons.mp h
    have hlast' : (history ++ [y]).getLast? = some y := by simp
    have hsplit : history ++ y :: later = history ++ [y] ++ later := by simp
    rw [hsplit, ih hlast' hy hlater]
    exact entries_concat_of_not p hlast fun _ => hx

/-- **Between two entries the quantity has been outside.** -/
theorem exists_not_of_entries {history : List α} {x : α} (hlast : history.getLast? = some x)
    (hx : p x) {later : List α} (h : entries p (history ++ later) ≠ entries p history) :
    ∃ y ∈ later, ¬ p y := by
  by_contra hall
  simp only [not_exists, not_and, not_not] at hall
  exact h (entries_append_of_forall p hlast hx hall)

end CppWeb.Foundation
