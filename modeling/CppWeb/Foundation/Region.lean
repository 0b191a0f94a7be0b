/-
  Foundation/Region.lean --- overwriting a region of a sequence.

  `overwrite s at d` is `s` with the elements of `d` stored from index `at` on,
  as a copy into the storage of a vector leaves it.  The two extraction lemmas
  say what a window of the result holds when the window ends, respectively
  begins, where the stored elements do.
-/
import Mathlib.Data.List.TakeDrop

set_option autoImplicit false

namespace CppWeb.Foundation

variable {α : Type}

/-- Store `d` from index `at` on. -/
def overwrite (s : List α) (at_ : Nat) (d : List α) : List α :=
  s.take at_ ++ d ++ s.drop (at_ + d.length)

/-- The `n` elements from index `i` on. -/
def window (s : List α) (i n : Nat) : List α := (s.drop i).take n

theorem length_window {s : List α} {i n : Nat} (h : i + n ≤ s.length) :
    (window s i n).length = n := by
  simp only [window, List.length_take, List.length_drop]
  omega

@[simp] theorem window_zero (s : List α) (i : Nat) : window s i 0 = [] := by
  simp [window]

theorem take_window (s : List α) (i n k : Nat) (h : k ≤ n) :
    (window s i n).take k = window s i k := by
  simp [window, List.take_take, Nat.min_eq_left h]

theorem drop_window (s : List α) (i n k : Nat) :
    (window s i n).drop k = window s (i + k) (n - k) := by
  simp [window, List.drop_take, List.drop_drop]

theorem window_append_right (s t : List α) {i n : Nat} (h : i + n ≤ s.length) :
    window (s ++ t) i n = window s i n := by
  unfold window
  rw [List.drop_append_of_le_length (by omega), List.take_append_of_le_length]
  simp only [List.length_drop]
  omega

theorem length_overwrite {s d : List α} {at_ : Nat} (h : at_ + d.length ≤ s.length) :
    (overwrite s at_ d).length = s.length := by
  simp only [overwrite, List.length_append, List.length_take, List.length_drop]
  omega

theorem getElem?_window (s : List α) (i n j : Nat) :
    (window s i n)[j]? = if j < n then s[i + j]? else none := by
  rw [window, List.getElem?_take, List.getElem?_drop]

theorem getElem?_overwrite {s d : List α} {at_ : Nat} (h : at_ + d.length ≤ s.length)
    (i : Nat) :
    (overwrite s at_ d)[i]? =
      if at_ ≤ i ∧ i < at_ + d.length then d[i - at_]? else s[i]? := by
  have hlen : (s.take at_).length = at_ := by
    rw [List.length_take]
    omega
  rw [overwrite, List.append_assoc]
  by_cases hbefore : i < at_
  · rw [List.getElem?_append_left (by omega), List.getElem?_take, if_pos hbefore,
      if_neg (by omega)]
  · rw [List.getElem?_append_right (by omega), hlen, List.getElem?_append, List.getElem?_drop]
    by_cases hin : i < at_ + d.length
    · rw [if_pos (by omega), if_pos (by omega)]
    · rw [if_neg (by omega), if_neg (by omega)]
      congr 1
      omega

/-- A window is what it was if and only if every stored element in it is the one
that was there. -/
theorem window_overwrite_eq_iff {s d : List α} {at_ : Nat} (h : at_ + d.length ≤ s.length)
    (i n : Nat) :
    window (overwrite s at_ d) i n = window s i n ↔
      ∀ k < i + n, i ≤ k → at_ ≤ k → k < at_ + d.length → d[k - at_]? = s[k]? := by
  constructor
  · intro heq k hk hi hat hend
    have hbyte := congrArg (fun l => l[k - i]?) heq
    rw [getElem?_window, getElem?_window, if_pos (by omega), if_pos (by omega),
      getElem?_overwrite h, Nat.add_sub_cancel' hi, if_pos ⟨hat, hend⟩] at hbyte
    exact hbyte
  · intro hall
    refine List.ext_getElem? fun j => ?_
    rw [getElem?_window, getElem?_window]
    split
    · rename_i hj
      rw [getElem?_overwrite h]
      split
      · rename_i hin
        exact hall (i + j) (by omega) (by omega) hin.1 hin.2
      · rfl
    · rfl

/-- A window that starts at or before the stored elements and ends with them. -/
theorem window_overwrite_end {s d : List α} {at_ i : Nat} (hi : i ≤ at_)
    (h : at_ + d.length ≤ s.length) :
    window (overwrite s at_ d) i (at_ - i + d.length) = window s i (at_ - i) ++ d := by
  have hlen : (s.take at_).length = at_ := by
    rw [List.length_take]
    omega
  have hdrop : ((s.take at_).drop i ++ d).length = at_ - i + d.length := by
    rw [List.length_append, List.length_drop, hlen]
  unfold window overwrite
  rw [List.append_assoc, List.drop_append_of_le_length (hlen.symm ▸ hi),
    ← List.append_assoc, List.take_append_of_le_length (Nat.le_of_eq hdrop.symm),
    List.take_of_length_le (Nat.le_of_eq hdrop), List.drop_take]

/-- A window that starts with the stored elements and goes past them. -/
theorem window_overwrite_start {s d : List α} {at_ n : Nat}
    (h : at_ + d.length ≤ s.length) :
    window (overwrite s at_ d) at_ (d.length + n) = d ++ window s (at_ + d.length) n := by
  have hlen : (s.take at_).length = at_ := by
    rw [List.length_take]
    omega
  unfold window overwrite
  rw [List.append_assoc, List.drop_append_of_le_length (by omega),
    List.drop_eq_nil_of_le (by omega), List.nil_append, List.take_length_add_append]

end CppWeb.Foundation
