/-
  Foundation/BatchQueue.lean --- a queue that is emptied batch by batch.

  Producers append to `pending`.  The consumer takes everything that is pending
  at once, by swapping `pending` with a new empty vector, and then works
  through that batch while producers go on appending.  The queue as a whole is
  what is left of the batch followed by what is pending, and in that order it
  is first in, first out.
-/
import Mathlib.Data.List.Basic

set_option autoImplicit false

namespace CppWeb.Foundation

/-- A pending vector and the rest of the batch last taken from it. -/
structure BatchQueue (τ : Type) where
  pending : List τ
  batch : List τ
  deriving DecidableEq, Repr

namespace BatchQueue

variable {τ : Type}

/-- Nothing queued. -/
def empty : BatchQueue τ := ⟨[], []⟩

/-- Everything queued, in the order it will be taken. -/
def toList (q : BatchQueue τ) : List τ := q.batch ++ q.pending

/-- A producer appends one element. -/
def push (x : τ) (q : BatchQueue τ) : BatchQueue τ :=
  { q with pending := q.pending ++ [x] }

/-- A producer appends several elements. -/
def pushAll (xs : List τ) (q : BatchQueue τ) : BatchQueue τ :=
  { q with pending := q.pending ++ xs }

/-- The consumer swaps a new empty vector with the pending one. -/
def swap (q : BatchQueue τ) : BatchQueue τ :=
  { pending := [], batch := q.pending }

/-- The consumer has taken the first element of its batch. -/
def advance (q : BatchQueue τ) : BatchQueue τ :=
  { q with batch := q.batch.tail }

@[simp] theorem toList_push (x : τ) (q : BatchQueue τ) :
    (q.push x).toList = q.toList ++ [x] := by
  simp [push, toList]

@[simp] theorem toList_pushAll (xs : List τ) (q : BatchQueue τ) :
    (q.pushAll xs).toList = q.toList ++ xs := by
  simp [pushAll, toList]

/-- The swap neither loses, adds nor reorders, provided the batch before it was
worked through. -/
theorem toList_swap {q : BatchQueue τ} (h : q.batch = []) : q.swap.toList = q.toList := by
  simp [swap, toList, h]

/-- The consumer takes from the front. -/
theorem toList_eq_cons_advance {q : BatchQueue τ} {x : τ} {rest : List τ}
    (h : q.batch = x :: rest) : q.toList = x :: q.advance.toList := by
  simp [advance, toList, h]

end BatchQueue

/-! ## Elements with an owner -/

section Owners

variable {κ τ : Type} [DecidableEq κ]

/-- The elements of one owner, in their order. -/
def own (k : κ) (xs : List (κ × τ)) : List τ :=
  xs.filterMap fun x => if x.1 = k then some x.2 else none

@[simp] theorem own_nil (k : κ) : own k ([] : List (κ × τ)) = [] := rfl

theorem own_cons_self (k : κ) (x : τ) (xs : List (κ × τ)) :
    own k ((k, x) :: xs) = x :: own k xs := by
  simp [own]

theorem own_cons_of_ne {k j : κ} (h : j ≠ k) (x : τ) (xs : List (κ × τ)) :
    own k ((j, x) :: xs) = own k xs := by
  simp [own, h]

@[simp] theorem own_append (k : κ) (xs ys : List (κ × τ)) :
    own k (xs ++ ys) = own k xs ++ own k ys := List.filterMap_append

/-- Elements that come from one owner. -/
theorem own_map_self (k : κ) (xs : List τ) : own k (xs.map fun x => (k, x)) = xs := by
  induction xs with
  | nil => rfl
  | cons x xs ih => rw [List.map_cons, own_cons_self, ih]

theorem own_map_of_ne {k j : κ} (h : j ≠ k) (xs : List τ) :
    own k (xs.map fun x => (j, x)) = [] := by
  induction xs with
  | nil => rfl
  | cons x xs ih => rw [List.map_cons, own_cons_of_ne h, ih]

namespace BatchQueue

/-- The queue as one owner sees it. -/
def own (k : κ) (q : BatchQueue (κ × τ)) : BatchQueue τ :=
  ⟨Foundation.own k q.pending, Foundation.own k q.batch⟩

theorem own_swap (k : κ) (q : BatchQueue (κ × τ)) : q.swap.own k = (q.own k).swap := rfl

theorem own_pushAll_self (k : κ) (q : BatchQueue (κ × τ)) (xs : List τ) :
    (q.pushAll (xs.map fun x => (k, x))).own k = (q.own k).pushAll xs := by
  simp only [own, pushAll, own_append, own_map_self]

theorem own_pushAll_of_ne {k j : κ} (h : j ≠ k) (q : BatchQueue (κ × τ)) (xs : List τ) :
    (q.pushAll (xs.map fun x => (j, x))).own k = q.own k := by
  simp only [own, pushAll, own_append, own_map_of_ne h, List.append_nil]

/-- The consumer takes an element of this owner. -/
theorem own_advance_self {k : κ} {q : BatchQueue (κ × τ)} {x : τ} {rest : List (κ × τ)}
    (h : q.batch = (k, x) :: rest) : q.advance.own k = (q.own k).advance := by
  simp only [own, advance, h, List.tail_cons, own_cons_self]

/-- The consumer takes an element of another one. -/
theorem own_advance_of_ne {k j : κ} (hne : j ≠ k) {q : BatchQueue (κ × τ)} {x : τ}
    {rest : List (κ × τ)} (h : q.batch = (j, x) :: rest) : q.advance.own k = q.own k := by
  simp only [own, advance, h, List.tail_cons, own_cons_of_ne hne]

end BatchQueue

end Owners

end CppWeb.Foundation
