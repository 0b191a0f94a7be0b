/-
  Foundation/OrderedSet.lean --- a set kept in ascending order.

  The elements are a strictly ascending list, so each occurs once, the first is
  the least, and the elements below a bound are a prefix.  Membership is all
  that a client needs to know about the updates; the order shows in `first?`
  and `below`.
-/
import Mathlib.Data.List.Sort

set_option autoImplicit false

namespace CppWeb.Foundation

/-- A finite set in ascending order. -/
structure OrderedSet (α : Type) [LinearOrder α] where
  toList : List α
  ascending : toList.Pairwise (· < ·)

namespace OrderedSet

variable {α : Type} [LinearOrder α]

instance : Membership α (OrderedSet α) := ⟨fun s a => a ∈ s.toList⟩

instance (a : α) (s : OrderedSet α) : Decidable (a ∈ s) :=
  inferInstanceAs (Decidable (a ∈ s.toList))

theorem mem_toList {a : α} {s : OrderedSet α} : a ∈ s.toList ↔ a ∈ s := Iff.rfl

theorem nodup (s : OrderedSet α) : s.toList.Nodup :=
  s.ascending.imp fun h => ne_of_lt h

/-- The set without elements. -/
def empty : OrderedSet α := ⟨[], List.Pairwise.nil⟩

theorem not_mem_empty (a : α) : a ∉ (empty : OrderedSet α) := List.not_mem_nil

/-- A strictly ascending list stays so when a new element takes its place. -/
theorem ascending_orderedInsert {a : α} {l : List α} (hl : l.Pairwise (· < ·)) (ha : a ∉ l) :
    (l.orderedInsert (· ≤ ·) a).Pairwise (· < ·) := by
  have hle : (l.orderedInsert (· ≤ ·) a).Pairwise (· ≤ ·) :=
    (hl.imp fun h => le_of_lt h).orderedInsert a l
  have hnodup : (l.orderedInsert (· ≤ ·) a).Nodup := by
    rw [(List.perm_orderedInsert (· ≤ ·) a l).nodup_iff, List.nodup_cons]
    exact ⟨ha, hl.imp fun h => ne_of_lt h⟩
  exact (hle.and hnodup).imp fun h => lt_of_le_of_ne h.1 h.2

/-- Add an element, unless it is there already. -/
def insert (a : α) (s : OrderedSet α) : OrderedSet α :=
  if h : a ∈ s.toList then s
  else ⟨s.toList.orderedInsert (· ≤ ·) a, ascending_orderedInsert s.ascending h⟩

@[simp] theorem mem_insert {a b : α} {s : OrderedSet α} : b ∈ s.insert a ↔ b = a ∨ b ∈ s := by
  rw [← mem_toList, ← mem_toList, insert]
  split
  · rename_i h
    constructor
    · exact Or.inr
    · rintro (rfl | hb)
      · exact h
      · exact hb
  · exact List.mem_orderedInsert _

/-- Remove an element, if it is there. -/
def erase (a : α) (s : OrderedSet α) : OrderedSet α :=
  ⟨s.toList.erase a, s.ascending.sublist List.erase_sublist⟩

@[simp] theorem mem_erase {a b : α} {s : OrderedSet α} : b ∈ s.erase a ↔ b ≠ a ∧ b ∈ s :=
  s.nodup.mem_erase_iff

/-- The least element. -/
def first? (s : OrderedSet α) : Option α := s.toList.head?

/-- The first element is the least one. -/
theorem first?_eq_some {a : α} {s : OrderedSet α} :
    s.first? = some a ↔ a ∈ s ∧ ∀ b ∈ s, a ≤ b := by
  obtain ⟨l, hl⟩ := s
  cases l with
  | nil =>
    constructor
    · intro h
      cases h
    · exact fun h => absurd h.1 List.not_mem_nil
  | cons b l =>
    obtain ⟨hb, _⟩ := List.pairwise_cons.mp hl
    constructor
    · intro h
      obtain rfl : b = a := Option.some.inj h
      refine ⟨List.mem_cons_self, fun c hc => ?_⟩
      rcases List.mem_cons.mp hc with rfl | hc
      · exact le_refl _
      · exact le_of_lt (hb c hc)
    · rintro ⟨ha, hle⟩
      rcases List.mem_cons.mp ha with rfl | ha
      · rfl
      · exact absurd (hle b List.mem_cons_self) (not_le_of_gt (hb a ha))

theorem mem_of_first? {a : α} {s : OrderedSet α} (h : s.first? = some a) : a ∈ s :=
  (first?_eq_some.mp h).1

/-- A set with an element has a first one, which is not above it. -/
theorem exists_first? {a : α} {s : OrderedSet α} (h : a ∈ s) :
    ∃ b, s.first? = some b ∧ b ≤ a := by
  cases hfirst : s.first? with
  | none =>
    have hnil := List.head?_eq_none_iff.mp hfirst
    rw [← mem_toList, hnil] at h
    exact absurd h List.not_mem_nil
  | some b => exact ⟨b, rfl, (first?_eq_some.mp hfirst).2 a h⟩

/-- The elements before the first one that is not below `bound`, in order. -/
def below (bound : α) (s : OrderedSet α) : List α := s.toList.filter (· < bound)

/-- The elements from the first one on that is not below `bound`. -/
def dropBelow (bound : α) (s : OrderedSet α) : OrderedSet α :=
  ⟨s.toList.filter (bound ≤ ·), s.ascending.sublist List.filter_sublist⟩

@[simp] theorem mem_below {a bound : α} {s : OrderedSet α} :
    a ∈ s.below bound ↔ a ∈ s ∧ a < bound := by
  rw [below, List.mem_filter, mem_toList, decide_eq_true_iff]

@[simp] theorem mem_dropBelow {a bound : α} {s : OrderedSet α} :
    a ∈ s.dropBelow bound ↔ a ∈ s ∧ bound ≤ a := by
  rw [← mem_toList, dropBelow, List.mem_filter, mem_toList, decide_eq_true_iff]

theorem nodup_below (bound : α) (s : OrderedSet α) : (s.below bound).Nodup :=
  s.nodup.filter _

end OrderedSet

end CppWeb.Foundation
