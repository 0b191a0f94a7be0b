/-
  Foundation/Heap.lean --- objects behind pointers.

  `new` puts an object at an address that no live object has, and `delete` ends
  its life.  An address may be used again, so a pointer carries, besides its
  address, the number of allocations before its own: the object a pointer was
  made for is the only one it reads, and it reads nothing once that object has
  been deleted.  The order of pointers is the order of addresses wherever it
  matters, that is between objects that live at the same time.
-/
import Mathlib.Data.List.Basic
import Mathlib.Data.Prod.Lex
import Mathlib.Order.Lattice

set_option autoImplicit false

namespace CppWeb.Foundation

/-- A pointer. -/
structure Ptr where
  addr : Nat
  serial : Nat
  deriving DecidableEq, Repr

namespace Ptr

/-- The null pointer. -/
def null : Ptr := ⟨0, 0⟩

/-- Pointers in the order of their addresses. -/
def rank (p : Ptr) : Nat ×ₗ Nat := toLex (p.addr, p.serial)

theorem rank_injective : Function.Injective rank := by
  rintro ⟨a, i⟩ ⟨b, j⟩ h
  have hpair : (a, i) = (b, j) := toLex.injective h
  cases hpair
  rfl

instance : LinearOrder Ptr := LinearOrder.lift' rank rank_injective

/-- No pointer is below the null pointer. -/
theorem not_lt_null (p : Ptr) : ¬ p < null := by
  intro h
  have hlex : toLex (p.addr, p.serial) < toLex (0, 0) := h
  rw [Prod.Lex.toLex_lt_toLex] at hlex
  omega

end Ptr

/-- An object that was allocated. -/
structure Object (α : Type) where
  addr : Nat
  value : α
  deleted : Bool
  deriving DecidableEq, Repr

/-- All objects that were allocated, in that order. -/
structure Heap (α : Type) where
  objects : List (Object α)
  deriving DecidableEq, Repr

namespace Heap

variable {α : Type}

/-- Nothing allocated. -/
def empty : Heap α := ⟨[]⟩

/-- The value of the live object behind a pointer. -/
def read (h : Heap α) (p : Ptr) : Option α :=
  match h.objects[p.serial]? with
  | some object => if object.addr = p.addr ∧ object.deleted = false then some object.value else none
  | none => none

/-- The allocator may return the address. -/
def Usable (h : Heap α) (addr : Nat) : Prop :=
  addr ≠ 0 ∧ ∀ object ∈ h.objects, object.addr = addr → object.deleted = true

instance (h : Heap α) (addr : Nat) : Decidable (h.Usable addr) :=
  inferInstanceAs (Decidable (addr ≠ 0 ∧ _))

/-- The pointer that the next allocation returns. -/
def next (h : Heap α) (addr : Nat) : Ptr := ⟨addr, h.objects.length⟩

/-- `new`. -/
def alloc (h : Heap α) (addr : Nat) (value : α) : Heap α := ⟨h.objects ++ [⟨addr, value, false⟩]⟩

/-- An assignment through a pointer. -/
def write (h : Heap α) (p : Ptr) (value : α) : Heap α :=
  ⟨h.objects.modify p.serial fun object => { object with value := value }⟩

/-- `delete`. -/
def delete (h : Heap α) (p : Ptr) : Heap α :=
  ⟨h.objects.modify p.serial fun object => { object with deleted := true }⟩

/-! ## Reading after an update -/

/-- A pointer that can be read was returned by an earlier allocation. -/
theorem serial_lt_of_read {h : Heap α} {p : Ptr} {value : α} (hread : h.read p = some value) :
    p.serial < h.objects.length := by
  by_contra hge
  rw [read, List.getElem?_eq_none (Nat.le_of_not_lt hge)] at hread
  cases hread

/-- Two pointers that can be read are different objects unless they are equal. -/
theorem serial_ne_of_read {h : Heap α} {p q : Ptr} {v w : α} (hp : h.read p = some v)
    (hq : h.read q = some w) (hne : p ≠ q) : p.serial ≠ q.serial := by
  intro heq
  rw [read] at hp hq
  rw [heq] at hp
  cases hobject : h.objects[q.serial]? with
  | none =>
    rw [hobject] at hq
    cases hq
  | some object =>
    rw [hobject] at hp hq
    simp only [Option.ite_none_right_eq_some] at hp hq
    refine hne ?_
    cases p
    cases q
    simp_all

theorem next_ne_of_read {h : Heap α} {p : Ptr} {value : α} (hread : h.read p = some value)
    (addr : Nat) : p ≠ h.next addr := by
  rintro rfl
  exact Nat.lt_irrefl _ (serial_lt_of_read hread)

@[simp] theorem read_alloc_next (h : Heap α) (addr : Nat) (value : α) :
    (h.alloc addr value).read (h.next addr) = some value := by
  simp [read, alloc, next]

theorem read_alloc {h : Heap α} {p : Ptr} {v : α} (hread : h.read p = some v) (addr : Nat)
    (value : α) : (h.alloc addr value).read p = some v := by
  have hlt := serial_lt_of_read hread
  rw [← hread]
  simp only [read, alloc]
  rw [List.getElem?_append_left hlt]

theorem read_write_self {h : Heap α} {p : Ptr} {v : α} (hread : h.read p = some v) (value : α) :
    (h.write p value).read p = some value := by
  rw [read] at hread
  cases hobject : h.objects[p.serial]? with
  | none =>
    rw [hobject] at hread
    cases hread
  | some object =>
    rw [hobject] at hread
    simp only [Option.ite_none_right_eq_some] at hread
    simp [read, write, hobject, hread.1.1, hread.1.2]

theorem read_write_of_ne {h : Heap α} {p q : Ptr} (hne : q.serial ≠ p.serial) (value : α) :
    (h.write p value).read q = h.read q := by
  simp only [read, write]
  rw [List.getElem?_modify_ne _ _ (Ne.symm hne)]

theorem read_delete_of_ne {h : Heap α} {p q : Ptr} (hne : q.serial ≠ p.serial) :
    (h.delete p).read q = h.read q := by
  simp only [read, delete]
  rw [List.getElem?_modify_ne _ _ (Ne.symm hne)]

/-- A deleted object cannot be read, whatever pointer to it is used. -/
theorem read_delete_self (h : Heap α) (p : Ptr) : (h.delete p).read p = none := by
  simp only [read, delete, List.getElem?_modify_eq]
  cases h.objects[p.serial]? with
  | none => rfl
  | some object => simp

/-! ## What can be read after an update -/

theorem read_of_alloc {h : Heap α} {p : Ptr} {addr : Nat} {value v : α}
    (hread : (h.alloc addr value).read p = some v) :
    (p = h.next addr ∧ v = value) ∨ h.read p = some v := by
  by_cases hlt : p.serial < h.objects.length
  · refine Or.inr ?_
    simp only [read, alloc] at hread ⊢
    rwa [List.getElem?_append_left hlt] at hread
  · have hserial : p.serial = h.objects.length := by
      have hnew := serial_lt_of_read hread
      rw [alloc, List.length_append, List.length_singleton] at hnew
      omega
    have hobject : (h.alloc addr value).objects[p.serial]? = some ⟨addr, value, false⟩ := by
      rw [hserial, alloc, List.getElem?_concat_length]
    rw [read, hobject] at hread
    obtain ⟨⟨haddr, _⟩, hv⟩ := Option.ite_none_right_eq_some.mp hread
    refine Or.inl ⟨?_, (Option.some.inj hv).symm⟩
    cases p
    simp_all [next]

theorem read_of_write {h : Heap α} {p q : Ptr} {old value v : α} (hold : h.read p = some old)
    (hread : (h.write p value).read q = some v) : (q = p ∧ v = value) ∨ h.read q = some v := by
  by_cases hserial : q.serial = p.serial
  · have hself := read_write_self hold value
    have heq : q = p := by
      by_contra hne
      exact serial_ne_of_read hread hself hne hserial
    subst heq
    rw [hself] at hread
    exact Or.inl ⟨rfl, (Option.some.inj hread).symm⟩
  · rw [read_write_of_ne hserial] at hread
    exact Or.inr hread

theorem read_of_delete {h : Heap α} {p q : Ptr} {v : α}
    (hread : (h.delete p).read q = some v) : h.read q = some v := by
  by_cases hserial : q.serial = p.serial
  · simp only [read, delete, hserial, List.getElem?_modify_eq] at hread
    cases hobject : h.objects[p.serial]? with
    | none =>
      rw [hobject] at hread
      cases hread
    | some object =>
      rw [hobject] at hread
      simp at hread
  · rwa [read_delete_of_ne hserial] at hread

@[simp] theorem length_alloc (h : Heap α) (addr : Nat) (value : α) :
    (h.alloc addr value).objects.length = h.objects.length + 1 := by
  rw [alloc, List.length_append, List.length_singleton]

@[simp] theorem length_write (h : Heap α) (p : Ptr) (value : α) :
    (h.write p value).objects.length = h.objects.length := List.length_modify ..

@[simp] theorem length_delete (h : Heap α) (p : Ptr) :
    (h.delete p).objects.length = h.objects.length := List.length_modify ..

end Heap

end CppWeb.Foundation
