/-
  Foundation/SizeT.lean --- the arithmetic of a 64-bit `size_t`.

  A value is a `Nat` below `modulus`; addition and subtraction wrap.  Memory
  bounds what a length can be: no object is larger than `maxSize` bytes, which
  is `PTRDIFF_MAX`, the `max_size()` of a vector or string of bytes.  Two such
  lengths add without wrapping, which is what makes index arithmetic on lengths
  of objects exact; arithmetic on a number that is not the length of an object
  need not be.
-/
import Mathlib.Algebra.Group.Nat.Defs
import Mathlib.Data.List.Basic

set_option autoImplicit false

namespace CppWeb.Foundation

namespace SizeT

/-- One more than the largest `size_t`.  Irreducible, so that unification never
counts down from it. -/
@[irreducible] def modulus : Nat := 2 ^ 64

/-- The largest size of an object, `PTRDIFF_MAX`. -/
@[irreducible] def maxSize : Nat := 2 ^ 63 - 1

/-- Wrapping addition. -/
@[irreducible] def add (a b : Nat) : Nat := (a + b) % modulus

/-- Wrapping subtraction, of a value below `modulus`. -/
@[irreducible] def sub (a b : Nat) : Nat := (a + modulus - b) % modulus

theorem add_eq {a b : Nat} (h : a + b < modulus) : add a b = a + b := by
  unfold add
  exact Nat.mod_eq_of_lt h

theorem sub_eq {a b : Nat} (hb : b ≤ a) (ha : a < modulus) : sub a b = a - b := by
  unfold sub
  have hsplit : a + modulus - b = (a - b) + modulus := by omega
  rw [hsplit, Nat.add_mod_right]
  exact Nat.mod_eq_of_lt (by omega)

theorem modulus_eq : modulus = 18446744073709551616 := by
  unfold modulus
  rfl

theorem maxSize_eq : maxSize = 9223372036854775807 := by
  unfold maxSize
  rfl

theorem one_le_maxSize : 1 ≤ maxSize := by
  rw [maxSize_eq]
  decide

theorem two_le_maxSize : 2 ≤ maxSize := by
  rw [maxSize_eq]
  decide

theorem maxSize_lt_modulus : maxSize < modulus := by
  rw [maxSize_eq, modulus_eq]
  decide

theorem add_eq_of_le_maxSize {a b : Nat} (ha : a ≤ maxSize) (hb : b ≤ maxSize) :
    add a b = a + b := by
  apply add_eq
  rw [maxSize_eq] at ha hb
  rw [modulus_eq]
  omega

theorem sub_eq_of_le_maxSize {a b : Nat} (hb : b ≤ a) (ha : a ≤ maxSize) :
    sub a b = a - b :=
  sub_eq hb (Nat.lt_of_le_of_lt ha maxSize_lt_modulus)

/-- An addition that wraps loses exactly one `modulus`. -/
theorem add_eq_of_wrap {a b : Nat} (h : modulus ≤ a + b) (ha : a < modulus) (hb : b < modulus) :
    add a b = a + b - modulus := by
  unfold add
  rw [Nat.mod_eq_sub_mod h]
  exact Nat.mod_eq_of_lt (by omega)

end SizeT

/-- The bytes of one object in memory: no more of them than an object can
have. -/
structure Bytes where
  data : List UInt8
  fits : data.length ≤ SizeT.maxSize
  deriving DecidableEq, Repr

namespace Bytes

/-- The number of bytes. -/
def length (b : Bytes) : Nat := b.data.length

@[simp] theorem length_mk (l : List UInt8) (h : l.length ≤ SizeT.maxSize) :
    (Bytes.mk l h).length = l.length := rfl

theorem length_le (b : Bytes) : b.length ≤ SizeT.maxSize := b.fits

/-- The bytes from offset `n` on, `data + n` in a call that passes a pointer
and a length. -/
def drop (n : Nat) (b : Bytes) : Bytes :=
  ⟨b.data.drop n, Nat.le_trans (by simp) b.fits⟩

@[simp] theorem drop_data (n : Nat) (b : Bytes) : (b.drop n).data = b.data.drop n := rfl

@[simp] theorem length_drop (n : Nat) (b : Bytes) : (b.drop n).length = b.length - n := by
  simp [length]

end Bytes

end CppWeb.Foundation
