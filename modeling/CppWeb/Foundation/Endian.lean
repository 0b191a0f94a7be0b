/-
  Foundation/Endian.lean --- big-endian byte strings of fixed-width integers.

  `bigEndian k x` is the memory of a `k`-byte integer in network order, most
  significant byte first; `ofBigEndian k` reads such a memory back.  The two are
  inverse to each other on byte strings of the right length, and the bytes are
  the base-256 digits of the integer in two's complement.
-/
import Mathlib.Data.BitVec
import Mathlib.Data.List.Basic
import Mathlib.Tactic.Ring

set_option autoImplicit false

namespace CppWeb.Foundation

/-- The last `k` base-256 digits of a number, most significant first. -/
def digits256 : Nat → Nat → List UInt8
  | 0, _ => []
  | k + 1, n => digits256 k (n / 256) ++ [UInt8.ofNat (n % 256)]

/-- The number with these base-256 digits, most significant first. -/
def ofDigits256 (bytes : List UInt8) : Nat :=
  bytes.foldl (fun acc byte => acc * 256 + byte.toNat) 0

/-- The big-endian bytes of a `k`-byte integer. -/
def bigEndian (k : Nat) (x : BitVec (8 * k)) : List UInt8 := digits256 k x.toNat

/-- The `k`-byte integer with these big-endian bytes. -/
def ofBigEndian (k : Nat) (bytes : List UInt8) : BitVec (8 * k) :=
  BitVec.ofNat (8 * k) (ofDigits256 bytes)

@[simp] theorem length_digits256 (k n : Nat) : (digits256 k n).length = k := by
  induction k generalizing n with
  | zero => rfl
  | succ k ih => simp [digits256, ih]

@[simp] theorem length_bigEndian (k : Nat) (x : BitVec (8 * k)) :
    (bigEndian k x).length = k :=
  length_digits256 k x.toNat

/-! ## Digits -/

theorem ofDigits256_concat (bytes : List UInt8) (byte : UInt8) :
    ofDigits256 (bytes ++ [byte]) = ofDigits256 bytes * 256 + byte.toNat := by
  simp [ofDigits256, List.foldl_append]

theorem toNat_ofNat_mod (n : Nat) : (UInt8.ofNat (n % 256)).toNat = n % 256 := by
  rw [UInt8.toNat_ofNat']
  exact Nat.mod_mod n 256

theorem ofDigits256_digits256 (k n : Nat) : ofDigits256 (digits256 k n) = n % 256 ^ k := by
  induction k generalizing n with
  | zero => simp [digits256, ofDigits256, Nat.mod_one]
  | succ k ih =>
    have hsplit : n % 256 ^ (k + 1) = n % 256 + 256 * (n / 256 % 256 ^ k) := by
      rw [Nat.pow_succ']
      exact Nat.mod_mul
    rw [digits256, ofDigits256_concat, ih, toNat_ofNat_mod, hsplit]
    omega

theorem ofDigits256_lt (bytes : List UInt8) : ofDigits256 bytes < 256 ^ bytes.length := by
  induction bytes using List.reverseRecOn with
  | nil => simp [ofDigits256]
  | append_singleton bytes byte ih =>
    have hbyte := byte.toNat_lt
    rw [ofDigits256_concat, List.length_append, List.length_singleton, Nat.pow_succ]
    omega

theorem digits256_ofDigits256 (bytes : List UInt8) :
    digits256 bytes.length (ofDigits256 bytes) = bytes := by
  induction bytes using List.reverseRecOn with
  | nil => rfl
  | append_singleton bytes byte ih =>
    have hbyte := byte.toNat_lt
    have hdiv : (ofDigits256 bytes * 256 + byte.toNat) / 256 = ofDigits256 bytes := by omega
    have hmod : (ofDigits256 bytes * 256 + byte.toNat) % 256 = byte.toNat := by omega
    rw [List.length_append, List.length_singleton, digits256, ofDigits256_concat, hdiv, hmod, ih,
      UInt8.ofNat_toNat]

/-! ## Integers -/

theorem two_pow_eight_mul (k : Nat) : 2 ^ (8 * k) = 256 ^ k := by
  rw [Nat.pow_mul]

theorem ofBigEndian_bigEndian (k : Nat) (x : BitVec (8 * k)) :
    ofBigEndian k (bigEndian k x) = x := by
  apply BitVec.eq_of_toNat_eq
  have hlt := x.isLt
  rw [ofBigEndian, bigEndian, ofDigits256_digits256, BitVec.toNat_ofNat, two_pow_eight_mul] at *
  rw [Nat.mod_mod, Nat.mod_eq_of_lt hlt]

theorem bigEndian_ofBigEndian {k : Nat} {bytes : List UInt8} (h : bytes.length = k) :
    bigEndian k (ofBigEndian k bytes) = bytes := by
  subst h
  have hlt := ofDigits256_lt bytes
  rw [bigEndian, ofBigEndian, BitVec.toNat_ofNat, two_pow_eight_mul, Nat.mod_eq_of_lt hlt,
    digits256_ofDigits256]

/-- The `k` bytes of an integer in two's complement, most significant first:
byte `i` holds the bits from `8 * (k - 1 - i)` on. -/
def twosComplement (k : Nat) (x : Int) : List UInt8 :=
  (List.range k).map fun i => UInt8.ofNat (x / 256 ^ (k - 1 - i) % 256).toNat

theorem twosComplement_succ (k : Nat) (x : Int) :
    twosComplement (k + 1) x = twosComplement k (x / 256) ++ [UInt8.ofNat (x % 256).toNat] := by
  unfold twosComplement
  rw [List.range_succ, List.map_append, List.map_singleton]
  congr 1
  · apply List.map_congr_left
    intro i hi
    have hlt : i < k := List.mem_range.mp hi
    have hexp : k + 1 - 1 - i = (k - 1 - i) + 1 := by omega
    have hpow : (256 : Int) ^ (k - 1 - i + 1) = 256 * 256 ^ (k - 1 - i) := by ring
    rw [hexp, hpow, Int.ediv_ediv_of_nonneg (by decide)]
  · simp

/-- The digits do not see what lies above them. -/
theorem digits256_eq_twosComplement (k n : Nat) (x t : Int)
    (h : (n : Int) = x + 256 ^ k * t) : digits256 k n = twosComplement k x := by
  induction k generalizing n x t with
  | zero => rfl
  | succ k ih =>
    have hsplit : (n : Int) = x + 256 * (256 ^ k * t) := by
      rw [h]
      ring
    have hlow : (n : Int) % 256 = x % 256 := by
      rw [hsplit, Int.add_mul_emod_self_left]
    have hhigh : ((n / 256 : Nat) : Int) = x / 256 + 256 ^ k * t := by
      rw [Int.natCast_div, hsplit]
      exact Int.add_mul_ediv_left _ _ (by decide)
    have hbyte : n % 256 = (x % 256).toNat := by omega
    rw [digits256, twosComplement_succ, ih (n / 256) (x / 256) t hhigh, hbyte]

/-- **The big-endian bytes of an integer are those of its two's complement.** -/
theorem bigEndian_eq_twosComplement (k : Nat) (x : BitVec (8 * k)) :
    bigEndian k x = twosComplement k x.toInt := by
  have hpow : ((2 ^ (8 * k) : Nat) : Int) = 256 ^ k := by
    rw [two_pow_eight_mul]
    norm_cast
  rw [bigEndian]
  by_cases hpos : 2 * x.toNat < 2 ^ (8 * k)
  · refine digits256_eq_twosComplement k x.toNat x.toInt 0 ?_
    rw [BitVec.toInt_eq_toNat_cond, if_pos hpos, Int.mul_zero, Int.add_zero]
  · refine digits256_eq_twosComplement k x.toNat x.toInt 1 ?_
    rw [BitVec.toInt_eq_toNat_cond, if_neg hpos, hpow]
    omega

end CppWeb.Foundation
