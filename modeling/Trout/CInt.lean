import Mathlib

/-! The C integer conversions and the unsigned arithmetic of an LP64 machine, over natural numbers
and integers: `size_t` and `uint64_t` wrap at `2 ^ 64`, `unsigned int` and `uint32_t` at `2 ^ 32`,
and a conversion to `int` keeps the low 32 bits in two's complement. -/

namespace CInt

def sizeMod : Nat := 2 ^ 64

def uintMod : Nat := 2 ^ 32

def intMax : Nat := 2 ^ 31 - 1

/-- `size_t` product. -/
def sizeMul (a b : Nat) : Nat := a * b % sizeMod

/-- `size_t` difference. -/
def sizeSub (a b : Nat) : Nat := (a + (sizeMod - b % sizeMod)) % sizeMod

/-- Conversion of an integer to `size_t`. -/
def toSize (x : Int) : Nat := (x % (sizeMod : Int)).toNat

/-- Conversion of an integer to `unsigned int`. -/
def toUint (x : Int) : Nat := (x % (uintMod : Int)).toNat

/-- Conversion of an integer to `int`. -/
def toInt (x : Int) : Int := Int.bmod x uintMod

/-- Conversion of an integer to `int64_t`. -/
def toLong (x : Int) : Int := Int.bmod x sizeMod

theorem sizeMul_of_lt {a b : Nat} (h : a * b < 2 ^ 64) : sizeMul a b = a * b := Nat.mod_eq_of_lt h

theorem sizeSub_of_le {a b : Nat} (hle : b ≤ a) (ha : a < 2 ^ 64) : sizeSub a b = a - b := by
  simp only [sizeSub, sizeMod]
  omega

theorem sizeSub_lt (a b : Nat) : sizeSub a b < 2 ^ 64 := Nat.mod_lt _ (by decide)

theorem toSize_lt (x : Int) : toSize x < 2 ^ 64 := by
  simp only [toSize, sizeMod]
  omega

theorem toSize_natCast {a : Nat} (h : a < 2 ^ 64) : toSize (a : Int) = a := by
  simp only [toSize, sizeMod]
  omega

theorem toUint_natCast {a : Nat} (h : a < 2 ^ 32) : toUint (a : Int) = a := by
  simp only [toUint, uintMod]
  omega

theorem toInt_of_le {a : Nat} (h : a ≤ intMax) : toInt (a : Int) = (a : Int) := by
  simp only [toInt, Int.bmod, uintMod, intMax] at *
  omega

theorem toInt_of_gt {a : Nat} (hlow : intMax < a) (hhigh : a < 2 ^ 32) :
    toInt (a : Int) = (a : Int) - 2 ^ 32 := by
  simp only [toInt, Int.bmod, uintMod, intMax] at *
  omega

theorem toLong_natCast {a : Nat} (h : a < 2 ^ 63) : toLong (a : Int) = a := by
  simp only [toLong, Int.bmod, sizeMod]
  omega

/-- A natural number below `2 ^ 32` is zero exactly when its `int` is. -/
theorem toInt_eq_zero_iff {a : Nat} (h : a < 2 ^ 32) : toInt (a : Int) = 0 ↔ a = 0 := by
  simp only [toInt, Int.bmod, uintMod]
  omega

end CInt
