import Mathlib.Algebra.Ring.Int.Defs
import Mathlib.Algebra.Ring.Nat

/-!
Signed machine integers of 32 bits as integers: what shifts and masks make of them,
and their conversions from and to unsigned ones of 32 and 64 bits, which keep the
value where it is within the range of both.
-/
namespace Keto.Library.MachineIntegers

/-- Where a value of 32 bits wraps. -/
theorem bmod_32 (x : ℤ) : x.bmod (2 ^ 32) =
    if x % 4294967296 < 2147483648 then x % 4294967296 else x % 4294967296 - 4294967296 := rfl

theorem bmod_64 (x : ℤ) : x.bmod (2 ^ 64) =
    if x % 18446744073709551616 < 9223372036854775808 then x % 18446744073709551616
    else x % 18446744073709551616 - 18446744073709551616 := rfl

/-- An `Int32` is sign-extended to the unsigned integer of the address width. -/
def addressOfInt (a : Int32) : UInt64 := a.toInt64.toUInt64

def intOfAddress (a : UInt64) : Int32 := a.toInt64.toInt32

theorem toInt_bounds (a : Int32) : -2147483648 ≤ a.toInt ∧ a.toInt < 2147483648 := by
  have hlow := a.le_toInt
  have hhigh := a.toInt_lt
  omega

theorem toInt_shiftLeft_sixteen (a : Int32) :
    (a <<< 16).toInt = (a.toInt * 65536).bmod (2 ^ 32) := by
  have hshift : ((16 : Int32).toBitVec.smod 32) = 16#32 := by decide
  rw [← Int32.toInt_toBitVec, Int32.toBitVec_shiftLeft, hshift, BitVec.shiftLeft_eq',
    BitVec.toInt_shiftLeft, ← Int32.toInt_toBitVec, BitVec.toInt_eq_toNat_bmod a.toBitVec,
    Int.bmod_mul_bmod, Nat.shiftLeft_eq]
  rfl

theorem toInt_shiftRight_sixteen (a : Int32) : (a >>> 16).toInt = a.toInt / 65536 := by
  have hshift : ((16 : Int32).toBitVec.smod 32) = 16#32 := by decide
  rw [← Int32.toInt_toBitVec, Int32.toBitVec_shiftRight, hshift, BitVec.sshiftRight_eq',
    BitVec.toInt_sshiftRight, Int32.toInt_toBitVec, Int.shiftRight_eq_div_pow]
  rfl

/-- The mask `~7` rounds down to a multiple of eight. -/
theorem toInt_and_not_seven (a : Int32) : (a &&& ~~~7).toInt = a.toInt - a.toInt % 8 := by
  have hmask : (a &&& ~~~7).toBitVec = a.toBitVec >>> 3 <<< 3 := by
    rw [BitVec.shiftLeft_ushiftRight]
    rfl
  have hlt := a.toBitVec.isLt
  rw [← Int32.toInt_toBitVec, hmask, BitVec.toInt_shiftLeft, BitVec.toNat_ushiftRight,
    ← Int32.toInt_toBitVec, BitVec.toInt_eq_toNat_bmod a.toBitVec, Nat.shiftLeft_eq,
    Nat.shiftRight_eq_div_pow, bmod_32, bmod_32]
  generalize a.toBitVec.toNat = n at hlt ⊢
  omega

theorem toNat_addressOfInt (a : Int32) : ((addressOfInt a).toNat : ℤ) = a.toInt % 2 ^ 64 := by
  have hlt := a.toInt64.toBitVec.isLt
  rw [addressOfInt, ← Int32.toInt_toInt64, ← Int64.toInt_toBitVec, ← Int64.toNat_toBitVec,
    BitVec.toInt_eq_toNat_bmod, bmod_64]
  omega

theorem toInt_intOfAddress {n : ℕ} (h : n < 2147483648) :
    (intOfAddress (UInt64.ofNat n)).toInt = n := by
  have hn : (UInt64.ofNat n).toNat = n := by
    rw [UInt64.toNat_ofNat']
    omega
  have hlong : (UInt64.ofNat n).toInt64.toInt = n := by
    rw [← Int64.toInt_toBitVec, BitVec.toInt_eq_toNat_bmod, Int64.toNat_toBitVec,
      UInt64.toUInt64_toInt64, hn, bmod_64]
    omega
  rw [intOfAddress, Int64.toInt_toInt32, hlong, bmod_32]
  omega

theorem toInt_toInt32 {a : UInt32} (h : a.toNat < 2147483648) : a.toInt32.toInt = a.toNat := by
  rw [← Int32.toInt_toBitVec, BitVec.toInt_eq_toNat_bmod, Int32.toNat_toBitVec,
    UInt32.toUInt32_toInt32, bmod_32]
  omega

theorem toNat_toUInt32 {a : Int32} (h : 0 ≤ a.toInt) : (a.toUInt32.toNat : ℤ) = a.toInt := by
  have hlt := a.toBitVec.isLt
  have hint := BitVec.toInt_eq_toNat_bmod a.toBitVec
  rw [Int32.toInt_toBitVec, bmod_32] at hint
  rw [← Int32.toNat_toBitVec]
  omega

end Keto.Library.MachineIntegers
