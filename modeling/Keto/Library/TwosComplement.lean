import Mathlib.Algebra.Order.Ring.Int
import Mathlib.Data.Int.Notation
import Mathlib.Tactic.Ring

/-!
Integers as octets, the most significant one first, in two's complement: the
value of octets, octets of a given number for a value within their range, and
the shortest octets of the same value.
-/
namespace Keto.Library.TwosComplement

def magnitude : List UInt8 → ℕ
  | [] => 0
  | c :: rest => c.toNat * 256 ^ rest.length + magnitude rest

def value : List UInt8 → ℤ
  | [] => 0
  | c :: rest =>
    (if c < 0x80 then (c.toNat : ℤ) else c.toNat - 256) * 256 ^ rest.length + magnitude rest

def digits : ℕ → ℕ → List UInt8
  | 0, _ => []
  | k + 1, n => (n / 256 ^ k % 256).toUInt8 :: digits k n

def octets (k : ℕ) (v : ℤ) : List UInt8 := digits k (v % 256 ^ k).toNat

/-- A first octet that only repeats the sign of the second is redundant. -/
def shortest : List UInt8 → List UInt8
  | c :: d :: rest =>
    if (c = 0 ∧ d < 0x80) ∨ (c = 0xff ∧ ¬ d < 0x80) then shortest (d :: rest) else c :: d :: rest
  | octets => octets

example : shortest (octets 8 (-129)) = [0xff, 0x7f] := by decide +kernel

@[simp] theorem length_digits (k n : ℕ) : (digits k n).length = k := by
  induction k with
  | zero => rfl
  | succ k ih => rw [digits, List.length_cons, ih]

theorem toNat_digit (n : ℕ) : ((n % 256).toUInt8).toNat = n % 256 := by
  rw [Nat.toUInt8, UInt8.toNat_ofNat']
  exact Nat.mod_eq_of_lt (Nat.mod_lt n (by decide))

theorem magnitude_digits (k n : ℕ) : magnitude (digits k n) = n % 256 ^ k := by
  induction k with
  | zero => rw [pow_zero, Nat.mod_one]; rfl
  | succ k ih =>
    rw [digits, magnitude, ih, length_digits, toNat_digit, Nat.mod_pow_succ]
    ring

theorem shortest_ne_nil {octets : List UInt8} (h : octets ≠ []) : shortest octets ≠ [] := by
  induction octets with
  | nil => exact absurd rfl h
  | cons c rest ih =>
    cases rest with
    | nil => exact h
    | cons d rest =>
      rw [shortest]
      split
      · exact ih (List.cons_ne_nil d rest)
      · exact h

/-- Leaving redundant octets out keeps the value. -/
theorem value_shortest (octets : List UInt8) : value (shortest octets) = value octets := by
  induction octets with
  | nil => rfl
  | cons c rest ih =>
    cases rest with
    | nil => rfl
    | cons d rest =>
      rw [shortest]
      split
      · rename_i hredundant
        rw [ih]
        rcases hredundant with ⟨rfl, hd⟩ | ⟨rfl, hd⟩
        · rw [value, value, if_pos hd, if_pos (by decide), magnitude]
          push_cast
          simp
        · rw [value, value, if_neg hd, if_neg (by decide), magnitude, List.length_cons, pow_succ]
          have hff : (((0xff : UInt8).toNat : ℕ) : ℤ) = 255 := by decide
          rw [hff]
          push_cast
          ring
      · rfl

/-- The first of the octets is a digit with sign. -/
theorem value_digits {k n : ℕ} (h : n < 256 * 256 ^ k) :
    value (digits (k + 1) n) = if n < 128 * 256 ^ k then (n : ℤ) else n - 256 * 256 ^ k := by
  have hpow : 0 < 256 ^ k := Nat.pow_pos (by decide)
  have hfirst : n / 256 ^ k % 256 = n / 256 ^ k :=
    Nat.mod_eq_of_lt ((Nat.div_lt_iff_lt_mul hpow).mpr h)
  have hsign : ((n / 256 ^ k % 256).toUInt8 < 0x80) ↔ n < 128 * 256 ^ k := by
    rw [UInt8.lt_iff_toNat_lt, toNat_digit, hfirst]
    exact Nat.div_lt_iff_lt_mul hpow
  have hsplit : ((n / 256 ^ k : ℕ) : ℤ) * 256 ^ k + ((n % 256 ^ k : ℕ) : ℤ) = n := by
    have hnat := Nat.div_add_mod' n (256 ^ k)
    exact_mod_cast hnat
  rw [digits, value, length_digits, magnitude_digits, toNat_digit, hfirst]
  rw [hfirst] at hsign
  by_cases hlow : n < 128 * 256 ^ k
  · rw [if_pos (hsign.mpr hlow), if_pos hlow, hsplit]
  · rw [if_neg (fun h => hlow (hsign.mp h)), if_neg hlow, ← hsplit]
    ring

/-- The octets of a value within their range have the value. -/
theorem value_octets {k : ℕ} {v : ℤ} (hlow : -(128 * 256 ^ k) ≤ v) (hhigh : v < 128 * 256 ^ k) :
    value (octets (k + 1) v) = v := by
  have hpow : (0 : ℤ) < 256 ^ k := pow_pos (by decide) k
  have hwhole : (256 : ℤ) ^ (k + 1) = 256 * 256 ^ k := pow_succ' 256 k
  have hnonneg : 0 ≤ v % 256 ^ (k + 1) := Int.emod_nonneg v (by omega)
  have hlt : v % 256 ^ (k + 1) < 256 * 256 ^ k := hwhole ▸ Int.emod_lt_of_pos v (by omega)
  obtain ⟨n, hn⟩ := Int.eq_ofNat_of_zero_le hnonneg
  have hdigits : n < 256 * 256 ^ k := by
    rw [hn] at hlt
    exact_mod_cast hlt
  have hbound : n < 128 * 256 ^ k ↔ (n : ℤ) < 128 * 256 ^ k := by exact_mod_cast Iff.rfl
  rw [octets, hn, Int.toNat_natCast, value_digits hdigits]
  simp only [hbound]
  by_cases hsign : 0 ≤ v
  · have hsame : v % 256 ^ (k + 1) = v := Int.emod_eq_of_lt hsign (by omega)
    rw [if_pos (by omega)]
    omega
  · have hsame : v % 256 ^ (k + 1) = v + 256 ^ (k + 1) := by
      rw [← Int.add_emod_right, Int.emod_eq_of_lt (by omega) (by omega)]
    rw [if_neg (by omega)]
    omega

end Keto.Library.TwosComplement
