import Mathlib.Algebra.Group.Nat.Defs
import Mathlib.Data.Int.Notation

/-!
Numbers in decimal: how they are written, and how the C library reads them from
the beginning of a text.
-/
namespace Keto.Library.Decimal

def isDigit (c : UInt8) : Bool := 0x30 ≤ c && c ≤ 0x39

def digit (n : ℕ) : UInt8 := (0x30 + n).toUInt8

def decimal (n : ℕ) : List UInt8 := (Nat.toDigits 10 n).map fun c => c.toNat.toUInt8

def minus : UInt8 := 0x2d

def plus : UInt8 := 0x2b

def signed (n : ℤ) : List UInt8 := if n < 0 then minus :: decimal n.natAbs else decimal n.natAbs

def isSpace (c : UInt8) : Bool := c = 0x20 || (0x09 ≤ c && c ≤ 0x0d)

/-- The digits at the beginning of the text, read behind those of `value`. -/
def readDigits (value : ℕ) : List UInt8 → ℕ
  | [] => value
  | c :: rest => if isDigit c then readDigits (10 * value + (c.toNat - 0x30)) rest else value

/-- `atol`: white space, a sign and digits are read, and the rest is not. -/
def atol (text : List UInt8) : Int64 :=
  match text.dropWhile isSpace with
  | [] => 0
  | c :: rest =>
    if c = minus then Int64.ofIntClamp (-(readDigits 0 rest : ℤ))
    else if c = plus then Int64.ofIntClamp (readDigits 0 rest)
    else Int64.ofIntClamp (readDigits 0 (c :: rest))

example : atol " -0421x".toUTF8.toList = -421 := by decide +kernel

theorem decimal_of_lt {n : ℕ} (h : n < 10) : decimal n = [digit n] := by
  rw [decimal, Nat.toDigits_of_lt_base h, List.map_singleton, Nat.toNat_digitChar_of_lt_ten h,
    digit]

theorem decimal_of_le {n : ℕ} (h : 10 ≤ n) : decimal n = decimal (n / 10) ++ [digit (n % 10)] := by
  have hlow : n % 10 < 10 := Nat.mod_lt n (by decide)
  rw [decimal, Nat.toDigits_of_base_le (by decide) h, List.map_append, List.map_singleton,
    Nat.toNat_digitChar_of_lt_ten hlow, ← decimal, digit]

theorem toNat_digit {n : ℕ} (h : n < 10) : (digit n).toNat = 0x30 + n := by
  rw [digit, UInt8.toNat_ofNat']
  omega

theorem isDigit_digit {n : ℕ} (h : n < 10) : isDigit (digit n) = true := by
  simp only [isDigit, UInt8.le_iff_toNat_le, toNat_digit h, UInt8.reduceToNat, Bool.and_eq_true,
    decide_eq_true_eq]
  omega

theorem isDigit_of_mem_decimal {n : ℕ} {c : UInt8} (h : c ∈ decimal n) : isDigit c = true := by
  induction n using Nat.strongRecOn with
  | ind n ih =>
    by_cases hn : n < 10
    · rw [decimal_of_lt hn, List.mem_singleton] at h
      rw [h]
      exact isDigit_digit hn
    · rw [decimal_of_le (by omega), List.mem_append, List.mem_singleton] at h
      rcases h with h | rfl
      · exact ih (n / 10) (by omega) h
      · exact isDigit_digit (Nat.mod_lt n (by decide))

theorem readDigits_append (value : ℕ) {digits : List UInt8}
    (h : ∀ c ∈ digits, isDigit c = true) (rest : List UInt8) :
    readDigits value (digits ++ rest) = readDigits (readDigits value digits) rest := by
  induction digits generalizing value with
  | nil => rfl
  | cons c digits ih =>
    have hc := h c List.mem_cons_self
    rw [List.cons_append, readDigits, readDigits, if_pos hc, if_pos hc,
      ih _ fun other hother => h other (List.mem_cons_of_mem _ hother)]

/-- What is written is read back. -/
theorem readDigits_decimal (n : ℕ) : readDigits 0 (decimal n) = n := by
  induction n using Nat.strongRecOn with
  | ind n ih =>
    by_cases hn : n < 10
    · rw [decimal_of_lt hn, readDigits, if_pos (isDigit_digit hn), readDigits, toNat_digit hn]
      omega
    · have hlow : n % 10 < 10 := Nat.mod_lt n (by decide)
      rw [decimal_of_le (by omega), readDigits_append 0 fun c => isDigit_of_mem_decimal,
        ih (n / 10) (by omega), readDigits, if_pos (isDigit_digit hlow), readDigits,
        toNat_digit hlow]
      omega

theorem decimal_ne_nil (n : ℕ) : decimal n ≠ [] := by
  rw [decimal, Ne, List.map_eq_nil_iff]
  exact Nat.toDigits_ne_nil

theorem atol_of_not_space {c : UInt8} {rest : List UInt8} (h : isSpace c = false) :
    atol (c :: rest) =
      if c = minus then Int64.ofIntClamp (-(readDigits 0 rest : ℤ))
      else if c = plus then Int64.ofIntClamp (readDigits 0 rest)
      else Int64.ofIntClamp (readDigits 0 (c :: rest)) := by
  have hdrop : (c :: rest).dropWhile isSpace = c :: rest := by
    rw [List.dropWhile_cons_of_neg (by simp [h])]
  rw [atol, hdrop]

/-- A digit begins neither white space nor a sign. -/
theorem atol_digits {digits : List UInt8} (h : ∀ c ∈ digits, isDigit c = true)
    (hne : digits ≠ []) : atol digits = Int64.ofIntClamp (readDigits 0 digits) := by
  obtain ⟨c, rest, rfl⟩ := List.exists_cons_of_ne_nil hne
  have hc := h c List.mem_cons_self
  simp only [isDigit, UInt8.le_iff_toNat_le, UInt8.reduceToNat, Bool.and_eq_true,
    decide_eq_true_eq] at hc
  have hspace : isSpace c = false := by
    have hblank : c ≠ 0x20 := by
      rintro rfl
      exact absurd hc (by decide)
    simp only [isSpace, UInt8.le_iff_toNat_le, UInt8.reduceToNat, hblank, decide_false,
      Bool.false_or, Bool.and_eq_false_iff, decide_eq_false_iff_not]
    omega
  have hminus : c ≠ minus := by
    rintro rfl
    exact absurd hc (by decide)
  have hplus : c ≠ plus := by
    rintro rfl
    exact absurd hc (by decide)
  rw [atol_of_not_space hspace, if_neg hminus, if_neg hplus]

/-- A number that fits is read back. -/
theorem atol_signed (n : Int64) : atol (signed n.toInt) = n := by
  rw [signed]
  split
  next hneg =>
    have hvalue : -(n.toInt.natAbs : ℤ) = n.toInt := by omega
    rw [atol_of_not_space (by decide), if_pos rfl, readDigits_decimal, hvalue,
      Int64.ofIntClamp_toInt]
  next hpos =>
    have hvalue : (n.toInt.natAbs : ℤ) = n.toInt := by omega
    rw [atol_digits (fun c => isDigit_of_mem_decimal) (decimal_ne_nil _), readDigits_decimal,
      hvalue, Int64.ofIntClamp_toInt]

end Keto.Library.Decimal
