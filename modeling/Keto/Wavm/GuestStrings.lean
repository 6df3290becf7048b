import Keto.Wavm.WavmUtils
import Mathlib.Data.List.TakeDrop
import Mathlib.Tactic.Linarith

/-!
The strings of the guest, whose length is a 32-bit number, against those that
the host reads and builds. The host counts to the base 100 where the guest does
to the base 256, leaves out a digit when it reads, and takes digits as signed;
the two agree on short strings, and the host with itself on less long ones.
-/
namespace Keto.Wavm

open Protocol WavmUtils

def littleEndian : ℕ → ℕ → Bytes
  | 0, _ => []
  | count + 1, n => (n % 256).toUInt8 :: littleEndian count (n / 256)

/-- How the guest lays out the units of a string, as in its data segments. -/
def guestLayout (units : List UInt16) : Bytes :=
  littleEndian 4 units.length ++ units.flatMap fun unit => littleEndian 2 unit.toNat

structure GuestString where
  characters : Bytes
  nonzero : ∀ c ∈ characters, c ≠ 0
  fits : 4 + 2 * characters.length ≤ 2 ^ 32

def GuestString.layout (string : GuestString) : Bytes :=
  guestLayout (string.characters.map UInt8.toUInt16)

theorem charValue_toUInt8 {n : ℕ} (h : n < 256) :
    charValue n.toUInt8 = if n < 128 then (n : ℤ) else n - 256 := by
  have hbyte : n.toUInt8.toNat = n := by rw [UInt8.toNat_ofNat', Nat.mod_eq_of_lt h]
  rw [charValue, hbyte]

/-- Digits to the two bases that make the same byte are the same. -/
theorem digit_inj {m n : ℕ} (h : (m % 100).toUInt8 = (n % 256).toUInt8) :
    m % 100 = n % 256 := by
  have hm : m % 100 < 256 := Nat.lt_trans (Nat.mod_lt m (by decide)) (by decide)
  have hn : n % 256 < 256 := Nat.mod_lt n (by decide)
  have hbytes := congrArg UInt8.toNat h
  rwa [UInt8.toNat_ofNat', UInt8.toNat_ofNat', Nat.mod_eq_of_lt hm, Nat.mod_eq_of_lt hn]
    at hbytes

theorem littleEndian_four (n : ℕ) :
    littleEndian 4 n = [(n % 256).toUInt8, (n / 256 % 256).toUInt8,
      (n / 256 / 256 % 256).toUInt8, (n / 256 / 256 / 256 % 256).toUInt8] := rfl

theorem ofInt_natCast (n : ℕ) : UInt8.ofInt n = n.toUInt8 := by
  have hbyte : (((n : ℤ) % 2 ^ 8).toNat) % 2 ^ 8 = n % 2 ^ 8 := by omega
  rw [UInt8.ofInt, ← UInt8.toNat_inj, UInt8.toNat_ofNat', UInt8.toNat_ofNat', hbyte]

/-- Digits of a number that is not negative are not negative. -/
theorem lengthDigits_succ (count n : ℕ) :
    lengthDigits (count + 1) n = (n % 100).toUInt8 :: lengthDigits count (n / 100 : ℕ) := by
  rw [lengthDigits, ← ofInt_natCast, Int.ofNat_tmod, Int.ofNat_tdiv]
  rfl

theorem lengthDigits_four {n : ℕ} (h : n < 2 ^ 31) :
    lengthDigits 4 (Int.bmod n (2 ^ 32)) = [(n % 100).toUInt8, (n / 100 % 100).toUInt8,
      (n / 100 / 100 % 100).toUInt8, (n / 100 / 100 / 100 % 100).toUInt8] := by
  rw [Int.bmod_eq_of_le (by omega) (by omega)]
  rw [lengthDigits_succ, lengthDigits_succ, lengthDigits_succ, lengthDigits_succ, lengthDigits]

theorem layout_eq_interleave (string : GuestString) :
    string.layout = littleEndian 4 string.characters.length ++ interleave string.characters := by
  have hunit : ∀ c : UInt8, littleEndian 2 c.toUInt16.toNat = [c, 0] := by
    intro c
    have hlow : c.toNat % 256 = c.toNat := Nat.mod_eq_of_lt c.toNat_lt
    have hhigh : c.toNat / 256 % 256 = 0 := by rw [Nat.div_eq_of_lt c.toNat_lt]
    rw [littleEndian, littleEndian, littleEndian, UInt8.toNat_toUInt16, hlow, hhigh]
    simp
  rw [GuestString.layout, guestLayout, List.length_map, List.flatMap_map, interleave]
  simp only [hunit]

theorem base_expansion (base n : ℕ) :
    n % base + base * (n / base % base + base * (n / base / base % base +
      base * (n / base / base / base % base + base * (n / base / base / base / base)))) = n := by
  rw [Nat.mod_add_div, Nat.mod_add_div, Nat.mod_add_div, Nat.mod_add_div]

/-- The digits behind the first weigh multiples of 39 more to the base 256 than to
the base 100, and the rest above them cannot make up for that. -/
theorem digits_eq_zero {second third fourth rest : ℕ}
    (h : 39 * (second + 356 * third + 101136 * fourth) = 25000000 * rest) (hrest : rest < 39) :
    second = 0 ∧ third = 0 ∧ fourth = 0 ∧ rest = 0 := by
  have hdvd : 39 ∣ rest :=
    Nat.Coprime.dvd_of_dvd_mul_left (by decide : Nat.Coprime 39 25000000) ⟨_, h.symm⟩
  have hnone : rest = 0 := Nat.eq_zero_of_dvd_of_lt hdvd hrest
  rw [hnone, Nat.mul_zero] at h
  have hsum := (Nat.mul_eq_zero.mp h).resolve_left (by decide)
  refine ⟨?_, ?_, ?_, hnone⟩ <;> omega

/-- A number whose four digits to the two bases are the same has only one. -/
theorem lt_of_same_digits {n : ℕ} (h : n < 2 ^ 31) (hfirst : n % 100 = n % 256)
    (hsecond : n / 100 % 100 = n / 256 % 256)
    (hthird : n / 100 / 100 % 100 = n / 256 / 256 % 256)
    (hfourth : n / 100 / 100 / 100 % 100 = n / 256 / 256 / 256 % 256) : n < 100 := by
  have hhigh : n / 256 / 256 / 256 / 256 = 0 := by
    simp only [Nat.div_div_eq_div_mul]
    exact Nat.div_eq_of_lt (Nat.lt_trans h (by decide))
  have hrest : n / 100 / 100 / 100 / 100 < 39 := by
    simp only [Nat.div_div_eq_div_mul]
    exact Nat.div_lt_of_lt_mul (Nat.lt_trans h (by decide))
  have hguest := base_expansion 256 n
  have hhost := base_expansion 100 n
  rw [hhigh, ← hfirst, ← hsecond, ← hthird, ← hfourth] at hguest
  have hmultiple : 39 * (n / 100 % 100 + 356 * (n / 100 / 100 % 100) +
      101136 * (n / 100 / 100 / 100 % 100)) = 25000000 * (n / 100 / 100 / 100 / 100) := by
    linarith
  obtain ⟨htwo, hthree, hfour, hnone⟩ := digits_eq_zero hmultiple hrest
  rw [htwo, hthree, hfour, hnone] at hhost
  rw [← hhost]
  exact Nat.mod_lt n (by decide)

/-- Where the digits to the two bases are the same there is only one. -/
theorem lengthDigits_eq_littleEndian_iff {n : ℕ} (h : n < 2 ^ 31) :
    lengthDigits 4 (Int.bmod n (2 ^ 32)) = littleEndian 4 n ↔ n < 100 := by
  rw [lengthDigits_four h, littleEndian_four]
  constructor
  · intro hdigits
    simp only [List.cons.injEq, and_true] at hdigits
    obtain ⟨hzero, hone, htwo, hthree⟩ := hdigits
    exact lt_of_same_digits h (digit_inj hzero) (digit_inj hone) (digit_inj htwo)
      (digit_inj hthree)
  · intro hsmall
    have hbyte : n < 256 := Nat.lt_trans hsmall (by decide)
    rw [Nat.div_eq_of_lt hsmall, Nat.div_eq_of_lt hbyte, Nat.mod_eq_of_lt hsmall,
      Nat.mod_eq_of_lt hbyte]

/-- The size that is read of the guest's length is at most the length. -/
theorem size_littleEndian (n : ℕ) :
    size (n % 256).toUInt8 (n / 256 % 256).toUInt8 (n / 256 / 256 % 256).toUInt8 ≤ n ∧
      (n ≤ size (n % 256).toUInt8 (n / 256 % 256).toUInt8 (n / 256 / 256 % 256).toUInt8 ↔
        n < 128) := by
  rw [size, charValue_toUInt8 (by omega), charValue_toUInt8 (by omega),
    charValue_toUInt8 (by omega)]
  split <;> split <;> split <;> omega

/-- The size that is read of the host's length lacks the digits behind the third. -/
theorem size_lengthDigits (n : ℕ) :
    size (n % 100).toUInt8 (n / 100 % 100).toUInt8 (n / 100 / 100 % 100).toUInt8 =
      (n % 1000000 : ℕ) := by
  rw [size, charValue_toUInt8 (by omega), charValue_toUInt8 (by omega),
    charValue_toUInt8 (by omega), if_pos (by omega), if_pos (by omega), if_pos (by omega)]
  omega

section HostStrings

variable {memory : MemoryInstance} {stringAddress : ℤ} {value : Bytes}

/-- What the host reads of a string that it built. -/
theorem readTypeScriptString_buildTypeScriptString (hchars : ∀ c ∈ value, c ≠ 0)
    (h : LiesAt memory stringAddress (buildTypeScriptString value)) :
    readTypeScriptString memory stringAddress = .ok (value.take (value.length % 1000000)) := by
  have hlength : value.length < 2 ^ 31 := by
    obtain ⟨before, behind, _, _, hfits⟩ := h
    rw [buildTypeScriptString, List.length_append, length_interleave] at hfits
    omega
  rw [buildTypeScriptString, lengthDigits_four hlength] at h
  have hsize := size_lengthDigits value.length
  have hle : (value.length % 1000000 : ℕ) ≤ value.length := Nat.mod_le _ _
  rw [readTypeScriptString_of_liesAt hchars h (by rw [hsize]; exact_mod_cast hle), hsize,
    Int.toNat_natCast]

/-- A built string is read as it was when its length has at most three digits. -/
theorem read_built_string_iff (hchars : ∀ c ∈ value, c ≠ 0)
    (h : LiesAt memory stringAddress (buildTypeScriptString value)) :
    readTypeScriptString memory stringAddress = .ok value ↔ value.length < 1000000 := by
  rw [readTypeScriptString_buildTypeScriptString hchars h, Except.ok.injEq,
    List.take_eq_self_iff]
  omega

theorem read_built_string_iff_hi :
    readTypeScriptString ([7, 7] ++ buildTypeScriptString [104, 105]) 2 = .ok [104, 105] :=
  (read_built_string_iff (by simp) ⟨[7, 7], [], by decide, rfl, by decide⟩).mpr (by decide)

/-- Of a string of a million characters, whose last digits are all zero, nothing is read. -/
theorem read_million_characters (hchars : ∀ c ∈ value, c ≠ 0) (hlength : value.length = 1000000) :
    LiesAt (buildTypeScriptString value) 0 (buildTypeScriptString value) ∧
      readTypeScriptString (buildTypeScriptString value) 0 ≠ .ok value := by
  have hlies : LiesAt (buildTypeScriptString value) 0 (buildTypeScriptString value) := by
    refine liesAt_zero ?_
    rw [buildTypeScriptString, lengthDigits_four (by omega), List.length_append,
      length_interleave, hlength]
    decide
  refine ⟨hlies, ?_⟩
  rw [readTypeScriptString_buildTypeScriptString hchars hlies, Ne, Except.ok.injEq,
    List.take_eq_self_iff, hlength]
  decide

theorem million_characters_lost : ¬ ∀ value : Bytes, (∀ c ∈ value, c ≠ 0) →
    value.length < 100000000 → ∀ memory stringAddress,
      LiesAt memory stringAddress (buildTypeScriptString value) →
      readTypeScriptString memory stringAddress = .ok value := by
  intro h
  have hchars : ∀ c ∈ List.replicate 1000000 (97 : UInt8), c ≠ 0 := by
    intro c hc
    rw [List.eq_of_mem_replicate hc]
    decide
  obtain ⟨hlies, hread⟩ := read_million_characters hchars List.length_replicate
  refine hread (h _ hchars ?_ _ _ hlies)
  rw [List.length_replicate]
  decide

end HostStrings

section GuestStrings

variable {memory : MemoryInstance} {stringAddress : ℤ} (string : GuestString)

/-- What the host reads of a string of the guest. -/
theorem readTypeScriptString_layout (h : LiesAt memory stringAddress string.layout) :
    ∃ count : ℕ, readTypeScriptString memory stringAddress =
        .ok (string.characters.take count) ∧
      (string.characters.length ≤ count ↔ string.characters.length < 128) := by
  rw [layout_eq_interleave, littleEndian_four] at h
  obtain ⟨hsize, hall⟩ := size_littleEndian string.characters.length
  refine ⟨_, readTypeScriptString_of_liesAt string.nonzero h hsize, ?_⟩
  rw [← hall]
  omega

/-- The host reads the guest's strings of fewer than 128 characters, and builds
those whose length is a single digit to its base. -/
theorem guest_strings_iff :
    (∀ memory stringAddress, LiesAt memory stringAddress string.layout →
      (readTypeScriptString memory stringAddress = .ok string.characters ↔
        string.characters.length < 128)) ∧
    (buildTypeScriptString string.characters = string.layout ↔
      string.characters.length < 100) := by
  constructor
  · intro memory stringAddress h
    obtain ⟨count, hread, hall⟩ := readTypeScriptString_layout string h
    rw [hread, Except.ok.injEq, List.take_eq_self_iff, hall]
  · have hfits := string.fits
    rw [layout_eq_interleave, buildTypeScriptString, List.append_left_inj,
      lengthDigits_eq_littleEndian_iff (by omega)]

end GuestStrings

/-- The message of 129 characters at address 156 of the shipped contract, which
starts with "[debit]a new message" and ends with 29, 27 and 20 times a letter. -/
def contractMessage : GuestString where
  characters := [91, 100, 101, 98, 105, 116, 93, 97, 32, 110, 101, 119, 32, 109, 101, 115, 115, 97,
      103, 101, 32, 111, 106, 104, 106, 106, 106, 108, 106, 108, 106, 108, 106, 111, 105,
      119, 106, 102, 114, 111, 105, 104, 101, 112, 111, 105, 104, 112, 111, 104, 112,
      111, 117] ++
    List.replicate 29 104 ++ List.replicate 27 115 ++ List.replicate 20 120
  nonzero := by decide +kernel
  fits := by decide +kernel

/-- Its first byte counts as -127, so that nothing of it is read; built, it has another length. -/
theorem contractMessage_not_read :
    LiesAt contractMessage.layout 0 contractMessage.layout ∧
      readTypeScriptString contractMessage.layout 0 = .ok [] ∧
      contractMessage.characters.length = 129 ∧
      buildTypeScriptString contractMessage.characters ≠ contractMessage.layout := by
  refine ⟨liesAt_zero (by decide +kernel), by decide +kernel, by decide +kernel,
    by decide +kernel⟩

end Keto.Wavm
