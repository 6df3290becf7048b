import Mathlib.Data.List.Basic
import Mathlib.Data.Nat.Notation

/-!
The base 64 spelling of byte strings, padded: three bytes are four digits of six
bits, and at the end of the text one or two bytes leave two or one pads.
-/
namespace Keto.Library.Base64

def pad : UInt8 := 0x3d

def digit (n : ℕ) : UInt8 :=
  if n < 26 then UInt8.ofNat (0x41 + n)
  else if n < 52 then UInt8.ofNat (0x61 + (n - 26))
  else if n < 62 then UInt8.ofNat (0x30 + (n - 52))
  else if n = 62 then 0x2b
  else 0x2f

def value? (c : UInt8) : Option ℕ :=
  if 0x41 ≤ c ∧ c ≤ 0x5a then some (c.toNat - 0x41)
  else if 0x61 ≤ c ∧ c ≤ 0x7a then some (c.toNat - 0x61 + 26)
  else if 0x30 ≤ c ∧ c ≤ 0x39 then some (c.toNat - 0x30 + 52)
  else if c = 0x2b then some 62
  else if c = 0x2f then some 63
  else none

def encode : List UInt8 → List UInt8
  | [] => []
  | [a] => [digit (a.toNat / 4), digit (a.toNat % 4 * 16), pad, pad]
  | [a, b] =>
    [digit (a.toNat / 4), digit (a.toNat % 4 * 16 + b.toNat / 16), digit (b.toNat % 16 * 4), pad]
  | a :: b :: c :: rest =>
    digit (a.toNat / 4) :: digit (a.toNat % 4 * 16 + b.toNat / 16) ::
      digit (b.toNat % 16 * 4 + c.toNat / 64) :: digit (c.toNat % 64) :: encode rest

/-- The bytes of a group, each from the two digits that hold its bits. -/
def firstByte (first second : ℕ) : UInt8 := UInt8.ofNat (first * 4 + second / 16)

def secondByte (second third : ℕ) : UInt8 := UInt8.ofNat (second % 16 * 16 + third / 4)

def thirdByte (third fourth : ℕ) : UInt8 := UInt8.ofNat (third % 4 * 64 + fourth)

/-- A pad is no digit, and is passed over at the end of the text only. -/
def decode : List UInt8 → Option (List UInt8)
  | [] => some []
  | w :: x :: y :: z :: rest => do
    let first ← value? w
    let second ← value? x
    if y = pad ∧ z = pad ∧ rest = [] then return [firstByte first second]
    let third ← value? y
    if z = pad ∧ rest = [] then return [firstByte first second, secondByte second third]
    let fourth ← value? z
    let bytes ← decode rest
    return firstByte first second :: secondByte second third :: thirdByte third fourth :: bytes
  | _ => none

example : encode [0x4d, 0x61, 0x6e, 0x4d] = [0x54, 0x57, 0x46, 0x75, 0x54, 0x51, 0x3d, 0x3d] := by
  decide

theorem digit_spec : ∀ n : Fin 64, value? (digit n) = some n.val ∧ digit n ≠ pad := by decide

theorem value?_digit {n : ℕ} (h : n < 64) : value? (digit n) = some n := (digit_spec ⟨n, h⟩).1

theorem digit_ne_pad {n : ℕ} (h : n < 64) : digit n ≠ pad := (digit_spec ⟨n, h⟩).2

/-- A text is written with digits and pads only. -/
theorem mem_encode {bytes : List UInt8} {c : UInt8} (h : c ∈ encode bytes) :
    c = pad ∨ ∃ n < 64, c = digit n := by
  induction bytes using encode.induct with
  | case1 => exact absurd h List.not_mem_nil
  | case2 a =>
    have ha := UInt8.toNat_lt a
    simp only [encode, List.mem_cons, List.not_mem_nil, or_false] at h
    rcases h with h | h | h | h
    · exact Or.inr ⟨_, by omega, h⟩
    · exact Or.inr ⟨_, by omega, h⟩
    · exact Or.inl h
    · exact Or.inl h
  | case3 a b =>
    have ha := UInt8.toNat_lt a
    have hb := UInt8.toNat_lt b
    simp only [encode, List.mem_cons, List.not_mem_nil, or_false] at h
    rcases h with h | h | h | h
    · exact Or.inr ⟨_, by omega, h⟩
    · exact Or.inr ⟨_, by omega, h⟩
    · exact Or.inr ⟨_, by omega, h⟩
    · exact Or.inl h
  | case4 a b c rest ih =>
    have ha := UInt8.toNat_lt a
    have hb := UInt8.toNat_lt b
    have hc := UInt8.toNat_lt c
    simp only [encode, List.mem_cons] at h
    rcases h with h | h | h | h | h
    · exact Or.inr ⟨_, by omega, h⟩
    · exact Or.inr ⟨_, by omega, h⟩
    · exact Or.inr ⟨_, by omega, h⟩
    · exact Or.inr ⟨_, by omega, h⟩
    · exact ih h

theorem ofNat_eq {a : UInt8} {n : ℕ} (h : n = a.toNat) : UInt8.ofNat n = a := by
  rw [h, UInt8.ofNat_toNat]

theorem firstByte_eq (a : UInt8) {low : ℕ} (h : low < 16) :
    firstByte (a.toNat / 4) (a.toNat % 4 * 16 + low) = a := ofNat_eq (by omega)

theorem secondByte_eq (high : ℕ) (b : UInt8) {low : ℕ} (h : low < 4) :
    secondByte (high * 16 + b.toNat / 16) (b.toNat % 16 * 4 + low) = b := by
  have hb := UInt8.toNat_lt b
  exact ofNat_eq (by omega)

theorem thirdByte_eq (high : ℕ) (c : UInt8) :
    thirdByte (high * 4 + c.toNat / 64) (c.toNat % 64) = c := by
  have hc := UInt8.toNat_lt c
  exact ofNat_eq (by omega)

/-- What is encoded is decoded again. -/
theorem decode_encode (bytes : List UInt8) : decode (encode bytes) = some bytes := by
  induction bytes using encode.induct with
  | case1 => rfl
  | case2 a =>
    have ha := UInt8.toNat_lt a
    have hfirst : firstByte (a.toNat / 4) (a.toNat % 4 * 16) = a := @firstByte_eq a 0 (by decide)
    rw [encode, decode, value?_digit (by omega), value?_digit (by omega)]
    simp [hfirst]
  | case3 a b =>
    have ha := UInt8.toNat_lt a
    have hb := UInt8.toNat_lt b
    have hfirst : firstByte (a.toNat / 4) (a.toNat % 4 * 16 + b.toNat / 16) = a :=
      firstByte_eq a (by omega)
    have hsecond :
        secondByte (a.toNat % 4 * 16 + b.toNat / 16) (b.toNat % 16 * 4) = b :=
      @secondByte_eq (a.toNat % 4) b 0 (by decide)
    have hdigit : digit (b.toNat % 16 * 4) ≠ pad := digit_ne_pad (by omega)
    rw [encode, decode, value?_digit (by omega), value?_digit (by omega),
      value?_digit (by omega)]
    simp [hdigit, hfirst, hsecond]
  | case4 a b c rest ih =>
    have ha := UInt8.toNat_lt a
    have hb := UInt8.toNat_lt b
    have hc := UInt8.toNat_lt c
    have hfirst : firstByte (a.toNat / 4) (a.toNat % 4 * 16 + b.toNat / 16) = a :=
      firstByte_eq a (by omega)
    have hsecond : secondByte (a.toNat % 4 * 16 + b.toNat / 16)
        (b.toNat % 16 * 4 + c.toNat / 64) = b := secondByte_eq (a.toNat % 4) b (by omega)
    have hthird : thirdByte (b.toNat % 16 * 4 + c.toNat / 64) (c.toNat % 64) = c :=
      thirdByte_eq (b.toNat % 16) c
    have hdigit : digit (b.toNat % 16 * 4 + c.toNat / 64) ≠ pad := digit_ne_pad (by omega)
    have hlast : digit (c.toNat % 64) ≠ pad := digit_ne_pad (by omega)
    rw [encode, decode, value?_digit (by omega), value?_digit (by omega),
      value?_digit (by omega), value?_digit (by omega), ih]
    simp [hdigit, hlast, hfirst, hsecond, hthird]

end Keto.Library.Base64
