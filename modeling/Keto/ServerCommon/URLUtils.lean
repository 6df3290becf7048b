import Keto.Library.FormEncoding
import Keto.Protocol
import Mathlib.Data.Int.Notation

/-!
The unescaping of URL texts. It takes no notice of digits that are none, and of
the percent sign of an escape that the text ends in.
-/
namespace Keto.ServerCommon

open Protocol Library.FormEncoding

namespace URLUtils

/-- `hex_decode_char`: -1 for a character that is no digit. -/
def hexDecodeChar (ch : UInt8) : ℤ :=
  if 0x30 ≤ ch ∧ ch ≤ 0x39 then ch.toNat - 0x30
  else if 0x41 ≤ ch ∧ ch ≤ 0x46 then ch.toNat - 0x41 + 0xa
  else if 0x61 ≤ ch ∧ ch ≤ 0x66 then ch.toNat - 0x61 + 0xa
  else -1

/-- `hex_decode`: the sum is narrowed to a `char`, whatever the two digits gave. -/
def hexDecode (substr : Bytes) : Bytes :=
  match substr with
  | high :: low :: _ => [UInt8.ofInt (hexDecodeChar high * 16 + hexDecodeChar low)]
  | short => short

def unescape (escapedString : Bytes) : Bytes :=
  match escapedString with
  | [] => []
  | pos :: rest =>
    if pos = percent then
      -- `substr(index, 2)` is cut short by the end of the text
      match rest with
      | high :: low :: behind => hexDecode [high, low] ++ unescape behind
      | short => hexDecode short
    else if pos = plus then space :: unescape rest
    else pos :: unescape rest

example : unescape (text "a%20b+%C3%a9") = text "a b " ++ [0xc3, 0xa9] := by decide +kernel

@[simp]
theorem unescape_nil : unescape [] = [] := by rw [unescape]

theorem unescape_literal {c : UInt8} (hpercent : c ≠ percent) (hplus : c ≠ plus) (rest : Bytes) :
    unescape (c :: rest) = c :: unescape rest := by
  match rest with
  | [] => simp [unescape, hpercent, hplus]
  | [only] => simp [unescape, hpercent, hplus]
  | high :: low :: behind => simp [unescape, hpercent, hplus]

theorem unescape_plus (rest : Bytes) : unescape (plus :: rest) = space :: unescape rest := by
  match rest with
  | [] => rfl
  | [only] => rfl
  | high :: low :: behind => rfl

theorem unescape_percent (high low : UInt8) (rest : Bytes) :
    unescape (percent :: high :: low :: rest) =
      UInt8.ofInt (hexDecodeChar high * 16 + hexDecodeChar low) :: unescape rest := by
  rw [unescape, if_pos rfl, hexDecode, List.singleton_append]

/-- An escape that the end of the text cuts short loses its percent sign. -/
theorem unescape_cut {short : Bytes} (h : short.length < 2) :
    unescape (percent :: short) = short := by
  match short with
  | [] => rfl
  | [only] => rfl

theorem hexDecodeChar_of_digit {c : UInt8} {value : ℕ} (h : digitValue? c = some value) :
    hexDecodeChar c = value := by
  rw [digitValue?] at h
  rw [hexDecodeChar]
  simp only [UInt8.le_iff_toNat_le, UInt8.reduceToNat] at h ⊢
  split_ifs at h ⊢
  · obtain rfl := Option.some.inj h
    omega
  · obtain rfl := Option.some.inj h
    omega
  · obtain rfl := Option.some.inj h
    omega

theorem hexDecodeChar_of_none {c : UInt8} (h : digitValue? c = none) : hexDecodeChar c = -1 := by
  rw [digitValue?] at h
  rw [hexDecodeChar]
  split_ifs at h ⊢
  rfl

theorem unescape_escape {high low : UInt8} {highValue lowValue : ℕ}
    (hhigh : digitValue? high = some highValue) (hlow : digitValue? low = some lowValue)
    (rest : Bytes) :
    unescape (percent :: high :: low :: rest) =
      (16 * highValue + lowValue).toUInt8 :: unescape rest := by
  have hbyte : UInt8.ofInt ((highValue : ℤ) * 16 + lowValue) =
      (16 * highValue + lowValue).toUInt8 := by
    rw [UInt8.ofInt, ← UInt8.toNat_inj, UInt8.toNat_ofNat', UInt8.toNat_ofNat']
    omega
  rw [unescape_percent, hexDecodeChar_of_digit hhigh, hexDecodeChar_of_digit hlow, hbyte]

/-- What an encoding stands for comes out in front of what follows it. -/
theorem unescape_append {bytes encoding : Bytes} (h : FormEncodes bytes encoding) (rest : Bytes) :
    unescape (encoding ++ rest) = bytes ++ unescape rest := by
  induction h with
  | nil => rfl
  | literal hpercent hplus hrest ih =>
    rw [List.cons_append, unescape_literal hpercent hplus, ih, List.cons_append]
  | space hrest ih => rw [List.cons_append, unescape_plus, ih, List.cons_append]
  | escape hhigh hlow hrest ih =>
    rw [List.cons_append, List.cons_append, List.cons_append, unescape_escape hhigh hlow, ih,
      List.cons_append]

/-- Unescaping inverts every encoding. -/
theorem unescape_formEncodes {bytes encoding : Bytes} (h : FormEncodes bytes encoding) :
    unescape encoding = bytes := by
  have happend := unescape_append h []
  rwa [List.append_nil, unescape_nil, List.append_nil] at happend

/-- Only a text without other characters than a percent sign comes out empty. -/
theorem unescape_eq_nil_iff {escaped : Bytes} :
    unescape escaped = [] ↔ escaped = [] ∨ escaped = [percent] := by
  match escaped with
  | [] => simp
  | c :: rest =>
    by_cases hpercent : c = percent
    · subst hpercent
      match rest with
      | [] => simp [unescape_cut]
      | [only] => simp [unescape_cut]
      | high :: low :: behind => simp [unescape_percent]
    · by_cases hplus : c = plus
      · subst hplus
        simp [unescape_plus, hpercent]
      · simp [unescape_literal hpercent hplus, hpercent]

/-- Two characters of which one is no digit never give the percent sign. -/
theorem malformed_ne_percent {high low : UInt8}
    (h : digitValue? high = none ∨ digitValue? low = none) :
    UInt8.ofInt (hexDecodeChar high * 16 + hexDecodeChar low) ≠ percent := by
  have hbound : ∀ c, hexDecodeChar c = -1 ∨ 0 ≤ hexDecodeChar c ∧ hexDecodeChar c < 16 := by
    intro c
    cases hdigit : digitValue? c with
    | none => exact .inl (hexDecodeChar_of_none hdigit)
    | some value =>
      rw [hexDecodeChar_of_digit hdigit]
      have hlt := digitValue?_lt hdigit
      omega
  have hnone : hexDecodeChar high = -1 ∨ hexDecodeChar low = -1 :=
    h.imp hexDecodeChar_of_none hexDecodeChar_of_none
  intro heq
  have hbyte := congrArg UInt8.toNat heq
  rw [UInt8.ofInt, UInt8.toNat_ofNat'] at hbyte
  have hhigh := hbound high
  have hlow := hbound low
  have hpercent : percent.toNat = 37 := rfl
  omega

/-- A malformed escape is never read as itself. -/
theorem escapesComplete_of_unescape {bytes encoding : Bytes} (h : Reads bytes encoding)
    (hread : unescape encoding = bytes) : EscapesComplete encoding := by
  induction h with
  | nil => exact escapesComplete_nil
  | literal hpercent hplus hrest ih =>
    rw [unescape_literal hpercent hplus, List.cons.injEq] at hread
    exact (ih hread.2).cons hpercent
  | space hrest ih =>
    rw [unescape_plus, List.cons.injEq] at hread
    exact (ih hread.2).cons (by decide)
  | escape hhigh hlow hrest ih =>
    rw [unescape_escape hhigh hlow, List.cons.injEq] at hread
    exact (ih hread.2).escape hhigh hlow
  | @kept bytes encoding hmalformed hrest ih =>
    exfalso
    match encoding with
    | [] =>
      rw [unescape_cut (by simp)] at hread
      cases hread
    | [only] =>
      rw [unescape_cut (by simp), List.cons.injEq] at hread
      exact absurd (hrest.eq_nil_iff.mp hread.2.symm) (by simp)
    | high :: low :: behind =>
      rw [unescape_percent, List.cons.injEq] at hread
      refine malformed_ne_percent ?_ hread.1
      cases hhigh : digitValue? high with
      | none => exact .inl rfl
      | some highValue =>
        cases hlow : digitValue? low with
        | none => exact .inr rfl
        | some lowValue =>
          exact absurd ⟨high, low, behind, rfl, by rw [hhigh]; rfl, by rw [hlow]; rfl⟩ hmalformed

/-- Every encoding is inverted, and a text is read as it should be exactly when it has
no malformed escapes. -/
theorem unescape_iff (encoding : Bytes) :
    (∀ bytes, FormEncodes bytes encoding → unescape encoding = bytes) ∧
      ((∀ bytes, Reads bytes encoding → unescape encoding = bytes) ↔
        EscapesComplete encoding) := by
  refine ⟨fun bytes h => unescape_formEncodes h, ?_, ?_⟩
  · intro hread
    obtain ⟨bytes, hbytes⟩ := exists_reads encoding
    exact escapesComplete_of_unescape hbytes (hread bytes hbytes)
  · intro hcomplete bytes hbytes
    exact unescape_formEncodes (hbytes.formEncodes hcomplete)

/-- The percent sign at the end of a text is dropped. -/
theorem trailing_percent_dropped :
    ¬∀ bytes encoding, Reads bytes encoding → unescape encoding = bytes := by
  intro hread
  have hkept : Reads (text "100%") (text "100%") := by
    refine .literal (by decide) (by decide) (.literal (by decide) (by decide)
      (.literal (by decide) (by decide) (.kept ?_ .nil)))
    rintro ⟨high, low, rest, hshort, -⟩
    cases hshort
  have hdropped : unescape (text "100%") = text "100" := by decide +kernel
  exact absurd (hdropped.symm.trans (hread _ _ hkept)) (by decide)

end URLUtils

end Keto.ServerCommon
