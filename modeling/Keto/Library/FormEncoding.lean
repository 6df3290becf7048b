import Mathlib.Data.Nat.Notation
import Mathlib.Tactic.SplitIfs

/-!
The form-url-encoding of bytes: which texts encode some bytes, and what a reader
makes of any text that lets a malformed escape stand.
-/
namespace Keto.Library.FormEncoding

def percent : UInt8 := 0x25

def plus : UInt8 := 0x2b

def space : UInt8 := 0x20

def digitValue? (c : UInt8) : Option ℕ :=
  if 0x30 ≤ c ∧ c ≤ 0x39 then some (c.toNat - 0x30)
  else if 0x41 ≤ c ∧ c ≤ 0x46 then some (c.toNat - 0x41 + 10)
  else if 0x61 ≤ c ∧ c ≤ 0x66 then some (c.toNat - 0x61 + 10)
  else none

/-- What may follow a percent sign. -/
def StartsWithDigits (encoding : List UInt8) : Prop :=
  ∃ high low rest, encoding = high :: low :: rest ∧
    (digitValue? high).isSome ∧ (digitValue? low).isSome

/-- Every percent sign is followed by two digits. -/
def EscapesComplete (encoding : List UInt8) : Prop :=
  ∀ before behind, encoding = before ++ percent :: behind → StartsWithDigits behind

/-- `FormEncodes bytes encoding`: the second is one of the encodings of the first. -/
inductive FormEncodes : List UInt8 → List UInt8 → Prop
  | nil : FormEncodes [] []
  | literal {c : UInt8} {bytes encoding : List UInt8} (hpercent : c ≠ percent)
      (hplus : c ≠ plus) (hrest : FormEncodes bytes encoding) :
      FormEncodes (c :: bytes) (c :: encoding)
  | space {bytes encoding : List UInt8} (hrest : FormEncodes bytes encoding) :
      FormEncodes (space :: bytes) (plus :: encoding)
  | escape {high low : UInt8} {highValue lowValue : ℕ} {bytes encoding : List UInt8}
      (hhigh : digitValue? high = some highValue) (hlow : digitValue? low = some lowValue)
      (hrest : FormEncodes bytes encoding) :
      FormEncodes ((16 * highValue + lowValue).toUInt8 :: bytes)
        (percent :: high :: low :: encoding)

/-- `Reads bytes text`: the bytes of a text whose malformed escapes are kept as they are. -/
inductive Reads : List UInt8 → List UInt8 → Prop
  | nil : Reads [] []
  | literal {c : UInt8} {bytes encoding : List UInt8} (hpercent : c ≠ percent)
      (hplus : c ≠ plus) (hrest : Reads bytes encoding) : Reads (c :: bytes) (c :: encoding)
  | space {bytes encoding : List UInt8} (hrest : Reads bytes encoding) :
      Reads (space :: bytes) (plus :: encoding)
  | escape {high low : UInt8} {highValue lowValue : ℕ} {bytes encoding : List UInt8}
      (hhigh : digitValue? high = some highValue) (hlow : digitValue? low = some lowValue)
      (hrest : Reads bytes encoding) :
      Reads ((16 * highValue + lowValue).toUInt8 :: bytes) (percent :: high :: low :: encoding)
  | kept {bytes encoding : List UInt8} (hmalformed : ¬StartsWithDigits encoding)
      (hrest : Reads bytes encoding) : Reads (percent :: bytes) (percent :: encoding)

theorem digitValue?_lt {c : UInt8} {value : ℕ} (h : digitValue? c = some value) : value < 16 := by
  rw [digitValue?] at h
  simp only [UInt8.le_iff_toNat_le, UInt8.reduceToNat] at h
  split_ifs at h with hdigit hupper hlower
  · obtain rfl := Option.some.inj h
    omega
  · obtain rfl := Option.some.inj h
    omega
  · obtain rfl := Option.some.inj h
    omega

theorem EscapesComplete.tail {c : UInt8} {encoding : List UInt8}
    (h : EscapesComplete (c :: encoding)) : EscapesComplete encoding := by
  intro before behind hsplit
  exact h (c :: before) behind (by rw [hsplit, List.cons_append])

theorem EscapesComplete.starts {encoding : List UInt8} (h : EscapesComplete (percent :: encoding)) :
    StartsWithDigits encoding := h [] encoding rfl

theorem escapesComplete_nil : EscapesComplete [] := by
  intro before behind hsplit
  simp at hsplit

theorem EscapesComplete.cons {c : UInt8} {encoding : List UInt8} (hc : c ≠ percent)
    (h : EscapesComplete encoding) : EscapesComplete (c :: encoding) := by
  intro before behind hsplit
  cases before with
  | nil => exact absurd (List.cons.inj hsplit).1 hc
  | cons first before => exact h before behind (List.cons.inj hsplit).2

theorem digit_ne_percent {c : UInt8} {value : ℕ} (h : digitValue? c = some value) :
    c ≠ percent := by
  rintro rfl
  cases h

theorem EscapesComplete.escape {high low : UInt8} {highValue lowValue : ℕ}
    {encoding : List UInt8} (hhigh : digitValue? high = some highValue)
    (hlow : digitValue? low = some lowValue) (h : EscapesComplete encoding) :
    EscapesComplete (percent :: high :: low :: encoding) := by
  intro before behind hsplit
  cases before with
  | nil =>
    obtain rfl := (List.cons.inj hsplit).2
    exact ⟨high, low, encoding, rfl, by rw [hhigh]; rfl, by rw [hlow]; rfl⟩
  | cons first before =>
    exact (h.cons (digit_ne_percent hlow)).cons (digit_ne_percent hhigh) before behind
      (List.cons.inj hsplit).2

/-- A text without malformed escapes is read as what it encodes. -/
theorem Reads.formEncodes {bytes encoding : List UInt8} (h : Reads bytes encoding)
    (hcomplete : EscapesComplete encoding) : FormEncodes bytes encoding := by
  induction h with
  | nil => exact .nil
  | literal hpercent hplus hrest ih => exact .literal hpercent hplus (ih hcomplete.tail)
  | space hrest ih => exact .space (ih hcomplete.tail)
  | escape hhigh hlow hrest ih => exact .escape hhigh hlow (ih hcomplete.tail.tail.tail)
  | kept hmalformed hrest ih => exact absurd hcomplete.starts hmalformed

/-- Every text is read as something: a malformed percent sign stands for itself. -/
theorem exists_reads (encoding : List UInt8) : ∃ bytes, Reads bytes encoding := by
  match encoding with
  | [] => exact ⟨[], .nil⟩
  | c :: rest =>
    by_cases hc : c = percent
    · subst hc
      by_cases hdigits : StartsWithDigits rest
      · obtain ⟨high, low, behind, rfl, hhigh, hlow⟩ := hdigits
        obtain ⟨bytes, hbytes⟩ := exists_reads behind
        obtain ⟨highValue, hhigh⟩ := Option.isSome_iff_exists.mp hhigh
        obtain ⟨lowValue, hlow⟩ := Option.isSome_iff_exists.mp hlow
        exact ⟨_, .escape hhigh hlow hbytes⟩
      · obtain ⟨bytes, hbytes⟩ := exists_reads rest
        exact ⟨_, .kept hdigits hbytes⟩
    · obtain ⟨bytes, hbytes⟩ := exists_reads rest
      by_cases hplus : c = plus
      · subst hplus
        exact ⟨_, .space hbytes⟩
      · exact ⟨_, .literal hc hplus hbytes⟩
termination_by encoding.length

/-- Every byte of a text is read as at least one byte, but for those of an escape. -/
theorem Reads.eq_nil_iff {bytes encoding : List UInt8} (h : Reads bytes encoding) :
    bytes = [] ↔ encoding = [] := by
  cases h <;> simp

end Keto.Library.FormEncoding
