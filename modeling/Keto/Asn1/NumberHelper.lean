import Keto.Library.TwosComplement

/-!
The helper over a `long` for ASN.1 integers of any size. None of its operations
looks at what the conversion of an integer returns: where the integer does not fit
a `long`, they go on with a variable that was never set.
-/
namespace Keto.Asn1

open Library

/-- `Number_t`: the octets of an integer, at least one. -/
structure Number where
  octets : List UInt8
  nonempty : octets ≠ []
  deriving DecidableEq, Repr

def Number.value (number : Number) : ℤ := TwosComplement.value number.octets

/-- The conversions of asn1c. `asn_INTEGER2long` is `none` where it returns -1; it
does not write its output then. -/
structure IntegerCodec where
  asn_INTEGER2long : Number → Option Int64
  asn_long2INTEGER : Int64 → Number

namespace IntegerCodec

/-- Integers are read when they are the value of a `long`, and written with their value. -/
structure Lawful (codec : IntegerCodec) : Prop where
  reads : ∀ number v, codec.asn_INTEGER2long number = some v ↔ number.value = v.toInt
  writes : ∀ v, (codec.asn_long2INTEGER v).value = v.toInt

end IntegerCodec

def Fits (n : ℤ) : Prop := -2 ^ 63 ≤ n ∧ n < 2 ^ 63

instance (n : ℤ) : Decidable (Fits n) := inferInstanceAs (Decidable (_ ∧ _))

/-- What the language leaves open: an uninitialised `long`, on the stack or in a helper,
and the result of an overflow. -/
structure Unspecified where
  uninitialised : Int64
  overflow : Int64
  deriving DecidableEq, Repr

structure NumberHelper where
  value : Int64
  deriving DecidableEq, Repr

/-- The conversions as documented: the shortest octets are written. -/
def IntegerCodec.asn1c : IntegerCodec where
  asn_INTEGER2long number :=
    if Fits number.value then some (Int64.ofInt number.value) else none
  asn_long2INTEGER v :=
    ⟨TwosComplement.shortest (TwosComplement.octets 8 v.toInt),
      TwosComplement.shortest_ne_nil (List.cons_ne_nil _ _)⟩

theorem fits_toInt (v : Int64) : Fits v.toInt := ⟨Int64.le_toInt v, Int64.toInt_lt v⟩

theorem IntegerCodec.asn1c_lawful : asn1c.Lawful where
  reads := by
    intro number v
    simp only [asn1c]
    by_cases hfits : Fits number.value
    · rw [if_pos hfits, Option.some.injEq, ← Int64.toInt_inj,
        Int64.toInt_ofInt_of_le hfits.1 hfits.2]
    · rw [if_neg hfits]
      refine iff_of_false (Option.some_ne_none v).symm ?_
      intro hvalue
      exact hfits (hvalue ▸ fits_toInt v)
  writes := by
    intro v
    have hfits := fits_toInt v
    rw [asn1c, Number.value, TwosComplement.value_shortest]
    exact TwosComplement.value_octets hfits.1 hfits.2

namespace NumberHelper

variable (codec : IntegerCodec) (unspecified : Unspecified)

def sum (a b : Int64) : Int64 :=
  if Fits (a.toInt + b.toInt) then a + b else unspecified.overflow

def difference (a b : Int64) : Int64 :=
  if Fits (a.toInt - b.toInt) then a - b else unspecified.overflow

/-- `asn_INTEGER2long(number, &value)` with a variable that is not initialized. -/
def convert (number : Number) : Int64 :=
  (codec.asn_INTEGER2long number).getD unspecified.uninitialised

def new : NumberHelper := ⟨0⟩

def ofLong (number : Int64) : NumberHelper := ⟨number⟩

/-- The constructors from a `Number_t`, by reference and by pointer; so are the other
operations on one. -/
def ofNumber_t (number : Number) : NumberHelper := ⟨convert codec unspecified number⟩

/-- `operator +` and `operator -` change the helper as `operator +=` and `operator -=` do. -/
def plusLong (rhs : Int64) (helper : NumberHelper) : NumberHelper :=
  ⟨sum unspecified helper.value rhs⟩

def minusLong (rhs : Int64) (helper : NumberHelper) : NumberHelper :=
  ⟨difference unspecified helper.value rhs⟩

def plusInt (rhs : Int32) (helper : NumberHelper) : NumberHelper :=
  helper.plusLong unspecified rhs.toInt64

def minusInt (rhs : Int32) (helper : NumberHelper) : NumberHelper :=
  helper.minusLong unspecified rhs.toInt64

def plusHelper (rhs helper : NumberHelper) : NumberHelper := helper.plusLong unspecified rhs.value

def minusHelper (rhs helper : NumberHelper) : NumberHelper :=
  helper.minusLong unspecified rhs.value

def plusNumber_t (number : Number) (helper : NumberHelper) : NumberHelper :=
  helper.plusLong unspecified (convert codec unspecified number)

def minusNumber_t (number : Number) (helper : NumberHelper) : NumberHelper :=
  helper.minusLong unspecified (convert codec unspecified number)

def assignLong (number : Int64) (_helper : NumberHelper) : NumberHelper := ⟨number⟩

def assignNumber_t (number : Number) (_helper : NumberHelper) : NumberHelper :=
  ⟨convert codec unspecified number⟩

def assignHelper (number _helper : NumberHelper) : NumberHelper := ⟨number.value⟩

def toNumber_t (helper : NumberHelper) : Number := codec.asn_long2INTEGER helper.value

def toLong (helper : NumberHelper) : Int64 := helper.value

/-- The ways to hand an ASN.1 integer over: by itself, or in a helper that is constructed
from it. -/
inductive Operation
  | construct
  | assign
  | assignHelper
  | plus
  | plusHelper
  | minus
  | minusHelper
  deriving DecidableEq, Repr

def perform : Operation → Number → NumberHelper → NumberHelper
  | .construct, number, _ => ofNumber_t codec unspecified number
  | .assign, number, helper => helper.assignNumber_t codec unspecified number
  | .assignHelper, number, helper => assignHelper (ofNumber_t codec unspecified number) helper
  | .plus, number, helper => helper.plusNumber_t codec unspecified number
  | .plusHelper, number, helper =>
    plusHelper unspecified (ofNumber_t codec unspecified number) helper
  | .minus, number, helper => helper.minusNumber_t codec unspecified number
  | .minusHelper, number, helper =>
    minusHelper unspecified (ofNumber_t codec unspecified number) helper

def performLong : Operation → Int64 → NumberHelper → NumberHelper
  | .construct, v, _ => ofLong v
  | .assign, v, helper | .assignHelper, v, helper => helper.assignLong v
  | .plus, v, helper | .plusHelper, v, helper => helper.plusLong unspecified v
  | .minus, v, helper | .minusHelper, v, helper => helper.minusLong unspecified v

def Operation.result (operation : Operation) (value n : ℤ) : ℤ :=
  match operation with
  | .construct | .assign | .assignHelper => n
  | .plus | .plusHelper => value + n
  | .minus | .minusHelper => value - n

/-- Whatever the language leaves open, the operation does what it does with a `long` that
equals the integer. -/
def UsesExactly (operation : Operation) (number : Number) (helper : NumberHelper) : Prop :=
  ∀ unspecified, ∃ v : Int64, v.toInt = number.value ∧
    perform codec unspecified operation number helper = performLong unspecified operation v helper

def HasResult (operation : Operation) (number : Number) (helper : NumberHelper) : Prop :=
  ∀ unspecified, (perform codec unspecified operation number helper).value.toInt =
    operation.result helper.value.toInt number.value

variable {codec unspecified}

theorem exists_toInt_iff (n : ℤ) : (∃ v : Int64, v.toInt = n) ↔ Fits n := by
  constructor
  · intro h
    obtain ⟨v, rfl⟩ := h
    exact fits_toInt v
  · intro h
    exact ⟨Int64.ofInt n, Int64.toInt_ofInt_of_le h.1 h.2⟩

theorem toInt_sum {a b : Int64} (h : Fits (a.toInt + b.toInt)) :
    (sum unspecified a b).toInt = a.toInt + b.toInt := by
  rw [sum, if_pos h, Int64.toInt_add]
  exact Int.bmod_eq_of_le h.1 h.2

theorem toInt_difference {a b : Int64} (h : Fits (a.toInt - b.toInt)) :
    (difference unspecified a b).toInt = a.toInt - b.toInt := by
  rw [difference, if_pos h, Int64.toInt_sub]
  exact Int.bmod_eq_of_le h.1 h.2

theorem convert_of_toInt (hlawful : codec.Lawful) {number : Number} {v : Int64}
    (h : number.value = v.toInt) : convert codec unspecified number = v := by
  rw [convert, (hlawful.reads number v).mpr h]
  rfl

/-- What does not fit a `long` leaves the variable as it was. -/
theorem convert_of_not_fits (hlawful : codec.Lawful) {number : Number} (h : ¬ Fits number.value) :
    convert codec unspecified number = unspecified.uninitialised := by
  cases hread : codec.asn_INTEGER2long number with
  | none =>
    rw [convert, hread]
    rfl
  | some v =>
    have hvalue := (hlawful.reads number v).mp hread
    rw [hvalue] at h
    exact absurd (fits_toInt v) h

/-- Every operation converts the integer and goes on with what it finds in the variable. -/
theorem perform_eq (operation : Operation) (number : Number) (helper : NumberHelper) :
    perform codec unspecified operation number helper =
      performLong unspecified operation (convert codec unspecified number) helper := by
  cases operation with
  | construct => rfl
  | assign => rfl
  | assignHelper => rfl
  | plus => rfl
  | plusHelper => rfl
  | minus => rfl
  | minusHelper => rfl

/-- With a `long` the result is exact where it fits one. -/
theorem performLong_result (operation : Operation) (v : Int64) (helper : NumberHelper)
    (h : Fits (operation.result helper.value.toInt v.toInt)) :
    (performLong unspecified operation v helper).value.toInt =
      operation.result helper.value.toInt v.toInt := by
  cases operation with
  | construct => rfl
  | assign => rfl
  | assignHelper => rfl
  | plus => exact toInt_sum h
  | plusHelper => exact toInt_sum h
  | minus => exact toInt_difference h
  | minusHelper => exact toInt_difference h

def Operation.wrapped (operation : Operation) (value v : Int64) : Int64 :=
  match operation with
  | .construct | .assign | .assignHelper => v
  | .plus | .plusHelper => value + v
  | .minus | .minusHelper => value - v

/-- An overflow may wrap. -/
theorem performLong_wrapped (operation : Operation) (initial v : Int64) (helper : NumberHelper) :
    (performLong ⟨initial, operation.wrapped helper.value v⟩ operation v helper).value =
      operation.wrapped helper.value v := by
  cases operation with
  | construct => rfl
  | assign => rfl
  | assignHelper => rfl
  | plus => exact ite_self _
  | plusHelper => exact ite_self _
  | minus => exact ite_self _
  | minusHelper => exact ite_self _

theorem wrapped_ne (operation : Operation) (value : Int64) :
    operation.wrapped value 0 ≠ operation.wrapped value 1 := by
  have hplus : value + 0 ≠ value + 1 := by grind
  have hminus : value - 0 ≠ value - 1 := by grind
  cases operation with
  | construct => exact (by decide : (0 : Int64) ≠ 1)
  | assign => exact (by decide : (0 : Int64) ≠ 1)
  | assignHelper => exact (by decide : (0 : Int64) ≠ 1)
  | plus => exact hplus
  | plusHelper => exact hplus
  | minus => exact hminus
  | minusHelper => exact hminus

theorem usesExactly_iff (hlawful : codec.Lawful) (operation : Operation) (number : Number)
    (helper : NumberHelper) :
    UsesExactly codec operation number helper ↔ Fits number.value := by
  rw [← exists_toInt_iff]
  constructor
  · intro h
    obtain ⟨v, hv, _⟩ := h ⟨0, 0⟩
    exact ⟨v, hv⟩
  · intro h unspecified
    obtain ⟨v, hv⟩ := h
    refine ⟨v, hv, ?_⟩
    rw [perform_eq, convert_of_toInt hlawful hv.symm]

theorem hasResult_iff (hlawful : codec.Lawful) (operation : Operation) (number : Number)
    (helper : NumberHelper) :
    HasResult codec operation number helper ↔ Fits number.value ∧
      Fits (operation.result helper.value.toInt number.value) := by
  constructor
  · intro h
    constructor
    · -- else two values of the variable lead to two results
      by_contra hfits
      have hzero := h ⟨0, operation.wrapped helper.value 0⟩
      have hone := h ⟨1, operation.wrapped helper.value 1⟩
      rw [perform_eq, convert_of_not_fits hlawful hfits, performLong_wrapped] at hzero hone
      exact wrapped_ne operation helper.value (Int64.toInt.inj (hzero.trans hone.symm))
    · rw [← h ⟨0, 0⟩]
      exact fits_toInt _
  · intro h unspecified
    obtain ⟨v, hv⟩ := (exists_toInt_iff number.value).mpr h.1
    rw [perform_eq, convert_of_toInt hlawful hv.symm, ← hv]
    exact performLong_result operation v helper (hv ▸ h.2)

/-- A `long` that is converted to an integer is read back, by the constructor and by the
assignment. -/
theorem convert_toNumber_t (hlawful : codec.Lawful) (v : Int64) :
    convert codec unspecified ((ofLong v).toNumber_t codec) = v :=
  convert_of_toInt hlawful (hlawful.writes v)

/-- Every `long` survives the conversion to an integer and back. An integer is used
exactly by an operation when it fits a `long`, and the result is the exact one when it
fits as well; no operation throws. -/
theorem integer_used_iff (codec : IntegerCodec) (hlawful : codec.Lawful) :
    (∀ unspecified v helper,
      toLong (ofNumber_t codec unspecified ((ofLong v).toNumber_t codec)) = v ∧
        toLong (assignNumber_t codec unspecified ((ofLong v).toNumber_t codec) helper) = v) ∧
    ∀ operation number helper,
      (UsesExactly codec operation number helper ↔ Fits number.value) ∧
        (HasResult codec operation number helper ↔ Fits number.value ∧
          Fits (operation.result helper.value.toInt number.value)) := by
  constructor
  · intro unspecified v helper
    exact ⟨convert_toNumber_t hlawful v, convert_toNumber_t hlawful v⟩
  · intro operation number helper
    exact ⟨usesExactly_iff hlawful operation number helper,
      hasResult_iff hlawful operation number helper⟩

theorem integer_used_asn1c :
    (∀ unspecified v helper,
      toLong (ofNumber_t .asn1c unspecified ((ofLong v).toNumber_t .asn1c)) = v ∧
        toLong (assignNumber_t .asn1c unspecified ((ofLong v).toNumber_t .asn1c) helper) = v) ∧
    ∀ operation number helper,
      (UsesExactly .asn1c operation number helper ↔ Fits number.value) ∧
        (HasResult .asn1c operation number helper ↔ Fits number.value ∧
          Fits (operation.result helper.value.toInt number.value)) :=
  integer_used_iff .asn1c IntegerCodec.asn1c_lawful

def behindRange : Number := ⟨[0, 0x80, 0, 0, 0, 0, 0, 0, 0], by decide⟩

/-- What is constructed from it, or becomes of a sum, depends on what the variable was. -/
theorem behindRange_invented :
    behindRange.value = 2 ^ 63 ∧
      (∀ v overflow, ofNumber_t .asn1c ⟨v, overflow⟩ behindRange = ofLong v) ∧
      (plusNumber_t .asn1c ⟨5, 0⟩ behindRange (ofLong 1)).value = 6 ∧
      (plusNumber_t .asn1c ⟨7, 0⟩ behindRange (ofLong 1)).value = 8 ∧
      ∀ helper, ¬ UsesExactly .asn1c .construct behindRange helper ∧
        ¬ HasResult .asn1c .construct behindRange helper := by
  have hvalue : behindRange.value = 2 ^ 63 := by decide +kernel
  have hfits : ¬ Fits behindRange.value := by
    rw [hvalue]
    decide
  have hinvented : ∀ v overflow, ofNumber_t .asn1c ⟨v, overflow⟩ behindRange = ofLong v :=
    fun v overflow => congrArg NumberHelper.mk
      (convert_of_not_fits IntegerCodec.asn1c_lawful hfits)
  refine ⟨hvalue, hinvented, by decide +kernel, by decide +kernel, ?_⟩
  intro helper
  constructor
  · intro huses
    obtain ⟨v, hv, _⟩ := huses ⟨0, 0⟩
    exact hfits (hv ▸ fits_toInt v)
  · intro hresult
    have hzero : _ = behindRange.value := hresult ⟨0, 0⟩
    rw [← hzero] at hfits
    exact hfits (fits_toInt _)

end NumberHelper

end Keto.Asn1
