import Keto.Library.Fallible
import Keto.Protocol
import Mathlib.Algebra.Ring.Int.Defs
import Mathlib.Algebra.Ring.Nat

/-!
The strings that host and guest hand each other in the memory of an instance. A
string starts with its length in four bytes, and each of its characters has a
byte behind it that is zero. A `char` is a byte that counts as signed.
-/
namespace Keto.Wavm

open Protocol Library.Fallible

inductive RuntimeException
  | accessViolation
  deriving DecidableEq, Repr

/-- The linear memory of an instance, byte by byte. -/
abbrev MemoryInstance := List UInt8

/-- `memoryRef<char>`. Addresses are `I32`, of which the negative ones lie outside. -/
def memoryRef (memory : MemoryInstance) (address : ℤ) : Except RuntimeException UInt8 :=
  if 0 ≤ address ∧ address < 2 ^ 31 then
    match memory[address.toNat]? with
    | some c => .ok c
    | none => .error .accessViolation
  else .error .accessViolation

def charValue (c : UInt8) : ℤ := if c.toNat < 128 then c.toNat else c.toNat - 256

namespace WavmUtils

/-- One round of the loop, which takes every byte that is not zero. -/
def appendCharacter (memory : MemoryInstance) (stringAddress : ℤ) (returnString : Bytes)
    (index : ℕ) : Except RuntimeException Bytes := do
  let c ← memoryRef memory (stringAddress + 4 + index)
  return if c ≠ 0 then returnString ++ [c] else returnString

/-- The `size` that the first three bytes of a string make, signed digits to the base 100. -/
def size (first second third : UInt8) : ℤ :=
  charValue first + charValue second * 100 + charValue third * 10000

/-- The fourth byte of the length is not read. -/
def readTypeScriptString (memory : MemoryInstance) (stringAddress : ℤ) :
    Except RuntimeException Bytes := do
  let first ← memoryRef memory stringAddress
  let second ← memoryRef memory (stringAddress + 1)
  let third ← memoryRef memory (stringAddress + 2)
  (List.range (size first second third * 2).toNat).foldlM
    (appendCharacter memory stringAddress) []

/-- The last digits of a value to the base 100, lowest first, each as a `char`. -/
def lengthDigits : ℕ → ℤ → Bytes
  | 0, _ => []
  | count + 1, currentValue =>
    UInt8.ofInt (currentValue.tmod 100) :: lengthDigits count (currentValue.tdiv 100)

def interleave (value : Bytes) : Bytes := value.flatMap fun character => [character, 0]

def buildTypeScriptString (value : Bytes) : Bytes :=
  lengthDigits 4 (Int.bmod value.length (2 ^ 32)) ++ interleave value

end WavmUtils

/-- The bytes lie in the memory from the address on, and an `I32` reaches them all. -/
def LiesAt (memory : MemoryInstance) (address : ℤ) (bytes : Bytes) : Prop :=
  ∃ before behind, memory = before ++ bytes ++ behind ∧ address = before.length ∧
    before.length + bytes.length ≤ 2 ^ 31

theorem liesAt_zero {bytes : Bytes} (h : bytes.length ≤ 2 ^ 31) : LiesAt bytes 0 bytes := by
  refine ⟨[], [], ?_, rfl, ?_⟩
  · rw [List.nil_append, List.append_nil]
  · rw [List.length_nil, Nat.zero_add]
    exact h

theorem memoryRef_of_liesAt {memory : MemoryInstance} {address : ℤ} {bytes : Bytes}
    (h : LiesAt memory address bytes) {i : ℕ} {c : UInt8} (hc : bytes[i]? = some c) :
    memoryRef memory (address + i) = .ok c := by
  obtain ⟨before, behind, rfl, rfl, hfits⟩ := h
  have hi : i < bytes.length := (List.getElem?_eq_some_iff.mp hc).1
  have hnat : ((before.length : ℤ) + i).toNat = before.length + i := by omega
  have hread : (before ++ bytes ++ behind)[before.length + i]? = some c := by
    rw [List.append_assoc, List.getElem?_append_right (by omega), Nat.add_sub_cancel_left,
      List.getElem?_append_left hi, hc]
  rw [memoryRef, if_pos (by omega), hnat, hread]

namespace WavmUtils

section Loop

variable {memory : MemoryInstance} {stringAddress : ℤ}

theorem appendCharacter_eq {index : ℕ} {c : UInt8}
    (h : memoryRef memory (stringAddress + 4 + index) = .ok c) (returnString : Bytes) :
    appendCharacter memory stringAddress returnString index =
      .ok (returnString ++ [c].filter (· ≠ 0)) := by
  rw [appendCharacter, bind_ok h]
  by_cases hzero : c = 0
  · simp [hzero, pure, Except.pure]
  · simp [hzero, pure, Except.pure]

/-- The loop over bytes that are there keeps those that are not zero. -/
theorem foldlM_appendCharacter {payload : Bytes}
    (h : ∀ (i : ℕ) c, payload[i]? = some c → memoryRef memory (stringAddress + 4 + i) = .ok c)
    {count : ℕ} (hcount : count ≤ payload.length) :
    (List.range count).foldlM (appendCharacter memory stringAddress) [] =
      .ok ((payload.take count).filter (· ≠ 0)) := by
  induction count with
  | zero => rfl
  | succ count ih =>
    obtain ⟨c, hc⟩ : ∃ c, payload[count]? = some c :=
      ⟨payload.get ⟨count, hcount⟩, List.getElem?_eq_getElem hcount⟩
    rw [List.range_succ, List.foldlM_append, bind_ok (ih (by omega)), List.foldlM_cons,
      bind_ok (appendCharacter_eq (h count c hc) _), List.take_add_one, hc, Option.toList_some,
      List.filter_append]
    rfl

end Loop

theorem length_interleave (value : Bytes) : (interleave value).length = value.length * 2 := by
  induction value with
  | nil => rfl
  | cons character value ih =>
    rw [interleave, List.flatMap_cons, List.length_append, ← interleave, ih]
    simp only [List.length_cons, List.length_nil]
    omega

theorem take_interleave (value : Bytes) (count : ℕ) :
    (interleave value).take (count * 2) = interleave (value.take count) := by
  induction value generalizing count with
  | nil => simp [interleave]
  | cons character value ih =>
    cases count with
    | zero => rfl
    | succ count =>
      have hrest := ih count
      rw [interleave] at hrest
      simp [interleave, Nat.add_mul, hrest]

theorem filter_interleave {value : Bytes} (h : ∀ c ∈ value, c ≠ 0) :
    (interleave value).filter (· ≠ 0) = value := by
  induction value with
  | nil => rfl
  | cons character value ih =>
    rw [List.forall_mem_cons] at h
    have hpair : [character, 0].filter (· ≠ 0) = [character] := by simp [h.1]
    rw [interleave, List.flatMap_cons, List.filter_append, hpair, ← interleave, ih h.2]
    rfl

/-- A string in the memory reads as its first characters, as many as the length
stands for that the first three bytes make. -/
theorem readTypeScriptString_of_liesAt {memory : MemoryInstance} {stringAddress : ℤ}
    {first second third fourth : UInt8} {value : Bytes} (hchars : ∀ c ∈ value, c ≠ 0)
    (h : LiesAt memory stringAddress ([first, second, third, fourth] ++ interleave value))
    (hsize : size first second third ≤ value.length) :
    readTypeScriptString memory stringAddress =
      .ok (value.take (size first second third).toNat) := by
  have hfirst : memoryRef memory stringAddress = .ok first := by
    have hread := memoryRef_of_liesAt h (i := 0) (c := first) rfl
    rwa [Int.ofNat_zero, Int.add_zero] at hread
  have hsecond : memoryRef memory (stringAddress + 1) = .ok second :=
    memoryRef_of_liesAt h (i := 1) rfl
  have hthird : memoryRef memory (stringAddress + 2) = .ok third :=
    memoryRef_of_liesAt h (i := 2) rfl
  have hpayload : ∀ (i : ℕ) c, (interleave value)[i]? = some c →
      memoryRef memory (stringAddress + 4 + i) = .ok c := by
    intro i c hc
    have hread := memoryRef_of_liesAt h (i := 4 + i) (c := c) (by
      rw [List.getElem?_append_right (Nat.le_add_right 4 i)]
      simpa using hc)
    rwa [Int.natCast_add, ← Int.add_assoc] at hread
  have hcount : (size first second third * 2).toNat = (size first second third).toNat * 2 := by
    omega
  rw [readTypeScriptString, bind_ok hfirst, bind_ok hsecond, bind_ok hthird, hcount,
    foldlM_appendCharacter hpayload (by rw [length_interleave]; omega), take_interleave,
    filter_interleave fun c hc => hchars c (List.mem_of_mem_take hc)]

end WavmUtils

end Keto.Wavm
