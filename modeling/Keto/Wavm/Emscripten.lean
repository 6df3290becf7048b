import Keto.Library.MachineIntegers
import Keto.Library.Runs
import Keto.Wavm.WavmUtils

/-!
The allocation of guest memory for the texts that are handed to a contract: behind
the memory there is, which is grown by whole pages. The numbers of pages and of bytes
are held in `int`, so that the bytes of a memory of 4 GiB count as none. Arithmetic
wraps around where an `int` overflows.
-/
namespace Keto.Wavm.Emscripten

open Library.Fallible Library.MachineIntegers Library.Runs

/-- A memory instance, of at most 4 GiB; its content plays no part. -/
structure GuestMemory where
  numPages : ℕ
  le_maxMemoryPages : numPages ≤ 65536

namespace GuestMemory

def getMemoryNumPages (memory : GuestMemory) : UInt64 := UInt64.ofNat memory.numPages

def numBytes (memory : GuestMemory) : ℕ := memory.numPages * 65536

end GuestMemory

/-- Memory is grown by the given number of pages, or left as it is. -/
structure Runtime where
  growMemory : UInt64 → GuestMemory → Option GuestMemory
  adds : ∀ numNewPages memory grown, growMemory numNewPages memory = some grown →
    grown.numPages = memory.numPages + numNewPages.toNat

def coerce32bitAddress (address : UInt64) : Except RuntimeException UInt32 :=
  if 4294967295 ≤ address then .error .accessViolation else .ok address.toUInt32

def bytesOfPages (currentPages : Int32) : Except RuntimeException Int32 := do
  let address ← coerce32bitAddress (addressOfInt (currentPages <<< 16))
  return address.toInt32

def numDesiredPages (currentNumBytes numBytes : Int32) : UInt64 :=
  let numBytes := (numBytes + 7) &&& ~~~7
  let currentNumBytes := currentNumBytes + numBytes
  addressOfInt ((currentNumBytes + 65536 - 1) >>> 16)

def numNewPages (currentPages currentNumBytes numBytes : Int32) : Option UInt64 :=
  let numDesiredPages := numDesiredPages currentNumBytes numBytes
  if numDesiredPages > addressOfInt currentPages then
    some (numDesiredPages - addressOfInt currentPages)
  else none

def currentPages (memory : GuestMemory) : Int32 := intOfAddress memory.getMemoryNumPages

/-- What `growMemory` returns is not looked at. -/
def growBy (runtime : Runtime) (memory : GuestMemory) : Option UInt64 → GuestMemory
  | some numNewPages => (runtime.growMemory numNewPages memory).getD memory
  | none => memory

def allocateMemory (runtime : Runtime) (numBytes : Int32) (memory : GuestMemory) :
    Except RuntimeException (UInt32 × GuestMemory) := do
  let currentNumBytes ← bytesOfPages (currentPages memory)
  return (currentNumBytes.toUInt32,
    growBy runtime memory (numNewPages (currentPages memory) currentNumBytes numBytes))

theorem coerce32bitAddress_of_lt {address : UInt64} (h : address.toNat < 4294967295) :
    ∃ coerced, coerce32bitAddress address = .ok coerced ∧ coerced.toNat = address.toNat := by
  have hlt : ¬ 4294967295 ≤ address := by
    rw [UInt64.le_iff_toNat_le]
    exact Nat.not_le_of_lt h
  refine ⟨address.toUInt32, by rw [coerce32bitAddress, if_neg hlt], ?_⟩
  rw [UInt64.toNat_toUInt32]
  omega

theorem coerce32bitAddress_of_le {address : UInt64} (h : 4294967295 ≤ address.toNat) :
    coerce32bitAddress address = .error .accessViolation := by
  have hle : 4294967295 ≤ address := by
    rw [UInt64.le_iff_toNat_le]
    exact h
  rw [coerce32bitAddress, if_pos hle]

section Pages

variable {currentPages : Int32} {pages : ℕ}

theorem bytesOfPages_of_shift {bytes : ℕ} (hshift : (currentPages <<< 16).toInt = bytes)
    (h : bytes < 2147483648) :
    ∃ counted, bytesOfPages currentPages = .ok counted ∧ counted.toInt = bytes := by
  have haddress := toNat_addressOfInt (currentPages <<< 16)
  have hlt : (addressOfInt (currentPages <<< 16)).toNat < 4294967295 := by omega
  obtain ⟨coerced, hcoerce, hcoerced⟩ := coerce32bitAddress_of_lt hlt
  refine ⟨coerced.toInt32, ?_, ?_⟩
  · rw [bytesOfPages, bind_ok hcoerce]
    rfl
  · rw [toInt_toInt32 (by omega)]
    omega

/-- Fewer than 2 GiB are counted. -/
theorem bytesOfPages_of_lt (hpages : currentPages.toInt = pages) (h : pages < 32768) :
    ∃ counted, bytesOfPages currentPages = .ok counted ∧
      counted.toInt = (pages * 65536 : ℕ) := by
  have hshift := toInt_shiftLeft_sixteen currentPages
  rw [hpages, bmod_32] at hshift
  exact bytesOfPages_of_shift (by omega) (by omega)

/-- From 2 GiB on the count is negative, an address that is refused. -/
theorem bytesOfPages_of_between (hpages : currentPages.toInt = pages) (hlow : 32768 ≤ pages)
    (hhigh : pages < 65536) : bytesOfPages currentPages = .error .accessViolation := by
  have hshift := toInt_shiftLeft_sixteen currentPages
  rw [hpages, bmod_32] at hshift
  have haddress := toNat_addressOfInt (currentPages <<< 16)
  rw [bytesOfPages, coerce32bitAddress_of_le (by omega)]
  rfl

/-- All of 4 GiB are counted as none. -/
theorem bytesOfPages_full (hpages : currentPages.toInt = 65536) :
    ∃ counted, bytesOfPages currentPages = .ok counted ∧ counted.toInt = (0 : ℕ) := by
  have hshift := toInt_shiftLeft_sixteen currentPages
  rw [hpages, bmod_32] at hshift
  exact bytesOfPages_of_shift (by omega) (by omega)

end Pages

section Desired

variable {currentNumBytes numBytes : Int32} {bytes size : ℕ}

/-- A size is rounded up to a multiple of eight, unless that is 2 GiB. -/
theorem toInt_roundUp (hsize : numBytes.toInt = size) :
    ((numBytes + 7) &&& ~~~7).toInt =
      if size + 7 < 2147483648 then ((size + 7) / 8 * 8 : ℤ) else -2147483648 := by
  have hbound := toInt_bounds numBytes
  have hseven := Int32.toInt_add numBytes 7
  rw [hsize, bmod_32, show (7 : Int32).toInt = 7 from rfl] at hseven
  rw [hsize] at hbound
  rw [toInt_and_not_seven]
  generalize (numBytes + 7).toInt = sum at hseven ⊢
  omega

/-- The sum that is shifted wraps once. -/
theorem toInt_sum (currentNumBytes rounded : Int32) :
    (currentNumBytes + rounded + 65536 - 1).toInt =
      (currentNumBytes.toInt + rounded.toInt + 65535).bmod (2 ^ 32) := by
  rw [Int32.toInt_sub, Int32.toInt_add, Int32.toInt_add,
    show (65536 : Int32).toInt = 65536 from rfl, show (1 : Int32).toInt = 1 from rfl,
    Int.bmod_add_bmod, Int.bmod_sub_bmod]
  congr 1
  omega

/-- The desired pages are those of the wrapped sum, negative ones at the upper end. -/
theorem toNat_numDesiredPages (currentNumBytes numBytes : Int32) :
    ((numDesiredPages currentNumBytes numBytes).toNat : ℤ) =
      (currentNumBytes.toInt + ((numBytes + 7) &&& ~~~7).toInt + 65535).bmod (2 ^ 32) / 65536 %
        2 ^ 64 := by
  rw [← toInt_sum, ← toInt_shiftRight_sixteen, ← toNat_addressOfInt]
  rfl

/-- The pages that hold the bytes, with the size rounded up to a multiple of eight. -/
theorem numDesiredPages_of_lt (hbytes : currentNumBytes.toInt = bytes)
    (hsize : numBytes.toInt = size) (h : bytes + (size + 7) / 8 * 8 + 65535 < 2147483648) :
    (numDesiredPages currentNumBytes numBytes).toNat =
      (bytes + (size + 7) / 8 * 8 + 65535) / 65536 := by
  have hdesired := toNat_numDesiredPages currentNumBytes numBytes
  have hsmall : size + 7 < 2147483648 := by omega
  rw [hbytes, toInt_roundUp hsize, if_pos hsmall, bmod_32] at hdesired
  generalize (numDesiredPages currentNumBytes numBytes).toNat = desired at hdesired ⊢
  omega

/-- Behind 2 GiB the number is negative, and no memory has so many pages. -/
theorem le_numDesiredPages (hbytes : currentNumBytes.toInt = bytes)
    (hsize : numBytes.toInt = size) (hlimit : bytes ≤ 2147418112)
    (h : 2147483648 ≤ bytes + (size + 7) / 8 * 8 + 65535) :
    18446744073709486080 ≤ (numDesiredPages currentNumBytes numBytes).toNat := by
  have hdesired := toNat_numDesiredPages currentNumBytes numBytes
  have hbound := toInt_bounds numBytes
  rw [hsize] at hbound
  rw [hbytes, toInt_roundUp hsize, bmod_32] at hdesired
  generalize (numDesiredPages currentNumBytes numBytes).toNat = desired at hdesired ⊢
  omega

end Desired

theorem toInt_currentPages (memory : GuestMemory) :
    (currentPages memory).toInt = memory.numPages :=
  toInt_intOfAddress (Nat.lt_of_le_of_lt memory.le_maxMemoryPages (by decide))

/-- Memory is to grow by what is desired beyond what there is. -/
theorem numNewPages_cases {currentPages : Int32} {pages : ℕ} (hpages : currentPages.toInt = pages)
    (currentNumBytes numBytes : Int32) :
    ((numDesiredPages currentNumBytes numBytes).toNat ≤ pages ∧
      numNewPages currentPages currentNumBytes numBytes = none) ∨
    (∃ more, numNewPages currentPages currentNumBytes numBytes = some more ∧
      (numDesiredPages currentNumBytes numBytes).toNat = pages + more.toNat) := by
  have hbound := toInt_bounds currentPages
  have haddress := toNat_addressOfInt currentPages
  rw [hpages] at haddress hbound
  have hcurrent : (addressOfInt currentPages).toNat = pages := by omega
  rw [numNewPages]
  by_cases hmore : addressOfInt currentPages < numDesiredPages currentNumBytes numBytes
  · have hlt := UInt64.lt_iff_toNat_lt.mp hmore
    have hle := UInt64.le_iff_toNat_le.mpr (Nat.le_of_lt hlt)
    rw [hcurrent] at hlt
    refine Or.inr ⟨_, if_pos hmore, ?_⟩
    rw [UInt64.toNat_sub_of_le _ _ hle, hcurrent]
    omega
  · refine Or.inl ⟨?_, if_neg hmore⟩
    rw [UInt64.lt_iff_toNat_lt, hcurrent] at hmore
    exact Nat.le_of_not_lt hmore

def Grows (runtime : Runtime) (numBytes : Int32) (memory : GuestMemory) : Prop :=
  ∀ currentNumBytes more, bytesOfPages (currentPages memory) = .ok currentNumBytes →
    numNewPages (currentPages memory) currentNumBytes numBytes = some more →
      ∃ grown, runtime.growMemory more memory = some grown

/-- A call that is not refused leaves the memory with the pages it desires. -/
theorem allocateMemory_of_counted {runtime : Runtime} {numBytes : Int32} {memory : GuestMemory}
    (hgrows : Grows runtime numBytes memory) {currentNumBytes : Int32}
    (h : bytesOfPages (currentPages memory) = .ok currentNumBytes) :
    ∃ grown, allocateMemory runtime numBytes memory = .ok (currentNumBytes.toUInt32, grown) ∧
      grown.numPages =
        max memory.numPages (numDesiredPages currentNumBytes numBytes).toNat := by
  have hallocate : allocateMemory runtime numBytes memory = .ok (currentNumBytes.toUInt32,
      growBy runtime memory (numNewPages (currentPages memory) currentNumBytes numBytes)) :=
    bind_ok h
  refine ⟨_, hallocate, ?_⟩
  rcases numNewPages_cases (toInt_currentPages memory) currentNumBytes numBytes with
    ⟨hle, hnone⟩ | ⟨more, hsome, hdesired⟩
  · rw [hnone, growBy, Nat.max_eq_left hle]
  · obtain ⟨grown, hgrown⟩ := hgrows currentNumBytes more h hsome
    rw [hsome, growBy, hgrown, Option.getD_some, runtime.adds more memory grown hgrown, hdesired,
      Nat.max_eq_right (Nat.le_add_right _ _)]

/-- The pages of bytes below 2 GiB hold them, and are themselves below 2 GiB. -/
theorem numDesiredPages_bounds {memory grown : GuestMemory}
    {currentNumBytes numBytes : Int32} {bytes : ℕ} (hsize : 0 ≤ numBytes.toInt)
    (hbytes : currentNumBytes.toInt = bytes) (hlimit : bytes ≤ 2147418112)
    (hgrown : grown.numPages =
      max memory.numPages (numDesiredPages currentNumBytes numBytes).toNat) :
    (numDesiredPages currentNumBytes numBytes).toNat < 32768 ∧
      bytes + numBytes.toInt.toNat ≤
        (numDesiredPages currentNumBytes numBytes).toNat * 65536 := by
  have hmax := grown.le_maxMemoryPages
  have hnat : numBytes.toInt = (numBytes.toInt.toNat : ℕ) := (Int.toNat_of_nonneg hsize).symm
  have hle : (numDesiredPages currentNumBytes numBytes).toNat ≤ 65536 :=
    Nat.le_trans (hgrown ▸ Nat.le_max_right _ _) hmax
  by_cases hlow : bytes + (numBytes.toInt.toNat + 7) / 8 * 8 + 65535 < 2147483648
  · have hdesired := numDesiredPages_of_lt hbytes hnat hlow
    rw [hdesired]
    generalize numBytes.toInt.toNat = size at hlow ⊢
    omega
  · have hhuge := le_numDesiredPages hbytes hnat hlimit (Nat.le_of_not_lt hlow)
    omega

section Allocation

variable {runtime : Runtime} {numBytes : Int32} {memory : GuestMemory}

/-- Below 2 GiB the range begins behind the memory there was, which holds it then. -/
theorem allocateMemory_of_lt (hsize : 0 ≤ numBytes.toInt) (hgrows : Grows runtime numBytes memory)
    (h : memory.numPages < 32768) :
    ∃ base grown, allocateMemory runtime numBytes memory = .ok (base, grown) ∧
      base.toNat = memory.numBytes ∧ base.toNat + numBytes.toInt.toNat ≤ grown.numBytes ∧
      memory.numPages ≤ grown.numPages ∧ grown.numPages < 32768 := by
  obtain ⟨counted, hcounted, hbytes⟩ := bytesOfPages_of_lt (toInt_currentPages memory) h
  obtain ⟨grown, hallocate, hgrown⟩ := allocateMemory_of_counted hgrows hcounted
  have hbase := toNat_toUInt32 (a := counted) (by omega)
  have hnumBytes : counted.toUInt32.toNat = memory.numBytes := by
    rw [hbytes] at hbase
    exact Int.ofNat_inj.mp hbase
  obtain ⟨hlow, hholds⟩ := numDesiredPages_bounds hsize hbytes (by omega) hgrown
  have hmax := Nat.le_max_right memory.numPages (numDesiredPages counted numBytes).toNat
  refine ⟨counted.toUInt32, grown, hallocate, hnumBytes, ?_, ?_, ?_⟩
  · rw [hnumBytes, GuestMemory.numBytes, GuestMemory.numBytes, hgrown]
    exact Nat.le_trans hholds (Nat.mul_le_mul_right 65536 hmax)
  · rw [hgrown]
    exact Nat.le_max_left _ _
  · rw [hgrown]
    exact Nat.max_lt.mpr ⟨h, hlow⟩

/-- From there up to 4 GiB every call is refused. -/
theorem allocateMemory_of_between (hlow : 32768 ≤ memory.numPages)
    (hhigh : memory.numPages < 65536) :
    allocateMemory runtime numBytes memory = .error .accessViolation := by
  rw [allocateMemory, bytesOfPages_of_between (toInt_currentPages memory) hlow hhigh]
  rfl

/-- In a memory of 4 GiB the range begins at its start. -/
theorem allocateMemory_full (hsize : 0 ≤ numBytes.toInt) (hgrows : Grows runtime numBytes memory)
    (h : memory.numPages = 65536) :
    ∃ base grown, allocateMemory runtime numBytes memory = .ok (base, grown) ∧
      base.toNat = 0 ∧ grown.numPages = 65536 := by
  have hpages : (currentPages memory).toInt = 65536 := by rw [toInt_currentPages, h]; rfl
  obtain ⟨counted, hcounted, hbytes⟩ := bytesOfPages_full hpages
  obtain ⟨grown, hallocate, hgrown⟩ := allocateMemory_of_counted hgrows hcounted
  have hbase := toNat_toUInt32 (a := counted) (by omega)
  obtain ⟨hlow, _⟩ := numDesiredPages_bounds hsize hbytes (by omega) hgrown
  refine ⟨counted.toUInt32, grown, hallocate, by omega, ?_⟩
  rw [hgrown, h]
  exact Nat.max_eq_left (by omega)

end Allocation

structure Range where
  base : ℕ
  size : ℕ
  deriving DecidableEq, Repr

namespace Range

def Has (range : Range) (address : ℕ) : Prop :=
  range.base ≤ address ∧ address < range.base + range.size

def Disjoint (range other : Range) : Prop := ∀ address, range.Has address → ¬ other.Has address

def Inside (range : Range) (memory : GuestMemory) : Prop :=
  range.base + range.size ≤ memory.numBytes

theorem disjoint_of_le {range other : Range} (h : other.base + other.size ≤ range.base) :
    range.Disjoint other := by
  intro address hhas hother
  exact Nat.not_lt_of_le (Nat.le_trans h hhas.1) hother.2

theorem disjoint_of_size_eq_zero {range : Range} (h : range.size = 0) (other : Range) :
    range.Disjoint other := by
  intro address hhas
  rw [Has, h, Nat.add_zero] at hhas
  exact absurd hhas.2 (Nat.not_lt_of_le hhas.1)

end Range

/-- The memory of a guest, what of it there was before the first call, and the ranges
that were returned, latest first. -/
structure Guest where
  memory : GuestMemory
  existing : Range
  returned : List Range

def Guest.start (memory : GuestMemory) : Guest := ⟨memory, ⟨0, memory.numBytes⟩, []⟩

/-- A range that is returned is the guest's; a call that is refused leaves all as it was. -/
def Guest.answered (guest : Guest) (numBytes : Int32) :
    Except RuntimeException (UInt32 × GuestMemory) → Guest
  | .ok (base, memory) =>
    { guest with
      memory := memory
      returned := ⟨base.toNat, numBytes.toInt.toNat⟩ :: guest.returned }
  | .error _ => guest

def step (runtime : Runtime) (numBytes : Int32) (guest : Guest) : Guest :=
  guest.answered numBytes (allocateMemory runtime numBytes guest.memory)

def Legal (runtime : Runtime) (numBytes : Int32) (guest : Guest) : Prop :=
  0 ≤ numBytes.toInt ∧ Grows runtime numBytes guest.memory

/-- A range that is returned lies inside the memory after the call, apart from all that
was returned before and from what there was at first. -/
def Separate (runtime : Runtime) (numBytes : Int32) (guest : Guest) : Prop :=
  ∀ base memory, allocateMemory runtime numBytes guest.memory = .ok (base, memory) →
    Range.Inside ⟨base.toNat, numBytes.toInt.toNat⟩ memory ∧
      Range.Disjoint ⟨base.toNat, numBytes.toInt.toNat⟩ guest.existing ∧
      ∀ other ∈ guest.returned, Range.Disjoint ⟨base.toNat, numBytes.toInt.toNat⟩ other

def Spacious (numBytes : Int32) (guest : Guest) : Prop :=
  guest.memory.numPages < 65536 ∨ numBytes = 0

structure Bounded (guest : Guest) : Prop where
  existing : guest.existing.Inside guest.memory
  returned : ∀ range ∈ guest.returned, range.Inside guest.memory
  full : guest.memory.numPages = 65536 → guest.existing = ⟨0, 4294967296⟩

theorem bounded_start (memory : GuestMemory) : Bounded (.start memory) := by
  refine ⟨?_, fun _ h => absurd h List.not_mem_nil, ?_⟩
  · rw [Range.Inside, Guest.start, Nat.zero_add]
  · intro hfull
    have hpages : memory.numPages = 65536 := hfull
    have hbytes : memory.numBytes = 4294967296 := by
      simp only [GuestMemory.numBytes, hpages]
    simp only [Guest.start, hbytes]

section Steps

variable {runtime : Runtime} {numBytes : Int32} {guest : Guest}

theorem step_of_ok {base : UInt32} {memory : GuestMemory}
    (h : allocateMemory runtime numBytes guest.memory = .ok (base, memory)) :
    step runtime numBytes guest = { guest with
      memory := memory
      returned := ⟨base.toNat, numBytes.toInt.toNat⟩ :: guest.returned } := by
  rw [step, h, Guest.answered]

theorem step_of_error {exception : RuntimeException}
    (h : allocateMemory runtime numBytes guest.memory = .error exception) :
    step runtime numBytes guest = guest := by
  rw [step, h, Guest.answered]

theorem inside_of_le {range : Range} {memory grown : GuestMemory}
    (h : memory.numPages ≤ grown.numPages) (hinside : range.Inside memory) :
    range.Inside grown :=
  Nat.le_trans hinside (Nat.mul_le_mul_right 65536 h)

theorem bounded_step (h : Bounded guest) (hlegal : Legal runtime numBytes guest) :
    Bounded (step runtime numBytes guest) := by
  obtain ⟨hsize, hgrows⟩ := hlegal
  rcases Nat.lt_or_ge guest.memory.numPages 32768 with hlow | hlow
  · obtain ⟨base, grown, hallocate, _, hinside, hmore, hbelow⟩ :=
      allocateMemory_of_lt hsize hgrows hlow
    rw [step_of_ok hallocate]
    refine ⟨inside_of_le hmore h.existing, List.forall_mem_cons.mpr ⟨hinside, ?_⟩, ?_⟩
    · intro range hrange
      exact inside_of_le hmore (h.returned range hrange)
    · intro hfull
      have hpages : grown.numPages = 65536 := hfull
      omega
  rcases Nat.lt_or_ge guest.memory.numPages 65536 with hhigh | hhigh
  · rw [step_of_error (allocateMemory_of_between hlow hhigh)]
    exact h
  · have hfull : guest.memory.numPages = 65536 :=
      Nat.le_antisymm guest.memory.le_maxMemoryPages hhigh
    obtain ⟨base, grown, hallocate, hbase, hpages⟩ := allocateMemory_full hsize hgrows hfull
    have hmore : guest.memory.numPages ≤ grown.numPages := by rw [hfull, hpages]
    rw [step_of_ok hallocate]
    refine ⟨inside_of_le hmore h.existing, List.forall_mem_cons.mpr ⟨?_, ?_⟩,
      fun _ => h.full hfull⟩
    · have hbound := toInt_bounds numBytes
      rw [Range.Inside, GuestMemory.numBytes, hbase]
      change 0 + numBytes.toInt.toNat ≤ grown.numPages * 65536
      omega
    · intro range hrange
      exact inside_of_le hmore (h.returned range hrange)

/-- A call below 2 GiB returns a range of its own. -/
theorem separate_of_lt (h : Bounded guest) (hlegal : Legal runtime numBytes guest)
    (hlow : guest.memory.numPages < 32768) : Separate runtime numBytes guest := by
  intro base memory hallocated
  obtain ⟨base', grown, hallocate, hbase, hinside, _⟩ :=
    allocateMemory_of_lt hlegal.1 hlegal.2 hlow
  obtain ⟨rfl, rfl⟩ := Prod.mk.inj (Except.ok.inj (hallocate.symm.trans hallocated))
  have hbehind : ∀ range : Range, range.Inside guest.memory →
      Range.Disjoint ⟨base'.toNat, numBytes.toInt.toNat⟩ range := by
    intro range hrange
    refine Range.disjoint_of_le ?_
    rw [hbase]
    exact hrange
  refine ⟨hinside, hbehind _ h.existing, ?_⟩
  intro other hother
  exact hbehind other (h.returned other hother)

/-- One in a memory of 4 GiB returns the start of what there was, unless it asks for
nothing. -/
theorem separate_full_iff (h : Bounded guest) (hlegal : Legal runtime numBytes guest)
    (hfull : guest.memory.numPages = 65536) :
    Separate runtime numBytes guest ↔ numBytes = 0 := by
  obtain ⟨base, grown, hallocate, hbase, hpages⟩ :=
    allocateMemory_full hlegal.1 hlegal.2 hfull
  constructor
  · intro hseparate
    obtain ⟨_, hexisting, _⟩ := hseparate base grown hallocate
    have hstart : guest.existing.Has 0 := by
      rw [h.full hfull]
      exact ⟨Nat.le_refl 0, by decide⟩
    have hempty : ¬ 0 < numBytes.toInt.toNat := by
      intro hpos
      refine hexisting 0 ⟨Nat.le_of_eq hbase, ?_⟩ hstart
      rw [hbase, Nat.zero_add]
      exact hpos
    have hsize := hlegal.1
    refine Int32.toInt_inj.mp ?_
    rw [Int32.toInt_zero]
    omega
  · intro hzero other memory hallocated
    obtain ⟨rfl, rfl⟩ := Prod.mk.inj (Except.ok.inj (hallocate.symm.trans hallocated))
    have hempty : numBytes.toInt.toNat = 0 := by rw [hzero]; rfl
    rw [hempty, hbase]
    refine ⟨Nat.zero_le _, Range.disjoint_of_size_eq_zero rfl _, ?_⟩
    intro range _
    exact Range.disjoint_of_size_eq_zero rfl range

/-- A call returns a range of its own, or none, exactly when memory has less than 4 GiB
or it asks for nothing. -/
theorem separate_iff (h : Bounded guest) (hlegal : Legal runtime numBytes guest) :
    Separate runtime numBytes guest ↔ Spacious numBytes guest := by
  rcases Nat.lt_or_ge guest.memory.numPages 32768 with hlow | hlow
  · exact iff_of_true (separate_of_lt h hlegal hlow) (Or.inl (Nat.lt_trans hlow (by decide)))
  rcases Nat.lt_or_ge guest.memory.numPages 65536 with hhigh | hhigh
  · refine iff_of_true ?_ (Or.inl hhigh)
    intro base memory hallocated
    have hrefused : allocateMemory runtime numBytes guest.memory = .error .accessViolation :=
      allocateMemory_of_between hlow hhigh
    exact absurd (hrefused.symm.trans hallocated) (by simp)
  · have hfull : guest.memory.numPages = 65536 :=
      Nat.le_antisymm guest.memory.le_maxMemoryPages hhigh
    rw [separate_full_iff h hlegal hfull, Spacious, hfull]
    exact (or_iff_right (Nat.lt_irrefl 65536)).symm

end Steps

/-- All ranges of a run are apart from each other and from what there was at first, and
inside the memory at its end. -/
structure Apart (guest : Guest) : Prop extends Bounded guest where
  existing_apart : ∀ range ∈ guest.returned, range.Disjoint guest.existing
  pairwise : guest.returned.Pairwise Range.Disjoint

theorem apart_step {runtime : Runtime} {numBytes : Int32} {guest : Guest} (h : Apart guest)
    (hlegal : Legal runtime numBytes guest) (hspacious : Spacious numBytes guest) :
    Apart (step runtime numBytes guest) := by
  refine ⟨bounded_step h.toBounded hlegal, ?_, ?_⟩
  · cases hallocate : allocateMemory runtime numBytes guest.memory with
    | error exception =>
      rw [step_of_error hallocate]
      exact h.existing_apart
    | ok result =>
      obtain ⟨_, hexisting, _⟩ :=
        (separate_iff h.toBounded hlegal).mpr hspacious result.1 result.2 hallocate
      rw [step_of_ok hallocate]
      exact List.forall_mem_cons.mpr ⟨hexisting, h.existing_apart⟩
  · cases hallocate : allocateMemory runtime numBytes guest.memory with
    | error exception =>
      rw [step_of_error hallocate]
      exact h.pairwise
    | ok result =>
      obtain ⟨_, _, hothers⟩ :=
        (separate_iff h.toBounded hlegal).mpr hspacious result.1 result.2 hallocate
      rw [step_of_ok hallocate]
      exact List.pairwise_cons.mpr ⟨hothers, h.pairwise⟩

theorem apart_run {runtime : Runtime} {memory : GuestMemory} {sizes : List Int32}
    (hlegal : Along (step runtime)
      (fun numBytes guest => Legal runtime numBytes guest ∧ Spacious numBytes guest)
      (.start memory) sizes) : Apart (run (step runtime) (.start memory) sizes) := by
  have hstart : Apart (.start memory) :=
    ⟨bounded_start memory, fun _ h => absurd h List.not_mem_nil, List.Pairwise.nil⟩
  exact invariant_run (step runtime)
    (fun numBytes guest h hlegal => apart_step h hlegal.1 hlegal.2) hstart hlegal

/-- Over every sequence of calls the ranges that are returned are separate exactly when
each finds a memory of less than 4 GiB or asks for nothing. -/
theorem separate_exact (runtime : Runtime) (memory : GuestMemory) (sizes : List Int32)
    (hlegal : Along (step runtime) (Legal runtime) (.start memory) sizes) :
    Along (step runtime) (Separate runtime) (.start memory) sizes ↔
      Along (step runtime) Spacious (.start memory) sizes := by
  refine along_iff_of_invariant (step runtime) ?_ ?_ (bounded_start memory) hlegal
  · intro numBytes guest hinv hlegal _
    exact bounded_step hinv hlegal
  · intro numBytes guest hinv hlegal
    exact separate_iff hinv hlegal

def growing : Runtime where
  growMemory numNewPages memory :=
    if h : memory.numPages + numNewPages.toNat ≤ 65536 then
      some ⟨memory.numPages + numNewPages.toNat, h⟩
    else none
  adds := by
    intro numNewPages memory grown hgrown
    by_cases h : memory.numPages + numNewPages.toNat ≤ 65536
    · rw [dif_pos h] at hgrown
      obtain rfl := Option.some.inj hgrown
      rfl
    · rw [dif_neg h] at hgrown
      exact absurd hgrown (by simp)

/-- It grows whenever the bytes stay below 2 GiB. -/
theorem grows_growing {numBytes : Int32} {memory : GuestMemory} (hsize : 0 ≤ numBytes.toInt)
    (h : memory.numBytes + (numBytes.toInt.toNat + 7) / 8 * 8 + 65535 < 2147483648) :
    Grows growing numBytes memory := by
  intro currentNumBytes more hcounted hmore
  have hpages : memory.numPages < 32768 := by
    rw [GuestMemory.numBytes] at h
    omega
  obtain ⟨counted, hcount, hbytes⟩ := bytesOfPages_of_lt (toInt_currentPages memory) hpages
  obtain rfl := Except.ok.inj (hcount.symm.trans hcounted)
  have hnat : numBytes.toInt = (numBytes.toInt.toNat : ℕ) := (Int.toNat_of_nonneg hsize).symm
  have hdesired := numDesiredPages_of_lt hbytes hnat h
  rcases numNewPages_cases (toInt_currentPages memory) counted numBytes with
    ⟨_, hnone⟩ | ⟨other, hsome, hsum⟩
  · exact absurd (hnone.symm.trans hmore) (by simp)
  · obtain rfl := Option.some.inj (hsome.symm.trans hmore)
    have hroom : memory.numPages + other.toNat ≤ 65536 := by
      rw [← hsum, hdesired]
      omega
    exact ⟨_, dif_pos hroom⟩

def onePage : GuestMemory := ⟨1, by decide⟩

theorem separate_exact_onePage :
    Along (step growing) (Separate growing) (.start onePage) [10, 70000] ↔
      Along (step growing) Spacious (.start onePage) [10, 70000] := by
  refine separate_exact growing onePage [10, 70000] ⟨⟨by decide, ?_⟩, ⟨by decide, ?_⟩, trivial⟩
  · exact grows_growing (by decide) (by decide)
  · exact grows_growing (by decide) (by decide +kernel)

def fullMemory : GuestMemory := ⟨65536, Nat.le_refl 65536⟩

/-- Eight bytes are allocated at the start of the memory that there is. -/
theorem full_memory_overlaps :
    (allocateMemory growing 8 fullMemory).map Prod.fst = .ok 0 ∧
      ¬ Along (step growing) (Separate growing) (.start fullMemory) [8] := by
  have hallocated : (allocateMemory growing 8 fullMemory).map Prod.fst = .ok 0 := by
    decide +kernel
  refine ⟨hallocated, ?_⟩
  intro ⟨hseparate, _⟩
  cases hallocate : allocateMemory growing 8 fullMemory with
  | error exception =>
    rw [hallocate] at hallocated
    exact absurd hallocated (by simp [Except.map])
  | ok result =>
    rw [hallocate] at hallocated
    have hbase : result.1 = 0 := Except.ok.inj hallocated
    obtain ⟨_, hexisting, _⟩ := hseparate result.1 result.2 hallocate
    refine hexisting 0 ⟨?_, ?_⟩ ⟨Nat.le_refl 0, by decide⟩
    · rw [hbase]
      decide
    · rw [hbase]
      decide

end Keto.Wavm.Emscripten
