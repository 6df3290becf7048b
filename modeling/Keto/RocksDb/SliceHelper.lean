import Keto.Asn1.HashHelper

/-!
The helper that holds the bytes of a database slice, and how it and the helper
of hashes hold what they are given over a whole history.
-/
namespace Keto.RocksDb.SliceHelper

open Protocol Asn1 Library.Runs Library.Replacing

def ofString (sliceBytes : Bytes) : Bytes := pushBack sliceBytes []

def ofVector (sliceBytes : Bytes) : Bytes := sliceBytes

def pushSlice (slice sliceBytes : Bytes) : Bytes :=
  if slice.isEmpty then sliceBytes else pushBack slice sliceBytes

def ofSlice (slice : Bytes) : Bytes := pushSlice slice []

/-- `operator = (const std::string&)`, which does not clear what the helper holds. -/
def assignString (sliceBytes helper : Bytes) : Bytes := pushBack sliceBytes helper

def assignVector (sliceBytes _helper : Bytes) : Bytes := sliceBytes

/-- `operator = (const rocksdb::Slice&)`, which does not clear it either. -/
def assignSlice (slice helper : Bytes) : Bytes := pushSlice slice helper

def toSlice (helper : Bytes) : Bytes := helper.take helper.length

def toVector (helper : Bytes) : Bytes := helper

def toString (helper : Bytes) : Bytes := pushBack helper []

inductive Assignment
  | string (sliceBytes : Bytes)
  | vector (sliceBytes : Bytes)
  | slice (slice : Bytes)
  deriving DecidableEq, Repr

def Assignment.given : Assignment → Option Bytes
  | .string bytes | .vector bytes | .slice bytes => some bytes

def assign : Assignment → Bytes → Bytes
  | .string sliceBytes, helper => assignString sliceBytes helper
  | .vector sliceBytes, helper => assignVector sliceBytes helper
  | .slice slice, helper => assignSlice slice helper

def AppendOnlyWhenEmpty (assignment : Assignment) (helper : Bytes) : Prop :=
  (∀ bytes, assignment ≠ .vector bytes) → helper = []

theorem pushSlice_eq (slice sliceBytes : Bytes) :
    pushSlice slice sliceBytes = pushBack slice sliceBytes := by
  rw [pushSlice]
  cases slice with
  | nil => rfl
  | cons entry slice => rfl

theorem assign_eq_replace_iff (assignment : Assignment) (helper : Bytes) :
    assign assignment helper = replace Assignment.given assignment helper ↔
      AppendOnlyWhenEmpty assignment helper := by
  cases assignment with
  | string bytes =>
    rw [assign, assignString, replace, Assignment.given, Option.getD_some, pushBack_eq_self_iff]
    exact ⟨fun h _ => h, fun h => h (by simp)⟩
  | vector bytes => exact iff_of_true rfl fun h => absurd rfl (h bytes)
  | slice bytes =>
    rw [assign, assignSlice, pushSlice_eq, replace, Assignment.given, Option.getD_some,
      pushBack_eq_self_iff]
    exact ⟨fun h _ => h, fun h => h (by simp)⟩

structure RoundTrips (bytes : Bytes) : Prop where
  slice : toSlice bytes = bytes ∧ ofSlice (toSlice bytes) = bytes
  vector : toVector bytes = bytes ∧ ofVector (toVector bytes) = bytes
  string : toString bytes = bytes ∧ ofString (toString bytes) = bytes

theorem roundTrips (bytes : Bytes) : RoundTrips bytes where
  slice := by
    rw [toSlice, List.take_length, ofSlice, pushSlice_eq, pushBack_nil]
    exact ⟨rfl, rfl⟩
  vector := ⟨rfl, rfl⟩
  string := by
    rw [toString, pushBack_nil, ofString, pushBack_nil]
    exact ⟨rfl, rfl⟩

/-- Over every history the helpers hold what was assigned last as long as no string,
and to the helper of slices no slice, is assigned to one that holds something. What
is converted out of them is read back unchanged. -/
theorem holdsLast_exact (codec : StringCodec) (hlawful : codec.Lawful) :
    (∀ start assignments,
      HoldsLast (HashHelper.Assignment.given codec) (HashHelper.assign codec) start assignments ↔
        Along (HashHelper.assign codec) HashHelper.StringOnlyWhenEmpty start assignments) ∧
    (∀ start assignments,
      HoldsLast Assignment.given assign start assignments ↔
        Along assign AppendOnlyWhenEmpty start assignments) ∧
    (∀ hash, HashHelper.RoundTrips codec hash) ∧ ∀ bytes, RoundTrips bytes := by
  refine ⟨?_, ?_, HashHelper.roundTrips hlawful, roundTrips⟩
  · intro start assignments
    exact holdsLast_iff_along (HashHelper.assign_eq_replace_iff codec) start assignments
  · intro start assignments
    exact holdsLast_iff_along assign_eq_replace_iff start assignments

theorem holdsLast_exact_botan :
    (∀ start assignments,
      HoldsLast (HashHelper.Assignment.given .botan) (HashHelper.assign .botan) start assignments ↔
        Along (HashHelper.assign .botan) HashHelper.StringOnlyWhenEmpty start assignments) ∧
    (∀ start assignments,
      HoldsLast Assignment.given assign start assignments ↔
        Along assign AppendOnlyWhenEmpty start assignments) ∧
    (∀ hash, HashHelper.RoundTrips .botan hash) ∧ ∀ bytes, RoundTrips bytes :=
  holdsLast_exact .botan StringCodec.botan_lawful

/-- A helper that holds `a` and is assigned `b` holds `ab` afterwards. -/
theorem second_string_appended :
    run (HashHelper.assign .botan) [] [.string [0x61], .string [0x62]] = [0x61, 0x62] ∧
      ¬ HoldsLast (HashHelper.Assignment.given .botan) (HashHelper.assign .botan) []
        [.string [0x61], .string [0x62]] ∧
      run assign [] [.slice [0x61], .slice [0x62]] = [0x61, 0x62] ∧
      ¬ HoldsLast Assignment.given assign [] [.slice [0x61], .slice [0x62]] := by
  refine ⟨rfl, ?_, rfl, ?_⟩
  · intro hholds
    exact absurd (hholds _ (List.prefix_refl _)) (by decide)
  · intro hholds
    exact absurd (hholds _ (List.prefix_refl _)) (by decide)

end Keto.RocksDb.SliceHelper
