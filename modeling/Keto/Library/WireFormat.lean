import Mathlib.Data.List.Basic
import Mathlib.Data.Nat.Notation

/-!
The wire format of protobuf messages: numbers in groups of seven bits, lowest
group first, and fields that hold such a number or counted bytes. A message is
a list of fields; what its fields mean is left to the message.
-/
namespace Keto.Library.WireFormat

abbrev Bytes := List UInt8

inductive Value
  | varint (n : ℕ)
  | bytes (content : Bytes)
  deriving DecidableEq, Repr

abbrev Field := ℕ × Value

/-- All groups but the last have the high bit set. -/
def encodeVarint (n : ℕ) : Bytes :=
  if n < 128 then [n.toUInt8] else (n % 128 + 128).toUInt8 :: encodeVarint (n / 128)
  termination_by n
  decreasing_by omega

def decodeVarint : Bytes → Option (ℕ × Bytes)
  | [] => none
  | b :: rest =>
    if b.toNat < 128 then some (b.toNat, rest)
    else (decodeVarint rest).map fun decoded => (decoded.1 * 128 + (b.toNat - 128), decoded.2)

theorem toNat_toUInt8 {n : ℕ} (h : n < 256) : n.toUInt8.toNat = n := by
  rw [UInt8.toNat_ofNat', Nat.mod_eq_of_lt h]

theorem decodeVarint_encodeVarint (n : ℕ) (rest : Bytes) :
    decodeVarint (encodeVarint n ++ rest) = some (n, rest) := by
  induction n using Nat.strongRecOn with
  | ind n ih =>
    rw [encodeVarint]
    by_cases hsmall : n < 128
    · have hbyte : n.toUInt8.toNat = n := toNat_toUInt8 (by omega)
      simp [hsmall, decodeVarint, hbyte]
    · have hbyte : (n % 128 + 128).toUInt8.toNat = n % 128 + 128 := toNat_toUInt8 (by omega)
      have hrest := ih (n / 128) (by omega)
      have hnumber : n / 128 * 128 + (n % 128 + 128 - 128) = n := by omega
      rw [if_neg hsmall, List.cons_append, decodeVarint, hbyte, if_neg (by omega), hrest,
        Option.map_some, hnumber]

theorem encodeVarint_ne_nil (n : ℕ) : encodeVarint n ≠ [] := by
  rw [encodeVarint]
  split <;> simp

/-- The number of the field and its type, 0 for a number and 2 for counted bytes. -/
def encodeField : Field → Bytes
  | (number, .varint n) => encodeVarint (number * 8) ++ encodeVarint n
  | (number, .bytes content) =>
    encodeVarint (number * 8 + 2) ++ (encodeVarint content.length ++ content)

def encodeFields (fields : List Field) : Bytes := fields.flatMap encodeField

def decodeField (bytes : Bytes) : Option (Field × Bytes) := do
  let (tag, rest) ← decodeVarint bytes
  if tag % 8 = 0 then
    let (n, rest) ← decodeVarint rest
    return ((tag / 8, .varint n), rest)
  else if tag % 8 = 2 then
    let (length, rest) ← decodeVarint rest
    if length ≤ rest.length then
      return ((tag / 8, .bytes (rest.take length)), rest.drop length)
    else none
  else none

/-- Every field takes a byte, so that the number of bytes bounds that of the fields. -/
def decodeFieldsFrom : ℕ → Bytes → Option (List Field)
  | _, [] => some []
  | 0, _ :: _ => none
  | fuel + 1, bytes => do
    let (field, rest) ← decodeField bytes
    let fields ← decodeFieldsFrom fuel rest
    return field :: fields

def decodeFields (bytes : Bytes) : Option (List Field) := decodeFieldsFrom bytes.length bytes

theorem decodeField_encodeField (field : Field) (rest : Bytes) :
    decodeField (encodeField field ++ rest) = some (field, rest) := by
  obtain ⟨number, value⟩ := field
  cases value with
  | varint n =>
    simp [encodeField, decodeField, decodeVarint_encodeVarint]
  | bytes content =>
    have htype : (number * 8 + 2) % 8 = 2 := by omega
    have hnumber : (number * 8 + 2) / 8 = number := by omega
    simp [encodeField, decodeField, decodeVarint_encodeVarint, htype, hnumber]

theorem encodeField_ne_nil (field : Field) : encodeField field ≠ [] := by
  obtain ⟨number, value⟩ := field
  cases value <;> simp [encodeField, encodeVarint_ne_nil]

theorem decodeFieldsFrom_encodeFields (fields : List Field) {fuel : ℕ}
    (h : fields.length ≤ fuel) : decodeFieldsFrom fuel (encodeFields fields) = some fields := by
  induction fields generalizing fuel with
  | nil => cases fuel <;> rfl
  | cons field fields ih =>
    obtain ⟨fuel, rfl⟩ : ∃ n, fuel = n + 1 := Nat.exists_eq_succ_of_ne_zero (by
      rintro rfl
      simp at h)
    have hrest := @ih fuel (by simpa using h)
    have hdecode := decodeField_encodeField field (encodeFields fields)
    have hbytes : encodeFields (field :: fields) = encodeField field ++ encodeFields fields :=
      List.flatMap_cons
    rw [hbytes]
    cases hencoded : encodeField field ++ encodeFields fields with
    | nil => exact absurd (List.append_eq_nil_iff.mp hencoded).1 (encodeField_ne_nil field)
    | cons b bytes =>
      rw [hencoded] at hdecode
      simp [decodeFieldsFrom, hdecode, hrest]

theorem length_le_encodeFields (fields : List Field) :
    fields.length ≤ (encodeFields fields).length := by
  induction fields with
  | nil => simp
  | cons field fields ih =>
    have hpos := List.length_pos_iff.mpr (encodeField_ne_nil field)
    have hbytes : encodeFields (field :: fields) = encodeField field ++ encodeFields fields :=
      List.flatMap_cons
    rw [hbytes, List.length_cons, List.length_append]
    omega

/-- Decoding inverts encoding. -/
theorem decodeFields_encodeFields (fields : List Field) :
    decodeFields (encodeFields fields) = some fields :=
  decodeFieldsFrom_encodeFields fields (length_le_encodeFields fields)

/-- A field that is left out where it has the default value. -/
def varintField (number n : ℕ) : List Field := if n = 0 then [] else [(number, .varint n)]

def bytesField (number : ℕ) (content : Bytes) : List Field :=
  if content = [] then [] else [(number, .bytes content)]

def messageFields (number : ℕ) (contents : List Bytes) : List Field :=
  contents.map fun content => (number, .bytes content)

def varintsOf (number : ℕ) (fields : List Field) : List ℕ :=
  fields.filterMap fun field =>
    match field.2 with
    | .varint n => if field.1 = number then some n else none
    | .bytes _ => none

def contentsOf (number : ℕ) (fields : List Field) : List Bytes :=
  fields.filterMap fun field =>
    match field.2 with
    | .varint _ => none
    | .bytes content => if field.1 = number then some content else none

/-- Of a field that is there more than once the last counts, and without one the default. -/
def varintOf (number : ℕ) (fields : List Field) : ℕ := ((varintsOf number fields).getLast?).getD 0

def bytesOf (number : ℕ) (fields : List Field) : Bytes :=
  ((contentsOf number fields).getLast?).getD []

section Fields

variable (number : ℕ)

@[simp] theorem varintsOf_append (fields more : List Field) :
    varintsOf number (fields ++ more) = varintsOf number fields ++ varintsOf number more :=
  List.filterMap_append

@[simp] theorem contentsOf_append (fields more : List Field) :
    contentsOf number (fields ++ more) = contentsOf number fields ++ contentsOf number more :=
  List.filterMap_append

@[simp] theorem contentsOf_varintField (other n : ℕ) :
    contentsOf number (varintField other n) = [] := by
  by_cases h : n = 0 <;> simp [varintField, contentsOf, h]

@[simp] theorem varintsOf_bytesField (other : ℕ) (content : Bytes) :
    varintsOf number (bytesField other content) = [] := by
  by_cases h : content = [] <;> simp [bytesField, varintsOf, h]

@[simp] theorem varintsOf_messageFields (other : ℕ) (contents : List Bytes) :
    varintsOf number (messageFields other contents) = [] := by
  simp [messageFields, varintsOf]

@[simp] theorem varintsOf_varintField_self (n : ℕ) :
    ((varintsOf number (varintField number n)).getLast?).getD 0 = n := by
  by_cases h : n = 0 <;> simp [varintField, varintsOf, h]

@[simp] theorem contentsOf_bytesField_self (content : Bytes) :
    ((contentsOf number (bytesField number content)).getLast?).getD [] = content := by
  by_cases h : content = [] <;> simp [bytesField, contentsOf, h]

@[simp] theorem contentsOf_messageFields_self (contents : List Bytes) :
    contentsOf number (messageFields number contents) = contents := by
  simp [messageFields, contentsOf, List.filterMap_map]

variable {number} {other : ℕ}

theorem varintsOf_varintField (h : other ≠ number) (n : ℕ) :
    varintsOf number (varintField other n) = [] := by
  by_cases hn : n = 0 <;> simp [varintField, varintsOf, hn, h]

theorem contentsOf_bytesField (h : other ≠ number) (content : Bytes) :
    contentsOf number (bytesField other content) = [] := by
  by_cases hc : content = [] <;> simp [bytesField, contentsOf, hc, h]

theorem contentsOf_messageFields (h : other ≠ number) (contents : List Bytes) :
    contentsOf number (messageFields other contents) = [] := by
  simp [messageFields, contentsOf, h]

end Fields

/-- The bytes of a counted content are among those of the fields. -/
theorem length_content_lt {fields : List Field} {number : ℕ} {content : Bytes}
    (h : (number, Value.bytes content) ∈ fields) :
    content.length < (encodeFields fields).length := by
  obtain ⟨before, behind, rfl⟩ := List.append_of_mem h
  have hcount := List.length_pos_iff.mpr (encodeVarint_ne_nil (number * 8 + 2))
  simp only [encodeFields, List.flatMap_append, List.flatMap_cons, List.length_append,
    encodeField]
  omega

end Keto.Library.WireFormat
