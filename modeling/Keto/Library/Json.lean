import Keto.Library.Fallible
import Mathlib.Data.Int.Notation

/-!
JSON values and the operations by which a library lets programs read them: a
member by its key, a string, a loop over the elements or over the members, and
the first element.
-/
namespace Keto.Library

/-- The members of an object stand in the order of their keys, each key once. A number is
the text of it. -/
inductive Json
  | null
  | boolean (value : Bool)
  | number (literal : List UInt8)
  | string (value : List UInt8)
  | array (elements : List Json)
  | object (members : List (List UInt8 × Json))

/-- The last is no exception: the end of a container is read as an element. -/
inductive JsonException
  | typeError
  | invalidIterator
  | endOfContainer
  deriving DecidableEq, Repr

namespace Json

/-- `operator []` with a key, which puts a null where there is no member. -/
def subscript (key : List UInt8) : Json → Except JsonException Json
  | .null => .ok .null
  | .object members => .ok ((members.lookup key).getD .null)
  | _ => .error .typeError

def getString : Json → Except JsonException (List UInt8)
  | .string value => .ok value
  | _ => .error .typeError

/-- What a loop runs over; a value that is no container is one element. -/
def elements : Json → List Json
  | .null => []
  | .array elements => elements
  | .object members => members.map Prod.snd
  | value => [value]

/-- What a loop runs over that asks for keys, which objects only have. -/
def items : Json → Except JsonException (List (List UInt8 × Json))
  | .object members => .ok members
  | value => if value.elements.isEmpty then .ok [] else .error .invalidIterator

@[simp] theorem items_object (members : List (List UInt8 × Json)) :
    (object members).items = .ok members := rfl

def front : Json → Except JsonException Json
  | .null => .error .invalidIterator
  | value => match value.elements with
    | [] => .error .endOfContainer
    | first :: _ => .ok first

def HasMember (key : List UInt8) (value member : Json) : Prop :=
  ∃ members, value = .object members ∧ members.lookup key = some member

theorem HasMember.subscript {key : List UInt8} {value member : Json}
    (h : value.HasMember key member) : value.subscript key = .ok member := by
  obtain ⟨members, rfl, hlookup⟩ := h
  rw [Json.subscript, hlookup]
  rfl

/-- The string of a member. -/
theorem HasMember.getString {key value : List UInt8} {json : Json}
    (h : json.HasMember key (.string value)) :
    (json.subscript key >>= Json.getString) = .ok value := by
  rw [Fallible.bind_ok h.subscript]
  rfl

end Json

end Keto.Library
