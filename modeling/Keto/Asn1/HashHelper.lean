import Keto.AccountDb.RDFHelpers
import Keto.Asn1.StringCodec
import Keto.Library.Replacing

/-!
The helper that holds the bytes of a hash, represented by these bytes, as an
octet string is by its own: what constructors, assignments and setters leave in
it, and the conversions out of it. Sizes are within the range of the `int` that
counts them.
-/
namespace Keto.Asn1

open Protocol AccountDb.RDFObjectHelper Library.Runs Library.Replacing

def pushBack (bytes vector : Bytes) : Bytes :=
  bytes.foldl (fun vector entry => vector ++ [entry]) vector

theorem pushBack_eq (bytes vector : Bytes) : pushBack bytes vector = vector ++ bytes := by
  induction bytes generalizing vector with
  | nil => rw [List.append_nil]; rfl
  | cons entry bytes ih =>
    have hstep := ih (vector ++ [entry])
    rw [List.append_assoc] at hstep
    exact hstep

@[simp] theorem pushBack_nil (bytes : Bytes) : pushBack bytes [] = bytes := pushBack_eq bytes []

/-- Copying behind what is there replaces it when nothing is there. -/
theorem pushBack_eq_self_iff (bytes vector : Bytes) :
    pushBack bytes vector = bytes ↔ vector = [] := by
  rw [pushBack_eq, List.append_left_eq_self]

namespace HashHelper

variable (codec : StringCodec)

def ofString (hash : Bytes) : Hash := pushBack hash []

def ofSecureVector (hash : Bytes) : Hash := hash

def ofHash_t (hash : Bytes) : Hash := pushBack hash []

def ofText (text : Bytes) (encoding : StringEncoding) : Except Asn1Exception Hash :=
  codec.decode text encoding

/-- `operator=(const std::string&)`, which does not clear what the helper holds. -/
def assignString (hash : Bytes) (helper : Hash) : Hash := pushBack hash helper

/-- `operator=(const Hash_t&)` and, by pointer, `operator=(const Hash_t*)`: the
helper is cleared first. -/
def assignHash_t (hash : Bytes) (_helper : Hash) : Hash := pushBack hash []

def assignSecureVector (hash : Bytes) (_helper : Hash) : Hash := hash

def setHash (text : Bytes) (encoding : StringEncoding) (_helper : Hash) :
    Except Asn1Exception Hash :=
  codec.decode text encoding

def toHash_t (helper : Hash) : Bytes := octetString helper helper.length

def toSecureVector (helper : Hash) : Bytes := helper

def toString (helper : Hash) : Bytes := pushBack helper []

def getHash (encoding : StringEncoding) (helper : Hash) : Except Asn1Exception Bytes :=
  codec.encode helper encoding

def empty (helper : Hash) : Bool := helper.length == 0

inductive Assignment
  | string (hash : Bytes)
  | hash_t (hash : Bytes)
  | secureVector (hash : Bytes)
  | setHash (text : Bytes) (encoding : StringEncoding)
  deriving DecidableEq, Repr

def Assignment.given : Assignment → Option Hash
  | .string hash | .hash_t hash | .secureVector hash => some hash
  | .setHash text encoding => (codec.decode text encoding).toOption

def assign : Assignment → Hash → Hash
  | .string hash, helper => assignString hash helper
  | .hash_t hash, helper => assignHash_t hash helper
  | .secureVector hash, helper => assignSecureVector hash helper
  | .setHash text encoding, helper =>
    match setHash codec text encoding helper with
    | .ok hash => hash
    | .error _ => helper

def StringOnlyWhenEmpty (assignment : Assignment) (helper : Hash) : Prop :=
  ∀ hash, assignment = .string hash → helper = []

theorem assign_eq_replace_iff (assignment : Assignment) (helper : Hash) :
    assign codec assignment helper = replace (Assignment.given codec) assignment helper ↔
      StringOnlyWhenEmpty assignment helper := by
  cases assignment with
  | string hash =>
    rw [assign, assignString, replace, Assignment.given, Option.getD_some, pushBack_eq_self_iff]
    exact ⟨fun h _ _ => h, fun h => h hash rfl⟩
  | hash_t hash =>
    refine iff_of_true (pushBack_nil hash) ?_
    intro _ h
    cases h
  | secureVector hash =>
    refine iff_of_true rfl ?_
    intro _ h
    cases h
  | setHash text encoding =>
    refine iff_of_true ?_ ?_
    · rw [assign, setHash, replace, Assignment.given]
      cases codec.decode text encoding with
      | ok hash => rfl
      | error e => rfl
    · intro _ h
      cases h

structure RoundTrips (hash : Hash) : Prop where
  hash_t : toHash_t hash = hash ∧ ofHash_t (toHash_t hash) = hash
  secureVector : toSecureVector hash = hash ∧ ofSecureVector (toSecureVector hash) = hash
  string : toString hash = hash ∧ ofString (toString hash) = hash
  text : ∀ encoding text, getHash codec encoding hash = .ok text →
    ofText codec text encoding = .ok hash ∧
      ∀ helper, setHash codec text encoding helper = .ok hash

theorem roundTrips {codec : StringCodec} (hlawful : codec.Lawful) (hash : Hash) :
    RoundTrips codec hash where
  hash_t := by
    rw [toHash_t, octetString_length, ofHash_t, pushBack_nil]
    exact ⟨rfl, rfl⟩
  secureVector := ⟨rfl, rfl⟩
  string := by
    rw [toString, pushBack_nil, ofString, pushBack_nil]
    exact ⟨rfl, rfl⟩
  text := by
    intro encoding text htext
    have hdecode := StringCodec.decode_of_encode hlawful htext
    exact ⟨hdecode, fun _ => hdecode⟩

end HashHelper

end Keto.Asn1
