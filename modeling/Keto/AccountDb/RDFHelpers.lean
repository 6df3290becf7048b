import Keto.Protocol
import Mathlib.Data.List.TakeWhile
import Mathlib.Data.Nat.Notation

/-!
The helpers over an RDF model, built or decoded: its subjects, their predicates and
the objects of these. All strings are written with their length, and those of subjects
and predicates are read so; the strings of an object are read up to the first zero byte.
-/
namespace Keto.AccountDb

open Protocol

/-- What the account store can end with instead of returning. The last three
are no exceptions: the source goes on with memory that is not what it takes it
for. -/
inductive AccountDbFailure
  | unsupportedChangeTypeFormat
  | invalidAccountOperation (what : Bytes)
  | invalidParentAccount (what : Bytes)
  | duplicateGraphDB (what : Bytes)
  | unsupportedDataTypeTransaction (what : Bytes)
  | predicateNotFound
  | subjectNotFoundInModel
  | invalidHexArgument
  | nullModel
  | otherVariantAsSubject
  | nullGraphStore
  deriving DecidableEq, Repr

def cString (buffer : Bytes) : Bytes := buffer.takeWhile (· ≠ 0)

theorem cString_eq_self_iff {buffer : Bytes} : cString buffer = buffer ↔ 0 ∉ buffer := by
  rw [cString, List.takeWhile_eq_self_iff]
  constructor
  · intro h hzero
    exact absurd (h 0 hzero) (by decide)
  · intro h c hc
    exact decide_eq_true fun hzero => h (hzero ▸ hc)

theorem cString_append (first second : Bytes) :
    cString (first ++ second) =
      if 0 ∈ first then cString first else first ++ cString second := by
  have hwhole : 0 ∉ first ↔ (first.takeWhile (· ≠ 0)).length = first.length := by
    rw [← cString_eq_self_iff, cString]
    exact ⟨congrArg List.length, List.IsPrefix.eq_of_length (List.takeWhile_prefix _)⟩
  rw [cString, List.takeWhile_append]
  by_cases hzero : 0 ∈ first
  · rw [if_pos hzero, if_neg fun hlength => hwhole.mpr hlength hzero]
    rfl
  · rw [if_neg hzero, if_pos (hwhole.mp hzero)]
    rfl

namespace RDFObjectHelper

def ofObject (rdfObject : RDFObject) : RDFObject where
  value := cString rdfObject.value
  type := cString rdfObject.type
  lang := cString rdfObject.lang
  dataType := cString rdfObject.dataType

def literal : Bytes := text "literal"

def uri : Bytes := text "uri"

def ofLiteral (value dataType : Bytes) : RDFObject where
  value := value
  type := literal
  lang := text "en"
  dataType := dataType

def new : RDFObject where
  value := []
  type := literal
  lang := text "en"
  dataType := []

def setValue (value : Bytes) (helper : RDFObject) : RDFObject := { helper with value }

def setType (type : Bytes) (helper : RDFObject) : RDFObject := { helper with type }

def setDataType (dataType : Bytes) (helper : RDFObject) : RDFObject := { helper with dataType }

/-- `OCTET_STRING_fromBuf` of the characters of a string and its size. -/
def octetString (buffer : Bytes) (size : ℕ) : Bytes := buffer.take size

@[simp]
theorem octetString_length (buffer : Bytes) : octetString buffer buffer.length = buffer :=
  List.take_length

def toObject (helper : RDFObject) : RDFObject where
  value := octetString helper.value helper.value.length
  type := octetString helper.type helper.type.length
  lang := octetString helper.lang helper.lang.length
  dataType := octetString helper.dataType helper.dataType.length

@[simp]
theorem toObject_eq (helper : RDFObject) : toObject helper = helper := by simp [toObject]

end RDFObjectHelper

namespace RDFPredicateHelper

def ofString (predicate : Bytes) : RDFPredicate :=
  ⟨RDFObjectHelper.octetString predicate predicate.length, []⟩

def addObject (rdfObject : RDFObject) (predicate : RDFPredicate) : RDFPredicate :=
  { predicate with rdfObjects := predicate.rdfObjects ++ [RDFObjectHelper.toObject rdfObject] }

def listObjects (predicate : RDFPredicate) : List RDFObject :=
  predicate.rdfObjects.map RDFObjectHelper.ofObject

def getStringLiteral (predicate : RDFPredicate) : Bytes :=
  match listObjects predicate with
  | object :: _ => object.value
  | [] => []

end RDFPredicateHelper

namespace RDFSubjectHelper

def ofString (subject : Bytes) : RDFSubject :=
  ⟨RDFObjectHelper.octetString subject subject.length, []⟩

def addPredicate (predicate : RDFPredicate) (subject : RDFSubject) : RDFSubject :=
  { subject with rdfPredicates := subject.rdfPredicates ++ [predicate] }

def getPredicates (subject : RDFSubject) : List RDFPredicate := subject.rdfPredicates

def containsPredicate (subject : RDFSubject) (predicate : Bytes) : Bool :=
  subject.rdfPredicates.any fun entry => entry.predicate = predicate

/-- `operator []`: the first predicate of the name. -/
def get (subject : RDFSubject) (predicate : Bytes) : Except AccountDbFailure RDFPredicate :=
  match subject.rdfPredicates.find? fun entry => entry.predicate = predicate with
  | some entry => .ok entry
  | none => .error .predicateNotFound

def slash : UInt8 := 0x2f

/-- `subject.substr(0, subject.find_last_of("/"))`, the whole subject without a slash. -/
def getOntologyClass (subject : RDFSubject) : Bytes :=
  if slash ∈ subject.subject then
    ((subject.subject.reverse.dropWhile (· ≠ slash)).drop 1).reverse
  else subject.subject

end RDFSubjectHelper

def rdfSubject? : RDFDataFormat → Option RDFSubject
  | .rdfSubject subject => some subject
  | .rdfNtGroup => none

namespace RDFModelHelper

def new : RDFModel := ⟨.persist, []⟩

def ofChange (change : RDFChange) : RDFModel := ⟨change, []⟩

def addSubject (rdfSubject : RDFSubject) (model : RDFModel) : RDFModel :=
  { model with rdfDataFormat := model.rdfDataFormat ++ [.rdfSubject rdfSubject] }

/-- The names of the RDF subjects; entries of another kind are passed over. -/
def subjects (model : RDFModel) : List Bytes :=
  (model.rdfDataFormat.filterMap rdfSubject?).map RDFSubject.subject

def contains (model : RDFModel) (subject : Bytes) : Bool :=
  (subjects model).contains subject

/-- A helper over every entry, whatever its kind. -/
def getSubjects (model : RDFModel) : List RDFDataFormat := model.rdfDataFormat

def get (model : RDFModel) (subject : Bytes) : Except AccountDbFailure RDFSubject :=
  match (model.rdfDataFormat.filterMap rdfSubject?).find? fun entry => entry.subject = subject with
  | some entry => .ok entry
  | none => .error .subjectNotFoundInModel

end RDFModelHelper

end Keto.AccountDb
