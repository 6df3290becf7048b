import Keto.AccountDb.AccountStore
import Keto.Library.Decimal

/-!
The in-memory triples that answer a contract's reads. A setter adds a triple and
leaves those of earlier calls where they are; a getter reads the first triple of
its subject and predicate.
-/
namespace Keto.Wavm

open Protocol AccountDb Library.Decimal

/-- The time functions of the C library, with the format `%Y-%m-%dT%X`. Parsing
sets some fields of a broken-down time and leaves the others as they are. -/
structure TimeLibrary (Tm : Type) where
  strftime : Tm → Bytes
  strptime : Bytes → Tm → Tm
  mktime : Tm → Int64

/-- `nullLiteral` is no exception: a string is made of a null pointer. -/
inductive WavmFailure
  | unsupportedDataTypeTransaction (what : Bytes)
  | nullLiteral
  deriving DecidableEq, Repr

namespace RDFConstants

def string : Bytes := text "http://www.w3.org/2001/XMLSchema#string"

def long : Bytes := text "http://www.w3.org/2001/XMLSchema#decimal"

def boolean : Bytes := text "http://www.w3.org/2001/XMLSchema#Boolean"

def dateTime : Bytes := text "http://www.w3.org/2001/XMLSchema#dateTime"

def literal : Bytes := text "literal"

end RDFConstants

/-- The memory storage of the graph library: its triples in the order in which they were
added. -/
abbrev RDFMemorySession := List Statement

namespace RDFMemorySession

section Setters

variable {Graph : Type} (librdf : Librdf Graph)

def addStatement (subject predicate value dataType : Bytes) (session : Graph) : Graph :=
  librdf.addStatement
    ⟨cString subject, cString predicate, .typedLiteral (cString value) dataType⟩ session

def setStringValue (subject predicate value : Bytes) (session : Graph) : Graph :=
  addStatement librdf subject predicate value RDFConstants.string session

def setLongValue (subject predicate : Bytes) (value : Int64) (session : Graph) : Graph :=
  addStatement librdf subject predicate (signed value.toInt) RDFConstants.long session

def spelling (value : Bool) : Bytes := if value then text "true" else text "false"

def setBooleanValue (subject predicate : Bytes) (value : Bool) (session : Graph) : Graph :=
  addStatement librdf subject predicate (spelling value) RDFConstants.boolean session

/-- The value is broken down into `result`, and `tstruct`, which nobody has set, is printed. -/
def setDateTimeValue {Tm : Type} (library : TimeLibrary Tm) (tstruct : Tm)
    (subject predicate : Bytes) (_value : Int64) (session : Graph) : Graph :=
  addStatement librdf subject predicate (library.strftime tstruct) RDFConstants.dateTime session

end Setters

def getTargets (subject predicate : Bytes) (session : RDFMemorySession) : List Node :=
  (session.filter fun statement =>
    statement.subject = cString subject ∧ statement.predicate = cString predicate).map
      Statement.object

/-- The literal value of the first target, which every getter reads. -/
def targetValue (subject predicate : Bytes) (session : RDFMemorySession) :
    Except WavmFailure Bytes :=
  match (session.getTargets subject predicate).head? with
  | some (.typedLiteral value _) => .ok value
  | some (.uri _) => .error .nullLiteral
  | none => .error (.unsupportedDataTypeTransaction
      (text "The rdf node [" ++ subject ++ text "][" ++ predicate ++ text "] was not found"))

def getStringValue (subject predicate : Bytes) (session : RDFMemorySession) :
    Except WavmFailure Bytes :=
  session.targetValue subject predicate

def getLongValue (subject predicate : Bytes) (session : RDFMemorySession) :
    Except WavmFailure Int64 :=
  (session.targetValue subject predicate).map atol

def toLower (c : UInt8) : UInt8 := if 0x41 ≤ c ∧ c ≤ 0x5a then c + 0x20 else c

def spellsTrue (value : Bytes) : Bool := value.map toLower = text "true"

/-- `compare` is zero for equal texts, so that `true` is read as false. -/
def getBooleanValue (subject predicate : Bytes) (session : RDFMemorySession) :
    Except WavmFailure Bool :=
  (session.targetValue subject predicate).map fun value => !spellsTrue value

variable {Tm : Type} (library : TimeLibrary Tm)

/-- The time is parsed into a broken-down time `tm` that nobody has set. -/
def getDateTimeValue (tm : Tm) (subject predicate : Bytes) (session : RDFMemorySession) :
    Except WavmFailure Int64 :=
  (session.targetValue subject predicate).map fun value =>
    library.mktime (library.strptime value tm)

end RDFMemorySession

abbrev GuestText := { bytes : Bytes // 0 ∉ bytes }

/-- A value of one of the four types; a time comes with what `tstruct` holds at its call. -/
inductive SessionValue (Tm : Type)
  | string (value : GuestText)
  | long (value : Int64)
  | boolean (value : Bool)
  | dateTime (value : Int64) (tstruct : Tm)

structure SetCall (Tm : Type) where
  subject : GuestText
  predicate : GuestText
  value : SessionValue Tm

namespace MemorySession

open RDFMemorySession

variable {Tm : Type} (library : TimeLibrary Tm)

/-- One call of a setter; a triple that is there already is not added. -/
def apply (call : SetCall Tm) (session : RDFMemorySession) : RDFMemorySession :=
  match call.value with
  | .string value => setStringValue .statementList call.subject.1 call.predicate.1 value.1 session
  | .long value => setLongValue .statementList call.subject.1 call.predicate.1 value session
  | .boolean value => setBooleanValue .statementList call.subject.1 call.predicate.1 value session
  | .dateTime value tstruct =>
    setDateTimeValue .statementList library tstruct call.subject.1 call.predicate.1 value session

def run (calls : List (SetCall Tm)) : RDFMemorySession :=
  calls.foldl (fun session call => apply library call session) []

def settings (calls : List (SetCall Tm)) (subject predicate : GuestText) :
    List (SessionValue Tm) :=
  (calls.filter fun call => call.subject = subject ∧ call.predicate = predicate).map SetCall.value

/-- The getter of the value's type returns the value, whatever an unset time holds. -/
def ReadsBack (session : RDFMemorySession) (subject predicate : GuestText) :
    SessionValue Tm → Prop
  | .string value => session.getStringValue subject.1 predicate.1 = .ok value.1
  | .long value => session.getLongValue subject.1 predicate.1 = .ok value
  | .boolean value => session.getBooleanValue subject.1 predicate.1 = .ok value
  | .dateTime value _ =>
    ∀ tm, session.getDateTimeValue library tm subject.1 predicate.1 = .ok value

/-- Every value that was set last for its subject and predicate is read back. -/
def BehavesAsMap (calls : List (SetCall Tm)) : Prop :=
  ∀ subject predicate value, (settings calls subject predicate).getLast? = some value →
    ReadsBack library (run library calls) subject predicate value

def valueText : SessionValue Tm → Bytes
  | .string value => value.1
  | .long value => signed value.toInt
  | .boolean value => spelling value
  | .dateTime _ tstruct => cString (library.strftime tstruct)

def valueType : SessionValue Tm → Bytes
  | .string _ => RDFConstants.string
  | .long _ => RDFConstants.long
  | .boolean _ => RDFConstants.boolean
  | .dateTime _ _ => RDFConstants.dateTime

/-- What is kept of the first value set reads as the last one: the same string or
number, the opposite boolean, and of values of different types and of times what
their texts read as. -/
def FirstReadsAs : SessionValue Tm → SessionValue Tm → Prop
  | .string first, .string last => first = last
  | .long first, .long last => first = last
  | .boolean first, .boolean last => first ≠ last
  | first, .string last => valueText library first = last.1
  | first, .long last => atol (valueText library first) = last
  | first, .boolean last => spellsTrue (valueText library first) ≠ last
  | first, .dateTime last _ =>
    ∀ tm, library.mktime (library.strptime (valueText library first) tm) = last

def statementOf (call : SetCall Tm) : Statement :=
  ⟨call.subject.1, call.predicate.1,
    .typedLiteral (valueText library call.value) (valueType call.value)⟩

theorem cString_spelling (value : Bool) : cString (spelling value) = spelling value := by
  cases value <;> decide

theorem cString_signed (n : ℤ) : cString (signed n) = signed n := by
  have hdigits : ∀ m, (0 : UInt8) ∉ decimal m := by
    intro m hzero
    exact absurd (isDigit_of_mem_decimal hzero) (by decide)
  rw [cString_eq_self_iff, signed]
  split
  · rw [List.mem_cons, not_or]
    exact ⟨by decide, hdigits _⟩
  · exact hdigits _

/-- A call adds its triple, which holds the strings as they were handed over. -/
theorem apply_eq (call : SetCall Tm) (session : RDFMemorySession) :
    apply library call session =
      Librdf.statementList.addStatement (statementOf library call) session := by
  have hsubject : cString call.subject.1 = call.subject.1 :=
    cString_eq_self_iff.mpr call.subject.2
  have hpredicate : cString call.predicate.1 = call.predicate.1 :=
    cString_eq_self_iff.mpr call.predicate.2
  rw [apply, statementOf]
  cases call.value with
  | string value =>
    simp only [setStringValue, addStatement, hsubject, hpredicate, valueText, valueType,
      cString_eq_self_iff.mpr value.2]
  | long value =>
    simp only [setLongValue, addStatement, hsubject, hpredicate, valueText, valueType,
      cString_signed]
  | boolean value =>
    simp only [setBooleanValue, addStatement, hsubject, hpredicate, valueText, valueType,
      cString_spelling]
  | dateTime value tstruct =>
    simp only [setDateTimeValue, addStatement, hsubject, hpredicate, valueText, valueType]

/-- The first statement that meets a condition is the first one that was added. -/
theorem find?_foldl_addStatement (p : Statement → Bool) (statements session : List Statement) :
    (statements.foldl (fun session statement =>
      Librdf.statementList.addStatement statement session) session).find? p =
        (session ++ statements).find? p := by
  induction statements generalizing session with
  | nil => rw [List.append_nil, List.foldl_nil]
  | cons statement statements ih =>
    have hadd : Librdf.statementList.addStatement statement session =
        if statement ∈ session then session else session ++ [statement] := rfl
    rw [List.foldl_cons, ih, hadd]
    by_cases hmem : statement ∈ session
    · rw [if_pos hmem, List.find?_append, List.find?_append, List.find?_cons]
      cases hp : p statement with
      | false => rfl
      | true =>
        obtain ⟨found, hfound⟩ := Option.isSome_iff_exists.mp
          (List.find?_isSome.mpr ⟨statement, hmem, hp⟩)
        rw [hfound, Option.some_or, Option.some_or]
    · rw [if_neg hmem, List.append_assoc, List.singleton_append]

theorem run_eq (calls : List (SetCall Tm)) :
    run library calls = (calls.map (statementOf library)).foldl (fun session statement =>
      Librdf.statementList.addStatement statement session) [] := by
  rw [run, List.foldl_map]
  simp only [apply_eq]

/-- The first triple of a subject and a predicate is that of the value set first. -/
theorem getTargets_run (calls : List (SetCall Tm)) (subject predicate : GuestText) :
    ((run library calls).getTargets subject.1 predicate.1).head? =
      (settings calls subject predicate).head?.map fun value =>
        .typedLiteral (valueText library value) (valueType value) := by
  have hmatch : ∀ call : SetCall Tm,
      decide ((statementOf library call).subject = subject.1 ∧
        (statementOf library call).predicate = predicate.1) =
      decide (call.subject = subject ∧ call.predicate = predicate) := by
    intro call
    rw [decide_eq_decide, statementOf, Subtype.ext_iff, Subtype.ext_iff]
  rw [getTargets, cString_eq_self_iff.mpr subject.2, cString_eq_self_iff.mpr predicate.2,
    List.head?_map, List.head?_filter, run_eq, find?_foldl_addStatement, List.nil_append,
    List.find?_map, settings, List.head?_map, List.head?_filter, Option.map_map, Option.map_map]
  simp only [Function.comp_def, hmatch]
  rfl

/-- What the getters read is the value that was set first. -/
theorem targetValue_run (calls : List (SetCall Tm)) (subject predicate : GuestText)
    {first : SessionValue Tm} (h : (settings calls subject predicate).head? = some first) :
    (run library calls).targetValue subject.1 predicate.1 = .ok (valueText library first) := by
  rw [targetValue, getTargets_run, h]
  rfl

theorem spellsTrue_spelling (value : Bool) : spellsTrue (spelling value) = value := by
  cases value <;> decide

theorem readsBack_iff (calls : List (SetCall Tm)) (subject predicate : GuestText)
    {first : SessionValue Tm} (h : (settings calls subject predicate).head? = some first)
    (last : SessionValue Tm) :
    ReadsBack library (run library calls) subject predicate last ↔
      FirstReadsAs library first last := by
  have hread := targetValue_run library calls subject predicate h
  cases last with
  | string last =>
    rw [ReadsBack, getStringValue, hread, Except.ok.injEq]
    cases first <;> simp [FirstReadsAs, valueText, Subtype.ext_iff]
  | long last =>
    rw [ReadsBack, getLongValue, hread, Except.map, Except.ok.injEq]
    cases first <;> simp [FirstReadsAs, valueText, atol_signed]
  | boolean last =>
    rw [ReadsBack, getBooleanValue, hread, Except.map, Except.ok.injEq, Bool.not_eq]
    cases first <;> simp [FirstReadsAs, valueText, spellsTrue_spelling]
  | dateTime last tstruct =>
    simp only [ReadsBack, getDateTimeValue, hread, Except.map, Except.ok.injEq]
    cases first <;> simp [FirstReadsAs]

/-- The session behaves as a map exactly when for every subject and predicate the
value that was set first reads as the one that was set last. -/
theorem behavesAsMap_iff (calls : List (SetCall Tm)) :
    BehavesAsMap library calls ↔ ∀ subject predicate first last,
      (settings calls subject predicate).head? = some first →
      (settings calls subject predicate).getLast? = some last →
      FirstReadsAs library first last := by
  constructor
  · intro h subject predicate first last hfirst hlast
    exact (readsBack_iff library calls subject predicate hfirst last).mp
      (h subject predicate last hlast)
  · intro h subject predicate last hlast
    have hset : settings calls subject predicate ≠ [] := by
      intro hnone
      rw [hnone] at hlast
      cases hlast
    have hfirst := List.head?_eq_some_head hset
    exact (readsBack_iff library calls subject predicate hfirst last).mpr
      (h subject predicate _ last hfirst hlast)

def setOne (value : SessionValue Unit) : SetCall Unit :=
  ⟨⟨text "http://keto#s", by decide⟩, ⟨text "http://keto#p", by decide⟩, value⟩

def setFirst : SetCall Unit := setOne (.string ⟨text "a", by decide⟩)

def setSecond : SetCall Unit := setOne (.string ⟨text "b", by decide⟩)

def unusedTime : TimeLibrary Unit := ⟨fun _ => [], fun _ tm => tm, fun _ => 0⟩

/-- The second of two strings is not read back, nor is the boolean true. -/
theorem second_string_not_read :
    ¬BehavesAsMap unusedTime [setFirst, setSecond] ∧
      ¬BehavesAsMap unusedTime [setOne (.boolean true)] := by
  constructor
  · intro hmap
    have hread : (run unusedTime [setFirst, setSecond]).getStringValue (text "http://keto#s")
        (text "http://keto#p") = .ok (text "a") := by decide +kernel
    have hlast := hmap setFirst.subject setFirst.predicate setSecond.value (by rfl)
    exact absurd (hread.symm.trans hlast) (by decide)
  · intro hmap
    have hread : (run unusedTime [setOne (.boolean true)]).getBooleanValue (text "http://keto#s")
        (text "http://keto#p") = .ok false := by decide +kernel
    have hlast := hmap setFirst.subject setFirst.predicate (.boolean true) (by rfl)
    exact absurd (hread.symm.trans hlast) (by decide)

end MemorySession

end Keto.Wavm
