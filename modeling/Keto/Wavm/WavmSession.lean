import Keto.Library.KeyedList
import Keto.Wavm.RDFMemorySession
import Mathlib.Data.List.Induction

/-!
The session of a contract: what the contract answers goes into the RDF model of
its change set and into the storage that answers its reads. The storage refuses a
triple without a URL, which the model keeps.
-/
namespace Keto.Wavm

open Protocol AccountDb Library.Decimal Library.KeyedList

structure WavmSession (Graph : Type) where
  modelHelper : RDFModel
  rdfSession : Graph

namespace WavmSession

variable {Graph : Type} (librdf : Librdf Graph)

def start : WavmSession Graph := ⟨RDFModelHelper.ofChange .persist, librdf.newModel⟩

/-- The name of an RDF subject; entries of another kind have none. -/
def subjectName (entry : RDFDataFormat) : Option Bytes := (rdfSubject? entry).map RDFSubject.subject

def predicateName (predicate : RDFPredicate) : Option Bytes := some predicate.predicate

/-- `getSubject`: the model with the subject in it, of which a pointer is returned. -/
def getSubject (subjectUrl : Bytes) (model : RDFModel) : RDFModel :=
  if RDFModelHelper.contains model subjectUrl then model
  else RDFModelHelper.addSubject (RDFSubjectHelper.ofString subjectUrl) model

def getPredicate (predicateUrl : Bytes) (subject : RDFSubject) : RDFSubject :=
  if RDFSubjectHelper.containsPredicate subject predicateUrl then subject
  else RDFSubjectHelper.addPredicate (RDFPredicateHelper.ofString predicateUrl) subject

def addObject (predicateUrl : Bytes) (object : RDFObject) (subject : RDFSubject) : RDFSubject :=
  { subject with
    rdfPredicates :=
      updateFirst predicateName predicateUrl (RDFPredicateHelper.addObject object)
        subject.rdfPredicates }

def onSubject (f : RDFSubject → RDFSubject) : RDFDataFormat → RDFDataFormat
  | .rdfSubject subject => .rdfSubject (f subject)
  | .rdfNtGroup => .rdfNtGroup

/-- The entry of the model that each of the adders makes. -/
def addEntry (subjectUrl predicateUrl : Bytes) (object : RDFObject) (model : RDFModel) : RDFModel :=
  let found := getSubject subjectUrl model
  { found with
    rdfDataFormat :=
      updateFirst subjectName subjectUrl
        (onSubject fun subject => addObject predicateUrl object (getPredicate predicateUrl subject))
        found.rdfDataFormat }

/-- An object that is left with the default language. -/
def objectOf (value dataType : Bytes) : RDFObject :=
  { RDFObjectHelper.ofLiteral value dataType with type := RDFConstants.literal }

def setResponseStringValue (subjectUrl predicateUrl value : Bytes) (session : WavmSession Graph) :
    WavmSession Graph where
  modelHelper :=
    addEntry subjectUrl predicateUrl (objectOf value RDFConstants.string) session.modelHelper
  rdfSession :=
    RDFMemorySession.setStringValue librdf subjectUrl predicateUrl value session.rdfSession

def setResponseLongValue (subjectUrl predicateUrl : Bytes) (value : Int64)
    (session : WavmSession Graph) : WavmSession Graph where
  modelHelper :=
    addEntry subjectUrl predicateUrl (objectOf (signed value.toInt) RDFConstants.long)
      session.modelHelper
  rdfSession :=
    RDFMemorySession.setLongValue librdf subjectUrl predicateUrl value session.rdfSession

def setResponseBooleanValue (subjectUrl predicateUrl : Bytes) (value : Bool)
    (session : WavmSession Graph) : WavmSession Graph where
  modelHelper :=
    addEntry subjectUrl predicateUrl
      (objectOf (RDFMemorySession.spelling value) RDFConstants.boolean) session.modelHelper
  rdfSession :=
    RDFMemorySession.setBooleanValue librdf subjectUrl predicateUrl value session.rdfSession

end WavmSession

inductive ResponseValue
  | string (value : GuestText)
  | long (value : Int64)
  | boolean (value : Bool)

structure ResponseCall where
  subject : GuestText
  predicate : GuestText
  value : ResponseValue

def ResponseValue.literal : ResponseValue → Node
  | .string value => .typedLiteral value.1 RDFConstants.string
  | .long value => .typedLiteral (signed value.toInt) RDFConstants.long
  | .boolean value => .typedLiteral (RDFMemorySession.spelling value) RDFConstants.boolean

def ResponseCall.entry (call : ResponseCall) : Statement :=
  ⟨call.subject.1, call.predicate.1, call.value.literal⟩

namespace WavmSession

section Run

variable {Graph : Type} (librdf : Librdf Graph)

def apply (call : ResponseCall) (session : WavmSession Graph) : WavmSession Graph :=
  match call.value with
  | .string value => session.setResponseStringValue librdf call.subject.1 call.predicate.1 value.1
  | .long value => session.setResponseLongValue librdf call.subject.1 call.predicate.1 value
  | .boolean value => session.setResponseBooleanValue librdf call.subject.1 call.predicate.1 value

def run (calls : List ResponseCall) : WavmSession Graph :=
  calls.foldl (fun session call => apply librdf call session) (start librdf)

end Run

def predicateEntries (subject : Bytes) (predicate : RDFPredicate) : List Statement :=
  predicate.rdfObjects.map fun object =>
    ⟨subject, predicate.predicate, .typedLiteral object.value object.dataType⟩

def subjectEntries (subject : RDFSubject) : List Statement :=
  subject.rdfPredicates.flatMap (predicateEntries subject.subject)

def formatEntries (entry : RDFDataFormat) : List Statement :=
  match entry with
  | .rdfSubject subject => subjectEntries subject
  | .rdfNtGroup => []

def modelEntries (model : RDFModel) : List Statement := model.rdfDataFormat.flatMap formatEntries

structure Unrepeated (model : RDFModel) : Prop where
  subjects : (RDFModelHelper.subjects model).Nodup
  predicates : ∀ subject, .rdfSubject subject ∈ model.rdfDataFormat →
    (subject.rdfPredicates.map RDFPredicate.predicate).Nodup

/-- The two stores hold the same entries, none of them under a name that is there twice. -/
structure InStep {Graph : Type} (holds : Statement → Graph → Prop) (session : WavmSession Graph) :
    Prop where
  entries : ∀ entry, entry ∈ modelEntries session.modelHelper ↔ holds entry session.rdfSession
  unrepeated : Unrepeated session.modelHelper

theorem keys_subjectName (model : RDFModel) :
    keys subjectName model.rdfDataFormat = RDFModelHelper.subjects model := by
  rw [keys, RDFModelHelper.subjects, List.map_filterMap]
  rfl

theorem keys_predicateName (predicates : List RDFPredicate) :
    keys predicateName predicates = predicates.map RDFPredicate.predicate := by
  rw [keys, ← List.filterMap_eq_map]
  rfl

def newSubject (subjectUrl : Bytes) : RDFDataFormat :=
  .rdfSubject (RDFSubjectHelper.ofString subjectUrl)

theorem getSubject_eq (subjectUrl : Bytes) (model : RDFModel) :
    (getSubject subjectUrl model).rdfDataFormat =
      findOrAdd subjectName newSubject subjectUrl model.rdfDataFormat := by
  have hmem : RDFModelHelper.contains model subjectUrl = true ↔
      subjectUrl ∈ keys subjectName model.rdfDataFormat := by
    rw [keys_subjectName, RDFModelHelper.contains, List.contains_iff_mem]
  rw [getSubject, findOrAdd]
  by_cases h : subjectUrl ∈ keys subjectName model.rdfDataFormat
  · rw [if_pos (hmem.mpr h), if_pos h]
  · rw [if_neg (mt hmem.mp h), if_neg h]
    rfl

theorem getPredicate_eq (predicateUrl : Bytes) (subject : RDFSubject) :
    (getPredicate predicateUrl subject).rdfPredicates =
        findOrAdd predicateName RDFPredicateHelper.ofString predicateUrl subject.rdfPredicates ∧
      (getPredicate predicateUrl subject).subject = subject.subject := by
  have hmem : RDFSubjectHelper.containsPredicate subject predicateUrl = true ↔
      predicateUrl ∈ keys predicateName subject.rdfPredicates := by
    simp [RDFSubjectHelper.containsPredicate, keys_predicateName]
  rw [getPredicate, findOrAdd]
  by_cases h : predicateUrl ∈ keys predicateName subject.rdfPredicates
  · rw [if_pos (hmem.mpr h), if_pos h]
    exact ⟨rfl, rfl⟩
  · rw [if_neg (mt hmem.mp h), if_neg h]
    exact ⟨rfl, rfl⟩

/-- An object adds one entry to those of its predicate. -/
theorem mem_predicateEntries_addObject (subject : Bytes) (object : RDFObject)
    (predicate : RDFPredicate) (entry : Statement) :
    entry ∈ predicateEntries subject (RDFPredicateHelper.addObject object predicate) ↔
      entry ∈ predicateEntries subject predicate ∨
        entry = ⟨subject, predicate.predicate, .typedLiteral object.value object.dataType⟩ := by
  rw [predicateEntries, RDFPredicateHelper.addObject, List.map_append, List.mem_append,
    RDFObjectHelper.toObject_eq, List.map_singleton, List.mem_singleton, predicateEntries]

theorem mem_subjectEntries_addObject (predicateUrl : Bytes) (object : RDFObject)
    (subject : RDFSubject) (entry : Statement) :
    entry ∈ subjectEntries (addObject predicateUrl object (getPredicate predicateUrl subject)) ↔
      entry ∈ subjectEntries subject ∨
        entry = ⟨subject.subject, predicateUrl, .typedLiteral object.value object.dataType⟩ := by
  obtain ⟨hpredicates, hname⟩ := getPredicate_eq predicateUrl subject
  have hnew : predicateName (RDFPredicateHelper.ofString predicateUrl) = some predicateUrl := by
    simp [predicateName, RDFPredicateHelper.ofString]
  have hadded : ∀ predicate, predicateName predicate = some predicateUrl → ∀ entry,
      entry ∈ predicateEntries subject.subject (RDFPredicateHelper.addObject object predicate) ↔
        entry ∈ predicateEntries subject.subject predicate ∨
          entry = ⟨subject.subject, predicateUrl,
            .typedLiteral object.value object.dataType⟩ := by
    intro predicate hkey entry
    rw [mem_predicateEntries_addObject, Option.some.inj hkey]
  rw [subjectEntries, addObject, hpredicates, hname,
    mem_flatMap_updateFirst hadded (mem_keys_findOrAdd hnew _), flatMap_findOrAdd rfl,
    subjectEntries]

theorem subjectName_newSubject (subjectUrl : Bytes) :
    subjectName (newSubject subjectUrl) = some subjectUrl := by
  simp [newSubject, subjectName, rdfSubject?, RDFSubjectHelper.ofString]

/-- A model has one entry more after the object of a subject's predicate is added. -/
theorem mem_modelEntries_addEntry (subjectUrl predicateUrl : Bytes) (object : RDFObject)
    (model : RDFModel) (entry : Statement) :
    entry ∈ modelEntries (addEntry subjectUrl predicateUrl object model) ↔
      entry ∈ modelEntries model ∨
        entry = ⟨subjectUrl, predicateUrl, .typedLiteral object.value object.dataType⟩ := by
  have hadded : ∀ format, subjectName format = some subjectUrl → ∀ entry,
      entry ∈ formatEntries (onSubject
          (fun subject => addObject predicateUrl object (getPredicate predicateUrl subject))
          format) ↔
        entry ∈ formatEntries format ∨
          entry = ⟨subjectUrl, predicateUrl, .typedLiteral object.value object.dataType⟩ := by
    intro format hkey entry
    cases format with
    | rdfSubject subject =>
      rw [onSubject, formatEntries, mem_subjectEntries_addObject, Option.some.inj hkey,
        formatEntries]
    | rdfNtGroup => cases hkey
  rw [addEntry, modelEntries, getSubject_eq,
    mem_flatMap_updateFirst hadded (mem_keys_findOrAdd (subjectName_newSubject subjectUrl) _),
    flatMap_findOrAdd rfl, modelEntries]

/-- Finding or adding a subject and updating it keeps the subjects different. -/
theorem nodup_subjects_addEntry (subjectUrl predicateUrl : Bytes) (object : RDFObject)
    {model : RDFModel} (h : (RDFModelHelper.subjects model).Nodup) :
    (RDFModelHelper.subjects (addEntry subjectUrl predicateUrl object model)).Nodup := by
  have hname : ∀ format, subjectName (onSubject
      (fun subject => addObject predicateUrl object (getPredicate predicateUrl subject)) format) =
        subjectName format := by
    intro format
    cases format with
    | rdfSubject subject => exact congrArg some (getPredicate_eq predicateUrl subject).2
    | rdfNtGroup => rfl
  rw [← keys_subjectName] at h ⊢
  rw [addEntry, keys_updateFirst hname, getSubject_eq]
  exact nodup_keys_findOrAdd (subjectName_newSubject subjectUrl) h

theorem nodup_predicates_addObject (predicateUrl : Bytes) (object : RDFObject)
    {subject : RDFSubject} (h : (subject.rdfPredicates.map RDFPredicate.predicate).Nodup) :
    ((addObject predicateUrl object (getPredicate predicateUrl subject)).rdfPredicates.map
      RDFPredicate.predicate).Nodup := by
  have hnew : predicateName (RDFPredicateHelper.ofString predicateUrl) = some predicateUrl := by
    simp [predicateName, RDFPredicateHelper.ofString]
  have hname : ∀ predicate,
      predicateName (RDFPredicateHelper.addObject object predicate) = predicateName predicate :=
    fun predicate => rfl
  rw [← keys_predicateName] at h ⊢
  rw [addObject, keys_updateFirst hname, (getPredicate_eq predicateUrl subject).1]
  exact nodup_keys_findOrAdd hnew h

def PredicatesDiffer (format : RDFDataFormat) : Prop :=
  ∀ subject, format = .rdfSubject subject →
    (subject.rdfPredicates.map RDFPredicate.predicate).Nodup

theorem predicatesDiffer_addEntry (subjectUrl predicateUrl : Bytes) (object : RDFObject)
    {model : RDFModel} (h : ∀ format ∈ model.rdfDataFormat, PredicatesDiffer format) :
    ∀ format ∈ (addEntry subjectUrl predicateUrl object model).rdfDataFormat,
      PredicatesDiffer format := by
  have hnew : PredicatesDiffer (newSubject subjectUrl) := by
    intro subject heq
    obtain rfl := RDFDataFormat.rdfSubject.inj heq
    exact List.nodup_nil
  rw [addEntry, getSubject_eq]
  apply forall_updateFirst
  · intro format hformat subject heq
    cases format with
    | rdfSubject found =>
      obtain rfl := RDFDataFormat.rdfSubject.inj heq
      exact nodup_predicates_addObject predicateUrl object (hformat found rfl)
    | rdfNtGroup => cases heq
  · exact forall_findOrAdd hnew h

theorem unrepeated_addEntry (subjectUrl predicateUrl : Bytes) (object : RDFObject)
    {model : RDFModel} (h : Unrepeated model) :
    Unrepeated (addEntry subjectUrl predicateUrl object model) where
  subjects := nodup_subjects_addEntry subjectUrl predicateUrl object h.subjects
  predicates := by
    intro found hfound
    have hdiffer : ∀ format ∈ model.rdfDataFormat, PredicatesDiffer format := by
      intro format hformat subject heq
      exact h.predicates subject (heq ▸ hformat)
    exact predicatesDiffer_addEntry subjectUrl predicateUrl object hdiffer _ hfound found rfl

section InStep

variable {Graph : Type} {librdf : Librdf Graph} {holds : Statement → Graph → Prop}

/-- Both stores are given the entry of the call. -/
theorem apply_eq (librdf : Librdf Graph) (call : ResponseCall) (session : WavmSession Graph) :
    ∃ value dataType, call.value.literal = .typedLiteral value dataType ∧
      apply librdf call session =
        ⟨addEntry call.subject.1 call.predicate.1 (objectOf value dataType) session.modelHelper,
          librdf.addStatement call.entry session.rdfSession⟩ := by
  have hsubject : cString call.subject.1 = call.subject.1 :=
    cString_eq_self_iff.mpr call.subject.2
  have hpredicate : cString call.predicate.1 = call.predicate.1 :=
    cString_eq_self_iff.mpr call.predicate.2
  rw [apply, ResponseCall.entry]
  cases call.value with
  | string value =>
    refine ⟨_, _, rfl, ?_⟩
    simp only [setResponseStringValue, RDFMemorySession.setStringValue,
      RDFMemorySession.addStatement, hsubject, hpredicate, cString_eq_self_iff.mpr value.2,
      ResponseValue.literal]
  | long value =>
    refine ⟨_, _, rfl, ?_⟩
    simp only [setResponseLongValue, RDFMemorySession.setLongValue, RDFMemorySession.addStatement,
      hsubject, hpredicate, MemorySession.cString_signed, ResponseValue.literal]
  | boolean value =>
    refine ⟨_, _, rfl, ?_⟩
    simp only [setResponseBooleanValue, RDFMemorySession.setBooleanValue,
      RDFMemorySession.addStatement, hsubject, hpredicate, MemorySession.cString_spelling,
      ResponseValue.literal]

theorem run_concat (calls : List ResponseCall) (call : ResponseCall) :
    run librdf (calls ++ [call]) = apply librdf call (run librdf calls) := by
  rw [run, List.foldl_append]
  rfl

/-- The model has the entries of all calls. -/
theorem mem_modelEntries_run (calls : List ResponseCall) (entry : Statement) :
    entry ∈ modelEntries (run librdf calls).modelHelper ↔ ∃ call ∈ calls, entry = call.entry := by
  induction calls using List.reverseRecOn with
  | nil =>
    constructor
    · exact fun hmem => absurd hmem List.not_mem_nil
    · rintro ⟨call, hmem, -⟩
      exact absurd hmem List.not_mem_nil
  | append_singleton calls call ih =>
    obtain ⟨value, dataType, hliteral, happly⟩ := apply_eq librdf call (run librdf calls)
    have hentry : call.entry =
        ⟨call.subject.1, call.predicate.1, .typedLiteral value dataType⟩ := by
      rw [ResponseCall.entry, hliteral]
    rw [run_concat, happly, mem_modelEntries_addEntry, ih]
    simp [hentry, or_and_right, exists_or, objectOf, RDFObjectHelper.ofLiteral]

/-- The storage holds those of them that have their URLs. -/
theorem holds_run (hstores : librdf.Stores holds) (calls : List ResponseCall)
    (entry : Statement) :
    holds entry (run librdf calls).rdfSession ↔
      ∃ call ∈ calls, call.entry.Complete ∧ entry = call.entry := by
  induction calls using List.reverseRecOn with
  | nil => simpa [run, start] using hstores.fresh entry
  | append_singleton calls call ih =>
    obtain ⟨value, dataType, -, happly⟩ := apply_eq librdf call (run librdf calls)
    rw [run_concat, happly]
    by_cases hcomplete : call.entry.Complete
    · rw [hstores.added _ _ _ hcomplete, ih]
      simp [or_and_right, exists_or, hcomplete]
    · rw [hstores.refused _ _ _ hcomplete, ih]
      simp [or_and_right, exists_or, hcomplete]

theorem unrepeated_run (calls : List ResponseCall) :
    Unrepeated (run librdf calls).modelHelper := by
  induction calls using List.reverseRecOn with
  | nil => exact ⟨List.nodup_nil, fun _ h => absurd h List.not_mem_nil⟩
  | append_singleton calls call ih =>
    obtain ⟨value, dataType, -, happly⟩ := apply_eq librdf call (run librdf calls)
    rw [run_concat, happly]
    exact unrepeated_addEntry _ _ _ ih

theorem ResponseCall.complete_entry_iff (call : ResponseCall) :
    call.entry.Complete ↔ call.subject.1 ≠ [] ∧ call.predicate.1 ≠ [] := by
  obtain ⟨subject, predicate, value⟩ := call
  cases value <;> simp [Statement.Complete, ResponseCall.entry, ResponseValue.literal]

/-- After all answers of a contract its two stores are in step exactly when every
subject and every predicate was named. -/
theorem inStep_run_iff (hstores : librdf.Stores holds) (calls : List ResponseCall) :
    InStep holds (run librdf calls) ↔
      ∀ call ∈ calls, call.subject.1 ≠ [] ∧ call.predicate.1 ≠ [] := by
  constructor
  · intro h call hcall
    have hentry : call.entry ∈ modelEntries (run librdf calls).modelHelper :=
      (mem_modelEntries_run calls call.entry).mpr ⟨call, hcall, rfl⟩
    obtain ⟨other, -, hcomplete, hsame⟩ :=
      (holds_run hstores calls call.entry).mp ((h.entries call.entry).mp hentry)
    exact (ResponseCall.complete_entry_iff call).mp (hsame ▸ hcomplete)
  · intro h
    refine ⟨fun entry => ?_, unrepeated_run calls⟩
    rw [mem_modelEntries_run, holds_run hstores]
    refine exists_congr fun call => and_congr_right fun hcall => ?_
    exact (and_iff_right ((ResponseCall.complete_entry_iff call).mpr (h call hcall))).symm

end InStep

def answerUnder (subject : GuestText) : ResponseCall :=
  ⟨subject, ⟨text "http://keto#answer", by decide⟩, .boolean true⟩

theorem inStep_run_iff_named :
    InStep (fun statement graph => statement ∈ graph)
      (run .completeList [answerUnder ⟨text "http://keto#s", by decide⟩]) :=
  (inStep_run_iff stores_completeList _).mpr (by decide)

/-- An answer without a subject is in the model that is signed, and not in the storage
that answers the contract's reads. -/
theorem unnamed_subject_out_of_step :
    ¬ InStep (fun statement graph => statement ∈ graph)
      (run .completeList [answerUnder ⟨[], List.not_mem_nil⟩]) ∧
    (run .completeList [answerUnder ⟨[], List.not_mem_nil⟩]).rdfSession = [] ∧
    modelEntries (run .completeList [answerUnder ⟨[], List.not_mem_nil⟩]).modelHelper =
      [⟨[], text "http://keto#answer", .typedLiteral (text "true") RDFConstants.boolean⟩] := by
  refine ⟨?_, by decide +kernel, by decide +kernel⟩
  intro h
  have hentry := (h.entries
    ⟨[], text "http://keto#answer", .typedLiteral (text "true") RDFConstants.boolean⟩).mp
    (by decide +kernel)
  exact absurd hentry (by decide +kernel)

end WavmSession

end Keto.Wavm
