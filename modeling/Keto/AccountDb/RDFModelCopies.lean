import Keto.AccountDb.RDFHelpers

/-!
A model that the helpers have built, read back through them. Everything is copied with
its length on the way in; the strings of objects are copied as C strings on the way out.
-/
namespace Keto.AccountDb.RDFModelCopies

open Protocol

def buildPredicate (predicate : RDFPredicate) : RDFPredicate :=
  predicate.rdfObjects.foldl (fun helper object => RDFPredicateHelper.addObject object helper)
    (RDFPredicateHelper.ofString predicate.predicate)

def buildSubject (subject : RDFSubject) : RDFSubject :=
  subject.rdfPredicates.foldl
    (fun helper predicate => RDFSubjectHelper.addPredicate (buildPredicate predicate) helper)
    (RDFSubjectHelper.ofString subject.subject)

def buildModel (change : RDFChange) (subjects : List RDFSubject) : RDFModel :=
  subjects.foldl (fun helper subject => RDFModelHelper.addSubject (buildSubject subject) helper)
    (RDFModelHelper.ofChange change)

def readPredicate (predicate : RDFPredicate) : RDFPredicate :=
  ⟨predicate.predicate, RDFPredicateHelper.listObjects predicate⟩

def readSubject (subject : RDFSubject) : RDFSubject :=
  ⟨subject.subject, (RDFSubjectHelper.getPredicates subject).map readPredicate⟩

/-- What `getSubjects` leads to; `none` where an entry of another kind is taken for a
subject. -/
def readModel (model : RDFModel) : Option (List RDFSubject) :=
  (RDFModelHelper.getSubjects model).mapM fun entry => (rdfSubject? entry).map readSubject

theorem foldl_addObject (objects : List RDFObject) (predicate : RDFPredicate) :
    objects.foldl (fun helper object => RDFPredicateHelper.addObject object helper) predicate =
      { predicate with rdfObjects := predicate.rdfObjects ++ objects } := by
  induction objects generalizing predicate with
  | nil => rw [List.foldl_nil, List.append_nil]
  | cons object objects ih =>
    rw [List.foldl_cons, ih, RDFPredicateHelper.addObject, RDFObjectHelper.toObject_eq,
      List.append_assoc, List.singleton_append]

theorem buildPredicate_eq (predicate : RDFPredicate) : buildPredicate predicate = predicate := by
  rw [buildPredicate, foldl_addObject, RDFPredicateHelper.ofString,
    RDFObjectHelper.octetString_length, List.nil_append]

theorem foldl_addPredicate (predicates : List RDFPredicate) (subject : RDFSubject) :
    predicates.foldl (fun helper predicate =>
        RDFSubjectHelper.addPredicate (buildPredicate predicate) helper) subject =
      { subject with rdfPredicates := subject.rdfPredicates ++ predicates } := by
  induction predicates generalizing subject with
  | nil => rw [List.foldl_nil, List.append_nil]
  | cons predicate predicates ih =>
    rw [List.foldl_cons, ih, RDFSubjectHelper.addPredicate, buildPredicate_eq,
      List.append_assoc, List.singleton_append]

theorem buildSubject_eq (subject : RDFSubject) : buildSubject subject = subject := by
  rw [buildSubject, foldl_addPredicate, RDFSubjectHelper.ofString,
    RDFObjectHelper.octetString_length, List.nil_append]

theorem foldl_addSubject (subjects : List RDFSubject) (model : RDFModel) :
    subjects.foldl (fun helper subject =>
        RDFModelHelper.addSubject (buildSubject subject) helper) model =
      { model with rdfDataFormat := model.rdfDataFormat ++ subjects.map .rdfSubject } := by
  induction subjects generalizing model with
  | nil => rw [List.foldl_nil, List.map_nil, List.append_nil]
  | cons subject subjects ih =>
    rw [List.foldl_cons, ih, RDFModelHelper.addSubject, buildSubject_eq, List.map_cons,
      List.append_assoc, List.singleton_append]

/-- What is built holds what it was built from. -/
theorem buildModel_eq (change : RDFChange) (subjects : List RDFSubject) :
    buildModel change subjects = ⟨change, subjects.map .rdfSubject⟩ := by
  rw [buildModel, foldl_addSubject, RDFModelHelper.ofChange, List.nil_append]

theorem readModel_buildModel (change : RDFChange) (subjects : List RDFSubject) :
    readModel (buildModel change subjects) = some (subjects.map readSubject) := by
  rw [buildModel_eq, readModel, RDFModelHelper.getSubjects]
  induction subjects with
  | nil => rfl
  | cons subject subjects ih =>
    rw [List.map_cons, List.mapM_cons, ih]
    rfl

def PlainObject (object : RDFObject) : Prop :=
  0 ∉ object.value ∧ 0 ∉ object.type ∧ 0 ∉ object.lang ∧ 0 ∉ object.dataType

theorem ofObject_eq_self_iff (object : RDFObject) :
    RDFObjectHelper.ofObject object = object ↔ PlainObject object := by
  obtain ⟨value, type, lang, dataType⟩ := object
  simp only [RDFObjectHelper.ofObject, PlainObject, RDFObject.mk.injEq, cString_eq_self_iff]

theorem map_eq_self_iff {α : Type} {f : α → α} {as : List α} :
    as.map f = as ↔ ∀ a ∈ as, f a = a := by
  have hself := List.map_inj_left (f := f) (g := id) (l := as)
  rwa [List.map_id] at hself

theorem readPredicate_eq_self_iff (predicate : RDFPredicate) :
    readPredicate predicate = predicate ↔
      ∀ object ∈ predicate.rdfObjects, PlainObject object := by
  obtain ⟨name, objects⟩ := predicate
  rw [readPredicate, RDFPredicateHelper.listObjects, RDFPredicate.mk.injEq, map_eq_self_iff]
  simp only [ofObject_eq_self_iff, true_and]

theorem readSubject_eq_self_iff (subject : RDFSubject) :
    readSubject subject = subject ↔
      ∀ predicate ∈ subject.rdfPredicates, ∀ object ∈ predicate.rdfObjects,
        PlainObject object := by
  obtain ⟨name, predicates⟩ := subject
  rw [readSubject, RDFSubjectHelper.getPredicates, RDFSubject.mk.injEq, map_eq_self_iff]
  simp only [readPredicate_eq_self_iff, true_and]

/-- The model is read back as it was built, directly and after being encoded and decoded. -/
def SurvivesHelpers (change : RDFChange) (subjects : List RDFSubject) : Prop :=
  readModel (buildModel change subjects) = some subjects ∧
    ∀ (encode : RDFModel → Bytes) (decode : Bytes → Option RDFModel),
      (∀ model, decode (encode model) = some model) →
        (decode (encode (buildModel change subjects))).bind readModel = some subjects

/-- A model survives the helpers exactly when no string of its objects has a zero byte. -/
theorem survivesHelpers_iff (change : RDFChange) (subjects : List RDFSubject) :
    SurvivesHelpers change subjects ↔
      ∀ subject ∈ subjects, ∀ predicate ∈ subject.rdfPredicates,
        ∀ object ∈ predicate.rdfObjects, PlainObject object := by
  have hdirect : readModel (buildModel change subjects) = some subjects ↔
      ∀ subject ∈ subjects, ∀ predicate ∈ subject.rdfPredicates,
        ∀ object ∈ predicate.rdfObjects, PlainObject object := by
    rw [readModel_buildModel, Option.some.injEq, map_eq_self_iff]
    simp only [readSubject_eq_self_iff]
  rw [SurvivesHelpers, ← hdirect]
  constructor
  · exact And.left
  · intro hread
    refine ⟨hread, fun encode decode hinverse => ?_⟩
    rw [hinverse, Option.bind_some, hread]

def zeroByteSubject : RDFSubject :=
  ⟨text "http://keto#s", [⟨text "http://keto#p",
    [RDFObjectHelper.ofLiteral [0x61, 0, 0x62] (text "http://www.w3.org/2001/XMLSchema#string")]⟩]⟩

/-- The value comes back as `a`. -/
theorem zero_byte_cuts_value :
    readModel (buildModel .persist [zeroByteSubject]) =
        some [⟨text "http://keto#s", [⟨text "http://keto#p", [RDFObjectHelper.ofLiteral [0x61]
          (text "http://www.w3.org/2001/XMLSchema#string")]⟩]⟩] ∧
      ¬SurvivesHelpers .persist [zeroByteSubject] := by
  have hread : readModel (buildModel .persist [zeroByteSubject]) =
      some [⟨text "http://keto#s", [⟨text "http://keto#p", [RDFObjectHelper.ofLiteral [0x61]
        (text "http://www.w3.org/2001/XMLSchema#string")]⟩]⟩] := by decide +kernel
  exact ⟨hread, fun hsurvives => absurd (hread.symm.trans hsurvives.1) (by decide)⟩

end Keto.AccountDb.RDFModelCopies
