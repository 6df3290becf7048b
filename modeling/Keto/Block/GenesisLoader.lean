import Keto.Asn1.HashHelper
import Keto.Library.Decimal
import Keto.Library.Json
import Mathlib.Data.List.Forall2

/-!
The loading of the genesis block: the RDF model of each transaction of the document.
Of the objects that the document lists under a predicate only the first one is taken.
-/
namespace Keto.Block.GenesisLoader

open Protocol AccountDb Asn1 Library Library.Fallible

inductive GenesisException
  | json (e : JsonException)
  | asn1 (e : Asn1Exception)
  deriving DecidableEq, Repr

structure GenesisTransaction where
  parent : Hash
  sourceAccount : Hash
  value : Int64
  model : RDFModel
  deriving DecidableEq, Repr

def stringOf (key : String) (jsonObj : Json) : Except JsonException Bytes := do
  let value ← jsonObj.subscript (text key)
  value.getString

def loadObject (jsonObj : Json) : Except JsonException RDFObject := do
  let datatype ← stringOf "datatype" jsonObj
  let type ← stringOf "type" jsonObj
  let value ← stringOf "value" jsonObj
  return RDFObjectHelper.new |> RDFObjectHelper.setDataType datatype |>
    RDFObjectHelper.setType type |> RDFObjectHelper.setValue value

def loadPredicate (subjectHelper : RDFSubject) (predIter : Bytes × Json) :
    Except JsonException RDFSubject := do
  let predicateHelper := RDFPredicateHelper.ofString predIter.1
  let jsonObj ← predIter.2.front
  let objectHelper ← loadObject jsonObj
  return subjectHelper |> RDFSubjectHelper.addPredicate
    (RDFPredicateHelper.addObject objectHelper predicateHelper)

def loadSubject (modelHelper : RDFModel) (it : Bytes × Json) : Except JsonException RDFModel := do
  let predicate ← it.2.items
  let subjectHelper ← predicate.foldlM loadPredicate (RDFSubjectHelper.ofString it.1)
  return RDFModelHelper.addSubject subjectHelper modelHelper

def loadElement (modelHelper : RDFModel) (element2 : Json) : Except JsonException RDFModel := do
  let subjects ← element2.items
  subjects.foldlM loadSubject modelHelper

def loadModel (model : Json) : Except JsonException RDFModel := do
  let rdf ← model.subscript (text "rdf")
  rdf.elements.foldlM loadElement RDFModelHelper.new

variable (codec : StringCodec)

def loadTransaction (parentHash : Hash) (element : Json) :
    Except GenesisException GenesisTransaction := do
  let accountHash ← (stringOf "account_hash" element).mapError .json
  let sourceAccount ← (HashHelper.ofText codec (cString accountHash) .hex).mapError .asn1
  let value ← (stringOf "value" element).mapError .json
  let model ← (element.subscript (text "model")).mapError .json
  let rdfModel ← (loadModel model).mapError .json
  return ⟨parentHash, sourceAccount, Decimal.atol (cString value), rdfModel⟩

def load (jsonData : Json) : Except GenesisException (List GenesisTransaction) := do
  let parent ← (stringOf "parent" jsonData).mapError .json
  let parentHash ← (HashHelper.ofText codec parent .hex).mapError .asn1
  let transactions ← (jsonData.subscript (text "transactions")).mapError .json
  transactions.elements.mapM (loadTransaction codec parentHash)

structure ObjectEntry where
  value : Bytes
  type : Bytes
  dataType : Bytes
  deriving DecidableEq, Repr

structure PredicateEntry where
  predicate : Bytes
  first : ObjectEntry
  rest : List ObjectEntry
  deriving DecidableEq, Repr

structure SubjectEntry where
  subject : Bytes
  predicates : List PredicateEntry
  deriving DecidableEq, Repr

/-- The model is a list of elements with any number of subjects in each. -/
structure TransactionEntry where
  sourceAccount : Hash
  value : Bytes
  rdf : List (List SubjectEntry)
  deriving DecidableEq, Repr

structure Document where
  parent : Hash
  transactions : List TransactionEntry
  deriving DecidableEq, Repr

/-- The JSON values that the loader accepts for the parts of a document. Objects may have
members that it does not read. -/
structure ObjectEntry.Written (entry : ObjectEntry) (json : Json) : Prop where
  dataType : json.HasMember (text "datatype") (.string entry.dataType)
  type : json.HasMember (text "type") (.string entry.type)
  value : json.HasMember (text "value") (.string entry.value)

def PredicateEntry.Written (entry : PredicateEntry) (member : Bytes × Json) : Prop :=
  member.1 = entry.predicate ∧ ∃ objects, member.2 = .array objects ∧
    List.Forall₂ ObjectEntry.Written (entry.first :: entry.rest) objects

def SubjectEntry.Written (entry : SubjectEntry) (member : Bytes × Json) : Prop :=
  member.1 = entry.subject ∧ ∃ members, member.2 = .object members ∧
    List.Forall₂ PredicateEntry.Written entry.predicates members

def ElementWritten (subjects : List SubjectEntry) (json : Json) : Prop :=
  ∃ members, json = .object members ∧ List.Forall₂ SubjectEntry.Written subjects members

structure TransactionEntry.Written (entry : TransactionEntry) (json : Json) : Prop where
  sourceAccount : ∃ accountHash, json.HasMember (text "account_hash") (.string accountHash) ∧
    codec.hexDecode (cString accountHash) = some entry.sourceAccount
  value : json.HasMember (text "value") (.string entry.value)
  model : ∃ model rdf, json.HasMember (text "model") model ∧
    model.HasMember (text "rdf") (.array rdf) ∧ List.Forall₂ ElementWritten entry.rdf rdf

structure Document.Written (document : Document) (json : Json) : Prop where
  parent : ∃ parent, json.HasMember (text "parent") (.string parent) ∧
    codec.hexDecode parent = some document.parent
  transactions : ∃ elements, json.HasMember (text "transactions") (.array elements) ∧
    List.Forall₂ (TransactionEntry.Written codec) document.transactions elements

structure Triple where
  subject : Bytes
  predicate : Bytes
  object : ObjectEntry
  deriving DecidableEq, Repr

def triples (model : RDFModel) : List Triple :=
  (model.rdfDataFormat.filterMap rdfSubject?).flatMap fun subject =>
    subject.rdfPredicates.flatMap fun predicate =>
      predicate.rdfObjects.map fun object =>
        ⟨subject.subject, predicate.predicate, ⟨object.value, object.type, object.dataType⟩⟩

namespace TransactionEntry

def predicates (entry : TransactionEntry) : List (Bytes × PredicateEntry) :=
  entry.rdf.flatten.flatMap fun subject =>
    subject.predicates.map fun predicate => (subject.subject, predicate)

def triples (entry : TransactionEntry) : List Triple :=
  entry.predicates.flatMap fun listed =>
    (listed.2.first :: listed.2.rest).map fun object => ⟨listed.1, listed.2.predicate, object⟩

def SingleObjects (entry : TransactionEntry) : Prop :=
  ∀ listed ∈ entry.predicates, listed.2.rest = []

/-- Every further object of a predicate is a first one of the same subject and predicate. -/
def FurtherRepeatFirst (entry : TransactionEntry) : Prop :=
  ∀ listed ∈ entry.predicates, ∀ object ∈ listed.2.rest, ∃ other ∈ entry.predicates,
    other.1 = listed.1 ∧ other.2.predicate = listed.2.predicate ∧ other.2.first = object

end TransactionEntry

theorem stringOf_member {key : String} {value : Bytes} {jsonObj : Json}
    (h : jsonObj.HasMember (text key) (.string value)) : stringOf key jsonObj = .ok value :=
  h.getString

namespace ObjectEntry

/-- What the loader makes of an object, in the language of a new one. -/
def toObject (entry : ObjectEntry) : RDFObject :=
  ⟨entry.value, entry.type, text "en", entry.dataType⟩

theorem Written.load {entry : ObjectEntry} {json : Json} (h : entry.Written json) :
    loadObject json = .ok entry.toObject := by
  rw [loadObject, bind_ok (stringOf_member h.dataType), bind_ok (stringOf_member h.type),
    bind_ok (stringOf_member h.value)]
  rfl

end ObjectEntry

namespace PredicateEntry

def toPredicate (entry : PredicateEntry) : RDFPredicate := ⟨entry.predicate, [entry.first.toObject]⟩

/-- The first object is loaded, whatever is listed behind it. -/
theorem Written.load (subjectHelper : RDFSubject) (entry : PredicateEntry)
    (member : Bytes × Json) (h : entry.Written member) :
    loadPredicate subjectHelper member =
      .ok (RDFSubjectHelper.addPredicate entry.toPredicate subjectHelper) := by
  obtain ⟨hname, objects, hobjects, hall⟩ := h
  cases hall with
  | @cons _ first _ rest hfirst _ =>
    have hfront : member.2.front = .ok first := by
      rw [hobjects]
      rfl
    rw [loadPredicate, bind_ok hfront, bind_ok hfirst.load, hname]
    simp [RDFPredicateHelper.ofString, RDFPredicateHelper.addObject, toPredicate, pure, Except.pure]

end PredicateEntry

namespace SubjectEntry

def toSubject (entry : SubjectEntry) : RDFSubject :=
  ⟨entry.subject, entry.predicates.map PredicateEntry.toPredicate⟩

theorem foldl_addPredicate (entries : List PredicateEntry) (subject : RDFSubject) :
    entries.foldl (fun subject entry => RDFSubjectHelper.addPredicate entry.toPredicate subject)
        subject =
      ⟨subject.subject, subject.rdfPredicates ++ entries.map PredicateEntry.toPredicate⟩ := by
  induction entries generalizing subject with
  | nil => simp
  | cons entry entries ih =>
    rw [List.foldl_cons, ih]
    simp [RDFSubjectHelper.addPredicate]

theorem Written.load (modelHelper : RDFModel) (entry : SubjectEntry) (member : Bytes × Json)
    (h : entry.Written member) :
    loadSubject modelHelper member =
      .ok (RDFModelHelper.addSubject entry.toSubject modelHelper) := by
  obtain ⟨hname, members, hmembers, hall⟩ := h
  have hloop := foldlM_forall₂ PredicateEntry.Written.load hall
    (RDFSubjectHelper.ofString member.1)
  rw [loadSubject, hmembers, bind_ok (Json.items_object members), bind_ok hloop,
    foldl_addPredicate, hname]
  simp [RDFSubjectHelper.ofString, toSubject, pure, Except.pure]

end SubjectEntry

theorem foldl_addSubject (entries : List SubjectEntry) (model : RDFModel) :
    entries.foldl (fun model entry => RDFModelHelper.addSubject entry.toSubject model) model =
      ⟨model.action,
        model.rdfDataFormat ++ entries.map fun entry => .rdfSubject entry.toSubject⟩ := by
  induction entries generalizing model with
  | nil => simp
  | cons entry entries ih =>
    rw [List.foldl_cons, ih]
    simp [RDFModelHelper.addSubject]

theorem ElementWritten.load (model : RDFModel) (subjects : List SubjectEntry) (json : Json)
    (h : ElementWritten subjects json) :
    loadElement model json = .ok ⟨model.action,
      model.rdfDataFormat ++ subjects.map fun entry => .rdfSubject entry.toSubject⟩ := by
  obtain ⟨members, rfl, hall⟩ := h
  have hloop := foldlM_forall₂ SubjectEntry.Written.load hall model
  rw [loadElement, bind_ok (Json.items_object members), hloop, foldl_addSubject]

theorem foldl_elements (elements : List (List SubjectEntry)) (model : RDFModel) :
    elements.foldl (fun model subjects => RDFModel.mk model.action
        (model.rdfDataFormat ++ subjects.map fun entry => .rdfSubject entry.toSubject)) model =
      ⟨model.action,
        model.rdfDataFormat ++ elements.flatten.map fun entry => .rdfSubject entry.toSubject⟩ := by
  induction elements generalizing model with
  | nil => simp
  | cons subjects elements ih =>
    rw [List.foldl_cons, ih]
    simp

namespace TransactionEntry

def toModel (entry : TransactionEntry) : RDFModel :=
  ⟨.persist, entry.rdf.flatten.map fun subject => .rdfSubject subject.toSubject⟩

def firstTriples (entry : TransactionEntry) : List Triple :=
  entry.predicates.map fun listed => ⟨listed.1, listed.2.predicate, listed.2.first⟩

theorem loadModel_written {rdf : List Json} {model : Json} {entry : TransactionEntry}
    (hrdf : model.HasMember (text "rdf") (.array rdf))
    (hall : List.Forall₂ ElementWritten entry.rdf rdf) : loadModel model = .ok entry.toModel := by
  have hloop := foldlM_forall₂ ElementWritten.load hall RDFModelHelper.new
  rw [foldl_elements] at hloop
  rw [loadModel, bind_ok hrdf.subscript]
  exact hloop

theorem Written.load {codec : StringCodec} {entry : TransactionEntry} {json : Json}
    (h : entry.Written codec json) (parentHash : Hash) :
    loadTransaction codec parentHash json =
      .ok ⟨parentHash, entry.sourceAccount, Decimal.atol (cString entry.value), entry.toModel⟩ := by
  obtain ⟨accountHash, haccount, hdecode⟩ := h.sourceAccount
  obtain ⟨model, rdf, hmodel, hrdf, hall⟩ := h.model
  have hhash : HashHelper.ofText codec (cString accountHash) .hex = .ok entry.sourceAccount := by
    rw [HashHelper.ofText, StringCodec.decode, hdecode]
  rw [loadTransaction, bind_ok (mapError_eq_ok.mpr (stringOf_member haccount)),
    bind_ok (mapError_eq_ok.mpr hhash), bind_ok (mapError_eq_ok.mpr (stringOf_member h.value)),
    bind_ok (mapError_eq_ok.mpr hmodel.subscript),
    bind_ok (mapError_eq_ok.mpr (loadModel_written hrdf hall))]
  rfl

/-- The triples that the loader makes are those with the first objects. -/
theorem triples_toModel (entry : TransactionEntry) :
    GenesisLoader.triples entry.toModel = entry.firstTriples := by
  have hsubjects : entry.toModel.rdfDataFormat.filterMap rdfSubject? =
      entry.rdf.flatten.map SubjectEntry.toSubject := by
    rw [toModel, List.filterMap_map, ← List.filterMap_eq_map]
    rfl
  rw [GenesisLoader.triples, hsubjects, firstTriples, predicates, List.flatMap_map,
    List.map_flatMap]
  refine List.flatMap_congr ?_
  intro subject _
  rw [SubjectEntry.toSubject, List.flatMap_map, List.map_map]
  exact List.map_eq_flatMap.symm

theorem length_le_flatMap {α β : Type} {f : α → List β} (hf : ∀ a, 1 ≤ (f a).length) (as : List α) :
    as.length ≤ (as.flatMap f).length := by
  induction as with
  | nil => exact Nat.le_refl 0
  | cons a as ih =>
    have ha := hf a
    rw [List.flatMap_cons, List.length_append, List.length_cons]
    omega

/-- Where every element makes at least one, there are no more exactly if each makes one. -/
theorem length_flatMap_eq_iff {α β : Type} {f : α → List β} (hf : ∀ a, 1 ≤ (f a).length)
    (as : List α) : (as.flatMap f).length = as.length ↔ ∀ a ∈ as, (f a).length = 1 := by
  induction as with
  | nil => simp
  | cons a as ih =>
    have ha := hf a
    have hrest := length_le_flatMap hf as
    rw [List.forall_mem_cons, ← ih, List.flatMap_cons, List.length_append, List.length_cons]
    omega

/-- The triples are the first ones, with their multiplicity, for single objects only. -/
theorem perm_iff (entry : TransactionEntry) :
    entry.firstTriples.Perm entry.triples ↔ entry.SingleObjects := by
  have hlength := length_flatMap_eq_iff
    (f := fun listed : Bytes × PredicateEntry => (listed.2.first :: listed.2.rest).map fun object =>
      Triple.mk listed.1 listed.2.predicate object) (fun listed => by simp) entry.predicates
  constructor
  · intro hperm
    have hsame := hperm.length_eq
    rw [firstTriples, List.length_map] at hsame
    intro listed hlisted
    have hone := hlength.mp hsame.symm listed hlisted
    rw [List.length_map, List.length_cons] at hone
    exact List.length_eq_zero_iff.mp (by omega)
  · intro hsingle
    have hequal : entry.firstTriples = entry.triples := by
      rw [firstTriples, triples, List.map_eq_flatMap]
      refine List.flatMap_congr ?_
      intro listed hlisted
      rw [hsingle listed hlisted]
      rfl
    rw [hequal]

theorem mem_triples {entry : TransactionEntry} {triple : Triple} :
    triple ∈ entry.triples ↔ ∃ listed ∈ entry.predicates, triple.subject = listed.1 ∧
      triple.predicate = listed.2.predicate ∧
      (triple.object = listed.2.first ∨ triple.object ∈ listed.2.rest) := by
  rw [triples, List.mem_flatMap]
  refine exists_congr ?_
  intro listed
  refine and_congr_right ?_
  intro _
  obtain ⟨subject, predicate, object⟩ := triple
  rw [List.mem_map]
  constructor
  · intro h
    obtain ⟨found, hfound, heq⟩ := h
    obtain ⟨rfl, rfl, rfl⟩ := Triple.mk.inj heq
    exact ⟨rfl, rfl, List.mem_cons.mp hfound⟩
  · intro h
    obtain ⟨rfl, rfl, hobject⟩ := h
    exact ⟨object, List.mem_cons.mpr hobject, rfl⟩

theorem mem_firstTriples {entry : TransactionEntry} {triple : Triple} :
    triple ∈ entry.firstTriples ↔ ∃ listed ∈ entry.predicates, triple.subject = listed.1 ∧
      triple.predicate = listed.2.predicate ∧ triple.object = listed.2.first := by
  rw [firstTriples, List.mem_map]
  refine exists_congr ?_
  intro listed
  refine and_congr_right ?_
  intro _
  obtain ⟨subject, predicate, object⟩ := triple
  constructor
  · intro h
    obtain ⟨rfl, rfl, rfl⟩ := Triple.mk.inj h
    exact ⟨rfl, rfl, rfl⟩
  · intro h
    obtain ⟨rfl, rfl, rfl⟩ := h
    rfl

/-- As a set the triples are the first ones if the further objects repeat first ones. -/
theorem mem_iff (entry : TransactionEntry) :
    (∀ triple, triple ∈ entry.firstTriples ↔ triple ∈ entry.triples) ↔
      entry.FurtherRepeatFirst := by
  constructor
  · intro hsame listed hlisted object hobject
    have hmem : Triple.mk listed.1 listed.2.predicate object ∈ entry.triples :=
      mem_triples.mpr ⟨listed, hlisted, rfl, rfl, Or.inr hobject⟩
    obtain ⟨other, hother, hsubject, hpredicate, hfirst⟩ :=
      mem_firstTriples.mp ((hsame _).mpr hmem)
    exact ⟨other, hother, hsubject.symm, hpredicate.symm, hfirst.symm⟩
  · intro hrepeat triple
    rw [mem_firstTriples, mem_triples]
    constructor
    · intro h
      obtain ⟨listed, hlisted, hsubject, hpredicate, hfirst⟩ := h
      exact ⟨listed, hlisted, hsubject, hpredicate, Or.inl hfirst⟩
    · intro h
      obtain ⟨listed, hlisted, hsubject, hpredicate, hobject⟩ := h
      rcases hobject with hfirst | hrest
      · exact ⟨listed, hlisted, hsubject, hpredicate, hfirst⟩
      · obtain ⟨other, hother, hname, hkey, hfirst⟩ := hrepeat listed hlisted _ hrest
        exact ⟨other, hother, hsubject.trans hname.symm, hpredicate.trans hkey.symm, hfirst.symm⟩

end TransactionEntry

/-- Every document is loaded, and the RDF model of a transaction has the triples of its
model in the document, none missing and none added, exactly when further objects of a
predicate repeat first ones; with their multiplicity, when every predicate has one object. -/
theorem load_triples_iff (document : Document) (json : Json) (h : document.Written codec json) :
    ∃ transactions, load codec json = .ok transactions ∧
      List.Forall₂ (fun transaction entry => transaction.sourceAccount = entry.sourceAccount ∧
          ((∀ triple, triple ∈ triples transaction.model ↔ triple ∈ entry.triples) ↔
            entry.FurtherRepeatFirst) ∧
          ((triples transaction.model).Perm entry.triples ↔ entry.SingleObjects))
        transactions document.transactions := by
  obtain ⟨parent, hparent, hdecode⟩ := h.parent
  obtain ⟨elements, helements, hall⟩ := h.transactions
  have hhash : HashHelper.ofText codec parent .hex = .ok document.parent := by
    rw [HashHelper.ofText, StringCodec.decode, hdecode]
  have hloaded := mapM_forall₂ (f := loadTransaction codec document.parent)
    (S := fun transaction entry => transaction.sourceAccount = entry.sourceAccount ∧
      transaction.model = entry.toModel)
    (fun entry element hentry => ⟨_, hentry.load document.parent, rfl, rfl⟩) hall
  obtain ⟨transactions, htransactions, hmodels⟩ := hloaded
  refine ⟨transactions, ?_, hmodels.imp ?_⟩
  · rw [load, bind_ok (mapError_eq_ok.mpr (stringOf_member hparent)),
      bind_ok (mapError_eq_ok.mpr hhash), bind_ok (mapError_eq_ok.mpr helements.subscript)]
    exact htransactions
  · intro transaction entry hentry
    obtain ⟨haccount, hmodel⟩ := hentry
    rw [hmodel, entry.triples_toModel]
    exact ⟨haccount, entry.mem_iff, entry.perm_iff⟩

def pointsJson (objects : List Json) : Json :=
  .object [(text "parent", .string (text "09")),
    (text "transactions", .array [.object [(text "account_hash", .string (text "02")),
      (text "model", .object [(text "rdf", .array [.object [(text "account",
        .object [(text "points", .array objects)])]])]),
      (text "value", .string (text "5"))]])]

def literalJson (value : String) : Json :=
  .object [(text "datatype", .string (text "string")), (text "type", .string (text "literal")),
    (text "value", .string (text value))]

def literalEntry (value : String) : ObjectEntry := ⟨text value, text "literal", text "string"⟩

def pointsDocument (first : String) (rest : List String) : Document :=
  ⟨[9], [⟨[2], text "5", [[⟨text "account", [⟨text "points", literalEntry first,
    rest.map literalEntry⟩]⟩]]⟩]⟩

theorem literalJson_written (value : String) : (literalEntry value).Written (literalJson value) :=
  ⟨⟨_, rfl, rfl⟩, ⟨_, rfl, rfl⟩, ⟨_, rfl, rfl⟩⟩

theorem pointsJson_written (first : String) (rest : List String) :
    (pointsDocument first rest).Written .botan (pointsJson ((first :: rest).map literalJson)) := by
  have hobjects : List.Forall₂ ObjectEntry.Written ((first :: rest).map literalEntry)
      ((first :: rest).map literalJson) := by
    rw [List.forall₂_map_left_iff, List.forall₂_map_right_iff]
    exact List.forall₂_same.mpr fun value _ => literalJson_written value
  have hparent : StringCodec.botan.hexDecode (text "09") = some [9] := by decide +kernel
  have haccount : StringCodec.botan.hexDecode (cString (text "02")) = some [2] := by
    decide +kernel
  refine ⟨⟨text "09", ⟨_, rfl, rfl⟩, hparent⟩, _, ⟨_, rfl, rfl⟩, .cons ?_ .nil⟩
  refine ⟨⟨text "02", ⟨_, rfl, rfl⟩, haccount⟩, ⟨_, rfl, rfl⟩, _, _, ⟨_, rfl, rfl⟩,
    ⟨_, rfl, rfl⟩, .cons ⟨_, rfl, .cons ⟨rfl, _, rfl, .cons ⟨rfl, _, rfl, hobjects⟩ .nil⟩ .nil⟩
    .nil⟩

/-- The witness document has a second object that repeats the first one. -/
theorem load_triples_points :
    ∃ transactions, load .botan (pointsJson (["1", "1"].map literalJson)) = .ok transactions ∧
      List.Forall₂ (fun transaction entry => transaction.sourceAccount = entry.sourceAccount ∧
          ((∀ triple, triple ∈ triples transaction.model ↔ triple ∈ entry.triples) ↔
            entry.FurtherRepeatFirst) ∧
          ((triples transaction.model).Perm entry.triples ↔ entry.SingleObjects))
        transactions (pointsDocument "1" ["1"]).transactions :=
  load_triples_iff .botan (pointsDocument "1" ["1"]) _ (pointsJson_written "1" ["1"])

/-- A second object of a predicate is lost. -/
theorem second_object_lost :
    (pointsDocument "1" ["2"]).Written .botan (pointsJson (["1", "2"].map literalJson)) ∧
      ∃ model, load .botan (pointsJson (["1", "2"].map literalJson)) = .ok [⟨[9], [2], 5, model⟩] ∧
        triples model = [⟨text "account", text "points", literalEntry "1"⟩] ∧
        (pointsDocument "1" ["2"]).transactions.map TransactionEntry.triples =
          [[⟨text "account", text "points", literalEntry "1"⟩,
            ⟨text "account", text "points", literalEntry "2"⟩]] := by
  refine ⟨pointsJson_written "1" ["2"], ⟨.persist, [.rdfSubject ⟨text "account",
    [⟨text "points", [(literalEntry "1").toObject]⟩]⟩]⟩, by decide +kernel, by decide +kernel,
    by decide +kernel⟩

end Keto.Block.GenesisLoader
