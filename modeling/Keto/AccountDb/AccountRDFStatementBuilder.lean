import Keto.AccountDb.HexCodec
import Keto.AccountDb.RDFHelpers
import Keto.Library.Fallible
import Mathlib.Data.Nat.Notation

/-!
The statements of a transaction message for the account store, and the account
that the account subjects among them describe. The builder validates each
subject as it meets it; a later account subject overwrites what an earlier one
said of the account, except that a parent stays when the later one names none.
-/
namespace Keto.AccountDb

open Protocol Library.Fallible

structure AccountInfo where
  version : ℕ
  accountHash : Bytes
  parentAccountHash : Bytes
  accountType : Bytes
  graphName : Bytes
  deriving DecidableEq, Repr

def protocolVersion : ℕ := 1

/-- The account of the phase as the store and the builder select it: none, that
is the empty hash, while the status is `processing` or `wating`. -/
def phaseAccount (message : TransactionMessage) : Hash :=
  if message.currentStatus = .debit ∨ message.currentStatus = .init then message.sourceAccount
  else if message.currentStatus = .fee then message.feeAccount
  else if message.currentStatus = .credit ∨ message.currentStatus = .complete then
    message.targetAccount
  else []

namespace AccountSystemOntologyTypes

def accountOntologyClass : Bytes := text "http://keto-coin.io/schema/rdf/1.0/keto/Account#Account"

def statusPredicate : Bytes := text "http://keto-coin.io/schema/rdf/1.0/keto/Account#status"

def idPredicate : Bytes := text "http://keto-coin.io/schema/rdf/1.0/keto/Account#id"

def parentPredicate : Bytes := text "http://keto-coin.io/schema/rdf/1.0/keto/Account#parent"

def typePredicate : Bytes := text "http://keto-coin.io/schema/rdf/1.0/keto/Account#type"

def accountCreateObjectStatus : Bytes := text "create"

/-- `ACCOUNT_TYPE::MASTER`; no other account type is compared with. -/
def masterType : Bytes := text "master"

def ontologyClasses : List Bytes := [accountOntologyClass]

def objectEqual (objects : List RDFObject) (value : Bytes) : Bool :=
  objects.any fun object => object.value = value

def isAccountOntologyClass (subject : RDFSubject) : Bool :=
  RDFSubjectHelper.getOntologyClass subject = accountOntologyClass

/-- A new account must be created under its own hash; any object of the two
predicates may say so. -/
def validateClassOperation (hex : HexCodec) (accountHash : Hash) (existingAccount : Bool)
    (subject : RDFSubject) : Except AccountDbFailure Bool := do
  if !ontologyClasses.contains (RDFSubjectHelper.getOntologyClass subject) then
    return true
  if RDFSubjectHelper.getOntologyClass subject = accountOntologyClass ∧ !existingAccount then
    let status ← RDFSubjectHelper.get subject statusPredicate
    if !objectEqual (RDFPredicateHelper.listObjects status) accountCreateObjectStatus then
      return false
    let id ← RDFSubjectHelper.get subject idPredicate
    return objectEqual (RDFPredicateHelper.listObjects id) (hex.hexEncode accountHash)
  return true

end AccountSystemOntologyTypes

open AccountSystemOntologyTypes

namespace AccountRDFStatement

/-- Bytes that are no RDF model leave a helper over a null model. -/
def create : ChangeData → Except AccountDbFailure (Option RDFModel)
  | .binaryChange _ => .error .unsupportedChangeTypeFormat
  | .asn1Change model => .ok model

def getModel : Option RDFModel → Except AccountDbFailure RDFModel
  | some model => .ok model
  | none => .error .nullModel

end AccountRDFStatement

structure AccountRDFStatementBuilder where
  statements : List RDFModel
  accountInfo : AccountInfo
  action : Bytes
  deriving DecidableEq, Repr

namespace AccountRDFStatementBuilder

def empty : AccountRDFStatementBuilder where
  statements := []
  accountInfo := ⟨protocolVersion, [], [], [], []⟩
  action := []

/-- `HashHelper(literal, HEX)` of the first object of a predicate. -/
def hashLiteral (hex : HexCodec) (subject : RDFSubject) (predicate : Bytes) :
    Except AccountDbFailure Bytes := do
  let entry ← RDFSubjectHelper.get subject predicate
  match hex.hexDecode (RDFPredicateHelper.getStringLiteral entry) with
  | some hash => .ok hash
  | none => .error .invalidHexArgument

def parentOf (hex : HexCodec) (subject : RDFSubject) (parent : Bytes) :
    Except AccountDbFailure Bytes :=
  if RDFSubjectHelper.containsPredicate subject parentPredicate then
    hashLiteral hex subject parentPredicate
  else .ok parent

def describeAccount (hex : HexCodec) (subject : RDFSubject)
    (builder : AccountRDFStatementBuilder) :
    Except AccountDbFailure AccountRDFStatementBuilder := do
  let status ← RDFSubjectHelper.get subject statusPredicate
  let accountHash ← hashLiteral hex subject idPredicate
  let parent ← parentOf hex subject builder.accountInfo.parentAccountHash
  let type ← RDFSubjectHelper.get subject typePredicate
  return { builder with
    action := RDFPredicateHelper.getStringLiteral status
    accountInfo := { builder.accountInfo with
      accountHash := accountHash
      parentAccountHash := parent
      accountType := RDFPredicateHelper.getStringLiteral type } }

/-- One subject name of a model: the first entry of that name is validated and read. -/
def addSubject (hex : HexCodec) (message : TransactionMessage) (existingAccount : Bool)
    (model : RDFModel) (builder : AccountRDFStatementBuilder) (name : Bytes) :
    Except AccountDbFailure AccountRDFStatementBuilder := do
  let subject ← RDFModelHelper.get model name
  let valid ← validateClassOperation hex (phaseAccount message) existingAccount subject
  if !valid then
    throw (.invalidAccountOperation (text "The operation on the account is invalid."))
  if isAccountOntologyClass subject then
    describeAccount hex subject builder
  else
    return builder

def addChange (hex : HexCodec) (message : TransactionMessage) (existingAccount : Bool)
    (builder : AccountRDFStatementBuilder) (change : ChangeData) :
    Except AccountDbFailure AccountRDFStatementBuilder := do
  let statement ← AccountRDFStatement.create change
  let model ← AccountRDFStatement.getModel statement
  let described ←
    (RDFModelHelper.subjects model).foldlM (addSubject hex message existingAccount model) builder
  return { described with statements := described.statements ++ [model] }

def changes (message : TransactionMessage) : List ChangeData :=
  message.changeSet.flatMap fun signedChangeSet => signedChangeSet.changeSet.changes

def create (hex : HexCodec) (message : TransactionMessage) (existingAccount : Bool) :
    Except AccountDbFailure AccountRDFStatementBuilder :=
  (changes message).foldlM (addChange hex message existingAccount) empty

/-- A subject of the account class with one literal a predicate, as genesis files have them. -/
def genesisSubject (name : Bytes) (literals : List (Bytes × Bytes)) : RDFSubject where
  subject := accountOntologyClass ++ text "/" ++ name
  rdfPredicates := literals.map fun entry =>
    ⟨entry.1, [RDFObjectHelper.ofLiteral entry.2 (text "http://www.w3.org/2001/XMLSchema#string")]⟩

example : isAccountOntologyClass (genesisSubject (text "AB") []) = true := by decide

def literal (subject : RDFSubject) (predicate : Bytes) : Bytes :=
  match RDFSubjectHelper.get subject predicate with
  | .ok entry => RDFPredicateHelper.getStringLiteral entry
  | .error _ => []

def model? : ChangeData → Option RDFModel
  | .asn1Change model => model
  | .binaryChange _ => none

/-- The account subject read under a name: the first entry of that name, if of the class. -/
def accountSubject? (model : RDFModel) (name : Bytes) : Option RDFSubject :=
  (RDFModelHelper.get model name).toOption.filter fun subject => isAccountOntologyClass subject

def accountSubjects (model : RDFModel) : List RDFSubject :=
  (RDFModelHelper.subjects model).filterMap (accountSubject? model)

def models (message : TransactionMessage) : List RDFModel := (changes message).filterMap model?

/-- The parent that account subjects name: the last one that has the predicate decides. -/
def namedParent (hex : HexCodec) (subjects : List RDFSubject) : Bytes :=
  match (subjects.filter fun subject =>
      RDFSubjectHelper.containsPredicate subject parentPredicate).getLast? with
  | some subject => (hex.hexDecode (literal subject parentPredicate)).getD []
  | none => []

/-- The builder holds what the account subjects say, the last one overwriting. -/
structure Describes (hex : HexCodec) (subjects : List RDFSubject)
    (builder : AccountRDFStatementBuilder) : Prop where
  action : builder.action =
    (subjects.getLast?.map fun subject => literal subject statusPredicate).getD []
  accountHash : ∀ subject, subjects.getLast? = some subject →
    hex.hexDecode (literal subject idPredicate) = some builder.accountInfo.accountHash
  parentAccountHash : builder.accountInfo.parentAccountHash = namedParent hex subjects
  accountType : builder.accountInfo.accountType =
    (subjects.getLast?.map fun subject => literal subject typePredicate).getD []

variable {hex : HexCodec} {message : TransactionMessage} {existing : Bool}

theorem literal_of_get {subject : RDFSubject} {predicate : Bytes} {entry : RDFPredicate}
    (h : RDFSubjectHelper.get subject predicate = .ok entry) :
    RDFPredicateHelper.getStringLiteral entry = literal subject predicate := by
  rw [literal, h]

theorem hashLiteral_eq_ok {subject : RDFSubject} {predicate hash : Bytes}
    (h : hashLiteral hex subject predicate = .ok hash) :
    hex.hexDecode (literal subject predicate) = some hash := by
  obtain ⟨entry, hentry, hrest⟩ := bind_eq_ok.mp h
  rw [← literal_of_get hentry]
  cases hdecode : hex.hexDecode (RDFPredicateHelper.getStringLiteral entry) with
  | none =>
    simp only [hdecode] at hrest
    exact absurd hrest (by simp)
  | some decoded =>
    simp only [hdecode] at hrest
    exact congrArg some (Except.ok.inj hrest)

theorem describes_empty : Describes hex [] empty := by
  refine ⟨rfl, ?_, rfl, rfl⟩
  intro subject hsubject
  exact absurd hsubject (by simp)

theorem parentOf_eq_ok {subjects : List RDFSubject} {subject : RDFSubject} {parent : Bytes}
    (h : parentOf hex subject (namedParent hex subjects) = .ok parent) :
    parent = namedParent hex (subjects ++ [subject]) := by
  unfold parentOf at h
  cases hnames : RDFSubjectHelper.containsPredicate subject parentPredicate with
  | true =>
    rw [hnames, if_pos rfl] at h
    simp [namedParent, List.filter_append, hnames, hashLiteral_eq_ok h]
  | false =>
    rw [hnames] at h
    obtain rfl := Except.ok.inj h
    simp [namedParent, List.filter_append, hnames]

theorem Describes.describeAccount {subjects : List RDFSubject} {subject : RDFSubject}
    {builder described : AccountRDFStatementBuilder} (hbuilder : Describes hex subjects builder)
    (h : describeAccount hex subject builder = .ok described) :
    Describes hex (subjects ++ [subject]) described ∧
      described.statements = builder.statements := by
  obtain ⟨status, hstatus, hrest⟩ := bind_eq_ok.mp h
  obtain ⟨accountHash, hhash, hrest⟩ := bind_eq_ok.mp hrest
  obtain ⟨parent, hparent, hrest⟩ := bind_eq_ok.mp hrest
  obtain ⟨type, htype, hrest⟩ := bind_eq_ok.mp hrest
  obtain rfl := Except.ok.inj hrest
  have hlast : (subjects ++ [subject]).getLast? = some subject := by simp
  rw [hbuilder.parentAccountHash] at hparent
  refine ⟨⟨?_, ?_, parentOf_eq_ok hparent, ?_⟩, rfl⟩
  · rw [hlast]
    exact literal_of_get hstatus
  · intro last hmem
    obtain rfl := Option.some.inj (hlast.symm.trans hmem)
    exact hashLiteral_eq_ok hhash
  · rw [hlast]
    exact literal_of_get htype

theorem addSubject_eq_ok {model : RDFModel} {name : Bytes}
    {builder added : AccountRDFStatementBuilder}
    (h : addSubject hex message existing model builder name = .ok added) :
    ∃ subject, RDFModelHelper.get model name = .ok subject ∧
      validateClassOperation hex (phaseAccount message) existing subject = .ok true ∧
      ((isAccountOntologyClass subject = true ∧ describeAccount hex subject builder = .ok added) ∨
        (isAccountOntologyClass subject = false ∧ added = builder)) := by
  obtain ⟨subject, hsubject, hrest⟩ := bind_eq_ok.mp h
  obtain ⟨valid, hvalid, hrest⟩ := bind_eq_ok.mp hrest
  refine ⟨subject, hsubject, ?_⟩
  cases valid with
  | false => exact absurd hrest (by simp [throw, throwThe, MonadExceptOf.throw, bind, Except.bind])
  | true =>
    refine ⟨hvalid, ?_⟩
    cases hclass : isAccountOntologyClass subject with
    | true =>
      rw [hclass] at hrest
      exact Or.inl ⟨rfl, hrest⟩
    | false =>
      rw [hclass] at hrest
      exact Or.inr ⟨rfl, (Except.ok.inj hrest).symm⟩

theorem Describes.addSubject {subjects : List RDFSubject} {model : RDFModel} {name : Bytes}
    {builder added : AccountRDFStatementBuilder} (hbuilder : Describes hex subjects builder)
    (h : addSubject hex message existing model builder name = .ok added) :
    Describes hex (subjects ++ (accountSubject? model name).toList) added ∧
      added.statements = builder.statements := by
  obtain ⟨subject, hsubject, _, hcase⟩ := addSubject_eq_ok h
  rcases hcase with ⟨hclass, hdescribe⟩ | ⟨hclass, rfl⟩
  · have hread : accountSubject? model name = some subject := by
      simp [accountSubject?, hsubject, Except.toOption, hclass]
    rw [hread]
    exact hbuilder.describeAccount hdescribe
  · have hread : accountSubject? model name = none := by
      simp [accountSubject?, hsubject, Except.toOption, hclass]
    rw [hread, Option.toList_none, List.append_nil]
    exact ⟨hbuilder, rfl⟩

theorem filterMap_snoc {α β : Type} (f : α → Option β) (as : List α) (a : α) :
    (as ++ [a]).filterMap f = as.filterMap f ++ (f a).toList := by
  rw [List.filterMap_append]
  cases h : f a with
  | none => simp [h]
  | some b => simp [h]

theorem Describes.addChange {subjects : List RDFSubject} {change : ChangeData}
    {builder added : AccountRDFStatementBuilder} (hbuilder : Describes hex subjects builder)
    (h : addChange hex message existing builder change = .ok added) :
    ∃ model, model? change = some model ∧
      Describes hex (subjects ++ accountSubjects model) added ∧
      added.statements = builder.statements ++ [model] := by
  obtain ⟨statement, hstatement, hrest⟩ := bind_eq_ok.mp h
  obtain ⟨model, hmodel, hrest⟩ := bind_eq_ok.mp hrest
  obtain ⟨described, hfold, hrest⟩ := bind_eq_ok.mp hrest
  obtain rfl := Except.ok.inj hrest
  have hfound : model? change = some model := by
    cases change with
    | binaryChange data => exact absurd hstatement (by simp [AccountRDFStatement.create])
    | asn1Change content =>
      obtain rfl := Except.ok.inj hstatement
      cases content with
      | none => exact absurd hmodel (by simp [AccountRDFStatement.getModel])
      | some found => exact congrArg some (Except.ok.inj hmodel)
  have hloop := foldlM_history
    (fun names b => Describes hex (subjects ++ names.filterMap (accountSubject? model)) b ∧
      b.statements = builder.statements)
    (fun names b name b' hb hadd => by
      obtain ⟨hdescribes, hstatements⟩ := hb.1.addSubject hadd
      rw [filterMap_snoc, ← List.append_assoc]
      exact ⟨hdescribes, hstatements.trans hb.2⟩)
    ⟨by simpa using hbuilder, rfl⟩ hfold
  refine ⟨model, hfound, ⟨hloop.1.action, hloop.1.accountHash, hloop.1.parentAccountHash,
    hloop.1.accountType⟩, ?_⟩
  exact congrArg (· ++ [model]) hloop.2

/-- What a builder that is constructed holds: every model of the message, and
the account its account subjects describe. -/
theorem create_eq_ok {builder : AccountRDFStatementBuilder}
    (h : create hex message existing = .ok builder) :
    builder.statements = models message ∧
      Describes hex ((models message).flatMap accountSubjects) builder := by
  have hloop := foldlM_history
    (fun done b => b.statements = done.filterMap model? ∧
      Describes hex ((done.filterMap model?).flatMap accountSubjects) b)
    (fun done b change b' hb hadd => by
      obtain ⟨model, hmodel, hdescribes, hstatements⟩ := hb.2.addChange hadd
      rw [filterMap_snoc, hmodel, Option.toList_some, List.flatMap_append, hstatements, hb.1]
      refine ⟨rfl, ?_⟩
      simpa using hdescribes)
    ⟨rfl, describes_empty⟩ h
  exact hloop

end AccountRDFStatementBuilder

end Keto.AccountDb
