import Keto.AccountDb.AccountRDFStatementBuilder
import Keto.Library.Overlay
import Keto.Library.Stateful
import Mathlib.Logic.Function.Basic

/-!
The account store: the accounts mapping in its rocksdb transaction, the graph
databases with the handles opened on them, and the sessions of the account
resource. The graph storage has no transactions, so what a session writes is
there at once and stays when the transaction is rolled back. The store makes the
name `base_graph` and names of hexadecimal digits, which have a directory each;
the base directory is configured and present.
-/
namespace Keto.AccountDb

open Protocol Library Library.Stateful

/-- A statement as handed to the graph library: strings up to the first zero byte. -/
inductive Node
  | uri (uri : Bytes)
  | typedLiteral (value dataType : Bytes)
  deriving DecidableEq, Repr

structure Statement where
  subject : Bytes
  predicate : Bytes
  object : Node
  deriving DecidableEq, Repr

/-- The graph library: a fresh model, `librdf_model_add_statement` and
`librdf_model_remove_statement`, whose result codes the source ignores. -/
structure Librdf (Graph : Type) where
  newModel : Graph
  addStatement : Statement → Graph → Graph
  removeStatement : Statement → Graph → Graph

/-- A graph as the set of its statements, listed as they were added. -/
def Librdf.statementList : Librdf (List Statement) where
  newModel := []
  addStatement statement graph := if statement ∈ graph then graph else graph ++ [statement]
  removeStatement statement graph := graph.filter (· ≠ statement)

/-- Neither URL is empty, nor is the object one that is. -/
def Statement.Complete (statement : Statement) : Prop :=
  statement.subject ≠ [] ∧ statement.predicate ≠ [] ∧ statement.object ≠ .uri []

instance (statement : Statement) : Decidable statement.Complete :=
  inferInstanceAs (Decidable (_ ∧ _))

/-- A storage, by the statements that hold in it. The library makes no node of an empty
URL, and refuses a statement that lacks one. -/
structure Librdf.Stores {Graph : Type} (librdf : Librdf Graph)
    (holds : Statement → Graph → Prop) : Prop where
  fresh : ∀ statement, ¬ holds statement librdf.newModel
  added : ∀ statement other graph, statement.Complete →
    (holds other (librdf.addStatement statement graph) ↔ holds other graph ∨ other = statement)
  refused : ∀ statement other graph, ¬ statement.Complete →
    (holds other (librdf.addStatement statement graph) ↔ holds other graph)

def Librdf.completeList : Librdf (List Statement) :=
  { Librdf.statementList with
    addStatement := fun statement graph =>
      if statement.Complete then Librdf.statementList.addStatement statement graph else graph }

theorem mem_addStatement (statement entry : Statement) (graph : List Statement) :
    entry ∈ Librdf.statementList.addStatement statement graph ↔
      entry ∈ graph ∨ entry = statement := by
  have hadd : Librdf.statementList.addStatement statement graph =
      if statement ∈ graph then graph else graph ++ [statement] := rfl
  rw [hadd]
  split
  next hmem =>
    constructor
    · exact .inl
    · rintro (hold | rfl)
      · exact hold
      · exact hmem
  next => rw [List.mem_append, List.mem_singleton]

theorem stores_completeList :
    Librdf.completeList.Stores fun statement graph => statement ∈ graph where
  fresh _ := List.not_mem_nil
  added statement other graph h := by
    simp only [Librdf.completeList, if_pos h]
    exact mem_addStatement statement other graph
  refused statement other graph h := by simp only [Librdf.completeList, if_neg h]

/-- A handle opened on the database of a name; two handles differ in `id`. -/
structure AccountGraphStore where
  id : ℕ
  dbName : Bytes
  deriving DecidableEq, Repr

def baseGraph : Bytes := text "base_graph"

structure AccountGraphStoreManager (Graph : Type) where
  graphs : Bytes → Option AccountGraphStore
  databases : Bytes → Option Graph
  opened : ℕ

variable {Graph : Type} (hex : HexCodec) (librdf : Librdf Graph)

namespace AccountGraphStoreManager

variable {librdf}

def empty : AccountGraphStoreManager Graph := ⟨fun _ => none, fun _ => none, 0⟩

def content (librdf : Librdf Graph) (manager : AccountGraphStoreManager Graph) (dbName : Bytes) :
    Graph :=
  (manager.databases dbName).getD librdf.newModel

/-- The constructor of `AccountGraphStore` creates the database where it is missing. -/
def openStore (librdf : Librdf Graph) (dbName : Bytes) (manager : AccountGraphStoreManager Graph) :
    AccountGraphStore × AccountGraphStoreManager Graph :=
  (⟨manager.opened, dbName⟩, { manager with
    databases := Function.update manager.databases dbName (some (manager.content librdf dbName))
    opened := manager.opened + 1 })

/-- Both ways of opening a store keep it under the name of the base graph. -/
def openCached (librdf : Librdf Graph) (dbName : Bytes)
    (manager : AccountGraphStoreManager Graph) :
    AccountGraphStore × AccountGraphStoreManager Graph :=
  let result := manager.openStore librdf dbName
  (result.1, { result.2 with
    graphs := Function.update result.2.graphs baseGraph (some result.1) })

def create (librdf : Librdf Graph) (databases : Bytes → Option Graph) :
    AccountGraphStoreManager Graph :=
  let manager : AccountGraphStoreManager Graph := ⟨fun _ => none, databases, 0⟩
  if (databases baseGraph).isSome then (manager.openCached librdf baseGraph).2 else manager

/-- `operator []`. -/
def get (librdf : Librdf Graph) (dbName : Bytes) (manager : AccountGraphStoreManager Graph) :
    Option AccountGraphStore × AccountGraphStoreManager Graph :=
  match manager.graphs dbName with
  | some graphStore => (some graphStore, manager)
  | none =>
    if (manager.databases dbName).isSome then
      let result := manager.openCached librdf dbName
      (some result.1, result.2)
    else (none, manager)

def checkForDb (manager : AccountGraphStoreManager Graph) (dbName : Bytes) : Bool :=
  (manager.graphs dbName).isSome || (manager.databases dbName).isSome

def createStore (librdf : Librdf Graph) (dbName : Bytes)
    (manager : AccountGraphStoreManager Graph) :
    Except AccountDbFailure AccountGraphStore × AccountGraphStoreManager Graph :=
  if (manager.databases dbName).isSome then
    (.error (.duplicateGraphDB (text "Graph db has been created by this name : " ++ dbName)),
      manager)
  else
    let result := manager.openCached librdf dbName
    (.ok result.1, result.2)

end AccountGraphStoreManager

structure AccountPut where
  accountHash : Hash
  accountInfo : AccountInfo

def AccountPut.apply (put : AccountPut) (accounts : Hash → Option AccountInfo) :
    Hash → Option AccountInfo :=
  Function.update accounts put.accountHash (some put.accountInfo)

structure AccountStore (Graph : Type) where
  accounts : Overlay (Hash → Option AccountInfo) AccountPut
  graphStores : AccountGraphStoreManager Graph
  sessions : Bytes → Option AccountGraphStore

abbrev AccountM (Graph : Type) := EStateM AccountDbFailure (AccountStore Graph)

namespace AccountStore

def empty : AccountStore Graph := ⟨⟨fun _ => none, []⟩, .empty, fun _ => none⟩

def getAccountInfo (store : AccountStore Graph) (accountHash : Hash) : Option AccountInfo :=
  store.accounts.view AccountPut.apply accountHash

def setAccountInfo (accountHash : Hash) (accountInfo : AccountInfo) (store : AccountStore Graph) :
    AccountStore Graph :=
  { store with accounts := store.accounts.putAll [⟨accountHash, accountInfo⟩] }

def masterGraph (accountHash : Hash) (accountInfo : AccountInfo) : AccountM Graph Bytes := do
  let graphName :=
    if accountInfo.parentAccountHash = [] then baseGraph else hex.hexEncode accountHash
  let store ← get
  if !store.graphStores.checkForDb graphName then
    let result := store.graphStores.createStore librdf graphName
    set { store with graphStores := result.2 }
    discard (fromExcept result.1)
  return graphName

def inheritedGraph (accountHash : Hash) (accountInfo : AccountInfo) : AccountM Graph Bytes := do
  let store ← get
  match store.getAccountInfo accountInfo.parentAccountHash with
  | some parent => return parent.graphName
  | none => throw (.invalidParentAccount
      (text "The parent account [" ++ hex.hexEncode accountInfo.parentAccountHash ++
        text "] was not found for the account [" ++ hex.hexEncode accountHash ++
        text "][" ++ accountInfo.accountType ++ text "]"))

def createAccount (accountHash : Hash) (builder : AccountRDFStatementBuilder) :
    AccountM Graph AccountInfo := do
  if builder.action ≠ AccountSystemOntologyTypes.accountCreateObjectStatus then
    throw (.invalidAccountOperation
      (text "The account does not exist [" ++ hex.hexEncode accountHash ++ text "]"))
  let accountInfo := builder.accountInfo
  let graphName ←
    if accountInfo.accountType = AccountSystemOntologyTypes.masterType then
      masterGraph hex librdf accountHash accountInfo
    else
      inheritedGraph hex accountHash accountInfo
  let accountInfo := { accountInfo with graphName := graphName }
  modify (setAccountInfo accountHash accountInfo)
  return accountInfo

/-- The session of a graph name; on a null store its constructor reads a null pointer. -/
def getGraphSession (name : Bytes) : AccountM Graph AccountGraphStore := do
  let store ← get
  match store.sessions name with
  | some session => return session
  | none =>
    let result := store.graphStores.get librdf name
    set { store with graphStores := result.2 }
    match result.1 with
    | none => throw .nullGraphStore
    | some session =>
      modify fun store => { store with
        sessions := Function.update store.sessions name (some session) }
      return session

end AccountStore

namespace AccountGraphSession

def statement (subject : RDFSubject) (predicate : RDFPredicate) (object : RDFObject) :
    Except AccountDbFailure Statement :=
  if object.type = RDFObjectHelper.literal then
    .ok ⟨cString subject.subject, cString predicate.predicate,
      .typedLiteral object.value object.dataType⟩
  else if object.type = RDFObjectHelper.uri then
    .ok ⟨cString subject.subject, cString predicate.predicate, .uri object.value⟩
  else
    .error (.unsupportedDataTypeTransaction
      (text "The rdf format [" ++ object.type ++ text "] is currently not supported"))

def writeModel (session : AccountGraphStore) (write : Graph → Graph) (store : AccountStore Graph) :
    AccountStore Graph :=
  { store with graphStores := { store.graphStores with
      databases := Function.update store.graphStores.databases session.dbName
        (some (write (store.graphStores.content librdf session.dbName))) } }

/-- The loop that `persist` and `remove` run over the objects of a subject. -/
def writeSubject (write : Statement → Graph → Graph) (session : AccountGraphStore) :
    RDFDataFormat → AccountM Graph PUnit
  | .rdfNtGroup => throw .otherVariantAsSubject
  | .rdfSubject subject =>
    subject.rdfPredicates.forM fun predicate =>
      (RDFPredicateHelper.listObjects predicate).forM fun object => do
        let entry ← fromExcept (statement subject predicate object)
        modify (writeModel librdf session (write entry))

def persist (session : AccountGraphStore) : RDFDataFormat → AccountM Graph PUnit :=
  writeSubject librdf librdf.addStatement session

def remove (session : AccountGraphStore) : RDFDataFormat → AccountM Graph PUnit :=
  writeSubject librdf librdf.removeStatement session

end AccountGraphSession

namespace AccountStore

open AccountGraphSession

def resolveAccount (message : TransactionMessage) :
    AccountM Graph (AccountInfo × AccountRDFStatementBuilder) := do
  let store ← get
  match store.getAccountInfo (phaseAccount message) with
  | none =>
    let builder ← fromExcept (AccountRDFStatementBuilder.create hex message false)
    let accountInfo ← createAccount hex librdf (phaseAccount message) builder
    return (accountInfo, builder)
  | some accountInfo =>
    let builder ← fromExcept (AccountRDFStatementBuilder.create hex message true)
    return (accountInfo, builder)

/-- One statement: every action but `persist` removes. -/
def applyStatement (session : AccountGraphStore) (model : RDFModel) : AccountM Graph PUnit :=
  (RDFModelHelper.getSubjects model).forM fun subject =>
    if model.action = .persist then persist librdf session subject
    else remove librdf session subject

def applyTransaction (message : TransactionMessage) : AccountM Graph PUnit := do
  let (accountInfo, builder) ← resolveAccount hex librdf message
  let session ← getGraphSession librdf accountInfo.graphName
  builder.statements.forM (applyStatement librdf session)

def commit (store : AccountStore Graph) : AccountStore Graph :=
  { store with
    accounts := store.accounts.commit AccountPut.apply
    sessions := fun _ => none }

/-- It is rolled back; the graphs stay as they are. -/
def rollback (store : AccountStore Graph) : AccountStore Graph :=
  { store with
    accounts := store.accounts.rollback
    sessions := fun _ => none }

end AccountStore

end Keto.AccountDb
