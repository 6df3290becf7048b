import Keto.AccountDb.AccountStore

/-!
What the functions of the account store do to the accounts mapping and to the
contents of the graphs. Opening a graph changes no content; of all functions
only `createAccount` writes to the mapping, one entry that depends on the
message and on the mapping alone; and a session writes to one database.
-/
namespace Keto.AccountDb

open Protocol Library Library.Stateful

variable {Graph : Type} {hex : HexCodec} {librdf : Librdf Graph}

namespace AccountGraphStoreManager

theorem content_openCached (librdf : Librdf Graph) (manager : AccountGraphStoreManager Graph)
    (dbName : Bytes) :
    (manager.openCached librdf dbName).2.content librdf = manager.content librdf := by
  funext name
  by_cases hname : name = dbName
  · simp [openCached, openStore, content, hname]
  · simp [openCached, openStore, content, hname]

theorem content_get (librdf : Librdf Graph) (manager : AccountGraphStoreManager Graph)
    (dbName : Bytes) :
    (manager.get librdf dbName).2.content librdf = manager.content librdf := by
  unfold get
  split
  · rfl
  · split
    · exact content_openCached librdf manager dbName
    · rfl

theorem get_of_cached {manager : AccountGraphStoreManager Graph} {dbName : Bytes}
    {graphStore : AccountGraphStore} (h : manager.graphs dbName = some graphStore) :
    manager.get librdf dbName = (some graphStore, manager) := by
  rw [get, h]

theorem get_of_missing {manager : AccountGraphStoreManager Graph} {dbName : Bytes}
    (hcache : manager.graphs dbName = none) (hdisk : manager.databases dbName = none) :
    manager.get librdf dbName = (none, manager) := by
  rw [get, hcache, hdisk]
  rfl

theorem get_of_stored {manager : AccountGraphStoreManager Graph} {dbName : Bytes}
    (hcache : manager.graphs dbName = none) (hdisk : manager.databases dbName ≠ none) :
    manager.get librdf dbName = (some (manager.openCached librdf dbName).1,
      (manager.openCached librdf dbName).2) := by
  rw [get, hcache]
  exact if_pos (Option.isSome_iff_ne_none.mpr hdisk)

theorem createStore_of_missing {manager : AccountGraphStoreManager Graph} {dbName : Bytes}
    (hdisk : manager.databases dbName = none) :
    manager.createStore librdf dbName = (.ok (manager.openCached librdf dbName).1,
      (manager.openCached librdf dbName).2) := by
  rw [createStore, hdisk]
  rfl

theorem databases_of_not_checkForDb {manager : AccountGraphStoreManager Graph} {dbName : Bytes}
    (h : manager.checkForDb dbName = false) : manager.databases dbName = none := by
  simp only [checkForDb, Bool.or_eq_false_iff] at h
  exact Option.isNone_iff_eq_none.mp (Option.isSome_eq_false_iff.mp h.2)

end AccountGraphStoreManager

namespace AccountStore

def contents (librdf : Librdf Graph) (store : AccountStore Graph) : Bytes → Graph :=
  store.graphStores.content librdf

theorem getAccountInfo_setAccountInfo (accountHash : Hash) (accountInfo : AccountInfo)
    (store : AccountStore Graph) :
    (store.setAccountInfo accountHash accountInfo).getAccountInfo =
      Function.update store.getAccountInfo accountHash (some accountInfo) := by
  funext hash
  rw [getAccountInfo, setAccountInfo, Overlay.view_putAll]
  rfl

/-- The graph name of a new account: its own or the base graph for a master,
the parent's for any other. -/
def newGraph (hex : HexCodec) (accountHash : Hash) (accountInfo : AccountInfo)
    (accounts : Hash → Option AccountInfo) : Option Bytes :=
  if accountInfo.accountType = AccountSystemOntologyTypes.masterType then
    some (if accountInfo.parentAccountHash = [] then baseGraph else hex.hexEncode accountHash)
  else (accounts accountInfo.parentAccountHash).map AccountInfo.graphName

def newAccount (hex : HexCodec) (accountHash : Hash) (builder : AccountRDFStatementBuilder)
    (accounts : Hash → Option AccountInfo) : Option AccountInfo :=
  if builder.action = AccountSystemOntologyTypes.accountCreateObjectStatus then
    (newGraph hex accountHash builder.accountInfo accounts).map fun graphName =>
      { builder.accountInfo with graphName := graphName }
  else none

/-- The entry that `applyTransaction` stores: none when the account exists,
when the builder throws and when `createAccount` does. -/
def createdAccount (hex : HexCodec) (message : TransactionMessage)
    (accounts : Hash → Option AccountInfo) : Option AccountInfo :=
  match accounts (phaseAccount message) with
  | some _ => none
  | none =>
    match AccountRDFStatementBuilder.create hex message false with
    | .ok builder => newAccount hex (phaseAccount message) builder accounts
    | .error _ => none

variable {store : AccountStore Graph}

def openedFor (librdf : Librdf Graph) (accountInfo : AccountInfo)
    (manager : AccountGraphStoreManager Graph) : AccountGraphStoreManager Graph :=
  if accountInfo.accountType = AccountSystemOntologyTypes.masterType ∧
      manager.checkForDb accountInfo.graphName = false then
    (manager.openCached librdf accountInfo.graphName).2
  else manager

theorem content_openedFor (librdf : Librdf Graph) (accountInfo : AccountInfo)
    (manager : AccountGraphStoreManager Graph) :
    (openedFor librdf accountInfo manager).content librdf = manager.content librdf := by
  unfold openedFor
  split
  · exact AccountGraphStoreManager.content_openCached librdf manager accountInfo.graphName
  · rfl

/-- `masterGraph` never throws: a store is created only where there is none. -/
theorem masterGraph_eq_ok (hex : HexCodec) (librdf : Librdf Graph) (accountHash : Hash)
    {accountInfo : AccountInfo} {graphName : Bytes}
    (hmaster : accountInfo.accountType = AccountSystemOntologyTypes.masterType)
    (hname : (if accountInfo.parentAccountHash = [] then baseGraph
      else hex.hexEncode accountHash) = graphName) (store : AccountStore Graph) :
    masterGraph hex librdf accountHash accountInfo store = .ok graphName { store with
      graphStores :=
        openedFor librdf { accountInfo with graphName := graphName } store.graphStores } := by
  unfold masterGraph openedFor
  simp only [hname, hmaster, true_and]
  cases hcheck : store.graphStores.checkForDb graphName with
  | true =>
    rw [get_bind, hcheck]
    rfl
  | false =>
    rw [get_bind, hcheck,
      AccountGraphStoreManager.createStore_of_missing
        (AccountGraphStoreManager.databases_of_not_checkForDb hcheck)]
    rfl

theorem inheritedGraph_of_some {accountHash : Hash} {accountInfo parent : AccountInfo}
    (h : store.getAccountInfo accountInfo.parentAccountHash = some parent) :
    inheritedGraph hex accountHash accountInfo store = .ok parent.graphName store := by
  rw [inheritedGraph, get_bind, h]
  rfl

theorem inheritedGraph_of_none (hex : HexCodec) (accountHash : Hash) {accountInfo : AccountInfo}
    (h : store.getAccountInfo accountInfo.parentAccountHash = none) :
    ∃ e, inheritedGraph hex accountHash accountInfo store = .error e store := by
  rw [inheritedGraph, get_bind, h]
  exact ⟨_, rfl⟩

/-- `createAccount` stores its entry and may open a graph, or throws and changes nothing. -/
theorem createAccount_cases (hex : HexCodec) (librdf : Librdf Graph) (accountHash : Hash)
    (builder : AccountRDFStatementBuilder) (store : AccountStore Graph) :
    (∃ accountInfo,
      newAccount hex accountHash builder store.getAccountInfo = some accountInfo ∧
      createAccount hex librdf accountHash builder store = .ok accountInfo
        (setAccountInfo accountHash accountInfo
          { store with graphStores := openedFor librdf accountInfo store.graphStores })) ∨
    (newAccount hex accountHash builder store.getAccountInfo = none ∧
      ∃ e, createAccount hex librdf accountHash builder store = .error e store) := by
  unfold newAccount newGraph createAccount
  by_cases haction : builder.action = AccountSystemOntologyTypes.accountCreateObjectStatus
  · rw [if_pos haction, if_neg (not_not_intro haction)]
    by_cases htype : builder.accountInfo.accountType = AccountSystemOntologyTypes.masterType
    · simp only [if_pos htype]
      refine Or.inl ⟨_, Option.map_some _ _, ?_⟩
      exact bind_ok (masterGraph_eq_ok hex librdf accountHash htype rfl store) _
    · simp only [if_neg htype]
      cases hparent : store.getAccountInfo builder.accountInfo.parentAccountHash with
      | some parent =>
        refine Or.inl ⟨_, Option.map_some _ _, ?_⟩
        rw [openedFor, if_neg fun hmaster => htype hmaster.1]
        exact bind_ok (inheritedGraph_of_some hparent) _
      | none =>
        obtain ⟨e, he⟩ := inheritedGraph_of_none hex accountHash hparent
        exact Or.inr ⟨rfl, e, bind_error he _⟩
  · rw [if_neg haction, if_pos haction]
    exact Or.inr ⟨rfl, _, rfl⟩

def SameResource (store store' : AccountStore Graph) : Prop :=
  store'.accounts = store.accounts ∧ store'.sessions = store.sessions

theorem sameResource_refl (store : AccountStore Graph) : SameResource store store := ⟨rfl, rfl⟩

theorem sameResource_trans (store store₁ store₂ : AccountStore Graph)
    (h₁ : SameResource store store₁) (h₂ : SameResource store₁ store₂) :
    SameResource store store₂ := ⟨h₂.1.trans h₁.1, h₂.2.trans h₁.2⟩

/-- A session that is returned is kept for its name; without a handle to open it
on, nothing but the manager changes. -/
theorem ends_getGraphSession (librdf : Librdf Graph) (name : Bytes) (store : AccountStore Graph) :
    Ends (getGraphSession librdf name)
      (fun session store' => store'.sessions name = some session ∧
        store'.accounts = store.accounts ∧ contents librdf store' = contents librdf store)
      (fun _ store' => store'.accounts = store.accounts ∧
        contents librdf store' = contents librdf store) store := by
  have hcontent := AccountGraphStoreManager.content_get librdf store.graphStores name
  simp only [getGraphSession, ends_bind, ends_get]
  cases hsession : store.sessions name with
  | some session => exact ⟨hsession, rfl, rfl⟩
  | none =>
    cases hfound : (store.graphStores.get librdf name).1 with
    | none => exact ⟨rfl, hcontent⟩
    | some session => exact ⟨Function.update_self _ _ _, rfl, hcontent⟩

end AccountStore

namespace AccountGraphSession

open AccountStore

def writeAt (dbName : Bytes) (write : Graph → Graph) (contents : Bytes → Graph) : Bytes → Graph :=
  Function.update contents dbName (write (contents dbName))

theorem contents_writeModel (session : AccountGraphStore) (write : Graph → Graph)
    (store : AccountStore Graph) :
    contents librdf (writeModel librdf session write store) =
      writeAt session.dbName write (contents librdf store) := by
  funext name
  by_cases hname : name = session.dbName
  · simp [contents, writeModel, writeAt, AccountGraphStoreManager.content, hname]
  · simp [contents, writeModel, writeAt, AccountGraphStoreManager.content, hname]

/-- The statements of a subject, in the order they are written; an object that
is neither a literal nor a uri has none. -/
def statements (subject : RDFSubject) : List Statement :=
  subject.rdfPredicates.flatMap fun predicate =>
    (RDFPredicateHelper.listObjects predicate).flatMap fun object =>
      (statement subject predicate object).toOption.toList

def attempts : RDFDataFormat → List (Option Statement)
  | .rdfNtGroup => [none]
  | .rdfSubject subject =>
    subject.rdfPredicates.flatMap fun predicate =>
      (RDFPredicateHelper.listObjects predicate).map fun object =>
        (statement subject predicate object).toOption

theorem attempts_statements (entry : RDFDataFormat) :
    (attempts entry).reduceOption = (rdfSubject? entry).toList.flatMap statements := by
  cases entry with
  | rdfNtGroup => rfl
  | rdfSubject subject =>
    rw [rdfSubject?, Option.toList_some, List.flatMap_singleton, statements, attempts,
      List.reduceOption, List.filterMap_flatMap]
    congr 1
    funext predicate
    rw [List.filterMap_map, List.filterMap_eq_flatMap_toList]
    rfl

/-- The statements of a subject are written one by one; an entry of another
kind has none and is not written. -/
theorem performs_writeSubject (write : Statement → Graph → Graph) (session : AccountGraphStore)
    (entry : RDFDataFormat) :
    Performs (contents librdf) (fun s => writeAt session.dbName (write s)) (attempts entry)
      (writeSubject librdf write session entry) := by
  cases entry with
  | rdfNtGroup => exact fun store => ⟨rfl, rfl⟩
  | rdfSubject subject =>
    refine performs_forM (fun predicate => ?_) _
    rw [List.map_eq_flatMap]
    refine performs_forM (fun object store => ?_) _
    cases hstatement : statement subject predicate object with
    | ok entry =>
      have hrun := bind_ok (fromExcept_ok entry store) fun entry =>
        (modify (writeModel librdf session (write entry)) : AccountM Graph PUnit)
      rw [after_of_ok hrun, returns, hrun]
      exact ⟨contents_writeModel session (write entry) store, rfl⟩
    | error e => exact ⟨rfl, rfl⟩

end AccountGraphSession

inductive GraphWrite
  | add (statement : Statement)
  | remove (statement : Statement)
  deriving DecidableEq, Repr

def GraphWrite.apply (librdf : Librdf Graph) : GraphWrite → Graph → Graph
  | .add statement => librdf.addStatement statement
  | .remove statement => librdf.removeStatement statement

def modelStatements (model : RDFModel) : List Statement :=
  model.rdfDataFormat.flatMap fun entry =>
    (rdfSubject? entry).toList.flatMap AccountGraphSession.statements

def modelWrites (model : RDFModel) : List GraphWrite :=
  (modelStatements model).map
    (if model.action = .persist then GraphWrite.add else GraphWrite.remove)

def modelAttempts (model : RDFModel) : List (Option GraphWrite) :=
  (model.rdfDataFormat.flatMap AccountGraphSession.attempts).map
    (Option.map (if model.action = .persist then GraphWrite.add else GraphWrite.remove))

theorem modelAttempts_writes (model : RDFModel) :
    (modelAttempts model).reduceOption = modelWrites model := by
  rw [modelAttempts, List.reduceOption_map, List.reduceOption, List.filterMap_flatMap, modelWrites,
    modelStatements]
  simp only [← AccountGraphSession.attempts_statements]
  rfl

theorem attempts_writes (models : List RDFModel) :
    (models.flatMap modelAttempts).reduceOption = models.flatMap modelWrites := by
  rw [List.reduceOption, List.filterMap_flatMap]
  exact congrArg models.flatMap (funext modelAttempts_writes)

namespace AccountStore

open AccountGraphSession

section Loops

variable {r : AccountStore Graph → AccountStore Graph → Prop} {session : AccountGraphStore}
  (hrefl : ∀ store, r store store)
  (htrans : ∀ store store₁ store₂, r store store₁ → r store₁ store₂ → r store store₂)
  (hwrite : ∀ write store, r store (writeModel librdf session write store))

include hrefl htrans hwrite

/-- A relation that every write of a session keeps is kept by its loops. -/
theorem within_writeSubject (write : Statement → Graph → Graph) (entry : RDFDataFormat) :
    Within r (writeSubject librdf write session entry) := by
  cases entry with
  | rdfNtGroup => exact fun store => hrefl store
  | rdfSubject subject =>
    refine within_forM hrefl htrans (fun predicate => ?_) _
    refine within_forM hrefl htrans (fun object => ?_) _
    refine within_bind htrans (within_fromExcept hrefl _) ?_
    exact fun entry store => hwrite (write entry) store

theorem within_applyStatements (models : List RDFModel) :
    Within r (models.forM (applyStatement librdf session)) := by
  refine within_forM hrefl htrans (fun model => within_forM hrefl htrans (fun entry => ?_) _) _
  by_cases hpersist : model.action = .persist
  · rw [if_pos hpersist]
    exact within_writeSubject hrefl htrans hwrite _ entry
  · rw [if_neg hpersist]
    exact within_writeSubject hrefl htrans hwrite _ entry

end Loops

theorem applyStatements_sameResource (librdf : Librdf Graph) (session : AccountGraphStore)
    (models : List RDFModel) :
    Within SameResource (models.forM (applyStatement librdf session)) :=
  within_applyStatements sameResource_refl sameResource_trans
    (fun _ store => sameResource_refl store) models

theorem performs_applyStatement (session : AccountGraphStore) (model : RDFModel) :
    Performs (contents librdf) (fun write => writeAt session.dbName (write.apply librdf))
      (modelAttempts model) (applyStatement librdf session model) := by
  refine Performs.map (performs_forM (fun entry => ?_) _)
  by_cases hpersist : model.action = .persist
  · simp only [if_pos hpersist]
    exact performs_writeSubject librdf.addStatement session entry
  · simp only [if_neg hpersist]
    exact performs_writeSubject librdf.removeStatement session entry

theorem performs_applyStatements (librdf : Librdf Graph) (session : AccountGraphStore)
    (models : List RDFModel) :
    Performs (contents librdf) (fun write => writeAt session.dbName (write.apply librdf))
      (models.flatMap modelAttempts) (models.forM (applyStatement librdf session)) :=
  performs_forM (performs_applyStatement session) models

def withAccount (accountHash : Hash) (created : Option AccountInfo)
    (accounts : Overlay (Hash → Option AccountInfo) AccountPut) :
    Overlay (Hash → Option AccountInfo) AccountPut :=
  match created with
  | some accountInfo => accounts.putAll [⟨accountHash, accountInfo⟩]
  | none => accounts

def withCreation (hex : HexCodec) (librdf : Librdf Graph) (message : TransactionMessage)
    (store : AccountStore Graph) : AccountStore Graph :=
  match createdAccount hex message store.getAccountInfo with
  | some accountInfo => setAccountInfo (phaseAccount message) accountInfo
      { store with graphStores := openedFor librdf accountInfo store.graphStores }
  | none => store

theorem accounts_withCreation (hex : HexCodec) (librdf : Librdf Graph)
    (message : TransactionMessage) (store : AccountStore Graph) :
    (withCreation hex librdf message store).accounts = withAccount (phaseAccount message)
      (createdAccount hex message store.getAccountInfo) store.accounts := by
  unfold withCreation withAccount
  cases createdAccount hex message store.getAccountInfo with
  | some accountInfo => rfl
  | none => rfl

theorem contents_withCreation (hex : HexCodec) (librdf : Librdf Graph)
    (message : TransactionMessage) (store : AccountStore Graph) :
    contents librdf (withCreation hex librdf message store) = contents librdf store := by
  unfold withCreation
  cases createdAccount hex message store.getAccountInfo with
  | some accountInfo => exact content_openedFor librdf accountInfo store.graphStores
  | none => rfl

/-- The account is found or created, with the statements of every model of the
message; or the call has thrown, and nothing is created. -/
theorem resolveAccount_cases (hex : HexCodec) (librdf : Librdf Graph)
    (message : TransactionMessage) (store : AccountStore Graph) :
    (∃ accountInfo builder,
      resolveAccount hex librdf message store =
        .ok (accountInfo, builder) (withCreation hex librdf message store) ∧
      (withCreation hex librdf message store).getAccountInfo (phaseAccount message) =
        some accountInfo ∧
      builder.statements = AccountRDFStatementBuilder.models message) ∨
    (createdAccount hex message store.getAccountInfo = none ∧
      ∃ e, resolveAccount hex librdf message store = .error e store) := by
  unfold withCreation createdAccount
  rw [resolveAccount, get_bind]
  cases hknown : store.getAccountInfo (phaseAccount message) with
  | some accountInfo =>
    cases hbuilder : AccountRDFStatementBuilder.create hex message true with
    | ok builder =>
      have hstatements := (AccountRDFStatementBuilder.create_eq_ok hbuilder).1
      exact Or.inl ⟨accountInfo, builder, rfl, hknown, hstatements⟩
    | error e => exact Or.inr ⟨rfl, e, rfl⟩
  | none =>
    cases hbuilder : AccountRDFStatementBuilder.create hex message false with
    | error e => exact Or.inr ⟨rfl, e, rfl⟩
    | ok builder =>
      have hstatements := (AccountRDFStatementBuilder.create_eq_ok hbuilder).1
      rcases createAccount_cases hex librdf (phaseAccount message) builder store with
        ⟨accountInfo, hnew, hcreate⟩ | ⟨hnew, e, he⟩
      · simp only [hnew]
        refine Or.inl ⟨accountInfo, builder, bind_ok hcreate _, ?_, hstatements⟩
        rw [getAccountInfo_setAccountInfo, Function.update_self]
      · exact Or.inr ⟨hnew, e, bind_error he _⟩

def WritesOn (hex : HexCodec) (librdf : Librdf Graph) (message : TransactionMessage)
    (store : AccountStore Graph) (session : AccountGraphStore) : Prop :=
  ∃ resolved store₁ store₂, resolveAccount hex librdf message store = .ok resolved store₁ ∧
    getGraphSession librdf resolved.1.graphName store₁ = .ok session store₂

theorem WritesOn.unique {message : TransactionMessage} {store : AccountStore Graph}
    {session session' : AccountGraphStore}
    (h : WritesOn hex librdf message store session)
    (h' : WritesOn hex librdf message store session') : session' = session := by
  obtain ⟨resolved, store₁, store₂, hresolve, hsession⟩ := h
  obtain ⟨resolved', store₁', store₂', hresolve', hsession'⟩ := h'
  rw [hresolve] at hresolve'
  injection hresolve' with hresolved hstore
  rw [← hresolved, ← hstore, hsession] at hsession'
  injection hsession' with hsame
  exact hsame.symm

def HasStore (store : AccountStore Graph) (graphName : Bytes) : Prop :=
  store.sessions graphName ≠ none ∨ store.graphStores.checkForDb graphName = true

/-- The account is known and the builder accepts the message, or the message
creates the account; and the graph of the account, which a master is given, is there. -/
def StartsWriting (hex : HexCodec) (message : TransactionMessage) (store : AccountStore Graph) :
    Prop :=
  (∃ accountInfo, store.getAccountInfo (phaseAccount message) = some accountInfo ∧
    (AccountRDFStatementBuilder.create hex message true).toBool = true ∧
    HasStore store accountInfo.graphName) ∨
  ∃ accountInfo, createdAccount hex message store.getAccountInfo = some accountInfo ∧
    (accountInfo.accountType = AccountSystemOntologyTypes.masterType ∨
      HasStore store accountInfo.graphName)

theorem getGraphSession_ok_iff (librdf : Librdf Graph) (name : Bytes)
    (store : AccountStore Graph) :
    (∃ session store', getGraphSession librdf name store = .ok session store') ↔
      HasStore store name := by
  rw [getGraphSession, get_bind, HasStore, AccountGraphStoreManager.checkForDb]
  cases hsession : store.sessions name with
  | some session => exact iff_of_true ⟨session, store, rfl⟩ (Or.inl (by simp))
  | none =>
    cases hcached : store.graphStores.graphs name with
    | some graphStore =>
      rw [AccountGraphStoreManager.get_of_cached hcached]
      exact iff_of_true ⟨_, _, rfl⟩ (Or.inr rfl)
    | none =>
      by_cases hdisk : store.graphStores.databases name = none
      · rw [AccountGraphStoreManager.get_of_missing hcached hdisk, hdisk]
        refine iff_of_false ?_ (by simp)
        rintro ⟨session, store', hok⟩
        injection hok
      · rw [AccountGraphStoreManager.get_of_stored hcached hdisk]
        exact iff_of_true ⟨_, _, rfl⟩ (Or.inr (by simp [Option.isSome_iff_ne_none, hdisk]))

theorem hasStore_withCreation {message : TransactionMessage} {store : AccountStore Graph}
    {accountInfo : AccountInfo}
    (hcreated : createdAccount hex message store.getAccountInfo = some accountInfo) :
    HasStore (withCreation hex librdf message store) accountInfo.graphName ↔
      accountInfo.accountType = AccountSystemOntologyTypes.masterType ∨
        HasStore store accountInfo.graphName := by
  have hstore : withCreation hex librdf message store = setAccountInfo (phaseAccount message)
      accountInfo { store with graphStores := openedFor librdf accountInfo store.graphStores } := by
    rw [withCreation, hcreated]
  rw [hstore, HasStore, HasStore, setAccountInfo, openedFor]
  by_cases hmaster : accountInfo.accountType = AccountSystemOntologyTypes.masterType
  · cases hcheck : store.graphStores.checkForDb accountInfo.graphName with
    | true => simp [hmaster, hcheck]
    | false =>
      simp [hmaster, AccountGraphStoreManager.checkForDb, AccountGraphStoreManager.openCached,
        AccountGraphStoreManager.openStore]
  · simp [hmaster]

theorem writesOn_iff_of_ok {message : TransactionMessage} {store store₁ : AccountStore Graph}
    {resolved : AccountInfo × AccountRDFStatementBuilder}
    (hresolve : resolveAccount hex librdf message store = .ok resolved store₁) :
    (∃ session, WritesOn hex librdf message store session) ↔
      HasStore store₁ resolved.1.graphName := by
  rw [← getGraphSession_ok_iff librdf]
  constructor
  · rintro ⟨session, resolved', store₁', store', hresolve', hsession⟩
    rw [hresolve] at hresolve'
    injection hresolve' with hresolved hstore
    rw [← hresolved, ← hstore] at hsession
    exact ⟨session, store', hsession⟩
  · rintro ⟨session, store', hsession⟩
    exact ⟨session, resolved, store₁, store', hresolve, hsession⟩

theorem not_writesOn_of_error {message : TransactionMessage} {store store₁ : AccountStore Graph}
    {e : AccountDbFailure} (he : resolveAccount hex librdf message store = .error e store₁)
    (session : AccountGraphStore) : ¬ WritesOn hex librdf message store session := by
  rintro ⟨resolved, store₁, store₂, hok, _⟩
  rw [he] at hok
  exact absurd hok (by simp)

theorem createdAccount_of_known {message : TransactionMessage} {store : AccountStore Graph}
    {accountInfo : AccountInfo}
    (hknown : store.getAccountInfo (phaseAccount message) = some accountInfo) :
    createdAccount hex message store.getAccountInfo = none := by
  rw [createdAccount, hknown]

/-- Which calls get as far as to write. -/
theorem startsWriting_iff (hex : HexCodec) (librdf : Librdf Graph) (message : TransactionMessage)
    (store : AccountStore Graph) :
    (∃ session, WritesOn hex librdf message store session) ↔ StartsWriting hex message store := by
  cases hknown : store.getAccountInfo (phaseAccount message) with
  | some accountInfo =>
    have hresolve : resolveAccount hex librdf message store =
        (fromExcept (AccountRDFStatementBuilder.create hex message true) >>= fun builder =>
          pure (accountInfo, builder)) store := by
      rw [resolveAccount, get_bind, hknown]
    rw [StartsWriting, hknown, createdAccount_of_known hknown]
    cases hbuilder : AccountRDFStatementBuilder.create hex message true with
    | ok builder =>
      rw [hbuilder] at hresolve
      have hok : resolveAccount hex librdf message store = .ok (accountInfo, builder) store :=
        hresolve
      rw [writesOn_iff_of_ok hok]
      simp [Except.toBool]
    | error e =>
      rw [hbuilder] at hresolve
      have he : resolveAccount hex librdf message store = .error e store := hresolve
      refine iff_of_false (fun h => not_writesOn_of_error he _ h.choose_spec) ?_
      simp [Except.toBool]
  | none =>
    rw [StartsWriting, hknown]
    rcases resolveAccount_cases hex librdf message store with
      ⟨accountInfo, builder, hresolve, hfound, _⟩ | ⟨hnone, e, he⟩
    · have hcreated : createdAccount hex message store.getAccountInfo = some accountInfo := by
        rw [withCreation] at hfound
        cases hnew : createdAccount hex message store.getAccountInfo with
        | some created =>
          rw [hnew, getAccountInfo_setAccountInfo, Function.update_self] at hfound
          exact hfound
        | none =>
          rw [hnew] at hfound
          exact absurd (hknown.symm.trans hfound) (by simp)
      rw [writesOn_iff_of_ok hresolve, hasStore_withCreation hcreated, hcreated]
      simp
    · refine iff_of_false (fun h => not_writesOn_of_error he _ h.choose_spec) ?_
      rw [hnone]
      simp

/-- The three ways a transaction goes. It throws before it has an account; or it
has one and throws where its graph has no session; or it makes the attempts of
its models on that session. -/
theorem applyTransaction_cases (hex : HexCodec) (librdf : Librdf Graph)
    (message : TransactionMessage) (store : AccountStore Graph) :
    (createdAccount hex message store.getAccountInfo = none ∧
      (∀ session, ¬ WritesOn hex librdf message store session) ∧
      ∃ e, applyTransaction hex librdf message store = .error e store) ∨
    ∃ accountInfo,
      (withCreation hex librdf message store).getAccountInfo (phaseAccount message) =
        some accountInfo ∧
      (((∀ session, ¬ WritesOn hex librdf message store session) ∧
        ∃ e store', getGraphSession librdf accountInfo.graphName
            (withCreation hex librdf message store) = .error e store' ∧
          applyTransaction hex librdf message store = .error e store') ∨
      ∃ session store', WritesOn hex librdf message store session ∧
        getGraphSession librdf accountInfo.graphName
          (withCreation hex librdf message store) = .ok session store' ∧
        applyTransaction hex librdf message store = (AccountRDFStatementBuilder.models message).forM
          (applyStatement librdf session) store') := by
  rcases resolveAccount_cases hex librdf message store with
    ⟨accountInfo, builder, hresolve, hknown, hstatements⟩ | ⟨hnone, e, he⟩
  · have hfirst : applyTransaction hex librdf message store =
        (getGraphSession librdf accountInfo.graphName >>= fun session =>
          builder.statements.forM (applyStatement librdf session))
            (withCreation hex librdf message store) := bind_ok hresolve _
    refine Or.inr ⟨accountInfo, hknown, ?_⟩
    cases hsession : getGraphSession librdf accountInfo.graphName
        (withCreation hex librdf message store) with
    | ok session store' =>
      refine Or.inr ⟨session, store', ⟨_, _, store', hresolve, hsession⟩, rfl, ?_⟩
      rw [hfirst, bind_ok hsession, hstatements]
    | error e store' =>
      refine Or.inl ⟨?_, e, store', rfl, hfirst.trans (bind_error hsession _)⟩
      rw [← not_exists, writesOn_iff_of_ok hresolve, ← getGraphSession_ok_iff librdf]
      rintro ⟨session, store'', hok⟩
      exact absurd (hsession.symm.trans hok) (by simp)
  · exact Or.inl ⟨hnone, not_writesOn_of_error he, e, bind_error he _⟩

/-- Whichever way a transaction ends, it has stored the created account and no other entry. -/
theorem after_applyTransaction_accounts (hex : HexCodec) (librdf : Librdf Graph)
    (message : TransactionMessage) (store : AccountStore Graph) :
    (after (applyTransaction hex librdf message) store).accounts =
      withAccount (phaseAccount message) (createdAccount hex message store.getAccountInfo)
        store.accounts := by
  rw [← accounts_withCreation hex librdf]
  rcases applyTransaction_cases hex librdf message store with
    ⟨hnone, _, e, he⟩ | ⟨accountInfo, _, ⟨_, e, store', hsession, he⟩ |
      ⟨session, store', _, hsession, hrun⟩⟩
  · rw [after_of_error he, withCreation, hnone]
  · rw [after_of_error he]
    exact ((ends_of_error hsession).mp (ends_getGraphSession librdf _ _)).1
  · have hloop := applyStatements_sameResource librdf session
      (AccountRDFStatementBuilder.models message) store'
    rw [after, hrun, ← after, hloop.1]
    exact ((ends_of_ok hsession).mp (ends_getGraphSession librdf _ _)).2.1

/-- A transaction that gets as far as its session makes the attempts of its
models, in order, on the graph that the session of the account's graph name is
opened on, and on no other; one that does not has changed no content. -/
theorem applyTransaction_contents (hex : HexCodec) (librdf : Librdf Graph)
    (message : TransactionMessage) (store : AccountStore Graph) :
    ((∀ session, ¬ WritesOn hex librdf message store session) ∧
      returns (applyTransaction hex librdf message) store = false ∧
      contents librdf (after (applyTransaction hex librdf message) store) =
        contents librdf store) ∨
    ∃ accountInfo session, WritesOn hex librdf message store session ∧
      (after (applyTransaction hex librdf message) store).getAccountInfo (phaseAccount message) =
        some accountInfo ∧
      (after (applyTransaction hex librdf message) store).sessions accountInfo.graphName =
        some session ∧
      contents librdf (after (applyTransaction hex librdf message) store) =
        Overlay.applyAll (fun write => writeAt session.dbName (write.apply librdf))
          (performed ((AccountRDFStatementBuilder.models message).flatMap modelAttempts))
          (contents librdf store) ∧
      returns (applyTransaction hex librdf message) store =
        ((AccountRDFStatementBuilder.models message).flatMap modelAttempts).all Option.isSome := by
  rcases applyTransaction_cases hex librdf message store with
    ⟨_, hnot, e, he⟩ | ⟨accountInfo, hknown, ⟨hnot, e, store', hsession, he⟩ |
      ⟨session, store', hwrites, hsession, hrun⟩⟩
  · refine Or.inl ⟨hnot, by rw [returns, he], ?_⟩
    rw [after_of_error he]
  · refine Or.inl ⟨hnot, by rw [returns, he], ?_⟩
    rw [after_of_error he, ← contents_withCreation hex librdf message store]
    exact ((ends_of_error hsession).mp (ends_getGraphSession librdf _ _)).2
  · obtain ⟨hkept, haccounts, hunchanged⟩ :=
      (ends_of_ok hsession).mp (ends_getGraphSession librdf _ _)
    have hsame := applyStatements_sameResource librdf session
      (AccountRDFStatementBuilder.models message) store'
    obtain ⟨hview, hreturns⟩ := performs_applyStatements librdf session
      (AccountRDFStatementBuilder.models message) store'
    rw [after, ← hrun, ← after] at hsame hview
    refine Or.inr ⟨accountInfo, session, hwrites, ?_, ?_, ?_, ?_⟩
    · rw [getAccountInfo, hsame.1, haccounts]
      exact hknown
    · rw [hsame.2]
      exact hkept
    · rw [hview, hunchanged, contents_withCreation]
    · rw [returns, hrun]
      exact hreturns

end AccountStore

end Keto.AccountDb
