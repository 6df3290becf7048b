import Keto.AccountDb.ChangeApplication
import Keto.Library.Runs

/-!
What a transaction that throws leaves when it is rolled back. The accounts
mapping goes back to what it was when the transaction began. The graph storage
has no transactions: what the session had written when it threw stays, and so
does the database that was created for a new master account.
-/
namespace Keto.AccountDb.FailedTransaction

open Protocol Library Library.Stateful Library.Runs
open AccountSystemOntologyTypes AccountStore AccountGraphSession AccountGraphStoreManager
open ChangeApplication

variable {Graph : Type} (hex : HexCodec) (librdf : Librdf Graph)

/-- What is called inside a transaction: queries read nothing but a session. -/
inductive Call
  | applyTransaction (message : TransactionMessage)
  | query (graphName : Bytes)

inductive Operation
  | call (call : Call)
  | commit
  | rollback

def perform : Call → AccountM Graph PUnit
  | .applyTransaction message => AccountStore.applyTransaction hex librdf message
  | .query graphName => discard (getGraphSession librdf graphName)

def callStep (call : Call) (store : AccountStore Graph) : AccountStore Graph :=
  after (perform hex librdf call) store

def step : Operation → AccountStore Graph → AccountStore Graph
  | .call call, store => callStep hex librdf call store
  | .commit, store => store.commit
  | .rollback, store => store.rollback

def start (accounts : Hash → Option AccountInfo) (databases : Bytes → Option Graph) :
    AccountStore Graph :=
  ⟨⟨accounts, []⟩, .create librdf databases, fun _ => none⟩

def OnDisk (store : AccountStore Graph) (dbName : Bytes) : Prop :=
  store.graphStores.databases dbName ≠ none

/-- The database that a call creates: that of the graph of a new master account
where no store has the name. -/
def createdDatabase (message : TransactionMessage) (store : AccountStore Graph) : Option Bytes :=
  (createdAccount hex message store.getAccountInfo).bind fun accountInfo =>
    if accountInfo.accountType = masterType ∧
        store.graphStores.checkForDb accountInfo.graphName = false then
      some accountInfo.graphName
    else none

def messageAttempts (message : TransactionMessage) : List (Option GraphWrite) :=
  (AccountRDFStatementBuilder.models message).flatMap modelAttempts

/-- What a call that throws leaves, rolled back with the transaction that was
opened in `opened`. -/
structure LeftByFailure (message : TransactionMessage) (opened store left : AccountStore Graph) :
    Prop where
  accounts : left.accounts = opened.accounts
  unwritten : ¬ StartsWriting hex message store → contents librdf left = contents librdf store
  written : ∀ session, WritesOn hex librdf message store session →
    ∃ done rest, messageAttempts message = done.map some ++ none :: rest ∧
      WrittenTo librdf session.dbName done store left
  databases : ∀ dbName, OnDisk left dbName ↔
    OnDisk store dbName ∨ createdDatabase hex message store = some dbName

section Databases

variable {librdf}

structure Grounded (store : AccountStore Graph) : Prop where
  graphs : ∀ name graphStore, store.graphStores.graphs name = some graphStore →
    OnDisk store graphStore.dbName
  sessions : ∀ name session, store.sessions name = some session → OnDisk store session.dbName

def opening (librdf : Librdf Graph) (dbName : Bytes) (store : AccountStore Graph) :
    AccountStore Graph :=
  { store with graphStores := (store.graphStores.openCached librdf dbName).2 }

theorem onDisk_opening (store : AccountStore Graph) (dbName name : Bytes) :
    OnDisk (opening librdf dbName store) name ↔ OnDisk store name ∨ name = dbName := by
  by_cases hname : name = dbName
  · simp [OnDisk, opening, openCached, openStore, hname]
  · simp [OnDisk, opening, openCached, openStore, hname]

theorem Grounded.opening {store : AccountStore Graph} (h : Grounded store) (dbName : Bytes) :
    Grounded (opening librdf dbName store) := by
  constructor
  · intro name graphStore hcached
    rw [onDisk_opening]
    by_cases hname : name = baseGraph
    · right
      subst hname
      simp only [FailedTransaction.opening, openCached, Function.update_self] at hcached
      rw [← Option.some.inj hcached]
      rfl
    · left
      simp only [FailedTransaction.opening, openCached, openStore,
        Function.update_of_ne hname] at hcached
      exact h.graphs name graphStore hcached
  · intro name session hkept
    exact (onDisk_opening store dbName _).mpr (Or.inl (h.sessions name session hkept))

/-- Nothing but the mapping is touched. -/
theorem Grounded.congr {store store' : AccountStore Graph} (h : Grounded store)
    (hgraphs : store'.graphStores = store.graphStores)
    (hsessions : store'.sessions = store.sessions) : Grounded store' := by
  constructor
  · rw [hgraphs]
    intro name graphStore hcached
    rw [OnDisk, hgraphs]
    exact h.graphs name graphStore hcached
  · rw [hsessions]
    intro name session hkept
    rw [OnDisk, hgraphs]
    exact h.sessions name session hkept

theorem onDisk_congr {store store' : AccountStore Graph}
    (hgraphs : store'.graphStores = store.graphStores) (dbName : Bytes) :
    OnDisk store' dbName ↔ OnDisk store dbName := by
  rw [OnDisk, OnDisk, hgraphs]

theorem graphStores_withCreation (hex : HexCodec) (librdf : Librdf Graph)
    (message : TransactionMessage) (store : AccountStore Graph) :
    (withCreation hex librdf message store).graphStores =
      (match createdDatabase hex message store with
        | some dbName => (opening librdf dbName store).graphStores
        | none => store.graphStores) ∧
    (withCreation hex librdf message store).sessions = store.sessions := by
  unfold withCreation createdDatabase
  cases createdAccount hex message store.getAccountInfo with
  | none => exact ⟨rfl, rfl⟩
  | some accountInfo =>
    refine ⟨?_, rfl⟩
    rw [Option.bind_some]
    by_cases hcreates : accountInfo.accountType = masterType ∧
        store.graphStores.checkForDb accountInfo.graphName = false
    · rw [if_pos hcreates]
      exact if_pos hcreates
    · rw [if_neg hcreates]
      exact if_neg hcreates

theorem onDisk_withCreation (hex : HexCodec) (librdf : Librdf Graph)
    (message : TransactionMessage) (store : AccountStore Graph) (dbName : Bytes) :
    OnDisk (withCreation hex librdf message store) dbName ↔
      OnDisk store dbName ∨ createdDatabase hex message store = some dbName := by
  have hgraphs := (graphStores_withCreation hex librdf message store).1
  cases hcreated : createdDatabase hex message store with
  | none =>
    rw [hcreated] at hgraphs
    rw [onDisk_congr hgraphs]
    simp
  | some name =>
    rw [hcreated] at hgraphs
    rw [onDisk_congr hgraphs, onDisk_opening, Option.some.injEq, eq_comm]

theorem Grounded.withCreation {store : AccountStore Graph} (h : Grounded store) (hex : HexCodec)
    (librdf : Librdf Graph) (message : TransactionMessage) :
    Grounded (withCreation hex librdf message store) := by
  obtain ⟨hgraphs, hsessions⟩ := graphStores_withCreation hex librdf message store
  cases hcreated : createdDatabase hex message store with
  | none =>
    rw [hcreated] at hgraphs
    exact h.congr hgraphs hsessions
  | some dbName =>
    rw [hcreated] at hgraphs
    exact (h.opening dbName).congr hgraphs hsessions

theorem Grounded.session {store : AccountStore Graph} (h : Grounded store) (name : Bytes)
    {session : AccountGraphStore} (hdisk : OnDisk store session.dbName) :
    Grounded { store with sessions := Function.update store.sessions name (some session) } := by
  refine ⟨h.graphs, ?_⟩
  intro other kept hkept
  simp only at hkept
  by_cases hother : other = name
  · rw [hother, Function.update_self] at hkept
    rw [← Option.some.inj hkept]
    exact hdisk
  · rw [Function.update_of_ne hother] at hkept
    exact h.sessions other kept hkept

/-- A session is opened on a database that exists, and nothing is created. -/
theorem ends_getGraphSession_onDisk {store : AccountStore Graph} (h : Grounded store)
    (librdf : Librdf Graph) (name : Bytes) :
    Ends (getGraphSession librdf name)
      (fun session store' => Grounded store' ∧ OnDisk store session.dbName ∧
        ∀ dbName, OnDisk store' dbName ↔ OnDisk store dbName)
      (fun _ store' => Grounded store' ∧ ∀ dbName, OnDisk store' dbName ↔ OnDisk store dbName)
      store := by
  simp only [getGraphSession, ends_bind, ends_get]
  cases hsession : store.sessions name with
  | some session => exact ⟨h, h.sessions name session hsession, fun _ => Iff.rfl⟩
  | none =>
    cases hcached : store.graphStores.graphs name with
    | some graphStore =>
      rw [get_of_cached hcached]
      have hdisk := h.graphs name graphStore hcached
      exact ⟨h.session name hdisk, hdisk, fun _ => Iff.rfl⟩
    | none =>
      by_cases hdisk : store.graphStores.databases name = none
      · rw [get_of_missing hcached hdisk]
        exact ⟨h.congr rfl rfl, fun _ => Iff.rfl⟩
      · rw [get_of_stored hcached hdisk]
        have hsame : ∀ dbName, OnDisk (FailedTransaction.opening librdf name store) dbName ↔
            OnDisk store dbName := by
          intro dbName
          rw [onDisk_opening]
          refine ⟨?_, Or.inl⟩
          rintro (hbefore | rfl)
          · exact hbefore
          · exact hdisk
        exact ⟨(h.opening name).session name ((hsame name).mpr hdisk), hdisk, hsame⟩

def KeepsDatabases (session : AccountGraphStore) (store store' : AccountStore Graph) : Prop :=
  OnDisk store session.dbName → store'.graphStores.graphs = store.graphStores.graphs ∧
    store'.sessions = store.sessions ∧ ∀ dbName, OnDisk store' dbName ↔ OnDisk store dbName

theorem keepsDatabases_refl (session : AccountGraphStore) (store : AccountStore Graph) :
    KeepsDatabases session store store := fun _ => ⟨rfl, rfl, fun _ => Iff.rfl⟩

theorem keepsDatabases_trans (session : AccountGraphStore) (store store₁ store₂ : AccountStore Graph)
    (h₁ : KeepsDatabases session store store₁) (h₂ : KeepsDatabases session store₁ store₂) :
    KeepsDatabases session store store₂ := by
  intro hdisk
  obtain ⟨hgraphs₁, hsessions₁, hdisk₁⟩ := h₁ hdisk
  obtain ⟨hgraphs₂, hsessions₂, hdisk₂⟩ := h₂ ((hdisk₁ _).mpr hdisk)
  exact ⟨hgraphs₂.trans hgraphs₁, hsessions₂.trans hsessions₁,
    fun dbName => (hdisk₂ dbName).trans (hdisk₁ dbName)⟩

theorem keepsDatabases_writeModel (session : AccountGraphStore) (write : Graph → Graph)
    (store : AccountStore Graph) :
    KeepsDatabases session store (writeModel librdf session write store) := by
  intro hdisk
  refine ⟨rfl, rfl, fun dbName => ?_⟩
  by_cases hname : dbName = session.dbName
  · subst hname
    exact iff_of_true (by simp [OnDisk, writeModel]) hdisk
  · simp [OnDisk, writeModel, hname]

theorem KeepsDatabases.grounded {session : AccountGraphStore} {store store' : AccountStore Graph}
    (hkeeps : KeepsDatabases session store store') (hdisk : OnDisk store session.dbName)
    (h : Grounded store) : Grounded store' := by
  obtain ⟨hgraphs, hsessions, hsame⟩ := hkeeps hdisk
  constructor
  · intro name graphStore hcached
    rw [hgraphs] at hcached
    exact (hsame _).mpr (h.graphs name graphStore hcached)
  · intro name kept hkept
    rw [hsessions] at hkept
    exact (hsame _).mpr (h.sessions name kept hkept)

/-- Whichever way a transaction ends, no database is new but that of a created
master account, and every handle is on a database that exists. -/
theorem onDisk_applyTransaction {store : AccountStore Graph} (h : Grounded store)
    (hex : HexCodec) (librdf : Librdf Graph) (message : TransactionMessage) :
    Grounded (after (applyTransaction hex librdf message) store) ∧
      ∀ dbName, OnDisk (after (applyTransaction hex librdf message) store) dbName ↔
        OnDisk store dbName ∨ createdDatabase hex message store = some dbName := by
  have hgrounded := h.withCreation hex librdf message
  have hcreated := onDisk_withCreation hex librdf message store
  rcases applyTransaction_cases hex librdf message store with
    ⟨hnone, _, e, he⟩ | ⟨accountInfo, _, ⟨_, e, store', hsession, he⟩ |
      ⟨session, store', _, hsession, hrun⟩⟩
  · rw [after_of_error he]
    refine ⟨h, fun dbName => ?_⟩
    rw [createdDatabase, hnone]
    simp
  · obtain ⟨hstill, hsame⟩ :=
      (ends_of_error hsession).mp (ends_getGraphSession_onDisk hgrounded librdf _)
    rw [after_of_error he]
    exact ⟨hstill, fun dbName => (hsame dbName).trans (hcreated dbName)⟩
  · obtain ⟨hstill, hopened, hsame⟩ :=
      (ends_of_ok hsession).mp (ends_getGraphSession_onDisk hgrounded librdf _)
    have hdisk := (hsame session.dbName).mpr hopened
    have hloop : Within (KeepsDatabases session) ((AccountRDFStatementBuilder.models message).forM
        (applyStatement librdf session)) :=
      within_applyStatements (keepsDatabases_refl session) (keepsDatabases_trans session)
        (keepsDatabases_writeModel session) _
    have hkeeps := hloop store'
    rw [after, ← hrun, ← after] at hkeeps
    refine ⟨hkeeps.grounded hdisk hstill, fun dbName => ?_⟩
    exact (((hkeeps hdisk).2.2 dbName).trans (hsame dbName)).trans (hcreated dbName)

theorem grounded_start (librdf : Librdf Graph) (accounts : Hash → Option AccountInfo)
    (databases : Bytes → Option Graph) : Grounded (start librdf accounts databases) := by
  have hbare : Grounded (⟨⟨accounts, []⟩, ⟨fun _ => none, databases, 0⟩, fun _ => none⟩ :
      AccountStore Graph) := by
    constructor
    · intro name graphStore hcached
      exact absurd hcached (by simp)
    · intro name session hkept
      exact absurd hkept (by simp)
  unfold start create
  by_cases hbase : (databases baseGraph).isSome
  · simp only [if_pos hbase]
    exact hbare.opening baseGraph
  · simp only [if_neg hbase]
    exact hbare

end Databases

section Runs

variable {hex librdf}

theorem grounded_callStep (call : Call) (store : AccountStore Graph) (h : Grounded store) :
    Grounded (callStep hex librdf call store) := by
  cases call with
  | applyTransaction message => exact (onDisk_applyTransaction h hex librdf message).1
  | query graphName =>
    refine ends_after.mp (ends_discard.mpr ?_)
    exact (ends_getGraphSession_onDisk h librdf graphName).mono (fun _ _ hends => hends.1)
      fun _ _ hends => hends.1

theorem grounded_step (operation : Operation) (store : AccountStore Graph) (h : Grounded store) :
    Grounded (step hex librdf operation store) := by
  cases operation with
  | call call => exact grounded_callStep call store h
  | commit => exact ⟨h.graphs, fun _ _ hkept => absurd hkept (by simp [step, AccountStore.commit])⟩
  | rollback =>
    exact ⟨h.graphs, fun _ _ hkept => absurd hkept (by simp [step, AccountStore.rollback])⟩

/-- Only a commit changes the committed mapping. -/
theorem committed_callStep (call : Call) (store : AccountStore Graph) :
    (callStep hex librdf call store).accounts.committed = store.accounts.committed := by
  cases call with
  | applyTransaction message =>
    rw [callStep, perform, after_applyTransaction_accounts]
    unfold withAccount
    cases createdAccount hex message store.getAccountInfo with
    | some accountInfo => rfl
    | none => rfl
  | query graphName =>
    have hends : Ends (discard (getGraphSession librdf graphName))
        (fun _ store' => store'.accounts = store.accounts)
        (fun _ store' => store'.accounts = store.accounts) store := by
      rw [ends_discard]
      exact (ends_getGraphSession librdf graphName store).mono (fun _ _ hends => hends.2.1)
        fun _ _ hends => hends.1
    exact congrArg Overlay.committed (ends_after.mp hends)

end Runs

/-- The graph of the session has the writes before the attempt that threw. -/
theorem writtenTo_of_throws {hex : HexCodec} {librdf : Librdf Graph}
    {message : TransactionMessage} {store : AccountStore Graph} {session : AccountGraphStore}
    (hsession : WritesOn hex librdf message store session)
    (hthrows : returns (applyTransaction hex librdf message) store = false) :
    ∃ done rest, messageAttempts message = done.map some ++ none :: rest ∧
      WrittenTo librdf session.dbName done store
        (after (applyTransaction hex librdf message) store) := by
  rcases applyTransaction_contents hex librdf message store with
    ⟨hnot, _⟩ | ⟨accountInfo, found, hfound, _, _, hcontents, hreturns⟩
  · exact absurd hsession (hnot session)
  · obtain rfl := hsession.unique hfound
    rw [hthrows] at hreturns
    rcases attempts_cases (messageAttempts message) with ⟨_, hall⟩ | ⟨rest, hsplit, _⟩
    · exact absurd (hreturns.trans hall) (by simp)
    · exact ⟨_, rest, hsplit, writtenTo_of_contents hcontents⟩

/-- In a transaction that is opened at any time in the life of a store, a call
that throws leaves, once the transaction is rolled back, the mapping as it was
when the transaction was opened, in one graph the writes before the object that
made it throw, and of databases at most the one it created. -/
theorem failed_transaction_leaves (hex : HexCodec) (librdf : Librdf Graph)
    (accounts : Hash → Option AccountInfo) (databases : Bytes → Option Graph)
    (operations : List Operation) (calls : List Call) (message : TransactionMessage)
    (hopened : (run (step hex librdf) (start librdf accounts databases)
      operations).accounts.pending = [])
    (hthrows : returns (applyTransaction hex librdf message)
      (run (callStep hex librdf) (run (step hex librdf) (start librdf accounts databases)
        operations) calls) = false) :
    LeftByFailure hex librdf message
      (run (step hex librdf) (start librdf accounts databases) operations)
      (run (callStep hex librdf) (run (step hex librdf) (start librdf accounts databases)
        operations) calls)
      (after (applyTransaction hex librdf message) (run (callStep hex librdf)
        (run (step hex librdf) (start librdf accounts databases) operations) calls)).rollback := by
  generalize hbegin : run (step hex librdf) (start librdf accounts databases) operations = opened
    at hopened hthrows ⊢
  have hgrounded : Grounded opened :=
    hbegin ▸ run_keeps _ grounded_step (grounded_start librdf accounts databases) operations
  have hcommitted : (run (callStep hex librdf) opened calls).accounts.committed =
      opened.accounts.committed := by
    refine @run_keeps _ _ (callStep hex librdf)
      (fun store => store.accounts.committed = opened.accounts.committed) ?_ opened rfl calls
    exact fun call store hsame => (committed_callStep call store).trans hsame
  have hstore := run_keeps _ (@grounded_callStep Graph hex librdf) hgrounded calls
  generalize run (callStep hex librdf) opened calls = store at hcommitted hstore hthrows ⊢
  constructor
  · have hlast := (@committed_callStep Graph hex librdf (.applyTransaction message) store).trans
      hcommitted
    rw [← Overlay.rollback_of_pending_nil hopened]
    exact congrArg (Overlay.mk · []) hlast
  · intro hnot
    rcases applyTransaction_contents hex librdf message store with
      ⟨_, _, hsame⟩ | ⟨_, session, hsession, _⟩
    · exact hsame
    · exact absurd ((startsWriting_iff hex librdf message store).mp ⟨session, hsession⟩) hnot
  · intro session hsession
    exact writtenTo_of_throws hsession hthrows
  · intro dbName
    exact (onDisk_applyTransaction hstore hex librdf message).2 dbName

def blankNodeMessage : TransactionMessage where
  sourceAccount := [0xab]
  targetAccount := []
  feeAccount := []
  transactionHash := [0x01]
  signature := []
  signedTransaction := ⟨[0x01], []⟩
  currentStatus := .init
  changeSet := [⟨⟨[0x01], [0xab], .init,
    [.asn1Change (some ⟨.persist, [.rdfSubject created]⟩)]⟩, [], []⟩]
where
  created : RDFSubject := {
    subject := accountOntologyClass ++ text "/AB"
    rdfPredicates := [
      ⟨statusPredicate, [RDFObjectHelper.ofLiteral (text "create") []]⟩,
      ⟨idPredicate, [RDFObjectHelper.ofLiteral (text "AB") []]⟩,
      ⟨typePredicate, [RDFObjectHelper.ofLiteral (text "master") []]⟩,
      ⟨text "node", [{ RDFObjectHelper.ofLiteral [] [] with type := text "bnode" }]⟩] }

def firstStart : AccountStore (List Statement) :=
  start .statementList (fun _ => none) fun _ => none

def leftStore : AccountStore (List Statement) :=
  (after (applyTransaction .botan .statementList blankNodeMessage) firstStart).rollback

theorem blank_node_throws :
    returns (applyTransaction .botan .statementList blankNodeMessage) firstStart = false := by
  decide +kernel

theorem blank_node_left :
    LeftByFailure .botan .statementList blankNodeMessage firstStart firstStart leftStore :=
  failed_transaction_leaves .botan .statementList (fun _ => none) (fun _ => none) [] []
    blankNodeMessage rfl blank_node_throws

/-- A call that throws has left the store as it was when the transaction is rolled back. -/
def LeavesNoTrace {Graph : Type} (hex : HexCodec) (librdf : Librdf Graph)
    (message : TransactionMessage) (store : AccountStore Graph) : Prop :=
  returns (applyTransaction hex librdf message) store = false →
    (after (applyTransaction hex librdf message) store).rollback.getAccountInfo =
        store.getAccountInfo ∧
      contents librdf (after (applyTransaction hex librdf message) store).rollback =
        contents librdf store ∧
      ∀ dbName, OnDisk (after (applyTransaction hex librdf message) store).rollback dbName ↔
        OnDisk store dbName

/-- The base graph is new, and has three statements of the account that is not there. -/
theorem blank_node_leaves_trace :
    leftStore.getAccountInfo [0xab] = none ∧
    ¬ OnDisk firstStart baseGraph ∧ OnDisk leftStore baseGraph ∧
    (contents .statementList leftStore baseGraph).length = 3 ∧
    ¬ LeavesNoTrace .botan .statementList blankNodeMessage firstStart := by
  have hbefore : ¬ OnDisk firstStart baseGraph := by
    intro hdisk
    exact hdisk (by decide)
  have hleft : leftStore.getAccountInfo [0xab] = none ∧
      (contents .statementList leftStore baseGraph).length = 3 := by decide +kernel
  obtain ⟨haccount, hcontents⟩ := hleft
  have hafter : OnDisk leftStore baseGraph := by
    intro hmissing
    rw [contents, content, hmissing] at hcontents
    exact absurd hcontents (by decide)
  refine ⟨haccount, hbefore, hafter, hcontents, ?_⟩
  intro hnone
  exact hbefore (((hnone blank_node_throws).2.2 baseGraph).mp hafter)

end Keto.AccountDb.FailedTransaction
