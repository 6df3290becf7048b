import Keto.AccountDb.StoreSteps
import Keto.TransactionCommon

/-!
Which change sets of a message reach which graph. The account store writes the
changes of every change set to the graph of the account of the phase; the
account and the status a change set carries are read by nothing. A message that
has collected the change sets of several phases has all of them written in each.
-/
namespace Keto.AccountDb.ChangeApplication

open Protocol Library Library.Stateful TransactionCommon
open AccountStore AccountGraphSession

variable {Graph : Type} {hex : HexCodec} {librdf : Librdf Graph}

def changeSetWrites (changeSet : ChangeSet) : List GraphWrite :=
  (changeSet.changes.filterMap AccountRDFStatementBuilder.model?).flatMap modelWrites

def messageWrites (message : TransactionMessage) : List GraphWrite :=
  message.changeSet.flatMap fun signedChangeSet => changeSetWrites signedChangeSet.changeSet

def ownWrites (account : Hash) (message : TransactionMessage) : List GraphWrite :=
  (message.changeSet.filter fun signedChangeSet =>
    signedChangeSet.changeSet.accountHash = account ∧
      signedChangeSet.changeSet.status = message.currentStatus).flatMap
    fun signedChangeSet => changeSetWrites signedChangeSet.changeSet

def HasPhaseAccount (message : TransactionMessage) : Prop :=
  message.currentStatus ≠ .processing ∧ message.currentStatus ≠ .wating

/-- The graph that the open transaction uses for an account: the database of
the session that its graph name has. -/
def AccountGraph (store : AccountStore Graph) (account : Hash) (dbName : Bytes) : Prop :=
  ∃ accountInfo session, store.getAccountInfo account = some accountInfo ∧
    store.sessions accountInfo.graphName = some session ∧ session.dbName = dbName

def WrittenTo (librdf : Librdf Graph) (dbName : Bytes) (writes : List GraphWrite)
    (store store' : AccountStore Graph) : Prop :=
  contents librdf store' dbName =
      Overlay.applyAll (GraphWrite.apply librdf) writes (contents librdf store dbName) ∧
    ∀ other, other ≠ dbName → contents librdf store' other = contents librdf store other

theorem models_writes (message : TransactionMessage) :
    (AccountRDFStatementBuilder.models message).flatMap modelWrites = messageWrites message := by
  rw [AccountRDFStatementBuilder.models, AccountRDFStatementBuilder.changes, messageWrites,
    List.filterMap_flatMap, List.flatMap_assoc]
  rfl

theorem phaseAccount_eq {message : TransactionMessage} (h : HasPhaseAccount message) :
    TransactionMessageHelper.getCurrentAccount message = .ok (phaseAccount message) := by
  obtain ⟨hprocessing, hwating⟩ := h
  unfold TransactionMessageHelper.getCurrentAccount phaseAccount
  cases hstatus : message.currentStatus with
  | init => rfl
  | debit => rfl
  | processing => exact absurd hstatus hprocessing
  | wating => exact absurd hstatus hwating
  | fee => rfl
  | credit => rfl
  | complete => rfl

/-- Change sets are written in order and only to the graph of the account: all
of them by a call that returns, a first part of the writes by one that throws
while it writes, and none by one that throws before. -/
def AppliesChangeSets (hex : HexCodec) (librdf : Librdf Graph) (message : TransactionMessage)
    (store : AccountStore Graph) (account : Hash) : Prop :=
  (returns (applyTransaction hex librdf message) store = false ∧
    contents librdf (after (applyTransaction hex librdf message) store) = contents librdf store) ∨
  ∃ dbName done rest, messageWrites message = done ++ rest ∧
    AccountGraph (after (applyTransaction hex librdf message) store) account dbName ∧
    WrittenTo librdf dbName done store (after (applyTransaction hex librdf message) store) ∧
    (returns (applyTransaction hex librdf message) store = true → rest = [])

theorem writtenTo_of_contents {dbName : Bytes} {writes : List GraphWrite}
    {store store' : AccountStore Graph}
    (h : contents librdf store' = Overlay.applyAll
      (fun write => writeAt dbName (write.apply librdf)) writes (contents librdf store)) :
    WrittenTo librdf dbName writes store store' := by
  have hkeyed : contents librdf store' = Function.update (contents librdf store) dbName
      (Overlay.applyAll (GraphWrite.apply librdf) writes (contents librdf store dbName)) :=
    h.trans (Overlay.applyAll_update (GraphWrite.apply librdf) dbName writes _)
  constructor
  · rw [hkeyed, Function.update_self]
  · intro other hother
    rw [hkeyed, Function.update_of_ne hother]

/-- One phase, whichever way it ends. -/
theorem appliesChangeSets (hex : HexCodec) (librdf : Librdf Graph) (message : TransactionMessage)
    (store : AccountStore Graph) :
    AppliesChangeSets hex librdf message store (phaseAccount message) := by
  rcases applyTransaction_contents hex librdf message store with
    ⟨_, hnone⟩ | ⟨accountInfo, session, _, hinfo, hsession, hcontents, hreturns⟩
  · exact Or.inl hnone
  · obtain ⟨rest, hsplit, hall⟩ :=
      performed_prefix ((AccountRDFStatementBuilder.models message).flatMap modelAttempts)
    rw [attempts_writes, models_writes] at hsplit
    refine Or.inr ⟨session.dbName, _, rest, hsplit, ?_, writtenTo_of_contents hcontents, ?_⟩
    · exact ⟨accountInfo, session, hinfo, hsession, rfl⟩
    · rw [hreturns]
      exact hall

/-- A phase that returns: all change sets go to the graph of the phase's account. -/
theorem applyTransaction_written {message : TransactionMessage} {store store' : AccountStore Graph}
    (h : applyTransaction hex librdf message store = .ok ⟨⟩ store') :
    ∃ dbName, AccountGraph store' (phaseAccount message) dbName ∧
      WrittenTo librdf dbName (messageWrites message) store store' := by
  have hreturns : returns (applyTransaction hex librdf message) store = true := by rw [returns, h]
  have hafter : after (applyTransaction hex librdf message) store = store' := after_of_ok h
  rcases appliesChangeSets hex librdf message store with
    ⟨hthrows, _⟩ | ⟨dbName, done, rest, hsplit, hgraph, hwritten, hall⟩
  · rw [hreturns] at hthrows
    exact absurd hthrows (by simp)
  · rw [hall hreturns, List.append_nil] at hsplit
    rw [hafter] at hgraph hwritten
    rw [hsplit]
    exact ⟨dbName, hgraph, hwritten⟩

theorem accountGraph_unique {store : AccountStore Graph} {account : Hash} {dbName dbName' : Bytes}
    (h : AccountGraph store account dbName) (h' : AccountGraph store account dbName') :
    dbName = dbName' := by
  obtain ⟨accountInfo, session, hinfo, hsession, rfl⟩ := h
  obtain ⟨accountInfo', session', hinfo', hsession', rfl⟩ := h'
  obtain rfl := Option.some.inj (hinfo.symm.trans hinfo')
  obtain rfl := Option.some.inj (hsession.symm.trans hsession')
  rfl

/-- Phases that return, each with the graph its current account has, and
commits between them. -/
inductive Phases (hex : HexCodec) (librdf : Librdf Graph) :
    AccountStore Graph → List (TransactionMessage × Bytes) → AccountStore Graph → Prop
  | done (store) : Phases hex librdf store [] store
  | phase {store store₁ store' message account dbName phases} :
    HasPhaseAccount message →
    TransactionMessageHelper.getCurrentAccount message = .ok account →
    applyTransaction hex librdf message store = .ok ⟨⟩ store₁ →
    AccountGraph store₁ account dbName →
    Phases hex librdf store₁ phases store' →
    Phases hex librdf store ((message, dbName) :: phases) store'
  | committed {store store' phases} :
    Phases hex librdf store.commit phases store' → Phases hex librdf store phases store'

def phaseWrites (phases : List (TransactionMessage × Bytes)) (dbName : Bytes) : List GraphWrite :=
  (phases.filter fun phase => phase.2 = dbName).flatMap fun phase => messageWrites phase.1

theorem phases_written {phases : List (TransactionMessage × Bytes)}
    {store store' : AccountStore Graph} (h : Phases hex librdf store phases store')
    (dbName : Bytes) :
    contents librdf store' dbName = Overlay.applyAll (GraphWrite.apply librdf)
      (phaseWrites phases dbName) (contents librdf store dbName) := by
  induction h with
  | done store => rfl
  | committed _ ih => exact ih
  | @phase store store₁ store' message account target phases hphase haccount happly hgraph _ ih =>
    obtain rfl := Except.ok.inj ((phaseAccount_eq hphase).symm.trans haccount)
    obtain ⟨found, hfound, hwritten, hothers⟩ := applyTransaction_written happly
    obtain rfl := accountGraph_unique hgraph hfound
    by_cases hname : target = dbName
    · subst hname
      have hwrites : phaseWrites ((message, target) :: phases) target =
          messageWrites message ++ phaseWrites phases target := by simp [phaseWrites]
      rw [ih, hwritten, hwrites, Overlay.applyAll_append]
    · have hwrites : phaseWrites ((message, target) :: phases) dbName =
          phaseWrites phases dbName := by simp [phaseWrites, hname]
      rw [ih, hothers dbName (Ne.symm hname), hwrites]

/-- In every phase with an account a call writes the change sets of the message,
all of them when it returns, to the graph of the current account and nothing to
another graph; over a run of phases every graph has got the writes of all
change sets in every phase whose account it is the graph of. -/
theorem every_change_set_applied (hex : HexCodec) (librdf : Librdf Graph) :
    (∀ message (store : AccountStore Graph), HasPhaseAccount message →
      ∃ account, TransactionMessageHelper.getCurrentAccount message = .ok account ∧
        AppliesChangeSets hex librdf message store account) ∧
    (∀ phases (store store' : AccountStore Graph), Phases hex librdf store phases store' →
      ∀ dbName, contents librdf store' dbName = Overlay.applyAll (GraphWrite.apply librdf)
        (phaseWrites phases dbName) (contents librdf store dbName)) := by
  constructor
  · intro message store hphase
    exact ⟨phaseAccount message, phaseAccount_eq hphase, appliesChangeSets hex librdf message store⟩
  · intro phases store store' hphases dbName
    exact phases_written hphases dbName

/-- Account `[0xab]` created in its complete phase, by a message that has also
collected a change set of account `[0xcd]` from the debit phase. -/
def collectedMessage : TransactionMessage where
  sourceAccount := [0xcd]
  targetAccount := [0xab]
  feeAccount := []
  transactionHash := [0x01]
  signature := []
  signedTransaction := ⟨[0x01], []⟩
  currentStatus := .complete
  changeSet := [
    ⟨⟨[0x01], [0xcd], .debit, [.asn1Change (some ⟨.persist, [.rdfSubject debited]⟩)]⟩, [], []⟩,
    ⟨⟨[0x01], [0xab], .complete, [.asn1Change (some ⟨.persist, [.rdfSubject created]⟩)]⟩, [], []⟩]
where
  debited : RDFSubject :=
    ⟨text "debit", [⟨text "amount", [RDFObjectHelper.ofLiteral (text "1") []]⟩]⟩
  created : RDFSubject := AccountRDFStatementBuilder.genesisSubject (text "AB")
    [(AccountSystemOntologyTypes.statusPredicate, text "create"),
      (AccountSystemOntologyTypes.idPredicate, text "AB"),
      (AccountSystemOntologyTypes.typePredicate, text "master")]

def collectedStore : AccountStore (List Statement) :=
  after (applyTransaction .botan .statementList collectedMessage) .empty

/-- The message is applied, and its account has the graph of its own. -/
theorem collected_store :
    returns (applyTransaction .botan .statementList collectedMessage) .empty = true ∧
      collectedStore.getAccountInfo [0xab] = some ⟨1, [0xab], [], text "master", baseGraph⟩ ∧
      collectedStore.sessions baseGraph = some ⟨0, baseGraph⟩ := by decide +kernel

theorem collected_returns :
    applyTransaction .botan .statementList collectedMessage .empty = .ok ⟨⟩ collectedStore :=
  eq_ok_of_returns collected_store.1

theorem collected_graph : AccountGraph collectedStore [0xab] baseGraph := by
  obtain ⟨_, haccount, hsession⟩ := collected_store
  generalize collectedStore = store at haccount hsession ⊢
  exact ⟨_, _, haccount, hsession, rfl⟩

theorem collected_run : Phases .botan .statementList .empty [(collectedMessage, baseGraph)]
    collectedStore := by
  refine Phases.phase ?_ rfl collected_returns collected_graph (Phases.done _)
  exact ⟨by decide, by decide⟩

theorem collected_change_sets_applied :
    (∃ account, TransactionMessageHelper.getCurrentAccount collectedMessage = .ok account ∧
      AppliesChangeSets .botan .statementList collectedMessage .empty account) ∧
    (∀ dbName, contents .statementList collectedStore dbName =
      Overlay.applyAll (GraphWrite.apply .statementList)
        (phaseWrites [(collectedMessage, baseGraph)] dbName) []) := by
  obtain ⟨hstep, hrun⟩ := every_change_set_applied .botan .statementList
  refine ⟨hstep collectedMessage .empty ?_, ?_⟩
  · exact ⟨by decide, by decide⟩
  · exact hrun _ _ _ collected_run

def OwnChangesOnly (hex : HexCodec) (librdf : Librdf Graph) (message : TransactionMessage)
    (store : AccountStore Graph) : Prop :=
  ∀ account dbName store', TransactionMessageHelper.getCurrentAccount message = .ok account →
    applyTransaction hex librdf message store = .ok ⟨⟩ store' →
    AccountGraph store' account dbName →
    WrittenTo librdf dbName (ownWrites account message) store store'

/-- The change set of account `[0xcd]` is written to the graph of account `[0xab]`. -/
theorem foreign_change_set_applied :
    ¬ OwnChangesOnly .botan .statementList collectedMessage .empty := by
  intro h
  obtain ⟨hwritten, _⟩ := h [0xab] baseGraph collectedStore rfl collected_returns collected_graph
  exact absurd hwritten (by decide +kernel)

end Keto.AccountDb.ChangeApplication
