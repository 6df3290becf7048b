import Keto.Block.ChainReplay

/-!
The chain is the history of the base graph as well, as long as no process was ended by
an exception, whose writes would have stayed, and every account is in the base graph;
the accounts of other graphs are written to whichever graph their name was opened as.
-/
namespace Keto.Block

open Protocol AccountDb BlockDb Library Library.Stateful Library.Runs
open AccountDb.AccountStore AccountDb.AccountGraphStoreManager
open AccountsMapping (withCreated getAccountInfo_applyTransaction)
open ChangeApplication (messageWrites applyTransaction_written)
open FailedTransaction (Grounded OnDisk createdDatabase onDisk_applyTransaction grounded_start)

def AllOnBase (accounts : Hash → Option AccountInfo) : Prop :=
  ∀ hash accountInfo, accounts hash = some accountInfo → accountInfo.graphName = baseGraph

theorem createdAccount_eq_some {hex : HexCodec} {message : TransactionMessage}
    {accounts : Hash → Option AccountInfo} {accountInfo : AccountInfo}
    (h : createdAccount hex message accounts = some accountInfo) :
    accounts (phaseAccount message) = none ∧
      withCreated hex message accounts (phaseAccount message) = some accountInfo := by
  constructor
  · cases hknown : accounts (phaseAccount message) with
    | none => rfl
    | some found => simp [createdAccount, hknown] at h
  · simp [withCreated, h]

/-- A message creates no account that is known. -/
theorem AllOnBase.of_withCreated {hex : HexCodec} {message : TransactionMessage}
    {accounts : Hash → Option AccountInfo} (h : AllOnBase (withCreated hex message accounts)) :
    AllOnBase accounts := by
  intro hash accountInfo hknown
  refine h hash accountInfo ?_
  rw [withCreated]
  cases hcreated : createdAccount hex message accounts with
  | none => exact hknown
  | some created =>
    have hne : hash ≠ phaseAccount message := by
      rintro rfl
      rw [(createdAccount_eq_some hcreated).1] at hknown
      exact absurd hknown (by simp)
    exact (Function.update_of_ne hne _ _).trans hknown

theorem AllOnBase.withCreated {hex : HexCodec} {message : TransactionMessage}
    {accounts : Hash → Option AccountInfo} (h : AllOnBase accounts) {created : AccountInfo}
    (hcreated : createdAccount hex message accounts = some created)
    (hbase : created.graphName = baseGraph) :
    AllOnBase (AccountsMapping.withCreated hex message accounts) := by
  have hupdate : AccountsMapping.withCreated hex message accounts =
      Function.update accounts (phaseAccount message) (some created) := by
    rw [AccountsMapping.withCreated, hcreated]
  intro hash accountInfo hknown
  rw [hupdate] at hknown
  by_cases hhash : hash = phaseAccount message
  · rw [hhash, Function.update_self] at hknown
    exact Option.some.inj hknown ▸ hbase
  · rw [Function.update_of_ne hhash] at hknown
    exact h hash accountInfo hknown

variable {Graph PrivateKey : Type} {context : NodeContext Graph PrivateKey}

structure OnBase (store : AccountStore Graph) : Prop where
  grounded : Grounded store
  base : ∀ dbName, OnDisk store dbName → dbName = baseGraph

def baseContent (librdf : Librdf Graph) (store : AccountStore Graph) : Graph :=
  contents librdf store baseGraph

def written (librdf : Librdf Graph) (messages : List TransactionMessage) (graph : Graph) : Graph :=
  Overlay.applyAll (GraphWrite.apply librdf) (messages.flatMap messageWrites) graph

theorem written_append (librdf : Librdf Graph) (messages more : List TransactionMessage)
    (graph : Graph) :
    written librdf (messages ++ more) graph =
      written librdf more (written librdf messages graph) := by
  rw [written, List.flatMap_append, Overlay.applyAll_append]
  rfl

/-- A message that is applied while every account is in the base graph. -/
theorem OnBase.apply {hex : HexCodec} {librdf : Librdf Graph} {message : TransactionMessage}
    {store store' : AccountStore Graph} (h : OnBase store)
    (happly : applyTransaction hex librdf message store = .ok ⟨⟩ store')
    (hall : AllOnBase store'.getAccountInfo) :
    OnBase store' ∧
      baseContent librdf store' = written librdf [message] (baseContent librdf store) := by
  obtain ⟨hgrounded, hdisk⟩ := onDisk_applyTransaction h.grounded hex librdf message
  have hinfo := (getAccountInfo_applyTransaction hex librdf message store).1
  rw [after_of_ok happly] at hgrounded hdisk hinfo
  have hbase : OnBase store' := by
    refine ⟨hgrounded, ?_⟩
    intro dbName hnew
    rcases (hdisk dbName).mp hnew with hold | hcreated
    · exact h.base dbName hold
    · obtain ⟨accountInfo, haccount, hgraph⟩ := Option.bind_eq_some_iff.mp hcreated
      split at hgraph
      · obtain rfl := Option.some.inj hgraph
        refine hall (phaseAccount message) accountInfo ?_
        rw [hinfo]
        exact (createdAccount_eq_some haccount).2
      · exact absurd hgraph (by simp)
  obtain ⟨dbName, ⟨accountInfo, session, _, hsession, rfl⟩, hwritten, _⟩ :=
    applyTransaction_written happly
  have hname : session.dbName = baseGraph :=
    hbase.base _ (hgrounded.sessions _ session hsession)
  rw [hname] at hwritten
  refine ⟨hbase, ?_⟩
  rw [written, List.flatMap_singleton]
  exact hwritten

theorem Stored.onBase {messages : List TransactionMessage} {start accounts : AccountStore Graph}
    (h : Stored context start messages accounts) (hall : AllOnBase accounts.getAccountInfo) :
    AllOnBase start.getAccountInfo ∧ (OnBase start → OnBase accounts ∧
      baseContent context.librdf accounts =
        written context.librdf messages (baseContent context.librdf start)) := by
  induction messages generalizing start with
  | nil =>
    obtain rfl : accounts = start := h
    exact ⟨hall, fun hbase => ⟨hbase, rfl⟩⟩
  | cons message messages ih =>
    obtain ⟨next, happly, hrest⟩ := h
    obtain ⟨hallNext, hlast⟩ := ih hrest
    have hinfo := (getAccountInfo_applyTransaction context.hex context.librdf message start).1
    rw [after_of_ok happly] at hinfo
    refine ⟨AllOnBase.of_withCreated (hinfo ▸ hallNext), fun hbase => ?_⟩
    obtain ⟨hbaseNext, hfirst⟩ := hbase.apply happly hallNext
    obtain ⟨hbaseLast, hcontent⟩ := hlast hbaseNext
    refine ⟨hbaseLast, ?_⟩
    rw [hcontent, hfirst, ← written_append]
    rfl

theorem OnBase.commit {store : AccountStore Graph} (h : OnBase store) : OnBase store.commit :=
  ⟨⟨h.grounded.graphs, fun _ _ hkept => absurd hkept (by simp [AccountStore.commit])⟩, h.base⟩

/-- The accounts of a new process: the graphs are as they were. -/
theorem OnBase.start {store : AccountStore Graph} (h : OnBase store) (librdf : Librdf Graph) :
    OnBase (FailedTransaction.start librdf store.accounts.committed store.graphStores.databases) ∧
      baseContent librdf (FailedTransaction.start librdf store.accounts.committed
        store.graphStores.databases) = baseContent librdf store := by
  have hgrounded := grounded_start librdf store.accounts.committed store.graphStores.databases
  let bare : AccountStore Graph :=
    ⟨⟨store.accounts.committed, []⟩, ⟨fun _ => none, store.graphStores.databases, 0⟩, fun _ => none⟩
  by_cases hexists : (store.graphStores.databases baseGraph).isSome
  · have hstart : FailedTransaction.start librdf store.accounts.committed
        store.graphStores.databases = FailedTransaction.opening librdf baseGraph bare := by
      rw [FailedTransaction.start, create, if_pos hexists]
      rfl
    rw [hstart] at hgrounded ⊢
    refine ⟨⟨hgrounded, ?_⟩,
      congrFun (content_openCached librdf bare.graphStores baseGraph) baseGraph⟩
    intro dbName hdisk
    rcases (FailedTransaction.onDisk_opening bare baseGraph dbName).mp hdisk with hold | hnew
    · exact h.base dbName hold
    · exact hnew
  · have hstart : FailedTransaction.start librdf store.accounts.committed
        store.graphStores.databases = bare := by
      rw [FailedTransaction.start, create, if_neg hexists]
    rw [hstart] at hgrounded ⊢
    exact ⟨⟨hgrounded, h.base⟩, rfl⟩

/-- While every account is in the base graph, it is what the messages of the chain make. -/
def Painted (context : NodeContext Graph PrivateKey) (s : Stores Graph) : Prop :=
  AllOnBase s.accounts.getAccountInfo → OnBase s.accounts ∧
    baseContent context.librdf s.accounts =
      written context.librdf (messagesOf (chainOf s.chain.database.committed))
        context.librdf.newModel

theorem Painted.extends {s s' : Stores Graph} {transactions : List Transaction}
    (h : Painted context s) (hextends : Extends context s transactions s') :
    Painted context s' := by
  obtain ⟨signedBlock, accounts, _, hchain, hstored, hcommit⟩ := hextends
  intro hall
  have hinfo : s'.accounts.getAccountInfo = accounts.getAccountInfo := by
    rw [hcommit]
    rfl
  rw [hinfo] at hall
  obtain ⟨hbefore, hpainted⟩ := hstored.onBase hall
  obtain ⟨hbase, hcontent⟩ := h hbefore
  obtain ⟨hbase', hcontent'⟩ := hpainted hbase
  rw [hcommit, hchain, messagesOf_concat, written_append, ← hcontent]
  exact ⟨hbase'.commit, hcontent'⟩

namespace ChainNode

def Running (context : NodeContext Graph PrivateKey) (operation : Operation)
    (node : ChainNode Graph) : Prop :=
  (step context operation node).thread ≠ .crashed

instance (operation : Operation) (node : ChainNode Graph) :
    Decidable (Running context operation node) := inferInstanceAs (Decidable (_ ≠ _))

/-- What holds while no process was ended by an exception. -/
structure Unbroken (context : NodeContext Graph PrivateKey) (node : ChainNode Graph) : Prop where
  sound : Sound context node
  painted : Painted context node.stores
  idle : node.stores.accounts.accounts.pending = []

theorem unbroken_off (context : NodeContext Graph PrivateKey) : Unbroken context off where
  sound := sound_off context
  painted := by
    intro _
    refine ⟨⟨⟨?_, ?_⟩, ?_⟩, rfl⟩
    · intro _ _ hcached
      exact absurd hcached (by simp [off, AccountStore.empty, AccountGraphStoreManager.empty])
    · exact fun _ _ hkept => absurd hkept (by simp [off, AccountStore.empty])
    · exact fun _ hdisk => absurd rfl hdisk
  idle := rfl

section Steps

variable (hbinding : Binding context)
include hbinding

theorem Unbroken.restart {node : ChainNode Graph} (h : Unbroken context node) (date : Bytes)
    {document : Option Stores.Genesis}
    (hdocument : ∀ genesis ∈ document, genesis.parent = genesisKey)
    (hrunning : (ChainNode.restart context date document node).thread ≠ .crashed) :
    Painted context (ChainNode.restart context date document node).stores := by
  have hopened : Painted context (Stores.opened context node.stores) := by
    have hinfo : node.stores.accounts.getAccountInfo = node.stores.accounts.accounts.committed :=
      Overlay.view_of_pending_nil AccountPut.apply h.idle
    intro hall
    obtain ⟨hbase, hcontent⟩ := h.painted (hinfo ▸ hall)
    obtain ⟨hstart, hsame⟩ := hbase.start context.librdf
    exact ⟨hstart, hsame.trans hcontent⟩
  have hends := ends_postStart hbinding date document h.sound.recorded hdocument
  rw [ChainNode.restart] at hrunning ⊢
  cases hstart : Stores.postStart context date document (Stores.opened context node.stores) with
  | error failure stores => exact absurd rfl (hstart ▸ hrunning)
  | ok _ stores =>
    obtain ⟨_, _, ⟨hchain, haccounts⟩ | ⟨_, transactions, hextends⟩⟩ := (ends_of_ok hstart).mp hends
    · intro hall
      have hinfo : stores.accounts.getAccountInfo =
          (Stores.opened context node.stores).accounts.getAccountInfo := by
        rw [haccounts]
        rfl
      obtain ⟨hbase, hcontent⟩ := hopened (hinfo ▸ hall)
      simp only [next]
      rw [haccounts, hchain]
      exact ⟨hbase.commit, hcontent⟩
    · exact hopened.extends hextends

theorem Unbroken.perform {operation : Operation} {node : ChainNode Graph}
    (h : Unbroken context node) (hthread : node.thread ≠ .crashed)
    (hlegal : OnGenesisKey operation)
    (hrunning : (perform context operation node).thread ≠ .crashed) :
    Painted context (perform context operation node).stores := by
  have hpainted := h.painted
  cases operation with
  | restart date document => exact h.restart hbinding date hlegal hrunning
  | addTransaction transaction =>
    rw [ChainNode.perform]
    split <;> exact hpainted
  | terminate => exact hpainted
  | checkState =>
    rw [ChainNode.perform]
    split <;> exact hpainted
  | getTransactions =>
    rw [ChainNode.perform]
    split <;> exact hpainted
  | generateBlock date =>
    have hends := fun batch => ends_generateBlock hbinding date batch h.sound.recorded
      (h.sound.settled hthread)
    rw [ChainNode.perform] at hrunning ⊢
    split
    · next batch hgenerating =>
      simp only [hgenerating] at hrunning
      cases hgenerate : Stores.generateBlock context date batch node.stores with
      | error failure stores => exact absurd rfl (hgenerate ▸ hrunning)
      | ok _ stores =>
        obtain ⟨_, _, hextends, _⟩ := (ends_of_ok hgenerate).mp (hends batch)
        exact hpainted.extends hextends
    · exact hpainted

theorem Unbroken.step {operation : Operation} {node : ChainNode Graph} (h : Unbroken context node)
    (hlegal : OnGenesisKey operation) (hrunning : Running context operation node) :
    Unbroken context (step context operation node) := by
  have hsound := h.sound.step hbinding hlegal
  refine ⟨hsound, ?_, (hsound.settled hrunning).accounts⟩
  unfold Running ChainNode.step at hrunning
  unfold ChainNode.step
  split
  · next hthread =>
    rw [if_pos hthread] at hrunning
    cases operation with
    | restart date document => exact h.restart hbinding date hlegal hrunning
    | _ => exact h.painted
  · next hthread =>
    rw [if_neg hthread] at hrunning
    exact h.perform hbinding hthread hlegal hrunning

/-- In a run in which no process is ended by an exception: as long as all accounts are in
the base graph, that graph is what the messages of the chain make of a new one, write by
write, and there is no other graph. -/
theorem graph_replays_chain {operations : List Operation}
    (hlegal : ∀ operation ∈ operations, OnGenesisKey operation)
    (hrunning : Along (ChainNode.step context) (Running context) off operations)
    (hall : AllOnBase
      (run (ChainNode.step context) off operations).stores.accounts.getAccountInfo) :
    let stores := (run (ChainNode.step context) off operations).stores
    contents context.librdf stores.accounts baseGraph =
        written context.librdf (messagesOf (chainOf stores.chain.database.committed))
          context.librdf.newModel ∧
      ∀ dbName, OnDisk stores.accounts dbName → dbName = baseGraph := by
  have hboth : Along (ChainNode.step context)
      (fun operation node => OnGenesisKey operation ∧ Running context operation node)
      off operations :=
    Rounds.along_and (Rounds.along_of_mem fun operation hmem _ => hlegal operation hmem) hrunning
  have hunbroken : Unbroken context (run (ChainNode.step context) off operations) :=
    invariant_run (ChainNode.step context) (fun _ _ h hok => h.step hbinding hok.1 hok.2)
      (unbroken_off context) hboth
  obtain ⟨hbase, hcontent⟩ := hunbroken.painted hall
  exact ⟨hcontent, hbase.base⟩

end Steps

section Producing

open AccountDb.NodeAccountRouting (rootCreation childCreation)

def producing : List Operation :=
  [.restart [] (some ⟨genesisKey, [carrying rootCreation]⟩),
    .addTransaction (carrying childCreation), .checkState,
    .getTransactions, .generateBlock [], .restart [] none]

theorem producing_unbroken :
    let node := run (ChainNode.step plainNode) .off producing
    Along (ChainNode.step plainNode) (Running plainNode) .off producing ∧
      messagesOf (chainOf node.stores.chain.database.committed) = [rootCreation, childCreation] ∧
      node.stores.accounts.accounts.pending.length = 0 := by
  decide +kernel

theorem producing_legal : ∀ operation ∈ producing, OnGenesisKey operation := by
  intro operation hmem
  simp only [producing, List.mem_cons, List.not_mem_nil, or_false] at hmem
  rcases hmem with rfl | rfl | rfl | rfl | rfl | rfl <;> simp [OnGenesisKey]

theorem producing_allOnBase :
    AllOnBase (run (ChainNode.step plainNode) .off producing).stores.accounts.getAccountInfo := by
  obtain ⟨_, hmessages, hpending⟩ := producing_unbroken
  have hsound : Sound plainNode (run (ChainNode.step plainNode) .off producing) :=
    invariant_run (ChainNode.step plainNode) (fun _ _ h hok => h.step plainNode_binding hok)
      (sound_off plainNode)
      (Rounds.along_of_mem fun operation hmem _ => producing_legal operation hmem)
  have hcommitted := hsound.recorded.accounts
  have hview := Overlay.view_of_pending_nil AccountPut.apply
    (List.eq_nil_of_length_eq_zero hpending)
  rw [hmessages] at hcommitted
  have hinfo : (run (ChainNode.step plainNode) .off producing).stores.accounts.getAccountInfo =
      replay .botan [rootCreation, childCreation] := hview.trans hcommitted
  obtain ⟨hroot, hchild⟩ : createdAccount .botan rootCreation (fun _ => none) =
        some ⟨1, [0xab], [], text "master", baseGraph⟩ ∧
      createdAccount .botan childCreation (replay .botan [rootCreation]) =
        some ⟨1, [0xcd], [0xab], text "user", baseGraph⟩ := by decide +kernel
  have hnone : AllOnBase fun _ => none := fun _ _ hknown => absurd hknown (by simp)
  have hall : AllOnBase (replay .botan [rootCreation, childCreation]) :=
    (hnone.withCreated hroot rfl).withCreated hchild rfl
  rwa [hinfo]

theorem graph_replays_chain_producing :
    let stores := (run (ChainNode.step plainNode) .off producing).stores
    contents .statementList stores.accounts baseGraph =
        written .statementList (messagesOf (chainOf stores.chain.database.committed)) [] ∧
      ∀ dbName, OnDisk stores.accounts dbName → dbName = baseGraph :=
  graph_replays_chain plainNode_binding producing_legal producing_unbroken.1 producing_allOnBase

end Producing

end ChainNode

end Keto.Block
