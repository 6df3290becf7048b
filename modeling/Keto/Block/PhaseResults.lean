import Keto.Block.BlockService
import Keto.Router.StatusLifecycle

/-!
Whether the result of a phase reaches the next one. The block service queues
the processed transaction and sends the wrapper it was given, so each phase
starts from the change sets the first one started from, and each queued
transaction has those and the one its own phase added.
-/
namespace Keto.Block.PhaseResults

open Protocol TransactionCommon Library.Fallible Router.StatusLifecycle

def CarriesResult (sandbox : Sandbox) (wrapper sent : MessageWrapper) : Prop :=
  ∃ processed message, processTransaction sandbox wrapper.unpack = .ok processed ∧
    sent.msg = .transaction processed ∧ processed.asn1TransactionMessage = some message ∧
    TransactionMessageHelper.getCurrentAccount message = .ok sent.accountHash

def ForwardsResult (sandbox : Sandbox) (handles : MessageWrapper → Bool)
    (producer : BlockProducer) (wrapper : MessageWrapper) : Prop :=
  ∀ sent, (blockMessage sandbox handles producer wrapper).sent = some sent →
    CarriesResult sandbox wrapper sent

/-- The call ends with an exception before a wrapper is sent: the message does
not decode, its status has no account, no contract is found or runs, or the
producer is terminated. -/
def NothingSent (sandbox : Sandbox) (producer : BlockProducer) (wrapper : MessageWrapper) : Prop :=
  match wrapper.unpack.asn1TransactionMessage with
  | none => True
  | some message => message.currentStatus = .wating ∨ producer.currentState = .terminated ∨
      ∀ contract, sandbox.getContract wrapper.unpack.activeAccount = some contract →
        sandbox.execute contract message = none

theorem processTransaction_isOk_iff (sandbox : Sandbox) {transaction : Transaction}
    {message : TransactionMessage} (hmessage : transaction.asn1TransactionMessage = some message) :
    (∃ processed, processTransaction sandbox transaction = .ok processed) ↔
      message.currentStatus ≠ .wating ∧ ∃ contract,
        sandbox.getContract transaction.activeAccount = some contract ∧
        sandbox.execute contract message ≠ none := by
  have hdecode : Except.mapError BlockException.transaction
      (TransactionProtoHelper.getTransactionMessageHelper transaction) = .ok message :=
    mapError_eq_ok.mpr (TransactionProtoHelper.getTransactionMessageHelper_eq_ok.mpr hmessage)
  constructor
  · rintro ⟨processed, hprocessed⟩
    obtain ⟨found, _, hfound, _, _, haccount⟩ := processTransaction_eq_ok hprocessed
    obtain rfl := Option.some.inj (hmessage.symm.trans hfound)
    refine ⟨TransactionMessageHelper.getCurrentAccount_wating haccount, ?_⟩
    unfold processTransaction at hprocessed
    cases hcontract : sandbox.getContract transaction.activeAccount with
    | none => simp [hcontract] at hprocessed
    | some contract =>
      refine ⟨contract, rfl, ?_⟩
      intro hnone
      rw [hcontract] at hprocessed
      simp only [Sandbox.executeActionMessage, bind_ok hdecode, hnone] at hprocessed
      exact absurd hprocessed (by simp)
  · rintro ⟨hstatus, contract, hcontract, hexecute⟩
    obtain ⟨model, hmodel⟩ := Option.ne_none_iff_exists'.mp hexecute
    obtain ⟨processed, hprocessed⟩ := sandbox.getSandboxCommandMessage_isOk model hstatus
    refine ⟨processed, ?_⟩
    simp only [processTransaction, hcontract, Sandbox.executeActionMessage, bind_ok hdecode, hmodel]
    exact mapError_eq_ok.mpr hprocessed

/-- A processed transaction is queued, and the wrapper that came in is sent. -/
theorem blockMessage_of_processed {sandbox : Sandbox} (handles : MessageWrapper → Bool)
    {producer : BlockProducer} {wrapper : MessageWrapper} {processed : Transaction}
    (hprocessed : processTransaction sandbox wrapper.unpack = .ok processed)
    (hopen : producer.currentState ≠ .terminated) :
    (blockMessage sandbox handles producer wrapper).sent = some wrapper ∧
      (blockMessage sandbox handles producer wrapper).producer =
        { producer with transactions := producer.transactions ++ [processed] } := by
  obtain ⟨message, added, _, hmessage, _, haccount⟩ := processTransaction_eq_ok hprocessed
  obtain ⟨packed, hpacked⟩ := MessageWrapperProtoHelper.setTransaction_isOk processed wrapper
    hmessage (TransactionMessageHelper.getCurrentAccount_wating haccount)
  simp [blockMessage, hprocessed, BlockProducer.addTransaction, hopen, hpacked]

theorem processed_of_sent {sandbox : Sandbox} {handles : MessageWrapper → Bool}
    {producer : BlockProducer} {wrapper sent : MessageWrapper}
    (hsent : (blockMessage sandbox handles producer wrapper).sent = some sent) :
    producer.currentState ≠ .terminated ∧
      ∃ processed, processTransaction sandbox wrapper.unpack = .ok processed := by
  unfold blockMessage at hsent
  cases hprocessed : processTransaction sandbox wrapper.unpack with
  | error exception => simp [hprocessed] at hsent
  | ok processed =>
    by_cases hterminated : producer.currentState = .terminated
    · simp [hprocessed, BlockProducer.addTransaction, hterminated] at hsent
    · exact ⟨hterminated, processed, rfl⟩

theorem nothingSent_iff (sandbox : Sandbox) (producer : BlockProducer) (wrapper : MessageWrapper) :
    NothingSent sandbox producer wrapper ↔ ¬ (producer.currentState ≠ .terminated ∧
      ∃ processed, processTransaction sandbox wrapper.unpack = .ok processed) := by
  unfold NothingSent
  cases hmessage : wrapper.unpack.asn1TransactionMessage with
  | none =>
    refine iff_of_true trivial ?_
    rintro ⟨_, processed, hprocessed⟩
    obtain ⟨message, _, hfound, _⟩ := processTransaction_eq_ok hprocessed
    rw [hmessage] at hfound
    exact absurd hfound (by simp)
  | some message =>
    rw [processTransaction_isOk_iff sandbox hmessage]
    constructor
    · rintro hstops ⟨hopen, hstatus, contract, hcontract, hexecute⟩
      rcases hstops with hwating | hterminated | hfails
      · exact hstatus hwating
      · exact hopen hterminated
      · exact hexecute (hfails contract hcontract)
    · intro hnot
      by_contra hgoes
      simp only [not_or, not_forall] at hgoes
      obtain ⟨hstatus, hopen, contract, hcontract, hexecute⟩ := hgoes
      exact hnot ⟨hopen, hstatus, contract, hcontract, hexecute⟩

/-- The wrapper that came in does not hold the processed transaction, which has
one change set more than the one inside it. -/
theorem not_carriesResult (sandbox : Sandbox) (wrapper : MessageWrapper) :
    ¬ CarriesResult sandbox wrapper wrapper := by
  rintro ⟨processed, message, hprocessed, hmsg, _⟩
  obtain ⟨found, added, hfound, hadded, _⟩ := processTransaction_eq_ok hprocessed
  have hunpack : wrapper.unpack = processed := by
    unfold MessageWrapper.unpack
    rw [hmsg]
  rw [hunpack, hadded] at hfound
  have hlength := congrArg (fun m => m.changeSet.length) (Option.some.inj hfound)
  simp [TransactionMessageHelper.addChangeSet] at hlength

/-- The results of a phase are forwarded only where nothing is sent at all. -/
theorem forwardsResult_iff_nothingSent (sandbox : Sandbox) (handles : MessageWrapper → Bool)
    (producer : BlockProducer) (wrapper : MessageWrapper) :
    ForwardsResult sandbox handles producer wrapper ↔ NothingSent sandbox producer wrapper := by
  rw [nothingSent_iff]
  constructor
  · rintro hforwards ⟨hopen, processed, hprocessed⟩
    have hsent := (blockMessage_of_processed handles hprocessed hopen).1
    exact not_carriesResult sandbox wrapper (hforwards wrapper hsent)
  · intro hnot sent hsent
    exact absurd (processed_of_sent hsent) hnot

/-- One phase of a transaction: the wrapper arrives under the account that the
balancer addressed it to, and what is sent goes through the status update. -/
structure Phase where
  sandbox : Sandbox
  handles : MessageWrapper → Bool
  accountHash : Bytes

/-- The phases one after the other, with the producer's queue; `none` when one of
them sends nothing. -/
def runPhases (server : Router.ServerInfo) :
    List Phase → BlockProducer → MessageWrapper → Option (BlockProducer × MessageWrapper)
  | [], producer, wrapper => some (producer, wrapper)
  | phase :: phases, producer, wrapper =>
    let arrived := { wrapper with messageOperation := .block, accountHash := phase.accountHash }
    let outcome := blockMessage phase.sandbox phase.handles producer arrived
    match outcome.sent with
    | none => none
    | some sent =>
      match Router.RouterService.updateStateMessage server sent with
      | .error _ => none
      | .ok next => runPhases server phases outcome.producer next

def QueuedWith (changeSets : List SignedChangeSet) (transaction : Transaction) : Prop :=
  ∃ message added, transaction.asn1TransactionMessage = some message ∧
    message.changeSet = changeSets ++ [added]

/-- The first of several phases: its transaction is queued, and the wrapper that
reaches the next one carries the message it was given, in its next status. -/
theorem runPhases_cons {server : Router.ServerInfo} {phase : Phase} {phases : List Phase}
    {producer last : BlockProducer} {wrapper next : MessageWrapper} {message : TransactionMessage}
    (hcarries : Carries wrapper message)
    (hrun : runPhases server (phase :: phases) producer wrapper = some (last, next)) :
    ∃ processed reached, QueuedWith message.changeSet processed ∧
      Carries reached (Router.RouterService.updateState server message) ∧
      runPhases server phases
        { producer with transactions := producer.transactions ++ [processed] } reached =
          some (last, next) := by
  have harrived : Carries { wrapper with
      messageOperation := .block, accountHash := phase.accountHash } message := hcarries
  rw [runPhases] at hrun
  generalize { wrapper with messageOperation := .block, accountHash := phase.accountHash } =
    arrived at hrun harrived
  cases hsent : (blockMessage phase.sandbox phase.handles producer arrived).sent with
  | none => simp [hsent] at hrun
  | some sent =>
    obtain ⟨hopen, processed, hprocessed⟩ := processed_of_sent hsent
    obtain ⟨hsame, hqueue⟩ := blockMessage_of_processed phase.handles hprocessed hopen
    obtain rfl := Option.some.inj (hsent.symm.trans hsame)
    obtain ⟨found, added, hfound, hadded, _, haccount⟩ := processTransaction_eq_ok hprocessed
    obtain rfl := Option.some.inj (harrived.symm.trans hfound)
    obtain ⟨reached, hreached, hupdated, _⟩ := updateStateMessage_carries server harrived
      (TransactionMessageHelper.getCurrentAccount_wating haccount)
    simp only [hsent, hreached, hqueue] at hrun
    exact ⟨processed, reached, ⟨_, added, hadded, rfl⟩, hupdated, hrun⟩

/-- Over any run of phases the transaction that reaches the next phase has the
change sets of the first, and each queued one has those and its own phase's. -/
theorem runPhases_changeSets (server : Router.ServerInfo) (phases : List Phase)
    {producer last : BlockProducer} {wrapper next : MessageWrapper} {message : TransactionMessage}
    (hcarries : Carries wrapper message)
    (hrun : runPhases server phases producer wrapper = some (last, next)) :
    (∃ reached, Carries next reached ∧ reached.changeSet = message.changeSet) ∧
      ∃ queued, last.transactions = producer.transactions ++ queued ∧
        queued.length = phases.length ∧ ∀ t ∈ queued, QueuedWith message.changeSet t := by
  induction phases generalizing producer wrapper message with
  | nil =>
    obtain ⟨rfl, rfl⟩ := Prod.mk.inj (Option.some.inj hrun)
    exact ⟨⟨message, hcarries, rfl⟩, [], by simp, rfl, by simp⟩
  | cons phase phases ih =>
    obtain ⟨processed, reached, hprocessed, hreached, hrest⟩ := runPhases_cons hcarries hrun
    obtain ⟨hnext, queued, hqueue, hlength, hall⟩ := ih hreached hrest
    rw [updateState_changeSet] at hnext hall
    refine ⟨hnext, processed :: queued, ?_, by simp [hlength], ?_⟩
    · rw [hqueue]
      simp
    · intro t ht
      rcases List.mem_cons.mp ht with rfl | hmem
      · exact hprocessed
      · exact hall t hmem

/-- Each handled message forwards its result exactly where nothing is sent, and
over every run of phases no result reaches a later phase. -/
theorem results_not_carried_forward (sandbox : Sandbox) (handles : MessageWrapper → Bool)
    (producer : BlockProducer) (wrapper : MessageWrapper) :
    (ForwardsResult sandbox handles producer wrapper ↔ NothingSent sandbox producer wrapper) ∧
    ∀ server phases message last next, Carries wrapper message →
      runPhases server phases producer wrapper = some (last, next) →
      (∃ reached, Carries next reached ∧ reached.changeSet = message.changeSet) ∧
        ∃ queued, last.transactions = producer.transactions ++ queued ∧
          queued.length = phases.length ∧ ∀ t ∈ queued, QueuedWith message.changeSet t := by
  refine ⟨forwardsResult_iff_nothingSent sandbox handles producer wrapper, ?_⟩
  intro server phases message last next hcarries hrun
  exact runPhases_changeSets server phases hcarries hrun

def emptyModelSandbox : Sandbox where
  getContract := fun _ => some []
  execute := fun _ _ => some ⟨.persist, []⟩
  generateHash := fun changeSet => changeSet.accountHash
  sign := fun hash => hash

/-- The debit phase of a transaction without change sets sends it on without one. -/
theorem debit_result_lost :
    (blockMessage emptyModelSandbox (fun _ => true) ⟨.inited, []⟩ debitWrapper).sent =
        some debitWrapper ∧
      (∃ queued, (blockMessage emptyModelSandbox (fun _ => true) ⟨.inited, []⟩
        debitWrapper).producer.transactions = [queued] ∧ QueuedWith [] queued) ∧
      ¬ ForwardsResult emptyModelSandbox (fun _ => true) ⟨.inited, []⟩ debitWrapper := by
  refine ⟨rfl, ⟨_, rfl, _, _, rfl, rfl⟩, ?_⟩
  intro hforwards
  exact not_carriesResult emptyModelSandbox debitWrapper (hforwards debitWrapper rfl)

end Keto.Block.PhaseResults
