import Keto.TransactionCommon

/-!
The block service: a message is processed by the contract of its account in
the sandbox, which appends the signed result to the transaction; the result is
queued in the block producer and a wrapper is sent on to the status update.
What a contract computes, how change sets are hashed and signed and what the
handler of the sent wrapper does are parameters.
-/
namespace Keto.Block

open Protocol TransactionCommon Library.Fallible

inductive BlockException
  | getContract
  | executeAction
  | transaction (exception : TransactionException)
  | blockProducerTerminated
  | handler
  deriving DecidableEq, Repr

/-- The services behind `processTransaction`. `getContract` answers for the base
contract of an account, `execute` is the model a contract builds of a message;
`none` where they throw. -/
structure Sandbox where
  getContract : Bytes → Option Bytes
  execute : Bytes → TransactionMessage → Option RDFModel
  generateHash : ChangeSet → Hash
  sign : Hash → Bytes

namespace Sandbox

def signedChangeSet (sandbox : Sandbox) (message : TransactionMessage) (accountHash : Hash)
    (model : RDFModel) : SignedChangeSet :=
  let changeSet : ChangeSet := {
    transactionHash := message.signedTransaction.transactionHash
    accountHash := accountHash
    status := message.currentStatus
    changes := [.asn1Change (some model)] }
  let changeSetHash := sandbox.generateHash changeSet
  ⟨changeSet, changeSetHash, sandbox.sign changeSetHash⟩

/-- `WavmSession::getSandboxCommandMessage`, as far as the transaction. -/
def getSandboxCommandMessage (sandbox : Sandbox) (message : TransactionMessage)
    (model : RDFModel) : Except TransactionException Transaction := do
  let accountHash ← TransactionMessageHelper.getCurrentAccount message
  let changeSet := sandbox.signedChangeSet message accountHash model
  TransactionProtoHelper.ofMessage (TransactionMessageHelper.addChangeSet changeSet message)

def executeActionMessage (sandbox : Sandbox) (contract : Bytes) (transaction : Transaction) :
    Except BlockException Transaction := do
  let message ← Except.mapError BlockException.transaction
    (TransactionProtoHelper.getTransactionMessageHelper transaction)
  match sandbox.execute contract message with
  | none => .error .executeAction
  | some model =>
    Except.mapError BlockException.transaction (sandbox.getSandboxCommandMessage message model)

end Sandbox

def processTransaction (sandbox : Sandbox) (transaction : Transaction) :
    Except BlockException Transaction :=
  match sandbox.getContract transaction.activeAccount with
  | none => .error .getContract
  | some contract => sandbox.executeActionMessage contract transaction

inductive ProducerState
  | inited
  | producing
  | terminated
  deriving DecidableEq, Repr

structure BlockProducer where
  currentState : ProducerState
  transactions : List Transaction
  deriving DecidableEq, Repr

def BlockProducer.addTransaction (transaction : Transaction) (producer : BlockProducer) :
    Except BlockException BlockProducer :=
  if producer.currentState = .terminated then .error .blockProducerTerminated
  else .ok { producer with transactions := producer.transactions ++ [transaction] }

/-- What `blockMessage` left behind: the queue, the wrapper it sent with
`UPDATE_STATUS_ROUTE_MESSSAGE`, and whether it answered. -/
structure BlockOutcome where
  producer : BlockProducer
  sent : Option MessageWrapper
  answered : Except BlockException Unit

/-- The wrapper that is sent is copied out of the helper before the helper gets
the processed transaction. -/
def blockMessage (sandbox : Sandbox) (handles : MessageWrapper → Bool) (producer : BlockProducer)
    (wrapper : MessageWrapper) : BlockOutcome :=
  match processTransaction sandbox wrapper.unpack with
  | .error exception => ⟨producer, none, .error exception⟩
  | .ok processed =>
    match producer.addTransaction processed with
    | .error exception => ⟨producer, none, .error exception⟩
    | .ok queued =>
      let messageWrapper := wrapper
      match MessageWrapperProtoHelper.setTransaction processed wrapper with
      | .error exception => ⟨queued, none, .error (.transaction exception)⟩
      | .ok _ => ⟨queued, some messageWrapper,
          if handles messageWrapper then .ok () else .error .handler⟩

/-- What a contract's run adds to a message: its status and current account stay. -/
theorem Sandbox.getSandboxCommandMessage_eq_ok {sandbox : Sandbox} {message : TransactionMessage}
    {model : RDFModel} {processed : Transaction}
    (h : sandbox.getSandboxCommandMessage message model = .ok processed) :
    ∃ accountHash, TransactionMessageHelper.getCurrentAccount message = .ok accountHash ∧
      processed.asn1TransactionMessage = some (TransactionMessageHelper.addChangeSet
        (sandbox.signedChangeSet message accountHash model) message) := by
  obtain ⟨accountHash, haccount, hprocessed⟩ := bind_eq_ok.mp h
  exact ⟨accountHash, haccount, (TransactionProtoHelper.setTransaction_eq_ok hprocessed).2.2⟩

theorem Sandbox.getSandboxCommandMessage_isOk (sandbox : Sandbox) {message : TransactionMessage}
    (model : RDFModel) (hstatus : message.currentStatus ≠ .wating) :
    ∃ processed, sandbox.getSandboxCommandMessage message model = .ok processed := by
  obtain ⟨accountHash, haccount⟩ :=
    TransactionMessageHelper.getCurrentAccount_isOk message hstatus
  obtain ⟨processed, hprocessed⟩ := TransactionProtoHelper.setTransaction_isOk
    (TransactionMessageHelper.addChangeSet
      (sandbox.signedChangeSet message accountHash model) message) Transaction.empty hstatus
  exact ⟨processed, (bind_ok haccount).trans hprocessed⟩

/-- A processed transaction carries the message it was made of, with one more
change set of the message's status and current account. -/
theorem processTransaction_eq_ok {sandbox : Sandbox} {transaction processed : Transaction}
    (h : processTransaction sandbox transaction = .ok processed) :
    ∃ message added, transaction.asn1TransactionMessage = some message ∧
      processed.asn1TransactionMessage =
        some (TransactionMessageHelper.addChangeSet added message) ∧
      added.changeSet.status = message.currentStatus ∧
      TransactionMessageHelper.getCurrentAccount message = .ok added.changeSet.accountHash := by
  unfold processTransaction at h
  cases hcontract : sandbox.getContract transaction.activeAccount with
  | none =>
    rw [hcontract] at h
    exact absurd h (by simp)
  | some contract =>
    rw [hcontract] at h
    obtain ⟨message, hmessage, hrest⟩ := bind_eq_ok.mp h
    rw [mapError_eq_ok, TransactionProtoHelper.getTransactionMessageHelper_eq_ok] at hmessage
    cases hmodel : sandbox.execute contract message with
    | none => simp [hmodel] at hrest
    | some model =>
      simp only [hmodel] at hrest
      obtain ⟨accountHash, haccount, hprocessed⟩ :=
        Sandbox.getSandboxCommandMessage_eq_ok (mapError_eq_ok.mp hrest)
      exact ⟨message, sandbox.signedChangeSet message accountHash model, hmessage, hprocessed,
        rfl, haccount⟩

end Keto.Block
