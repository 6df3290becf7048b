import Keto.Library.Fallible
import Keto.Protocol
import Mathlib.Data.Nat.Notation

/-!
The helpers of the transaction library: the status machine and the account
selection of a transaction message, the protobuf envelope written from it and
the message wrapper that carries the envelope between modules.
-/
namespace Keto.TransactionCommon

open Protocol Library.Fallible

inductive TransactionException
  | unrecognisedTransactionStatus (text : String)
  | deserialization
  deriving DecidableEq, Repr

namespace Status

/-- The value of the enumeration, which error texts print. -/
def number : Status → ℕ
  | .init => 0
  | .debit => 1
  | .processing => 2
  | .wating => 3
  | .fee => 4
  | .credit => 5
  | .complete => 6

/-- The transition of `incrementStatus`; `wating` and `complete` stay. -/
def next : Status → Status
  | .init => .processing
  | .debit => .processing
  | .processing => .credit
  | .credit => .fee
  | .fee => .complete
  | .wating => .wating
  | .complete => .complete

end Status

namespace TransactionMessageHelper

def getCurrentAccount (message : TransactionMessage) : Except TransactionException Hash :=
  match message.currentStatus with
  | .init | .debit | .processing => .ok message.sourceAccount
  | .credit | .complete => .ok message.targetAccount
  | .fee => .ok message.feeAccount
  | .wating => .error (.unrecognisedTransactionStatus
      ("Unrecognised status [" ++ toString (Status.number .wating) ++ "]"))

def incrementStatus (message : TransactionMessage) : Status × TransactionMessage :=
  let status := Status.next message.currentStatus
  (status, { message with currentStatus := status })

def setFeeAccount (feeAccount : Hash) (message : TransactionMessage) : TransactionMessage :=
  { message with feeAccount := feeAccount }

def addChangeSet (changeSet : SignedChangeSet) (message : TransactionMessage) :
    TransactionMessage :=
  { message with changeSet := message.changeSet ++ [changeSet] }

theorem getCurrentAccount_isOk (message : TransactionMessage)
    (h : message.currentStatus ≠ .wating) :
    ∃ account, getCurrentAccount message = .ok account := by
  unfold getCurrentAccount
  cases hstatus : message.currentStatus with
  | wating => exact absurd hstatus h
  | init => exact ⟨_, rfl⟩
  | debit => exact ⟨_, rfl⟩
  | processing => exact ⟨_, rfl⟩
  | fee => exact ⟨_, rfl⟩
  | credit => exact ⟨_, rfl⟩
  | complete => exact ⟨_, rfl⟩

theorem getCurrentAccount_wating {message : TransactionMessage} {account : Hash}
    (h : getCurrentAccount message = .ok account) : message.currentStatus ≠ .wating := by
  intro hwating
  rw [getCurrentAccount, hwating] at h
  exact absurd h (by simp)

end TransactionMessageHelper

namespace TransactionProtoHelper

open TransactionMessageHelper

/-- The envelope status; no branch names `wating`, which leaves the old value. -/
def status (old : TransactionStatus) : Status → TransactionStatus
  | .init => .init
  | .debit => .debit
  | .processing => .process
  | .fee => .fee
  | .credit => .credit
  | .complete => .complete
  | .wating => old

/-- `setTransaction`: the envelope fields are copied from the message. -/
def setTransaction (message : TransactionMessage) (transaction : Transaction) :
    Except TransactionException Transaction := do
  let activeAccount ← getCurrentAccount message
  return {
    transactionHash := message.transactionHash
    transactionSignature := message.signature
    activeAccount := activeAccount
    status := status transaction.status message.currentStatus
    asn1TransactionMessage := some message }

def ofMessage (message : TransactionMessage) : Except TransactionException Transaction :=
  setTransaction message Transaction.empty

/-- Decodes a fresh copy of the message on every call. -/
def getTransactionMessageHelper (transaction : Transaction) :
    Except TransactionException TransactionMessage :=
  match transaction.asn1TransactionMessage with
  | some message => .ok message
  | none => .error .deserialization

theorem getTransactionMessageHelper_eq_ok {transaction : Transaction}
    {message : TransactionMessage} :
    getTransactionMessageHelper transaction = .ok message ↔
      transaction.asn1TransactionMessage = some message := by
  unfold getTransactionMessageHelper
  split
  · rename_i found hfound
    rw [hfound, Except.ok.injEq, Option.some.injEq]
  · rename_i hnone
    simp [hnone]

/-- What `setTransaction` returns, when it does. -/
theorem setTransaction_eq_ok {message : TransactionMessage} {old transaction : Transaction}
    (h : setTransaction message old = .ok transaction) :
    getCurrentAccount message = .ok transaction.activeAccount ∧
      transaction.status = status old.status message.currentStatus ∧
      transaction.asn1TransactionMessage = some message := by
  obtain ⟨account, haccount, hresult⟩ := bind_eq_ok.mp h
  obtain rfl := Except.ok.inj hresult
  exact ⟨haccount, rfl, rfl⟩

theorem setTransaction_isOk (message : TransactionMessage) (old : Transaction)
    (h : message.currentStatus ≠ .wating) :
    ∃ transaction, setTransaction message old = .ok transaction := by
  obtain ⟨account, haccount⟩ := getCurrentAccount_isOk message h
  exact ⟨_, bind_ok haccount⟩

end TransactionProtoHelper

namespace MessageWrapperProtoHelper

open TransactionMessageHelper TransactionProtoHelper

/-- `setTransaction` packs the envelope and addresses the wrapper to the
current account of the message inside it. -/
def setTransaction (transaction : Transaction) (wrapper : MessageWrapper) :
    Except TransactionException MessageWrapper := do
  let message ← getTransactionMessageHelper transaction
  let accountHash ← getCurrentAccount message
  return { wrapper with accountHash := accountHash, msg := .transaction transaction }

theorem setTransaction_eq_ok {transaction : Transaction} {old wrapper : MessageWrapper}
    (h : setTransaction transaction old = .ok wrapper) :
    ∃ message, transaction.asn1TransactionMessage = some message ∧
      getCurrentAccount message = .ok wrapper.accountHash ∧
      wrapper.msg = .transaction transaction ∧
      wrapper.messageOperation = old.messageOperation := by
  obtain ⟨message, hmessage, hrest⟩ := bind_eq_ok.mp h
  obtain ⟨account, haccount, hresult⟩ := bind_eq_ok.mp hrest
  obtain rfl := Except.ok.inj hresult
  exact ⟨message, getTransactionMessageHelper_eq_ok.mp hmessage, haccount, rfl, rfl⟩

theorem setTransaction_isOk (transaction : Transaction) (old : MessageWrapper)
    {message : TransactionMessage}
    (hmessage : transaction.asn1TransactionMessage = some message)
    (h : message.currentStatus ≠ .wating) :
    ∃ wrapper, setTransaction transaction old = .ok wrapper := by
  obtain ⟨account, haccount⟩ := getCurrentAccount_isOk message h
  exact ⟨_, (bind_ok (getTransactionMessageHelper_eq_ok.mpr hmessage)).trans (bind_ok haccount)⟩

end MessageWrapperProtoHelper

end Keto.TransactionCommon
