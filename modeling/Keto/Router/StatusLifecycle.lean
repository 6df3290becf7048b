import Keto.Router.RouterService
import Mathlib.Logic.Function.Iterate

/-!
The statuses a transaction goes through when `updateStateRouteMessage` is
applied again and again. Both conditions of the update increment the status,
so one application advances a credited message to complete and the fee phase
is reached from processing only, where no application ever leaves a message.
-/
namespace Keto.Router.StatusLifecycle

open Protocol TransactionCommon Library.Fallible RouterService

def statusAfter : Status → Status
  | .init => .credit
  | .debit => .credit
  | .processing => .fee
  | .credit => .complete
  | .fee => .complete
  | .complete => .complete
  | .wating => .wating

theorem updateState_currentStatus (server : ServerInfo) (message : TransactionMessage) :
    (updateState server message).currentStatus = statusAfter message.currentStatus := by
  unfold updateState TransactionMessageHelper.incrementStatus
  cases hstatus : message.currentStatus <;>
    simp [Status.next, statusAfter, TransactionMessageHelper.setFeeAccount]

/-- The fee account is replaced exactly where a message enters the fee phase. -/
theorem updateState_feeAccount (server : ServerInfo) (message : TransactionMessage) :
    (updateState server message).feeAccount =
      if message.currentStatus = .processing then server.feeAccountHash
      else message.feeAccount := by
  unfold updateState TransactionMessageHelper.incrementStatus
  cases hstatus : message.currentStatus <;>
    simp [Status.next, TransactionMessageHelper.setFeeAccount]

theorem updateState_changeSet (server : ServerInfo) (message : TransactionMessage) :
    (updateState server message).changeSet = message.changeSet := by
  unfold updateState TransactionMessageHelper.incrementStatus
  cases hstatus : message.currentStatus <;>
    simp [Status.next, TransactionMessageHelper.setFeeAccount]

def Carries (wrapper : MessageWrapper) (message : TransactionMessage) : Prop :=
  wrapper.unpack.asn1TransactionMessage = some message

def updated (server : ServerInfo) (wrapper : MessageWrapper) :
    ℕ → Except TransactionException MessageWrapper
  | 0 => .ok wrapper
  | n + 1 => updated server wrapper n >>= updateStateMessage server

/-- One application to a message whose status is known: the wrapper it returns
carries the updated message and is addressed to its current account. -/
theorem updateStateMessage_carries (server : ServerInfo) {wrapper : MessageWrapper}
    {message : TransactionMessage} (hcarries : Carries wrapper message)
    (hstatus : message.currentStatus ≠ .wating) :
    ∃ next, updateStateMessage server wrapper = .ok next ∧
      Carries next (updateState server message) ∧
      TransactionMessageHelper.getCurrentAccount (updateState server message) =
        .ok next.accountHash ∧
      next.unpack.status = TransactionProtoHelper.status wrapper.unpack.status
        (updateState server message).currentStatus ∧
      next.messageOperation = .init := by
  have hnext : (updateState server message).currentStatus ≠ .wating := by
    rw [updateState_currentStatus]
    cases hcase : message.currentStatus <;> simp_all [statusAfter]
  obtain ⟨transaction, htransaction⟩ := TransactionProtoHelper.setTransaction_isOk
    (updateState server message) wrapper.unpack hnext
  obtain ⟨_, hproto, hmessage⟩ := TransactionProtoHelper.setTransaction_eq_ok htransaction
  obtain ⟨packed, hpacked⟩ := MessageWrapperProtoHelper.setTransaction_isOk
    transaction wrapper hmessage hnext
  obtain ⟨found, hfound, haccount, hmsg, _⟩ :=
    MessageWrapperProtoHelper.setTransaction_eq_ok hpacked
  obtain rfl := Option.some.inj (hmessage.symm.trans hfound)
  refine ⟨{ packed with messageOperation := .init }, ?_, ?_, haccount, ?_, rfl⟩
  · exact (bind_ok (TransactionProtoHelper.getTransactionMessageHelper_eq_ok.mpr hcarries)).trans
      ((bind_ok htransaction).trans (bind_ok hpacked))
  · unfold Carries MessageWrapper.unpack
    rw [hmsg]
    exact hmessage
  · unfold MessageWrapper.unpack
    rw [hmsg]
    exact hproto

/-- The intended lifecycle: credit, fee, then complete for ever, with the
server's fee account in every message that has the status fee. -/
def LifecycleInOrder (server : ServerInfo) (wrapper : MessageWrapper) : Prop :=
  ∃ messages : ℕ → TransactionMessage,
    (∀ n, ∃ produced, updated server wrapper (n + 1) = .ok produced ∧
      Carries produced (messages n)) ∧
    (messages 0).currentStatus = .credit ∧
    (messages 1).currentStatus = .fee ∧
    (∀ n, 2 ≤ n → (messages n).currentStatus = .complete) ∧
    ∀ n, (messages n).currentStatus = .fee → (messages n).feeAccount = server.feeAccountHash

/-- The applications follow the iterated update of the message. -/
theorem updated_carries (server : ServerInfo) {wrapper : MessageWrapper}
    {message : TransactionMessage} (hcarries : Carries wrapper message)
    (hstatus : message.currentStatus ≠ .wating) (n : ℕ) :
    ∃ produced, updated server wrapper n = .ok produced ∧
      Carries produced ((updateState server)^[n] message) ∧
      ((updateState server)^[n] message).currentStatus ≠ .wating := by
  induction n with
  | zero => exact ⟨wrapper, rfl, hcarries, hstatus⟩
  | succ n ih =>
    obtain ⟨produced, hproduced, hmessage, hknown⟩ := ih
    obtain ⟨next, hnext, hupdated, _⟩ := updateStateMessage_carries server hmessage hknown
    rw [Function.iterate_succ_apply']
    refine ⟨next, (bind_ok hproduced).trans hnext, hupdated, ?_⟩
    rw [updateState_currentStatus]
    cases hcase : ((updateState server)^[n] message).currentStatus <;> simp_all [statusAfter]

/-- From init or debit the first application credits and every later one completes. -/
theorem iterate_updateState_currentStatus (server : ServerInfo) {message : TransactionMessage}
    (hstatus : message.currentStatus = .init ∨ message.currentStatus = .debit) (n : ℕ) :
    ((updateState server)^[n + 1] message).currentStatus =
      if n = 0 then .credit else .complete := by
  induction n with
  | zero =>
    rw [Function.iterate_one, updateState_currentStatus]
    rcases hstatus with hinit | hdebit
    · rw [hinit]
      rfl
    · rw [hdebit]
      rfl
  | succ n ih =>
    rw [Function.iterate_succ_apply', updateState_currentStatus, ih]
    by_cases hzero : n = 0
    · rw [if_pos hzero, if_neg (Nat.succ_ne_zero n)]
      rfl
    · rw [if_neg hzero, if_neg (Nat.succ_ne_zero n)]
      rfl

/-- The fee account a message came with is never set. -/
theorem iterate_updateState_feeAccount (server : ServerInfo) {message : TransactionMessage}
    (hstatus : message.currentStatus = .init ∨ message.currentStatus = .debit) (n : ℕ) :
    ((updateState server)^[n] message).feeAccount = message.feeAccount := by
  induction n with
  | zero => rfl
  | succ n ih =>
    rw [Function.iterate_succ_apply', updateState_feeAccount, ih, if_neg]
    cases n with
    | zero =>
      rcases hstatus with hinit | hdebit
      · simp [hinit]
      · simp [hdebit]
    | succ n =>
      rw [iterate_updateState_currentStatus server hstatus n]
      by_cases hzero : n = 0
      · simp [hzero]
      · simp [hzero]

/-- No message of the lifecycle's domain goes through the lifecycle: the
applications produce credit and then complete, and the fee account stays unset. -/
theorem lifecycle_skips_fee (server : ServerInfo) (wrapper : MessageWrapper)
    (message : TransactionMessage) (hcarries : Carries wrapper message)
    (hstatus : message.currentStatus = .init ∨ message.currentStatus = .debit) :
    ¬ LifecycleInOrder server wrapper ∧
      ∀ n, ∃ produced next, updated server wrapper (n + 1) = .ok produced ∧
        Carries produced next ∧
        next.currentStatus = (if n = 0 then .credit else .complete) ∧
        next.feeAccount = message.feeAccount := by
  have hknown : message.currentStatus ≠ .wating := by
    rcases hstatus with hinit | hdebit
    · simp [hinit]
    · simp [hdebit]
  constructor
  · rintro ⟨messages, hmessages, _, hfee, _⟩
    obtain ⟨produced, hproduced, hcarried⟩ := hmessages 1
    obtain ⟨produced', hproduced', hcarried', _⟩ :=
      updated_carries server hcarries hknown (1 + 1)
    obtain rfl := Except.ok.inj (hproduced.symm.trans hproduced')
    have hsame := Option.some.inj (hcarried.symm.trans hcarried')
    rw [hsame, iterate_updateState_currentStatus server hstatus 1] at hfee
    exact absurd hfee (by simp)
  · intro n
    obtain ⟨produced, hproduced, hcarried, _⟩ := updated_carries server hcarries hknown (n + 1)
    exact ⟨produced, _, hproduced, hcarried, iterate_updateState_currentStatus server hstatus n,
      iterate_updateState_feeAccount server hstatus (n + 1)⟩

def debitMessage : TransactionMessage where
  sourceAccount := [1]
  targetAccount := [2]
  feeAccount := []
  transactionHash := [7]
  signature := []
  signedTransaction := ⟨[7], []⟩
  currentStatus := .debit
  changeSet := []

def debitWrapper : MessageWrapper where
  version := 1
  sessionHash := []
  accountHash := [1]
  messageType := .transaction
  messageOperation := .init
  msg := .transaction ⟨[7], [], [1], .debit, some debitMessage⟩

theorem lifecycle_skips_fee_debit :
    ¬ LifecycleInOrder ⟨[9], [3]⟩ debitWrapper ∧
      ∀ n, ∃ produced next, updated ⟨[9], [3]⟩ debitWrapper (n + 1) = .ok produced ∧
        Carries produced next ∧
        next.currentStatus = (if n = 0 then .credit else .complete) ∧
        next.feeAccount = [] :=
  lifecycle_skips_fee ⟨[9], [3]⟩ debitWrapper debitMessage rfl (Or.inr rfl)

/-- The second application to the debit message completes it. -/
theorem debitWrapper_no_lifecycle :
    Carries debitWrapper debitMessage ∧ debitMessage.currentStatus = .debit ∧
      ¬ LifecycleInOrder ⟨[9], [3]⟩ debitWrapper := by
  refine ⟨rfl, rfl, ?_⟩
  rintro ⟨messages, hmessages, _, hfee, _⟩
  obtain ⟨produced, hproduced, hcarried⟩ := hmessages 1
  have hdebit : Carries debitWrapper debitMessage := rfl
  obtain ⟨produced', hproduced', hcarried', _⟩ :=
    updated_carries ⟨[9], [3]⟩ hdebit (by decide) (1 + 1)
  obtain rfl := Except.ok.inj (hproduced.symm.trans hproduced')
  rw [Option.some.inj (hcarried.symm.trans hcarried')] at hfee
  exact absurd hfee (by decide)

end Keto.Router.StatusLifecycle
