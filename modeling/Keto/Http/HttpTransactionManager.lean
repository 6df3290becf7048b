import Keto.Http.HttpSessionManager

/-!
The entry of a client's transaction: the request names a session, its body is
the protobuf transaction, which is wrapped as it is and handed to the router.
-/
namespace Keto.Http

open Protocol TransactionCommon Library.Fallible
open scoped Library.ByteOrder

/-- The parts of a request that are read: the session hash in its header and the
transaction its body parses to, `none` where decoding fails. -/
structure TransactionRequest where
  sessionHash : Option Hash
  transaction : Option Transaction

def emptyWrapper : MessageWrapper where
  version := 1
  sessionHash := []
  accountHash := []
  messageType := .transaction
  messageOperation := .init
  msg := .other

namespace HttpTransactionManager

def wrap (sessionHash : Hash) (transaction : Transaction) : Except HttpException MessageWrapper :=
  Except.mapError HttpException.transaction
    (MessageWrapperProtoHelper.setTransaction transaction
      { emptyWrapper with sessionHash := sessionHash })

/-- `processTransaction` up to the event `ROUTE_MESSAGE`, with the wrapper it carries. -/
def processTransaction (manager : HttpSessionManager) (request : TransactionRequest) :
    Except HttpException MessageWrapper × HttpSessionManager :=
  match request.sessionHash with
  | none => (.error .header, manager)
  | some sessionHash =>
    if manager.isValid sessionHash then
      let session := HttpSessionManager.getSession sessionHash manager
      match request.transaction with
      | none => (.error (.messageDeserialization
          "Failed to deserialized the transaction message."), session.2)
      | some transaction => (wrap sessionHash transaction, session.2)
    else (.error .invalidSession, manager)

/-- What the router gets is the client's transaction, under the current account
of the message in it. -/
theorem wrap_eq_ok {sessionHash : Hash} {transaction : Transaction} {wrapper : MessageWrapper} :
    wrap sessionHash transaction = .ok wrapper ↔
      ∃ message accountHash, transaction.asn1TransactionMessage = some message ∧
        TransactionMessageHelper.getCurrentAccount message = .ok accountHash ∧
        wrapper = { emptyWrapper with
          sessionHash := sessionHash
          accountHash := accountHash
          msg := .transaction transaction } := by
  rw [wrap, mapError_eq_ok]
  constructor
  · intro h
    obtain ⟨message, hmessage, hrest⟩ := bind_eq_ok.mp h
    obtain ⟨accountHash, haccount, hwrapper⟩ := bind_eq_ok.mp hrest
    exact ⟨message, accountHash,
      TransactionProtoHelper.getTransactionMessageHelper_eq_ok.mp hmessage, haccount,
      (Except.ok.inj hwrapper).symm⟩
  · rintro ⟨message, accountHash, hmessage, haccount, rfl⟩
    exact (bind_ok (TransactionProtoHelper.getTransactionMessageHelper_eq_ok.mpr hmessage)).trans
      (bind_ok haccount)

/-- A transaction is routed for a valid session only, and its session map stays. -/
theorem processTransaction_eq_ok {manager : HttpSessionManager} {request : TransactionRequest}
    {wrapper : MessageWrapper} :
    (processTransaction manager request).1 = .ok wrapper ↔
      ∃ sessionHash transaction, request.sessionHash = some sessionHash ∧
        manager.isValid sessionHash = true ∧ request.transaction = some transaction ∧
        wrap sessionHash transaction = .ok wrapper := by
  rw [processTransaction]
  cases hheader : request.sessionHash with
  | none => simp
  | some sessionHash =>
    by_cases hvalid : manager.isValid sessionHash = true
    · cases hparsed : request.transaction with
      | none => simp [hvalid]
      | some transaction => simp [hvalid]
    · simp [hvalid]

theorem processTransaction_manager (manager : HttpSessionManager) (request : TransactionRequest) :
    (processTransaction manager request).2 = manager := by
  rw [processTransaction]
  cases hheader : request.sessionHash with
  | none => rfl
  | some sessionHash =>
    by_cases hvalid : manager.isValid sessionHash = true
    · have hsame : (HttpSessionManager.getSession sessionHash manager).2 = manager := by
        rw [HttpSessionManager.getSession, Library.OrderedMap.touch_of_contains hvalid]
      cases hparsed : request.transaction with
      | none => simp [hvalid, hsame]
      | some transaction => simp [hvalid, hsame]
    · simp [hvalid]

end HttpTransactionManager

end Keto.Http
