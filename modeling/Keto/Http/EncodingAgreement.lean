import Keto.Block.BlockService
import Keto.Http.HttpTransactionManager
import Keto.Http.VerifiedSessions
import Keto.Router.RouterService

/-!
The account and the status of a transaction are held twice, in the protobuf
envelope and in the message inside it. The phases write the envelope from the
message; the entry of a client's transaction takes both as they come, and
compares them with nothing.
-/
namespace Keto.Http.EncodingAgreement

open Protocol TransactionCommon Library Library.Fallible

def Agrees (transaction : Transaction) : Prop :=
  ∃ message, transaction.asn1TransactionMessage = some message ∧
    TransactionMessageHelper.getCurrentAccount message = .ok transaction.activeAccount ∧
    transaction.status = TransactionProtoHelper.status transaction.status message.currentStatus

/-- What is done to a transaction after its submission. The wrapper is the one
that carries the transaction to the status update. -/
inductive Phase
  | processTransaction (sandbox : Block.Sandbox)
  | setTransaction (message : TransactionMessage)
  | updateStateRouteMessage (server : Router.ServerInfo) (wrapper : MessageWrapper)

def Phase.apply (transaction : Transaction) : Phase → Option Transaction
  | .processTransaction sandbox => (Block.processTransaction sandbox transaction).toOption
  | .setTransaction message => (TransactionProtoHelper.setTransaction message transaction).toOption
  | .updateStateRouteMessage server wrapper =>
    (Router.RouterService.updateStateMessage server
      { wrapper with msg := .transaction transaction }).toOption.map MessageWrapper.unpack

def step (phase : Phase) (transaction : Option Transaction) : Option Transaction :=
  transaction.bind fun transaction => phase.apply transaction

/-- The encodings agree in the transaction that is routed for a request, and in
what every later phase leaves. -/
def AgreesThroughout (manager : HttpSessionManager) (request : TransactionRequest)
    (phases : List Phase) : Prop :=
  ∀ wrapper, (HttpTransactionManager.processTransaction manager request).1 = .ok wrapper →
    Agrees wrapper.unpack ∧
      Runs.Along step
        (fun phase transaction => ∀ left, step phase transaction = some left → Agrees left)
        (some wrapper.unpack) phases

/-- For a valid session, the client filled in its envelope from the message,
where that has a current account at all. -/
def FilledIn (manager : HttpSessionManager) (request : TransactionRequest) : Prop :=
  ∀ sessionHash transaction message account,
    request.sessionHash = some sessionHash → manager.isValid sessionHash = true →
    request.transaction = some transaction →
    transaction.asn1TransactionMessage = some message →
    TransactionMessageHelper.getCurrentAccount message = .ok account →
      transaction.activeAccount = account ∧
        transaction.status = TransactionProtoHelper.status transaction.status message.currentStatus

theorem status_old (old other : TransactionStatus) {status : Status} (h : status ≠ .wating) :
    TransactionProtoHelper.status old status = TransactionProtoHelper.status other status := by
  cases status with
  | wating => exact absurd rfl h
  | _ => rfl

/-- Writing the envelope from a message makes the two agree. -/
theorem agrees_of_setTransaction {message : TransactionMessage} {old transaction : Transaction}
    (h : TransactionProtoHelper.setTransaction message old = .ok transaction) :
    Agrees transaction := by
  obtain ⟨haccount, hstatus, hmessage⟩ := TransactionProtoHelper.setTransaction_eq_ok h
  have hset := TransactionMessageHelper.getCurrentAccount_wating haccount
  refine ⟨message, hmessage, haccount, ?_⟩
  rw [status_old transaction.status old.status hset]
  exact hstatus

theorem agrees_of_processTransaction {sandbox : Block.Sandbox}
    {transaction processed : Transaction}
    (h : Block.processTransaction sandbox transaction = .ok processed) : Agrees processed := by
  rw [Block.processTransaction] at h
  cases hcontract : sandbox.getContract transaction.activeAccount with
  | none => simp [hcontract] at h
  | some contract =>
    rw [hcontract] at h
    obtain ⟨message, -, hrest⟩ := bind_eq_ok.mp h
    cases hmodel : sandbox.execute contract message with
    | none => simp [hmodel] at hrest
    | some model =>
      simp only [hmodel] at hrest
      obtain ⟨accountHash, -, hwritten⟩ := bind_eq_ok.mp (mapError_eq_ok.mp hrest)
      exact agrees_of_setTransaction hwritten

theorem agrees_of_updateStateMessage {server : Router.ServerInfo} {old wrapper : MessageWrapper}
    (h : Router.RouterService.updateStateMessage server old = .ok wrapper) :
    Agrees wrapper.unpack := by
  obtain ⟨message, -, hrest⟩ := bind_eq_ok.mp h
  obtain ⟨transaction, hwritten, hrest⟩ := bind_eq_ok.mp hrest
  obtain ⟨packed, hpacked, hresult⟩ := bind_eq_ok.mp hrest
  obtain ⟨-, -, -, hmsg, -⟩ := MessageWrapperProtoHelper.setTransaction_eq_ok hpacked
  have hunpack : wrapper.unpack = transaction := by
    rw [← Except.ok.inj hresult, MessageWrapper.unpack, hmsg]
  rw [hunpack]
  exact agrees_of_setTransaction hwritten

theorem eq_ok_of_toOption {ε α : Type} {x : Except ε α} {a : α} (h : x.toOption = some a) :
    x = .ok a := by
  cases x with
  | error e => simp [Except.toOption] at h
  | ok b => rw [Option.some.inj h]

/-- Every phase leaves agreeing encodings, whatever it finds. -/
theorem agrees_of_phase {phase : Phase} {transaction left : Transaction}
    (h : phase.apply transaction = some left) : Agrees left := by
  cases phase with
  | processTransaction sandbox => exact agrees_of_processTransaction (eq_ok_of_toOption h)
  | setTransaction message => exact agrees_of_setTransaction (eq_ok_of_toOption h)
  | updateStateRouteMessage server wrapper =>
    obtain ⟨updated, hupdated, rfl⟩ := Option.map_eq_some_iff.mp h
    exact agrees_of_updateStateMessage (eq_ok_of_toOption hupdated)

theorem agrees_of_step {phase : Phase} {transaction : Option Transaction} {left : Transaction}
    (h : step phase transaction = some left) : Agrees left := by
  obtain ⟨found, -, hleft⟩ := Option.bind_eq_some_iff.mp h
  exact agrees_of_phase hleft

/-- The transactions that the block service queues agree. -/
theorem blockMessage_queues (sandbox : Block.Sandbox) (handles : MessageWrapper → Bool)
    (producer : Block.BlockProducer) (wrapper : MessageWrapper) :
    ∃ queued, (Block.blockMessage sandbox handles producer wrapper).producer.transactions =
        producer.transactions ++ queued ∧ ∀ transaction ∈ queued, Agrees transaction := by
  simp only [Block.blockMessage]
  cases hprocessed : Block.processTransaction sandbox wrapper.unpack with
  | error exception => exact ⟨[], by simp, by simp⟩
  | ok processed =>
    simp only [Block.BlockProducer.addTransaction]
    split
    · exact ⟨[], by simp_all, by simp⟩
    · rename_i hadded
      split at hadded
      · simp at hadded
      · obtain rfl := Except.ok.inj hadded
        refine ⟨[processed], ?_, ?_⟩
        · split <;> rfl
        · intro transaction hmem
          rw [List.mem_singleton.mp hmem]
          exact agrees_of_processTransaction hprocessed

/-- The encodings agree at submission and after every phase exactly if the client
filled in its envelope from its message. -/
theorem agreesThroughout_iff (manager : HttpSessionManager) (request : TransactionRequest)
    (phases : List Phase) :
    AgreesThroughout manager request phases ↔ FilledIn manager request := by
  constructor
  · intro hagrees sessionHash transaction message account hheader hvalid hparsed hmessage haccount
    have hwrap := (@HttpTransactionManager.wrap_eq_ok sessionHash _ _).mpr
      ⟨message, account, hmessage, haccount, rfl⟩
    obtain ⟨⟨found, hfound, hactive, hstatus⟩, -⟩ := hagrees _
      (HttpTransactionManager.processTransaction_eq_ok.mpr
        ⟨sessionHash, transaction, hheader, hvalid, hparsed, hwrap⟩)
    obtain rfl := Option.some.inj (hmessage.symm.trans hfound)
    exact ⟨Except.ok.inj (hactive.symm.trans haccount), hstatus⟩
  · intro hfilled wrapper hrouted
    obtain ⟨sessionHash, transaction, hheader, hvalid, hparsed, hwrap⟩ :=
      HttpTransactionManager.processTransaction_eq_ok.mp hrouted
    obtain ⟨message, account, hmessage, haccount, rfl⟩ := HttpTransactionManager.wrap_eq_ok.mp hwrap
    obtain ⟨hactive, hstatus⟩ :=
      hfilled sessionHash transaction message account hheader hvalid hparsed hmessage haccount
    refine ⟨⟨message, hmessage, ?_, hstatus⟩, ?_⟩
    · change _ = Except.ok transaction.activeAccount
      rw [hactive]
      exact haccount
    · exact Runs.along_of_forall step (fun _ _ _ hleft => agrees_of_step hleft) _ phases

def otherAccount : Transaction where
  transactionHash := []
  transactionSignature := []
  activeAccount := [2]
  status := .init
  asn1TransactionMessage := some {
    sourceAccount := [1]
    targetAccount := [3]
    feeAccount := []
    transactionHash := []
    signature := []
    signedTransaction := ⟨[], []⟩
    currentStatus := .init
    changeSet := [] }

def greeted : HttpSessionManager :=
  (Runs.run (VerifiedSessions.step VerifiedSessions.plainCrypto) VerifiedSessions.Server.start
    [.processHello VerifiedSessions.oneKey (some ⟨[5], [5]⟩)]).manager

def otherAccountRequest : TransactionRequest where
  sessionHash := some (VerifiedSessions.plainCrypto.sessionHash [5] VerifiedSessions.oneKey.moment)
  transaction := some otherAccount

/-- It is routed to `[1]`, and would lock `[2]` and run the contract of `[2]`. -/
theorem other_account_routed :
    ∃ wrapper,
      (HttpTransactionManager.processTransaction greeted otherAccountRequest).1 = .ok wrapper ∧
        wrapper.accountHash = [1] ∧ wrapper.unpack.activeAccount = [2] ∧
        ¬ Agrees wrapper.unpack := by
  have hvalid : greeted.isValid
      (VerifiedSessions.plainCrypto.sessionHash [5] VerifiedSessions.oneKey.moment) = true := by
    decide +kernel
  refine ⟨_, HttpTransactionManager.processTransaction_eq_ok.mpr ⟨_, otherAccount, rfl, hvalid, rfl,
    HttpTransactionManager.wrap_eq_ok.mpr ⟨_, [1], rfl, rfl, rfl⟩⟩, rfl, rfl, ?_⟩
  rintro ⟨message, hmessage, haccount, -⟩
  obtain rfl := Option.some.inj hmessage
  have heq : ([1] : Hash) = [2] := Except.ok.inj haccount
  simp at heq

end Keto.Http.EncodingAgreement
