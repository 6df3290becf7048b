import Keto.AccountDb.ChangeApplication
import Keto.Block.BlockService
import Keto.Wavm.ContractCalls

/-!
From a contract's calls to the graph of its account: the sandbox signs what the calls
leave in the session's model, and the account store writes it behind the change sets
that the transaction has brought along.
-/
namespace Keto.Block

open Protocol AccountDb Wavm TransactionCommon Library Library.Fallible
open AccountDb.AccountStore
open ChangeApplication (changeSetWrites messageWrites AccountGraph applyTransaction_written)

/-- The calls that a contract makes for a message, `none` where its code does not run to
its end. -/
abbrev Contracts := Bytes → TransactionMessage → Option (List ContractCall)

/-- The sandbox with the sessions its contracts call. -/
def Sandbox.running {Memory : Type} (sandbox : Sandbox) (memory : Librdf Memory) (hex : HexCodec)
    (contracts : Contracts) : Sandbox where
  getContract := sandbox.getContract
  execute := fun contract message =>
    (contracts contract message).bind fun calls =>
      (WavmSession.execute memory hex message calls).toOption.map WavmSession.modelHelper
  generateHash := sandbox.generateHash
  sign := sandbox.sign

section Effects

variable {Memory Graph : Type} {memory : Librdf Memory} {librdf : Librdf Graph}
  {holds : Statement → Graph → Prop} {hex : HexCodec}

theorem holds_applyAll_add (hstores : librdf.Stores holds) (statements : List Statement)
    (statement : Statement) (graph : Graph) :
    holds statement (Overlay.applyAll (GraphWrite.apply librdf) (statements.map .add) graph) ↔
      holds statement graph ∨ (statement.Complete ∧ statement ∈ statements) := by
  induction statements generalizing graph with
  | nil => simp [Overlay.applyAll]
  | cons first rest ih =>
    have hfirst : Overlay.applyAll (GraphWrite.apply librdf) ((first :: rest).map .add) graph =
        Overlay.applyAll (GraphWrite.apply librdf) (rest.map .add)
          (librdf.addStatement first graph) := rfl
    rw [hfirst, ih, List.mem_cons]
    by_cases hcomplete : first.Complete
    · rw [hstores.added _ _ _ hcomplete]
      constructor
      · rintro ((hheld | rfl) | ⟨hwhole, hrest⟩)
        · exact Or.inl hheld
        · exact Or.inr ⟨hcomplete, Or.inl rfl⟩
        · exact Or.inr ⟨hwhole, Or.inr hrest⟩
      · rintro (hheld | ⟨hwhole, rfl | hrest⟩)
        · exact Or.inl (Or.inl hheld)
        · exact Or.inl (Or.inr rfl)
        · exact Or.inr ⟨hwhole, hrest⟩
    · rw [hstores.refused _ _ _ hcomplete]
      refine or_congr_right (and_congr_right fun hwhole => ?_)
      exact (or_iff_right fun hsame : statement = first => hcomplete (hsame ▸ hwhole)).symm

/-- The change set of a contract is written behind those of the message. -/
theorem messageWrites_addChangeSet (added : SignedChangeSet) (message : TransactionMessage) :
    messageWrites (TransactionMessageHelper.addChangeSet added message) =
      messageWrites message ++ changeSetWrites added.changeSet := by
  rw [messageWrites, TransactionMessageHelper.addChangeSet, List.flatMap_append,
    List.flatMap_singleton, messageWrites]

theorem changeSetWrites_plain {sandbox : Sandbox} {message : TransactionMessage}
    {accountHash : Hash} {model : RDFModel} (h : WavmSession.PlainModel model) :
    changeSetWrites (sandbox.signedChangeSet message accountHash model).changeSet =
      (WavmSession.modelEntries model).map .add := by
  have hmodel : changeSetWrites (sandbox.signedChangeSet message accountHash model).changeSet =
      modelWrites model := by
    simp [changeSetWrites, Sandbox.signedChangeSet, AccountRDFStatementBuilder.model?]
  rw [hmodel, modelWrites, if_pos h.action, WavmSession.modelStatements_eq_entries h]

/-- What the sandbox makes of a transaction whose contract makes some calls. -/
theorem processTransaction_running {sandbox : Sandbox} {contracts : Contracts}
    {transaction processed : Transaction}
    (h : processTransaction (sandbox.running memory hex contracts) transaction = .ok processed) :
    ∃ message contract calls session accountHash,
      transaction.asn1TransactionMessage = some message ∧
      sandbox.getContract transaction.activeAccount = some contract ∧
      contracts contract message = some calls ∧
      WavmSession.execute memory hex message calls = .ok session ∧
      processed.asn1TransactionMessage = some (TransactionMessageHelper.addChangeSet
        ((sandbox.running memory hex contracts).signedChangeSet message accountHash
          session.modelHelper) message) := by
  unfold processTransaction at h
  cases hcontract :
      (sandbox.running memory hex contracts).getContract transaction.activeAccount with
  | none => simp [hcontract] at h
  | some contract =>
    rw [hcontract] at h
    obtain ⟨message, hmessage, hrest⟩ := bind_eq_ok.mp h
    rw [mapError_eq_ok, TransactionProtoHelper.getTransactionMessageHelper_eq_ok] at hmessage
    cases hmodel : (sandbox.running memory hex contracts).execute contract message with
    | none => simp [hmodel] at hrest
    | some model =>
      simp only [hmodel] at hrest
      obtain ⟨accountHash, _, hprocessed⟩ :=
        Sandbox.getSandboxCommandMessage_eq_ok (mapError_eq_ok.mp hrest)
      obtain ⟨calls, hcalls, hsession⟩ := Option.bind_eq_some_iff.mp hmodel
      obtain ⟨session, hexecute, rfl⟩ := Option.map_eq_some_iff.mp hsession
      refine ⟨message, contract, calls, session, accountHash, hmessage, hcontract, hcalls, ?_,
        hprocessed⟩
      cases hrun : WavmSession.execute memory hex message calls with
      | error exception => simp [hrun, Except.toOption] at hexecute
      | ok found =>
        rw [hrun] at hexecute
        exact congrArg Except.ok (Option.some.inj hexecute)

/-- What a contract calls for reaches the graph of the account of its phase, and nothing
else does: when the processed message is applied, that graph holds what it holds of the
message as it came, and the triples of every answer that has its URLs and of every debit
and credit entry the contract made; no other graph is changed. -/
theorem contract_reaches_graph (hstores : librdf.Stores holds)
    (hhex : WavmSession.HexDigits hex) (sandbox : Sandbox) (contracts : Contracts)
    {transaction processed : Transaction}
    (h : processTransaction (sandbox.running memory hex contracts) transaction = .ok processed) :
    ∃ message contract calls applied, transaction.asn1TransactionMessage = some message ∧
      sandbox.getContract transaction.activeAccount = some contract ∧
      contracts contract message = some calls ∧
      processed.asn1TransactionMessage = some applied ∧
      ∀ store store', applyTransaction hex librdf applied store = .ok ⟨⟩ store' →
        ∃ dbName, AccountGraph store' (phaseAccount message) dbName ∧
          (∀ triple, holds triple (contents librdf store' dbName) ↔
            holds triple (Overlay.applyAll (GraphWrite.apply librdf) (messageWrites message)
              (contents librdf store dbName)) ∨
            (triple.Complete ∧ ∃ call ∈ calls, triple ∈ call.triples hex message)) ∧
          ∀ other, other ≠ dbName → contents librdf store' other = contents librdf store other := by
  obtain ⟨message, contract, calls, session, accountHash, hmessage, hcontract, hcalls, hexecute,
    hprocessed⟩ := processTransaction_running h
  obtain ⟨hplain, hentries⟩ := WavmSession.execute_eq_ok hhex hexecute
  refine ⟨message, contract, calls, _, hmessage, hcontract, hcalls, hprocessed, ?_⟩
  intro store store' happly
  obtain ⟨dbName, hgraph, hwritten, hothers⟩ := applyTransaction_written happly
  refine ⟨dbName, hgraph, ?_, hothers⟩
  intro triple
  rw [hwritten, messageWrites_addChangeSet, Overlay.applyAll_append, changeSetWrites_plain hplain,
    holds_applyAll_add hstores, hentries]

end Effects

open ChangeApplication (collectedMessage)

def oneContract : Sandbox where
  getContract := fun _ => some []
  execute := fun _ _ => none
  generateHash := fun _ => []
  sign := fun _ => []

def valueModel : GuestText := ⟨WavmSession.valueUrl.1, by decide⟩

def creditFive : Contracts := fun _ _ =>
  some [.createCreditEntry valueModel 5 ⟨⟨[], List.not_mem_nil⟩, ⟨[], List.not_mem_nil⟩⟩]

def creditResult : Except BlockException Transaction :=
  processTransaction (oneContract.running Librdf.completeList .botan creditFive)
    { Transaction.empty with asn1TransactionMessage := some collectedMessage }

def creditApplied : TransactionMessage :=
  match creditResult with
  | .ok processed => processed.asn1TransactionMessage.getD collectedMessage
  | .error _ => collectedMessage

def creditValue : Statement :=
  ⟨(RDFURLUtils.ofUrl valueModel.1).buildSubjectUrl (text "credit_AB_01"),
    (RDFURLUtils.ofUrl valueModel.1).buildPredicateUrl RDFConstants.value,
    .typedLiteral (text "5") RDFConstants.long⟩

theorem contract_reaches_graph_credit :
    ∃ store', applyTransaction .botan .completeList creditApplied .empty = .ok ⟨⟩ store' ∧
      ∃ dbName, creditValue ∈ contents Librdf.completeList store' dbName := by
  have hreturns : Stateful.returns
      (applyTransaction .botan .completeList creditApplied) AccountStore.empty = true := by
    decide +kernel
  have happly := Stateful.eq_ok_of_returns hreturns
  refine ⟨_, happly, ?_⟩
  have hok : creditResult.toBool = true := by decide +kernel
  cases hresult : creditResult with
  | error exception => simp [hresult, Except.toBool] at hok
  | ok processed =>
    obtain ⟨message, contract, calls, applied, hmessage, _, hcalls, happlied, happlies⟩ :=
      contract_reaches_graph stores_completeList WavmSession.hexDigits_botan oneContract
        creditFive hresult
    obtain rfl : collectedMessage = message := Option.some.inj hmessage
    obtain rfl := Option.some.inj hcalls
    have hsame : creditApplied = applied := by
      rw [creditApplied, hresult]
      simp [happlied]
    rw [← hsame] at happlies
    obtain ⟨dbName, _, hholds, _⟩ := happlies _ _ happly
    have htriple : creditValue ∈ ContractCall.triples .botan collectedMessage
        (.createCreditEntry valueModel 5
          ⟨⟨[], List.not_mem_nil⟩, ⟨[], List.not_mem_nil⟩⟩) := by
      decide +kernel
    have hcomplete : creditValue.Complete := by decide +kernel
    refine ⟨dbName, (hholds creditValue).mpr (Or.inr ⟨hcomplete, ?_⟩)⟩
    exact ⟨_, List.mem_singleton_self _, htriple⟩

end Keto.Block
