import Keto.Library.Runs
import Keto.Transaction.TransactionService

/-!
The requests that one thread of the HTTP server handles. The handler of a
request runs in a transaction; its response is sent before the transaction is
committed, and an exception of either is answered with a server error. What
handlers do, the documents and how exceptions print are parameters.
-/
namespace Keto.Http

open Transaction Library

/-- What the four `catch` blocks tell apart, with the texts they print. -/
inductive Thrown
  | keto (diagnostics : String)
  | boost (diagnostics : String)
  | standard (what : String)
  | other
  deriving DecidableEq, Repr

structure Request where
  target : String
  keepAlive : Bool
  text : String
  deriving DecidableEq, Repr

inductive HttpStatus
  | ok
  | badRequest
  | notFound
  | internalServerError
  deriving DecidableEq, Repr

structure Response where
  status : HttpStatus
  contentType : String
  keepAlive : Bool
  body : String
  deriving DecidableEq, Repr

/-- What handling a request comes to: the resources it enlists, and its result. -/
structure Handler (ρ : Type) where
  enlisted : List ρ
  result : Except Thrown String

variable {ρ : Type}

namespace HttpRequestManager

def handShake : String := "/hand_shake"

def transaction : String := "/transaction"

def dataQuery : String := "/data/"

def isDataQuery (target : String) : Bool := dataQuery.toList.isPrefixOf target.toList

def checkRequest (request : Request) : Bool :=
  if request.target.isEmpty then false
  else if request.target = handShake then true
  else if request.target = transaction then true
  else isDataQuery request.target

/-- The response to a result; the answer to a query closes the connection. -/
def response (request : Request) (result : String) : Response :=
  if request.target ≠ handShake ∧ request.target ≠ transaction ∧ isDataQuery request.target then
    ⟨.ok, "application/sparql-results+json", false, result⟩
  else ⟨.ok, "text/html", request.keepAlive, result⟩

def handleRequest (request : Request) (handler : Handler ρ) : Except Thrown Response :=
  handler.result.map (response request)

end HttpRequestManager

/-- How an exception of the transaction is caught, and the documents that are served. -/
structure HttpdServer where
  caught : TransactionException → Thrown
  document : Request → Response

/-- What came of a request: the responses whose writing was started, the calls on
the enlisted resources, the exception of the commit and the one that escaped. -/
structure Handled (ρ : Type) where
  state : ServiceState ρ
  sent : List Response
  calls : List (ResourceCall ρ)
  commitThrown : Option TransactionException
  escaped : Option TransactionException

namespace HttpdServer

def serverError (request : Request) (what : String) : Response :=
  ⟨.internalServerError, "text/html", request.keepAlive, "An error occurred: '" ++ what ++ "'"⟩

def errorResponse (request : Request) : Thrown → Response
  | .keto diagnostics =>
    serverError request
      ("Process the request : " ++ request.text ++ "\n" ++ "Cause : " ++ diagnostics)
  | .boost diagnostics => serverError request ("Failed process the request : " ++ diagnostics)
  | .standard what => serverError request ("Failed process the request : " ++ what)
  | .other => serverError request "Failed to handle the request"

def enlist (resources : List ρ) (state : ServiceState ρ) : ServiceState ρ :=
  resources.foldl
    (fun state resource => (TransactionServiceModule.enlistResource resource state).state) state

/-- The `try` block and its handlers on the transaction object `number`; the object
is destroyed behind them. -/
def handleInTransaction (server : HttpdServer) (request : Request) (handler : Handler ρ)
    (throws : ρ → Bool) (number : ℕ) (state : ServiceState ρ) : Handled ρ :=
  let enlisted := enlist handler.enlisted state
  match HttpRequestManager.handleRequest request handler with
  | .error thrown =>
    let destroyed := TransactionImpl.destroy number enlisted
    ⟨destroyed.state, [errorResponse request thrown], destroyed.calls, none, none⟩
  | .ok response =>
    let committed := TransactionImpl.commit throws number enlisted
    let destroyed := TransactionImpl.destroy number committed.state
    match committed.thrown with
    | none => ⟨destroyed.state, [response], committed.calls ++ destroyed.calls, none, none⟩
    | some exception =>
      ⟨destroyed.state, [response, errorResponse request (server.caught exception)],
        committed.calls ++ destroyed.calls, some exception, none⟩

/-- `createTransaction` stands before the `try` block. -/
def handleRequest (server : HttpdServer) (request : Request) (handler : Handler ρ)
    (throws : ρ → Bool) (state : ServiceState ρ) : Handled ρ :=
  if HttpRequestManager.checkRequest request then
    let created := TransactionServiceModule.createTransaction state
    match created.thrown with
    | some exception => ⟨created.state, [], created.calls, none, some exception⟩
    | none => handleInTransaction server request handler throws state.created created.state
  else ⟨state, [server.document request], [], none, none⟩

structure Exchange (ρ : Type) where
  request : Request
  handler : Handler ρ
  throws : ρ → Bool

variable (server : HttpdServer)

def handled (exchange : Exchange ρ) (state : ServiceState ρ) : Handled ρ :=
  server.handleRequest exchange.request exchange.handler exchange.throws state

def step (exchange : Exchange ρ) (state : ServiceState ρ) : ServiceState ρ :=
  (server.handled exchange state).state

def Free (state : ServiceState ρ) : Prop := state.transactionWrapper = none

theorem free_empty : Free (ServiceState.empty : ServiceState ρ) := rfl

def Committed (exchange : Exchange ρ) (handled : Handled ρ) : Prop :=
  handled.calls = exchange.handler.enlisted.map .commit ∧ handled.commitThrown = none ∧
    Free handled.state

def RolledBack (exchange : Exchange ρ) (handled : Handled ρ) : Prop :=
  handled.calls = exchange.handler.enlisted.map .rollback ∧ Free handled.state

def Fails (exchange : Exchange ρ) : Prop := ∃ thrown, exchange.handler.result = .error thrown

/-- One response: a success after a commit only, and after a failure the server
error of a transaction that was rolled back. -/
def AnswersOnce (exchange : Exchange ρ) (handled : Handled ρ) : Prop :=
  ∃ response, handled.sent = [response] ∧
    (response.status = .ok → Committed exchange handled) ∧
    (Fails exchange ∨ handled.commitThrown ≠ none →
      response.status = .internalServerError ∧ RolledBack exchange handled)

def Correct (exchange : Exchange ρ) (state : ServiceState ρ) : Prop :=
  HttpRequestManager.checkRequest exchange.request = true →
    AnswersOnce exchange (server.handled exchange state)

def CommitReturns (exchange : Exchange ρ) (_ : ServiceState ρ) : Prop :=
  HttpRequestManager.checkRequest exchange.request = true →
    Fails exchange ∨ ∀ resource ∈ exchange.handler.enlisted, exchange.throws resource = false

theorem errorResponse_status (request : Request) (thrown : Thrown) :
    (errorResponse request thrown).status = .internalServerError := by
  cases thrown <;> rfl

theorem enlist_wrapper (resources : List ρ) {state : ServiceState ρ} {wrapper : TransactionWrapper ρ}
    (h : state.transactionWrapper = some wrapper) :
    (enlist resources state).transactionWrapper =
        some { wrapper with resources := wrapper.resources ++ resources } ∧
      (enlist resources state).transactions = state.transactions := by
  induction resources generalizing state wrapper with
  | nil => simp [enlist, h]
  | cons resource resources ih =>
    have hfirst :
        (TransactionServiceModule.enlistResource resource state).state.transactionWrapper =
          some ⟨wrapper.transaction, wrapper.resources ++ [resource]⟩ := by
      simp [TransactionServiceModule.enlistResource, h]
    have hobjects : (TransactionServiceModule.enlistResource resource state).state.transactions =
        state.transactions := by
      simp [TransactionServiceModule.enlistResource, h]
    obtain ⟨hwrapper, htransactions⟩ := ih hfirst
    rw [enlist, List.foldl_cons, ← enlist, hwrapper, htransactions, hobjects]
    simp

section Exchanges

variable {exchange : Exchange ρ} {state : ServiceState ρ}

/-- With no transaction on the thread, the handler's resources are enlisted in a new one. -/
theorem handled_of_free (haccepted : HttpRequestManager.checkRequest exchange.request = true)
    (hfree : Free state) :
    ∃ opened : ServiceState ρ,
      opened.transactionWrapper = some ⟨state.created, exchange.handler.enlisted⟩ ∧
      opened.transactions state.created = some ⟨false⟩ ∧
      server.handled exchange state =
        match exchange.handler.result with
        | .error thrown =>
          let destroyed := (Operation.destroy state.created).effect opened
          ⟨destroyed.state, [errorResponse exchange.request thrown], destroyed.calls, none, none⟩
        | .ok result =>
          let response := HttpRequestManager.response exchange.request result
          let committed := (Operation.commit state.created exchange.throws).effect opened
          let destroyed := (Operation.destroy state.created).effect committed.state
          match committed.thrown with
          | none => ⟨destroyed.state, [response], committed.calls ++ destroyed.calls, none, none⟩
          | some exception =>
            ⟨destroyed.state,
              [response, errorResponse exchange.request (server.caught exception)],
              committed.calls ++ destroyed.calls, some exception, none⟩ := by
  have hnone : state.transactionWrapper = none := hfree
  have hcreated : (TransactionServiceModule.createTransaction state).thrown = none := by
    simp [TransactionServiceModule.createTransaction, hnone]
  have hwrapper : (TransactionServiceModule.createTransaction state).state.transactionWrapper =
      some ⟨state.created, []⟩ := by
    simp [TransactionServiceModule.createTransaction, hnone, ServiceState.setTransaction]
  have hobject : (TransactionServiceModule.createTransaction state).state.transactions
      state.created = some ⟨false⟩ := by
    simp [TransactionServiceModule.createTransaction, hnone, ServiceState.setTransaction]
  obtain ⟨hopened, hobjects⟩ := enlist_wrapper exchange.handler.enlisted hwrapper
  refine ⟨_, hopened, ?_, ?_⟩
  · rw [hobjects]
    exact hobject
  · simp only [handled, handleRequest, haccepted, if_true, hcreated, handleInTransaction,
      HttpRequestManager.handleRequest]
    cases exchange.handler.result <;> rfl

/-- A handler that fails is answered with the error, and its transaction rolled back. -/
theorem answersOnce_of_fails (haccepted : HttpRequestManager.checkRequest exchange.request = true)
    (hfree : Free state) (hfails : Fails exchange) :
    AnswersOnce exchange (server.handled exchange state) ∧ Free (server.step exchange state) := by
  obtain ⟨opened, hwrapper, hobject, hhandled⟩ := handled_of_free server haccepted hfree
  obtain ⟨thrown, hresult⟩ := hfails
  have hdestroy := Operation.effect_destroy_open hwrapper hobject
  simp only at hdestroy
  rw [step, hhandled, hresult]
  simp only [hdestroy]
  refine ⟨⟨errorResponse exchange.request thrown, rfl, ?_, ?_⟩, rfl⟩
  · intro hok
    rw [errorResponse_status] at hok
    contradiction
  · intro _
    exact ⟨errorResponse_status .., rfl, rfl⟩

/-- A handler whose resources commit is answered with its response. -/
theorem answersOnce_of_commits (haccepted : HttpRequestManager.checkRequest exchange.request = true)
    (hfree : Free state) {result : String} (hresult : exchange.handler.result = .ok result)
    (hreturns : ∀ resource ∈ exchange.handler.enlisted, exchange.throws resource = false) :
    AnswersOnce exchange (server.handled exchange state) ∧ Free (server.step exchange state) := by
  obtain ⟨opened, hwrapper, hobject, hhandled⟩ := handled_of_free server haccepted hfree
  have hcommit := Operation.effect_commit_returns hwrapper hobject exchange.throws hreturns
  have hcomplete : (opened.closed state.created (some ⟨true⟩)).transactions state.created ≠
      some ⟨false⟩ := by
    simp [ServiceState.closed, ServiceState.setTransaction]
  have hdestroy := Operation.effect_destroy_complete hcomplete
  simp only at hcommit
  rw [step, hhandled, hresult]
  simp only [hcommit, hdestroy, List.append_nil]
  refine ⟨⟨HttpRequestManager.response exchange.request result, rfl, ?_, ?_⟩, rfl⟩
  · intro _
    exact ⟨rfl, rfl, rfl⟩
  · rintro (⟨thrown, herror⟩ | hthrown)
    · rw [hresult] at herror
      contradiction
    · exact absurd rfl hthrown

/-- A commit that throws is answered a second time. -/
theorem not_answersOnce_of_throws
    (haccepted : HttpRequestManager.checkRequest exchange.request = true) (hfree : Free state)
    {result : String} (hresult : exchange.handler.result = .ok result)
    (hthrows : ¬ ∀ resource ∈ exchange.handler.enlisted, exchange.throws resource = false) :
    ¬ AnswersOnce exchange (server.handled exchange state) := by
  obtain ⟨opened, hwrapper, hobject, hhandled⟩ := handled_of_free server haccepted hfree
  have hcommit := Operation.effect_commit_throws hwrapper hobject hthrows
  simp only at hcommit
  rw [hhandled, hresult]
  simp only [hcommit]
  rintro ⟨response, hsent, -⟩
  simp at hsent

/-- On a free thread the request is answered as asked exactly if the handler fails
or the commits return, and then the thread is free again. -/
theorem answersOnce_iff (haccepted : HttpRequestManager.checkRequest exchange.request = true)
    (hfree : Free state) :
    (AnswersOnce exchange (server.handled exchange state) ↔
        Fails exchange ∨ ∀ resource ∈ exchange.handler.enlisted,
          exchange.throws resource = false) ∧
      (Fails exchange ∨ (∀ resource ∈ exchange.handler.enlisted,
          exchange.throws resource = false) →
        Free (server.step exchange state)) := by
  cases hresult : exchange.handler.result with
  | error thrown =>
    have hfails : Fails exchange := ⟨thrown, hresult⟩
    obtain ⟨hanswers, hafter⟩ := answersOnce_of_fails server haccepted hfree hfails
    exact ⟨iff_of_true hanswers (Or.inl hfails), fun _ => hafter⟩
  | ok result =>
    by_cases hreturns : ∀ resource ∈ exchange.handler.enlisted, exchange.throws resource = false
    · obtain ⟨hanswers, hafter⟩ := answersOnce_of_commits server haccepted hfree hresult hreturns
      exact ⟨iff_of_true hanswers (Or.inr hreturns), fun _ => hafter⟩
    · have hneither : ¬ (Fails exchange ∨ ∀ resource ∈ exchange.handler.enlisted,
          exchange.throws resource = false) := by
        rintro (⟨thrown, herror⟩ | hall)
        · rw [hresult] at herror
          contradiction
        · exact hreturns hall
      exact ⟨iff_of_false (not_answersOnce_of_throws server haccepted hfree hresult hreturns)
        hneither, fun h => absurd h hneither⟩

end Exchanges

/-- Every accepted request of a run on one thread is answered once and truthfully
exactly if each of them has a handler that fails or commits that return. -/
theorem responses_along (exchanges : List (Exchange ρ)) :
    Runs.Along server.step (server.Correct) ServiceState.empty exchanges ↔
      Runs.Along server.step CommitReturns ServiceState.empty exchanges := by
  refine Runs.along_iff_of_invariant server.step
    ?_ ?_ free_empty (Runs.along_true _ _ exchanges)
  · intro exchange state hfree _ hreturns
    by_cases haccepted : HttpRequestManager.checkRequest exchange.request = true
    · exact (answersOnce_iff server haccepted hfree).2 (hreturns haccepted)
    · rw [step, handled, handleRequest, if_neg haccepted]
      exact hfree
  · intro exchange state hfree _
    refine forall_congr' ?_
    intro haccepted
    exact (answersOnce_iff server haccepted hfree).1

def plainServer : HttpdServer where
  caught := fun _ => .other
  document := fun request => ⟨.notFound, "text/html", request.keepAlive, ""⟩

def failingCommit : Exchange ℕ where
  request := ⟨"/transaction", true, ""⟩
  handler := ⟨[0], .ok "local"⟩
  throws := fun _ => true

/-- A success and an error are sent, nothing is rolled back, and the next request of
the thread gets no response at all. -/
theorem failing_commit_answered_twice :
    let first := plainServer.handled failingCommit ServiceState.empty
    HttpRequestManager.checkRequest failingCommit.request = true ∧
      first.sent.map Response.status = [.ok, .internalServerError] ∧ first.calls = [] ∧
      (plainServer.handled failingCommit first.state).sent = [] ∧
      (plainServer.handled failingCommit first.state).escaped = some .duplicateTransaction := by
  decide +kernel

theorem failing_commit_not_correct :
    ¬ Runs.Along plainServer.step plainServer.Correct ServiceState.empty [failingCommit] := by
  rintro ⟨hcorrect, -⟩
  obtain ⟨haccepted, hsent, -⟩ := failing_commit_answered_twice
  obtain ⟨response, hone, -⟩ := hcorrect haccepted
  rw [hone] at hsent
  simp at hsent

end HttpdServer

end Keto.Http
