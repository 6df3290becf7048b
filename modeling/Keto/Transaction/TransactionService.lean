import Mathlib.Data.List.Basic
import Mathlib.Logic.Function.Basic

/-!
The transaction service of one thread: the thread-local wrapper with the
resources enlisted in it, and the `Transaction` objects whose `complete` flag
guards it. Operations return the calls they made on resources, in order, and
the exception they ended with. The numbers of the objects stand for their
identity.
-/
namespace Keto.Transaction

inductive TransactionException
  | duplicateTransaction
  | noTransaction
  /-- What the commit of a resource threw. -/
  | resource
  deriving DecidableEq, Repr

/-- `transaction` is the object that `createTransaction` made along with the wrapper. -/
structure TransactionWrapper (ρ : Type) where
  transaction : ℕ
  resources : List ρ
  deriving DecidableEq, Repr

structure TransactionImpl where
  complete : Bool
  deriving DecidableEq, Repr

structure ServiceState (ρ : Type) where
  transactionWrapper : Option (TransactionWrapper ρ)
  /-- The objects that are not destroyed. -/
  transactions : ℕ → Option TransactionImpl
  created : ℕ

/-- A call on a resource that returned. -/
inductive ResourceCall (ρ : Type)
  | commit (resource : ρ)
  | rollback (resource : ρ)
  deriving DecidableEq, Repr

structure Effect (ρ : Type) where
  state : ServiceState ρ
  calls : List (ResourceCall ρ)
  thrown : Option TransactionException

variable {ρ : Type}

namespace ServiceState

def empty : ServiceState ρ := ⟨none, fun _ => none, 0⟩

def setTransaction (number : ℕ) (transaction : Option TransactionImpl) (state : ServiceState ρ) :
    ServiceState ρ :=
  { state with transactions := Function.update state.transactions number transaction }

end ServiceState

namespace TransactionWrapper

/-- The loop of `commit`: the resources it got through, and whether it did
without an exception. -/
def commit (throws : ρ → Bool) : List ρ → List ρ × Bool
  | [] => ([], true)
  | resource :: rest =>
    if throws resource then ([], false)
    else
      let done := commit throws rest
      (resource :: done.1, done.2)

theorem commit_of_returns {throws : ρ → Bool} {resources : List ρ}
    (h : ∀ resource ∈ resources, throws resource = false) :
    commit throws resources = (resources, true) := by
  induction resources with
  | nil => rfl
  | cons resource rest ih =>
    have hrest := ih fun r hr => h r (List.mem_cons_of_mem resource hr)
    simp [commit, h resource List.mem_cons_self, hrest]

theorem commit_of_throws {throws : ρ → Bool} {resources : List ρ}
    (h : ¬ ∀ resource ∈ resources, throws resource = false) :
    (commit throws resources).2 = false := by
  induction resources with
  | nil => exact absurd (fun r hr => absurd hr (by simp)) h
  | cons resource rest ih =>
    cases hthrows : throws resource with
    | true => simp [commit, hthrows]
    | false =>
      have hrest : ¬ ∀ r ∈ rest, throws r = false := by
        intro hall
        refine h fun r hr => ?_
        rcases List.mem_cons.mp hr with rfl | hmem
        · exact hthrows
        · exact hall r hmem
      simp [commit, hthrows, ih hrest]

end TransactionWrapper

namespace TransactionServiceModule

def createTransaction (state : ServiceState ρ) : Effect ρ :=
  match state.transactionWrapper with
  | some _ => ⟨state, [], some .duplicateTransaction⟩
  | none =>
    let opened := { state with
      transactionWrapper := some ⟨state.created, []⟩
      created := state.created + 1 }
    ⟨opened.setTransaction state.created (some ⟨false⟩), [], none⟩

def enlistResource (resource : ρ) (state : ServiceState ρ) : Effect ρ :=
  match state.transactionWrapper with
  | none => ⟨state, [], some .noTransaction⟩
  | some wrapper =>
    let enlisted := { wrapper with resources := wrapper.resources ++ [resource] }
    ⟨{ state with transactionWrapper := some enlisted }, [], none⟩

/-- The wrapper is reset after its commit, so not when the commit throws. -/
def commit (throws : ρ → Bool) (state : ServiceState ρ) : Effect ρ :=
  match state.transactionWrapper with
  | none => ⟨state, [], some .noTransaction⟩
  | some wrapper =>
    let done := TransactionWrapper.commit throws wrapper.resources
    if done.2 then
      ⟨{ state with transactionWrapper := none }, done.1.map .commit, none⟩
    else
      ⟨state, done.1.map .commit, some .resource⟩

def rollback (state : ServiceState ρ) : Effect ρ :=
  match state.transactionWrapper with
  | none => ⟨state, [], some .noTransaction⟩
  | some wrapper =>
    ⟨{ state with transactionWrapper := none }, wrapper.resources.map .rollback, none⟩

end TransactionServiceModule

namespace TransactionImpl

/-- The flag is set before the service is called. -/
def commit (throws : ρ → Bool) (number : ℕ) (state : ServiceState ρ) : Effect ρ :=
  if state.transactions number = some ⟨false⟩ then
    TransactionServiceModule.commit throws (state.setTransaction number (some ⟨true⟩))
  else
    ⟨state, [], none⟩

def rollback (number : ℕ) (state : ServiceState ρ) : Effect ρ :=
  if state.transactions number = some ⟨false⟩ then
    TransactionServiceModule.rollback (state.setTransaction number (some ⟨true⟩))
  else
    ⟨state, [], none⟩

/-- The destructor rolls back what was neither committed nor rolled back. -/
def destroy (number : ℕ) (state : ServiceState ρ) : Effect ρ :=
  let ended := rollback number state
  { ended with state := ended.state.setTransaction number none }

end TransactionImpl

inductive Operation (ρ : Type)
  | createTransaction
  | enlistResource (resource : ρ)
  | commit (number : ℕ) (throws : ρ → Bool)
  | rollback (number : ℕ)
  | destroy (number : ℕ)

def Operation.effect : Operation ρ → ServiceState ρ → Effect ρ
  | .createTransaction => TransactionServiceModule.createTransaction
  | .enlistResource resource => TransactionServiceModule.enlistResource resource
  | .commit number throws => TransactionImpl.commit throws number
  | .rollback number => TransactionImpl.rollback number
  | .destroy number => TransactionImpl.destroy number

namespace ServiceState

def closed (number : ℕ) (transaction : Option TransactionImpl) (state : ServiceState ρ) :
    ServiceState ρ :=
  { state.setTransaction number transaction with transactionWrapper := none }

structure Consistent (state : ServiceState ρ) : Prop where
  fresh : ∀ number, state.created ≤ number → state.transactions number = none
  wrapped : ∀ wrapper, state.transactionWrapper = some wrapper →
    state.transactions wrapper.transaction = some ⟨false⟩
  incomplete : ∀ number, state.transactions number = some ⟨false⟩ →
    ∃ wrapper, state.transactionWrapper = some wrapper ∧ wrapper.transaction = number

/-- A commit that threw left its wrapper behind, and no object acts on it any more. -/
def Stuck (state : ServiceState ρ) : Prop :=
  state.transactionWrapper ≠ none ∧ ∀ number, state.transactions number ≠ some ⟨false⟩

theorem consistent_empty : (empty : ServiceState ρ).Consistent where
  fresh := fun _ _ => rfl
  wrapped := fun _ h => absurd h (by simp [empty])
  incomplete := fun _ h => absurd h (by simp [empty])

variable {state : ServiceState ρ}

theorem Consistent.lt_created (h : state.Consistent) {wrapper : TransactionWrapper ρ}
    (hwrapper : state.transactionWrapper = some wrapper) : wrapper.transaction < state.created := by
  by_contra hle
  have hnone := h.fresh wrapper.transaction (by omega)
  rw [h.wrapped wrapper hwrapper] at hnone
  exact absurd hnone (by simp)

theorem Consistent.opened (h : state.Consistent) (hnone : state.transactionWrapper = none) :
    (TransactionServiceModule.createTransaction state).state.Consistent := by
  unfold TransactionServiceModule.createTransaction
  rw [hnone]
  refine ⟨?_, ?_, ?_⟩
  · intro number hle
    have hne : number ≠ state.created := by
      rintro rfl
      exact absurd hle (by simp [setTransaction])
    simp only [setTransaction, Function.update_of_ne hne]
    exact h.fresh number (Nat.le_of_succ_le hle)
  · intro wrapper hwrapper
    obtain rfl := Option.some.inj hwrapper
    simp [setTransaction]
  · intro number hincomplete
    by_cases hnumber : number = state.created
    · exact ⟨_, rfl, hnumber.symm⟩
    · simp only [setTransaction, Function.update_of_ne hnumber] at hincomplete
      obtain ⟨wrapper, hwrapper, _⟩ := h.incomplete number hincomplete
      rw [hnone] at hwrapper
      exact absurd hwrapper (by simp)

theorem Consistent.enlisted (h : state.Consistent) (resource : ρ) :
    (TransactionServiceModule.enlistResource resource state).state.Consistent := by
  unfold TransactionServiceModule.enlistResource
  cases hwrapper : state.transactionWrapper with
  | none => exact h
  | some wrapper =>
    refine ⟨h.fresh, ?_, ?_⟩
    · intro enlisted henlisted
      obtain rfl := Option.some.inj henlisted
      exact h.wrapped wrapper hwrapper
    · intro number hincomplete
      obtain ⟨found, hfound, hnumber⟩ := h.incomplete number hincomplete
      obtain rfl := Option.some.inj (hwrapper.symm.trans hfound)
      exact ⟨_, rfl, hnumber⟩

theorem Consistent.closed (h : state.Consistent) {wrapper : TransactionWrapper ρ}
    (hwrapper : state.transactionWrapper = some wrapper) {transaction : Option TransactionImpl}
    (hended : transaction ≠ some ⟨false⟩) :
    (state.closed wrapper.transaction transaction).Consistent := by
  refine ⟨?_, fun _ hnone => absurd hnone (by simp [ServiceState.closed]), ?_⟩
  · intro number hle
    have hlt := h.lt_created hwrapper
    have hne : number ≠ wrapper.transaction := by
      have : state.created ≤ number := hle
      omega
    simp only [ServiceState.closed, setTransaction, Function.update_of_ne hne]
    exact h.fresh number hle
  · intro number hincomplete
    by_cases hnumber : number = wrapper.transaction
    · subst hnumber
      simp only [ServiceState.closed, setTransaction, Function.update_self] at hincomplete
      exact absurd hincomplete hended
    · simp only [ServiceState.closed, setTransaction, Function.update_of_ne hnumber]
        at hincomplete
      obtain ⟨found, hfound, hfoundNumber⟩ := h.incomplete number hincomplete
      obtain rfl := Option.some.inj (hwrapper.symm.trans hfound)
      exact absurd hfoundNumber.symm hnumber

/-- Destroying an object that is complete, or none, changes nothing else. -/
theorem Consistent.removed (h : state.Consistent) {number : ℕ}
    (hcomplete : state.transactions number ≠ some ⟨false⟩) :
    (state.setTransaction number none).Consistent := by
  refine ⟨?_, ?_, ?_⟩
  · intro other hle
    by_cases hother : other = number
    · subst hother
      simp [setTransaction]
    · simp only [setTransaction, Function.update_of_ne hother]
      exact h.fresh other hle
  · intro wrapper hwrapper
    have hwrapped := h.wrapped wrapper hwrapper
    have hne : wrapper.transaction ≠ number := by
      rintro rfl
      exact hcomplete hwrapped
    simp only [setTransaction, Function.update_of_ne hne]
    exact hwrapped
  · intro other hincomplete
    by_cases hother : other = number
    · subst hother
      simp [setTransaction] at hincomplete
    · simp only [setTransaction, Function.update_of_ne hother] at hincomplete
      exact h.incomplete other hincomplete

end ServiceState

namespace Operation

open ServiceState

variable {state : ServiceState ρ}

/-- The commit that reaches the service when no enlisted resource throws. -/
theorem effect_commit_returns {wrapper : TransactionWrapper ρ}
    (hwrapper : state.transactionWrapper = some wrapper)
    (hincomplete : state.transactions wrapper.transaction = some ⟨false⟩) (throws : ρ → Bool)
    (hreturns : ∀ resource ∈ wrapper.resources, throws resource = false) :
    (commit wrapper.transaction throws).effect state =
      ⟨state.closed wrapper.transaction (some ⟨true⟩), wrapper.resources.map .commit, none⟩ := by
  simp [effect, TransactionImpl.commit, hincomplete, TransactionServiceModule.commit,
    setTransaction, hwrapper, TransactionWrapper.commit_of_returns hreturns, closed]

/-- The commit that reaches the service when an enlisted resource throws. -/
theorem effect_commit_throws {wrapper : TransactionWrapper ρ}
    (hwrapper : state.transactionWrapper = some wrapper)
    (hincomplete : state.transactions wrapper.transaction = some ⟨false⟩) {throws : ρ → Bool}
    (hthrows : ¬ ∀ resource ∈ wrapper.resources, throws resource = false) :
    (commit wrapper.transaction throws).effect state =
      ⟨state.setTransaction wrapper.transaction (some ⟨true⟩),
        (TransactionWrapper.commit throws wrapper.resources).1.map .commit, some .resource⟩ := by
  simp [effect, TransactionImpl.commit, hincomplete, TransactionServiceModule.commit,
    setTransaction, hwrapper, TransactionWrapper.commit_of_throws hthrows]

theorem effect_rollback_open {wrapper : TransactionWrapper ρ}
    (hwrapper : state.transactionWrapper = some wrapper)
    (hincomplete : state.transactions wrapper.transaction = some ⟨false⟩) :
    (rollback wrapper.transaction).effect state =
      ⟨state.closed wrapper.transaction (some ⟨true⟩), wrapper.resources.map .rollback, none⟩ := by
  simp [effect, TransactionImpl.rollback, hincomplete, TransactionServiceModule.rollback,
    setTransaction, hwrapper, closed]

theorem effect_destroy_open {wrapper : TransactionWrapper ρ}
    (hwrapper : state.transactionWrapper = some wrapper)
    (hincomplete : state.transactions wrapper.transaction = some ⟨false⟩) :
    (destroy wrapper.transaction).effect state =
      ⟨state.closed wrapper.transaction none, wrapper.resources.map .rollback, none⟩ := by
  simp [effect, TransactionImpl.destroy, TransactionImpl.rollback, hincomplete,
    TransactionServiceModule.rollback, setTransaction, hwrapper, closed]

theorem effect_commit_complete {number : ℕ} (throws : ρ → Bool)
    (hcomplete : state.transactions number ≠ some ⟨false⟩) :
    (commit number throws).effect state = ⟨state, [], none⟩ := by
  simp [effect, TransactionImpl.commit, hcomplete]

theorem effect_rollback_complete {number : ℕ}
    (hcomplete : state.transactions number ≠ some ⟨false⟩) :
    (rollback number).effect state = ⟨state, [], none⟩ := by
  simp [effect, TransactionImpl.rollback, hcomplete]

theorem effect_destroy_complete {number : ℕ}
    (hcomplete : state.transactions number ≠ some ⟨false⟩) :
    (destroy number).effect state = ⟨state.setTransaction number none, [], none⟩ := by
  simp [effect, TransactionImpl.destroy, TransactionImpl.rollback, hcomplete]

theorem effect_createTransaction_some {wrapper : TransactionWrapper ρ}
    (hwrapper : state.transactionWrapper = some wrapper) :
    createTransaction.effect state = ⟨state, [], some .duplicateTransaction⟩ := by
  simp [effect, TransactionServiceModule.createTransaction, hwrapper]

end Operation

end Keto.Transaction
