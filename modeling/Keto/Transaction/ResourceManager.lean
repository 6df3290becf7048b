import Keto.Library.Overlay
import Keto.Library.Runs
import Keto.Transaction.TransactionService

/-!
The resource managers of one thread. Each manager keeps a thread-local
resource, created on demand and then enlisted in the transaction of the
thread; the resource collects writes until the service commits or rolls back
its manager. The managers of the block, account and router stores have the
same code, so the kind of manager is a parameter here, as are the databases
and what a write does to them.
-/
namespace Keto.Transaction.ResourceManager

open Library Library.Runs ServiceState

variable {κ σ ω : Type}

/-- `transactionMap` holds the writes; the number stands for the identity. -/
structure Resource (ω : Type) where
  number : ℕ
  transactionMap : List ω
  deriving DecidableEq, Repr

structure Handle (κ : Type) where
  manager : κ
  number : ℕ
  deriving DecidableEq, Repr

/-- The last two fields only record: how many resources there were when the
latest transaction was created, and the writes made since. -/
structure Thread (κ σ ω : Type) where
  service : ServiceState κ
  resourcePtr : κ → Option (Resource ω)
  database : κ → σ
  allocated : ℕ
  openedAt : ℕ
  written : κ → List ω

def Thread.start (database : κ → σ) : Thread κ σ ω where
  service := ServiceState.empty
  resourcePtr := fun _ => none
  database := database
  allocated := 0
  openedAt := 0
  written := fun _ => []

variable [DecidableEq κ] (apply : ω → σ → σ)

def commit (manager : κ) (thread : Thread κ σ ω) : Thread κ σ ω :=
  match thread.resourcePtr manager with
  | none => thread
  | some resource => { thread with
      database := Function.update thread.database manager
        (Overlay.applyAll apply resource.transactionMap (thread.database manager))
      resourcePtr := Function.update thread.resourcePtr manager none }

def rollback (manager : κ) (thread : Thread κ σ ω) : Thread κ σ ω :=
  match thread.resourcePtr manager with
  | none => thread
  | some _ => { thread with resourcePtr := Function.update thread.resourcePtr manager none }

/-- The pointer is set before the manager is enlisted, which may throw. -/
def getResource (manager : κ) (thread : Thread κ σ ω) :
    Thread κ σ ω × Except TransactionException (Handle κ) :=
  match thread.resourcePtr manager with
  | some resource => (thread, .ok ⟨manager, resource.number⟩)
  | none =>
    let enlisted := TransactionServiceModule.enlistResource manager thread.service
    ({ thread with
        service := enlisted.state
        resourcePtr := Function.update thread.resourcePtr manager (some ⟨thread.allocated, []⟩)
        allocated := thread.allocated + 1 },
      match enlisted.thrown with
      | none => .ok ⟨manager, thread.allocated⟩
      | some exception => .error exception)

/-- A write to the resource of the handle. One that its manager has let go of
is rolled back when it is destroyed. -/
def put (handle : Handle κ) (write : ω) (thread : Thread κ σ ω) : Thread κ σ ω :=
  match thread.resourcePtr handle.manager with
  | none => thread
  | some resource =>
    if resource.number = handle.number then
      let written := { resource with transactionMap := resource.transactionMap ++ [write] }
      { thread with
        resourcePtr := Function.update thread.resourcePtr handle.manager (some written) }
    else thread

def call : ResourceCall κ → Thread κ σ ω → Thread κ σ ω
  | .commit manager => commit apply manager
  | .rollback manager => rollback manager

def serve (effect : ServiceState κ → Effect κ) (thread : Thread κ σ ω) : Thread κ σ ω :=
  let done := effect thread.service
  done.calls.foldl (fun thread resourceCall => call apply resourceCall thread)
    { thread with service := done.state }

inductive ThreadOperation (κ ω : Type)
  | createTransaction
  | getResource (manager : κ)
  | write (handle : Handle κ) (write : ω)
  | commit (number : ℕ)
  | rollback (number : ℕ)
  | destroy (number : ℕ)

/-- A commit of a manager does not throw: the status rocksdb returns is dropped. -/
def step : ThreadOperation κ ω → Thread κ σ ω → Thread κ σ ω
  | .createTransaction, thread =>
    let created := TransactionServiceModule.createTransaction thread.service
    match created.thrown with
    | some _ => thread
    | none => { thread with
        service := created.state
        openedAt := thread.allocated
        written := fun _ => [] }
  | .getResource manager, thread => (getResource manager thread).1
  | .write handle write, thread => { put handle write thread with
      written := Function.update thread.written handle.manager
        (thread.written handle.manager ++ [write]) }
  | .commit number, thread => serve apply (TransactionImpl.commit (fun _ => false) number) thread
  | .rollback number, thread => serve apply (TransactionImpl.rollback number) thread
  | .destroy number, thread => serve apply (TransactionImpl.destroy number) thread

def overlay (thread : Thread κ σ ω) (manager : κ) : Overlay σ ω :=
  ⟨thread.database manager, ((thread.resourcePtr manager).map Resource.transactionMap).getD []⟩

/-- What the transaction of the thread was asked to write: the abstract view of the managers. -/
def asked (thread : Thread κ σ ω) (manager : κ) : Overlay σ ω :=
  ⟨thread.database manager, thread.written manager⟩

theorem overlay_commit (manager other : κ) (thread : Thread κ σ ω) :
    overlay (commit apply manager thread) other =
      if other = manager then (overlay thread other).commit apply else overlay thread other := by
  unfold commit
  cases hresource : thread.resourcePtr manager with
  | none =>
    by_cases hother : other = manager
    · subst hother
      simp [overlay, hresource, Overlay.commit, Overlay.view]
    · rw [if_neg hother]
  | some resource =>
    by_cases hother : other = manager
    · subst hother
      simp [overlay, hresource, Overlay.commit, Overlay.view]
    · simp [overlay, hother]

theorem overlay_rollback (manager other : κ) (thread : Thread κ σ ω) :
    overlay (rollback manager thread) other =
      if other = manager then (overlay thread other).rollback else overlay thread other := by
  unfold rollback
  cases hresource : thread.resourcePtr manager with
  | none =>
    by_cases hother : other = manager
    · subst hother
      simp [overlay, hresource, Overlay.rollback]
    · rw [if_neg hother]
  | some resource =>
    by_cases hother : other = manager
    · subst hother
      simp [overlay, Overlay.rollback]
    · simp [overlay, hother]

/-- A manager without a resource has nothing to let go of. -/
theorem resourcePtr_of_none {manager : κ} {thread : Thread κ σ ω}
    (h : thread.resourcePtr manager = none) (other : κ) :
    thread.resourcePtr other = if other = manager then none else thread.resourcePtr other := by
  by_cases hother : other = manager
  · rw [if_pos hother, hother, h]
  · rw [if_neg hother]

theorem resourcePtr_commit (manager other : κ) (thread : Thread κ σ ω) :
    (commit apply manager thread).resourcePtr other =
      if other = manager then none else thread.resourcePtr other := by
  unfold commit
  cases hresource : thread.resourcePtr manager with
  | none => exact resourcePtr_of_none hresource other
  | some resource => exact Function.update_apply thread.resourcePtr manager none other

theorem resourcePtr_rollback (manager other : κ) (thread : Thread κ σ ω) :
    (rollback manager thread).resourcePtr other =
      if other = manager then none else thread.resourcePtr other := by
  unfold rollback
  cases hresource : thread.resourcePtr manager with
  | none => exact resourcePtr_of_none hresource other
  | some resource => exact Function.update_apply thread.resourcePtr manager none other

end Keto.Transaction.ResourceManager
