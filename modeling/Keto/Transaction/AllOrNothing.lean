import Keto.Library.Runs
import Keto.Transaction.TransactionService

/-!
What becomes of the resources enlisted in each transaction of a thread. The
record kept beside the service says for every transaction which resources were
enlisted, committed and rolled back. As long as no resource throws in a commit
every transaction ends as a whole and the thread can open the next; a commit
that throws leaves its wrapper on the thread for good, since the object it was
called on is complete before the first resource is tried.
-/
namespace Keto.Transaction.AllOrNothing

open Library.Runs ServiceState Operation

variable {ρ : Type}

/-- The service of a thread and, by the number of the transaction, the fate of
the resources. -/
structure Thread (ρ : Type) where
  service : ServiceState ρ
  enlisted : ℕ → List ρ
  committed : ℕ → List ρ
  rolledBack : ℕ → List ρ

def Thread.empty : Thread ρ := ⟨ServiceState.empty, fun _ => [], fun _ => [], fun _ => []⟩

/-- The thread holds the wrapper of a commit that threw. -/
def Thread.Stuck (thread : Thread ρ) : Prop := thread.service.Stuck

def enlists : Operation ρ → List ρ
  | .enlistResource resource => [resource]
  | _ => []

def commits (calls : List (ResourceCall ρ)) : List ρ :=
  calls.filterMap fun call => match call with
    | .commit resource => some resource
    | .rollback _ => none

def rollbacks (calls : List (ResourceCall ρ)) : List ρ :=
  calls.filterMap fun call => match call with
    | .commit _ => none
    | .rollback resource => some resource

/-- One operation: what it does with resources belongs to the transaction of the wrapper. -/
def step (operation : Operation ρ) (thread : Thread ρ) : Thread ρ :=
  let done := operation.effect thread.service
  match thread.service.transactionWrapper with
  | none => { thread with service := done.state }
  | some wrapper => {
      service := done.state
      enlisted := Function.update thread.enlisted wrapper.transaction
        (thread.enlisted wrapper.transaction ++ enlists operation)
      committed := Function.update thread.committed wrapper.transaction
        (thread.committed wrapper.transaction ++ commits done.calls)
      rolledBack := Function.update thread.rolledBack wrapper.transaction
        (thread.rolledBack wrapper.transaction ++ rollbacks done.calls) }

def Settled (thread : Thread ρ) (number : ℕ) : Prop :=
  (thread.committed number = thread.enlisted number ∧ thread.rolledBack number = []) ∨
    (thread.committed number = [] ∧ thread.rolledBack number = thread.enlisted number)

/-- The transactions whose objects are gone are settled and off the thread, and
a thread without objects can create the next transaction. -/
def WholeAndReusable (thread : Thread ρ) : Prop :=
  (∀ number, number < thread.service.created → thread.service.transactions number = none →
    Settled thread number ∧ ∀ wrapper, thread.service.transactionWrapper = some wrapper →
      wrapper.transaction ≠ number) ∧
  ((∀ number, thread.service.transactions number = none) →
    (createTransaction.effect thread.service).thrown = none)

def NoResourceThrows : Operation ρ → Thread ρ → Prop
  | .commit number throws, thread =>
    ∀ wrapper, thread.service.transactionWrapper = some wrapper → wrapper.transaction = number →
      thread.service.transactions number = some ⟨false⟩ →
        ∀ resource ∈ wrapper.resources, throws resource = false
  | _, _ => True

structure Inv (thread : Thread ρ) : Prop where
  consistent : thread.service.Consistent
  open_enlisted : ∀ wrapper, thread.service.transactionWrapper = some wrapper →
    thread.enlisted wrapper.transaction = wrapper.resources ∧
      thread.committed wrapper.transaction = [] ∧ thread.rolledBack wrapper.transaction = []
  fresh : ∀ number, thread.service.created ≤ number → thread.enlisted number = [] ∧
    thread.committed number = [] ∧ thread.rolledBack number = []
  settled : ∀ number, (∀ wrapper, thread.service.transactionWrapper = some wrapper →
    wrapper.transaction ≠ number) → Settled thread number

theorem inv_empty : Inv (Thread.empty : Thread ρ) where
  consistent := consistent_empty
  open_enlisted := fun _ h => absurd h (by simp [Thread.empty, ServiceState.empty])
  fresh := fun _ _ => ⟨rfl, rfl, rfl⟩
  settled := fun _ _ => Or.inl ⟨rfl, rfl⟩

/-- The invariant settles the transactions whose objects are gone. -/
theorem Inv.wholeAndReusable {thread : Thread ρ} (h : Inv thread) : WholeAndReusable thread := by
  constructor
  · intro number _ hgone
    have hoff : ∀ wrapper, thread.service.transactionWrapper = some wrapper →
        wrapper.transaction ≠ number := by
      rintro wrapper hwrapper rfl
      rw [h.consistent.wrapped wrapper hwrapper] at hgone
      exact absurd hgone (by simp)
    exact ⟨h.settled number hoff, hoff⟩
  · intro hgone
    cases hwrapper : thread.service.transactionWrapper with
    | none => simp [effect, TransactionServiceModule.createTransaction, hwrapper]
    | some wrapper =>
      have hlive := h.consistent.wrapped wrapper hwrapper
      rw [hgone wrapper.transaction] at hlive
      exact absurd hlive (by simp)

theorem step_of_none (operation : Operation ρ) {thread : Thread ρ}
    (hnone : thread.service.transactionWrapper = none) :
    step operation thread = { thread with service := (operation.effect thread.service).state } := by
  simp [step, hnone]

/-- A step that neither enlists nor calls a resource leaves the record as it is. -/
theorem step_of_idle {operation : Operation ρ} {thread : Thread ρ}
    (henlists : enlists operation = [])
    (hcalls : (operation.effect thread.service).calls = []) :
    step operation thread = { thread with service := (operation.effect thread.service).state } := by
  cases hwrapper : thread.service.transactionWrapper with
  | none => exact step_of_none operation hwrapper
  | some wrapper =>
    simp [step, hwrapper, henlists, hcalls, commits, rollbacks]

theorem commits_map_commit (resources : List ρ) : commits (resources.map .commit) = resources := by
  simp [commits, List.filterMap_map]

theorem commits_map_rollback (resources : List ρ) :
    commits (resources.map .rollback) = [] := by
  simp [commits, List.filterMap_map]

theorem rollbacks_map_commit (resources : List ρ) :
    rollbacks (resources.map .commit) = [] := by
  simp [rollbacks, List.filterMap_map]

theorem rollbacks_map_rollback (resources : List ρ) :
    rollbacks (resources.map .rollback) = resources := by
  simp [rollbacks, List.filterMap_map]

/-- Numbers that are not given out yet are not that of the open transaction. -/
theorem Inv.ne_open {thread : Thread ρ} (h : Inv thread) {wrapper : TransactionWrapper ρ}
    (hwrapper : thread.service.transactionWrapper = some wrapper) {number : ℕ}
    (hle : thread.service.created ≤ number) : number ≠ wrapper.transaction := by
  have hlt := h.consistent.lt_created hwrapper
  omega

/-- The step that ends a transaction as a whole keeps the invariant. -/
theorem Inv.ended {thread : Thread ρ} (h : Inv thread) {operation : Operation ρ}
    {wrapper : TransactionWrapper ρ} (hwrapper : thread.service.transactionWrapper = some wrapper)
    (henlists : enlists operation = []) {transaction : Option TransactionImpl}
    (hstate : (operation.effect thread.service).state =
      thread.service.closed wrapper.transaction transaction)
    (hended : transaction ≠ some ⟨false⟩)
    (hcalls : (operation.effect thread.service).calls = wrapper.resources.map .commit ∨
      (operation.effect thread.service).calls = wrapper.resources.map .rollback) :
    Inv (step operation thread) := by
  obtain ⟨henlisted, hcommitted, hrolledBack⟩ := h.open_enlisted wrapper hwrapper
  have hstep : step operation thread = {
      service := thread.service.closed wrapper.transaction transaction
      enlisted := thread.enlisted
      committed := Function.update thread.committed wrapper.transaction
        (commits (operation.effect thread.service).calls)
      rolledBack := Function.update thread.rolledBack wrapper.transaction
        (rollbacks (operation.effect thread.service).calls) } := by
    simp [step, hwrapper, henlists, hstate, hcommitted, hrolledBack]
  rw [hstep]
  refine ⟨h.consistent.closed hwrapper hended,
    fun _ hnone => absurd hnone (by simp [ServiceState.closed]), ?_, ?_⟩
  · intro number hle
    simp only [Function.update_of_ne (h.ne_open hwrapper hle)]
    exact h.fresh number hle
  · intro number _
    by_cases hnumber : number = wrapper.transaction
    · subst hnumber
      unfold Settled
      simp only [Function.update_self, henlisted]
      rcases hcalls with hcalls | hcalls
      · rw [hcalls, commits_map_commit, rollbacks_map_commit]
        exact Or.inl ⟨rfl, rfl⟩
      · rw [hcalls, commits_map_rollback, rollbacks_map_rollback]
        exact Or.inr ⟨rfl, rfl⟩
    · unfold Settled
      simp only [Function.update_of_ne hnumber]
      apply h.settled number
      intro found hfound
      obtain rfl := Option.some.inj (hwrapper.symm.trans hfound)
      exact fun heq => hnumber heq.symm

/-- A step that only destroys a complete object, or does nothing, keeps the invariant. -/
theorem Inv.idle {thread : Thread ρ} (h : Inv thread) {operation : Operation ρ}
    (henlists : enlists operation = [])
    (hcalls : (operation.effect thread.service).calls = [])
    (hconsistent : (operation.effect thread.service).state.Consistent)
    (hwrapper : (operation.effect thread.service).state.transactionWrapper =
      thread.service.transactionWrapper)
    (hcreated : (operation.effect thread.service).state.created = thread.service.created) :
    Inv (step operation thread) := by
  rw [step_of_idle henlists hcalls]
  refine ⟨hconsistent, ?_, ?_, ?_⟩
  · intro wrapper hfound
    exact h.open_enlisted wrapper (hwrapper.symm.trans hfound)
  · intro number hle
    rw [hcreated] at hle
    exact h.fresh number hle
  · intro number hoff
    exact h.settled number (fun wrapper hfound => hoff wrapper (hwrapper.trans hfound))

theorem Inv.created {thread : Thread ρ} (h : Inv thread) :
    Inv (step createTransaction thread) := by
  cases hwrapper : thread.service.transactionWrapper with
  | some wrapper =>
    have heffect := effect_createTransaction_some hwrapper
    exact h.idle rfl (by rw [heffect]) (by rw [heffect]; exact h.consistent)
      (by rw [heffect]) (by rw [heffect])
  | none =>
    rw [step_of_none _ hwrapper]
    refine ⟨h.consistent.opened hwrapper, ?_, ?_, ?_⟩
    · intro wrapper hopened
      simp only [effect, TransactionServiceModule.createTransaction, hwrapper, setTransaction,
        Option.some.injEq] at hopened
      subst hopened
      exact h.fresh thread.service.created (Nat.le_refl _)
    · intro number hle
      simp only [effect, TransactionServiceModule.createTransaction, hwrapper, setTransaction]
        at hle
      exact h.fresh number (Nat.le_of_succ_le hle)
    · intro number _
      exact h.settled number (fun wrapper hfound => absurd (hwrapper.symm.trans hfound) (by simp))

theorem Inv.enlisted {thread : Thread ρ} (h : Inv thread) (resource : ρ) :
    Inv (step (enlistResource resource) thread) := by
  have hconsistent := h.consistent.enlisted resource
  cases hwrapper : thread.service.transactionWrapper with
  | none =>
    rw [step_of_none _ hwrapper]
    simp only [effect, TransactionServiceModule.enlistResource, hwrapper]
    exact h
  | some wrapper =>
    obtain ⟨henlisted, hcommitted, hrolledBack⟩ := h.open_enlisted wrapper hwrapper
    simp only [TransactionServiceModule.enlistResource, hwrapper] at hconsistent
    simp only [step, hwrapper, effect, TransactionServiceModule.enlistResource, enlists, commits,
      rollbacks, List.filterMap_nil, List.append_nil, Function.update_eq_self]
    refine ⟨hconsistent, ?_, ?_, ?_⟩
    · intro found hfound
      obtain rfl := Option.some.inj hfound
      simp [henlisted, hcommitted, hrolledBack]
    · intro number hle
      simp only [Function.update_of_ne (h.ne_open hwrapper hle)]
      exact h.fresh number hle
    · intro number hoff
      have hne : number ≠ wrapper.transaction := fun heq => hoff _ rfl heq.symm
      unfold Settled
      simp only [Function.update_of_ne hne]
      apply h.settled number
      intro found hfound
      obtain rfl := Option.some.inj (hwrapper.symm.trans hfound)
      exact fun heq => hne heq.symm

/-- One operation whose resources do not throw. -/
theorem inv_step (operation : Operation ρ) (thread : Thread ρ) (h : Inv thread)
    (hreturns : NoResourceThrows operation thread) : Inv (step operation thread) := by
  cases operation with
  | createTransaction => exact h.created
  | enlistResource resource => exact h.enlisted resource
  | commit number throws =>
    by_cases hincomplete : thread.service.transactions number = some ⟨false⟩
    · obtain ⟨wrapper, hwrapper, rfl⟩ := h.consistent.incomplete number hincomplete
      have heffect := effect_commit_returns hwrapper hincomplete throws
        (hreturns wrapper hwrapper rfl hincomplete)
      exact h.ended hwrapper rfl (by rw [heffect]) (by simp) (Or.inl (by rw [heffect]))
    · have heffect := effect_commit_complete throws hincomplete
      exact h.idle rfl (by rw [heffect]) (by rw [heffect]; exact h.consistent)
        (by rw [heffect]) (by rw [heffect])
  | rollback number =>
    by_cases hincomplete : thread.service.transactions number = some ⟨false⟩
    · obtain ⟨wrapper, hwrapper, rfl⟩ := h.consistent.incomplete number hincomplete
      have heffect := effect_rollback_open hwrapper hincomplete
      exact h.ended hwrapper rfl (by rw [heffect]) (by simp) (Or.inr (by rw [heffect]))
    · have heffect := effect_rollback_complete hincomplete
      exact h.idle rfl (by rw [heffect]) (by rw [heffect]; exact h.consistent)
        (by rw [heffect]) (by rw [heffect])
  | destroy number =>
    by_cases hincomplete : thread.service.transactions number = some ⟨false⟩
    · obtain ⟨wrapper, hwrapper, rfl⟩ := h.consistent.incomplete number hincomplete
      have heffect := effect_destroy_open hwrapper hincomplete
      exact h.ended hwrapper rfl (by rw [heffect]) (by simp) (Or.inr (by rw [heffect]))
    · have heffect := effect_destroy_complete hincomplete
      exact h.idle rfl (by rw [heffect]) (by rw [heffect]; exact h.consistent.removed hincomplete)
        (by rw [heffect]; rfl) (by rw [heffect]; rfl)

/-- A commit that threw leaves the thread stuck. -/
theorem stuck_of_throws (operation : Operation ρ) (thread : Thread ρ) (h : Inv thread)
    (hthrows : ¬ NoResourceThrows operation thread) : (step operation thread).Stuck := by
  cases operation with
  | commit number throws =>
    simp only [NoResourceThrows, not_forall] at hthrows
    obtain ⟨wrapper, hwrapper, rfl, hincomplete, resource, hmem, hresource⟩ := hthrows
    have hnot : ¬ ∀ r ∈ wrapper.resources, throws r = false :=
      fun hall => hresource (hall resource hmem)
    unfold Thread.Stuck
    simp only [step, hwrapper, effect_commit_throws hwrapper hincomplete hnot]
    refine ⟨by simp [setTransaction, hwrapper], ?_⟩
    intro number hnumber
    by_cases hsame : number = wrapper.transaction
    · subst hsame
      simp [setTransaction] at hnumber
    · simp only [setTransaction, Function.update_of_ne hsame] at hnumber
      obtain ⟨found, hfound, hfoundNumber⟩ := h.consistent.incomplete number hnumber
      obtain rfl := Option.some.inj (hwrapper.symm.trans hfound)
      exact hsame hfoundNumber.symm
  | createTransaction => exact absurd trivial hthrows
  | enlistResource resource => exact absurd trivial hthrows
  | rollback number => exact absurd trivial hthrows
  | destroy number => exact absurd trivial hthrows

/-- Nothing a thread can do gets it unstuck. -/
theorem stuck_step (operation : Operation ρ) (thread : Thread ρ) (h : thread.Stuck) :
    (step operation thread).Stuck := by
  obtain ⟨hsome, hcomplete⟩ := h
  obtain ⟨wrapper, hwrapper⟩ := Option.ne_none_iff_exists'.mp hsome
  have hservice : (step operation thread).service = (operation.effect thread.service).state := by
    simp [step, hwrapper]
  unfold Thread.Stuck
  rw [hservice]
  cases operation with
  | createTransaction =>
    rw [effect_createTransaction_some hwrapper]
    exact ⟨hsome, hcomplete⟩
  | enlistResource resource =>
    simp only [effect, TransactionServiceModule.enlistResource, hwrapper]
    exact ⟨by simp, hcomplete⟩
  | commit number throws =>
    rw [effect_commit_complete throws (hcomplete number)]
    exact ⟨hsome, hcomplete⟩
  | rollback number =>
    rw [effect_rollback_complete (hcomplete number)]
    exact ⟨hsome, hcomplete⟩
  | destroy number =>
    rw [effect_destroy_complete (hcomplete number)]
    refine ⟨hsome, ?_⟩
    intro other
    by_cases hother : other = number
    · subst hother
      simp [setTransaction]
    · simp only [setTransaction, Function.update_of_ne hother]
      exact hcomplete other

/-- A stuck thread without objects cannot create a transaction any more. -/
theorem not_wholeAndReusable_of_stuck {thread : Thread ρ} (h : thread.Stuck)
    (hgone : ∀ number, thread.service.transactions number = none) :
    ¬ WholeAndReusable thread := by
  rintro ⟨_, hcreate⟩
  obtain ⟨wrapper, hwrapper⟩ := Option.ne_none_iff_exists'.mp h.1
  have hthrown := hcreate hgone
  rw [effect_createTransaction_some hwrapper] at hthrown
  exact absurd hthrown (by simp)

/-- Over every run of a thread: as long as no enlisted resource throws in a
commit, transactions end as a whole and the thread stays usable; after a commit
that threw it is not usable again. -/
theorem wholeAndReusable_run (operations : List (Operation ρ)) :
    (Along step NoResourceThrows Thread.empty operations →
      WholeAndReusable (run step Thread.empty operations)) ∧
    (¬ Along step NoResourceThrows Thread.empty operations →
      (∀ number, (run step Thread.empty operations).service.transactions number = none) →
        ¬ WholeAndReusable (run step (Thread.empty : Thread ρ) operations)) := by
  rcases invariant_or_stuck step inv_step stuck_of_throws stuck_step
    inv_empty operations with ⟨hall, hinv⟩ | ⟨hnot, hstuck⟩
  · exact ⟨fun _ => hinv.wholeAndReusable, fun hnot => absurd hall hnot⟩
  · exact ⟨fun hall => absurd hall hnot, fun _ hgone => not_wholeAndReusable_of_stuck hstuck hgone⟩

/-- Two resources that are committed, and the object destroyed. -/
theorem wholeAndReusable_run_two :
    WholeAndReusable (run step Thread.empty [.createTransaction, .enlistResource 1,
      .enlistResource 2, .commit 0 (fun _ => false), .destroy 0]) :=
  (wholeAndReusable_run _).1
    ⟨trivial, trivial, trivial, fun _ _ _ _ _ _ => rfl, trivial, trivial⟩

def secondThrows : List (Operation ℕ) :=
  [.createTransaction, .enlistResource 1, .enlistResource 2, .commit 0 (fun r => r == 2),
    .destroy 0]

/-- The first resource stays committed, the second is left alone, and the next
transaction is refused. -/
theorem secondThrows_not_whole :
    (run step Thread.empty secondThrows).enlisted 0 = [1, 2] ∧
      (run step Thread.empty secondThrows).committed 0 = [1] ∧
      (run step Thread.empty secondThrows).rolledBack 0 = [] ∧
      (createTransaction.effect (run step Thread.empty secondThrows).service).thrown =
        some .duplicateTransaction ∧
      ¬ WholeAndReusable (run step Thread.empty secondThrows) := by
  refine ⟨rfl, rfl, rfl, rfl, ?_⟩
  rintro ⟨hsettled, _⟩
  have hzero := (hsettled 0 (by decide) rfl).2
  exact hzero ⟨0, [1, 2]⟩ rfl rfl

end Keto.Transaction.AllOrNothing
