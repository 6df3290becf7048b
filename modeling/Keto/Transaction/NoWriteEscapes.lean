import Keto.Transaction.ResourceManager

/-!
Which writes a commit commits and a rollback discards. While resources are
asked for inside transactions only, each transaction starts with managers that
hold nothing, a manager is enlisted once when its resource is created, and the
managers refine the overlay of what the transaction was asked to write. A
resource that was created outside a transaction is never enlisted: it stays
with its manager and is handed out in every later transaction.
-/
namespace Keto.Transaction.NoWriteEscapes

open Library Library.Runs ServiceState ResourceManager

variable {κ σ ω : Type} [DecidableEq κ] (apply : ω → σ → σ)

/-- What each operation owes its caller: a resource handed out in a transaction
was created in it and its manager is enlisted once; a commit commits the writes
asked for since the transaction was created, a rollback discards them, and
nothing else reaches a database. -/
def Good (operation : ThreadOperation κ ω) (thread : Thread κ σ ω) : Prop :=
  let after := step apply operation thread
  match operation with
  | .getResource manager => (∀ other, after.database other = thread.database other) ∧
      ∀ wrapper, thread.service.transactionWrapper = some wrapper →
        ∃ handle enlisted, (getResource manager thread).2 = .ok handle ∧
          thread.openedAt ≤ handle.number ∧
          after.service.transactionWrapper = some enlisted ∧
          enlisted.resources.count manager = 1
  | .commit number => ∀ manager, overlay after manager =
      if thread.service.transactions number = some ⟨false⟩ then
        (asked thread manager).commit apply
      else overlay thread manager
  | .rollback number | .destroy number => ∀ manager, overlay after manager =
      if thread.service.transactions number = some ⟨false⟩ then
        (asked thread manager).rollback
      else overlay thread manager
  | .createTransaction | .write _ _ => ∀ other, after.database other = thread.database other

/-- Resources are asked for inside a transaction, and what is written inside one
goes to a resource that its manager holds. -/
def InsideTransaction : ThreadOperation κ ω → Thread κ σ ω → Prop
  | .getResource _, thread => thread.service.transactionWrapper ≠ none
  | .write handle _, thread => thread.service.transactionWrapper ≠ none → ∃ resource,
      thread.resourcePtr handle.manager = some resource ∧ resource.number = handle.number
  | _, _ => True

structure Inv (thread : Thread κ σ ω) : Prop where
  consistent : thread.service.Consistent
  opened : thread.openedAt ≤ thread.allocated
  released : thread.service.transactionWrapper = none → ∀ manager,
    thread.resourcePtr manager = none
  unused : ∀ wrapper, thread.service.transactionWrapper = some wrapper → ∀ manager,
    thread.resourcePtr manager = none → manager ∉ wrapper.resources ∧ thread.written manager = []
  used : ∀ wrapper, thread.service.transactionWrapper = some wrapper → ∀ manager resource,
    thread.resourcePtr manager = some resource → thread.openedAt ≤ resource.number ∧
      wrapper.resources.count manager = 1 ∧ resource.transactionMap = thread.written manager

theorem inv_start (database : κ → σ) : Inv (Thread.start database : Thread κ σ ω) where
  consistent := consistent_empty
  opened := Nat.le_refl 0
  released := fun _ _ => rfl
  unused := fun _ h => absurd h (by simp [Thread.start, ServiceState.empty])
  used := fun _ h => absurd h (by simp [Thread.start, ServiceState.empty])

/-- In a transaction the managers hold what it was asked to write. -/
theorem Inv.overlay_eq_asked {thread : Thread κ σ ω} (h : Inv thread)
    {wrapper : TransactionWrapper κ}
    (hwrapper : thread.service.transactionWrapper = some wrapper) (manager : κ) :
    overlay thread manager = asked thread manager := by
  unfold overlay asked
  cases hresource : thread.resourcePtr manager with
  | none => simp [(h.unused wrapper hwrapper manager hresource).2]
  | some resource => simp [(h.used wrapper hwrapper manager resource hresource).2.2]

/-- The calls of a service operation leave everything but the managers alone. -/
theorem calls_frame (calls : List (ResourceCall κ)) (thread : Thread κ σ ω) :
    let after := calls.foldl (fun thread resourceCall => call apply resourceCall thread) thread
    after.service = thread.service ∧ after.allocated = thread.allocated ∧
      after.openedAt = thread.openedAt ∧ after.written = thread.written := by
  induction calls generalizing thread with
  | nil => exact ⟨rfl, rfl, rfl, rfl⟩
  | cons first calls ih =>
    have hfirst : (call apply first thread).service = thread.service ∧
        (call apply first thread).allocated = thread.allocated ∧
        (call apply first thread).openedAt = thread.openedAt ∧
        (call apply first thread).written = thread.written := by
      cases first with
      | commit manager =>
        simp only [call, commit]
        cases thread.resourcePtr manager <;> exact ⟨rfl, rfl, rfl, rfl⟩
      | rollback manager =>
        simp only [call, rollback]
        cases thread.resourcePtr manager <;> exact ⟨rfl, rfl, rfl, rfl⟩
    obtain ⟨hservice, hallocated, hopened, hwritten⟩ := ih (call apply first thread)
    exact ⟨hservice.trans hfirst.1, hallocated.trans hfirst.2.1, hopened.trans hfirst.2.2.1,
      hwritten.trans hfirst.2.2.2⟩

/-- A kind of call: the manager that is called settles its overlay, where there
is something to settle, and lets go of its resource. -/
structure Settles (kind : κ → ResourceCall κ) (settle : Overlay σ ω → Overlay σ ω) : Prop where
  overlay_call : ∀ manager (thread : Thread κ σ ω) other,
    overlay (call apply (kind manager) thread) other =
      if other = manager then settle (overlay thread other) else overlay thread other
  resourcePtr_call : ∀ manager (thread : Thread κ σ ω) other,
    (call apply (kind manager) thread).resourcePtr other =
      if other = manager then none else thread.resourcePtr other
  settle_settle : ∀ overlay, settle (settle overlay) = settle overlay
  settle_idle : ∀ overlay, overlay.pending = [] → settle overlay = overlay

theorem settles_commit :
    Settles apply (ResourceCall.commit : κ → ResourceCall κ) (Overlay.commit apply) where
  overlay_call manager thread other := overlay_commit apply manager other thread
  resourcePtr_call manager thread other := resourcePtr_commit apply manager other thread
  settle_settle overlay := Overlay.commit_commit apply overlay
  settle_idle _ hidle := Overlay.commit_of_pending_nil apply hidle

theorem settles_rollback :
    Settles apply (ResourceCall.rollback : κ → ResourceCall κ) Overlay.rollback where
  overlay_call manager thread other := overlay_rollback manager other thread
  resourcePtr_call manager thread other := resourcePtr_rollback manager other thread
  settle_settle overlay := Overlay.rollback_rollback overlay
  settle_idle _ hidle := Overlay.rollback_of_pending_nil hidle

section Calls

variable {apply} {kind : κ → ResourceCall κ} {settle : Overlay σ ω → Overlay σ ω}

theorem Settles.overlay_calls (hkind : Settles apply kind settle) (managers : List κ)
    (thread : Thread κ σ ω) (other : κ) :
    overlay ((managers.map kind).foldl
      (fun thread resourceCall => call apply resourceCall thread) thread) other =
        if other ∈ managers then settle (overlay thread other) else overlay thread other := by
  induction managers generalizing thread with
  | nil => simp
  | cons manager managers ih =>
    rw [List.map_cons, List.foldl_cons, ih, hkind.overlay_call]
    by_cases hother : other = manager
    · subst hother
      simp [hkind.settle_settle]
    · simp [hother]

/-- The managers that are called let go of their resources. -/
theorem Settles.resourcePtr_calls (hkind : Settles apply kind settle) (managers : List κ)
    (thread : Thread κ σ ω) (other : κ) :
    ((managers.map kind).foldl
      (fun thread resourceCall => call apply resourceCall thread) thread).resourcePtr other =
        if other ∈ managers then none else thread.resourcePtr other := by
  induction managers generalizing thread with
  | nil => simp
  | cons manager managers ih =>
    rw [List.map_cons, List.foldl_cons, ih, hkind.resourcePtr_call]
    by_cases hmem : other ∈ managers
    · simp [hmem]
    · by_cases hother : other = manager
      · simp [hother]
      · simp [hmem, hother]

end Calls

/-- A service operation without calls changes the service only. -/
theorem serve_of_calls_nil {effect : ServiceState κ → Effect κ} {thread : Thread κ σ ω}
    {state : ServiceState κ} {thrown : Option TransactionException}
    (heffect : effect thread.service = ⟨state, [], thrown⟩) :
    serve apply effect thread = { thread with service := state } := by
  unfold serve
  rw [heffect]
  rfl

inductive Ends (number : ℕ) : ThreadOperation κ ω → (κ → ResourceCall κ) →
    (Overlay σ ω → Overlay σ ω) → Prop
  | commit : Ends number (.commit number) .commit (Overlay.commit apply)
  | rollback : Ends number (.rollback number) .rollback Overlay.rollback
  | destroy : Ends number (.destroy number) .rollback Overlay.rollback

section Ends

variable {number : ℕ} {operation : ThreadOperation κ ω} {kind : κ → ResourceCall κ}
  {settle : Overlay σ ω → Overlay σ ω} {apply} {thread : Thread κ σ ω}

theorem Ends.settles (hends : Ends apply number operation kind settle) :
    Settles apply kind settle := by
  cases hends with
  | commit => exact settles_commit apply
  | rollback => exact settles_rollback apply
  | destroy => exact settles_rollback apply

/-- The transaction is open: all its managers are called and the thread is left
without one. -/
theorem Ends.step_open (hends : Ends apply number operation kind settle)
    {wrapper : TransactionWrapper κ}
    (hwrapper : thread.service.transactionWrapper = some wrapper)
    (hnumber : wrapper.transaction = number)
    (hincomplete : thread.service.transactions number = some ⟨false⟩) :
    ∃ transaction, transaction ≠ some ⟨false⟩ ∧
      step apply operation thread = (wrapper.resources.map kind).foldl
        (fun thread resourceCall => call apply resourceCall thread)
        { thread with service := thread.service.closed wrapper.transaction transaction } := by
  subst hnumber
  cases hends with
  | commit =>
    have heffect := Operation.effect_commit_returns hwrapper hincomplete (fun _ => false)
      (fun _ _ => rfl)
    refine ⟨some ⟨true⟩, by simp, ?_⟩
    rw [step, serve, show TransactionImpl.commit (fun _ => false) wrapper.transaction
      thread.service = _ from heffect]
  | rollback =>
    have heffect := Operation.effect_rollback_open hwrapper hincomplete
    refine ⟨some ⟨true⟩, by simp, ?_⟩
    rw [step, serve, show TransactionImpl.rollback wrapper.transaction thread.service = _
      from heffect]
  | destroy =>
    have heffect := Operation.effect_destroy_open hwrapper hincomplete
    refine ⟨none, by simp, ?_⟩
    rw [step, serve, show TransactionImpl.destroy wrapper.transaction thread.service = _
      from heffect]

/-- The transaction is complete or gone: at most its object goes. -/
theorem Ends.step_complete (hends : Ends apply number operation kind settle)
    (hconsistent : thread.service.Consistent)
    (hcomplete : thread.service.transactions number ≠ some ⟨false⟩) :
    ∃ service, service.Consistent ∧
      service.transactionWrapper = thread.service.transactionWrapper ∧
      step apply operation thread = { thread with service := service } := by
  cases hends with
  | commit =>
    refine ⟨thread.service, hconsistent, rfl, ?_⟩
    exact serve_of_calls_nil apply (Operation.effect_commit_complete (fun _ => false) hcomplete)
  | rollback =>
    refine ⟨thread.service, hconsistent, rfl, ?_⟩
    exact serve_of_calls_nil apply (Operation.effect_rollback_complete hcomplete)
  | destroy =>
    refine ⟨thread.service.setTransaction number none, hconsistent.removed hcomplete, rfl, ?_⟩
    exact serve_of_calls_nil apply (Operation.effect_destroy_complete hcomplete)

end Ends

/-- A manager that is not enlisted has no resource. -/
theorem Inv.resourcePtr_of_not_mem {thread : Thread κ σ ω} (h : Inv thread)
    {wrapper : TransactionWrapper κ}
    (hwrapper : thread.service.transactionWrapper = some wrapper) {manager : κ}
    (hmem : manager ∉ wrapper.resources) : thread.resourcePtr manager = none := by
  cases hresource : thread.resourcePtr manager with
  | none => rfl
  | some resource =>
    have hcount := (h.used wrapper hwrapper manager resource hresource).2.1
    rw [List.count_eq_zero_of_not_mem hmem] at hcount
    exact absurd hcount (by simp)

/-- The end of the transaction of the thread: every manager is called that has
a resource, and settles what the transaction was asked to write. -/
theorem Inv.ended {thread : Thread κ σ ω} (h : Inv thread) {wrapper : TransactionWrapper κ}
    (hwrapper : thread.service.transactionWrapper = some wrapper)
    {transaction : Option TransactionImpl} (hended : transaction ≠ some ⟨false⟩)
    {kind : κ → ResourceCall κ} {settle : Overlay σ ω → Overlay σ ω}
    (hkind : Settles apply kind settle) {last : Thread κ σ ω}
    (hlast : last = (wrapper.resources.map kind).foldl
      (fun thread resourceCall => call apply resourceCall thread)
      { thread with service := thread.service.closed wrapper.transaction transaction }) :
    Inv last ∧ ∀ manager, overlay last manager = settle (asked thread manager) := by
  obtain ⟨hservice, hallocated, hopened, _⟩ := calls_frame apply (wrapper.resources.map kind)
    { thread with service := thread.service.closed wrapper.transaction transaction }
  rw [← hlast] at hservice hallocated hopened
  have hgone : last.service.transactionWrapper = none := by
    rw [hservice]
    rfl
  refine ⟨⟨?_, ?_, ?_, ?_, ?_⟩, ?_⟩
  · rw [hservice]
    exact h.consistent.closed hwrapper hended
  · rw [hallocated, hopened]
    exact h.opened
  · intro _ manager
    rw [hlast, hkind.resourcePtr_calls]
    by_cases hmem : manager ∈ wrapper.resources
    · rw [if_pos hmem]
    · rw [if_neg hmem]
      exact h.resourcePtr_of_not_mem hwrapper hmem
  · intro found hfound
    rw [hgone] at hfound
    exact absurd hfound (by simp)
  · intro found hfound
    rw [hgone] at hfound
    exact absurd hfound (by simp)
  · intro manager
    have hsame : overlay { thread with
        service := thread.service.closed wrapper.transaction transaction } manager =
          asked thread manager := h.overlay_eq_asked hwrapper manager
    rw [hlast, hkind.overlay_calls, hsame]
    by_cases hmem : manager ∈ wrapper.resources
    · rw [if_pos hmem]
    · have hidle : (asked thread manager).pending = [] :=
        (h.unused wrapper hwrapper manager (h.resourcePtr_of_not_mem hwrapper hmem)).2
      rw [if_neg hmem, hkind.settle_idle _ hidle]

/-- An operation that ends a transaction settles it once. -/
theorem Inv.ends {thread : Thread κ σ ω} (h : Inv thread) {number : ℕ}
    {operation : ThreadOperation κ ω} {kind : κ → ResourceCall κ}
    {settle : Overlay σ ω → Overlay σ ω} (hends : Ends apply number operation kind settle) :
    Inv (step apply operation thread) ∧ ∀ manager, overlay (step apply operation thread) manager =
      if thread.service.transactions number = some ⟨false⟩ then settle (asked thread manager)
      else overlay thread manager := by
  by_cases hincomplete : thread.service.transactions number = some ⟨false⟩
  · obtain ⟨wrapper, hwrapper, hnumber⟩ := h.consistent.incomplete number hincomplete
    obtain ⟨transaction, hended, hstep⟩ := hends.step_open hwrapper hnumber hincomplete
    simp only [if_pos hincomplete]
    exact h.ended apply hwrapper hended hends.settles hstep
  · obtain ⟨service, hconsistent, hwrapper, hstep⟩ :=
      hends.step_complete h.consistent hincomplete
    simp only [if_neg hincomplete]
    rw [hstep]
    refine ⟨⟨hconsistent, h.opened, ?_, ?_, ?_⟩, fun _ => rfl⟩
    · exact fun hnone => h.released (hwrapper.symm.trans hnone)
    · exact fun found hfound => h.unused found (hwrapper.symm.trans hfound)
    · exact fun found hfound => h.used found (hwrapper.symm.trans hfound)

/-- A transaction begins where none is open, and nothing is enlisted in it yet. -/
theorem step_createTransaction {thread : Thread κ σ ω} (h : thread.service.Consistent) :
    step apply .createTransaction thread = thread ∨
      thread.service.transactionWrapper = none ∧ ∃ service : ServiceState κ,
        service.Consistent ∧
        service.transactionWrapper = some ⟨thread.service.created, []⟩ ∧
        step apply .createTransaction thread = { thread with
          service := service
          openedAt := thread.allocated
          written := fun _ => [] } := by
  cases hwrapper : thread.service.transactionWrapper with
  | some wrapper =>
    refine Or.inl ?_
    simp only [step, TransactionServiceModule.createTransaction, hwrapper]
  | none =>
    refine Or.inr ⟨rfl, _, h.opened hwrapper, ?_, ?_⟩
    · simp only [TransactionServiceModule.createTransaction, hwrapper, setTransaction]
    · simp only [step, TransactionServiceModule.createTransaction, hwrapper]

theorem Inv.created {thread : Thread κ σ ω} (h : Inv thread) :
    Inv (step apply .createTransaction thread) := by
  rcases step_createTransaction apply h.consistent with
    hsame | ⟨hnone, service, hconsistent, hopened, hstep⟩
  · rw [hsame]
    exact h
  · rw [hstep]
    refine ⟨hconsistent, Nat.le_refl _, ?_, ?_, ?_⟩
    · intro hclosed
      exact absurd (hopened.symm.trans hclosed) (Option.some_ne_none _)
    · intro wrapper hwrapper manager _
      obtain rfl := Option.some.inj (hopened.symm.trans hwrapper)
      exact ⟨List.not_mem_nil, rfl⟩
    · intro wrapper _ manager resource hresource
      rw [h.released hnone manager] at hresource
      exact absurd hresource (by simp)

/-- A manager without a resource gets one and is enlisted. -/
theorem Inv.enlists {thread : Thread κ σ ω} (h : Inv thread) {wrapper : TransactionWrapper κ}
    (hwrapper : thread.service.transactionWrapper = some wrapper) {manager : κ}
    (hresource : thread.resourcePtr manager = none) : Inv (getResource manager thread).1 := by
  obtain ⟨hmem, hwritten⟩ := h.unused wrapper hwrapper manager hresource
  have hconsistent := h.consistent.enlisted manager
  simp only [TransactionServiceModule.enlistResource, hwrapper] at hconsistent
  simp only [getResource, hresource, TransactionServiceModule.enlistResource, hwrapper]
  refine ⟨hconsistent, Nat.le_succ_of_le h.opened, ?_, ?_, ?_⟩
  · intro hnone
    exact absurd hnone (by simp)
  · intro found hfound other hother
    obtain rfl := Option.some.inj hfound
    by_cases hsame : other = manager
    · subst hsame
      simp at hother
    · simp only [Function.update_of_ne hsame] at hother
      obtain ⟨hnot, hnothing⟩ := h.unused wrapper hwrapper other hother
      exact ⟨by simp [hnot, hsame], hnothing⟩
  · intro found hfound other resource hother
    obtain rfl := Option.some.inj hfound
    by_cases hsame : other = manager
    · subst hsame
      simp only [Function.update_self, Option.some.injEq] at hother
      subst hother
      refine ⟨h.opened, ?_, hwritten.symm⟩
      simp [List.count_eq_zero_of_not_mem hmem]
    · simp only [Function.update_of_ne hsame] at hother
      obtain ⟨hopened, hcount, hmap⟩ := h.used wrapper hwrapper other resource hother
      refine ⟨hopened, ?_, hmap⟩
      simp [hcount, Ne.symm hsame]

theorem Inv.resource {thread : Thread κ σ ω} (h : Inv thread) (manager : κ)
    (hinside : thread.service.transactionWrapper ≠ none) :
    Inv (getResource manager thread).1 ∧ Good apply (.getResource manager) thread := by
  obtain ⟨wrapper, hwrapper⟩ := Option.ne_none_iff_exists'.mp hinside
  cases hresource : thread.resourcePtr manager with
  | some resource =>
    obtain ⟨hopened, hcount, _⟩ := h.used wrapper hwrapper manager resource hresource
    have hget : getResource manager thread = (thread, .ok ⟨manager, resource.number⟩) := by
      simp [getResource, hresource]
    simp only [Good, step, hget]
    refine ⟨h, fun _ => trivial, ?_⟩
    intro found hfound
    obtain rfl := Option.some.inj (hwrapper.symm.trans hfound)
    exact ⟨_, wrapper, rfl, hopened, hwrapper, hcount⟩
  | none =>
    refine ⟨h.enlists hwrapper hresource, ?_⟩
    obtain ⟨hmem, _⟩ := h.unused wrapper hwrapper manager hresource
    simp only [Good, step, getResource, hresource, TransactionServiceModule.enlistResource,
      hwrapper]
    refine ⟨fun _ => trivial, ?_⟩
    intro found _
    refine ⟨_, _, rfl, h.opened, rfl, ?_⟩
    simp [List.count_eq_zero_of_not_mem hmem]

/-- A write to the resource its manager holds. -/
theorem Inv.wrote {thread : Thread κ σ ω} (h : Inv thread) {handle : Handle κ} (write : ω)
    {resource : Resource ω} (hresource : thread.resourcePtr handle.manager = some resource)
    (hnumber : resource.number = handle.number) :
    Inv (step apply (.write handle write) thread) := by
  simp only [step, put, hresource, hnumber, if_true]
  refine ⟨h.consistent, h.opened, ?_, ?_, ?_⟩
  · intro hnone
    rw [h.released hnone handle.manager] at hresource
    exact absurd hresource (by simp)
  · intro wrapper hwrapper other hother
    by_cases hsame : other = handle.manager
    · subst hsame
      simp at hother
    · simp only [Function.update_of_ne hsame] at hother ⊢
      exact h.unused wrapper hwrapper other hother
  · intro wrapper hwrapper other found hother
    by_cases hsame : other = handle.manager
    · subst hsame
      obtain ⟨hopened, hcount, hmap⟩ := h.used wrapper hwrapper _ resource hresource
      simp only [Function.update_self, Option.some.injEq] at hother ⊢
      subst hother
      exact ⟨hnumber ▸ hopened, hcount, by rw [← hmap]⟩
    · simp only [Function.update_of_ne hsame] at hother ⊢
      exact h.used wrapper hwrapper other found hother

/-- Between transactions no manager holds a resource, so that a write goes nowhere. -/
theorem Inv.wrote_between {thread : Thread κ σ ω} (h : Inv thread)
    (hnone : thread.service.transactionWrapper = none) (handle : Handle κ) (write : ω) :
    Inv (step apply (.write handle write) thread) ∧
      (step apply (.write handle write) thread).database = thread.database := by
  have hput : put handle write thread = thread := by
    unfold put
    rw [h.released hnone handle.manager]
  simp only [step, hput]
  refine ⟨⟨h.consistent, h.opened, h.released, ?_, ?_⟩, trivial⟩
  · intro wrapper hwrapper
    exact absurd (hnone.symm.trans hwrapper) (Option.some_ne_none _).symm
  · intro wrapper hwrapper
    exact absurd (hnone.symm.trans hwrapper) (Option.some_ne_none _).symm

/-- One operation inside a transaction keeps the invariant and its promise. -/
theorem inv_and_good_step (operation : ThreadOperation κ ω) (thread : Thread κ σ ω)
    (h : Inv thread) (hinside : InsideTransaction operation thread) :
    Inv (step apply operation thread) ∧ Good apply operation thread := by
  cases operation with
  | createTransaction =>
    refine ⟨h.created apply, ?_⟩
    intro other
    simp only [step]
    cases (TransactionServiceModule.createTransaction thread.service).thrown <;> rfl
  | getResource manager => exact h.resource apply manager hinside
  | write handle write =>
    by_cases hnone : thread.service.transactionWrapper = none
    · obtain ⟨hinv, hdatabase⟩ := h.wrote_between apply hnone handle write
      exact ⟨hinv, fun other => congrFun hdatabase other⟩
    · obtain ⟨resource, hresource, hnumber⟩ := hinside hnone
      refine ⟨h.wrote apply write hresource hnumber, ?_⟩
      intro other
      simp [step, put, hresource, hnumber]
  | commit number => exact h.ends apply .commit
  | rollback number => exact h.ends apply .rollback
  | destroy number => exact h.ends apply .destroy

structure Escaped (manager : κ) (thread : Thread κ σ ω) : Prop where
  consistent : thread.service.Consistent
  held : thread.resourcePtr manager ≠ none
  unenlisted : ∀ wrapper, thread.service.transactionWrapper = some wrapper →
    manager ∉ wrapper.resources

theorem Inv.escaped {thread : Thread κ σ ω} (h : Inv thread) (manager : κ)
    (hnone : thread.service.transactionWrapper = none) :
    Escaped manager (step apply (.getResource manager) thread) := by
  simp only [step, getResource, h.released hnone manager,
    TransactionServiceModule.enlistResource, hnone]
  refine ⟨h.consistent, by simp, ?_⟩
  intro wrapper hwrapper
  exact absurd (hnone.symm.trans hwrapper) (by simp)

/-- A transaction ends: its managers are called, the one that escaped is not among them. -/
theorem Escaped.ends {manager : κ} {thread : Thread κ σ ω} (h : Escaped manager thread)
    {number : ℕ} {operation : ThreadOperation κ ω} {kind : κ → ResourceCall κ}
    {settle : Overlay σ ω → Overlay σ ω} (hends : Ends apply number operation kind settle) :
    Escaped manager (step apply operation thread) := by
  by_cases hincomplete : thread.service.transactions number = some ⟨false⟩
  · obtain ⟨wrapper, hwrapper, hnumber⟩ := h.consistent.incomplete number hincomplete
    obtain ⟨transaction, hended, hstep⟩ := hends.step_open hwrapper hnumber hincomplete
    have hservice := (calls_frame apply (wrapper.resources.map kind)
      { thread with service := thread.service.closed wrapper.transaction transaction }).1
    rw [hstep]
    refine ⟨?_, ?_, ?_⟩
    · rw [hservice]
      exact h.consistent.closed hwrapper hended
    · rw [hends.settles.resourcePtr_calls, if_neg (h.unenlisted wrapper hwrapper)]
      exact h.held
    · intro found hfound
      rw [hservice] at hfound
      exact absurd hfound (by simp [ServiceState.closed])
  · obtain ⟨service, hconsistent, hwrapper, hstep⟩ :=
      hends.step_complete h.consistent hincomplete
    rw [hstep]
    exact ⟨hconsistent, h.held, fun found hfound => h.unenlisted found (hwrapper.symm.trans hfound)⟩

theorem Escaped.created {manager : κ} {thread : Thread κ σ ω} (h : Escaped manager thread) :
    Escaped manager (step apply .createTransaction thread) := by
  rcases step_createTransaction apply h.consistent with
    hsame | ⟨_, service, hconsistent, hopened, hstep⟩
  · rw [hsame]
    exact h
  · rw [hstep]
    refine ⟨hconsistent, h.held, ?_⟩
    intro wrapper hwrapper
    obtain rfl := Option.some.inj (hopened.symm.trans hwrapper)
    exact List.not_mem_nil

/-- Another manager is enlisted, or one that holds its resource already is not. -/
theorem Escaped.resource {manager : κ} {thread : Thread κ σ ω} (h : Escaped manager thread)
    (other : κ) : Escaped manager (step apply (.getResource other) thread) := by
  cases hresource : thread.resourcePtr other with
  | some resource =>
    simp only [step, getResource, hresource]
    exact h
  | none =>
    have hne : manager ≠ other := by
      rintro rfl
      exact h.held hresource
    have hconsistent := h.consistent.enlisted other
    simp only [step, getResource, hresource]
    refine ⟨hconsistent, by simpa [Function.update_of_ne hne] using h.held, ?_⟩
    intro enlisted henlisted
    cases hwrapper : thread.service.transactionWrapper with
    | none => simp [TransactionServiceModule.enlistResource, hwrapper] at henlisted
    | some wrapper =>
      simp only [TransactionServiceModule.enlistResource, hwrapper, Option.some.injEq]
        at henlisted
      subst henlisted
      simp [h.unenlisted wrapper hwrapper, hne]

theorem Escaped.wrote {manager : κ} {thread : Thread κ σ ω} (h : Escaped manager thread)
    (handle : Handle κ) (write : ω) :
    Escaped manager (step apply (.write handle write) thread) := by
  simp only [step, put]
  cases hresource : thread.resourcePtr handle.manager with
  | none => exact ⟨h.consistent, h.held, h.unenlisted⟩
  | some resource =>
    by_cases hnumber : resource.number = handle.number
    · simp only [hnumber, if_true]
      refine ⟨h.consistent, ?_, h.unenlisted⟩
      by_cases hmanager : manager = handle.manager
      · simp [hmanager]
      · simpa [Function.update_of_ne hmanager] using h.held
    · simp only [hnumber, if_false]
      exact ⟨h.consistent, h.held, h.unenlisted⟩

/-- Nothing a thread can do enlists or releases a resource that escaped. -/
theorem escaped_step (manager : κ) (operation : ThreadOperation κ ω) (thread : Thread κ σ ω)
    (h : Escaped manager thread) : Escaped manager (step apply operation thread) := by
  cases operation with
  | createTransaction => exact h.created apply
  | getResource other => exact h.resource apply other
  | write handle write => exact h.wrote apply handle write
  | commit number => exact h.ends apply .commit
  | rollback number => exact h.ends apply .rollback
  | destroy number => exact h.ends apply .destroy

/-- In a transaction the manager hands its escaped resource out without enlisting it. -/
theorem Escaped.not_good {manager : κ} {thread : Thread κ σ ω} (h : Escaped manager thread)
    (hinside : thread.service.transactionWrapper ≠ none) :
    ¬ Good apply (.getResource manager) thread := by
  obtain ⟨wrapper, hwrapper⟩ := Option.ne_none_iff_exists'.mp hinside
  obtain ⟨resource, hresource⟩ := Option.ne_none_iff_exists'.mp h.held
  rintro ⟨_, hgood⟩
  obtain ⟨handle, enlisted, _, _, henlisted, hcount⟩ := hgood wrapper hwrapper
  simp only [step, getResource, hresource, hwrapper, Option.some.injEq] at henlisted
  subst henlisted
  rw [List.count_eq_zero_of_not_mem (h.unenlisted wrapper hwrapper)] at hcount
  exact absurd hcount (by simp)

/-- Over every run of a thread whose resources are asked for inside transactions,
each operation keeps its promise. Once a resource was asked for outside a
transaction its manager breaks it in every later transaction, whatever happens
in between. -/
theorem good_along_run (database : κ → σ) (operations : List (ThreadOperation κ ω)) :
    (Along (step apply) InsideTransaction (Thread.start database) operations →
      Along (step apply) (Good apply) (Thread.start database) operations) ∧
    ∀ manager more, Along (step apply) InsideTransaction (Thread.start database) operations →
      (run (step apply) (Thread.start database) operations).service.transactionWrapper = none →
      (run (step apply) (Thread.start database)
        (operations ++ .getResource manager :: more)).service.transactionWrapper ≠ none →
      ¬ Good apply (.getResource manager) (run (step apply) (Thread.start database)
        (operations ++ .getResource manager :: more)) := by
  constructor
  · intro hinside
    exact along_of_invariant (step apply)
      (fun operation thread h hstep => (inv_and_good_step apply operation thread h hstep).1)
      (fun operation thread h hstep => (inv_and_good_step apply operation thread h hstep).2)
      (inv_start database) hinside
  · intro manager more hinside hnone hopen
    have hinv := invariant_run (step apply)
      (fun operation thread h hstep => (inv_and_good_step apply operation thread h hstep).1)
      (inv_start database) hinside
    rw [run_append, run_cons] at hopen ⊢
    have hescaped := run_keeps (step apply)
      (fun operation thread h => escaped_step apply manager operation thread h)
      (hinv.escaped apply manager hnone) more
    exact hescaped.not_good apply hopen

inductive Store
  | block
  | account
  | router
  deriving DecidableEq, Repr

/-- The same transaction, asking inside only, and a write after its end. -/
theorem good_along_run_block :
    Along (step List.cons) (Good List.cons) (Thread.start fun _ : Store => [])
      [.createTransaction, .getResource .block, .write ⟨.block, 0⟩ 7, .commit 0,
        .write ⟨.block, 0⟩ 8] :=
  (good_along_run List.cons (fun _ : Store => []) _).1
    ⟨trivial, fun h => absurd h (by decide), fun _ => ⟨_, rfl, rfl⟩, trivial,
      fun h => absurd rfl h, trivial⟩

def askedOutside : List (ThreadOperation Store ℕ) :=
  [.getResource .block, .createTransaction, .getResource .block, .write ⟨.block, 0⟩ 7, .commit 0]

/-- The write of the committed transaction is not in the database. -/
theorem askedOutside_loses_write :
    (run (step List.cons) (Thread.start fun _ => []) askedOutside).written .block = [7] ∧
      (run (step List.cons) (Thread.start fun _ => []) askedOutside).database .block = [] ∧
      (run (step List.cons) (Thread.start fun _ => []) askedOutside).service.transactions 0 =
        some ⟨true⟩ ∧
      ¬ Along (step List.cons) (Good List.cons) (Thread.start fun _ => []) askedOutside := by
  refine ⟨rfl, rfl, rfl, ?_⟩
  rintro ⟨_, _, ⟨_, hgood⟩, _⟩
  obtain ⟨handle, enlisted, _, _, henlisted, hcount⟩ := hgood ⟨0, []⟩ rfl
  obtain rfl := Option.some.inj henlisted
  exact absurd hcount (by decide)

end Keto.Transaction.NoWriteEscapes
