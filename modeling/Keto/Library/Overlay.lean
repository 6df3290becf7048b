import Mathlib.Data.List.Basic
import Mathlib.Logic.Function.Basic

/-!
A committed state with the writes of one open transaction over it. Reads see
the writes, a commit makes them the committed state, a rollback drops them.
What a write does is a parameter.
-/
namespace Keto.Library

structure Overlay (σ ω : Type*) where
  committed : σ
  pending : List ω

namespace Overlay

variable {σ ω : Type*} (apply : ω → σ → σ)

def applyAll (writes : List ω) (s : σ) : σ := writes.foldl (fun s write => apply write s) s

@[simp] theorem applyAll_nil (s : σ) : applyAll apply [] s = s := rfl

theorem applyAll_append (writes more : List ω) (s : σ) :
    applyAll apply (writes ++ more) s = applyAll apply more (applyAll apply writes s) := by
  rw [applyAll, List.foldl_append]
  rfl

theorem applyAll_map {ω' : Type*} (f : ω' → ω) (writes : List ω') (s : σ) :
    applyAll apply (writes.map f) s = applyAll (fun write => apply (f write)) writes s :=
  List.foldl_map

/-- Writes that all go to one key of a map are the writes to what is stored there. -/
theorem applyAll_update {κ : Type*} [DecidableEq κ] (key : κ) (writes : List ω) (s : κ → σ) :
    applyAll (fun write s => Function.update s key (apply write (s key))) writes s =
      Function.update s key (applyAll apply writes (s key)) := by
  induction writes generalizing s with
  | nil => exact (Function.update_eq_self key s).symm
  | cons write writes ih =>
    have hhead := ih (Function.update s key (apply write (s key)))
    rw [Function.update_self, Function.update_idem] at hhead
    exact hhead

section Updates

variable {κ β : Type*} [DecidableEq κ] (key : ω → κ) (value : ω → β)

/-- Writes to other keys leave what is stored under a key. -/
theorem applyAll_updates_of_ne {writes : List ω} {k : κ} (h : ∀ write ∈ writes, key write ≠ k)
    (s : κ → β) :
    applyAll (fun write s => Function.update s (key write) (value write)) writes s k = s k := by
  induction writes generalizing s with
  | nil => rfl
  | cons write writes ih =>
    rw [List.forall_mem_cons] at h
    have hrest := ih h.2 (Function.update s (key write) (value write))
    rw [Function.update_of_ne h.1.symm] at hrest
    exact hrest

/-- Of writes to different keys, each is what its key reads afterwards. -/
theorem applyAll_updates_of_mem {writes : List ω} (hkeys : (writes.map key).Nodup) {write : ω}
    (h : write ∈ writes) (s : κ → β) :
    applyAll (fun write s => Function.update s (key write) (value write)) writes s (key write) =
      value write := by
  induction writes generalizing s with
  | nil => exact absurd h List.not_mem_nil
  | cons first writes ih =>
    rw [List.map_cons, List.nodup_cons] at hkeys
    rcases List.mem_cons.mp h with rfl | hrest
    · have hothers : ∀ other ∈ writes, key other ≠ key write := by
        intro other hother heq
        exact hkeys.1 (heq ▸ List.mem_map_of_mem hother)
      have hkept := applyAll_updates_of_ne key value hothers
        (Function.update s (key write) (value write))
      rw [Function.update_self] at hkept
      exact hkept
    · exact ih hkeys.2 hrest (Function.update s (key first) (value first))

end Updates

/-- What a read inside the transaction sees. -/
def view (overlay : Overlay σ ω) : σ := applyAll apply overlay.pending overlay.committed

def putAll (writes : List ω) (overlay : Overlay σ ω) : Overlay σ ω :=
  { overlay with pending := overlay.pending ++ writes }

def commit (overlay : Overlay σ ω) : Overlay σ ω := ⟨overlay.view apply, []⟩

def rollback (overlay : Overlay σ ω) : Overlay σ ω := ⟨overlay.committed, []⟩

theorem view_of_pending_nil {overlay : Overlay σ ω} (h : overlay.pending = []) :
    overlay.view apply = overlay.committed := by
  rw [view, h, applyAll_nil]

theorem view_putAll (writes : List ω) (overlay : Overlay σ ω) :
    (overlay.putAll writes).view apply = applyAll apply writes (overlay.view apply) := by
  rw [view, putAll, applyAll_append]
  rfl

theorem commit_of_pending_nil {overlay : Overlay σ ω} (h : overlay.pending = []) :
    overlay.commit apply = overlay := by
  rw [commit, view_of_pending_nil apply h, ← h]

theorem rollback_of_pending_nil {overlay : Overlay σ ω} (h : overlay.pending = []) :
    overlay.rollback = overlay := by
  rw [rollback, ← h]

/-- A second commit finds nothing to do. -/
theorem commit_commit (overlay : Overlay σ ω) :
    (overlay.commit apply).commit apply = overlay.commit apply := rfl

theorem rollback_rollback (overlay : Overlay σ ω) :
    overlay.rollback.rollback = overlay.rollback := rfl

end Overlay

end Keto.Library
