import Keto.Library.Runs

/-!
Containers whose content each operation replaces by what it is given. An
operation that fails is given nothing and leaves the content. A container of
some code is compared with this one at every point of a run.
-/
namespace Keto.Library.Replacing

open Runs

variable {σ ω : Type*} (given : ω → Option σ) (step : ω → σ → σ)

def replace (op : ω) (s : σ) : σ := (given op).getD s

/-- The content after the operations: the last one given, if any is. -/
theorem run_replace (s : σ) (ops : List ω) :
    run (replace given) s ops = ((ops.filterMap given).getLast?).getD s := by
  induction ops generalizing s with
  | nil => rfl
  | cons op ops ih =>
    rw [run_cons, ih, List.filterMap_cons, replace]
    cases given op with
    | none => rfl
    | some value => rw [Option.getD_some, List.getLast?_cons, Option.getD_some]

/-- After every first part of the run the container holds what was given to it last. -/
def HoldsLast (s : σ) (ops : List ω) : Prop :=
  ∀ done, done <+: ops → run step s done = ((done.filterMap given).getLast?).getD s

variable {given step}

/-- A run holds what it was given last as long as each of its operations replaces
the content that it finds. -/
theorem holdsLast_iff (s : σ) (ops : List ω) :
    HoldsLast given step s ops ↔
      Along step (fun op s => step op s = replace given op s) s ops := by
  simp only [HoldsLast, ← run_replace]
  induction ops generalizing s with
  | nil =>
    refine iff_of_true ?_ trivial
    intro done hdone
    rw [List.prefix_nil.mp hdone]
    rfl
  | cons op ops ih =>
    rw [along_cons, ← ih]
    constructor
    · intro h
      have hfirst := h [op] (List.prefix_append [op] ops)
      refine ⟨hfirst, ?_⟩
      intro done hdone
      have hrest := h (op :: done) (List.cons_prefix_cons.mpr ⟨rfl, hdone⟩)
      rw [run_cons, run_cons] at hrest
      rw [hrest]
      exact congrArg (fun s => run (replace given) s done) hfirst.symm
    · intro ⟨hfirst, hrest⟩ done hdone
      cases done with
      | nil => rfl
      | cons other done =>
        obtain ⟨rfl, hbehind⟩ := List.cons_prefix_cons.mp hdone
        rw [run_cons, run_cons, ← hfirst]
        exact hrest done hbehind

/-- Where it is known when an operation replaces the content, it is known of runs. -/
theorem holdsLast_iff_along {cond : ω → σ → Prop}
    (hexact : ∀ op s, step op s = replace given op s ↔ cond op s) (s : σ) (ops : List ω) :
    HoldsLast given step s ops ↔ Along step cond s ops :=
  (holdsLast_iff s ops).trans (along_congr step hexact s ops)

end Keto.Library.Replacing
