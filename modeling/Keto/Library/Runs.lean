import Mathlib.Data.List.Basic

/-!
Runs of a deterministic step function over a list of operations, and the
rules by which properties of one step become properties of a run. Conditions
are put on each step as it is taken: on the operation and on the state it
finds. The last two rules are for conditions under which a property holds
exactly.
-/
namespace Keto.Library.Runs

variable {σ ω : Type*} (step : ω → σ → σ)

def run (s : σ) (ops : List ω) : σ := ops.foldl (fun s op => step op s) s

@[simp] theorem run_cons (s : σ) (op : ω) (ops : List ω) :
    run step s (op :: ops) = run step (step op s) ops := rfl

theorem run_append (s : σ) (ops more : List ω) :
    run step s (ops ++ more) = run step (run step s ops) more := by
  rw [run, List.foldl_append]
  rfl

/-- `p` holds of every step of the run: of the operation and the state it finds. -/
def Along (p : ω → σ → Prop) : σ → List ω → Prop
  | _, [] => True
  | s, op :: ops => p op s ∧ Along p (step op s) ops

@[simp] theorem along_nil (p : ω → σ → Prop) (s : σ) : Along step p s [] := trivial

@[simp] theorem along_cons (p : ω → σ → Prop) (s : σ) (op : ω) (ops : List ω) :
    Along step p s (op :: ops) ↔ p op s ∧ Along step p (step op s) ops := Iff.rfl

theorem along_congr {p q : ω → σ → Prop} (h : ∀ op s, p op s ↔ q op s) (s : σ) (ops : List ω) :
    Along step p s ops ↔ Along step q s ops := by
  induction ops generalizing s with
  | nil => simp
  | cons op ops ih => rw [along_cons, along_cons, h, ih]

/-- An invariant that every allowed step preserves holds after an allowed run. -/
theorem invariant_run {inv : σ → Prop} {ok : ω → σ → Prop}
    (hstep : ∀ op s, inv s → ok op s → inv (step op s)) {s : σ} (hs : inv s)
    {ops : List ω} (hok : Along step ok s ops) : inv (run step s ops) := by
  induction ops generalizing s with
  | nil => exact hs
  | cons op ops ih => exact ih (hstep op s hs hok.1) hok.2

/-- A property of allowed steps that follows from an invariant holds along the run. -/
theorem along_of_invariant {inv : σ → Prop} {ok good : ω → σ → Prop}
    (hstep : ∀ op s, inv s → ok op s → inv (step op s))
    (hgood : ∀ op s, inv s → ok op s → good op s) {s : σ} (hs : inv s)
    {ops : List ω} (hok : Along step ok s ops) : Along step good s ops := by
  induction ops generalizing s with
  | nil => trivial
  | cons op ops ih => exact ⟨hgood op s hs hok.1, ih (hstep op s hs hok.1) hok.2⟩

/-- When each step is good exactly if it meets the condition, so is the run. -/
theorem along_iff_of_invariant {inv : σ → Prop} {legal cond good : ω → σ → Prop}
    (hstep : ∀ op s, inv s → legal op s → cond op s → inv (step op s))
    (hexact : ∀ op s, inv s → legal op s → (good op s ↔ cond op s)) {s : σ} (hs : inv s)
    {ops : List ω} (hlegal : Along step legal s ops) :
    Along step good s ops ↔ Along step cond s ops := by
  induction ops generalizing s with
  | nil => simp
  | cons op ops ih =>
    rw [along_cons, along_cons, hexact op s hs hlegal.1]
    refine and_congr_right ?_
    intro hcond
    exact ih (hstep op s hs hlegal.1 hcond) hlegal.2

theorem along_of_forall {p : ω → σ → Prop} (h : ∀ op s, p op s) (s : σ) (ops : List ω) :
    Along step p s ops := by
  induction ops generalizing s with
  | nil => trivial
  | cons op ops ih => exact ⟨h op s, ih (step op s)⟩

theorem along_true (s : σ) (ops : List ω) : Along step (fun _ _ => True) s ops :=
  along_of_forall step (fun _ _ => trivial) s ops

/-- A property that every step keeps, whatever the operation, is never lost. -/
theorem run_keeps {stuck : σ → Prop} (hstuck : ∀ op s, stuck s → stuck (step op s)) {s : σ}
    (hs : stuck s) (ops : List ω) : stuck (run step s ops) :=
  invariant_run step (fun op s h _ => hstuck op s h) hs (along_true step s ops)

/-- Either every step meets the condition and the invariant is kept, or a step
fails it and the run is stuck in the states that failing steps lead to. -/
theorem invariant_or_stuck {inv stuck : σ → Prop} {cond : ω → σ → Prop}
    (hstep : ∀ op s, inv s → cond op s → inv (step op s))
    (hbreak : ∀ op s, inv s → ¬ cond op s → stuck (step op s))
    (hstuck : ∀ op s, stuck s → stuck (step op s)) {s : σ} (hs : inv s) (ops : List ω) :
    (Along step cond s ops ∧ inv (run step s ops)) ∨
      (¬ Along step cond s ops ∧ stuck (run step s ops)) := by
  induction ops generalizing s with
  | nil => exact Or.inl ⟨trivial, hs⟩
  | cons op ops ih =>
    by_cases hcond : cond op s
    · rcases ih (hstep op s hs hcond) with ⟨hall, hinv⟩ | ⟨hnot, hend⟩
      · exact Or.inl ⟨⟨hcond, hall⟩, hinv⟩
      · exact Or.inr ⟨fun h => hnot h.2, hend⟩
    · exact Or.inr ⟨fun h => hcond h.1, run_keeps step hstuck (hbreak op s hs hcond) ops⟩

end Keto.Library.Runs
