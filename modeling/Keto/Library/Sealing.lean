import Keto.Library.Runs

/-!
Runs over a record that is changed and signed: when a signing follows the last
change, what a change establishes holds at the end, and so does what a signing
establishes on top of it, if the operations that are no changes keep both.
-/
namespace Keto.Library.Sealing

open Runs

variable {σ ω : Type*} (step : ω → σ → σ)

theorem along_append (p : ω → σ → Prop) (s : σ) (ops more : List ω) :
    Along step p s (ops ++ more) ↔ Along step p s ops ∧ Along step p (run step s ops) more := by
  induction ops generalizing s with
  | nil => exact (and_iff_right trivial).symm
  | cons op ops ih => rw [List.cons_append, along_cons, along_cons, ih, and_assoc, run_cons]

/-- A change, operations that change nothing, a signing and no change behind it. -/
def SignedAfter (changes signs : ω → σ → Prop) (s : σ) (change : ω) (between : List ω)
    (signing : ω) (rest : List ω) : Prop :=
  changes change s ∧ signs signing (run step s (change :: between)) ∧
    Along step (fun op s => ¬ changes op s) (step change s) (between ++ signing :: rest)

def SignedLast (changes signs : ω → σ → Prop) (s : σ) (ops : List ω) : Prop :=
  ∃ before change between signing rest,
    ops = before ++ change :: (between ++ signing :: rest) ∧
      SignedAfter step changes signs (run step s before) change between signing rest

variable {step} {changes signs : ω → σ → Prop} {sound signed : σ → Prop}

/-- What the change establishes and what the signing adds hold at the end. -/
theorem SignedAfter.holds {s : σ} {change signing : ω} {between rest : List ω}
    (h : SignedAfter step changes signs s change between signing rest)
    (hchange : sound (step change s))
    (hkeep : ∀ op s, sound s → ¬ changes op s → sound (step op s))
    (hsign : ∀ s, signs signing s → sound s → signed (step signing s))
    (hsigned : ∀ op s, sound s → signed s → ¬ changes op s → signed (step op s)) :
    sound (run step s (change :: (between ++ signing :: rest))) ∧
      signed (run step s (change :: (between ++ signing :: rest))) := by
  obtain ⟨_, hsigns, hquiet⟩ := h
  obtain ⟨hbetween, hbehind⟩ := (along_append step _ _ _ _).mp hquiet
  have hsound := invariant_run step hkeep hchange hbetween
  rw [run_cons, run_append, run_cons]
  refine @invariant_run _ _ step (fun s => sound s ∧ signed s) (fun op s => ¬ changes op s)
    ?_ _ ?_ _ hbehind.2
  · intro op s hboth hstill
    exact ⟨hkeep op s hboth.1 hstill, hsigned op s hboth.1 hboth.2 hstill⟩
  · exact ⟨hkeep signing _ hsound hbehind.1, hsign _ hsigns hsound⟩

end Keto.Library.Sealing
