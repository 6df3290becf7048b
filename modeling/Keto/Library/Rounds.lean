import Keto.Library.Sealing

/-!
Progress under every schedule that gives each party its turn. A phase says what
is true of a state and which kind of step it waits for; other steps may be taken
in between, and none of them leads back. A round is a piece of a run with a step
of every kind in it, in any order, so that each round takes a run on by one phase
at least.
-/
namespace Keto.Library.Rounds

open Runs Sealing

variable {σ ω ι κ : Type*} (step : ω → σ → σ)

def NotBefore (rank : ι → ℕ) (i j : ι) : Prop := j = i ∨ rank i < rank j

def IsRound (kind : ω → κ → Prop) (ops : List ω) : Prop := ∀ k, ∃ op ∈ ops, kind op k

/-- What the phases of a run have to do: an allowed step does not lead back, and
leaves an unfinished phase if it is of the kind that the phase awaits. -/
structure Advances (holds : ι → σ → Prop) (rank : ι → ℕ) (finished : ι → Prop)
    (allowed : ω → σ → Prop) (awaits : ι → κ) (kind : ω → κ → Prop) : Prop where
  stays : ∀ {i op s}, holds i s → allowed op s → ∃ j, holds j (step op s) ∧ NotBefore rank i j
  leaves : ∀ {i op s}, holds i s → allowed op s → ¬ finished i → kind op (awaits i) →
    ∃ j, holds j (step op s) ∧ rank i < rank j
  ends : ∀ {i j}, finished i → NotBefore rank i j → finished j

theorem NotBefore.trans {rank : ι → ℕ} {i j k : ι} (hij : NotBefore rank i j)
    (hjk : NotBefore rank j k) : NotBefore rank i k := by
  rcases hij with rfl | hij
  · exact hjk
  · rcases hjk with rfl | hjk
    · exact Or.inr hij
    · exact Or.inr (Nat.lt_trans hij hjk)

theorem NotBefore.lt_of_lt {rank : ι → ℕ} {i j k : ι} (hjk : NotBefore rank j k)
    (hij : rank i < rank j) : rank i < rank k := by
  rcases hjk with rfl | hjk
  · exact hij
  · exact Nat.lt_trans hij hjk

variable {step}

theorem along_mono {p q : ω → σ → Prop} (h : ∀ op s, p op s → q op s) {s : σ} {ops : List ω}
    (hp : Along step p s ops) : Along step q s ops := by
  induction ops generalizing s with
  | nil => trivial
  | cons op ops ih => exact ⟨h op s hp.1, ih hp.2⟩

theorem along_of_mem {p : ω → σ → Prop} {s : σ} {ops : List ω} (h : ∀ op ∈ ops, ∀ s, p op s) :
    Along step p s ops := by
  induction ops generalizing s with
  | nil => trivial
  | cons op ops ih =>
    exact ⟨h op List.mem_cons_self s, ih fun other hmem => h other (List.mem_cons_of_mem op hmem)⟩

instance decidableAlong {p : ω → σ → Prop} [∀ op s, Decidable (p op s)] :
    ∀ s ops, Decidable (Along step p s ops)
  | _, [] => .isTrue trivial
  | s, op :: ops =>
    have := decidableAlong (p := p) (step op s) ops
    inferInstanceAs (Decidable (p op s ∧ Along step p (step op s) ops))

theorem along_and {p q : ω → σ → Prop} {s : σ} {ops : List ω} (hp : Along step p s ops)
    (hq : Along step q s ops) : Along step (fun op s => p op s ∧ q op s) s ops := by
  induction ops generalizing s with
  | nil => trivial
  | cons op ops ih => exact ⟨⟨hp.1, hq.1⟩, ih hp.2 hq.2⟩

namespace Advances

variable {holds : ι → σ → Prop} {rank : ι → ℕ} {finished : ι → Prop}
  {allowed : ω → σ → Prop} {awaits : ι → κ} {kind : ω → κ → Prop}
  (h : Advances step holds rank finished allowed awaits kind)
include h

theorem run_stays {i : ι} {s : σ} (hs : holds i s) {ops : List ω}
    (hallowed : Along step allowed s ops) :
    ∃ j, holds j (run step s ops) ∧ NotBefore rank i j := by
  induction ops generalizing i s with
  | nil => exact ⟨i, hs, Or.inl rfl⟩
  | cons op ops ih =>
    obtain ⟨j, hj, hij⟩ := h.stays hs hallowed.1
    obtain ⟨k, hk, hjk⟩ := ih hj hallowed.2
    exact ⟨k, hk, hij.trans hjk⟩

/-- A run in which a step of the awaited kind occurs leaves its phase: with that
step at the latest. -/
theorem run_leaves {i : ι} {s : σ} (hs : holds i s) (hunfinished : ¬ finished i) {ops : List ω}
    (hallowed : Along step allowed s ops) (hkind : ∃ op ∈ ops, kind op (awaits i)) :
    ∃ j, holds j (run step s ops) ∧ rank i < rank j := by
  induction ops generalizing s with
  | nil =>
    obtain ⟨op, hop, _⟩ := hkind
    exact absurd hop List.not_mem_nil
  | cons op ops ih =>
    by_cases hfirst : kind op (awaits i)
    · obtain ⟨j, hj, hij⟩ := h.leaves hs hallowed.1 hunfinished hfirst
      obtain ⟨k, hk, hjk⟩ := h.run_stays hj hallowed.2
      exact ⟨k, hk, hjk.lt_of_lt hij⟩
    · obtain ⟨j, hj, hij⟩ := h.stays hs hallowed.1
      rcases hij with rfl | hij
      · obtain ⟨other, hmem, hother⟩ := hkind
        rcases List.mem_cons.mp hmem with rfl | hmem
        · exact absurd hother hfirst
        · exact ih hj hallowed.2 ⟨other, hmem, hother⟩
      · obtain ⟨k, hk, hjk⟩ := h.run_stays hj hallowed.2
        exact ⟨k, hk, hjk.lt_of_lt hij⟩

/-- As many rounds as there are ranks below the finished phases finish a run. -/
theorem finished_after_rounds {bound : ℕ} (hbound : ∀ i, ¬ finished i → rank i < bound) {i : ι}
    {s : σ} (hs : holds i s) {rounds : List (List ω)} (hrounds : ∀ ops ∈ rounds, IsRound kind ops)
    (hlong : bound ≤ rank i + rounds.length) (hallowed : Along step allowed s rounds.flatten) :
    ∃ j, holds j (run step s rounds.flatten) ∧ finished j := by
  by_cases hfinished : finished i
  · obtain ⟨j, hj, hij⟩ := h.run_stays hs hallowed
    exact ⟨j, hj, h.ends hfinished hij⟩
  · induction rounds generalizing i s with
    | nil =>
      have hlow := hbound i hfinished
      simp only [List.length_nil] at hlong
      omega
    | cons ops rounds ih =>
      rw [List.flatten_cons, along_append step] at hallowed
      rw [List.flatten_cons, run_append]
      obtain ⟨j, hj, hij⟩ := h.run_leaves hs hfinished hallowed.1
        (hrounds ops List.mem_cons_self (awaits i))
      by_cases hnext : finished j
      · obtain ⟨k, hk, hjk⟩ := h.run_stays hj hallowed.2
        exact ⟨k, hk, h.ends hnext hjk⟩
      · simp only [List.length_cons] at hlong
        exact ih hj (fun more hmore => hrounds more (List.mem_cons_of_mem ops hmore)) (by omega)
          hallowed.2 hnext

end Advances

end Keto.Library.Rounds
