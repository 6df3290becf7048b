import Keto.Library.Stateful

/-!
Computations that take notes as they run. Without its notes such a computation
is the one it is `Traced` from, so that what the notes say is said of that one.
`Notes` gives the notes a computation takes and whether it returns, where neither
depends on the state; a loop takes those of its iterations up to and with the
first that throws.
-/
namespace Keto.Library.Traced

open Stateful

variable {ω ε σ α β : Type}

abbrev TracedM (ω ε σ α : Type) := EStateM ε (σ × List ω) α

def silent (x : EStateM ε σ α) : TracedM ω ε σ α := fun s =>
  match x s.1 with
  | .ok a s' => .ok a (s', s.2)
  | .error e s' => .error e (s', s.2)

def note (entry : ω) : TracedM ω ε σ PUnit := modify fun s => (s.1, s.2 ++ [entry])

def forget : EStateM.Result ε (σ × List ω) α → EStateM.Result ε σ α
  | .ok a s => .ok a s.1
  | .error e s => .error e s.1

def Erases (y : TracedM ω ε σ α) (x : EStateM ε σ α) : Prop :=
  ∀ s notes, forget (y (s, notes)) = x s

section Erasure

variable {y : TracedM ω ε σ α} {x : EStateM ε σ α}

theorem erases_silent (x : EStateM ε σ α) : Erases (silent x : TracedM ω ε σ α) x := by
  intro s notes
  cases h : x s with
  | ok a s' => simp [silent, forget, h]
  | error e s' => simp [silent, forget, h]

theorem erases_pure (a : α) : Erases (pure a : TracedM ω ε σ α) (pure a) := fun _ _ => rfl

theorem erases_note (entry : ω) {f : PUnit → TracedM ω ε σ α} (h : Erases (f ⟨⟩) x) :
    Erases (note entry >>= f) x := by
  intro s notes
  exact h s (notes ++ [entry])

theorem erases_bind {g : α → TracedM ω ε σ β} {f : α → EStateM ε σ β} (h : Erases y x)
    (hrest : ∀ a, Erases (g a) (f a)) : Erases (y >>= g) (x >>= f) := by
  intro s notes
  have hfirst := h s notes
  cases hy : y (s, notes) with
  | ok a s' =>
    rw [hy, forget] at hfirst
    rw [bind_ok hy, bind_ok hfirst.symm]
    exact hrest a s'.1 s'.2
  | error e s' =>
    rw [hy, forget] at hfirst
    rw [bind_error hy, bind_error hfirst.symm, forget]

theorem erases_foldlM {g : β → α → TracedM ω ε σ β} {f : β → α → EStateM ε σ β}
    (h : ∀ b a, Erases (g b a) (f b a)) (as : List α) (b : β) :
    Erases (as.foldlM g b) (as.foldlM f b) := by
  induction as generalizing b with
  | nil => exact erases_pure b
  | cons a as ih =>
    rw [List.foldlM_cons, List.foldlM_cons]
    exact erases_bind (h b a) ih

/-- A loop that also knows the position of each element. -/
theorem erases_forM_zipIdx {g : α × ℕ → TracedM ω ε σ PUnit} {f : α → EStateM ε σ PUnit}
    (h : ∀ a i, Erases (g (a, i)) (f a)) (as : List α) (i : ℕ) :
    Erases ((as.zipIdx i).forM g) (as.forM f) := by
  induction as generalizing i with
  | nil => exact fun _ _ => rfl
  | cons a as ih => exact erases_bind (h a i) fun _ => ih (i + 1)

end Erasure

section Ends

variable {post : α → σ × List ω → Prop} {raised : ε → σ × List ω → Prop} {s : σ × List ω}

@[simp] theorem ends_silent {x : EStateM ε σ α} :
    Ends (silent x) post raised s ↔
      Ends x (fun a s' => post a (s', s.2)) (fun e s' => raised e (s', s.2)) s.1 := by
  cases h : x s.1 with
  | ok a s' => simp [Ends, silent, h]
  | error e s' => simp [Ends, silent, h]

@[simp] theorem ends_note {post : PUnit → σ × List ω → Prop} (entry : ω) :
    Ends (note entry) post raised s ↔ post ⟨⟩ (s.1, s.2 ++ [entry]) := Iff.rfl

end Ends

def Notes (y : TracedM ω ε σ PUnit) (entries : List ω) (returned : Bool) : Prop :=
  ∀ s, (after y s).2 = s.2 ++ entries ∧ returns y s = returned

def upTo (p : α → Bool) : List α → List α
  | [] => []
  | a :: as => a :: if p a then upTo p as else []

theorem mem_of_mem_upTo {p : α → Bool} {as : List α} {a : α} (h : a ∈ upTo p as) : a ∈ as := by
  induction as with
  | nil => exact h
  | cons b as ih =>
    rcases List.mem_cons.mp h with rfl | hrest
    · exact List.mem_cons_self
    · cases hp : p b with
      | true =>
        rw [hp, if_pos rfl] at hrest
        exact List.mem_cons_of_mem b (ih hrest)
      | false =>
        rw [hp, if_neg Bool.false_ne_true] at hrest
        exact absurd hrest List.not_mem_nil

theorem notes_silent {x : EStateM ε σ PUnit} {returned : Bool}
    (h : ∀ s, returns x s = returned) : Notes (silent x : TracedM ω ε σ PUnit) [] returned := by
  intro s
  have hreturns := h s.1
  cases hx : x s.1 with
  | ok a s' =>
    rw [returns, hx] at hreturns
    have hy : (silent x : TracedM ω ε σ PUnit) s = .ok a (s', s.2) := by simp [silent, hx]
    rw [after_of_ok hy, returns, hy]
    exact ⟨(List.append_nil s.2).symm, hreturns⟩
  | error e s' =>
    rw [returns, hx] at hreturns
    have hy : (silent x : TracedM ω ε σ PUnit) s = .error e (s', s.2) := by simp [silent, hx]
    rw [after_of_error hy, returns, hy]
    exact ⟨(List.append_nil s.2).symm, hreturns⟩

theorem notes_note (entry : ω) {y : TracedM ω ε σ PUnit} {entries : List ω} {returned : Bool}
    (h : Notes y entries returned) :
    Notes (note entry >>= fun _ => y) (entry :: entries) returned := by
  intro s
  have hrest := h (s.1, s.2 ++ [entry])
  rw [List.append_assoc] at hrest
  exact hrest

theorem notes_forM {f : α → TracedM ω ε σ PUnit} {entries : α → List ω} {p : α → Bool}
    (h : ∀ a, Notes (f a) (entries a) (p a)) (as : List α) :
    Notes (as.forM f) ((upTo p as).flatMap entries) (as.all p) := by
  induction as with
  | nil =>
    intro s
    exact ⟨(List.append_nil s.2).symm, rfl⟩
  | cons a as ih =>
    intro s
    obtain ⟨hnotes, hreturned⟩ := h a s
    rw [upTo, List.flatMap_cons, List.all_cons]
    cases hf : f a s with
    | ok u s' =>
      rw [returns, hf] at hreturned
      rw [after_of_ok hf] at hnotes
      have hrun : (a :: as).forM f s = as.forM f s' := bind_ok hf _
      obtain ⟨hloop, hall⟩ := ih s'
      rw [← hreturned, if_pos rfl, Bool.true_and, after, hrun, ← after, hloop, hnotes,
        List.append_assoc, returns, hrun, ← returns, hall]
      exact ⟨rfl, rfl⟩
    | error e s' =>
      rw [returns, hf] at hreturned
      rw [after_of_error hf] at hnotes
      have hrun : (a :: as).forM f s = .error e s' := bind_error hf _
      rw [← hreturned, if_neg Bool.false_ne_true, List.flatMap_nil, List.append_nil, Bool.false_and,
        after_of_error hrun, hnotes, returns, hrun]
      exact ⟨rfl, rfl⟩

end Keto.Library.Traced
