import Keto.Library.Fallible
import Keto.Library.Overlay
import Mathlib.Data.List.ReduceOption

/-!
Computations on a state that may throw and then keep what they have written so
far. `after` is the state a computation leaves, whichever way it ends. A
relation between the states before and after that is reflexive and transitive
is kept by chains and loops of computations that keep it. `Performs` says what a
computation writes that does so attempt by attempt; a loop makes the attempts of
its iterations, in order, up to the one that throws. `Ends` says in what ways a
computation may end from a state; its rules are exact.
-/
namespace Keto.Library.Stateful

variable {ε σ α β : Type}

/-- The state a computation leaves when it returns and when it throws. -/
def after (x : EStateM ε σ α) (s : σ) : σ :=
  match x s with
  | .ok _ s' => s'
  | .error _ s' => s'

theorem after_of_ok {x : EStateM ε σ α} {s s' : σ} {a : α} (h : x s = .ok a s') :
    after x s = s' := by
  rw [after, h]

theorem after_of_error {x : EStateM ε σ α} {s s' : σ} {e : ε} (h : x s = .error e s') :
    after x s = s' := by
  rw [after, h]

theorem not_ok_of_error {x : EStateM ε σ α} {s s' : σ} {e : ε} (h : x s = .error e s') :
    ¬ ∃ a s₁, x s = .ok a s₁ := by
  intro hok
  obtain ⟨a, s₁, hx⟩ := hok
  exact absurd (h.symm.trans hx) (by simp)

def returns (x : EStateM ε σ α) (s : σ) : Bool :=
  match x s with
  | .ok _ _ => true
  | .error _ _ => false

theorem eq_ok_of_returns {x : EStateM ε σ PUnit} {s : σ} (h : returns x s = true) :
    x s = .ok ⟨⟩ (after x s) := by
  unfold returns at h
  unfold after
  cases hx : x s with
  | ok a s' => rfl
  | error e s' =>
    rw [hx] at h
    exact absurd h (by simp)

def thrown (x : EStateM ε σ α) (s : σ) : Option ε :=
  match x s with
  | .ok _ _ => none
  | .error e _ => some e

theorem thrown_of_ok {x : EStateM ε σ α} {s s' : σ} {a : α} (h : x s = .ok a s') :
    thrown x s = none := by
  rw [thrown, h]

theorem thrown_of_error {x : EStateM ε σ α} {s s' : σ} {e : ε} (h : x s = .error e s') :
    thrown x s = some e := by
  rw [thrown, h]

theorem bind_ok {x : EStateM ε σ α} {s s₁ : σ} {a : α} (h : x s = .ok a s₁)
    (f : α → EStateM ε σ β) : (x >>= f) s = f a s₁ := by
  simp only [bind, EStateM.bind, h]

theorem bind_error {x : EStateM ε σ α} {s s₁ : σ} {e : ε} (h : x s = .error e s₁)
    (f : α → EStateM ε σ β) : (x >>= f) s = .error e s₁ := by
  simp only [bind, EStateM.bind, h]

/-- A computation that starts by reading the state. -/
theorem get_bind (f : σ → EStateM ε σ β) (s : σ) :
    ((get : EStateM ε σ σ) >>= f) s = f s s := rfl

def fromExcept : Except ε α → EStateM ε σ α
  | .ok a => pure a
  | .error e => throw e

theorem fromExcept_ok (a : α) (s : σ) : (fromExcept (.ok a) : EStateM ε σ α) s = .ok a s := rfl

theorem fromExcept_error (e : ε) (s : σ) :
    (fromExcept (.error e) : EStateM ε σ α) s = .error e s := rfl

theorem fromExcept_inj {x y : Except ε α} {s : σ} :
    (fromExcept x : EStateM ε σ α) s = fromExcept y s ↔ x = y := by
  constructor
  · intro h
    cases x with
    | ok a =>
      cases y with
      | ok b =>
        injection h with hab
        rw [hab]
      | error e => injection h
    | error e =>
      cases y with
      | ok b => injection h
      | error e' =>
        injection h with hee
        rw [hee]
  · exact fun h => h ▸ rfl

/-- A loop whose iterations go through parts that throw whatever the state throws what the
first part that throws does. -/
theorem thrown_forM {γ : Type} {f : α → EStateM ε σ PUnit} {parts : α → List γ}
    {thrownOf : γ → Option ε}
    (hf : ∀ a s, thrown (f a) s = (parts a).findSome? thrownOf) (as : List α) (s : σ) :
    thrown (as.forM f) s = (as.flatMap parts).findSome? thrownOf := by
  induction as generalizing s with
  | nil => rfl
  | cons a as ih =>
    have ha := hf a s
    rw [List.flatMap_cons, List.findSome?_append, ← ha]
    cases h : f a s with
    | error e s₁ =>
      have hthrown : (a :: as).forM f s = .error e s₁ := bind_error h _
      rw [thrown_of_error hthrown, thrown_of_error h]
      rfl
    | ok u s₁ =>
      have hloop : (a :: as).forM f s = as.forM f s₁ := bind_ok h _
      rw [thrown, hloop, ← thrown, ih, thrown_of_ok h]
      rfl

/-- The computation returns as `post` says or throws as `raised` says. -/
def Ends (x : EStateM ε σ α) (post : α → σ → Prop) (raised : ε → σ → Prop) (s : σ) : Prop :=
  match x s with
  | .ok a s' => post a s'
  | .error e s' => raised e s'

section Ends

variable {post : α → σ → Prop} {raised : ε → σ → Prop} {s : σ}

theorem ends_of_ok {x : EStateM ε σ α} {a : α} {s' : σ} (h : x s = .ok a s') :
    Ends x post raised s ↔ post a s' := by
  rw [Ends, h]

theorem ends_of_error {x : EStateM ε σ α} {e : ε} {s' : σ} (h : x s = .error e s') :
    Ends x post raised s ↔ raised e s' := by
  rw [Ends, h]

theorem ends_congr {x : EStateM ε σ α} {post' : α → σ → Prop}
    (h : ∀ a s', post a s' ↔ post' a s') : Ends x post raised s ↔ Ends x post' raised s := by
  cases hx : x s with
  | ok a s' => rw [ends_of_ok hx, ends_of_ok hx, h]
  | error e s' => rw [ends_of_error hx, ends_of_error hx]

theorem Ends.mono {x : EStateM ε σ α} {post' : α → σ → Prop} {raised' : ε → σ → Prop}
    (h : Ends x post raised s) (hpost : ∀ a s', post a s' → post' a s')
    (hraised : ∀ e s', raised e s' → raised' e s') : Ends x post' raised' s := by
  cases hx : x s with
  | ok a s' => exact (ends_of_ok hx).mpr (hpost a s' ((ends_of_ok hx).mp h))
  | error e s' => exact (ends_of_error hx).mpr (hraised e s' ((ends_of_error hx).mp h))

@[simp] theorem ends_pure (a : α) : Ends (pure a) post raised s ↔ post a s := Iff.rfl

@[simp] theorem ends_throw (e : ε) :
    Ends (throw e : EStateM ε σ α) post raised s ↔ raised e s := Iff.rfl

@[simp] theorem ends_get {post : σ → σ → Prop} : Ends get post raised s ↔ post s s := Iff.rfl

@[simp] theorem ends_modify {post : PUnit → σ → Prop} (f : σ → σ) :
    Ends (modify f) post raised s ↔ post ⟨⟩ (f s) := Iff.rfl

@[simp] theorem ends_ite {c : Prop} [Decidable c] {x y : EStateM ε σ α} :
    Ends (if c then x else y) post raised s ↔
      (c → Ends x post raised s) ∧ (¬ c → Ends y post raised s) := by
  by_cases hc : c
  · simp [hc]
  · simp [hc]

/-- A chain ends as its rest does from where its first part returns. -/
@[simp] theorem ends_bind {x : EStateM ε σ β} {f : β → EStateM ε σ α} :
    Ends (x >>= f) post raised s ↔ Ends x (fun b => Ends (f b) post raised) raised s := by
  cases h : x s with
  | ok b s' => rw [ends_of_ok h, Ends, Ends, bind_ok h]
  | error e s' => rw [ends_of_error h, ends_of_error (bind_error h f)]

@[simp] theorem ends_map {x : EStateM ε σ β} (f : β → α) :
    Ends (f <$> x) post raised s ↔ Ends x (fun b => post (f b)) raised s := by
  rw [map_eq_pure_bind, ends_bind]
  rfl

@[simp] theorem ends_discard {post : PUnit → σ → Prop} {x : EStateM ε σ α} :
    Ends (discard x) post raised s ↔ Ends x (fun _ => post ⟨⟩) raised s := by
  cases h : x s with
  | ok a s' =>
    have hdiscard : (discard x : EStateM ε σ PUnit) s = .ok ⟨⟩ s' := by
      simp only [discard, Functor.discard, Functor.mapConst, Function.comp, EStateM.map, h]
    rw [ends_of_ok h, ends_of_ok hdiscard]
  | error e s' =>
    have hdiscard : (discard x : EStateM ε σ PUnit) s = .error e s' := by
      simp only [discard, Functor.discard, Functor.mapConst, Function.comp, EStateM.map, h]
    rw [ends_of_error h, ends_of_error hdiscard]

@[simp] theorem ends_tryCatch {x : EStateM ε σ α} {handler : ε → EStateM ε σ α} :
    Ends (tryCatch x handler) post raised s ↔
      Ends x post (fun e => Ends (handler e) post raised) s := by
  cases h : x s with
  | ok a s' =>
    have hcatch : tryCatch x handler s = .ok a s' := by
      simp only [tryCatch, tryCatchThe, MonadExceptOf.tryCatch, EStateM.tryCatch, h]
    rw [ends_of_ok h, ends_of_ok hcatch]
  | error e s' =>
    have hcatch : tryCatch x handler s = handler e s' := by
      simp only [tryCatch, tryCatchThe, MonadExceptOf.tryCatch, EStateM.tryCatch, h]
      rfl
    rw [ends_of_error h, Ends, hcatch, Ends]

/-- An invariant of the iterations holds at the end of the loop. -/
theorem ends_forM {f : β → EStateM ε σ PUnit} {inv : σ → Prop} {bs : List β}
    (hf : ∀ b ∈ bs, ∀ s, inv s → Ends (f b) (fun _ => inv) raised s) (h : inv s) :
    Ends (bs.forM f) (fun _ => inv) raised s := by
  induction bs generalizing s with
  | nil => exact h
  | cons b bs ih =>
    refine ends_bind.mpr ((hf b List.mem_cons_self s h).mono ?_ fun _ _ hraised => hraised)
    intro _ s' hs'
    exact ih (fun c hc => hf c (List.mem_cons_of_mem b hc)) hs'

theorem ends_after {x : EStateM ε σ α} {p : σ → Prop} :
    Ends x (fun _ => p) (fun _ => p) s ↔ p (after x s) := by
  cases h : x s with
  | ok a s' => rw [ends_of_ok h, after_of_ok h]
  | error e s' => rw [ends_of_error h, after_of_error h]

/-- What each iteration of a loop keeps true of the elements done so far is true
of all of them at its end. -/
theorem ends_foldlM_from (P : List α → β → σ → Prop) {raised : ε → σ → Prop}
    {f : β → α → EStateM ε σ β}
    (hf : ∀ done b a s, P done b s → Ends (f b a) (P (done ++ [a])) raised s) {as done : List α}
    {b : β} {s : σ} (hP : P done b s) : Ends (as.foldlM f b) (P (done ++ as)) raised s := by
  induction as generalizing b done s with
  | nil =>
    rw [List.append_nil]
    exact hP
  | cons a as ih =>
    rw [List.foldlM_cons, ends_bind]
    refine (hf done b a s hP).mono ?_ fun _ _ hraised => hraised
    intro b' s' hP'
    have hrest := ih hP'
    rw [List.append_assoc] at hrest
    exact hrest

theorem ends_foldlM (P : List α → β → σ → Prop) {raised : ε → σ → Prop}
    {f : β → α → EStateM ε σ β}
    (hf : ∀ done b a s, P done b s → Ends (f b a) (P (done ++ [a])) raised s) {as : List α}
    {b : β} {s : σ} (hP : P [] b s) : Ends (as.foldlM f b) (P as) raised s :=
  ends_foldlM_from P hf hP

end Ends

theorem fromExcept_bind (x : Except ε α) (f : α → Except ε β) :
    (fromExcept (x >>= f) : EStateM ε σ β) = fromExcept x >>= fun a => fromExcept (f a) := by
  cases x with
  | ok a => rfl
  | error e => rfl

theorem fromExcept_foldlM (f : β → α → Except ε β) (as : List α) (b : β) :
    (fromExcept (as.foldlM f b) : EStateM ε σ β) = as.foldlM (fun b a => fromExcept (f b a)) b := by
  induction as generalizing b with
  | nil => rfl
  | cons a as ih => simp only [List.foldlM_cons, fromExcept_bind, ih]

@[simp] theorem ends_fromExcept {post : α → σ → Prop} {raised : ε → σ → Prop} {s : σ}
    (x : Except ε α) :
    Ends (fromExcept x) post raised s ↔
      (∀ a, x = .ok a → post a s) ∧ ∀ e, x = .error e → raised e s := by
  cases x with
  | ok a => simp [Ends, fromExcept_ok]
  | error e => simp [Ends, fromExcept_error]

/-- Every state the computation may leave is related to the one it starts in. -/
def Within (r : σ → σ → Prop) (x : EStateM ε σ α) : Prop := ∀ s, r s (after x s)

section Rules

variable {r : σ → σ → Prop}

theorem within_fromExcept (hrefl : ∀ s, r s s) (x : Except ε α) :
    Within r (fromExcept x : EStateM ε σ α) := by
  intro s
  cases x with
  | ok a => exact hrefl s
  | error e => exact hrefl s

theorem within_bind (htrans : ∀ s s₁ s₂, r s s₁ → r s₁ s₂ → r s s₂) {x : EStateM ε σ α}
    {f : α → EStateM ε σ β} (hx : Within r x) (hf : ∀ a, Within r (f a)) :
    Within r (x >>= f) := by
  intro s
  have hfirst := hx s
  cases h : x s with
  | ok a s₁ =>
    rw [after_of_ok h] at hfirst
    have hrest : after (x >>= f) s = after (f a) s₁ := by rw [after, after, bind_ok h]
    rw [hrest]
    exact htrans s s₁ _ hfirst (hf a s₁)
  | error e s₁ =>
    rw [after_of_error h] at hfirst
    rw [after_of_error (bind_error h f)]
    exact hfirst

theorem within_forM (hrefl : ∀ s, r s s) (htrans : ∀ s s₁ s₂, r s s₁ → r s₁ s₂ → r s s₂)
    {f : α → EStateM ε σ PUnit} (hf : ∀ a, Within r (f a)) (as : List α) :
    Within r (as.forM f) := by
  induction as with
  | nil => exact hrefl
  | cons a as ih => exact within_bind htrans (hf a) fun _ => ih

end Rules

/-- The writes before the first attempt that throws. -/
def performed {ω : Type} : List (Option ω) → List ω
  | some write :: attempts => write :: performed attempts
  | _ => []

section Attempts

variable {ω : Type}

/-- All attempts are performed, or those before one that throws. -/
theorem attempts_cases (attempts : List (Option ω)) :
    (attempts = (performed attempts).map some ∧ attempts.all Option.isSome = true) ∨
    ∃ rest, attempts = (performed attempts).map some ++ none :: rest ∧
      attempts.all Option.isSome = false := by
  induction attempts with
  | nil => exact Or.inl ⟨rfl, rfl⟩
  | cons attempt attempts ih =>
    cases attempt with
    | none => exact Or.inr ⟨attempts, rfl, rfl⟩
    | some write =>
      rcases ih with ⟨hdone, hall⟩ | ⟨rest, hdone, hall⟩
      · exact Or.inl ⟨congrArg (some write :: ·) hdone, hall⟩
      · exact Or.inr ⟨rest, congrArg (some write :: ·) hdone, hall⟩

theorem performed_append_of_all {attempts : List (Option ω)}
    (h : attempts.all Option.isSome = true) (more : List (Option ω)) :
    performed (attempts ++ more) = performed attempts ++ performed more := by
  induction attempts with
  | nil => rfl
  | cons attempt attempts ih =>
    cases attempt with
    | none => exact absurd h (by simp)
    | some write => exact congrArg (write :: ·) (ih h)

theorem performed_append_of_not_all {attempts : List (Option ω)}
    (h : attempts.all Option.isSome = false) (more : List (Option ω)) :
    performed (attempts ++ more) = performed attempts := by
  induction attempts with
  | nil => exact absurd h (by simp)
  | cons attempt attempts ih =>
    cases attempt with
    | none => rfl
    | some write => exact congrArg (write :: ·) (ih h)

theorem performed_map {ω' : Type} (g : ω' → ω) (attempts : List (Option ω')) :
    performed (attempts.map (Option.map g)) = (performed attempts).map g := by
  induction attempts with
  | nil => rfl
  | cons attempt attempts ih =>
    cases attempt with
    | none => rfl
    | some write => exact congrArg (g write :: ·) ih

/-- What is performed is a first part of the writes, and all of them when nothing throws. -/
theorem performed_prefix (attempts : List (Option ω)) :
    ∃ rest, attempts.reduceOption = performed attempts ++ rest ∧
      (attempts.all Option.isSome = true → rest = []) := by
  rcases attempts_cases attempts with ⟨hdone, _⟩ | ⟨rest, hdone, hall⟩
  · refine ⟨[], ?_, fun _ => rfl⟩
    nth_rewrite 1 [hdone]
    simp [List.reduceOption]
  · refine ⟨rest.reduceOption, ?_, ?_⟩
    · nth_rewrite 1 [hdone]
      simp [List.reduceOption]
    · intro htrue
      exact absurd (hall.symm.trans htrue) (by simp)

/-- What is done before the first outcome that is an error. -/
theorem performed_of_findSome {outcomes : List (Except ε ω)} {e : ε}
    (h : outcomes.findSome? Fallible.errorOf = some e) :
    ∃ behind, outcomes =
      (performed (outcomes.map Except.toOption)).map Except.ok ++ .error e :: behind := by
  induction outcomes with
  | nil => cases h
  | cons outcome outcomes ih =>
    cases outcome with
    | error first =>
      obtain rfl := Option.some.inj h
      exact ⟨outcomes, rfl⟩
    | ok write =>
      obtain ⟨behind, hsplit⟩ := ih h
      exact ⟨behind, congrArg (.ok write :: ·) hsplit⟩

theorem performed_of_split (before : List ω) (e : ε) (behind : List (Except ε ω)) :
    (before.map Except.ok ++ Except.error e :: behind).findSome? Fallible.errorOf = some e ∧
      performed ((before.map Except.ok ++ Except.error e :: behind).map Except.toOption) = before := by
  induction before with
  | nil => exact ⟨rfl, rfl⟩
  | cons write before ih => exact ⟨ih.1, congrArg (write :: ·) ih.2⟩

end Attempts

/-- What a computation writes, seen through `view`, and whether it returns, where
neither depends on the state: it makes the attempts in order up to one that throws. -/
def Performs {γ ω : Type} (view : σ → γ) (apply : ω → γ → γ) (attempts : List (Option ω))
    (x : EStateM ε σ PUnit) : Prop :=
  ∀ s, view (after x s) = Overlay.applyAll apply (performed attempts) (view s) ∧
    returns x s = attempts.all Option.isSome

section Performs

variable {γ ω : Type} {view : σ → γ} {apply : ω → γ → γ}

theorem Performs.map {ω' : Type} {g : ω' → ω} {attempts : List (Option ω')}
    {x : EStateM ε σ PUnit} (hx : Performs view (fun write => apply (g write)) attempts x) :
    Performs view apply (attempts.map (Option.map g)) x := by
  intro s
  obtain ⟨hview, hreturns⟩ := hx s
  constructor
  · rw [hview, performed_map, Overlay.applyAll_map]
  · rw [hreturns, List.all_map]
    congr 1
    funext attempt
    exact Option.isSome_map.symm

/-- A loop makes the attempts of its iterations, in order. -/
theorem performs_forM {attempts : α → List (Option ω)} {f : α → EStateM ε σ PUnit}
    (hf : ∀ a, Performs view apply (attempts a) (f a)) (as : List α) :
    Performs view apply (as.flatMap attempts) (as.forM f) := by
  induction as with
  | nil => exact fun s => ⟨rfl, rfl⟩
  | cons a as ih =>
    intro s
    obtain ⟨hview, hreturns⟩ := hf a s
    rw [List.flatMap_cons, List.all_append]
    cases h : f a s with
    | error e s₁ =>
      have hthrown : (a :: as).forM f s = .error e s₁ := bind_error h _
      rw [returns, h] at hreturns
      rw [after_of_error h] at hview
      rw [after_of_error hthrown, performed_append_of_not_all hreturns.symm, returns, hthrown,
        ← hreturns]
      exact ⟨hview, rfl⟩
    | ok u s₁ =>
      have hloop : (a :: as).forM f s = as.forM f s₁ := bind_ok h _
      obtain ⟨hview₁, hreturns₁⟩ := ih s₁
      rw [returns, h] at hreturns
      rw [after_of_ok h] at hview
      rw [after, returns, hloop, ← after, ← returns, hview₁, hreturns₁, hview,
        performed_append_of_all hreturns.symm, Overlay.applyAll_append, ← hreturns]
      exact ⟨rfl, rfl⟩

end Performs

end Keto.Library.Stateful
