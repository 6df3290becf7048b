import Mathlib.Data.List.Basic

/-!
Computations that return a value or an exception: when a chain of them returns,
and what a loop over a list that stops at the first exception preserves. The
last section is on loops of computations that are undefined somewhere.
-/
namespace Keto.Library.Fallible

variable {ε α β : Type}

/-- A chain returns when its first part does and the rest returns on its value. -/
theorem bind_eq_ok {x : Except ε α} {f : α → Except ε β} {b : β} :
    (x >>= f) = .ok b ↔ ∃ a, x = .ok a ∧ f a = .ok b := by
  cases x with
  | ok a =>
    constructor
    · intro h
      exact ⟨a, rfl, h⟩
    · intro ⟨c, hc, h⟩
      obtain rfl := Except.ok.inj hc
      exact h
  | error e =>
    constructor
    · intro h
      exact absurd h (by simp [bind, Except.bind])
    · intro ⟨c, hc, _⟩
      exact absurd hc (by simp)

theorem bind_ok {x : Except ε α} {f : α → Except ε β} {a : α} (h : x = .ok a) :
    (x >>= f) = f a := by
  rw [h]
  rfl

def errorOf : Except ε α → Option ε
  | .ok _ => none
  | .error e => some e

theorem errorOf_bind_pure (x : Except ε α) (f : α → β) :
    errorOf (x >>= fun a => pure (f a)) = errorOf x := by
  cases x with
  | ok a => rfl
  | error e => rfl

theorem errorOf_map (f : α → β) (x : Except ε α) : errorOf (x.map f) = errorOf x := by
  cases x with
  | ok a => rfl
  | error e => rfl

theorem toOption_map (f : α → β) (x : Except ε α) :
    (x.map f).toOption = x.toOption.map f := by
  cases x with
  | ok a => rfl
  | error e => rfl

/-- When each part of a loop throws errors of a kind that depends on its element only, so
does the loop, at the first such element. -/
theorem errorOf_foldlM {κ : Type} {kind : ε → κ} {kindOf : α → Option κ} {f : β → α → Except ε β}
    (hf : ∀ b a, (errorOf (f b a)).map kind = kindOf a) (as : List α) (b : β) :
    (errorOf (as.foldlM f b)).map kind = as.findSome? kindOf := by
  induction as generalizing b with
  | nil => rfl
  | cons a as ih =>
    have ha := hf b a
    rw [List.foldlM_cons, List.findSome?_cons, ← ha]
    cases h : f b a with
    | error e => rfl
    | ok b' => exact ih b'

section ThrowsOnly

variable {p : ε → Bool}

def ThrowsOnly (p : ε → Bool) (x : Except ε α) : Prop := ∀ e, x = .error e → p e = true

theorem throwsOnly_ok (a : α) : ThrowsOnly p (.ok a : Except ε α) := by
  intro e h
  cases h

theorem throwsOnly_error {e : ε} (h : p e = true) : ThrowsOnly p (.error e : Except ε α) := by
  intro e' he
  obtain rfl := Except.error.inj he
  exact h

theorem throwsOnly_bind {x : Except ε α} {f : α → Except ε β} (hx : ThrowsOnly p x)
    (hf : ∀ a, ThrowsOnly p (f a)) : ThrowsOnly p (x >>= f) := by
  cases x with
  | error e => exact throwsOnly_error (hx e rfl)
  | ok a => exact hf a

theorem throwsOnly_ite {c : Prop} [Decidable c] {x y : Except ε α} (hx : ThrowsOnly p x)
    (hy : ThrowsOnly p y) : ThrowsOnly p (if c then x else y) := by
  split
  · exact hx
  · exact hy

theorem ThrowsOnly.errorOf {x : Except ε α} (h : ThrowsOnly p x) :
    (errorOf x).map p = if x.toBool then none else some true := by
  cases x with
  | ok a => rfl
  | error e => exact congrArg some (h e rfl)

theorem toBool_bind (x : Except ε α) (f : α → Except ε β) :
    (x >>= f).toBool = match x with
      | .ok a => (f a).toBool
      | .error _ => false := by
  cases x with
  | ok a => rfl
  | error e => rfl

/-- The first element that is not accepted, where all such are of one kind. -/
theorem findSome?_refused {κ : Type} (accepted : α → Bool) (kind : κ) (as : List α) :
    (as.findSome? fun a => if accepted a then none else some kind) =
      if as.all accepted then none else some kind := by
  induction as with
  | nil => rfl
  | cons a as ih =>
    rw [List.findSome?_cons, List.all_cons, ih]
    cases accepted a with
    | true => rfl
    | false => rfl

end ThrowsOnly

theorem mapM_ok {f : α → Except ε β} {as : List α} (h : ∀ a ∈ as, (f a).toBool = true) :
    ∃ bs, as.mapM f = .ok bs ∧ bs.length = as.length := by
  induction as with
  | nil => exact ⟨[], rfl, rfl⟩
  | cons a as ih =>
    rw [List.forall_mem_cons] at h
    obtain ⟨bs, hbs, hlength⟩ := ih h.2
    rw [List.mapM_cons]
    cases ha : f a with
    | error e =>
      rw [ha] at h
      exact absurd h.1 (by simp [Except.toBool])
    | ok b =>
      refine ⟨b :: bs, ?_, congrArg Nat.succ hlength⟩
      rw [hbs]
      rfl

/-- Where all exceptions are one, so is that of a list with an element that throws it. -/
theorem mapM_error {f : α → Except ε β} {e : ε} {as : List α}
    (hsame : ∀ a ∈ as, ∀ e', f a = .error e' → e' = e) {a : α} (ha : a ∈ as)
    (h : f a = .error e) : as.mapM f = .error e := by
  induction as with
  | nil => exact absurd ha List.not_mem_nil
  | cons first as ih =>
    rw [List.mapM_cons]
    cases hfirst : f first with
    | error e' =>
      rw [hsame first List.mem_cons_self e' hfirst]
      rfl
    | ok b =>
      rcases List.mem_cons.mp ha with rfl | hrest
      · exact absurd (hfirst.symm.trans h) (by simp)
      · rw [ih (fun a ha => hsame a (List.mem_cons_of_mem first ha)) hrest]
        rfl

section Related

variable {γ : Type} {R : γ → α → Prop}

/-- A loop over elements that stand for others is a loop over the others, when each part
of it returns what a function of the other element makes of the state. -/
theorem foldlM_forall₂ {f : β → α → Except ε β} {g : β → γ → β}
    (hf : ∀ b c a, R c a → f b a = .ok (g b c)) {cs : List γ} {as : List α}
    (h : List.Forall₂ R cs as) (b : β) : as.foldlM f b = .ok (cs.foldl g b) := by
  induction h generalizing b with
  | nil => rfl
  | @cons c a cs as hrelated _ ih =>
    rw [List.foldlM_cons, bind_ok (hf b c a hrelated), ih, List.foldl_cons]

/-- So is one that makes a list. -/
theorem mapM_forall₂ {S : β → γ → Prop} {f : α → Except ε β}
    (hf : ∀ c a, R c a → ∃ b, f a = .ok b ∧ S b c) {cs : List γ} {as : List α}
    (h : List.Forall₂ R cs as) : ∃ bs, as.mapM f = .ok bs ∧ List.Forall₂ S bs cs := by
  induction h with
  | nil => exact ⟨[], rfl, .nil⟩
  | @cons c a cs as hrelated _ ih =>
    obtain ⟨b, hb, hS⟩ := hf c a hrelated
    obtain ⟨bs, hbs, hall⟩ := ih
    refine ⟨b :: bs, ?_, .cons hS hall⟩
    rw [List.mapM_cons, bind_ok hb, bind_ok hbs]
    rfl

end Related

theorem mapError_eq_ok {ε' : Type} {f : ε → ε'} {x : Except ε α} {a : α} :
    x.mapError f = .ok a ↔ x = .ok a := by
  cases x with
  | error e => simp [Except.mapError]
  | ok b => simp [Except.mapError]

theorem foldlM_history_from (P : List α → β → Prop) {f : β → α → Except ε β}
    (hf : ∀ done b a b', P done b → f b a = .ok b' → P (done ++ [a]) b') {as done : List α}
    {b b' : β} (hP : P done b) (h : as.foldlM f b = .ok b') : P (done ++ as) b' := by
  induction as generalizing b done with
  | nil =>
    obtain rfl := Except.ok.inj h
    rw [List.append_nil]
    exact hP
  | cons a as ih =>
    rw [List.foldlM_cons] at h
    obtain ⟨c, hc, hrest⟩ := bind_eq_ok.mp h
    have hstep := ih (hf done b a c hP hc) hrest
    rw [List.append_assoc] at hstep
    exact hstep

/-- What each iteration of a returning loop keeps true of the elements done so
far is true of all of them at its end. -/
theorem foldlM_history (P : List α → β → Prop) {f : β → α → Except ε β}
    (hf : ∀ done b a b', P done b → f b a = .ok b' → P (done ++ [a]) b') {as : List α}
    {b b' : β} (hP : P [] b) (h : as.foldlM f b = .ok b') : P as b' :=
  foldlM_history_from P hf hP h

section Option

variable {f g : β → α → Option β}

/-- A loop whose iterations are defined where those of another one are ends as that does. -/
theorem foldlM_eq_some_of_imp (h : ∀ b a b', f b a = some b' → g b a = some b') {as : List α}
    {b b' : β} (hloop : as.foldlM f b = some b') : as.foldlM g b = some b' := by
  induction as generalizing b with
  | nil => exact hloop
  | cons a as ih =>
    rw [List.foldlM_cons] at hloop
    obtain ⟨c, hc, hrest⟩ := Option.bind_eq_some_iff.mp hloop
    rw [List.foldlM_cons, h b a c hc]
    exact ih hrest

/-- A loop is undefined over a list with an element that every iteration is undefined on. -/
theorem foldlM_eq_none_of_mem {a : α} (h : ∀ b, f b a = none) {as : List α} (ha : a ∈ as)
    (b : β) : as.foldlM f b = none := by
  induction as generalizing b with
  | nil => exact absurd ha List.not_mem_nil
  | cons first as ih =>
    rw [List.foldlM_cons]
    rcases List.mem_cons.mp ha with rfl | hrest
    · rw [h b]
      rfl
    · cases hfirst : f b first with
      | none => rfl
      | some c => exact ih hrest c

end Option

end Keto.Library.Fallible
