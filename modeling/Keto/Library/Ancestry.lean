import Mathlib.Data.Nat.Notation
import Mathlib.Data.Option.Basic

/-!
Chains of parent links in a partial map. The chain of an element is followed
a given number of links; the results say how chains grow when the map does
and which element of a chain is the first with a property. A chain may be
cyclic: nothing here needs the map to be well founded.
-/
namespace Keto.Library.Ancestry

variable {α : Type*}

/-- The element `n` links above `a`; `none` when the chain ends before. -/
def ancestor (parent : α → Option α) : ℕ → α → Option α
  | 0, a => some a
  | n + 1, a => (parent a).bind (ancestor parent n)

theorem ancestor_succ (parent : α → Option α) (n : ℕ) (a : α) :
    ancestor parent (n + 1) a = (parent a).bind (ancestor parent n) := rfl

theorem ancestor_succ_of_some (parent : α → Option α) (n : ℕ) {a b : α}
    (h : parent a = some b) : ancestor parent (n + 1) a = ancestor parent n b := by
  rw [ancestor_succ, h, Option.bind_some]

theorem ancestor_succ_of_none (parent : α → Option α) (n : ℕ) {a : α}
    (h : parent a = none) : ancestor parent (n + 1) a = none := by
  rw [ancestor_succ, h, Option.bind_none]

/-- The last link of a chain. -/
theorem ancestor_succ_last {parent : α → Option α} {n : ℕ} {a c : α}
    (h : ancestor parent (n + 1) a = some c) :
    ∃ b, ancestor parent n a = some b ∧ parent b = some c := by
  induction n generalizing a with
  | zero =>
    refine ⟨a, rfl, ?_⟩
    rw [ancestor_succ] at h
    obtain ⟨b, hb, hc⟩ := Option.bind_eq_some_iff.mp h
    rw [hb]
    exact hc
  | succ n ih =>
    rw [ancestor_succ] at h
    obtain ⟨d, hd, hrest⟩ := Option.bind_eq_some_iff.mp h
    obtain ⟨b, hb, hc⟩ := ih hrest
    exact ⟨b, (ancestor_succ_of_some parent n hd).trans hb, hc⟩

/-- A chain survives when every link of the map does. -/
theorem ancestor_mono {parent parent' : α → Option α}
    (hlinks : ∀ a b, parent a = some b → parent' a = some b) {n : ℕ} {a b : α}
    (h : ancestor parent n a = some b) : ancestor parent' n a = some b := by
  induction n generalizing a with
  | zero => exact h
  | succ n ih =>
    cases hp : parent a with
    | none =>
      rw [ancestor_succ_of_none parent n hp] at h
      exact absurd h (by simp)
    | some c =>
      rw [ancestor_succ_of_some parent n hp] at h
      rw [ancestor_succ_of_some parent' n (hlinks a c hp)]
      exact ih h

/-- A chain does not leave a set of elements that every link stays in. -/
theorem ancestor_closed {parent : α → Option α} {known : α → Prop}
    (hclosed : ∀ a b, known a → parent a = some b → known b) {n : ℕ} {a b : α} (ha : known a)
    (h : ancestor parent n a = some b) : known b := by
  induction n generalizing a with
  | zero =>
    obtain rfl := Option.some.inj h
    exact ha
  | succ n ih =>
    obtain ⟨c, hc, hrest⟩ := Option.bind_eq_some_iff.mp h
    exact ih (hclosed a c ha hc) hrest

/-- An element that is its own parent is all there is on its chain. -/
theorem ancestor_self {parent : α → Option α} {a : α} (h : parent a = some a) (n : ℕ) :
    ancestor parent n a = some a := by
  induction n with
  | zero => rfl
  | succ n ih => exact (ancestor_succ_of_some parent n h).trans ih

/-- The chain of `a` ends, after finitely many links, at an element without a parent. -/
def Rooted (parent : α → Option α) (a : α) : Prop :=
  ∃ n root, ancestor parent n a = some root ∧ parent root = none

theorem rooted_of_none (parent : α → Option α) {a : α} (h : parent a = none) :
    Rooted parent a := ⟨0, a, rfl, h⟩

theorem rooted_of_some (parent : α → Option α) {a b : α} (h : parent a = some b)
    (hb : Rooted parent b) : Rooted parent a := by
  obtain ⟨n, root, hroot, hend⟩ := hb
  exact ⟨n + 1, root, (ancestor_succ_of_some parent n h).trans hroot, hend⟩

/-- Rooted chains are lost neither by new links nor by new ends off the chain. -/
theorem Rooted.mono {parent parent' : α → Option α} {known : α → Prop}
    (hclosed : ∀ a b, known a → parent a = some b → known b)
    (hsame : ∀ a, known a → parent' a = parent a) {a : α} (ha : known a)
    (h : Rooted parent a) : Rooted parent' a := by
  obtain ⟨n, root, hroot, hend⟩ := h
  induction n generalizing a with
  | zero =>
    obtain rfl := Option.some.inj hroot
    exact rooted_of_none parent' ((hsame a ha).trans hend)
  | succ n ih =>
    cases hp : parent a with
    | none =>
      rw [ancestor_succ_of_none parent n hp] at hroot
      exact absurd hroot (by simp)
    | some b =>
      rw [ancestor_succ_of_some parent n hp] at hroot
      exact rooted_of_some parent' ((hsame a ha).trans hp)
        (ih (hclosed a b ha hp) hroot)

def EndsAt (parent : α → Option α) (a : α) (e : ℕ × α) : Prop :=
  ancestor parent e.1 a = some e.2 ∧ parent e.2 = none

theorem EndsAt.of_some {parent : α → Option α} {a b : α} (h : parent a = some b) (e : ℕ × α) :
    EndsAt parent a e ↔ ∃ e', EndsAt parent b e' ∧ (e'.1 + 1, e'.2) = e := by
  constructor
  · rintro ⟨hroot, hend⟩
    obtain ⟨n, root⟩ := e
    cases n with
    | zero =>
      obtain rfl := Option.some.inj hroot
      exact absurd (h.symm.trans hend) (by simp)
    | succ n => exact ⟨(n, root), ⟨(ancestor_succ_of_some parent n h).symm.trans hroot, hend⟩, rfl⟩
  · rintro ⟨e', ⟨hroot, hend⟩, rfl⟩
    exact ⟨(ancestor_succ_of_some parent e'.1 h).trans hroot, hend⟩

theorem EndsAt.of_none {parent : α → Option α} {a : α} (h : parent a = none) (e : ℕ × α) :
    EndsAt parent a e ↔ e = (0, a) := by
  constructor
  · rintro ⟨hroot, _⟩
    obtain ⟨n, root⟩ := e
    cases n with
    | zero =>
      obtain rfl := Option.some.inj hroot
      rfl
    | succ n =>
      rw [ancestor_succ_of_none parent n h] at hroot
      exact absurd hroot (by simp)
  · rintro rfl
    exact ⟨rfl, h⟩

theorem EndsAt.unique {parent : α → Option α} {a : α} {e e' : ℕ × α} (h : EndsAt parent a e)
    (h' : EndsAt parent a e') : e = e' := by
  obtain ⟨n, root⟩ := e
  induction n generalizing a e' with
  | zero =>
    obtain rfl := Option.some.inj h.1
    exact ((EndsAt.of_none h.2 e').mp h').symm
  | succ n ih =>
    cases hp : parent a with
    | none =>
      have := (EndsAt.of_none hp _).mp h
      simp at this
    | some b =>
      obtain ⟨⟨m, top⟩, hb, heq⟩ := (EndsAt.of_some hp _).mp h
      obtain ⟨e₂, hb', rfl⟩ := (EndsAt.of_some hp e').mp h'
      obtain ⟨hm, rfl⟩ := Prod.mk.inj heq
      obtain rfl := Nat.succ.inj hm
      rw [← ih hb' hb]

open scoped Classical in
noncomputable def chainEnd (parent : α → Option α) (a : α) : Option (ℕ × α) :=
  if h : ∃ e, EndsAt parent a e then some h.choose else none

theorem chainEnd_eq_some_iff (parent : α → Option α) (a : α) (e : ℕ × α) :
    chainEnd parent a = some e ↔ EndsAt parent a e := by
  rw [chainEnd]
  split
  · next h =>
    rw [Option.some.injEq]
    exact ⟨fun heq => heq ▸ h.choose_spec, fun hend => h.choose_spec.unique hend⟩
  · next h => exact ⟨fun heq => by simp at heq, fun hend => absurd ⟨e, hend⟩ h⟩

theorem chainEnd_of_none {parent : α → Option α} {a : α} (h : parent a = none) :
    chainEnd parent a = some (0, a) :=
  (chainEnd_eq_some_iff parent a _).mpr ((EndsAt.of_none h _).mpr rfl)

theorem chainEnd_of_some {parent : α → Option α} {a b : α} (h : parent a = some b) :
    chainEnd parent a = (chainEnd parent b).map fun e => (e.1 + 1, e.2) := by
  refine Option.ext fun e => ?_
  rw [chainEnd_eq_some_iff, EndsAt.of_some h, Option.map_eq_some_iff]
  simp only [chainEnd_eq_some_iff]

section Stored

variable {β : Type*}

def linkOf (stored : α → Option β) (parent : β → α) (a : α) : Option α := (stored a).map parent

/-- What is stored on the first links of a chain, the last of them first. -/
def alongChain (stored : α → Option β) (parent : β → α) : ℕ → α → List β
  | 0, _ => []
  | n + 1, a =>
    match stored a with
    | some b => alongChain stored parent n (parent b) ++ [b]
    | none => []

theorem alongChain_of_stored {stored : α → Option β} {parent : β → α} {a : α} {b : β}
    (h : stored a = some b) (n : ℕ) :
    alongChain stored parent (n + 1) a = alongChain stored parent n (parent b) ++ [b] := by
  rw [alongChain, h]

/-- A chain that is stored already stays as it is when more is stored. -/
theorem alongChain_mono {stored stored' : α → Option β} {parent : β → α}
    (hkept : ∀ a b, stored a = some b → stored' a = some b) {n : ℕ} {a root : α}
    (h : ancestor (linkOf stored parent) n a = some root) :
    alongChain stored' parent n a = alongChain stored parent n a := by
  induction n generalizing a with
  | zero => rfl
  | succ n ih =>
    obtain ⟨c, hlink, hrest⟩ := Option.bind_eq_some_iff.mp h
    obtain ⟨b, hb, rfl⟩ := Option.map_eq_some_iff.mp hlink
    rw [alongChain_of_stored hb, alongChain_of_stored (hkept a b hb), ih hrest]

theorem length_alongChain {stored : α → Option β} {parent : β → α} {n : ℕ} {a root : α}
    (h : ancestor (linkOf stored parent) n a = some root) :
    (alongChain stored parent n a).length = n := by
  induction n generalizing a with
  | zero => rfl
  | succ n ih =>
    obtain ⟨c, hlink, hrest⟩ := Option.bind_eq_some_iff.mp h
    obtain ⟨b, hb, rfl⟩ := Option.map_eq_some_iff.mp hlink
    rw [alongChain_of_stored hb, List.length_append, ih hrest, List.length_singleton]

end Stored

/-- `b` is the first element with property `p` on the chain of `a`, `a` included. -/
def FirstOnChain (parent : α → Option α) (p : α → Prop) (a b : α) : Prop :=
  ∃ n, ancestor parent n a = some b ∧ p b ∧
    ∀ m, m < n → ∀ c, ancestor parent m a = some c → ¬ p c

theorem firstOnChain_self (parent : α → Option α) (p : α → Prop) {a b : α} (ha : p a) :
    FirstOnChain parent p a b ↔ b = a := by
  constructor
  · rintro ⟨n, hn, _, hfirst⟩
    cases n with
    | zero => exact (Option.some.inj hn).symm
    | succ n => exact absurd ha (hfirst 0 (Nat.succ_pos n) a rfl)
  · rintro rfl
    exact ⟨0, rfl, ha, fun m hm => absurd hm (Nat.not_lt_zero m)⟩

theorem firstOnChain_link (parent : α → Option α) (p : α → Prop) {a c b : α} (ha : ¬ p a)
    (hc : parent a = some c) :
    FirstOnChain parent p a b ↔ FirstOnChain parent p c b := by
  constructor
  · rintro ⟨n, hn, hb, hfirst⟩
    cases n with
    | zero =>
      obtain rfl := Option.some.inj hn
      exact absurd hb ha
    | succ n =>
      refine ⟨n, (ancestor_succ_of_some parent n hc).symm.trans hn, hb, ?_⟩
      intro m hm d hd
      exact hfirst (m + 1) (Nat.succ_lt_succ hm) d
        ((ancestor_succ_of_some parent m hc).trans hd)
  · rintro ⟨n, hn, hb, hfirst⟩
    refine ⟨n + 1, (ancestor_succ_of_some parent n hc).trans hn, hb, ?_⟩
    intro m hm d hd
    cases m with
    | zero =>
      obtain rfl := Option.some.inj hd
      exact ha
    | succ m =>
      exact hfirst m (Nat.lt_of_succ_lt_succ hm) d
        ((ancestor_succ_of_some parent m hc).symm.trans hd)

theorem not_firstOnChain_of_none (parent : α → Option α) (p : α → Prop) {a b : α}
    (ha : ¬ p a) (hend : parent a = none) : ¬ FirstOnChain parent p a b := by
  rintro ⟨n, hn, hb, _⟩
  cases n with
  | zero =>
    obtain rfl := Option.some.inj hn
    exact ha hb
  | succ n =>
    rw [ancestor_succ_of_none parent n hend] at hn
    exact absurd hn (by simp)

end Keto.Library.Ancestry
