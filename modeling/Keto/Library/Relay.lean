import Keto.Library.Ancestry
import Keto.Library.Rounds
import Mathlib.Algebra.BigOperators.Group.List.Basic
import Mathlib.Algebra.Ring.Nat

/-!
Items that are handed from place to place. From every place an item has at most one
next one; where it has none it is settled. Any number of items are under way at a
time and are delivered in any order. Nothing is lost or doubled by that, and as long
as the next places stay the same an item settles where its chain ends, after as many
deliveries as the chain has links.
-/
namespace Keto.Library

open Ancestry

structure Relay (ι κ : Type*) where
  entered : List (ι × κ)
  travelling : List (ι × κ)
  settled : List (ι × κ)
  lost : List (ι × κ)
  deliveries : ℕ

namespace Relay

variable {ι κ : Type*}

def empty : Relay ι κ := ⟨[], [], [], [], 0⟩

inductive Event (ι κ : Type*)
  | enter (place : ι) (item : κ)
  | deliver (k : ℕ)
  | lose (k : ℕ)

variable (onward : κ → ι → Option ι)

/-- An item at a place goes on, or it is settled there. -/
def arrive (place : ι) (item : κ) (s : Relay ι κ) : Relay ι κ :=
  match onward item place with
  | some there => { s with travelling := s.travelling ++ [(there, item)] }
  | none => { s with settled := s.settled ++ [(place, item)] }

def drop (e : ι × κ) (s : Relay ι κ) : Relay ι κ := { s with lost := s.lost ++ [e] }

def take (k : ℕ) (s : Relay ι κ) : Relay ι κ :=
  { s with travelling := s.travelling.eraseIdx k, deliveries := s.deliveries + 1 }

def step (event : Event ι κ) (s : Relay ι κ) : Relay ι κ :=
  match event with
  | .enter place item => arrive onward place item { s with entered := s.entered ++ [(place, item)] }
  | .deliver k =>
    match s.travelling[k]? with
    | some e => arrive onward e.1 e.2 (s.take k)
    | none => s
  | .lose k =>
    match s.travelling[k]? with
    | some e => (s.take k).drop e
    | none => s

@[simp] theorem arrive_entered (place : ι) (item : κ) (s : Relay ι κ) :
    (arrive onward place item s).entered = s.entered := by
  rw [arrive]
  split <;> rfl

def present (s : Relay ι κ) : List (ι × κ) := s.travelling ++ s.settled ++ s.lost

section Balance

variable {β : Type*} {f : ι × κ → β}

/-- What a function makes of the items that are present is what it makes of those
that entered. -/
def Balanced (f : ι × κ → β) (s : Relay ι κ) : Prop :=
  (s.present.map f).Perm (s.entered.map f)

theorem balanced_empty (f : ι × κ → β) : Balanced f (empty : Relay ι κ) := List.Perm.nil

theorem present_take_perm {s : Relay ι κ} {k : ℕ} {e : ι × κ}
    (h : s.travelling[k]? = some e) :
    s.present.Perm (e :: (s.take k).present) := by
  obtain ⟨hlt, rfl⟩ := List.getElem?_eq_some_iff.mp h
  have hperm := (List.getElem_cons_eraseIdx_perm hlt).symm
  exact (hperm.append_right s.settled).append_right s.lost

theorem present_drop_perm (e : ι × κ) (s : Relay ι κ) :
    (s.drop e).present.Perm (e :: s.present) := by
  rw [present, present, drop, ← List.append_assoc]
  exact List.perm_append_singleton e _

/-- A function that does not tell a place from the next one. -/
def Carried (f : ι × κ → β) : Prop :=
  ∀ place there item, onward item place = some there → f (there, item) = f (place, item)

variable {onward}

theorem present_arrive_perm (hf : Carried onward f) (place : ι) (item : κ) (s : Relay ι κ) :
    ((arrive onward place item s).present.map f).Perm (f (place, item) :: s.present.map f) := by
  rw [arrive]
  cases honward : onward item place with
  | some there =>
    simp only [present, List.map_append, List.map_cons, List.map_nil, hf place there item honward]
    rw [List.append_assoc, List.append_assoc, List.append_assoc]
    exact List.perm_middle
  | none =>
    simp only [present, List.map_append, List.map_cons, List.map_nil]
    rw [← List.append_assoc, List.append_assoc]
    exact List.perm_middle

theorem Balanced.step {s : Relay ι κ} (h : Balanced f s) (hf : Carried onward f)
    (event : Event ι κ) : Balanced f (step onward event s) := by
  cases event with
  | enter place item =>
    rw [Balanced, Relay.step, arrive_entered]
    refine (present_arrive_perm hf place item _).trans ?_
    have hlast : ((s.entered ++ [(place, item)]).map f).Perm
        (f (place, item) :: s.entered.map f) := by
      rw [List.map_append]
      exact List.perm_append_singleton _ _
    exact (h.cons _).trans hlast.symm
  | deliver k =>
    cases hget : s.travelling[k]? with
    | none => simpa only [Relay.step, hget] using h
    | some e =>
      simp only [Balanced, Relay.step, hget, arrive_entered]
      refine (present_arrive_perm hf e.1 e.2 _).trans ?_
      exact ((present_take_perm hget).map f).symm.trans h
  | lose k =>
    cases hget : s.travelling[k]? with
    | none => simpa only [Relay.step, hget] using h
    | some e =>
      simp only [Relay.step, hget]
      refine List.Perm.trans ?_ h
      exact ((present_drop_perm e _).trans (present_take_perm hget).symm).map f

end Balance

section Ends

noncomputable def terminal (e : ι × κ) : Option ι × κ :=
  ((chainEnd (onward e.2) e.1).map Prod.snd, e.2)

noncomputable def links (e : ι × κ) : ℕ := ((chainEnd (onward e.2) e.1).map Prod.fst).getD 0

theorem carried_terminal : Carried onward (terminal onward) := by
  intro place there item honward
  simp [terminal, chainEnd_of_some honward, Function.comp_def]

def Settled (s : Relay ι κ) : Prop := ∀ e ∈ s.settled, onward e.2 e.1 = none

def Ending (s : Relay ι κ) : Prop := ∀ e ∈ s.travelling, (chainEnd (onward e.2) e.1).isSome

def EntersEnding (event : Event ι κ) : Prop :=
  match event with
  | .enter place item => (chainEnd (onward item) place).isSome
  | _ => True

def Counted (s : Relay ι κ) : Prop :=
  s.deliveries + (s.travelling.map fun e => links onward e + 1).sum +
    (s.lost.map (links onward)).sum = (s.entered.map (links onward)).sum

variable {onward}

theorem Settled.step {s : Relay ι κ} (h : Settled onward s) (event : Event ι κ) :
    Settled onward (step onward event s) := by
  have harrive : ∀ place item (s : Relay ι κ), Settled onward s →
      Settled onward (arrive onward place item s) := by
    intro place item s h
    rw [arrive]
    cases honward : onward item place with
    | some there => exact h
    | none =>
      intro e he
      rcases List.mem_append.mp he with he | he
      · exact h e he
      · obtain rfl := List.mem_singleton.mp he
        exact honward
  cases event with
  | enter place item => exact harrive place item _ h
  | deliver k =>
    cases hget : s.travelling[k]? with
    | none => simpa only [Relay.step, hget] using h
    | some e =>
      simp only [Relay.step, hget]
      exact harrive e.1 e.2 _ h
  | lose k =>
    cases hget : s.travelling[k]? with
    | none => simpa only [Relay.step, hget] using h
    | some e =>
      simp only [Relay.step, hget]
      exact h

/-- An item with a chain that ends, at a place that it arrives at. -/
theorem ending_arrive {s : Relay ι κ} (h : Ending onward s) {place : ι} {item : κ}
    (hends : (chainEnd (onward item) place).isSome) :
    Ending onward (arrive onward place item s) := by
  rw [arrive]
  cases honward : onward item place with
  | none => exact h
  | some there =>
    intro e he
    rcases List.mem_append.mp he with he | he
    · exact h e he
    · obtain rfl := List.mem_singleton.mp he
      rwa [chainEnd_of_some honward, Option.isSome_map] at hends

theorem counted_arrive {s : Relay ι κ} {place : ι} {item : κ} {n : ℕ}
    (hends : (chainEnd (onward item) place).isSome)
    (h : s.deliveries + (s.travelling.map fun e => links onward e + 1).sum +
      (s.lost.map (links onward)).sum + links onward (place, item) = n) :
    (arrive onward place item s).deliveries +
      ((arrive onward place item s).travelling.map fun e => links onward e + 1).sum +
      ((arrive onward place item s).lost.map (links onward)).sum = n := by
  rw [arrive]
  cases honward : onward item place with
  | none =>
    have hlinks : links onward (place, item) = 0 := by
      simp [links, chainEnd_of_none honward]
    rw [hlinks] at h
    exact h
  | some there =>
    have hlinks : links onward (place, item) = links onward (there, item) + 1 := by
      rw [chainEnd_of_some honward, Option.isSome_map] at hends
      obtain ⟨e, he⟩ := Option.isSome_iff_exists.mp hends
      simp [links, chainEnd_of_some honward, he]
    rw [hlinks] at h
    simp only [List.map_append, List.sum_append, List.map_cons, List.map_nil, List.sum_cons,
      List.sum_nil] at h ⊢
    omega

/-- An item that is taken has been delivered once more. -/
theorem counted_take {s : Relay ι κ} {k : ℕ} {e : ι × κ} (h : s.travelling[k]? = some e) :
    (s.take k).deliveries + ((s.take k).travelling.map fun e => links onward e + 1).sum +
      ((s.take k).lost.map (links onward)).sum + links onward e =
    s.deliveries + (s.travelling.map fun e => links onward e + 1).sum +
      (s.lost.map (links onward)).sum := by
  obtain ⟨hlt, rfl⟩ := List.getElem?_eq_some_iff.mp h
  have hperm := ((List.getElem_cons_eraseIdx_perm hlt).map fun e => links onward e + 1).sum_eq
  rw [List.map_cons, List.sum_cons] at hperm
  simp only [take]
  omega

theorem Ending.take {s : Relay ι κ} (h : Ending onward s) (k : ℕ) : Ending onward (s.take k) :=
  fun e he => h e (List.mem_of_mem_eraseIdx he)

theorem Ending.step {s : Relay ι κ} (h : Ending onward s) {event : Event ι κ}
    (hevent : EntersEnding onward event) : Ending onward (step onward event s) := by
  cases event with
  | enter place item =>
    have hs : Ending onward { s with entered := s.entered ++ [(place, item)] } := h
    exact ending_arrive hs hevent
  | deliver k =>
    cases hget : s.travelling[k]? with
    | none => simpa only [Relay.step, hget] using h
    | some e =>
      simp only [Relay.step, hget]
      have hs : Ending onward (s.take k) := h.take k
      exact ending_arrive hs (h e (List.mem_of_getElem? hget))
  | lose k =>
    cases hget : s.travelling[k]? with
    | none => simpa only [Relay.step, hget] using h
    | some e =>
      simp only [Relay.step, hget]
      exact h.take k

theorem Counted.step {s : Relay ι κ} (h : Counted onward s) (hs : Ending onward s)
    {event : Event ι κ} (hevent : EntersEnding onward event) :
    Counted onward (step onward event s) := by
  cases event with
  | enter place item =>
    rw [Counted, Relay.step, arrive_entered]
    refine counted_arrive hevent ?_
    simp only [List.map_append, List.sum_append, List.map_cons, List.map_nil, List.sum_cons,
      List.sum_nil, Nat.add_zero]
    rw [← h]
  | deliver k =>
    cases hget : s.travelling[k]? with
    | none => simpa only [Relay.step, hget] using h
    | some e =>
      simp only [Counted, Relay.step, hget, arrive_entered]
      refine counted_arrive (hs e (List.mem_of_getElem? hget)) ?_
      exact (counted_take hget).trans h
  | lose k =>
    cases hget : s.travelling[k]? with
    | none => simpa only [Relay.step, hget] using h
    | some e =>
      simp only [Counted, Relay.step, hget]
      refine Eq.trans ?_ ((counted_take hget).trans h)
      simp only [drop, List.map_append, List.sum_append, List.map_cons, List.map_nil,
        List.sum_cons, List.sum_nil]
      omega

end Ends

section Runs

open Library.Runs Library.Rounds

/-- All that entered is under way, lost, or settled at the end of its chain. -/
structure Kept (s : Relay ι κ) : Prop where
  balanced : Balanced (terminal onward) s
  settled : Settled onward s

theorem kept_run (events : List (Event ι κ)) : Kept onward (run (step onward) empty events) := by
  refine run_keeps (step onward) ?_ ⟨balanced_empty _, ?_⟩ events
  · intro event s h
    exact ⟨h.balanced.step (carried_terminal onward) event, h.settled.step event⟩
  · intro e he
    exact absurd he List.not_mem_nil

/-- Where every chain ends, the deliveries that were made and those that are still
to be made are as many as the links of all chains. -/
structure Accounted (s : Relay ι κ) : Prop where
  ending : Ending onward s
  counted : Counted onward s

theorem accounted_run {events : List (Event ι κ)}
    (h : ∀ event ∈ events, EntersEnding onward event) :
    Accounted onward (run (step onward) empty events) := by
  have hall : Along (step onward) (fun event _ => EntersEnding onward event) empty events :=
    along_of_mem fun event hmem _ => h event hmem
  refine invariant_run (step onward) ?_ ⟨?_, rfl⟩ hall
  · intro event s hs hevent
    exact ⟨hs.ending.step hevent, hs.counted.step hs.ending hevent⟩
  · intro e he
    exact absurd he List.not_mem_nil

def entry (event : Event ι κ) : Option (ι × κ) :=
  match event with
  | .enter place item => some (place, item)
  | _ => none

theorem entered_step (event : Event ι κ) (s : Relay ι κ) :
    (step onward event s).entered = s.entered ++ (entry event).toList := by
  cases event with
  | enter place item => exact arrive_entered onward place item _
  | deliver k =>
    cases hget : s.travelling[k]? <;> simp [Relay.step, hget, entry, take]
  | lose k =>
    cases hget : s.travelling[k]? <;> simp [Relay.step, hget, entry, take, drop]

theorem entered_run (events : List (Event ι κ)) (s : Relay ι κ) :
    (run (step onward) s events).entered = s.entered ++ events.filterMap entry := by
  induction events generalizing s with
  | nil => simp [run]
  | cons event events ih =>
    rw [run_cons, ih, entered_step]
    cases hentry : entry event <;> simp [hentry]

@[simp] theorem arrive_lost (place : ι) (item : κ) (s : Relay ι κ) :
    (arrive onward place item s).lost = s.lost := by
  rw [arrive]
  split <;> rfl

theorem lost_run {events : List (Event ι κ)} (h : ∀ event ∈ events, ∀ k, event ≠ .lose k) :
    (run (step onward) empty events).lost = [] := by
  have hall : Along (step onward) (fun event _ => ∀ k, event ≠ .lose k) empty events :=
    along_of_mem fun event hmem _ => h event hmem
  refine @invariant_run _ _ (step onward) (fun s => s.lost = []) _ ?_ _ rfl _ hall
  intro event s hs hevent
  cases event with
  | enter place item => exact (arrive_lost onward place item _).trans hs
  | deliver k =>
    cases hget : s.travelling[k]? <;> simp [Relay.step, hget, take, hs]
  | lose k => exact absurd rfl (hevent k)

/-- Where nothing is lost on the way and nothing is under way any more, all that
entered is settled at the end of its chain, after a delivery for each link. -/
theorem run_quiet {events : List (Event ι κ)} (hkept : ∀ event ∈ events, ∀ k, event ≠ .lose k)
    (hquiet : (run (step onward) empty events).travelling = []) :
    let s := run (step onward) empty events
    (s.settled.map fun e => (some e.1, e.2)).Perm (s.entered.map (terminal onward)) ∧
      s.deliveries = (s.entered.map (links onward)).sum := by
  intro s
  have hlost : s.lost = [] := lost_run onward hkept
  obtain ⟨hbalanced, hsettled⟩ := kept_run onward events
  have hends : s.settled.map (terminal onward) = s.settled.map fun e => (some e.1, e.2) := by
    refine List.map_congr_left fun e he => ?_
    simp [terminal, chainEnd_of_none (hsettled e he)]
  have hperm : (s.settled.map fun e => (some e.1, e.2)).Perm (s.entered.map (terminal onward)) := by
    rw [← hends]
    have hpresent : s.present = s.settled := by rw [present, hlost, hquiet]; simp
    exact hpresent ▸ hbalanced
  refine ⟨hperm, ?_⟩
  have hentering : ∀ event ∈ events, EntersEnding onward event := by
    intro event hevent
    cases event with
    | enter place item =>
      have hentered : (place, item) ∈ s.entered := by
        rw [entered_run onward]
        exact List.mem_append_right _ (List.mem_filterMap.mpr ⟨_, hevent, rfl⟩)
      obtain ⟨e, _, he⟩ := List.mem_map.mp
        (hperm.mem_iff.mpr (List.mem_map_of_mem (f := terminal onward) hentered))
      have hend : some e.1 = (chainEnd (onward item) place).map Prod.snd := congrArg Prod.fst he
      rw [EntersEnding, ← Option.isSome_map (f := Prod.snd), ← hend]
      rfl
    | _ => trivial
  have hcounted := (accounted_run onward hentering).counted
  rw [Counted, hquiet, hlost] at hcounted
  simpa using hcounted

end Runs

end Relay

end Keto.Library
