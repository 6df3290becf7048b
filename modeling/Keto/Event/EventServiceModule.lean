import Keto.Library.Stateful
import Mathlib.Logic.Function.Basic

/-!
The event service: a table of handlers by the names of their events, which takes no
second handler under a name. A module registers a list of handlers when it starts
and deregisters a list of names when it stops; the table is as before exactly when
the lists mirror each other.
-/
namespace Keto.Event

open Library.Stateful

inductive EventException
  | duplicateEventHandler (text : String)
  | unknownEventHandler (text : String)
  deriving DecidableEq, Repr

@[ext] structure EventServiceModule (Handler : Type) where
  registeredSignals : String → Option Handler

abbrev Serving (Handler : Type) := EStateM EventException (EventServiceModule Handler)

variable {Handler : Type}

namespace EventServiceModule

def new : EventServiceModule Handler := ⟨fun _ => none⟩

def put (name : String) (handler : Handler) (service : EventServiceModule Handler) :
    EventServiceModule Handler :=
  ⟨Function.update service.registeredSignals name (some handler)⟩

def erase (name : String) (service : EventServiceModule Handler) : EventServiceModule Handler :=
  ⟨Function.update service.registeredSignals name none⟩

@[simp] theorem put_self (name : String) (handler : Handler)
    (service : EventServiceModule Handler) :
    (service.put name handler).registeredSignals name = some handler :=
  Function.update_self name _ _

theorem put_of_ne {name other : String} (h : other ≠ name) (handler : Handler)
    (service : EventServiceModule Handler) :
    (service.put name handler).registeredSignals other = service.registeredSignals other :=
  Function.update_of_ne h _ _

@[simp] theorem erase_self (name : String) (service : EventServiceModule Handler) :
    (service.erase name).registeredSignals name = none :=
  Function.update_self name _ _

theorem erase_of_ne {name other : String} (h : other ≠ name)
    (service : EventServiceModule Handler) :
    (service.erase name).registeredSignals other = service.registeredSignals other :=
  Function.update_of_ne h _ _

def addEventHandler (name : String) (handler : Handler) : Serving Handler PUnit := do
  let service ← get
  if (service.registeredSignals name).isSome then
    throw (.duplicateEventHandler ("Pre-existing event handler by the name of : " ++ name))
  else
    set (service.put name handler)

def getEventHandler (name : String) (service : EventServiceModule Handler) :
    Except EventException Handler :=
  match service.registeredSignals name with
  | some handler => .ok handler
  | none => .error (.unknownEventHandler ("Unknown event handler : " ++ name))

/-- A name without a handler is erased as well. -/
def removeEventHandler (name : String) : Serving Handler PUnit :=
  modify (erase name)

def registerAll (entries : List (String × Handler)) : Serving Handler PUnit :=
  entries.forM fun entry => addEventHandler entry.1 entry.2

def deregisterAll (names : List String) : Serving Handler PUnit :=
  names.forM removeEventHandler

theorem addEventHandler_of_none {name : String} {service : EventServiceModule Handler}
    (h : service.registeredSignals name = none) (handler : Handler) :
    addEventHandler name handler service = .ok ⟨⟩ (service.put name handler) := by
  rw [addEventHandler, get_bind, h]
  rfl

theorem addEventHandler_of_some {name : String} {service : EventServiceModule Handler}
    {registered : Handler} (h : service.registeredSignals name = some registered)
    (handler : Handler) :
    addEventHandler name handler service =
      .error (.duplicateEventHandler ("Pre-existing event handler by the name of : " ++ name))
        service := by
  rw [addEventHandler, get_bind, h]
  rfl

theorem returns_addEventHandler (name : String) (handler : Handler)
    (service : EventServiceModule Handler) :
    returns (addEventHandler name handler) service =
      (service.registeredSignals name).isNone := by
  cases h : service.registeredSignals name with
  | none => rw [returns, addEventHandler_of_none h]; rfl
  | some registered => rw [returns, addEventHandler_of_some h]; rfl

theorem registerAll_cons_of_none {entry : String × Handler} {service : EventServiceModule Handler}
    (h : service.registeredSignals entry.1 = none) (entries : List (String × Handler)) :
    registerAll (entry :: entries) service =
      registerAll entries (service.put entry.1 entry.2) :=
  bind_ok (addEventHandler_of_none h entry.2) _

theorem registerAll_cons_of_some {entry : String × Handler} {service : EventServiceModule Handler}
    {registered : Handler} (h : service.registeredSignals entry.1 = some registered)
    (entries : List (String × Handler)) :
    registerAll (entry :: entries) service =
      .error (.duplicateEventHandler
        ("Pre-existing event handler by the name of : " ++ entry.1)) service :=
  bind_error (addEventHandler_of_some h entry.2) _

/-- Registration, also one that throws, leaves other names as they are. -/
theorem registerAll_of_not_mem {name : String} {entries : List (String × Handler)}
    (h : name ∉ entries.map Prod.fst) (service : EventServiceModule Handler) :
    (after (registerAll entries) service).registeredSignals name =
      service.registeredSignals name := by
  induction entries generalizing service with
  | nil => rfl
  | cons entry entries ih =>
    rw [List.map_cons, List.mem_cons, not_or] at h
    cases hentry : service.registeredSignals entry.1 with
    | some registered => rw [after, registerAll_cons_of_some hentry]
    | none =>
      rw [after, registerAll_cons_of_none hentry, ← after, ih h.2]
      exact put_of_ne h.1 entry.2 service

/-- The handlers of different new names are all registered. -/
theorem registerAll_of_fresh {entries : List (String × Handler)}
    (hnodup : (entries.map Prod.fst).Nodup) {service : EventServiceModule Handler}
    (hfresh : ∀ name ∈ entries.map Prod.fst, service.registeredSignals name = none) :
    returns (registerAll entries) service = true ∧
      ∀ entry ∈ entries,
        (after (registerAll entries) service).registeredSignals entry.1 = some entry.2 := by
  induction entries generalizing service with
  | nil => exact ⟨rfl, fun _ h => absurd h List.not_mem_nil⟩
  | cons entry entries ih =>
    rw [List.map_cons] at hnodup hfresh
    obtain ⟨hnew, hnodup⟩ := List.nodup_cons.mp hnodup
    obtain ⟨hentry, hfresh⟩ := List.forall_mem_cons.mp hfresh
    have hrest : ∀ name ∈ entries.map Prod.fst,
        (service.put entry.1 entry.2).registeredSignals name = none := by
      intro name hname
      have hne : name ≠ entry.1 := fun heq => hnew (heq ▸ hname)
      rw [put_of_ne hne]
      exact hfresh name hname
    obtain ⟨hreturns, hall⟩ := ih hnodup hrest
    have hcons := registerAll_cons_of_none hentry entries
    refine ⟨by rw [returns, hcons]; exact hreturns, ?_⟩
    intro other hother
    rw [after, hcons, ← after]
    rcases List.mem_cons.mp hother with rfl | hmem
    · rw [registerAll_of_not_mem hnew, put_self]
    · exact hall other hmem

/-- A registration returns exactly when its names are different and new. -/
theorem returns_registerAll_iff (entries : List (String × Handler))
    (service : EventServiceModule Handler) :
    returns (registerAll entries) service = true ↔ (entries.map Prod.fst).Nodup ∧
      ∀ name ∈ entries.map Prod.fst, service.registeredSignals name = none := by
  constructor
  · intro hreturns
    induction entries generalizing service with
    | nil => exact ⟨List.nodup_nil, fun _ h => absurd h List.not_mem_nil⟩
    | cons entry entries ih =>
      cases hentry : service.registeredSignals entry.1 with
      | some registered =>
        rw [returns, registerAll_cons_of_some hentry] at hreturns
        exact absurd hreturns Bool.false_ne_true
      | none =>
        rw [returns, registerAll_cons_of_none hentry] at hreturns
        obtain ⟨hnodup, hfresh⟩ := ih _ hreturns
        have hnew : entry.1 ∉ entries.map Prod.fst := by
          intro hmem
          have hnone := hfresh entry.1 hmem
          rw [put_self] at hnone
          exact absurd hnone (Option.some_ne_none _)
        rw [List.map_cons]
        refine ⟨List.nodup_cons.mpr ⟨hnew, hnodup⟩, List.forall_mem_cons.mpr ⟨hentry, ?_⟩⟩
        intro name hname
        have hne : name ≠ entry.1 := fun heq => hnew (heq ▸ hname)
        have hnone := hfresh name hname
        rw [put_of_ne hne] at hnone
        exact hnone
  · intro h
    exact (registerAll_of_fresh h.1 h.2).1

/-- Deregistration erases its names and no others. -/
theorem deregisterAll_eq (names : List String) (service : EventServiceModule Handler) :
    deregisterAll names service =
      .ok ⟨⟩ ⟨fun name => if name ∈ names then none else service.registeredSignals name⟩ := by
  induction names generalizing service with
  | nil => rfl
  | cons first names ih =>
    have hcons : deregisterAll (first :: names) service =
        deregisterAll names (service.erase first) := rfl
    rw [hcons, ih]
    congr 2
    funext name
    by_cases hname : name = first
    · rw [hname, erase_self, if_pos List.mem_cons_self, ite_self]
    · rw [erase_of_ne hname]
      simp only [List.mem_cons, hname, false_or]

theorem after_deregisterAll (names : List String) (service : EventServiceModule Handler) :
    (after (deregisterAll names) service).registeredSignals =
      fun name => if name ∈ names then none else service.registeredSignals name := by
  rw [after_of_ok (deregisterAll_eq names service)]

/-- A module that registers and deregisters leaves the table as it was exactly when it
deregisters all it registers, and of the rest nothing that is there. -/
theorem restored_iff {entries : List (String × Handler)} {service : EventServiceModule Handler}
    (hreturns : returns (registerAll entries) service = true) (names : List String) :
    after (deregisterAll names) (after (registerAll entries) service) = service ↔
      (∀ name ∈ entries.map Prod.fst, name ∈ names) ∧
        ∀ name ∈ names, name ∉ entries.map Prod.fst → service.registeredSignals name = none := by
  obtain ⟨hnodup, hfresh⟩ := (returns_registerAll_iff entries service).mp hreturns
  have hregistered := (registerAll_of_fresh hnodup hfresh).2
  rw [EventServiceModule.ext_iff, after_deregisterAll, funext_iff]
  constructor
  · intro hsame
    refine ⟨?_, ?_⟩
    · intro name hname
      by_contra hnot
      obtain ⟨entry, hentry, rfl⟩ := List.mem_map.mp hname
      have hleft := hsame entry.1
      rw [if_neg hnot, hregistered entry hentry, hfresh entry.1 hname] at hleft
      exact absurd hleft (Option.some_ne_none _)
    · intro name hname _
      have herased := hsame name
      rw [if_pos hname] at herased
      exact herased.symm
  · intro ⟨hall, hrest⟩ name
    by_cases hentry : name ∈ entries.map Prod.fst
    · rw [if_pos (hall name hentry), hfresh name hentry]
    · rw [registerAll_of_not_mem hentry]
      by_cases hname : name ∈ names
      · rw [if_pos hname, hrest name hname hentry]
      · rw [if_neg hname]

end EventServiceModule

end Keto.Event
