import Keto.Event.EventServiceModule
import Keto.Library.Runs

/-!
The event handlers of the router module, which its start registers and its stop
deregisters, among those of other modules. The handler of one event is never
deregistered, so that it stays behind in the table of the event service until that
is itself restarted.
-/
namespace Keto.Router.EventRegistry

open Keto.Event Keto.Event.EventServiceModule Library.Runs Library.Stateful

inductive Method
  | routeMessage
  | updateStateRouteMessage
  | registerService
  | registerRpcPeer
  | generateSoftwareHash
  | setModuleSession
  deriving DecidableEq, Repr

inductive Handler (Other : Type)
  | router (method : Method)
  | other (handler : Other)
  deriving DecidableEq, Repr

def registerRpcPeer : String := "REGISTER_RPC_PEER"

def registrations : List (String × Method) :=
  [("ROUTE_MESSAGE", .routeMessage),
   ("UPDATE_STATUS_ROUTE_MESSSAGE", .updateStateRouteMessage),
   ("REGISTER_SERVICE_MESSAGE", .registerService),
   (registerRpcPeer, .registerRpcPeer),
   ("CONSENSUS_ROUTER", .generateSoftwareHash),
   ("CONSENSUS_SESSION_ROUTER", .setModuleSession)]

def deregistrations : List String :=
  ["CONSENSUS_ROUTER", "CONSENSUS_SESSION_ROUTER", "REGISTER_SERVICE_MESSAGE",
   "UPDATE_STATUS_ROUTE_MESSSAGE", "ROUTE_MESSAGE"]

def eventNames : List String := registrations.map Prod.fst

variable {Other : Type}

def entries : List (String × Handler Other) :=
  registrations.map fun registration => (registration.1, .router registration.2)

def registerEventHandlers : Serving (Handler Other) PUnit := registerAll entries

def deregisterEventHandlers : Serving (Handler Other) PUnit := deregisterAll deregistrations

theorem names_entries : (entries : List (String × Handler Other)).map Prod.fst = eventNames := by
  rw [entries, List.map_map]
  rfl

theorem nodup_eventNames : eventNames.Nodup := by decide

/-- One event is registered and not deregistered. -/
theorem mem_deregistrations_iff (name : String) :
    name ∈ deregistrations ↔ name ∈ eventNames ∧ name ≠ registerRpcPeer := by
  constructor
  · intro hname
    have hall : ∀ name ∈ deregistrations, name ∈ eventNames ∧ name ≠ registerRpcPeer := by decide
    exact hall name hname
  · intro ⟨hname, hne⟩
    have hall : ∀ name ∈ eventNames, name ≠ registerRpcPeer → name ∈ deregistrations := by decide
    exact hall name hname hne

/-- The two lists do not mirror each other: a table is never as it was before. -/
theorem not_restored {service : EventServiceModule (Handler Other)}
    (h : returns registerEventHandlers service = true) :
    after deregisterEventHandlers (after registerEventHandlers service) ≠ service := by
  intro hrestored
  have hall := ((restored_iff h deregistrations).mp hrestored).1
  rw [names_entries] at hall
  exact absurd (hall registerRpcPeer (by decide)) (by decide)

structure Node (Other : Type) where
  service : EventServiceModule (Handler Other)
  running : Bool
  others : String → Option Other

def Node.initial : Node Other := ⟨.new, false, fun _ => none⟩

/-- The module manager starts and stops the router module, other modules register and
deregister, and the event service is started anew. -/
inductive Operation (Other : Type)
  | start
  | stop
  | register (name : String) (handler : Other)
  | deregister (name : String)
  | restartEventService

/-- The services of the router module come before its handlers at the start, and go
after them at the stop. -/
def step : Operation Other → Node Other → Node Other
  | .start, node =>
    { node with running := true, service := after registerEventHandlers node.service }
  | .stop, node =>
    { node with service := after deregisterEventHandlers node.service, running := false }
  | .register name handler, node =>
    if returns (addEventHandler name (.other handler)) node.service then
      { node with
        service := after (addEventHandler name (.other handler)) node.service
        others := Function.update node.others name (some handler) }
    else node
  | .deregister name, node =>
    { node with
      service := after (removeEventHandler name) node.service
      others := Function.update node.others name none }
  | .restartEventService, node => { node with service := .new, others := fun _ => none }

/-- The module is started when it is stopped, and stopped when it is started; other
modules use the names of other events; the event service, which is loaded first and
unloaded last, is restarted while the router module is stopped. -/
def Legal : Operation Other → Node Other → Prop
  | .start, node => node.running = false
  | .stop, node => node.running = true
  | .register name _, _ => name ∉ eventNames
  | .deregister name, _ => name ∉ eventNames
  | .restartEventService, node => node.running = false

instance (op : Operation Other) (node : Node Other) : Decidable (Legal op node) :=
  match op with
  | .start => inferInstanceAs (Decidable (node.running = false))
  | .stop => inferInstanceAs (Decidable (node.running = true))
  | .register name _ => inferInstanceAs (Decidable (name ∉ eventNames))
  | .deregister name => inferInstanceAs (Decidable (name ∉ eventNames))
  | .restartEventService => inferInstanceAs (Decidable (node.running = false))

inductive Dispatch (Other : Type)
  | other (handler : Other)
  | router (method : Method)
  /-- The handler finds no service of the router module. -/
  | stoppedService (method : Method)

def processEvent (name : String) (node : Node Other) :
    Except EventException (Dispatch Other) := do
  let handler ← getEventHandler name node.service
  match handler with
  | .other handler => return .other handler
  | .router method => return if node.running then .router method else .stoppedService method

def Registers : Operation Other → Node Other → Prop
  | .start, node => returns registerEventHandlers node.service = true
  | .register name handler, node =>
    returns (addEventHandler name (.other handler)) node.service = true ∨
      (node.others name).isSome = true
  | _, _ => True

def HoldsOthers (node : Node Other) : Prop :=
  node.service.registeredSignals = fun name => (node.others name).map .other

/-- A step registers without a duplicate; when the module is stopped behind it, the
table holds the entries of the others, and no event goes to a stopped service. -/
structure Restores (op : Operation Other) (node : Node Other) : Prop where
  registers : Registers op node
  stopped : (step op node).running = false → HoldsOthers (step op node)
  dispatches : ∀ name method, processEvent name (step op node) ≠ .ok (.stoppedService method)

/-- The other modules have none of the events of the router module, which leaves at most
one handler behind when it is stopped. -/
structure Leftover (node : Node Other) : Prop where
  reserved : ∀ name ∈ eventNames, node.others name = none
  others : ∀ name ∉ eventNames,
    node.service.registeredSignals name = (node.others name).map .other
  stopped : node.running = false → ∀ name ∈ eventNames, name ≠ registerRpcPeer →
    node.service.registeredSignals name = none

structure Holds (node : Node Other) : Prop extends Leftover node where
  registered : node.running = true →
    node.service.registeredSignals registerRpcPeer = some (.router .registerRpcPeer)
  removed : node.running = false → node.service.registeredSignals registerRpcPeer = none

theorem registeredSignals_start {node : Node Other} {name : String} (h : name ∉ eventNames) :
    (step .start node).service.registeredSignals name = node.service.registeredSignals name := by
  have hnames : (entries : List (String × Handler Other)).map Prod.fst = eventNames :=
    names_entries
  rw [← hnames] at h
  exact registerAll_of_not_mem h node.service

theorem registeredSignals_stop (node : Node Other) (name : String) :
    (step .stop node).service.registeredSignals name =
      if name ∈ deregistrations then none else node.service.registeredSignals name :=
  congrFun (after_deregisterAll deregistrations node.service) name

def Node.setOther (name : String) (entry : Option Other) (node : Node Other) : Node Other :=
  { node with
    service := ⟨Function.update node.service.registeredSignals name (entry.map .other)⟩
    others := Function.update node.others name entry }

/-- A registration of another module either sets its entry or changes nothing. -/
theorem step_register (name : String) (handler : Other) (node : Node Other) :
    step (.register name handler) node = node.setOther name (some handler) ∨
      step (.register name handler) node = node := by
  rw [step, returns_addEventHandler]
  cases h : node.service.registeredSignals name with
  | none =>
    rw [after_of_ok (addEventHandler_of_none h (.other handler))]
    exact Or.inl rfl
  | some registered => exact Or.inr rfl

theorem step_deregister (name : String) (node : Node Other) :
    step (.deregister name) node = node.setOther name none := rfl

@[simp] theorem registeredSignals_setOther_self (name : String) (entry : Option Other)
    (node : Node Other) :
    (node.setOther name entry).service.registeredSignals name = entry.map .other :=
  Function.update_self name _ _

theorem registeredSignals_setOther_of_ne {name other : String} (h : other ≠ name)
    (entry : Option Other) (node : Node Other) :
    (node.setOther name entry).service.registeredSignals other =
      node.service.registeredSignals other :=
  Function.update_of_ne h _ _

@[simp] theorem others_setOther_self (name : String) (entry : Option Other) (node : Node Other) :
    (node.setOther name entry).others name = entry :=
  Function.update_self name _ _

theorem others_setOther_of_ne {name other : String} (h : other ≠ name) (entry : Option Other)
    (node : Node Other) : (node.setOther name entry).others other = node.others other :=
  Function.update_of_ne h _ _

theorem leftover_initial : Leftover (.initial : Node Other) :=
  ⟨fun _ _ => rfl, fun _ _ => rfl, fun _ _ _ _ => rfl⟩

theorem leftover_setOther {name : String} (hlegal : name ∉ eventNames) (entry : Option Other)
    {node : Node Other} (h : Leftover node) : Leftover (node.setOther name entry) := by
  have hother : ∀ other ∈ eventNames, other ≠ name :=
    fun other hmem heq => hlegal (heq ▸ hmem)
  refine ⟨?_, ?_, ?_⟩
  · intro other hmem
    rw [others_setOther_of_ne (hother other hmem)]
    exact h.reserved other hmem
  · intro other hmem
    by_cases heq : other = name
    · rw [heq, registeredSignals_setOther_self, others_setOther_self]
    · rw [registeredSignals_setOther_of_ne heq, others_setOther_of_ne heq]
      exact h.others other hmem
  · intro hstopped other hmem hne
    rw [registeredSignals_setOther_of_ne (hother other hmem)]
    exact h.stopped hstopped other hmem hne

/-- Every step leaves at most that handler behind. -/
theorem leftover_step {op : Operation Other} {node : Node Other} (h : Leftover node)
    (hlegal : Legal op node) : Leftover (step op node) := by
  cases op with
  | start =>
    refine ⟨h.reserved, ?_, fun hstopped => absurd hstopped.symm Bool.false_ne_true⟩
    intro name hname
    rw [registeredSignals_start hname]
    exact h.others name hname
  | stop =>
    refine ⟨h.reserved, ?_, ?_⟩
    · intro name hname
      rw [registeredSignals_stop, if_neg]
      · exact h.others name hname
      · intro hmem
        exact hname ((mem_deregistrations_iff name).mp hmem).1
    · intro _ name hname hne
      rw [registeredSignals_stop, if_pos ((mem_deregistrations_iff name).mpr ⟨hname, hne⟩)]
  | register name handler =>
    rcases step_register name handler node with hstep | hstep
    · rw [hstep]
      exact leftover_setOther hlegal (some handler) h
    · rw [hstep]
      exact h
  | deregister name =>
    rw [step_deregister]
    exact leftover_setOther hlegal none h
  | restartEventService => exact ⟨fun _ _ => rfl, fun _ _ => rfl, fun _ _ _ _ => rfl⟩

/-- The start of a stopped module returns exactly when the handler is not left behind. -/
theorem returns_start_iff {node : Node Other} (h : Leftover node)
    (hstopped : node.running = false) :
    returns registerEventHandlers node.service = true ↔
      node.service.registeredSignals registerRpcPeer = none := by
  rw [registerEventHandlers, returns_registerAll_iff, names_entries]
  constructor
  · intro ⟨_, hfresh⟩
    exact hfresh registerRpcPeer (by decide)
  · intro hnone
    refine ⟨nodup_eventNames, ?_⟩
    intro name hname
    by_cases heq : name = registerRpcPeer
    · rw [heq]
      exact hnone
    · exact h.stopped hstopped name hname heq

/-- Other modules only find their own events registered. -/
theorem registers_other {name : String} {handler : Other} {node : Node Other} (h : Leftover node)
    (hlegal : name ∉ eventNames) : Registers (.register name handler) node := by
  rw [Registers, returns_addEventHandler, h.others name hlegal]
  cases node.others name with
  | none => exact Or.inl rfl
  | some registered => exact Or.inr rfl

theorem holds_initial : Holds (.initial : Node Other) :=
  ⟨leftover_initial, fun hrunning => absurd hrunning Bool.false_ne_true, fun _ => rfl⟩

theorem holds_setOther {name : String} (hlegal : name ∉ eventNames) (entry : Option Other)
    {node : Node Other} (h : Holds node) : Holds (node.setOther name entry) := by
  have hne : registerRpcPeer ≠ name := fun heq => hlegal (heq ▸ by decide)
  have hkept := registeredSignals_setOther_of_ne hne entry node
  refine ⟨leftover_setOther hlegal entry h.toLeftover, ?_, ?_⟩
  · rw [hkept]
    exact h.registered
  · rw [hkept]
    exact h.removed

/-- The handler is left behind by no step but the stop. -/
theorem holds_step {op : Operation Other} {node : Node Other} (h : Holds node)
    (hlegal : Legal op node) (hcond : op ≠ .stop) : Holds (step op node) := by
  cases op with
  | start =>
    refine ⟨leftover_step h.toLeftover hlegal, ?_,
      fun hstopped => absurd hstopped.symm Bool.false_ne_true⟩
    intro _
    have hreturns := (returns_start_iff h.toLeftover hlegal).mpr (h.removed hlegal)
    obtain ⟨hnodup, hfresh⟩ := (returns_registerAll_iff _ _).mp hreturns
    have hmem : (registerRpcPeer, Handler.router .registerRpcPeer) ∈
        (entries : List (String × Handler Other)) := by simp [entries, registrations]
    exact (registerAll_of_fresh hnodup hfresh).2 _ hmem
  | stop => exact absurd rfl hcond
  | register name handler =>
    rcases step_register name handler node with hstep | hstep
    · rw [hstep]
      exact holds_setOther hlegal (some handler) h
    · rw [hstep]
      exact h
  | deregister name =>
    rw [step_deregister]
    exact holds_setOther hlegal none h
  | restartEventService =>
    refine ⟨leftover_step h.toLeftover hlegal, ?_, fun _ => rfl⟩
    intro hrunning
    exact absurd (hlegal.symm.trans hrunning) Bool.false_ne_true

theorem holdsOthers_of_holds {node : Node Other} (h : Holds node)
    (hstopped : node.running = false) : HoldsOthers node := by
  funext name
  by_cases hname : name ∈ eventNames
  · rw [h.reserved name hname]
    by_cases heq : name = registerRpcPeer
    · rw [heq]
      exact h.removed hstopped
    · exact h.stopped hstopped name hname heq
  · exact h.others name hname

/-- From a table of the others' entries nothing goes to the router module. -/
theorem dispatches_of_holdsOthers {node : Node Other} (h : HoldsOthers node) (name : String)
    (method : Method) : processEvent name node ≠ .ok (.stoppedService method) := by
  have hentry := congrFun h name
  rw [processEvent, getEventHandler, hentry]
  cases node.others name with
  | none => exact fun hthrown => absurd hthrown (by simp [bind, Except.bind])
  | some handler => exact fun hgoes => absurd hgoes (by simp [bind, Except.bind, pure, Except.pure])

theorem dispatches_of_running {node : Node Other} (h : node.running = true) (name : String)
    (method : Method) : processEvent name node ≠ .ok (.stoppedService method) := by
  rw [processEvent, h]
  cases getEventHandler name node.service with
  | error exception => exact fun hthrown => absurd hthrown (by simp [bind, Except.bind])
  | ok handler =>
    cases handler with
    | other handler =>
      exact fun hgoes => absurd hgoes (by simp [bind, Except.bind, pure, Except.pure])
    | router registered =>
      exact fun hgoes => absurd hgoes (by simp [bind, Except.bind, pure, Except.pure])

theorem registers_of_holds {op : Operation Other} {node : Node Other} (h : Holds node)
    (hlegal : Legal op node) : Registers op node := by
  cases op with
  | start => exact (returns_start_iff h.toLeftover hlegal).mpr (h.removed hlegal)
  | register name handler => exact registers_other h.toLeftover hlegal
  | stop => trivial
  | deregister name => trivial
  | restartEventService => trivial

/-- A step restores the table exactly when it is not the stop. -/
theorem restores_iff {op : Operation Other} {node : Node Other} (h : Holds node)
    (hlegal : Legal op node) : Restores op node ↔ op ≠ .stop := by
  constructor
  · intro hrestores hstop
    obtain rfl := hstop
    have hentry := congrFun (hrestores.stopped rfl) registerRpcPeer
    rw [registeredSignals_stop, if_neg (by decide), h.registered hlegal] at hentry
    have hothers : (step .stop node).others registerRpcPeer = none :=
      h.reserved registerRpcPeer (by decide)
    rw [hothers] at hentry
    exact absurd hentry (Option.some_ne_none _)
  · intro hcond
    have hnext := holds_step h hlegal hcond
    refine ⟨registers_of_holds h hlegal, holdsOthers_of_holds hnext, ?_⟩
    cases hrunning : (step op node).running with
    | true => exact dispatches_of_running hrunning
    | false => exact dispatches_of_holdsOthers (holdsOthers_of_holds hnext hrunning)

/-- Whatever the steps, a stopped router module leaves at most that handler behind. -/
theorem leftover_run {ops : List (Operation Other)} (hlegal : Along step Legal .initial ops) :
    Leftover (run step .initial ops) :=
  invariant_run step (fun _ _ h hlegal => leftover_step h hlegal) leftover_initial hlegal

def Removed : Operation Other → Node Other → Prop
  | .start, node => node.service.registeredSignals registerRpcPeer = none
  | _, _ => True

theorem registers_iff {op : Operation Other} {node : Node Other} (h : Leftover node)
    (hlegal : Legal op node) : Registers op node ↔ Removed op node := by
  cases op with
  | start => exact returns_start_iff h hlegal
  | register name handler => exact iff_of_true (registers_other h hlegal) trivial
  | stop => exact Iff.rfl
  | deregister name => exact Iff.rfl
  | restartEventService => exact Iff.rfl

/-- No registration meets a duplicate exactly when each start finds the handler removed. -/
theorem registers_exact (ops : List (Operation Other)) (hlegal : Along step Legal .initial ops) :
    Along step Registers .initial ops ↔ Along step Removed .initial ops := by
  refine along_iff_of_invariant step ?_ ?_ leftover_initial hlegal
  · intro op node hinv hlegal _
    exact leftover_step hinv hlegal
  · intro op node hinv hlegal
    exact registers_iff hinv hlegal

/-- A reload of all modules removes it, with the event service that has the table. -/
theorem registers_reload (node : Node Other) :
    Registers .start (run step node [.stop, .restartEventService]) :=
  (returns_registerAll_iff _ _).mpr ⟨by rw [names_entries]; exact nodup_eventNames, fun _ _ => rfl⟩

/-- Over every sequence of steps the table is restored exactly while the router module is
not stopped. -/
theorem restores_exact (ops : List (Operation Other)) (hlegal : Along step Legal .initial ops) :
    Along step Restores .initial ops ↔ Along step (fun op _ => op ≠ .stop) .initial ops := by
  refine along_iff_of_invariant step ?_ ?_ holds_initial hlegal
  · intro op node hinv hlegal hcond
    exact holds_step hinv hlegal hcond
  · intro op node hinv hlegal
    exact restores_iff hinv hlegal

def oneStart : List (Operation ℕ) :=
  [.register "BLOCK_MESSAGE" 3, .start, .register "BLOCK_MESSAGE" 4, .deregister "BLOCK_MESSAGE"]

theorem restores_exact_oneStart :
    Along step Restores .initial oneStart ↔ Along step (fun op _ => op ≠ .stop) .initial oneStart :=
  restores_exact oneStart ⟨by decide, by decide, by decide, by decide, trivial⟩

/-- After the first stop an event goes to the stopped service, and the second start
throws. -/
theorem stop_leaves_handler :
    processEvent registerRpcPeer (run step (.initial : Node ℕ) [.start, .stop]) =
        .ok (.stoppedService .registerRpcPeer) ∧
      thrown registerEventHandlers (run step (.initial : Node ℕ) [.start, .stop]).service =
        some (.duplicateEventHandler
          "Pre-existing event handler by the name of : REGISTER_RPC_PEER") ∧
      ¬ Along step Restores (.initial : Node ℕ) [.start, .stop] := by
  have hleft : processEvent registerRpcPeer (run step (.initial : Node ℕ) [.start, .stop]) =
      .ok (.stoppedService .registerRpcPeer) := by rfl
  refine ⟨hleft, by rfl, ?_⟩
  intro ⟨_, hstop, _⟩
  exact hstop.dispatches registerRpcPeer .registerRpcPeer hleft

end Keto.Router.EventRegistry
