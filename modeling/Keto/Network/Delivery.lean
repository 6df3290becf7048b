import Keto.Network.MessageJourney

/-!
The traffic of a network seen as a relay: messages, but for the session hash that
every server replaces, are handed from node to node. What is known of a relay is then
known of the network: in every order of deliveries each message that was submitted is
on its way or has ended once, and while the nodes know the same it ends where the
chain of next nodes of its account ends.
-/
namespace Keto.Network

open Protocol AccountDb Rpc Library Library.Ancestry Library.Runs Traffic

variable {ι : Type} (codec : Codec)

def unstamped (message : MessageWrapper) : MessageWrapper := { message with sessionHash := [] }

def held (carried : Carried ι) : Option MessageWrapper :=
  (RoutedMessages.serverReads codec carried.frame).map unstamped

def view (t : Traffic ι) : Relay ι (Option MessageWrapper) where
  entered := t.submitted.map fun s => (s.1, some (unstamped s.2))
  travelling := t.inFlight.map fun carried => (carried.server, held codec carried)
  settled := (t.ended.filter fun e => e.ending ≠ .unread).map fun e =>
    (e.node, some (unstamped e.message))
  lost := (t.ended.filter fun e => e.ending = .unread).map fun e =>
    (e.node, some (unstamped e.message))
  deliveries := t.frames

def nextNode (nodes : ι → Node ι) (item : Option MessageWrapper) (place : ι) : Option ι :=
  item.bind fun message => onward nodes message.accountHash place

/-- Protobuf gives the message back, under whichever session. -/
def Transmits (message : MessageWrapper) : Prop :=
  ∀ sessionHash : Hash,
    codec.protobuf.parseWrapper
      (codec.protobuf.serializeWrapper { message with sessionHash := sessionHash }) =
        { message with sessionHash := sessionHash }

def Held (t : Traffic ι) : Prop :=
  ∀ carried ∈ t.inFlight, ∃ message,
    RoutedMessages.serverReads codec carried.frame = some message ∧ Transmits codec message

section Refinement

variable {codec} (hhex : HexInverse codec.hex)
include hhex

theorem serverReads_carried {message : MessageWrapper} (h : Transmits codec message) :
    RoutedMessages.serverReads codec (RpcSession.routeTransaction codec message).written =
      some message :=
  RoutedMessages.serverReads_routeTransaction codec hhex (h message.sessionHash)

theorem view_route {place : ι} {message : MessageWrapper} (h : Transmits codec message)
    (t : Traffic ι) :
    view codec (t.route codec place message) =
      Relay.arrive (nextNode t.nodes) place (some (unstamped message)) (view codec t) := by
  have hnext : nextNode t.nodes (some (unstamped message)) place =
      onward t.nodes message.accountHash place := rfl
  rw [Relay.arrive, hnext]
  rcases route_cases codec place message t with ⟨server, hon, hroute⟩ | ⟨hon, ending, hne, hroute⟩
  · rw [hon, hroute]
    simp [view, carry, held, serverReads_carried hhex h]
  · rw [hon, hroute]
    simp [view, finish, hne]

theorem held_route {place : ι} {message : MessageWrapper} (h : Transmits codec message)
    {t : Traffic ι} (ht : Held codec t) : Held codec (t.route codec place message) := by
  rcases route_cases codec place message t with ⟨server, _, hroute⟩ | ⟨_, ending, _, hroute⟩
  · rw [hroute]
    intro carried hmem
    rcases List.mem_append.mp hmem with hmem | hmem
    · exact ht carried hmem
    · obtain rfl := List.mem_singleton.mp hmem
      exact ⟨message, serverReads_carried hhex h, h⟩
  · rw [hroute]
    exact ht

/-- A frame is handed on where its session begins a transaction, and else it is lost. -/
theorem view_read {carried : Carried ι} {message : MessageWrapper}
    (hreads : RoutedMessages.serverReads codec carried.frame = some message)
    (h : Transmits codec message) (answers : Answers) {t : Traffic ι} (ht : Held codec t) :
    Held codec (t.read codec carried answers) ∧
      view codec (t.read codec carried answers) =
        if answers.createTransaction then
          Relay.arrive (nextNode t.nodes) carried.server (held codec carried) (view codec t)
        else (view codec t).drop (carried.server, held codec carried) := by
  have hheld : held codec carried = some (unstamped message) := by rw [held, hreads]; rfl
  cases hcreate : answers.createTransaction with
  | true =>
    have hstamped : Transmits codec { message with sessionHash := carried.account } := h
    rw [read_of_begun codec hreads hcreate, if_pos rfl, hheld]
    exact ⟨held_route hhex hstamped ht, view_route hhex hstamped t⟩
  | false =>
    rw [read_of_not_begun codec hreads hcreate, if_neg (by simp), hheld]
    exact ⟨ht, by simp [view, finish, Relay.drop]⟩

def relayEvent (event : Event ι) : Option (Relay.Event ι (Option MessageWrapper)) :=
  match event with
  | .submit place message => some (.enter place (some (unstamped message)))
  | .deliver k answers => some (if answers.createTransaction then .deliver k else .lose k)
  | .change _ _ => none

omit hhex in
variable (codec) in
def Proper (event : Event ι) : Prop :=
  match event with
  | .submit _ message => Transmits codec message
  | _ => True

omit hhex in
theorem view_take (k : ℕ) (t : Traffic ι) : view codec (t.take k) = (view codec t).take k := by
  simp [view, Traffic.take, Relay.take, List.eraseIdx_map]

variable [DecidableEq ι]

theorem view_step {event : Event ι} (hevent : Proper codec event) {t : Traffic ι}
    (ht : Held codec t) :
    Held codec (step codec event t) ∧
      view codec (step codec event t) =
        match relayEvent event with
        | some seen => Relay.step (nextNode t.nodes) seen (view codec t)
        | none => view codec t := by
  cases event with
  | submit place message =>
    have hs : Held codec { t with submitted := t.submitted ++ [(place, message)] } := ht
    refine ⟨held_route hhex hevent hs, (view_route hhex hevent _).trans ?_⟩
    simp [relayEvent, Relay.step, view]
  | deliver k answers =>
    have hview : (view codec t).travelling[k]? =
        (t.inFlight[k]?).map fun carried => (carried.server, held codec carried) :=
      List.getElem?_map ..
    rw [step]
    cases hget : t.inFlight[k]? with
    | none =>
      refine ⟨ht, ?_⟩
      rw [hget, Option.map_none] at hview
      cases hcreate : answers.createTransaction <;> simp [relayEvent, hcreate, Relay.step, hview]
    | some carried =>
      obtain ⟨message, hreads, htransmits⟩ := ht carried (List.mem_of_getElem? hget)
      have hs : Held codec (t.take k) := fun other hmem =>
        ht other (List.mem_of_mem_eraseIdx hmem)
      obtain ⟨hheld, hread⟩ := view_read hhex hreads htransmits answers hs
      refine ⟨hheld, hread.trans ?_⟩
      rw [hget, Option.map_some] at hview
      rw [view_take]
      cases hcreate : answers.createTransaction <;>
        simp [relayEvent, hcreate, Relay.step, hview, Traffic.take]
  | change place state => exact ⟨ht, rfl⟩

end Refinement

section Frame

variable {codec}

def Keeps (t t' : Traffic ι) : Prop := t'.nodes = t.nodes ∧ t'.submitted = t.submitted

theorem keeps_route (place : ι) (message : MessageWrapper) (t : Traffic ι) :
    Keeps t (t.route codec place message) := by
  rcases route_cases codec place message t with ⟨server, _, hroute⟩ | ⟨_, ending, _, hroute⟩ <;>
    exact hroute ▸ ⟨rfl, rfl⟩

theorem keeps_read {carried : Carried ι} {message : MessageWrapper}
    (hreads : RoutedMessages.serverReads codec carried.frame = some message) (answers : Answers)
    (t : Traffic ι) : Keeps t (t.read codec carried answers) := by
  cases hcreate : answers.createTransaction with
  | true => exact read_of_begun codec hreads hcreate t ▸ keeps_route _ _ t
  | false => exact read_of_not_begun codec hreads hcreate t ▸ ⟨rfl, rfl⟩

def submission (event : Event ι) : Option (ι × MessageWrapper) :=
  match event with
  | .submit place message => some (place, message)
  | _ => none

variable [DecidableEq ι]

theorem submitted_step {t : Traffic ι} (ht : Held codec t) (event : Event ι) :
    (step codec event t).submitted = t.submitted ++ (submission event).toList := by
  cases event with
  | submit place message => exact (keeps_route place message _).2
  | deliver k answers =>
    rw [step]
    cases hget : t.inFlight[k]? with
    | none => simp [submission]
    | some carried =>
      obtain ⟨message, hreads, _⟩ := ht carried (List.mem_of_getElem? hget)
      have hkeeps := (keeps_read hreads answers (t.take k)).2
      simpa [submission, Traffic.take] using hkeeps
  | change place state => simp [step, submission]

theorem nodes_step {t : Traffic ι} (ht : Held codec t) {event : Event ι}
    (hevent : ∀ place state, event ≠ .change place state) :
    (step codec event t).nodes = t.nodes := by
  cases event with
  | submit place message => exact (keeps_route place message _).1
  | deliver k answers =>
    rw [step]
    cases hget : t.inFlight[k]? with
    | none => rfl
    | some carried =>
      obtain ⟨message, hreads, _⟩ := ht carried (List.mem_of_getElem? hget)
      exact (keeps_read hreads answers (t.take k)).1
  | change place state => exact absurd rfl (hevent place state)

end Frame

section Runs

variable {codec} [DecidableEq ι] (hhex : HexInverse codec.hex)
include hhex

theorem held_run {t : Traffic ι} (ht : Held codec t) {events : List (Event ι)}
    (hproper : ∀ event ∈ events, Proper codec event) :
    Held codec (run (step codec) t events) ∧
      (run (step codec) t events).submitted = t.submitted ++ events.filterMap submission := by
  induction events generalizing t with
  | nil => exact ⟨ht, by simp [run]⟩
  | cons event events ih =>
    obtain ⟨hevent, hevents⟩ := List.forall_mem_cons.mp hproper
    obtain ⟨hheld, hsubmitted⟩ := ih (view_step hhex hevent ht).1 hevents
    refine ⟨hheld, ?_⟩
    rw [run_cons, hsubmitted, submitted_step ht]
    cases hsubmission : submission event <;> simp [hsubmission]

/-- Items are as many after a step as before. -/
theorem balanced_run {t : Traffic ι} (ht : Held codec t)
    (hbalanced : Relay.Balanced Prod.snd (view codec t)) {events : List (Event ι)}
    (hproper : ∀ event ∈ events, Proper codec event) :
    Relay.Balanced Prod.snd (view codec (run (step codec) t events)) := by
  induction events generalizing t with
  | nil => exact hbalanced
  | cons event events ih =>
    obtain ⟨hevent, hevents⟩ := List.forall_mem_cons.mp hproper
    obtain ⟨hheld, hview⟩ := view_step hhex hevent ht
    refine ih hheld ?_ hevents
    rw [hview]
    split
    · exact hbalanced.step (fun _ _ _ _ => rfl) _
    · exact hbalanced

/-- While the nodes know the same, the run is one of the relay. -/
theorem view_run {t : Traffic ι} (ht : Held codec t) {events : List (Event ι)}
    (hproper : ∀ event ∈ events, Proper codec event)
    (hstatic : ∀ event ∈ events, ∀ place state, event ≠ .change place state) :
    view codec (run (step codec) t events) =
      run (Relay.step (nextNode t.nodes)) (view codec t) (events.filterMap relayEvent) := by
  induction events generalizing t with
  | nil => rfl
  | cons event events ih =>
    obtain ⟨hevent, hevents⟩ := List.forall_mem_cons.mp hproper
    obtain ⟨hsame, hsames⟩ := List.forall_mem_cons.mp hstatic
    obtain ⟨hheld, hview⟩ := view_step hhex hevent ht
    rw [run_cons, ih hheld hevents hsames, nodes_step ht hsame, hview]
    cases hseen : relayEvent event <;> simp [hseen]

variable (nodes : ι → Node ι)

/-- In every order of events, whatever the nodes come to know, every message that was
submitted is on its way in one frame or has ended once. -/
theorem nothing_lost_or_doubled {events : List (Event ι)}
    (hproper : ∀ event ∈ events, Proper codec event) :
    let t := run (step codec) (start nodes) events
    (t.inFlight.map (held codec) ++ t.ended.map fun e => some (unstamped e.message)).Perm
      ((events.filterMap submission).map fun s => some (unstamped s.2)) := by
  have hstart : Held codec (start nodes) := fun _ hmem => absurd hmem List.not_mem_nil
  intro t
  have hbalanced : Relay.Balanced Prod.snd (view codec t) :=
    balanced_run hhex hstart List.Perm.nil hproper
  have hsubmitted : t.submitted = events.filterMap submission := (held_run hhex hstart hproper).2
  have hended : (((view codec t).settled ++ (view codec t).lost).map Prod.snd).Perm
      (t.ended.map fun e => some (unstamped e.message)) := by
    have hsplit := (List.filter_append_perm (fun e => decide (e.ending ≠ .unread)) t.ended).map
      fun e => some (unstamped e.message)
    simpa [view, Function.comp_def] using hsplit
  have hpresent : ((view codec t).present.map Prod.snd).Perm
      (t.inFlight.map (held codec) ++ t.ended.map fun e => some (unstamped e.message)) := by
    rw [Relay.present, List.append_assoc, List.map_append]
    refine List.Perm.append ?_ hended
    simp [view, Function.comp_def]
  refine hpresent.symm.trans (hbalanced.trans ?_)
  rw [← hsubmitted]
  simp [view, Function.comp_def]

noncomputable def lastNode (s : ι × MessageWrapper) : Option ι :=
  (chainEnd (onward nodes s.2.accountHash) s.1).map Prod.snd

noncomputable def distance (s : ι × MessageWrapper) : ℕ :=
  ((chainEnd (onward nodes s.2.accountHash) s.1).map Prod.fst).getD 0

/-- Once no frame is on its way any more, every message has ended once, at the end of
the chain of next nodes of its account, and one frame was written for each of their
links. The order of the events, and so of the deliveries, does not matter. -/
theorem delivered_once_quiet {events : List (Event ι)}
    (hproper : ∀ event ∈ events, Proper codec event)
    (hstatic : ∀ event ∈ events, ∀ place state, event ≠ .change place state)
    (hbegun : ∀ k answers, Event.deliver k answers ∈ events → answers.createTransaction = true)
    (hquiet : (run (step codec) (start nodes) events).inFlight = []) :
    let t := run (step codec) (start nodes) events
    (t.ended.map fun e => (some e.node, unstamped e.message)).Perm
        ((events.filterMap submission).map fun s => (lastNode nodes s, unstamped s.2)) ∧
      t.frames = ((events.filterMap submission).map (distance nodes)).sum := by
  have hstart : Held codec (start nodes) := fun _ hmem => absurd hmem List.not_mem_nil
  intro t
  have hsubmitted : t.submitted = events.filterMap submission := (held_run hhex hstart hproper).2
  have hview : view codec t =
      run (Relay.step (nextNode nodes)) Relay.empty (events.filterMap relayEvent) :=
    view_run hhex hstart hproper hstatic
  have hkept : ∀ event ∈ events.filterMap relayEvent, ∀ k, event ≠ Relay.Event.lose k := by
    rintro _ hmem k rfl
    obtain ⟨event, hevent, hseen⟩ := List.mem_filterMap.mp hmem
    cases event with
    | deliver j answers => simp [relayEvent, hbegun j answers hevent] at hseen
    | _ => simp [relayEvent] at hseen
  have htravelling : (view codec t).travelling = [] := by
    rw [view, show t.inFlight = [] from hquiet, List.map_nil]
  have hlost := Relay.lost_run (nextNode nodes) hkept
  obtain ⟨hperm, hframes⟩ := Relay.run_quiet (nextNode nodes) hkept (hview ▸ htravelling)
  rw [← hview] at hlost hperm hframes
  have hread : t.ended.filter (fun e => e.ending ≠ .unread) = t.ended := by
    have hnone : ∀ e ∈ t.ended, e.ending ≠ .unread := by
      simpa [view] using hlost
    exact List.filter_eq_self.mpr fun e he => decide_eq_true (hnone e he)
  have hentered : (view codec t).entered =
      (events.filterMap submission).map fun s => (s.1, some (unstamped s.2)) := by
    rw [view, hsubmitted]
  refine ⟨?_, ?_⟩
  · have hinj : Function.Injective (Prod.map id some : Option ι × MessageWrapper → _) :=
      Function.injective_id.prodMap (Option.some_injective _)
    refine (List.map_perm_map_iff hinj).mp ?_
    have hlast : ∀ s, Relay.terminal (nextNode nodes) (s.1, some (unstamped s.2)) =
        (lastNode nodes s, some (unstamped s.2)) := fun _ => rfl
    rw [hentered, view, hread] at hperm
    simpa [Function.comp_def, hlast] using hperm
  · have hdistance : ∀ s, Relay.links (nextNode nodes) (s.1, some (unstamped s.2)) =
        distance nodes s := fun _ => rfl
    have hcount : (view codec t).deliveries = t.frames := rfl
    rw [hentered, hcount] at hframes
    simpa [Function.comp_def, hdistance] using hframes

end Runs

section Row

def row (place : Fin 3) : Node (Fin 3) where
  router :=
    { server := ⟨[place.val.toUInt8], []⟩
      peers := .empty
      registry := ⟨fun _ => none⟩
      generator := 0
      store := ⟨fun _ => none⟩
      checkAccount := fun _ => some (place = 2)
      handles := fun _ _ => true }
  manager := .init (some (text "parent"))
  connected := fun _ => some (place + 1)
  secret := []
  logInfo := false

def toSeven : MessageWrapper := ⟨1, [], [7], .transaction, .route, .other⟩

def rowCodec : Codec :=
  ⟨.botan, ⟨MessageWrapper.sessionHash, fun bytes => { toSeven with sessionHash := bytes }, id⟩⟩

def climbing : List (Event (Fin 3)) :=
  [.submit 0 toSeven, .deliver 0 (answering true), .deliver 0 (answering true)]

theorem proper_climbing : ∀ event ∈ climbing, Proper rowCodec event := by
  simp only [climbing, List.forall_mem_cons]
  exact ⟨fun _ => rfl, trivial, trivial, fun _ hmem => absurd hmem List.not_mem_nil⟩

theorem nothing_lost_or_doubled_climbing :
    let t := run (step rowCodec) (start row) climbing
    (t.inFlight.map (held rowCodec) ++ t.ended.map fun e => some (unstamped e.message)).Perm
      [some toSeven] :=
  nothing_lost_or_doubled hexInverse_botan row proper_climbing

theorem delivered_once_quiet_climbing :
    let t := run (step rowCodec) (start row) climbing
    (t.ended.map fun e => (some e.node, unstamped e.message)).Perm
        [(lastNode row (0, toSeven), toSeven)] ∧
      t.frames = distance row (0, toSeven) := by
  refine delivered_once_quiet hexInverse_botan row proper_climbing ?_ ?_ ?_
  · intro event hmem place state
    rintro rfl
    simp [climbing] at hmem
  · intro k answers hmem
    simp only [climbing, List.mem_cons, List.not_mem_nil, or_false, reduceCtorEq, false_or,
      Event.deliver.injEq, or_self] at hmem
    exact hmem.2 ▸ rfl
  · refine List.eq_nil_of_length_eq_zero ?_
    decide +kernel

end Row

end Keto.Network
