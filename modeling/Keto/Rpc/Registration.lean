import Keto.Library.Rounds
import Keto.Rpc.OrderedHandshake

/-!
That a client gets what it connected for. While the modules of both sides answer,
each phase of a conversation waits for one side to read or to complete a write,
and nothing else that happens leads back: not the messages that are routed on the
session meanwhile, nor the order in which the threads are run.
-/
namespace Keto.Rpc.Conversation

open Protocol AccountDb Library.Runs Library.Rounds
open HandshakeGate (Observed)
open PendingOperations (Pending)

inductive Turn
  | handshake
  | serverReads
  | serverWritten
  | clientReads
  | clientWritten
  deriving DecidableEq, Repr

def takes : Event → Turn → Prop
  | .handshake, .handshake => True
  | .serverReads _, .serverReads => True
  | .serverWritten, .serverWritten => True
  | .clientReads _, .clientReads => True
  | .clientWritten, .clientWritten => True
  | _, _ => False

def Answering (event : Event) (s : Conversation) : Prop :=
  match event with
  | .serverReads answers => answers.createTransaction = true ∧
      answers.validateConsensus = some true ∧ answers.registerPeer = true
  | .clientReads answers => answers.createTransaction = true ∧ answers.commit = true ∧
      answers.consensus.isSome = true ∧ answers.nodeAccountRouting.isSome = true
  | event => RoutesOnceAccepted event s

/-- The side whose turn it is may first have to complete a write; it is `ready`
when it has. -/
inductive Stage
  | greeting
  | greeted
  | challenged (ready : Bool)
  | proving (ready : Bool)
  | judged (ready : Bool)
  | requesting (ready : Bool)
  | replied (ready : Bool)
  | done
  deriving DecidableEq, Repr

namespace Stage

def rank : Stage → ℕ
  | .greeting => 0
  | .greeted => 1
  | .challenged ready => 2 + ready.toNat
  | .proving ready => 4 + ready.toNat
  | .judged ready => 6 + ready.toNat
  | .requesting ready => 8 + ready.toNat
  | .replied ready => 10 + ready.toNat
  | .done => 12

def awaits : Stage → Turn
  | .greeting => .handshake
  | .greeted => .serverReads
  | .challenged ready => if ready then .clientReads else .clientWritten
  | .proving ready => if ready then .serverReads else .serverWritten
  | .judged ready => if ready then .clientReads else .clientWritten
  | .requesting ready => if ready then .serverReads else .serverWritten
  | .replied ready => if ready then .clientReads else .clientWritten
  | .done => .handshake

end Stage

variable (parties : Parties)

structure Waits (ready : Bool) (client : Pending) : Prop where
  reads : client.reads = ready.toNat
  writes : client.writes = (!ready).toNat
  intact : client.crashed = false

def IsAsked (frame : Bytes) : Prop :=
  if parties.peered then
    ∃ rpcPeer, frame = buildMessage .register (parties.hex.hexEncode rpcPeer)
  else frame = peersRequest

def IsAnswer (frame : Bytes) : Prop :=
  if parties.peered then
    frame = buildMessage .register (parties.hex.hexEncode parties.serverAccount)
  else ∃ response, frame = buildMessage .peers (parties.hex.hexEncode response)

/-- The client has what it has asked for: a session that is mapped to the account
of the server, or peers to connect to. -/
def Served (acts : List ClientAct) : Prop :=
  if parties.peered then .mapSession parties.serverAccount ∈ acts
  else ∃ response, .setPeers response ∈ acts

def At : Stage → Conversation → Prop
  | .greeting, s => Shaking parties .greeting s ∧ s.serverWriting = false ∧
      s.client.crashed = false ∧ s.client.reads = 0 ∧ s.client.writes = 0
  | .greeted, s => Shaking parties .greeted s ∧ s.serverWriting = false ∧
      ∃ ready, Waits ready s.client
  | .challenged ready, s => Shaking parties .challenged s ∧ Waits ready s.client
  | .proving ready, s => (∃ consensus, Shaking parties (.proving consensus) s) ∧
      s.serverWriting = !ready ∧ ∃ ready, Waits ready s.client
  | .judged ready, s => Shaking parties (.judged true) s ∧ Waits ready s.client
  | .requesting ready, s => Opened parties s ∧ s.effects = [.answered true] ∧ s.toClient = [] ∧
      (∃ frame rest, s.toServer = frame :: rest ∧ IsAsked parties frame) ∧
      s.serverWriting = !ready ∧ ∃ ready, Waits ready s.client
  | .replied ready, s => Opened parties s ∧
      (∃ frame rest, s.toClient = frame :: rest ∧ IsAnswer parties frame) ∧ Waits ready s.client
  | .done, s => Opened parties s ∧ Served parties s.acts

/-- A step from a stage: it does not lead back, and leads on if it was awaited. -/
def Onward (stage : Stage) (event : Event) (s' : Conversation) : Prop :=
  ∃ next, At parties next s' ∧ NotBefore Stage.rank stage next ∧
    (stage ≠ .done → takes event stage.awaits → stage.rank < next.rank)

variable {parties} {s : Conversation} {stage : Stage}

section Waiting

variable {client : Pending} {ready : Bool}

theorem Waits.written (h : Waits ready client) (context : ClientContext) :
    Waits true (PendingOperations.step context (.written true) client) := by
  obtain ⟨hreads, hwrites, hintact⟩ := h
  cases ready with
  | false => constructor <;> simp [PendingOperations.step, Pending.begin, hreads, hwrites, hintact]
  | true => constructor <;> simp [PendingOperations.step, hreads, hwrites, hintact]

/-- Messages that are routed do not change what is pending of the session's own. -/
theorem Waits.outBound (h : Waits ready client) (context : ClientContext)
    {event : PendingOperations.Event}
    (hevent : event = .routeTransaction ∨ event = .outBoundWritten) :
    Waits ready (PendingOperations.step context event client) := by
  obtain ⟨hreads, hwrites, hintact⟩ := h
  rcases hevent with rfl | rfl <;>
    constructor <;> simp [PendingOperations.step, hreads, hwrites, hintact]

theorem not_reads_of_waits (h : Waits false s.client) : ¬ Reads s := by
  simp [Reads, h.reads]

theorem reads_of_waits (h : Waits true s.client) : Reads s := by
  simp [Reads, h.reads, h.intact]

/-- A frame that is answered leaves a write pending, and no read. -/
theorem Waits.answers (h : Waits true client) {answers : ClientAnswers} {data frame : Bytes}
    (before : List ClientAct)
    (hacts : clientActs parties answers data = some (before ++ [.write frame]))
    (hbefore : before.filterMap PendingOperations.operationOf = []) :
    Waits false (PendingOperations.step parties.clientContext (.read data answers) client) := by
  obtain ⟨hreads, hwrites, hintact⟩ := h
  obtain ⟨session, hsession, hdone⟩ := Option.map_eq_some_iff.mp hacts
  have hoperations : PendingOperations.operations session = [.write] := by
    rw [PendingOperations.operations, hdone, List.filterMap_append, hbefore]
    rfl
  constructor <;>
    simp [PendingOperations.step, hsession, hoperations, Pending.begin, hreads, hwrites, hintact]

end Waiting

section Onward

theorem notBefore_refl (stage : Stage) : NotBefore Stage.rank stage stage := Or.inl rfl

/-- A step that was not awaited and leaves the stage as it is. -/
theorem onward_same {event : Event} {s' : Conversation} (h : At parties stage s')
    (htakes : stage ≠ .done → ¬ takes event stage.awaits) : Onward parties stage event s' :=
  ⟨stage, h, notBefore_refl stage, fun hdone htaken => absurd htaken (htakes hdone)⟩

/-- A step that leads on. -/
theorem onward_next {event : Event} {s' : Conversation} (next : Stage) (h : At parties next s')
    (hrank : stage.rank < next.rank) : Onward parties stage event s' :=
  ⟨next, h, Or.inr hrank, fun _ _ => hrank⟩

theorem serverReads_toClient (answers : Answers) :
    ∃ more, (serverReads parties answers s).toClient = s.toClient ++ more := by
  unfold serverReads
  cases s.toServer with
  | nil => exact ⟨[], (List.append_nil _).symm⟩
  | cons data rest =>
    by_cases hreads : s.server.reading = true ∧ s.serverWriting = false
    · simp only [hreads, and_self, if_true]
      exact ⟨_, rfl⟩
    · simp only [hreads, if_false]
      exact ⟨[], (List.append_nil _).symm⟩

/-- What the client asked for is answered. -/
theorem asked_answered (hhex : HexInverse parties.hex) {answers : Answers}
    (hcreate : answers.createTransaction = true) (hregister : answers.registerPeer = true)
    {frame : Bytes} (hframe : IsAsked parties frame) {session : Session}
    (hhello : session.hello = some parties.greeting) :
    ∃ served, Session.onRead parties.serverContext answers frame session = (.writes, served) ∧
      IsAnswer parties served.buffer := by
  unfold IsAsked at hframe
  unfold IsAnswer
  cases hpeered : parties.peered with
  | true =>
    simp only [hpeered, if_true] at hframe ⊢
    obtain ⟨rpcPeer, rfl⟩ := hframe
    refine ⟨_, onRead_register hhex answers session hhello rpcPeer, ?_⟩
    simp [hcreate, hregister]
  | false =>
    simp only [hpeered, Bool.false_eq_true, if_false] at hframe ⊢
    subst hframe
    refine ⟨_, onRead_peers answers session hhello, answers.peerResponse, ?_⟩
    simp [hcreate]

theorem onward_serverReads (hhex : HexInverse parties.hex) (h : At parties stage s)
    {answers : Answers} (hanswering : Answering (.serverReads answers) s) :
    Onward parties stage (.serverReads answers) (serverReads parties answers s) := by
  obtain ⟨hcreate, hvalidate, hregister⟩ := hanswering
  obtain ⟨_, hacts, hclient, _⟩ := @serverReads_keeps parties s answers
  cases stage with
  | greeting =>
    rw [serverReads_of_nil answers h.1.toServer]
    exact onward_same h fun _ => id
  | greeted =>
    obtain ⟨hphase, hwriting, ready, hwaits⟩ := h
    have hnext := hphase.serverReads hhex hwriting answers
    simp only [afterServer, hcreate, if_true] at hnext
    refine onward_next (.challenged ready) ⟨hnext, ?_⟩ ?_
    · rw [hclient]
      exact hwaits
    · simp only [Stage.rank]
      omega
  | challenged ready =>
    rw [serverReads_of_nil answers h.1.toServer]
    exact onward_same h fun _ => by cases ready <;> exact id
  | proving ready =>
    obtain ⟨⟨consensus, hphase⟩, hwriting, ready', hwaits⟩ := h
    cases ready with
    | false =>
      rw [serverReads_of_writing answers hwriting]
      exact onward_same ⟨⟨consensus, hphase⟩, hwriting, ready', hwaits⟩ fun _ => id
    | true =>
      have hnext := hphase.serverReads hhex hwriting answers
      simp only [afterServer, hcreate, hvalidate] at hnext
      refine onward_next (.judged ready') ⟨hnext, ?_⟩ ?_
      · rw [hclient]
        exact hwaits
      · simp only [Stage.rank, Bool.toNat_true]
        omega
  | judged ready =>
    rw [serverReads_of_nil answers h.1.toServer]
    exact onward_same h fun _ => by cases ready <;> exact id
  | requesting ready =>
    obtain ⟨hopened, heffects, htoClient, ⟨frame, rest, htoServer, hasked⟩, hwriting, ready',
      hwaits⟩ := h
    cases ready with
    | false =>
      rw [serverReads_of_writing answers hwriting]
      exact onward_same ⟨hopened, heffects, htoClient, ⟨frame, rest, htoServer, hasked⟩, hwriting,
        ready', hwaits⟩ fun _ => id
    | true =>
      obtain ⟨served, hread, hanswer⟩ :=
        asked_answered hhex hcreate hregister hasked hopened.hello
      refine onward_next (.replied ready') ⟨hopened.serverReads hhex answers, ?_, ?_⟩ ?_
      · refine ⟨served.buffer, [], ?_, hanswer⟩
        have hnot : ¬ s.serverWriting = true := by simp [hwriting]
        rw [serverReads_of_cons htoServer hopened.reading hread, if_neg hnot, htoClient]
        rfl
      · rw [hclient]
        exact hwaits
      · simp only [Stage.rank, Bool.toNat_true]
        omega
  | replied ready =>
    obtain ⟨hopened, ⟨frame, rest, htoClient, hanswer⟩, hwaits⟩ := h
    obtain ⟨more, hmore⟩ := @serverReads_toClient parties s answers
    refine onward_same ⟨hopened.serverReads hhex answers, ⟨frame, rest ++ more, ?_, hanswer⟩, ?_⟩ ?_
    · rw [hmore, htoClient]
      rfl
    · rw [hclient]
      exact hwaits
    · intro _
      cases ready <;> exact id
  | done =>
    refine onward_same ⟨h.1.serverReads hhex answers, ?_⟩ fun hdone => absurd rfl hdone
    rw [hacts]
    exact h.2

/-- What an accepted client asks, and that it can be asked. -/
theorem request_isAsked {answers : ClientAnswers}
    (hrouting : answers.nodeAccountRouting.isSome = true) :
    ∃ frame, request parties answers = some frame ∧ IsAsked parties frame := by
  obtain ⟨rpcPeer, hrpcPeer⟩ := Option.isSome_iff_exists.mp hrouting
  unfold request IsAsked
  cases hpeered : parties.peered with
  | true => exact ⟨_, by simp [hrpcPeer], rpcPeer, rfl⟩
  | false => exact ⟨_, rfl, rfl⟩

/-- The answer to what the client asked serves it. -/
theorem answer_serves (hhex : HexInverse parties.hex) {answers : ClientAnswers}
    (hcreate : answers.createTransaction = true) {frame : Bytes}
    (hframe : IsAnswer parties frame) :
    ∃ acts, clientActs parties answers frame = some acts ∧ Served parties acts := by
  unfold IsAnswer at hframe
  unfold Served
  cases hpeered : parties.peered with
  | true =>
    simp only [hpeered, if_true] at hframe ⊢
    subst hframe
    exact ⟨_, clientActs_register hhex answers _, by simp [hcreate]⟩
  | false =>
    simp only [hpeered, Bool.false_eq_true, if_false] at hframe ⊢
    obtain ⟨response, rfl⟩ := hframe
    exact ⟨_, clientActs_peers hhex answers response, response, by simp [hcreate]⟩

theorem Served.append {acts : List ClientAct} (h : Served parties acts) (more : List ClientAct) :
    Served parties (acts ++ more) ∧ Served parties (more ++ acts) := by
  unfold Served at h ⊢
  cases hpeered : parties.peered with
  | true =>
    simp only [hpeered, if_true] at h ⊢
    exact ⟨List.mem_append_left more h, List.mem_append_right more h⟩
  | false =>
    simp only [hpeered, Bool.false_eq_true, if_false] at h ⊢
    obtain ⟨response, hresponse⟩ := h
    exact ⟨⟨response, List.mem_append_left more hresponse⟩,
      response, List.mem_append_right more hresponse⟩

theorem clientReads_acts (answers : ClientAnswers) :
    ∃ more, (clientReads parties answers s).acts = s.acts ++ more := by
  unfold clientReads
  cases s.toClient with
  | nil => exact ⟨[], (List.append_nil _).symm⟩
  | cons data rest =>
    by_cases hreads : 0 < s.client.reads ∧ s.client.crashed = false
    · simp only [hreads, and_self, if_true]
      exact ⟨_, rfl⟩
    · simp only [hreads, if_false]
      exact ⟨[], (List.append_nil _).symm⟩

theorem exists_ready (writing : Bool) : ∃ ready, writing = !ready :=
  ⟨!writing, (Bool.not_not _).symm⟩

theorem onward_clientReads (hhex : HexInverse parties.hex) (h : At parties stage s)
    {answers : ClientAnswers} (hanswering : Answering (.clientReads answers) s) :
    Onward parties stage (.clientReads answers) (clientReads parties answers s) := by
  obtain ⟨hcreate, hcommit, hconsensus, hrouting⟩ := hanswering
  cases stage with
  | greeting =>
    rw [clientReads_of_nil answers h.1.toClient]
    exact onward_same h fun _ => id
  | greeted =>
    rw [clientReads_of_nil answers h.1.toClient]
    exact onward_same h fun _ => id
  | challenged ready =>
    cases ready with
    | false =>
      rw [clientReads_of_not (not_reads_of_waits h.2)]
      exact onward_same h fun _ => id
    | true =>
      obtain ⟨consensus, hsome⟩ := Option.isSome_iff_exists.mp hconsensus
      have hreads := reads_of_waits h.2
      have hnext := h.1.clientReads hhex hreads (by simp) answers
      simp only [afterClient, hcreate, hsome] at hnext
      have hacts := clientActs_challenge hhex answers
      simp only [hcreate, if_true, hsome, sends, hcommit] at hacts
      obtain ⟨ready, hready⟩ := exists_ready (clientReads parties answers s).serverWriting
      refine onward_next (.proving ready) ⟨⟨consensus, hnext⟩, hready, false, ?_⟩ ?_
      · rw [clientReads_of_cons h.1.toClient hacts, if_pos hreads]
        exact h.2.answers [_] hacts rfl
      · simp only [Stage.rank, Bool.toNat_true]
        omega
  | proving ready =>
    obtain ⟨⟨consensus, hphase⟩, hrest⟩ := h
    rw [clientReads_of_nil answers hphase.toClient]
    exact onward_same ⟨⟨consensus, hphase⟩, hrest⟩ fun _ => by cases ready <;> exact id
  | judged ready =>
    cases ready with
    | false =>
      rw [clientReads_of_not (not_reads_of_waits h.2)]
      exact onward_same h fun _ => id
    | true =>
      obtain ⟨frame, hrequest, hasked⟩ := @request_isAsked parties _ hrouting
      have hreads := reads_of_waits h.2
      have hopened := h.1.accept hreads answers
      have hacts := @clientActs_accepted parties answers
      simp only [hcreate, if_true, hrequest, sends, hcommit] at hacts
      have hread := clientReads_of_cons h.1.toClient hacts
      rw [if_pos hreads] at hread
      rw [hread] at hopened ⊢
      obtain ⟨ready, hready⟩ := exists_ready s.serverWriting
      refine onward_next (.requesting ready)
        ⟨hopened, h.1.effects, rfl, ⟨frame, [], ?_, hasked⟩, hready, false, ?_⟩ ?_
      · rw [h.1.toServer]
        rfl
      · exact h.2.answers [] hacts rfl
      · simp only [Stage.rank, Bool.toNat_true]
        omega
  | requesting ready =>
    rw [clientReads_of_nil answers h.2.2.1]
    exact onward_same h fun _ => by cases ready <;> exact id
  | replied ready =>
    cases ready with
    | false =>
      rw [clientReads_of_not (not_reads_of_waits h.2.2)]
      exact onward_same h fun _ => id
    | true =>
      obtain ⟨hopened, ⟨frame, rest, htoClient, hanswer⟩, hwaits⟩ := h
      obtain ⟨acts, hacts, hserved⟩ := answer_serves hhex hcreate hanswer
      refine onward_next .done ⟨hopened.clientReads hhex answers, ?_⟩ (by decide)
      rw [clientReads_of_cons htoClient hacts, if_pos (reads_of_waits hwaits)]
      exact (hserved.append s.acts).2
  | done =>
    obtain ⟨more, hmore⟩ := @clientReads_acts parties s answers
    refine onward_same ⟨h.1.clientReads hhex answers, ?_⟩ fun hdone => absurd rfl hdone
    rw [hmore]
    exact (h.2.append more).1

theorem onward_serverWritten (h : At parties stage s) :
    Onward parties stage .serverWritten (step parties .serverWritten s) := by
  by_cases hwriting : s.serverWriting = true
  · simp only [step, hwriting, if_true]
    cases stage with
    | greeting => exact absurd hwriting (by simp [h.2.1])
    | greeted => exact absurd hwriting (by simp [h.2.1])
    | challenged ready =>
      exact onward_same ⟨{ h.1 with }, h.2⟩ fun _ => by cases ready <;> exact id
    | proving ready =>
      obtain ⟨⟨consensus, hphase⟩, hready, hwaits⟩ := h
      cases ready with
      | true => exact absurd hwriting (by simp [hready])
      | false =>
        exact onward_next (.proving true) ⟨⟨consensus, { hphase with }⟩, rfl, hwaits⟩ (by decide)
    | judged ready => exact onward_same ⟨{ h.1 with }, h.2⟩ fun _ => by cases ready <;> exact id
    | requesting ready =>
      obtain ⟨hopened, heffects, htoClient, hasked, hready, hwaits⟩ := h
      cases ready with
      | true => exact absurd hwriting (by simp [hready])
      | false =>
        exact onward_next (.requesting true) ⟨{ hopened with buffer := fun _ => .empty }, heffects,
          htoClient, hasked, rfl, hwaits⟩ (by decide)
    | replied ready =>
      exact onward_same ⟨{ h.1 with buffer := fun _ => .empty }, h.2⟩ fun _ => by
        cases ready <;> exact id
    | done =>
      exact onward_same ⟨{ h.1 with buffer := fun _ => .empty }, h.2⟩ fun hdone => absurd rfl hdone
  · simp only [step, hwriting]
    refine onward_same h fun _ htakes => ?_
    cases stage with
    | proving ready =>
      cases ready with
      | true => exact htakes
      | false => exact hwriting h.2.1
    | requesting ready =>
      cases ready with
      | true => exact htakes
      | false => exact hwriting h.2.2.2.2.1
    | greeting => exact htakes
    | greeted => exact htakes
    | done => exact htakes
    | _ ready => cases ready <;> exact htakes

/-- A stage in which the client goes on from a write that was pending. -/
theorem onward_ready (stageOf : Bool → Stage) {ready : Bool} {s' : Conversation}
    (hrank : (stageOf false).rank < (stageOf true).rank)
    (hawaits : (stageOf true).awaits = .clientReads) (h : At parties (stageOf true) s') :
    Onward parties (stageOf ready) .clientWritten s' := by
  cases ready with
  | false => exact onward_next (stageOf true) h hrank
  | true =>
    refine onward_same h fun _ => ?_
    rw [hawaits]
    exact id

theorem onward_clientWritten (h : At parties stage s) :
    Onward parties stage .clientWritten (step parties .clientWritten s) := by
  have hconnected := connected_step parties.clientContext (.written true) (by simp) s.client
  have hwritten : ∀ ready, Waits ready s.client → Waits true
      (PendingOperations.step parties.clientContext (.written true) s.client) :=
    fun _ hwaits => hwaits.written parties.clientContext
  rw [step]
  cases stage with
  | greeting =>
    obtain ⟨hphase, hwriting, hintact, hreads, hwrites⟩ := h
    have hsame : PendingOperations.step parties.clientContext (.written true) s.client =
        s.client := by simp [PendingOperations.step, hintact, hwrites]
    rw [hsame]
    exact onward_same ⟨hphase, hwriting, hintact, hreads, hwrites⟩ fun _ => id
  | greeted =>
    obtain ⟨hphase, hwriting, ready, hwaits⟩ := h
    exact onward_same ⟨phase_of_client hphase _ hconnected, hwriting, true, hwritten _ hwaits⟩
      fun _ => id
  | challenged ready =>
    exact onward_ready .challenged (by decide) rfl
      ⟨phase_of_client h.1 _ hconnected, hwritten _ h.2⟩
  | proving ready =>
    obtain ⟨⟨consensus, hphase⟩, hready, ready', hwaits⟩ := h
    exact onward_same ⟨⟨consensus, phase_of_client hphase _ hconnected⟩, hready, true,
      hwritten _ hwaits⟩ fun _ => by cases ready <;> exact id
  | judged ready =>
    exact onward_ready .judged (by decide) rfl
      ⟨phase_of_client h.1 _ hconnected, hwritten _ h.2⟩
  | requesting ready =>
    obtain ⟨hopened, heffects, htoClient, hasked, hready, ready', hwaits⟩ := h
    exact onward_same ⟨hopened.of_client _ hconnected, heffects, htoClient, hasked, hready, true,
      hwritten _ hwaits⟩ fun _ => by cases ready <;> exact id
  | replied ready =>
    exact onward_ready .replied (by decide) rfl
      ⟨h.1.of_client _ hconnected, h.2.1, hwritten _ h.2.2⟩
  | done =>
    exact onward_same ⟨h.1.of_client _ hconnected, h.2⟩ fun hdone => absurd rfl hdone

/-- The stage does not depend on the routed messages that a client writes. -/
theorem at_outBound (h : At parties stage s) {event : PendingOperations.Event}
    (hevent : event = .routeTransaction ∨ event = .outBoundWritten) :
    At parties stage { s with
      client := PendingOperations.step parties.clientContext event s.client } := by
  have hconnected : (PendingOperations.step parties.clientContext event s.client).connected =
      s.client.connected := by
    rcases hevent with rfl | rfl <;> exact connected_step _ _ (by simp) _
  have hwaits : ∀ ready, Waits ready s.client →
      Waits ready (PendingOperations.step parties.clientContext event s.client) :=
    fun _ hwaits => hwaits.outBound parties.clientContext hevent
  cases stage with
  | greeting =>
    obtain ⟨hphase, hwriting, hintact, hreads, hwrites⟩ := h
    refine ⟨phase_of_client hphase _ hconnected, hwriting, ?_⟩
    rcases hevent with rfl | rfl <;> simp [PendingOperations.step, hintact, hreads, hwrites]
  | greeted =>
    obtain ⟨hphase, hwriting, ready, hready⟩ := h
    exact ⟨phase_of_client hphase _ hconnected, hwriting, ready, hwaits _ hready⟩
  | challenged ready => exact ⟨phase_of_client h.1 _ hconnected, hwaits _ h.2⟩
  | proving ready =>
    obtain ⟨⟨consensus, hphase⟩, hwriting, ready', hready⟩ := h
    exact ⟨⟨consensus, phase_of_client hphase _ hconnected⟩, hwriting, ready', hwaits _ hready⟩
  | judged ready => exact ⟨phase_of_client h.1 _ hconnected, hwaits _ h.2⟩
  | requesting ready =>
    obtain ⟨hopened, heffects, htoClient, hasked, hwriting, ready', hready⟩ := h
    exact ⟨hopened.of_client _ hconnected, heffects, htoClient, hasked, hwriting, ready',
      hwaits _ hready⟩
  | replied ready => exact ⟨h.1.of_client _ hconnected, h.2.1, hwaits _ h.2.2⟩
  | done => exact ⟨h.1.of_client _ hconnected, h.2⟩

theorem connected_of_at (h : At parties stage s) (hstage : stage ≠ .greeting) :
    s.client.connected = true := by
  cases stage with
  | greeting => exact absurd rfl hstage
  | greeted => exact h.1.connected.mpr (by simp)
  | challenged ready => exact h.1.connected.mpr (by simp)
  | proving ready => exact h.1.choose_spec.connected.mpr (by simp)
  | judged ready => exact h.1.connected.mpr (by simp)
  | requesting ready => exact h.1.connected
  | replied ready => exact h.1.connected
  | done => exact h.1.connected

theorem onward_handshake (h : At parties stage s) :
    Onward parties stage .handshake (step parties .handshake s) := by
  by_cases hstage : stage = .greeting
  · subst hstage
    obtain ⟨hphase, hwriting, hintact, hreads, hwrites⟩ := h
    have hconnected : ¬ s.client.connected = true := by simp [hphase.connected]
    simp only [step, hconnected]
    refine onward_next .greeted ⟨hphase.greet hconnected hintact, hwriting, false, ?_⟩ (by decide)
    constructor <;>
      simp [PendingOperations.step, Pending.begin, hintact, hconnected, hreads, hwrites]
  · simp only [step, connected_of_at h hstage, if_true]
    refine onward_same h fun hdone htakes => ?_
    have hawaits : ∀ ready : Bool, ¬ takes .handshake
        (if ready then Turn.clientReads else .clientWritten) ∧ ¬ takes .handshake
        (if ready then Turn.serverReads else .serverWritten) := by
      intro ready
      cases ready <;> exact ⟨id, id⟩
    cases stage with
    | greeting => exact hstage rfl
    | greeted => exact htakes
    | challenged ready => exact (hawaits ready).1 htakes
    | proving ready => exact (hawaits ready).2 htakes
    | judged ready => exact (hawaits ready).1 htakes
    | requesting ready => exact (hawaits ready).2 htakes
    | replied ready => exact (hawaits ready).1 htakes
    | done => exact hdone rfl

/-- A message that the client routes goes behind what it has asked before. -/
theorem onward_clientRoutes (h : At parties stage s) {wrapper : MessageWrapper}
    (hroutes : RoutesOnceAccepted (.clientRoutes wrapper) s) :
    Onward parties stage (.clientRoutes wrapper) (step parties (.clientRoutes wrapper) s) := by
  have hsent := at_outBound h (Or.inl rfl : PendingOperations.Event.routeTransaction = _ ∨ _)
  let sent := (RpcSession.routeTransaction parties.toCodec wrapper).written
  have hrequests : ∀ {s'}, Opened parties s' →
      Opened parties { s' with toServer := s'.toServer ++ [sent] } := by
    intro s' hopened
    refine { hopened with requests := ?_ }
    intro frame hmem
    rcases List.mem_append.mp hmem with hmem | hmem
    · exact hopened.requests frame hmem
    · obtain rfl := List.mem_singleton.mp hmem
      exact .transaction _
  have hnot : ∀ phase, ¬ Shaking parties phase s := by
    intro phase hphase
    exact absurd hroutes (by simp [RoutesOnceAccepted, hphase.accepted])
  have hkind : ∀ turn, ¬ takes (.clientRoutes wrapper) turn := by
    intro turn
    cases turn <;> exact id
  by_cases hconnected : s.client.connected = true
  · simp only [step, hconnected, if_true]
    refine onward_same ?_ fun _ => hkind _
    cases stage with
    | requesting ready =>
      obtain ⟨hopened, heffects, htoClient, ⟨frame, rest, htoServer, hasked⟩, hrest⟩ := hsent
      exact ⟨hrequests hopened, heffects, htoClient,
        ⟨frame, rest ++ [_], by rw [show s.toServer = _ from htoServer]; rfl, hasked⟩, hrest⟩
    | replied ready => exact ⟨hrequests hsent.1, hsent.2⟩
    | done => exact ⟨hrequests hsent.1, hsent.2⟩
    | proving ready => exact absurd h.1.choose_spec (hnot _)
    | _ => exact absurd h.1 (hnot _)
  · simp only [step, hconnected]
    exact onward_same h fun _ => hkind _

/-- What the server routes goes behind its answers. -/
theorem onward_serverRoutes (h : At parties stage s) (wrapper : MessageWrapper) :
    Onward parties stage (.serverRoutes wrapper) (step parties (.serverRoutes wrapper) s) := by
  have hkind : ∀ turn, ¬ takes (.serverRoutes wrapper) turn := by
    intro turn
    cases turn <;> exact id
  refine onward_same ?_ fun _ => hkind _
  by_cases hbound : bound s.effects = true
  · simp only [step, hbound, if_true]
    have hreplies : ∀ {frame}, Opened parties s → frame ∈ s.toClient ++
        [(Session.routeTransaction parties.toCodec wrapper s.server.session).written] →
        IsReply parties s.effects frame := by
      intro frame hopened hmem
      rcases List.mem_append.mp hmem with hmem | hmem
      · exact hopened.replies frame hmem
      · obtain rfl := List.mem_singleton.mp hmem
        exact hopened.buffer hbound
    have hnot : ∀ phase, ¬ Shaking parties phase s := by
      intro phase hphase
      exact absurd hbound (by simp [hphase.not_bound])
    cases stage with
    | requesting ready => exact absurd hbound (by simp [h.2.1, bound])
    | replied ready =>
      obtain ⟨hopened, ⟨frame, rest, htoClient, hanswer⟩, hwaits⟩ := h
      exact ⟨{ hopened with replies := fun _ => hreplies hopened },
        ⟨frame, rest ++ [_], by rw [htoClient]; rfl, hanswer⟩, hwaits⟩
    | done => exact ⟨{ h.1 with replies := fun _ => hreplies h.1 }, h.2⟩
    | proving ready => exact absurd h.1.choose_spec (hnot _)
    | _ => exact absurd h.1 (hnot _)
  · simp only [step, hbound]
    exact h

theorem onward_step (hhex : HexInverse parties.hex) {event : Event} (h : At parties stage s)
    (hanswering : Answering event s) : Onward parties stage event (step parties event s) := by
  cases event with
  | handshake => exact onward_handshake h
  | serverReads answers => exact onward_serverReads hhex h hanswering
  | serverWritten => exact onward_serverWritten h
  | serverRoutes wrapper => exact onward_serverRoutes h wrapper
  | clientReads answers => exact onward_clientReads hhex h hanswering
  | clientWritten => exact onward_clientWritten h
  | clientRoutes wrapper => exact onward_clientRoutes h hanswering
  | outBoundWritten =>
    refine onward_same (at_outBound h (Or.inr rfl)) fun _ => ?_
    cases stage.awaits <;> exact id

theorem advances (hhex : HexInverse parties.hex) :
    Advances (step parties) (At parties) Stage.rank (· = .done) Answering Stage.awaits takes where
  stays h hanswering := by
    obtain ⟨next, hnext, hbefore, _⟩ := onward_step hhex h hanswering
    exact ⟨next, hnext, hbefore⟩
  leaves h hanswering hdone htakes := by
    obtain ⟨next, hnext, _, hrank⟩ := onward_step hhex h hanswering
    exact ⟨next, hnext, hrank hdone htakes⟩
  ends := by
    rintro _ j rfl hbefore
    rcases hbefore with rfl | hrank
    · rfl
    · cases j with
      | greeting => exact absurd hrank (by decide)
      | greeted => exact absurd hrank (by decide)
      | done => rfl
      | _ ready => cases ready <;> exact absurd hrank (by decide)

theorem at_start : At parties .greeting start := by
  refine ⟨?_, rfl, rfl, rfl, rfl⟩
  constructor <;> simp [start, shape, Observed.start, Session.start, Pending.start]

/-- Answering modules route no message too early. -/
theorem routes_of_answering {event : Event} (h : Answering event s) :
    RoutesOnceAccepted event s := by
  cases event with
  | serverReads answers => trivial
  | clientReads answers => trivial
  | _ => exact h

/-- After twelve rounds the client has what it connected for, whatever the order of
the steps in a round and whatever is routed meanwhile. The server has let it in,
and has a peer in its cache. -/
theorem served_after_rounds (hhex : HexInverse parties.hex) {rounds : List (List Event)}
    (hrounds : ∀ events ∈ rounds, IsRound takes events) (hlong : 12 ≤ rounds.length)
    (hanswering : Along (step parties) Answering start rounds.flatten) :
    Served parties (run (step parties) start rounds.flatten).acts ∧
      (run (step parties) start rounds.flatten).server.GateOpen ∧
      (parties.peered = true → .addAccount parties.greeting ∈
        (run (step parties) start rounds.flatten).effects) := by
  have hbound : ∀ stage : Stage, ¬ stage = .done → stage.rank < 12 := by
    intro stage hstage
    cases stage with
    | done => exact absurd rfl hstage
    | greeting => decide
    | greeted => decide
    | _ ready => cases ready <;> decide
  obtain ⟨stage, hstage, rfl⟩ := (advances hhex).finished_after_rounds hbound at_start hrounds
    (by simpa [Stage.rank] using hlong) hanswering
  obtain ⟨hopened, hserved⟩ := hstage
  refine ⟨hserved, ⟨by simp [hopened.hello], hopened.answered⟩, ?_⟩
  intro hpeered
  have hordered := ordered_run hhex (along_mono (fun _ _ => routes_of_answering) hanswering)
  rw [Served, if_pos hpeered] at hserved
  exact (hordered.agreed _ hserved).2.2.2

def plainRound : List Event :=
  [.clientWritten, .handshake, .serverReads (answering true), .clientReads clientAnswering,
    .serverWritten]

theorem served_after_twelve :
    Served plainParties
      (run (step plainParties) start (List.replicate 12 plainRound).flatten).acts := by
  refine (served_after_rounds hexInverse_botan ?_ ?_ ?_).1
  · intro events hevents
    obtain rfl := List.eq_of_mem_replicate hevents
    intro turn
    cases turn <;> simp [plainRound, takes]
  · exact Nat.le_refl 12
  · refine along_of_mem ?_
    intro event hevent s
    obtain ⟨events, hround, hmem⟩ := List.mem_flatten.mp hevent
    obtain rfl := List.eq_of_mem_replicate hround
    simp only [plainRound, List.mem_cons, List.not_mem_nil, or_false] at hmem
    rcases hmem with rfl | rfl | rfl | rfl | rfl <;>
      simp [Answering, RoutesOnceAccepted, answering, clientAnswering]

end Onward

end Keto.Rpc.Conversation
