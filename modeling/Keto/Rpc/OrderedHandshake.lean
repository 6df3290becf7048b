import Keto.Rpc.Conversation

/-!
The handshake that the sessions of a client and a server go through, whoever is
kept waiting and whatever the modules behind them do. Until the client is
accepted there is one frame on its way at most, so that the phase of the handshake
tells both ends of it; from then on the server gets requests and the client gets
replies, and no frame changes the verdict any more.
-/
namespace Keto.Rpc.Conversation

open Protocol AccountDb Library.Stateful Library.Runs
open HandshakeGate (Observed Frame Guarded guarded_iff Orderly InOrder processes lastAnswer)
open PendingOperations (Pending)

/-- How far the handshake has come before the client is accepted. It stalls where
a handler throws: then each side reads and neither writes. -/
inductive Phase
  | greeting
  | greeted
  | challenged
  | proving (consensus : Bytes)
  | judged (valid : Bool)
  | rejected
  | stalled (hello : Option Bytes) (unread : Bool)

structure Shape where
  toServer : List Bytes
  toClient : List Bytes
  hello : Option Bytes
  answered : Option Bool
  effects : List Effect

variable (parties : Parties)

def shape : Phase → Shape
  | .greeting => ⟨[], [], none, none, []⟩
  | .greeted => ⟨[parties.helloFrame], [], none, none, []⟩
  | .challenged => ⟨[], [parties.challenge], some parties.greeting, none, []⟩
  | .proving consensus => ⟨[parties.proof consensus], [], some parties.greeting, none, []⟩
  | .judged valid => ⟨[], [verdict valid], some parties.greeting, some valid, [.answered valid]⟩
  | .rejected => ⟨[], [], some parties.greeting, some false, [.answered false]⟩
  | .stalled hello unread => ⟨[], if unread then [[]] else [], hello, none, []⟩

structure Shaking (phase : Phase) (s : Conversation) : Prop where
  toServer : s.toServer = (shape parties phase).toServer
  toClient : s.toClient = (shape parties phase).toClient
  hello : s.server.session.hello = (shape parties phase).hello
  answered : s.server.answered = (shape parties phase).answered
  effects : s.effects = (shape parties phase).effects
  reading : s.server.reading = true
  connected : s.client.connected = true ↔ phase ≠ .greeting
  accepted : s.accepted = false

inductive IsRequest : Bytes → Prop
  | peers : IsRequest peersRequest
  | register (rpcPeer : Bytes) :
    IsRequest (buildMessage .register (parties.hex.hexEncode rpcPeer))
  | transaction (message : Bytes) :
    IsRequest (buildMessage .transaction (parties.hex.hexEncode message))

inductive IsReply (effects : List Effect) : Bytes → Prop
  | empty : IsReply effects []
  | peers (response : Bytes) :
    IsReply effects (buildMessage .peers (parties.hex.hexEncode response))
  | register (hadded : .addAccount parties.greeting ∈ effects) :
    IsReply effects (buildMessage .register (parties.hex.hexEncode parties.serverAccount))
  | processed (response : Bytes) :
    IsReply effects (buildMessage .transactionProcessed (parties.hex.hexEncode response))

/-- The account of an effect is the greeted one, or the server's own in its list of
peers. The record of a peer is the client's bytes, which the server does not read. -/
def Own : Effect → Prop
  | .answered _ => True
  | .registerPeer _ => True
  | .addPeer account => account = parties.greeting ∨ account = parties.serverAccount
  | .addAccount account => account = parties.greeting
  | .removeAccount _ => False
  | .routeMessage wrapper => wrapper.sessionHash = parties.greeting

/-- The conversation of an accepted client. What the buffer holds is sent when a
message is routed, from the registration on. -/
structure Opened (s : Conversation) : Prop where
  requests : ∀ frame ∈ s.toServer, IsRequest parties frame
  replies : ∀ frame ∈ s.toClient, IsReply parties s.effects frame
  buffer : bound s.effects = true → IsReply parties s.effects s.server.session.buffer
  hello : s.server.session.hello = some parties.greeting
  answered : s.server.answered = some true
  own : ∀ effect ∈ s.effects, Own parties effect
  judged : .answered true ∈ s.effects
  reading : s.server.reading = true
  connected : s.client.connected = true
  accepted : s.accepted = true

def Agreed (s : Conversation) : ClientAct → Prop
  | .updateSessionKey sessionKey => sessionKey = parties.secret
  | .setPeers _ => s.accepted = true ∧ .answered true ∈ s.effects
  | .mapSession account => account = parties.serverAccount ∧ s.accepted = true ∧
      .answered true ∈ s.effects ∧ .addAccount parties.greeting ∈ s.effects
  | .routeMessage _ => False
  | _ => True

/-- One phase after the other, and both sides agree on what was done. -/
structure Ordered (s : Conversation) : Prop where
  phase : (∃ phase, Shaking parties phase s) ∨ Opened parties s
  intact : s.client.crashed = false
  agreed : ∀ act ∈ s.acts, Agreed parties s act

variable {parties} {s : Conversation}

section Reads

variable {data : Bytes} {rest : List Bytes}

theorem serverReads_of_nil (answers : Answers) (h : s.toServer = []) :
    serverReads parties answers s = s := by
  rw [serverReads, h]

/-- A frame that the server reads and answers. -/
theorem serverReads_of_cons {answers : Answers} {session : Session} (h : s.toServer = data :: rest)
    (hreading : s.server.reading = true)
    (hread : Session.onRead parties.serverContext answers data s.server.session =
      (.writes, session)) :
    serverReads parties answers s = if s.serverWriting then s else
      { s with
        server := ⟨session, lastAnswer s.server.answered session.effects, true⟩
        serverWriting := true
        effects := s.effects ++ session.effects
        toServer := rest
        toClient := s.toClient ++ [session.buffer] } := by
  cases hwriting : s.serverWriting with
  | true => simp [serverReads, h, hwriting]
  | false => simp [serverReads, h, hreading, hwriting, HandshakeGate.step, hread]

def Reads (s : Conversation) : Prop := 0 < s.client.reads ∧ s.client.crashed = false

instance (s : Conversation) : Decidable (Reads s) := inferInstanceAs (Decidable (_ ∧ _))

theorem clientReads_of_nil (answers : ClientAnswers) (h : s.toClient = []) :
    clientReads parties answers s = s := by
  rw [clientReads, h]

theorem clientReads_of_cons {answers : ClientAnswers} {acts : List ClientAct}
    (h : s.toClient = data :: rest) (hacts : clientActs parties answers data = some acts) :
    clientReads parties answers s = if Reads s then
      { s with
        client := PendingOperations.step parties.clientContext (.read data answers) s.client
        acts := s.acts ++ acts
        toServer := s.toServer ++ frames acts
        toClient := rest
        accepted := s.accepted || commandOf data == some .accepted }
      else s := by
  rw [clientActs] at hacts
  simp only [clientReads, h, hacts, Option.getD_some]
  rfl

theorem begin_keeps (pending : Pending) (operations : List PendingOperations.Operation) :
    (operations.foldl Pending.begin pending).connected = pending.connected ∧
      (operations.foldl Pending.begin pending).crashed = pending.crashed := by
  induction operations generalizing pending with
  | nil => exact ⟨rfl, rfl⟩
  | cons operation operations ih =>
    rw [List.foldl_cons, (ih _).1, (ih _).2]
    cases operation <;> exact ⟨rfl, rfl⟩

/-- Only the handshake connects a session. -/
theorem connected_step (context : ClientContext) (event : PendingOperations.Event)
    (hevent : event ≠ .handshake) (pending : Pending) :
    (PendingOperations.step context event pending).connected = pending.connected := by
  unfold PendingOperations.step
  by_cases hcrashed : pending.crashed = true
  · rw [if_pos hcrashed]
  · rw [if_neg hcrashed]
    cases event with
    | handshake => exact absurd rfl hevent
    | read data answers =>
      by_cases hread : 0 < pending.reads
      · simp only [hread, if_true]
        cases RpcSession.onRead context answers data with
        | none => rfl
        | some session => exact (begin_keeps _ _).1
      · simp only [hread, if_false]
    | written ok =>
      cases ok <;> by_cases hwrite : 0 < pending.writes <;> simp [hwrite, Pending.begin]
    | _ => rfl

/-- Only a token that is not there crashes a session. -/
theorem crashed_step (context : ClientContext) (event : PendingOperations.Event)
    (hevent : ∀ data answers, event = .read data answers →
      (RpcSession.onRead context answers data).isSome = true) {pending : Pending}
    (hpending : pending.crashed = false) :
    (PendingOperations.step context event pending).crashed = false := by
  simp only [PendingOperations.step, hpending, Bool.false_eq_true, if_false]
  cases event with
  | handshake => cases hconnected : pending.connected <;> simp [Pending.begin, hpending]
  | read data answers =>
    by_cases hread : 0 < pending.reads
    · obtain ⟨session, hsession⟩ := Option.isSome_iff_exists.mp (hevent data answers rfl)
      simp only [hread, if_true, hsession]
      exact (begin_keeps _ _).2
    · simp only [hread, if_false]
      exact hpending
  | written ok => cases ok <;> by_cases hwrite : 0 < pending.writes <;> simp [hwrite, Pending.begin,
      hpending]
  | _ => rfl

end Reads

section Shaking

variable {phase : Phase}

def afterServer (parties : Parties) (answers : Answers) : Phase → Phase
  | .greeted => if answers.createTransaction then .challenged else .stalled none true
  | .proving _ =>
    match answers.createTransaction, answers.validateConsensus with
    | true, some valid => .judged valid
    | _, _ => .stalled (some parties.greeting) true
  | phase => phase

def afterClient (parties : Parties) (answers : ClientAnswers) : Phase → Phase
  | .challenged =>
    match answers.createTransaction, answers.consensus with
    | true, some consensus => .proving consensus
    | _, _ => .stalled (some parties.greeting) false
  | .judged _ => .rejected
  | .stalled hello _ => .stalled hello false
  | phase => phase

/-- The server has read the one frame on its way, and has answered it. -/
theorem Shaking.answer {next : Phase} {answers : Answers} {data : Bytes} {session : Session}
    (h : Shaking parties phase s) (hwriting : s.serverWriting = false)
    (hread : Session.onRead parties.serverContext answers data s.server.session =
      (.writes, session))
    (hphase : (shape parties phase).toServer = [data] ∧ (shape parties phase).toClient = [] ∧
      phase ≠ .greeting)
    (hnext : shape parties next = ⟨[], [session.buffer], session.hello,
      lastAnswer (shape parties phase).answered session.effects,
      (shape parties phase).effects ++ session.effects⟩ ∧ next ≠ .greeting) :
    Shaking parties next (serverReads parties answers s) := by
  obtain ⟨htoServer, htoClient, hgreeted⟩ := hphase
  have hconnected : s.client.connected = true := h.connected.mpr hgreeted
  rw [serverReads_of_cons (h.toServer.trans htoServer) h.reading hread, hwriting]
  constructor
  · rw [hnext.1]
    rfl
  · rw [hnext.1]
    show s.toClient ++ [session.buffer] = [session.buffer]
    rw [h.toClient, htoClient, List.nil_append]
  · rw [hnext.1]
    rfl
  · rw [hnext.1, ← h.answered]
    rfl
  · rw [hnext.1, ← h.effects]
    rfl
  · rfl
  · exact ⟨fun _ => hnext.2, fun _ => hconnected⟩
  · exact h.accepted

theorem Shaking.serverReads (h : Shaking parties phase s) (hhex : HexInverse parties.hex)
    (hwriting : s.serverWriting = false) (answers : Answers) :
    Shaking parties (afterServer parties answers phase) (serverReads parties answers s) := by
  cases phase with
  | greeted =>
    refine h.answer hwriting (onRead_hello hhex answers _) ⟨rfl, rfl, by simp⟩ ?_
    have hnone : s.server.session.hello = none := h.hello
    cases hcreate : answers.createTransaction <;>
      simp [afterServer, hcreate, shape, lastAnswer, Session.consume, hnone]
  | proving consensus =>
    refine h.answer hwriting (onRead_proof hhex answers _ h.hello consensus) ⟨rfl, rfl, by simp⟩ ?_
    have hsome : s.server.session.hello = some parties.greeting := h.hello
    cases hcreate : answers.createTransaction with
    | false => simp [afterServer, hcreate, shape, lastAnswer, Session.consume, hsome]
    | true =>
      cases hvalidate : answers.validateConsensus <;>
        simp [afterServer, hcreate, hvalidate, shape, lastAnswer, Session.consume, hsome]
  | _ =>
    rw [serverReads_of_nil answers h.toServer]
    exact h

/-- The client has read the one frame on its way, and it was not accepted. -/
theorem Shaking.receive {next : Phase} {answers : ClientAnswers} {data : Bytes}
    {acts : List ClientAct} (h : Shaking parties phase s) (hreads : Reads s)
    (hacts : clientActs parties answers data = some acts)
    (hphase : (shape parties phase).toClient = [data] ∧ (shape parties phase).toServer = [] ∧
      phase ≠ .greeting) (hcommand : commandOf data ≠ some .accepted)
    (hnext : shape parties next =
      { shape parties phase with toServer := frames acts, toClient := [] } ∧ next ≠ .greeting) :
    Shaking parties next (clientReads parties answers s) := by
  obtain ⟨htoClient, htoServer, hgreeted⟩ := hphase
  have hconnected : s.client.connected = true := h.connected.mpr hgreeted
  rw [clientReads_of_cons (h.toClient.trans htoClient) hacts, if_pos hreads]
  constructor
  · rw [hnext.1]
    show s.toServer ++ frames acts = frames acts
    rw [h.toServer, htoServer, List.nil_append]
  · rw [hnext.1]
  · rw [hnext.1]
    exact h.hello
  · rw [hnext.1]
    exact h.answered
  · rw [hnext.1]
    exact h.effects
  · exact h.reading
  · refine ⟨fun _ => hnext.2, fun _ => ?_⟩
    exact (connected_step _ _ (by simp) _).trans hconnected
  · simp [h.accepted, hcommand]

theorem frames_sends (answers : ClientAnswers) (frame : Bytes) :
    frames (sends answers frame) = [frame] := by
  cases hcommit : answers.commit <;> simp [frames, sends, hcommit]

theorem Shaking.clientReads (h : Shaking parties phase s) (hhex : HexInverse parties.hex)
    (hreads : Reads s) (hphase : phase ≠ .judged true) (answers : ClientAnswers) :
    Shaking parties (afterClient parties answers phase) (clientReads parties answers s) := by
  cases phase with
  | challenged =>
    refine h.receive hreads (clientActs_challenge hhex answers) ⟨rfl, rfl, by simp⟩ ?_ ?_
    · rw [Parties.challenge, commandOf_buildMessage]
      simp
    · cases hcreate : answers.createTransaction with
      | false => simp [afterClient, hcreate, shape, frames]
      | true =>
        cases hconsensus : answers.consensus with
        | none => simp [afterClient, hcreate, hconsensus, shape, frames]
        | some consensus =>
          have hframes := frames_sends answers (parties.proof consensus)
          simp only [frames] at hframes
          simp [afterClient, hcreate, hconsensus, shape, frames, hframes]
  | judged valid =>
    cases valid with
    | true => exact absurd rfl hphase
    | false =>
      refine h.receive hreads (clientActs_rejected answers) ⟨rfl, rfl, by simp⟩ (by decide) ?_
      cases hcreate : answers.createTransaction <;> simp [afterClient, shape, frames]
  | stalled hello unread =>
    cases unread with
    | true =>
      refine h.receive hreads (clientActs_nil answers) ⟨rfl, rfl, by simp⟩ (by decide) ?_
      simp [afterClient, shape, frames]
    | false =>
      rw [clientReads_of_nil answers h.toClient]
      exact h
  | _ =>
    rw [clientReads_of_nil answers h.toClient]
    exact h

end Shaking

section Opened

theorem IsReply.append {effects : List Effect} {frame : Bytes}
    (h : IsReply parties effects frame) (more : List Effect) :
    IsReply parties (effects ++ more) frame := by
  cases h with
  | empty => exact .empty
  | peers response => exact .peers response
  | register hadded => exact .register (List.mem_append_left more hadded)
  | processed response => exact .processed response

/-- What the server does with a request: it answers the request, and gives no verdict. -/
structure Serves (parties : Parties) (before : List Effect) (session : Session) : Prop where
  hello : session.hello = some parties.greeting
  own : ∀ effect ∈ session.effects, Own parties effect
  silent : ∀ valid, .answered valid ∉ session.effects
  reply : IsReply parties (before ++ session.effects) session.buffer

/-- A request whose transaction is not created is answered with the empty frame. -/
theorem Serves.ite {before : List Effect} {session served : Session}
    (hserved : Serves parties before served) (hhello : session.hello = some parties.greeting)
    (created : Bool) : Serves parties before (if created then served else session.consume) := by
  cases created with
  | true => exact hserved
  | false => exact ⟨hhello, by simp [Session.consume], by simp [Session.consume], .empty⟩

theorem serves_request (hhex : HexInverse parties.hex) (answers : Answers) {session : Session}
    (hhello : session.hello = some parties.greeting) (before : List Effect) {frame : Bytes}
    (hframe : IsRequest parties frame) :
    ∃ served, Session.onRead parties.serverContext answers frame session = (.writes, served) ∧
      Serves parties before served := by
  cases hframe with
  | peers =>
    refine ⟨_, onRead_peers answers session hhello, Serves.ite ?_ hhello _⟩
    cases answers.externalIpSet <;> exact ⟨rfl, by simp [Own], by simp, .peers _⟩
  | register rpcPeer =>
    refine ⟨_, onRead_register hhex answers session hhello rpcPeer, Serves.ite ?_ hhello _⟩
    cases answers.registerPeer with
    | true => exact ⟨rfl, by simp [Own], by simp, .register (by simp)⟩
    | false => exact ⟨rfl, by simp [Own], by simp, .empty⟩
  | transaction message =>
    refine ⟨_, onRead_transaction hhex answers session hhello message, Serves.ite ?_ hhello _⟩
    cases answers.routeMessage with
    | some response => exact ⟨rfl, by simp [Own], by simp, .processed response⟩
    | none => exact ⟨rfl, by simp [Own], by simp, .empty⟩

theorem lastAnswer_of_not_mem (before : Option Bool) {effects : List Effect}
    (h : ∀ valid, .answered valid ∉ effects) : lastAnswer before effects = before := by
  induction effects with
  | nil => rfl
  | cons effect effects ih =>
    have hrest := ih fun valid hmem => h valid (List.mem_cons_of_mem effect hmem)
    cases effect with
    | answered valid => exact absurd List.mem_cons_self (h valid)
    | _ => exact hrest

/-- What a client does with a reply: it reads on and writes nothing. -/
theorem reply_acts (hhex : HexInverse parties.hex) (answers : ClientAnswers)
    {effects : List Effect} {frame : Bytes} (hframe : IsReply parties effects frame) :
    ∃ acts, clientActs parties answers frame = some acts ∧ frames acts = [] ∧
      ∀ act ∈ acts, act = .read ∨ act = .close ∨ (∃ response, act = .setPeers response) ∨
        act = .mapSession parties.serverAccount ∧ .addAccount parties.greeting ∈ effects := by
  cases hframe with
  | empty => exact ⟨_, clientActs_nil answers, rfl, by simp⟩
  | peers response =>
    refine ⟨_, clientActs_peers hhex answers response, ?_⟩
    cases answers.createTransaction <;> simp [frames]
  | register hadded =>
    refine ⟨_, clientActs_register hhex answers parties.serverAccount, ?_⟩
    cases answers.createTransaction <;> simp [frames, hadded]
  | processed response => exact ⟨_, clientActs_processed hhex answers response, rfl, by simp⟩

theorem Opened.serverReads (h : Opened parties s) (hhex : HexInverse parties.hex)
    (answers : Answers) : Opened parties (serverReads parties answers s) := by
  cases htoServer : s.toServer with
  | nil =>
    rw [serverReads_of_nil answers htoServer]
    exact h
  | cons frame rest =>
    have hframe : IsRequest parties frame := h.requests frame (by simp [htoServer])
    obtain ⟨served, hread, hserves⟩ := serves_request hhex answers h.hello s.effects hframe
    rw [serverReads_of_cons htoServer h.reading hread]
    cases hwriting : s.serverWriting with
    | true => exact h
    | false =>
      constructor
      · exact fun other hmem => h.requests other (by simp [htoServer, show other ∈ rest from hmem])
      · intro other hmem
        rcases List.mem_append.mp hmem with hmem | hmem
        · exact (h.replies other hmem).append _
        · obtain rfl := List.mem_singleton.mp hmem
          exact hserves.reply
      · exact fun _ => hserves.reply
      · exact hserves.hello
      · show lastAnswer s.server.answered served.effects = some true
        rw [lastAnswer_of_not_mem _ hserves.silent, h.answered]
      · intro effect hmem
        rcases List.mem_append.mp hmem with hmem | hmem
        · exact h.own effect hmem
        · exact hserves.own effect hmem
      · exact List.mem_append_left _ h.judged
      · rfl
      · exact h.connected
      · exact h.accepted

theorem Opened.clientReads (h : Opened parties s) (hhex : HexInverse parties.hex)
    (answers : ClientAnswers) : Opened parties (clientReads parties answers s) := by
  cases htoClient : s.toClient with
  | nil =>
    rw [clientReads_of_nil answers htoClient]
    exact h
  | cons frame rest =>
    obtain ⟨acts, hacts, hframes, _⟩ :=
      reply_acts hhex answers (h.replies frame (by simp [htoClient]))
    rw [clientReads_of_cons htoClient hacts]
    by_cases hreads : Reads s
    · rw [if_pos hreads]
      exact
        { h with
          requests := by simpa [hframes] using h.requests
          replies := fun other hmem =>
            h.replies other (by simp [htoClient, show other ∈ rest from hmem])
          connected := (connected_step _ _ (by simp) _).trans h.connected
          accepted := by simp [h.accepted] }
    · rw [if_neg hreads]
      exact h

end Opened

section Ordered

/-- The client that reads `ACCEPTED` asks for what it connected for, if it can. -/
theorem Shaking.accept (h : Shaking parties (.judged true) s) (hreads : Reads s)
    (answers : ClientAnswers) : Opened parties (Conversation.clientReads parties answers s) := by
  have hrequests : ∀ acts, clientActs parties answers (verdict true) = some acts →
      ∀ frame ∈ frames acts, IsRequest parties frame := by
    intro acts hacts frame hmem
    rw [clientActs_accepted, Option.some.injEq] at hacts
    cases hcreate : answers.createTransaction with
    | false => simp [← hacts, hcreate, frames] at hmem
    | true =>
      cases hrequest : request parties answers with
      | none => simp [← hacts, hcreate, hrequest, frames] at hmem
      | some asked =>
        simp only [← hacts, hcreate, hrequest, if_true, frames_sends, List.mem_singleton] at hmem
        subst hmem
        cases hpeered : parties.peered with
        | false =>
          simp only [request, hpeered, Bool.false_eq_true, if_false, Option.some.injEq] at hrequest
          exact hrequest ▸ .peers
        | true =>
          simp only [request, hpeered, if_true, Option.map_eq_some_iff] at hrequest
          obtain ⟨rpcPeer, _, rfl⟩ := hrequest
          exact .register rpcPeer
  have hacts := @clientActs_accepted parties answers
  rw [clientReads_of_cons h.toClient hacts, if_pos hreads]
  have heffects : s.effects = [.answered true] := h.effects
  have htoServer : s.toServer = [] := h.toServer
  constructor
  · intro frame hmem
    rw [htoServer, List.nil_append] at hmem
    exact hrequests _ hacts frame hmem
  · simp
  · intro hbound
    simp [heffects, bound] at hbound
  · exact h.hello
  · exact h.answered
  · simp [heffects, Own]
  · simp [heffects]
  · exact h.reading
  · exact (connected_step _ _ (by simp) _).trans (h.connected.mpr (by simp))
  · simp [show commandOf (verdict true) = some .accepted from commandOf_buildMessage .accepted _]

/-- Every frame that a client gets has the tokens it uses, and both sides agree on
what it then does. -/
theorem acts_agreed (h : Ordered parties s) (hhex : HexInverse parties.hex)
    (answers : ClientAnswers) {data : Bytes} {rest : List Bytes}
    (hdata : s.toClient = data :: rest) :
    ∃ acts, clientActs parties answers data = some acts ∧
      ∀ act ∈ acts, Agreed parties s act := by
  rcases h.phase with ⟨phase, hphase⟩ | hopened
  · have hframe := hphase.toClient
    rw [hdata] at hframe
    cases phase with
    | challenged =>
      obtain rfl : data = parties.challenge := (List.cons.inj hframe).1
      refine ⟨_, clientActs_challenge hhex answers, ?_⟩
      cases answers.createTransaction with
      | false => simp [Agreed]
      | true =>
        cases answers.consensus with
        | none => simp [Agreed]
        | some consensus => cases hcommit : answers.commit <;> simp [Agreed, sends, hcommit]
    | judged valid =>
      obtain rfl : data = verdict valid := (List.cons.inj hframe).1
      cases valid with
      | false =>
        refine ⟨_, clientActs_rejected answers, ?_⟩
        cases answers.createTransaction <;> simp [Agreed]
      | true =>
        refine ⟨_, clientActs_accepted answers, ?_⟩
        cases answers.createTransaction with
        | false => simp [Agreed]
        | true =>
          cases request parties answers with
          | none => simp [Agreed]
          | some asked => cases hcommit : answers.commit <;> simp [Agreed, sends, hcommit]
    | stalled hello unread =>
      cases unread with
      | false => exact absurd hframe (by simp [shape])
      | true =>
        obtain rfl : data = [] := (List.cons.inj hframe).1
        exact ⟨_, clientActs_nil answers, by simp [Agreed]⟩
    | _ => exact absurd hframe (by simp [shape])
  · obtain ⟨acts, hacts, _, hdone⟩ :=
      reply_acts hhex answers (hopened.replies data (by simp [hdata]))
    refine ⟨acts, hacts, ?_⟩
    intro act hmem
    rcases hdone act hmem with rfl | rfl | ⟨response, rfl⟩ | ⟨rfl, hadded⟩
    · trivial
    · trivial
    · exact ⟨hopened.accepted, hopened.judged⟩
    · exact ⟨rfl, hopened.accepted, hopened.judged, hadded⟩

theorem Agreed.of_subset {s' : Conversation} {act : ClientAct} (h : Agreed parties s act)
    (heffects : ∀ effect ∈ s.effects, effect ∈ s'.effects)
    (haccepted : s.accepted = true → s'.accepted = true) : Agreed parties s' act := by
  cases act with
  | setPeers response => exact ⟨haccepted h.1, heffects _ h.2⟩
  | mapSession account =>
    exact ⟨h.1, haccepted h.2.1, heffects _ h.2.2.1, heffects _ h.2.2.2⟩
  | _ => exact h

theorem serverReads_of_writing (answers : Answers) (h : s.serverWriting = true) :
    serverReads parties answers s = s := by
  unfold serverReads
  cases s.toServer with
  | nil => rfl
  | cons data rest => simp [h]

theorem clientReads_of_not {answers : ClientAnswers} (h : ¬ Reads s) :
    clientReads parties answers s = s := by
  unfold clientReads
  cases s.toClient with
  | nil => rfl
  | cons data rest => exact if_neg h

/-- The server undoes nothing that it has done, and leaves the client alone. -/
theorem serverReads_keeps (answers : Answers) :
    (∀ effect ∈ s.effects, effect ∈ (serverReads parties answers s).effects) ∧
      (serverReads parties answers s).acts = s.acts ∧
      (serverReads parties answers s).client = s.client ∧
      (serverReads parties answers s).accepted = s.accepted := by
  unfold serverReads
  cases s.toServer with
  | nil => exact ⟨fun _ h => h, rfl, rfl, rfl⟩
  | cons data rest =>
    by_cases hreads : s.server.reading = true ∧ s.serverWriting = false
    · simp only [hreads, and_self, if_true]
      exact ⟨fun effect hmem => List.mem_append_left _ hmem, trivial⟩
    · simp [hreads]

theorem ordered_start : Ordered parties start where
  phase := Or.inl ⟨.greeting, by constructor <;> simp [start, shape, Observed.start, Session.start,
    Pending.start]⟩
  intact := rfl
  agreed := by simp [start]

/-- The phase does not depend on what is pending at the client. -/
theorem phase_of_client {phase : Phase} (h : Shaking parties phase s) (client : Pending)
    (hconnected : client.connected = s.client.connected) :
    Shaking parties phase { s with client := client } :=
  { h with connected := by rw [hconnected]; exact h.connected }

theorem Opened.of_client (h : Opened parties s) (client : Pending)
    (hconnected : client.connected = s.client.connected) :
    Opened parties { s with client := client } :=
  { h with connected := hconnected.trans h.connected }

/-- A session in a phase of the handshake is not in the cache of the server. -/
theorem Shaking.not_bound {phase : Phase} (h : Shaking parties phase s) :
    bound s.effects = false := by
  rw [h.effects]
  cases phase <;> rfl

/-- The first frame of the client is its hello. -/
theorem Shaking.greet {phase : Phase} (h : Shaking parties phase s)
    (hconnected : ¬ s.client.connected = true) (hintact : s.client.crashed = false) :
    Shaking parties .greeted
      { s with
        client := PendingOperations.step parties.clientContext .handshake s.client
        toServer := s.toServer ++ [parties.helloFrame] } := by
  obtain rfl : phase = .greeting := by
    by_contra hphase
    exact hconnected (h.connected.mpr hphase)
  exact
    { h with
      toServer := by
        show s.toServer ++ [parties.helloFrame] = [parties.helloFrame]
        rw [h.toServer]
        rfl
      connected := by simp [PendingOperations.step, hintact, hconnected, Pending.begin] }

theorem phase_step (hhex : HexInverse parties.hex) (event : Event)
    (h : (∃ phase, Shaking parties phase s) ∨ Opened parties s)
    (hintact : s.client.crashed = false) (hroutes : RoutesOnceAccepted event s) :
    (∃ phase, Shaking parties phase (step parties event s)) ∨
      Opened parties (step parties event s) := by
  cases event with
  | handshake =>
    by_cases hconnected : s.client.connected = true
    · simp only [step, hconnected, if_true]
      exact h
    · simp only [step, hconnected]
      rcases h with ⟨phase, hphase⟩ | hopened
      · exact Or.inl ⟨.greeted, hphase.greet hconnected hintact⟩
      · exact absurd hopened.connected hconnected
  | serverReads answers =>
    cases hwriting : s.serverWriting with
    | true =>
      rw [step, serverReads_of_writing answers hwriting]
      exact h
    | false =>
      rcases h with ⟨phase, hphase⟩ | hopened
      · exact Or.inl ⟨_, hphase.serverReads hhex hwriting answers⟩
      · exact Or.inr (hopened.serverReads hhex answers)
  | serverWritten =>
    by_cases hwriting : s.serverWriting = true
    · simp only [step, hwriting, if_true]
      rcases h with ⟨phase, hphase⟩ | hopened
      · exact Or.inl ⟨phase, { hphase with }⟩
      · exact Or.inr { hopened with buffer := fun _ => .empty }
    · simp only [step, hwriting]
      exact h
  | serverRoutes wrapper =>
    by_cases hbound : bound s.effects = true
    · simp only [step, hbound, if_true]
      rcases h with ⟨phase, hphase⟩ | hopened
      · exact absurd hbound (by simp [hphase.not_bound])
      · refine Or.inr { hopened with replies := ?_ }
        intro frame hmem
        rcases List.mem_append.mp hmem with hmem | hmem
        · exact hopened.replies frame hmem
        · obtain rfl := List.mem_singleton.mp hmem
          exact hopened.buffer hbound
    · simp only [step, hbound]
      exact h
  | clientReads answers =>
    by_cases hreads : Reads s
    · rcases h with ⟨phase, hphase⟩ | hopened
      · by_cases hjudged : phase = .judged true
        · exact Or.inr ((hjudged ▸ hphase).accept hreads answers)
        · exact Or.inl ⟨_, hphase.clientReads hhex hreads hjudged answers⟩
      · exact Or.inr (hopened.clientReads hhex answers)
    · rw [step, clientReads_of_not hreads]
      exact h
  | clientWritten =>
    have hconnected := connected_step parties.clientContext (.written true) (by simp) s.client
    rcases h with ⟨phase, hphase⟩ | hopened
    · exact Or.inl ⟨phase, phase_of_client hphase _ hconnected⟩
    · exact Or.inr (hopened.of_client _ hconnected)
  | clientRoutes wrapper =>
    have hconnected := connected_step parties.clientContext .routeTransaction (by simp) s.client
    rcases h with ⟨phase, hphase⟩ | hopened
    · exact absurd hroutes (by simp [RoutesOnceAccepted, hphase.accepted])
    · simp only [step, hopened.connected, if_true]
      refine Or.inr { hopened.of_client _ hconnected with requests := ?_ }
      intro frame hmem
      rcases List.mem_append.mp hmem with hmem | hmem
      · exact hopened.requests frame hmem
      · obtain rfl := List.mem_singleton.mp hmem
        exact .transaction _
  | outBoundWritten =>
    have hconnected := connected_step parties.clientContext .outBoundWritten (by simp) s.client
    rcases h with ⟨phase, hphase⟩ | hopened
    · exact Or.inl ⟨phase, phase_of_client hphase _ hconnected⟩
    · exact Or.inr (hopened.of_client _ hconnected)

/-- A client that reads a frame stays intact, and does only what is agreed. -/
theorem ordered_clientReads (h : Ordered parties s) (hhex : HexInverse parties.hex)
    (answers : ClientAnswers) :
    (clientReads parties answers s).client.crashed = false ∧
      ∀ act ∈ (clientReads parties answers s).acts,
        Agreed parties (clientReads parties answers s) act := by
  by_cases hreads : Reads s
  · cases hdata : s.toClient with
    | nil =>
      rw [clientReads_of_nil answers hdata]
      exact ⟨h.intact, h.agreed⟩
    | cons data rest =>
      obtain ⟨acts, hacts, hagreed⟩ := acts_agreed h hhex answers hdata
      rw [clientReads_of_cons hdata hacts, if_pos hreads]
      have hsome : (RpcSession.onRead parties.clientContext answers data).isSome = true := by
        rw [← Option.isSome_map, ← clientActs, hacts]
        rfl
      constructor
      · refine crashed_step _ _ ?_ h.intact
        rintro _ _ ⟨rfl, rfl⟩
        exact hsome
      · intro act hmem
        rcases List.mem_append.mp hmem with hmem | hmem
        · exact (h.agreed act hmem).of_subset (fun _ heffect => heffect) (by simp +contextual)
        · exact (hagreed act hmem).of_subset (fun _ heffect => heffect) (by simp +contextual)
  · rw [clientReads_of_not hreads]
    exact ⟨h.intact, h.agreed⟩

theorem ordered_step (hhex : HexInverse parties.hex) (event : Event) (h : Ordered parties s)
    (hroutes : RoutesOnceAccepted event s) : Ordered parties (step parties event s) := by
  have hphase := phase_step hhex event h.phase h.intact hroutes
  cases event with
  | handshake =>
    by_cases hconnected : s.client.connected = true
    · simp only [step, hconnected, if_true]
      exact h
    · simp only [step, hconnected] at hphase ⊢
      exact ⟨hphase, crashed_step _ _ (by simp) h.intact, h.agreed⟩
  | serverReads answers =>
    obtain ⟨heffects, hacts, hclient, haccepted⟩ := @serverReads_keeps parties s answers
    refine ⟨hphase, ?_, ?_⟩
    · exact (congrArg Pending.crashed hclient).trans h.intact
    · intro act hmem
      exact (h.agreed act (hacts ▸ hmem)).of_subset heffects haccepted.trans
  | serverWritten =>
    by_cases hwriting : s.serverWriting = true
    · simp only [step, hwriting, if_true] at hphase ⊢
      exact ⟨hphase, h.intact, h.agreed⟩
    · simp only [step, hwriting]
      exact h
  | serverRoutes wrapper =>
    by_cases hbound : bound s.effects = true
    · simp only [step, hbound, if_true] at hphase ⊢
      exact ⟨hphase, h.intact, h.agreed⟩
    · simp only [step, hbound]
      exact h
  | clientReads answers =>
    obtain ⟨hintact, hagreed⟩ := ordered_clientReads h hhex answers
    exact ⟨hphase, hintact, hagreed⟩
  | clientRoutes wrapper =>
    by_cases hconnected : s.client.connected = true
    · simp only [step, hconnected, if_true] at hphase ⊢
      exact ⟨hphase, crashed_step _ _ (by simp) h.intact, h.agreed⟩
    · simp only [step, hconnected]
      exact h
  | _ => exact ⟨hphase, crashed_step _ _ (by simp) h.intact, h.agreed⟩

theorem ordered_run (hhex : HexInverse parties.hex) {events : List Event}
    (hroutes : Along (step parties) RoutesOnceAccepted start events) :
    Ordered parties (run (step parties) start events) :=
  invariant_run (step parties) (fun event _ h => ordered_step hhex event h) ordered_start hroutes

end Ordered

def plainParties : Parties where
  toCodec := plainContext.toCodec
  secret := [5]
  serverAccount := [9]
  clientAccount := [1]
  hello := [1]
  peered := true
  serverLogs := true
  clientLogs := true

def clientAnswering : ClientAnswers := ⟨true, true, some [2], some [], some [3], true⟩

end Keto.Rpc.Conversation
