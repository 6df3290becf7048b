import Keto.Rpc.HandshakeGate
import Keto.Rpc.PendingOperations

/-!
A client session and the server session it is connected to, each with the frames
that are on their way to it. Either side may be kept waiting, the modules behind
both may answer or throw as they like, and messages are routed on the session
from outside. The server asks for nothing but a hello before it serves a client,
and the client says more than a hello only when it is asked: what the gate of the
server lacks is made up for by the order in which its own client speaks.
-/
namespace Keto.Rpc

open Protocol AccountDb Library.Stateful Library.Runs
open HandshakeGate (Observed Frame Guarded processes)
open PendingOperations (Pending)

/-- A server and a client that speak the same protocol; `hello` is what
`buildHeloMessage` makes. -/
structure Parties extends Codec where
  secret : Bytes
  serverAccount : Bytes
  clientAccount : Bytes
  hello : Bytes
  peered : Bool
  serverLogs : Bool
  clientLogs : Bool

namespace Parties

variable (parties : Parties)

def serverContext : ServerContext :=
  ⟨parties.toCodec, parties.secret, parties.serverAccount, parties.serverLogs⟩

def clientContext : ClientContext :=
  ⟨parties.toCodec, parties.clientAccount, parties.peered, parties.clientLogs⟩

def greeting : Bytes := parties.protobuf.helloAccount parties.hello

def helloFrame : Bytes := buildMessage .hello (parties.hex.hexEncode parties.hello)

def challenge : Bytes :=
  buildMessage .helloConsensus (parties.hex.hexEncode parties.secret ++
    space :: parties.hex.hexEncode parties.serverAccount)

def proof (consensus : Bytes) : Bytes :=
  buildMessage .helloConsensus (parties.hex.hexEncode consensus)

end Parties

def verdict (valid : Bool) : Bytes :=
  let answer := if valid then RpcCommand.accepted else .goAway
  buildMessage answer answer.name

def peersRequest : Bytes := buildMessage .peers RpcCommand.peers.name

/-- Both sessions, and the frames on their way between them. `effects` and `acts`
are all that was done so far; the last field tells whether the client has read
that it is accepted. -/
structure Conversation where
  server : Observed
  serverWriting : Bool
  effects : List Effect
  toServer : List Bytes
  client : Pending
  acts : List ClientAct
  toClient : List Bytes
  accepted : Bool
  deriving DecidableEq, Repr

namespace Conversation

/-- What one side, a thread that routes a message, or the network does next. -/
inductive Event
  | handshake
  | serverReads (answers : Answers)
  | serverWritten
  | serverRoutes (wrapper : MessageWrapper)
  | clientReads (answers : ClientAnswers)
  | clientWritten
  | clientRoutes (wrapper : MessageWrapper)
  | outBoundWritten

def start : Conversation := ⟨Observed.start, false, [], [], Pending.start, [], [], false⟩

def bound (effects : List Effect) : Bool :=
  effects.foldl (fun isBound effect => match effect with
    | .addAccount _ => true
    | .removeAccount _ => false
    | _ => isBound) false

def frames (acts : List ClientAct) : List Bytes :=
  acts.filterMap fun act => match act with
    | .write frame => some frame
    | _ => none

variable (parties : Parties)

def serverReads (answers : Answers) (s : Conversation) : Conversation :=
  match s.toServer with
  | [] => s
  | data :: rest =>
    if s.server.reading = true ∧ s.serverWriting = false then
      let read := Session.onRead parties.serverContext answers data s.server.session
      let writes : Bool := read.1 == .writes
      { s with
        server := HandshakeGate.step parties.serverContext ⟨data, answers⟩ s.server
        serverWriting := writes
        effects := s.effects ++ read.2.effects
        toServer := rest
        toClient := s.toClient ++ if writes then [read.2.buffer] else [] }
    else s

def serverWritten (s : Conversation) : Conversation :=
  { s with
    server := { s.server with session := { s.server.session with buffer := [] } }
    serverWriting := false }

def clientReads (answers : ClientAnswers) (s : Conversation) : Conversation :=
  match s.toClient with
  | [] => s
  | data :: rest =>
    if 0 < s.client.reads ∧ s.client.crashed = false then
      let acts := ((RpcSession.onRead parties.clientContext answers data).map
        fun session => session.acts).getD []
      { s with
        client := PendingOperations.step parties.clientContext (.read data answers) s.client
        acts := s.acts ++ acts
        toServer := s.toServer ++ frames acts
        toClient := rest
        accepted := s.accepted || commandOf data == some .accepted }
    else s

/-- Messages are routed by the server over the sessions in its cache. -/
def step (event : Event) (s : Conversation) : Conversation :=
  match event with
  | .handshake =>
    if s.client.connected then s
    else
      { s with
        client := PendingOperations.step parties.clientContext .handshake s.client
        toServer := s.toServer ++ [parties.helloFrame] }
  | .serverReads answers => serverReads parties answers s
  | .serverWritten => if s.serverWriting then serverWritten s else s
  | .serverRoutes wrapper =>
    if bound s.effects then
      { s with toClient := s.toClient ++
          [(Session.routeTransaction parties.toCodec wrapper s.server.session).written] }
    else s
  | .clientReads answers => clientReads parties answers s
  | .clientWritten =>
    { s with client := PendingOperations.step parties.clientContext (.written true) s.client }
  | .clientRoutes wrapper =>
    if s.client.connected then
      { s with
        client := PendingOperations.step parties.clientContext .routeTransaction s.client
        toServer := s.toServer ++ [(RpcSession.routeTransaction parties.toCodec wrapper).written] }
    else s
  | .outBoundWritten =>
    { s with client := PendingOperations.step parties.clientContext .outBoundWritten s.client }

/-- `RpcSessionManager` is given a session's account when it registers, and its
default session before that: whether it waits for the verdict is up to it. -/
def RoutesOnceAccepted (event : Event) (s : Conversation) : Prop :=
  match event with
  | .clientRoutes _ => s.accepted = true
  | _ => True

section ServerFrames

variable {parties}

/-- A branch that ends in one state, returning or not, is answered from there. -/
theorem serverRead_eq {answers : Answers} {command : RpcCommand} {payload : Bytes}
    (hspace : space ∉ payload) {session result : Session}
    (hdispatch : Ends (Session.dispatch parties.serverContext answers (some command) payload)
      (fun continues session' => continues = true ∧ session' = result)
      (fun failure session' => failure = .thrown ∧ session' = result) session.consume) :
    Session.onRead parties.serverContext answers (buildMessage command payload) session =
      (.writes, if answers.createTransaction then result else session.consume) := by
  have hpayload : Session.payloadOf (buildMessage command payload) = payload := by
    rw [Session.payloadOf, tokenize_buildMessage command hspace]
  refine (Session.onRead_iff parties.serverContext (fun read => read = _) answers _ session).mpr ?_
  cases hcreate : answers.createTransaction with
  | false => simp [Session.handleFrame, hcreate]
  | true =>
    simp only [Session.handleFrame, hcreate, commandOf_buildMessage, hpayload, Bool.not_true,
      Bool.false_eq_true, if_false, ends_bind]
    refine hdispatch.mono ?_ ?_
    · rintro continues session' ⟨rfl, rfl⟩
      simp
    · rintro failure session' ⟨rfl, rfl⟩
      simp

variable (hhex : HexInverse parties.hex) (answers : Answers) (session : Session)

include hhex in
theorem onRead_hello :
    Session.onRead parties.serverContext answers parties.helloFrame session =
      (.writes, if answers.createTransaction then
        ⟨some parties.greeting, parties.challenge, []⟩ else session.consume) := by
  refine serverRead_eq (hhex.no_space parties.hello) ?_
  simp [Session.dispatch, Session.handleHello, Parties.serverContext,
    hhex.decode_encode parties.hello, Session.consume, Parties.greeting, Parties.challenge]

variable {account : Bytes} (hhello : session.hello = some account)
include hhello

include hhex in
/-- The verdict is sent as soon as it is known. -/
theorem onRead_proof (consensus : Bytes) :
    Session.onRead parties.serverContext answers (parties.proof consensus) session =
      (.writes, if answers.createTransaction then
        match answers.validateConsensus with
        | some valid => ⟨some account, verdict valid, [.answered valid]⟩
        | none => session.consume
        else session.consume) := by
  refine serverRead_eq (hhex.no_space consensus) ?_
  cases hvalidate : answers.validateConsensus with
  | none =>
    simp [Session.dispatch, Session.handleHelloConsensus, Parties.serverContext,
      hhex.decode_encode consensus, hvalidate]
  | some valid =>
    simp [Session.dispatch, Session.handleHelloConsensus, Parties.serverContext,
      hhex.decode_encode consensus, hvalidate, Session.consume, hhello, verdict]

/-- The address of the client, and that of the server if it is not known yet. -/
theorem onRead_peers :
    Session.onRead parties.serverContext answers peersRequest session =
      (.writes, if answers.createTransaction then
        ⟨some account, buildMessage .peers (parties.hex.hexEncode answers.peerResponse),
          (if answers.externalIpSet then [] else [.addPeer parties.serverAccount]) ++
            [.addPeer account]⟩
        else session.consume) := by
  refine serverRead_eq (by decide) ?_
  cases hset : answers.externalIpSet with
  | false =>
    simp [hset, Session.dispatch, Session.handlePeer, Parties.serverContext, Session.consume,
      hhello]
  | true =>
    simp [hset, Session.dispatch, Session.handlePeer, Parties.serverContext, Session.consume,
      hhello]

include hhex in
/-- The session stays registered where registering the peer fails. -/
theorem onRead_register (rpcPeer : Bytes) :
    Session.onRead parties.serverContext answers
        (buildMessage .register (parties.hex.hexEncode rpcPeer)) session =
      (.writes, if answers.createTransaction then
        ⟨some account, if answers.registerPeer then
            buildMessage .register (parties.hex.hexEncode parties.serverAccount) else [],
          [.addAccount account, .registerPeer rpcPeer]⟩
        else session.consume) := by
  refine serverRead_eq (hhex.no_space rpcPeer) ?_
  cases hregister : answers.registerPeer with
  | false =>
    simp [hregister, hhex.decode_encode rpcPeer, Session.dispatch, Session.handleRegister,
      Parties.serverContext, Session.consume, hhello]
  | true =>
    simp [hregister, hhex.decode_encode rpcPeer, Session.dispatch, Session.handleRegister,
      Parties.serverContext, Session.consume, hhello]

include hhex in
/-- A message is routed on under the account of the client. -/
theorem onRead_transaction (message : Bytes) :
    Session.onRead parties.serverContext answers
        (buildMessage .transaction (parties.hex.hexEncode message)) session =
      (.writes, if answers.createTransaction then
        ⟨some account, match answers.routeMessage with
          | some response => buildMessage .transactionProcessed (parties.hex.hexEncode response)
          | none => [],
          [.routeMessage { parties.protobuf.parseWrapper message with sessionHash := account }]⟩
        else session.consume) := by
  refine serverRead_eq (hhex.no_space message) ?_
  cases hroute : answers.routeMessage with
  | none =>
    simp [hroute, hhex.decode_encode message, Session.dispatch, Session.handleTransaction,
      Parties.serverContext, Session.consume, hhello]
  | some response =>
    simp [hroute, hhex.decode_encode message, Session.dispatch, Session.handleTransaction,
      Parties.serverContext, Session.consume, hhello]

end ServerFrames

section ClientFrames

variable {parties}

/-- What a client session does with a frame, `none` where it uses a token that is
not there. -/
def clientActs (parties : Parties) (answers : ClientAnswers) (data : Bytes) :
    Option (List ClientAct) :=
  (RpcSession.onRead parties.clientContext answers data).map fun session => session.acts

/-- A branch is followed by the next read unless `on_read` returns after it. -/
theorem clientActs_iff (p : Option (List ClientAct) → Prop) (answers : ClientAnswers)
    (data : Bytes) :
    p (clientActs parties answers data) ↔
      (answers.createTransaction = false → p (some [.read])) ∧
        (answers.createTransaction = true →
          Ends (RpcSession.dispatch parties.clientContext answers data)
            (fun branch session => p (some (if branch = .returns ∨
              branch = .commits ∧ answers.commit = true then session.acts
                else session.acts ++ [.read])))
            (fun failure session =>
              p (if failure = .thrown then some (session.acts ++ [.read]) else none))
            RpcSession.consume) := by
  rw [clientActs, RpcSession.onRead_iff parties.clientContext
    (fun read => p (read.map fun session => session.acts))]
  cases hcreate : answers.createTransaction with
  | false => simp [RpcSession.handleFrame, hcreate, RpcSession.consume, RpcSession.startRead]
  | true =>
    simp only [RpcSession.handleFrame, hcreate, Bool.not_true, Bool.false_eq_true, if_false,
      ends_bind]
    cases hread : RpcSession.dispatch parties.clientContext answers data RpcSession.consume with
    | ok branch session =>
      rw [ends_of_ok hread, ends_of_ok hread]
      cases branch <;> cases hcommit : answers.commit <;> simp [RpcSession.startRead]
    | error failure session =>
      rw [ends_of_error hread, ends_of_error hread]
      cases failure <;> simp [RpcSession.startRead]

/-- A handler's write; the next read is left to its completion. -/
def sends (answers : ClientAnswers) (frame : Bytes) : List ClientAct :=
  if answers.commit then [.write frame] else [.write frame, .read]

/-- The client takes the secret of the server for its session key, and proves
itself with it. -/
theorem clientActs_challenge (hhex : HexInverse parties.hex) (answers : ClientAnswers) :
    clientActs parties answers parties.challenge = some (if answers.createTransaction then
      .updateSessionKey parties.secret :: match answers.consensus with
        | some consensus => sends answers (parties.proof consensus)
        | none => [.read]
      else [.read]) := by
  have htokens : tokenize parties.challenge = [RpcCommand.helloConsensus.name,
      parties.hex.hexEncode parties.secret, parties.hex.hexEncode parties.serverAccount] := by
    rw [Parties.challenge, buildMessage,
      tokenize_append_space RpcCommand.helloConsensus.space_not_mem_name,
      tokenize_append_space (hhex.no_space parties.secret),
      tokenize_of_not_mem (hhex.no_space parties.serverAccount)]
  have hcommand : commandOf parties.challenge = some .helloConsensus :=
    commandOf_buildMessage .helloConsensus _
  refine (clientActs_iff (· = _) answers _).mpr ⟨fun hcreate => by simp [hcreate], ?_⟩
  intro hcreate
  cases hconsensus : answers.consensus with
  | none =>
    simp [RpcSession.dispatch, RpcSession.helloConsensusResponse, hcommand, htokens, hcreate,
      hconsensus, Parties.clientContext, hhex.decode_encode, RpcSession.consume]
  | some consensus =>
    cases hcommit : answers.commit <;>
      simp [RpcSession.dispatch, RpcSession.helloConsensusResponse, hcommand, htokens, hcreate,
        hconsensus, hcommit, Parties.clientContext, hhex.decode_encode, RpcSession.consume,
        Parties.proof, sends]

def request (parties : Parties) (answers : ClientAnswers) : Option Bytes :=
  if parties.peered then
    answers.nodeAccountRouting.map fun rpcPeer =>
      buildMessage .register (parties.hex.hexEncode rpcPeer)
  else some peersRequest

theorem clientActs_accepted (answers : ClientAnswers) :
    clientActs parties answers (verdict true) = some (if answers.createTransaction then
      match request parties answers with
        | some frame => sends answers frame
        | none => [.read]
      else [.read]) := by
  have htokens : tokenize (verdict true) = [RpcCommand.accepted.name, RpcCommand.accepted.name] :=
    tokenize_buildMessage .accepted RpcCommand.accepted.space_not_mem_name
  have hcommand : commandOf (verdict true) = some .accepted := commandOf_buildMessage .accepted _
  refine (clientActs_iff (· = _) answers _).mpr ⟨fun hcreate => by simp [hcreate], ?_⟩
  intro hcreate
  cases hpeered : parties.peered with
  | false =>
    simp [RpcSession.dispatch, RpcSession.serverRequest, hcommand, hcreate, Parties.clientContext,
      hpeered, RpcSession.consume, request, sends, peersRequest, buildMessage]
  | true =>
    cases hrouting : answers.nodeAccountRouting with
    | none =>
      simp [RpcSession.dispatch, RpcSession.handleRegisterRequest, hcommand, htokens, hcreate,
        Parties.clientContext, hpeered, hrouting, RpcSession.consume, request]
    | some rpcPeer =>
      simp [RpcSession.dispatch, RpcSession.handleRegisterRequest, hcommand, htokens, hcreate,
        Parties.clientContext, hpeered, hrouting, RpcSession.consume, request, sends]

/-- A client that is told to go away closes its session, and does not read on. -/
theorem clientActs_rejected (answers : ClientAnswers) :
    clientActs parties answers (verdict false) =
      some (if answers.createTransaction then [.close] else [.read]) := by
  have htokens : tokenize (verdict false) = [RpcCommand.goAway.name, RpcCommand.goAway.name] :=
    tokenize_buildMessage .goAway RpcCommand.goAway.space_not_mem_name
  have hcommand : commandOf (verdict false) = some .goAway := commandOf_buildMessage .goAway _
  refine (clientActs_iff (· = _) answers _).mpr ⟨fun hcreate => by simp [hcreate], ?_⟩
  intro hcreate
  simp [RpcSession.dispatch, RpcSession.closeResponse, hcommand, htokens, hcreate,
    RpcSession.consume]

/-- Nothing is read from the empty frame that a server writes when a handler threw. -/
theorem clientActs_nil (answers : ClientAnswers) :
    clientActs parties answers [] = some [.read] := by
  have hcommand : commandOf [] = none := by decide
  refine (clientActs_iff (· = _) answers _).mpr ⟨fun _ => rfl, fun _ => ?_⟩
  simp [RpcSession.dispatch, hcommand, RpcSession.consume]

theorem clientActs_peers (hhex : HexInverse parties.hex) (answers : ClientAnswers)
    (response : Bytes) :
    clientActs parties answers (buildMessage .peers (parties.hex.hexEncode response)) =
      some (if answers.createTransaction then [.setPeers response, .close, .read]
        else [.read]) := by
  refine (clientActs_iff (· = _) answers _).mpr ⟨fun hcreate => by simp [hcreate], ?_⟩
  intro hcreate
  simp [RpcSession.dispatch, RpcSession.peerResponse, commandOf_buildMessage,
    tokenize_buildMessage _ (hhex.no_space response), hcreate, Parties.clientContext,
    hhex.decode_encode, RpcSession.consume]

/-- The session is mapped before the peer is registered, which may fail. -/
theorem clientActs_register (hhex : HexInverse parties.hex) (answers : ClientAnswers)
    (account : Bytes) :
    clientActs parties answers (buildMessage .register (parties.hex.hexEncode account)) =
      some (if answers.createTransaction then [.mapSession account, .read] else [.read]) := by
  refine (clientActs_iff (· = _) answers _).mpr ⟨fun hcreate => by simp [hcreate], ?_⟩
  intro hcreate
  simp [RpcSession.dispatch, RpcSession.registerResponse, commandOf_buildMessage,
    tokenize_buildMessage _ (hhex.no_space account), hcreate, Parties.clientContext,
    hhex.decode_encode, RpcSession.consume]

theorem clientActs_processed (hhex : HexInverse parties.hex) (answers : ClientAnswers)
    (response : Bytes) :
    clientActs parties answers
      (buildMessage .transactionProcessed (parties.hex.hexEncode response)) = some [.read] := by
  refine (clientActs_iff (· = _) answers _).mpr ⟨fun _ => rfl, fun _ => ?_⟩
  simp [RpcSession.dispatch, commandOf_buildMessage,
    tokenize_buildMessage _ (hhex.no_space response), RpcSession.consume]

end ClientFrames

end Conversation

end Keto.Rpc
