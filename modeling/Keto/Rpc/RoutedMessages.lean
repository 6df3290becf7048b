import Keto.Rpc.ClientSession
import Keto.Rpc.ServerSession

/-!
Messages that are routed over a session, from the text that one side writes to
the message that the other side takes out of it. What a client routes arrives.
A server writes the buffer it reads into, and its client finds in it what the
server happened to have received.
-/
namespace Keto.Rpc.RoutedMessages

open Protocol AccountDb Library.Stateful

variable (codec : Codec)

/-- The message that the server's `on_read` and `handleTransaction` take out of
a frame. -/
def serverReads (data : Bytes) : Option MessageWrapper :=
  if commandOf data = some .transaction then
    (codec.hex.hexDecode (Session.payloadOf data)).map codec.protobuf.parseWrapper
  else none

/-- The message that the client's `on_read` and `handleTransaction` take out of
a frame. -/
def clientReads (data : Bytes) : Option MessageWrapper :=
  if commandOf data = some .transaction then
    ((tokenize data)[1]?.bind codec.hex.hexDecode).map codec.protobuf.parseWrapper
  else none

/-- What the server reads it routes, under the account of the session. -/
theorem serverReads_routes (context : ServerContext) (answers : Answers) {data : Bytes}
    {session : Session} {account : Bytes} {wrapper : MessageWrapper}
    (hreads : serverReads context.toCodec data = some wrapper)
    (hhello : session.hello = some account) (hcreate : answers.createTransaction = true) :
    (Session.onRead context answers data session).2.effects =
      [.routeMessage { wrapper with sessionHash := account }] := by
  rw [Session.onRead_iff context fun read => read.2.effects =
    [.routeMessage { wrapper with sessionHash := account }]]
  rw [serverReads] at hreads
  by_cases hcommand : commandOf data = some .transaction
  · rw [if_pos hcommand] at hreads
    obtain ⟨bytes, hdecode, rfl⟩ := Option.map_eq_some_iff.mp hreads
    cases hroute : answers.routeMessage with
    | none =>
      simp [Session.handleFrame, Session.dispatch, Session.handleTransaction, Session.consume,
        hcommand, hdecode, hhello, hcreate, hroute]
    | some response =>
      simp [Session.handleFrame, Session.dispatch, Session.handleTransaction, Session.consume,
        hcommand, hdecode, hhello, hcreate, hroute]
  · rw [if_neg hcommand] at hreads
    exact absurd hreads (by simp)

/-- What the client reads it routes, under its own account. -/
theorem clientReads_routes (context : ClientContext) (answers : ClientAnswers) {data : Bytes}
    {wrapper : MessageWrapper} (hreads : clientReads context.toCodec data = some wrapper)
    (hcreate : answers.createTransaction = true) :
    ∃ session, RpcSession.onRead context answers data = some session ∧
      session.acts.head? =
        some (.routeMessage { wrapper with sessionHash := context.accountHash }) := by
  rw [RpcSession.onRead_iff context fun read => ∃ session, read = some session ∧
    session.acts.head? = some (.routeMessage { wrapper with sessionHash := context.accountHash })]
  rw [clientReads] at hreads
  by_cases hcommand : commandOf data = some .transaction
  · rw [if_pos hcommand] at hreads
    obtain ⟨bytes, hbind, rfl⟩ := Option.map_eq_some_iff.mp hreads
    obtain ⟨payload, htoken, hdecode⟩ := Option.bind_eq_some_iff.mp hbind
    simp [RpcSession.handleFrame, RpcSession.dispatch, RpcSession.handleTransaction,
      RpcSession.consume, RpcSession.startRead, hcommand, htoken, hdecode, hcreate]
  · rw [if_neg hcommand] at hreads
    exact absurd hreads (by simp)

def HoldsMessage (wrapper : MessageWrapper) (value : Bytes) : Prop :=
  ∃ payload bytes, HoldsFrame .transaction payload value ∧
    codec.hex.hexDecode payload = some bytes ∧ codec.protobuf.parseWrapper bytes = wrapper

theorem clientReads_eq_some {data : Bytes} {wrapper : MessageWrapper} :
    clientReads codec data = some wrapper ↔ HoldsMessage codec wrapper data := by
  by_cases hcommand : commandOf data = some .transaction
  · rw [clientReads, if_pos hcommand, Option.map_eq_some_iff]
    constructor
    · rintro ⟨bytes, hbind, hparse⟩
      obtain ⟨payload, htoken, hdecode⟩ := Option.bind_eq_some_iff.mp hbind
      have hframe := (tokens_iff_holdsFrame .transaction payload data).mp ⟨hcommand, htoken⟩
      exact ⟨payload, bytes, hframe, hdecode, hparse⟩
    · rintro ⟨payload, bytes, hframe, hdecode, hparse⟩
      obtain ⟨_, htoken⟩ := (tokens_iff_holdsFrame .transaction payload data).mpr hframe
      exact ⟨bytes, by rw [htoken, Option.bind_some, hdecode], hparse⟩
  · rw [clientReads, if_neg hcommand]
    constructor
    · intro hread
      exact absurd hread (by simp)
    · rintro ⟨payload, _, hframe, _⟩
      exact absurd ((tokens_iff_holdsFrame .transaction payload data).mpr hframe).1 hcommand

theorem serverReads_routeTransaction {wrapper : MessageWrapper} (hhex : HexInverse codec.hex)
    (hproto : codec.protobuf.parseWrapper (codec.protobuf.serializeWrapper wrapper) = wrapper) :
    serverReads codec (RpcSession.routeTransaction codec wrapper).written = some wrapper := by
  let payload := codec.hex.hexEncode (codec.protobuf.serializeWrapper wrapper)
  have hspace : space ∉ payload := hhex.no_space (codec.protobuf.serializeWrapper wrapper)
  have hpayload : Session.payloadOf (buildMessage .transaction payload) = payload := by
    rw [Session.payloadOf, tokenize_buildMessage .transaction hspace]
  have hdecode : codec.hex.hexDecode payload = some (codec.protobuf.serializeWrapper wrapper) :=
    hhex.decode_encode (codec.protobuf.serializeWrapper wrapper)
  rw [serverReads, RpcSession.routeTransaction,
    if_pos (commandOf_buildMessage .transaction payload), hpayload, hdecode, Option.map_some,
    hproto]

/-- The message arrives in both directions, whichever side routes it. -/
def Intact (wrapper : MessageWrapper) (session : Session) : Prop :=
  serverReads codec (RpcSession.routeTransaction codec wrapper).written = some wrapper ∧
    clientReads codec (Session.routeTransaction codec wrapper session).written = some wrapper

/-- A message that a client routes arrives. One that a server routes arrives
exactly when the session's buffer holds a frame of that very message. -/
theorem intact_iff (hhex : HexInverse codec.hex) (wrapper : MessageWrapper)
    (hproto : codec.protobuf.parseWrapper (codec.protobuf.serializeWrapper wrapper) = wrapper) :
    serverReads codec (RpcSession.routeTransaction codec wrapper).written = some wrapper ∧
      ∀ session, Intact codec wrapper session ↔ HoldsMessage codec wrapper session.buffer := by
  have hserver := serverReads_routeTransaction codec hhex hproto
  refine ⟨hserver, ?_⟩
  intro session
  rw [Intact, Session.routeTransaction, clientReads_eq_some]
  exact and_iff_right hserver

def routedWrapper : MessageWrapper := ⟨1, [], [1], .transaction, .route, .other⟩

def routedBytes : Bytes := [0x08, 0x01, 0x1a, 0x01, 0x01, 0x28, 0x01]

def routedCodec : Codec := ⟨.botan, ⟨fun _ => routedBytes, fun _ => routedWrapper, id⟩⟩

theorem intact_iff_routed :
    serverReads routedCodec (RpcSession.routeTransaction routedCodec routedWrapper).written =
        some routedWrapper ∧
      Intact routedCodec routedWrapper
        ⟨some [1], buildMessage .transaction (text "08011A01012801"), []⟩ := by
  obtain ⟨hserver, hexact⟩ := intact_iff routedCodec hexInverse_botan routedWrapper rfl
  refine ⟨hserver, (hexact _).mpr ?_⟩
  exact ⟨text "08011A01012801", routedBytes, ⟨by decide, Or.inl rfl⟩, by decide, rfl⟩

/-- Between two frames the session's buffer is empty, and so is what the server
writes in place of the message. -/
theorem routed_message_lost :
    Session.routeTransaction routedCodec routedWrapper ⟨some [1], [], []⟩ =
        ⟨buildMessage .transaction (text "08011A01012801"), []⟩ ∧
      ¬ Intact routedCodec routedWrapper ⟨some [1], [], []⟩ := by
  refine ⟨by decide, ?_⟩
  rintro ⟨_, hclient⟩
  exact absurd hclient (by decide)

end Keto.Rpc.RoutedMessages
