import Keto.Library.Runs
import Keto.Rpc.ServerSession

/-!
The handshake of a server session and what it should guard. A client is let in
by a hello and a consensus message that was answered with `ACCEPTED`; `GO_AWAY`
closes the gate again. The answer is sent and not kept, so that no handler can
ask for it: only the order in which the client sends its frames decides.
-/
namespace Keto.Rpc.HandshakeGate

open Protocol AccountDb Library.Stateful Library.Runs Session

structure Frame where
  data : Bytes
  answers : Answers

/-- A session with the last answer to a consensus message, seen from outside. -/
structure Observed where
  session : Session
  answered : Option Bool
  reading : Bool
  deriving DecidableEq, Repr

namespace Observed

def start : Observed := ⟨Session.start, none, true⟩

/-- A hello and a consensus message that validated, no `GO_AWAY` since. -/
def GateOpen (s : Observed) : Prop := s.session.hello.isSome ∧ s.answered = some true

instance (s : Observed) : Decidable s.GateOpen := inferInstanceAs (Decidable (_ ∧ _))

end Observed

def processes : Effect → Bool
  | .addPeer _ => true
  | .addAccount _ => true
  | .registerPeer _ => true
  | .routeMessage _ => true
  | .answered _ => false
  | .removeAccount _ => false

def lastAnswer (before : Option Bool) : List Effect → Option Bool
  | [] => before
  | .answered valid :: effects => lastAnswer (some valid) effects
  | _ :: effects => lastAnswer before effects

variable (context : ServerContext)

/-- A session that does not go on reading handles no more frames. -/
def step (frame : Frame) (s : Observed) : Observed :=
  if s.reading then
    let read := onRead context frame.answers frame.data s.session
    ⟨read.2, lastAnswer s.answered read.2.effects, read.1 == .writes⟩
  else s

def Guarded (frame : Frame) (s : Observed) : Prop :=
  s.reading = true →
    (∀ effect ∈ (onRead context frame.answers frame.data s.session).2.effects,
      processes effect = true → s.GateOpen) ∧
    (onRead context frame.answers frame.data s.session).1 ≠ .undefined

def InOrder (frame : Frame) (s : Observed) : Prop :=
  let decodes := (context.hex.hexDecode (payloadOf frame.data)).isSome = true
  let saidHello := s.session.hello.isSome = true
  match commandOf frame.data with
  | some .helloConsensus =>
    decodes → frame.answers.validateConsensus.isSome = true → context.logInfo = true → saidHello
  | some .peers =>
    (context.logInfo = true → saidHello) ∧
      (frame.answers.externalIpSet = false ∨ payloadOf frame.data = RpcCommand.peers.name →
        s.GateOpen)
  | some .register => s.GateOpen
  | some .transaction => decodes → s.GateOpen
  | some .transactionProcessed => decodes → context.logInfo = true → saidHello
  | some .close => saidHello
  | _ => True

def Orderly (frame : Frame) (s : Observed) : Prop :=
  s.reading = true → frame.answers.createTransaction = true → InOrder context frame s

section Handlers

variable (gate : Prop)

def Behind (session : Session) : Prop :=
  ∀ effect ∈ session.effects, processes effect = true → gate

def Respects {α : Type} (x : SessionM α) (session : Session) : Prop :=
  Ends x (fun _ => Behind gate)
    (fun failure session' => failure = .thrown ∧ Behind gate session') session

variable {gate} {session : Session}

/-- The hello sets what its log line prints. -/
theorem respects_hello (answers : Answers) (payload : Bytes) (heffects : session.effects = []) :
    Respects gate (dispatch context answers (some .hello) payload) session := by
  simp [Respects, dispatch, handleHello, Behind, heffects]

theorem respects_handleHelloConsensus (answers : Answers) (payload : Bytes)
    (heffects : session.effects = []) :
    Respects gate (handleHelloConsensus context answers payload) session ↔
      ((context.hex.hexDecode payload).isSome = true → answers.validateConsensus.isSome = true →
        context.logInfo = true → session.hello.isSome = true) := by
  cases hvalidate : answers.validateConsensus with
  | none => simp [Respects, handleHelloConsensus, Behind, heffects, hvalidate]
  | some valid =>
    cases hdecode : context.hex.hexDecode payload with
    | none => simp [Respects, handleHelloConsensus, Behind, heffects, hdecode]
    | some bytes =>
      simp [Respects, handleHelloConsensus, Behind, heffects, hvalidate, hdecode, processes,
        Option.isSome_iff_ne_none]

/-- The address of the server itself is added for any payload. -/
theorem respects_handlePeer (answers : Answers) (payload : Bytes)
    (heffects : session.effects = []) :
    Respects gate (handlePeer context answers payload) session ↔
      (payload = RpcCommand.peers.name → session.hello.isSome = true) ∧
        (answers.externalIpSet = false ∨ payload = RpcCommand.peers.name → gate) := by
  by_cases hpeers : payload = RpcCommand.peers.name
  · cases hhello : session.hello with
    | none => simp [Respects, handlePeer, Behind, heffects, hpeers, hhello, processes]
    | some account =>
      cases hexternal : answers.externalIpSet with
      | false =>
        simp [Respects, handlePeer, Behind, heffects, hpeers, hhello, hexternal, processes]
      | true =>
        simp [Respects, handlePeer, Behind, heffects, hpeers, hhello, hexternal, processes]
  · simp [Respects, handlePeer, Behind, heffects, hpeers, processes]

theorem respects_handleRegister (answers : Answers) (payload : Bytes)
    (heffects : session.effects = []) :
    Respects gate (handleRegister context answers payload) session ↔
      session.hello.isSome = true ∧ gate := by
  cases hhello : session.hello with
  | none => simp [Respects, handleRegister, hhello]
  | some account =>
    cases hdecode : context.hex.hexDecode payload with
    | none => simp [Respects, handleRegister, Behind, heffects, hhello, hdecode, processes]
    | some bytes =>
      cases hregister : answers.registerPeer with
      | false =>
        simp [Respects, handleRegister, Behind, heffects, hhello, hdecode, hregister, processes]
      | true =>
        simp [Respects, handleRegister, Behind, heffects, hhello, hdecode, hregister, processes]

theorem respects_handleTransaction (answers : Answers) (payload : Bytes)
    (heffects : session.effects = []) :
    Respects gate (handleTransaction context answers payload) session ↔
      ((context.hex.hexDecode payload).isSome = true → session.hello.isSome = true ∧ gate) := by
  cases hdecode : context.hex.hexDecode payload with
  | none => simp [Respects, handleTransaction, Behind, heffects, hdecode]
  | some bytes =>
    cases hhello : session.hello with
    | none => simp [Respects, handleTransaction, hhello, hdecode]
    | some account =>
      cases hroute : answers.routeMessage with
      | none =>
        simp [Respects, handleTransaction, Behind, heffects, hhello, hdecode, hroute, processes]
      | some response =>
        simp [Respects, handleTransaction, Behind, heffects, hhello, hdecode, hroute, processes]

theorem respects_handleTransactionProcessed (payload : Bytes) (heffects : session.effects = []) :
    Respects gate (handleTransactionProcessed context payload) session ↔
      ((context.hex.hexDecode payload).isSome = true → context.logInfo = true →
        session.hello.isSome = true) := by
  cases hdecode : context.hex.hexDecode payload with
  | none => simp [Respects, handleTransactionProcessed, Behind, heffects, hdecode]
  | some bytes =>
    simp [Respects, handleTransactionProcessed, Behind, heffects, hdecode,
      Option.isSome_iff_ne_none]

/-- A branch that logs the account before its handler runs. -/
theorem respects_logged {α : Type} {f : PUnit → SessionM α} :
    Respects gate (logAccount context >>= f) session ↔
      (context.logInfo = true → session.hello.isSome = true) ∧
        Respects gate (f ⟨⟩) session := by
  cases hlog : context.logInfo with
  | false => simp [Respects, hlog]
  | true =>
    cases hhello : session.hello with
    | none => simp [Respects, hlog, hhello]
    | some account => simp [Respects, hlog, hhello]

/-- A branch that goes on once its handler has returned. -/
theorem respects_then_return {x : SessionM PUnit} (continues : Bool) :
    Respects gate (x >>= fun _ => pure continues) session ↔ Respects gate x session := by
  simp [Respects]

theorem respects_close (answers : Answers) (payload : Bytes) (heffects : session.effects = []) :
    Respects gate (dispatch context answers (some .close) payload) session ↔
      session.hello.isSome = true := by
  cases hhello : session.hello with
  | none => simp [Respects, dispatch, hhello]
  | some account => simp [Respects, dispatch, Behind, heffects, hhello, processes]

/-- The `commit` after a branch processes nothing. -/
theorem respects_handleFrame (frame : Frame) (hcreate : frame.answers.createTransaction = true) :
    Respects gate (handleFrame context frame.answers frame.data) session ↔
      Respects gate (dispatch context frame.answers (commandOf frame.data)
        (payloadOf frame.data)) session := by
  simp only [Respects, handleFrame, hcreate, Bool.not_true, Bool.false_eq_true, if_false,
    ends_bind]
  refine ends_congr ?_
  intro continues s
  cases hthrows : continues && !frame.answers.commit with
  | false => simp
  | true => simp

theorem respects_dispatch (frame : Frame) (s : Observed) (heffects : session.effects = [])
    (hhello : session.hello = s.session.hello) :
    Respects s.GateOpen (dispatch context frame.answers (commandOf frame.data)
      (payloadOf frame.data)) session ↔ InOrder context frame s := by
  have hset : s.GateOpen → session.hello.isSome = true := fun hgate => hhello ▸ hgate.1
  cases hcommand : commandOf frame.data with
  | none => simp [Respects, dispatch, Behind, heffects, InOrder, hcommand]
  | some command =>
    cases command with
    | hello =>
      simp [respects_hello context frame.answers (payloadOf frame.data) heffects, InOrder, hcommand]
    | helloConsensus =>
      rw [dispatch, respects_then_return,
        respects_handleHelloConsensus context frame.answers (payloadOf frame.data) heffects]
      simp only [InOrder, hcommand, hhello]
    | peers =>
      rw [dispatch, respects_logged, respects_then_return,
        respects_handlePeer context frame.answers (payloadOf frame.data) heffects]
      simp only [InOrder, hcommand, hhello] at hset ⊢
      constructor
      · rintro ⟨hlog, _, hgate⟩
        exact ⟨hlog, hgate⟩
      · rintro ⟨hlog, hgate⟩
        exact ⟨hlog, fun hpeers => hset (hgate (Or.inr hpeers)), hgate⟩
    | register =>
      rw [dispatch, respects_logged, respects_then_return,
        respects_handleRegister context frame.answers (payloadOf frame.data) heffects]
      simp only [InOrder, hcommand]
      exact ⟨fun h => h.2.2, fun hgate => ⟨fun _ => hset hgate, hset hgate, hgate⟩⟩
    | transaction =>
      rw [dispatch, respects_then_return,
        respects_handleTransaction context frame.answers (payloadOf frame.data) heffects]
      simp only [InOrder, hcommand]
      exact ⟨fun h hdecodes => (h hdecodes).2, fun h hdecodes => ⟨hset (h hdecodes), h hdecodes⟩⟩
    | transactionProcessed =>
      rw [dispatch, respects_then_return,
        respects_handleTransactionProcessed context (payloadOf frame.data) heffects]
      simp only [InOrder, hcommand, hhello]
    | close =>
      rw [respects_close context frame.answers (payloadOf frame.data) heffects]
      simp only [InOrder, hcommand, hhello]
    | _ => simp [Respects, dispatch, Behind, heffects, InOrder, hcommand]

end Handlers

theorem guarded_iff_respects (frame : Frame) (s : Observed) (hreading : s.reading = true) :
    Guarded context frame s ↔
      Respects s.GateOpen (handleFrame context frame.answers frame.data)
        s.session.consume := by
  simp only [Guarded, hreading, true_implies, onRead, Respects, Ends]
  cases hframe : handleFrame context frame.answers frame.data
    s.session.consume with
  | ok continues session' =>
    cases continues with
    | false => simp [Behind]
    | true => simp [Behind]
  | error failure session' =>
    cases failure with
    | thrown => simp [Behind]
    | unsetHello => simp

theorem guarded_iff (frame : Frame) (s : Observed) :
    Guarded context frame s ↔ Orderly context frame s := by
  cases hreading : s.reading with
  | false => simp [Guarded, Orderly, hreading]
  | true =>
    rw [guarded_iff_respects context frame s hreading]
    cases hcreate : frame.answers.createTransaction with
    | false => simp [Respects, handleFrame, Behind, Orderly, hcreate, consume]
    | true =>
      have hdispatch := @respects_dispatch context s.session.consume frame s rfl rfl
      rw [respects_handleFrame context frame hcreate, hdispatch]
      simp [Orderly, hreading, hcreate]

/-- Whatever the client sends in whatever order: the session keeps to the
handshake exactly when the client does. -/
theorem guarded_along_iff (frames : List Frame) :
    Along (step context) (Guarded context) Observed.start frames ↔
      Along (step context) (Orderly context) Observed.start frames :=
  along_congr (step context) (guarded_iff context) Observed.start frames

def frameOf (command : RpcCommand) (payload : Bytes) : Frame :=
  ⟨buildMessage command payload, answering false⟩

/-- Account 1 is told to go away and is registered as a peer all the same. A
transaction without a hello follows the null pointer. -/
theorem rejected_client_registers :
    (run (step plainContext) Observed.start
        [frameOf .hello (text "01"), frameOf .helloConsensus (text "02"),
          frameOf .register (text "03")]) =
      ⟨⟨some [1], buildMessage .register (text "09"), [.addAccount [1], .registerPeer [3]]⟩,
        some false, true⟩ ∧
    (onRead plainContext (answering true) (buildMessage .transaction (text "03"))
      Session.start).1 = .undefined ∧
    ¬ Along (step plainContext) (Guarded plainContext) Observed.start
      [frameOf .hello (text "01"), frameOf .helloConsensus (text "02"),
        frameOf .register (text "03")] := by
  refine ⟨by decide, by decide, ?_⟩
  rintro ⟨_, _, hregister, _⟩
  exact absurd ((hregister (by decide)).1 (.addAccount [1]) (by decide) rfl) (by decide)

end Keto.Rpc.HandshakeGate
