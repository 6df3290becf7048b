import Keto.Library.Stateful
import Keto.Rpc.Frames

/-!
A session of the RPC server: what `on_read` does with one frame of the client.
The handlers write their answers to the read buffer, which `on_read` sends back
whether or not they threw. The account a client said hello as is optional data
of the session that most handlers use without asking whether it is there.
-/
namespace Keto.Rpc

open Protocol AccountDb Library.Stateful

structure ServerContext extends Codec where
  secret : Bytes
  accountHash : Bytes
  logInfo : Bool

/-- What the modules behind the handlers do while one frame is handled; `false`
and `none` where they throw. -/
structure Answers where
  createTransaction : Bool
  commit : Bool
  externalIpSet : Bool
  validateConsensus : Option Bool
  peerResponse : Bytes
  registerPeer : Bool
  routeMessage : Option Bytes

/-- What a handler does outside of its session. -/
inductive Effect
  | answered (valid : Bool)
  | addPeer (account : Bytes)
  | addAccount (account : Bytes)
  | removeAccount (account : Bytes)
  | registerPeer (rpcPeer : Bytes)
  | routeMessage (wrapper : MessageWrapper)
  deriving DecidableEq, Repr

/-- `unsetHello` is no exception: the source follows a null pointer. -/
inductive Failure
  | thrown
  | unsetHello
  deriving DecidableEq, Repr

structure Session where
  hello : Option Bytes
  buffer : Bytes
  effects : List Effect
  deriving DecidableEq, Repr

abbrev SessionM := EStateM Failure Session

namespace Session

def start : Session := ⟨none, [], []⟩

def consume (session : Session) : Session := { session with buffer := [], effects := [] }

def getAccountHash : SessionM Bytes := do
  let session ← get
  match session.hello with
  | some account => return account
  | none => throw .unsetHello

def perform (effect : Effect) : SessionM PUnit :=
  modify fun session => { session with effects := session.effects ++ [effect] }

def write (bytes : Bytes) : SessionM PUnit :=
  modify fun session => { session with buffer := session.buffer ++ bytes }

variable (context : ServerContext)

def hexDecode (payload : Bytes) : SessionM Bytes :=
  match context.hex.hexDecode payload with
  | some bytes => return bytes
  | none => throw .thrown

/-- An information line that prints the account of the hello. -/
def logAccount : SessionM PUnit :=
  if context.logInfo then discard getAccountHash else return

section Ends

variable {α : Type} {post : α → Session → Prop} {raised : Failure → Session → Prop}
  {session : Session}

@[simp] theorem ends_perform {post : PUnit → Session → Prop} (effect : Effect) :
    Ends (perform effect) post raised session ↔
      post ⟨⟩ { session with effects := session.effects ++ [effect] } := Iff.rfl

@[simp] theorem ends_write {post : PUnit → Session → Prop} (bytes : Bytes) :
    Ends (write bytes) post raised session ↔
      post ⟨⟩ { session with buffer := session.buffer ++ bytes } := Iff.rfl

@[simp] theorem ends_getAccountHash {post : Bytes → Session → Prop} :
    Ends getAccountHash post raised session ↔
      (session.hello = none → raised .unsetHello session) ∧
        ∀ account, session.hello = some account → post account session := by
  cases hhello : session.hello with
  | none => simp [getAccountHash, hhello]
  | some account => simp [getAccountHash, hhello]

@[simp] theorem ends_hexDecode {post : Bytes → Session → Prop} {payload : Bytes} :
    Ends (hexDecode context payload) post raised session ↔
      (context.hex.hexDecode payload = none → raised .thrown session) ∧
        ∀ bytes, context.hex.hexDecode payload = some bytes → post bytes session := by
  cases hdecode : context.hex.hexDecode payload with
  | none => simp [hexDecode, hdecode]
  | some bytes => simp [hexDecode, hdecode]

@[simp] theorem ends_logAccount {post : PUnit → Session → Prop} :
    Ends (logAccount context) post raised session ↔
      (context.logInfo = true → session.hello = none → raised .unsetHello session) ∧
        ((context.logInfo = true → session.hello ≠ none) → post ⟨⟩ session) := by
  cases hlog : context.logInfo with
  | false => simp [logAccount, hlog]
  | true =>
    cases hhello : session.hello with
    | none => simp [logAccount, hlog, hhello]
    | some account => simp [logAccount, hlog, hhello]

end Ends

def handleHello (payload : Bytes) : SessionM PUnit := do
  let bytes ← hexDecode context payload
  modify fun session => { session with hello := some (context.protobuf.helloAccount bytes) }
  write (buildMessage .helloConsensus (context.hex.hexEncode context.secret ++
    space :: context.hex.hexEncode context.accountHash))

def handleHelloConsensus (answers : Answers) (payload : Bytes) : SessionM PUnit := do
  discard (hexDecode context payload)
  match answers.validateConsensus with
  | none => throw .thrown
  | some valid =>
    perform (.answered valid)
    let answer := if valid then RpcCommand.accepted else .goAway
    write (buildMessage answer answer.name)
    logAccount context

/-- `setExternalIp` adds the server itself while it does not know its address. -/
def handlePeer (answers : Answers) (payload : Bytes) : SessionM PUnit := do
  if !answers.externalIpSet then
    perform (.addPeer context.accountHash)
  if payload = RpcCommand.peers.name then
    let account ← getAccountHash
    perform (.addPeer account)
  write (buildMessage .peers (context.hex.hexEncode answers.peerResponse))

def handleRegister (answers : Answers) (payload : Bytes) : SessionM PUnit := do
  let account ← getAccountHash
  perform (.addAccount account)
  let rpcPeer ← hexDecode context payload
  perform (.registerPeer rpcPeer)
  if !answers.registerPeer then
    throw .thrown
  write (buildMessage .register (context.hex.hexEncode context.accountHash))

def handleTransaction (answers : Answers) (payload : Bytes) : SessionM PUnit := do
  let bytes ← hexDecode context payload
  let account ← getAccountHash
  perform (.routeMessage { context.protobuf.parseWrapper bytes with sessionHash := account })
  match answers.routeMessage with
  | none => throw .thrown
  | some response =>
    write (buildMessage .transactionProcessed (context.hex.hexEncode response))

def handleTransactionProcessed (payload : Bytes) : SessionM PUnit := do
  discard (hexDecode context payload)
  logAccount context

/-- The branch of a command; whether `on_read` goes on after it. -/
def dispatch (answers : Answers) (command : Option RpcCommand) (payload : Bytes) :
    SessionM Bool := do
  match command with
  | some .hello =>
    handleHello context payload
    logAccount context
    return true
  | some .helloConsensus =>
    handleHelloConsensus context answers payload
    return true
  | some .peers =>
    logAccount context
    handlePeer context answers payload
    return true
  | some .register =>
    logAccount context
    handleRegister context answers payload
    return true
  | some .transaction =>
    handleTransaction context answers payload
    return true
  | some .transactionProcessed =>
    handleTransactionProcessed context payload
    return true
  | some .close =>
    let account ← getAccountHash
    perform (.removeAccount account)
    return false
  | _ => return true

/-- The server reads a payload only from frames of two tokens. -/
def payloadOf (data : Bytes) : Bytes :=
  match tokenize data with
  | [_, payload] => payload
  | _ => []

def handleFrame (answers : Answers) (data : Bytes) : SessionM Bool := do
  if !answers.createTransaction then
    throw .thrown
  let continues ← dispatch context answers (commandOf data) (payloadOf data)
  if continues && !answers.commit then
    throw .thrown
  return continues

/-- How `on_read` ends: it writes the buffer back, it returns, or it has used
the hello data that is not there. -/
inductive ReadOutcome
  | writes
  | returns
  | undefined
  deriving DecidableEq, Repr

def onRead (answers : Answers) (data : Bytes) (session : Session) : ReadOutcome × Session :=
  match handleFrame context answers data session.consume with
  | .ok true session' => (.writes, session')
  | .ok false session' => (.returns, session')
  | .error .thrown session' => (.writes, session')
  | .error .unsetHello session' => (.undefined, session')

/-- `routeTransaction` of the server: the session's buffer is what it writes. -/
def routeTransaction (codec : Codec) (wrapper : MessageWrapper) (session : Session) : OutBound :=
  ⟨buildMessage .transaction (codec.hex.hexEncode (codec.protobuf.serializeWrapper wrapper)),
    session.buffer⟩

/-- What holds however `on_read` ends. -/
theorem onRead_iff (p : ReadOutcome × Session → Prop) (answers : Answers) (data : Bytes)
    (session : Session) :
    p (onRead context answers data session) ↔
      Ends (handleFrame context answers data)
        (fun continues session' => p (if continues then .writes else .returns, session'))
        (fun failure session' => p (if failure = .thrown then .writes else .undefined, session'))
        session.consume := by
  cases hframe : handleFrame context answers data session.consume with
  | ok continues session' =>
    rw [ends_of_ok hframe]
    cases continues with
    | false => simp [onRead, hframe]
    | true => simp [onRead, hframe]
  | error failure session' =>
    rw [ends_of_error hframe]
    cases failure with
    | thrown => simp [onRead, hframe]
    | unsetHello => simp [onRead, hframe]

end Session

def plainContext : ServerContext where
  hex := .botan
  protobuf := ⟨fun wrapper => wrapper.accountHash,
    fun bytes => ⟨1, [], bytes, .transaction, .route, .other⟩, id⟩
  secret := [5]
  accountHash := [9]
  logInfo := true

def answering (validateConsensus : Bool) : Answers where
  createTransaction := true
  commit := true
  externalIpSet := true
  validateConsensus := some validateConsensus
  peerResponse := []
  registerPeer := true
  routeMessage := some []

end Keto.Rpc
