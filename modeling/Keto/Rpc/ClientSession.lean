import Keto.Library.Stateful
import Keto.Rpc.Frames

/-!
A session of the RPC client: what `on_read` does with one frame of the server.
Most branches answer and return, and leave the next read to the completion of
their write; the others go on to read themselves, as does every branch that
throws.
-/
namespace Keto.Rpc

open Protocol AccountDb Library.Stateful

/-- What a client session does. A write, a read and a close are started here and
complete later. -/
inductive ClientAct
  | updateSessionKey (sessionKey : Bytes)
  | setPeers (response : Bytes)
  | mapSession (account : Bytes)
  | routeMessage (wrapper : MessageWrapper)
  | write (frame : Bytes)
  | read
  | close
  deriving DecidableEq, Repr

structure ClientContext extends Codec where
  accountHash : Bytes
  peered : Bool
  logInfo : Bool

/-- What the modules behind the handlers do while one frame is handled; `false`
and `none` where they throw. -/
structure ClientAnswers where
  createTransaction : Bool
  commit : Bool
  consensus : Option Bytes
  nodeAccountRouting : Option Bytes
  routeMessage : Option Bytes
  registerPeer : Bool

/-- `missingToken` is no exception: the source reads behind the end of a vector. -/
inductive ClientFailure
  | thrown
  | missingToken
  deriving DecidableEq, Repr

structure RpcSession where
  buffer : Bytes
  acts : List ClientAct
  deriving DecidableEq, Repr

abbrev RpcSessionM := EStateM ClientFailure RpcSession

namespace RpcSession

def start : RpcSession := ⟨[], []⟩

/-- The buffer is cleared before a frame is handled. -/
def consume : RpcSession := ⟨[], []⟩

def perform (act : ClientAct) : RpcSessionM PUnit :=
  modify fun session => { session with acts := session.acts ++ [act] }

def send (message : Bytes) : RpcSessionM PUnit :=
  modify fun session =>
    ⟨session.buffer ++ message, session.acts ++ [.write (session.buffer ++ message)]⟩

def token (data : Bytes) (index : ℕ) : RpcSessionM Bytes :=
  match (tokenize data)[index]? with
  | some value => return value
  | none => throw .missingToken

def processEvent (answer : Option Bytes) : RpcSessionM Bytes :=
  match answer with
  | some result => return result
  | none => throw .thrown

variable (context : ClientContext)

def hexDecode (payload : Bytes) : RpcSessionM Bytes :=
  match context.hex.hexDecode payload with
  | some bytes => return bytes
  | none => throw .thrown

section Ends

variable {post : Bytes → RpcSession → Prop} {raised : ClientFailure → RpcSession → Prop}
  {session : RpcSession}

@[simp] theorem ends_perform {post : PUnit → RpcSession → Prop} (act : ClientAct) :
    Ends (perform act) post raised session ↔
      post ⟨⟩ { session with acts := session.acts ++ [act] } := Iff.rfl

@[simp] theorem ends_send {post : PUnit → RpcSession → Prop} (message : Bytes) :
    Ends (send message) post raised session ↔
      post ⟨⟩ ⟨session.buffer ++ message, session.acts ++ [.write (session.buffer ++ message)]⟩ :=
  Iff.rfl

@[simp] theorem ends_token (data : Bytes) (index : ℕ) :
    Ends (token data index) post raised session ↔
      ((tokenize data)[index]? = none → raised .missingToken session) ∧
        ∀ value, (tokenize data)[index]? = some value → post value session := by
  cases htoken : (tokenize data)[index]? with
  | none => simp only [token, htoken, ends_throw]; simp
  | some value => simp only [token, htoken, ends_pure]; simp

@[simp] theorem ends_processEvent (answer : Option Bytes) :
    Ends (processEvent answer) post raised session ↔
      (answer = none → raised .thrown session) ∧
        ∀ result, answer = some result → post result session := by
  cases answer with
  | none => simp [processEvent]
  | some result => simp [processEvent]

@[simp] theorem ends_hexDecode (payload : Bytes) :
    Ends (hexDecode context payload) post raised session ↔
      (context.hex.hexDecode payload = none → raised .thrown session) ∧
        ∀ bytes, context.hex.hexDecode payload = some bytes → post bytes session := by
  cases hdecode : context.hex.hexDecode payload with
  | none => simp [hexDecode, hdecode]
  | some bytes => simp [hexDecode, hdecode]

end Ends

def helloConsensusResponse (answers : ClientAnswers) (sessionKey initHash : Bytes) :
    RpcSessionM PUnit := do
  discard (hexDecode context initHash)
  perform (.updateSessionKey (← hexDecode context sessionKey))
  let consensus ← processEvent answers.consensus
  send (buildMessage .helloConsensus (context.hex.hexEncode consensus))

def consensusSessionResponse (sessionKey : Bytes) : RpcSessionM PUnit := do
  perform (.updateSessionKey (← hexDecode context sessionKey))
  send (buildMessage .consensusSession (text "OK"))

def consensusResponse (answers : ClientAnswers) (message : Bytes) : RpcSessionM PUnit := do
  discard (hexDecode context message)
  let consensus ← processEvent answers.consensus
  send (buildMessage .consensus (context.hex.hexEncode consensus))

def serverRequest (command : RpcCommand) (message : Bytes) : RpcSessionM PUnit :=
  send (buildMessage command message)

def closeResponse : RpcSessionM PUnit := perform .close

def peerResponse (message : Bytes) : RpcSessionM PUnit := do
  perform (.setPeers (← hexDecode context message))
  perform .close

def handleRegisterRequest (answers : ClientAnswers) : RpcSessionM PUnit := do
  let rpcValue ← processEvent answers.nodeAccountRouting
  send (buildMessage .register (context.hex.hexEncode rpcValue))

def registerResponse (answers : ClientAnswers) (message : Bytes) : RpcSessionM PUnit := do
  perform (.mapSession (← hexDecode context message))
  if !answers.registerPeer then
    throw .thrown

def handleTransaction (answers : ClientAnswers) (message : Bytes) : RpcSessionM PUnit := do
  let bytes ← hexDecode context message
  perform (.routeMessage
    { context.protobuf.parseWrapper bytes with sessionHash := context.accountHash })
  let result ← processEvent answers.routeMessage
  send (buildMessage .transactionProcessed (context.hex.hexEncode result))

/-- `routeTransaction` of the client writes the buffer that it has made. -/
def routeTransaction (codec : Codec) (wrapper : MessageWrapper) : OutBound :=
  let message :=
    buildMessage .transaction (codec.hex.hexEncode (codec.protobuf.serializeWrapper wrapper))
  ⟨message, message⟩

/-- How a branch ends: `on_read` goes on to its next read, it returns after the
commit, or it returns at once. -/
inductive Branch
  | goesOn
  | commits
  | returns
  deriving DecidableEq, Repr

def dispatch (answers : ClientAnswers) (data : Bytes) : RpcSessionM Branch := do
  match commandOf data with
  | some .helloConsensus =>
    helloConsensusResponse context answers (← token data 1) (← token data 2)
    return .commits
  | some .goAway =>
    let _ ← token data 1
    closeResponse
    return .returns
  | some .accepted =>
    if !context.peered then
      serverRequest .peers RpcCommand.peers.name
    else
      let _ ← token data 1
      handleRegisterRequest context answers
    return .commits
  | some .peers =>
    peerResponse context (← token data 1)
    return .goesOn
  | some .register =>
    registerResponse context answers (← token data 1)
    return .goesOn
  | some .transaction =>
    handleTransaction context answers (← token data 1)
    return .goesOn
  | some .transactionProcessed =>
    if context.logInfo then
      let _ ← token data 1
    return .goesOn
  | some .consensusSession =>
    consensusSessionResponse context (← token data 1)
    return .commits
  | some .consensus =>
    consensusResponse context answers (← token data 1)
    return .commits
  | some .close =>
    let _ ← token data 1
    closeResponse
    return .commits
  | _ => return .goesOn

/-- The `try` block of `on_read`; whether `on_read` goes on to its read. -/
def handleFrame (answers : ClientAnswers) (data : Bytes) : RpcSessionM Bool := do
  if !answers.createTransaction then
    throw .thrown
  let branch ← dispatch context answers data
  if branch ≠ .returns ∧ answers.commit = false then
    throw .thrown
  return branch = .goesOn

def startRead (session : RpcSession) : RpcSession :=
  { session with acts := session.acts ++ [.read] }

/-- A session after a frame, `none` where a token is used that is not there. -/
def onRead (answers : ClientAnswers) (data : Bytes) : Option RpcSession :=
  match handleFrame context answers data consume with
  | .ok true session => some session.startRead
  | .ok false session => some session
  | .error .thrown session => some session.startRead
  | .error .missingToken _ => none

/-- What holds however `on_read` ends. -/
theorem onRead_iff (p : Option RpcSession → Prop) (answers : ClientAnswers) (data : Bytes) :
    p (onRead context answers data) ↔
      Ends (handleFrame context answers data)
        (fun goesOn session => p (some (if goesOn then session.startRead else session)))
        (fun failure session => p (if failure = .thrown then some session.startRead else none))
        consume := by
  cases hframe : handleFrame context answers data consume with
  | ok goesOn session =>
    rw [ends_of_ok hframe]
    cases goesOn with
    | false => simp [onRead, hframe]
    | true => simp [onRead, hframe]
  | error failure session =>
    rw [ends_of_error hframe]
    cases failure with
    | thrown => simp [onRead, hframe]
    | missingToken => simp [onRead, hframe]

end RpcSession

end Keto.Rpc
