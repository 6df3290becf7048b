import Keto.Library.Runs
import Keto.Rpc.ClientSession

/-!
The pending operations of a client session. A stream takes one read and one
write at a time, and none after a close. `on_read` leaves the next read to the
completion of a write by returning; where it starts a write or a close and does
not return, two reads come to be pending, or one after the close.
-/
namespace Keto.Rpc.PendingOperations

open Protocol AccountDb Library.Stateful Library.Runs RpcSession

inductive Operation
  | read
  | write
  | close
  deriving DecidableEq, Repr

def operationOf : ClientAct → Option Operation
  | .read => some .read
  | .write _ => some .write
  | .close => some .close
  | _ => none

def operations (session : RpcSession) : List Operation := session.acts.filterMap operationOf

/-- The operations that are outstanding; writes of routed messages complete in
`on_outBoundWrite`. -/
structure Pending where
  connected : Bool
  reads : ℕ
  writes : ℕ
  outBound : ℕ
  closes : ℕ
  closeStarted : Bool
  readAfterClose : Bool
  crashed : Bool
  deriving DecidableEq, Repr

namespace Pending

def start : Pending := ⟨false, 0, 0, 0, 0, false, false, false⟩

def begin (s : Pending) : Operation → Pending
  | .read => { s with reads := s.reads + 1, readAfterClose := s.readAfterClose || s.closeStarted }
  | .write => { s with writes := s.writes + 1 }
  | .close => { s with closes := s.closes + 1, closeStarted := true }

end Pending

inductive Event
  | handshake
  | read (data : Bytes) (answers : ClientAnswers)
  | readFailed
  | written (ok : Bool)
  | outBoundWritten
  | closed
  | routeTransaction

variable (context : ClientContext)

/-- A completion of what is not outstanding does not happen. -/
def step (event : Event) (s : Pending) : Pending :=
  if s.crashed then s
  else
    match event with
    | .handshake =>
      if s.connected then s else { s with connected := true }.begin .write
    | .read data answers =>
      if 0 < s.reads then
        match onRead context answers data with
        | some session => (operations session).foldl Pending.begin { s with reads := s.reads - 1 }
        | none => { s with reads := s.reads - 1, crashed := true }
      else s
    | .readFailed => { s with reads := s.reads - 1 }
    | .written ok =>
      if 0 < s.writes then
        if ok then { s with writes := s.writes - 1 }.begin .read
        else { s with writes := s.writes - 1 }
      else s
    | .outBoundWritten => { s with outBound := s.outBound - 1 }
    | .closed => { s with closes := s.closes - 1 }
    | .routeTransaction => { s with outBound := s.outBound + 1 }

def OnePending (s : Pending) : Prop :=
  s.reads ≤ 1 ∧ s.writes + s.outBound ≤ 1 ∧ s.readAfterClose = false

instance (s : Pending) : Decidable (OnePending s) := inferInstanceAs (Decidable (_ ∧ _ ∧ _))

/-- It is met, also when a write that is outstanding completes next. -/
def StaysOnePending (s : Pending) : Prop :=
  OnePending s ∧ OnePending (step context (.written true) s)

section Frames

variable (answers : ClientAnswers) (data : Bytes)

def decodes (index : ℕ) : Bool := ((tokenize data)[index]?.bind context.hex.hexDecode).isSome

/-- The operation that the handler of a frame gets to. -/
def begun : Option Operation :=
  match commandOf data with
  | some .helloConsensus =>
    if decodes context data 1 ∧ decodes context data 2 ∧ answers.consensus.isSome then some .write
    else none
  | some .goAway => if (tokenize data)[1]?.isSome then some .close else none
  | some .accepted =>
    if context.peered = false ∨ (tokenize data)[1]?.isSome ∧ answers.nodeAccountRouting.isSome then
      some .write
    else none
  | some .peers => if decodes context data 1 then some .close else none
  | some .transaction =>
    if decodes context data 1 ∧ answers.routeMessage.isSome then some .write else none
  | some .consensusSession => if decodes context data 1 then some .write else none
  | some .consensus =>
    if decodes context data 1 ∧ answers.consensus.isSome then some .write else none
  | some .close => if (tokenize data)[1]?.isSome then some .close else none
  | _ => none

def branchOf : Branch :=
  match commandOf data with
  | some .transaction => .goesOn
  | some .peers => .goesOn
  | some .goAway => .returns
  | _ => .commits

def leaves : Bool :=
  match branchOf data with
  | .goesOn => false
  | .commits => answers.commit
  | .returns => true

end Frames

/-- No operation is begun beside another one: the condition on a frame, on the
handshake and on `routeTransaction`. -/
def Orderly (event : Event) (s : Pending) : Prop :=
  s.crashed = false →
    match event with
    | .handshake => s.connected = false → s.outBound = 0
    | .read data answers =>
      0 < s.reads → answers.createTransaction = true → ∀ operation,
        begun context answers data = some operation →
          leaves answers data = true ∧ (operation = .write → s.outBound = 0)
    | .routeTransaction => s.writes + s.outBound = 0
    | _ => True

section Handlers

def Begins (begun : Option Operation) (handler : RpcSessionM PUnit) : Prop :=
  Ends handler (fun _ session => begun.isSome = true ∧ operations session = begun.toList)
    (fun _ session => begun = none ∧ operations session = []) consume

theorem begins_transaction (answers : ClientAnswers) (message : Bytes) :
    Begins (if (context.hex.hexDecode message).isSome ∧ answers.routeMessage.isSome then
      some .write else none) (handleTransaction context answers message) := by
  cases hdecode : context.hex.hexDecode message with
  | none => simp [Begins, handleTransaction, hdecode, consume, operations]
  | some bytes =>
    cases hroute : answers.routeMessage with
    | none =>
      simp [Begins, handleTransaction, hdecode, hroute, consume, operations, operationOf]
    | some result =>
      simp [Begins, handleTransaction, hdecode, hroute, consume, operations, operationOf,
        List.filterMap_cons]

theorem begins_helloConsensus (answers : ClientAnswers) (sessionKey initHash : Bytes) :
    Begins (if (context.hex.hexDecode sessionKey).isSome ∧ (context.hex.hexDecode initHash).isSome ∧
      answers.consensus.isSome then some .write else none)
      (helloConsensusResponse context answers sessionKey initHash) := by
  cases hinit : context.hex.hexDecode initHash with
  | none => simp [Begins, helloConsensusResponse, hinit, consume, operations]
  | some hash =>
    cases hkey : context.hex.hexDecode sessionKey with
    | none => simp [Begins, helloConsensusResponse, hinit, hkey, consume, operations]
    | some key =>
      cases hconsensus : answers.consensus with
      | none =>
        simp [Begins, helloConsensusResponse, hinit, hkey, hconsensus, consume, operations,
          operationOf]
      | some consensus =>
        simp [Begins, helloConsensusResponse, hinit, hkey, hconsensus, consume, operations,
          operationOf, List.filterMap_cons]

theorem begins_consensusSession (sessionKey : Bytes) :
    Begins (if (context.hex.hexDecode sessionKey).isSome then some .write else none)
      (consensusSessionResponse context sessionKey) := by
  cases hkey : context.hex.hexDecode sessionKey with
  | none => simp [Begins, consensusSessionResponse, hkey, consume, operations]
  | some key =>
    simp [Begins, consensusSessionResponse, hkey, consume, operations, operationOf,
      List.filterMap_cons]

theorem begins_consensus (answers : ClientAnswers) (message : Bytes) :
    Begins (if (context.hex.hexDecode message).isSome ∧ answers.consensus.isSome then some .write
      else none) (consensusResponse context answers message) := by
  cases hdecode : context.hex.hexDecode message with
  | none => simp [Begins, consensusResponse, hdecode, consume, operations]
  | some hash =>
    cases hconsensus : answers.consensus with
    | none => simp [Begins, consensusResponse, hdecode, hconsensus, consume, operations]
    | some consensus =>
      simp [Begins, consensusResponse, hdecode, hconsensus, consume, operations, operationOf]

theorem begins_peer (message : Bytes) :
    Begins (if (context.hex.hexDecode message).isSome then some .close else none)
      (peerResponse context message) := by
  cases hdecode : context.hex.hexDecode message with
  | none => simp [Begins, peerResponse, hdecode, consume, operations]
  | some response =>
    simp [Begins, peerResponse, hdecode, consume, operations, operationOf, List.filterMap_cons]

theorem begins_registerRequest (answers : ClientAnswers) :
    Begins (if answers.nodeAccountRouting.isSome then some .write else none)
      (handleRegisterRequest context answers) := by
  cases hrouting : answers.nodeAccountRouting with
  | none => simp [Begins, handleRegisterRequest, hrouting, consume, operations]
  | some rpcValue =>
    simp [Begins, handleRegisterRequest, hrouting, consume, operations, operationOf]

def BranchBegins (begun : Option Operation) (ending : Branch) (x : RpcSessionM Branch) : Prop :=
  Ends x (fun branch session =>
      operations session = begun.toList ∧ branch = if begun.isSome then ending else .goesOn)
    (fun _ session => begun = none ∧ operations session = []) consume

theorem branchBegins_of_begins {begun : Option Operation} {handler : RpcSessionM PUnit}
    (ending : Branch) (h : Begins begun handler) :
    BranchBegins begun ending (handler >>= fun _ => pure ending) := by
  rw [BranchBegins, ends_bind]
  refine h.mono ?_ (fun _ _ hraised => hraised)
  rintro _ session ⟨hsome, hoperations⟩
  rw [ends_pure, if_pos hsome]
  exact ⟨hoperations, rfl⟩

theorem branchBegins_token {begun : Option Operation} {ending : Branch} {data : Bytes} {index : ℕ}
    {f : Bytes → RpcSessionM Branch} (hnone : (tokenize data)[index]? = none → begun = none)
    (hsome : ∀ value, (tokenize data)[index]? = some value → BranchBegins begun ending (f value)) :
    BranchBegins begun ending (token data index >>= f) := by
  rw [BranchBegins, ends_bind, ends_token]
  exact ⟨fun htoken => ⟨hnone htoken, rfl⟩, hsome⟩

/-- A branch that takes one token and hands it to its handler. -/
theorem branchBegins_handler {begun : Option Operation} {data : Bytes} {index : ℕ}
    {handler : Bytes → RpcSessionM PUnit} (ending : Branch)
    (hnone : (tokenize data)[index]? = none → begun = none)
    (hsome : ∀ value, (tokenize data)[index]? = some value → Begins begun (handler value)) :
    BranchBegins begun ending (token data index >>= fun value => do handler value; pure ending) :=
  branchBegins_token hnone fun value htoken => branchBegins_of_begins ending (hsome value htoken)

/-- The only handler that returns without an operation. -/
theorem branchBegins_register (answers : ClientAnswers) (message : Bytes) (ending : Branch) :
    BranchBegins none ending
      (registerResponse context answers message >>= fun _ => pure .goesOn) := by
  simp [BranchBegins, registerResponse, consume, operations, operationOf]

theorem branchBegins_close (begun : Option Operation) (hbegun : begun = some .close)
    (ending : Branch) : BranchBegins begun ending (closeResponse >>= fun _ => pure ending) := by
  simp [BranchBegins, closeResponse, consume, operations, operationOf, hbegun]

theorem dispatch_begins (answers : ClientAnswers) (data : Bytes) :
    BranchBegins (begun context answers data) (branchOf data) (dispatch context answers data) := by
  cases hcommand : commandOf data with
  | none => simp [BranchBegins, dispatch, hcommand, begun, consume, operations]
  | some command =>
    cases command with
    | helloConsensus =>
      simp only [dispatch, hcommand, branchOf]
      refine branchBegins_token (fun hfirst => by simp [begun, hcommand, decodes, hfirst]) ?_
      intro sessionKey hfirst
      refine branchBegins_token (fun hsecond => by simp [begun, hcommand, decodes, hsecond]) ?_
      intro initHash hsecond
      refine branchBegins_of_begins .commits ?_
      simpa [begun, hcommand, decodes, hfirst, hsecond] using
        begins_helloConsensus context answers sessionKey initHash
    | goAway =>
      simp only [dispatch, hcommand, branchOf]
      refine branchBegins_token (fun htoken => by simp [begun, hcommand, htoken]) ?_
      intro _ htoken
      exact branchBegins_close (begun context answers data) (by simp [begun, hcommand, htoken]) _
    | accepted =>
      simp only [dispatch, hcommand, branchOf]
      cases hpeered : context.peered with
      | false =>
        simp [BranchBegins, serverRequest, consume, operations, operationOf, begun, hcommand,
          hpeered]
      | true =>
        simp only [Bool.not_true, Bool.false_eq_true, if_false]
        refine branchBegins_handler _ (fun htoken => by simp [begun, hcommand, hpeered, htoken]) ?_
        intro _ htoken
        simpa [begun, hcommand, hpeered, htoken] using begins_registerRequest context answers
    | peers =>
      simp only [dispatch, hcommand, branchOf]
      refine branchBegins_handler _ (fun htoken => by simp [begun, hcommand, decodes, htoken]) ?_
      intro message htoken
      simpa [begun, hcommand, decodes, htoken] using begins_peer context message
    | register =>
      simp only [dispatch, hcommand, begun]
      exact branchBegins_token (fun _ => rfl) fun message _ =>
        branchBegins_register context answers message _
    | transaction =>
      simp only [dispatch, hcommand, branchOf]
      refine branchBegins_handler _ (fun htoken => by simp [begun, hcommand, decodes, htoken]) ?_
      intro message htoken
      simpa [begun, hcommand, decodes, htoken] using begins_transaction context answers message
    | consensusSession =>
      simp only [dispatch, hcommand, branchOf]
      refine branchBegins_handler _ (fun htoken => by simp [begun, hcommand, decodes, htoken]) ?_
      intro message htoken
      simpa [begun, hcommand, decodes, htoken] using begins_consensusSession context message
    | consensus =>
      simp only [dispatch, hcommand, branchOf]
      refine branchBegins_handler _ (fun htoken => by simp [begun, hcommand, decodes, htoken]) ?_
      intro message htoken
      simpa [begun, hcommand, decodes, htoken] using begins_consensus context answers message
    | close =>
      simp only [dispatch, hcommand, branchOf]
      refine branchBegins_token (fun htoken => by simp [begun, hcommand, htoken]) ?_
      intro _ htoken
      exact branchBegins_close (begun context answers data) (by simp [begun, hcommand, htoken]) _
    | _ => simp [BranchBegins, dispatch, hcommand, begun, consume, operations]

/-- The operations that a frame starts: its handler's, and a read unless
`on_read` has returned. -/
def started (answers : ClientAnswers) (data : Bytes) : List Operation :=
  if answers.createTransaction then
    match begun context answers data with
    | some operation => if leaves answers data then [operation] else [operation, .read]
    | none => [.read]
  else [.read]

/-- A session after `on_read` has started these; a token that is not there is used
before the handler begins anything. -/
def Starts (answers : ClientAnswers) (data : Bytes) : Option RpcSession → Prop
  | some session => operations session = started context answers data
  | none => begun context answers data = none

theorem operations_startRead (session : RpcSession) :
    operations session.startRead = operations session ++ [.read] := by
  rw [operations, startRead, List.filterMap_append]
  rfl

theorem starts_onRead (answers : ClientAnswers) (data : Bytes) :
    Starts context answers data (onRead context answers data) := by
  rw [onRead_iff context (Starts context answers data)]
  cases hcreate : answers.createTransaction with
  | false =>
    have hnothing : operations consume = [] := rfl
    simp [handleFrame, hcreate, Starts, started, operations_startRead, hnothing]
  | true =>
    simp only [handleFrame, hcreate, Bool.not_true, Bool.false_eq_true, if_false, ends_bind]
    refine (dispatch_begins context answers data).mono ?_ ?_
    · rintro branch session ⟨hoperations, hbranch⟩
      cases hbegun : begun context answers data with
      | none =>
        simp only [hbegun, Option.isSome_none, Bool.false_eq_true, if_false, Option.toList_none]
          at hoperations hbranch
        simp [Starts, started, hcreate, hbegun, hbranch, operations_startRead, hoperations]
      | some operation =>
        simp only [hbegun, Option.isSome_some, if_true, Option.toList_some] at hoperations hbranch
        cases hending : branchOf data with
        | goesOn =>
          simp [Starts, started, hcreate, hbegun, hbranch, operations_startRead, hoperations,
            leaves, hending]
        | commits =>
          cases hcommit : answers.commit with
          | false =>
            simp [Starts, started, hcreate, hbegun, hbranch, operations_startRead, hoperations,
              leaves, hending, hcommit]
          | true =>
            simp [Starts, started, hcreate, hbegun, hbranch, hoperations, leaves, hending, hcommit]
        | returns =>
          simp [Starts, started, hcreate, hbegun, hbranch, hoperations, leaves, hending]
    · rintro failure session ⟨hnone, hoperations⟩
      cases failure with
      | thrown => simp [Starts, started, hcreate, hnone, operations_startRead, hoperations]
      | missingToken => simp [Starts, hnone]

end Handlers

/-- The states of a session whose steps are in order: it reads, it writes, or it
has started to close. -/
structure Sound (s : Pending) : Prop where
  reads_writes : s.reads + s.writes ≤ 1
  writes_outBound : s.writes + s.outBound ≤ 1
  unconnected : s.connected = false → s.reads = 0 ∧ s.writes = 0 ∧ s.closeStarted = false
  closing : s.closeStarted = true → s.reads = 0 ∧ s.writes = 0
  readAfterClose : s.readAfterClose = false

theorem sound_start : Sound Pending.start := by
  constructor <;> simp [Pending.start]

theorem Sound.onePending {s : Pending} (h : Sound s) : OnePending s := by
  have hreads := h.reads_writes
  exact ⟨by omega, h.writes_outBound, h.readAfterClose⟩

section Steps

variable {s : Pending}

/-- An operation is begun where none of the session's own is pending. -/
theorem sound_begin (hs : Sound s) (hreads : s.reads = 0) (hwrites : s.writes = 0)
    (hconnected : s.connected = true) (hclose : s.closeStarted = false) {operation : Operation}
    (houtBound : operation = .write → s.outBound = 0) : Sound (s.begin operation) := by
  have hone : s.outBound ≤ 1 := by
    have hboth := hs.writes_outBound
    omega
  have hafter := hs.readAfterClose
  cases operation with
  | read =>
    constructor <;> simp [Pending.begin, hreads, hwrites, hconnected, hclose, hafter, hone]
  | write =>
    have hnone := houtBound rfl
    constructor <;> simp [Pending.begin, hreads, hwrites, hconnected, hclose, hafter, hnone]
  | close => constructor <;> simp [Pending.begin, hreads, hwrites, hconnected, hafter, hone]

/-- What completes is no longer pending. -/
theorem sound_completed (hs : Sound s) (reads writes outBound closes : ℕ) (crashed : Bool) :
    Sound ⟨s.connected, s.reads - reads, s.writes - writes, s.outBound - outBound,
      s.closes - closes, s.closeStarted, s.readAfterClose, crashed⟩ := by
  have hone := hs.reads_writes
  have hwrites := hs.writes_outBound
  constructor
  · simp only
    omega
  · simp only
    omega
  · intro hconnected
    obtain ⟨hreads, hwrites, hclose⟩ := hs.unconnected hconnected
    exact ⟨by simp [hreads], by simp [hwrites], hclose⟩
  · intro hclose
    obtain ⟨hreads, hwrites⟩ := hs.closing hclose
    exact ⟨by simp [hreads], by simp [hwrites]⟩
  · exact hs.readAfterClose

/-- While an operation of its own is pending, a session is connected and open. -/
theorem Sound.isOpen (hs : Sound s) (hpending : 0 < s.reads + s.writes) :
    s.connected = true ∧ s.closeStarted = false := by
  constructor
  · by_contra hconnected
    obtain ⟨hreads, hwrites, _⟩ := hs.unconnected (by simpa using hconnected)
    omega
  · by_contra hclose
    obtain ⟨hreads, hwrites⟩ := hs.closing (by simpa using hclose)
    omega

theorem sound_handshake (hs : Sound s) (hconnected : s.connected = false)
    (houtBound : s.outBound = 0) : Sound ({ s with connected := true }.begin .write) := by
  obtain ⟨hreads, hwrites, hclose⟩ := hs.unconnected hconnected
  have hconnects : Sound { s with connected := true } :=
    ⟨hs.reads_writes, hs.writes_outBound, fun h => absurd h (by simp), hs.closing,
      hs.readAfterClose⟩
  exact sound_begin hconnects hreads hwrites rfl hclose fun _ => houtBound

/-- The read that a frame completes leaves nothing of the session's own pending. -/
theorem sound_begin_of_read (hs : Sound s) (hread : 0 < s.reads) {operation : Operation}
    (houtBound : operation = .write → s.outBound = 0) :
    Sound ({ s with reads := s.reads - 1 }.begin operation) := by
  have hone := hs.reads_writes
  obtain ⟨hconnected, hclose⟩ := hs.isOpen (by omega)
  have hcompleted := sound_completed hs 1 0 0 0 s.crashed
  exact sound_begin hcompleted (by simp only; omega) (by simp only; omega) hconnected hclose
    houtBound

theorem sound_frame (hs : Sound s) (hread : 0 < s.reads) (answers : ClientAnswers) (data : Bytes)
    (horderly : answers.createTransaction = true → ∀ operation,
      begun context answers data = some operation →
        leaves answers data = true ∧ (operation = .write → s.outBound = 0)) :
    Sound ((started context answers data).foldl Pending.begin
      { s with reads := s.reads - 1 }) := by
  have hgoesOn := @sound_begin_of_read s hs hread .read fun h => absurd h (by decide)
  cases hcreate : answers.createTransaction with
  | false => simpa [started, hcreate] using hgoesOn
  | true =>
    cases hbegun : begun context answers data with
    | none => simpa [started, hcreate, hbegun] using hgoesOn
    | some operation =>
      obtain ⟨hleaves, houtBound⟩ := horderly hcreate operation hbegun
      simpa [started, hcreate, hbegun, hleaves] using sound_begin_of_read hs hread houtBound

theorem sound_written (hs : Sound s) (hwrite : 0 < s.writes) :
    Sound ({ s with writes := s.writes - 1 }.begin .read) := by
  have hone := hs.reads_writes
  obtain ⟨hconnected, hclose⟩ := hs.isOpen (by omega)
  have hcompleted := sound_completed hs 0 1 0 0 s.crashed
  exact sound_begin hcompleted (by simp only; omega) (by simp only; omega) hconnected hclose
    fun h => absurd h (by decide)

theorem sound_step (event : Event) (s : Pending) (hs : Sound s)
    (horderly : Orderly context event s) : Sound (step context event s) := by
  cases hcrashed : s.crashed with
  | true => simpa [step, hcrashed] using hs
  | false =>
    have hcond := horderly hcrashed
    cases event with
    | handshake =>
      cases hconnected : s.connected with
      | true => simpa [step, hcrashed, hconnected] using hs
      | false =>
        simpa [step, hcrashed, hconnected] using sound_handshake hs hconnected (hcond hconnected)
    | read data answers =>
      by_cases hread : 0 < s.reads
      · have hstarts := starts_onRead context answers data
        cases hon : onRead context answers data with
        | none => simpa [step, hcrashed, hread, hon] using sound_completed hs 1 0 0 0 true
        | some session =>
          rw [hon, Starts] at hstarts
          simpa [step, hcrashed, hread, hon, hstarts] using
            sound_frame context hs hread answers data (hcond hread)
      · simpa [step, hcrashed, hread] using hs
    | readFailed => simpa [step, hcrashed] using sound_completed hs 1 0 0 0 false
    | written ok =>
      by_cases hwrite : 0 < s.writes
      · cases ok with
        | true => simpa [step, hcrashed, hwrite] using sound_written hs hwrite
        | false => simpa [step, hcrashed, hwrite] using sound_completed hs 0 1 0 0 false
      · simpa [step, hcrashed, hwrite] using hs
    | outBoundWritten => simpa [step, hcrashed] using sound_completed hs 0 0 1 0 false
    | closed => simpa [step, hcrashed] using sound_completed hs 0 0 0 1 false
    | routeTransaction =>
      have hnone : s.writes + s.outBound = 0 := hcond
      simp only [step, hcrashed, Bool.false_eq_true, if_false]
      exact ⟨hs.reads_writes, by simp only; omega, hs.unconnected, hs.closing, hs.readAfterClose⟩

theorem staysOnePending_of_sound (hs : Sound s) : StaysOnePending context s :=
  ⟨hs.onePending, (sound_step context (.written true) s hs fun _ => trivial).onePending⟩

/-- A frame that is not in order has two operations begun, or a write beside a
routed message; at the latest when its write completes, the stream is used
against its rules. -/
theorem frame_in_order (hs : Sound s) (hcrashed : s.crashed = false) (hread : 0 < s.reads)
    (answers : ClientAnswers) (data : Bytes)
    (hstays : StaysOnePending context (step context (.read data answers) s)) :
    answers.createTransaction = true → ∀ operation,
      begun context answers data = some operation →
        leaves answers data = true ∧ (operation = .write → s.outBound = 0) := by
  intro hcreate operation hbegun
  have hone := hs.reads_writes
  have hstarts := starts_onRead context answers data
  cases hon : onRead context answers data with
  | none =>
    rw [hon, Starts, hbegun] at hstarts
    exact absurd hstarts (by simp)
  | some session =>
    rw [hon, Starts] at hstarts
    have hstep : step context (.read data answers) s =
        (started context answers data).foldl Pending.begin { s with reads := s.reads - 1 } := by
      simp [step, hcrashed, hread, hon, hstarts]
    rw [hstep] at hstays
    cases hleaves : leaves answers data with
    | true =>
      refine ⟨rfl, ?_⟩
      rintro rfl
      simp [started, hcreate, hbegun, hleaves, StaysOnePending, OnePending, Pending.begin] at hstays
      omega
    | false =>
      exfalso
      cases operation with
      | read =>
        simp [started, hcreate, hbegun, hleaves, StaysOnePending, OnePending, Pending.begin]
          at hstays
      | write =>
        simp [started, hcreate, hbegun, hleaves, StaysOnePending, OnePending, Pending.begin, step,
          hcrashed] at hstays
      | close =>
        simp [started, hcreate, hbegun, hleaves, StaysOnePending, OnePending, Pending.begin]
          at hstays

theorem staysOnePending_iff (event : Event) (hs : Sound s) :
    StaysOnePending context (step context event s) ↔ Orderly context event s := by
  constructor
  · intro hstays hcrashed
    cases event with
    | handshake =>
      intro hconnected
      have hone := hstays.1.2.1
      simp only [step, hcrashed, hconnected, Bool.false_eq_true, if_false, Pending.begin] at hone
      omega
    | read data answers =>
      intro hread
      exact frame_in_order context hs hcrashed hread answers data hstays
    | routeTransaction =>
      have hone := hstays.1.2.1
      simp only [step, hcrashed, Bool.false_eq_true, if_false] at hone
      show s.writes + s.outBound = 0
      omega
    | readFailed => trivial
    | written ok => trivial
    | outBoundWritten => trivial
    | closed => trivial
  · intro horderly
    exact staysOnePending_of_sound context (sound_step context event s hs horderly)

end Steps

/-- In every run whose steps are in order, one read and one write at most are
pending after each step, and no read was started after a close. When a step is
not in order this fails, at once or with the completion of the pending write. -/
theorem onePending_along (events : List Event) :
    (Along (step context) (Orderly context) Pending.start events →
      Along (step context) (fun event s => OnePending (step context event s)) Pending.start
        events) ∧
    (Along (step context) (fun event s => StaysOnePending context (step context event s))
        Pending.start events ↔
      Along (step context) (Orderly context) Pending.start events) := by
  constructor
  · refine along_of_invariant (step context) (sound_step context) ?_ sound_start
    intro event s hs horderly
    exact (sound_step context event s hs horderly).onePending
  · exact along_iff_of_invariant (step context)
      (fun event s hs _ horderly => sound_step context event s hs horderly)
      (fun event s hs _ => staysOnePending_iff context event hs) sound_start
      (along_true (step context) Pending.start events)

def peerContext : ClientContext where
  hex := .botan
  protobuf := ⟨fun wrapper => wrapper.accountHash,
    fun bytes => ⟨1, [], bytes, .transaction, .route, .other⟩, id⟩
  accountHash := [7]
  peered := true
  logInfo := true

def answering : ClientAnswers where
  createTransaction := true
  commit := true
  consensus := some [5]
  nodeAccountRouting := some [6]
  routeMessage := some []
  registerPeer := true

def frame (command : RpcCommand) (payload : String) : Event :=
  .read (buildMessage command (text payload)) answering

def registering : List Event :=
  [.handshake, .written true, frame .helloConsensus "05 09", .written true,
    frame .accepted "ACCEPTED", .written true, frame .register "09", .routeTransaction,
    .outBoundWritten, frame .goAway "GO_AWAY", .closed]

theorem onePending_registering :
    Along (step peerContext) (fun event s => OnePending (step peerContext event s)) Pending.start
      registering := by
  obtain ⟨hsound, hexact⟩ := onePending_along peerContext registering
  refine hsound (hexact.mp ?_)
  refine ⟨?_, ?_, ?_, ?_, ?_, ?_, ?_, ?_, ?_, ?_, ?_, trivial⟩ <;> exact ⟨by decide, by decide⟩

/-- The transaction of a frame is answered, and `on_read` reads on beside the
answer: two reads are pending once it is written. The peers of a frame close the
session, and `on_read` reads on after the close. -/
theorem two_reads_pending :
    (run (step peerContext) Pending.start
        [.handshake, .written true, frame .transaction "08", .written true]).reads = 2 ∧
      ¬ Along (step peerContext) (fun event s => OnePending (step peerContext event s))
        Pending.start [.handshake, .written true, frame .transaction "08", .written true] ∧
      (run (step peerContext) Pending.start
        [.handshake, .written true, frame .peers "09"]).readAfterClose = true := by
  refine ⟨by decide, ?_, by decide⟩
  rintro ⟨_, _, _, hlast, _⟩
  exact absurd hlast (by decide)

end Keto.Rpc.PendingOperations
