import Keto.Library.Relay
import Keto.Router.ManagementRouting
import Keto.Rpc.RoutedMessages
import Keto.Rpc.RpcSessionManager

/-!
Messages between nodes. A router that neither owns nor knows the account of a message
gives it to its RPC client, which writes it to the server of one of its sessions; that
server routes it again, under the account of the client. The client answers as soon as
it has written, so a message may be anywhere while its sender was told of a success.
-/
namespace Keto.Network

open Protocol AccountDb Router Router.RouterService Rpc Library.Stateful

structure Node (ι : Type) where
  router : RouterState
  manager : RpcSessionManager
  connected : ℕ → Option ι
  secret : Bytes
  logInfo : Bool

namespace Node

variable {ι : Type} (node : Node ι)

def accountHash : Hash := node.router.server.accountHash

/-- The handler of `RPC_CLIENT_TRANSACTION` is that of the session manager. -/
def routerState : RouterState :=
  { node.router with
    handles := fun event message =>
      match event with
      | .rpcClientTransaction => (node.manager.nextHop message.accountHash).isSome
      | _ => node.router.handles event message }

def peer (accountHash : Hash) : Option ι :=
  (node.manager.nextHop accountHash).bind node.connected

end Node

inductive Ending
  /-- A module of the node, or the server session of a client, has got it. -/
  | handled (event : Router.Event) (completed : Bool)
  /-- The route has no statement for it, or there was none. -/
  | unhandled (exception : Option RouterException)
  /-- The loop over management accounts does not end. -/
  | unanswered
  /-- No session is there for it, or none that is connected. -/
  | unconnected
  /-- The session could not begin its transaction. -/
  | unread
  deriving DecidableEq

structure Ended (ι : Type) where
  node : ι
  message : MessageWrapper
  ending : Ending

/-- A frame on its way to a server, in a session whose hello named the account. -/
structure Carried (ι : Type) where
  server : ι
  account : Hash
  frame : Bytes

structure Traffic (ι : Type) where
  nodes : ι → Node ι
  submitted : List (ι × MessageWrapper)
  inFlight : List (Carried ι)
  ended : List (Ended ι)
  frames : ℕ

/-- A module of a node has a message routed, a server reads the frame that is next in
one of its sessions, or what a node knows has changed. -/
inductive Event (ι : Type)
  | submit (node : ι) (message : MessageWrapper)
  | deliver (k : ℕ) (answers : Answers)
  | change (node : ι) (state : Node ι)

variable {ι : Type}

namespace Traffic

def start (nodes : ι → Node ι) : Traffic ι := ⟨nodes, [], [], [], 0⟩

variable (codec : Codec)

def finish (ended : Ended ι) (t : Traffic ι) : Traffic ι := { t with ended := t.ended ++ [ended] }

def carry (place server : ι) (message : MessageWrapper) (t : Traffic ι) : Traffic ι :=
  { t with inFlight := t.inFlight ++ [⟨server, (t.nodes place).accountHash,
      (RpcSession.routeTransaction codec message).written⟩] }

def handOn (place : ι) (message : MessageWrapper) (t : Traffic ι) (dispatch : Dispatch) :
    Traffic ι :=
  match dispatch.event with
  | .rpcClientTransaction =>
    match (t.nodes place).peer dispatch.message.accountHash with
    | some server => t.carry codec place server dispatch.message
    | none => t.finish ⟨place, message, .unconnected⟩
  | event => t.finish ⟨place, message, .handled event dispatch.completed⟩

/-- `ROUTE_MESSAGE` at a node. One iteration tells whether the loop of the router ends. -/
def route (place : ι) (message : MessageWrapper) (t : Traffic ι) : Traffic ι :=
  match routeMessage (t.nodes place).routerState message 1 with
  | none => t.finish ⟨place, message, .unanswered⟩
  | some outcome =>
    match outcome.dispatched, outcome.result with
    | [], .ok _ => t.finish ⟨place, message, .unhandled none⟩
    | [], .error exception => t.finish ⟨place, message, .unhandled (some exception)⟩
    | dispatched, _ => dispatched.foldl (handOn codec place message) t

def take (k : ℕ) (t : Traffic ι) : Traffic ι :=
  { t with inFlight := t.inFlight.eraseIdx k, frames := t.frames + 1 }

def serverContext (node : Node ι) : ServerContext :=
  ⟨codec, node.secret, node.accountHash, node.logInfo⟩

def routed (effects : List Effect) : List MessageWrapper :=
  effects.filterMap fun effect => match effect with
    | .routeMessage wrapper => some wrapper
    | _ => none

def read (carried : Carried ι) (answers : Answers) (t : Traffic ι) : Traffic ι :=
  let result := Session.onRead (serverContext codec (t.nodes carried.server)) answers carried.frame
    ⟨some carried.account, [], []⟩
  match routed result.2.effects, RoutedMessages.serverReads codec carried.frame with
  | [], some message => t.finish ⟨carried.server, message, .unread⟩
  | messages, _ => messages.foldl (fun t message => t.route codec carried.server message) t

end Traffic

open Traffic

variable [DecidableEq ι] (codec : Codec)

def step (event : Event ι) (t : Traffic ι) : Traffic ι :=
  match event with
  | .submit place message =>
    { t with submitted := t.submitted ++ [(place, message)] }.route codec place message
  | .deliver k answers =>
    match t.inFlight[k]? with
    | some carried => (t.take k).read codec carried answers
    | none => t
  | .change place state => { t with nodes := Function.update t.nodes place state }

/-- Whether a router gives messages of the account to its RPC client. -/
def passesUp (router : RouterState) (accountHash : Hash) : Bool :=
  accountHash ≠ router.server.accountHash && router.checkAccount accountHash == some false &&
    match router.store.getAccountRouting accountHash with
    | none => true
    | some management =>
      router.peers.contains management && (router.peers.getPeer management).isServer

def StaysHere (dispatched : List Dispatch) : Prop :=
  dispatched = [] ∨ ∃ d, dispatched = [d] ∧ d.event ≠ .rpcClientTransaction

section Router

variable (router : RouterState) (message : MessageWrapper)

theorem staysHere_routeToBalancer : StaysHere (routeToBalancer router message).dispatched := by
  rw [routeToBalancer]
  split
  · exact Or.inl rfl
  · split <;> exact Or.inr ⟨_, rfl, by simp [dispatch]⟩

theorem staysHere_routeLocal : StaysHere (routeLocal router message).dispatched := by
  have hbalancer := staysHere_routeToBalancer router message
  have hbalance : StaysHere (triggerEvent router .balancerMessage message).dispatched :=
    Or.inr ⟨_, rfl, by simp [dispatch]⟩
  have hnone : StaysHere noStatement.dispatched := Or.inl rfl
  rw [routeLocal]
  cases message.unpack.status <;> cases message.messageOperation <;> assumption

theorem staysHere_routeToAccount : StaysHere (routeToAccount router message).dispatched := by
  have hbalancer := staysHere_routeToBalancer router message
  have hnone : StaysHere noStatement.dispatched := Or.inl rfl
  rw [routeToAccount]
  cases message.unpack.status <;> cases message.messageOperation <;> assumption

theorem routeMessage_of_passesUp (h : passesUp router message.accountHash = true) :
    ∃ outcome, routeMessage router message 1 = some outcome ∧
      outcome.dispatched = [dispatch router .rpcClientTransaction message] := by
  simp only [passesUp, Bool.and_eq_true, decide_eq_true_eq, beq_iff_eq] at h
  obtain ⟨⟨hown, hunknown⟩, hrouting⟩ := h
  rw [ManagementRouting.routeMessage_of_unknown hown hunknown, routeByManagement]
  cases hmanagement : router.store.getAccountRouting message.accountHash with
  | none => exact ⟨_, rfl, rfl⟩
  | some management =>
    simp only [hmanagement, Bool.and_eq_true] at hrouting
    obtain ⟨hpeer, hserver⟩ := hrouting
    refine ⟨_, if_pos hpeer, ?_⟩
    simp [routeToRpcClient, hserver, routeToRpcPeer, Outcome.answer, triggerEventCatching]

theorem routeMessage_of_not_passesUp (h : passesUp router message.accountHash = false)
    {outcome : Outcome MessageWrapperResponse}
    (houtcome : routeMessage router message 1 = some outcome) : StaysHere outcome.dispatched := by
  rw [routeMessage] at houtcome
  split at houtcome
  · obtain rfl := Option.some.inj houtcome
    exact staysHere_routeLocal router message
  · next hown =>
    split at houtcome
    · obtain rfl := Option.some.inj houtcome
      exact Or.inl rfl
    · obtain rfl := Option.some.inj houtcome
      exact staysHere_routeToAccount router message
    · next hunknown =>
      rw [routeByManagement] at houtcome
      cases hmanagement : router.store.getAccountRouting message.accountHash with
      | none => simp [passesUp, hown, hunknown, hmanagement] at h
      | some management =>
        simp only [hmanagement] at houtcome
        split at houtcome
        · next hpeer =>
          obtain rfl := Option.some.inj houtcome
          have hserver : (router.peers.getPeer management).isServer = false := by
            simpa [passesUp, hown, hunknown, hmanagement, hpeer] using h
          refine Or.inr ⟨_, ManagementRouting.routeToRpcClient_dispatched router message _, ?_⟩
          simp [ManagementRouting.handOff, hserver, dispatch]
        · simp [routeByManagement] at houtcome

end Router
section Steps

variable {ι : Type} (codec : Codec)

def onward (nodes : ι → Node ι) (accountHash : Hash) (place : ι) : Option ι :=
  if passesUp (nodes place).router accountHash then (nodes place).peer accountHash else none

/-- A message is carried on, or it ends here. -/
theorem route_cases (place : ι) (message : MessageWrapper) (t : Traffic ι) :
    (∃ server, onward t.nodes message.accountHash place = some server ∧
      t.route codec place message = t.carry codec place server message) ∨
    (onward t.nodes message.accountHash place = none ∧ ∃ ending, ending ≠ Ending.unread ∧
      t.route codec place message = t.finish ⟨place, message, ending⟩) := by
  have hrouter : passesUp (t.nodes place).routerState message.accountHash =
      passesUp (t.nodes place).router message.accountHash := rfl
  cases hpasses : passesUp (t.nodes place).router message.accountHash with
  | true =>
    obtain ⟨outcome, hroute, hdispatched⟩ :=
      routeMessage_of_passesUp _ message (hrouter.trans hpasses)
    have honward : onward t.nodes message.accountHash place =
        (t.nodes place).peer message.accountHash := by rw [onward, if_pos hpasses]
    have hfold : t.route codec place message = t.handOn codec place message
        (dispatch (t.nodes place).routerState .rpcClientTransaction message) := by
      rw [route, hroute]
      simp only [hdispatched, List.foldl_cons, List.foldl_nil]
    rw [honward, hfold]
    cases hpeer : (t.nodes place).peer message.accountHash with
    | some server => exact Or.inl ⟨server, rfl, by simp [handOn, dispatch, hpeer]⟩
    | none => exact Or.inr ⟨rfl, .unconnected, by simp, by simp [handOn, dispatch, hpeer]⟩
  | false =>
    refine Or.inr ⟨by simp [onward, hpasses], ?_⟩
    cases hroute : routeMessage (t.nodes place).routerState message 1 with
    | none => exact ⟨.unanswered, by simp, by simp [route, hroute]⟩
    | some outcome =>
      rcases routeMessage_of_not_passesUp _ message (hrouter.trans hpasses) hroute with
        hnone | ⟨d, hdispatched, hevent⟩
      · cases hresult : outcome.result with
        | ok response => exact ⟨.unhandled none, by simp, by simp [route, hroute, hnone, hresult]⟩
        | error exception =>
          exact ⟨.unhandled (some exception), by simp, by simp [route, hroute, hnone, hresult]⟩
      · refine ⟨.handled d.event d.completed, by simp, ?_⟩
        rw [route, hroute]
        simp only [hdispatched, List.foldl_cons, List.foldl_nil]
        rw [handOn]
        split
        · next h => exact absurd h hevent
        · rfl

/-- The message of a frame is routed under the account of its session. -/
theorem read_of_begun {carried : Carried ι} {message : MessageWrapper} {answers : Answers}
    (h : RoutedMessages.serverReads codec carried.frame = some message)
    (hcreate : answers.createTransaction = true) (t : Traffic ι) :
    t.read codec carried answers =
      t.route codec carried.server { message with sessionHash := carried.account } := by
  have hhello : (⟨some carried.account, [], []⟩ : Session).hello = some carried.account := rfl
  have heffects := RoutedMessages.serverReads_routes (serverContext codec (t.nodes carried.server))
    answers h hhello hcreate
  rw [Traffic.read, heffects]
  simp [routed]

theorem read_of_not_begun {carried : Carried ι} {message : MessageWrapper} {answers : Answers}
    (h : RoutedMessages.serverReads codec carried.frame = some message)
    (hcreate : answers.createTransaction = false) (t : Traffic ι) :
    t.read codec carried answers = t.finish ⟨carried.server, message, .unread⟩ := by
  have heffects : (Session.onRead (serverContext codec (t.nodes carried.server)) answers
      carried.frame ⟨some carried.account, [], []⟩).2.effects = [] := by
    rw [Session.onRead_iff _ fun read => read.2.effects = []]
    simp [Session.handleFrame, Session.consume, hcreate]
  rw [Traffic.read, heffects]
  simp [routed, h]

end Steps

end Keto.Network
