import Keto.TransactionCommon

/-!
The router service: what it knows of itself, its peers, the services it can
reach and the management accounts of other accounts, and the routing of one
message. The events it triggers are recorded with whether their handler came
back or threw; handlers, the account lookup and the random draw of a service
account are fields of the router, so that results hold whatever they do.
-/
namespace Keto.Router

open Protocol TransactionCommon

inductive Event
  | balancerMessage
  | blockMessage
  | rpcSendMessage
  | rpcServerTransaction
  | rpcClientTransaction
  deriving DecidableEq, Repr

/-- What escapes `routeMessage`: its own exceptions and those of the handlers it calls. -/
inductive RouterException
  | noAccountsForService (text : String)
  | checkAccount
  | handler (event : Event)
  | transaction (exception : TransactionException)
  deriving DecidableEq, Repr

structure ServerInfo where
  accountHash : Hash
  feeAccountHash : Hash
  deriving DecidableEq, Repr

/-- `RpcPeerHelper`, without the account tree it registers. -/
structure RpcPeer where
  accountHash : Hash
  isServer : Bool
  deriving DecidableEq, Repr

/-- The peers by account; `addPeer` files each under its own account. -/
structure PeerCache where
  entries : Hash → Option RpcPeer
  keyed : ∀ accountHash peer, entries accountHash = some peer → peer.accountHash = accountHash

namespace PeerCache

def empty : PeerCache where
  entries := fun _ => none
  keyed := fun _ _ h => absurd h (by simp)

def addPeer (peer : RpcPeer) (cache : PeerCache) : PeerCache where
  entries := fun accountHash =>
    if accountHash = peer.accountHash then some peer else cache.entries accountHash
  keyed := by
    intro accountHash found h
    by_cases hkey : accountHash = peer.accountHash
    · rw [if_pos hkey] at h
      obtain rfl := Option.some.inj h
      exact hkey.symm
    · rw [if_neg hkey] at h
      exact cache.keyed accountHash found h

def contains (cache : PeerCache) (accountHash : Hash) : Bool :=
  (cache.entries accountHash).isSome

/-- The map operator default-constructs the entry of an unknown account. -/
def getPeer (cache : PeerCache) (accountHash : Hash) : RpcPeer :=
  (cache.entries accountHash).getD ⟨[], false⟩

theorem getPeer_accountHash (cache : PeerCache) {accountHash : Hash}
    (h : cache.contains accountHash = true) :
    (cache.getPeer accountHash).accountHash = accountHash := by
  obtain ⟨peer, hpeer⟩ := Option.isSome_iff_exists.mp h
  rw [getPeer, hpeer]
  exact cache.keyed accountHash peer hpeer

end PeerCache

/-- The accounts that registered for a service, in the order of the set. -/
structure RouterRegistry where
  serviceAccountMap : String → Option (List Hash)

namespace RouterRegistry

/-- `generator` is the number drawn from the seeded generator. -/
def getAccount (registry : RouterRegistry) (service : String) (generator : ℕ) :
    Except RouterException Hash :=
  match registry.serviceAccountMap service with
  | some accounts =>
    if h : accounts.length = 0 then
      .error (.noAccountsForService ("No registered for the service : " ++ service))
    else
      .ok (accounts.get ⟨generator % accounts.length, Nat.mod_lt _ (Nat.pos_of_ne_zero h)⟩)
  | none =>
    .error (.noAccountsForService ("The service [" ++ service ++ "] is not registered"))

end RouterRegistry

structure RouterStore where
  routerIndex : Hash → Option Hash

def RouterStore.getAccountRouting (store : RouterStore) (accountHash : Hash) : Option Hash :=
  store.routerIndex accountHash

def serviceBalance : String := "balance"

/-- What one call finds. `checkAccount` is the answer to
`CHECK_ACCOUNT_MESSAGE`, `none` when asking throws; `handles` says of an event
and its message whether the handler returns. -/
structure RouterState where
  server : ServerInfo
  peers : PeerCache
  registry : RouterRegistry
  generator : ℕ
  store : RouterStore
  checkAccount : Hash → Option Bool
  handles : Event → MessageWrapper → Bool

structure Dispatch where
  event : Event
  message : MessageWrapper
  completed : Bool
  deriving DecidableEq, Repr

structure Outcome (α : Type) where
  dispatched : List Dispatch
  result : Except RouterException α

structure MessageWrapperResponse where
  success : Bool
  result : String
  deriving DecidableEq, Repr

namespace Outcome

/-- The successful answer that follows a routing call, unless the call threw. -/
def answer (text : String) (outcome : Outcome Unit) : Outcome MessageWrapperResponse where
  dispatched := outcome.dispatched
  result := outcome.result.map fun _ => ⟨true, text⟩

end Outcome

namespace RouterService

def dispatch (router : RouterState) (event : Event) (message : MessageWrapper) : Dispatch :=
  ⟨event, message, router.handles event message⟩

/-- `triggerEvent`: the exception of a handler passes through. -/
def triggerEvent (router : RouterState) (event : Event) (message : MessageWrapper) :
    Outcome Unit where
  dispatched := [dispatch router event message]
  result := if router.handles event message then .ok () else .error (.handler event)

def triggerEventCatching (router : RouterState) (event : Event) (message : MessageWrapper) :
    Outcome Unit where
  dispatched := [dispatch router event message]
  result := .ok ()

/-- The statements that the local routes repeat for a message on its way to a balancer. -/
def routeToBalancer (router : RouterState) (message : MessageWrapper) : Outcome Unit :=
  let message := { message with messageOperation := .balance }
  match router.registry.getAccount serviceBalance router.generator with
  | .error exception => ⟨[], .error exception⟩
  | .ok accountHash =>
    let message := { message with accountHash := accountHash }
    if accountHash = router.server.accountHash then
      triggerEvent router .balancerMessage message
    else
      triggerEvent router .rpcSendMessage message

def noStatement : Outcome Unit := ⟨[], .ok ()⟩

def routeLocal (router : RouterState) (message : MessageWrapper) : Outcome Unit :=
  match message.unpack.status with
  | .debit | .init =>
    match message.messageOperation with
    | .init | .route => routeToBalancer router message
    | .balance => triggerEvent router .balancerMessage message
    | .block => noStatement
    | .process => noStatement
    | .wait | .persist => noStatement
  | .credit =>
    match message.messageOperation with
    | .init | .route => routeToBalancer router message
    | .balance => triggerEvent router .balancerMessage message
    | .block => noStatement
    | .process => noStatement
    | .wait | .persist => noStatement
  | _ => noStatement

def routeToAccount (router : RouterState) (message : MessageWrapper) : Outcome Unit :=
  match message.unpack.status with
  | .debit | .init =>
    match message.messageOperation with
    | .init | .route => routeToBalancer router message
    | _ => noStatement
  | .credit =>
    match message.messageOperation with
    | .route => routeToBalancer router message
    | _ => noStatement
  | _ => noStatement

def routeToRpcPeer (router : RouterState) (message : MessageWrapper) : Outcome Unit :=
  triggerEventCatching router .rpcClientTransaction message

def routeToRpcClient (router : RouterState) (message : MessageWrapper) (peer : RpcPeer) :
    Outcome Unit :=
  if peer.isServer then
    routeToRpcPeer router message
  else
    triggerEventCatching router .rpcServerTransaction
      { message with accountHash := peer.accountHash }

/-- The loop over management accounts. Its condition looks up `accountHash`,
which the body never assigns; `none` when the iterations do not suffice. -/
def routeByManagement (router : RouterState) (message : MessageWrapper) (accountHash : Hash) :
    ℕ → Option (Outcome MessageWrapperResponse)
  | 0 => none
  | iterations + 1 =>
    match router.store.getAccountRouting accountHash with
    | none => some ((routeToRpcPeer router message).answer "to peer")
    | some management =>
      if router.peers.contains management then
        some ((routeToRpcClient router message (router.peers.getPeer management)).answer "routed")
      else
        routeByManagement router message accountHash iterations

def routeMessage (router : RouterState) (message : MessageWrapper) (iterations : ℕ) :
    Option (Outcome MessageWrapperResponse) :=
  if message.accountHash = router.server.accountHash then
    some ((routeLocal router message).answer "local")
  else
    match router.checkAccount message.accountHash with
    | none => some ⟨[], .error .checkAccount⟩
    | some true => some ((routeToAccount router message).answer "found")
    | some false => routeByManagement router message message.accountHash iterations

/-- The status update: `incrementStatus` is called in both conditions. -/
def updateState (server : ServerInfo) (message : TransactionMessage) : TransactionMessage :=
  let first := TransactionMessageHelper.incrementStatus message
  if first.1 = .processing then
    (TransactionMessageHelper.incrementStatus first.2).2
  else
    let second := TransactionMessageHelper.incrementStatus first.2
    if second.1 = .fee then
      TransactionMessageHelper.setFeeAccount server.feeAccountHash second.2
    else
      second.2

/-- `updateStateRouteMessage` up to its call of `routeMessage`. -/
def updateStateMessage (server : ServerInfo) (message : MessageWrapper) :
    Except TransactionException MessageWrapper := do
  let transaction := message.unpack
  let transactionMessage ← TransactionProtoHelper.getTransactionMessageHelper transaction
  let transactionMessage := updateState server transactionMessage
  let transaction ← TransactionProtoHelper.setTransaction transactionMessage transaction
  let message ← MessageWrapperProtoHelper.setTransaction transaction message
  return { message with messageOperation := .init }

def updateStateRouteMessage (router : RouterState) (message : MessageWrapper) (iterations : ℕ) :
    Option (Outcome MessageWrapperResponse) :=
  match updateStateMessage router.server message with
  | .error exception => some ⟨[], .error (.transaction exception)⟩
  | .ok message => routeMessage router message iterations

end RouterService

end Keto.Router
