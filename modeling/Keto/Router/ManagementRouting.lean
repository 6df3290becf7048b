import Keto.Library.Ancestry
import Keto.Router.RouterService
import Mathlib.Tactic.IntervalCases

/-!
Routing of messages for accounts that are neither the server's own nor known
to its account store. Such a message belongs to the first peer among the
account and the accounts above it. The loop of `routeMessage` looks the
message's own account up in every iteration: it decides by the first link of
the chain, returns in its first iteration or not at all, and never asks
whether the account itself is a peer.
-/
namespace Keto.Router.ManagementRouting

open Protocol Library.Ancestry RouterService

def IsPeer (router : RouterState) (accountHash : Hash) : Prop :=
  router.peers.contains accountHash = true

/-- The first peer on the chain of management accounts, the account included. -/
def FirstPeer (router : RouterState) (accountHash peer : Hash) : Prop :=
  FirstOnChain router.store.getAccountRouting (IsPeer router) accountHash peer

def handOff (router : RouterState) (message : MessageWrapper) (peer : RpcPeer) : Dispatch :=
  if peer.isServer then
    dispatch router .rpcClientTransaction message
  else
    dispatch router .rpcServerTransaction { message with accountHash := peer.accountHash }

/-- The message went to the first peer of its chain, or to the RPC client when
the chain has none. -/
def HandedToFirstPeer (router : RouterState) (message : MessageWrapper)
    (dispatched : List Dispatch) : Prop :=
  (∀ peer, FirstPeer router message.accountHash peer →
    dispatched = [handOff router message (router.peers.getPeer peer)]) ∧
  ((∀ peer, ¬ FirstPeer router message.accountHash peer) →
    dispatched = [dispatch router .rpcClientTransaction message])

def RoutesToFirstPeer (router : RouterState) (message : MessageWrapper) : Prop :=
  ∃ iterations outcome, routeMessage router message iterations = some outcome ∧
    HandedToFirstPeer router message outcome.dispatched

def FirstLinkDecides (router : RouterState) (accountHash : Hash) : Prop :=
  match router.store.getAccountRouting accountHash with
  | none => ¬ IsPeer router accountHash ∨ (router.peers.getPeer accountHash).isServer = true
  | some management => IsPeer router management ∧
      (¬ IsPeer router accountHash ∨ accountHash = management ∨
        ((router.peers.getPeer accountHash).isServer = true ∧
          (router.peers.getPeer management).isServer = true))

theorem routeToRpcClient_dispatched (router : RouterState) (message : MessageWrapper)
    (peer : RpcPeer) :
    (routeToRpcClient router message peer).dispatched = [handOff router message peer] := by
  unfold routeToRpcClient handOff
  by_cases hserver : peer.isServer = true
  · rw [if_pos hserver, if_pos hserver]
    rfl
  · rw [if_neg hserver, if_neg hserver]
    rfl

theorem handOff_eq_client_iff (router : RouterState) (message : MessageWrapper) (peer : RpcPeer) :
    handOff router message peer = dispatch router .rpcClientTransaction message ↔
      peer.isServer = true := by
  unfold handOff
  by_cases hserver : peer.isServer = true
  · simp [hserver]
  · simp [hserver, dispatch]

/-- Two peers get the same event when both are servers or both are the same account. -/
theorem handOff_eq_handOff_iff (router : RouterState) (message : MessageWrapper)
    (peer other : RpcPeer) :
    handOff router message peer = handOff router message other ↔
      (peer.isServer = true ∧ other.isServer = true) ∨
        (peer.isServer = false ∧ other.isServer = false ∧
          peer.accountHash = other.accountHash) := by
  unfold handOff
  cases hpeer : peer.isServer with
  | false =>
    cases hother : other.isServer with
    | false =>
      simp only [dispatch, Bool.false_eq_true, if_false, Dispatch.mk.injEq,
        MessageWrapper.mk.injEq, true_and, and_true, and_self, false_or]
      constructor
      · rintro ⟨haccount, _⟩
        exact haccount
      · intro haccount
        exact ⟨haccount, by rw [haccount]⟩
    | true => simp [dispatch]
  | true =>
    cases hother : other.isServer with
    | false => simp [dispatch]
    | true => simp

def iteration (router : RouterState) (message : MessageWrapper) (accountHash : Hash) :
    Option (Outcome MessageWrapperResponse) :=
  match router.store.getAccountRouting accountHash with
  | none => some ((routeToRpcPeer router message).answer "to peer")
  | some management =>
    if router.peers.contains management then
      some ((routeToRpcClient router message (router.peers.getPeer management)).answer "routed")
    else none

/-- Every iteration does the same, so the loop returns what its first one returns. -/
theorem routeByManagement_eq_some_iff (router : RouterState) (message : MessageWrapper)
    (accountHash : Hash) (iterations : ℕ) (outcome : Outcome MessageWrapperResponse) :
    routeByManagement router message accountHash iterations = some outcome ↔
      0 < iterations ∧ iteration router message accountHash = some outcome := by
  unfold iteration
  induction iterations with
  | zero => simp [routeByManagement]
  | succ n ih =>
    unfold routeByManagement
    cases hrouting : router.store.getAccountRouting accountHash with
    | none => simp
    | some management =>
      simp only [hrouting] at ih
      by_cases hpeer : router.peers.contains management = true
      · simp [hpeer]
      · simp [hpeer, ih]

/-- The first link has a management account that is no peer: no number of iterations suffices. -/
theorem routeByManagement_diverges (router : RouterState) (message : MessageWrapper)
    {accountHash management : Hash}
    (hrouting : router.store.getAccountRouting accountHash = some management)
    (hpeer : ¬ IsPeer router management) (iterations : ℕ) :
    routeByManagement router message accountHash iterations = none := by
  cases hloop : routeByManagement router message accountHash iterations with
  | none => rfl
  | some outcome =>
    have hiteration := ((routeByManagement_eq_some_iff router message accountHash iterations
      outcome).mp hloop).2
    have hcontains : router.peers.contains management ≠ true := hpeer
    simp [iteration, hrouting, hcontains] at hiteration

theorem routeMessage_of_unknown {router : RouterState} {message : MessageWrapper}
    (hown : message.accountHash ≠ router.server.accountHash)
    (hunknown : router.checkAccount message.accountHash = some false) (iterations : ℕ) :
    routeMessage router message iterations =
      routeByManagement router message message.accountHash iterations := by
  unfold routeMessage
  rw [if_neg hown, hunknown]

theorem handedToFirstPeer_of_firstPeer {router : RouterState} {message : MessageWrapper}
    {account : Hash} (hfirst : ∀ peer, FirstPeer router message.accountHash peer ↔ peer = account)
    (dispatched : List Dispatch) :
    HandedToFirstPeer router message dispatched ↔
      dispatched = [handOff router message (router.peers.getPeer account)] := by
  constructor
  · rintro ⟨hpeer, _⟩
    exact hpeer account ((hfirst account).mpr rfl)
  · intro hdispatched
    refine ⟨?_, ?_⟩
    · intro peer hpeer
      obtain rfl := (hfirst peer).mp hpeer
      exact hdispatched
    · intro hnone
      exact absurd ((hfirst account).mpr rfl) (hnone account)

theorem handedToFirstPeer_of_none {router : RouterState} {message : MessageWrapper}
    (hnone : ∀ peer, ¬ FirstPeer router message.accountHash peer) (dispatched : List Dispatch) :
    HandedToFirstPeer router message dispatched ↔
      dispatched = [dispatch router .rpcClientTransaction message] := by
  constructor
  · rintro ⟨_, hclient⟩
    exact hclient hnone
  · intro hdispatched
    exact ⟨fun peer hpeer => absurd hpeer (hnone peer), fun _ => hdispatched⟩

/-- The routing of an unknown account compared with what its chain calls for. -/
theorem routesToFirstPeer_iff_iteration {router : RouterState} {message : MessageWrapper}
    (hown : message.accountHash ≠ router.server.accountHash)
    (hunknown : router.checkAccount message.accountHash = some false) :
    RoutesToFirstPeer router message ↔
      ∃ outcome, iteration router message message.accountHash = some outcome ∧
        HandedToFirstPeer router message outcome.dispatched := by
  unfold RoutesToFirstPeer
  simp only [routeMessage_of_unknown hown hunknown, routeByManagement_eq_some_iff]
  constructor
  · rintro ⟨iterations, outcome, ⟨_, houtcome⟩, hhanded⟩
    exact ⟨outcome, houtcome, hhanded⟩
  · rintro ⟨outcome, houtcome, hhanded⟩
    exact ⟨1, outcome, ⟨Nat.one_pos, houtcome⟩, hhanded⟩

/-- Handing the message to the management account is right when the account is
no peer, and otherwise only when both get the same event. -/
theorem handedToFirstPeer_management_iff {router : RouterState} {message : MessageWrapper}
    {management : Hash}
    (hrouting : router.store.getAccountRouting message.accountHash = some management)
    (hpeer : IsPeer router management) :
    HandedToFirstPeer router message [handOff router message (router.peers.getPeer management)] ↔
      (¬ IsPeer router message.accountHash ∨ message.accountHash = management ∨
        ((router.peers.getPeer message.accountHash).isServer = true ∧
          (router.peers.getPeer management).isServer = true)) := by
  by_cases hself : IsPeer router message.accountHash
  · have hfirst : ∀ peer, FirstPeer router message.accountHash peer ↔
        peer = message.accountHash := fun peer => firstOnChain_self _ _ hself
    rw [handedToFirstPeer_of_firstPeer hfirst, List.cons.injEq, handOff_eq_handOff_iff,
      router.peers.getPeer_accountHash hself, router.peers.getPeer_accountHash hpeer]
    constructor
    · rintro ⟨hservers | ⟨_, _, haccount⟩, _⟩
      · exact Or.inr (Or.inr hservers.symm)
      · exact Or.inr (Or.inl haccount.symm)
    · rintro (hnot | haccount | hservers)
      · exact absurd hself hnot
      · rw [haccount]
        cases hserver : (router.peers.getPeer management).isServer with
        | false => exact ⟨Or.inr ⟨rfl, rfl, rfl⟩, rfl⟩
        | true => exact ⟨Or.inl ⟨rfl, rfl⟩, rfl⟩
      · exact ⟨Or.inl hservers.symm, rfl⟩
  · have hfirst : ∀ peer, FirstPeer router message.accountHash peer ↔ peer = management :=
      fun peer => (firstOnChain_link _ _ hself hrouting).trans (firstOnChain_self _ _ hpeer)
    rw [handedToFirstPeer_of_firstPeer hfirst]
    exact iff_of_true rfl (Or.inl hself)

/-- A message for a remote account reaches the peer its chain calls for exactly
when the first link decides; a management account that is no peer makes the
loop run for ever. -/
theorem routesToFirstPeer_iff (router : RouterState) (message : MessageWrapper)
    (hown : message.accountHash ≠ router.server.accountHash)
    (hunknown : router.checkAccount message.accountHash = some false) :
    RoutesToFirstPeer router message ↔ FirstLinkDecides router message.accountHash := by
  rw [routesToFirstPeer_iff_iteration hown hunknown]
  unfold FirstLinkDecides iteration
  cases hrouting : router.store.getAccountRouting message.accountHash with
  | none =>
    simp only [Option.some.injEq, exists_eq_left']
    have hsent : ((routeToRpcPeer router message).answer "to peer").dispatched =
        [dispatch router .rpcClientTransaction message] := rfl
    rw [hsent]
    by_cases hself : IsPeer router message.accountHash
    · have hfirst : ∀ peer, FirstPeer router message.accountHash peer ↔
          peer = message.accountHash := fun peer => firstOnChain_self _ _ hself
      rw [handedToFirstPeer_of_firstPeer hfirst, List.cons.injEq, eq_comm,
        handOff_eq_client_iff]
      simp [hself]
    · rw [handedToFirstPeer_of_none
        (fun peer => not_firstOnChain_of_none _ _ hself hrouting)]
      exact iff_of_true rfl (Or.inl hself)
  | some management =>
    by_cases hpeer : IsPeer router management
    · have hcontains : router.peers.contains management = true := hpeer
      simp only [hcontains, if_true, Option.some.injEq, exists_eq_left', hpeer, true_and]
      rw [show ((routeToRpcClient router message (router.peers.getPeer management)).answer
        "routed").dispatched = _ from routeToRpcClient_dispatched router message _]
      exact handedToFirstPeer_management_iff hrouting hpeer
    · have hcontains : ¬ router.peers.contains management = true := hpeer
      simp [hcontains, hpeer]

def serverNine (routerIndex : Hash → Option Hash) : RouterState where
  server := ⟨[9], [3]⟩
  peers := PeerCache.empty.addPeer ⟨[5], false⟩
  registry := ⟨fun _ => none⟩
  generator := 0
  store := ⟨routerIndex⟩
  checkAccount := fun _ => some false
  handles := fun _ _ => true

def messageForOne : MessageWrapper where
  version := 1
  sessionHash := []
  accountHash := [1]
  messageType := .transaction
  messageOperation := .init
  msg := .transaction ⟨[7], [], [1], .debit, none⟩

/-- Account 1 is managed by peer 5. -/
theorem routesToFirstPeer_iff_managed :
    RoutesToFirstPeer (serverNine fun _ => some [5]) messageForOne ↔
      FirstLinkDecides (serverNine fun _ => some [5]) [1] :=
  routesToFirstPeer_iff (serverNine fun _ => some [5]) messageForOne (by decide) rfl

def chainOfTwo : RouterState :=
  serverNine fun accountHash => if accountHash = [1] then some [2] else some [5]

/-- The message belongs to the peer two links up, and the loop never returns. -/
theorem chainOfTwo_never_returns :
    messageForOne.accountHash ≠ chainOfTwo.server.accountHash ∧
      chainOfTwo.checkAccount messageForOne.accountHash = some false ∧
      FirstPeer chainOfTwo messageForOne.accountHash [5] ∧
      (∀ iterations, routeMessage chainOfTwo messageForOne iterations = none) ∧
      ¬ RoutesToFirstPeer chainOfTwo messageForOne := by
  have hnever : ∀ iterations, routeMessage chainOfTwo messageForOne iterations = none := by
    intro iterations
    rw [routeMessage_of_unknown (by decide) rfl]
    have hmanagement : ¬ IsPeer chainOfTwo [2] := by
      unfold IsPeer
      decide
    exact routeByManagement_diverges chainOfTwo messageForOne rfl hmanagement iterations
  refine ⟨by decide, rfl, ⟨2, rfl, rfl, ?_⟩, hnever, ?_⟩
  · intro m hm account haccount
    unfold IsPeer
    interval_cases m
    · obtain rfl := Option.some.inj haccount
      decide
    · obtain rfl := Option.some.inj haccount
      decide
  · rintro ⟨iterations, outcome, houtcome, _⟩
    rw [hnever iterations] at houtcome
    exact absurd houtcome (by simp)

end Keto.Router.ManagementRouting
