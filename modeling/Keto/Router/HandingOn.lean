import Keto.Router.ManagementRouting
import Keto.Router.StatusLifecycle

/-!
When `routeMessage` answers success for a message, was the message handed on?
Both local routes have combinations of status and operation without a
statement, and both remote routes catch what the handler throws; the answer is
success all the same. The results say for which messages, routers and handlers
a success means one completed hand-off.
-/
namespace Keto.Router.HandingOn

open Protocol TransactionCommon RouterService ManagementRouting

def HandedOnOnce (message : MessageWrapper) (dispatched : List Dispatch) : Prop :=
  ∃ event, dispatched.filter (fun d => d.completed && decide (d.message.msg = message.msg)) =
    [event]

def NeverDrops (router : RouterState) (message : MessageWrapper) : Prop :=
  ∀ iterations outcome response, routeMessage router message iterations = some outcome →
    outcome.result = .ok response → response.success = true →
      HandedOnOnce message outcome.dispatched

/-- The combinations for which `routeLocal` has a statement. -/
def localHandsOn (status : TransactionStatus) (operation : MessageOperation) : Bool :=
  (status = .init || status = .debit || status = .credit) &&
    (operation = .init || operation = .route || operation = .balance)

/-- The combinations for which `routeToAccount` has a statement. -/
def accountHandsOn (status : TransactionStatus) (operation : MessageOperation) : Bool :=
  ((status = .init || status = .debit) && (operation = .init || operation = .route)) ||
    (status = .credit && operation = .route)

def HandsOn (router : RouterState) (message : MessageWrapper) : Prop :=
  if message.accountHash = router.server.accountHash then
    localHandsOn message.unpack.status message.messageOperation = true
  else
    match router.checkAccount message.accountHash with
    | none => True
    | some true => accountHandsOn message.unpack.status message.messageOperation = true
    | some false =>
      match router.store.getAccountRouting message.accountHash with
      | none => router.handles .rpcClientTransaction message = true
      | some management => IsPeer router management →
          (handOff router message (router.peers.getPeer management)).completed = true

def Sound (message : MessageWrapper) (outcome : Outcome Unit) : Prop :=
  outcome.result = .ok () → HandedOnOnce message outcome.dispatched

theorem answer_result_eq_ok (text : String) (outcome : Outcome Unit)
    (response : MessageWrapperResponse) :
    (outcome.answer text).result = .ok response ↔
      outcome.result = .ok () ∧ response = ⟨true, text⟩ := by
  unfold Outcome.answer
  cases outcome.result with
  | error exception => simp [Except.map]
  | ok value => simp [Except.map, eq_comm]

/-- The answer that follows a routing call is always a success. -/
theorem neverDrops_iff_sound {router : RouterState} {message : MessageWrapper} (text : String)
    (outcome : Outcome Unit) (least : ℕ)
    (hroute : ∀ iterations found, routeMessage router message iterations = some found ↔
      least ≤ iterations ∧ outcome.answer text = found) :
    NeverDrops router message ↔ Sound message outcome := by
  constructor
  · intro hnever hresult
    exact hnever least (outcome.answer text) ⟨true, text⟩
      ((hroute least _).mpr ⟨le_refl least, rfl⟩)
      ((answer_result_eq_ok text outcome _).mpr ⟨hresult, rfl⟩) rfl
  · intro hsound iterations found response hfound hresult _
    obtain ⟨_, rfl⟩ := (hroute iterations found).mp hfound
    exact hsound ((answer_result_eq_ok text outcome response).mp hresult).1

theorem handedOnOnce_singleton (message : MessageWrapper) (event : Dispatch)
    (hmsg : event.message.msg = message.msg) :
    HandedOnOnce message [event] ↔ event.completed = true := by
  unfold HandedOnOnce
  cases hcompleted : event.completed with
  | false => simp [hcompleted]
  | true => simp [hcompleted, hmsg]

theorem not_sound_noStatement (message : MessageWrapper) : ¬ Sound message noStatement := by
  intro hsound
  obtain ⟨event, hevent⟩ := hsound rfl
  exact absurd hevent (by simp [noStatement])

/-- An exception of the handler passes through, so a success means it returned. -/
theorem sound_triggerEvent (router : RouterState) (event : Event) (message sent : MessageWrapper)
    (hmsg : sent.msg = message.msg) : Sound message (triggerEvent router event sent) := by
  unfold Sound triggerEvent
  intro hresult
  rw [handedOnOnce_singleton message _ hmsg]
  by_cases hhandles : router.handles event sent = true
  · exact hhandles
  · simp [hhandles] at hresult

/-- A caught exception leaves a success, so the handler has to return. -/
theorem sound_triggerEventCatching_iff (router : RouterState) (event : Event)
    (message sent : MessageWrapper) (hmsg : sent.msg = message.msg) :
    Sound message (triggerEventCatching router event sent) ↔
      router.handles event sent = true := by
  unfold Sound triggerEventCatching
  rw [handedOnOnce_singleton message _ hmsg]
  exact ⟨fun h => h rfl, fun h _ => h⟩

theorem sound_routeToBalancer (router : RouterState) (message : MessageWrapper) :
    Sound message (routeToBalancer router message) := by
  unfold routeToBalancer
  cases haccount : router.registry.getAccount serviceBalance router.generator with
  | error exception =>
    intro hresult
    exact absurd hresult (by simp)
  | ok accountHash =>
    by_cases hlocal : accountHash = router.server.accountHash
    · simp only [hlocal, if_true]
      exact sound_triggerEvent router .balancerMessage message _ rfl
    · simp only [hlocal, if_false]
      exact sound_triggerEvent router .rpcSendMessage message _ rfl

theorem sound_routeLocal_iff (router : RouterState) (message : MessageWrapper) :
    Sound message (routeLocal router message) ↔
      localHandsOn message.unpack.status message.messageOperation = true := by
  have hbalancer := sound_routeToBalancer router message
  have hbalance := sound_triggerEvent router .balancerMessage message message rfl
  have hnone := not_sound_noStatement message
  unfold routeLocal localHandsOn
  cases message.unpack.status <;> cases message.messageOperation <;>
    simp [hbalancer, hbalance, hnone]

theorem sound_routeToAccount_iff (router : RouterState) (message : MessageWrapper) :
    Sound message (routeToAccount router message) ↔
      accountHandsOn message.unpack.status message.messageOperation = true := by
  have hbalancer := sound_routeToBalancer router message
  have hnone := not_sound_noStatement message
  unfold routeToAccount accountHandsOn
  cases message.unpack.status <;> cases message.messageOperation <;>
    simp [hbalancer, hnone]

theorem sound_routeToRpcClient_iff (router : RouterState) (message : MessageWrapper)
    (peer : RpcPeer) :
    Sound message (routeToRpcClient router message peer) ↔
      (handOff router message peer).completed = true := by
  unfold routeToRpcClient handOff
  by_cases hserver : peer.isServer = true
  · rw [if_pos hserver, if_pos hserver]
    exact sound_triggerEventCatching_iff router .rpcClientTransaction message message rfl
  · rw [if_neg hserver, if_neg hserver]
    exact sound_triggerEventCatching_iff router .rpcServerTransaction message _ rfl

/-- A success of the remote routes means a hand-off exactly when the handler of
the event they trigger returns. -/
theorem neverDrops_remote_iff {router : RouterState} {message : MessageWrapper}
    (hown : message.accountHash ≠ router.server.accountHash)
    (hunknown : router.checkAccount message.accountHash = some false) :
    NeverDrops router message ↔
      match router.store.getAccountRouting message.accountHash with
      | none => router.handles .rpcClientTransaction message = true
      | some management => IsPeer router management →
          (handOff router message (router.peers.getPeer management)).completed = true := by
  cases hrouting : router.store.getAccountRouting message.accountHash with
  | none =>
    rw [← sound_triggerEventCatching_iff router .rpcClientTransaction message message rfl]
    refine neverDrops_iff_sound "to peer" (routeToRpcPeer router message) 1 ?_
    intro iterations found
    rw [routeMessage_of_unknown hown hunknown, routeByManagement_eq_some_iff]
    simp [iteration, hrouting, Nat.succ_le_iff]
  | some management =>
    by_cases hpeer : IsPeer router management
    · simp only [hpeer, true_implies]
      rw [← sound_routeToRpcClient_iff]
      refine neverDrops_iff_sound "routed"
        (routeToRpcClient router message (router.peers.getPeer management)) 1 ?_
      intro iterations found
      have hcontains : router.peers.contains management = true := hpeer
      rw [routeMessage_of_unknown hown hunknown, routeByManagement_eq_some_iff]
      simp [iteration, hrouting, hcontains, Nat.succ_le_iff]
    · refine iff_of_true ?_ (fun h => absurd h hpeer)
      intro iterations found response hfound
      rw [routeMessage_of_unknown hown hunknown,
        routeByManagement_diverges router message hrouting hpeer] at hfound
      exact absurd hfound (by simp)

/-- Success means one completed hand-off exactly under `HandsOn`, for messages
with any content, router states and handlers. -/
theorem neverDrops_iff (router : RouterState) (message : MessageWrapper) :
    NeverDrops router message ↔ HandsOn router message := by
  unfold HandsOn
  by_cases hown : message.accountHash = router.server.accountHash
  · rw [if_pos hown, ← sound_routeLocal_iff router message]
    refine neverDrops_iff_sound "local" (routeLocal router message) 0 ?_
    intro iterations found
    simp [routeMessage, hown]
  · rw [if_neg hown]
    cases hcheck : router.checkAccount message.accountHash with
    | none =>
      refine iff_of_true ?_ trivial
      intro iterations found response hfound hresult
      simp only [routeMessage, hown, if_false, hcheck, Option.some.injEq] at hfound
      subst hfound
      exact absurd hresult (by simp)
    | some known =>
      cases known with
      | true =>
        rw [← sound_routeToAccount_iff router message]
        refine neverDrops_iff_sound "found" (routeToAccount router message) 0 ?_
        intro iterations found
        simp [routeMessage, hown, hcheck]
      | false => exact neverDrops_remote_iff hown hcheck

/-- What `updateStateRouteMessage` produces has the operation init, for which the
account's own branch lacks the statement that the server's own branch has. -/
theorem handsOn_updated (router : RouterState) {wrapper next : MessageWrapper}
    {message : TransactionMessage} (hcarries : StatusLifecycle.Carries wrapper message)
    (hstatus : message.currentStatus ≠ .wating)
    (hupdate : updateStateMessage router.server wrapper = .ok next) :
    (next.accountHash = router.server.accountHash →
      (HandsOn router next ↔ StatusLifecycle.statusAfter message.currentStatus = .credit)) ∧
    (next.accountHash ≠ router.server.accountHash →
      router.checkAccount next.accountHash = some true → ¬ HandsOn router next) := by
  obtain ⟨produced, hproduced, _, _, hunpack, hoperation⟩ :=
    StatusLifecycle.updateStateMessage_carries router.server hcarries hstatus
  obtain rfl := Except.ok.inj (hupdate.symm.trans hproduced)
  unfold HandsOn
  rw [hunpack, StatusLifecycle.updateState_currentStatus, hoperation]
  constructor
  · intro hown
    rw [if_pos hown]
    cases hcurrent : message.currentStatus <;>
      simp_all [StatusLifecycle.statusAfter, TransactionProtoHelper.status, localHandsOn]
  · intro hown hfound
    rw [if_neg hown, hfound]
    cases hcurrent : message.currentStatus <;>
      simp_all [StatusLifecycle.statusAfter, TransactionProtoHelper.status, accountHandsOn]

def knowsEveryAccount : RouterState :=
  { serverNine fun _ => none with checkAccount := fun _ => some true }

/-- The credit phase of a debit message is dropped where its account is found. -/
theorem credited_message_dropped :
    ∃ message, updateStateMessage knowsEveryAccount.server StatusLifecycle.debitWrapper =
        .ok message ∧
      message.unpack.status = .credit ∧
      routeMessage knowsEveryAccount message 0 = some ⟨[], .ok ⟨true, "found"⟩⟩ ∧
      ¬ NeverDrops knowsEveryAccount message := by
  refine ⟨_, rfl, rfl, rfl, ?_⟩
  intro hnever
  obtain ⟨event, hevent⟩ := hnever 0 ⟨[], .ok ⟨true, "found"⟩⟩ ⟨true, "found"⟩ rfl rfl rfl
  exact absurd hevent (by simp)

end Keto.Router.HandingOn
