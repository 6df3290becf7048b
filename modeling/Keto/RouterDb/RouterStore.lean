import Keto.Library.Overlay
import Keto.Router.RouterService
import Keto.RouterUtils.RoutingHelpers

/-!
The router store: under the hash of an account, the bytes of the message that
names its management account, in the transaction of the thread. A push tree is
stored with one entry for each of its nodes, a node's before those below it.
-/
namespace Keto.RouterDb

open Protocol Library RouterUtils

structure RoutingPut where
  accountHash : Hash
  value : Bytes

def RoutingPut.apply (put : RoutingPut) (routerIndex : Hash → Option Bytes) :
    Hash → Option Bytes :=
  Function.update routerIndex put.accountHash (some put.value)

structure RouterStore where
  routerIndex : Overlay (Hash → Option Bytes) RoutingPut

namespace RouterStore

variable (protobuf : Protobuf AccountRoutingStore)

def empty : RouterStore := ⟨⟨fun _ => none, []⟩⟩

def putAll (puts : List RoutingPut) (store : RouterStore) : RouterStore :=
  ⟨store.routerIndex.putAll puts⟩

def getAccountRouting (store : RouterStore) (accountHash : Hash) : Option AccountRoutingStore :=
  (store.routerIndex.view RoutingPut.apply accountHash).map protobuf.parse

def setAccountRouting (accountHash : Hash) (routing : AccountRoutingStore) (store : RouterStore) :
    RouterStore :=
  store.putAll [⟨accountHash, protobuf.serialise routing⟩]

def routingPut (pushAccountHelper : PushAccountHelper) : RoutingPut :=
  let accountRoutingStoreHelper := AccountRoutingStoreHelper.new.setManagementAccountHash
    pushAccountHelper.pushAccount.managementAccountHash
  ⟨pushAccountHelper.pushAccount.accountHash, (accountRoutingStoreHelper.toString protobuf).1⟩

mutual

def pushAccountRouting : PushAccount → RouterStore → RouterStore
  | ⟨version, accountHash, managementAccountHash, childAccounts⟩, store =>
    pushChildren childAccounts (store.putAll
      [routingPut protobuf (.ofMessage
        ⟨version, accountHash, managementAccountHash, childAccounts⟩)])

def pushChildren : List PushAccount → RouterStore → RouterStore
  | [], store => store
  | child :: children, store => pushChildren children (pushAccountRouting child store)

end

theorem pushChildren_eq_foldl (children : List PushAccount) (store : RouterStore) :
    pushChildren protobuf children store =
      children.foldl (fun store child => pushAccountRouting protobuf child store) store := by
  induction children generalizing store with
  | nil => rfl
  | cons child children ih => rw [pushChildren, ih, List.foldl_cons]

/-- The recursion as it stands in the source, over the helpers of the child accounts. -/
theorem pushAccountRouting_eq (pushAccountHelper : PushAccountHelper) (store : RouterStore) :
    pushAccountRouting protobuf pushAccountHelper.pushAccount store =
      pushAccountHelper.getChildren.foldl
        (fun store entry => pushAccountRouting protobuf entry.pushAccount store)
        (store.putAll [routingPut protobuf pushAccountHelper]) := by
  obtain ⟨pushAccount⟩ := pushAccountHelper
  cases pushAccount
  rw [pushAccountRouting, pushChildren_eq_foldl, PushAccountHelper.getChildren, List.foldl_map]
  rfl

theorem putAll_putAll (puts more : List RoutingPut) (store : RouterStore) :
    (store.putAll puts).putAll more = store.putAll (puts ++ more) := by
  rw [putAll, putAll, putAll, Overlay.putAll, Overlay.putAll, Overlay.putAll, List.append_assoc]

def routingPuts (pushAccount : PushAccount) : List RoutingPut :=
  pushAccount.nodes.map fun node => routingPut protobuf (.ofMessage node)

/-- When every tree of a list puts the entries of its nodes, so does the list. -/
theorem foldl_pushAccountRouting {children : List PushAccount}
    (h : ∀ child ∈ children, ∀ store,
      pushAccountRouting protobuf child store = store.putAll (routingPuts protobuf child))
    (store : RouterStore) :
    children.foldl (fun store child => pushAccountRouting protobuf child store) store =
      store.putAll (children.flatMap (routingPuts protobuf)) := by
  induction children generalizing store with
  | nil =>
    rw [List.foldl_nil, List.flatMap_nil, putAll, Overlay.putAll, List.append_nil]
  | cons child children ih =>
    rw [List.forall_mem_cons] at h
    rw [List.foldl_cons, h.1, ih h.2, putAll_putAll, List.flatMap_cons]

/-- Pushing a tree puts one entry for each of its nodes. -/
theorem pushAccountRouting_eq_putAll (pushAccount : PushAccount) (store : RouterStore) :
    pushAccountRouting protobuf pushAccount store =
      store.putAll (routingPuts protobuf pushAccount) := by
  induction pushAccount using PushAccount.induction generalizing store with
  | h pushAccount ih =>
    have hstep := pushAccountRouting_eq protobuf (.ofMessage pushAccount) store
    rw [PushAccountHelper.getChildren, List.foldl_map] at hstep
    have hchildren := foldl_pushAccountRouting protobuf ih
      (store.putAll [routingPut protobuf (.ofMessage pushAccount)])
    rw [putAll_putAll] at hchildren
    refine hstep.trans (hchildren.trans (congrArg store.putAll ?_))
    rw [routingPuts, PushAccount.nodes_eq_cons, List.map_cons, List.map_flatMap]
    rfl

/-- What the entry of a node reads as. -/
theorem parse_routingPut (pushAccountHelper : PushAccountHelper) :
    protobuf.parse (routingPut protobuf pushAccountHelper).value =
      ⟨protocolVersion, pushAccountHelper.pushAccount.managementAccountHash⟩ :=
  protobuf.parse_serialise _

theorem view_putAll (puts : List RoutingPut) (store : RouterStore) :
    (store.putAll puts).routerIndex.view RoutingPut.apply =
      Overlay.applyAll (fun (put : RoutingPut) routerIndex =>
        Function.update routerIndex put.accountHash (some put.value)) puts
        (store.routerIndex.view RoutingPut.apply) :=
  Overlay.view_putAll RoutingPut.apply puts store.routerIndex

theorem getAccountRouting_putAll_of_mem {puts : List RoutingPut}
    (haccounts : (puts.map RoutingPut.accountHash).Nodup) {put : RoutingPut} (h : put ∈ puts)
    (store : RouterStore) :
    (store.putAll puts).getAccountRouting protobuf put.accountHash =
      some (protobuf.parse put.value) := by
  rw [getAccountRouting, view_putAll, Overlay.applyAll_updates_of_mem RoutingPut.accountHash
    (fun put => some put.value) haccounts h, Option.map_some]

theorem getAccountRouting_putAll_of_ne {puts : List RoutingPut} {accountHash : Hash}
    (h : ∀ put ∈ puts, put.accountHash ≠ accountHash) (store : RouterStore) :
    (store.putAll puts).getAccountRouting protobuf accountHash =
      store.getAccountRouting protobuf accountHash := by
  rw [getAccountRouting, view_putAll, Overlay.applyAll_updates_of_ne RoutingPut.accountHash
    (fun put => some put.value) h, getAccountRouting]

section Push

variable (store : RouterStore) {pushAccount : PushAccount}

/-- A node of a tree of different accounts is routed to the management account it has there. -/
theorem getAccountRouting_of_node
    (haccounts : (pushAccount.nodes.map PushAccount.accountHash).Nodup) {node : PushAccount}
    (hnode : node ∈ pushAccount.nodes) :
    (pushAccountRouting protobuf pushAccount store).getAccountRouting protobuf node.accountHash =
      some ⟨protocolVersion, node.managementAccountHash⟩ := by
  have hkeys : ((routingPuts protobuf pushAccount).map RoutingPut.accountHash).Nodup := by
    rw [routingPuts, List.map_map]
    exact haccounts
  have hput : routingPut protobuf (.ofMessage node) ∈ routingPuts protobuf pushAccount :=
    List.mem_map_of_mem hnode
  have hrouting := getAccountRouting_putAll_of_mem protobuf hkeys hput store
  rw [parse_routingPut] at hrouting
  rw [pushAccountRouting_eq_putAll]
  exact hrouting

/-- An account that is not in the tree is routed as before. -/
theorem getAccountRouting_of_off_tree {accountHash : Hash}
    (h : ∀ node ∈ pushAccount.nodes, node.accountHash ≠ accountHash) :
    (pushAccountRouting protobuf pushAccount store).getAccountRouting protobuf accountHash =
      store.getAccountRouting protobuf accountHash := by
  rw [pushAccountRouting_eq_putAll]
  refine getAccountRouting_putAll_of_ne protobuf ?_ store
  intro put hput
  obtain ⟨node, hnode, rfl⟩ := List.mem_map.mp hput
  exact h node hnode

end Push

/-- After a push tree of different accounts each of its nodes is routed to the
management account the tree has for it, and every other account as before. -/
theorem pushAccountRouting_routes (store : RouterStore) (pushAccount : PushAccount)
    (haccounts : (pushAccount.nodes.map PushAccount.accountHash).Nodup) :
    (∀ node ∈ pushAccount.nodes,
      (pushAccountRouting protobuf pushAccount store).getAccountRouting protobuf
        node.accountHash = some ⟨protocolVersion, node.managementAccountHash⟩) ∧
    ∀ accountHash, (∀ node ∈ pushAccount.nodes, node.accountHash ≠ accountHash) →
      (pushAccountRouting protobuf pushAccount store).getAccountRouting protobuf accountHash =
        store.getAccountRouting protobuf accountHash :=
  ⟨fun _ hnode => getAccountRouting_of_node protobuf store haccounts hnode,
    fun _ hoff => getAccountRouting_of_off_tree protobuf store hoff⟩

/-- A peer's tree of three levels, pushed into a store that knows one other account. -/
theorem pushAccountRouting_routes_three_levels :
    let pushAccount : PushAccount := ⟨1, [1], [9], [⟨1, [2], [1], [⟨1, [3], [2], []⟩]⟩,
      ⟨1, [4], [1], []⟩]⟩
    let store := empty.setAccountRouting AccountRoutingStore.protobuf [7] ⟨1, [8]⟩
    (pushAccountRouting AccountRoutingStore.protobuf pushAccount store).getAccountRouting
      AccountRoutingStore.protobuf [3] = some ⟨protocolVersion, [2]⟩ ∧
    (pushAccountRouting AccountRoutingStore.protobuf pushAccount store).getAccountRouting
      AccountRoutingStore.protobuf [7] =
        store.getAccountRouting AccountRoutingStore.protobuf [7] := by
  intro pushAccount store
  have hroutes := pushAccountRouting_routes AccountRoutingStore.protobuf store pushAccount
    (by decide)
  refine ⟨hroutes.1 ⟨1, [3], [2], []⟩ ?_, hroutes.2 [7] ?_⟩
  · simp [pushAccount, PushAccount.nodes, PushAccount.nodesOf]
  · simp [pushAccount, PushAccount.nodes, PushAccount.nodesOf]

def managementAccounts (store : RouterStore) : Router.RouterStore :=
  ⟨fun accountHash => (store.getAccountRouting protobuf accountHash).map
    AccountRoutingStore.managementAccountHash⟩

theorem getAccountRouting_managementAccounts (store : RouterStore) (accountHash : Hash) :
    (store.managementAccounts protobuf).getAccountRouting accountHash =
      (store.getAccountRouting protobuf accountHash).map
        AccountRoutingStore.managementAccountHash := rfl

/-- What the router follows after a push are the links of the tree, and off the tree its own. -/
theorem managementAccounts_pushAccountRouting (store : RouterStore) {pushAccount : PushAccount}
    (haccounts : (pushAccount.nodes.map PushAccount.accountHash).Nodup) (accountHash : Hash) :
    ((pushAccountRouting protobuf pushAccount store).managementAccounts protobuf).getAccountRouting
        accountHash =
      match pushAccount.nodes.find? (fun node => node.accountHash = accountHash) with
      | some node => some node.managementAccountHash
      | none => (store.managementAccounts protobuf).getAccountRouting accountHash := by
  rw [getAccountRouting_managementAccounts, getAccountRouting_managementAccounts]
  cases hfound : pushAccount.nodes.find? (fun node => node.accountHash = accountHash) with
  | some node =>
    have haccount : node.accountHash = accountHash := by
      simpa using List.find?_some hfound
    rw [← haccount, getAccountRouting_of_node protobuf store haccounts
      (List.mem_of_find?_eq_some hfound), Option.map_some]
  | none =>
    have hoff : ∀ node ∈ pushAccount.nodes, node.accountHash ≠ accountHash := by
      simpa using hfound
    rw [getAccountRouting_of_off_tree protobuf store hoff]

end RouterStore

end Keto.RouterDb
