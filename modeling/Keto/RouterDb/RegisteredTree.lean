import Keto.AccountDb.NodeAccountRouting
import Keto.RouterDb.RouterStore

/-!
A node registers with the account tree it built from its mapping, and its peer
puts that tree into its router store. What the peer's router then follows from an
account of the tree are the parent links of the node's mapping, up to the account
of the node, under which the tree has no management account.
-/
namespace Keto.RouterDb.RegisteredTree

open Protocol Library.Ancestry RouterUtils
open AccountDb.AccountsMapping (Mapping parent)
open AccountDb.NodeAccountRouting

variable (protobuf : Protobuf AccountRoutingStore)

/-- `registerRpcPeer`, as far as the router store goes. -/
def registerRpcPeer (rpcPeerHelper : RpcPeerHelper) (store : RouterStore) : RouterStore :=
  store.pushAccountRouting protobuf rpcPeerHelper.getPushAccount

section Tree

variable {accounts : Mapping} {a : Hash} {pushAccount : PushAccount}

/-- The accounts of a node's tree are different: its own, and those below it. -/
theorem nodes_of_routesBelow (hrooted : Rooted (parent accounts) a)
    (h : RoutesBelow accounts a pushAccount) :
    (pushAccount.nodes.map PushAccount.accountHash).Nodup ∧
      ∀ b, b ∈ pushAccount.nodes.map PushAccount.accountHash ↔
        b = a ∨ Below (parent accounts) a b := by
  rw [PushAccount.nodes_eq_cons, List.map_cons, h.accountHash]
  constructor
  · refine List.nodup_cons.mpr ⟨?_, h.nodup⟩
    rw [h.descendants]
    exact not_below_self hrooted
  · intro b
    rw [List.mem_cons, h.descendants]

/-- The store follows the parents of the accounts below the node's, and off the
tree it is as it was. -/
theorem getAccountRouting_registerRpcPeer (hrooted : Rooted (parent accounts) a)
    (h : RoutesBelow accounts a pushAccount) {rpcPeerHelper : RpcPeerHelper}
    (hpeer : rpcPeerHelper.getPushAccount = pushAccount) (store : RouterStore) :
    (∀ b, Below (parent accounts) a b →
      ((registerRpcPeer protobuf rpcPeerHelper store).managementAccounts protobuf).getAccountRouting
        b = parent accounts b) ∧
    ∀ b, b ≠ a → ¬ Below (parent accounts) a b →
      (registerRpcPeer protobuf rpcPeerHelper store).getAccountRouting protobuf b =
        store.getAccountRouting protobuf b := by
  obtain ⟨hnodup, hmem⟩ := nodes_of_routesBelow hrooted h
  rw [registerRpcPeer, hpeer]
  constructor
  · intro b hbelow
    obtain ⟨node, hnode, rfl⟩ := List.mem_map.mp ((h.descendants b).mpr hbelow)
    have hrouting := RouterStore.getAccountRouting_of_node protobuf store hnodup
      (PushAccount.nodes_eq_cons pushAccount ▸ List.mem_cons_of_mem _ hnode)
    rw [RouterStore.getAccountRouting_managementAccounts, hrouting,
      h.managementAccountHash node hnode]
    rfl
  · intro b hother hnotbelow
    refine RouterStore.getAccountRouting_of_off_tree protobuf store ?_
    intro node hnode heq
    rcases (hmem b).mp (heq ▸ List.mem_map_of_mem hnode) with hsame | hbelow
    · exact hother hsame
    · exact hnotbelow hbelow

end Tree

section Registration

variable {Graph : Type} (hex : AccountDb.HexCodec) (librdf : AccountDb.Librdf Graph)

open AccountDb.AccountsMapping (Operation step)
open Library.Runs (Along run)

/-- A node whose creations kept the forest registers with some tree, from some
depth of recursion on, and the peer then routes what is below the node's account
along the parents of the node's mapping. -/
theorem registered_routes (operations : List Operation)
    (hkeeps : Along (step hex librdf) (Keeps hex) .empty operations)
    {accountInfoVector : List AccountDb.AccountInfo}
    (hiterates : Iterates (run (step hex librdf) .empty operations).getAccountInfo
      accountInfoVector)
    {a : Hash} (ha : (run (step hex librdf) .empty operations).getAccountInfo a ≠ none)
    (store : RouterStore) :
    ∃ depth rpcPeerHelper, (∀ fuel, depth ≤ fuel →
        getNodeAccountRouting fuel accountInfoVector a .new = some rpcPeerHelper) ∧
      ∀ b, Below (parent (run (step hex librdf) .empty operations).getAccountInfo) a b →
        ((registerRpcPeer protobuf rpcPeerHelper store).managementAccounts
          protobuf).getAccountRouting b =
            parent (run (step hex librdf) .empty operations).getAccountInfo b := by
  have hroutable := routable_run hex librdf hkeeps
  obtain ⟨pushAccountHelper, hroutes, depth, hbuild⟩ :=
    hroutable.routesAll accountInfoVector hiterates a ha
  refine ⟨depth, (RpcPeerHelper.new.setAccountHash a).setPushAccount pushAccountHelper, ?_, ?_⟩
  · intro fuel hfuel
    rw [getNodeAccountRouting, hbuild fuel hfuel]
    rfl
  · exact (getAccountRouting_registerRpcPeer protobuf (hroutable.rooted a) hroutes rfl store).1

end Registration

end Keto.RouterDb.RegisteredTree
