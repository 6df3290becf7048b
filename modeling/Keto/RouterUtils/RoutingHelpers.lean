import Keto.RouterUtils.Route

/-!
The helper classes that hold a routing message each. A helper is made new, from
a message or from a string, and makes a string of its message. Two of the three
classes serialise for that; the peer's helper parses the string it is to fill,
which is still empty, into its own message.
-/
namespace Keto.RouterUtils

open Protocol

structure PushAccountHelper where
  pushAccount : PushAccount

namespace PushAccountHelper

def new : PushAccountHelper := ⟨{ (default : PushAccount) with version := protocolVersion }⟩

def ofMessage (orig : PushAccount) : PushAccountHelper := ⟨orig⟩

def ofString (protobuf : Protobuf PushAccount) (value : Bytes) : PushAccountHelper :=
  ⟨protobuf.parse value⟩

def setAccountHash (accountHash : Hash) (helper : PushAccountHelper) : PushAccountHelper :=
  ⟨{ helper.pushAccount with accountHash := accountHash }⟩

def setManagementAccountHash (accountHash : Hash) (helper : PushAccountHelper) :
    PushAccountHelper :=
  ⟨{ helper.pushAccount with managementAccountHash := accountHash }⟩

def addChildAccount (helper child : PushAccountHelper) : PushAccountHelper :=
  ⟨{ helper.pushAccount with
      childAccounts := helper.pushAccount.childAccounts ++ [child.pushAccount] }⟩

def getChildren (helper : PushAccountHelper) : List PushAccountHelper :=
  helper.pushAccount.childAccounts.map ofMessage

def toString (protobuf : Protobuf PushAccount) (helper : PushAccountHelper) :
    Bytes × PushAccountHelper :=
  (protobuf.serialise helper.pushAccount, helper)

end PushAccountHelper

structure AccountRoutingStoreHelper where
  accountRoutingStore : AccountRoutingStore

namespace AccountRoutingStoreHelper

def new : AccountRoutingStoreHelper :=
  ⟨{ (default : AccountRoutingStore) with version := protocolVersion }⟩

def ofMessage (orig : AccountRoutingStore) : AccountRoutingStoreHelper := ⟨orig⟩

def ofString (protobuf : Protobuf AccountRoutingStore) (value : Bytes) :
    AccountRoutingStoreHelper :=
  ⟨protobuf.parse value⟩

def setManagementAccountHash (accountHash : Hash) (helper : AccountRoutingStoreHelper) :
    AccountRoutingStoreHelper :=
  ⟨{ helper.accountRoutingStore with managementAccountHash := accountHash }⟩

def toString (protobuf : Protobuf AccountRoutingStore) (helper : AccountRoutingStoreHelper) :
    Bytes × AccountRoutingStoreHelper :=
  (protobuf.serialise helper.accountRoutingStore, helper)

end AccountRoutingStoreHelper

structure RpcPeerHelper where
  rpcPeer : RpcPeer

namespace RpcPeerHelper

def new : RpcPeerHelper := ⟨{ (default : RpcPeer) with version := protocolVersion }⟩

def ofMessage (orig : RpcPeer) : RpcPeerHelper := ⟨orig⟩

def ofString (protobuf : Protobuf RpcPeer) (value : Bytes) : RpcPeerHelper :=
  ⟨protobuf.parse value⟩

def setAccountHash (accountHash : Hash) (helper : RpcPeerHelper) : RpcPeerHelper :=
  ⟨{ helper.rpcPeer with accountHash := accountHash }⟩

def setServer (server : Bool) (helper : RpcPeerHelper) : RpcPeerHelper :=
  ⟨{ helper.rpcPeer with server := server }⟩

def setPushAccount (pushAccount : PushAccountHelper) (helper : RpcPeerHelper) : RpcPeerHelper :=
  ⟨{ helper.rpcPeer with accountInfo := some pushAccount.pushAccount }⟩

/-- Without an account tree this is a cleared one. -/
def getPushAccount (helper : RpcPeerHelper) : PushAccount :=
  helper.rpcPeer.accountInfo.getD default

/-- `ParseFromString` stands where a serialisation into `result` would. -/
def toString (protobuf : Protobuf RpcPeer) (_helper : RpcPeerHelper) : Bytes × RpcPeerHelper :=
  let result : Bytes := []
  (result, ⟨protobuf.parse result⟩)

end RpcPeerHelper

structure RouteProtobufs where
  pushAccount : Protobuf PushAccount
  accountRoutingStore : Protobuf AccountRoutingStore
  rpcPeer : Protobuf RpcPeer

def RouteProtobufs.wireFormat : RouteProtobufs :=
  ⟨PushAccount.protobuf, AccountRoutingStore.protobuf, RpcPeer.protobuf⟩

inductive RoutingHelper
  | pushAccount (helper : PushAccountHelper)
  | accountRoutingStore (helper : AccountRoutingStoreHelper)
  | rpcPeer (helper : RpcPeerHelper)

/-- An object whose string makes an equal object, and which taking its string
leaves as it was, so that the string taken again is the same. -/
structure Faithful {α : Type} (toString : α → Bytes × α) (ofString : Bytes → α) (object : α) :
    Prop where
  rebuilt : ofString (toString object).1 = object
  unchanged : (toString object).2 = object
  repeated : (toString (toString object).2).1 = (toString object).1

namespace RoutingHelper

variable (protobufs : RouteProtobufs)

def SerialisesFaithfully : RoutingHelper → Prop
  | .pushAccount helper =>
    Faithful (PushAccountHelper.toString protobufs.pushAccount)
      (PushAccountHelper.ofString protobufs.pushAccount) helper
  | .accountRoutingStore helper =>
    Faithful (AccountRoutingStoreHelper.toString protobufs.accountRoutingStore)
      (AccountRoutingStoreHelper.ofString protobufs.accountRoutingStore) helper
  | .rpcPeer helper =>
    Faithful (RpcPeerHelper.toString protobufs.rpcPeer)
      (RpcPeerHelper.ofString protobufs.rpcPeer) helper

theorem pushAccount_faithful (helper : PushAccountHelper) :
    Faithful (PushAccountHelper.toString protobufs.pushAccount)
      (PushAccountHelper.ofString protobufs.pushAccount) helper where
  rebuilt := congrArg PushAccountHelper.mk
    (protobufs.pushAccount.parse_serialise helper.pushAccount)
  unchanged := rfl
  repeated := rfl

theorem accountRoutingStore_faithful (helper : AccountRoutingStoreHelper) :
    Faithful (AccountRoutingStoreHelper.toString protobufs.accountRoutingStore)
      (AccountRoutingStoreHelper.ofString protobufs.accountRoutingStore) helper where
  rebuilt := congrArg AccountRoutingStoreHelper.mk
    (protobufs.accountRoutingStore.parse_serialise helper.accountRoutingStore)
  unchanged := rfl
  repeated := rfl

/-- Whatever a peer's helper holds, its string is empty and its message is cleared. -/
theorem rpcPeer_toString (helper : RpcPeerHelper) :
    helper.toString protobufs.rpcPeer = ([], ⟨default⟩) := by
  rw [RpcPeerHelper.toString, protobufs.rpcPeer.parse_empty]

theorem rpcPeer_faithful_iff (helper : RpcPeerHelper) :
    Faithful (RpcPeerHelper.toString protobufs.rpcPeer)
      (RpcPeerHelper.ofString protobufs.rpcPeer) helper ↔ helper.rpcPeer = default := by
  constructor
  · intro h
    have hunchanged := h.unchanged
    rw [rpcPeer_toString] at hunchanged
    exact congrArg RpcPeerHelper.rpcPeer hunchanged.symm
  · intro hcleared
    have hhelper : helper = ⟨default⟩ := by
      rw [← hcleared]
    refine ⟨?_, ?_, ?_⟩
    · rw [rpcPeer_toString, RpcPeerHelper.ofString, protobufs.rpcPeer.parse_empty, hhelper]
    · rw [rpcPeer_toString, hhelper]
    · rw [rpcPeer_toString, rpcPeer_toString]

/-- The one kind of helper that does not serialise faithfully is that of a peer
with anything in its message, if only the version that every new one has. -/
theorem serialisesFaithfully_iff (helper : RoutingHelper) :
    helper.SerialisesFaithfully protobufs ↔
      ∀ peer, helper = .rpcPeer peer → peer.rpcPeer = default := by
  cases helper with
  | pushAccount helper =>
    exact iff_of_true (pushAccount_faithful protobufs helper) (fun peer h => nomatch h)
  | accountRoutingStore helper =>
    exact iff_of_true (accountRoutingStore_faithful protobufs helper) (fun peer h => nomatch h)
  | rpcPeer helper =>
    refine (rpcPeer_faithful_iff protobufs helper).trans ⟨?_, fun h => h helper rfl⟩
    intro hcleared peer h
    rwa [← RoutingHelper.rpcPeer.inj h]

/-- The peer that a client registers: its string holds nothing of it. -/
theorem registered_peer_not_faithful : ¬ ∀ helper : RoutingHelper,
    helper.SerialisesFaithfully .wireFormat := by
  intro h
  have hserver := (h (.rpcPeer ((RpcPeerHelper.new.setAccountHash [1]).setServer true))).rebuilt
  exact absurd (congrArg (fun helper => helper.rpcPeer.server) hserver) (by decide)

end RoutingHelper

end Keto.RouterUtils
