import Keto.Library.WireFormat
import Keto.Protocol

/-!
The messages of `Route.proto` with which nodes tell each other whose accounts
they manage, and what protobuf makes of a message. The fields of a cleared
message are zero, empty or absent.
-/
namespace Keto.RouterUtils

open Protocol
open Library.WireFormat hiding Bytes

/-- An account, the account that manages it, and the accounts below it. -/
structure PushAccount where
  version : UInt32
  accountHash : Hash
  managementAccountHash : Hash
  childAccounts : List PushAccount

structure AccountRoutingStore where
  version : UInt32
  managementAccountHash : Hash
  deriving DecidableEq, Repr

structure RpcPeer where
  version : UInt32
  accountHash : Hash
  server : Bool
  accountInfo : Option PushAccount

instance : Inhabited PushAccount := ⟨⟨0, [], [], []⟩⟩

instance : Inhabited AccountRoutingStore := ⟨⟨0, []⟩⟩

instance : Inhabited RpcPeer := ⟨⟨0, [], false, none⟩⟩

def protocolVersion : UInt32 := 1

/-- `SerializeToString` and `ParseFromString` of a message class. Parsing clears
the message first, so that the empty string leaves a cleared one; what parsing
answers is not looked at anywhere. -/
structure Protobuf (α : Type) [Inhabited α] where
  serialise : α → Bytes
  parse : Bytes → α
  parse_serialise : ∀ message, parse (serialise message) = message
  parse_empty : parse [] = default

namespace PushAccount

/-- What holds of a message when it holds of its child accounts holds of every message. -/
theorem induction {p : PushAccount → Prop}
    (h : ∀ pushAccount, (∀ child ∈ pushAccount.childAccounts, p child) → p pushAccount)
    (pushAccount : PushAccount) : p pushAccount := by
  refine @PushAccount.rec p (fun children => ∀ child ∈ children, p child) ?_ ?_ ?_ pushAccount
  · intro version accountHash managementAccountHash childAccounts ih
    exact h _ ih
  · intro child hchild
    exact absurd hchild List.not_mem_nil
  · intro first children hfirst hchildren child hchild
    rcases List.mem_cons.mp hchild with rfl | hrest
    · exact hfirst
    · exact hchildren child hrest

mutual

def nodes : PushAccount → List PushAccount
  | ⟨version, accountHash, managementAccountHash, childAccounts⟩ =>
    ⟨version, accountHash, managementAccountHash, childAccounts⟩ :: nodesOf childAccounts

def nodesOf : List PushAccount → List PushAccount
  | [] => []
  | child :: children => nodes child ++ nodesOf children

end

theorem nodesOf_eq_flatMap (children : List PushAccount) :
    nodesOf children = children.flatMap nodes := by
  induction children with
  | nil => rfl
  | cons child children ih => rw [nodesOf, ih, List.flatMap_cons]

theorem nodes_eq_cons (pushAccount : PushAccount) :
    pushAccount.nodes = pushAccount :: pushAccount.childAccounts.flatMap nodes := by
  cases pushAccount
  rw [nodes, nodesOf_eq_flatMap]

end PushAccount

/-! The wire format of the messages. -/

namespace PushAccount

mutual

def encode : PushAccount → Bytes
  | ⟨version, accountHash, managementAccountHash, childAccounts⟩ =>
    encodeFields (varintField 1 version.toNat ++ (bytesField 2 accountHash ++
      (bytesField 3 managementAccountHash ++ messageFields 4 (encodeAll childAccounts))))

def encodeAll : List PushAccount → List Bytes
  | [] => []
  | child :: children => encode child :: encodeAll children

end

/-- A message is at most as deep as it has bytes. -/
def decode : ℕ → Bytes → Option PushAccount
  | 0, _ => none
  | depth + 1, bytes => do
    let fields ← decodeFields bytes
    let childAccounts ← (contentsOf 4 fields).mapM (decode depth)
    return ⟨(varintOf 1 fields).toUInt32, bytesOf 2 fields, bytesOf 3 fields, childAccounts⟩

theorem encodeAll_eq_map (children : List PushAccount) :
    encodeAll children = children.map encode := by
  induction children with
  | nil => rfl
  | cons child children ih => rw [encodeAll, ih, List.map_cons]

theorem encode_eq (pushAccount : PushAccount) :
    pushAccount.encode = encodeFields (varintField 1 pushAccount.version.toNat ++
      (bytesField 2 pushAccount.accountHash ++ (bytesField 3 pushAccount.managementAccountHash ++
        messageFields 4 (pushAccount.childAccounts.map encode)))) := by
  cases pushAccount
  rw [encode, encodeAll_eq_map]

theorem length_encode_child {pushAccount child : PushAccount}
    (h : child ∈ pushAccount.childAccounts) :
    child.encode.length < pushAccount.encode.length := by
  rw [encode_eq pushAccount]
  have hfield : (4, Value.bytes child.encode) ∈
      messageFields 4 (pushAccount.childAccounts.map encode) :=
    List.mem_map_of_mem (List.mem_map_of_mem h)
  exact length_content_lt (List.mem_append_right _ (List.mem_append_right _
    (List.mem_append_right _ hfield)))

theorem mapM_decode {depth : ℕ} (children : List PushAccount)
    (h : ∀ child ∈ children, decode depth child.encode = some child) :
    (children.map encode).mapM (decode depth) = some children := by
  induction children with
  | nil => rfl
  | cons child children ih =>
    rw [List.forall_mem_cons] at h
    simp [h.1, ih h.2]

theorem decode_encode (pushAccount : PushAccount) {depth : ℕ}
    (h : pushAccount.encode.length < depth) :
    decode depth pushAccount.encode = some pushAccount := by
  induction pushAccount using PushAccount.induction generalizing depth with
  | h pushAccount ih =>
    obtain ⟨depth, rfl⟩ : ∃ n, depth = n + 1 := Nat.exists_eq_succ_of_ne_zero (by omega)
    have hchildren : ∀ child ∈ pushAccount.childAccounts,
        decode depth child.encode = some child := by
      intro child hchild
      have hshorter := length_encode_child hchild
      exact ih child hchild (by omega)
    have hfields : decode (depth + 1) pushAccount.encode =
        some ⟨pushAccount.version, pushAccount.accountHash, pushAccount.managementAccountHash,
          pushAccount.childAccounts⟩ := by
      rw [encode_eq, decode, decodeFields_encodeFields]
      simp [varintOf, bytesOf, contentsOf_bytesField, contentsOf_messageFields,
        mapM_decode pushAccount.childAccounts hchildren]
    cases pushAccount
    exact hfields

def parse (bytes : Bytes) : PushAccount := (decode (bytes.length + 1) bytes).getD default

theorem parse_encode (pushAccount : PushAccount) : parse pushAccount.encode = pushAccount := by
  rw [parse, decode_encode pushAccount (Nat.lt_succ_self _), Option.getD_some]

def protobuf : Protobuf PushAccount := ⟨encode, parse, parse_encode, rfl⟩

end PushAccount

namespace AccountRoutingStore

def encode (routing : AccountRoutingStore) : Bytes :=
  encodeFields (varintField 1 routing.version.toNat ++ bytesField 2 routing.managementAccountHash)

def parse (bytes : Bytes) : AccountRoutingStore :=
  ((decodeFields bytes).map fun fields =>
    ⟨(varintOf 1 fields).toUInt32, bytesOf 2 fields⟩).getD default

theorem parse_encode (routing : AccountRoutingStore) : parse routing.encode = routing := by
  rw [parse, encode, decodeFields_encodeFields]
  simp [varintOf, bytesOf]

def protobuf : Protobuf AccountRoutingStore := ⟨encode, parse, parse_encode, rfl⟩

end AccountRoutingStore

namespace RpcPeer

/-- The account tree is there or not, also when it is a cleared message. -/
def encode (rpcPeer : RpcPeer) : Bytes :=
  encodeFields (varintField 1 rpcPeer.version.toNat ++ (bytesField 2 rpcPeer.accountHash ++
    (varintField 3 rpcPeer.server.toNat ++
      messageFields 4 (rpcPeer.accountInfo.toList.map PushAccount.encode))))

def parse (bytes : Bytes) : RpcPeer :=
  ((decodeFields bytes).map fun fields =>
    ⟨(varintOf 1 fields).toUInt32, bytesOf 2 fields, varintOf 3 fields ≠ 0,
      ((contentsOf 4 fields).getLast?).map PushAccount.parse⟩).getD default

theorem parse_encode (rpcPeer : RpcPeer) : parse rpcPeer.encode = rpcPeer := by
  obtain ⟨version, accountHash, server, accountInfo⟩ := rpcPeer
  have hinfo : accountInfo.toList.getLast?.map (PushAccount.parse ∘ PushAccount.encode) =
      accountInfo := by
    cases accountInfo with
    | none => rfl
    | some pushAccount => exact congrArg some (PushAccount.parse_encode pushAccount)
  rw [parse, encode, decodeFields_encodeFields]
  simp [varintOf, bytesOf, varintsOf_varintField, contentsOf_bytesField,
    contentsOf_messageFields, hinfo]

def protobuf : Protobuf RpcPeer := ⟨encode, parse, parse_encode, rfl⟩

end RpcPeer

end Keto.RouterUtils
