import Keto.AccountDb.HexCodec
import Mathlib.Data.Nat.Notation

/-!
The text framing that RPC servers and clients speak: a command, a space and a
payload in hexadecimal. The positions in a text are taken to fit an `int`.
-/
namespace Keto.Rpc

open Protocol AccountDb

def space : UInt8 := 0x20

def tokenize (value : Bytes) : List Bytes := value.splitOn space

inductive RpcCommand
  | hello
  | helloConsensus
  | peers
  | register
  | transaction
  | transactionProcessed
  | consensusSession
  | consensus
  | route
  | routeUpdate
  | services
  | close
  | goAway
  | accepted
  deriving DecidableEq, Repr

namespace RpcCommand

def name : RpcCommand → Bytes
  | .hello => text "HELLO"
  | .helloConsensus => text "HELLO_CONSENSUS"
  | .peers => text "PEERS"
  | .register => text "REGISTER"
  | .transaction => text "TRANSACTION"
  | .transactionProcessed => text "TRANSACTION_PROCESSED"
  | .consensusSession => text "CONSENSUS_SESSION"
  | .consensus => text "CONSENSUS"
  | .route => text "ROUTE"
  | .routeUpdate => text "ROUTE_UPDATE"
  | .services => text "SERVICES"
  | .close => text "CLOSE"
  | .goAway => text "GO_AWAY"
  | .accepted => text "ACCEPTED"

def all : List RpcCommand :=
  [.hello, .helloConsensus, .peers, .register, .transaction, .transactionProcessed,
    .consensusSession, .consensus, .route, .routeUpdate, .services, .close, .goAway, .accepted]

def ofName (name : Bytes) : Option RpcCommand := all.find? fun command => command.name = name

theorem ofName_name (command : RpcCommand) : ofName command.name = some command := by
  cases command <;> decide

theorem ofName_eq_some {name : Bytes} {command : RpcCommand} :
    ofName name = some command ↔ command.name = name := by
  constructor
  · intro h
    simpa using List.find?_some h
  · rintro rfl
    exact ofName_name command

theorem space_not_mem_name (command : RpcCommand) : space ∉ command.name := by
  cases command <;> decide

end RpcCommand

def commandOf (data : Bytes) : Option RpcCommand := RpcCommand.ofName ((tokenize data).headD [])

def buildMessage (command : RpcCommand) (message : Bytes) : Bytes :=
  command.name ++ space :: message

theorem tokenize_of_not_mem {value : Bytes} (h : space ∉ value) : tokenize value = [value] :=
  List.splitOn_eq_singleton h

/-- The first token ends at the first space. -/
theorem tokenize_append_space {first : Bytes} (h : space ∉ first) (rest : Bytes) :
    tokenize (first ++ space :: rest) = first :: tokenize rest :=
  List.splitOn_append_cons_self_of_not_mem h rest

/-- A built frame of a message without a space is split where it was joined. -/
theorem tokenize_buildMessage (command : RpcCommand) {message : Bytes} (h : space ∉ message) :
    tokenize (buildMessage command message) = [command.name, message] := by
  rw [buildMessage, tokenize_append_space command.space_not_mem_name, tokenize_of_not_mem h]

theorem commandOf_buildMessage (command : RpcCommand) (message : Bytes) :
    commandOf (buildMessage command message) = some command := by
  rw [commandOf, buildMessage, tokenize_append_space command.space_not_mem_name, List.headD_cons,
    RpcCommand.ofName_name]

/-- The text is a frame of the command and the payload, and more tokens may follow. -/
def HoldsFrame (command : RpcCommand) (payload value : Bytes) : Prop :=
  space ∉ payload ∧ (value = buildMessage command payload ∨
    ∃ rest, value = buildMessage command payload ++ space :: rest)

/-- Which texts are split into a command and a payload. -/
theorem tokens_iff_holdsFrame (command : RpcCommand) (payload value : Bytes) :
    (commandOf value = some command ∧ (tokenize value)[1]? = some payload) ↔
      HoldsFrame command payload value := by
  constructor
  · rintro ⟨hcommand, hpayload⟩
    by_cases hspace : space ∈ value
    · obtain ⟨first, rest, rfl, hfirst⟩ := List.eq_append_cons_of_mem hspace
      rw [commandOf, tokenize_append_space hfirst, List.headD_cons] at hcommand
      obtain rfl := RpcCommand.ofName_eq_some.mp hcommand
      rw [tokenize_append_space hfirst, List.getElem?_cons_succ] at hpayload
      by_cases hmore : space ∈ rest
      · obtain ⟨second, more, rfl, hsecond⟩ := List.eq_append_cons_of_mem hmore
        rw [tokenize_append_space hsecond, List.getElem?_cons_zero, Option.some.injEq] at hpayload
        subst hpayload
        exact ⟨hsecond, Or.inr ⟨more, by simp [buildMessage]⟩⟩
      · rw [tokenize_of_not_mem hmore, List.getElem?_cons_zero, Option.some.injEq] at hpayload
        subst hpayload
        exact ⟨hmore, Or.inl rfl⟩
    · rw [tokenize_of_not_mem hspace] at hpayload
      exact absurd hpayload (by simp)
  · rintro ⟨hspace, rfl | ⟨rest, rfl⟩⟩
    · rw [commandOf, tokenize_buildMessage command hspace]
      exact ⟨RpcCommand.ofName_name command, rfl⟩
    · have hsplit : buildMessage command payload ++ space :: rest =
          command.name ++ space :: (payload ++ space :: rest) := by simp [buildMessage]
      rw [commandOf, hsplit, tokenize_append_space command.space_not_mem_name,
        tokenize_append_space hspace]
      exact ⟨RpcCommand.ofName_name command, rfl⟩

/-- A routed message in the buffer made for it, and the text that is written. -/
structure OutBound where
  multiBuffer : Bytes
  written : Bytes
  deriving DecidableEq, Repr

/-- The protobuf messages in frames. Parsing goes on with what it got out of
bytes that are no message. -/
structure Protobuf where
  serializeWrapper : MessageWrapper → Bytes
  parseWrapper : Bytes → MessageWrapper
  helloAccount : Bytes → Bytes

structure Codec where
  hex : HexCodec
  protobuf : Protobuf

structure HexInverse (hex : HexCodec) : Prop where
  decode_encode : ∀ bytes, hex.hexDecode (hex.hexEncode bytes) = some bytes
  no_space : ∀ bytes, space ∉ hex.hexEncode bytes

theorem hexInverse_botan : HexInverse .botan where
  decode_encode := HexCodec.botan_decode_encode
  no_space := by
    intro bytes hspace
    exact HexCodec.botan_not_white hspace (by decide)

end Keto.Rpc
