import Keto.Library.Decimal
import Keto.Library.OrderedMap
import Keto.Library.Runs
import Keto.Library.WireFormat
import Keto.Rpc.ClientSession

/-!
The addresses of peers: the server keeps one under every account, as a text of
an address, a colon and a port, and hands out those of the other accounts; the
client splits such a text at every colon.
-/
namespace Keto.Rpc.PeerAddresses

open Protocol AccountDb Library Library.Decimal Library.Stateful
open scoped Library.ByteOrder

inductive IpAddress
  | v4 (first second third fourth : UInt8)
  | v6 (address : BitVec 128)
  deriving DecidableEq, Repr

def IpAddress.isV4 : IpAddress → Bool
  | .v4 .. => true
  | .v6 _ => false

def IpAddress.isUnspecified : IpAddress → Bool
  | .v4 first second third fourth => first = 0 && second = 0 && third = 0 && fourth = 0
  | .v6 address => address = 0

def dot : UInt8 := 0x2e

def colon : UInt8 := 0x3a

/-- `to_string`; how an address of version 6 is printed is left open. -/
def IpAddress.toString (printV6 : BitVec 128 → Bytes) : IpAddress → Bytes
  | .v4 first second third fourth =>
    decimal first.toNat ++ dot :: (decimal second.toNat ++ dot :: (decimal third.toNat ++
      dot :: decimal fourth.toNat))
  | .v6 address => printV6 address

def peerUrl (printV6 : BitVec 128 → Bytes) (address : IpAddress) (port : UInt16) : Bytes :=
  address.toString printV6 ++ colon :: decimal port.toNat

def defaultPortNumber : UInt16 := 28003

structure RpcServer (Entry : Type) where
  accountHash : Bytes
  serverPort : UInt16
  externalIp : IpAddress
  accountPeerCache : OrderedMap Bytes Entry

structure PeerRequest where
  account : Bytes
  remoteAddress : IpAddress
  localAddress : IpAddress
  payload : Bytes

namespace RpcServer

variable {Entry : Type} (url : IpAddress → UInt16 → Entry)

def start (accountHash : Bytes) (serverPort : UInt16) : RpcServer Entry :=
  ⟨accountHash, serverPort, .v4 0 0 0 0, .empty⟩

def addPeer (account : Bytes) (host : Entry) (server : RpcServer Entry) : RpcServer Entry :=
  { server with accountPeerCache := server.accountPeerCache.insert account host }

def others (account : Bytes) (server : RpcServer Entry) : List (Bytes × Entry) :=
  server.accountPeerCache.entries.filter fun entry => entry.1 ≠ account

def getPeers (account : Bytes) (server : RpcServer Entry) : List Entry :=
  (server.others account).map Prod.snd

/-- The server itself is entered when it learns its address. -/
def setExternalIp (ipAddress : IpAddress) (server : RpcServer Entry) : RpcServer Entry :=
  if server.externalIp.isUnspecified then
    addPeer server.accountHash (url ipAddress server.serverPort)
      { server with externalIp := ipAddress }
  else server

def handlePeer (request : PeerRequest) (server : RpcServer Entry) :
    List Entry × RpcServer Entry :=
  let server := setExternalIp url request.localAddress server
  if request.payload = RpcCommand.peers.name then
    let server := addPeer request.account (url request.remoteAddress defaultPortNumber) server
    (server.getPeers request.account, server)
  else ([], server)

def step (request : PeerRequest) (server : RpcServer Entry) : RpcServer Entry :=
  (handlePeer url request server).2

end RpcServer

def serializePeers (peers : List Bytes) : Bytes :=
  WireFormat.encodeFields (WireFormat.varintField 1 1 ++ WireFormat.messageFields 2 peers)

def parsePeers (response : Bytes) : List Bytes :=
  WireFormat.contentsOf 2 ((WireFormat.decodeFields response).getD [])

theorem parsePeers_serializePeers (peers : List Bytes) :
    parsePeers (serializePeers peers) = peers := by
  rw [parsePeers, serializePeers, WireFormat.decodeFields_encodeFields, Option.getD_some,
    WireFormat.contentsOf_append, WireFormat.contentsOf_varintField,
    WireFormat.contentsOf_messageFields_self, List.nil_append]

/-- The host and the port that the constructor of a session makes of an address. -/
def endpoint (host : Bytes) : Bytes × Bytes :=
  if colon ∈ host then
    let results := host.splitOn colon
    (results.getD 0 [], results.getD 1 [])
  else (host, text "28003")

def openedBy (acts : List ClientAct) : List (Bytes × Bytes) :=
  acts.flatMap fun act =>
    match act with
    | .setPeers response => (parsePeers response).map endpoint
    | _ => []

def peersFrame (hex : HexCodec) (peers : List Bytes) : Bytes :=
  buildMessage .peers (hex.hexEncode (serializePeers peers))

/-- A client that gets the frame opens a session for every peer in it. -/
theorem openedBy_peersFrame (context : ClientContext) (hhex : HexInverse context.hex)
    (answers : ClientAnswers) (peers : List Bytes) :
    openedBy (after (RpcSession.dispatch context answers (peersFrame context.hex peers))
      RpcSession.consume).acts = peers.map endpoint := by
  have hspace := hhex.no_space (serializePeers peers)
  have htokens := tokenize_buildMessage .peers hspace
  have hdispatch : after (RpcSession.dispatch context answers (peersFrame context.hex peers))
      RpcSession.consume = ⟨[], [.setPeers (serializePeers peers), .close]⟩ := by
    rw [← ends_after (p := fun session : RpcSession =>
      session = ⟨[], [.setPeers (serializePeers peers), .close]⟩)]
    rw [RpcSession.dispatch, peersFrame, commandOf_buildMessage]
    simp [RpcSession.peerResponse, htokens, hhex.decode_encode, RpcSession.consume]
  rw [hdispatch]
  simp [openedBy, parsePeers_serializePeers]

namespace RpcServer

variable {Entry Other : Type} (url : IpAddress → UInt16 → Entry) (f : Entry → Other)

def map (server : RpcServer Entry) : RpcServer Other where
  accountHash := server.accountHash
  serverPort := server.serverPort
  externalIp := server.externalIp
  accountPeerCache := server.accountPeerCache.mapValues f

theorem map_addPeer (account : Bytes) (host : Entry) (server : RpcServer Entry) :
    (server.addPeer account host).map f = (server.map f).addPeer account (f host) := by
  rw [addPeer, map, OrderedMap.mapValues_insert]
  rfl

theorem others_map (account : Bytes) (server : RpcServer Entry) :
    (server.map f).others account = (server.others account).map fun e => (e.1, f e.2) := by
  rw [others, others, map, OrderedMap.mapValues, List.filter_map]
  rfl

theorem map_setExternalIp (ipAddress : IpAddress) (server : RpcServer Entry) :
    (setExternalIp url ipAddress server).map f =
      setExternalIp (fun address port => f (url address port)) ipAddress (server.map f) := by
  have hkept : (server.map f).externalIp = server.externalIp := rfl
  by_cases h : server.externalIp.isUnspecified = true
  · rw [setExternalIp, setExternalIp, hkept, if_pos h, if_pos h, map_addPeer]
    rfl
  · rw [setExternalIp, setExternalIp, hkept, if_neg h, if_neg h]

/-- The server does not look into its entries. -/
theorem handlePeer_map (request : PeerRequest) (server : RpcServer Entry) :
    handlePeer (fun address port => f (url address port)) request (server.map f) =
      ((handlePeer url request server).1.map f, (handlePeer url request server).2.map f) := by
  rw [handlePeer, handlePeer, ← map_setExternalIp]
  split
  · rw [← map_addPeer]
    simp only [getPeers, others_map, List.map_map]
    rfl
  · rfl

theorem run_map (requests : List PeerRequest) (server : RpcServer Entry) :
    Runs.run (step fun address port => f (url address port)) (server.map f) requests =
      (Runs.run (step url) server requests).map f := by
  induction requests generalizing server with
  | nil => rfl
  | cons request requests ih =>
    rw [Runs.run_cons, Runs.run_cons, ← ih, step, handlePeer_map, step]

def handedOut (request : PeerRequest) (server : RpcServer Entry) : List (Bytes × Entry) :=
  if request.payload = RpcCommand.peers.name then
    (step url request server).others request.account
  else []

theorem handlePeer_eq (request : PeerRequest) (server : RpcServer Entry) :
    (handlePeer url request server).1 = (handedOut url request server).map Prod.snd := by
  rw [handedOut, step, handlePeer]
  split
  · rfl
  · rfl

/-- A client is never handed its own entry. -/
theorem ne_of_mem_handedOut {request : PeerRequest} {server : RpcServer Entry}
    {entry : Bytes × Entry} (h : entry ∈ handedOut url request server) :
    entry.1 ≠ request.account := by
  rw [handedOut] at h
  split at h
  · exact of_decide_eq_true (List.mem_filter.mp h).2
  · exact absurd h List.not_mem_nil

end RpcServer

section Addresses

variable {printV6 : BitVec 128 → Bytes}

theorem not_mem_decimal {c : UInt8} (h : isDigit c = false) (n : ℕ) : c ∉ decimal n := by
  intro hmem
  rw [isDigit_of_mem_decimal hmem] at h
  cases h

/-- An address is printed without a colon exactly when it is of version 4. -/
theorem colon_mem_toString (hv6 : ∀ address, colon ∈ printV6 address) (address : IpAddress) :
    colon ∈ address.toString printV6 ↔ address.isV4 = false := by
  cases address with
  | v4 first second third fourth =>
    have hdigits : ∀ n, colon ∉ decimal n := not_mem_decimal (by decide)
    have hdot : colon ≠ dot := by decide
    simp [IpAddress.toString, IpAddress.isV4, hdigits, hdot]
  | v6 address => simp [IpAddress.toString, IpAddress.isV4, hv6]

/-- A text is split into its address and its port exactly when the address has no colon. -/
theorem endpoint_peerUrl_iff (address : IpAddress) (port : UInt16) :
    endpoint (peerUrl printV6 address port) = (address.toString printV6, decimal port.toNat) ↔
      colon ∉ address.toString printV6 := by
  have hcolon : colon ∈ peerUrl printV6 address port :=
    List.mem_append_right _ List.mem_cons_self
  rw [endpoint, if_pos hcolon]
  constructor
  · intro hsplit hmem
    obtain ⟨front, rear, hprinted, hfront⟩ := List.eq_append_cons_of_mem hmem
    have hhost := congrArg Prod.fst hsplit
    rw [peerUrl, hprinted, List.append_assoc, List.cons_append,
      List.splitOn_append_cons_self_of_not_mem hfront] at hhost
    exact absurd hhost (by simp)
  · intro hplain
    have hport : (decimal port.toNat).splitOn colon = [decimal port.toNat] :=
      List.splitOn_eq_singleton (not_mem_decimal (by decide) _)
    rw [peerUrl, List.splitOn_append_cons_self_of_not_mem hplain, hport]
    rfl

end Addresses

/-- What the server knows after some requests when it keeps addresses and ports
themselves. -/
def known (accountHash : Bytes) (serverPort : UInt16) (requests : List PeerRequest) :
    RpcServer (IpAddress × UInt16) :=
  Runs.run (RpcServer.step Prod.mk) (RpcServer.start accountHash serverPort) requests

variable (printV6 : BitVec 128 → Bytes)

def served (accountHash : Bytes) (serverPort : UInt16) (requests : List PeerRequest) :
    RpcServer Bytes :=
  Runs.run (RpcServer.step (peerUrl printV6)) (RpcServer.start accountHash serverPort) requests

/-- The texts are those of the addresses and ports that are known. -/
theorem served_eq_known (accountHash : Bytes) (serverPort : UInt16)
    (requests : List PeerRequest) :
    served printV6 accountHash serverPort requests =
      (known accountHash serverPort requests).map fun e => peerUrl printV6 e.1 e.2 :=
  RpcServer.run_map Prod.mk (fun e : IpAddress × UInt16 => peerUrl printV6 e.1 e.2) requests
    (RpcServer.start accountHash serverPort)

def opened (context : ClientContext) (answers : ClientAnswers) (request : PeerRequest)
    (server : RpcServer Bytes) : List (Bytes × Bytes) :=
  openedBy (after (RpcSession.dispatch context answers
    (peersFrame context.hex (RpcServer.handlePeer (peerUrl printV6) request server).1))
      RpcSession.consume).acts

/-- The client opens a session for the address and port of every known peer but itself. -/
def AddressesSurvive (context : ClientContext) (answers : ClientAnswers) (accountHash : Bytes)
    (serverPort : UInt16) (requests : List PeerRequest) (request : PeerRequest) : Prop :=
  opened printV6 context answers request (served printV6 accountHash serverPort requests) =
      (RpcServer.handedOut Prod.mk request (known accountHash serverPort requests)).map
        (fun entry => (entry.2.1.toString printV6, decimal entry.2.2.toNat)) ∧
    ∀ entry ∈ RpcServer.handedOut Prod.mk request (known accountHash serverPort requests),
      entry.1 ≠ request.account

variable {printV6}

/-- After all requests and for every further one, the addresses that are handed out
survive exactly when all of them are of version 4. -/
theorem addressesSurvive_iff (hv6 : ∀ address, colon ∈ printV6 address)
    (context : ClientContext) (hhex : HexInverse context.hex) (answers : ClientAnswers)
    (accountHash : Bytes) (serverPort : UInt16) (requests : List PeerRequest)
    (request : PeerRequest) :
    AddressesSurvive printV6 context answers accountHash serverPort requests request ↔
      ∀ entry ∈ RpcServer.handedOut Prod.mk request (known accountHash serverPort requests),
        entry.2.1.isV4 = true := by
  have hurls := congrArg Prod.fst (RpcServer.handlePeer_map Prod.mk
    (fun e : IpAddress × UInt16 => peerUrl printV6 e.1 e.2) request
    (known accountHash serverPort requests))
  have hsessions : opened printV6 context answers request
      (served printV6 accountHash serverPort requests) =
        (RpcServer.handedOut Prod.mk request (known accountHash serverPort requests)).map
          fun entry => endpoint (peerUrl printV6 entry.2.1 entry.2.2) := by
    rw [opened, openedBy_peersFrame context hhex, served_eq_known, hurls,
      RpcServer.handlePeer_eq, List.map_map, List.map_map]
    rfl
  have hentry : ∀ entry : Bytes × IpAddress × UInt16,
      endpoint (peerUrl printV6 entry.2.1 entry.2.2) =
        (entry.2.1.toString printV6, decimal entry.2.2.toNat) ↔ entry.2.1.isV4 = true := by
    intro entry
    rw [endpoint_peerUrl_iff, colon_mem_toString hv6, Bool.not_eq_false]
  rw [AddressesSurvive, hsessions, List.map_inj_left]
  simp only [hentry]
  exact and_iff_left fun entry => RpcServer.ne_of_mem_handedOut Prod.mk

def plainClient : ClientContext :=
  ⟨⟨.botan, ⟨fun _ => [], fun _ => ⟨1, [], [], .transaction, .init, .other⟩, id⟩⟩, [9], false, false⟩

def plainAnswers : ClientAnswers := ⟨true, true, none, none, none, true⟩

def requestOf (account : Bytes) (remoteAddress : IpAddress) : PeerRequest :=
  ⟨account, remoteAddress, .v4 10 0 0 1, RpcCommand.peers.name⟩

def loopback : BitVec 128 → Bytes := fun _ => text "::1"

/-- A client of version 4 asks, and then another one. -/
theorem addressesSurvive_v4 : AddressesSurvive loopback plainClient plainAnswers [7] 28003
    [requestOf [1] (.v4 192 168 1 20)] (requestOf [2] (.v4 192 168 1 21)) := by
  refine (addressesSurvive_iff (fun address => ?_) plainClient hexInverse_botan plainAnswers [7]
    28003 _ _).mpr ?_
  · exact (by decide : colon ∈ text "::1")
  · decide

/-- A client at `::1` asks, and then another one: the other opens a session for the
host that has no name and the port that has none. -/
theorem v6_address_lost :
    opened loopback plainClient plainAnswers (requestOf [2] (.v4 192 168 1 21))
        (served loopback [7] 28003 [requestOf [1] (.v6 1)]) =
      [([], []), (text "10.0.0.1", text "28003")] ∧
    ¬AddressesSurvive loopback plainClient plainAnswers [7] 28003 [requestOf [1] (.v6 1)]
      (requestOf [2] (.v4 192 168 1 21)) := by
  have hopened : opened loopback plainClient plainAnswers (requestOf [2] (.v4 192 168 1 21))
      (served loopback [7] 28003 [requestOf [1] (.v6 1)]) =
        [([], []), (text "10.0.0.1", text "28003")] := by
    rw [opened, openedBy_peersFrame plainClient hexInverse_botan]
    decide +kernel
  refine ⟨hopened, fun hsurvive => ?_⟩
  have hexpected := hopened.symm.trans hsurvive.1
  exact absurd hexpected (by decide +kernel)

end Keto.Rpc.PeerAddresses
