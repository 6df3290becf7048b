import Keto.Library.Latest
import Keto.Library.OrderedMap
import Keto.Rpc.PeerAddresses
import Mathlib.Order.Bounds.Basic

/-!
The sessions of the RPC client and the choice among them. A session is filed under
its host when it is made and under an account when a server answers that it is
registered there, until a session for a peer closes that was told this account. A
message goes to the session of its account, and to that of the first host in the order
of the map where there is none. The results say which session that is from the frames
that the sessions have read and the closes that have completed.
-/
namespace Keto.Rpc

open Protocol AccountDb Library.Stateful PeerAddresses
open scoped Library.ByteOrder

structure Opened where
  host : Bytes
  peered : Bool
  deriving DecidableEq, Repr

/-- `sessions` are all that were ever made; the maps hold their numbers. -/
structure RpcSessionManager where
  peered : Bool
  sessions : List Opened
  sessionMap : Library.OrderedMap Bytes ℕ
  accountSessionMap : Library.OrderedMap Bytes ℕ

structure NoDefaultRoute where
  text : Bytes
  deriving DecidableEq, Repr

namespace RpcSessionManager

def start : RpcSessionManager := ⟨false, [], .empty, .empty⟩

/-- The entry of a host is replaced by a new session. -/
def addSession (m : RpcSessionManager) (host : Bytes) : RpcSessionManager :=
  { m with
    sessions := m.sessions ++ [⟨host, m.peered⟩]
    sessionMap := m.sessionMap.insert host m.sessions.length }

def comma : UInt8 := 0x2c

def configured (peers : Option Bytes) : List Bytes :=
  match peers with
  | none => []
  | some peersString => if peersString.length = 0 then [] else peersString.splitOn comma

def init (peers : Option Bytes) : RpcSessionManager := (configured peers).foldl addSession start

def setPeers (peers : List Bytes) (m : RpcSessionManager) : RpcSessionManager :=
  peers.foldl addSession { m with peered := true }

def setAccountSessionMapping (account : Bytes) (session : ℕ) (m : RpcSessionManager) :
    RpcSessionManager :=
  { m with accountSessionMap := m.accountSessionMap.insert account session }

def hasAccountSessionMapping (account : Bytes) (m : RpcSessionManager) : Bool :=
  m.accountSessionMap.contains account

def getAccountSessionMapping (account : Bytes) (m : RpcSessionManager) : Option ℕ :=
  m.accountSessionMap.lookup account

def getDefaultPeer (m : RpcSessionManager) : Option ℕ := m.sessionMap.entries.head?.map Prod.snd

def nextHop (account : Bytes) (m : RpcSessionManager) : Option ℕ :=
  if m.hasAccountSessionMapping account then m.getAccountSessionMapping account
  else m.getDefaultPeer

def routeTransaction (hex : HexCodec) (message : MessageWrapper) (m : RpcSessionManager) :
    Except NoDefaultRoute (ℕ × Bytes) :=
  let account := hex.hexEncode message.accountHash
  match m.nextHop message.accountHash with
  | some session => .ok (session, text "Routed to the server peer [" ++ account ++ text "]")
  | none => .error ⟨text "No default route for [" ++ account ++ text "]"⟩

end RpcSessionManager

open RpcSessionManager

structure SessionRead where
  session : ℕ
  data : Bytes
  answers : ClientAnswers

variable (codec : Codec) (accountHash : Bytes) (logInfo : Bool)

/-- The manager, with the `accountHash` of each session, which is empty at first. -/
structure RpcClient where
  manager : RpcSessionManager
  accountHashes : ℕ → Bytes

def applyAct (i : ℕ) (client : RpcClient) (act : ClientAct) : RpcClient :=
  match act with
  | .setPeers response => { client with manager := client.manager.setPeers (parsePeers response) }
  | .mapSession account =>
    ⟨client.manager.setAccountSessionMapping account i,
      Function.update client.accountHashes i account⟩
  | _ => client

/-- A session that was made reads a frame; `none` where there is no such session,
and where a token is used that is not there. -/
def readOne (client : RpcClient) (read : SessionRead) : Option RpcClient := do
  let opened ← client.manager.sessions[read.session]?
  let context := ⟨codec, accountHash, opened.peered, logInfo⟩
  let session ← RpcSession.onRead context read.answers read.data
  return session.acts.foldl (applyAct read.session) client

/-- `removeAccountSessionMapping` is declared and called, and its body is not there: it is
relied on to take the session of the account out of the map and to do nothing else. -/
structure Removes (remove : Bytes → RpcSessionManager → RpcSessionManager) : Prop where
  sessions : ∀ account m, (remove account m).sessions = m.sessions
  sessionMap : ∀ account m, (remove account m).sessionMap = m.sessionMap
  accounts : ∀ account m other, (remove account m).accountSessionMap.lookup other =
    if other = account then none else m.accountSessionMap.lookup other

variable (remove : Bytes → RpcSessionManager → RpcSessionManager)

/-- A close has completed without an error. -/
def onClose (client : RpcClient) (i : ℕ) : Option RpcClient := do
  let opened ← client.manager.sessions[i]?
  return if opened.peered = true ∧ client.accountHashes i ≠ [] then
    { client with manager := remove (client.accountHashes i) client.manager }
  else client

inductive SessionEvent
  | read (read : SessionRead)
  | closed (session : ℕ)

def handle (client : RpcClient) : SessionEvent → Option RpcClient
  | .read read => readOne codec accountHash logInfo client read
  | .closed i => onClose remove client i

def handleAll (client : RpcClient) (events : List SessionEvent) : Option RpcClient :=
  events.foldlM (handle codec accountHash logInfo remove) client

def RpcClient.init (peers : Option Bytes) : RpcClient := ⟨RpcSessionManager.init peers, fun _ => []⟩

def payloadFor (command : RpcCommand) (read : SessionRead) : Option Bytes :=
  if read.answers.createTransaction = true ∧ commandOf read.data = some command then
    (tokenize read.data)[1]?.bind codec.hex.hexDecode
  else none

def registered (read : SessionRead) : Option Bytes := payloadFor codec .register read

def noted (read : SessionRead) (client : RpcClient) : RpcClient :=
  match registered codec read with
  | some account => applyAct read.session client (.mapSession account)
  | none =>
    match payloadFor codec .peers read with
    | some response => applyAct read.session client (.setPeers response)
    | none => client

section Frames

variable {codec} (client : RpcClient) (read : SessionRead)

/-- A write, a read and the start of a close leave the client as it is, as does a message. -/
theorem dispatch_noted (context : ClientContext) (hcodec : context.toCodec = codec)
    (hcreate : read.answers.createTransaction = true) :
    Ends (RpcSession.dispatch context read.answers read.data)
      (fun _ session => session.acts.foldl (applyAct read.session) client = noted codec read client)
      (fun failure session => failure = .thrown →
        session.acts.foldl (applyAct read.session) client = noted codec read client)
      RpcSession.consume := by
  subst hcodec
  cases hcommand : commandOf read.data with
  | none => simp [RpcSession.dispatch, RpcSession.consume, hcommand, noted, registered, payloadFor]
  | some command =>
    cases command with
    | peers =>
      cases htoken : (tokenize read.data)[1]? with
      | none => simp [RpcSession.dispatch, hcommand, htoken]
      | some payload =>
        cases hdecode : context.hex.hexDecode payload <;>
          simp [RpcSession.dispatch, RpcSession.consume, RpcSession.peerResponse, hcommand,
            hcreate, htoken, hdecode, noted, registered, payloadFor, applyAct]
    | register =>
      cases htoken : (tokenize read.data)[1]? with
      | none => simp [RpcSession.dispatch, hcommand, htoken]
      | some payload =>
        cases hdecode : context.hex.hexDecode payload <;>
          simp [RpcSession.dispatch, RpcSession.consume, RpcSession.registerResponse, hcommand,
            hcreate, htoken, hdecode, noted, registered, payloadFor, applyAct]
    | _ =>
      simp [RpcSession.dispatch, RpcSession.consume, RpcSession.helloConsensusResponse,
        RpcSession.consensusSessionResponse, RpcSession.consensusResponse,
        RpcSession.serverRequest, RpcSession.closeResponse, RpcSession.handleRegisterRequest,
        RpcSession.handleTransaction, hcommand, noted, registered, payloadFor, applyAct]

theorem foldl_applyAct_onRead (context : ClientContext) (hcodec : context.toCodec = codec)
    {session : RpcSession} (h : RpcSession.onRead context read.answers read.data = some session) :
    session.acts.foldl (applyAct read.session) client = noted codec read client := by
  refine (RpcSession.onRead_iff context (fun result => ∀ session, result = some session →
    session.acts.foldl (applyAct read.session) client = noted codec read client)
      read.answers read.data).mpr ?_ session h
  cases hcreate : read.answers.createTransaction with
  | false =>
    simp [RpcSession.handleFrame, hcreate, RpcSession.consume, RpcSession.startRead, applyAct,
      noted, registered, payloadFor]
  | true =>
    simp only [RpcSession.handleFrame, hcreate, Bool.not_true, Bool.false_eq_true, if_false,
      ends_bind]
    refine (dispatch_noted client read context hcodec hcreate).mono ?_ ?_
    · intro branch session hnoted
      cases branch <;> cases hcommit : read.answers.commit <;>
        simp [RpcSession.startRead, applyAct, hnoted]
    · intro failure session hnoted
      cases failure <;> simp [RpcSession.startRead, applyAct, hnoted]

end Frames

section History

open Library (Latest LastWord)

def named : SessionEvent → List Bytes
  | .read read => ((payloadFor codec .peers read).map parsePeers).getD []
  | .closed _ => []

def made (hosts : List Bytes) (events : List SessionEvent) : List Opened :=
  hosts.map (⟨·, false⟩) ++ (events.flatMap (named codec)).map (⟨·, true⟩)

def told (events : List SessionEvent) (i : ℕ) : Bytes :=
  events.foldl (fun account event =>
    match event with
    | .read read => if read.session = i then (registered codec read).getD account else account
    | .closed _ => account) []

/-- The event is about the session of the account: a session is told that it is registered
there, or one that was made for a peer and told this account last has closed. -/
def Concerns (hosts : List Bytes) (account : Bytes) (before : List SessionEvent) :
    SessionEvent → Prop
  | .read read => registered codec read = some account
  | .closed i => hosts.length ≤ i ∧ account ≠ [] ∧ told codec before i = account

def Filed (m : RpcSessionManager) : Prop :=
  ∀ host i, m.sessionMap.lookup host = some i ↔ Latest (·.host = host) m.sessions i

theorem filed_addSession {m : RpcSessionManager} (h : Filed m) (host : Bytes) :
    Filed (m.addSession host) := by
  intro other i
  rw [addSession, Library.OrderedMap.lookup_insert, Latest.concat_iff]
  by_cases hother : other = host
  · subst hother
    simp [eq_comm]
  · rw [if_neg hother, h]
    simp [Ne.symm hother]

/-- What adding sessions does to a manager. -/
theorem foldl_addSession (hosts : List Bytes) {m : RpcSessionManager} (h : Filed m) :
    Filed (hosts.foldl addSession m) ∧
      (hosts.foldl addSession m).sessions = m.sessions ++ hosts.map (⟨·, m.peered⟩) ∧
      (hosts.foldl addSession m).accountSessionMap = m.accountSessionMap := by
  induction hosts generalizing m with
  | nil => simp [h]
  | cons host hosts ih =>
    obtain ⟨hfiled, hsessions, haccounts⟩ := ih (filed_addSession h host)
    refine ⟨hfiled, ?_, haccounts⟩
    rw [List.foldl_cons, hsessions]
    simp [addSession]

theorem setPeers_spec (peers : List Bytes) {m : RpcSessionManager} (h : Filed m) :
    Filed (m.setPeers peers) ∧ (m.setPeers peers).sessions = m.sessions ++ peers.map (⟨·, true⟩) ∧
      (m.setPeers peers).accountSessionMap = m.accountSessionMap :=
  foldl_addSession peers (m := { m with peered := true }) h

def RegisteredLast (hosts : List Bytes) (events : List SessionEvent) (account : Bytes) (i : ℕ) :
    Prop :=
  ∃ before read, LastWord (Concerns codec hosts account) events before (.read read) ∧
    read.session = i

structure Knows (hosts : List Bytes) (events : List SessionEvent) (client : RpcClient) :
    Prop where
  filed : Filed client.manager
  sessions : client.manager.sessions = made codec hosts events
  accounts : ∀ account i, client.manager.accountSessionMap.lookup account = some i ↔
    RegisteredLast codec hosts events account i
  hashes : ∀ i, client.accountHashes i = told codec events i

variable {codec} {hosts : List Bytes} {events : List SessionEvent}

theorem knows_init (peers : Option Bytes) : Knows codec (configured peers) [] (.init peers) := by
  have hstart : Filed start := by
    intro host i
    simp [start]
  obtain ⟨hfiled, hsessions, haccounts⟩ := foldl_addSession (configured peers) hstart
  refine ⟨hfiled, ?_, ?_, fun i => rfl⟩
  · rw [RpcClient.init, RpcSessionManager.init, hsessions]
    simp [start, made]
  · intro account i
    rw [RpcClient.init, RpcSessionManager.init, haccounts]
    simp [start, RegisteredLast]

theorem registeredLast_concat (event : SessionEvent) (account : Bytes) (i : ℕ) :
    RegisteredLast codec hosts (events ++ [event]) account i ↔
      (Concerns codec hosts account events event ∧ ∃ read, event = .read read ∧ read.session = i) ∨
        ¬Concerns codec hosts account events event ∧
          RegisteredLast codec hosts events account i := by
  simp only [RegisteredLast, LastWord.concat_iff]
  constructor
  · rintro ⟨before, read, ⟨hconcerns, rfl, rfl⟩ | ⟨hsilent, hlast⟩, hi⟩
    · exact Or.inl ⟨hconcerns, read, rfl, hi⟩
    · exact Or.inr ⟨hsilent, before, read, hlast, hi⟩
  · rintro (⟨hconcerns, read, rfl, hi⟩ | ⟨hsilent, before, read, hlast, hi⟩)
    · exact ⟨events, read, Or.inl ⟨hconcerns, rfl, rfl⟩, hi⟩
    · exact ⟨before, read, Or.inr ⟨hsilent, hlast⟩, hi⟩

theorem told_concat (event : SessionEvent) (i : ℕ) :
    told codec (events ++ [event]) i =
      match event with
      | .read read =>
        if read.session = i then (registered codec read).getD (told codec events i)
        else told codec events i
      | .closed _ => told codec events i := by
  rw [told, List.foldl_append]
  rfl

theorem named_of_registered {read : SessionRead} {account : Bytes}
    (h : registered codec read = some account) : named codec (.read read) = [] := by
  rw [registered, payloadFor] at h
  split at h
  · next hcommand => simp [named, payloadFor, hcommand.2]
  · exact absurd h (by simp)

theorem made_concat (event : SessionEvent) :
    made codec hosts (events ++ [event]) =
      made codec hosts events ++ (named codec event).map (⟨·, true⟩) := by
  simp [made]

/-- A session that is told of an account is the one of that account from then on. -/
theorem Knows.mapSession {client : RpcClient} (h : Knows codec hosts events client)
    {read : SessionRead} {account : Bytes} (hregistered : registered codec read = some account) :
    Knows codec hosts (events ++ [.read read])
      (applyAct read.session client (.mapSession account)) where
  filed := h.filed
  sessions := by
    rw [made_concat, named_of_registered hregistered, List.map_nil, List.append_nil]
    exact h.sessions
  accounts other i := by
    simp only [applyAct, setAccountSessionMapping, Library.OrderedMap.lookup_insert,
      registeredLast_concat, Concerns, hregistered, Option.some.injEq]
    by_cases hother : other = account
    · simp [hother]
    · rw [if_neg hother]
      simp [Ne.symm hother, h.accounts other i]
  hashes i := by
    rw [told_concat, ← h.hashes]
    by_cases hi : read.session = i
    · simp [applyAct, hi, hregistered]
    · simp [applyAct, hi, Function.update_of_ne (Ne.symm hi)]

theorem Knows.noted {client : RpcClient} (h : Knows codec hosts events client)
    (read : SessionRead) :
    Knows codec hosts (events ++ [.read read]) (noted codec read client) := by
  rw [Rpc.noted]
  cases hregistered : registered codec read with
  | some account => exact h.mapSession hregistered
  | none =>
    have haccounts : ∀ account i, client.manager.accountSessionMap.lookup account = some i ↔
        RegisteredLast codec hosts (events ++ [.read read]) account i := by
      intro account i
      rw [registeredLast_concat]
      simp [Concerns, hregistered, h.accounts account i]
    have htold : ∀ i, client.accountHashes i = told codec (events ++ [.read read]) i := by
      intro i
      simp [told_concat, hregistered, h.hashes]
    cases hpeers : payloadFor codec .peers read with
    | none =>
      refine ⟨h.filed, ?_, haccounts, htold⟩
      simp [made_concat, named, hpeers, h.sessions]
    | some response =>
      obtain ⟨hfiled, hsessions, hkept⟩ := setPeers_spec (parsePeers response) h.filed
      refine ⟨hfiled, ?_, ?_, htold⟩
      · simp [applyAct, made_concat, named, hpeers, hsessions, h.sessions]
      · intro account i
        simp only [applyAct, hkept]
        exact haccounts account i

/-- The sessions that are made first are those of the configuration. -/
theorem peered_iff {i : ℕ} {opened : Opened} (h : (made codec hosts events)[i]? = some opened) :
    opened.peered = true ↔ hosts.length ≤ i := by
  rw [made, List.getElem?_append] at h
  split at h
  · next hlt =>
    rw [List.getElem?_map, Option.map_eq_some_iff] at h
    obtain ⟨host, _, rfl⟩ := h
    rw [List.length_map] at hlt
    simp [hlt]
  · next hge =>
    rw [List.getElem?_map, Option.map_eq_some_iff] at h
    obtain ⟨host, _, rfl⟩ := h
    rw [List.length_map, Nat.not_lt] at hge
    simp [hge]

variable {remove : Bytes → RpcSessionManager → RpcSessionManager}

/-- A close takes the account that the session was told last out of the map. -/
theorem Knows.onClose {client client' : RpcClient} (h : Knows codec hosts events client)
    (hremove : Removes remove) {i : ℕ} (hclose : onClose remove client i = some client') :
    Knows codec hosts (events ++ [.closed i]) client' := by
  obtain ⟨opened, hopened, hclose⟩ := Option.bind_eq_some_iff.mp hclose
  obtain rfl := Option.some.inj hclose
  rw [h.sessions] at hopened
  have hsessions : made codec hosts (events ++ [.closed i]) = made codec hosts events := by
    simp [made_concat, named]
  have htold : ∀ j, client.accountHashes j = told codec (events ++ [.closed i]) j :=
    fun j => (h.hashes j).trans (told_concat (.closed i) j).symm
  have hlast : ∀ account j, RegisteredLast codec hosts (events ++ [.closed i]) account j ↔
      ¬Concerns codec hosts account events (.closed i) ∧
        RegisteredLast codec hosts events account j := by
    intro account j
    rw [registeredLast_concat]
    simp
  split
  · next hpeer =>
    refine ⟨?_, ?_, ?_, htold⟩
    · intro host j
      simp only [hremove.sessions, hremove.sessionMap]
      exact h.filed host j
    · rw [hsessions, ← h.sessions]
      exact hremove.sessions _ _
    · intro account j
      rw [hlast, hremove.accounts, Concerns, ← h.hashes, ← peered_iff hopened]
      by_cases haccount : account = client.accountHashes i
      · simp [haccount, hpeer.1, hpeer.2]
      · simp [haccount, Ne.symm haccount, h.accounts account j]
  · next hpeer =>
    refine ⟨h.filed, h.sessions.trans hsessions.symm, ?_, htold⟩
    intro account j
    rw [hlast, h.accounts, Concerns, ← h.hashes, ← peered_iff hopened]
    refine (and_iff_right ?_).symm
    rintro ⟨hpeered, hnonempty, rfl⟩
    exact hpeer ⟨hpeered, hnonempty⟩

variable {accountHash : Bytes} {logInfo : Bool}

theorem Knows.handle {client client' : RpcClient} (h : Knows codec hosts events client)
    (hremove : Removes remove) {event : SessionEvent}
    (hevent : handle codec accountHash logInfo remove client event = some client') :
    Knows codec hosts (events ++ [event]) client' := by
  cases event with
  | read read =>
    obtain ⟨opened, _, hread⟩ := Option.bind_eq_some_iff.mp hevent
    obtain ⟨session, hsession, hread⟩ := Option.bind_eq_some_iff.mp hread
    obtain rfl := Option.some.inj hread
    rw [foldl_applyAct_onRead client read _ rfl hsession]
    exact h.noted read
  | closed i => exact h.onClose hremove hevent

theorem Knows.handleAll {client client' : RpcClient} (h : Knows codec hosts events client)
    (hremove : Removes remove) {more : List SessionEvent}
    (hmore : handleAll codec accountHash logInfo remove client more = some client') :
    Knows codec hosts (events ++ more) client' := by
  induction more generalizing events client with
  | nil =>
    obtain rfl := Option.some.inj hmore
    rwa [List.append_nil]
  | cons event more ih =>
    rw [Rpc.handleAll, List.foldlM_cons] at hmore
    obtain ⟨between, hevent, hmore⟩ := Option.bind_eq_some_iff.mp hmore
    rw [List.append_cons]
    exact ih (h.handle hremove hevent) hmore

def FirstHost (sessions : List Opened) (host : Bytes) : Prop :=
  host ∈ sessions.map Opened.host ∧ ∀ other ∈ sessions.map Opened.host, host ≤ other

def DefaultSession (sessions : List Opened) (i : ℕ) : Prop :=
  ∃ host, FirstHost sessions host ∧ Latest (·.host = host) sessions i

theorem Filed.contains_iff {m : RpcSessionManager} (h : Filed m) (host : Bytes) :
    m.sessionMap.contains host = true ↔ host ∈ m.sessions.map Opened.host := by
  rw [Library.OrderedMap.contains_iff]
  simp only [h host, Latest.exists_iff, List.mem_map]

theorem Filed.getDefaultPeer_iff {m : RpcSessionManager} (h : Filed m) (i : ℕ) :
    m.getDefaultPeer = some i ↔ DefaultSession m.sessions i := by
  rw [getDefaultPeer, Option.map_eq_some_iff]
  constructor
  · rintro ⟨⟨host, session⟩, hhead, rfl⟩
    obtain ⟨hlookup, hleast⟩ := (m.sessionMap.head?_eq_some_iff host session).mp hhead
    have hknown := (m.sessionMap.contains_iff host).mpr ⟨session, hlookup⟩
    refine ⟨host, ⟨(h.contains_iff host).mp hknown, ?_⟩, (h host session).mp hlookup⟩
    intro other hother
    exact hleast other ((h.contains_iff other).mpr hother)
  · rintro ⟨host, ⟨_, hleast⟩, hlatest⟩
    refine ⟨(host, i), (m.sessionMap.head?_eq_some_iff host i).mpr
      ⟨(h host i).mpr hlatest, ?_⟩, rfl⟩
    intro other hother
    exact hleast other ((h.contains_iff other).mp hother)

/-- The last session of a host was made for a peer that a frame named, if any frame did. -/
theorem latest_peered_iff {host : Bytes} {i : ℕ}
    (h : Latest (·.host = host) (made codec hosts events) i) :
    (∃ opened, (made codec hosts events)[i]? = some opened ∧ opened.peered = true) ↔
      ∃ event ∈ events, host ∈ named codec event := by
  obtain ⟨⟨opened, hget, hhost⟩, hlater⟩ := h
  constructor
  · rintro ⟨found, hfound, hpeered⟩
    have hge := (peered_iff hfound).mp hpeered
    rw [made, List.getElem?_append_right (by simpa using hge), List.getElem?_map,
      Option.map_eq_some_iff] at hget
    obtain ⟨other, hother, rfl⟩ := hget
    obtain rfl : other = host := hhost
    exact List.mem_flatMap.mp (List.mem_of_getElem? hother)
  · intro hnamed
    obtain ⟨k, hk⟩ := List.mem_iff_getElem?.mp (List.mem_flatMap.mpr hnamed)
    have hbehind : (made codec hosts events)[hosts.length + k]? = some ⟨host, true⟩ := by
      rw [made, List.getElem?_append_right (by simp)]
      simp [hk]
    have hle : hosts.length + k ≤ i := by
      by_contra hlt
      exact hlater _ _ (Nat.lt_of_not_le hlt) hbehind rfl
    exact ⟨opened, hget, (peered_iff hget).mpr (Nat.le_trans (Nat.le_add_right _ k) hle)⟩

variable (codec hosts events) in
def RoutesTo (account : Bytes) (i : ℕ) : Prop :=
  RegisteredLast codec hosts events account i ∨
    (∀ j, ¬RegisteredLast codec hosts events account j) ∧
      DefaultSession (made codec hosts events) i

theorem Knows.contains_iff {client : RpcClient} (h : Knows codec hosts events client)
    (account : Bytes) :
    client.manager.hasAccountSessionMapping account = true ↔
      ∃ i, RegisteredLast codec hosts events account i := by
  rw [hasAccountSessionMapping, Library.OrderedMap.contains_iff]
  exact exists_congr (h.accounts account)

theorem Knows.nextHop_iff {client : RpcClient} (h : Knows codec hosts events client)
    (account : Bytes) (i : ℕ) :
    client.manager.nextHop account = some i ↔ RoutesTo codec hosts events account i := by
  have hcontains := h.contains_iff account
  rw [nextHop, RoutesTo]
  by_cases hmapped : client.manager.hasAccountSessionMapping account = true
  · obtain ⟨j, hj⟩ := hcontains.mp hmapped
    rw [if_pos hmapped, getAccountSessionMapping, h.accounts]
    exact ⟨Or.inl, fun hroutes => hroutes.resolve_right fun hnone => hnone.1 j hj⟩
  · have hnone : ∀ j, ¬RegisteredLast codec hosts events account j :=
      fun j hj => hmapped (hcontains.mpr ⟨j, hj⟩)
    rw [if_neg hmapped, h.filed.getDefaultPeer_iff, h.sessions]
    refine ⟨fun hdefault => Or.inr ⟨hnone, hdefault⟩, ?_⟩
    rintro (hlast | hdefault)
    · exact absurd hlast (hnone i)
    · exact hdefault.2

theorem Filed.getDefaultPeer_eq_none_iff {m : RpcSessionManager} (h : Filed m) :
    m.getDefaultPeer = none ↔ m.sessions = [] := by
  rw [getDefaultPeer, Option.map_eq_none_iff, List.head?_eq_none_iff]
  constructor
  · intro hentries
    cases hsessions : m.sessions with
    | nil => rfl
    | cons opened rest =>
      have hknown := (h.contains_iff opened.host).mpr (by simp [hsessions])
      obtain ⟨i, hlookup⟩ := (m.sessionMap.contains_iff _).mp hknown
      rw [Library.OrderedMap.lookup_eq_some_iff, hentries] at hlookup
      exact absurd hlookup List.not_mem_nil
  · intro hsessions
    cases hentries : m.sessionMap.entries with
    | nil => rfl
    | cons entry rest =>
      have hlookup := (m.sessionMap.lookup_eq_some_iff entry.1 entry.2).mpr
        (hentries ▸ List.mem_cons_self)
      have hlatest := (h entry.1 entry.2).mp hlookup
      rw [hsessions, Latest.nil_iff] at hlatest
      exact hlatest.elim

theorem Knows.nextHop_eq_none_iff {client : RpcClient} (h : Knows codec hosts events client)
    (account : Bytes) :
    client.manager.nextHop account = none ↔
      (∀ i, ¬RegisteredLast codec hosts events account i) ∧ made codec hosts events = [] := by
  have hcontains := h.contains_iff account
  rw [nextHop]
  by_cases hmapped : client.manager.hasAccountSessionMapping account = true
  · obtain ⟨i, hi⟩ := hcontains.mp hmapped
    rw [if_pos hmapped, getAccountSessionMapping, (h.accounts account i).mpr hi]
    exact ⟨fun hnone => absurd hnone (by simp), fun hnone => absurd hi (hnone.1 i)⟩
  · rw [if_neg hmapped, h.filed.getDefaultPeer_eq_none_iff, h.sessions]
    exact (and_iff_right fun i hi => hmapped (hcontains.mpr ⟨i, hi⟩)).symm

/-- A message is given to the session that was told last that it is registered at the
account, unless a session for a peer has closed since that was told the account last;
and else to the last one of the first host. The last session of a host is one that
registers if and only if a frame named the host. -/
theorem routed_by_history (hremove : Removes remove) (peers : Option Bytes) {client : RpcClient}
    (h : handleAll codec accountHash logInfo remove (.init peers) events = some client)
    (message : MessageWrapper) :
    (∀ i answer, client.manager.routeTransaction codec.hex message = .ok (i, answer) ↔
      RoutesTo codec (configured peers) events message.accountHash i ∧
        answer = text "Routed to the server peer [" ++ codec.hex.hexEncode message.accountHash ++
          text "]") ∧
    (∀ failure, client.manager.routeTransaction codec.hex message = .error failure ↔
      ((∀ i, ¬RegisteredLast codec (configured peers) events message.accountHash i) ∧
        made codec (configured peers) events = []) ∧
        failure = ⟨text "No default route for [" ++ codec.hex.hexEncode message.accountHash ++
          text "]"⟩) ∧
    ∀ host i, Latest (·.host = host) (made codec (configured peers) events) i →
      ((∃ opened, client.manager.sessions[i]? = some opened ∧ opened.peered = true) ↔
        ∃ event ∈ events, host ∈ named codec event) := by
  have hinit : Knows codec (configured peers) [] (.init peers) := knows_init peers
  have hknows := hinit.handleAll hremove h
  rw [List.nil_append] at hknows
  refine ⟨?_, ?_, ?_⟩
  · intro i answer
    rw [← hknows.nextHop_iff, routeTransaction]
    cases hnext : client.manager.nextHop message.accountHash with
    | none => simp
    | some session => simp [eq_comm]
  · intro failure
    rw [← hknows.nextHop_eq_none_iff, routeTransaction]
    cases hnext : client.manager.nextHop message.accountHash with
    | none => simp [eq_comm]
    | some session => simp
  · intro host i hlatest
    rw [hknows.sessions]
    exact latest_peered_iff hlatest

def removeMapping (account : Bytes) (m : RpcSessionManager) : RpcSessionManager :=
  { m with accountSessionMap := m.accountSessionMap.erase account }

theorem removes_removeMapping : Removes removeMapping where
  sessions _ _ := rfl
  sessionMap _ _ := rfl
  accounts account m other := by
    rw [removeMapping, Library.OrderedMap.lookup_erase]
    by_cases hother : other = account
    · rw [if_pos hother, if_pos hother]
    · rw [if_neg hother, if_neg hother]

/-- Of two configured hosts the second is asked, and says that two others are peers; the
second peer says that the client is registered there, and its session closes. -/
def toldOfPeers : List SessionEvent :=
  [.read ⟨1, peersFrame .botan [text "c", text "d"], plainAnswers⟩,
    .read ⟨3, buildMessage .register (text "07"), plainAnswers⟩, .closed 3]

theorem routed_by_history_closed :
    ∃ client, handleAll plainClient.toCodec [9] false removeMapping (.init (some (text "b,a")))
        toldOfPeers = some client ∧
      client.manager.routeTransaction .botan ⟨1, [], [7], .transaction, .route, .other⟩ =
        .ok (1, text "Routed to the server peer [07]") := by
  obtain ⟨client, hclient⟩ := Option.isSome_iff_exists.mp (by decide +kernel :
    (handleAll plainClient.toCodec [9] false removeMapping (.init (some (text "b,a")))
      toldOfPeers).isSome = true)
  have hroutes : ((handleAll plainClient.toCodec [9] false removeMapping
      (.init (some (text "b,a"))) toldOfPeers).map fun client =>
        client.manager.nextHop [7]) = some (some 1) := by
    decide +kernel
  refine ⟨client, hclient, ?_⟩
  rw [hclient, Option.map_some, Option.some.injEq] at hroutes
  obtain ⟨hgiven, -⟩ := routed_by_history removes_removeMapping (some (text "b,a")) hclient
    ⟨1, [], [7], .transaction, .route, .other⟩
  refine (hgiven 1 _).mpr ⟨?_, by decide +kernel⟩
  exact (((knows_init (some (text "b,a"))).handleAll removes_removeMapping hclient).nextHop_iff
    [7] 1).mp hroutes

end History

end Keto.Rpc
