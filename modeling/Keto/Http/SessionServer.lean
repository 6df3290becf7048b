import Keto.AccountDb.HexCodec
import Keto.Http.HttpTransactionManager
import Keto.Http.URISparqlParser
import Keto.Http.VerifiedSessions
import Keto.KeyStore.SessionKeyManager

/-!
The requests that the HTTP server hands to its managers, told apart by their
targets. The session manager stands here with the key store behind it: the
constructor of a session asks for its key, and the destructor gives it back.
-/
namespace Keto.Http

open Protocol TransactionCommon AccountDb KeyStore Library
open scoped Library.ByteOrder

structure Body where
  characters : Bytes
  hello : Option ClientHello
  transaction : Option Transaction

def Body.empty : Body := ⟨[], none, none⟩

structure WebRequest where
  target : Bytes
  sessionHash : Option Bytes
  body : Body

/-- What a request finds: the key directory, the moment, and the key that would be generated. -/
structure Arrival (K : Type) where
  files : List (Option K)
  moment : Moment
  privateKey : Bytes

inductive RequestException
  | http (exception : HttpException)
  | sparql (failure : SparqlFailure)
  /-- The account hash of a query is no text of hexadecimal digits. -/
  | accountHash
  deriving DecidableEq, Repr

/-- What comes of a request: the response to a hello, or the event that is processed. -/
inductive Handed
  | response (response : ClientResponse)
  | routed (wrapper : MessageWrapper)
  | query (accountHash : Hash) (query : Bytes)
  /-- No manager is asked for it. -/
  | document
  deriving DecidableEq, Repr

def Handed.Accepted : Handed → Prop
  | .response _ => False
  | .routed _ => True
  | .query _ _ => True
  | .document => False

variable {K : Type}

namespace HttpSparqlManager

def processQuery (hex : HexCodec) (manager : HttpSessionManager) (request : WebRequest) :
    Except RequestException Handed :=
  match request.sessionHash with
  | none => .error (.http .invalidSession)
  | some header =>
    match hex.hexDecode header with
    | none => .error (.http .header)
    | some sessionHash =>
      if manager.isValid sessionHash then
        match URISparqlParser.parse request.target request.body.characters with
        | .error failure => .error (.sparql failure)
        | .ok sparql =>
          match hex.hexDecode sparql.accountHash with
          | none => .error .accountHash
          | some accountHash => .ok (.query accountHash sparql.query)
      else .error (.http .invalidSession)

end HttpSparqlManager

structure SessionServer where
  manager : HttpSessionManager
  sessionKeys : SessionKeyManager

namespace SessionServer

def handShake : Bytes := text "/hand_shake"

def transaction : Bytes := text "/transaction"

def start : SessionServer := ⟨HttpSessionManager.start, SessionKeyManager.start⟩

/-- What a hello finds: the key store answers every request. -/
def surroundings (server : SessionServer) (arrival : Arrival K) : Surroundings K where
  files := arrival.files
  moment := arrival.moment
  requestSessionKey := fun sessionHash =>
    some (server.sessionKeys.requestKey arrival.privateKey sessionHash).1

/-- The session whose constructor a hello runs: that of a verified client without one. -/
def constructed (crypto : Crypto K) (arrival : Arrival K) (hello : Option ClientHello)
    (manager : HttpSessionManager) : Option Hash :=
  match hello with
  | none => none
  | some clientHello =>
    match crypto.validateRemoteHash clientHello arrival.files with
    | .ok (some _) =>
      if manager.clientHashMap.contains clientHello.clientHash then none
      else some (crypto.sessionHash clientHello.clientHash arrival.moment)
    | _ => none

def processHello (crypto : Crypto K) (arrival : Arrival K) (hello : Option ClientHello)
    (server : SessionServer) : Except HttpException ClientResponse × SessionServer :=
  let answered := server.manager.processHello crypto (server.surroundings arrival) hello
  (answered.1, {
    manager := answered.2
    sessionKeys :=
      match constructed crypto arrival hello server.manager with
      | none => server.sessionKeys
      | some sessionHash => (server.sessionKeys.requestKey arrival.privateKey sessionHash).2 })

def processTransaction (hex : HexCodec) (request : WebRequest) (server : SessionServer) :
    Except HttpException MessageWrapper × HttpSessionManager :=
  HttpTransactionManager.processTransaction server.manager
    ⟨request.sessionHash.bind hex.hexDecode, request.body.transaction⟩

def handleRequest (crypto : Crypto K) (hex : HexCodec) (arrival : Arrival K)
    (request : WebRequest) (server : SessionServer) :
    Except RequestException Handed × SessionServer :=
  if request.target = handShake then
    let answered := server.processHello crypto arrival request.body.hello
    ((answered.1.map .response).mapError .http, answered.2)
  else if request.target = transaction then
    let processed := server.processTransaction hex request
    ((processed.1.map .routed).mapError .http, { server with manager := processed.2 })
  else if URISparqlParser.dataQuery.isPrefixOf request.target then
    (HttpSparqlManager.processQuery hex server.manager request, server)
  else (.ok .document, server)

/-- `HttpRequestManager::fin` and `init`: every session is destroyed. -/
def restart (server : SessionServer) : SessionServer where
  manager := HttpSessionManager.start
  sessionKeys :=
    (server.manager.clientHashMap.entries.map fun entry => entry.2.sessionHash).foldl
      (fun sessionKeys sessionHash => sessionKeys.removeKey sessionHash) server.sessionKeys

/-- `KeyStoreService::fin` and `init`. -/
def restartKeyStore (server : SessionServer) : SessionServer :=
  { server with sessionKeys := SessionKeyManager.start }

inductive Greeted (crypto : Crypto K) (arrival : Arrival K) (server : SessionServer) :
    Option ClientHello → Except HttpException ClientResponse → SessionServer → Prop
  | refused {hello : Option ClientHello} {answer : Except HttpException ClientResponse}
      (h : ∀ sessionHash sessionKey, answer ≠ .ok (.welcome sessionHash sessionKey)) :
      Greeted crypto arrival server hello answer server
  | again {clientHello : ClientHello} {session : HttpSession}
      (hverified : crypto.Verified arrival.files clientHello)
      (hlookup : server.manager.clientHashMap.lookup clientHello.clientHash = some session) :
      Greeted crypto arrival server (some clientHello)
        (.ok (.welcome session.sessionHash session.sessionKey)) server
  | first {clientHello : ClientHello} {session : HttpSession}
      (hverified : crypto.Verified arrival.files clientHello)
      (hnone : server.manager.clientHashMap.lookup clientHello.clientHash = none)
      (hclient : session.clientHash = clientHello.clientHash)
      (hhash : session.sessionHash = crypto.sessionHash clientHello.clientHash arrival.moment)
      (hkey : session.sessionKey =
        (server.sessionKeys.requestKey arrival.privateKey session.sessionHash).1) :
      Greeted crypto arrival server (some clientHello)
        (.ok (.welcome session.sessionHash session.sessionKey)) {
          manager := {
            clientHashMap := server.manager.clientHashMap.insert session.clientHash session
            clientSessionMap :=
              server.manager.clientSessionMap.insert session.sessionHash (some session) }
          sessionKeys := (server.sessionKeys.requestKey arrival.privateKey session.sessionHash).2 }

theorem greeted_processHello (crypto : Crypto K) (arrival : Arrival K)
    (hello : Option ClientHello) (server : SessionServer) :
    Greeted crypto arrival server hello (server.processHello crypto arrival hello).1
      (server.processHello crypto arrival hello).2 := by
  cases hello with
  | none => exact .refused fun _ _ => by simp [processHello, HttpSessionManager.processHello]
  | some clientHello =>
    simp only [processHello, HttpSessionManager.processHello, constructed]
    have hfiles : (server.surroundings arrival).files = arrival.files := rfl
    rw [hfiles]
    cases hvalidate : crypto.validateRemoteHash clientHello arrival.files with
    | error exception => exact .refused fun _ _ => by simp
    | ok verified =>
      cases verified with
      | none => exact .refused fun _ _ => by simp
      | some key =>
        have hverified := Crypto.verified_of_validateRemoteHash hvalidate
        cases hlookup : server.manager.clientHashMap.lookup clientHello.clientHash with
        | some session =>
          simp only [HttpSessionManager.session, hlookup, OrderedMap.contains]
          exact .again hverified hlookup
        | none =>
          simp only [HttpSessionManager.session, hlookup, OrderedMap.contains,
            Crypto.newSession, surroundings]
          exact @Greeted.first K crypto arrival server clientHello
            ⟨clientHello.clientHash, crypto.sessionHash clientHello.clientHash arrival.moment, _⟩
            hverified hlookup rfl rfl rfl

def Live (server : SessionServer) (session : HttpSession) : Prop :=
  server.manager.clientHashMap.lookup session.clientHash = some session

/-- The maps are inverse, every session's hash was made of its client's, and the key
store holds keys of live sessions only. -/
structure Kept (crypto : Crypto K) (server : SessionServer) : Prop where
  inverse : VerifiedSessions.Inverse server.manager
  made : ∀ session, server.Live session →
    ∃ moment, session.sessionHash = crypto.sessionHash session.clientHash moment
  live : ∀ sessionHash key, server.sessionKeys.sessionKeys.lookup sessionHash = some key →
    ∃ session, server.Live session ∧ session.sessionHash = sessionHash ∧ session.sessionKey = key

def Stored (server : SessionServer) : Prop :=
  ∀ session, server.Live session →
    server.sessionKeys.sessionKeys.lookup session.sessionHash = some session.sessionKey

section Sessions

variable {crypto : Crypto K} {arrival : Arrival K} {server : SessionServer}

theorem Kept.valid_iff (h : Kept crypto server) (sessionHash : Hash) :
    server.manager.isValid sessionHash = true ↔
      ∃ session, server.Live session ∧ session.sessionHash = sessionHash := by
  rw [HttpSessionManager.isValid, OrderedMap.contains_iff]
  constructor
  · rintro ⟨entry, hentry⟩
    obtain ⟨session, rfl, rfl⟩ := h.inverse.session sessionHash entry hentry
    exact ⟨session, (h.inverse.inverse session).mpr hentry, rfl⟩
  · rintro ⟨session, hlive, rfl⟩
    exact ⟨some session, (h.inverse.inverse session).mp hlive⟩

theorem not_live_start (session : HttpSession) : ¬start.Live session := by
  intro hlive
  exact absurd hlive (by simp [Live, start, HttpSessionManager.start])

theorem kept_start (crypto : Crypto K) : Kept crypto start where
  inverse := (VerifiedSessions.reached_start crypto).sound.inverse
  made := fun session hlive => absurd hlive (not_live_start session)
  live := fun _ _ h => absurd h (by simp [start, SessionKeyManager.start])

theorem stored_start : Stored start := fun session hlive => absurd hlive (not_live_start session)

/-- What a new session is filed as, and who is still there. -/
theorem live_first_iff {session : HttpSession} {sessionKeys : SessionKeyManager}
    {clientSessionMap : OrderedMap Hash (Option HttpSession)} (other : HttpSession) :
    Live ⟨⟨server.manager.clientHashMap.insert session.clientHash session, clientSessionMap⟩,
        sessionKeys⟩ other ↔
      other = session ∨ other.clientHash ≠ session.clientHash ∧ server.Live other := by
  rw [Live, OrderedMap.lookup_insert]
  by_cases hclient : other.clientHash = session.clientHash
  · rw [if_pos hclient]
    simp [hclient, eq_comm]
  · rw [if_neg hclient]
    constructor
    · exact fun hlive => Or.inr ⟨hclient, hlive⟩
    · rintro (rfl | ⟨_, hlive⟩)
      · exact absurd rfl hclient
      · exact hlive

/-- The hash of a client without a session is new. -/
theorem Kept.fresh (hdiffer : VerifiedSessions.HashesDiffer crypto) (h : Kept crypto server)
    {session other : HttpSession} {moment : Moment}
    (hnone : server.manager.clientHashMap.lookup session.clientHash = none)
    (hhash : session.sessionHash = crypto.sessionHash session.clientHash moment)
    (hlive : server.Live other) : other.sessionHash ≠ session.sessionHash := by
  obtain ⟨made, hmade⟩ := h.made other hlive
  rw [hmade, hhash]
  apply hdiffer
  intro heq
  rw [Live, heq, hnone] at hlive
  simp at hlive

theorem Greeted.kept (hdiffer : VerifiedSessions.HashesDiffer crypto) (h : Kept crypto server)
    {hello : Option ClientHello} {answer : Except HttpException ClientResponse}
    {server' : SessionServer} (hgreeted : Greeted crypto arrival server hello answer server') :
    Kept crypto server' := by
  cases hgreeted with
  | refused => exact h
  | again => exact h
  | @first clientHello session hverified hnone hclient hhash hkey =>
    rw [← hclient] at hnone hhash
    refine ⟨h.inverse.insert hnone fun other hlive => h.fresh hdiffer hnone hhash hlive, ?_, ?_⟩
    · intro other hlive
      rcases (live_first_iff other).mp hlive with rfl | ⟨_, hold⟩
      · exact ⟨arrival.moment, hhash⟩
      · exact h.made other hold
    · intro sessionHash key hlookup
      rw [SessionKeyManager.lookup_requestKey] at hlookup
      split at hlookup
      · rename_i heq
        refine ⟨session, (live_first_iff session).mpr (Or.inl rfl), heq.symm, ?_⟩
        rw [hkey]
        exact Option.some.inj hlookup
      · obtain ⟨other, hlive, hother, hotherKey⟩ := h.live sessionHash key hlookup
        have hclients : other.clientHash ≠ session.clientHash := by
          intro heq
          rw [Live, heq, hnone] at hlive
          simp at hlive
        exact ⟨other, (live_first_iff other).mpr (Or.inr ⟨hclients, hlive⟩), hother, hotherKey⟩

theorem Greeted.stored (hdiffer : VerifiedSessions.HashesDiffer crypto) (h : Kept crypto server)
    (hstored : server.Stored) {hello : Option ClientHello}
    {answer : Except HttpException ClientResponse} {server' : SessionServer}
    (hgreeted : Greeted crypto arrival server hello answer server') : server'.Stored := by
  cases hgreeted with
  | refused => exact hstored
  | again => exact hstored
  | @first clientHello session hverified hnone hclient hhash hkey =>
    rw [← hclient] at hnone hhash
    intro other hlive
    rw [SessionKeyManager.lookup_requestKey]
    rcases (live_first_iff other).mp hlive with rfl | ⟨_, hold⟩
    · rw [if_pos rfl, hkey]
    · rw [if_neg (h.fresh hdiffer hnone hhash hold)]
      exact hstored other hold

/-- Where a welcome comes from: the client's session, old or new. -/
theorem Greeted.welcome (h : Kept crypto server) {hello : Option ClientHello}
    {sessionHash sessionKey : Bytes} {server' : SessionServer}
    (hgreeted :
      Greeted crypto arrival server hello (.ok (.welcome sessionHash sessionKey)) server') :
    ∃ clientHello session, hello = some clientHello ∧ crypto.Verified arrival.files clientHello ∧
      server'.Live session ∧ session.clientHash = clientHello.clientHash ∧
      session.sessionHash = sessionHash ∧ session.sessionKey = sessionKey := by
  cases hgreeted with
  | refused hnot => exact absurd rfl (hnot sessionHash sessionKey)
  | @again clientHello session hverified hlookup =>
    have hclient := h.inverse.client clientHello.clientHash session hlookup
    refine ⟨clientHello, session, rfl, hverified, ?_, hclient, rfl, rfl⟩
    rw [Live, hclient]
    exact hlookup
  | @first clientHello session hverified hnone hclient hhash hkey =>
    exact ⟨clientHello, session, rfl, hverified, (live_first_iff session).mpr (Or.inl rfl), hclient,
      rfl, rfl⟩

/-- A session stays until the server is restarted. -/
theorem Greeted.keeps {hello : Option ClientHello} {answer : Except HttpException ClientResponse}
    {server' : SessionServer} (hgreeted : Greeted crypto arrival server hello answer server')
    {session : HttpSession} (hlive : server.Live session) : server'.Live session := by
  cases hgreeted with
  | refused => exact hlive
  | again => exact hlive
  | @first clientHello created hverified hnone hclient hhash hkey =>
    refine (live_first_iff session).mpr (Or.inr ⟨?_, hlive⟩)
    intro heq
    rw [Live, heq, hclient, hnone] at hlive
    simp at hlive

/-- A session that is new behind a hello is the one that it was welcomed with. -/
theorem Greeted.origin {hello : Option ClientHello} {answer : Except HttpException ClientResponse}
    {server' : SessionServer} (hgreeted : Greeted crypto arrival server hello answer server')
    {session : HttpSession} (hlive : server'.Live session) :
    server.Live session ∨ ∃ clientHello, hello = some clientHello ∧
      crypto.Verified arrival.files clientHello ∧ clientHello.clientHash = session.clientHash ∧
      answer = .ok (.welcome session.sessionHash session.sessionKey) := by
  cases hgreeted with
  | refused => exact Or.inl hlive
  | again => exact Or.inl hlive
  | @first clientHello created hverified hnone hclient hhash hkey =>
    rcases (live_first_iff session).mp hlive with rfl | ⟨_, hold⟩
    · exact Or.inr ⟨clientHello, rfl, hverified, hclient.symm, rfl⟩
    · exact Or.inl hold

theorem processQuery_eq_ok {hex : HexCodec} {manager : HttpSessionManager} {request : WebRequest}
    {handed : Handed} (h : HttpSparqlManager.processQuery hex manager request = .ok handed) :
    ∃ header sessionHash, request.sessionHash = some header ∧
      hex.hexDecode header = some sessionHash ∧ manager.isValid sessionHash = true ∧
      ∃ accountHash query, handed = .query accountHash query := by
  rw [HttpSparqlManager.processQuery] at h
  split at h
  · simp at h
  · rename_i header hheader
    split at h
    · simp at h
    · rename_i sessionHash hdecode
      split at h
      · rename_i hvalid
        split at h
        · simp at h
        · split at h
          · simp at h
          · exact ⟨header, sessionHash, hheader, hdecode, hvalid, _, _, (Except.ok.inj h).symm⟩
      · simp at h

theorem processQuery_ne_response (hex : HexCodec) (manager : HttpSessionManager)
    (request : WebRequest) (response : ClientResponse) :
    HttpSparqlManager.processQuery hex manager request ≠ .ok (.response response) := by
  intro h
  obtain ⟨_, _, _, _, _, _, _, hquery⟩ := processQuery_eq_ok h
  simp at hquery

/-- Only a hello is answered with a response, and nothing else changes the server. -/
theorem handleRequest_cases (crypto : Crypto K) (hex : HexCodec) (arrival : Arrival K)
    (request : WebRequest) (server : SessionServer) :
    (∃ answer, Greeted crypto arrival server request.body.hello answer
        (server.handleRequest crypto hex arrival request).2 ∧
      (server.handleRequest crypto hex arrival request).1 =
        (answer.map .response).mapError .http) ∨
    (server.handleRequest crypto hex arrival request).2 = server ∧
      ∀ response, (server.handleRequest crypto hex arrival request).1 ≠
        .ok (.response response) := by
  rw [handleRequest]
  by_cases htarget : request.target = handShake
  · rw [if_pos htarget]
    exact Or.inl ⟨_, greeted_processHello .., rfl⟩
  · rw [if_neg htarget]
    refine Or.inr ?_
    split
    · refine ⟨?_, ?_⟩
      · simp only [processTransaction, HttpTransactionManager.processTransaction_manager]
      · intro response
        cases hprocessed : (server.processTransaction hex request).1 with
        | error exception => simp [hprocessed, Except.map, Except.mapError]
        | ok wrapper => simp [hprocessed, Except.map, Except.mapError]
    · split
      · exact ⟨rfl, processQuery_ne_response hex server.manager request⟩
      · exact ⟨rfl, fun response => by simp⟩

/-- The session of a welcome, behind the request. -/
theorem Kept.welcome (h : Kept crypto server) {hex : HexCodec} {request : WebRequest}
    {sessionHash sessionKey : Bytes}
    (hwelcome : (server.handleRequest crypto hex arrival request).1 =
      .ok (.response (.welcome sessionHash sessionKey))) :
    ∃ clientHello session, request.body.hello = some clientHello ∧
      crypto.Verified arrival.files clientHello ∧
      (server.handleRequest crypto hex arrival request).2.Live session ∧
      session.clientHash = clientHello.clientHash ∧
      session.sessionHash = sessionHash ∧ session.sessionKey = sessionKey := by
  rcases handleRequest_cases crypto hex arrival request server with
    ⟨answer, hgreeted, hanswer⟩ | ⟨_, hnot⟩
  · rw [hanswer] at hwelcome
    cases answer with
    | error exception => simp [Except.map, Except.mapError] at hwelcome
    | ok response =>
      obtain rfl : response = .welcome sessionHash sessionKey := by
        simpa [Except.map, Except.mapError] using hwelcome
      exact hgreeted.welcome h
  · exact absurd hwelcome (hnot _)

theorem Live.handleRequest {session : HttpSession} (hlive : server.Live session)
    (crypto : Crypto K) (hex : HexCodec) (arrival : Arrival K) (request : WebRequest) :
    (server.handleRequest crypto hex arrival request).2.Live session := by
  rcases handleRequest_cases crypto hex arrival request server with
    ⟨answer, hgreeted, _⟩ | ⟨hsame, _⟩
  · exact hgreeted.keeps hlive
  · rw [hsame]
    exact hlive

theorem origin_of_handleRequest {hex : HexCodec} {request : WebRequest} {session : HttpSession}
    (hlive : (server.handleRequest crypto hex arrival request).2.Live session) :
    server.Live session ∨ ∃ clientHello, request.body.hello = some clientHello ∧
      crypto.Verified arrival.files clientHello ∧ clientHello.clientHash = session.clientHash ∧
      (server.handleRequest crypto hex arrival request).1 =
        .ok (.response (.welcome session.sessionHash session.sessionKey)) := by
  rcases handleRequest_cases crypto hex arrival request server with
    ⟨answer, hgreeted, hanswer⟩ | ⟨hsame, _⟩
  · refine (hgreeted.origin hlive).imp_right ?_
    rintro ⟨clientHello, hhello, hverified, hclient, rfl⟩
    exact ⟨clientHello, hhello, hverified, hclient, hanswer⟩
  · rw [hsame] at hlive
    exact Or.inl hlive

theorem kept_handleRequest (hdiffer : VerifiedSessions.HashesDiffer crypto)
    (h : Kept crypto server) (hex : HexCodec) (request : WebRequest) :
    Kept crypto (server.handleRequest crypto hex arrival request).2 := by
  rcases handleRequest_cases crypto hex arrival request server with
    ⟨answer, hgreeted, _⟩ | ⟨hsame, _⟩
  · exact hgreeted.kept hdiffer h
  · rw [hsame]
    exact h

theorem stored_handleRequest (hdiffer : VerifiedSessions.HashesDiffer crypto)
    (h : Kept crypto server) (hstored : server.Stored) (hex : HexCodec) (request : WebRequest) :
    (server.handleRequest crypto hex arrival request).2.Stored := by
  rcases handleRequest_cases crypto hex arrival request server with
    ⟨answer, hgreeted, _⟩ | ⟨hsame, _⟩
  · exact hgreeted.stored hdiffer h hstored
  · rw [hsame]
    exact hstored

/-- What is routed or queried is under a valid session, and what is routed says so. -/
theorem valid_of_accepted {hex : HexCodec} {request : WebRequest} {handed : Handed}
    (hhanded : handed.Accepted)
    (h : (server.handleRequest crypto hex arrival request).1 = .ok handed) :
    ∃ sessionHash, request.sessionHash.bind hex.hexDecode = some sessionHash ∧
      server.manager.isValid sessionHash = true ∧
      ∀ wrapper, handed = .routed wrapper → ∃ transaction,
        request.body.transaction = some transaction ∧
        HttpTransactionManager.wrap sessionHash transaction = .ok wrapper := by
  rw [handleRequest] at h
  split at h
  · cases hanswer : (server.processHello crypto arrival request.body.hello).1 with
    | error exception => simp [hanswer, Except.map, Except.mapError] at h
    | ok response =>
      obtain rfl : Handed.response response = handed := by
        simpa [hanswer, Except.map, Except.mapError] using h
      exact hhanded.elim
  · split at h
    · cases hprocessed : (server.processTransaction hex request).1 with
      | error exception => simp [hprocessed, Except.map, Except.mapError] at h
      | ok wrapper =>
        obtain rfl : Handed.routed wrapper = handed := by
          simpa [hprocessed, Except.map, Except.mapError] using h
        obtain ⟨sessionHash, transaction, hheader, hvalid, htransaction, hwrap⟩ :=
          HttpTransactionManager.processTransaction_eq_ok.mp hprocessed
        refine ⟨sessionHash, hheader, hvalid, ?_⟩
        intro routed hrouted
        obtain rfl := Handed.routed.inj hrouted
        exact ⟨transaction, htransaction, hwrap⟩
    · split at h
      · obtain ⟨header, sessionHash, hheader, hdecode, hvalid, accountHash, query, rfl⟩ :=
          processQuery_eq_ok h
        refine ⟨sessionHash, ?_, hvalid, fun _ hrouted => by simp at hrouted⟩
        rw [hheader]
        exact hdecode
      · obtain rfl : Handed.document = handed := by simpa using h
        exact hhanded.elim

theorem not_live_restart (server : SessionServer) (session : HttpSession) :
    ¬server.restart.Live session := not_live_start session

/-- The destructors leave no key behind. -/
theorem Kept.restart_keys (h : Kept crypto server) (sessionHash : Hash) :
    server.restart.sessionKeys.sessionKeys.lookup sessionHash = none := by
  rw [restart, SessionKeyManager.lookup_foldl_removeKey]
  split
  · rfl
  · rename_i hnot
    rw [Option.eq_none_iff_forall_not_mem]
    intro key hkey
    obtain ⟨session, hlive, hhash, -⟩ := h.live sessionHash key hkey
    refine hnot (List.mem_map.mpr ⟨(session.clientHash, session), ?_, hhash⟩)
    exact (OrderedMap.lookup_eq_some_iff ..).mp hlive

theorem kept_restart (h : Kept crypto server) : Kept crypto server.restart where
  inverse := (kept_start crypto).inverse
  made := (kept_start crypto).made
  live := fun sessionHash key hkey => by simp [h.restart_keys] at hkey

theorem kept_restartKeyStore (h : Kept crypto server) : Kept crypto server.restartKeyStore where
  inverse := h.inverse
  made := h.made
  live := fun _ _ hkey => absurd hkey (by simp [restartKeyStore, SessionKeyManager.start])

end Sessions

end SessionServer

end Keto.Http
