import Keto.Http.SessionServer
import Keto.Library.Sealing
import Mathlib.Data.List.Induction
import Mathlib.Logic.Function.Basic

/-!
Clients of the HTTP server: each shakes hands with its own key and sends its
requests under the session hash of the last response, while strangers send what
they like and the server and its key store are restarted. The clients' keys, their
signatures and the moment of each request are parameters.
-/
namespace Keto.Http

open Protocol TransactionCommon AccountDb Library
open VerifiedSessions (HashesDiffer)
open scoped Library.ByteOrder

structure ClientSession where
  clientResponse : ClientResponse
  hasSession : Bool
  deriving DecidableEq, Repr

namespace ClientSession

/-- The response starts as the default message, which is a welcome. -/
def start : ClientSession := ⟨.welcome [] [], false⟩

def sessionHash (session : ClientSession) : Bytes :=
  match session.clientResponse with
  | .goAway => []
  | .welcome sessionHash _ => sessionHash

def request (hex : HexCodec) (target : Bytes) (body : Body) (session : ClientSession) :
    WebRequest where
  target := target
  sessionHash := if session.hasSession then some (hex.hexEncode session.sessionHash) else none
  body := body

/-- `handShake` behind the request. An answer that is lost or no success throws
before the response is parsed; a refusal throws behind it. -/
def shaken (answer : Option (Except RequestException Handed)) (session : ClientSession) :
    ClientSession :=
  match answer with
  | some (.ok (.response (.welcome sessionHash sessionKey))) =>
    ⟨.welcome sessionHash sessionKey, true⟩
  | some (.ok (.response .goAway)) => { session with clientResponse := .goAway }
  | _ => session

end ClientSession

structure HttpParties (K ι : Type) where
  crypto : Crypto K
  hex : HexCodec
  keyHash : ι → Hash

structure HttpSystem (ι : Type) where
  server : SessionServer
  client : ι → ClientSession

def HttpSystem.start {ι : Type} : HttpSystem ι := ⟨SessionServer.start, fun _ => .start⟩

/-- What happens. A handshake may lose its answer; `body` is what else the bytes of
a hello parse to. -/
inductive HttpEvent (K ι : Type)
  | handShake (client : ι) (signature : Bytes) (body : Body) (arrival : Arrival K) (answered : Bool)
  | makeRequest (client : ι) (body : Body) (arrival : Arrival K)
  | stranger (request : WebRequest) (arrival : Arrival K)
  | restart
  | restartKeyStore

namespace HttpParties

variable {K ι : Type} (parties : HttpParties K ι)

def request (event : HttpEvent K ι) (s : HttpSystem ι) : Option (WebRequest × Arrival K) :=
  match event with
  | .handShake client signature body arrival _ =>
    some ((s.client client).request parties.hex SessionServer.handShake
      { body with hello := some ⟨parties.keyHash client, signature⟩ }, arrival)
  | .makeRequest client body arrival =>
    some ((s.client client).request parties.hex SessionServer.transaction body, arrival)
  | .stranger request arrival => some (request, arrival)
  | .restart => none
  | .restartKeyStore => none

def handle (request : WebRequest) (arrival : Arrival K) (server : SessionServer) :
    Except RequestException Handed × SessionServer :=
  server.handleRequest parties.crypto parties.hex arrival request

def answer (event : HttpEvent K ι) (s : HttpSystem ι) :
    Option (Except RequestException Handed) :=
  (parties.request event s).map fun asked => (parties.handle asked.1 asked.2 s.server).1

def stepServer (event : HttpEvent K ι) (s : HttpSystem ι) : SessionServer :=
  match parties.request event s with
  | some (request, arrival) => (parties.handle request arrival s.server).2
  | none =>
    match event with
    | .restart => s.server.restart
    | .restartKeyStore => s.server.restartKeyStore
    | _ => s.server

variable [DecidableEq ι]

def stepClients (event : HttpEvent K ι) (s : HttpSystem ι) : ι → ClientSession :=
  match event with
  | .handShake client _ _ _ answered =>
    Function.update s.client client
      ((s.client client).shaken (if answered then parties.answer event s else none))
  | _ => s.client

def step (event : HttpEvent K ι) (s : HttpSystem ι) : HttpSystem ι :=
  ⟨parties.stepServer event s, parties.stepClients event s⟩

def run (events : List (HttpEvent K ι)) : HttpSystem ι :=
  Runs.run parties.step HttpSystem.start events

def Welcomes (clientHash sessionHash : Hash) (event : HttpEvent K ι) (s : HttpSystem ι) : Prop :=
  ∃ request arrival hello sessionKey, parties.request event s = some (request, arrival) ∧
    request.body.hello = some hello ∧ hello.clientHash = clientHash ∧
    parties.crypto.Verified arrival.files hello ∧
    (parties.handle request arrival s.server).1 =
      .ok (.response (.welcome sessionHash sessionKey))

variable {parties} {s : HttpSystem ι}

theorem step_cases (parties : HttpParties K ι) (event : HttpEvent K ι) (s : HttpSystem ι) :
    (∃ request arrival, parties.request event s = some (request, arrival) ∧
      (parties.step event s).server = (parties.handle request arrival s.server).2) ∨
    event = .restart ∧ (parties.step event s).server = s.server.restart ∨
    event = .restartKeyStore ∧ (parties.step event s).server = s.server.restartKeyStore := by
  cases event with
  | handShake => exact Or.inl ⟨_, _, rfl, rfl⟩
  | makeRequest => exact Or.inl ⟨_, _, rfl, rfl⟩
  | stranger => exact Or.inl ⟨_, _, rfl, rfl⟩
  | restart => exact Or.inr (Or.inl ⟨rfl, rfl⟩)
  | restartKeyStore => exact Or.inr (Or.inr ⟨rfl, rfl⟩)

theorem kept_step (hdiffer : HashesDiffer parties.crypto) (event : HttpEvent K ι)
    (h : s.server.Kept parties.crypto) : (parties.step event s).server.Kept parties.crypto := by
  rcases step_cases parties event s with
    ⟨request, arrival, _, hserver⟩ | ⟨rfl, hserver⟩ | ⟨rfl, hserver⟩
  · rw [hserver]
    exact SessionServer.kept_handleRequest hdiffer h parties.hex request
  · rw [hserver]
    exact SessionServer.kept_restart h
  · rw [hserver]
    exact SessionServer.kept_restartKeyStore h

theorem kept_along (hdiffer : HashesDiffer parties.crypto) (h : s.server.Kept parties.crypto)
    (events : List (HttpEvent K ι)) :
    (Runs.run parties.step s events).server.Kept parties.crypto :=
  @Runs.invariant_run _ _ parties.step (fun s => s.server.Kept parties.crypto) (fun _ _ => True)
    (fun event _ hkept _ => kept_step hdiffer event hkept) s h events
    (Runs.along_true parties.step s events)

theorem kept_run (hdiffer : HashesDiffer parties.crypto) (events : List (HttpEvent K ι)) :
    (parties.run events).server.Kept parties.crypto :=
  kept_along hdiffer (SessionServer.kept_start parties.crypto) events

theorem run_append (parties : HttpParties K ι) (events more : List (HttpEvent K ι)) :
    parties.run (events ++ more) = Runs.run parties.step (parties.run events) more :=
  Runs.run_append parties.step HttpSystem.start events more

theorem stored_along (hdiffer : HashesDiffer parties.crypto) (hkept : s.server.Kept parties.crypto)
    (hstored : s.server.Stored) {events : List (HttpEvent K ι)}
    (hup : ∀ event ∈ events, event ≠ .restartKeyStore) :
    (Runs.run parties.step s events).server.Stored := by
  induction events generalizing s with
  | nil => exact hstored
  | cons event events ih =>
    refine ih (kept_step hdiffer event hkept) ?_
      fun other hmem => hup other (List.mem_cons_of_mem event hmem)
    rcases step_cases parties event s with
      ⟨request, arrival, _, hserver⟩ | ⟨rfl, hserver⟩ | ⟨rfl, _⟩
    · rw [hserver]
      exact SessionServer.stored_handleRequest hdiffer hkept hstored parties.hex request
    · rw [hserver]
      exact fun session hlive => absurd hlive (SessionServer.not_live_restart s.server session)
    · exact absurd rfl (hup .restartKeyStore List.mem_cons_self)

def twoClients : HttpParties Bytes Bool where
  crypto := VerifiedSessions.plainCrypto
  hex := .botan
  keyHash := fun client => if client then [5] else [6]

def twoKeys : Arrival Bytes := ⟨[some [5], some [6]], ⟨fun _ => 0, fun _ => 0⟩, [3]⟩

def twoHellos : List (HttpEvent Bytes Bool) :=
  [.handShake true [5] .empty twoKeys true, .handShake false [6] .empty twoKeys false]

def KeyStoreUp (events : List (HttpEvent K ι)) : Prop :=
  ∃ before after, events = before ++ after ∧
    (before = [] ∨ ∃ earlier, before = earlier ++ [.restart]) ∧
    ∀ event ∈ after, event ≠ .restartKeyStore

/-- In every state, whatever strangers send, the key store holds keys of live sessions
only, and the key of each of them unless it was restarted since the server was. -/
theorem keys_of_sessions (hdiffer : HashesDiffer parties.crypto)
    (events : List (HttpEvent K ι)) :
    (∀ sessionHash key,
      (parties.run events).server.sessionKeys.sessionKeys.lookup sessionHash = some key →
        ∃ session, (parties.run events).server.Live session ∧
          session.sessionHash = sessionHash ∧ session.sessionKey = key) ∧
    (KeyStoreUp events → ∀ session, (parties.run events).server.Live session →
      (parties.run events).server.sessionKeys.sessionKeys.lookup session.sessionHash =
        some session.sessionKey) := by
  refine ⟨(kept_run hdiffer events).live, ?_⟩
  rintro ⟨before, after, rfl, hstart, hup⟩
  rw [run_append]
  refine stored_along hdiffer (kept_run hdiffer before) ?_ hup
  rcases hstart with rfl | ⟨earlier, rfl⟩
  · exact SessionServer.stored_start
  · rw [run_append]
    exact fun session hlive => absurd hlive (SessionServer.not_live_restart _ session)

theorem keys_of_sessions_twoHellos :
    (twoClients.run twoHellos).server.sessionKeys.sessionKeys.lookup
      (VerifiedSessions.plainCrypto.sessionHash [6] twoKeys.moment) = some [3] := by
  have hup : KeyStoreUp twoHellos := ⟨[], twoHellos, rfl, Or.inl rfl, by simp [twoHellos]⟩
  have hstored := (@keys_of_sessions Bytes Bool twoClients _
    VerifiedSessions.plainCrypto_hashesDiffer twoHellos).2 hup
  exact hstored ⟨[6], VerifiedSessions.plainCrypto.sessionHash [6] twoKeys.moment, [3]⟩
    (by unfold SessionServer.Live; decide +kernel)

/-- A session that is live behind an event was live before it, or the event welcomed it. -/
theorem origin_of_step {event : HttpEvent K ι} {session : HttpSession}
    (hlive : (parties.step event s).server.Live session) :
    s.server.Live session ∧ event ≠ .restart ∨
      parties.Welcomes session.clientHash session.sessionHash event s := by
  rcases step_cases parties event s with
    ⟨request, arrival, hrequest, hserver⟩ | ⟨rfl, hserver⟩ | ⟨rfl, hserver⟩
  · rw [hserver] at hlive
    rcases SessionServer.origin_of_handleRequest hlive with
      hold | ⟨hello, hhello, hverified, hclient, hanswer⟩
    · refine Or.inl ⟨hold, ?_⟩
      rintro rfl
      simp [HttpParties.request] at hrequest
    · exact Or.inr ⟨request, arrival, hello, session.sessionKey, hrequest, hhello, hclient,
        hverified, hanswer⟩
  · rw [hserver] at hlive
    exact absurd hlive (SessionServer.not_live_restart s.server session)
  · rw [hserver] at hlive
    exact Or.inl ⟨hlive, by simp⟩

/-- Every session was handed out to its verified client since the last restart. -/
theorem origin_of_run (parties : HttpParties K ι) (events : List (HttpEvent K ι))
    {session : HttpSession} (hlive : (parties.run events).server.Live session) :
    ∃ before hello behind, events = before ++ hello :: behind ∧
      (∀ event ∈ behind, event ≠ .restart) ∧
      parties.Welcomes session.clientHash session.sessionHash hello (parties.run before) := by
  induction events using List.reverseRecOn with
  | nil => exact absurd hlive (SessionServer.not_live_start session)
  | append_singleton events event ih =>
    rw [run_append] at hlive
    rcases origin_of_step hlive with ⟨hold, hevent⟩ | hwelcomes
    · obtain ⟨before, hello, behind, rfl, hbehind, hwelcomes⟩ := ih hold
      refine ⟨before, hello, behind ++ [event], by simp, ?_, hwelcomes⟩
      intro other hmem
      rcases List.mem_append.mp hmem with hmem | hmem
      · exact hbehind other hmem
      · rw [List.mem_singleton.mp hmem]
        exact hevent
    · exact ⟨events, event, [], rfl, fun _ hmem => absurd hmem List.not_mem_nil, hwelcomes⟩

/-- Whoever sends it: a transaction that is routed or a query that is passed on names a
session hash that a verified client was welcomed with since the last restart, and the
routed message carries that hash. -/
theorem accepted_after_welcome (hdiffer : HashesDiffer parties.crypto)
    (events : List (HttpEvent K ι)) (request : WebRequest) (arrival : Arrival K)
    {handed : Handed} (hhanded : handed.Accepted)
    (h : (parties.handle request arrival (parties.run events).server).1 = .ok handed) :
    ∃ sessionHash, request.sessionHash.bind parties.hex.hexDecode = some sessionHash ∧
      (∀ wrapper, handed = .routed wrapper → wrapper.sessionHash = sessionHash) ∧
      ∃ before hello behind clientHash, events = before ++ hello :: behind ∧
        (∀ event ∈ behind, event ≠ .restart) ∧
        parties.Welcomes clientHash sessionHash hello (parties.run before) := by
  obtain ⟨sessionHash, hheader, hvalid, hrouted⟩ := SessionServer.valid_of_accepted hhanded h
  obtain ⟨session, hlive, rfl⟩ := ((kept_run hdiffer events).valid_iff sessionHash).mp hvalid
  obtain ⟨before, hello, behind, hevents, hbehind, hwelcomes⟩ := origin_of_run parties events hlive
  refine ⟨session.sessionHash, hheader, ?_, before, hello, behind, session.clientHash, hevents,
    hbehind, hwelcomes⟩
  intro wrapper hwrapper
  obtain ⟨transaction, _, hwrap⟩ := hrouted wrapper hwrapper
  obtain ⟨message, accountHash, _, _, rfl⟩ := HttpTransactionManager.wrap_eq_ok.mp hwrap
  rfl

def strangerQuery : WebRequest where
  target := text "/data/AB/?query=x"
  sessionHash := some (HexCodec.botan.hexEncode
    (VerifiedSessions.plainCrypto.sessionHash [5] twoKeys.moment))
  body := .empty

theorem accepted_after_welcome_stranger :
    ∃ sessionHash, strangerQuery.sessionHash.bind HexCodec.botan.hexDecode = some sessionHash ∧
      ∃ before hello behind clientHash, twoHellos = before ++ hello :: behind ∧
        (∀ event ∈ behind, event ≠ .restart) ∧
        twoClients.Welcomes clientHash sessionHash hello (twoClients.run before) := by
  have hquery : (twoClients.handle strangerQuery twoKeys (twoClients.run twoHellos).server).1 =
      .ok (.query [0xab] (text "x")) := by
    decide +kernel
  obtain ⟨sessionHash, hheader, _, hwelcome⟩ :=
    @accepted_after_welcome Bytes Bool twoClients _ VerifiedSessions.plainCrypto_hashesDiffer
      twoHellos strangerQuery twoKeys (.query [0xab] (text "x")) trivial hquery
  exact ⟨sessionHash, hheader, hwelcome⟩

def Own (parties : HttpParties K ι) (s : HttpSystem ι) : Prop :=
  ∀ client, (s.client client).hasSession = true → (s.client client).sessionHash = [] ∨
    ∃ moment, (s.client client).sessionHash =
      parties.crypto.sessionHash (parties.keyHash client) moment

theorem shaken_cases (answer : Option (Except RequestException Handed)) (session : ClientSession) :
    session.shaken answer = session ∨
    session.shaken answer = { session with clientResponse := .goAway } ∨
    ∃ sessionHash sessionKey, answer = some (.ok (.response (.welcome sessionHash sessionKey))) ∧
      session.shaken answer = ⟨.welcome sessionHash sessionKey, true⟩ := by
  unfold ClientSession.shaken
  split
  · exact Or.inr (Or.inr ⟨_, _, rfl, rfl⟩)
  · exact Or.inr (Or.inl rfl)
  · exact Or.inl rfl

def Holds (parties : HttpParties K ι) (client : ι) (s : HttpSystem ι) : Prop :=
  ∃ session, s.server.Live session ∧ session.clientHash = parties.keyHash client ∧
    s.client client = ⟨.welcome session.sessionHash session.sessionKey, true⟩

theorem holds_welcomed (h : s.server.Kept parties.crypto) {client : ι} {signature : Bytes}
    {body : Body} {arrival : Arrival K} {sessionHash sessionKey : Bytes}
    (hwelcome : parties.answer (.handShake client signature body arrival true) s =
      some (.ok (.response (.welcome sessionHash sessionKey)))) :
    Holds parties client (parties.step (.handShake client signature body arrival true) s) := by
  obtain ⟨hello, session, hhello, _, hlive, hclient, rfl, rfl⟩ :=
    h.welcome (Option.some.inj hwelcome)
  obtain rfl := Option.some.inj hhello
  refine ⟨session, hlive, hclient, ?_⟩
  simp only [step, stepClients, Function.update_self, if_true, hwelcome]
  rfl

/-- What an event leaves a client with: what it had, a refusal, or its session. -/
theorem client_step (h : s.server.Kept parties.crypto) (event : HttpEvent K ι) (client : ι) :
    (parties.step event s).client client = s.client client ∨
    (parties.step event s).client client =
      { s.client client with clientResponse := .goAway } ∨
    Holds parties client (parties.step event s) := by
  cases event with
  | handShake shaking signature body arrival answered =>
    by_cases heq : client = shaking
    · subst heq
      cases answered with
      | false => exact Or.inl (Function.update_self ..)
      | true =>
        rcases shaken_cases (parties.answer (.handShake client signature body arrival true) s)
          (s.client client) with hsame | hrefused | ⟨sessionHash, sessionKey, hwelcome, _⟩
        · exact Or.inl ((Function.update_self ..).trans hsame)
        · exact Or.inr (Or.inl ((Function.update_self ..).trans hrefused))
        · exact Or.inr (Or.inr (holds_welcomed h hwelcome))
    · exact Or.inl (Function.update_of_ne heq _ _)
  | makeRequest => exact Or.inl rfl
  | stranger => exact Or.inl rfl
  | restart => exact Or.inl rfl
  | restartKeyStore => exact Or.inl rfl

theorem own_step (hdiffer : HashesDiffer parties.crypto) (h : s.server.Kept parties.crypto)
    (event : HttpEvent K ι) (hown : Own parties s) : Own parties (parties.step event s) := by
  intro client hsession
  rcases client_step h event client with hsame | hrefused | ⟨session, hlive, hclient, hwelcome⟩
  · rw [hsame] at hsession ⊢
    exact hown client hsession
  · rw [hrefused]
    exact Or.inl rfl
  · obtain ⟨moment, hmade⟩ := (kept_step hdiffer event h).made session hlive
    rw [hwelcome, ← hclient]
    exact Or.inr ⟨moment, hmade⟩

theorem own_run (hdiffer : HashesDiffer parties.crypto) (events : List (HttpEvent K ι)) :
    Own parties (parties.run events) := by
  have hboth : (parties.run events).server.Kept parties.crypto ∧ Own parties (parties.run events) :=
    @Runs.invariant_run _ _ parties.step
      (fun s => s.server.Kept parties.crypto ∧ Own parties s) (fun _ _ => True)
      (fun event _ hs _ => ⟨kept_step hdiffer event hs.1, own_step hdiffer hs.1 event hs.2⟩)
      HttpSystem.start
      ⟨SessionServer.kept_start parties.crypto, fun _ hsession => by
        simp [HttpSystem.start, ClientSession.start] at hsession⟩
      events (Runs.along_true parties.step _ events)
  exact hboth.2

theorem plainCrypto_nonempty (clientHash : Hash) (moment : Moment) :
    VerifiedSessions.plainCrypto.sessionHash clientHash moment ≠ [] := by
  simp [Crypto.sessionHash, VerifiedSessions.plainCrypto]

/-- A client is never served as another: what is routed or passed on for it is under a
live session of its own key, in whatever state the server and the client are. -/
theorem served_as_itself (hdiffer : HashesDiffer parties.crypto)
    (hempty : ∀ clientHash moment, parties.crypto.sessionHash clientHash moment ≠ [])
    (hdecode : ∀ bytes, parties.hex.hexDecode (parties.hex.hexEncode bytes) = some bytes)
    (events : List (HttpEvent K ι)) (client : ι) (target : Bytes) (body : Body)
    (arrival : Arrival K) {handed : Handed} (hhanded : handed.Accepted)
    (h : (parties.handle (((parties.run events).client client).request parties.hex target body)
      arrival (parties.run events).server).1 = .ok handed) :
    ∃ session, (parties.run events).server.Live session ∧
      session.clientHash = parties.keyHash client ∧
      session.sessionHash = ((parties.run events).client client).sessionHash := by
  obtain ⟨sessionHash, hheader, hvalid, _⟩ := SessionServer.valid_of_accepted hhanded h
  simp only [ClientSession.request] at hheader
  cases hsession : ((parties.run events).client client).hasSession with
  | false => simp [hsession] at hheader
  | true =>
    rw [hsession, if_pos rfl, Option.bind_some, hdecode] at hheader
    have hkept := kept_run hdiffer events
    obtain ⟨session, hlive, hhash⟩ := (hkept.valid_iff sessionHash).mp hvalid
    rw [← Option.some.inj hheader] at hhash
    refine ⟨session, hlive, ?_, hhash⟩
    obtain ⟨made, hmade⟩ := hkept.made session hlive
    rcases own_run hdiffer events client hsession with hnone | ⟨moment, hmoment⟩
    · rw [hnone, hmade] at hhash
      exact absurd hhash (hempty _ _)
    · by_contra hother
      refine hdiffer _ _ made moment hother ?_
      rw [← hmade, hhash, hmoment]

theorem Live.step {session : HttpSession} (hlive : s.server.Live session)
    {event : HttpEvent K ι} (hevent : event ≠ .restart) :
    (parties.step event s).server.Live session := by
  rcases step_cases parties event s with
    ⟨request, arrival, _, hserver⟩ | ⟨rfl, _⟩ | ⟨rfl, hserver⟩
  · rw [hserver]
    exact SessionServer.Live.handleRequest hlive parties.crypto parties.hex arrival request
  · exact absurd rfl hevent
  · rw [hserver]
    exact hlive

theorem served_as_itself_query :
    ∃ session, (twoClients.run twoHellos).server.Live session ∧
      session.clientHash = [5] ∧
      session.sessionHash = ((twoClients.run twoHellos).client true).sessionHash := by
  have hquery : (twoClients.handle (((twoClients.run twoHellos).client true).request .botan
      (text "/data/AB/?query=x") .empty) twoKeys (twoClients.run twoHellos).server).1 =
        .ok (.query [0xab] (text "x")) := by
    decide +kernel
  exact @served_as_itself Bytes Bool twoClients _ VerifiedSessions.plainCrypto_hashesDiffer
    plainCrypto_nonempty HexCodec.botan_decode_encode twoHellos true (text "/data/AB/?query=x")
    .empty twoKeys (.query [0xab] (text "x")) trivial hquery

/-- Until the server is restarted, a client that was welcomed has its session, or was
refused and not welcomed again. -/
theorem holds_along (hdiffer : HashesDiffer parties.crypto) {client : ι}
    (hkept : s.server.Kept parties.crypto)
    (h : (s.client client).clientResponse = .goAway ∨ Holds parties client s)
    {events : List (HttpEvent K ι)} (hevents : ∀ event ∈ events, event ≠ .restart) :
    ((Runs.run parties.step s events).client client).clientResponse = .goAway ∨
      Holds parties client (Runs.run parties.step s events) := by
  induction events generalizing s with
  | nil => exact h
  | cons event events ih =>
    refine ih (kept_step hdiffer event hkept) ?_
      fun other hmem => hevents other (List.mem_cons_of_mem event hmem)
    rcases client_step hkept event client with hsame | hrefused | hwelcome
    · rw [hsame]
      refine h.imp_right ?_
      rintro ⟨session, hlive, hclient, hwelcome⟩
      exact ⟨session, Live.step hlive (hevents event List.mem_cons_self), hclient,
        hsame.trans hwelcome⟩
    · rw [hrefused]
      exact Or.inl rfl
    · exact Or.inr hwelcome

omit [DecidableEq ι] in
/-- A transaction of a client that holds its session is routed under it. -/
theorem Holds.routed {client : ι} (h : Holds parties client s)
    (hkept : s.server.Kept parties.crypto)
    (hdecode : ∀ bytes, parties.hex.hexDecode (parties.hex.hexEncode bytes) = some bytes)
    {body : Body} {transaction : Transaction} {wrapper : MessageWrapper}
    (hbody : body.transaction = some transaction)
    (hwrap : HttpTransactionManager.wrap (s.client client).sessionHash transaction = .ok wrapper)
    (arrival : Arrival K) :
    (parties.handle ((s.client client).request parties.hex SessionServer.transaction body) arrival
      s.server).1 = .ok (.routed wrapper) := by
  obtain ⟨session, hlive, _, hclient⟩ := h
  have hvalid := (hkept.valid_iff session.sessionHash).mpr ⟨session, hlive, rfl⟩
  have htarget : SessionServer.transaction ≠ SessionServer.handShake := by decide
  have hrouted : (s.server.processTransaction parties.hex
      ((s.client client).request parties.hex SessionServer.transaction body)).1 = .ok wrapper := by
    refine HttpTransactionManager.processTransaction_eq_ok.mpr
      ⟨session.sessionHash, transaction, ?_, hvalid, hbody, ?_⟩
    · simp [ClientSession.request, ClientSession.sessionHash, hclient, hdecode]
    · simpa [ClientSession.sessionHash, hclient] using hwrap
  simp [handle, SessionServer.handleRequest, ClientSession.request, htarget] at hrouted ⊢
  simp [hrouted, Except.map, Except.mapError]

/-- A client that was welcomed is served from then on: until the server is restarted,
whatever strangers and other clients do and however often it shakes hands again, it
holds its session with the server's key unless it was refused, and its transactions
are routed under it. -/
theorem welcomed_stays_served (hdiffer : HashesDiffer parties.crypto)
    (hdecode : ∀ bytes, parties.hex.hexDecode (parties.hex.hexEncode bytes) = some bytes)
    (before : List (HttpEvent K ι)) {client : ι} {signature : Bytes} {body : Body}
    {arrival : Arrival K} {sessionHash sessionKey : Bytes}
    (hwelcome : parties.answer (.handShake client signature body arrival true)
      (parties.run before) = some (.ok (.response (.welcome sessionHash sessionKey))))
    {behind : List (HttpEvent K ι)} (hbehind : ∀ event ∈ behind, event ≠ .restart)
    {s : HttpSystem ι}
    (hs : s = parties.run (before ++ .handShake client signature body arrival true :: behind))
    (hclient : (s.client client).clientResponse ≠ .goAway) :
    Holds parties client s ∧
      ∀ body transaction wrapper arrival, body.transaction = some transaction →
        HttpTransactionManager.wrap (s.client client).sessionHash transaction = .ok wrapper →
        (parties.handle ((s.client client).request parties.hex SessionServer.transaction body)
          arrival s.server).1 = .ok (.routed wrapper) := by
  have hholds : Holds parties client s := by
    rw [hs, run_append, Runs.run_cons] at hclient ⊢
    have hkept := kept_run hdiffer before
    exact (holds_along hdiffer (kept_step hdiffer _ hkept) (Or.inr (holds_welcomed hkept hwelcome))
      hbehind).resolve_left hclient
  refine ⟨hholds, ?_⟩
  intro body transaction wrapper arrival hbody hwrap
  have hkept : s.server.Kept parties.crypto := hs ▸ kept_run hdiffer _
  exact hholds.routed hkept hdecode hbody hwrap arrival

/-- The first client shakes hands; the second does too, a stranger asks, and the key store
is restarted. -/
theorem welcomed_stays_served_twoClients :
    Holds twoClients true (twoClients.run
      [.handShake true [5] .empty twoKeys true, .handShake false [6] .empty twoKeys false,
        .stranger strangerQuery twoKeys, .restartKeyStore]) := by
  refine (@welcomed_stays_served Bytes Bool twoClients _ VerifiedSessions.plainCrypto_hashesDiffer
    HexCodec.botan_decode_encode [] true [5] .empty twoKeys
    (VerifiedSessions.plainCrypto.sessionHash [5] twoKeys.moment) [3] (by decide +kernel)
    [.handShake false [6] .empty twoKeys false, .stranger strangerQuery twoKeys, .restartKeyStore]
    (by simp) _ rfl (by decide +kernel)).1

end HttpParties

end Keto.Http
