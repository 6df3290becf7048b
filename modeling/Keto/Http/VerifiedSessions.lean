import Keto.Http.HttpSessionManager

/-!
Runs of the session manager. The sessions handed out with a welcome are the
valid ones, and the two maps are inverse to each other, as long as `getSession`
is asked for valid sessions only.
-/
namespace Keto.Http.VerifiedSessions

open Protocol Library HttpSessionManager
open scoped Library.ByteOrder

variable {K : Type}

inductive Call (K : Type)
  | processHello (surroundings : Surroundings K) (hello : Option ClientHello)
  | isValid (sessionHash : Hash)
  | getSession (sessionHash : Hash)

/-- The manager with the sessions it handed out, each with the client it was handed to. -/
structure Server where
  manager : HttpSessionManager
  handedOut : List (Hash × Hash)

namespace Server

def start : Server := ⟨HttpSessionManager.start, []⟩

def answer (hello : Option ClientHello)
    (answered : Except HttpException ClientResponse × HttpSessionManager) (server : Server) :
    Server :=
  match hello, answered.1 with
  | some clientHello, .ok (.welcome sessionHash _) =>
    ⟨answered.2, (clientHello.clientHash, sessionHash) :: server.handedOut⟩
  | _, _ => ⟨answered.2, server.handedOut⟩

theorem answer_welcome (clientHello : ClientHello) (sessionHash sessionKey : Bytes)
    (manager : HttpSessionManager) (server : Server) :
    server.answer (some clientHello) (.ok (.welcome sessionHash sessionKey), manager) =
      ⟨manager, (clientHello.clientHash, sessionHash) :: server.handedOut⟩ := rfl

theorem answer_other (hello : Option ClientHello)
    {answered : Except HttpException ClientResponse × HttpSessionManager}
    (h : ∀ sessionHash sessionKey, answered.1 ≠ .ok (.welcome sessionHash sessionKey))
    (server : Server) : server.answer hello answered = ⟨answered.2, server.handedOut⟩ := by
  simp only [answer]
  split
  · rename_i hwelcome
    exact absurd hwelcome (h _ _)
  · rfl

end Server

variable (crypto : Crypto K)

def step (call : Call K) (server : Server) : Server :=
  match call with
  | .processHello surroundings hello =>
    server.answer hello (server.manager.processHello crypto surroundings hello)
  | .isValid _ => server
  | .getSession sessionHash => { server with manager := (getSession sessionHash server.manager).2 }

structure Inverse (manager : HttpSessionManager) : Prop where
  client : ∀ clientHash session, manager.clientHashMap.lookup clientHash = some session →
    session.clientHash = clientHash
  session : ∀ sessionHash entry, manager.clientSessionMap.lookup sessionHash = some entry →
    ∃ session, entry = some session ∧ session.sessionHash = sessionHash
  inverse : ∀ session : HttpSession,
    manager.clientHashMap.lookup session.clientHash = some session ↔
      manager.clientSessionMap.lookup session.sessionHash = some (some session)

structure Sound (server : Server) : Prop where
  inverse : Inverse server.manager
  valid_iff : ∀ sessionHash, server.manager.isValid sessionHash = true ↔
    ∃ clientHash, (clientHash, sessionHash) ∈ server.handedOut
  own : ∀ clientHash sessionHash, (clientHash, sessionHash) ∈ server.handedOut →
    ∃ session : HttpSession, session.clientHash = clientHash ∧
      session.sessionHash = sessionHash ∧
      (getSession sessionHash server.manager).1 = some session ∧
      server.manager.clientHashMap.lookup clientHash = some session

/-- What is asked of a call beside the maps it leaves: a session is handed out to
verified clients only and a client that has one gets it again; asking for a
session makes none valid. -/
def Answers (call : Call K) (server : Server) : Prop :=
  match call with
  | .processHello surroundings hello =>
    ∀ sessionHash sessionKey,
      (server.manager.processHello crypto surroundings hello).1 =
          .ok (.welcome sessionHash sessionKey) →
        ∃ clientHello, hello = some clientHello ∧
          crypto.Verified surroundings.files clientHello ∧
          ∀ session, server.manager.clientHashMap.lookup clientHello.clientHash = some session →
            sessionHash = session.sessionHash
  | .isValid _ => True
  | .getSession sessionHash =>
    ∀ other, (getSession sessionHash server.manager).2.isValid other =
      server.manager.isValid other

def Correct (call : Call K) (server : Server) : Prop :=
  Sound (step crypto call server) ∧ Answers crypto call server

def Known (call : Call K) (server : Server) : Prop :=
  match call with
  | .getSession sessionHash => server.manager.isValid sessionHash = true
  | _ => True

/-- Two clients never get equal session hashes, whenever they get them. -/
def HashesDiffer : Prop :=
  ∀ clientHash clientHash' moment moment', clientHash ≠ clientHash' →
    crypto.sessionHash clientHash moment ≠ crypto.sessionHash clientHash' moment'

structure Reached (server : Server) : Prop where
  sound : Sound server
  made : ∀ clientHash session, server.manager.clientHashMap.lookup clientHash = some session →
    ∃ moment, session.sessionHash = crypto.sessionHash clientHash moment

theorem reached_start : Reached crypto Server.start where
  sound := {
    inverse := {
      client := fun _ _ h => absurd h (by simp [Server.start, HttpSessionManager.start])
      session := fun _ _ h => absurd h (by simp [Server.start, HttpSessionManager.start])
      inverse := fun _ => by simp [Server.start, HttpSessionManager.start] }
    valid_iff := fun _ => by
      simp [Server.start, HttpSessionManager.start, isValid, OrderedMap.contains]
    own := fun _ _ h => absurd h (by simp [Server.start]) }
  made := fun _ _ h => absurd h (by simp [Server.start, HttpSessionManager.start])

section Steps

variable {crypto}

/-- A client that says hello again. -/
theorem Sound.again {server : Server} (h : Sound server) {clientHash : Hash}
    {session : HttpSession}
    (hlookup : server.manager.clientHashMap.lookup clientHash = some session) :
    Sound ⟨server.manager, (clientHash, session.sessionHash) :: server.handedOut⟩ := by
  have hclient := h.inverse.client clientHash session hlookup
  have hentry : server.manager.clientSessionMap.lookup session.sessionHash =
      some (some session) := by
    rw [← h.inverse.inverse, hclient]
    exact hlookup
  refine ⟨h.inverse, ?_, ?_⟩
  · intro sessionHash
    rw [h.valid_iff]
    constructor
    · rintro ⟨client, hmem⟩
      exact ⟨client, List.mem_cons_of_mem _ hmem⟩
    · rintro ⟨client, hmem⟩
      rcases List.mem_cons.mp hmem with hhead | hmem
      · obtain ⟨rfl, rfl⟩ := Prod.mk.inj hhead
        exact (h.valid_iff _).mp ((OrderedMap.contains_iff _ _).mpr ⟨_, hentry⟩)
      · exact ⟨client, hmem⟩
  · intro client sessionHash hmem
    rcases List.mem_cons.mp hmem with hhead | hmem
    · obtain ⟨rfl, rfl⟩ := Prod.mk.inj hhead
      refine ⟨session, hclient, rfl, ?_, hlookup⟩
      simp only [getSession]
      rw [hentry, Option.getD_some]
    · exact h.own client sessionHash hmem

/-- A session of a new client with a new hash is filed under both hashes. -/
theorem Inverse.insert {manager : HttpSessionManager} (h : Inverse manager)
    {session : HttpSession} (hnone : manager.clientHashMap.lookup session.clientHash = none)
    (hfresh : ∀ other, manager.clientHashMap.lookup other.clientHash = some other →
      other.sessionHash ≠ session.sessionHash) :
    Inverse {
      clientHashMap := manager.clientHashMap.insert session.clientHash session
      clientSessionMap := manager.clientSessionMap.insert session.sessionHash (some session) } := by
  refine ⟨?_, ?_, ?_⟩
  · intro client other hlookup
    rw [OrderedMap.lookup_insert] at hlookup
    split at hlookup
    · rename_i hkey
      obtain rfl := Option.some.inj hlookup
      exact hkey.symm
    · exact h.client client other hlookup
  · intro sessionHash entry hlookup
    rw [OrderedMap.lookup_insert] at hlookup
    split at hlookup
    · rename_i hkey
      obtain rfl := Option.some.inj hlookup
      exact ⟨session, rfl, hkey.symm⟩
    · exact h.session sessionHash entry hlookup
  · intro other
    rw [OrderedMap.lookup_insert, OrderedMap.lookup_insert]
    by_cases hclient : other.clientHash = session.clientHash
    · rw [if_pos hclient]
      by_cases hhash : other.sessionHash = session.sessionHash
      · rw [if_pos hhash]
        simp
      · rw [if_neg hhash, ← h.inverse, hclient, hnone]
        refine iff_of_false ?_ (by simp)
        intro heq
        exact hhash (congrArg HttpSession.sessionHash (Option.some.inj heq)).symm
    · rw [if_neg hclient]
      by_cases hhash : other.sessionHash = session.sessionHash
      · rw [if_pos hhash]
        refine iff_of_false (fun hlookup => hfresh other hlookup hhash) ?_
        intro heq
        exact hclient (congrArg HttpSession.clientHash (by simpa using heq)).symm
      · rw [if_neg hhash, h.inverse]

/-- The session of a client the manager does not know yet, with a hash no other session has. -/
theorem Sound.first {server : Server} (h : Sound server) {clientHash : Hash}
    {session : HttpSession} (hclient : session.clientHash = clientHash)
    (hnone : server.manager.clientHashMap.lookup clientHash = none)
    (hfresh : ∀ other, server.manager.clientHashMap.lookup other.clientHash = some other →
      other.sessionHash ≠ session.sessionHash) :
    Sound ⟨{
        clientHashMap := server.manager.clientHashMap.insert session.clientHash session
        clientSessionMap :=
          server.manager.clientSessionMap.insert session.sessionHash (some session) },
      (clientHash, session.sessionHash) :: server.handedOut⟩ := by
  subst hclient
  refine ⟨h.inverse.insert hnone hfresh, ?_, ?_⟩
  · intro sessionHash
    rw [isValid, OrderedMap.contains_insert]
    change (_ ∨ server.manager.isValid sessionHash = true) ↔ _
    rw [h.valid_iff]
    constructor
    · rintro (rfl | ⟨client, hmem⟩)
      · exact ⟨session.clientHash, List.mem_cons_self⟩
      · exact ⟨client, List.mem_cons_of_mem _ hmem⟩
    · rintro ⟨client, hmem⟩
      rcases List.mem_cons.mp hmem with hhead | hmem
      · exact Or.inl (Prod.mk.inj hhead).2
      · exact Or.inr ⟨client, hmem⟩
  · intro client sessionHash hmem
    rcases List.mem_cons.mp hmem with hhead | hmem
    · obtain ⟨rfl, rfl⟩ := Prod.mk.inj hhead
      exact ⟨session, rfl, rfl, by simp [getSession], OrderedMap.lookup_insert_self ..⟩
    · obtain ⟨other, rfl, rfl, hget, hlookup⟩ := h.own client sessionHash hmem
      have hother : other.clientHash ≠ session.clientHash := by
        intro heq
        rw [heq, hnone] at hlookup
        simp at hlookup
      refine ⟨other, rfl, rfl, ?_, ?_⟩
      · simp only [getSession]
        rw [OrderedMap.lookup_insert_ne _ _ (hfresh other hlookup)]
        exact hget
      · rw [OrderedMap.lookup_insert_ne _ _ hother]
        exact hlookup

theorem Reached.step_hello (hdiffer : HashesDiffer crypto) {server : Server}
    (h : Reached crypto server) (surroundings : Surroundings K) (hello : Option ClientHello) :
    Reached crypto (step crypto (.processHello surroundings hello) server) := by
  rcases processHello_cases crypto surroundings hello server.manager with
    ⟨hsame, hnot⟩ | ⟨clientHello, session, manager', rfl, -, hwelcomed, hresult⟩
  · have hstep : step crypto (.processHello surroundings hello) server = server := by
      rw [step, Server.answer_other hello hnot, hsame]
    rw [hstep]
    exact h
  · have hstep : step crypto (.processHello surroundings (some clientHello)) server =
        ⟨manager', (clientHello.clientHash, session.sessionHash) :: server.handedOut⟩ := by
      rw [step, hresult, Server.answer_welcome]
    rw [hstep]
    cases hwelcomed with
    | again hlookup => exact ⟨h.sound.again hlookup, h.made⟩
    | first hnone hclient hhash =>
      have hfresh : ∀ other : HttpSession,
          server.manager.clientHashMap.lookup other.clientHash = some other →
            other.sessionHash ≠ session.sessionHash := by
        intro other hlookup
        obtain ⟨moment, hmoment⟩ := h.made other.clientHash other hlookup
        rw [hmoment, hhash]
        apply hdiffer
        intro heq
        rw [heq, hnone] at hlookup
        simp at hlookup
      refine ⟨h.sound.first hclient hnone hfresh, ?_⟩
      intro client other hlookup
      rw [OrderedMap.lookup_insert] at hlookup
      split at hlookup
      · rename_i hkey
        obtain rfl := Option.some.inj hlookup
        exact ⟨surroundings.moment, by rw [hhash, hkey, hclient]⟩
      · exact h.made client other hlookup

theorem answers_hello (server : Server) (surroundings : Surroundings K)
    (hello : Option ClientHello) : Answers crypto (.processHello surroundings hello) server := by
  intro sessionHash sessionKey hwelcome
  rcases processHello_cases crypto surroundings hello server.manager with
    ⟨-, hnot⟩ | ⟨clientHello, session, manager', rfl, hverified, hwelcomed, hresult⟩
  · exact absurd hwelcome (hnot sessionHash sessionKey)
  · rw [hresult] at hwelcome
    obtain ⟨rfl, rfl⟩ := ClientResponse.welcome.inj (Except.ok.inj hwelcome)
    refine ⟨clientHello, rfl, hverified, ?_⟩
    intro found hfound
    cases hwelcomed with
    | again hlookup => rw [Option.some.inj (hlookup.symm.trans hfound)]
    | first hnone => simp [hnone] at hfound

/-- Asking for a session keeps the maps exactly if the session is valid. -/
theorem correct_getSession_iff (crypto : Crypto K) {server : Server} (h : Sound server)
    (sessionHash : Hash) :
    Correct crypto (.getSession sessionHash) server ↔
      server.manager.isValid sessionHash = true := by
  constructor
  · rintro ⟨hsound, -⟩
    by_contra hnot
    obtain ⟨session, hnull, -⟩ := hsound.inverse.session sessionHash none
      (OrderedMap.lookup_touch_of_not_contains hnot none)
    exact absurd hnull (by simp)
  · intro hvalid
    have hsame : (getSession sessionHash server.manager).2 = server.manager := by
      rw [getSession, OrderedMap.touch_of_contains hvalid]
    refine ⟨?_, ?_⟩
    · rw [step, hsame]
      exact h
    · intro other
      rw [hsame]

theorem Reached.step {server : Server} (hdiffer : HashesDiffer crypto)
    (h : Reached crypto server) (call : Call K) (hknown : Known call server) :
    Reached crypto (step crypto call server) := by
  cases call with
  | processHello surroundings hello => exact h.step_hello hdiffer surroundings hello
  | isValid sessionHash => exact h
  | getSession sessionHash =>
    exact ⟨((correct_getSession_iff crypto h.sound sessionHash).mpr hknown).1, h.made⟩

end Steps

/-- Every call of a run is correct exactly if sessions are asked for by valid hashes only. -/
theorem sessions_along (hdiffer : HashesDiffer crypto) (calls : List (Call K)) :
    Runs.Along (step crypto) (Correct crypto) Server.start calls ↔
      Runs.Along (step crypto) Known Server.start calls := by
  refine Runs.along_iff_of_invariant (step crypto) ?_ ?_ (reached_start crypto)
    (Runs.along_true _ _ calls)
  · intro call server hreached _ hknown
    exact hreached.step hdiffer call hknown
  · intro call server hreached _
    cases call with
    | processHello surroundings hello =>
      refine iff_of_true ⟨?_, ?_⟩ trivial
      · exact (hreached.step_hello hdiffer surroundings hello).sound
      · exact answers_hello server surroundings hello
    | isValid sessionHash => exact iff_of_true ⟨hreached.sound, trivial⟩ trivial
    | getSession sessionHash => exact correct_getSession_iff crypto hreached.sound sessionHash

def plainCrypto : Crypto Bytes where
  accountHash := [9]
  generateHash := id
  encode := id
  check := fun _ source signature => some (signature = source)

theorem plainCrypto_hashesDiffer : HashesDiffer plainCrypto := by
  intro clientHash clientHash' moment moment' hne heq
  have hlength : moment.bytes.length = moment'.bytes.length := by simp [Moment.bytes]
  have hbytes : (clientHash ++ [9]) ++ moment.bytes = (clientHash' ++ [9]) ++ moment'.bytes := heq
  have hclients := (List.append_inj' hbytes hlength).1
  exact hne (List.append_cancel_right hclients)

def oneKey : Surroundings Bytes where
  files := [some [5]]
  moment := ⟨fun _ => 0, fun _ => 0⟩
  requestSessionKey := fun _ => some [3]

/-- A client says hello twice and asks for its session. -/
theorem sessions_along_hello :
    Runs.Along (step plainCrypto) (Correct plainCrypto) Server.start
      [.processHello oneKey (some ⟨[5], [5]⟩), .processHello oneKey (some ⟨[5], [5]⟩),
        .getSession (plainCrypto.sessionHash [5] oneKey.moment)] := by
  refine (sessions_along plainCrypto plainCrypto_hashesDiffer _).mpr ⟨trivial, trivial, ?_, trivial⟩
  change isValid _ _ = true
  decide +kernel

/-- The hash that was only asked for is valid, and nobody was handed a session. -/
theorem asked_hash_becomes_valid :
    HashesDiffer plainCrypto ∧
      ∃ calls, ¬ Runs.Along (step plainCrypto) (Correct plainCrypto) Server.start calls ∧
        (Runs.run (step plainCrypto) Server.start calls).manager.isValid [7] = true ∧
        (Runs.run (step plainCrypto) Server.start calls).handedOut = [] := by
  refine ⟨plainCrypto_hashesDiffer, [.getSession [7]], ?_, by decide +kernel, rfl⟩
  rintro ⟨⟨hsound, -⟩, -⟩
  obtain ⟨client, hmem⟩ := (hsound.valid_iff [7]).mp (by decide +kernel)
  simp [step, Server.start] at hmem

end Keto.Http.VerifiedSessions
