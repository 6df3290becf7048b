import Keto.Library.OrderedMap
import Keto.Library.Runs
import Keto.TransactionCommon
import Mathlib.Data.List.OfFn

/-!
The sessions of the HTTP server. A client that signs its hash with a key the
server knows gets a session, kept by the hash of the client and by the hash of
the session; every other request names the session hash. The keys are a
parameter, and so are the moment a session is made at and the answer of the key
store to the request for a session key.
-/
namespace Keto.Http

open Protocol Library
open scoped Library.ByteOrder

inductive HttpException
  | messageDeserialization (text : String)
  | keyLoader
  | signatureVerification
  | sessionKey
  | invalidSession
  /-- A header that is missing, or no text of hexadecimal digits. -/
  | header
  | transaction (exception : TransactionCommon.TransactionException)
  deriving DecidableEq, Repr

structure ClientHello where
  clientHash : Hash
  signature : Bytes
  deriving DecidableEq, Repr

inductive ClientResponse
  | goAway
  | welcome (sessionHash sessionKey : Bytes)
  deriving DecidableEq, Repr

structure HttpSession where
  clientHash : Hash
  sessionHash : Hash
  sessionKey : Bytes
  deriving DecidableEq, Repr

structure Moment where
  microseconds : Fin 8 → UInt8
  randomNumber : Fin 4 → UInt8

def Moment.bytes (moment : Moment) : Bytes :=
  List.ofFn moment.microseconds ++ List.ofFn moment.randomNumber

/-- The server's account and its cryptography over public keys `K`. `check` is
what the verification of a signature answers, `none` when it throws. -/
structure Crypto (K : Type) where
  accountHash : Hash
  generateHash : Bytes → Hash
  encode : K → Bytes
  check : K → Bytes → Bytes → Option Bool

/-- What a hello finds: the files of the key directory, `none` where loading
throws, the moment, and what `REQUEST_SESSION_KEY` answers. -/
structure Surroundings (K : Type) where
  files : List (Option K)
  moment : Moment
  requestSessionKey : Hash → Option Bytes

variable {K : Type}

namespace Crypto

def sessionHash (crypto : Crypto K) (clientHash : Hash) (moment : Moment) : Hash :=
  crypto.generateHash (clientHash ++ crypto.accountHash ++ moment.bytes)

def publicKeyHash (crypto : Crypto K) (key : K) : Hash := crypto.generateHash (crypto.encode key)

/-- The first key with the client's hash decides. -/
def validateRemoteHash (crypto : Crypto K) (hello : ClientHello) :
    List (Option K) → Except HttpException (Option K)
  | [] => .ok none
  | none :: _ => .error .keyLoader
  | some key :: files =>
    if crypto.publicKeyHash key = hello.clientHash then
      match crypto.check key (crypto.publicKeyHash key) hello.signature with
      | none => .error .signatureVerification
      | some verified => .ok (if verified then some key else none)
    else validateRemoteHash crypto hello files

def Verified (crypto : Crypto K) (files : List (Option K)) (hello : ClientHello) : Prop :=
  ∃ key, some key ∈ files ∧ crypto.publicKeyHash key = hello.clientHash ∧
    crypto.check key hello.clientHash hello.signature = some true

theorem verified_of_validateRemoteHash {crypto : Crypto K} {hello : ClientHello}
    {files : List (Option K)} {key : K}
    (h : crypto.validateRemoteHash hello files = .ok (some key)) :
    crypto.Verified files hello := by
  induction files with
  | nil => simp [validateRemoteHash] at h
  | cons file files ih =>
    cases file with
    | none => simp [validateRemoteHash] at h
    | some candidate =>
      rw [validateRemoteHash] at h
      split at h
      · rename_i hhash
        rw [hhash] at h
        cases hcheck : crypto.check candidate hello.clientHash hello.signature with
        | none => simp [hcheck] at h
        | some verified =>
          cases verified with
          | false => simp [hcheck] at h
          | true => exact ⟨candidate, List.mem_cons_self, hhash, hcheck⟩
      · obtain ⟨found, hmem, hfound⟩ := ih h
        exact ⟨found, List.mem_cons_of_mem _ hmem, hfound⟩

def newSession (crypto : Crypto K) (surroundings : Surroundings K) (clientHash : Hash) :
    Except HttpException HttpSession :=
  let sessionHash := crypto.sessionHash clientHash surroundings.moment
  match surroundings.requestSessionKey sessionHash with
  | none => .error .sessionKey
  | some sessionKey => .ok ⟨clientHash, sessionHash, sessionKey⟩

theorem newSession_eq_ok {crypto : Crypto K} {surroundings : Surroundings K} {clientHash : Hash}
    {session : HttpSession} (h : crypto.newSession surroundings clientHash = .ok session) :
    session.clientHash = clientHash ∧
      session.sessionHash = crypto.sessionHash clientHash surroundings.moment := by
  simp only [newSession] at h
  split at h
  · simp at h
  · obtain rfl := Except.ok.inj h
    exact ⟨rfl, rfl⟩

end Crypto

/-- The pointers of the session map may be null; those of the client map are new sessions. -/
structure HttpSessionManager where
  clientHashMap : OrderedMap Hash HttpSession
  clientSessionMap : OrderedMap Hash (Option HttpSession)

namespace HttpSessionManager

def start : HttpSessionManager := ⟨OrderedMap.empty, OrderedMap.empty⟩

def session (crypto : Crypto K) (surroundings : Surroundings K) (clientHash : Hash)
    (manager : HttpSessionManager) : Except HttpException (HttpSession × HttpSessionManager) :=
  match manager.clientHashMap.lookup clientHash with
  | some session => .ok (session, manager)
  | none =>
    match crypto.newSession surroundings clientHash with
    | .error exception => .error exception
    | .ok session => .ok (session, {
        clientHashMap := manager.clientHashMap.insert session.clientHash session
        clientSessionMap := manager.clientSessionMap.insert session.sessionHash (some session) })

/-- `hello` is what the bytes of the request parse to. -/
def processHello (crypto : Crypto K) (surroundings : Surroundings K) (hello : Option ClientHello)
    (manager : HttpSessionManager) : Except HttpException ClientResponse × HttpSessionManager :=
  match hello with
  | none => (.error (.messageDeserialization
      "Failed to deserialized the Client Hello message."), manager)
  | some clientHello =>
    match crypto.validateRemoteHash clientHello surroundings.files with
    | .error exception => (.error exception, manager)
    | .ok none => (.ok .goAway, manager)
    | .ok (some _) =>
      match manager.session crypto surroundings clientHello.clientHash with
      | .error exception => (.error exception, manager)
      | .ok (session, manager) =>
        (.ok (.welcome session.sessionHash session.sessionKey), manager)

def isValid (manager : HttpSessionManager) (sessionHash : Hash) : Bool :=
  manager.clientSessionMap.contains sessionHash

/-- The subscript leaves a null pointer under a hash it does not know. -/
def getSession (sessionHash : Hash) (manager : HttpSessionManager) :
    Option HttpSession × HttpSessionManager :=
  ((manager.clientSessionMap.lookup sessionHash).getD none,
    { manager with clientSessionMap := manager.clientSessionMap.touch sessionHash none })

inductive Welcomed (crypto : Crypto K) (surroundings : Surroundings K) (manager : HttpSessionManager)
    (clientHash : Hash) : HttpSession → HttpSessionManager → Prop
  | again {session : HttpSession} (h : manager.clientHashMap.lookup clientHash = some session) :
      Welcomed crypto surroundings manager clientHash session manager
  | first {session : HttpSession} (hnone : manager.clientHashMap.lookup clientHash = none)
      (hclient : session.clientHash = clientHash)
      (hhash : session.sessionHash = crypto.sessionHash clientHash surroundings.moment) :
      Welcomed crypto surroundings manager clientHash session {
        clientHashMap := manager.clientHashMap.insert session.clientHash session
        clientSessionMap := manager.clientSessionMap.insert session.sessionHash (some session) }

theorem session_eq_ok {crypto : Crypto K} {surroundings : Surroundings K} {clientHash : Hash}
    {manager manager' : HttpSessionManager} {session : HttpSession}
    (h : manager.session crypto surroundings clientHash = .ok (session, manager')) :
    Welcomed crypto surroundings manager clientHash session manager' := by
  rw [HttpSessionManager.session] at h
  cases hlookup : manager.clientHashMap.lookup clientHash with
  | some found =>
    rw [hlookup] at h
    obtain ⟨rfl, rfl⟩ := Prod.mk.inj (Except.ok.inj h)
    exact .again hlookup
  | none =>
    rw [hlookup] at h
    cases hnew : crypto.newSession surroundings clientHash with
    | error exception => simp [hnew] at h
    | ok created =>
      simp only [hnew] at h
      obtain ⟨rfl, rfl⟩ := Prod.mk.inj (Except.ok.inj h)
      obtain ⟨hclient, hhash⟩ := Crypto.newSession_eq_ok hnew
      exact .first hlookup hclient hhash

/-- A hello changes the maps only when it is welcomed, and then its client is verified. -/
theorem processHello_cases (crypto : Crypto K) (surroundings : Surroundings K)
    (hello : Option ClientHello) (manager : HttpSessionManager) :
    ((manager.processHello crypto surroundings hello).2 = manager ∧
      ∀ sessionHash sessionKey,
        (manager.processHello crypto surroundings hello).1 ≠
          .ok (.welcome sessionHash sessionKey)) ∨
    ∃ clientHello session manager', hello = some clientHello ∧
      crypto.Verified surroundings.files clientHello ∧
      Welcomed crypto surroundings manager clientHello.clientHash session manager' ∧
      manager.processHello crypto surroundings hello =
        (.ok (.welcome session.sessionHash session.sessionKey), manager') := by
  cases hello with
  | none => exact Or.inl ⟨rfl, fun _ _ => by simp [processHello]⟩
  | some clientHello =>
    simp only [processHello]
    cases hvalidate : crypto.validateRemoteHash clientHello surroundings.files with
    | error exception => exact Or.inl ⟨rfl, fun _ _ => by simp⟩
    | ok verified =>
      cases verified with
      | none => exact Or.inl ⟨rfl, fun _ _ => by simp⟩
      | some key =>
        cases hsession : manager.session crypto surroundings clientHello.clientHash with
        | error exception => exact Or.inl ⟨rfl, fun _ _ => by simp⟩
        | ok found =>
          obtain ⟨session, manager'⟩ := found
          exact Or.inr ⟨clientHello, session, manager', rfl,
            Crypto.verified_of_validateRemoteHash hvalidate, session_eq_ok hsession, rfl⟩

end HttpSessionManager

end Keto.Http
