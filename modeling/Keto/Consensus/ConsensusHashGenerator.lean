import Keto.Library.Runs
import Keto.Protocol

/-!
The script of a session. A module carries encrypted scripts; a session key selects
the first that it decrypts to a script of the recorded hash. The session key is
stored before the search, and is the new one also when no script is found.
-/
namespace Keto.Consensus.ConsensusHashGenerator

open Protocol Library.Runs

structure ConsensusHashScriptInfo where
  hash : Bytes
  encodedKey : Bytes
  code : Bytes
  deriving DecidableEq, Repr

/-- The loading of a private key and the decryption with it, which may throw, the
hash function, and what is read behind the end of a key that is too short. -/
structure KeyTools (PrivateKey : Type) where
  loadKey : Bytes → Option PrivateKey
  decrypt : PrivateKey → Bytes → Option Bytes
  generateHash : Bytes → Bytes
  behind : ℕ → UInt8

/-- The generator and, set to the empty bytes while there is no session, its session. -/
structure Generator where
  consensusVector : List ConsensusHashScriptInfo
  sessionKey : Bytes
  encodedKey : Bytes
  sessionScript : Bytes
  deriving DecidableEq, Repr

def initInstance (consensusVector : List ConsensusHashScriptInfo) : Generator :=
  ⟨consensusVector, [], [], []⟩

variable {PrivateKey : Type} (tools : KeyTools PrivateKey)

def getDerivedKey (secret encodedKey : Bytes) : Bytes :=
  encodedKey.mapIdx fun index byte => byte ^^^ (secret[index]?).getD (tools.behind index)

def contentDecryptor (secret encodedKey encryptedContent : Bytes) : Option Bytes := do
  let privateKey ← tools.loadKey (getDerivedKey tools secret encodedKey)
  tools.decrypt privateKey encryptedContent

/-- The body of the search: the content, when it is decrypted and of the recorded
hash. What is thrown is ignored. -/
def decryptScript (sessionKey : Bytes) (script : ConsensusHashScriptInfo) : Option Bytes := do
  let content ← contentDecryptor tools sessionKey script.encodedKey script.code
  if tools.generateHash content = script.hash then some content else none

def searchScript (sessionKey : Bytes) : List ConsensusHashScriptInfo → Generator → Generator
  | [], generator => generator
  | script :: rest, generator =>
    match decryptScript tools sessionKey script with
    | some content =>
      { generator with sessionScript := content, encodedKey := script.encodedKey }
    | none => searchScript sessionKey rest generator

def setSession (sessionKey : Bytes) (generator : Generator) : Generator :=
  searchScript tools sessionKey generator.consensusVector
    { generator with sessionKey := sessionKey }

structure BelongsTo (generator : Generator) (script : ConsensusHashScriptInfo) : Prop where
  mem : script ∈ generator.consensusVector
  decrypts : decryptScript tools generator.sessionKey script = some generator.sessionScript
  encodedKey : generator.encodedKey = script.encodedKey

def Consistent (generator : Generator) : Prop :=
  generator = initInstance generator.consensusVector ∨
    ∃ script, BelongsTo tools generator script

def Matches (sessionKey : Bytes) (generator : Generator) : Prop :=
  ∃ script ∈ generator.consensusVector, decryptScript tools sessionKey script ≠ none

/-- The session is consistent, and the previous one if the key matches no entry. -/
def Selects (sessionKey : Bytes) (generator : Generator) : Prop :=
  Consistent tools (setSession tools sessionKey generator) ∧
    (¬ Matches tools sessionKey generator → setSession tools sessionKey generator = generator)

def MatchesOrHeld (sessionKey : Bytes) (generator : Generator) : Prop :=
  Matches tools sessionKey generator ∨ sessionKey = generator.sessionKey

theorem searchScript_cases (sessionKey : Bytes) (scripts : List ConsensusHashScriptInfo)
    (generator : Generator) :
    (∃ script ∈ scripts, ∃ content, decryptScript tools sessionKey script = some content ∧
      searchScript tools sessionKey scripts generator =
        { generator with sessionScript := content, encodedKey := script.encodedKey }) ∨
    (∀ script ∈ scripts, decryptScript tools sessionKey script = none) ∧
      searchScript tools sessionKey scripts generator = generator := by
  induction scripts with
  | nil => exact Or.inr ⟨fun _ h => absurd h List.not_mem_nil, rfl⟩
  | cons script rest ih =>
    rw [searchScript]
    cases hscript : decryptScript tools sessionKey script with
    | some content => exact Or.inl ⟨script, List.mem_cons_self, content, hscript, rfl⟩
    | none =>
      rcases ih with ⟨found, hmem, hfound⟩ | ⟨hnone, hkept⟩
      · exact Or.inl ⟨found, List.mem_cons_of_mem _ hmem, hfound⟩
      · exact Or.inr ⟨List.forall_mem_cons.mpr ⟨hscript, hnone⟩, hkept⟩

/-- A key that matches starts a session of one entry. -/
theorem setSession_of_matches {sessionKey : Bytes} {generator : Generator}
    (h : Matches tools sessionKey generator) :
    ∃ script, BelongsTo tools (setSession tools sessionKey generator) script := by
  rcases searchScript_cases tools sessionKey generator.consensusVector
    { generator with sessionKey := sessionKey } with
    ⟨script, hmem, content, hcontent, hset⟩ | ⟨hnone, _⟩
  · refine ⟨script, ?_⟩
    rw [setSession, hset]
    exact ⟨hmem, hcontent, rfl⟩
  · obtain ⟨script, hmem, hfound⟩ := h
    exact absurd (hnone script hmem) hfound

/-- A key that does not match is stored, and nothing else is. -/
theorem setSession_of_not_matches {sessionKey : Bytes} {generator : Generator}
    (h : ¬ Matches tools sessionKey generator) :
    setSession tools sessionKey generator = { generator with sessionKey := sessionKey } := by
  rcases searchScript_cases tools sessionKey generator.consensusVector
    { generator with sessionKey := sessionKey } with
    ⟨script, hmem, content, hcontent, _⟩ | ⟨_, hkept⟩
  · refine absurd ⟨script, hmem, ?_⟩ h
    rw [hcontent]
    exact Option.some_ne_none content
  · exact hkept

theorem setSession_held {generator : Generator}
    (h : ¬ Matches tools generator.sessionKey generator) :
    setSession tools generator.sessionKey generator = generator :=
  setSession_of_not_matches tools h

/-- In a consistent session the next key selects one exactly when it matches an
entry or is the key that the session has. -/
theorem selects_iff {sessionKey : Bytes} {generator : Generator}
    (hinv : Consistent tools generator) :
    Selects tools sessionKey generator ↔ MatchesOrHeld tools sessionKey generator := by
  by_cases hmatch : Matches tools sessionKey generator
  · refine iff_of_true ?_ (Or.inl hmatch)
    exact ⟨Or.inr (setSession_of_matches tools hmatch), fun h => absurd hmatch h⟩
  · constructor
    · intro ⟨_, hkept⟩
      have hkey := (setSession_of_not_matches tools hmatch).symm.trans (hkept hmatch)
      exact Or.inr (congrArg Generator.sessionKey hkey)
    · intro hcond
      obtain rfl := hcond.resolve_left hmatch
      have hkept := setSession_held tools hmatch
      exact ⟨hkept.symm ▸ hinv, fun _ => hkept⟩

theorem consistent_initInstance (consensusVector : List ConsensusHashScriptInfo) :
    Consistent tools (initInstance consensusVector) := Or.inl rfl

/-- Over every sequence of keys the sessions are consistent, and kept by keys that
match nothing, exactly when each key matches an entry or is held already. -/
theorem sessions_select_iff (consensusVector : List ConsensusHashScriptInfo)
    (sessionKeys : List Bytes) :
    Along (setSession tools) (Selects tools) (initInstance consensusVector) sessionKeys ↔
      Along (setSession tools) (MatchesOrHeld tools) (initInstance consensusVector)
        sessionKeys := by
  refine @along_iff_of_invariant _ _ (setSession tools) (Consistent tools) (fun _ _ => True)
    (MatchesOrHeld tools) (Selects tools) ?_ ?_ _ (consistent_initInstance tools consensusVector)
    _ (along_true (setSession tools) _ sessionKeys)
  · intro sessionKey generator hinv _ hcond
    exact ((selects_iff tools hinv).mpr hcond).1
  · intro sessionKey generator hinv _
    exact selects_iff tools hinv

def plainTools : KeyTools Bytes where
  loadKey := some
  decrypt privateKey content :=
    if privateKey <+: content then some (content.drop privateKey.length) else none
  generateHash := id
  behind _ := 0

def oneScript : List ConsensusHashScriptInfo := [⟨[7], [4], [1, 7]⟩]

/-- After the key `5` the key `6` is held beside the script and the encoded key of
the entry that only `5` decrypts. -/
theorem unmatched_key_mixed :
    run (setSession plainTools) (initInstance oneScript) [[5], [6]] = ⟨oneScript, [6], [4], [7]⟩ ∧
      ¬ Consistent plainTools ⟨oneScript, [6], [4], [7]⟩ ∧
      ¬ Along (setSession plainTools) (Selects plainTools) (initInstance oneScript)
        [[5], [6]] := by
  have hrun : run (setSession plainTools) (initInstance oneScript) [[5], [6]] =
      ⟨oneScript, [6], [4], [7]⟩ := by decide +kernel
  have hmixed : ¬ Consistent plainTools ⟨oneScript, [6], [4], [7]⟩ := by
    intro hconsistent
    rcases hconsistent with hinit | ⟨script, hmem, hdecrypts, _⟩
    · exact absurd hinit (by decide)
    · obtain rfl := List.mem_singleton.mp hmem
      exact absurd hdecrypts (by decide +kernel)
  refine ⟨hrun, hmixed, ?_⟩
  intro hselects
  exact hmixed (hrun ▸ hselects.2.1.1)

structure ChaiScriptSession where
  sessionKey : Bytes
  encodedKey : Bytes
  seed : Bytes
  previousHash : Hash
  deriving DecidableEq, Repr

variable (eval : ChaiScriptSession → Bytes → Option Bytes)

def generateHash (generator : Generator) (seed : Bytes) : Option Bytes :=
  eval ⟨generator.sessionKey, generator.encodedKey, seed, []⟩ generator.sessionScript

def generateSeed (generator : Generator) (previousHash : Hash) : Option Bytes :=
  eval ⟨generator.sessionKey, generator.encodedKey, [], previousHash⟩ generator.sessionScript

end Keto.Consensus.ConsensusHashGenerator
