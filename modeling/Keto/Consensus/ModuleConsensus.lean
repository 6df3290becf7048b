import Keto.Asn1.HashHelper
import Keto.Consensus.ConsensusBuilder
import Keto.Consensus.ConsensusHashGenerator

/-!
How modules answer a request for their hash of a seed. The services of the
modules run the session script on the seed hash of the message; the generator of
the library runs it on the module hash, which the reply then replaces.
-/
namespace Keto.Consensus

open Protocol Asn1

structure ModuleConsensusMessage where
  version : ℕ
  seedHash : Bytes
  moduleHash : Bytes
  deriving DecidableEq, Repr

namespace ModuleConsensusHelper

def copyStringToSecure (str : Bytes) : Bytes := pushBack str []

def copySecureToString (vec : Bytes) : Bytes := pushBack vec []

def new : ModuleConsensusMessage := ⟨protocolVersion, [], []⟩

def setSeedHash (seedHash : Hash) (message : ModuleConsensusMessage) : ModuleConsensusMessage :=
  { message with seedHash := copySecureToString (HashHelper.toSecureVector seedHash) }

def getSeedHash (message : ModuleConsensusMessage) : Hash :=
  HashHelper.ofSecureVector (copyStringToSecure message.seedHash)

def setModuleHash (moduleHash : Bytes) (message : ModuleConsensusMessage) :
    ModuleConsensusMessage :=
  { message with moduleHash := copySecureToString moduleHash }

def getModuleHash (message : ModuleConsensusMessage) : Hash :=
  HashHelper.ofSecureVector (copyStringToSecure message.moduleHash)

def getModuleHash_lock (message : ModuleConsensusMessage) : Bytes :=
  copyStringToSecure message.moduleHash

@[simp] theorem getSeedHash_eq (message : ModuleConsensusMessage) :
    getSeedHash message = message.seedHash := pushBack_nil message.seedHash

@[simp] theorem getModuleHash_eq (message : ModuleConsensusMessage) :
    getModuleHash message = message.moduleHash := pushBack_nil message.moduleHash

@[simp] theorem getModuleHash_lock_eq (message : ModuleConsensusMessage) :
    getModuleHash_lock message = message.moduleHash := pushBack_nil message.moduleHash

@[simp] theorem setModuleHash_eq (moduleHash : Bytes) (message : ModuleConsensusMessage) :
    setModuleHash moduleHash message = { message with moduleHash := moduleHash } := by
  rw [setModuleHash, copySecureToString, pushBack_nil]

@[simp] theorem setSeedHash_eq (seedHash : Hash) (message : ModuleConsensusMessage) :
    setSeedHash seedHash message = { message with seedHash := seedHash } := by
  rw [setSeedHash, copySecureToString, HashHelper.toSecureVector, pushBack_nil]

end ModuleConsensusHelper

open ModuleConsensusHelper ConsensusHashGenerator

section Replies

variable (eval : ChaiScriptSession → Bytes → Option Bytes)

namespace ModuleConsensusGenerator

/-- `generate`: the hash is made of the module hash of the message. -/
def generate (consensusHashGenerator : Generator) (message : ModuleConsensusMessage) :
    Option ModuleConsensusMessage := do
  let moduleHash ← generateHash eval consensusHashGenerator (getModuleHash_lock message)
  return setModuleHash moduleHash message

end ModuleConsensusGenerator

namespace ConsensusService

/-- `generateSoftwareHash`, the same in the services of thirteen modules: the hash
is made of the seed hash of the message. -/
def generateSoftwareHash (consensusHashGenerator : Generator) (message : ModuleConsensusMessage) :
    Option ModuleConsensusMessage := do
  let moduleHash ← generateHash eval consensusHashGenerator
    (HashHelper.toSecureVector (getSeedHash message))
  return setModuleHash moduleHash message

end ConsensusService

/-- The services of the consensus module, which has two generators. -/
structure ConsensusServices where
  seedHashGenerator : Generator
  moduleHashGenerator : Generator

def ConsensusServices.generateSoftwareHash (services : ConsensusServices)
    (message : ModuleConsensusMessage) : Option ModuleConsensusMessage :=
  ConsensusService.generateSoftwareHash eval services.moduleHashGenerator message

def processEvent (consensusServices : ConsensusServices)
    (consensusHashGenerators : ConsensusEvent → Generator) (moduleEvent : ConsensusEvent)
    (message : ModuleConsensusMessage) : Option ModuleConsensusMessage :=
  match moduleEvent with
  | .consensusQuery => ConsensusServices.generateSoftwareHash eval consensusServices message
  | moduleEvent =>
    ConsensusService.generateSoftwareHash eval (consensusHashGenerators moduleEvent) message

/-- What the consensus builder sees of the modules: the module hashes of the replies
to a request with the seed. -/
def askModules (consensusServices : ConsensusServices)
    (consensusHashGenerators : ConsensusEvent → Generator) : Modules :=
  fun moduleEvent seed =>
    (processEvent eval consensusServices consensusHashGenerators moduleEvent
      (setSeedHash seed ModuleConsensusHelper.new)).map getModuleHash

theorem generate_eq (generator : Generator) (message : ModuleConsensusMessage) :
    ModuleConsensusGenerator.generate eval generator message =
      (generateHash eval generator message.moduleHash).map
        fun moduleHash => { message with moduleHash := moduleHash } := by
  rw [ModuleConsensusGenerator.generate, getModuleHash_lock_eq]
  cases generateHash eval generator message.moduleHash with
  | none => rfl
  | some moduleHash => exact congrArg some (setModuleHash_eq moduleHash message)

theorem generateSoftwareHash_eq (generator : Generator) (message : ModuleConsensusMessage) :
    ConsensusService.generateSoftwareHash eval generator message =
      (generateHash eval generator message.seedHash).map
        fun moduleHash => { message with moduleHash := moduleHash } := by
  rw [ConsensusService.generateSoftwareHash, getSeedHash_eq, HashHelper.toSecureVector]
  cases generateHash eval generator message.seedHash with
  | none => rfl
  | some moduleHash => exact congrArg some (setModuleHash_eq moduleHash message)

/-- Every module is asked for its script hash of the seed. -/
theorem askModules_eq (consensusServices : ConsensusServices)
    (consensusHashGenerators : ConsensusEvent → Generator) (moduleEvent : ConsensusEvent)
    (seed : Hash) :
    askModules eval consensusServices consensusHashGenerators moduleEvent seed =
      generateHash eval (if moduleEvent = .consensusQuery then
        consensusServices.moduleHashGenerator else consensusHashGenerators moduleEvent) seed := by
  have hreply : ∀ generator,
      (ConsensusService.generateSoftwareHash eval generator
        (setSeedHash seed ModuleConsensusHelper.new)).map getModuleHash =
        generateHash eval generator seed := by
    intro generator
    rw [generateSoftwareHash_eq, setSeedHash_eq, Option.map_map]
    have hhash : (getModuleHash ∘ fun moduleHash : Bytes =>
        ({ ModuleConsensusHelper.new with seedHash := seed, moduleHash := moduleHash } :
          ModuleConsensusMessage)) = id := funext fun moduleHash => getModuleHash_eq _
    rw [hhash, Option.map_id_apply]
  cases moduleEvent with
  | consensusQuery => exact hreply _
  | _ => exact hreply _

/-- The library's generator and the services give the message the same reply. It holds
the script hash of the seed hash, the seed hash, and answers no other seed hash. -/
structure AnswersSeed (consensusServices : ConsensusServices) (message : ModuleConsensusMessage) :
    Prop where
  service : ModuleConsensusGenerator.generate eval consensusServices.moduleHashGenerator message =
    ConsensusService.generateSoftwareHash eval consensusServices.moduleHashGenerator message
  services : ModuleConsensusGenerator.generate eval consensusServices.moduleHashGenerator message =
    ConsensusServices.generateSoftwareHash eval consensusServices message
  hash : ∀ reply,
    ModuleConsensusGenerator.generate eval consensusServices.moduleHashGenerator message =
      some reply →
    generateHash eval consensusServices.moduleHashGenerator message.seedHash =
      some reply.moduleHash ∧ reply.seedHash = message.seedHash
  replay : ∀ reply seedHash,
    ModuleConsensusGenerator.generate eval consensusServices.moduleHashGenerator message =
      some reply →
    generateHash eval consensusServices.moduleHashGenerator seedHash = some reply.moduleHash →
    seedHash = message.seedHash

def HashesSeed (generator : Generator) (message : ModuleConsensusMessage) : Prop :=
  message.moduleHash = message.seedHash ∨
    generateHash eval generator message.moduleHash = none ∧
      generateHash eval generator message.seedHash = none

def InjectiveInSeed (generator : Generator) : Prop :=
  ∀ seed seed' moduleHash, generateHash eval generator seed = some moduleHash →
    generateHash eval generator seed' = some moduleHash → seed = seed'

theorem hashesSeed_iff {generator : Generator} (hinj : InjectiveInSeed eval generator)
    (message : ModuleConsensusMessage) :
    HashesSeed eval generator message ↔
      generateHash eval generator message.moduleHash =
        generateHash eval generator message.seedHash := by
  constructor
  · intro h
    rcases h with hsame | ⟨hmodule, hseed⟩
    · rw [hsame]
    · rw [hmodule, hseed]
  · intro h
    cases hseed : generateHash eval generator message.seedHash with
    | none => exact Or.inr ⟨h.trans hseed, hseed⟩
    | some moduleHash => exact Or.inl (hinj _ _ moduleHash (h.trans hseed) hseed)

/-- A message is answered as its seed asks exactly when the module hash that it comes
with is the seed hash, or the script throws on both. -/
theorem answersSeed_iff (consensusServices : ConsensusServices)
    (hinj : InjectiveInSeed eval consensusServices.moduleHashGenerator)
    (message : ModuleConsensusMessage) :
    AnswersSeed eval consensusServices message ↔
      HashesSeed eval consensusServices.moduleHashGenerator message := by
  rw [hashesSeed_iff eval hinj]
  constructor
  · intro hanswers
    have hreplies := hanswers.service
    rw [generate_eq, generateSoftwareHash_eq] at hreplies
    refine Option.map_injective ?_ hreplies
    intro moduleHash other h
    exact congrArg ModuleConsensusMessage.moduleHash h
  · intro hsame
    have hreplies : ModuleConsensusGenerator.generate eval
        consensusServices.moduleHashGenerator message =
        ConsensusService.generateSoftwareHash eval consensusServices.moduleHashGenerator message := by
      rw [generate_eq, generateSoftwareHash_eq, hsame]
    have hhash : ∀ reply, ModuleConsensusGenerator.generate eval
        consensusServices.moduleHashGenerator message = some reply →
        generateHash eval consensusServices.moduleHashGenerator message.seedHash =
          some reply.moduleHash ∧ reply.seedHash = message.seedHash := by
      intro reply hreply
      rw [generate_eq, hsame] at hreply
      obtain ⟨moduleHash, hmodule, rfl⟩ := Option.map_eq_some_iff.mp hreply
      exact ⟨hmodule, rfl⟩
    refine ⟨hreplies, hreplies, hhash, ?_⟩
    intro reply seedHash hreply hother
    exact hinj seedHash message.seedHash reply.moduleHash hother (hhash reply hreply).1

end Replies

def seedScript (session : ChaiScriptSession) (_code : Bytes) : Option Bytes := some session.seed

def seedServices : ConsensusServices := ⟨initInstance [], initInstance []⟩

theorem seedScript_injective : InjectiveInSeed seedScript seedServices.moduleHashGenerator := by
  intro seed seed' moduleHash h h'
  exact Option.some.inj (h.trans h'.symm)

theorem answersSeed_seedScript :
    AnswersSeed seedScript seedServices ⟨1, [5], [5]⟩ ↔
      HashesSeed seedScript seedServices.moduleHashGenerator ⟨1, [5], [5]⟩ :=
  answersSeed_iff seedScript seedServices seedScript_injective ⟨1, [5], [5]⟩

/-- The request that the consensus builder sends for the seed `5` has no module hash;
the library's generator hashes the empty bytes and the services hash the seed. -/
theorem request_hashed_without_seed :
    ModuleConsensusGenerator.generate seedScript seedServices.moduleHashGenerator
        (setSeedHash [5] ModuleConsensusHelper.new) = some ⟨1, [5], []⟩ ∧
      ConsensusService.generateSoftwareHash seedScript seedServices.moduleHashGenerator
        (setSeedHash [5] ModuleConsensusHelper.new) = some ⟨1, [5], [5]⟩ ∧
      ¬ AnswersSeed seedScript seedServices (setSeedHash [5] ModuleConsensusHelper.new) := by
  refine ⟨rfl, rfl, ?_⟩
  intro hanswers
  exact absurd hanswers.service (by decide)

end Keto.Consensus
