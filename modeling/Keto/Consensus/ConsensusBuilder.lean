import Keto.Consensus.SoftwareMerkelUtils
import Keto.Library.Fallible
import Mathlib.Data.Multiset.OrderedMonoid
import Mathlib.Algebra.Order.Sub.Basic

/-!
Building and validating a software consensus. Both ask every module for its
hash of the seed and pass over the modules that throw. Validation crosses the
returned hashes off the list of the message, and accepts when nothing is left
of that list; what is left of the returned hashes is not looked at.
-/
namespace Keto.Consensus

open Protocol Library.Fallible

inductive ConsensusEvent
  | test
  | transaction
  | router
  | httpd
  | event
  | block
  | sandbox
  | version
  | keystore
  | balancer
  | account
  | rpcClient
  | rpcServer
  | consensusQuery
  deriving DecidableEq, Repr

def eventOrder : List ConsensusEvent :=
  [.test, .transaction, .router, .httpd, .event, .block, .sandbox, .version, .keystore, .balancer,
    .account, .rpcClient, .rpcServer, .consensusQuery]

/-- The hash that the module of an event returns for a seed, or nothing when it throws. -/
abbrev Modules := ConsensusEvent → Hash → Option Hash

inductive ConsensusException
  | deserialization
  | noSoftwareHashConsensus
  | seed
  deriving DecidableEq, Repr

/-- What the builder uses of the server: its account, the date, the keys it
signs with and the script that makes a seed of the previous hash. -/
structure Server where
  accountHash : Hash
  date : Bytes
  generateHash : Bytes → Hash
  generator : Hash → Bytes
  generateSeed : Hash → Option Hash

def protocolVersion : ℕ := 1

namespace ConsensusMessageHelper

def setMsg (consensus : SoftwareConsensus) (message : ConsensusMessage) : ConsensusMessage :=
  { message with accountHash := consensus.account, msg := some consensus }

def getMsg (message : ConsensusMessage) : Except ConsensusException SoftwareConsensus :=
  match message.msg with
  | some consensus => .ok consensus
  | none => .error .deserialization

end ConsensusMessageHelper

namespace ConsensusBuilder

open SoftwareConsensusHelper

def moduleHashs (modules : Modules) (seed : Hash) : List Hash :=
  eventOrder.filterMap fun moduleEvent => modules moduleEvent seed

def buildConsensus (server : Server) (modules : Modules) (previousHash : Hash) :
    Except ConsensusException ConsensusMessage :=
  match server.generateSeed previousHash with
  | none => .error .seed
  | some seed =>
    let consensus : SoftwareConsensus := {
      version := protocolVersion
      date := server.date
      previousHash := previousHash
      account := server.accountHash
      seed := seed
      systemHashs := moduleHashs modules seed
      merkelRoot := []
      signature := [] }
    match generateMerkelRoot server.generateHash consensus with
    | none => .error .noSoftwareHashConsensus
    | some rooted =>
      .ok (ConsensusMessageHelper.setMsg (sign server.generator rooted)
        ⟨1, server.accountHash, none⟩)

/-- One event of `validateConsensus`: the first system hash that is the module's
is erased and noted; a module that throws changes nothing. -/
def compareModule (modules : Modules) (seed : Hash) (hashs : List Hash × List Hash)
    (moduleEvent : ConsensusEvent) : List Hash × List Hash :=
  match modules moduleEvent seed with
  | none => hashs
  | some moduleHash =>
    if hashs.1.contains moduleHash then
      (hashs.1.erase moduleHash, hashs.2 ++ [moduleHash])
    else hashs

def compareModules (modules : Modules) (consensus : SoftwareConsensus) : List Hash × List Hash :=
  eventOrder.foldl (compareModule modules consensus.seed) (consensus.systemHashs, [])

def validateConsensus (modules : Modules) (message : ConsensusMessage) :
    Except ConsensusException Bool := do
  let consensus ← ConsensusMessageHelper.getMsg message
  let (systemHashs, _) := compareModules modules consensus
  return systemHashs.isEmpty

def AllAnswer (modules : Modules) (seed : Hash) : Prop :=
  ∀ moduleEvent ∈ eventOrder, modules moduleEvent seed ≠ none

def ModulesAgree (modules : Modules) (consensus : SoftwareConsensus) : Prop :=
  AllAnswer modules consensus.seed ∧
    (consensus.systemHashs : Multiset Hash) = (moduleHashs modules consensus.seed : Multiset Hash)

/-- Exactly the messages whose modules all agree are accepted. -/
def SoundAndComplete (modules : Modules) (message : ConsensusMessage) : Prop :=
  validateConsensus modules message = .ok true ↔
    ∃ consensus, message.msg = some consensus ∧ ModulesAgree modules consensus

def OneForEachModule (modules : Modules) (message : ConsensusMessage) : Prop :=
  ∀ consensus, message.msg = some consensus →
    (consensus.systemHashs : Multiset Hash) ≤ (moduleHashs modules consensus.seed : Multiset Hash) →
    consensus.systemHashs.length = eventOrder.length

theorem compareModule_fst (modules : Modules) (seed : Hash) (hashs : List Hash × List Hash)
    (moduleEvent : ConsensusEvent) :
    (compareModule modules seed hashs moduleEvent).1 =
      hashs.1.diff (modules moduleEvent seed).toList := by
  unfold compareModule
  cases hmodule : modules moduleEvent seed with
  | none => simp
  | some moduleHash =>
    by_cases hmem : moduleHash ∈ hashs.1
    · simp [hmem]
    · simp [hmem, List.erase_of_not_mem hmem]

/-- What is left after the loop: the hashes of the modules are taken away. -/
theorem compareModules_fst (modules : Modules) (consensus : SoftwareConsensus) :
    (compareModules modules consensus).1 =
      consensus.systemHashs.diff (moduleHashs modules consensus.seed) := by
  have hloop : ∀ (events : List ConsensusEvent) (hashs : List Hash × List Hash),
      (events.foldl (compareModule modules consensus.seed) hashs).1 =
        hashs.1.diff (events.filterMap fun moduleEvent => modules moduleEvent consensus.seed) := by
    intro events
    induction events with
    | nil => simp
    | cons moduleEvent events ih =>
      intro hashs
      rw [List.foldl_cons, ih, compareModule_fst]
      cases hmodule : modules moduleEvent consensus.seed with
      | none => simp [hmodule]
      | some moduleHash => simp [hmodule]
  exact hloop eventOrder _

theorem diff_eq_nil_iff (left right : List Hash) :
    left.diff right = [] ↔ (left : Multiset Hash) ≤ (right : Multiset Hash) := by
  have hequality : (instBEqOfDecidableEq : BEq Hash) = List.instBEq :=
    lawful_beq_subsingleton _ _
  have hempty : (left - right : Multiset Hash) = 0 ↔ (left : Multiset Hash) ≤ right :=
    tsub_eq_zero_iff_le
  rw [← hempty, Multiset.coe_sub, hequality, Multiset.coe_eq_zero]

/-- Validation returns true for a message none of whose hashes is left over. -/
theorem validateConsensus_eq_true_iff (modules : Modules) (message : ConsensusMessage) :
    validateConsensus modules message = .ok true ↔
      ∃ consensus, message.msg = some consensus ∧
        (consensus.systemHashs : Multiset Hash) ≤
          (moduleHashs modules consensus.seed : Multiset Hash) := by
  unfold validateConsensus ConsensusMessageHelper.getMsg
  cases hmsg : message.msg with
  | none => simp [bind, Except.bind]
  | some consensus =>
    rw [bind_ok rfl]
    simp only [Option.some.injEq, exists_eq_left', compareModules_fst, ← diff_eq_nil_iff]
    exact ⟨fun h => List.isEmpty_iff.mp (Except.ok.inj h), fun h => by rw [h]; rfl⟩

theorem moduleHashs_length_le (modules : Modules) (seed : Hash) :
    (moduleHashs modules seed).length ≤ eventOrder.length :=
  List.length_filterMap_le ..

/-- All modules answer exactly when there are as many hashes as events. -/
theorem allAnswer_iff (modules : Modules) (seed : Hash) :
    AllAnswer modules seed ↔ (moduleHashs modules seed).length = eventOrder.length := by
  rw [moduleHashs, List.length_filterMap_eq_countP, List.countP_eq_length, AllAnswer]
  simp only [Option.isSome_iff_ne_none]

theorem modulesAgree_iff (modules : Modules) (consensus : SoftwareConsensus) :
    ModulesAgree modules consensus ↔
      (consensus.systemHashs : Multiset Hash) ≤
          (moduleHashs modules consensus.seed : Multiset Hash) ∧
        consensus.systemHashs.length = eventOrder.length := by
  rw [ModulesAgree, allAnswer_iff]
  constructor
  · rintro ⟨hlength, hsame⟩
    refine ⟨hsame.le, ?_⟩
    have hcard := congrArg Multiset.card hsame
    simp only [Multiset.coe_card] at hcard
    exact hcard.trans hlength
  · rintro ⟨hle, hlength⟩
    have hcard := Multiset.card_le_card hle
    have hbound := moduleHashs_length_le modules consensus.seed
    simp only [Multiset.coe_card] at hcard
    refine ⟨by omega, Multiset.eq_of_le_of_card_le hle ?_⟩
    simp only [Multiset.coe_card]
    omega

theorem soundAndComplete_iff (modules : Modules) (message : ConsensusMessage) :
    SoundAndComplete modules message ↔ OneForEachModule modules message := by
  rw [SoundAndComplete, validateConsensus_eq_true_iff, OneForEachModule]
  constructor
  · rintro hexact consensus hmsg hle
    obtain ⟨found, hfound, hagree⟩ := hexact.mp ⟨consensus, hmsg, hle⟩
    obtain rfl := Option.some.inj (hmsg.symm.trans hfound)
    exact ((modulesAgree_iff modules consensus).mp hagree).2
  · intro hcond
    constructor
    · rintro ⟨consensus, hmsg, hle⟩
      have hlength := hcond consensus hmsg hle
      exact ⟨consensus, hmsg, (modulesAgree_iff modules consensus).mpr ⟨hle, hlength⟩⟩
    · rintro ⟨consensus, hmsg, hagree⟩
      exact ⟨consensus, hmsg, ((modulesAgree_iff modules consensus).mp hagree).1⟩

/-- A built message carries the hashes of the modules for its own seed. -/
theorem buildConsensus_eq_ok {server : Server} {modules : Modules} {previousHash : Hash}
    {message : ConsensusMessage} (h : buildConsensus server modules previousHash = .ok message) :
    ∃ consensus, message.msg = some consensus ∧
      consensus.systemHashs = moduleHashs modules consensus.seed := by
  unfold buildConsensus at h
  cases hseed : server.generateSeed previousHash with
  | none => simp [hseed] at h
  | some seed =>
    simp only [hseed] at h
    obtain ⟨rooted, hrooted, hseedKept, hhashs⟩ :=
      generateMerkelRoot_isSome server.generateHash (SoftwareConsensus.mk protocolVersion
        server.date previousHash server.accountHash seed (moduleHashs modules seed) [] [])
    rw [hrooted] at h
    obtain rfl := Except.ok.inj h
    refine ⟨sign server.generator rooted, rfl, ?_⟩
    change rooted.systemHashs = moduleHashs modules rooted.seed
    rw [hhashs, hseedKept]

/-- A message is built whenever there is a seed: the root has leaves of its own. -/
theorem buildConsensus_isOk {server : Server} {previousHash seed : Hash} (modules : Modules)
    (hseed : server.generateSeed previousHash = some seed) :
    ∃ message, buildConsensus server modules previousHash = .ok message := by
  unfold buildConsensus
  simp only [hseed]
  obtain ⟨rooted, hrooted, _⟩ :=
    generateMerkelRoot_isSome server.generateHash (SoftwareConsensus.mk protocolVersion
      server.date previousHash server.accountHash seed (moduleHashs modules seed) [] [])
  rw [hrooted]
  exact ⟨_, rfl⟩

/-- A built message with its hashes in any order is accepted by the same modules. -/
theorem validateConsensus_built {server : Server} {modules : Modules} {previousHash : Hash}
    {built message : ConsensusMessage} {consensus reordered : SoftwareConsensus}
    (hbuilt : buildConsensus server modules previousHash = .ok built)
    (hconsensus : built.msg = some consensus) (hmessage : message.msg = some reordered)
    (hseed : reordered.seed = consensus.seed)
    (horder : reordered.systemHashs.Perm consensus.systemHashs) :
    validateConsensus modules message = .ok true := by
  obtain ⟨found, hfound, hhashs⟩ := buildConsensus_eq_ok hbuilt
  obtain rfl := Option.some.inj (hconsensus.symm.trans hfound)
  rw [validateConsensus_eq_true_iff]
  refine ⟨reordered, hmessage, ?_⟩
  rw [hseed, ← hhashs, Multiset.coe_eq_coe.mpr horder]

/-- Validation is right about a message exactly when, if the modules return all
its hashes, it has as many as there are modules. A built message is accepted
by the modules it was built from, in whatever order it lists their hashes. -/
theorem validation_exact (modules : Modules) :
    (∀ message, SoundAndComplete modules message ↔ OneForEachModule modules message) ∧
    ∀ server previousHash built message consensus reordered,
      buildConsensus server modules previousHash = .ok built → built.msg = some consensus →
      message.msg = some reordered → reordered.seed = consensus.seed →
      reordered.systemHashs.Perm consensus.systemHashs →
      validateConsensus modules message = .ok true := by
  refine ⟨soundAndComplete_iff modules, ?_⟩
  intro server previousHash built message consensus reordered hbuilt hconsensus hmessage
    hseed horder
  exact validateConsensus_built hbuilt hconsensus hmessage hseed horder

def plainServer : Server := ⟨[9], [], id, id, some⟩

theorem built_message_accepted :
    (∀ message, SoundAndComplete (fun _ _ => some [1]) message ↔
      OneForEachModule (fun _ _ => some [1]) message) ∧
    ∃ built, buildConsensus plainServer (fun _ _ => some [1]) [7] = .ok built ∧
      validateConsensus (fun _ _ => some [1]) built = .ok true := by
  obtain ⟨hexact, hbuilt⟩ := validation_exact fun _ _ => some [1]
  obtain ⟨built, hok⟩ := @buildConsensus_isOk plainServer [7] [7] (fun _ _ => some [1]) rfl
  obtain ⟨consensus, hmsg, _⟩ := buildConsensus_eq_ok hok
  exact ⟨hexact, built, hok, hbuilt plainServer [7] built built consensus consensus hok hmsg hmsg
    rfl (List.Perm.refl _)⟩

def emptyMessage : ConsensusMessage where
  version := 1
  accountHash := [9]
  msg := some ⟨1, [], [], [9], [5], [], [], []⟩

/-- It is accepted, also while every module throws. -/
theorem empty_message_accepted :
    validateConsensus (fun _ _ => none) emptyMessage = .ok true ∧
      validateConsensus (fun _ _ => some [1]) emptyMessage = .ok true ∧
      ¬ SoundAndComplete (fun _ _ => none) emptyMessage := by
  refine ⟨rfl, rfl, ?_⟩
  intro hexact
  obtain ⟨consensus, _, hanswer, _⟩ := hexact.mp rfl
  exact hanswer .test (by decide) rfl

end ConsensusBuilder

end Keto.Consensus
