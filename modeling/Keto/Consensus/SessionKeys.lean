import Keto.Consensus.ModuleConsensus
import Mathlib.Logic.Function.Basic

/-!
The session key of a node. It is given to every module by an event of its own, and a
module that is not running is passed over. A key that opens a script in each running
module leaves nothing behind of the keys before it: nodes with the same software that
were last given the same key answer every seed alike, whatever they were given before.
-/
namespace Keto.Consensus

open Protocol Library ConsensusHashGenerator

/-- `Constants::CONSENSUS_SESSION_ORDER`, which names the modules of `EVENT_ORDER`. -/
def consensusSessionOrder : List ConsensusEvent :=
  [.test, .transaction, .router, .httpd, .event, .block, .sandbox, .version, .keystore, .balancer,
    .account, .rpcClient, .rpcServer, .consensusQuery]

/-- The generators of the modules, those of the consensus module, and the secret that
the RPC server sends to its clients. -/
structure ModuleSessions where
  running : ConsensusEvent → Bool
  generators : ConsensusEvent → Generator
  services : ConsensusServices
  secret : Bytes

namespace ModuleSessions

variable {PrivateKey : Type} (tools : KeyTools PrivateKey)

/-- `ConsensusService::setModuleSession`, the same in thirteen modules. -/
def setGenerator (sessionKey : Bytes) (moduleEvent : ConsensusEvent) (s : ModuleSessions) :
    ModuleSessions :=
  let session := setSession tools sessionKey (s.generators moduleEvent)
  { s with generators := Function.update s.generators moduleEvent session }

/-- The consensus module has two generators, and the RPC server a secret besides. -/
def setModuleSession (sessionKey : Bytes) (moduleEvent : ConsensusEvent) (s : ModuleSessions) :
    ModuleSessions :=
  match moduleEvent with
  | .consensusQuery =>
    { s with
      services :=
        ⟨setSession tools sessionKey s.services.seedHashGenerator,
          setSession tools sessionKey s.services.moduleHashGenerator⟩ }
  | .rpcServer => { setGenerator tools sessionKey .rpcServer s with secret := sessionKey }
  | moduleEvent => setGenerator tools sessionKey moduleEvent s

/-- The exception of an event that no module has registered is caught. -/
def triggerEvent (sessionKey : Bytes) (s : ModuleSessions) (moduleEvent : ConsensusEvent) :
    ModuleSessions :=
  if s.running moduleEvent then setModuleSession tools sessionKey moduleEvent s else s

def updateSessionKey (sessionKey : Bytes) (s : ModuleSessions) : ModuleSessions :=
  consensusSessionOrder.foldl (triggerEvent tools sessionKey) s

def generator (s : ModuleSessions) (moduleEvent : ConsensusEvent) : Generator :=
  if moduleEvent = .consensusQuery then s.services.moduleHashGenerator
  else s.generators moduleEvent

def respond (eval : ConsensusEvent → ChaiScriptSession → Bytes → Option Bytes)
    (s : ModuleSessions) : Modules := fun moduleEvent seed =>
  if s.running moduleEvent then
    askModules (eval moduleEvent) s.services s.generators moduleEvent seed
  else none

def seedOf (eval : ConsensusEvent → ChaiScriptSession → Bytes → Option Bytes)
    (s : ModuleSessions) (previousHash : Hash) : Option Hash :=
  generateSeed (eval .consensusQuery) s.services.seedHashGenerator previousHash

/-- What only one element of a list changes is changed once, if it is listed once. -/
theorem foldl_view {σ α β : Type} {f : σ → α → σ} {view : σ → β} {a : α} {change : β → β}
    (hself : ∀ s, view (f s a) = change (view s)) (hother : ∀ s b, b ≠ a → view (f s b) = view s)
    {l : List α} (hnodup : l.Nodup) (hmem : a ∈ l) (s : σ) :
    view (l.foldl f s) = change (view s) := by
  have hkept : ∀ (l : List α) s, a ∉ l → view (l.foldl f s) = view s := by
    intro l
    induction l with
    | nil => exact fun s _ => rfl
    | cons b l ih =>
      intro s hnot
      rw [List.mem_cons, not_or] at hnot
      rw [List.foldl_cons, ih _ hnot.2, hother s b (Ne.symm hnot.1)]
  induction l generalizing s with
  | nil => exact absurd hmem List.not_mem_nil
  | cons b l ih =>
    obtain ⟨hnot, hrest⟩ := List.nodup_cons.mp hnodup
    rw [List.foldl_cons]
    rcases List.mem_cons.mp hmem with rfl | hmem
    · rw [hkept l _ hnot, hself]
    · have hne : b ≠ a := fun heq => hnot (heq ▸ hmem)
      rw [ih hrest hmem, hother s b hne]

section Update

variable (sessionKey : Bytes) (s : ModuleSessions)

theorem running_triggerEvent (moduleEvent : ConsensusEvent) :
    (triggerEvent tools sessionKey s moduleEvent).running = s.running := by
  rw [triggerEvent]
  split
  · cases moduleEvent <;> rfl
  · rfl

theorem generator_triggerEvent (moduleEvent other : ConsensusEvent) :
    (triggerEvent tools sessionKey s moduleEvent).generator other =
      if other = moduleEvent ∧ s.running moduleEvent then
        setSession tools sessionKey (s.generator other)
      else s.generator other := by
  rw [triggerEvent]
  by_cases hrunning : s.running moduleEvent = true
  · rw [if_pos hrunning]
    cases moduleEvent <;> cases other <;>
      simp [setModuleSession, setGenerator, generator, hrunning]
  · rw [if_neg hrunning]
    simp [hrunning]

theorem secret_triggerEvent (moduleEvent : ConsensusEvent) :
    (triggerEvent tools sessionKey s moduleEvent).secret =
      if moduleEvent = .rpcServer ∧ s.running moduleEvent then sessionKey else s.secret := by
  rw [triggerEvent]
  by_cases hrunning : s.running moduleEvent = true
  · rw [if_pos hrunning]
    cases moduleEvent <;> simp [setModuleSession, setGenerator, hrunning]
  · rw [if_neg hrunning]
    simp [hrunning]

theorem seedHashGenerator_triggerEvent (moduleEvent : ConsensusEvent) :
    (triggerEvent tools sessionKey s moduleEvent).services.seedHashGenerator =
      if moduleEvent = .consensusQuery ∧ s.running moduleEvent then
        setSession tools sessionKey s.services.seedHashGenerator
      else s.services.seedHashGenerator := by
  rw [triggerEvent]
  by_cases hrunning : s.running moduleEvent = true
  · rw [if_pos hrunning]
    cases moduleEvent <;> simp [setModuleSession, setGenerator, hrunning]
  · rw [if_neg hrunning]
    simp [hrunning]

theorem running_updateSessionKey : (updateSessionKey tools sessionKey s).running = s.running := by
  have hview := @foldl_view _ _ _ (triggerEvent tools sessionKey) running .test id
    (fun s => running_triggerEvent tools sessionKey s .test)
    (fun s other _ => running_triggerEvent tools sessionKey s other)
    consensusSessionOrder (by decide) (by decide) s
  exact hview

/-- Every running module is given the key once. -/
theorem generator_updateSessionKey (moduleEvent : ConsensusEvent) :
    (updateSessionKey tools sessionKey s).generator moduleEvent =
      if s.running moduleEvent then setSession tools sessionKey (s.generator moduleEvent)
      else s.generator moduleEvent := by
  have hview := @foldl_view _ _ _ (triggerEvent tools sessionKey)
    (fun s => (s.running moduleEvent, s.generator moduleEvent)) moduleEvent
    (fun v => (v.1, if v.1 then setSession tools sessionKey v.2 else v.2)) ?_ ?_
    consensusSessionOrder (by decide) (by cases moduleEvent <;> decide) s
  · exact congrArg Prod.snd hview
  · intro s
    simp [running_triggerEvent, generator_triggerEvent]
  · intro s other hne
    simp [running_triggerEvent, generator_triggerEvent, Ne.symm hne]

theorem seedHashGenerator_updateSessionKey :
    (updateSessionKey tools sessionKey s).services.seedHashGenerator =
      if s.running .consensusQuery then setSession tools sessionKey s.services.seedHashGenerator
      else s.services.seedHashGenerator := by
  have hview := @foldl_view _ _ _ (triggerEvent tools sessionKey)
    (fun s => (s.running .consensusQuery, s.services.seedHashGenerator)) .consensusQuery
    (fun v => (v.1, if v.1 then setSession tools sessionKey v.2 else v.2)) ?_ ?_
    consensusSessionOrder (by decide) (by decide) s
  · exact congrArg Prod.snd hview
  · intro s
    simp [running_triggerEvent, seedHashGenerator_triggerEvent]
  · intro s other hne
    simp [running_triggerEvent, seedHashGenerator_triggerEvent, hne]

theorem secret_updateSessionKey (hserving : s.running .rpcServer = true) :
    (updateSessionKey tools sessionKey s).secret = sessionKey := by
  have hview := @foldl_view _ _ _ (triggerEvent tools sessionKey)
    (fun s => (s.running .rpcServer, s.secret)) .rpcServer
    (fun v => (v.1, if v.1 then sessionKey else v.2)) ?_ ?_
    consensusSessionOrder (by decide) (by decide) s
  · rw [hserving] at hview
    exact congrArg Prod.snd hview
  · intro s
    simp [running_triggerEvent, secret_triggerEvent]
  · intro s other hne
    simp [running_triggerEvent, secret_triggerEvent, hne]

end Update

section SameSoftware

structure SameSoftware (s t : ModuleSessions) : Prop where
  running : s.running = t.running
  scripts : ∀ moduleEvent,
    (s.generator moduleEvent).consensusVector = (t.generator moduleEvent).consensusVector
  seedScripts : s.services.seedHashGenerator.consensusVector =
    t.services.seedHashGenerator.consensusVector

theorem SameSoftware.trans {s t u : ModuleSessions} (h : SameSoftware s t)
    (h' : SameSoftware t u) : SameSoftware s u :=
  ⟨h.running.trans h'.running, fun moduleEvent => (h.scripts moduleEvent).trans
    (h'.scripts moduleEvent), h.seedScripts.trans h'.seedScripts⟩

theorem SameSoftware.symm {s t : ModuleSessions} (h : SameSoftware s t) : SameSoftware t s :=
  ⟨h.running.symm, fun moduleEvent => (h.scripts moduleEvent).symm, h.seedScripts.symm⟩

structure Opens (sessionKey : Bytes) (s : ModuleSessions) : Prop where
  modules : ∀ moduleEvent, s.running moduleEvent = true →
    Matches tools sessionKey (s.generator moduleEvent)
  seed : s.running .consensusQuery = true →
    Matches tools sessionKey s.services.seedHashGenerator

variable {tools}

theorem setSession_consensusVector (sessionKey : Bytes) (generator : Generator) :
    (setSession tools sessionKey generator).consensusVector = generator.consensusVector := by
  rcases searchScript_cases tools sessionKey generator.consensusVector
    { generator with sessionKey := sessionKey } with ⟨_, _, _, _, hset⟩ | ⟨_, hset⟩
  · rw [setSession, hset]
  · rw [setSession, hset]

theorem SameSoftware.updateSessionKey (sessionKey : Bytes) (s : ModuleSessions) :
    SameSoftware s (updateSessionKey tools sessionKey s) := by
  refine ⟨(running_updateSessionKey tools sessionKey s).symm, ?_, ?_⟩
  · intro moduleEvent
    rw [generator_updateSessionKey]
    split
    · rw [setSession_consensusVector]
    · rfl
  · rw [seedHashGenerator_updateSessionKey]
    split
    · rw [setSession_consensusVector]
    · rfl

theorem SameSoftware.run (sessionKeys : List Bytes) (s : ModuleSessions) :
    SameSoftware s (Runs.run (ModuleSessions.updateSessionKey tools) s sessionKeys) := by
  induction sessionKeys generalizing s with
  | nil => exact ⟨rfl, fun _ => rfl, rfl⟩
  | cons sessionKey sessionKeys ih =>
    exact (SameSoftware.updateSessionKey sessionKey s).trans (ih _)

/-- The script that is found does not depend on the generator. -/
theorem searchScript_found {sessionKey : Bytes} {scripts : List ConsensusHashScriptInfo}
    (h : ∃ script ∈ scripts, decryptScript tools sessionKey script ≠ none) :
    ∃ content encodedKey, ∀ generator, searchScript tools sessionKey scripts generator =
      { generator with sessionScript := content, encodedKey := encodedKey } := by
  induction scripts with
  | nil =>
    obtain ⟨script, hmem, _⟩ := h
    exact absurd hmem List.not_mem_nil
  | cons script rest ih =>
    cases hscript : decryptScript tools sessionKey script with
    | some content =>
      refine ⟨content, script.encodedKey, fun generator => ?_⟩
      rw [searchScript, hscript]
    | none =>
      obtain ⟨found, hmem, hfound⟩ := h
      have hrest : found ∈ rest := (List.mem_cons.mp hmem).resolve_left
        fun heq => hfound (heq ▸ hscript)
      obtain ⟨content, encodedKey, hsearch⟩ := ih ⟨found, hrest, hfound⟩
      refine ⟨content, encodedKey, fun generator => ?_⟩
      rw [searchScript, hscript]
      exact hsearch generator

/-- Where the key opens a script, all that was there before is replaced. -/
theorem setSession_congr {sessionKey : Bytes} {g g' : Generator}
    (hscripts : g.consensusVector = g'.consensusVector) (h : Matches tools sessionKey g) :
    setSession tools sessionKey g = setSession tools sessionKey g' := by
  obtain ⟨content, encodedKey, hsearch⟩ := searchScript_found h
  have hsearch' := hscripts ▸ hsearch
  rw [setSession, setSession, hsearch, hsearch']
  simp [hscripts]

theorem Opens.congr {sessionKey : Bytes} {s t : ModuleSessions} (h : Opens tools sessionKey s)
    (hsame : SameSoftware s t) : Opens tools sessionKey t := by
  refine ⟨?_, ?_⟩
  · intro moduleEvent hrunning
    have hmatches := h.modules moduleEvent (hsame.running ▸ hrunning)
    rwa [Matches, hsame.scripts moduleEvent] at hmatches
  · intro hrunning
    have hmatches := h.seed (hsame.running ▸ hrunning)
    rwa [Matches, hsame.seedScripts] at hmatches

variable {eval : ConsensusEvent → ChaiScriptSession → Bytes → Option Bytes}

theorem respond_eq (s : ModuleSessions) (moduleEvent : ConsensusEvent) (seed : Hash) :
    s.respond eval moduleEvent seed =
      if s.running moduleEvent then generateHash (eval moduleEvent) (s.generator moduleEvent) seed
      else none := by
  rw [respond, askModules_eq]
  rfl

/-- The key that was given last decides what the modules answer. -/
theorem respond_updateSessionKey {sessionKey : Bytes} {s t : ModuleSessions}
    (hsame : SameSoftware s t) (hopens : Opens tools sessionKey s) :
    respond eval (ModuleSessions.updateSessionKey tools sessionKey s) =
      respond eval (ModuleSessions.updateSessionKey tools sessionKey t) := by
  funext moduleEvent seed
  simp only [respond_eq, running_updateSessionKey, generator_updateSessionKey, hsame.running]
  by_cases hrunning : t.running moduleEvent = true
  · have hmatches := hopens.modules moduleEvent (hsame.running ▸ hrunning)
    simp only [hrunning, if_true, setSession_congr (hsame.scripts moduleEvent) hmatches]
  · simp only [hrunning]
    rfl

theorem seedOf_updateSessionKey {sessionKey : Bytes} {s t : ModuleSessions}
    (hsame : SameSoftware s t) (hopens : Opens tools sessionKey s)
    (hbuilding : s.running .consensusQuery = true) (previousHash : Hash) :
    (ModuleSessions.updateSessionKey tools sessionKey s).seedOf eval previousHash =
      (ModuleSessions.updateSessionKey tools sessionKey t).seedOf eval previousHash := by
  have hbuilding' : t.running .consensusQuery = true := hsame.running ▸ hbuilding
  simp only [seedOf, seedHashGenerator_updateSessionKey, hbuilding, hbuilding', if_true,
    setSession_congr hsame.seedScripts (hopens.seed hbuilding)]

theorem run_concat (s : ModuleSessions) (sessionKeys : List Bytes) (sessionKey : Bytes) :
    Runs.run (ModuleSessions.updateSessionKey tools) s (sessionKeys ++ [sessionKey]) =
      ModuleSessions.updateSessionKey tools sessionKey
        (Runs.run (ModuleSessions.updateSessionKey tools) s sessionKeys) :=
  Runs.run_append ..

end SameSoftware

end ModuleSessions

end Keto.Consensus
