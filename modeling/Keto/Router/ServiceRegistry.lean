import Keto.Library.OrderedMap
import Keto.Library.Runs
import Keto.Router.RouterService
import Mathlib.Data.String.Basic

/-!
The registry of services: which services an account offers, and which accounts
offer a service, each in a map of its own. `registerService` writes both maps;
`registerServices` replaces the services of the account and is to bring the
other map in line with them.
-/
namespace Keto.Router

open Protocol Library
open scoped Library.ByteOrder

structure ServiceRegistry where
  serviceAccountMap : OrderedMap String (OrderedSet Hash)
  accountServiceMap : OrderedMap Hash (OrderedSet String)

namespace ServiceRegistry

def start : ServiceRegistry := ⟨OrderedMap.empty, OrderedMap.empty⟩

section Entries

variable {κ ε : Type} [LinearOrder κ] [LinearOrder ε]

def member (m : OrderedMap κ (OrderedSet ε)) (key : κ) (element : ε) : Bool :=
  (m.lookup key).any fun set => set.contains element

def addTo (m : OrderedMap κ (OrderedSet ε)) (key : κ) (element : ε) : OrderedMap κ (OrderedSet ε) :=
  match m.lookup key with
  | none => m.insert key (OrderedSet.ofList [element])
  | some set => m.insert key (set.add element)

theorem member_insert (m : OrderedMap κ (OrderedSet ε)) (key other : κ) (set : OrderedSet ε)
    (element : ε) :
    member (m.insert key set) other element =
      if other = key then set.contains element else member m other element := by
  rw [member, OrderedMap.lookup_insert]
  by_cases h : other = key
  · rw [if_pos h, if_pos h, Option.any_some]
  · rw [if_neg h, if_neg h, member]

theorem member_addTo (m : OrderedMap κ (OrderedSet ε)) (key other : κ) (element found : ε) :
    member (addTo m key element) other found = true ↔
      (other = key ∧ found = element) ∨ member m other found = true := by
  cases hlookup : m.lookup key with
  | none =>
    have habsent : member m key found = false := by rw [member, hlookup, Option.any_none]
    simp only [addTo, hlookup, member_insert]
    by_cases h : other = key
    · rw [if_pos h, OrderedSet.contains_ofList, List.mem_singleton, h, habsent]
      simp
    · simp [h]
  | some set =>
    have hset : member m key found = set.contains found := by
      rw [member, hlookup, Option.any_some]
    simp only [addTo, hlookup, member_insert]
    by_cases h : other = key
    · rw [if_pos h, OrderedSet.add, OrderedMap.contains_insert, h, hset]
      simp
    · simp [h]

theorem member_touch (m : OrderedMap κ (OrderedSet ε)) (key other : κ) (element : ε) :
    member (m.touch key OrderedMap.empty) other element = member m other element := by
  by_cases hkey : m.contains key = true
  · rw [OrderedMap.touch_of_contains hkey]
  · rw [OrderedMap.touch, if_neg hkey, member_insert]
    by_cases h : other = key
    · have hnone : m.lookup key = none := by
        rw [OrderedMap.contains] at hkey
        simpa using hkey
      rw [if_pos h, h, member, hnone]
      rfl
    · rw [if_neg h]

end Entries

def registerService (accountHash : Hash) (service : String) (registry : ServiceRegistry) :
    ServiceRegistry where
  accountServiceMap := addTo registry.accountServiceMap accountHash service
  serviceAccountMap := addTo registry.serviceAccountMap service accountHash

/-- The positions of the iterators that the loop starts from and ends at: both `begin()`. -/
def loopBegin : ℕ := 0

def loopEnd : ℕ := 0

def updateAccounts (accountHash : Hash) (serviceSet : OrderedSet String) (service : String)
    (accounts : OrderedSet Hash) : OrderedSet Hash :=
  if serviceSet.contains service then accounts.add accountHash
  else accounts.erase accountHash

def registerServices (accountHash : Hash) (services : List String) (registry : ServiceRegistry) :
    ServiceRegistry where
  accountServiceMap := registry.accountServiceMap.insert accountHash (OrderedSet.ofList services)
  serviceAccountMap := registry.serviceAccountMap.mapRange loopBegin loopEnd
    (updateAccounts accountHash (OrderedSet.ofList services))

/-- The services of the account; the subscript adds an unknown account without services. -/
def getServices (accountHash : Hash) (registry : ServiceRegistry) :
    List String × ServiceRegistry :=
  (((registry.accountServiceMap.lookup accountHash).getD OrderedMap.empty).keys,
    { registry with
      accountServiceMap := registry.accountServiceMap.touch accountHash OrderedMap.empty })

def router (registry : ServiceRegistry) : RouterRegistry where
  serviceAccountMap service := (registry.serviceAccountMap.lookup service).map OrderedMap.keys

def getAccount (registry : ServiceRegistry) (service : String) (generator : ℕ) :
    Except RouterException Hash :=
  registry.router.getAccount service generator

def offers (registry : ServiceRegistry) (account : Hash) (service : String) : Bool :=
  member registry.accountServiceMap account service

def registered (registry : ServiceRegistry) (service : String) (account : Hash) : Bool :=
  member registry.serviceAccountMap service account

inductive Call
  | registerService (accountHash : Hash) (service : String)
  | registerServices (accountHash : Hash) (services : List String)
  | getServices (accountHash : Hash)
  | getAccount (service : String) (generator : ℕ)

def step (call : Call) (registry : ServiceRegistry) : ServiceRegistry :=
  match call with
  | .registerService accountHash service => registerService accountHash service registry
  | .registerServices accountHash services => registerServices accountHash services registry
  | .getServices accountHash => (getServices accountHash registry).2
  | .getAccount _ _ => registry

def Agree (registry : ServiceRegistry) : Prop :=
  ∀ account service,
    registry.offers account service = true ↔ registry.registered service account = true

/-- `getAccount` names only accounts that offer the service, and one whenever there is one. -/
def Serves (registry : ServiceRegistry) : Prop :=
  ∀ service generator,
    (∀ account, registry.getAccount service generator = .ok account →
      registry.offers account service = true) ∧
    ((∃ account, registry.offers account service = true) →
      ∃ account, registry.getAccount service generator = .ok account)

/-- A replacing update names the services that the account offers already. -/
def Unchanged (call : Call) (registry : ServiceRegistry) : Prop :=
  match call with
  | .registerServices accountHash services =>
    ∀ service, service ∈ services ↔ registry.offers accountHash service = true
  | _ => True

theorem offers_registerService (accountHash : Hash) (service : String)
    (registry : ServiceRegistry) (account : Hash) (offered : String) :
    (registerService accountHash service registry).offers account offered = true ↔
      (account = accountHash ∧ offered = service) ∨ registry.offers account offered = true :=
  member_addTo registry.accountServiceMap accountHash account service offered

theorem registered_registerService (accountHash : Hash) (service : String)
    (registry : ServiceRegistry) (account : Hash) (offered : String) :
    (registerService accountHash service registry).registered offered account = true ↔
      (account = accountHash ∧ offered = service) ∨
        registry.registered offered account = true := by
  rw [and_comm]
  exact member_addTo registry.serviceAccountMap service offered accountHash account

theorem offers_registerServices (accountHash : Hash) (services : List String)
    (registry : ServiceRegistry) (account : Hash) (service : String) :
    (registerServices accountHash services registry).offers account service = true ↔
      if account = accountHash then service ∈ services
      else registry.offers account service = true := by
  rw [offers, registerServices, member_insert]
  by_cases h : account = accountHash
  · rw [if_pos h, if_pos h, OrderedSet.contains_ofList]
  · rw [if_neg h, if_neg h, offers]

/-- The loop over the services does not run. -/
theorem registered_registerServices (accountHash : Hash) (services : List String)
    (registry : ServiceRegistry) (account : Hash) (service : String) :
    (registerServices accountHash services registry).registered service account =
      registry.registered service account := by
  have hloop : (registerServices accountHash services registry).serviceAccountMap =
      registry.serviceAccountMap :=
    OrderedMap.mapRange_self registry.serviceAccountMap loopBegin
      (updateAccounts accountHash (OrderedSet.ofList services))
  rw [registered, registered, hloop]

theorem offers_getServices (accountHash : Hash) (registry : ServiceRegistry) (account : Hash)
    (service : String) :
    (getServices accountHash registry).2.offers account service =
      registry.offers account service :=
  member_touch registry.accountServiceMap accountHash account service

theorem getAccount_ok {registry : ServiceRegistry} {service : String} {generator : ℕ}
    {account : Hash} (h : registry.getAccount service generator = .ok account) :
    registry.registered service account = true := by
  rw [getAccount, RouterRegistry.getAccount, router] at h
  cases hlookup : registry.serviceAccountMap.lookup service with
  | none => simp [hlookup] at h
  | some accounts =>
    simp only [hlookup, Option.map_some] at h
    split at h
    · simp at h
    · have hmem : account ∈ accounts.keys := by
        rw [← Except.ok.inj h]
        exact List.get_mem ..
      rw [registered, member, hlookup, Option.any_some, ← OrderedMap.mem_keys]
      exact hmem

theorem getAccount_returns {registry : ServiceRegistry} {service : String} {account : Hash}
    (h : registry.registered service account = true) (generator : ℕ) :
    ∃ found, registry.getAccount service generator = .ok found := by
  rw [registered, member] at h
  cases hlookup : registry.serviceAccountMap.lookup service with
  | none => simp [hlookup] at h
  | some accounts =>
    rw [hlookup, Option.any_some, ← OrderedMap.mem_keys] at h
    have hsize : ¬ accounts.keys.length = 0 := by
      have hpos := List.length_pos_of_mem h
      omega
    rw [getAccount, RouterRegistry.getAccount, router]
    simp only [hlookup, Option.map_some]
    rw [dif_neg hsize]
    exact ⟨_, rfl⟩

theorem serves_of_agree {registry : ServiceRegistry} (h : Agree registry) : Serves registry := by
  intro service generator
  refine ⟨?_, ?_⟩
  · intro account hok
    exact (h account service).mpr (getAccount_ok hok)
  · rintro ⟨account, hoffers⟩
    exact getAccount_returns ((h account service).mp hoffers) generator

/-- What one call must not change for the maps to agree after it. -/
theorem agree_step_iff (call : Call) {registry : ServiceRegistry} (h : Agree registry) :
    Agree (step call registry) ↔ Unchanged call registry := by
  cases call with
  | registerService accountHash service =>
    refine iff_of_true ?_ trivial
    intro account offered
    rw [step, offers_registerService, registered_registerService, h account offered]
  | registerServices accountHash services =>
    constructor
    · intro hafter service
      have hboth := hafter accountHash service
      rw [step, offers_registerServices, if_pos rfl, registered_registerServices,
        ← h accountHash service] at hboth
      exact hboth
    · intro hsame account service
      rw [step, offers_registerServices, registered_registerServices, ← h account service]
      by_cases haccount : account = accountHash
      · rw [if_pos haccount, haccount]
        exact hsame service
      · rw [if_neg haccount]
  | getServices accountHash =>
    refine iff_of_true ?_ trivial
    intro account service
    rw [step, offers_getServices]
    exact h account service
  | getAccount service generator => exact iff_of_true h trivial

theorem agree_start : Agree start := by
  intro account service
  simp [start, offers, registered, member]

/-- After every call of a run the maps agree and `getAccount` serves by them,
exactly if every replacing update of the run names what its account offers already. -/
theorem agreement_along (calls : List Call) :
    Runs.Along step (fun call registry => Agree (step call registry) ∧ Serves (step call registry))
        start calls ↔
      Runs.Along step Unchanged start calls := by
  refine Runs.along_iff_of_invariant step ?_ ?_ agree_start
    (Runs.along_true step start calls)
  · intro call registry hagree _ hsame
    exact (agree_step_iff call hagree).mpr hsame
  · intro call registry hagree _
    rw [← agree_step_iff call hagree]
    exact ⟨And.left, fun hafter => ⟨hafter, serves_of_agree hafter⟩⟩

/-- An account that offers `block` and is then said to offer `process` instead is still
the one that `getAccount` names for `block`, and `process` has no account. -/
theorem replaced_services :
    let registry := Runs.run step start
      [.registerService [1] "block", .registerServices [1] ["process"]]
    registry.offers [1] "block" = false ∧ registry.registered "block" [1] = true ∧
      registry.getAccount "block" 0 = .ok [1] := by
  decide +kernel

theorem replaced_services_disagree :
    ∃ calls, ¬ Agree (Runs.run step start calls) ∧ ¬ Serves (Runs.run step start calls) := by
  obtain ⟨hnot, hregistered, hgets⟩ := replaced_services
  refine ⟨[.registerService [1] "block", .registerServices [1] ["process"]], ?_, ?_⟩
  · intro hagree
    rw [(hagree [1] "block").mpr hregistered] at hnot
    contradiction
  · intro hserves
    rw [(hserves "block" 0).1 [1] hgets] at hnot
    contradiction

end ServiceRegistry

end Keto.Router
