import Keto.Library.Runs
import Keto.Module.ModuleManager

/-!
Runs of the module manager: life-cycle calls, turns of the monitor and queries
in any order. The maps hold libraries that loaded completely and were not
unloaded since, as long as a library that fails to load does so before it is in
the maps, no listed library is loaded again, `stop` returns in `unload`, and queries
name what is listed.
-/
namespace Keto.Module.TruthfulMaps

open Library.Stateful Library ModuleManager

def Alive (events : List LibraryEvent) (pointer : Pointer) : Prop :=
  ∃ library, pointer = some library ∧ .loaded library ∈ events ∧ .failed library ∉ events ∧
    .unloaded library ∉ events

def Quiet : List LibraryEvent → Prop
  | [] => True
  | event :: earlier =>
    (∀ library, event = .stopped library ∨ event = .unloaded library →
      .failed library ∉ earlier) ∧ Quiet earlier

structure Truthful (process : Process) : Prop where
  libraries : ∀ path pointer,
    process.manager.loadedLibraryModuleManagers.lookup path = some pointer →
      Alive process.events pointer
  interfaces : ∀ name pointer,
    process.manager.loadedModuleManagementInterfaces.lookup name = some pointer →
      Alive process.events pointer
  modules : ∀ name pointer, process.manager.loadedModules.lookup name = some pointer →
    Alive process.events pointer
  quiet : Quiet process.events

def Cleared (manager : ModuleManager) : Prop :=
  manager.listModuleFiles = [] ∧ manager.listModuleManagementInterfaces = [] ∧
    manager.listModules = []

def SameLists (manager manager' : ModuleManager) : Prop :=
  manager'.listModuleFiles = manager.listModuleFiles ∧
    manager'.listModuleManagementInterfaces = manager.listModuleManagementInterfaces ∧
    manager'.listModules = manager.listModules

/-- The calls on the manager; `monitor` is its entry, and `monitorTurn` a turn of its loop. -/
inductive Call
  | load (directory : ModuleDirectory) (postStarts : ℕ → Bool)
  | unload (stops : ℕ → Bool)
  | terminate
  | monitor
  | monitorTurn (turn : Turn)
  | getModule (name : String)
  | getModuleManagementInterface (name : String)
  | getModuleWrapper (path : String)
  | list

def Call.action : Call → Managing PUnit
  | .load directory postStarts => ModuleManager.load directory postStarts
  | .unload stops => ModuleManager.unload stops
  | .terminate => ModuleManager.terminate
  | .monitor => setState .monitoring
  | .monitorTurn turn => ModuleManager.monitorTurn turn
  | .getModule name => discard (ModuleManager.getModule name)
  | .getModuleManagementInterface name =>
    discard (ModuleManager.getModuleManagementInterface name)
  | .getModuleWrapper path => discard (ModuleManager.getModuleWrapper path)
  | .list => pure ⟨⟩

structure Running where
  process : Process
  crashed : Bool

def start : Running := ⟨ModuleManager.start, false⟩

def step (call : Call) (running : Running) : Running :=
  if running.crashed then running
  else
    match call.action running.process with
    | .ok _ process => ⟨process, false⟩
    | .error .nullPointer process => ⟨process, true⟩
    | .error _ process => ⟨process, false⟩

def Reloads (turn : Turn) (manager : ModuleManager) : Prop :=
  manager.currentState ≠ .terminated ∧
    ∃ path library, manager.loadedLibraryModuleManagers.lookup path = some (some library) ∧
      turn.changed library = true

/-- What a call does to the lists: `unload` clears them, also the one that a turn of the
monitor starts with when it reloads; a turn that does not and a query leave them. -/
def Lists (call : Call) (process process' : Process) : Prop :=
  match call with
  | .unload _ => Cleared process'.manager
  | .monitorTurn turn =>
    (Reloads turn process.manager →
      Cleared (after (ModuleManager.unload turn.stops) process).manager) ∧
    (¬ Reloads turn process.manager → SameLists process.manager process'.manager)
  | .getModule _ | .getModuleManagementInterface _ | .getModuleWrapper _ | .list =>
    SameLists process.manager process'.manager
  | _ => True

/-- What is asked of a call: truthful maps after it, no null pointer followed, the
lists it should leave, and the terminated state kept. -/
structure Correct (call : Call) (running : Running) : Prop where
  truthful : Truthful (step call running).process
  noNull : (step call running).crashed = false
  lists : Lists call running.process (step call running).process
  terminated : running.process.manager.currentState = .terminated →
    (step call running).process.manager.currentState = .terminated

def FailsEarly (library : LibraryFile) : Prop :=
  (library.opens && library.creates && library.starts) = false

def Completes (library : LibraryFile) : Prop :=
  (library.opens && library.creates && library.starts) = true ∧
    ∃ name modules, library.getName = some name ∧ library.listModules = some modules ∧
      ∀ name ∈ modules, library.getModule name = .found

def Loadable : List (String × LibraryFile) → Prop
  | [] => True
  | file :: files => FailsEarly file.2 ∨ (Completes file.2 ∧ Loadable files)

def Stoppable (stops : ℕ → Bool) (manager : ModuleManager) : Prop :=
  ∀ path library,
    manager.loadedLibraryModuleManagers.lookup path = some (some library) → stops library = true

def Unlisted (directory : ModuleDirectory) (manager : ModuleManager) : Prop :=
  ∀ file ∈ directory.files, manager.loadedLibraryModuleManagers.contains file.1 = false

def Careful (call : Call) (running : Running) : Prop :=
  let manager := running.process.manager
  match call with
  | .load directory _ => Loadable directory.files ∧ Unlisted directory manager
  | .unload stops => Stoppable stops manager
  | .monitorTurn turn =>
    Reloads turn manager → Stoppable turn.stops manager ∧ Loadable turn.directory.files
  | .getModule name => manager.loadedModules.contains name = true
  | .getModuleManagementInterface name =>
    manager.loadedModuleManagementInterfaces.contains name = true
  | .getModuleWrapper path => manager.loadedLibraryModuleManagers.contains path = true
  | _ => True

theorem Alive.record {events : List LibraryEvent} {pointer : Pointer} (h : Alive events pointer)
    {event : LibraryEvent}
    (hother : ∀ library, pointer = some library →
      event ≠ .failed library ∧ event ≠ .unloaded library) : Alive (event :: events) pointer := by
  obtain ⟨library, rfl, hloaded, hfailed, hunloaded⟩ := h
  obtain ⟨hnotFailed, hnotUnloaded⟩ := hother library rfl
  refine ⟨library, rfl, List.mem_cons_of_mem _ hloaded, ?_, ?_⟩
  · simp [hnotFailed.symm, hfailed]
  · simp [hnotUnloaded.symm, hunloaded]

def number : LibraryEvent → ℕ
  | .loaded library => library
  | .failed library => library
  | .stopped library => library
  | .unloaded library => library

/-- What every call keeps: truthful maps, events about libraries that were tried,
and the terminated state if the manager was `terminated`. -/
structure Kept (terminated : Prop) (process : Process) : Prop where
  truthful : Truthful process
  numbered : ∀ event ∈ process.events, number event < process.created
  terminated : terminated → process.manager.currentState = .terminated

section Steps

variable {terminated : Prop} {process : Process}

theorem Kept.alive (h : Kept terminated process) {entry : String × Pointer}
    (hentry : entry ∈ process.manager.loadedLibraryModuleManagers.entries) :
    ∃ library, entry.2 = some library ∧ .failed library ∉ process.events ∧
      library < process.created := by
  obtain ⟨library, hpointer, hloaded, hfailed, -⟩ := h.truthful.libraries entry.1 entry.2
    ((OrderedMap.lookup_eq_some_iff _ _ _).mpr hentry)
  exact ⟨library, hpointer, hfailed, h.numbered _ hloaded⟩

theorem Kept.setState (h : Kept terminated process) (state : State) :
    Kept terminated (process.update fun manager =>
      if manager.currentState = .terminated then manager
      else { manager with currentState := state }) := by
  simp only [Process.update]
  split
  · exact h
  · rename_i hnot
    exact ⟨⟨h.truthful.libraries, h.truthful.interfaces, h.truthful.modules, h.truthful.quiet⟩,
      h.numbered, fun hterminated => absurd (h.terminated hterminated) hnot⟩

/-- An event about a library that is not listed, or one that harms no listed library. -/
theorem Kept.record (h : Kept terminated process) {event : LibraryEvent}
    (hnumber : number event < process.created)
    (hother : ∀ pointer, Alive process.events pointer → ∀ library, pointer = some library →
      event ≠ .failed library ∧ event ≠ .unloaded library)
    (hquiet : ∀ library, event = .stopped library ∨ event = .unloaded library →
      .failed library ∉ process.events) :
    Kept terminated (process.record event) where
  truthful := {
    libraries := fun path pointer hlookup =>
      (h.truthful.libraries path pointer hlookup).record
        (hother pointer (h.truthful.libraries path pointer hlookup))
    interfaces := fun name pointer hlookup =>
      (h.truthful.interfaces name pointer hlookup).record
        (hother pointer (h.truthful.interfaces name pointer hlookup))
    modules := fun name pointer hlookup =>
      (h.truthful.modules name pointer hlookup).record
        (hother pointer (h.truthful.modules name pointer hlookup))
    quiet := ⟨hquiet, h.truthful.quiet⟩ }
  numbered := by
    intro found hfound
    rcases List.mem_cons.mp hfound with rfl | hfound
    · exact hnumber
    · exact h.numbered found hfound
  terminated := h.terminated

/-- The attempt to load one more library: its number is not in the history. -/
theorem Kept.create (h : Kept terminated process) :
    Kept terminated { process with created := process.created + 1 } where
  truthful := ⟨h.truthful.libraries, h.truthful.interfaces, h.truthful.modules, h.truthful.quiet⟩
  numbered := fun event hevent => Nat.lt_succ_of_lt (h.numbered event hevent)
  terminated := h.terminated

def Adds (library : ℕ) (old m : OrderedMap String Pointer) : Prop :=
  ∀ key pointer, m.lookup key = some pointer →
    old.lookup key = some pointer ∨ pointer = some library

theorem Adds.refl (library : ℕ) (m : OrderedMap String Pointer) : Adds library m m :=
  fun _ _ => Or.inl

theorem Adds.insert {library : ℕ} {old m : OrderedMap String Pointer} (h : Adds library old m)
    (key : String) : Adds library old (m.insert key (some library)) := by
  intro other pointer hlookup
  rw [OrderedMap.lookup_insert] at hlookup
  split at hlookup
  · exact Or.inr (Option.some.inj hlookup).symm
  · exact h other pointer hlookup

/-- The new library is loaded, and nothing was known of it before. -/
theorem Adds.alive {library : ℕ} {old m : OrderedMap String Pointer} (h : Adds library old m)
    {events : List LibraryEvent} (hnew : ∀ event ∈ events, number event ≠ library)
    (hold : ∀ key pointer, old.lookup key = some pointer → Alive events pointer) (key : String)
    (pointer : Pointer) (hlookup : m.lookup key = some pointer) :
    Alive (.loaded library :: events) pointer := by
  rcases h key pointer hlookup with hlookup | rfl
  · exact (hold key pointer hlookup).record fun _ _ => by simp
  · refine ⟨library, rfl, List.mem_cons_self, ?_, ?_⟩
    · intro hmem
      exact hnew (.failed library) (by simpa using hmem) rfl
    · intro hmem
      exact hnew (.unloaded library) (by simpa using hmem) rfl

structure AddsOnly (path : String) (library : ℕ) (process process' : Process) : Prop where
  others : ∀ other, other ≠ path → process'.manager.loadedLibraryModuleManagers.lookup other =
    process.manager.loadedLibraryModuleManagers.lookup other
  libraries : Adds library process.manager.loadedLibraryModuleManagers
    process'.manager.loadedLibraryModuleManagers
  interfaces : Adds library process.manager.loadedModuleManagementInterfaces
    process'.manager.loadedModuleManagementInterfaces
  modules : Adds library process.manager.loadedModules process'.manager.loadedModules
  state : process'.manager.currentState = process.manager.currentState
  events : process'.events = process.events
  created : process'.created = process.created

theorem enterLibrary_of_unlisted {path : String}
    (h : process.manager.loadedLibraryModuleManagers.lookup path = none) (library : ℕ) :
    enterLibrary path library process = process.update (addLibrary path library) := by
  rw [enterLibrary, h]

theorem ends_addToContainers {file : LibraryFile} (hfile : Completes file) {path : String}
    (hpath : process.manager.loadedLibraryModuleManagers.lookup path = none) (library : ℕ) :
    Ends (addToContainers path file library) (fun _ => AddsOnly path library process)
      (fun _ _ => False) process := by
  obtain ⟨-, name, modules, hname, hmodules, hfound⟩ := hfile
  simp only [addToContainers, ends_bind, ends_modify, hname, hmodules, answer, ends_pure,
    enterLibrary_of_unlisted hpath]
  refine ends_forM ?_ ?_
  · intro name hmem p hp
    simp only [getLibraryModule, hfound name hmem, ends_bind, ends_pure, ends_modify]
    exact ⟨hp.others, hp.libraries, hp.interfaces, hp.modules.insert name, hp.state, hp.events,
      hp.created⟩
  · refine ⟨?_, (Adds.refl _ _).insert path, (Adds.refl _ _).insert name, Adds.refl _ _, rfl, rfl,
      rfl⟩
    intro other hother
    simp [Process.update, addLibrary, addInterface, OrderedMap.lookup_insert, hother]

theorem Kept.added (h : Kept terminated process) {path : String} {library : ℕ}
    {process' : Process} (hadds : AddsOnly path library process process')
    (hnumber : library < process.created)
    (hnew : ∀ event ∈ process.events, number event ≠ library) :
    Kept terminated (process'.record (.loaded library)) := by
  have hevents : (process'.record (.loaded library)).events =
      .loaded library :: process.events := by
    rw [Process.record, hadds.events]
  refine ⟨⟨?_, ?_, ?_, ?_⟩, ?_, ?_⟩
  · rw [hevents]
    exact hadds.libraries.alive hnew h.truthful.libraries
  · rw [hevents]
    exact hadds.interfaces.alive hnew h.truthful.interfaces
  · rw [hevents]
    exact hadds.modules.alive hnew h.truthful.modules
  · rw [hevents]
    exact ⟨by simp, h.truthful.quiet⟩
  · rw [hevents]
    intro event hevent
    change number event < process'.created
    rw [hadds.created]
    rcases List.mem_cons.mp hevent with rfl | hevent
    · exact hnumber
    · exact h.numbered event hevent
  · intro hterminated
    change process'.manager.currentState = _
    rw [hadds.state]
    exact h.terminated hterminated

theorem Kept.new_number (h : Kept terminated process) :
    ∀ event ∈ process.events, number event ≠ process.created := by
  intro event hevent heq
  have hlt := h.numbered event hevent
  omega

/-- A library that completes is loaded; of the other paths nothing changes. -/
theorem ends_loadLibrary_completes {file : LibraryFile} (hfile : Completes file) {path : String}
    (hpath : process.manager.loadedLibraryModuleManagers.lookup path = none)
    (h : Kept terminated process) :
    Ends (loadLibrary path file)
      (fun _ process' => Kept terminated process' ∧
        ∀ other, other ≠ path → process'.manager.loadedLibraryModuleManagers.lookup other =
          process.manager.loadedLibraryModuleManagers.lookup other)
      (fun _ _ => False) process := by
  have hstarts := hfile.1
  simp only [Bool.and_eq_true] at hstarts
  obtain ⟨⟨hopens, hcreates⟩, hstarts⟩ := hstarts
  simp only [loadLibrary, ends_bind, ends_get, ends_modify, ends_tryCatch, ends_call, hopens,
    hcreates, hstarts, forall_const, Bool.true_eq_false, IsEmpty.forall_iff, and_true]
  have hadds := ends_addToContainers hfile
    (show { process with created := process.created + 1 }.manager.loadedLibraryModuleManagers.lookup
      path = none from hpath) process.created
  refine hadds.mono ?_ fun _ _ hfalse => hfalse.elim
  intro _ process' hadds
  exact ⟨h.create.added hadds (Nat.lt_succ_self _) h.new_number, hadds.others⟩

/-- Nothing is known of the library but that it was stopped or unloaded. -/
def Untold (library : ℕ) (process : Process) : Prop :=
  .loaded library ∉ process.events ∧ .failed library ∉ process.events ∧
    library < process.created

theorem Kept.recordUntold (h : Kept terminated process) (event : LibraryEvent)
    (huntold : Untold (number event) process) : Kept terminated (process.record event) := by
  refine h.record huntold.2.2 ?_ ?_
  · rintro _ ⟨library, rfl, hloaded, -, -⟩ _ hsame
    obtain rfl := Option.some.inj hsame
    constructor
    · rintro rfl
      exact huntold.1 hloaded
    · rintro rfl
      exact huntold.1 hloaded
  · rintro library (rfl | rfl)
    · exact huntold.2.1
    · exact huntold.2.1

theorem Untold.record {library : ℕ} (h : Untold library process) (event : LibraryEvent)
    (hloaded : event ≠ .loaded library) (hfailed : event ≠ .failed library) :
    Untold library (process.record event) := by
  simp [Untold, Process.record, h.1, h.2.1, h.2.2, hloaded.symm, hfailed.symm]

/-- The wrapper of a library that is untold is not in the map. -/
theorem Kept.dropWrapper (h : Kept terminated process) {library : ℕ}
    (huntold : Untold library process) (path : String) :
    ModuleManager.dropWrapper path library process = process.record (.unloaded library) := by
  rw [ModuleManager.dropWrapper, if_neg]
  intro hlookup
  obtain ⟨found, hsame, hloaded, -, -⟩ := h.truthful.libraries path _ hlookup
  obtain rfl := Option.some.inj hsame
  exact huntold.1 hloaded

theorem ends_loadLibrary_fails {file : LibraryFile} (hfile : FailsEarly file) (path : String)
    (h : Kept terminated process) :
    Ends (loadLibrary path file) (fun _ _ => False)
      (fun exception process' => exception ≠ .nullPointer ∧ Kept terminated process') process := by
  have hnew : Untold process.created { process with created := process.created + 1 } :=
    ⟨fun hmem => h.new_number _ hmem rfl, fun hmem => h.new_number _ hmem rfl,
      Nat.lt_succ_self _⟩
  have hdrop := fun (found : Process) (hkept : Kept terminated found)
      (huntold : Untold process.created found) => hkept.dropWrapper huntold path
  simp only [loadLibrary, ends_bind, ends_get, ends_modify, ends_tryCatch, ends_call, ends_ite,
    ends_throw]
  cases hopens : file.opens with
  | false =>
    have hkept := h.create.recordUntold (.failed process.created) hnew
    simpa using hkept
  | true =>
    cases hcreates : file.creates with
    | false =>
      have hunloaded := hnew.record (.unloaded process.created) (by simp) (by simp)
      have hkept := (h.create.recordUntold (.unloaded process.created) hnew).recordUntold
        (.failed process.created) hunloaded
      simpa [hdrop _ h.create hnew] using hkept
    | true =>
      have hstarts : file.starts = false := by
        simpa [FailsEarly, hopens, hcreates] using hfile
      have hstopped := hnew.record (.stopped process.created) (by simp) (by simp)
      have hkeptStopped := h.create.recordUntold (.stopped process.created) hnew
      have hunloaded := hstopped.record (.unloaded process.created) (by simp) (by simp)
      have hkept := (hkeptStopped.recordUntold (.unloaded process.created)
        hstopped).recordUntold (.failed process.created) hunloaded
      -- whether `stop` returns or throws, the maps are the same
      have hboth : (file.stops = true → Kept terminated _) ∧
          (file.stops = false → Kept terminated _) := ⟨fun _ => hkept, fun _ => hkept⟩
      simpa [hstarts, hdrop _ hkeptStopped hstopped] using hboth

abbrev Keeps (terminated : Prop) (action : Managing PUnit) (process : Process) : Prop :=
  Ends action (fun _ => Kept terminated)
    (fun exception process' => exception ≠ .nullPointer ∧ Kept terminated process') process

theorem keeps_loadLibraries {files : List (String × LibraryFile)} (hfiles : Loadable files)
    (hdistinct : (files.map Prod.fst).Nodup)
    (hunlisted : ∀ file ∈ files,
      process.manager.loadedLibraryModuleManagers.lookup file.1 = none)
    (h : Kept terminated process) :
    Keeps terminated (files.forM fun file => loadLibrary file.1 file.2) process := by
  induction files generalizing process with
  | nil => exact h
  | cons file files ih =>
    refine ends_bind.mpr ?_
    rcases hfiles with hfails | ⟨hcompletes, hfiles⟩
    · exact (ends_loadLibrary_fails hfails file.1 h).mono (fun _ _ hfalse => hfalse.elim)
        fun _ _ hraised => hraised
    · refine (ends_loadLibrary_completes hcompletes (hunlisted file List.mem_cons_self) h).mono ?_
        fun _ _ hfalse => hfalse.elim
      rintro _ process' ⟨hkept, hothers⟩
      rw [List.map_cons, List.nodup_cons] at hdistinct
      refine ih hfiles hdistinct.2 ?_ hkept
      intro other hother
      rw [hothers other.1 fun hsame => hdistinct.1 (hsame ▸ List.mem_map_of_mem hother)]
      exact hunlisted other (List.mem_cons_of_mem _ hother)

theorem keeps_load {directory : ModuleDirectory} (hfiles : Loadable directory.files)
    (hunlisted : Unlisted directory process.manager) (postStarts : ℕ → Bool)
    (h : Kept terminated process) : Keeps terminated (load directory postStarts) process := by
  rw [Keeps, load, ends_bind, setState, ends_modify, ends_bind]
  refine (keeps_loadLibraries hfiles directory.distinct ?_ (h.setState .loading)).mono ?_
    fun _ _ hraised => hraised
  · intro file hfile
    have hpath : process.manager.loadedLibraryModuleManagers.lookup file.1 = none := by
      by_contra hlisted
      obtain ⟨pointer, hpointer⟩ := Option.ne_none_iff_exists'.mp hlisted
      have hcontains := (OrderedMap.contains_iff _ _).mpr ⟨pointer, hpointer⟩
      exact absurd (hcontains.symm.trans (hunlisted file hfile)) (by simp)
    simp only [Process.update]
    split
    · exact hpath
    · exact hpath
  intro _ tried htried
  rw [ends_bind, ends_get, ends_bind]
  have hstarted : Ends (tried.manager.loadedLibraryModuleManagers.entries.forM fun entry => do
      let library ← follow entry.2
      call (postStarts library)) (fun _ process' => process' = tried)
      (fun exception process' => exception ≠ .nullPointer ∧ Kept terminated process') tried := by
    refine ends_forM ?_ rfl
    rintro entry hentry _ rfl
    obtain ⟨library, hpointer, -⟩ := htried.alive hentry
    simp [hpointer, htried]
  refine hstarted.mono ?_ fun _ _ hraised => hraised
  rintro _ _ rfl
  exact htried.setState .loaded

/-- The loop that stops what is listed. -/
theorem ends_stopAll {stops : ℕ → Bool} (hstops : Stoppable stops process.manager)
    (h : Kept terminated process) :
    Ends (process.manager.loadedLibraryModuleManagers.entries.reverse.forM fun entry => do
        let library ← follow entry.2
        modify (Process.record (.stopped library))
        call (stops library))
      (fun _ process' => process'.manager = process.manager ∧ Kept terminated process')
      (fun _ _ => False) process := by
  refine ends_forM ?_ ⟨rfl, h⟩
  intro entry hentry stopping ⟨hmanager, hstopping⟩
  have hlisted := List.mem_reverse.mp hentry
  have hlisted' := hlisted
  rw [← hmanager] at hlisted'
  obtain ⟨library, hpointer, hfailed, hnumber⟩ := hstopping.alive hlisted'
  have hreturns := hstops entry.1 library
    ((OrderedMap.lookup_eq_some_iff _ _ _).mpr (hpointer ▸ hlisted))
  have hrecorded : Kept terminated (stopping.record (.stopped library)) := by
    refine hstopping.record hnumber (by simp) ?_
    rintro found hstop
    obtain rfl : library = found := by simpa using hstop
    exact hfailed
  simp only [ends_bind, ends_follow, ends_modify, ends_call, hpointer, Option.some.injEq,
    forall_eq', reduceCtorEq, IsEmpty.forall_iff, and_true, hreturns, forall_const,
    Bool.true_eq_false]
  exact ⟨hmanager, hrecorded⟩

structure Unloading (terminated : Prop) (process process' : Process) : Prop where
  manager : process'.manager = process.manager
  created : process'.created = process.created
  kept : Kept terminated process'
  failed : ∀ library, .failed library ∉ process.events → .failed library ∉ process'.events

/-- The loop that unloads what was listed, when nothing is any more. -/
theorem ends_unloadAll {entries : List (String × Pointer)}
    (hentries : ∀ entry ∈ entries, ∃ library, entry.2 = some library ∧
      .failed library ∉ process.events ∧ library < process.created)
    (hcleared : process.manager = clear process.manager) (h : Kept terminated process) :
    Ends (entries.forM fun entry => do
        let library ← follow entry.2
        modify (Process.record (.unloaded library)))
      (fun _ process' => process'.manager = process.manager ∧ Kept terminated process')
      (fun _ _ => False) process := by
  have hstart : Unloading terminated process process := ⟨rfl, rfl, h, fun _ hfailed => hfailed⟩
  refine (ends_forM ?_ hstart).mono ?_ fun _ _ hfalse => hfalse
  · intro entry hentry unloading ⟨hmanager, hcreated, hunloading, hfailedOnly⟩
    obtain ⟨library, hpointer, hfailed, hnumber⟩ := hentries entry hentry
    have hnone : ∀ m : OrderedMap String Pointer, m = OrderedMap.empty → ∀ key pointer,
        m.lookup key = some pointer → Alive (.unloaded library :: unloading.events) pointer := by
      rintro _ rfl key pointer hlookup
      simp at hlookup
    have hempty : unloading.manager = clear unloading.manager := by
      rw [hmanager]
      exact hcleared
    simp only [ends_bind, ends_follow, ends_modify, hpointer, Option.some.injEq, forall_eq',
      reduceCtorEq, IsEmpty.forall_iff, and_true]
    refine ⟨hmanager, hcreated, ⟨⟨?_, ?_, ?_, ?_, hunloading.truthful.quiet⟩, ?_,
      hunloading.terminated⟩, ?_⟩
    · exact hnone _ (congrArg ModuleManager.loadedLibraryModuleManagers hempty)
    · exact hnone _ (congrArg ModuleManager.loadedModuleManagementInterfaces hempty)
    · exact hnone _ (congrArg ModuleManager.loadedModules hempty)
    · rintro found hunload
      obtain rfl : library = found := by simpa using hunload
      exact hfailedOnly library hfailed
    · intro event hevent
      change number event < unloading.created
      rcases List.mem_cons.mp hevent with rfl | hevent
      · rw [hcreated]
        exact hnumber
      · exact hunloading.numbered event hevent
    · intro found hfound
      have hbefore := hfailedOnly found hfound
      simpa [Process.record] using hbefore
  · intro _ process' hunloaded
    exact ⟨hunloaded.manager, hunloaded.kept⟩

/-- Clearing the maps of a truthful manager. -/
theorem Kept.clear (h : Kept terminated process) :
    Kept terminated (process.update ModuleManager.clear) where
  truthful := {
    libraries := fun _ _ hlookup => by simp [Process.update, ModuleManager.clear] at hlookup
    interfaces := fun _ _ hlookup => by simp [Process.update, ModuleManager.clear] at hlookup
    modules := fun _ _ hlookup => by simp [Process.update, ModuleManager.clear] at hlookup
    quiet := h.truthful.quiet }
  numbered := h.numbered
  terminated := h.terminated

theorem cleared_setState {manager : ModuleManager} (h : Cleared manager) (state : State) :
    Cleared (if manager.currentState = .terminated then manager
      else { manager with currentState := state }) := by
  split
  · exact h
  · exact h

theorem stoppable_setState {stops : ℕ → Bool} {manager : ModuleManager}
    (h : Stoppable stops manager) (state : State) :
    Stoppable stops (if manager.currentState = .terminated then manager
      else { manager with currentState := state }) := by
  split
  · exact h
  · exact h

theorem ends_unload {stops : ℕ → Bool} (hstops : Stoppable stops process.manager)
    (h : Kept terminated process) :
    Ends (unload stops)
      (fun _ process' => Cleared process'.manager ∧ Kept terminated process')
      (fun _ _ => False) process := by
  have hunloading := h.setState .unloading
  have hstoppable := stoppable_setState hstops .unloading
  rw [unload, ends_bind, setState, ends_modify, ends_bind, ends_get, ends_bind]
  refine (ends_stopAll hstoppable hunloading).mono ?_ fun _ _ hfalse => hfalse
  intro _ stopped ⟨hmanager, hstopped⟩
  rw [ends_bind, ends_modify, ends_bind]
  have hentries : ∀ entry ∈ stopped.manager.loadedLibraryModuleManagers.entries.reverse,
      ∃ library, entry.2 = some library ∧
        .failed library ∉ (stopped.update ModuleManager.clear).events ∧
        library < (stopped.update ModuleManager.clear).created :=
    fun entry hentry => hstopped.alive (List.mem_reverse.mp hentry)
  rw [hmanager] at hentries
  refine (ends_unloadAll hentries rfl hstopped.clear).mono ?_ fun _ _ hfalse => hfalse
  intro _ unloaded ⟨hcleared, hunloaded⟩
  have hlists : Cleared unloaded.manager := by
    rw [hcleared]
    exact ⟨rfl, rfl, rfl⟩
  exact ⟨cleared_setState hlists .unloaded, hunloaded.setState .unloaded⟩

theorem ends_anyChanged (changed : ℕ → Bool) {entries : List (String × Pointer)}
    (hentries : ∀ entry ∈ entries, ∃ library, entry.2 = some library) :
    Ends (anyChanged changed entries)
      (fun reload process' => process' = process ∧ (reload = true →
        ∃ entry ∈ entries, ∃ library, entry.2 = some library ∧ changed library = true))
      (fun _ _ => False) process := by
  induction entries with
  | nil => exact ⟨rfl, by simp⟩
  | cons entry entries ih =>
    obtain ⟨library, hpointer⟩ := hentries entry List.mem_cons_self
    have hrest := ih fun other hother => hentries other (List.mem_cons_of_mem _ hother)
    simp only [anyChanged, ends_bind, ends_follow, hpointer, Option.some.injEq, forall_eq',
      reduceCtorEq, IsEmpty.forall_iff, and_true]
    by_cases hchanged : changed library = true
    · rw [if_pos hchanged]
      exact ⟨rfl, fun _ => ⟨entry, List.mem_cons_self, library, hpointer, hchanged⟩⟩
    · rw [if_neg hchanged]
      refine hrest.mono ?_ fun _ _ hfalse => hfalse
      intro reload process' hkept
      obtain ⟨hsame, hfound⟩ := hkept
      refine ⟨hsame, fun hreload => ?_⟩
      obtain ⟨other, hother, hother'⟩ := hfound hreload
      exact ⟨other, List.mem_cons_of_mem _ hother, hother'⟩

theorem unlisted_of_cleared {manager : ModuleManager} (h : Cleared manager)
    (directory : ModuleDirectory) : Unlisted directory manager := by
  intro file _
  have hnone : file.1 ∉ manager.loadedLibraryModuleManagers.keys := by
    rw [show manager.loadedLibraryModuleManagers.keys = [] from h.1]
    exact List.not_mem_nil
  rw [OrderedMap.mem_keys] at hnone
  exact Bool.eq_false_iff.mpr hnone

/-- The unload of a turn clears the maps; a turn that does not reload leaves them. -/
theorem lists_monitorTurn {turn : Turn} {process' : Process} (h : Kept terminated process)
    (hturn : Reloads turn process.manager →
      Stoppable turn.stops process.manager ∧ Loadable turn.directory.files)
    (hsame : ¬ Reloads turn process.manager → process' = process) :
    Lists (.monitorTurn turn) process process' := by
  constructor
  · intro hreloads
    refine (ends_after (p := fun left : Process => Cleared left.manager)).mp ?_
    refine (ends_unload (hturn hreloads).1 h).mono ?_ fun _ _ hfalse => hfalse.elim
    exact fun _ _ hcleared => hcleared.1
  · intro hnot
    rw [hsame hnot]
    exact ⟨rfl, rfl, rfl⟩

theorem ends_monitorTurn {turn : Turn} (h : Kept terminated process)
    (hturn : Reloads turn process.manager →
      Stoppable turn.stops process.manager ∧ Loadable turn.directory.files) :
    Ends (monitorTurn turn)
      (fun _ process' => Kept terminated process' ∧ Lists (.monitorTurn turn) process process')
      (fun exception process' => exception ≠ .nullPointer ∧ Kept terminated process' ∧
        Lists (.monitorTurn turn) process process') process := by
  rw [monitorTurn, ends_bind, ends_get]
  by_cases hstate : process.manager.currentState = .terminated
  · rw [if_pos hstate]
    exact ⟨h, lists_monitorTurn h hturn fun _ => rfl⟩
  · rw [if_neg hstate, ends_bind, ends_get, ends_bind]
    refine (ends_anyChanged turn.changed fun entry hentry => ?_).mono ?_
      fun _ _ hfalse => hfalse.elim
    · obtain ⟨library, hpointer, -⟩ := h.alive hentry
      exact ⟨library, hpointer⟩
    · rintro reload _ ⟨rfl, hreload⟩
      cases reload with
      | false => exact ⟨h, lists_monitorTurn h hturn fun _ => rfl⟩
      | true =>
        obtain ⟨entry, hentry, library, hpointer, hchanged⟩ := hreload rfl
        have hlookup := (OrderedMap.lookup_eq_some_iff _ _ _).mpr hentry
        rw [hpointer] at hlookup
        have hreloads : Reloads turn _ := ⟨hstate, entry.1, library, hlookup, hchanged⟩
        obtain ⟨hstops, hfiles⟩ := hturn hreloads
        have hlists : ∀ process', Lists (.monitorTurn turn) _ process' := fun _ =>
          lists_monitorTurn h hturn fun hnot => absurd hreloads hnot
        rw [if_pos rfl, ends_bind]
        refine (ends_unload hstops h).mono ?_ fun _ _ hfalse => hfalse.elim
        rintro _ unloaded ⟨hcleared, hunloaded⟩
        rw [ends_bind]
        refine (keeps_load hfiles (unlisted_of_cleared hcleared _) turn.postStarts hunloaded).mono
          ?_ fun _ process' hraised => ⟨hraised.1, hraised.2, hlists process'⟩
        intro _ loaded hloaded
        exact ⟨hloaded.setState .monitoring, hlists _⟩

end Steps

/-- A call that keeps the manager truthful and leaves the lists it should. -/
theorem correct_of_ends {call : Call} {running : Running} (hrunning : running.crashed = false)
    (h : Ends call.action
      (fun _ process' =>
        Kept (running.process.manager.currentState = .terminated) process' ∧
          Lists call running.process process')
      (fun exception process' => exception ≠ .nullPointer ∧
        Kept (running.process.manager.currentState = .terminated) process' ∧
          Lists call running.process process') running.process) :
    Correct call running ∧
      Kept (running.process.manager.currentState = .terminated) (step call running).process := by
  have hstep : (step call running).crashed = false ∧
      Kept (running.process.manager.currentState = .terminated) (step call running).process ∧
      Lists call running.process (step call running).process := by
    rw [step, if_neg (by simp [hrunning])]
    cases haction : call.action running.process with
    | ok _ process =>
      rw [ends_of_ok haction] at h
      exact ⟨rfl, h.1, h.2⟩
    | error exception process =>
      rw [ends_of_error haction] at h
      obtain ⟨hexception, hkept, hlists⟩ := h
      cases exception with
      | nullPointer => exact absurd rfl hexception
      | moduleLoad path => exact ⟨rfl, hkept, hlists⟩
      | library => exact ⟨rfl, hkept, hlists⟩
  obtain ⟨hcrashed, hkept, hlists⟩ := hstep
  exact ⟨⟨hkept.truthful, hcrashed, hlists, hkept.terminated⟩, hkept⟩

structure Reached (running : Running) : Prop where
  kept : Kept (running.process.manager.currentState = .terminated) running.process
  running : running.crashed = false

theorem reached_start : Reached start where
  kept := {
    truthful := {
      libraries := fun _ _ hlookup => by simp [start, ModuleManager.start] at hlookup
      interfaces := fun _ _ hlookup => by simp [start, ModuleManager.start] at hlookup
      modules := fun _ _ hlookup => by simp [start, ModuleManager.start] at hlookup
      quiet := trivial }
    numbered := fun _ hevent => by simp [start, ModuleManager.start] at hevent
    terminated := id }
  running := rfl

theorem careful_step {call : Call} {running : Running} (h : Reached running)
    (hcareful : Careful call running) :
    Correct call running ∧ Reached (step call running) := by
  have hkept := h.kept
  suffices hends : Correct call running ∧
      Kept (running.process.manager.currentState = .terminated) (step call running).process from
    ⟨hends.1, ⟨hends.2.truthful, hends.2.numbered, id⟩, hends.1.noNull⟩
  refine correct_of_ends h.running ?_
  cases call with
  | load directory postStarts =>
    exact (keeps_load hcareful.1 hcareful.2 postStarts hkept).mono
      (fun _ _ hload => ⟨hload, trivial⟩)
      fun _ _ hraised => ⟨hraised.1, hraised.2, trivial⟩
  | unload stops =>
    exact (ends_unload hcareful hkept).mono (fun _ _ hunload => ⟨hunload.2, hunload.1⟩)
      fun _ _ hfalse => hfalse.elim
  | terminate =>
    exact ⟨⟨⟨hkept.truthful.libraries, hkept.truthful.interfaces, hkept.truthful.modules,
      hkept.truthful.quiet⟩, hkept.numbered, fun _ => rfl⟩, trivial⟩
  | monitor => exact ⟨hkept.setState .monitoring, trivial⟩
  | monitorTurn turn =>
    exact ends_monitorTurn hkept hcareful
  | getModule name =>
    simp only [Call.action, ends_discard, getModule, ends_bind, ends_get, ends_modify, ends_pure,
      Process.update, OrderedMap.touch_of_contains hcareful]
    exact ⟨hkept, rfl, rfl, rfl⟩
  | getModuleManagementInterface name =>
    simp only [Call.action, ends_discard, getModuleManagementInterface, ends_bind, ends_get,
      ends_modify, ends_pure, Process.update, OrderedMap.touch_of_contains hcareful]
    exact ⟨hkept, rfl, rfl, rfl⟩
  | getModuleWrapper path =>
    simp only [Call.action, ends_discard, getModuleWrapper, ends_bind, ends_get, ends_modify,
      ends_pure, Process.update, OrderedMap.touch_of_contains hcareful]
    exact ⟨hkept, rfl, rfl, rfl⟩
  | list => exact ⟨hkept, rfl, rfl, rfl⟩

/-- Every call of a run of careful calls is correct. -/
theorem correct_along {calls : List Call} (h : Runs.Along step Careful start calls) :
    Runs.Along step Correct start calls := by
  refine Runs.along_of_invariant step ?_ ?_ reached_start h
  · intro call running hreached hcareful
    exact (careful_step hreached hcareful).2
  · intro call running hreached hcareful
    exact (careful_step hreached hcareful).1

def oneModule : LibraryFile where
  opens := true
  creates := true
  starts := true
  getName := some "Management"
  listModules := some ["Module"]
  getModule := fun _ => .found
  stops := true

def withoutModules : LibraryFile := { oneModule with listModules := none }

def directoryOf (path : String) (library : LibraryFile) : ModuleDirectory where
  files := [(path, library)]
  distinct := by simp

def oneFails : ModuleDirectory where
  files := [("a.so", oneModule), ("b.so", { oneModule with starts := false })]
  distinct := by decide

/-- The libraries are loaded, the module is looked up, the manager is terminated, and
everything is unloaded. -/
theorem correct_along_shutdown :
    Runs.Along step Correct start
      [.load oneFails fun _ => true, .getModule "Module", .monitor, .terminate,
        .unload fun _ => true] := by
  refine correct_along ⟨⟨Or.inr ⟨⟨rfl, _, _, rfl, rfl, fun _ _ => rfl⟩, Or.inl rfl⟩, ?_⟩, ?_,
    trivial, trivial, fun _ _ _ => rfl, trivial⟩
  · intro file _
    rfl
  · change OrderedMap.contains _ _ = true
    decide +kernel

/-- A query for an unknown module lists it; a library that fails after it was entered
is listed, and stopped a second time by `unload`; a second load ends the wrapper of the
first, whose module stays listed under a name that the second library does not list; a
query for an unknown path makes `unload` follow a null pointer. -/
theorem careless_calls :
    ¬ Correct (.getModule "unknown") start ∧
      (step (.getModule "unknown") start).process.manager.listModules = ["unknown"] ∧
      (step (.load (directoryOf "a.so" withoutModules) fun _ => true)
        start).process.manager.listModuleFiles = ["a.so"] ∧
      (Runs.run step start [.load (directoryOf "a.so" withoutModules) fun _ => true,
        .unload fun _ => true]).process.events =
          [.unloaded 0, .stopped 0, .failed 0, .stopped 0] ∧
      (Runs.run step start [.load (directoryOf "a.so" oneModule) fun _ => true,
        .load (directoryOf "a.so" { oneModule with listModules := some [] })
          fun _ => true]).process.events = [.loaded 1, .unloaded 0, .loaded 0] ∧
      (Runs.run step start [.load (directoryOf "a.so" oneModule) fun _ => true,
        .load (directoryOf "a.so" { oneModule with listModules := some [] })
          fun _ => true]).process.manager.loadedModules.lookup "Module" = some (some 0) ∧
      (Runs.run step start [.getModuleWrapper "unknown", .unload fun _ => true]).crashed =
        true := by
  refine ⟨?_, by decide +kernel, by decide +kernel, by decide +kernel, by decide +kernel,
    by decide +kernel, by decide +kernel⟩
  intro h
  obtain ⟨library, hnull, -⟩ := h.truthful.modules "unknown" none (by decide +kernel)
  contradiction

end Keto.Module.TruthfulMaps
