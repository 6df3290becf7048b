import Keto.Library.OrderedMap
import Keto.Library.Stateful
import Mathlib.Data.String.Basic

/-!
The module manager: the libraries it has loaded with their management interfaces
and modules, each in a map of its own, and its life cycle. Loading a library is
a chain of calls on it, each of which may throw; what they do is a parameter.
Every attempt to load a library gets a number, which the pointers to its
wrapper, its interface and its modules are known by. The history of what was
done to libraries is kept beside the manager.
-/
namespace Keto.Module

open Library Library.Stateful

inductive State
  | inited
  | loading
  | loaded
  | unloading
  | unloaded
  | monitoring
  | terminated
  deriving DecidableEq, Repr

inductive ModuleException
  | moduleLoad (libraryPath : String)
  /-- What a library threw. -/
  | library
  /-- A null pointer was followed; the process ends. -/
  | nullPointer
  deriving DecidableEq, Repr

/-- The pointers of the maps, by the library they belong to. -/
abbrev Pointer := Option ℕ

structure ModuleManager where
  currentState : State
  loadedLibraryModuleManagers : OrderedMap String Pointer
  loadedModuleManagementInterfaces : OrderedMap String Pointer
  loadedModules : OrderedMap String Pointer

/-- `stopped` is a call of `stop`. `unloaded` is one of the wrapper's `unload`, or the end
of the wrapper, whose member unloads the library as well. -/
inductive LibraryEvent
  | loaded (library : ℕ)
  | failed (library : ℕ)
  | stopped (library : ℕ)
  | unloaded (library : ℕ)
  deriving DecidableEq, Repr

/-- The manager, the number of libraries it tried to load, and the events, latest first. -/
structure Process where
  manager : ModuleManager
  created : ℕ
  events : List LibraryEvent

inductive ModuleAnswer
  | throws
  | null
  | found
  deriving DecidableEq, Repr

/-- What an attempt to load a library meets: whether the constructor of the wrapper,
`load`, `start` and `stop` return, and what `getName`, `listModules` and
`getModule` answer. -/
structure LibraryFile where
  opens : Bool
  creates : Bool
  starts : Bool
  getName : Option String
  listModules : Option (List String)
  getModule : String → ModuleAnswer
  stops : Bool

/-- The files of the module directory, in their order; no two have one path. -/
structure ModuleDirectory where
  files : List (String × LibraryFile)
  distinct : (files.map Prod.fst).Nodup

abbrev Managing := EStateM ModuleException Process

def call (returns : Bool) : Managing PUnit := if returns then pure ⟨⟩ else throw .library

def answer {α : Type} : Option α → Managing α
  | some a => pure a
  | none => throw .library

def follow : Pointer → Managing ℕ
  | some library => pure library
  | none => throw .nullPointer

namespace Process

def record (event : LibraryEvent) (process : Process) : Process :=
  { process with events := event :: process.events }

def update (f : ModuleManager → ModuleManager) (process : Process) : Process :=
  { process with manager := f process.manager }

end Process

namespace ModuleManager

def start : Process where
  manager := ⟨.inited, OrderedMap.empty, OrderedMap.empty, OrderedMap.empty⟩
  created := 0
  events := []

def setState (state : State) : Managing PUnit :=
  modify (Process.update fun manager =>
    if manager.currentState = .terminated then manager
    else { manager with currentState := state })

def addLibrary (path : String) (library : ℕ) (manager : ModuleManager) : ModuleManager :=
  { manager with
    loadedLibraryModuleManagers :=
      manager.loadedLibraryModuleManagers.insert path (some library) }

/-- A wrapper that is entered ends the one it replaces; nobody else keeps one. -/
def enterLibrary (path : String) (library : ℕ) (process : Process) : Process :=
  let entered := process.update (addLibrary path library)
  match process.manager.loadedLibraryModuleManagers.lookup path with
  | some (some replaced) => entered.record (.unloaded replaced)
  | _ => entered

/-- A load that throws lets go of its wrapper, which ends unless it was entered. -/
def dropWrapper (path : String) (library : ℕ) (process : Process) : Process :=
  if process.manager.loadedLibraryModuleManagers.lookup path = some (some library) then process
  else process.record (.unloaded library)

def addInterface (name : String) (library : ℕ) (manager : ModuleManager) : ModuleManager :=
  { manager with
    loadedModuleManagementInterfaces :=
      manager.loadedModuleManagementInterfaces.insert name (some library) }

def addModule (name : String) (module : Pointer) (manager : ModuleManager) : ModuleManager :=
  { manager with loadedModules := manager.loadedModules.insert name module }

def getLibraryModule (library : LibraryFile) (number : ℕ) (name : String) : Managing Pointer :=
  match library.getModule name with
  | .throws => throw .library
  | .null => pure none
  | .found => pure (some number)

/-- The locked section, which adds a started library to the maps. -/
def addToContainers (path : String) (library : LibraryFile) (number : ℕ) : Managing PUnit := do
  modify (enterLibrary path number)
  let name ← answer library.getName
  modify (Process.update (addInterface name number))
  let modules ← answer library.listModules
  modules.forM fun name => do
    let module ← getLibraryModule library number name
    modify (Process.update (addModule name module))

/-- `load(libraryPath)`: an interface that was created is stopped when anything throws. -/
def loadLibrary (path : String) (library : LibraryFile) : Managing PUnit := do
  let number := (← get).created
  modify fun process => { process with created := number + 1 }
  tryCatch
    (do
      call library.opens
      call library.creates
      call library.starts
      addToContainers path library number
      modify (Process.record (.loaded number)))
    fun _ => do
      if library.opens && library.creates then
        modify (Process.record (.stopped number))
      if library.opens then
        modify (dropWrapper path number)
      modify (Process.record (.failed number))
      if library.opens && library.creates then
        call library.stops
      throw (.moduleLoad path)

def load (directory : ModuleDirectory) (postStarts : ℕ → Bool) : Managing PUnit := do
  setState .loading
  directory.files.forM fun file => loadLibrary file.1 file.2
  let libraries := (← get).manager.loadedLibraryModuleManagers
  libraries.entries.forM fun entry => do
    let library ← follow entry.2
    call (postStarts library)
  setState .loaded

def clear (manager : ModuleManager) : ModuleManager :=
  ⟨manager.currentState, OrderedMap.empty, OrderedMap.empty, OrderedMap.empty⟩

/-- Everything is stopped before the maps are cleared and the libraries unloaded. -/
def unload (stops : ℕ → Bool) : Managing PUnit := do
  setState .unloading
  let loadedLibraryModule := (← get).manager.loadedLibraryModuleManagers
  loadedLibraryModule.entries.reverse.forM fun entry => do
    let library ← follow entry.2
    modify (Process.record (.stopped library))
    call (stops library)
  modify (Process.update clear)
  loadedLibraryModule.entries.reverse.forM fun entry => do
    let library ← follow entry.2
    modify (Process.record (.unloaded library))
  setState .unloaded

def terminate : Managing PUnit :=
  modify (Process.update fun manager => { manager with currentState := .terminated })

/-- The loop of `checkForReload`; `changed` is what `requireReload` says. -/
def anyChanged (changed : ℕ → Bool) : List (String × Pointer) → Managing Bool
  | [] => pure false
  | entry :: entries => do
    let library ← follow entry.2
    if changed library then pure true else anyChanged changed entries

structure Turn where
  changed : ℕ → Bool
  stops : ℕ → Bool
  directory : ModuleDirectory
  postStarts : ℕ → Bool

/-- One turn of the loop of `monitor`, which ends once the manager is terminated. -/
def monitorTurn (turn : Turn) : Managing PUnit := do
  if (← get).manager.currentState = .terminated then
    pure ⟨⟩
  else
    let reload ← anyChanged turn.changed (← get).manager.loadedLibraryModuleManagers.entries
    if reload then
      unload turn.stops
      load turn.directory turn.postStarts
      setState .monitoring
    else
      pure ⟨⟩

/-- The subscript leaves a null pointer under a name that is not there. -/
def getModule (name : String) : Managing Pointer := do
  let module := ((← get).manager.loadedModules.lookup name).getD none
  modify (Process.update fun manager =>
    { manager with loadedModules := manager.loadedModules.touch name none })
  return module

def getModuleManagementInterface (name : String) : Managing Pointer := do
  let interface := ((← get).manager.loadedModuleManagementInterfaces.lookup name).getD none
  modify (Process.update fun manager =>
    { manager with loadedModuleManagementInterfaces :=
      manager.loadedModuleManagementInterfaces.touch name none })
  return interface

def getModuleWrapper (path : String) : Managing Pointer := do
  let wrapper := ((← get).manager.loadedLibraryModuleManagers.lookup path).getD none
  modify (Process.update fun manager =>
    { manager with loadedLibraryModuleManagers :=
      manager.loadedLibraryModuleManagers.touch path none })
  return wrapper

def listModules (manager : ModuleManager) : List String := manager.loadedModules.keys

def listModuleManagementInterfaces (manager : ModuleManager) : List String :=
  manager.loadedModuleManagementInterfaces.keys

def listModuleFiles (manager : ModuleManager) : List String :=
  manager.loadedLibraryModuleManagers.keys

end ModuleManager

section Rules

variable {raised : ModuleException → Process → Prop} {process : Process}

@[simp] theorem ends_call {post : PUnit → Process → Prop} (returns : Bool) :
    Ends (call returns) post raised process ↔
      (returns = true → post ⟨⟩ process) ∧ (returns = false → raised .library process) := by
  cases returns with
  | true => simp [call]
  | false => simp [call]

@[simp] theorem ends_answer {α : Type} {post : α → Process → Prop} (given : Option α) :
    Ends (answer given) post raised process ↔
      (∀ a, given = some a → post a process) ∧ (given = none → raised .library process) := by
  cases given with
  | some a => simp [answer]
  | none => simp [answer]

@[simp] theorem ends_follow {post : ℕ → Process → Prop} (pointer : Pointer) :
    Ends (follow pointer) post raised process ↔
      (∀ library, pointer = some library → post library process) ∧
        (pointer = none → raised .nullPointer process) := by
  cases pointer with
  | some library => simp [follow]
  | none => simp [follow]

end Rules

end Keto.Module
