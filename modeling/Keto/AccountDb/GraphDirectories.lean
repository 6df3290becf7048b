import Keto.AccountDb.StoreSteps

/-!
The graph stores over a file system. A name is a path below the base directory, and
two names may be one path; whether a store exists is whether its path does. The file
system and the opening of a storage are parameters. Where every name has a directory
of its own, the manager is the one of the account store.
-/
namespace Keto.AccountDb

open Protocol Library Library.Stateful

inductive GraphStoreException
  | invalidDBName (what : Bytes)
  | initFailure
  /-- What the file system threw. -/
  | filesystem
  | duplicateGraphDB (what : Bytes)
  deriving DecidableEq, Repr

/-- `graphBaseDir` is `none` where it is not configured, `append` the operator `/` of paths. -/
structure GraphDirectories (Path Disk : Type) where
  graphBaseDir : Option Path
  append : Path → Bytes → Path
  pathExists : Path → Disk → Except GraphStoreException Bool
  createDirectory : Path → EStateM GraphStoreException Disk PUnit
  /-- Whether the graph library makes the storage and the model. -/
  newModel : Bytes → Path → Disk → Bool × Disk

variable {Path Disk : Type} (directories : GraphDirectories Path Disk)

/-- What is relied on: a path is there once it is made, and none goes away. -/
structure GraphDirectories.Lasting : Prop where
  made : ∀ path disk disk', directories.createDirectory path disk = .ok ⟨⟩ disk' →
    directories.pathExists path disk' = .ok true
  keptByDirectory : ∀ path other disk, directories.pathExists path disk = .ok true →
    directories.pathExists path (after (directories.createDirectory other) disk) = .ok true
  keptByModel : ∀ path dbName other disk, directories.pathExists path disk = .ok true →
    directories.pathExists path (directories.newModel dbName other disk).2 = .ok true

namespace AccountGraphStore

def baseDirectory : Except GraphStoreException Path :=
  match directories.graphBaseDir with
  | some graphBaseDir => .ok graphBaseDir
  | none => .error (.invalidDBName
      (text "The graph db base directory is not configured : graph_base_dir"))

def checkForDb (dbName : Bytes) (disk : Disk) : Except GraphStoreException Bool := do
  let graphBaseDir ← baseDirectory directories
  if !(← directories.pathExists graphBaseDir disk) then return false
  directories.pathExists (directories.append graphBaseDir dbName) disk

def requireDirectory (path : Path) : EStateM GraphStoreException Disk PUnit := do
  let present ← fromExcept (directories.pathExists path (← get))
  if !present then directories.createDirectory path

def create (dbName : Bytes) : EStateM GraphStoreException Disk PUnit := do
  let graphBaseDir ← fromExcept (baseDirectory directories)
  requireDirectory directories graphBaseDir
  let dbPath := directories.append graphBaseDir dbName
  requireDirectory directories dbPath
  let result := directories.newModel dbName dbPath (← get)
  set result.2
  if !result.1 then throw .initFailure

end AccountGraphStore

structure GraphStoreManager (Disk : Type) where
  graphs : Bytes → Option AccountGraphStore
  disk : Disk
  opened : ℕ

namespace GraphStoreManager

def openCached (dbName : Bytes) (manager : GraphStoreManager Disk) :
    Except GraphStoreException AccountGraphStore × GraphStoreManager Disk :=
  match AccountGraphStore.create directories dbName manager.disk with
  | .ok _ disk =>
    let result : AccountGraphStore := ⟨manager.opened, dbName⟩
    (.ok result, ⟨Function.update manager.graphs baseGraph (some result), disk,
      manager.opened + 1⟩)
  | .error exception disk => (.error exception, { manager with disk := disk })

def checkForDb (dbName : Bytes) (manager : GraphStoreManager Disk) :
    Except GraphStoreException Bool :=
  if (manager.graphs dbName).isSome then .ok true
  else AccountGraphStore.checkForDb directories dbName manager.disk

def create (disk : Disk) : Except GraphStoreException (GraphStoreManager Disk) := do
  let manager : GraphStoreManager Disk := ⟨fun _ => none, disk, 0⟩
  if ← manager.checkForDb directories baseGraph then
    let result := manager.openCached directories baseGraph
    discard result.1
    return result.2
  return manager

def get (dbName : Bytes) (manager : GraphStoreManager Disk) :
    Except GraphStoreException (Option AccountGraphStore) × GraphStoreManager Disk :=
  match manager.graphs dbName with
  | some graphStore => (.ok (some graphStore), manager)
  | none =>
    match AccountGraphStore.checkForDb directories dbName manager.disk with
    | .error exception => (.error exception, manager)
    | .ok false => (.ok none, manager)
    | .ok true =>
      let result := manager.openCached directories dbName
      (result.1.map some, result.2)

def createStore (dbName : Bytes) (manager : GraphStoreManager Disk) :
    Except GraphStoreException AccountGraphStore × GraphStoreManager Disk :=
  match AccountGraphStore.checkForDb directories dbName manager.disk with
  | .error exception => (.error exception, manager)
  | .ok true =>
    (.error (.duplicateGraphDB (text "Graph db has been created by this name : " ++ dbName)),
      manager)
  | .ok false => manager.openCached directories dbName

variable {directories}

theorem openCached_of_constructs {manager : GraphStoreManager Disk} {dbName : Bytes} {disk : Disk}
    (h : AccountGraphStore.create directories dbName manager.disk = .ok ⟨⟩ disk) :
    manager.openCached directories dbName =
      (.ok ⟨manager.opened, dbName⟩, ⟨Function.update manager.graphs baseGraph
        (some ⟨manager.opened, dbName⟩), disk, manager.opened + 1⟩) := by
  rw [openCached, h]

theorem openCached_of_throws {manager : GraphStoreManager Disk} {dbName : Bytes} {disk : Disk}
    {exception : GraphStoreException}
    (h : AccountGraphStore.create directories dbName manager.disk = .error exception disk) :
    manager.openCached directories dbName = (.error exception, { manager with disk := disk }) := by
  rw [openCached, h]

theorem get_of_cached {manager : GraphStoreManager Disk} {dbName : Bytes}
    {graphStore : AccountGraphStore} (h : manager.graphs dbName = some graphStore) :
    manager.get directories dbName = (.ok (some graphStore), manager) := by
  rw [GraphStoreManager.get, h]

theorem get_of_missing {manager : GraphStoreManager Disk} {dbName : Bytes}
    (hcache : manager.graphs dbName = none)
    (hdisk : AccountGraphStore.checkForDb directories dbName manager.disk = .ok false) :
    manager.get directories dbName = (.ok none, manager) := by
  rw [GraphStoreManager.get, hcache, hdisk]

theorem get_of_unknown {manager : GraphStoreManager Disk} {dbName : Bytes}
    {exception : GraphStoreException} (hcache : manager.graphs dbName = none)
    (hdisk : AccountGraphStore.checkForDb directories dbName manager.disk = .error exception) :
    manager.get directories dbName = (.error exception, manager) := by
  rw [GraphStoreManager.get, hcache, hdisk]

theorem get_of_stored {manager : GraphStoreManager Disk} {dbName : Bytes}
    (hcache : manager.graphs dbName = none)
    (hdisk : AccountGraphStore.checkForDb directories dbName manager.disk = .ok true) :
    manager.get directories dbName = ((manager.openCached directories dbName).1.map some,
      (manager.openCached directories dbName).2) := by
  rw [GraphStoreManager.get, hcache, hdisk]

theorem createStore_of_missing {manager : GraphStoreManager Disk} {dbName : Bytes}
    (hdisk : AccountGraphStore.checkForDb directories dbName manager.disk = .ok false) :
    manager.createStore directories dbName = manager.openCached directories dbName := by
  rw [createStore, hdisk]

theorem createStore_of_not_missing {manager : GraphStoreManager Disk} {dbName : Bytes}
    (hdisk : AccountGraphStore.checkForDb directories dbName manager.disk ≠ .ok false) :
    (manager.createStore directories dbName).2 = manager := by
  rw [createStore]
  cases hcheck : AccountGraphStore.checkForDb directories dbName manager.disk with
  | error exception => rfl
  | ok present =>
    cases present with
    | true => rfl
    | false => exact absurd hcheck hdisk

end GraphStoreManager

variable {directories}

/-- A store is there when its path and the base directory are. -/
theorem AccountGraphStore.checkForDb_iff {graphBaseDir : Path}
    (hbase : baseDirectory directories = .ok graphBaseDir) (dbName : Bytes) (disk : Disk) :
    checkForDb directories dbName disk = .ok true ↔
      directories.pathExists graphBaseDir disk = .ok true ∧
        directories.pathExists (directories.append graphBaseDir dbName) disk = .ok true := by
  rw [checkForDb, hbase, Fallible.bind_ok rfl]
  cases directories.pathExists graphBaseDir disk with
  | error exception => simp [bind, Except.bind]
  | ok present => cases present <;> simp [bind, Except.bind, pure, Except.pure]

section Lasting

variable (hlasting : directories.Lasting)
include hlasting

/-- A directory that is required is there, and what was there still is. -/
theorem ends_requireDirectory (path : Path) (disk : Disk) :
    Ends (AccountGraphStore.requireDirectory directories path)
      (fun _ disk' => directories.pathExists path disk' = .ok true ∧
        ∀ other, directories.pathExists other disk = .ok true →
          directories.pathExists other disk' = .ok true)
      (fun _ disk' => ∀ other, directories.pathExists other disk = .ok true →
        directories.pathExists other disk' = .ok true) disk := by
  rw [AccountGraphStore.requireDirectory, ends_bind, ends_get, ends_bind, ends_fromExcept]
  refine ⟨?_, fun _ _ other hother => hother⟩
  intro present hpresent
  cases present with
  | true => exact ⟨hpresent, fun other hother => hother⟩
  | false =>
    have hkept := fun other => hlasting.keptByDirectory other path disk
    change Ends (directories.createDirectory path) _ _ disk
    cases hcreate : directories.createDirectory path disk with
    | ok _ disk' =>
      rw [ends_of_ok hcreate]
      rw [after_of_ok hcreate] at hkept
      exact ⟨hlasting.made path disk disk' hcreate, hkept⟩
    | error exception disk' =>
      rw [ends_of_error hcreate]
      rw [after_of_error hcreate] at hkept
      exact hkept

/-- The constructor leaves a store of its name, and every store that was there. -/
theorem ends_create (dbName : Bytes) (disk : Disk) :
    Ends (AccountGraphStore.create directories dbName)
      (fun _ disk' => AccountGraphStore.checkForDb directories dbName disk' = .ok true ∧
        ∀ other, AccountGraphStore.checkForDb directories other disk = .ok true →
          AccountGraphStore.checkForDb directories other disk' = .ok true)
      (fun _ disk' => ∀ other, AccountGraphStore.checkForDb directories other disk = .ok true →
        AccountGraphStore.checkForDb directories other disk' = .ok true) disk := by
  cases hbase : directories.graphBaseDir with
  | none =>
    have hthrows : AccountGraphStore.baseDirectory directories = .error (.invalidDBName
        (text "The graph db base directory is not configured : graph_base_dir")) := by
      rw [AccountGraphStore.baseDirectory, hbase]
    rw [AccountGraphStore.create, ends_bind, hthrows, ends_fromExcept]
    exact ⟨by simp, fun _ _ other hother => hother⟩
  | some graphBaseDir =>
    have hreturns : AccountGraphStore.baseDirectory directories = .ok graphBaseDir := by
      rw [AccountGraphStore.baseDirectory, hbase]
    simp only [AccountGraphStore.checkForDb_iff hreturns]
    rw [AccountGraphStore.create, ends_bind, hreturns, ends_fromExcept]
    refine ⟨?_, by simp⟩
    rintro _ ⟨⟩
    rw [ends_bind]
    refine (ends_requireDirectory hlasting graphBaseDir disk).mono ?_ ?_
    · rintro _ based ⟨hmade, hbased⟩
      rw [ends_bind]
      refine (ends_requireDirectory hlasting _ based).mono ?_ ?_
      · rintro _ pathed ⟨hpath, hpathed⟩
        have hmodel := fun path => hlasting.keptByModel path dbName
          (directories.append graphBaseDir dbName) pathed
        have hkept : ∀ path, directories.pathExists path disk = .ok true →
            directories.pathExists path (directories.newModel dbName
              (directories.append graphBaseDir dbName) pathed).2 = .ok true :=
          fun path hother => hmodel path (hpathed path (hbased path hother))
        rw [ends_bind, ends_get]
        cases hresult : (directories.newModel dbName
            (directories.append graphBaseDir dbName) pathed).1 with
        | true =>
          simp only [hresult, Bool.not_true, Bool.false_eq_true, if_false]
          exact ⟨⟨hmodel _ (hpathed _ hmade), hmodel _ hpath⟩,
            fun other hother => ⟨hkept _ hother.1, hkept _ hother.2⟩⟩
        | false =>
          simp only [hresult, Bool.not_false, if_true]
          exact fun other hother => ⟨hkept _ hother.1, hkept _ hother.2⟩
      · intro _ pathed hpathed other hother
        exact ⟨hpathed _ (hbased _ hother.1), hpathed _ (hbased _ hother.2)⟩
    · intro _ based hbased other hother
      exact ⟨hbased _ hother.1, hbased _ hother.2⟩

end Lasting

section Named

variable {Graph : Type} (librdf : Librdf Graph)

/-- Directories in which every name has one of its own; the base directory is there. -/
def GraphDirectories.named : GraphDirectories (Option Bytes) (Bytes → Option Graph) where
  graphBaseDir := some none
  append := fun _ dbName => some dbName
  pathExists := fun path databases =>
    match path with
    | none => .ok true
    | some dbName => .ok (databases dbName).isSome
  createDirectory := fun path databases =>
    match path with
    | none => .ok ⟨⟩ databases
    | some dbName => .ok ⟨⟩ (Function.update databases dbName (some librdf.newModel))
  newModel := fun _ _ databases => (true, databases)

def AccountGraphStoreManager.overNames (manager : AccountGraphStoreManager Graph) :
    GraphStoreManager (Bytes → Option Graph) :=
  ⟨manager.graphs, manager.databases, manager.opened⟩

theorem checkForDb_named (dbName : Bytes) (databases : Bytes → Option Graph) :
    AccountGraphStore.checkForDb (.named librdf) dbName databases =
      .ok (databases dbName).isSome := rfl

theorem create_named (dbName : Bytes) (databases : Bytes → Option Graph) :
    AccountGraphStore.create (.named librdf) dbName databases =
      .ok ⟨⟩ (Function.update databases dbName
        (some ((databases dbName).getD librdf.newModel))) := by
  have hrequire : AccountGraphStore.create (.named librdf) dbName databases =
      (AccountGraphStore.requireDirectory (.named librdf) (some dbName)) databases := by
    rw [AccountGraphStore.create]
    change (AccountGraphStore.requireDirectory (.named librdf) (some dbName) >>= _) databases = _
    cases h : AccountGraphStore.requireDirectory (.named librdf) (some dbName) databases with
    | ok _ databases' => exact bind_ok h _
    | error exception databases' => exact bind_error h _
  rw [hrequire]
  cases hdisk : databases dbName with
  | none =>
    change (if (!(databases dbName).isSome) = true then _ else _ : EStateM _ _ PUnit) databases = _
    rw [hdisk]
    rfl
  | some graph =>
    change (if (!(databases dbName).isSome) = true then _ else _ : EStateM _ _ PUnit) databases = _
    rw [hdisk, Option.getD_some, Function.update_eq_self_iff.mpr hdisk.symm]
    rfl

namespace GraphStoreManager

variable (dbName : Bytes) (manager : AccountGraphStoreManager Graph)

theorem openCached_named :
    manager.overNames.openCached (.named librdf) dbName =
      (.ok (manager.openCached librdf dbName).1,
        (manager.openCached librdf dbName).2.overNames) := by
  rw [openCached, AccountGraphStoreManager.overNames, create_named]
  rfl

theorem checkForDb_named :
    manager.overNames.checkForDb (.named librdf) dbName = .ok (manager.checkForDb dbName) := by
  cases hcache : manager.graphs dbName <;>
    simp [checkForDb, AccountGraphStoreManager.checkForDb, AccountGraphStoreManager.overNames,
      Keto.AccountDb.checkForDb_named, hcache]

theorem create_named (databases : Bytes → Option Graph) :
    create (.named librdf) databases =
      .ok (AccountGraphStoreManager.create librdf databases).overNames := by
  have hcheck := checkForDb_named librdf baseGraph
    (⟨fun _ => none, databases, 0⟩ : AccountGraphStoreManager Graph)
  have hopen := openCached_named librdf baseGraph
    (⟨fun _ => none, databases, 0⟩ : AccountGraphStoreManager Graph)
  rw [AccountGraphStoreManager.overNames] at hcheck hopen
  rw [create, AccountGraphStoreManager.create, Fallible.bind_ok hcheck, hopen]
  cases hdisk : (databases baseGraph).isSome with
  | true =>
    simp only [AccountGraphStoreManager.checkForDb, hdisk, Bool.or_true, if_true]
    rfl
  | false =>
    simp only [AccountGraphStoreManager.checkForDb, hdisk, Bool.or_false, Option.isSome_none,
      Bool.false_eq_true, if_false]
    rfl

theorem get_named :
    manager.overNames.get (.named librdf) dbName =
      (.ok (manager.get librdf dbName).1, (manager.get librdf dbName).2.overNames) := by
  cases hcache : manager.graphs dbName with
  | some graphStore =>
    rw [AccountGraphStoreManager.get_of_cached hcache, get]
    simp [AccountGraphStoreManager.overNames, hcache]
  | none =>
    rw [get, AccountGraphStoreManager.get]
    by_cases hdisk : (manager.databases dbName).isSome = true
    · have hopen := openCached_named librdf dbName manager
      rw [AccountGraphStoreManager.overNames] at hopen
      simp [AccountGraphStoreManager.overNames, hcache, Keto.AccountDb.checkForDb_named, hdisk,
        hopen, Except.map]
    · simp [AccountGraphStoreManager.overNames, hcache, Keto.AccountDb.checkForDb_named, hdisk]

/-- A duplicate is refused in the same words. -/
theorem createStore_named :
    manager.overNames.createStore (.named librdf) dbName =
      ((manager.createStore librdf dbName).1.mapError fun _ =>
          .duplicateGraphDB (text "Graph db has been created by this name : " ++ dbName),
        (manager.createStore librdf dbName).2.overNames) := by
  rw [createStore, AccountGraphStoreManager.createStore]
  by_cases hdisk : (manager.databases dbName).isSome = true
  · simp [AccountGraphStoreManager.overNames, Keto.AccountDb.checkForDb_named, hdisk,
      Except.mapError]
  · have hopen := openCached_named librdf dbName manager
    rw [AccountGraphStoreManager.overNames] at hopen
    simp [AccountGraphStoreManager.overNames, Keto.AccountDb.checkForDb_named, hdisk, hopen,
      Except.mapError]

end GraphStoreManager

end Named

end Keto.AccountDb
