import Keto.AccountDb.GraphDirectories
import Keto.Library.Runs

/-!
What graph names resolve to over a run of calls of the graph store manager.
Every store that is opened is cached under the name of the base graph, so the
names resolve as they should exactly until a store of another graph is opened.
-/
namespace Keto.AccountDb.GraphStoreCache

open Protocol Library Library.Runs Library.Stateful GraphStoreManager

variable {Path Disk : Type} (directories : GraphDirectories Path Disk)

inductive CacheOp
  | checkForDb (dbName : Bytes)
  | createStore (dbName : Bytes)
  | lookup (dbName : Bytes)

def CacheOp.dbName : CacheOp → Bytes
  | .checkForDb dbName => dbName
  | .createStore dbName => dbName
  | .lookup dbName => dbName

structure Observed (Disk : Type) where
  manager : GraphStoreManager Disk
  found : Bytes → Option AccountGraphStore

def resolves (manager : GraphStoreManager Disk) (dbName : Bytes) :
    Except GraphStoreException (Option AccountGraphStore) :=
  (manager.get directories dbName).1

def step : CacheOp → Observed Disk → Observed Disk
  | .checkForDb _, s => s
  | .createStore dbName, s => { s with manager := (s.manager.createStore directories dbName).2 }
  | .lookup dbName, s =>
    let result := s.manager.get directories dbName
    match result.1 with
    | .ok (some graphStore) => ⟨result.2, Function.update s.found dbName (some graphStore)⟩
    | _ => ⟨result.2, s.found⟩

def start (manager : GraphStoreManager Disk) : Observed Disk := ⟨manager, fun _ => none⟩

def Returns : CacheOp → Observed Disk → Prop
  | .checkForDb dbName, s => (s.manager.checkForDb directories dbName).isOk = true
  | .createStore dbName, s => (s.manager.createStore directories dbName).1.isOk = true
  | .lookup dbName, s => (s.manager.get directories dbName).1.isOk = true

/-- A store that a lookup returns has the name and is the one it returned before; nothing
is returned exactly when there is no such store. -/
def AnswersLookup (dbName : Bytes) (s : Observed Disk) : Prop :=
  (∀ graphStore, resolves directories s.manager dbName = .ok (some graphStore) →
    graphStore.dbName = dbName ∧
      ∀ earlier, s.found dbName = some earlier → graphStore = earlier) ∧
  (resolves directories s.manager dbName = .ok none ↔
    AccountGraphStore.checkForDb directories dbName s.manager.disk = .ok false)

/-- A call for another graph leaves what the base graph resolves to; one that throws is
only asked to while the base graph is open, since it may have made directories. -/
def KeepsBase (op : CacheOp) (s : Observed Disk) : Prop :=
  op.dbName ≠ baseGraph → Returns directories op s ∨ s.manager.graphs baseGraph ≠ none →
    resolves directories (step directories op s).manager baseGraph =
      resolves directories s.manager baseGraph

def Correct (op : CacheOp) (s : Observed Disk) : Prop :=
  (∀ dbName, op = .lookup dbName → AnswersLookup directories dbName s) ∧
    KeepsBase directories op s

def Constructs (dbName : Bytes) (disk : Disk) : Prop :=
  ∃ disk', AccountGraphStore.create directories dbName disk = .ok ⟨⟩ disk'

/-- The call opens the store of a graph that is not the base graph: it creates one
whose path is not there, or it looks up one whose path is. -/
def OpensOther : CacheOp → Observed Disk → Prop
  | .checkForDb _, _ => False
  | .createStore dbName, s => dbName ≠ baseGraph ∧
    AccountGraphStore.checkForDb directories dbName s.manager.disk = .ok false ∧
    Constructs directories dbName s.manager.disk
  | .lookup dbName, s => dbName ≠ baseGraph ∧
    AccountGraphStore.checkForDb directories dbName s.manager.disk = .ok true ∧
    Constructs directories dbName s.manager.disk

/-- Nothing but the base graph's own store is cached, and its path is there. -/
structure Coherent (s : Observed Disk) : Prop where
  onlyBase : ∀ dbName graphStore, s.manager.graphs dbName = some graphStore →
    dbName = baseGraph ∧ graphStore.dbName = baseGraph
  stored : s.manager.graphs baseGraph ≠ none →
    AccountGraphStore.checkForDb directories baseGraph s.manager.disk = .ok true
  found : ∀ dbName graphStore, s.found dbName = some graphStore →
    s.manager.graphs dbName = some graphStore

variable {directories}

/-- An open base graph resolves to its store. -/
theorem resolves_of_cached {manager : GraphStoreManager Disk} {dbName : Bytes}
    {graphStore : AccountGraphStore} (h : manager.graphs dbName = some graphStore) :
    resolves directories manager dbName = .ok (some graphStore) :=
  congrArg Prod.fst (get_of_cached h)

theorem Coherent.graphs_other {s : Observed Disk} (h : Coherent directories s) {dbName : Bytes}
    (hother : dbName ≠ baseGraph) : s.manager.graphs dbName = none := by
  cases hcache : s.manager.graphs dbName with
  | none => rfl
  | some graphStore => exact absurd (h.onlyBase dbName graphStore hcache).1 hother

/-- What the base graph resolves to is a store of its own name. -/
theorem Coherent.resolves_base {s : Observed Disk} (h : Coherent directories s)
    {graphStore : AccountGraphStore}
    (hresolves : resolves directories s.manager baseGraph = .ok (some graphStore)) :
    graphStore.dbName = baseGraph := by
  cases hcache : s.manager.graphs baseGraph with
  | some cached =>
    rw [resolves_of_cached hcache] at hresolves
    obtain rfl := Option.some.inj (Except.ok.inj hresolves)
    exact (h.onlyBase baseGraph cached hcache).2
  | none =>
    cases hcheck : AccountGraphStore.checkForDb directories baseGraph s.manager.disk with
    | error exception =>
      rw [resolves, get_of_unknown hcache hcheck] at hresolves
      cases hresolves
    | ok present =>
      cases present with
      | false =>
        rw [resolves, get_of_missing hcache hcheck] at hresolves
        cases hresolves
      | true =>
        rw [resolves, get_of_stored hcache hcheck] at hresolves
        cases hcreate : AccountGraphStore.create directories baseGraph s.manager.disk with
        | error exception disk =>
          rw [openCached_of_throws hcreate] at hresolves
          cases hresolves
        | ok _ disk =>
          rw [openCached_of_constructs hcreate] at hresolves
          obtain rfl := Option.some.inj (Except.ok.inj hresolves)
          rfl

section Lasting

variable (hlasting : directories.Lasting)
include hlasting

/-- Opening the base graph caches it under its own name; a constructor that throws
leaves what is cached. -/
theorem Coherent.openBase {s : Observed Disk} (h : Coherent directories s)
    (hcache : s.manager.graphs baseGraph = none) :
    Coherent directories
      { s with manager := (s.manager.openCached directories baseGraph).2 } := by
  have hends := ends_create hlasting baseGraph s.manager.disk
  have hnothing : ∀ dbName, s.manager.graphs dbName = none := by
    intro dbName
    by_cases hname : dbName = baseGraph
    · rw [hname, hcache]
    · exact h.graphs_other hname
  have hunfound : ∀ dbName graphStore, s.found dbName ≠ some graphStore := by
    intro dbName graphStore hfound
    exact absurd ((hnothing dbName).symm.trans (h.found dbName graphStore hfound)) (by simp)
  cases hcreate : AccountGraphStore.create directories baseGraph s.manager.disk with
  | ok _ disk =>
    rw [ends_of_ok hcreate] at hends
    rw [openCached_of_constructs hcreate]
    refine ⟨?_, fun _ => hends.1, fun dbName graphStore hfound => absurd hfound (hunfound _ _)⟩
    intro dbName graphStore hstore
    by_cases hname : dbName = baseGraph
    · subst hname
      simp only [Function.update_self] at hstore
      obtain rfl := Option.some.inj hstore
      exact ⟨rfl, rfl⟩
    · simp only [Function.update_of_ne hname] at hstore
      exact h.onlyBase dbName graphStore hstore
  | error exception disk =>
    rw [openCached_of_throws hcreate]
    exact ⟨h.onlyBase, fun hopen => absurd hcache hopen, h.found⟩

/-- A constructor that throws leaves the cache, and the paths that were there. -/
theorem Coherent.openThrows {s : Observed Disk} (h : Coherent directories s) {dbName : Bytes}
    {exception : GraphStoreException} {disk : Disk}
    (hcreate : AccountGraphStore.create directories dbName s.manager.disk =
      .error exception disk) :
    Coherent directories { s with manager := (s.manager.openCached directories dbName).2 } := by
  have hends := ends_create hlasting dbName s.manager.disk
  rw [ends_of_error hcreate] at hends
  rw [openCached_of_throws hcreate]
  exact ⟨h.onlyBase, fun hopen => hends baseGraph (h.stored hopen), h.found⟩

theorem coherent_start {disk : Disk} {manager : GraphStoreManager Disk}
    (h : GraphStoreManager.create directories disk = .ok manager) :
    Coherent directories (start manager) := by
  have hbare : Coherent directories (⟨⟨fun _ => none, disk, 0⟩, fun _ => none⟩ : Observed Disk) :=
    ⟨by simp, by simp, by simp⟩
  obtain ⟨present, -, hrest⟩ := Fallible.bind_eq_ok.mp h
  cases present with
  | false =>
    obtain rfl := Except.ok.inj hrest
    exact hbare
  | true =>
    have hopened := hbare.openBase hlasting rfl
    obtain ⟨⟨⟩, -, hmanager⟩ := Fallible.bind_eq_ok.mp hrest
    obtain rfl := Except.ok.inj hmanager
    exact hopened

theorem coherent_step (op : CacheOp) (s : Observed Disk) (h : Coherent directories s)
    (hop : ¬ OpensOther directories op s) : Coherent directories (step directories op s) := by
  cases op with
  | checkForDb dbName => exact h
  | createStore dbName =>
    rw [step]
    by_cases hmissing : AccountGraphStore.checkForDb directories dbName s.manager.disk = .ok false
    · rw [createStore_of_missing hmissing]
      by_cases hname : dbName = baseGraph
      · subst hname
        refine h.openBase hlasting ?_
        by_contra hopen
        exact absurd ((h.stored hopen).symm.trans hmissing) (by simp)
      · cases hcreate : AccountGraphStore.create directories dbName s.manager.disk with
        | ok _ disk => exact absurd ⟨hname, hmissing, disk, hcreate⟩ hop
        | error exception disk => exact h.openThrows hlasting hcreate
    · rw [createStore_of_not_missing hmissing]
      exact h
  | lookup dbName =>
    cases hcache : s.manager.graphs dbName with
    | some graphStore =>
      simp only [step, get_of_cached hcache]
      refine ⟨h.onlyBase, h.stored, ?_⟩
      intro name found hfound
      by_cases hname : name = dbName
      · subst hname
        simp only [Function.update_self] at hfound
        exact hcache.trans hfound
      · simp only [Function.update_of_ne hname] at hfound
        exact h.found name found hfound
    | none =>
      cases hcheck : AccountGraphStore.checkForDb directories dbName s.manager.disk with
      | error exception =>
        simp only [step, get_of_unknown hcache hcheck]
        exact h
      | ok present =>
        cases present with
        | false =>
          simp only [step, get_of_missing hcache hcheck]
          exact h
        | true =>
          cases hcreate : AccountGraphStore.create directories dbName s.manager.disk with
          | error exception disk =>
            have hthrows := h.openThrows hlasting hcreate
            simp only [step, get_of_stored hcache hcheck, openCached_of_throws hcreate,
              Except.map] at hthrows ⊢
            exact hthrows
          | ok _ disk =>
            obtain rfl : dbName = baseGraph := by
              by_contra hname
              exact hop ⟨hname, hcheck, disk, hcreate⟩
            have hopened := h.openBase hlasting hcache
            simp only [step, get_of_stored hcache hcheck, openCached_of_constructs hcreate,
              Except.map] at hopened ⊢
            refine ⟨hopened.onlyBase, hopened.stored, ?_⟩
            intro name found hfound
            by_cases hname : name = baseGraph
            · subst hname
              simp only [Function.update_self] at hfound ⊢
              exact hfound
            · simp only [Function.update_of_ne hname] at hfound
              exact hopened.found name found hfound

end Lasting

/-- While only the base graph has been opened a lookup that opens no other is answered right. -/
theorem Coherent.answersLookup {s : Observed Disk} (h : Coherent directories s) {dbName : Bytes}
    (hop : ¬ OpensOther directories (.lookup dbName) s) :
    AnswersLookup directories dbName s := by
  rw [AnswersLookup, resolves]
  cases hcache : s.manager.graphs dbName with
  | some graphStore =>
    obtain ⟨rfl, hname⟩ := h.onlyBase dbName graphStore hcache
    have hstored := h.stored (by simp [hcache])
    rw [get_of_cached hcache]
    refine ⟨?_, by simp [hstored]⟩
    rintro _ ⟨⟩
    refine ⟨hname, ?_⟩
    intro earlier hearlier
    exact Option.some.inj (hcache.symm.trans (h.found _ _ hearlier))
  | none =>
    have hunfound : ∀ earlier, s.found dbName ≠ some earlier := by
      intro earlier hfound
      exact absurd (hcache.symm.trans (h.found _ _ hfound)) (by simp)
    cases hcheck : AccountGraphStore.checkForDb directories dbName s.manager.disk with
    | error exception => simp [get_of_unknown hcache hcheck]
    | ok present =>
      cases present with
      | false => simp [get_of_missing hcache hcheck]
      | true =>
        cases hcreate : AccountGraphStore.create directories dbName s.manager.disk with
        | error exception disk =>
          simp [get_of_stored hcache hcheck, openCached_of_throws hcreate, Except.map]
        | ok _ disk =>
          simp [get_of_stored hcache hcheck, openCached_of_constructs hcreate, Except.map,
            hunfound]

theorem Coherent.keepsBase {s : Observed Disk} (h : Coherent directories s) {op : CacheOp}
    (hop : ¬ OpensOther directories op s) : KeepsBase directories op s := by
  intro hname hreturns
  -- A constructor that throws leaves the cache, in which the base graph then is.
  have hthrows : ∀ dbName exception disk,
      AccountGraphStore.create directories dbName s.manager.disk = .error exception disk →
      s.manager.graphs baseGraph ≠ none →
      resolves directories (s.manager.openCached directories dbName).2 baseGraph =
        resolves directories s.manager baseGraph := by
    intro dbName exception disk hcreate hopen
    obtain ⟨graphStore, hcache⟩ := Option.ne_none_iff_exists'.mp hopen
    rw [openCached_of_throws hcreate, resolves_of_cached hcache]
    exact resolves_of_cached hcache
  cases op with
  | checkForDb dbName => rfl
  | createStore dbName =>
    rw [step]
    by_cases hmissing : AccountGraphStore.checkForDb directories dbName s.manager.disk = .ok false
    · rw [createStore_of_missing hmissing]
      cases hcreate : AccountGraphStore.create directories dbName s.manager.disk with
      | ok _ disk => exact absurd ⟨hname, hmissing, disk, hcreate⟩ hop
      | error exception disk =>
        refine hthrows dbName exception disk hcreate (hreturns.resolve_left ?_)
        simp [Returns, createStore_of_missing hmissing, openCached_of_throws hcreate,
          Except.isOk, Except.toBool]
    · rw [createStore_of_not_missing hmissing]
  | lookup dbName =>
    have hcache : s.manager.graphs dbName = none := h.graphs_other hname
    cases hcheck : AccountGraphStore.checkForDb directories dbName s.manager.disk with
    | error exception => simp only [step, get_of_unknown hcache hcheck]
    | ok present =>
      cases present with
      | false => simp only [step, get_of_missing hcache hcheck]
      | true =>
        cases hcreate : AccountGraphStore.create directories dbName s.manager.disk with
        | ok _ disk => exact absurd ⟨hname, hcheck, disk, hcreate⟩ hop
        | error exception disk =>
          have hopen := hreturns.resolve_left (by
            simp [Returns, get_of_stored hcache hcheck, openCached_of_throws hcreate,
              Except.isOk, Except.toBool, Except.map])
          have hsame := hthrows dbName exception disk hcreate hopen
          simp only [step, get_of_stored hcache hcheck, openCached_of_throws hcreate,
            Except.map] at hsame ⊢
          exact hsame

/-- A store of another graph takes the place of the base graph's. -/
theorem Coherent.base_replaced {s : Observed Disk} (h : Coherent directories s) {dbName : Bytes}
    (hname : dbName ≠ baseGraph) {disk : Disk}
    (hcreate : AccountGraphStore.create directories dbName s.manager.disk = .ok ⟨⟩ disk) :
    resolves directories (s.manager.openCached directories dbName).2 baseGraph ≠
      resolves directories s.manager baseGraph := by
  rw [openCached_of_constructs hcreate]
  intro hsame
  have hopened : resolves directories
      ⟨Function.update s.manager.graphs baseGraph (some ⟨s.manager.opened, dbName⟩), disk,
        s.manager.opened + 1⟩ baseGraph = .ok (some ⟨s.manager.opened, dbName⟩) :=
    resolves_of_cached (by simp)
  exact hname (h.resolves_base (hsame.symm.trans hopened))

theorem Coherent.correct_iff {s : Observed Disk} (h : Coherent directories s) (op : CacheOp) :
    Correct directories op s ↔ ¬ OpensOther directories op s := by
  constructor
  · rintro ⟨_, hkeeps⟩ hop
    cases op with
    | checkForDb dbName => exact hop
    | createStore dbName =>
      obtain ⟨hname, hmissing, disk, hcreate⟩ := hop
      have hreturns : Returns directories (.createStore dbName) s := by
        simp [Returns, createStore_of_missing hmissing, openCached_of_constructs hcreate,
          Except.isOk, Except.toBool]
      have hsame := hkeeps hname (Or.inl hreturns)
      rw [step, createStore_of_missing hmissing] at hsame
      exact h.base_replaced hname hcreate hsame
    | lookup dbName =>
      obtain ⟨hname, hcheck, disk, hcreate⟩ := hop
      have hcache := h.graphs_other hname
      have hreturns : Returns directories (.lookup dbName) s := by
        simp [Returns, get_of_stored hcache hcheck, openCached_of_constructs hcreate,
          Except.isOk, Except.toBool, Except.map]
      have hsame := hkeeps hname (Or.inl hreturns)
      have hreplaced := h.base_replaced hname hcreate
      simp only [step, get_of_stored hcache hcheck, openCached_of_constructs hcreate,
        Except.map] at hsame hreplaced
      exact hreplaced hsame
  · intro hop
    refine ⟨?_, h.keepsBase hop⟩
    rintro dbName rfl
    exact h.answersLookup hop

/-- Over every run of a manager that was constructed on whatever is on disk, the calls
are answered right and leave the base graph alone exactly when none of them opens the
store of another graph. -/
theorem correct_along_iff (hlasting : directories.Lasting) {disk : Disk}
    {manager : GraphStoreManager Disk} (h : GraphStoreManager.create directories disk = .ok manager)
    (ops : List CacheOp) :
    Along (step directories) (Correct directories) (start manager) ops ↔
      Along (step directories) (fun op s => ¬ OpensOther directories op s) (start manager) ops :=
  along_iff_of_invariant (step directories) (fun op s h _ hop => coherent_step hlasting op s h hop)
    (fun op _ h _ => h.correct_iff op) (coherent_start hlasting h)
    (along_true (step directories) _ ops)

def plainDirectories : GraphDirectories (List Bytes) (List (List Bytes)) where
  graphBaseDir := some [text "graphs"]
  append := fun path dbName =>
    path ++ (dbName.splitOn 0x2f).filter fun component => component != [] && component != text "."
  pathExists := fun path disk => .ok (decide (path ∈ disk))
  createDirectory := fun path disk =>
    if path.dropLast ∈ disk then .ok ⟨⟩ (path :: disk) else .error .filesystem disk
  newModel := fun _ _ disk => (true, disk)

theorem lasting_plainDirectories : plainDirectories.Lasting where
  made := by
    intro path disk disk' h
    simp only [plainDirectories] at h
    split at h
    · obtain rfl : path :: disk = disk' := by simpa using h
      simp [plainDirectories]
    · simp at h
  keptByDirectory := by
    intro path other disk h
    by_cases hparent : other.dropLast ∈ disk
    · simp_all [plainDirectories, after]
    · simp_all [plainDirectories, after]
  keptByModel := fun _ _ _ _ h => h

def firstManager : GraphStoreManager (List (List Bytes)) := ⟨fun _ => none, [[]], 0⟩

/-- Two calls create the base graph, and find that it is there. -/
theorem correct_along_base :
    Along (step plainDirectories) (Correct plainDirectories) (start firstManager)
      [.createStore baseGraph, .lookup baseGraph] := by
  have hcreate : GraphStoreManager.create plainDirectories [[]] = .ok firstManager := rfl
  refine (correct_along_iff lasting_plainDirectories hcreate _).mpr ⟨?_, ?_, trivial⟩
  · exact fun h => h.1 rfl
  · exact fun h => h.1 rfl

/-- The base graph is created, then the graph of a second master account: the base
graph's name resolves to the second graph. A lookup of the empty name, whose path is
the base directory, does the same. -/
theorem second_graph_replaces_base :
    resolves plainDirectories
        (run (step plainDirectories) (start firstManager)
          [.createStore baseGraph, .createStore (text "CD")]).manager baseGraph =
      .ok (some ⟨1, text "CD"⟩) ∧
    resolves plainDirectories
        (run (step plainDirectories) (start firstManager)
          [.createStore baseGraph, .lookup []]).manager baseGraph =
      .ok (some ⟨1, []⟩) ∧
    ¬ Along (step plainDirectories) (Correct plainDirectories) (start firstManager)
      [.createStore baseGraph, .createStore (text "CD"), .lookup baseGraph] := by
  refine ⟨by decide +kernel, by decide +kernel, ?_⟩
  rintro ⟨_, ⟨_, hkeeps⟩, _⟩
  have hreturns : Returns plainDirectories (.createStore (text "CD"))
      (step plainDirectories (.createStore baseGraph) (start firstManager)) := by
    show _ = true
    decide +kernel
  exact absurd (hkeeps (by decide) (Or.inl hreturns)) (by decide +kernel)

end Keto.AccountDb.GraphStoreCache
