import Mathlib.Data.List.Lex
import Mathlib.Order.Lattice
import Mathlib.Data.List.Basic
import Mathlib.Tactic.Tauto

/-!
Maps and sets that keep their keys in order, as lists of entries with strictly
increasing keys. An entry is written, read or erased by its key; reading through
`touch` leaves a default behind under a key that had none, as the subscript of
a standard map does.
-/
namespace Keto.Library

namespace ByteOrder

/-- Bytes are compared as numbers; texts of bytes then lexicographically. -/
scoped instance byteOrder : LinearOrder UInt8 where
  le_refl := UInt8.le_refl
  le_trans := @UInt8.le_trans
  lt_iff_le_not_ge a b := by
    rw [UInt8.lt_iff_toNat_lt, UInt8.le_iff_toNat_le, UInt8.le_iff_toNat_le]
    omega
  le_antisymm := @UInt8.le_antisymm
  le_total := UInt8.le_total
  toDecidableLE := inferInstance
  toDecidableLT := inferInstance
  toDecidableEq := inferInstance

end ByteOrder

variable {κ α : Type*} [LinearOrder κ]

structure OrderedMap (κ α : Type*) [LinearOrder κ] where
  entries : List (κ × α)
  sorted : entries.Pairwise fun e f => e.1 < f.1

namespace OrderedMap

@[ext] theorem ext_entries {m n : OrderedMap κ α} (h : m.entries = n.entries) : m = n := by
  cases m
  cases n
  cases h
  rfl

def empty : OrderedMap κ α := ⟨[], List.Pairwise.nil⟩

instance [DecidableEq α] : DecidableEq (OrderedMap κ α) := fun m n =>
  decidable_of_iff (m.entries = n.entries) ⟨ext_entries, fun h => h ▸ rfl⟩

def insertEntry (key : κ) (value : α) : List (κ × α) → List (κ × α)
  | [] => [(key, value)]
  | entry :: rest =>
    if key < entry.1 then (key, value) :: entry :: rest
    else if key = entry.1 then (key, value) :: rest
    else entry :: insertEntry key value rest

theorem mem_insertEntry {key : κ} {value : α} {e : κ × α} {entries : List (κ × α)}
    (h : e ∈ insertEntry key value entries) : e = (key, value) ∨ e ∈ entries := by
  induction entries with
  | nil => exact Or.inl (List.mem_singleton.mp h)
  | cons entry rest ih =>
    simp only [insertEntry] at h
    split at h
    · simpa using h
    split at h
    · rcases List.mem_cons.mp h with h | h
      · exact Or.inl h
      · exact Or.inr (List.mem_cons_of_mem _ h)
    · rcases List.mem_cons.mp h with rfl | h
      · exact Or.inr List.mem_cons_self
      · exact (ih h).imp id (List.mem_cons_of_mem _)

theorem insertEntry_sorted (key : κ) (value : α) {entries : List (κ × α)}
    (h : entries.Pairwise fun e f => e.1 < f.1) :
    (insertEntry key value entries).Pairwise fun e f => e.1 < f.1 := by
  induction entries with
  | nil => exact List.pairwise_singleton _ _
  | cons entry rest ih =>
    obtain ⟨hentry, hrest⟩ := List.pairwise_cons.mp h
    simp only [insertEntry]
    split
    · rename_i hlt
      refine List.pairwise_cons.mpr ⟨?_, h⟩
      intro e he
      rcases List.mem_cons.mp he with rfl | he
      · exact hlt
      · exact hlt.trans (hentry e he)
    split
    · rename_i heq
      exact List.pairwise_cons.mpr ⟨fun e he => heq ▸ hentry e he, hrest⟩
    · rename_i hlt heq
      refine List.pairwise_cons.mpr ⟨?_, ih hrest⟩
      intro e he
      rcases mem_insertEntry he with rfl | he
      · exact lt_of_le_of_ne (not_lt.mp hlt) (Ne.symm heq)
      · exact hentry e he

def insert (m : OrderedMap κ α) (key : κ) (value : α) : OrderedMap κ α :=
  ⟨insertEntry key value m.entries, insertEntry_sorted key value m.sorted⟩

def erase (m : OrderedMap κ α) (key : κ) : OrderedMap κ α :=
  ⟨m.entries.filter fun e => e.1 ≠ key, m.sorted.filter _⟩

/-- The loop `for (i = first; i != last; i++)` over the positions of the map, `f` being
what it makes of the value there. -/
def mapRange (m : OrderedMap κ α) (first last : ℕ) (f : κ → α → α) : OrderedMap κ α where
  entries := m.entries.zipIdx.map fun e =>
    (e.1.1, if first ≤ e.2 ∧ e.2 < last then f e.1.1 e.1.2 else e.1.2)
  sorted := by
    have hkeys : (m.entries.zipIdx.map Prod.fst).Pairwise fun e f => e.1 < f.1 := by
      rw [List.zipIdx_map_fst]
      exact m.sorted
    rw [List.pairwise_map] at hkeys ⊢
    exact hkeys

def lookup (m : OrderedMap κ α) (key : κ) : Option α := m.entries.lookup key

def contains (m : OrderedMap κ α) (key : κ) : Bool := (m.lookup key).isSome

def keys (m : OrderedMap κ α) : List κ := m.entries.map Prod.fst

/-- Reading the subscript: an unknown key gets the default value. -/
def touch (m : OrderedMap κ α) (key : κ) (default : α) : OrderedMap κ α :=
  if m.contains key then m else m.insert key default

theorem lookup_cons (entry : κ × α) (rest : List (κ × α)) (key : κ) :
    (entry :: rest).lookup key = if key = entry.1 then some entry.2 else rest.lookup key := by
  obtain ⟨other, value⟩ := entry
  by_cases h : key = other
  · simp [h]
  · simp [List.lookup_cons, beq_false_of_ne h, h]

@[simp] theorem lookup_empty (key : κ) : (empty : OrderedMap κ α).lookup key = none := rfl

theorem lookup_insertEntry (key : κ) (value : α) (entries : List (κ × α)) (other : κ) :
    (insertEntry key value entries).lookup other =
      if other = key then some value else entries.lookup other := by
  induction entries with
  | nil => rw [insertEntry, lookup_cons]
  | cons entry rest ih =>
    simp only [insertEntry]
    split
    · rw [lookup_cons]
    split
    · rename_i heq
      rw [lookup_cons, lookup_cons]
      by_cases h : other = key
      · rw [if_pos h, if_pos h]
      · rw [if_neg h, if_neg h, if_neg (heq ▸ h)]
    · rename_i heq
      rw [lookup_cons, lookup_cons, ih]
      by_cases h : other = entry.1
      · rw [if_pos h, if_neg (fun hk => heq (hk.symm.trans h)), if_pos h]
      · rw [if_neg h, if_neg h]

theorem lookup_insert (m : OrderedMap κ α) (key : κ) (value : α) (other : κ) :
    (m.insert key value).lookup other = if other = key then some value else m.lookup other :=
  lookup_insertEntry key value m.entries other

@[simp] theorem lookup_insert_self (m : OrderedMap κ α) (key : κ) (value : α) :
    (m.insert key value).lookup key = some value := by
  rw [lookup_insert, if_pos rfl]

theorem lookup_insert_ne (m : OrderedMap κ α) {key other : κ} (value : α) (h : other ≠ key) :
    (m.insert key value).lookup other = m.lookup other := by
  rw [lookup_insert, if_neg h]

theorem mem_entries_of_lookup {entries : List (κ × α)} {key : κ} {value : α}
    (h : entries.lookup key = some value) : (key, value) ∈ entries := by
  induction entries with
  | nil => simp at h
  | cons entry rest ih =>
    rw [lookup_cons] at h
    split at h
    · rename_i hkey
      obtain rfl := Option.some.inj h
      exact hkey ▸ List.mem_cons_self
    · exact List.mem_cons_of_mem _ (ih h)

theorem lookup_of_mem_entries {entries : List (κ × α)}
    (hsorted : entries.Pairwise fun e f => e.1 < f.1) {key : κ} {value : α}
    (h : (key, value) ∈ entries) : entries.lookup key = some value := by
  induction entries with
  | nil => simp at h
  | cons entry rest ih =>
    obtain ⟨hentry, hrest⟩ := List.pairwise_cons.mp hsorted
    rw [lookup_cons]
    rcases List.mem_cons.mp h with rfl | h
    · rw [if_pos rfl]
    · rw [if_neg (hentry _ h).ne', ih hrest h]

theorem lookup_eq_some_iff (m : OrderedMap κ α) (key : κ) (value : α) :
    m.lookup key = some value ↔ (key, value) ∈ m.entries :=
  ⟨mem_entries_of_lookup, lookup_of_mem_entries m.sorted⟩

theorem lookup_erase (m : OrderedMap κ α) (key other : κ) :
    (m.erase key).lookup other = if other = key then none else m.lookup other := by
  apply Option.ext
  intro value
  rw [lookup_eq_some_iff, erase, List.mem_filter, ← lookup_eq_some_iff]
  by_cases h : other = key
  · simp [h]
  · simp [h]

theorem contains_iff (m : OrderedMap κ α) (key : κ) :
    m.contains key = true ↔ ∃ value, m.lookup key = some value :=
  Option.isSome_iff_exists

theorem mem_keys (m : OrderedMap κ α) (key : κ) : key ∈ m.keys ↔ m.contains key = true := by
  rw [contains_iff, keys, List.mem_map]
  constructor
  · rintro ⟨⟨found, value⟩, hmem, rfl⟩
    exact ⟨value, (m.lookup_eq_some_iff found value).mpr hmem⟩
  · rintro ⟨value, h⟩
    exact ⟨(key, value), (m.lookup_eq_some_iff key value).mp h, rfl⟩

theorem contains_insert (m : OrderedMap κ α) (key : κ) (value : α) (other : κ) :
    (m.insert key value).contains other = true ↔ other = key ∨ m.contains other = true := by
  rw [contains, contains, lookup_insert]
  by_cases h : other = key
  · simp [h]
  · simp [h]

/-- The first entry is that of the least key. -/
theorem head?_eq_some_iff (m : OrderedMap κ α) (key : κ) (value : α) :
    m.entries.head? = some (key, value) ↔
      m.lookup key = some value ∧ ∀ other, m.contains other = true → key ≤ other := by
  rw [lookup_eq_some_iff]
  constructor
  · intro h
    obtain ⟨rest, hentries⟩ := List.head?_eq_some_iff.mp h
    have hsorted := List.pairwise_cons.mp (hentries ▸ m.sorted)
    refine ⟨hentries ▸ List.mem_cons_self, ?_⟩
    intro other hother
    obtain ⟨found, hfound⟩ := (m.contains_iff other).mp hother
    have hmem := (m.lookup_eq_some_iff other found).mp hfound
    rw [hentries, List.mem_cons] at hmem
    rcases hmem with heq | hmem
    · exact le_of_eq (congrArg Prod.fst heq).symm
    · exact le_of_lt (hsorted.1 (other, found) hmem)
  · rintro ⟨hmem, hleast⟩
    cases hentries : m.entries with
    | nil => simp [hentries] at hmem
    | cons entry rest =>
      have hfirst : (entry.1, entry.2) ∈ m.entries := hentries ▸ List.mem_cons_self
      have hle := hleast entry.1 ((m.contains_iff entry.1).mpr
        ⟨entry.2, (m.lookup_eq_some_iff entry.1 entry.2).mpr hfirst⟩)
      rw [hentries, List.mem_cons] at hmem
      rcases hmem with heq | hmem
      · exact congrArg some heq.symm
      · have hlt := (List.pairwise_cons.mp (hentries ▸ m.sorted)).1 _ hmem
        exact absurd hlt (not_lt_of_ge hle)

theorem touch_of_contains {m : OrderedMap κ α} {key : κ} (h : m.contains key = true)
    (default : α) : m.touch key default = m := if_pos h

theorem lookup_touch_of_not_contains {m : OrderedMap κ α} {key : κ}
    (h : ¬ m.contains key = true) (default : α) :
    (m.touch key default).lookup key = some default := by
  rw [touch, if_neg h, lookup_insert_self]

def mapValues {β : Type*} (f : α → β) (m : OrderedMap κ α) : OrderedMap κ β where
  entries := m.entries.map fun e => (e.1, f e.2)
  sorted := List.pairwise_map.mpr m.sorted

theorem mapValues_insert {β : Type*} (f : α → β) (m : OrderedMap κ α) (key : κ) (value : α) :
    (m.insert key value).mapValues f = (m.mapValues f).insert key (f value) := by
  have hentries : ∀ entries : List (κ × α),
      (insertEntry key value entries).map (fun e => (e.1, f e.2)) =
        insertEntry key (f value) (entries.map fun e => (e.1, f e.2)) := by
    intro entries
    induction entries with
    | nil => rfl
    | cons entry rest ih =>
      simp only [insertEntry, List.map_cons]
      split
      · rfl
      split
      · rfl
      · rw [List.map_cons, ih]
  exact ext_entries (hentries m.entries)

theorem mapRange_self (m : OrderedMap κ α) (first : ℕ) (f : κ → α → α) :
    m.mapRange first first f = m := by
  apply ext_entries
  change m.entries.zipIdx.map _ = m.entries
  calc
    m.entries.zipIdx.map (fun e =>
        (e.1.1, if first ≤ e.2 ∧ e.2 < first then f e.1.1 e.1.2 else e.1.2)) =
        m.entries.zipIdx.map Prod.fst := by
      refine List.map_congr_left ?_
      intro e _
      rw [if_neg (by omega)]
    _ = m.entries := List.zipIdx_map_fst ..

end OrderedMap

abbrev OrderedSet (κ : Type*) [LinearOrder κ] := OrderedMap κ Unit

namespace OrderedSet

def add (set : OrderedSet κ) (element : κ) : OrderedSet κ := set.insert element ()

def ofList (elements : List κ) : OrderedSet κ := elements.foldl add OrderedMap.empty

theorem contains_ofList (elements : List κ) (element : κ) :
    (ofList elements).contains element = true ↔ element ∈ elements := by
  have hfold : ∀ (elements : List κ) (set : OrderedSet κ),
      (elements.foldl add set).contains element = true ↔
        element ∈ elements ∨ set.contains element = true := by
    intro elements
    induction elements with
    | nil => simp
    | cons first rest ih =>
      intro set
      rw [List.foldl_cons, ih, add, OrderedMap.contains_insert, List.mem_cons]
      tauto
  rw [ofList, hfold]
  simp [OrderedMap.contains]

end OrderedSet

end Keto.Library
