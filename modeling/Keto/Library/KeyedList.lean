import Mathlib.Data.List.Nodup

/-!
Lists whose elements may have a key. Under a key there is added what is not
there yet, and the first element with a key is updated in place.
-/
namespace Keto.Library.KeyedList

variable {α β κ : Type}

def keys (key : α → Option κ) (elements : List α) : List κ := elements.filterMap key

theorem mem_keys {key : α → Option κ} {k : κ} {elements : List α} :
    k ∈ keys key elements ↔ ∃ element ∈ elements, key element = some k :=
  List.mem_filterMap

variable [DecidableEq κ] (key : α → Option κ)

def findOrAdd (new : κ → α) (k : κ) (elements : List α) : List α :=
  if k ∈ keys key elements then elements else elements ++ [new k]

def updateFirst (k : κ) (f : α → α) : List α → List α
  | [] => []
  | element :: rest =>
    if key element = some k then f element :: rest else element :: updateFirst k f rest

variable {key}

theorem keys_findOrAdd {new : κ → α} {k : κ} (hnew : key (new k) = some k) (elements : List α) :
    keys key (findOrAdd key new k elements) =
      if k ∈ keys key elements then keys key elements else keys key elements ++ [k] := by
  rw [findOrAdd]
  split
  · rfl
  · rw [keys, List.filterMap_append, List.filterMap_cons, hnew]
    rfl

theorem mem_keys_findOrAdd {new : κ → α} {k : κ} (hnew : key (new k) = some k)
    (elements : List α) : k ∈ keys key (findOrAdd key new k elements) := by
  rw [keys_findOrAdd hnew]
  split
  next hmem => exact hmem
  next => exact List.mem_append_right _ List.mem_cons_self

/-- Different keys stay different. -/
theorem nodup_keys_findOrAdd {new : κ → α} {k : κ} (hnew : key (new k) = some k)
    {elements : List α} (h : (keys key elements).Nodup) :
    (keys key (findOrAdd key new k elements)).Nodup := by
  rw [keys_findOrAdd hnew]
  split
  next => exact h
  next hmem =>
    rw [← List.concat_eq_append]
    exact h.concat hmem

theorem forall_findOrAdd {p : α → Prop} {new : κ → α} {k : κ} (hnew : p (new k))
    {elements : List α} (h : ∀ element ∈ elements, p element) :
    ∀ element ∈ findOrAdd key new k elements, p element := by
  intro element hmem
  rw [findOrAdd] at hmem
  split at hmem
  · exact h element hmem
  · rcases List.mem_append.mp hmem with hold | hadded
    · exact h element hold
    · rw [List.mem_singleton.mp hadded]
      exact hnew

/-- An element that holds nothing adds nothing. -/
theorem flatMap_findOrAdd {g : α → List β} {new : κ → α} {k : κ} (hnew : g (new k) = [])
    (elements : List α) : (findOrAdd key new k elements).flatMap g = elements.flatMap g := by
  rw [findOrAdd]
  split
  · rfl
  · rw [List.flatMap_append, List.flatMap_singleton, hnew, List.append_nil]

theorem keys_updateFirst {k : κ} {f : α → α} (hf : ∀ element, key (f element) = key element)
    (elements : List α) : keys key (updateFirst key k f elements) = keys key elements := by
  induction elements with
  | nil => rfl
  | cons element rest ih =>
    rw [updateFirst]
    split
    · rw [keys, keys, List.filterMap_cons, List.filterMap_cons, hf]
    · rw [keys, List.filterMap_cons, ← keys, ih, keys, keys, List.filterMap_cons]

theorem forall_updateFirst {p : α → Prop} {k : κ} {f : α → α}
    (hf : ∀ element, p element → p (f element)) {elements : List α}
    (h : ∀ element ∈ elements, p element) :
    ∀ element ∈ updateFirst key k f elements, p element := by
  induction elements with
  | nil => exact h
  | cons element rest ih =>
    have hrest := ih fun other hother => h other (List.mem_cons_of_mem _ hother)
    rw [updateFirst]
    split
    · exact List.forall_mem_cons.mpr ⟨hf element (h element List.mem_cons_self),
        fun other hother => h other (List.mem_cons_of_mem _ hother)⟩
    · exact List.forall_mem_cons.mpr ⟨h element List.mem_cons_self, hrest⟩

/-- When the update of an element adds one thing to what it holds, this is added to what
all of them hold. -/
theorem mem_flatMap_updateFirst {g : α → List β} {k : κ} {f : α → α} {added : β}
    (hf : ∀ element, key element = some k →
      ∀ y, y ∈ g (f element) ↔ y ∈ g element ∨ y = added)
    {elements : List α} (hk : k ∈ keys key elements) (y : β) :
    y ∈ (updateFirst key k f elements).flatMap g ↔ y ∈ elements.flatMap g ∨ y = added := by
  induction elements with
  | nil => exact absurd hk List.not_mem_nil
  | cons element rest ih =>
    rw [updateFirst]
    by_cases hkey : key element = some k
    · rw [if_pos hkey, List.flatMap_cons, List.flatMap_cons, List.mem_append, List.mem_append,
        hf element hkey]
      tauto
    · have hrest : k ∈ keys key rest := by
        obtain ⟨other, hmem, hother⟩ := mem_keys.mp hk
        rcases List.mem_cons.mp hmem with rfl | hmem
        · exact absurd hother hkey
        · exact mem_keys.mpr ⟨other, hmem, hother⟩
      rw [if_neg hkey, List.flatMap_cons, List.flatMap_cons, List.mem_append, List.mem_append,
        ih hrest, or_assoc]

end Keto.Library.KeyedList
