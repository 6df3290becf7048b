import Keto.Library.OrderedMap
import Keto.Protocol

/-!
The key store's session keys. A key is generated when a session hash is asked for
the first time, and every later request for it is answered with the same key. The
generated key is a parameter.
-/
namespace Keto.KeyStore

open Protocol Library
open scoped Library.ByteOrder

structure SessionKeyManager where
  sessionKeys : OrderedMap Hash Bytes

namespace SessionKeyManager

def start : SessionKeyManager := ⟨OrderedMap.empty⟩

def requestKey (privateKey : Bytes) (sessionHash : Hash) (manager : SessionKeyManager) :
    Bytes × SessionKeyManager :=
  match manager.sessionKeys.lookup sessionHash with
  | some key => (key, manager)
  | none => (privateKey, ⟨manager.sessionKeys.insert sessionHash privateKey⟩)

def removeKey (sessionHash : Hash) (manager : SessionKeyManager) : SessionKeyManager :=
  if manager.sessionKeys.contains sessionHash then ⟨manager.sessionKeys.erase sessionHash⟩
  else manager

theorem requestKey_of_none {sessionHash : Hash} {manager : SessionKeyManager} (privateKey : Bytes)
    (h : manager.sessionKeys.lookup sessionHash = none) :
    manager.requestKey privateKey sessionHash =
      (privateKey, ⟨manager.sessionKeys.insert sessionHash privateKey⟩) := by
  simp only [requestKey, h]

/-- The store holds the key it answers with, and no other key is touched. -/
theorem lookup_requestKey (privateKey : Bytes) (sessionHash other : Hash)
    (manager : SessionKeyManager) :
    (manager.requestKey privateKey sessionHash).2.sessionKeys.lookup other =
      if other = sessionHash then some (manager.requestKey privateKey sessionHash).1
      else manager.sessionKeys.lookup other := by
  cases hlookup : manager.sessionKeys.lookup sessionHash with
  | some key =>
    simp only [requestKey, hlookup]
    split
    · rename_i heq
      rw [heq, hlookup]
    · rfl
  | none =>
    rw [requestKey_of_none privateKey hlookup]
    change (manager.sessionKeys.insert sessionHash privateKey).lookup other = _
    rw [OrderedMap.lookup_insert]
    by_cases heq : other = sessionHash
    · rw [if_pos heq, if_pos heq]
    · rw [if_neg heq, if_neg heq]

/-- A removed key is gone, known or not. -/
theorem lookup_removeKey (sessionHash other : Hash) (manager : SessionKeyManager) :
    (manager.removeKey sessionHash).sessionKeys.lookup other =
      if other = sessionHash then none else manager.sessionKeys.lookup other := by
  rw [removeKey]
  split
  · change (manager.sessionKeys.erase sessionHash).lookup other = _
    rw [OrderedMap.lookup_erase]
    by_cases heq : other = sessionHash
    · rw [if_pos heq, if_pos heq]
    · rw [if_neg heq, if_neg heq]
  · rename_i hunknown
    split
    · rename_i heq
      rw [heq]
      simpa [OrderedMap.contains] using hunknown
    · rfl

/-- The keys of sessions that are destroyed one after the other. -/
theorem lookup_foldl_removeKey (sessionHashes : List Hash) (other : Hash)
    (manager : SessionKeyManager) :
    (sessionHashes.foldl (fun manager sessionHash => manager.removeKey sessionHash)
        manager).sessionKeys.lookup other =
      if other ∈ sessionHashes then none else manager.sessionKeys.lookup other := by
  induction sessionHashes generalizing manager with
  | nil => rfl
  | cons sessionHash sessionHashes ih =>
    rw [List.foldl_cons, ih, lookup_removeKey]
    by_cases hlater : other ∈ sessionHashes
    · simp [hlater]
    · by_cases hfirst : other = sessionHash
      · simp [hfirst]
      · simp [hlater, hfirst]

end SessionKeyManager

end Keto.KeyStore
