import Keto.Protocol
import Mathlib.Data.List.Basic

/-!
Serializations that are made once. A builder keeps the bytes of its first
serialization and returns them from then on, whatever its content is by then.
-/
namespace Keto.Asn1.SerializationHelper

open Protocol

variable {α : Type} (encode : α → Option Bytes)

/-- The bytes that are kept, or those of the content. An exception (`none`) is thrown for
no content and for one that breaks its constraints. -/
def serialize (content : Option α) (kept : Option Bytes) : Option Bytes :=
  match kept with
  | some bytes => some bytes
  | none => content.bind encode

/-- What is kept, if anything, is the serialization of the content. -/
def Fresh (content : Option α) (kept : Option Bytes) : Prop :=
  ∀ bytes, kept = some bytes → content.bind encode = some bytes

/-- The content is what was returned exactly when what was kept is fresh. -/
theorem fresh_iff {content : Option α} {kept : Option Bytes} {bytes : Bytes}
    (h : serialize encode content kept = some bytes) :
    Fresh encode content kept ↔ content.bind encode = some bytes := by
  cases kept with
  | none => exact iff_of_true (fun _ hnone => absurd hnone (by simp)) h
  | some held =>
    obtain rfl := Option.some.inj h
    exact ⟨fun hfresh => hfresh held rfl, fun hencode _ hheld => Option.some.inj hheld ▸ hencode⟩

def listEncode [DecidableEq α] (values : List α) (value : α) : Option Bytes :=
  (values.idxOf? value).map fun index => List.replicate index 0

def listDecode (values : List α) (bytes : Bytes) : Option α := values[bytes.length]?

theorem listDecode_listEncode [DecidableEq α] {values : List α} {value : α} {bytes : Bytes}
    (h : listEncode values value = some bytes) : listDecode values bytes = some value := by
  obtain ⟨index, hindex, rfl⟩ := Option.map_eq_some_iff.mp h
  rw [listDecode, List.length_replicate]
  obtain ⟨hlt, hvalue, _⟩ := List.idxOf?_eq_some_iff.mp hindex
  rw [List.getElem?_eq_getElem hlt, hvalue]

end Keto.Asn1.SerializationHelper
