import Mathlib.Data.List.Basic
import Mathlib.Data.Nat.Notation

/-!
Bytes masked by a stream of bytes, with one exclusive or at each position. A mask
is undone by the streams that agree with it as far as the bytes reach.
-/
namespace Keto.Library.Masking

/-- Each byte exclusive or the byte of the stream at its position. -/
def masked (stream : ℕ → UInt8) (bytes : List UInt8) : List UInt8 :=
  bytes.mapIdx fun index byte => byte ^^^ stream index

variable {stream other : ℕ → UInt8}

@[simp] theorem length_masked (stream : ℕ → UInt8) (bytes : List UInt8) :
    (masked stream bytes).length = bytes.length := by
  rw [masked, List.length_mapIdx]

theorem masked_concat (stream : ℕ → UInt8) (bytes : List UInt8) (byte : UInt8) :
    masked stream (bytes ++ [byte]) = masked stream bytes ++ [byte ^^^ stream bytes.length] :=
  List.mapIdx_concat

theorem getElem?_masked (stream : ℕ → UInt8) (bytes : List UInt8) (index : ℕ) :
    (masked stream bytes)[index]? = bytes[index]?.map (· ^^^ stream index) :=
  List.getElem?_mapIdx

/-- Two masks give the same bytes when the streams agree within their length. -/
theorem masked_eq_masked_iff (bytes : List UInt8) :
    masked stream bytes = masked other bytes ↔
      ∀ index < bytes.length, stream index = other index := by
  constructor
  · intro heq index hindex
    have hbyte := congrArg (fun masked => masked[index]?) heq
    simp only [getElem?_masked, List.getElem?_eq_getElem hindex, Option.map_some] at hbyte
    exact (UInt8.xor_right_inj _).mp (Option.some.inj hbyte)
  · intro hagree
    refine List.ext_getElem? ?_
    intro index
    rw [getElem?_masked, getElem?_masked]
    by_cases hindex : index < bytes.length
    · rw [hagree index hindex]
    · rw [List.getElem?_eq_none (Nat.le_of_not_lt hindex)]
      rfl

/-- Masking is undone by the same stream. -/
theorem masked_masked (stream : ℕ → UInt8) (bytes : List UInt8) :
    masked stream (masked stream bytes) = bytes := by
  refine List.ext_getElem? ?_
  intro index
  rw [getElem?_masked, getElem?_masked, Option.map_map]
  have hself : (fun byte => byte ^^^ stream index) ∘ (fun byte => byte ^^^ stream index) = id := by
    funext byte
    change byte ^^^ stream index ^^^ stream index = byte
    rw [UInt8.xor_assoc, UInt8.xor_self, UInt8.xor_zero]
  rw [hself, Option.map_id]
  rfl

/-- It is undone by the streams that agree with it. -/
theorem masked_masked_eq_self_iff (bytes : List UInt8) :
    masked other (masked stream bytes) = bytes ↔
      ∀ index < bytes.length, other index = stream index := by
  have hundone := masked_masked stream bytes
  have hiff : masked other (masked stream bytes) = masked stream (masked stream bytes) ↔
      ∀ index < (masked stream bytes).length, other index = stream index :=
    masked_eq_masked_iff (masked stream bytes)
  rw [hundone, length_masked] at hiff
  exact hiff

end Keto.Library.Masking
