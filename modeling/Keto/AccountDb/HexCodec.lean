import Keto.Protocol

/-!
The hexadecimal spelling of hashes and of the messages in a frame.
-/
namespace Keto.AccountDb

open Protocol

/-- `Botan::hex_encode` in upper case and `Botan::hex_decode_locked`, which
throws `invalid_argument` (`none`) for what is not hexadecimal. -/
structure HexCodec where
  hexEncode : Bytes → Bytes
  hexDecode : Bytes → Option Bytes

namespace HexCodec

def hexDigit (n : UInt8) : UInt8 := if n < 10 then 0x30 + n else 0x37 + n

def hexValue? (c : UInt8) : Option UInt8 :=
  if 0x30 ≤ c ∧ c ≤ 0x39 then some (c - 0x30)
  else if 0x41 ≤ c ∧ c ≤ 0x46 then some (c - 0x37)
  else if 0x61 ≤ c ∧ c ≤ 0x66 then some (c - 0x57)
  else none

def hexPairs : List UInt8 → Option Bytes
  | [] => some []
  | [_] => none
  | high :: low :: rest => (hexPairs rest).map fun bytes => (16 * high + low) :: bytes

/-- The codec as documented: digits of either case are read and white space is
ignored, an odd number of digits is refused. -/
def botan : HexCodec where
  hexEncode bytes := bytes.flatMap fun byte => [hexDigit (byte / 16), hexDigit (byte % 16)]
  hexDecode bytes :=
    ((bytes.filter fun c => c ∉ [0x20, 0x09, 0x0a, 0x0d]).mapM hexValue?).bind hexPairs

example : botan.hexEncode [0xab, 0x09] = text "AB09" := by decide

example : botan.hexDecode (text "aB 09") = some [0xab, 0x09] := by decide

/-- The digits of a byte are no white space and are read back. -/
theorem hexDigit_spec : ∀ n : Fin 16,
    hexValue? (hexDigit (UInt8.ofNat n)) = some (UInt8.ofNat n) ∧
      hexDigit (UInt8.ofNat n) ∉ ([0x20, 0x09, 0x0a, 0x0d] : List UInt8) := by decide

theorem hexDigit_of_lt {n : UInt8} (h : n.toNat < 16) :
    hexValue? (hexDigit n) = some n ∧
      hexDigit n ∉ ([0x20, 0x09, 0x0a, 0x0d] : List UInt8) := by
  have hspec := hexDigit_spec ⟨n.toNat, h⟩
  simpa using hspec

theorem high_lt (byte : UInt8) : (byte / 16).toNat < 16 := by
  have hbyte := UInt8.toNat_lt byte
  simp
  omega

theorem low_lt (byte : UInt8) : (byte % 16).toNat < 16 := by
  simp
  omega

theorem high_low (byte : UInt8) : 16 * (byte / 16) + byte % 16 = byte := by
  have hbyte := UInt8.toNat_lt byte
  apply UInt8.toNat_inj.mp
  simp
  omega

theorem botan_not_white {bytes : Bytes} {c : UInt8} (h : c ∈ botan.hexEncode bytes) :
    c ∉ ([0x20, 0x09, 0x0a, 0x0d] : List UInt8) := by
  obtain ⟨byte, _, hdigit⟩ := List.mem_flatMap.mp h
  rcases List.mem_cons.mp hdigit with rfl | hlow
  · exact (hexDigit_of_lt (high_lt byte)).2
  · obtain rfl := List.mem_singleton.mp hlow
    exact (hexDigit_of_lt (low_lt byte)).2

theorem mapM_hexEncode (bytes : Bytes) :
    ((botan.hexEncode bytes).mapM hexValue?).bind hexPairs = some bytes := by
  induction bytes with
  | nil => rfl
  | cons byte bytes ih =>
    obtain ⟨values, hvalues, hpairs⟩ := Option.bind_eq_some_iff.mp ih
    have hcons : botan.hexEncode (byte :: bytes) =
        hexDigit (byte / 16) :: hexDigit (byte % 16) :: botan.hexEncode bytes := rfl
    rw [hcons, List.mapM_cons, List.mapM_cons, hvalues, (hexDigit_of_lt (high_lt byte)).1,
      (hexDigit_of_lt (low_lt byte)).1]
    simp [hexPairs, hpairs, high_low]

/-- What is encoded is decoded again. -/
theorem botan_decode_encode (bytes : Bytes) :
    botan.hexDecode (botan.hexEncode bytes) = some bytes := by
  have hclean : (botan.hexEncode bytes).filter
      (fun c => c ∉ ([0x20, 0x09, 0x0a, 0x0d] : List UInt8)) = botan.hexEncode bytes := by
    rw [List.filter_eq_self]
    intro c hc
    exact decide_eq_true (botan_not_white hc)
  have hdecode : botan.hexDecode (botan.hexEncode bytes) =
      (((botan.hexEncode bytes).filter
        (fun c => c ∉ ([0x20, 0x09, 0x0a, 0x0d] : List UInt8))).mapM hexValue?).bind hexPairs := rfl
  rw [hdecode, hclean, mapM_hexEncode]

end HexCodec

end Keto.AccountDb
