import Keto.AccountDb.HexCodec
import Keto.Library.Base64

/-!
The text encodings of the helpers that hold bytes, with the branch on the
encoding that their constructors, setters and getters have in common.
-/
namespace Keto.Asn1

open Protocol Library

inductive StringEncoding
  | base64
  | hex
  | utf8
  deriving DecidableEq, Repr

/-- What the helpers of the library throw; decoding throws `invalidArgument`. -/
inductive Asn1Exception
  | unsupportedStringFormat
  | invalidArgument
  deriving DecidableEq, Repr

/-- The text encodings of Botan, decoding with white space ignored. -/
structure StringCodec extends AccountDb.HexCodec where
  base64Encode : Bytes → Bytes
  base64Decode : Bytes → Option Bytes

namespace StringCodec

structure Lawful (codec : StringCodec) : Prop where
  hexDecode_hexEncode : ∀ bytes, codec.hexDecode (codec.hexEncode bytes) = some bytes
  base64Decode_base64Encode : ∀ bytes, codec.base64Decode (codec.base64Encode bytes) = some bytes

def botan : StringCodec where
  toHexCodec := AccountDb.HexCodec.botan
  base64Encode := Base64.encode
  base64Decode text := Base64.decode (text.filter fun c => c ∉ [0x20, 0x09, 0x0a, 0x0d])

def decode (codec : StringCodec) (text : Bytes) : StringEncoding → Except Asn1Exception Bytes
  | .hex => match codec.hexDecode text with
    | some bytes => .ok bytes
    | none => .error .invalidArgument
  | .base64 => match codec.base64Decode text with
    | some bytes => .ok bytes
    | none => .error .invalidArgument
  | .utf8 => .error .unsupportedStringFormat

def encode (codec : StringCodec) (bytes : Bytes) : StringEncoding → Except Asn1Exception Bytes
  | .hex => .ok (codec.hexEncode bytes)
  | .base64 => .ok (codec.base64Encode bytes)
  | .utf8 => .error .unsupportedStringFormat

/-- Every text that is written is read again. -/
theorem decode_of_encode {codec : StringCodec} (hlawful : codec.Lawful) {bytes text : Bytes}
    {encoding : StringEncoding} (h : codec.encode bytes encoding = .ok text) :
    codec.decode text encoding = .ok bytes := by
  cases encoding with
  | base64 =>
    obtain rfl := Except.ok.inj h
    rw [decode, hlawful.base64Decode_base64Encode]
  | hex =>
    obtain rfl := Except.ok.inj h
    rw [decode, hlawful.hexDecode_hexEncode]
  | utf8 => cases h

theorem botan_lawful : botan.Lawful where
  hexDecode_hexEncode := AccountDb.HexCodec.botan_decode_encode
  base64Decode_base64Encode := by
    intro bytes
    have hspec : ∀ n : Fin 64,
        Base64.digit n ∉ ([0x20, 0x09, 0x0a, 0x0d] : List UInt8) := by decide
    have hclean : (Base64.encode bytes).filter
        (fun c => c ∉ ([0x20, 0x09, 0x0a, 0x0d] : List UInt8)) = Base64.encode bytes := by
      rw [List.filter_eq_self]
      intro c hc
      rcases Base64.mem_encode hc with rfl | ⟨n, hn, rfl⟩
      · decide
      · exact decide_eq_true (hspec ⟨n, hn⟩)
    have hdecode : botan.base64Decode (botan.base64Encode bytes) =
        Base64.decode ((Base64.encode bytes).filter
          (fun c => c ∉ ([0x20, 0x09, 0x0a, 0x0d] : List UInt8))) := rfl
    rw [hdecode, hclean, Base64.decode_encode]

end StringCodec

end Keto.Asn1
