import Keto.Asn1.HashHelper
import Keto.Library.Fallible

/-!
The helper that holds the encoding of a key, represented by its bytes. What is
read from a text goes through `setValue`, which copies what the helper holds
already and not what it is given.
-/
namespace Keto.Asn1.BerEncodingHelper

open Protocol AccountDb.RDFObjectHelper Library.Fallible Library.Runs Library.Replacing

variable (codec : StringCodec)

def ofBerEncoding_t (berEncoding : Bytes) : Bytes := pushBack berEncoding []

def ofSecureVector (berEncoding : Bytes) : Bytes := berEncoding

/-- `operator=(const BerEncoding_t&)` and, by pointer, `operator=(const BerEncoding_t*)`. -/
def assignBerEncoding_t (berEncoding _helper : Bytes) : Bytes := pushBack berEncoding []

def assignSecureVector (berEncoding _helper : Bytes) : Bytes := berEncoding

def toBerEncoding_t (helper : Bytes) : Bytes := octetString helper helper.length

/-- The octet string is made of `this->berEncoding`; the argument is not read. -/
def setValue (_berEncoding helper : Bytes) : Bytes :=
  assignBerEncoding_t (octetString helper helper.length) helper

def getValue (helper : Bytes) : Bytes := pushBack (toBerEncoding_t helper) []

/-- The constructor from a text: its vector is handed to the new helper. -/
def ofText (text : Bytes) (encoding : StringEncoding) : Except Asn1Exception Bytes := do
  let vector ← codec.decode text encoding
  return setValue vector []

def setHash (text : Bytes) (encoding : StringEncoding) (helper : Bytes) :
    Except Asn1Exception Bytes := do
  let vector ← codec.decode text encoding
  return setValue vector helper

def getHash (encoding : StringEncoding) (helper : Bytes) : Except Asn1Exception Bytes :=
  codec.encode (getValue helper) encoding

@[simp] theorem setValue_eq (berEncoding helper : Bytes) :
    setValue berEncoding helper = helper := by
  rw [setValue, assignBerEncoding_t, octetString_length, pushBack_nil]

@[simp] theorem toBerEncoding_t_eq (helper : Bytes) : toBerEncoding_t helper = helper :=
  octetString_length helper

@[simp] theorem getValue_eq (helper : Bytes) : getValue helper = helper := by
  rw [getValue, toBerEncoding_t_eq, pushBack_nil]

inductive Construction
  | default
  | secureVector (berEncoding : Bytes)
  | berEncoding_t (berEncoding : Bytes)
  | text (text : Bytes) (encoding : StringEncoding)
  deriving DecidableEq, Repr

def construct : Construction → Except Asn1Exception Bytes
  | .default => .ok []
  | .secureVector berEncoding => .ok (ofSecureVector berEncoding)
  | .berEncoding_t berEncoding => .ok (ofBerEncoding_t berEncoding)
  | .text text encoding => ofText codec text encoding

inductive Assignment
  | secureVector (berEncoding : Bytes)
  | berEncoding_t (berEncoding : Bytes)
  | setHash (text : Bytes) (encoding : StringEncoding)
  | setValue (berEncoding : Bytes)
  deriving DecidableEq, Repr

def Assignment.given : Assignment → Option Bytes
  | .secureVector berEncoding | .berEncoding_t berEncoding | .setValue berEncoding =>
    some berEncoding
  | .setHash text encoding => (codec.decode text encoding).toOption

def assign : Assignment → Bytes → Bytes
  | .secureVector berEncoding, helper => assignSecureVector berEncoding helper
  | .berEncoding_t berEncoding, helper => assignBerEncoding_t berEncoding helper
  | .setHash text encoding, helper =>
    match setHash codec text encoding helper with
    | .ok berEncoding => berEncoding
    | .error _ => helper
  | .setValue berEncoding, helper => setValue berEncoding helper

def SetsWhatIsHeld : Assignment → Bytes → Prop
  | .setHash text encoding, helper =>
    ∀ berEncoding, codec.decode text encoding = .ok berEncoding → helper = berEncoding
  | .setValue berEncoding, helper => helper = berEncoding
  | _, _ => True

theorem assign_eq_replace_iff (assignment : Assignment) (helper : Bytes) :
    assign codec assignment helper = replace (Assignment.given codec) assignment helper ↔
      SetsWhatIsHeld codec assignment helper := by
  cases assignment with
  | secureVector berEncoding => exact iff_of_true rfl trivial
  | berEncoding_t berEncoding => exact iff_of_true (pushBack_nil berEncoding) trivial
  | setHash text encoding =>
    rw [assign, setHash, replace, Assignment.given, SetsWhatIsHeld]
    cases codec.decode text encoding with
    | ok berEncoding =>
      rw [bind_ok rfl, setValue_eq]
      exact ⟨fun h _ hgiven => h.trans (Except.ok.inj hgiven), fun h => h berEncoding rfl⟩
    | error e =>
      refine iff_of_true rfl ?_
      intro _ h
      cases h
  | setValue berEncoding =>
    rw [assign, setValue_eq]
    exact Iff.rfl

def Holds (berEncoding text : Bytes) (encoding : StringEncoding) (helper : Bytes) : Prop :=
  helper = berEncoding ∧ toBerEncoding_t helper = berEncoding ∧
    getHash codec encoding helper = .ok text

theorem holds_iff {codec : StringCodec} {berEncoding text : Bytes} {encoding : StringEncoding}
    (htext : codec.encode berEncoding encoding = .ok text) (helper : Bytes) :
    Holds codec berEncoding text encoding helper ↔ helper = berEncoding := by
  rw [Holds, toBerEncoding_t_eq, getHash, getValue_eq]
  constructor
  · exact And.left
  · rintro rfl
    exact ⟨rfl, rfl, htext⟩

/-- A text that reads as the bytes leaves the helper as it is. -/
theorem setHash_encoded {codec : StringCodec} (hlawful : codec.Lawful) {berEncoding text : Bytes}
    {encoding : StringEncoding} (htext : codec.encode berEncoding encoding = .ok text)
    (helper : Bytes) : setHash codec text encoding helper = .ok helper := by
  rw [setHash, bind_ok (StringCodec.decode_of_encode hlawful htext), setValue_eq]
  rfl

theorem ofText_eq_setHash (text : Bytes) (encoding : StringEncoding) :
    ofText codec text encoding = setHash codec text encoding [] := rfl

/-- Constructed from the encoding of bytes the helper holds them only if there are
none, and given it by `setHash` at a point of a history only if it holds them there
already. Over a whole history it holds what it was given last exactly when its
setters set it to what it holds. -/
theorem encoded_held_iff (codec : StringCodec) (hlawful : codec.Lawful) :
    (∀ berEncoding encoding text, codec.encode berEncoding encoding = .ok text →
      ((∃ helper, ofText codec text encoding = .ok helper ∧
          Holds codec berEncoding text encoding helper) ↔ berEncoding = []) ∧
      ∀ construction constructed assignments, construct codec construction = .ok constructed →
        ((∃ helper, setHash codec text encoding (run (assign codec) constructed assignments) =
              .ok helper ∧ Holds codec berEncoding text encoding helper) ↔
          run (assign codec) constructed assignments = berEncoding)) ∧
    ∀ construction constructed assignments, construct codec construction = .ok constructed →
      (HoldsLast (Assignment.given codec) (assign codec) constructed assignments ↔
        Along (assign codec) (SetsWhatIsHeld codec) constructed assignments) := by
  have hset : ∀ berEncoding encoding text, codec.encode berEncoding encoding = .ok text →
      ∀ held, (∃ helper, setHash codec text encoding held = .ok helper ∧
        Holds codec berEncoding text encoding helper) ↔ held = berEncoding := by
    intro berEncoding encoding text htext held
    rw [setHash_encoded hlawful htext]
    constructor
    · intro ⟨helper, hhelper, hholds⟩
      obtain rfl := Except.ok.inj hhelper
      exact (holds_iff htext held).mp hholds
    · intro hheld
      exact ⟨held, rfl, (holds_iff htext held).mpr hheld⟩
  refine ⟨?_, ?_⟩
  · intro berEncoding encoding text htext
    constructor
    · rw [ofText_eq_setHash, hset berEncoding encoding text htext]
      exact eq_comm
    · intro _ constructed assignments _
      exact hset berEncoding encoding text htext _
  · intro _ constructed assignments _
    exact holdsLast_iff_along (assign_eq_replace_iff codec) constructed assignments

theorem encoded_held_botan :
    ((∃ helper, ofText .botan (text "AB") .hex = .ok helper ∧
        Holds .botan [0xab] (text "AB") .hex helper) ↔ ([0xab] : Bytes) = []) ∧
      ((∃ helper, setHash .botan (text "AB") .hex
            (run (assign .botan) [] [.secureVector [0xab]]) = .ok helper ∧
          Holds .botan [0xab] (text "AB") .hex helper) ↔
        run (assign .botan) [] [.secureVector [0xab]] = [0xab]) ∧
      (HoldsLast (Assignment.given .botan) (assign .botan) [] [.secureVector [0xab]] ↔
        Along (assign .botan) (SetsWhatIsHeld .botan) [] [.secureVector [0xab]]) := by
  obtain ⟨hencoded, hhistory⟩ := encoded_held_iff .botan StringCodec.botan_lawful
  obtain ⟨hconstructed, hset⟩ := hencoded [0xab] .hex (text "AB") (by decide +kernel)
  exact ⟨hconstructed, hset .default [] [.secureVector [0xab]] rfl,
    hhistory .default [] [.secureVector [0xab]] rfl⟩

/-- A helper constructed from the text `AB` holds nothing; one that holds a byte and
is given another by `setHash` keeps the first. -/
theorem text_not_held :
    StringCodec.botan.encode [0xab] .hex = .ok (text "AB") ∧
      ofText .botan (text "AB") .hex = .ok [] ∧
      setHash .botan (text "AB") .hex [0x01] = .ok [0x01] := by
  have htext : StringCodec.botan.encode [0xab] .hex = .ok (text "AB") := by decide +kernel
  refine ⟨htext, ?_, ?_⟩
  · rw [ofText_eq_setHash]
    exact setHash_encoded StringCodec.botan_lawful htext []
  · exact setHash_encoded StringCodec.botan_lawful htext [0x01]

end Keto.Asn1.BerEncodingHelper
