import Keto.Consensus.ConsensusHashGenerator
import Keto.Crypto.SignatureGenerator
import Keto.Library.Masking
import Mathlib.Data.List.Induction

/-!
Encryption keys wrapped by a secret. The creator of a key pair and the classes
that use an encoded key each repeat one loop, over the bytes of the key or of the
encoded key, that reads the byte of the secret at the same index. Keys are within
the range of the `int` that is the index.
-/
namespace Keto.KeyTools

open Protocol Library.Masking Crypto

/-- What a loop has pushed, and the indexes of the secret that it has read. -/
structure Derivation where
  encryptionKeyBits : Bytes
  indexes : List ℕ
  deriving DecidableEq, Repr

def byteAt (behind : ℕ → UInt8) (secret : Bytes) (index : ℕ) : UInt8 :=
  (secret[index]?).getD (behind index)

def pushByte (behind : ℕ → UInt8) (secret : Bytes) (done : Derivation) :
    UInt8 × ℕ → Derivation
  | (bit, index) =>
    ⟨done.encryptionKeyBits ++ [bit ^^^ byteAt behind secret index], done.indexes ++ [index]⟩

def pushBytes (behind : ℕ → UInt8) (secret bits : Bytes) : Derivation :=
  bits.zipIdx.foldl (pushByte behind secret) ⟨[], []⟩

theorem pushBytes_eq (behind : ℕ → UInt8) (secret bits : Bytes) :
    pushBytes behind secret bits =
      ⟨masked (byteAt behind secret) bits, List.range bits.length⟩ := by
  induction bits using List.reverseRecOn with
  | nil => rfl
  | append_singleton bits bit ih =>
    unfold pushBytes at ih ⊢
    rw [List.zipIdx_append, List.foldl_append, ih, masked_concat, List.length_append,
      List.length_singleton, List.range_succ, Nat.zero_add]
    rfl

structure KeyPair where
  secret : Bytes
  encodedKey : Bytes
  deriving DecidableEq, Repr

namespace KeyPairCreator

def new (behind : ℕ → UInt8) (secret encryptionKeyBits : Bytes) : KeyPair × List ℕ :=
  let derivation := pushBytes behind secret encryptionKeyBits
  (⟨secret, derivation.encryptionKeyBits⟩, derivation.indexes)

def ofSecret (behind : ℕ → UInt8) (secret encryptionKeyBits : Bytes) : KeyPair × List ℕ :=
  let derivation := pushBytes behind secret encryptionKeyBits
  (⟨secret, derivation.encryptionKeyBits⟩, derivation.indexes)

end KeyPairCreator

/-- What the crypto library does with a private key, each of which may throw. The
random numbers that an encryption takes are those of one run. -/
structure Encryption (PrivateKey : Type) where
  loadKey : Bytes → Option PrivateKey
  encrypt : PrivateKey → Bytes → Option Bytes
  decrypt : PrivateKey → Bytes → Option Bytes

variable {PrivateKey : Type} (encryption : Encryption PrivateKey) (signing : Signing PrivateKey)

namespace ContentDecryptor

def getDerivedKey (behind : ℕ → UInt8) (secret encodedKey : Bytes) : Derivation :=
  pushBytes behind secret encodedKey

/-- The content of a decryptor; the two constructors take the encrypted content in
one or the other kind of vector. -/
def content (behind : ℕ → UInt8) (secret encodedKey encryptedContent : Bytes) :
    Option Bytes := do
  let derivation := getDerivedKey behind secret encodedKey
  let privateKey ← encryption.loadKey derivation.encryptionKeyBits
  encryption.decrypt privateKey encryptedContent

end ContentDecryptor

namespace ContentEncryptor

def keyForVector (behind : ℕ → UInt8) (secret encodedKey : Bytes) : Derivation :=
  pushBytes behind secret encodedKey

def keyForSecureVector (behind : ℕ → UInt8) (secret encodedKey : Bytes) : Derivation :=
  pushBytes behind secret encodedKey

def encrypted (derivation : Derivation) (content : Bytes) : Option Bytes := do
  let privateKey ← encryption.loadKey derivation.encryptionKeyBits
  encryption.encrypt privateKey content

def ofVector (behind : ℕ → UInt8) (secret encodedKey content : Bytes) : Option Bytes :=
  encrypted encryption (keyForVector behind secret encodedKey) content

def ofSecureVector (behind : ℕ → UInt8) (secret encodedKey content : Bytes) : Option Bytes :=
  encrypted encryption (keyForSecureVector behind secret encodedKey) content

end ContentEncryptor

namespace ContentSigner

def keyForVector (behind : ℕ → UInt8) (secret encodedKey : Bytes) : Derivation :=
  pushBytes behind secret encodedKey

def keyForSecureVector (behind : ℕ → UInt8) (secret encodedKey : Bytes) : Derivation :=
  pushBytes behind secret encodedKey

def signed (derivation : Derivation) (content : Bytes) : Except CryptoException Bytes :=
  (SignatureGenerator.ofKey derivation.encryptionKeyBits).sign signing content

def ofVector (behind : ℕ → UInt8) (secret encodedKey content : Bytes) :
    Except CryptoException Bytes :=
  signed signing (keyForVector behind secret encodedKey) content

def ofSecureVector (behind : ℕ → UInt8) (secret encodedKey content : Bytes) :
    Except CryptoException Bytes :=
  signed signing (keyForSecureVector behind secret encodedKey) content

end ContentSigner

inductive Consumer
  | contentDecryptor
  | contentEncryptorOfVector
  | contentEncryptorOfSecureVector
  | contentSignerOfVector
  | contentSignerOfSecureVector
  deriving DecidableEq, Repr

def Consumer.derive : Consumer → (ℕ → UInt8) → Bytes → Bytes → Derivation
  | .contentDecryptor => ContentDecryptor.getDerivedKey
  | .contentEncryptorOfVector => ContentEncryptor.keyForVector
  | .contentEncryptorOfSecureVector => ContentEncryptor.keyForSecureVector
  | .contentSignerOfVector => ContentSigner.keyForVector
  | .contentSignerOfSecureVector => ContentSigner.keyForSecureVector

inductive Creation
  | generatedSecret
  | givenSecret
  deriving DecidableEq, Repr

def Creation.create : Creation → (ℕ → UInt8) → Bytes → Bytes → KeyPair × List ℕ
  | .generatedSecret => KeyPairCreator.new
  | .givenSecret => KeyPairCreator.ofSecret

/-- What is behind the secret where a key pair is created and where it is used. -/
structure Memory where
  creator : ℕ → UInt8
  consumer : Consumer → ℕ → UInt8

section Wrapping

variable (memory : Memory) (creation : Creation) (secret encryptionKey : Bytes)

def keyPair : KeyPair := (creation.create memory.creator secret encryptionKey).1

def derived (consumer : Consumer) : Derivation :=
  consumer.derive (memory.consumer consumer) (keyPair memory creation secret encryptionKey).secret
    (keyPair memory creation secret encryptionKey).encodedKey

/-- Each consumer derives the encryption key, all of them the same bytes, and nothing
is read behind the end of the secret. -/
structure Wraps : Prop where
  recovers : ∀ consumer,
    (derived memory creation secret encryptionKey consumer).encryptionKeyBits = encryptionKey
  agree : ∀ consumer other,
    (derived memory creation secret encryptionKey consumer).encryptionKeyBits =
      (derived memory creation secret encryptionKey other).encryptionKeyBits
  created_within : ∀ index ∈ (creation.create memory.creator secret encryptionKey).2,
    index < secret.length
  derived_within : ∀ consumer,
    ∀ index ∈ (derived memory creation secret encryptionKey consumer).indexes,
      index < secret.length

/-- Every constructor runs the loop over the encryption key. -/
theorem create_eq : creation.create memory.creator secret encryptionKey =
    (⟨secret, masked (byteAt memory.creator secret) encryptionKey⟩,
      List.range encryptionKey.length) := by
  have hloop := pushBytes_eq memory.creator secret encryptionKey
  cases creation with
  | generatedSecret => rw [Creation.create, KeyPairCreator.new, hloop]
  | givenSecret => rw [Creation.create, KeyPairCreator.ofSecret, hloop]

theorem derive_eq (consumer : Consumer) (behind : ℕ → UInt8) (encodedKey : Bytes) :
    consumer.derive behind secret encodedKey = pushBytes behind secret encodedKey := by
  cases consumer <;> rfl

/-- Every consumer runs the loop over what the creator's loop has made. -/
theorem derived_eq (consumer : Consumer) :
    derived memory creation secret encryptionKey consumer =
      ⟨masked (byteAt (memory.consumer consumer) secret)
        (masked (byteAt memory.creator secret) encryptionKey),
        List.range encryptionKey.length⟩ := by
  have hlength := length_masked (byteAt memory.creator secret) encryptionKey
  rw [derived, keyPair, create_eq, derive_eq, pushBytes_eq, hlength]

end Wrapping

theorem byteAt_of_lt (behind : ℕ → UInt8) {secret : Bytes} {index : ℕ}
    (h : index < secret.length) : byteAt behind secret index = secret[index] := by
  rw [byteAt, List.getElem?_eq_getElem h, Option.getD_some]

theorem byteAt_of_le (behind : ℕ → UInt8) {secret : Bytes} {index : ℕ}
    (h : secret.length ≤ index) : byteAt behind secret index = behind index := by
  rw [byteAt, List.getElem?_eq_none h, Option.getD_none]

/-- Two reads of the secret agree exactly when it has the byte or memory is the same. -/
theorem byteAt_eq_byteAt_iff (behind other : ℕ → UInt8) (secret : Bytes) (index : ℕ) :
    byteAt behind secret index = byteAt other secret index ↔
      (secret.length ≤ index → behind index = other index) := by
  by_cases h : index < secret.length
  · rw [byteAt_of_lt behind h, byteAt_of_lt other h]
    exact iff_of_true rfl fun hle => absurd h (Nat.not_lt_of_le hle)
  · have hle := Nat.le_of_not_lt h
    rw [byteAt_of_le behind hle, byteAt_of_le other hle]
    exact ⟨fun heq _ => heq, fun hagree => hagree hle⟩

section Exact

variable (memory : Memory) (creation : Creation) (secret encryptionKey : Bytes)

/-- A consumer recovers the key exactly when it finds behind the secret what the
creator found there. -/
theorem recovers_iff (consumer : Consumer) :
    (derived memory creation secret encryptionKey consumer).encryptionKeyBits = encryptionKey ↔
      ∀ index < encryptionKey.length, secret.length ≤ index →
        memory.consumer consumer index = memory.creator index := by
  rw [derived_eq, masked_masked_eq_self_iff]
  simp only [byteAt_eq_byteAt_iff]

theorem agree_iff (consumer other : Consumer) :
    (derived memory creation secret encryptionKey consumer).encryptionKeyBits =
        (derived memory creation secret encryptionKey other).encryptionKeyBits ↔
      ∀ index < encryptionKey.length, secret.length ≤ index →
        memory.consumer consumer index = memory.consumer other index := by
  rw [derived_eq, derived_eq, masked_eq_masked_iff, length_masked]
  simp only [byteAt_eq_byteAt_iff]

/-- The indexes that are read are those of the encryption key. -/
theorem within_iff : (∀ index ∈ List.range encryptionKey.length, index < secret.length) ↔
    encryptionKey.length ≤ secret.length := by
  simp only [List.mem_range]
  constructor
  · intro hall
    exact Nat.le_of_not_lt fun hlt => Nat.lt_irrefl _ (hall secret.length hlt)
  · intro hle index hindex
    exact Nat.lt_of_lt_of_le hindex hle

end Exact

/-- Wrapping is inverted, whatever is behind the secret, exactly for the encryption
keys that are not longer than the secret. -/
theorem wraps_iff (memory : Memory) (creation : Creation) (secret encryptionKey : Bytes) :
    Wraps memory creation secret encryptionKey ↔ encryptionKey.length ≤ secret.length := by
  constructor
  · intro hwraps
    have hwithin := hwraps.created_within
    rw [create_eq] at hwithin
    exact (within_iff secret encryptionKey).mp hwithin
  · intro hlength
    have hwithin := (within_iff secret encryptionKey).mpr hlength
    refine ⟨?_, ?_, ?_, ?_⟩
    · intro consumer
      rw [recovers_iff]
      intro index hindex hle
      exact absurd hindex (Nat.not_lt_of_le (Nat.le_trans hlength hle))
    · intro consumer other
      rw [agree_iff]
      intro index hindex hle
      exact absurd hindex (Nat.not_lt_of_le (Nat.le_trans hlength hle))
    · rw [create_eq]
      exact hwithin
    · intro consumer
      rw [derived_eq]
      exact hwithin

def dirtyMemory : Memory :=
  ⟨fun _ => 0, fun consumer _ => if consumer = .contentDecryptor then 1 else 0⟩

/-- With such memory the decryptor derives neither a longer key nor what an encryptor
derives. -/
theorem derived_ne_of_longer (creation : Creation) {secret encryptionKey : Bytes}
    (h : secret.length < encryptionKey.length) :
    (derived dirtyMemory creation secret encryptionKey .contentDecryptor).encryptionKeyBits ≠
        encryptionKey ∧
      (derived dirtyMemory creation secret encryptionKey .contentDecryptor).encryptionKeyBits ≠
        (derived dirtyMemory creation secret encryptionKey
          .contentEncryptorOfVector).encryptionKeyBits := by
  have hcreated : (1 : UInt8) ≠ 0 := by decide
  refine ⟨?_, ?_⟩
  · intro hrecovers
    rw [recovers_iff] at hrecovers
    exact hcreated (hrecovers secret.length h (Nat.le_refl _))
  · intro hagree
    rw [agree_iff] at hagree
    exact hcreated (hagree secret.length h (Nat.le_refl _))

section RoundTrip

variable (memory : Memory) (creation : Creation) {secret encryptionKey : Bytes}

/-- What an encryptor made of a content under a wrapped key is decrypted to it. -/
theorem content_of_encrypted {content encryptedContent : Bytes}
    (hdecrypt : ∀ privateKey content encryptedContent,
      encryption.encrypt privateKey content = some encryptedContent →
        encryption.decrypt privateKey encryptedContent = some content)
    (hwraps : Wraps memory creation secret encryptionKey)
    (h : ContentEncryptor.ofVector encryption (memory.consumer .contentEncryptorOfVector)
      (keyPair memory creation secret encryptionKey).secret
      (keyPair memory creation secret encryptionKey).encodedKey content =
        some encryptedContent) :
    ContentDecryptor.content encryption (memory.consumer .contentDecryptor)
      (keyPair memory creation secret encryptionKey).secret
      (keyPair memory creation secret encryptionKey).encodedKey encryptedContent =
        some content := by
  obtain ⟨privateKey, hload, hencrypt⟩ := Option.bind_eq_some_iff.mp h
  refine Option.bind_eq_some_iff.mpr ⟨privateKey, ?_, hdecrypt _ _ _ hencrypt⟩
  have hagree := hwraps.agree .contentDecryptor .contentEncryptorOfVector
  exact (congrArg encryption.loadKey hagree).trans hload

/-- A signer of a wrapped key signs with the encryption key. -/
theorem signature_of_wrapped (hwraps : Wraps memory creation secret encryptionKey)
    (content : Bytes) :
    ContentSigner.ofVector signing (memory.consumer .contentSignerOfVector)
      (keyPair memory creation secret encryptionKey).secret
      (keyPair memory creation secret encryptionKey).encodedKey content =
        (SignatureGenerator.ofKey encryptionKey).sign signing content := by
  have hrecovers := hwraps.recovers .contentSignerOfVector
  exact congrArg (fun bits => (SignatureGenerator.ofKey bits).sign signing content) hrecovers

end RoundTrip

/-- The script of a session is decrypted with the key that a decryptor derives. -/
theorem getDerivedKey_eq (tools : Consensus.ConsensusHashGenerator.KeyTools PrivateKey)
    (secret encodedKey : Bytes) :
    Consensus.ConsensusHashGenerator.getDerivedKey tools secret encodedKey =
      (ContentDecryptor.getDerivedKey tools.behind secret encodedKey).encryptionKeyBits := by
  rw [ContentDecryptor.getDerivedKey, pushBytes_eq]
  rfl

/-- Of an encoded integer under a secret that is an encoded null, which is one byte
shorter, the decryptor derives another integer. -/
theorem longer_key_not_recovered :
    (Creation.givenSecret.create dirtyMemory.creator [5, 0] [2, 1, 5]).2 = [0, 1, 2] ∧
      (derived dirtyMemory .givenSecret [5, 0] [2, 1, 5] .contentDecryptor).encryptionKeyBits =
        [2, 1, 4] ∧
      (derived dirtyMemory .givenSecret [5, 0] [2, 1, 5]
        .contentEncryptorOfVector).encryptionKeyBits = [2, 1, 5] ∧
      ¬ Wraps dirtyMemory .givenSecret [5, 0] [2, 1, 5] := by
  have hread : (Creation.givenSecret.create dirtyMemory.creator [5, 0] [2, 1, 5]).2 =
      [0, 1, 2] := by decide +kernel
  refine ⟨hread, by decide +kernel, by decide +kernel, ?_⟩
  intro hwraps
  have hwithin := hwraps.created_within
  rw [hread] at hwithin
  exact absurd (hwithin 2 (by decide)) (by decide)

end Keto.KeyTools
