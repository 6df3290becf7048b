import Keto.Asn1.BerEncodingHelper
import Keto.ChainCommon.TransactionBuilder
import Keto.Library.Sealing
import Mathlib.Logic.Function.Basic

/-!
The builder of a signed transaction, over builders of transactions. It hashes what
the builder of the transaction serializes and takes the transaction, signs the hash,
and keeps its own serialization as the builders of transactions do.
-/
namespace Keto.ChainCommon

open Protocol (Bytes Hash)
open Asn1 Crypto Library.Fallible Library.Runs Library.Sealing

variable {PrivateKey : Type} (signing : Signing PrivateKey) (codec : DerCodec)

/-- The private key is the key of its helper. -/
structure SignedTransactionBuilder where
  signedTransaction : SignedTransaction
  privateKey : Bytes
  serializationHelper : Option Bytes
  deriving DecidableEq, Repr

namespace SignedTransactionBuilder

def createTransaction (privateKey : Bytes) : SignedTransactionBuilder :=
  ⟨⟨protocolVersion, Transaction.zero, [], []⟩, privateKey, none⟩

def generator (builder : SignedTransactionBuilder) : SignatureGenerator :=
  .ofKey (BerEncodingHelper.ofBerEncoding_t builder.privateKey)

/-- The transaction is hashed as its builder serializes it, then taken from there. -/
def setTransaction (transactionBuilder : TransactionBuilder) (builder : SignedTransactionBuilder) :
    Except ChainCommonException (TransactionBuilder × SignedTransactionBuilder) := do
  let (bytes, serialized) ← transactionBuilder.serializeTransaction codec
  let (transaction, taken) := serialized.takePtr
  match transaction with
  | some transaction => return (taken, { builder with signedTransaction :=
      { builder.signedTransaction with
        transactionHash := signing.generateHash bytes
        transaction := transaction } })
  | none => .error .nullTransaction

def sign (builder : SignedTransactionBuilder) :
    Except ChainCommonException SignedTransactionBuilder := do
  let signature ← (builder.generator.sign signing
    builder.signedTransaction.transactionHash).mapError .crypto
  return { builder with signedTransaction :=
    { builder.signedTransaction with signature := signature } }

/-- The conversions to bytes and `size` serialize first; the bytes and the builder. -/
def serializeTransaction (builder : SignedTransactionBuilder) :
    Except ChainCommonException (Bytes × SignedTransactionBuilder) :=
  match SerializationHelper.serialize codec.encodeSignedTransaction
      (some builder.signedTransaction) builder.serializationHelper with
  | some bytes => .ok (bytes, { builder with serializationHelper := some bytes })
  | none => .error .serialization

theorem serializeTransaction_eq_ok {codec : DerCodec}
    {builder serialized : SignedTransactionBuilder} {bytes : Bytes}
    (h : serializeTransaction codec builder = .ok (bytes, serialized)) :
    SerializationHelper.serialize codec.encodeSignedTransaction
      (some builder.signedTransaction) builder.serializationHelper = some bytes ∧
      serialized = { builder with serializationHelper := some bytes } := by
  rw [serializeTransaction] at h
  split at h
  · rename_i found hfound
    obtain ⟨rfl, rfl⟩ := Prod.mk.inj (Except.ok.inj h)
    exact ⟨hfound, rfl⟩
  · cases h

/-- What the builder keeps serialized, if anything, is its signed transaction. -/
def Fresh (builder : SignedTransactionBuilder) : Prop :=
  SerializationHelper.Fresh codec.encodeSignedTransaction (some builder.signedTransaction)
    builder.serializationHelper

def Signed (builder : SignedTransactionBuilder) : Prop :=
  builder.generator.sign signing builder.signedTransaction.transactionHash =
    .ok builder.signedTransaction.signature

/-- The bytes decode to the signed transaction of the builder; its hash is that of the
transaction in it, and the signature is over this hash. -/
structure Consistent (builder : SignedTransactionBuilder) (bytes : Bytes) : Prop where
  current : codec.decodeSignedTransaction bytes = some builder.signedTransaction
  hash : (codec.encodeTransaction builder.signedTransaction.transaction).map signing.generateHash =
    some builder.signedTransaction.transactionHash
  signed : Signed signing builder

end SignedTransactionBuilder

structure Builders where
  transactions : ℕ → TransactionBuilder
  signed : SignedTransactionBuilder

namespace Builders

def start (dates : ℕ → Bytes) (privateKey : Bytes) : Builders :=
  ⟨fun index => TransactionBuilder.createTransaction (dates index),
    SignedTransactionBuilder.createTransaction privateKey⟩

inductive Call
  | setValue (index : ℕ) (value : ℤ)
  | setParent (index : ℕ) (parent : Hash)
  | setSourceAccount (index : ℕ) (account : Hash)
  | setTargetAccount (index : ℕ) (account : Hash)
  | addAction (index : ℕ) (action : Option Action)
  | serialize (index : ℕ)
  | setTransaction (index : ℕ)
  | sign
  | serializeSigned
  deriving DecidableEq, Repr

def atBuilder (index : ℕ)
    (call : TransactionBuilder → Except ChainCommonException TransactionBuilder) (s : Builders) :
    Except ChainCommonException Builders := do
  let builder ← call (s.transactions index)
  return { s with transactions := Function.update s.transactions index builder }

def perform : Call → Builders → Except ChainCommonException Builders
  | .setValue index value, s => atBuilder index (TransactionBuilder.setValue value) s
  | .setParent index parent, s => atBuilder index (TransactionBuilder.setParent parent) s
  | .setSourceAccount index account, s =>
    atBuilder index (TransactionBuilder.setSourceAccount account) s
  | .setTargetAccount index account, s =>
    atBuilder index (TransactionBuilder.setTargetAccount account) s
  | .addAction index action, s => atBuilder index (TransactionBuilder.addAction action) s
  | .serialize index, s =>
    atBuilder index (fun builder => Prod.snd <$> builder.serializeTransaction codec) s
  | .setTransaction index, s => do
    let (taken, signed) ← s.signed.setTransaction signing codec (s.transactions index)
    return ⟨Function.update s.transactions index taken, signed⟩
  | .sign, s => do
    let signed ← s.signed.sign signing
    return { s with signed := signed }
  | .serializeSigned, s => do
    let (_, signed) ← s.signed.serializeTransaction codec
    return { s with signed := signed }

def step (call : Call) (s : Builders) : Builders :=
  match perform signing codec call s with
  | .ok s' => s'
  | .error _ => s

def SetsTransaction (call : Call) (s : Builders) : Prop :=
  (∃ index, call = .setTransaction index) ∧ ∃ s', perform signing codec call s = .ok s'

def Signs (call : Call) (s : Builders) : Prop :=
  call = .sign ∧ ∃ s', perform signing codec call s = .ok s'

inductive SignedStep (call : Call) (s : Builders) : SignedTransactionBuilder → Prop
  | kept (hcall : ¬ SetsTransaction signing codec call s) : SignedStep call s s.signed
  | transaction (index : ℕ) (bytes : Bytes) (transaction : Transaction)
      (hcall : call = .setTransaction index) (hsets : SetsTransaction signing codec call s)
      (hbytes : SerializationHelper.serialize codec.encodeTransaction
        (s.transactions index).transaction (s.transactions index).serializationHelper = some bytes)
      (htransaction : (s.transactions index).transaction = some transaction) :
      SignedStep call s { s.signed with signedTransaction := { s.signed.signedTransaction with
        transactionHash := signing.generateHash bytes, transaction := transaction } }
  | signature (signature : Bytes) (hcall : call = .sign)
      (hsign : s.signed.generator.sign signing s.signed.signedTransaction.transactionHash =
        .ok signature) :
      SignedStep call s { s.signed with signedTransaction :=
        { s.signed.signedTransaction with signature := signature } }
  | serialized (bytes : Bytes) (hcall : call = .serializeSigned)
      (hbytes : SerializationHelper.serialize codec.encodeSignedTransaction
        (some s.signed.signedTransaction) s.signed.serializationHelper = some bytes) :
      SignedStep call s { s.signed with serializationHelper := some bytes }

variable {signing codec}

theorem not_sets {call : Call} {s : Builders} (h : ∀ index, call ≠ .setTransaction index) :
    ¬ SetsTransaction signing codec call s := by
  intro hsets
  obtain ⟨index, hcall⟩ := hsets.1
  exact h index hcall

theorem step_of_error {call : Call} {s : Builders} {e : ChainCommonException}
    (h : perform signing codec call s = .error e) : step signing codec call s = s := by
  rw [step, h]

theorem step_of_ok {call : Call} {s s' : Builders} (h : perform signing codec call s = .ok s') :
    step signing codec call s = s' := by
  rw [step, h]

theorem signedStep_atBuilder {call : Call} {s : Builders} {index : ℕ}
    {f : TransactionBuilder → Except ChainCommonException TransactionBuilder}
    (hcall : ∀ index, call ≠ .setTransaction index)
    (h : perform signing codec call s = atBuilder index f s) :
    SignedStep signing codec call s (step signing codec call s).signed := by
  have hkept : (step signing codec call s).signed = s.signed := by
    cases hperform : perform signing codec call s with
    | error e => rw [step_of_error hperform]
    | ok s' =>
      obtain ⟨builder, _, hresult⟩ := bind_eq_ok.mp (h.symm.trans hperform)
      obtain rfl := Except.ok.inj hresult
      rw [step_of_ok hperform]
  rw [hkept]
  exact .kept (not_sets hcall)

theorem signedStep (call : Call) (s : Builders) :
    SignedStep signing codec call s (step signing codec call s).signed := by
  cases call with
  | setValue index value => exact signedStep_atBuilder (by simp) rfl
  | setParent index parent => exact signedStep_atBuilder (by simp) rfl
  | setSourceAccount index account => exact signedStep_atBuilder (by simp) rfl
  | setTargetAccount index account => exact signedStep_atBuilder (by simp) rfl
  | addAction index action => exact signedStep_atBuilder (by simp) rfl
  | serialize index =>
    have hperform : perform signing codec (.serialize index) s =
        atBuilder index (fun builder => Prod.snd <$> builder.serializeTransaction codec) s := rfl
    exact signedStep_atBuilder (by simp) hperform
  | setTransaction index =>
    cases hperform : perform signing codec (.setTransaction index) s with
    | error e =>
      rw [step_of_error hperform]
      refine .kept ?_
      intro hsets
      obtain ⟨s', hs'⟩ := hsets.2
      rw [hperform] at hs'
      cases hs'
    | ok s' =>
      rw [step_of_ok hperform]
      obtain ⟨⟨taken, signed⟩, hset, hresult⟩ := bind_eq_ok.mp hperform
      obtain rfl := Except.ok.inj hresult
      obtain ⟨⟨bytes, serialized⟩, hbytes, hrest⟩ := bind_eq_ok.mp hset
      obtain ⟨hserialize, rfl⟩ := TransactionBuilder.serializeTransaction_eq_ok hbytes
      cases htransaction : (s.transactions index).transaction with
      | none => simp [TransactionBuilder.takePtr, htransaction] at hrest
      | some transaction =>
        simp only [TransactionBuilder.takePtr, htransaction] at hrest
        obtain ⟨_, rfl⟩ := Prod.mk.inj (Except.ok.inj hrest)
        exact .transaction index bytes transaction rfl ⟨⟨index, rfl⟩, _, hperform⟩ hserialize
          htransaction
  | sign =>
    cases hperform : perform signing codec .sign s with
    | error e =>
      rw [step_of_error hperform]
      exact .kept (not_sets (by simp))
    | ok s' =>
      rw [step_of_ok hperform]
      obtain ⟨signed, hsigned, hresult⟩ := bind_eq_ok.mp hperform
      obtain rfl := Except.ok.inj hresult
      obtain ⟨signature, hsignature, hrest⟩ := bind_eq_ok.mp hsigned
      obtain rfl := Except.ok.inj hrest
      exact .signature signature rfl (mapError_eq_ok.mp hsignature)
  | serializeSigned =>
    cases hperform : perform signing codec .serializeSigned s with
    | error e =>
      rw [step_of_error hperform]
      exact .kept (not_sets (by simp))
    | ok s' =>
      rw [step_of_ok hperform]
      obtain ⟨⟨bytes, signed⟩, hsigned, hresult⟩ := bind_eq_ok.mp hperform
      obtain rfl := Except.ok.inj hresult
      obtain ⟨hserialize, rfl⟩ := SignedTransactionBuilder.serializeTransaction_eq_ok hsigned
      exact .serialized bytes rfl hserialize

def Carries (transaction : Transaction) (hash : Hash) (s : Builders) : Prop :=
  s.signed.signedTransaction.transaction = transaction ∧
    s.signed.signedTransaction.transactionHash = hash

def KeepsEncoding (codec : DerCodec) (s : Builders) : Prop :=
  ∀ bytes, s.signed.serializationHelper = some bytes →
    ∃ signedTransaction, codec.encodeSignedTransaction signedTransaction = some bytes

/-- What a `setTransaction` that returns serialized and took. -/
theorem carries_of_sets {index : ℕ} {s : Builders}
    (hsets : SetsTransaction signing codec (.setTransaction index) s) :
    ∃ bytes transaction,
      SerializationHelper.serialize codec.encodeTransaction (s.transactions index).transaction
        (s.transactions index).serializationHelper = some bytes ∧
      (s.transactions index).transaction = some transaction ∧
      Carries transaction (signing.generateHash bytes)
        (step signing codec (.setTransaction index) s) := by
  have hstep := @signedStep _ signing codec (.setTransaction index) s
  simp only [Carries]
  generalize (step signing codec (.setTransaction index) s).signed = signed at hstep
  cases hstep with
  | kept hcall => exact absurd hsets hcall
  | transaction other bytes transaction hcall _ hbytes htransaction =>
    obtain rfl := Call.setTransaction.inj hcall
    exact ⟨bytes, transaction, hbytes, htransaction, rfl, rfl⟩
  | signature signature hcall _ => cases hcall
  | serialized bytes hcall _ => cases hcall

/-- Only a `setTransaction` that returns changes the transaction or its hash. -/
theorem carries_step {call : Call} {s : Builders} {transaction : Transaction} {hash : Hash}
    (h : Carries transaction hash s) (hcall : ¬ SetsTransaction signing codec call s) :
    Carries transaction hash (step signing codec call s) := by
  have hstep := @signedStep _ signing codec call s
  rw [Carries]
  generalize (step signing codec call s).signed = signed at hstep
  cases hstep with
  | kept _ => exact h
  | transaction index bytes transaction' _ hsets _ _ => exact absurd hsets hcall
  | signature signature _ _ => exact h
  | serialized bytes _ _ => exact h

/-- A `sign` that returns leaves the signature over the hash. -/
theorem signed_of_signs {call : Call} {s : Builders} (h : Signs signing codec call s) :
    (step signing codec call s).signed.Signed signing := by
  obtain ⟨rfl, s', hperform⟩ := h
  rw [step_of_ok hperform]
  obtain ⟨signed, hsigned, hresult⟩ := bind_eq_ok.mp hperform
  obtain rfl := Except.ok.inj hresult
  obtain ⟨signature, hsignature, hrest⟩ := bind_eq_ok.mp hsigned
  obtain rfl := Except.ok.inj hrest
  exact mapError_eq_ok.mp hsignature

theorem signed_step {call : Call} {s : Builders} (h : s.signed.Signed signing)
    (hcall : ¬ SetsTransaction signing codec call s) :
    (step signing codec call s).signed.Signed signing := by
  have hstep := @signedStep _ signing codec call s
  generalize (step signing codec call s).signed = signed at hstep
  cases hstep with
  | kept _ => exact h
  | transaction index bytes transaction _ hsets _ _ => exact absurd hsets hcall
  | signature signature _ hsign => exact hsign
  | serialized bytes _ _ => exact h

theorem keepsEncoding_step (call : Call) {s : Builders} (h : KeepsEncoding codec s) :
    KeepsEncoding codec (step signing codec call s) := by
  have hstep := @signedStep _ signing codec call s
  rw [KeepsEncoding]
  generalize (step signing codec call s).signed = signed at hstep
  cases hstep with
  | kept _ => exact h
  | transaction index bytes transaction _ _ _ _ => exact h
  | signature signature _ _ => exact h
  | serialized bytes _ hbytes =>
    intro kept hkept
    obtain rfl := Option.some.inj hkept
    cases hheld : s.signed.serializationHelper with
    | some held =>
      rw [hheld] at hbytes
      obtain rfl := Option.some.inj hbytes
      exact h held hheld
    | none =>
      rw [hheld] at hbytes
      exact ⟨_, hbytes⟩

theorem keepsEncoding_run (dates : ℕ → Bytes) (privateKey : Bytes) (calls : List Call) :
    KeepsEncoding codec (run (step signing codec) (start dates privateKey) calls) :=
  run_keeps (step signing codec) (fun call _ h => keepsEncoding_step call h)
    (fun _ h => absurd h (by simp [start, SignedTransactionBuilder.createTransaction])) calls

/-- What is returned decodes to the current content when it is its encoding. -/
theorem decodes_iff (hlawful : codec.Lawful) {s : Builders} (hkeeps : KeepsEncoding codec s)
    {bytes : Bytes} (hbytes : SerializationHelper.serialize codec.encodeSignedTransaction
      (some s.signed.signedTransaction) s.signed.serializationHelper = some bytes) :
    codec.decodeSignedTransaction bytes = some s.signed.signedTransaction ↔
      s.signed.Fresh codec := by
  rw [SignedTransactionBuilder.Fresh, SerializationHelper.fresh_iff _ hbytes, Option.bind_some]
  constructor
  · intro hdecode
    cases hheld : s.signed.serializationHelper with
    | none =>
      rw [hheld] at hbytes
      exact hbytes
    | some held =>
      rw [hheld] at hbytes
      obtain rfl := Option.some.inj hbytes
      obtain ⟨signedTransaction, hencode⟩ := hkeeps held hheld
      have hsame := Option.some.inj ((hlawful _ _ hencode).symm.trans hdecode)
      rw [← hsame]
      exact hencode
  · exact hlawful _ _

theorem hash_iff {index : ℕ} {s : Builders} {bytes : Bytes} {transaction : Transaction}
    (hbytes : SerializationHelper.serialize codec.encodeTransaction
      (s.transactions index).transaction (s.transactions index).serializationHelper = some bytes)
    (htransaction : (s.transactions index).transaction = some transaction) :
    ((s.transactions index).Fresh codec →
      (codec.encodeTransaction transaction).map signing.generateHash =
        some (signing.generateHash bytes)) ∧
    (Function.Injective signing.generateHash →
      (codec.encodeTransaction transaction).map signing.generateHash =
        some (signing.generateHash bytes) → (s.transactions index).Fresh codec) := by
  rw [TransactionBuilder.Fresh, SerializationHelper.fresh_iff _ hbytes, htransaction,
    Option.bind_some]
  constructor
  · intro hencode
    rw [hencode, Option.map_some]
  · intro hinjective hhash
    obtain ⟨der, hencode, hder⟩ := Option.map_eq_some_iff.mp hhash
    rw [hencode, hinjective hder]

/-- When a `sign` follows the last `setTransaction` and the builder serializes, the bytes
are the current content, hashed and signed, if neither the builder of the transaction, when
it was handed over, nor that of the signed one keeps the serialization of other content.
With a hash function that is injective they are not otherwise. -/
theorem consistent_exact (hlawful : codec.Lawful) (dates : ℕ → Bytes) (privateKey : Bytes)
    (before : List Call) (index : ℕ) (between rest : List Call)
    (hlast : SignedAfter (step signing codec) (SetsTransaction signing codec)
      (Signs signing codec) (run (step signing codec) (start dates privateKey) before)
      (.setTransaction index) between .sign rest)
    (s : Builders)
    (hs : s = run (step signing codec) (start dates privateKey)
      (before ++ .setTransaction index :: (between ++ .sign :: rest)))
    (bytes : Bytes) (serialized : SignedTransactionBuilder)
    (hbytes : s.signed.serializeTransaction codec = .ok (bytes, serialized)) :
    (((run (step signing codec) (start dates privateKey) before).transactions index).Fresh codec ∧
        s.signed.Fresh codec → s.signed.Consistent signing codec bytes) ∧
    (Function.Injective signing.generateHash → s.signed.Consistent signing codec bytes →
      ((run (step signing codec) (start dates privateKey) before).transactions index).Fresh codec ∧
        s.signed.Fresh codec) := by
  obtain ⟨hashed, transaction, hhashed, htransaction, hcarries⟩ := carries_of_sets hlast.1
  obtain ⟨hcarried, hsigned⟩ := @SignedAfter.holds _ _ _ _ _
    (Carries transaction (signing.generateHash hashed)) (fun s => s.signed.Signed signing)
    _ _ _ _ _ hlast hcarries (fun _ _ h hcall => carries_step h hcall)
    (fun _ hsigns _ => signed_of_signs hsigns) (fun _ _ _ h hcall => signed_step h hcall)
  rw [← run_append, ← hs] at hcarried hsigned
  have hkeeps : KeepsEncoding codec s := hs ▸ keepsEncoding_run dates privateKey _
  have hserialize := (SignedTransactionBuilder.serializeTransaction_eq_ok hbytes).1
  have hcurrent := decodes_iff hlawful hkeeps hserialize
  have hhash := @hash_iff _ signing codec _ _ _ _ hhashed htransaction
  rw [← hcarried.1, ← hcarried.2] at hhash
  constructor
  · intro hfresh
    exact ⟨hcurrent.mpr hfresh.2, hhash.1 hfresh.1, hsigned⟩
  · intro hinjective hconsistent
    exact ⟨hhash.2 hinjective hconsistent.hash, hcurrent.mp hconsistent.current⟩

def valued (value : ℤ) : Transaction := { Transaction.zero with version := 1, date := [1], value }

def listCodec : DerCodec where
  encodeTransaction := SerializationHelper.listEncode [valued 0, valued 20]
  encodeSignedTransaction := SerializationHelper.listEncode
    [⟨1, valued 20, [], [3]⟩, ⟨1, valued 20, [0], [3, 0]⟩]
  decodeSignedTransaction := SerializationHelper.listDecode
    [⟨1, valued 20, [], [3]⟩, ⟨1, valued 20, [0], [3, 0]⟩]

theorem listCodec_lawful : listCodec.Lawful :=
  fun _ _ h => SerializationHelper.listDecode_listEncode h

theorem consistent_exact_valued :
    (run (step .plain listCodec) (start (fun _ => [1]) [3])
        [.setValue 0 20, .setTransaction 0, .sign]).signed.Consistent .plain listCodec [0] ∧
      (run (step .plain listCodec) (start (fun _ => [1]) [3])
        [.setValue 0 20, .setTransaction 0, .sign]).signed.Fresh listCodec := by
  have h := @consistent_exact _ .plain _ listCodec_lawful (fun _ => [1]) [3] [.setValue 0 20]
    0 [] [] ⟨⟨⟨0, rfl⟩, _, rfl⟩, ⟨rfl, _, rfl⟩, not_sets (by simp), trivial⟩ _ rfl [0] _ rfl
  have hconsistent := h.1 ⟨fun _ hkept => (nomatch hkept), fun _ hkept => (nomatch hkept)⟩
  exact ⟨hconsistent, (h.2 Function.injective_id hconsistent).2⟩

/-- The builder of the transaction is asked for its size before the value is set: the hash
is that of the transaction without the value. -/
theorem hash_of_earlier_serialization :
    SignedLast (step .plain listCodec) (SetsTransaction .plain listCodec) (Signs .plain listCodec)
        (start (fun _ => [1]) [3]) [.serialize 0, .setValue 0 20, .setTransaction 0, .sign] ∧
      (run (step .plain listCodec) (start (fun _ => [1]) [3])
        [.serialize 0, .setValue 0 20, .setTransaction 0, .sign]).signed.signedTransaction =
          ⟨1, valued 20, [], [3]⟩ ∧
      ¬ (run (step .plain listCodec) (start (fun _ => [1]) [3])
        [.serialize 0, .setValue 0 20, .setTransaction 0, .sign]).signed.Consistent .plain
          listCodec [] := by
  refine ⟨⟨[.serialize 0, .setValue 0 20], .setTransaction 0, [], .sign, [], rfl,
    ⟨⟨0, rfl⟩, _, rfl⟩, ⟨rfl, _, rfl⟩, not_sets (by simp), trivial⟩, rfl, ?_⟩
  intro hconsistent
  exact absurd hconsistent.hash (by decide)

end Builders

end Keto.ChainCommon
