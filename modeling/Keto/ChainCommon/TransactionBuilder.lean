import Keto.Asn1.SerializationHelper
import Keto.Crypto.SignatureGenerator
import Mathlib.Data.Int.Notation

/-!
The builder of a transaction: its setters, its serialization, which is made once
and kept, and the release of the transaction, after which the builder has none.
-/
namespace Keto.ChainCommon

open Protocol (Bytes Hash)
open Asn1

structure Action where
  version : ℕ
  date : Bytes
  contract : Hash
  parent : Hash
  model : Bytes
  deriving DecidableEq, Repr

structure Transaction where
  version : ℕ
  date : Bytes
  value : ℤ
  parent : Hash
  sourceAccount : Hash
  targetAccount : Hash
  actions : List Action
  deriving DecidableEq, Repr

structure SignedTransaction where
  version : ℕ
  transaction : Transaction
  transactionHash : Hash
  signature : Bytes
  deriving DecidableEq, Repr

/-- The encodings, which are refused for records that break their constraints. -/
structure DerCodec where
  encodeTransaction : Transaction → Option Bytes
  encodeSignedTransaction : SignedTransaction → Option Bytes
  decodeSignedTransaction : Bytes → Option SignedTransaction

def DerCodec.Lawful (codec : DerCodec) : Prop :=
  ∀ signedTransaction bytes, codec.encodeSignedTransaction signedTransaction = some bytes →
    codec.decodeSignedTransaction bytes = some signedTransaction

/-- The last is no exception: a released transaction is written to. -/
inductive ChainCommonException
  | actionSequenceAddFailed
  | serialization
  | crypto (e : Crypto.CryptoException)
  | nullTransaction
  deriving DecidableEq, Repr

def protocolVersion : ℕ := 1

def Transaction.zero : Transaction := ⟨0, [], 0, [], [], [], []⟩

structure TransactionBuilder where
  transaction : Option Transaction
  serializationHelper : Option Bytes
  deriving DecidableEq, Repr

namespace TransactionBuilder

def createTransaction (date : Bytes) : TransactionBuilder :=
  ⟨some { Transaction.zero with version := protocolVersion, date := date }, none⟩

def write (f : Transaction → Transaction) (builder : TransactionBuilder) :
    Except ChainCommonException TransactionBuilder :=
  match builder.transaction with
  | some transaction => .ok { builder with transaction := some (f transaction) }
  | none => .error .nullTransaction

def setValue (value : ℤ) : TransactionBuilder → Except ChainCommonException TransactionBuilder :=
  write fun transaction => { transaction with value := value }

def setParent (parent : Hash) :
    TransactionBuilder → Except ChainCommonException TransactionBuilder :=
  write fun transaction => { transaction with parent := parent }

def setSourceAccount (account : Hash) :
    TransactionBuilder → Except ChainCommonException TransactionBuilder :=
  write fun transaction => { transaction with sourceAccount := account }

def setTargetAccount (account : Hash) :
    TransactionBuilder → Except ChainCommonException TransactionBuilder :=
  write fun transaction => { transaction with targetAccount := account }

/-- The action is taken from its builder, which has none when it was taken before. -/
def addAction (action : Option Action) (builder : TransactionBuilder) :
    Except ChainCommonException TransactionBuilder :=
  match builder.transaction, action with
  | none, _ => .error .nullTransaction
  | some _, none => .error .actionSequenceAddFailed
  | some transaction, some action => .ok { builder with
      transaction := some { transaction with actions := transaction.actions ++ [action] } }

def serializeTransaction (codec : DerCodec) (builder : TransactionBuilder) :
    Except ChainCommonException (Bytes × TransactionBuilder) :=
  match SerializationHelper.serialize codec.encodeTransaction builder.transaction
      builder.serializationHelper with
  | some bytes => .ok (bytes, { builder with serializationHelper := some bytes })
  | none => .error .serialization

def takePtr (builder : TransactionBuilder) : Option Transaction × TransactionBuilder :=
  (builder.transaction, { builder with transaction := none })

def Fresh (codec : DerCodec) (builder : TransactionBuilder) : Prop :=
  SerializationHelper.Fresh codec.encodeTransaction builder.transaction
    builder.serializationHelper

theorem serializeTransaction_eq_ok {codec : DerCodec} {builder serialized : TransactionBuilder}
    {bytes : Bytes} (h : serializeTransaction codec builder = .ok (bytes, serialized)) :
    SerializationHelper.serialize codec.encodeTransaction builder.transaction
      builder.serializationHelper = some bytes ∧
      serialized = { builder with serializationHelper := some bytes } := by
  rw [serializeTransaction] at h
  split at h
  · rename_i found hfound
    obtain ⟨rfl, rfl⟩ := Prod.mk.inj (Except.ok.inj h)
    exact ⟨hfound, rfl⟩
  · cases h

end TransactionBuilder

end Keto.ChainCommon
