import Mathlib.Data.List.Basic

/-!
The data the nodes exchange and store: the ASN.1 records of a transaction,
its change sets and blocks and of a software consensus, and the protobuf messages that carry them.
A field holding an encoded value (`asn1_transaction_message`, the open type
of a change, the `msg` of a consensus message) is represented by what decoding
its bytes yields, `none` when decoding fails; encoding is taken to succeed and
decoding to invert it.
-/
namespace Keto.Protocol

abbrev Bytes := List UInt8

/-- The content of a `HashHelper`, which accepts any length, also none. -/
abbrev Hash := Bytes

def text (s : String) : Bytes := s.toList.map fun c => c.toNat.toUInt8

inductive Status
  | init
  | debit
  | processing
  | wating
  | fee
  | credit
  | complete
  deriving DecidableEq, Repr

inductive TransactionStatus
  | init
  | route
  | debit
  | process
  | credit
  | fee
  | complete
  | failure
  | reject
  deriving DecidableEq, Repr

inductive RDFChange
  | persist
  | remove
  | none
  deriving DecidableEq, Repr

structure RDFObject where
  value : Bytes
  type : Bytes
  lang : Bytes
  dataType : Bytes
  deriving DecidableEq, Repr

structure RDFPredicate where
  predicate : Bytes
  rdfObjects : List RDFObject
  deriving DecidableEq, Repr

structure RDFSubject where
  subject : Bytes
  rdfPredicates : List RDFPredicate
  deriving DecidableEq, Repr

/-- The choice of a data format; the lines of an n-triple group are never read. -/
inductive RDFDataFormat
  | rdfSubject (subject : RDFSubject)
  | rdfNtGroup
  deriving DecidableEq, Repr

structure RDFModel where
  action : RDFChange
  rdfDataFormat : List RDFDataFormat
  deriving DecidableEq, Repr

/-- An `asn1Change` holds any bytes: `none` when they are not an RDF model. -/
inductive ChangeData
  | asn1Change (change : Option RDFModel)
  | binaryChange (data : Bytes)
  deriving DecidableEq, Repr

structure ChangeSet where
  transactionHash : Hash
  accountHash : Hash
  status : Status
  changes : List ChangeData
  deriving DecidableEq, Repr

structure SignedChangeSet where
  changeSet : ChangeSet
  changeSetHash : Hash
  signature : Bytes
  deriving DecidableEq, Repr

structure SignedTransaction where
  transactionHash : Hash
  signature : Bytes
  deriving DecidableEq, Repr

structure TransactionMessage where
  sourceAccount : Hash
  targetAccount : Hash
  feeAccount : Hash
  transactionHash : Hash
  signature : Bytes
  signedTransaction : SignedTransaction
  currentStatus : Status
  changeSet : List SignedChangeSet
  deriving DecidableEq, Repr

structure Block where
  parent : Hash
  transactions : List TransactionMessage
  merkelRoot : Hash
  deriving DecidableEq, Repr

structure SignedBlock where
  parent : Hash
  block : Block
  hash : Hash
  signature : Bytes
  deriving DecidableEq, Repr

structure SoftwareConsensus where
  version : ℕ
  date : Bytes
  previousHash : Hash
  account : Hash
  seed : Hash
  systemHashs : List Hash
  merkelRoot : Hash
  signature : Bytes
  deriving DecidableEq, Repr

/-- The protobuf envelope of a software consensus. -/
structure ConsensusMessage where
  version : ℕ
  accountHash : Bytes
  msg : Option SoftwareConsensus
  deriving DecidableEq, Repr

/-- The protobuf envelope of a transaction. -/
structure Transaction where
  transactionHash : Bytes
  transactionSignature : Bytes
  activeAccount : Bytes
  status : TransactionStatus
  asn1TransactionMessage : Option TransactionMessage
  deriving DecidableEq, Repr

inductive MessageType
  | transaction
  | block
  deriving DecidableEq, Repr

inductive MessageOperation
  | init
  | route
  | balance
  | block
  | process
  | wait
  | persist
  deriving DecidableEq, Repr

/-- `google.protobuf.Any`, of which only packed transactions are unpacked. -/
inductive Any
  | transaction (transaction : Transaction)
  | other
  deriving DecidableEq, Repr

structure MessageWrapper where
  version : ℕ
  sessionHash : Bytes
  accountHash : Bytes
  messageType : MessageType
  messageOperation : MessageOperation
  msg : Any
  deriving DecidableEq, Repr

def Transaction.empty : Transaction where
  transactionHash := []
  transactionSignature := []
  activeAccount := []
  status := .init
  asn1TransactionMessage := none

/-- `msg().UnpackTo(&transaction)` leaves the default when another type is packed. -/
def MessageWrapper.unpack (wrapper : MessageWrapper) : Transaction :=
  match wrapper.msg with
  | .transaction transaction => transaction
  | .other => Transaction.empty

end Keto.Protocol
