import Keto.AccountDb.FailedTransaction
import Keto.Block.BlockProduction
import Keto.BlockDb.ChainRuns
import Keto.BlockDb.SignedBlockBuilder

/-!
The stores behind the block producer, over the lives of its process. A block is made in
one transaction over the block store and the account store: its transactions are applied
to the accounts, one after the other, and its commit is that of both stores. What throws
on the way ends the process, and the next one finds what is committed, and the graphs as
they are. Commits do not fail, and the first iteration of the producer comes after the
start of the modules.
-/
namespace Keto.Block

open Protocol TransactionCommon AccountDb BlockDb Crypto Library.Stateful
open BlockProduction (ProducerThread)

inductive NodeFailure
  | blockDb (exception : BlockDbException)
  | transaction (exception : TransactionException)
  | account (failure : AccountDbFailure)
  | builder (exception : BuilderException)

structure Stores (Graph : Type) where
  chain : BlockChainStore
  accounts : AccountStore Graph

abbrev StoresM (Graph : Type) := EStateM NodeFailure (Stores Graph)

/-- What a node is made with. The encoding of a block has the date in it. -/
structure NodeContext (Graph PrivateKey : Type) where
  hex : HexCodec
  librdf : Librdf Graph
  signing : Signing PrivateKey
  encodeBlock : Bytes → Block → Option Bytes
  keyLoader : KeyLoader

variable {Graph PrivateKey : Type} (context : NodeContext Graph PrivateKey)

namespace Stores

def onAccounts {α : Type} (x : AccountM Graph α) : StoresM Graph α := fun s =>
  match x s.accounts with
  | .ok a accounts => .ok a { s with accounts := accounts }
  | .error failure accounts => .error (.account failure) { s with accounts := accounts }

def getParentHash : StoresM Graph Hash := fun s =>
  match s.chain.getParentHash with
  | (.ok hash, chain) => .ok hash { s with chain := chain }
  | (.error exception, chain) => .error (.blockDb exception) { s with chain := chain }

def commit (s : Stores Graph) : Stores Graph := ⟨s.chain.commit, s.accounts.commit⟩

def applyAccountTransaction (transaction : Transaction) : StoresM Graph TransactionMessage := do
  let message ← fromExcept
    ((TransactionProtoHelper.getTransactionMessageHelper transaction).mapError .transaction)
  onAccounts (AccountStore.applyTransaction context.hex context.librdf message)
  return message

def addTransaction (builder : BlockBuilder) (transaction : Transaction) :
    StoresM Graph BlockBuilder := do
  let message ← applyAccountTransaction context transaction
  fromExcept ((BlockBuilder.addTransactionMessage (some message) builder).mapError .builder)

def signedBlock (date : Bytes) (builder : BlockBuilder) : Except BuilderException SignedBlock := do
  let block ← BlockBuilder.toBlock context.signing builder
  match SignedBlockBuilder.ofBlock context.signing (context.encodeBlock date) block
      (some context.keyLoader) with
  | .error exception _ => .error exception
  | .ok _ unsigned =>
    let signed ← unsigned.sign context.signing
    match signed.signedBlock with
    | some signedBlock => .ok signedBlock
    | none => .error .signedBlockReleased

def produce (date : Bytes) (parentHash : Hash) (transactions : List Transaction) :
    StoresM Graph PUnit := do
  let builder ← transactions.foldlM (addTransaction context) (BlockBuilder.ofParent parentHash)
  let signed ← fromExcept ((signedBlock context date builder).mapError .builder)
  modify fun s => { s with chain := s.chain.writeBlock signed }

def generateBlock (date : Bytes) (transactions : List Transaction) : StoresM Graph PUnit := do
  let parentHash ← getParentHash
  produce context date parentHash transactions
  modify commit

/-- The transactions of a genesis document, made by the loader, and the parent it names. -/
structure Genesis where
  parent : Hash
  transactions : List Transaction

/-- `BlockService::genesis`; there may be no document. -/
def genesis (date : Bytes) (document : Option Genesis) : StoresM Graph PUnit := do
  let required ← modifyGet fun s =>
    (s.chain.requireGenesis.1, { s with chain := s.chain.requireGenesis.2 })
  if required then
    match document with
    | some document => produce context date document.parent document.transactions
    | none => return

/-- `BlockModuleManager::postStart`, up to the registration of the service. -/
def postStart (date : Bytes) (document : Option Genesis) : StoresM Graph PUnit := do
  genesis context date document
  modify commit

def opened (s : Stores Graph) : Stores Graph :=
  ⟨.create s.chain.database.committed, FailedTransaction.start context.librdf
    s.accounts.accounts.committed s.accounts.graphStores.databases⟩

end Stores

/-- A node, with the transactions that were accepted in all its processes. A thread that
has crashed has ended its process. -/
structure ChainNode (Graph : Type) where
  stores : Stores Graph
  producer : BlockProducer
  thread : ProducerThread
  accepted : List Transaction

namespace ChainNode

def off : ChainNode Graph :=
  ⟨⟨.create BlockDatabase.empty, .empty⟩, ⟨.inited, []⟩, .crashed, []⟩

inductive Operation
  /-- The process ends, if there is one, and a new one is started. -/
  | restart (date : Bytes) (document : Option Stores.Genesis)
  | addTransaction (transaction : Transaction)
  | terminate
  | checkState
  | getTransactions
  | generateBlock (date : Bytes)

def next (thread : ProducerThread) : EStateM.Result NodeFailure (Stores Graph) PUnit →
    Stores Graph × ProducerThread
  | .ok _ stores => (stores, thread)
  | .error _ stores => (stores, .crashed)

def restart (date : Bytes) (document : Option Stores.Genesis) (node : ChainNode Graph) :
    ChainNode Graph :=
  let started := next .checking
    (Stores.postStart context date document (Stores.opened context node.stores))
  ⟨started.1, ⟨.inited, []⟩, started.2, node.accepted⟩

def perform (operation : Operation) (node : ChainNode Graph) : ChainNode Graph :=
  match operation with
  | .restart date document => restart context date document node
  | .addTransaction transaction =>
    match node.producer.addTransaction transaction with
    | .ok producer =>
      { node with producer := producer, accepted := node.accepted ++ [transaction] }
    | .error _ => node
  | .terminate => { node with producer := BlockProduction.terminate node.producer }
  | .checkState =>
    if node.thread = .checking then
      { node with
        thread := if node.producer.currentState = .terminated then .returned else .checked }
    else node
  | .getTransactions =>
    if node.thread = .checked then
      { node with
        producer := { node.producer with transactions := [] }
        thread := .generating node.producer.transactions }
    else node
  | .generateBlock date =>
    match node.thread with
    | .generating batch =>
      let generated := next .checking (Stores.generateBlock context date batch node.stores)
      { node with stores := generated.1, thread := generated.2 }
    | _ => node

def step (operation : Operation) (node : ChainNode Graph) : ChainNode Graph :=
  if node.thread = .crashed then
    match operation with
    | .restart date document => restart context date document node
    | _ => node
  else perform context operation node

end ChainNode

end Keto.Block
