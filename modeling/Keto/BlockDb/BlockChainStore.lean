import Keto.Library.Overlay
import Keto.Protocol
import Mathlib.Data.Int.Notation
import Mathlib.Logic.Function.Basic

/-!
The block chain store: the columns of its database, the puts of one block and
the two values the store caches in memory. Reads and writes go through the
rocksdb transaction of the block resource, an overlay over the committed
columns. `PARENT_KEY` and `BLOCK_COUNT` share a column with the blocks in the
database; no hash is spelled like them, so they are fields of their own here.
-/
namespace Keto.BlockDb

open Protocol Library

def genesisKey : Hash :=
  [0x22, 0xae, 0xc5, 0x88, 0x89, 0x50, 0x4a, 0xb8, 0x35, 0xd6, 0xfc, 0x62, 0xb7, 0x9c, 0xd3, 0x42,
    0xcf, 0x13, 0xa6, 0x20, 0x28, 0x83, 0xdd, 0x01, 0x37, 0x81, 0x00, 0x5b, 0x49, 0xe5, 0x9d, 0xf2]

/-- The columns `blocks`, `childs` and `transactions`. -/
structure BlockDatabase where
  blocks : Hash → Option SignedBlock
  parentKey : Option Hash
  blockCount : Option ℤ
  childs : Hash → Option Hash
  transactions : Hash → Option Hash

def BlockDatabase.empty : BlockDatabase := ⟨fun _ => none, none, none, fun _ => none, fun _ => none⟩

inductive Put
  | block (hash : Hash) (signedBlock : SignedBlock)
  | child (parent hash : Hash)
  | parentKey (hash : Hash)
  | blockCount (count : ℤ)
  | transaction (transactionHash hash : Hash)

def Put.apply : Put → BlockDatabase → BlockDatabase
  | .block hash signedBlock, database =>
    { database with blocks := Function.update database.blocks hash (some signedBlock) }
  | .child parent hash, database =>
    { database with childs := Function.update database.childs parent (some hash) }
  | .parentKey hash, database => { database with parentKey := some hash }
  | .blockCount count, database => { database with blockCount := some count }
  | .transaction transactionHash hash, database =>
    { database with
      transactions := Function.update database.transactions transactionHash (some hash) }

inductive BlockDbException
  | invalidParentKeyIdentifier
  deriving DecidableEq, Repr

/-- The caches are unset at the empty hash and at -1. -/
structure BlockChainStore where
  parentBlock : Hash
  blockCount : ℤ
  database : Overlay BlockDatabase Put

namespace BlockChainStore

def view (store : BlockChainStore) : BlockDatabase := store.database.view Put.apply

def create (committed : BlockDatabase) : BlockChainStore := ⟨[], -1, ⟨committed, []⟩⟩

def getParentHash (store : BlockChainStore) : Except BlockDbException Hash × BlockChainStore :=
  if store.parentBlock = [] then
    match store.view.parentKey with
    | none => (.error .invalidParentKeyIdentifier, store)
    | some hash => (.ok hash, { store with parentBlock := hash })
  else
    (.ok store.parentBlock, store)

def getBlockCount (store : BlockChainStore) : ℤ × BlockChainStore :=
  if store.blockCount = -1 then
    match store.view.blockCount with
    | none => (-1, store)
    | some count => (count, { store with blockCount := count })
  else
    (store.blockCount, store)

/-- The caches are loaded when a child of the genesis key is found. -/
def requireGenesis (store : BlockChainStore) : Bool × BlockChainStore :=
  match store.view.childs genesisKey with
  | none => (true, store)
  | some hash =>
    if hash = [] then (true, store)
    else (false, store.getBlockCount.2.getParentHash.2)

def puts (signedBlock : SignedBlock) (count : ℤ) : List Put :=
  [.block signedBlock.hash signedBlock, .child signedBlock.parent signedBlock.hash,
    .parentKey signedBlock.hash, .blockCount count] ++
  signedBlock.block.transactions.map fun transaction =>
    .transaction transaction.transactionHash signedBlock.hash

def writeBlock (signedBlock : SignedBlock) (store : BlockChainStore) : BlockChainStore :=
  let counted := if store.blockCount = -1 then 0 else store.blockCount
  { parentBlock := signedBlock.hash
    blockCount := counted + 1
    database := store.database.putAll (puts signedBlock (counted + 1)) }

def commit (store : BlockChainStore) : BlockChainStore :=
  { store with database := store.database.commit Put.apply }

/-- It is rolled back; the caches stay as they are. -/
def rollback (store : BlockChainStore) : BlockChainStore :=
  { store with database := store.database.rollback }

/-- The process ends, with it an open transaction, and the next one looks for the genesis block. -/
def restart (store : BlockChainStore) : BlockChainStore :=
  (create store.database.committed).requireGenesis.2

def genesis (signedBlock : SignedBlock) (store : BlockChainStore) : BlockChainStore :=
  let required := store.requireGenesis
  if required.1 then required.2.writeBlock signedBlock else required.2

end BlockChainStore

namespace BlockDatabase

def withBlock (database : BlockDatabase) (signedBlock : SignedBlock) (count : ℤ) :
    BlockDatabase where
  blocks := Function.update database.blocks signedBlock.hash (some signedBlock)
  parentKey := some signedBlock.hash
  blockCount := some count
  childs := Function.update database.childs signedBlock.parent (some signedBlock.hash)
  transactions := fun transactionHash =>
    if transactionHash ∈ signedBlock.block.transactions.map TransactionMessage.transactionHash then
      some signedBlock.hash
    else database.transactions transactionHash

theorem blocks_withBlock (database : BlockDatabase) (signedBlock : SignedBlock) (count : ℤ)
    (hash : Hash) (found : SignedBlock) :
    (database.withBlock signedBlock count).blocks hash = some found ↔
      (hash = signedBlock.hash ∧ found = signedBlock) ∨
        (hash ≠ signedBlock.hash ∧ database.blocks hash = some found) := by
  by_cases hhash : hash = signedBlock.hash
  · simp [withBlock, hhash, eq_comm]
  · simp [withBlock, hhash]

theorem childs_withBlock (database : BlockDatabase) (signedBlock : SignedBlock) (count : ℤ)
    (parent hash : Hash) :
    (database.withBlock signedBlock count).childs parent = some hash ↔
      (parent = signedBlock.parent ∧ hash = signedBlock.hash) ∨
        (parent ≠ signedBlock.parent ∧ database.childs parent = some hash) := by
  by_cases hparent : parent = signedBlock.parent
  · simp [withBlock, hparent, eq_comm]
  · simp [withBlock, hparent]

theorem applyAll_index (transactions : List TransactionMessage) (hash : Hash)
    (database : BlockDatabase) :
    Overlay.applyAll Put.apply
      (transactions.map fun transaction => .transaction transaction.transactionHash hash) database =
        { database with transactions := fun transactionHash =>
            if transactionHash ∈ transactions.map TransactionMessage.transactionHash then some hash
            else database.transactions transactionHash } := by
  induction transactions generalizing database with
  | nil => simp
  | cons transaction transactions ih =>
    have hcons : Overlay.applyAll Put.apply
        ((transaction :: transactions).map fun t => .transaction t.transactionHash hash) database =
          Overlay.applyAll Put.apply
            (transactions.map fun t => .transaction t.transactionHash hash)
            ((Put.transaction transaction.transactionHash hash).apply database) := rfl
    rw [hcons, ih]
    simp only [Put.apply, List.map_cons, List.mem_cons, mk.injEq, true_and]
    funext transactionHash
    by_cases hrest : transactionHash ∈ transactions.map TransactionMessage.transactionHash
    · simp [hrest]
    · by_cases hfirst : transactionHash = transaction.transactionHash
      · simp [hfirst]
      · simp [hfirst, hrest]

theorem applyAll_puts (database : BlockDatabase) (signedBlock : SignedBlock) (count : ℤ) :
    Overlay.applyAll Put.apply (BlockChainStore.puts signedBlock count) database =
      database.withBlock signedBlock count := by
  rw [BlockChainStore.puts, Overlay.applyAll_append, applyAll_index]
  rfl

end BlockDatabase

end Keto.BlockDb
