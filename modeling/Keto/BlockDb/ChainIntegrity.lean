import Keto.BlockDb.BlockChainStore
import Keto.Library.Ancestry
import Keto.Library.Runs

/-!
Runs of the block chain store through blocks, commits, rollbacks and restarts.
The columns keep their integrity in every such run, since each put is undone
with its transaction. The caches do not: they follow the puts and nothing
resets them in a rollback. The results say which runs leave the caches, the
committed columns and the indexes in agreement.
-/
namespace Keto.BlockDb.ChainIntegrity

open Protocol Library Library.Ancestry Library.Runs BlockChainStore

def parentOf (database : BlockDatabase) (hash : Hash) : Option Hash :=
  (database.blocks hash).map SignedBlock.parent

/-- The chain ends at the genesis key after as many stored blocks as are
counted, each block is indexed under its parent, and each transaction under a
block that contains it. -/
structure Intact (database : BlockDatabase) : Prop where
  chain : match database.parentKey with
    | none => database.blockCount = none ∧ ∀ hash, database.blocks hash = none
    | some head => ∃ count : ℕ, database.blockCount = some count ∧
        ancestor (parentOf database) count head = some genesisKey
  genesis_end : parentOf database genesisKey = none
  child_index : ∀ hash signedBlock, database.blocks hash = some signedBlock →
    database.childs signedBlock.parent = some hash
  transaction_index : ∀ hash signedBlock, database.blocks hash = some signedBlock →
    ∀ transaction ∈ signedBlock.block.transactions, ∃ indexed container,
      database.transactions transaction.transactionHash = some indexed ∧
      database.blocks indexed = some container ∧
      transaction.transactionHash ∈
        container.block.transactions.map TransactionMessage.transactionHash

/-- What the columns keep through every put: each index entry is backed by a
block, and the head of the chain has no child yet. -/
structure Linked (database : BlockDatabase) : Prop where
  keyed : ∀ hash signedBlock, database.blocks hash = some signedBlock →
    hash ≠ [] ∧ hash ≠ genesisKey
  child_index : ∀ hash signedBlock, database.blocks hash = some signedBlock →
    database.childs signedBlock.parent = some hash
  child_stored : ∀ parent hash, database.childs parent = some hash →
    ∃ signedBlock, database.blocks hash = some signedBlock ∧ signedBlock.parent = parent
  parent_stored : ∀ hash signedBlock, database.blocks hash = some signedBlock →
    signedBlock.parent = genesisKey ∨ database.blocks signedBlock.parent ≠ none
  head : ∀ hash, database.parentKey = some hash →
    database.blocks hash ≠ none ∧ database.childs hash = none ∧
      ∃ count : ℕ, database.blockCount = some count ∧
        ancestor (parentOf database) count hash = some genesisKey
  unstarted : database.parentKey = none →
    database.blockCount = none ∧ ∀ hash, database.blocks hash = none
  transaction_index : ∀ hash signedBlock, database.blocks hash = some signedBlock →
    ∀ transaction ∈ signedBlock.block.transactions, ∃ indexed container,
      database.transactions transaction.transactionHash = some indexed ∧
      database.blocks indexed = some container ∧
      transaction.transactionHash ∈
        container.block.transactions.map TransactionMessage.transactionHash

theorem linked_empty : Linked BlockDatabase.empty where
  keyed := fun _ _ h => absurd h (by simp [BlockDatabase.empty])
  child_index := fun _ _ h => absurd h (by simp [BlockDatabase.empty])
  child_stored := fun _ _ h => absurd h (by simp [BlockDatabase.empty])
  parent_stored := fun _ _ h => absurd h (by simp [BlockDatabase.empty])
  head := fun _ h => absurd h (by simp [BlockDatabase.empty])
  unstarted := fun _ => ⟨rfl, fun _ => rfl⟩
  transaction_index := fun _ _ h => absurd h (by simp [BlockDatabase.empty])

variable {database : BlockDatabase}

theorem Linked.genesisKey_not_stored (h : Linked database) :
    database.blocks genesisKey = none := by
  cases hblock : database.blocks genesisKey with
  | none => rfl
  | some signedBlock => exact absurd rfl (h.keyed genesisKey signedBlock hblock).2

/-- The head of a chain is not the empty hash that marks an unset cache. -/
theorem Linked.head_ne_nil (h : Linked database) {hash : Hash}
    (hhead : database.parentKey = some hash) : hash ≠ [] := by
  obtain ⟨signedBlock, hblock⟩ := Option.ne_none_iff_exists'.mp (h.head hash hhead).1
  exact (h.keyed hash signedBlock hblock).1

/-- Nor is the count the number that marks an unset cache. -/
theorem Linked.blockCount_ne (h : Linked database) {count : ℤ}
    (hcount : database.blockCount = some count) : count ≠ -1 := by
  cases hparent : database.parentKey with
  | none =>
    rw [(h.unstarted hparent).1] at hcount
    exact absurd hcount (by simp)
  | some head =>
    obtain ⟨_, _, number, hnumber, _⟩ := h.head head hparent
    have hsame := Option.some.inj (hcount.symm.trans hnumber)
    omega

theorem Linked.intact (h : Linked database) : Intact database where
  chain := by
    cases hparent : database.parentKey with
    | none => exact h.unstarted hparent
    | some head => exact (h.head head hparent).2.2
  genesis_end := by rw [parentOf, h.genesisKey_not_stored, Option.map_none]
  child_index := h.child_index
  transaction_index := h.transaction_index

/-- A started chain has a first block, which is indexed under the genesis key. -/
theorem Linked.genesis_child (h : Linked database) {head : Hash}
    (hparent : database.parentKey = some head) :
    ∃ first, database.childs genesisKey = some first ∧ first ≠ [] := by
  obtain ⟨hstored, _, count, _, hchain⟩ := h.head head hparent
  cases count with
  | zero =>
    obtain rfl := Option.some.inj hchain
    exact absurd h.genesisKey_not_stored hstored
  | succ count =>
    obtain ⟨first, _, hlink⟩ := ancestor_succ_last hchain
    obtain ⟨signedBlock, hblock, hgenesis⟩ := Option.map_eq_some_iff.mp hlink
    refine ⟨first, ?_, (h.keyed first signedBlock hblock).1⟩
    rw [← hgenesis]
    exact h.child_index first signedBlock hblock

theorem Linked.no_genesis_child (h : Linked database) (hparent : database.parentKey = none) :
    database.childs genesisKey = none := by
  cases hchild : database.childs genesisKey with
  | none => rfl
  | some hash =>
    obtain ⟨signedBlock, hblock, _⟩ := h.child_stored genesisKey hash hchild
    rw [(h.unstarted hparent).2 hash] at hblock
    exact absurd hblock (by simp)

def Continues (database : BlockDatabase) (signedBlock : SignedBlock) : Prop :=
  database.parentKey = some signedBlock.parent ∨
    (database.parentKey = none ∧ signedBlock.parent = genesisKey)

def FreshHash (database : BlockDatabase) (signedBlock : SignedBlock) : Prop :=
  signedBlock.hash ≠ [] ∧ signedBlock.hash ≠ genesisKey ∧
    database.blocks signedBlock.hash = none

variable {signedBlock : SignedBlock}

theorem Linked.no_child_of_parent (h : Linked database)
    (hcontinues : Continues database signedBlock) :
    database.childs signedBlock.parent = none := by
  rcases hcontinues with hhead | ⟨hnone, hgenesis⟩
  · exact (h.head _ hhead).2.1
  · rw [hgenesis]
    exact h.no_genesis_child hnone

theorem Linked.no_child_of_fresh (h : Linked database) (hfresh : FreshHash database signedBlock) :
    database.childs signedBlock.hash = none := by
  cases hchild : database.childs signedBlock.hash with
  | none => rfl
  | some hash =>
    obtain ⟨child, hblock, hparent⟩ := h.child_stored _ hash hchild
    rcases h.parent_stored hash child hblock with hgenesis | hstored
    · exact absurd (hparent.symm.trans hgenesis) hfresh.2.1
    · rw [hparent] at hstored
      exact absurd hfresh.2.2 hstored

theorem Linked.parent_ne_hash (h : Linked database) (hcontinues : Continues database signedBlock)
    (hfresh : FreshHash database signedBlock) : signedBlock.parent ≠ signedBlock.hash := by
  intro hsame
  rcases hcontinues with hhead | ⟨_, hgenesis⟩
  · rw [hsame] at hhead
    exact (h.head _ hhead).1 hfresh.2.2
  · exact hfresh.2.1 (hsame.symm.trans hgenesis)

/-- A stored block stays stored. -/
theorem blocks_withBlock_of_fresh (hfresh : FreshHash database signedBlock) (count : ℤ)
    {hash : Hash} {found : SignedBlock} (hfound : database.blocks hash = some found) :
    (database.withBlock signedBlock count).blocks hash = some found := by
  rw [BlockDatabase.blocks_withBlock]
  refine Or.inr ⟨?_, hfound⟩
  rintro rfl
  rw [hfresh.2.2] at hfound
  exact absurd hfound (by simp)

theorem parentOf_withBlock (hfresh : FreshHash database signedBlock) (count : ℤ)
    {hash parent : Hash}
    (hlink : parentOf database hash = some parent) :
    parentOf (database.withBlock signedBlock count) hash = some parent := by
  obtain ⟨found, hfound, hparent⟩ := Option.map_eq_some_iff.mp hlink
  rw [parentOf, blocks_withBlock_of_fresh hfresh count hfound, Option.map_some, hparent]

/-- The count and the chain grow together. -/
theorem Linked.chain_withBlock (h : Linked database) (hcontinues : Continues database signedBlock)
    (hfresh : FreshHash database signedBlock) :
    ∃ count : ℕ, database.blockCount.getD 0 + 1 = count ∧
      ancestor (parentOf (database.withBlock signedBlock (database.blockCount.getD 0 + 1)))
        count signedBlock.hash = some genesisKey := by
  have hlink : parentOf (database.withBlock signedBlock (database.blockCount.getD 0 + 1))
      signedBlock.hash = some signedBlock.parent := by
    simp [parentOf, BlockDatabase.withBlock]
  rcases hcontinues with hhead | ⟨hnone, hgenesis⟩
  · obtain ⟨_, _, count, hcount, hchain⟩ := h.head _ hhead
    refine ⟨count + 1, by simp [hcount], ?_⟩
    rw [ancestor_succ_of_some _ count hlink]
    exact ancestor_mono (fun _ _ hold => parentOf_withBlock hfresh _ hold) hchain
  · refine ⟨1, by simp [(h.unstarted hnone).1], ?_⟩
    rw [ancestor_succ_of_some _ 0 hlink, hgenesis]
    rfl

theorem Linked.child_index_withBlock (h : Linked database)
    (hcontinues : Continues database signedBlock) (count : ℤ) {hash : Hash} {found : SignedBlock}
    (hfound : (database.withBlock signedBlock count).blocks hash = some found) :
    (database.withBlock signedBlock count).childs found.parent = some hash := by
  rw [BlockDatabase.childs_withBlock]
  rcases (BlockDatabase.blocks_withBlock _ _ _ _ _).mp hfound with ⟨rfl, rfl⟩ | ⟨_, hold⟩
  · exact Or.inl ⟨rfl, rfl⟩
  · have hindexed := h.child_index hash found hold
    refine Or.inr ⟨?_, hindexed⟩
    intro hsame
    rw [hsame, h.no_child_of_parent hcontinues] at hindexed
    exact absurd hindexed (by simp)

theorem Linked.child_stored_withBlock (h : Linked database)
    (hfresh : FreshHash database signedBlock) (count : ℤ) {parent hash : Hash}
    (hindexed : (database.withBlock signedBlock count).childs parent = some hash) :
    ∃ found, (database.withBlock signedBlock count).blocks hash = some found ∧
      found.parent = parent := by
  rcases (BlockDatabase.childs_withBlock _ _ _ _ _).mp hindexed with ⟨rfl, rfl⟩ | ⟨_, hold⟩
  · exact ⟨signedBlock, (BlockDatabase.blocks_withBlock _ _ _ _ _).mpr (Or.inl ⟨rfl, rfl⟩), rfl⟩
  · obtain ⟨found, hfound, hparent⟩ := h.child_stored parent hash hold
    exact ⟨found, blocks_withBlock_of_fresh hfresh count hfound, hparent⟩

theorem Linked.parent_stored_withBlock (h : Linked database)
    (hcontinues : Continues database signedBlock) (hfresh : FreshHash database signedBlock)
    (count : ℤ) {hash : Hash} {found : SignedBlock}
    (hfound : (database.withBlock signedBlock count).blocks hash = some found) :
    found.parent = genesisKey ∨
      (database.withBlock signedBlock count).blocks found.parent ≠ none := by
  have hkept : ∀ parent, database.blocks parent ≠ none →
      (database.withBlock signedBlock count).blocks parent ≠ none := by
    intro parent hstored
    obtain ⟨block, hblock⟩ := Option.ne_none_iff_exists'.mp hstored
    rw [blocks_withBlock_of_fresh hfresh count hblock]
    simp
  rcases (BlockDatabase.blocks_withBlock _ _ _ _ _).mp hfound with ⟨_, rfl⟩ | ⟨_, hold⟩
  · rcases hcontinues with hhead | ⟨_, hgenesis⟩
    · exact Or.inr (hkept _ (h.head _ hhead).1)
    · exact Or.inl hgenesis
  · exact (h.parent_stored hash found hold).imp_right (hkept found.parent)

theorem Linked.transaction_index_withBlock (h : Linked database)
    (hfresh : FreshHash database signedBlock) (count : ℤ) {hash : Hash} {found : SignedBlock}
    (hfound : (database.withBlock signedBlock count).blocks hash = some found)
    {transaction : TransactionMessage} (hmem : transaction ∈ found.block.transactions) :
    ∃ indexed container,
      (database.withBlock signedBlock count).transactions transaction.transactionHash =
        some indexed ∧
      (database.withBlock signedBlock count).blocks indexed = some container ∧
      transaction.transactionHash ∈
        container.block.transactions.map TransactionMessage.transactionHash := by
  by_cases hnew : transaction.transactionHash ∈
      signedBlock.block.transactions.map TransactionMessage.transactionHash
  · exact ⟨signedBlock.hash, signedBlock, if_pos hnew,
      (BlockDatabase.blocks_withBlock _ _ _ _ _).mpr (Or.inl ⟨rfl, rfl⟩), hnew⟩
  · rcases (BlockDatabase.blocks_withBlock _ _ _ _ _).mp hfound with ⟨_, rfl⟩ | ⟨_, hold⟩
    · exact absurd (List.mem_map_of_mem hmem) hnew
    · obtain ⟨indexed, container, hentry, hcontainer, hcontains⟩ :=
        h.transaction_index hash found hold transaction hmem
      exact ⟨indexed, container, (if_neg hnew).trans hentry,
        blocks_withBlock_of_fresh hfresh count hcontainer, hcontains⟩

/-- A block that continues the chain under a hash of its own keeps the columns linked. -/
theorem Linked.withBlock (h : Linked database) (hcontinues : Continues database signedBlock)
    (hfresh : FreshHash database signedBlock) :
    Linked (database.withBlock signedBlock (database.blockCount.getD 0 + 1)) where
  keyed := by
    intro hash found hfound
    rcases (BlockDatabase.blocks_withBlock _ _ _ _ _).mp hfound with ⟨rfl, _⟩ | ⟨_, hold⟩
    · exact ⟨hfresh.1, hfresh.2.1⟩
    · exact h.keyed hash found hold
  child_index := fun _ _ hfound => h.child_index_withBlock hcontinues _ hfound
  child_stored := fun _ _ hindexed => h.child_stored_withBlock hfresh _ hindexed
  parent_stored := fun _ _ hfound => h.parent_stored_withBlock hcontinues hfresh _ hfound
  head := by
    intro hash hhash
    obtain rfl := Option.some.inj hhash
    obtain ⟨count, hcount, hchain⟩ := h.chain_withBlock hcontinues hfresh
    refine ⟨by simp [BlockDatabase.withBlock], ?_, count, congrArg some hcount, hchain⟩
    have hne := (h.parent_ne_hash hcontinues hfresh).symm
    simp only [BlockDatabase.withBlock, Function.update_of_ne hne]
    exact h.no_child_of_fresh hfresh
  unstarted := fun hnone => absurd hnone (by simp [BlockDatabase.withBlock])
  transaction_index := fun _ _ hfound _ hmem => h.transaction_index_withBlock hfresh _ hfound hmem

end Keto.BlockDb.ChainIntegrity
