import Keto.BlockDb.ChainIntegrity

/-!
The store in memory along runs. Reads agree with the columns as long as the
caches follow them; a rollback that discards a block leaves the caches at a
hash the columns do not hold, and later blocks build on it.
-/
namespace Keto.BlockDb.ChainRuns

open Protocol Library Library.Runs BlockChainStore ChainIntegrity

inductive Operation
  /-- A block with its parent taken from the store, as the producer writes it. -/
  | writeBlock (signedBlock : SignedBlock)
  | genesis (signedBlock : SignedBlock)
  | commit
  | rollback
  | restart

def step : Operation → BlockChainStore → BlockChainStore
  | .writeBlock signedBlock, store => store.getParentHash.2.writeBlock signedBlock
  | .genesis signedBlock, store => store.genesis signedBlock
  | .commit, store => store.commit
  | .rollback, store => store.rollback
  | .restart, store => store.restart

/-- Blocks have hashes of their own; one is written on the parent hash of the
store, the genesis block on the genesis key. -/
def Legal : Operation → BlockChainStore → Prop
  | .writeBlock signedBlock, store =>
    store.getParentHash.1 = .ok signedBlock.parent ∧ FreshHash store.view signedBlock
  | .genesis signedBlock, store =>
    signedBlock.parent = genesisKey ∧ FreshHash store.view signedBlock
  | _, _ => True

/-- The store answers from its caches what the committed columns hold, and these are intact. -/
def Agrees (store : BlockChainStore) : Prop :=
  store.getParentHash.1 = (match store.database.committed.parentKey with
    | none => .error .invalidParentKeyIdentifier
    | some hash => .ok hash) ∧
  store.getBlockCount.1 = store.database.committed.blockCount.getD (-1) ∧
  Intact store.database.committed

def Good : Operation → BlockChainStore → Prop
  | .commit, store => Agrees store.commit
  | .rollback, store => Agrees store.rollback
  | .restart, store => Agrees store.restart
  | _, _ => True

def NoBlockDiscarded : Operation → BlockChainStore → Prop
  | .rollback, store => store.database.pending = []
  | _, _ => True

structure Inv (store : BlockChainStore) : Prop where
  committed : Linked store.database.committed
  viewed : Linked store.view
  parent_cache : store.parentBlock = store.view.parentKey.getD []
  count_cache : store.blockCount = store.view.blockCount.getD (-1)
  kept : ∀ hash, store.database.committed.blocks hash ≠ none → store.view.blocks hash ≠ none
  pending : store.database.pending ≠ [] → ∃ hash, store.view.parentKey = some hash ∧
    store.database.committed.blocks hash = none

variable {store : BlockChainStore}

/-- Nothing is left to load where the caches follow the columns. -/
theorem Inv.getParentHash_eq (h : Inv store) : store.getParentHash =
    ((match store.view.parentKey with
      | none => .error .invalidParentKeyIdentifier
      | some hash => .ok hash), store) := by
  have hcache := h.parent_cache
  unfold getParentHash
  cases hparent : store.view.parentKey with
  | none =>
    rw [hparent] at hcache
    simp [hcache]
  | some hash =>
    rw [hparent] at hcache
    have hne : store.parentBlock ≠ [] := by
      rw [hcache]
      exact h.viewed.head_ne_nil hparent
    rw [if_neg hne, hcache]
    rfl

/-- The count of the store is unset until the columns have one, and then it is that. -/
theorem Inv.blockCount_cases (h : Inv store) :
    (store.view.blockCount = none ∧ store.blockCount = -1) ∨
      (store.view.blockCount = some store.blockCount ∧ store.blockCount ≠ -1) := by
  have hcache := h.count_cache
  cases hcount : store.view.blockCount with
  | none =>
    rw [hcount] at hcache
    exact Or.inl ⟨rfl, hcache⟩
  | some count =>
    rw [hcount] at hcache
    rw [hcache]
    exact Or.inr ⟨rfl, h.viewed.blockCount_ne hcount⟩

theorem Inv.getBlockCount_eq (h : Inv store) :
    store.getBlockCount = (store.view.blockCount.getD (-1), store) := by
  unfold getBlockCount
  rcases h.blockCount_cases with ⟨hcount, hunset⟩ | ⟨hcount, hset⟩
  · rw [if_pos hunset, hcount]
    rfl
  · rw [if_neg hset, hcount, Option.getD_some]

theorem Inv.requireGenesis_eq (h : Inv store) :
    store.requireGenesis = (store.view.parentKey.isNone, store) := by
  unfold requireGenesis
  cases hparent : store.view.parentKey with
  | none =>
    rw [h.viewed.no_genesis_child hparent]
    rfl
  | some head =>
    obtain ⟨first, hfirst, hne⟩ := h.viewed.genesis_child hparent
    simp only [hfirst, if_neg hne, h.getBlockCount_eq, h.getParentHash_eq]
    rfl

/-- Once nothing is pending the store agrees with the columns. -/
theorem Inv.agrees (h : Inv store) (hpending : store.database.pending = []) : Agrees store := by
  have hview : store.view = store.database.committed :=
    Overlay.view_of_pending_nil Put.apply hpending
  refine ⟨?_, ?_, h.committed.intact⟩
  · rw [h.getParentHash_eq, hview]
  · rw [h.getBlockCount_eq, hview]

/-- The constructor's store over linked columns, after `requireGenesis`. -/
theorem inv_requireGenesis {database : BlockDatabase} (h : Linked database) :
    Inv (create database).requireGenesis.2 ∧
      (create database).requireGenesis.2.database = ⟨database, []⟩ := by
  have hview : (create database).view = database := rfl
  cases hparent : database.parentKey with
  | none =>
    have hrequired : (create database).requireGenesis = (true, create database) := by
      unfold requireGenesis
      rw [hview, h.no_genesis_child hparent]
    rw [hrequired]
    refine ⟨⟨h, h, ?_, ?_, fun _ hstored => hstored, fun hpending => absurd rfl hpending⟩, rfl⟩
    · rw [hview, hparent]
      rfl
    · rw [hview, (h.unstarted hparent).1]
      rfl
  | some head =>
    obtain ⟨first, hfirst, hne⟩ := h.genesis_child hparent
    obtain ⟨_, _, count, hcount, _⟩ := h.head head hparent
    have hloaded : (create database).requireGenesis =
        (false, ⟨head, count, ⟨database, []⟩⟩) := by
      unfold requireGenesis
      rw [hview, hfirst]
      simp only [if_neg hne, getBlockCount, hview, hcount]
      simp [getParentHash, create, BlockChainStore.view, Overlay.view, hparent]
    rw [hloaded]
    have hviewed : BlockChainStore.view ⟨head, count, ⟨database, []⟩⟩ = database := rfl
    refine ⟨⟨h, h, ?_, ?_, fun _ hstored => hstored, fun hpending => absurd rfl hpending⟩, rfl⟩
    · rw [hviewed, hparent]
      rfl
    · rw [hviewed, hcount]
      rfl

/-- The count a new block gets is one more than that of the columns. -/
theorem Inv.counted (h : Inv store) :
    (if store.blockCount = -1 then 0 else store.blockCount) = store.view.blockCount.getD 0 := by
  rcases h.blockCount_cases with ⟨hcount, hunset⟩ | ⟨hcount, hset⟩
  · rw [if_pos hunset, hcount, Option.getD_none]
  · rw [if_neg hset, hcount, Option.getD_some]

theorem Inv.view_writeBlock (h : Inv store) (signedBlock : SignedBlock) :
    (store.writeBlock signedBlock).view =
      store.view.withBlock signedBlock (store.view.blockCount.getD 0 + 1) := by
  unfold BlockChainStore.writeBlock BlockChainStore.view
  rw [Overlay.view_putAll, BlockDatabase.applyAll_puts, h.counted]
  rfl

/-- Writing a block that continues the chain. -/
theorem Inv.writeBlock (h : Inv store) {signedBlock : SignedBlock}
    (hcontinues : Continues store.view signedBlock) (hfresh : FreshHash store.view signedBlock) :
    Inv (store.writeBlock signedBlock) := by
  have hview := h.view_writeBlock signedBlock
  have hcommitted : (store.writeBlock signedBlock).database.committed =
      store.database.committed := rfl
  refine ⟨h.committed, ?_, ?_, ?_, ?_, ?_⟩
  · rw [hview]
    exact h.viewed.withBlock hcontinues hfresh
  · rw [hview]
    rfl
  · rw [hview]
    exact congrArg (· + 1) h.counted
  · intro hash hstored
    rw [hcommitted] at hstored
    obtain ⟨found, hfound⟩ := Option.ne_none_iff_exists'.mp (h.kept hash hstored)
    rw [hview, blocks_withBlock_of_fresh hfresh _ hfound]
    simp
  · intro _
    refine ⟨signedBlock.hash, by rw [hview]; rfl, ?_⟩
    rw [hcommitted]
    by_contra hstored
    exact h.kept signedBlock.hash hstored hfresh.2.2

theorem Inv.genesis (h : Inv store) {signedBlock : SignedBlock}
    (hgenesis : signedBlock.parent = genesisKey) (hfresh : FreshHash store.view signedBlock) :
    Inv (store.genesis signedBlock) := by
  unfold BlockChainStore.genesis
  rw [h.requireGenesis_eq]
  cases hparent : store.view.parentKey with
  | none => exact h.writeBlock (Or.inr ⟨hparent, hgenesis⟩) hfresh
  | some head => exact h

theorem Inv.commit (h : Inv store) : Inv store.commit where
  committed := h.viewed
  viewed := h.viewed
  parent_cache := h.parent_cache
  count_cache := h.count_cache
  kept := fun _ hstored => hstored
  pending := fun hpending => absurd rfl hpending

/-- A rollback with nothing to discard changes nothing. -/
theorem rollback_of_pending_nil (hpending : store.database.pending = []) :
    store.rollback = store := by
  unfold BlockChainStore.rollback
  rw [Overlay.rollback_of_pending_nil hpending]

theorem Inv.restart (h : Inv store) : Inv store.restart := (inv_requireGenesis h.committed).1

theorem inv_step (operation : Operation) (store : BlockChainStore) (h : Inv store)
    (hlegal : Legal operation store) (hkept : NoBlockDiscarded operation store) :
    Inv (step operation store) := by
  cases operation with
  | writeBlock signedBlock =>
    obtain ⟨hparent, hfresh⟩ := hlegal
    rw [h.getParentHash_eq] at hparent
    have hcontinues : Continues store.view signedBlock := by
      cases hhead : store.view.parentKey with
      | none => simp [hhead] at hparent
      | some head =>
        simp only [hhead, Except.ok.injEq] at hparent
        exact Or.inl (by rw [hhead, hparent])
    have hstep : step (.writeBlock signedBlock) store = store.writeBlock signedBlock := by
      simp only [step, h.getParentHash_eq]
    rw [hstep]
    exact h.writeBlock hcontinues hfresh
  | genesis signedBlock => exact h.genesis hlegal.1 hlegal.2
  | commit => exact h.commit
  | rollback =>
    have hstep : step .rollback store = store := rollback_of_pending_nil hkept
    rw [hstep]
    exact h
  | restart => exact h.restart

/-- A rollback that discards a block leaves a parent hash that is not stored. -/
theorem Inv.not_agrees_rollback (h : Inv store) (hpending : store.database.pending ≠ []) :
    ¬ Agrees store.rollback := by
  obtain ⟨hash, hhead, hdiscarded⟩ := h.pending hpending
  have hcache : store.rollback.parentBlock = hash := by
    have hparent := h.parent_cache
    rw [hhead] at hparent
    exact hparent
  have hne : store.rollback.parentBlock ≠ [] := by
    rw [hcache]
    exact h.viewed.head_ne_nil hhead
  rintro ⟨hparent, _, _⟩
  rw [getParentHash, if_neg hne, hcache] at hparent
  cases hcommitted : store.database.committed.parentKey with
  | none => simp [BlockChainStore.rollback, Overlay.rollback, hcommitted] at hparent
  | some head =>
    simp only [BlockChainStore.rollback, Overlay.rollback, hcommitted, Except.ok.injEq] at hparent
    subst hparent
    exact (h.committed.head hash hcommitted).1 hdiscarded

/-- One step is good exactly if it does not discard a block. -/
theorem good_iff (operation : Operation) (store : BlockChainStore) (h : Inv store)
    (_ : Legal operation store) : Good operation store ↔ NoBlockDiscarded operation store := by
  cases operation with
  | writeBlock signedBlock => exact Iff.rfl
  | genesis signedBlock => exact Iff.rfl
  | commit => exact iff_of_true (h.commit.agrees rfl) trivial
  | rollback =>
    constructor
    · intro hgood
      by_contra hpending
      exact h.not_agrees_rollback hpending hgood
    · intro hpending
      have hsame : Good .rollback store = Agrees store :=
        congrArg Agrees (rollback_of_pending_nil hpending)
      rw [hsame]
      exact h.agrees hpending
  | restart =>
    have hdatabase := (inv_requireGenesis h.committed).2
    refine iff_of_true (h.restart.agrees ?_) trivial
    exact congrArg Overlay.pending hdatabase

def firstStart : BlockChainStore := (create BlockDatabase.empty).requireGenesis.2

/-- In every legal run the store agrees with its columns after each commit,
rollback and restart if and only if no rollback of the run discards a block. -/
theorem good_along_iff (operations : List Operation)
    (hlegal : Along step Legal firstStart operations) :
    Along step Good firstStart operations ↔ Along step NoBlockDiscarded firstStart operations :=
  along_iff_of_invariant step inv_step good_iff (inv_requireGenesis linked_empty).1 hlegal

def blockOn (parent hash : Hash) : SignedBlock := ⟨parent, ⟨parent, [], []⟩, hash, []⟩

/-- A committed chain of two blocks and a restart. -/
theorem good_along_iff_two_blocks :
    Along step Good firstStart
        [.genesis (blockOn genesisKey [1]), .commit, .writeBlock (blockOn [1] [2]), .commit,
          .restart] ↔
      Along step NoBlockDiscarded firstStart
        [.genesis (blockOn genesisKey [1]), .commit, .writeBlock (blockOn [1] [2]), .commit,
          .restart] :=
  good_along_iff _ ⟨⟨rfl, by decide, by decide, rfl⟩, trivial, ⟨rfl, by decide, by decide, rfl⟩,
    trivial, trivial, trivial⟩

def discardedBlock : List Operation :=
  [.genesis (blockOn genesisKey [1]), .commit, .writeBlock (blockOn [1] [2]), .rollback,
    .writeBlock (blockOn [2] [3]), .commit]

/-- The third block is committed on a parent that no column holds. -/
theorem discardedBlock_breaks_chain :
    Along step Legal firstStart discardedBlock ∧
      (run step firstStart discardedBlock).database.committed.blocks [3] =
        some (blockOn [2] [3]) ∧
      (run step firstStart discardedBlock).database.committed.blocks [2] = none ∧
      ¬ Along step Good firstStart discardedBlock := by
  refine ⟨⟨⟨rfl, by decide, by decide, rfl⟩, trivial, ⟨rfl, by decide, by decide, rfl⟩, trivial,
    ⟨rfl, by decide, by decide, rfl⟩, trivial, trivial⟩, rfl, rfl, ?_⟩
  rintro ⟨_, _, _, ⟨hparent, _⟩, _⟩
  have hsame : (Except.ok [2] : Except BlockDbException Hash) = .ok [1] := hparent
  exact absurd hsame (by simp)

end Keto.BlockDb.ChainRuns
