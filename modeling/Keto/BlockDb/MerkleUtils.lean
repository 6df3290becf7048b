import Keto.Protocol
import Keto.Library.PairTree
import Mathlib.Data.List.GetD

/-!
The Merkle root of a block. The leaves are the parent hash and, transaction
by transaction, its hash and the hashes of its change sets. Two neighbours
are combined by hashing the left one twice, so each level keeps its leftmost
element only and the root depends on the parent hash alone.
-/
namespace Keto.BlockDb.MerkleUtils

open Protocol Library

def transactionHashs (transaction : TransactionMessage) : List Hash :=
  transaction.transactionHash :: transaction.changeSet.map SignedChangeSet.changeSetHash

def hashs (block : Block) : List Hash :=
  block.parent :: block.transactions.flatMap transactionHashs

variable (generateHash : Bytes → Hash)

/-- `compute(lhs, rhs)`: both insertions copy the bytes of `lhs`. -/
def computePair (lhs _rhs : Hash) : Hash := generateHash (lhs ++ lhs)

def compute (hashs : List Hash) : Option Hash :=
  PairTree.root (computePair generateHash) hashs

def computation (block : Block) : Option Hash := compute generateHash (hashs block)

def buildBlock (block : Block) : Option Block :=
  (computation generateHash block).map fun root => { block with merkelRoot := root }

theorem double_injective (hinj : Function.Injective generateHash) :
    Function.Injective fun lhs : Hash => generateHash (lhs ++ lhs) :=
  hinj.comp PairTree.append_self_injective

/-- The computation always ends with a root: the parent hash is a leaf. -/
theorem computation_eq (block : Block) :
    computation generateHash block =
      some ((fun lhs => generateHash (lhs ++ lhs))^[Nat.clog 2 (hashs block).length]
        block.parent) :=
  PairTree.root_of_left _ (computePair generateHash) (fun _ _ => rfl) _ _

theorem computation_congr (left right : Block) (hparent : left.parent = right.parent)
    (hlen : (hashs left).length = (hashs right).length) :
    computation generateHash left = computation generateHash right := by
  rw [computation_eq, computation_eq, hparent, hlen]

/-- With an injective hash the root commits to the parent hash and no other leaf. -/
theorem computation_eq_iff (hinj : Function.Injective generateHash) (left right : Block)
    (hlen : (hashs left).length = (hashs right).length) :
    computation generateHash left = computation generateHash right ↔
      left.parent = right.parent := by
  apply PairTree.root_eq_iff_of_left (fun lhs => generateHash (lhs ++ lhs))
    (computePair generateHash) (fun _ _ => rfl) (double_injective generateHash hinj)
  simpa [hashs] using hlen

/-- Equal roots of blocks with `count` leaves of `size` bytes force equal leaves. -/
def BindsContent (size count : ℕ) : Prop :=
  ∀ left right : Block,
    (∀ leaf ∈ hashs left, leaf.length = size) →
    (∀ leaf ∈ hashs right, leaf.length = size) →
    (hashs left).length = count → (hashs right).length = count →
    computation generateHash left = computation generateHash right →
    hashs left = hashs right

def uniformBlock (leaf transactionHash : Hash) (changes : ℕ) : Block where
  parent := leaf
  transactions := [{
    sourceAccount := []
    targetAccount := []
    feeAccount := []
    transactionHash := transactionHash
    signature := []
    signedTransaction := ⟨transactionHash, []⟩
    currentStatus := .debit
    changeSet := List.replicate changes ⟨⟨transactionHash, [], .debit, []⟩, leaf, []⟩
  }]
  merkelRoot := []

theorem hashs_uniformBlock (leaf transactionHash : Hash) (changes : ℕ) :
    hashs (uniformBlock leaf transactionHash changes) =
      leaf :: transactionHash :: List.replicate changes leaf := by
  simp [hashs, transactionHashs, uniformBlock]

/-- From two leaves on a changed transaction hash keeps the root. -/
theorem not_bindsContent (size count : ℕ) (hsize : 0 < size) (hcount : 2 ≤ count) :
    ¬ BindsContent generateHash size count := by
  intro hbinds
  let zero : Hash := List.replicate size 0
  let one : Hash := List.replicate size 1
  have hlength : ∀ transactionHash : Hash,
      (hashs (uniformBlock zero transactionHash (count - 2))).length = count := by
    intro transactionHash
    simp only [hashs_uniformBlock, List.length_cons, List.length_replicate]
    omega
  have hleaves : ∀ transactionHash : Hash, transactionHash.length = size →
      ∀ leaf ∈ hashs (uniformBlock zero transactionHash (count - 2)),
        leaf.length = size := by
    intro transactionHash htx leaf hleaf
    rw [hashs_uniformBlock, List.mem_cons, List.mem_cons] at hleaf
    rcases hleaf with rfl | rfl | hleaf
    · exact List.length_replicate
    · exact htx
    · rw [List.eq_of_mem_replicate hleaf]
      exact List.length_replicate
  have hequal := hbinds (uniformBlock zero zero (count - 2))
    (uniformBlock zero one (count - 2))
    (hleaves zero List.length_replicate) (hleaves one List.length_replicate)
    (hlength zero) (hlength one)
    (computation_congr generateHash _ _ rfl ((hlength zero).trans (hlength one).symm))
  rw [hashs_uniformBlock, hashs_uniformBlock] at hequal
  have hzero : zero = one := (List.cons.inj (List.cons.inj hequal).2).1
  have hbyte : (0 : UInt8) = 1 :=
    (List.replicate_inj.mp hzero).2.resolve_left (by omega)
  exact absurd hbyte (by decide)

/-- A single leaf is its own root. -/
theorem bindsContent_of_le_one (size count : ℕ) (hcount : count ≤ 1) :
    BindsContent generateHash size count := by
  intro left right _ _ hleft hright hroot
  have hempty : ∀ block : Block, (hashs block).length = count →
      hashs block = [block.parent] := by
    intro block hblock
    have htail : block.transactions.flatMap transactionHashs = [] := by
      apply List.length_eq_zero_iff.mp
      simp only [hashs, List.length_cons] at hblock
      omega
    rw [hashs, htail]
  rw [computation, computation, hempty left hleft, hempty right hright, compute, compute,
    PairTree.root_singleton, PairTree.root_singleton] at hroot
  rw [hempty left hleft, hempty right hright, Option.some.inj hroot]

/-- The root binds the content of a block exactly when the block has no
transactions; of every other block it binds the parent hash only. -/
theorem merkelRoot_binding (hinj : Function.Injective generateHash) (size : ℕ)
    (hsize : 0 < size) :
    (∀ count, BindsContent generateHash size count ↔ count ≤ 1) ∧
    ∀ left right : Block, (hashs left).length = (hashs right).length →
      (computation generateHash left = computation generateHash right ↔
        left.parent = right.parent) := by
  refine ⟨?_, computation_eq_iff generateHash hinj⟩
  intro count
  constructor
  · intro hbinds
    by_contra hcount
    exact not_bindsContent generateHash size count hsize (by omega) hbinds
  · exact bindsContent_of_le_one generateHash size count

theorem merkelRoot_binding_id :
    (∀ count, BindsContent id 32 count ↔ count ≤ 1) ∧
    ∀ left right : Block, (hashs left).length = (hashs right).length →
      (computation id left = computation id right ↔ left.parent = right.parent) :=
  merkelRoot_binding id Function.injective_id 32 (by decide)

/-- Two built blocks with different transaction hashes and one Merkle root,
under an injective hash. -/
theorem merkelRoot_ignores_transactionHash :
    Function.Injective (id : Bytes → Hash) ∧
    (buildBlock id (uniformBlock [7] [1] 0)).map Block.merkelRoot =
      (buildBlock id (uniformBlock [7] [2] 0)).map Block.merkelRoot ∧
    (hashs (uniformBlock [7] [1] 0)).length = (hashs (uniformBlock [7] [2] 0)).length ∧
    hashs (uniformBlock [7] [1] 0) ≠ hashs (uniformBlock [7] [2] 0) := by
  refine ⟨Function.injective_id, ?_, rfl, by decide⟩
  rw [buildBlock, buildBlock, computation_congr id (uniformBlock [7] [1] 0)
    (uniformBlock [7] [2] 0) rfl rfl]
  simp only [Option.map_map]
  rfl

end Keto.BlockDb.MerkleUtils
