import Keto.Library.PairTree
import Keto.Protocol
import Mathlib.Data.List.GetD
import Mathlib.Data.Multiset.Basic

/-!
The Merkle root that a software consensus is signed under. The leaves are the
previous hash, the account, the seed and the system hashes. As in the root of
a block two neighbours are combined by hashing the left one twice, so the root
depends on the leaf that the sort step puts first and on no other.
-/
namespace Keto.Consensus

open Protocol Library

namespace SoftwareMerkelUtils

variable (generateHash : Bytes → Hash)

/-- The sort step takes the hashes as they come. -/
def sort (hashs : List Hash) : List Hash := hashs

/-- `compute(lhs, rhs)`: both insertions copy the bytes of `lhs`. -/
def computePair (lhs _rhs : Hash) : Hash := generateHash (lhs ++ lhs)

/-- `compute(hashs)`, which throws (`none`) when there are none. -/
def compute (hashs : List Hash) : Option Hash :=
  PairTree.root (computePair generateHash) hashs

def computationBy (sort : List Hash → List Hash) (hashs : List Hash) : Option Hash :=
  compute generateHash (sort hashs)

def computation (hashs : List Hash) : Option Hash := computationBy generateHash sort hashs

/-- The result depends on the first hash and on how many there are. -/
theorem compute_congr (head : Hash) {left right : List Hash} (hlen : left.length = right.length) :
    compute generateHash (head :: left) = compute generateHash (head :: right) := by
  have hroot := PairTree.root_of_left (fun lhs => generateHash (lhs ++ lhs))
    (computePair generateHash) (fun _ _ => rfl) head
  rw [compute, compute, hroot, hroot, hlen]

end SoftwareMerkelUtils

namespace SoftwareConsensusHelper

open SoftwareMerkelUtils

variable (generateHash : Bytes → Hash)

def hashs (consensus : SoftwareConsensus) : List Hash :=
  consensus.previousHash :: consensus.account :: consensus.seed :: consensus.systemHashs

def generateMerkelRoot (consensus : SoftwareConsensus) : Option SoftwareConsensus :=
  (computation generateHash (hashs consensus)).map fun root =>
    { consensus with merkelRoot := root }

/-- The signature is over the Merkle root alone. -/
def sign (generator : Hash → Bytes) (consensus : SoftwareConsensus) : SoftwareConsensus :=
  { consensus with signature := generator consensus.merkelRoot }

theorem hashs_length (consensus : SoftwareConsensus) :
    (hashs consensus).length = consensus.systemHashs.length + 3 := rfl

theorem generateMerkelRoot_isSome (consensus : SoftwareConsensus) :
    ∃ rooted, generateMerkelRoot generateHash consensus = some rooted ∧
      rooted.seed = consensus.seed ∧ rooted.systemHashs = consensus.systemHashs := by
  have hroot : computation generateHash (hashs consensus) = _ :=
    PairTree.root_of_left (fun lhs => generateHash (lhs ++ lhs)) (computePair generateHash)
      (fun _ _ => rfl) _ _
  rw [generateMerkelRoot, hroot]
  exact ⟨_, rfl, rfl, rfl⟩

def SameContent (left right : SoftwareConsensus) : Prop :=
  left.previousHash = right.previousHash ∧ left.account = right.account ∧
    left.seed = right.seed ∧
    (left.systemHashs : Multiset Hash) = (right.systemHashs : Multiset Hash)

/-- Equal roots of messages with `count` system hashes and hashes of `size`
bytes force equal contents, when the leaves are sorted by `sort`. -/
def CommitsToContent (sort : List Hash → List Hash) (size count : ℕ) : Prop :=
  ∀ left right : SoftwareConsensus,
    (∀ hash ∈ hashs left, hash.length = size) →
    (∀ hash ∈ hashs right, hash.length = size) →
    left.systemHashs.length = count → right.systemHashs.length = count →
    computationBy generateHash sort (hashs left) = computationBy generateHash sort (hashs right) →
    SameContent left right

def uniformConsensus (previousHash account leaf : Hash) (count : ℕ) : SoftwareConsensus where
  version := 1
  date := []
  previousHash := previousHash
  account := account
  seed := leaf
  systemHashs := List.replicate count leaf
  merkelRoot := []
  signature := []

theorem mem_hashs_uniformConsensus {previousHash account leaf hash : Hash} {count : ℕ}
    (h : hash ∈ hashs (uniformConsensus previousHash account leaf count)) :
    hash = previousHash ∨ hash = account ∨ hash = leaf := by
  simp only [hashs, uniformConsensus, List.mem_cons, List.mem_replicate] at h
  rcases h with rfl | rfl | rfl | ⟨_, rfl⟩
  · exact Or.inl rfl
  · exact Or.inr (Or.inl rfl)
  · exact Or.inr (Or.inr rfl)
  · exact Or.inr (Or.inr rfl)

/-- A permuted list of leaves is one of the leaves followed by as many as the others. -/
theorem exists_sorted (sort : List Hash → List Hash) (hsort : ∀ hashs, (sort hashs).Perm hashs)
    (consensus : SoftwareConsensus) :
    ∃ head rest, sort (hashs consensus) = head :: rest ∧ head ∈ hashs consensus ∧
      rest.length = consensus.systemHashs.length + 2 := by
  have hperm := hsort (hashs consensus)
  cases hsorted : sort (hashs consensus) with
  | nil =>
    rw [hsorted] at hperm
    exact absurd hperm.length_eq (by simp [hashs])
  | cons head rest =>
    rw [hsorted] at hperm
    refine ⟨head, rest, rfl, hperm.subset (List.mem_cons_self ..), ?_⟩
    have hlength := hperm.length_eq
    simp only [hashs_length, List.length_cons] at hlength
    omega

/-- Messages whose sorted leaves start alike have one root. -/
theorem computationBy_congr {sort : List Hash → List Hash} {left right : SoftwareConsensus}
    {head : Hash} {restLeft restRight : List Hash} (hleft : sort (hashs left) = head :: restLeft)
    (hright : sort (hashs right) = head :: restRight)
    (hlen : restLeft.length = restRight.length) :
    computationBy generateHash sort (hashs left) =
      computationBy generateHash sort (hashs right) := by
  rw [computationBy, computationBy, hleft, hright, compute_congr generateHash head hlen]

theorem length_systemHashs_uniformConsensus (previousHash account leaf : Hash) (count : ℕ) :
    (uniformConsensus previousHash account leaf count).systemHashs.length = count :=
  List.length_replicate

theorem length_of_mem_hashs_uniformConsensus {previousHash account leaf : Hash} {size count : ℕ}
    (hprevious : previousHash.length = size) (haccount : account.length = size)
    (hleaf : leaf.length = size) :
    ∀ hash ∈ hashs (uniformConsensus previousHash account leaf count), hash.length = size := by
  intro hash hmem
  rcases mem_hashs_uniformConsensus hmem with rfl | rfl | rfl
  · exact hprevious
  · exact haccount
  · exact hleaf

/-- With one leaf throughout, the sorted leaves start with it. -/
theorem exists_sorted_uniform (sort : List Hash → List Hash)
    (hsort : ∀ hashs, (sort hashs).Perm hashs) (leaf : Hash) (count : ℕ) :
    ∃ others, sort (hashs (uniformConsensus leaf leaf leaf count)) = leaf :: others ∧
      others.length = count + 2 := by
  obtain ⟨first, others, hsorted, hfirst, hothers⟩ :=
    exists_sorted sort hsort (uniformConsensus leaf leaf leaf count)
  have hleaf : first = leaf := by
    rcases mem_hashs_uniformConsensus hfirst with h | h | h
    · exact h
    · exact h
    · exact h
  subst hleaf
  exact ⟨others, hsorted, by rw [hothers, length_systemHashs_uniformConsensus]⟩

/-- Of three messages with two different leaves two have one root, whichever
leaf the sort step of the mixed message puts first. -/
theorem not_commitsToContent (sort : List Hash → List Hash)
    (hsort : ∀ hashs, (sort hashs).Perm hashs) (size count : ℕ) (hsize : 0 < size) :
    ¬ CommitsToContent generateHash sort size count := by
  intro hcommits
  let zero : Hash := List.replicate size 0
  let one : Hash := List.replicate size 1
  have hdiffer : zero ≠ one := by
    intro hsame
    have hbyte : (0 : UInt8) = 1 :=
      (List.replicate_inj.mp hsame).2.resolve_left (by omega)
    exact absurd hbyte (by decide)
  have hzero : zero.length = size := List.length_replicate
  have hone : one.length = size := List.length_replicate
  obtain ⟨head, rest, hmixed, hhead, hrest⟩ :=
    exists_sorted sort hsort (uniformConsensus zero one zero count)
  rw [length_systemHashs_uniformConsensus] at hrest
  -- A uniform message with the leaf that comes first has the root of the mixed one.
  have hcommitted : ∀ leaf : Hash, leaf.length = size → leaf = head →
      SameContent (uniformConsensus leaf leaf leaf count) (uniformConsensus zero one zero count) := by
    intro leaf hleaf hfirst
    subst hfirst
    obtain ⟨others, hsorted, hlen⟩ := exists_sorted_uniform sort hsort leaf count
    exact hcommits _ _ (length_of_mem_hashs_uniformConsensus hleaf hleaf hleaf)
      (length_of_mem_hashs_uniformConsensus hzero hone hzero)
      (length_systemHashs_uniformConsensus _ _ _ _) (length_systemHashs_uniformConsensus _ _ _ _)
      (computationBy_congr generateHash hsorted hmixed (hlen.trans hrest.symm))
  have hcases : zero = head ∨ one = head := by
    rcases mem_hashs_uniformConsensus hhead with h | h | h
    · exact Or.inl h.symm
    · exact Or.inr h.symm
    · exact Or.inl h.symm
  rcases hcases with hfirst | hfirst
  · exact hdiffer (hcommitted zero hzero hfirst).2.1
  · exact hdiffer (hcommitted one hone hfirst).1.symm

/-- As the code sorts, with an injective hash, the root commits to the previous
hash and to nothing else. -/
theorem computation_eq_iff (hinj : Function.Injective generateHash)
    (left right : SoftwareConsensus)
    (hlen : left.systemHashs.length = right.systemHashs.length) :
    computation generateHash (hashs left) = computation generateHash (hashs right) ↔
      left.previousHash = right.previousHash := by
  have hdouble : Function.Injective fun lhs : Hash => generateHash (lhs ++ lhs) :=
    hinj.comp PairTree.append_self_injective
  apply PairTree.root_eq_iff_of_left (fun lhs => generateHash (lhs ++ lhs))
    (computePair generateHash) (fun _ _ => rfl) hdouble
  simp [hlen]

/-- For no number of system hashes and no sort step does the root commit to the
content of a message; as the code sorts, the signed values of two messages
agree exactly when their previous hashes do. -/
theorem signed_root_commitment (hinj : Function.Injective generateHash) (size : ℕ)
    (hsize : 0 < size) :
    (∀ sort : List Hash → List Hash, (∀ hashs, (sort hashs).Perm hashs) →
      ∀ count, ¬ CommitsToContent generateHash sort size count) ∧
    ∀ left right : SoftwareConsensus, left.systemHashs.length = right.systemHashs.length →
      (computation generateHash (hashs left) = computation generateHash (hashs right) ↔
        left.previousHash = right.previousHash) := by
  refine ⟨?_, fun left right => computation_eq_iff generateHash hinj left right⟩
  intro sort hsort count
  exact not_commitsToContent generateHash sort hsort size count hsize

theorem signed_root_commitment_id :
    (∀ sort : List Hash → List Hash, (∀ hashs, (sort hashs).Perm hashs) →
      ∀ count, ¬ CommitsToContent id sort 32 count) ∧
    ∀ left right : SoftwareConsensus, left.systemHashs.length = right.systemHashs.length →
      (computation id (hashs left) = computation id (hashs right) ↔
        left.previousHash = right.previousHash) :=
  signed_root_commitment id Function.injective_id 32 (by decide)

/-- Two accounts, one signature. -/
theorem account_not_signed :
    (∀ generator : Hash → Bytes,
      ((generateMerkelRoot id (uniformConsensus [7] [1] [7] 14)).map
        fun consensus => (sign generator consensus).signature) =
      ((generateMerkelRoot id (uniformConsensus [7] [2] [7] 14)).map
        fun consensus => (sign generator consensus).signature)) ∧
    ¬ CommitsToContent id SoftwareMerkelUtils.sort 1 14 := by
  constructor
  · intro generator
    have hroot : computation id (hashs (uniformConsensus [7] [1] [7] 14)) =
        computation id (hashs (uniformConsensus [7] [2] [7] 14)) :=
      (computation_eq_iff id Function.injective_id (uniformConsensus [7] [1] [7] 14)
        (uniformConsensus [7] [2] [7] 14) rfl).mpr rfl
    rw [generateMerkelRoot, generateMerkelRoot, hroot, Option.map_map, Option.map_map]
    rfl
  · intro hcommits
    have hsame := hcommits (uniformConsensus [7] [1] [7] 14) (uniformConsensus [7] [2] [7] 14)
      (by decide) (by decide) rfl rfl
      ((computation_eq_iff id Function.injective_id (uniformConsensus [7] [1] [7] 14)
        (uniformConsensus [7] [2] [7] 14) rfl).mpr rfl)
    exact absurd hsame.2.1 (by decide)

end SoftwareConsensusHelper

end Keto.Consensus
