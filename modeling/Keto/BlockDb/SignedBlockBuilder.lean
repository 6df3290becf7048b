import Keto.BlockDb.MerkleUtils
import Keto.Crypto.SignatureGenerator
import Keto.Library.Sealing
import Keto.Library.Stateful
import Mathlib.Logic.Function.Basic

/-!
The builders of a block and of a signed block. The block leaves its builder with
the Merkle root in it; the signed block stores it, then its parent, then its hash,
and is signed by a separate call.
-/
namespace Keto.BlockDb

open Protocol Crypto Library.Fallible Library.Runs Library.Sealing Library.Stateful

/-- The last three are no exceptions: a released block, a key loader that was never set and
the root of no hashes are read. -/
inductive BuilderException
  | failedToAddTheTransaction
  | signedBlockReleased
  | serialization
  | crypto (e : CryptoException)
  | nullBlock
  | nullKeyLoader
  | noRoot
  deriving DecidableEq, Repr

variable {PrivateKey : Type} (signing : Signing PrivateKey) (encodeBlock : Block → Option Bytes)

/-- The builder of a block: none once the block is released. -/
abbrev BlockBuilder := Option Block

namespace BlockBuilder

def ofParent (parentHash : Hash) : BlockBuilder := some ⟨parentHash, [], []⟩

def addTransactionMessage (transaction : Option TransactionMessage) (builder : BlockBuilder) :
    Except BuilderException BlockBuilder :=
  match builder, transaction with
  | none, _ => .error .nullBlock
  | some _, none => .error .failedToAddTheTransaction
  | some block, some transaction =>
    .ok (some { block with transactions := block.transactions ++ [transaction] })

/-- The block with its Merkle root, for both conversions of the builder. -/
def toBlock (builder : BlockBuilder) : Except BuilderException Block :=
  match builder with
  | none => .error .nullBlock
  | some block => match MerkleUtils.buildBlock signing.generateHash block with
    | some built => .ok built
    | none => .error .noRoot

end BlockBuilder

structure SignedBlockBuilder where
  keyLoader : Option KeyLoader
  signedBlock : Option SignedBlock
  deriving DecidableEq, Repr

namespace SignedBlockBuilder

def ofKeyLoader (keyLoader : Option KeyLoader) : SignedBlockBuilder :=
  ⟨keyLoader, some ⟨[], ⟨[], [], []⟩, [], []⟩⟩

def getBlockHash (block : Block) : Except BuilderException Hash :=
  match encodeBlock block with
  | some bytes => .ok (signing.generateHash bytes)
  | none => .error .serialization

/-- The block and its parent are stored before the hash is made. -/
def setBlock (block : Block) (builder : SignedBlockBuilder) :
    EStateM.Result BuilderException SignedBlockBuilder PUnit :=
  match builder.signedBlock with
  | none => .error .signedBlockReleased builder
  | some signedBlock =>
    let stored := { signedBlock with block := block, parent := block.parent }
    match getBlockHash signing encodeBlock block with
    | .ok hash => .ok ⟨⟩ { builder with signedBlock := some { stored with hash := hash } }
    | .error e => .error e { builder with signedBlock := some stored }

def sign (builder : SignedBlockBuilder) : Except BuilderException SignedBlockBuilder :=
  match builder.signedBlock, builder.keyLoader with
  | none, _ => .error .signedBlockReleased
  | some _, none => .error .nullKeyLoader
  | some signedBlock, some keyLoader => do
    let signature ← ((SignatureGenerator.ofLoader keyLoader).sign signing
      signedBlock.hash).mapError .crypto
    return { builder with signedBlock := some { signedBlock with signature := signature } }

def ofBlock (block : Block) (keyLoader : Option KeyLoader) :
    EStateM.Result BuilderException SignedBlockBuilder PUnit :=
  setBlock signing encodeBlock block (ofKeyLoader keyLoader)

def release (builder : SignedBlockBuilder) : SignedBlockBuilder :=
  { builder with signedBlock := none }

end SignedBlockBuilder

structure BlockBuilders where
  blocks : ℕ → BlockBuilder
  signed : SignedBlockBuilder

namespace BlockBuilders

def start (parents : ℕ → Hash) (keyLoader : Option KeyLoader) : BlockBuilders :=
  ⟨fun index => BlockBuilder.ofParent (parents index), .ofKeyLoader keyLoader⟩

/-- `setBlock` is given the block that is released by its builder; a reference leaves
the block there, with its Merkle root. -/
inductive Call
  | addTransactionMessage (index : ℕ) (transaction : Option TransactionMessage)
  | reference (index : ℕ)
  | setBlock (index : ℕ)
  | sign
  | release
  deriving DecidableEq, Repr

def perform : Call → EStateM BuilderException BlockBuilders PUnit
  | .addTransactionMessage index transaction, s =>
    match BlockBuilder.addTransactionMessage transaction (s.blocks index) with
    | .ok builder => .ok ⟨⟩ { s with blocks := Function.update s.blocks index builder }
    | .error e => .error e s
  | .reference index, s =>
    match BlockBuilder.toBlock signing (s.blocks index) with
    | .ok block => .ok ⟨⟩ { s with blocks := Function.update s.blocks index (some block) }
    | .error e => .error e s
  | .setBlock index, s =>
    match BlockBuilder.toBlock signing (s.blocks index) with
    | .ok block =>
      match s.signed.setBlock signing encodeBlock block with
      | .ok _ signed => .ok ⟨⟩ ⟨Function.update s.blocks index none, signed⟩
      | .error e signed => .error e ⟨Function.update s.blocks index none, signed⟩
    | .error e => .error e s
  | .sign, s =>
    match s.signed.sign signing with
    | .ok signed => .ok ⟨⟩ { s with signed := signed }
    | .error e => .error e s
  | .release, s => .ok ⟨⟩ { s with signed := s.signed.release }

def step (call : Call) (s : BlockBuilders) : BlockBuilders :=
  after (perform signing encodeBlock call) s

def SetsBlock (call : Call) (_s : BlockBuilders) : Prop := ∃ index, call = .setBlock index

def Signs (call : Call) (s : BlockBuilders) : Prop :=
  call = .sign ∧ returns (perform signing encodeBlock call) s = true

def added (index : ℕ) (calls : List Call) : List TransactionMessage :=
  calls.filterMap fun
    | .addTransactionMessage other transaction => if other = index then transaction else none
    | _ => none

/-- The signed block, unless it is released, carries the block under its hash and parent. -/
def Carries (block : Block) (hash : Hash) (s : BlockBuilders) : Prop :=
  ∀ signedBlock, s.signed.signedBlock = some signedBlock →
    signedBlock.block = block ∧ signedBlock.hash = hash ∧ signedBlock.parent = block.parent

def Signed (s : BlockBuilders) : Prop :=
  ∀ signedBlock, s.signed.signedBlock = some signedBlock →
    ∃ keyLoader, s.signed.keyLoader = some keyLoader ∧
      (SignatureGenerator.ofLoader keyLoader).sign signing signedBlock.hash =
        .ok signedBlock.signature

/-- The hash is that of the block, the root that of the transactions in it, the parent its
parent, and the signature is over the hash. -/
structure Consistent (keyLoader : KeyLoader) (signedBlock : SignedBlock) : Prop where
  hash : (encodeBlock signedBlock.block).map signing.generateHash = some signedBlock.hash
  root : MerkleUtils.computation signing.generateHash signedBlock.block =
    some signedBlock.block.merkelRoot
  parent : signedBlock.parent = signedBlock.block.parent
  signed : (SignatureGenerator.ofLoader keyLoader).sign signing signedBlock.hash =
    .ok signedBlock.signature

inductive SignedStep (s : BlockBuilders) : SignedBlockBuilder → Prop
  | kept : SignedStep s s.signed
  | released : SignedStep s s.signed.release
  | signature (signedBlock : SignedBlock) (keyLoader : KeyLoader) (signature : Bytes)
      (hblock : s.signed.signedBlock = some signedBlock)
      (hkey : s.signed.keyLoader = some keyLoader)
      (hsign : (SignatureGenerator.ofLoader keyLoader).sign signing signedBlock.hash =
        .ok signature) :
      SignedStep s { s.signed with signedBlock := some { signedBlock with signature := signature } }

variable {signing encodeBlock}

theorem step_of_ok {call : Call} {s s' : BlockBuilders}
    (h : perform signing encodeBlock call s = .ok ⟨⟩ s') : step signing encodeBlock call s = s' :=
  after_of_ok h

theorem step_of_error {call : Call} {s s' : BlockBuilders} {e : BuilderException}
    (h : perform signing encodeBlock call s = .error e s') :
    step signing encodeBlock call s = s' := after_of_error h

theorem sign_eq_ok {builder signed : SignedBlockBuilder} (h : builder.sign signing = .ok signed) :
    ∃ signedBlock keyLoader signature, builder.signedBlock = some signedBlock ∧
      builder.keyLoader = some keyLoader ∧
      (SignatureGenerator.ofLoader keyLoader).sign signing signedBlock.hash = .ok signature ∧
      signed = { builder with signedBlock := some { signedBlock with signature := signature } } := by
  rw [SignedBlockBuilder.sign] at h
  split at h
  · cases h
  · cases h
  · rename_i signedBlock keyLoader hblock hkey
    obtain ⟨signature, hsignature, hresult⟩ := bind_eq_ok.mp h
    obtain rfl := Except.ok.inj hresult
    exact ⟨signedBlock, keyLoader, signature, hblock, hkey, mapError_eq_ok.mp hsignature, rfl⟩

theorem signedStep {call : Call} {s : BlockBuilders} (hcall : ¬ SetsBlock call s) :
    SignedStep signing s (step signing encodeBlock call s).signed := by
  cases call with
  | addTransactionMessage index transaction =>
    cases hadd : BlockBuilder.addTransactionMessage transaction (s.blocks index) with
    | ok builder =>
      rw [step_of_ok (by rw [perform, hadd])]
      exact .kept
    | error e =>
      rw [step_of_error (by rw [perform, hadd])]
      exact .kept
  | reference index =>
    cases hblock : BlockBuilder.toBlock signing (s.blocks index) with
    | ok block =>
      rw [step_of_ok (by rw [perform, hblock])]
      exact .kept
    | error e =>
      rw [step_of_error (by rw [perform, hblock])]
      exact .kept
  | setBlock index => exact absurd ⟨index, rfl⟩ hcall
  | sign =>
    cases hsign : s.signed.sign signing with
    | ok signed =>
      rw [step_of_ok (by rw [perform, hsign])]
      obtain ⟨signedBlock, keyLoader, signature, hblock, hkey, hsignature, rfl⟩ := sign_eq_ok hsign
      exact .signature signedBlock keyLoader signature hblock hkey hsignature
    | error e =>
      rw [step_of_error (by rw [perform, hsign])]
      exact .kept
  | release => exact .released

/-- A `setBlock` that returns stores the block of the builder with its root, and the hash. -/
theorem setBlock_returns {index : ℕ} {s : BlockBuilders}
    (h : returns (perform signing encodeBlock (.setBlock index)) s = true) :
    ∃ block root bytes, s.blocks index = some block ∧
      MerkleUtils.computation signing.generateHash block = some root ∧
      encodeBlock { block with merkelRoot := root } = some bytes ∧
      Carries { block with merkelRoot := root } (signing.generateHash bytes)
        (step signing encodeBlock (.setBlock index) s) := by
  have hok := eq_ok_of_returns h
  cases hblock : s.blocks index with
  | none => simp [perform, BlockBuilder.toBlock, hblock] at hok
  | some block =>
    cases hroot : MerkleUtils.computation signing.generateHash block with
    | none => simp [perform, BlockBuilder.toBlock, MerkleUtils.buildBlock, hblock, hroot] at hok
    | some root =>
      have hbuilt : BlockBuilder.toBlock signing (s.blocks index) =
          .ok { block with merkelRoot := root } := by
        rw [hblock, BlockBuilder.toBlock, MerkleUtils.buildBlock, hroot]
        rfl
      cases hsigned : s.signed.signedBlock with
      | none => simp [perform, hbuilt, SignedBlockBuilder.setBlock, hsigned] at hok
      | some signedBlock =>
        cases hbytes : encodeBlock { block with merkelRoot := root } with
        | none =>
          simp [perform, hbuilt, SignedBlockBuilder.setBlock, hsigned,
            SignedBlockBuilder.getBlockHash, hbytes] at hok
        | some bytes =>
          refine ⟨block, root, bytes, rfl, hroot, hbytes, ?_⟩
          intro stored hstored
          rw [step, after_of_ok hok] at hstored
          simp only [after, perform, hbuilt, SignedBlockBuilder.setBlock, hsigned,
            SignedBlockBuilder.getBlockHash, hbytes] at hstored
          obtain rfl := Option.some.inj hstored
          exact ⟨rfl, rfl, rfl⟩

theorem carries_step {call : Call} {s : BlockBuilders} {block : Block} {hash : Hash}
    (h : Carries block hash s) (hcall : ¬ SetsBlock call s) :
    Carries block hash (step signing encodeBlock call s) := by
  have hstep := @signedStep _ signing encodeBlock call s hcall
  rw [Carries]
  generalize (step signing encodeBlock call s).signed = signed at hstep
  intro stored hstored
  cases hstep with
  | kept => exact h stored hstored
  | released => cases hstored
  | signature signedBlock keyLoader signature hblock _ _ =>
    obtain rfl := Option.some.inj hstored
    exact h signedBlock hblock

theorem signed_step {call : Call} {s : BlockBuilders} (h : Signed signing s)
    (hcall : ¬ SetsBlock call s) : Signed signing (step signing encodeBlock call s) := by
  have hstep := @signedStep _ signing encodeBlock call s hcall
  rw [Signed]
  generalize (step signing encodeBlock call s).signed = signed at hstep
  intro stored hstored
  cases hstep with
  | kept => exact h stored hstored
  | released => cases hstored
  | signature signedBlock keyLoader signature hblock hkey hsign =>
    obtain rfl := Option.some.inj hstored
    exact ⟨keyLoader, hkey, hsign⟩

/-- A `sign` that returns leaves the signature over the hash. -/
theorem signed_of_signs {call : Call} {s : BlockBuilders} (h : Signs signing encodeBlock call s) :
    Signed signing (step signing encodeBlock call s) := by
  obtain ⟨rfl, hreturns⟩ := h
  have hok := eq_ok_of_returns hreturns
  intro stored hstored
  cases hsign : s.signed.sign signing with
  | error e => simp [perform, hsign] at hok
  | ok signed =>
    rw [step_of_ok (by rw [perform, hsign])] at hstored ⊢
    obtain ⟨signedBlock, keyLoader, signature, hblock, hkey, hsignature, rfl⟩ := sign_eq_ok hsign
    obtain rfl := Option.some.inj hstored
    exact ⟨keyLoader, hkey, hsignature⟩

theorem keyLoader_step (call : Call) (s : BlockBuilders) :
    (step signing encodeBlock call s).signed.keyLoader = s.signed.keyLoader := by
  by_cases hcall : SetsBlock call s
  · obtain ⟨index, rfl⟩ := hcall
    rw [step, after, perform]
    cases BlockBuilder.toBlock signing (s.blocks index) with
    | error e => rfl
    | ok block =>
      simp only [SignedBlockBuilder.setBlock]
      cases s.signed.signedBlock with
      | none => rfl
      | some signedBlock =>
        cases SignedBlockBuilder.getBlockHash signing encodeBlock block with
        | ok hash => rfl
        | error e => rfl
  · have hstep := @signedStep _ signing encodeBlock call s hcall
    generalize (step signing encodeBlock call s).signed = signed at hstep
    cases hstep with
    | kept => rfl
    | released => rfl
    | signature signedBlock keyLoader signature _ _ _ => rfl

inductive BlocksStep (call : Call) (s : BlockBuilders) : (ℕ → BlockBuilder) → Prop
  | kept (hcall : ∀ index, added index [call] = []) : BlocksStep call s s.blocks
  | added (index : ℕ) (block : Block) (transaction : TransactionMessage)
      (hcall : call = .addTransactionMessage index (some transaction))
      (hblock : s.blocks index = some block) :
      BlocksStep call s (Function.update s.blocks index
        (some { block with transactions := block.transactions ++ [transaction] }))
  | rooted (index : ℕ) (block : Block) (root : Hash)
      (hcall : ∀ index, BlockBuilders.added index [call] = [])
      (hblock : s.blocks index = some block) :
      BlocksStep call s
        (Function.update s.blocks index (some { block with merkelRoot := root }))
  | released (index : ℕ) (hcall : ∀ index, BlockBuilders.added index [call] = []) :
      BlocksStep call s (Function.update s.blocks index none)
  | refused (index : ℕ) (transaction : Option TransactionMessage)
      (hcall : call = .addTransactionMessage index transaction)
      (hblock : transaction = none ∨ s.blocks index = none) : BlocksStep call s s.blocks

theorem toBlock_eq_ok {builder : BlockBuilder} {built : Block}
    (h : BlockBuilder.toBlock signing builder = .ok built) :
    ∃ block root, builder = some block ∧ built = { block with merkelRoot := root } := by
  cases builder with
  | none => cases h
  | some block =>
    rw [BlockBuilder.toBlock] at h
    split at h
    · rename_i found hfound
      obtain ⟨root, _, rfl⟩ := Option.map_eq_some_iff.mp hfound
      obtain rfl := Except.ok.inj h
      exact ⟨block, root, rfl, rfl⟩
    · cases h

theorem blocksStep (call : Call) (s : BlockBuilders) :
    BlocksStep call s (step signing encodeBlock call s).blocks := by
  cases call with
  | addTransactionMessage index transaction =>
    cases hblock : s.blocks index with
    | none =>
      rw [step_of_error (by rw [perform, hblock, BlockBuilder.addTransactionMessage])]
      exact .refused index transaction rfl (Or.inr hblock)
    | some block =>
      cases transaction with
      | none =>
        rw [step_of_error (by rw [perform, hblock, BlockBuilder.addTransactionMessage])]
        exact .refused index none rfl (Or.inl rfl)
      | some transaction =>
        rw [step_of_ok (by rw [perform, hblock, BlockBuilder.addTransactionMessage])]
        exact .added index block transaction rfl hblock
  | reference index =>
    cases hbuilt : BlockBuilder.toBlock signing (s.blocks index) with
    | error e =>
      rw [step_of_error (by rw [perform, hbuilt])]
      exact .kept fun _ => rfl
    | ok built =>
      rw [step_of_ok (by rw [perform, hbuilt])]
      obtain ⟨block, root, hblock, rfl⟩ := toBlock_eq_ok hbuilt
      exact .rooted index block root (fun _ => rfl) hblock
  | setBlock index =>
    cases hbuilt : BlockBuilder.toBlock signing (s.blocks index) with
    | error e =>
      rw [step_of_error (by rw [perform, hbuilt])]
      exact .kept fun _ => rfl
    | ok built =>
      cases hset : s.signed.setBlock signing encodeBlock built with
      | ok u signed =>
        have hperform : perform signing encodeBlock (.setBlock index) s =
            .ok ⟨⟩ ⟨Function.update s.blocks index none, signed⟩ := by
          simp only [perform, hbuilt, hset]
        rw [step_of_ok hperform]
        exact .released index fun _ => rfl
      | error e signed =>
        have hperform : perform signing encodeBlock (.setBlock index) s =
            .error e ⟨Function.update s.blocks index none, signed⟩ := by
          simp only [perform, hbuilt, hset]
        rw [step_of_error hperform]
        exact .released index fun _ => rfl
  | sign =>
    cases hsign : s.signed.sign signing with
    | ok signed =>
      rw [step_of_ok (by rw [perform, hsign])]
      exact .kept fun _ => rfl
    | error e =>
      rw [step_of_error (by rw [perform, hsign])]
      exact .kept fun _ => rfl
  | release => exact .kept fun _ => rfl

/-- A call keeps the parent of a block that is not released by it, and its transactions
followed by what it adds. -/
theorem blocks_step {call : Call} {s : BlockBuilders} {index : ℕ} {block : Block}
    (h : (step signing encodeBlock call s).blocks index = some block) :
    ∃ first, s.blocks index = some first ∧ block.parent = first.parent ∧
      block.transactions = first.transactions ++ added index [call] := by
  have hstep := @blocksStep _ signing encodeBlock call s
  generalize (step signing encodeBlock call s).blocks = blocks at h hstep
  cases hstep with
  | kept hcall => exact ⟨block, h, rfl, by rw [hcall, List.append_nil]⟩
  | added other first transaction hcall hblock =>
    subst hcall
    by_cases hindex : other = index
    · subst hindex
      rw [Function.update_self] at h
      obtain rfl := Option.some.inj h
      exact ⟨first, hblock, rfl, by simp [added]⟩
    · rw [Function.update_of_ne (Ne.symm hindex)] at h
      exact ⟨block, h, rfl, by simp [added, hindex]⟩
  | rooted other first root hcall hblock =>
    rw [hcall]
    by_cases hindex : other = index
    · subst hindex
      rw [Function.update_self] at h
      obtain rfl := Option.some.inj h
      exact ⟨first, hblock, rfl, (List.append_nil _).symm⟩
    · rw [Function.update_of_ne (Ne.symm hindex)] at h
      exact ⟨block, h, rfl, (List.append_nil _).symm⟩
  | released other hcall =>
    by_cases hindex : other = index
    · subst hindex
      rw [Function.update_self] at h
      cases h
    · rw [Function.update_of_ne (Ne.symm hindex)] at h
      exact ⟨block, h, rfl, by rw [hcall, List.append_nil]⟩
  | refused other transaction hcall hblock =>
    subst hcall
    refine ⟨block, h, rfl, ?_⟩
    rcases hblock with rfl | hnone
    · simp [added]
    · have hindex : other ≠ index := by
        rintro rfl
        exact absurd (hnone.symm.trans h) (by simp)
      simp [added, hindex]

theorem added_cons (index : ℕ) (call : Call) (calls : List Call) :
    added index (call :: calls) = added index [call] ++ added index calls := by
  rw [added, ← List.singleton_append, List.filterMap_append]
  rfl

/-- A block that is not released holds the messages that were added to it. -/
theorem blocks_run {calls : List Call} {s : BlockBuilders} {index : ℕ} {block : Block}
    (h : (run (step signing encodeBlock) s calls).blocks index = some block) :
    ∃ first, s.blocks index = some first ∧ block.parent = first.parent ∧
      block.transactions = first.transactions ++ added index calls := by
  induction calls generalizing s with
  | nil => exact ⟨block, h, rfl, (List.append_nil _).symm⟩
  | cons call calls ih =>
    obtain ⟨second, hsecond, hparent, htransactions⟩ := ih h
    obtain ⟨first, hfirst, hfirstParent, hfirstTransactions⟩ := blocks_step hsecond
    refine ⟨first, hfirst, hparent.trans hfirstParent, ?_⟩
    rw [htransactions, hfirstTransactions, List.append_assoc, added_cons index call calls]

/-- When a `sign` follows the last `setBlock`, the signed block that is handed out carries
the block of the builder: its parent hash, the messages added to it and their Merkle root,
under the hash of just this block and with a signature over the hash. -/
theorem signedBlock_consistent (signing : Signing PrivateKey) (encodeBlock : Block → Option Bytes)
    (parents : ℕ → Hash) (keyLoader : KeyLoader) (before : List Call) (index : ℕ)
    (between rest : List Call)
    (hset : returns (perform signing encodeBlock (.setBlock index))
      (run (step signing encodeBlock) (start parents keyLoader) before) = true)
    (hlast : SignedAfter (step signing encodeBlock) SetsBlock (Signs signing encodeBlock)
      (run (step signing encodeBlock) (start parents keyLoader) before) (.setBlock index) between
      .sign rest)
    (signedBlock : SignedBlock)
    (hhanded : (run (step signing encodeBlock) (start parents keyLoader)
      (before ++ .setBlock index :: (between ++ .sign :: rest))).signed.signedBlock =
        some signedBlock) :
    Consistent signing encodeBlock keyLoader signedBlock ∧
      signedBlock.block.parent = parents index ∧
      signedBlock.block.transactions = added index before := by
  obtain ⟨block, root, bytes, hblock, hroot, hbytes, hcarries⟩ := setBlock_returns hset
  obtain ⟨hcarried, hsigned⟩ := hlast.holds hcarries (fun _ _ h hcall => carries_step h hcall)
    (fun _ hsigns _ => signed_of_signs hsigns) (fun _ _ _ h hcall => signed_step h hcall)
  rw [← run_append] at hcarried hsigned
  obtain ⟨hcarriedBlock, hhash, hparent⟩ := hcarried signedBlock hhanded
  obtain ⟨loader, hloader, hsignature⟩ := hsigned signedBlock hhanded
  have hkeyLoader := @run_keeps _ _ (step signing encodeBlock)
    (fun s => s.signed.keyLoader = some keyLoader)
    (fun call s h => (keyLoader_step call s).trans h) (start parents keyLoader) rfl
    (before ++ .setBlock index :: (between ++ .sign :: rest))
  obtain rfl := Option.some.inj (hloader.symm.trans hkeyLoader)
  obtain ⟨first, hfirst, hfirstParent, htransactions⟩ := blocks_run hblock
  obtain rfl := Option.some.inj hfirst
  rw [hcarriedBlock]
  refine ⟨⟨?_, ?_, ?_, hsignature⟩, hfirstParent, htransactions⟩
  · rw [hcarriedBlock, hbytes, hhash]
    rfl
  · rw [hcarriedBlock]
    exact (MerkleUtils.computation_congr signing.generateHash _ block rfl rfl).trans hroot
  · rw [hparent, hcarriedBlock]

def plainEncode (block : Block) : Option Bytes :=
  some (block.parent ++ block.merkelRoot ++ block.transactions.map fun _ => 0)

def plainMessage : TransactionMessage := ⟨[], [], [], [7], [], ⟨[7], []⟩, .complete, []⟩

/-- The calls of the block producer for a batch of one message: it is added, the block is
set and signed. -/
theorem signedBlock_consistent_plain :
    Consistent .plain plainEncode (.ofPaths [1] [2])
        ⟨[9], ⟨[9], [plainMessage], [9, 9]⟩, [9, 9, 9, 0], [1, 9, 9, 9, 0]⟩ ∧
      ([9] : Hash) = [9] ∧
      [plainMessage] = added 0 [.addTransactionMessage 0 (some plainMessage)] := by
  refine signedBlock_consistent .plain plainEncode (fun _ => [9]) (.ofPaths [1] [2])
    [.addTransactionMessage 0 (some plainMessage)] 0 [] [] (by decide +kernel)
    ⟨⟨0, rfl⟩, ⟨rfl, by decide +kernel⟩, ?_, trivial⟩
    ⟨[9], ⟨[9], [plainMessage], [9, 9]⟩, [9, 9, 9, 0], [1, 9, 9, 9, 0]⟩ (by decide +kernel)
  intro hsets
  obtain ⟨index, hcall⟩ := hsets
  cases hcall

end BlockBuilders

end Keto.BlockDb
