import Keto.AccountDb.NodeAccountRouting
import Keto.Block.ChainNode
import Keto.Library.Ancestry
import Keto.Library.Rounds

/-!
The chain is the history of the accounts. Whatever the processes of a node go through,
what is committed to the accounts mapping is what the messages of the stored chain make
of an empty mapping, from the genesis block on; the chain is never broken; and behind
the genesis block it holds accepted transactions only, in the order of their acceptance
and each as often as it was accepted at most.
-/
namespace Keto.Block

open Protocol TransactionCommon AccountDb BlockDb Crypto Library Library.Stateful Library.Runs
open Library.Ancestry Library.Fallible BlockChainStore ChainIntegrity
open AccountsMapping (withCreated getAccountInfo_applyTransaction)
open ChainRuns (Inv inv_requireGenesis)
open BlockProduction (ProducerThread)

def chainOf (database : BlockDatabase) : List SignedBlock :=
  match database.parentKey, database.blockCount with
  | some head, some count =>
    alongChain database.blocks SignedBlock.parent count.toNat head
  | _, _ => []

def replay (hex : HexCodec) (messages : List TransactionMessage) : Hash → Option AccountInfo :=
  messages.foldl (fun accounts message => withCreated hex message accounts) fun _ => none

def messagesOf (chain : List SignedBlock) : List TransactionMessage :=
  chain.flatMap fun signedBlock => signedBlock.block.transactions

theorem replay_append (hex : HexCodec) (messages more : List TransactionMessage) :
    replay hex (messages ++ more) =
      more.foldl (fun accounts message => withCreated hex message accounts)
        (replay hex messages) :=
  List.foldl_append ..

theorem messagesOf_concat (chain : List SignedBlock) (signedBlock : SignedBlock) :
    messagesOf (chain ++ [signedBlock]) = messagesOf chain ++ signedBlock.block.transactions := by
  rw [messagesOf, List.flatMap_append, List.flatMap_singleton]
  rfl

theorem chainOf_of_unstarted {database : BlockDatabase} (h : database.parentKey = none) :
    chainOf database = [] := by
  rw [chainOf, h]

theorem chainOf_of_head {database : BlockDatabase} {head : Hash} {count : ℕ}
    (hhead : database.parentKey = some head) (hcount : database.blockCount = some (count : ℤ)) :
    chainOf database = alongChain database.blocks SignedBlock.parent count head := by
  rw [chainOf, hhead, hcount]
  rfl

theorem chainOf_ne_nil {database : BlockDatabase} (h : Linked database)
    (hstarted : database.parentKey ≠ none) : chainOf database ≠ [] := by
  obtain ⟨head, hhead⟩ := Option.ne_none_iff_exists'.mp hstarted
  obtain ⟨hstored, _, count, hcount, hchain⟩ := h.head head hhead
  have hlength : (chainOf database).length = count := by
    rw [chainOf_of_head hhead hcount]
    exact length_alongChain hchain
  cases count with
  | zero =>
    obtain rfl := Option.some.inj hchain
    exact absurd h.genesisKey_not_stored hstored
  | succ count => exact List.ne_nil_of_length_eq_add_one hlength

/-- A block that continues the chain is its new end. -/
theorem chainOf_withBlock {database : BlockDatabase} (h : Linked database)
    {signedBlock : SignedBlock} (hcontinues : Continues database signedBlock)
    (hfresh : FreshHash database signedBlock) :
    chainOf (database.withBlock signedBlock (database.blockCount.getD 0 + 1)) =
      chainOf database ++ [signedBlock] := by
  have hstored : (database.withBlock signedBlock (database.blockCount.getD 0 + 1)).blocks
      signedBlock.hash = some signedBlock := by
    simp [BlockDatabase.withBlock]
  rcases hcontinues with hhead | ⟨hnone, _⟩
  · obtain ⟨_, _, count, hcount, hchain⟩ := h.head _ hhead
    have hnew : (database.withBlock signedBlock (database.blockCount.getD 0 + 1)).blockCount =
        some ((count + 1 : ℕ) : ℤ) := by
      simp [BlockDatabase.withBlock, hcount]
    rw [chainOf_of_head rfl hnew, alongChain_of_stored hstored, chainOf_of_head hhead hcount,
      alongChain_mono (fun _ _ hfound => blocks_withBlock_of_fresh hfresh _ hfound) hchain]
  · have hnew : (database.withBlock signedBlock (database.blockCount.getD 0 + 1)).blockCount =
        some ((0 + 1 : ℕ) : ℤ) := by
      simp [BlockDatabase.withBlock, (h.unstarted hnone).1]
    rw [chainOf_of_head rfl hnew, alongChain_of_stored hstored, chainOf_of_unstarted hnone]
    rfl

variable {Graph PrivateKey : Type} (context : NodeContext Graph PrivateKey)

/-- A signed block is what its hash, its root and its signature are of. -/
structure Sealed (signedBlock : SignedBlock) : Prop where
  parent : signedBlock.parent = signedBlock.block.parent
  root : MerkleUtils.computation context.signing.generateHash signedBlock.block =
    some signedBlock.block.merkelRoot
  hash : ∃ date bytes, context.encodeBlock date signedBlock.block = some bytes ∧
    signedBlock.hash = context.signing.generateHash bytes
  signature : ∃ privateKey,
    (SignatureGenerator.ofLoader context.keyLoader).privateKey context.signing = .ok privateKey ∧
      signedBlock.signature = context.signing.signMessage privateKey signedBlock.hash

/-- The hash of a block tells the block, and is neither empty nor the genesis key. -/
structure Binding : Prop where
  injective : ∀ date date' block block' bytes bytes', context.encodeBlock date block = some bytes →
    context.encodeBlock date' block' = some bytes' →
      context.signing.generateHash bytes = context.signing.generateHash bytes' → block = block'
  ne_nil : ∀ date block bytes, context.encodeBlock date block = some bytes →
    context.signing.generateHash bytes ≠ []
  ne_genesisKey : ∀ date block bytes, context.encodeBlock date block = some bytes →
    context.signing.generateHash bytes ≠ genesisKey

variable {context}

/-- Blocks with one hash have one parent. -/
theorem Binding.parent_eq (hbinding : Binding context) {left right : SignedBlock}
    (hleft : Sealed context left) (hright : Sealed context right) (h : left.hash = right.hash) :
    left.parent = right.parent := by
  obtain ⟨date, bytes, hencode, hhash⟩ := hleft.hash
  obtain ⟨date', bytes', hencode', hhash'⟩ := hright.hash
  rw [hhash, hhash'] at h
  rw [hleft.parent, hright.parent,
    hbinding.injective _ _ _ _ _ _ hencode hencode' h]

/-- A sealed block that continues a chain of sealed blocks has a hash of its own. -/
theorem Binding.freshHash (hbinding : Binding context) {database : BlockDatabase}
    (h : Linked database)
    (hsealed : ∀ hash signedBlock, database.blocks hash = some signedBlock →
      signedBlock.hash = hash ∧ Sealed context signedBlock)
    {signedBlock : SignedBlock} (hnew : Sealed context signedBlock)
    (hcontinues : Continues database signedBlock) : FreshHash database signedBlock := by
  obtain ⟨date, bytes, hencode, hhash⟩ := hnew.hash
  refine ⟨?_, ?_, ?_⟩
  · rw [hhash]
    exact hbinding.ne_nil date _ bytes hencode
  · rw [hhash]
    exact hbinding.ne_genesisKey date _ bytes hencode
  · cases hstored : database.blocks signedBlock.hash with
    | none => rfl
    | some found =>
      obtain ⟨hfound, hsealedFound⟩ := hsealed _ found hstored
      have hparent := hbinding.parent_eq hsealedFound hnew hfound
      have hchild := h.child_index _ found hstored
      rw [hparent, h.no_child_of_parent hcontinues] at hchild
      exact absurd hchild (by simp)

section Producing

/-- What is on disk of the two stores is the same, but for the graphs. -/
def SameDisk (s s' : Stores Graph) : Prop :=
  s'.chain.database.committed = s.chain.database.committed ∧
    s'.accounts.accounts.committed = s.accounts.accounts.committed

@[simp] theorem ends_onAccounts {α : Type} {x : AccountM Graph α} {post : α → Stores Graph → Prop}
    {raised : NodeFailure → Stores Graph → Prop} {s : Stores Graph} :
    Ends (Stores.onAccounts x) post raised s ↔
      Ends x (fun a accounts => post a { s with accounts := accounts })
        (fun failure accounts => raised (.account failure) { s with accounts := accounts })
        s.accounts := by
  cases h : x s.accounts with
  | ok a accounts =>
    have hok : Stores.onAccounts x s = .ok a { s with accounts := accounts } := by
      rw [Stores.onAccounts, h]
    rw [ends_of_ok h, ends_of_ok hok]
  | error failure accounts =>
    have herror : Stores.onAccounts x s =
        .error (.account failure) { s with accounts := accounts } := by
      rw [Stores.onAccounts, h]
    rw [ends_of_error h, ends_of_error herror]

variable (context) in
def Stored (start : AccountStore Graph) :
    List TransactionMessage → AccountStore Graph → Prop
  | [], accounts => accounts = start
  | message :: messages, accounts => ∃ next,
      AccountStore.applyTransaction context.hex context.librdf message start = .ok ⟨⟩ next ∧
        Stored next messages accounts

theorem Stored.concat {messages : List TransactionMessage}
    {start accounts accounts' : AccountStore Graph} (h : Stored context start messages accounts)
    {message : TransactionMessage}
    (happly : AccountStore.applyTransaction context.hex context.librdf message accounts =
      .ok ⟨⟩ accounts') : Stored context start (messages ++ [message]) accounts' := by
  induction messages generalizing start with
  | nil =>
    obtain rfl : accounts = start := h
    exact ⟨accounts', happly, rfl⟩
  | cons first messages ih =>
    obtain ⟨next, hfirst, hrest⟩ := h
    exact ⟨next, hfirst, ih hrest⟩

/-- An open transaction has the accounts that its messages create, and nothing of them is
committed. -/
theorem Stored.accounts {messages : List TransactionMessage} {start accounts : AccountStore Graph}
    (h : Stored context start messages accounts) :
    accounts.getAccountInfo =
        messages.foldl (fun accounts message => withCreated context.hex message accounts)
          start.getAccountInfo ∧
      accounts.accounts.committed = start.accounts.committed := by
  induction messages generalizing start with
  | nil =>
    obtain rfl : accounts = start := h
    exact ⟨rfl, rfl⟩
  | cons message messages ih =>
    obtain ⟨next, happly, hrest⟩ := h
    obtain ⟨hinfo, hcommitted⟩ :=
      getAccountInfo_applyTransaction context.hex context.librdf message start
    rw [after_of_ok happly] at hinfo hcommitted
    obtain ⟨hlast, hkept⟩ := ih hrest
    rw [hinfo] at hlast
    exact ⟨hlast, hkept.trans hcommitted⟩

/-- After the transactions that are done: their messages are in the builder and in the
open transaction of the accounts, and nothing else has changed. -/
def Applied (context : NodeContext Graph PrivateKey) (start : Stores Graph) (parentHash : Hash)
    (done : List Transaction) (builder : BlockBuilder) (s : Stores Graph) : Prop :=
  ∃ messages, done.map Transaction.asn1TransactionMessage = messages.map some ∧
    builder = some ⟨parentHash, messages, []⟩ ∧ s.chain = start.chain ∧
    Stored context start.accounts messages s.accounts

theorem ends_addTransaction {start : Stores Graph} {parentHash : Hash} (done : List Transaction)
    (builder : BlockBuilder) (transaction : Transaction) (s : Stores Graph)
    (h : Applied context start parentHash done builder s) :
    Ends (Stores.addTransaction context builder transaction)
      (Applied context start parentHash (done ++ [transaction]))
      (fun _ => SameDisk start) s := by
  obtain ⟨messages, hdone, rfl, hchain, hstored⟩ := h
  have hcommitted := hstored.accounts.2
  have hsame : SameDisk start s := ⟨congrArg (·.database.committed) hchain, hcommitted⟩
  simp only [Stores.addTransaction, Stores.applyAccountTransaction, ends_bind, ends_fromExcept,
    ends_onAccounts, ends_pure, mapError_eq_ok]
  refine ⟨?_, fun _ _ => hsame⟩
  intro message hmessage
  have hafter := (getAccountInfo_applyTransaction context.hex context.librdf message s.accounts).2
  cases happly : AccountStore.applyTransaction context.hex context.librdf message s.accounts with
  | error failure accounts =>
    rw [after_of_error happly] at hafter
    rw [ends_of_error happly]
    exact ⟨hsame.1, hafter.trans hcommitted⟩
  | ok _ accounts =>
    rw [ends_of_ok happly]
    refine ⟨?_, fun _ hrefused => absurd hrefused (by simp [BlockBuilder.addTransactionMessage,
      Except.mapError])⟩
    intro builder hadded
    obtain rfl := Except.ok.inj hadded
    refine ⟨messages ++ [message], ?_, rfl, hchain, hstored.concat happly⟩
    have hdecoded := TransactionProtoHelper.getTransactionMessageHelper_eq_ok.mp hmessage
    rw [List.map_append, List.map_append, hdone, List.map_singleton, List.map_singleton, hdecoded]

/-- What is signed is the block of the builder. -/
theorem signedBlock_eq_ok {date : Bytes} {block : Block} {signedBlock : SignedBlock}
    (h : Stores.signedBlock context date (some block) = .ok signedBlock) :
    Sealed context signedBlock ∧ signedBlock.parent = block.parent ∧
      signedBlock.block.transactions = block.transactions := by
  obtain ⟨built, hbuilt, hrest⟩ := bind_eq_ok.mp h
  have hroot : ∃ root, MerkleUtils.computation context.signing.generateHash block = some root ∧
      built = { block with merkelRoot := root } := by
    rw [BlockBuilder.toBlock, MerkleUtils.buildBlock] at hbuilt
    cases hcomputed : MerkleUtils.computation context.signing.generateHash block with
    | none => simp [hcomputed] at hbuilt
    | some root =>
      simp only [hcomputed, Option.map_some, Except.ok.injEq] at hbuilt
      exact ⟨root, rfl, hbuilt.symm⟩
  obtain ⟨root, hcomputed, rfl⟩ := hroot
  rw [SignedBlockBuilder.ofBlock, SignedBlockBuilder.setBlock, SignedBlockBuilder.ofKeyLoader,
    SignedBlockBuilder.getBlockHash] at hrest
  cases hencode : context.encodeBlock date { block with merkelRoot := root } with
  | none => simp [hencode] at hrest
  | some bytes =>
    simp only [hencode] at hrest
    obtain ⟨signed, hsign, hresult⟩ := bind_eq_ok.mp hrest
    obtain ⟨unsigned, keyLoader, signature, hunsigned, hkey, hsignature, rfl⟩ :=
      BlockBuilders.sign_eq_ok hsign
    obtain rfl := Option.some.inj hunsigned
    obtain rfl := Option.some.inj hkey
    obtain rfl := Except.ok.inj hresult
    obtain ⟨privateKey, hprivate, hmade⟩ := bind_eq_ok.mp hsignature
    exact ⟨⟨rfl, hcomputed, ⟨date, bytes, hencode, rfl⟩, privateKey, hprivate,
      (Except.ok.inj hmade).symm⟩, rfl, rfl⟩

/-- A block is written, of all the transactions, or nothing that is on disk has changed. -/
theorem ends_produce (date : Bytes) (parentHash : Hash) (transactions : List Transaction)
    (start : Stores Graph) :
    Ends (Stores.produce context date parentHash transactions)
      (fun _ s => ∃ signedBlock, Sealed context signedBlock ∧ signedBlock.parent = parentHash ∧
        transactions.map Transaction.asn1TransactionMessage =
          signedBlock.block.transactions.map some ∧
        s.chain = start.chain.writeBlock signedBlock ∧
        Stored context start.accounts signedBlock.block.transactions s.accounts)
      (fun _ => SameDisk start) start := by
  rw [Stores.produce, ends_bind]
  refine Ends.mono (ends_foldlM (Applied context start parentHash) ends_addTransaction
    ⟨[], rfl, rfl, rfl, rfl⟩) ?_ fun _ _ hraised => hraised
  intro builder s happlied
  obtain ⟨messages, hdone, rfl, hchain, hstored⟩ := happlied
  simp only [ends_bind, ends_fromExcept, ends_modify, mapError_eq_ok]
  refine ⟨?_, fun _ _ => ⟨congrArg (·.database.committed) hchain, hstored.accounts.2⟩⟩
  intro signedBlock hsigned
  obtain ⟨hsealed, hparent, htransactions⟩ := signedBlock_eq_ok hsigned
  refine ⟨signedBlock, hsealed, hparent, ?_, congrArg _ hchain, ?_⟩
  · rw [hdone, htransactions]
  · rw [htransactions]
    exact hstored

end Producing

/-- What is on disk: the accounts mapping is what the messages of the chain make. -/
structure Recorded (context : NodeContext Graph PrivateKey) (s : Stores Graph) : Prop where
  linked : Linked s.chain.database.committed
  blocks : ∀ hash signedBlock, s.chain.database.committed.blocks hash = some signedBlock →
    signedBlock.hash = hash ∧ Sealed context signedBlock
  accounts : s.accounts.accounts.committed =
    replay context.hex (messagesOf (chainOf s.chain.database.committed))

/-- No transaction is open, and the caches of the chain follow its columns. -/
structure Settled (s : Stores Graph) : Prop where
  inv : Inv s.chain
  chain : s.chain.database.pending = []
  accounts : s.accounts.accounts.pending = []

theorem Recorded.congr {s s' : Stores Graph} (h : Recorded context s) (hsame : SameDisk s s') :
    Recorded context s' := by
  obtain ⟨hchain, haccounts⟩ := hsame
  refine ⟨?_, ?_, ?_⟩
  · rw [hchain]
    exact h.linked
  · rw [hchain]
    exact h.blocks
  · rw [hchain, haccounts]
    exact h.accounts

variable (context) in
def Extends (s : Stores Graph) (transactions : List Transaction) (s' : Stores Graph) : Prop :=
  ∃ signedBlock accounts, transactions.map Transaction.asn1TransactionMessage =
      signedBlock.block.transactions.map some ∧
    chainOf s'.chain.database.committed = chainOf s.chain.database.committed ++ [signedBlock] ∧
    Stored context s.accounts signedBlock.block.transactions accounts ∧
    s'.accounts = accounts.commit

/-- A commit finds nothing to do. -/
theorem Settled.commit {s : Stores Graph} (h : Settled s) :
    SameDisk s s.commit ∧ Settled s.commit := by
  have hview : s.chain.view = s.chain.database.committed :=
    Overlay.view_of_pending_nil Put.apply h.chain
  have hinfo : s.accounts.getAccountInfo = s.accounts.accounts.committed :=
    Overlay.view_of_pending_nil AccountPut.apply h.accounts
  exact ⟨⟨hview, hinfo⟩, h.inv.commit, rfl, rfl⟩

/-- A genesis block is required where no chain is. -/
theorem unstarted_of_requireGenesis {database : BlockDatabase} (h : Linked database)
    (hrequired : (create database).requireGenesis.1 = true) : database.parentKey = none := by
  by_contra hsome
  obtain ⟨head, hhead⟩ := Option.ne_none_iff_exists'.mp hsome
  obtain ⟨first, hfirst, hne⟩ := h.genesis_child hhead
  have hview : (create database).view = database := rfl
  rw [requireGenesis, hview, hfirst] at hrequired
  simp [hne] at hrequired

section Steps

variable (hbinding : Binding context)
include hbinding

/-- A block that is written to the chain and committed. -/
theorem Recorded.write {start s : Stores Graph} (h : Recorded context start)
    (hsettled : Settled start) {signedBlock : SignedBlock} (hsealed : Sealed context signedBlock)
    (hcontinues : Continues start.chain.database.committed signedBlock)
    (hchain : s.chain = start.chain.writeBlock signedBlock)
    (hstored : Stored context start.accounts signedBlock.block.transactions s.accounts) :
    Recorded context s.commit ∧ Settled s.commit ∧
      chainOf s.commit.chain.database.committed =
        chainOf start.chain.database.committed ++ [signedBlock] := by
  have hview : start.chain.view = start.chain.database.committed :=
    Overlay.view_of_pending_nil Put.apply hsettled.chain
  have hfresh : FreshHash start.chain.database.committed signedBlock :=
    hbinding.freshHash h.linked h.blocks hsealed hcontinues
  have hinv : Inv s.commit.chain := by
    rw [Stores.commit, hchain]
    refine (hsettled.inv.writeBlock ?_ ?_).commit
    · rw [hview]
      exact hcontinues
    · rw [hview]
      exact hfresh
  have hdatabase : s.commit.chain.database.committed =
      start.chain.database.committed.withBlock signedBlock
        (start.chain.database.committed.blockCount.getD 0 + 1) := by
    have hwritten := hsettled.inv.view_writeBlock signedBlock
    rw [hview] at hwritten
    rw [Stores.commit, hchain]
    exact hwritten
  have hchainOf := chainOf_withBlock h.linked hcontinues hfresh
  rw [← hdatabase] at hchainOf
  refine ⟨⟨?_, ?_, ?_⟩, ⟨hinv, rfl, rfl⟩, hchainOf⟩
  · rw [hdatabase]
    exact h.linked.withBlock hcontinues hfresh
  · intro hash found hstored
    rw [hdatabase, BlockDatabase.blocks_withBlock] at hstored
    rcases hstored with ⟨rfl, rfl⟩ | ⟨_, hold⟩
    · exact ⟨rfl, hsealed⟩
    · exact h.blocks hash found hold
  · have hmapping : s.commit.accounts.accounts.committed = s.accounts.getAccountInfo := rfl
    have hbefore : start.accounts.getAccountInfo = start.accounts.accounts.committed :=
      Overlay.view_of_pending_nil AccountPut.apply hsettled.accounts
    rw [hmapping, hstored.accounts.1, hbefore, h.accounts, hchainOf, messagesOf_concat,
      replay_append]

/-- A block of transactions on a parent that the chain continues from. -/
theorem ends_produce_commit (date : Bytes) (parentHash : Hash) (transactions : List Transaction)
    {start : Stores Graph} (h : Recorded context start) (hsettled : Settled start)
    (hcontinues : ∀ signedBlock : SignedBlock, signedBlock.parent = parentHash →
      Continues start.chain.database.committed signedBlock) :
    Ends (Stores.produce context date parentHash transactions)
      (fun _ s => Recorded context s.commit ∧ Settled s.commit ∧
        Extends context start transactions s.commit) (fun _ => SameDisk start) start := by
  refine (ends_produce date parentHash transactions start).mono ?_ fun _ _ hraised => hraised
  rintro _ s ⟨signedBlock, hsealed, hparent, hmessages, hchain, hstored⟩
  obtain ⟨hrecorded, hsettled', hchainOf⟩ := h.write hbinding hsettled hsealed
    (hcontinues signedBlock hparent) hchain hstored
  exact ⟨hrecorded, hsettled', signedBlock, s.accounts, hmessages, hchainOf, hstored, rfl⟩

theorem ends_generateBlock (date : Bytes) (transactions : List Transaction) {start : Stores Graph}
    (h : Recorded context start) (hsettled : Settled start) :
    Ends (Stores.generateBlock context date transactions)
      (fun _ s => Recorded context s ∧ Settled s ∧ Extends context start transactions s ∧
        start.chain.database.committed.parentKey ≠ none)
      (fun _ => SameDisk start) start := by
  have hview : start.chain.view = start.chain.database.committed :=
    Overlay.view_of_pending_nil Put.apply hsettled.chain
  have hparent := hsettled.inv.getParentHash_eq
  rw [Stores.generateBlock, ends_bind]
  rw [hview] at hparent
  cases hhead : start.chain.database.committed.parentKey with
  | none =>
    rw [hhead] at hparent
    have herror : Stores.getParentHash start =
        .error (.blockDb .invalidParentKeyIdentifier) start := by
      rw [Stores.getParentHash, hparent]
    rw [ends_of_error herror]
    exact ⟨rfl, rfl⟩
  | some head =>
    rw [hhead] at hparent
    have hok : Stores.getParentHash start = .ok head start := by
      rw [Stores.getParentHash, hparent]
    rw [ends_of_ok hok, ends_bind]
    refine (ends_produce_commit hbinding date head transactions h hsettled ?_).mono ?_
      fun _ _ hraised => hraised
    · rintro signedBlock rfl
      exact Or.inl hhead
    · rintro _ s ⟨hrecorded, hsettled', hextends⟩
      rw [ends_modify]
      exact ⟨hrecorded, hsettled', hextends, by simp⟩

/-- The start of the modules. A genesis block is loaded only where no chain is. -/
theorem ends_postStart (date : Bytes) (document : Option Stores.Genesis) {start : Stores Graph}
    (h : Recorded context start)
    (hdocument : ∀ genesis ∈ document, genesis.parent = genesisKey) :
    Ends (Stores.postStart context date document)
      (fun _ s => Recorded context s ∧ Settled s ∧
        ((chainOf s.chain.database.committed = chainOf start.chain.database.committed ∧
            s.accounts = (Stores.opened context start).accounts.commit) ∨
          chainOf start.chain.database.committed = [] ∧
            ∃ transactions, Extends context (Stores.opened context start) transactions s))
      (fun _ => SameDisk start) (Stores.opened context start) := by
  obtain ⟨hinv, hdatabase⟩ := inv_requireGenesis h.linked
  let s : Stores Graph := { Stores.opened context start with
    chain := (create start.chain.database.committed).requireGenesis.2 }
  have hcommitted : s.chain.database.committed = start.chain.database.committed :=
    (congrArg Overlay.committed hdatabase :)
  have hsame : SameDisk start s := ⟨hcommitted, rfl⟩
  have hrecorded : Recorded context s := h.congr hsame
  have hsettled : Settled s := ⟨hinv, congrArg Overlay.pending hdatabase, rfl⟩
  have hidle : Recorded context s.commit ∧ Settled s.commit ∧
      ((chainOf s.commit.chain.database.committed = chainOf start.chain.database.committed ∧
          s.commit.accounts = (Stores.opened context start).accounts.commit) ∨
        chainOf start.chain.database.committed = [] ∧
          ∃ transactions, Extends context (Stores.opened context start) transactions s.commit) := by
    obtain ⟨hcommit, hsettled'⟩ := hsettled.commit
    exact ⟨hrecorded.congr hcommit, hsettled', Or.inl ⟨by rw [hcommit.1, hsame.1], rfl⟩⟩
  have hget : (modifyGet (fun s : Stores Graph => (s.chain.requireGenesis.1,
      { s with chain := s.chain.requireGenesis.2 })) : StoresM Graph Bool)
        (Stores.opened context start) =
      .ok (create start.chain.database.committed).requireGenesis.1 s := rfl
  unfold Stores.postStart Stores.genesis
  rw [ends_bind, ends_bind, ends_of_ok hget, ends_ite]
  refine ⟨?_, fun _ => hidle⟩
  intro hrequired
  have hnone := unstarted_of_requireGenesis h.linked hrequired
  cases document with
  | none => exact hidle
  | some document =>
    have hparent := hdocument document rfl
    refine (ends_produce_commit hbinding date document.parent document.transactions hrecorded
      hsettled ?_).mono ?_ ?_
    · intro signedBlock hsigned
      refine Or.inr ⟨?_, hsigned.trans hparent⟩
      rw [hsame.1]
      exact hnone
    · rintro _ s' ⟨hrecorded', hsettled', signedBlock, accounts, hmessages, hchain, hstored⟩
      rw [ends_modify]
      rw [hsame.1] at hchain
      exact ⟨hrecorded', hsettled', Or.inr ⟨chainOf_of_unstarted hnone, document.transactions,
        signedBlock, accounts, hmessages, hchain, hstored⟩⟩
    · intro _ s' hfailed
      exact ⟨hfailed.1.trans hsame.1, hfailed.2.trans hsame.2⟩

end Steps

namespace ChainNode

def waiting (node : ChainNode Graph) : List Transaction :=
  node.thread.held ++ node.producer.transactions

/-- What holds between the operations of a node: the disk, the stores of a process, and
that behind the genesis block come accepted transactions in their order. -/
structure Sound (context : NodeContext Graph PrivateKey) (node : ChainNode Graph) : Prop where
  recorded : Recorded context node.stores
  settled : node.thread ≠ .crashed → Settled node.stores
  history : ((messagesOf ((chainOf node.stores.chain.database.committed).drop 1)).map some ++
    node.waiting.map Transaction.asn1TransactionMessage).Sublist
      (node.accepted.map Transaction.asn1TransactionMessage)

/-- The documents of the node's starts name the genesis key. -/
def OnGenesisKey (operation : Operation) : Prop :=
  match operation with
  | .restart _ document => ∀ genesis ∈ document, genesis.parent = genesisKey
  | _ => True

theorem sound_off (context : NodeContext Graph PrivateKey) : Sound context off where
  recorded := {
    linked := linked_empty
    blocks := fun _ _ h => absurd h (by simp [off, create, BlockDatabase.empty])
    accounts := rfl }
  settled := fun h => absurd rfl h
  history := List.Sublist.refl _

section Steps

variable (hbinding : Binding context)
include hbinding

/-- Waiting transactions are lost with their process. -/
theorem Sound.restart {node : ChainNode Graph} (h : Sound context node) (date : Bytes)
    {document : Option Stores.Genesis}
    (hdocument : ∀ genesis ∈ document, genesis.parent = genesisKey) :
    Sound context (ChainNode.restart context date document node) := by
  have hends := ends_postStart hbinding date document h.recorded hdocument
  have hshort := (List.sublist_append_left _ _).trans h.history
  rw [ChainNode.restart]
  cases hstart : Stores.postStart context date document (Stores.opened context node.stores) with
  | error failure stores =>
    have hsame : SameDisk node.stores stores := (ends_of_error hstart).mp hends
    refine ⟨h.recorded.congr hsame, fun hrunning => absurd rfl hrunning, ?_⟩
    simp only [next, hsame.1, waiting, ProducerThread.held, List.map_nil, List.append_nil]
    exact hshort
  | ok _ stores =>
    obtain ⟨hrecorded, hsettled, hchain⟩ := (ends_of_ok hstart).mp hends
    refine ⟨hrecorded, fun _ => hsettled, ?_⟩
    simp only [next, waiting, ProducerThread.held, List.map_nil, List.append_nil]
    rcases hchain with ⟨hkept, _⟩ | ⟨hnone, _, signedBlock, _, _, hgenesis, _⟩
    · rw [hkept]
      exact hshort
    · have hopened : chainOf (Stores.opened context node.stores).chain.database.committed = [] :=
        hnone
      rw [hgenesis, hopened]
      exact List.nil_sublist _

theorem Sound.generateBlock {node : ChainNode Graph} (h : Sound context node) (date : Bytes)
    {batch : List Transaction} (hthread : node.thread = .generating batch) :
    Sound context (perform context (.generateBlock date) node) := by
  have hsettled := h.settled (by rw [hthread]; simp)
  have hends := ends_generateBlock hbinding date batch h.recorded hsettled
  have hhistory := h.history
  rw [waiting, hthread, ProducerThread.held, List.map_append] at hhistory
  simp only [perform, hthread]
  cases hgenerate : Stores.generateBlock context date batch node.stores with
  | error failure stores =>
    have hsame : SameDisk node.stores stores := (ends_of_error hgenerate).mp hends
    refine ⟨h.recorded.congr hsame, fun hrunning => absurd rfl hrunning, ?_⟩
    simp only [next, hsame.1, waiting, ProducerThread.held, List.nil_append]
    refine List.Sublist.trans ?_ hhistory
    exact (List.sublist_append_right _ _).append_left _
  | ok _ stores =>
    obtain ⟨hrecorded, hsettled', ⟨signedBlock, _, hmessages, hchain, _⟩, hstarted⟩ :=
      (ends_of_ok hgenerate).mp hends
    have hne : chainOf node.stores.chain.database.committed ≠ [] :=
      chainOf_ne_nil h.recorded.linked hstarted
    refine ⟨hrecorded, fun _ => hsettled', ?_⟩
    simp only [next, waiting, ProducerThread.held, List.nil_append, hchain]
    rw [List.drop_append_of_le_length (List.length_pos_iff.mpr hne), messagesOf_concat,
      List.map_append, ← hmessages, List.append_assoc]
    exact hhistory

theorem Sound.perform {node : ChainNode Graph} (h : Sound context node) {operation : Operation}
    (hlegal : OnGenesisKey operation) : Sound context (perform context operation node) := by
  cases operation with
  | restart date document => exact h.restart hbinding date hlegal
  | addTransaction transaction =>
    rw [ChainNode.perform]
    cases hadd : node.producer.addTransaction transaction with
    | error exception => exact h
    | ok producer =>
      refine ⟨h.recorded, h.settled, ?_⟩
      have hqueue := BlockProduction.addTransaction_eq_ok hadd
      simp only [waiting, hqueue, List.map_append, List.map_singleton, ← List.append_assoc]
      refine List.Sublist.append ?_ (List.Sublist.refl _)
      simpa only [waiting, List.map_append, List.append_assoc] using h.history
  | terminate => exact ⟨h.recorded, h.settled, h.history⟩
  | checkState =>
    rw [ChainNode.perform]
    split
    · next hthread =>
      have hsettled := h.settled (by rw [hthread]; simp)
      have hhistory := h.history
      rw [waiting, hthread] at hhistory
      refine ⟨h.recorded, fun _ => hsettled, ?_⟩
      rw [waiting]
      dsimp only
      split <;> exact hhistory
    · exact h
  | getTransactions =>
    rw [ChainNode.perform]
    split
    · next hthread =>
      have hsettled := h.settled (by rw [hthread]; simp)
      have hhistory := h.history
      rw [waiting, hthread] at hhistory
      refine ⟨h.recorded, fun _ => hsettled, ?_⟩
      simpa [waiting, ProducerThread.held] using hhistory
    · exact h
  | generateBlock date =>
    by_cases hgenerating : ∃ batch, node.thread = .generating batch
    · obtain ⟨batch, hthread⟩ := hgenerating
      exact h.generateBlock hbinding date hthread
    · have hsame : ChainNode.perform context (.generateBlock date) node = node := by
        rw [ChainNode.perform]
        cases hthread : node.thread with
        | generating batch => exact absurd ⟨batch, hthread⟩ hgenerating
        | checking => rfl
        | checked => rfl
        | returned => rfl
        | crashed => rfl
      rw [hsame]
      exact h

/-- One operation. -/
theorem Sound.step {operation : Operation} {node : ChainNode Graph} (h : Sound context node)
    (hlegal : OnGenesisKey operation) : Sound context (step context operation node) := by
  unfold ChainNode.step
  split
  · cases operation with
    | restart date document => exact h.restart hbinding date hlegal
    | _ => exact h
  · exact h.perform hbinding hlegal

/-- In every run of a node, over any number of processes and however they end: the chain
is intact and of sealed blocks, the committed accounts mapping is the replay of its
messages, and behind the genesis block it has accepted transactions in their order. -/
theorem accounts_replay_chain {operations : List Operation}
    (hlegal : ∀ operation ∈ operations, OnGenesisKey operation) :
    let node := run (ChainNode.step context) off operations
    let database := node.stores.chain.database.committed
    Intact database ∧ (∀ hash signedBlock, database.blocks hash = some signedBlock →
        signedBlock.hash = hash ∧ Sealed context signedBlock) ∧
      node.stores.accounts.accounts.committed =
        replay context.hex (messagesOf (chainOf database)) ∧
      ((messagesOf ((chainOf database).drop 1)).map some).Sublist
        (node.accepted.map Transaction.asn1TransactionMessage) := by
  have hsound : Sound context (run (ChainNode.step context) off operations) :=
    invariant_run (ChainNode.step context) (fun _ _ h hok => h.step hbinding hok)
      (sound_off context) (Rounds.along_of_mem fun operation hmem _ => hlegal operation hmem)
  exact ⟨hsound.recorded.linked.intact, hsound.recorded.blocks, hsound.recorded.accounts,
    (List.sublist_append_left _ _).trans hsound.history⟩

end Steps

end ChainNode

section Crash

open AccountDb.NodeAccountRouting (rootCreation childCreation)

def twoBlocks (block : Block) : Option Bytes :=
  if MerkleUtils.buildBlock id ⟨genesisKey, [rootCreation], []⟩ = some block then some [1]
  else if MerkleUtils.buildBlock id ⟨[1], [childCreation], []⟩ = some block then some [2]
  else none

def plainNode : NodeContext (List Statement) Bytes where
  hex := .botan
  librdf := .statementList
  signing := .plain
  encodeBlock := fun _ => twoBlocks
  keyLoader := .ofPaths [7] [8]

theorem twoBlocks_cases {block : Block} {bytes : Bytes} (h : twoBlocks block = some bytes) :
    (bytes = [1] ∧ MerkleUtils.buildBlock id ⟨genesisKey, [rootCreation], []⟩ = some block) ∨
      (bytes = [2] ∧ MerkleUtils.buildBlock id ⟨[1], [childCreation], []⟩ = some block) := by
  unfold twoBlocks at h
  split at h
  · next hfirst => exact Or.inl ⟨(Option.some.inj h).symm, hfirst⟩
  · split at h
    · next hsecond => exact Or.inr ⟨(Option.some.inj h).symm, hsecond⟩
    · exact absurd h (by simp)

theorem plainNode_binding : Binding plainNode where
  injective := by
    intro _ _ block block' bytes bytes' hencode hencode' heq
    obtain rfl : bytes = bytes' := heq
    rcases twoBlocks_cases hencode with ⟨rfl, hblock⟩ | ⟨rfl, hblock⟩
    · rcases twoBlocks_cases hencode' with ⟨_, hblock'⟩ | ⟨hbytes, _⟩
      · exact Option.some.inj (hblock.symm.trans hblock')
      · exact absurd hbytes (by decide)
    · rcases twoBlocks_cases hencode' with ⟨hbytes, _⟩ | ⟨_, hblock'⟩
      · exact absurd hbytes (by decide)
      · exact Option.some.inj (hblock.symm.trans hblock')
  ne_nil := by
    intro _ block bytes hencode
    rcases twoBlocks_cases hencode with ⟨rfl, _⟩ | ⟨rfl, _⟩ <;> decide
  ne_genesisKey := by
    intro _ block bytes hencode
    rcases twoBlocks_cases hencode with ⟨rfl, _⟩ | ⟨rfl, _⟩ <;> decide

def carrying (message : TransactionMessage) : Transaction :=
  { Transaction.empty with asn1TransactionMessage := some message }

def crashing : List ChainNode.Operation :=
  [.restart [] (some ⟨genesisKey, [carrying rootCreation]⟩),
    .addTransaction (carrying childCreation), .checkState, .getTransactions, .generateBlock [],
    .addTransaction Transaction.empty, .checkState, .getTransactions, .generateBlock [],
    .restart [] none]

theorem accounts_replay_chain_crashed :
    let node := run (ChainNode.step plainNode) .off crashing
    let chain := chainOf node.stores.chain.database.committed
    chain.map SignedBlock.hash = [[1], [2]] ∧
      node.stores.accounts.accounts.committed = replay .botan (messagesOf chain) := by
  have hlegal : ∀ operation ∈ crashing, ChainNode.OnGenesisKey operation := by
    intro operation hmem
    simp only [crashing, List.mem_cons, List.not_mem_nil, or_false] at hmem
    rcases hmem with rfl | rfl | rfl | rfl | rfl | rfl | rfl | rfl | rfl | rfl <;>
      simp [ChainNode.OnGenesisKey]
  exact ⟨by decide +kernel, (ChainNode.accounts_replay_chain plainNode_binding hlegal).2.2.1⟩

end Crash

end Keto.Block
