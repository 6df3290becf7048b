import Keto.AccountDb.StoreSteps
import Keto.Library.Ancestry
import Keto.Library.Runs

/-!
The accounts mapping along runs. An entry is stored once and never changed, so
the mapping stays intact as long as each new entry is: filed under its own hash
and below a parent that is already there. The store checks the parent of every
account but a master's, and of the hash that some object of the subject is the
account's, while it stores what the first object says.
-/
namespace Keto.AccountDb.AccountsMapping

open Protocol Library Library.Stateful Library.Ancestry Library.Runs
open AccountStore AccountRDFStatementBuilder AccountSystemOntologyTypes

abbrev Mapping := Hash → Option AccountInfo

/-- The parent that an entry names, where the empty hash names none. -/
def parent (accounts : Mapping) (accountHash : Hash) : Option Hash :=
  (accounts accountHash).bind fun accountInfo =>
    if accountInfo.parentAccountHash = [] then none else some accountInfo.parentAccountHash

structure Intact (accounts : Mapping) : Prop where
  accountHash : ∀ hash accountInfo, accounts hash = some accountInfo →
    accountInfo.accountHash = hash
  parent_exists : ∀ hash parentHash, parent accounts hash = some parentHash →
    accounts parentHash ≠ none
  graphName : ∀ hash accountInfo parentHash parentInfo, accounts hash = some accountInfo →
    accountInfo.accountType ≠ masterType → parent accounts hash = some parentHash →
    accounts parentHash = some parentInfo → accountInfo.graphName = parentInfo.graphName
  acyclic : ∀ hash, accounts hash ≠ none → ∃ n root rootInfo,
    ancestor (parent accounts) n hash = some root ∧ accounts root = some rootInfo ∧
      rootInfo.parentAccountHash = []

theorem intact_empty : Intact fun _ => none := by
  refine ⟨?_, ?_, ?_, ?_⟩
  · intro hash accountInfo h
    exact absurd h (by simp)
  · intro hash parentHash h
    exact absurd h (by simp [parent])
  · intro hash accountInfo parentHash parentInfo h
    exact absurd h (by simp)
  · intro hash h
    exact absurd rfl h

section NewEntry

variable {accounts : Mapping} {hash : Hash} {accountInfo : AccountInfo}

theorem parent_update_self : parent (Function.update accounts hash (some accountInfo)) hash =
    if accountInfo.parentAccountHash = [] then none else some accountInfo.parentAccountHash := by
  rw [parent, Function.update_self, Option.bind_some]

theorem parent_update_of_ne {other : Hash} (h : other ≠ hash) :
    parent (Function.update accounts hash (some accountInfo)) other = parent accounts other := by
  rw [parent, Function.update_of_ne h, parent]

theorem Intact.rooted (h : Intact accounts) {hash : Hash} (hknown : accounts hash ≠ none) :
    Rooted (parent accounts) hash := by
  obtain ⟨n, root, rootInfo, hroot, hinfo, hend⟩ := h.acyclic hash hknown
  refine ⟨n, root, hroot, ?_⟩
  rw [parent, hinfo, Option.bind_some, if_pos hend]

/-- Where named parents exist, a chain that ends does so at an account without one. -/
theorem acyclic_of_rooted
    (hparent : ∀ hash parentHash, parent accounts hash = some parentHash →
      accounts parentHash ≠ none)
    {hash : Hash} (hknown : accounts hash ≠ none) (h : Rooted (parent accounts) hash) :
    ∃ n root rootInfo, ancestor (parent accounts) n hash = some root ∧
      accounts root = some rootInfo ∧ rootInfo.parentAccountHash = [] := by
  obtain ⟨n, root, hroot, hend⟩ := h
  have hstored : accounts root ≠ none :=
    ancestor_closed (fun a b _ hlink => hparent a b hlink) hknown hroot
  obtain ⟨rootInfo, hinfo⟩ := Option.ne_none_iff_exists'.mp hstored
  refine ⟨n, root, rootInfo, hroot, hinfo, ?_⟩
  rw [parent, hinfo, Option.bind_some] at hend
  by_contra hnamed
  rw [if_neg hnamed] at hend
  exact absurd hend (by simp)

/-- An entry for a new hash that is filed under it, below a parent that is
there, and with the parent's graph unless it is a master. -/
structure FitsIn (accounts : Mapping) (hash : Hash) (accountInfo : AccountInfo) : Prop where
  unknown : accounts hash = none
  accountHash : accountInfo.accountHash = hash
  parent_exists : accountInfo.parentAccountHash = [] ∨
    accounts accountInfo.parentAccountHash ≠ none
  graphName : accountInfo.accountType ≠ masterType → ∀ parentInfo,
    accounts accountInfo.parentAccountHash = some parentInfo →
    accountInfo.graphName = parentInfo.graphName

theorem FitsIn.ne_of_known (hfits : FitsIn accounts hash accountInfo) {other : Hash}
    (hknown : accounts other ≠ none) : other ≠ hash := by
  rintro rfl
  exact hknown hfits.unknown

/-- The links of the new entry, which goes to the parent it names. -/
theorem parent_update_self_eq_some {parentHash : Hash}
    (hlink : parent (Function.update accounts hash (some accountInfo)) hash = some parentHash) :
    accountInfo.parentAccountHash ≠ [] ∧ accountInfo.parentAccountHash = parentHash := by
  rw [parent_update_self] at hlink
  by_cases hnone : accountInfo.parentAccountHash = []
  · rw [if_pos hnone] at hlink
    exact absurd hlink (by simp)
  · rw [if_neg hnone] at hlink
    exact ⟨hnone, Option.some.inj hlink⟩

/-- Every link of the grown mapping goes to an account that was there before. -/
theorem FitsIn.parent_known (hfits : FitsIn accounts hash accountInfo) (h : Intact accounts)
    {other parentHash : Hash}
    (hlink : parent (Function.update accounts hash (some accountInfo)) other = some parentHash) :
    accounts parentHash ≠ none := by
  by_cases hother : other = hash
  · subst hother
    obtain ⟨hnamed, rfl⟩ := parent_update_self_eq_some hlink
    rcases hfits.parent_exists with hnone | hknown
    · exact absurd hnone hnamed
    · exact hknown
  · rw [parent_update_of_ne hother] at hlink
    exact h.parent_exists other parentHash hlink

/-- The chains of the accounts that were there before are as they were. -/
theorem FitsIn.rooted (hfits : FitsIn accounts hash accountInfo) (h : Intact accounts)
    {other : Hash} (hknown : accounts other ≠ none) :
    Rooted (parent (Function.update accounts hash (some accountInfo))) other := by
  refine Rooted.mono (fun a b _ hlink => h.parent_exists a b hlink) ?_ hknown (h.rooted hknown)
  intro a ha
  exact parent_update_of_ne (hfits.ne_of_known ha)

/-- A new entry that fits in keeps the mapping intact. -/
theorem Intact.update (h : Intact accounts) (hfits : FitsIn accounts hash accountInfo) :
    Intact (Function.update accounts hash (some accountInfo)) := by
  have hexists : ∀ other parentHash,
      parent (Function.update accounts hash (some accountInfo)) other = some parentHash →
      Function.update accounts hash (some accountInfo) parentHash ≠ none := by
    intro other parentHash hlink
    have hknown := hfits.parent_known h hlink
    rw [Function.update_of_ne (hfits.ne_of_known hknown)]
    exact hknown
  refine ⟨?_, hexists, ?_, ?_⟩
  · intro other otherInfo hother
    by_cases hsame : other = hash
    · subst hsame
      rw [Function.update_self] at hother
      obtain rfl := Option.some.inj hother
      exact hfits.accountHash
    · rw [Function.update_of_ne hsame] at hother
      exact h.accountHash other otherInfo hother
  · intro other otherInfo parentHash parentInfo hother htype hlink hfound
    have hknown := hfits.parent_known h hlink
    rw [Function.update_of_ne (hfits.ne_of_known hknown)] at hfound
    by_cases hsame : other = hash
    · subst hsame
      rw [Function.update_self] at hother
      obtain rfl := Option.some.inj hother
      obtain ⟨_, rfl⟩ := parent_update_self_eq_some hlink
      exact hfits.graphName htype parentInfo hfound
    · rw [Function.update_of_ne hsame] at hother
      rw [parent_update_of_ne hsame] at hlink
      exact h.graphName other otherInfo parentHash parentInfo hother htype hlink hfound
  · intro other hstored
    refine acyclic_of_rooted hexists hstored ?_
    by_cases hsame : other = hash
    · cases hlink : parent (Function.update accounts hash (some accountInfo)) other with
      | none => exact rooted_of_none _ hlink
      | some parentHash =>
        exact rooted_of_some _ hlink (hfits.rooted h (hfits.parent_known h hlink))
    · rw [Function.update_of_ne hsame] at hstored
      exact hfits.rooted h hstored

/-- And an intact mapping shows that the entry was such a one. -/
theorem Intact.of_update (h : Intact (Function.update accounts hash (some accountInfo))) :
    accountInfo.accountHash = hash ∧
      (accountInfo.parentAccountHash = [] ∨ accounts accountInfo.parentAccountHash ≠ none) := by
  refine ⟨h.accountHash hash accountInfo (Function.update_self hash _ accounts), ?_⟩
  by_cases hnamed : accountInfo.parentAccountHash = []
  · exact Or.inl hnamed
  · right
    have hlink : parent (Function.update accounts hash (some accountInfo)) hash =
        some accountInfo.parentAccountHash := by rw [parent_update_self, if_neg hnamed]
    have hknown := h.parent_exists hash accountInfo.parentAccountHash hlink
    by_cases hself : accountInfo.parentAccountHash = hash
    · rw [hself] at hlink
      obtain ⟨n, root, rootInfo, hroot, hinfo, hend⟩ := h.acyclic hash (by simp)
      rw [ancestor_self hlink n] at hroot
      obtain rfl := Option.some.inj hroot
      rw [Function.update_self] at hinfo
      obtain rfl := Option.some.inj hinfo
      exact absurd hend hnamed
    · rw [Function.update_of_ne hself] at hknown
      exact hknown

end NewEntry

section Messages

variable (hex : HexCodec) (message : TransactionMessage) (accounts : Mapping)

def messageSubjects : List RDFSubject := (models message).flatMap accountSubjects

/-- The message gets as far as storing an entry: its account is not known, the
builder accepts it, its last account subject asks for a creation, and that
subject is a master's or the named parent is known. -/
def StoresAccount : Prop :=
  accounts (phaseAccount message) = none ∧ (create hex message false).toBool = true ∧
    ∃ subject, (messageSubjects message).getLast? = some subject ∧
      literal subject statusPredicate = accountCreateObjectStatus ∧
      (literal subject typePredicate = masterType ∨
        accounts (namedParent hex (messageSubjects message)) ≠ none)

/-- Where the message stores an entry, the first object of the account's id is
the account, and a master names no parent or one that is known. -/
def SoundCreation : Prop :=
  StoresAccount hex message accounts →
    ∀ subject, (messageSubjects message).getLast? = some subject →
      hex.hexDecode (literal subject idPredicate) = some (phaseAccount message) ∧
        (literal subject typePredicate = masterType →
          namedParent hex (messageSubjects message) = [] ∨
            accounts (namedParent hex (messageSubjects message)) ≠ none)

structure DescribedBy (subject : RDFSubject) (accountInfo : AccountInfo) : Prop where
  last : (messageSubjects message).getLast? = some subject
  accountHash : hex.hexDecode (literal subject idPredicate) = some accountInfo.accountHash
  parentAccountHash : accountInfo.parentAccountHash = namedParent hex (messageSubjects message)
  accountType : accountInfo.accountType = literal subject typePredicate
  graphName : accountInfo.accountType ≠ masterType → ∃ parentInfo,
    accounts accountInfo.parentAccountHash = some parentInfo ∧
      accountInfo.graphName = parentInfo.graphName

variable {hex message}

/-- The entry that a builder's account becomes. -/
theorem newAccount_cases {builder : AccountRDFStatementBuilder}
    (hbuilder : Describes hex (messageSubjects message) builder)
    (hcreate : builder.action = accountCreateObjectStatus) :
    ∃ subject, (messageSubjects message).getLast? = some subject ∧
      literal subject statusPredicate = accountCreateObjectStatus ∧
      ((∃ accountInfo,
          newAccount hex (phaseAccount message) builder accounts = some accountInfo ∧
          DescribedBy hex message accounts subject accountInfo ∧
          (literal subject typePredicate = masterType ∨
            accounts (namedParent hex (messageSubjects message)) ≠ none)) ∨
        (newAccount hex (phaseAccount message) builder accounts = none ∧
          literal subject typePredicate ≠ masterType ∧
          accounts (namedParent hex (messageSubjects message)) = none)) := by
  have haction := hbuilder.action
  have htype := hbuilder.accountType
  have hparent := hbuilder.parentAccountHash
  cases hlast : (messageSubjects message).getLast? with
  | none =>
    rw [hlast, hcreate] at haction
    exact absurd haction (by decide)
  | some subject =>
    rw [hlast] at haction htype
    have hhash := hbuilder.accountHash subject hlast
    refine ⟨subject, rfl, haction.symm.trans hcreate, ?_⟩
    rw [newAccount, if_pos hcreate, newGraph]
    by_cases hmaster : builder.accountInfo.accountType = masterType
    · left
      rw [if_pos hmaster, Option.map_some]
      refine ⟨_, rfl, ⟨hlast, hhash, hparent, htype, ?_⟩, Or.inl (htype.symm.trans hmaster)⟩
      exact fun hother => absurd hmaster hother
    · rw [if_neg hmaster, hparent]
      cases hknown : accounts (namedParent hex (messageSubjects message)) with
      | none => exact Or.inr ⟨rfl, fun hliteral => hmaster (htype.trans hliteral), rfl⟩
      | some parentInfo =>
        left
        refine ⟨_, rfl, ⟨hlast, hhash, hparent, htype, ?_⟩, Or.inr (by simp)⟩
        intro _
        refine ⟨parentInfo, ?_, rfl⟩
        simp only
        rw [hparent]
        exact hknown

/-- What is stored is what the message describes, and is stored where it says so. -/
theorem createdAccount_cases (hex : HexCodec) (message : TransactionMessage)
    (accounts : Mapping) :
    (∃ subject accountInfo, createdAccount hex message accounts = some accountInfo ∧
      StoresAccount hex message accounts ∧ DescribedBy hex message accounts subject accountInfo) ∨
    (createdAccount hex message accounts = none ∧ ¬ StoresAccount hex message accounts) := by
  unfold createdAccount StoresAccount
  cases hknown : accounts (phaseAccount message) with
  | some found => exact Or.inr ⟨rfl, fun h => absurd h.1 (by simp)⟩
  | none =>
    cases hbuilder : create hex message false with
    | error e => exact Or.inr ⟨rfl, fun h => absurd h.2.1 (by simp [Except.toBool])⟩
    | ok builder =>
      have hdescribes := (create_eq_ok hbuilder).2
      by_cases hcreate : builder.action = accountCreateObjectStatus
      · obtain ⟨subject, hlast, hstatus, hstored | ⟨hnone, htype, hmissing⟩⟩ :=
          newAccount_cases accounts hdescribes hcreate
        · obtain ⟨accountInfo, hnew, hdescribed, hallowed⟩ := hstored
          refine Or.inl ⟨subject, accountInfo, hnew, ⟨rfl, rfl, ?_⟩, hdescribed⟩
          exact ⟨subject, hlast, hstatus, hallowed⟩
        · refine Or.inr ⟨hnone, ?_⟩
          rintro ⟨_, _, last, hmem, _, hmaster | hfound⟩
          · obtain rfl := Option.some.inj (hlast.symm.trans hmem)
            exact htype hmaster
          · exact hfound hmissing
      · refine Or.inr ⟨?_, ?_⟩
        · simp only [newAccount, if_neg hcreate]
        · rintro ⟨_, _, last, hmem, hstatus, _⟩
          refine hcreate ?_
          rw [hdescribes.action]
          simp only [messageSubjects] at hmem
          rw [hmem]
          exact hstatus

variable {accounts}

def withCreated (hex : HexCodec) (message : TransactionMessage) (accounts : Mapping) : Mapping :=
  match createdAccount hex message accounts with
  | some accountInfo => Function.update accounts (phaseAccount message) (some accountInfo)
  | none => accounts

/-- One transaction: the mapping stays intact exactly when the creation is sound. -/
theorem intact_withCreated_iff (h : Intact accounts) :
    Intact (withCreated hex message accounts) ↔ SoundCreation hex message accounts := by
  unfold withCreated
  rcases createdAccount_cases hex message accounts with
    ⟨subject, accountInfo, hcreated, hstores, hdescribed⟩ | ⟨hnone, hstores⟩
  · rw [hcreated]
    constructor
    · intro hintact _ last hlast
      obtain rfl := Option.some.inj (hdescribed.last.symm.trans hlast)
      obtain ⟨hhash, hparent⟩ := hintact.of_update
      rw [hdescribed.parentAccountHash] at hparent
      refine ⟨?_, fun _ => hparent⟩
      rw [hdescribed.accountHash, hhash]
    · intro hsound
      obtain ⟨hhash, hmaster⟩ := hsound hstores subject hdescribed.last
      refine h.update ⟨hstores.1, ?_, ?_, ?_⟩
      · exact Option.some.inj (hdescribed.accountHash.symm.trans hhash)
      · by_cases htype : accountInfo.accountType = masterType
        · rw [hdescribed.parentAccountHash]
          exact hmaster (hdescribed.accountType.symm.trans htype)
        · obtain ⟨parentInfo, hfound, _⟩ := hdescribed.graphName htype
          right
          rw [hfound]
          simp
      · intro htype parentInfo hfound
        obtain ⟨found, hknown, hgraph⟩ := hdescribed.graphName htype
        obtain rfl := Option.some.inj (hknown.symm.trans hfound)
        exact hgraph
  · rw [hnone]
    exact ⟨fun _ hstored => absurd hstored hstores, fun _ => h⟩

end Messages

section Runs

variable {Graph : Type} (hex : HexCodec) (librdf : Librdf Graph)

inductive Operation
  | applyTransaction (message : TransactionMessage)
  | commit
  | rollback

/-- A transaction that throws leaves what it had done, for its caller to roll back. -/
def step : Operation → AccountStore Graph → AccountStore Graph
  | .applyTransaction message, store => after (applyTransaction hex librdf message) store
  | .commit, store => store.commit
  | .rollback, store => store.rollback

def Sound : Operation → AccountStore Graph → Prop
  | .applyTransaction message, store => SoundCreation hex message store.getAccountInfo
  | .commit, _ => True
  | .rollback, _ => True

def Inv (store : AccountStore Graph) : Prop :=
  Intact store.getAccountInfo ∧ Intact store.accounts.committed

theorem inv_empty : Inv (.empty : AccountStore Graph) := ⟨intact_empty, intact_empty⟩

theorem getAccountInfo_applyTransaction (message : TransactionMessage)
    (store : AccountStore Graph) :
    (after (applyTransaction hex librdf message) store).getAccountInfo =
        withCreated hex message store.getAccountInfo ∧
      (after (applyTransaction hex librdf message) store).accounts.committed =
        store.accounts.committed := by
  have haccounts := after_applyTransaction_accounts hex librdf message store
  unfold withCreated
  unfold withAccount at haccounts
  cases hcreated : createdAccount hex message store.getAccountInfo with
  | none =>
    rw [hcreated] at haccounts
    refine ⟨?_, congrArg Overlay.committed haccounts⟩
    funext hash
    rw [getAccountInfo, haccounts]
    rfl
  | some accountInfo =>
    rw [hcreated] at haccounts
    have hput : (after (applyTransaction hex librdf message) store).accounts =
        (store.setAccountInfo (phaseAccount message) accountInfo).accounts := haccounts
    refine ⟨?_, (congrArg Overlay.committed hput).trans rfl⟩
    have hstored := getAccountInfo_setAccountInfo (phaseAccount message) accountInfo store
    refine Eq.trans ?_ hstored
    funext hash
    rw [getAccountInfo, hput]
    rfl

theorem intact_step_iff (operation : Operation) (store : AccountStore Graph) (h : Inv store) :
    Intact (step hex librdf operation store).getAccountInfo ↔ Sound hex operation store := by
  cases operation with
  | applyTransaction message =>
    have hview := (getAccountInfo_applyTransaction hex librdf message store).1
    rw [step, hview]
    exact intact_withCreated_iff h.1
  | commit => exact ⟨fun _ => trivial, fun _ => h.1⟩
  | rollback => exact ⟨fun _ => trivial, fun _ => h.2⟩

theorem inv_step (operation : Operation) (store : AccountStore Graph) (h : Inv store)
    (hsound : Sound hex operation store) : Inv (step hex librdf operation store) := by
  refine ⟨(intact_step_iff hex librdf operation store h).mpr hsound, ?_⟩
  cases operation with
  | applyTransaction message =>
    have hcommitted := (getAccountInfo_applyTransaction hex librdf message store).2
    rw [step, hcommitted]
    exact h.2
  | commit => exact h.1
  | rollback => exact h.2

/-- From a first start, the mapping is intact after every step of a run exactly
when every step is sound; the committed mapping is then intact as well. -/
theorem intact_along_iff (operations : List Operation) :
    (Along (step hex librdf)
        (fun operation store => Intact (step hex librdf operation store).getAccountInfo)
        .empty operations ↔
      Along (step hex librdf) (Sound hex) .empty operations) ∧
    (Along (step hex librdf) (Sound hex) .empty operations →
      Intact (run (step hex librdf) .empty operations).accounts.committed) := by
  refine ⟨?_, ?_⟩
  · exact along_iff_of_invariant (step hex librdf)
      (fun operation store hinv _ hsound => inv_step hex librdf operation store hinv hsound)
      (fun operation store hinv _ => intact_step_iff hex librdf operation store hinv) inv_empty
      (along_true (step hex librdf) .empty operations)
  · intro hsound
    exact (invariant_run (step hex librdf) (inv_step hex librdf) inv_empty hsound).2

end Runs

def masterMessage (ids : List Bytes) : TransactionMessage where
  sourceAccount := [0xab]
  targetAccount := [0xab]
  feeAccount := []
  transactionHash := [0x01]
  signature := []
  signedTransaction := ⟨[0x01], []⟩
  currentStatus := .complete
  changeSet :=
    [⟨⟨[0x01], [0xab], .complete, [.asn1Change (some ⟨.persist, [.rdfSubject created]⟩)]⟩, [], []⟩]
where
  created : RDFSubject := {
    subject := accountOntologyClass ++ text "/AB"
    rdfPredicates := [
      ⟨statusPredicate, [RDFObjectHelper.ofLiteral (text "create") []]⟩,
      ⟨idPredicate, ids.map fun id => RDFObjectHelper.ofLiteral id []⟩,
      ⟨typePredicate, [RDFObjectHelper.ofLiteral (text "master") []]⟩] }

/-- With one id the creation is sound and the committed mapping intact. -/
theorem master_account_intact : Intact (run (step .botan .statementList) .empty
    [.applyTransaction (masterMessage [text "AB"]), .commit]).accounts.committed := by
  refine (intact_along_iff .botan .statementList _).2 ⟨?_, trivial, trivial⟩
  intro _ subject hlast
  have hread : (messageSubjects (masterMessage [text "AB"])).getLast? =
      some (masterMessage.created [text "AB"]) := by decide +kernel
  obtain rfl := Option.some.inj (hread.symm.trans hlast)
  refine ⟨by decide, fun _ => Or.inl ?_⟩
  decide

/-- The second id is the account's and passes the check, the first one is stored. -/
theorem first_id_stored :
    returns (applyTransaction .botan .statementList (masterMessage [text "CD", text "AB"]))
      .empty = true ∧
    ¬ Intact (run (step .botan .statementList) .empty
      [.applyTransaction (masterMessage [text "CD", text "AB"]), .commit]).accounts.committed := by
  have hrun : returns (applyTransaction .botan .statementList
        (masterMessage [text "CD", text "AB"])) .empty = true ∧
      (run (step .botan .statementList) .empty
        [.applyTransaction (masterMessage [text "CD", text "AB"]), .commit]).accounts.committed
          [0xab] = some ⟨1, [0xcd], [], text "master", baseGraph⟩ := by decide +kernel
  obtain ⟨hreturns, hstored⟩ := hrun
  refine ⟨hreturns, ?_⟩
  intro hintact
  exact absurd (hintact.accountHash [0xab] _ hstored) (by decide)

end Keto.AccountDb.AccountsMapping
