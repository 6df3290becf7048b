import Keto.AccountDb.AccountsMapping
import Keto.Library.Descendants
import Keto.RouterUtils.RoutingHelpers

/-!
The account tree that a node registers with its peers. It is built from the
entries of the accounts mapping by walking down from the node's account to the
entries that name it as their parent. The walk marks nothing as visited: that it
ends, and meets every account once, rests on the links of the mapping.
-/
namespace Keto.AccountDb.NodeAccountRouting

open Protocol Library Library.Stateful Library.Ancestry Library.Runs
open AccountStore AccountsMapping AccountRDFStatementBuilder AccountSystemOntologyTypes
open RouterUtils (PushAccount PushAccountHelper RpcPeerHelper)

def childPushAccountHelper (accountHash : Hash) (accountInfo : AccountInfo) : PushAccountHelper :=
  (PushAccountHelper.new.setAccountHash accountInfo.accountHash).setManagementAccountHash
    accountHash

/-- `fuel` bounds the depth of the recursion; `none` when it does not suffice. -/
def buildNodeAccountRouting : ℕ → Hash → List AccountInfo → PushAccountHelper →
    Option PushAccountHelper
  | 0, _, _, _ => none
  | fuel + 1, accountHash, accountInfoVector, pushAccountHelper =>
    accountInfoVector.foldlM
      (fun pushAccountHelper accountInfo =>
        if accountHash = accountInfo.parentAccountHash then do
          let child ← buildNodeAccountRouting fuel accountInfo.accountHash accountInfoVector
            (childPushAccountHelper accountHash accountInfo)
          return pushAccountHelper.addChildAccount child
        else return pushAccountHelper)
      pushAccountHelper

def getNodeAccountRouting (fuel : ℕ) (accountInfoVector : List AccountInfo) (accountHash : Hash)
    (rpcPeerHelper : RpcPeerHelper) : Option RpcPeerHelper := do
  let pushAccountHelper ← buildNodeAccountRouting fuel accountHash accountInfoVector
    (PushAccountHelper.new.setAccountHash accountHash)
  return (rpcPeerHelper.setAccountHash accountHash).setPushAccount pushAccountHelper

/-- The values that an iterator over the mapping comes by, one for each key. -/
def Iterates (accounts : Mapping) (accountInfoVector : List AccountInfo) : Prop :=
  ∃ entries : List (Hash × AccountInfo), accountInfoVector = entries.map Prod.snd ∧
    (entries.map Prod.fst).Nodup ∧
    ∀ accountHash accountInfo,
      (accountHash, accountInfo) ∈ entries ↔ accounts accountHash = some accountInfo

theorem iterates_empty : Iterates (fun _ => none) [] :=
  ⟨[], rfl, List.nodup_nil, fun _ _ => by simp⟩

def links (children : List PushAccount) : List (Hash × Hash) :=
  (children.flatMap PushAccount.nodes).map fun node =>
    (node.accountHash, node.managementAccountHash)

theorem links_eq_childLinks {a : Hash} {children : List PushAccount}
    (h : ∀ child ∈ children, child.managementAccountHash = a) :
    links children = childLinks a children PushAccount.accountHash
      fun child => links child.childAccounts := by
  rw [links, childLinks, List.map_flatMap]
  refine List.flatMap_congr ?_
  intro child hchild
  rw [PushAccount.nodes_eq_cons, List.map_cons, h child hchild]
  rfl

section Walk

variable {accounts : Mapping} {accountInfoVector : List AccountInfo}

/-- The loop adds a node for every entry that names the account, in order. -/
theorem foldlM_children {fuel : ℕ} {a : Hash} {p : PushAccount → Prop}
    {entries : List AccountInfo}
    (h : ∀ accountInfo ∈ entries, a = accountInfo.parentAccountHash → ∃ child : PushAccount,
      buildNodeAccountRouting fuel accountInfo.accountHash accountInfoVector
        (childPushAccountHelper a accountInfo) = some ⟨child⟩ ∧
      child.accountHash = accountInfo.accountHash ∧ p child)
    (pushAccountHelper : PushAccountHelper) :
    ∃ children : List PushAccount,
      entries.foldlM
        (fun pushAccountHelper accountInfo =>
          if a = accountInfo.parentAccountHash then do
            let child ← buildNodeAccountRouting fuel accountInfo.accountHash accountInfoVector
              (childPushAccountHelper a accountInfo)
            return pushAccountHelper.addChildAccount child
          else return pushAccountHelper) pushAccountHelper =
        some ⟨{ pushAccountHelper.pushAccount with
          childAccounts := pushAccountHelper.pushAccount.childAccounts ++ children }⟩ ∧
      children.map PushAccount.accountHash =
        (entries.filter fun accountInfo => a = accountInfo.parentAccountHash).map
          AccountInfo.accountHash ∧
      ∀ child ∈ children, p child := by
  induction entries generalizing pushAccountHelper with
  | nil =>
    refine ⟨[], ?_, rfl, fun child hchild => absurd hchild List.not_mem_nil⟩
    obtain ⟨pushAccount⟩ := pushAccountHelper
    cases pushAccount
    simp
  | cons accountInfo entries ih =>
    rw [List.forall_mem_cons] at h
    by_cases hnames : a = accountInfo.parentAccountHash
    · obtain ⟨child, hbuild, hhash, hchild⟩ := h.1 hnames
      obtain ⟨children, hrest, hhashes, hchildren⟩ :=
        ih h.2 (pushAccountHelper.addChildAccount ⟨child⟩)
      refine ⟨child :: children, ?_, ?_, ?_⟩
      · rw [List.foldlM_cons, if_pos hnames, hbuild]
        refine Eq.trans hrest ?_
        simp [PushAccountHelper.addChildAccount]
      · rw [List.map_cons, List.filter_cons_of_pos (by simpa using hnames), List.map_cons, hhash,
          hhashes]
      · rw [List.forall_mem_cons]
        exact ⟨hchild, hchildren⟩
    · obtain ⟨children, hrest, hhashes, hchildren⟩ := ih h.2 pushAccountHelper
      refine ⟨children, ?_, ?_, hchildren⟩
      · rw [List.foldlM_cons, if_neg hnames]
        exact hrest
      · rw [List.filter_cons_of_neg (by simpa using hnames), hhashes]

/-- What the walk relies on: no entry under the empty hash, each with its own hash
in it where it is below another one, and no cycle. -/
structure Routable (accounts : Mapping) : Prop where
  nonempty : ∀ hash, accounts hash ≠ none → hash ≠ []
  accountHash : ∀ hash accountInfo, accounts hash = some accountInfo →
    accountInfo.parentAccountHash = [] ∨ accountInfo.accountHash = hash
  rooted : ∀ hash, Rooted (parent accounts) hash

theorem parent_eq_some_iff {hash a : Hash} :
    parent accounts hash = some a ↔
      a ≠ [] ∧ ∃ accountInfo, accounts hash = some accountInfo ∧
        accountInfo.parentAccountHash = a := by
  rw [parent, Option.bind_eq_some_iff]
  constructor
  · intro hparent
    obtain ⟨accountInfo, hinfo, hlink⟩ := hparent
    by_cases hnone : accountInfo.parentAccountHash = []
    · rw [if_pos hnone] at hlink
      exact absurd hlink (by simp)
    · rw [if_neg hnone] at hlink
      obtain rfl := Option.some.inj hlink
      exact ⟨hnone, accountInfo, hinfo, rfl⟩
  · intro hentry
    obtain ⟨hnone, accountInfo, hinfo, rfl⟩ := hentry
    exact ⟨accountInfo, hinfo, if_neg hnone⟩

/-- The entries that name an account are those of its children, one for each. -/
theorem named_children (h : Routable accounts) (hiterates : Iterates accounts accountInfoVector)
    {a : Hash} (ha : a ≠ []) :
    ((accountInfoVector.filter fun accountInfo => a = accountInfo.parentAccountHash).map
      AccountInfo.accountHash).Nodup ∧
    ∀ b, b ∈ (accountInfoVector.filter fun accountInfo =>
        a = accountInfo.parentAccountHash).map AccountInfo.accountHash ↔
      parent accounts b = some a := by
  obtain ⟨entries, rfl, hkeys, hentries⟩ := hiterates
  have hhashes : ((entries.map Prod.snd).filter fun accountInfo =>
      a = accountInfo.parentAccountHash).map AccountInfo.accountHash =
        (entries.filter fun entry => a = entry.2.parentAccountHash).map Prod.fst := by
    rw [List.filter_map, List.map_map]
    refine List.map_congr_left ?_
    intro entry hentry
    obtain ⟨hmem, hnames⟩ := List.mem_filter.mp hentry
    rcases h.accountHash entry.1 entry.2 ((hentries _ _).mp hmem) with hnone | hown
    · exact absurd ((of_decide_eq_true hnames).trans hnone) ha
    · exact hown
  rw [hhashes]
  refine ⟨hkeys.sublist (List.filter_sublist.map Prod.fst), ?_⟩
  intro b
  rw [List.mem_map, parent_eq_some_iff]
  constructor
  · intro hnamed
    obtain ⟨⟨hash, accountInfo⟩, hentry, rfl⟩ := hnamed
    obtain ⟨hmem, hnames⟩ := List.mem_filter.mp hentry
    exact ⟨ha, accountInfo, (hentries _ _).mp hmem, (of_decide_eq_true hnames).symm⟩
  · intro hparent
    obtain ⟨_, accountInfo, hinfo, hnames⟩ := hparent
    refine ⟨(b, accountInfo), ?_, rfl⟩
    exact List.mem_filter.mpr ⟨(hentries _ _).mpr hinfo, decide_eq_true hnames.symm⟩

/-- With fuel for every chain that comes to the account, the walk ends, and its
nodes are what lies below the account. -/
theorem buildNodeAccountRouting_linksBelow (h : Routable accounts)
    (hiterates : Iterates accounts accountInfoVector) {fuel : ℕ} {a : Hash} (ha : a ≠ [])
    (hfuel : ∀ n b, ancestor (parent accounts) n b = some a → n < fuel)
    (pushAccountHelper : PushAccountHelper) :
    ∃ children, buildNodeAccountRouting fuel a accountInfoVector pushAccountHelper =
        some ⟨{ pushAccountHelper.pushAccount with
          childAccounts := pushAccountHelper.pushAccount.childAccounts ++ children }⟩ ∧
      LinksBelow (parent accounts) a (links children) := by
  induction fuel generalizing a pushAccountHelper with
  | zero => exact absurd (hfuel 0 a rfl) (Nat.not_lt_zero 0)
  | succ fuel ih =>
    obtain ⟨hnodup, hnamed⟩ := named_children h hiterates ha
    have hchild : ∀ accountInfo ∈ accountInfoVector, a = accountInfo.parentAccountHash →
        ∃ child : PushAccount,
          buildNodeAccountRouting fuel accountInfo.accountHash accountInfoVector
            (childPushAccountHelper a accountInfo) = some ⟨child⟩ ∧
          child.accountHash = accountInfo.accountHash ∧
          child.managementAccountHash = a ∧
          LinksBelow (parent accounts) child.accountHash (links child.childAccounts) := by
      intro accountInfo hmem hnames
      have hlink : parent accounts accountInfo.accountHash = some a :=
        (hnamed _).mp (List.mem_map_of_mem
          (List.mem_filter.mpr ⟨hmem, decide_eq_true hnames⟩))
      obtain ⟨_, childInfo, hknown, _⟩ := parent_eq_some_iff.mp hlink
      have hne : accountInfo.accountHash ≠ [] := h.nonempty _ (by rw [hknown]; simp)
      obtain ⟨below, hbuild, hlinks⟩ := ih hne
        (fun n b hn => Nat.lt_of_succ_lt_succ (hfuel (n + 1) b (ancestor_succ_of_last hn hlink)))
        (childPushAccountHelper a accountInfo)
      exact ⟨_, hbuild, rfl, rfl, hlinks⟩
    obtain ⟨children, hloop, hhashes, hchildren⟩ := foldlM_children hchild pushAccountHelper
    refine ⟨children, hloop, ?_⟩
    rw [← hhashes] at hnodup
    have hmembers : ∀ b, b ∈ children.map PushAccount.accountHash ↔
        parent accounts b = some a := by
      intro b
      rw [hhashes]
      exact hnamed b
    rw [links_eq_childLinks fun child hmem => (hchildren child hmem).1]
    exact linksBelow_childLinks h.rooted hnodup hmembers
      fun child hmem => (hchildren child hmem).2

/-- One depth suffices for the walks of all accounts. -/
theorem exists_fuel (h : Routable accounts) (hiterates : Iterates accounts accountInfoVector) :
    ∃ fuel, ∀ a n b, ancestor (parent accounts) n b = some a → n < fuel := by
  obtain ⟨entries, _, _, hentries⟩ := hiterates
  have hrooted : ∀ hash ∈ entries.map Prod.fst, Rooted (parent accounts) hash :=
    fun hash _ => h.rooted hash
  obtain ⟨length, hlength⟩ := exists_length_of_forall hrooted
  refine ⟨length + 1, ?_⟩
  intro a n b hn
  cases n with
  | zero => exact Nat.succ_pos length
  | succ n =>
    obtain ⟨c, hc, _⟩ := Option.bind_eq_some_iff.mp hn
    obtain ⟨_, accountInfo, hknown, _⟩ := parent_eq_some_iff.mp hc
    have hkey : b ∈ entries.map Prod.fst := List.mem_map_of_mem ((hentries b _).mpr hknown)
    exact Nat.lt_succ_of_le (hlength b hkey (n + 1) a hn)

/-- A walk that ends with some fuel ends so with more. -/
theorem buildNodeAccountRouting_mono {fuel more : ℕ} {a : Hash}
    {pushAccountHelper result : PushAccountHelper} (hle : fuel ≤ more)
    (h : buildNodeAccountRouting fuel a accountInfoVector pushAccountHelper = some result) :
    buildNodeAccountRouting more a accountInfoVector pushAccountHelper = some result := by
  induction fuel generalizing more a pushAccountHelper result with
  | zero => exact absurd h (by simp [buildNodeAccountRouting])
  | succ fuel ih =>
    obtain ⟨more, rfl⟩ : ∃ n, more = n + 1 := Nat.exists_eq_succ_of_ne_zero (by omega)
    rw [buildNodeAccountRouting] at h ⊢
    refine Fallible.foldlM_eq_some_of_imp ?_ h
    intro helper accountInfo helper' hstep
    by_cases hnames : a = accountInfo.parentAccountHash
    · rw [if_pos hnames] at hstep ⊢
      obtain ⟨child, hchild, hadd⟩ := Option.bind_eq_some_iff.mp hstep
      rw [ih (Nat.le_of_succ_le_succ hle) hchild]
      exact hadd
    · rw [if_neg hnames] at hstep ⊢
      exact hstep

/-- Below an account whose own entry names it as its parent the walk never ends. -/
theorem buildNodeAccountRouting_own_parent {accountInfo : AccountInfo}
    (hmem : accountInfo ∈ accountInfoVector)
    (hself : accountInfo.accountHash = accountInfo.parentAccountHash) (fuel : ℕ)
    (pushAccountHelper : PushAccountHelper) :
    buildNodeAccountRouting fuel accountInfo.accountHash accountInfoVector pushAccountHelper =
      none := by
  induction fuel generalizing pushAccountHelper with
  | zero => rfl
  | succ fuel ih =>
    rw [buildNodeAccountRouting]
    refine Fallible.foldlM_eq_none_of_mem ?_ hmem pushAccountHelper
    intro helper
    rw [if_pos hself, ih]
    rfl

end Walk

/-- The tree of an account: below its root are the proper descendants of the
account, each once and with its parent as its management account. -/
structure RoutesBelow (accounts : Mapping) (a : Hash) (pushAccount : PushAccount) : Prop where
  accountHash : pushAccount.accountHash = a
  nodup : ((pushAccount.childAccounts.flatMap PushAccount.nodes).map
    PushAccount.accountHash).Nodup
  descendants : ∀ b, b ∈ (pushAccount.childAccounts.flatMap PushAccount.nodes).map
    PushAccount.accountHash ↔ Below (parent accounts) a b
  managementAccountHash : ∀ node ∈ pushAccount.childAccounts.flatMap PushAccount.nodes,
    parent accounts node.accountHash = some node.managementAccountHash

theorem routesBelow_of_linksBelow {accounts : Mapping} {a : Hash} {pushAccount : PushAccount}
    (haccount : pushAccount.accountHash = a)
    (h : LinksBelow (parent accounts) a (links pushAccount.childAccounts)) :
    RoutesBelow accounts a pushAccount := by
  have hhashes : (links pushAccount.childAccounts).map Prod.fst =
      (pushAccount.childAccounts.flatMap PushAccount.nodes).map PushAccount.accountHash := by
    rw [links, List.map_map]
    rfl
  refine ⟨haccount, hhashes ▸ h.nodup, hhashes ▸ h.below, ?_⟩
  intro node hnode
  exact h.link _ (List.mem_map_of_mem
    (f := fun node => (node.accountHash, node.managementAccountHash)) hnode)

def RoutesAll (accounts : Mapping) : Prop :=
  ∀ accountInfoVector, Iterates accounts accountInfoVector → ∀ a, accounts a ≠ none →
    ∃ pushAccountHelper, RoutesBelow accounts a pushAccountHelper.pushAccount ∧
      ∃ depth, ∀ fuel, depth ≤ fuel →
        buildNodeAccountRouting fuel a accountInfoVector
          (PushAccountHelper.new.setAccountHash a) = some pushAccountHelper

theorem Routable.routesAll {accounts : Mapping} (h : Routable accounts) : RoutesAll accounts := by
  intro accountInfoVector hiterates a ha
  obtain ⟨depth, hdepth⟩ := exists_fuel h hiterates
  obtain ⟨children, hbuild, hlinks⟩ := buildNodeAccountRouting_linksBelow h hiterates
    (h.nonempty a ha) (hdepth a) (PushAccountHelper.new.setAccountHash a)
  refine ⟨_, routesBelow_of_linksBelow ?_ ?_, depth, fun fuel hle =>
    buildNodeAccountRouting_mono hle hbuild⟩
  · rfl
  · exact hlinks

section NewEntry

variable {accounts : Mapping} {hash : Hash} {accountInfo : AccountInfo}

theorem Iterates.update {accountInfoVector : List AccountInfo}
    (h : Iterates accounts accountInfoVector) (hunknown : accounts hash = none) :
    Iterates (Function.update accounts hash (some accountInfo))
      (accountInfo :: accountInfoVector) := by
  obtain ⟨entries, rfl, hkeys, hentries⟩ := h
  have hnew : hash ∉ entries.map Prod.fst := by
    intro hmem
    obtain ⟨⟨key, found⟩, hentry, rfl⟩ := List.mem_map.mp hmem
    rw [(hentries key found).mp hentry] at hunknown
    exact absurd hunknown (by simp)
  refine ⟨(hash, accountInfo) :: entries, rfl, List.nodup_cons.mpr ⟨hnew, hkeys⟩, ?_⟩
  intro key found
  rw [List.mem_cons, hentries]
  by_cases hkey : key = hash
  · subst hkey
    rw [Function.update_self, hunknown, Option.some.injEq]
    simp [eq_comm]
  · rw [Function.update_of_ne hkey]
    simp [hkey]

theorem routable_empty : Routable fun _ => none := by
  refine ⟨?_, ?_, ?_⟩
  · intro hash h
    exact absurd rfl h
  · intro hash accountInfo h
    exact absurd h (by simp)
  · intro hash
    exact rooted_of_none _ rfl

/-- A new entry keeps the mapping routable, when it is a root or filed under its
own hash below an account that is not below it. -/
theorem Routable.update (h : Routable accounts) (hunknown : accounts hash = none)
    (hnonempty : hash ≠ [])
    (hplace : accountInfo.parentAccountHash = [] ∨ accountInfo.accountHash = hash ∧
      ∀ n, ancestor (parent accounts) n accountInfo.parentAccountHash ≠ some hash) :
    Routable (Function.update accounts hash (some accountInfo)) := by
  refine ⟨?_, ?_, ?_⟩
  · intro other hother
    by_cases hsame : other = hash
    · rw [hsame]
      exact hnonempty
    · rw [Function.update_of_ne hsame] at hother
      exact h.nonempty other hother
  · intro other otherInfo hother
    by_cases hsame : other = hash
    · subst hsame
      rw [Function.update_self] at hother
      obtain rfl := Option.some.inj hother
      exact hplace.imp id And.left
    · rw [Function.update_of_ne hsame] at hother
      exact h.accountHash other otherInfo hother
  · refine rooted_of_new_link (k := hash) (fun other hne => parent_update_of_ne hne) ?_ h.rooted
    intro parentHash hlink
    obtain ⟨hnamed, rfl⟩ := parent_update_self_eq_some hlink
    exact (hplace.resolve_left hnamed).2

end NewEntry

section Messages

variable {hex : HexCodec} {message : TransactionMessage} {accounts : Mapping}

/-- The condition on a creation: the account has a hash, and it is a root, or the
first object of its id says that hash and its parent does not lie below it. -/
def KeepsForest (hex : HexCodec) (message : TransactionMessage) (accounts : Mapping) : Prop :=
  StoresAccount hex message accounts → phaseAccount message ≠ [] ∧
    (namedParent hex (messageSubjects message) = [] ∨
      (∀ subject, (messageSubjects message).getLast? = some subject →
        hex.hexDecode (literal subject idPredicate) = some (phaseAccount message)) ∧
      ∀ n, ancestor (parent accounts) n (namedParent hex (messageSubjects message)) ≠
        some (phaseAccount message))

theorem exists_iterates_withCreated (h : ∃ accountInfoVector, Iterates accounts accountInfoVector) :
    ∃ accountInfoVector, Iterates (withCreated hex message accounts) accountInfoVector := by
  obtain ⟨accountInfoVector, hiterates⟩ := h
  unfold withCreated
  rcases createdAccount_cases hex message accounts with
    ⟨_, accountInfo, hcreated, hstores, _⟩ | ⟨hnone, _⟩
  · rw [hcreated]
    exact ⟨_, hiterates.update hstores.1⟩
  · rw [hnone]
    exact ⟨_, hiterates⟩

theorem Routable.withCreated (h : Routable accounts) (hkeeps : KeepsForest hex message accounts) :
    Routable (withCreated hex message accounts) := by
  unfold AccountsMapping.withCreated
  rcases createdAccount_cases hex message accounts with
    ⟨subject, accountInfo, hcreated, hstores, hdescribed⟩ | ⟨hnone, _⟩
  · rw [hcreated]
    obtain ⟨hnonempty, hplace⟩ := hkeeps hstores
    rw [← hdescribed.parentAccountHash] at hplace
    refine h.update hstores.1 hnonempty (hplace.imp id ?_)
    intro hbelow
    obtain ⟨hid, havoids⟩ := hbelow
    have hown := hdescribed.accountHash.symm.trans (hid subject hdescribed.last)
    exact ⟨Option.some.inj hown, havoids⟩
  · rw [hnone]
    exact h

end Messages

section Runs

variable {Graph : Type} (hex : HexCodec) (librdf : Librdf Graph)

def Keeps : Operation → AccountStore Graph → Prop
  | .applyTransaction message, store => KeepsForest hex message store.getAccountInfo
  | .commit, _ => True
  | .rollback, _ => True

def Both (p : Mapping → Prop) (store : AccountStore Graph) : Prop :=
  p store.getAccountInfo ∧ p store.accounts.committed

/-- A property that every creation keeps is kept by every step. -/
theorem both_step {p : Mapping → Prop} (operation : Operation) {store : AccountStore Graph}
    (h : Both p store) (hcreates : ∀ message, operation = .applyTransaction message →
      p (withCreated hex message store.getAccountInfo)) :
    Both p (step hex librdf operation store) := by
  cases operation with
  | applyTransaction message =>
    obtain ⟨hview, hcommitted⟩ := getAccountInfo_applyTransaction hex librdf message store
    refine ⟨?_, ?_⟩
    · rw [step, hview]
      exact hcreates message rfl
    · rw [step, hcommitted]
      exact h.2
  | commit => exact ⟨h.1, h.1⟩
  | rollback => exact ⟨h.2, h.2⟩

/-- In every run the entries can be iterated over. -/
theorem exists_iterates_run (operations : List Operation) :
    ∃ accountInfoVector,
      Iterates (run (step hex librdf) .empty operations).getAccountInfo accountInfoVector := by
  have hempty : Both (fun accounts => ∃ accountInfoVector, Iterates accounts accountInfoVector)
      (.empty : AccountStore Graph) :=
    ⟨⟨[], iterates_empty⟩, ⟨[], iterates_empty⟩⟩
  have hboth := run_keeps (step hex librdf)
    (fun operation store h => both_step hex librdf operation h
      fun _ _ => exists_iterates_withCreated h.1) hempty operations
  exact hboth.1

theorem routable_step (operation : Operation) (store : AccountStore Graph)
    (h : Both Routable store) (hkeeps : Keeps hex operation store) :
    Both Routable (step hex librdf operation store) := by
  refine both_step hex librdf operation h ?_
  intro message hmessage
  subst hmessage
  exact h.1.withCreated hkeeps

theorem both_routable_empty : Both Routable (.empty : AccountStore Graph) :=
  ⟨routable_empty, routable_empty⟩

/-- The mapping stays routable over a run whose creations keep the forest. -/
theorem routable_run {operations : List Operation}
    (hkeeps : Along (step hex librdf) (Keeps hex) .empty operations) :
    Routable (run (step hex librdf) .empty operations).getAccountInfo :=
  (invariant_run (step hex librdf) (routable_step hex librdf) both_routable_empty hkeeps).1

/-- From a first start, and while every creation keeps the forest, the tree of
every account is built after every step, and has what lies below the account. -/
theorem routes_along (operations : List Operation)
    (hkeeps : Along (step hex librdf) (Keeps hex) .empty operations) :
    (∃ accountInfoVector,
      Iterates (run (step hex librdf) .empty operations).getAccountInfo accountInfoVector) ∧
    RoutesAll (run (step hex librdf) .empty operations).getAccountInfo ∧
    Along (step hex librdf)
      (fun operation store => RoutesAll (step hex librdf operation store).getAccountInfo)
      .empty operations := by
  refine ⟨exists_iterates_run hex librdf operations, (routable_run hex librdf hkeeps).routesAll, ?_⟩
  refine along_of_invariant (step hex librdf) (routable_step hex librdf) ?_ both_routable_empty
    hkeeps
  intro operation store h hkeep
  exact (routable_step hex librdf operation store h hkeep).1.routesAll

end Runs

def creation (accountHash : Hash) (name : Bytes) (literals : List (Bytes × Bytes)) :
    TransactionMessage :=
  { masterMessage [] with
    targetAccount := accountHash
    changeSet := [⟨⟨[0x01], accountHash, .complete, [.asn1Change (some ⟨.persist,
      [.rdfSubject (genesisSubject name ((statusPredicate, text "create") :: literals))]⟩)]⟩,
      [], []⟩] }

def rootCreation : TransactionMessage :=
  creation [0xab] (text "AB") [(idPredicate, text "AB"), (typePredicate, text "master")]

def childCreation : TransactionMessage :=
  creation [0xcd] (text "CD") [(idPredicate, text "CD"), (typePredicate, text "user"),
    (parentPredicate, text "AB")]

def ownParentCreation : TransactionMessage :=
  creation [0xab] (text "AB") [(idPredicate, text "AB"), (typePredicate, text "master"),
    (parentPredicate, text "AB")]

/-- A root and an account below it, committed. -/
theorem routes_along_child :
    let operations := [.applyTransaction rootCreation, .applyTransaction childCreation, .commit]
    Along (step .botan .statementList)
      (fun operation store =>
        RoutesAll (step .botan .statementList operation store).getAccountInfo)
      (.empty : AccountStore (List Statement)) operations := by
  intro operations
  refine (routes_along .botan .statementList operations ⟨?_, ?_, trivial, trivial⟩).2.2
  · intro _
    exact ⟨by decide, Or.inl (by decide +kernel)⟩
  · intro _
    have hreads : namedParent .botan (messageSubjects childCreation) = [0xab] ∧
        ((messageSubjects childCreation).getLast?.map fun subject =>
          HexCodec.botan.hexDecode (literal subject idPredicate)) = some (some [0xcd]) := by
      decide +kernel
    have hroot : parent (step .botan .statementList (.applyTransaction rootCreation)
        (.empty : AccountStore (List Statement))).getAccountInfo [0xab] = none := by
      decide +kernel
    refine ⟨by decide, Or.inr ⟨?_, ?_⟩⟩
    · intro subject hlast
      have hid := hreads.2
      rw [hlast] at hid
      exact Option.some.inj hid
    · rw [hreads.1]
      intro n
      cases n with
      | zero => decide
      | succ n =>
        rw [ancestor_succ_of_none _ n hroot]
        simp

/-- The store takes the master that names itself, and no fuel then suffices for its tree. -/
theorem own_parent_never_routed :
    returns (applyTransaction .botan .statementList ownParentCreation) .empty = true ∧
    ¬ RoutesAll (run (step .botan .statementList) (.empty : AccountStore (List Statement))
      [.applyTransaction ownParentCreation, .commit]).getAccountInfo := by
  have hrun : returns (applyTransaction .botan .statementList ownParentCreation) .empty = true ∧
      (run (step .botan .statementList) (.empty : AccountStore (List Statement))
        [.applyTransaction ownParentCreation, .commit]).getAccountInfo [0xab] =
          some ⟨1, [0xab], [0xab], text "master", text "AB"⟩ := by decide +kernel
  obtain ⟨hreturns, hstored⟩ := hrun
  refine ⟨hreturns, ?_⟩
  intro hroutes
  obtain ⟨accountInfoVector, hiterates⟩ := exists_iterates_run .botan .statementList
    [.applyTransaction ownParentCreation, .commit]
  have hmem : ⟨1, [0xab], [0xab], text "master", text "AB"⟩ ∈ accountInfoVector := by
    obtain ⟨entries, rfl, _, hentries⟩ := hiterates
    exact List.mem_map_of_mem ((hentries [0xab] _).mpr hstored)
  obtain ⟨result, _, depth, hbuild⟩ := hroutes accountInfoVector hiterates [0xab]
    (by rw [hstored]; simp)
  have hnone := buildNodeAccountRouting_own_parent hmem rfl depth
    (PushAccountHelper.new.setAccountHash [0xab])
  exact absurd ((hbuild depth (Nat.le_refl depth)).symm.trans hnone) (by simp)

end Keto.AccountDb.NodeAccountRouting
