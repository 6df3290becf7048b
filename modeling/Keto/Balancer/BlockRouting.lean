import Keto.Library.Fallible
import Keto.Library.OrderedMap
import Keto.Library.Runs
import Keto.Router.RouterService

/-!
The block accounts that the balancer hands messages on to. An account that is asked
for gets one of the block accounts at random and keeps it: what is remembered stays
when the block accounts are replaced.
-/
namespace Keto.Balancer

open Protocol Library Library.Runs Router
open scoped Library.ByteOrder

structure BlockRouting where
  accounts : List Hash
  targetAccountMapping : OrderedMap Bytes Hash
  deriving DecidableEq

/-- `std::minstd_rand`, the first number of a generator with the seed. -/
def minstdRand (seed : UInt32) : ℕ :=
  let state := if seed.toNat % 2147483647 = 0 then 1 else seed.toNat % 2147483647
  state * 48271 % 2147483647

inductive Failure
  | divisionByZero
  deriving DecidableEq, Repr

namespace BlockRouting

def new (defaultBlock : Option Bytes) (accountHash : Hash) : BlockRouting where
  accounts := if defaultBlock = some (text "true") then [accountHash] else []
  targetAccountMapping := .empty

def setBlockAccounts (accounts : List Hash) (routing : BlockRouting) : BlockRouting :=
  { routing with accounts := accounts }

/-- `accounts[generator() % accounts.size()]`; `clock` counts since the epoch. -/
def drawAccount (clock : ℕ) (accounts : List Hash) : Except Failure Hash :=
  if h : accounts.length = 0 then .error .divisionByZero
  else
    .ok (accounts.get ⟨minstdRand (UInt32.ofNat clock) % accounts.length,
      Nat.mod_lt _ (Nat.pos_of_ne_zero h)⟩)

def getBlockAccount (clock : ℕ) (account : Bytes) (routing : BlockRouting) :
    Except Failure (Hash × BlockRouting) :=
  match routing.targetAccountMapping.lookup account with
  | some blockAccount => .ok (blockAccount, routing)
  | none => do
    let blockAccount ← drawAccount clock routing.accounts
    return (blockAccount, { routing with
      targetAccountMapping := routing.targetAccountMapping.insert account blockAccount })

/-- An account that is remembered gets what is remembered. -/
theorem getBlockAccount_of_lookup {routing : BlockRouting} {account : Bytes}
    {blockAccount : Hash} (h : routing.targetAccountMapping.lookup account = some blockAccount)
    (clock : ℕ) : routing.getBlockAccount clock account = .ok (blockAccount, routing) := by
  rw [getBlockAccount, h]

theorem exists_drawAccount (clock : ℕ) {accounts : List Hash} (h : accounts ≠ []) :
    ∃ blockAccount ∈ accounts, drawAccount clock accounts = .ok blockAccount := by
  have hlength : accounts.length ≠ 0 := fun hzero => h (List.length_eq_zero_iff.mp hzero)
  rw [drawAccount, dif_neg hlength]
  exact ⟨_, List.get_mem accounts _, rfl⟩

/-- Another account gets one of the accounts, if there are any, and it is remembered. -/
theorem getBlockAccount_of_not_lookup {routing : BlockRouting} {account : Bytes}
    (h : routing.targetAccountMapping.lookup account = none) (clock : ℕ) :
    (routing.accounts = [] ∧
        routing.getBlockAccount clock account = .error .divisionByZero) ∨
      ∃ blockAccount ∈ routing.accounts, routing.getBlockAccount clock account =
        .ok (blockAccount, { routing with
          targetAccountMapping := routing.targetAccountMapping.insert account blockAccount }) := by
  rw [getBlockAccount, h]
  by_cases haccounts : routing.accounts = []
  · refine Or.inl ⟨haccounts, ?_⟩
    rw [haccounts]
    rfl
  · obtain ⟨blockAccount, hmem, hdraw⟩ := exists_drawAccount clock haccounts
    refine Or.inr ⟨blockAccount, hmem, ?_⟩
    simp only [hdraw]
    rfl

/-- What an answer leaves behind: the list as it was, the answer remembered, and what
was remembered before. -/
theorem of_getBlockAccount {clock : ℕ} {account : Bytes} {routing next : BlockRouting}
    {blockAccount : Hash}
    (h : routing.getBlockAccount clock account = .ok (blockAccount, next)) :
    next.accounts = routing.accounts ∧
      next.targetAccountMapping.lookup account = some blockAccount ∧
      ∀ other remembered, routing.targetAccountMapping.lookup other = some remembered →
        next.targetAccountMapping.lookup other = some remembered := by
  cases hlookup : routing.targetAccountMapping.lookup account with
  | some remembered =>
    have hanswer := (getBlockAccount_of_lookup hlookup clock).symm.trans h
    obtain ⟨rfl, rfl⟩ := Prod.mk.inj (Except.ok.inj hanswer)
    exact ⟨rfl, hlookup, fun _ _ hother => hother⟩
  | none =>
    rcases getBlockAccount_of_not_lookup hlookup clock with ⟨_, hfails⟩ | ⟨drawn, _, hdraws⟩
    · exact absurd (hfails.symm.trans h) (by simp)
    · obtain ⟨rfl, rfl⟩ := Prod.mk.inj (Except.ok.inj (hdraws.symm.trans h))
      refine ⟨rfl, OrderedMap.lookup_insert_self _ _ _, ?_⟩
      intro other remembered hother
      have hne : other ≠ account := by
        intro heq
        rw [heq, hlookup] at hother
        exact absurd hother (by simp)
      rw [OrderedMap.lookup_insert_ne _ _ hne]
      exact hother

end BlockRouting

def balanceMessage (clock : ℕ) (router : RouterState) (messageWrapper : MessageWrapper)
    (routing : BlockRouting) : Except Failure (Outcome MessageWrapperResponse × BlockRouting) := do
  let (accountHash, routing) ← routing.getBlockAccount clock messageWrapper.accountHash
  let message := { messageWrapper with messageOperation := .block, accountHash := accountHash }
  let event := if accountHash = router.server.accountHash then .blockMessage else .rpcSendMessage
  return ((RouterService.triggerEvent router event message).answer "balanced", routing)

inductive Operation
  | setBlockAccounts (accounts : List Hash)
  | getBlockAccount (clock : ℕ) (account : Bytes)
  deriving DecidableEq, Repr

/-- The routing, with the list that was set last and the answers since then. -/
structure History where
  routing : BlockRouting
  latest : List Hash
  answers : List (Bytes × Hash)
  deriving DecidableEq

def History.start (defaultBlock : Option Bytes) (accountHash : Hash) : History :=
  ⟨.new defaultBlock accountHash, (BlockRouting.new defaultBlock accountHash).accounts, []⟩

/-- One call. There is nothing after a division by zero; the state is left as it was. -/
def step : Operation → History → History
  | .setBlockAccounts accounts, history =>
    ⟨history.routing.setBlockAccounts accounts, accounts, []⟩
  | .getBlockAccount clock account, history =>
    match history.routing.getBlockAccount clock account with
    | .ok (blockAccount, routing) =>
      { history with routing := routing, answers := (account, blockAccount) :: history.answers }
    | .error _ => history

def Assigns : Operation → History → Prop
  | .setBlockAccounts _, _ => True
  | .getBlockAccount clock account, history =>
    ∃ blockAccount routing,
      history.routing.getBlockAccount clock account = .ok (blockAccount, routing) ∧
        blockAccount ∈ history.latest ∧
        ∀ earlier, (account, earlier) ∈ history.answers → earlier = blockAccount

/-- What is remembered of the account is in the latest list; where nothing is, there
are accounts in the list. -/
def Assignable : Operation → History → Prop
  | .setBlockAccounts _, _ => True
  | .getBlockAccount _ account, history =>
    match history.routing.targetAccountMapping.lookup account with
    | some blockAccount => blockAccount ∈ history.latest
    | none => history.latest ≠ []

structure Remembers (history : History) : Prop where
  accounts : history.routing.accounts = history.latest
  answers : ∀ account blockAccount, (account, blockAccount) ∈ history.answers →
    history.routing.targetAccountMapping.lookup account = some blockAccount

theorem remembers_start (defaultBlock : Option Bytes) (accountHash : Hash) :
    Remembers (.start defaultBlock accountHash) :=
  ⟨rfl, fun _ _ h => absurd h List.not_mem_nil⟩

theorem remembers_step (op : Operation) {history : History} (h : Remembers history) :
    Remembers (step op history) := by
  cases op with
  | setBlockAccounts accounts => exact ⟨rfl, fun _ _ hmem => absurd hmem List.not_mem_nil⟩
  | getBlockAccount clock account =>
    rw [step]
    split
    next blockAccount next hanswer =>
      obtain ⟨haccounts, hself, hkept⟩ := BlockRouting.of_getBlockAccount hanswer
      refine ⟨haccounts.trans h.accounts, ?_⟩
      intro other remembered hmem
      rcases List.mem_cons.mp hmem with heq | hbefore
      · obtain ⟨rfl, rfl⟩ := Prod.mk.inj heq
        exact hself
      · exact hkept other remembered (h.answers other remembered hbefore)
    next => exact h

/-- A call answers as it should exactly when what is remembered, or the list where
nothing is, allows it. -/
theorem assigns_iff (op : Operation) {history : History} (h : Remembers history) :
    Assigns op history ↔ Assignable op history := by
  cases op with
  | setBlockAccounts accounts => exact Iff.rfl
  | getBlockAccount clock account =>
    cases hlookup : history.routing.targetAccountMapping.lookup account with
    | some remembered =>
      have hanswer := BlockRouting.getBlockAccount_of_lookup hlookup clock
      simp only [Assigns, Assignable, hlookup]
      constructor
      · intro ⟨blockAccount, next, hget, hmem, _⟩
        obtain ⟨rfl, rfl⟩ := Prod.mk.inj (Except.ok.inj (hanswer.symm.trans hget))
        exact hmem
      · intro hmem
        refine ⟨remembered, history.routing, hanswer, hmem, ?_⟩
        intro earlier hearlier
        have hsame := (h.answers account earlier hearlier).symm.trans hlookup
        exact Option.some.inj hsame
    | none =>
      simp only [Assigns, Assignable, hlookup]
      rcases BlockRouting.getBlockAccount_of_not_lookup hlookup clock with
        ⟨hempty, hfails⟩ | ⟨drawn, hdrawn, hdraws⟩
      · rw [h.accounts] at hempty
        refine iff_of_false ?_ fun hne => hne hempty
        intro ⟨_, _, hget, _⟩
        exact absurd (hfails.symm.trans hget) (by simp)
      · rw [h.accounts] at hdrawn
        refine iff_of_true ⟨drawn, _, hdraws, hdrawn, ?_⟩ (List.ne_nil_of_mem hdrawn)
        intro earlier hearlier
        exact absurd ((h.answers account earlier hearlier).symm.trans hlookup) (by simp)

/-- A message is handed on to the block account that its account is assigned, by the
event of this node exactly when that is its own. -/
theorem balanceMessage_assigned {clock : ℕ} {router : RouterState}
    {messageWrapper : MessageWrapper} {history : History} (h : Remembers history)
    (hcond : Assignable (.getBlockAccount clock messageWrapper.accountHash) history) :
    ∃ outcome routing,
      balanceMessage clock router messageWrapper history.routing = .ok (outcome, routing) ∧
        ∀ dispatch ∈ outcome.dispatched, dispatch.message.accountHash ∈ history.latest ∧
          dispatch.message.messageOperation = .block ∧
          (dispatch.event = .blockMessage ↔
            dispatch.message.accountHash = router.server.accountHash) := by
  obtain ⟨blockAccount, routing, hanswer, hmem, _⟩ := (assigns_iff _ h).mpr hcond
  rw [balanceMessage, Library.Fallible.bind_ok hanswer]
  refine ⟨_, routing, rfl, ?_⟩
  intro dispatch hdispatch
  obtain rfl := List.mem_singleton.mp hdispatch
  refine ⟨hmem, rfl, ?_⟩
  by_cases hown : blockAccount = router.server.accountHash
  · simp [RouterService.dispatch, hown]
  · simp [RouterService.dispatch, hown]

/-- In every sequence of calls each one assigns as it should exactly when each finds the
account with a block account of the latest list, or new to a list that is not empty. -/
theorem assigns_exact (defaultBlock : Option Bytes) (accountHash : Hash)
    (ops : List Operation) :
    Along step Assigns (.start defaultBlock accountHash) ops ↔
      Along step Assignable (.start defaultBlock accountHash) ops := by
  refine @along_iff_of_invariant _ _ step Remembers (fun _ _ => True) Assignable Assigns
    ?_ ?_ _ (remembers_start defaultBlock accountHash) _ (along_true step _ ops)
  · intro op history hinv _ _
    exact remembers_step op hinv
  · intro op history hinv _
    exact assigns_iff op hinv

/-- What is remembered of an account is its answer for ever, whatever lists are set. -/
theorem lookup_run {account : Bytes} {blockAccount : Hash} {history : History}
    (h : history.routing.targetAccountMapping.lookup account = some blockAccount)
    (ops : List Operation) :
    (run step history ops).routing.targetAccountMapping.lookup account = some blockAccount := by
  refine @run_keeps _ _ step
    (fun history => history.routing.targetAccountMapping.lookup account = some blockAccount)
    ?_ _ h ops
  intro op history h
  cases op with
  | setBlockAccounts accounts => exact h
  | getBlockAccount clock other =>
    rw [step]
    split
    next next hanswer => exact (BlockRouting.of_getBlockAccount hanswer).2.2 account _ h
    next => exact h

/-- A node without a default block account divides by zero at its first message, and an
account of a list keeps it when the list is replaced. -/
theorem first_message_divides :
    BlockRouting.getBlockAccount 0 [1] (.new none [7]) = .error .divisionByZero ∧
      (step (.getBlockAccount 0 [1]) (run step (.start none [7])
        [.setBlockAccounts [[2]], .getBlockAccount 0 [1], .setBlockAccounts [[3]]])).answers =
          [([1], [2])] ∧
      ¬ Along step Assigns (.start none [7]) [.getBlockAccount 0 [1]] ∧
      ¬ Along step Assigns (.start none [7]) [.setBlockAccounts [[2]], .getBlockAccount 0 [1],
        .setBlockAccounts [[3]], .getBlockAccount 0 [1]] := by
  have hdivides : BlockRouting.getBlockAccount 0 [1] (.new none [7]) =
      .error .divisionByZero := rfl
  have hkept : BlockRouting.getBlockAccount 0 [1] (run step (.start none [7])
      [.setBlockAccounts [[2]], .getBlockAccount 0 [1], .setBlockAccounts [[3]]]).routing =
        .ok ([2], (run step (.start none [7])
          [.setBlockAccounts [[2]], .getBlockAccount 0 [1], .setBlockAccounts [[3]]]).routing) :=
    rfl
  refine ⟨hdivides, rfl, ?_, ?_⟩
  · intro ⟨⟨_, _, hanswer, _⟩, _⟩
    exact absurd (hdivides.symm.trans hanswer) (by simp)
  · intro ⟨_, _, _, ⟨_, _, hanswer, hmem, _⟩, _⟩
    obtain ⟨rfl, rfl⟩ := Prod.mk.inj (Except.ok.inj (hkept.symm.trans hanswer))
    exact absurd hmem (by decide)

end Keto.Balancer
