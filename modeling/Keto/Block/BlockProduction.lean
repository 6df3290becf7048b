import Keto.Block.BlockService
import Keto.Library.Runs

/-!
The block producer's queue and its thread. Transactions are accepted by any
thread while the producer thread loops: it checks the state, empties the queue
and generates a block of what it took. An exception in the last step leaves
`run` and with it the thread, so the process ends; the transactions that were
taken from the queue are then in no block.
-/
namespace Keto.Block.BlockProduction

open Protocol Library.Runs

inductive ProducerThread
  | checking
  | checked
  | generating (batch : List Transaction)
  | returned
  | crashed
  deriving DecidableEq, Repr

def ProducerThread.held : ProducerThread → List Transaction
  | .generating batch => batch
  | _ => []

/-- The producer and its thread, the committed blocks, each with the transactions
whose messages it holds, and the transactions accepted so far. -/
structure System where
  producer : BlockProducer
  thread : ProducerThread
  blocks : List (List Transaction)
  accepted : List Transaction
  deriving DecidableEq, Repr

def System.start : System := ⟨⟨.inited, []⟩, .checking, [], []⟩

/-- The loop of `generateBlock` from the transaction at `index` on: `applies` tells
whether applying the transaction at an index returns. The account service answers
with the transaction it was given, whose message is then decoded and added. -/
def addTransactionMessages (applies : ℕ → Bool) : ℕ → List Transaction → Option (List Transaction)
  | _, [] => some []
  | index, transaction :: rest =>
    if applies index && transaction.asn1TransactionMessage.isSome then
      (addTransactionMessages applies (index + 1) rest).map fun added => transaction :: added
    else none

def generateBlock (applies : ℕ → Bool) (transactions : List Transaction) :
    Option (List Transaction) :=
  addTransactionMessages applies 0 transactions

inductive Operation
  | addTransaction (transaction : Transaction)
  | terminate
  | checkState
  | getTransactions
  | generateBlock (applies : ℕ → Bool)

def terminate (producer : BlockProducer) : BlockProducer :=
  { producer with currentState := .terminated }

def perform : Operation → System → System
  | .addTransaction transaction, s =>
    match s.producer.addTransaction transaction with
    | .ok producer => { s with producer := producer, accepted := s.accepted ++ [transaction] }
    | .error _ => s
  | .terminate, s => { s with producer := terminate s.producer }
  | .checkState, s =>
    if s.thread = .checking then
      { s with thread := if s.producer.currentState = .terminated then .returned else .checked }
    else s
  | .getTransactions, s =>
    if s.thread = .checked then
      { s with
        producer := { s.producer with transactions := [] }
        thread := .generating s.producer.transactions }
    else s
  | .generateBlock applies, s =>
    match s.thread with
    | .generating batch =>
      match generateBlock applies batch with
      | some block => { s with thread := .checking, blocks := s.blocks ++ [block] }
      | none => { s with thread := .crashed }
    | _ => s

def step (operation : Operation) (s : System) : System :=
  if s.thread = .crashed then s else perform operation s

/-- In acceptance order: the transactions in the blocks, those the thread is
making a block of, and those in the queue. Between iterations the thread has none. -/
def Accounted (s : System) : Prop :=
  s.accepted = s.blocks.flatten ++ s.thread.held ++ s.producer.transactions

instance (s : System) : Decidable (Accounted s) := inferInstanceAs (Decidable (_ = _))

def Generates (operation : Operation) (s : System) : Prop :=
  ∀ applies batch, operation = .generateBlock applies → s.thread = .generating batch →
    ∀ index transaction, batch[index]? = some transaction →
      applies index = true ∧ transaction.asn1TransactionMessage.isSome = true

theorem addTransactionMessages_eq_some_iff (applies : ℕ → Bool) (index : ℕ)
    (transactions : List Transaction) :
    addTransactionMessages applies index transactions = some transactions ↔
      ∀ offset transaction, transactions[offset]? = some transaction →
        applies (index + offset) = true ∧ transaction.asn1TransactionMessage.isSome = true := by
  induction transactions generalizing index with
  | nil => simp [addTransactionMessages]
  | cons transaction rest ih =>
    rw [addTransactionMessages]
    constructor
    · intro hall offset found hfound
      by_cases hhead : (applies index && transaction.asn1TransactionMessage.isSome) = true
      · rw [if_pos hhead, Option.map_eq_some_iff] at hall
        obtain ⟨added, hadded, hcons⟩ := hall
        obtain rfl := (List.cons.inj hcons).2
        cases offset with
        | zero =>
          obtain rfl := Option.some.inj hfound
          exact Bool.and_eq_true_iff.mp hhead
        | succ offset =>
          have hrest := (ih (index + 1)).mp hadded offset found hfound
          rwa [Nat.add_right_comm] at hrest
      · rw [if_neg hhead] at hall
        exact absurd hall (by simp)
    · intro hall
      have hhead : (applies index && transaction.asn1TransactionMessage.isSome) = true :=
        Bool.and_eq_true_iff.mpr (hall 0 transaction rfl)
      have hrest : addTransactionMessages applies (index + 1) rest = some rest := by
        refine (ih (index + 1)).mpr ?_
        intro offset found hfound
        rw [Nat.add_right_comm]
        exact hall (offset + 1) found hfound
      rw [if_pos hhead, hrest]
      rfl

/-- What is committed are the transactions that were taken. -/
theorem addTransactionMessages_eq_some {applies : ℕ → Bool} {index : ℕ}
    {transactions added : List Transaction}
    (h : addTransactionMessages applies index transactions = some added) :
    added = transactions := by
  induction transactions generalizing index added with
  | nil => exact (Option.some.inj h).symm
  | cons transaction rest ih =>
    rw [addTransactionMessages] at h
    split at h
    · obtain ⟨tail, htail, rfl⟩ := Option.map_eq_some_iff.mp h
      rw [ih htail]
    · exact absurd h (by simp)

theorem generateBlock_cases (applies : ℕ → Bool) (batch : List Transaction) :
    generateBlock applies batch = some batch ∨ generateBlock applies batch = none := by
  cases h : generateBlock applies batch with
  | none => exact Or.inr rfl
  | some block => exact Or.inl (congrArg some (addTransactionMessages_eq_some h))

theorem generates_iff {applies : ℕ → Bool} {batch : List Transaction} {s : System}
    (hthread : s.thread = .generating batch) :
    Generates (.generateBlock applies) s ↔ generateBlock applies batch = some batch := by
  rw [generateBlock, addTransactionMessages_eq_some_iff]
  simp only [Nat.zero_add]
  constructor
  · intro h
    exact h applies batch rfl hthread
  · rintro h _ _ hoperation hfound
    obtain rfl := Operation.generateBlock.inj hoperation
    obtain rfl := ProducerThread.generating.inj (hthread.symm.trans hfound)
    exact h

/-- Only a `generateBlock` of the thread can throw. -/
theorem exists_generating_of_throws {operation : Operation} {s : System}
    (h : ¬ Generates operation s) :
    ∃ applies batch, operation = .generateBlock applies ∧ s.thread = .generating batch := by
  by_contra hnone
  refine h ?_
  intro applies batch hoperation hthread
  exact absurd ⟨applies, batch, hoperation, hthread⟩ hnone

theorem perform_generateBlock (applies : ℕ → Bool) {batch : List Transaction} {s : System}
    (hthread : s.thread = .generating batch) :
    (generateBlock applies batch = some batch ∧ perform (.generateBlock applies) s =
      { s with thread := .checking, blocks := s.blocks ++ [batch] }) ∨
    (generateBlock applies batch = none ∧ batch ≠ [] ∧
      perform (.generateBlock applies) s = { s with thread := .crashed }) := by
  rcases generateBlock_cases applies batch with hblock | hnone
  · refine Or.inl ⟨hblock, ?_⟩
    simp only [perform, hthread, hblock]
  · refine Or.inr ⟨hnone, ?_, ?_⟩
    · rintro rfl
      exact absurd hnone (by simp [generateBlock, addTransactionMessages])
    · simp only [perform, hthread, hnone]

theorem addTransaction_eq_ok {transaction : Transaction} {producer added : BlockProducer}
    (h : producer.addTransaction transaction = .ok added) :
    added.transactions = producer.transactions ++ [transaction] := by
  unfold BlockProducer.addTransaction at h
  split at h
  · exact absurd h (by simp)
  · obtain rfl := Except.ok.inj h
    rfl

def Sound (s : System) : Prop := Accounted s ∧ s.thread ≠ .crashed

theorem sound_addTransaction (transaction : Transaction) {s : System} (hs : Sound s) :
    Sound (perform (.addTransaction transaction) s) := by
  cases hadd : s.producer.addTransaction transaction with
  | error exception =>
    simp only [perform, hadd]
    exact hs
  | ok producer =>
    simp only [perform, hadd]
    have haccepted : s.accepted = _ := hs.1
    refine ⟨?_, hs.2⟩
    simp only [Accounted, addTransaction_eq_ok hadd, haccepted, List.append_assoc]

theorem sound_checkState {s : System} (hs : Sound s) : Sound (perform .checkState s) := by
  rw [perform]
  by_cases hthread : s.thread = .checking
  · rw [if_pos hthread]
    have haccepted : s.accepted = _ := hs.1
    rw [hthread] at haccepted
    by_cases hterminated : s.producer.currentState = .terminated
    · rw [if_pos hterminated]
      exact ⟨haccepted, by simp⟩
    · rw [if_neg hterminated]
      exact ⟨haccepted, by simp⟩
  · rw [if_neg hthread]
    exact hs

/-- What the thread takes from the queue it holds. -/
theorem sound_getTransactions {s : System} (hs : Sound s) : Sound (perform .getTransactions s) := by
  rw [perform]
  by_cases hthread : s.thread = .checked
  · rw [if_pos hthread]
    have haccepted : s.accepted = _ := hs.1
    rw [hthread] at haccepted
    refine ⟨?_, by simp⟩
    simpa [Accounted, ProducerThread.held] using haccepted
  · rw [if_neg hthread]
    exact hs

theorem sound_generateBlock (applies : ℕ → Bool) {s : System} (hs : Sound s)
    (hgenerates : Generates (.generateBlock applies) s) :
    Sound (perform (.generateBlock applies) s) := by
  by_cases hgenerating : ∃ batch, s.thread = .generating batch
  · obtain ⟨batch, hthread⟩ := hgenerating
    have hsome := (generates_iff hthread).mp hgenerates
    rcases perform_generateBlock applies hthread with ⟨_, hperform⟩ | ⟨hnone, _, _⟩
    · rw [hperform]
      have haccepted : s.accepted = _ := hs.1
      rw [hthread] at haccepted
      refine ⟨?_, by simp⟩
      simpa [Accounted, ProducerThread.held] using haccepted
    · rw [hsome] at hnone
      exact absurd hnone (by simp)
  · have hsame : perform (.generateBlock applies) s = s := by
      cases hthread : s.thread with
      | generating batch => exact absurd ⟨batch, hthread⟩ hgenerating
      | checking => simp only [perform, hthread]
      | checked => simp only [perform, hthread]
      | returned => simp only [perform, hthread]
      | crashed => simp only [perform, hthread]
    rw [hsame]
    exact hs

theorem sound_step (operation : Operation) (s : System) (hs : Sound s)
    (hgenerates : Generates operation s) : Sound (step operation s) := by
  rw [step, if_neg hs.2]
  cases operation with
  | addTransaction transaction => exact sound_addTransaction transaction hs
  | terminate => exact hs
  | checkState => exact sound_checkState hs
  | getTransactions => exact sound_getTransactions hs
  | generateBlock applies => exact sound_generateBlock applies hs hgenerates

/-- An exception in `generateBlock` loses what was taken from the queue. -/
theorem not_accounted_of_throws {operation : Operation} {s : System} (hs : Sound s)
    (hthrows : ¬ Generates operation s) : ¬ Accounted (step operation s) := by
  obtain ⟨applies, batch, rfl, hthread⟩ := exists_generating_of_throws hthrows
  rw [step, if_neg hs.2]
  rw [generates_iff hthread] at hthrows
  rcases perform_generateBlock applies hthread with ⟨hsome, _⟩ | ⟨_, hnonempty, hperform⟩
  · exact absurd hsome hthrows
  · intro hafter
    have hbefore : s.accepted = _ := hs.1
    rw [hthread] at hbefore
    rw [hperform, Accounted] at hafter
    have hlength := congrArg List.length (hbefore.symm.trans hafter)
    have hpositive := List.length_pos_iff.mpr hnonempty
    simp only [ProducerThread.held, List.length_append, List.length_nil] at hlength
    omega

theorem sound_start : Sound System.start := ⟨rfl, by decide⟩

/-- Between two iterations of a run without exceptions every accepted transaction
is in the blocks or in the queue. -/
theorem accepted_of_generates {operations : List Operation}
    (hgenerates : Along step Generates System.start operations)
    (hidle : (run step System.start operations).thread.held = []) :
    (run step System.start operations).accepted =
      (run step System.start operations).blocks.flatten ++
        (run step System.start operations).producer.transactions := by
  have hsound := invariant_run step (fun operation s => sound_step operation s) sound_start
    hgenerates
  have haccepted : (run step System.start operations).accepted = _ := hsound.1
  rwa [hidle, List.append_nil] at haccepted

/-- Over every interleaving the accepted transactions are accounted for after
every step exactly when no `generateBlock` throws; then, between iterations, the
blocks and the queue hold them, once each and in the order of acceptance. -/
theorem accounted_along_iff (operations : List Operation) :
    (Along step (fun operation s => Accounted (step operation s)) System.start operations ↔
      Along step Generates System.start operations) ∧
    (Along step Generates System.start operations →
      (run step System.start operations).thread.held = [] →
      (run step System.start operations).accepted =
        (run step System.start operations).blocks.flatten ++
          (run step System.start operations).producer.transactions) := by
  refine ⟨?_, accepted_of_generates⟩
  refine along_iff_of_invariant step (fun operation s hs _ => sound_step operation s hs)
    (fun operation s hs _ => ?_) sound_start (along_true step _ operations)
  constructor
  · intro hafter
    by_contra hthrows
    exact not_accounted_of_throws hs hthrows hafter
  · intro hgenerates
    exact (sound_step operation s hs hgenerates).1

def decodable (hash : Hash) : Transaction where
  transactionHash := hash
  transactionSignature := []
  activeAccount := [1]
  status := .debit
  asn1TransactionMessage := some ⟨[1], [2], [], hash, [], ⟨hash, []⟩, .debit, []⟩

def twoIterations : List Operation :=
  [.addTransaction (decodable [1]), .checkState, .getTransactions,
    .addTransaction (decodable [2]), .generateBlock fun _ => true, .checkState, .getTransactions,
    .generateBlock fun _ => true]

theorem two_iterations_accounted :
    (Along step (fun operation s => Accounted (step operation s)) System.start twoIterations ↔
      Along step Generates System.start twoIterations) ∧
    (run step System.start twoIterations).accepted =
      (run step System.start twoIterations).blocks.flatten ++
        (run step System.start twoIterations).producer.transactions := by
  obtain ⟨hexact, haccepted⟩ := accounted_along_iff twoIterations
  refine ⟨hexact, haccepted (hexact.mp ?_) (by decide)⟩
  exact ⟨by decide, by decide, by decide, by decide, by decide, by decide, by decide, by decide,
    trivial⟩

/-- Applying the second of two accepted transactions throws, and both are lost. -/
theorem taken_transactions_lost :
    (run step System.start [.addTransaction (decodable [1]), .addTransaction (decodable [2]),
      .checkState, .getTransactions, .generateBlock fun index => index == 0]) =
      ⟨⟨.inited, []⟩, .crashed, [], [decodable [1], decodable [2]]⟩ ∧
    ¬ Along step (fun operation s => Accounted (step operation s)) System.start
      [.addTransaction (decodable [1]), .addTransaction (decodable [2]), .checkState,
        .getTransactions, .generateBlock fun index => index == 0] := by
  refine ⟨by decide, ?_⟩
  rintro ⟨_, _, _, _, hlast, _⟩
  exact absurd hlast (by decide)

end Keto.Block.BlockProduction
