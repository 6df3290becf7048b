import Keto.Library.Runs
import Keto.Rpc.ServerSession
import Mathlib.Logic.Function.Basic

/-!
The account session cache under any number of server sessions. A session enters
itself under the account of its hello when it registers; it is taken out under
the account of its latest hello when it ends, whichever session is entered there.
A session whose answer cannot be written ends and stays in the cache.
-/
namespace Keto.Rpc.SessionRegistry

open Protocol AccountDb Library.Stateful Library.Runs Session

inductive Phase
  | reading
  | replying
  | done
  deriving DecidableEq, Repr

structure Connection where
  session : Session
  phase : Phase
  isOpen : Bool
  outBound : ℕ
  deriving DecidableEq, Repr

/-- The sessions of the server, numbered as they are accepted, and the account
session cache. `registered` is the history of `addAccount`. -/
structure Registry where
  connections : ℕ → Connection
  cache : Bytes → Option ℕ
  registered : List (Bytes × ℕ)
  crashed : Bool

namespace Registry

def start : Registry where
  connections := fun _ => ⟨Session.start, .reading, true, 0⟩
  cache := fun _ => none
  registered := []
  crashed := false

def hello (s : Registry) (i : ℕ) : Option Bytes := (s.connections i).session.hello

def isOpen (s : Registry) (i : ℕ) : Bool := (s.connections i).isOpen

def addAccount (s : Registry) (account : Bytes) (i : ℕ) : Registry :=
  { s with
    cache := Function.update s.cache account (some i)
    registered := (account, i) :: s.registered }

def removeAccount (s : Registry) (account : Bytes) : Registry :=
  { s with cache := Function.update s.cache account none }

def apply (i : ℕ) (s : Registry) : Effect → Registry
  | .addAccount account => s.addAccount account i
  | .removeAccount account => s.removeAccount account
  | _ => s

def connect (s : Registry) (i : ℕ) (connection : Connection) : Registry :=
  { s with connections := Function.update s.connections i connection }

/-- The removal in the closing branch of `on_read` and in `on_outBoundWrite`;
`erase` of an account that is not there does nothing. -/
def removeSession (s : Registry) (i : ℕ) : Registry :=
  match s.hello i with
  | some account => s.removeAccount account
  | none => s

end Registry

inductive Event
  | read (i : ℕ) (data : Bytes) (answers : Answers)
  | readClosed (i : ℕ)
  | written (i : ℕ) (ok : Bool)
  | route (account : Bytes)
  | outBoundWritten (i : ℕ) (ok : Bool)

open Registry

variable (context : ServerContext)

/-- A read completes on a socket that is closed. -/
def endRead (i : ℕ) (s : Registry) : Registry :=
  (s.removeSession i).connect i { s.connections i with phase := .done, isOpen := false }

def readFrame (i : ℕ) (data : Bytes) (answers : Answers) (s : Registry) : Registry :=
  let read := onRead context answers data (s.connections i).session
  let s' := read.2.effects.foldl (apply i) s
  match read.1 with
  | .writes => s'.connect i { s.connections i with session := read.2, phase := .replying }
  | .returns =>
    s'.connect i { s.connections i with session := read.2, phase := .done, isOpen := false }
  | .undefined => { s' with crashed := true }

/-- A completion that is not pending does not happen, and nothing happens after
the server has crashed. -/
def step (event : Event) (s : Registry) : Registry :=
  if s.crashed then s
  else
    match event with
    | .read i data answers =>
      if (s.connections i).phase = .reading then
        if s.isOpen i then readFrame context i data answers s else endRead i s
      else s
    | .readClosed i => if (s.connections i).phase = .reading then endRead i s else s
    | .written i ok =>
      if (s.connections i).phase = .replying then
        if ok then s.connect i { s.connections i with phase := .reading }
        else s.connect i { s.connections i with phase := .done, isOpen := false }
      else s
    | .route account =>
      match s.cache account with
      | some i => s.connect i { s.connections i with outBound := (s.connections i).outBound + 1 }
      | none => s
    | .outBoundWritten i ok =>
      if 0 < (s.connections i).outBound then
        if ok then
          s.connect i { s.connections i with outBound := (s.connections i).outBound - 1 }
        else
          (s.removeSession i).connect i
            { s.connections i with outBound := (s.connections i).outBound - 1, isOpen := false }
      else s

def Mapped (s : Registry) : Prop :=
  ∀ account i, s.cache account = some i → (account, i) ∈ s.registered ∧ s.isOpen i = true

/-- An account stays mapped until its session closes or another one registers. -/
def Stays (s s' : Registry) : Prop :=
  ∀ account i, s.cache account = some i →
    s'.cache account = some i ∨ s'.isOpen i = false ∨
      ∃ j, j ≠ i ∧ s'.registered = (account, j) :: s.registered

def Correct (event : Event) (s : Registry) : Prop :=
  Mapped (step context event s) ∧ Stays s (step context event s)

/-- The account of the latest hello of a session is mapped to no other session,
and no other account is mapped to this one. -/
def OwnEntry (s : Registry) (i : ℕ) : Prop :=
  ∀ account j, s.cache account = some j → (s.hello i = some account ↔ j = i)

/-- A session that ends is entered under the account of its latest hello or not
at all, and not at all when it ends because its answer could not be written. -/
def Clean (event : Event) (s : Registry) : Prop :=
  s.crashed = false →
    match event with
    | .read i data answers =>
      (s.connections i).phase = .reading →
        (s.isOpen i = true → answers.createTransaction = true →
          commandOf data = some .close → s.hello i ≠ none → OwnEntry s i) ∧
        (s.isOpen i = false → OwnEntry s i)
    | .readClosed i => (s.connections i).phase = .reading → OwnEntry s i
    | .written i ok =>
      (s.connections i).phase = .replying → ok = false → ∀ account, s.cache account ≠ some i
    | .route _ => True
    | .outBoundWritten i ok => 0 < (s.connections i).outBound → ok = false → OwnEntry s i

section Frames

def isEntry : Effect → Bool
  | .addAccount _ => true
  | .removeAccount _ => true
  | _ => false

def entries (read : ReadOutcome × Session) : List Effect := read.2.effects.filter isEntry

theorem foldl_entries (i : ℕ) (s : Registry) (effects : List Effect) :
    effects.foldl (apply i) s = (effects.filter isEntry).foldl (apply i) s := by
  induction effects generalizing s with
  | nil => rfl
  | cons effect effects ih =>
    rw [List.foldl_cons, ih]
    cases effect <;> rfl

theorem read_quiet (answers : Answers) (data : Bytes) (session : Session)
    (hregister : commandOf data ≠ some .register) (hclose : commandOf data ≠ some .close) :
    entries (onRead context answers data session) = [] ∧
      (onRead context answers data session).1 ≠ .returns := by
  rw [onRead_iff context fun read => entries read = [] ∧ read.1 ≠ .returns]
  cases hcommand : commandOf data with
  | none => simp [handleFrame, dispatch, hcommand, entries, consume]
  | some command =>
    cases command with
    | hello => simp [handleFrame, dispatch, hcommand, entries, consume, handleHello]
    | helloConsensus =>
      cases hvalidate : answers.validateConsensus with
      | none =>
        simp [handleFrame, dispatch, hcommand, entries, consume, handleHelloConsensus, hvalidate]
      | some valid =>
        simp [handleFrame, dispatch, hcommand, entries, consume, handleHelloConsensus, hvalidate,
          isEntry]
    | peers => simp [handleFrame, dispatch, hcommand, entries, consume, handlePeer, isEntry]
    | transaction =>
      cases hroute : answers.routeMessage with
      | none =>
        simp [handleFrame, dispatch, hcommand, entries, consume, handleTransaction, hroute, isEntry]
      | some response =>
        simp [handleFrame, dispatch, hcommand, entries, consume, handleTransaction, hroute, isEntry]
    | transactionProcessed =>
      simp [handleFrame, dispatch, hcommand, entries, consume, handleTransactionProcessed]
    | register => exact absurd hcommand hregister
    | close => exact absurd hcommand hclose
    | _ => simp [handleFrame, dispatch, hcommand, entries, consume]

/-- The session is entered before the payload of the frame is decoded. -/
theorem read_register (answers : Answers) (data : Bytes) (session : Session)
    (hregister : commandOf data = some .register) :
    (onRead context answers data session).1 ≠ .returns ∧
      (entries (onRead context answers data session) = [] ∨
        (onRead context answers data session).1 = .writes ∧
          ∃ account, entries (onRead context answers data session) = [.addAccount account]) := by
  rw [onRead_iff context fun read => read.1 ≠ .returns ∧ (entries read = [] ∨
    read.1 = .writes ∧ ∃ account, entries read = [.addAccount account])]
  cases hhello : session.hello with
  | none => simp [handleFrame, dispatch, hregister, entries, consume, handleRegister, hhello]
  | some account =>
    simp [handleFrame, dispatch, hregister, entries, consume, handleRegister, hhello, isEntry,
      List.filter_cons]

theorem read_close (answers : Answers) (data : Bytes) (session : Session)
    (hclose : commandOf data = some .close) :
    (entries (onRead context answers data session) = [] ∧
        (onRead context answers data session).1 ≠ .returns ∧
        ¬ (answers.createTransaction = true ∧ session.hello ≠ none)) ∨
      ((onRead context answers data session).1 = .returns ∧ answers.createTransaction = true ∧
        ∃ account, session.hello = some account ∧
          entries (onRead context answers data session) = [.removeAccount account]) := by
  rw [onRead_iff context fun read => (entries read = [] ∧ read.1 ≠ .returns ∧
      ¬ (answers.createTransaction = true ∧ session.hello ≠ none)) ∨
    (read.1 = .returns ∧ answers.createTransaction = true ∧
      ∃ account, session.hello = some account ∧ entries read = [.removeAccount account])]
  cases hcreate : answers.createTransaction with
  | false => simp [handleFrame, entries, consume, hcreate]
  | true =>
    cases hhello : session.hello with
    | none => simp [handleFrame, dispatch, hclose, entries, consume, hcreate, hhello]
    | some account =>
      simp [handleFrame, dispatch, hclose, entries, consume, hcreate, hhello, isEntry]

end Frames

section Transitions

@[simp] theorem connect_cache (s : Registry) (i : ℕ) (connection : Connection) :
    (s.connect i connection).cache = s.cache := rfl

@[simp] theorem connect_registered (s : Registry) (i : ℕ) (connection : Connection) :
    (s.connect i connection).registered = s.registered := rfl

theorem connect_isOpen (s : Registry) (i : ℕ) (connection : Connection) :
    (s.connect i connection).isOpen = Function.update s.isOpen i connection.isOpen := by
  funext j
  by_cases hj : j = i
  · simp [isOpen, connect, hj]
  · simp [isOpen, connect, hj]

/-- A session's own pending operations make no difference to the cache. -/
theorem connect_isOpen_same (s : Registry) (i : ℕ) (connection : Connection)
    (h : connection.isOpen = s.isOpen i) : (s.connect i connection).isOpen = s.isOpen := by
  rw [connect_isOpen, h, Function.update_eq_self]

@[simp] theorem removeSession_registered (s : Registry) (i : ℕ) :
    (s.removeSession i).registered = s.registered := by
  rw [removeSession]
  cases s.hello i <;> rfl

@[simp] theorem removeSession_isOpen (s : Registry) (i : ℕ) :
    (s.removeSession i).isOpen = s.isOpen := by
  rw [removeSession]
  cases s.hello i <;> rfl

/-- All that a step may do to the cache and to the sessions' ends, each way with
the condition it has to meet. -/
inductive Transition (s s' : Registry) : Prop → Prop
  | same (hcache : s'.cache = s.cache) (hregistered : s'.registered = s.registered)
      (hopen : s'.isOpen = s.isOpen) : Transition s s' True
  | registers (account : Bytes) (i : ℕ) (hisOpen : s.isOpen i = true)
      (hcache : s'.cache = Function.update s.cache account (some i))
      (hregistered : s'.registered = (account, i) :: s.registered)
      (hopen : s'.isOpen = s.isOpen) : Transition s s' True
  | ends (i : ℕ) (hcache : s'.cache = (s.removeSession i).cache)
      (hregistered : s'.registered = s.registered)
      (hopen : s'.isOpen = Function.update s.isOpen i false) : Transition s s' (OwnEntry s i)
  | abandons (i : ℕ) (hcache : s'.cache = s.cache) (hregistered : s'.registered = s.registered)
      (hopen : s'.isOpen = Function.update s.isOpen i false) :
      Transition s s' (∀ account, s.cache account ≠ some i)

theorem Transition.congr {s s' : Registry} {p q : Prop} (h : Transition s s' p) (hpq : p ↔ q) :
    Transition s s' q := propext hpq ▸ h

theorem removeSession_cache (s : Registry) (i : ℕ) (account : Bytes) :
    (s.removeSession i).cache account =
      if s.hello i = some account then none else s.cache account := by
  cases hhello : s.hello i with
  | none => simp [removeSession, hhello]
  | some latest =>
    by_cases haccount : account = latest
    · simp [removeSession, hhello, removeAccount, haccount]
    · simp [removeSession, hhello, removeAccount, haccount, Ne.symm haccount]

theorem not_registered_of_eq {s s' : Registry} (h : s'.registered = s.registered)
    (entry : Bytes × ℕ) : s'.registered ≠ entry :: s.registered := by
  rw [h]
  exact (List.cons_ne_self entry s.registered).symm

theorem isOpen_of_ne {s s' : Registry} {i j : ℕ}
    (hopen : s'.isOpen = Function.update s.isOpen i false) (hj : j ≠ i) :
    s'.isOpen j = s.isOpen j := by
  rw [hopen, Function.update_of_ne hj]

theorem not_isOpen {s s' : Registry} {i : ℕ}
    (hopen : s'.isOpen = Function.update s.isOpen i false) : s'.isOpen i = false := by
  rw [hopen, Function.update_self]

theorem correct_of_registers {s s' : Registry} (hmapped : Mapped s) {account : Bytes} {i : ℕ}
    (hisOpen : s.isOpen i = true) (hcache : s'.cache = Function.update s.cache account (some i))
    (hregistered : s'.registered = (account, i) :: s.registered) (hopen : s'.isOpen = s.isOpen) :
    Mapped s' ∧ Stays s s' := by
  constructor
  · intro other j hj
    rw [hregistered, hopen]
    by_cases hother : other = account
    · rw [hcache, hother, Function.update_self, Option.some.injEq] at hj
      rw [hother, ← hj]
      exact ⟨List.mem_cons_self, hisOpen⟩
    · rw [hcache, Function.update_of_ne hother] at hj
      obtain ⟨hbefore, hopenBefore⟩ := hmapped other j hj
      exact ⟨List.mem_cons_of_mem _ hbefore, hopenBefore⟩
  · intro other j hj
    by_cases hother : other = account
    · by_cases hsame : i = j
      · left
        rw [hcache, hother, Function.update_self, hsame]
      · right; right
        exact ⟨i, hsame, hother ▸ hregistered⟩
    · left
      rw [hcache, Function.update_of_ne hother]
      exact hj

theorem correct_iff_of_ends {s s' : Registry} (hmapped : Mapped s) {i : ℕ}
    (hcache : s'.cache = (s.removeSession i).cache) (hregistered : s'.registered = s.registered)
    (hopen : s'.isOpen = Function.update s.isOpen i false) :
    (Mapped s' ∧ Stays s s') ↔ OwnEntry s i := by
  constructor
  · rintro ⟨hmapped', hstays⟩ account j hj
    obtain ⟨_, hopenBefore⟩ := hmapped account j hj
    have hentry : s'.cache account = if s.hello i = some account then none else some j := by
      rw [hcache, removeSession_cache, hj]
    constructor
    · intro hhello
      by_contra hne
      rw [if_pos hhello] at hentry
      rcases hstays account j hj with hkept | hclosed | ⟨k, _, hk⟩
      · rw [hentry] at hkept
        exact absurd hkept (by simp)
      · rw [isOpen_of_ne hopen hne, hopenBefore] at hclosed
        exact absurd hclosed (by decide)
      · exact not_registered_of_eq hregistered _ hk
    · intro hsame
      by_contra hhello
      rw [if_neg hhello] at hentry
      have hstillOpen := (hmapped' account j hentry).2
      rw [hsame, not_isOpen hopen] at hstillOpen
      exact absurd hstillOpen (by decide)
  · intro hown
    have hkept : ∀ account j, s.cache account = some j → j ≠ i → s'.cache account = some j := by
      intro account j hj hne
      have hother : s.hello i ≠ some account := fun hhello => hne ((hown account j hj).mp hhello)
      rw [hcache, removeSession_cache, if_neg hother, hj]
    constructor
    · intro account j hj
      rw [hcache, removeSession_cache] at hj
      by_cases hhello : s.hello i = some account
      · rw [if_pos hhello] at hj
        exact absurd hj (by simp)
      · rw [if_neg hhello] at hj
        have hne : j ≠ i := fun hsame => hhello ((hown account j hj).mpr hsame)
        rw [hregistered, isOpen_of_ne hopen hne]
        exact hmapped account j hj
    · intro account j hj
      by_cases hsame : j = i
      · right; left
        rw [hsame, not_isOpen hopen]
      · left
        exact hkept account j hj hsame

theorem correct_iff_of_abandons {s s' : Registry} (hmapped : Mapped s) {i : ℕ}
    (hcache : s'.cache = s.cache) (hregistered : s'.registered = s.registered)
    (hopen : s'.isOpen = Function.update s.isOpen i false) :
    (Mapped s' ∧ Stays s s') ↔ ∀ account, s.cache account ≠ some i := by
  constructor
  · rintro ⟨hmapped', _⟩ account hi
    have hstillOpen := (hmapped' account i (by rw [hcache, hi])).2
    rw [not_isOpen hopen] at hstillOpen
    exact absurd hstillOpen (by decide)
  · intro hnone
    constructor
    · intro account j hj
      rw [hcache] at hj
      have hne : j ≠ i := fun hsame => hnone account (hsame ▸ hj)
      rw [hregistered, isOpen_of_ne hopen hne]
      exact hmapped account j hj
    · intro account j hj
      left
      rw [hcache, hj]

/-- A step is right exactly when it meets its condition. -/
theorem correct_iff_of_transition {s s' : Registry} {cond : Prop} (hmapped : Mapped s)
    (h : Transition s s' cond) : (Mapped s' ∧ Stays s s') ↔ cond := by
  cases h with
  | same hcache hregistered hopen =>
    refine iff_of_true ⟨?_, ?_⟩ trivial
    · intro account i hi
      rw [hregistered, hopen]
      exact hmapped account i (hcache ▸ hi)
    · intro account i hi
      left
      rw [hcache, hi]
  | registers account i hisOpen hcache hregistered hopen =>
    exact iff_of_true (correct_of_registers hmapped hisOpen hcache hregistered hopen) trivial
  | ends i hcache hregistered hopen =>
    exact correct_iff_of_ends hmapped hcache hregistered hopen
  | abandons i hcache hregistered hopen =>
    exact correct_iff_of_abandons hmapped hcache hregistered hopen

theorem transition_connect (s : Registry) (i : ℕ) (connection : Connection)
    (h : connection.isOpen = s.isOpen i) : Transition s (s.connect i connection) True :=
  .same rfl rfl (connect_isOpen_same s i connection h)

theorem transition_ends (s : Registry) (i : ℕ) (connection : Connection)
    (h : connection.isOpen = false) :
    Transition s ((s.removeSession i).connect i connection) (OwnEntry s i) := by
  refine .ends i rfl (by simp) ?_
  rw [connect_isOpen, removeSession_isOpen, h]

/-- What is not pending does not happen. -/
theorem transition_if {s s' : Registry} {c p : Prop} [Decidable c] (h : c → Transition s s' p) :
    Transition s (if c then s' else s) (c → p) := by
  by_cases hc : c
  · rw [if_pos hc]
    exact (h hc).congr (by simp [hc])
  · rw [if_neg hc]
    have hstill : Transition s s True := .same rfl rfl rfl
    exact hstill.congr (by simp [hc])

/-- A write that completes has a condition to meet only where it has failed. -/
theorem transition_ite {s s₁ s₂ : Registry} {ok : Bool} {p : Prop} (hok : Transition s s₁ True)
    (hfailed : Transition s s₂ p) : Transition s (if ok then s₁ else s₂) (ok = false → p) := by
  cases ok with
  | true => exact hok.congr (by simp)
  | false => exact hfailed.congr (by simp)

variable (i : ℕ) (data : Bytes) (answers : Answers) (s : Registry)

theorem readFrame_quiet
    (hentries : entries (onRead context answers data (s.connections i).session) = [])
    (hreturns : (onRead context answers data (s.connections i).session).1 ≠ .returns) :
    Transition s (readFrame context i data answers s) True := by
  rw [entries] at hentries
  simp only [readFrame, foldl_entries, hentries, List.foldl_nil]
  cases houtcome : (onRead context answers data (s.connections i).session).1 with
  | writes => exact transition_connect s i _ rfl
  | returns => exact absurd houtcome hreturns
  | undefined => exact .same rfl rfl rfl

theorem readFrame_registers {account : Bytes} (hisOpen : s.isOpen i = true)
    (hentries : entries (onRead context answers data (s.connections i).session) =
      [.addAccount account])
    (hwrites : (onRead context answers data (s.connections i).session).1 = .writes) :
    Transition s (readFrame context i data answers s) True := by
  rw [entries] at hentries
  simp only [readFrame, foldl_entries, hentries, hwrites, List.foldl_cons, List.foldl_nil]
  exact .registers account i hisOpen rfl rfl (connect_isOpen_same (s.addAccount account i) i _ rfl)

theorem readFrame_ends {account : Bytes} (hhello : s.hello i = some account)
    (hentries : entries (onRead context answers data (s.connections i).session) =
      [.removeAccount account])
    (hreturns : (onRead context answers data (s.connections i).session).1 = .returns) :
    Transition s (readFrame context i data answers s) (OwnEntry s i) := by
  have hremove : s.removeAccount account = s.removeSession i := by rw [removeSession, hhello]
  rw [entries] at hentries
  simp only [readFrame, foldl_entries, hentries, hreturns, List.foldl_cons, List.foldl_nil, apply,
    hremove]
  exact transition_ends s i _ rfl

/-- Of the frames only `CLOSE` has a condition to meet. -/
theorem readFrame_transition (hisOpen : s.isOpen i = true) :
    Transition s (readFrame context i data answers s)
      (answers.createTransaction = true → commandOf data = some .close →
        s.hello i ≠ none → OwnEntry s i) := by
  by_cases hclose : commandOf data = some .close
  · rcases read_close context answers data (s.connections i).session hclose with
      ⟨hentries, hreturns, hnot⟩ | ⟨hreturns, hcreate, account, hhello, hentries⟩
    · refine (readFrame_quiet context i data answers s hentries hreturns).congr ?_
      exact iff_of_true trivial fun hcreate _ hsaid => absurd ⟨hcreate, hsaid⟩ hnot
    · have hsaid : s.hello i ≠ none := by
        rw [Registry.hello, hhello]
        simp
      refine (readFrame_ends context i data answers s hhello hentries hreturns).congr ?_
      exact ⟨fun hown _ _ _ => hown, fun h => h hcreate hclose hsaid⟩
  · have htrue : True ↔ (answers.createTransaction = true → commandOf data = some .close →
        s.hello i ≠ none → OwnEntry s i) :=
      iff_of_true trivial fun _ h => absurd h hclose
    by_cases hregister : commandOf data = some .register
    · rcases read_register context answers data (s.connections i).session hregister with
        ⟨hreturns, hentries | ⟨hwrites, account, hentries⟩⟩
      · exact (readFrame_quiet context i data answers s hentries hreturns).congr htrue
      · exact (readFrame_registers context i data answers s hisOpen hentries hwrites).congr htrue
    · obtain ⟨hentries, hreturns⟩ :=
        read_quiet context answers data (s.connections i).session hregister hclose
      exact (readFrame_quiet context i data answers s hentries hreturns).congr htrue

theorem step_transition (event : Event) :
    Transition s (step context event s) (Clean event s) := by
  cases hcrashed : s.crashed with
  | true =>
    have hstill : Transition s s True := .same rfl rfl rfl
    simpa [step, Clean, hcrashed] using hstill
  | false =>
    simp only [step, Clean, hcrashed, Bool.false_eq_true, if_false, true_implies]
    cases event with
    | read i data answers =>
      refine transition_if fun _ => ?_
      cases hisOpen : s.isOpen i with
      | true =>
        rw [if_pos rfl]
        exact (readFrame_transition context i data answers s hisOpen).congr (by simp)
      | false =>
        rw [if_neg Bool.false_ne_true]
        exact (transition_ends s i _ rfl).congr (by simp)
    | readClosed i => exact transition_if fun _ => transition_ends s i _ rfl
    | written i ok =>
      refine transition_if fun _ => transition_ite (transition_connect s i _ rfl) ?_
      exact .abandons i rfl rfl (connect_isOpen s i _)
    | route account =>
      dsimp only
      cases s.cache account with
      | none => exact .same rfl rfl rfl
      | some i => exact transition_connect s i _ rfl
    | outBoundWritten i ok =>
      refine transition_if fun _ => transition_ite (transition_connect s i _ rfl) ?_
      exact transition_ends s i _ rfl

end Transitions

theorem mapped_start : Mapped Registry.start := by
  intro account i hi
  exact absurd hi (by simp [Registry.start])

/-- Over every interleaving on any number of sessions, the cache maps accounts
as it should exactly when each session that ends leaves no entry but its own to
be removed. -/
theorem entries_right_along_iff (events : List Event) :
    Along (step context) (Correct context) Registry.start events ↔
      Along (step context) Clean Registry.start events := by
  have hexact : ∀ event s, Mapped s → (Correct context event s ↔ Clean event s) :=
    fun event s hmapped => correct_iff_of_transition hmapped (step_transition context s event)
  refine along_iff_of_invariant (step context) ?_ (fun event s hmapped _ => hexact event s hmapped)
    mapped_start (along_true (step context) Registry.start events)
  intro event s hmapped _ hclean
  exact ((hexact event s hmapped).mpr hclean).1

def frame (i : ℕ) (command : RpcCommand) (payload : Bytes) : Event :=
  .read i (buildMessage command payload) (answering true)

def secondHello : List Event :=
  [frame 0 .hello (text "01"), .written 0 true, frame 0 .register (text "03"), .written 0 true,
    frame 1 .hello (text "01"), .written 1 true, frame 1 .close []]

/-- Its end takes the entry of session 0 away. An answer that cannot be written
leaves an entry for a session that has ended. -/
theorem other_session_removes_entry :
    ((run (step plainContext) Registry.start secondHello).cache [1] = none ∧
      (run (step plainContext) Registry.start secondHello).isOpen 0 = true ∧
      ¬ Along (step plainContext) (Correct plainContext) Registry.start secondHello) ∧
    ¬ Mapped (run (step plainContext) Registry.start
      [frame 0 .hello (text "01"), .written 0 true, frame 0 .register (text "03"),
        .written 0 false]) := by
  refine ⟨⟨by decide, by decide, ?_⟩, ?_⟩
  · rintro ⟨_, _, _, _, _, _, ⟨_, hstays⟩, _⟩
    rcases hstays [1] 0 (by decide) with hkept | hclosed | ⟨j, _, hregistered⟩
    · exact absurd hkept (by decide)
    · exact absurd hclosed (by decide)
    · exact not_registered_of_eq (by decide) ([1], j) hregistered
  · intro hmapped
    exact absurd (hmapped [1] 0 (by decide)).2 (by decide)

end Keto.Rpc.SessionRegistry
