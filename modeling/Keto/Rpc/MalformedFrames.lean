import Keto.Rpc.ClientSession
import Keto.Transaction.AllOrNothing

/-!
Frames with too few tokens, and frames whose payload does not decode. The transaction
of a frame is created before its command is looked at and destroyed with the `try`
block, so a handler that throws has it rolled back, and `on_read` goes on to read. But
no branch looks whether the tokens it uses are there, and the parsers of the messages
are not asked whether they got through.
-/
namespace Keto.Rpc.MalformedFrames

open Protocol AccountDb Library.Stateful Library.Runs RpcSession
open Transaction Transaction.AllOrNothing

def tokensUsed (context : ClientContext) : Option RpcCommand → ℕ
  | some .helloConsensus => 3
  | some .accepted => if context.peered then 2 else 1
  | some .transactionProcessed => if context.logInfo then 2 else 1
  | some .goAway => 2
  | some .peers => 2
  | some .register => 2
  | some .transaction => 2
  | some .consensusSession => 2
  | some .consensus => 2
  | some .close => 2
  | _ => 1

def payloadTokens : Option RpcCommand → List ℕ
  | some .helloConsensus => [1, 2]
  | some .peers => [1]
  | some .register => [1]
  | some .transaction => [1]
  | some .consensusSession => [1]
  | some .consensus => [1]
  | _ => []

/-- Whether bytes are a `MessageWrapper` and a `PeerResponse`: what `ParseFromString` returns. -/
structure Parsers where
  messageWrapper : Bytes → Bool
  peerResponse : Bytes → Bool

def Parsers.parse (parsers : Parsers) : Option RpcCommand → Bytes → Bool
  | some .transaction, bytes => parsers.messageWrapper bytes
  | some .peers, bytes => parsers.peerResponse bytes
  | _, _ => true

def TooFewTokens (context : ClientContext) (data : Bytes) : Prop :=
  (tokenize data).length < tokensUsed context (commandOf data)

/-- A token that is decoded is no hexadecimal text, or no message is in its bytes. -/
def Undecodable (context : ClientContext) (parsers : Parsers) (data : Bytes) : Prop :=
  ∃ index ∈ payloadTokens (commandOf data), ∃ payload, (tokenize data)[index]? = some payload ∧
    ∀ bytes, context.hex.hexDecode payload = some bytes →
      parsers.parse (commandOf data) bytes = false

def Malformed (context : ClientContext) (parsers : Parsers) (data : Bytes) : Prop :=
  TooFewTokens context data ∨ Undecodable context parsers data

/-- What the modules answer while a frame is handled, the resources that they enlist,
and which of these throw when they are committed. -/
structure Handling (ρ : Type) where
  answers : ClientAnswers
  enlisted : List ρ
  throws : ρ → Bool

variable {ρ : Type}

def opened (handling : Handling ρ) (thread : Thread ρ) : Thread ρ :=
  run step thread (.createTransaction :: handling.enlisted.map .enlistResource)

def answersOn (handling : Handling ρ) (thread : Thread ρ) : ClientAnswers :=
  { handling.answers with
    createTransaction :=
      ((Operation.createTransaction (ρ := ρ)).effect thread.service).thrown.isNone
    commit := ((Operation.commit thread.service.created handling.throws).effect
      (opened handling thread).service).thrown.isNone }

def commits (context : ClientContext) (answers : ClientAnswers) (data : Bytes) : Bool :=
  match dispatch context answers data consume with
  | .ok branch _ => branch ≠ .returns
  | .error _ _ => false

/-- The thread after a frame: a transaction that could be created is destroyed at the
end of the `try` block. -/
def threadAfter (context : ClientContext) (handling : Handling ρ) (data : Bytes)
    (thread : Thread ρ) : Thread ρ :=
  let answers := answersOn handling thread
  if answers.createTransaction then
    let handled := opened handling thread
    let ended := if commits context answers data then
      step (.commit thread.service.created handling.throws) handled
    else handled
    step (.destroy thread.service.created) ended
  else step .createTransaction thread

/-- The transaction that was created on a thread was committed or rolled back as a
whole, and is off the thread. -/
def TransactionEnded (before after : Thread ρ) : Prop :=
  ((Operation.createTransaction (ρ := ρ)).effect before.service).thrown = none →
    Settled after before.service.created ∧
    ∀ wrapper, after.service.transactionWrapper = some wrapper →
      wrapper.transaction ≠ before.service.created

/-- The session has handled the frame as an error: the handler threw, the session
reads on, and the transaction has ended. -/
def TreatsAsError (context : ClientContext) (handling : Handling ρ) (data : Bytes)
    (thread : Thread ρ) : Prop :=
  (∃ session, handleFrame context (answersOn handling thread) data consume =
      .error .thrown session) ∧
  (∃ session, onRead context (answersOn handling thread) data = some session ∧
    .read ∈ session.acts) ∧
  TransactionEnded thread (threadAfter context handling data thread)

/-- On every thread and whatever the modules do, the frame is handled without a token
that is not there, and as an error when it is malformed. -/
def SurvivesFrame (context : ClientContext) (parsers : Parsers) (data : Bytes) : Prop :=
  ∀ (ρ : Type) (operations : List (Operation ρ)) (handling : Handling ρ),
    onRead context (answersOn handling (run step Thread.empty operations)) data ≠ none ∧
    (Malformed context parsers data →
      TreatsAsError context handling data (run step Thread.empty operations))

section Tokens

variable (context : ClientContext) (answers : ClientAnswers) {data : Bytes}

theorem getElem?_of_tokens {command : RpcCommand} (hcommand : commandOf data = some command)
    (h : ¬ TooFewTokens context data) {index : ℕ}
    (hindex : index < tokensUsed context (some command)) :
    ∃ value, (tokenize data)[index]? = some value := by
  rw [TooFewTokens, Nat.not_lt, hcommand] at h
  exact ⟨_, List.getElem?_eq_getElem (Nat.lt_of_lt_of_le hindex h)⟩

/-- With its tokens there, a branch throws nothing but exceptions. -/
theorem ends_dispatch_of_tokens (h : ¬ TooFewTokens context data) :
    Ends (dispatch context answers data) (fun _ _ => True) (fun failure _ => failure = .thrown)
      consume := by
  unfold dispatch
  cases hcommand : commandOf data with
  | none => trivial
  | some command =>
    have htoken := @getElem?_of_tokens context data command hcommand h
    cases command with
    | helloConsensus =>
      obtain ⟨first, hfirst⟩ := htoken (by decide : 1 < 3)
      obtain ⟨second, hsecond⟩ := htoken (by decide : 2 < 3)
      simp [hfirst, hsecond, helloConsensusResponse]
    | goAway =>
      obtain ⟨message, hmessage⟩ := htoken (by decide : 1 < 2)
      simp [hmessage, closeResponse]
    | accepted =>
      cases hpeered : context.peered with
      | false => simp [serverRequest]
      | true =>
        obtain ⟨message, hmessage⟩ := @htoken 1 (by simp [tokensUsed, hpeered])
        simp [hmessage, handleRegisterRequest]
    | peers =>
      obtain ⟨message, hmessage⟩ := htoken (by decide : 1 < 2)
      simp [hmessage, peerResponse]
    | register =>
      obtain ⟨message, hmessage⟩ := htoken (by decide : 1 < 2)
      simp [hmessage, registerResponse]
    | transaction =>
      obtain ⟨message, hmessage⟩ := htoken (by decide : 1 < 2)
      simp [hmessage, handleTransaction]
    | transactionProcessed =>
      cases hlog : context.logInfo with
      | false => simp
      | true =>
        obtain ⟨message, hmessage⟩ := @htoken 1 (by simp [tokensUsed, hlog])
        simp [hmessage]
    | consensusSession =>
      obtain ⟨message, hmessage⟩ := htoken (by decide : 1 < 2)
      simp [hmessage, consensusSessionResponse]
    | consensus =>
      obtain ⟨message, hmessage⟩ := htoken (by decide : 1 < 2)
      simp [hmessage, consensusResponse]
    | close =>
      obtain ⟨message, hmessage⟩ := htoken (by decide : 1 < 2)
      simp [hmessage, closeResponse]
    | hello => trivial
    | route => trivial
    | routeUpdate => trivial
    | services => trivial

theorem getElem?_of_tooFew {command : RpcCommand} (hcommand : commandOf data = some command)
    (h : TooFewTokens context data) :
    (tokenize data)[tokensUsed context (some command) - 1]? = none := by
  rw [TooFewTokens, hcommand] at h
  exact List.getElem?_eq_none (Nat.le_sub_one_of_lt h)

theorem not_tooFew_of_one (h : tokensUsed context (commandOf data) = 1) :
    ¬ TooFewTokens context data := by
  rw [TooFewTokens, h, Nat.not_lt]
  exact List.length_pos_iff.mpr (List.splitOn_ne_nil space data)

/-- A branch reads behind the tokens when there are fewer than it uses. -/
theorem ends_dispatch_of_tooFew (h : TooFewTokens context data) :
    Ends (dispatch context answers data) (fun _ _ => False)
      (fun failure _ => failure = .missingToken) consume := by
  unfold dispatch
  have hone := fun hused => not_tooFew_of_one context hused h
  cases hcommand : commandOf data with
  | none =>
    rw [hcommand] at hone
    exact absurd rfl hone
  | some command =>
    have htoken := getElem?_of_tooFew context hcommand h
    rw [hcommand] at hone
    cases command with
    | helloConsensus => simp [show (tokenize data)[2]? = none from htoken]
    | goAway => simp [show (tokenize data)[1]? = none from htoken]
    | accepted =>
      cases hpeered : context.peered with
      | false => exact absurd (by simp [tokensUsed, hpeered]) hone
      | true =>
        simp only [tokensUsed, hpeered] at htoken
        simp [show (tokenize data)[1]? = none from htoken]
    | peers => simp [show (tokenize data)[1]? = none from htoken]
    | register => simp [show (tokenize data)[1]? = none from htoken]
    | transaction => simp [show (tokenize data)[1]? = none from htoken]
    | transactionProcessed =>
      cases hlog : context.logInfo with
      | false => exact absurd (by simp [tokensUsed, hlog]) hone
      | true =>
        simp only [tokensUsed, hlog] at htoken
        simp [show (tokenize data)[1]? = none from htoken]
    | consensusSession => simp [show (tokenize data)[1]? = none from htoken]
    | consensus => simp [show (tokenize data)[1]? = none from htoken]
    | close => simp [show (tokenize data)[1]? = none from htoken]
    | hello => exact absurd rfl hone
    | route => exact absurd rfl hone
    | routeUpdate => exact absurd rfl hone
    | services => exact absurd rfl hone

/-- A token that is no hexadecimal text makes the branch that decodes it throw. -/
theorem ends_dispatch_of_undecoded (htokens : ¬ TooFewTokens context data) {index : ℕ}
    {payload : Bytes} (hindex : index ∈ payloadTokens (commandOf data))
    (hpayload : (tokenize data)[index]? = some payload)
    (hdecode : context.hex.hexDecode payload = none) :
    Ends (dispatch context answers data) (fun _ _ => False) (fun failure _ => failure = .thrown)
      consume := by
  unfold dispatch
  cases hcommand : commandOf data with
  | none =>
    rw [hcommand] at hindex
    exact absurd hindex List.not_mem_nil
  | some command =>
    have htoken := @getElem?_of_tokens context data command hcommand htokens
    rw [hcommand] at hindex
    cases command with
    | helloConsensus =>
      obtain ⟨first, hfirst⟩ := htoken (by decide : 1 < 3)
      obtain ⟨second, hsecond⟩ := htoken (by decide : 2 < 3)
      rcases List.mem_pair.mp hindex with rfl | rfl
      · rw [hfirst, Option.some.injEq] at hpayload
        simp [hfirst, hsecond, hpayload, helloConsensusResponse, hdecode]
      · rw [hsecond, Option.some.injEq] at hpayload
        simp [hfirst, hsecond, hpayload, helloConsensusResponse, hdecode]
    | peers =>
      obtain rfl := List.mem_singleton.mp hindex
      simp [hpayload, peerResponse, hdecode]
    | register =>
      obtain rfl := List.mem_singleton.mp hindex
      simp [hpayload, registerResponse, hdecode]
    | transaction =>
      obtain rfl := List.mem_singleton.mp hindex
      simp [hpayload, handleTransaction, hdecode]
    | consensusSession =>
      obtain rfl := List.mem_singleton.mp hindex
      simp [hpayload, consensusSessionResponse, hdecode]
    | consensus =>
      obtain rfl := List.mem_singleton.mp hindex
      simp [hpayload, consensusResponse, hdecode]
    | _ => exact absurd hindex List.not_mem_nil

end Tokens

section Transactions

/-- Every thread holds the invariant of the transaction service or the wrapper of a
commit that threw. -/
theorem inv_or_stuck (operations : List (Operation ρ)) :
    Inv (run step Thread.empty operations) ∨ (run step Thread.empty operations).Stuck := by
  rcases invariant_or_stuck step inv_step stuck_of_throws stuck_step inv_empty operations with
    ⟨_, hinv⟩ | ⟨_, hstuck⟩
  · exact Or.inl hinv
  · exact Or.inr hstuck

theorem inv_opened {thread : Thread ρ} (h : Inv thread) (handling : Handling ρ) :
    Inv (opened handling thread) := by
  have henlist : ∀ (resources : List ρ) (thread : Thread ρ), Inv thread →
      Inv (run step thread (resources.map .enlistResource)) := by
    intro resources
    induction resources with
    | nil => exact fun thread hthread => hthread
    | cons resource resources ih => exact fun thread hthread => ih _ (hthread.enlisted resource)
  exact henlist handling.enlisted _ h.created

theorem transactions_destroy (number : ℕ) (thread : Thread ρ) :
    (step (.destroy number) thread).service.transactions number = none := by
  have hgone : ((Operation.destroy number).effect thread.service).state.transactions number =
      none := by
    simp [Operation.effect, TransactionImpl.destroy, ServiceState.setTransaction]
  cases hwrapper : thread.service.transactionWrapper with
  | none =>
    rw [step_of_none _ hwrapper]
    exact hgone
  | some wrapper =>
    simp only [step, hwrapper]
    exact hgone

/-- A transaction that is destroyed has ended. -/
theorem ended_destroy {thread : Thread ρ} (h : Inv thread) (number : ℕ) :
    Settled (step (.destroy number) thread) number ∧
      ∀ wrapper, (step (.destroy number) thread).service.transactionWrapper = some wrapper →
        wrapper.transaction ≠ number := by
  have hinv := inv_step (.destroy number) thread h trivial
  have hoff : ∀ wrapper, (step (.destroy number) thread).service.transactionWrapper =
      some wrapper → wrapper.transaction ≠ number := by
    intro wrapper hwrapper hnumber
    have hlive := hinv.consistent.wrapped wrapper hwrapper
    rw [hnumber, transactions_destroy] at hlive
    exact absurd hlive (by simp)
  exact ⟨hinv.settled number hoff, hoff⟩

/-- A handler that throws has its transaction ended. -/
theorem transactionEnded_of_throws {context : ClientContext} {handling : Handling ρ}
    {data : Bytes} {operations : List (Operation ρ)}
    (h : commits context (answersOn handling (run step Thread.empty operations)) data = false) :
    TransactionEnded (run step Thread.empty operations)
      (threadAfter context handling data (run step Thread.empty operations)) := by
  have hreached := inv_or_stuck operations
  generalize run step Thread.empty operations = thread at h hreached ⊢
  intro hcreates
  have hcreated : (answersOn handling thread).createTransaction = true :=
    Option.isNone_iff_eq_none.mpr hcreates
  rw [threadAfter, if_pos hcreated, h]
  rcases hreached with hinv | ⟨hwrapped, _⟩
  · exact ended_destroy (inv_opened hinv handling) thread.service.created
  · obtain ⟨wrapper, hwrapper⟩ := Option.ne_none_iff_exists'.mp hwrapped
    rw [Operation.effect_createTransaction_some hwrapper] at hcreates
    exact absurd hcreates (by simp)

end Transactions

section Frames

variable {context : ClientContext} {parsers : Parsers} {data : Bytes}

/-- The `try` block around a branch that throws exceptions only. -/
theorem ends_handleFrame {answers : ClientAnswers} {returned : Prop}
    (h : Ends (dispatch context answers data) (fun _ _ => returned)
      (fun failure _ => failure = .thrown) consume) :
    Ends (handleFrame context answers data) (fun _ _ => returned)
      (fun failure _ => failure = .thrown) consume := by
  cases hcreate : answers.createTransaction with
  | false => simp [handleFrame, hcreate]
  | true =>
    simp only [handleFrame, hcreate, Bool.not_true, Bool.false_eq_true, if_false, ends_bind]
    refine h.mono (fun branch session hreturned => ?_) fun _ _ hfailure => hfailure
    by_cases hthrows : branch ≠ .returns ∧ answers.commit = false
    · simp [hthrows]
    · simp [hthrows, hreturned]

/-- A frame whose tokens are there is handled without one that is not. -/
theorem onRead_ne_none (answers : ClientAnswers) (h : ¬ TooFewTokens context data) :
    onRead context answers data ≠ none := by
  have hframe := ends_handleFrame (ends_dispatch_of_tokens context answers h)
  refine (onRead_iff context (· ≠ none) answers data).mpr
    (hframe.mono (fun _ _ _ => by simp) fun failure _ hfailure => ?_)
  simp [hfailure]

/-- A handler that throws is an error, after which the session reads on. -/
theorem treatsAsError_of_throws {handling : Handling ρ} {operations : List (Operation ρ)}
    (h : Ends (dispatch context (answersOn handling (run step Thread.empty operations)) data)
      (fun _ _ => False) (fun failure _ => failure = .thrown) consume) :
    TreatsAsError context handling data (run step Thread.empty operations) := by
  have hframe := ends_handleFrame h
  refine ⟨?_, ?_, transactionEnded_of_throws ?_⟩
  · cases hcase : handleFrame context (answersOn handling (run step Thread.empty operations))
        data consume with
    | ok goesOn session => exact ((ends_of_ok hcase).mp hframe).elim
    | error failure session =>
      obtain rfl := (ends_of_error hcase).mp hframe
      exact ⟨session, rfl⟩
  · refine (onRead_iff context (fun handled => ∃ session, handled = some session ∧
      .read ∈ session.acts) _ data).mpr (hframe.mono (fun _ _ hreturned => hreturned.elim) ?_)
    intro failure session hfailure
    rw [if_pos hfailure]
    exact ⟨_, rfl, by simp [startRead]⟩
  · rw [commits]
    cases hcase : dispatch context (answersOn handling (run step Thread.empty operations))
        data consume with
    | ok branch session => exact ((ends_of_ok hcase).mp h).elim
    | error failure session => rfl

def PayloadParses (context : ClientContext) (parsers : Parsers) (data : Bytes) : Prop :=
  ∀ payload bytes, (tokenize data)[1]? = some payload →
    context.hex.hexDecode payload = some bytes → parsers.parse (commandOf data) bytes = true

/-- Only two branches take their payload for a message that may not be in it. -/
theorem command_of_not_parse {bytes : Bytes} (h : parsers.parse (commandOf data) bytes = false) :
    commandOf data = some .transaction ∨ commandOf data = some .peers := by
  unfold Parsers.parse at h
  split at h
  · exact Or.inl ‹_›
  · exact Or.inr ‹_›
  · cases h

/-- An undecodable payload whose messages parse is no hexadecimal text. -/
theorem undecoded_of_parses (hparses : PayloadParses context parsers data)
    (h : Undecodable context parsers data) :
    ∃ index ∈ payloadTokens (commandOf data), ∃ payload,
      (tokenize data)[index]? = some payload ∧ context.hex.hexDecode payload = none := by
  obtain ⟨index, hindex, payload, hpayload, hfails⟩ := h
  refine ⟨index, hindex, payload, hpayload, Option.eq_none_iff_forall_not_mem.mpr ?_⟩
  intro bytes hbytes
  have hnot := hfails bytes hbytes
  have hone : index = 1 := by
    rcases command_of_not_parse hnot with hcommand | hcommand
    · rw [hcommand] at hindex
      exact List.mem_singleton.mp hindex
    · rw [hcommand] at hindex
      exact List.mem_singleton.mp hindex
  rw [hone] at hpayload
  rw [hparses payload bytes hpayload hbytes] at hnot
  cases hnot

def answered : Handling Unit :=
  ⟨⟨true, true, some [], some [], some [], true⟩, [], fun _ => false⟩

theorem answersOn_answered : answersOn answered Thread.empty = answered.answers := rfl

/-- With modules that answer, a payload that is hexadecimal text is no error. -/
theorem ends_handleFrame_of_answered {payload bytes : Bytes}
    (hcommand : commandOf data = some .transaction ∨ commandOf data = some .peers)
    (hpayload : (tokenize data)[1]? = some payload)
    (hdecode : context.hex.hexDecode payload = some bytes) :
    Ends (handleFrame context answered.answers data) (fun _ _ => True) (fun _ _ => False)
      consume := by
  rcases hcommand with hcommand | hcommand
  · simp [handleFrame, dispatch, hcommand, hpayload, handleTransaction, hdecode, answered]
  · simp [handleFrame, dispatch, hcommand, hpayload, peerResponse, hdecode, answered]

/-- A frame is survived exactly when its tokens are there and the message in its payload
parses. -/
theorem survivesFrame_iff (context : ClientContext) (parsers : Parsers) (data : Bytes) :
    SurvivesFrame context parsers data ↔
      ¬ TooFewTokens context data ∧ PayloadParses context parsers data := by
  constructor
  · intro hsurvives
    obtain ⟨hread, herror⟩ := hsurvives Unit [] answered
    have hanswers : answersOn answered (run step Thread.empty []) = answered.answers :=
      answersOn_answered
    constructor
    · intro hfew
      have hmissing := ends_dispatch_of_tooFew context answered.answers hfew
      have hframe : Ends (handleFrame context answered.answers data) (fun _ _ => False)
          (fun failure _ => failure = .missingToken) consume := by
        simp only [handleFrame, answered, Bool.not_true, Bool.false_eq_true, if_false, ends_bind]
        exact hmissing.mono (fun _ _ hreturned => hreturned.elim) fun _ _ hfailure => hfailure
      rw [hanswers] at hread
      refine hread ((onRead_iff context (· = none) _ data).mpr (hframe.mono ?_ ?_))
      · exact fun _ _ hreturned => hreturned.elim
      · intro failure session hfailure
        simp [hfailure]
    · intro payload bytes hpayload hdecode
      rw [← Bool.not_eq_false]
      intro hnot
      have hcommand := command_of_not_parse hnot
      have hindex : 1 ∈ payloadTokens (commandOf data) := by
        rcases hcommand with hcommand | hcommand
        · rw [hcommand]
          exact List.mem_singleton_self 1
        · rw [hcommand]
          exact List.mem_singleton_self 1
      have hundecodable : Undecodable context parsers data := by
        refine ⟨1, hindex, payload, hpayload, fun other hother => ?_⟩
        obtain rfl := Option.some.inj (hdecode.symm.trans hother)
        exact hnot
      obtain ⟨⟨session, hthrown⟩, _⟩ := herror (Or.inr hundecodable)
      rw [hanswers] at hthrown
      exact (ends_of_error hthrown).mp (ends_handleFrame_of_answered hcommand hpayload hdecode)
  · intro hholds ρ operations handling
    obtain ⟨htokens, hparses⟩ := hholds
    refine ⟨onRead_ne_none _ htokens, fun hmalformed => treatsAsError_of_throws ?_⟩
    obtain ⟨index, hindex, payload, hpayload, hdecode⟩ :=
      undecoded_of_parses hparses (hmalformed.resolve_left htokens)
    exact ends_dispatch_of_undecoded context _ htokens hindex hpayload hdecode

end Frames

def peeredContext : ClientContext :=
  ⟨⟨.botan, ⟨fun _ => [], fun _ => ⟨1, [], [], .transaction, .init, .other⟩, id⟩⟩, [9], true, false⟩

def lenient : Parsers := ⟨fun _ => true, fun _ => true⟩

/-- The frame of the one word `ACCEPTED` has the session read behind its tokens. -/
theorem one_word_frame :
    onRead peeredContext answered.answers RpcCommand.accepted.name = none ∧
    ¬ SurvivesFrame peeredContext lenient RpcCommand.accepted.name := by
  have hnone : onRead peeredContext answered.answers RpcCommand.accepted.name = none := by
    decide +kernel
  refine ⟨hnone, fun hsurvives => ?_⟩
  obtain ⟨hread, _⟩ := hsurvives Unit [] answered
  exact hread hnone

end Keto.Rpc.MalformedFrames
