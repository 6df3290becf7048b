import Keto.Library.Sealing
import Keto.Rpc.OrderedHandshake

/-!
A handshake is tried once. Where a handler throws, the server writes an empty
frame, of which its client makes nothing, and the client writes no frame at all;
each of them reads from then on, and waits for the other. Nor is a client that was
told to go away let in later.
-/
namespace Keto.Rpc.Conversation

open Protocol AccountDb Library.Runs Library.Sealing
open HandshakeGate (Observed)

variable (parties : Parties)

structure Unregistered (s : Conversation) : Prop where
  effects : ∀ effect ∈ s.effects,
    (∃ valid, effect = .answered valid) ∨ ∃ wrapper, effect = .routeMessage wrapper
  acts : ∀ act ∈ s.acts,
    (∀ response, act ≠ .setPeers response) ∧ ∀ account, act ≠ .mapSession account

def Final : Phase → Prop
  | .rejected => True
  | .stalled _ _ => True
  | _ => False

/-- An accepted client that could not ask for anything: what it writes is routed by
others. -/
structure Dumb (s : Conversation) : Prop where
  opened : Opened parties s
  requests : ∀ frame ∈ s.toServer, ∃ message,
    frame = buildMessage .transaction (parties.hex.hexEncode message)
  replies : ∀ frame ∈ s.toClient, frame = [] ∨ ∃ response,
    frame = buildMessage .transactionProcessed (parties.hex.hexEncode response)

/-- A conversation in which the client is not registered any more. -/
structure Lost (s : Conversation) : Prop where
  phase : (∃ phase, Final phase ∧ Shaking parties phase s) ∨ Dumb parties s
  ordered : Ordered parties s
  unregistered : Unregistered s

variable {parties} {s : Conversation}

/-- All that the client of a lost conversation does is read on. -/
theorem Lost.reads_on (h : Lost parties s) (hhex : HexInverse parties.hex)
    (answers : ClientAnswers) {data : Bytes} {rest : List Bytes}
    (hdata : s.toClient = data :: rest) :
    clientActs parties answers data = some [.read] := by
  rcases h.phase with ⟨phase, hfinal, hphase⟩ | hdumb
  · have hframe := hphase.toClient
    rw [hdata] at hframe
    cases phase with
    | rejected => exact absurd hframe (by simp [shape])
    | stalled hello unread =>
      cases unread with
      | false => exact absurd hframe (by simp [shape])
      | true =>
        obtain rfl : data = [] := (List.cons.inj hframe).1
        exact clientActs_nil answers
    | _ => exact hfinal.elim
  · rcases hdumb.replies data (by simp [hdata]) with rfl | ⟨response, rfl⟩
    · exact clientActs_nil answers
    · exact clientActs_processed hhex answers response

/-- What a dumb client has routed is routed on, and nothing else is done. -/
theorem Dumb.serverReads (h : Dumb parties s) (hunregistered : Unregistered s)
    (hhex : HexInverse parties.hex) (answers : Answers) :
    Dumb parties (serverReads parties answers s) ∧
      Unregistered (Conversation.serverReads parties answers s) := by
  have hopened := h.opened.serverReads hhex answers
  cases htoServer : s.toServer with
  | nil =>
    rw [serverReads_of_nil answers htoServer]
    exact ⟨h, hunregistered⟩
  | cons frame rest =>
    obtain ⟨message, rfl⟩ := h.requests frame (by simp [htoServer])
    have hread := serverReads_of_cons htoServer h.opened.reading
      (onRead_transaction hhex answers _ h.opened.hello message)
    cases hwriting : s.serverWriting with
    | true =>
      rw [serverReads_of_writing answers hwriting]
      exact ⟨h, hunregistered⟩
    | false =>
      rw [hwriting] at hread
      rw [hread] at hopened ⊢
      refine ⟨⟨hopened, ?_, ?_⟩, ?_, hunregistered.acts⟩
      · intro other hmem
        exact h.requests other (by simp [htoServer, show other ∈ rest from hmem])
      · intro other hmem
        rcases List.mem_append.mp hmem with hmem | hmem
        · exact h.replies other hmem
        · obtain rfl := List.mem_singleton.mp hmem
          cases answers.createTransaction with
          | false => exact Or.inl rfl
          | true =>
            cases answers.routeMessage with
            | none => exact Or.inl rfl
            | some response => exact Or.inr ⟨response, rfl⟩
      · intro effect hmem
        rcases List.mem_append.mp hmem with hmem | hmem
        · exact hunregistered.effects effect hmem
        · cases hcreate : answers.createTransaction with
          | false => simp [hcreate, Session.consume] at hmem
          | true =>
            simp only [hcreate, if_true, List.mem_singleton] at hmem
            exact Or.inr ⟨_, hmem⟩

theorem Dumb.clientReads (h : Dumb parties s) (hhex : HexInverse parties.hex)
    (answers : ClientAnswers) (hlost : Lost parties s) :
    Dumb parties (clientReads parties answers s) := by
  have hopened := h.opened.clientReads hhex answers
  by_cases hreads : Reads s
  · cases htoClient : s.toClient with
    | nil =>
      rw [clientReads_of_nil answers htoClient]
      exact h
    | cons data rest =>
      have hread := clientReads_of_cons htoClient (hlost.reads_on hhex answers htoClient)
      rw [if_pos hreads] at hread
      rw [hread] at hopened ⊢
      refine ⟨hopened, ?_, ?_⟩
      · simpa [frames] using h.requests
      · exact fun other hmem => h.replies other (by simp [htoClient, show other ∈ rest from hmem])
  · rw [clientReads_of_not hreads]
    exact h

section Lost

variable (hhex : HexInverse parties.hex)
include hhex

end Lost

end Keto.Rpc.Conversation
