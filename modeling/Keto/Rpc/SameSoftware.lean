import Keto.Consensus.SessionKeys
import Keto.Rpc.Conversation

/-!
The handshake between nodes with the same software. The server sends the key that its
modules were given last; the client gives it to its own modules and proves itself with
what they answer. It is accepted whatever keys either node had before, provided that
the server's modules were last given the same key when the proof comes in.
-/
namespace Keto.Rpc

open Protocol AccountDb Library.Runs Consensus Consensus.ModuleSessions
open Consensus.ConsensusHashGenerator (KeyTools ChaiScriptSession Generator Matches plainTools
  oneScript initInstance)
open Conversation

/-- What the consensus module of a client uses beside the answers of the modules, and
the protobuf message of a consensus. -/
structure Prover where
  date : Bytes
  generateHash : Bytes → Hash
  generator : Hash → Bytes
  serialize : ConsensusMessage → Bytes
  parse : Bytes → ConsensusMessage

variable {PrivateKey : Type} (tools : KeyTools PrivateKey)
  (eval : ConsensusEvent → ChaiScriptSession → Bytes → Option Bytes)
  (parties : Parties) (prover : Prover)

/-- `buildConsensus` of the client, for the hash that the server sent. -/
def builtConsensus (client : ModuleSessions) : Except ConsensusException ConsensusMessage :=
  ConsensusBuilder.buildConsensus
    ⟨parties.clientAccount, prover.date, prover.generateHash, prover.generator,
      client.seedOf eval⟩ (client.respond eval) parties.serverAccount

def softwareConsensus (client : ModuleSessions) : Option Bytes :=
  match builtConsensus eval parties prover client with
  | .ok message => some (prover.serialize message)
  | .error _ => none

def softwareValidity (server : ModuleSessions) (consensus : Bytes) : Option Bool :=
  match ConsensusBuilder.validateConsensus (server.respond eval) (prover.parse consensus) with
  | .ok valid => some valid
  | .error _ => none

/-- The server answers the hello and the proof of the client, which answers its challenge. -/
structure Accepts (answers answers' : Answers) (clientAnswers : ClientAnswers)
    (sessionKey consensus : Bytes) : Prop where
  challenged : Session.onRead parties.serverContext answers parties.helloFrame Session.start =
    (.writes, ⟨some parties.greeting, parties.challenge, []⟩)
  proved : clientActs parties clientAnswers parties.challenge =
    some (.updateSessionKey sessionKey :: sends clientAnswers (parties.proof consensus))
  accepted : Session.onRead parties.serverContext answers' (parties.proof consensus)
      ⟨some parties.greeting, [], []⟩ =
    (.writes, ⟨some parties.greeting, verdict true, [.answered true]⟩)

variable {tools eval parties prover}

/-- Whatever keys both nodes were given before, a client with the software of its
server is accepted where the server's modules have the key of the challenge. -/
theorem accepted_with_same_software (hhex : HexInverse parties.hex)
    {client server : ModuleSessions} (hsame : SameSoftware server client) {sessionKey : Bytes}
    (hopens : Opens tools sessionKey server) (hserving : server.running .rpcServer = true)
    (hbuilding : server.running .consensusQuery = true)
    {clientKeys keysAtHello keysAtProof : List Bytes}
    (hsecret : parties.secret =
      (run (updateSessionKey tools) server (keysAtHello ++ [sessionKey])).secret)
    (hseed : (updateSessionKey tools sessionKey server).seedOf eval parties.serverAccount ≠ none)
    (hproto : ∀ message, builtConsensus eval parties prover
        (updateSessionKey tools parties.secret (run (updateSessionKey tools) client clientKeys)) =
          .ok message → prover.parse (prover.serialize message) = message)
    {answers answers' : Answers} {clientAnswers : ClientAnswers}
    (hcreate : answers.createTransaction = true) (hcreate' : answers'.createTransaction = true)
    (hclient : clientAnswers.createTransaction = true)
    (hconsensus : clientAnswers.consensus = softwareConsensus eval parties prover
      (updateSessionKey tools parties.secret (run (updateSessionKey tools) client clientKeys)))
    (hvalidity : ∀ consensus, clientAnswers.consensus = some consensus →
      answers'.validateConsensus = softwareValidity eval prover
        (run (updateSessionKey tools) server (keysAtProof ++ [sessionKey])) consensus) :
    ∃ consensus, Accepts parties answers answers' clientAnswers sessionKey consensus := by
  have hkey : parties.secret = sessionKey := by
    rw [hsecret, run_concat]
    refine secret_updateSessionKey tools sessionKey _ ?_
    exact (SameSoftware.run keysAtHello server).running ▸ hserving
  rw [hkey] at hconsensus hproto
  let client' := updateSessionKey tools sessionKey (run (updateSessionKey tools) client clientKeys)
  have hclientSame : SameSoftware server (run (updateSessionKey tools) client clientKeys) :=
    hsame.trans (SameSoftware.run clientKeys client)
  have hrespond : client'.respond eval =
      (run (updateSessionKey tools) server (keysAtProof ++ [sessionKey])).respond eval := by
    have hserver : SameSoftware server (run (updateSessionKey tools) server keysAtProof) :=
      SameSoftware.run keysAtProof server
    rw [run_concat]
    exact respond_updateSessionKey (hclientSame.symm.trans hserver) (hopens.congr hclientSame)
  have hseed' : client'.seedOf eval parties.serverAccount ≠ none :=
    seedOf_updateSessionKey hclientSame hopens hbuilding parties.serverAccount ▸ hseed
  obtain ⟨seed, hseedOf⟩ := Option.ne_none_iff_exists'.mp hseed'
  obtain ⟨message, hbuilt⟩ : ∃ message, builtConsensus eval parties prover client' = .ok message :=
    ConsensusBuilder.buildConsensus_isOk _ hseedOf
  obtain ⟨consensus, hmsg, _⟩ := ConsensusBuilder.buildConsensus_eq_ok hbuilt
  have hproof : clientAnswers.consensus = some (prover.serialize message) := by
    rw [hconsensus, softwareConsensus, hbuilt]
  have hvalid : answers'.validateConsensus = some true := by
    have haccepted := ConsensusBuilder.validateConsensus_built hbuilt hmsg hmsg rfl
      (List.Perm.refl _)
    rw [hvalidity _ hproof, softwareValidity, hproto message hbuilt, ← hrespond, haccepted]
  refine ⟨prover.serialize message, ?_, ?_, ?_⟩
  · rw [onRead_hello hhex, if_pos hcreate]
  · rw [clientActs_challenge hhex, if_pos hclient, hproof, hkey]
  · rw [onRead_proof hhex answers' _ rfl, if_pos hcreate', hvalid]

def oneScriptNode : ModuleSessions where
  running := fun _ => true
  generators := fun _ => initInstance oneScript
  services := ⟨initInstance oneScript, initInstance oneScript⟩
  secret := []

def codeScript (_module : ConsensusEvent) (session : ChaiScriptSession) (code : Bytes) :
    Option Bytes :=
  some (session.seed ++ session.previousHash ++ code)

def softwareParties : Parties :=
  ⟨plainContext.toCodec, [5], [9], [1], [1], true, false, false⟩

def oneMessageProver (message : ConsensusMessage) : Prover where
  date := []
  generateHash := id
  generator := id
  serialize := fun _ => []
  parse := fun _ => message

def rotatedClient : ModuleSessions :=
  updateSessionKey plainTools [5] (run (updateSessionKey plainTools) oneScriptNode [[9]])

theorem accepted_with_same_software_rotated :
    ∃ message consensus,
      Accepts softwareParties (answering true)
        { answering true with
          validateConsensus := softwareValidity codeScript (oneMessageProver message)
            (run (updateSessionKey plainTools) oneScriptNode ([[8], [6]] ++ [[5]])) [] }
        ⟨true, true, softwareConsensus codeScript softwareParties (oneMessageProver message)
          rotatedClient, none, none, true⟩ [5] consensus := by
  have hmatches : Matches plainTools [5] (initInstance oneScript) :=
    ⟨⟨[7], [4], [1, 7]⟩, List.mem_cons_self, by decide⟩
  have hopens : Opens plainTools [5] oneScriptNode := by
    refine ⟨fun moduleEvent _ => ?_, fun _ => hmatches⟩
    cases moduleEvent <;> exact hmatches
  have hsecret : softwareParties.secret =
      (run (updateSessionKey plainTools) oneScriptNode ([[6]] ++ [[5]])).secret := by
    decide +kernel
  have hseed : (updateSessionKey plainTools [5] oneScriptNode).seedOf codeScript
      softwareParties.serverAccount ≠ none := Option.some_ne_none _
  obtain ⟨message, hbuilt⟩ := @ConsensusBuilder.buildConsensus_isOk
    ⟨softwareParties.clientAccount, [], id, id, rotatedClient.seedOf codeScript⟩
    softwareParties.serverAccount _ (rotatedClient.respond codeScript) rfl
  have hproto : ∀ found, builtConsensus codeScript softwareParties (oneMessageProver message)
      rotatedClient = .ok found →
        (oneMessageProver message).parse ((oneMessageProver message).serialize found) = found :=
    fun found hfound => Except.ok.inj (hbuilt.symm.trans hfound)
  let rotatedServer := run (updateSessionKey plainTools) oneScriptNode ([[8], [6]] ++ [[5]])
  have hvalidity : ∀ consensus, softwareConsensus codeScript softwareParties
      (oneMessageProver message) rotatedClient = some consensus →
        softwareValidity codeScript (oneMessageProver message) rotatedServer [] =
          softwareValidity codeScript (oneMessageProver message) rotatedServer consensus :=
    fun _ _ => rfl
  exact ⟨message, accepted_with_same_software hexInverse_botan ⟨rfl, fun _ => rfl, rfl⟩ hopens
    rfl rfl hsecret hseed hproto rfl rfl rfl rfl hvalidity⟩

end Keto.Rpc
