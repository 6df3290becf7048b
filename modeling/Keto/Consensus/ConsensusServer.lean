import Keto.AccountDb.HexCodec
import Keto.Consensus.SessionKeys
import Mathlib.Algebra.Ring.Int.Defs
import Mathlib.Algebra.Ring.Nat
import Mathlib.Data.List.Chain

/-!
The timer of the consensus module. The first tick gives the modules the first of the
configured keys, and a tick that finds the last change three hours old or older the next
one, in turn. A key that is not hexadecimal ends the thread of the timer.
-/
namespace Keto.Consensus

open Protocol AccountDb Library.Runs ConsensusHashGenerator ModuleSessions

/-- A time point is a number of nanoseconds. -/
structure ConsensusServer where
  sessionKeys : List Bytes
  currentPos : ℤ
  timePoint : ℤ
  deriving DecidableEq, Repr

namespace ConsensusServer

def hour : ℤ := 3600 * 1000000000

def init (sessionKeys : List Bytes) (now : ℤ) : ConsensusServer := ⟨sessionKeys, -1, now⟩

/-- The timer is started if there is a key. -/
def require (server : ConsensusServer) : Bool := server.sessionKeys.length ≠ 0

/-- `duration_cast` to hours, which rounds towards zero. -/
def hoursOf (duration : ℤ) : ℤ := duration.tdiv hour

def nextPos (server : ConsensusServer) : ℤ :=
  if (server.sessionKeys.length : ℤ) ≤ server.currentPos + 1 then 0 else server.currentPos + 1

def due (currentTime : ℤ) (server : ConsensusServer) : Bool :=
  server.currentPos = -1 || 2 < hoursOf (currentTime - server.timePoint)

/-- A node with its timer. `changes` is the history of the key with the times of the ticks. -/
structure TimedNode where
  server : ConsensusServer
  sessions : ModuleSessions
  changes : List (ℤ × Bytes)

variable {PrivateKey : Type} (tools : KeyTools PrivateKey) (hex : HexCodec)

def process (currentTime : ℤ) (node : TimedNode) : Option TimedNode :=
  if node.server.due currentTime then do
    let pos := node.server.nextPos
    let initVector ← hex.hexDecode (node.server.sessionKeys.getD pos.toNat [])
    return {
      server := { node.server with currentPos := pos, timePoint := currentTime }
      sessions := updateSessionKey tools initVector node.sessions
      changes := node.changes ++ [(currentTime, initVector)] }
  else some node

def ticks (node : TimedNode) (times : List ℤ) : Option TimedNode :=
  times.foldlM (fun node currentTime => process tools hex currentTime node) node

/-- Three hours are reached when more than two whole hours are. -/
theorem two_lt_hoursOf_iff (duration : ℤ) : 2 < hoursOf duration ↔ 3 * hour ≤ duration := by
  rw [hoursOf, hour]
  rcases Int.le_total 0 duration with hnonneg | hnonpos
  · rw [Int.tdiv_eq_ediv_of_nonneg hnonneg]
    omega
  · obtain ⟨d, rfl⟩ : ∃ d, duration = -d := ⟨-duration, by omega⟩
    have hpos : 0 ≤ d := by omega
    rw [Int.neg_tdiv, Int.tdiv_eq_ediv_of_nonneg hpos]
    omega

theorem due_iff (currentTime : ℤ) (server : ConsensusServer) :
    server.due currentTime = true ↔
      server.currentPos = -1 ∨ server.timePoint + 3 * hour ≤ currentTime := by
  rw [due, Bool.or_eq_true, decide_eq_true_eq, decide_eq_true_eq, two_lt_hoursOf_iff]
  have hshift : 3 * hour ≤ currentTime - server.timePoint ↔
      server.timePoint + 3 * hour ≤ currentTime := by omega
  rw [hshift]

def keyAt (keys : List Bytes) (n : ℕ) : Bytes := keys.getD (n % keys.length) []

/-- What holds after any ticks: the keys were given in turn, three hours apart. -/
structure Scheduled (sessionKeys keys : List Bytes) (sessions : ModuleSessions)
    (node : TimedNode) : Prop where
  kept : node.server.sessionKeys = sessionKeys
  position : node.server.currentPos =
    if node.changes = [] then -1 else (((node.changes.length - 1) % keys.length : ℕ) : ℤ)
  order : node.changes.map Prod.snd = (List.range node.changes.length).map (keyAt keys)
  timePoint : ∀ e ∈ node.changes.getLast?, node.server.timePoint = e.1
  spaced : node.changes.IsChain fun e f => e.1 + 3 * hour ≤ f.1
  sessions : node.sessions = run (updateSessionKey tools) sessions (node.changes.map Prod.snd)

variable {tools hex} {sessionKeys keys : List Bytes} {sessions : ModuleSessions}

theorem scheduled_init (start : ℤ) :
    Scheduled tools sessionKeys keys sessions ⟨init sessionKeys start, sessions, []⟩ :=
  ⟨rfl, rfl, rfl, by simp, List.IsChain.nil, rfl⟩

theorem succ_mod_eq_ite (n : ℕ) {k : ℕ} (hk : 0 < k) :
    (n + 1) % k = if k ≤ n % k + 1 then 0 else n % k + 1 := by
  have hlt := Nat.mod_lt n hk
  rw [← Nat.mod_add_mod]
  split
  · next hle =>
    have heq : n % k + 1 = k := by omega
    rw [heq, Nat.mod_self]
  · next hnot => exact Nat.mod_eq_of_lt (Nat.lt_of_not_le hnot)

/-- The next position is that of the next change. -/
theorem Scheduled.nextPos_eq {node : TimedNode}
    (h : Scheduled tools sessionKeys keys sessions node)
    (hlength : sessionKeys.length = keys.length) (hne : keys ≠ []) :
    node.server.nextPos = ((node.changes.length % keys.length : ℕ) : ℤ) := by
  have hpos : 0 < keys.length := List.length_pos_iff.mpr hne
  rw [nextPos, h.kept, hlength, h.position]
  by_cases hnone : node.changes = []
  · simp [hnone]
  · obtain ⟨n, hn⟩ : ∃ n, node.changes.length = n + 1 :=
      ⟨_, (Nat.succ_pred_eq_of_pos (List.length_pos_iff.mpr hnone)).symm⟩
    rw [if_neg hnone, hn, Nat.add_sub_cancel, succ_mod_eq_ite n hpos]
    split <;> split <;> omega

/-- The key of the next change is there and hexadecimal. -/
theorem Scheduled.hexDecode_eq {node : TimedNode}
    (h : Scheduled tools sessionKeys keys sessions node)
    (hkeys : sessionKeys.map hex.hexDecode = keys.map some) (hne : keys ≠ []) :
    hex.hexDecode (node.server.sessionKeys.getD node.server.nextPos.toNat []) =
      some (keyAt keys node.changes.length) := by
  have hlength : sessionKeys.length = keys.length := by
    simpa using congrArg List.length hkeys
  have hlt := Nat.mod_lt node.changes.length (List.length_pos_iff.mpr hne)
  rw [h.nextPos_eq hlength hne, Int.toNat_natCast, h.kept, keyAt]
  generalize node.changes.length % keys.length = n at hlt
  have hget := congrArg (fun l => l[n]?) hkeys
  simp only [List.getElem?_map, List.getElem?_eq_getElem hlt,
    List.getElem?_eq_getElem (hlength ▸ hlt), Option.map_some, Option.some.injEq] at hget
  rw [List.getD_eq_getElem _ _ (hlength ▸ hlt), List.getD_eq_getElem _ _ hlt, hget]

theorem Scheduled.currentPos_iff {node : TimedNode}
    (h : Scheduled tools sessionKeys keys sessions node) :
    node.server.currentPos = -1 ↔ node.changes = [] := by
  rw [h.position]
  split
  · next hnone => exact iff_of_true rfl hnone
  · next hsome => exact iff_of_false (by omega) hsome

/-- A tick, and how old the key is after it. -/
theorem Scheduled.process {node : TimedNode} (h : Scheduled tools sessionKeys keys sessions node)
    (hkeys : sessionKeys.map hex.hexDecode = keys.map some) (hne : keys ≠ [])
    (currentTime : ℤ) :
    ∃ node', process tools hex currentTime node = some node' ∧
      Scheduled tools sessionKeys keys sessions node' ∧
      (∃ e ∈ node'.changes.getLast?, currentTime < e.1 + 3 * hour) ∧
      ∃ changed, changed.Sublist [currentTime] ∧
        node'.changes.map Prod.fst = node.changes.map Prod.fst ++ changed := by
  have hlength : sessionKeys.length = keys.length := by
    simpa using congrArg List.length hkeys
  have hdue := due_iff currentTime node.server
  rw [ConsensusServer.process]
  by_cases hchange : node.server.due currentTime = true
  · rw [if_pos hchange]
    dsimp only
    rw [h.hexDecode_eq hkeys hne]
    refine ⟨_, rfl, ⟨h.kept, ?_, ?_, ?_, ?_, ?_⟩,
      ⟨(currentTime, keyAt keys node.changes.length), by simp, by simp [hour]⟩,
      [currentTime], List.Sublist.refl _, by simp⟩
    · rw [h.nextPos_eq hlength hne, if_neg (by simp)]
      simp
    · simp [h.order, List.range_succ]
    · simp
    · refine h.spaced.append (List.isChain_singleton _) ?_
      rintro e he f hf
      obtain rfl := Option.some.inj hf
      rcases hdue.mp hchange with hfirst | hold
      · simp [h.currentPos_iff.mp hfirst] at he
      · rwa [h.timePoint e he] at hold
    · rw [List.map_append, List.map_cons, List.map_nil, run_concat, h.sessions]
  · rw [if_neg hchange]
    rw [hdue, not_or, h.currentPos_iff] at hchange
    obtain ⟨e, he⟩ := Option.ne_none_iff_exists'.mp
      fun hnone => hchange.1 (List.getLast?_eq_none_iff.mp hnone)
    refine ⟨node, rfl, h, ⟨e, he, ?_⟩, [], List.nil_sublist _, by simp⟩
    rw [← h.timePoint e he]
    omega

/-- With keys that are hexadecimal the timer never fails. The keys are given to the
modules in turn, at ticks three hours apart or more, and no tick leaves a key behind
that is three hours old. -/
theorem keys_rotate (start : ℤ) (hrequire : (init sessionKeys start).require = true)
    (hkeys : sessionKeys.map hex.hexDecode = keys.map some) (times : List ℤ) :
    ∃ node, ticks tools hex ⟨init sessionKeys start, sessions, []⟩ times = some node ∧
      Scheduled tools sessionKeys keys sessions node ∧
      (∀ currentTime ∈ times.getLast?,
        ∃ e ∈ node.changes.getLast?, currentTime < e.1 + 3 * hour) ∧
      (node.changes.map Prod.fst).Sublist times := by
  have hne : keys ≠ [] := by
    have hlength : sessionKeys.length = keys.length := by
      simpa using congrArg List.length hkeys
    rintro rfl
    simp [require, init, hlength] at hrequire
  induction times using List.reverseRecOn with
  | nil => exact ⟨_, rfl, scheduled_init start, by simp, by simp⟩
  | append_singleton times currentTime ih =>
    obtain ⟨node, hticks, hscheduled, _, htimes⟩ := ih
    obtain ⟨node', hprocess, hscheduled', hage, changed, hchanged, hfst⟩ :=
      hscheduled.process hkeys hne currentTime
    refine ⟨node', ?_, hscheduled', ?_, ?_⟩
    · rw [ticks, List.foldlM_append, ← ticks, hticks]
      simpa using hprocess
    · intro last hlast
      rw [List.getLast?_concat] at hlast
      obtain rfl := Option.some.inj hlast
      exact hage
    · rw [hfst]
      exact htimes.append hchanged

def oneSession : ModuleSessions :=
  ⟨fun _ => true, fun _ => initInstance oneScript,
    ⟨initInstance oneScript, initInstance oneScript⟩, []⟩

/-- Two keys, and ticks at the start, one hour later and three hours later. -/
theorem keys_rotate_two :
    ∃ node, ticks plainTools .botan
        ⟨init [text "05", text "06"] 0, oneSession, []⟩ [0, hour, 3 * hour] = some node ∧
      Scheduled plainTools [text "05", text "06"] [[5], [6]] oneSession node ∧
      node.changes = [(0, [5]), (3 * hour, [6])] := by
  obtain ⟨node, hticks, hscheduled, _⟩ :=
    @keys_rotate _ plainTools .botan [text "05", text "06"] [[5], [6]] oneSession
      0 rfl (by decide +kernel) [0, hour, 3 * hour]
  have hchanges : (ticks plainTools .botan ⟨init [text "05", text "06"] 0, oneSession, []⟩
      [0, hour, 3 * hour]).map TimedNode.changes = some [(0, [5]), (3 * hour, [6])] := by
    decide +kernel
  rw [hticks] at hchanges
  exact ⟨node, hticks, hscheduled, Option.some.inj hchanges⟩

end ConsensusServer

end Keto.Consensus
