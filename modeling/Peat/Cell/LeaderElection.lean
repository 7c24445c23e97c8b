/-
  THE LEADER ELECTION MANAGER of cell/ leader_election.rs: one node's part in the
  election of its cell.

  The mutex-guarded fields are the fields of one record and every public
  function is one step. A round is a `UInt32`; its increment wraps.
-/
import Peat.Cell.Messaging
import Peat.Lib.Rounding
import Peat.Lib.Run
import Mathlib.Data.String.Basic

namespace Peat.Cell

open Peat.Lib

/-! ## 1. Scores, rounds, heartbeats -/

inductive ElectionState where
  | candidate | leader | follower
  deriving DecidableEq, Repr

structure LeadershipScore where
  compute : ℚ
  communication : ℚ
  sensors : ℚ
  power : ℚ
  reliability : ℚ
  total : ℚ
  deriving DecidableEq, Repr

namespace LeadershipScore

/-- The three accumulators of `from_capabilities`: the last compute and communication confidence,
    and a quarter for every sensor. -/
def scan : ℚ × ℚ × ℚ → Capability → ℚ × ℚ × ℚ
  | (compute, communication, sensors), cap =>
    match cap.getCapabilityType with
    | .compute => (cap.confidence, communication, sensors)
    | .communication => (compute, cap.confidence, sensors)
    | .sensor => (compute, communication, roundF64 (sensors + 1 / 4))
    | _ => (compute, communication, sensors)

def fromCapabilities (capabilities : List Capability) : LeadershipScore :=
  let (compute, communication, raw) := capabilities.foldl scan (0, 0, 0)
  let sensors := min raw 1
  let power : ℚ := 1
  let reliability : ℚ := 1
  let weighed (score weight : ℚ) := roundF64 (score * roundF64 weight)
  let total := [weighed communication (25 / 100), weighed sensors (20 / 100), weighed power (15 / 100),
    weighed reliability (10 / 100)].foldl (fun a b => roundF64 (a + b)) (weighed compute (30 / 100))
  ⟨compute, communication, sensors, power, reliability, total⟩

end LeadershipScore

structure ElectionRound where
  round : UInt32
  startedAt : Nat
  candidates : HashMap String LeadershipScore

def ElectionRound.new (round : UInt32) (now : Nat) : ElectionRound := ⟨round, now, ∅⟩

structure LeaderHeartbeat where
  leaderId : String
  lastHeartbeat : Nat
  missedCount : Nat
  deriving DecidableEq, Repr

namespace LeaderHeartbeat

def new (leaderId : String) (instant : Nat) : LeaderHeartbeat := ⟨leaderId, instant, 0⟩

def update (hb : LeaderHeartbeat) (instant : Nat) : LeaderHeartbeat :=
  { hb with lastHeartbeat := instant, missedCount := 0 }

def IsFailed (hb : LeaderHeartbeat) (heartbeatInterval maxMissed instant : Nat) : Prop :=
  heartbeatInterval * maxMissed < instant - hb.lastHeartbeat

instance (hb : LeaderHeartbeat) (heartbeatInterval maxMissed instant : Nat) :
    Decidable (hb.IsFailed heartbeatInterval maxMissed instant) := inferInstanceAs (Decidable (_ < _))

end LeaderHeartbeat

/-! ## 2. The manager -/

structure LeaderElectionManager where
  cellId : String
  nodeId : String
  messageBus : CellMessageBus
  state : ElectionState
  currentRound : ElectionRound
  myScore : LeadershipScore
  currentLeader : Option String
  leaderHeartbeat : Option LeaderHeartbeat
  heartbeatInterval : Nat
  maxMissedHeartbeats : Nat

namespace LeaderElectionManager

def new (cellId nodeId : String) (messageBus : CellMessageBus) (capabilities : List Capability)
    (now : Nat) : LeaderElectionManager where
  cellId := cellId
  nodeId := nodeId
  messageBus := messageBus
  state := .candidate
  currentRound := ElectionRound.new 1 now
  myScore := LeadershipScore.fromCapabilities capabilities
  currentLeader := none
  leaderHeartbeat := none
  heartbeatInterval := fromSecs 2
  maxMissedHeartbeats := 3

def getState (m : LeaderElectionManager) : ElectionState := m.state
def getLeader (m : LeaderElectionManager) : Option String := m.currentLeader
def getRound (m : LeaderElectionManager) : UInt32 := m.currentRound.round

def announceCandidacy (m : LeaderElectionManager) (round : UInt32) (clock : Clock) :
    LeaderElectionManager :=
  { m with messageBus := (m.messageBus.publish (.leaderAnnounce m.nodeId round) clock).1 }

def startElection (m : LeaderElectionManager) (clock : Clock) : LeaderElectionManager :=
  let current := { m.currentRound with
    candidates := m.currentRound.candidates.insert m.nodeId m.myScore }
  announceCandidacy { m with currentRound := current } current.round clock

def shouldFollowLeader (m : LeaderElectionManager) (leaderId : String) : Bool := m.nodeId < leaderId

def handleLeaderAnnounce (m : LeaderElectionManager) (leaderId : String) (round : UInt32)
    (instant : Nat) : LeaderElectionManager :=
  if round < m.currentRound.round then m
  else if m.state ≠ .candidate then m
  else if m.shouldFollowLeader leaderId then
    { m with
      state := .follower
      currentLeader := some leaderId
      leaderHeartbeat := some (LeaderHeartbeat.new leaderId instant) }
  else m

def handleHeartbeat (m : LeaderElectionManager) (nodeId : String) (instant : Nat) :
    LeaderElectionManager :=
  match m.currentLeader with
  | some leaderId =>
    if nodeId = leaderId then { m with leaderHeartbeat := m.leaderHeartbeat.map (·.update instant) }
    else m
  | none => m

def processElectionMessage (m : LeaderElectionManager) (message : CellMessage) (instant : Nat) :
    LeaderElectionManager :=
  match message.payload with
  | .leaderAnnounce leaderId electionRound => m.handleLeaderAnnounce leaderId electionRound instant
  | .heartbeat nodeId => m.handleHeartbeat nodeId instant
  | _ => m

def triggerReelection (m : LeaderElectionManager) (clock : Clock) : LeaderElectionManager :=
  let newRound := m.currentRound.round + 1
  announceCandidacy
    { m with
      state := .candidate
      currentLeader := none
      leaderHeartbeat := none
      currentRound := ElectionRound.new newRound clock.unix }
    newRound clock

def TrackerFailed (m : LeaderElectionManager) (instant : Nat) : Bool :=
  m.leaderHeartbeat.any fun hb => hb.IsFailed m.heartbeatInterval m.maxMissedHeartbeats instant

def checkLeaderFailure (m : LeaderElectionManager) (clock : Clock) : LeaderElectionManager × Bool :=
  match m.leaderHeartbeat with
  | some hb =>
    if hb.IsFailed m.heartbeatInterval m.maxMissedHeartbeats clock.instant then
      (m.triggerReelection clock, true)
    else (m, false)
  | none => (m, false)

def sendHeartbeatIfLeader (m : LeaderElectionManager) (clock : Clock) : LeaderElectionManager :=
  if m.state = .leader then
    { m with messageBus := (m.messageBus.publish (.heartbeat m.nodeId) clock).1 }
  else m

def setAsLeader (m : LeaderElectionManager) : LeaderElectionManager :=
  { m with state := .leader, currentLeader := some m.nodeId }

end LeaderElectionManager

inductive ElectionOp where
  | startElection (clock : Clock)
  | processElectionMessage (message : CellMessage) (instant : Nat)
  | checkLeaderFailure (clock : Clock)
  | sendHeartbeatIfLeader (clock : Clock)
  | setAsLeader

namespace ElectionOp

def announced : ElectionOp → Option (String × UInt32)
  | .processElectionMessage message _ =>
    match message.payload with
    | .leaderAnnounce leaderId electionRound => some (leaderId, electionRound)
    | _ => none
  | _ => none

end ElectionOp

structure Standing where
  state : ElectionState
  leader : Option String
  tracker : Option LeaderHeartbeat
  round : UInt32
  deriving DecidableEq, Repr

namespace LeaderElectionManager

def standing (m : LeaderElectionManager) : Standing :=
  ⟨m.state, m.currentLeader, m.leaderHeartbeat, m.currentRound.round⟩

def act (m : LeaderElectionManager) : ElectionOp → LeaderElectionManager
  | .startElection clock => m.startElection clock
  | .processElectionMessage message instant => m.processElectionMessage message instant
  | .checkLeaderFailure clock => (m.checkLeaderFailure clock).1
  | .sendHeartbeatIfLeader clock => m.sendHeartbeatIfLeader clock
  | .setAsLeader => m.setAsLeader

/-- The call finds the leader failed. -/
def FindsFailure (m : LeaderElectionManager) : ElectionOp → Prop
  | .checkLeaderFailure clock => m.TrackerFailed clock.instant = true
  | _ => False

instance (m : LeaderElectionManager) (op : ElectionOp) : Decidable (m.FindsFailure op) := by
  unfold FindsFailure
  split <;> infer_instance

inductive Effect (m : LeaderElectionManager) (op : ElectionOp) : Standing → Prop
  | none (hf : ¬ m.FindsFailure op) (hl : op ≠ .setAsLeader) : Effect m op m.standing
  | refresh (instant : Nat) (hf : ¬ m.FindsFailure op) (ha : op.announced = Option.none) :
    Effect m op { m.standing with tracker := m.leaderHeartbeat.map (·.update instant) }
  | follow (leaderId : String) (round : UInt32) (instant : Nat)
      (ha : op.announced = some (leaderId, round)) (hr : m.getRound ≤ round)
      (hs : m.state = .candidate) (hid : m.nodeId < leaderId) :
    Effect m op
      ⟨.follower, some leaderId, some (LeaderHeartbeat.new leaderId instant), m.getRound⟩
  | reelect (hf : m.FindsFailure op) :
    Effect m op ⟨.candidate, Option.none, Option.none, m.getRound + 1⟩
  | lead (ho : op = .setAsLeader) :
    Effect m op ⟨.leader, some m.nodeId, m.leaderHeartbeat, m.getRound⟩

variable (m : LeaderElectionManager)

theorem handleLeaderAnnounce_cases (leaderId : String) (round : UInt32) (instant : Nat) :
    (¬ (m.getRound ≤ round ∧ m.state = .candidate ∧ m.nodeId < leaderId) ∧
      m.handleLeaderAnnounce leaderId round instant = m) ∨
    ((m.getRound ≤ round ∧ m.state = .candidate ∧ m.nodeId < leaderId) ∧
      m.handleLeaderAnnounce leaderId round instant =
        { m with
          state := .follower
          currentLeader := some leaderId
          leaderHeartbeat := some (LeaderHeartbeat.new leaderId instant) }) := by
  unfold handleLeaderAnnounce
  by_cases hr : round < m.currentRound.round
  · rw [if_pos hr]
    exact .inl ⟨fun h => UInt32.not_lt.mpr h.1 hr, rfl⟩
  rw [if_neg hr]
  by_cases hs : m.state = .candidate
  · rw [if_neg (not_not_intro hs)]
    by_cases hid : m.nodeId < leaderId
    · have hfollow : m.shouldFollowLeader leaderId = true := decide_eq_true hid
      rw [if_pos hfollow]
      exact .inr ⟨⟨UInt32.not_lt.mp hr, hs, hid⟩, rfl⟩
    · have hstay : ¬ m.shouldFollowLeader leaderId = true := fun h => hid (of_decide_eq_true h)
      rw [if_neg hstay]
      exact .inl ⟨fun h => hid h.2.2, rfl⟩
  · rw [if_pos hs]
    exact .inl ⟨fun h => hs h.2.1, rfl⟩

theorem handleHeartbeat_cases (nodeId : String) (instant : Nat) :
    m.handleHeartbeat nodeId instant = m ∨
    m.handleHeartbeat nodeId instant =
      { m with leaderHeartbeat := m.leaderHeartbeat.map (·.update instant) } := by
  unfold handleHeartbeat
  cases m.currentLeader with
  | none => exact .inl rfl
  | some leaderId =>
    by_cases h : nodeId = leaderId
    · exact .inr (if_pos h)
    · exact .inl (if_neg h)

theorem effect_act (op : ElectionOp) : Effect m op (m.act op).standing := by
  cases op with
  | startElection clock => exact .none id nofun
  | setAsLeader => exact .lead rfl
  | sendHeartbeatIfLeader clock =>
    show Effect m _ (m.sendHeartbeatIfLeader clock).standing
    unfold sendHeartbeatIfLeader
    split <;> exact .none id nofun
  | checkLeaderFailure clock =>
    show Effect m _ (m.checkLeaderFailure clock).1.standing
    unfold checkLeaderFailure
    cases hb : m.leaderHeartbeat with
    | none => exact .none (by simp [FindsFailure, TrackerFailed, hb]) nofun
    | some hb' =>
      dsimp only
      by_cases hf : hb'.IsFailed m.heartbeatInterval m.maxMissedHeartbeats clock.instant
      · rw [if_pos hf]
        exact .reelect (by simp [FindsFailure, TrackerFailed, hb, hf])
      · rw [if_neg hf]
        exact .none (by simp [FindsFailure, TrackerFailed, hb, hf]) nofun
  | processElectionMessage message instant =>
    show Effect m _ (m.processElectionMessage message instant).standing
    unfold processElectionMessage
    split
    · rename_i leaderId round hp
      rcases m.handleLeaderAnnounce_cases leaderId round instant with
        ⟨_, h⟩ | ⟨⟨hr, hs, hid⟩, h⟩
      · rw [h]
        exact .none id nofun
      · rw [h]
        exact .follow leaderId round instant (by simp [ElectionOp.announced, hp]) hr hs hid
    · rename_i nodeId hp
      rcases m.handleHeartbeat_cases nodeId instant with h | h
      · rw [h]
        exact .none id nofun
      · rw [h]
        exact .refresh instant id (by simp [ElectionOp.announced, hp])
    · exact .none id nofun

theorem processElectionMessage_frame (message : CellMessage) (instant : Nat) :
    (m.processElectionMessage message instant).nodeId = m.nodeId ∧
      (m.processElectionMessage message instant).messageBus = m.messageBus := by
  unfold processElectionMessage
  split
  · rename_i leaderId round hp
    rcases m.handleLeaderAnnounce_cases leaderId round instant with ⟨_, h⟩ | ⟨_, h⟩ <;>
      rw [h] <;> exact ⟨rfl, rfl⟩
  · rename_i nodeId hp
    rcases m.handleHeartbeat_cases nodeId instant with h | h <;> rw [h] <;> exact ⟨rfl, rfl⟩
  · exact ⟨rfl, rfl⟩

theorem nodeId_act (op : ElectionOp) : (m.act op).nodeId = m.nodeId := by
  cases op with
  | startElection clock => rfl
  | setAsLeader => rfl
  | sendHeartbeatIfLeader clock =>
    show (m.sendHeartbeatIfLeader clock).nodeId = _
    unfold sendHeartbeatIfLeader
    split <;> rfl
  | checkLeaderFailure clock =>
    show (m.checkLeaderFailure clock).1.nodeId = _
    unfold checkLeaderFailure
    split
    · split <;> rfl
    · rfl
  | processElectionMessage message instant =>
    exact (m.processElectionMessage_frame message instant).1

end LeaderElectionManager

/-! ## 3. State, leader and tracker fit together -/

structure Standing.Consistent (nodeId : String) (st : Standing) : Prop where
  follower : st.state = .follower → ∃ l, st.leader = some l ∧ nodeId < l ∧
    ∃ hb, st.tracker = some hb ∧ hb.leaderId = l
  candidate : st.state = .candidate → st.leader = none ∧ st.tracker = none
  leader : st.state = .leader → st.leader = some nodeId

namespace LeaderElectionManager

def Consistent (m : LeaderElectionManager) : Prop := m.standing.Consistent m.nodeId

theorem consistent_new (cellId nodeId : String) (bus : CellMessageBus)
    (capabilities : List Capability) (now : Nat) :
    (new cellId nodeId bus capabilities now).Consistent :=
  ⟨nofun, fun _ => ⟨rfl, rfl⟩, nofun⟩

variable {m : LeaderElectionManager}

theorem consistent_act (hm : m.Consistent) (op : ElectionOp) : (m.act op).Consistent := by
  unfold Consistent
  rw [nodeId_act]
  have h := effect_act m op
  generalize (m.act op).standing = st at h
  cases h with
  | none _ _ => exact hm
  | refresh instant _ _ =>
    refine ⟨fun hs => ?_, fun hs => ?_, hm.leader⟩
    · obtain ⟨l, hl, hid, hb, ht, hbl⟩ := hm.follower hs
      exact ⟨l, hl, hid, hb.update instant, congrArg (Option.map _) ht, hbl⟩
    · obtain ⟨hl, ht⟩ := hm.candidate hs
      exact ⟨hl, congrArg (Option.map _) ht⟩
  | follow leaderId round instant _ _ _ hid =>
    exact ⟨fun _ => ⟨leaderId, rfl, hid, _, rfl, rfl⟩, nofun, nofun⟩
  | reelect _ => exact ⟨nofun, fun _ => ⟨rfl, rfl⟩, nofun⟩
  | lead _ => exact ⟨nofun, nofun, fun _ => rfl⟩

theorem consistent_run (cellId nodeId : String) (bus : CellMessageBus)
    (capabilities : List Capability) (now : Nat) (ops : List ElectionOp) :
    (run act (new cellId nodeId bus capabilities now) ops).Consistent :=
  run_invariant Consistent (fun _ op hm => consistent_act hm op)
    (consistent_new cellId nodeId bus capabilities now) ops

theorem leader_act_iff (hm : m.state = .leader) (op : ElectionOp) :
    (m.act op).state = .leader ↔ ¬ m.FindsFailure op := by
  show (m.act op).standing.state = .leader ↔ _
  have h := effect_act m op
  generalize (m.act op).standing = st at h
  cases h with
  | none hf _ => exact iff_of_true hm hf
  | refresh _ hf _ => exact iff_of_true hm hf
  | follow _ _ _ _ _ hs _ => rw [hm] at hs; cases hs
  | reelect hf => exact iff_of_false nofun (not_not_intro hf)
  | lead ho =>
    subst ho
    exact iff_of_true rfl id

/-- What the election state promises along a run: it is consistent all the way, and a node set as
    leader is leader from then on. -/
def StatesHold (m : LeaderElectionManager) (ops : List ElectionOp) : Prop :=
  (∀ pre, pre <+: ops → (run act m pre).Consistent) ∧
  ∀ pre post, ops = pre ++ .setAsLeader :: post →
    ∀ later, later <+: post → (run act (run act m pre).setAsLeader later).getState = .leader

/-- **When a node set as leader stays leader**: exactly when no later check finds a failed tracker that the
    node kept from the leader it followed before. -/
theorem staysLeader_iff (cellId nodeId : String) (bus : CellMessageBus)
    (capabilities : List Capability) (now : Nat) (ops : List ElectionOp) :
    StatesHold (new cellId nodeId bus capabilities now) ops ↔
      ∀ pre post, ops = pre ++ .setAsLeader :: post →
        RunMeets act (fun m op => ¬ m.FindsFailure op)
          (run act (new cellId nodeId bus capabilities now) pre).setAsLeader post := by
  unfold StatesHold
  rw [and_iff_right fun pre _ => consistent_run cellId nodeId bus capabilities now pre]
  refine forall₃_congr fun pre post _ => ?_
  exact run_within_iff (fun m : LeaderElectionManager => m.state = .leader)
    (fun m op hm => leader_act_iff hm op) rfl

def nodeA : LeaderElectionManager := new "cell" "a" (CellMessageBus.new "cell" "a") [] 0

def announcement (leaderId : String) (round : UInt32) : CellMessage :=
  CellMessage.new leaderId "cell" 1 (.leaderAnnounce leaderId round) 0

/-- **A C2 override undone**: the check after six seconds takes the silence of the former leader for a
    failure, and the node is a candidate again. -/
theorem setAsLeader_undone :
    (run act nodeA [.processElectionMessage (announcement "b" 1) 0, .setAsLeader]).getState = .leader ∧
    (run act nodeA [.processElectionMessage (announcement "b" 1) 0, .setAsLeader,
      .checkLeaderFailure ⟨6, fromSecs 6 + 1⟩]).getState = .candidate ∧
    ¬ StatesHold nodeA [.processElectionMessage (announcement "b" 1) 0, .setAsLeader,
      .checkLeaderFailure ⟨6, fromSecs 6 + 1⟩] := by
  refine ⟨by decide, by decide, fun h => ?_⟩
  have h1 := h.2 [.processElectionMessage (announcement "b" 1) 0]
    [.checkLeaderFailure ⟨6, fromSecs 6 + 1⟩] rfl _ List.prefix_rfl
  exact absurd h1 (by decide)

end LeaderElectionManager

/-! ## 4. Rounds -/

namespace LeaderElectionManager

variable {m : LeaderElectionManager}

theorem not_findsFailure_of_announced {op : ElectionOp} {a : String × UInt32}
    (ha : op.announced = some a) : ¬ m.FindsFailure op := by
  cases op with
  | checkLeaderFailure clock => cases ha
  | _ => exact id

theorem standing_act_of_stale {op : ElectionOp} {leaderId : String} {round : UInt32}
    (ha : op.announced = some (leaderId, round)) (hr : round < m.getRound) :
    (m.act op).standing = m.standing := by
  have h := effect_act m op
  generalize (m.act op).standing = st at h
  cases h with
  | none _ _ => rfl
  | refresh _ _ ha' => rw [ha] at ha'; cases ha'
  | follow _ round' _ ha' hr' _ _ =>
    rw [ha] at ha'
    cases ha'
    exact absurd hr (UInt32.not_lt.mpr hr')
  | reelect hf => exact absurd hf (not_findsFailure_of_announced ha)
  | lead ho => rw [ho] at ha; cases ha

theorem getRound_act (m : LeaderElectionManager) (op : ElectionOp) :
    (m.act op).getRound = if m.FindsFailure op then m.getRound + 1 else m.getRound := by
  show (m.act op).standing.round = _
  have h := effect_act m op
  generalize (m.act op).standing = st at h
  cases h with
  | none hf _ => rw [if_neg hf]; rfl
  | refresh _ hf _ => rw [if_neg hf]; rfl
  | follow _ _ _ ha _ _ _ => rw [if_neg (not_findsFailure_of_announced ha)]
  | reelect hf => rw [if_pos hf]
  | lead ho => rw [if_neg (ho ▸ id)]

end LeaderElectionManager

def lastRound : UInt32 := 4294967295

theorem round_le_add_one_iff {round : UInt32} : round ≤ round + 1 ↔ round ≠ lastRound := by
  have hne : round = lastRound ↔ round.toNat = 4294967295 := UInt32.toNat_inj.symm
  have hlt := round.toNat_lt
  rw [Ne, hne, UInt32.le_iff_toNat_le, UInt32.toNat_add]
  have h1 : (1 : UInt32).toNat = 1 := rfl
  omega

/-- The manager and the rounds it has heard of. -/
structure Heard where
  manager : LeaderElectionManager
  rounds : List UInt32

namespace Heard

open LeaderElectionManager

def new (manager : LeaderElectionManager) : Heard := ⟨manager, [manager.getRound]⟩

def step (h : Heard) (op : ElectionOp) : Heard :=
  ⟨h.manager.act op,
    h.rounds ++ (op.announced.map Prod.snd).toList ++ [(h.manager.act op).getRound]⟩

/-- What the round number promises of a call: an announcement older than some round heard of
    changes neither state nor leader, the node's own round does not fall, and it is at least every
    round heard of. -/
def Fences (h : Heard) (op : ElectionOp) : Prop :=
  (∀ leaderId round, op.announced = some (leaderId, round) → (∃ r ∈ h.rounds, round < r) →
    (h.manager.act op).getState = h.manager.getState ∧
      (h.manager.act op).getLeader = h.manager.getLeader) ∧
  h.manager.getRound ≤ (h.step op).manager.getRound ∧
  ∀ r ∈ (h.step op).rounds, r ≤ (h.step op).manager.getRound

/-- No announcement is ahead of the own round, and no failure is found in the last round. -/
def InStep (h : Heard) (op : ElectionOp) : Prop :=
  (∀ leaderId round, op.announced = some (leaderId, round) → round ≤ h.manager.getRound) ∧
  (h.manager.FindsFailure op → h.manager.getRound ≠ lastRound)

def CaughtUp (h : Heard) : Prop := ∀ r ∈ h.rounds, r ≤ h.manager.getRound

theorem getRound_le_step_iff (h : Heard) (op : ElectionOp) :
    h.manager.getRound ≤ (h.step op).manager.getRound ↔
      (h.manager.FindsFailure op → h.manager.getRound ≠ lastRound) := by
  show _ ≤ (h.manager.act op).getRound ↔ _
  rw [getRound_act]
  by_cases hf : h.manager.FindsFailure op
  · rw [if_pos hf, round_le_add_one_iff]
    exact ⟨fun h _ => h, fun h => h hf⟩
  · rw [if_neg hf]
    exact iff_of_true (UInt32.le_refl _) fun h => absurd h hf

theorem fences_iff_inStep {h : Heard} (hc : h.CaughtUp) (op : ElectionOp) :
    h.Fences op ↔ h.InStep op := by
  constructor
  · rintro ⟨_, hmono, hall⟩
    refine ⟨fun leaderId round ha => ?_, (h.getRound_le_step_iff op).mp hmono⟩
    have hround : (h.step op).manager.getRound = h.manager.getRound :=
      (getRound_act _ _).trans (if_neg (not_findsFailure_of_announced ha))
    rw [← hround]
    refine hall round (List.mem_append_left _ (List.mem_append_right _ ?_))
    rw [ha]
    exact List.mem_singleton_self round
  · rintro ⟨hahead, hlast⟩
    have hmono := (h.getRound_le_step_iff op).mpr hlast
    refine ⟨fun leaderId round ha hold => ?_, hmono, fun r hr => ?_⟩
    · obtain ⟨r, hr, hlt⟩ := hold
      have hst := standing_act_of_stale ha (UInt32.lt_of_lt_of_le hlt (hc r hr))
      exact ⟨congrArg Standing.state hst, congrArg Standing.leader hst⟩
    · rcases List.mem_append.mp hr with hr | hr
      · rcases List.mem_append.mp hr with hr | hr
        · exact UInt32.le_trans (hc r hr) hmono
        · obtain ⟨⟨leaderId, round⟩, ha, rfl⟩ := Option.map_eq_some_iff.mp (Option.mem_toList.mp hr)
          exact UInt32.le_trans (hahead leaderId round ha) hmono
      · rw [List.mem_singleton.mp hr]
        exact UInt32.le_refl _

/-- **When rounds fence off stale announcements**: exactly when no announcement is ahead of the node's own
    round and no re-election starts in the last round. -/
theorem fenced_iff (cellId nodeId : String) (bus : CellMessageBus) (capabilities : List Capability)
    (now : Nat) (ops : List ElectionOp) :
    RunMeets step Fences (new (.new cellId nodeId bus capabilities now)) ops ↔
      RunMeets step InStep (new (.new cellId nodeId bus capabilities now)) ops := by
  refine runMeets_iff_of_invariant CaughtUp (fun h op hc => fences_iff_inStep hc op)
    (fun h op hf _ => hf.2.2) fun r hr => ?_
  rw [List.mem_singleton.mp hr]
  exact UInt32.le_refl _

/-- **A stale leader accepted**: the node follows `c` of round 5 but stays in round 1, and follows `b` of
    round 3 later. -/
theorem stale_round_followed :
    let ops : List ElectionOp :=
      [.processElectionMessage (announcement "c" 5) 0, .checkLeaderFailure ⟨6, fromSecs 6 + 1⟩]
    (run act nodeA ops).getRound = 2 ∧ (run act nodeA ops).getLeader = none ∧
    (run act nodeA (ops ++ [.processElectionMessage (announcement "b" 3) (fromSecs 7)])).getLeader =
      some "b" ∧
    ¬ RunMeets step Fences (new nodeA) ops := by
  refine ⟨by decide, by decide, by decide, fun h => ?_⟩
  exact absurd (h.1.2.2 5 (by decide)) (by decide)

end Heard

end Peat.Cell
