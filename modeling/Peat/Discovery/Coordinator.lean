/-
  THE BOOTSTRAP COORDINATOR (discovery/coordinator.rs): one discovery phase, from its
  start to the change to the cell phase.

  No operation looks at both phase and status: `transition_to_cell_phase` refuses only a
  bootstrap in progress, and `reset_for_retry` leaves the phase. Instants are
  nanoseconds; `f32` rates are exact rationals.
-/
import Peat.Lib.HashMap
import Peat.Models.Node
import Mathlib.Algebra.Field.Rat
import Mathlib.Data.Finset.Card

namespace Peat.Discovery

open Peat.Lib Peat.Models

/-! ## 1. The coordinator -/

inductive BootstrapStrategy where
  | geographic | directed | capabilityBased
  deriving DecidableEq, Repr

inductive BootstrapStatus where
  | notStarted | inProgress | completed | failed | partiallyCompleted
  deriving DecidableEq, Repr

def BootstrapStatus.debug : BootstrapStatus → String
  | .notStarted => "NotStarted"
  | .inProgress => "InProgress"
  | .completed => "Completed"
  | .failed => "Failed"
  | .partiallyCompleted => "PartiallyCompleted"

def debugPhase : Phase → String
  | .unspecified => "Unspecified"
  | .discovery => "Discovery"
  | .cell => "Cell"
  | .hierarchy => "Hierarchy"

structure DiscoveryMetrics where
  totalNodes : Nat
  assignedNodes : Nat
  unassignedNodes : Nat
  cellsFormed : Nat
  elapsedSeconds : ℚ
  strategy : BootstrapStrategy
  status : BootstrapStatus
  messagesSent : Option Nat

structure DiscoveryCoordinator where
  currentPhase : Phase
  strategy : BootstrapStrategy
  timeout : Nat
  startTime : Option Nat
  status : BootstrapStatus
  trackedNodes : Finset String
  assignments : HashMap String String
  messageCount : Nat

namespace DiscoveryCoordinator

def nanosPerSec : Nat := 1000000000

def defaultBootstrapTimeoutSecs : Nat := 60

def new (strategy : BootstrapStrategy) : DiscoveryCoordinator where
  currentPhase := .discovery
  strategy := strategy
  timeout := defaultBootstrapTimeoutSecs * nanosPerSec
  startTime := none
  status := .notStarted
  trackedNodes := ∅
  assignments := ∅
  messageCount := 0

def withTimeout (c : DiscoveryCoordinator) (timeoutSecs : Nat) : DiscoveryCoordinator :=
  { c with timeout := timeoutSecs * nanosPerSec }

def startBootstrap (c : DiscoveryCoordinator) (nodeIds : List String) (now : Nat) :
    DiscoveryCoordinator × Except InvalidTransition Unit :=
  if c.status ≠ .notStarted then
    (c, .error ⟨c.status.debug, "InProgress", "Discovery already started"⟩)
  else
    ({ c with trackedNodes := nodeIds.toFinset, startTime := some now, status := .inProgress }, .ok ())

def registerAssignment (c : DiscoveryCoordinator) (nodeId cellId : String) :
    DiscoveryCoordinator × Except InvalidTransition Unit :=
  if c.status ≠ .inProgress then
    (c, .error ⟨c.status.debug, "Assignment", "Discovery not in progress"⟩)
  else if nodeId ∉ c.trackedNodes then (c, .ok ())
  else ({ c with assignments := c.assignments.insert nodeId cellId }, .ok ())

def incrementMessages (c : DiscoveryCoordinator) (count : Nat) : DiscoveryCoordinator :=
  { c with messageCount := c.messageCount + count }

def hasTimedOut (c : DiscoveryCoordinator) (now : Nat) : Bool :=
  match c.startTime with
  | some startTime => c.timeout ≤ now - startTime
  | none => false

def unassignedNodes (c : DiscoveryCoordinator) : Finset String :=
  c.trackedNodes.filter fun id => id ∉ c.assignments.keys

def assignedNodes (c : DiscoveryCoordinator) : List String := c.assignments.keys

def timedOutStatus (assignmentRate : ℚ) : BootstrapStatus :=
  if 9 / 10 < assignmentRate then .completed
  else if 1 / 2 < assignmentRate then .partiallyCompleted
  else .failed

def checkCompletion (c : DiscoveryCoordinator) (now : Nat) : DiscoveryCoordinator × Bool :=
  if c.status ≠ .inProgress then (c, false)
  else if c.unassignedNodes = ∅ then ({ c with status := .completed }, true)
  else if c.hasTimedOut now then
    ({ c with status := timedOutStatus (c.assignedNodes.length / c.trackedNodes.card) }, true)
  else (c, false)

def transitionToCellPhase (c : DiscoveryCoordinator) :
    DiscoveryCoordinator × Except InvalidTransition Unit :=
  if c.currentPhase ≠ .discovery then
    (c, .error ⟨debugPhase c.currentPhase, "Cell", "Not in Discovery phase"⟩)
  else if c.status = .inProgress then
    (c, .error ⟨c.status.debug, "Cell", "Discovery still in progress"⟩)
  else ({ c with currentPhase := .cell }, .ok ())

def resetForRetry (c : DiscoveryCoordinator) : DiscoveryCoordinator × Except InvalidTransition Unit :=
  if c.status = .inProgress then
    (c, .error ⟨"InProgress", "Reset", "Cannot reset while bootstrap is in progress"⟩)
  else
    ({ c with status := .notStarted, startTime := none, assignments := ∅, messageCount := 0 }, .ok ())

def forceComplete (c : DiscoveryCoordinator) : DiscoveryCoordinator × Except InvalidTransition Unit :=
  if c.status ≠ .inProgress then
    (c, .error ⟨c.status.debug, "Completed", "Discovery not in progress"⟩)
  else ({ c with status := .completed }, .ok ())

def getMetrics (c : DiscoveryCoordinator) (cellsFormed now : Nat) : DiscoveryMetrics where
  totalNodes := c.trackedNodes.card
  assignedNodes := c.assignedNodes.length
  unassignedNodes := c.unassignedNodes.card
  cellsFormed := cellsFormed
  elapsedSeconds := (c.startTime.map fun startTime => ((now - startTime : Nat) : ℚ) / nanosPerSec).getD 0
  strategy := c.strategy
  status := c.status
  messagesSent := some c.messageCount

/-! ## 2. Runs -/

inductive Op where
  | startBootstrap (nodeIds : List String) (now : Nat)
  | registerAssignment (nodeId cellId : String)
  | incrementMessages (count : Nat)
  | checkCompletion (now : Nat)
  | transitionToCellPhase
  | forceComplete
  | resetForRetry

def step (c : DiscoveryCoordinator) : Op → DiscoveryCoordinator
  | .startBootstrap nodeIds now => (c.startBootstrap nodeIds now).1
  | .registerAssignment nodeId cellId => (c.registerAssignment nodeId cellId).1
  | .incrementMessages count => c.incrementMessages count
  | .checkCompletion now => (c.checkCompletion now).1
  | .transitionToCellPhase => c.transitionToCellPhase.1
  | .forceComplete => c.forceComplete.1
  | .resetForRetry => c.resetForRetry.1

def EndedWell (c : DiscoveryCoordinator) : Prop :=
  c.startTime.isSome = true ∧ (c.status = .completed ∨ c.status = .partiallyCompleted)

instance (c : DiscoveryCoordinator) : Decidable c.EndedWell := inferInstanceAs (Decidable (_ ∧ _))

/-- **The state machine**: the cell phase follows only a bootstrap that ended well, and the metrics
    add up. -/
structure Sound (c : DiscoveryCoordinator) : Prop where
  phase : c.currentPhase = .cell → c.EndedWell
  tracked : ∀ id ∈ c.assignedNodes, id ∈ c.trackedNodes
  total : ∀ cellsFormed now, (c.getMetrics cellsFormed now).assignedNodes +
    (c.getMetrics cellsFormed now).unassignedNodes = (c.getMetrics cellsFormed now).totalNodes

/-- What an operation must not do: enter the cell phase from a bootstrap that was not started or has
    failed, or reset the bootstrap behind it. -/
def Clear (c : DiscoveryCoordinator) : Op → Prop
  | .transitionToCellPhase =>
    c.currentPhase = .discovery → c.status ≠ .notStarted ∧ c.status ≠ .failed
  | .resetForRetry => c.currentPhase ≠ .cell
  | _ => True

instance (c : DiscoveryCoordinator) (op : Op) : Decidable (c.Clear op) :=
  match op with
  | .transitionToCellPhase => inferInstanceAs (Decidable (_ → _))
  | .resetForRetry => inferInstanceAs (Decidable (_ ≠ _))
  | .startBootstrap _ _ => isTrue trivial
  | .registerAssignment _ _ => isTrue trivial
  | .incrementMessages _ => isTrue trivial
  | .checkCompletion _ => isTrue trivial
  | .forceComplete => isTrue trivial

structure Tracks (c : DiscoveryCoordinator) : Prop where
  tracked : ∀ id ∈ c.assignments.keys, id ∈ c.trackedNodes
  fresh : c.status = .notStarted → c.assignments = ∅
  started : c.status ≠ .notStarted → c.startTime.isSome = true

variable {c : DiscoveryCoordinator}

theorem Tracks.card_add (h : c.Tracks) :
    c.assignedNodes.length + c.unassignedNodes.card = c.trackedNodes.card := by
  have hassigned : c.assignments.keys.toFinset.card = c.assignments.keys.length :=
    List.toFinset_card_of_nodup c.assignments.nodupKeys
  have hsplit : c.trackedNodes.filter (fun id => id ∈ c.assignments.keys) =
      c.assignments.keys.toFinset := by
    ext id
    rw [Finset.mem_filter, List.mem_toFinset]
    exact and_iff_right_of_imp (h.tracked id)
  have hcard := Finset.card_filter_add_card_filter_not (s := c.trackedNodes)
    (fun id => id ∈ c.assignments.keys)
  rw [hsplit, hassigned] at hcard
  exact hcard

theorem Tracks.sound_iff (h : c.Tracks) : c.Sound ↔ (c.currentPhase = .cell → c.EndedWell) :=
  ⟨Sound.phase, fun hphase => ⟨hphase, h.tracked, fun _ _ => h.card_add⟩⟩

/-! ## 3. One operation -/

/-- **What an operation can do.** One that is refused or comes too early leaves everything; it is clear
    where a bootstrap in progress is not one of the cell phase. -/
inductive Effect (c : DiscoveryCoordinator) : Op → DiscoveryCoordinator → Prop where
  | kept (op : Op) (hclear : (c.status = .inProgress → c.currentPhase ≠ .cell) → c.Clear op) :
      Effect c op c
  | counted (count : Nat) : Effect c (.incrementMessages count) (c.incrementMessages count)
  | started (nodeIds : List String) (now : Nat) (hstatus : c.status = .notStarted) :
      Effect c (.startBootstrap nodeIds now)
        { c with trackedNodes := nodeIds.toFinset, startTime := some now, status := .inProgress }
  | assigned (nodeId cellId : String) (hstatus : c.status = .inProgress)
      (hnode : nodeId ∈ c.trackedNodes) :
      Effect c (.registerAssignment nodeId cellId)
        { c with assignments := c.assignments.insert nodeId cellId }
  | ended (op : Op) (status : BootstrapStatus) (hclear : c.Clear op) (hstatus : c.status = .inProgress)
      (hended : status ≠ .notStarted) : Effect c op { c with status := status }
  | entered (hphase : c.currentPhase = .discovery) (hstatus : c.status ≠ .inProgress) :
      Effect c .transitionToCellPhase { c with currentPhase := .cell }
  | restarted (hstatus : c.status ≠ .inProgress) :
      Effect c .resetForRetry
        { c with status := .notStarted, startTime := none, assignments := ∅, messageCount := 0 }

theorem timedOutStatus_ne_notStarted (assignmentRate : ℚ) :
    timedOutStatus assignmentRate ≠ .notStarted := by
  unfold timedOutStatus
  split
  · nofun
  · split <;> nofun

theorem effect_step (c : DiscoveryCoordinator) (op : Op) : c.Effect op (c.step op) := by
  cases op with
  | startBootstrap nodeIds now =>
    show c.Effect _ (c.startBootstrap nodeIds now).1
    rw [startBootstrap]
    split
    · exact .kept _ fun _ => trivial
    · rename_i hstatus
      exact .started nodeIds now (not_not.mp hstatus)
  | registerAssignment nodeId cellId =>
    show c.Effect _ (c.registerAssignment nodeId cellId).1
    rw [registerAssignment]
    split
    · exact .kept _ fun _ => trivial
    · rename_i hstatus
      split
      · exact .kept _ fun _ => trivial
      · rename_i hnode
        exact .assigned nodeId cellId (not_not.mp hstatus) (not_not.mp hnode)
  | incrementMessages count => exact .counted count
  | checkCompletion now =>
    show c.Effect _ (c.checkCompletion now).1
    rw [checkCompletion]
    split
    · exact .kept _ fun _ => trivial
    · rename_i hstatus
      split
      · exact .ended _ _ trivial (not_not.mp hstatus) nofun
      · split
        · exact .ended _ _ trivial (not_not.mp hstatus) (timedOutStatus_ne_notStarted _)
        · exact .kept _ fun _ => trivial
  | transitionToCellPhase =>
    show c.Effect _ c.transitionToCellPhase.1
    rw [transitionToCellPhase]
    split
    · rename_i hphase
      exact .kept _ fun _ hdiscovery => absurd hdiscovery hphase
    · rename_i hphase
      split
      · rename_i hstatus
        refine .kept _ fun _ _ => ?_
        rw [hstatus]
        exact ⟨nofun, nofun⟩
      · rename_i hstatus
        exact .entered (not_not.mp hphase) hstatus
  | forceComplete =>
    show c.Effect _ c.forceComplete.1
    rw [forceComplete]
    split
    · exact .kept _ fun _ => trivial
    · rename_i hstatus
      exact .ended _ _ trivial (not_not.mp hstatus) nofun
  | resetForRetry =>
    show c.Effect _ c.resetForRetry.1
    rw [resetForRetry]
    split
    · rename_i hstatus
      exact .kept _ fun hphase => hphase hstatus
    · rename_i hstatus
      exact .restarted hstatus

variable {c' : DiscoveryCoordinator} {op : Op}

theorem Effect.tracks (heffect : c.Effect op c') (h : c.Tracks) : c'.Tracks := by
  have hstarted : c.status = .inProgress → c.startTime.isSome = true := by
    intro hstatus
    exact h.started (by rw [hstatus]; nofun)
  cases heffect with
  | kept => exact h
  | counted count => exact ⟨h.tracked, h.fresh, h.started⟩
  | started nodeIds now hstatus =>
    -- nothing is assigned before the start
    refine ⟨fun id hid => ?_, nofun, fun _ => rfl⟩
    rw [show c.assignments.keys = [] from congrArg AList.keys (h.fresh hstatus)] at hid
    cases hid
  | assigned nodeId cellId hstatus hnode =>
    refine ⟨fun id hid => ?_, fun hfresh => ?_, h.started⟩
    · rcases AList.mem_insert c.assignments |>.mp hid with rfl | hold
      · exact hnode
      · exact h.tracked id hold
    · cases hstatus.symm.trans hfresh
  | ended _ status _ hstatus hended =>
    exact ⟨h.tracked, fun hfresh => absurd hfresh hended, fun _ => hstarted hstatus⟩
  | entered => exact ⟨h.tracked, h.fresh, h.started⟩
  | restarted => exact ⟨fun _ hid => (nomatch hid), fun _ => rfl, fun hne => absurd rfl hne⟩

theorem tracks_step (op : Op) (h : c.Tracks) : (c.step op).Tracks := (effect_step c op).tracks h

theorem endedWell_iff (h : c.Tracks) (hstatus : c.status ≠ .inProgress) :
    c.EndedWell ↔ c.status ≠ .notStarted ∧ c.status ≠ .failed := by
  constructor
  · rintro ⟨_, hs | hs⟩ <;> rw [hs] <;> exact ⟨nofun, nofun⟩
  · rintro ⟨hstarted, hfailed⟩
    refine ⟨h.started hstarted, ?_⟩
    cases hs : c.status with
    | notStarted => exact absurd hs hstarted
    | inProgress => exact absurd hs hstatus
    | completed => exact .inl rfl
    | failed => exact absurd hs hfailed
    | partiallyCompleted => exact .inr rfl

theorem Effect.sound_iff (heffect : c.Effect op c') (h : c.Tracks)
    (hsound : c.currentPhase = .cell → c.EndedWell) :
    (c'.currentPhase = .cell → c'.EndedWell) ↔ c.Clear op := by
  -- a bootstrap that is not over is not behind the cell phase
  have hbefore : ∀ status, c.status = status → status ≠ .completed → status ≠ .partiallyCompleted →
      c.currentPhase ≠ .cell := by
    rintro _ rfl hcompleted hpartially hcell
    rcases (hsound hcell).2 with hs | hs
    · exact hcompleted hs
    · exact hpartially hs
  cases heffect with
  | kept _ hclear => exact iff_of_true hsound (hclear fun hs => hbefore _ hs nofun nofun)
  | counted count => exact iff_of_true hsound trivial
  | started nodeIds now hstatus =>
    exact iff_of_true (fun hcell => absurd hcell (hbefore _ hstatus nofun nofun)) trivial
  | assigned => exact iff_of_true hsound trivial
  | ended _ status hclear hstatus =>
    exact iff_of_true (fun hcell => absurd hcell (hbefore _ hstatus nofun nofun)) hclear
  | entered hphase hstatus =>
    -- the phase changes: the status alone decides
    show (Phase.cell = .cell → c.EndedWell) ↔ (c.currentPhase = .discovery → _)
    rw [endedWell_iff h hstatus]
    exact ⟨fun hs _ => hs rfl, fun hs _ => hs hphase⟩
  | restarted =>
    constructor
    · intro hafter hcell
      exact absurd (hafter hcell).1 Bool.false_ne_true
    · exact fun hphase hcell => absurd hcell hphase

/-! ## 4. Whole runs -/

/-- **The bootstrap state machine** is sound along a run exactly when the run enters the cell phase only
    from a bootstrap that ended well and resets none behind it. -/
theorem bootstrap_sound_iff (strategy : BootstrapStrategy) (timeoutSecs : Nat) (ops : List Op) :
    (∀ pre, pre <+: ops → (run step ((new strategy).withTimeout timeoutSecs) pre).Sound) ↔
      RunMeets step Clear ((new strategy).withTimeout timeoutSecs) ops := by
  have hstart : ((new strategy).withTimeout timeoutSecs).Tracks :=
    ⟨fun _ h => (nomatch h), fun _ => rfl, fun h => absurd rfl h⟩
  have hstep : ∀ c op, Tracks c → Sound c → (Sound (step c op) ↔ Clear c op) := by
    intro c op htracks hsound
    rw [(tracks_step op htracks).sound_iff]
    exact (effect_step c op).sound_iff htracks hsound.phase
  exact run_within_iff_of_invariant Tracks Sound (fun c op => tracks_step op) hstep hstart
    (hstart.sound_iff.mpr nofun)

/-- The cell phase without a bootstrap; and one that failed; and one that is reset and started
    again. -/
theorem cell_phase_without_bootstrap :
    (¬ (run step (new .geographic) [.transitionToCellPhase]).Sound) ∧
      (¬ (run step (new .geographic) [.startBootstrap ["n1"] 0, .checkCompletion 60000000000,
        .transitionToCellPhase]).Sound) ∧
      ¬ (run step (new .geographic) [.startBootstrap ["n1"] 0, .forceComplete,
        .transitionToCellPhase, .resetForRetry, .startBootstrap ["n1"] 1]).Sound := by
  refine ⟨fun h => ?_, fun h => ?_, fun h => ?_⟩
  · exact absurd (h.phase rfl) (by decide)
  · exact absurd (h.phase (by decide +kernel)) (by decide +kernel)
  · exact absurd (h.phase (by decide +kernel)) (by decide +kernel)

end DiscoveryCoordinator

end Peat.Discovery
