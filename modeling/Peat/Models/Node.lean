/-
  NODE STATE of models/node.rs, its edits and its merge; and whether FUEL is a counter
  that merges.

  Every edit stamps the state with the wall clock. The merge copies the whole other
  state if its seconds are greater.
-/
import Peat.Lib.Newest
import Peat.Lib.Saturating
import Peat.Models.Operator

namespace Peat.Models

open Peat.Lib

structure Position where
  latitude : ℚ
  longitude : ℚ
  altitude : ℚ
  deriving DecidableEq, Repr

structure Kinematics where
  velocity : ℚ
  heading : ℚ
  acceleration : ℚ
  verticalSpeed : ℚ
  deriving DecidableEq, Repr

structure PositionError where
  circularError : ℚ
  linearError : ℚ
  verticalError : ℚ
  deriving DecidableEq, Repr

inductive HealthStatus where
  | unspecified | nominal | degraded | critical | failed
  deriving DecidableEq, Repr

def HealthStatus.toI32 : HealthStatus → Int
  | .unspecified => 0 | .nominal => 1 | .degraded => 2 | .critical => 3 | .failed => 4

def HealthStatus.tryFrom : Int → Option HealthStatus
  | 0 => some .unspecified | 1 => some .nominal | 2 => some .degraded | 3 => some .critical
  | 4 => some .failed
  | _ => none

theorem HealthStatus.tryFrom_toI32 (h : HealthStatus) : tryFrom h.toI32 = some h := by
  cases h <;> rfl

inductive Phase where
  | unspecified | discovery | cell | hierarchy
  deriving DecidableEq, Repr

def Phase.toI32 : Phase → Int
  | .unspecified => 0 | .discovery => 1 | .cell => 2 | .hierarchy => 3

structure NodeConfig where
  id : String
  nodeType : String
  capabilities : List Capability
  commRangeM : ℚ
  maxSpeedMps : ℚ
  operatorBinding : Option HumanMachinePair
  createdAt : Option Timestamp
  deriving DecidableEq, Repr

structure NodeState where
  position : Option Position
  fuelMinutes : UInt32
  health : Int
  phase : Int
  cellId : Option String
  zoneId : Option String
  timestamp : Option Timestamp
  kinematics : Option Kinematics
  positionError : Option PositionError
  deriving DecidableEq, Repr

namespace NodeState

/-! ## 1. The edits and the merge -/

def new (position : Position) (now : Nat) : NodeState :=
  ⟨some position, 120, HealthStatus.nominal.toI32, Phase.discovery.toI32, none, none, stampOf now,
    none, none⟩

def getHealth (s : NodeState) : HealthStatus := (HealthStatus.tryFrom s.health).getD .unspecified

def isOperational (s : NodeState) : Bool := s.getHealth != .failed && 0 < s.fuelMinutes

def updateTimestamp (s : NodeState) (now : Nat) : NodeState := { s with timestamp := stampOf now }

def updatePosition (s : NodeState) (position : Position) (now : Nat) : NodeState :=
  ({ s with position := some position } : NodeState).updateTimestamp now

def updateHealth (s : NodeState) (health : HealthStatus) (now : Nat) : NodeState :=
  ({ s with health := health.toI32 } : NodeState).updateTimestamp now

def updatePhase (s : NodeState) (phase : Phase) (now : Nat) : NodeState :=
  ({ s with phase := phase.toI32 } : NodeState).updateTimestamp now

def assignCell (s : NodeState) (cellId : String) (now : Nat) : NodeState :=
  ({ s with cellId := some cellId } : NodeState).updateTimestamp now

def leaveCell (s : NodeState) (now : Nat) : NodeState :=
  ({ s with cellId := none } : NodeState).updateTimestamp now

def assignZone (s : NodeState) (zoneId : String) (now : Nat) : NodeState :=
  ({ s with zoneId := some zoneId } : NodeState).updateTimestamp now

def leaveZone (s : NodeState) (now : Nat) : NodeState :=
  ({ s with zoneId := none } : NodeState).updateTimestamp now

def consumeFuel (s : NodeState) (minutes : UInt32) (now : Nat) : NodeState :=
  ({ s with fuelMinutes := saturatingSub s.fuelMinutes minutes } : NodeState).updateTimestamp now

def replenishFuel (s : NodeState) (minutes : UInt32) (now : Nat) : NodeState :=
  ({ s with fuelMinutes := saturatingAdd s.fuelMinutes minutes } : NodeState).updateTimestamp now

def merge (s other : NodeState) : NodeState :=
  if secondsOf s.timestamp < secondsOf other.timestamp then
    { s with
      position := other.position
      health := other.health
      phase := other.phase
      cellId := other.cellId
      zoneId := other.zoneId
      fuelMinutes := other.fuelMinutes
      timestamp := other.timestamp
      kinematics := other.kinematics
      positionError := other.positionError }
  else s

def seconds (s : NodeState) : Nat := secondsOf s.timestamp

theorem merge_eq_newest (a b : NodeState) : a.merge b = newest seconds a b := rfl

end NodeState

/-! ## 2. Operations -/

inductive NodeOp where
  | updatePosition (position : Position) (now : Nat)
  | updateHealth (health : HealthStatus) (now : Nat)
  | updatePhase (phase : Phase) (now : Nat)
  | assignCell (cellId : String) (now : Nat)
  | leaveCell (now : Nat)
  | assignZone (zoneId : String) (now : Nat)
  | leaveZone (now : Nat)
  | consumeFuel (minutes : UInt32) (now : Nat)
  | replenishFuel (minutes : UInt32) (now : Nat)
  deriving DecidableEq, Repr

namespace NodeOp

def clock : NodeOp → Nat
  | .updatePosition _ now => now
  | .updateHealth _ now => now
  | .updatePhase _ now => now
  | .assignCell _ now => now
  | .leaveCell now => now
  | .assignZone _ now => now
  | .leaveZone now => now
  | .consumeFuel _ now => now
  | .replenishFuel _ now => now

def fuelOp : NodeOp → Option CounterOp
  | .consumeFuel minutes _ => some (.dec minutes.toNat)
  | .replenishFuel minutes _ => some (.inc minutes.toNat)
  | _ => none

end NodeOp

def fuelOps (ops : List NodeOp) : List CounterOp := ops.filterMap NodeOp.fuelOp

namespace NodeState

def act (s : NodeState) : NodeOp → NodeState
  | .updatePosition position now => s.updatePosition position now
  | .updateHealth health now => s.updateHealth health now
  | .updatePhase phase now => s.updatePhase phase now
  | .assignCell cellId now => s.assignCell cellId now
  | .leaveCell now => s.leaveCell now
  | .assignZone zoneId now => s.assignZone zoneId now
  | .leaveZone now => s.leaveZone now
  | .consumeFuel minutes now => s.consumeFuel minutes now
  | .replenishFuel minutes now => s.replenishFuel minutes now

def fuel (s : NodeState) : Nat := s.fuelMinutes.toNat

variable (s : NodeState)

theorem timestamp_act (op : NodeOp) : (s.act op).timestamp = stampOf op.clock := by
  cases op <;> rfl

theorem fuel_act (op : NodeOp) :
    (s.act op).fuel = op.fuelOp.elim s.fuel (satStep u32Max s.fuel) := by
  cases op with
  | consumeFuel minutes now => exact toNat_saturatingSub s.fuelMinutes minutes
  | replenishFuel minutes now => exact toNat_saturatingAdd s.fuelMinutes minutes
  | _ => rfl

/-! ## 3. Runs -/

def lastClock (s : NodeState) (ops : List NodeOp) : Nat :=
  (ops.getLast?.map NodeOp.clock).getD s.seconds

theorem seconds_run (ops : List NodeOp) : (run act s ops).seconds = s.lastClock ops := by
  rcases ops.eq_nil_or_concat with rfl | ⟨pre, op, rfl⟩
  · rfl
  · rw [List.concat_eq_append, run_concat, seconds, timestamp_act, lastClock, List.getLast?_concat]
    rfl

theorem fuel_run (ops : List NodeOp) :
    ((run act s ops).fuel : Int) =
      s.fuel + net (fuelOps ops) + drift u32Max s.fuel (fuelOps ops) := by
  rw [run_filterMap fuel NodeOp.fuelOp fuel_act ops]
  exact run_satStep u32Max s.fuel (fuelOps ops)

/-- Merged in either order, the fuel has all changes of both sides. -/
def FuelSums (s : NodeState) (opsA opsB : List NodeOp) : Prop :=
  let a := run act s opsA
  let b := run act s opsB
  let total : Int := s.fuel + net (fuelOps opsA) + net (fuelOps opsB)
  ((a.merge b).fuel : Int) = total ∧ ((b.merge a).fuel : Int) = total

instance (s : NodeState) (opsA opsB : List NodeOp) : Decidable (FuelSums s opsA opsB) :=
  inferInstanceAs (Decidable (_ ∧ _))

theorem fuelSums_iff (opsA opsB : List NodeOp) :
    FuelSums s opsA opsB ↔
      (s.lastClock opsA ≤ s.lastClock opsB →
        net (fuelOps opsA) = drift u32Max s.fuel (fuelOps opsB)) ∧
      (s.lastClock opsB ≤ s.lastClock opsA →
        net (fuelOps opsB) = drift u32Max s.fuel (fuelOps opsA)) := by
  have ha := fuel_run s opsA
  have hb := fuel_run s opsB
  unfold FuelSums
  dsimp only
  rw [merge_eq_newest, merge_eq_newest, both_newest_iff fun t : NodeState =>
    (t.fuel : Int) = s.fuel + net (fuelOps opsA) + net (fuelOps opsB), seconds_run, seconds_run]
  refine and_congr (imp_congr_right fun _ => ?_) (imp_congr_right fun _ => ?_)
  · rw [hb]
    omega
  · rw [ha]
    omega

/-- **Fuel as a counter.** After merging both replicas hold the sum of all fuel changes if and only if each
    side whose last edit is not newer made a net change of zero, up to the drift of the other side. -/
theorem fuel_counter_iff (s : NodeState) (opsA opsB : List NodeOp) :
    (FuelSums s opsA opsB ↔
      (s.lastClock opsA ≤ s.lastClock opsB →
        net (fuelOps opsA) = drift u32Max s.fuel (fuelOps opsB)) ∧
      (s.lastClock opsB ≤ s.lastClock opsA →
        net (fuelOps opsB) = drift u32Max s.fuel (fuelOps opsA))) ∧
    (StaysWithin u32Max s.fuel (fuelOps opsA) → StaysWithin u32Max s.fuel (fuelOps opsB) →
      (FuelSums s opsA opsB ↔
        (s.lastClock opsA ≤ s.lastClock opsB → net (fuelOps opsA) = 0) ∧
        (s.lastClock opsB ≤ s.lastClock opsA → net (fuelOps opsB) = 0))) := by
  refine ⟨fuelSums_iff s opsA opsB, fun hA hB => ?_⟩
  rw [fuelSums_iff, drift_eq_zero hA, drift_eq_zero hB]

/-- 30 minutes consumed at A, 20 at B a second later: of 120 minutes 70 are left, and both replicas
    say 100. -/
theorem fuel_change_lost :
    let s := new ⟨0, 0, 0⟩ 10
    let opsA : List NodeOp := [.consumeFuel 30 11]
    let opsB : List NodeOp := [.consumeFuel 20 12]
    let a := run act s opsA
    let b := run act s opsB
    (StaysWithin u32Max s.fuel (fuelOps opsA) ∧ StaysWithin u32Max s.fuel (fuelOps opsB)) ∧
      (s.fuel = 120 ∧ (a.merge b).fuel = 100 ∧ (b.merge a).fuel = 100) ∧
      ¬ FuelSums s opsA opsB := by
  decide

end NodeState

end Peat.Models
