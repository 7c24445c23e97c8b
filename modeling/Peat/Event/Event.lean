/-
  THE EVENT MESSAGES of peat-schema (event.proto): events, their routing policy and the
  enumerations its wire numbers stand for.

  `EventPriority` is also the index of the four queues that both the
  transmitter and the priority queue keep (`priority_to_level`).
-/
import Mathlib.Data.List.Nodup
import Peat.Schema

namespace Peat.Event

def u32Count : Nat := 4294967296

def u64Count : Nat := 18446744073709551616

inductive Build where
  | checked | release
  deriving DecidableEq, Repr

def Build.add (count : Nat) : Build → Nat → Nat → Option Nat
  | .checked, a, b => if a + b < count then some (a + b) else none
  | .release, a, b => some ((a + b) % count)

inductive EventClass where
  | unspecified | product | anomaly | telemetry | command
  deriving DecidableEq, Repr

namespace EventClass

def toI32 : EventClass → Int
  | .unspecified => 0 | .product => 1 | .anomaly => 2 | .telemetry => 3 | .command => 4

def tryFrom : Int → Option EventClass
  | 0 => some .unspecified | 1 => some .product | 2 => some .anomaly | 3 => some .telemetry
  | 4 => some .command
  | _ => none

def ofWire (n : Int) : EventClass := (tryFrom n).getD .unspecified

theorem tryFrom_toI32 (c : EventClass) : tryFrom c.toI32 = some c := by
  cases c <;> rfl

theorem toI32_ofWire {n : Int} : (ofWire n).toI32 = n ↔ (tryFrom n).isSome := by
  constructor
  · intro h
    rw [← h, tryFrom_toI32]
    rfl
  · unfold ofWire tryFrom
    split <;> first | exact fun _ => rfl | nofun

end EventClass

inductive PropagationMode where
  | full | summary | query | local
  deriving DecidableEq, Repr

namespace PropagationMode

def toI32 : PropagationMode → Int
  | .full => 0 | .summary => 1 | .query => 2 | .local => 3

def tryFrom : Int → Option PropagationMode
  | 0 => some .full | 1 => some .summary | 2 => some .query | 3 => some .local
  | _ => none

end PropagationMode

inductive EventPriority where
  | critical | high | normal | low
  deriving DecidableEq, Repr

namespace EventPriority

def toI32 : EventPriority → Int
  | .critical => 0 | .high => 1 | .normal => 2 | .low => 3

def tryFrom : Int → Option EventPriority
  | 0 => some .critical | 1 => some .high | 2 => some .normal | 3 => some .low
  | _ => none

def toLevel : EventPriority → Nat
  | .critical => 0 | .high => 1 | .normal => 2 | .low => 3

def levels : List EventPriority := [.critical, .high, .normal, .low]

theorem nodup_levels : levels.Nodup := by decide

theorem mem_levels (p : EventPriority) : p ∈ levels := by cases p <;> decide

end EventPriority

structure AggregationPolicy where
  propagation : Int
  priority : Int
  ttlSeconds : Nat
  aggregationWindowMs : Nat
  deriving DecidableEq, Repr

structure PeatEvent where
  eventId : String
  timestamp : Option Timestamp
  sourceNodeId : String
  sourceFormationId : String
  sourceInstanceId : Option String
  eventClass : Int
  eventType : String
  routing : Option AggregationPolicy
  payloadTypeUrl : String
  payloadValue : List UInt8
  deriving DecidableEq, Repr

namespace PeatEvent

/-- `get_priority` and the first half of `get_level`: no routing, or an unknown number, reads as
    `normal`. -/
def priority (e : PeatEvent) : EventPriority :=
  (e.routing.map fun r => (EventPriority.tryFrom r.priority).getD .normal).getD .normal

end PeatEvent

end Peat.Event
