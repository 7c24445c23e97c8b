/-
  THE COMMAND MESSAGES of peat-schema (command.proto): commands, their targets,
  acknowledgments and status, and the enumerations their wire numbers stand for.

  The body of a command (`command_type`) is never read by the coordinator; it
  is kept as its kind and its encoding.
-/
import Peat.Schema

namespace Peat.Command

inductive Scope where
  | unspecified | individual | cell | cohort | broadcast | federation | coalition
  deriving DecidableEq, Repr

namespace Scope

def toI32 : Scope → Int
  | .unspecified => 0 | .individual => 1 | .cell => 2 | .cohort => 3 | .broadcast => 4
  | .federation => 5 | .coalition => 6

def ofWire : Int → Scope
  | 1 => .individual | 2 => .cell | 3 => .cohort | 4 => .broadcast | 5 => .federation
  | 6 => .coalition
  | _ => .unspecified

end Scope

inductive CommandPriority where
  | unspecified | routine | priority | immediate | flash
  deriving DecidableEq, Repr

namespace CommandPriority

def toI32 : CommandPriority → Nat
  | .unspecified => 0 | .routine => 1 | .priority => 2 | .immediate => 3 | .flash => 4

def ofWire : Int → CommandPriority
  | 0 => .unspecified | 2 => .priority | 3 => .immediate | 4 => .flash
  | _ => .routine

end CommandPriority

inductive ConflictPolicy where
  | unspecified | lastWriteWins | highestPriorityWins | highestAuthorityWins | mergeCompatible
  | rejectConflict
  deriving DecidableEq, Repr

namespace ConflictPolicy

def toI32 : ConflictPolicy → Int
  | .unspecified => 0 | .lastWriteWins => 1 | .highestPriorityWins => 2
  | .highestAuthorityWins => 3 | .mergeCompatible => 4 | .rejectConflict => 5

def ofWire : Int → ConflictPolicy
  | 0 => .unspecified | 1 => .lastWriteWins | 3 => .highestAuthorityWins
  | 4 => .mergeCompatible | 5 => .rejectConflict
  | _ => .highestPriorityWins

end ConflictPolicy

structure CommandTarget where
  scope : Int
  targetIds : List String
  deriving DecidableEq, Repr

inductive CommandType where
  | missionOrder (encoded : List UInt8)
  | engagementOrder (encoded : List UInt8)
  | formationChange (encoded : List UInt8)
  | configurationUpdate (encoded : List UInt8)
  deriving DecidableEq, Repr

structure HierarchicalCommand where
  commandId : String
  originatorId : String
  target : Option CommandTarget
  commandType : Option CommandType
  priority : Int
  bufferPolicy : Int
  conflictPolicy : Int
  acknowledgmentPolicy : Int
  leaderChangePolicy : Int
  issuedAt : Option Timestamp
  expiresAt : Option Timestamp
  version : Nat
  deriving DecidableEq, Repr

namespace HierarchicalCommand

def targetIds (cmd : HierarchicalCommand) : List String :=
  (cmd.target.map CommandTarget.targetIds).getD []

def scope (cmd : HierarchicalCommand) : Scope :=
  (cmd.target.map fun t => Scope.ofWire t.scope).getD .unspecified

def policy (cmd : HierarchicalCommand) : ConflictPolicy := ConflictPolicy.ofWire cmd.conflictPolicy

end HierarchicalCommand

structure CommandAcknowledgment where
  commandId : String
  nodeId : String
  status : Int
  reason : Option String
  timestamp : Option Timestamp
  deriving DecidableEq, Repr

structure CommandStatus where
  commandId : String
  state : Int
  acknowledgments : List CommandAcknowledgment
  lastUpdated : Option Timestamp
  deriving DecidableEq, Repr

end Peat.Command
