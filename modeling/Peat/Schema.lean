/-
  THE COMMON MESSAGE TYPES of peat-schema (common.proto, capability.proto), the
  capability helpers of models/capability.rs, and the crate's error type.

  `u64`, `u32` and `i32` fields that are only stored and compared are `Nat`
  and `Int`; a confidence (`f32`) is an exact rational.
-/
import Mathlib.Algebra.Order.Ring.Unbundled.Rat

namespace Peat

structure Timestamp where
  seconds : Nat
  nanos : Nat
  deriving DecidableEq, Repr

def secondsOf (timestamp : Option Timestamp) : Nat := (timestamp.map (·.seconds)).getD 0

def stampOf (now : Nat) : Option Timestamp := some ⟨now, 0⟩

def startsWith (s pat : String) : Bool := pat.toList.isPrefixOf s.toList

/-- The variants of `peat_protocol::Error` that the modelled functions return; a storage backend
    reports its failures as `storage`. -/
inductive Error where
  | storage (message : String)
  | internal (message : String)
  | invalidInput (message : String)
  | conflictDetected (message : String)
  deriving DecidableEq, Repr

structure InvalidTransition where
  fromState : String
  toState : String
  reason : String
  deriving DecidableEq, Repr

inductive CapabilityType where
  | unspecified | sensor | compute | communication | mobility | payload | emergent
  deriving DecidableEq, Repr

namespace CapabilityType

def toI32 : CapabilityType → Int
  | .unspecified => 0 | .sensor => 1 | .compute => 2 | .communication => 3
  | .mobility => 4 | .payload => 5 | .emergent => 6

def tryFrom : Int → Option CapabilityType
  | 0 => some .unspecified | 1 => some .sensor | 2 => some .compute | 3 => some .communication
  | 4 => some .mobility | 5 => some .payload | 6 => some .emergent
  | _ => none

end CapabilityType

structure Capability where
  id : String
  name : String
  capabilityType : Int
  confidence : ℚ
  metadataJson : String
  registeredAt : Option Timestamp
  deriving DecidableEq, Repr

namespace Capability

def new (id name : String) (capabilityType : CapabilityType) (confidence : ℚ) : Capability :=
  ⟨id, name, capabilityType.toI32, max 0 (min confidence 1), "", none⟩

def getCapabilityType (c : Capability) : CapabilityType :=
  (CapabilityType.tryFrom c.capabilityType).getD .unspecified

end Capability

end Peat
