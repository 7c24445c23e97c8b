/-
  THE SUMMARIES OF THE FOUR TIERS (peat-schema/proto/hierarchy.proto): cell, cohort,
  federation and coalition.

  The four messages have one shape: an id, a leader, the ids of the parts, numbers and
  aggregated fields. A cell counts its members (`CellCount`), the tiers above their
  parts and all members below (`GroupCount`). `float` and `double` fields are rationals,
  `uint32` fields naturals.
-/
import Peat.Models.Node

namespace Peat.Hierarchy

open Peat.Models

structure BoundingBox where
  southwest : Option Position
  northeast : Option Position
  maxAltitude : ℚ
  minAltitude : ℚ
  radiusM : ℚ
  deriving DecidableEq, Repr

class CountFields (κ : Type) where
  all : List κ
  mem_all : ∀ field, field ∈ all

inductive CellCount where
  | memberCount | operationalCount
  deriving DecidableEq, Repr

instance : CountFields CellCount where
  all := [.memberCount, .operationalCount]
  mem_all := fun field => by cases field <;> decide

inductive GroupCount where
  | childCount | totalMemberCount | operationalCount
  deriving DecidableEq, Repr

instance : CountFields GroupCount where
  all := [.childCount, .totalMemberCount, .operationalCount]
  mem_all := fun field => by cases field <;> decide

structure Summary (κ : Type) where
  id : String
  leaderId : String
  childIds : List String
  count : κ → Nat
  positionCentroid : Option Position
  avgFuelMinutes : ℚ
  worstHealth : Int
  aggregatedCapabilities : List Capability
  readinessScore : ℚ
  boundingBox : Option BoundingBox
  aggregatedAt : Option Timestamp

abbrev CellSummary := Summary CellCount

abbrev CohortSummary := Summary GroupCount

abbrev FederationSummary := Summary GroupCount

abbrev CoalitionSummary := Summary GroupCount

end Peat.Hierarchy
