/-
  CAPABILITIES OF A CELL (cell/capability_aggregation.rs): what its members can do
  together, and how ready that makes it.

  The capabilities of the operational members are collected by type; the confidence of a
  type is the members' mean with a bonus for redundancy and one for authority.
  Confidences (`f32`) are rationals, and every constant and operation is rounded; between
  0 and 1, where `Capability::new` keeps them, nothing overflows.
-/
import Peat.Lib.Rounding
import Peat.Lib.HashMap
import Peat.Models.Node
import Mathlib.Algebra.Field.Rat

namespace Peat.Cell

open Peat.Lib Peat.Models

inductive AggregationError where
  | config (message : String)
  | hierarchicalOp (message operation : String)
  deriving DecidableEq, Repr

abbrev Member := NodeConfig × NodeState

/-! ## 1. Aggregated capabilities -/

structure AggregatedCapability where
  capabilityType : CapabilityType
  confidence : ℚ
  contributorCount : Nat
  contributors : List String
  maxAuthority : Option AuthorityLevel
  requiresOversight : Bool
  deriving DecidableEq, Repr

namespace AggregatedCapability

def checkOversightRequirement (capabilityType : CapabilityType)
    (maxAuthority : Option AuthorityLevel) : Bool :=
  match capabilityType with
  | .payload => maxAuthority != some .commander
  | .communication => maxAuthority == none || maxAuthority == some .observer
  | _ => false

def new (capabilityType : CapabilityType) (confidence : ℚ) (contributors : List String)
    (maxAuthority : Option AuthorityLevel) : AggregatedCapability where
  capabilityType := capabilityType
  confidence := confidence
  contributorCount := contributors.length
  contributors := contributors
  maxAuthority := maxAuthority
  requiresOversight := checkOversightRequirement capabilityType maxAuthority

def oversightFactor : Option AuthorityLevel → ℚ
  | some .commander => 1
  | some .supervisor => roundF32 (85 / 100)
  | some .advisor => roundF32 (7 / 10)
  | some .observer => roundF32 (6 / 10)
  | some .unspecified => 5 / 10
  | none => 5 / 10

def effectiveConfidence (c : AggregatedCapability) : ℚ :=
  min (if c.requiresOversight then roundF32 (c.confidence * oversightFactor c.maxAuthority)
    else c.confidence) 1

def isMissionReady (c : AggregatedCapability) : Bool :=
  roundF32 (if c.requiresOversight then 8 / 10 else 7 / 10) ≤ c.confidence && 0 < c.contributorCount &&
    (!c.requiresOversight || c.maxAuthority.isSome)

end AggregatedCapability

/-! ## 2. The aggregator -/

structure Contributor where
  id : String
  confidence : ℚ
  authority : Option AuthorityLevel
  deriving DecidableEq, Repr

def redundancyBonus : Nat → ℚ
  | 1 => 0
  | 2 => roundF32 (5 / 100)
  | 3 => roundF32 (10 / 100)
  | 4 => roundF32 (10 / 100)
  | _ => roundF32 (15 / 100)

def authorityBonus : Option AuthorityLevel → ℚ
  | some .commander => roundF32 (10 / 100)
  | some .supervisor => roundF32 (5 / 100)
  | some .advisor => roundF32 (3 / 100)
  | some .observer => 0
  | some .unspecified => 0
  | none => 0

/-- A sum of `f32`, from the left. -/
def sumF32 (l : List ℚ) : ℚ := l.foldl (fun sum x => roundF32 (sum + x)) 0

def aggregateCapabilityType (capabilityType : CapabilityType) (contributors : List Contributor) :
    Except AggregationError AggregatedCapability :=
  if contributors.isEmpty then
    .error (.config "Cannot aggregate capability with no contributors")
  else
    let avgConfidence :=
      roundF32 (sumF32 (contributors.map (·.confidence)) / roundF32 contributors.length)
    let baseConfidence := min (roundF32 (avgConfidence + redundancyBonus contributors.length)) 1
    let maxAuthority := maxByKey AuthorityLevel.toI32 (contributors.filterMap (·.authority))
    .ok (AggregatedCapability.new capabilityType
      (min (roundF32 (baseConfidence + authorityBonus maxAuthority)) 1) (contributors.map (·.id))
      maxAuthority)

def pushContributor (map : HashMap CapabilityType (List Contributor))
    (capabilityType : CapabilityType) (contributor : Contributor) :
    HashMap CapabilityType (List Contributor) :=
  map.insert capabilityType ((map.lookup capabilityType).getD [] ++ [contributor])

def collectMember (map : HashMap CapabilityType (List Contributor)) (member : Member) :
    HashMap CapabilityType (List Contributor) :=
  if member.2.isOperational then
    member.1.capabilities.foldl (fun map cap => pushContributor map cap.getCapabilityType
      ⟨member.1.id, cap.confidence,
        member.1.operatorBinding.bind HumanMachinePair.maxAuthority⟩) map
  else map

def insertAggregated (aggregated : HashMap CapabilityType AggregatedCapability)
    (entry : Σ _ : CapabilityType, List Contributor) :
    Except AggregationError (HashMap CapabilityType AggregatedCapability) := do
  let aggCap ← aggregateCapabilityType entry.1 entry.2
  pure (aggregated.insert entry.1 aggCap)

def aggregateCapabilities (members : List Member) :
    Except AggregationError (HashMap CapabilityType AggregatedCapability) :=
  (members.foldl collectMember ∅).entries.foldlM insertAggregated ∅

def readinessWeight : CapabilityType → ℚ
  | .communication => roundF32 (30 / 100)
  | .sensor => 25 / 100
  | .compute => roundF32 (20 / 100)
  | .payload => roundF32 (15 / 100)
  | .mobility => roundF32 (10 / 100)
  | _ => roundF32 (5 / 100)

def calculateReadinessScore (capabilities : HashMap CapabilityType AggregatedCapability) : ℚ :=
  let totalScore := sumF32 (capabilities.entries.map fun e =>
    roundF32 (e.2.effectiveConfidence * readinessWeight e.1))
  let totalWeight := sumF32 (capabilities.entries.map fun e => readinessWeight e.1)
  if capabilities.entries.isEmpty then 0
  else if 0 < totalWeight then roundF32 (totalScore / totalWeight)
  else 0

def identifyGaps (capabilities : HashMap CapabilityType AggregatedCapability)
    (requiredCapabilities : List CapabilityType) : List CapabilityType :=
  requiredCapabilities.filter fun capType =>
    match capabilities.lookup capType with
    | none => true
    | some aggCap => !aggCap.isMissionReady

/-! ## 3. It never fails -/

theorem aggregateCapabilityType_ok (t : CapabilityType) {contributors : List Contributor}
    (h : contributors ≠ []) : ∃ c, aggregateCapabilityType t contributors = .ok c := by
  unfold aggregateCapabilityType
  rw [if_neg (mt List.isEmpty_iff.mp h)]
  exact ⟨_, rfl⟩

def Contributed (map : HashMap CapabilityType (List Contributor)) : Prop :=
  ∀ t contributors, map.lookup t = some contributors → contributors ≠ []

variable {map : HashMap CapabilityType (List Contributor)}

theorem contributed_push (h : Contributed map) (t : CapabilityType) (c : Contributor) :
    Contributed (pushContributor map t c) :=
  forall_lookup_insert (List.append_ne_nil_of_right_ne_nil _ (List.cons_ne_nil _ _)) h

theorem contributed_collect (h : Contributed map) (member : Member) :
    Contributed (collectMember map member) := by
  unfold collectMember
  by_cases ho : member.2.isOperational = true
  · rw [if_pos ho]
    exact run_invariant Contributed (fun map cap hm => contributed_push hm _ _) h _
  · rw [if_neg ho]
    exact h

theorem aggregateCapabilities_ok (members : List Member) :
    ∃ aggregated, aggregateCapabilities members = .ok aggregated := by
  have hmap : Contributed (members.foldl collectMember ∅) :=
    run_invariant Contributed (fun map member hm => contributed_collect hm member)
      (fun t _ h => (nomatch (AList.lookup_empty t).symm.trans h)) members
  have hround : ∀ pre entry aggregated, pre ++ [entry] <+: (members.foldl collectMember ∅).entries →
      True → ∃ aggregated', insertAggregated aggregated entry = .ok aggregated' ∧ True := by
    intro pre entry aggregated hpre _
    have hmem : entry ∈ (members.foldl collectMember ∅).entries :=
      hpre.subset (List.mem_append_right _ (List.mem_singleton_self entry))
    obtain ⟨c, hc⟩ := aggregateCapabilityType_ok entry.1
      (hmap entry.1 entry.2 (lookup_eq_some_iff.mpr hmem))
    refine ⟨aggregated.insert entry.1 c, ?_, trivial⟩
    rw [insertAggregated, hc]
    rfl
  obtain ⟨aggregated, h, _⟩ := foldlM_ok (fun _ _ => True) hround trivial
  exact ⟨aggregated, h⟩

end Peat.Cell
