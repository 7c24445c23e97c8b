/-
  DOES THE GROUPING SHOW? Nodes are grouped into cells, cohorts, federations and one
  coalition and aggregated tier by tier; the same nodes are aggregated as one cell.
-/
import Peat.Hierarchy.StateAggregation

namespace Peat.Hierarchy

open Peat.Lib Peat.Models Peat.Cell

/-! ## 1. Formations -/

structure CellFormation where
  id : String
  leaderId : String
  now : Timestamp
  members : List Member
  operational : ∃ m ∈ members, m.2.isOperational = true
  positioned : ∀ m ∈ members, m.2.position.isSome = true

structure Formation (α : Type) where
  id : String
  leaderId : String
  now : Timestamp
  parts : List α
  nonempty : parts ≠ []

abbrev CohortFormation := Formation CellFormation
abbrev FederationFormation := Formation CohortFormation
abbrev CoalitionFormation := Formation FederationFormation

def operationalNodes (members : List Member) : List NodeState :=
  (members.filter (·.2.isOperational)).map (·.2)

namespace CellFormation

def nodes (c : CellFormation) : List NodeState := operationalNodes c.members

def summary (haversineDistance : ℚ → ℚ → ℚ → ℚ → ℚ) (c : CellFormation) :
    Except AggregationError CellSummary :=
  aggregateCell haversineDistance c.id c.leaderId c.members c.now

def centroid (c : CellFormation) : Position := meanPosition (positionsOf c.nodes)

end CellFormation

namespace Formation

variable {α β κ : Type}

def gather (items : α → List β) (f : Formation α) : List β := f.parts.flatMap items

def meanCentroid (centroid : α → Position) (f : Formation α) : Position :=
  meanPosition (f.parts.map centroid)

def summarize (part : α → Except AggregationError (Summary κ))
    (aggregate : String → String → List (Summary κ) → Timestamp →
      Except AggregationError (Summary GroupCount))
    (f : Formation α) : Except AggregationError (Summary GroupCount) := do
  let parts ← f.parts.mapM part
  aggregate f.id f.leaderId parts f.now

end Formation

namespace CohortFormation

def members (c : CohortFormation) : List Member := c.gather CellFormation.members

def nodes (c : CohortFormation) : List NodeState := c.gather CellFormation.nodes

def summary (haversineDistance : ℚ → ℚ → ℚ → ℚ → ℚ) (c : CohortFormation) :
    Except AggregationError CohortSummary :=
  c.summarize (CellFormation.summary haversineDistance) aggregateCohort

def centroid (c : CohortFormation) : Position := c.meanCentroid CellFormation.centroid

end CohortFormation

namespace FederationFormation

def members (c : FederationFormation) : List Member := c.gather CohortFormation.members

def nodes (c : FederationFormation) : List NodeState := c.gather CohortFormation.nodes

def summary (haversineDistance : ℚ → ℚ → ℚ → ℚ → ℚ) (c : FederationFormation) :
    Except AggregationError FederationSummary :=
  c.summarize (CohortFormation.summary haversineDistance) aggregateFederation

def centroid (c : FederationFormation) : Position := c.meanCentroid CohortFormation.centroid

end FederationFormation

namespace CoalitionFormation

def members (c : CoalitionFormation) : List Member := c.gather FederationFormation.members

def nodes (c : CoalitionFormation) : List NodeState := c.gather FederationFormation.nodes

def summary (haversineDistance : ℚ → ℚ → ℚ → ℚ → ℚ) (c : CoalitionFormation) :
    Except AggregationError CoalitionSummary :=
  c.summarize (FederationFormation.summary haversineDistance) aggregateCoalition

def centroid (c : CoalitionFormation) : Position := c.meanCentroid FederationFormation.centroid

/-- The formations of each tier have the same number of parts. -/
def EvenlySized (members cells cohorts : Nat) (c : CoalitionFormation) : Prop :=
  ∀ federation ∈ c.parts, federation.parts.length = cohorts ∧
    ∀ cohort ∈ federation.parts, cohort.parts.length = cells ∧
      ∀ cell ∈ cohort.parts, cell.nodes.length = members

end CoalitionFormation

/-! ## 2. Every tier is summarised -/

def Summarises {κ : Type} [MemberCounts κ] (result : Except AggregationError (Summary κ))
    (nodes : List NodeState) (centroid : Position) : Prop :=
  ∃ s, result = .ok s ∧ Describes s nodes ∧ s.positionCentroid = some centroid

theorem summarises_cell (haversineDistance : ℚ → ℚ → ℚ → ℚ → ℚ) (cellId leaderId : String)
    {members : List Member} (now : Timestamp) (hop : ∃ m ∈ members, m.2.isOperational = true)
    (hpos : ∀ m ∈ members, m.2.position.isSome = true) :
    Summarises (aggregateCell haversineDistance cellId leaderId members now)
      (operationalNodes members) (meanPosition (positionsOf (operationalNodes members))) := by
  refine aggregateCell_describes haversineDistance cellId leaderId now ?_
  obtain ⟨m, hm, ho⟩ := hop
  obtain ⟨p, hp⟩ := Option.isSome_iff_exists.mp (hpos m hm)
  have hnode : m.2 ∈ operationalNodes members :=
    List.mem_map.mpr ⟨m, List.mem_filter.mpr ⟨hm, ho⟩, rfl⟩
  exact List.ne_nil_of_mem (List.mem_filterMap.mpr ⟨m.2, hnode, hp⟩)

theorem Formation.summarises {α κ : Type} [MemberCounts κ] {f : Formation α}
    {part : α → Except AggregationError (Summary κ)} {nodes : α → List NodeState}
    {centroid : α → Position} (tier : Tier)
    (h : ∀ a ∈ f.parts, Summarises (part a) (nodes a) (centroid a)) :
    Summarises (f.summarize part (aggregateParts tier)) (f.gather nodes)
      (f.meanCentroid centroid) := by
  obtain ⟨a, ha⟩ := List.exists_mem_of_ne_nil f.parts f.nonempty
  obtain ⟨s, _⟩ := h a ha
  have : Nonempty (Summary κ) := ⟨s⟩
  choose! summary hsummary using h
  unfold Formation.summarize
  rw [mapM_ok fun a ha => (hsummary a ha).1]
  exact aggregateParts_describes tier f.id f.leaderId f.now f.nonempty
    (fun a ha => (hsummary a ha).2.1) (fun a ha => (hsummary a ha).2.2)

theorem CoalitionFormation.summarises (haversineDistance : ℚ → ℚ → ℚ → ℚ → ℚ)
    (c : CoalitionFormation) : Summarises (c.summary haversineDistance) c.nodes c.centroid :=
  Formation.summarises coalitionTier fun _ _ =>
    Formation.summarises federationTier fun _ _ =>
      Formation.summarises cohortTier fun cell _ =>
        summarises_cell haversineDistance cell.id cell.leaderId cell.now cell.operational
          cell.positioned

/-! ## 3. All members of a coalition -/

theorem operationalNodes_gather {α : Type} (members : α → List Member) (f : Formation α) :
    operationalNodes (f.gather members) = f.gather fun a => operationalNodes (members a) := by
  unfold operationalNodes Formation.gather
  rw [List.filter_flatMap, List.map_flatMap]

variable (c : CoalitionFormation)

theorem CoalitionFormation.operationalNodes_members : operationalNodes c.members = c.nodes := by
  have hcohort : ∀ k : CohortFormation, operationalNodes k.members = k.nodes :=
    operationalNodes_gather CellFormation.members
  have hfederation : ∀ f : FederationFormation, operationalNodes f.members = f.nodes := fun f =>
    (operationalNodes_gather CohortFormation.members f).trans
      (congrArg (fun nodes => f.gather nodes) (funext hcohort))
  exact (operationalNodes_gather FederationFormation.members c).trans
    (congrArg (fun nodes => c.gather nodes) (funext hfederation))

theorem CoalitionFormation.exists_cell :
    ∃ cell : CellFormation, ∀ m ∈ cell.members, m ∈ c.members := by
  obtain ⟨f, hf⟩ := List.exists_mem_of_ne_nil c.parts c.nonempty
  obtain ⟨k, hk⟩ := List.exists_mem_of_ne_nil f.parts f.nonempty
  obtain ⟨cell, hcell⟩ := List.exists_mem_of_ne_nil k.parts k.nonempty
  exact ⟨cell, fun m hm => List.mem_flatMap.mpr ⟨f, hf, List.mem_flatMap.mpr ⟨k, hk,
    List.mem_flatMap.mpr ⟨cell, hcell, hm⟩⟩⟩⟩

theorem CoalitionFormation.positioned {m : Member} (hm : m ∈ c.members) :
    m.2.position.isSome = true := by
  obtain ⟨f, _, hm⟩ := List.mem_flatMap.mp hm
  obtain ⟨k, _, hm⟩ := List.mem_flatMap.mp hm
  obtain ⟨cell, _, hm⟩ := List.mem_flatMap.mp hm
  exact cell.positioned m hm

/-! ## 4. Equally large formations -/

theorem meanPosition_perm {xs ys : List Position} (h : xs.Perm ys) :
    meanPosition xs = meanPosition ys := by
  unfold meanPosition
  rw [mean_perm (h.map (·.latitude)), mean_perm (h.map (·.longitude)),
    mean_perm (h.map (·.altitude))]

theorem meanPosition_flatMap {ι : Type} {groups : List ι} {positions : ι → List Position} {n : Nat}
    (hn : ∀ i ∈ groups, (positions i).length = n) :
    meanPosition (groups.map fun i => meanPosition (positions i)) =
      meanPosition (groups.flatMap positions) := by
  have hcoord : ∀ coord : Position → ℚ,
      mean (groups.map fun i => mean ((positions i).map coord)) =
        mean ((groups.flatMap positions).map coord) := by
    intro coord
    rw [List.map_flatMap]
    exact mean_flatMap fun i hi => (List.length_map _).trans (hn i hi)
  unfold meanPosition
  rw [List.map_map, List.map_map, List.map_map, ← hcoord, ← hcoord, ← hcoord]
  rfl

def MeanOf (n : Nat) (nodes : List NodeState) (centroid : Position) : Prop :=
  (positionsOf nodes).length = n ∧ centroid = meanPosition (positionsOf nodes)

theorem Formation.meanOf {α : Type} {f : Formation α} {centroid : α → Position}
    {nodes : α → List NodeState} {n : Nat}
    (h : ∀ a ∈ f.parts, MeanOf n (nodes a) (centroid a)) :
    MeanOf (f.parts.length * n) (f.gather nodes) (f.meanCentroid centroid) := by
  have hn : ∀ a ∈ f.parts, (positionsOf (nodes a)).length = n := fun a ha => (h a ha).1
  unfold MeanOf Formation.meanCentroid Formation.gather
  rw [positionsOf_flatMap, List.map_congr_left fun a ha => (h a ha).2]
  exact ⟨length_flatMap_const hn, meanPosition_flatMap hn⟩

theorem CellFormation.meanOf {c : CellFormation} {n : Nat} (h : c.nodes.length = n) :
    MeanOf n c.nodes c.centroid := by
  refine ⟨(List.filterMap_length_eq_length.mpr fun node hnode => ?_).trans h, rfl⟩
  obtain ⟨m, hm, rfl⟩ := List.mem_map.mp hnode
  exact c.positioned m (List.mem_filter.mp hm).1

theorem CoalitionFormation.meanOf {c : CoalitionFormation} {members cells cohorts : Nat}
    (h : c.EvenlySized members cells cohorts) :
    MeanOf (c.parts.length * (cohorts * (cells * members))) c.nodes c.centroid := by
  refine Formation.meanOf fun federation hf => ?_
  rw [← (h federation hf).1]
  refine Formation.meanOf fun cohort hk => ?_
  rw [← ((h federation hf).2 cohort hk).1]
  exact Formation.meanOf fun cell hcell =>
    CellFormation.meanOf (((h federation hf).2 cohort hk).2 cell hcell)

/-! ## 5. The grouping and the figures -/

/-- **Aggregation tier by tier and at once**, in a release build (overflow checks panic on a fuel sum beyond
    a `u32`). Counts, worst health and box do not show the grouping, nor does the average fuel if all fuel
    fits into a `u32`; the centroid does not if the formations of a tier are equally large. -/
theorem aggregation_forgets_grouping (haversineDistance : ℚ → ℚ → ℚ → ℚ → ℚ)
    (c : CoalitionFormation) (members : List Member) (h : members.Perm c.members)
    (cellId leaderId : String) (now : Timestamp) :
    ∃ summary flat, c.summary haversineDistance = .ok summary ∧
      aggregateCell haversineDistance cellId leaderId members now = .ok flat ∧
      SameFigures summary flat ∧
      (fuelSum c.nodes < u32Size → summary.avgFuelMinutes = flat.avgFuelMinutes) ∧
      summary.positionCentroid = some c.centroid ∧
      ∀ perCell perCohort perFederation, c.EvenlySized perCell perCohort perFederation →
        summary.positionCentroid = flat.positionCentroid := by
  obtain ⟨cell, hcell⟩ := c.exists_cell
  obtain ⟨m, hm, ho⟩ := cell.operational
  obtain ⟨summary, hsummary, hdescribes, hcentroid⟩ := c.summarises haversineDistance
  obtain ⟨flat, hflat, hdescribes', hcentroid'⟩ := summarises_cell haversineDistance cellId leaderId
    now ⟨m, h.mem_iff.mpr (hcell m hm), ho⟩ fun m hm => c.positioned (h.mem_iff.mp hm)
  have hnodes : c.nodes.Perm (operationalNodes members) := by
    rw [← c.operationalNodes_members]
    exact ((h.filter _).map _).symm
  obtain ⟨hsame, hfuel⟩ := hdescribes.unique hdescribes' hnodes
  refine ⟨summary, flat, hsummary, hflat, hsame, hfuel, hcentroid, fun _ _ _ heven => ?_⟩
  have hpositions : (positionsOf c.nodes).Perm (positionsOf (operationalNodes members)) :=
    hnodes.filterMap _
  rw [hcentroid, hcentroid', (CoalitionFormation.meanOf heven).2, meanPosition_perm hpositions]

def nodeAt (id : String) (latitude : ℚ) (fuelMinutes : UInt32) : Member :=
  (⟨id, "UAV", [], 0, 0, none, none⟩,
    ⟨some ⟨latitude, 0, 0⟩, fuelMinutes, HealthStatus.nominal.toI32, Phase.hierarchy.toI32, none,
      none, none, none, none⟩)

def oneAndTwo : CoalitionFormation :=
  let single : CellFormation :=
    ⟨"cell-1", "a", ⟨0, 0⟩, [nodeAt "a" 0 60], by decide +kernel, by decide +kernel⟩
  let pair : CellFormation :=
    ⟨"cell-2", "b", ⟨0, 0⟩, [nodeAt "b" 3 90, nodeAt "c" 3 120], by decide +kernel,
      by decide +kernel⟩
  ⟨"coalition", "a", ⟨0, 0⟩, [⟨"federation", "a", ⟨0, 0⟩, [⟨"cohort", "a", ⟨0, 0⟩, [single, pair],
    List.cons_ne_nil _ _⟩], List.cons_ne_nil _ _⟩], List.cons_ne_nil _ _⟩

/-- The three nodes in another order: every figure agrees, the average fuel included. -/
theorem aggregation_forgets_grouping_oneAndTwo :
    oneAndTwo.members.reverse.Perm oneAndTwo.members ∧ fuelSum oneAndTwo.nodes < u32Size ∧
    ∃ summary flat, oneAndTwo.summary (fun _ _ _ _ => 0) = .ok summary ∧
      aggregateCell (fun _ _ _ _ => 0) "all" "c" oneAndTwo.members.reverse ⟨0, 0⟩ = .ok flat ∧
      SameFigures summary flat ∧ summary.avgFuelMinutes = flat.avgFuelMinutes := by
  have hfuel : fuelSum oneAndTwo.nodes < u32Size := by decide +kernel
  obtain ⟨summary, flat, hsummary, hflat, hsame, havg, _⟩ := aggregation_forgets_grouping
    (fun _ _ _ _ => 0) oneAndTwo oneAndTwo.members.reverse (List.reverse_perm _) "all" "c" ⟨0, 0⟩
  exact ⟨List.reverse_perm _, hfuel, summary, flat, hsummary, hflat, hsame, havg hfuel⟩

/-- **The centroid shows the grouping.** The coalition's lies between those of its cells, at 0 and 3 degrees
    north; the mean of the three nodes is at 2. -/
theorem centroid_shows_grouping :
    (oneAndTwo.summary fun _ _ _ _ => 0).map (·.positionCentroid) = .ok (some ⟨3 / 2, 0, 0⟩) ∧
    (aggregateCell (fun _ _ _ _ => 0) "all" "a" oneAndTwo.members ⟨0, 0⟩).map
      (·.positionCentroid) = .ok (some ⟨2, 0, 0⟩) := by
  decide +kernel

end Peat.Hierarchy
