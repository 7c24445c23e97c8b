/-
  THE AVERAGE FUEL OF A CELL (`calculate_avg_fuel` in hierarchy/state_aggregation.rs).

  The members' fuel is summed in a `u32`: too great a sum wraps around or, with overflow
  checks, panics.
-/
import Mathlib.Algebra.BigOperators.Ring.Finset
import Mathlib.Algebra.Order.Ring.Rat
import Peat.Hierarchy.AggregationTiers

namespace Peat.Hierarchy

open Peat.Lib Peat.Models Peat.Cell

/-- `calculate_avg_fuel` in a build with overflow checks: nothing where the sum panics. -/
def calculateAvgFuelChecked (members : List Member) : Option ℚ :=
  if members.isEmpty then some 0
  else (checkedSum u32Size (members.map (·.2.fuel))).map fun sum => (sum : ℚ) / members.length

/-- The mean, and between the least and the greatest. -/
structure IsMeanFuel (nodes : List NodeState) (avg : ℚ) : Prop where
  mean : avg = (fuelSum nodes : ℚ) / nodes.length
  least : ∀ lo : Nat, IsLeast (values NodeState.fuel nodes) lo → (lo : ℚ) ≤ avg
  greatest : ∀ hi : Nat, IsGreatest (values NodeState.fuel nodes) hi → avg ≤ hi

theorem fuelSum_div_length (nodes : List NodeState) :
    (fuelSum nodes : ℚ) / nodes.length = mean (nodes.map fun n => (n.fuel : ℚ)) := by
  unfold mean fuelSum
  rw [List.length_map, Nat.cast_list_sum, List.map_map]
  rfl

theorem isMeanFuel_iff {nodes : List NodeState} (hne : nodes ≠ []) {avg : ℚ} :
    IsMeanFuel nodes avg ↔ avg = (fuelSum nodes : ℚ) / nodes.length := by
  constructor
  · exact IsMeanFuel.mean
  · intro h
    have hmap : (nodes.map fun n => (n.fuel : ℚ)) ≠ [] := mt List.map_eq_nil_iff.mp hne
    refine ⟨h, fun lo hlo => ?_, fun hi hhi => ?_⟩
    · rw [h, fuelSum_div_length]
      refine le_mean hmap fun x hx => ?_
      obtain ⟨n, hn, rfl⟩ := List.mem_map.mp hx
      exact Nat.cast_le.mpr (hlo.2 ⟨n, hn, rfl⟩)
    · rw [h, fuelSum_div_length]
      refine mean_le hmap fun x hx => ?_
      obtain ⟨n, hn, rfl⟩ := List.mem_map.mp hx
      exact Nat.cast_le.mpr (hhi.2 ⟨n, hn, rfl⟩)

theorem fuelSum_map_snd (members : List Member) :
    (members.map (·.2.fuel)).sum = fuelSum (members.map (·.2)) := by
  rw [fuelSum, List.map_map]
  rfl

variable {members : List Member}

theorem calculateAvgFuel_eq_mean_iff (hne : members ≠ []) :
    calculateAvgFuel members = (fuelSum (members.map (·.2)) : ℚ) / (members.map (·.2)).length ↔
      fuelSum (members.map (·.2)) < u32Size := by
  constructor
  · intro h
    have hlen : (members.length : ℚ) ≠ 0 :=
      Nat.cast_ne_zero.mpr (mt List.length_eq_zero_iff.mp hne)
    unfold calculateAvgFuel at h
    rw [if_neg (mt List.isEmpty_iff.mp hne), wrapSum_eq, fuelSum_map_snd, List.length_map,
      div_left_inj' hlen, Nat.cast_inj] at h
    rw [← h]
    exact Nat.mod_lt _ (by decide)
  · exact calculateAvgFuel_eq hne

theorem calculateAvgFuelChecked_eq (hne : members ≠ []) :
    calculateAvgFuelChecked members =
      if fuelSum (members.map (·.2)) < u32Size then
        some ((fuelSum (members.map (·.2)) : ℚ) / (members.map (·.2)).length)
      else none := by
  unfold calculateAvgFuelChecked
  rw [if_neg (mt List.isEmpty_iff.mp hne), checkedSum_eq (by decide), fuelSum_map_snd,
    List.length_map]
  split <;> rfl

theorem avgFuelMinutes_aggregateCell {haversineDistance : ℚ → ℚ → ℚ → ℚ → ℚ}
    {cellId leaderId : String} {now : Timestamp} {s : CellSummary}
    (h : aggregateCell haversineDistance cellId leaderId members now = .ok s) :
    members.filter (·.2.isOperational) ≠ [] ∧
      s.avgFuelMinutes = calculateAvgFuel (members.filter (·.2.isOperational)) := by
  unfold aggregateCell at h
  by_cases hempty : (members.filter (·.2.isOperational)).isEmpty
  · rw [if_pos hempty] at h
    nomatch h
  · rw [if_neg hempty] at h
    refine ⟨mt List.isEmpty_iff.mpr hempty, ?_⟩
    unfold summarizeMembers at h
    cases hc : calculatePositionCentroid (members.filter (·.2.isOperational)) with
    | error e => rw [hc] at h; nomatch h
    | ok centroid =>
      cases ha : aggregateCapabilities (members.filter (·.2.isOperational)) with
      | error e => rw [hc, ha] at h; nomatch h
      | ok aggregated =>
        cases hb : calculateBoundingBox haversineDistance (members.filter (·.2.isOperational)) with
        | error e => rw [hc, ha, hb] at h; nomatch h
        | ok box =>
          rw [hc, ha, hb] at h
          cases h
          rfl

/-- **The average fuel of a cell** is the mean of its operational members' fuel, with and without overflow
    checks, exactly when their fuel together fits into a `u32`. -/
theorem aggregateCell_avgFuel_iff {haversineDistance : ℚ → ℚ → ℚ → ℚ → ℚ}
    {cellId leaderId : String} {members : List Member} {now : Timestamp} {s : CellSummary}
    (h : aggregateCell haversineDistance cellId leaderId members now = .ok s) :
    (IsMeanFuel (operationalNodes members) s.avgFuelMinutes ↔
      fuelSum (operationalNodes members) < u32Size) ∧
    ((∃ avg, calculateAvgFuelChecked (members.filter (·.2.isOperational)) = some avg ∧
        IsMeanFuel (operationalNodes members) avg) ↔
      fuelSum (operationalNodes members) < u32Size) := by
  obtain ⟨hne, havg⟩ := avgFuelMinutes_aggregateCell h
  have hnodes : operationalNodes members ≠ [] := mt List.map_eq_nil_iff.mp hne
  constructor
  · rw [isMeanFuel_iff hnodes, havg]
    exact calculateAvgFuel_eq_mean_iff hne
  · rw [calculateAvgFuelChecked_eq hne]
    constructor
    · intro ⟨avg, hsome, _⟩
      split at hsome
      · assumption
      · nomatch hsome
    · intro hlt
      exact ⟨_, if_pos hlt, (isMeanFuel_iff hnodes).mpr rfl⟩

def pairWith (fuelMinutes : UInt32) : List Member :=
  [nodeAt "a" 0 fuelMinutes, nodeAt "b" 3 fuelMinutes]

theorem aggregateCell_avgFuel_pair :
    ∃ s, aggregateCell (fun _ _ _ _ => 0) "cell-1" "a" (pairWith 60) ⟨0, 0⟩ = .ok s ∧
      (IsMeanFuel (operationalNodes (pairWith 60)) s.avgFuelMinutes ↔
        fuelSum (operationalNodes (pairWith 60)) < u32Size) := by
  have hpos : positionsOf (((pairWith 60).filter (·.2.isOperational)).map (·.2)) ≠ [] := by
    decide +kernel
  obtain ⟨s, hs, _⟩ := aggregateCell_describes (fun _ _ _ _ => 0) "cell-1" "a" ⟨0, 0⟩ hpos
  exact ⟨s, hs, (aggregateCell_avgFuel_iff hs).1⟩

/-- Two operational members with `2 ^ 31` minutes each: the sum wraps around to zero, and so the
    average is below both. -/
theorem avgFuel_below_least :
    (aggregateCell (fun _ _ _ _ => 0) "cell-1" "a" (pairWith 2147483648) ⟨0, 0⟩).map
      (·.avgFuelMinutes) = .ok 0 ∧
    (operationalNodes (pairWith 2147483648)).map NodeState.fuel = [2147483648, 2147483648] ∧
    ¬ IsMeanFuel (operationalNodes (pairWith 2147483648)) 0 := by
  refine ⟨by decide +kernel, by decide +kernel, fun h => ?_⟩
  have hmean := h.mean
  revert hmean
  decide +kernel

end Peat.Hierarchy
