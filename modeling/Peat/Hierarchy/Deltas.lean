/-
  DELTAS OF SUMMARIES: `from_summary` of hierarchy/deltas.rs and the delta application
  of storage/automerge_summary_storage.rs, at all four tiers.

  A delta is a list of field updates; the four update types are one type over the
  numbers of the tier.
-/
import Peat.Lib.UnionBy
import Peat.Hierarchy.Summary

namespace Peat.Hierarchy

open Peat.Lib Peat.Models

/-! ## 1. Updates and deltas -/

/-- `CellFieldUpdate`, `CohortFieldUpdate`, `FederationFieldUpdate`, `CoalitionFieldUpdate`: one
    `setCount` for each number of the tier, `addId` and `removeId` for the ids of the parts. -/
inductive FieldUpdate (κ : Type) where
  | setLeaderId (id : String)
  | setCount (field : κ) (count : Nat)
  | setAvgFuelMinutes (fuel : ℚ)
  | setWorstHealth (health : Int)
  | setReadinessScore (score : ℚ)
  | updatePositionCentroid (pos : Position)
  | addId (id : String)
  | removeId (id : String)
  | addCapability (cap : Capability)
  | removeCapability (capId : String)
  | updateBoundingBox (bbox : BoundingBox)
  | updateAggregatedAt (ts : Timestamp)
  deriving DecidableEq, Repr

structure Delta (κ : Type) where
  id : String
  timestampUs : Nat
  sequence : Nat
  updates : List (FieldUpdate κ)
  deriving DecidableEq, Repr

abbrev CellDelta := Delta CellCount
abbrev CohortDelta := Delta GroupCount
abbrev FederationDelta := Delta GroupCount
abbrev CoalitionDelta := Delta GroupCount

section Functions

variable {κ : Type} [DecidableEq κ]

def applyUpdate (summary : Summary κ) : FieldUpdate κ → Summary κ
  | .setLeaderId id => { summary with leaderId := id }
  | .setCount field count =>
    { summary with count := fun f => if f = field then count else summary.count f }
  | .setAvgFuelMinutes fuel => { summary with avgFuelMinutes := fuel }
  | .setWorstHealth health => { summary with worstHealth := health }
  | .setReadinessScore score => { summary with readinessScore := score }
  | .updatePositionCentroid pos => { summary with positionCentroid := some pos }
  | .addId id => { summary with childIds := pushNew (fun m => m) summary.childIds id }
  | .removeId id => { summary with childIds := summary.childIds.filter fun m => m != id }
  | .addCapability cap =>
    { summary with aggregatedCapabilities := summary.aggregatedCapabilities ++ [cap] }
  | .removeCapability capId =>
    { summary with
      aggregatedCapabilities := summary.aggregatedCapabilities.filter fun c => c.id != capId }
  | .updateBoundingBox bbox => { summary with boundingBox := some bbox }
  | .updateAggregatedAt ts => { summary with aggregatedAt := some ts }

omit [DecidableEq κ] in
def updateBytes : FieldUpdate κ → Nat
  | .setLeaderId _ => 16
  | .setCount _ _ => 4
  | .setAvgFuelMinutes _ => 4
  | .setWorstHealth _ => 4
  | .setReadinessScore _ => 4
  | .updatePositionCentroid _ => 24
  | .addId _ => 16
  | .removeId _ => 8
  | .addCapability _ => 100
  | .removeCapability _ => 8
  | .updateBoundingBox _ => 40
  | .updateAggregatedAt _ => 16

def applyDelta (summary : Summary κ) (delta : Delta κ) : Summary κ × Nat :=
  delta.updates.foldl (fun r u => (applyUpdate r.1 u, r.2 + updateBytes u)) (summary, 0)

omit [DecidableEq κ] in
def summaryUpdates [CountFields κ] (summary : Summary κ) : List (FieldUpdate κ) :=
  .setLeaderId summary.leaderId ::
    (CountFields.all.map fun field => .setCount field (summary.count field)) ++
  [.setAvgFuelMinutes summary.avgFuelMinutes, .setWorstHealth summary.worstHealth,
    .setReadinessScore summary.readinessScore] ++
  (summary.positionCentroid.map .updatePositionCentroid).toList ++
  summary.childIds.map .addId ++
  summary.aggregatedCapabilities.map .addCapability ++
  (summary.boundingBox.map .updateBoundingBox).toList ++
  (summary.aggregatedAt.map .updateAggregatedAt).toList

omit [DecidableEq κ] in
def fromSummary [CountFields κ] (summary : Summary κ) (sequence nowUs : Nat) : Delta κ :=
  ⟨summary.id, nowUs, sequence, summaryUpdates summary⟩

end Functions

def applyCellDelta : CellSummary → CellDelta → CellSummary × Nat := applyDelta
def applyCohortDelta : CohortSummary → CohortDelta → CohortSummary × Nat := applyDelta
def applyFederationDelta : FederationSummary → FederationDelta → FederationSummary × Nat :=
  applyDelta
def applyCoalitionDelta : CoalitionSummary → CoalitionDelta → CoalitionSummary × Nat := applyDelta

def CellDelta.fromSummary : CellSummary → Nat → Nat → CellDelta := Hierarchy.fromSummary
def CohortDelta.fromSummary : CohortSummary → Nat → Nat → CohortDelta := Hierarchy.fromSummary
def FederationDelta.fromSummary : FederationSummary → Nat → Nat → FederationDelta :=
  Hierarchy.fromSummary
def CoalitionDelta.fromSummary : CoalitionSummary → Nat → Nat → CoalitionDelta :=
  Hierarchy.fromSummary

/-! ## 2. What the delta of a summary does -/

section Snapshot

variable {κ : Type} [DecidableEq κ]

variable (s : Summary κ)

theorem applyDelta_fst (d : Delta κ) : (applyDelta s d).1 = run applyUpdate s d.updates := by
  unfold applyDelta
  have hloop : ∀ (us : List (FieldUpdate κ)) (s : Summary κ) (n : Nat),
      (us.foldl (fun r u => (applyUpdate r.1 u, r.2 + updateBytes u)) (s, n)).1 =
        run applyUpdate s us := by
    intro us
    induction us with
    | nil => exact fun _ _ => rfl
    | cons u us ih => exact fun s n => ih (applyUpdate s u) (n + updateBytes u)
  exact hloop d.updates s 0

theorem run_setCount (count : κ → Nat) (fields : List κ) :
    run applyUpdate s (fields.map fun field => .setCount field (count field)) =
      { s with count := fun f => if f ∈ fields then count f else s.count f } := by
  induction fields generalizing s with
  | nil => simp
  | cons field fields ih =>
    rw [List.map_cons, run_cons, ih]
    simp only [applyUpdate, List.mem_cons]
    congr 1
    funext f
    by_cases h : f ∈ fields
    · simp [h]
    · by_cases hf : f = field
      · subst hf
        simp
      · simp [h, hf]

theorem run_addId (ids : List String) :
    run applyUpdate s (ids.map .addId) =
      { s with childIds := unionBy (fun m => m) s.childIds ids } := by
  induction ids generalizing s with
  | nil => rfl
  | cons id ids ih =>
    rw [List.map_cons, run_cons, ih]
    rfl

theorem run_addCapability (caps : List Capability) :
    run applyUpdate s (caps.map .addCapability) =
      { s with aggregatedCapabilities := s.aggregatedCapabilities ++ caps } := by
  induction caps generalizing s with
  | nil => simp
  | cons cap caps ih =>
    rw [List.map_cons, run_cons, ih]
    simp [applyUpdate]

theorem run_updatePositionCentroid (pos : Option Position) :
    run applyUpdate s (pos.map .updatePositionCentroid).toList =
      { s with positionCentroid := pos.or s.positionCentroid } := by
  cases pos <;> rfl

theorem run_updateBoundingBox (bbox : Option BoundingBox) :
    run applyUpdate s (bbox.map .updateBoundingBox).toList =
      { s with boundingBox := bbox.or s.boundingBox } := by
  cases bbox <;> rfl

theorem run_updateAggregatedAt (ts : Option Timestamp) :
    run applyUpdate s (ts.map .updateAggregatedAt).toList =
      { s with aggregatedAt := ts.or s.aggregatedAt } := by
  cases ts <;> rfl

theorem applyDelta_fromSummary [CountFields κ] (s' : Summary κ) (sequence nowUs : Nat) :
    (applyDelta s (fromSummary s' sequence nowUs)).1 =
      { s' with
        id := s.id
        childIds := unionBy (fun m => m) s.childIds s'.childIds
        positionCentroid := s'.positionCentroid.or s.positionCentroid
        aggregatedCapabilities := s.aggregatedCapabilities ++ s'.aggregatedCapabilities
        boundingBox := s'.boundingBox.or s.boundingBox
        aggregatedAt := s'.aggregatedAt.or s.aggregatedAt } := by
  have hcount : (fun f => if f ∈ CountFields.all then s'.count f else s.count f) = s'.count :=
    funext fun f => if_pos (CountFields.mem_all f)
  rw [applyDelta_fst]
  show run applyUpdate s (summaryUpdates s') = _
  unfold summaryUpdates
  simp only [run_append, run_cons, run_nil, run_setCount, run_addId, run_addCapability,
    run_updatePositionCentroid, run_updateBoundingBox, run_updateAggregatedAt, applyUpdate, hcount]

/-! ## 3. The snapshot law -/

/-- Equal but for the order of children and capabilities. -/
structure SameUpToOrder (a b : Summary κ) : Prop where
  id : a.id = b.id
  leaderId : a.leaderId = b.leaderId
  childIds : a.childIds.Perm b.childIds
  count : a.count = b.count
  positionCentroid : a.positionCentroid = b.positionCentroid
  avgFuelMinutes : a.avgFuelMinutes = b.avgFuelMinutes
  worstHealth : a.worstHealth = b.worstHealth
  aggregatedCapabilities : a.aggregatedCapabilities.Perm b.aggregatedCapabilities
  readinessScore : a.readinessScore = b.readinessScore
  boundingBox : a.boundingBox = b.boundingBox
  aggregatedAt : a.aggregatedAt = b.aggregatedAt

/-- **Nothing has to be taken away** from `s` to get `s'`: `s` has no capability, its ids stand as often in
    `s'` and every other id once, and a field that `s'` leaves empty is empty. -/
structure OnlyAdds (s s' : Summary κ) : Prop where
  capabilities : s.aggregatedCapabilities = []
  oldIds : ∀ id ∈ s.childIds, s'.childIds.count id = s.childIds.count id
  newIds : ∀ id, id ∉ s.childIds → s'.childIds.count id ≤ 1
  positionCentroid : s'.positionCentroid = none → s.positionCentroid = none
  boundingBox : s'.boundingBox = none → s.boundingBox = none
  aggregatedAt : s'.aggregatedAt = none → s.aggregatedAt = none

theorem or_eq_left_iff {α : Type*} (o o' : Option α) : o.or o' = o ↔ (o = none → o' = none) := by
  cases o with
  | none => exact ⟨fun h _ => h, fun h => h rfl⟩
  | some a => exact iff_of_true rfl fun h => (nomatch h)

theorem unionBy_perm_right_iff (l r : List String) :
    (unionBy (fun m => m) l r).Perm r ↔
      (∀ x ∈ l, r.count x = l.count x) ∧ ∀ x, x ∉ l → r.count x ≤ 1 := by
  have hcount : ∀ x, (unionBy (fun m => m) l r).count x =
      if x ∈ l then l.count x else min 1 (r.count x) := count_unionBy_id
  rw [List.perm_iff_count]
  constructor
  · intro h
    refine ⟨fun x hx => ?_, fun x hx => ?_⟩
    · rw [← h x, hcount, if_pos hx]
    · have hx' := h x
      rw [hcount, if_neg hx] at hx'
      omega
  · intro h x
    rw [hcount]
    by_cases hx : x ∈ l
    · rw [if_pos hx, h.1 x hx]
    · have hx' := h.2 x hx
      rw [if_neg hx]
      omega

theorem sameUpToOrder_fromSummary_iff [CountFields κ] {s s' : Summary κ} (hid : s.id = s'.id)
    (sequence nowUs : Nat) :
    SameUpToOrder (applyDelta s (fromSummary s' sequence nowUs)).1 s' ↔ OnlyAdds s s' := by
  rw [applyDelta_fromSummary]
  have hcaps : (s.aggregatedCapabilities ++ s'.aggregatedCapabilities).Perm
      s'.aggregatedCapabilities ↔ s.aggregatedCapabilities = [] := by
    constructor
    · intro h
      have hlen := h.length_eq
      rw [List.length_append] at hlen
      exact List.eq_nil_of_length_eq_zero (by omega)
    · intro h
      rw [h]
      exact List.Perm.refl _
  constructor
  · intro h
    have hids := (unionBy_perm_right_iff _ _).mp h.childIds
    exact ⟨hcaps.mp h.aggregatedCapabilities, hids.1, hids.2,
      (or_eq_left_iff _ _).mp h.positionCentroid, (or_eq_left_iff _ _).mp h.boundingBox,
      (or_eq_left_iff _ _).mp h.aggregatedAt⟩
  · intro h
    exact
      { id := hid
        leaderId := rfl
        childIds := (unionBy_perm_right_iff _ _).mpr ⟨h.oldIds, h.newIds⟩
        count := rfl
        positionCentroid := (or_eq_left_iff _ _).mpr h.positionCentroid
        avgFuelMinutes := rfl
        worstHealth := rfl
        aggregatedCapabilities := hcaps.mpr h.capabilities
        readinessScore := rfl
        boundingBox := (or_eq_left_iff _ _).mpr h.boundingBox
        aggregatedAt := (or_eq_left_iff _ _).mpr h.aggregatedAt }

end Snapshot

/-- **When a summary's delta is a snapshot**, at all four tiers. -/
theorem snapshot_iff (sequence nowUs : Nat) :
    (∀ s s' : CellSummary, s.id = s'.id →
      (SameUpToOrder (applyCellDelta s (CellDelta.fromSummary s' sequence nowUs)).1 s' ↔
        OnlyAdds s s')) ∧
    (∀ s s' : CohortSummary, s.id = s'.id →
      (SameUpToOrder (applyCohortDelta s (CohortDelta.fromSummary s' sequence nowUs)).1 s' ↔
        OnlyAdds s s')) ∧
    (∀ s s' : FederationSummary, s.id = s'.id →
      (SameUpToOrder (applyFederationDelta s (FederationDelta.fromSummary s' sequence nowUs)).1 s' ↔
        OnlyAdds s s')) ∧
    ∀ s s' : CoalitionSummary, s.id = s'.id →
      (SameUpToOrder (applyCoalitionDelta s (CoalitionDelta.fromSummary s' sequence nowUs)).1 s' ↔
        OnlyAdds s s') :=
  ⟨fun _ _ hid => sameUpToOrder_fromSummary_iff hid sequence nowUs,
    fun _ _ hid => sameUpToOrder_fromSummary_iff hid sequence nowUs,
    fun _ _ hid => sameUpToOrder_fromSummary_iff hid sequence nowUs,
    fun _ _ hid => sameUpToOrder_fromSummary_iff hid sequence nowUs⟩

def plainSummary {κ : Type} (id : String) (childIds : List String)
    (capabilities : List Capability) : Summary κ :=
  ⟨id, "", childIds, fun _ => 0, none, 0, 0, capabilities, 0, none, none⟩

/-- A cell that grows, and has no capability yet; the same at the tiers above. -/
theorem snapshot_iff_growing :
    SameUpToOrder (applyCellDelta (plainSummary "c" ["a"] [])
      (CellDelta.fromSummary (plainSummary "c" ["a", "b"] []) 1 0)).1
      (plainSummary "c" ["a", "b"] []) ∧
    SameUpToOrder (applyCohortDelta (plainSummary "c" ["a"] [])
      (CohortDelta.fromSummary (plainSummary "c" ["a", "b"] []) 1 0)).1
      (plainSummary "c" ["a", "b"] []) := by
  have hgrow : ∀ κ : Type, OnlyAdds (plainSummary "c" ["a"] [] : Summary κ)
      (plainSummary "c" ["a", "b"] []) := fun κ =>
    ⟨rfl, show ∀ id ∈ ["a"], ["a", "b"].count id = ["a"].count id by decide,
      fun id _ => List.nodup_iff_count_le_one.mp (by decide : ["a", "b"].Nodup) id,
      fun _ => rfl, fun _ => rfl, fun _ => rfl⟩
  exact ⟨((snapshot_iff 1 0).1 (plainSummary "c" ["a"] []) (plainSummary "c" ["a", "b"] [])
      rfl).mpr (hgrow _),
    ((snapshot_iff 1 0).2.1 (plainSummary "c" ["a"] []) (plainSummary "c" ["a", "b"] [])
      rfl).mpr (hgrow _)⟩

def lidar : Capability := ⟨"lidar", "Lidar", 1, 1, "", none⟩

/-- **A snapshot that is none**: a member left the cell. After the delta both members are there, and a
    capability twice. -/
theorem snapshot_keeps_what_left :
    (applyCellDelta (plainSummary "c" ["a", "b"] [lidar])
      (CellDelta.fromSummary (plainSummary "c" ["a"] [lidar]) 1 0)).1.childIds = ["a", "b"] ∧
    (applyCellDelta (plainSummary "c" ["a", "b"] [lidar])
      (CellDelta.fromSummary (plainSummary "c" ["a"] [lidar]) 1 0)).1.aggregatedCapabilities =
      [lidar, lidar] ∧
    ¬SameUpToOrder (applyCellDelta (plainSummary "c" ["a", "b"] [lidar])
      (CellDelta.fromSummary (plainSummary "c" ["a"] [lidar]) 1 0)).1
      (plainSummary "c" ["a"] [lidar]) := by
  refine ⟨by decide, rfl, fun h => ?_⟩
  exact absurd h.childIds.length_eq (by decide)

end Peat.Hierarchy
