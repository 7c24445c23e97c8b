/-
  STATE AGGREGATION of hierarchy/state_aggregation.rs: the summary of a cell from the
  states of its members, and of every tier above from the summaries of its parts.

  `aggregate_cohort`, `aggregate_federation` and `aggregate_coalition` have one body,
  `aggregateParts`. Floats are exact rationals, `u32` sums wrap around, as
  in a release build, and the distance on the sphere is a parameter. All clock readings
  of one call are the same `now`.
-/
import Peat.Cell.CapabilityAggregation
import Peat.Hierarchy.Summary

namespace Peat.Hierarchy

open Peat.Lib Peat.Models Peat.Cell

def u32Size : Nat := 4294967296

class MemberCounts (κ : Type) where
  members : κ
  operational : κ

instance : MemberCounts CellCount := ⟨.memberCount, .operationalCount⟩

instance : MemberCounts GroupCount := ⟨.totalMemberCount, .operationalCount⟩

/-! ## 1. Members -/

def positionsOf (nodes : List NodeState) : List Position := nodes.filterMap (·.position)

def meanPosition (positions : List Position) : Position where
  latitude := mean (positions.map (·.latitude))
  longitude := mean (positions.map (·.longitude))
  altitude := mean (positions.map (·.altitude))

def centroidOf (operation : String) (positions : List Position) :
    Except AggregationError Position :=
  if positions.isEmpty then .error (.hierarchicalOp "No valid positions to aggregate" operation)
  else .ok (meanPosition positions)

def calculatePositionCentroid (members : List Member) : Except AggregationError Position :=
  centroidOf "calculate_position_centroid" (positionsOf (members.map (·.2)))

def calculatePositionCentroidFromPositions : List Position → Except AggregationError Position :=
  centroidOf "calculate_position_centroid_from_positions"

def calculateAvgFuel (members : List Member) : ℚ :=
  if members.isEmpty then 0
  else (wrapSum u32Size (members.map (·.2.fuel)) : ℚ) / members.length

/-- The health a wire number stands for where the worst is sought: unknown ones are `failed`. -/
def healthOf (code : Int) : HealthStatus := (HealthStatus.tryFrom code).getD .failed

def worstOf (codes : List Int) : HealthStatus :=
  (maxByKey HealthStatus.toI32 (codes.map healthOf)).getD .nominal

def findWorstHealth (members : List Member) : HealthStatus := worstOf (members.map (·.2.health))

def boxAround (haversineDistance : ℚ → ℚ → ℚ → ℚ → ℚ) (p : Position) (ps : List Position) :
    BoundingBox :=
  let minLat := lowest (·.latitude) p ps
  let maxLat := highest (·.latitude) p ps
  let minLon := lowest (·.longitude) p ps
  let maxLon := highest (·.longitude) p ps
  let minAlt := lowest (·.altitude) p ps
  let maxAlt := highest (·.altitude) p ps
  { southwest := some ⟨minLat, minLon, minAlt⟩
    northeast := some ⟨maxLat, maxLon, maxAlt⟩
    maxAltitude := maxAlt
    minAltitude := minAlt
    radiusM := ((p :: ps).map fun q =>
      haversineDistance ((minLat + maxLat) / 2) ((minLon + maxLon) / 2) q.latitude
        q.longitude).foldl max 0 }

def calculateBoundingBox (haversineDistance : ℚ → ℚ → ℚ → ℚ → ℚ) (members : List Member) :
    Except AggregationError BoundingBox :=
  match positionsOf (members.map (·.2)) with
  | [] => .error (.hierarchicalOp "No valid positions for bounding box" "calculate_bounding_box")
  | p :: ps => .ok (boxAround haversineDistance p ps)

def debugName : CapabilityType → String
  | .unspecified => "Unspecified" | .sensor => "Sensor" | .compute => "Compute"
  | .communication => "Communication" | .mobility => "Mobility" | .payload => "Payload"
  | .emergent => "Emergent"

def toCapability (cellId : String) (now : Timestamp) (capType : CapabilityType)
    (aggCap : AggregatedCapability) : Capability where
  id := cellId ++ "_" ++ debugName capType
  name := debugName capType
  capabilityType := capType.toI32
  confidence := aggCap.confidence
  metadataJson := "\x7b\"contributors\":" ++ toString aggCap.contributorCount ++
    ",\"requires_oversight\":" ++ toString aggCap.requiresOversight ++ "\x7d"
  registeredAt := some now

def summarizeMembers (haversineDistance : ℚ → ℚ → ℚ → ℚ → ℚ) (cellId leaderId : String)
    (operational : List Member) (now : Timestamp) : Except AggregationError CellSummary := do
  let positionCentroid ← calculatePositionCentroid operational
  let aggregated ← aggregateCapabilities operational
  let boundingBox ← calculateBoundingBox haversineDistance operational
  pure {
    id := cellId
    leaderId := leaderId
    childIds := operational.map (·.1.id)
    count := fun _ => operational.length % u32Size
    positionCentroid := some positionCentroid
    avgFuelMinutes := calculateAvgFuel operational
    worstHealth := (findWorstHealth operational).toI32
    aggregatedCapabilities := aggregated.entries.map fun e => toCapability cellId now e.1 e.2
    readinessScore := calculateReadinessScore aggregated
    boundingBox := some boundingBox
    aggregatedAt := some now }

def aggregateCell (haversineDistance : ℚ → ℚ → ℚ → ℚ → ℚ) (cellId leaderId : String)
    (members : List Member) (now : Timestamp) : Except AggregationError CellSummary :=
  if (members.filter (·.2.isOperational)).isEmpty then
    .error (.hierarchicalOp "Cell has no operational members" "aggregate_cell")
  else
    summarizeMembers haversineDistance cellId leaderId (members.filter (·.2.isOperational)) now

/-! ## 2. Parts -/

section Parts

variable {κ : Type} [MemberCounts κ]

/-- The common body of `calculate_weighted_avg_fuel`, `calculate_weighted_readiness` and their
    siblings for cohorts and federations: a field averaged with the member counts as weights. -/
def weightedAverage (field : Summary κ → ℚ) (parts : List (Summary κ)) : ℚ :=
  let total := (parts.map fun s => field s * s.count MemberCounts.members).sum
  let totalMembers := wrapSum u32Size (parts.map (·.count MemberCounts.members))
  if parts.isEmpty then 0
  else if totalMembers = 0 then 0
  else total / totalMembers

def calculateWeightedAvgFuel : List (Summary κ) → ℚ := weightedAverage (·.avgFuelMinutes)

def calculateWeightedReadiness : List (Summary κ) → ℚ := weightedAverage (·.readinessScore)

omit [MemberCounts κ] in
def findWorstHealthFromParts (parts : List (Summary κ)) : HealthStatus :=
  worstOf (parts.map (·.worstHealth))

def addCapability (map : HashMap Int Capability) (cap : Capability) : HashMap Int Capability :=
  match map.lookup cap.capabilityType with
  | some existing =>
    if existing.confidence < cap.confidence then
      map.replace cap.capabilityType { existing with confidence := cap.confidence }
    else map
  | none => map.insert cap.capabilityType cap

omit [MemberCounts κ] in
def aggregateCapabilitiesFromParts (parts : List (Summary κ)) : List Capability :=
  ((parts.flatMap (·.aggregatedCapabilities)).foldl addCapability ∅).entries.map (·.2)

/-- The south-west corner of all boxes that have one. Without any the source has a corner at
    infinity, which no later minimum notices; here it is not set. -/
def southwestOf (minAlt : ℚ) : List Position → Option Position
  | [] => none
  | p :: ps => some ⟨lowest (·.latitude) p ps, lowest (·.longitude) p ps, minAlt⟩

def northeastOf (maxAlt : ℚ) : List Position → Option Position
  | [] => none
  | p :: ps => some ⟨highest (·.latitude) p ps, highest (·.longitude) p ps, maxAlt⟩

def aggregateBoxes (opName : String) : List BoundingBox → Except AggregationError BoundingBox
  | [] => .error (.hierarchicalOp "No valid bounding boxes to aggregate" opName)
  | b :: bs =>
    let minAlt := lowest (·.minAltitude) b bs
    let maxAlt := highest (·.maxAltitude) b bs
    .ok {
      southwest := southwestOf minAlt ((b :: bs).filterMap (·.southwest))
      northeast := northeastOf maxAlt ((b :: bs).filterMap (·.northeast))
      maxAltitude := maxAlt
      minAltitude := minAlt
      radiusM := ((b :: bs).map (·.radiusM)).foldl max 0 }

structure Tier where
  noParts : String
  operation : String
  boxOperation : String

/-- The common body of `aggregate_cohort`, `aggregate_federation` and `aggregate_coalition`. -/
def aggregateParts (tier : Tier) (id leaderId : String) (parts : List (Summary κ))
    (now : Timestamp) : Except AggregationError (Summary GroupCount) :=
  if parts.isEmpty then .error (.hierarchicalOp tier.noParts tier.operation)
  else do
    let positionCentroid ←
      calculatePositionCentroidFromPositions (parts.filterMap (·.positionCentroid))
    let boundingBox ← aggregateBoxes tier.boxOperation (parts.filterMap (·.boundingBox))
    pure {
      id := id
      leaderId := leaderId
      childIds := parts.map (·.id)
      count := fun
        | .childCount => parts.length % u32Size
        | .totalMemberCount => wrapSum u32Size (parts.map (·.count MemberCounts.members))
        | .operationalCount => wrapSum u32Size (parts.map (·.count MemberCounts.operational))
      positionCentroid := some positionCentroid
      avgFuelMinutes := calculateWeightedAvgFuel parts
      worstHealth := (findWorstHealthFromParts parts).toI32
      aggregatedCapabilities := aggregateCapabilitiesFromParts parts
      readinessScore := calculateWeightedReadiness parts
      boundingBox := some boundingBox
      aggregatedAt := some now }

end Parts

def cohortTier : Tier := ⟨"Cohort has no cells", "aggregate_cohort", "aggregate_bounding_boxes"⟩

def federationTier : Tier :=
  ⟨"Federation has no cohorts", "aggregate_federation", "aggregate_bounding_boxes_from_cohorts"⟩

def coalitionTier : Tier :=
  ⟨"Coalition has no federations", "aggregate_coalition",
    "aggregate_bounding_boxes_from_federations"⟩

def aggregateCohort (cohortId leaderId : String) (cells : List CellSummary) (now : Timestamp) :
    Except AggregationError CohortSummary :=
  aggregateParts cohortTier cohortId leaderId cells now

def aggregateFederation (federationId leaderId : String) (cohorts : List CohortSummary)
    (now : Timestamp) : Except AggregationError FederationSummary :=
  aggregateParts federationTier federationId leaderId cohorts now

def aggregateCoalition (coalitionId leaderId : String) (federations : List FederationSummary)
    (now : Timestamp) : Except AggregationError CoalitionSummary :=
  aggregateParts coalitionTier coalitionId leaderId federations now

/-! ## 3. What a summary says about the nodes -/

def severity (s : NodeState) : Int := (healthOf s.health).toI32

def fuelSum (nodes : List NodeState) : Nat := (nodes.map (·.fuel)).sum

def Southwest (positions : List Position) (corner : Option Position) : Prop :=
  ∃ p, corner = some p ∧ IsLeast (values (·.latitude) positions) p.latitude ∧
    IsLeast (values (·.longitude) positions) p.longitude

def Northeast (positions : List Position) (corner : Option Position) : Prop :=
  ∃ p, corner = some p ∧ IsGreatest (values (·.latitude) positions) p.latitude ∧
    IsGreatest (values (·.longitude) positions) p.longitude

namespace Summary

variable {κ : Type}

def southwest (s : Summary κ) : Option Position := s.boundingBox.bind (·.southwest)

def northeast (s : Summary κ) : Option Position := s.boundingBox.bind (·.northeast)

end Summary

/-- **The figures of a summary** are those of the operational nodes below it. The average fuel is
    exact as long as no `u32` sum of fuel can wrap around. -/
structure Describes {κ : Type} [MemberCounts κ] (s : Summary κ) (nodes : List NodeState) : Prop where
  operational : ∀ n ∈ nodes, n.isOperational = true
  memberCount : s.count MemberCounts.members = nodes.length % u32Size
  operationalCount : s.count MemberCounts.operational = nodes.length % u32Size
  worstHealth : IsGreatest (values severity nodes) s.worstHealth
  avgFuel : fuelSum nodes < u32Size → s.avgFuelMinutes = (fuelSum nodes : ℚ) / nodes.length
  southwest : Southwest (positionsOf nodes) s.southwest
  northeast : Northeast (positionsOf nodes) s.northeast

/-- Equal counts, worst health and corners of the box. -/
structure SameFigures {κ μ : Type} [MemberCounts κ] [MemberCounts μ] (s : Summary κ)
    (t : Summary μ) : Prop where
  memberCount : s.count MemberCounts.members = t.count MemberCounts.members
  operationalCount : s.count MemberCounts.operational = t.count MemberCounts.operational
  worstHealth : s.worstHealth = t.worstHealth
  southwest : ∃ p q, s.southwest = some p ∧ t.southwest = some q ∧
    p.latitude = q.latitude ∧ p.longitude = q.longitude
  northeast : ∃ p q, s.northeast = some p ∧ t.northeast = some q ∧
    p.latitude = q.latitude ∧ p.longitude = q.longitude

variable {xs ys : List NodeState} {members : List Member}

theorem fuelSum_perm (h : xs.Perm ys) : fuelSum xs = fuelSum ys :=
  (h.map _).sum_eq

theorem Describes.unique {κ μ : Type} [MemberCounts κ] [MemberCounts μ] {s : Summary κ}
    {t : Summary μ} (hs : Describes s xs) (ht : Describes t ys) (h : xs.Perm ys) :
    SameFigures s t ∧ (fuelSum xs < u32Size → s.avgFuelMinutes = t.avgFuelMinutes) := by
  have hpos : (positionsOf xs).Perm (positionsOf ys) := h.filterMap _
  obtain ⟨p, hp, hplat, hplon⟩ := hs.southwest
  obtain ⟨q, hq, hqlat, hqlon⟩ := ht.southwest
  obtain ⟨p', hp', hplat', hplon'⟩ := hs.northeast
  obtain ⟨q', hq', hqlat', hqlon'⟩ := ht.northeast
  rw [values_perm hpos] at hplat hplon hplat' hplon'
  refine ⟨⟨?_, ?_, ?_, ⟨p, q, hp, hq, hplat.unique hqlat, hplon.unique hqlon⟩,
    ⟨p', q', hp', hq', hplat'.unique hqlat', hplon'.unique hqlon'⟩⟩, fun hf => ?_⟩
  · rw [hs.memberCount, ht.memberCount, h.length_eq]
  · rw [hs.operationalCount, ht.operationalCount, h.length_eq]
  · have hworst := hs.worstHealth
    rw [values_perm h] at hworst
    exact hworst.unique ht.worstHealth
  · rw [hs.avgFuel hf, ht.avgFuel (by rwa [← fuelSum_perm h]), fuelSum_perm h, h.length_eq]

/-! ## 4. The aggregators describe -/

theorem healthOf_toI32 (h : HealthStatus) : healthOf h.toI32 = h := by
  unfold healthOf
  rw [HealthStatus.tryFrom_toI32]
  rfl

theorem worstOf_isGreatest {codes : List Int} (h : codes ≠ []) :
    IsGreatest (values (fun code => (healthOf code).toI32) codes) (worstOf codes).toI32 := by
  obtain ⟨worst, hworst, hg⟩ := maxByKey_isGreatest HealthStatus.toI32
    (mt List.map_eq_nil_iff.mp h : codes.map healthOf ≠ [])
  rw [values_map] at hg
  unfold worstOf
  rw [hworst]
  exact hg

theorem centroidOf_ok (operation : String) {positions : List Position} (h : positions ≠ []) :
    centroidOf operation positions = .ok (meanPosition positions) := by
  unfold centroidOf
  rw [if_neg (mt List.isEmpty_iff.mp h)]

theorem southwest_lowest (p : Position) (ps : List Position) (alt : ℚ) :
    Southwest (p :: ps) (southwestOf alt (p :: ps)) :=
  ⟨_, rfl, isLeast_lowest _ p ps, isLeast_lowest _ p ps⟩

theorem northeast_highest (p : Position) (ps : List Position) (alt : ℚ) :
    Northeast (p :: ps) (northeastOf alt (p :: ps)) :=
  ⟨_, rfl, isGreatest_highest _ p ps, isGreatest_highest _ p ps⟩

theorem calculateBoundingBox_ok (haversineDistance : ℚ → ℚ → ℚ → ℚ → ℚ)
    (h : positionsOf (members.map (·.2)) ≠ []) :
    ∃ box, calculateBoundingBox haversineDistance members = .ok box ∧
      Southwest (positionsOf (members.map (·.2))) box.southwest ∧
      Northeast (positionsOf (members.map (·.2))) box.northeast := by
  unfold calculateBoundingBox
  cases hpos : positionsOf (members.map (·.2)) with
  | nil => exact absurd hpos h
  | cons p ps => exact ⟨_, rfl, southwest_lowest p ps _, northeast_highest p ps _⟩

theorem fuel_pos_of_operational {n : NodeState} (h : n.isOperational = true) : 1 ≤ n.fuel := by
  have hfuel : 0 < n.fuelMinutes := of_decide_eq_true (Bool.and_eq_true_iff.mp h).2
  exact UInt32.lt_iff_toNat_lt.mp hfuel

theorem length_le_fuelSum {nodes : List NodeState} (h : ∀ n ∈ nodes, n.isOperational = true) :
    nodes.length ≤ fuelSum nodes := by
  induction nodes with
  | nil => exact Nat.le_refl 0
  | cons n nodes ih =>
    have hn := fuel_pos_of_operational (h n List.mem_cons_self)
    have hrest := ih fun m hm => h m (List.mem_cons_of_mem _ hm)
    show nodes.length + 1 ≤ (n.fuel :: nodes.map (·.fuel)).sum
    rw [List.sum_cons]
    unfold fuelSum at hrest
    omega

theorem calculateAvgFuel_eq (hne : members ≠ []) (hf : fuelSum (members.map (·.2)) < u32Size) :
    calculateAvgFuel members =
      (fuelSum (members.map (·.2)) : ℚ) / (members.map (·.2)).length := by
  have hmap : (members.map (·.2.fuel)).sum = fuelSum (members.map (·.2)) := by
    rw [fuelSum, List.map_map]
    rfl
  have hsum : wrapSum u32Size (members.map (·.2.fuel)) = fuelSum (members.map (·.2)) := by
    rw [wrapSum_eq, hmap]
    exact Nat.mod_eq_of_lt hf
  unfold calculateAvgFuel
  rw [if_neg (mt List.isEmpty_iff.mp hne), hsum, List.length_map]

theorem aggregateCell_describes (haversineDistance : ℚ → ℚ → ℚ → ℚ → ℚ) (cellId leaderId : String)
    (now : Timestamp) (hpos : positionsOf ((members.filter (·.2.isOperational)).map (·.2)) ≠ []) :
    ∃ s, aggregateCell haversineDistance cellId leaderId members now = .ok s ∧
      Describes s ((members.filter (·.2.isOperational)).map (·.2)) ∧
      s.positionCentroid =
        some (meanPosition (positionsOf ((members.filter (·.2.isOperational)).map (·.2)))) := by
  unfold aggregateCell
  have hop : ∀ m ∈ members.filter (·.2.isOperational), m.2.isOperational = true :=
    fun m hm => (List.mem_filter.mp hm).2
  generalize members.filter (·.2.isOperational) = operational at hpos hop
  have hne : operational ≠ [] := by
    rintro rfl
    exact hpos rfl
  have hop' : ∀ n ∈ operational.map (·.2), n.isOperational = true := by
    intro n hn
    obtain ⟨m, hm, rfl⟩ := List.mem_map.mp hn
    exact hop m hm
  obtain ⟨aggregated, hagg⟩ := aggregateCapabilities_ok operational
  obtain ⟨box, hbox, hsw, hneast⟩ := calculateBoundingBox_ok haversineDistance hpos
  have hcentroid := centroidOf_ok "calculate_position_centroid" hpos
  rw [if_neg (mt List.isEmpty_iff.mp hne), summarizeMembers, calculatePositionCentroid, hcentroid,
    hagg, hbox]
  refine ⟨_, rfl, ⟨hop', ?_, ?_, ?_, calculateAvgFuel_eq hne, hsw, hneast⟩, rfl⟩
  · show operational.length % u32Size = _
    rw [List.length_map]
  · show operational.length % u32Size = _
    rw [List.length_map]
  · have hworst := worstOf_isGreatest (mt List.map_eq_nil_iff.mp hne :
      operational.map (·.2.health) ≠ [])
    rw [values_map] at hworst
    rw [values_map]
    exact hworst

section Parts

variable {κ ι : Type} [MemberCounts κ] {parts : List ι} {summary : ι → Summary κ}
  {nodes : ι → List NodeState}

theorem positionsOf_flatMap (parts : List ι) (nodes : ι → List NodeState) :
    positionsOf (parts.flatMap nodes) = parts.flatMap fun i => positionsOf (nodes i) :=
  List.filterMap_flatMap

variable {positions : ι → List Position} {corner : ι → Option Position} {c : Option Position}

theorem southwest_flatMap (h : ∀ i ∈ parts, Southwest (positions i) (corner i))
    (hc : Southwest (parts.filterMap corner) c) : Southwest (parts.flatMap positions) c := by
  obtain ⟨p, hp, hlat, hlon⟩ := hc
  refine ⟨p, hp, isLeast_flatMap (fun i hi => ?_) hlat, isLeast_flatMap (fun i hi => ?_) hlon⟩
  · obtain ⟨q, hq, hqlat, _⟩ := h i hi
    exact ⟨q, hq, hqlat⟩
  · obtain ⟨q, hq, _, hqlon⟩ := h i hi
    exact ⟨q, hq, hqlon⟩

theorem northeast_flatMap (h : ∀ i ∈ parts, Northeast (positions i) (corner i))
    (hc : Northeast (parts.filterMap corner) c) : Northeast (parts.flatMap positions) c := by
  obtain ⟨p, hp, hlat, hlon⟩ := hc
  refine ⟨p, hp, isGreatest_flatMap (fun i hi => ?_) hlat, isGreatest_flatMap (fun i hi => ?_) hlon⟩
  · obtain ⟨q, hq, hqlat, _⟩ := h i hi
    exact ⟨q, hq, hqlat⟩
  · obtain ⟨q, hq, _, hqlon⟩ := h i hi
    exact ⟨q, hq, hqlon⟩

theorem aggregateBoxes_ok (opName : String) {boxes : List BoundingBox}
    (hsw : boxes.filterMap (·.southwest) ≠ []) (hne : boxes.filterMap (·.northeast) ≠ []) :
    ∃ box, aggregateBoxes opName boxes = .ok box ∧
      Southwest (boxes.filterMap (·.southwest)) box.southwest ∧
      Northeast (boxes.filterMap (·.northeast)) box.northeast := by
  cases boxes with
  | nil => exact absurd rfl hsw
  | cons b bs =>
    refine ⟨_, rfl, ?_, ?_⟩
    · show Southwest _ (southwestOf _ _)
      obtain ⟨p, ps, hps⟩ := List.exists_cons_of_ne_nil hsw
      rw [hps]
      exact southwest_lowest p ps _
    · show Northeast _ (northeastOf _ _)
      obtain ⟨p, ps, hps⟩ := List.exists_cons_of_ne_nil hne
      rw [hps]
      exact northeast_highest p ps _

omit [MemberCounts κ] in
theorem wrapSum_count {field : κ}
    (h : ∀ i ∈ parts, (summary i).count field = (nodes i).length % u32Size) :
    wrapSum u32Size ((parts.map summary).map (·.count field)) =
      (parts.flatMap nodes).length % u32Size := by
  rw [← wrapSum_length, List.map_map]
  exact congrArg _ (List.map_congr_left h)

omit [MemberCounts κ] in
theorem fuelSum_flatMap (parts : List ι) (nodes : ι → List NodeState) :
    fuelSum (parts.flatMap nodes) = (parts.map fun i => fuelSum (nodes i)).sum :=
  sum_map_flatMap _ nodes parts

omit [MemberCounts κ] in
theorem fuelSum_le {i : ι} (hi : i ∈ parts) :
    fuelSum (nodes i) ≤ fuelSum (parts.flatMap nodes) := by
  rw [fuelSum_flatMap]
  exact List.single_le_sum (fun _ _ => Nat.zero_le _) _ (List.mem_map.mpr ⟨i, hi, rfl⟩)

theorem operational_flatMap (h : ∀ i ∈ parts, Describes (summary i) (nodes i)) :
    ∀ n ∈ parts.flatMap nodes, n.isOperational = true := by
  intro n hn
  obtain ⟨i, hi, hni⟩ := List.mem_flatMap.mp hn
  exact (h i hi).operational n hni

theorem Describes.fuel_eq {s : Summary κ} {xs : List NodeState} (h : Describes s xs)
    (hf : fuelSum xs < u32Size) :
    s.avgFuelMinutes * (s.count MemberCounts.members : ℚ) = (fuelSum xs : ℚ) := by
  have hlen := lt_of_le_of_lt (length_le_fuelSum h.operational) hf
  obtain ⟨n, hn, _⟩ := h.worstHealth.1
  have hpos : (xs.length : ℚ) ≠ 0 := Nat.cast_ne_zero.mpr (List.length_pos_of_mem hn).ne'
  rw [h.avgFuel hf, h.memberCount, Nat.mod_eq_of_lt hlen, div_mul_cancel₀ _ hpos]

theorem weightedFuel_describes (h : ∀ i ∈ parts, Describes (summary i) (nodes i))
    (hne : parts.flatMap nodes ≠ []) (hf : fuelSum (parts.flatMap nodes) < u32Size) :
    calculateWeightedAvgFuel (parts.map summary) =
      (fuelSum (parts.flatMap nodes) : ℚ) / (parts.flatMap nodes).length := by
  have htotal : wrapSum u32Size ((parts.map summary).map (·.count MemberCounts.members)) =
      (parts.flatMap nodes).length := by
    rw [wrapSum_count fun i hi => (h i hi).memberCount]
    exact Nat.mod_eq_of_lt (lt_of_le_of_lt (length_le_fuelSum (operational_flatMap h)) hf)
  have hsum : ((parts.map summary).map fun s =>
      s.avgFuelMinutes * (s.count MemberCounts.members : ℚ)).sum =
        (fuelSum (parts.flatMap nodes) : ℚ) := by
    have hcast := map_list_sum (Nat.castAddMonoidHom ℚ) (parts.map fun i => fuelSum (nodes i))
    rw [Nat.coe_castAddMonoidHom, ← fuelSum_flatMap, List.map_map] at hcast
    rw [hcast, List.map_map]
    exact congrArg _ (List.map_congr_left fun i hi =>
      (h i hi).fuel_eq (lt_of_le_of_lt (fuelSum_le hi) hf))
  have hnil : parts.map summary ≠ [] := by
    intro e
    rw [List.map_eq_nil_iff.mp e] at hne
    exact hne rfl
  unfold calculateWeightedAvgFuel weightedAverage
  dsimp only
  rw [if_neg (mt List.isEmpty_iff.mp hnil), htotal,
    if_neg (List.length_pos_iff.mpr hne).ne', hsum]

theorem worstHealth_describes (hne : parts ≠ []) (h : ∀ i ∈ parts, Describes (summary i) (nodes i)) :
    IsGreatest (values severity (parts.flatMap nodes))
      (findWorstHealthFromParts (parts.map summary)).toI32 := by
  have hworst := worstOf_isGreatest (mt List.map_eq_nil_iff.mp hne :
    parts.map (fun i => (summary i).worstHealth) ≠ [])
  rw [values_map] at hworst
  unfold findWorstHealthFromParts
  rw [List.map_map]
  refine isGreatest_flatMap (g := some) (v := fun i => (healthOf (summary i).worstHealth).toI32)
    (fun i hi => ⟨i, rfl, ?_⟩) ?_
  · -- the worst health of a part is a known one
    obtain ⟨⟨n, hn, hval⟩, _⟩ := (h i hi).worstHealth
    rw [← hval, severity, healthOf_toI32]
    show IsGreatest _ (severity n)
    rw [hval]
    exact (h i hi).worstHealth
  · rw [List.filterMap_some]
    exact hworst

theorem boxes_describe (opName : String) (hne : parts ≠ [])
    (h : ∀ i ∈ parts, Describes (summary i) (nodes i)) :
    ∃ box, aggregateBoxes opName ((parts.map summary).filterMap (·.boundingBox)) = .ok box ∧
      Southwest (positionsOf (parts.flatMap nodes)) box.southwest ∧
      Northeast (positionsOf (parts.flatMap nodes)) box.northeast := by
  have hsws : ((parts.map summary).filterMap (·.boundingBox)).filterMap (·.southwest) =
      parts.filterMap fun i => (summary i).southwest := by
    rw [List.filterMap_filterMap, List.filterMap_map]
    rfl
  have hnes : ((parts.map summary).filterMap (·.boundingBox)).filterMap (·.northeast) =
      parts.filterMap fun i => (summary i).northeast := by
    rw [List.filterMap_filterMap, List.filterMap_map]
    rfl
  obtain ⟨i, hi⟩ := List.exists_mem_of_ne_nil parts hne
  obtain ⟨p, hp, _⟩ := (h i hi).southwest
  obtain ⟨q, hq, _⟩ := (h i hi).northeast
  have hsws' : ((parts.map summary).filterMap (·.boundingBox)).filterMap (·.southwest) ≠ [] := by
    rw [hsws]
    exact List.ne_nil_of_mem (List.mem_filterMap.mpr ⟨i, hi, hp⟩)
  have hnes' : ((parts.map summary).filterMap (·.boundingBox)).filterMap (·.northeast) ≠ [] := by
    rw [hnes]
    exact List.ne_nil_of_mem (List.mem_filterMap.mpr ⟨i, hi, hq⟩)
  obtain ⟨box, hbox, hsw, hneast⟩ := aggregateBoxes_ok opName hsws' hnes'
  rw [hsws] at hsw
  rw [hnes] at hneast
  rw [positionsOf_flatMap]
  exact ⟨box, hbox, southwest_flatMap (fun j hj => (h j hj).southwest) hsw,
    northeast_flatMap (fun j hj => (h j hj).northeast) hneast⟩

theorem aggregateParts_describes (tier : Tier) (id leaderId : String) (now : Timestamp)
    {centroid : ι → Position} (hne : parts ≠ [])
    (h : ∀ i ∈ parts, Describes (summary i) (nodes i))
    (hcentroid : ∀ i ∈ parts, (summary i).positionCentroid = some (centroid i)) :
    ∃ s, aggregateParts tier id leaderId (parts.map summary) now = .ok s ∧
      Describes s (parts.flatMap nodes) ∧
      s.positionCentroid = some (meanPosition (parts.map centroid)) := by
  have hcentroids : (parts.map summary).filterMap (·.positionCentroid) = parts.map centroid := by
    rw [List.filterMap_map, ← List.filterMap_eq_map]
    exact List.filterMap_congr hcentroid
  have hmean : calculatePositionCentroidFromPositions (parts.map centroid) =
      .ok (meanPosition (parts.map centroid)) :=
    centroidOf_ok _ (mt List.map_eq_nil_iff.mp hne)
  have hworst := worstHealth_describes hne h
  obtain ⟨n, hn, _⟩ := hworst.1
  obtain ⟨box, hbox, hsw, hneast⟩ := boxes_describe tier.boxOperation hne h
  unfold aggregateParts
  rw [if_neg (mt List.isEmpty_iff.mp (mt List.map_eq_nil_iff.mp hne)), hcentroids, hmean, hbox]
  exact ⟨_, rfl,
    { operational := operational_flatMap h
      memberCount := wrapSum_count fun i hi => (h i hi).memberCount
      operationalCount := wrapSum_count fun i hi => (h i hi).operationalCount
      worstHealth := hworst
      avgFuel := weightedFuel_describes h (List.ne_nil_of_mem hn)
      southwest := hsw
      northeast := hneast }, rfl⟩

end Parts

end Peat.Hierarchy
