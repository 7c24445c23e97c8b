/-
  WHO MAY MESSAGE WHOM in hierarchy/router.rs: `is_route_valid` judges a pair of ids,
  `valid_targets` lists the targets of this node, `route_message` asks for a permit as
  well.

  `route_message` reads the shared routing table twice; the second reading is an
  argument of its own, and so is what `acquire_permit` comes to (nothing, for a call
  that waits forever).
-/
import Peat.Hierarchy.FlowControl
import Peat.Hierarchy.RoutingTableMoves

namespace Peat.Hierarchy

open Peat.Lib Peat.Cell

/-! ## 1. The router -/

namespace RoutingTable

def isCellLeader (t : RoutingTable) (nodeId cellId : String) : Bool :=
  ((t.cellLeaders.lookup cellId).map fun e => e.1 == nodeId).getD false

/-- Some cell is in the zone. -/
def IsZone (t : RoutingTable) (zoneId : String) : Prop := ∃ cellId, t.getCellZone cellId = some zoneId

theorem isCellLeader_iff {t : RoutingTable} {nodeId cellId : String} :
    t.isCellLeader nodeId cellId = true ↔ t.getCellLeader cellId = some nodeId := by
  unfold isCellLeader getCellLeader
  cases t.cellLeaders.lookup cellId with
  | none => exact iff_of_false Bool.false_ne_true nofun
  | some e => simp

end RoutingTable

structure HierarchicalRouter where
  nodeId : String
  flowController : Option FlowController

namespace HierarchicalRouter

def isUpwardRouteValid (table : RoutingTable) (source sourceCell : String) : Bool :=
  if !table.isCellLeader source sourceCell then false else true

def isRouteValid (table : RoutingTable) (source target : String) : Bool :=
  match table.getNodeCell source with
  | none => false
  | some sourceCell =>
    match table.getNodeCell target with
    | none => isUpwardRouteValid table source sourceCell
    | some targetCell => if sourceCell == targetCell then true else false

def zoneTarget (zoneId : String) : String := "zone:" ++ zoneId

def validTargets (r : HierarchicalRouter) (table : RoutingTable) : List String :=
  match table.getNodeCell r.nodeId with
  | none => []
  | some myCell =>
    let targets := (table.getCellNodes myCell).filter fun node => node != r.nodeId
    if table.isCellLeader r.nodeId myCell then
      match table.getCellZone myCell with
      | some zoneId => targets ++ [zoneTarget zoneId]
      | none => targets
    else targets

def routingLevel (table : RoutingTable) (source target : String) : RoutingLevel :=
  let sourceCell := table.getNodeCell source
  let targetCell := table.getNodeCell target
  if sourceCell == targetCell && sourceCell.isSome then .cell else .zone

def routeMessage {ε π : Type} (r : HierarchicalRouter) (table later : RoutingTable)
    (acquirePermit : FlowController → PermitRequest → Option (Except ε π))
    (source target : String) (messageSize : Nat) (priority : MessagePriority) :
    Option (Except ε (Option π)) :=
  if !isRouteValid table source target then some (.ok none)
  else
    match r.flowController with
    | some fc => do
      let permit ← acquirePermit fc ⟨routingLevel later source target, messageSize, priority⟩
      some (permit.map some)
    | none => some (.ok none)

/-! ## 2. The rules -/

/-- **The rules**: a node messages the nodes of its own cell, and the leader of the cell also
    upward, which is any id that is no assigned node. -/
def MayMessage (table : RoutingTable) (source target : String) : Prop :=
  ∃ cell, table.getNodeCell source = some cell ∧
    (table.getNodeCell target = some cell ∨
      table.getNodeCell target = none ∧ table.getCellLeader cell = some source)

theorem isUpwardRouteValid_iff {table : RoutingTable} {source cell : String} :
    isUpwardRouteValid table source cell = true ↔ table.getCellLeader cell = some source := by
  rw [← RoutingTable.isCellLeader_iff]
  unfold isUpwardRouteValid
  cases table.isCellLeader source cell <;> decide

theorem isRouteValid_iff {table : RoutingTable} {source target : String} :
    isRouteValid table source target = true ↔ MayMessage table source target := by
  unfold isRouteValid MayMessage
  cases table.getNodeCell source with
  | none => exact iff_of_false Bool.false_ne_true (fun ⟨_, h, _⟩ => nomatch h)
  | some cell =>
    cases table.getNodeCell target with
    | none =>
      refine isUpwardRouteValid_iff.trans ⟨fun h => ⟨cell, rfl, .inr ⟨rfl, h⟩⟩, fun h => ?_⟩
      obtain ⟨_, hcell, hsame | ⟨_, hlead⟩⟩ := h
      · nomatch hsame
      · cases hcell
        exact hlead
    | some targetCell =>
      by_cases hcell : cell = targetCell
      · rw [hcell]
        exact iff_of_true (if_pos (beq_self_eq_true _)) ⟨targetCell, rfl, .inl rfl⟩
      · refine iff_of_false (fun h => ?_) fun h => ?_
        · dsimp only at h
          rw [if_neg (fun e => hcell (beq_iff_eq.mp e))] at h
          exact Bool.false_ne_true h
        · obtain ⟨_, hsource, hsame | ⟨hnone, _⟩⟩ := h
          · exact hcell (Option.some.inj (hsource.trans hsame.symm))
          · nomatch hnone

/-! ## 3. The targets -/

section Targets

variable {r : HierarchicalRouter} {table : RoutingTable} {cell x : String}

def zoneTargets (r : HierarchicalRouter) (table : RoutingTable) (cell : String) : List String :=
  if table.isCellLeader r.nodeId cell then (table.getCellZone cell).toList.map zoneTarget else []

theorem validTargets_of_cell (h : table.getNodeCell r.nodeId = some cell) :
    r.validTargets table =
      (table.getCellNodes cell).filter (fun node => node != r.nodeId) ++ r.zoneTargets table cell := by
  unfold validTargets zoneTargets
  rw [h]
  dsimp only
  split
  · cases table.getCellZone cell with
    | none => exact (List.append_nil _).symm
    | some zoneId => rfl
  · exact (List.append_nil _).symm

theorem validTargets_of_none (h : table.getNodeCell r.nodeId = none) : r.validTargets table = [] := by
  unfold validTargets
  rw [h]

theorem mem_peers : x ∈ (table.getCellNodes cell).filter (fun node => node != r.nodeId) ↔
    x ≠ r.nodeId ∧ table.getNodeCell x = some cell := by
  rw [List.mem_filter, RoutingTable.mem_getCellNodes, ← RoutingTable.getNodeCell_eq_some, bne_iff_ne]
  exact and_comm

theorem mem_zoneTargets : x ∈ r.zoneTargets table cell ↔ table.getCellLeader cell = some r.nodeId ∧
    ∃ zoneId, table.getCellZone cell = some zoneId ∧ zoneTarget zoneId = x := by
  unfold zoneTargets
  rw [← RoutingTable.isCellLeader_iff]
  split
  · next hlead =>
    rw [List.mem_map]
    simp only [Option.mem_toList, hlead, true_and]
  · next hlead => exact iff_of_false List.not_mem_nil fun h => hlead h.1

theorem mem_validTargets : x ∈ r.validTargets table ↔
    ∃ cell, table.getNodeCell r.nodeId = some cell ∧
      ((x ≠ r.nodeId ∧ table.getNodeCell x = some cell) ∨
        (table.getCellLeader cell = some r.nodeId ∧
          ∃ zoneId, table.getCellZone cell = some zoneId ∧ zoneTarget zoneId = x)) := by
  cases hcell : table.getNodeCell r.nodeId with
  | none =>
    rw [validTargets_of_none hcell]
    exact iff_of_false List.not_mem_nil fun ⟨_, h, _⟩ => nomatch h
  | some cell =>
    rw [validTargets_of_cell hcell, List.mem_append, mem_peers, mem_zoneTargets]
    refine ⟨fun h => ⟨cell, rfl, h⟩, fun h => ?_⟩
    obtain ⟨_, hmine, h⟩ := h
    cases hmine
    exact h

/-- **The list and the judgement agree**, for the node of this router. -/
structure TargetsAgree (r : HierarchicalRouter) (table : RoutingTable) : Prop where
  accepted : ∀ x ∈ r.validTargets table, isRouteValid table r.nodeId x = true
  once : ∀ x, x ≠ r.nodeId → table.getNodeCell x ≠ none → isRouteValid table r.nodeId x = true →
    (r.validTargets table).count x = 1
  zone : ∀ zoneId, table.IsZone zoneId → (zoneTarget zoneId ∈ r.validTargets table ↔
    ∃ cell, table.getNodeCell r.nodeId = some cell ∧ table.isCellLeader r.nodeId cell = true ∧
      table.getCellZone cell = some zoneId)

theorem targetsAgree (r : HierarchicalRouter) (table : RoutingTable)
    (hzone : ∀ zoneId, table.IsZone zoneId → table.getNodeCell (zoneTarget zoneId) = none) :
    r.TargetsAgree table where
  accepted := by
    intro x hx
    obtain ⟨cell, hcell, ⟨_, hpeer⟩ | ⟨hlead, zoneId, hz, rfl⟩⟩ := mem_validTargets.mp hx
    · exact isRouteValid_iff.mpr ⟨cell, hcell, .inl hpeer⟩
    · exact isRouteValid_iff.mpr ⟨cell, hcell, .inr ⟨hzone zoneId ⟨cell, hz⟩, hlead⟩⟩
  once := by
    intro x hne hassigned hvalid
    obtain ⟨cell, hcell, hpeer | ⟨hnone, _⟩⟩ := isRouteValid_iff.mp hvalid
    · have hpeers : x ∈ (table.getCellNodes cell).filter (fun node => node != r.nodeId) :=
        mem_peers.mpr ⟨hne, hpeer⟩
      -- an assigned node is no zone entry
      have hother : x ∉ r.zoneTargets table cell := by
        intro hmem
        obtain ⟨_, zoneId, hz, rfl⟩ := mem_zoneTargets.mp hmem
        exact hassigned (hzone zoneId ⟨cell, hz⟩)
      rw [validTargets_of_cell hcell, List.count_append, List.count_eq_zero_of_not_mem hother,
        List.count_eq_one_of_mem ((table.nodup_getCellNodes cell).filter _) hpeers]
    · exact absurd hnone hassigned
  zone := by
    intro zoneId hid
    rw [mem_validTargets]
    refine exists_congr fun cell => and_congr_right fun _ => ?_
    rw [RoutingTable.isCellLeader_iff]
    constructor
    · intro h
      rcases h with ⟨_, hpeer⟩ | ⟨hlead, other, hz, heq⟩
      · rw [hzone zoneId hid] at hpeer
        nomatch hpeer
      · rw [(String.append_right_inj "zone:").mp heq] at hz
        exact ⟨hlead, hz⟩
    · intro ⟨hlead, hz⟩
      exact .inr ⟨hlead, zoneId, hz, rfl⟩

end Targets

/-! ## 4. Messages -/

section Messages

variable {ε π : Type} (r : HierarchicalRouter) (table later : RoutingTable)
  (acquirePermit : FlowController → PermitRequest → Option (Except ε π))
  (source target : String) (messageSize : Nat) (priority : MessagePriority)

theorem routeMessage_cases :
    (isRouteValid table source target = false ∧
      r.routeMessage table later acquirePermit source target messageSize priority = some (.ok none)) ∨
    (isRouteValid table source target = true ∧ r.flowController = none ∧
      r.routeMessage table later acquirePermit source target messageSize priority = some (.ok none)) ∨
    (isRouteValid table source target = true ∧ r.flowController ≠ none ∧
      r.routeMessage table later acquirePermit source target messageSize priority ≠
        some (.ok none)) := by
  unfold routeMessage
  cases isRouteValid table source target with
  | false => exact .inl ⟨rfl, rfl⟩
  | true =>
    cases r.flowController with
    | none => exact .inr (.inl ⟨rfl, rfl, rfl⟩)
    | some fc =>
      refine .inr (.inr ⟨rfl, nofun, ?_⟩)
      rw [if_neg (by decide)]
      dsimp only
      cases acquirePermit fc ⟨routingLevel later source target, messageSize, priority⟩ with
      | none => exact fun h => nomatch h
      | some answer =>
        intro h
        cases answer with
        | error e => cases Option.some.inj h
        | ok permit => cases Option.some.inj h

/-- **The router follows one rule**, if no assigned node has the name of a zone entry: the targets it lists
    are those it accepts, and `route_message` answers `Ok(None)` exactly for the others. -/
theorem router_agrees
    (hzone : ∀ zoneId, table.IsZone zoneId → table.getNodeCell (zoneTarget zoneId) = none) :
    r.TargetsAgree table ∧
      (r.routeMessage table later acquirePermit source target messageSize priority = some (.ok none) ↔
        isRouteValid table source target = false ∨ r.flowController = none) := by
  refine ⟨r.targetsAgree table hzone, ?_⟩
  rcases routeMessage_cases r table later acquirePermit source target messageSize priority with
    ⟨hbad, h⟩ | ⟨_, hnone, h⟩ | ⟨hgood, hsome, h⟩
  · exact iff_of_true h (.inl hbad)
  · exact iff_of_true h (.inr hnone)
  · refine iff_of_false h fun hor => ?_
    rcases hor with hbad | hnone
    · rw [hgood] at hbad
      nomatch hbad
    · exact hsome hnone

end Messages

def northTable : RoutingTable :=
  let t := (RoutingTable.new.assignNode "node1" "cell_alpha" 100).1
  let t := (t.assignNode "node2" "cell_alpha" 101).1
  let t := (t.setCellLeader "cell_alpha" "node1" 103).1
  (t.assignCell "cell_alpha" "zone_north" 107).1

/-- The leader may message its peer and the zone. -/
theorem router_agrees_leader :
    let fc := FlowController.new ⟨100, 10000⟩ ⟨50, 5000⟩
    (HierarchicalRouter.mk "node1" (some fc)).TargetsAgree northTable ∧
      ((HierarchicalRouter.mk "node1" (some fc)).routeMessage northTable northTable
          (fun _ _ => some (Except.ok () : Except Unit Unit)) "node1" "node4" 100 .normal =
        some (.ok none) ↔ isRouteValid northTable "node1" "node4" = false ∨ some fc = none) := by
  refine router_agrees _ _ _ _ _ _ _ _ fun zoneId hid => ?_
  obtain ⟨cell, hz⟩ := hid
  have hnorth : zoneId = "zone_north" := by
    by_cases hcell : cell = "cell_alpha"
    · rw [hcell] at hz
      exact (Option.some.inj hz).symm
    · have hnone : northTable.cellToZone.lookup cell = none := lookup_assignEntry_ne _ _ _ _ hcell
      unfold RoutingTable.getCellZone at hz
      rw [hnone] at hz
      nomatch hz
  rw [hnorth]
  decide

/-- Without flow control a valid route is answered with `Ok(None)`, too. -/
theorem routeMessage_valid_none :
    isRouteValid northTable "node1" "node2" = true ∧
      (HierarchicalRouter.mk "node1" none).routeMessage northTable northTable
        (fun _ _ => some (Except.ok () : Except Unit Unit)) "node1" "node2" 100 .normal =
          some (.ok none) := by
  decide

end HierarchicalRouter

end Peat.Hierarchy
