/-
  MERGING AND SPLITTING CELLS in the routing table: `get_cell_nodes`, `merge_cells` and
  `split_cell` of routing_table.rs.

  Both reassign nodes with the loop `assignNodes`; an assignment is accepted
  unless the node's entry is as new as the operation (`Accepts`).
-/
import Peat.Hierarchy.RoutingTable
import Mathlib.Data.List.Dedup

namespace Peat.Hierarchy

open Peat.Lib

namespace RoutingTable

def node (t : RoutingTable) (nodeId : String) : Option (String × Nat) := t.nodeToCell.lookup nodeId

def getCellNodes (t : RoutingTable) (cellId : String) : List String :=
  (t.nodeToCell.entries.filter fun e => e.2.1 == cellId).map (·.1)

def assignNodes (t : RoutingTable) (nodes : List String) (cellId : String) (timestamp : Nat) :
    RoutingTable × Nat :=
  nodes.foldl
    (fun r nodeId =>
      let a := r.1.assignNode nodeId cellId timestamp
      (a.1, if a.2 then r.2 + 1 else r.2))
    (t, 0)

def assignCells (t : RoutingTable) (cellIds : List String) (zoneId : Option String)
    (timestamp : Nat) : RoutingTable :=
  match zoneId with
  | some zid => cellIds.foldl (fun t cellId => (t.assignCell cellId zid timestamp).1) t
  | none => t

def dropCells (t : RoutingTable) (cellIds : List String) (timestamp : Nat) : RoutingTable :=
  cellIds.foldl
    (fun t cellId => ((t.removeCell cellId timestamp).1.removeCellLeader cellId timestamp).1) t

def mergeCells (t : RoutingTable) (sourceCellIds : List String) (mergedCellId : String)
    (zoneId : Option String) (timestamp : Nat) : RoutingTable × Nat :=
  let nodesToReassign := sourceCellIds.flatMap t.getCellNodes
  let r := t.assignNodes nodesToReassign mergedCellId timestamp
  ((r.1.assignCells [mergedCellId] zoneId timestamp).dropCells sourceCellIds timestamp, r.2)

def splitCell (t : RoutingTable) (sourceCellId cellAId cellBId : String)
    (nodesForA nodesForB : List String) (zoneId : Option String) (timestamp : Nat) :
    RoutingTable × Nat × Nat :=
  let a := t.assignNodes nodesForA cellAId timestamp
  let b := a.1.assignNodes nodesForB cellBId timestamp
  ((b.1.assignCells [cellAId, cellBId] zoneId timestamp).dropCells [sourceCellId] timestamp,
    a.2, b.2)

/-! ## 1. Where the nodes are -/

def Accepts (t : RoutingTable) (timestamp : Nat) (nodeId : String) : Bool :=
  (t.node nodeId).all fun e => e.2 < timestamp

variable {t : RoutingTable} {timestamp : Nat} {nodeId k : String} {e : String × Nat}
  {zoneId : Option String}

theorem accepts_some (h : t.node nodeId = some e) :
    t.Accepts timestamp nodeId = true ↔ e.2 < timestamp := by
  simp [Accepts, h]

theorem mem_getCellNodes {cellId : String} :
    nodeId ∈ t.getCellNodes cellId ↔ ∃ ts, t.node nodeId = some (cellId, ts) := by
  unfold getCellNodes node
  rw [List.mem_map]
  constructor
  · rintro ⟨⟨k, c, ts⟩, he, rfl⟩
    obtain ⟨hmem, hc⟩ := List.mem_filter.mp he
    obtain rfl : c = cellId := beq_iff_eq.mp hc
    exact ⟨ts, lookup_eq_some_iff.mpr hmem⟩
  · rintro ⟨ts, h⟩
    exact ⟨⟨nodeId, cellId, ts⟩,
      List.mem_filter.mpr ⟨lookup_eq_some_iff.mp h, beq_self_eq_true cellId⟩, rfl⟩

theorem nodup_getCellNodes (t : RoutingTable) (cellId : String) : (t.getCellNodes cellId).Nodup :=
  List.Nodup.sublist (List.filter_sublist.map _) t.nodeToCell.nodupKeys

theorem assignNode_cases (t : RoutingTable) (nodeId cellId : String) (timestamp : Nat) :
    (t.Accepts timestamp nodeId = true ∧ t.assignNode nodeId cellId timestamp =
      ({ t with nodeToCell := t.nodeToCell.insert nodeId (cellId, timestamp) }, true)) ∨
    (t.Accepts timestamp nodeId = false ∧ t.assignNode nodeId cellId timestamp = (t, false)) := by
  unfold assignNode assignEntry Accepts node
  cases h : t.nodeToCell.lookup nodeId with
  | none => exact .inl ⟨rfl, rfl⟩
  | some e =>
    by_cases hts : timestamp ≤ e.2
    · exact .inr ⟨by simpa using hts, by simp [hts]⟩
    · exact .inl ⟨by simpa using Nat.lt_of_not_le hts, by simp [hts]⟩

theorem node_assignNode_self (t : RoutingTable) (nodeId cellId : String) (timestamp : Nat) :
    (t.assignNode nodeId cellId timestamp).1.node nodeId =
      if t.Accepts timestamp nodeId then some (cellId, timestamp) else t.node nodeId := by
  rcases t.assignNode_cases nodeId cellId timestamp with ⟨ha, h⟩ | ⟨ha, h⟩ <;> rw [h, ha]
  · exact AList.lookup_insert _
  · rfl

variable {n : String} {nodesForA nodesForB cellIds : List String}

theorem node_assignNode_ne (t : RoutingTable) (cellId : String) (timestamp : Nat) (e : n ≠ nodeId) :
    (t.assignNode nodeId cellId timestamp).1.node n = t.node n := by
  rcases t.assignNode_cases nodeId cellId timestamp with ⟨_, h⟩ | ⟨_, h⟩ <;> rw [h]
  exact AList.lookup_insert_ne e

theorem accepts_assignNode_ne (t : RoutingTable) (cellId : String) (timestamp : Nat)
    (e : n ≠ nodeId) :
    (t.assignNode nodeId cellId timestamp).1.Accepts timestamp n = t.Accepts timestamp n := by
  unfold Accepts
  rw [node_assignNode_ne t cellId timestamp e]

theorem assignNodes_cons (t : RoutingTable) (nodeId : String) (nodes : List String)
    (cellId : String) (timestamp : Nat) :
    t.assignNodes (nodeId :: nodes) cellId timestamp =
      (((t.assignNode nodeId cellId timestamp).1.assignNodes nodes cellId timestamp).1,
        ((t.assignNode nodeId cellId timestamp).1.assignNodes nodes cellId timestamp).2 +
          if t.Accepts timestamp nodeId then 1 else 0) := by
  -- a loop that starts counting at `k` ends `k` higher
  have hcount : ∀ (t : RoutingTable) (k : Nat),
      nodes.foldl
        (fun r nodeId =>
          let a := r.1.assignNode nodeId cellId timestamp
          (a.1, if a.2 then r.2 + 1 else r.2)) (t, k) =
        ((t.assignNodes nodes cellId timestamp).1,
          (t.assignNodes nodes cellId timestamp).2 + k) := by
    unfold assignNodes
    induction nodes with
    | nil => exact fun t k => by simp
    | cons n nodes ih =>
      intro t k
      simp only [List.foldl_cons]
      rw [ih _ (if (t.assignNode n cellId timestamp).2 = true then k + 1 else k),
        ih _ (if (t.assignNode n cellId timestamp).2 = true then 0 + 1 else 0)]
      congr 1
      dsimp only
      split <;> omega
  unfold assignNodes
  rw [List.foldl_cons, hcount]
  rcases t.assignNode_cases nodeId cellId timestamp with ⟨ha, h⟩ | ⟨ha, h⟩ <;> rw [h, ha] <;> rfl

theorem node_assignNodes (t : RoutingTable) (nodes : List String) (cellId : String)
    (timestamp : Nat) (n : String) :
    (t.assignNodes nodes cellId timestamp).1.node n =
      if n ∈ nodes ∧ t.Accepts timestamp n then some (cellId, timestamp) else t.node n := by
  induction nodes generalizing t with
  | nil => rw [if_neg fun h => (nomatch h.1)]; rfl
  | cons nodeId nodes ih =>
    rw [assignNodes_cons, ih]
    by_cases e : n = nodeId
    · subst e
      rw [node_assignNode_self]
      by_cases ha : t.Accepts timestamp n = true
      · -- the node is in the new cell from here on, listed again or not
        simp [ha]
      · rcases t.assignNode_cases n cellId timestamp with ⟨h, _⟩ | ⟨_, h⟩
        · exact absurd h ha
        · simp [h, ha]
    · rw [accepts_assignNode_ne t cellId timestamp e, node_assignNode_ne t cellId timestamp e]
      simp [e]

theorem assignNodes_pos (t : RoutingTable) {nodes : List String} (hn : n ∈ nodes)
    (cellId : String) (ha : t.Accepts timestamp n = true) :
    0 < (t.assignNodes nodes cellId timestamp).2 := by
  induction nodes generalizing t with
  | nil => cases hn
  | cons nodeId nodes ih =>
    rw [assignNodes_cons]
    by_cases e : n = nodeId
    · subst e
      rw [ha]
      exact Nat.succ_pos _
    · have hn' : n ∈ nodes := (List.mem_cons.mp hn).resolve_left e
      rw [← accepts_assignNode_ne t cellId timestamp e] at ha
      exact Nat.add_pos_left (ih _ hn' ha) _

theorem node_assignCells (t : RoutingTable) (cellIds : List String) (zoneId : Option String)
    (timestamp : Nat) (n : String) : (t.assignCells cellIds zoneId timestamp).node n = t.node n := by
  unfold assignCells
  cases zoneId with
  | none => rfl
  | some zid =>
    induction cellIds generalizing t with
    | nil => rfl
    | cons cellId cellIds ih => exact ih (t.assignCell cellId zid timestamp).1

theorem node_dropCells (t : RoutingTable) (cellIds : List String) (timestamp : Nat) (n : String) :
    (t.dropCells cellIds timestamp).node n = t.node n := by
  unfold dropCells
  induction cellIds generalizing t with
  | nil => rfl
  | cons cellId cellIds ih =>
    exact ih ((t.removeCell cellId timestamp).1.removeCellLeader cellId timestamp).1

theorem node_mergeCells (t : RoutingTable) (sourceCellIds : List String) (mergedCellId : String)
    (zoneId : Option String) (timestamp : Nat) (n : String) :
    (t.mergeCells sourceCellIds mergedCellId zoneId timestamp).1.node n =
      if (∃ e ∈ t.node n, e.1 ∈ sourceCellIds) ∧ t.Accepts timestamp n then
        some (mergedCellId, timestamp)
      else t.node n := by
  show (RoutingTable.dropCells _ _ _).node n = _
  rw [node_dropCells, node_assignCells, node_assignNodes]
  have hmem : n ∈ sourceCellIds.flatMap t.getCellNodes ↔ ∃ e ∈ t.node n, e.1 ∈ sourceCellIds := by
    rw [List.mem_flatMap]
    constructor
    · rintro ⟨s, hs, hn⟩
      obtain ⟨ts, h⟩ := mem_getCellNodes.mp hn
      exact ⟨(s, ts), h, hs⟩
    · rintro ⟨⟨s, ts⟩, h, hs⟩
      exact ⟨s, hs, mem_getCellNodes.mpr ⟨ts, h⟩⟩
  simp only [hmem]

theorem node_splitCell (t : RoutingTable) (sourceCellId cellAId cellBId : String)
    (hd : nodesForA.Disjoint nodesForB) (zoneId : Option String) (timestamp : Nat) (n : String) :
    (t.splitCell sourceCellId cellAId cellBId nodesForA nodesForB zoneId timestamp).1.node n =
      if n ∈ nodesForA ∧ t.Accepts timestamp n then some (cellAId, timestamp)
      else if n ∈ nodesForB ∧ t.Accepts timestamp n then some (cellBId, timestamp)
      else t.node n := by
  show (RoutingTable.dropCells _ _ _).node n = _
  rw [node_dropCells, node_assignCells, node_assignNodes]
  by_cases hA : n ∈ nodesForA ∧ t.Accepts timestamp n = true
  · rw [if_neg fun h => hd hA.1 h.1, node_assignNodes, if_pos hA, if_pos hA]
  · have hnode : (t.assignNodes nodesForA cellAId timestamp).1.node n = t.node n := by
      rw [node_assignNodes, if_neg hA]
    have haccepts : (t.assignNodes nodesForA cellAId timestamp).1.Accepts timestamp n =
        t.Accepts timestamp n := by
      unfold Accepts
      rw [hnode]
    rw [hnode, haccepts, if_neg hA]

/-! ## 2. Which cells get a zone -/

def zone (t : RoutingTable) (cellId : String) : Option (String × Nat) := t.cellToZone.lookup cellId

theorem zone_assignNodes (t : RoutingTable) (nodes : List String) (cellId : String)
    (timestamp : Nat) (k : String) : (t.assignNodes nodes cellId timestamp).1.zone k = t.zone k := by
  induction nodes generalizing t with
  | nil => rfl
  | cons nodeId nodes ih =>
    rw [assignNodes_cons]
    exact ih (t.assignNode nodeId cellId timestamp).1

theorem zone_assignCells (h : (t.assignCells cellIds zoneId timestamp).zone k = some e) :
    t.zone k = some e ∨ k ∈ cellIds := by
  unfold assignCells at h
  cases zoneId with
  | none => exact .inl h
  | some zid =>
    induction cellIds generalizing t with
    | nil => exact .inl h
    | cons cellId cellIds ih =>
      rcases ih h with h | h
      · by_cases hk : k = cellId
        · exact .inr (hk ▸ List.mem_cons_self)
        · exact .inl ((lookup_assignEntry_ne _ _ _ _ hk).symm.trans h)
      · exact .inr (List.mem_cons_of_mem _ h)

theorem zone_dropCells (h : (t.dropCells cellIds timestamp).zone k = some e) :
    t.zone k = some e := by
  unfold dropCells at h
  induction cellIds generalizing t with
  | nil => exact h
  | cons cellId cellIds ih =>
    have h' : (removeEntry t.cellToZone cellId timestamp).1.lookup k = some e := ih h
    by_cases hk : k = cellId
    · subst hk
      rw [lookup_removeEntry] at h'
      exact (Option.filter_eq_some_iff.mp h').1
    · exact (lookup_removeEntry_ne _ _ _ hk).symm.trans h'

theorem zone_mergeCells {sourceCellIds : List String} {mergedCellId : String}
    (h : (t.mergeCells sourceCellIds mergedCellId zoneId timestamp).1.zone k = some e) :
    t.zone k = some e ∨ k ∈ [mergedCellId] := by
  rw [← zone_assignNodes t (sourceCellIds.flatMap t.getCellNodes) mergedCellId timestamp]
  exact zone_assignCells (zone_dropCells h)

theorem zone_splitCell {sourceCellId cellAId cellBId : String}
    (h : (t.splitCell sourceCellId cellAId cellBId nodesForA nodesForB zoneId timestamp).1.zone k =
      some e) :
    t.zone k = some e ∨ k ∈ [cellAId, cellBId] := by
  rw [← zone_assignNodes t nodesForA cellAId timestamp,
    ← zone_assignNodes _ nodesForB cellBId timestamp]
  exact zone_assignCells (zone_dropCells h)

end RoutingTable

end Peat.Hierarchy
