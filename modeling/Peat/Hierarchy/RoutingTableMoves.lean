/-
  WHAT A MERGE AND A SPLIT OF CELLS LEAVE BEHIND in the routing table: all nodes moved,
  the old cells dissolved, the new ones in their zone, the counts right.

  An assignment inside `merge_cells` and `split_cell` needs a strictly newer timestamp,
  a removal one at least as new; only the number of accepted node assignments is
  reported.
-/
import Peat.Hierarchy.RoutingTableCells
import Mathlib.Data.Finset.Card

namespace Peat.Hierarchy

open Peat.Lib

namespace RoutingTable

/-! ## 1. The number of nodes assigned -/

theorem accepts_assignNode_self (t : RoutingTable) (nodeId cellId : String) (timestamp : Nat) :
    (t.assignNode nodeId cellId timestamp).1.Accepts timestamp nodeId = false := by
  rcases t.assignNode_cases nodeId cellId timestamp with ⟨_, h⟩ | ⟨ha, h⟩
  · have hnode : (t.assignNode nodeId cellId timestamp).1.node nodeId =
        some (cellId, timestamp) := by
      rw [h]
      exact AList.lookup_insert _
    unfold Accepts
    rw [hnode]
    simp
  · rw [h]
    exact ha

theorem assignNodes_count (t : RoutingTable) (nodes : List String) (cellId : String)
    (timestamp : Nat) :
    (t.assignNodes nodes cellId timestamp).2 =
      (nodes.toFinset.filter fun n => t.Accepts timestamp n = true).card := by
  induction nodes generalizing t with
  | nil => rfl
  | cons nodeId nodes ih =>
    -- after the first assignment its node no longer accepts, all others answer as before
    have hrest : (nodes.toFinset.filter fun n =>
          (t.assignNode nodeId cellId timestamp).1.Accepts timestamp n = true) =
        ((nodeId :: nodes).toFinset.filter fun n => t.Accepts timestamp n = true).erase nodeId := by
      ext n
      simp only [Finset.mem_filter, Finset.mem_erase, List.mem_toFinset, List.mem_cons]
      by_cases e : n = nodeId
      · subst e
        rw [accepts_assignNode_self]
        simp
      · rw [accepts_assignNode_ne t cellId timestamp e]
        simp [e]
    rw [assignNodes_cons, ih, hrest]
    by_cases ha : t.Accepts timestamp nodeId = true
    · rw [if_pos ha]
      exact Finset.card_erase_add_one (by simp [ha])
    · rw [if_neg ha, Finset.erase_eq_of_notMem (by simp [ha])]
      rfl

theorem accepts_assignNodes (t : RoutingTable) {nodes : List String} (cellId : String)
    (timestamp : Nat) {n : String} (hn : n ∉ nodes) :
    (t.assignNodes nodes cellId timestamp).1.Accepts timestamp n = t.Accepts timestamp n := by
  unfold Accepts
  rw [node_assignNodes, if_neg fun h => hn h.1]

theorem assignNodes_count_eq_length_iff (t : RoutingTable) (nodes : List String) (cellId : String)
    (timestamp : Nat) :
    (t.assignNodes nodes cellId timestamp).2 = nodes.length ↔
      nodes.Nodup ∧ ∀ n ∈ nodes, t.Accepts timestamp n = true := by
  rw [assignNodes_count]
  have hset := Finset.card_filter_le nodes.toFinset fun n => t.Accepts timestamp n = true
  have hlist := nodes.toFinset_card_le
  constructor
  · intro h
    have hnodup : nodes.toFinset.card = nodes.length := by omega
    have hall : (nodes.toFinset.filter fun n => t.Accepts timestamp n = true).card =
      nodes.toFinset.card := by omega
    refine ⟨Multiset.coe_nodup.mp (Multiset.toFinset_card_eq_card_iff_nodup.mp hnodup), ?_⟩
    intro n hn
    exact Finset.card_filter_eq_iff.mp hall n (List.mem_toFinset.mpr hn)
  · rintro ⟨hnodup, hall⟩
    rw [← List.toFinset_card_of_nodup hnodup]
    exact Finset.card_filter_eq_iff.mpr fun n hn => hall n (List.mem_toFinset.mp hn)

/-! ## 2. Zones and leaders -/

def leader (t : RoutingTable) (cellId : String) : Option (String × Nat) :=
  t.cellLeaders.lookup cellId

theorem lookup_removeKeys (m : Entries) (keys : List String) (timestamp : Nat) (k : String) :
    (keys.foldl (fun m key => (removeEntry m key timestamp).1) m).lookup k =
      if k ∈ keys then (m.lookup k).filter (fun e => timestamp < e.2) else m.lookup k := by
  induction keys generalizing m with
  | nil => rfl
  | cons key keys ih =>
    rw [List.foldl_cons, ih, lookup_remove_any]
    by_cases hk : k = key
    · -- removing an entry twice is removing it once
      subst hk
      rw [if_pos rfl, if_pos List.mem_cons_self, Option.filter_filter]
      simp
    · rw [if_neg hk]
      simp [hk]

theorem lookup_assignKeys (m : Entries) (keys : List String) (value : String) (timestamp : Nat)
    (k : String) :
    (keys.foldl (fun m key => (assignEntry m key value timestamp).1) m).lookup k =
      if k ∈ keys then newestEntry (m.lookup k) (some (value, timestamp)) else m.lookup k := by
  induction keys generalizing m with
  | nil => rfl
  | cons key keys ih =>
    rw [List.foldl_cons, ih, lookup_assign_any]
    by_cases hk : k = key
    · subst hk
      rw [if_pos rfl, if_pos List.mem_cons_self]
      unfold newestEntry
      rw [newest_assoc, newest_self, ite_self]
    · rw [if_neg hk]
      unfold newestEntry
      rw [newest_none_right]
      simp [hk]

theorem maps_dropCells (t : RoutingTable) (cellIds : List String) (timestamp : Nat) :
    (t.dropCells cellIds timestamp).cellToZone =
        cellIds.foldl (fun m key => (removeEntry m key timestamp).1) t.cellToZone ∧
      (t.dropCells cellIds timestamp).cellLeaders =
        cellIds.foldl (fun m key => (removeEntry m key timestamp).1) t.cellLeaders := by
  unfold dropCells
  induction cellIds generalizing t with
  | nil => exact ⟨rfl, rfl⟩
  | cons cellId cellIds ih =>
    exact ih ((t.removeCell cellId timestamp).1.removeCellLeader cellId timestamp).1

theorem cellToZone_assignCells (t : RoutingTable) (cellIds : List String) (zid : String)
    (timestamp : Nat) :
    (t.assignCells cellIds (some zid) timestamp).cellToZone =
      cellIds.foldl (fun m key => (assignEntry m key zid timestamp).1) t.cellToZone := by
  unfold assignCells
  dsimp only
  induction cellIds generalizing t with
  | nil => rfl
  | cons cellId cellIds ih => exact ih (t.assignCell cellId zid timestamp).1

theorem leader_assignNodes (t : RoutingTable) (nodes : List String) (cellId : String)
    (timestamp : Nat) (k : String) :
    (t.assignNodes nodes cellId timestamp).1.leader k = t.leader k := by
  induction nodes generalizing t with
  | nil => rfl
  | cons nodeId nodes ih =>
    rw [assignNodes_cons]
    exact ih (t.assignNode nodeId cellId timestamp).1

theorem leader_assignCells (t : RoutingTable) (cellIds : List String) (zoneId : Option String)
    (timestamp : Nat) (k : String) :
    (t.assignCells cellIds zoneId timestamp).leader k = t.leader k := by
  unfold assignCells
  cases zoneId with
  | none => rfl
  | some zid =>
    induction cellIds generalizing t with
    | nil => rfl
    | cons cellId cellIds ih => exact ih (t.assignCell cellId zid timestamp).1

theorem zone_assignCells_dropCells (t : RoutingTable) (newIds oldIds : List String) (zid : String)
    (timestamp : Nat) (k : String) :
    ((t.assignCells newIds (some zid) timestamp).dropCells oldIds timestamp).zone k =
      let given := if k ∈ newIds then newestEntry (t.zone k) (some (zid, timestamp)) else t.zone k
      if k ∈ oldIds then given.filter (fun e => timestamp < e.2) else given := by
  unfold zone
  rw [(maps_dropCells ..).1, lookup_removeKeys, cellToZone_assignCells, lookup_assignKeys]

theorem zone_dropCells_of_notMem (t : RoutingTable) {newIds : List String} (oldIds : List String)
    (zoneId : Option String) (timestamp : Nat) {k : String} (hk : k ∉ newIds) :
    ((t.assignCells newIds zoneId timestamp).dropCells oldIds timestamp).zone k =
      if k ∈ oldIds then (t.zone k).filter (fun e => timestamp < e.2) else t.zone k := by
  cases zoneId with
  | none =>
    unfold zone
    rw [(maps_dropCells ..).1, lookup_removeKeys]
    rfl
  | some zid =>
    rw [zone_assignCells_dropCells]
    simp only [if_neg hk]

theorem leader_dropCells (t : RoutingTable) (newIds oldIds : List String) (zoneId : Option String)
    (timestamp : Nat) (k : String) :
    ((t.assignCells newIds zoneId timestamp).dropCells oldIds timestamp).leader k =
      if k ∈ oldIds then (t.leader k).filter (fun e => timestamp < e.2) else t.leader k := by
  have hassign := t.leader_assignCells newIds zoneId timestamp k
  unfold leader at hassign ⊢
  rw [(maps_dropCells ..).2, lookup_removeKeys, hassign]

variable {o : Option (String × Nat)} {timestamp : Nat} {t : RoutingTable} {cellId : String}

theorem filter_newer_eq_none :
    (o.filter fun e => timestamp < e.2) = none ↔ ∀ e, o = some e → e.2 ≤ timestamp := by
  simp

theorem newestEntry_value_iff {value : String} :
    (newestEntry o (some (value, timestamp))).map Prod.fst = some value ↔
      ∀ e, o = some e → e.2 < timestamp ∨ e.1 = value := by
  unfold newestEntry
  cases o with
  | none => simp
  | some e =>
    rw [newest_some_some]
    by_cases ht : e.2 < timestamp
    · simp [ht]
    · simp [ht]

theorem newestEntry_filter_iff {value : String} :
    ((newestEntry o (some (value, timestamp))).filter fun e => timestamp < e.2).map Prod.fst =
      some value ↔ ∃ stamp, o = some (value, stamp) ∧ timestamp < stamp := by
  unfold newestEntry
  cases o with
  | none => simp
  | some e =>
    obtain ⟨v, stamp⟩ := e
    rw [newest_some_some]
    by_cases ht : stamp < timestamp
    · simp [ht]
      omega
    · by_cases hlt : timestamp < stamp
      · simp [ht, hlt, Option.filter]
      · simp [ht, hlt, Option.filter]

/-! ## 3. Merging cells -/

/-- All nodes of the sources are in the merged cell, the sources are gone, the rest is as it was. -/
structure Merged (t : RoutingTable) (sourceCellIds : List String) (mergedCellId : String)
    (zoneId : Option String) (r : RoutingTable × Nat) : Prop where
  moved : ∀ n, ∀ s ∈ sourceCellIds, t.getNodeCell n = some s →
    r.1.getNodeCell n = some mergedCellId
  vacated : ∀ n, ∀ s ∈ sourceCellIds, s ≠ mergedCellId → r.1.getNodeCell n ≠ some s
  kept : ∀ n, (∀ s ∈ sourceCellIds, t.getNodeCell n ≠ some s) →
    r.1.getNodeCell n = t.getNodeCell n
  dissolved : ∀ s ∈ sourceCellIds, s ≠ mergedCellId →
    r.1.getCellZone s = none ∧ r.1.getCellLeader s = none
  zoned : ∀ z, zoneId = some z → r.1.getCellZone mergedCellId = some z
  counted : r.2 = (sourceCellIds.flatMap t.getCellNodes).toFinset.card

/-- Every entry on the way of a merge is old enough. A merged cell that is also a source loses the
    zone it has just been given; it is in the zone only by an entry that outlives the merge. -/
structure MergeClear (t : RoutingTable) (sourceCellIds : List String) (mergedCellId : String)
    (zoneId : Option String) (timestamp : Nat) : Prop where
  nodes : ∀ n e, t.node n = some e → e.1 ∈ sourceCellIds → e.2 < timestamp
  zones : ∀ s ∈ sourceCellIds, s ≠ mergedCellId → ∀ e, t.zone s = some e → e.2 ≤ timestamp
  leaders : ∀ s ∈ sourceCellIds, s ≠ mergedCellId → ∀ e, t.leader s = some e → e.2 ≤ timestamp
  zone_new : ∀ z, zoneId = some z → mergedCellId ∉ sourceCellIds →
    ∀ e, t.zone mergedCellId = some e → e.2 < timestamp ∨ e.1 = z
  zone_source : ∀ z, zoneId = some z → mergedCellId ∈ sourceCellIds →
    ∃ stamp, t.zone mergedCellId = some (z, stamp) ∧ timestamp < stamp

theorem getNodeCell_eq_some {n : String} :
    t.getNodeCell n = some cellId ↔ ∃ stamp, t.node n = some (cellId, stamp) := by
  unfold getNodeCell node
  rw [Option.map_eq_some_iff]
  constructor
  · rintro ⟨⟨c, stamp⟩, h, rfl⟩
    exact ⟨stamp, h⟩
  · rintro ⟨stamp, h⟩
    exact ⟨(cellId, stamp), h, rfl⟩

theorem getCellZone_eq_none :
    t.getCellZone cellId = none ↔ t.zone cellId = none := Option.map_eq_none_iff

theorem getCellLeader_eq_none :
    t.getCellLeader cellId = none ↔ t.leader cellId = none := Option.map_eq_none_iff

section Merge

variable (t : RoutingTable) (sourceCellIds : List String) (mergedCellId : String)
  (zoneId : Option String) (timestamp : Nat)

theorem zone_mergeCells_of_ne {k : String} (hk : k ≠ mergedCellId) :
    (t.mergeCells sourceCellIds mergedCellId zoneId timestamp).1.zone k =
      if k ∈ sourceCellIds then (t.zone k).filter (fun e => timestamp < e.2) else t.zone k := by
  show (RoutingTable.dropCells _ _ _).zone k = _
  rw [zone_dropCells_of_notMem _ _ _ _ (by simpa using hk), zone_assignNodes]

theorem zone_mergeCells_self (zid : String) :
    (t.mergeCells sourceCellIds mergedCellId (some zid) timestamp).1.zone mergedCellId =
      let given := newestEntry (t.zone mergedCellId) (some (zid, timestamp))
      if mergedCellId ∈ sourceCellIds then given.filter (fun e => timestamp < e.2) else given := by
  show (RoutingTable.dropCells _ _ _).zone mergedCellId = _
  rw [zone_assignCells_dropCells, zone_assignNodes]
  simp only [List.mem_singleton, if_true]

theorem leader_mergeCells (k : String) :
    (t.mergeCells sourceCellIds mergedCellId zoneId timestamp).1.leader k =
      if k ∈ sourceCellIds then (t.leader k).filter (fun e => timestamp < e.2)
      else t.leader k := by
  show (RoutingTable.dropCells _ _ _).leader k = _
  rw [leader_dropCells, leader_assignNodes]

theorem mergeCells_zoned_iff (zid : String) :
    (t.mergeCells sourceCellIds mergedCellId (some zid) timestamp).1.getCellZone mergedCellId =
        some zid ↔
      (mergedCellId ∉ sourceCellIds →
        ∀ e, t.zone mergedCellId = some e → e.2 < timestamp ∨ e.1 = zid) ∧
      (mergedCellId ∈ sourceCellIds →
        ∃ stamp, t.zone mergedCellId = some (zid, stamp) ∧ timestamp < stamp) := by
  show (RoutingTable.zone _ mergedCellId).map Prod.fst = some zid ↔ _
  rw [zone_mergeCells_self]
  by_cases hm : mergedCellId ∈ sourceCellIds
  · simp only [if_pos hm]
    rw [newestEntry_filter_iff]
    exact ⟨fun h => ⟨fun hn => absurd hm hn, fun _ => h⟩, fun h => h.2 hm⟩
  · simp only [if_neg hm]
    rw [newestEntry_value_iff]
    exact ⟨fun h => ⟨fun _ => h, fun hn => absurd hn hm⟩, fun h => h.1 hm⟩

theorem mergeCells_counted_iff :
    (t.mergeCells sourceCellIds mergedCellId zoneId timestamp).2 =
        (sourceCellIds.flatMap t.getCellNodes).toFinset.card ↔
      ∀ n e, t.node n = some e → e.1 ∈ sourceCellIds → e.2 < timestamp := by
  show (t.assignNodes _ _ _).2 = _ ↔ _
  rw [assignNodes_count, Finset.card_filter_eq_iff]
  constructor
  · intro hall n e hn he
    have hmem : n ∈ (sourceCellIds.flatMap t.getCellNodes).toFinset :=
      List.mem_toFinset.mpr (List.mem_flatMap.mpr ⟨e.1, he, mem_getCellNodes.mpr ⟨e.2, hn⟩⟩)
    exact (accepts_some hn).mp (hall n hmem)
  · intro hall n hmem
    obtain ⟨s, hs, hn⟩ := List.mem_flatMap.mp (List.mem_toFinset.mp hmem)
    obtain ⟨stamp, hn⟩ := mem_getCellNodes.mp hn
    exact (accepts_some hn).mpr (hall n (s, stamp) hn hs)

theorem node_mergeCells_of_notMem {n : String} (hn : ∀ e, t.node n = some e → e.1 ∉ sourceCellIds) :
    (t.mergeCells sourceCellIds mergedCellId zoneId timestamp).1.node n = t.node n := by
  rw [node_mergeCells, if_neg]
  rintro ⟨⟨e, he, hs⟩, -⟩
  exact hn e he hs

theorem mergeCells_dissolved_iff {s : String} (hs : s ∈ sourceCellIds) (hne : s ≠ mergedCellId) :
    (t.mergeCells sourceCellIds mergedCellId zoneId timestamp).1.getCellZone s = none ∧
        (t.mergeCells sourceCellIds mergedCellId zoneId timestamp).1.getCellLeader s = none ↔
      (∀ e, t.zone s = some e → e.2 ≤ timestamp) ∧ ∀ e, t.leader s = some e → e.2 ≤ timestamp := by
  rw [getCellZone_eq_none, getCellLeader_eq_none, zone_mergeCells_of_ne t _ _ _ _ hne,
    leader_mergeCells, if_pos hs, if_pos hs, filter_newer_eq_none, filter_newer_eq_none]

theorem getNodeCell_mergeCells {n : String}
    (hold : ∀ e, t.node n = some e → e.1 ∈ sourceCellIds → e.2 < timestamp) {s : String}
    (hs : s ∈ sourceCellIds) (hn : t.getNodeCell n = some s) :
    (t.mergeCells sourceCellIds mergedCellId zoneId timestamp).1.getNodeCell n =
      some mergedCellId := by
  obtain ⟨stamp, hn⟩ := getNodeCell_eq_some.mp hn
  have haccepts := (accepts_some hn).mpr (hold (s, stamp) hn hs)
  refine getNodeCell_eq_some.mpr ⟨timestamp, ?_⟩
  rw [node_mergeCells, if_pos ⟨⟨(s, stamp), hn, hs⟩, haccepts⟩]

theorem getNodeCell_mergeCells_of_ne {n : String}
    (hout : ∀ s ∈ sourceCellIds, t.getNodeCell n ≠ some s) :
    (t.mergeCells sourceCellIds mergedCellId zoneId timestamp).1.getNodeCell n =
      t.getNodeCell n := by
  have hnode : (t.mergeCells sourceCellIds mergedCellId zoneId timestamp).1.node n = t.node n :=
    t.node_mergeCells_of_notMem _ _ _ _ fun e he hs =>
      hout e.1 hs (getNodeCell_eq_some.mpr ⟨e.2, he⟩)
  exact congrArg (Option.map Prod.fst) hnode

/-- **A merge of cells does what it is for** exactly when every entry on its way is old enough. -/
theorem mergeCells_iff :
    Merged t sourceCellIds mergedCellId zoneId
        (t.mergeCells sourceCellIds mergedCellId zoneId timestamp) ↔
      MergeClear t sourceCellIds mergedCellId zoneId timestamp := by
  have hdissolved : ∀ s ∈ sourceCellIds, s ≠ mergedCellId → _ := fun s hs hne =>
    t.mergeCells_dissolved_iff sourceCellIds mergedCellId zoneId timestamp hs hne
  constructor
  · intro h
    refine ⟨(t.mergeCells_counted_iff _ _ _ _).mp h.counted, ?_, ?_, ?_, ?_⟩
    · exact fun s hs hne => ((hdissolved s hs hne).mp (h.dissolved s hs hne)).1
    · exact fun s hs hne => ((hdissolved s hs hne).mp (h.dissolved s hs hne)).2
    · rintro z rfl
      exact ((t.mergeCells_zoned_iff _ _ _ z).mp (h.zoned z rfl)).1
    · rintro z rfl
      exact ((t.mergeCells_zoned_iff _ _ _ z).mp (h.zoned z rfl)).2
  · intro h
    have hmoved : ∀ n, ∀ s ∈ sourceCellIds, t.getNodeCell n = some s → _ := fun n s hs hn =>
      t.getNodeCell_mergeCells sourceCellIds mergedCellId zoneId timestamp (h.nodes n) hs hn
    have hkept : ∀ n, (∀ s ∈ sourceCellIds, t.getNodeCell n ≠ some s) → _ := fun n hout =>
      t.getNodeCell_mergeCells_of_ne sourceCellIds mergedCellId zoneId timestamp hout
    refine ⟨hmoved, ?_, hkept, ?_, ?_, (t.mergeCells_counted_iff _ _ _ _).mpr h.nodes⟩
    · -- a node of a source cell has moved, and no other node came into one
      intro n s hs hne hmem
      by_cases hin : ∃ s' ∈ sourceCellIds, t.getNodeCell n = some s'
      · obtain ⟨s', hs', hn⟩ := hin
        rw [hmoved n s' hs' hn] at hmem
        exact hne (Option.some.inj hmem).symm
      · have hout : ∀ s' ∈ sourceCellIds, t.getNodeCell n ≠ some s' :=
          fun s' hs' hn => hin ⟨s', hs', hn⟩
        rw [hkept n hout] at hmem
        exact hout s hs hmem
    · exact fun s hs hne =>
        (hdissolved s hs hne).mpr ⟨h.zones s hs hne, h.leaders s hs hne⟩
    · rintro z rfl
      exact (t.mergeCells_zoned_iff _ _ _ z).mpr ⟨h.zone_new z rfl, h.zone_source z rfl⟩

end Merge

def oneNode : RoutingTable := (new.assignNode "n1" "cell_a" 100).1

/-- A merge with a timestamp that is not newer than the node's: the node stays in the source
    cell. -/
theorem mergeCells_leaves_newer_node :
    oneNode.getNodeCell "n1" = some "cell_a" ∧
    (oneNode.mergeCells ["cell_a"] "cell_m" none 100).1.getNodeCell "n1" = some "cell_a" ∧
    (oneNode.mergeCells ["cell_a"] "cell_m" none 100).2 = 0 := by
  decide

/-! ## 4. Splitting a cell -/

/-- The nodes of the source are where the two lists put them, and the source is gone. -/
structure Split (t : RoutingTable) (sourceCellId cellAId cellBId : String)
    (nodesForA nodesForB : List String) (zoneId : Option String)
    (r : RoutingTable × Nat × Nat) : Prop where
  emptied : ∀ n, r.1.getNodeCell n ≠ some sourceCellId
  gainedA : ∀ n, r.1.getNodeCell n = some cellAId ∧ t.getNodeCell n ≠ some cellAId ↔ n ∈ nodesForA
  gainedB : ∀ n, r.1.getNodeCell n = some cellBId ∧ t.getNodeCell n ≠ some cellBId ↔ n ∈ nodesForB
  dissolved : r.1.getCellZone sourceCellId = none ∧ r.1.getCellLeader sourceCellId = none
  zoned : ∀ z, zoneId = some z →
    r.1.getCellZone cellAId = some z ∧ r.1.getCellZone cellBId = some z
  counted : r.2 = (nodesForA.length, nodesForB.length)
  untouched : ∀ n, n ∉ nodesForA → n ∉ nodesForB → r.1.node n = t.node n

/-- No list names a node twice, and the entries that the split replaces are older. -/
structure SplitClear (t : RoutingTable) (sourceCellId cellAId cellBId : String)
    (nodesForA nodesForB : List String) (zoneId : Option String) (timestamp : Nat) : Prop where
  nodupA : nodesForA.Nodup
  nodupB : nodesForB.Nodup
  nodes : ∀ n e, t.node n = some e → e.1 = sourceCellId → e.2 < timestamp
  zone : ∀ e, t.zone sourceCellId = some e → e.2 ≤ timestamp
  leader : ∀ e, t.leader sourceCellId = some e → e.2 ≤ timestamp
  zone_new : ∀ z, zoneId = some z → ∀ k ∈ [cellAId, cellBId], ∀ e, t.zone k = some e →
    e.2 < timestamp ∨ e.1 = z

section Split

variable (t : RoutingTable) (sourceCellId cellAId cellBId : String)
  {nodesForA nodesForB : List String} (zoneId : Option String) (timestamp : Nat)

theorem zone_splitCell_source (hA : sourceCellId ≠ cellAId) (hB : sourceCellId ≠ cellBId) :
    (t.splitCell sourceCellId cellAId cellBId nodesForA nodesForB zoneId timestamp).1.zone
        sourceCellId =
      (t.zone sourceCellId).filter (fun e => timestamp < e.2) := by
  show (RoutingTable.dropCells _ _ _).zone sourceCellId = _
  rw [zone_dropCells_of_notMem _ _ _ _ (by simp [hA, hB]), if_pos (List.mem_singleton_self _),
    zone_assignNodes, zone_assignNodes]

theorem leader_splitCell_source :
    (t.splitCell sourceCellId cellAId cellBId nodesForA nodesForB zoneId timestamp).1.leader
        sourceCellId =
      (t.leader sourceCellId).filter (fun e => timestamp < e.2) := by
  show (RoutingTable.dropCells _ _ _).leader sourceCellId = _
  rw [leader_dropCells, if_pos (List.mem_singleton_self _), leader_assignNodes,
    leader_assignNodes]

theorem splitCell_zoned_iff (zid : String) {k : String} (hk : k ∈ [cellAId, cellBId])
    (hne : k ≠ sourceCellId) :
    (t.splitCell sourceCellId cellAId cellBId nodesForA nodesForB (some zid) timestamp).1.getCellZone
        k = some zid ↔
      ∀ e, t.zone k = some e → e.2 < timestamp ∨ e.1 = zid := by
  show (RoutingTable.zone (RoutingTable.dropCells _ _ _) k).map Prod.fst = some zid ↔ _
  rw [zone_assignCells_dropCells, zone_assignNodes, zone_assignNodes]
  simp only [if_pos hk, List.mem_singleton, if_neg hne]
  exact newestEntry_value_iff

theorem splitCell_counted_iff (hd : nodesForA.Disjoint nodesForB) :
    (t.splitCell sourceCellId cellAId cellBId nodesForA nodesForB zoneId timestamp).2 =
        (nodesForA.length, nodesForB.length) ↔
      (nodesForA.Nodup ∧ nodesForB.Nodup) ∧
        ∀ n, n ∈ nodesForA ∨ n ∈ nodesForB → t.Accepts timestamp n = true := by
  show ((t.assignNodes nodesForA cellAId timestamp).2, (RoutingTable.assignNodes _ _ _ _).2) = _ ↔ _
  rw [Prod.mk.injEq, assignNodes_count_eq_length_iff, assignNodes_count_eq_length_iff]
  -- the nodes for B are not among those already assigned
  have hB : ∀ n ∈ nodesForB, (t.assignNodes nodesForA cellAId timestamp).1.Accepts timestamp n =
      t.Accepts timestamp n :=
    fun n hn => t.accepts_assignNodes cellAId timestamp fun hA => hd hA hn
  constructor
  · rintro ⟨⟨hnA, hallA⟩, hnB, hallB⟩
    refine ⟨⟨hnA, hnB⟩, ?_⟩
    rintro n (hn | hn)
    · exact hallA n hn
    · rw [← hB n hn]
      exact hallB n hn
  · rintro ⟨⟨hnA, hnB⟩, hall⟩
    refine ⟨⟨hnA, fun n hn => hall n (Or.inl hn)⟩, hnB, fun n hn => ?_⟩
    rw [hB n hn]
    exact hall n (Or.inr hn)

theorem splitCell_nodes (hd : nodesForA.Disjoint nodesForB)
    (hall : ∀ n, n ∈ nodesForA ∨ n ∈ nodesForB → t.Accepts timestamp n = true) (n : String) :
    let t' := (t.splitCell sourceCellId cellAId cellBId nodesForA nodesForB zoneId timestamp).1
    (n ∈ nodesForA → t'.getNodeCell n = some cellAId) ∧
    (n ∈ nodesForB → t'.getNodeCell n = some cellBId) ∧
    (n ∉ nodesForA → n ∉ nodesForB → t'.node n = t.node n) := by
  have hnode := t.node_splitCell sourceCellId cellAId cellBId hd zoneId timestamp n
  refine ⟨fun hn => ?_, fun hn => ?_, fun hnA hnB => ?_⟩
  · rw [if_pos ⟨hn, hall n (Or.inl hn)⟩] at hnode
    exact getNodeCell_eq_some.mpr ⟨timestamp, hnode⟩
  · rw [if_neg fun h => hd h.1 hn, if_pos ⟨hn, hall n (Or.inr hn)⟩] at hnode
    exact getNodeCell_eq_some.mpr ⟨timestamp, hnode⟩
  · rw [if_neg fun h => hnA h.1, if_neg fun h => hnB h.1] at hnode
    exact hnode

theorem gained_iff {t t' : RoutingTable} {n source mine other : String} {isMine isOther : Prop}
    (hmine : isMine → t'.getNodeCell n = some mine)
    (hother : isOther → t'.getNodeCell n = some other)
    (hrest : ¬isMine → ¬isOther → t'.getNodeCell n = t.getNodeCell n)
    (hsource : isMine → t.getNodeCell n = some source) (hne : source ≠ mine)
    (hcells : mine ≠ other) :
    t'.getNodeCell n = some mine ∧ t.getNodeCell n ≠ some mine ↔ isMine := by
  constructor
  · rintro ⟨hin, hout⟩
    by_contra hnot
    by_cases ho : isOther
    · rw [hother ho] at hin
      exact hcells (Option.some.inj hin).symm
    · rw [hrest hnot ho] at hin
      exact hout hin
  · intro hm
    refine ⟨hmine hm, ?_⟩
    rw [hsource hm]
    exact fun e => hne (Option.some.inj e)

theorem splitCell_dissolved_iff (hA : sourceCellId ≠ cellAId) (hB : sourceCellId ≠ cellBId) :
    (t.splitCell sourceCellId cellAId cellBId nodesForA nodesForB zoneId
          timestamp).1.getCellZone sourceCellId = none ∧
        (t.splitCell sourceCellId cellAId cellBId nodesForA nodesForB zoneId
          timestamp).1.getCellLeader sourceCellId = none ↔
      (∀ e, t.zone sourceCellId = some e → e.2 ≤ timestamp) ∧
        ∀ e, t.leader sourceCellId = some e → e.2 ≤ timestamp := by
  rw [getCellZone_eq_none, getCellLeader_eq_none, zone_splitCell_source _ _ _ _ _ _ hA hB,
    leader_splitCell_source, filter_newer_eq_none, filter_newer_eq_none]

theorem listed_accept_iff
    (hcover : ∀ n, n ∈ nodesForA ∨ n ∈ nodesForB ↔ t.getNodeCell n = some sourceCellId) :
    (∀ n, n ∈ nodesForA ∨ n ∈ nodesForB → t.Accepts timestamp n = true) ↔
      ∀ n e, t.node n = some e → e.1 = sourceCellId → e.2 < timestamp := by
  constructor
  · intro hall n e hn he
    have hmem := (hcover n).mpr (getNodeCell_eq_some.mpr ⟨e.2, by rw [← he]; exact hn⟩)
    exact (accepts_some hn).mp (hall n hmem)
  · intro hall n hn
    obtain ⟨stamp, hn⟩ := getNodeCell_eq_some.mp ((hcover n).mp hn)
    exact (accepts_some hn).mpr (hall n (sourceCellId, stamp) hn rfl)

/-- **A split of a cell does what it is for** exactly when every entry on its way is old enough and
    no node is listed twice. -/
theorem splitCell_iff (hd : nodesForA.Disjoint nodesForB)
    (hcover : ∀ n, n ∈ nodesForA ∨ n ∈ nodesForB ↔ t.getNodeCell n = some sourceCellId)
    (hA : sourceCellId ≠ cellAId) (hB : sourceCellId ≠ cellBId) (hAB : cellAId ≠ cellBId) :
    Split t sourceCellId cellAId cellBId nodesForA nodesForB zoneId
        (t.splitCell sourceCellId cellAId cellBId nodesForA nodesForB zoneId timestamp) ↔
      SplitClear t sourceCellId cellAId cellBId nodesForA nodesForB zoneId timestamp := by
  have haccepts := t.listed_accept_iff sourceCellId timestamp hcover
  have hcount := t.splitCell_counted_iff sourceCellId cellAId cellBId zoneId timestamp hd
  rw [haccepts] at hcount
  have hdissolved := @splitCell_dissolved_iff t sourceCellId cellAId cellBId nodesForA nodesForB
    zoneId timestamp hA hB
  constructor
  · intro h
    obtain ⟨⟨hnA, hnB⟩, hnodes⟩ := hcount.mp h.counted
    obtain ⟨hzone, hleader⟩ := hdissolved.mp h.dissolved
    refine ⟨hnA, hnB, hnodes, hzone, hleader, ?_⟩
    rintro z rfl k hk
    have hzoned := h.zoned z rfl
    rcases List.mem_pair.mp hk with rfl | rfl
    · exact (t.splitCell_zoned_iff _ _ _ timestamp z hk hA.symm).mp hzoned.1
    · exact (t.splitCell_zoned_iff _ _ _ timestamp z hk hB.symm).mp hzoned.2
  · intro h
    have hwhere := t.splitCell_nodes sourceCellId cellAId cellBId zoneId timestamp hd
      (haccepts.mpr h.nodes)
    have hcell : ∀ n, n ∉ nodesForA → n ∉ nodesForB →
        (t.splitCell sourceCellId cellAId cellBId nodesForA nodesForB zoneId
          timestamp).1.getNodeCell n = t.getNodeCell n :=
      fun n hnA hnB => congrArg (Option.map Prod.fst) ((hwhere n).2.2 hnA hnB)
    refine ⟨fun n => ?_, fun n => ?_, fun n => ?_, hdissolved.mpr ⟨h.zone, h.leader⟩, ?_, ?_,
      fun n => (hwhere n).2.2⟩
    · by_cases hnA : n ∈ nodesForA
      · rw [(hwhere n).1 hnA]
        exact fun e => hA (Option.some.inj e).symm
      · by_cases hnB : n ∈ nodesForB
        · rw [(hwhere n).2.1 hnB]
          exact fun e => hB (Option.some.inj e).symm
        · rw [hcell n hnA hnB]
          exact fun e => ((hcover n).mpr e).elim hnA hnB
    · exact gained_iff (hwhere n).1 (hwhere n).2.1 (hcell n)
        (fun hnA => (hcover n).mp (Or.inl hnA)) hA hAB
    · exact gained_iff (hwhere n).2.1 (hwhere n).1 (fun hnB hnA => hcell n hnA hnB)
        (fun hnB => (hcover n).mp (Or.inr hnB)) hB hAB.symm
    · rintro z rfl
      have hk := h.zone_new z rfl
      exact ⟨(t.splitCell_zoned_iff _ _ _ timestamp z (by simp) hA.symm).mpr (hk _ (by simp)),
        (t.splitCell_zoned_iff _ _ _ timestamp z (by simp) hB.symm).mpr (hk _ (by simp))⟩
    · exact hcount.mpr ⟨⟨h.nodupA, h.nodupB⟩, h.nodes⟩

end Split

def twoNodes : RoutingTable := (oneNode.assignNode "n2" "cell_a" 120).1

theorem splitCell_iff_twoNodes :
    Split twoNodes "cell_a" "cell_b" "cell_c" ["n1"] ["n2"] (some "z")
        (twoNodes.splitCell "cell_a" "cell_b" "cell_c" ["n1"] ["n2"] (some "z") 150) ↔
      SplitClear twoNodes "cell_a" "cell_b" "cell_c" ["n1"] ["n2"] (some "z") 150 := by
  refine splitCell_iff twoNodes "cell_a" "cell_b" "cell_c" (some "z") 150 (by simp) ?_
    (by decide) (by decide) (by decide)
  intro n
  by_cases h2 : n = "n2"
  · subst h2
    decide
  · by_cases h1 : n = "n1"
    · subst h1
      decide
    · refine iff_of_false (by simp [h1, h2]) fun h => ?_
      obtain ⟨stamp, h⟩ := getNodeCell_eq_some.mp h
      have hnone : twoNodes.node n = none := by
        unfold twoNodes oneNode
        rw [node_assignNode_ne _ _ _ h2, node_assignNode_ne _ _ _ h1]
        rfl
      rw [hnone] at h
      cases h

/-- A split with a timestamp between those of the two nodes: one moves, the other stays in the
    source cell. -/
theorem splitCell_leaves_newer_node :
    (twoNodes.getCellNodes "cell_a").toFinset = {"n1", "n2"} ∧
    (twoNodes.splitCell "cell_a" "cell_b" "cell_c" ["n1"] ["n2"] none 110).1.getNodeCell "n1" =
      some "cell_b" ∧
    (twoNodes.splitCell "cell_a" "cell_b" "cell_c" ["n1"] ["n2"] none 110).1.getNodeCell "n2" =
      some "cell_a" ∧
    (twoNodes.splitCell "cell_a" "cell_b" "cell_c" ["n1"] ["n2"] none 110).2 = (1, 0) := by
  decide

end RoutingTable

end Peat.Hierarchy
