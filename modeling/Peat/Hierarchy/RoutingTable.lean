/-
  THE ROUTING TABLE of hierarchy/routing_table.rs: three maps of stamped entries (node →
  cell, cell → zone, cell → leader), their setters, removals, getters and `merge`.

  The six setters and removals are two bodies on one map (`assignEntry`, `removeEntry`).
  Timestamps (`u64`) are only compared and natural numbers here. The `debug!` traces are
  left out.
-/
import Peat.Lib.HashMap
import Peat.Lib.Newest
import Peat.Lib.Run

namespace Peat.Hierarchy

open Peat.Lib

/-! ## 1. One map of stamped entries -/

abbrev Entries := HashMap String (String × Nat)

/-- The common body of `assign_node`, `assign_cell` and `set_cell_leader`: rejected unless the
    timestamp is strictly newer than the entry's. -/
def assignEntry (m : Entries) (key value : String) (timestamp : Nat) : Entries × Bool :=
  match m.lookup key with
  | some (_, existingTs) =>
    if timestamp ≤ existingTs then (m, false) else (m.insert key (value, timestamp), true)
  | none => (m.insert key (value, timestamp), true)

/-- The common body of `remove_node`, `remove_cell` and `remove_cell_leader`: rejected if the
    timestamp is older than the entry's. -/
def removeEntry (m : Entries) (key : String) (timestamp : Nat) : Entries × Bool :=
  match m.lookup key with
  | some (_, existingTs) =>
    if timestamp < existingTs then (m, false) else (m.erase key, true)
  | none => (m.erase key, true)

def newestEntry : Option (String × Nat) → Option (String × Nat) → Option (String × Nat) :=
  newest (entryStamp Prod.snd)

variable (m : Entries)

theorem lookup_assignEntry (key value : String) (timestamp : Nat) :
    (assignEntry m key value timestamp).1.lookup key =
      newestEntry (m.lookup key) (some (value, timestamp)) := by
  unfold assignEntry newestEntry
  cases h : m.lookup key with
  | none => simp [newest_none_left]
  | some e =>
    obtain ⟨v, existingTs⟩ := e
    rw [newest_some_some]
    by_cases ht : timestamp ≤ existingTs
    · simp [ht, h, Nat.not_lt.mpr ht]
    · simp [ht, Nat.lt_of_not_le ht]

theorem lookup_assignEntry_ne (key value : String) (timestamp : Nat) {k : String} (hk : k ≠ key) :
    (assignEntry m key value timestamp).1.lookup k = m.lookup k := by
  unfold assignEntry
  split
  · split
    · rfl
    · exact AList.lookup_insert_ne hk
  · exact AList.lookup_insert_ne hk

theorem removeEntry_accepted (key : String) (timestamp : Nat) :
    (removeEntry m key timestamp).2 = true ↔ ∀ e, m.lookup key = some e → e.2 ≤ timestamp := by
  unfold removeEntry
  cases h : m.lookup key with
  | none => simp
  | some e =>
    by_cases ht : timestamp < e.2
    · simp [ht]
    · simp [ht, Nat.not_lt.mp ht]

theorem lookup_removeEntry (key : String) (timestamp : Nat) :
    (removeEntry m key timestamp).1.lookup key =
      (m.lookup key).filter (fun e => timestamp < e.2) := by
  unfold removeEntry
  cases h : m.lookup key with
  | none => simp
  | some e =>
    by_cases ht : timestamp < e.2
    · simp [ht, h, Option.filter]
    · simp [ht, Option.filter]

theorem lookup_removeEntry_ne (key : String) (timestamp : Nat) {k : String} (hk : k ≠ key) :
    (removeEntry m key timestamp).1.lookup k = m.lookup k := by
  unfold removeEntry
  split
  · split
    · rfl
    · exact AList.lookup_erase_ne hk
  · exact AList.lookup_erase_ne hk

def mergeEntries (m other : Entries) : Entries :=
  other.foldl (fun m key e => (assignEntry m key e.1 e.2).1) m

theorem lookup_mergeEntries (other : Entries) (k : String) :
    (mergeEntries m other).lookup k = newestEntry (m.lookup k) (other.lookup k) := by
  unfold mergeEntries
  rw [lookup_foldl_entries _ (fun _ e o => newestEntry o (some e))
    (fun m key e => lookup_assignEntry m key e.1 e.2)
    (fun m key e k' hk => lookup_assignEntry_ne m key e.1 e.2 hk)]
  cases other.lookup k with
  | none => exact (newest_none_right _ _).symm
  | some e => rfl

/-! ## 2. The table -/

structure RoutingTable where
  nodeToCell : Entries
  cellToZone : Entries
  cellLeaders : Entries

namespace RoutingTable

def new : RoutingTable := ⟨∅, ∅, ∅⟩

def assignNode (t : RoutingTable) (nodeId cellId : String) (timestamp : Nat) :
    RoutingTable × Bool :=
  let r := assignEntry t.nodeToCell nodeId cellId timestamp
  ({ t with nodeToCell := r.1 }, r.2)

def removeNode (t : RoutingTable) (nodeId : String) (timestamp : Nat) : RoutingTable × Bool :=
  let r := removeEntry t.nodeToCell nodeId timestamp
  ({ t with nodeToCell := r.1 }, r.2)

def assignCell (t : RoutingTable) (cellId zoneId : String) (timestamp : Nat) :
    RoutingTable × Bool :=
  let r := assignEntry t.cellToZone cellId zoneId timestamp
  ({ t with cellToZone := r.1 }, r.2)

def removeCell (t : RoutingTable) (cellId : String) (timestamp : Nat) : RoutingTable × Bool :=
  let r := removeEntry t.cellToZone cellId timestamp
  ({ t with cellToZone := r.1 }, r.2)

def setCellLeader (t : RoutingTable) (cellId leaderNodeId : String) (timestamp : Nat) :
    RoutingTable × Bool :=
  let r := assignEntry t.cellLeaders cellId leaderNodeId timestamp
  ({ t with cellLeaders := r.1 }, r.2)

def removeCellLeader (t : RoutingTable) (cellId : String) (timestamp : Nat) :
    RoutingTable × Bool :=
  let r := removeEntry t.cellLeaders cellId timestamp
  ({ t with cellLeaders := r.1 }, r.2)

def getNodeCell (t : RoutingTable) (nodeId : String) : Option String :=
  (t.nodeToCell.lookup nodeId).map Prod.fst

def getCellZone (t : RoutingTable) (cellId : String) : Option String :=
  (t.cellToZone.lookup cellId).map Prod.fst

def getCellLeader (t : RoutingTable) (cellId : String) : Option String :=
  (t.cellLeaders.lookup cellId).map Prod.fst

def merge (t other : RoutingTable) : RoutingTable :=
  ⟨mergeEntries t.nodeToCell other.nodeToCell, mergeEntries t.cellToZone other.cellToZone,
    mergeEntries t.cellLeaders other.cellLeaders⟩

end RoutingTable

/-! ## 3. The three maps under one name -/

inductive Slot where
  | node | cell | leader
  deriving DecidableEq, Repr

namespace RoutingTable

def slot (t : RoutingTable) : Slot → Entries
  | .node => t.nodeToCell
  | .cell => t.cellToZone
  | .leader => t.cellLeaders

def entry (t : RoutingTable) (sl : Slot) (k : String) : Option (String × Nat) := (t.slot sl).lookup k

def get (t : RoutingTable) : Slot → String → Option String
  | .node => t.getNodeCell
  | .cell => t.getCellZone
  | .leader => t.getCellLeader

def remove (t : RoutingTable) : Slot → String → Nat → RoutingTable × Bool
  | .node => t.removeNode
  | .cell => t.removeCell
  | .leader => t.removeCellLeader

variable (t : RoutingTable)

theorem get_eq (sl : Slot) (k : String) : t.get sl k = (t.entry sl k).map Prod.fst := by
  cases sl <;> rfl

theorem get_eq_none (sl : Slot) (k : String) : t.get sl k = none ↔ t.entry sl k = none := by
  rw [get_eq, Option.map_eq_none_iff]

theorem entry_merge (other : RoutingTable) (sl : Slot) (k : String) :
    (t.merge other).entry sl k = newestEntry (t.entry sl k) (other.entry sl k) := by
  cases sl <;> exact lookup_mergeEntries _ _ k

theorem remove_accepted (sl : Slot) (k : String) (ts : Nat) :
    (t.remove sl k ts).2 = true ↔ ∀ e, t.entry sl k = some e → e.2 ≤ ts := by
  cases sl <;> exact removeEntry_accepted _ _ _

theorem entry_remove (sl : Slot) (k : String) (ts : Nat) :
    (t.remove sl k ts).1.entry sl k = (t.entry sl k).filter (fun e => ts < e.2) := by
  cases sl <;> exact lookup_removeEntry _ _ _

theorem entry_remove_accepted {t : RoutingTable} {sl : Slot} {k : String} {ts : Nat}
    (h : (t.remove sl k ts).2 = true) : (t.remove sl k ts).1.entry sl k = none := by
  rw [entry_remove, Option.filter_eq_none_iff]
  intro e he
  simpa using (remove_accepted t sl k ts).mp h e he

end RoutingTable

/-! ## 4. Operations and runs -/

inductive TableOp where
  | assignNode (nodeId cellId : String) (timestamp : Nat)
  | removeNode (nodeId : String) (timestamp : Nat)
  | assignCell (cellId zoneId : String) (timestamp : Nat)
  | removeCell (cellId : String) (timestamp : Nat)
  | setCellLeader (cellId leaderNodeId : String) (timestamp : Nat)
  | removeCellLeader (cellId : String) (timestamp : Nat)
  | merge (other : RoutingTable)

namespace TableOp

/-- The entry an operation offers to a slot and key: what an assignment writes if accepted, what
    the other table of a merge holds there. -/
def offer : TableOp → Slot → String → Option (String × Nat)
  | .assignNode nodeId cellId ts, .node, k => if k = nodeId then some (cellId, ts) else none
  | .assignCell cellId zoneId ts, .cell, k => if k = cellId then some (zoneId, ts) else none
  | .setCellLeader cellId leaderNodeId ts, .leader, k =>
    if k = cellId then some (leaderNodeId, ts) else none
  | .merge other, sl, k => other.entry sl k
  | _, _, _ => none

def removal : TableOp → Slot → String → Option Nat
  | .removeNode nodeId ts, .node, k => if k = nodeId then some ts else none
  | .removeCell cellId ts, .cell, k => if k = cellId then some ts else none
  | .removeCellLeader cellId ts, .leader, k => if k = cellId then some ts else none
  | _, _, _ => none

end TableOp

namespace RoutingTable

def step (t : RoutingTable) : TableOp → RoutingTable
  | .assignNode nodeId cellId ts => (t.assignNode nodeId cellId ts).1
  | .removeNode nodeId ts => (t.removeNode nodeId ts).1
  | .assignCell cellId zoneId ts => (t.assignCell cellId zoneId ts).1
  | .removeCell cellId ts => (t.removeCell cellId ts).1
  | .setCellLeader cellId leaderNodeId ts => (t.setCellLeader cellId leaderNodeId ts).1
  | .removeCellLeader cellId ts => (t.removeCellLeader cellId ts).1
  | .merge other => t.merge other

/-- A table that calls lead to. -/
def Reachable (t : RoutingTable) : Prop := ∃ ops, t = run step new ops

theorem lookup_assign_any (m : Entries) (key value : String) (ts : Nat) (k : String) :
    (assignEntry m key value ts).1.lookup k =
      newestEntry (m.lookup k) (if k = key then some (value, ts) else none) := by
  by_cases hk : k = key
  · subst hk
    rw [if_pos rfl, lookup_assignEntry]
  · rw [if_neg hk, lookup_assignEntry_ne m key value ts hk]
    exact (newest_none_right _ _).symm

theorem lookup_remove_any (m : Entries) (key : String) (ts : Nat) (k : String) :
    (removeEntry m key ts).1.lookup k =
      if k = key then (m.lookup k).filter (fun e => ts < e.2) else m.lookup k := by
  by_cases hk : k = key
  · subst hk
    rw [if_pos rfl, lookup_removeEntry]
  · rw [if_neg hk, lookup_removeEntry_ne m key ts hk]

theorem entry_step (t : RoutingTable) (op : TableOp) (sl : Slot) (k : String) :
    (t.step op).entry sl k =
      match op.removal sl k with
      | some ts => (t.entry sl k).filter (fun e => ts < e.2)
      | none => newestEntry (t.entry sl k) (op.offer sl k) := by
  have hkeep : ∀ o, newestEntry o none = o := fun o => newest_none_right _ o
  cases op with
  | assignNode nodeId cellId ts =>
    cases sl
    · exact lookup_assign_any t.nodeToCell nodeId cellId ts k
    · exact (hkeep _).symm
    · exact (hkeep _).symm
  | assignCell cellId zoneId ts =>
    cases sl
    · exact (hkeep _).symm
    · exact lookup_assign_any t.cellToZone cellId zoneId ts k
    · exact (hkeep _).symm
  | setCellLeader cellId leaderNodeId ts =>
    cases sl
    · exact (hkeep _).symm
    · exact (hkeep _).symm
    · exact lookup_assign_any t.cellLeaders cellId leaderNodeId ts k
  | removeNode nodeId ts =>
    cases sl
    · refine (lookup_remove_any t.nodeToCell nodeId ts k).trans ?_
      by_cases hk : k = nodeId <;> simp [TableOp.removal, TableOp.offer, entry, slot, hk, hkeep]
    · exact (hkeep _).symm
    · exact (hkeep _).symm
  | removeCell cellId ts =>
    cases sl
    · exact (hkeep _).symm
    · refine (lookup_remove_any t.cellToZone cellId ts k).trans ?_
      by_cases hk : k = cellId <;> simp [TableOp.removal, TableOp.offer, entry, slot, hk, hkeep]
    · exact (hkeep _).symm
  | removeCellLeader cellId ts =>
    cases sl
    · exact (hkeep _).symm
    · exact (hkeep _).symm
    · refine (lookup_remove_any t.cellLeaders cellId ts k).trans ?_
      by_cases hk : k = cellId <;> simp [TableOp.removal, TableOp.offer, entry, slot, hk, hkeep]
  | merge other => exact entry_merge t other sl k

end RoutingTable

end Peat.Hierarchy
