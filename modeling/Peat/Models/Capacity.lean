/-
  CAPACITY of cells and zones over whole runs of their replicas.

  `add_member` and `add_cell` look at the capacity; `merge` does not. So a run stays
  within it exactly as long as every merge joins states that fit TOGETHER.
-/
import Peat.Models.CellRuns
import Peat.Models.Zone

namespace Peat.Models

open Peat.Lib

/-! ## 1. Cells -/

namespace CellState

/-- No more members than the configuration allows. -/
def WithinCapacity (config : CellConfig) (s : CellState) : Prop := s.members.length ≤ config.maxSize

def FitTogether (config : CellConfig) (a b : CellState) : Prop :=
  (a.members.toFinset ∪ b.members.toFinset).card ≤ config.maxSize

/-- A well-formed state of the cell that the configuration describes. -/
def IsReplica (config : CellConfig) (s : CellState) : Prop := s.config = some config ∧ s.Wf

theorem withinCapacity_act {config : CellConfig} {s : CellState} (op : CellOp)
    (hc : s.config = some config) (h : s.WithinCapacity config) :
    (s.act op).WithinCapacity config := by
  have he := effect_act s op
  generalize s.act op = s' at he
  cases he with
  | addMember nodeId now hf _ =>
    have hlt : s.members.length < config.maxSize := by
      rw [isFull, hc] at hf
      exact Nat.not_le.mp (of_decide_eq_false hf)
    show (s.members ++ [nodeId]).length ≤ config.maxSize
    rw [List.length_append, List.length_singleton]
    omega
  | removeMember nodeId now _ =>
    have hle : (s.members.erase nodeId).length ≤ s.members.length := List.length_erase_le
    exact hle.trans h
  | _ => exact h

theorem withinCapacity_merge (config : CellConfig) {a : CellState} (ha : a.Wf) (b : CellState) :
    (a.merge b).WithinCapacity config ↔ FitTogether config a b := by
  rw [WithinCapacity, members_merge, card_unionBy_id ha.members_nodup, FitTogether]

end CellState

/-! ## 2. Zones -/

namespace ZoneState

/-- No more cells than the configuration allows. -/
def WithinCapacity (config : ZoneConfig) (s : ZoneState) : Prop := s.cells.length ≤ config.maxCells

def FitTogether (config : ZoneConfig) (a b : ZoneState) : Prop :=
  (a.cells.toFinset ∪ b.cells.toFinset).card ≤ config.maxCells

/-- A well-formed state of the zone that the configuration describes. -/
def IsReplica (config : ZoneConfig) (s : ZoneState) : Prop := s.config = some config ∧ s.Wf

variable {config : ZoneConfig} {a b : ZoneState}

theorem zoneId_eq_of_isReplica (ha : IsReplica config a) (hb : IsReplica config b) :
    a.zoneId = b.zoneId := by
  rw [zoneId, zoneId, ha.1, hb.1]

theorem withinCapacity_act {s : ZoneState} (op : ZoneOp) (hc : s.config = some config)
    (h : s.WithinCapacity config) : (s.act op).WithinCapacity config := by
  have he := effect_act s op
  generalize s.act op = s' at he
  cases he with
  | addCell cellId now hf _ =>
    have hlt : s.cells.length < config.maxCells := by
      rw [isFull, hc] at hf
      exact Nat.not_le.mp (of_decide_eq_false hf)
    show (s.cells ++ [cellId]).length ≤ config.maxCells
    rw [List.length_append, List.length_singleton]
    omega
  | removeCell cellId now _ =>
    have hle : (s.cells.erase cellId).length ≤ s.cells.length := List.length_erase_le
    exact hle.trans h
  | _ => exact h

theorem withinCapacity_mergeOrKeep (ha : IsReplica config a) (hb : IsReplica config b) :
    (a.mergeOrKeep b).WithinCapacity config ↔ FitTogether config a b := by
  rw [mergeOrKeep_of_same (zoneId_eq_of_isReplica ha hb), WithinCapacity, cells_mergeSame,
    card_unionBy_id ha.2.cells_nodup, FitTogether]

theorem isReplica_mergeOrKeep (ha : IsReplica config a) (hb : IsReplica config b) :
    IsReplica config (a.mergeOrKeep b) := by
  refine ⟨?_, wf_mergeOrKeep ha.2⟩
  rw [mergeOrKeep_of_same (zoneId_eq_of_isReplica ha hb), config_mergeSame]
  exact ha.1

end ZoneState

/-! ## 3. Whole runs -/

section Runs

variable {ι : Type*} [DecidableEq ι]

/-- All replicas are within the capacity all along. -/
def CellRunWithin (config : CellConfig) (ops : List (SysOp ι Nat CellOp)) : Prop :=
  ∀ pre, pre <+: ops →
    Machine.AllHold (CellState.WithinCapacity config) ((cellMachine config).sysRun pre)

/-- All replicas are within the capacity all along. -/
def ZoneRunWithin (config : ZoneConfig) (ops : List (SysOp ι Nat ZoneOp)) : Prop :=
  ∀ pre, pre <+: ops →
    Machine.AllHold (ZoneState.WithinCapacity config) ((zoneMachine config).sysRun pre)

/-- Cells that are merged have room for each other's members. -/
def CellMergesFit (config : CellConfig) (ops : List (SysOp ι Nat CellOp)) : Prop :=
  RunMeets (cellMachine config).sysStep
    ((cellMachine config).MergeOk (CellState.FitTogether config)) (fun _ => none) ops

/-- Zones that are merged have room for each other's cells. -/
def ZoneMergesFit (config : ZoneConfig) (ops : List (SysOp ι Nat ZoneOp)) : Prop :=
  RunMeets (zoneMachine config).sysStep
    ((zoneMachine config).MergeOk (ZoneState.FitTogether config)) (fun _ => none) ops

theorem cellRunWithin_iff (config : CellConfig) (ops : List (SysOp ι Nat CellOp)) :
    CellRunWithin config ops ↔ CellMergesFit config ops := by
  refine Machine.sys_within_iff_of_invariant (CellState.IsReplica config) ?_ ?_ ?_ ?_ ?_ ?_ ops
  · exact fun now => ⟨rfl, CellState.wf_new config now⟩
  · exact fun s op h => ⟨(CellState.config_act s op).trans h.1, CellState.wf_act h.2 op⟩
  · exact fun a b ha hb => ⟨(CellState.config_merge a b).trans ha.1, CellState.wf_merge ha.2 hb.2⟩
  · exact fun now => Nat.zero_le _
  · exact fun s op hI h => CellState.withinCapacity_act op hI.1 h
  · exact fun a b ha _ => CellState.withinCapacity_merge config ha.2 b

theorem zoneRunWithin_iff (config : ZoneConfig) (ops : List (SysOp ι Nat ZoneOp)) :
    ZoneRunWithin config ops ↔ ZoneMergesFit config ops := by
  refine Machine.sys_within_iff_of_invariant (ZoneState.IsReplica config) ?_ ?_ ?_ ?_ ?_ ?_ ops
  · exact fun now => ⟨rfl, ZoneState.wf_new config now⟩
  · exact fun s op h => ⟨(ZoneState.config_act s op).trans h.1, ZoneState.wf_act h.2 op⟩
  · exact fun a b ha hb => ZoneState.isReplica_mergeOrKeep ha hb
  · exact fun now => Nat.zero_le _
  · exact fun s op hI h => ZoneState.withinCapacity_act op hI.1 h
  · exact fun a b ha hb => ZoneState.withinCapacity_mergeOrKeep ha hb

/-- **Capacity of cells and of zones**: no operation of a replica exceeds it, and over a whole run it holds
    if and only if every merge of the run joins states whose members (cells) fit together. -/
theorem capacity_within_iff (cellConfig : CellConfig) (zoneConfig : ZoneConfig)
    (cellOps : List (SysOp ι Nat CellOp)) (zoneOps : List (SysOp ι Nat ZoneOp)) :
    ((∀ s op, CellState.IsReplica cellConfig s → s.WithinCapacity cellConfig →
        (s.act op).WithinCapacity cellConfig) ∧
      (CellRunWithin cellConfig cellOps ↔ CellMergesFit cellConfig cellOps)) ∧
      (∀ s op, ZoneState.IsReplica zoneConfig s → s.WithinCapacity zoneConfig →
        (s.act op).WithinCapacity zoneConfig) ∧
      (ZoneRunWithin zoneConfig zoneOps ↔ ZoneMergesFit zoneConfig zoneOps) :=
  ⟨⟨fun _ op hs h => CellState.withinCapacity_act op hs.1 h, cellRunWithin_iff cellConfig cellOps⟩,
    fun _ op hs h => ZoneState.withinCapacity_act op hs.1 h, zoneRunWithin_iff zoneConfig zoneOps⟩

end Runs

/-- Two replicas fill up with different members (cells); each add was within the capacity of two,
    the merge holds four. -/
theorem capacity_exceeded_by_merge :
    let cell := CellConfig.withId "cell_1" 2 10
    let cellOps : List (SysOp Bool Nat CellOp) :=
      [.create false 10, .act false (.addMember "node_1" 11), .act false (.addMember "node_2" 11),
       .create true 10, .act true (.addMember "node_3" 11), .act true (.addMember "node_4" 11),
       .merge false true]
    let zone := ZoneConfig.new "zone_1" 2 10
    let zoneOps : List (SysOp Bool Nat ZoneOp) :=
      [.create false 10, .act false (.addCell "cell_1" 11), .act false (.addCell "cell_2" 11),
       .create true 10, .act true (.addCell "cell_3" 11), .act true (.addCell "cell_4" 11),
       .merge false true]
    ¬ CellRunWithin cell cellOps ∧ ¬ ZoneRunWithin zone zoneOps := by
  intro cell cellOps zone zoneOps
  have hcell : ((cellMachine cell).sysRun cellOps false).map CellState.memberCount = some 4 := by
    decide
  have hzone : ((zoneMachine zone).sysRun zoneOps false).map (fun s => s.cells.length) = some 4 := by
    decide
  refine ⟨fun h => ?_, fun h => ?_⟩
  · obtain ⟨s, hs, hlen⟩ := Option.map_eq_some_iff.mp hcell
    have hle : s.members.length ≤ 2 := h cellOps (List.prefix_refl _) false s hs
    have hfour : s.members.length = 4 := hlen
    omega
  · obtain ⟨s, hs, hlen⟩ := Option.map_eq_some_iff.mp hzone
    have hle : s.cells.length ≤ 2 := h zoneOps (List.prefix_refl _) false s hs
    omega

end Peat.Models
