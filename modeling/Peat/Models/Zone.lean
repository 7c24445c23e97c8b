/-
  ZONE STATE of models/zone.rs: the cells of one zone, its coordinator and its
  aggregated capabilities.

  One timestamp serves the whole state. Coordinator writes compare theirs with it; cell
  and capability edits overwrite it with the wall clock (`now`).
-/
import Peat.Lib.Newest
import Peat.Lib.Replicas
import Peat.Lib.UnionBy
import Peat.Schema

namespace Peat.Models

open Peat.Lib

structure ZoneConfig where
  id : String
  maxCells : Nat
  minCells : Nat
  createdAt : Option Timestamp
  deriving DecidableEq, Repr

def ZoneConfig.new (id : String) (maxCells now : Nat) : ZoneConfig :=
  ⟨id, maxCells, 2, stampOf now⟩

@[ext] structure ZoneState where
  config : Option ZoneConfig
  coordinatorId : Option String
  cells : List String
  aggregatedCapabilities : List Capability
  timestamp : Option Timestamp
  deriving DecidableEq, Repr

namespace ZoneState

/-! ## 1. The edits -/

def new (config : ZoneConfig) (now : Nat) : ZoneState := ⟨some config, none, [], [], stampOf now⟩

def updateTimestamp (s : ZoneState) (now : Nat) : ZoneState := { s with timestamp := stampOf now }

def isFull (s : ZoneState) : Bool :=
  match s.config with
  | some config => decide (config.maxCells ≤ s.cells.length)
  | none => false

def addCell (s : ZoneState) (cellId : String) (now : Nat) : ZoneState × Bool :=
  if s.isFull then (s, false)
  else if s.cells.any (fun id => id == cellId) then (s, false)
  else (({ s with cells := s.cells ++ [cellId] } : ZoneState).updateTimestamp now, true)

def removeCell (s : ZoneState) (cellId : String) (now : Nat) : ZoneState × Bool :=
  match s.cells.idxOf? cellId with
  | some pos => (({ s with cells := s.cells.eraseIdx pos } : ZoneState).updateTimestamp now, true)
  | none => (s, false)

def writeCoordinator (s : ZoneState) (coordinatorId : Option String) (timestamp : Nat) :
    ZoneState × Bool :=
  if timestamp < secondsOf s.timestamp then (s, false)
  else ({ s with coordinatorId := coordinatorId, timestamp := stampOf timestamp }, true)

def setCoordinator (s : ZoneState) (coordinatorId : String) (timestamp : Nat) : ZoneState × Bool :=
  s.writeCoordinator (some coordinatorId) timestamp

def removeCoordinator (s : ZoneState) (timestamp : Nat) : ZoneState × Bool :=
  s.writeCoordinator none timestamp

def addCapability (s : ZoneState) (capability : Capability) (now : Nat) : ZoneState :=
  if s.aggregatedCapabilities.any (fun c => c.getCapabilityType == capability.getCapabilityType)
  then s
  else ({ s with aggregatedCapabilities := s.aggregatedCapabilities ++ [capability] } :
    ZoneState).updateTimestamp now

def zoneId (s : ZoneState) : Option String := s.config.map ZoneConfig.id

/-- What `merge` does once the ids agree: the register, then the cells, then the capabilities. -/
def mergeSame (s other : ZoneState) : ZoneState :=
  let u :=
    if secondsOf s.timestamp < secondsOf other.timestamp then
      { s with coordinatorId := other.coordinatorId, timestamp := other.timestamp }
    else s
  { u with
    cells := unionBy id u.cells other.cells
    aggregatedCapabilities :=
      unionBy Capability.getCapabilityType u.aggregatedCapabilities other.aggregatedCapabilities }

def merge (s other : ZoneState) : Except String ZoneState :=
  if s.zoneId = other.zoneId then .ok (s.mergeSame other)
  else .error "Cannot merge zones with different IDs"

def mergeOrKeep (s other : ZoneState) : ZoneState :=
  match s.merge other with
  | .ok u => u
  | .error _ => s

/-! ## 2. What each guarded edit can do -/

variable (s : ZoneState)

theorem addCell_cases (cellId : String) (now : Nat) :
    ((s.isFull = true ∨ cellId ∈ s.cells) ∧ s.addCell cellId now = (s, false)) ∨
    (s.isFull = false ∧ cellId ∉ s.cells ∧ s.addCell cellId now =
      ({ s with cells := s.cells ++ [cellId], timestamp := stampOf now }, true)) := by
  unfold addCell
  by_cases hf : s.isFull = true
  · exact Or.inl ⟨Or.inl hf, by rw [if_pos hf]⟩
  · by_cases hm : s.cells.any (fun id => id == cellId) = true
    · exact Or.inl ⟨Or.inr (by simpa using hm), by rw [if_neg hf, if_pos hm]⟩
    · refine Or.inr ⟨by simpa using hf, by simpa using hm, ?_⟩
      rw [if_neg hf, if_neg hm]
      rfl

theorem removeCell_cases (cellId : String) (now : Nat) :
    (cellId ∉ s.cells ∧ s.removeCell cellId now = (s, false)) ∨
    (cellId ∈ s.cells ∧ s.removeCell cellId now =
      ({ s with cells := s.cells.erase cellId, timestamp := stampOf now }, true)) := by
  unfold removeCell
  rcases idxOf?_cases s.cells cellId with ⟨hm, hpos⟩ | ⟨hm, pos, hpos, herase⟩ <;> rw [hpos]
  · exact Or.inl ⟨hm, rfl⟩
  · refine Or.inr ⟨hm, ?_⟩
    rw [← herase]
    rfl

theorem writeCoordinator_cases (coordinatorId : Option String) (timestamp : Nat) :
    (timestamp < secondsOf s.timestamp ∧
      s.writeCoordinator coordinatorId timestamp = (s, false)) ∨
    (secondsOf s.timestamp ≤ timestamp ∧ s.writeCoordinator coordinatorId timestamp =
      ({ s with coordinatorId := coordinatorId, timestamp := stampOf timestamp }, true)) := by
  unfold writeCoordinator
  by_cases h : timestamp < secondsOf s.timestamp
  · exact Or.inl ⟨h, if_pos h⟩
  · exact Or.inr ⟨Nat.not_lt.mp h, if_neg h⟩

theorem addCapability_cases (c : Capability) (now : Nat) :
    (c.getCapabilityType ∈ s.aggregatedCapabilities.map Capability.getCapabilityType ∧
      s.addCapability c now = s) ∨
    (c.getCapabilityType ∉ s.aggregatedCapabilities.map Capability.getCapabilityType ∧
      s.addCapability c now =
        { s with aggregatedCapabilities := s.aggregatedCapabilities ++ [c],
                 timestamp := stampOf now }) := by
  unfold addCapability
  by_cases hc : c.getCapabilityType ∈ s.aggregatedCapabilities.map Capability.getCapabilityType
  · exact Or.inl ⟨hc, if_pos (any_key_iff.mpr hc)⟩
  · exact Or.inr ⟨hc, if_neg fun e => hc (any_key_iff.mp e)⟩

end ZoneState

/-! ## 3. Operations -/

inductive ZoneOp where
  | addCell (cellId : String) (now : Nat)
  | removeCell (cellId : String) (now : Nat)
  | setCoordinator (coordinatorId : String) (timestamp : Nat)
  | removeCoordinator (timestamp : Nat)
  | addCapability (capability : Capability) (now : Nat)
  deriving DecidableEq, Repr

def ZoneOp.coordinatorWrite : ZoneOp → Option (Option String × Nat)
  | .setCoordinator coordinatorId timestamp => some (some coordinatorId, timestamp)
  | .removeCoordinator timestamp => some (none, timestamp)
  | _ => none

namespace ZoneState

def act (s : ZoneState) : ZoneOp → ZoneState
  | .addCell cellId now => (s.addCell cellId now).1
  | .removeCell cellId now => (s.removeCell cellId now).1
  | .setCoordinator coordinatorId timestamp => (s.setCoordinator coordinatorId timestamp).1
  | .removeCoordinator timestamp => (s.removeCoordinator timestamp).1
  | .addCapability capability now => s.addCapability capability now

/-- What the operation asks is impossible, done already or late. -/
def Rejects (s : ZoneState) : ZoneOp → Prop
  | .addCell cellId _ => s.isFull = true ∨ cellId ∈ s.cells
  | .removeCell cellId _ => cellId ∉ s.cells
  | .setCoordinator _ timestamp => timestamp < secondsOf s.timestamp
  | .removeCoordinator timestamp => timestamp < secondsOf s.timestamp
  | .addCapability c _ =>
    c.getCapabilityType ∈ s.aggregatedCapabilities.map Capability.getCapabilityType

instance (s : ZoneState) (op : ZoneOp) : Decidable (s.Rejects op) := by
  cases op <;> unfold Rejects <;> infer_instance

theorem rejects_write_iff {op : ZoneOp} {coordinatorId : Option String} {timestamp : Nat}
    (hw : op.coordinatorWrite = some (coordinatorId, timestamp)) (s : ZoneState) :
    s.Rejects op ↔ timestamp < secondsOf s.timestamp := by
  cases op <;> cases hw <;> exact Iff.rfl

/-- **What an operation can do**: nothing, or the one change its name says, with its stamp. -/
inductive Effect (s : ZoneState) : ZoneOp → ZoneState → Prop where
  | rejected (op : ZoneOp) (h : s.Rejects op) : Effect s op s
  | addCell (cellId : String) (now : Nat) (hf : s.isFull = false) (hm : cellId ∉ s.cells) :
      Effect s (.addCell cellId now)
        { s with cells := s.cells ++ [cellId], timestamp := stampOf now }
  | removeCell (cellId : String) (now : Nat) (hm : cellId ∈ s.cells) :
      Effect s (.removeCell cellId now)
        { s with cells := s.cells.erase cellId, timestamp := stampOf now }
  | coordinator (op : ZoneOp) (coordinatorId : Option String) (timestamp : Nat)
      (hw : op.coordinatorWrite = some (coordinatorId, timestamp))
      (hts : secondsOf s.timestamp ≤ timestamp) :
      Effect s op { s with coordinatorId := coordinatorId, timestamp := stampOf timestamp }
  | addCapability (c : Capability) (now : Nat)
      (hc : c.getCapabilityType ∉ s.aggregatedCapabilities.map Capability.getCapabilityType) :
      Effect s (.addCapability c now)
        { s with aggregatedCapabilities := s.aggregatedCapabilities ++ [c],
                 timestamp := stampOf now }

theorem effect_act (s : ZoneState) (op : ZoneOp) : Effect s op (s.act op) := by
  cases op with
  | addCell cellId now =>
    show Effect s _ (s.addCell cellId now).1
    rcases addCell_cases s cellId now with ⟨hr, h⟩ | ⟨hf, hm, h⟩ <;> rw [h]
    · exact .rejected _ hr
    · exact .addCell cellId now hf hm
  | removeCell cellId now =>
    show Effect s _ (s.removeCell cellId now).1
    rcases removeCell_cases s cellId now with ⟨hm, h⟩ | ⟨hm, h⟩ <;> rw [h]
    · exact .rejected _ hm
    · exact .removeCell cellId now hm
  | setCoordinator coordinatorId timestamp =>
    show Effect s _ (s.writeCoordinator (some coordinatorId) timestamp).1
    rcases writeCoordinator_cases s (some coordinatorId) timestamp with ⟨ht, h⟩ | ⟨ht, h⟩ <;> rw [h]
    · exact .rejected _ ht
    · exact .coordinator _ _ timestamp rfl ht
  | removeCoordinator timestamp =>
    show Effect s _ (s.writeCoordinator none timestamp).1
    rcases writeCoordinator_cases s none timestamp with ⟨ht, h⟩ | ⟨ht, h⟩ <;> rw [h]
    · exact .rejected _ ht
    · exact .coordinator _ _ timestamp rfl ht
  | addCapability c now =>
    show Effect s _ (s.addCapability c now)
    rcases addCapability_cases s c now with ⟨hc, h⟩ | ⟨hc, h⟩ <;> rw [h]
    · exact .rejected _ hc
    · exact .addCapability c now hc

theorem act_of_rejects {s : ZoneState} {op : ZoneOp} (hr : s.Rejects op) : s.act op = s := by
  have h := effect_act s op
  generalize s.act op = s' at h
  cases h with
  | rejected _ _ => rfl
  | addCell cellId now hf hm =>
    rcases hr with h | h
    · rw [hf] at h; cases h
    · exact absurd h hm
  | removeCell cellId now hm => exact absurd hm hr
  | addCapability c now hc => exact absurd hr hc
  | coordinator _ coordinatorId timestamp hw hts =>
    exact absurd ((rejects_write_iff hw s).mp hr) (Nat.not_lt.mpr hts)

@[simp] theorem config_act (s : ZoneState) (op : ZoneOp) : (s.act op).config = s.config := by
  have h := effect_act s op
  generalize s.act op = s' at h
  cases h <;> rfl

/-! ## 4. What the merge computes -/

variable {a b : ZoneState}

theorem merge_of_same (h : a.zoneId = b.zoneId) :
    a.merge b = .ok (a.mergeSame b) := if_pos h

theorem mergeOrKeep_of_same (h : a.zoneId = b.zoneId) : a.mergeOrKeep b = a.mergeSame b := by
  rw [mergeOrKeep, merge_of_same h]

theorem mergeOrKeep_of_ne (h : a.zoneId ≠ b.zoneId) : a.mergeOrKeep b = a := by
  rw [mergeOrKeep, merge, if_neg h]

structure Register where
  coordinatorId : Option String
  timestamp : Option Timestamp
  deriving DecidableEq, Repr

def register (s : ZoneState) : Register := ⟨s.coordinatorId, s.timestamp⟩

def Register.seconds (r : Register) : Nat := secondsOf r.timestamp

section MergeSame

variable (a b : ZoneState)

@[simp] theorem config_mergeSame : (a.mergeSame b).config = a.config := by
  unfold mergeSame
  dsimp only
  split <;> rfl

@[simp] theorem zoneId_mergeSame : (a.mergeSame b).zoneId = a.zoneId := by
  rw [zoneId, config_mergeSame, zoneId]

@[simp] theorem cells_mergeSame : (a.mergeSame b).cells = unionBy id a.cells b.cells := by
  unfold mergeSame
  dsimp only
  split <;> rfl

@[simp] theorem capabilities_mergeSame :
    (a.mergeSame b).aggregatedCapabilities = unionBy Capability.getCapabilityType
      a.aggregatedCapabilities b.aggregatedCapabilities := by
  unfold mergeSame
  dsimp only
  split <;> rfl

theorem register_mergeSame :
    (a.mergeSame b).register = newest Register.seconds a.register b.register := by
  by_cases h : secondsOf a.timestamp < secondsOf b.timestamp
  · rw [newest_of_lt (show a.register.seconds < b.register.seconds from h)]
    simp only [mergeSame, if_pos h, register]
  · rw [newest_of_le (show b.register.seconds ≤ a.register.seconds from Nat.not_lt.mp h)]
    simp only [mergeSame, if_neg h, register]

end MergeSame

/-! ## 5. The invariant of a zone -/

structure Wf (s : ZoneState) : Prop where
  cells_nodup : s.cells.Nodup
  capability_types_nodup : (s.aggregatedCapabilities.map Capability.getCapabilityType).Nodup

theorem wf_new (config : ZoneConfig) (now : Nat) : (new config now).Wf :=
  ⟨List.nodup_nil, List.nodup_nil⟩

theorem wf_act {s : ZoneState} (hs : s.Wf) (op : ZoneOp) : (s.act op).Wf := by
  obtain ⟨hcells, hcaps⟩ := hs
  have h := effect_act s op
  generalize s.act op = s' at h
  cases h with
  | rejected op _ => exact ⟨hcells, hcaps⟩
  | addCell cellId now _ hm =>
    refine ⟨?_, hcaps⟩
    show (s.cells ++ [cellId]).Nodup
    rw [← List.concat_eq_append]
    exact hcells.concat hm
  | removeCell cellId now _ => exact ⟨hcells.erase cellId, hcaps⟩
  | coordinator op _ _ _ _ => exact ⟨hcells, hcaps⟩
  | addCapability c now hc =>
    have hpush := nodup_pushNew (x := c) hcaps
    rw [pushNew_of_not_mem hc] at hpush
    exact ⟨hcells, hpush⟩

theorem wf_mergeOrKeep (ha : a.Wf) : (a.mergeOrKeep b).Wf := by
  by_cases h : a.zoneId = b.zoneId
  · rw [mergeOrKeep_of_same h]
    refine ⟨?_, ?_⟩
    · rw [cells_mergeSame]
      exact nodup_unionBy_id ha.cells_nodup
    · rw [capabilities_mergeSame]
      exact nodup_unionBy ha.capability_types_nodup
  · rw [mergeOrKeep_of_ne h]
    exact ha

end ZoneState

def zoneMachine (config : ZoneConfig) : Machine Nat ZoneOp ZoneState :=
  ⟨ZoneState.new config, ZoneState.act, ZoneState.mergeOrKeep⟩

end Peat.Models
