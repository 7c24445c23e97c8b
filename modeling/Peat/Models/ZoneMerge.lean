/-
  THE LAWS OF `ZoneState::merge` for states of one zone.

  The merge pushes a capability of the other zone only if its own list has none of that
  TYPE: of two capabilities of one type each side keeps its own.
-/
import Peat.Models.Zone

namespace Peat.Models

open Peat.Lib

namespace ZoneState

/-! ## 1. States and what they are compared by -/

def capabilityTypes (s : ZoneState) : List CapabilityType :=
  s.aggregatedCapabilities.map Capability.getCapabilityType

/-- The same cells and capability types. -/
def SameSets (a b : ZoneState) : Prop :=
  (∀ cellId, cellId ∈ a.cells ↔ cellId ∈ b.cells) ∧
    ∀ t, t ∈ a.capabilityTypes ↔ t ∈ b.capabilityTypes

/-- One's own capabilities, and of the other's those of new types. -/
structure UnionByType (a b ab : ZoneState) : Prop where
  own_kept : ∀ c ∈ a.aggregatedCapabilities, c ∈ ab.aggregatedCapabilities
  types : ∀ t, t ∈ ab.capabilityTypes ↔ t ∈ a.capabilityTypes ∨ t ∈ b.capabilityTypes
  origin : ∀ c ∈ ab.aggregatedCapabilities, c ∈ a.aggregatedCapabilities ∨
    (c ∈ b.aggregatedCapabilities ∧ c.getCapabilityType ∉ a.capabilityTypes)

theorem ext_register {a b : ZoneState} (hc : a.config = b.config) (hcells : a.cells = b.cells)
    (hcaps : a.aggregatedCapabilities = b.aggregatedCapabilities)
    (hr : a.register = b.register) : a = b :=
  ZoneState.ext hc (congrArg Register.coordinatorId hr) hcells hcaps
    (congrArg Register.timestamp hr)

/-! ## 2. The merge of states of one zone -/

section Laws

variable (a b c : ZoneState)

theorem mergeSame_self : a.mergeSame a = a := by
  refine ext_register (config_mergeSame a a) ?_ ?_ ?_
  · rw [cells_mergeSame, unionBy_self]
  · rw [capabilities_mergeSame, unionBy_self]
  · rw [register_mergeSame, newest_self]

theorem mergeSame_assoc : (a.mergeSame b).mergeSame c = a.mergeSame (b.mergeSame c) := by
  refine ext_register ?_ ?_ ?_ ?_
  · simp only [config_mergeSame]
  · simp only [cells_mergeSame, unionBy_assoc]
  · simp only [capabilities_mergeSame, unionBy_assoc]
  · simp only [register_mergeSame, newest_assoc]

theorem mem_cells_mergeSame (cellId : String) :
    cellId ∈ (a.mergeSame b).cells ↔ cellId ∈ a.cells ∨ cellId ∈ b.cells := by
  rw [cells_mergeSame, mem_unionBy_id]

theorem mem_capabilityTypes_mergeSame (t : CapabilityType) :
    t ∈ (a.mergeSame b).capabilityTypes ↔ t ∈ a.capabilityTypes ∨ t ∈ b.capabilityTypes := by
  rw [capabilityTypes, capabilities_mergeSame]
  exact mem_keys_unionBy

theorem sameSets_mergeSame : SameSets (a.mergeSame b) (b.mergeSame a) := by
  refine ⟨fun cellId => ?_, fun t => ?_⟩
  · rw [mem_cells_mergeSame, mem_cells_mergeSame]
    exact or_comm
  · rw [mem_capabilityTypes_mergeSame, mem_capabilityTypes_mergeSame]
    exact or_comm

theorem unionByType_mergeSame : UnionByType a b (a.mergeSame b) where
  own_kept := fun c hc => by
    rw [capabilities_mergeSame]
    exact mem_unionBy_left hc
  types := mem_capabilityTypes_mergeSame a b
  origin := fun c hc => by
    rw [capabilities_mergeSame] at hc
    exact mem_of_mem_unionBy hc

theorem register_mergeSame_comm
    (h : secondsOf a.timestamp = secondsOf b.timestamp → a.register = b.register) :
    (a.mergeSame b).register = (b.mergeSame a).register := by
  rw [register_mergeSame, register_mergeSame]
  exact (newest_comm_iff id).mpr h

end Laws

/-- **The laws of the merge**, for states of one zone. -/
theorem zoneMerge_laws (a b c : ZoneState) (hab : a.zoneId = b.zoneId) (hbc : b.zoneId = c.zoneId) :
    ∃ ab ba bc abc, a.merge b = .ok ab ∧ b.merge a = .ok ba ∧ b.merge c = .ok bc ∧
      -- associative and idempotent
      (ab.merge c = .ok abc ∧ a.merge bc = .ok abc) ∧ a.merge a = .ok a ∧
      -- commutative
      SameSets ab ba ∧
      ((secondsOf a.timestamp = secondsOf b.timestamp →
          a.coordinatorId = b.coordinatorId ∧ a.timestamp = b.timestamp) →
        ab.coordinatorId = ba.coordinatorId ∧ ab.timestamp = ba.timestamp) ∧
      -- grow-only by type
      UnionByType a b ab := by
  refine ⟨a.mergeSame b, b.mergeSame a, b.mergeSame c, (a.mergeSame b).mergeSame c,
    merge_of_same hab, merge_of_same hab.symm, merge_of_same hbc, ⟨?_, ?_⟩, ?_,
    sameSets_mergeSame a b, fun htie => ?_, unionByType_mergeSame a b⟩
  · exact merge_of_same (by rw [zoneId_mergeSame, hab, hbc])
  · rw [mergeSame_assoc]
    exact merge_of_same (by rw [zoneId_mergeSame, hab])
  · rw [merge_of_same rfl, mergeSame_self]
  · have hreg := register_mergeSame_comm a b fun e => by
      obtain ⟨hc, ht⟩ := htie e
      rw [register, register, hc, ht]
    exact ⟨congrArg Register.coordinatorId hreg, congrArg Register.timestamp hreg⟩

def withCapability (id name : String) (t : CapabilityType) (now : Nat) : ZoneState :=
  (new (ZoneConfig.new "zone_1" 5 10) 10).addCapability (Capability.new id name t 1) now

/-- Two states that aggregated capabilities of different types: both directions agree. -/
theorem zoneMerge_laws_two_types :
    let a := withCapability "cap_1" "Camera" .sensor 11
    let b := withCapability "cap_2" "Gripper" .payload 12
    ∃ ab ba, a.merge b = .ok ab ∧ b.merge a = .ok ba ∧ SameSets ab ba ∧
      ab.coordinatorId = ba.coordinatorId ∧ ab.timestamp = ba.timestamp := by
  intro a b
  obtain ⟨ab, ba, _, _, hab, hba, _, _, _, hsets, hreg, _⟩ := zoneMerge_laws a b a rfl rfl
  exact ⟨ab, ba, hab, hba, hsets, hreg (by decide)⟩

/-- Two states with different capabilities of ONE type: each side keeps its own, and the two directions
    disagree. -/
theorem zoneMerge_same_type_differs :
    let a := withCapability "cap_1" "Camera" .sensor 11
    let b := withCapability "cap_2" "Radar" .sensor 12
    (a.merge b).map (fun s => s.aggregatedCapabilities.map Capability.id) = .ok ["cap_1"] ∧
      (b.merge a).map (fun s => s.aggregatedCapabilities.map Capability.id) = .ok ["cap_2"] := by
  intro a b
  rw [merge_of_same (show a.zoneId = b.zoneId from rfl),
    merge_of_same (show b.zoneId = a.zoneId from rfl)]
  have hab : (a.mergeSame b).aggregatedCapabilities.map Capability.id = ["cap_1"] := by decide
  have hba : (b.mergeSame a).aggregatedCapabilities.map Capability.id = ["cap_2"] := by decide
  exact ⟨congrArg Except.ok hab, congrArg Except.ok hba⟩

end ZoneState

end Peat.Models
