/-
  CELL STATE of models/cell/mod.rs: members, leader, capabilities and cohort of one
  cell, its edits and its merge.

  Every edit that takes effect calls `update_timestamp`, which reads the wall
  clock; the reading is the argument `now` (whole seconds). One timestamp
  serves the whole state.
-/
import Peat.Lib.Newest
import Peat.Lib.UnionBy
import Peat.Schema

namespace Peat.Models

open Peat.Lib

structure CellConfig where
  id : String
  maxSize : Nat
  minSize : Nat
  createdAt : Option Timestamp
  deriving DecidableEq, Repr

def CellConfig.withId (id : String) (maxSize now : Nat) : CellConfig :=
  ⟨id, maxSize, 2, stampOf now⟩

structure CellState where
  config : Option CellConfig
  leaderId : Option String
  members : List String
  capabilities : List Capability
  cohortId : Option String
  timestamp : Option Timestamp
  deriving DecidableEq, Repr

namespace CellState

/-! ## 1. The edits -/

def new (config : CellConfig) (now : Nat) : CellState :=
  ⟨some config, none, [], [], none, stampOf now⟩

def updateTimestamp (s : CellState) (now : Nat) : CellState := { s with timestamp := stampOf now }

def isFull (s : CellState) : Bool :=
  match s.config with
  | some config => decide (config.maxSize ≤ s.members.length)
  | none => false

def isValid (s : CellState) : Bool :=
  match s.config with
  | some config => decide (config.minSize ≤ s.members.length)
  | none => false

def getId (s : CellState) : Option String := s.config.map (·.id)

def addMember (s : CellState) (nodeId : String) (now : Nat) : CellState × Bool :=
  if s.isFull then (s, false)
  else if s.members.contains nodeId then (s, false)
  else (({ s with members := s.members ++ [nodeId] } : CellState).updateTimestamp now, true)

def removeMember (s : CellState) (nodeId : String) (now : Nat) : CellState × Bool :=
  match s.members.idxOf? nodeId with
  | some pos =>
    let s' := ({ s with members := s.members.eraseIdx pos } : CellState).updateTimestamp now
    (if s'.leaderId = some nodeId then { s' with leaderId := none } else s', true)
  | none => (s, false)

def setLeader (s : CellState) (nodeId : String) (now : Nat) : CellState × Except String Unit :=
  if !s.members.contains nodeId then (s, .error "Leader must be a cell member")
  else (({ s with leaderId := some nodeId } : CellState).updateTimestamp now, .ok ())

def clearLeader (s : CellState) (now : Nat) : CellState :=
  ({ s with leaderId := none } : CellState).updateTimestamp now

def addCapability (s : CellState) (capability : Capability) (now : Nat) : CellState :=
  if s.capabilities.any (fun c => c.id == capability.id) then s
  else ({ s with capabilities := s.capabilities ++ [capability] } : CellState).updateTimestamp now

def assignCohort (s : CellState) (cohortId : String) (now : Nat) : CellState :=
  ({ s with cohortId := some cohortId } : CellState).updateTimestamp now

def leaveCohort (s : CellState) (now : Nat) : CellState :=
  ({ s with cohortId := none } : CellState).updateTimestamp now

def merge (s other : CellState) : CellState :=
  let u := { s with
    members := unionBy id s.members other.members
    capabilities := unionBy Capability.id s.capabilities other.capabilities }
  if secondsOf s.timestamp < secondsOf other.timestamp then
    { u with leaderId := other.leaderId, cohortId := other.cohortId, timestamp := other.timestamp }
  else u

def memberCount (s : CellState) : Nat := s.members.length

def isMember (s : CellState) (nodeId : String) : Bool := s.members.any (· == nodeId)

def isLeader (s : CellState) (nodeId : String) : Bool := s.leaderId == some nodeId

variable (s : CellState)

theorem isMember_iff (nodeId : String) : s.isMember nodeId = true ↔ nodeId ∈ s.members := by
  simp [isMember]

theorem isLeader_iff (nodeId : String) : s.isLeader nodeId = true ↔ s.leaderId = some nodeId := by
  simp [isLeader]

/-! ## 2. What each guarded edit can do -/

theorem addMember_cases (nodeId : String) (now : Nat) :
    ((s.isFull = true ∨ nodeId ∈ s.members) ∧ s.addMember nodeId now = (s, false)) ∨
    (s.isFull = false ∧ nodeId ∉ s.members ∧ s.addMember nodeId now =
      ({ s with members := s.members ++ [nodeId], timestamp := stampOf now }, true)) := by
  unfold addMember
  by_cases hf : s.isFull = true
  · exact Or.inl ⟨Or.inl hf, by rw [if_pos hf]⟩
  · by_cases hm : s.members.contains nodeId = true
    · exact Or.inl ⟨Or.inr (by simpa using hm), by rw [if_neg hf, if_pos hm]⟩
    · refine Or.inr ⟨by simpa using hf, by simpa using hm, ?_⟩
      rw [if_neg hf, if_neg hm]
      rfl

theorem removeMember_cases (nodeId : String) (now : Nat) :
    (nodeId ∉ s.members ∧ s.removeMember nodeId now = (s, false)) ∨
    (nodeId ∈ s.members ∧ s.removeMember nodeId now =
      ({ s with members := s.members.erase nodeId, timestamp := stampOf now,
                leaderId := if s.leaderId = some nodeId then none else s.leaderId }, true)) := by
  unfold removeMember
  rcases idxOf?_cases s.members nodeId with ⟨hm, hpos⟩ | ⟨hm, pos, hpos, herase⟩ <;> rw [hpos]
  · exact Or.inl ⟨hm, rfl⟩
  · refine Or.inr ⟨hm, ?_⟩
    rw [← herase]
    by_cases hl : s.leaderId = some nodeId
    · simp [updateTimestamp, hl]
    · simp [updateTimestamp, hl]

theorem setLeader_cases (nodeId : String) (now : Nat) :
    (nodeId ∉ s.members ∧
      s.setLeader nodeId now = (s, .error "Leader must be a cell member")) ∨
    (nodeId ∈ s.members ∧ s.setLeader nodeId now =
      ({ s with leaderId := some nodeId, timestamp := stampOf now }, .ok ())) := by
  unfold setLeader
  by_cases hm : nodeId ∈ s.members
  · refine Or.inr ⟨hm, ?_⟩
    rw [if_neg (by simpa using hm)]
    rfl
  · refine Or.inl ⟨hm, ?_⟩
    rw [if_pos (by simpa using hm)]

theorem addCapability_cases (c : Capability) (now : Nat) :
    (c.id ∈ s.capabilities.map Capability.id ∧ s.addCapability c now = s) ∨
    (c.id ∉ s.capabilities.map Capability.id ∧ s.addCapability c now =
      { s with capabilities := s.capabilities ++ [c], timestamp := stampOf now }) := by
  unfold addCapability
  by_cases hc : c.id ∈ s.capabilities.map Capability.id
  · exact Or.inl ⟨hc, if_pos (any_key_iff.mpr hc)⟩
  · exact Or.inr ⟨hc, if_neg fun e => hc (any_key_iff.mp e)⟩

/-! ## 3. What the merge computes -/

structure Register where
  leaderId : Option String
  cohortId : Option String
  timestamp : Option Timestamp
  deriving DecidableEq, Repr

def register (s : CellState) : Register := ⟨s.leaderId, s.cohortId, s.timestamp⟩

def Register.seconds (r : Register) : Nat := secondsOf r.timestamp

@[simp] theorem config_merge (a b : CellState) : (a.merge b).config = a.config := by
  unfold merge
  dsimp only
  split <;> rfl

@[simp] theorem members_merge (a b : CellState) :
    (a.merge b).members = unionBy id a.members b.members := by
  unfold merge
  dsimp only
  split <;> rfl

@[simp] theorem capabilities_merge (a b : CellState) :
    (a.merge b).capabilities = unionBy Capability.id a.capabilities b.capabilities := by
  unfold merge
  dsimp only
  split <;> rfl

theorem register_merge (a b : CellState) :
    (a.merge b).register = newest Register.seconds a.register b.register := by
  by_cases h : secondsOf a.timestamp < secondsOf b.timestamp
  · rw [newest_of_lt (show a.register.seconds < b.register.seconds from h)]
    simp only [merge, if_pos h, register]
  · rw [newest_of_le (show b.register.seconds ≤ a.register.seconds from Nat.not_lt.mp h)]
    simp only [merge, if_neg h, register]

end CellState

/-! ## 4. Operations -/

inductive CellOp where
  | addMember (nodeId : String) (now : Nat)
  | removeMember (nodeId : String) (now : Nat)
  | setLeader (nodeId : String) (now : Nat)
  | clearLeader (now : Nat)
  | addCapability (capability : Capability) (now : Nat)
  | assignCohort (cohortId : String) (now : Nat)
  | leaveCohort (now : Nat)
  deriving DecidableEq, Repr

def CellState.act (s : CellState) : CellOp → CellState
  | .addMember nodeId now => (s.addMember nodeId now).1
  | .removeMember nodeId now => (s.removeMember nodeId now).1
  | .setLeader nodeId now => (s.setLeader nodeId now).1
  | .clearLeader now => s.clearLeader now
  | .addCapability capability now => s.addCapability capability now
  | .assignCohort cohortId now => s.assignCohort cohortId now
  | .leaveCohort now => s.leaveCohort now

namespace CellState

def Rejects (s : CellState) : CellOp → Prop
  | .addMember nodeId _ => s.isFull = true ∨ nodeId ∈ s.members
  | .removeMember nodeId _ => nodeId ∉ s.members
  | .setLeader nodeId _ => nodeId ∉ s.members
  | .addCapability c _ => c.id ∈ s.capabilities.map Capability.id
  | _ => False

/-- **What an operation can do**: nothing, or the one change its name says, with a new stamp. -/
inductive Effect (s : CellState) : CellOp → CellState → Prop where
  | rejected (op : CellOp) (h : s.Rejects op) : Effect s op s
  | addMember (nodeId : String) (now : Nat) (hf : s.isFull = false) (hm : nodeId ∉ s.members) :
      Effect s (.addMember nodeId now)
        { s with members := s.members ++ [nodeId], timestamp := stampOf now }
  | removeMember (nodeId : String) (now : Nat) (hm : nodeId ∈ s.members) :
      Effect s (.removeMember nodeId now)
        { s with members := s.members.erase nodeId, timestamp := stampOf now,
                 leaderId := if s.leaderId = some nodeId then none else s.leaderId }
  | setLeader (nodeId : String) (now : Nat) (hm : nodeId ∈ s.members) :
      Effect s (.setLeader nodeId now) { s with leaderId := some nodeId, timestamp := stampOf now }
  | clearLeader (now : Nat) :
      Effect s (.clearLeader now) { s with leaderId := none, timestamp := stampOf now }
  | addCapability (c : Capability) (now : Nat) (hc : c.id ∉ s.capabilities.map Capability.id) :
      Effect s (.addCapability c now)
        { s with capabilities := s.capabilities ++ [c], timestamp := stampOf now }
  | assignCohort (cohortId : String) (now : Nat) :
      Effect s (.assignCohort cohortId now)
        { s with cohortId := some cohortId, timestamp := stampOf now }
  | leaveCohort (now : Nat) :
      Effect s (.leaveCohort now) { s with cohortId := none, timestamp := stampOf now }

theorem effect_act (s : CellState) (op : CellOp) : Effect s op (s.act op) := by
  cases op with
  | addMember nodeId now =>
    show Effect s _ (s.addMember nodeId now).1
    rcases addMember_cases s nodeId now with ⟨hr, h⟩ | ⟨hf, hm, h⟩ <;> rw [h]
    · exact .rejected _ hr
    · exact .addMember nodeId now hf hm
  | removeMember nodeId now =>
    show Effect s _ (s.removeMember nodeId now).1
    rcases removeMember_cases s nodeId now with ⟨hm, h⟩ | ⟨hm, h⟩ <;> rw [h]
    · exact .rejected _ hm
    · exact .removeMember nodeId now hm
  | setLeader nodeId now =>
    show Effect s _ (s.setLeader nodeId now).1
    rcases setLeader_cases s nodeId now with ⟨hm, h⟩ | ⟨hm, h⟩ <;> rw [h]
    · exact .rejected _ hm
    · exact .setLeader nodeId now hm
  | clearLeader now => exact .clearLeader now
  | addCapability c now =>
    show Effect s _ (s.addCapability c now)
    rcases addCapability_cases s c now with ⟨hc, h⟩ | ⟨hc, h⟩ <;> rw [h]
    · exact .rejected _ hc
    · exact .addCapability c now hc
  | assignCohort cohortId now => exact .assignCohort cohortId now
  | leaveCohort now => exact .leaveCohort now

@[simp] theorem config_act (s : CellState) (op : CellOp) : (s.act op).config = s.config := by
  have h := effect_act s op
  generalize s.act op = s' at h
  cases h <;> rfl

end CellState

end Peat.Models
