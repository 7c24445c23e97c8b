/-
  THE COMMAND ROUTER (command/routing.rs): which nodes a command is for, seen from one
  node.
-/
import Peat.Command.Command

namespace Peat.Command

structure CommandRouter where
  nodeId : String
  cellId : Option String
  cellMembers : List String
  cohortId : Option String
  deriving DecidableEq, Repr

inductive TargetResolution where
  | self
  | subordinates (nodes : List String)
  | allCellMembers (nodes : List String)
  | notApplicable
  deriving DecidableEq, Repr

namespace CommandRouter

def resolveGroup (r : CommandRouter) : TargetResolution :=
  if r.cellMembers ≠ [] then .allCellMembers r.cellMembers else .self

def resolveTarget (r : CommandRouter) (cmd : HierarchicalCommand) : TargetResolution :=
  match cmd.target with
  | none => .notApplicable
  | some target =>
    match Scope.ofWire target.scope with
    | .individual =>
      if r.nodeId ∈ target.targetIds then .self
      else
        let subordinateTargets := r.cellMembers.filter fun m => m ∈ target.targetIds
        if subordinateTargets ≠ [] then .subordinates subordinateTargets else .notApplicable
    | .cell =>
      match r.cellId with
      | some myCell => if myCell ∈ target.targetIds then r.resolveGroup else .notApplicable
      | none => .notApplicable
    | .cohort =>
      match r.cohortId with
      | some myCohort => if myCohort ∈ target.targetIds then r.resolveGroup else .notApplicable
      | none => .notApplicable
    -- resolved by the coordinator of that tier, never here
    | .federation => .notApplicable
    | .coalition => .notApplicable
    | .broadcast => r.resolveGroup
    | .unspecified => .notApplicable

def shouldRoute : TargetResolution → Bool
  | .subordinates _ => true
  | .allCellMembers _ => true
  | _ => false

def getRoutingTargets : TargetResolution → List String
  | .subordinates nodes => nodes
  | .allCellMembers nodes => nodes
  | _ => []

/-- The command addresses the whole group of this node. -/
def Covers (r : CommandRouter) (cmd : HierarchicalCommand) : Prop :=
  (cmd.scope = .cell ∧ ∃ cell, r.cellId = some cell ∧ cell ∈ cmd.targetIds) ∨
  (cmd.scope = .cohort ∧ ∃ cohort, r.cohortId = some cohort ∧ cohort ∈ cmd.targetIds) ∨
  cmd.scope = .broadcast

/-- The command is for the node, by name or with its group. -/
def Addressed (r : CommandRouter) (cmd : HierarchicalCommand) (n : String) : Prop :=
  (cmd.scope = .individual ∧ n ∈ cmd.targetIds) ∨ r.Covers cmd

/-- The command is routed on: to listed members if this node is not listed itself, or to the members of
    a leader whose group is addressed. -/
def RoutesOn (r : CommandRouter) (cmd : HierarchicalCommand) : Prop :=
  (cmd.scope = .individual ∧ r.nodeId ∉ cmd.targetIds ∧ ∃ m ∈ r.cellMembers, m ∈ cmd.targetIds) ∨
  (r.Covers cmd ∧ r.cellMembers ≠ [])

section Resolution

variable {r : CommandRouter} {cmd : HierarchicalCommand}

theorem scope_covers_ne_individual (h : r.Covers cmd) : cmd.scope ≠ .individual := by
  rcases h with ⟨hs, _⟩ | ⟨hs, _⟩ | hs <;> rw [hs] <;> nofun

theorem resolveTarget_individual (hs : cmd.scope = .individual) : r.resolveTarget cmd =
    if r.nodeId ∈ cmd.targetIds then .self
    else if r.cellMembers.filter (fun m => m ∈ cmd.targetIds) ≠ [] then
      .subordinates (r.cellMembers.filter fun m => m ∈ cmd.targetIds)
    else .notApplicable := by
  unfold HierarchicalCommand.scope at hs
  unfold resolveTarget HierarchicalCommand.targetIds
  cases ht : cmd.target with
  | none =>
    rw [ht] at hs
    nomatch hs
  | some target =>
    rw [ht] at hs
    replace hs : Scope.ofWire target.scope = .individual := hs
    simp only [hs]
    rfl

theorem resolveTarget_group (h : r.Covers cmd) : r.resolveTarget cmd = r.resolveGroup := by
  unfold Covers HierarchicalCommand.scope HierarchicalCommand.targetIds at h
  unfold resolveTarget
  cases ht : cmd.target with
  | none =>
    rw [ht] at h
    rcases h with ⟨hs, _⟩ | ⟨hs, _⟩ | hs <;> nomatch hs
  | some target =>
    rw [ht] at h
    rcases h with ⟨hs, cell, hcell, hmem⟩ | ⟨hs, cohort, hcohort, hmem⟩ | hs <;>
      replace hs : Scope.ofWire target.scope = _ := hs <;> simp only [hs]
    · simp only [hcell]
      exact if_pos hmem
    · simp only [hcohort]
      exact if_pos hmem

theorem resolveTarget_other (hs : cmd.scope ≠ .individual) (h : ¬ r.Covers cmd) :
    r.resolveTarget cmd = .notApplicable := by
  unfold Covers HierarchicalCommand.targetIds at h
  unfold HierarchicalCommand.scope at h hs
  unfold resolveTarget
  cases ht : cmd.target with
  | none => rfl
  | some target =>
    rw [ht] at h hs
    replace hs : Scope.ofWire target.scope ≠ .individual := hs
    dsimp only [Option.map_some, Option.getD_some] at h ⊢
    cases hscope : Scope.ofWire target.scope with
    | individual => exact absurd hscope hs
    | cell =>
      cases hcell : r.cellId with
      | none => rfl
      | some cell => exact if_neg fun hmem => h (.inl ⟨hscope, cell, hcell, hmem⟩)
    | cohort =>
      cases hcohort : r.cohortId with
      | none => rfl
      | some cohort => exact if_neg fun hmem => h (.inr (.inl ⟨hscope, cohort, hcohort, hmem⟩))
    | broadcast => exact absurd (.inr (.inr hscope)) h
    | federation => rfl
    | coalition => rfl
    | unspecified => rfl

theorem shouldRoute_iff : shouldRoute (r.resolveTarget cmd) = true ↔ r.RoutesOn cmd := by
  unfold RoutesOn
  by_cases hs : cmd.scope = .individual
  · have hno : ¬ (r.Covers cmd ∧ r.cellMembers ≠ []) := fun h => scope_covers_ne_individual h.1 hs
    rw [resolveTarget_individual hs, or_iff_left hno, and_iff_right hs]
    by_cases hself : r.nodeId ∈ cmd.targetIds
    · rw [if_pos hself]
      exact iff_of_false Bool.false_ne_true fun h => h.1 hself
    · rw [if_neg hself, and_iff_right hself]
      by_cases hany : ∃ m ∈ r.cellMembers, m ∈ cmd.targetIds
      · rw [if_pos (by simpa using hany)]
        exact iff_of_true rfl hany
      · rw [if_neg (by simpa using hany)]
        exact iff_of_false Bool.false_ne_true hany
  · rw [or_iff_right fun h => hs h.1]
    by_cases hc : r.Covers cmd
    · rw [resolveTarget_group hc, resolveGroup, and_iff_right hc]
      by_cases hm : r.cellMembers = []
      · rw [if_neg fun h => h hm]
        exact iff_of_false Bool.false_ne_true fun h => h hm
      · rw [if_pos hm]
        exact iff_of_true rfl hm
    · rw [resolveTarget_other hs hc]
      exact iff_of_false Bool.false_ne_true fun h => hc h.1

theorem routingTargets_of_no_ids (hids : cmd.targetIds = []) (h : r.RoutesOn cmd) :
    getRoutingTargets (r.resolveTarget cmd) = r.cellMembers ∧ r.cellMembers ≠ [] := by
  rcases h with ⟨_, _, m, _, hm⟩ | ⟨hc, hne⟩
  · rw [hids] at hm
    nomatch hm
  · rw [resolveTarget_group hc, resolveGroup, if_pos hne]
    exact ⟨rfl, hne⟩

end Resolution

end CommandRouter

end Peat.Command
