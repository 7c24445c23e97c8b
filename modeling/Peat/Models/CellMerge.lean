/-
  IS `CellState::merge` A JOIN, and are leader and cohort last-writer-wins registers?

  States are compared by the abstract cell (`CellView`): the set of members, the set of
  capability ids, and the register (leader, cohort, timestamp). `view_merge` says that
  the merge of the code refines its join.
-/
import Peat.Lib.JoinOn
import Peat.Lib.Run
import Peat.Models.Cell

namespace Peat.Models

open Peat.Lib

/-! ## 1. The abstract cell -/

structure CellView where
  members : Finset String
  capabilityIds : Finset String
  register : CellState.Register
  deriving DecidableEq

def CellView.join (v w : CellView) : CellView :=
  ⟨v.members ∪ w.members, v.capabilityIds ∪ w.capabilityIds,
    newest CellState.Register.seconds v.register w.register⟩

theorem CellView.join_assoc (u v w : CellView) : (u.join v).join w = u.join (v.join w) := by
  simp only [join, Finset.union_assoc, newest_assoc]

theorem CellView.join_self (v : CellView) : v.join v = v := by
  simp only [join, Finset.union_self, newest_self]

namespace CellState

def view (s : CellState) : CellView :=
  ⟨s.members.toFinset, (s.capabilities.map Capability.id).toFinset, s.register⟩

/-- The same members, capabilities, registers and timestamp. -/
def SameCell (a b : CellState) : Prop :=
  (∀ m, m ∈ a.members ↔ m ∈ b.members) ∧
    (∀ i, i ∈ a.capabilities.map Capability.id ↔ i ∈ b.capabilities.map Capability.id) ∧
    a.leaderId = b.leaderId ∧ a.cohortId = b.cohortId ∧ a.timestamp = b.timestamp

theorem view_eq_iff (a b : CellState) : a.view = b.view ↔ SameCell a b := by
  simp only [view, CellView.mk.injEq, Finset.ext_iff, List.mem_toFinset, register,
    Register.mk.injEq, SameCell]

theorem view_merge (a b : CellState) : (a.merge b).view = a.view.join b.view := by
  have hm : (unionBy id a.members b.members).toFinset = a.members.toFinset ∪ b.members.toFinset := by
    ext m
    simp only [List.mem_toFinset, Finset.mem_union, mem_unionBy_id]
  have hc : ((unionBy Capability.id a.capabilities b.capabilities).map Capability.id).toFinset =
      (a.capabilities.map Capability.id).toFinset ∪ (b.capabilities.map Capability.id).toFinset := by
    ext i
    simp only [List.mem_toFinset, Finset.mem_union, mem_keys_unionBy]
  rw [view, members_merge, capabilities_merge, register_merge, hm, hc]
  rfl

/-! ## 2. Commutative, associative, idempotent, convergent -/

/-- Equal times come with equal registers. -/
def NoRegisterTie (a b : CellState) : Prop :=
  secondsOf a.timestamp = secondsOf b.timestamp →
    a.leaderId = b.leaderId ∧ a.cohortId = b.cohortId ∧ a.timestamp = b.timestamp

theorem merge_comm_iff (a b : CellState) :
    SameCell (a.merge b) (b.merge a) ↔ NoRegisterTie a b := by
  have hreg : NoRegisterTie a b ↔ (a.register.seconds = b.register.seconds →
      id a.register = id b.register) := by
    simp only [NoRegisterTie, register, Register.seconds, id, Register.mk.injEq]
  rw [← view_eq_iff, view_merge, view_merge, hreg, ← newest_comm_iff]
  simp only [CellView.join, CellView.mk.injEq, id, view]
  exact ⟨fun h => h.2.2, fun h => ⟨Finset.union_comm _ _, Finset.union_comm _ _, h⟩⟩

/-- **`CellState::merge` is a join on a collection of states if and only if, in it, equal seconds
    come with equal leader, cohort and timestamp.** -/
theorem cellMergeIsJoin_iff (S : List CellState) :
    IsJoinOn merge SameCell S ↔ ∀ a ∈ S, ∀ b ∈ S, NoRegisterTie a b := by
  rw [isJoinOn_iff view CellView.join view_merge CellView.join_assoc CellView.join_self SameCell
    (fun a b => (view_eq_iff a b).mp) (fun a b => (view_eq_iff _ _).mpr)]
  simp only [merge_comm_iff]

/-- Two replicas of one cell elect different leaders in one second: after merging, each keeps its
    own leader. -/
theorem cellMerge_tie_diverges :
    let s := run act (new (CellConfig.withId "cell_1" 5 10) 10)
      [.addMember "node_1" 10, .addMember "node_2" 10]
    let a := s.act (.setLeader "node_1" 11)
    let b := s.act (.setLeader "node_2" 11)
    (a.merge b).leaderId = some "node_1" ∧ (b.merge a).leaderId = some "node_2" ∧
      ¬ IsJoinOn merge SameCell [a, b] := by
  intro s a b
  have ha : (a.merge b).leaderId = some "node_1" := by decide
  have hb : (b.merge a).leaderId = some "node_2" := by decide
  refine ⟨ha, hb, fun h => ?_⟩
  have hl := (h.comm a (by simp) b (by simp)).2.2.1
  rw [ha, hb] at hl
  exact absurd hl (by decide)

end CellState

/-! ## 3. The registers, and the edits that do not write them -/

/-- `add_member`, `remove_member` and `add_capability`: edits that are not register writes. -/
def CellOp.IsMembershipEdit : CellOp → Prop
  | .addMember _ _ => True
  | .removeMember _ _ => True
  | .addCapability _ _ => True
  | _ => False

instance (op : CellOp) : Decidable op.IsMembershipEdit := by
  cases op <;> unfold CellOp.IsMembershipEdit <;> infer_instance

namespace CellState

/-- Merged in either order, the first cell's leader stays. -/
def BothHoldLeader (a b : CellState) : Prop :=
  (a.merge b).leaderId = a.leaderId ∧ (b.merge a).leaderId = a.leaderId

/-- Merged in either order, the first cell's cohort stays. -/
def BothHoldCohort (a b : CellState) : Prop :=
  (a.merge b).cohortId = a.cohortId ∧ (b.merge a).cohortId = a.cohortId

theorem both_hold_iff {γ : Type} (f : Register → γ) (a b : CellState) :
    (f (a.merge b).register = f a.register ∧ f (b.merge a).register = f a.register) ↔
      secondsOf b.timestamp < secondsOf a.timestamp ∨ f a.register = f b.register := by
  rw [register_merge, register_merge, both_newest_iff fun r => f r = f a.register]
  show (secondsOf a.timestamp ≤ secondsOf b.timestamp → _) ∧ _ ↔ _
  constructor
  · intro h
    by_cases hle : secondsOf a.timestamp ≤ secondsOf b.timestamp
    · exact Or.inr (h.1 hle).symm
    · exact Or.inl (Nat.not_le.mp hle)
  · intro h
    refine ⟨fun hle => ?_, fun _ => rfl⟩
    exact (h.resolve_left (Nat.not_lt.mpr hle)).symm

theorem membershipEdit_cohort {op : CellOp} (hop : op.IsMembershipEdit) (s : CellState) :
    (s.act op).cohortId = s.cohortId := by
  have h := effect_act s op
  generalize s.act op = s' at h
  cases h with
  | assignCohort cohortId now => cases hop
  | leaveCohort now => cases hop
  | _ => rfl

theorem membershipRun_cohort (ops : List CellOp) (hops : ∀ op ∈ ops, op.IsMembershipEdit)
    (s : CellState) : (run act s ops).cohortId = s.cohortId := by
  induction ops generalizing s with
  | nil => rfl
  | cons op ops ih =>
    have hhead := membershipEdit_cohort (hops op List.mem_cons_self) s
    exact (ih (fun o ho => hops o (List.mem_cons_of_mem _ ho)) (s.act op)).trans hhead

/-- **Leader and cohort against membership edits**: both replicas hold A's leader after merging if and only
    if B's stamp is older in seconds than A's or B holds that leader anyway; likewise the cohort. -/
theorem registers_lww_iff (s : CellState) (opsA opsB : List CellOp)
    (hB : ∀ op ∈ opsB, op.IsMembershipEdit) :
    (BothHoldLeader (run act s opsA) (run act s opsB) ↔
      secondsOf (run act s opsB).timestamp < secondsOf (run act s opsA).timestamp ∨
        (run act s opsA).leaderId = (run act s opsB).leaderId) ∧
    (BothHoldCohort (run act s opsA) (run act s opsB) ↔
      secondsOf (run act s opsB).timestamp < secondsOf (run act s opsA).timestamp ∨
        (run act s opsA).cohortId = s.cohortId) := by
  refine ⟨both_hold_iff Register.leaderId (run act s opsA) (run act s opsB), ?_⟩
  rw [← membershipRun_cohort opsB hB s]
  exact both_hold_iff Register.cohortId (run act s opsA) (run act s opsB)

/-- With the register writes of A one second after the last edit of B, they reach both replicas. -/
theorem registers_lww_later_write :
    let s := run act (new (CellConfig.withId "cell_1" 5 10) 10) [.addMember "node_1" 10]
    let a := run act s [.setLeader "node_1" 12, .assignCohort "cohort_1" 12]
    let b := run act s [.addMember "node_2" 11]
    (BothHoldLeader a b ∧ a.leaderId = some "node_1") ∧
      (BothHoldCohort a b ∧ a.cohortId = some "cohort_1") := by
  intro s a b
  obtain ⟨hl, hc⟩ := registers_lww_iff s [.setLeader "node_1" 12, .assignCohort "cohort_1" 12]
    [.addMember "node_2" 11] (by decide)
  exact ⟨⟨hl.mpr (Or.inl (by decide)), by decide⟩, hc.mpr (Or.inl (by decide)), by decide⟩

/-- A member added at B one second later takes both registers away from both replicas. -/
theorem registers_lost_to_addMember :
    let s := run act (new (CellConfig.withId "cell_1" 5 10) 10) [.addMember "node_1" 10]
    let a := run act s [.setLeader "node_1" 11, .assignCohort "cohort_1" 11]
    let b := run act s [.addMember "node_2" 12]
    a.leaderId = some "node_1" ∧ (a.merge b).leaderId = none ∧ (b.merge a).leaderId = none ∧
      a.cohortId = some "cohort_1" ∧ (a.merge b).cohortId = none ∧ (b.merge a).cohortId = none := by
  decide

end CellState

end Peat.Models
