/-
  RUNS OF CELL REPLICAS: what holds of every state a cell can reach, and what becomes of
  a removed member.
-/
import Peat.Lib.Replicas
import Peat.Models.Cell

namespace Peat.Models

open Peat.Lib

namespace CellState

/-! ## 1. The invariant of a cell -/

/-- No member and no capability twice, and the leader is a member. -/
structure Wf (s : CellState) : Prop where
  members_nodup : s.members.Nodup
  leader_member : ∀ l, s.leaderId = some l → l ∈ s.members
  capability_ids_nodup : (s.capabilities.map Capability.id).Nodup

theorem wf_new (config : CellConfig) (now : Nat) : (new config now).Wf :=
  ⟨List.nodup_nil, fun _ h => (nomatch h), List.nodup_nil⟩

theorem wf_act {s : CellState} (hs : s.Wf) (op : CellOp) : (s.act op).Wf := by
  obtain ⟨hmem, hlead, hcap⟩ := hs
  have h := effect_act s op
  generalize s.act op = s' at h
  cases h with
  | addMember nodeId now _ hm =>
    refine ⟨?_, fun l hl => List.mem_append_left _ (hlead l hl), hcap⟩
    show (s.members ++ [nodeId]).Nodup
    rw [← List.concat_eq_append]
    exact hmem.concat hm
  | removeMember nodeId now _ =>
    refine ⟨hmem.erase nodeId, fun l hl => ?_, hcap⟩
    by_cases hn : s.leaderId = some nodeId
    · simp [hn] at hl
    · simp only [if_neg hn] at hl
      have hne : l ≠ nodeId := fun e => hn (e ▸ hl)
      exact (List.mem_erase_of_ne hne).mpr (hlead l hl)
  | setLeader nodeId now hm => exact ⟨hmem, fun l hl => Option.some.inj hl ▸ hm, hcap⟩
  | clearLeader now => exact ⟨hmem, fun l hl => (nomatch hl), hcap⟩
  | addCapability c now hc =>
    refine ⟨hmem, hlead, ?_⟩
    have hpush := nodup_pushNew (x := c) hcap
    rwa [pushNew_of_not_mem hc] at hpush
  | rejected op _ => exact ⟨hmem, hlead, hcap⟩
  | assignCohort cohortId now => exact ⟨hmem, hlead, hcap⟩
  | leaveCohort now => exact ⟨hmem, hlead, hcap⟩

theorem leaderId_merge (a b : CellState) :
    (a.merge b).leaderId = a.leaderId ∨ (a.merge b).leaderId = b.leaderId := by
  have hreg := register_merge a b
  rcases newest_choice Register.seconds a.register b.register with h | h
  · exact Or.inl (congrArg Register.leaderId (hreg.trans h))
  · exact Or.inr (congrArg Register.leaderId (hreg.trans h))

theorem wf_merge {a b : CellState} (ha : a.Wf) (hb : b.Wf) : (a.merge b).Wf := by
  refine ⟨?_, fun l hl => ?_, ?_⟩
  · rw [members_merge]
    exact nodup_unionBy_id ha.members_nodup
  · rw [members_merge, mem_unionBy_id]
    rcases leaderId_merge a b with h | h
    · exact Or.inl (ha.leader_member l (h ▸ hl))
    · exact Or.inr (hb.leader_member l (h ▸ hl))
  · rw [capabilities_merge]
    exact nodup_unionBy ha.capability_ids_nodup

end CellState

def cellMachine (config : CellConfig) : Machine Nat CellOp CellState :=
  ⟨CellState.new config, CellState.act, CellState.merge⟩

/-- **Every replica of a cell is well formed, after every run.** -/
theorem cell_reachable_wf {ι : Type*} [DecidableEq ι] (config : CellConfig)
    (ops : List (SysOp ι Nat CellOp)) :
    Machine.AllHold CellState.Wf ((cellMachine config).sysRun ops) :=
  Machine.sys_invariant (M := cellMachine config) (CellState.wf_new config)
    (fun _ op hs => CellState.wf_act hs op) (fun _ _ => CellState.wf_merge) ops

/-- Two replicas elect a leader each and exchange states: the survivor leads a cell it is in. -/
theorem cell_reachable_wf_two_leaders :
    let ops : List (SysOp Bool Nat CellOp) :=
      [.create false 10, .act false (.addMember "node_1" 11), .act false (.setLeader "node_1" 12),
       .create true 10, .act true (.addMember "node_2" 11), .act true (.setLeader "node_2" 13),
       .merge false true]
    ∃ s, (cellMachine (CellConfig.withId "cell_1" 5 10)).sysRun ops false = some s ∧ s.Wf ∧
      s.leaderId = some "node_2" := by
  intro ops
  have hlead : ((cellMachine (CellConfig.withId "cell_1" 5 10)).sysRun ops false).map
      CellState.leaderId = some (some "node_2") := by decide
  obtain ⟨s, hs, hl⟩ := Option.map_eq_some_iff.mp hlead
  exact ⟨s, hs, cell_reachable_wf _ ops false s hs, hl⟩

/-! ## 2. A removed member -/

/-- A well-formed cell. -/
structure Cell where
  state : CellState
  wf : state.Wf

inductive CellStep where
  | edit (op : CellOp)
  | merge (other : Cell)

namespace Cell

def step (c : Cell) : CellStep → Cell
  | .edit op => ⟨c.state.act op, CellState.wf_act c.wf op⟩
  | .merge other => ⟨c.state.merge other.state, CellState.wf_merge c.wf other.wf⟩

def merge (c d : Cell) : Cell := c.step (.merge d)

/-- The node is a member, as the cell says. -/
def HasMember (c : Cell) (m : String) : Prop := c.state.isMember m = true

instance (c : Cell) (m : String) : Decidable (c.HasMember m) :=
  inferInstanceAs (Decidable (c.state.isMember m = true))

variable {c : Cell} {m : String}

theorem hasMember_iff : c.HasMember m ↔ m ∈ c.state.members :=
  CellState.isMember_iff c.state m

theorem hasMember_merge {d : Cell} : (c.merge d).HasMember m ↔ c.HasMember m ∨ d.HasMember m := by
  rw [hasMember_iff, hasMember_iff, hasMember_iff]
  show m ∈ (c.state.merge d.state).members ↔ _
  rw [CellState.members_merge, mem_unionBy_id]

/-- Neither a member nor the leader. -/
def Gone (c : Cell) (m : String) : Prop := ¬ c.HasMember m ∧ ¬ c.state.isLeader m = true

theorem gone_iff : c.Gone m ↔ ¬ c.HasMember m := by
  refine ⟨And.left, fun h => ⟨h, fun hl => h (hasMember_iff.mpr ?_)⟩⟩
  exact c.wf.leader_member m ((CellState.isLeader_iff c.state m).mp hl)

/-- The operation does not bring the node in. -/
def NotAdding (m : String) (c : Cell) (op : CellStep) : Prop :=
  ¬ c.HasMember m → ¬ (c.step op).HasMember m

instance (m : String) (c : Cell) (op : CellStep) : Decidable (NotAdding m c op) :=
  inferInstanceAs (Decidable (¬ _ → ¬ _))

end Cell

/-- The operation asks to remove the node. -/
def CellStep.Removes (m : String) : CellStep → Prop
  | .edit (.removeMember nodeId _) => nodeId = m
  | _ => False

namespace Cell

variable {m : String}

theorem not_hasMember_of_removes {op : CellStep} (hop : op.Removes m) (c : Cell) :
    ¬ (c.step op).HasMember m := by
  match op, hop with
  | .edit (.removeMember nodeId now), hop =>
    obtain rfl : nodeId = m := hop
    rw [hasMember_iff]
    show nodeId ∉ (c.state.act (.removeMember nodeId now)).members
    have h := CellState.effect_act c.state (.removeMember nodeId now)
    generalize c.state.act (.removeMember nodeId now) = s' at h
    cases h with
    | rejected _ hm => exact hm
    | removeMember _ _ hm => exact c.wf.members_nodup.not_mem_erase

theorem hasMember_step {op : CellStep} {c : Cell} (hm : c.HasMember m) (hop : ¬ op.Removes m) :
    (c.step op).HasMember m := by
  cases op with
  | merge other => exact hasMember_merge.mpr (Or.inl hm)
  | edit op =>
    rw [hasMember_iff] at hm ⊢
    show m ∈ (c.state.act op).members
    have h := CellState.effect_act c.state op
    generalize c.state.act op = s' at h
    cases h with
    | addMember nodeId now _ _ => exact List.mem_append_left _ hm
    | removeMember nodeId now _ =>
      have hne : m ≠ nodeId := fun e => hop e.symm
      exact (List.mem_erase_of_ne hne).mpr hm
    | _ => exact hm

theorem hasMember_run {ops : List CellStep} {c : Cell} (hadd : RunMeets step (NotAdding m) c ops) :
    (run step c ops).HasMember m ↔ c.HasMember m ∧ ∀ op ∈ ops, ¬ op.Removes m := by
  induction ops generalizing c with
  | nil => simp
  | cons op ops ih =>
    obtain ⟨hop, hrest⟩ := hadd
    rw [run_cons, ih hrest, List.forall_mem_cons, ← and_assoc]
    refine and_congr_left fun _ => ⟨fun h => ?_, fun h => hasMember_step h.1 h.2⟩
    refine ⟨Classical.byContradiction fun hno => hop hno h, fun hrem => ?_⟩
    exact not_hasMember_of_removes hrem c h

/-- **What a removal leaves behind**: A removes `m`, and B does not add it. After merging `m` is gone on
    both sides if and only if B removed it, too. -/
theorem removal_survives_iff (c : Cell) (m : String) (hm : c.HasMember m) (now : Nat)
    (opsB : List CellStep) (hB : RunMeets step (NotAdding m) c opsB) :
    let a := c.step (.edit (.removeMember m now))
    let b := run step c opsB
    ((a.merge b).Gone m ∧ (b.merge a).Gone m) ↔ ∃ op ∈ opsB, op.Removes m := by
  intro a b
  have hrem : (CellStep.edit (.removeMember m now)).Removes m := rfl
  have ha : ¬ a.HasMember m := not_hasMember_of_removes hrem c
  have hb : b.HasMember m ↔ ∀ op ∈ opsB, ¬ op.Removes m := by
    rw [hasMember_run hB]
    exact and_iff_right hm
  have hab : ((a.merge b).Gone m ∧ (b.merge a).Gone m) ↔ ¬ b.HasMember m := by
    rw [gone_iff, gone_iff, hasMember_merge, hasMember_merge]
    exact ⟨fun h e => h.1 (Or.inr e), fun h => ⟨fun e => e.elim ha h, fun e => e.elim h ha⟩⟩
  rw [hab, hb]
  simp only [not_forall, not_not, exists_prop]

def ledByNodeOne : Cell :=
  run step ⟨CellState.new (CellConfig.withId "cell_1" 5 10) 10, CellState.wf_new _ _⟩
    [.edit (.addMember "node_1" 10), .edit (.addMember "node_2" 10), .edit (.setLeader "node_1" 10)]

/-- Both replicas remove the member: it stays away. -/
theorem removal_survives_both :
    let a := ledByNodeOne.step (.edit (.removeMember "node_1" 20))
    let b := run step ledByNodeOne [.edit (.removeMember "node_1" 21)]
    (a.merge b).Gone "node_1" ∧ (b.merge a).Gone "node_1" :=
  (removal_survives_iff ledByNodeOne "node_1" (by decide) 20 [.edit (.removeMember "node_1" 21)]
    (by decide)).mpr ⟨_, List.mem_singleton_self _, rfl⟩

/-- B registers a capability later: on both replicas the removed node is a member again, and the leader. -/
theorem removal_undone :
    let camera := Capability.new "cap_1" "Camera" .sensor 1
    let a := ledByNodeOne.step (.edit (.removeMember "node_1" 20))
    let b := ledByNodeOne.step (.edit (.addCapability camera 30))
    (¬ a.HasMember "node_1") ∧
      ((a.merge b).HasMember "node_1" ∧ (a.merge b).state.isLeader "node_1" = true) ∧
      ((b.merge a).HasMember "node_1" ∧ (b.merge a).state.isLeader "node_1" = true) := by
  decide

end Cell

end Peat.Models
