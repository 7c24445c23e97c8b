/-
  COMMANDS IN THE GENERIC POLICY ENGINE (command/policy_impl.rs), next to the resolver
  of their own.

  The resolver reads a priority as an enum, with numbers that are not in it as ROUTINE; the
  generic engine compares the numbers.
-/
import Peat.Command.ConflictResolver
import Peat.Policy.Policies

namespace Peat.Command

open Peat.Lib Peat.Policy

instance : Conflictable HierarchicalCommand where
  id cmd := cmd.commandId
  conflictKeys cmd := cmd.targetIds
  timestamp cmd := cmd.issuedAt.map (·.seconds)
  attributes cmd :=
    (((((AList.insert "priority" (AttributeValue.int cmd.priority) ∅).insert
      "originator_id" (.string cmd.originatorId)).insert
      "authority_level" (.int (deriveAuthorityLevel cmd.originatorId))).insert
      "conflict_policy" (.int cmd.conflictPolicy)).insert
      "acknowledgment_policy" (.int cmd.acknowledgmentPolicy)).insert
      "version" (.uint cmd.version)

theorem attr_priority (cmd : HierarchicalCommand) : attr "priority" cmd = some (.int cmd.priority) := rfl

theorem attr_authority (cmd : HierarchicalCommand) :
    attr "authority_level" cmd = some (.int cmd.authorityLevel) := rfl

namespace ConflictResolver

/-- **The two engines agree**: they select the same command under the policies that both have, and
    refuse a conflict alike. -/
structure EnginesAgree (commands : List HierarchicalCommand) : Prop where
  lastWrite : resolve commands .lastWriteWins = lastWriteWinsPolicy.resolve commands
  priority : resolve commands .highestPriorityWins =
    (highestAttributeWinsPolicy "priority").resolve commands
  authority : resolve commands .highestAuthorityWins =
    (highestAttributeWinsPolicy "authority_level").resolve commands
  reject : (∃ e, resolve commands .rejectConflict = .error e) ↔
    ∃ e, rejectConflictPolicy.resolve commands = .error e

abbrev Raised (cmd : HierarchicalCommand) : Prop := 2 ≤ cmd.priority ∧ cmd.priority ≤ 4

/-- **The priorities rank alike**: next to a raised one there is no larger number; and if none is
    raised, the first number that is not 0 is the largest. -/
structure RankedAlike (commands : List HierarchicalCommand) : Prop where
  raised : (∃ cmd ∈ commands, Raised cmd) → ∀ cmd ∈ commands, cmd.priority ≤ 4
  others : (∀ cmd ∈ commands, ¬ Raised cmd) →
    ∀ first, commands.find? (fun cmd => cmd.priority ≠ 0) = some first →
      ∀ cmd ∈ commands, cmd.priority ≤ first.priority

variable {commands : List HierarchicalCommand} {x : HierarchicalCommand}

theorem highestAttribute_eq_ok_iff {name : String} {value : HierarchicalCommand → Int}
    (h : ∀ cmd, attr name cmd = some (.int (value cmd))) :
    (highestAttributeWinsPolicy name).resolve commands = .ok x ↔ FirstMax value commands x := by
  have horder : (fun a b => highestFirst (attr name a) (attr name b)) =
      fun a b : HierarchicalCommand => cmp (value b) (value a) := by
    funext a b
    rw [h, h]
    rfl
  rw [highestAttributeWinsPolicy, horder]
  exact resolveSorted_cmp_eq_ok_iff value

theorem priorityRank_cases (cmd : HierarchicalCommand) :
    cmd.priority = 0 ∧ cmd.priorityRank = 0 ∨
      Raised cmd ∧ (cmd.priorityRank : Int) = cmd.priority ∨
      cmd.priority ≠ 0 ∧ ¬ Raised cmd ∧ cmd.priorityRank = 1 := by
  unfold HierarchicalCommand.priorityRank CommandPriority.ofWire
  split
  all_goals
    simp_all [CommandPriority.toI32]
    try omega

theorem FirstMax.raised (h : FirstMax HierarchicalCommand.priorityRank commands x)
    (hraised : ∃ cmd ∈ commands, Raised cmd) :
    Raised x ∧ (x.priorityRank : Int) = x.priority := by
  obtain ⟨cmd, hmem, hcmd⟩ := hraised
  have hle := h.le hmem
  have hrank := priorityRank_cases cmd
  have hwinner := priorityRank_cases x
  omega

theorem find?_eq_of_firstMax (h : FirstMax HierarchicalCommand.priorityRank commands x)
    (hnone : ∀ cmd ∈ commands, ¬ Raised cmd) (hx : x.priority ≠ 0) :
    commands.find? (fun cmd => cmd.priority ≠ 0) = some x := by
  have hwinner := priorityRank_cases x
  have hnot := hnone x h.mem
  obtain ⟨pre, post, hsplit, hpre, _⟩ := h
  refine List.find?_eq_some_iff_append.mpr ⟨decide_eq_true hx, pre, post, hsplit, fun cmd hmem => ?_⟩
  have hlt := hpre cmd hmem
  have hcmd := priorityRank_cases cmd
  have hzero : cmd.priority = 0 := by omega
  simp [hzero]

theorem firstMax_priority_iff (h : FirstMax HierarchicalCommand.priorityRank commands x) :
    FirstMax HierarchicalCommand.priority commands x ↔ RankedAlike commands := by
  constructor
  · intro hnumber
    refine ⟨fun hraised cmd hmem => ?_, fun hnone first hfirst cmd hmem => ?_⟩
    · exact (hnumber.le hmem).trans (FirstMax.raised h hraised).1.2
    · have hx : x.priority ≠ 0 := by
        have hmem' := List.mem_of_find?_eq_some hfirst
        have hfirst' := List.find?_some hfirst
        have hle := h.le hmem'
        have hrank := priorityRank_cases first
        have hwinner := priorityRank_cases x
        have hnot := hnone first hmem'
        simp only [decide_eq_true_eq] at hfirst'
        omega
      rw [find?_eq_of_firstMax h hnone hx] at hfirst
      cases hfirst
      exact hnumber.le hmem
  · intro halike
    have hwinner := priorityRank_cases x
    by_cases hraised : ∃ cmd ∈ commands, Raised cmd
    · -- below 5 the ranks and the numbers above 1 are the same
      obtain ⟨hx, hrank⟩ := FirstMax.raised h hraised
      refine h.congr (fun cmd hmem hlt => ?_) fun cmd hmem hle => ?_
      all_goals
        have hfour := halike.raised hraised cmd hmem
        have hcases := priorityRank_cases cmd
        omega
    · have hnone : ∀ cmd ∈ commands, ¬ Raised cmd := fun cmd hmem hr => hraised ⟨cmd, hmem, hr⟩
      have hnot := hnone x h.mem
      have hlargest : ∀ cmd ∈ commands, cmd.priority ≤ x.priority := by
        intro cmd hmem
        by_cases hx : x.priority = 0
        · have hle := h.le hmem
          have hcases := priorityRank_cases cmd
          omega
        · exact halike.others hnone x (find?_eq_of_firstMax h hnone hx) cmd hmem
      refine h.congr (fun cmd hmem hlt => ?_) fun cmd hmem _ => hlargest cmd hmem
      have hle := hlargest cmd hmem
      have hcases := priorityRank_cases cmd
      omega

theorem lastWrite_agrees (hne : commands ≠ []) :
    resolve commands .lastWriteWins = lastWriteWinsPolicy.resolve commands := by
  obtain ⟨x, hx⟩ := exists_firstMax HierarchicalCommand.issuedSeconds hne
  rw [(resolve_eq_ok_iff rfl).mpr hx]
  exact ((resolveSorted_cmp_eq_ok_iff HierarchicalCommand.issuedSeconds).mpr hx).symm

theorem authority_agrees (hne : commands ≠ []) : resolve commands .highestAuthorityWins =
    (highestAttributeWinsPolicy "authority_level").resolve commands := by
  obtain ⟨x, hx⟩ := exists_firstMax HierarchicalCommand.authorityLevel hne
  have hint : FirstMax (fun cmd => (cmd.authorityLevel : Int)) commands x :=
    hx.congr (fun _ _ => Int.ofNat_lt.mpr) fun _ _ => Int.ofNat_le.mpr
  rw [(resolve_eq_ok_iff rfl).mpr hx, (highestAttribute_eq_ok_iff attr_authority).mpr hint]

theorem reject_agrees (commands : List HierarchicalCommand) :
    (∃ e, resolve commands .rejectConflict = .error e) ↔
      ∃ e, rejectConflictPolicy.resolve commands = .error e := by
  match commands with
  | [] => exact iff_of_true ⟨_, rfl⟩ ⟨_, rfl⟩
  | [cmd] => exact iff_of_false (fun ⟨_, h⟩ => by cases h) fun ⟨_, h⟩ => by cases h
  | first :: second :: rest => exact iff_of_true ⟨_, rfl⟩ ⟨_, rfl⟩

/-- **The two engines agree** on a conflict exactly when its priorities rank alike. -/
theorem enginesAgree_iff (first : HierarchicalCommand) (rest : List HierarchicalCommand) :
    EnginesAgree (first :: rest) ↔ RankedAlike (first :: rest) := by
  have hne : first :: rest ≠ [] := List.cons_ne_nil first rest
  obtain ⟨x, hx⟩ := exists_firstMax HierarchicalCommand.priorityRank hne
  have hresolve : resolve (first :: rest) .highestPriorityWins = .ok x := (resolve_eq_ok_iff rfl).mpr hx
  rw [← firstMax_priority_iff hx, ← highestAttribute_eq_ok_iff attr_priority]
  constructor
  · intro h
    rw [← h.priority, hresolve]
  · intro h
    exact ⟨lastWrite_agrees hne, hresolve.trans h.symm, authority_agrees hne, reject_agrees _⟩

/-- **A number beyond the enum**: the resolver takes the FLASH command, the generic engine the one
    with priority 7. -/
theorem unknown_priority_disagrees :
    let flash := { issuedAtSecond "flash" 100 with priority := 4 }
    let unknown := { issuedAtSecond "unknown" 100 with priority := 7 }
    resolve [flash, unknown] .highestPriorityWins = .ok flash ∧
      (highestAttributeWinsPolicy "priority").resolve [flash, unknown] = .ok unknown ∧
      ¬ EnginesAgree [flash, unknown] := by
  intro flash unknown
  have hresolve : resolve [flash, unknown] .highestPriorityWins = .ok flash := by decide
  have hgeneric : (highestAttributeWinsPolicy "priority").resolve [flash, unknown] = .ok unknown := by
    decide
  refine ⟨hresolve, hgeneric, fun h => ?_⟩
  have hsame := h.priority
  rw [hresolve, hgeneric] at hsame
  exact absurd (Except.ok.inj hsame) (by decide)

end ConflictResolver

end Peat.Command
