/-
  CONCURRENT CALLS of `issue_command` on one coordinator, interleaved where the source
  awaits.

  A call is suspended before each of its steps (`Stage`); a schedule starts and resumes
  calls in any order. A call that panics ends and leaves the stores to the others.
-/
import Peat.Lib.Run
import Peat.Command.Coordinator

namespace Peat.Command

open Peat.Lib

/-! ## 1. Calls and schedules -/

/-- The await at which a call is suspended, or how it ended. -/
inductive Stage where
  | check
  | registerExpiration
  | registerCommand
  | storeActive
  | createStatus
  | setupAckTimeout
  | routeCommand
  | refused (error : Error)
  | panicked
  | finished (result : Except Error Unit)

def Stage.rank : Stage → Nat
  | .check => 0 | .registerExpiration => 1 | .registerCommand => 2 | .storeActive => 3
  | .createStatus => 4 | .setupAckTimeout => 5 | .routeCommand => 6 | .refused _ => 0
  | .panicked => 1 | .finished _ => 7

/-- How a call that has ended did so, in the words of `issueCommand`. -/
def Stage.result : Stage → Option (Option (Except Error Unit))
  | .refused e => some (some (.error e))
  | .panicked => some none
  | .finished result => some (some result)
  | _ => none

structure Call where
  command : HierarchicalCommand
  input : IssueInput
  stage : Stage

def CommandCoordinator.advance (c : CommandCoordinator) (call : Call) : CommandCoordinator × Stage :=
  match call.stage with
  | .check =>
    match c.checkConflicts call.command with
    | .error e => (c, .refused e)
    | .ok () => (c, .registerExpiration)
  | .registerExpiration =>
    match c.registerExpiration call.command with
    | none => (c, .panicked)
    | some c' => (c', .registerCommand)
  | .registerCommand => (c.registerCommand call.command, .storeActive)
  | .storeActive => (c.storeActive call.command, .createStatus)
  | .createStatus => (c.createStatus call.command call.input.statusAt, .setupAckTimeout)
  | .setupAckTimeout => (c.setupAckTimeout call.command call.input.ackAt, .routeCommand)
  | .routeCommand => (c, .finished (c.routeCommand call.command call.input.published))
  | .refused e => (c, .refused e)
  | .panicked => (c, .panicked)
  | .finished result => (c, .finished result)

/-- The coordinator, the calls on it, and which command won over which. -/
structure Pool where
  coordinator : CommandCoordinator
  calls : List Call
  beaten : List (HierarchicalCommand × HierarchicalCommand)

namespace Pool

inductive Op where
  | start (command : HierarchicalCommand) (input : IssueInput)
  | resume (i : Nat)

def start (cellId : Option String) (nodeId : String) (cellMembers : List String) : Pool :=
  ⟨.new cellId nodeId cellMembers, [], []⟩

def losers (c : CommandCoordinator) (call : Call) : List HierarchicalCommand :=
  match call.stage with
  | .check =>
    match c.checkConflicts call.command with
    | .error _ => []
    | .ok () => (c.conflictResolver.conflicting call.command).filter fun l =>
        l.commandId ≠ call.command.commandId
  | _ => []

def resume (p : Pool) (i : Nat) (call : Call) : Pool where
  coordinator := (p.coordinator.advance call).1
  calls := p.calls.set i { call with stage := (p.coordinator.advance call).2 }
  beaten := p.beaten ++ (losers p.coordinator call).map fun l => (call.command, l)

def step (p : Pool) : Op → Pool
  | .start command input => { p with calls := p.calls ++ [⟨command, input, .check⟩] }
  | .resume i =>
    match p.calls[i]? with
    | none => p
    | some call => p.resume i call

def Apart (a b : HierarchicalCommand) : Prop := ∀ t ∈ a.targetIds, t ∉ b.targetIds

/-- **Conflict exclusion**: active commands of different ids keep apart, and once a winner is active its
    losers are gone from the active commands and from the index. -/
structure Excludes (p : Pool) : Prop where
  apart : ∀ i j a b, p.coordinator.activeCommands.lookup i = some a →
    p.coordinator.activeCommands.lookup j = some b → i ≠ j → Apart a b
  displaced : ∀ w l, (w, l) ∈ p.beaten →
    p.coordinator.activeCommands.lookup w.commandId = some w →
      p.coordinator.activeCommands.lookup l.commandId ≠ some l ∧
        ∀ t, l ∉ p.coordinator.conflictResolver.commandsFor t

def At (p : Pool) (k n : Nat) (x : HierarchicalCommand) : Prop :=
  ∃ call : Call, p.calls[k]? = some call ∧ call.command = x ∧ n ≤ call.stage.rank

/-- The call has passed its check, and its registration does not panic. -/
def Passed (p : Pool) (k : Nat) (x : HierarchicalCommand) : Prop :=
  p.At k 1 x ∧ TimeoutManager.Representable x

/-- A command that is checked loses, panics or keeps apart from all that passed. -/
def Clear (p : Pool) : Op → Prop
  | .start _ _ => True
  | .resume i => ∀ call, p.calls[i]? = some call → call.stage = .check →
    p.coordinator.conflictResolver.Loses call.command ∨ ¬ TimeoutManager.Representable call.command ∨
      ∀ k y, p.Passed k y → y.commandId ≠ call.command.commandId → Apart call.command y

/-- All calls have ended. -/
def Completed (p : Pool) : Prop := ∀ (k : Nat) (call : Call), p.calls[k]? = some call →
  call.stage.result.isSome

/-- No two calls issue commands of one id. -/
def DistinctIds (p : Pool) : Prop := ∀ (k k' : Nat) (call call' : Call), p.calls[k]? = some call →
  p.calls[k']? = some call' → call.command.commandId = call'.command.commandId → k = k'

/-! ## 2. What a step does -/

def Proceeds (c : CommandCoordinator) (call : Call) : Prop :=
  match call.stage with
  | .check => ¬ c.conflictResolver.Loses call.command
  | .registerExpiration => TimeoutManager.Representable call.command
  | .refused _ | .panicked | .finished _ => False
  | _ => True

variable (c : CommandCoordinator)

theorem representable_iff {cmd : HierarchicalCommand} :
    TimeoutManager.Representable cmd ↔ ∃ c', c.registerExpiration cmd = some c' := by
  simp only [CommandCoordinator.registerExpiration_eq_some_iff, exists_and_left, exists_eq', and_true]

theorem rank_advance (call : Call) :
    (Proceeds c call ∧ (c.advance call).2.rank = call.stage.rank + 1) ∨
    (¬ Proceeds c call ∧ (c.advance call).2.rank = call.stage.rank) := by
  unfold Proceeds CommandCoordinator.advance
  cases hs : call.stage with
  | check =>
    dsimp only
    rw [← c.checkConflicts_ok_iff call.command]
    cases hcheck : c.checkConflicts call.command with
    | error e => exact .inr ⟨nofun, rfl⟩
    | ok u => exact .inl ⟨rfl, rfl⟩
  | registerExpiration =>
    dsimp only
    rw [representable_iff c]
    cases c.registerExpiration call.command with
    | none => exact .inr ⟨nofun, rfl⟩
    | some c' => exact .inl ⟨⟨c', rfl⟩, rfl⟩
  | refused e => exact .inr ⟨id, rfl⟩
  | panicked => exact .inr ⟨id, rfl⟩
  | finished result => exact .inr ⟨id, rfl⟩
  | _ => exact .inl ⟨trivial, rfl⟩

theorem maps_registerExpiration {cmd : HierarchicalCommand} {c' : CommandCoordinator}
    (h : c.registerExpiration cmd = some c') :
    c'.conflictResolver = c.conflictResolver ∧ c'.activeCommands = c.activeCommands := by
  obtain ⟨_, rfl⟩ := CommandCoordinator.registerExpiration_eq_some_iff.mp h
  exact ⟨rfl, rfl⟩

theorem maps_setupAckTimeout (cmd : HierarchicalCommand) (now : Nat) :
    (c.setupAckTimeout cmd now).conflictResolver = c.conflictResolver ∧
      (c.setupAckTimeout cmd now).activeCommands = c.activeCommands := by
  unfold CommandCoordinator.setupAckTimeout
  split <;> exact ⟨rfl, rfl⟩

theorem conflictResolver_advance (call : Call) :
    (c.advance call).1.conflictResolver =
      if call.stage.rank = 2 then c.conflictResolver.registerCommand call.command
      else c.conflictResolver := by
  unfold CommandCoordinator.advance
  cases hs : call.stage with
  | check => cases c.checkConflicts call.command <;> rfl
  | registerExpiration =>
    cases hreg : c.registerExpiration call.command with
    | none => rfl
    | some c' => exact (maps_registerExpiration c hreg).1
  | setupAckTimeout => exact (maps_setupAckTimeout ..).1
  | _ => rfl

theorem activeCommands_advance (call : Call) :
    (c.advance call).1.activeCommands =
      if call.stage.rank = 3 then c.activeCommands.insert call.command.commandId call.command
      else c.activeCommands := by
  unfold CommandCoordinator.advance
  cases hs : call.stage with
  | check => cases c.checkConflicts call.command <;> rfl
  | registerExpiration =>
    cases hreg : c.registerExpiration call.command with
    | none => rfl
    | some c' => exact (maps_registerExpiration c hreg).2
  | setupAckTimeout => exact (maps_setupAckTimeout ..).2
  | _ => rfl

variable {p : Pool} {call : Call} {k n : Nat} {x : HierarchicalCommand}

theorem step_resume_none {i : Nat} (h : p.calls[i]? = none) : p.step (.resume i) = p := by
  rw [step, h]

theorem step_resume_some {i : Nat} (h : p.calls[i]? = some call) :
    p.step (.resume i) = p.resume i call := by
  rw [step, h]

def Enters (p : Pool) (op : Op) (k n : Nat) (x : HierarchicalCommand) : Prop :=
  op = .resume k ∧ ∃ call : Call, p.calls[k]? = some call ∧ call.command = x ∧
    Proceeds p.coordinator call ∧ n = call.stage.rank + 1

theorem at_start_iff {command : HierarchicalCommand} {input : IssueInput} (hn : 1 ≤ n) :
    (p.step (.start command input)).At k n x ↔ p.At k n x := by
  show (∃ call : Call, (p.calls ++ [⟨command, input, .check⟩])[k]? = some call ∧ _ ∧ _) ↔ _
  rw [List.getElem?_append]
  by_cases hk : k < p.calls.length
  · rw [if_pos hk]
    rfl
  · rw [if_neg hk]
    refine iff_of_false (fun ⟨call, hcall, _, hrank⟩ => ?_) fun ⟨call, hcall, _⟩ => ?_
    · rw [List.getElem?_singleton] at hcall
      split at hcall
      · cases hcall
        exact absurd hrank (Nat.not_le.mpr hn)
      · nomatch hcall
    · rw [List.getElem?_eq_none (Nat.le_of_not_lt hk)] at hcall
      nomatch hcall

theorem at_iff_of_call (h : p.calls[k]? = some call) :
    p.At k n x ↔ call.command = x ∧ n ≤ call.stage.rank := by
  constructor
  · intro ⟨call', hcall', hat⟩
    rw [h] at hcall'
    cases hcall'
    exact hat
  · exact fun hat => ⟨call, h, hat⟩

theorem enters_iff_of_call (h : p.calls[k]? = some call) : p.Enters (.resume k) k n x ↔
      call.command = x ∧ Proceeds p.coordinator call ∧ n = call.stage.rank + 1 := by
  constructor
  · intro ⟨_, call', hcall', henters⟩
    rw [h] at hcall'
    cases hcall'
    exact henters
  · exact fun henters => ⟨rfl, call, h, henters⟩

theorem le_rank_advance_iff {c : CommandCoordinator} :
    n ≤ (c.advance call).2.rank ↔
      n ≤ call.stage.rank ∨ Proceeds c call ∧ n = call.stage.rank + 1 := by
  rcases rank_advance c call with ⟨hgo, hnext⟩ | ⟨hstay, hnext⟩
  · rw [hnext, and_iff_right hgo]
    omega
  · rw [hnext, or_iff_left fun h => hstay h.1]

theorem at_step_iff {op : Op} (hn : 1 ≤ n) :
    (p.step op).At k n x ↔ p.At k n x ∨ p.Enters op k n x := by
  cases op with
  | start command input => rw [at_start_iff hn, or_iff_left fun h => nomatch h.1]
  | resume i =>
    cases hi : p.calls[i]? with
    | none =>
      rw [step_resume_none hi, or_iff_left]
      intro ⟨hop, call, hcall, _⟩
      cases hop
      rw [hi] at hcall
      nomatch hcall
    | some call =>
      rw [step_resume_some hi]
      by_cases hk : i = k
      · subst hk
        have hset : (p.resume i call).calls[i]? =
            some { call with stage := (p.coordinator.advance call).2 } :=
          List.getElem?_set_self (List.getElem?_eq_some_iff.mp hi).1
        rw [at_iff_of_call hset, at_iff_of_call hi, enters_iff_of_call hi, ← and_or_left]
        exact and_congr_right fun _ => le_rank_advance_iff
      · have hset : (p.resume i call).calls[k]? = p.calls[k]? := List.getElem?_set_ne hk
        have hno : ¬ p.Enters (.resume i) k n x := fun h => hk (Op.resume.inj h.1)
        rw [or_iff_left hno, At, hset]
        rfl

theorem At.step (h : p.At k n x) (hn : 1 ≤ n) (op : Op) :
    (p.step op).At k n x := (at_step_iff hn).mpr (.inl h)

theorem At.mono {m : Nat} (h : p.At k n x) (hm : m ≤ n) : p.At k m x := by
  obtain ⟨call, hcall, hx, hrank⟩ := h
  exact ⟨call, hcall, hx, Nat.le_trans hm hrank⟩

def alone (s : CommandCoordinator × Call) : CommandCoordinator × Call :=
  ((s.1.advance s.2).1, { s.2 with stage := (s.1.advance s.2).2 })

theorem run_resume_last (n : Nat) {l : List Call} (h : p.calls = l ++ [call]) :
    (run step p (List.replicate n (.resume l.length))).coordinator =
        (alone^[n] (p.coordinator, call)).1 ∧
      (run step p (List.replicate n (.resume l.length))).calls =
        l ++ [(alone^[n] (p.coordinator, call)).2] := by
  induction n generalizing p call with
  | zero => exact ⟨rfl, h⟩
  | succ n ih =>
    have hlast : p.calls[l.length]? = some call := by
      rw [h, List.getElem?_append_right (Nat.le_refl _), Nat.sub_self]
      rfl
    rw [List.replicate_succ, run_cons, step_resume_some hlast, Function.iterate_succ_apply]
    refine ih ?_
    show p.calls.set l.length _ = _
    rw [h, List.set_append_right _ _ (Nat.le_refl _), Nat.sub_self]
    rfl

section Alone

variable (c : CommandCoordinator) (cmd : HierarchicalCommand) (io : IssueInput)

theorem alone_refused (e : Error) (n : Nat) :
    alone^[n] (c, ⟨cmd, io, .refused e⟩) = (c, ⟨cmd, io, .refused e⟩) := Function.iterate_fixed rfl n

theorem alone_panicked (n : Nat) :
    alone^[n] (c, ⟨cmd, io, .panicked⟩) = (c, ⟨cmd, io, .panicked⟩) := Function.iterate_fixed rfl n

theorem alone_registered : alone^[5] (c, ⟨cmd, io, .registerCommand⟩) =
    (c.writeStores cmd io,
      ⟨cmd, io, .finished ((c.writeStores cmd io).routeCommand cmd io.published)⟩) := by
  let c₁ := c.registerCommand cmd
  let c₂ := c₁.storeActive cmd
  let c₃ := c₂.createStatus cmd io.statusAt
  have h₁ : alone (c, ⟨cmd, io, .registerCommand⟩) = (c₁, ⟨cmd, io, .storeActive⟩) := rfl
  have h₂ : alone (c₁, ⟨cmd, io, .storeActive⟩) = (c₂, ⟨cmd, io, .createStatus⟩) := rfl
  have h₃ : alone (c₂, ⟨cmd, io, .createStatus⟩) = (c₃, ⟨cmd, io, .setupAckTimeout⟩) := rfl
  have h₄ : alone (c₃, ⟨cmd, io, .setupAckTimeout⟩) =
      (c.writeStores cmd io, ⟨cmd, io, .routeCommand⟩) := rfl
  simp only [Function.iterate_succ_apply, h₁, h₂, h₃, h₄]
  rfl

theorem router_writeStores : (c.writeStores cmd io).router = c.router := by
  rw [CommandCoordinator.writeStores_eq]

end Alone

theorem resume_issueCommand (p : Pool) (cmd : HierarchicalCommand) (io : IssueInput) :
    let p' := run step p (.start cmd io :: List.replicate 7 (.resume p.calls.length))
    p'.coordinator = (p.coordinator.issueCommand cmd io).2 ∧
      ∃ stage, p'.calls = p.calls ++ [⟨cmd, io, stage⟩] ∧
        stage.result = some (p.coordinator.issueCommand cmd io).1 := by
  have hstarted : (p.step (.start cmd io)).coordinator = p.coordinator := rfl
  obtain ⟨hcoord, hcalls⟩ :=
    @run_resume_last (p.step (.start cmd io)) ⟨cmd, io, .check⟩ 7 p.calls rfl
  rw [hstarted, Function.iterate_succ_apply] at hcoord hcalls
  dsimp only
  rw [run_cons, hcoord, hcalls, CommandCoordinator.issueCommand]
  cases hcheck : p.coordinator.checkConflicts cmd with
  | error e =>
    have hfirst : alone (p.coordinator, ⟨cmd, io, .check⟩) = (p.coordinator, ⟨cmd, io, .refused e⟩) := by
      simp only [alone, CommandCoordinator.advance, hcheck]
    rw [hfirst, alone_refused]
    exact ⟨rfl, _, rfl, rfl⟩
  | ok u =>
    have hfirst : alone (p.coordinator, ⟨cmd, io, .check⟩) =
        (p.coordinator, ⟨cmd, io, .registerExpiration⟩) := by
      simp only [alone, CommandCoordinator.advance, hcheck]
    rw [hfirst, Function.iterate_succ_apply]
    dsimp only
    cases hreg : p.coordinator.registerExpiration cmd with
    | none =>
      have hsecond : alone (p.coordinator, ⟨cmd, io, .registerExpiration⟩) =
          (p.coordinator, ⟨cmd, io, .panicked⟩) := by
        simp only [alone, CommandCoordinator.advance, hreg]
      rw [hsecond, alone_panicked]
      exact ⟨rfl, _, rfl, rfl⟩
    | some c' =>
      have hsecond : alone (p.coordinator, ⟨cmd, io, .registerExpiration⟩) =
          (c', ⟨cmd, io, .registerCommand⟩) := by
        simp only [alone, CommandCoordinator.advance, hreg]
      rw [hsecond, alone_registered]
      refine ⟨rfl, _, rfl, ?_⟩
      show some (some (CommandCoordinator.routeCommand _ cmd io.published)) = some (some _)
      rw [CommandCoordinator.routeCommand, router_writeStores]
      rfl

/-! ## 3. What holds in every state -/

/-- What a call has come to tells whether its expiry could be registered. -/
def Sound (call : Call) : Prop :=
  match call.stage with
  | .check | .registerExpiration | .refused _ => True
  | .panicked => ¬ TimeoutManager.Representable call.command
  | _ => TimeoutManager.Representable call.command

structure Inv (p : Pool) : Prop where
  sound : ∀ call ∈ p.calls, Sound call
  index : ∀ t x, x ∈ p.coordinator.conflictResolver.commandsFor t → t ∈ x.targetIds ∧ ∃ k, p.At k 3 x
  active : ∀ id x, p.coordinator.activeCommands.lookup id = some x →
    x.commandId = id ∧ ∃ k, p.At k 4 x
  beaten : ∀ w l, (w, l) ∈ p.beaten →
    w.commandId ≠ l.commandId ∧ ¬ Apart w l ∧ ∃ k, p.Passed k l

theorem inv_start (cellId : Option String) (nodeId : String) (cellMembers : List String) :
    Inv (start cellId nodeId cellMembers) :=
  ⟨fun _ h => (nomatch h), fun _ _ h => (nomatch h), fun _ _ h => (nomatch h),
    fun _ _ h => (nomatch h)⟩

theorem Sound.advance (h : Sound call) :
    Sound { call with stage := (c.advance call).2 } := by
  unfold Sound at h
  unfold CommandCoordinator.advance
  cases hs : call.stage with
  | check => cases c.checkConflicts call.command <;> trivial
  | registerExpiration =>
    have hrep := @representable_iff c call.command
    dsimp only
    cases hreg : c.registerExpiration call.command with
    | none =>
      rw [hreg] at hrep
      exact fun hr => nomatch hrep.mp hr
    | some c' => exact hrep.mpr ⟨c', hreg⟩
  | refused e => trivial
  | _ =>
    rw [hs] at h
    exact h

theorem Inv.passed (h : Inv p) (hx : p.At k 2 x) : p.Passed k x := by
  refine ⟨hx.mono (by decide), ?_⟩
  obtain ⟨call, hcall, rfl, hrank⟩ := hx
  have hsound := h.sound call (List.mem_of_getElem? hcall)
  unfold Sound at hsound
  cases hs : call.stage with
  | check | registerExpiration | refused e | panicked =>
    rw [hs] at hrank
    simp [Stage.rank] at hrank
  | _ =>
    rw [hs] at hsound
    exact hsound

theorem mem_losers {c : CommandCoordinator} {l : HierarchicalCommand} (h : l ∈ losers c call) :
    l.commandId ≠ call.command.commandId ∧
      ∃ t ∈ call.command.targetIds, l ∈ c.conflictResolver.commandsFor t := by
  unfold losers at h
  cases hs : call.stage with
  | check =>
    rw [hs] at h
    dsimp only at h
    cases hcheck : c.checkConflicts call.command with
    | error e =>
      rw [hcheck] at h
      nomatch h
    | ok u =>
      rw [hcheck] at h
      obtain ⟨hmem, hid⟩ := List.mem_filter.mp h
      exact ⟨of_decide_eq_true hid, ConflictResolver.mem_conflicting.mp hmem⟩
  | _ =>
    rw [hs] at h
    nomatch h

section Resume

variable {p : Pool} {i : Nat} {call : Call}

theorem At.resume {k n : Nat} {x : HierarchicalCommand} (hi : p.calls[i]? = some call)
    (h : p.At k n x) (hn : 1 ≤ n) : (p.resume i call).At k n x :=
  step_resume_some hi ▸ h.step hn (.resume i)

theorem Inv.sound_resume (h : Inv p) (hi : p.calls[i]? = some call) :
    ∀ call' ∈ (p.resume i call).calls, Sound call' := by
  intro call' hmem
  rcases List.mem_or_eq_of_mem_set hmem with hmem | rfl
  · exact h.sound call' hmem
  · exact (h.sound call (List.mem_of_getElem? hi)).advance _

theorem at_resume_next (hi : p.calls[i]? = some call) (hgo : Proceeds p.coordinator call) :
    (p.resume i call).At i (call.stage.rank + 1) call.command := by
  rw [← step_resume_some hi]
  exact (at_step_iff (Nat.le_add_left 1 _)).mpr (.inr ⟨rfl, call, hi, rfl, hgo, rfl⟩)

theorem proceeds_of_rank {c : CommandCoordinator} (h : 2 ≤ call.stage.rank)
    (h' : call.stage.rank ≤ 6) : Proceeds c call := by
  unfold Proceeds
  cases hs : call.stage with
  | check | registerExpiration | refused e | panicked =>
    rw [hs] at h
    simp [Stage.rank] at h
  | finished result =>
    rw [hs] at h'
    exact absurd h' (Nat.not_succ_le_self 6)
  | _ => trivial

theorem Inv.index_resume (h : Inv p) (hi : p.calls[i]? = some call) (t : String)
    (x : HierarchicalCommand)
    (hx : x ∈ (p.resume i call).coordinator.conflictResolver.commandsFor t) :
    t ∈ x.targetIds ∧ ∃ k, (p.resume i call).At k 3 x := by
  have hold : x ∈ p.coordinator.conflictResolver.commandsFor t →
      t ∈ x.targetIds ∧ ∃ k, (p.resume i call).At k 3 x := fun hx =>
    ⟨(h.index t x hx).1, (h.index t x hx).2.imp fun _ ha => ha.resume hi (by decide)⟩
  replace hx : x ∈ (p.coordinator.advance call).1.conflictResolver.commandsFor t := hx
  rw [conflictResolver_advance] at hx
  split at hx
  · rename_i hrank
    rcases ConflictResolver.mem_commandsFor_registerCommand.mp hx with hx | ⟨rfl, ht⟩
    · exact hold hx
    · have hnext := at_resume_next hi (proceeds_of_rank (by omega) (by omega))
      rw [hrank] at hnext
      exact ⟨ht, i, hnext⟩
  · exact hold hx

theorem Inv.active_resume (h : Inv p) (hi : p.calls[i]? = some call) :
    ∀ id x, (p.resume i call).coordinator.activeCommands.lookup id = some x →
      x.commandId = id ∧ ∃ k, (p.resume i call).At k 4 x := by
  have hold : ∀ id x, p.coordinator.activeCommands.lookup id = some x →
      x.commandId = id ∧ ∃ k, (p.resume i call).At k 4 x := fun id x hx =>
    ⟨(h.active id x hx).1, (h.active id x hx).2.imp fun _ ha => ha.resume hi (by decide)⟩
  show ∀ id x, (p.coordinator.advance call).1.activeCommands.lookup id = some x → _
  rw [activeCommands_advance]
  split
  · rename_i hrank
    have hnext := at_resume_next hi (proceeds_of_rank (by omega) (by omega))
    rw [hrank] at hnext
    exact forall_lookup_insert ⟨rfl, i, hnext⟩ hold
  · exact hold

theorem Inv.beaten_resume (h : Inv p) (hi : p.calls[i]? = some call) (w l : HierarchicalCommand)
    (hwl : (w, l) ∈ (p.resume i call).beaten) : w.commandId ≠ l.commandId ∧ ¬ Apart w l ∧
      ∃ k, (p.resume i call).Passed k l := by
  have hkeep : ∀ k, p.Passed k l → (p.resume i call).Passed k l := fun k hl =>
    ⟨hl.1.resume hi (Nat.le_refl 1), hl.2⟩
  rcases List.mem_append.mp hwl with hwl | hwl
  · obtain ⟨hid, hshare, k, hl⟩ := h.beaten w l hwl
    exact ⟨hid, hshare, k, hkeep k hl⟩
  · -- the loser is registered, so its call passed the check before
    obtain ⟨l', hl', heq⟩ := List.mem_map.mp hwl
    cases heq
    obtain ⟨hid, t, ht, hreg⟩ := mem_losers hl'
    obtain ⟨htl, k, hk⟩ := h.index t l hreg
    exact ⟨Ne.symm hid, fun hap => hap t ht htl, k, hkeep k (h.passed (hk.mono (by decide)))⟩

end Resume

theorem Inv.step (h : Inv p) (op : Op) : Inv (p.step op) := by
  cases op with
  | start command input =>
    have hat : ∀ {k n x}, 1 ≤ n → p.At k n x → (p.step (.start command input)).At k n x :=
      fun hn ha => ha.step hn _
    refine ⟨fun call hmem => ?_, fun t x hx => ?_, fun id x hx => ?_, fun w l hwl => ?_⟩
    · rcases List.mem_append.mp hmem with hmem | hmem
      · exact h.sound call hmem
      · cases List.mem_singleton.mp hmem
        trivial
    · exact ⟨(h.index t x hx).1, (h.index t x hx).2.imp fun _ => hat (by decide)⟩
    · exact ⟨(h.active id x hx).1, (h.active id x hx).2.imp fun _ => hat (by decide)⟩
    · obtain ⟨hid, hshare, k, hl⟩ := h.beaten w l hwl
      exact ⟨hid, hshare, k, hat (Nat.le_refl 1) hl.1, hl.2⟩
  | resume i =>
    cases hi : p.calls[i]? with
    | none =>
      rw [step_resume_none hi]
      exact h
    | some call =>
      rw [step_resume_some hi]
      exact ⟨h.sound_resume hi, h.index_resume hi, h.active_resume hi, h.beaten_resume hi⟩

/-! ## 4. Calls that keep apart -/

def AllApart (p : Pool) : Prop :=
  ∀ k k' x y, p.Passed k x → p.Passed k' y → x.commandId ≠ y.commandId → Apart x y

theorem Apart.symm {a b : HierarchicalCommand} (h : Apart a b) : Apart b a :=
  fun t hb ha => h t ha hb

theorem enters_passed_iff {op : Op} :
    p.Enters op k 1 x ↔ op = .resume k ∧ ∃ call : Call, p.calls[k]? = some call ∧ call.command = x ∧
      call.stage = .check ∧ ¬ p.coordinator.conflictResolver.Loses x := by
  refine and_congr_right fun _ => exists_congr fun call => and_congr_right fun _ => ?_
  constructor
  · rintro ⟨rfl, hgo, hrank⟩
    refine ⟨rfl, ?_⟩
    unfold Proceeds at hgo
    cases hs : call.stage with
    | check =>
      rw [hs] at hgo
      exact ⟨rfl, hgo⟩
    | refused e =>
      rw [hs] at hgo
      exact hgo.elim
    | _ =>
      rw [hs] at hrank
      nomatch hrank
  · rintro ⟨rfl, hs, hwin⟩
    refine ⟨rfl, ?_, by rw [hs]; rfl⟩
    rw [Proceeds, hs]
    exact hwin

theorem Passed.step (h : p.Passed k x) (op : Op) : (p.step op).Passed k x :=
  ⟨h.1.step (Nat.le_refl 1) op, h.2⟩

theorem passed_step_iff {op : Op} :
    (p.step op).Passed k x ↔
      p.Passed k x ∨ p.Enters op k 1 x ∧ TimeoutManager.Representable x := by
  rw [Passed, at_step_iff (Nat.le_refl 1), or_and_right]
  rfl

theorem allApart_step_iff (p : Pool) (op : Op) : (p.step op).AllApart ↔ p.AllApart ∧ p.Clear op := by
  constructor
  · intro h
    refine ⟨fun k k' x y hx hy => h k k' x y (hx.step op) (hy.step op), ?_⟩
    cases op with
    | start command input => trivial
    | resume i =>
      intro call hcall hs
      by_cases hlose : p.coordinator.conflictResolver.Loses call.command
      · exact .inl hlose
      by_cases hrep : TimeoutManager.Representable call.command
      · refine .inr (.inr fun k y hy hid => ?_)
        have hpass : (p.step (.resume i)).Passed i call.command :=
          passed_step_iff.mpr
            (.inr ⟨enters_passed_iff.mpr ⟨rfl, call, hcall, rfl, hs, hlose⟩, hrep⟩)
        exact h i k call.command y hpass (hy.step _) (Ne.symm hid)
      · exact .inr (.inl hrep)
  · rintro ⟨hap, hclear⟩
    -- a call that passes in this step, against one that had passed
    have hnew : ∀ k x, p.Enters op k 1 x → TimeoutManager.Representable x → ∀ k' y, p.Passed k' y →
        x.commandId ≠ y.commandId → Apart x y := by
      intro k x hx hrep k' y hy hid
      obtain ⟨rfl, call, hcall, rfl, hs, hwin⟩ := enters_passed_iff.mp hx
      have hall := ((hclear call hcall hs).resolve_left hwin).resolve_left fun h => h hrep
      exact hall k' y hy (Ne.symm hid)
    intro k k' x y hx hy hid
    rcases passed_step_iff.mp hx with hx | ⟨hx, hrepx⟩ <;>
      rcases passed_step_iff.mp hy with hy | ⟨hy, hrepy⟩
    · exact hap k k' x y hx hy hid
    · exact (hnew k' y hy hrepy k x hx (Ne.symm hid)).symm
    · exact hnew k x hx hrepx k' y hy hid
    · obtain ⟨rfl, call, hcall, rfl, _⟩ := hx
      obtain ⟨hop, call', hcall', rfl, _⟩ := hy
      cases hop
      rw [hcall] at hcall'
      cases hcall'
      exact absurd rfl hid

theorem Inv.excludes (h : Inv p) (hap : p.AllApart) : p.Excludes := by
  have hactive : ∀ id x, p.coordinator.activeCommands.lookup id = some x →
      x.commandId = id ∧ ∃ k, p.Passed k x := fun id x hx =>
    ⟨(h.active id x hx).1, (h.active id x hx).2.imp fun _ hk => h.passed (hk.mono (by decide))⟩
  refine ⟨fun i j a b ha hb hij => ?_, fun w l hwl hw => ?_⟩
  · obtain ⟨rfl, k, hk⟩ := hactive i a ha
    obtain ⟨rfl, k', hk'⟩ := hactive j b hb
    exact hap k k' a b hk hk' hij
  · obtain ⟨hid, hshare, k', hl⟩ := h.beaten w l hwl
    obtain ⟨_, k, hk⟩ := hactive w.commandId w hw
    exact absurd (hap k k' w l hk hl hid) hshare

/-! ## 5. Distinct ids -/

theorem DistinctIds.of_step {op : Op} (h : (p.step op).DistinctIds) : p.DistinctIds := by
  have hkeep : ∀ (k : Nat) (call : Call), p.calls[k]? = some call →
      ∃ call' : Call, (p.step op).calls[k]? = some call' ∧ call'.command = call.command := by
    intro k call hcall
    cases op with
    | start command input =>
      refine ⟨call, ?_, rfl⟩
      show (p.calls ++ _)[k]? = _
      rw [List.getElem?_append_left (List.getElem?_eq_some_iff.mp hcall).1, hcall]
    | resume i =>
      cases hi : p.calls[i]? with
      | none => exact ⟨call, by rw [step_resume_none hi]; exact hcall, rfl⟩
      | some moved =>
        rw [step_resume_some hi]
        show ∃ call' : Call, (p.calls.set i _)[k]? = some call' ∧ _
        rw [List.getElem?_set]
        by_cases hk : i = k
        · subst hk
          rw [hi] at hcall
          cases hcall
          rw [if_pos rfl, if_pos (List.getElem?_eq_some_iff.mp hi).1]
          exact ⟨_, rfl, rfl⟩
        · rw [if_neg hk]
          exact ⟨call, hcall, rfl⟩
  intro k k' call call' hcall hcall' hid
  obtain ⟨a, ha, hacmd⟩ := hkeep k call hcall
  obtain ⟨b, hb, hbcmd⟩ := hkeep k' call' hcall'
  exact h k k' a b ha hb (by rw [hacmd, hbcmd, hid])

def StoredActive (p : Pool) : Prop := p.DistinctIds → ∀ k x, p.At k 4 x →
  p.coordinator.activeCommands.lookup x.commandId = some x

theorem StoredActive.step (h : p.StoredActive) (op : Op) : (p.step op).StoredActive := by
  intro hd k x hx
  have hold := h hd.of_step
  rcases (at_step_iff (by decide)).mp hx with hwas | hnow
  · -- another call may store its command meanwhile, but under another id
    cases op with
    | start command input => exact hold k x hwas
    | resume i =>
      cases hi : p.calls[i]? with
      | none =>
        rw [step_resume_none hi]
        exact hold k x hwas
      | some call =>
        rw [step_resume_some hi]
        show (p.coordinator.advance call).1.activeCommands.lookup _ = _
        rw [activeCommands_advance]
        split
        · by_cases hid : x.commandId = call.command.commandId
          · obtain ⟨call', hcall', rfl, _⟩ := hwas
            have hk := hd.of_step k i call' call hcall' hi hid
            subst hk
            rw [hi] at hcall'
            cases hcall'
            exact AList.lookup_insert _
          · rw [AList.lookup_insert_ne hid]
            exact hold k x hwas
        · exact hold k x hwas
  · obtain ⟨rfl, call, hcall, rfl, _, hrank⟩ := hnow
    rw [step_resume_some hcall]
    show (p.coordinator.advance call).1.activeCommands.lookup _ = _
    rw [activeCommands_advance, if_pos (Nat.succ.inj hrank).symm, AList.lookup_insert]

theorem Excludes.allApart (h : p.Excludes) (hi : p.Inv) (hs : p.StoredActive) (hd : p.DistinctIds)
    (hc : p.Completed) : p.AllApart := by
  have hstored : ∀ k x, p.Passed k x → p.At k 4 x := by
    rintro k _ ⟨⟨call, hcall, rfl, hrank⟩, hrep⟩
    refine ⟨call, hcall, rfl, ?_⟩
    have hend := hc k call hcall
    have hsound := hi.sound call (List.mem_of_getElem? hcall)
    unfold Sound at hsound
    cases hs : call.stage with
    | finished result => exact Nat.le_add_right 4 3
    | refused e =>
      rw [hs] at hrank
      nomatch hrank
    | panicked =>
      rw [hs] at hsound
      exact absurd hrep hsound
    | _ =>
      rw [hs] at hend
      nomatch hend
  intro k k' x y hx hy hid
  exact h.apart _ _ x y (hs hd k x (hstored k x hx)) (hs hd k' y (hstored k' y hy)) hid

/-- **Conflict exclusion** holds along a schedule in which each command, when it is checked, loses, has an
    expiry that panics or keeps apart from all that passed before; necessary where the calls have distinct
    ids and have ended. -/
theorem conflict_exclusion (cellId : Option String) (nodeId : String) (cellMembers : List String)
    (ops : List Op) :
    (RunMeets step Clear (start cellId nodeId cellMembers) ops →
      ∀ pre, pre <+: ops → (run step (start cellId nodeId cellMembers) pre).Excludes) ∧
    ((run step (start cellId nodeId cellMembers) ops).DistinctIds →
      (run step (start cellId nodeId cellMembers) ops).Completed →
      (run step (start cellId nodeId cellMembers) ops).Excludes →
        RunMeets step Clear (start cellId nodeId cellMembers) ops) := by
  have hstart : (start cellId nodeId cellMembers).AllApart := by
    rintro k k' x y ⟨⟨call, hcall, _⟩, _⟩
    nomatch hcall
  have hinv := run_invariant Inv (fun _ op h => h.step op) (inv_start cellId nodeId cellMembers)
  constructor
  · intro hm pre hpre
    refine (hinv pre).excludes ((run_iff_runMeets AllApart allApart_step_iff).mpr ⟨hstart, ?_⟩)
    exact runMeets_initial hm hpre
  · intro hd hc hex
    have hstored : (run step (start cellId nodeId cellMembers) ops).StoredActive := by
      refine run_invariant StoredActive (fun _ op h => h.step op) ?_ ops
      rintro _ k x ⟨call, hcall, _⟩
      nomatch hcall
    exact ((run_iff_runMeets AllApart allApart_step_iff).mp (hex.allApart (hinv ops) hstored hd hc)).2

/-- **The winner does not displace the loser**: a flash command wins over a routine one, and both stay
    active and indexed. -/
theorem winner_does_not_displace :
    let a := CommandCoordinator.sampleCommand "cmd-1" .individual ["n2"]
    let b := { CommandCoordinator.sampleCommand "cmd-2" .individual ["n2"] with priority := 4 }
    let io : IssueInput := ⟨100, 100, .ok "doc-1"⟩
    let p := run step (start (some "cell-1") "n1" ["n2"])
      (.start a io :: List.replicate 7 (.resume 0) ++ .start b io :: List.replicate 7 (.resume 1))
    p.coordinator.activeCommands.lookup "cmd-1" = some a ∧
      p.coordinator.activeCommands.lookup "cmd-2" = some b ∧ p.beaten = [(b, a)] ∧
      p.coordinator.conflictResolver.commandsFor "n2" = [a, b] ∧ ¬ p.Excludes := by
  intro a b io p
  have ha : p.coordinator.activeCommands.lookup "cmd-1" = some a := by decide
  have hb : p.coordinator.activeCommands.lookup "cmd-2" = some b := by decide
  refine ⟨ha, hb, by decide, by decide, fun h => ?_⟩
  exact h.apart "cmd-1" "cmd-2" a b ha hb (by decide) "n2" (by decide) (by decide)

-- Under `REJECT_CONFLICT` two calls that are both checked before either registers are both admitted.
example :
    let a := { CommandCoordinator.sampleCommand "cmd-1" .individual ["n2"] with conflictPolicy := 5 }
    let b := { CommandCoordinator.sampleCommand "cmd-2" .individual ["n2"] with conflictPolicy := 5 }
    let io : IssueInput := ⟨100, 100, .ok "doc-1"⟩
    let p := run step (start (some "cell-1") "n1" ["n2"])
      ([.start a io, .start b io, .resume 0, .resume 1] ++ List.replicate 6 (.resume 0) ++
        List.replicate 6 (.resume 1))
    p.coordinator.activeCommands.lookup "cmd-1" = some a ∧
      p.coordinator.activeCommands.lookup "cmd-2" = some b := by
  decide

end Pool

end Peat.Command
