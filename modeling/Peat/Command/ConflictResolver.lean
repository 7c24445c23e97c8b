/-
  THE CONFLICT RESOLVER (command/conflict_resolver.rs): an index of the active commands
  by target id, and the choice among commands that share a target.
-/
import Peat.Lib.Buckets
import Peat.Lib.TopK
import Peat.Command.Command

namespace Peat.Command

open Peat.Lib

/-! ## 1. Ranks -/

def deriveAuthorityLevel (nodeId : String) : Nat :=
  if startsWith nodeId "zone-" then 3
  else if startsWith nodeId "cohort-" || startsWith nodeId "cell-" then 2
  else 1

namespace HierarchicalCommand

def issuedSeconds (cmd : HierarchicalCommand) : Nat := secondsOf cmd.issuedAt

def priorityRank (cmd : HierarchicalCommand) : Nat := (CommandPriority.ofWire cmd.priority).toI32

def authorityLevel (cmd : HierarchicalCommand) : Nat := deriveAuthorityLevel cmd.originatorId

end HierarchicalCommand

def ConflictPolicy.rank : ConflictPolicy → Option (HierarchicalCommand → Nat)
  | .lastWriteWins => some HierarchicalCommand.issuedSeconds
  | .highestPriorityWins => some HierarchicalCommand.priorityRank
  | .highestAuthorityWins => some HierarchicalCommand.authorityLevel
  | _ => none

/-! ## 2. The resolver -/

inductive ConflictResult where
  | noConflict
  | conflict (existing : List HierarchicalCommand)
  deriving DecidableEq, Repr

structure ConflictResolver where
  targetCommands : HashMap String (List HierarchicalCommand)

namespace ConflictResolver

def new : ConflictResolver := ⟨∅⟩

def commandsFor (r : ConflictResolver) (targetId : String) : List HierarchicalCommand :=
  (r.targetCommands.lookup targetId).getD []

def conflicting (r : ConflictResolver) (cmd : HierarchicalCommand) : List HierarchicalCommand :=
  cmd.targetIds.flatMap r.commandsFor

def checkConflict (r : ConflictResolver) (cmd : HierarchicalCommand) : ConflictResult :=
  if (r.conflicting cmd).isEmpty then .noConflict else .conflict (r.conflicting cmd)

def resolveByRank (rank : HierarchicalCommand → Nat) (first : HierarchicalCommand)
    (others : List HierarchicalCommand) : HierarchicalCommand :=
  (sortDesc rank (first :: others)).head?.getD first

def resolveLastWriteWins := resolveByRank HierarchicalCommand.issuedSeconds

def resolveHighestPriorityWins := resolveByRank HierarchicalCommand.priorityRank

def resolveHighestAuthorityWins := resolveByRank HierarchicalCommand.authorityLevel

def resolveMergeCompatible (first : HierarchicalCommand) (_others : List HierarchicalCommand) :
    HierarchicalCommand := first

def resolve (commands : List HierarchicalCommand) (policy : ConflictPolicy) :
    Except Error HierarchicalCommand :=
  match commands with
  | [] => .error (.invalidInput "Cannot resolve conflict with empty command list")
  | [cmd] => .ok cmd
  | first :: second :: rest =>
    match policy with
    | .lastWriteWins => .ok (resolveLastWriteWins first (second :: rest))
    | .highestPriorityWins => .ok (resolveHighestPriorityWins first (second :: rest))
    | .highestAuthorityWins => .ok (resolveHighestAuthorityWins first (second :: rest))
    | .mergeCompatible => .ok (resolveMergeCompatible first (second :: rest))
    | .rejectConflict =>
      .error (.conflictDetected "Conflict policy REJECT_CONFLICT: rejecting new command")
    | .unspecified => .error (.invalidInput "Conflict policy must be specified")

def push (cmd : HierarchicalCommand) (m : HashMap String (List HierarchicalCommand))
    (targetId : String) : HashMap String (List HierarchicalCommand) :=
  m.insert targetId ((m.lookup targetId).getD [] ++ [cmd])

def registerCommand (r : ConflictResolver) (cmd : HierarchicalCommand) : ConflictResolver :=
  ⟨cmd.targetIds.foldl (push cmd) r.targetCommands⟩

/-! ## 3. What the index holds -/

variable {r : ConflictResolver} {cmd x : HierarchicalCommand} {rank : HierarchicalCommand → Nat}

theorem mem_conflicting :
    x ∈ r.conflicting cmd ↔ ∃ t ∈ cmd.targetIds, x ∈ r.commandsFor t := List.mem_flatMap

theorem commandsFor_registerCommand (r : ConflictResolver) (cmd : HierarchicalCommand) (t : String) :
    (r.registerCommand cmd).commandsFor t =
      r.commandsFor t ++ List.replicate (cmd.targetIds.count t) cmd :=
  bucket_foldl_pushTo cmd r.targetCommands cmd.targetIds t

theorem mem_commandsFor_registerCommand {t : String} : x ∈ (r.registerCommand cmd).commandsFor t ↔
      x ∈ r.commandsFor t ∨ x = cmd ∧ t ∈ cmd.targetIds := by
  rw [commandsFor_registerCommand, List.mem_append, List.mem_replicate, ← Nat.pos_iff_ne_zero,
    List.count_pos_iff, and_comm]

theorem registerCommand_lookup_iff (r : ConflictResolver) (cmd : HierarchicalCommand) :
    (∀ t, (r.registerCommand cmd).targetCommands.lookup t = r.targetCommands.lookup t) ↔
      cmd.targetIds = [] := by
  constructor
  · intro h
    by_contra hne
    obtain ⟨t, ids, ht⟩ := List.exists_cons_of_ne_nil hne
    have hfor : (r.registerCommand cmd).commandsFor t = r.commandsFor t := congrArg (·.getD []) (h t)
    have hlen := congrArg List.length hfor
    rw [commandsFor_registerCommand, List.length_append, List.length_replicate, ht,
      List.count_cons_self] at hlen
    omega
  · intro h t
    rw [registerCommand, h]
    rfl

/-! ## 4. Who wins -/

/-- **The new command loses** against the registered commands that share a target with it. -/
def Loses (r : ConflictResolver) (cmd : HierarchicalCommand) : Prop :=
  r.conflicting cmd ≠ [] ∧
  (cmd.policy = .unspecified ∨ cmd.policy = .rejectConflict ∨
    (cmd.policy = .mergeCompatible ∧
      ∃ x, (r.conflicting cmd).head? = some x ∧ x.commandId ≠ cmd.commandId) ∨
    ∃ rank, cmd.policy.rank = some rank ∧
      ∃ x, FirstMax rank (r.conflicting cmd ++ [cmd]) x ∧ x.commandId ≠ cmd.commandId)

variable {first : HierarchicalCommand} {policy : ConflictPolicy}
  {commands : List HierarchicalCommand}

theorem resolveByRank_eq_iff {others : List HierarchicalCommand} :
    resolveByRank rank first others = x ↔ FirstMax rank (first :: others) x := by
  have hne : (sortDesc rank (first :: others)) ≠ [] := by
    intro h
    have := (perm_sortDesc rank (first :: others)).length_eq
    rw [h] at this
    nomatch this
  obtain ⟨y, rest, hy⟩ := List.exists_cons_of_ne_nil hne
  rw [← head?_sortDesc_eq_some, resolveByRank, hy]
  exact ⟨congrArg some, Option.some.inj⟩

theorem resolve_of_rank (h : policy.rank = some rank) (first second : HierarchicalCommand)
    (others : List HierarchicalCommand) :
    resolve (first :: second :: others) policy =
      .ok (resolveByRank rank first (second :: others)) := by
  cases policy <;> cases h <;> rfl

theorem resolve_eq_ok_iff (h : policy.rank = some rank) :
    resolve commands policy = .ok x ↔ FirstMax rank commands x := by
  match commands with
  | [] =>
    rw [← head?_sortDesc_eq_some]
    exact iff_of_false (fun h => by cases h) fun h => by cases h
  | [cmd] =>
    rw [← head?_sortDesc_eq_some]
    exact ⟨fun h => congrArg some (Except.ok.inj h), fun h => congrArg Except.ok (Option.some.inj h)⟩
  | first :: second :: others => rw [resolve_of_rank h, Except.ok.injEq, resolveByRank_eq_iff]

theorem exists_firstMax (rank : HierarchicalCommand → Nat) (hne : commands ≠ []) :
    ∃ x, FirstMax rank commands x := by
  obtain ⟨first, others, rfl⟩ := List.exists_cons_of_ne_nil hne
  exact ⟨_, resolveByRank_eq_iff.mp rfl⟩

theorem loses_iff_of_rank (hc : r.conflicting cmd ≠ []) (hr : cmd.policy.rank = some rank) :
    r.Loses cmd ↔
      ∃ x, FirstMax rank (r.conflicting cmd ++ [cmd]) x ∧ x.commandId ≠ cmd.commandId := by
  have hother : ∀ {policy : ConflictPolicy}, policy.rank = none → cmd.policy ≠ policy := by
    rintro policy hnone rfl
    rw [hr] at hnone
    nomatch hnone
  constructor
  · rintro ⟨_, hp | hp | ⟨hp, _⟩ | ⟨rank', hr', hx⟩⟩
    · exact absurd hp (hother rfl)
    · exact absurd hp (hother rfl)
    · exact absurd hp (hother rfl)
    · rw [hr] at hr'
      cases hr'
      exact hx
  · exact fun hx => ⟨hc, .inr (.inr (.inr ⟨rank, hr, hx⟩))⟩

theorem loses_iff_of_merge {rest : List HierarchicalCommand}
    (hc : r.conflicting cmd = first :: rest) (hp : cmd.policy = .mergeCompatible) :
    r.Loses cmd ↔ first.commandId ≠ cmd.commandId := by
  rw [Loses, hc, hp]
  constructor
  · rintro ⟨_, h | h | ⟨_, x, hx, hid⟩ | ⟨rank, h, _⟩⟩
    · nomatch h
    · nomatch h
    · cases hx
      exact hid
    · nomatch h
  · exact fun hid => ⟨List.cons_ne_nil _ _, .inr (.inr (.inl ⟨rfl, first, rfl, hid⟩))⟩

theorem resolve_conflicting (r : ConflictResolver) (cmd : HierarchicalCommand)
    (hc : r.conflicting cmd ≠ []) :
    (∃ x, resolve (r.conflicting cmd ++ [cmd]) cmd.policy = .ok x ∧ x.commandId = cmd.commandId) ↔
      ¬ r.Loses cmd := by
  obtain ⟨first, rest, hfirst⟩ := List.exists_cons_of_ne_nil hc
  obtain ⟨second, others, hsecond⟩ : ∃ second others, rest ++ [cmd] = second :: others := by
    cases rest with
    | nil => exact ⟨cmd, [], rfl⟩
    | cons y rest => exact ⟨y, rest ++ [cmd], rfl⟩
  have hlist : r.conflicting cmd ++ [cmd] = first :: second :: others := by
    rw [hfirst, List.cons_append, hsecond]
  have hranked : ∀ rank, cmd.policy.rank = some rank →
      ((∃ x, resolve (r.conflicting cmd ++ [cmd]) cmd.policy = .ok x ∧
        x.commandId = cmd.commandId) ↔ ¬ r.Loses cmd) := by
    intro rank hr
    rw [loses_iff_of_rank hc hr, hlist, resolve_of_rank hr]
    constructor
    · rintro ⟨_, ⟨⟩, hid⟩ ⟨x, hx, hne⟩
      exact hne (resolveByRank_eq_iff.mpr hx ▸ hid)
    · intro hwin
      refine ⟨_, rfl, ?_⟩
      by_contra hne
      exact hwin ⟨_, resolveByRank_eq_iff.mp rfl, hne⟩
  cases hp : cmd.policy with
  | unspecified =>
    rw [hlist]
    exact iff_of_false (fun ⟨_, hx, _⟩ => nomatch hx) fun h => h ⟨hc, .inl hp⟩
  | rejectConflict =>
    rw [hlist]
    exact iff_of_false (fun ⟨_, hx, _⟩ => nomatch hx) fun h => h ⟨hc, .inr (.inl hp)⟩
  | mergeCompatible =>
    -- the source takes the first of the list, which is the oldest registered command
    rw [loses_iff_of_merge hfirst hp, not_ne_iff, hlist]
    constructor
    · rintro ⟨_, ⟨⟩, hid⟩
      exact hid
    · exact fun hid => ⟨first, rfl, hid⟩
  | lastWriteWins => exact hp ▸ hranked _ (congrArg ConflictPolicy.rank hp)
  | highestPriorityWins => exact hp ▸ hranked _ (congrArg ConflictPolicy.rank hp)
  | highestAuthorityWins => exact hp ▸ hranked _ (congrArg ConflictPolicy.rank hp)

/-! ## 5. Other orders of the commands -/

/-- **What does not depend on the order of the commands**: the winner has the greatest rank, so it is the
    same command if one stands above all others. -/
theorem resolve_perm (commands others : List HierarchicalCommand) (hne : commands ≠ [])
    (hperm : others.Perm commands) :
    (∀ policy rank, policy.rank = some rank → ∃ x y, resolve commands policy = .ok x ∧
      resolve others policy = .ok y ∧ x ∈ commands ∧ y ∈ commands ∧
      (∀ z ∈ commands, rank z ≤ rank x ∧ rank z ≤ rank y) ∧
      ∀ top ∈ commands, (∀ z ∈ commands, z ≠ top → rank z < rank top) → x = top ∧ y = top) ∧
    resolve commands .mergeCompatible = .ok (commands.head hne) := by
  constructor
  · intro policy rank hrank
    obtain ⟨x, hx⟩ := exists_firstMax rank hne
    obtain ⟨y, hy⟩ := exists_firstMax rank fun hnil => hne (List.nil_perm.mp (hnil ▸ hperm))
    have hmem : x ∈ commands ∧ y ∈ commands := ⟨hx.mem, hperm.mem_iff.mp hy.mem⟩
    have hmax : ∀ z ∈ commands, rank z ≤ rank x ∧ rank z ≤ rank y :=
      fun z hz => ⟨hx.le hz, hy.le (hperm.mem_iff.mpr hz)⟩
    refine ⟨x, y, (resolve_eq_ok_iff hrank).mpr hx, (resolve_eq_ok_iff hrank).mpr hy, hmem.1, hmem.2,
      hmax, fun top htop habove => ⟨?_, ?_⟩⟩
    · by_contra h
      exact absurd (habove x hmem.1 h) (not_lt.mpr (hmax top htop).1)
    · by_contra h
      exact absurd (habove y hmem.2 h) (not_lt.mpr (hmax top htop).2)
  · match commands with
    | [] => exact absurd rfl hne
    | [cmd] => rfl
    | first :: second :: rest => rfl

def issuedAtSecond (id : String) (seconds : Nat) : HierarchicalCommand where
  commandId := id
  originatorId := "zone-1"
  target := none
  commandType := none
  priority := 1
  bufferPolicy := 0
  conflictPolicy := 0
  acknowledgmentPolicy := 0
  leaderChangePolicy := 0
  issuedAt := some ⟨seconds, 0⟩
  expiresAt := none
  version := 1

/-- Two commands of different seconds, in both orders. -/
theorem resolve_perm_two :
    let early := issuedAtSecond "a" 100
    let late := issuedAtSecond "b" 200
    resolve [early, late] .lastWriteWins = .ok late ∧ resolve [late, early] .lastWriteWins = .ok late := by
  intro early late
  obtain ⟨x, y, hx, hy, _, _, _, htop⟩ := (resolve_perm [early, late] [late, early]
    (List.cons_ne_nil _ _) (.swap early late [])).1 .lastWriteWins _ rfl
  obtain ⟨rfl, rfl⟩ := htop late (by decide) (by decide)
  exact ⟨hx, hy⟩

/-- **The order decides a tie, and always the merging**: two commands of one second. -/
theorem order_decides_tie :
    let a := issuedAtSecond "a" 100
    let b := issuedAtSecond "b" 100
    ([a, b].map HierarchicalCommand.commandId).Nodup ∧ [b, a].Perm [a, b] ∧
      resolve [a, b] .mergeCompatible = .ok a ∧ resolve [b, a] .mergeCompatible = .ok b ∧
      ∀ policy ∈ [ConflictPolicy.lastWriteWins, .highestPriorityWins, .highestAuthorityWins],
        resolve [a, b] policy = .ok a ∧ resolve [b, a] policy = .ok b := by decide

end ConflictResolver

end Peat.Command
