/-
  THE TIMEOUT MANAGER (command/timeout_manager.rs): commands by expiration time and the
  acknowledgments still awaited.

  An expiration time is a whole number of seconds, the only part of
  `expires_at` that is read; the time of an acknowledgment timeout is in
  nanoseconds. Both count from the epoch. A `SystemTime` holds its seconds in an
  `i64`; `register_expiration` panics (`none`) beyond it.
-/
import Peat.Lib.HashMap
import Peat.Command.Command

namespace Peat.Command

open Peat.Lib

structure AckTimeout where
  commandId : String
  expectedAcks : List String
  receivedAcks : List String
  expiresAt : Nat
  deriving DecidableEq, Repr

structure TimeoutManager where
  expiringCommands : HashMap Nat (List String)
  ackTimeouts : HashMap String AckTimeout

namespace TimeoutManager

def new : TimeoutManager := ⟨∅, ∅⟩

def registerExpiration (m : TimeoutManager) (cmd : HierarchicalCommand) : TimeoutManager :=
  match cmd.expiresAt with
  | none => m
  | some expiresAt =>
    { m with
      expiringCommands := m.expiringCommands.insert expiresAt.seconds
        ((m.expiringCommands.lookup expiresAt.seconds).getD [] ++ [cmd.commandId]) }

def lastSecond : Nat := 9223372036854775807

/-- `register_expiration`, with the panic of a sum beyond the last `SystemTime`. -/
def tryRegisterExpiration (m : TimeoutManager) (cmd : HierarchicalCommand) : Option TimeoutManager :=
  match cmd.expiresAt with
  | none => some m
  | some expiresAt =>
    if expiresAt.seconds ≤ lastSecond then some (m.registerExpiration cmd) else none

/-- **The expiry of a command fits into a `SystemTime`.** -/
def Representable (cmd : HierarchicalCommand) : Prop :=
  ∀ t, cmd.expiresAt = some t → t.seconds ≤ lastSecond

def registerAckTimeout (m : TimeoutManager) (commandId : String) (expectedAcks : List String)
    (timeout now : Nat) : TimeoutManager :=
  { m with ackTimeouts := m.ackTimeouts.insert commandId ⟨commandId, expectedAcks, [], now + timeout⟩ }

def AckTimeout.received (t : AckTimeout) (nodeId : String) : AckTimeout :=
  if nodeId ∈ t.receivedAcks then t else { t with receivedAcks := t.receivedAcks ++ [nodeId] }

def recordAck (m : TimeoutManager) (commandId nodeId : String) : Bool × TimeoutManager :=
  match m.ackTimeouts.lookup commandId with
  | none => (false, m)
  | some timeout =>
    let timeout := AckTimeout.received timeout nodeId
    (timeout.receivedAcks.length ≥ timeout.expectedAcks.length,
      { m with ackTimeouts := m.ackTimeouts.insert commandId timeout })

def checkAckTimeouts (m : TimeoutManager) (now : Nat) : List String :=
  (m.ackTimeouts.entries.filter fun e =>
    e.2.expiresAt ≤ now ∧ e.2.receivedAcks.length < e.2.expectedAcks.length).map Sigma.fst

def unregisterAckTimeout (m : TimeoutManager) (commandId : String) : TimeoutManager :=
  { m with ackTimeouts := m.ackTimeouts.erase commandId }

variable (m : TimeoutManager)

theorem tryRegisterExpiration_eq_some_iff {m m' : TimeoutManager} {cmd : HierarchicalCommand} :
    m.tryRegisterExpiration cmd = some m' ↔ Representable cmd ∧ m.registerExpiration cmd = m' := by
  unfold tryRegisterExpiration Representable
  cases hexp : cmd.expiresAt with
  | none =>
    have hsame : m.registerExpiration cmd = m := by rw [registerExpiration, hexp]
    rw [hsame]
    exact ⟨fun h => ⟨fun _ hs => (by cases hs), Option.some.inj h⟩, fun h => congrArg some h.2⟩
  | some expiresAt =>
    simp only [Option.some.injEq, forall_eq']
    split
    · rename_i hle
      rw [Option.some.injEq, and_iff_right hle]
    · rename_i hgt
      exact ⟨fun h => (by cases h), fun h => absurd h.1 hgt⟩

theorem registerExpiration_lookup_iff (cmd : HierarchicalCommand) :
    (∀ t, (m.registerExpiration cmd).expiringCommands.lookup t = m.expiringCommands.lookup t) ↔
      cmd.expiresAt = none := by
  unfold registerExpiration
  cases cmd.expiresAt with
  | none => exact iff_of_true (fun _ => rfl) rfl
  | some expiresAt =>
    refine iff_of_false (fun h => ?_) nofun
    have hlook := congrArg (fun o : Option (List String) => (o.getD []).length) (h expiresAt.seconds)
    dsimp only at hlook
    rw [AList.lookup_insert, Option.getD_some, List.length_append, List.length_singleton] at hlook
    omega

theorem lookup_recordAck (id n k : String) :
    (m.recordAck id n).2.ackTimeouts.lookup k =
      if k = id then (m.ackTimeouts.lookup id).map (AckTimeout.received · n)
      else m.ackTimeouts.lookup k := by
  unfold recordAck
  cases h : m.ackTimeouts.lookup id with
  | none =>
    show m.ackTimeouts.lookup k = if k = id then none else m.ackTimeouts.lookup k
    split
    · rename_i hk
      rw [hk]
      exact h
    · rfl
  | some t => exact lookup_insert_eq_ite _ _ _ _

theorem recordAck_eq_true_iff {m : TimeoutManager} {id n : String} :
    (m.recordAck id n).1 = true ↔ ∃ t, (m.recordAck id n).2.ackTimeouts.lookup id = some t ∧
      t.receivedAcks.length ≥ t.expectedAcks.length := by
  rw [lookup_recordAck, if_pos rfl]
  unfold recordAck
  cases m.ackTimeouts.lookup id with
  | none => exact iff_of_false Bool.false_ne_true fun ⟨_, ht, _⟩ => nomatch ht
  | some t =>
    show decide _ = true ↔ ∃ t', some (AckTimeout.received t n) = some t' ∧ _
    rw [decide_eq_true_eq]
    exact ⟨fun h => ⟨_, rfl, h⟩, fun ⟨_, ht, h⟩ => Option.some.inj ht ▸ h⟩

theorem mem_checkAckTimeouts {m : TimeoutManager} {now : Nat} {id : String} :
    id ∈ m.checkAckTimeouts now ↔ ∃ t, m.ackTimeouts.lookup id = some t ∧ t.expiresAt ≤ now ∧
      t.receivedAcks.length < t.expectedAcks.length := by
  unfold checkAckTimeouts
  simp only [List.mem_map, List.mem_filter, lookup_eq_some_iff, decide_eq_true_eq]
  constructor
  · rintro ⟨⟨id, t⟩, ⟨hmem, hlate⟩, rfl⟩
    exact ⟨t, hmem, hlate⟩
  · rintro ⟨t, hmem, hlate⟩
    exact ⟨⟨id, t⟩, ⟨hmem, hlate⟩, rfl⟩

theorem ackTimeouts_registerExpiration (cmd : HierarchicalCommand) :
    (m.registerExpiration cmd).ackTimeouts = m.ackTimeouts := by
  unfold registerExpiration
  cases cmd.expiresAt <;> rfl

end TimeoutManager

end Peat.Command
