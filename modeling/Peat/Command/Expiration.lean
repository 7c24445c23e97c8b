/-
  COMMAND EXPIRATION (`register_expiration`, `process_expired` and
  `unregister_expiration` in command/timeout_manager.rs) over a whole history of calls.

  The ordered map of buckets is sorted when it is walked. `register_expiration` reads
  the seconds of an expiry only, while the expiry itself has nanoseconds.
-/
import Mathlib.Data.List.Induction
import Mathlib.Data.List.Sort
import Peat.Command.TimeoutManager
import Peat.Lib.Buckets
import Peat.Lib.Run

namespace Peat.Command

open Peat.Lib

def second : Nat := 1000000000

/-- When the command expires, in nanoseconds of the epoch. -/
def HierarchicalCommand.expiry (cmd : HierarchicalCommand) : Option Nat :=
  cmd.expiresAt.map fun t => t.seconds * second + t.nanos

namespace TimeoutManager

/-! ## 1. The calls -/

def Reached (expiry : Nat) (now : Int) : Prop := expiry ≤ now

instance (expiry : Nat) (now : Int) : Decidable (Reached expiry now) :=
  inferInstanceAs (Decidable ((expiry : Int) ≤ now))

/-- The times `range(..=now)` lists, in their order. -/
def expiredKeys (m : TimeoutManager) (now : Int) : List Nat :=
  (m.expiringCommands.keys.filter fun seconds => Reached (seconds * second) now).insertionSort (· ≤ ·)

def takeBucket (acc : List String × HashMap Nat (List String)) (key : Nat) :
    List String × HashMap Nat (List String) :=
  match acc.2.lookup key with
  | none => acc
  | some commands => (acc.1 ++ commands, acc.2.erase key)

def processExpired (m : TimeoutManager) (now : Int) : List String × TimeoutManager :=
  let taken := (m.expiredKeys now).foldl takeBucket ([], m.expiringCommands)
  (taken.1, { m with expiringCommands := taken.2 })

def unregisterExpiration (m : TimeoutManager) (commandId : String) : TimeoutManager :=
  { m with expiringCommands := keepWhere (fun id => id ≠ commandId) m.expiringCommands }

def bucket (m : TimeoutManager) (seconds : Nat) : List String :=
  Lib.bucket m.expiringCommands seconds

variable (m : TimeoutManager)

/-- **An expiry at a whole second.** -/
def Whole (cmd : HierarchicalCommand) : Prop := ∀ t, cmd.expiresAt = some t → t.nanos = 0

theorem bucket_registerExpiration {cmd : HierarchicalCommand} (hwhole : Whole cmd) (seconds : Nat) :
    (m.registerExpiration cmd).bucket seconds =
      m.bucket seconds ++ if cmd.expiry = some (seconds * second) then [cmd.commandId] else [] := by
  unfold registerExpiration HierarchicalCommand.expiry
  cases hexp : cmd.expiresAt with
  | none => exact (List.append_nil _).symm
  | some expiresAt =>
    have hsame : expiresAt.seconds * second + expiresAt.nanos = seconds * second ↔
        expiresAt.seconds = seconds := by
      rw [hwhole _ hexp, Nat.add_zero]
      exact Nat.mul_left_inj (Nat.succ_ne_zero _)
    simp only [Option.map_some, Option.some.injEq, hsame]
    exact bucket_pushTo cmd.commandId m.expiringCommands expiresAt.seconds seconds

theorem bucket_unregisterExpiration (commandId : String) (seconds : Nat) :
    (m.unregisterExpiration commandId).bucket seconds =
      (m.bucket seconds).filter fun id => id ≠ commandId :=
  bucket_keepWhere _ m.expiringCommands seconds

theorem takeBucket_eq (ids : List String) (map : HashMap Nat (List String)) (key : Nat) :
    takeBucket (ids, map) key = (ids ++ Lib.bucket map key, map.erase key) := by
  unfold takeBucket Lib.bucket
  cases hlook : map.lookup key with
  | none =>
    have hsame : map.erase key = map :=
      AList.ext (List.kerase_of_notMem_keys (AList.lookup_eq_none.mp hlook))
    rw [hsame]
    exact congrArg (·, map) (List.append_nil ids).symm
  | some commands => rfl

theorem foldl_takeBucket {keys : List Nat} (hn : keys.Nodup) (ids : List String)
    (map : HashMap Nat (List String)) :
    (keys.foldl takeBucket (ids, map)).1 = ids ++ keys.flatMap (Lib.bucket map) ∧
      ∀ key, Lib.bucket (keys.foldl takeBucket (ids, map)).2 key =
        if key ∈ keys then [] else Lib.bucket map key := by
  induction keys generalizing ids map with
  | nil => exact ⟨(List.append_nil ids).symm, fun _ => rfl⟩
  | cons first keys ih =>
    obtain ⟨hfirst, hn⟩ := List.nodup_cons.mp hn
    obtain ⟨hids, hrest⟩ := ih hn (ids ++ Lib.bucket map first) (map.erase first)
    rw [List.foldl_cons, takeBucket_eq]
    constructor
    · rw [hids, List.append_assoc, List.flatMap_cons]
      refine congrArg (fun rest => ids ++ (_ ++ rest)) (List.flatMap_congr fun key hkey => ?_)
      rw [bucket_erase, if_neg (ne_of_mem_of_not_mem hkey hfirst)]
    · intro key
      rw [hrest, bucket_erase]
      by_cases hkey : key = first
      · simp only [hkey, if_true, ite_self, List.mem_cons, true_or]
      · simp only [hkey, if_false, List.mem_cons, false_or]

theorem nodup_expiredKeys (now : Int) : (m.expiredKeys now).Nodup :=
  (List.perm_insertionSort _ _).nodup_iff.mpr (m.expiringCommands.nodupKeys.filter _)

theorem mem_expiredKeys {m : TimeoutManager} {now : Int} {seconds : Nat} :
    seconds ∈ m.expiredKeys now ↔ seconds ∈ m.expiringCommands ∧ Reached (seconds * second) now := by
  unfold expiredKeys
  rw [List.mem_insertionSort, List.mem_filter, decide_eq_true_eq]
  exact Iff.rfl

theorem processExpired_fst (now : Int) :
    (m.processExpired now).1 = (m.expiredKeys now).flatMap m.bucket :=
  (foldl_takeBucket (m.nodup_expiredKeys now) [] m.expiringCommands).1

theorem bucket_processExpired (now : Int) (seconds : Nat) :
    (m.processExpired now).2.bucket seconds =
      if Reached (seconds * second) now then [] else m.bucket seconds := by
  refine ((foldl_takeBucket (m.nodup_expiredKeys now) [] m.expiringCommands).2 seconds).trans ?_
  simp only [mem_expiredKeys]
  by_cases hkey : seconds ∈ m.expiringCommands
  · simp only [hkey, true_and]
    rfl
  · simp only [bucket, bucket_of_notMem hkey, ite_self]

/-! ## 2. Histories -/

inductive ExpirationOp where
  | register (cmd : HierarchicalCommand)
  | unregister (commandId : String)
  | process (now : Int)

def ExpirationOp.registered : ExpirationOp → Option String
  | .register cmd => some cmd.commandId
  | .unregister _ | .process _ => none

def expirationStep (m : TimeoutManager) : ExpirationOp → TimeoutManager
  | .register cmd => m.registerExpiration cmd
  | .unregister commandId => m.unregisterExpiration commandId
  | .process now => (m.processExpired now).2

def tryExpirationStep (m : TimeoutManager) : ExpirationOp → Option TimeoutManager
  | .register cmd => m.tryRegisterExpiration cmd
  | .unregister commandId => some (m.unregisterExpiration commandId)
  | .process now => some (m.processExpired now).2

def history (ops : List ExpirationOp) : Option TimeoutManager := ops.foldlM tryExpirationStep new

/-- **A command waits** after a history: it was registered, not unregistered since, and no call
    since then was made at or after its expiry. -/
def Waiting (ops : List ExpirationOp) (expiry : Nat) (id : String) : Prop :=
  Since (fun op => ∃ cmd, op = .register cmd ∧ cmd.commandId = id ∧ cmd.expiry = some expiry)
    (fun op => op = .unregister id ∨ ∃ now, op = .process now ∧ Reached expiry now) ops

/-- **What a call should return** after a history: the waiting commands whose expiry is reached, each
    once and in the order of their expiries. -/
structure Expires (ops : List ExpirationOp) (now : Int) (returned : List String) : Prop where
  nodup : returned.Nodup
  mem_iff : ∀ id, id ∈ returned ↔ ∃ expiry, Waiting ops expiry id ∧ Reached expiry now
  order : returned.Pairwise fun a b => ∀ s t, Waiting ops s a → Waiting ops t b → s ≤ t

section History

variable {ops : List ExpirationOp} {m m' : TimeoutManager} {expiry : Nat} {id : String}

variable {cmd : HierarchicalCommand}

theorem tryExpirationStep_eq_some_iff (m : TimeoutManager) (op : ExpirationOp) (m' : TimeoutManager) :
    m.tryExpirationStep op = some m' ↔
      (∀ cmd, op = .register cmd → Representable cmd) ∧ m.expirationStep op = m' := by
  cases op with
  | register cmd =>
    simp only [tryExpirationStep, tryRegisterExpiration_eq_some_iff, ExpirationOp.register.injEq,
      forall_eq', expirationStep]
  | unregister commandId => simp [tryExpirationStep, expirationStep]
  | process now => simp [tryExpirationStep, expirationStep]

theorem history_eq_some_iff :
    history ops = some m' ↔
      (∀ cmd, .register cmd ∈ ops → Representable cmd) ∧ run expirationStep new ops = m' := by
  refine (foldlM_eq_some_iff tryExpirationStep_eq_some_iff).trans (and_congr_left fun _ => ?_)
  exact ⟨fun h cmd hmem => h _ hmem cmd rfl, fun h op hmem cmd e => h cmd (e ▸ hmem)⟩

/-! ## 3. What the buckets hold -/

theorem waiting_register :
    Waiting (ops ++ [.register cmd]) expiry id ↔
      cmd.commandId = id ∧ cmd.expiry = some expiry ∨ Waiting ops expiry id := by
  refine (since_concat _).trans ?_
  simp only [ExpirationOp.register.injEq, exists_eq_left', reduceCtorEq, false_and, exists_false,
    or_false, not_false_eq_true, and_true]
  exact Iff.rfl

theorem waiting_unregister {commandId : String} :
    Waiting (ops ++ [.unregister commandId]) expiry id ↔
      Waiting ops expiry id ∧ id ≠ commandId := by
  refine (since_concat _).trans ?_
  simp only [ExpirationOp.unregister.injEq, reduceCtorEq, false_and, exists_false, or_false, false_or]
  exact and_congr_right fun _ => ne_comm

theorem waiting_process {now : Int} :
    Waiting (ops ++ [.process now]) expiry id ↔ Waiting ops expiry id ∧ ¬ Reached expiry now := by
  refine (since_concat _).trans ?_
  simp only [ExpirationOp.process.injEq, exists_eq_left', reduceCtorEq, false_and, exists_false,
    false_or]
  exact Iff.rfl

theorem Waiting.registered (h : Waiting ops expiry id) :
    id ∈ ops.filterMap ExpirationOp.registered := by
  obtain ⟨op, hmem, cmd, rfl, hid, _⟩ := h.exists_mem
  exact List.mem_filterMap.mpr ⟨.register cmd, hmem, congrArg some hid⟩

structure Inv (ops : List ExpirationOp) (m : TimeoutManager) : Prop where
  whole : ∀ expiry id, Waiting ops expiry id → ∃ seconds, expiry = seconds * second
  mem_iff : ∀ seconds id, id ∈ m.bucket seconds ↔ Waiting ops (seconds * second) id
  nodup : ∀ seconds, (m.bucket seconds).Nodup
  unique : ∀ s t id, Waiting ops s id → Waiting ops t id → s = t

theorem inv_new : Inv [] new := by
  have hnone : ∀ expiry id, ¬ Waiting [] expiry id := fun _ _ => not_since_nil
  refine ⟨fun _ _ h => absurd h (hnone _ _), fun seconds id => ?_, fun _ => List.nodup_nil,
    fun _ _ _ h => absurd h (hnone _ _)⟩
  exact iff_of_false List.not_mem_nil (hnone _ _)

theorem Inv.register (h : Inv ops m) (hwhole : Whole cmd)
    (hnew : cmd.commandId ∉ ops.filterMap ExpirationOp.registered) :
    Inv (ops ++ [.register cmd]) (m.registerExpiration cmd) := by
  -- the id was not in any bucket before
  have hfresh : ∀ expiry, ¬ Waiting ops expiry cmd.commandId := fun _ hw => hnew hw.registered
  constructor
  · intro expiry id hw
    rcases waiting_register.mp hw with ⟨-, hexp⟩ | hw
    · obtain ⟨t, ht, rfl⟩ := Option.map_eq_some_iff.mp hexp
      exact ⟨t.seconds, by rw [hwhole t ht, Nat.add_zero]⟩
    · exact h.whole expiry id hw
  · intro seconds id
    rw [waiting_register, bucket_registerExpiration m hwhole, List.mem_append, h.mem_iff, or_comm]
    refine or_congr_left ?_
    split
    · rename_i hexp
      exact List.mem_singleton.trans ⟨fun e => ⟨e.symm, hexp⟩, fun e => e.1.symm⟩
    · rename_i hexp
      exact iff_of_false List.not_mem_nil fun e => hexp e.2
  · intro seconds
    rw [bucket_registerExpiration m hwhole]
    refine List.Nodup.append (h.nodup seconds) ?_ fun id hid hid' => ?_
    · split
      · exact List.nodup_singleton _
      · exact List.nodup_nil
    · split at hid'
      · rw [List.mem_singleton.mp hid', h.mem_iff] at hid
        exact hfresh _ hid
      · cases hid'
  · intro s t id hs ht
    rcases waiting_register.mp hs with ⟨hid, hs⟩ | hs
    · rcases waiting_register.mp ht with ⟨_, ht⟩ | ht
      · exact Option.some.inj (hs.symm.trans ht)
      · exact absurd (hid ▸ ht) (hfresh t)
    · rcases waiting_register.mp ht with ⟨hid, _⟩ | ht
      · exact absurd (hid ▸ hs) (hfresh s)
      · exact h.unique s t id hs ht

theorem Inv.unregister (h : Inv ops m) (commandId : String) :
    Inv (ops ++ [.unregister commandId]) (m.unregisterExpiration commandId) := by
  constructor
  · exact fun expiry id hw => h.whole expiry id (waiting_unregister.mp hw).1
  · intro seconds id
    rw [waiting_unregister, bucket_unregisterExpiration, List.mem_filter, h.mem_iff,
      decide_eq_true_eq]
  · intro seconds
    rw [bucket_unregisterExpiration]
    exact (h.nodup seconds).filter _
  · intro s t id hs ht
    exact h.unique s t id (waiting_unregister.mp hs).1 (waiting_unregister.mp ht).1

theorem Inv.process (h : Inv ops m) (now : Int) :
    Inv (ops ++ [.process now]) (m.processExpired now).2 := by
  constructor
  · exact fun expiry id hw => h.whole expiry id (waiting_process.mp hw).1
  · intro seconds id
    rw [waiting_process, bucket_processExpired]
    split
    · rename_i hreached
      exact iff_of_false List.not_mem_nil fun hw => hw.2 hreached
    · rename_i hreached
      rw [h.mem_iff, and_iff_left hreached]
  · intro seconds
    rw [bucket_processExpired]
    split
    · exact List.nodup_nil
    · exact h.nodup seconds
  · intro s t id hs ht
    exact h.unique s t id (waiting_process.mp hs).1 (waiting_process.mp ht).1

theorem inv_run (hwhole : ∀ cmd, .register cmd ∈ ops → Whole cmd)
    (hn : (ops.filterMap ExpirationOp.registered).Nodup) :
    Inv ops (run expirationStep new ops) := by
  induction ops using List.reverseRecOn with
  | nil => exact inv_new
  | append_singleton ops op ih =>
    rw [List.filterMap_append, List.nodup_append'] at hn
    obtain ⟨hn, _, hdisjoint⟩ := hn
    have ih := ih (fun cmd hmem => hwhole cmd (List.mem_append_left _ hmem)) hn
    rw [run_concat]
    cases op with
    | register cmd =>
      have hlast := hwhole cmd (List.mem_append_right _ (List.mem_singleton_self _))
      refine ih.register hlast fun hmem => hdisjoint hmem ?_
      exact List.mem_filterMap.mpr ⟨.register cmd, List.mem_singleton_self _, rfl⟩
    | unregister commandId => exact ih.unregister commandId
    | process now => exact ih.process now

theorem Inv.expires (h : Inv ops m) (now : Int) : Expires ops now (m.processExpired now).1 := by
  rw [processExpired_fst]
  -- two buckets of one id are one
  have hone : ∀ {s t : Nat} {id : String}, id ∈ m.bucket s → Waiting ops t id → t = s * second :=
    fun hs ht => h.unique _ _ _ ht ((h.mem_iff _ _).mp hs)
  constructor
  · refine List.nodup_flatMap.mpr ⟨fun seconds _ => h.nodup seconds, ?_⟩
    refine (m.nodup_expiredKeys now).imp fun hne id hs ht => hne ?_
    exact Nat.eq_of_mul_eq_mul_right (Nat.succ_pos _) (hone ht ((h.mem_iff _ id).mp hs))
  · intro id
    rw [List.mem_flatMap]
    constructor
    · intro ⟨seconds, hkey, hid⟩
      exact ⟨_, (h.mem_iff seconds id).mp hid, (mem_expiredKeys.mp hkey).2⟩
    · intro ⟨expiry, hwaiting, hreached⟩
      obtain ⟨seconds, rfl⟩ := h.whole expiry id hwaiting
      have hid := (h.mem_iff seconds id).mpr hwaiting
      refine ⟨seconds, mem_expiredKeys.mpr ⟨?_, hreached⟩, hid⟩
      by_contra hnone
      rw [bucket, bucket_of_notMem hnone] at hid
      cases hid
  · have hsorted : (m.expiredKeys now).Pairwise (· ≤ ·) := List.pairwise_insertionSort _ _
    refine List.pairwise_flatMap.mpr
      ⟨fun seconds _ => ?_, hsorted.imp fun hle a ha b hb s t hs ht => ?_⟩
    · refine List.pairwise_of_forall_mem_list fun a ha b hb s t hs ht => ?_
      rw [hone ha hs, hone hb ht]
    · rw [hone ha hs, hone hb ht]
      exact Nat.mul_le_mul_right _ hle

end History

/-! ## 4. The whole history -/

/-- **Every call of a history returns what it should, and none of the history panics.** -/
def Served (ops : List ExpirationOp) : Prop :=
  (∃ m, history ops = some m) ∧
    ∀ pre now post, ops = pre ++ .process now :: post →
      ∃ m, history pre = some m ∧ Expires pre now (m.processExpired now).1

/-- **A history of expiries at whole seconds in which no id is registered twice is served exactly when
    every expiry fits into a `SystemTime`.** -/
theorem expiration_iff (ops : List ExpirationOp)
    (honce : (ops.filterMap ExpirationOp.registered).Nodup)
    (hwhole : ∀ cmd, .register cmd ∈ ops → Whole cmd) :
    Served ops ↔ ∀ cmd, .register cmd ∈ ops → Representable cmd := by
  constructor
  · intro ⟨⟨m, hm⟩, _⟩
    exact (history_eq_some_iff.mp hm).1
  · intro hrep
    refine ⟨⟨_, history_eq_some_iff.mpr ⟨hrep, rfl⟩⟩, ?_⟩
    intro pre now post hops
    subst hops
    have hin : ∀ cmd, .register cmd ∈ pre → .register cmd ∈ pre ++ .process now :: post :=
      fun cmd hmem => List.mem_append_left _ hmem
    rw [List.filterMap_append] at honce
    exact ⟨_, history_eq_some_iff.mpr ⟨fun cmd hmem => hrep cmd (hin cmd hmem), rfl⟩,
      (inv_run (fun cmd hmem => hwhole cmd (hin cmd hmem)) honce.of_append_left).expires now⟩

def expiringCommand (id : String) (expiresAt : Timestamp) : HierarchicalCommand where
  commandId := id
  originatorId := "hq"
  target := none
  commandType := none
  priority := 0
  bufferPolicy := 0
  conflictPolicy := 0
  acknowledgmentPolicy := 0
  leaderChangePolicy := 0
  issuedAt := none
  expiresAt := some expiresAt
  version := 1

/-- Two commands, the later one unregistered and then looked for after both expiries. -/
theorem expiration_iff_two :
    Served [.register (expiringCommand "a" ⟨10, 0⟩), .register (expiringCommand "b" ⟨5, 0⟩),
      .process 5000000000, .unregister "a", .process 20000000000] := by
  have hboth : ∀ cmd, .register cmd ∈ [ExpirationOp.register (expiringCommand "a" ⟨10, 0⟩),
      .register (expiringCommand "b" ⟨5, 0⟩), .process 5000000000, .unregister "a",
      .process 20000000000] → Whole cmd ∧ Representable cmd := by
    intro cmd hmem
    simp only [List.mem_cons, List.not_mem_nil, ExpirationOp.register.injEq, reduceCtorEq, or_false,
      or_self] at hmem
    rcases hmem with rfl | rfl
    · exact ⟨fun t ht => (by cases ht; rfl), fun t ht => (by cases ht; decide)⟩
    · exact ⟨fun t ht => (by cases ht; rfl), fun t ht => (by cases ht; decide)⟩
  exact (expiration_iff _ (by decide) fun cmd hmem => (hboth cmd hmem).1).mpr
    fun cmd hmem => (hboth cmd hmem).2

/-- **A command whose expiry is the last `u64` makes `register_expiration` panic**; and a command that
    expires at 10.9 s is returned at 10 s. -/
theorem last_expiry_panics :
    ¬ Served [.register (expiringCommand "never" ⟨18446744073709551615, 0⟩)] ∧
      ¬ Served [.register (expiringCommand "a" ⟨10, 900000000⟩), .process 10000000000] := by
  constructor
  · intro ⟨⟨m, hm⟩, _⟩
    cases hm
  · intro ⟨_, h⟩
    obtain ⟨m, hm, hexpires⟩ := h [_] _ [] rfl
    cases hm
    obtain ⟨expiry, hwaiting, hreached⟩ := (hexpires.mem_iff "a").mp (by decide)
    rcases @waiting_register [] expiry "a" _ |>.mp hwaiting with ⟨-, hexp⟩ | hnone
    · cases hexp
      exact absurd hreached (by decide)
    · exact not_since_nil hnone

end TimeoutManager

end Peat.Command
