/-
  RECOVERY AFTER A PARTITION (qos/recovery.rs): queued update batches, the obsolescence
  filter, and the drain in priority order.

  Instants and durations are nanoseconds. A class without an entry reads as an empty
  list. The filter asks the clock once per batch (`now id`).
-/
import Mathlib.Algebra.GroupWithZero.Nat
import Mathlib.Data.List.Range
import Mathlib.Algebra.BigOperators.Group.List.Basic
import Mathlib.Algebra.Order.Group.Nat
import Peat.Lib.Lanes
import Peat.Lib.Run
import Peat.Lib.HashMap
import Peat.Qos.Classification

namespace Peat.Qos

open Peat.Lib

/-! ## 1. Batches and the recovery manager -/

structure UpdateBatch where
  id : Nat
  data : List UInt8
  dataType : DataType
  createdAt : Nat
  qosClass : QoSClass
  deriving DecidableEq, Repr

namespace UpdateBatch

def age (b : UpdateBatch) (now : Nat) : Nat := now - b.createdAt

def size (b : UpdateBatch) : Nat := b.data.length

def bytes (l : List UpdateBatch) : Nat := (l.map size).sum

theorem bytes_cons (b : UpdateBatch) (l : List UpdateBatch) : bytes (b :: l) = b.size + bytes l := rfl

theorem bytes_append (l r : List UpdateBatch) : bytes (l ++ r) = bytes l + bytes r := by
  simp [bytes]

theorem bytes_perm {l r : List UpdateBatch} (h : l.Perm r) : bytes l = bytes r :=
  (h.map size).sum_eq

end UpdateBatch

open UpdateBatch (bytes)

structure SyncRecovery where
  queuedUpdates : Lanes QoSClass UpdateBatch
  obsolescenceWindows : HashMap DataType Nat
  totalBytes : Nat
  obsoleteFiltered : Nat
  nextBatchId : Nat
  recoveryInProgress : Bool

namespace SyncRecovery

def new : SyncRecovery := ⟨fun _ => [], ∅, 0, 0, 0, false⟩

def setObsolescence (s : SyncRecovery) (dataType : DataType) (window : Nat) : SyncRecovery :=
  { s with obsolescenceWindows := s.obsolescenceWindows.insert dataType window }

def isObsolete (s : SyncRecovery) (dataType : DataType) (age : Nat) : Bool :=
  ((s.obsolescenceWindows.lookup dataType).map fun window => decide (age > window)).getD false

def items (s : SyncRecovery) : List UpdateBatch :=
  Lanes.items QoSClass.allByPriority s.queuedUpdates

def nextBatch (s : SyncRecovery) (data : List UInt8) (dataType : DataType) (qosClass : QoSClass)
    (createdAt : Nat) : UpdateBatch := ⟨s.nextBatchId, data, dataType, createdAt, qosClass⟩

def queueUpdateWithTime (s : SyncRecovery) (data : List UInt8) (dataType : DataType)
    (qosClass : QoSClass) (createdAt : Nat) : Nat × SyncRecovery :=
  let batch := s.nextBatch data dataType qosClass createdAt
  (s.nextBatchId, { s with
    queuedUpdates := Lanes.pushBack s.queuedUpdates qosClass batch
    totalBytes := s.totalBytes + batch.size
    nextBatchId := s.nextBatchId + 1 })

def queueUpdate (s : SyncRecovery) (data : List UInt8) (dataType : DataType) (qosClass : QoSClass)
    (now : Nat) : Nat × SyncRecovery := s.queueUpdateWithTime data dataType qosClass now

def obsolete (s : SyncRecovery) (now : Nat → Nat) (b : UpdateBatch) : Bool :=
  s.isObsolete b.dataType (b.age (now b.id))

def obsoleteItems (s : SyncRecovery) (now : Nat → Nat) : List UpdateBatch :=
  QoSClass.allByPriority.flatMap fun c => (s.queuedUpdates c).filter (s.obsolete now)

def applyObsolescenceFilter (s : SyncRecovery) (now : Nat → Nat) : Nat × SyncRecovery :=
  let filtered := (s.obsoleteItems now).length
  (filtered, { s with
    queuedUpdates := fun c => (s.queuedUpdates c).filter fun b => !s.obsolete now b
    totalBytes := s.totalBytes - bytes (s.obsoleteItems now)
    obsoleteFiltered := s.obsoleteFiltered + filtered })

def recoverFromPartition (s : SyncRecovery) (now : Nat → Nat) : SyncRecovery :=
  ({ s with recoveryInProgress := true }.applyObsolescenceFilter now).2

def nextRecoveryBatch (s : SyncRecovery) : Option UpdateBatch × SyncRecovery :=
  match Lanes.popFirst QoSClass.allByPriority s.queuedUpdates with
  | none => (none, s)
  | some (batch, queued) =>
    (some batch, { s with queuedUpdates := queued, totalBytes := s.totalBytes - batch.size })

def completeRecovery (s : SyncRecovery) : SyncRecovery := { s with recoveryInProgress := false }

def totalBytesQueued (s : SyncRecovery) : Nat := s.totalBytes

def obsoleteFilteredCount (s : SyncRecovery) : Nat := s.obsoleteFiltered

def peekSize (s : SyncRecovery) : Option Nat :=
  (Lanes.peekFirst QoSClass.allByPriority s.queuedUpdates).map UpdateBatch.size

def nextWithLimit (s : SyncRecovery) (maxBytes : Nat) : Option UpdateBatch × SyncRecovery :=
  match s.peekSize with
  | none => (none, s)
  | some size => if size > maxBytes then (none, s) else s.nextRecoveryBatch

/-! ## 2. Taking batches -/

inductive Take where
  | next
  | nextWithLimit (maxBytes : Nat)
  deriving DecidableEq, Repr

def take (s : SyncRecovery) : Take → Option UpdateBatch × SyncRecovery
  | .next => s.nextRecoveryBatch
  | .nextWithLimit maxBytes => s.nextWithLimit maxBytes

def takeAll : List Take → SyncRecovery → List UpdateBatch × SyncRecovery
  | [], s => ([], s)
  | t :: takes, s =>
    ((s.take t).1.toList ++ (takeAll takes (s.take t).2).1, (takeAll takes (s.take t).2).2)

variable (s : SyncRecovery)

theorem nextRecoveryBatch_cases :
    (s.nextRecoveryBatch = (none, s) ∧ s.items = []) ∨
      ∃ c b rest, s.queuedUpdates c = b :: rest ∧
        s.nextRecoveryBatch = (some b, { s with
          queuedUpdates := Function.update s.queuedUpdates c rest
          totalBytes := s.totalBytes - b.size }) ∧
        s.items = b :: s.nextRecoveryBatch.2.items := by
  unfold nextRecoveryBatch
  rcases Lanes.popFirst_cases QoSClass.allByPriority s.queuedUpdates with
    ⟨hnone, hnil⟩ | ⟨pre, c, post, b, rest, _, _, hc, hsome⟩
  · rw [hnone]
    exact .inl ⟨rfl, hnil⟩
  · refine .inr ⟨c, b, rest, hc, ?_, ?_⟩
    · rw [hsome]
    · rw [hsome]
      exact Lanes.items_popFirst QoSClass.nodup_allByPriority hsome

theorem peekSize_eq : s.peekSize = s.items.head?.map UpdateBatch.size := by
  unfold peekSize items
  rw [Lanes.peekFirst_eq_head]

theorem nextRecoveryBatch_head : s.nextRecoveryBatch.1 = s.items.head? := by
  rcases s.nextRecoveryBatch_cases with ⟨hnone, hnil⟩ | ⟨c, b, rest, _, hsome, hitems⟩
  · rw [hnone, hnil]
    rfl
  · rw [hitems, hsome]
    rfl

/-- `next_with_limit` returns the head if it fits and nothing if it does not. -/
theorem nextWithLimit_head (maxBytes : Nat) :
    (s.nextWithLimit maxBytes).1 = s.items.head?.filter fun b => b.size ≤ maxBytes := by
  unfold nextWithLimit
  rw [peekSize_eq, ← nextRecoveryBatch_head]
  cases hnext : s.nextRecoveryBatch.1 with
  | none => rfl
  | some b =>
    rw [Option.map_some, Option.filter_some]
    dsimp only
    split
    · rename_i hbig
      rw [if_neg (by simpa using hbig)]
    · rename_i hfits
      rw [hnext, if_pos (by simpa using hfits)]

theorem take_cases (t : Take) : s.take t = (none, s) ∨ s.take t = s.nextRecoveryBatch := by
  cases t with
  | next => exact .inr rfl
  | nextWithLimit maxBytes =>
    show s.nextWithLimit maxBytes = _ ∨ s.nextWithLimit maxBytes = _
    unfold nextWithLimit
    cases s.peekSize with
    | none => exact .inl rfl
    | some size =>
      dsimp only
      split
      · exact .inl rfl
      · exact .inr rfl

theorem take_items (t : Take) : (s.take t).1.toList ++ (s.take t).2.items = s.items := by
  rcases s.take_cases t with h | h
  · rw [h]
    rfl
  · rw [h]
    rcases s.nextRecoveryBatch_cases with ⟨hnone, _⟩ | ⟨c, b, rest, _, hsome, hitems⟩
    · rw [hnone]
      rfl
    · rw [hitems, hsome]
      rfl

theorem takeAll_items (takes : List Take) (s : SyncRecovery) :
    (takeAll takes s).1 ++ (takeAll takes s).2.items = s.items := by
  induction takes generalizing s with
  | nil => rfl
  | cons t takes ih =>
    show (s.take t).1.toList ++ (takeAll takes (s.take t).2).1 ++ _ = _
    rw [List.append_assoc]
    show _ ++ (_ ++ (takeAll takes (s.take t).2).2.items) = _
    rw [ih, take_items]

theorem takeAll_next (n : Nat) (s : SyncRecovery) :
    (takeAll (List.replicate n .next) s).1 = s.items.take n := by
  induction n generalizing s with
  | zero => rfl
  | succ n ih =>
    show s.nextRecoveryBatch.1.toList ++
      (takeAll (List.replicate n .next) s.nextRecoveryBatch.2).1 = _
    rw [ih]
    rcases s.nextRecoveryBatch_cases with ⟨hnone, hnil⟩ | ⟨c, b, rest, _, hsome, hitems⟩
    · simp [hnone, hnil]
    · rw [hitems, hsome]
      rfl

end SyncRecovery

/-! ## 3. Runs -/

/-- The manager with a history: the windows set (the last one first), the batches queued, the batches
    the filter had to remove and those taken. -/
structure RecoveryJournal where
  recovery : SyncRecovery
  windows : List (DataType × Nat)
  queued : List UpdateBatch
  removed : List UpdateBatch
  taken : List UpdateBatch

namespace RecoveryJournal

open SyncRecovery

def start : RecoveryJournal := ⟨.new, [], [], [], []⟩

inductive Op where
  | setObsolescence (dataType : DataType) (window : Nat)
  | queueUpdate (data : List UInt8) (dataType : DataType) (qosClass : QoSClass) (now : Nat)
  | queueUpdateWithTime (data : List UInt8) (dataType : DataType) (qosClass : QoSClass)
      (createdAt : Nat)
  | applyObsolescenceFilter (now : Nat → Nat)
  | recoverFromPartition (now : Nat → Nat)
  | take (t : Take)
  | completeRecovery

def noteQueued (j : RecoveryJournal) (data : List UInt8) (dataType : DataType) (qosClass : QoSClass)
    (createdAt : Nat) (s : SyncRecovery) : RecoveryJournal :=
  let batch := j.recovery.nextBatch data dataType qosClass createdAt
  { j with recovery := s, queued := j.queued ++ [batch] }

def pending (j : RecoveryJournal) : List UpdateBatch :=
  j.queued.filter fun b => decide (b ∉ j.removed) && decide (b ∉ j.taken)

/-- The batch is older than the window last set for its type. -/
def outdated (j : RecoveryJournal) (now : Nat → Nat) (b : UpdateBatch) : Bool :=
  (j.windows.lookup b.dataType).any fun window => window < b.age (now b.id)

def step (j : RecoveryJournal) : Op → RecoveryJournal
  | .setObsolescence t w =>
    { j with recovery := j.recovery.setObsolescence t w, windows := (t, w) :: j.windows }
  | .queueUpdate d t c now => j.noteQueued d t c now (j.recovery.queueUpdate d t c now).2
  | .queueUpdateWithTime d t c created =>
    j.noteQueued d t c created (j.recovery.queueUpdateWithTime d t c created).2
  | .applyObsolescenceFilter now =>
    { j with
      recovery := (j.recovery.applyObsolescenceFilter now).2
      removed := j.removed ++ j.pending.filter (j.outdated now) }
  | .recoverFromPartition now =>
    { j with
      recovery := j.recovery.recoverFromPartition now
      removed := j.removed ++ j.pending.filter (j.outdated now) }
  | .take t =>
    { j with
      recovery := (j.recovery.take t).2
      taken := j.taken ++ (j.recovery.take t).1.toList }
  | .completeRecovery => { j with recovery := j.recovery.completeRecovery }

structure Inv (j : RecoveryJournal) : Prop where
  windows : ∀ t, j.recovery.obsolescenceWindows.lookup t = j.windows.lookup t
  lanes : ∀ c, j.recovery.queuedUpdates c = j.pending.filter fun b => b.qosClass = c
  ids : j.queued.map UpdateBatch.id = List.range j.recovery.nextBatchId
  gone : ∀ b, b ∈ j.removed ∨ b ∈ j.taken → b ∈ j.queued
  bytes : j.recovery.totalBytes = bytes j.recovery.items
  filtered : j.recovery.obsoleteFiltered = j.removed.length

namespace Inv

variable {j : RecoveryJournal}

theorem nodup_ids (h : Inv j) : (j.queued.map UpdateBatch.id).Nodup := by
  rw [h.ids]
  exact List.nodup_range

theorem nodup_queued (h : Inv j) : j.queued.Nodup := h.nodup_ids.of_map

theorem id_lt (h : Inv j) {b : UpdateBatch} (hb : b ∈ j.queued) : b.id < j.recovery.nextBatchId := by
  have hmem : b.id ∈ j.queued.map UpdateBatch.id := List.mem_map_of_mem hb
  rw [h.ids] at hmem
  exact List.mem_range.mp hmem

theorem obsolete_eq (h : Inv j) (now : Nat → Nat) : j.recovery.obsolete now = j.outdated now := by
  funext b
  show ((j.recovery.obsolescenceWindows.lookup b.dataType).map _).getD false = _
  rw [h.windows, outdated]
  cases j.windows.lookup b.dataType <;> rfl

theorem mem_items (h : Inv j) {b : UpdateBatch} : b ∈ j.recovery.items ↔ b ∈ j.pending := by
  refine Lanes.mem_items.trans ⟨?_, fun hb => ⟨b.qosClass, QoSClass.mem_allByPriority _, ?_⟩⟩
  · rintro ⟨c, _, hc⟩
    rw [h.lanes c] at hc
    exact (List.mem_filter.mp hc).1
  · rw [h.lanes]
    exact List.mem_filter.mpr ⟨hb, by simp⟩

end Inv

variable {j : RecoveryJournal}

theorem Inv.queue (h : Inv j) (data : List UInt8) (dataType : DataType) (qosClass : QoSClass)
    (createdAt : Nat) :
    Inv (j.noteQueued data dataType qosClass createdAt
      (j.recovery.queueUpdateWithTime data dataType qosClass createdAt).2) := by
  -- the id is new, so the batch was neither filtered nor taken before
  have hnew : ∀ l : List UpdateBatch, (∀ b ∈ l, b ∈ j.queued) →
      j.recovery.nextBatch data dataType qosClass createdAt ∉ l := by
    intro l hl hmem
    exact absurd (h.id_lt (hl _ hmem)) (Nat.lt_irrefl _)
  have hremoved := hnew j.removed fun b hb => h.gone b (.inl hb)
  have htaken := hnew j.taken fun b hb => h.gone b (.inr hb)
  have hpending : ∀ s, (j.noteQueued data dataType qosClass createdAt s).pending =
      j.pending ++ [j.recovery.nextBatch data dataType qosClass createdAt] := by
    intro s
    show List.filter _ (j.queued ++ [_]) = _
    rw [List.filter_append]
    congr 1
    rw [List.filter_cons_of_pos]
    · rfl
    · simp [noteQueued, hremoved, htaken]
  constructor
  · exact h.windows
  · intro c
    rw [hpending, List.filter_append]
    show Function.update j.recovery.queuedUpdates qosClass _ c = _
    by_cases hc : c = qosClass
    · subst hc
      rw [Function.update_self, h.lanes c]
      simp [nextBatch]
    · rw [Function.update_of_ne hc, h.lanes c]
      simp [nextBatch, Ne.symm hc]
  · show List.map _ (j.queued ++ [_]) = List.range (j.recovery.nextBatchId + 1)
    rw [List.map_append, h.ids, List.range_succ]
    rfl
  · exact fun b hb => List.mem_append_left _ (h.gone b hb)
  · have hperm := Lanes.items_pushBack (l := j.recovery.queuedUpdates) QoSClass.nodup_allByPriority
      (QoSClass.mem_allByPriority qosClass) (j.recovery.nextBatch data dataType qosClass createdAt)
    have hsum := UpdateBatch.bytes_perm hperm
    rw [UpdateBatch.bytes_cons] at hsum
    have hold := h.bytes
    refine Eq.trans ?_ hsum.symm
    show j.recovery.totalBytes + UpdateBatch.size _ = _ + UpdateBatch.bytes j.recovery.items
    omega
  · exact h.filtered

theorem obsoleteItems_append (s : SyncRecovery) (now : Nat → Nat) :
    s.items.Perm (s.obsoleteItems now ++ (s.applyObsolescenceFilter now).2.items) := by
  refine List.Perm.trans ?_ (List.flatMap_append_perm _ _ _).symm
  exact List.Perm.flatMap_left _ fun c _ => (List.filter_append_perm _ _).symm

theorem mem_obsoleteItems {s : SyncRecovery} {now : Nat → Nat} {b : UpdateBatch} :
    b ∈ s.obsoleteItems now ↔ b ∈ s.items ∧ s.obsolete now b = true := by
  unfold obsoleteItems SyncRecovery.items Lanes.items
  simp only [List.mem_flatMap, List.mem_filter]
  exact ⟨fun ⟨c, hc, hb, ho⟩ => ⟨⟨c, hc, hb⟩, ho⟩, fun ⟨⟨c, hc, hb⟩, ho⟩ => ⟨c, hc, hb, ho⟩⟩

theorem Inv.nodup_lane (h : Inv j) (c : QoSClass) : (j.recovery.queuedUpdates c).Nodup := by
  rw [h.lanes c]
  exact (h.nodup_queued.filter _).filter _

theorem Inv.class_of_mem (h : Inv j) {b : UpdateBatch} {c : QoSClass}
    (hb : b ∈ j.recovery.queuedUpdates c) : b.qosClass = c := by
  rw [h.lanes c] at hb
  simpa using (List.mem_filter.mp hb).2

theorem Inv.obsoleteItems_perm (h : Inv j) (now : Nat → Nat) :
    (j.recovery.obsoleteItems now).Perm (j.pending.filter (j.outdated now)) := by
  have hnodup : (j.recovery.obsoleteItems now).Nodup := by
    refine List.nodup_flatMap.mpr ⟨fun c _ => (h.nodup_lane c).filter _, ?_⟩
    refine QoSClass.nodup_allByPriority.imp fun {c d} hne b hc hd => hne ?_
    rw [← h.class_of_mem (List.mem_filter.mp hc).1, h.class_of_mem (List.mem_filter.mp hd).1]
  refine (List.perm_ext_iff_of_nodup hnodup ((h.nodup_queued.filter _).filter _)).mpr fun b => ?_
  rw [mem_obsoleteItems, h.mem_items, h.obsolete_eq now, List.mem_filter]
  exact Iff.rfl

theorem pending_removed (j : RecoveryJournal) (s : SyncRecovery) (p : UpdateBatch → Bool) :
    RecoveryJournal.pending { j with recovery := s, removed := j.removed ++ j.pending.filter p } =
      j.pending.filter fun b => !p b := by
  show List.filter _ j.queued = List.filter _ (List.filter _ j.queued)
  rw [List.filter_filter]
  refine List.filter_congr fun b hb => ?_
  by_cases hr : b ∈ j.removed <;> by_cases ht : b ∈ j.taken <;> simp [pending, hb, hr, ht]

theorem Inv.filter (h : Inv j) (now : Nat → Nat) (flag : Bool) :
    Inv { j with
      recovery := { (j.recovery.applyObsolescenceFilter now).2 with recoveryInProgress := flag }
      removed := j.removed ++ j.pending.filter (j.outdated now) } := by
  constructor
  · exact h.windows
  · intro c
    rw [pending_removed]
    show (j.recovery.queuedUpdates c).filter _ = _
    rw [h.lanes c, h.obsolete_eq now, List.filter_comm]
  · exact h.ids
  · rintro b (hb | hb)
    · rcases List.mem_append.mp hb with hb | hb
      · exact h.gone b (.inl hb)
      · exact (List.mem_filter.mp (List.mem_filter.mp hb).1).1
    · exact h.gone b (.inr hb)
  · have hsum := UpdateBatch.bytes_perm (obsoleteItems_append j.recovery now)
    rw [UpdateBatch.bytes_append] at hsum
    have hold := h.bytes
    show j.recovery.totalBytes - _ = UpdateBatch.bytes (j.recovery.applyObsolescenceFilter now).2.items
    omega
  · show j.recovery.obsoleteFiltered + (j.recovery.obsoleteItems now).length = _
    rw [List.length_append, h.filtered, (h.obsoleteItems_perm now).length_eq]

theorem pending_taken (j : RecoveryJournal) (s : SyncRecovery) (b : UpdateBatch) :
    RecoveryJournal.pending { j with recovery := s, taken := j.taken ++ [b] } =
      j.pending.filter fun d => d != b := by
  unfold pending
  rw [List.filter_filter]
  refine List.filter_congr fun d _ => ?_
  by_cases hd : d = b <;> simp [hd]

theorem Inv.next (h : Inv j) {c : QoSClass} {b : UpdateBatch} {rest : List UpdateBatch}
    (hc : j.recovery.queuedUpdates c = b :: rest) (s : SyncRecovery)
    (hlanes : s.queuedUpdates = Function.update j.recovery.queuedUpdates c rest)
    (hbytes : s.totalBytes = j.recovery.totalBytes - b.size)
    (hitems : j.recovery.items = b :: s.items) (hid : s.nextBatchId = j.recovery.nextBatchId)
    (hfiltered : s.obsoleteFiltered = j.recovery.obsoleteFiltered)
    (hwindows : s.obsolescenceWindows = j.recovery.obsolescenceWindows) :
    Inv { j with recovery := s, taken := j.taken ++ [b] } := by
  have hmem : b ∈ j.pending := h.mem_items.mp (hitems ▸ List.mem_cons_self)
  have hclass : b.qosClass = c := h.class_of_mem (hc ▸ List.mem_cons_self)
  constructor
  · exact hwindows ▸ h.windows
  · intro d
    show s.queuedUpdates d = _
    rw [hlanes, pending_taken, List.filter_comm, ← h.lanes d, ← (h.nodup_lane d).erase_eq_filter]
    by_cases hd : d = c
    · subst hd
      rw [Function.update_self, hc, List.erase_cons_head]
    · -- the batch is not in the queue of another class
      rw [Function.update_of_ne hd, List.erase_of_not_mem]
      intro he
      exact hd ((h.class_of_mem he).symm.trans hclass)
  · show _ = List.range s.nextBatchId
    rw [hid]
    exact h.ids
  · rintro e (he | he)
    · exact h.gone e (.inl he)
    · rcases List.mem_append.mp he with he | he
      · exact h.gone e (.inr he)
      · rw [List.mem_singleton.mp he]
        exact (List.mem_filter.mp hmem).1
  · have hold := h.bytes
    rw [hitems, UpdateBatch.bytes_cons] at hold
    show s.totalBytes = UpdateBatch.bytes s.items
    omega
  · exact hfiltered.trans h.filtered

theorem Inv.take (h : Inv j) (t : Take) : Inv (j.step (.take t)) := by
  have hnothing : Inv { j with recovery := j.recovery, taken := j.taken ++ [] } := by
    rw [List.append_nil]
    exact h
  simp only [step]
  rcases j.recovery.take_cases t with ht | ht
  · rw [ht]
    exact hnothing
  · rw [ht]
    rcases j.recovery.nextRecoveryBatch_cases with ⟨hnone, _⟩ | ⟨c, b, rest, hc, hsome, hitems⟩
    · rw [hnone]
      exact hnothing
    · rw [hsome] at hitems ⊢
      exact h.next hc _ rfl rfl hitems rfl rfl rfl

theorem Inv.step (h : Inv j) (op : Op) : Inv (j.step op) := by
  cases op with
  | setObsolescence t w =>
    refine ⟨fun t' => ?_, h.lanes, h.ids, h.gone, h.bytes, h.filtered⟩
    show (j.recovery.obsolescenceWindows.insert t w).lookup t' = ((t, w) :: j.windows).lookup t'
    rw [lookup_insert_eq_ite, List.lookup_cons, h.windows]
    by_cases ht : t' = t
    · rw [if_pos ht, beq_iff_eq.mpr ht]
    · rw [if_neg ht, beq_eq_false_iff_ne.mpr ht]
  | queueUpdate d t c now => exact h.queue d t c now
  | queueUpdateWithTime d t c created => exact h.queue d t c created
  | applyObsolescenceFilter now => exact h.filter now j.recovery.recoveryInProgress
  | recoverFromPartition now => exact h.filter now true
  | take t => exact h.take t
  | completeRecovery => exact ⟨h.windows, h.lanes, h.ids, h.gone, h.bytes, h.filtered⟩

theorem inv_run (ops : List Op) : Inv (run step start ops) := by
  refine run_invariant Inv (fun _ op h => h.step op) ?_ ops
  exact ⟨fun _ => rfl, fun _ => rfl, rfl, fun _ hb => absurd hb (by simp [start]), rfl, rfl⟩

/-- What is owed to the peer: the pending batches that are not outdated, class by class. -/
def deliverable (j : RecoveryJournal) (now : Nat → Nat) : List UpdateBatch :=
  QoSClass.allByPriority.flatMap fun c =>
    j.pending.filter fun b => decide (b.qosClass = c) && !j.outdated now b

theorem Inv.items_recover (h : Inv j) (now : Nat → Nat) :
    (j.recovery.recoverFromPartition now).items = j.deliverable now := by
  refine List.flatMap_congr fun c _ => ?_
  show (j.recovery.queuedUpdates c).filter _ = _
  rw [h.lanes c, List.filter_filter]
  refine List.filter_congr fun b _ => ?_
  rw [Bool.and_comm, ← h.obsolete_eq now]
  rfl

end RecoveryJournal

end Peat.Qos
