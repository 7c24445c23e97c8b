/-
  THE PRIORITY SYNC QUEUE (qos/sync_queue.rs): five queues, one byte counter beside
  them.

  Instants and durations are nanoseconds. A `retain` pass carries the reading made for
  its k-th item. The byte counter is an atomic `usize`, so `fetch_sub` wraps.
-/
import Mathlib.Algebra.BigOperators.Group.Multiset.Defs
import Mathlib.Algebra.BigOperators.Group.List.Basic
import Mathlib.Algebra.Order.Group.Nat
import Mathlib.Algebra.Field.Rat
import Peat.Lib.Lanes
import Peat.Lib.Rounding
import Peat.Lib.Run
import Peat.Schema
import Peat.Qos.Classification

namespace Peat.Qos

open Peat.Lib

/-! ## 1. Items and their aging -/

structure PendingSync where
  data : List UInt8
  qosClass : QoSClass
  dataType : DataType
  queuedAt : Nat
  priorityMultiplier : ℚ
  deriving DecidableEq

namespace PendingSync

def queueDuration (x : PendingSync) (now : Nat) : Nat := now - x.queuedAt

/-- The hours in the queue times the multiplier, in `f32` from `as_secs_f32` on. -/
def adjustedHours (x : PendingSync) (now : Nat) : ℚ :=
  let secs : Nat := x.queueDuration now / 1000000000
  let nanos : Nat := x.queueDuration now % 1000000000
  let asSecs := roundF32 (roundF32 secs + roundF32 (roundF32 nanos / 1000000000))
  roundF32 (roundF32 (asSecs / 3600) * x.priorityMultiplier)

def effectiveClass (x : PendingSync) (now : Nat) : QoSClass :=
  match x.qosClass with
  | .bulk => if 1 ≤ x.adjustedHours now then .low else .bulk
  | .low => if 2 ≤ x.adjustedHours now then .normal else .low
  | other => other

def shouldPromote (x : PendingSync) (now : Nat) : Bool := x.effectiveClass now != x.qosClass

def setClass (c : QoSClass) (x : PendingSync) : PendingSync := { x with qosClass := c }

def size (x : PendingSync) : Nat := x.data.length

end PendingSync

def QoSClass.Promotes : QoSClass → QoSClass → Prop
  | .bulk, .low => True
  | .bulk, .normal => True
  | .low, .normal => True
  | a, b => a = b

/-- The same entry, of a higher class. -/
structure Aged (x y : PendingSync) : Prop where
  same : y = { x with qosClass := y.qosClass }
  promotes : x.qosClass.Promotes y.qosClass

namespace Aged

theorem refl (x : PendingSync) : Aged x x := ⟨rfl, by cases x.qosClass <;> trivial⟩

theorem trans {x y z : PendingSync} (h : Aged x y) (h' : Aged y z) : Aged x z := by
  refine ⟨?_, ?_⟩
  · rw [h'.same, h.same]
  · have h1 := h.promotes
    have h2 := h'.promotes
    revert h1 h2
    generalize x.qosClass = a
    generalize y.qosClass = b
    generalize z.qosClass = c
    cases a <;> cases b <;> cases c <;> simp [QoSClass.Promotes]

instance : IsTrans PendingSync Aged := ⟨fun _ _ _ => trans⟩

theorem size_eq {x y : PendingSync} (h : Aged x y) : x.size = y.size := by
  rw [h.same]
  rfl

theorem of_effectiveClass (x : PendingSync) (now : Nat) :
    Aged x (x.setClass (x.effectiveClass now)) := by
  refine ⟨rfl, ?_⟩
  show x.qosClass.Promotes (x.effectiveClass now)
  unfold PendingSync.effectiveClass
  cases x.qosClass with
  | critical => rfl
  | high => rfl
  | normal => rfl
  | low =>
    dsimp only
    split <;> trivial
  | bulk =>
    dsimp only
    split <;> trivial

end Aged

def bytes (l : List PendingSync) : Nat := (l.map PendingSync.size).sum

@[simp] theorem bytes_append (l r : List PendingSync) : bytes (l ++ r) = bytes l + bytes r := by
  simp [bytes]

variable {l r : List PendingSync}

theorem bytes_of_aged (h : Multiset.Rel Aged (l : Multiset PendingSync) r) : bytes l = bytes r := by
  have hmap : (l : Multiset PendingSync).map PendingSync.size
      = (r : Multiset PendingSync).map PendingSync.size :=
    Multiset.rel_eq.mp (Multiset.rel_map.mpr (h.mono fun _ _ _ _ => Aged.size_eq))
  have hsum := congrArg Multiset.sum hmap
  rwa [Multiset.map_coe, Multiset.map_coe, Multiset.sum_coe, Multiset.sum_coe] at hsum

theorem aged_refl (l : Multiset PendingSync) : Multiset.Rel Aged l l :=
  Multiset.rel_refl_of_refl_on fun x _ => Aged.refl x

theorem aged_of_perm (h : l.Perm r) : Multiset.Rel Aged (l : Multiset PendingSync) r := by
  rw [Multiset.coe_eq_coe.mpr h]
  exact aged_refl _

/-! ## 2. The queue and its operations -/

def usizeSize : Nat := 18446744073709551616

def fetchSub (current n : Nat) : Nat := (current + (usizeSize - n % usizeSize)) % usizeSize

theorem fetchSub_eq {current n : Nat} (hn : n ≤ current) (hc : current < usizeSize) :
    fetchSub current n = current - n := by
  unfold fetchSub usizeSize at *
  omega

structure PrioritySyncQueue where
  queues : Lanes QoSClass PendingSync
  totalBytes : Nat
  maxBytes : Fin usizeSize
  agingPromotions : Nat

namespace PrioritySyncQueue

def new (maxBytes : Fin usizeSize) : PrioritySyncQueue := ⟨fun _ => [], 0, maxBytes, 0⟩

def items (q : PrioritySyncQueue) : List PendingSync := Lanes.items QoSClass.allByPriority q.queues

def totalBytesQueued (q : PrioritySyncQueue) : Nat := q.totalBytes

def totalItems (q : PrioritySyncQueue) : Nat :=
  (QoSClass.allByPriority.map fun c => (q.queues c).length).sum

def queueFull (currentBytes size maxBytes : Nat) : Error :=
  .internal s!"Queue full: {currentBytes} + {size} > {maxBytes} bytes"

def accept (q : PrioritySyncQueue) (sync : PendingSync) : PrioritySyncQueue :=
  { q with
    queues := Lanes.pushBack q.queues sync.qosClass sync
    totalBytes := q.totalBytes + sync.size }

def enqueue (q : PrioritySyncQueue) (sync : PendingSync) : Except Error Unit × PrioritySyncQueue :=
  if q.totalBytes + sync.size > q.maxBytes then
    (.error (queueFull q.totalBytes sync.size q.maxBytes), q)
  else
    (.ok (), q.accept sync)

def dequeueHighest (q : PrioritySyncQueue) : Option PendingSync × PrioritySyncQueue :=
  match Lanes.popFirst QoSClass.allByPriority q.queues with
  | none => (none, q)
  | some (sync, queues) =>
    (some sync, { q with queues := queues, totalBytes := fetchSub q.totalBytes sync.size })

def peekHighest (q : PrioritySyncQueue) : Option PendingSync :=
  Lanes.peekFirst QoSClass.allByPriority q.queues

def promotes (dst : QoSClass) (clock : Nat × Nat) (sync : PendingSync) : Bool :=
  sync.shouldPromote clock.1 && sync.effectiveClass clock.2 == dst

/-- One half of `apply_aging`: the items of `src` that have aged enough move to the end of `dst`. -/
def promotePass (src dst : QoSClass) (clock : Nat → Nat × Nat) (q : PrioritySyncQueue) :
    Nat × PrioritySyncQueue :=
  let toPromote := removed (fun k sync => !promotes dst (clock k) sync) (q.queues src)
  let rest := kept (fun k sync => !promotes dst (clock k) sync) (q.queues src)
  let queues := toPromote.foldl
    (fun queues sync => Lanes.pushBack queues dst (sync.setClass dst))
    (Function.update q.queues src rest)
  (toPromote.length, { q with queues := queues })

def applyAging (bulkClock lowClock : Nat → Nat × Nat) (q : PrioritySyncQueue) :
    Nat × PrioritySyncQueue :=
  let bulk := q.promotePass .bulk .low bulkClock
  let low := bulk.2.promotePass .low .normal lowClock
  let promoted := bulk.1 + low.1
  if promoted > 0 then
    (promoted, { low.2 with agingPromotions := low.2.agingPromotions + promoted })
  else
    (promoted, low.2)

def clear (q : PrioritySyncQueue) : PrioritySyncQueue :=
  { q with queues := fun _ => [], totalBytes := 0 }

def drainClass (q : PrioritySyncQueue) (c : QoSClass) : List PendingSync × PrioritySyncQueue :=
  (q.queues c, { q with
    queues := Function.update q.queues c []
    totalBytes := fetchSub q.totalBytes (bytes (q.queues c)) })

def fresh (maxAge : Nat) (clock : Nat → Nat) (k : Nat) (sync : PendingSync) : Bool :=
  sync.queueDuration (clock k) < maxAge

def stale (q : PrioritySyncQueue) (maxAge : Nat) (clock : QoSClass → Nat → Nat) : List PendingSync :=
  QoSClass.allByPriority.flatMap fun c => removed (fresh maxAge (clock c)) (q.queues c)

def removeStale (q : PrioritySyncQueue) (maxAge : Nat) (clock : QoSClass → Nat → Nat) :
    Nat × PrioritySyncQueue :=
  let bytesRemoved := bytes (q.stale maxAge clock)
  ((q.stale maxAge clock).length,
    { q with
      queues := fun c => kept (fresh maxAge (clock c)) (q.queues c)
      totalBytes := if bytesRemoved > 0 then fetchSub q.totalBytes bytesRemoved else q.totalBytes })

def dequeueBatch : Nat → PrioritySyncQueue → List PendingSync × PrioritySyncQueue
  | 0, q => ([], q)
  | n + 1, q =>
    match q.dequeueHighest with
    | (none, q') => ([], q')
    | (some sync, q') => (sync :: (dequeueBatch n q').1, (dequeueBatch n q').2)

def wouldExceed (maxBytes total : Nat) (q : PrioritySyncQueue) : Bool :=
  match q.peekHighest with
  | some peek => total + peek.size > maxBytes
  | none => false

def dequeueBytesLoop (maxBytes : Nat) :
    Nat → List PendingSync → Nat → PrioritySyncQueue → List PendingSync × PrioritySyncQueue
  | 0, batch, _, q => (batch, q)
  | fuel + 1, batch, total, q =>
    if total < maxBytes then
      if wouldExceed maxBytes total q && !batch.isEmpty then (batch, q)
      else
        match q.dequeueHighest with
        | (some sync, q') => dequeueBytesLoop maxBytes fuel (batch ++ [sync]) (total + sync.size) q'
        | (none, q') => (batch, q')
    else (batch, q)

def dequeueBytes (q : PrioritySyncQueue) (maxBytes : Nat) : List PendingSync × PrioritySyncQueue :=
  dequeueBytesLoop maxBytes (q.totalItems + 1) [] 0 q

/-! ## 3. What an operation can do -/

/-- Every queue holds entries of its own class. -/
def Sorted (q : PrioritySyncQueue) : Prop := ∀ c, ∀ x ∈ q.queues c, x.qosClass = c

def Accurate (q : PrioritySyncQueue) : Prop :=
  q.totalBytes = bytes q.items ∧ q.totalBytes ≤ q.maxBytes

/-- **What an operation that accepts nothing does**: `out` leaves, the rest stays, perhaps aged. -/
structure Effect (q : PrioritySyncQueue) (out : List PendingSync) (q' : PrioritySyncQueue) : Prop where
  moved : Multiset.Rel Aged (q.items : Multiset PendingSync) ↑(out ++ q'.items)
  sorted : q.Sorted → q'.Sorted
  accurate : q.Accurate → q'.totalBytes = bytes q'.items
  capacity : q'.maxBytes = q.maxBytes

namespace Effect

variable {q q₁ q₂ : PrioritySyncQueue} {out out' : List PendingSync}

theorem refl (q : PrioritySyncQueue) : Effect q [] q := ⟨aged_refl _, id, fun h => h.1, rfl⟩

theorem bytes_eq (h : Effect q out q₁) : bytes q.items = bytes out + bytes q₁.items := by
  rw [bytes_of_aged h.moved, bytes_append]

theorem accurate_after (h : Effect q out q₁) (ha : q.Accurate) : q₁.Accurate := by
  have hsum := h.bytes_eq
  have hcount := h.accurate ha
  refine ⟨hcount, ?_⟩
  have hle := ha.2
  rw [ha.1] at hle
  rw [hcount, h.capacity]
  omega

theorem trans (h : Effect q out q₁) (h' : Effect q₁ out' q₂) : Effect q (out ++ out') q₂ := by
  refine ⟨?_, h'.sorted ∘ h.sorted, fun ha => h'.accurate (h.accurate_after ha),
    h'.capacity.trans h.capacity⟩
  have hrest : Multiset.Rel Aged (↑(out ++ q₁.items) : Multiset PendingSync)
      ↑(out ++ (out' ++ q₂.items)) := by
    rw [← Multiset.coe_add, ← Multiset.coe_add]
    exact (aged_refl _).add h'.moved
  rw [List.append_assoc]
  exact h.moved.trans Aged hrest

theorem of_perm (hperm : q.items.Perm (out ++ q₁.items)) (hsub : ∀ c, q₁.queues c ⊆ q.queues c)
    (hcount : q.Accurate → q₁.totalBytes = q.totalBytes - bytes out)
    (hcap : q₁.maxBytes = q.maxBytes) : Effect q out q₁ := by
  refine ⟨aged_of_perm hperm, fun hs c x hx => hs c x (hsub c hx), fun ha => ?_, hcap⟩
  have hsum : bytes q.items = bytes out + bytes q₁.items := by
    rw [bytes_of_aged (aged_of_perm hperm), bytes_append]
  rw [hcount ha, ha.1]
  omega

end Effect

theorem fetchSub_of_accurate {q : PrioritySyncQueue} {out rest : List PendingSync}
    (ha : q.Accurate) (h : q.items.Perm (out ++ rest)) :
    fetchSub q.totalBytes (bytes out) = q.totalBytes - bytes out := by
  have hsum := bytes_of_aged (aged_of_perm h)
  rw [bytes_append] at hsum
  have hmax := q.maxBytes.isLt
  have hle := ha.2
  refine fetchSub_eq ?_ (by omega)
  rw [ha.1]
  omega

variable (q : PrioritySyncQueue)

theorem dequeueHighest_cases :
    (q.dequeueHighest = (none, q) ∧ q.items = []) ∨
      ∃ sync q', q.dequeueHighest = (some sync, q') ∧ q.items = sync :: q'.items ∧
        Effect q [sync] q' := by
  unfold dequeueHighest
  cases h : Lanes.popFirst QoSClass.allByPriority q.queues with
  | none => exact .inl ⟨rfl, Lanes.popFirst_eq_none.mp h⟩
  | some p =>
    obtain ⟨sync, queues⟩ := p
    have hitems := Lanes.items_popFirst QoSClass.nodup_allByPriority h
    refine .inr ⟨sync, _, rfl, hitems, Effect.of_perm ?_ ?_ ?_ rfl⟩
    · exact List.Perm.of_eq hitems
    · exact fun c => (Lanes.popFirst_lane h c).subset
    · intro ha
      have hbytes : sync.size = bytes [sync] := (Nat.add_zero _).symm
      show fetchSub q.totalBytes sync.size = _
      rw [hbytes]
      have hperm : q.items.Perm ([sync] ++ Lanes.items QoSClass.allByPriority queues) :=
        List.Perm.of_eq hitems
      exact fetchSub_of_accurate ha hperm

theorem dequeueBatch_effect (n : Nat) (q : PrioritySyncQueue) :
    Effect q (q.dequeueBatch n).1 (q.dequeueBatch n).2 := by
  induction n generalizing q with
  | zero => exact Effect.refl q
  | succ n ih =>
    rcases q.dequeueHighest_cases with ⟨hnone, _⟩ | ⟨sync, q', hsome, _, he⟩
    · simp only [dequeueBatch, hnone]
      exact Effect.refl q
    · simp only [dequeueBatch, hsome]
      exact he.trans (ih q')

theorem dequeueBytesLoop_cases (maxBytes fuel : Nat) (batch : List PendingSync) (total : Nat) :
    (dequeueBytesLoop maxBytes (fuel + 1) batch total q = (batch, q) ∧ (maxBytes ≤ total ∨
      (wouldExceed maxBytes total q && !batch.isEmpty) = true ∨ q.items = [])) ∨
    ∃ sync q', q.dequeueHighest = (some sync, q') ∧ q.items = sync :: q'.items ∧ Effect q [sync] q' ∧
      ¬ (wouldExceed maxBytes total q && !batch.isEmpty) = true ∧
      dequeueBytesLoop maxBytes (fuel + 1) batch total q =
        dequeueBytesLoop maxBytes fuel (batch ++ [sync]) (total + sync.size) q' := by
  by_cases htotal : total < maxBytes
  · by_cases hpeek : (wouldExceed maxBytes total q && !batch.isEmpty) = true
    · refine .inl ⟨?_, .inr (.inl hpeek)⟩
      simp only [dequeueBytesLoop, if_pos htotal, if_pos hpeek]
    · rcases q.dequeueHighest_cases with ⟨hnone, hnil⟩ | ⟨sync, q', hsome, hitems, he⟩
      · refine .inl ⟨?_, .inr (.inr hnil)⟩
        simp only [dequeueBytesLoop, if_pos htotal, if_neg hpeek, hnone]
      · refine .inr ⟨sync, q', hsome, hitems, he, hpeek, ?_⟩
        simp only [dequeueBytesLoop, if_pos htotal, if_neg hpeek, hsome]
  · refine .inl ⟨?_, .inl (Nat.le_of_not_lt htotal)⟩
    simp only [dequeueBytesLoop, if_neg htotal]

theorem dequeueBytesLoop_effect (maxBytes fuel : Nat) (batch : List PendingSync) (total : Nat)
    (q : PrioritySyncQueue) :
    ∃ out, (dequeueBytesLoop maxBytes fuel batch total q).1 = batch ++ out ∧
      Effect q out (dequeueBytesLoop maxBytes fuel batch total q).2 := by
  induction fuel generalizing batch total q with
  | zero => exact ⟨[], (List.append_nil _).symm, Effect.refl q⟩
  | succ fuel ih =>
    rcases q.dequeueBytesLoop_cases maxBytes fuel batch total with
      ⟨hstop, _⟩ | ⟨sync, q', _, _, he, _, hround⟩
    · rw [hstop]
      exact ⟨[], (List.append_nil _).symm, Effect.refl q⟩
    · rw [hround]
      obtain ⟨out, hout, hrest⟩ := ih (batch ++ [sync]) (total + sync.size) q'
      refine ⟨sync :: out, ?_, he.trans hrest⟩
      rw [hout, List.append_assoc]
      rfl

theorem dequeueBytesLoop_ends {fuel : Nat} {q : PrioritySyncQueue} (h : q.items.length < fuel)
    (maxBytes : Nat) (batch : List PendingSync) (total : Nat) :
    dequeueBytesLoop maxBytes (fuel + 1) batch total q = dequeueBytesLoop maxBytes fuel batch total q := by
  induction fuel generalizing batch total q with
  | zero => omega
  | succ fuel ih =>
    rcases q.dequeueHighest_cases with ⟨hnone, _⟩ | ⟨sync, q', hsome, hitems, _⟩
    · simp only [dequeueBytesLoop, hnone]
    · have hlen : q'.items.length < fuel := by
        rw [hitems, List.length_cons] at h
        omega
      rw [dequeueBytesLoop.eq_2, dequeueBytesLoop.eq_2, hsome]
      simp only [ih hlen]

theorem length_items : q.items.length = q.totalItems :=
  List.length_flatMap

theorem dequeueBytes_ends (maxBytes more : Nat) :
    dequeueBytesLoop maxBytes (q.totalItems + 1 + more) [] 0 q = q.dequeueBytes maxBytes := by
  induction more with
  | zero => rfl
  | succ more ih =>
    rw [← ih]
    refine dequeueBytesLoop_ends ?_ maxBytes [] 0
    have hlen := q.length_items
    show _ < q.totalItems + 1 + more
    omega

theorem dequeueBytes_effect (maxBytes : Nat) :
    Effect q (q.dequeueBytes maxBytes).1 (q.dequeueBytes maxBytes).2 := by
  obtain ⟨out, hout, he⟩ := dequeueBytesLoop_effect maxBytes (q.totalItems + 1) [] 0 q
  unfold dequeueBytes
  rw [hout]
  exact he

theorem drainClass_effect (c : QoSClass) : Effect q (q.drainClass c).1 (q.drainClass c).2 := by
  have hperm : q.items.Perm (q.queues c ++ (q.drainClass c).2.items) := by
    refine Lanes.items_split QoSClass.nodup_allByPriority (QoSClass.mem_allByPriority c) ?_
    rw [List.append_nil]
  refine Effect.of_perm hperm (fun d x hx => ?_) (fun ha => fetchSub_of_accurate ha hperm) rfl
  by_cases hd : d = c
  · subst hd
    have hx' : x ∈ Function.update q.queues d [] d := hx
    rw [Function.update_self] at hx'
    cases hx'
  · have hx' : x ∈ Function.update q.queues c [] d := hx
    rwa [Function.update_of_ne hd] at hx'

theorem removeStale_effect (maxAge : Nat) (clock : QoSClass → Nat → Nat) :
    Effect q (q.stale maxAge clock) (q.removeStale maxAge clock).2 := by
  have hperm : q.items.Perm (q.stale maxAge clock ++ (q.removeStale maxAge clock).2.items) := by
    refine List.Perm.trans ?_ (List.flatMap_append_perm _ _ _).symm
    exact List.Perm.flatMap_left _ fun c _ => removed_append_kept _ _
  refine Effect.of_perm hperm (fun c => (kept_sublist _ _).subset) (fun ha => ?_) rfl
  by_cases hb : bytes (q.stale maxAge clock) > 0
  · simp only [removeStale, if_pos hb]
    exact fetchSub_of_accurate ha hperm
  · simp only [removeStale, if_neg hb]
    omega

theorem clear_effect : Effect q q.items q.clear := by
  have hperm : q.items.Perm (q.items ++ q.clear.items) := by
    rw [show q.clear.items = [] from rfl, List.append_nil]
  refine Effect.of_perm hperm (fun c => List.nil_subset _) (fun ha => ?_) rfl
  show 0 = q.totalBytes - bytes q.items
  rw [ha.1, Nat.sub_self]

/-! ## 4. Aging -/

theorem aged_of_promotes {dst : QoSClass} {clock : Nat × Nat} {x : PendingSync}
    (h : promotes dst clock x = true) : Aged x (x.setClass dst) := by
  have hclass : x.effectiveClass clock.2 = dst :=
    beq_iff_eq.mp (Bool.and_eq_true_iff.mp h).2
  rw [← hclass]
  exact Aged.of_effectiveClass x clock.2

theorem promotes_of_mem_removed {dst : QoSClass} {clock : Nat → Nat × Nat} {l : List PendingSync}
    {x : PendingSync} (h : x ∈ removed (fun k sync => !promotes dst (clock k) sync) l) :
    ∃ k, promotes dst (clock k) x = true := by
  obtain ⟨⟨y, k⟩, hk, rfl⟩ := List.mem_map.mp h
  exact ⟨k, by simpa using (List.mem_filter.mp hk).2⟩

theorem promotePass_effect (src dst : QoSClass) (clock : Nat → Nat × Nat) (q : PrioritySyncQueue) :
    Effect q [] (q.promotePass src dst clock).2 := by
  -- the pass cuts the lane of `src` in two and appends one part, promoted, to the lane of `dst`
  obtain ⟨stay, go, hsplit, hsub, haged, hqueues⟩ : ∃ stay go, (q.queues src).Perm (go ++ stay) ∧
      stay ⊆ q.queues src ∧ (∀ x ∈ go, Aged x (x.setClass dst)) ∧
      (q.promotePass src dst clock).2.queues = Function.update (Function.update q.queues src stay) dst
        (Function.update q.queues src stay dst ++ go.map (PendingSync.setClass dst)) := by
    refine ⟨_, _, removed_append_kept (fun k sync => !promotes dst (clock k) sync) (q.queues src),
      (kept_sublist _ _).subset, fun x hx => ?_, Lanes.foldl_pushBack _ _ _ _⟩
    obtain ⟨k, hk⟩ := promotes_of_mem_removed hx
    exact aged_of_promotes hk
  have hout := Lanes.items_split QoSClass.nodup_allByPriority (QoSClass.mem_allByPriority src) hsplit
  have hin : (q.promotePass src dst clock).2.items.Perm (go.map (PendingSync.setClass dst) ++
      Lanes.items QoSClass.allByPriority (Function.update q.queues src stay)) := by
    unfold items
    rw [hqueues]
    exact Lanes.items_append QoSClass.nodup_allByPriority (QoSClass.mem_allByPriority dst) _
  have hpromoted : Multiset.Rel Aged (go : Multiset PendingSync)
      ↑(go.map (PendingSync.setClass dst)) := by
    rw [← Multiset.map_coe]
    exact Multiset.rel_map_right.mpr (Multiset.rel_refl_of_refl_on haged)
  have hmoved : Multiset.Rel Aged (q.items : Multiset PendingSync)
      (q.promotePass src dst clock).2.items := by
    rw [Multiset.coe_eq_coe.mpr hin, show (q.items : Multiset PendingSync) = _ from
      Multiset.coe_eq_coe.mpr hout, ← Multiset.coe_add, ← Multiset.coe_add]
    exact hpromoted.add (aged_refl _)
  refine ⟨hmoved, fun hs c x hx => ?_, fun ha => ha.1.trans (bytes_of_aged hmoved), rfl⟩
  rw [hqueues] at hx
  rcases Lanes.mem_update_append hx with hx | ⟨rfl, hx⟩
  · by_cases hc : c = src
    · subst hc
      rw [Function.update_self] at hx
      exact hs c x (hsub hx)
    · rw [Function.update_of_ne hc] at hx
      exact hs c x hx
  · obtain ⟨y, _, rfl⟩ := List.mem_map.mp hx
    rfl

theorem Effect.promoted {q q' : PrioritySyncQueue} (h : Effect q [] q') (agingPromotions : Nat) :
    Effect q [] { q' with agingPromotions } :=
  ⟨h.moved, h.sorted, h.accurate, h.capacity⟩

theorem applyAging_effect (bulkClock lowClock : Nat → Nat × Nat) (q : PrioritySyncQueue) :
    Effect q [] (q.applyAging bulkClock lowClock).2 := by
  have hbulk := promotePass_effect .bulk .low bulkClock q
  have hboth : Effect q [] ((q.promotePass .bulk .low bulkClock).2.promotePass .low .normal lowClock).2 :=
    hbulk.trans (promotePass_effect .low .normal lowClock _)
  unfold applyAging
  dsimp only
  split
  · exact hboth.promoted _
  · exact hboth

/-! ## 5. Runs -/

inductive Op where
  | enqueue (sync : PendingSync)
  | dequeueHighest
  | dequeueBatch (maxItems : Nat)
  | dequeueBytes (maxBytes : Nat)
  | applyAging (bulkClock lowClock : Nat → Nat × Nat)
  | drainClass (c : QoSClass)
  | removeStale (maxAge : Nat) (clock : QoSClass → Nat → Nat)
  | clear

end PrioritySyncQueue

/-- The queue, and the entries that came in and went out. -/
structure SyncJournal where
  queue : PrioritySyncQueue
  accepted : List PendingSync
  left : List PendingSync

namespace SyncJournal

open PrioritySyncQueue

def start (maxBytes : Fin usizeSize) : SyncJournal := ⟨.new maxBytes, [], []⟩

def leave (j : SyncJournal) (out : List PendingSync) (q : PrioritySyncQueue) : SyncJournal :=
  { j with queue := q, left := j.left ++ out }

def step (j : SyncJournal) : Op → SyncJournal
  | .enqueue sync =>
    match j.queue.enqueue sync with
    | (.ok _, q) => { j with queue := q, accepted := j.accepted ++ [sync] }
    | (.error _, q) => { j with queue := q }
  | .dequeueHighest => j.leave j.queue.dequeueHighest.1.toList j.queue.dequeueHighest.2
  | .dequeueBatch n => j.leave (j.queue.dequeueBatch n).1 (j.queue.dequeueBatch n).2
  | .dequeueBytes n => j.leave (j.queue.dequeueBytes n).1 (j.queue.dequeueBytes n).2
  | .applyAging b l => j.leave [] (j.queue.applyAging b l).2
  | .drainClass c => j.leave (j.queue.drainClass c).1 (j.queue.drainClass c).2
  | .removeStale a t => j.leave (j.queue.stale a t) (j.queue.removeStale a t).2
  | .clear => j.leave j.queue.items j.queue.clear

structure Inv (maxBytes : Fin usizeSize) (j : SyncJournal) : Prop where
  sorted : j.queue.Sorted
  accurate : j.queue.Accurate
  capacity : j.queue.maxBytes = maxBytes
  conserved : Multiset.Rel Aged (j.accepted : Multiset PendingSync) ↑(j.queue.items ++ j.left)

variable {maxBytes : Fin usizeSize} {j : SyncJournal}

variable {q : PrioritySyncQueue}

theorem Inv.leave (h : Inv maxBytes j) {out : List PendingSync} (he : Effect j.queue out q) :
    Inv maxBytes (j.leave out q) := by
  refine ⟨he.sorted h.sorted, he.accurate_after h.accurate, he.capacity.trans h.capacity, ?_⟩
  have hmoved : Multiset.Rel Aged (↑(j.queue.items ++ j.left) : Multiset PendingSync)
      ↑(q.items ++ (j.left ++ out)) := by
    have hperm : (q.items ++ (j.left ++ out)).Perm (out ++ q.items ++ j.left) := by
      rw [← List.append_assoc]
      refine List.perm_append_comm.trans ?_
      rw [List.append_assoc]
    rw [Multiset.coe_eq_coe.mpr hperm, ← Multiset.coe_add, ← Multiset.coe_add]
    exact he.moved.add (aged_refl _)
  exact h.conserved.trans Aged hmoved

theorem enqueue_cases (q : PrioritySyncQueue) (sync : PendingSync) :
    q.enqueue sync = (.error (queueFull q.totalBytes sync.size q.maxBytes), q) ∨
      q.totalBytes + sync.size ≤ q.maxBytes ∧ q.enqueue sync = (.ok (), q.accept sync) := by
  unfold enqueue
  by_cases h : q.totalBytes + sync.size > q.maxBytes
  · exact .inl (if_pos h)
  · exact .inr ⟨by omega, if_neg h⟩

theorem items_accept (q : PrioritySyncQueue) (sync : PendingSync) :
    (q.accept sync).items.Perm (sync :: q.items) :=
  Lanes.items_pushBack QoSClass.nodup_allByPriority (QoSClass.mem_allByPriority _) sync

theorem sorted_accept (h : q.Sorted) (sync : PendingSync) : (q.accept sync).Sorted := by
  intro c x hx
  rcases Lanes.mem_update_append hx with hold | ⟨rfl, hnew⟩
  · exact h c x hold
  · rw [List.mem_singleton.mp hnew]

theorem accurate_accept (h : q.Accurate) {sync : PendingSync}
    (hfit : q.totalBytes + sync.size ≤ q.maxBytes) : (q.accept sync).Accurate := by
  refine ⟨?_, hfit⟩
  have hsum := bytes_of_aged (aged_of_perm (items_accept q sync))
  have hcons : bytes (sync :: q.items) = sync.size + bytes q.items := rfl
  have hold := h.1
  show q.totalBytes + sync.size = bytes (q.accept sync).items
  omega

theorem Inv.enqueue (h : Inv maxBytes j) (sync : PendingSync) :
    Inv maxBytes (j.step (.enqueue sync)) := by
  rcases enqueue_cases j.queue sync with he | ⟨hfit, he⟩
  · simp only [step, he]
    exact h
  · simp only [step, he]
    refine ⟨sorted_accept h.sorted sync, accurate_accept h.accurate hfit, h.capacity, ?_⟩
    have hperm : ((j.queue.accept sync).items ++ j.left).Perm (j.queue.items ++ j.left ++ [sync]) :=
      ((items_accept _ _).append_right _).trans (List.perm_append_singleton _ _).symm
    rw [Multiset.coe_eq_coe.mpr hperm, ← Multiset.coe_add, ← Multiset.coe_add]
    exact h.conserved.add (aged_refl _)

theorem Inv.step (h : Inv maxBytes j) (op : Op) : Inv maxBytes (j.step op) := by
  cases op with
  | enqueue sync => exact h.enqueue sync
  | dequeueHighest =>
    rcases j.queue.dequeueHighest_cases with ⟨hnone, _⟩ | ⟨sync, q', hsome, _, he⟩
    · simp only [SyncJournal.step, hnone]
      exact h.leave (Effect.refl _)
    · simp only [SyncJournal.step, hsome]
      exact h.leave he
  | dequeueBatch n => exact h.leave (dequeueBatch_effect n _)
  | dequeueBytes n => exact h.leave (dequeueBytes_effect _ n)
  | applyAging b l => exact h.leave (applyAging_effect b l _)
  | drainClass c => exact h.leave (drainClass_effect _ c)
  | removeStale a t => exact h.leave (removeStale_effect _ a t)
  | clear => exact h.leave (clear_effect _)

theorem inv_start (maxBytes : Fin usizeSize) : Inv maxBytes (start maxBytes) :=
  ⟨fun _ _ hx => absurd hx List.not_mem_nil, ⟨rfl, Nat.zero_le _⟩, rfl, Multiset.Rel.zero⟩

theorem inv_run (maxBytes : Fin usizeSize) (ops : List Op) :
    Inv maxBytes (run step (start maxBytes) ops) :=
  run_invariant (Inv maxBytes) (fun _ op h => h.step op) (inv_start maxBytes) ops

/-- **The sync queue over every run**: the counter is the sum of the queued sizes and within the capacity,
    every item sits in the queue of its class, and the accepted items are, up to aging, the queued ones and
    those that left. -/
theorem syncQueue_run (maxBytes : Fin usizeSize) (ops : List Op) :
    let j := run step (start maxBytes) ops
    j.queue.totalBytesQueued = bytes j.queue.items ∧ j.queue.totalBytesQueued ≤ maxBytes ∧
      (∀ c, ∀ x ∈ j.queue.queues c, x.qosClass = c) ∧
      (∀ sync e, (j.queue.enqueue sync).1 = .error e → (j.queue.enqueue sync).2 = j.queue) ∧
      Multiset.Rel Aged (j.accepted : Multiset PendingSync) ↑(j.queue.items ++ j.left) := by
  intro j
  have h := inv_run maxBytes ops
  have hbound := h.accurate.2
  rw [h.capacity] at hbound
  refine ⟨h.accurate.1, hbound, h.sorted, fun sync e he => ?_, h.conserved⟩
  rcases enqueue_cases j.queue sync with hq | ⟨_, hq⟩
  · rw [hq]
  · rw [hq] at he
    nomatch he

end SyncJournal

end Peat.Qos
