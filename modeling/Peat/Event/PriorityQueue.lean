/-
  THE PRIORITY EVENT QUEUE (event/priority_queue.rs): four FIFO levels, drained critical
  first and then by weight.

  `pop_weighted` reserves room for `max_events` events first, which panics long
  before `max_events * 50` could overflow.
-/
import Peat.Lib.Lanes
import Peat.Event.Event

namespace Peat.Event

open Peat.Lib

abbrev PriorityEventQueue := Lanes EventPriority PeatEvent

namespace PriorityEventQueue

def items (q : PriorityEventQueue) : List PeatEvent := Lanes.items EventPriority.levels q

def push (q : PriorityEventQueue) (e : PeatEvent) : PriorityEventQueue := Lanes.pushBack q e.priority e

def popCritical (q : PriorityEventQueue) : List PeatEvent × PriorityEventQueue :=
  (q .critical, Function.update q .critical [])

def popFromLevel (q : PriorityEventQueue) (level : EventPriority) (count : Nat) :
    List PeatEvent × PriorityEventQueue :=
  ((q level).take count, Function.update q level ((q level).drop count))

def popWeighted (q : PriorityEventQueue) (maxEvents : Nat) : List PeatEvent × PriorityEventQueue :=
  if maxEvents = 0 then ([], q)
  else
    let highAlloc := maxEvents * 50 / 100
    let normalAlloc := maxEvents * 35 / 100
    let high := popFromLevel q .high (min highAlloc maxEvents)
    let remaining := maxEvents - high.1.length
    let normalTarget := normalAlloc + (highAlloc - high.1.length)
    let normal := popFromLevel high.2 .normal (min normalTarget remaining)
    let remaining := remaining - normal.1.length
    let low := popFromLevel normal.2 .low remaining
    (high.1 ++ normal.1 ++ low.1, low.2)

/-- **What a pop does**: `out` leaves, the rest stays. -/
def Removes (q : PriorityEventQueue) (r : List PeatEvent × PriorityEventQueue) : Prop :=
  q.items.Perm (r.1 ++ items r.2)

theorem Removes.trans {q : PriorityEventQueue} {r r' : List PeatEvent × PriorityEventQueue}
    (h : Removes q r) (h' : Removes r.2 r') : Removes q (r.1 ++ r'.1, r'.2) := by
  show q.items.Perm (r.1 ++ r'.1 ++ items r'.2)
  rw [List.append_assoc]
  exact List.Perm.trans h (List.Perm.append_left _ h')

variable (q : PriorityEventQueue)

theorem items_push (e : PeatEvent) : (items (q.push e)).Perm (e :: q.items) :=
  Lanes.items_pushBack EventPriority.nodup_levels (EventPriority.mem_levels _) e

theorem popCritical_removes : Removes q q.popCritical := by
  refine Lanes.items_split EventPriority.nodup_levels (EventPriority.mem_levels _) ?_
  show (q .critical).Perm (q .critical ++ [])
  rw [List.append_nil]

theorem popFromLevel_removes (level : EventPriority) (count : Nat) :
    Removes q (q.popFromLevel level count) := by
  refine Lanes.items_split EventPriority.nodup_levels (EventPriority.mem_levels _) ?_
  show (q level).Perm ((q level).take count ++ (q level).drop count)
  rw [List.take_append_drop]

theorem popWeighted_removes (maxEvents : Nat) : Removes q (q.popWeighted maxEvents) := by
  unfold popWeighted
  split
  · exact List.Perm.refl _
  · dsimp only
    exact ((popFromLevel_removes _ _ _).trans (popFromLevel_removes _ _ _)).trans
      (popFromLevel_removes _ _ _)

/-! ## Shares -/

def highShare (n : Nat) : Nat := n * 50 / 100

def normalShare (n used : Nat) : Nat := n * 35 / 100 + (highShare n - used)

def highCount (q : PriorityEventQueue) (n : Nat) : Nat := min (highShare n) (q .high).length

def normalCount (q : PriorityEventQueue) (n : Nat) : Nat :=
  min (normalShare n (highCount q n)) (q .normal).length

def lowCount (q : PriorityEventQueue) (n : Nat) : Nat :=
  min (n - highCount q n - normalCount q n) (q .low).length

def nonCritical (q : PriorityEventQueue) : Nat :=
  (q .high).length + (q .normal).length + (q .low).length

theorem normalShare_le (n : Nat) : normalShare n (highCount q n) ≤ n - highCount q n := by
  unfold normalShare highCount highShare
  omega

theorem popFromLevel_min (level : EventPriority) (count : Nat) :
    q.popFromLevel level count = q.popFromLevel level (min count (q level).length) := by
  unfold popFromLevel
  rw [← List.take_eq_take_min, ← List.drop_eq_drop_min]

theorem length_popFromLevel (level : EventPriority) (count : Nat) :
    (q.popFromLevel level count).1.length = min count (q level).length := List.length_take

theorem popWeighted_pops (n : Nat) :
    q.popWeighted n =
      let high := q.popFromLevel .high (highCount q n)
      let normal := high.2.popFromLevel .normal (normalCount q n)
      let low := normal.2.popFromLevel .low (lowCount q n)
      (high.1 ++ normal.1 ++ low.1, low.2) := by
  by_cases hn : n = 0
  · subst hn
    simp [popWeighted, popFromLevel, highCount, normalCount, lowCount, highShare, normalShare]
  · let high := q.popFromLevel .high (highCount q n)
    let normal := high.2.popFromLevel .normal (normalCount q n)
    have hhigh : q.popFromLevel .high (min (n * 50 / 100) n) = high := by
      have hshare : min (n * 50 / 100) n = highShare n := by
        unfold highShare
        omega
      rw [hshare]
      exact popFromLevel_min q .high (highShare n)
    have hhighCount : high.1.length = highCount q n := by
      refine (length_popFromLevel q .high _).trans (Nat.min_eq_left ?_)
      exact Nat.min_le_right _ _
    have hnormal : high.2.popFromLevel .normal
        (min (n * 35 / 100 + (n * 50 / 100 - highCount q n)) (n - highCount q n)) = normal := by
      have hshare : min (n * 35 / 100 + (n * 50 / 100 - highCount q n)) (n - highCount q n) =
          normalShare n (highCount q n) := Nat.min_eq_left (normalShare_le q n)
      rw [hshare]
      exact popFromLevel_min high.2 .normal (normalShare n (highCount q n))
    have hnormalCount : normal.1.length = normalCount q n := by
      refine (length_popFromLevel high.2 .normal _).trans (Nat.min_eq_left ?_)
      exact Nat.min_le_right _ _
    have hlow : normal.2.popFromLevel .low (n - highCount q n - normalCount q n) =
        normal.2.popFromLevel .low (lowCount q n) :=
      popFromLevel_min normal.2 .low (n - highCount q n - normalCount q n)
    unfold popWeighted
    rw [if_neg hn]
    dsimp only
    rw [hhigh, hhighCount, hnormal, hnormalCount, hlow]

theorem popWeighted_eq (n : Nat) :
    (q.popWeighted n).1 = (q .high).take (highCount q n) ++ (q .normal).take (normalCount q n) ++
        (q .low).take (lowCount q n) ∧
      (q.popWeighted n).2 .critical = q .critical ∧
      (q.popWeighted n).2 .high = (q .high).drop (highCount q n) ∧
      (q.popWeighted n).2 .normal = (q .normal).drop (normalCount q n) ∧
      (q.popWeighted n).2 .low = (q .low).drop (lowCount q n) := by
  rw [popWeighted_pops]
  exact ⟨rfl, rfl, rfl, rfl, rfl⟩

def highEvent (id : String) : PeatEvent :=
  ⟨id, none, "node-1", "cell-1", none, 1, "detection", some ⟨0, 1, 300, 1000⟩, "", []⟩

end PriorityEventQueue

end Peat.Event
