/-
  THE BOOKS OF THE TRANSMITTER: where every offered event is, over every run of
  `enqueue`, `transmit`, `transmit_critical` and the two setters.
-/
import Peat.Event.Transmitter

namespace Peat.Event

open Peat.Lib EventTransmitter

/-- The transmitter, and by priority what was offered, accepted and left. -/
structure TransmitterLedger where
  transmitter : EventTransmitter
  offered : EventPriority → Nat
  accepted : Lanes EventPriority PeatEvent
  left : Lanes EventPriority PeatEvent
  phantom : EventPriority → Nat

namespace EventTransmitter

def evicted (t : EventTransmitter) (e : PeatEvent) : Option (EventPriority × PeatEvent) :=
  if t.Full e.priority then
    match t.overflowPolicy with
    | .rejectNew => none
    | .removeOldest => (t.queues e.priority).head?.map fun x => (e.priority, x)
    | .removeLowestPriority => t.victim.bind fun v => (t.queues v).head?.map fun x => (v, x)
  else none

def Phantom (t : EventTransmitter) (e : PeatEvent) : Prop :=
  t.maxQueueSizes e.priority = 0 ∧ t.overflowPolicy = .removeOldest ∧ t.queues e.priority = []

instance (t : EventTransmitter) (e : PeatEvent) : Decidable (t.Phantom e) :=
  inferInstanceAs (Decidable (_ ∧ _ ∧ _))

theorem enqueue_books (t : EventTransmitter) (e : PeatEvent) :
    (¬ t.Phantom e ∧ t.evicted e = none ∧
      (t.enqueue e = (true, t.push e) ∨ t.enqueue e = (false, t.countDrop e.priority))) ∨
    (∃ v x rest, ¬ t.Phantom e ∧ t.evicted e = some (v, x) ∧ t.queues v = x :: rest ∧
      t.enqueue e = (true, (t.dropFront v).push e)) ∨
    (t.Phantom e ∧ t.evicted e = none ∧ t.enqueue e = (true, (t.countDrop e.priority).push e)) := by
  rcases t.enqueue_cases e with ⟨hroom, h⟩ | ⟨hfull, hwhy, h⟩ | ⟨v, hfull, hwhy, hne, h⟩ |
    ⟨hmax, hpol, hempty, h⟩
  · refine .inl ⟨fun hph => hroom ?_, if_neg hroom, .inl h⟩
    show t.maxQueueSizes e.priority ≤ _
    rw [hph.1]
    exact Nat.zero_le _
  · refine .inl ⟨fun hph => ?_, ?_, .inr h⟩
    · rcases hwhy with hpol | ⟨hpol, _⟩ <;> rw [hph.2.1] at hpol <;> nomatch hpol
    · rw [evicted, if_pos hfull]
      rcases hwhy with hpol | ⟨hpol, hv⟩
      · rw [hpol]
      · rw [hpol, hv]
        rfl
  · obtain ⟨x, rest, hx⟩ := List.exists_cons_of_ne_nil hne
    refine .inr (.inl ⟨v, x, rest, fun hph => ?_, ?_, hx, h⟩)
    · rcases hwhy with ⟨_, rfl⟩ | ⟨hpol, _⟩
      · exact hne hph.2.2
      · rw [hph.2.1] at hpol
        nomatch hpol
    · rw [evicted, if_pos hfull]
      rcases hwhy with ⟨hpol, rfl⟩ | ⟨hpol, hv⟩
      · rw [hpol, hx]
        rfl
      · rw [hpol, hv]
        show (t.queues v).head?.map _ = _
        rw [hx]
        rfl
  · refine .inr (.inr ⟨⟨hmax, hpol, hempty⟩, ?_, h⟩)
    have hfull : t.Full e.priority := by
      show t.maxQueueSizes e.priority ≤ _
      rw [hmax]
      exact Nat.zero_le _
    rw [evicted, if_pos hfull, hpol, hempty]
    rfl

end EventTransmitter

namespace TransmitterLedger

def start (allocation : BandwidthAllocation) (now : Nat) : TransmitterLedger :=
  ⟨.new allocation now, fun _ => 0, fun _ => [], fun _ => [], fun _ => 0⟩

def offer (j : TransmitterLedger) (e : PeatEvent) : TransmitterLedger where
  transmitter := (j.transmitter.enqueue e).2
  offered := Function.update j.offered e.priority (j.offered e.priority + 1)
  accepted := if (j.transmitter.enqueue e).1 then Lanes.pushBack j.accepted e.priority e
    else j.accepted
  left := (j.transmitter.evicted e).elim j.left fun p => Lanes.pushBack j.left p.1 p.2
  phantom := if j.transmitter.Phantom e then
      Function.update j.phantom e.priority (j.phantom e.priority + 1)
    else j.phantom

def send (j : TransmitterLedger) (r : List PeatEvent × EventTransmitter) : TransmitterLedger :=
  { j with transmitter := r.2, left := fun p => j.left p ++ atLevel p r.1 }

def step (j : TransmitterLedger) : Op → TransmitterLedger
  | .call (.enqueue e) => j.offer e
  | .call (.transmit n clock) => j.send (j.transmitter.transmit n clock)
  | .call (.transmitCritical clock) => j.send (j.transmitter.transmitCritical clock)
  | .setMaxQueueSize p size => { j with transmitter := j.transmitter.setMaxQueueSize p size }
  | .setOverflowPolicy policy => { j with transmitter := j.transmitter.setOverflowPolicy policy }

theorem transmitter_step (j : TransmitterLedger) (op : Op) :
    (j.step op).transmitter = j.transmitter.step op := by
  cases op with
  | call c => cases c <;> rfl
  | setMaxQueueSize p size => rfl
  | setOverflowPolicy policy => rfl

/-- Events leave each queue in the order in which they were accepted. -/
def Fifo (j : TransmitterLedger) : Prop :=
  ∀ p, j.accepted p = j.left p ++ j.transmitter.queues p

/-- All offered events are transmitted, dropped or still queued. -/
def Balanced (j : TransmitterLedger) : Prop :=
  ∀ p, j.offered p = j.transmitter.stats.transmitted p + j.transmitter.stats.dropped p +
    (j.transmitter.queues p).length

structure Inv (j : TransmitterLedger) : Prop where
  sorted : j.transmitter.Sorted
  fifo : j.Fifo
  books : ∀ p, j.transmitter.stats.transmitted p + j.transmitter.stats.dropped p +
    (j.transmitter.queues p).length = j.offered p + j.phantom p

theorem length_queues_push (t : EventTransmitter) (e : PeatEvent) (p : EventPriority) :
    ((t.push e).queues p).length = (t.queues p).length + if p = e.priority then 1 else 0 := by
  rw [queues_push]
  split
  · exact List.length_append
  · rfl

theorem update_succ (f : EventPriority → Nat) (v p : EventPriority) :
    Function.update f v (f v + 1) p = f p + if p = v then 1 else 0 := by
  rw [Lanes.update_map_apply f (· + 1)]
  split <;> rfl

theorem pushBack_eq_append_push {t : EventTransmitter} {accepted : Lanes EventPriority PeatEvent}
    {out : List PeatEvent} {p : EventPriority} (h : accepted p = out ++ t.queues p) (e : PeatEvent) :
    Lanes.pushBack accepted e.priority e p = out ++ (t.push e).queues p := by
  rw [Lanes.pushBack_apply, queues_push]
  split
  · rw [h, List.append_assoc]
  · exact h

section DropFront

variable {t : EventTransmitter} {v : EventPriority} {x : PeatEvent} {rest : List PeatEvent}

theorem pushBack_append_dropFront (hx : t.queues v = x :: rest) (left : Lanes EventPriority PeatEvent)
    (p : EventPriority) :
    Lanes.pushBack left v x p ++ (t.dropFront v).queues p = left p ++ t.queues p := by
  rw [Lanes.pushBack_apply, queues_dropFront]
  split
  · rename_i hp
    subst hp
    rw [hx, List.append_assoc]
    rfl
  · rfl

theorem length_queues_dropFront (hx : t.queues v = x :: rest) (p : EventPriority) :
    ((t.dropFront v).queues p).length + (if p = v then 1 else 0) = (t.queues p).length := by
  rw [queues_dropFront]
  split
  · rename_i hp
    subst hp
    rw [hx]
    rfl
  · rfl

end DropFront

variable {j : TransmitterLedger}

theorem Inv.fifo_offer (h : Inv j) (e : PeatEvent) : (j.offer e).Fifo := by
  intro p
  simp only [TransmitterLedger.offer]
  rcases j.transmitter.enqueue_books e with ⟨_, hev, henq | henq⟩ | ⟨v, x, rest, _, hev, hx, henq⟩ |
    ⟨_, hev, henq⟩ <;> rw [hev, henq]
  · exact pushBack_eq_append_push (h.fifo p) e
  · exact h.fifo p
  · exact pushBack_eq_append_push ((h.fifo p).trans (pushBack_append_dropFront hx j.left p).symm) e
  · exact pushBack_eq_append_push (t := j.transmitter.countDrop e.priority) (h.fifo p) e

theorem Inv.books_offer (h : Inv j) (e : PeatEvent) (p : EventPriority) :
    (j.offer e).transmitter.stats.transmitted p + (j.offer e).transmitter.stats.dropped p +
      ((j.offer e).transmitter.queues p).length = (j.offer e).offered p + (j.offer e).phantom p := by
  have hbooks := h.books p
  simp only [TransmitterLedger.offer]
  rw [update_succ]
  rcases j.transmitter.enqueue_books e with ⟨hph, _, henq | henq⟩ | ⟨v, x, rest, hph, _, hx, henq⟩ |
    ⟨hph, _, henq⟩ <;> rw [henq]
  · rw [if_neg hph, length_queues_push]
    show j.transmitter.stats.transmitted p + j.transmitter.stats.dropped p + _ = _
    omega
  · rw [if_neg hph]
    show j.transmitter.stats.transmitted p + Function.update j.transmitter.stats.dropped _ _ p +
      (j.transmitter.queues p).length = _
    rw [update_succ]
    omega
  · rw [if_neg hph, length_queues_push]
    show j.transmitter.stats.transmitted p + Function.update j.transmitter.stats.dropped _ _ p + _ = _
    have hlen := length_queues_dropFront hx p
    rw [update_succ]
    omega
  · rw [if_pos hph, length_queues_push, update_succ]
    show j.transmitter.stats.transmitted p + Function.update j.transmitter.stats.dropped _ _ p +
      ((j.transmitter.queues p).length + _) = _
    rw [update_succ]
    omega

theorem Inv.offer (h : Inv j) (e : PeatEvent) : Inv (j.offer e) :=
  ⟨sorted_enqueue h.sorted e, h.fifo_offer e, h.books_offer e⟩

theorem Inv.send (h : Inv j) {r : List PeatEvent × EventTransmitter}
    (hr : Sent j.transmitter r.1 r.2) : Inv (j.send r) := by
  refine ⟨hr.sorted h.sorted, fun p => ?_, fun p => ?_⟩
  · show j.accepted p = j.left p ++ atLevel p r.1 ++ r.2.queues p
    rw [h.fifo p, hr.queues p, List.append_assoc]
  · have hbooks := h.books p
    rw [hr.queues p, List.length_append] at hbooks
    show r.2.stats.transmitted p + r.2.stats.dropped p + (r.2.queues p).length = _
    rw [hr.transmitted p, hr.dropped]
    show _ = j.offered p + j.phantom p
    omega

theorem Inv.step (h : Inv j) (op : Op) : Inv (j.step op) := by
  cases op with
  | call c =>
    cases c with
    | enqueue e => exact h.offer e
    | transmit n clock => exact h.send (j.transmitter.transmit_sent h.sorted n clock)
    | transmitCritical clock => exact h.send (j.transmitter.transmitCritical_sent h.sorted clock)
  | setMaxQueueSize p size => exact ⟨h.sorted, h.fifo, h.books⟩
  | setOverflowPolicy policy => exact ⟨h.sorted, h.fifo, h.books⟩

theorem inv_run (allocation : BandwidthAllocation) (now : Nat) (ops : List Op) :
    Inv (run step (start allocation now) ops) :=
  run_invariant Inv (fun _ op h => h.step op)
    ⟨fun _ _ he => absurd he List.not_mem_nil, fun _ => rfl, fun _ => rfl⟩ ops

/-- No event is offered to a queue without any room that drops its oldest. -/
def Counts (t : EventTransmitter) : Op → Prop
  | .call (.enqueue e) => ¬ t.Phantom e
  | _ => True

theorem phantom_step_iff (j : TransmitterLedger) (op : Op) :
    (∀ p, (j.step op).phantom p = 0) ↔ (∀ p, j.phantom p = 0) ∧ Counts j.transmitter op := by
  cases op with
  | call c =>
    cases c with
    | enqueue e =>
      show (∀ p, (j.offer e).phantom p = 0) ↔ _ ∧ ¬ j.transmitter.Phantom e
      simp only [TransmitterLedger.offer]
      by_cases hph : j.transmitter.Phantom e
      · refine iff_of_false (fun hall => ?_) fun hall => hall.2 hph
        have hone := hall e.priority
        rw [if_pos hph, Function.update_self] at hone
        omega
      · rw [if_neg hph]
        exact (and_iff_left hph).symm
    | transmit n clock => exact (and_iff_left trivial).symm
    | transmitCritical clock => exact (and_iff_left trivial).symm
  | setMaxQueueSize p size => exact (and_iff_left trivial).symm
  | setOverflowPolicy policy => exact (and_iff_left trivial).symm

/-- **The transmitter's balance over every run**: the offered events are the transmitted, the dropped and
    the queued ones, exactly when no event meets an empty queue of limit zero under `RemoveOldest`. -/
theorem balance_iff (allocation : BandwidthAllocation) (now : Nat) (ops : List Op) :
    ((run step (start allocation now) ops).Balanced ∧ (run step (start allocation now) ops).Fifo) ↔
      RunMeets EventTransmitter.step Counts (.new allocation now) ops := by
  have h := inv_run allocation now ops
  have hphantom : (∀ p, (run step (start allocation now) ops).phantom p = 0) ↔ _ :=
    run_iff_runMeets (fun j : TransmitterLedger => ∀ p, j.phantom p = 0) phantom_step_iff
  have hzero : ∀ p, (start allocation now).phantom p = 0 := fun _ => rfl
  rw [and_iff_left h.fifo]
  rw [and_iff_right hzero] at hphantom
  refine Iff.trans ?_ (hphantom.trans (runMeets_map TransmitterLedger.transmitter transmitter_step))
  refine forall_congr' fun p => ?_
  have hbooks := h.books p
  constructor
  · intro heq
    omega
  · intro hzero
    omega

/-- A limit of zero under `RemoveOldest`: one event is offered, one is counted as dropped, and one is
    queued. -/
theorem phantom_drop_counted :
    ¬ (run step (start .default 0)
      [.setOverflowPolicy .removeOldest, .setMaxQueueSize .low 0,
        .call (.enqueue (sampleEvent .low))]).Balanced :=
  fun h => absurd (h .low) (by decide)

end TransmitterLedger

end Peat.Event
