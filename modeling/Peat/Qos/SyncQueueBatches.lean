/-
  BATCHES from the priority sync queue (qos/sync_queue.rs): `dequeue_bytes` against
  repeated calls of `dequeue_highest`.

  All queued sizes together stay within the capacity (`SyncJournal.syncQueue_run`), so
  the sums in `dequeue_bytes` do not overflow.
-/
import Peat.Qos.SyncQueue

namespace Peat.Qos

namespace PrioritySyncQueue

/-- **What a loop of `dequeue_bytes` has taken** after `batch`: `out`, as that many calls of
    `dequeue_highest` return it; more than the limit only if all is one item; and the next item would be too
    much. -/
structure Batch (maxBytes : Nat) (batch : List PendingSync) (q : PrioritySyncQueue)
    (out : List PendingSync) (q' : PrioritySyncQueue) : Prop where
  served : q.dequeueBatch out.length = (out, q')
  items : q.items = out ++ q'.items
  within : bytes (batch ++ out) ≤ maxBytes ∨ (batch ++ out).length = 1
  nonempty : batch ++ out = [] → maxBytes = 0 ∨ q.items = []
  maximal : ∀ next rest, q'.items = next :: rest →
    maxBytes < bytes (batch ++ out) + next.size ∨ maxBytes ≤ bytes (batch ++ out)

theorem peekHighest_eq_head (q : PrioritySyncQueue) : q.peekHighest = q.items.head? :=
  Lib.Lanes.peekFirst_eq_head

variable {maxBytes : Nat} {q : PrioritySyncQueue} {batch : List PendingSync}

theorem wouldExceed_iff {total : Nat} :
    wouldExceed maxBytes total q = true ↔
      ∃ next rest, q.items = next :: rest ∧ maxBytes < total + next.size := by
  unfold wouldExceed
  rw [peekHighest_eq_head]
  cases q.items with
  | nil => exact iff_of_false nofun nofun
  | cons next rest =>
    constructor
    · intro h
      exact ⟨next, rest, rfl, of_decide_eq_true h⟩
    · intro ⟨next', rest', e, h⟩
      cases e
      exact decide_eq_true h

theorem Batch.stop (hpre : bytes batch ≤ maxBytes ∨ batch.length = 1)
    (hempty : batch = [] → maxBytes = 0 ∨ q.items = [])
    (hmax : ∀ next rest, q.items = next :: rest →
      maxBytes < bytes batch + next.size ∨ maxBytes ≤ bytes batch) :
    Batch maxBytes batch q [] q := by
  refine ⟨rfl, rfl, ?_, ?_, ?_⟩ <;> rw [List.append_nil]
  · exact hpre
  · exact hempty
  · exact hmax

theorem Batch.take {out : List PendingSync} {q₁ q' : PrioritySyncQueue} {sync : PendingSync}
    (hsome : q.dequeueHighest = (some sync, q₁)) (hitems : q.items = sync :: q₁.items)
    (h : Batch maxBytes (batch ++ [sync]) q₁ out q') : Batch maxBytes batch q (sync :: out) q' := by
  have happend : batch ++ sync :: out = batch ++ [sync] ++ out := by
    rw [List.append_assoc]
    rfl
  refine ⟨?_, ?_, ?_, ?_, ?_⟩
  · rw [List.length_cons, dequeueBatch, hsome]
    dsimp only
    rw [h.served]
  · rw [hitems, h.items]
    rfl
  · rw [happend]
    exact h.within
  · intro e
    exact absurd e (List.append_ne_nil_of_right_ne_nil _ (List.cons_ne_nil _ _))
  · rw [happend]
    exact h.maximal

theorem within_of_not_wouldExceed {sync : PendingSync} {rest : List PendingSync}
    (hitems : q.items = sync :: rest)
    (h : ¬ (wouldExceed maxBytes (bytes batch) q && !batch.isEmpty) = true) :
    bytes (batch ++ [sync]) ≤ maxBytes ∨ (batch ++ [sync]).length = 1 := by
  cases hb : batch with
  | nil => exact .inr rfl
  | cons b bs =>
    refine .inl (Nat.le_of_not_lt fun hlt => h ?_)
    rw [← hb, bytes_append] at hlt
    rw [wouldExceed_iff.mpr ⟨sync, rest, hitems, hlt⟩, hb]
    rfl

theorem dequeueBytesLoop_batch (maxBytes fuel : Nat) (batch : List PendingSync)
    (q : PrioritySyncQueue) (hfuel : q.items.length < fuel)
    (hpre : bytes batch ≤ maxBytes ∨ batch.length = 1) :
    ∃ out, (dequeueBytesLoop maxBytes fuel batch (bytes batch) q).1 = batch ++ out ∧
      Batch maxBytes batch q out (dequeueBytesLoop maxBytes fuel batch (bytes batch) q).2 := by
  induction fuel generalizing batch q with
  | zero => omega
  | succ fuel ih =>
    rcases q.dequeueBytesLoop_cases maxBytes fuel batch (bytes batch) with
      ⟨hstop, hwhy⟩ | ⟨sync, q₁, hsome, hitems, _, hpeek, hround⟩
    · rw [hstop]
      refine ⟨[], (List.append_nil _).symm, ?_⟩
      rcases hwhy with hle | hpeek | hnil
      · refine Batch.stop hpre (fun e => ?_) fun _ _ _ => .inr hle
        rw [e] at hle
        exact .inl (Nat.le_zero.mp hle)
      · -- the next item would break the limit, and something was taken already
        obtain ⟨hexceed, hne⟩ := Bool.and_eq_true_iff.mp hpeek
        obtain ⟨next, rest, hq, hlt⟩ := wouldExceed_iff.mp hexceed
        refine Batch.stop hpre (fun e => ?_) fun n r e => ?_
        · rw [e] at hne
          exact absurd hne Bool.false_ne_true
        · rw [hq] at e
          cases e
          exact .inl hlt
      · refine Batch.stop hpre (fun _ => .inr hnil) fun n r e => ?_
        rw [hnil] at e
        exact absurd e.symm (List.cons_ne_nil n r)
    · have hsum : bytes batch + sync.size = bytes (batch ++ [sync]) := by
        rw [bytes_append]
        rfl
      have hlen : q₁.items.length < fuel := by
        rw [hitems, List.length_cons] at hfuel
        omega
      rw [hround, hsum]
      obtain ⟨out, hout, hbatch⟩ := ih (batch ++ [sync]) q₁ hlen
        (within_of_not_wouldExceed hitems hpeek)
      refine ⟨sync :: out, ?_, hbatch.take hsome hitems⟩
      rw [hout, List.append_assoc]
      rfl

theorem dequeueBytes_spec (q : PrioritySyncQueue) (maxBytes : Nat) :
    Batch maxBytes [] q (q.dequeueBytes maxBytes).1 (q.dequeueBytes maxBytes).2 := by
  have hfuel : q.items.length < q.totalItems + 1 := by
    rw [q.length_items]
    omega
  obtain ⟨out, hout, h⟩ :=
    dequeueBytesLoop_batch maxBytes (q.totalItems + 1) [] q hfuel (.inl (Nat.zero_le _))
  have hr : (q.dequeueBytes maxBytes).1 = out := hout
  rw [hr]
  exact h

/-- **`dequeue_bytes`** returns what as many calls of `dequeue_highest` return; more than the limit only if
    it is a single item; nothing only if the limit is zero or the queue is empty; and one item more would
    exceed the limit. -/
theorem dequeueBytes_batch (q : PrioritySyncQueue) (maxBytes : Nat) :
    let r := q.dequeueBytes maxBytes
    q.dequeueBatch r.1.length = r ∧ q.items = r.1 ++ r.2.items ∧
      (bytes r.1 ≤ maxBytes ∨ r.1.length = 1) ∧
      (r.1 = [] → maxBytes = 0 ∨ q.items = []) ∧
      ∀ next rest, r.2.items = next :: rest →
        maxBytes < bytes r.1 + next.size ∨ maxBytes ≤ bytes r.1 := by
  intro r
  have h := q.dequeueBytes_spec maxBytes
  exact ⟨h.served, h.items, h.within, h.nonempty, h.maximal⟩

end PrioritySyncQueue

end Peat.Qos
