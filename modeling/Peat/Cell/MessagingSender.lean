/-
  THE SENDING SIDE of a cell message bus over whole runs.

  A run is any sequence of `publish`, `acknowledge`, `process_retransmissions`
  and `get_pending_messages` calls on a new bus. `Journal` writes down beside
  the bus what the calls returned and what happened to each message; the bus
  itself moves as the code says.
-/
import Peat.Cell.Messaging
import Peat.Lib.Run
import Mathlib.Data.List.Range
import Mathlib.Data.List.Perm.Basic

namespace Peat.Cell

open Peat.Lib

namespace CellMessage

/-- The higher priority first, and among equals the smaller sequence number. -/
def Before (a b : CellMessage) : Prop := NotAfter a b ∧ (NotAfter b a → a.seq < b.seq)

end CellMessage

/-! ## 1. The journal of a run -/

inductive SenderOp where
  | publish (payload : CellMessageType) (clock : Clock)
  | acknowledge (messageSeq : Nat)
  | processRetransmissions (seen sent : Nat → Nat)
  | getPendingMessages

/-- The bus and what its calls did: published, numbered, drained, sent again, acknowledged, given up. -/
structure Journal where
  bus : CellMessageBus
  published : List CellMessage
  handedOut : List Nat
  drains : List (List CellMessage)
  retries : List CellMessage
  acked : List Nat
  givenUp : List Nat

def CellMessageBus.Exhausted (bus : CellMessageBus) (seen : Nat) (msg : TrackedMessage) : Bool :=
  msg.status != .acknowledged && decide (bus.TimedOut msg seen) &&
    decide (bus.maxRetries ≤ msg.retryCount)

namespace Journal

def new (cellId nodeId : String) : Journal :=
  ⟨CellMessageBus.new cellId nodeId, [], [], [], [], [], []⟩

def step (j : Journal) : SenderOp → Journal
  | .publish payload clock =>
    { j with
      bus := (j.bus.publish payload clock).1
      published := j.published ++ [j.bus.nextMessage payload clock]
      handedOut := j.handedOut ++ [(j.bus.publish payload clock).2] }
  | .acknowledge messageSeq =>
    { j with
      bus := j.bus.acknowledge messageSeq
      acked := if messageSeq ∈ j.handedOut then j.acked ++ [messageSeq] else j.acked }
  | .processRetransmissions seen sent =>
    { j with
      bus := (j.bus.processRetransmissions seen sent).1
      retries := j.retries ++ (j.bus.processRetransmissions seen sent).2
      givenUp := j.givenUp ++
        (j.bus.trackedMessages.entries.filter fun e => j.bus.Exhausted (seen e.1) e.2).map (·.1) }
  | .getPendingMessages =>
    { j with
      bus := j.bus.getPendingMessages.1
      drains := j.drains ++ [j.bus.getPendingMessages.2] }

/-! ## 2. What one retransmission does to one tracked message -/

section Retransmit

variable {bus : CellMessageBus} {seen sent : Nat} {msg : TrackedMessage}

inductive Retransmitted (bus : CellMessageBus) (seen sent : Nat) (msg : TrackedMessage) :
    TrackedMessage × List CellMessage → Prop
  | kept (h : bus.Exhausted seen msg = false) : Retransmitted bus seen sent msg (msg, [])
  | givenUp (h : bus.Exhausted seen msg = true) :
    Retransmitted bus seen sent msg ({ msg with status := .failed }, [])
  | again (hs : msg.status ≠ .acknowledged) (hr : msg.retryCount < bus.maxRetries)
      (h : bus.Exhausted seen msg = false) :
    Retransmitted bus seen sent msg
      ({ msg with retryCount := msg.retryCount + 1, lastSend := sent, status := .delivered },
        [msg.message])

theorem retransmitted (bus : CellMessageBus) (seen sent : Nat) (msg : TrackedMessage) :
    Retransmitted bus seen sent msg (bus.retransmit seen sent msg) := by
  unfold CellMessageBus.retransmit
  by_cases hs : msg.status = .acknowledged
  · rw [if_pos hs]
    exact .kept (by simp [CellMessageBus.Exhausted, hs])
  rw [if_neg hs]
  by_cases ht : bus.TimedOut msg seen
  · rw [if_pos ht]
    by_cases hr : bus.maxRetries ≤ msg.retryCount
    · rw [if_pos hr]
      exact .givenUp (by simp [CellMessageBus.Exhausted, hs, ht, hr])
    · rw [if_neg hr]
      exact .again hs (Nat.lt_of_not_le hr) (by simp [CellMessageBus.Exhausted, hr])
  · rw [if_neg ht]
    exact .kept (by simp [CellMessageBus.Exhausted, ht])

theorem eq_of_mem_retransmit {m : CellMessage} (h : m ∈ (bus.retransmit seen sent msg).2) :
    m = msg.message := by
  have hr := retransmitted bus seen sent msg
  generalize bus.retransmit seen sent msg = r at h hr
  cases hr with
  | kept _ => cases h
  | givenUp _ => cases h
  | again _ _ _ => exact List.mem_singleton.mp h

end Retransmit

/-! ## 3. The invariant -/

structure TrackedOk (j : Journal) (seq : Nat) (msg : TrackedMessage) : Prop where
  published : msg.message ∈ j.published
  number : msg.message.seq = seq
  alive : msg.status ≠ .failed
  counted : j.retries.count msg.message = msg.retryCount
  acked_iff : msg.status = .acknowledged ↔ seq ∈ j.acked
  kept : seq ∉ j.givenUp

structure Inv (j : Journal) : Prop where
  handedOut_eq : j.handedOut = List.range' 1 j.handedOut.length
  nextSeq_eq : j.bus.nextSeq = j.handedOut.length + 1
  numbers : j.published.map (·.seq) = j.handedOut
  queued : (j.drains.flatten ++ j.bus.outboundQueue).Perm j.published
  queue_sorted : j.bus.outboundQueue.Pairwise CellMessage.Before
  drains_sorted : ∀ d ∈ j.drains, d.Pairwise CellMessage.Before
  tracked : ∀ seq msg, j.bus.trackedMessages.lookup seq = some msg → TrackedOk j seq msg
  untracked : ∀ seq ∈ j.handedOut, j.bus.trackedMessages.lookup seq = none →
    seq ∈ j.acked ∨ seq ∈ j.givenUp
  retries_le : ∀ m, j.retries.count m ≤ j.bus.maxRetries
  retries_published : ∀ m ∈ j.retries, m ∈ j.published
  acked_handedOut : ∀ seq ∈ j.acked, seq ∈ j.handedOut
  givenUp_handedOut : ∀ seq ∈ j.givenUp, seq ∈ j.handedOut

theorem inv_new (cellId nodeId : String) : Inv (new cellId nodeId) where
  handedOut_eq := rfl
  nextSeq_eq := rfl
  numbers := rfl
  queued := List.Perm.refl _
  queue_sorted := List.Pairwise.nil
  drains_sorted := fun _ h => (nomatch h)
  tracked := fun _ _ h => (nomatch h)
  untracked := fun _ h => (nomatch h)
  retries_le := fun _ => Nat.zero_le _
  retries_published := fun _ h => (nomatch h)
  acked_handedOut := fun _ h => (nomatch h)
  givenUp_handedOut := fun _ h => (nomatch h)

section Step

variable {j : Journal} (hj : Inv j)

include hj

variable {seq : Nat} {m : CellMessage} {msg : TrackedMessage}

theorem Inv.lt_nextSeq (h : seq ∈ j.handedOut) : seq < j.bus.nextSeq := by
  rw [hj.handedOut_eq, List.mem_range'_1] at h
  rw [hj.nextSeq_eq]
  omega

theorem Inv.seq_handedOut (h : m ∈ j.published) : m.seq ∈ j.handedOut := by
  rw [← hj.numbers]
  exact List.mem_map_of_mem h

theorem Inv.nodup_handedOut : j.handedOut.Nodup := by
  rw [hj.handedOut_eq]
  exact List.nodup_range'

theorem Inv.eq_of_seq {m' : CellMessage} (hm : m ∈ j.published) (hm' : m' ∈ j.published)
    (h : m.seq = m'.seq) : m = m' := by
  have hn := hj.nodup_handedOut
  rw [← hj.numbers] at hn
  exact List.inj_on_of_nodup_map hn hm hm' h

theorem Inv.nodup_published : j.published.Nodup := by
  have hn := hj.nodup_handedOut
  rw [← hj.numbers] at hn
  exact hn.of_map _

variable (payload : CellMessageType)

theorem Inv.nextMessage_new (clock : Clock) :
    j.bus.nextMessage payload clock ∉ j.published := fun h =>
  absurd (hj.lt_nextSeq (hj.seq_handedOut h)) (Nat.lt_irrefl _)

theorem Inv.nextSeq_new : j.bus.nextSeq ∉ j.handedOut := fun h =>
  Nat.lt_irrefl _ (hj.lt_nextSeq h)

theorem queued_publish (clock : Clock) :
    (j.drains.flatten ++ (j.bus.publish payload clock).1.outboundQueue).Perm
      (j.published ++ [j.bus.nextMessage payload clock]) := by
  have hsort : ((j.bus.outboundQueue ++ [j.bus.nextMessage payload clock]).insertionSort
      CellMessage.NotAfter).Perm (j.bus.outboundQueue ++ [j.bus.nextMessage payload clock]) :=
    List.perm_insertionSort _ _
  refine (hsort.append_left _).trans ?_
  rw [← List.append_assoc]
  exact hj.queued.append_right _

theorem queueSorted_publish (clock : Clock) :
    (j.bus.publish payload clock).1.outboundQueue.Pairwise CellMessage.Before := by
  refine pairwise_insertionSort_stable (List.pairwise_append.mpr
    ⟨hj.queue_sorted.imp fun h _ => h.2, List.pairwise_singleton _ _, fun a ha b hb _ _ => ?_⟩)
  obtain rfl := List.mem_singleton.mp hb
  have hap : a ∈ j.published := hj.queued.mem_iff.mp (List.mem_append_right _ ha)
  exact hj.lt_nextSeq (hj.seq_handedOut hap)

theorem tracked_publish (clock : Clock)
    (h : (j.step (.publish payload clock)).bus.trackedMessages.lookup seq = some msg) :
    TrackedOk (j.step (.publish payload clock)) seq msg := by
  replace h := (CellMessageBus.lookup_publish j.bus payload clock seq).symm.trans h
  by_cases e : seq = j.bus.nextSeq
  · rw [if_pos e] at h
    obtain rfl := Option.some.inj h
    subst e
    have hnew := hj.nextSeq_new
    refine ⟨List.mem_append_right _ (List.mem_singleton_self _), rfl, nofun, ?_, ?_, ?_⟩
    · exact List.count_eq_zero.mpr fun hr =>
        hj.nextMessage_new payload clock (hj.retries_published _ hr)
    · exact ⟨nofun, fun h => absurd (hj.acked_handedOut _ h) hnew⟩
    · exact fun h => hnew (hj.givenUp_handedOut _ h)
  · rw [if_neg e] at h
    obtain ⟨h1, h2, h3, h4, h5, h6⟩ := hj.tracked seq msg h
    exact ⟨List.mem_append_left _ h1, h2, h3, h4, h5, h6⟩

theorem untracked_publish (clock : Clock) (hseq : seq ∈ j.handedOut ++ [j.bus.nextSeq])
    (h : (j.step (.publish payload clock)).bus.trackedMessages.lookup seq = none) :
    seq ∈ j.acked ∨ seq ∈ j.givenUp := by
  replace h := (CellMessageBus.lookup_publish j.bus payload clock seq).symm.trans h
  by_cases e : seq = j.bus.nextSeq
  · rw [if_pos e] at h
    cases h
  · rw [if_neg e] at h
    rcases List.mem_append.mp hseq with hs | hs
    · exact hj.untracked seq hs h
    · exact absurd (List.mem_singleton.mp hs) e

theorem inv_publish (clock : Clock) :
    Inv (j.step (.publish payload clock)) where
  handedOut_eq := by
    show j.handedOut ++ [j.bus.nextSeq] = List.range' 1 (j.handedOut ++ [j.bus.nextSeq]).length
    rw [List.length_append, List.length_singleton, List.range'_1_concat, ← hj.handedOut_eq,
      hj.nextSeq_eq, Nat.add_comm 1]
  nextSeq_eq := by
    show j.bus.nextSeq + 1 = (j.handedOut ++ [j.bus.nextSeq]).length + 1
    rw [List.length_append, hj.nextSeq_eq]
    rfl
  numbers := by
    show List.map _ (j.published ++ [_]) = j.handedOut ++ [_]
    rw [List.map_append, hj.numbers]
    rfl
  queued := queued_publish hj payload clock
  queue_sorted := queueSorted_publish hj payload clock
  drains_sorted := hj.drains_sorted
  tracked := fun _ _ h => tracked_publish hj payload clock h
  untracked := fun _ hseq h => untracked_publish hj payload clock hseq h
  retries_le := hj.retries_le
  retries_published := fun m hm => List.mem_append_left _ (hj.retries_published m hm)
  acked_handedOut := fun seq h => List.mem_append_left _ (hj.acked_handedOut seq h)
  givenUp_handedOut := fun seq h => List.mem_append_left _ (hj.givenUp_handedOut seq h)

theorem inv_getPendingMessages : Inv (j.step .getPendingMessages) where
  handedOut_eq := hj.handedOut_eq
  nextSeq_eq := hj.nextSeq_eq
  numbers := hj.numbers
  queued := by
    show ((j.drains ++ [j.bus.outboundQueue]).flatten ++ []).Perm j.published
    rw [List.append_nil, List.flatten_append, List.flatten_singleton]
    exact hj.queued
  queue_sorted := List.Pairwise.nil
  drains_sorted := by
    intro d hd
    rcases List.mem_append.mp hd with h | h
    · exact hj.drains_sorted d h
    · rw [List.mem_singleton.mp h]
      exact hj.queue_sorted
  tracked := by
    intro seq msg h
    obtain ⟨h1, h2, h3, h4, h5, h6⟩ := hj.tracked seq msg h
    exact ⟨h1, h2, h3, h4, h5, h6⟩
  untracked := hj.untracked
  retries_le := hj.retries_le
  retries_published := hj.retries_published
  acked_handedOut := hj.acked_handedOut
  givenUp_handedOut := hj.givenUp_handedOut

omit hj in
theorem mem_acked_acknowledge (messageSeq seq : Nat) :
    seq ∈ (j.step (.acknowledge messageSeq)).acked ↔
      seq ∈ j.acked ∨ (seq = messageSeq ∧ seq ∈ j.handedOut) := by
  show seq ∈ (if messageSeq ∈ j.handedOut then j.acked ++ [messageSeq] else j.acked) ↔ _
  by_cases h : messageSeq ∈ j.handedOut
  · rw [if_pos h, List.mem_append, List.mem_singleton]
    exact ⟨Or.imp_right fun e => ⟨e, e ▸ h⟩, Or.imp_right And.left⟩
  · rw [if_neg h]
    exact ⟨Or.inl, fun hs => hs.resolve_right fun e => h (e.1 ▸ e.2)⟩

theorem tracked_acknowledge (messageSeq : Nat)
    (h : (j.step (.acknowledge messageSeq)).bus.trackedMessages.lookup seq = some msg) :
    TrackedOk (j.step (.acknowledge messageSeq)) seq msg := by
  replace h := (CellMessageBus.lookup_acknowledge j.bus messageSeq seq).symm.trans h
  by_cases e : seq = messageSeq
  · rw [if_pos e] at h
    obtain ⟨old, hold, rfl⟩ := Option.map_eq_some_iff.mp h
    obtain ⟨h1, h2, _, h4, _, h6⟩ := hj.tracked seq old hold
    have hs : seq ∈ j.handedOut := h2 ▸ hj.seq_handedOut h1
    exact ⟨h1, h2, nofun, h4,
      ⟨fun _ => (mem_acked_acknowledge messageSeq seq).mpr (.inr ⟨e, hs⟩), fun _ => rfl⟩, h6⟩
  · rw [if_neg e] at h
    obtain ⟨h1, h2, h3, h4, h5, h6⟩ := hj.tracked seq msg h
    refine ⟨h1, h2, h3, h4, h5.trans ?_, h6⟩
    rw [mem_acked_acknowledge]
    exact ⟨Or.inl, fun hs => hs.resolve_right fun hs => e hs.1⟩

theorem untracked_acknowledge (messageSeq : Nat) (hseq : seq ∈ j.handedOut)
    (h : (j.step (.acknowledge messageSeq)).bus.trackedMessages.lookup seq = none) :
    seq ∈ (j.step (.acknowledge messageSeq)).acked ∨ seq ∈ j.givenUp := by
  replace h := (CellMessageBus.lookup_acknowledge j.bus messageSeq seq).symm.trans h
  rw [mem_acked_acknowledge]
  by_cases e : seq = messageSeq
  · exact .inl (.inr ⟨e, hseq⟩)
  · rw [if_neg e] at h
    exact (hj.untracked seq hseq h).imp_left Or.inl

theorem inv_acknowledge (messageSeq : Nat) : Inv (j.step (.acknowledge messageSeq)) := by
  have hbus : (j.bus.acknowledge messageSeq).nextSeq = j.bus.nextSeq ∧
      (j.bus.acknowledge messageSeq).outboundQueue = j.bus.outboundQueue ∧
      (j.bus.acknowledge messageSeq).maxRetries = j.bus.maxRetries := by
    unfold CellMessageBus.acknowledge
    split <;> exact ⟨rfl, rfl, rfl⟩
  obtain ⟨hnext, hqueue, hmax⟩ := hbus
  refine
    { handedOut_eq := hj.handedOut_eq
      nextSeq_eq := hnext.trans hj.nextSeq_eq
      numbers := hj.numbers
      queued := ?_
      queue_sorted := ?_
      drains_sorted := hj.drains_sorted
      tracked := fun _ _ h => tracked_acknowledge hj messageSeq h
      untracked := fun _ hseq h => untracked_acknowledge hj messageSeq hseq h
      retries_le := fun m => (hj.retries_le m).trans_eq hmax.symm
      retries_published := hj.retries_published
      acked_handedOut := fun seq hs => ?_
      givenUp_handedOut := hj.givenUp_handedOut }
  · show (j.drains.flatten ++ (j.bus.acknowledge messageSeq).outboundQueue).Perm _
    rw [hqueue]
    exact hj.queued
  · show (j.bus.acknowledge messageSeq).outboundQueue.Pairwise _
    rw [hqueue]
    exact hj.queue_sorted
  · rcases (mem_acked_acknowledge messageSeq seq).mp hs with h | h
    · exact hj.acked_handedOut seq h
    · exact h.2

theorem Inv.count_processRetransmissions (seen sent : Nat → Nat) (m : CellMessage) :
    (j.bus.processRetransmissions seen sent).2.count m =
      ((j.bus.trackedMessages.lookup m.seq).elim [] fun msg =>
        (j.bus.retransmit (seen m.seq) (sent m.seq) msg).2).count m := by
  refine count_flatMap_entries CellMessage.seq
    (fun seq msg => (j.bus.retransmit (seen seq) (sent seq) msg).2) _ (fun seq msg h b hb => ?_) m
  rw [eq_of_mem_retransmit hb]
  exact (hj.tracked seq msg h).number

theorem Inv.mem_processRetransmissions {seen sent : Nat → Nat}
    (h : m ∈ (j.bus.processRetransmissions seen sent).2) :
    ∃ msg, j.bus.trackedMessages.lookup m.seq = some msg ∧ msg.message = m ∧
      msg.status ≠ .acknowledged := by
  obtain ⟨⟨seq, msg⟩, he, hm⟩ := List.mem_flatMap.mp h
  have hlook := lookup_eq_some_iff.mpr he
  have hr := retransmitted j.bus (seen seq) (sent seq) msg
  generalize j.bus.retransmit (seen seq) (sent seq) msg = r at hm hr
  cases hr with
  | kept _ => cases hm
  | givenUp _ => cases hm
  | again hs _ _ =>
    obtain rfl := List.mem_singleton.mp hm
    rw [(hj.tracked seq msg hlook).number]
    exact ⟨msg, hlook, rfl, hs⟩

omit hj in
theorem mem_givenUp_processRetransmissions (seen sent : Nat → Nat) (seq : Nat) :
    seq ∈ (j.step (.processRetransmissions seen sent)).givenUp ↔
      seq ∈ j.givenUp ∨
        ∃ msg, j.bus.trackedMessages.lookup seq = some msg ∧
          j.bus.Exhausted (seen seq) msg = true := by
  show seq ∈ j.givenUp ++ List.map _ _ ↔ _
  rw [List.mem_append, List.mem_map]
  refine or_congr_right ⟨?_, ?_⟩
  · rintro ⟨⟨seq', msg⟩, he, rfl⟩
    obtain ⟨hmem, hx⟩ := List.mem_filter.mp he
    exact ⟨msg, lookup_eq_some_iff.mpr hmem, hx⟩
  · rintro ⟨msg, hl, hx⟩
    exact ⟨⟨seq, msg⟩, List.mem_filter.mpr ⟨lookup_eq_some_iff.mp hl, hx⟩, rfl⟩

theorem Inv.count_retries_tracked (h : j.bus.trackedMessages.lookup seq = some msg)
    (seen sent : Nat → Nat) :
    (j.step (.processRetransmissions seen sent)).retries.count msg.message =
      msg.retryCount + (j.bus.retransmit (seen seq) (sent seq) msg).2.count msg.message := by
  have hok := hj.tracked seq msg h
  show (j.retries ++ _).count _ = _
  rw [List.count_append, hok.counted, hj.count_processRetransmissions, hok.number, h]
  rfl

theorem tracked_processRetransmissions (seen sent : Nat → Nat)
    (h : (j.step (.processRetransmissions seen sent)).bus.trackedMessages.lookup seq = some msg) :
    TrackedOk (j.step (.processRetransmissions seen sent)) seq msg ∧
      msg.status ≠ .acknowledged := by
  replace h := (CellMessageBus.lookup_processRetransmissions j.bus seen sent seq).symm.trans h
  obtain ⟨hmap, hstill⟩ := Option.filter_eq_some_iff.mp h
  obtain ⟨old, hold, rfl⟩ := Option.map_eq_some_iff.mp hmap
  obtain ⟨h1, h2, h3, h4, h5, h6⟩ := hj.tracked seq old hold
  have hcount := hj.count_retries_tracked hold seen sent
  have hlost : j.bus.Exhausted (seen seq) old = false →
      seq ∉ (j.step (.processRetransmissions seen sent)).givenUp := fun hx hg => by
    rcases (mem_givenUp_processRetransmissions seen sent seq).mp hg with hg | ⟨msg, hl, hx'⟩
    · exact h6 hg
    · rw [hold] at hl
      cases hl
      rw [hx] at hx'
      cases hx'
  have hr := retransmitted j.bus (seen seq) (sent seq) old
  generalize j.bus.retransmit (seen seq) (sent seq) old = r at hcount hstill hr
  cases hr with
  | kept hx =>
    have hna : old.status ≠ .acknowledged := fun e => by simp [CellMessageBus.StillTracked, e] at hstill
    exact ⟨⟨h1, h2, h3, hcount, h5, hlost hx⟩, hna⟩
  | givenUp _ => simp [CellMessageBus.StillTracked] at hstill
  | again hs _ hx =>
    refine ⟨⟨h1, h2, nofun, ?_, ⟨nofun, fun ha => absurd (h5.mpr ha) hs⟩, hlost hx⟩, nofun⟩
    rw [hcount, List.count_singleton_self]

theorem untracked_processRetransmissions (seen sent : Nat → Nat) (hseq : seq ∈ j.handedOut)
    (h : (j.step (.processRetransmissions seen sent)).bus.trackedMessages.lookup seq = none) :
    seq ∈ j.acked ∨ seq ∈ (j.step (.processRetransmissions seen sent)).givenUp := by
  rw [mem_givenUp_processRetransmissions]
  replace h := (CellMessageBus.lookup_processRetransmissions j.bus seen sent seq).symm.trans h
  cases hold : j.bus.trackedMessages.lookup seq with
  | none => exact (hj.untracked seq hseq hold).imp_right Or.inl
  | some old =>
    have hok := hj.tracked seq old hold
    rw [hold, Option.map_some, Option.filter_eq_none_iff] at h
    have hstill := h _ rfl
    have hr := retransmitted j.bus (seen seq) (sent seq) old
    generalize j.bus.retransmit (seen seq) (sent seq) old = r at hstill hr
    cases hr with
    | kept _ =>
      refine .inl (hok.acked_iff.mp ?_)
      by_contra hna
      exact hstill (by simp [CellMessageBus.StillTracked, hna, hok.alive])
    | givenUp hx => exact .inr (.inr ⟨old, rfl, hx⟩)
    | again _ _ _ => exact absurd rfl hstill

theorem inv_processRetransmissions (seen sent : Nat → Nat) :
    Inv (j.step (.processRetransmissions seen sent)) where
  handedOut_eq := hj.handedOut_eq
  nextSeq_eq := hj.nextSeq_eq
  numbers := hj.numbers
  queued := hj.queued
  queue_sorted := hj.queue_sorted
  drains_sorted := hj.drains_sorted
  tracked := fun _ _ h => (tracked_processRetransmissions hj seen sent h).1
  untracked := fun _ hseq h => untracked_processRetransmissions hj seen sent hseq h
  retries_le := by
    intro m
    by_cases hm : m ∈ (j.bus.processRetransmissions seen sent).2
    · obtain ⟨msg, hl, rfl, _⟩ := hj.mem_processRetransmissions hm
      rw [hj.count_retries_tracked hl]
      have hle := hj.retries_le msg.message
      rw [(hj.tracked _ _ hl).counted] at hle
      have hr := retransmitted j.bus (seen msg.message.seq) (sent msg.message.seq) msg
      generalize j.bus.retransmit (seen msg.message.seq) (sent msg.message.seq) msg = r at hr
      cases hr with
      | kept _ => exact hle
      | givenUp _ => exact hle
      | again _ hlt _ =>
        rw [List.count_singleton_self]
        exact hlt
    · show (j.retries ++ _).count m ≤ _
      rw [List.count_append, List.count_eq_zero.mpr hm]
      exact hj.retries_le m
  retries_published := by
    intro m hm
    rcases List.mem_append.mp hm with h | h
    · exact hj.retries_published m h
    · obtain ⟨msg, hl, rfl, _⟩ := hj.mem_processRetransmissions h
      exact (hj.tracked _ _ hl).published
  acked_handedOut := hj.acked_handedOut
  givenUp_handedOut := by
    intro seq hs
    rcases (mem_givenUp_processRetransmissions seen sent seq).mp hs with h | ⟨msg, hl, _⟩
    · exact hj.givenUp_handedOut seq h
    · have hok := hj.tracked seq msg hl
      rw [← hok.number]
      exact hj.seq_handedOut hok.published

theorem inv_step (op : SenderOp) : Inv (j.step op) := by
  cases op with
  | publish payload clock => exact inv_publish hj payload clock
  | acknowledge messageSeq => exact inv_acknowledge hj messageSeq
  | processRetransmissions seen sent => exact inv_processRetransmissions hj seen sent
  | getPendingMessages => exact inv_getPendingMessages hj

theorem tracked_after_processRetransmissions (seen sent : Nat → Nat) (m : CellMessage) :
    (∃ msg, (j.step (.processRetransmissions seen sent)).bus.trackedMessages.lookup m.seq = some msg ∧
        msg.message = m) ↔
      m ∈ j.published ∧ m.seq ∉ j.acked ∧
        m.seq ∉ (j.step (.processRetransmissions seen sent)).givenUp := by
  constructor
  · rintro ⟨msg, hl, rfl⟩
    obtain ⟨hok, hna⟩ := tracked_processRetransmissions hj seen sent hl
    exact ⟨hok.published, fun ha => hna (hok.acked_iff.mpr ha), hok.kept⟩
  · rintro ⟨hp, hna, hng⟩
    cases hl : (j.step (.processRetransmissions seen sent)).bus.trackedMessages.lookup m.seq with
    | none =>
      rcases untracked_processRetransmissions hj seen sent (hj.seq_handedOut hp) hl with h | h
      · exact absurd h hna
      · exact absurd h hng
    | some msg =>
      have hok := (tracked_processRetransmissions hj seen sent hl).1
      exact ⟨msg, rfl, hj.eq_of_seq hok.published hp hok.number⟩

end Step

theorem inv_run (cellId nodeId : String) (ops : List SenderOp) :
    Inv (run step (new cellId nodeId) ops) :=
  run_invariant Inv (fun _ op hj => inv_step hj op) (inv_new cellId nodeId) ops

/-! ## 4. Every run of a sender -/

end Journal

end Peat.Cell
