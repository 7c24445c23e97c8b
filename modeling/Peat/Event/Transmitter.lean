/-
  THE EVENT TRANSMITTER (event/transmitter.rs): four queues with size limits, three
  overflow policies, and the transmission loops behind token buckets.

  Token counts (`f64`) are exact rationals, instants are nanoseconds. Every
  `try_consume` reads the clock; `clock p k` is its k-th reading in the loop of
  level `p`.
-/
import Mathlib.Algebra.Field.Rat
import Peat.Lib.Lanes
import Peat.Lib.Run
import Peat.Event.Event

namespace Peat.Event

open Peat.Lib

/-! ## 1. The transmitter -/

structure BandwidthAllocation where
  criticalReservedBps : Nat
  highMinBps : Nat
  normalMinBps : Nat
  lowMinBps : Nat
  totalAvailableBps : Nat
  deriving DecidableEq, Repr

def BandwidthAllocation.default : BandwidthAllocation :=
  ⟨1000000 / 10, (1000000 * 9 / 10) * 50 / 100, (1000000 * 9 / 10) * 35 / 100,
    (1000000 * 9 / 10) * 15 / 100, 1000000⟩

def BandwidthAllocation.share (a : BandwidthAllocation) : EventPriority → Nat
  | .critical => a.criticalReservedBps
  | .high => a.highMinBps
  | .normal => a.normalMinBps
  | .low => a.lowMinBps

structure TokenBucket where
  tokens : ℚ
  capacity : ℚ
  rate : ℚ
  lastRefill : Nat
  deriving DecidableEq

namespace TokenBucket

def new (capacity rate : ℚ) (now : Nat) : TokenBucket := ⟨capacity, capacity, rate, now⟩

def refill (b : TokenBucket) (now : Nat) : TokenBucket :=
  { b with
    tokens := min (b.tokens + ((now - b.lastRefill : Nat) : ℚ) / 1000000000 * b.rate) b.capacity
    lastRefill := now }

def tryConsume (b : TokenBucket) (count : ℚ) (now : Nat) : Bool × TokenBucket :=
  if (b.refill now).tokens ≥ count then
    (true, { b.refill now with tokens := (b.refill now).tokens - count })
  else
    (false, b.refill now)

def pay (b : TokenBucket) (count : ℚ) (now : Nat) : TokenBucket :=
  { b.refill now with tokens := (b.refill now).tokens - count }

theorem tryConsume_cases (b : TokenBucket) (count : ℚ) (now : Nat) :
    (count ≤ (b.refill now).tokens ∧ b.tryConsume count now = (true, b.pay count now)) ∨
    ((b.refill now).tokens < count ∧ b.tryConsume count now = (false, b.refill now)) := by
  unfold tryConsume
  by_cases h : (b.refill now).tokens ≥ count
  · exact .inl ⟨h, if_pos h⟩
  · exact .inr ⟨not_le.mp h, if_neg h⟩

end TokenBucket

inductive OverflowPolicy where
  | rejectNew | removeOldest | removeLowestPriority
  deriving DecidableEq, Repr

structure TransmitterStats where
  transmitted : EventPriority → Nat
  dropped : EventPriority → Nat
  bytesTransmitted : EventPriority → Nat

structure EventTransmitter where
  queues : Lanes EventPriority PeatEvent
  maxQueueSizes : EventPriority → Nat
  buckets : EventPriority → TokenBucket
  overflowPolicy : OverflowPolicy
  stats : TransmitterStats

def estimateEventSize (e : PeatEvent) : Nat := 200 + e.payloadValue.length

namespace EventTransmitter

def new (allocation : BandwidthAllocation) (now : Nat) : EventTransmitter where
  queues := fun _ => []
  maxQueueSizes := fun p => match p with
    | .critical => 100
    | _ => 1000
  buckets := fun p => TokenBucket.new (allocation.share p) (allocation.share p) now
  overflowPolicy := .removeLowestPriority
  stats := ⟨fun _ => 0, fun _ => 0, fun _ => 0⟩

def setMaxQueueSize (t : EventTransmitter) (p : EventPriority) (size : Nat) : EventTransmitter :=
  { t with maxQueueSizes := Function.update t.maxQueueSizes p size }

def setOverflowPolicy (t : EventTransmitter) (policy : OverflowPolicy) : EventTransmitter :=
  { t with overflowPolicy := policy }

def push (t : EventTransmitter) (e : PeatEvent) : EventTransmitter :=
  { t with queues := Lanes.pushBack t.queues e.priority e }

def countDrop (t : EventTransmitter) (p : EventPriority) : EventTransmitter :=
  { t with stats := { t.stats with dropped := Function.update t.stats.dropped p (t.stats.dropped p + 1) } }

def dropFront (t : EventTransmitter) (p : EventPriority) : EventTransmitter :=
  { t with queues := Function.update t.queues p (t.queues p).tail }.countDrop p

def dropLowestPriority (t : EventTransmitter) : Bool × EventTransmitter :=
  if !(t.queues .low).isEmpty then (true, t.dropFront .low)
  else if !(t.queues .normal).isEmpty then (true, t.dropFront .normal)
  else if !(t.queues .high).isEmpty then (true, t.dropFront .high)
  else (false, t)

def overflow (t : EventTransmitter) (e : PeatEvent) : Bool × EventTransmitter :=
  match t.overflowPolicy with
  | .rejectNew => (false, t.countDrop e.priority)
  | .removeOldest => (true, (t.dropFront e.priority).push e)
  | .removeLowestPriority =>
    match t.dropLowestPriority with
    | (true, t') => (true, t'.push e)
    | (false, t') => (false, t'.countDrop e.priority)

def enqueue (t : EventTransmitter) (e : PeatEvent) : Bool × EventTransmitter :=
  if (t.queues e.priority).length ≥ t.maxQueueSizes e.priority then t.overflow e
  else (true, t.push e)

def sendFront (t : EventTransmitter) (p : EventPriority) (e : PeatEvent) (rest : List PeatEvent)
    (bucket : TokenBucket) : EventTransmitter :=
  { t with
    queues := Function.update t.queues p rest
    buckets := Function.update t.buckets p bucket
    stats := { t.stats with
      transmitted := Function.update t.stats.transmitted p (t.stats.transmitted p + 1)
      bytesTransmitted := Function.update t.stats.bytesTransmitted p
        (t.stats.bytesTransmitted p + estimateEventSize e) } }

def sendLoop (p : EventPriority) (clock : Nat → Nat) :
    Nat → Nat → EventTransmitter → List PeatEvent × EventTransmitter
  | 0, _, t => ([], t)
  | budget + 1, k, t =>
    match t.queues p with
    | [] => ([], t)
    | e :: rest =>
      let paid := (t.buckets p).tryConsume (estimateEventSize e) (clock k)
      if paid.1 then
        let more := sendLoop p clock budget (k + 1) (t.sendFront p e rest paid.2)
        (e :: more.1, more.2)
      else ([], { t with buckets := Function.update t.buckets p paid.2 })

def transmitWeighted (t : EventTransmitter) (remaining : Nat) (clock : EventPriority → Nat → Nat) :
    List PeatEvent × EventTransmitter :=
  let highAlloc := remaining * 50 / 100
  let normalAlloc := remaining * 35 / 100
  let high := sendLoop .high (clock .high) highAlloc 0 t
  let highRemaining := highAlloc - high.1.length
  let highUnused := highAlloc - (highAlloc - highRemaining)
  let remaining := remaining - high.1.length
  -- the loop counts down both the share of its level and the events still allowed
  let normal := sendLoop .normal (clock .normal) (min (normalAlloc + highUnused) remaining) 0 high.2
  let remaining := remaining - normal.1.length
  let low := sendLoop .low (clock .low) remaining 0 normal.2
  (high.1 ++ normal.1 ++ low.1, low.2)

def transmit (t : EventTransmitter) (maxEvents : Nat) (clock : EventPriority → Nat → Nat) :
    List PeatEvent × EventTransmitter :=
  let critical := sendLoop .critical (clock .critical) maxEvents 0 t
  let remaining := maxEvents - critical.1.length
  if remaining = 0 then critical
  else
    let weighted := critical.2.transmitWeighted remaining clock
    (critical.1 ++ weighted.1, weighted.2)

def transmitCritical (t : EventTransmitter) (clock : Nat → Nat) : List PeatEvent × EventTransmitter :=
  sendLoop .critical clock (t.queues .critical).length 0 t

/-! ## 2. What an `enqueue` can do -/

/-- The level `drop_lowest_priority` takes from: the lowest non-critical one that holds events. -/
def victim (t : EventTransmitter) : Option EventPriority :=
  [EventPriority.low, .normal, .high].find? fun p => !(t.queues p).isEmpty

def Full (t : EventTransmitter) (p : EventPriority) : Prop :=
  t.maxQueueSizes p ≤ (t.queues p).length

instance (t : EventTransmitter) (p : EventPriority) : Decidable (t.Full p) :=
  inferInstanceAs (Decidable (_ ≤ _))

theorem dropLowestPriority_eq (t : EventTransmitter) :
    t.dropLowestPriority = match t.victim with
      | some v => (true, t.dropFront v)
      | none => (false, t) := by
  unfold dropLowestPriority victim
  simp only [List.find?_cons, List.find?_nil]
  cases (t.queues .low).isEmpty <;> cases (t.queues .normal).isEmpty <;>
    cases (t.queues .high).isEmpty <;> rfl

variable {t : EventTransmitter} {v : EventPriority} {e : PeatEvent}

theorem victim_some (h : t.victim = some v) :
    v ≠ .critical ∧ t.queues v ≠ [] ∧ ∀ p, t.queues p ≠ [] → p.toLevel ≤ v.toLevel := by
  unfold victim at h
  simp only [List.find?_cons, List.find?_nil] at h
  cases hl : t.queues .low with
  | cons e q =>
    rw [hl] at h
    cases Option.some.inj h
    exact ⟨nofun, by rw [hl]; nofun, fun p _ => by cases p <;> decide⟩
  | nil =>
    cases hn : t.queues .normal with
    | cons e q =>
      rw [hl, hn] at h
      cases Option.some.inj h
      refine ⟨nofun, by rw [hn]; nofun, fun p hp => ?_⟩
      cases p <;> first | decide | exact absurd hl hp
    | nil =>
      cases hh : t.queues .high with
      | cons e q =>
        rw [hl, hn, hh] at h
        cases Option.some.inj h
        refine ⟨nofun, by rw [hh]; nofun, fun p hp => ?_⟩
        cases p <;> first | decide | exact absurd hl hp | exact absurd hn hp
      | nil =>
        rw [hl, hn, hh] at h
        nomatch h

theorem victim_none (h : t.victim = none) {p : EventPriority} (hp : p ≠ .critical) :
    t.queues p = [] := by
  have hall := List.find?_eq_none.mp h
  cases p with
  | critical => exact absurd rfl hp
  | high => simpa using hall .high (by decide)
  | normal => simpa using hall .normal (by decide)
  | low => simpa using hall .low (by decide)

theorem enqueue_cases (t : EventTransmitter) (e : PeatEvent) :
    (¬ t.Full e.priority ∧ t.enqueue e = (true, t.push e)) ∨
    (t.Full e.priority ∧ (t.overflowPolicy = .rejectNew ∨
        t.overflowPolicy = .removeLowestPriority ∧ t.victim = none) ∧
      t.enqueue e = (false, t.countDrop e.priority)) ∨
    (∃ v, t.Full e.priority ∧ (t.overflowPolicy = .removeOldest ∧ v = e.priority ∨
        t.overflowPolicy = .removeLowestPriority ∧ t.victim = some v) ∧
      t.queues v ≠ [] ∧ t.enqueue e = (true, (t.dropFront v).push e)) ∨
    (t.maxQueueSizes e.priority = 0 ∧ t.overflowPolicy = .removeOldest ∧ t.queues e.priority = [] ∧
      t.enqueue e = (true, (t.countDrop e.priority).push e)) := by
  by_cases hfull : t.Full e.priority
  · have henq : t.enqueue e = t.overflow e := if_pos hfull
    rw [henq]
    unfold overflow
    cases hpol : t.overflowPolicy with
    | rejectNew => exact .inr (.inl ⟨hfull, .inl rfl, rfl⟩)
    | removeOldest =>
      by_cases hempty : t.queues e.priority = []
      · refine .inr (.inr (.inr ⟨?_, rfl, hempty, ?_⟩))
        · have hle : t.maxQueueSizes e.priority ≤ (t.queues e.priority).length := hfull
          rw [hempty] at hle
          exact Nat.le_zero.mp hle
        · have hsame : Function.update t.queues e.priority (t.queues e.priority).tail = t.queues := by
            rw [hempty]
            exact Function.update_eq_self_iff.mpr hempty.symm
          simp only [dropFront, hsame]
      · exact .inr (.inr (.inl ⟨e.priority, hfull, .inl ⟨rfl, rfl⟩, hempty, rfl⟩))
    | removeLowestPriority =>
      dsimp only
      rw [dropLowestPriority_eq]
      cases hv : t.victim with
      | none => exact .inr (.inl ⟨hfull, .inr ⟨rfl, rfl⟩, rfl⟩)
      | some v => exact .inr (.inr (.inl ⟨v, hfull, .inr ⟨rfl, rfl⟩, (victim_some hv).2.1, rfl⟩))
  · exact .inl ⟨hfull, if_neg hfull⟩

/-! ## 3. What a transmission does -/

/-- Every queue holds events of its own priority. -/
def Sorted (t : EventTransmitter) : Prop := ∀ p, ∀ e ∈ t.queues p, e.priority = p

def atLevel (p : EventPriority) (l : List PeatEvent) : List PeatEvent :=
  l.filter fun e => e.priority = p

/-- **What a transmission does**: the events `out` leave the fronts of their queues and are counted;
    drops, limits and policy stay. -/
structure Sent (t : EventTransmitter) (out : List PeatEvent) (t' : EventTransmitter) : Prop where
  queues : ∀ p, t.queues p = atLevel p out ++ t'.queues p
  transmitted : ∀ p, t'.stats.transmitted p = t.stats.transmitted p + (atLevel p out).length
  dropped : t'.stats.dropped = t.stats.dropped
  sizes : t'.maxQueueSizes = t.maxQueueSizes
  policy : t'.overflowPolicy = t.overflowPolicy

namespace Sent

variable {t t₁ t₂ : EventTransmitter} {out out' : List PeatEvent}

theorem sorted (h : Sent t out t₁) (hs : t.Sorted) : t₁.Sorted := by
  intro p e he
  refine hs p e ?_
  rw [h.queues p]
  exact List.mem_append_right _ he

theorem trans (h : Sent t out t₁) (h' : Sent t₁ out' t₂) : Sent t (out ++ out') t₂ := by
  have hsplit : ∀ p, atLevel p (out ++ out') = atLevel p out ++ atLevel p out' := fun p =>
    List.filter_append _ _
  refine ⟨fun p => ?_, fun p => ?_, h'.dropped.trans h.dropped, h'.sizes.trans h.sizes,
    h'.policy.trans h.policy⟩
  · rw [hsplit, List.append_assoc, ← h'.queues p, ← h.queues p]
  · rw [hsplit, List.length_append, h'.transmitted p, h.transmitted p]
    omega

theorem buckets (t : EventTransmitter) (b : EventPriority → TokenBucket) :
    Sent t [] { t with buckets := b } := ⟨fun _ => rfl, fun _ => rfl, rfl, rfl, rfl⟩

end Sent

theorem sendFront_sent {p : EventPriority} {rest : List PeatEvent} (hq : t.queues p = e :: rest)
    (he : e.priority = p) (b : TokenBucket) : Sent t [e] (t.sendFront p e rest b) := by
  refine ⟨fun q => ?_, fun q => ?_, rfl, rfl, rfl⟩
  · by_cases hqp : q = p
    · subst hqp
      simp [sendFront, atLevel, he, hq]
    · have hne : e.priority ≠ q := fun h => hqp (h.symm.trans he)
      simp [sendFront, atLevel, hne, hqp]
  · by_cases hqp : q = p
    · subst hqp
      simp [sendFront, atLevel, he]
    · have hne : e.priority ≠ q := fun h => hqp (h.symm.trans he)
      simp [sendFront, atLevel, hne, hqp]

/-- The first event of the queue is affordable now. -/
def FrontFits (t : EventTransmitter) (now : Nat) (p : EventPriority) : Prop :=
  ∃ e rest, t.queues p = e :: rest ∧
    (estimateEventSize e : ℚ) ≤ ((t.buckets p).refill now).tokens

variable (p : EventPriority)

theorem sendLoop_round (clock : Nat → Nat) (k : Nat) (t : EventTransmitter) :
    (t.queues p = [] ∧ ∀ budget, sendLoop p clock (budget + 1) k t = ([], t)) ∨
    (¬ t.FrontFits (clock k) p ∧ t.queues p ≠ [] ∧ ∀ budget, sendLoop p clock (budget + 1) k t =
      ([], { t with buckets := Function.update t.buckets p ((t.buckets p).refill (clock k)) })) ∨
    ∃ e rest, t.queues p = e :: rest ∧
      (estimateEventSize e : ℚ) ≤ ((t.buckets p).refill (clock k)).tokens ∧
      ∀ budget, sendLoop p clock (budget + 1) k t =
        let more := sendLoop p clock budget (k + 1)
          (t.sendFront p e rest ((t.buckets p).pay (estimateEventSize e) (clock k)))
        (e :: more.1, more.2) := by
  cases hq : t.queues p with
  | nil => exact .inl ⟨rfl, fun budget => by rw [sendLoop, hq]⟩
  | cons e rest =>
    rcases (t.buckets p).tryConsume_cases (estimateEventSize e) (clock k) with ⟨hle, hc⟩ | ⟨hlt, hc⟩
    · refine .inr (.inr ⟨e, rest, rfl, hle, fun budget => ?_⟩)
      rw [sendLoop, hq]
      dsimp only
      rw [hc, if_pos rfl]
    · refine .inr (.inl ⟨fun hfits => ?_, List.cons_ne_nil e rest, fun budget => ?_⟩)
      · obtain ⟨e', rest', e1, hle⟩ := hfits
        rw [hq] at e1
        cases e1
        exact absurd hle (not_le.mpr hlt)
      · rw [sendLoop, hq]
        dsimp only
        rw [hc, if_neg Bool.false_ne_true]

theorem length_sendLoop_le {p : EventPriority} {clock : Nat → Nat} (budget k : Nat)
    (t : EventTransmitter) :
    (sendLoop p clock budget k t).1.length ≤ budget := by
  induction budget generalizing k t with
  | zero => exact Nat.le_refl 0
  | succ budget ih =>
    rcases sendLoop_round p clock k t with ⟨_, h⟩ | ⟨_, _, h⟩ | ⟨e, rest, _, _, h⟩ <;> rw [h budget]
    · exact Nat.zero_le _
    · exact Nat.zero_le _
    · exact Nat.succ_le_succ (ih _ _)

theorem sendLoop_sent (clock : Nat → Nat) (budget k : Nat) (hs : t.Sorted) :
    Sent t (sendLoop p clock budget k t).1 (sendLoop p clock budget k t).2 ∧
      ∀ e ∈ (sendLoop p clock budget k t).1, e.priority = p := by
  have hnone : ∀ e ∈ ([] : List PeatEvent), e.priority = p := fun _ h => absurd h List.not_mem_nil
  induction budget generalizing k t with
  | zero => exact ⟨Sent.buckets t t.buckets, hnone⟩
  | succ budget ih =>
    rcases sendLoop_round p clock k t with ⟨_, h⟩ | ⟨_, _, h⟩ | ⟨e, rest, hq, _, h⟩ <;> rw [h budget]
    · exact ⟨Sent.buckets t t.buckets, hnone⟩
    · exact ⟨Sent.buckets t _, hnone⟩
    · have he : e.priority = p := hs p e (by rw [hq]; exact List.mem_cons_self)
      have hfront := sendFront_sent hq he ((t.buckets p).pay (estimateEventSize e) (clock k))
      obtain ⟨hmore, hlevel⟩ := ih (k + 1) (hfront.sorted hs)
      exact ⟨hfront.trans hmore, List.forall_mem_cons.mpr ⟨he, hlevel⟩⟩

theorem sendLoop_ends (clock : Nat → Nat) {budget k : Nat} (h : (t.queues p).length ≤ budget) :
    sendLoop p clock (budget + 1) k t = sendLoop p clock budget k t := by
  induction budget generalizing k t with
  | zero =>
    have hnil : t.queues p = [] := List.length_eq_zero_iff.mp (Nat.le_zero.mp h)
    have hend : sendLoop p clock (0 + 1) k t = ([], t) := by rw [sendLoop, hnil]
    exact hend
  | succ budget ih =>
    rcases sendLoop_round p clock k t with ⟨_, hend⟩ | ⟨_, _, hend⟩ | ⟨e, rest, hq, _, hsend⟩
    · rw [hend, hend]
    · rw [hend, hend]
    · have hlen : (Function.update t.queues p rest p).length ≤ budget := by
        rw [hq, List.length_cons] at h
        rw [Function.update_self]
        omega
      rw [hsend, hsend, ih hlen]

theorem transmitCritical_ends (t : EventTransmitter) (clock : Nat → Nat) (more : Nat) :
    sendLoop .critical clock ((t.queues .critical).length + more) 0 t = t.transmitCritical clock := by
  induction more with
  | zero => rfl
  | succ more ih =>
    rw [← ih]
    exact sendLoop_ends _ _ (Nat.le_add_right _ _)

def highBudget (remaining : Nat) : Nat := remaining * 50 / 100

def normalBudget (remaining high : Nat) : Nat :=
  min (remaining * 35 / 100 + (highBudget remaining - high)) (remaining - high)

theorem transmit_eq (t : EventTransmitter) (n : Nat) (clock : EventPriority → Nat → Nat) :
    let critical := sendLoop .critical (clock .critical) n 0 t
    let remaining := n - critical.1.length
    let high := sendLoop .high (clock .high) (highBudget remaining) 0 critical.2
    let normal := sendLoop .normal (clock .normal) (normalBudget remaining high.1.length) 0 high.2
    let low := sendLoop .low (clock .low) (remaining - high.1.length - normal.1.length) 0 normal.2
    t.transmit n clock = (critical.1 ++ (high.1 ++ normal.1 ++ low.1), low.2) := by
  intro critical remaining high normal low
  have hhigh : high.1.length ≤ highBudget remaining := length_sendLoop_le _ _ _
  have hunused : remaining * 50 / 100 -
      (remaining * 50 / 100 - (remaining * 50 / 100 - high.1.length)) =
        highBudget remaining - high.1.length := by
    unfold highBudget at hhigh ⊢
    omega
  have hweighted : critical.2.transmitWeighted remaining clock =
      (high.1 ++ normal.1 ++ low.1, low.2) := by
    unfold transmitWeighted
    dsimp only
    rw [show sendLoop .high (clock .high) (remaining * 50 / 100) 0 critical.2 = high from rfl, hunused]
    rfl
  show (if remaining = 0 then critical
    else (critical.1 ++ (critical.2.transmitWeighted remaining clock).1,
      (critical.2.transmitWeighted remaining clock).2)) = _
  by_cases hzero : remaining = 0
  · have hnone : critical.2.transmitWeighted remaining clock = ([], critical.2) := by
      rw [hzero]
      rfl
    obtain ⟨hout, hafter⟩ := Prod.mk.inj (hweighted.symm.trans hnone)
    rw [if_pos hzero, hout, hafter, List.append_nil]
  · rw [if_neg hzero, hweighted]

theorem transmit_sent (t : EventTransmitter) (hs : t.Sorted) (maxEvents : Nat)
    (clock : EventPriority → Nat → Nat) :
    Sent t (t.transmit maxEvents clock).1 (t.transmit maxEvents clock).2 := by
  have hsorted : ∀ {t p clock budget}, t.Sorted → (sendLoop p clock budget 0 t).2.Sorted :=
    fun h => (sendLoop_sent _ _ _ 0 h).1.sorted h
  rw [transmit_eq]
  refine (sendLoop_sent _ _ _ 0 hs).1.trans ((Sent.trans (sendLoop_sent _ _ _ 0 ?_).1
    (sendLoop_sent _ _ _ 0 ?_).1).trans (sendLoop_sent _ _ _ 0 ?_).1)
  · exact hsorted hs
  · exact hsorted (hsorted hs)
  · exact hsorted (hsorted (hsorted hs))

theorem transmitCritical_sent (t : EventTransmitter) (hs : t.Sorted) (clock : Nat → Nat) :
    Sent t (t.transmitCritical clock).1 (t.transmitCritical clock).2 :=
  (sendLoop_sent .critical clock _ 0 hs).1

/-! ## 4. Runs, and the limits of the queues -/

inductive Call where
  | enqueue (e : PeatEvent)
  | transmit (maxEvents : Nat) (clock : EventPriority → Nat → Nat)
  | transmitCritical (clock : Nat → Nat)

def call (t : EventTransmitter) : Call → EventTransmitter
  | .enqueue e => (t.enqueue e).2
  | .transmit n clock => (t.transmit n clock).2
  | .transmitCritical clock => (t.transmitCritical clock).2

theorem queues_push (t : EventTransmitter) (e : PeatEvent) (p : EventPriority) :
    (t.push e).queues p = if p = e.priority then t.queues p ++ [e] else t.queues p :=
  Lanes.pushBack_apply t.queues e.priority p e

theorem queues_dropFront (t : EventTransmitter) (v p : EventPriority) :
    (t.dropFront v).queues p = if p = v then (t.queues p).tail else t.queues p :=
  Lanes.update_map_apply t.queues List.tail v p

theorem sorted_push (hs : t.Sorted) (e : PeatEvent) : (t.push e).Sorted := by
  intro p x hx
  rcases Lanes.mem_update_append hx with hold | ⟨rfl, hnew⟩
  · exact hs p x hold
  · rw [List.mem_singleton.mp hnew]

theorem sorted_dropFront (hs : t.Sorted) (v : EventPriority) : (t.dropFront v).Sorted := by
  intro p x hx
  rw [queues_dropFront] at hx
  split at hx
  · exact hs p x (List.mem_of_mem_tail hx)
  · exact hs p x hx

theorem sorted_enqueue (hs : t.Sorted) (e : PeatEvent) : (t.enqueue e).2.Sorted := by
  rcases t.enqueue_cases e with ⟨_, h⟩ | ⟨_, _, h⟩ | ⟨v, _, _, _, h⟩ | ⟨_, _, _, h⟩ <;> rw [h]
  · exact sorted_push hs e
  · exact hs
  · exact sorted_push (sorted_dropFront hs v) e
  · exact sorted_push (t := t.countDrop e.priority) hs e

theorem sorted_call (hs : t.Sorted) (c : Call) : (t.call c).Sorted := by
  cases c with
  | enqueue e => exact sorted_enqueue hs e
  | transmit n clock => exact (t.transmit_sent hs n clock).sorted hs
  | transmitCritical clock => exact (t.transmitCritical_sent hs clock).sorted hs

/-- No queue is longer than its limit. -/
def Bounded (t : EventTransmitter) : Prop :=
  ∀ p, (t.queues p).length ≤ t.maxQueueSizes p

/-- There is room in the queue, or the policy makes it there. -/
def Fits (t : EventTransmitter) : Call → Prop
  | .enqueue e => (t.queues e.priority).length < t.maxQueueSizes e.priority ∨
      t.overflowPolicy = .rejectNew ∨
      t.overflowPolicy = .removeOldest ∧ t.maxQueueSizes e.priority ≠ 0 ∨
      t.overflowPolicy = .removeLowestPriority ∧
        (t.victim = none ∨ t.victim = some e.priority)
  | _ => True

instance (t : EventTransmitter) : ∀ c : Call, Decidable (t.Fits c)
  | .enqueue _ => inferInstanceAs (Decidable (_ ∨ _))
  | .transmit .. => .isTrue trivial
  | .transmitCritical .. => .isTrue trivial

theorem Sent.bounded {t' : EventTransmitter} {out : List PeatEvent} (h : Sent t out t')
    (hb : t.Bounded) : t'.Bounded := by
  intro p
  have hle := hb p
  rw [h.queues p, List.length_append] at hle
  rw [h.sizes]
  omega

theorem Bounded.push (hb : t.Bounded)
    (hroom : (t.queues e.priority).length < t.maxQueueSizes e.priority) : (t.push e).Bounded := by
  intro p
  have hp := hb p
  rw [queues_push]
  show _ ≤ t.maxQueueSizes p
  split
  · rename_i heq
    subst heq
    rw [List.length_append, List.length_singleton]
    omega
  · exact hp

theorem Bounded.dropFront (hb : t.Bounded) (v : EventPriority) : (t.dropFront v).Bounded := by
  intro p
  have hp := hb p
  rw [queues_dropFront]
  show _ ≤ t.maxQueueSizes p
  split
  · rw [List.length_tail]
    omega
  · exact hp

theorem not_bounded_push (hfull : t.Full e.priority) : ¬ (t.push e).Bounded := by
  intro hb
  have hp := hb e.priority
  rw [queues_push, if_pos rfl, List.length_append, List.length_singleton] at hp
  have hle : t.maxQueueSizes e.priority ≤ (t.queues e.priority).length := hfull
  have hsize : (t.push e).maxQueueSizes = t.maxQueueSizes := rfl
  rw [hsize] at hp
  omega

theorem bounded_dropFront_push_iff (hb : t.Bounded) (hfull : t.Full e.priority)
    (hne : t.queues v ≠ []) : ((t.dropFront v).push e).Bounded ↔ v = e.priority := by
  have hsizes : (t.dropFront v).maxQueueSizes = t.maxQueueSizes := rfl
  by_cases hsame : v = e.priority
  · subst hsame
    have hpos := List.length_pos_iff.mpr hne
    have hle := hb e.priority
    refine iff_of_true ((hb.dropFront _).push ?_) rfl
    rw [queues_dropFront, if_pos rfl, List.length_tail, hsizes]
    omega
  · refine iff_of_false (not_bounded_push ?_) hsame
    show (t.dropFront v).maxQueueSizes _ ≤ _
    rw [queues_dropFront, if_neg (Ne.symm hsame), hsizes]
    exact hfull

theorem fits_enqueue_of_full (hfull : t.Full e.priority) :
    t.Fits (.enqueue e) ↔ t.overflowPolicy = .rejectNew ∨
      t.overflowPolicy = .removeOldest ∧ t.maxQueueSizes e.priority ≠ 0 ∨
      t.overflowPolicy = .removeLowestPriority ∧ (t.victim = none ∨ t.victim = some e.priority) :=
  or_iff_right (Nat.not_lt.mpr hfull)

theorem bounded_enqueue_iff (hb : t.Bounded) (e : PeatEvent) :
    (t.enqueue e).2.Bounded ↔ t.Fits (.enqueue e) := by
  rcases t.enqueue_cases e with ⟨hroom, h⟩ | ⟨hfull, hpol, h⟩ | ⟨v, hfull, hpol, hne, h⟩ |
    ⟨hmax, hpol, _, h⟩ <;> rw [h]
  · have hlt : (t.queues e.priority).length < t.maxQueueSizes e.priority := Nat.lt_of_not_le hroom
    exact iff_of_true (hb.push hlt) (.inl hlt)
  · rw [fits_enqueue_of_full hfull]
    refine iff_of_true hb ?_
    rcases hpol with hpol | ⟨hpol, hv⟩
    · exact .inl hpol
    · exact .inr (.inr ⟨hpol, .inl hv⟩)
  · rw [bounded_dropFront_push_iff hb hfull hne, fits_enqueue_of_full hfull]
    rcases hpol with ⟨hpol, hv⟩ | ⟨hpol, hv⟩
    · subst hv
      have hpos := List.length_pos_iff.mpr hne
      have hle := hb e.priority
      exact iff_of_true rfl (.inr (.inl ⟨hpol, by omega⟩))
    · simp [hpol, hv]
  · have hfull : t.Full e.priority := by
      show t.maxQueueSizes e.priority ≤ _
      rw [hmax]
      exact Nat.zero_le _
    rw [fits_enqueue_of_full hfull]
    exact iff_of_false (not_bounded_push hfull) (by simp [hpol, hmax])

theorem bounded_call_iff (hs : t.Sorted) (hb : t.Bounded) (c : Call) :
    (t.call c).Bounded ↔ t.Fits c := by
  cases c with
  | enqueue e => exact bounded_enqueue_iff hb e
  | transmit n clock => exact iff_of_true ((t.transmit_sent hs n clock).bounded hb) trivial
  | transmitCritical clock => exact iff_of_true ((t.transmitCritical_sent hs clock).bounded hb) trivial

def configured (allocation : BandwidthAllocation) (now : Nat) (sizes : EventPriority → Nat)
    (policy : OverflowPolicy) : EventTransmitter :=
  { new allocation now with maxQueueSizes := sizes, overflowPolicy := policy }

/-- **The limits along a run**: every queue stays within its limit exactly when every event that meets a
    full queue is refused or takes the place of an event of that very queue. -/
theorem bounded_iff (allocation : BandwidthAllocation) (now : Nat) (sizes : EventPriority → Nat)
    (policy : OverflowPolicy) (calls : List Call) :
    (∀ pre, pre <+: calls → (run call (configured allocation now sizes policy) pre).Bounded) ↔
      RunMeets call Fits (configured allocation now sizes policy) calls := by
  have hstart : (configured allocation now sizes policy).Sorted ∧
      (configured allocation now sizes policy).Bounded :=
    ⟨fun _ _ he => absurd he List.not_mem_nil, fun _ => Nat.zero_le _⟩
  have hsorted : ∀ pre, (run call (configured allocation now sizes policy) pre).Sorted := fun pre =>
    run_invariant Sorted (fun _ c hs => sorted_call hs c) hstart.1 pre
  rw [← run_within_iff (fun t => t.Sorted ∧ t.Bounded) (fun t c h => ?_) hstart]
  · exact forall₂_congr fun pre _ => (and_iff_right (hsorted pre)).symm
  · rw [and_iff_right (sorted_call h.1 c)]
    exact bounded_call_iff h.1 h.2 c

def sampleEvent (p : EventPriority) : PeatEvent :=
  ⟨"event-1", none, "node-1", "cell-1", none, 1, "test", some ⟨0, p.toI32, 300, 0⟩, "", []⟩

/-- With a limit of one, the second HIGH event evicts the LOW one and joins the first; a limit of zero does
    not keep `RemoveOldest` from queueing. -/
theorem limit_exceeded :
    ¬ (run call (configured .default 0 (fun _ => 1) .removeLowestPriority)
        [.enqueue (sampleEvent .low), .enqueue (sampleEvent .high),
          .enqueue (sampleEvent .high)]).Bounded ∧
      ¬ (run call (configured .default 0 (fun _ => 0) .removeOldest)
        [.enqueue (sampleEvent .high)]).Bounded :=
  ⟨fun h => absurd (h .high) (by decide), fun h => absurd (h .high) (by decide)⟩

/-! ## 5. Which events `RemoveLowestPriority` drops -/

inductive Op where
  | call (c : Call)
  | setMaxQueueSize (p : EventPriority) (size : Nat)
  | setOverflowPolicy (policy : OverflowPolicy)

def step (t : EventTransmitter) : Op → EventTransmitter
  | .call c => t.call c
  | .setMaxQueueSize p size => t.setMaxQueueSize p size
  | .setOverflowPolicy policy => t.setOverflowPolicy policy

def Refuses (t : EventTransmitter) (e : PeatEvent) : Prop := (t.enqueue e).1 = false

def Evicts (t : EventTransmitter) (e : PeatEvent) (v : EventPriority) (x : PeatEvent) : Prop :=
  (t.enqueue e).1 = true ∧ ∃ rest, t.queues v = x :: rest ∧
    (t.enqueue e).2.queues v = if v = e.priority then rest ++ [e] else rest

/-- **Drops by priority**: no queued event of higher priority than the offered one is dropped, a critical
    one only if it is the offered one and no other level holds events; and no queued event has lower
    priority than the dropped one. -/
structure DropsByPriority (t : EventTransmitter) (e : PeatEvent) : Prop where
  notHigher : ∀ v x, t.Evicts e v x → e.priority.toLevel ≤ v.toLevel
  criticalKept : ∀ x, ¬ t.Evicts e .critical x
  criticalRefused : t.Refuses e → e.priority = .critical → ∀ p, p ≠ .critical → t.queues p = []
  evictedLowest : ∀ v x, t.Evicts e v x → ∀ p, t.queues p ≠ [] → p.toLevel ≤ v.toLevel
  refusedLowest : t.Refuses e → ∀ p, t.queues p ≠ [] → p.toLevel ≤ e.priority.toLevel

/-- An event is offered to a level with limit zero, this level and all below it are empty, and a
    higher one that is not critical holds events. -/
def Inverts (t : EventTransmitter) (e : PeatEvent) : Prop :=
  t.maxQueueSizes e.priority = 0 ∧
    (∀ p, e.priority.toLevel ≤ p.toLevel → t.queues p = []) ∧
    ∃ p, p ≠ .critical ∧ p.toLevel < e.priority.toLevel ∧ t.queues p ≠ []

theorem evicts_of_dropFront {w : EventPriority} {x : PeatEvent}
    (h : t.enqueue e = (true, (t.dropFront v).push e)) (hx : t.Evicts e w x) : w = v := by
  obtain ⟨_, rest, hw, hafter⟩ := hx
  rw [h, queues_push, queues_dropFront] at hafter
  by_contra hne
  rw [if_neg hne, hw] at hafter
  have hlen := congrArg List.length hafter
  split at hlen <;> simp at hlen

theorem not_evicts_of_push {w : EventPriority} {x : PeatEvent}
    (h : t.enqueue e = (true, t.push e)) : ¬ t.Evicts e w x := by
  rintro ⟨_, rest, hw, hafter⟩
  rw [h, queues_push, hw] at hafter
  have hlen := congrArg List.length hafter
  split at hlen <;> simp at hlen

section DropsByPriority

variable {t : EventTransmitter} {e : PeatEvent}

theorem dropsByPriority_of_push (h : t.enqueue e = (true, t.push e)) : t.DropsByPriority e := by
  have hrefuses : ¬ t.Refuses e := by
    rw [Refuses, h]
    nofun
  exact ⟨fun _ _ hx => absurd hx (not_evicts_of_push h), fun _ => not_evicts_of_push h,
    fun hr => absurd hr hrefuses, fun _ _ hx => absurd hx (not_evicts_of_push h),
    fun hr => absurd hr hrefuses⟩

theorem dropsByPriority_of_victim_none (hv : t.victim = none)
    (h : t.enqueue e = (false, t.countDrop e.priority)) : t.DropsByPriority e := by
  have hno : ∀ v x, ¬ t.Evicts e v x := by
    rintro v x ⟨ht, _⟩
    rw [h] at ht
    nomatch ht
  refine ⟨fun v x hx => absurd hx (hno v x), fun x => hno _ x, fun _ _ p hp => victim_none hv hp,
    fun v x hx => absurd hx (hno v x), fun _ p hp => ?_⟩
  by_cases hc : p = .critical
  · subst hc
    exact Nat.zero_le _
  · exact absurd (victim_none hv hc) hp

theorem inverts_of_victim_lt {v : EventPriority} (hv : t.victim = some v) (hfull : t.Full e.priority)
    (hlt : v.toLevel < e.priority.toLevel) : t.Inverts e := by
  obtain ⟨hcrit, hne, hlowest⟩ := victim_some hv
  have hbelow : ∀ p, e.priority.toLevel ≤ p.toLevel → t.queues p = [] := by
    intro p hp
    by_contra hq
    have := hlowest p hq
    omega
  refine ⟨?_, hbelow, v, hcrit, hlt, hne⟩
  have hle : t.maxQueueSizes e.priority ≤ (t.queues e.priority).length := hfull
  rw [hbelow e.priority (Nat.le_refl _)] at hle
  exact Nat.le_zero.mp hle

theorem dropsByPriority_victim_iff {v : EventPriority} (hv : t.victim = some v)
    (hfull : t.Full e.priority) (h : t.enqueue e = (true, (t.dropFront v).push e)) :
    t.DropsByPriority e ↔ ¬ t.Inverts e := by
  obtain ⟨hcrit, hne, hlowest⟩ := victim_some hv
  have hrefuses : ¬ t.Refuses e := by
    rw [Refuses, h]
    nofun
  constructor
  · rintro hdrop ⟨_, hbelow, _⟩
    obtain ⟨x, rest, hx⟩ := List.exists_cons_of_ne_nil hne
    have hevicts : t.Evicts e v x := by
      refine ⟨by rw [h], rest, hx, ?_⟩
      rw [h, queues_push, queues_dropFront, if_pos rfl, hx]
      rfl
    exact hne (hbelow v (hdrop.notHigher v x hevicts))
  · intro hinv
    refine ⟨fun w y hy => ?_, fun y hy => hcrit (evicts_of_dropFront h hy).symm,
      fun hr => absurd hr hrefuses, fun w y hy p hp => ?_, fun hr => absurd hr hrefuses⟩
    · rw [evicts_of_dropFront h hy]
      by_contra hlt
      exact hinv (inverts_of_victim_lt hv hfull (Nat.lt_of_not_le hlt))
    · rw [evicts_of_dropFront h hy]
      exact hlowest p hp

theorem dropsByPriority_iff (hpol : t.overflowPolicy = .removeLowestPriority) :
    t.DropsByPriority e ↔ ¬ t.Inverts e := by
  have hother : ∀ {policy : OverflowPolicy}, t.overflowPolicy = policy → policy ≠ .removeLowestPriority →
      False := fun h hne => hne (h.symm.trans hpol)
  rcases t.enqueue_cases e with ⟨hroom, h⟩ | ⟨-, hwhy, h⟩ | ⟨v, hfull, hwhy, -, h⟩ | ⟨_, hold, _⟩
  · refine iff_of_true (dropsByPriority_of_push h) fun hinv => hroom ?_
    show t.maxQueueSizes e.priority ≤ _
    rw [hinv.1]
    exact Nat.zero_le _
  · rcases hwhy with hreject | ⟨_, hv⟩
    · exact (hother hreject nofun).elim
    · refine iff_of_true (dropsByPriority_of_victim_none hv h) ?_
      rintro ⟨_, _, p, hc, _, hp⟩
      exact hp (victim_none hv hc)
  · rcases hwhy with ⟨hold, _⟩ | ⟨_, hv⟩
    · exact (hother hold nofun).elim
    · exact dropsByPriority_victim_iff hv hfull h
  · exact (hother hold nofun).elim

end DropsByPriority

/-- A condition on the events enqueued under `RemoveLowestPriority`. -/
def UnderLowest (C : EventTransmitter → PeatEvent → Prop) (t : EventTransmitter) : Op → Prop
  | .call (.enqueue e) => t.overflowPolicy = .removeLowestPriority → C t e
  | _ => True

/-- **Priority along a run**: every `enqueue` under `RemoveLowestPriority` drops by priority exactly
    when none of them inverts. -/
theorem drops_iff (allocation : BandwidthAllocation) (now : Nat) (ops : List Op) :
    RunMeets step (UnderLowest DropsByPriority) (new allocation now) ops ↔
      RunMeets step (UnderLowest fun t e => ¬ t.Inverts e) (new allocation now) ops := by
  refine runMeets_congr fun t op => ?_
  cases op with
  | call c =>
    cases c with
    | enqueue e => exact forall_congr' fun hpol => dropsByPriority_iff hpol
    | transmit n clock => exact Iff.rfl
    | transmitCritical clock => exact Iff.rfl
  | setMaxQueueSize p size => exact Iff.rfl
  | setOverflowPolicy policy => exact Iff.rfl

/-- With a limit of zero for LOW, a LOW event drops the queued HIGH one. -/
theorem low_drops_high :
    ¬ RunMeets step (UnderLowest DropsByPriority) (new .default 0)
      [.setMaxQueueSize .low 0, .call (.enqueue (sampleEvent .high)),
        .call (.enqueue (sampleEvent .low))] := by
  intro h
  have hdrop := h.2.2.1 rfl
  have hle := hdrop.notHigher .high (sampleEvent .high) ⟨by decide, [], by decide, by decide⟩
  exact absurd hle (by decide)

end EventTransmitter

end Peat.Event
