/-
  WHAT ONE `transmit` SENDS (event/transmitter.rs): how many events, in which order,
  paid from which tokens, and when it sends nothing.

  Tokens are refilled at every `try_consume`, so a loop has what its bucket holds at
  first and what flows in until the last reading (`Afforded`).
-/
import Mathlib.Tactic.Linarith
import Mathlib.Tactic.Ring
import Peat.Event.Transmitter

namespace Peat.Event

open Peat.Lib

/-! ## 1. Buckets -/

namespace TokenBucket

structure Sound (b : TokenBucket) : Prop where
  tokens : 0 ≤ b.tokens
  capacity : 0 ≤ b.capacity
  rate : 0 ≤ b.rate

def inflow (b : TokenBucket) (first last : Nat) : ℚ :=
  ((last - first : Nat) : ℚ) / 1000000000 * b.rate

variable {b : TokenBucket}

theorem Sound.inflow_nonneg (h : b.Sound) (first last : Nat) : 0 ≤ b.inflow first last :=
  mul_nonneg (div_nonneg (Nat.cast_nonneg _) (by norm_num)) h.rate

theorem inflow_add (b : TokenBucket) {first mid last : Nat} (h : first ≤ mid) (h' : mid ≤ last) :
    b.inflow first mid + b.inflow mid last = b.inflow first last := by
  unfold inflow
  rw [Nat.cast_sub h, Nat.cast_sub h', Nat.cast_sub (h.trans h')]
  ring

theorem Sound.refill (h : b.Sound) (now : Nat) : (b.refill now).Sound :=
  ⟨le_min (add_nonneg h.tokens (h.inflow_nonneg b.lastRefill now)) h.capacity, h.capacity, h.rate⟩

theorem inflow_self (b : TokenBucket) (now : Nat) : b.inflow now now = 0 := by
  unfold inflow
  rw [Nat.sub_self, Nat.cast_zero, zero_div, zero_mul]

theorem Sound.pay (h : b.Sound) {count : ℚ} {now : Nat} (hle : count ≤ (b.refill now).tokens) :
    (b.pay count now).Sound :=
  ⟨sub_nonneg.mpr hle, h.capacity, h.rate⟩

theorem tokens_pay (b : TokenBucket) (count : ℚ) (now : Nat) :
    (b.pay count now).tokens = (b.refill now).tokens - count := rfl

theorem inflow_pay (b : TokenBucket) (count : ℚ) (now first last : Nat) :
    (b.pay count now).inflow first last = b.inflow first last := rfl

theorem tokens_refill_pay_le (b : TokenBucket) (count : ℚ) (now next : Nat) :
    ((b.pay count now).refill next).tokens ≤
      (b.refill now).tokens - count + b.inflow now next := min_le_left _ _

end TokenBucket

namespace EventTransmitter

/-- Every bucket is within its capacity. -/
def Sound (t : EventTransmitter) : Prop := ∀ p, (t.buckets p).Sound

def sizes (l : List PeatEvent) : Nat := (l.map estimateEventSize).sum

/-- **The events were paid for**: with what the bucket `b` held at `first` and what flowed in until
    `last`. -/
def Afforded (b : TokenBucket) (first last : Nat) (out : List PeatEvent) : Prop :=
  (sizes out : ℚ) ≤ (b.refill first).tokens + b.inflow first last

variable {p : EventPriority} {t : EventTransmitter}

section Loop

variable {clock : Nat → Nat}

/-! ## 2. One loop -/

theorem sendLoop_ne_nil_iff (budget k : Nat) (t : EventTransmitter) :
    (sendLoop p clock budget k t).1 ≠ [] ↔ 0 < budget ∧ t.FrontFits (clock k) p := by
  cases budget with
  | zero => exact iff_of_false (fun h => h rfl) fun h => absurd h.1 (Nat.lt_irrefl 0)
  | succ budget =>
    rcases sendLoop_round p clock k t with ⟨hq, h⟩ | ⟨hno, _, h⟩ | ⟨e, rest, hq, hle, h⟩ <;>
      rw [h budget]
    · refine iff_of_false (fun hne => hne rfl) fun hfits => ?_
      obtain ⟨e, rest, he, _⟩ := hfits.2
      rw [hq] at he
      nomatch he
    · exact iff_of_false (fun hne => hne rfl) fun hfits => hno hfits.2
    · exact iff_of_true (List.cons_ne_nil _ _) ⟨Nat.succ_pos _, e, rest, hq, hle⟩

theorem sendLoop_buckets (budget k : Nat) (t : EventTransmitter) {q : EventPriority} (hq : q ≠ p) :
    (sendLoop p clock budget k t).2.buckets q = t.buckets q := by
  induction budget generalizing k t with
  | zero => rfl
  | succ budget ih =>
    rcases sendLoop_round p clock k t with ⟨_, h⟩ | ⟨_, _, h⟩ | ⟨e, rest, _, _, h⟩ <;> rw [h budget]
    · exact Function.update_of_ne hq _ _
    · exact (ih _ _).trans (Function.update_of_ne hq _ _)

theorem buckets_sendFront (t : EventTransmitter) (p : EventPriority) (e : PeatEvent)
    (rest : List PeatEvent) (b : TokenBucket) : (t.sendFront p e rest b).buckets p = b :=
  Function.update_self _ _ _

theorem sound_update (hs : t.Sound) {b : TokenBucket} (hb : b.Sound) (q : EventPriority) :
    (Function.update t.buckets p b q).Sound := by
  by_cases h : q = p
  · rw [h, Function.update_self]
    exact hb
  · rw [Function.update_of_ne h]
    exact hs q

theorem sound_sendLoop (budget k : Nat) (hs : t.Sound) : (sendLoop p clock budget k t).2.Sound := by
  induction budget generalizing k t with
  | zero => exact hs
  | succ budget ih =>
    rcases sendLoop_round p clock k t with ⟨_, h⟩ | ⟨_, _, h⟩ | ⟨e, rest, _, hle, h⟩ <;> rw [h budget]
    · exact hs
    · exact sound_update hs ((hs p).refill (clock k))
    · exact ih (k + 1) (sound_update hs ((hs p).pay hle))

theorem sizes_cons (e : PeatEvent) (l : List PeatEvent) :
    ((sizes (e :: l) : Nat) : ℚ) = (estimateEventSize e : ℚ) + sizes l := by
  unfold sizes
  rw [List.map_cons, List.sum_cons, Nat.cast_add]

theorem sendLoop_tokens (hclock : Monotone clock) (budget k : Nat) (t : EventTransmitter) :
    sendLoop p clock budget k t = ([], t) ∨
    (clock k ≤ ((sendLoop p clock budget k t).2.buckets p).lastRefill ∧
      (sizes (sendLoop p clock budget k t).1 : ℚ) + ((sendLoop p clock budget k t).2.buckets p).tokens ≤
        ((t.buckets p).refill (clock k)).tokens +
          (t.buckets p).inflow (clock k) ((sendLoop p clock budget k t).2.buckets p).lastRefill) := by
  induction budget generalizing k t with
  | zero => exact .inl rfl
  | succ budget ih =>
    rcases sendLoop_round p clock k t with ⟨_, h⟩ | ⟨_, _, h⟩ | ⟨e, rest, _, hle, h⟩ <;> rw [h budget]
    · exact .inl rfl
    · refine .inr ?_
      dsimp only
      rw [Function.update_self]
      refine ⟨Nat.le_refl _, ?_⟩
      show (sizes [] : ℚ) + _ ≤ _ + (t.buckets p).inflow (clock k) (clock k)
      rw [TokenBucket.inflow_self, add_zero]
      exact (zero_add _).le
    · -- the front event is paid at this reading, the rest by the induction hypothesis
      refine .inr ?_
      have hmore := ih (k + 1)
        (t.sendFront p e rest ((t.buckets p).pay (estimateEventSize e) (clock k)))
      have hpaid := TokenBucket.tokens_pay (t.buckets p) (estimateEventSize e) (clock k)
      dsimp only
      rw [sizes_cons]
      rcases hmore with hnone | ⟨hlater, hmore⟩
      · rw [hnone, buckets_sendFront]
        refine ⟨Nat.le_refl _, ?_⟩
        show (estimateEventSize e : ℚ) + ((0 : Nat) : ℚ) + _ ≤
          _ + (t.buckets p).inflow (clock k) (clock k)
        rw [TokenBucket.inflow_self, Nat.cast_zero]
        linarith
      · have hstep : clock k ≤ clock (k + 1) := hclock (Nat.le_succ k)
        have hsum := (t.buckets p).inflow_add hstep hlater
        have hrefill := TokenBucket.tokens_refill_pay_le (t.buckets p) (estimateEventSize e)
          (clock k) (clock (k + 1))
        rw [buckets_sendFront, TokenBucket.inflow_pay] at hmore
        refine ⟨hstep.trans hlater, ?_⟩
        linarith

/-- **What one loop does**: a transmission of events of its level, no more than it may send and paid
    for by its bucket; it sends something exactly when it may and the front event fits. -/
structure LevelSent (p : EventPriority) (clock : Nat → Nat) (budget : Nat) (t : EventTransmitter)
    (r : List PeatEvent × EventTransmitter) : Prop where
  sent : Sent t r.1 r.2
  level : ∀ e ∈ r.1, e.priority = p
  length : r.1.length ≤ budget
  buckets : ∀ q, q ≠ p → r.2.buckets q = t.buckets q
  afforded : Afforded (t.buckets p) (clock 0) (r.2.buckets p).lastRefill r.1
  progress : r.1 ≠ [] ↔ 0 < budget ∧ t.FrontFits (clock 0) p
  sorted : r.2.Sorted
  sound : r.2.Sound

theorem sendLoop_level (p : EventPriority) (hs : t.Sorted) (hsound : t.Sound)
    (hclock : Monotone clock) (budget : Nat) :
    LevelSent p clock budget t (sendLoop p clock budget 0 t) := by
  obtain ⟨hsent, hlevel⟩ := sendLoop_sent p clock budget 0 hs
  have hafter : (sendLoop p clock budget 0 t).2.Sound := sound_sendLoop budget 0 hsound
  refine ⟨hsent, hlevel, length_sendLoop_le budget 0 t, fun q hq => sendLoop_buckets budget 0 t hq, ?_,
    sendLoop_ne_nil_iff budget 0 t, hsent.sorted hs, hafter⟩
  have hflow := (hsound p).inflow_nonneg (clock 0)
    ((sendLoop p clock budget 0 t).2.buckets p).lastRefill
  have hheld := ((hsound p).refill (clock 0)).tokens
  unfold Afforded
  rcases sendLoop_tokens hclock budget 0 t with hnone | ⟨_, hpaid⟩
  · have hempty : (sendLoop p clock budget 0 t).1 = [] := by rw [hnone]
    rw [hempty]
    show ((0 : Nat) : ℚ) ≤ _
    rw [Nat.cast_zero]
    exact add_nonneg hheld hflow
  · have hleft := (hafter p).tokens
    linarith

/-! ## 3. The counters -/

def checkedSub (a b : Nat) : Option Nat := if b ≤ a then some (a - b) else none

/-- The condition of the loop of a level: CRITICAL and LOW look at `remaining`, HIGH at the share of
    its own, NORMAL at both. -/
def mayGoOn (p : EventPriority) (own remaining : Nat) : Bool :=
  match p with
  | .critical => 0 < remaining
  | .high => 0 < own
  | .normal => 0 < own && 0 < remaining
  | .low => 0 < remaining

def countDown (p : EventPriority) (own remaining : Nat) : Option (Nat × Nat) :=
  match p with
  | .critical => do pure (own, ← checkedSub remaining 1)
  | .high => do pure (← checkedSub own 1, ← checkedSub remaining 1)
  | .normal => do pure (← checkedSub own 1, ← checkedSub remaining 1)
  | .low => do pure (own, ← checkedSub remaining 1)

def countedLoop (p : EventPriority) (clock : Nat → Nat) :
    Nat → Nat → Nat → Nat → EventTransmitter →
      Option (List PeatEvent × (Nat × Nat) × EventTransmitter)
  | 0, own, remaining, _, t => some ([], (own, remaining), t)
  | rounds + 1, own, remaining, k, t =>
    if mayGoOn p own remaining then
      match t.queues p with
      | [] => some ([], (own, remaining), t)
      | e :: rest =>
        let paid := (t.buckets p).tryConsume (estimateEventSize e) (clock k)
        if paid.1 then do
          let counters ← countDown p own remaining
          let more ← countedLoop p clock rounds counters.1 counters.2 (k + 1)
            (t.sendFront p e rest paid.2)
          pure (e :: more.1, more.2)
        else
          some ([], (own, remaining), { t with buckets := Function.update t.buckets p paid.2 })
    else some ([], (own, remaining), t)

/-- `transmit` with the counters it counts down. `Vec::with_capacity(max_events)` refuses every count
    for which the products of the shares could leave a `usize`. -/
def transmitCounted (t : EventTransmitter) (maxEvents : Nat) (clock : EventPriority → Nat → Nat) :
    Option (List PeatEvent × EventTransmitter) := do
  let rounds := fun p => (t.queues p).length
  let (critical, (_, remaining), t) ←
    countedLoop .critical (clock .critical) (rounds .critical) 0 maxEvents 0 t
  if remaining = 0 then pure (critical, t)
  else
    let highAlloc := remaining * 50 / 100
    let normalAlloc := remaining * 35 / 100
    let (high, (highRemaining, remaining), t) ←
      countedLoop .high (clock .high) (rounds .high) highAlloc remaining 0 t
    let highUnused ← checkedSub highAlloc (← checkedSub highAlloc highRemaining)
    let (normal, (_, remaining), t) ←
      countedLoop .normal (clock .normal) (rounds .normal) (normalAlloc + highUnused) remaining 0 t
    let (low, _, t) ← countedLoop .low (clock .low) (rounds .low) 0 remaining 0 t
    pure (critical ++ (high ++ normal ++ low), t)

def allowance (p : EventPriority) (own remaining : Nat) : Nat :=
  match p with
  | .critical => remaining
  | .high => own
  | .normal => min own remaining
  | .low => remaining

def ownAfter (p : EventPriority) (own sent : Nat) : Nat :=
  match p with
  | .critical => own
  | .high => own - sent
  | .normal => own - sent
  | .low => own

variable {own remaining : Nat}

theorem mayGoOn_iff : mayGoOn p own remaining = true ↔ 0 < allowance p own remaining := by
  cases p <;> simp [mayGoOn, allowance]

theorem ownAfter_zero (p : EventPriority) (own : Nat) : ownAfter p own 0 = own := by
  cases p <;> rfl

theorem ownAfter_succ (p : EventPriority) (own n : Nat) :
    ownAfter p (ownAfter p own 1) n = ownAfter p own (n + 1) := by
  cases p <;> simp only [ownAfter] <;> omega

theorem checkedSub_eq {a b : Nat} (h : b ≤ a) : checkedSub a b = some (a - b) := if_pos h

theorem countDown_eq (h : 0 < allowance p own remaining) (hown : p = .high → own ≤ remaining) :
    countDown p own remaining = some (ownAfter p own 1, remaining - 1) ∧
      allowance p own remaining = allowance p (ownAfter p own 1) (remaining - 1) + 1 ∧
      (p = .high → ownAfter p own 1 ≤ remaining - 1) := by
  cases p with
  | critical =>
    simp only [allowance] at h
    refine ⟨by rw [countDown, checkedSub_eq h]; rfl, ?_, nofun⟩
    simp only [allowance]
    omega
  | high =>
    simp only [allowance] at h
    have hle := hown rfl
    refine ⟨?_, ?_, fun _ => ?_⟩
    · rw [countDown, checkedSub_eq h, checkedSub_eq (h.trans_le hle)]
      rfl
    · simp only [allowance, ownAfter]
      omega
    · simp only [ownAfter]
      omega
  | normal =>
    simp only [allowance] at h
    have hboth := Nat.lt_min.mp h
    refine ⟨?_, ?_, nofun⟩
    · rw [countDown, checkedSub_eq hboth.1, checkedSub_eq hboth.2]
      rfl
    · simp only [allowance, ownAfter]
      omega
  | low =>
    simp only [allowance] at h
    refine ⟨by rw [countDown, checkedSub_eq h]; rfl, ?_, nofun⟩
    simp only [allowance]
    omega

theorem sendLoop_of_nil (h : t.queues p = []) (budget k : Nat) :
    sendLoop p clock budget k t = ([], t) := by
  cases budget with
  | zero => rfl
  | succ budget => rw [sendLoop, h]

theorem countedLoop_eq {rounds : Nat} (k : Nat) (hr : (t.queues p).length ≤ rounds)
    (hown : p = .high → own ≤ remaining) :
    countedLoop p clock rounds own remaining k t =
      let r := sendLoop p clock (allowance p own remaining) k t
      some (r.1, (ownAfter p own r.1.length, remaining - r.1.length), r.2) := by
  induction rounds generalizing own remaining k t with
  | zero =>
    have hnil : t.queues p = [] := List.length_eq_zero_iff.mp (Nat.le_zero.mp hr)
    rw [countedLoop, sendLoop_of_nil hnil]
    dsimp only
    rw [List.length_nil, ownAfter_zero, Nat.sub_zero]
  | succ rounds ih =>
    have hstop : ∀ t' : EventTransmitter, (some ([], (own, remaining), t') :
        Option (List PeatEvent × (Nat × Nat) × EventTransmitter)) =
        some ([], (ownAfter p own ([] : List PeatEvent).length,
          remaining - ([] : List PeatEvent).length), t') := by
      intro t'
      rw [List.length_nil, ownAfter_zero, Nat.sub_zero]
    by_cases hgo : 0 < allowance p own remaining
    · obtain ⟨hcount, hallow, hown'⟩ := countDown_eq hgo hown
      rw [countedLoop, if_pos (mayGoOn_iff.mpr hgo), hallow, sendLoop]
      cases hq : t.queues p with
      | nil => exact hstop t
      | cons e rest =>
        dsimp only
        by_cases hpaid : ((t.buckets p).tryConsume (estimateEventSize e) (clock k)).1 = true
        · rw [if_pos hpaid, if_pos hpaid, hcount]
          have hrest : ((t.sendFront p e rest
              ((t.buckets p).tryConsume (estimateEventSize e) (clock k)).2).queues p).length ≤
                rounds := by
            show (Function.update t.queues p rest p).length ≤ rounds
            rw [Function.update_self]
            rw [hq, List.length_cons] at hr
            omega
          have hmore := ih (k + 1) hrest hown'
          dsimp only at hmore
          simp only [Option.bind_eq_bind, Option.bind_some]
          rw [hmore]
          simp only [Option.bind_some, Option.pure_def, List.length_cons, ownAfter_succ, Nat.sub_sub,
            Nat.add_comm 1]
        · rw [if_neg hpaid, if_neg hpaid]
          exact hstop _
    · have hzero : allowance p own remaining = 0 := Nat.le_zero.mp (Nat.le_of_not_lt hgo)
      rw [countedLoop, if_neg (fun h => hgo (mayGoOn_iff.mp h)), hzero]
      exact hstop t

/-! ## 4. The four loops -/

theorem atLevel_append (q : EventPriority) (l r : List PeatEvent) :
    atLevel q (l ++ r) = atLevel q l ++ atLevel q r := List.filter_append _ _

theorem atLevel_self {l : List PeatEvent} (h : ∀ e ∈ l, e.priority = p) : atLevel p l = l :=
  List.filter_eq_self.mpr fun e he => decide_eq_true (h e he)

theorem atLevel_of_ne {l : List PeatEvent} (h : ∀ e ∈ l, e.priority = p) {q : EventPriority}
    (hq : q ≠ p) : atLevel q l = [] := by
  refine List.filter_eq_nil_iff.mpr fun e he => ?_
  rw [h e he, decide_eq_true_eq]
  exact hq.symm

namespace LevelSent

variable {budget : Nat} {r : List PeatEvent × EventTransmitter}

theorem queues_of_ne (h : LevelSent p clock budget t r) {q : EventPriority} (hq : q ≠ p) :
    r.2.queues q = t.queues q := by
  have hsplit := h.sent.queues q
  rw [atLevel_of_ne h.level hq, List.nil_append] at hsplit
  exact hsplit.symm

theorem frontFits_iff (h : LevelSent p clock budget t r) {q : EventPriority} (hq : q ≠ p) {now : Nat} :
    r.2.FrontFits now q ↔ t.FrontFits now q := by
  unfold FrontFits
  rw [h.queues_of_ne hq, h.buckets q hq]

theorem eq_nil_iff (h : LevelSent p clock budget t r) :
    r.1 = [] ↔ (0 < budget → ¬ t.FrontFits (clock 0) p) :=
  not_ne_iff.symm.trans ((not_congr h.progress).trans not_and)

end LevelSent

end Loop

theorem highBudget_pos {n : Nat} : 0 < highBudget n ↔ 2 ≤ n := by
  unfold highBudget
  omega

theorem normalBudget_pos {n : Nat} : 0 < normalBudget n 0 ↔ 2 ≤ n := by
  unfold normalBudget highBudget
  omega

theorem Sent.length_le {t' : EventTransmitter} {out : List PeatEvent} (h : Sent t out t')
    (q : EventPriority) : (t'.queues q).length ≤ (t.queues q).length := by
  rw [h.queues q, List.length_append]
  exact Nat.le_add_left _ _

theorem transmitCounted_eq (hs : t.Sorted) (n : Nat) (clock : EventPriority → Nat → Nat) :
    t.transmitCounted n clock = some (t.transmit n clock) := by
  have hc := (sendLoop_sent .critical (clock .critical) n 0 hs).1
  have hcritical : countedLoop .critical (clock .critical) (t.queues .critical).length 0 n 0 t = _ :=
    countedLoop_eq 0 (Nat.le_refl _) nofun
  unfold transmitCounted transmit
  simp only [Option.bind_eq_bind, hcritical, Option.bind_some, allowance]
  generalize sendLoop .critical (clock .critical) n 0 t = critical at hc ⊢
  generalize n - critical.1.length = remaining
  by_cases hzero : remaining = 0
  · rw [if_pos hzero, if_pos hzero]
    rfl
  · rw [if_neg hzero, if_neg hzero]
    have hh := (sendLoop_sent .high (clock .high) (remaining * 50 / 100) 0 (hc.sorted hs)).1
    have hhigh : countedLoop .high (clock .high) (t.queues .high).length (remaining * 50 / 100)
        remaining 0 critical.2 = _ :=
      countedLoop_eq 0 (hc.length_le .high) (fun _ => by omega)
    unfold transmitWeighted
    simp only [hhigh, Option.bind_some, allowance, ownAfter]
    generalize sendLoop .high (clock .high) (remaining * 50 / 100) 0 critical.2 = high at hh ⊢
    rw [checkedSub_eq (Nat.sub_le _ _), Option.bind_some, checkedSub_eq (Nat.sub_le _ _),
      Option.bind_some]
    generalize remaining * 35 / 100 + (remaining * 50 / 100 - _) = share
    have hn := (sendLoop_sent .normal (clock .normal) (min share (remaining - high.1.length)) 0
      (hh.sorted (hc.sorted hs))).1
    have hnormal : countedLoop .normal (clock .normal) (t.queues .normal).length share
        (remaining - high.1.length) 0 high.2 = _ :=
      countedLoop_eq 0 ((hh.length_le .normal).trans (hc.length_le .normal)) nofun
    simp only [hnormal, Option.bind_some, allowance]
    generalize sendLoop .normal (clock .normal) (min share (remaining - high.1.length)) 0 high.2 =
      normal at hn ⊢
    have hlow : countedLoop .low (clock .low) (t.queues .low).length 0
        (remaining - high.1.length - normal.1.length) 0 normal.2 = _ :=
      countedLoop_eq 0 (((hn.length_le .low).trans (hh.length_le .low)).trans (hc.length_le .low))
        nofun
    simp only [hlow, Option.bind_some, allowance]
    rfl

theorem transmit_levels (hs : t.Sorted) (hsound : t.Sound) (n : Nat)
    {clock : EventPriority → Nat → Nat} (hclock : ∀ p, Monotone (clock p)) :
    ∃ critical high normal low,
      LevelSent .critical (clock .critical) n t critical ∧
      LevelSent .high (clock .high) (highBudget (n - critical.1.length)) critical.2 high ∧
      LevelSent .normal (clock .normal)
        (normalBudget (n - critical.1.length) high.1.length) high.2 normal ∧
      LevelSent .low (clock .low)
        (n - critical.1.length - high.1.length - normal.1.length) normal.2 low ∧
      t.transmit n clock = (critical.1 ++ (high.1 ++ normal.1 ++ low.1), low.2) := by
  have hcritical := sendLoop_level .critical hs hsound (hclock .critical) n
  have heq := transmit_eq t n clock
  dsimp only at heq
  generalize sendLoop .critical (clock .critical) n 0 t = critical at hcritical heq
  have hhigh := sendLoop_level .high hcritical.sorted hcritical.sound (hclock .high)
    (highBudget (n - critical.1.length))
  generalize sendLoop .high _ _ 0 critical.2 = high at hhigh heq
  have hnormal := sendLoop_level .normal hhigh.sorted hhigh.sound (hclock .normal)
    (normalBudget (n - critical.1.length) high.1.length)
  generalize sendLoop .normal _ _ 0 high.2 = normal at hnormal heq
  have hlow := sendLoop_level .low hnormal.sorted hnormal.sound (hclock .low)
    (n - critical.1.length - high.1.length - normal.1.length)
  exact ⟨_, _, _, _, hcritical, hhigh, hnormal, hlow, heq⟩

/-! ## 5. Runs -/

theorem buckets_enqueue (t : EventTransmitter) (e : PeatEvent) : (t.enqueue e).2.buckets = t.buckets := by
  rcases t.enqueue_cases e with ⟨_, h⟩ | ⟨_, _, h⟩ | ⟨v, _, _, _, h⟩ | ⟨_, _, _, h⟩ <;> rw [h] <;> rfl

theorem sound_step (hs : t.Sound) (op : Op) : (t.step op).Sound := by
  cases op with
  | call c =>
    cases c with
    | enqueue e =>
      intro p
      show ((t.enqueue e).2.buckets p).Sound
      rw [buckets_enqueue]
      exact hs p
    | transmit n clock =>
      show (t.transmit n clock).2.Sound
      rw [transmit_eq]
      exact sound_sendLoop _ _ (sound_sendLoop _ _ (sound_sendLoop _ _ (sound_sendLoop _ _ hs)))
    | transmitCritical clock => exact sound_sendLoop _ _ hs
  | setMaxQueueSize p size => exact hs
  | setOverflowPolicy policy => exact hs

theorem sorted_step (hs : t.Sorted) (op : Op) : (t.step op).Sorted := by
  cases op with
  | call c => exact sorted_call hs c
  | setMaxQueueSize p size => exact hs
  | setOverflowPolicy policy => exact hs

theorem sound_run (allocation : BandwidthAllocation) (now : Nat) (ops : List Op) :
    (run step (new allocation now) ops).Sound :=
  run_invariant Sound (fun _ op hs => sound_step hs op)
    (fun _ => ⟨Nat.cast_nonneg _, Nat.cast_nonneg _, Nat.cast_nonneg _⟩) ops

theorem sorted_run (allocation : BandwidthAllocation) (now : Nat) (ops : List Op) :
    (run step (new allocation now) ops).Sorted :=
  run_invariant Sorted (fun _ op hs => sorted_step hs op)
    (fun _ _ he => absurd he List.not_mem_nil) ops

/-! ## 6. The call -/

/-- **What a `transmit` promises**: at most `n` events, CRITICAL ones first, of each level a front of its
    queue paid for by its bucket; no underflow; and something is sent if it may be and some front event fits
    its bucket. -/
structure Delivers (t : EventTransmitter) (n : Nat) (clock : EventPriority → Nat → Nat) : Prop where
  count : (t.transmit n clock).1.length ≤ n
  criticalFirst : ∃ rest, (t.transmit n clock).1 = atLevel .critical (t.transmit n clock).1 ++ rest ∧
    ∀ e ∈ rest, e.priority ≠ .critical
  fronts : ∀ p, t.queues p = atLevel p (t.transmit n clock).1 ++ (t.transmit n clock).2.queues p
  afforded : ∀ p, Afforded (t.buckets p) (clock p 0)
    ((t.transmit n clock).2.buckets p).lastRefill (atLevel p (t.transmit n clock).1)
  counted : t.transmitCounted n clock = some (t.transmit n clock)
  progress : 1 ≤ n → (∃ p, t.FrontFits (clock p 0) p) → (t.transmit n clock).1 ≠ []

/-- One slot, and of the fronts only high or normal ones are affordable. -/
def Starves (t : EventTransmitter) (n : Nat) (clock : EventPriority → Nat → Nat) : Prop :=
  n = 1 ∧ (t.FrontFits (clock .high 0) .high ∨ t.FrontFits (clock .normal 0) .normal) ∧
    ¬ t.FrontFits (clock .critical 0) .critical ∧ ¬ t.FrontFits (clock .low 0) .low

variable {n : Nat} {clock : EventPriority → Nat → Nat}

theorem transmit_eq_nil_iff (hs : t.Sorted) (hsound : t.Sound) (hclock : ∀ p, Monotone (clock p))
    (hn : 1 ≤ n) : (t.transmit n clock).1 = [] ↔
      ¬ t.FrontFits (clock .critical 0) .critical ∧ ¬ t.FrontFits (clock .low 0) .low ∧
        (n = 1 ∨ ¬ t.FrontFits (clock .high 0) .high ∧ ¬ t.FrontFits (clock .normal 0) .normal) := by
  obtain ⟨critical, high, normal, low, hc, hh, hm, hl, heq⟩ := transmit_levels hs hsound n hclock
  have hfh : critical.2.FrontFits (clock .high 0) .high ↔ t.FrontFits (clock .high 0) .high :=
    hc.frontFits_iff (by decide)
  have hfm : high.2.FrontFits (clock .normal 0) .normal ↔ t.FrontFits (clock .normal 0) .normal :=
    (hh.frontFits_iff (by decide)).trans (hc.frontFits_iff (by decide))
  have hfl : normal.2.FrontFits (clock .low 0) .low ↔ t.FrontFits (clock .low 0) .low :=
    ((hm.frontFits_iff (by decide)).trans (hh.frontFits_iff (by decide))).trans
      (hc.frontFits_iff (by decide))
  have hcritical := hc.eq_nil_iff
  have hhigh := hh.eq_nil_iff
  have hnormal := hm.eq_nil_iff
  have hlow := hl.eq_nil_iff
  rw [hfh] at hhigh
  rw [hfm] at hnormal
  rw [hfl] at hlow
  rw [heq]
  constructor
  · intro hnil
    obtain ⟨hc0, hrest⟩ := List.append_eq_nil_iff.mp hnil
    obtain ⟨hhm0, hl0⟩ := List.append_eq_nil_iff.mp hrest
    obtain ⟨hh0, hm0⟩ := List.append_eq_nil_iff.mp hhm0
    rw [hc0, List.length_nil, Nat.sub_zero] at hhigh hnormal hlow
    rw [hh0, List.length_nil] at hnormal hlow
    rw [hm0, List.length_nil] at hlow
    refine ⟨hcritical.mp hc0 hn, hlow.mp hl0 hn, ?_⟩
    rcases Nat.lt_or_eq_of_le hn with htwo | hone
    · exact .inr ⟨hhigh.mp hh0 (highBudget_pos.mpr htwo), hnormal.mp hm0 (normalBudget_pos.mpr htwo)⟩
    · exact .inl hone.symm
  · intro ⟨hnc, hnl, hothers⟩
    have hc0 : critical.1 = [] := hcritical.mpr fun _ => hnc
    have hl0 : low.1 = [] := hlow.mpr fun _ => hnl
    rw [hc0, List.length_nil, Nat.sub_zero] at hhigh hnormal
    -- with one event to send the shares are zero
    have hh0 : high.1 = [] := by
      refine hhigh.mpr fun hpos => ?_
      have htwo := highBudget_pos.mp hpos
      exact (hothers.resolve_left (by omega)).1
    rw [hh0, List.length_nil] at hnormal
    have hm0 : normal.1 = [] := by
      refine hnormal.mpr fun hpos => ?_
      have htwo := normalBudget_pos.mp hpos
      exact (hothers.resolve_left (by omega)).2
    rw [hc0, hh0, hm0, hl0]
    rfl

theorem length_transmit_le (hs : t.Sorted) (hsound : t.Sound) (n : Nat)
    (hclock : ∀ p, Monotone (clock p)) : (t.transmit n clock).1.length ≤ n := by
  obtain ⟨critical, high, normal, low, hc, hh, hm, hl, heq⟩ := transmit_levels hs hsound n hclock
  have hcritical := hc.length
  have hhigh := hh.length
  have hnormal := hm.length
  have hlow := hl.length
  rw [heq, List.length_append, List.length_append, List.length_append]
  unfold normalBudget highBudget at *
  omega

theorem transmit_critical_first (hs : t.Sorted) (hsound : t.Sound) (n : Nat)
    (hclock : ∀ p, Monotone (clock p)) :
    ∃ rest, (t.transmit n clock).1 = atLevel .critical (t.transmit n clock).1 ++ rest ∧
      ∀ e ∈ rest, e.priority ≠ .critical := by
  obtain ⟨critical, high, normal, low, hc, hh, hm, hl, heq⟩ := transmit_levels hs hsound n hclock
  refine ⟨high.1 ++ normal.1 ++ low.1, ?_, fun e he => ?_⟩
  · rw [heq, atLevel_append, atLevel_append, atLevel_append, atLevel_self hc.level,
      atLevel_of_ne hh.level (by decide), atLevel_of_ne hm.level (by decide),
      atLevel_of_ne hl.level (by decide)]
    simp only [List.append_nil]
  · rcases List.mem_append.mp he with he | he
    · rcases List.mem_append.mp he with he | he
      · rw [hh.level e he]
        decide
      · rw [hm.level e he]
        decide
    · rw [hl.level e he]
      decide

theorem transmit_afforded (hs : t.Sorted) (hsound : t.Sound) (n : Nat)
    (hclock : ∀ p, Monotone (clock p)) (p : EventPriority) :
    Afforded (t.buckets p) (clock p 0) ((t.transmit n clock).2.buckets p).lastRefill
      (atLevel p (t.transmit n clock).1) := by
  obtain ⟨critical, high, normal, low, hc, hh, hm, hl, heq⟩ := transmit_levels hs hsound n hclock
  rw [heq, atLevel_append, atLevel_append, atLevel_append]
  cases p with
  | critical =>
    have haff := hc.afforded
    rw [atLevel_self hc.level, atLevel_of_ne hh.level (by decide),
      atLevel_of_ne hm.level (by decide), atLevel_of_ne hl.level (by decide),
      hl.buckets _ (by decide), hm.buckets _ (by decide), hh.buckets _ (by decide)]
    simpa using haff
  | high =>
    have haff := hh.afforded
    rw [hc.buckets _ (by decide)] at haff
    rw [atLevel_of_ne hc.level (by decide), atLevel_self hh.level,
      atLevel_of_ne hm.level (by decide), atLevel_of_ne hl.level (by decide),
      hl.buckets _ (by decide), hm.buckets _ (by decide)]
    simpa using haff
  | normal =>
    have haff := hm.afforded
    rw [hh.buckets _ (by decide), hc.buckets _ (by decide)] at haff
    rw [atLevel_of_ne hc.level (by decide), atLevel_of_ne hh.level (by decide),
      atLevel_self hm.level, atLevel_of_ne hl.level (by decide), hl.buckets _ (by decide)]
    simpa using haff
  | low =>
    have haff := hl.afforded
    rw [hm.buckets _ (by decide), hh.buckets _ (by decide), hc.buckets _ (by decide)] at haff
    rw [atLevel_of_ne hc.level (by decide), atLevel_of_ne hh.level (by decide),
      atLevel_of_ne hm.level (by decide), atLevel_self hl.level]
    simpa using haff

end EventTransmitter

end Peat.Event
