/-
  RATE LIMITING in hierarchy/flow_control.rs: token buckets and the calls of
  `acquire_permit` that draw on them.

  `acquire_permit` awaits at every lock, so a call is a program (`Point`) whose steps
  interleave with those of others. Token counts (`f64`) are rationals. The seconds since
  the last refill are an argument, so `last_refill` is left out; so are the drop policy
  and the time of backpressure, which are not read. `Ledger` adds what was deducted and
  granted.
-/
import Peat.Lib.Run
import Peat.Cell.Messaging
import Mathlib.Tactic.Linarith

namespace Peat.Hierarchy

open Peat.Lib Peat.Cell

/-! ## 1. Token buckets -/

structure TokenBucket where
  tokens : ℚ
  capacity : ℚ
  refillRate : ℚ

namespace TokenBucket

def new (capacity refillRate : ℚ) : TokenBucket := ⟨capacity, capacity, refillRate⟩

def refill (b : TokenBucket) (elapsed : ℚ≥0) : TokenBucket :=
  if 0 < elapsed then { b with tokens := min (b.tokens + elapsed * b.refillRate) b.capacity } else b

def take (b : TokenBucket) (amount : ℚ) : TokenBucket × Bool :=
  if amount ≤ b.tokens then ({ b with tokens := b.tokens - amount }, true) else (b, false)

structure Bounded (b : TokenBucket) : Prop where
  nonneg : 0 ≤ b.tokens
  le_capacity : b.tokens ≤ b.capacity
  rate : 0 ≤ b.refillRate

theorem Bounded.refill {b : TokenBucket} (h : b.Bounded) (elapsed : ℚ≥0) :
    (b.refill elapsed).Bounded := by
  unfold TokenBucket.refill
  by_cases he : 0 < elapsed
  · rw [if_pos he]
    have hadd : 0 ≤ (elapsed : ℚ) * b.refillRate := mul_nonneg elapsed.2 h.rate
    have hcap : 0 ≤ b.capacity := h.nonneg.trans h.le_capacity
    exact ⟨le_min (add_nonneg h.nonneg hadd) hcap, min_le_right _ _, h.rate⟩
  · rw [if_neg he]
    exact h

theorem take_cases (b : TokenBucket) (amount : ℚ) :
    (amount ≤ b.tokens ∧ b.take amount = ({ b with tokens := b.tokens - amount }, true)) ∨
    (b.tokens < amount ∧ b.take amount = (b, false)) := by
  unfold take
  by_cases h : amount ≤ b.tokens
  · exact .inl ⟨h, if_pos h⟩
  · exact .inr ⟨not_le.mp h, if_neg h⟩

theorem Bounded.take {b : TokenBucket} (h : b.Bounded) {amount : ℚ} (ha : 0 ≤ amount)
    (hle : amount ≤ b.tokens) : Bounded { b with tokens := b.tokens - amount } where
  nonneg := sub_nonneg.mpr hle
  le_capacity := (sub_le_self _ ha).trans h.le_capacity
  rate := h.rate

end TokenBucket

/-! ## 2. The controller and its calls -/

inductive RoutingLevel where
  | cell | zone
  deriving DecidableEq, Repr

inductive Limiter where
  | message | byte
  deriving DecidableEq, Repr

structure BandwidthLimit where
  messagesPerSec : Nat
  bytesPerSec : Nat
  deriving DecidableEq, Repr

structure FlowController where
  limiter : RoutingLevel → Limiter → TokenBucket
  backpressure : Bool
  backpressureEvents : UInt64
  messagesSent : RoutingLevel → UInt64
  bytesSent : RoutingLevel → UInt64

def BandwidthLimit.limiter (limit : BandwidthLimit) : Limiter → TokenBucket
  | .message => .new limit.messagesPerSec limit.messagesPerSec
  | .byte => .new limit.bytesPerSec limit.bytesPerSec

def FlowController.new (cellLimit zoneLimit : BandwidthLimit) : FlowController where
  limiter
    | .cell => cellLimit.limiter
    | .zone => zoneLimit.limiter
  backpressure := false
  backpressureEvents := 0
  messagesSent := fun _ => 0
  bytesSent := fun _ => 0

def FlowController.setLimiter (c : FlowController) (level : RoutingLevel) (which : Limiter)
    (b : TokenBucket) : FlowController :=
  { c with limiter := fun l w => if l = level ∧ w = which then b else c.limiter l w }

structure PermitRequest where
  level : RoutingLevel
  messageSize : Nat
  priority : MessagePriority
  deriving DecidableEq, Repr

def priorityMultiplier : MessagePriority → ℚ
  | .critical => 1 / 2
  | .high => 3 / 4
  | .normal => 1
  | .low => 3 / 2

def PermitRequest.tokens (r : PermitRequest) : Limiter → ℚ
  | .message => 1 * priorityMultiplier r.priority
  | .byte => r.messageSize * priorityMultiplier r.priority

/-- Where a call of `acquire_permit` stands: before the refill or the taking of a `try_consume` on
    one of its two buckets, `first` for the try before backpressure and not for the loops of
    `consume` after it. -/
inductive Point where
  | refill (first : Bool) (which : Limiter)
  | take (first : Bool) (which : Limiter)
  | backpressure
  | finish
  deriving DecidableEq, Repr

structure PermitCall where
  request : PermitRequest
  point : Point
  deriving DecidableEq, Repr

inductive FlowOp where
  | acquirePermit (task : Nat) (request : PermitRequest)
  | resume (task : Nat) (elapsed : ℚ≥0)
  | availableTokens (level : RoutingLevel) (which : Limiter) (elapsed : ℚ≥0)
  | releaseBackpressure

/-- The controller, the calls on it, and the tokens taken, granted and forfeited. -/
structure Ledger where
  controller : FlowController
  calls : HashMap Nat PermitCall
  deducted : RoutingLevel → Limiter → ℚ
  granted : List PermitRequest
  forfeited : List PermitRequest

namespace Ledger

def new (cellLimit zoneLimit : BandwidthLimit) : Ledger :=
  ⟨.new cellLimit zoneLimit, ∅, fun _ _ => 0, [], []⟩

def goto (s : Ledger) (task : Nat) (call : PermitCall) (point : Point) : Ledger :=
  { s with calls := s.calls.insert task { call with point := point } }

def refill (s : Ledger) (level : RoutingLevel) (which : Limiter) (elapsed : ℚ≥0) : Ledger :=
  let b := (s.controller.limiter level which).refill elapsed
  { s with controller := s.controller.setLimiter level which b }

def afterTake (first : Bool) : Limiter → Point
  | .message => .refill first .byte
  | .byte => .finish

def deduct (s : Ledger) (r : PermitRequest) (which : Limiter) (b : TokenBucket) : Ledger :=
  { s with
    controller := s.controller.setLimiter r.level which b
    deducted := fun l w =>
      if l = r.level ∧ w = which then s.deducted l w + r.tokens which else s.deducted l w }

def forfeit (s : Ledger) (r : PermitRequest) (which : Limiter) : Ledger :=
  { s with forfeited := if which = .byte then s.forfeited ++ [r] else s.forfeited }

def take (s : Ledger) (task : Nat) (call : PermitCall) (first : Bool) (which : Limiter) : Ledger :=
  match (s.controller.limiter call.request.level which).take (call.request.tokens which) with
  | (b, true) => (s.deduct call.request which b).goto task call (afterTake first which)
  | (_, false) =>
    if first then (s.forfeit call.request which).goto task call .backpressure
    else s.goto task call (.refill false which)

def applyBackpressure (s : Ledger) : Ledger :=
  { s with controller := { s.controller with
      backpressure := true
      backpressureEvents := s.controller.backpressureEvents + 1 } }

def grant (s : Ledger) (task : Nat) (request : PermitRequest) : Ledger :=
  { s with
    controller := { s.controller with
      messagesSent := fun l => if l = request.level then s.controller.messagesSent l + 1
        else s.controller.messagesSent l
      bytesSent := fun l => if l = request.level then
        s.controller.bytesSent l + UInt64.ofNat request.messageSize else s.controller.bytesSent l }
    calls := s.calls.erase task
    granted := s.granted ++ [request] }

def resume (s : Ledger) (task : Nat) (call : PermitCall) (elapsed : ℚ≥0) : Ledger :=
  match call.point with
  | .refill first which =>
    (s.refill call.request.level which elapsed).goto task call (.take first which)
  | .take first which => s.take task call first which
  | .backpressure => s.applyBackpressure.goto task call (.refill false .message)
  | .finish => s.grant task call.request

def step (s : Ledger) : FlowOp → Ledger
  | .acquirePermit task request =>
    match s.calls.lookup task with
    | some _ => s
    | none => { s with calls := s.calls.insert task ⟨request, .refill true .message⟩ }
  | .resume task elapsed =>
    match s.calls.lookup task with
    | some call => s.resume task call elapsed
    | none => s
  | .availableTokens level which elapsed => s.refill level which elapsed
  | .releaseBackpressure => { s with controller := { s.controller with backpressure := false } }

variable {s : Ledger} {task : Nat}

theorem step_acquirePermit (h : s.calls.lookup task = none) (request : PermitRequest) :
    s.step (.acquirePermit task request) =
      { s with calls := s.calls.insert task ⟨request, .refill true .message⟩ } := by
  simp only [step, h]

theorem step_acquirePermit_busy {call : PermitCall} (h : s.calls.lookup task = some call)
    (request : PermitRequest) : s.step (.acquirePermit task request) = s := by
  simp only [step, h]

theorem step_resume {call : PermitCall} (h : s.calls.lookup task = some call) (elapsed : ℚ≥0) :
    s.step (.resume task elapsed) = s.resume task call elapsed := by
  simp only [step, h]

theorem step_resume_none (h : s.calls.lookup task = none) (elapsed : ℚ≥0) :
    s.step (.resume task elapsed) = s := by
  simp only [step, h]

/-! ## 3. No bucket is overdrawn or overfull -/

theorem tokens_pos (r : PermitRequest) : 0 < r.tokens .message := by
  unfold PermitRequest.tokens priorityMultiplier
  cases r.priority <;> norm_num

theorem tokens_nonneg (r : PermitRequest) (which : Limiter) : 0 ≤ r.tokens which := by
  have hm : 0 < priorityMultiplier r.priority := by simpa [PermitRequest.tokens] using tokens_pos r
  cases which with
  | message => exact (tokens_pos r).le
  | byte => exact mul_nonneg (Nat.cast_nonneg _) hm.le

def Bounded (s : Ledger) : Prop := ∀ l w, (s.controller.limiter l w).Bounded

theorem bounded_setLimiter (h : s.Bounded) {level : RoutingLevel} {which : Limiter}
    {b : TokenBucket} (hb : b.Bounded) (l : RoutingLevel) (w : Limiter) :
    ((s.controller.setLimiter level which b).limiter l w).Bounded := by
  show (if l = level ∧ w = which then b else s.controller.limiter l w).Bounded
  split
  · exact hb
  · exact h l w

theorem bounded_take (h : s.Bounded) (task : Nat) (call : PermitCall) (first : Bool)
    (which : Limiter) : (s.take task call first which).Bounded := by
  unfold take
  rcases (s.controller.limiter call.request.level which).take_cases (call.request.tokens which)
    with ⟨hle, ht⟩ | ⟨_, ht⟩ <;> rw [ht]
  · exact fun l w => bounded_setLimiter h
      ((h call.request.level which).take (tokens_nonneg _ which) hle) l w
  · cases first <;> exact h

theorem bounded_step (h : s.Bounded) (op : FlowOp) : (s.step op).Bounded := by
  cases op with
  | acquirePermit task request =>
    cases hcall : s.calls.lookup task with
    | none => rw [step_acquirePermit hcall]; exact h
    | some call => rw [step_acquirePermit_busy hcall]; exact h
  | resume task elapsed =>
    cases hcall : s.calls.lookup task with
    | none => rw [step_resume_none hcall]; exact h
    | some call =>
      rw [step_resume hcall]
      unfold resume
      cases call.point with
      | refill first which => exact fun l w => bounded_setLimiter h ((h _ _).refill elapsed) l w
      | take first which => exact bounded_take h task call first which
      | backpressure => exact h
      | finish => exact h
  | availableTokens level which elapsed =>
    exact fun l w => bounded_setLimiter h ((h _ _).refill elapsed) l w
  | releaseBackpressure => exact h

theorem bounded_new (cellLimit zoneLimit : BandwidthLimit) : (new cellLimit zoneLimit).Bounded := by
  have hnew : ∀ n : Nat, (TokenBucket.new n n).Bounded := fun n =>
    ⟨Nat.cast_nonneg n, le_refl _, Nat.cast_nonneg n⟩
  intro l w
  cases l <;> cases w <;> exact hnew _

theorem bounded_run (cellLimit zoneLimit : BandwidthLimit) (ops : List FlowOp) :
    (run step (new cellLimit zoneLimit) ops).Bounded :=
  run_invariant Bounded (fun _ op h => bounded_step h op) (bounded_new cellLimit zoneLimit) ops

end Ledger

end Peat.Hierarchy
