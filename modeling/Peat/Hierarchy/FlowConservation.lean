/-
  WHERE THE TOKENS GO: conservation over every interleaving of `acquire_permit` calls.

  A call takes message tokens, then byte tokens. If its first try on the byte
  bucket fails, it waits for both buckets again, and the message tokens it
  already took are FORFEITED.
-/
import Peat.Hierarchy.FlowControl
import Peat.Lib.MapTotal
import Mathlib.Algebra.Order.BigOperators.Group.List

namespace Peat.Hierarchy

open Peat.Lib

def Point.paid : Point → Limiter → Bool
  | .refill _ .byte, .message => true
  | .take _ .byte, .message => true
  | .finish, _ => true
  | _, _ => false

namespace Ledger

/-! ## 1. Where the deducted tokens are -/

def charge (level : RoutingLevel) (which : Limiter) (r : PermitRequest) : ℚ :=
  if r.level = level then r.tokens which else 0

def held (level : RoutingLevel) (which : Limiter) (call : PermitCall) : ℚ :=
  if call.point.paid which then charge level which call.request else 0

def cost (level : RoutingLevel) (which : Limiter) (s : Ledger) : ℚ :=
  (s.granted.map (charge level which)).sum

def lost (level : RoutingLevel) (s : Ledger) : Limiter → ℚ
  | .message => (s.forfeited.map (charge level .message)).sum
  | .byte => 0

/-- **The books balance**: what was deducted is what the permits cost, what the calls in progress
    hold, and what was forfeited. -/
def Balanced (s : Ledger) : Prop :=
  ∀ l w, s.deducted l w = s.cost l w + total (held l w) s.calls + s.lost l w

variable {s : Ledger} {task : Nat} {call : PermitCall}

theorem Balanced.advance {s' : Ledger} (h : s.Balanced) {call' : PermitCall}
    (hcall : s.calls.lookup task = some call) (hcalls : s'.calls = s.calls.insert task call')
    (hgranted : s'.granted = s.granted)
    (hmove : ∀ l w, s'.deducted l w + held l w call + s.lost l w =
      s.deducted l w + held l w call' + s'.lost l w) :
    s'.Balanced := by
  intro l w
  have htotal := total_replace (held l w) hcall call'
  have hold := h l w
  have hnew := hmove l w
  unfold cost at hold ⊢
  rw [hcalls, hgranted]
  linarith

theorem held_goto (l : RoutingLevel) (w : Limiter) (call : PermitCall) (point : Point) :
    held l w { call with point := point } =
      if point.paid w then charge l w call.request else 0 := rfl

theorem deducted_goto (s : Ledger) (task : Nat) (call : PermitCall) (point : Point) :
    (s.goto task call point).deducted = s.deducted := rfl

theorem lost_goto (s : Ledger) (task : Nat) (call : PermitCall) (point : Point) (l : RoutingLevel)
    (w : Limiter) : (s.goto task call point).lost l w = s.lost l w := by
  cases w <;> rfl

theorem lost_deduct (s : Ledger) (r : PermitRequest) (which : Limiter) (b : TokenBucket)
    (l : RoutingLevel) (w : Limiter) : (s.deduct r which b).lost l w = s.lost l w := by
  cases w <;> rfl

theorem deducted_deduct (s : Ledger) (r : PermitRequest) (which : Limiter) (b : TokenBucket)
    (l : RoutingLevel) (w : Limiter) :
    (s.deduct r which b).deducted l w =
      s.deducted l w + if w = which then charge l w r else 0 := by
  show (if l = r.level ∧ w = which then s.deducted l w + r.tokens which else s.deducted l w) = _
  unfold charge
  by_cases hw : w = which
  · subst hw
    by_cases hl : r.level = l
    · rw [if_pos ⟨hl.symm, rfl⟩, if_pos rfl, if_pos hl]
    · rw [if_neg fun h => hl h.1.symm, if_pos rfl, if_neg hl, add_zero]
  · rw [if_neg fun h => hw h.2, if_neg hw, add_zero]

theorem lost_forfeit (s : Ledger) (r : PermitRequest) (which : Limiter) (l : RoutingLevel)
    (w : Limiter) :
    (s.forfeit r which).lost l w =
      s.lost l w + if which = .byte ∧ w = .message then charge l .message r else 0 := by
  unfold lost forfeit
  cases w with
  | byte => simp
  | message => cases which <;> simp

theorem balanced_take (h : s.Balanced) {first : Bool} {which : Limiter}
    (hcall : s.calls.lookup task = some call) (hpoint : call.point = .take first which) :
    (s.take task call first which).Balanced := by
  have hheld : ∀ l w, held l w call = if Point.paid (.take first which) w then
      charge l w call.request else 0 := fun l w => by
    unfold held
    rw [hpoint]
  unfold take
  rcases (s.controller.limiter call.request.level which).take_cases (call.request.tokens which)
    with ⟨_, ht⟩ | ⟨_, ht⟩ <;> rw [ht]
  · refine h.advance hcall rfl rfl fun l w => ?_
    rw [deducted_goto, deducted_deduct, lost_goto, lost_deduct, hheld, held_goto]
    cases which <;> cases w <;> simp [afterTake, Point.paid]
  · cases first with
    | true =>
      refine h.advance hcall rfl rfl fun l w => ?_
      rw [if_pos rfl, deducted_goto, lost_goto, lost_forfeit, hheld, held_goto]
      show s.deducted l w + _ + _ = s.deducted l w + _ + _
      cases which <;> cases w <;>
        simp [Point.paid, add_assoc, add_comm (charge l .message call.request)]
    | false =>
      refine h.advance hcall rfl rfl fun l w => ?_
      rw [if_neg Bool.false_ne_true, deducted_goto, lost_goto, hheld, held_goto]
      cases which <;> cases w <;> rfl

theorem balanced_grant (h : s.Balanced) (hcall : s.calls.lookup task = some call)
    (hpoint : call.point = .finish) : (s.grant task call.request).Balanced := by
  intro l w
  have htotal := total_erase (held l w) s.calls task
  have hheld : held l w call = charge l w call.request := by
    unfold held
    rw [hpoint]
    exact if_pos rfl
  rw [hcall, Option.elim_some, hheld] at htotal
  have hold := h l w
  have hcost : (s.grant task call.request).cost l w = s.cost l w + charge l w call.request := by
    unfold cost grant
    dsimp only
    rw [List.map_append, List.sum_append, List.map_singleton, List.sum_singleton]
  have hlost : (s.grant task call.request).lost l w = s.lost l w := by cases w <;> rfl
  show s.deducted l w = _ + total _ (s.calls.erase task) + _
  rw [hcost, hlost]
  linarith

theorem balanced_resume (h : s.Balanced) (hcall : s.calls.lookup task = some call) (elapsed : ℚ≥0) :
    (s.resume task call elapsed).Balanced := by
  unfold resume
  cases hpoint : call.point with
  | refill first which =>
    refine h.advance hcall rfl rfl fun l w => ?_
    show s.deducted l w + _ + s.lost l w = s.deducted l w + _ + s.lost l w
    unfold held
    rw [hpoint]
    cases which <;> cases w <;> rfl
  | take first which => exact balanced_take h hcall hpoint
  | backpressure =>
    refine h.advance hcall rfl rfl fun l w => ?_
    show s.deducted l w + _ + s.lost l w = s.deducted l w + _ + s.lost l w
    unfold held
    rw [hpoint]
    cases w <;> rfl
  | finish => exact balanced_grant h hcall hpoint

theorem balanced_step (h : s.Balanced) (op : FlowOp) : (s.step op).Balanced := by
  cases op with
  | acquirePermit task request =>
    cases hcall : s.calls.lookup task with
    | none =>
      rw [step_acquirePermit hcall]
      intro l w
      have htotal := total_insert_new (held l w) hcall ⟨request, .refill true .message⟩
      have hheld : held l w ⟨request, .refill true .message⟩ = 0 := by cases w <;> rfl
      have hold := h l w
      rw [hheld, zero_add] at htotal
      show s.deducted l w = s.cost l w + total _ (s.calls.insert task _) + s.lost l w
      rw [htotal]
      exact hold
    | some call =>
      rw [step_acquirePermit_busy hcall]
      exact h
  | resume task elapsed =>
    cases hcall : s.calls.lookup task with
    | none =>
      rw [step_resume_none hcall]
      exact h
    | some call =>
      rw [step_resume hcall]
      exact balanced_resume h hcall elapsed
  | availableTokens level which elapsed => exact h
  | releaseBackpressure => exact h

theorem balanced_run (cellLimit zoneLimit : BandwidthLimit) (ops : List FlowOp) :
    (run step (new cellLimit zoneLimit) ops).Balanced := by
  refine run_invariant Balanced (fun _ op h => balanced_step h op) (fun l w => ?_) ops
  have hlost : (new cellLimit zoneLimit).lost l w = 0 := by cases w <;> rfl
  show (0 : ℚ) = 0 + 0 + _
  rw [hlost, add_zero, add_zero]

/-! ## 2. Conservation -/

/-- The first try has its message token and finds too few byte tokens. -/
def Forfeits (level : RoutingLevel) (s : Ledger) : FlowOp → Prop
  | .resume task _ => ∃ call ∈ s.calls.lookup task, call.point = .take true .byte ∧
      call.request.level = level ∧
      (s.controller.limiter level .byte).tokens < call.request.tokens .byte
  | _ => False

instance (level : RoutingLevel) (s : Ledger) (op : FlowOp) : Decidable (s.Forfeits level op) := by
  cases op with
  | resume task _ => exact inferInstanceAs (Decidable (∃ call ∈ s.calls.lookup task, _))
  | _ => exact inferInstanceAs (Decidable False)

def NoneForfeited (level : RoutingLevel) (s : Ledger) : Prop := ∀ r ∈ s.forfeited, r.level ≠ level

/-- What was deducted is the cost of what was admitted. -/
def Conserved (level : RoutingLevel) (s : Ledger) : Prop := ∀ w, s.deducted level w = s.cost level w

variable (level : RoutingLevel)

theorem noneForfeited_take {first : Bool} {which : Limiter} :
    (s.take task call first which).NoneForfeited level ↔ s.NoneForfeited level ∧
      ¬((Point.take first which = .take true .byte) ∧ call.request.level = level ∧
        (s.controller.limiter level .byte).tokens < call.request.tokens .byte) := by
  unfold take
  rcases (s.controller.limiter call.request.level which).take_cases (call.request.tokens which)
    with ⟨hle, ht⟩ | ⟨hlt, ht⟩ <;> rw [ht]
  · refine (and_iff_left fun hf => ?_).symm
    obtain ⟨hp, hl, hlt⟩ := hf
    cases hp
    subst hl
    exact absurd hlt (not_lt.mpr hle)
  · cases first with
    | false => exact (and_iff_left fun hf => (nomatch hf.1)).symm
    | true =>
      cases which with
      | message => exact (and_iff_left fun hf => (nomatch hf.1)).symm
      | byte =>
        show (∀ r ∈ s.forfeited ++ [call.request], r.level ≠ level) ↔ _
        rw [List.forall_mem_append, List.forall_mem_singleton]
        refine and_congr_right fun _ => ⟨fun hne hf => hne hf.2.1, fun hno hl => ?_⟩
        subst hl
        exact hno ⟨rfl, rfl, hlt⟩

theorem forfeits_resume {level : RoutingLevel} (hcall : s.calls.lookup task = some call)
    (elapsed : ℚ≥0) :
    s.Forfeits level (.resume task elapsed) ↔ call.point = .take true .byte ∧
      call.request.level = level ∧
      (s.controller.limiter level .byte).tokens < call.request.tokens .byte := by
  show (∃ c ∈ s.calls.lookup task, _) ↔ _
  rw [hcall]
  simp

theorem noneForfeited_step (s : Ledger) (op : FlowOp) :
    (s.step op).NoneForfeited level ↔ s.NoneForfeited level ∧ ¬s.Forfeits level op := by
  cases op with
  | acquirePermit task request =>
    cases hcall : s.calls.lookup task with
    | none => rw [step_acquirePermit hcall]; exact (and_iff_left id).symm
    | some call => rw [step_acquirePermit_busy hcall]; exact (and_iff_left id).symm
  | resume task elapsed =>
    cases hcall : s.calls.lookup task with
    | none =>
      rw [step_resume_none hcall]
      refine (and_iff_left fun hf => ?_).symm
      obtain ⟨_, hmem, _⟩ := hf
      rw [hcall] at hmem
      cases hmem
    | some call =>
      rw [step_resume hcall, forfeits_resume hcall]
      unfold resume
      cases call.point with
      | take first which => exact noneForfeited_take level
      | refill first which => exact (and_iff_left fun hf => (nomatch hf.1)).symm
      | backpressure => exact (and_iff_left fun hf => (nomatch hf.1)).symm
      | finish => exact (and_iff_left fun hf => (nomatch hf.1)).symm
  | availableTokens level' which elapsed => exact (and_iff_left id).symm
  | releaseBackpressure => exact (and_iff_left id).symm

theorem lost_eq_zero_iff (s : Ledger) : s.lost level .message = 0 ↔ s.NoneForfeited level := by
  have hnonneg : ∀ r, 0 ≤ charge level .message r := fun r => by
    unfold charge
    split
    · exact (tokens_pos r).le
    · exact le_refl _
  show (s.forfeited.map (charge level .message)).sum = 0 ↔ ∀ r ∈ s.forfeited, r.level ≠ level
  induction s.forfeited with
  | nil => exact iff_of_true rfl fun _ h => (nomatch h)
  | cons r rs ih =>
    have hsum : 0 ≤ (rs.map (charge level .message)).sum :=
      List.sum_nonneg fun q hq => by
        obtain ⟨r', _, rfl⟩ := List.mem_map.mp hq
        exact hnonneg r'
    rw [List.map_cons, List.sum_cons, add_eq_zero_iff_of_nonneg (hnonneg r) hsum, ih,
      List.forall_mem_cons]
    refine and_congr_left fun _ => ?_
    unfold charge
    by_cases hl : r.level = level
    · rw [if_pos hl]
      exact iff_of_false (tokens_pos r).ne' fun hne => hne hl
    · rw [if_neg hl]
      exact iff_of_true rfl hl

/-- **When rate limiting conserves tokens**: the deductions of a level are the costs of its granted permits
    exactly when no call of the level, its message tokens taken, found too few tokens at its first try on
    the byte bucket. -/
theorem conservation_iff (cellLimit zoneLimit : BandwidthLimit) (level : RoutingLevel)
    (ops : List FlowOp) :
    (∀ l w, 0 ≤ ((run step (new cellLimit zoneLimit) ops).controller.limiter l w).tokens ∧
      ((run step (new cellLimit zoneLimit) ops).controller.limiter l w).tokens ≤
        ((run step (new cellLimit zoneLimit) ops).controller.limiter l w).capacity) ∧
    ((run step (new cellLimit zoneLimit) ops).calls = ∅ →
      ((run step (new cellLimit zoneLimit) ops).Conserved level ↔
        RunMeets step (fun s op => ¬s.Forfeits level op) (new cellLimit zoneLimit) ops)) := by
  refine ⟨fun l w => ?_, fun hidle => ?_⟩
  · have hb := bounded_run cellLimit zoneLimit ops l w
    exact ⟨hb.nonneg, hb.le_capacity⟩
  · have hbal := balanced_run cellLimit zoneLimit ops
    have hnone : (run step (new cellLimit zoneLimit) ops).NoneForfeited level ↔
        (new cellLimit zoneLimit).NoneForfeited level ∧
          RunMeets step (fun s op => ¬s.Forfeits level op) (new cellLimit zoneLimit) ops :=
      run_iff_runMeets _ (noneForfeited_step level)
    have hstart : (new cellLimit zoneLimit).NoneForfeited level := fun _ h => (nomatch h)
    rw [and_iff_right hstart] at hnone
    rw [← hnone, ← lost_eq_zero_iff]
    have hmessage := hbal level .message
    have hbyte := hbal level .byte
    rw [hidle, total_empty, add_zero] at hmessage hbyte
    constructor
    · intro h
      exact add_eq_left.mp (hmessage.symm.trans (h .message))
    · intro h0 w
      cases w with
      | message => rw [hmessage, h0, add_zero]
      | byte => exact hbyte.trans (add_zero _)

def shortOfBytes : List FlowOp :=
  [.acquirePermit 1 ⟨.cell, 100, .normal⟩, .resume 1 0, .resume 1 0, .resume 1 0, .resume 1 0,
    .resume 1 0, .acquirePermit 2 ⟨.cell, 50, .normal⟩, .resume 2 0, .resume 2 0, .resume 2 0,
    .resume 2 0, .resume 2 0, .resume 2 0, .resume 2 0, .resume 2 1, .resume 2 0, .resume 2 0]

/-- **Message tokens taken twice**: two permits of one token each cost three. -/
theorem message_tokens_taken_twice :
    (run step (new ⟨10, 100⟩ ⟨10, 100⟩) shortOfBytes).calls = ∅ ∧
    (run step (new ⟨10, 100⟩ ⟨10, 100⟩) shortOfBytes).granted =
      [⟨.cell, 100, .normal⟩, ⟨.cell, 50, .normal⟩] ∧
    (run step (new ⟨10, 100⟩ ⟨10, 100⟩) shortOfBytes).deducted .cell .message = 3 ∧
    ¬(run step (new ⟨10, 100⟩ ⟨10, 100⟩) shortOfBytes).Conserved .cell := by
  have h3 : (run step (new ⟨10, 100⟩ ⟨10, 100⟩) shortOfBytes).deducted .cell .message = 3 := by
    decide +kernel
  refine ⟨AList.ext (by decide +kernel), by decide +kernel, h3, fun h => ?_⟩
  have h2 := h .message
  rw [h3] at h2
  revert h2
  decide +kernel

/-- The first of the two calls alone: one token and one hundred for one permit. -/
theorem conservation_iff_one_call :
    (run step (new ⟨10, 100⟩ ⟨10, 100⟩) (shortOfBytes.take 6)).calls = ∅ ∧
    (run step (new ⟨10, 100⟩ ⟨10, 100⟩) (shortOfBytes.take 6)).Conserved .cell := by
  have hidle : (run step (new ⟨10, 100⟩ ⟨10, 100⟩) (shortOfBytes.take 6)).calls = ∅ :=
    AList.ext (by decide +kernel)
  exact ⟨hidle, ((conservation_iff ⟨10, 100⟩ ⟨10, 100⟩ .cell _).2 hidle).mpr (by decide +kernel)⟩

end Ledger

end Peat.Hierarchy
