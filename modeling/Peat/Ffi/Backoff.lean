/-
  HOW THE BACKOFF GROWS (`backoff_ms` and `mark_failed` in peat-ffi/src/supervisor.rs).

  The delay doubles eight times and stays at the cap. The jitter is a remainder by a
  modulus that changes with the delay; the last step grows by less than the jitter can
  take back.
-/
import Mathlib.Tactic.IntervalCases
import Peat.Ffi.Supervisor

namespace Peat.Ffi.Supervisor

open Peat.Lib

variable {hash : String → Nat} {nodeId : String}

/-- The delay without jitter: `BACKOFF_BASE_MS` doubled, at most `BACKOFF_MAX_MS`. -/
def capped (shift : Nat) : Nat :=
  [2000, 4000, 8000, 16000, 32000, 64000, 128000, 256000].getD shift backoffMaxMs

theorem backoffMs_eq (hash : String → Nat) (attempts : Nat) (nodeId : String) :
    backoffMs hash attempts nodeId =
      capped (min (attempts - 1) 8) + hash nodeId % (capped (min (attempts - 1) 8) / 5 + 1) := by
  have hshift : min (attempts - 1) 8 ≤ 8 := Nat.min_le_right _ _
  unfold backoffMs
  generalize min (attempts - 1) 8 = shift at hshift
  have hcap : min (min (backoffBaseMs * Nat.shiftLeft 1 shift) maxU64) backoffMaxMs =
      capped shift := by
    interval_cases shift <;> rfl
  have hsmall : capped shift ≤ backoffMaxMs := hcap ▸ Nat.min_le_right _ _
  have hjitter : hash nodeId % (capped shift / 5 + 1) < capped shift / 5 + 1 :=
    Nat.mod_lt _ (Nat.succ_pos _)
  dsimp only
  rw [hcap]
  unfold backoffMaxMs at hsmall
  unfold maxU64
  omega

theorem backoffMs_bounds (hash : String → Nat) (attempts : Nat) (nodeId : String) :
    backoffBaseMs ≤ backoffMs hash attempts nodeId ∧
      backoffMs hash attempts nodeId ≤ backoffMaxMs + backoffMaxMs / 5 := by
  have hshift : min (attempts - 1) 8 ≤ 8 := Nat.min_le_right _ _
  rw [backoffMs_eq]
  generalize min (attempts - 1) 8 = shift at hshift
  interval_cases shift <;> simp only [capped, List.getD_cons_zero, List.getD_cons_succ,
    List.getD_nil, backoffBaseMs, backoffMaxMs] <;> omega

/-- Only the step onto the cap can shorten the delay. -/
theorem backoffMs_le_succ {attempts : Nat} (h : 1 ≤ attempts) (hcap : attempts ≠ 8) :
    backoffMs hash attempts nodeId ≤ backoffMs hash (attempts + 1) nodeId := by
  rw [backoffMs_eq, backoffMs_eq]
  by_cases hlast : 9 ≤ attempts
  · rw [Nat.min_eq_right (by omega), Nat.min_eq_right (by omega)]
  · rw [Nat.min_eq_left (by omega), Nat.min_eq_left (by omega)]
    interval_cases attempts <;> simp only [capped, List.getD_cons_zero, List.getD_cons_succ,
      Nat.reduceSub, Nat.reduceAdd] <;> omega

/-- Below the cap no step shortens it: behind the last one every delay is at least the cap. -/
theorem min_backoffMs_le_succ {attempts : Nat} (h : 1 ≤ attempts) :
    min (backoffMs hash attempts nodeId) backoffMaxMs ≤ backoffMs hash (attempts + 1) nodeId := by
  by_cases hcap : attempts = 8
  · rw [hcap, backoffMs_eq hash (8 + 1)]
    exact (Nat.min_le_right _ _).trans (Nat.le_add_right _ _)
  · exact (Nat.min_le_left _ _).trans (backoffMs_le_succ h hcap)

theorem min_backoffMs_le {a b : Nat} (ha : 1 ≤ a) (hab : a ≤ b) :
    min (backoffMs hash a nodeId) backoffMaxMs ≤ backoffMs hash b nodeId := by
  induction b, hab using Nat.le_induction with
  | base => exact Nat.min_le_left _ _
  | succ b hb ih =>
    exact (Nat.le_min.mpr ⟨ih, Nat.min_le_right _ _⟩).trans (min_backoffMs_le_succ (ha.trans hb))

/-! ## 2. Failures in a row -/

/-- The waits after failures of one peer at the given instants, one after the other. -/
def waits (hash : String → Nat) (nodeId : String) : Supervisor → List Nat → List Nat
  | _, [] => []
  | m, now :: times =>
    let m' := m.markFailed hash nodeId now
    ((m'.entryOf nodeId).nextMs - now) :: waits hash nodeId m' times

/-- The clock leaves room for the longest delay, so that `next_attempt` does not saturate. -/
def Timely (now : Nat) : Prop := now + (backoffMaxMs + backoffMaxMs / 5) ≤ maxU64

variable {m : Supervisor} {now : Nat} {times : List Nat}

theorem entryOf_markFailed : (m.markFailed hash nodeId now).entryOf nodeId =
    failed hash nodeId now (m.entryOf nodeId) := by
  rw [markFailed, entryOf_change, if_pos rfl]

theorem wait_markFailed (h : Timely now) :
    ((m.markFailed hash nodeId now).entryOf nodeId).nextMs - now =
      backoffMs hash (min ((m.entryOf nodeId).attempts + 1) maxU32) nodeId := by
  rw [entryOf_markFailed]
  have hle := (backoffMs_bounds hash (min ((m.entryOf nodeId).attempts + 1) maxU32) nodeId).2
  unfold Timely at h
  show min (now + _) maxU64 - now = _
  omega

theorem waits_eq (h : ∀ now ∈ times, Timely now) : waits hash nodeId m times =
    (List.range times.length).map fun k =>
      backoffMs hash (min ((m.entryOf nodeId).attempts + 1 + k) maxU32) nodeId := by
  induction times generalizing m with
  | nil => rfl
  | cons now times ih =>
    obtain ⟨hnow, htimes⟩ := List.forall_mem_cons.mp h
    have hattempts : ((m.markFailed hash nodeId now).entryOf nodeId).attempts =
        min ((m.entryOf nodeId).attempts + 1) maxU32 := by rw [entryOf_markFailed]; rfl
    rw [waits, wait_markFailed hnow, ih htimes, hattempts, List.length_cons, List.range_succ_eq_map,
      List.map_cons, List.map_map]
    refine congrArg _ (List.map_congr_left fun k _ => ?_)
    show backoffMs hash (min (min _ maxU32 + 1 + k) maxU32) nodeId =
      backoffMs hash (min (_ + 1 + (k + 1)) maxU32) nodeId
    congr 1
    omega

end Peat.Ffi.Supervisor
