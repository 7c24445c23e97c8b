/-
  BANDWIDTH ALLOCATIONS from percentages (event/transmitter.rs), in the arithmetic of a
  release build: `u8` sums and `u64` products wrap around.
-/
import Peat.Event.Transmitter

namespace Peat.Event

namespace BandwidthAllocation

/-! ## 1. The constructors -/

def new (totalBps : UInt64) : BandwidthAllocation :=
  let nonCritical := totalBps * 90 / 100
  { criticalReservedBps := (totalBps / 10).toNat
    highMinBps := (nonCritical * 50 / 100).toNat
    normalMinBps := (nonCritical * 35 / 100).toNat
    lowMinBps := (nonCritical * 15 / 100).toNat
    totalAvailableBps := totalBps.toNat }

def withPercentages (totalBps : UInt64) (criticalPct highPct normalPct lowPct : UInt8) :
    Option BandwidthAllocation :=
  if criticalPct + highPct + normalPct + lowPct ≤ 100 then
    some
      { criticalReservedBps := (totalBps * criticalPct.toUInt64 / 100).toNat
        highMinBps := (totalBps * highPct.toUInt64 / 100).toNat
        normalMinBps := (totalBps * normalPct.toUInt64 / 100).toNat
        lowMinBps := (totalBps * lowPct.toUInt64 / 100).toNat
        totalAvailableBps := totalBps.toNat }
  else none

def allocated (a : BandwidthAllocation) : Nat :=
  a.share .critical + a.share .high + a.share .normal + a.share .low

def percentage (criticalPct highPct normalPct lowPct : UInt8) : EventPriority → Nat
  | .critical => criticalPct.toNat
  | .high => highPct.toNat
  | .normal => normalPct.toNat
  | .low => lowPct.toNat

/-! ## 2. `new` -/

theorem allocated_new_le (totalBps : UInt64) : (new totalBps).allocated ≤ totalBps.toNat := by
  simp only [allocated, share, new, UInt64.toNat_div, UInt64.toNat_mul, UInt64.reduceToNat]
  have hle : totalBps.toNat * 90 % 2 ^ 64 ≤ totalBps.toNat * 90 := Nat.mod_le _ _
  have hlt : totalBps.toNat * 90 % 2 ^ 64 < 2 ^ 64 := Nat.mod_lt _ (by decide)
  -- a hundredth of a `u64` times fifty fits into a `u64`
  generalize totalBps.toNat * 90 % 2 ^ 64 = wrapped at hle hlt
  have hhigh : wrapped / 100 * 50 % 2 ^ 64 = wrapped / 100 * 50 := Nat.mod_eq_of_lt (by omega)
  have hnormal : wrapped / 100 * 35 % 2 ^ 64 = wrapped / 100 * 35 := Nat.mod_eq_of_lt (by omega)
  have hlow : wrapped / 100 * 15 % 2 ^ 64 = wrapped / 100 * 15 := Nat.mod_eq_of_lt (by omega)
  rw [hhigh, hnormal, hlow]
  omega

/-! ## 3. `with_percentages` -/

theorem toNat_share (totalBps : UInt64) (pct : UInt8) :
    (totalBps * pct.toUInt64 / 100).toNat =
      totalBps.toNat * pct.toNat % 18446744073709551616 / 100 := by
  simp only [UInt64.toNat_div, UInt64.toNat_mul, UInt64.reduceToNat, UInt8.toNat_toUInt64]

theorem wrapped_div_eq_iff (x : Nat) :
    x % 18446744073709551616 / 100 = x / 100 ↔ x < 18446744073709551616 := by
  omega

/-- The product in the share of a class does not overflow. -/
def FitsU64 (totalBps : UInt64) (pct : Nat) : Prop := totalBps.toNat * pct < 18446744073709551616

/-- **Exact percentages**: they sum up to at most 100, the levels get no more than the total, and each
    level gets its hundredths, rounded down. -/
structure Exact (totalBps : UInt64) (pct : EventPriority → Nat) (a : BandwidthAllocation) : Prop where
  sum : pct .critical + pct .high + pct .normal + pct .low ≤ 100
  allocated : a.allocated ≤ totalBps.toNat
  share : ∀ p, a.share p = totalBps.toNat * pct p / 100

variable {totalBps : UInt64} {criticalPct highPct normalPct lowPct : UInt8} {a : BandwidthAllocation}

theorem withPercentages_eq (h : withPercentages totalBps criticalPct highPct normalPct lowPct = some a) :
    (criticalPct.toNat + highPct.toNat + normalPct.toNat + lowPct.toNat) % 256 ≤ 100 ∧
      ∀ p, a.share p =
        totalBps.toNat * percentage criticalPct highPct normalPct lowPct p %
          18446744073709551616 / 100 := by
  unfold withPercentages at h
  split at h
  · rename_i hguard
    cases h
    refine ⟨?_, fun p => ?_⟩
    · rw [UInt8.le_iff_toNat_le] at hguard
      simp only [UInt8.toNat_add, UInt8.reduceToNat] at hguard
      omega
    · cases p <;> exact toNat_share totalBps _
  · nomatch h

theorem Exact.of_shares {pct : EventPriority → Nat}
    (hsum : pct .critical + pct .high + pct .normal + pct .low ≤ 100)
    (hshare : ∀ p, a.share p = totalBps.toNat * pct p / 100) : Exact totalBps pct a := by
  refine ⟨hsum, ?_, hshare⟩
  have hmul : totalBps.toNat * pct .critical + totalBps.toNat * pct .high +
      totalBps.toNat * pct .normal + totalBps.toNat * pct .low ≤ totalBps.toNat * 100 := by
    rw [← Nat.mul_add, ← Nat.mul_add, ← Nat.mul_add]
    exact Nat.mul_le_mul_left _ hsum
  unfold BandwidthAllocation.allocated
  rw [hshare, hshare, hshare, hshare]
  omega

/-- **Allocations in wrapping arithmetic** are exact exactly when the sum of the percentages fits into a
    `u8` and every product with the total into a `u64`. -/
theorem withPercentages_exact_iff
    (h : withPercentages totalBps criticalPct highPct normalPct lowPct = some a) :
    (Exact totalBps (percentage criticalPct highPct normalPct lowPct) a ∧
      (new totalBps).allocated ≤ totalBps.toNat) ↔
    criticalPct.toNat + highPct.toNat + normalPct.toNat + lowPct.toNat < 256 ∧
      ∀ p, FitsU64 totalBps (percentage criticalPct highPct normalPct lowPct p) := by
  obtain ⟨hguard, hshare⟩ := withPercentages_eq h
  constructor
  · intro ⟨hexact, _⟩
    have hsum : criticalPct.toNat + highPct.toNat + normalPct.toNat + lowPct.toNat ≤ 100 :=
      hexact.sum
    refine ⟨by omega, fun p => ?_⟩
    rw [FitsU64, ← wrapped_div_eq_iff, ← hshare p]
    exact hexact.share p
  · intro ⟨hsum, hfits⟩
    refine ⟨Exact.of_shares ?_ fun p => ?_, allocated_new_le totalBps⟩
    · show criticalPct.toNat + highPct.toNat + normalPct.toNat + lowPct.toNat ≤ 100
      omega
    · rw [hshare p]
      exact (wrapped_div_eq_iff _).mpr (hfits p)

theorem withPercentages_exact_million :
    ∃ a, withPercentages 1000000 10 45 30 15 = some a ∧
      ((Exact 1000000 (percentage 10 45 30 15) a ∧ (new 1000000).allocated ≤ 1000000) ↔
        (10 + 45 + 30 + 15 < 256 ∧ ∀ p, FitsU64 1000000 (percentage 10 45 30 15 p))) := by
  have h : withPercentages 1000000 10 45 30 15 =
      some ⟨100000, 450000, 300000, 150000, 1000000⟩ := by decide
  exact ⟨_, h, withPercentages_exact_iff h⟩

/-- 100, 100, 56 and 0 percent: the sum wraps around to zero, and more than twice the total is given away.
    -/
theorem withPercentages_overallocates :
    withPercentages 1000 100 100 56 0 = some ⟨1000, 1000, 560, 0, 1000⟩ ∧
      (⟨1000, 1000, 560, 0, 1000⟩ : BandwidthAllocation).allocated = 2560 ∧
      ¬ Exact 1000 (percentage 100 100 56 0) ⟨1000, 1000, 560, 0, 1000⟩ := by
  refine ⟨by decide, by decide, fun h => ?_⟩
  exact absurd h.sum (by decide)

end BandwidthAllocation

end Peat.Event
