/-
  FLOATS as a program compares them, and the rounding of integers and rationals to a
  number of significant bits, ties to even.
-/
import Mathlib.Data.Rat.Cast.Order
import Mathlib.Tactic.Ring

namespace Peat.Lib

/-! ## 1. Rounding -/

def roundTo (u n : Nat) : Nat :=
  if 2 * (n % u) < u ∨ 2 * (n % u) = u ∧ n / u % 2 = 0 then n / u * u else (n / u + 1) * u

def unitOf (p n : Nat) : Nat := 2 ^ (n.log2 + 1 - p)

def roundNat (p n : Nat) : Nat := roundTo (unitOf p n) n

def roundInt (p : Nat) : Int → Int
  | .ofNat n => roundNat p n
  | .negSucc n => -(roundNat p (n + 1))

/-- A rational at `p` significant bits, in units of `2^-m` at the least: the significand and the last
    bit of the smallest subnormal number of a format. An overflow is not seen here. -/
def roundRat (p m : Nat) (q : ℚ) : ℚ :=
  let scaled := q.num.natAbs * 2 ^ m
  let units := roundTo (q.den * unitOf p (scaled / q.den)) scaled / q.den
  (if q < 0 then -(units : ℚ) else units) / 2 ^ m

def roundF32 : ℚ → ℚ := roundRat 24 149

def roundF64 : ℚ → ℚ := roundRat 53 1074

section Rounding

variable {p u k a b n : Nat}

theorem roundTo_bounds (u n : Nat) : n / u * u ≤ roundTo u n ∧ roundTo u n ≤ (n / u + 1) * u := by
  have hstep : n / u * u ≤ (n / u + 1) * u := Nat.mul_le_mul_right u (Nat.le_succ _)
  unfold roundTo
  split
  · exact ⟨le_refl _, hstep⟩
  · exact ⟨hstep, le_refl _⟩

theorem roundTo_mono (u : Nat) (h : a ≤ b) : roundTo u a ≤ roundTo u b := by
  rcases (Nat.div_le_div_right h : a / u ≤ b / u).lt_or_eq with hlt | heq
  · calc roundTo u a ≤ (a / u + 1) * u := (roundTo_bounds u a).2
      _ ≤ b / u * u := Nat.mul_le_mul_right u hlt
      _ ≤ roundTo u b := (roundTo_bounds u b).1
  · -- in the same unit, what is rounded up stays so
    have hmod : a % u ≤ b % u := by
      have ha := Nat.div_add_mod a u
      have hb := Nat.div_add_mod b u
      rw [heq] at ha
      omega
    have hstep : b / u * u ≤ (b / u + 1) * u := Nat.mul_le_mul_right u (Nat.le_succ _)
    unfold roundTo
    rw [heq]
    split
    · split
      · exact le_refl _
      · exact hstep
    · rename_i hup
      rw [if_neg (by omega)]

theorem roundTo_of_dvd (h : u ∣ n) : roundTo u n = n := by
  obtain ⟨q, rfl⟩ := h
  rcases Nat.eq_zero_or_pos u with rfl | hu
  · simp [roundTo]
  · rw [roundTo, Nat.mul_mod_right, Nat.mul_div_cancel_left q hu, if_pos (.inl hu), Nat.mul_comm]

theorem unitOf_dvd_pow (hp : 1 ≤ p) (h : n.log2 ≤ k) : unitOf p n ∣ 2 ^ k :=
  pow_dvd_pow 2 (by omega)

theorem roundNat_le_pow (hp : 1 ≤ p) (h : n ≤ 2 ^ k) : roundNat p n ≤ 2 ^ k := by
  have hlog : n.log2 ≤ k := by
    rcases Nat.eq_zero_or_pos n with rfl | hn
    · simp
    · exact (Nat.pow_le_pow_iff_right (by decide)).mp ((Nat.log2_self_le hn.ne').trans h)
  calc roundNat p n ≤ roundTo (unitOf p n) (2 ^ k) := roundTo_mono _ h
    _ = 2 ^ k := roundTo_of_dvd (unitOf_dvd_pow hp hlog)

theorem pow_log2_le_roundNat (hp : 1 ≤ p) (hn : n ≠ 0) : 2 ^ n.log2 ≤ roundNat p n :=
  calc 2 ^ n.log2 = roundTo (unitOf p n) (2 ^ n.log2) :=
        (roundTo_of_dvd (unitOf_dvd_pow hp (le_refl _))).symm
    _ ≤ roundNat p n := roundTo_mono _ (Nat.log2_self_le hn)

theorem roundNat_mono (hp : 1 ≤ p) (h : a ≤ b) : roundNat p a ≤ roundNat p b := by
  by_cases hlog : a.log2 = b.log2
  · rw [roundNat, roundNat, unitOf, unitOf, hlog]
    exact roundTo_mono _ h
  · -- the larger number has more bits: a power of two lies between the two
    have hb : b ≠ 0 := by
      intro hb
      rw [hb, Nat.le_zero] at h
      rw [h, hb] at hlog
      exact hlog rfl
    have ha : a ≤ 2 ^ b.log2 := by
      rcases Nat.eq_zero_or_pos a with rfl | ha
      · exact Nat.zero_le _
      · have hle : a.log2 ≤ b.log2 := by
          rw [Nat.le_log2 hb]
          exact (Nat.log2_self_le ha.ne').trans h
        exact ((Nat.log2_lt ha.ne').mp (by omega)).le
    exact (roundNat_le_pow hp ha).trans (pow_log2_le_roundNat hp hb)

theorem roundInt_mono (hp : 1 ≤ p) {x y : Int} (h : x ≤ y) : roundInt p x ≤ roundInt p y := by
  cases x with
  | ofNat a =>
    cases y with
    | ofNat b => exact Int.ofNat_le.mpr (roundNat_mono hp (Int.ofNat_le.mp h))
    | negSucc b => exact absurd h (not_le.mpr (Int.negSucc_lt_zero b |>.trans_le (Int.natCast_nonneg a)))
  | negSucc a =>
    cases y with
    | ofNat b =>
      show -(roundNat p (a + 1) : Int) ≤ roundNat p b
      omega
    | negSucc b =>
      have hround : roundNat p (b + 1) ≤ roundNat p (a + 1) := roundNat_mono hp (by omega)
      show -(roundNat p (a + 1) : Int) ≤ -(roundNat p (b + 1) : Int)
      omega

end Rounding

/-! ## 2. Floats -/

inductive F64 where
  | nan
  | negInf
  | finite (value : Rat)
  | posInf
  deriving DecidableEq

namespace F64

def ofInt (v : Int) : F64 := .finite (roundInt 53 v)

def partialCmp : F64 → F64 → Option Ordering
  | .nan, _ | _, .nan => none
  | .finite a, .finite b => some (cmp a b)
  | .negInf, .negInf | .posInf, .posInf => some .eq
  | .negInf, _ | _, .posInf => some .lt
  | .posInf, _ | _, .negInf => some .gt

theorem partialCmp_swap (a b : F64) : (partialCmp b a).map Ordering.swap = partialCmp a b := by
  cases a <;> cases b <;> first | rfl | exact congrArg some (cmp_swap _ _)

theorem partialCmp_ofInt (v w : Int) :
    partialCmp (ofInt v) (ofInt w) = some (cmp (roundInt 53 v) (roundInt 53 w)) :=
  congrArg some (Int.cast_strictMono.cmp_map_eq (roundInt 53 v) (roundInt 53 w))

theorem ofInt_eq_iff {v w : Int} : ofInt v = ofInt w ↔ roundInt 53 v = roundInt 53 w := by
  rw [ofInt, ofInt, F64.finite.injEq, Int.cast_inj]

end F64

end Peat.Lib
