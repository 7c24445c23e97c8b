/-
  SATURATING COUNTERS: a level between `0` and `top` that is raised and lowered, and
  stops at either end.
-/
import Mathlib.Data.List.Infix
import Peat.Lib.Run

namespace Peat.Lib

/-! ## 1. Counters over the naturals -/

inductive CounterOp where
  | inc (n : Nat)
  | dec (n : Nat)
  deriving DecidableEq, Repr

def CounterOp.delta : CounterOp → Int
  | .inc n => n
  | .dec n => -n

def satStep (top level : Nat) : CounterOp → Nat
  | .inc n => min (level + n) top
  | .dec n => level - n

def net : List CounterOp → Int
  | [] => 0
  | op :: ops => op.delta + net ops

def drift (top : Nat) : Nat → List CounterOp → Int
  | _, [] => 0
  | level, op :: ops =>
    (satStep top level op - (level + op.delta)) + drift top (satStep top level op) ops

/-- The exact count is between 0 and the top all along. -/
def StaysWithin (top level : Nat) (ops : List CounterOp) : Prop :=
  ∀ pre ∈ ops.inits, 0 ≤ level + net pre ∧ level + net pre ≤ top

instance (top level : Nat) (ops : List CounterOp) : Decidable (StaysWithin top level ops) :=
  inferInstanceAs (Decidable (∀ pre ∈ ops.inits, _))

section Laws

variable {top level : Nat} {op : CounterOp} {ops : List CounterOp}

@[simp] theorem net_nil : net [] = 0 := rfl

@[simp] theorem net_cons : net (op :: ops) = op.delta + net ops := rfl

theorem run_satStep (top level : Nat) (ops : List CounterOp) :
    ((run (satStep top) level ops : Nat) : Int) = level + net ops + drift top level ops := by
  induction ops generalizing level with
  | nil => simp [drift]
  | cons op ops ih =>
    rw [run_cons, ih, net_cons, drift]
    omega

theorem satStep_exact (h0 : 0 ≤ level + op.delta) (h1 : level + op.delta ≤ top) :
    (satStep top level op : Int) = level + op.delta := by
  cases op with
  | inc n =>
    have hle : level + n ≤ top := by
      have : (level : Int) + n ≤ top := h1
      omega
    show ((min (level + n) top : Nat) : Int) = level + (n : Int)
    rw [Nat.min_eq_left hle]
    omega
  | dec n =>
    have hle : n ≤ level := by
      have : 0 ≤ (level : Int) + -n := h0
      omega
    show ((level - n : Nat) : Int) = level + -(n : Int)
    omega

theorem drift_eq_zero (h : StaysWithin top level ops) : drift top level ops = 0 := by
  induction ops generalizing level with
  | nil => rfl
  | cons op ops ih =>
    have hfirst := h [op] (by simp [List.inits])
    rw [net_cons, net_nil, Int.add_zero] at hfirst
    have hexact := satStep_exact hfirst.1 hfirst.2
    have hrest : StaysWithin top (satStep top level op) ops := by
      intro pre hpre
      have hlong := h (op :: pre) (by simpa [List.inits] using hpre)
      rw [net_cons] at hlong
      rw [hexact]
      omega
    rw [drift, ih hrest, hexact]
    omega

end Laws

/-! ## 2. 32-bit words -/

def u32Max : Nat := 4294967295

def saturatingAdd (a b : UInt32) : UInt32 := UInt32.ofNat (min (a.toNat + b.toNat) u32Max)

def saturatingSub (a b : UInt32) : UInt32 := UInt32.ofNat (a.toNat - b.toNat)

theorem toNat_saturatingAdd (a b : UInt32) :
    (saturatingAdd a b).toNat = satStep u32Max a.toNat (.inc b.toNat) := by
  have hlt : min (a.toNat + b.toNat) u32Max < 2 ^ 32 := by
    have hle : min (a.toNat + b.toNat) u32Max ≤ u32Max := Nat.min_le_right _ _
    have htop : u32Max < 2 ^ 32 := by decide
    omega
  exact UInt32.toNat_ofNat_of_lt' hlt

theorem toNat_saturatingSub (a b : UInt32) :
    (saturatingSub a b).toNat = satStep u32Max a.toNat (.dec b.toNat) := by
  have hlt : a.toNat - b.toNat < 2 ^ 32 := by
    have hle := a.toNat_lt
    omega
  exact UInt32.toNat_ofNat_of_lt' hlt

end Peat.Lib
