/-
  NUMBERS AS DIGITS: the digits of a number in a base, most significant first and in a
  fixed count, and the number that digits stand for.
-/
import Mathlib.Algebra.Order.Ring.Nat
import Mathlib.Data.List.Induction

namespace Peat.Lib

variable {b n v : Nat} {ds es : List Nat}

def digits (b : Nat) : Nat → Nat → List Nat
  | 0, _ => []
  | n + 1, v => digits b n (v / b) ++ [v % b]

def value (b : Nat) (ds : List Nat) : Nat := ds.foldl (fun v d => v * b + d) 0

@[simp] theorem length_digits (b n v : Nat) : (digits b n v).length = n := by
  induction n generalizing v with
  | zero => rfl
  | succ n ih => simp [digits, ih]

theorem digits_add (b m n v : Nat) : digits b (m + n) v = digits b m (v / b ^ n) ++ digits b n v := by
  induction n generalizing v with
  | zero => simp [digits]
  | succ n ih => rw [← Nat.add_assoc, digits, ih, Nat.div_div_eq_div_mul, Nat.pow_succ', digits,
      List.append_assoc]

theorem lt_of_mem_digits (hb : 0 < b) : ∀ d ∈ digits b n v, d < b := by
  induction n generalizing v with
  | zero => nofun
  | succ n ih => exact List.forall_mem_append.mpr ⟨ih, by simpa using Nat.mod_lt v hb⟩

theorem value_concat (b : Nat) (ds : List Nat) (d : Nat) : value b (ds ++ [d]) = value b ds * b + d := by
  simp [value]

theorem value_digits (b n v : Nat) : value b (digits b n v) = v % b ^ n := by
  induction n generalizing v with
  | zero => exact (Nat.mod_one v).symm
  | succ n ih => rw [digits, value_concat, ih, Nat.pow_succ', Nat.mod_mul, Nat.mul_comm, Nat.add_comm]

theorem value_lt (h : ∀ d ∈ ds, d < b) : value b ds < b ^ ds.length := by
  induction ds using List.reverseRecOn with
  | nil => exact Nat.one_pos
  | append_singleton ds d ih =>
    obtain ⟨hds, hd⟩ := List.forall_mem_append.mp h
    have hlast : d < b := hd d (List.mem_singleton_self d)
    have hmul := Nat.mul_le_mul_right b (ih hds)
    rw [value_concat, List.length_append, List.length_singleton, Nat.pow_succ]
    rw [Nat.succ_mul] at hmul
    omega

theorem digits_value (h : ∀ d ∈ ds, d < b) : digits b ds.length (value b ds) = ds := by
  induction ds using List.reverseRecOn with
  | nil => rfl
  | append_singleton ds d ih =>
    obtain ⟨hds, hd⟩ := List.forall_mem_append.mp h
    have hlast : d < b := hd d (List.mem_singleton_self d)
    rw [List.length_append, List.length_singleton, digits, value_concat, Nat.mul_comm,
      Nat.mul_add_div (Nat.zero_lt_of_lt hlast), Nat.div_eq_of_lt hlast, Nat.add_zero, ih hds,
      Nat.mul_add_mod, Nat.mod_eq_of_lt hlast]

end Peat.Lib
