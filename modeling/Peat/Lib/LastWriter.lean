/-
  REGISTERS AND THEIR LAST WRITERS.

  A state is read through a family of registers; only the last operation that writes a
  register matters for it.
-/
import Peat.Lib.Run

namespace Peat.Lib

variable {σ α β ρ : Type*} {V : ρ → Type*}

def lastWrite (write : α → (r : ρ) → Option (V r)) (r : ρ) : List α → Option (V r)
  | [] => none
  | a :: ops => (lastWrite write r ops).or (write a r)

def WritesRegisters (step : σ → α → σ) (read : σ → (r : ρ) → V r)
    (write : α → (r : ρ) → Option (V r)) : Prop :=
  ∀ s a r, read (step s a) r = (write a r).getD (read s r)

section Laws

variable {step : σ → α → σ} {read : σ → (r : ρ) → V r} {write : α → (r : ρ) → Option (V r)}

theorem lastWrite_eq_none {r : ρ} {ops : List α} :
    lastWrite write r ops = none ↔ ∀ a ∈ ops, write a r = none := by
  induction ops with
  | nil => exact iff_of_true rfl fun _ h => (nomatch h)
  | cons a ops ih =>
    rw [List.forall_mem_cons, ← ih, lastWrite, Option.or_eq_none_iff]
    exact And.comm

theorem read_run (h : WritesRegisters step read write) (s : σ) (ops : List α) (r : ρ) :
    read (run step s ops) r = (lastWrite write r ops).getD (read s r) := by
  induction ops generalizing s with
  | nil => rfl
  | cons a ops ih =>
    rw [run_cons, ih, h, lastWrite]
    cases lastWrite write r ops <;> rfl

theorem WritesRegisters.flatten (h : WritesRegisters step read write) (parts : β → List α) :
    WritesRegisters (fun s b => run step s (parts b)) read
      (fun b r => lastWrite write r (parts b)) :=
  fun s b r => read_run h s (parts b) r

theorem read_run_eq_iff (h : WritesRegisters step read write) (s : σ) {ops ops' : List α}
    (hsame : ∀ a, a ∈ ops ↔ a ∈ ops') :
    (∀ r, read (run step s ops) r = read (run step s ops') r) ↔
      ∀ r, lastWrite write r ops = lastWrite write r ops' := by
  refine forall_congr' fun r => ?_
  rw [read_run h, read_run h]
  have hnone : lastWrite write r ops = none ↔ lastWrite write r ops' = none := by
    simp only [lastWrite_eq_none, hsame]
  cases ho : lastWrite write r ops with
  | none => rw [hnone.mp ho]; exact iff_of_true rfl rfl
  | some v =>
    cases ho' : lastWrite write r ops' with
    | none =>
      rw [hnone.mpr ho'] at ho
      cases ho
    | some v' => exact Option.some_inj.symm

end Laws

end Peat.Lib
