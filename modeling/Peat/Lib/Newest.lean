/-
  LAST WRITER WINS as an operation: of two stamped values keep the one with the greater
  stamp, and the LEFT one when the stamps are equal.
-/
import Mathlib.Order.WithBot

namespace Peat.Lib

variable {α β τ : Type*} [LinearOrder τ]

def newest (ts : α → τ) (a b : α) : α := if ts a < ts b then b else a

section Newest

variable {ts : α → τ} {a b c : α}

theorem newest_of_lt (h : ts a < ts b) : newest ts a b = b := if_pos h

theorem newest_of_le (h : ts b ≤ ts a) : newest ts a b = a := if_neg (not_lt.mpr h)

@[simp] theorem newest_self : newest ts a a = a := newest_of_le le_rfl

theorem stamp_newest (ts : α → τ) (a b : α) : ts (newest ts a b) = max (ts a) (ts b) := by
  rcases lt_or_ge (ts a) (ts b) with h | h
  · rw [newest_of_lt h, max_eq_right h.le]
  · rw [newest_of_le h, max_eq_left h]

theorem newest_choice (ts : α → τ) (a b : α) : newest ts a b = a ∨ newest ts a b = b := by
  rcases lt_or_ge (ts a) (ts b) with h | h
  · exact Or.inr (newest_of_lt h)
  · exact Or.inl (newest_of_le h)

theorem newest_assoc : newest ts (newest ts a b) c = newest ts a (newest ts b c) := by
  rcases lt_or_ge (ts a) (ts b) with hab | hab
  · rw [newest_of_lt hab]
    have hle : ts b ≤ ts (newest ts b c) := by rw [stamp_newest ts]; exact le_max_left _ _
    rw [newest_of_lt (lt_of_lt_of_le hab hle)]
  · rw [newest_of_le hab]
    rcases lt_or_ge (ts b) (ts c) with hbc | hbc
    · rw [newest_of_lt hbc]
    · rw [newest_of_le hbc, newest_of_le hab, newest_of_le (hbc.trans hab)]

theorem newest_comm_iff (f : α → β) :
    f (newest ts a b) = f (newest ts b a) ↔ (ts a = ts b → f a = f b) := by
  rcases lt_trichotomy (ts a) (ts b) with h | h | h
  · rw [newest_of_lt h, newest_of_le h.le]
    exact ⟨fun _ e => absurd e h.ne, fun _ => rfl⟩
  · rw [newest_of_le h.ge, newest_of_le h.le]
    exact ⟨fun e _ => e, fun e => e h⟩
  · rw [newest_of_le h.le, newest_of_lt h]
    exact ⟨fun _ e => absurd e h.ne', fun _ => rfl⟩

theorem both_newest_iff (P : α → Prop) :
    (P (newest ts a b) ∧ P (newest ts b a)) ↔ (ts a ≤ ts b → P b) ∧ (ts b ≤ ts a → P a) := by
  rcases lt_trichotomy (ts a) (ts b) with h | h | h
  · rw [newest_of_lt h, newest_of_le h.le]
    exact ⟨fun hp => ⟨fun _ => hp.1, fun hle => absurd h hle.not_gt⟩,
      fun hp => ⟨hp.1 h.le, hp.1 h.le⟩⟩
  · rw [newest_of_le h.ge, newest_of_le h.le]
    exact ⟨fun hp => ⟨fun _ => hp.2, fun _ => hp.1⟩, fun hp => ⟨hp.2 h.ge, hp.1 h.le⟩⟩
  · rw [newest_of_le h.le, newest_of_lt h]
    exact ⟨fun hp => ⟨fun hle => absurd h hle.not_gt, fun _ => hp.1⟩,
      fun hp => ⟨hp.2 h.le, hp.2 h.le⟩⟩

end Newest

/-! ## 1. Entries that may be absent -/

def entryStamp (ts : α → τ) (o : Option α) : WithBot τ := o.map ts

@[simp] theorem newest_none_right (ts : α → τ) (o : Option α) :
    newest (entryStamp ts) o none = o := newest_of_le bot_le

@[simp] theorem newest_none_left (ts : α → τ) (a : α) :
    newest (entryStamp ts) none (some a) = some a := newest_of_lt (WithBot.bot_lt_coe _)

theorem newest_some_some (ts : α → τ) (a b : α) :
    newest (entryStamp ts) (some a) (some b) = if ts a < ts b then some b else some a := by
  show (if (ts a : WithBot τ) < ts b then some b else some a) = _
  simp only [WithBot.coe_lt_coe]

end Peat.Lib
