/-
  KEYS joined from two parts by a separator.

  A key `a ++ sep :: b` tells its parts apart only while the separator occurs in
  neither of them (`Plain`).
-/
import Mathlib.Data.List.Basic

namespace Peat.Lib.Separated

variable {α : Type*} {sep : α} {a b a' b' : List α}

def join (sep : α) (a b : List α) : List α := a ++ sep :: b

def Plain (sep : α) (a b : List α) : Prop := sep ∉ a ∧ sep ∉ b

theorem join_inj (h : Plain sep a b) : join sep a b = join sep a' b' ↔ a = a' ∧ b = b' := by
  unfold join
  rw [List.append_cons_inj_of_notMem h.1 h.2]
  simp

theorem prefix_join_iff (h : Plain sep a b) : a' ++ [sep] <+: join sep a b ↔ a' = a := by
  constructor
  · rintro ⟨t, ht⟩
    rw [List.append_assoc] at ht
    exact ((join_inj h).mp ht.symm).1.symm
  · rintro rfl
    exact ⟨b, by rw [List.append_assoc]; rfl⟩

theorem exists_other_reading (h : ¬ Plain sep a b) :
    ∃ a' b', (a', b') ≠ (a, b) ∧ join sep a' b' = join sep a b := by
  unfold join
  by_cases ha : sep ∈ a
  · obtain ⟨s, t, rfl⟩ := List.append_of_mem ha
    refine ⟨s, t ++ sep :: b, fun e => ?_, by simp⟩
    have hlen := congrArg (fun p => p.1.length) e
    simp at hlen
  · have hb : sep ∈ b := by
      by_contra hb
      exact h ⟨ha, hb⟩
    obtain ⟨s, t, rfl⟩ := List.append_of_mem hb
    refine ⟨a ++ sep :: s, t, fun e => ?_, by simp⟩
    have hlen := congrArg (fun p => p.1.length) e
    simp at hlen

theorem splitOn_join [BEq α] [LawfulBEq α] (h : Plain sep a b) :
    (join sep a b).splitOn sep = [a, b] := by
  have hne : ∀ l : List α, sep ∉ l → ∀ x ∈ l, (x == sep) = false := by
    intro l hl x hx
    exact beq_false_of_ne fun e => hl (e ▸ hx)
  unfold join List.splitOn
  rw [List.splitOnP_append_cons_of_forall_mem (hne a h.1) sep (beq_self_eq_true sep),
    List.splitOnP_eq_singleton (hne b h.2)]

end Peat.Lib.Separated
