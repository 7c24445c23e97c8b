/-
  WHEN IS A MERGE A JOIN on the states that occur?

  A `MergeTree` is how a state came about: a leaf is a state somebody started from, a
  node a merge. Replicas that merged the same states in any order and any number of
  times are trees with the same leaves.
-/
import Mathlib.Data.List.Basic

namespace Peat.Lib

variable {α β : Type*}

inductive MergeTree (α : Type*) where
  | leaf (a : α)
  | node (l r : MergeTree α)

namespace MergeTree

def leaves : MergeTree α → List α
  | .leaf a => [a]
  | .node l r => l.leaves ++ r.leaves

def eval (merge : α → α → α) : MergeTree α → α
  | .leaf a => a
  | .node l r => merge (l.eval merge) (r.eval merge)

end MergeTree

/-- **The merge is a join on the states of `S`**, up to `same`. -/
structure IsJoinOn (merge : α → α → α) (same : α → α → Prop) (S : List α) : Prop where
  comm : ∀ a ∈ S, ∀ b ∈ S, same (merge a b) (merge b a)
  assoc : ∀ a ∈ S, ∀ b ∈ S, ∀ c ∈ S, same (merge (merge a b) c) (merge a (merge b c))
  idem : ∀ a ∈ S, same (merge a a) a
  converge : ∀ t u : MergeTree α, (∀ x, x ∈ t.leaves ↔ x ∈ S) → (∀ x, x ∈ u.leaves ↔ x ∈ S) →
    same (t.eval merge) (u.eval merge)

/-! ## 1. Commuting, idempotent generators -/

section Generators

variable {merge : α → α → α} {view : α → β}

theorem eval_induction {op : β → β → β} (hhom : ∀ a b, view (merge a b) = op (view a) (view b))
    (P : β → Prop) (hop : ∀ x y, P x → P y → P (op x y)) (t : MergeTree α)
    (hleaf : ∀ a ∈ t.leaves, P (view a)) : P (view (t.eval merge)) := by
  induction t with
  | leaf a => exact hleaf a (List.mem_singleton_self a)
  | node l r ihl ihr =>
    rw [MergeTree.eval, hhom]
    exact hop _ _ (ihl fun a ha => hleaf a (List.mem_append_left _ ha))
      (ihr fun a ha => hleaf a (List.mem_append_right _ ha))

variable {op : β → β → β} (hhom : ∀ a b, view (merge a b) = op (view a) (view b))
  (hassoc : ∀ x y z, op (op x y) z = op x (op y z))

include hhom hassoc

theorem eval_comm {x : β} (t : MergeTree α)
    (hx : ∀ a ∈ t.leaves, op x (view a) = op (view a) x) :
    op x (view (t.eval merge)) = op (view (t.eval merge)) x := by
  refine eval_induction hhom (fun y => op x y = op y x) (fun y z hy hz => ?_) t hx
  rw [← hassoc, hy, hassoc, hz, ← hassoc]

theorem eval_absorbs_leaf (t : MergeTree α)
    (hcomm : ∀ a ∈ t.leaves, ∀ b ∈ t.leaves, op (view a) (view b) = op (view b) (view a))
    (hidem : ∀ a ∈ t.leaves, op (view a) (view a) = view a) :
    ∀ a ∈ t.leaves, op (view (t.eval merge)) (view a) = view (t.eval merge) := by
  induction t with
  | leaf b =>
    intro a ha
    have hab : a = b := List.mem_singleton.mp ha
    subst hab
    exact hidem a ha
  | node l r ihl ihr =>
    have hl := ihl (fun a ha b hb => hcomm a (List.mem_append_left _ ha) b
      (List.mem_append_left _ hb)) (fun a ha => hidem a (List.mem_append_left _ ha))
    have hr := ihr (fun a ha b hb => hcomm a (List.mem_append_right _ ha) b
      (List.mem_append_right _ hb)) (fun a ha => hidem a (List.mem_append_right _ ha))
    intro a ha
    rw [MergeTree.eval, hhom, hassoc]
    rcases List.mem_append.mp ha with hal | har
    · -- move the leaf past the right tree and into the left one
      have hswap := eval_comm hhom hassoc (x := view a) r
        (fun b hb => hcomm a (List.mem_append_left _ hal) b (List.mem_append_right _ hb))
      rw [← hswap, ← hassoc, hl a hal]
    · rw [hr a har]

theorem eval_absorbs (t u : MergeTree α)
    (hcomm : ∀ a ∈ t.leaves, ∀ b ∈ t.leaves, op (view a) (view b) = op (view b) (view a))
    (hidem : ∀ a ∈ t.leaves, op (view a) (view a) = view a)
    (hsub : ∀ a ∈ u.leaves, a ∈ t.leaves) :
    op (view (t.eval merge)) (view (u.eval merge)) = view (t.eval merge) := by
  refine eval_induction hhom (fun y => op (view (t.eval merge)) y = view (t.eval merge))
    (fun y z hy hz => ?_) u
    (fun a ha => eval_absorbs_leaf hhom hassoc t hcomm hidem a (hsub a ha))
  rw [← hassoc, hy, hz]

theorem eval_eq_of_leaves {t u : MergeTree α} (hset : ∀ x, x ∈ t.leaves ↔ x ∈ u.leaves)
    (hcomm : ∀ a ∈ t.leaves, ∀ b ∈ t.leaves, op (view a) (view b) = op (view b) (view a))
    (hidem : ∀ a ∈ t.leaves, op (view a) (view a) = view a) :
    view (t.eval merge) = view (u.eval merge) := by
  have hcomm' : ∀ a ∈ u.leaves, ∀ b ∈ u.leaves, op (view a) (view b) = op (view b) (view a) :=
    fun a ha b hb => hcomm a ((hset a).mpr ha) b ((hset b).mpr hb)
  have htu := eval_absorbs hhom hassoc t u hcomm hidem fun a ha => (hset a).mpr ha
  have hut := eval_absorbs hhom hassoc u t hcomm' (fun a ha => hidem a ((hset a).mpr ha))
    fun a ha => (hset a).mp ha
  have hswap : op (view (t.eval merge)) (view (u.eval merge)) =
      op (view (u.eval merge)) (view (t.eval merge)) :=
    eval_comm hhom hassoc u fun a ha => (eval_comm hhom hassoc t fun b hb =>
      hcomm a ((hset a).mpr ha) b hb).symm
  rw [← htu, hswap, hut]

variable (view op) in
theorem isJoinOn_iff (hidem : ∀ x, op x x = x) (same : α → α → Prop)
    (hsame : ∀ a b, view a = view b → same a b)
    (hfine : ∀ a b, same (merge a b) (merge b a) → view (merge a b) = view (merge b a))
    (S : List α) :
    IsJoinOn merge same S ↔ ∀ a ∈ S, ∀ b ∈ S, same (merge a b) (merge b a) := by
  constructor
  · exact IsJoinOn.comm
  · intro h
    refine ⟨h, ?_, ?_, ?_⟩
    · intro a _ b _ c _
      apply hsame
      rw [hhom, hhom, hhom, hhom, hassoc]
    · intro a _
      apply hsame
      rw [hhom, hidem]
    · intro t u ht hu
      refine hsame _ _ (eval_eq_of_leaves hhom hassoc (fun x => (ht x).trans (hu x).symm) ?_
        fun a _ => hidem _)
      intro a ha b hb
      rw [← hhom, ← hhom]
      exact hfine a b (h a ((ht a).mp ha) b ((ht b).mp hb))

end Generators

end Peat.Lib
