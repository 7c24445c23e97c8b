/-
  A STABLE SORT keeps tied items in their old order.

  `List.insertionSort` inserts an item before the first one it may precede, so tied
  items keep their order.
-/
import Mathlib.Data.List.Sort

namespace Peat.Lib

section Stable

variable {α : Type*} {r s : α → α → Prop} [DecidableRel r] [IsTrans α r] [Std.Total r]

theorem pairwise_orderedInsert_stable {a : α} {l : List α}
    (hl : l.Pairwise fun b c => r b c ∧ (r c b → s b c)) (ha : ∀ b ∈ l, r a b → r b a → s a b) :
    (l.orderedInsert r a).Pairwise fun b c => r b c ∧ (r c b → s b c) := by
  induction l with
  | nil => exact List.pairwise_singleton _ _
  | cons b l ih =>
    obtain ⟨hb, hl'⟩ := List.pairwise_cons.mp hl
    by_cases hab : r a b
    · rw [List.orderedInsert_cons_of_le r l hab]
      refine List.pairwise_cons.mpr ⟨fun c hc => ?_, hl⟩
      have hac : r a c := by
        rcases List.mem_cons.mp hc with rfl | hc'
        · exact hab
        · exact IsTrans.trans _ _ _ hab (hb c hc').1
      exact ⟨hac, ha c hc hac⟩
    · rw [List.orderedInsert_of_not_le r l hab]
      refine List.pairwise_cons.mpr ⟨fun c hc => ?_, ih hl' fun c hc => ha c (List.mem_cons_of_mem _ hc)⟩
      rcases (List.mem_orderedInsert r).mp hc with rfl | hc'
      · exact ⟨(Std.Total.total c b).resolve_left hab, fun h => absurd h hab⟩
      · exact hb c hc'

theorem pairwise_insertionSort_stable {l : List α} (h : l.Pairwise fun a b => r a b → r b a → s a b) :
    (l.insertionSort r).Pairwise fun a b => r a b ∧ (r b a → s a b) := by
  induction l with
  | nil => exact List.Pairwise.nil
  | cons a l ih =>
    obtain ⟨ha, hl⟩ := List.pairwise_cons.mp h
    exact pairwise_orderedInsert_stable (ih hl) fun b hb => ha b ((List.mem_insertionSort r).mp hb)

end Stable

section Front

variable {α : Type*} {r : α → α → Prop} {l : List α} {x : α}

def FirstBest (r : α → α → Prop) (l : List α) (x : α) : Prop :=
  ∃ pre post, l = pre ++ x :: post ∧ (∀ y ∈ pre, ¬ r y x) ∧ ∀ y ∈ post, r x y

theorem FirstBest.mem (h : FirstBest r l x) : x ∈ l := by
  obtain ⟨pre, post, hl, _⟩ := h
  rw [hl]
  exact List.mem_append_right _ List.mem_cons_self

theorem FirstBest.rel (h : FirstBest r l x) (htotal : ∀ a ∈ l, ∀ b ∈ l, r a b ∨ r b a) {y : α}
    (hy : y ∈ l) : r x y := by
  have hx := h.mem
  obtain ⟨pre, post, hl, hpre, hpost⟩ := h
  rw [hl, List.mem_append, List.mem_cons] at hy
  rcases hy with hy | rfl | hy
  · have hmem : y ∈ l := by
      rw [hl]
      exact List.mem_append_left _ hy
    exact (htotal x hx y hmem).resolve_right (hpre y hy)
  · exact (htotal y hx y hx).elim id id
  · exact hpost y hy

theorem append_cons_cases {pre post pre' post' : List α} {y : α}
    (h : pre ++ y :: post = pre' ++ x :: post') :
    (∃ mid, pre' = pre ++ y :: mid) ∨ (∃ mid, pre = pre' ++ x :: mid) ∨ pre = pre' ∧ y = x := by
  rcases List.append_eq_append_iff.mp h with ⟨mid, hpre', hrest⟩ | ⟨mid, hpre, hrest⟩
  · cases mid with
    | nil =>
      obtain ⟨hxy, _⟩ := List.cons.inj hrest
      exact .inr (.inr ⟨(hpre'.trans (List.append_nil pre)).symm, hxy⟩)
    | cons first mid =>
      obtain ⟨rfl, _⟩ := List.cons.inj hrest
      exact .inl ⟨mid, hpre'⟩
  · cases mid with
    | nil =>
      obtain ⟨hxy, _⟩ := List.cons.inj hrest
      exact .inr (.inr ⟨hpre.trans (List.append_nil pre'), hxy.symm⟩)
    | cons first mid =>
      obtain ⟨rfl, _⟩ := List.cons.inj hrest
      exact .inr (.inl ⟨mid, hpre⟩)

variable [DecidableRel r]

theorem head?_insertionSort_cons (a : α) {y : α} {rest : List α} (h : l.insertionSort r = y :: rest) :
    ((a :: l).insertionSort r).head? = some (if r a y then a else y) := by
  show ((l.insertionSort r).orderedInsert r a).head? = _
  rw [h, List.orderedInsert_cons]
  split <;> rfl

theorem head?_insertionSort_of_firstBest (h : FirstBest r l x) :
    (l.insertionSort r).head? = some x := by
  obtain ⟨pre, post, rfl, hpre, hpost⟩ := h
  induction pre with
  | nil => exact congrArg List.head? (List.insertionSort_cons_of_forall_rel _ hpost)
  | cons a pre ih =>
    obtain ⟨ha, hpre⟩ := List.forall_mem_cons.mp hpre
    obtain ⟨rest, hrest⟩ := List.head?_eq_some_iff.mp (ih hpre)
    rw [List.cons_append, head?_insertionSort_cons a hrest, if_neg ha]

theorem firstBest_of_head?_insertionSort (htotal : ∀ a ∈ l, ∀ b ∈ l, r a b ∨ r b a)
    (htrans : ∀ a ∈ l, ∀ b ∈ l, ∀ c ∈ l, r a b → r b c → r a c)
    (h : (l.insertionSort r).head? = some x) : FirstBest r l x := by
  induction l generalizing x with
  | nil => cases h
  | cons a l ih =>
    cases hs : l.insertionSort r with
    | nil =>
      have hl : l = [] := List.nil_perm.mp (hs ▸ List.perm_insertionSort r l)
      subst hl
      cases h
      exact ⟨[], [], rfl, nofun, nofun⟩
    | cons y rest =>
      have hfirst : FirstBest r l y :=
        ih (fun b hb c hc => htotal b (.tail a hb) c (.tail a hc))
          (fun b hb c hc d hd => htrans b (.tail a hb) c (.tail a hc) d (.tail a hd)) (by rw [hs]; rfl)
      rw [head?_insertionSort_cons a hs] at h
      by_cases hay : r a y
      · rw [if_pos hay] at h
        cases h
        refine ⟨[], l, rfl, nofun, fun z hz => ?_⟩
        -- what `y` may precede, `a` may precede
        exact htrans a (.head l) y (.tail a hfirst.mem) z (.tail a hz) hay
          (hfirst.rel (fun b hb c hc => htotal b (.tail a hb) c (.tail a hc)) hz)
      · rw [if_neg hay] at h
        cases h
        obtain ⟨pre, post, hl, hpre, hpost⟩ := hfirst
        exact ⟨a :: pre, post, by rw [hl]; rfl, List.forall_mem_cons.mpr ⟨hay, hpre⟩, hpost⟩

theorem head?_insertionSort_eq_some (htotal : ∀ a ∈ l, ∀ b ∈ l, r a b ∨ r b a)
    (htrans : ∀ a ∈ l, ∀ b ∈ l, ∀ c ∈ l, r a b → r b c → r a c) :
    (l.insertionSort r).head? = some x ↔ FirstBest r l x :=
  ⟨firstBest_of_head?_insertionSort htotal htrans, head?_insertionSort_of_firstBest⟩

end Front

end Peat.Lib
