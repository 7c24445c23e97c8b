/-
  THE FIRST LEAST ITEM of a list, among the items that qualify: what a loop computes
  that keeps the best item so far and replaces it by a strictly better one only.
-/
import Mathlib.Data.List.MinMax

namespace Peat.Lib

variable {α κ : Type*} [LinearOrder κ] {p : α → Prop} {f : α → κ} {l : List α} {a x : α}

def FirstLeast (p : α → Prop) (f : α → κ) (l : List α) (x : α) : Prop :=
  ∃ pre post, l = pre ++ x :: post ∧ p x ∧ (∀ y ∈ pre, p y → f x < f y) ∧
    ∀ y ∈ post, p y → f x ≤ f y

namespace FirstLeast

theorem mem (h : FirstLeast p f l x) : x ∈ l := by
  obtain ⟨pre, post, rfl, _⟩ := h
  exact List.mem_append_right _ List.mem_cons_self

theorem qualifies (h : FirstLeast p f l x) : p x := by
  obtain ⟨_, _, _, hp, _⟩ := h
  exact hp

theorem le (h : FirstLeast p f l x) {y : α} (hy : y ∈ l) (hp : p y) : f x ≤ f y := by
  obtain ⟨pre, post, rfl, _, hpre, hpost⟩ := h
  rcases List.mem_append.mp hy with hy | hy
  · exact (hpre y hy hp).le
  · rcases List.mem_cons.mp hy with e | hy
    · rw [e]
    · exact hpost y hy hp

end FirstLeast

theorem firstLeast_cons : FirstLeast p f (a :: l) x ↔
    (x = a ∧ p a ∧ ∀ y ∈ l, p y → f a ≤ f y) ∨ (FirstLeast p f l x ∧ (p a → f x < f a)) := by
  constructor
  · intro h
    obtain ⟨pre, post, e, hp, hpre, hpost⟩ := h
    cases pre with
    | nil =>
      injection e with ea el
      subst ea el
      exact .inl ⟨rfl, hp, hpost⟩
    | cons b pre =>
      injection e with eb el
      subst eb
      exact .inr ⟨⟨pre, post, el, hp, fun y hy => hpre y (List.mem_cons_of_mem _ hy), hpost⟩,
        hpre a List.mem_cons_self⟩
  · intro h
    rcases h with ⟨e, hp, hle⟩ | ⟨⟨pre, post, e, hp, hpre, hpost⟩, hlt⟩
    · subst e
      exact ⟨[], l, rfl, hp, nofun, hle⟩
    · refine ⟨a :: pre, post, by rw [e]; rfl, hp, fun y hy => ?_, hpost⟩
      rcases List.mem_cons.mp hy with e | hy
      · rw [e]
        exact hlt
      · exact hpre y hy

theorem FirstLeast.unique {y : α} (h : FirstLeast p f l x) (h' : FirstLeast p f l y) : x = y := by
  induction l with
  | nil => cases h.mem
  | cons a l ih =>
    rcases firstLeast_cons.mp h with ⟨e, hp, hle⟩ | ⟨hx, hlt⟩
    · rcases firstLeast_cons.mp h' with ⟨e', _, _⟩ | ⟨hy, hlt⟩
      · rw [e, e']
      · exact absurd (hlt hp) (not_lt.mpr (hle y hy.mem hy.qualifies))
    · rcases firstLeast_cons.mp h' with ⟨_, hp, hle⟩ | ⟨hy, _⟩
      · exact absurd (hlt hp) (not_lt.mpr (hle x hx.mem hx.qualifies))
      · exact ih hx hy

variable [DecidablePred p]

theorem firstLeast_of_argmin (h : (l.filter fun y => p y).argmin f = some x) :
    FirstLeast p f l x := by
  induction l generalizing x with
  | nil => nomatch h
  | cons a l ih =>
    rw [firstLeast_cons]
    by_cases hp : p a
    · rw [List.filter_cons_of_pos (by simpa using hp), List.argmin_cons] at h
      cases hrest : (l.filter fun y => p y).argmin f with
      | none =>
        have hnil : ∀ y ∈ l, ¬ p y := by simpa using List.argmin_eq_none.mp hrest
        rw [hrest] at h
        exact .inl ⟨(Option.some.inj h).symm, hp, fun y hy hpy => absurd hpy (hnil y hy)⟩
      | some c =>
        have hc := ih hrest
        rw [hrest] at h
        change (if f c < f a then some c else some a) = some x at h
        by_cases hlt : f c < f a
        · rw [if_pos hlt] at h
          have e := Option.some.inj h
          exact .inr ⟨e ▸ hc, fun _ => e ▸ hlt⟩
        · rw [if_neg hlt] at h
          refine .inl ⟨(Option.some.inj h).symm, hp, fun y hy hpy => ?_⟩
          exact (not_lt.mp hlt).trans (hc.le hy hpy)
    · rw [List.filter_cons_of_neg (by simpa using hp)] at h
      exact .inr ⟨ih h, fun hpa => absurd hpa hp⟩

theorem argmin_filter_eq_some_iff :
    (l.filter fun y => p y).argmin f = some x ↔ FirstLeast p f l x := by
  refine ⟨firstLeast_of_argmin, fun h => ?_⟩
  cases hmin : (l.filter fun y => p y).argmin f with
  | none =>
    have hnil : ∀ y ∈ l, ¬ p y := by simpa using List.argmin_eq_none.mp hmin
    exact absurd h.qualifies (hnil x h.mem)
  | some y => rw [h.unique (firstLeast_of_argmin hmin)]

end Peat.Lib
