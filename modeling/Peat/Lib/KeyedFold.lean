/-
  ONE ACCUMULATOR PER KEY: a loop over items that name a key, each of which updates the
  accumulator of its key (`entry(key).or_default()`), and may fail.
-/
import Peat.Lib.HashMap

namespace Peat.Lib

variable {κ σ ω : Type*} [DecidableEq κ]

def updateAt (fresh : σ) (f : σ → ω → Option σ) (m : HashMap κ σ) (item : κ × ω) :
    Option (HashMap κ σ) :=
  (f ((m.lookup item.1).getD fresh) item.2).map fun s => m.insert item.1 s

def itemsAt (k : κ) (items : List (κ × ω)) : List ω :=
  items.filterMap fun item => if item.1 = k then some item.2 else none

theorem itemsAt_cons (k : κ) (item : κ × ω) (items : List (κ × ω)) :
    itemsAt k (item :: items) =
      if item.1 = k then item.2 :: itemsAt k items else itemsAt k items := by
  by_cases h : item.1 = k
  · rw [if_pos h]
    exact List.filterMap_cons_some (if_pos h)
  · rw [if_neg h]
    exact List.filterMap_cons_none (if_neg h)

theorem itemsAt_append (k : κ) (xs ys : List (κ × ω)) :
    itemsAt k (xs ++ ys) = itemsAt k xs ++ itemsAt k ys := List.filterMap_append

theorem itemsAt_map {τ : Type*} (g : ω → τ) (k : κ) (items : List (κ × ω)) :
    itemsAt k (items.map fun item => (item.1, g item.2)) = (itemsAt k items).map g := by
  induction items with
  | nil => rfl
  | cons item items ih =>
    rw [List.map_cons, itemsAt_cons, itemsAt_cons, ih]
    split <;> rfl

variable {fresh : σ} {f : σ → ω → Option σ}

variable {m : HashMap κ σ} {items : List (κ × ω)}

theorem updateAt_eq_some {m' : HashMap κ σ} {item : κ × ω} :
    updateAt fresh f m item = some m' ↔
      ∃ s, f ((m.lookup item.1).getD fresh) item.2 = some s ∧ m.insert item.1 s = m' :=
  Option.map_eq_some_iff

theorem foldlM_updateAt {m' : HashMap κ σ} (h : items.foldlM (updateAt fresh f) m = some m')
    (k : κ) :
    (itemsAt k items).foldlM f ((m.lookup k).getD fresh) = some ((m'.lookup k).getD fresh) ∧
      ((m.lookup k).isSome ∨ itemsAt k items ≠ [] → (m'.lookup k).isSome) := by
  induction items generalizing m with
  | nil =>
    cases h
    exact ⟨rfl, fun hor => hor.resolve_right fun hne => hne rfl⟩
  | cons item items ih =>
    rw [List.foldlM_cons] at h
    obtain ⟨m₁, hone, hrest⟩ := Option.bind_eq_some_iff.mp h
    obtain ⟨s, hs, rfl⟩ := updateAt_eq_some.mp hone
    have hih := ih hrest
    rw [itemsAt_cons]
    rw [lookup_insert_eq_ite] at hih
    by_cases hk : item.1 = k
    · subst hk
      rw [if_pos rfl] at hih
      rw [if_pos rfl, List.foldlM_cons, hs]
      exact ⟨hih.1, fun _ => hih.2 (.inl rfl)⟩
    · rw [if_neg (Ne.symm hk)] at hih
      rw [if_neg hk]
      exact hih

theorem exists_foldlM_updateAt :
    (∃ m', items.foldlM (updateAt fresh f) m = some m') ↔
      ∀ k, ∃ s, (itemsAt k items).foldlM f ((m.lookup k).getD fresh) = some s := by
  constructor
  · intro ⟨m', h⟩ k
    exact ⟨_, (foldlM_updateAt h k).1⟩
  · intro h
    induction items generalizing m with
    | nil => exact ⟨m, rfl⟩
    | cons item items ih =>
      obtain ⟨last, hlast⟩ := h item.1
      rw [itemsAt_cons, if_pos rfl, List.foldlM_cons] at hlast
      obtain ⟨s, hs, htail⟩ := Option.bind_eq_some_iff.mp hlast
      have hrest : ∃ m', items.foldlM (updateAt fresh f) (m.insert item.1 s) = some m' := by
        refine ih fun k => ?_
        rw [lookup_insert_eq_ite]
        by_cases hk : k = item.1
        · rw [if_pos hk, hk]
          exact ⟨last, htail⟩
        · obtain ⟨other, hother⟩ := h k
          rw [itemsAt_cons, if_neg (Ne.symm hk)] at hother
          rw [if_neg hk]
          exact ⟨other, hother⟩
      obtain ⟨m', hm'⟩ := hrest
      refine ⟨m', ?_⟩
      rw [List.foldlM_cons]
      exact Option.bind_eq_some_iff.mpr ⟨_, updateAt_eq_some.mpr ⟨s, hs, rfl⟩, hm'⟩

end Peat.Lib
