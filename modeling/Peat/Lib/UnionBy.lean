/-
  LISTS USED AS SETS: "push the element unless one with its key is already there", and
  the loop that pushes a whole list.
-/
import Mathlib.Data.Finset.Card

namespace Peat.Lib

variable {α κ : Type*} [DecidableEq κ]

def pushNew (key : α → κ) (l : List α) (x : α) : List α :=
  if l.any (fun y => key y == key x) then l else l ++ [x]

def unionBy (key : α → κ) (l r : List α) : List α := r.foldl (pushNew key) l

section Push

variable {key : α → κ} {l r : List α} {x y : α}

theorem any_key_iff : l.any (fun y => key y == key x) = true ↔ key x ∈ l.map key := by
  simp only [List.any_eq_true, beq_iff_eq, List.mem_map]

theorem pushNew_of_mem (h : key x ∈ l.map key) : pushNew key l x = l :=
  if_pos (any_key_iff.mpr h)

theorem pushNew_of_not_mem (h : key x ∉ l.map key) : pushNew key l x = l ++ [x] :=
  if_neg fun e => h (any_key_iff.mp e)

theorem mem_pushNew : y ∈ pushNew key l x ↔ y ∈ l ∨ (y = x ∧ key x ∉ l.map key) := by
  by_cases h : key x ∈ l.map key
  · simp [pushNew_of_mem h, h]
  · rw [pushNew_of_not_mem h, List.mem_append, List.mem_singleton]
    exact or_congr_right ⟨fun e => ⟨e, h⟩, And.left⟩

theorem mem_keys_pushNew {k : κ} : k ∈ (pushNew key l x).map key ↔ k ∈ l.map key ∨ k = key x := by
  by_cases h : key x ∈ l.map key
  · rw [pushNew_of_mem h]
    exact ⟨Or.inl, fun e => e.elim id fun e => e ▸ h⟩
  · rw [pushNew_of_not_mem h, List.map_append, List.mem_append, List.map_singleton,
      List.mem_singleton]

theorem nodup_pushNew (h : (l.map key).Nodup) : ((pushNew key l x).map key).Nodup := by
  by_cases hx : key x ∈ l.map key
  · rw [pushNew_of_mem hx]
    exact h
  · rw [pushNew_of_not_mem hx, List.map_append, List.map_singleton, ← List.concat_eq_append]
    exact h.concat hx

theorem idxOf?_cases [DecidableEq α] (l : List α) (x : α) :
    (x ∉ l ∧ l.idxOf? x = none) ∨
      (x ∈ l ∧ ∃ pos, l.idxOf? x = some pos ∧ l.eraseIdx pos = l.erase x) := by
  have herase := List.erase_eq_eraseIdx l x
  cases hpos : l.idxOf? x with
  | none => exact Or.inl ⟨List.idxOf?_eq_none_iff.mp hpos, rfl⟩
  | some pos =>
    have hmem : x ∈ l := by
      refine Classical.byContradiction fun hno => ?_
      rw [List.idxOf?_eq_none_iff.mpr hno] at hpos
      cases hpos
    rw [hpos] at herase
    exact Or.inr ⟨hmem, pos, rfl, herase.symm⟩

end Push

section Union

variable {key : α → κ} {a b c l r : List α} {x : α}

@[simp] theorem unionBy_nil : unionBy key l [] = l := rfl

@[simp] theorem unionBy_cons : unionBy key l (x :: r) = unionBy key (pushNew key l x) r := rfl

theorem mem_unionBy_left (h : x ∈ l) : x ∈ unionBy key l r := by
  induction r generalizing l with
  | nil => exact h
  | cons y r ih => exact ih (mem_pushNew.mpr (Or.inl h))

theorem mem_of_mem_unionBy (h : x ∈ unionBy key l r) : x ∈ l ∨ (x ∈ r ∧ key x ∉ l.map key) := by
  induction r generalizing l with
  | nil => exact Or.inl h
  | cons y r ih =>
    rcases ih h with h | ⟨hr, hk⟩
    · rcases mem_pushNew.mp h with h | ⟨rfl, hk⟩
      · exact Or.inl h
      · exact Or.inr ⟨List.mem_cons_self, hk⟩
    · exact Or.inr ⟨List.mem_cons_of_mem _ hr, fun e => hk (mem_keys_pushNew.mpr (Or.inl e))⟩

theorem mem_keys_unionBy {k : κ} :
    k ∈ (unionBy key l r).map key ↔ k ∈ l.map key ∨ k ∈ r.map key := by
  induction r generalizing l with
  | nil => simp
  | cons y r ih =>
    rw [unionBy_cons, ih, mem_keys_pushNew, List.map_cons, List.mem_cons, or_assoc]

theorem mem_unionBy_id {l r : List κ} {x : κ} : x ∈ unionBy id l r ↔ x ∈ l ∨ x ∈ r := by
  have h := @mem_keys_unionBy κ κ _ id l r x
  rwa [List.map_id, List.map_id, List.map_id] at h

theorem nodup_unionBy (h : (l.map key).Nodup) : ((unionBy key l r).map key).Nodup := by
  induction r generalizing l with
  | nil => exact h
  | cons y r ih => exact ih (nodup_pushNew h)

theorem nodup_unionBy_id {l r : List κ} (h : l.Nodup) : (unionBy id l r).Nodup := by
  have hu := @nodup_unionBy κ κ _ id l r (by rwa [List.map_id])
  rwa [List.map_id] at hu

theorem unionBy_pushNew : unionBy key a (pushNew key b x) = pushNew key (unionBy key a b) x := by
  by_cases h : key x ∈ b.map key
  · rw [pushNew_of_mem h, pushNew_of_mem (mem_keys_unionBy.mpr (Or.inr h))]
  · rw [pushNew_of_not_mem h]
    exact List.foldl_append

theorem unionBy_assoc : unionBy key (unionBy key a b) c = unionBy key a (unionBy key b c) := by
  induction c generalizing b with
  | nil => rfl
  | cons x c ih => rw [unionBy_cons, unionBy_cons, ← ih, unionBy_pushNew]

theorem unionBy_of_subset (h : ∀ k ∈ r.map key, k ∈ l.map key) : unionBy key l r = l := by
  induction r with
  | nil => rfl
  | cons y r ih =>
    rw [unionBy_cons, pushNew_of_mem (h _ (by simp))]
    exact ih fun k hk => h k (List.mem_cons_of_mem _ hk)

@[simp] theorem unionBy_self : unionBy key l l = l := unionBy_of_subset fun _ h => h

theorem card_unionBy (h : (l.map key).Nodup) :
    (unionBy key l r).length = ((l.map key).toFinset ∪ (r.map key).toFinset).card := by
  have hs : ((unionBy key l r).map key).toFinset = (l.map key).toFinset ∪ (r.map key).toFinset := by
    ext k
    simp only [List.mem_toFinset, Finset.mem_union, mem_keys_unionBy]
  rw [← hs, List.toFinset_card_of_nodup (nodup_unionBy h), List.length_map]

theorem card_unionBy_id {l r : List κ} (h : l.Nodup) :
    (unionBy id l r).length = (l.toFinset ∪ r.toFinset).card := by
  have hu := @card_unionBy κ κ _ id l r (by rwa [List.map_id])
  rwa [List.map_id, List.map_id] at hu

theorem count_unionBy_id {l r : List κ} (x : κ) :
    (unionBy id l r).count x = if x ∈ l then l.count x else min 1 (r.count x) := by
  induction r generalizing l with
  | nil =>
    by_cases hx : x ∈ l
    · rw [if_pos hx, unionBy_nil]
    · rw [if_neg hx, unionBy_nil, List.count_eq_zero.mpr hx]
      rfl
  | cons y r ih =>
    rw [unionBy_cons, ih]
    by_cases hy : y ∈ l
    · -- nothing is pushed; `x` is another element if it is new
      have hpush : pushNew id l y = l := pushNew_of_mem (by rwa [List.map_id])
      rw [hpush]
      by_cases hx : x ∈ l
      · rw [if_pos hx, if_pos hx]
      · have hne : y ≠ x := fun e => hx (e ▸ hy)
        rw [if_neg hx, if_neg hx, List.count_cons_of_ne hne]
    · have hpush : pushNew id l y = l ++ [y] := pushNew_of_not_mem (by rwa [List.map_id])
      rw [hpush]
      by_cases hxy : x = y
      · subst hxy
        rw [if_pos (List.mem_append_right _ (List.mem_singleton.mpr rfl)), if_neg hy,
          List.count_append, List.count_eq_zero.mpr hy, List.count_singleton_self,
          List.count_cons_self]
        omega
      · have hmem : x ∈ l ++ [y] ↔ x ∈ l := by simp [hxy]
        have hcount : (l ++ [y]).count x = l.count x := by
          rw [List.count_append, List.count_singleton, if_neg (by simpa using Ne.symm hxy),
            Nat.add_zero]
        simp only [hmem, hcount, List.count_cons_of_ne (Ne.symm hxy)]

end Union

end Peat.Lib
