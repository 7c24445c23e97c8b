/-
  LANES: a family of FIFO queues over a type of indices, served in a fixed order of the
  indices.
-/
import Mathlib.Data.List.Perm.Basic
import Mathlib.Data.List.Nodup

namespace Peat.Lib

abbrev Lanes (ι α : Type*) := ι → List α

namespace Lanes

variable {ι α : Type*} [DecidableEq ι]

/-! ## 1. The items of all lanes -/

def items (order : List ι) (l : Lanes ι α) : List α := order.flatMap l

def pushBack (l : Lanes ι α) (i : ι) (x : α) : Lanes ι α := Function.update l i (l i ++ [x])

theorem update_map_apply {β : Type*} (l : ι → β) (f : β → β) (i j : ι) :
    Function.update l i (f (l i)) j = if j = i then f (l j) else l j := by
  rw [Function.update_apply]
  split
  · rename_i h
    rw [h]
  · rfl

theorem pushBack_apply (l : Lanes ι α) (i j : ι) (x : α) :
    pushBack l i x j = if j = i then l j ++ [x] else l j := update_map_apply l (· ++ [x]) i j

section Items

variable {order : List ι} {l : Lanes ι α} {i : ι}

omit [DecidableEq ι] in
theorem mem_items {x : α} : x ∈ items order l ↔ ∃ i ∈ order, x ∈ l i := List.mem_flatMap

theorem items_update_of_notMem (h : i ∉ order) (q : List α) :
    items order (Function.update l i q) = items order l := by
  induction order with
  | nil => rfl
  | cons j order ih =>
    obtain ⟨hj, hrest⟩ := not_or.mp (mt List.mem_cons.mpr h)
    show Function.update l i q j ++ items order (Function.update l i q) = l j ++ items order l
    rw [Function.update_of_ne (Ne.symm hj), ih hrest]

theorem items_update (hn : order.Nodup) (hi : i ∈ order) (q : List α) :
    (items order (Function.update l i q) ++ l i).Perm (items order l ++ q) := by
  induction order with
  | nil => exact absurd hi List.not_mem_nil
  | cons j order ih =>
    obtain ⟨hj, hn'⟩ := List.nodup_cons.mp hn
    show (Function.update l i q j ++ items order (Function.update l i q) ++ l i).Perm
      (l j ++ items order l ++ q)
    by_cases e : j = i
    · subst e
      rw [Function.update_self, items_update_of_notMem hj]
      have hswap : (q ++ items order l ++ l j).Perm (l j ++ (q ++ items order l)) :=
        List.perm_append_comm
      refine hswap.trans ?_
      rw [List.append_assoc]
      exact List.Perm.append_left _ List.perm_append_comm
    · have hi' : i ∈ order := (List.mem_cons.mp hi).resolve_left (Ne.symm e)
      rw [Function.update_of_ne e, List.append_assoc, List.append_assoc]
      exact (ih hn' hi').append_left _

theorem items_append (hn : order.Nodup) (hi : i ∈ order) (xs : List α) :
    (items order (Function.update l i (l i ++ xs))).Perm (xs ++ items order l) := by
  have h := items_update (l := l) hn hi (l i ++ xs)
  have hsplit : (items order l ++ (l i ++ xs)).Perm (xs ++ items order l ++ l i) := by
    rw [← List.append_assoc, List.append_assoc xs]
    exact List.perm_append_comm
  exact (List.perm_append_right_iff _).mp (h.trans hsplit)

theorem items_pushBack (hn : order.Nodup) (hi : i ∈ order) (x : α) :
    (items order (pushBack l i x)).Perm (x :: items order l) := items_append hn hi [x]

theorem mem_update_append {x : α} {xs : List α} {j : ι}
    (h : x ∈ Function.update l i (l i ++ xs) j) : x ∈ l j ∨ j = i ∧ x ∈ xs := by
  by_cases hj : j = i
  · subst hj
    rw [Function.update_self] at h
    exact (List.mem_append.mp h).imp_right fun hx => ⟨rfl, hx⟩
  · rw [Function.update_of_ne hj] at h
    exact .inl h

theorem foldl_pushBack {β : Type*} (f : β → α) (l : Lanes ι α) (i : ι) (xs : List β) :
    xs.foldl (fun l x => pushBack l i (f x)) l = Function.update l i (l i ++ xs.map f) := by
  induction xs generalizing l with
  | nil =>
    show l = Function.update l i (l i ++ [])
    rw [List.append_nil, Function.update_eq_self]
  | cons x xs ih =>
    rw [List.foldl_cons, ih]
    unfold pushBack
    rw [Function.update_self, Function.update_idem, List.append_assoc]
    rfl

theorem items_split (hn : order.Nodup) (hi : i ∈ order) {stay go : List α}
    (h : (l i).Perm (go ++ stay)) :
    (items order l).Perm (go ++ items order (Function.update l i stay)) := by
  have hw := items_update (l := l) hn hi stay
  have hold : (items order (Function.update l i stay) ++ l i).Perm
      (go ++ items order (Function.update l i stay) ++ stay) := by
    refine (h.append_left _).trans ?_
    rw [← List.append_assoc]
    exact List.perm_append_comm.append_right _
  exact (List.perm_append_right_iff _).mp (hw.symm.trans hold)

omit [DecidableEq ι] in
theorem items_eq_nil : items order l = [] ↔ ∀ i ∈ order, l i = [] := List.flatMap_eq_nil_iff

end Items

/-! ## 2. Serving the first lane that has an item -/

def popFirst : List ι → Lanes ι α → Option (α × Lanes ι α)
  | [], _ => none
  | i :: order, l =>
    match l i with
    | [] => popFirst order l
    | x :: q => some (x, Function.update l i q)

def peekFirst : List ι → Lanes ι α → Option α
  | [], _ => none
  | i :: order, l =>
    match l i with
    | [] => peekFirst order l
    | x :: _ => some x

section Serve

variable {order : List ι} {l l' : Lanes ι α} {x : α}

theorem popFirst_cases (order : List ι) (l : Lanes ι α) :
    (popFirst order l = none ∧ items order l = []) ∨
      ∃ pre i post x q, order = pre ++ i :: post ∧ (∀ j ∈ pre, l j = []) ∧ l i = x :: q ∧
        popFirst order l = some (x, Function.update l i q) := by
  induction order with
  | nil => exact .inl ⟨rfl, rfl⟩
  | cons j order ih =>
    cases hj : l j with
    | cons x q =>
      refine .inr ⟨[], j, order, x, q, rfl, nofun, hj, ?_⟩
      simp only [popFirst, hj]
    | nil =>
      have hpop : popFirst (j :: order) l = popFirst order l := by simp only [popFirst, hj]
      rcases ih with ⟨hnone, hnil⟩ | ⟨pre, i, post, x, q, rfl, hpre, hi, hsome⟩
      · exact .inl ⟨hpop.trans hnone, by
          show l j ++ items order l = []
          rw [hj, hnil]
          rfl⟩
      · refine .inr ⟨j :: pre, i, post, x, q, rfl, ?_, hi, hpop.trans hsome⟩
        intro k hk
        rcases List.mem_cons.mp hk with rfl | hk
        · exact hj
        · exact hpre k hk

theorem items_popFirst (hn : order.Nodup) (h : popFirst order l = some (x, l')) :
    items order l = x :: items order l' := by
  rcases popFirst_cases order l with ⟨hnone, _⟩ | ⟨pre, i, post, y, q, rfl, hpre, hi, hsome⟩
  · rw [hnone] at h
    nomatch h
  · rw [hsome] at h
    obtain ⟨rfl, rfl⟩ := Prod.mk.inj (Option.some.inj h)
    have hmid := List.nodup_middle.mp hn
    have hnot := (List.nodup_cons.mp hmid).1
    have hni : i ∉ pre := fun hm => hnot (List.mem_append_left _ hm)
    have hnp : i ∉ post := fun hm => hnot (List.mem_append_right _ hm)
    have hempty : items pre l = [] := items_eq_nil.mpr hpre
    have hparts : ∀ m : Lanes ι α, items (pre ++ i :: post) m = items pre m ++ (m i ++ items post m) :=
      fun m => by
        unfold items
        rw [List.flatMap_append, List.flatMap_cons]
    rw [hparts, hparts, items_update_of_notMem hni, items_update_of_notMem hnp, Function.update_self,
      hempty, hi]
    rfl

theorem popFirst_eq_none : popFirst order l = none ↔ items order l = [] := by
  rcases popFirst_cases order l with ⟨hnone, hnil⟩ | ⟨pre, i, post, y, q, rfl, hpre, hi, hsome⟩
  · exact iff_of_true hnone hnil
  · refine iff_of_false (by rw [hsome]; nofun) fun hnil => ?_
    have := items_eq_nil.mp hnil i (List.mem_append_right _ List.mem_cons_self)
    rw [hi] at this
    nomatch this

omit [DecidableEq ι] in
theorem peekFirst_eq_head : peekFirst order l = (items order l).head? := by
  induction order with
  | nil => rfl
  | cons j order ih =>
    show _ = (l j ++ items order l).head?
    unfold peekFirst
    cases hj : l j with
    | nil => exact ih
    | cons x q => rfl

theorem popFirst_lane (h : popFirst order l = some (x, l')) (i : ι) : (l' i).Sublist (l i) := by
  rcases popFirst_cases order l with ⟨hnone, _⟩ | ⟨pre, j, post, y, q, rfl, hpre, hj, hsome⟩
  · rw [hnone] at h
    nomatch h
  · rw [hsome] at h
    obtain ⟨rfl, rfl⟩ := Prod.mk.inj (Option.some.inj h)
    by_cases e : i = j
    · subst e
      rw [Function.update_self, hj]
      exact List.sublist_cons_self _ _
    · rw [Function.update_of_ne e]

end Serve

end Lanes

/-! ## 3. A `retain` pass over one lane -/

section Retain

variable {α : Type*} (keep : Nat → α → Bool) (l : List α)

def kept : List α := (l.zipIdx.filter fun p => keep p.2 p.1).map Prod.fst

def removed : List α := (l.zipIdx.filter fun p => !keep p.2 p.1).map Prod.fst

theorem removed_append_kept : l.Perm (removed keep l ++ kept keep l) := by
  unfold removed kept
  rw [← List.map_append]
  have h := List.filter_append_perm (fun p : α × Nat => keep p.2 p.1) l.zipIdx
  have hmap := (List.perm_append_comm.trans h).map Prod.fst
  rw [List.zipIdx_map_fst] at hmap
  exact hmap.symm

theorem kept_sublist : (kept keep l).Sublist l := by
  have h := (List.filter_sublist (l := l.zipIdx) (p := fun p => keep p.2 p.1)).map Prod.fst
  rw [List.zipIdx_map_fst] at h
  exact h

theorem removed_sublist : (removed keep l).Sublist l := kept_sublist (fun k x => !keep k x) l

theorem kept_append (l r : List α) :
    kept keep (l ++ r) = kept keep l ++ kept (fun k => keep (l.length + k)) r := by
  have hshift : r.zipIdx l.length = r.zipIdx.map fun p => (p.1, l.length + p.2) :=
    List.zipIdx_eq_map_add
  unfold kept
  rw [List.zipIdx_append, List.filter_append, List.map_append, Nat.zero_add, hshift,
    List.filter_map, List.map_map]
  rfl

theorem removed_append (l r : List α) :
    removed keep (l ++ r) = removed keep l ++ removed (fun k => keep (l.length + k)) r :=
  kept_append (fun k x => !keep k x) l r

theorem kept_const (p : α → Bool) (l : List α) : kept (fun _ => p) l = l.filter p := by
  unfold kept
  have h := List.filter_map (p := p) (f := Prod.fst) (l := l.zipIdx)
  rw [List.zipIdx_map_fst] at h
  exact h.symm

theorem removed_const (p : α → Bool) (l : List α) :
    removed (fun _ => p) l = l.filter fun x => !p x :=
  kept_const (fun x => !p x) l

end Retain

end Peat.Lib
