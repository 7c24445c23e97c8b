/-
  AGGREGATES OVER A GROUPING: what the aggregate of the groups says about the aggregate
  of all items.

  Items are grouped, every group is aggregated, and then the groups' values are.
-/
import Mathlib.Algebra.BigOperators.Ring.List
import Mathlib.Algebra.Order.BigOperators.Group.List
import Mathlib.Algebra.Order.Field.Basic
import Mathlib.Data.List.Induction

namespace Peat.Lib

variable {α ι β K : Type*}

/-! ## 1. Extremes -/

def values (f : α → K) (items : List α) : Set K := {y | ∃ a ∈ items, f a = y}

theorem values_perm {f : α → K} {xs ys : List α} (h : xs.Perm ys) : values f xs = values f ys := by
  ext y
  exact exists_congr fun a => and_congr_left' h.mem_iff

theorem values_map (f : β → K) (g : α → β) (xs : List α) :
    values f (xs.map g) = values (f ∘ g) xs := by
  ext y
  simp [values]

section Order

variable [LinearOrder K]

def lowest (f : α → K) (a : α) (items : List α) : K := (items.map f).foldl min (f a)

def highest (f : α → K) (a : α) (items : List α) : K := (items.map f).foldl max (f a)

theorem isLeast_lowest (f : α → K) (a : α) (items : List α) :
    IsLeast (values f (a :: items)) (lowest f a items) := by
  unfold lowest
  induction items using List.reverseRecOn with
  | nil =>
    refine ⟨⟨a, List.mem_singleton_self a, rfl⟩, ?_⟩
    rintro y ⟨b, hb, rfl⟩
    rw [List.mem_singleton.mp hb]
    exact le_refl _
  | append_singleton items b ih =>
    obtain ⟨⟨c, hc, hval⟩, hlow⟩ := ih
    rw [List.map_append, List.foldl_append, ← List.cons_append]
    show IsLeast _ (min _ (f b))
    constructor
    · rcases min_choice ((items.map f).foldl min (f a)) (f b) with h | h
      · exact ⟨c, List.mem_append_left _ hc, hval.trans h.symm⟩
      · exact ⟨b, List.mem_append_right _ (List.mem_singleton_self b), h.symm⟩
    · rintro y ⟨d, hd, rfl⟩
      rcases List.mem_append.mp hd with hd | hd
      · exact (min_le_left _ _).trans (hlow ⟨d, hd, rfl⟩)
      · rw [List.mem_singleton.mp hd]
        exact min_le_right _ _

theorem isGreatest_highest (f : α → K) (a : α) (items : List α) :
    IsGreatest (values f (a :: items)) (highest f a items) :=
  isLeast_lowest (fun x => OrderDual.toDual (f x)) a items

omit [LinearOrder K] in
theorem isLeast_flatMap [Preorder K] {groups : List ι} {items : ι → List α} {f : α → K}
    {g : ι → Option β} {v : β → K} {w : K}
    (hg : ∀ i ∈ groups, ∃ b, g i = some b ∧ IsLeast (values f (items i)) (v b))
    (hw : IsLeast (values v (groups.filterMap g)) w) :
    IsLeast (values f (groups.flatMap items)) w := by
  obtain ⟨⟨b, hb, hval⟩, hlow⟩ := hw
  constructor
  · obtain ⟨i, hi, hib⟩ := List.mem_filterMap.mp hb
    obtain ⟨b', hb', ⟨a, ha, hfa⟩, _⟩ := hg i hi
    cases hib.symm.trans hb'
    exact ⟨a, List.mem_flatMap.mpr ⟨i, hi, ha⟩, hfa.trans hval⟩
  · rintro y ⟨a, ha, rfl⟩
    obtain ⟨i, hi, hai⟩ := List.mem_flatMap.mp ha
    obtain ⟨b', hb', _, hleast⟩ := hg i hi
    exact (hlow ⟨b', List.mem_filterMap.mpr ⟨i, hi, hb'⟩, rfl⟩).trans (hleast ⟨a, hai, rfl⟩)

omit [LinearOrder K] in
theorem isGreatest_flatMap [Preorder K] {groups : List ι} {items : ι → List α} {f : α → K}
    {g : ι → Option β} {v : β → K} {w : K}
    (hg : ∀ i ∈ groups, ∃ b, g i = some b ∧ IsGreatest (values f (items i)) (v b))
    (hw : IsGreatest (values v (groups.filterMap g)) w) :
    IsGreatest (values f (groups.flatMap items)) w :=
  isLeast_flatMap (K := Kᵒᵈ) hg hw

def maxByKey (key : α → K) : List α → Option α
  | [] => none
  | a :: items => some (items.foldl (fun best b => if key best ≤ key b then b else best) a)

theorem maxByKey_isGreatest (key : α → K) {items : List α} (h : items ≠ []) :
    ∃ a, maxByKey key items = some a ∧ IsGreatest (values key items) (key a) := by
  obtain ⟨a, items, rfl⟩ := List.exists_cons_of_ne_nil h
  refine ⟨_, rfl, ?_⟩
  have hfold : key (items.foldl (fun best b => if key best ≤ key b then b else best) a) =
      highest key a items := by
    unfold highest
    clear h
    induction items generalizing a with
    | nil => rfl
    | cons b items ih =>
      rw [List.foldl_cons, ih, List.map_cons, List.foldl_cons]
      by_cases hle : key a ≤ key b
      · rw [if_pos hle, max_eq_right hle]
      · rw [if_neg hle, max_eq_left (le_of_not_ge hle)]
  rw [hfold]
  exact isGreatest_highest key a items

end Order

/-! ## 2. Sums -/

theorem sum_map_flatMap [AddMonoid K] (f : α → K) (items : ι → List α) (groups : List ι) :
    ((groups.flatMap items).map f).sum = (groups.map fun i => ((items i).map f).sum).sum := by
  induction groups with
  | nil => rfl
  | cons i groups ih =>
    rw [List.flatMap_cons, List.map_append, List.sum_append, ih, List.map_cons, List.sum_cons]

def wrapSum (m : Nat) (xs : List Nat) : Nat := xs.foldl (fun acc x => (acc + x) % m) 0

theorem wrapSum_eq (m : Nat) (xs : List Nat) : wrapSum m xs = xs.sum % m := by
  unfold wrapSum
  induction xs using List.reverseRecOn with
  | nil => exact (Nat.zero_mod m).symm
  | append_singleton xs x ih =>
    rw [List.foldl_append, ih, List.sum_append, List.sum_singleton]
    exact Nat.mod_add_mod _ _ _

def checkedSum (m : Nat) (xs : List Nat) : Option Nat :=
  xs.foldlM (fun acc x => if acc + x < m then some (acc + x) else none) 0

theorem checkedSum_eq {m : Nat} (hm : 0 < m) (xs : List Nat) :
    checkedSum m xs = if xs.sum < m then some xs.sum else none := by
  unfold checkedSum
  induction xs using List.reverseRecOn with
  | nil => exact (if_pos hm).symm
  | append_singleton xs x ih =>
    rw [List.foldlM_append, ih, List.sum_append, List.sum_singleton]
    by_cases hxs : xs.sum < m
    · rw [if_pos hxs, Option.bind_eq_bind, Option.bind_some, List.foldlM_cons]
      exact bind_pure _
    · rw [if_neg hxs, if_neg (by omega)]
      rfl

theorem wrapSum_length (m : Nat) (items : ι → List α) (groups : List ι) :
    wrapSum m (groups.map fun i => (items i).length % m) = (groups.flatMap items).length % m := by
  rw [wrapSum_eq]
  induction groups with
  | nil => rfl
  | cons i groups ih =>
    rw [List.map_cons, List.sum_cons, List.flatMap_cons, List.length_append, Nat.add_mod, ih,
      Nat.mod_mod, ← Nat.add_mod]

/-! ## 3. Means -/

theorem length_flatMap_const {groups : List ι} {items : ι → List α} {n : Nat}
    (hn : ∀ i ∈ groups, (items i).length = n) :
    (groups.flatMap items).length = groups.length * n := by
  induction groups with
  | nil => exact (Nat.zero_mul n).symm
  | cons i groups ih =>
    rw [List.flatMap_cons, List.length_append, hn i List.mem_cons_self,
      ih fun j hj => hn j (List.mem_cons_of_mem _ hj), List.length_cons, Nat.succ_mul, Nat.add_comm]

section Mean

variable [Field K]

def mean (xs : List K) : K := xs.sum / xs.length

theorem mean_perm {xs ys : List K} (h : xs.Perm ys) : mean xs = mean ys := by
  unfold mean
  rw [h.sum_eq, h.length_eq]

theorem mean_flatMap {groups : List ι} {items : ι → List K} {n : Nat}
    (hn : ∀ i ∈ groups, (items i).length = n) :
    mean (groups.map fun i => mean (items i)) = mean (groups.flatMap items) := by
  have hmeans : (groups.map fun i => mean (items i)) =
      groups.map fun i => (items i).sum * (n : K)⁻¹ := by
    refine List.map_congr_left fun i hi => ?_
    rw [mean, hn i hi, div_eq_mul_inv]
  have hsum : (groups.flatMap items).sum = (groups.map fun i => (items i).sum).sum := by
    have h := sum_map_flatMap (fun x : K => x) items groups
    simpa using h
  rw [hmeans, mean, mean, List.sum_map_mul_right, hsum, length_flatMap_const hn,
    List.length_map, Nat.cast_mul, div_eq_mul_inv, div_eq_mul_inv, mul_inv, mul_assoc,
    mul_comm (n : K)⁻¹]

variable [LinearOrder K] [IsStrictOrderedRing K] {xs : List K}

theorem le_mean (hne : xs ≠ []) {lo : K} (h : ∀ x ∈ xs, lo ≤ x) : lo ≤ mean xs := by
  have hlen : (0 : K) < xs.length := Nat.cast_pos.mpr (List.length_pos_iff.mpr hne)
  have hsum := List.card_nsmul_le_sum xs lo h
  rw [nsmul_eq_mul] at hsum
  exact (le_div_iff₀' hlen).mpr hsum

theorem mean_le (hne : xs ≠ []) {hi : K} (h : ∀ x ∈ xs, x ≤ hi) : mean xs ≤ hi := by
  have hlen : (0 : K) < xs.length := Nat.cast_pos.mpr (List.length_pos_iff.mpr hne)
  have hsum := List.sum_le_card_nsmul xs hi h
  rw [nsmul_eq_mul] at hsum
  exact (div_le_iff₀' hlen).mpr hsum

end Mean

/-! ## 4. Aggregating every group -/

theorem mapM_ok {ε : Type*} {f : ι → Except ε β} {g : ι → β} {groups : List ι}
    (h : ∀ i ∈ groups, f i = .ok (g i)) : groups.mapM f = .ok (groups.map g) := by
  induction groups with
  | nil => rfl
  | cons i groups ih =>
    rw [List.mapM_cons, h i List.mem_cons_self, ih fun j hj => h j (List.mem_cons_of_mem _ hj)]
    rfl

end Peat.Lib
