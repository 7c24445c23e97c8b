/-
  THE TOP `k` of a list by a key, largest key first.

  `sortDesc` is the stable sort; ties keep the order of the list.
-/
import Mathlib.Data.List.Perm.Subperm
import Peat.Lib.StableSort

namespace Peat.Lib

variable {α κ : Type*} [LinearOrder κ]

def sortDesc (key : α → κ) (l : List α) : List α := l.insertionSort fun a b => key b ≤ key a

def topK (key : α → κ) (k : Nat) (l : List α) : List α := (sortDesc key l).take k

section Sorting

variable {key : α → κ} {l l' : List α}

theorem perm_sortDesc (key : α → κ) (l : List α) : (sortDesc key l).Perm l :=
  List.perm_insertionSort _ l

theorem pairwise_sortDesc (key : α → κ) (l : List α) :
    (sortDesc key l).Pairwise fun a b => key b ≤ key a :=
  have : Std.Total fun a b : α => key b ≤ key a := ⟨fun a b => le_total (key b) (key a)⟩
  have : IsTrans α fun a b => key b ≤ key a := ⟨fun _ _ _ hab hbc => hbc.trans hab⟩
  List.pairwise_insertionSort _ l

theorem sortDesc_eq_of_sorted (hk : (l.map key).Nodup) (hp : l'.Perm l)
    (hs : l'.Pairwise fun a b => key b ≤ key a) : sortDesc key l = l' := by
  have hl := perm_sortDesc key l
  refine List.Perm.eq_of_pairwise (fun a b ha _ hba hab => ?_) (pairwise_sortDesc key l) hs
    (hl.trans hp.symm)
  rename_i hb
  exact List.inj_on_of_nodup_map hk (hl.mem_iff.mp ha) (hp.mem_iff.mp hb) (le_antisymm hab hba)

theorem sortDesc_congr (hk : (l.map key).Nodup) (hp : l.Perm l') :
    sortDesc key l = sortDesc key l' :=
  sortDesc_eq_of_sorted hk ((perm_sortDesc key l').trans hp.symm) (pairwise_sortDesc key l')

theorem sortDesc_of_subset [DecidableEq α] (hk : (l.map key).Nodup) (hsub : l' ⊆ l)
    (hn : l'.Nodup) : sortDesc key l' = (sortDesc key l).filter (· ∈ l') := by
  have hl := perm_sortDesc key l
  have hinj := List.inj_on_of_nodup_map hk
  refine sortDesc_eq_of_sorted ?_ ?_ ((pairwise_sortDesc key l).filter _)
  · exact hn.map_on fun a ha b hb => hinj (hsub ha) (hsub hb)
  · refine (List.perm_ext_iff_of_nodup ((hl.nodup_iff.mpr hk.of_map).filter _) hn).mpr fun a => ?_
    rw [List.mem_filter, decide_eq_true_eq, hl.mem_iff]
    exact ⟨And.right, fun ha => ⟨hsub ha, ha⟩⟩

def FirstMax (key : α → κ) (l : List α) (x : α) : Prop :=
  ∃ pre post, l = pre ++ x :: post ∧ (∀ y ∈ pre, key y < key x) ∧ ∀ y ∈ post, key y ≤ key x

theorem firstMax_iff_firstBest {x : α} :
    FirstMax key l x ↔ FirstBest (fun a b => key b ≤ key a) l x := by
  simp only [FirstMax, FirstBest, not_le]

theorem FirstMax.mem {x : α} (h : FirstMax key l x) : x ∈ l := (firstMax_iff_firstBest.mp h).mem

theorem FirstMax.le {x y : α} (h : FirstMax key l x) (hy : y ∈ l) : key y ≤ key x :=
  (firstMax_iff_firstBest.mp h).rel (fun a _ b _ => le_total (key b) (key a)) hy

theorem FirstMax.congr {κ' : Type*} [LinearOrder κ'] {key' : α → κ'} {x : α} (h : FirstMax key l x)
    (hlt : ∀ y ∈ l, key y < key x → key' y < key' x)
    (hle : ∀ y ∈ l, key y ≤ key x → key' y ≤ key' x) : FirstMax key' l x := by
  obtain ⟨pre, post, rfl, hpre, hpost⟩ := h
  exact ⟨pre, post, rfl, fun y hy => hlt y (by simp [hy]) (hpre y hy),
    fun y hy => hle y (by simp [hy]) (hpost y hy)⟩

theorem head?_sortDesc_eq_some {x : α} : (sortDesc key l).head? = some x ↔ FirstMax key l x := by
  rw [firstMax_iff_firstBest]
  exact head?_insertionSort_eq_some (fun a _ b _ => le_total (key b) (key a))
    fun _ _ _ _ _ _ hab hbc => hbc.trans hab

theorem not_pair_sublist_swap {a b : α} (hn : l.Nodup) (h : [a, b].Sublist l) :
    ¬ [b, a].Sublist l := by
  intro h'
  induction l with
  | nil => nomatch h
  | cons x l ih =>
    obtain ⟨hx, hn⟩ := List.nodup_cons.mp hn
    cases h with
    | cons _ h =>
      cases h' with
      | cons _ h' => exact ih hn h h'
      | cons_cons _ _ => exact hx (h.subset (List.mem_cons_of_mem _ List.mem_cons_self))
    | cons_cons _ _ =>
      cases h' with
      | cons _ h' => exact hx (h'.subset (List.mem_cons_of_mem _ List.mem_cons_self))
      | cons_cons _ h' => exact hx (h'.subset List.mem_cons_self)

theorem nodup_keys_of_sortDesc_const {s : List α} (hn : l.Nodup)
    (h : ∀ l', l'.Perm l → sortDesc key l' = s) : (l.map key).Nodup := by
  refine hn.map_on fun a ha b hb hab => ?_
  by_contra hne
  obtain ⟨rest, hrest⟩ : ∃ rest, (a :: b :: rest).Perm l := by
    classical
    have hb' : b ∈ l.erase a := (List.mem_erase_of_ne (Ne.symm hne)).mpr hb
    exact ⟨_, ((List.perm_cons_erase ha).trans ((List.perm_cons_erase hb').cons a)).symm⟩
  have hs : s.Nodup := by
    rw [← h l (List.Perm.refl l)]
    exact (perm_sortDesc key l).nodup_iff.mpr hn
  have hpair : ∀ x y : α, key x = key y → (x :: y :: rest).Perm l → [x, y].Sublist s := by
    intro x y hxy hp
    rw [← h _ hp]
    refine List.pair_sublist_insertionSort (le_of_eq hxy.symm) ?_
    exact ((List.nil_sublist rest).cons_cons y).cons_cons x
  exact not_pair_sublist_swap hs (hpair a b hab hrest)
    (hpair b a hab.symm ((List.Perm.swap a b rest).trans hrest))

end Sorting

section TopK

variable {key : α → κ} {k : Nat}

theorem mem_take_filter {p : α → Bool} {x : α} {l : List α} (h : x ∈ l.take k) (hp : p x = true) :
    x ∈ (l.filter p).take k := by
  induction l generalizing k with
  | nil => exact absurd (List.take_nil ▸ h) List.not_mem_nil
  | cons a l ih =>
    cases k with
    | zero => nomatch h
    | succ k =>
      rw [List.take_succ_cons, List.mem_cons] at h
      by_cases ha : p a = true
      · rw [List.filter_cons_of_pos ha, List.take_succ_cons, List.mem_cons]
        exact h.imp_right ih
      · rw [List.filter_cons_of_neg ha]
        rcases h with rfl | h
        · exact absurd hp ha
        · exact List.take_subset_take_left _ (Nat.le_succ k) (ih h)

theorem topK_subperm (key : α → κ) (k : Nat) (l : List α) : (topK key k l).Subperm l :=
  (List.take_sublist k _).subperm.trans (perm_sortDesc key l).subperm

theorem flatMap_topK_subperm (key : α → κ) (k : Nat) (parts : List (List α)) :
    (parts.flatMap (topK key k)).Subperm parts.flatten := by
  induction parts with
  | nil => exact List.Subperm.refl _
  | cons p parts ih => exact (topK_subperm key k p).append ih

theorem topK_flatMap_topK [DecidableEq α] {parts : List (List α)}
    (hk : (parts.flatten.map key).Nodup) :
    topK key k (parts.flatMap (topK key k)) = topK key k parts.flatten := by
  have hsub := flatMap_topK_subperm key k parts
  have hn : parts.flatten.Nodup := hk.of_map
  -- what is at the top of the whole is at the top of its own part
  have htop : ∀ x ∈ topK key k parts.flatten, x ∈ parts.flatMap (topK key k) := by
    intro x hx
    have hmem : x ∈ parts.flatten := (topK_subperm key k _).subset hx
    obtain ⟨p, hp, hxp⟩ := List.mem_flatten.mp hmem
    have hsorted := sortDesc_of_subset hk (fun y hy => List.mem_flatten.mpr ⟨p, hp, hy⟩)
      (List.nodup_flatten.mp hn |>.1 p hp)
    refine List.mem_flatMap.mpr ⟨p, hp, ?_⟩
    rw [topK, hsorted]
    exact mem_take_filter hx (decide_eq_true hxp)
  have hnodup : (parts.flatMap (topK key k)).Nodup := by
    obtain ⟨part, hperm, hpart⟩ := hsub
    exact hperm.nodup_iff.mp (hn.sublist hpart)
  have hself : ((sortDesc key parts.flatten).take k).filter (· ∈ parts.flatMap (topK key k)) =
      (sortDesc key parts.flatten).take k :=
    List.filter_eq_self.mpr fun x hx => decide_eq_true (htop x hx)
  rw [topK, sortDesc_of_subset hk hsub.subset hnodup]
  conv_lhs => rw [← List.take_append_drop k (sortDesc key parts.flatten)]
  rw [List.filter_append, hself]
  by_cases hlen : k ≤ (sortDesc key parts.flatten).length
  · exact List.take_left' (List.length_take_of_le hlen)
  · rw [List.drop_eq_nil_of_le (Nat.le_of_not_le hlen), List.filter_nil, List.append_nil]
    exact List.take_take.trans (by rw [Nat.min_self]; rfl)

end TopK

end Peat.Lib
