/-
  MAPS AS SORTED LISTS of entries, for trees whose nodes are maps.

  `SortedKeys` makes the list of entries canonical: two sorted lists with the same
  entries are equal (`SortedKeys.ext`).
-/
import Mathlib.Data.List.Perm.Basic
import Mathlib.Data.List.Pairwise
import Mathlib.Order.Lattice

namespace Peat.Lib

variable {κ ν : Type*} [LinearOrder κ]

def SortedKeys (l : List (κ × ν)) : Prop := l.Pairwise fun a b => a.1 < b.1

def put (k : κ) (v : ν) : List (κ × ν) → List (κ × ν)
  | [] => [(k, v)]
  | (k', v') :: l => if k < k' then (k, v) :: (k', v') :: l
    else if k' < k then (k', v') :: put k v l
    else (k, v) :: l

def putAll (l entries : List (κ × ν)) : List (κ × ν) := entries.foldl (fun l e => put e.1 e.2 l) l

variable {l entries : List (κ × ν)} {e : κ × ν}

theorem SortedKeys.nodup (h : SortedKeys l) : l.Nodup := by
  refine List.Pairwise.imp ?_ h
  rintro a b hlt rfl
  exact lt_irrefl _ hlt

theorem SortedKeys.ext {l' : List (κ × ν)} (h : SortedKeys l) (h' : SortedKeys l')
    (hmem : ∀ e, e ∈ l ↔ e ∈ l') : l = l' := by
  refine List.Perm.eq_of_pairwise ?_ h h' ((List.perm_ext_iff_of_nodup h.nodup h'.nodup).mpr hmem)
  intro a b _ _ hab hba
  exact absurd (lt_trans hab hba) (lt_irrefl _)

theorem mem_of_mem_put {k : κ} {v : ν} (h : e ∈ put k v l) : e = (k, v) ∨ e ∈ l := by
  induction l with
  | nil => exact Or.inl (List.mem_singleton.mp h)
  | cons e' l ih =>
    rw [put] at h
    split at h
    · exact List.mem_cons.mp h
    · split at h
      · rcases List.mem_cons.mp h with rfl | h'
        · exact Or.inr List.mem_cons_self
        · exact (ih h').imp_right (List.mem_cons_of_mem _)
      · exact (List.mem_cons.mp h).imp_right (List.mem_cons_of_mem _)

theorem mem_of_mem_putAll (h : e ∈ putAll l entries) : e ∈ entries ∨ e ∈ l := by
  induction entries generalizing l with
  | nil => exact Or.inr h
  | cons first entries ih =>
    rcases ih h with he | he
    · exact Or.inl (List.mem_cons_of_mem _ he)
    · rcases mem_of_mem_put he with rfl | he'
      · exact Or.inl List.mem_cons_self
      · exact Or.inr he'

theorem mem_put_iff (h : SortedKeys l) {k : κ} {v : ν} :
    e ∈ put k v l ↔ e = (k, v) ∨ e.1 ≠ k ∧ e ∈ l := by
  induction l with
  | nil => simp [put]
  | cons e' l ih =>
    obtain ⟨k', v'⟩ := e'
    obtain ⟨hhead, htail⟩ := List.pairwise_cons.mp h
    have hrest : ∀ b ∈ l, k' < b.1 := hhead
    rw [put]
    split
    · rename_i hlt
      -- all keys of the map are greater
      have hne : ∀ b ∈ ((k', v') :: l), b.1 ≠ k := by
        intro b hb
        rcases List.mem_cons.mp hb with rfl | hb'
        · exact ne_of_gt hlt
        · exact ne_of_gt (lt_trans hlt (hrest b hb'))
      rw [List.mem_cons]
      exact or_congr_right ⟨fun he => ⟨hne e he, he⟩, fun he => he.2⟩
    · rename_i hnlt
      split
      · rename_i hlt
        rw [List.mem_cons, ih htail, List.mem_cons]
        constructor
        · rintro (rfl | rfl | ⟨hne, he⟩)
          · exact Or.inr ⟨ne_of_lt hlt, Or.inl rfl⟩
          · exact Or.inl rfl
          · exact Or.inr ⟨hne, Or.inr he⟩
        · rintro (rfl | ⟨hne, rfl | he⟩)
          · exact Or.inr (Or.inl rfl)
          · exact Or.inl rfl
          · exact Or.inr (Or.inr ⟨hne, he⟩)
      · rename_i hnlt'
        obtain rfl : k' = k := le_antisymm (not_lt.mp hnlt) (not_lt.mp hnlt')
        rw [List.mem_cons, List.mem_cons]
        constructor
        · rintro (rfl | he)
          · exact Or.inl rfl
          · exact Or.inr ⟨ne_of_gt (hrest e he), Or.inr he⟩
        · rintro (rfl | ⟨hne, rfl | he⟩)
          · exact Or.inl rfl
          · exact absurd rfl hne
          · exact Or.inr he

theorem SortedKeys.put (h : SortedKeys l) (k : κ) (v : ν) : SortedKeys (put k v l) := by
  induction l with
  | nil => exact List.pairwise_singleton _ _
  | cons e' l ih =>
    obtain ⟨k', v'⟩ := e'
    obtain ⟨hhead, htail⟩ := List.pairwise_cons.mp h
    rw [Lib.put]
    split
    · rename_i hlt
      refine List.pairwise_cons.mpr ⟨fun b hb => ?_, h⟩
      rcases List.mem_cons.mp hb with rfl | hb'
      · exact hlt
      · exact lt_trans hlt (hhead b hb')
    · rename_i hnlt
      split
      · rename_i hlt
        refine List.pairwise_cons.mpr ⟨fun b hb => ?_, ih htail⟩
        rcases (mem_put_iff htail).mp hb with rfl | ⟨-, hb'⟩
        · exact hlt
        · exact hhead b hb'
      · rename_i hnlt'
        obtain rfl : k' = k := le_antisymm (not_lt.mp hnlt) (not_lt.mp hnlt')
        exact List.pairwise_cons.mpr ⟨hhead, htail⟩

theorem SortedKeys.putAll (h : SortedKeys l) (entries : List (κ × ν)) :
    SortedKeys (putAll l entries) := by
  induction entries generalizing l with
  | nil => exact h
  | cons e entries ih => exact ih (h.put e.1 e.2)

theorem mem_putAll_iff (h : SortedKeys l) (hentries : entries.Pairwise fun a b => a.1 ≠ b.1) :
    e ∈ putAll l entries ↔ e ∈ entries ∨ e ∈ l ∧ ∀ e' ∈ entries, e'.1 ≠ e.1 := by
  induction entries generalizing l with
  | nil => exact ⟨fun he => Or.inr ⟨he, nofun⟩, fun he => he.elim nofun fun he => he.1⟩
  | cons first entries ih =>
    obtain ⟨hfirst, hrest⟩ := List.pairwise_cons.mp hentries
    have hstep : e ∈ putAll l (first :: entries) ↔ e ∈ putAll (put first.1 first.2 l) entries := Iff.rfl
    rw [hstep, ih (h.put first.1 first.2) hrest, mem_put_iff h, List.mem_cons, List.forall_mem_cons]
    constructor
    · rintro (he | ⟨rfl | ⟨hne, he⟩, hothers⟩)
      · exact Or.inl (Or.inr he)
      · exact Or.inl (Or.inl rfl)
      · exact Or.inr ⟨he, hne.symm, hothers⟩
    · rintro ((rfl | he) | ⟨he, hne, hothers⟩)
      · exact Or.inr ⟨Or.inl rfl, fun e' he' => (hfirst e' he').symm⟩
      · exact Or.inl he
      · exact Or.inr ⟨Or.inr ⟨hne.symm, he⟩, hothers⟩

theorem filter_putAll (h : SortedKeys l) (hentries : SortedKeys entries) (p : κ → Bool)
    (hcovered : ∀ e ∈ l, p e.1 = true → ∃ e' ∈ entries, e'.1 = e.1) :
    (putAll l entries).filter (fun e => p e.1) = entries.filter fun e => p e.1 := by
  have hput : SortedKeys ((putAll l entries).filter fun e => p e.1) := (h.putAll entries).filter _
  refine hput.ext (hentries.filter _) fun e => ?_
  rw [List.mem_filter, List.mem_filter, mem_putAll_iff h (hentries.imp ne_of_lt)]
  refine and_congr_left fun hp => or_iff_left ?_
  rintro ⟨he, hothers⟩
  obtain ⟨e', he', hkey⟩ := hcovered e he hp
  exact hothers e' he' hkey

theorem putAll_nil (h : SortedKeys entries) : putAll [] entries = entries := by
  have hall := filter_putAll List.Pairwise.nil h (fun _ => true) nofun
  rwa [List.filter_true, List.filter_true] at hall

end Peat.Lib
