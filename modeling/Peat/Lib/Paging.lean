/-
  READING A CHANGING COLLECTION PAGE BY PAGE.

  Each page holds the items with the least keys past the last key read. An item that is
  there at every request is read before the pages end (`Run.complete`); a page that is not
  the last is full, and behind it less remains (`length_page_of_next`,
  `length_remaining_lt`).
-/
import Mathlib.Data.List.Sort

namespace Peat.Lib.Paging

variable {α κ : Type*} [LinearOrder κ]

def remaining (key : α → κ) (after : Option κ) (items : List α) : List α :=
  let sorted := items.insertionSort fun a b => key a ≤ key b
  match after with
  | none => sorted
  | some k => sorted.filter fun x => k < key x

def page (key : α → κ) (limit : Nat) (after : Option κ) (items : List α) : List α :=
  (remaining key after items).take limit

def next (key : α → κ) (limit : Nat) (after : Option κ) (items : List α) : Option κ :=
  if limit < (remaining key after items).length then (page key limit after items).getLast?.map key
  else none

def Past : Option κ → κ → Prop
  | none, _ => True
  | some k, k' => k < k'

variable {key : α → κ} {limit : Nat} {after last : Option κ} {k k' : κ} {items found : List α}
  {stores : List (List α)} {x : α}

theorem Past.trans (h : Past after k) (hk : k < k') : Past after k' := by
  cases after with
  | none => trivial
  | some a => exact lt_trans h hk

theorem mem_remaining : x ∈ remaining key after items ↔ x ∈ items ∧ Past after (key x) := by
  cases after <;> simp [remaining, Past]

theorem pairwise_remaining (h : (items.map key).Nodup) :
    (remaining key after items).Pairwise fun a b => key a < key b := by
  have hsorted : (items.insertionSort fun a b => key a ≤ key b).Pairwise fun a b => key a < key b := by
    have hle := List.pairwise_insertionSort (fun a b => key a ≤ key b) items
    have hne : ((items.insertionSort fun a b => key a ≤ key b).map key).Nodup :=
      ((List.perm_insertionSort _ items).map key).nodup_iff.mpr h
    exact hle.imp₂ (fun _ _ => lt_of_le_of_ne) (List.pairwise_map.mp hne)
  cases after with
  | none => exact hsorted
  | some k => exact hsorted.filter _

theorem mem_remaining_of_mem_page (h : x ∈ page key limit after items) :
    x ∈ remaining key after items :=
  List.mem_of_mem_take h

theorem mem_page_of_next_none (hnext : next key limit after items = none) (hpos : 0 < limit)
    (hx : x ∈ items) (hpast : Past after (key x)) : x ∈ page key limit after items := by
  unfold next at hnext
  split at hnext
  · rename_i hlt
    rw [Option.map_eq_none_iff, List.getLast?_eq_none_iff, page, List.take_eq_nil_iff] at hnext
    rcases hnext with h | h
    · omega
    · rw [h] at hlt
      cases hlt
  · rw [page, List.take_of_length_le (by omega)]
    exact mem_remaining.mpr ⟨hx, hpast⟩

theorem next_spec (h : (items.map key).Nodup) (hnext : next key limit after items = some k) :
    Past after k ∧ (∀ x ∈ page key limit after items, key x ≤ k) ∧
      ∀ x ∈ items, Past after (key x) → key x ≤ k → x ∈ page key limit after items := by
  have hsorted := @pairwise_remaining _ _ _ _ after _ h
  rw [← List.take_append_drop limit (remaining key after items), List.pairwise_append] at hsorted
  unfold next at hnext
  split at hnext
  · obtain ⟨d, hd, rfl⟩ := Option.map_eq_some_iff.mp hnext
    obtain ⟨before, hpage⟩ := List.getLast?_eq_some_iff.mp hd
    have hmem : d ∈ page key limit after items := List.mem_of_getLast? hd
    refine ⟨(mem_remaining.mp (mem_remaining_of_mem_page hmem)).2, fun x hx => ?_,
      fun x hx hpast hle => ?_⟩
    · have hin : (before ++ [d]).Pairwise fun a b => key a < key b := hpage ▸ hsorted.1
      rw [hpage, List.mem_append, List.mem_singleton] at hx
      rcases hx with hx | rfl
      · exact le_of_lt ((List.pairwise_append.mp hin).2.2 x hx d (List.mem_singleton_self _))
      · exact le_rfl
    · -- what the page leaves out comes after its last item
      have hrem := mem_remaining.mpr ⟨hx, hpast⟩
      rw [← List.take_append_drop limit (remaining key after items)] at hrem
      rcases List.mem_append.mp hrem with hin | hout
      · exact hin
      · exact absurd (hsorted.2.2 d hmem x hout) (not_lt.mpr hle)
  · cases hnext

theorem exists_of_next (hnext : next key limit after items = some k) : ∃ x ∈ items, key x = k := by
  unfold next at hnext
  split at hnext
  · obtain ⟨d, hd, rfl⟩ := Option.map_eq_some_iff.mp hnext
    exact ⟨d, (mem_remaining.mp (mem_remaining_of_mem_page (List.mem_of_getLast? hd))).1, rfl⟩
  · cases hnext

theorem length_page_of_next (hnext : next key limit after items = some k) :
    (page key limit after items).length = limit := by
  unfold next at hnext
  split at hnext
  · rename_i hlt
    exact List.length_take_of_le hlt.le
  · cases hnext

theorem length_remaining_lt (h : (items.map key).Nodup) (hnext : next key limit after items = some k) :
    (remaining key (some k) items).length < (remaining key after items).length := by
  have hpast := (next_spec h hnext).1
  obtain ⟨x, hx, rfl⟩ := exists_of_next hnext
  have hfilter : remaining key (some (key x)) items =
      (remaining key after items).filter fun y => key x < key y := by
    cases after with
    | none => rfl
    | some a =>
      show List.filter _ _ = List.filter _ (List.filter _ _)
      rw [List.filter_filter]
      refine List.filter_congr fun y _ => ?_
      by_cases hy : key x < key y
      · simp [hy, lt_trans hpast hy]
      · simp [hy]
  rw [hfilter, List.length_filter_lt_length_iff_exists]
  exact ⟨x, mem_remaining.mpr ⟨hx, hpast⟩, by simp⟩

inductive Run (key : α → κ) (limit : Nat) :
    Option κ → List (List α) → List α → Option κ → Prop where
  | one (after : Option κ) (items : List α) :
      Run key limit after [items] (page key limit after items) (next key limit after items)
  | more {after last : Option κ} {items found : List α} {stores : List (List α)} {k : κ}
      (hnext : next key limit after items = some k) (h : Run key limit (some k) stores found last) :
      Run key limit after (items :: stores) (page key limit after items ++ found) last

theorem Run.past (h : Run key limit after stores found last)
    (hkeys : ∀ items ∈ stores, (items.map key).Nodup) : ∀ x ∈ found, Past after (key x) := by
  induction h with
  | one after items => exact fun x hx => (mem_remaining.mp (mem_remaining_of_mem_page hx)).2
  | more hnext _ ih =>
    obtain ⟨hitems, hstores⟩ := List.forall_mem_cons.mp hkeys
    intro x hx
    rcases List.mem_append.mp hx with hx | hx
    · exact (mem_remaining.mp (mem_remaining_of_mem_page hx)).2
    · exact (next_spec hitems hnext).1.trans (ih hstores x hx)

theorem Run.pairwise (h : Run key limit after stores found last)
    (hkeys : ∀ items ∈ stores, (items.map key).Nodup) :
    found.Pairwise fun a b => key a < key b := by
  have hpage : ∀ {after items}, (items.map key).Nodup →
      (page key limit after items).Pairwise fun a b => key a < key b :=
    fun hitems => (pairwise_remaining hitems).sublist (List.take_sublist ..)
  induction h with
  | one after items => exact hpage (hkeys items (List.mem_singleton_self _))
  | more hnext hrun ih =>
    obtain ⟨hitems, hstores⟩ := List.forall_mem_cons.mp hkeys
    refine List.pairwise_append.mpr ⟨hpage hitems, ih hstores, fun x hx y hy => ?_⟩
    exact lt_of_le_of_lt ((next_spec hitems hnext).2.1 x hx) (hrun.past hstores y hy)

theorem Run.length (h : Run key limit after stores found (some k)) :
    found.length = limit * stores.length := by
  generalize hlast : some k = last at h
  induction h with
  | one after items => rw [length_page_of_next hlast.symm, List.length_singleton, Nat.mul_one]
  | more hnext _ ih =>
    rw [List.length_append, length_page_of_next hnext, ih hlast, List.length_cons, Nat.mul_succ,
      Nat.add_comm]

theorem Run.complete {P : α → Prop} (h : Run key limit after stores found none) (hpos : 0 < limit)
    (hkeys : ∀ items ∈ stores, (items.map key).Nodup)
    (hx : ∀ items ∈ stores, ∃ x ∈ items, key x = k ∧ P x) (hpast : Past after k) :
    ∃ x ∈ found, key x = k ∧ P x := by
  generalize hlast : (none : Option κ) = last at h
  induction h with
  | one after items =>
    obtain ⟨x, hmem, rfl, hP⟩ := hx items (List.mem_singleton_self _)
    exact ⟨x, mem_page_of_next_none hlast.symm hpos hmem hpast, rfl, hP⟩
  | @more after _ items found stores stop hnext _ ih =>
    obtain ⟨hitems, hstores⟩ := List.forall_mem_cons.mp hkeys
    obtain ⟨hfirst, hrest⟩ := List.forall_mem_cons.mp hx
    rcases le_or_gt k stop with hle | hlt
    · obtain ⟨x, hmem, rfl, hP⟩ := hfirst
      have hpage := (next_spec hitems hnext).2.2 x hmem hpast hle
      exact ⟨x, List.mem_append_left _ hpage, rfl, hP⟩
    · obtain ⟨x, hmem, hkey, hP⟩ := ih hstores hrest hlt hlast
      exact ⟨x, List.mem_append_right _ hmem, hkey, hP⟩

end Peat.Lib.Paging
