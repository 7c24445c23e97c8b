/-
  SEGMENTS WITH GAPS in a list, and the greedy search for them.

  A search that takes the first place of each segment leaves the longest rest for the
  others, so it finds all segments whenever they can be found (`searchAll_iff`).
-/
import Mathlib.Data.List.Infix

namespace Peat.Lib.Wildcard

variable {α : Type*} {seg first last : List α} {segs mids : List (List α)} {u v r r' gap : List α}

def Fills : List (List α) → List α → Prop
  | [], v => v = []
  | [seg], v => v = seg
  | seg :: segs, v => ∃ gap rest, v = seg ++ (gap ++ rest) ∧ Fills segs rest

def Finds : List (List α) → List α → Prop
  | [], _ => True
  | seg :: segs, v => ∃ gap r, v = gap ++ (seg ++ r) ∧ Finds segs r

theorem Finds.of_suffix (h : Finds segs r) (hr : r <:+ v) : Finds segs v := by
  cases segs with
  | nil => trivial
  | cons seg segs =>
    obtain ⟨gap, rest, rfl, hrest⟩ := h
    obtain ⟨before, rfl⟩ := hr
    exact ⟨before ++ gap, rest, (List.append_assoc ..).symm, hrest⟩

theorem Finds.append (h : Finds segs v) (t : List α) : Finds segs (v ++ t) := by
  induction segs generalizing v with
  | nil => trivial
  | cons seg segs ih =>
    obtain ⟨gap, r, rfl, hr⟩ := h
    exact ⟨gap, r ++ t, by simp, ih hr⟩

theorem fills_concat_iff :
    Fills (first :: (mids ++ [last])) v ↔ ∃ u r, v = u ++ last ∧ u = first ++ r ∧ Finds mids r := by
  induction mids generalizing first v with
  | nil =>
    constructor
    · rintro ⟨gap, rest, rfl, rfl⟩
      exact ⟨first ++ gap, gap, (List.append_assoc ..).symm, rfl, trivial⟩
    · rintro ⟨_, r, rfl, rfl, -⟩
      exact ⟨r, last, List.append_assoc .., rfl⟩
  | cons mid mids ih =>
    constructor
    · rintro ⟨gap, rest, rfl, hrest⟩
      obtain ⟨_, r, rfl, rfl, hr⟩ := ih.mp hrest
      exact ⟨_, gap ++ (mid ++ r), by simp, rfl, gap, r, rfl, hr⟩
    · rintro ⟨_, _, rfl, rfl, gap, r, rfl, hr⟩
      exact ⟨gap, (mid ++ r) ++ last, by simp, ih.mpr ⟨_, r, rfl, rfl, hr⟩⟩

section Search

variable [BEq α]

def findAfter (seg : List α) : List α → Option (List α)
  | [] => if seg.isPrefixOf [] then some [] else none
  | c :: v => if seg.isPrefixOf (c :: v) then some ((c :: v).drop seg.length) else findAfter seg v

def searchAll : List (List α) → List α → Bool
  | [], _ => true
  | seg :: segs, v =>
    match findAfter seg v with
    | none => false
    | some r => searchAll segs r

theorem findAfter_nil (v : List α) : findAfter [] v = some v := by
  cases v <;> rfl

variable [LawfulBEq α]

theorem drop_of_isPrefixOf (h : seg.isPrefixOf v = true) : v = seg ++ v.drop seg.length :=
  (List.prefix_iff_eq_append.mp (List.isPrefixOf_iff_prefix.mp h)).symm

theorem findAfter_place (h : findAfter seg v = some r) : ∃ gap, v = gap ++ (seg ++ r) := by
  induction v with
  | nil =>
    rw [findAfter] at h
    split at h
    · cases h
      exact ⟨[], by simpa using ‹seg.isPrefixOf [] = true›⟩
    · cases h
  | cons c v ih =>
    rw [findAfter] at h
    split at h
    · cases h
      exact ⟨[], drop_of_isPrefixOf ‹_›⟩
    · obtain ⟨gap, rfl⟩ := ih h
      exact ⟨c :: gap, rfl⟩

theorem exists_findAfter (h : v = gap ++ (seg ++ r)) : ∃ r', findAfter seg v = some r' ∧ r <:+ r' := by
  induction gap generalizing v with
  | nil =>
    rw [List.nil_append] at h
    have hpre : seg.isPrefixOf v = true := List.isPrefixOf_iff_prefix.mpr ⟨r, h.symm⟩
    refine ⟨r, ?_, List.suffix_rfl⟩
    cases v with
    | nil =>
      have hr : r = [] := (List.append_eq_nil_iff.mp h.symm).2
      rw [findAfter, if_pos hpre, hr]
    | cons c v =>
      rw [findAfter, if_pos hpre, h]
      exact congrArg some List.drop_left
  | cons c gap ih =>
    subst h
    rw [List.cons_append, findAfter]
    split
    · -- an earlier place
      refine ⟨_, rfl, ?_⟩
      rename_i hpre
      obtain ⟨rest, hrest⟩ := List.isPrefixOf_iff_prefix.mp hpre
      rw [← hrest, List.drop_left]
      have hr : r <:+ seg ++ rest := hrest ▸ ⟨c :: (gap ++ seg), by simp⟩
      have hlen := congrArg List.length hrest
      simp only [List.length_append, List.length_cons] at hlen
      exact List.suffix_of_suffix_length_le hr (List.suffix_append ..) (by omega)
    · exact ih rfl

theorem searchAll_iff : searchAll segs v = true ↔ Finds segs v := by
  induction segs generalizing v with
  | nil => exact iff_of_true rfl trivial
  | cons seg segs ih =>
    rw [searchAll]
    constructor
    · intro h
      split at h
      · cases h
      · obtain ⟨gap, rfl⟩ := findAfter_place ‹_›
        exact ⟨gap, _, rfl, ih.mp h⟩
    · rintro ⟨gap, r, hv, hr⟩
      obtain ⟨r', hr', hsuf⟩ := exists_findAfter hv
      rw [hr']
      exact ih.mpr (hr.of_suffix hsuf)

end Search

end Peat.Lib.Wildcard
