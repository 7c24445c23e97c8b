/-
  LIKE PATTERNS (`match_like_pattern` in sync/automerge.rs).

  Every position lies between two characters, so the texts are lists of characters; the
  loop carries what follows the position.
-/
import Peat.Lib.Wildcard

namespace Peat.Sync

open Peat.Lib.Wildcard

/-! ## 1. The loop -/

/-- The loop over the segments from index `i` on; `rest` is `value[pos..]`. -/
def likeLoop (value : List Char) (startsWithWildcard endsWithWildcard : Bool) (count : Nat) :
    Nat → List Char → List (List Char) → Bool
  | _, _, [] => true
  | i, rest, segment :: segments =>
    if segment.isEmpty then
      likeLoop value startsWithWildcard endsWithWildcard count (i + 1) rest segments
    else if i = 0 ∧ startsWithWildcard = false then
      if segment.isPrefixOf value then
        likeLoop value startsWithWildcard endsWithWildcard count (i + 1)
          (value.drop segment.length) segments
      else false
    else if i = count - 1 ∧ endsWithWildcard = false then
      if segment.isSuffixOf value then
        likeLoop value startsWithWildcard endsWithWildcard count (i + 1) rest segments
      else false
    else
      match findAfter segment rest with
      | some rest' => likeLoop value startsWithWildcard endsWithWildcard count (i + 1) rest' segments
      | none => false

def matchLikePattern (value pattern : List Char) : Bool :=
  let segments := pattern.splitOn '%'
  if segments.isEmpty then true
  else if segments.all List.isEmpty then true
  else likeLoop value (['%'].isPrefixOf pattern) (['%'].isSuffixOf pattern) segments.length 0 value
    segments

/-- SQL's `LIKE` with `%` only: the segments in order, with any text between them. -/
def Like (value pattern : List Char) : Prop := Fills (pattern.splitOn '%') value

variable {value pattern head last first rest u : List Char} {mids : List (List Char)} {s e : Bool}
  {count i : Nat}

theorem likeLoop_concat (hi : 0 < i) (hcount : count = i + mids.length + 1)
    (hend : last ≠ [] → e = false) : likeLoop value s e count i rest (mids ++ [last]) =
      (searchAll mids rest && last.isSuffixOf value) := by
  induction mids generalizing i rest with
  | nil =>
    rw [List.nil_append, likeLoop, searchAll, Bool.true_and]
    cases last with
    | nil => rfl
    | cons c last =>
      rw [if_neg (by simp), if_neg (by omega), if_pos ⟨by simp at hcount; omega, hend (by simp)⟩]
      cases List.isSuffixOf (c :: last) value <;> rfl
  | cons mid mids ih =>
    rw [List.length_cons] at hcount
    rw [List.cons_append, likeLoop, searchAll]
    cases mid with
    | nil =>
      rw [if_pos List.isEmpty_nil, findAfter_nil]
      exact ih (Nat.succ_pos i) (by omega)
    | cons c mid =>
      rw [if_neg (by simp), if_neg (by omega), if_neg (by omega)]
      cases findAfter (c :: mid) rest with
      | none => rfl
      | some rest' => exact ih (Nat.succ_pos i) (by omega)

theorem searchAll_empty (h : ∀ seg ∈ mids, seg = []) (v : List Char) : searchAll mids v = true := by
  induction mids with
  | nil => rfl
  | cons seg mids ih =>
    obtain ⟨rfl, hmids⟩ := List.forall_mem_cons.mp h
    rw [searchAll, findAfter_nil]
    exact ih hmids

theorem first_of_splitOn (h : pattern.splitOn '%' = first :: mids) : first <+: pattern ∧ '%' ∉ first := by
  by_cases hp : '%' ∈ pattern
  · obtain ⟨before, after, rfl, hbefore⟩ := List.eq_append_cons_of_mem hp
    rw [List.splitOn_append_cons_self_of_not_mem hbefore] at h
    cases h
    exact ⟨List.prefix_append .., hbefore⟩
  · rw [List.splitOn_eq_singleton hp] at h
    cases h
    exact ⟨List.prefix_rfl, hp⟩

theorem startsWithWildcard_eq_false (h : pattern.splitOn '%' = first :: mids) (hne : first ≠ []) :
    ['%'].isPrefixOf pattern = false := by
  obtain ⟨⟨after, rfl⟩, hnot⟩ := first_of_splitOn h
  cases first with
  | nil => exact absurd rfl hne
  | cons c first =>
    have hc : '%' ≠ c := fun e => hnot (e ▸ List.mem_cons_self)
    simp [List.isPrefixOf, hc]

theorem endsWithWildcard_eq_false (h : '%' ∉ last) (hne : last ≠ []) :
    ['%'].isSuffixOf (head ++ '%' :: last) = false := by
  rw [Bool.eq_false_iff, Ne, List.isSuffixOf_iff_suffix]
  intro hsuf
  have hlast : last <:+ head ++ '%' :: last := ⟨head ++ ['%'], by simp⟩
  have hin := List.suffix_of_suffix_length_le hsuf hlast (List.length_pos_of_ne_nil hne)
  exact h (hin.subset (List.mem_singleton_self _))

theorem matchLikePattern_single (h : '%' ∉ pattern) :
    matchLikePattern value pattern = pattern.isPrefixOf value := by
  rw [matchLikePattern, List.splitOn_eq_singleton h]
  cases pattern with
  | nil => rfl
  | cons c pattern =>
    have hstart := startsWithWildcard_eq_false (List.splitOn_eq_singleton h) (List.cons_ne_nil c pattern)
    rw [hstart, Bool.eq_iff_iff]
    simp [likeLoop]

theorem matchLikePattern_concat (hlast : '%' ∉ last) (hhead : head.splitOn '%' = first :: mids) :
    matchLikePattern value (head ++ '%' :: last) =
      (first.isPrefixOf value &&
        (searchAll mids (value.drop first.length) && last.isSuffixOf value)) := by
  have hsplit : (head ++ '%' :: last).splitOn '%' = first :: (mids ++ [last]) := by
    rw [List.splitOn_append_cons_self, List.splitOn_eq_singleton hlast, hhead, List.cons_append]
  rw [matchLikePattern, hsplit, if_neg (by simp)]
  split
  · -- all segments are empty
    rename_i hall
    obtain ⟨rfl, hmids, rfl⟩ : first = [] ∧ (∀ seg ∈ mids, seg = []) ∧ last = [] := by
      simpa using hall
    rw [searchAll_empty hmids]
    rfl
  · have hend : last ≠ [] → ['%'].isSuffixOf (head ++ '%' :: last) = false :=
      endsWithWildcard_eq_false hlast
    have hcount : (first :: (mids ++ [last])).length = 0 + 1 + mids.length + 1 := by simp; omega
    rw [likeLoop]
    by_cases hfirst : first = []
    · subst hfirst
      rw [if_pos List.isEmpty_nil, likeLoop_concat Nat.one_pos hcount hend]
      rfl
    · rw [if_neg (by simpa using hfirst),
        if_pos ⟨rfl, startsWithWildcard_eq_false hsplit hfirst⟩, likeLoop_concat Nat.one_pos hcount hend]
      cases first.isPrefixOf value <;> rfl

/-! ## 2. What a match means -/

theorem like_single (h : '%' ∉ pattern) : Like value pattern ↔ value = pattern := by
  rw [Like, List.splitOn_eq_singleton h, Fills]

theorem like_open_iff (hhead : head.splitOn '%' = first :: mids) :
    Like value (head ++ ['%']) ↔ first <+: value ∧ Finds mids (value.drop first.length) := by
  rw [Like, List.splitOn_append_cons_self, List.splitOn_nil, hhead, List.cons_append, fills_concat_iff]
  constructor
  · rintro ⟨u, r, rfl, rfl, hr⟩
    rw [List.append_nil, List.drop_left]
    exact ⟨List.prefix_append .., hr⟩
  · rintro ⟨⟨r, rfl⟩, hr⟩
    rw [List.drop_left] at hr
    exact ⟨_, r, (List.append_nil _).symm, rfl, hr⟩

theorem Like.append (h : Like value (head ++ ['%'])) (t : List Char) :
    Like (value ++ t) (head ++ ['%']) := by
  obtain ⟨first, mids, hhead⟩ := List.exists_cons_of_ne_nil (List.splitOn_ne_nil '%' head)
  obtain ⟨⟨r, rfl⟩, hr⟩ := (like_open_iff hhead).mp h
  rw [List.drop_left] at hr
  refine (like_open_iff hhead).mpr ⟨⟨r ++ t, (List.append_assoc ..).symm⟩, ?_⟩
  rw [List.append_assoc, List.drop_left]
  exact hr.append t

theorem like_concat_iff (hlast : '%' ∉ last) :
    Like value (head ++ '%' :: last) ↔ ∃ u, value = u ++ last ∧ Like u (head ++ ['%']) := by
  obtain ⟨first, mids, hhead⟩ := List.exists_cons_of_ne_nil (List.splitOn_ne_nil '%' head)
  simp only [Like, List.splitOn_append_cons_self, List.splitOn_eq_singleton hlast, List.splitOn_nil,
    hhead, List.cons_append, fills_concat_iff, List.append_nil]
  constructor
  · rintro ⟨u, r, hv, hu, hr⟩
    exact ⟨u, hv, u, r, rfl, hu, hr⟩
  · rintro ⟨u, hv, _, r, rfl, hu, hr⟩
    exact ⟨u, r, hv, hu, hr⟩

theorem matches_concat_iff (hlast : '%' ∉ last) :
    matchLikePattern value (head ++ '%' :: last) = true ↔
      Like value (head ++ ['%']) ∧ last <:+ value := by
  obtain ⟨first, mids, hhead⟩ := List.exists_cons_of_ne_nil (List.splitOn_ne_nil '%' head)
  rw [matchLikePattern_concat hlast hhead, like_open_iff hhead, Bool.and_eq_true, Bool.and_eq_true,
    List.isPrefixOf_iff_prefix, searchAll_iff, List.isSuffixOf_iff_suffix, and_assoc]

/-- **Where the code and the meaning agree**: a pattern without `%` is no proper prefix of the value, and
    what stands before the last segment at the end of the value matches the rest of the pattern if the whole
    value does. -/
theorem matchLikePattern_iff_like_iff (value pattern : List Char) :
    (matchLikePattern value pattern = true ↔ Like value pattern) ↔
      ('%' ∉ pattern → pattern <+: value → value = pattern) ∧
        ∀ head last u, pattern = head ++ '%' :: last → '%' ∉ last → value = u ++ last →
          Like value (head ++ ['%']) → Like u (head ++ ['%']) := by
  constructor
  · intro h
    constructor
    · intro hp hpre
      rw [matchLikePattern_single hp, like_single hp, List.isPrefixOf_iff_prefix] at h
      exact h.mp hpre
    · rintro head last u rfl hlast rfl hlike
      rw [matches_concat_iff hlast, like_concat_iff hlast] at h
      obtain ⟨u', hu', hlike'⟩ := h.mp ⟨hlike, List.suffix_append ..⟩
      rw [List.append_cancel_right hu']
      exact hlike'
  · rintro ⟨hsingle, hconcat⟩
    by_cases hp : '%' ∈ pattern
    · obtain ⟨after, before, hsplit, hlast⟩ := List.eq_append_cons_of_mem (List.mem_reverse.mpr hp)
      have hpattern : pattern = before.reverse ++ '%' :: after.reverse := by
        rw [← List.reverse_reverse pattern, hsplit]
        simp
      have hafter : '%' ∉ after.reverse := by simpa using hlast
      subst hpattern
      rw [matches_concat_iff hafter, like_concat_iff hafter]
      constructor
      · rintro ⟨hlike, u, hu⟩
        exact ⟨u, hu.symm, hconcat _ _ u rfl hafter hu.symm hlike⟩
      · rintro ⟨u, rfl, hlike⟩
        exact ⟨hlike.append _, List.suffix_append ..⟩
    · rw [matchLikePattern_single hp, like_single hp, List.isPrefixOf_iff_prefix]
      exact ⟨hsingle hp, fun h => h ▸ List.prefix_rfl⟩

/-- The last segment may overlap an earlier one. -/
theorem overlap_matches : matchLikePattern "aba".toList "ab%ba".toList = true ∧
    ¬ Like "aba".toList "ab%ba".toList := by
  refine ⟨by decide, fun h => ?_⟩
  have hlast : '%' ∉ ['b', 'a'] := by decide
  have hhead : ['a', 'b'].splitOn '%' = [['a', 'b']] := rfl
  have hsplit : Like ['a', 'b', 'a'] (['a', 'b'] ++ '%' :: ['b', 'a']) := h
  obtain ⟨u, hu, hlike⟩ := (like_concat_iff hlast).mp hsplit
  obtain rfl : ['a'] = u := List.append_cancel_right hu
  exact absurd ((like_open_iff hhead).mp hlike).1 (by decide)

end Peat.Sync
