/-
  BUCKETS: a hash map of lists, in which a missing key and an empty list read the same.
-/
import Mathlib.Data.List.Count
import Peat.Lib.HashMap

namespace Peat.Lib

variable {κ β : Type*} [DecidableEq κ]

def bucket (m : HashMap κ (List β)) (k : κ) : List β := (m.lookup k).getD []

def pushTo (x : β) (m : HashMap κ (List β)) (k : κ) : HashMap κ (List β) :=
  m.insert k (bucket m k ++ [x])

def keepWhere (p : β → Bool) (m : HashMap κ (List β)) : HashMap κ (List β) :=
  retain (fun _ items => !items.isEmpty) (mapVal (fun _ items => items.filter p) m)

def NoEmpty (m : HashMap κ (List β)) : Prop := ∀ k, m.lookup k ≠ some []

variable {m : HashMap κ (List β)} {x : β} {k : κ}

theorem bucket_pushTo (x : β) (m : HashMap κ (List β)) (k k' : κ) :
    bucket (pushTo x m k) k' = bucket m k' ++ if k = k' then [x] else [] := by
  rw [bucket, pushTo, lookup_insert_eq_ite]
  by_cases h : k' = k
  · rw [if_pos h, if_pos h.symm, h]
    rfl
  · rw [if_neg h, if_neg (Ne.symm h), List.append_nil]
    rfl

theorem bucket_erase (m : HashMap κ (List β)) (k k' : κ) :
    bucket (m.erase k) k' = if k' = k then [] else bucket m k' := by
  unfold bucket
  by_cases h : k' = k
  · rw [if_pos h, h, AList.lookup_erase]
    rfl
  · rw [if_neg h, AList.lookup_erase_ne h]

theorem bucket_of_notMem (h : k ∉ m) : bucket m k = [] := by
  rw [bucket, AList.lookup_eq_none.mpr h]
  rfl

theorem bucket_foldl_pushTo (x : β) (m : HashMap κ (List β)) (ks : List κ) (k : κ) :
    bucket (ks.foldl (pushTo x) m) k = bucket m k ++ List.replicate (ks.count k) x := by
  induction ks generalizing m with
  | nil => exact (List.append_nil _).symm
  | cons first ks ih =>
    rw [List.foldl_cons, ih, bucket_pushTo, List.append_assoc]
    by_cases h : first = k
    · rw [if_pos h, h, List.count_cons_self, List.replicate_succ]
      rfl
    · rw [if_neg h, List.count_cons_of_ne h]
      rfl

theorem bucket_keepWhere (p : β → Bool) (m : HashMap κ (List β)) (k : κ) :
    bucket (keepWhere p m) k = (bucket m k).filter p := by
  rw [bucket, bucket, keepWhere, lookup_retain, lookup_mapVal]
  cases m.lookup k with
  | none => rfl
  | some items =>
    dsimp only [Option.map_some, Option.getD_some]
    rw [Option.filter_some]
    -- an emptied list is dropped, and reads as empty
    cases items.filter p with
    | nil => rfl
    | cons x rest => rfl

theorem noEmpty_empty : NoEmpty (∅ : HashMap κ (List β)) := by
  intro k h
  cases h

theorem NoEmpty.pushTo (h : NoEmpty m) (x : β) (k : κ) : NoEmpty (pushTo x m k) := by
  intro k' hk'
  rw [Lib.pushTo, lookup_insert_eq_ite] at hk'
  split at hk'
  · exact List.append_ne_nil_of_right_ne_nil _ (List.cons_ne_nil x []) (Option.some.inj hk')
  · exact h k' hk'

theorem NoEmpty.foldl_pushTo (h : NoEmpty m) (x : β) (ks : List κ) :
    NoEmpty (ks.foldl (Lib.pushTo x) m) := by
  induction ks generalizing m with
  | nil => exact h
  | cons first ks ih => exact ih (h.pushTo x first)

theorem noEmpty_keepWhere (p : β → Bool) (m : HashMap κ (List β)) : NoEmpty (keepWhere p m) := by
  intro k hk
  rw [keepWhere, lookup_retain, Option.filter_eq_some_iff] at hk
  cases hk.2

end Peat.Lib
