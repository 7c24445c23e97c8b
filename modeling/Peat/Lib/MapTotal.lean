/-
  THE TOTAL OF A QUANTITY over the entries of a map.

  Where a system keeps its running activities in a map, a conserved quantity
  is a total over the entries; a step changes the entry of one key.
-/
import Peat.Lib.HashMap
import Mathlib.Algebra.BigOperators.Group.List.Basic

namespace Peat.Lib

variable {κ ν M : Type*} [DecidableEq κ] [AddCommMonoid M]

def total (f : ν → M) (m : HashMap κ ν) : M := (m.entries.map fun e => f e.2).sum

omit [DecidableEq κ] in
theorem total_empty (f : ν → M) : total f (∅ : HashMap κ ν) = 0 := rfl

variable (f : ν → M)

theorem total_erase (m : HashMap κ ν) (k : κ) :
    total f m = (m.lookup k).elim 0 f + total f (m.erase k) := by
  obtain ⟨es, hes⟩ := m
  show (es.map fun e => f e.2).sum =
    (es.dlookup k).elim 0 f + ((es.kerase k).map fun e => f e.2).sum
  clear hes
  induction es with
  | nil => exact (zero_add _).symm
  | cons e es ih =>
    obtain ⟨k', v⟩ := e
    by_cases e : k = k'
    · subst e
      have herase : List.kerase k (⟨k, v⟩ :: es) = es := List.kerase_cons_eq rfl
      rw [herase, List.dlookup_cons_eq, List.map_cons, List.sum_cons, Option.elim_some]
    · have herase : List.kerase k (⟨k', v⟩ :: es) = ⟨k', v⟩ :: List.kerase k es :=
        List.kerase_cons_ne e
      have hlookup : List.dlookup k (⟨k', v⟩ :: es) = List.dlookup k es :=
        List.dlookup_cons_ne _ _ e
      rw [herase, hlookup, List.map_cons, List.sum_cons, ih, List.map_cons, List.sum_cons,
        add_left_comm]

theorem total_insert (m : HashMap κ ν) (k : κ) (v : ν) :
    total f (m.insert k v) = f v + total f (m.erase k) := by
  unfold total
  rw [AList.entries_insert, List.map_cons, List.sum_cons]
  rfl

theorem total_insert_new {m : HashMap κ ν} {k : κ} (h : m.lookup k = none) (v : ν) :
    total f (m.insert k v) = f v + total f m := by
  have hold := total_erase f m k
  rw [h] at hold
  rw [total_insert, hold, Option.elim_none, zero_add]

theorem total_replace {m : HashMap κ ν} {k : κ} {v : ν} (h : m.lookup k = some v) (w : ν) :
    f v + total f (m.insert k w) = f w + total f m := by
  have hold := total_erase f m k
  rw [h] at hold
  rw [total_insert, hold, Option.elim_some, add_left_comm]

end Peat.Lib
