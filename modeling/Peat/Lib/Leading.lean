/-
  KEYED REGISTERS that keep what arrived last, and the value that leads among all that
  arrived.

  Where the values of a key arrive with growing stamps, the last arrival leads; and
  a leader depends on the set of arrivals only, not on their order.
-/
import Mathlib.Data.Set.Insert

namespace Peat.Lib

variable {α κ τ : Type*} [Preorder τ] (key : α → κ) (stamp : α → τ)

def Leads (seen : Set α) (k : κ) (a : α) : Prop :=
  a ∈ seen ∧ key a = k ∧ ∀ b ∈ seen, key b = k → b ≠ a → stamp b < stamp a

def HoldsLeaders (seen : Set α) (held : κ → Option α) : Prop :=
  ∀ k a, held k = some a ↔ Leads key stamp seen k a

variable {key stamp} {seen : Set α}

theorem leads_unique {k : κ} {a b : α} (ha : Leads key stamp seen k a)
    (hb : Leads key stamp seen k b) : a = b := by
  by_contra hne
  have hab : stamp a < stamp b := hb.2.2 a ha.1 ha.2.1 hne
  have hba : stamp b < stamp a := ha.2.2 b hb.1 hb.2.1 (Ne.symm hne)
  exact lt_asymm hab hba

theorem leads_insert_of_ne {k : κ} {a b : α} (h : key a ≠ k) :
    Leads key stamp (insert a seen) k b ↔ Leads key stamp seen k b := by
  constructor
  · rintro ⟨hmem, hkey, hmax⟩
    refine ⟨Set.mem_of_mem_insert_of_ne hmem fun e => h (e ▸ hkey), hkey, fun c hc => ?_⟩
    exact hmax c (Set.mem_insert_of_mem a hc)
  · rintro ⟨hmem, hkey, hmax⟩
    refine ⟨Set.mem_insert_of_mem a hmem, hkey, fun c hc hck => ?_⟩
    exact hmax c (Set.mem_of_mem_insert_of_ne hc fun e => h (e ▸ hck)) hck

variable {held held' : κ → Option α}

theorem HoldsLeaders.arrival (h : HoldsLeaders key stamp seen held) {a : α}
    (hself : held' (key a) = some a) (hother : ∀ k, k ≠ key a → held' k = held k)
    (hnew : ∀ b ∈ seen, key b = key a → b ≠ a → stamp b < stamp a) :
    HoldsLeaders key stamp (insert a seen) held' := by
  have hleads : Leads key stamp (insert a seen) (key a) a := by
    refine ⟨Set.mem_insert a seen, rfl, fun b hb hkey hne => ?_⟩
    exact hnew b (Set.mem_of_mem_insert_of_ne hb hne) hkey hne
  intro k b
  by_cases hk : k = key a
  · rw [hk, hself]
    constructor
    · intro e
      exact Option.some.inj e ▸ hleads
    · intro hb
      rw [leads_unique hleads hb]
  · rw [hother k hk, h k b, leads_insert_of_ne (Ne.symm hk)]

theorem HoldsLeaders.eq (h : HoldsLeaders key stamp seen held)
    (h' : HoldsLeaders key stamp seen held') : held = held' := by
  funext k
  ext a
  rw [h k a, h' k a]

theorem holdsLeaders_empty : HoldsLeaders key stamp ∅ (fun _ => none) :=
  fun _ _ => iff_of_false nofun fun h => h.1

end Peat.Lib
