/-
  HASH MAPS as association lists with distinct keys (`AList`).

  The entries stand in SOME order, on which nothing relies: a loop over them is stated
  through `lookup` (`lookup_foldl_entries`).
-/
import Mathlib.Data.List.AList

namespace Peat.Lib

abbrev HashMap (κ ν : Type*) := AList (fun _ : κ => ν)

variable {κ ν μ β : Type*} [DecidableEq κ]

theorem lookup_cons_entries {k k' : κ} {v : μ} {es : List (Σ _ : κ, μ)}
    (h : List.NodupKeys (⟨k', v⟩ :: es)) :
    (⟨⟨k', v⟩ :: es, h⟩ : HashMap κ μ).lookup k =
      if k' = k then some v else (⟨es, (List.nodupKeys_cons.mp h).2⟩ : HashMap κ μ).lookup k := by
  by_cases e : k' = k
  · subst e
    simp [AList.lookup]
  · rw [if_neg e]
    exact List.dlookup_cons_ne _ _ (Ne.symm e)

theorem lookup_insert_eq_ite (m : HashMap κ ν) (k k' : κ) (v : ν) :
    (m.insert k v).lookup k' = if k' = k then some v else m.lookup k' := by
  by_cases e : k' = k
  · rw [if_pos e, e, AList.lookup_insert]
  · rw [if_neg e, AList.lookup_insert_ne e]

theorem apply_eq_ite_own (f : κ → μ) (own k : κ) : f k = if k = own then f own else f k := by
  split
  · rename_i e
    rw [e]
  · rfl

theorem forall_lookup_insert {P : κ → ν → Prop} {m : HashMap κ ν} {k : κ} {v : ν} (hnew : P k v)
    (hold : ∀ k' w, m.lookup k' = some w → P k' w) :
    ∀ k' w, (m.insert k v).lookup k' = some w → P k' w := by
  intro k' w h
  rw [lookup_insert_eq_ite] at h
  split at h
  · rename_i e
    cases h
    exact e ▸ hnew
  · exact hold k' w h

theorem lookup_insert_same_iff (m : HashMap κ ν) (k : κ) (v : ν) :
    (∀ k', (m.insert k v).lookup k' = m.lookup k') ↔ m.lookup k = some v := by
  constructor
  · intro h
    rw [← h k, AList.lookup_insert]
  · intro h k'
    rw [lookup_insert_eq_ite]
    split
    · rename_i e
      rw [e, h]
    · rfl

theorem lookup_foldl_entries (body : HashMap κ ν → κ → μ → HashMap κ ν)
    (f : κ → μ → Option ν → Option ν)
    (hself : ∀ m k v, (body m k v).lookup k = f k v (m.lookup k))
    (hother : ∀ m k v k', k' ≠ k → (body m k v).lookup k' = m.lookup k')
    (o : HashMap κ μ) (m : HashMap κ ν) (k : κ) :
    (o.foldl body m).lookup k =
      match o.lookup k with
      | none => m.lookup k
      | some v => f k v (m.lookup k) := by
  obtain ⟨es, hes⟩ := o
  induction es generalizing m with
  | nil => rfl
  | cons e es ih =>
    obtain ⟨k', v⟩ := e
    have hrest := (List.nodupKeys_cons.mp hes).2
    have hfold : (⟨⟨k', v⟩ :: es, hes⟩ : HashMap κ μ).foldl body m =
        (⟨es, hrest⟩ : HashMap κ μ).foldl body (body m k' v) := rfl
    rw [hfold, ih _ hrest, lookup_cons_entries hes]
    by_cases e : k' = k
    · -- the key is listed here and nowhere later
      subst e
      have hno : (⟨es, hrest⟩ : HashMap κ μ).lookup k' = none :=
        List.dlookup_eq_none.mpr (List.nodupKeys_cons.mp hes).1
      rw [hno, if_pos rfl, hself]
    · rw [if_neg e, hother m k' v k (Ne.symm e)]

/-! ## Rewriting and filtering all entries -/

omit [DecidableEq κ] in
theorem keys_map_entries (f : κ → ν → μ) (es : List (Σ _ : κ, ν)) :
    (es.map fun e => (⟨e.1, f e.1 e.2⟩ : Σ _ : κ, μ)).keys = es.keys := by
  simp [List.keys, Function.comp_def]

def mapVal (f : κ → ν → μ) (m : HashMap κ ν) : HashMap κ μ where
  entries := m.entries.map fun e => ⟨e.1, f e.1 e.2⟩
  nodupKeys := by
    show List.Nodup (List.keys _)
    rw [keys_map_entries]
    exact m.nodupKeys

def retain (p : κ → ν → Bool) (m : HashMap κ ν) : HashMap κ ν where
  entries := m.entries.filter fun e => p e.1 e.2
  nodupKeys := List.NodupKeys.sublist List.filter_sublist m.nodupKeys

theorem lookup_eq_some_iff {m : HashMap κ ν} {k : κ} {v : ν} :
    m.lookup k = some v ↔ (⟨k, v⟩ : Σ _ : κ, ν) ∈ m.entries :=
  AList.mem_lookup_iff

theorem lookup_mapVal (f : κ → ν → μ) (m : HashMap κ ν) (k : κ) :
    (mapVal f m).lookup k = (m.lookup k).map (f k) := by
  ext w
  rw [Option.map_eq_some_iff, lookup_eq_some_iff]
  constructor
  · intro h
    obtain ⟨⟨k', v⟩, hv, e⟩ := List.mem_map.mp h
    cases e
    exact ⟨v, lookup_eq_some_iff.mpr hv, rfl⟩
  · rintro ⟨v, hv, rfl⟩
    exact List.mem_map.mpr ⟨⟨k, v⟩, lookup_eq_some_iff.mp hv, rfl⟩

theorem lookup_retain (p : κ → ν → Bool) (m : HashMap κ ν) (k : κ) :
    (retain p m).lookup k = (m.lookup k).filter (p k) := by
  ext v
  rw [Option.filter_eq_some_iff, lookup_eq_some_iff, lookup_eq_some_iff]
  exact List.mem_filter

theorem count_flatMap_entries [BEq β] [LawfulBEq β] (key : β → κ) (f : κ → ν → List β)
    (m : HashMap κ ν) (hkey : ∀ k v, m.lookup k = some v → ∀ b ∈ f k v, key b = k) (b : β) :
    (m.entries.flatMap fun e => f e.1 e.2).count b =
      ((m.lookup (key b)).elim [] (f (key b))).count b := by
  obtain ⟨es, hes⟩ := m
  induction es with
  | nil => rfl
  | cons e es ih =>
    obtain ⟨k', v⟩ := e
    have hrest := (List.nodupKeys_cons.mp hes).2
    have hkey' : ∀ k v, (⟨es, hrest⟩ : HashMap κ ν).lookup k = some v → ∀ b ∈ f k v, key b = k :=
      fun k v h => hkey k v
        (lookup_eq_some_iff.mpr (List.mem_cons_of_mem _ (lookup_eq_some_iff.mp h)))
    rw [lookup_cons_entries hes, List.flatMap_cons, List.count_append, ih hrest hkey']
    by_cases e : k' = key b
    · -- all later keys differ from this one
      subst e
      have hno : (⟨es, hrest⟩ : HashMap κ ν).lookup (key b) = none :=
        List.dlookup_eq_none.mpr (List.nodupKeys_cons.mp hes).1
      rw [hno, if_pos rfl]
      rfl
    · have h0 : (f k' v).count b = 0 := List.count_eq_zero.mpr fun hb =>
        e (hkey k' v (lookup_eq_some_iff.mpr List.mem_cons_self) b hb).symm
      rw [if_neg e, h0, Nat.zero_add]

end Peat.Lib
