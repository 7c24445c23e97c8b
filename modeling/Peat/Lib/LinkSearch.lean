/-
  DEPTH-FIRST SEARCH along links, with no record of what was visited.

  The search calls itself for every link in turn until one of the calls finds the
  target. A call that does not return is one that no fuel is enough for.
-/
import Mathlib.Order.WellFoundedSet

namespace Peat.Lib

variable {ν : Type*}

def firstTrue (f : ν → Option Bool) : List ν → Option Bool
  | [] => some false
  | p :: ps =>
    match f p with
    | none => none
    | some true => some true
    | some false => firstTrue f ps

theorem firstTrue_eq_false_iff {f : ν → Option Bool} {ps : List ν} :
    firstTrue f ps = some false ↔ ∀ p ∈ ps, f p = some false := by
  induction ps with
  | nil => simp [firstTrue]
  | cons p ps ih =>
    rw [firstTrue, List.forall_mem_cons, ← ih]
    cases f p with
    | none => simp
    | some r => cases r <;> simp

theorem exists_of_firstTrue {f : ν → Option Bool} {ps : List ν} (h : firstTrue f ps = some true) :
    ∃ p ∈ ps, f p = some true := by
  by_contra hnone
  push Not at hnone
  induction ps with
  | nil => simp [firstTrue] at h
  | cons p ps ih =>
    obtain ⟨hp, hps⟩ := List.forall_mem_cons.mp hnone
    rw [firstTrue] at h
    split at h
    · cases h
    · exact hp ‹_›
    · exact ih h hps

theorem firstTrue_mono {f g : ν → Option Bool} {ps : List ν} {r : Bool}
    (hfg : ∀ p r, f p = some r → g p = some r) (h : firstTrue f ps = some r) :
    firstTrue g ps = some r := by
  induction ps with
  | nil => exact h
  | cons p ps ih =>
    rw [firstTrue] at h ⊢
    cases hp : f p with
    | none => simp [hp] at h
    | some found =>
      rw [hfg p found hp]
      rw [hp] at h
      cases found with
      | true => exact h
      | false => exact ih h

theorem firstTrue_ne_none {f : ν → Option Bool} {ps : List ν} (h : ∀ p ∈ ps, f p ≠ none) :
    firstTrue f ps ≠ none := by
  induction ps with
  | nil => simp [firstTrue]
  | cons p ps ih =>
    obtain ⟨hp, hps⟩ := List.forall_mem_cons.mp h
    rw [firstTrue]
    split
    · exact absurd ‹_› hp
    · simp
    · exact ih hps

variable [DecidableEq ν] {next : ν → List ν} {a b : ν} {fuel : Nat} {r : Bool}

def search (next : ν → List ν) : Nat → ν → ν → Option Bool
  | 0, _, _ => none
  | fuel + 1, a, b => if a = b then some true else firstTrue (search next fuel · b) (next a)

/-- A path of links leads there, of any length. -/
def Reach (next : ν → List ν) : ν → ν → Prop := Relation.ReflTransGen fun a p => p ∈ next a

/-- A path of links leads back. -/
def Cyclic (next : ν → List ν) (a : ν) : Prop := Relation.TransGen (fun a p => p ∈ next a) a a

theorem search_sound (h : search next fuel a b = some r) : r = true ↔ Reach next a b := by
  induction fuel generalizing a r with
  | zero => cases h
  | succ fuel ih =>
    rw [search] at h
    split at h
    · rename_i e
      cases h
      exact iff_of_true rfl (e ▸ Relation.ReflTransGen.refl)
    · rename_i hne
      cases r with
      | true =>
        obtain ⟨p, hp, hfound⟩ := exists_of_firstTrue h
        exact iff_of_true rfl (.head hp ((ih hfound).mp rfl))
      | false =>
        refine iff_of_false Bool.false_ne_true fun hreach => ?_
        rcases Relation.ReflTransGen.cases_head hreach with e | ⟨p, hp, hreach⟩
        · exact hne e
        · exact Bool.false_ne_true ((ih (firstTrue_eq_false_iff.mp h p hp)).mpr hreach)

theorem search_mono {fuel' : Nat} (hle : fuel ≤ fuel') (h : search next fuel a b = some r) :
    search next fuel' a b = some r := by
  induction fuel generalizing a r fuel' with
  | zero => cases h
  | succ fuel ih =>
    obtain ⟨k, rfl⟩ : ∃ k, fuel' = k + 1 := ⟨fuel' - 1, by omega⟩
    rw [search] at h ⊢
    split
    · rwa [if_pos ‹_›] at h
    · rw [if_neg ‹_›] at h
      exact firstTrue_mono (fun p r hp => ih (Nat.le_of_succ_le_succ hle) hp) h

theorem exists_fuel {ps : List ν} (h : ∀ p ∈ ps, ∃ fuel, search next fuel p b ≠ none) :
    ∃ fuel, ∀ p ∈ ps, search next fuel p b ≠ none := by
  induction ps with
  | nil => exact ⟨0, nofun⟩
  | cons p ps ih =>
    obtain ⟨⟨m, hm⟩, hps⟩ := List.forall_mem_cons.mp h
    obtain ⟨n, hn⟩ := ih hps
    have hmore : ∀ {fuel q}, fuel ≤ max m n → search next fuel q b ≠ none →
        search next (max m n) q b ≠ none := by
      intro fuel q hle hq
      obtain ⟨r, hr⟩ := Option.ne_none_iff_exists'.mp hq
      rw [search_mono hle hr]
      nofun
    exact ⟨max m n, List.forall_mem_cons.mpr ⟨hmore (Nat.le_max_left _ _) hm,
      fun q hq => hmore (Nat.le_max_right _ _) (hn q hq)⟩⟩

theorem search_succ_ne_none (h : ∀ p ∈ next a, search next fuel p b ≠ none) :
    search next (fuel + 1) a b ≠ none := by
  rw [search]
  split
  · nofun
  · exact firstTrue_ne_none h

theorem exists_search {linked : Set ν} (hfin : linked.Finite) (hlinked : ∀ a ∉ linked, next a = [])
    (hcycle : ∀ a, ¬ Cyclic next a) (a b : ν) : ∃ fuel, search next fuel a b ≠ none := by
  let follows : ν → ν → Prop := fun p a => Relation.TransGen (fun a p => p ∈ next a) a p
  have hstrict : IsStrictOrder ν follows :=
    { irrefl := hcycle, trans := fun _ _ _ hba hcb => hcb.trans hba }
  have hunlinked : ∀ a ∉ linked, ∃ fuel, search next fuel a b ≠ none := by
    intro a ha
    refine ⟨1, search_succ_ne_none fun p hp => ?_⟩
    rw [hlinked a ha] at hp
    cases hp
  by_cases ha : a ∈ linked
  · refine (hfin.wellFoundedOn (r := follows)).induction
      (P := fun a => ∃ fuel, search next fuel a b ≠ none) ha fun a _ ih => ?_
    have hparents : ∀ p ∈ next a, ∃ fuel, search next fuel p b ≠ none := by
      intro p hp
      by_cases hpl : p ∈ linked
      · exact ih p hpl (.single hp)
      · exact hunlinked p hpl
    obtain ⟨fuel, hfuel⟩ := exists_fuel hparents
    exact ⟨fuel + 1, search_succ_ne_none hfuel⟩
  · exact hunlinked a ha

theorem search_cyclic (ha : Cyclic next a) (hb : ¬ Reach next a b) (fuel : Nat) :
    search next fuel a b = none := by
  induction fuel generalizing a with
  | zero => rfl
  | succ fuel ih =>
    obtain ⟨p, hp, hback⟩ := Relation.TransGen.head'_iff.mp ha
    have hne : a ≠ b := fun e => hb (e ▸ Relation.ReflTransGen.refl)
    have hnone := ih (Relation.TransGen.tail' hback hp) fun h => hb (.head hp h)
    by_contra hsome
    obtain ⟨r, hr⟩ := Option.ne_none_iff_exists'.mp hsome
    have hfalse : r = false := by
      rw [← Bool.not_eq_true, search_sound hr]
      exact hb
    rw [search, if_neg hne, hfalse] at hr
    rw [firstTrue_eq_false_iff.mp hr p hp] at hnone
    cases hnone

omit [DecidableEq ν] in
theorem mem_of_reach {linked : Set ν} (hlinked : ∀ a ∉ linked, next a = [])
    (h : Reach next a b) : b = a ∨ ∃ c ∈ linked, b ∈ next c := by
  rcases Relation.ReflTransGen.cases_tail h with e | ⟨c, _, hb⟩
  · exact .inl e
  · refine .inr ⟨c, ?_, hb⟩
    by_contra hc
    rw [hlinked c hc] at hb
    cases hb

theorem search_returns_iff [Infinite ν] {linked : Set ν} (hfin : linked.Finite)
    (hlinked : ∀ a ∉ linked, next a = []) :
    (∀ a b, ∃ fuel, search next fuel a b ≠ none) ↔ ∀ a, ¬ Cyclic next a := by
  constructor
  · intro h a ha
    have hall : (insert a (⋃ c ∈ linked, {b | b ∈ next c})).Finite :=
      (hfin.biUnion fun c _ => (next c).finite_toSet).insert a
    obtain ⟨b, hb⟩ := hall.exists_notMem
    obtain ⟨fuel, hfuel⟩ := h a b
    refine hfuel (search_cyclic ha (fun hreach => hb ?_) fuel)
    rcases mem_of_reach hlinked hreach with e | ⟨c, hc, hbc⟩
    · exact .inl e
    · exact .inr (Set.mem_biUnion hc hbc)
  · exact exists_search hfin hlinked

end Peat.Lib
