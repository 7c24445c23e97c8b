/-
  WHICH CELL `find_merge_candidate` PICKS (maintenance.rs).

  The documented order: a cell of the same zone (the cohort id) first, then the fewest
  members. The loop has one number for both, the size less a bonus of 100 that saturates
  at zero.
-/
import Peat.Lib.FirstLeast
import Peat.Hierarchy.Maintenance

namespace Peat.Hierarchy

open Peat.Lib Peat.Models

namespace HierarchyMaintainer

/-! ## 1. The cell the loop ends with -/

def bestCandidate (m : HierarchyMaintainer) (cell : CellState) (candidates : List CellState) :
    Option CellState :=
  (candidates.foldl (m.considerCandidate cell) none).map Prod.fst

/-- Both are in one cohort. -/
def SameCohort (cell candidate : CellState) : Prop :=
  cell.cohortId.isSome ∧ cell.cohortId = candidate.cohortId

instance (cell candidate : CellState) : Decidable (SameCohort cell candidate) :=
  inferInstanceAs (Decidable (_ ∧ _))

theorem score_of_sameCohort {cell d : CellState} (h : SameCohort cell d) :
    score cell d = d.members.length - 100 := by
  refine if_pos ?_
  have hd : d.cohortId.isSome := h.2 ▸ h.1
  simp [hd, h.2]

theorem score_of_not_sameCohort {cell d : CellState} (h : ¬ SameCohort cell d) :
    score cell d = d.members.length := by
  refine if_neg fun hcond => h ?_
  simp only [Bool.and_eq_true, beq_iff_eq] at hcond
  exact ⟨hcond.1.1, hcond.2⟩

variable {m : HierarchyMaintainer} {cell d : CellState} {candidates : List CellState}

theorem bestCandidate_eq_preferred (m : HierarchyMaintainer) (cell : CellState)
    (candidates : List CellState) :
    m.bestCandidate cell candidates = m.preferred cell candidates := by
  unfold bestCandidate preferred
  have h := m.foldl_considerCandidate cell candidates none
  rw [Option.map_none] at h
  rw [h, Option.map_map]
  exact Option.map_id'

theorem findMergeCandidate_eq_map (m : HierarchyMaintainer) (cell : CellState)
    (candidates : List CellState) :
    m.findMergeCandidate cell candidates = (m.bestCandidate cell candidates).map (·.idText) := by
  rw [findMergeCandidate_eq, bestCandidate_eq_preferred]

theorem bestCandidate_eq_some_iff :
    m.bestCandidate cell candidates = some d ↔
      FirstLeast (m.Fits cell) (score cell) candidates d := by
  rw [bestCandidate_eq_preferred]
  exact argmin_filter_eq_some_iff

theorem findMergeCandidate_isSome_iff (m : HierarchyMaintainer) (cell : CellState)
    (candidates : List CellState) :
    (m.findMergeCandidate cell candidates).isSome ↔ ∃ d ∈ candidates, m.Fits cell d := by
  rw [findMergeCandidate_eq, Option.isSome_map, Option.isSome_iff_exists]
  constructor
  · intro h
    obtain ⟨d, hd⟩ := h
    exact ⟨d, preferred_spec hd⟩
  · intro h
    obtain ⟨d, hd, hfit⟩ := h
    exact exists_preferred hd hfit

/-! ## 2. The documented order -/

/-- The best fitting candidate in the documented order: one of the cell's cohort if there is any,
    and none of its preference class has fewer members. -/
structure Best (m : HierarchyMaintainer) (cell : CellState) (candidates : List CellState)
    (d : CellState) : Prop where
  mem : d ∈ candidates
  fits : m.Fits cell d
  cohort : ∀ e ∈ candidates, m.Fits cell e → SameCohort cell e → SameCohort cell d
  smallest : ∀ e ∈ candidates, m.Fits cell e → (SameCohort cell e ↔ SameCohort cell d) →
    d.members.length ≤ e.members.length

/-- The bonus is enough to put the cohort's cell `d` first: the cohort's other fitting cells are
    larger than `d` and than the bonus, or stand behind it and are no smaller; the cells of other
    cohorts are not smaller by the bonus. -/
def Outranks (m : HierarchyMaintainer) (cell : CellState) (candidates : List CellState)
    (d : CellState) : Prop :=
  ∃ before after, candidates = before ++ d :: after ∧ m.Fits cell d ∧ SameCohort cell d ∧
    (∀ e ∈ before, m.Fits cell e →
      if SameCohort cell e then max 100 d.members.length < e.members.length
      else d.members.length - 100 < e.members.length) ∧
    ∀ e ∈ after, m.Fits cell e →
      if SameCohort cell e then d.members.length ≤ e.members.length
      else d.members.length - 100 ≤ e.members.length

theorem best_of_no_cohort (h : FirstLeast (m.Fits cell) (score cell) candidates d)
    (hnone : ∀ e ∈ candidates, m.Fits cell e → ¬ SameCohort cell e) :
    m.Best cell candidates d := by
  refine ⟨h.mem, h.qualifies, fun e he hfit hsame => absurd hsame (hnone e he hfit), ?_⟩
  intro e he hfit _
  have hle := h.le he hfit
  rwa [score_of_not_sameCohort (hnone d h.mem h.qualifies),
    score_of_not_sameCohort (hnone e he hfit)] at hle

theorem score_lt_iff {c : CellState} (hsame : SameCohort cell d) :
    score cell d < score cell c ↔
      if SameCohort cell c then max 100 d.members.length < c.members.length
      else d.members.length - 100 < c.members.length := by
  rw [score_of_sameCohort hsame]
  split
  · rename_i hsc
    rw [score_of_sameCohort hsc]
    omega
  · rename_i hsc
    rw [score_of_not_sameCohort hsc]

theorem Outranks.firstLeast (h : m.Outranks cell candidates d) :
    FirstLeast (m.Fits cell) (score cell) candidates d := by
  obtain ⟨before, after, e, hfit, hsame, hbefore, hafter⟩ := h
  refine ⟨before, after, e, hfit, fun c hc hfitc => (score_lt_iff hsame).mpr (hbefore c hc hfitc),
    fun c hc hfitc => ?_⟩
  have hle := hafter c hc hfitc
  rw [score_of_sameCohort hsame]
  by_cases hsc : SameCohort cell c
  · rw [if_pos hsc] at hle
    rw [score_of_sameCohort hsc]
    omega
  · rw [if_neg hsc] at hle
    rwa [score_of_not_sameCohort hsc]

theorem Outranks.best (h : m.Outranks cell candidates d) : m.Best cell candidates d := by
  have hfirst := h.firstLeast
  obtain ⟨before, after, rfl, hfit, hsame, hbefore, hafter⟩ := h
  refine ⟨hfirst.mem, hfit, fun _ _ _ _ => hsame, fun c hc hfitc hclass => ?_⟩
  have hsc : SameCohort cell c := hclass.mpr hsame
  rcases List.mem_append.mp hc with hc | hc
  · have hlt := hbefore c hc hfitc
    rw [if_pos hsc] at hlt
    omega
  · rcases List.mem_cons.mp hc with e | hc
    · rw [e]
    · have hle := hafter c hc hfitc
      rwa [if_pos hsc] at hle

theorem Best.outranks (hbest : m.Best cell candidates d) (hsame : SameCohort cell d)
    (h : FirstLeast (m.Fits cell) (score cell) candidates d) : m.Outranks cell candidates d := by
  obtain ⟨before, after, rfl, hfit, hbefore, hafter⟩ := h
  refine ⟨before, after, rfl, hfit, hsame,
    fun c hc hfitc => (score_lt_iff hsame).mp (hbefore c hc hfitc), fun c hc hfitc => ?_⟩
  have hle := hafter c hc hfitc
  rw [score_of_sameCohort hsame] at hle
  by_cases hsc : SameCohort cell c
  · rw [if_pos hsc]
    have hmem : c ∈ before ++ d :: after := List.mem_append_right _ (List.mem_cons_of_mem _ hc)
    exact hbest.smallest c hmem hfitc (iff_of_true hsc hsame)
  · rw [score_of_not_sameCohort hsc] at hle
    rwa [if_neg hsc]

/-- **The documented choice**: the cell picked is the best one exactly when no fitting cell is of the cohort
    or the bonus puts one of the cohort's cells first. -/
theorem findMergeCandidate_best_iff (m : HierarchyMaintainer) (cell : CellState)
    (candidates : List CellState) :
    (((m.findMergeCandidate cell candidates).isSome ↔ ∃ d ∈ candidates, m.Fits cell d) ∧
      ∀ d, m.bestCandidate cell candidates = some d →
        m.findMergeCandidate cell candidates = some d.idText ∧ m.Best cell candidates d) ↔
    (∀ d ∈ candidates, m.Fits cell d → ¬ SameCohort cell d) ∨
      ∃ d, m.Outranks cell candidates d := by
  constructor
  · intro ⟨_, hbest⟩
    by_cases hnone : ∀ d ∈ candidates, m.Fits cell d → ¬ SameCohort cell d
    · exact .inl hnone
    · push Not at hnone
      obtain ⟨e, he, hfit, hsame⟩ := hnone
      obtain ⟨d, hd⟩ := exists_preferred he hfit
      rw [← bestCandidate_eq_preferred] at hd
      have hbestd := (hbest d hd).2
      exact .inr ⟨d, hbestd.outranks (hbestd.cohort e he hfit hsame)
        (bestCandidate_eq_some_iff.mp hd)⟩
  · intro h
    refine ⟨findMergeCandidate_isSome_iff m cell candidates, fun d hd => ⟨?_, ?_⟩⟩
    · rw [findMergeCandidate_eq_map, hd]
      rfl
    · rcases h with hnone | ⟨e, he⟩
      · exact best_of_no_cohort (bestCandidate_eq_some_iff.mp hd) hnone
      · have hed := bestCandidate_eq_some_iff.mpr he.firstLeast
        rw [hd] at hed
        exact Option.some.inj hed ▸ he.best

def zoneCell (id : String) (members : List String) : CellState :=
  { CellState.new (CellConfig.withId id 10 0) 0 with
    members := members
    cohortId := some "zone_1" }

/-- Two cells of the cohort fit, four members and three. Both score 0, and the larger one comes
    first. -/
theorem findMergeCandidate_picks_larger :
    let m : HierarchyMaintainer := ⟨3, 10, by decide, by decide⟩
    let larger := zoneCell "cell_a" ["a1", "a2", "a3", "a4"]
    let smaller := zoneCell "cell_b" ["b1", "b2", "b3"]
    m.bestCandidate (zoneCell "cell_x" ["x1", "x2"]) [larger, smaller] = some larger ∧
    m.findMergeCandidate (zoneCell "cell_x" ["x1", "x2"]) [larger, smaller] = some "cell_a" ∧
    ¬ m.Best (zoneCell "cell_x" ["x1", "x2"]) [larger, smaller] larger := by
  refine ⟨by decide, by decide, fun hbest => ?_⟩
  have hle := hbest.smallest (zoneCell "cell_b" ["b1", "b2", "b3"]) (by decide) (by decide)
    (by decide)
  exact absurd hle (by decide)

end HierarchyMaintainer

end Peat.Hierarchy
