/-
  THE HIERARCHY MAINTAINER of hierarchy/maintenance.rs: which cells need an operation,
  which cell an undersized cell merges with, how two cells are merged and an oversized
  one is split.

  The structure carries the order of its bounds, which `new` asserts. The bounds on the
  cells of a zone and the metrics are left out.
-/
import Peat.Models.Cell
import Mathlib.Data.List.MinMax

namespace Peat.Models.CellState

def idText (s : CellState) : String := s.getId.getD "<unknown>"

def addMembers (s : CellState) (members : List String) (now : Nat) : CellState :=
  members.foldl (fun s member => (s.addMember member now).1) s

end Peat.Models.CellState

namespace Peat.Hierarchy

open Peat.Lib Peat.Models

inductive RebalanceAction where
  | none
  | merge
  | split
  deriving DecidableEq, Repr

structure HierarchyMaintainer where
  minCellSize : Nat
  maxCellSize : Nat
  minCellSize_pos : 0 < minCellSize
  minCellSize_lt : minCellSize < maxCellSize

namespace HierarchyMaintainer

/-! ## 1. The functions -/

def needsRebalance (m : HierarchyMaintainer) (cell : CellState) : RebalanceAction :=
  if cell.members.length < m.minCellSize then .merge
  else if m.maxCellSize < cell.members.length then .split
  else .none

def score (cell candidate : CellState) : Nat :=
  if cell.cohortId.isSome && candidate.cohortId.isSome && cell.cohortId == candidate.cohortId then
    candidate.members.length - 100
  else candidate.members.length

def considerCandidate (m : HierarchyMaintainer) (cell : CellState)
    (bestCandidate : Option (CellState × Nat)) (candidate : CellState) :
    Option (CellState × Nat) :=
  if candidate.idText = cell.idText then bestCandidate
  else if m.maxCellSize < cell.members.length + candidate.members.length then bestCandidate
  else
    match bestCandidate with
    | some best =>
      if score cell candidate < best.2 then some (candidate, score cell candidate)
      else bestCandidate
    | none => some (candidate, score cell candidate)

def findMergeCandidate (m : HierarchyMaintainer) (cell : CellState)
    (candidates : List CellState) : Option String :=
  (candidates.foldl (m.considerCandidate cell) none).map fun best => best.1.idText

def newCapacity (m : HierarchyMaintainer) : Nat := m.maxCellSize % 4294967296

def newHalf (m : HierarchyMaintainer) (cell : CellState) (id : String) (members : List String)
    (now : Nat) : CellState :=
  let config := { CellConfig.withId id m.newCapacity now with
    minSize := m.minCellSize % 4294967296 }
  { (CellState.new config now).addMembers members now with
    capabilities := cell.capabilities
    cohortId := cell.cohortId
    timestamp := cell.timestamp
    leaderId := none }

def mergeCells (m : HierarchyMaintainer) (cell1 cell2 : CellState) (id : String) (now : Nat) :
    CellState :=
  let totalMembers := cell1.members.length + cell2.members.length
  let config := { CellConfig.withId id (max m.newCapacity (totalMembers % 4294967296)) now with
    minSize := m.minCellSize % 4294967296 }
  { (CellState.new config now).addMembers (cell1.members ++ cell2.members) now with
    capabilities := unionBy Capability.id [] (cell1.capabilities ++ cell2.capabilities)
    timestamp :=
      if secondsOf cell1.timestamp < secondsOf cell2.timestamp then cell2.timestamp
      else cell1.timestamp
    cohortId := cell1.cohortId.or cell2.cohortId
    leaderId := none }

def splitCell (m : HierarchyMaintainer) (cell : CellState) (idA idB : String) (now : Nat) :
    Except String (CellState × CellState) :=
  if cell.members.length < 2 then .error "Cell too small to split"
  else
    let splitPoint := cell.members.length / 2
    .ok (m.newHalf cell idA (cell.members.take splitPoint) now,
      m.newHalf cell idB (cell.members.drop splitPoint) now)

/-! ## 2. The preferred merge partner -/

/-- Another cell, and together they are not too large. -/
def Fits (m : HierarchyMaintainer) (cell candidate : CellState) : Prop :=
  candidate.idText ≠ cell.idText ∧
    cell.members.length + candidate.members.length ≤ m.maxCellSize

instance (m : HierarchyMaintainer) (cell candidate : CellState) :
    Decidable (m.Fits cell candidate) :=
  inferInstanceAs (Decidable (_ ∧ _))

variable {m : HierarchyMaintainer} {cell : CellState} {config : CellConfig}

variable {d : CellState} {candidates : List CellState}

theorem Fits.symm {c : CellState} (h : m.Fits c d) : m.Fits d c :=
  ⟨h.1.symm, Nat.add_comm c.members.length d.members.length ▸ h.2⟩

def preferred (m : HierarchyMaintainer) (cell : CellState) (candidates : List CellState) :
    Option CellState :=
  (candidates.filter fun d => m.Fits cell d).argmin (score cell)

theorem foldl_considerCandidate (m : HierarchyMaintainer) (cell : CellState)
    (candidates : List CellState) (best : Option CellState) :
    candidates.foldl (m.considerCandidate cell) (best.map fun d => (d, score cell d)) =
      ((candidates.filter fun d => m.Fits cell d).foldl
        (List.argAux fun d e => score cell d < score cell e) best).map
          fun d => (d, score cell d) := by
  induction candidates generalizing best with
  | nil => rfl
  | cons d candidates ih =>
    by_cases hfit : m.Fits cell d
    · have hstep : m.considerCandidate cell (best.map fun d => (d, score cell d)) d =
          (List.argAux (fun d e => score cell d < score cell e) best d).map
            fun d => (d, score cell d) := by
        unfold considerCandidate List.argAux
        rw [if_neg hfit.1, if_neg (Nat.not_lt.mpr hfit.2)]
        cases best with
        | none => rfl
        | some b =>
          show (if score cell d < score cell b then _ else _) = Option.map _ (if _ then _ else _)
          split <;> rfl
      rw [List.foldl_cons, hstep, ih, List.filter_cons_of_pos (by simpa using hfit),
        List.foldl_cons]
    · have hstep : m.considerCandidate cell (best.map fun d => (d, score cell d)) d =
          best.map fun d => (d, score cell d) := by
        unfold considerCandidate
        by_cases hid : d.idText = cell.idText
        · rw [if_pos hid]
        · rw [if_neg hid, if_pos (Nat.lt_of_not_le fun hle => hfit ⟨hid, hle⟩)]
      rw [List.foldl_cons, hstep, ih, List.filter_cons_of_neg (by simpa using hfit)]

theorem findMergeCandidate_eq (m : HierarchyMaintainer) (cell : CellState)
    (candidates : List CellState) :
    m.findMergeCandidate cell candidates = (m.preferred cell candidates).map (·.idText) := by
  unfold findMergeCandidate preferred
  have h := m.foldl_considerCandidate cell candidates none
  rw [Option.map_none] at h
  rw [h, Option.map_map]
  rfl

theorem preferred_spec (h : d ∈ m.preferred cell candidates) : d ∈ candidates ∧ m.Fits cell d := by
  have hmem := List.argmin_mem h
  rw [List.mem_filter] at hmem
  exact ⟨hmem.1, by simpa using hmem.2⟩

theorem exists_preferred (hd : d ∈ candidates) (hfit : m.Fits cell d) :
    ∃ e, m.preferred cell candidates = some e := by
  rw [← Option.isSome_iff_exists, Option.isSome_iff_ne_none]
  intro hnone
  have hnil := List.argmin_eq_none.mp hnone
  have hmem : d ∈ candidates.filter fun d => m.Fits cell d :=
    List.mem_filter.mpr ⟨hd, by simpa using hfit⟩
  rw [hnil] at hmem
  cases hmem

/-! ## 3. The halves of a split -/

theorem isFull_iff {s : CellState} (hconfig : s.config = some config) :
    s.isFull = true ↔ config.maxSize ≤ s.members.length := by
  unfold CellState.isFull
  rw [hconfig]
  exact decide_eq_true_iff

theorem not_isFull_iff {s : CellState} (hconfig : s.config = some config) :
    s.isFull = false ↔ s.members.length < config.maxSize := by
  rw [← Bool.not_eq_true, isFull_iff hconfig, Nat.not_le]

theorem members_addMembers (members : List String) (now : Nat) (s : CellState)
    (hconfig : s.config = some config) (hn : (s.members ++ members).Nodup) :
    (s.addMembers members now).config = some config ∧
      (s.addMembers members now).members =
        s.members ++ members.take (config.maxSize - s.members.length) := by
  unfold CellState.addMembers
  induction members generalizing s with
  | nil => exact ⟨hconfig, by simp⟩
  | cons member members ih =>
    rw [List.append_cons] at hn
    have hnew : member ∉ s.members := fun hmem =>
      (List.nodup_append.mp (List.nodup_append.mp hn).1).2.2 member hmem member
        List.mem_cons_self rfl
    rw [List.foldl_cons]
    rcases s.addMember_cases member now with ⟨hf | hmem, h⟩ | ⟨hf, _, h⟩
    · -- the cell is full and stays so
      have hle := (isFull_iff hconfig).mp hf
      have hrest : (s.members ++ members).Nodup := hn.sublist
        (List.Sublist.append (List.sublist_append_left _ _) (List.Sublist.refl _))
      rw [h]
      obtain ⟨h1, h2⟩ := ih s hconfig hrest
      rw [Nat.sub_eq_zero_of_le hle, List.take_zero] at h2 ⊢
      exact ⟨h1, h2⟩
    · exact absurd hmem hnew
    · have hlt := (not_isFull_iff hconfig).mp hf
      rw [h]
      obtain ⟨h1, h2⟩ := ih
        { s with members := s.members ++ [member], timestamp := stampOf now } hconfig hn
      refine ⟨h1, h2.trans ?_⟩
      obtain ⟨k, hk⟩ := Nat.exists_eq_add_of_lt hlt
      have e1 : config.maxSize - s.members.length = k + 1 := by omega
      have e2 : config.maxSize - (s.members ++ [member]).length = k := by
        rw [List.length_append, List.length_singleton]
        omega
      show s.members ++ [member] ++
        members.take (config.maxSize - (s.members ++ [member]).length) = _
      rw [e1, e2, List.take_succ_cons, ← List.append_cons]

theorem newHalf_spec (m : HierarchyMaintainer) (cell : CellState) (id : String)
    {members : List String} (hn : members.Nodup) (now : Nat) :
    (m.newHalf cell id members now).idText = id ∧
      (m.newHalf cell id members now).members = members.take m.newCapacity := by
  obtain ⟨hconfig, hmembers⟩ := members_addMembers members now
    (CellState.new { CellConfig.withId id m.newCapacity now with
      minSize := m.minCellSize % 4294967296 } now) rfl hn
  refine ⟨?_, hmembers⟩
  unfold CellState.idText CellState.getId newHalf
  dsimp only
  rw [hconfig]
  rfl

def nodesForA (m : HierarchyMaintainer) (cell : CellState) : List String :=
  (cell.members.take (cell.members.length / 2)).take m.newCapacity

def nodesForB (m : HierarchyMaintainer) (cell : CellState) : List String :=
  (cell.members.drop (cell.members.length / 2)).take m.newCapacity

theorem splitCell_ok (m : HierarchyMaintainer) (hn : cell.members.Nodup)
    (h2 : 2 ≤ cell.members.length) (idA idB : String) (now : Nat) :
    ∃ a b, m.splitCell cell idA idB now = .ok (a, b) ∧ a.idText = idA ∧ b.idText = idB ∧
      a.members = m.nodesForA cell ∧ b.members = m.nodesForB cell := by
  obtain ⟨hidA, hA⟩ := m.newHalf_spec cell idA
    (hn.sublist (List.take_sublist (cell.members.length / 2) _)) now
  obtain ⟨hidB, hB⟩ := m.newHalf_spec cell idB
    (hn.sublist (List.drop_sublist (cell.members.length / 2) _)) now
  refine ⟨_, _, ?_, hidA, hidB, hA, hB⟩
  unfold splitCell
  rw [if_neg (Nat.not_lt.mpr h2)]

theorem disjoint_nodesFor (m : HierarchyMaintainer) (hn : cell.members.Nodup) :
    (m.nodesForA cell).Disjoint (m.nodesForB cell) := by
  intro n hA hB
  have hsplit : (cell.members.take (cell.members.length / 2) ++
      cell.members.drop (cell.members.length / 2)).Nodup := by
    rwa [List.take_append_drop]
  exact (List.nodup_append.mp hsplit).2.2 n (List.mem_of_mem_take hA) n (List.mem_of_mem_take hB) rfl

theorem mem_members_of_split {n : String} (h : n ∈ m.nodesForA cell ++ m.nodesForB cell) :
    n ∈ cell.members := by
  rcases List.mem_append.mp h with h | h
  · exact List.mem_of_mem_take (List.mem_of_mem_take h)
  · exact List.mem_of_mem_drop (List.mem_of_mem_take h)

theorem exists_mem_nodesFor (hsize : m.maxCellSize < cell.members.length)
    (hne : m.nodesForA cell ++ m.nodesForB cell ≠ []) :
    (∃ a, a ∈ m.nodesForA cell) ∧ ∃ b, b ∈ m.nodesForB cell := by
  have hlt := m.minCellSize_lt
  have hpos := m.minCellSize_pos
  unfold nodesForA nodesForB at hne ⊢
  have hcap : 0 < m.newCapacity := Nat.pos_of_ne_zero fun h0 => hne (by rw [h0]; rfl)
  constructor
  · refine List.exists_mem_of_length_pos ?_
    simp only [List.length_take]
    omega
  · refine List.exists_mem_of_length_pos ?_
    simp only [List.length_take, List.length_drop]
    omega

theorem split_complete_iff (m : HierarchyMaintainer) (hn : cell.members.Nodup) :
    (∀ n ∈ cell.members, n ∈ m.nodesForA cell ++ m.nodesForB cell) ↔
      cell.members.length - cell.members.length / 2 ≤ m.newCapacity := by
  constructor
  · intro hall
    have hlen := (List.subperm_of_subset hn hall).length_le
    unfold nodesForA nodesForB at hlen
    simp only [List.length_append, List.length_take, List.length_drop] at hlen
    omega
  · intro hcap n hmem
    have hA : m.nodesForA cell = cell.members.take (cell.members.length / 2) :=
      List.take_of_length_le (by rw [List.length_take]; omega)
    have hB : m.nodesForB cell = cell.members.drop (cell.members.length / 2) :=
      List.take_of_length_le (by rw [List.length_drop]; exact hcap)
    rw [hA, hB, List.take_append_drop]
    exact hmem

/-- **A split is a partition into halves** of the sizes `n / 2` and `(n + 1) / 2` exactly when the
    larger half fits into a new cell. -/
theorem splitCell_partitions_iff (m : HierarchyMaintainer) {cell : CellState}
    (hn : cell.members.Nodup) (h2 : 2 ≤ cell.members.length) (idA idB : String) (now : Nat) :
    ∃ a b, m.splitCell cell idA idB now = .ok (a, b) ∧
      ((a.members.Disjoint b.members ∧
        (∀ n, n ∈ a.members ∨ n ∈ b.members ↔ n ∈ cell.members) ∧
        a.members.length = cell.members.length / 2 ∧
        b.members.length = (cell.members.length + 1) / 2) ↔
      (cell.members.length + 1) / 2 ≤ m.newCapacity) := by
  obtain ⟨a, b, hok, -, -, hA, hB⟩ := m.splitCell_ok hn h2 idA idB now
  refine ⟨a, b, hok, ?_⟩
  have hcover := m.split_complete_iff hn
  have hhalf : cell.members.length - cell.members.length / 2 = (cell.members.length + 1) / 2 := by
    omega
  rw [hhalf] at hcover
  rw [hA, hB]
  constructor
  · rintro ⟨-, hunion, -, -⟩
    refine hcover.mp fun n hmem => ?_
    exact List.mem_append.mpr ((hunion n).mpr hmem)
  · intro hcap
    refine ⟨m.disjoint_nodesFor hn, fun n => ?_, ?_, ?_⟩
    · rw [← List.mem_append]
      exact ⟨mem_members_of_split, hcover.mpr hcap n⟩
    · unfold nodesForA
      simp only [List.length_take]
      omega
    · unfold nodesForB
      simp only [List.length_take, List.length_drop]
      omega

def onePlus : HierarchyMaintainer := ⟨1, 2, by decide, by decide⟩

def crowd (members : List String) : CellState :=
  { CellState.new (CellConfig.withId "cell_x" 10 0) 0 with members := members }

theorem splitCell_partitions_four :
    (crowd ["n1", "n2", "n3", "n4"]).members.Nodup ∧
    ∃ a b, onePlus.splitCell (crowd ["n1", "n2", "n3", "n4"]) "A" "B" 0 = .ok (a, b) ∧
      ((a.members.Disjoint b.members ∧
        (∀ n, n ∈ a.members ∨ n ∈ b.members ↔ n ∈ (crowd ["n1", "n2", "n3", "n4"]).members) ∧
        a.members.length = (crowd ["n1", "n2", "n3", "n4"]).members.length / 2 ∧
        b.members.length = ((crowd ["n1", "n2", "n3", "n4"]).members.length + 1) / 2) ↔
      ((crowd ["n1", "n2", "n3", "n4"]).members.length + 1) / 2 ≤ onePlus.newCapacity) :=
  ⟨by decide, splitCell_partitions_iff onePlus (by decide) (by decide) "A" "B" 0⟩

/-- Five members, at most two in a cell: the second new cell refuses `n5`, which is in neither. -/
theorem splitCell_loses_member :
    (crowd ["n1", "n2", "n3", "n4", "n5"]).members.Nodup ∧
    ((onePlus.splitCell (crowd ["n1", "n2", "n3", "n4", "n5"]) "A" "B" 0).map fun halves =>
      (halves.1.members, halves.2.members)) = .ok (["n1", "n2"], ["n3", "n4"]) := by
  decide

/-! ## 4. Sizes after a split and after a merge -/

theorem length_addMembers (members : List String) (now : Nat) (s : CellState)
    (hconfig : s.config = some config) (hn : s.members.Nodup)
    (hle : s.members.length ≤ config.maxSize) :
    (s.addMembers members now).members.length =
      min config.maxSize (s.members ++ members).toFinset.card := by
  unfold CellState.addMembers
  induction members generalizing s with
  | nil =>
    rw [List.foldl_nil, List.append_nil, List.toFinset_card_of_nodup hn]
    omega
  | cons member members ih =>
    rw [List.foldl_cons]
    rcases s.addMember_cases member now with ⟨hf | hmem, h⟩ | ⟨hf, hnew, h⟩
    · -- a full cell has its capacity before and after
      have hfull := (isFull_iff hconfig).mp hf
      have hcard : ∀ rest : List String, s.members.length ≤ (s.members ++ rest).toFinset.card := by
        intro rest
        rw [← List.toFinset_card_of_nodup hn, List.toFinset_append]
        exact Finset.card_le_card Finset.subset_union_left
      have h1 := hcard members
      have h2 := hcard (member :: members)
      rw [h, ih s hconfig hn hle]
      omega
    · have hunion : member ∈ (s.members ++ members).toFinset :=
        List.mem_toFinset.mpr (List.mem_append_left members hmem)
      have hset : (s.members ++ member :: members).toFinset = (s.members ++ members).toFinset := by
        rw [List.toFinset_append, List.toFinset_cons, Finset.union_insert, ← List.toFinset_append]
        exact Finset.insert_eq_of_mem hunion
      rw [h, ih s hconfig hn hle, hset]
    · have hlt := (not_isFull_iff hconfig).mp hf
      have hnext : (s.members ++ [member]).length ≤ config.maxSize := by
        rw [List.length_append, List.length_singleton]
        exact hlt
      have hnodup : (s.members ++ [member]).Nodup :=
        List.nodup_append.mpr ⟨hn, List.nodup_singleton member, fun a ha b hb hab =>
          hnew (List.mem_singleton.mp hb ▸ hab ▸ ha)⟩
      rw [h, ih { s with members := s.members ++ [member], timestamp := stampOf now } hconfig
        hnodup hnext, ← List.append_cons]

theorem length_newHalf (m : HierarchyMaintainer) (cell : CellState) (id : String)
    (members : List String) (now : Nat) :
    (m.newHalf cell id members now).members.length =
      min m.newCapacity members.toFinset.card :=
  length_addMembers members now (CellState.new { CellConfig.withId id m.newCapacity now with
    minSize := m.minCellSize % 4294967296 } now) rfl List.nodup_nil (Nat.zero_le _)

theorem length_mergeCells_le (m : HierarchyMaintainer) (c d : CellState) (id : String) (now : Nat) :
    (m.mergeCells c d id now).members.length ≤ c.members.length + d.members.length := by
  have hlen := length_addMembers (c.members ++ d.members) now
    (CellState.new { CellConfig.withId id (max m.newCapacity
      ((c.members.length + d.members.length) % 4294967296)) now with
      minSize := m.minCellSize % 4294967296 } now) rfl List.nodup_nil (Nat.zero_le _)
  have hcard := (c.members ++ d.members).toFinset_card_le
  rw [List.length_append] at hcard
  calc (m.mergeCells c d id now).members.length
      = min (max m.newCapacity ((c.members.length + d.members.length) % 4294967296))
          (c.members ++ d.members).toFinset.card := hlen
    _ ≤ (c.members ++ d.members).toFinset.card := Nat.min_le_right _ _
    _ ≤ c.members.length + d.members.length := hcard

theorem needsRebalance_split_iff (m : HierarchyMaintainer) (cell : CellState) :
    m.needsRebalance cell = .split ↔ m.maxCellSize < cell.members.length := by
  have hlt := m.minCellSize_lt
  unfold needsRebalance
  split
  · exact ⟨nofun, fun h => by omega⟩
  · split
    · exact ⟨fun _ => by assumption, fun _ => rfl⟩
    · exact ⟨nofun, fun h => by contradiction⟩

theorem needsRebalance_merge_iff (m : HierarchyMaintainer) (cell : CellState) :
    m.needsRebalance cell = .merge ↔ cell.members.length < m.minCellSize := by
  unfold needsRebalance
  split
  · exact ⟨fun _ => by assumption, fun _ => rfl⟩
  · split
    · exact ⟨nofun, fun h => by contradiction⟩
    · exact ⟨nofun, fun h => by contradiction⟩

theorem progress_iff {part : CellState} (hlt : part.members.length < cell.members.length) :
    (m.needsRebalance part = .none ∨
      m.needsRebalance part = .split ∧ part.members.length < cell.members.length) ↔
    m.minCellSize ≤ part.members.length := by
  have hmerge := m.needsRebalance_merge_iff part
  rw [← Nat.not_lt, ← hmerge]
  cases m.needsRebalance part with
  | none => exact ⟨fun _ => nofun, fun _ => Or.inl rfl⟩
  | merge => exact ⟨fun h => by simp at h, fun h => absurd rfl h⟩
  | split => exact ⟨fun _ => nofun, fun _ => Or.inr ⟨rfl, hlt⟩⟩

/-- **Progress of rebalancing.** The two cells of a split need no merge, and are smaller, exactly when a new
    cell can hold the minimum and each half has that many different members; a merge never asks for a split.
    -/
theorem rebalance_progress_iff (m : HierarchyMaintainer) (cell : CellState) :
    (m.needsRebalance cell = .split → ∀ idA idB now, ∃ a b,
      m.splitCell cell idA idB now = .ok (a, b) ∧
      ((∀ part ∈ [a, b], m.needsRebalance part = .none ∨
          m.needsRebalance part = .split ∧ part.members.length < cell.members.length) ↔
        m.minCellSize ≤ m.newCapacity ∧
        m.minCellSize ≤ (cell.members.take (cell.members.length / 2)).toFinset.card ∧
        m.minCellSize ≤ (cell.members.drop (cell.members.length / 2)).toFinset.card)) ∧
    ∀ candidates id, m.findMergeCandidate cell candidates = some id →
      ∃ d, m.preferred cell candidates = some d ∧ d ∈ candidates ∧ d.idText = id ∧
        ∀ newId now, m.needsRebalance (m.mergeCells cell d newId now) ≠ .split := by
  refine ⟨fun hsplit idA idB now => ?_, fun candidates id hfind => ?_⟩
  · have hmin := m.minCellSize_pos
    have hmax := m.minCellSize_lt
    have hsize := (m.needsRebalance_split_iff cell).mp hsplit
    have h2 : ¬cell.members.length < 2 := by omega
    refine ⟨m.newHalf cell idA (cell.members.take (cell.members.length / 2)) now,
      m.newHalf cell idB (cell.members.drop (cell.members.length / 2)) now, ?_, ?_⟩
    · unfold splitCell
      rw [if_neg h2]
    · have hA := m.length_newHalf cell idA (cell.members.take (cell.members.length / 2)) now
      have hB := m.length_newHalf cell idB (cell.members.drop (cell.members.length / 2)) now
      have hcardA := (cell.members.take (cell.members.length / 2)).toFinset_card_le
      have hcardB := (cell.members.drop (cell.members.length / 2)).toFinset_card_le
      rw [List.length_take] at hcardA
      rw [List.length_drop] at hcardB
      rw [List.forall_mem_cons, List.forall_mem_singleton, progress_iff (by omega),
        progress_iff (by omega), hA, hB]
      omega
  · rw [findMergeCandidate_eq, Option.map_eq_some_iff] at hfind
    obtain ⟨d, hd, hid⟩ := hfind
    obtain ⟨hmem, hfits⟩ := preferred_spec hd
    refine ⟨d, hd, hmem, hid, fun newId now hsplit => ?_⟩
    have hlt := (m.needsRebalance_split_iff _).mp hsplit
    have hle := m.length_mergeCells_le cell d newId now
    exact absurd hlt (Nat.not_lt.mpr (hle.trans hfits.2))

/-- At least three and at most four members: a cell of five is split, and its half of two is to be merged at
    once. -/
theorem split_asks_for_merge :
    (⟨3, 4, by decide, by decide⟩ : HierarchyMaintainer).needsRebalance
      (crowd ["n1", "n2", "n3", "n4", "n5"]) = .split ∧
    (((⟨3, 4, by decide, by decide⟩ : HierarchyMaintainer).splitCell
      (crowd ["n1", "n2", "n3", "n4", "n5"]) "A" "B" 0).map fun halves =>
        ((⟨3, 4, by decide, by decide⟩ : HierarchyMaintainer).needsRebalance halves.1,
         (⟨3, 4, by decide, by decide⟩ : HierarchyMaintainer).needsRebalance halves.2)) =
      .ok (.merge, .none) := by
  decide

end HierarchyMaintainer

end Peat.Hierarchy
