/-
  CONCURRENT OPERATIONS ON ONE STORED CELL: whether an operation that returned `Ok` can
  be lost.

  Every operation is a query and, later, an upsert of the whole cell; between the two
  any other operation may make its steps. A query or an upsert may fail.
-/
import Peat.Lib.Run
import Peat.Storage.CellStore

namespace Peat.Storage

open Peat.Lib Peat.Models

/-! ## 1. Interleavings -/

/-- The store, the drafts of calls in progress, and the requests done, newest first. -/
structure CellPool (cellId : String) where
  store : CellStore
  drafts : Nat → Option (Draft cellId)
  finished : List CellRequest

inductive PoolStep where
  | query (i : Nat) (r : CellRequest) (now : Nat) (failure : Option String)
  | upsert (i : Nat) (answers : Answers)

namespace CellPool

variable {cellId : String}

def start (cellId : String) (store : CellStore) : CellPool cellId := ⟨store, fun _ => none, []⟩

def step (s : CellPool cellId) : PoolStep → CellPool cellId
  | .query i r now failure =>
    match s.drafts i, s.store.draft cellId r now failure with
    | none, .ok d => { s with drafts := fun j => if j = i then some d else s.drafts j }
    | _, _ => s
  | .upsert i answers =>
    match s.drafts i with
    | none => s
    | some d =>
      match s.store.storeCell d.written answers with
      | .error _ => { s with drafts := fun j => if j = i then none else s.drafts j }
      | .ok (_, store) =>
        { store := store
          drafts := fun j => if j = i then none else s.drafts j
          finished := d.request :: s.finished }

theorem run_perform (store store' : CellStore) (r : CellRequest) (now : Nat) (answers : Answers)
    (h : store.perform cellId r now answers = .ok store') :
    (run step (start cellId store) [.query 0 r now answers.query, .upsert 0 answers]).store = store' := by
  unfold CellStore.perform at h
  split at h
  · cases h
  · rename_i d hd
    split at h
    · cases h
    · rename_i hstore
      cases h
      simp only [run_cons, run_nil, start, step, hd, if_true, hstore]

/-! ## 2. What an operation asks for -/

end CellPool

def CellRequest.Reflected (cell : CellState) : CellRequest → Prop
  | .addMember nodeId => nodeId ∈ cell.members
  | .removeMember nodeId => nodeId ∉ cell.members
  | .setLeader nodeId => cell.leaderId = some nodeId
  | .addCapability capability => capability.id ∈ cell.capabilities.map Capability.id

/-- The later operation is on the same member, leader or capability. The removal of a member is also
    one on the leader it was. -/
def CellRequest.Supersedes (later earlier : CellRequest) : Prop :=
  match later, earlier with
  | .addMember x, .addMember y => x = y
  | .addMember x, .removeMember y => x = y
  | .removeMember x, .addMember y => x = y
  | .removeMember x, .removeMember y => x = y
  | .removeMember x, .setLeader y => x = y
  | .setLeader _, .setLeader _ => True
  | .addCapability c, .addCapability c' => c.id = c'.id
  | _, _ => False

instance (cell : CellState) (r : CellRequest) : Decidable (r.Reflected cell) :=
  match r with
  | .addMember _ => inferInstanceAs (Decidable (_ ∈ _))
  | .removeMember _ => inferInstanceAs (Decidable (_ ∉ _))
  | .setLeader _ => inferInstanceAs (Decidable (_ = _))
  | .addCapability _ => inferInstanceAs (Decidable (_ ∈ _))

namespace CellRequest

variable {r a : CellRequest} {now : Nat} {read written : CellState}

theorem reflected_edit_iff (h : r.edit now read = .ok written) (hframe : ¬ r.Supersedes a) :
    a.Reflected written ↔ a.Reflected read := by
  obtain ⟨x, rfl, -, rfl⟩ | ⟨x, rfl, rfl⟩ | ⟨x, rfl, rfl⟩ | ⟨c, rfl, ⟨-, rfl⟩ | rfl⟩ := edit_cases h
  · cases a with
    | addMember y | removeMember y =>
      have hne : ¬ y = x := fun e => hframe e.symm
      simp [Reflected, hne]
    | setLeader y => exact Iff.rfl
    | addCapability c => exact Iff.rfl
  · cases a with
    | addMember y | removeMember y =>
      have hne : y ≠ x := fun e => hframe e.symm
      simp [Reflected, List.mem_erase_of_ne hne]
    | setLeader y =>
      have hne : ¬ x = y := hframe
      show (if read.leaderId = some x then none else read.leaderId) = some y ↔ read.leaderId = some y
      split
      · rename_i hleader
        rw [hleader]
        simp [hne]
      · exact Iff.rfl
    | addCapability c => exact Iff.rfl
  · cases a with
    | setLeader y => exact absurd trivial hframe
    | addMember y | removeMember y | addCapability c => exact Iff.rfl
  · exact Iff.rfl
  · cases a with
    | addCapability c' =>
      have hne : ¬ c'.id = c.id := fun e => hframe e.symm
      simp [Reflected, hne]
    | addMember y | removeMember y | setLeader y => exact Iff.rfl

def ListedOnce (read : CellState) : CellRequest → Prop
  | .removeMember nodeId => nodeId ∉ read.members.erase nodeId
  | _ => True

theorem reflected_own_iff (h : r.edit now read = .ok written) :
    r.Reflected written ↔ r.ListedOnce read := by
  obtain ⟨x, rfl, -, rfl⟩ | ⟨x, rfl, rfl⟩ | ⟨x, rfl, rfl⟩ | ⟨c, rfl, ⟨hc, rfl⟩ | rfl⟩ := edit_cases h
  · exact iff_of_true List.mem_concat_self trivial
  · exact Iff.rfl
  · exact iff_of_true rfl trivial
  · exact iff_of_true hc trivial
  · refine iff_of_true ?_ trivial
    simp [Reflected]

end CellRequest

/-- No later request supersedes it. -/
def Standing (finished : List CellRequest) (a : CellRequest) : Prop :=
  ∃ later earlier, finished = later ++ a :: earlier ∧ ∀ r ∈ later, ¬ r.Supersedes a

theorem standing_cons_iff {finished : List CellRequest} {r a : CellRequest} :
    Standing (r :: finished) a ↔ a = r ∨ Standing finished a ∧ ¬ r.Supersedes a := by
  constructor
  · rintro ⟨later, earlier, hsplit, hlater⟩
    cases later with
    | nil => exact Or.inl (List.cons.inj hsplit).1.symm
    | cons r' later =>
      obtain ⟨rfl, hrest⟩ := List.cons.inj hsplit
      obtain ⟨hr, hlater'⟩ := List.forall_mem_cons.mp hlater
      exact Or.inr ⟨⟨later, earlier, hrest, hlater'⟩, hr⟩
  · rintro (rfl | ⟨⟨later, earlier, rfl, hlater⟩, hr⟩)
    · exact ⟨[], finished, rfl, nofun⟩
    · exact ⟨r :: later, earlier, rfl, List.forall_mem_cons.mpr ⟨hr, hlater⟩⟩

/-! ## 3. No lost update -/

namespace CellPool

variable {cellId : String}

/-- Every finished request that no later one supersedes shows in the store. -/
def Kept (s : CellPool cellId) : Prop :=
  ∀ a, Standing s.finished a → ∃ cell, s.store.find cellId = some cell ∧ a.Reflected cell

/-- What an operation has read is up to date when it writes: it shows every finished operation that is
    not superseded, by this one either; and a member it removes is listed once. -/
def UpToDate (s : CellPool cellId) : PoolStep → Prop
  | .query _ _ _ _ => True
  | .upsert i answers =>
    ∀ d, s.drafts i = some d → answers.upsert = none →
      d.request.ListedOnce d.read ∧
      ∀ a, Standing s.finished a → ¬ d.request.Supersedes a → a.Reflected d.read

variable (s : CellPool cellId)

theorem step_upsert_cases (i : Nat) (answers : Answers) :
    ((∀ d, s.drafts i = some d → answers.upsert ≠ none) ∧
      (s.step (.upsert i answers)).store = s.store ∧
      (s.step (.upsert i answers)).finished = s.finished) ∨
    ∃ d, s.drafts i = some d ∧ answers.upsert = none ∧
      (s.step (.upsert i answers)).store = s.store.put d.written answers.generatedId ∧
      (s.step (.upsert i answers)).finished = d.request :: s.finished := by
  rw [step]
  cases hd : s.drafts i with
  | none =>
    have hnone : ∀ d, (none : Option (Draft cellId)) = some d → answers.upsert ≠ none := by
      intro d hd
      cases hd
    exact Or.inl ⟨hnone, rfl, rfl⟩
  | some d =>
    unfold CellStore.storeCell
    cases hup : answers.upsert with
    | some e => exact Or.inl ⟨fun _ _ => Option.some_ne_none e, rfl, rfl⟩
    | none => exact Or.inr ⟨d, rfl, rfl, rfl, rfl⟩

theorem kept_put_iff {store : CellStore} {finished : List CellRequest}
    {drafts : Nat → Option (Draft cellId)} (d : Draft cellId) (generatedId : String) :
    (⟨store.put d.written generatedId, drafts, d.request :: finished⟩ : CellPool cellId).Kept ↔
      d.request.ListedOnce d.read ∧
        ∀ a, Standing finished a → ¬ d.request.Supersedes a → a.Reflected d.read := by
  have hshown : ∀ a : CellRequest,
      (∃ cell, (store.put d.written generatedId).find cellId = some cell ∧ a.Reflected cell) ↔
        a.Reflected d.written := by
    intro a
    rw [store.find_put_draft d generatedId]
    exact ⟨fun ⟨cell, hcell, ha⟩ => (Option.some.inj hcell) ▸ ha, fun ha => ⟨_, rfl, ha⟩⟩
  unfold Kept
  simp only [hshown, standing_cons_iff]
  constructor
  · intro h
    refine ⟨(CellRequest.reflected_own_iff d.written_eq).mp (h d.request (Or.inl rfl)), ?_⟩
    intro a ha hframe
    exact (CellRequest.reflected_edit_iff d.written_eq hframe).mp (h a (Or.inr ⟨ha, hframe⟩))
  · rintro ⟨hown, hothers⟩ a (rfl | ⟨ha, hframe⟩)
    · exact (CellRequest.reflected_own_iff d.written_eq).mpr hown
    · exact (CellRequest.reflected_edit_iff d.written_eq hframe).mpr (hothers a ha hframe)

theorem kept_congr {s s' : CellPool cellId} (hstore : s'.store = s.store)
    (hfinished : s'.finished = s.finished) : s'.Kept ↔ s.Kept := by
  unfold Kept
  rw [hstore, hfinished]

theorem kept_query (i : Nat) (r : CellRequest) (now : Nat) (failure : Option String) :
    (s.step (.query i r now failure)).Kept ↔ s.Kept := by
  rw [step]
  split
  · exact kept_congr rfl rfl
  · exact Iff.rfl

theorem kept_step_iff (op : PoolStep) (h : s.Kept) : (s.step op).Kept ↔ s.UpToDate op := by
  cases op with
  | query i r now failure => exact iff_of_true ((s.kept_query i r now failure).mpr h) trivial
  | upsert i answers =>
    obtain ⟨hnone, hstore, hfinished⟩ | ⟨d, hd, hup, hstore, hfinished⟩ := s.step_upsert_cases i answers
    · refine iff_of_true ((kept_congr hstore hfinished).mpr h) fun d hd hup => ?_
      exact absurd hup (hnone d hd)
    · have hcongr : (s.step (.upsert i answers)).Kept ↔
          (⟨s.store.put d.written answers.generatedId, s.drafts, d.request :: s.finished⟩ :
            CellPool cellId).Kept := kept_congr hstore hfinished
      rw [hcongr, kept_put_iff]
      constructor
      · rintro hkept d' hd' -
        rw [hd] at hd'
        cases hd'
        exact hkept
      · intro hup'
        exact hup' d hd hup

/-- **No lost update, over every interleaving**: every operation that returned `Ok` shows in the stored cell
    unless a later one superseded it, exactly when every upsert is of a cell that was read up to date. -/
theorem cell_updates_kept_iff (cellId : String) (store : CellStore) (ops : List PoolStep) :
    (∀ pre, pre <+: ops → (run step (start cellId store) pre).Kept) ↔
      RunMeets step UpToDate (start cellId store) ops := by
  have hstart : (start cellId store).Kept := by
    rintro a ⟨later, earlier, hsplit, -⟩
    cases later <;> cases hsplit
  exact run_within_iff Kept kept_step_iff hstart

def sampleStore : CellStore :=
  CellStore.empty.put (CellState.new (CellConfig.withId "alpha" 5 0) 0) ""

def allWell : Answers := ⟨none, none, ""⟩

/-- Two nodes join at the same time: both calls return `Ok`, and the first node is not a member. -/
theorem concurrent_join_lost :
    let s := run step (start "alpha" sampleStore)
      [.query 0 (.addMember "n1") 1 none, .query 1 (.addMember "n2") 1 none, .upsert 0 allWell,
        .upsert 1 allWell]
    ¬ s.Kept ∧ s.finished = [.addMember "n2", .addMember "n1"] ∧
      (s.store.find "alpha").map CellState.members = some ["n2"] := by
  have hfinished : (run step (start "alpha" sampleStore)
      [.query 0 (.addMember "n1") 1 none, .query 1 (.addMember "n2") 1 none, .upsert 0 allWell,
        .upsert 1 allWell]).finished = [.addMember "n2", .addMember "n1"] := by decide +kernel
  refine ⟨fun h => ?_, hfinished, by decide +kernel⟩
  have hstanding : Standing [.addMember "n2", .addMember "n1"] (.addMember "n1") := by
    refine ⟨[.addMember "n2"], [], rfl, fun r hr => ?_⟩
    rw [List.mem_singleton.mp hr]
    exact (by decide : ¬ "n2" = "n1")
  obtain ⟨cell, hcell, hmember⟩ := h (.addMember "n1") (hfinished ▸ hstanding)
  have hmembers : (some cell).map CellState.members = some ["n2"] := by
    rw [← hcell]
    decide +kernel
  have hmem : "n1" ∈ cell.members := hmember
  rw [Option.some.inj hmembers] at hmem
  exact absurd hmem (by decide)

end CellPool

end Peat.Storage
