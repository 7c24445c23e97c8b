/-
  THE ZONE COORDINATOR of hierarchy/ zone_coordinator.rs: when a zone is formed, when it
  degrades, and when it may go over to operations.

  An `f32` is a rational, an infinity or not a number; the last two arise from a cell of
  capacity 0, and every operation rounds. Instants are nanoseconds. The capability
  functions and the metrics are left out.
-/
import Peat.Lib.Rounding
import Peat.Lib.Run
import Peat.Models.Cell

namespace Peat.Hierarchy

open Peat.Lib Peat.Models

/-! ## 1. Readiness -/

inductive F32 where
  | nan
  | negInf
  | finite (q : ℚ)
  | posInf
  deriving DecidableEq, Repr

namespace F32

def lt : F32 → F32 → Bool
  | .nan, _ => false
  | _, .nan => false
  | .negInf, .negInf => false
  | .negInf, _ => true
  | .finite _, .negInf => false
  | .finite a, .finite b => decide (a < b)
  | .finite _, .posInf => true
  | .posInf, _ => false

/-- What an operation makes of its exact result. -/
def ofRat (q : ℚ) : F32 :=
  if 2 ^ 128 ≤ |roundF32 q| then if q < 0 then .negInf else .posInf else .finite (roundF32 q)

def add : F32 → F32 → F32
  | .nan, _ => .nan
  | _, .nan => .nan
  | .negInf, .posInf => .nan
  | .posInf, .negInf => .nan
  | .negInf, _ => .negInf
  | _, .negInf => .negInf
  | .posInf, _ => .posInf
  | _, .posInf => .posInf
  | .finite a, .finite b => ofRat (a + b)

/-- The quotient of two counts, each of them made an `f32` first. -/
def ofCounts (n d : Nat) : F32 :=
  if d = 0 then if n = 0 then .nan else .posInf
  else ofRat (roundF32 n / roundF32 d)

def divCount (a : F32) (d : Nat) : F32 :=
  match a with
  | .finite q => ofRat (q / roundF32 d)
  | .nan => .nan
  | .negInf => .negInf
  | .posInf => .posInf

def clampUnit (a : F32) : F32 :=
  if a.lt (.finite 0) then .finite 0
  else if lt (.finite 1) a then .finite 1
  else a

end F32

/-! ## 2. The coordinator -/

inductive ZoneFormationStatus where
  | forming | ready | degraded
  deriving DecidableEq, Repr

structure ZoneCoordinator where
  zoneId : String
  minCells : Nat
  minReadiness : F32
  status : ZoneFormationStatus
  formationStart : Nat
  deriving DecidableEq, Repr

def stableDuration : Nat := 5000000000

inductive FormationCall where
  | checkFormationComplete (cells : List CellState) (coordinatorId : Option String)
  | updateStatus (cells : List CellState)

namespace ZoneCoordinator

def new (zoneId : String) (minCells : Nat) (minReadiness : F32) (instant : Nat) :
    ZoneCoordinator :=
  ⟨zoneId, minCells, minReadiness.clampUnit, .forming, instant⟩

/-- `member_count / max_size`; a cell without a config counts as one of capacity 1. -/
def cellReadiness (cell : CellState) : F32 :=
  F32.ofCounts cell.members.length ((cell.config.map (·.maxSize)).getD 1)

def calculateAverageReadiness (cells : List CellState) : F32 :=
  if cells.isEmpty then .finite 0
  else ((cells.map cellReadiness).foldl F32.add (.finite 0)).divCount cells.length

def checkFormationComplete (c : ZoneCoordinator) (cells : List CellState)
    (coordinatorId : Option String) : ZoneCoordinator × Bool :=
  if cells.length < c.minCells then ({ c with status := .forming }, false)
  else if coordinatorId.isNone then ({ c with status := .forming }, false)
  else if (calculateAverageReadiness cells).lt c.minReadiness then
    ({ c with status := .forming }, false)
  else ({ c with status := .ready }, true)

def updateStatus (c : ZoneCoordinator) (cells : List CellState) : ZoneCoordinator :=
  if cells.length < c.minCells then
    if c.status = .ready then { c with status := .degraded } else c
  else if (calculateAverageReadiness cells).lt c.minReadiness ∧ c.status = .ready then
    { c with status := .degraded }
  else c

def canTransitionToOperations (c : ZoneCoordinator) (instant : Nat) : Bool :=
  decide (c.status = .ready) && decide (stableDuration ≤ instant - c.formationStart)

def act (c : ZoneCoordinator) : FormationCall → ZoneCoordinator
  | .checkFormationComplete cells coordinatorId => (c.checkFormationComplete cells coordinatorId).1
  | .updateStatus cells => c.updateStatus cells

def Complete (c : ZoneCoordinator) (cells : List CellState) (coordinatorId : Option String) : Prop :=
  c.minCells ≤ cells.length ∧ coordinatorId.isSome ∧
    (calculateAverageReadiness cells).lt c.minReadiness = false

instance (c : ZoneCoordinator) (cells : List CellState) (coordinatorId : Option String) :
    Decidable (c.Complete cells coordinatorId) :=
  inferInstanceAs (Decidable (_ ∧ _ ∧ _))

variable (c : ZoneCoordinator)

theorem checkFormationComplete_eq (cells : List CellState) (coordinatorId : Option String) :
    c.checkFormationComplete cells coordinatorId =
      if c.Complete cells coordinatorId then ({ c with status := .ready }, true)
      else ({ c with status := .forming }, false) := by
  unfold checkFormationComplete
  by_cases hcells : cells.length < c.minCells
  · rw [if_pos hcells, if_neg fun h => absurd hcells (Nat.not_lt.mpr h.1)]
  · rw [if_neg hcells]
    cases coordinatorId with
    | none =>
      rw [if_neg fun h : c.Complete cells none => by simpa using h.2.1]
      rfl
    | some id =>
      by_cases hready : (calculateAverageReadiness cells).lt c.minReadiness = true
      · rw [if_neg fun h : c.Complete cells (some id) =>
          absurd (hready.symm.trans h.2.2) (by decide)]
        simp [hready]
      · rw [if_pos (show c.Complete cells (some id) from
          ⟨Nat.not_lt.mp hcells, rfl, by simpa using hready⟩)]
        simp [hready]

theorem updateStatus_cases (cells : List CellState) :
    c.updateStatus cells = c ∨
      c.status = .ready ∧ c.updateStatus cells = { c with status := .degraded } := by
  unfold updateStatus
  by_cases hcells : cells.length < c.minCells
  · rw [if_pos hcells]
    by_cases hr : c.status = .ready
    · exact Or.inr ⟨hr, if_pos hr⟩
    · exact Or.inl (if_neg hr)
  · rw [if_neg hcells]
    by_cases hr : (calculateAverageReadiness cells).lt c.minReadiness = true ∧ c.status = .ready
    · exact Or.inr ⟨hr.2, if_pos hr⟩
    · exact Or.inl (if_neg hr)

theorem formationStart_act (call : FormationCall) :
    (c.act call).formationStart = c.formationStart := by
  cases call with
  | checkFormationComplete cells coordinatorId =>
    show (c.checkFormationComplete cells coordinatorId).1.formationStart = _
    rw [checkFormationComplete_eq]
    split <;> rfl
  | updateStatus cells =>
    show (c.updateStatus cells).formationStart = _
    rcases c.updateStatus_cases cells with h | ⟨_, h⟩ <;> rw [h]

def Completes (c : ZoneCoordinator) : FormationCall → Prop
  | .checkFormationComplete cells coordinatorId =>
    c.status ≠ .ready ∧ c.Complete cells coordinatorId
  | .updateStatus _ => False

theorem Completes.not_ready {c : ZoneCoordinator} {call : FormationCall} (h : c.Completes call) :
    c.status ≠ .ready := by
  cases call with
  | checkFormationComplete cells coordinatorId => exact h.1
  | updateStatus cells => exact h.elim

theorem becomes_ready_iff {c : ZoneCoordinator} (hc : c.status ≠ .ready) (call : FormationCall) :
    (c.act call).status = .ready ↔ c.Completes call := by
  cases call with
  | checkFormationComplete cells coordinatorId =>
    show (c.checkFormationComplete cells coordinatorId).1.status = _ ↔ _ ∧ _
    rw [checkFormationComplete_eq]
    by_cases h : c.Complete cells coordinatorId
    · rw [if_pos h]
      exact ⟨fun _ => ⟨hc, h⟩, fun _ => rfl⟩
    · rw [if_neg h]
      exact ⟨fun e => (by cases e), fun e => absurd e.2 h⟩
  | updateStatus cells =>
    show (c.updateStatus cells).status = _ ↔ False
    rcases c.updateStatus_cases cells with h | ⟨hr, _⟩
    · rw [h]
      exact ⟨hc, False.elim⟩
    · exact absurd hr hc

end ZoneCoordinator

/-! ## 3. Since when the zone has been ready -/

/-- The coordinator on a clock, and since when it is ready. -/
structure FormationJournal where
  coordinator : ZoneCoordinator
  clock : Nat
  readySince : Option Nat

namespace FormationJournal

def created (c : ZoneCoordinator) : FormationJournal := ⟨c, c.formationStart, none⟩

def step (j : FormationJournal) (call : Nat × FormationCall) : FormationJournal :=
  ⟨j.coordinator.act call.2, call.1,
    if (j.coordinator.act call.2).status = .ready then some (j.readySince.getD call.1) else none⟩

/-- The clock does not go back. -/
def InOrder (j : FormationJournal) (call : Nat × FormationCall) : Prop := j.clock ≤ call.1

instance (j : FormationJournal) (call : Nat × FormationCall) : Decidable (j.InOrder call) :=
  inferInstanceAs (Decidable (_ ≤ _))

structure Inv (j : FormationJournal) : Prop where
  ready_iff : j.coordinator.status = .ready ↔ j.readySince.isSome = true
  since_le : ∀ since, j.readySince = some since → since ≤ j.clock
  start_le : j.coordinator.formationStart ≤ j.clock

variable {c : ZoneCoordinator} {call : Nat × FormationCall}

theorem inv_created (h : c.status ≠ .ready) : (created c).Inv :=
  ⟨⟨fun e => absurd e h, fun e => (by cases e)⟩, fun _ e => (by cases e), Nat.le_refl _⟩

variable {j : FormationJournal} {calls : List (Nat × FormationCall)}

theorem Inv.step (h : j.Inv) (ho : j.InOrder call) : (j.step call).Inv := by
  refine ⟨?_, ?_, ?_⟩
  · show _ ↔ (ite _ _ _ : Option Nat).isSome = true
    split <;> simp [*, FormationJournal.step]
  · intro since hs
    have hs' : (if (j.coordinator.act call.2).status = .ready then
        some (j.readySince.getD call.1) else none) = some since := hs
    show since ≤ call.1
    split at hs'
    · obtain rfl := Option.some.inj hs'
      cases hr : j.readySince with
      | none => exact Nat.le_refl _
      | some s => exact (h.since_le s hr).trans ho
    · cases hs'
  · show (j.coordinator.act call.2).formationStart ≤ call.1
    rw [ZoneCoordinator.formationStart_act]
    exact h.start_le.trans ho

theorem readySince_step (j : FormationJournal) (call : Nat × FormationCall) :
    (j.step call).readySince =
      if (j.step call).coordinator.status = .ready then some (j.readySince.getD call.1)
      else none := rfl

/-- Ready since a call at or before the instant. -/
def ReadyBy (j : FormationJournal) (calls : List (Nat × FormationCall)) (instant : Nat) : Prop :=
  ∃ pre call post, calls = pre ++ call :: post ∧ call.1 ≤ instant ∧
    ∀ mid, mid <+: post → (run step j (pre ++ call :: mid)).coordinator.status = .ready

theorem readyBy_of_readySince (hj : j.readySince = none) {since : Nat}
    (h : (run step j calls).readySince = some since) : j.ReadyBy calls since := by
  induction calls using List.reverseRecOn generalizing since with
  | nil =>
    rw [run_nil, hj] at h
    cases h
  | append_singleton calls call ih =>
    rw [run_concat, readySince_step] at h
    split at h
    · rename_i hready
      cases hs : (run step j calls).readySince with
      | none =>
        -- the zone became ready with this call
        rw [hs] at h
        refine ⟨calls, call, [], rfl, Nat.le_of_eq (Option.some.inj h), fun mid hmid => ?_⟩
        rw [List.prefix_nil.mp hmid, run_concat]
        exact hready
      | some since' =>
        rw [hs] at h
        obtain rfl : since' = since := Option.some.inj h
        obtain ⟨pre, first, post, rfl, hle, hall⟩ := ih hs
        refine ⟨pre, first, post ++ [call], by simp, hle, fun mid hmid => ?_⟩
        rcases List.prefix_concat_iff.mp hmid with rfl | hmid
        · have happend : pre ++ first :: (post ++ [call]) = (pre ++ first :: post) ++ [call] := by
            simp
          rw [happend, run_concat]
          exact hready
        · exact hall mid hmid
    · cases h

theorem readySince_of_readyBy (hj : j.Inv) (ho : RunMeets step InOrder j calls) {instant : Nat}
    (h : j.ReadyBy calls instant) :
    ∃ since, (run step j calls).readySince = some since ∧ since ≤ instant := by
  obtain ⟨pre, call, post, rfl, hle, hall⟩ := h
  obtain ⟨hpre, hcall, -⟩ := (runMeets_append pre (call :: post)).mp ho
  have hinv : (run step j pre).Inv :=
    runMeets_invariant Inv (fun _ _ hc hi => hi.step hc) hpre hj
  clear ho
  induction post using List.reverseRecOn with
  | nil =>
    have hready := hall [] (List.nil_prefix)
    rw [run_concat] at hready ⊢
    refine ⟨_, by rw [readySince_step, if_pos hready], ?_⟩
    cases hs : (run step j pre).readySince with
    | none => exact hle
    | some since => exact ((hinv.since_le since hs).trans hcall).trans hle
  | append_singleton post last ih =>
    obtain ⟨since, hs, hsle⟩ := ih fun mid hmid => hall mid (hmid.trans (List.prefix_append _ _))
    have happend : pre ++ call :: (post ++ [last]) = (pre ++ call :: post) ++ [last] := by simp
    have hready := hall (post ++ [last]) (List.prefix_refl _)
    rw [happend, run_concat] at hready ⊢
    refine ⟨since, ?_, hsle⟩
    rw [readySince_step, if_pos hready, hs]
    rfl

theorem readySince_iff (hc : c.status ≠ .ready) (ho : RunMeets step InOrder (created c) calls)
    (instant : Nat) :
    (created c).ReadyBy calls instant ↔
      ∃ since, (run step (created c) calls).readySince = some since ∧ since ≤ instant := by
  constructor
  · exact readySince_of_readyBy (inv_created hc) ho
  · rintro ⟨since, hs, hle⟩
    obtain ⟨pre, call, post, e, hcall, hall⟩ := readyBy_of_readySince rfl hs
    exact ⟨pre, call, post, e, hcall.trans hle, hall⟩

/-! ## 4. Stability before operations -/

def Stable (j : FormationJournal) : Prop :=
  ∀ t, j.clock ≤ t → j.coordinator.canTransitionToOperations t = true →
    ∃ since, j.readySince = some since ∧ since + stableDuration ≤ t

/-- The formation is found complete no later than it started. -/
def CompletesAtOnce (j : FormationJournal) (call : Nat × FormationCall) : Prop :=
  j.coordinator.Completes call.2 → call.1 ≤ j.coordinator.formationStart

theorem canTransition_iff (c : ZoneCoordinator) (t : Nat) :
    c.canTransitionToOperations t = true ↔
      c.status = .ready ∧ c.formationStart + stableDuration ≤ t := by
  unfold ZoneCoordinator.canTransitionToOperations stableDuration
  simp only [Bool.and_eq_true, decide_eq_true_eq]
  constructor
  · rintro ⟨h, hle⟩
    exact ⟨h, by omega⟩
  · rintro ⟨h, hle⟩
    exact ⟨h, by omega⟩

theorem stable_step_iff (ho : j.InOrder call) (hi : j.Inv) (hs : j.Stable) :
    (j.step call).Stable ↔ j.CompletesAtOnce call := by
  have hstart : (j.step call).coordinator.formationStart = j.coordinator.formationStart :=
    ZoneCoordinator.formationStart_act _ _
  have hle : j.coordinator.formationStart ≤ call.1 := hi.start_le.trans ho
  by_cases hready : (j.step call).coordinator.status = .ready
  · have hsince := j.readySince_step call
    rw [if_pos hready] at hsince
    by_cases hbefore : j.coordinator.status = .ready
    · -- it was ready before: the instant stays, and the time has only passed
      refine iff_of_true (fun t ht hcan => ?_) fun hcompletes => absurd hbefore hcompletes.not_ready
      obtain ⟨-, hage⟩ := (canTransition_iff _ t).mp hcan
      rw [hstart] at hage
      obtain ⟨since, hr, hold⟩ := hs t (Nat.le_trans ho ht)
        ((canTransition_iff _ t).mpr ⟨hbefore, hage⟩)
      refine ⟨since, ?_, hold⟩
      rw [hsince, hr]
      rfl
    · -- it becomes ready with this call
      have hnone : j.readySince = none :=
        Option.not_isSome_iff_eq_none.mp fun h => hbefore (hi.ready_iff.mpr h)
      rw [hnone] at hsince
      have hcompletes := (ZoneCoordinator.becomes_ready_iff hbefore call.2).mp hready
      constructor
      · intro hstable _
        -- asked as soon as the five seconds from the creation are over
        obtain ⟨since, hr, hage⟩ := hstable
          (max call.1 (j.coordinator.formationStart + stableDuration)) (Nat.le_max_left _ _)
          ((canTransition_iff _ _).mpr ⟨hready, by rw [hstart]; exact Nat.le_max_right _ _⟩)
        obtain rfl : call.1 = since := Option.some.inj (hsince.symm.trans hr)
        have hpos : 0 < stableDuration := by decide
        omega
      · intro hatOnce t ht hcan
        obtain ⟨-, hage⟩ := (canTransition_iff _ t).mp hcan
        rw [hstart] at hage
        refine ⟨call.1, hsince, ?_⟩
        have hlate := hatOnce hcompletes
        omega
  · refine iff_of_true (fun t ht hcan => ?_) fun hcompletes => ?_
    · exact absurd ((canTransition_iff _ t).mp hcan).1 hready
    · have hbecomes := ZoneCoordinator.becomes_ready_iff hcompletes.not_ready call.2
      exact absurd (hbecomes.mpr hcompletes) hready

/-- **Stability before operations.** Whenever the zone may go over to operations it has been ready for five
    seconds without interruption, exactly when a formation is completed only at the instant the coordinator
    was created. -/
theorem stable_before_operations_iff (zoneId : String) (minCells : Nat) (minReadiness : F32)
    (instant : Nat) (calls : List (Nat × FormationCall))
    (ho : RunMeets step InOrder (created (.new zoneId minCells minReadiness instant)) calls) :
    (∀ pre, pre <+: calls → ∀ t,
      (run step (created (.new zoneId minCells minReadiness instant)) pre).clock ≤ t →
      (run step (created (.new zoneId minCells minReadiness instant))
        pre).coordinator.canTransitionToOperations t = true →
      stableDuration ≤ t ∧
        (created (.new zoneId minCells minReadiness instant)).ReadyBy pre (t - stableDuration)) ↔
    RunMeets step CompletesAtOnce (created (.new zoneId minCells minReadiness instant)) calls := by
  have hnew : (ZoneCoordinator.new zoneId minCells minReadiness instant).status ≠ .ready := by
    intro e
    cases e
  rw [← run_within_iff_of_meets Inv Stable (fun _ _ hd hi => hi.step hd)
    (fun _ _ hd hi hs => stable_step_iff hd hi hs) ho (inv_created hnew)
    (fun t _ hcan => absurd ((canTransition_iff _ t).mp hcan).1 hnew)]
  refine forall₂_congr fun pre hpre => forall₂_congr fun t ht => imp_congr_right fun _ => ?_
  rw [readySince_iff hnew (runMeets_initial ho hpre)]
  constructor
  · rintro ⟨hage, since, hr, hle⟩
    exact ⟨since, hr, by omega⟩
  · rintro ⟨since, hr, hle⟩
    exact ⟨by omega, since, hr, by omega⟩

def promptCalls : List (Nat × FormationCall) :=
  [(0, .checkFormationComplete [CellState.new (CellConfig.withId "cell_1" 4 0) 0] (some "leader")),
   (2000000000, .updateStatus [])]

theorem stable_before_operations_prompt :
    (∀ pre, pre <+: promptCalls → ∀ t,
      (run step (created (.new "zone_1" 1 (.finite 0) 0)) pre).clock ≤ t →
      (run step (created (.new "zone_1" 1 (.finite 0) 0))
        pre).coordinator.canTransitionToOperations t = true →
      stableDuration ≤ t ∧
        (created (.new "zone_1" 1 (.finite 0) 0)).ReadyBy pre (t - stableDuration)) ↔
    RunMeets step CompletesAtOnce (created (.new "zone_1" 1 (.finite 0) 0)) promptCalls :=
  stable_before_operations_iff "zone_1" 1 (.finite 0) 0 promptCalls (by decide)

/-- A zone created at 0 and complete only at 10 s may go over to operations in that very instant. -/
theorem operations_at_once :
    let calls := [(10000000000, FormationCall.checkFormationComplete
      [CellState.new (CellConfig.withId "cell_1" 4 0) 0] (some "leader"))]
    let j := created (.new "zone_1" 1 (.finite 0) 0)
    RunMeets step InOrder j calls ∧
    (run step j calls).coordinator.canTransitionToOperations 10000000000 = true ∧
    (run step j calls).readySince = some 10000000000 ∧
    ¬ j.ReadyBy calls (10000000000 - stableDuration) := by
  refine ⟨by decide, by decide +kernel, by decide +kernel, ?_⟩
  rintro ⟨pre, call, post, e, hle, -⟩
  have hmem : call ∈ [(10000000000, FormationCall.checkFormationComplete
      [CellState.new (CellConfig.withId "cell_1" 4 0) 0] (some "leader"))] := by
    rw [e]
    exact List.mem_append_cons_self
  rw [List.mem_singleton.mp hmem] at hle
  exact absurd hle (by decide)

end FormationJournal

end Peat.Hierarchy
