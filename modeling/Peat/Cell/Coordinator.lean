/-
  THE FORMATION GATE (cell/coordinator.rs): when a cell may leave formation, and the
  human approval it may need for that.

  The gate is the stored status alone. A check that finds no leader or a missing role
  returns before it writes the status, and no check takes an approval back. Readiness
  scores (`f32`) are rationals, rounded as they are computed; clock readings are inputs.
-/
import Peat.Cell.CapabilityAggregation
import Peat.Cell.Messaging

namespace Peat.Cell

open Peat.Lib Peat.Models

/-! ## 1. The coordinator -/

inductive FormationStatus where
  | forming
  | awaitingApproval
  | ready
  | failed (reason : String)
  deriving DecidableEq, Repr

/-- `Error::InvalidTransition`; the text of `from` is the `Debug` form of the status. -/
structure FormationError where
  fromStatus : FormationStatus
  toState : String
  reason : String
  deriving DecidableEq, Repr

abbrev FormationMember := NodeConfig × NodeState × Option CellRole

def membersForAgg (members : List FormationMember) : List Member := members.map fun m => (m.1, m.2.1)

structure CellCoordinator where
  cellId : String
  minSize : Nat
  minReadiness : ℚ
  requiredCapabilities : List CapabilityType
  status : FormationStatus
  humanApproved : Bool
  formationStart : Nat
  formationComplete : Option Nat

def debugCapabilityType : CapabilityType → String
  | .unspecified => "Unspecified"
  | .sensor => "Sensor"
  | .compute => "Compute"
  | .communication => "Communication"
  | .mobility => "Mobility"
  | .payload => "Payload"
  | .emergent => "Emergent"

def roundHalfEven (x : ℚ) : Nat :=
  let floor := x.floor.toNat
  let rest := x - floor
  if rest < 1 / 2 then floor else if 1 / 2 < rest then floor + 1 else floor + floor % 2

def formatTwoDecimals (x : ℚ) : String :=
  let hundredths := roundHalfEven (|x| * 100)
  (if x < 0 then "-" else "") ++ toString (hundredths / 100) ++ "." ++
    toString (hundredths / 10 % 10) ++ toString (hundredths % 10)

namespace CellCoordinator

def new (cellId : String) (now : Nat) : CellCoordinator where
  cellId := cellId
  minSize := 3
  minReadiness := roundF32 (7 / 10)
  requiredCapabilities := [.communication, .sensor]
  status := .forming
  humanApproved := false
  formationStart := now
  formationComplete := none

def needsHumanApproval (capabilities : HashMap CapabilityType AggregatedCapability) : Bool :=
  capabilities.entries.any fun e => e.2.requiresOversight

def makeReady (c : CellCoordinator) (now : Nat) : CellCoordinator :=
  { c with status := .ready, formationComplete := some (c.formationComplete.getD now) }

def checkCapabilities (c : CellCoordinator)
    (capabilities : HashMap CapabilityType AggregatedCapability) (now : Nat) : CellCoordinator × Bool :=
  let gaps := identifyGaps capabilities c.requiredCapabilities
  let readiness := calculateReadinessScore capabilities
  if gaps ≠ [] then
    ({ c with status := .failed ("Missing required capabilities: [" ++
      ", ".intercalate (gaps.map debugCapabilityType) ++ "]") }, false)
  else if readiness < c.minReadiness then
    ({ c with status := .failed ("Insufficient readiness: " ++ formatTwoDecimals readiness ++ " < " ++
      formatTwoDecimals c.minReadiness) }, false)
  else if needsHumanApproval capabilities && !c.humanApproved then
    ({ c with status := .awaitingApproval }, false)
  else (c.makeReady now, true)

def checkFormationComplete (c : CellCoordinator) (members : List FormationMember)
    (leaderId : Option String) (now : Nat) : CellCoordinator × Except AggregationError Bool :=
  if members.length < c.minSize then
    ({ c with status := .failed ("Insufficient members: " ++ toString members.length ++ " < " ++
      toString c.minSize) }, .ok false)
  else if leaderId.isNone then (c, .ok false)
  else if 0 < (members.filter fun m => m.2.2.isNone).length then (c, .ok false)
  else
    match aggregateCapabilities (membersForAgg members) with
    | .error e => (c, .error e)
    | .ok capabilities =>
      ((c.checkCapabilities capabilities now).1, .ok (c.checkCapabilities capabilities now).2)

def approveFormation (c : CellCoordinator) (now : Nat) : CellCoordinator × Except FormationError Unit :=
  if c.status ≠ .awaitingApproval then
    (c, .error ⟨c.status, "Ready", "Cannot approve formation not awaiting approval"⟩)
  else (({ c with humanApproved := true } : CellCoordinator).makeReady now, .ok ())

def rejectFormation (c : CellCoordinator) (reason : String) :
    CellCoordinator × Except FormationError Unit :=
  if c.status ≠ .awaitingApproval then
    (c, .error ⟨c.status, "Failed", "Cannot reject formation not awaiting approval"⟩)
  else ({ c with status := .failed ("Human rejected: " ++ reason) }, .ok ())

def canTransitionToHierarchical (c : CellCoordinator) : Bool := c.status == .ready

def reset (c : CellCoordinator) (now : Nat) : CellCoordinator :=
  { c with status := .forming, humanApproved := false, formationComplete := none, formationStart := now }

/-! ## 2. What a check can do -/

def Aggregates (members : List FormationMember)
    (capabilities : HashMap CapabilityType AggregatedCapability) : Prop :=
  aggregateCapabilities (membersForAgg members) = .ok capabilities

/-- **The formation criteria**: size, leader, roles, required capabilities and readiness. -/
structure MeetsCriteria (c : CellCoordinator) (members : List FormationMember)
    (leaderId : Option String) : Prop where
  size : c.minSize ≤ members.length
  leader : leaderId.isSome = true
  roles : ∀ m ∈ members, m.2.2.isSome = true
  capable : ∃ capabilities, Aggregates members capabilities ∧
    identifyGaps capabilities c.requiredCapabilities = [] ∧
    c.minReadiness ≤ calculateReadinessScore capabilities

def RequireOversight (members : List FormationMember) : Prop :=
  ∃ capabilities, Aggregates members capabilities ∧ needsHumanApproval capabilities = true

instance (members : List FormationMember) : Decidable (RequireOversight members) :=
  match h : aggregateCapabilities (membersForAgg members) with
  | .ok capabilities => decidable_of_iff (needsHumanApproval capabilities = true)
      ⟨fun hneeds => ⟨capabilities, h, hneeds⟩, fun ⟨_, hother, hneeds⟩ =>
        Except.ok.inj (h.symm.trans hother) ▸ hneeds⟩
  | .error _ => isFalse fun ⟨_, hother, _⟩ => nomatch h.symm.trans hother

def Stalls (c : CellCoordinator) (members : List FormationMember) (leaderId : Option String) : Prop :=
  c.minSize ≤ members.length ∧ (leaderId = none ∨ ∃ m ∈ members, m.2.2 = none)

variable {c : CellCoordinator} {members : List FormationMember}

theorem Stalls.not_meets {leaderId : Option String} (h : c.Stalls members leaderId) :
    ¬ c.MeetsCriteria members leaderId := by
  intro hmeets
  rcases h.2 with hnone | ⟨m, hm, hnone⟩
  · have := hmeets.leader
    rw [hnone] at this
    cases this
  · have := hmeets.roles m hm
    rw [hnone] at this
    cases this

theorem checkCapabilities_cases (c : CellCoordinator)
    (capabilities : HashMap CapabilityType AggregatedCapability) (now : Nat) :
    (¬ (identifyGaps capabilities c.requiredCapabilities = [] ∧
        c.minReadiness ≤ calculateReadinessScore capabilities) ∧
      ∃ reason, (c.checkCapabilities capabilities now).1 = { c with status := .failed reason }) ∨
    (identifyGaps capabilities c.requiredCapabilities = [] ∧
      c.minReadiness ≤ calculateReadinessScore capabilities ∧
      ((needsHumanApproval capabilities = true ∧ c.humanApproved = false ∧
          (c.checkCapabilities capabilities now).1 = { c with status := .awaitingApproval }) ∨
        ((needsHumanApproval capabilities = true → c.humanApproved = true) ∧
          (c.checkCapabilities capabilities now).1 = c.makeReady now))) := by
  unfold checkCapabilities
  dsimp only
  by_cases hgaps : identifyGaps capabilities c.requiredCapabilities = []
  · rw [if_neg (not_not_intro hgaps)]
    by_cases hready : calculateReadinessScore capabilities < c.minReadiness
    · rw [if_pos hready]
      exact .inl ⟨fun h => absurd h.2 (not_le.mpr hready), _, rfl⟩
    · rw [if_neg hready]
      refine .inr ⟨hgaps, not_lt.mp hready, ?_⟩
      cases hneeds : needsHumanApproval capabilities with
      | false => exact .inr ⟨nofun, rfl⟩
      | true =>
        cases happroved : c.humanApproved with
        | false => exact .inl ⟨rfl, rfl, rfl⟩
        | true => exact .inr ⟨fun _ => rfl, rfl⟩
  · rw [if_pos hgaps]
    exact .inl ⟨fun h => hgaps h.1, _, rfl⟩

theorem roles_assigned (h : ¬ 0 < (members.filter fun m => m.2.2.isNone).length) :
    ∀ m ∈ members, m.2.2.isSome = true := by
  intro m hm
  by_contra hnot
  have hnone : m.2.2.isNone = true := by simpa using hnot
  exact h (List.length_pos_of_mem (List.mem_filter.mpr ⟨hm, hnone⟩))

theorem not_stalls {leader : String} (hall : ∀ m ∈ members, m.2.2.isSome = true) :
    ¬ c.Stalls members (some leader) := by
  rintro ⟨_, hnone | ⟨m, hm, hnone⟩⟩
  · cases hnone
  · have := hall m hm
    rw [hnone] at this
    cases this

theorem checkFormationComplete_cases (c : CellCoordinator) (members : List FormationMember)
    (leaderId : Option String) (now : Nat) :
    (c.Stalls members leaderId ∧ (c.checkFormationComplete members leaderId now).1 = c) ∨
    (¬ c.Stalls members leaderId ∧ ¬ c.MeetsCriteria members leaderId ∧
      ∃ reason, (c.checkFormationComplete members leaderId now).1 = { c with status := .failed reason }) ∨
    (c.MeetsCriteria members leaderId ∧ RequireOversight members ∧ c.humanApproved = false ∧
      (c.checkFormationComplete members leaderId now).1 = { c with status := .awaitingApproval }) ∨
    (c.MeetsCriteria members leaderId ∧ (RequireOversight members → c.humanApproved = true) ∧
      (c.checkFormationComplete members leaderId now).1 = c.makeReady now) := by
  rw [checkFormationComplete]
  by_cases hsize : members.length < c.minSize
  · rw [if_pos hsize]
    exact .inr (.inl ⟨fun h => absurd h.1 (Nat.not_le.mpr hsize),
      fun h => absurd h.size (Nat.not_le.mpr hsize), _, rfl⟩)
  rw [if_neg hsize]
  have hsize : c.minSize ≤ members.length := Nat.not_lt.mp hsize
  cases leaderId with
  | none => exact .inl ⟨⟨hsize, .inl rfl⟩, rfl⟩
  | some leader =>
    rw [if_neg (show ¬ (some leader).isNone = true from nofun)]
    by_cases hroles : 0 < (members.filter fun m => m.2.2.isNone).length
    · rw [if_pos hroles]
      obtain ⟨m, hm⟩ := List.exists_mem_of_length_pos hroles
      obtain ⟨hmem, hnone⟩ := List.mem_filter.mp hm
      exact .inl ⟨⟨hsize, .inr ⟨m, hmem, Option.isNone_iff_eq_none.mp hnone⟩⟩, rfl⟩
    · rw [if_neg hroles]
      have hall := roles_assigned hroles
      obtain ⟨capabilities, hcaps⟩ := aggregateCapabilities_ok (membersForAgg members)
      rw [hcaps]
      -- the aggregation is a function, so there are no other capabilities
      have hunique : ∀ {other}, Aggregates members other → other = capabilities :=
        fun h => Except.ok.inj (h.symm.trans hcaps)
      rcases checkCapabilities_cases c capabilities now with
        ⟨hlacks, hfailed⟩ | ⟨hgaps, hready, ⟨hneeds, hno, hwait⟩ | ⟨happroved, hok⟩⟩
      · refine .inr (.inl ⟨not_stalls hall, fun hmeets => ?_, hfailed⟩)
        obtain ⟨other, hother, hrest⟩ := hmeets.capable
        rw [hunique hother] at hrest
        exact hlacks hrest
      · exact .inr (.inr (.inl ⟨⟨hsize, rfl, hall, capabilities, hcaps, hgaps, hready⟩,
          ⟨capabilities, hcaps, hneeds⟩, hno, hwait⟩))
      · refine .inr (.inr (.inr ⟨⟨hsize, rfl, hall, capabilities, hcaps, hgaps, hready⟩, ?_, hok⟩))
        rintro ⟨other, hother, hneeds⟩
        rw [hunique hother] at hneeds
        exact happroved hneeds

end CellCoordinator

/-! ## 3. Checks and approvals over time -/

/-- The coordinator, the arguments of its last check and the members then approved. -/
structure FormationJournal where
  coordinator : CellCoordinator
  lastCheck : Option (List FormationMember × Option String)
  approvedMembers : Option (List FormationMember)

namespace FormationJournal

inductive Op where
  | checkFormationComplete (members : List FormationMember) (leaderId : Option String) (now : Nat)
  | approveFormation (now : Nat)
  | rejectFormation (reason : String)
  | reset (now : Nat)

def start (cellId : String) (minSize : Nat) (minReadiness : ℚ)
    (requiredCapabilities : List CapabilityType) (now : Nat) : FormationJournal where
  coordinator := { CellCoordinator.new cellId now with
    minSize := minSize
    minReadiness := minReadiness
    requiredCapabilities := requiredCapabilities }
  lastCheck := none
  approvedMembers := none

def step (s : FormationJournal) : Op → FormationJournal
  | .checkFormationComplete members leaderId now => {
      coordinator := (s.coordinator.checkFormationComplete members leaderId now).1
      lastCheck := some (members, leaderId)
      approvedMembers := if s.approvedMembers = some members then some members else none }
  | .approveFormation now => { s with
      coordinator := (s.coordinator.approveFormation now).1
      approvedMembers := match (s.coordinator.approveFormation now).2 with
        | .ok _ => s.lastCheck.map Prod.fst
        | .error _ => s.approvedMembers }
  | .rejectFormation reason => { s with
      coordinator := (s.coordinator.rejectFormation reason).1
      approvedMembers := match (s.coordinator.rejectFormation reason).2 with
        | .ok _ => none
        | .error _ => s.approvedMembers }
  | .reset now => { s with coordinator := s.coordinator.reset now, approvedMembers := none }

def Passed (s : FormationJournal) : Prop :=
  ∃ members leaderId, s.lastCheck = some (members, leaderId) ∧
    s.coordinator.MeetsCriteria members leaderId ∧
    (CellCoordinator.RequireOversight members → s.approvedMembers = some members)

/-- **The formation gate** with human oversight. -/
def Gated (s : FormationJournal) : Prop :=
  s.coordinator.canTransitionToHierarchical = true → s.Passed

/-- What an operation must not do: a check that comes back early while the status is ready, or that
    passes on an approval given for other members; and an approval after a check that did not meet
    the criteria. -/
def Clear (s : FormationJournal) : Op → Prop
  | .checkFormationComplete members leaderId _ =>
    (s.coordinator.Stalls members leaderId → s.coordinator.status ≠ .ready) ∧
      (s.coordinator.MeetsCriteria members leaderId → CellCoordinator.RequireOversight members →
        s.coordinator.humanApproved = true → s.approvedMembers = some members)
  | .approveFormation _ => s.coordinator.status = .awaitingApproval →
    ∃ members leaderId, s.lastCheck = some (members, leaderId) ∧
      s.coordinator.MeetsCriteria members leaderId
  | .rejectFormation _ => True
  | .reset _ => True

variable {s : FormationJournal}

theorem canTransition_iff {c : CellCoordinator} :
    c.canTransitionToHierarchical = true ↔ c.status = .ready := by
  rw [CellCoordinator.canTransitionToHierarchical, beq_iff_eq]

theorem meetsCriteria_makeReady_iff (c : CellCoordinator) (humanApproved : Bool) (now : Nat)
    {members : List FormationMember} {leaderId : Option String} :
    (({ c with humanApproved := humanApproved } : CellCoordinator).makeReady now).MeetsCriteria
      members leaderId ↔ c.MeetsCriteria members leaderId :=
  ⟨fun h => ⟨h.size, h.leader, h.roles, h.capable⟩, fun h => ⟨h.size, h.leader, h.roles, h.capable⟩⟩

theorem gated_check_iff (members : List FormationMember) (leaderId : Option String) (now : Nat) :
    (s.step (.checkFormationComplete members leaderId now)).Gated ↔
      s.Clear (.checkFormationComplete members leaderId now) := by
  have hpassed : (s.step (.checkFormationComplete members leaderId now)).Passed ↔
      (s.step (.checkFormationComplete members leaderId now)).coordinator.MeetsCriteria members leaderId ∧
      (CellCoordinator.RequireOversight members → s.approvedMembers = some members) := by
    constructor
    · rintro ⟨m, l, hlast, hmeets, happroved⟩
      cases hlast
      refine ⟨hmeets, fun hneeds => ?_⟩
      have hif : (if s.approvedMembers = some members then some members else none) = some members :=
        happroved hneeds
      by_contra hne
      rw [if_neg hne] at hif
      cases hif
    · rintro ⟨hmeets, happroved⟩
      exact ⟨members, leaderId, rfl, hmeets, fun hneeds => if_pos (happroved hneeds)⟩
  rw [Gated, canTransition_iff, hpassed]
  show ((s.coordinator.checkFormationComplete members leaderId now).1.status = .ready →
    (s.coordinator.checkFormationComplete members leaderId now).1.MeetsCriteria members leaderId ∧ _) ↔
    (_ ∧ _)
  rcases s.coordinator.checkFormationComplete_cases members leaderId now with
    ⟨hstalls, hc⟩ | ⟨hstalls, hno, reason, hc⟩ | ⟨hmeets, hneeds, hno, hc⟩ | ⟨hmeets, happroved, hc⟩ <;>
    rw [hc]
  · -- nothing is written, and the criteria are not met
    constructor
    · intro h
      exact ⟨fun _ hready => hstalls.not_meets (h hready).1, fun hm => absurd hm hstalls.not_meets⟩
    · rintro ⟨hstatus, _⟩ hready
      exact absurd hready (hstatus hstalls)
  · exact iff_of_true nofun ⟨fun hs => absurd hs hstalls, fun hm => absurd hm hno⟩
  · refine iff_of_true nofun ⟨fun hs => absurd hmeets hs.not_meets, fun _ _ h => ?_⟩
    rw [hno] at h
    cases h
  · have hsame : (s.coordinator.makeReady now).MeetsCriteria members leaderId :=
      (meetsCriteria_makeReady_iff s.coordinator s.coordinator.humanApproved now).mpr hmeets
    constructor
    · intro h
      exact ⟨fun hs => absurd hmeets hs.not_meets, fun _ hneeds _ => (h rfl).2 hneeds⟩
    · rintro ⟨_, happ⟩ _
      exact ⟨hsame, fun hneeds => happ hmeets hneeds (happroved hneeds)⟩

theorem gate_step_iff (op : Op) (h : s.Gated) : (s.step op).Gated ↔ s.Clear op := by
  cases op with
  | checkFormationComplete members leaderId now => exact gated_check_iff members leaderId now
  | approveFormation now =>
    show (_ → _) ↔ (_ → _)
    by_cases hstatus : s.coordinator.status = .awaitingApproval
    · have hstep : s.step (.approveFormation now) = { s with
          coordinator := ({ s.coordinator with humanApproved := true } : CellCoordinator).makeReady now
          approvedMembers := s.lastCheck.map Prod.fst } := by
        rw [step, CellCoordinator.approveFormation, if_neg (not_not_intro hstatus)]
      rw [hstep]
      constructor
      · intro hgate _
        obtain ⟨members, leaderId, hlast, hmeets, _⟩ := hgate rfl
        exact ⟨members, leaderId, hlast, (meetsCriteria_makeReady_iff _ true now).mp hmeets⟩
      · intro hlast _
        obtain ⟨members, leaderId, hcheck, hmeets⟩ := hlast hstatus
        refine ⟨members, leaderId, hcheck, (meetsCriteria_makeReady_iff _ true now).mpr hmeets, fun _ => ?_⟩
        show s.lastCheck.map Prod.fst = some members
        rw [hcheck]
        rfl
    · have hstep : s.step (.approveFormation now) = s := by
        rw [step, CellCoordinator.approveFormation, if_pos hstatus]
      rw [hstep]
      exact iff_of_true h fun hs => absurd hs hstatus
  | rejectFormation reason =>
    refine iff_of_true ?_ trivial
    by_cases hstatus : s.coordinator.status = .awaitingApproval
    · intro hready
      have hstep : (s.step (.rejectFormation reason)).coordinator =
          { s.coordinator with status := .failed ("Human rejected: " ++ reason) } := by
        rw [step, CellCoordinator.rejectFormation, if_neg (not_not_intro hstatus)]
      rw [canTransition_iff, hstep] at hready
      cases hready
    · have hstep : s.step (.rejectFormation reason) = s := by
        rw [step, CellCoordinator.rejectFormation, if_pos hstatus]
      rw [hstep]
      exact h
  | reset now => exact iff_of_true (fun hready => absurd (canTransition_iff.mp hready) nofun) trivial

/-! ## 4. Whole runs -/

def sampleMembers (ids : List String) (authority : AuthorityLevel) : List FormationMember :=
  ids.map fun id =>
    (⟨id, "uav", [.new "comm" "radio" .communication (7 / 8), .new "cam" "camera" .sensor (7 / 8)], 0,
      0, some ⟨[⟨"op", "", 0, authority.toI32, "", ""⟩], [id], 1, none⟩, none⟩, .new ⟨0, 0, 0⟩ 0,
      some .follower)

end FormationJournal

end Peat.Cell
