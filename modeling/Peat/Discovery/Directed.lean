/-
  DIRECTED ASSIGNMENTS (discovery/directed.rs): a node validates the assignments of a
  controller, records them and joins the cell.

  What the backend answers and what the clock shows in one call are inputs
  (`Circumstances`).
-/
import Peat.Lib.Run
import Peat.Storage.CellStore

namespace Peat.Discovery

open Peat.Lib Peat.Models Peat.Storage

/-! ## 1. Assignments -/

inductive AssignmentPriority where
  | low
  | normal
  | high
  | critical
  deriving DecidableEq

inductive AssignmentStatus where
  | pending
  | inProgress
  | completed
  | failed (reason : String)
  deriving DecidableEq

structure CellAssignment where
  assignmentId : String
  cellId : String
  nodeIds : List String
  issuedBy : String
  timestamp : Nat
  priority : AssignmentPriority
  status : AssignmentStatus
  context : Option String
  deriving DecidableEq

namespace CellAssignment

def new (assignmentId cellId : String) (nodeIds : List String) (issuedBy : String)
    (priority : AssignmentPriority) (now : Nat) : CellAssignment :=
  ⟨assignmentId, cellId, nodeIds, issuedBy, now, priority, .pending, none⟩

def includesNode (a : CellAssignment) (nodeId : String) : Bool := a.nodeIds.any (· == nodeId)

def markInProgress (a : CellAssignment) : CellAssignment := { a with status := .inProgress }

def markCompleted (a : CellAssignment) : CellAssignment := { a with status := .completed }

def isActive (a : CellAssignment) : Bool := a.status = .pending ∨ a.status = .inProgress

end CellAssignment

inductive ValidationResult where
  | valid
  | cellNotFound
  | cellFull
  | nodeAlreadyAssigned (currentCell : String)
  | unauthorized
  | expired
  | invalid (reason : String)
  deriving DecidableEq

/-- The errors of a call. The reason of `Error::InvalidTransition` is the text "Assignment validation
    failed: " with the debug form of the result. -/
inductive AssignmentError where
  | store (e : StoreError)
  | invalidTransition (fromState toState : String) (validation : ValidationResult)
  deriving DecidableEq

structure Circumstances where
  now : Nat
  stamp : Nat
  cellQuery : Option String
  validQuery : Option String
  join : Answers

/-! ## 2. The manager -/

structure DirectedAssignmentManager where
  store : CellStore
  assignments : HashMap String CellAssignment
  myNodeId : String
  assignmentTimeout : Nat

namespace DirectedAssignmentManager

def new (store : CellStore) (myNodeId : String) : DirectedAssignmentManager :=
  ⟨store, ∅, myNodeId, 300⟩

def withTimeout (m : DirectedAssignmentManager) (timeoutSecs : Nat) : DirectedAssignmentManager :=
  { m with assignmentTimeout := timeoutSecs }

def getCurrentCell (m : DirectedAssignmentManager) (failure : Option String) (nodeId : String) :
    Except StoreError (Option String) :=
  match m.store.getValidCells failure with
  | .error e => .error e
  | .ok cells => .ok ((cells.find? fun cell => cell.isMember nodeId).bind CellState.getId)

def validateAssignment (m : DirectedAssignmentManager) (a : CellAssignment) (c : Circumstances) :
    Except StoreError ValidationResult :=
  if m.assignmentTimeout < c.now - a.timestamp then .ok .expired
  else
    match m.store.getCell c.cellQuery a.cellId with
    | .error e => .error e
    | .ok none => .ok .cellNotFound
    | .ok (some cell) =>
      if cell.isFull then .ok .cellFull
      else
        match m.getCurrentCell c.validQuery m.myNodeId with
        | .error e => .error e
        | .ok none => .ok .valid
        | .ok (some currentCell) =>
          if currentCell ≠ a.cellId then .ok (.nodeAlreadyAssigned currentCell) else .ok .valid

def record (m : DirectedAssignmentManager) (a : CellAssignment) : DirectedAssignmentManager :=
  { m with assignments := m.assignments.insert a.assignmentId a }

def join (m : DirectedAssignmentManager) (a : CellAssignment) (c : Circumstances) :
    Except StoreError CellStore :=
  m.store.addMember a.cellId m.myNodeId c.stamp c.join

def executeAssignment (m : DirectedAssignmentManager) (a : CellAssignment) (c : Circumstances) :
    Except AssignmentError Unit × DirectedAssignmentManager :=
  let a := a.markInProgress
  match m.join a c with
  | .error e => (.error (.store e), m)
  | .ok store => (.ok (), ({ m with store := store } : DirectedAssignmentManager).record a.markCompleted)

def processAssignment (m : DirectedAssignmentManager) (a : CellAssignment) (c : Circumstances) :
    Except AssignmentError Unit × DirectedAssignmentManager :=
  if !a.includesNode m.myNodeId then (.ok (), m)
  else
    match m.validateAssignment a c with
    | .error e => (.error (.store e), m)
    | .ok validation =>
      if validation ≠ .valid then
        (.error (.invalidTransition "Pending assignment" "Executed assignment" validation), m)
      else (m.record a).executeAssignment a c

def cleanupExpired (m : DirectedAssignmentManager) (now : Nat) : DirectedAssignmentManager :=
  { m with assignments := retain (fun _ a => now - a.timestamp ≤ m.assignmentTimeout) m.assignments }

/-! ## 3. What a call can do -/

variable {m : DirectedAssignmentManager} {a : CellAssignment} {c : Circumstances}

theorem processAssignment_cases (m : DirectedAssignmentManager) (a : CellAssignment)
    (c : Circumstances) :
    (a.includesNode m.myNodeId = false ∧ m.processAssignment a c = (.ok (), m)) ∨
    (a.includesNode m.myNodeId = true ∧ m.validateAssignment a c ≠ .ok .valid ∧
      ∃ e, m.processAssignment a c = (.error e, m)) ∨
    (a.includesNode m.myNodeId = true ∧ m.validateAssignment a c = .ok .valid ∧
      ∃ e, m.join a c = .error e ∧ m.processAssignment a c = (.error (.store e), m.record a)) ∨
    (a.includesNode m.myNodeId = true ∧ m.validateAssignment a c = .ok .valid ∧
      ∃ store, m.join a c = .ok store ∧ m.processAssignment a c =
        (.ok (), ({ m.record a with store := store } : DirectedAssignmentManager).record
          a.markCompleted)) := by
  unfold processAssignment
  cases hin : a.includesNode m.myNodeId with
  | false => exact Or.inl ⟨rfl, rfl⟩
  | true =>
    refine Or.inr ?_
    cases hval : m.validateAssignment a c with
    | error e => exact Or.inl ⟨rfl, nofun, _, rfl⟩
    | ok validation =>
      by_cases hvalid : validation = .valid
      · subst hvalid
        refine Or.inr ?_
        have hjoin : (m.record a).join a.markInProgress c = m.join a c := rfl
        simp only [Bool.not_true, Bool.false_eq_true, if_false, ne_eq, not_true, executeAssignment, hjoin]
        cases hj : m.join a c with
        | error e => exact Or.inl ⟨trivial, trivial, e, rfl, rfl⟩
        | ok store => exact Or.inr ⟨trivial, trivial, store, rfl, rfl⟩
      · refine Or.inl ⟨rfl, fun h => hvalid (Except.ok.inj h),
          .invalidTransition "Pending assignment" "Executed assignment" validation, ?_⟩
        simp only [Bool.not_true, Bool.false_eq_true, if_false, ne_eq, hvalid, not_false_eq_true, if_true]

/-! ## 4. At most one cell -/

def Free (m : DirectedAssignmentManager) : Prop :=
  ∀ cell ∈ m.store.documents, m.myNodeId ∉ cell.members

instance (m : DirectedAssignmentManager) : Decidable m.Free :=
  inferInstanceAs (Decidable (∀ cell ∈ m.store.documents, m.myNodeId ∉ cell.members))

/-- This node is a member of at most one stored cell. -/
def AtMostOneCell (m : DirectedAssignmentManager) : Prop :=
  ∀ docId cell docId' cell', m.store.cells.lookup docId = some cell →
    m.store.cells.lookup docId' = some cell' → m.myNodeId ∈ cell.members →
    m.myNodeId ∈ cell'.members → docId = docId'

theorem Free.not_mem (h : m.Free) {docId : String} {cell : CellState}
    (hlookup : m.store.cells.lookup docId = some cell) : m.myNodeId ∉ cell.members :=
  h cell (CellStore.mem_documents_iff.mpr ⟨docId, hlookup⟩)

theorem Free.atMostOneCell (h : m.Free) : m.AtMostOneCell :=
  fun _ _ _ _ hlookup _ hmem _ => absurd hmem (h.not_mem hlookup)

variable {store : CellStore}

theorem exists_of_join (h : m.join a c = .ok store) :
    ∃ cell written : CellState, m.store.cells.lookup a.cellId = some cell ∧ m.myNodeId ∉ cell.members ∧
      m.myNodeId ∈ written.members ∧ store.cells = m.store.cells.insert a.cellId written := by
  obtain ⟨cell, written, hfind, hedit, hcells⟩ := CellStore.exists_of_perform h
  refine ⟨cell, written, (CellStore.find_eq_some_iff.mp hfind).1, ?_⟩
  obtain ⟨x, hx, hnew, hwritten⟩ | ⟨_, hx, _⟩ | ⟨_, hx, _⟩ | ⟨_, hx, _⟩ := CellRequest.edit_cases hedit <;>
    cases hx
  rw [hwritten] at hcells ⊢
  exact ⟨hnew, List.mem_concat_self, hcells⟩

theorem atMostOneCell_join_iff (h : m.join a c = .ok store)
    (assignments : HashMap String CellAssignment) :
    ({ m with store := store, assignments := assignments } : DirectedAssignmentManager).AtMostOneCell ↔
      m.Free := by
  obtain ⟨cell, written, hlookup, hnew, hmem, hcells⟩ := exists_of_join h
  have hafter : ∀ docId, store.cells.lookup docId =
      if docId = a.cellId then some written else m.store.cells.lookup docId := by
    intro docId
    rw [hcells, lookup_insert_eq_ite]
  constructor
  · intro hone other hother hin
    obtain ⟨docId, hdoc⟩ := CellStore.mem_documents_iff.mp hother
    -- the cell that had the node is not the one joined, so that the node is now in two
    have hne : docId ≠ a.cellId := by
      rintro rfl
      rw [hlookup] at hdoc
      cases hdoc
      exact hnew hin
    have hold : store.cells.lookup docId = some other := by rw [hafter, if_neg hne, hdoc]
    have hjoined : store.cells.lookup a.cellId = some written := by rw [hafter, if_pos rfl]
    exact hne (hone docId other a.cellId written hold hjoined hin hmem)
  · intro hfree docId cell₁ docId' cell₂ h₁ h₂ hin₁ hin₂
    have honly : ∀ id (other : CellState), store.cells.lookup id = some other →
        m.myNodeId ∈ other.members → id = a.cellId := by
      intro id other hid hin
      by_contra hne
      rw [hafter, if_neg hne] at hid
      exact hfree.not_mem hid hin
    exact (honly docId cell₁ h₁ hin₁).trans (honly docId' cell₂ h₂ hin₂).symm

/-! ## 5. The lifecycle -/

def Again (m : DirectedAssignmentManager) (a : CellAssignment) (c : Circumstances) : Prop :=
  a.includesNode m.myNodeId = true ∧ m.assignments.lookup a.assignmentId = some a.markCompleted ∧
    c.now - a.timestamp ≤ m.assignmentTimeout

instance (m : DirectedAssignmentManager) (a : CellAssignment) (c : Circumstances) :
    Decidable (m.Again a c) := inferInstanceAs (Decidable (_ ∧ _ ∧ _))

def RecordedAs (m : DirectedAssignmentManager) (test : CellAssignment → Bool) (id : String) : Prop :=
  (m.assignments.lookup id).any test = true

instance (m : DirectedAssignmentManager) (test : CellAssignment → Bool) (id : String) :
    Decidable (m.RecordedAs test id) := inferInstanceAs (Decidable (_ = _))

def completed (a : CellAssignment) : Bool := a.status = .completed

inductive Op where
  | process (a : CellAssignment) (c : Circumstances)
  | cleanup (now : Nat)

def step (m : DirectedAssignmentManager) : Op → DirectedAssignmentManager
  | .process a c => (m.processAssignment a c).2
  | .cleanup now => m.cleanupExpired now

def Unchanged (m m' : DirectedAssignmentManager) : Prop :=
  (∀ docId, m'.store.cells.lookup docId = m.store.cells.lookup docId) ∧
    ∀ id, m'.assignments.lookup id = m.assignments.lookup id

/-- What is asked of a call that ended in `m'`: the node is a member of at most one cell; a call that
    fails leaves completed records completed and adds no active one; and a completed assignment
    processed again succeeds and changes nothing. -/
structure CallLifecycle (m m' : DirectedAssignmentManager) (a : CellAssignment) (c : Circumstances)
    (result : Except AssignmentError Unit) : Prop where
  oneCell : m'.AtMostOneCell
  completedKept : result.isOk = false → ∀ id, m.RecordedAs completed id → m'.RecordedAs completed id
  noneActive : result.isOk = false →
    ∀ id, m'.RecordedAs CellAssignment.isActive id → m.RecordedAs CellAssignment.isActive id
  again : m.Again a c → result.isOk = true ∧ m.Unchanged m'

/-- What a call must leave behind. -/
def Lifecycle (m : DirectedAssignmentManager) : Op → Prop
  | .process a c => m.CallLifecycle (m.processAssignment a c).2 a c (m.processAssignment a c).1
  | .cleanup now => (m.cleanupExpired now).AtMostOneCell

/-- An assignment that passes the validation: it comes in time, the backend answers both queries, its cell
    is stored and not full, and the first valid cell with the node, if there is one, is that cell. -/
def Accepts (m : DirectedAssignmentManager) (a : CellAssignment) (c : Circumstances) : Prop :=
  c.now - a.timestamp ≤ m.assignmentTimeout ∧ c.cellQuery = none ∧ c.validQuery = none ∧
    (m.store.find a.cellId).any (fun cell => !cell.isFull) = true ∧
    (((m.store.documents.filter CellState.isValid).find? fun cell => cell.isMember m.myNodeId).bind
      CellState.getId).all (· == a.cellId) = true

/-- The node is not in that cell yet, and the backend answers the query and the write of the join. -/
def Joins (m : DirectedAssignmentManager) (a : CellAssignment) (c : Circumstances) : Prop :=
  (m.store.find a.cellId).all (fun cell => !cell.isMember m.myNodeId) = true ∧
    c.join.query = none ∧ c.join.upsert = none

/-- A call that keeps the lifecycle: a completed assignment is not processed again; the node joins only
    when it is in no stored cell; and when it does not join, the record made before neither replaces one
    of a completed assignment nor is active where there was no active one. -/
def Orderly (m : DirectedAssignmentManager) : Op → Prop
  | .process a c =>
    a.includesNode m.myNodeId = true → ¬ m.Again a c ∧
      (m.Accepts a c → (m.Joins a c → m.Free) ∧
        (¬ m.Joins a c →
          (m.RecordedAs completed a.assignmentId → completed a = true) ∧
          (a.isActive = true → m.RecordedAs CellAssignment.isActive a.assignmentId)))
  | .cleanup _ => True

instance (m : DirectedAssignmentManager) (a : CellAssignment) (c : Circumstances) :
    Decidable (m.Accepts a c) := inferInstanceAs (Decidable (_ ∧ _ ∧ _ ∧ _ ∧ _))

instance (m : DirectedAssignmentManager) (a : CellAssignment) (c : Circumstances) :
    Decidable (m.Joins a c) := inferInstanceAs (Decidable (_ ∧ _ ∧ _))

instance (m : DirectedAssignmentManager) (op : Op) : Decidable (m.Orderly op) :=
  match op with
  | .process _ _ => inferInstanceAs (Decidable (_ → _))
  | .cleanup _ => inferInstanceAs (Decidable True)

theorem validateAssignment_valid_iff : m.validateAssignment a c = .ok .valid ↔ m.Accepts a c := by
  unfold validateAssignment Accepts getCurrentCell CellStore.getCell CellStore.getValidCells
  by_cases htime : m.assignmentTimeout < c.now - a.timestamp
  · rw [if_pos htime]
    exact iff_of_false nofun fun h => absurd h.1 (Nat.not_le.mpr htime)
  · rw [if_neg htime, and_iff_right (Nat.le_of_not_lt htime)]
    cases c.cellQuery with
    | some e => exact iff_of_false nofun nofun
    | none =>
      cases m.store.find a.cellId with
      | none => exact iff_of_false nofun nofun
      | some cell =>
        cases hfull : cell.isFull with
        | true => simp [hfull]
        | false =>
          cases c.validQuery with
          | some e => exact iff_of_false (by simp [hfull]) nofun
          | none =>
            simp only [hfull, Bool.false_eq_true, if_false, Option.any_some, Bool.not_false, true_and]
            cases ((m.store.documents.filter CellState.isValid).find? fun cell =>
              cell.isMember m.myNodeId).bind CellState.getId with
            | none => simp
            | some current => by_cases hcurrent : current = a.cellId <;> simp [hcurrent]

theorem join_isOk_iff (h : m.Accepts a c) : (m.join a c).isOk = true ↔ m.Joins a c := by
  obtain ⟨cell, hfind, hfull⟩ : ∃ cell, m.store.find a.cellId = some cell ∧ cell.isFull = false := by
    have hany := h.2.2.2.1
    cases hfind : m.store.find a.cellId with
    | none =>
      rw [hfind] at hany
      cases hany
    | some cell => exact ⟨cell, rfl, by simpa [hfind] using hany⟩
  have hedit : ((CellRequest.addMember m.myNodeId).edit c.stamp cell).isOk = true ↔
      cell.isMember m.myNodeId = false := by
    rw [CellRequest.edit, CellState.isMember]
    obtain ⟨hr, e⟩ | ⟨-, hm, e⟩ := cell.addMember_cases m.myNodeId c.stamp
    · have hin : m.myNodeId ∈ cell.members := hr.resolve_left (Bool.eq_false_iff.mp hfull)
      rw [e]
      exact iff_of_false Bool.false_ne_true (by simpa using hin)
    · rw [e]
      exact iff_of_true rfl (List.any_eq_false.mpr fun x hx hsame => hm (beq_iff_eq.mp hsame ▸ hx))
  rw [join, CellStore.addMember, CellStore.perform_isOk_iff hfind, hedit, Joins, hfind]
  simp

theorem recordedAs_record_iff {test : CellAssignment → Bool} {id : String} :
    (m.record a).RecordedAs test id ↔
      if id = a.assignmentId then test a = true else m.RecordedAs test id := by
  rw [RecordedAs, record, lookup_insert_eq_ite]
  split
  · exact Iff.rfl
  · exact Iff.rfl

theorem lifecycle_refused_iff (hone : m.AtMostOneCell) (e : AssignmentError) :
    m.CallLifecycle m a c (.error e) ↔ ¬ m.Again a c := by
  constructor
  · intro h hagain
    exact Bool.noConfusion (h.again hagain).1
  · intro hnot
    exact ⟨hone, fun _ _ h => h, fun _ _ h => h, fun hagain => absurd hagain hnot⟩

theorem lifecycle_recorded_iff (hone : m.AtMostOneCell) (e : AssignmentError) :
    m.CallLifecycle (m.record a) a c (.error e) ↔
      ¬ m.Again a c ∧ (m.RecordedAs completed a.assignmentId → completed a = true) ∧
        (a.isActive = true → m.RecordedAs CellAssignment.isActive a.assignmentId) := by
  constructor
  · intro h
    refine ⟨fun hagain => Bool.noConfusion (h.again hagain).1, fun hrecorded => ?_, fun hactive => ?_⟩
    · have hkept := h.completedKept rfl a.assignmentId hrecorded
      rw [recordedAs_record_iff, if_pos rfl] at hkept
      exact hkept
    · refine h.noneActive rfl a.assignmentId ?_
      rw [recordedAs_record_iff, if_pos rfl]
      exact hactive
  · rintro ⟨hnot, hcompleted, hactive⟩
    refine ⟨hone, fun _ id hid => ?_, fun _ id hid => ?_, fun hagain => absurd hagain hnot⟩
    · rw [recordedAs_record_iff]
      split
      · rename_i e
        exact hcompleted (e ▸ hid)
      · exact hid
    · rw [recordedAs_record_iff] at hid
      split at hid
      · rename_i e
        rw [e]
        exact hactive hid
      · exact hid

theorem lifecycle_joined_iff (h : m.join a c = .ok store)
    (assignments : HashMap String CellAssignment) :
    m.CallLifecycle { m with store := store, assignments := assignments } a c (.ok ()) ↔
      ¬ m.Again a c ∧ m.Free := by
  rw [← atMostOneCell_join_iff h assignments]
  constructor
  · intro hlife
    refine ⟨fun hagain => ?_, hlife.oneCell⟩
    -- the cell joined has a member more
    obtain ⟨cell, written, hlookup, hnew, hmem, hcells⟩ := exists_of_join h
    have hsame : store.cells.lookup a.cellId = m.store.cells.lookup a.cellId :=
      (hlife.again hagain).2.1 a.cellId
    rw [hcells, AList.lookup_insert, hlookup] at hsame
    rw [Option.some.inj hsame] at hmem
    exact hnew hmem
  · rintro ⟨hnot, hone⟩
    exact ⟨hone, nofun, nofun, fun hagain => absurd hagain hnot⟩

theorem lifecycle_iff (m : DirectedAssignmentManager) (op : Op) (hone : m.AtMostOneCell) :
    m.Lifecycle op ↔ m.Orderly op := by
  cases op with
  | cleanup now => exact iff_of_true hone trivial
  | process a c =>
    rw [Lifecycle, Orderly, ← validateAssignment_valid_iff]
    obtain ⟨hin, e⟩ | ⟨hin, hval, err, e⟩ | ⟨hin, hval, err, hjoin, e⟩ | ⟨hin, hval, store, hjoin, e⟩ :=
      m.processAssignment_cases a c
    · rw [e, hin]
      refine iff_of_true ⟨hone, nofun, nofun, fun hagain => ?_⟩ nofun
      exact absurd hagain.1 (by rw [hin]; nofun)
    · rw [e, lifecycle_refused_iff hone]
      simp only [hin, hval, forall_const, false_implies, and_true]
    · have hnot : ¬ m.Joins a c := by
        rw [← join_isOk_iff (validateAssignment_valid_iff.mp hval), hjoin]
        nofun
      rw [e, lifecycle_recorded_iff hone]
      simp only [hin, hval, hnot, not_false_eq_true, forall_const, false_implies, true_and]
    · have hjoins : m.Joins a c := by
        rw [← join_isOk_iff (validateAssignment_valid_iff.mp hval), hjoin]
        rfl
      rw [e]
      refine (lifecycle_joined_iff hjoin _).trans ?_
      simp only [hin, hval, hjoins, not_true_eq_false, forall_const, false_implies, and_true]

theorem atMostOneCell_step (m : DirectedAssignmentManager) (op : Op) (h : m.Lifecycle op)
    (_ : m.AtMostOneCell) : (m.step op).AtMostOneCell := by
  cases op with
  | process a c => exact h.oneCell
  | cleanup now => exact h

/-- **The lifecycle over whole runs**: whatever the clock shows and the backend answers, every call keeps
    the lifecycle exactly when every call is orderly. -/
theorem assignment_lifecycle_iff (store : CellStore) (nodeId : String) (timeoutSecs : Nat)
    (h : ((new store nodeId).withTimeout timeoutSecs).AtMostOneCell) (ops : List Op) :
    RunMeets step Lifecycle ((new store nodeId).withTimeout timeoutSecs) ops ↔
      RunMeets step Orderly ((new store nodeId).withTimeout timeoutSecs) ops :=
  runMeets_iff_of_invariant AtMostOneCell lifecycle_iff atMostOneCell_step h

def twoCells : CellStore :=
  (CellStore.empty.put (CellState.new (CellConfig.withId "alpha" 5 0) 0) "").put
    (CellState.new (CellConfig.withId "bravo" 5 0) 0) ""

def assign (assignmentId cellId : String) : Op :=
  .process (CellAssignment.new assignmentId cellId ["node_1"] "c2" .normal 100)
    ⟨110, 110, none, none, none, none, ""⟩

theorem assignment_lifecycle_iff_first :
    ((new twoCells "node_1").withTimeout 300).AtMostOneCell ∧
      RunMeets step Lifecycle ((new twoCells "node_1").withTimeout 300) [assign "a1" "alpha"] := by
  have hfree : ((new twoCells "node_1").withTimeout 300).Free := by decide +kernel
  exact ⟨hfree.atMostOneCell,
    (assignment_lifecycle_iff twoCells "node_1" 300 hfree.atMostOneCell _).mpr (by decide +kernel)⟩

/-- A cell below its minimum size is not seen: the node that has joined it joins a second one. -/
theorem second_cell_joined :
    let m := run step (new twoCells "node_1") [assign "a1" "alpha", assign "a2" "bravo"]
    ¬ m.AtMostOneCell ∧
      m.store.documents.map (fun cell => (cell.getId, cell.members)) =
        [(some "bravo", ["node_1"]), (some "alpha", ["node_1"])] := by
  refine ⟨fun h => ?_, by decide +kernel⟩
  have hmember : ∀ docId, docId = "alpha" ∨ docId = "bravo" → ∃ cell : CellState,
      (run step (new twoCells "node_1") [assign "a1" "alpha", assign "a2" "bravo"]).store.cells.lookup
        docId = some cell ∧ "node_1" ∈ cell.members := by
    have hshown : ∀ docId, docId = "alpha" ∨ docId = "bravo" →
        ((run step (new twoCells "node_1") [assign "a1" "alpha", assign "a2" "bravo"]).store.cells.lookup
          docId).map CellState.members = some ["node_1"] := by
      rintro docId (rfl | rfl) <;> decide +kernel
    intro docId hdoc
    obtain ⟨cell, hcell, hmembers⟩ := Option.map_eq_some_iff.mp (hshown docId hdoc)
    exact ⟨cell, hcell, by rw [hmembers]; decide⟩
  obtain ⟨alpha, halpha, hin⟩ := hmember "alpha" (Or.inl rfl)
  obtain ⟨bravo, hbravo, hin'⟩ := hmember "bravo" (Or.inr rfl)
  exact absurd (h "alpha" alpha "bravo" bravo halpha hbravo hin hin') (by decide)

end DirectedAssignmentManager

end Peat.Discovery
