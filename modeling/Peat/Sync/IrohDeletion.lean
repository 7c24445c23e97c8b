/-
  DELETION IN THE PERSISTENT STORE, and both stores together.

  A soft deletion writes its mark beside the serialised document, where `is_deleted`
  looks for it and queries do not (`shown`, `marked`).
-/
import Peat.Sync.Deletion
import Peat.Sync.IrohDocumentStore

namespace Peat.Sync

open Peat.Lib

structure StorageCall where
  op : DeletionOp
  now : Nat
  outcome : StorageOutcome

/-- The store, and which documents it reported deleted. -/
structure IrohDeletionJournal where
  store : IrohDocumentStore
  reported : String × String → Bool

namespace IrohDeletionJournal

def reportsDeleted : Except StoreError DeleteResult → Bool
  | .ok result => result.deleted
  | .error _ => false

def applied (rootAfter : Option Fields → Fields) (s : IrohDocumentStore) (call : StorageCall) :
    Option Bool × IrohDocumentStore :=
  match call.op with
  | .upsert collection document origin generated =>
    let result := s.upsertWithOrigin rootAfter collection document origin generated call.now
      call.outcome
    (if result.1.isOk then some false else none, result.2)
  | .delete collection docId reason input =>
    let result := s.delete collection docId reason input call.outcome
    (if reportsDeleted result.1 then some true else none, result.2)
  | .applyTombstone tombstone => (none, (s.applyTombstone tombstone call.outcome).2)

def start (deletionPolicy : String → DeletionPolicy) (nodeId : String) : IrohDeletionJournal :=
  ⟨.new deletionPolicy nodeId, fun _ => false⟩

def step (rootAfter : Option Fields → Fields) (j : IrohDeletionJournal) (call : StorageCall) :
    IrohDeletionJournal :=
  ⟨(applied rootAfter j.store call).2,
    noted j.reported call.op.target (applied rootAfter j.store call).1⟩

def Shows (ev : Evaluators) (s : IrohDocumentStore) (collection : String) (doc : Document) : Prop :=
  ∃ q, q.deletionAware = false ∧ doc ∈ s.query ev collection q

/-- Queries, `is_deleted` and the results of deletions agree. -/
def Consistent (ev : Evaluators) (j : IrohDeletionJournal) : Prop :=
  DeletionConsistent (Shows ev j.store) j.store.isDeleted j.reported

def marks : Marks Stored :=
  ⟨fun stored => !markedDeleted stored.data.fields, fun stored => markedDeleted stored.root⟩

def softDeleted (deletedAt : String) (reason : Option String) (stored : Stored) : Stored :=
  ⟨stored.data, AutomergeBackend.softDeletedFields stored.root deletedAt reason⟩

theorem marked_softDeleted (deletedAt : String) (reason : Option String) (stored : Stored) :
    marks.marked (softDeleted deletedAt reason stored) = true :=
  markedDeleted_softDeletedFields stored.root deletedAt reason

def slot (j : IrohDeletionJournal) (name : String × String) : Slot Stored :=
  ⟨j.store.tombstones.lookup name, j.store.documents.lookup (docKey name.1 name.2), j.reported name⟩

def stored (rootAfter : Option Fields → Fields) (s : IrohDocumentStore) (key : String)
    (document : Document) : Stored :=
  ⟨document, rootAfter ((s.documents.lookup key).map (·.root))⟩

def action (rootAfter : Option Fields → Fields) (s : IrohDocumentStore) (call : StorageCall) :
    Slot.Action marks :=
  match call.op with
  | .upsert collection document _ generated =>
    if call.outcome.written.isOk then
      .put (stored rootAfter s (docKey collection (document.id.getD generated)) document)
    else .skip
  | .delete collection docId reason input =>
    match s.deletionPolicy collection with
    | .immutable => .skip
    | .implicitTtl _ => .skip
    | .tombstone _ _ =>
      if call.outcome.written.isOk then
        .bury (s.newTombstone collection docId reason input.tombstoneAt) call.outcome.erased true
      else .skip
    | .softDelete _ =>
      if call.outcome.read.isOk ∧ call.outcome.written.isOk then
        .mark (softDeleted input.deletedAt reason) (marked_softDeleted input.deletedAt reason)
      else .skip
  | .applyTombstone tombstone =>
    if call.outcome.written.isOk then .bury tombstone call.outcome.erased false else .skip

def Hidden (s : IrohDocumentStore) (collection docId : String) : Prop :=
  ∀ stored, s.documents.lookup (docKey collection docId) = some stored →
    stored.data.softDeleted = true

/-- **The condition** on a call that the storage carries out: a document without a mark is written only
    where no tombstone lies and no mark stays in the root, it is not soft-deleted, and where a tombstone is
    put its removal does not fail. -/
def Clear (rootAfter : Option Fields → Fields) (j : IrohDeletionJournal) (call : StorageCall) : Prop :=
  match call.op with
  | .upsert collection document _ generated =>
    let docId := document.id.getD generated
    call.outcome.written.isOk = true → document.softDeleted = false →
      j.store.tombstones.lookup (collection, docId) = none ∧
        markedDeleted (stored rootAfter j.store (docKey collection docId) document).root = false
  | .delete collection docId _ _ =>
    match j.store.deletionPolicy collection with
    | .immutable => True
    | .implicitTtl _ => True
    | .tombstone _ _ => call.outcome.written.isOk = true → call.outcome.erased = false →
        Hidden j.store collection docId
    | .softDelete _ => call.outcome.read.isOk = true → call.outcome.written.isOk = true →
        Hidden j.store collection docId
  | .applyTombstone tombstone => call.outcome.written.isOk = true → call.outcome.erased = false →
      Hidden j.store tombstone.collection tombstone.documentId

variable {ev : Evaluators} {rootAfter : Option Fields → Fields} {j : IrohDeletionJournal}

/-! ## 1. What a call writes -/

theorem hidden_iff (collection docId : String) :
    Hidden j.store collection docId ↔
      ∀ e, (j.slot (collection, docId)).entry = some e → marks.shown e = false := by
  refine forall₂_congr fun e _ => ?_
  show e.data.softDeleted = true ↔ (!e.data.softDeleted) = false
  rw [Bool.not_eq_false']

theorem clear_iff_slot (call : StorageCall) :
    Clear rootAfter j call ↔ (j.slot call.op.target).Clear (action rootAfter j.store call) := by
  obtain ⟨op, now, outcome⟩ := call
  cases op with
  | upsert collection document origin generated =>
    rw [Clear, action]
    cases outcome.written.isOk
    · exact iff_of_true (fun h => absurd h Bool.false_ne_true) trivial
    · have hshown : ∀ root, marks.shown ⟨document, root⟩ = !document.softDeleted := fun _ => rfl
      show (true = true → _) ↔ (marks.shown ⟨document, _⟩ = true → _)
      rw [hshown, Bool.not_eq_true']
      exact forall_prop_of_true rfl
  | delete collection docId reason input =>
    rw [Clear, action]
    dsimp only
    cases j.store.deletionPolicy collection with
    | immutable => exact Iff.rfl
    | implicitTtl ttl => exact Iff.rfl
    | tombstone ttl deleteWins =>
      dsimp only
      cases outcome.written.isOk
      · exact iff_of_true (fun h => absurd h Bool.false_ne_true) trivial
      · rw [forall_prop_of_true rfl, hidden_iff]
        exact Iff.rfl
    | softDelete incl =>
      dsimp only
      cases outcome.read.isOk
      · exact iff_of_true (fun h => absurd h Bool.false_ne_true) trivial
      · cases outcome.written.isOk
        · exact iff_of_true (fun _ h => absurd h Bool.false_ne_true) trivial
        · rw [forall_prop_of_true rfl, forall_prop_of_true rfl, hidden_iff]
          exact Iff.rfl
  | applyTombstone tombstone =>
    rw [Clear, action]
    dsimp only
    cases outcome.written.isOk
    · exact iff_of_true (fun h => absurd h Bool.false_ne_true) trivial
    · rw [forall_prop_of_true rfl, hidden_iff]
      exact Iff.rfl

structure Writes (j j' : IrohDeletionJournal) (own : String × String) (s : Slot Stored) : Prop where
  documents : ∀ key, j'.store.documents.lookup key =
    if key = docKey own.1 own.2 then s.entry else j.store.documents.lookup key
  tombstones : ∀ name, j'.store.tombstones.lookup name =
    if name = own then s.tombstone else j.store.tombstones.lookup name
  reported : ∀ name, j'.reported name = if name = own then s.reported else j.reported name

theorem writes_nothing {j' : IrohDeletionJournal} (own : String × String)
    (hdocuments : j'.store.documents = j.store.documents)
    (htombstones : j'.store.tombstones = j.store.tombstones) (hreported : j'.reported = j.reported) :
    Writes j j' own (j.slot own) := by
  constructor
  · rw [hdocuments]
    exact apply_eq_ite_own _ _
  · rw [htombstones]
    exact apply_eq_ite_own _ _
  · rw [hreported]
    exact apply_eq_ite_own _ _

theorem lookup_documents_bury (s : IrohDocumentStore) (tombstone : Tombstone) (erased : Bool)
    (key : String) : (s.bury tombstone erased).documents.lookup key =
      if key = docKey tombstone.collection tombstone.documentId then
        if erased then none else s.documents.lookup key
      else s.documents.lookup key := by
  rw [IrohDocumentStore.bury]
  cases erased
  · exact (ite_self _).symm
  · by_cases e : key = docKey tombstone.collection tombstone.documentId
    · rw [if_pos e, if_pos rfl, if_pos rfl, e]
      exact AList.lookup_erase _ _
    · rw [if_neg e, if_pos rfl]
      exact AList.lookup_erase_ne e

theorem writes_bury (s : IrohDocumentStore) (tombstone : Tombstone) (erased report : Bool)
    (hdocuments : s.documents = j.store.documents) (htombstones : s.tombstones = j.store.tombstones)
    {reported : String × String → Bool}
    (hreported : ∀ name, reported name =
      if name = (tombstone.collection, tombstone.documentId) then
        report || j.reported (tombstone.collection, tombstone.documentId)
      else j.reported name) :
    Writes j ⟨s.bury tombstone erased, reported⟩ (tombstone.collection, tombstone.documentId)
      ((j.slot (tombstone.collection, tombstone.documentId)).act
        (m := marks) (.bury tombstone erased report)) := by
  refine ⟨fun key => ?_, fun name => ?_, hreported⟩
  · rw [lookup_documents_bury, hdocuments]
    by_cases e : key = docKey tombstone.collection tombstone.documentId
    · rw [if_pos e, if_pos e, e]
      rfl
    · rw [if_neg e, if_neg e]
  · show (s.tombstones.insert _ tombstone).lookup name = _
    rw [htombstones]
    exact lookup_insert_eq_ite _ _ _ _

theorem writes_softDelete (rootAfter : Option Fields → Fields) {collection : String} {incl : Bool}
    (hp : j.store.deletionPolicy collection = .softDelete incl) (docId : String)
    (reason : Option String) (input : AutomergeBackend.DeleteInput) (now : Nat)
    (outcome : StorageOutcome) :
    Writes j (step rootAfter j ⟨.delete collection docId reason input, now, outcome⟩)
      (collection, docId)
      ((j.slot (collection, docId)).act
        (action rootAfter j.store ⟨.delete collection docId reason input, now, outcome⟩)) := by
  obtain ⟨read, written, erased⟩ := outcome
  rw [step, applied, action]
  dsimp only
  rw [IrohDocumentStore.delete, hp]
  cases read with
  | error message => exact writes_nothing _ rfl rfl rfl
  | ok done =>
    have hslot : (j.slot (collection, docId)).entry =
        j.store.documents.lookup (docKey collection docId) := rfl
    dsimp only
    cases hdoc : j.store.documents.lookup (docKey collection docId) with
    | none =>
      rw [hdoc] at hslot
      cases written with
      | error message => exact writes_nothing _ rfl rfl rfl
      | ok done =>
        show Writes j j _ ((j.slot (collection, docId)).act (.mark _ _))
        rw [Slot.act_mark_of_none hslot]
        exact writes_nothing _ rfl rfl rfl
    | some value =>
      rw [hdoc] at hslot
      cases written with
      | error message => exact writes_nothing _ rfl rfl rfl
      | ok done =>
        show Writes j _ _ ((j.slot (collection, docId)).act
          (.mark _ (marked_softDeleted input.deletedAt reason)))
        rw [Slot.act_mark_of_some hslot]
        exact ⟨fun _ => lookup_insert_eq_ite _ _ _ _, apply_eq_ite_own _ _,
          Function.update_apply _ _ _⟩

theorem writes_step (rootAfter : Option Fields → Fields) (call : StorageCall) :
    Writes j (step rootAfter j call) call.op.target
      ((j.slot call.op.target).act (action rootAfter j.store call)) := by
  obtain ⟨op, now, read, written, erased⟩ := call
  cases op with
  | upsert collection document origin generated =>
    cases written with
    | error message => exact writes_nothing _ rfl rfl rfl
    | ok done =>
      exact ⟨fun _ => lookup_insert_eq_ite _ _ _ _, apply_eq_ite_own _ _,
        Function.update_apply _ _ _⟩
  | applyTombstone tombstone =>
    cases written with
    | error message => exact writes_nothing _ rfl rfl rfl
    | ok done => exact writes_bury j.store tombstone erased false rfl rfl (apply_eq_ite_own _ _)
  | delete collection docId reason input =>
    cases hp : j.store.deletionPolicy collection with
    | softDelete incl => exact writes_softDelete rootAfter hp docId reason input now _
    | immutable =>
      rw [step, applied, action]
      dsimp only
      rw [IrohDocumentStore.delete, hp]
      exact writes_nothing _ rfl rfl rfl
    | implicitTtl ttl =>
      rw [step, applied, action]
      dsimp only
      rw [IrohDocumentStore.delete, hp]
      exact writes_nothing _ rfl rfl rfl
    | tombstone ttl deleteWins =>
      rw [step, applied, action]
      dsimp only
      rw [IrohDocumentStore.delete, hp]
      cases written with
      | error message => exact writes_nothing _ rfl rfl rfl
      | ok done =>
        exact writes_bury (j := j) { j.store with lamportCounter := j.store.lamportCounter + 1 }
          (j.store.newTombstone collection docId reason input.tombstoneAt) erased true rfl rfl
          (Function.update_apply j.reported (collection, docId) true)

variable {call : StorageCall}

theorem slot_step (hplain : call.op.Plain) (name : String × String) :
    (step rootAfter j call).slot name =
      if name = call.op.target then
        (j.slot call.op.target).act (action rootAfter j.store call)
      else j.slot name := by
  have h := writes_step (j := j) rootAfter call
  rw [slot, h.documents, h.tombstones, h.reported]
  simp only [docKey_eq_iff hplain]
  split
  · rfl
  · rfl

/-! ## 2. Plain stores -/

def PlainStore (s : IrohDocumentStore) : Prop :=
  ∀ key stored, s.documents.lookup key = some stored → ∃ collection docId,
    PlainKey collection docId ∧ key = docKey collection docId ∧ stored.data.id.getD docId = docId

theorem action_keeps_id (call : StorageCall) :
    (action rootAfter j.store call).Keeps
      (fun e => e.data.id.getD call.op.target.2 = call.op.target.2) := by
  obtain ⟨op, now, outcome⟩ := call
  cases op with
  | upsert collection document origin generated =>
    rw [action]
    dsimp only
    split
    · show document.id.getD (document.id.getD generated) = document.id.getD generated
      cases document.id <;> rfl
    · trivial
  | delete collection docId reason input =>
    rw [action]
    dsimp only
    split
    · trivial
    · trivial
    · split <;> trivial
    · split
      · exact fun _ h => h
      · trivial
  | applyTombstone tombstone =>
    rw [action]
    dsimp only
    split <;> trivial

theorem plainStore_step (hplain : call.op.Plain) (h : PlainStore j.store) :
    PlainStore (step rootAfter j call).store := by
  intro key stored hlookup
  rw [(writes_step rootAfter call).documents] at hlookup
  split at hlookup
  · rename_i e
    refine ⟨_, _, hplain, e, (action_keeps_id call).entry_act (fun old hold => ?_) hlookup⟩
    obtain ⟨c, i, -, hkey, hid⟩ := h _ old hold
    obtain ⟨-, rfl⟩ := (docKey_inj hplain).mp hkey
    exact hid
  · exact h key stored hlookup

theorem shows_iff_live (hev : ev.Documented) (h : PlainStore j.store) (collection docId : String) :
    (∃ doc, Shows ev j.store collection doc ∧ doc.id = some docId) ↔
      (j.slot (collection, docId)).live marks = true := by
  constructor
  · rintro ⟨doc, ⟨q, hq, hmem⟩, hid⟩
    obtain ⟨key, i, stored, hlookup, hstrip, rfl, hstate, -⟩ :=
      IrohDocumentStore.mem_query_iff.mp hmem
    obtain ⟨c₀, i₀, hplain, rfl, hown⟩ := h key stored hlookup
    obtain ⟨rfl, rfl⟩ := (stripPrefix_docKey_eq_some_iff hplain).mp hstrip
    have hsame : i = docId := hown.symm.trans (Option.some.inj hid)
    rw [hev q _ hq] at hstate
    rw [← hsame, Slot.live, slot, hlookup]
    exact hstate
  · intro hlive
    cases hdoc : j.store.documents.lookup (docKey collection docId) with
    | none =>
      rw [Slot.live, slot, hdoc] at hlive
      cases hlive
    | some stored =>
      rw [Slot.live, slot, hdoc] at hlive
      obtain ⟨c₀, i₀, hplain, hkey, hown⟩ := h _ stored hdoc
      obtain ⟨rfl, rfl⟩ := (docKey_inj hplain).mp hkey.symm
      refine ⟨IrohDocumentStore.documentOf i₀ stored, ⟨.all, rfl, ?_⟩, congrArg some hown⟩
      refine IrohDocumentStore.mem_query_iff.mpr
        ⟨_, i₀, stored, hdoc, stripPrefix_docKey c₀ i₀, rfl, ?_, rfl⟩
      rw [hev .all _ rfl]
      exact hlive

theorem consistent_iff_good (hev : ev.Documented) (h : PlainStore j.store) :
    j.Consistent ev ↔ ∀ name, (j.slot name).Good marks :=
  Slot.deletionConsistent_iff_good (shows_iff_live hev h) fun _ _ => rfl

theorem good_step_iff (hplain : call.op.Plain) (h : ∀ name, (j.slot name).Good marks) :
    (∀ name, ((step rootAfter j call).slot name).Good marks) ↔ Clear rootAfter j call := by
  rw [clear_iff_slot]
  exact Slot.forall_good_iff (slot_step hplain) h

theorem good_start (deletionPolicy : String → DeletionPolicy) (nodeId : String)
    (name : String × String) : ((start deletionPolicy nodeId).slot name).Good marks := by
  constructor
  · exact fun h => absurd h Bool.false_ne_true
  · exact fun h => absurd h Bool.false_ne_true

theorem plainStore_start (deletionPolicy : String → DeletionPolicy) (nodeId : String) :
    PlainStore (start deletionPolicy nodeId).store :=
  fun key _ hlookup => nomatch (AList.lookup_empty key).symm.trans hlookup

theorem consistent_iff_clear (hev : ev.Documented) (rootAfter : Option Fields → Fields)
    (deletionPolicy : String → DeletionPolicy) (nodeId : String) (calls : List StorageCall)
    (hplain : ∀ call ∈ calls, call.op.Plain) :
    (∀ pre, pre <+: calls →
      (run (step rootAfter) (start deletionPolicy nodeId) pre).Consistent ev) ↔
      RunMeets (step rootAfter) (Clear rootAfter) (start deletionPolicy nodeId) calls := by
  have hmeets : RunMeets (step rootAfter) (fun _ call => call.op.Plain)
      (start deletionPolicy nodeId) calls := runMeets_of_forall_mem hplain
  have hstart := plainStore_start deletionPolicy nodeId
  refine run_within_iff_of_meets (fun j => PlainStore j.store) (Consistent ev)
    (fun _ _ hop h => plainStore_step hop h) (fun j call hop h hc => ?_) hmeets hstart ?_
  · rw [consistent_iff_good hev (plainStore_step hop h)]
    exact good_step_iff hop ((consistent_iff_good hev h).mp hc)
  · exact (consistent_iff_good hev hstart).mpr (good_start deletionPolicy nodeId)

end IrohDeletionJournal

/-! ## 3. Both stores -/

/-- **Deletion is visible and consistent in both stores**, over runs without colons, exactly as far as
    their conditions hold. -/
theorem deletion_consistent_iff {ev : Evaluators} (hev : ev.Documented)
    (rootAfter : Option Fields → Fields) (deletionPolicy : String → DeletionPolicy) (nodeId : String)
    (ops : List DeletionOp) (hops : ∀ op ∈ ops, op.Plain)
    (calls : List StorageCall) (hcalls : ∀ call ∈ calls, call.op.Plain) :
    ((∀ pre, pre <+: ops →
        (run DeletionJournal.step (.start deletionPolicy) pre).Consistent ev) ↔
      RunMeets DeletionJournal.step DeletionJournal.Clear (.start deletionPolicy) ops) ∧
    ((∀ pre, pre <+: calls → (run (IrohDeletionJournal.step rootAfter)
        (.start deletionPolicy nodeId) pre).Consistent ev) ↔
      RunMeets (IrohDeletionJournal.step rootAfter) (IrohDeletionJournal.Clear rootAfter)
        (.start deletionPolicy nodeId) calls) :=
  ⟨DeletionJournal.consistent_iff_clear hev deletionPolicy ops hops,
    IrohDeletionJournal.consistent_iff_clear hev rootAfter deletionPolicy nodeId calls hcalls⟩

section Runs

def nodeOne : Document := ⟨some "n1", ∅⟩

def nodeWritten : DeletionOp := .upsert "nodes" nodeOne none ""

def nodeDeleted : DeletionOp := .delete "nodes" "n1" none ⟨0, 0, "1970-01-01T00:00:00Z"⟩

def fineCall (op : DeletionOp) : StorageCall := ⟨op, 0, .fine⟩

def keepRoot (root : Option Fields) : Fields := root.getD ∅

/-- With tombstones a document that is written and deleted is gone from both stores. -/
theorem deletion_consistent_iff_tombstone :
    (∀ pre, pre <+: [nodeWritten, nodeDeleted] →
      (run DeletionJournal.step (.start fun _ => .tombstone 60 true) pre).Consistent
        plainEvaluators) ∧
    (∀ pre, pre <+: [fineCall nodeWritten, fineCall nodeDeleted] →
      (run (IrohDeletionJournal.step keepRoot) (.start (fun _ => .tombstone 60 true) "n0")
        pre).Consistent plainEvaluators) := by
  have hboth := deletion_consistent_iff plainEvaluators_documented keepRoot
    (fun _ => .tombstone 60 true) "n0" [nodeWritten, nodeDeleted] (by decide +kernel)
    [fineCall nodeWritten, fineCall nodeDeleted]
    (fun call h => by
      rcases List.mem_pair.mp h with rfl | rfl
      · exact (by decide +kernel : nodeWritten.Plain)
      · exact (by decide +kernel : nodeDeleted.Plain))
  have herased : (fineCall nodeDeleted).outcome.erased ≠ false := Ne.symm Bool.false_ne_true
  refine ⟨hboth.1.mpr (by decide +kernel), hboth.2.mpr ⟨fun _ _ => ⟨rfl, rfl⟩, ?_, trivial⟩⟩
  exact fun _ h => absurd h herased

/-- An upsert brings a document back whose tombstone stays. A soft deletion of the persistent store reports
    success, and the query still shows the document. -/
theorem deleted_document_shown :
    ¬ (run DeletionJournal.step (.start fun _ => .tombstone 60 true)
        [nodeWritten, nodeDeleted, nodeWritten]).Consistent plainEvaluators ∧
    ¬ (run (IrohDeletionJournal.step keepRoot) (.start (fun _ => .softDelete false) "n0")
        [fineCall nodeWritten, fineCall nodeDeleted]).Consistent plainEvaluators := by
  constructor
  · intro h
    have hshown : DeletionJournal.Shows plainEvaluators (run DeletionJournal.step
        (.start fun _ => .tombstone 60 true) [nodeWritten, nodeDeleted, nodeWritten]).backend
        "nodes" nodeOne := ⟨.all, [nodeOne], rfl, rfl, List.mem_singleton_self _⟩
    have hdeleted := h.shown "nodes" nodeOne "n1" hshown rfl
    exact absurd hdeleted (by decide +kernel)
  · intro h
    have hshown : IrohDeletionJournal.Shows plainEvaluators (run (IrohDeletionJournal.step keepRoot)
        (.start (fun _ => .softDelete false) "n0")
        [fineCall nodeWritten, fineCall nodeDeleted]).store "nodes" nodeOne := by
      refine ⟨.all, rfl, IrohDocumentStore.mem_query_iff.mpr
        ⟨docKey "nodes" "n1", "n1", _, rfl, stripPrefix_docKey "nodes" "n1", rfl, rfl, rfl⟩⟩
    exact (h.stays "nodes" "n1" rfl).2 nodeOne hshown rfl

end Runs

end Peat.Sync
