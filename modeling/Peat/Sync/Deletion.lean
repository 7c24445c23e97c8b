/-
  DELETION: what every store has to keep to, and the in-memory backend's tombstones and
  soft deletions.

  What a store has to keep to is said once for every store (`DeletionConsistent`);
  `IrohDeletion` says it of the persistent store.
-/
import Peat.Lib.Run
import Peat.Sync.AutomergeBackend

namespace Peat.Sync

open Peat.Lib

/-! ## 1. What every store has to keep to -/

inductive DeletionOp where
  | upsert (collection : String) (document : Document) (origin : Option String) (generated : String)
  | delete (collection docId : String) (reason : Option String)
      (input : AutomergeBackend.DeleteInput)
  | applyTombstone (tombstone : Tombstone)

namespace DeletionOp

def target : DeletionOp → String × String
  | .upsert collection document _ generated => (collection, document.id.getD generated)
  | .delete collection docId _ _ => (collection, docId)
  | .applyTombstone tombstone => (tombstone.collection, tombstone.documentId)

/-- The key splits back into collection and id. -/
def Plain (op : DeletionOp) : Prop := PlainKey op.target.1 op.target.2

instance (op : DeletionOp) : Decidable op.Plain := inferInstanceAs (Decidable (PlainKey _ _))

end DeletionOp

/-- **Deletion is visible and consistent**: a document whose deletion was reported, and that was not
    written since, is deleted and not shown, and a document that is shown is not deleted. -/
structure DeletionConsistent (shows : String → Document → Prop) (isDeleted : String → String → Bool)
    (reported : String × String → Bool) : Prop where
  stays : ∀ collection docId, reported (collection, docId) = true →
    isDeleted collection docId = true ∧ ∀ doc, shows collection doc → doc.id ≠ some docId
  shown : ∀ collection doc docId, shows collection doc → doc.id = some docId →
    isDeleted collection docId = false

theorem deletionConsistent_iff {shows : String → Document → Prop}
    {isDeleted : String → String → Bool} {reported : String × String → Bool} :
    DeletionConsistent shows isDeleted reported ↔ ∀ collection docId,
      (reported (collection, docId) = true → isDeleted collection docId = true) ∧
      ((∃ doc, shows collection doc ∧ doc.id = some docId) → isDeleted collection docId = false) := by
  constructor
  · intro h collection docId
    refine ⟨fun hr => (h.stays collection docId hr).1, ?_⟩
    rintro ⟨doc, hshows, hid⟩
    exact h.shown collection doc docId hshows hid
  · intro h
    constructor
    · intro collection docId hr
      have hdeleted := (h collection docId).1 hr
      refine ⟨hdeleted, fun doc hshows hid => ?_⟩
      rw [(h collection docId).2 ⟨doc, hshows, hid⟩] at hdeleted
      cases hdeleted
    · exact fun collection doc docId hshows hid => (h collection docId).2 ⟨doc, hshows, hid⟩

def noted (reported : String × String → Bool) (name : String × String) :
    Option Bool → String × String → Bool
  | none => reported
  | some closed => Function.update reported name closed

/-! ## 2. One document of a store -/

structure Marks (ε : Type) where
  shown : ε → Bool
  marked : ε → Bool

structure Slot (ε : Type) where
  tombstone : Option Tombstone
  entry : Option ε
  reported : Bool

namespace Slot

variable {ε : Type} {m : Marks ε}

def isDeleted (m : Marks ε) (s : Slot ε) : Bool :=
  s.tombstone.isSome || (s.entry.map m.marked).getD false

def live (m : Marks ε) (s : Slot ε) : Bool := (s.entry.map m.shown).getD false

def Good (m : Marks ε) (s : Slot ε) : Prop :=
  (s.reported = true → s.isDeleted m = true) ∧ (s.live m = true → s.isDeleted m = false)

inductive Action (m : Marks ε) where
  | put (entry : ε)
  | bury (tombstone : Tombstone) (erased report : Bool)
  | mark (change : ε → ε) (marks : ∀ e, m.marked (change e) = true)
  | skip

def act (s : Slot ε) : Action m → Slot ε
  | .put entry => ⟨s.tombstone, some entry, false⟩
  | .bury tombstone erased report =>
    ⟨some tombstone, if erased then none else s.entry, report || s.reported⟩
  | .mark change _ => ⟨s.tombstone, s.entry.map change, s.entry.isSome || s.reported⟩
  | .skip => s

def Clear (s : Slot ε) : Action m → Prop
  | .put entry => m.shown entry = true → s.tombstone = none ∧ m.marked entry = false
  | .bury _ erased _ => erased = false → ∀ e, s.entry = some e → m.shown e = false
  | .mark change _ => ∀ e, s.entry = some e → m.shown (change e) = false
  | .skip => True

section Mark

variable {s : Slot ε} {change : ε → ε} {marks : ∀ e, m.marked (change e) = true}

theorem act_mark_of_none (h : s.entry = none) : s.act (.mark change marks) = s := by
  obtain ⟨tombstone, entry, reported⟩ := s
  cases h
  rfl

theorem act_mark_of_some {e : ε} (h : s.entry = some e) :
    s.act (.mark change marks) = ⟨s.tombstone, some (change e), true⟩ := by
  obtain ⟨tombstone, entry, reported⟩ := s
  cases h
  rfl

end Mark

def Action.Keeps (P : ε → Prop) : Action m → Prop
  | .put entry => P entry
  | .mark change _ => ∀ e, P e → P (change e)
  | _ => True

theorem Action.Keeps.entry_act {P : ε → Prop} {action : Action m} (hkeeps : action.Keeps P)
    {s : Slot ε} (hold : ∀ e, s.entry = some e → P e) {e : ε}
    (h : (s.act action).entry = some e) : P e := by
  cases action with
  | put new =>
    cases h
    exact hkeeps
  | bury tombstone erased report =>
    cases erased with
    | false => exact hold e h
    | true => cases h
  | mark change marks =>
    obtain ⟨old, hs, rfl⟩ := Option.map_eq_some_iff.mp h
    exact hkeeps old (hold old hs)
  | skip => exact hold e h

theorem good_act_iff {s : Slot ε} (h : s.Good m) (action : Action m) :
    (s.act action).Good m ↔ s.Clear action := by
  obtain ⟨tombstone, entry, reported⟩ := s
  cases action with
  | put new =>
    cases hs : m.shown new <;> cases tombstone <;>
      simp [Good, act, Clear, isDeleted, live, hs]
  | bury tombstone erased report =>
    cases erased <;> cases entry <;> simp [Good, act, Clear, isDeleted, live]
  | mark change marks =>
    cases entry with
    | none => simpa [act, Clear] using h
    | some e => simp [Good, act, Clear, isDeleted, live, marks]
  | skip => exact iff_of_true h trivial

variable {slots : String × String → Slot ε}

theorem forall_good_iff {slots' : String × String → Slot ε} {own : String × String}
    {action : Action m}
    (hstep : ∀ name, slots' name = if name = own then (slots own).act action else slots name)
    (h : ∀ name, (slots name).Good m) :
    (∀ name, (slots' name).Good m) ↔ (slots own).Clear action := by
  rw [← good_act_iff (h own)]
  constructor
  · intro hall
    have hown := hall own
    rw [hstep, if_pos rfl] at hown
    exact hown
  · intro hown name
    rw [hstep]
    split
    · exact hown
    · exact h name

theorem deletionConsistent_iff_good {shows : String → Document → Prop}
    {isDeleted : String → String → Bool}
    (hlive : ∀ collection docId, (∃ doc, shows collection doc ∧ doc.id = some docId) ↔
      (slots (collection, docId)).live m = true)
    (hdeleted : ∀ collection docId, isDeleted collection docId = (slots (collection, docId)).isDeleted m) :
    DeletionConsistent shows isDeleted (fun name => (slots name).reported) ↔
      ∀ name, (slots name).Good m := by
  rw [deletionConsistent_iff]
  simp only [hlive, hdeleted]
  exact ⟨fun hall name => hall name.1 name.2, fun hall collection docId => hall (collection, docId)⟩

end Slot

def markedDeleted (fields : Fields) : Bool := (⟨none, fields⟩ : Document).softDeleted

theorem markedDeleted_softDeletedFields (fields : Fields) (deletedAt : String)
    (reason : Option String) :
    markedDeleted (AutomergeBackend.softDeletedFields fields deletedAt reason) = true := by
  have h : (AutomergeBackend.softDeletedFields fields deletedAt reason).lookup "_deleted" =
      some (.bool true) := by
    unfold AutomergeBackend.softDeletedFields
    cases reason <;> simp [AList.lookup_insert_ne]
  rw [markedDeleted, Document.softDeleted, h]
  rfl

/-! ## 3. Runs of the in-memory backend -/

/-- The backend, and which documents it reported deleted. -/
structure DeletionJournal where
  backend : AutomergeBackend
  reported : String × String → Bool

namespace DeletionJournal

def applied (b : AutomergeBackend) : DeletionOp → Option Bool × AutomergeBackend
  | .upsert collection document origin generated =>
    (some false, (b.upsertWithOrigin collection document origin generated).2)
  | .delete collection docId reason input =>
    let result := b.delete collection docId reason input
    (if result.1.deleted then some true else none, result.2)
  | .applyTombstone tombstone => (none, b.applyTombstone tombstone)

def start (deletionPolicy : String → DeletionPolicy) : DeletionJournal :=
  ⟨.new deletionPolicy, fun _ => false⟩

def step (j : DeletionJournal) (op : DeletionOp) : DeletionJournal :=
  ⟨(applied j.backend op).2, noted j.reported op.target (applied j.backend op).1⟩

def Shows (ev : Evaluators) (b : AutomergeBackend) (collection : String) (doc : Document) : Prop :=
  ∃ q docs, q.deletionAware = false ∧ b.query ev collection q = .ok docs ∧ doc ∈ docs

/-- Queries, `is_deleted` and the results of deletions agree. -/
def Consistent (ev : Evaluators) (j : DeletionJournal) : Prop :=
  DeletionConsistent (Shows ev j.backend) j.backend.isDeleted j.reported

def marks : Marks Fields := ⟨fun fields => !markedDeleted fields, markedDeleted⟩

theorem marked_softDeletedFields (deletedAt : String) (reason : Option String) (fields : Fields) :
    marks.marked (AutomergeBackend.softDeletedFields fields deletedAt reason) = true :=
  markedDeleted_softDeletedFields fields deletedAt reason

def slot (j : DeletionJournal) (name : String × String) : Slot Fields :=
  ⟨j.backend.tombstones.lookup (docKey name.1 name.2),
    j.backend.documents.lookup (docKey name.1 name.2), j.reported name⟩

def action (b : AutomergeBackend) : DeletionOp → Slot.Action marks
  | .upsert _ document _ _ => .put document.fields
  | .delete collection docId reason input =>
    match b.deletionPolicy collection with
    | .immutable => .skip
    | .implicitTtl _ => .skip
    | .tombstone _ _ => .bury (b.newTombstone collection docId reason input.tombstoneAt) true true
    | .softDelete _ => .mark (AutomergeBackend.softDeletedFields · input.deletedAt reason)
        (marked_softDeletedFields input.deletedAt reason)
  | .applyTombstone tombstone => .bury tombstone true false

/-- **The condition**: no upsert of a document that is not marked deleted, where a tombstone lies. -/
def Clear (j : DeletionJournal) : DeletionOp → Prop
  | .upsert collection document _ generated => document.softDeleted = false →
      j.backend.tombstones.lookup (docKey collection (document.id.getD generated)) = none
  | _ => True

instance (j : DeletionJournal) : ∀ op, Decidable (j.Clear op)
  | .upsert _ _ _ _ => inferInstanceAs (Decidable (_ → _))
  | .delete _ _ _ _ => isTrue trivial
  | .applyTombstone _ => isTrue trivial

variable {ev : Evaluators} {j : DeletionJournal}

theorem clear_iff_slot (op : DeletionOp) :
    j.Clear op ↔ (j.slot op.target).Clear (action j.backend op) := by
  cases op with
  | upsert collection document origin generated =>
    have hshown : marks.shown document.fields = !document.softDeleted := rfl
    have hmarked : marks.marked document.fields = document.softDeleted := rfl
    rw [Clear, action, Slot.Clear, hshown, hmarked]
    cases document.softDeleted
    · exact ⟨fun h _ => ⟨h rfl, rfl⟩, fun h _ => (h rfl).1⟩
    · exact ⟨fun _ h => absurd h Bool.false_ne_true, fun _ h => absurd h (Ne.symm Bool.false_ne_true)⟩
  | delete collection docId reason input =>
    refine iff_of_true trivial ?_
    rw [action]
    split
    · trivial
    · trivial
    · exact fun h => nomatch h
    · intro fields _
      show (!markedDeleted _) = false
      rw [markedDeleted_softDeletedFields]
      rfl
  | applyTombstone tombstone => exact iff_of_true trivial fun h => nomatch h

structure Writes (j j' : DeletionJournal) (own : String × String) (s : Slot Fields) :
    Prop where
  documents : ∀ key, j'.backend.documents.lookup key =
    if key = docKey own.1 own.2 then s.entry else j.backend.documents.lookup key
  tombstones : ∀ key, j'.backend.tombstones.lookup key =
    if key = docKey own.1 own.2 then s.tombstone else j.backend.tombstones.lookup key
  reported : ∀ name, j'.reported name = if name = own then s.reported else j.reported name

theorem writes_nothing (own : String × String) : Writes j j own (j.slot own) :=
  ⟨apply_eq_ite_own _ _, apply_eq_ite_own _ _, apply_eq_ite_own _ _⟩

theorem writes_step (op : DeletionOp) :
    Writes j (j.step op) op.target ((j.slot op.target).act (action j.backend op)) := by
  cases op with
  | upsert collection document origin generated =>
    exact ⟨fun _ => lookup_insert_eq_ite _ _ _ _, apply_eq_ite_own _ _, Function.update_apply _ _ _⟩
  | applyTombstone tombstone =>
    exact ⟨AutomergeBackend.lookup_documents_bury tombstone,
      AutomergeBackend.lookup_tombstones_bury tombstone, apply_eq_ite_own _ _⟩
  | delete collection docId reason input =>
    rw [step, applied, action]
    cases hp : j.backend.deletionPolicy collection with
    | immutable =>
      rw [AutomergeBackend.delete, hp]
      exact writes_nothing _
    | implicitTtl ttl =>
      rw [AutomergeBackend.delete, hp]
      exact writes_nothing _
    | tombstone ttl deleteWins =>
      rw [AutomergeBackend.delete, hp]
      exact ⟨AutomergeBackend.lookup_documents_bury _, AutomergeBackend.lookup_tombstones_bury _,
        Function.update_apply _ _ _⟩
    | softDelete incl =>
      have hslot : (j.slot (collection, docId)).entry =
          j.backend.documents.lookup (docKey collection docId) := rfl
      rw [AutomergeBackend.delete, hp, DeletionOp.target]
      dsimp only
      cases hdoc : j.backend.documents.lookup (docKey collection docId) with
      | none =>
        rw [hdoc] at hslot
        rw [Slot.act_mark_of_none hslot, AutomergeBackend.get, hdoc]
        exact writes_nothing _
      | some fields =>
        rw [hdoc] at hslot
        rw [Slot.act_mark_of_some hslot, AutomergeBackend.get, hdoc]
        exact ⟨fun _ => lookup_insert_eq_ite _ _ _ _, apply_eq_ite_own _ _,
          Function.update_apply _ _ _⟩

variable {op : DeletionOp}

theorem slot_step (hplain : op.Plain) (name : String × String) :
    (j.step op).slot name =
      if name = op.target then (j.slot op.target).act (action j.backend op) else j.slot name := by
  have h := writes_step (j := j) op
  rw [slot, h.documents, h.tombstones, h.reported]
  simp only [docKey_eq_iff hplain]
  split
  · rfl
  · rfl

theorem plainStore_step (hplain : op.Plain) (h : j.backend.PlainStore) :
    (j.step op).backend.PlainStore := by
  intro key fields hlookup
  rw [(writes_step op).documents] at hlookup
  split at hlookup
  · rename_i e
    exact ⟨_, _, hplain, e⟩
  · exact h key fields hlookup

/-! ## 4. Consistency is that all slots are in order -/

theorem shows_iff_live (hev : ev.Documented) (h : j.backend.PlainStore) (collection docId : String) :
    (∃ doc, Shows ev j.backend collection doc ∧ doc.id = some docId) ↔
      (j.slot (collection, docId)).live marks = true := by
  constructor
  · rintro ⟨doc, ⟨q, docs, hq, hdocs, hmem⟩, hid⟩
    obtain ⟨key, fields, hlookup, hstart, rfl, hstate, -⟩ :=
      (AutomergeBackend.mem_query_iff hdocs).mp hmem
    rw [hev q _ hq] at hstate
    have hkey := h.key_eq hlookup hstart
    rw [Option.some.inj hid] at hkey
    rw [Slot.live, slot, ← hkey, hlookup]
    exact hstate
  · intro hlive
    cases hdoc : j.backend.documents.lookup (docKey collection docId) with
    | none =>
      rw [Slot.live, slot, hdoc] at hlive
      cases hlive
    | some fields =>
      rw [Slot.live, slot, hdoc] at hlive
      refine ⟨⟨some docId, fields⟩, ⟨.all, _, rfl, AutomergeBackend.query_all_eq, ?_⟩, rfl⟩
      rw [h.mem_query_all hev AutomergeBackend.query_all_eq]
      refine ⟨(Bool.not_eq_true' _).mp hlive, docId, rfl, ?_⟩
      rw [AutomergeBackend.get, hdoc]
      rfl

theorem isDeleted_eq_slot (collection docId : String) :
    j.backend.isDeleted collection docId = (j.slot (collection, docId)).isDeleted marks := by
  rw [AutomergeBackend.isDeleted, AutomergeBackend.get, Option.map_map]
  rfl

theorem consistent_iff_good (hev : ev.Documented) (h : j.backend.PlainStore) :
    j.Consistent ev ↔ ∀ name, (j.slot name).Good marks :=
  Slot.deletionConsistent_iff_good (shows_iff_live hev h) isDeleted_eq_slot

theorem good_step_iff (hplain : op.Plain) (h : ∀ name, (j.slot name).Good marks) :
    (∀ name, ((j.step op).slot name).Good marks) ↔ j.Clear op := by
  rw [clear_iff_slot]
  exact Slot.forall_good_iff (slot_step hplain) h

theorem good_start (deletionPolicy : String → DeletionPolicy) (name : String × String) :
    ((start deletionPolicy).slot name).Good marks := by
  constructor
  · exact fun h => absurd h Bool.false_ne_true
  · exact fun h => absurd h Bool.false_ne_true

theorem plainStore_start (deletionPolicy : String → DeletionPolicy) :
    (start deletionPolicy).backend.PlainStore :=
  fun key _ hlookup => nomatch (AList.lookup_empty key).symm.trans hlookup

theorem consistent_iff_clear (hev : ev.Documented) (deletionPolicy : String → DeletionPolicy)
    (ops : List DeletionOp) (hplain : ∀ op ∈ ops, op.Plain) :
    (∀ pre, pre <+: ops → (run step (start deletionPolicy) pre).Consistent ev) ↔
      RunMeets step Clear (start deletionPolicy) ops := by
  have hmeets : RunMeets step (fun _ op => op.Plain) (start deletionPolicy) ops :=
    runMeets_of_forall_mem hplain
  refine run_within_iff_of_meets (fun j => AutomergeBackend.PlainStore j.backend) (Consistent ev)
    (fun _ _ hop h => plainStore_step hop h) (fun j op hop h hc => ?_) hmeets
    (plainStore_start deletionPolicy) ?_
  · rw [consistent_iff_good hev (plainStore_step hop h)]
    exact good_step_iff hop ((consistent_iff_good hev h).mp hc)
  · exact (consistent_iff_good hev (plainStore_start deletionPolicy)).mpr (good_start deletionPolicy)

end DeletionJournal

end Peat.Sync
