/-
  THE DOCUMENT STORE LAW of the in-memory backend: a map from collections and ids to
  documents.

  Beside the backend stands that map (`StoreJournal.written`): what was upserted
  last under a collection and an id and not removed since.
-/
import Peat.Lib.Run
import Peat.Sync.AutomergeBackend

namespace Peat.Sync

open Peat.Lib

/-- The backend, and the fields written last. -/
structure StoreJournal where
  backend : AutomergeBackend
  written : String × String → Option Fields

namespace StoreJournal

inductive Op where
  | upsert (collection : String) (document : Document) (origin : Option String) (uuid : String)
  | remove (collection docId : String)

def Op.target : Op → String × String
  | .upsert collection document _ uuid => (collection, document.id.getD uuid)
  | .remove collection docId => (collection, docId)

def Op.leaves : Op → Option Fields
  | .upsert _ document _ _ => some document.fields
  | .remove _ _ => none

def start (deletionPolicy : String → DeletionPolicy) : StoreJournal := ⟨.new deletionPolicy, fun _ => none⟩

def applied (b : AutomergeBackend) : Op → AutomergeBackend
  | .upsert collection document origin uuid =>
    (b.upsertWithOrigin collection document origin uuid).2
  | .remove collection docId => (b.remove collection docId).2

def step (j : StoreJournal) (op : Op) : StoreJournal :=
  ⟨applied j.backend op, Function.update j.written op.target op.leaves⟩

/-- **The document store law**: `get` shows what was written, and a query for all documents of a
    collection shows each of them that is not soft-deleted, once and under its own id. -/
structure Lawful (ev : Evaluators) (j : StoreJournal) : Prop where
  get : ∀ collection docId, j.backend.get collection docId =
    (j.written (collection, docId)).map fun fields => ⟨some docId, fields⟩
  query : ∀ collection, ∃ docs, j.backend.query ev collection .all = .ok docs ∧
    (docs.map (·.id)).Nodup ∧
    ∀ doc, doc ∈ docs ↔ doc.softDeleted = false ∧
      ∃ docId, doc.id = some docId ∧ j.backend.get collection docId = some doc

/-- Other documents are left alone. -/
def Frames (j : StoreJournal) (op : Op) : Prop :=
  ∀ collection docId, (collection, docId) ≠ op.target →
    (j.step op).backend.get collection docId = j.backend.get collection docId

/-- The key splits back into collection and id. -/
def Clear (_ : StoreJournal) : Op → Prop
  | .upsert collection document _ uuid => PlainKey collection (document.id.getD uuid)
  | .remove _ _ => True

instance (j : StoreJournal) : ∀ op, Decidable (j.Clear op)
  | .upsert collection document _ uuid =>
    inferInstanceAs (Decidable (PlainKey collection (document.id.getD uuid)))
  | .remove _ _ => isTrue trivial

structure Faithful (j : StoreJournal) : Prop where
  plain : j.backend.PlainStore
  holds : ∀ collection docId, j.backend.documents.lookup (docKey collection docId) =
    j.written (collection, docId)

variable {ev : Evaluators} {j : StoreJournal}

/-! ## 1. From faithful to lawful -/

theorem Faithful.get (h : j.Faithful) (collection docId : String) :
    j.backend.get collection docId =
      (j.written (collection, docId)).map fun fields => ⟨some docId, fields⟩ := by
  rw [AutomergeBackend.get, h.holds]

theorem Faithful.nodup (h : j.Faithful) (collection : String) :
    ((j.backend.documents.entries.filterMap
      (AutomergeBackend.found ev collection .all)).map (·.id)).Nodup := by
  unfold List.Nodup
  rw [List.pairwise_map, List.pairwise_filterMap]
  refine (List.nodupKeys_iff_pairwise.mp j.backend.documents.nodupKeys).imp_of_mem ?_
  -- two entries that add documents of one id have one key
  intro e e' he he' hne doc hdoc doc' hdoc' hid
  rw [AutomergeBackend.found_eq_some_iff, AutomergeBackend.visit_eq_some_iff] at hdoc hdoc'
  obtain ⟨hstart, rfl, -⟩ := hdoc
  obtain ⟨hstart', rfl, -⟩ := hdoc'
  apply hne
  rw [h.plain.key_eq (lookup_eq_some_iff.mpr he) hstart,
    h.plain.key_eq (lookup_eq_some_iff.mpr he') hstart', Option.some.inj hid]

theorem Faithful.lawful (hev : ev.Documented) (h : j.Faithful) : j.Lawful ev where
  get := h.get
  query collection := ⟨_, AutomergeBackend.query_all_eq, h.nodup collection,
    fun _ => h.plain.mem_query_all hev AutomergeBackend.query_all_eq⟩

/-! ## 2. One operation -/

theorem written_step_self (op : Op) : (j.step op).written op.target = op.leaves :=
  Function.update_self _ _ _

theorem written_step_of_ne {op : Op} {target : String × String} (h : target ≠ op.target) :
    (j.step op).written target = j.written target := Function.update_of_ne h _ _

theorem lookup_step (op : Op) (key : String) :
    (j.step op).backend.documents.lookup key =
      if key = docKey op.target.1 op.target.2 then op.leaves else j.backend.documents.lookup key := by
  cases op with
  | upsert collection document origin uuid => exact lookup_insert_eq_ite _ _ _ _
  | remove collection docId => exact AutomergeBackend.lookup_remove docId key

theorem Faithful.lookup_not_plain (h : j.Faithful) {collection docId : String}
    (hnot : ¬ PlainKey collection docId) :
    j.backend.documents.lookup (docKey collection docId) = none := by
  rw [Option.eq_none_iff_forall_ne_some]
  exact fun fields hlookup => hnot (h.plain.plainKey hlookup)

theorem Faithful.step (h : j.Faithful) {op : Op} (hclear : j.Clear op) : (j.step op).Faithful where
  plain := by
    intro key fields hlookup
    rw [lookup_step] at hlookup
    split at hlookup
    · rename_i e
      cases op with
      | upsert collection document origin uuid => exact ⟨_, _, hclear, e⟩
      | remove collection docId => cases hlookup
    · exact h.plain key fields hlookup
  holds := by
    intro collection docId
    rw [lookup_step]
    by_cases htarget : (collection, docId) = op.target
    · rw [htarget, written_step_self, ← htarget, if_pos rfl]
    · rw [written_step_of_ne htarget, ← h.holds]
      split
      · rename_i hkey
        -- another document of the same key: neither is plain, so this is a removal
        have hnot : ¬ PlainKey op.target.1 op.target.2 := by
          intro hplain
          obtain ⟨h₁, h₂⟩ := (docKey_inj hplain).mp hkey.symm
          exact htarget (Prod.ext h₁.symm h₂.symm)
        rw [hkey, h.lookup_not_plain hnot]
        cases op with
        | upsert c document origin uuid => exact absurd hclear hnot
        | remove c i => rfl
      · rfl

theorem Faithful.clear_of_lawful (h : j.Faithful) {op : Op} (hlaw : (j.step op).Lawful ev) :
    j.Clear op := by
  cases op with
  | remove collection docId => trivial
  | upsert collection document origin uuid =>
    by_contra hnot
    obtain ⟨c, i, hne, hkey⟩ := exists_docKey_eq hnot
    have hshown := (lookup_step (j := j) (.upsert collection document origin uuid)
      (docKey c i)).trans (if_pos hkey)
    have hget := hlaw.get c i
    rw [AutomergeBackend.get, hshown, written_step_of_ne hne, ← h.holds, hkey,
      h.lookup_not_plain hnot] at hget
    cases hget

theorem frames_of_lawful {op : Op} (h : j.Lawful ev) (hnext : (j.step op).Lawful ev) :
    j.Frames op := by
  intro collection docId hne
  rw [hnext.get, h.get, written_step_of_ne hne]

theorem faithful_start (deletionPolicy : String → DeletionPolicy) : (start deletionPolicy).Faithful where
  plain key _ hlookup := nomatch (AList.lookup_empty key).symm.trans hlookup
  holds _ _ := AList.lookup_empty _

/-! ## 3. Runs -/

/-- **The document store law** holds in every state of a run exactly when no upsert has a colon in its
    collection or its id. -/
theorem document_law_iff (ev : Evaluators) (hev : ev.Documented)
    (deletionPolicy : String → DeletionPolicy) (ops : List Op) :
    ((∀ pre, pre <+: ops → (run step (start deletionPolicy) pre).Lawful ev) ∧
        RunMeets step Frames (start deletionPolicy) ops) ↔
      RunMeets step Clear (start deletionPolicy) ops := by
  have hlaw : (∀ pre, pre <+: ops → (run step (start deletionPolicy) pre).Lawful ev) ↔
      RunMeets step Clear (start deletionPolicy) ops :=
    run_within_iff_of_stronger (Lawful ev) Faithful (fun _ h => h.lawful hev)
      (fun _ _ h hclear => h.step hclear) (fun _ _ h hnext => h.clear_of_lawful hnext)
      (faithful_start deletionPolicy)
  rw [← hlaw]
  refine and_iff_left_of_imp fun hall => ?_
  refine runMeets_weaken Faithful (fun j op hclear h => ⟨?_, h.step hclear⟩)
    (faithful_start deletionPolicy) (hlaw.mp hall)
  exact frames_of_lawful (h.lawful hev) ((h.step hclear).lawful hev)

def upsertEmpty (collection docId : String) : Op := .upsert collection ⟨some docId, ∅⟩ none ""

/-- Two documents, one of them removed. -/
theorem document_law_iff_nodes :
    let ops := [upsertEmpty "nodes" "n1", upsertEmpty "nodes" "n2", .remove "nodes" "n1"]
    (∀ pre, pre <+: ops →
        (run step (start fun _ => .softDelete false) pre).Lawful plainEvaluators) ∧
      RunMeets step Frames (start fun _ => .softDelete false) ops :=
  (document_law_iff plainEvaluators plainEvaluators_documented _ _).mpr (by decide)

/-- **A document of another collection**: "b:c" written to "a" is found as "c" of "a:b". -/
theorem colon_shows_elsewhere :
    let j := run step (start fun _ => .softDelete false) [upsertEmpty "a" "b:c"]
    j.written ("a:b", "c") = none ∧ j.backend.get "a:b" "c" = some ⟨some "c", ∅⟩ ∧
      j.backend.query plainEvaluators "a" .all = .ok [⟨some "b", ∅⟩] ∧
      ¬ j.Lawful plainEvaluators := by
  refine ⟨by decide, rfl, rfl, fun h => ?_⟩
  have hget := h.get "a:b" "c"
  nomatch hget

end StoreJournal

end Peat.Sync
