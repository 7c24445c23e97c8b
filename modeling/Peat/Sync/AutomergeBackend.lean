/-
  THE IN-MEMORY BACKEND (`AutomergeBackend` of sync/automerge.rs): documents, tombstones
  and observers.

  A stored Automerge document is modelled by the fields it was written with; a write
  replaces all of them. Generated ids, clock readings and texts made from them are
  inputs.
-/
import Peat.Sync.Document

namespace Peat.Sync

open Peat.Lib

/-! ## 1. The types of the store -/

inductive StoreError where
  | notFound (resourceType id : String)
  | internal (message : String)
  | storage (message operation : String) (key : Option String)
  deriving DecidableEq

inductive DeletionPolicy where
  | immutable
  | implicitTtl (ttl : Nat)
  | tombstone (tombstoneTtl : Nat) (deleteWins : Bool)
  | softDelete (includeDeletedDefault : Bool)
  deriving DecidableEq

structure Tombstone where
  documentId : String
  collection : String
  deletedAt : Nat
  deletedBy : String
  lamport : UInt64
  reason : Option String
  deriving DecidableEq

structure DeleteResult where
  deleted : Bool
  tombstoneId : Option String
  expiresAt : Option Nat
  policy : DeletionPolicy
  deriving DecidableEq

def DeleteResult.kept (policy : DeletionPolicy) : DeleteResult := ⟨false, none, none, policy⟩

def DeleteResult.softDeleted (policy : DeletionPolicy) : DeleteResult := ⟨true, none, none, policy⟩

inductive ChangeEvent where
  | initial (collection : String) (documents : List Document)
  | updated (collection : String) (document : Document) (origin : Option String)
  | removed (collection docId : String) (origin : Option String)

structure AutomergeBackend where
  documents : HashMap String Fields
  observers : List (List ChangeEvent)
  tombstones : HashMap String Tombstone
  deletionPolicy : String → DeletionPolicy
  lamportCounter : UInt64
  pendingTombstones : List Tombstone
  appId : Option String

/-! ## 2. Documents -/

namespace AutomergeBackend

def new (deletionPolicy : String → DeletionPolicy) : AutomergeBackend where
  documents := ∅
  observers := []
  tombstones := ∅
  deletionPolicy := deletionPolicy
  lamportCounter := 0
  pendingTombstones := []
  appId := none

def notify (b : AutomergeBackend) (event : ChangeEvent) : AutomergeBackend :=
  { b with observers := b.observers.map (· ++ [event]) }

def put (b : AutomergeBackend) (collection docId : String) (fields : Fields) : AutomergeBackend :=
  { b with documents := b.documents.insert (docKey collection docId) fields }

def upsertWithOrigin (b : AutomergeBackend) (collection : String) (document : Document)
    (origin : Option String) (uuid : String) : String × AutomergeBackend :=
  let docId := document.id.getD uuid
  (docId, (b.put collection docId document.fields).notify
    (.updated collection { document with id := some docId } origin))

def documentOf (key : String) (fields : Fields) : Document := ⟨some (idOfKey key), fields⟩

def visit (ev : Evaluators) (collection : String) (q : Query) (e : Σ _ : String, Fields) :
    Except StoreError (Option Document) :=
  if startsWith e.1 (collection ++ ":") = false then .ok none
  else if ev.matchesDeletionState q (documentOf e.1 e.2) = false then .ok none
  else
    match matchesQuery ev (documentOf e.1 e.2) q with
    | .error message => .error (.internal message)
    | .ok false => .ok none
    | .ok true => .ok (some (documentOf e.1 e.2))

def queryLoop (ev : Evaluators) (collection : String) (q : Query) :
    List (Σ _ : String, Fields) → Except StoreError (List Document)
  | [] => .ok []
  | e :: entries =>
    match visit ev collection q e with
    | .error error => .error error
    | .ok found => (queryLoop ev collection q entries).map (found.toList ++ ·)

def query (b : AutomergeBackend) (ev : Evaluators) (collection : String) (q : Query) :
    Except StoreError (List Document) :=
  queryLoop ev collection q b.documents.entries

def take (b : AutomergeBackend) (collection docId : String) : AutomergeBackend :=
  { b with documents := b.documents.erase (docKey collection docId) }

def remove (b : AutomergeBackend) (collection docId : String) :
    Except StoreError Unit × AutomergeBackend :=
  match b.documents.lookup (docKey collection docId) with
  | none => (.error (.notFound "Document" docId), b)
  | some _ => (.ok (), (b.take collection docId).notify (.removed collection docId none))

def get (b : AutomergeBackend) (collection docId : String) : Option Document :=
  (b.documents.lookup (docKey collection docId)).map fun fields => ⟨some docId, fields⟩

def matched (ev : Evaluators) (q : Query) (doc : Document) : Bool :=
  (matchesQuery ev doc q).toOption.getD false

def snapshot (b : AutomergeBackend) (ev : Evaluators) (collection : String) (q : Query) :
    List Document :=
  (b.documents.entries.filter fun e => startsWith e.1 (collection ++ ":")).map
    (fun e => documentOf e.1 e.2) |>.filter (matched ev q)

def register (b : AutomergeBackend) (collection : String) (initial : List Document) :
    AutomergeBackend :=
  { b with observers := b.observers ++ [[.initial collection initial]] }

def observe (b : AutomergeBackend) (ev : Evaluators) (collection : String) (q : Query) :
    AutomergeBackend :=
  b.register collection (b.snapshot ev collection q)

/-! ## 3. Deletions -/

def nodeId (b : AutomergeBackend) : String := b.appId.getD "local"

def newTombstone (b : AutomergeBackend) (collection docId : String) (reason : Option String)
    (now : Nat) : Tombstone where
  documentId := docId
  collection := collection
  deletedAt := now
  deletedBy := b.nodeId
  lamport := b.lamportCounter
  reason := reason

def softDeletedFields (fields : Fields) (deletedAt : String) (reason : Option String) : Fields :=
  let marked := (fields.insert "_deleted" (.bool true)).insert "_deleted_at" (.string deletedAt)
  match reason with
  | none => marked
  | some r => marked.insert "_deleted_reason" (.string r)

structure DeleteInput where
  tombstoneAt : Nat
  expiresFrom : Nat
  deletedAt : String

def bury (b : AutomergeBackend) (tombstone : Tombstone) : AutomergeBackend :=
  { b with tombstones :=
      b.tombstones.insert (docKey tombstone.collection tombstone.documentId) tombstone }
    |>.remove tombstone.collection tombstone.documentId |>.2

def delete (b : AutomergeBackend) (collection docId : String) (reason : Option String)
    (input : DeleteInput) : DeleteResult × AutomergeBackend :=
  match b.deletionPolicy collection with
  | .immutable => (.kept .immutable, b)
  | .implicitTtl ttl => (.kept (.implicitTtl ttl), b)
  | .tombstone ttl deleteWins =>
    let tombstone := b.newTombstone collection docId reason input.tombstoneAt
    (⟨true, some (docKey collection docId), some (input.expiresFrom + ttl), .tombstone ttl deleteWins⟩,
      { b with
        lamportCounter := b.lamportCounter + 1
        pendingTombstones := b.pendingTombstones ++ [tombstone] }.bury tombstone)
  | .softDelete incl =>
    match b.get collection docId with
    | none => (.kept (.softDelete incl), b)
    | some doc => (.softDeleted (.softDelete incl), (b.upsertWithOrigin collection
        { doc with fields := softDeletedFields doc.fields input.deletedAt reason } none "").2)

def isDeleted (b : AutomergeBackend) (collection docId : String) : Bool :=
  (b.tombstones.lookup (docKey collection docId)).isSome ||
    ((b.get collection docId).map (·.softDeleted)).getD false

def applyTombstone (b : AutomergeBackend) (tombstone : Tombstone) : AutomergeBackend :=
  b.bury tombstone

variable {b : AutomergeBackend} {ev : Evaluators} {collection : String} {q : Query}

variable {doc : Document} {docs : List Document}

theorem visit_eq_some_iff {e : Σ _ : String, Fields} :
    visit ev collection q e = .ok (some doc) ↔
      startsWith e.1 (collection ++ ":") = true ∧ documentOf e.1 e.2 = doc ∧
        ev.matchesDeletionState q doc = true ∧ matchesQuery ev doc q = .ok true := by
  have hdoc : visit ev collection q e = .ok (some doc) → documentOf e.1 e.2 = doc := by
    unfold visit
    intro h
    split at h
    · cases h
    · split at h
      · cases h
      · split at h <;> cases h
        rfl
  constructor
  · intro h
    cases hdoc h
    unfold visit at h
    split at h
    · cases h
    · rename_i hstart
      split at h
      · cases h
      · rename_i hstate
        split at h
        · cases h
        · cases h
        · rename_i hmatch
          exact ⟨Bool.not_eq_false _ ▸ hstart, rfl, Bool.not_eq_false _ ▸ hstate, hmatch⟩
  · rintro ⟨hstart, rfl, hstate, hmatch⟩
    simp only [visit, hstart, hstate, hmatch, Bool.true_eq_false, if_false]

def found (ev : Evaluators) (collection : String) (q : Query) (e : Σ _ : String, Fields) :
    Option Document :=
  (visit ev collection q e).toOption.join

theorem found_eq_some_iff {e : Σ _ : String, Fields} :
    found ev collection q e = some doc ↔ visit ev collection q e = .ok (some doc) := by
  unfold found
  cases visit ev collection q e with
  | error error => exact iff_of_false nofun nofun
  | ok picked => exact ⟨fun h => congrArg _ h, fun h => Except.ok.inj h⟩

theorem eq_of_queryLoop {entries : List (Σ _ : String, Fields)}
    (h : queryLoop ev collection q entries = .ok docs) :
    docs = entries.filterMap (found ev collection q) := by
  induction entries generalizing docs with
  | nil =>
    cases h
    rfl
  | cons e entries ih =>
    rw [queryLoop] at h
    cases hvisit : visit ev collection q e with
    | error error =>
      rw [hvisit] at h
      cases h
    | ok picked =>
      have hfound : found ev collection q e = picked := by rw [found, hvisit]; rfl
      cases hrest : queryLoop ev collection q entries with
      | error error =>
        rw [hvisit, hrest] at h
        cases h
      | ok rest =>
        rw [hvisit, hrest] at h
        cases h
        rw [List.filterMap_cons, hfound, ← ih hrest]
        cases picked <;> rfl

theorem mem_query_iff (h : b.query ev collection q = .ok docs) :
    doc ∈ docs ↔ ∃ key fields, b.documents.lookup key = some fields ∧
      startsWith key (collection ++ ":") = true ∧ documentOf key fields = doc ∧
        ev.matchesDeletionState q doc = true ∧ matchesQuery ev doc q = .ok true := by
  rw [eq_of_queryLoop h, List.mem_filterMap]
  simp only [found_eq_some_iff, visit_eq_some_iff, Sigma.exists, lookup_eq_some_iff]

theorem query_all_eq : b.query ev collection .all =
    .ok (b.documents.entries.filterMap (found ev collection .all)) := by
  have hok : ∀ entries, ∃ docs, queryLoop ev collection .all entries = .ok docs := by
    intro entries
    induction entries with
    | nil => exact ⟨[], rfl⟩
    | cons e entries ih =>
      obtain ⟨rest, hrest⟩ := ih
      have hvisit : ∃ picked, visit ev collection .all e = .ok picked := by
        unfold visit
        split
        · exact ⟨_, rfl⟩
        · split
          · exact ⟨_, rfl⟩
          · exact ⟨_, rfl⟩
      obtain ⟨picked, hpicked⟩ := hvisit
      rw [queryLoop, hpicked, hrest]
      exact ⟨_, rfl⟩
  obtain ⟨docs, hdocs⟩ := hok b.documents.entries
  rw [query, hdocs, eq_of_queryLoop hdocs]

def PlainStore (b : AutomergeBackend) : Prop :=
  ∀ key fields, b.documents.lookup key = some fields →
    ∃ collection docId, PlainKey collection docId ∧ key = docKey collection docId

theorem PlainStore.key_eq (h : b.PlainStore) {key : String} {fields : Fields}
    (hlookup : b.documents.lookup key = some fields)
    (hstart : startsWith key (collection ++ ":") = true) :
    key = docKey collection (idOfKey key) := by
  obtain ⟨c, i, hplain, rfl⟩ := h key fields hlookup
  rw [idOfKey_docKey hplain, (startsWith_docKey_iff hplain).mp hstart]

theorem PlainStore.plainKey (h : b.PlainStore) {docId : String} {fields : Fields}
    (hlookup : b.documents.lookup (docKey collection docId) = some fields) :
    PlainKey collection docId := by
  obtain ⟨c, i, hplain, hkey⟩ := h _ fields hlookup
  obtain ⟨rfl, rfl⟩ := (docKey_inj hplain).mp hkey.symm
  exact hplain

theorem PlainStore.mem_query_all (h : b.PlainStore) (hev : ev.Documented)
    (hq : b.query ev collection .all = .ok docs) :
    doc ∈ docs ↔ doc.softDeleted = false ∧
      ∃ docId, doc.id = some docId ∧ b.get collection docId = some doc := by
  rw [mem_query_iff hq]
  constructor
  · rintro ⟨key, fields, hlookup, hstart, rfl, hstate, -⟩
    rw [hev .all _ rfl, Bool.not_eq_true'] at hstate
    refine ⟨hstate, idOfKey key, rfl, ?_⟩
    rw [get, ← h.key_eq hlookup hstart, hlookup]
    rfl
  · rintro ⟨hsoft, docId, hid, hget⟩
    obtain ⟨fields, hlookup, rfl⟩ := Option.map_eq_some_iff.mp hget
    have hplain := h.plainKey hlookup
    refine ⟨_, fields, hlookup, (startsWith_docKey_iff hplain).mpr rfl, ?_, ?_, rfl⟩
    · rw [documentOf, idOfKey_docKey hplain]
    · rw [hev .all _ rfl, hsoft]
      rfl

theorem mem_snapshot_iff :
    doc ∈ b.snapshot ev collection q ↔ ∃ key fields, b.documents.lookup key = some fields ∧
      startsWith key (collection ++ ":") = true ∧ documentOf key fields = doc ∧
        matched ev q doc = true := by
  simp only [snapshot, List.mem_filter, List.mem_map, Sigma.exists, lookup_eq_some_iff]
  constructor
  · rintro ⟨⟨key, fields, ⟨hmem, hstart⟩, hdoc⟩, hmatch⟩
    exact ⟨key, fields, hmem, hstart, hdoc, hmatch⟩
  · rintro ⟨key, fields, hmem, hstart, hdoc, hmatch⟩
    exact ⟨⟨key, fields, ⟨hmem, hstart⟩, hdoc⟩, hmatch⟩

/-! ## 4. What the operations write -/

theorem lookup_remove (docId key : String) :
    (b.remove collection docId).2.documents.lookup key =
      if key = docKey collection docId then none else b.documents.lookup key := by
  unfold remove
  split
  · rename_i hnone
    split
    · rename_i e
      rw [e, hnone]
    · rfl
  · split
    · rename_i e
      rw [e]
      exact AList.lookup_erase _ _
    · rename_i e
      exact AList.lookup_erase_ne e

theorem tombstones_remove (docId : String) :
    (b.remove collection docId).2.tombstones = b.tombstones := by
  unfold remove
  split <;> rfl

theorem lookup_documents_bury (tombstone : Tombstone) (key : String) :
    (b.bury tombstone).documents.lookup key =
      if key = docKey tombstone.collection tombstone.documentId then none
      else b.documents.lookup key :=
  lookup_remove tombstone.documentId key

theorem lookup_tombstones_bury (tombstone : Tombstone) (key : String) :
    (b.bury tombstone).tombstones.lookup key =
      if key = docKey tombstone.collection tombstone.documentId then some tombstone
      else b.tombstones.lookup key := by
  rw [bury, tombstones_remove]
  exact lookup_insert_eq_ite _ _ _ _

end AutomergeBackend

end Peat.Sync
