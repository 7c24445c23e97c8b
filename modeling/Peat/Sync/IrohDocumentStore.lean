/-
  THE PERSISTENT STORE (`IrohDocumentStore` of sync/automerge.rs).

  The storage collection keeps a document as one value under the key "data"; the other
  keys of the root are what a soft deletion writes and reads (`Stored`). What an upsert
  leaves of them is a parameter (`rootAfter`). Every write may fail (`StorageOutcome`);
  reads outside of `delete` succeed.
-/
import Peat.Sync.AutomergeBackend
import Peat.Sync.PendingOrigins

namespace Peat.Sync

open Peat.Lib

structure Stored where
  data : Document
  root : Fields

structure IrohDocumentStore where
  documents : HashMap String Stored
  tombstones : HashMap (String × String) Tombstone
  deletionPolicy : String → DeletionPolicy
  lamportCounter : UInt64
  nodeId : String
  pendingOrigins : PendingOrigins

structure StorageOutcome where
  read : Except String Unit
  written : Except String Unit
  erased : Bool

def StorageOutcome.fine : StorageOutcome := ⟨.ok (), .ok (), true⟩

namespace IrohDocumentStore

/-! ## 1. Matching -/

section Matching

variable (ev : Evaluators)

def compareValues (a b : Value) : Int :=
  match a, b with
  | .number m, .number n =>
    match ev.asF64 m, ev.asF64 n with
    | some x, some y => if x < y then -1 else if x > y then 1 else 0
    | _, _ => 0
  | .string s, .string t => if s < t then -1 else if t < s then 1 else 0
  | _, _ => 0

def testField (doc : Document) (field : String) (test : Value → Bool) : Bool :=
  ((doc.fields.lookup field).map test).getD false

mutual

def matchesQuery (doc : Document) : Query → Bool
  | .all => true
  | .eq field value =>
    if field = "id" then
      match doc.id, value.asStr with
      | some docId, some valueStr => docId == valueStr
      | _, _ => false
    else testField doc field (· == value)
  | .lt field value => testField doc field fun docVal => compareValues ev docVal value < 0
  | .gt field value => testField doc field fun docVal => compareValues ev docVal value > 0
  | .and queries => matchesAll doc queries
  | .or queries => matchesAny doc queries
  | .custom queryStr => ev.evaluateCustomQuery doc queryStr
  | .withinRadius center radiusMeters latField lonField =>
    testPosition ev doc latField lonField (ev.withinRadius · center radiusMeters)
  | .withinBounds min max latField lonField =>
    testPosition ev doc latField lonField (ev.withinBounds · min max)
  | .not inner => !matchesQuery doc inner
  | .includeDeleted inner => matchesQuery doc inner
  | .deletedOnly => doc.softDeleted
  | .unknown => false

def matchesAll (doc : Document) : List Query → Bool
  | [] => true
  | q :: queries => matchesQuery doc q && matchesAll doc queries

def matchesAny (doc : Document) : List Query → Bool
  | [] => false
  | q :: queries => matchesQuery doc q || matchesAny doc queries

end

end Matching

/-! ## 2. The operations -/

def new (deletionPolicy : String → DeletionPolicy) (nodeId : String) : IrohDocumentStore where
  documents := ∅
  tombstones := ∅
  deletionPolicy := deletionPolicy
  lamportCounter := 0
  nodeId := nodeId
  pendingOrigins := .new

def collectionUpsert (s : IrohDocumentStore) (rootAfter : Option Fields → Fields) (key : String)
    (document : Document) : IrohDocumentStore :=
  { s with
    documents := s.documents.insert key
      ⟨document, rootAfter ((s.documents.lookup key).map (·.root))⟩ }

def upsertWithOrigin (s : IrohDocumentStore) (rootAfter : Option Fields → Fields)
    (collection : String) (document : Document) (origin : Option String) (generated : String)
    (now : Nat) (outcome : StorageOutcome) : Except StoreError String × IrohDocumentStore :=
  let docId := document.id.getD generated
  let key := docKey collection docId
  let stashed := { s with pendingOrigins := s.pendingOrigins.insert key origin now }
  match outcome.written with
  | .error message => (.error (.storage message "upsert" (some docId)), stashed)
  | .ok () => (.ok docId, stashed.collectionUpsert rootAfter key document)

def scan (s : IrohDocumentStore) (collection : String) : List (String × Stored) :=
  s.documents.entries.filterMap fun e => (stripPrefix e.1 (collection ++ ":")).map (·, e.2)

def documentOf (docId : String) (stored : Stored) : Document :=
  { stored.data with id := some (stored.data.id.getD docId) }

def query (s : IrohDocumentStore) (ev : Evaluators) (collection : String) (q : Query) :
    List Document :=
  ((s.scan collection).map fun e => documentOf e.1 e.2).filter fun doc =>
    ev.matchesDeletionState q doc && matchesQuery ev doc q

def newTombstone (s : IrohDocumentStore) (collection docId : String) (reason : Option String)
    (now : Nat) : Tombstone where
  documentId := docId
  collection := collection
  deletedAt := now
  deletedBy := s.nodeId
  lamport := s.lamportCounter
  reason := reason

def bury (s : IrohDocumentStore) (tombstone : Tombstone) (erased : Bool) : IrohDocumentStore :=
  { s with
    tombstones := s.tombstones.insert (tombstone.collection, tombstone.documentId) tombstone
    documents :=
      if erased then s.documents.erase (docKey tombstone.collection tombstone.documentId)
      else s.documents }

def delete (s : IrohDocumentStore) (collection docId : String) (reason : Option String)
    (input : AutomergeBackend.DeleteInput) (outcome : StorageOutcome) :
    Except StoreError DeleteResult × IrohDocumentStore :=
  match s.deletionPolicy collection with
  | .immutable => (.ok (.kept .immutable), s)
  | .implicitTtl ttl => (.ok (.kept (.implicitTtl ttl)), s)
  | .tombstone ttl deleteWins =>
    let tombstone := s.newTombstone collection docId reason input.tombstoneAt
    let counted := { s with lamportCounter := s.lamportCounter + 1 }
    match outcome.written with
    | .error message =>
      (.error (.storage message "put_tombstone" (some (docKey collection docId))), counted)
    | .ok () => (.ok ⟨true, some (docKey collection docId), some (input.expiresFrom + ttl),
        .tombstone ttl deleteWins⟩, counted.bury tombstone outcome.erased)
  | .softDelete incl =>
    match outcome.read with
    | .error message => (.error (.storage message "get" (some (docKey collection docId))), s)
    | .ok () =>
      match s.documents.lookup (docKey collection docId) with
      | none => (.ok (.kept (.softDelete incl)), s)
      | some stored =>
        match outcome.written with
        | .error message => (.error (.storage message "put" (some (docKey collection docId))), s)
        | .ok () =>
          let root := AutomergeBackend.softDeletedFields stored.root input.deletedAt reason
          (.ok (.softDeleted (.softDelete incl)),
            { s with documents := s.documents.insert (docKey collection docId) ⟨stored.data, root⟩ })

def isDeleted (s : IrohDocumentStore) (collection docId : String) : Bool :=
  (s.tombstones.lookup (collection, docId)).isSome ||
    ((s.documents.lookup (docKey collection docId)).map
      fun stored => (⟨none, stored.root⟩ : Document).softDeleted).getD false

def applyTombstone (s : IrohDocumentStore) (tombstone : Tombstone) (outcome : StorageOutcome) :
    Except StoreError Unit × IrohDocumentStore :=
  match outcome.written with
  | .error message => (.error (.storage message "put_tombstone"
      (some (docKey tombstone.collection tombstone.documentId))), s)
  | .ok () => (.ok (), s.bury tombstone outcome.erased)

/-! ## 3. What a query returns -/

variable {s : IrohDocumentStore} {ev : Evaluators} {collection : String} {q : Query}

theorem mem_scan_iff {docId : String} {stored : Stored} :
    (docId, stored) ∈ s.scan collection ↔ ∃ key, s.documents.lookup key = some stored ∧
      stripPrefix key (collection ++ ":") = some docId := by
  simp only [scan, List.mem_filterMap, Sigma.exists, Option.map_eq_some_iff, Prod.mk.injEq,
    lookup_eq_some_iff]
  constructor
  · rintro ⟨key, value, hmem, docId', hstrip, rfl, rfl⟩
    exact ⟨key, hmem, hstrip⟩
  · rintro ⟨key, hmem, hstrip⟩
    exact ⟨key, stored, hmem, docId, hstrip, rfl, rfl⟩

theorem mem_query_iff {doc : Document} :
    doc ∈ s.query ev collection q ↔ ∃ key docId stored, s.documents.lookup key = some stored ∧
      stripPrefix key (collection ++ ":") = some docId ∧ documentOf docId stored = doc ∧
        ev.matchesDeletionState q doc = true ∧ matchesQuery ev doc q = true := by
  simp only [query, List.mem_filter, List.mem_map, Prod.exists, mem_scan_iff, Bool.and_eq_true]
  constructor
  · rintro ⟨⟨docId, stored, ⟨key, hlookup, hstrip⟩, hdoc⟩, hmatch⟩
    exact ⟨key, docId, stored, hlookup, hstrip, hdoc, hmatch⟩
  · rintro ⟨key, docId, stored, hlookup, hstrip, hdoc, hmatch⟩
    exact ⟨⟨docId, stored, ⟨key, hlookup, hstrip⟩, hdoc⟩, hmatch⟩

end IrohDocumentStore

end Peat.Sync
