/-
  DOCUMENTS, their keys, and the queries over them (sync/automerge.rs).

  What the matching of a query leaves to the mesh crate, to floating point or to the
  custom query text is a parameter (`Evaluators`).
-/
import Peat.Lib.HashMap
import Peat.Lib.Separated

namespace Peat.Sync

open Peat.Lib

/-! ## 1. Documents and their keys -/

inductive Number where
  | posInt (n : UInt64)
  | negInt (i : Int64)
  | float (x : Rat)
  deriving DecidableEq

inductive Value where
  | null
  | bool (b : Bool)
  | number (n : Number)
  | string (s : String)
  | array (items : List Value)
  | object (members : List (String × Value))
  deriving BEq

namespace Value

def asBool : Value → Option Bool
  | bool b => some b
  | _ => none

def asStr : Value → Option String
  | string s => some s
  | _ => none

def asNumber : Value → Option Number
  | number n => some n
  | _ => none

end Value

abbrev Fields := HashMap String Value

structure Document where
  id : Option String
  fields : Fields

def Document.softDeleted (doc : Document) : Bool :=
  ((doc.fields.lookup "_deleted").bind Value.asBool).getD false

def docKey (collection docId : String) : String := collection ++ ":" ++ docId

def startsWith (key start : String) : Bool := start.toList.isPrefixOf key.toList

def stripPrefix (key start : String) : Option String :=
  if startsWith key start then some (String.ofList (key.toList.drop start.toList.length)) else none

/-- `key.split(':').nth(1).unwrap_or("")`. -/
def idOfKey (key : String) : String := String.ofList ((key.toList.splitOn ':').getD 1 [])

/-- The key splits back into its two parts. -/
def PlainKey (collection docId : String) : Prop :=
  Separated.Plain ':' collection.toList docId.toList

instance (collection docId : String) : Decidable (PlainKey collection docId) :=
  inferInstanceAs (Decidable (_ ∧ _))

theorem toList_docKey (collection docId : String) :
    (docKey collection docId).toList = Separated.join ':' collection.toList docId.toList := by
  simp [docKey, Separated.join, String.toList_append]

section Keys

variable {c c' i i' : String}

theorem docKey_inj (h : PlainKey c i) : docKey c i = docKey c' i' ↔ c = c' ∧ i = i' := by
  rw [← String.toList_inj, toList_docKey, toList_docKey, Separated.join_inj h, String.toList_inj,
    String.toList_inj]

theorem docKey_eq_iff {own : String × String} (h : PlainKey own.1 own.2) {name : String × String} :
    docKey name.1 name.2 = docKey own.1 own.2 ↔ name = own := by
  rw [eq_comm, docKey_inj h, ← Prod.ext_iff, eq_comm]

theorem exists_docKey_eq (h : ¬ PlainKey c i) :
    ∃ c' i', (c', i') ≠ (c, i) ∧ docKey c' i' = docKey c i := by
  obtain ⟨a, b, hne, heq⟩ := Separated.exists_other_reading h
  refine ⟨String.ofList a, String.ofList b, fun e => hne ?_, ?_⟩
  · cases e
    rw [String.toList_ofList, String.toList_ofList]
  · rw [← String.toList_inj, toList_docKey, toList_docKey, String.toList_ofList,
      String.toList_ofList, heq]

theorem startsWith_docKey_iff (h : PlainKey c i) :
    startsWith (docKey c i) (c' ++ ":") = true ↔ c' = c := by
  rw [startsWith, List.isPrefixOf_iff_prefix, toList_docKey, String.toList_append,
    show ":".toList = [':'] from rfl, Separated.prefix_join_iff h, String.toList_inj]

theorem idOfKey_docKey (h : PlainKey c i) : idOfKey (docKey c i) = i := by
  rw [idOfKey, toList_docKey, Separated.splitOn_join h]
  exact String.ofList_toList

theorem stripPrefix_eq_none (key : String) (h : startsWith key c = false) :
    stripPrefix key c = none := by
  rw [stripPrefix, h]
  rfl

theorem startsWith_docKey (c i : String) : startsWith (docKey c i) (c ++ ":") = true := by
  have hkey : (docKey c i).toList = (c ++ ":").toList ++ i.toList := String.toList_append
  rw [startsWith, hkey, List.isPrefixOf_iff_prefix]
  exact List.prefix_append _ _

theorem stripPrefix_docKey (c i : String) : stripPrefix (docKey c i) (c ++ ":") = some i := by
  have hkey : (docKey c i).toList = (c ++ ":").toList ++ i.toList := String.toList_append
  rw [stripPrefix, startsWith_docKey, hkey, List.drop_left]
  exact congrArg some String.ofList_toList

theorem docKey_right_inj (h : docKey c i = docKey c i') : i = i' := by
  have hstrip := stripPrefix_docKey c i
  rw [h, stripPrefix_docKey] at hstrip
  exact (Option.some.inj hstrip).symm

theorem stripPrefix_docKey_eq_some_iff (h : PlainKey c i) :
    stripPrefix (docKey c i) (c' ++ ":") = some i' ↔ c' = c ∧ i' = i := by
  by_cases hc : c' = c
  · rw [hc, stripPrefix_docKey, Option.some_inj]
    exact ⟨fun e => ⟨rfl, e.symm⟩, fun e => e.2.symm⟩
  · have hstart : startsWith (docKey c i) (c' ++ ":") = false := by
      rw [Bool.eq_false_iff, ne_eq, startsWith_docKey_iff h]
      exact hc
    rw [stripPrefix_eq_none _ hstart]
    exact iff_of_false nofun fun e => hc e.1

end Keys

/-! ## 2. Queries -/

structure GeoPoint where
  lat : Rat
  lon : Rat

inductive Query where
  | all
  | eq (field : String) (value : Value)
  | lt (field : String) (value : Value)
  | gt (field : String) (value : Value)
  | and (queries : List Query)
  | or (queries : List Query)
  | not (inner : Query)
  | custom (queryStr : String)
  | withinRadius (center : GeoPoint) (radiusMeters : Rat) (latField lonField : Option String)
  | withinBounds (min max : GeoPoint) (latField lonField : Option String)
  | includeDeleted (inner : Query)
  | deletedOnly
  | unknown

mutual

def Query.deletionAware : Query → Bool
  | .includeDeleted _ => true
  | .deletedOnly => true
  | .unknown => true
  | .and queries => anyDeletionAware queries
  | .or queries => anyDeletionAware queries
  | .not inner => inner.deletionAware
  | _ => false

def anyDeletionAware : List Query → Bool
  | [] => false
  | q :: queries => q.deletionAware || anyDeletionAware queries

end

/-- What matching leaves to others: numbers as `f64`, the custom query text, distances, and the mesh
    crate's deletion filter. -/
structure Evaluators where
  asF64 : Number → Option Rat
  evaluateCustomQuery : Document → String → Bool
  withinRadius : (point center : GeoPoint) → (radiusMeters : Rat) → Bool
  withinBounds : (point min max : GeoPoint) → Bool
  matchesDeletionState : Query → Document → Bool

/-- A query without a deletion clause finds the documents that are not deleted. -/
def Evaluators.Documented (ev : Evaluators) : Prop :=
  ∀ q doc, q.deletionAware = false → ev.matchesDeletionState q doc = !doc.softDeleted

section Matching

variable (ev : Evaluators)

def compareValues (a b : Value) : Except String Ordering :=
  match a, b with
  | .number m, .number n =>
    match ev.asF64 m, ev.asF64 n with
    | some x, some y => .ok (if x < y then .lt else if x > y then .gt else .eq)
    | _, _ => .error "Number comparison failed"
  | .string s, .string t => .ok (if s < t then .lt else if t < s then .gt else .eq)
  | _, _ => .error "Unsupported value comparison"

def compareField (doc : Document) (field : String) (value : Value) (wanted : Ordering) :
    Except String Bool :=
  match doc.fields.lookup field with
  | none => .ok false
  | some docValue => (compareValues ev docValue value).map (· == wanted)

def coordinate (doc : Document) (name : String) : Option Rat :=
  ((doc.fields.lookup name).bind Value.asNumber).bind ev.asF64

def testPosition (doc : Document) (latField lonField : Option String) (test : GeoPoint → Bool) :
    Bool :=
  match coordinate ev doc (latField.getD "lat"), coordinate ev doc (lonField.getD "lon") with
  | some lat, some lon => test ⟨lat, lon⟩
  | _, _ => false

mutual

def matchesQuery (doc : Document) : Query → Except String Bool
  | .all => .ok true
  | .eq field value => .ok (((doc.fields.lookup field).map (· == value)).getD false)
  | .lt field value => compareField ev doc field value .lt
  | .gt field value => compareField ev doc field value .gt
  | .and queries => matchesAll doc queries
  | .or queries => matchesAny doc queries
  | .not inner => (matchesQuery doc inner).map (!·)
  | .custom queryStr => .ok (ev.evaluateCustomQuery doc queryStr)
  | .withinRadius center radiusMeters latField lonField =>
    .ok (testPosition ev doc latField lonField (ev.withinRadius · center radiusMeters))
  | .withinBounds min max latField lonField =>
    .ok (testPosition ev doc latField lonField (ev.withinBounds · min max))
  | .includeDeleted inner => matchesQuery doc inner
  | .deletedOnly => .ok doc.softDeleted
  | .unknown => .ok false

def matchesAll (doc : Document) : List Query → Except String Bool
  | [] => .ok true
  | q :: queries =>
    match matchesQuery doc q with
    | .error e => .error e
    | .ok false => .ok false
    | .ok true => matchesAll doc queries

def matchesAny (doc : Document) : List Query → Except String Bool
  | [] => .ok false
  | q :: queries =>
    match matchesQuery doc q with
    | .error e => .error e
    | .ok true => .ok true
    | .ok false => matchesAny doc queries

end

end Matching

def plainEvaluators : Evaluators where
  asF64
    | .posInt n => some n.toNat
    | .negInt i => some i.toInt
    | .float x => some x
  evaluateCustomQuery _ _ := false
  withinRadius _ _ _ := false
  withinBounds _ _ _ := false
  matchesDeletionState q doc := q.deletionAware || !doc.softDeleted

theorem plainEvaluators_documented : plainEvaluators.Documented := by
  intro q doc h
  show (q.deletionAware || !doc.softDeleted) = !doc.softDeleted
  rw [h]
  rfl

end Peat.Sync
