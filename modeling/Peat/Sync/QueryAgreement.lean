/-
  WHERE THE TWO BACKENDS ANSWER QUERIES ALIKE (`AutomergeBackend::matches_query` and the
  free `matches_query` of sync/automerge.rs).

  An equality on "id" reads the id of the document in one and a field of that name in
  the other; a comparison of values that do not compare is an error in one and no match
  in the other. In both a custom query may panic, and `And` and `Or` stop at the first
  part that decides.
-/
import Peat.Sync.CustomQuery
import Peat.Sync.IrohDocumentStore

namespace Peat.Sync

open Peat.Lib

/-! ## 1. Both evaluators, with the panic of a custom query -/

@[elab_as_elim]
theorem query_induction {P : Query → Prop} (and : ∀ queries, (∀ q ∈ queries, P q) → P (.and queries))
    (or : ∀ queries, (∀ q ∈ queries, P q) → P (.or queries)) (not : ∀ q, P q → P (.not q))
    (includeDeleted : ∀ q, P q → P (.includeDeleted q)) (all : P .all)
    (eq : ∀ field value, P (.eq field value)) (lt : ∀ field value, P (.lt field value))
    (gt : ∀ field value, P (.gt field value)) (custom : ∀ text, P (.custom text))
    (withinRadius : ∀ c r lat lon, P (.withinRadius c r lat lon))
    (withinBounds : ∀ min max lat lon, P (.withinBounds min max lat lon))
    (deletedOnly : P .deletedOnly) (unknown : P .unknown) (q : Query) : P q :=
  @Query.rec P (fun queries => ∀ q ∈ queries, P q) all eq lt gt and or not custom withinRadius
    withinBounds includeDeleted deletedOnly unknown nofun
    (fun _ _ hq hqs => List.forall_mem_cons.mpr ⟨hq, hqs⟩) q

/-- What keeps an evaluator from an answer. -/
inductive Failure where
  | error (message : String)
  | panic

section Evaluating

variable (answer : Query → Except Failure Bool)

mutual

/-- The connectives of both evaluators over the answers of their leaves. -/
def evalWith : Query → Except Failure Bool
  | .and queries => evalAll queries
  | .or queries => evalAny queries
  | .not inner => (evalWith inner).map (!·)
  | .includeDeleted inner => evalWith inner
  | q => answer q

def evalAll : List Query → Except Failure Bool
  | [] => .ok true
  | q :: queries =>
    match evalWith q with
    | .error e => .error e
    | .ok false => .ok false
    | .ok true => evalAll queries

def evalAny : List Query → Except Failure Bool
  | [] => .ok false
  | q :: queries =>
    match evalWith q with
    | .error e => .error e
    | .ok true => .ok true
    | .ok false => evalAny queries

end

variable (out : CustomQuery.Outside) (ev : Evaluators) (doc : Document)

def customLeaf (text : String) : Except Failure Bool :=
  match CustomQuery.evaluateCustomQuery out doc text.toList with
  | none => .error .panic
  | some b => .ok b

/-- `AutomergeBackend::matches_query` on a query without parts. -/
def AutomergeBackend.leaf : Query → Except Failure Bool
  | .custom text => customLeaf out doc text
  | q => (matchesQuery ev doc q).mapError .error

/-- The free `matches_query` on a query without parts. -/
def IrohDocumentStore.leaf : Query → Except Failure Bool
  | .custom text => customLeaf out doc text
  | q => .ok (IrohDocumentStore.matchesQuery ev doc q)

end Evaluating

section Total

variable {out : CustomQuery.Outside} {ev : Evaluators} {doc : Document}
  (h : ∀ text : String, CustomQuery.evaluateCustomQuery out doc text.toList =
    some (ev.evaluateCustomQuery doc text))

include h

theorem customLeaf_eq (text : String) :
    customLeaf out doc text = .ok (ev.evaluateCustomQuery doc text) := by
  rw [customLeaf, h]

/-- Where no custom query panics, these are the evaluators of the two stores. -/
theorem evalWith_automerge (q : Query) :
    evalWith (AutomergeBackend.leaf out ev doc) q = (matchesQuery ev doc q).mapError .error := by
  induction q using query_induction with
  | and queries ih =>
    rw [evalWith, matchesQuery]
    induction queries with
    | nil => rfl
    | cons q queries ihs =>
      obtain ⟨hq, hqs⟩ := List.forall_mem_cons.mp ih
      rw [evalAll, hq, matchesAll]
      rcases matchesQuery ev doc q with e | (_ | _)
      · rfl
      · rfl
      · exact ihs hqs
  | or queries ih =>
    rw [evalWith, matchesQuery]
    induction queries with
    | nil => rfl
    | cons q queries ihs =>
      obtain ⟨hq, hqs⟩ := List.forall_mem_cons.mp ih
      rw [evalAny, hq, matchesAny]
      rcases matchesQuery ev doc q with e | (_ | _)
      · rfl
      · exact ihs hqs
      · rfl
  | not q ih =>
    rw [evalWith, ih, matchesQuery]
    cases matchesQuery ev doc q <;> rfl
  | includeDeleted q ih => rw [evalWith, ih]; rfl
  | custom text => exact customLeaf_eq h text
  | _ => rfl

theorem evalWith_iroh (q : Query) : evalWith (IrohDocumentStore.leaf out ev doc) q =
    .ok (IrohDocumentStore.matchesQuery ev doc q) := by
  induction q using query_induction with
  | and queries ih =>
    rw [evalWith, IrohDocumentStore.matchesQuery]
    induction queries with
    | nil => rfl
    | cons q queries ihs =>
      obtain ⟨hq, hqs⟩ := List.forall_mem_cons.mp ih
      rw [evalAll, hq, IrohDocumentStore.matchesAll]
      cases IrohDocumentStore.matchesQuery ev doc q with
      | false => rfl
      | true => exact ihs hqs
  | or queries ih =>
    rw [evalWith, IrohDocumentStore.matchesQuery]
    induction queries with
    | nil => rfl
    | cons q queries ihs =>
      obtain ⟨hq, hqs⟩ := List.forall_mem_cons.mp ih
      rw [evalAny, hq, IrohDocumentStore.matchesAny]
      cases IrohDocumentStore.matchesQuery ev doc q with
      | false => exact ihs hqs
      | true => rfl
  | not q ih => rw [evalWith, ih]; rfl
  | includeDeleted q ih => rw [evalWith, ih]; rfl
  | custom text => exact customLeaf_eq h text
  | _ => rfl

end Total

/-! ## 2. The condition -/

/-- Two numbers that are floats, or two texts. -/
def Comparable (ev : Evaluators) : Value → Value → Prop
  | .number m, .number n => (ev.asF64 m).isSome ∧ (ev.asF64 n).isSome
  | .string _, .string _ => True
  | _, _ => False

section Condition

variable (out : CustomQuery.Outside) (ev : Evaluators) (doc : Document)

mutual

/-- What the evaluation comes to is answered alike: an equality on "id" where the field of that name says
    the same as the document's id, a comparison where the values compare, a custom query that does not
    panic; of `And` and `Or` the parts up to the one that decides. -/
def Alike : Query → Prop
  | .eq field value => field = "id" →
    (IrohDocumentStore.testField doc "id" (· == value) = true ↔
      ∃ docId, doc.id = some docId ∧ value.asStr = some docId)
  | .lt field value => ∀ docValue, doc.fields.lookup field = some docValue → Comparable ev docValue value
  | .gt field value => ∀ docValue, doc.fields.lookup field = some docValue → Comparable ev docValue value
  | .custom text => CustomQuery.evaluateCustomQuery out doc text.toList ≠ none
  | .and queries => AlikeWhile true queries
  | .or queries => AlikeWhile false queries
  | .not inner => Alike inner
  | .includeDeleted inner => Alike inner
  | _ => True

/-- The parts are alike for as long as those before them are answered with `go`. -/
def AlikeWhile (go : Bool) : List Query → Prop
  | [] => True
  | q :: queries => Alike q ∧
    (evalWith (IrohDocumentStore.leaf out ev doc) q = .ok go → AlikeWhile go queries)

end

end Condition

/-- Both evaluators return the same answer. -/
def Agree (out : CustomQuery.Outside) (ev : Evaluators) (doc : Document) (q : Query) : Prop :=
  ∃ b, evalWith (AutomergeBackend.leaf out ev doc) q = .ok b ∧
    evalWith (IrohDocumentStore.leaf out ev doc) q = .ok b

/-! ## 3. The leaves -/

variable {out : CustomQuery.Outside} {ev : Evaluators} {doc : Document} {queries : List Query}

theorem exists_compareValues {a b : Value} (h : Comparable ev a b) :
    ∃ order, compareValues ev a b = .ok order ∧
      (order == .lt) = decide (IrohDocumentStore.compareValues ev a b < 0) ∧
      (order == .gt) = decide (IrohDocumentStore.compareValues ev a b > 0) := by
  cases a with
  | number m =>
    cases b with
    | number n =>
      obtain ⟨hm, hn⟩ := h
      rw [compareValues, IrohDocumentStore.compareValues]
      obtain ⟨x, hx⟩ := Option.isSome_iff_exists.mp hm
      obtain ⟨y, hy⟩ := Option.isSome_iff_exists.mp hn
      rw [hx, hy]
      refine ⟨_, rfl, ?_⟩
      dsimp only
      split
      · decide
      · split <;> decide
    | _ => exact h.elim
  | string s =>
    cases b with
    | string t =>
      refine ⟨_, rfl, ?_⟩
      rw [IrohDocumentStore.compareValues]
      split
      · decide
      · split <;> decide
    | _ => exact h.elim
  | _ => exact h.elim

theorem compareField_eq {field : String} {value : Value} {wanted : Ordering} {test : Value → Bool}
    (h : ∀ docValue, doc.fields.lookup field = some docValue →
      ∃ order, compareValues ev docValue value = .ok order ∧ (order == wanted) = test docValue) :
    compareField ev doc field value wanted = .ok (IrohDocumentStore.testField doc field test) := by
  unfold compareField IrohDocumentStore.testField
  cases hfield : doc.fields.lookup field with
  | none => rfl
  | some docValue =>
    obtain ⟨order, hcmp, hsame⟩ := h docValue hfield
    dsimp only
    rw [hcmp, Option.map_some, Option.getD_some, ← hsame]
    rfl

theorem matchesQuery_id_iff {value : Value} :
    IrohDocumentStore.matchesQuery ev doc (.eq "id" value) = true ↔
      ∃ docId, doc.id = some docId ∧ value.asStr = some docId := by
  rw [IrohDocumentStore.matchesQuery, if_pos rfl]
  cases doc.id with
  | none => simp
  | some docId =>
    cases value.asStr with
    | none => simp
    | some text =>
      simp only [beq_iff_eq, Option.some.injEq, exists_eq_left']
      exact eq_comm

theorem matchesQuery_eq {field : String} {value : Value} (h : Alike out ev doc (.eq field value)) :
    matchesQuery ev doc (.eq field value) =
      .ok (IrohDocumentStore.matchesQuery ev doc (.eq field value)) := by
  rw [matchesQuery]
  by_cases hid : field = "id"
  · subst hid
    rw [Alike] at h
    exact congrArg _ (Bool.eq_iff_iff.mpr ((h rfl).trans matchesQuery_id_iff.symm))
  · rw [IrohDocumentStore.matchesQuery, if_neg hid]
    rfl

/-! ## 4. The connectives -/

theorem agree_all (ih : ∀ q ∈ queries, Alike out ev doc q → Agree out ev doc q)
    (h : AlikeWhile out ev doc true queries) :
    ∃ b, evalAll (AutomergeBackend.leaf out ev doc) queries = .ok b ∧
      evalAll (IrohDocumentStore.leaf out ev doc) queries = .ok b := by
  induction queries with
  | nil => exact ⟨true, rfl, rfl⟩
  | cons q queries ihs =>
    obtain ⟨hq, hqs⟩ := List.forall_mem_cons.mp ih
    rw [AlikeWhile] at h
    obtain ⟨b, ha, hi⟩ := hq h.1
    rw [evalAll, evalAll, ha, hi]
    cases b with
    | false => exact ⟨false, rfl, rfl⟩
    | true => exact ihs hqs (h.2 hi)

theorem agree_any (ih : ∀ q ∈ queries, Alike out ev doc q → Agree out ev doc q)
    (h : AlikeWhile out ev doc false queries) :
    ∃ b, evalAny (AutomergeBackend.leaf out ev doc) queries = .ok b ∧
      evalAny (IrohDocumentStore.leaf out ev doc) queries = .ok b := by
  induction queries with
  | nil => exact ⟨false, rfl, rfl⟩
  | cons q queries ihs =>
    obtain ⟨hq, hqs⟩ := List.forall_mem_cons.mp ih
    rw [AlikeWhile] at h
    obtain ⟨b, ha, hi⟩ := hq h.1
    rw [evalAny, evalAny, ha, hi]
    cases b with
    | true => exact ⟨true, rfl, rfl⟩
    | false => exact ihs hqs (h.2 hi)

def levelDocument : Document := ⟨some "n-1", (∅ : Fields).insert "level" (.number (.posInt 3))⟩

end Peat.Sync
