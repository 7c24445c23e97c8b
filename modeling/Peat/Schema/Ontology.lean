/-
  THE SUBTYPE CHECK OF THE ONTOLOGY (`Ontology` of peat-schema/src/ontology.rs).

  Of a concept the check reads the id and the parents. It keeps no record of what it has
  visited, so it does not come back from a cycle unless it finds its target first.
-/
import Peat.Lib.HashMap
import Peat.Lib.LinkSearch

namespace Peat.Schema

open Peat.Lib

structure Concept where
  id : String
  parents : List String

abbrev Ontology := HashMap String Concept

namespace Ontology

def addConcept (o : Ontology) (concept : Concept) : Ontology := o.insert concept.id concept

def getConcept (o : Ontology) (id : String) : Option Concept := o.lookup id

def isSubtypeOf (o : Ontology) : Nat → String → String → Option Bool
  | 0, _, _ => none
  | fuel + 1, conceptId, parentId =>
    if conceptId = parentId then some true
    else
      match o.getConcept conceptId with
      | none => some false
      | some concept => firstTrue (fun parent => isSubtypeOf o fuel parent parentId) concept.parents

def parentsOf (o : Ontology) (id : String) : List String :=
  ((o.getConcept id).map (·.parents)).getD []

def build (concepts : List Concept) : Ontology := concepts.foldl addConcept ∅

theorem isSubtypeOf_eq (o : Ontology) (fuel : Nat) (a b : String) :
    o.isSubtypeOf fuel a b = search o.parentsOf fuel a b := by
  induction fuel generalizing a with
  | zero => rfl
  | succ fuel ih =>
    rw [isSubtypeOf, search]
    split
    · rfl
    · rw [parentsOf]
      cases o.getConcept a with
      | none => rfl
      | some concept => exact congrArg (firstTrue · concept.parents) (funext ih)

/-- The recursion ends with the answer. -/
def Answers (o : Ontology) (a b : String) (r : Bool) : Prop := ∃ fuel, o.isSubtypeOf fuel a b = some r

/-- **Subtypes are what the parent links lead to**: every check returns whether the second concept is
    reachable; so being a subtype is reflexive and transitive. -/
structure Decides (o : Ontology) : Prop where
  returns : ∀ a b, ∃ r, o.Answers a b r
  reach : ∀ a b, o.Answers a b true ↔ Reach o.parentsOf a b
  refl : ∀ a, o.Answers a a true
  trans : ∀ a b c, o.Answers a b true → o.Answers b c true → o.Answers a c true

theorem finite_known (o : Ontology) : {id | o.lookup id ≠ none}.Finite := by
  refine o.keys.finite_toSet.subset fun id h => ?_
  obtain ⟨concept, hc⟩ := Option.ne_none_iff_exists'.mp h
  exact AList.lookup_isSome.mp (hc ▸ rfl)

/-- **The subtype check.** On every ontology that can be built, an answer is the right one, and the check
    always answers exactly when no parent links lead back to a concept. -/
theorem isSubtypeOf_spec (concepts : List Concept) :
    (∀ a b r, (build concepts).Answers a b r → (r = true ↔ Reach (build concepts).parentsOf a b)) ∧
      ((build concepts).Decides ↔ ∀ a, ¬ Cyclic (build concepts).parentsOf a) := by
  generalize build concepts = o
  have hsound : ∀ a b r, o.Answers a b r → (r = true ↔ Reach o.parentsOf a b) := by
    intro a b r ⟨fuel, h⟩
    rw [isSubtypeOf_eq] at h
    exact search_sound h
  have hreturns : (∀ a b, ∃ r, o.Answers a b r) ↔ ∀ a, ¬ Cyclic o.parentsOf a := by
    rw [← search_returns_iff o.finite_known fun a ha => ?_]
    · refine forall_congr' fun a => forall_congr' fun b => ?_
      simp only [Answers, isSubtypeOf_eq, Option.ne_none_iff_exists']
      exact exists_comm
    · have hnone : o.lookup a = none := not_not.mp ha
      rw [parentsOf, getConcept, hnone]
      rfl
  refine ⟨hsound, fun h => hreturns.mp h.returns, fun h => ?_⟩
  have hall := hreturns.mpr h
  have hreach : ∀ a b, o.Answers a b true ↔ Reach o.parentsOf a b := by
    intro a b
    refine ⟨fun ht => (hsound a b true ht).mp rfl, fun hr => ?_⟩
    obtain ⟨r, hans⟩ := hall a b
    rwa [← (hsound a b r hans).mpr hr]
  refine ⟨hall, hreach, fun a => (hreach a a).mpr .refl, fun a b c hab hbc => ?_⟩
  exact (hreach a c).mpr (((hreach a b).mp hab).trans ((hreach b c).mp hbc))

/-- A concept that is its own parent: no check for another concept returns. -/
theorem self_parent_diverges :
    let o := build [⟨"node", ["node"]⟩]
    ¬ ∃ r, o.Answers "node" "capability" r := by
  intro o ⟨r, fuel, h⟩
  have hget : o.getConcept "node" = some ⟨"node", ["node"]⟩ := AList.lookup_insert ∅
  have hnone : ∀ fuel, o.isSubtypeOf fuel "node" "capability" = none := by
    intro fuel
    induction fuel with
    | zero => rfl
    | succ fuel ih =>
      rw [isSubtypeOf, if_neg (by decide), hget]
      dsimp only
      rw [firstTrue, ih]
  rw [hnone] at h
  cases h

end Ontology

end Peat.Schema
