/-
  THE TYPE REGISTRY (`BuiltinRegistry` of peat-schema/src/type_registry.rs): descriptors
  by their id and by their collection.

  What a descriptor carries besides its id and its canonical collection is one
  parameter. A registration under another collection leaves the entry of the old one
  where it is.
-/
import Mathlib.Data.List.Induction
import Peat.Lib.HashMap
import Peat.Lib.Run

namespace Peat.Schema

open Peat.Lib

structure TypeDescriptor (α : Type) where
  id : String
  canonicalCollection : Option String
  rest : α

structure BuiltinRegistry (α : Type) where
  byId : HashMap String (TypeDescriptor α)
  byCollection : HashMap String (TypeDescriptor α)

namespace BuiltinRegistry

variable {α : Type}

def new : BuiltinRegistry α := ⟨∅, ∅⟩

def register (r : BuiltinRegistry α) (desc : TypeDescriptor α) : BuiltinRegistry α where
  byId := r.byId.insert desc.id desc
  byCollection :=
    match desc.canonicalCollection with
    | none => r.byCollection
    | some collection => r.byCollection.insert collection desc

def get (r : BuiltinRegistry α) (id : String) : Option (TypeDescriptor α) := r.byId.lookup id

def forCollection (r : BuiltinRegistry α) (collection : String) : Option (TypeDescriptor α) :=
  r.byCollection.lookup collection

def descriptors (r : BuiltinRegistry α) : List (TypeDescriptor α) := r.byId.entries.map Sigma.snd

variable {descs : List (TypeDescriptor α)} {d : TypeDescriptor α} {collection id : String}

/-- **The last one registered with its id**. -/
def LastOfId (descs : List (TypeDescriptor α)) (d : TypeDescriptor α) : Prop :=
  Since (· = d) (·.id = d.id) descs

/-- **The last one registered for a collection**. -/
def LastFor (descs : List (TypeDescriptor α)) (collection : String) (d : TypeDescriptor α) : Prop :=
  d.canonicalCollection = some collection ∧
    Since (· = d) (·.canonicalCollection = some collection) descs

theorem lookup_run_iff (read : BuiltinRegistry α → HashMap String (TypeDescriptor α))
    (keyOf : TypeDescriptor α → Option String) (hnew : read new = ∅)
    (hwrite : ∀ r last k, (read (r.register last)).lookup k =
      if keyOf last = some k then some last else (read r).lookup k) (k : String) :
    (read (run register new descs)).lookup k = some d ↔
      keyOf d = some k ∧ Since (· = d) (keyOf · = some k) descs := by
  induction descs using List.reverseRecOn with
  | nil =>
    rw [show run register new [] = (new : BuiltinRegistry α) from rfl, hnew]
    exact iff_of_false nofun fun h => not_since_nil h.2
  | append_singleton descs last ih =>
    rw [run_concat, hwrite, since_concat]
    by_cases hk : keyOf last = some k
    · rw [if_pos hk, Option.some_inj]
      constructor
      · rintro rfl
        exact ⟨hk, .inl rfl⟩
      · intro ⟨_, h⟩
        exact h.elim (fun e => e) fun h => absurd hk h.2
    · rw [if_neg hk, ih]
      refine and_congr_right fun hd => ⟨fun h => .inr ⟨h, hk⟩, fun h => ?_⟩
      exact h.elim (fun e => absurd (e ▸ hd) hk) And.left

theorem get_run_iff : (run register new descs).get id = some d ↔ d.id = id ∧ LastOfId descs d := by
  have h := @lookup_run_iff α descs d byId (fun d => some d.id) rfl ?_ id
  · simp only [Option.some_inj] at h
    refine h.trans (and_congr_right fun e => ?_)
    rw [LastOfId, e]
  · intro r last k
    simp only [register, lookup_insert_eq_ite, Option.some_inj, eq_comm]

theorem forCollection_run_iff :
    (run register new descs).forCollection collection = some d ↔ LastFor descs collection d := by
  refine lookup_run_iff byCollection _ rfl (fun r last k => ?_) collection
  rw [register]
  cases last.canonicalCollection with
  | none => rfl
  | some c => simp only [lookup_insert_eq_ite, Option.some_inj, eq_comm]

theorem mem_descriptors_run_iff : d ∈ (run register new descs).descriptors ↔ LastOfId descs d := by
  unfold descriptors
  rw [List.mem_map]
  constructor
  · rintro ⟨⟨id, d⟩, h, rfl⟩
    exact (get_run_iff.mp (lookup_eq_some_iff.mpr h)).2
  · intro h
    exact ⟨⟨d.id, d⟩, lookup_eq_some_iff.mp (get_run_iff.mpr ⟨rfl, h⟩), rfl⟩

/-- **The two maps agree**: what a collection leads to is of that collection and is what its id leads
    to, and a listed descriptor that was the last one for its collection is found there. -/
structure Consistent (descs : List (TypeDescriptor α)) (r : BuiltinRegistry α) : Prop where
  collection : ∀ c d, r.forCollection c = some d → d.canonicalCollection = some c
  sameById : ∀ c d, r.forCollection c = some d → r.get d.id = some d
  found : ∀ c, ∀ d ∈ r.descriptors, LastFor descs c d → r.forCollection c = some d

/-- **Registry consistency.** The maps agree after a history of registrations exactly when every
    descriptor that is the last for its collection is also the last of its id. -/
theorem consistent_run_iff (descs : List (TypeDescriptor α)) :
    Consistent descs (run register new descs) ↔ ∀ c d, LastFor descs c d → LastOfId descs d := by
  constructor
  · intro h c d hlast
    exact (get_run_iff.mp (h.sameById c d (forCollection_run_iff.mpr hlast))).2
  · intro h
    refine ⟨fun c d hd => (forCollection_run_iff.mp hd).1, fun c d hd => ?_, fun c d _ hlast => ?_⟩
    · exact get_run_iff.mpr ⟨rfl, h c d (forCollection_run_iff.mp hd)⟩
    · exact forCollection_run_iff.mpr hlast

/-- A type registered again under another collection: the old collection still leads to the old
    descriptor. -/
theorem stale_collection :
    let descs : List (TypeDescriptor Nat) := [⟨"peat.track.v1.Track", some "tracks", 1⟩,
      ⟨"peat.track.v1.Track", some "tracks-v2", 2⟩]
    ¬ Consistent descs (run register new descs) := by
  intro descs h
  have hsame := h.sameById "tracks" ⟨"peat.track.v1.Track", some "tracks", 1⟩ (by rfl)
  have hlatest : (run register new descs).get "peat.track.v1.Track" =
      some ⟨"peat.track.v1.Track", some "tracks-v2", 2⟩ := by rfl
  rw [hlatest] at hsame
  cases congrArg (Option.map TypeDescriptor.rest) hsame

end BuiltinRegistry

end Peat.Schema
