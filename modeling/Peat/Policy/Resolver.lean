/-
  THE GENERIC CONFLICT RESOLVER (policy/resolver.rs): an index of the active items by
  conflict key.

  An item is stored once for each of its keys and for each registration, and removed by
  its id.
-/
import Peat.Lib.Buckets
import Peat.Lib.Run
import Peat.Lib.UnionBy
import Peat.Policy.Policies

namespace Peat.Policy

open Peat.Lib

/-! ## 1. The calls -/

inductive ConflictResult (T : Type*) where
  | noConflict
  | conflict (items : List T)

structure GenericConflictResolver (T : Type*) where
  activeItems : HashMap String (List T)

variable {T : Type*}

namespace GenericConflictResolver

def new : GenericConflictResolver T := ⟨∅⟩

def getByKey (r : GenericConflictResolver T) (key : String) : List T := bucket r.activeItems key

variable [Conflictable T]

def collect (r : GenericConflictResolver T) (found : List T) (key : String) : List T :=
  match r.activeItems.lookup key with
  | none => found
  | some existing => existing.foldl (pushNew Conflictable.id) found

def conflicting (r : GenericConflictResolver T) (item : T) : List T :=
  (Conflictable.conflictKeys item).foldl r.collect []

def checkConflict (r : GenericConflictResolver T) (item : T) : ConflictResult T :=
  if (r.conflicting item).isEmpty then .noConflict else .conflict (r.conflicting item)

def register (r : GenericConflictResolver T) (item : T) : GenericConflictResolver T :=
  ⟨(Conflictable.conflictKeys item).foldl (pushTo item) r.activeItems⟩

def unregister (r : GenericConflictResolver T) (itemId : String) : GenericConflictResolver T :=
  ⟨keepWhere (fun item => Conflictable.id item ≠ itemId) r.activeItems⟩

def takeUnseen (found : List T × List String) (item : T) : List T × List String :=
  if Conflictable.id item ∈ found.2 then found
  else (found.1 ++ [item], Conflictable.id item :: found.2)

def getAllActive (r : GenericConflictResolver T) : List T :=
  ((r.activeItems.entries.flatMap fun e => e.2).foldl takeUnseen ([], [])).1

/-! ## 2. What the calls read -/

variable {r : GenericConflictResolver T} {item x : T} {key : String}

omit [Conflictable T] in
theorem mem_values_iff : (∃ e ∈ r.activeItems.entries, x ∈ e.2) ↔ ∃ key, x ∈ r.getByKey key := by
  constructor
  · rintro ⟨e, he, hx⟩
    refine ⟨e.1, ?_⟩
    rw [getByKey, bucket, lookup_eq_some_iff.mpr he]
    exact hx
  · rintro ⟨key, hx⟩
    unfold getByKey bucket at hx
    cases hlook : r.activeItems.lookup key with
    | none =>
      rw [hlook] at hx
      cases hx
    | some items =>
      rw [hlook] at hx
      exact ⟨_, lookup_eq_some_iff.mp hlook, hx⟩

theorem collect_eq (r : GenericConflictResolver T) (found : List T) (key : String) :
    r.collect found key = unionBy Conflictable.id found (r.getByKey key) := by
  unfold collect getByKey bucket
  cases r.activeItems.lookup key with
  | none => rfl
  | some existing => rfl

theorem conflicting_eq (r : GenericConflictResolver T) (item : T) :
    r.conflicting item =
      unionBy Conflictable.id [] ((Conflictable.conflictKeys item).flatMap r.getByKey) := by
  unfold conflicting unionBy
  rw [List.foldl_flatMap]
  congr 1
  funext found key
  exact collect_eq r found key

theorem getAllActive_eq (r : GenericConflictResolver T) :
    r.getAllActive = unionBy Conflictable.id [] (r.activeItems.entries.flatMap fun e => e.2) := by
  have key : ∀ (items found : List T) (seen : List String),
      (∀ id, id ∈ seen ↔ id ∈ found.map Conflictable.id) →
        (items.foldl takeUnseen (found, seen)).1 = unionBy Conflictable.id found items := by
    intro items
    induction items with
    | nil => exact fun _ _ _ => rfl
    | cons item items ih =>
      intro found seen hseen
      rw [List.foldl_cons, unionBy_cons, takeUnseen]
      by_cases hmem : Conflictable.id item ∈ seen
      · rw [if_pos hmem, pushNew_of_mem ((hseen _).mp hmem)]
        exact ih found seen hseen
      · rw [if_neg hmem, pushNew_of_not_mem fun h => hmem ((hseen _).mpr h)]
        refine ih _ _ fun id => ?_
        rw [List.mem_cons, hseen, List.map_append, List.mem_append, List.map_singleton,
          List.mem_singleton, or_comm]
  exact key _ [] [] fun _ => Iff.rfl

theorem getByKey_register : (r.register item).getByKey key =
    r.getByKey key ++ List.replicate ((Conflictable.conflictKeys item).count key) item :=
  bucket_foldl_pushTo item r.activeItems _ key

theorem getByKey_unregister {itemId : String} : (r.unregister itemId).getByKey key =
    (r.getByKey key).filter fun item => Conflictable.id item ≠ itemId :=
  bucket_keepWhere _ r.activeItems key

/-! ## 3. Histories -/

inductive Op (T : Type*) where
  | register (item : T)
  | unregister (itemId : String)

def step (r : GenericConflictResolver T) : Op T → GenericConflictResolver T
  | .register item => r.register item
  | .unregister itemId => r.unregister itemId

/-- **The item is active** after a history: registered, and not unregistered since. -/
def Active (ops : List (Op T)) (item : T) : Prop :=
  Since (· = .register item) (· = .unregister (Conflictable.id item)) ops

def Shares (item x : T) : Prop :=
  ∃ key ∈ Conflictable.conflictKeys item, key ∈ Conflictable.conflictKeys x

/-- **The index answers by the history**: a conflict is an active item that shares a key; conflicting and
    active items are listed by one for each id; no key has an empty list. -/
structure Indexed (ops : List (Op T)) (r : GenericConflictResolver T) : Prop where
  conflict_iff : ∀ x, (∃ items, r.checkConflict x = .conflict items) ↔
    ∃ item, Active ops item ∧ Shares item x
  listed : ∀ x items, r.checkConflict x = .conflict items → (items.map Conflictable.id).Nodup ∧
    (∀ item ∈ items, Active ops item ∧ Shares item x) ∧
    ∀ item, Active ops item → Shares item x → Conflictable.id item ∈ items.map Conflictable.id
  noEmpty : ∀ key, r.activeItems.lookup key ≠ some []
  allActive_nodup : (r.getAllActive.map Conflictable.id).Nodup
  mem_allActive : ∀ itemId, itemId ∈ r.getAllActive.map Conflictable.id ↔
    ∃ item, Active ops item ∧ Conflictable.conflictKeys item ≠ [] ∧ Conflictable.id item = itemId

variable {ops : List (Op T)}

theorem noEmpty_run (ops : List (Op T)) : NoEmpty (run step new ops).activeItems := by
  refine run_invariant (fun r : GenericConflictResolver T => NoEmpty r.activeItems) ?_
    noEmpty_empty ops
  intro r op h
  cases op with
  | register item => exact h.foldl_pushTo item _
  | unregister itemId => exact noEmpty_keepWhere _ _

theorem mem_getByKey_run_iff :
    x ∈ (run step new ops).getByKey key ↔ Active ops x ∧ key ∈ Conflictable.conflictKeys x := by
  induction ops using List.reverseRecOn with
  | nil => exact iff_of_false List.not_mem_nil fun h => not_since_nil h.1
  | append_singleton ops op ih =>
    rw [run_concat, Active, since_concat]
    cases op with
    | register item =>
      rw [step, getByKey_register, List.mem_append, ih, List.mem_replicate, ← Nat.pos_iff_ne_zero,
        List.count_pos_iff, Op.register.injEq]
      constructor
      · intro h
        rcases h with ⟨hactive, hkey⟩ | ⟨hkey, rfl⟩
        · exact ⟨.inr ⟨hactive, fun e => by cases e⟩, hkey⟩
        · exact ⟨.inl rfl, hkey⟩
      · intro ⟨h, hkey⟩
        rcases h with rfl | ⟨hactive, _⟩
        · exact .inr ⟨hkey, rfl⟩
        · exact .inl ⟨hactive, hkey⟩
    | unregister itemId =>
      rw [step, getByKey_unregister, List.mem_filter, ih, decide_eq_true_eq, Op.unregister.injEq]
      constructor
      · intro ⟨⟨hactive, hkey⟩, hne⟩
        exact ⟨.inr ⟨hactive, fun e => hne e.symm⟩, hkey⟩
      · intro ⟨h, hkey⟩
        rcases h with h | ⟨hactive, hne⟩
        · cases h
        · exact ⟨⟨hactive, hkey⟩, fun e => hne e.symm⟩

theorem mem_flatMap_run_iff {item : T} :
    x ∈ (Conflictable.conflictKeys item).flatMap (run step new ops).getByKey ↔
      Active ops x ∧ Shares x item := by
  rw [List.mem_flatMap]
  constructor
  · intro ⟨key, hkey, hx⟩
    obtain ⟨hactive, hkeyx⟩ := mem_getByKey_run_iff.mp hx
    exact ⟨hactive, key, hkeyx, hkey⟩
  · intro ⟨hactive, key, hkeyx, hkey⟩
    exact ⟨key, hkey, mem_getByKey_run_iff.mpr ⟨hactive, hkeyx⟩⟩

theorem checkConflict_eq_conflict_iff {items : List T} :
    r.checkConflict x = .conflict items ↔ items ≠ [] ∧ r.conflicting x = items := by
  unfold checkConflict
  cases r.conflicting x with
  | nil => simp
  | cons first rest =>
    simp only [List.isEmpty_cons, Bool.false_eq_true, if_false, ConflictResult.conflict.injEq]
    exact ⟨fun h => ⟨h ▸ List.cons_ne_nil _ _, h⟩, And.right⟩

/-- **The index after any history of calls.** -/
theorem indexed_run (ops : List (Op T)) : Indexed ops (run step new ops) := by
  have hids : ∀ x itemId, itemId ∈ ((run step new ops).conflicting x).map Conflictable.id ↔
      ∃ item, (Active ops item ∧ Shares item x) ∧ Conflictable.id item = itemId := by
    intro x itemId
    rw [conflicting_eq, mem_keys_unionBy, List.map_nil, List.mem_map]
    simp only [List.not_mem_nil, false_or, mem_flatMap_run_iff]
  constructor
  · intro x
    constructor
    · intro ⟨items, h⟩
      obtain ⟨hne, rfl⟩ := checkConflict_eq_conflict_iff.mp h
      obtain ⟨first, rest, hfirst⟩ := List.exists_cons_of_ne_nil hne
      obtain ⟨item, h, _⟩ := (hids x (Conflictable.id first)).mp (by rw [hfirst]; exact .head _)
      exact ⟨item, h⟩
    · intro ⟨item, h⟩
      refine ⟨_, checkConflict_eq_conflict_iff.mpr ⟨fun hnil => ?_, rfl⟩⟩
      have hmem := (hids x _).mpr ⟨item, h, rfl⟩
      rw [hnil] at hmem
      cases hmem
  · intro x items h
    obtain ⟨_, rfl⟩ := checkConflict_eq_conflict_iff.mp h
    refine ⟨?_, fun item hitem => ?_, fun item hactive hshares => ?_⟩
    · rw [conflicting_eq]
      exact nodup_unionBy List.nodup_nil
    · rw [conflicting_eq] at hitem
      have hmem := (mem_of_mem_unionBy hitem).resolve_left List.not_mem_nil
      exact mem_flatMap_run_iff.mp hmem.1
    · exact (hids x _).mpr ⟨item, ⟨hactive, hshares⟩, rfl⟩
  · exact noEmpty_run ops
  · rw [getAllActive_eq]
    exact nodup_unionBy List.nodup_nil
  · intro itemId
    rw [getAllActive_eq, mem_keys_unionBy, List.map_nil, List.mem_map]
    simp only [List.not_mem_nil, false_or, List.mem_flatMap, mem_values_iff, mem_getByKey_run_iff]
    refine exists_congr fun item => ?_
    rw [exists_and_left, and_assoc]
    refine and_congr_right fun _ => and_congr_left fun _ => ?_
    exact ⟨fun ⟨_, h⟩ => List.ne_nil_of_mem h, List.exists_mem_of_ne_nil _⟩

end GenericConflictResolver

end Peat.Policy
