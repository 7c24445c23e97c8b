/-
  TOMBSTONES AMONG REPLICAS of the in-memory backend: deletions, and deliveries of their
  tombstones in any order and any number of times.

  `apply_tombstone` keeps what arrived last, and neither it nor `delete` compares
  Lamport values. Beside the replicas stand the tombstones sent and, by replica, those
  it created and applied.
-/
import Peat.Lib.Leading
import Peat.Lib.Run
import Peat.Sync.AutomergeBackend

namespace Peat.Sync

open Peat.Lib

def Tombstone.key (t : Tombstone) : String := docKey t.collection t.documentId

/-- The backends, the tombstones on the way, and those each one made and applied. -/
structure TombstoneNetwork (ι : Type) where
  backend : ι → AutomergeBackend
  sent : List Tombstone
  created : ι → List Tombstone
  applied : ι → List Tombstone

namespace TombstoneNetwork

variable {ι : Type} [DecidableEq ι]

inductive Op (ι : Type) where
  | upsert (i : ι) (collection : String) (document : Document) (origin : Option String)
      (uuid : String)
  | delete (i : ι) (collection docId : String) (reason : Option String)
      (input : AutomergeBackend.DeleteInput)
  | deliver (i : ι) (n : Nat)

def start (deletionPolicy : ι → String → DeletionPolicy) (appId : ι → Option String) :
    TombstoneNetwork ι where
  backend i := { AutomergeBackend.new (deletionPolicy i) with appId := appId i }
  sent := []
  created _ := []
  applied _ := []

def made (b : AutomergeBackend) (collection docId : String) (reason : Option String)
    (input : AutomergeBackend.DeleteInput) : Option Tombstone :=
  match b.deletionPolicy collection with
  | .tombstone _ _ => some (b.newTombstone collection docId reason input.tombstoneAt)
  | _ => none

def step (s : TombstoneNetwork ι) : Op ι → TombstoneNetwork ι
  | .upsert i collection document origin uuid =>
    { s with
      backend := Function.update s.backend i
        ((s.backend i).upsertWithOrigin collection document origin uuid).2 }
  | .delete i collection docId reason input =>
    let new := (made (s.backend i) collection docId reason input).toList
    { s with
      backend := Function.update s.backend i ((s.backend i).delete collection docId reason input).2
      sent := s.sent ++ new
      created := Function.update s.created i (s.created i ++ new) }
  | .deliver i n =>
    match s.sent[n]? with
    | none => s
    | some t =>
      { s with
        backend := Function.update s.backend i ((s.backend i).applyTombstone t)
        applied := Function.update s.applied i (s.applied i ++ [t]) }

def seen (s : TombstoneNetwork ι) (i : ι) : List Tombstone := s.created i ++ s.applied i

def arrives (s : TombstoneNetwork ι) : Op ι → Option (ι × Tombstone)
  | .upsert _ _ _ _ _ => none
  | .delete i collection docId reason input =>
    (made (s.backend i) collection docId reason input).map (i, ·)
  | .deliver i n => s.sent[n]?.map (i, ·)

/-- **Convergence**: replicas that have seen the same tombstones hold the same ones. -/
def Converged (s : TombstoneNetwork ι) : Prop :=
  ∀ i j, (∀ t, t ∈ s.seen i ↔ t ∈ s.seen j) → ∀ collection docId,
    (s.backend i).tombstones.lookup (docKey collection docId) =
      (s.backend j).tombstones.lookup (docKey collection docId)

/-- A deletion gets a stamp above all that its node has seen. -/
def Larger (s : TombstoneNetwork ι) : Op ι → Prop
  | .delete i collection docId reason input =>
    ∀ t, made (s.backend i) collection docId reason input = some t →
      ∀ t' ∈ s.seen i, t'.lamport < t.lamport
  | _ => True

/-- A tombstone arrives after all smaller ones of its document. -/
def Ordered (s : TombstoneNetwork ι) (op : Op ι) : Prop :=
  match s.arrives op with
  | none => True
  | some (i, t) => ∀ t' ∈ s.seen i, t'.key = t.key → t' ≠ t → t'.lamport < t.lamport

/-- A replica that creates a tombstone has created fewer than `2 ^ 64` of them, and applied none whose
    Lamport value reaches their number. -/
def Ahead (s : TombstoneNetwork ι) : Op ι → Prop
  | .delete i collection docId reason input =>
    (made (s.backend i) collection docId reason input).isSome = true →
      (s.created i).length < UInt64.size ∧
        ∀ t ∈ s.applied i, t.lamport.toNat < (s.created i).length
  | _ => True

instance (s : TombstoneNetwork ι) (op : Op ι) : Decidable (s.Ordered op) :=
  match h : s.arrives op with
  | none => isTrue (by rw [Ordered, h]; trivial)
  | some (i, t) =>
    decidable_of_iff (∀ t' ∈ s.seen i, t'.key = t.key → t' ≠ t → t'.lamport < t.lamport)
      (by rw [Ordered, h])

instance (s : TombstoneNetwork ι) : ∀ op, Decidable (s.Ahead op)
  | .upsert _ _ _ _ _ => isTrue trivial
  | .delete _ _ _ _ _ => inferInstanceAs (Decidable (_ → _ ∧ _))
  | .deliver _ _ => isTrue trivial

/-! ## 1. What a step does to a replica -/

section Backend

variable (b : AutomergeBackend) (collection docId : String) (reason : Option String)
  (input : AutomergeBackend.DeleteInput)

theorem lookup_tombstones_delete (key : String) :
    (b.delete collection docId reason input).2.tombstones.lookup key =
      match made b collection docId reason input with
      | none => b.tombstones.lookup key
      | some t => if key = t.key then some t else b.tombstones.lookup key := by
  rw [AutomergeBackend.delete, made]
  cases b.deletionPolicy collection with
  | immutable => rfl
  | implicitTtl ttl => rfl
  | tombstone ttl deleteWins => exact AutomergeBackend.lookup_tombstones_bury _ _
  | softDelete incl =>
    dsimp only
    split <;> rfl

theorem lamportCounter_delete : (b.delete collection docId reason input).2.lamportCounter =
    if (made b collection docId reason input).isSome then b.lamportCounter + 1
    else b.lamportCounter := by
  rw [AutomergeBackend.delete, made]
  cases b.deletionPolicy collection with
  | immutable => rfl
  | implicitTtl ttl => rfl
  | tombstone ttl deleteWins =>
    dsimp only
    rw [AutomergeBackend.bury, AutomergeBackend.remove]
    split <;> rfl
  | softDelete incl =>
    dsimp only
    split <;> rfl

theorem lamport_of_made {t : Tombstone} (h : made b collection docId reason input = some t) :
    t.lamport = b.lamportCounter := by
  rw [made] at h
  split at h
  · cases h
    rfl
  · cases h

theorem lamportCounter_applyTombstone (t : Tombstone) :
    (b.applyTombstone t).lamportCounter = b.lamportCounter := by
  rw [AutomergeBackend.applyTombstone, AutomergeBackend.bury, AutomergeBackend.remove]
  split <;> rfl

end Backend

variable {s : TombstoneNetwork ι}

theorem lookup_step (op : Op ι) (j : ι) (key : String) :
    ((s.step op).backend j).tombstones.lookup key =
      match s.arrives op with
      | none => (s.backend j).tombstones.lookup key
      | some (i, t) =>
        if j = i ∧ key = t.key then some t else (s.backend j).tombstones.lookup key := by
  cases op with
  | upsert i collection document origin uuid =>
    show (Function.update s.backend i _ j).tombstones.lookup key = _
    rw [Function.update_apply]
    split
    · rename_i e
      rw [e]
      rfl
    · rfl
  | delete i collection docId reason input =>
    show (Function.update s.backend i _ j).tombstones.lookup key = _
    rw [Function.update_apply, arrives]
    cases hmade : made (s.backend i) collection docId reason input with
    | none =>
      split
      · rename_i e
        rw [lookup_tombstones_delete, hmade, e]
        rfl
      · rfl
    | some t =>
      by_cases e : j = i
      · rw [if_pos e, lookup_tombstones_delete, hmade, e]
        simp
      · simp [e]
  | deliver i n =>
    rw [step, arrives]
    cases s.sent[n]? with
    | none => rfl
    | some t =>
      show (Function.update s.backend i _ j).tombstones.lookup key = _
      rw [Function.update_apply]
      by_cases e : j = i
      · rw [if_pos e, AutomergeBackend.applyTombstone, AutomergeBackend.lookup_tombstones_bury, e]
        simp [Tombstone.key]
      · simp [e]

theorem mem_seen_step (op : Op ι) (j : ι) (t : Tombstone) :
    t ∈ (s.step op).seen j ↔ t ∈ s.seen j ∨ s.arrives op = some (j, t) := by
  cases op with
  | upsert i collection document origin uuid => exact (or_iff_left nofun).symm
  | delete i collection docId reason input =>
    show t ∈ Function.update s.created i _ j ++ s.applied j ↔ _
    rw [Function.update_apply, arrives, Option.map_eq_some_iff, seen]
    by_cases e : j = i
    · rw [if_pos e, e]
      simp only [List.mem_append, Option.mem_toList, Prod.mk.injEq, true_and,
        exists_eq_right]
      exact or_right_comm
    · rw [if_neg e]
      refine (or_iff_left ?_).symm
      rintro ⟨t', -, h⟩
      exact e (congrArg Prod.fst h).symm
  | deliver i n =>
    rw [step, arrives, Option.map_eq_some_iff]
    cases s.sent[n]? with
    | none => simp
    | some t' =>
      show t ∈ s.created j ++ Function.update s.applied i _ j ↔ _
      rw [Function.update_apply, seen]
      by_cases e : j = i
      · rw [if_pos e, e]
        simp only [List.mem_append, List.mem_singleton, Option.some.injEq, Prod.mk.injEq, true_and,
          exists_eq_right, or_assoc]
        rw [eq_comm (a := t)]
      · rw [if_neg e]
        refine (or_iff_left ?_).symm
        rintro ⟨t'', -, h⟩
        exact e (congrArg Prod.fst h).symm

/-! ## 2. Convergence -/

def seenSet (s : TombstoneNetwork ι) (i : ι) : Set Tombstone := { t | t ∈ s.seen i }

def Leading (s : TombstoneNetwork ι) : Prop :=
  ∀ i, HoldsLeaders Tombstone.key (fun t => t.lamport.toNat) (s.seenSet i)
    (s.backend i).tombstones.lookup

omit [DecidableEq ι] in
theorem Leading.converged (h : s.Leading) : s.Converged := by
  intro i j hseen collection docId
  have hsets : s.seenSet i = s.seenSet j := Set.ext hseen
  exact congrFun ((h i).eq (hsets ▸ h j)) _

theorem leading_step {op : Op ι} (hop : s.Ordered op) (h : s.Leading) : (s.step op).Leading := by
  intro j
  have hlookup := lookup_step (s := s) op j
  have hmem := mem_seen_step (s := s) op j
  cases harr : s.arrives op with
  | none =>
    simp only [harr] at hlookup hmem
    have hset : (s.step op).seenSet j = s.seenSet j :=
      Set.ext fun t => (hmem t).trans (or_iff_left nofun)
    rw [hset, funext hlookup]
    exact h j
  | some arrival =>
    obtain ⟨i, t⟩ := arrival
    simp only [harr] at hlookup hmem
    by_cases hj : j = i
    · -- the replica where it arrives
      have hset : (s.step op).seenSet j = insert t (s.seenSet j) := by
        refine Set.ext fun t' => (hmem t').trans ?_
        rw [Set.mem_insert_iff, or_comm]
        refine or_congr ?_ Iff.rfl
        rw [Option.some_inj, Prod.mk.injEq, eq_comm (a := t), and_iff_right hj.symm]
      rw [hset]
      refine (h j).arrival ?_ (fun key hkey => ?_) fun t' ht' hkey hne => ?_
      · rw [hlookup, if_pos ⟨hj, rfl⟩]
      · rw [hlookup, if_neg fun hboth => hkey hboth.2]
      · rw [Ordered, harr] at hop
        exact UInt64.lt_iff_toNat_lt.mp (hop t' (hj ▸ ht') hkey hne)
    · have hset : (s.step op).seenSet j = s.seenSet j :=
        Set.ext fun t' => (hmem t').trans (or_iff_left fun e =>
          hj (congrArg Prod.fst (Option.some.inj e)).symm)
      have hheld : ((s.step op).backend j).tombstones.lookup = (s.backend j).tombstones.lookup := by
        funext key
        rw [hlookup, if_neg fun hboth => hj hboth.1]
      rw [hset, hheld]
      exact h j

omit [DecidableEq ι] in
theorem leading_start (deletionPolicy : ι → String → DeletionPolicy) (appId : ι → Option String) :
    (start deletionPolicy appId).Leading := by
  intro i
  have hset : (start deletionPolicy appId).seenSet i = ∅ := Set.ext fun t => List.mem_nil_iff t
  rw [hset]
  exact holdsLeaders_empty

/-! ## 3. Lamport values -/

def Counted (b : AutomergeBackend) (created : List Tombstone) : Prop :=
  b.lamportCounter = UInt64.ofNat created.length ∧
    created.map (·.lamport) = (List.range created.length).map UInt64.ofNat

variable {b : AutomergeBackend} {created : List Tombstone}

theorem Counted.delete (h : Counted b created) (collection docId : String)
    (reason : Option String) (input : AutomergeBackend.DeleteInput) :
    Counted (b.delete collection docId reason input).2
      (created ++ (made b collection docId reason input).toList) := by
  unfold Counted
  rw [lamportCounter_delete]
  cases hmade : made b collection docId reason input with
  | none =>
    rw [Option.toList_none, List.append_nil]
    exact h
  | some t =>
    have ht := lamport_of_made b collection docId reason input hmade
    simp [List.range_succ, h.1, h.2, ht]

theorem forall_update {β γ : Type} {P : β → γ → Prop} {f : ι → β} {g : ι → γ}
    (h : ∀ i, P (f i) (g i)) {i : ι} {x : β} {y : γ} (hnew : P x y) (j : ι) :
    P (Function.update f i x j) (Function.update g i y j) := by
  by_cases e : j = i
  · rw [e, Function.update_self, Function.update_self]
    exact hnew
  · rw [Function.update_of_ne e, Function.update_of_ne e]
    exact h j

theorem counted_step (op : Op ι) (h : ∀ i, Counted (s.backend i) (s.created i)) (j : ι) :
    Counted ((s.step op).backend j) ((s.step op).created j) := by
  cases op with
  | upsert i collection document origin uuid =>
    have hcount : Counted ((s.backend i).upsertWithOrigin collection document origin uuid).2
        (s.created i) := h i
    have hall := forall_update (i := i) h hcount j
    rw [Function.update_eq_self] at hall
    exact hall
  | delete i collection docId reason input =>
    exact forall_update h ((h i).delete collection docId reason input) j
  | deliver i n =>
    rw [step]
    cases s.sent[n]? with
    | none => exact h j
    | some t =>
      have hcount : Counted ((s.backend i).applyTombstone t) (s.created i) := by
        rw [Counted, lamportCounter_applyTombstone]
        exact h i
      have hall := forall_update (i := i) h hcount j
      rw [Function.update_eq_self] at hall
      exact hall

theorem Counted.forall_lt_iff (h : Counted b created) :
    (∀ t ∈ created, t.lamport < b.lamportCounter) ↔ created.length < UInt64.size := by
  have hvalues : (∀ t ∈ created, t.lamport < b.lamportCounter) ↔
      ∀ n, n < created.length → n % UInt64.size < created.length % UInt64.size := by
    have hmap : (∀ t ∈ created, t.lamport < b.lamportCounter) ↔
        ∀ l ∈ created.map (·.lamport), l < b.lamportCounter := by
      rw [List.forall_mem_map]
    rw [hmap, h.2, h.1, List.forall_mem_map]
    simp only [List.mem_range, UInt64.lt_iff_toNat_lt, UInt64.toNat_ofNat']
  have hsize : UInt64.size = 18446744073709551616 := rfl
  rw [hvalues, hsize]
  constructor
  · intro hall
    by_contra hlong
    have hlast := hall 18446744073709551615 (by omega)
    omega
  · intro hshort n hn
    omega

omit [DecidableEq ι] in
theorem larger_iff_ahead (op : Op ι) (h : ∀ i, Counted (s.backend i) (s.created i)) :
    s.Larger op ↔ s.Ahead op := by
  cases op with
  | upsert i collection document origin uuid => exact Iff.rfl
  | deliver i n => exact Iff.rfl
  | delete i collection docId reason input =>
    rw [Larger, Ahead]
    cases hmade : made (s.backend i) collection docId reason input with
    | none => exact iff_of_true nofun nofun
    | some t =>
      have ht := lamport_of_made _ collection docId reason input hmade
      have hsplit : (∀ t' ∈ s.seen i, t'.lamport < t.lamport) ↔
          (s.created i).length < UInt64.size ∧
            ∀ t' ∈ s.applied i, t'.lamport < (s.backend i).lamportCounter := by
        rw [seen, List.forall_mem_append, ht, (h i).forall_lt_iff]
      have happlied : (s.created i).length < UInt64.size →
          ((s.backend i).lamportCounter.toNat = (s.created i).length) := by
        intro hshort
        rw [(h i).1, UInt64.toNat_ofNat']
        exact Nat.mod_eq_of_lt hshort
      simp only [Option.some.injEq, forall_eq', hsplit, Option.isSome_some, forall_const]
      refine and_congr_right fun hshort => ?_
      simp only [UInt64.lt_iff_toNat_lt, happlied hshort]

/-! ## 4. Runs -/

/-- **Tombstones converge** where those of a document arrive with growing Lamport values; and new ones have
    larger values than all their replica has seen exactly when every replica stays ahead of what it applies.
    -/
theorem tombstones_converge (deletionPolicy : ι → String → DeletionPolicy)
    (appId : ι → Option String) (ops : List (Op ι)) :
    (RunMeets step Ordered (start deletionPolicy appId) ops →
      ∀ pre, pre <+: ops → (run step (start deletionPolicy appId) pre).Converged) ∧
    ((∀ pre op post, ops = pre ++ op :: post →
        (run step (start deletionPolicy appId) pre).Larger op) ↔
      RunMeets step Ahead (start deletionPolicy appId) ops) := by
  constructor
  · intro hm pre hpre
    have hleading := runMeets_invariant Leading (fun _ _ => leading_step) (runMeets_initial hm hpre)
      (leading_start deletionPolicy appId)
    exact hleading.converged
  · rw [← runMeets_iff]
    refine runMeets_iff_of_invariant (fun s => ∀ i, Counted (s.backend i) (s.created i))
      (fun s op h => larger_iff_ahead op h) (fun s op _ h => counted_step op h) fun i => ?_
    exact ⟨rfl, rfl⟩

section Runs

def buried (_ : Bool) (_ : String) : DeletionPolicy := .tombstone 60 true

def names (i : Bool) : Option String := some (if i then "alpha" else "bravo")

def deleteAt (i : Bool) (docId : String) : Op Bool := .delete i "nodes" docId none ⟨0, 0, ""⟩

/-- One replica deletes two documents; the other learns of the second one first and of the first one twice.
    -/
theorem tombstones_converge_deliveries :
    (∀ pre, pre <+: [deleteAt true "n1", deleteAt true "n2", .deliver false 1, .deliver false 0,
        .deliver false 0] → (run step (start buried names) pre).Converged) ∧
    ∀ pre op post, [deleteAt true "n1", deleteAt true "n2", .deliver false 1, .deliver false 0,
        .deliver false 0] = pre ++ op :: post → (run step (start buried names) pre).Larger op := by
  have h := tombstones_converge buried names [deleteAt true "n1", deleteAt true "n2",
    .deliver false 1, .deliver false 0, .deliver false 0]
  exact ⟨h.1 (by decide +kernel), h.2.mpr (by decide +kernel)⟩

/-- Two replicas delete one document and exchange their tombstones: each holds the other's. And the counter
    of the second does not move, so its next tombstone has a value it has seen. -/
theorem exchanged_tombstones_differ :
    ¬ (run step (start buried names) [deleteAt true "n1", deleteAt false "n1", .deliver true 1,
        .deliver false 0]).Converged ∧
    ¬ (run step (start buried names) [deleteAt true "n1", .deliver false 0]).Larger
        (deleteAt false "n2") := by
  constructor
  · intro h
    have hseen : ∀ t, t ∈ (run step (start buried names) [deleteAt true "n1", deleteAt false "n1",
        .deliver true 1, .deliver false 0]).seen true ↔ t ∈ (run step (start buried names)
        [deleteAt true "n1", deleteAt false "n1", .deliver true 1, .deliver false 0]).seen false :=
      fun t => (List.Perm.swap _ _ []).mem_iff
    exact absurd (h true false hseen "nodes" "n1") (by decide +kernel)
  · intro h
    have hlt := h _ rfl ⟨"n1", "nodes", 0, "alpha", 0, none⟩ (by decide +kernel)
    exact absurd hlt (by decide +kernel)

end Runs

end TombstoneNetwork

end Peat.Sync
