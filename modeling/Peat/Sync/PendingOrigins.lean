/-
  THE STASH OF ORIGINS (sync/pending_origins.rs): a queue of origins for every document
  key, bounded in number and age.

  Instants are nanoseconds of one monotonic clock and inputs of the calls.
-/
import Peat.Lib.MapTotal

namespace Peat.Sync

open Peat.Lib

/-! ## 1. The stash -/

structure Entry where
  origin : Option String
  insertedAt : Nat
  deriving DecidableEq

structure PendingOrigins where
  map : HashMap String (List Entry)
  ttl : Nat

namespace PendingOrigins

def maxEntries : Nat := 1024

def defaultTtl : Nat := 30 * 1000000000

def withTtl (ttl : Nat) : PendingOrigins := ⟨∅, ttl⟩

def new : PendingOrigins := withTtl defaultTtl

def expired (now ttl : Nat) (e : Entry) : Bool := ttl < now - e.insertedAt

def sweepExpired (map : HashMap String (List Entry)) (now ttl : Nat) : HashMap String (List Entry) :=
  retain (fun _ queue => !queue.isEmpty)
    (mapVal (fun _ queue => queue.dropWhile (expired now ttl)) map)

def dropFront (map : HashMap String (List Entry)) (key : String) : HashMap String (List Entry) :=
  match map.lookup key with
  | none => map
  | some queue => if queue.tail.isEmpty then map.erase key else map.insert key queue.tail

def oldestKey : List (Σ _ : String, List Entry) → Option (String × Nat)
  | [] => none
  | e :: entries =>
    match e.2.head?, oldestKey entries with
    | none, rest => rest
    | some front, none => some (e.1, front.insertedAt)
    | some front, some (key, oldest) =>
      if front.insertedAt ≤ oldest then some (e.1, front.insertedAt) else some (key, oldest)

def evict : Nat → HashMap String (List Entry) → HashMap String (List Entry)
  | 0, map => map
  | overage + 1, map =>
    match oldestKey map.entries with
    | none => map
    | some (key, _) => evict overage (dropFront map key)

def len (map : HashMap String (List Entry)) : Nat := total List.length map

def capTotal (map : HashMap String (List Entry)) (max : Nat) : HashMap String (List Entry) :=
  if len map ≤ max then map else evict (len map - max) map

def pushBack (map : HashMap String (List Entry)) (key : String) (e : Entry) :
    HashMap String (List Entry) :=
  map.insert key ((map.lookup key).getD [] ++ [e])

def insert (p : PendingOrigins) (docKey : String) (origin : Option String) (now : Nat) :
    PendingOrigins :=
  { p with map := capTotal (pushBack (sweepExpired p.map now p.ttl) docKey ⟨origin, now⟩) maxEntries }

def pop (p : PendingOrigins) (docKey : String) (now : Nat) : Option String × PendingOrigins :=
  match p.map.lookup docKey with
  | none => (none, p)
  | some [] => (none, p)
  | some (e :: _) =>
    (if expired now p.ttl e then none else e.origin, { p with map := dropFront p.map docKey })

/-! ## 2. The queues -/

def queue (p : PendingOrigins) (key : String) : List Entry := (p.map.lookup key).getD []

/-- No entry of any key has reached its age. -/
def Fresh (p : PendingOrigins) (now : Nat) : Prop :=
  ∀ entry ∈ p.map.entries, ∀ e ∈ entry.2, expired now p.ttl e = false

/-- The oldest entry of the key has not reached its age. -/
def FrontFresh (p : PendingOrigins) (now : Nat) (key : String) : Prop :=
  ∀ e ∈ (p.queue key).head?, expired now p.ttl e = false

/-- There is room for one more entry. -/
def Roomy (p : PendingOrigins) : Prop := len p.map < maxEntries

instance (p : PendingOrigins) (now : Nat) : Decidable (p.Fresh now) :=
  inferInstanceAs (Decidable (∀ entry ∈ p.map.entries, ∀ e ∈ entry.2, expired now p.ttl e = false))

instance (p : PendingOrigins) : Decidable p.Roomy := inferInstanceAs (Decidable (_ < _))

variable {p : PendingOrigins} {now : Nat}

theorem getD_lookup_sweepExpired (map : HashMap String (List Entry)) (ttl : Nat) (key : String) :
    ((sweepExpired map now ttl).lookup key).getD [] =
      ((map.lookup key).getD []).dropWhile (expired now ttl) := by
  rw [sweepExpired, lookup_retain, lookup_mapVal]
  cases map.lookup key with
  | none => rfl
  | some entries =>
    cases h : entries.dropWhile (expired now ttl) with
    | nil => simp [h, Option.filter]
    | cons e rest => simp [h, Option.filter]

variable {key : String} {entries : List (Σ _ : String, List Entry)}

theorem Fresh.frontFresh (h : p.Fresh now) (key : String) : p.FrontFresh now key := by
  intro e he
  cases hlookup : p.map.lookup key with
  | none =>
    rw [queue, hlookup] at he
    cases he
  | some entries =>
    rw [queue, hlookup] at he
    exact h ⟨key, entries⟩ (lookup_eq_some_iff.mp hlookup) e (List.mem_of_mem_head? he)

theorem FrontFresh.getD_lookup_sweepExpired_eq (h : p.FrontFresh now key) :
    ((sweepExpired p.map now p.ttl).lookup key).getD [] = p.queue key := by
  rw [getD_lookup_sweepExpired]
  show (p.queue key).dropWhile _ = p.queue key
  cases hq : p.queue key with
  | nil => rfl
  | cons e rest =>
    have hold := h e (by rw [hq]; rfl)
    rw [List.dropWhile_cons, hold]
    rfl

theorem len_sweepExpired_le (map : HashMap String (List Entry)) (now ttl : Nat) :
    len (sweepExpired map now ttl) ≤ len map := by
  obtain ⟨entries, hnodup⟩ := map
  show (((entries.map fun e => (⟨e.1, e.2.dropWhile (expired now ttl)⟩ : Σ _ : String, List Entry)).filter
    fun e => !e.2.isEmpty).map fun e => e.2.length).sum ≤ (entries.map fun e => e.2.length).sum
  clear hnodup
  induction entries with
  | nil => exact Nat.le_refl 0
  | cons e entries ih =>
    have hdrop : (e.2.dropWhile (expired now ttl)).length ≤ e.2.length :=
      (List.dropWhile_sublist _).length_le
    rw [List.map_cons, List.filter_cons, List.map_cons, List.sum_cons]
    split
    · rw [List.map_cons, List.sum_cons]
      exact Nat.add_le_add hdrop ih
    · exact ih.trans (Nat.le_add_left _ _)

theorem len_pushBack (map : HashMap String (List Entry)) (key : String) (e : Entry) :
    len (pushBack map key e) = len map + 1 := by
  unfold len pushBack
  cases h : map.lookup key with
  | none =>
    rw [total_insert_new _ h]
    exact Nat.add_comm _ _
  | some entries =>
    have hreplace := total_replace List.length h ((some entries).getD [] ++ [e])
    rw [List.length_append, List.length_singleton] at hreplace
    simp only [Option.getD_some] at hreplace ⊢
    omega

/-- An insert that finds room and a fresh front takes nothing of the key away. -/
theorem queue_insert (hfresh : p.FrontFresh now key) (hroom : p.Roomy) (docKey : String)
    (origin : Option String) :
    (p.insert docKey origin now).queue key =
      if key = docKey then p.queue key ++ [⟨origin, now⟩] else p.queue key := by
  have hlen : len (pushBack (sweepExpired p.map now p.ttl) docKey ⟨origin, now⟩) ≤ maxEntries := by
    have hswept := len_sweepExpired_le p.map now p.ttl
    rw [len_pushBack]
    unfold Roomy at hroom
    omega
  rw [queue, insert, capTotal, if_pos hlen, pushBack, lookup_insert_eq_ite]
  split
  · rename_i e
    subst e
    rw [hfresh.getD_lookup_sweepExpired_eq]
    rfl
  · exact hfresh.getD_lookup_sweepExpired_eq

theorem getD_lookup_dropFront (map : HashMap String (List Entry)) (docKey key : String) :
    ((dropFront map docKey).lookup key).getD [] =
      if key = docKey then ((map.lookup docKey).getD []).tail else (map.lookup key).getD [] := by
  rw [dropFront]
  cases h : map.lookup docKey with
  | none =>
    by_cases e : key = docKey
    · rw [if_pos e, e, h]
      rfl
    · rw [if_neg e]
  | some entries =>
    by_cases hlast : entries.tail.isEmpty = true
    · simp only [hlast, if_true]
      by_cases e : key = docKey
      · rw [if_pos e, e, AList.lookup_erase]
        exact (List.isEmpty_iff.mp hlast).symm
      · rw [if_neg e, AList.lookup_erase_ne e]
    · simp only [hlast]
      rw [if_neg Bool.false_ne_true, lookup_insert_eq_ite]
      split <;> rfl

theorem queue_pop (docKey key : String) :
    (p.pop docKey now).2.queue key = if key = docKey then (p.queue docKey).tail else p.queue key := by
  have hnone : (p.map.lookup docKey).getD [] = [] →
      p.queue key = if key = docKey then (p.queue docKey).tail else p.queue key := by
    intro hempty
    split
    · rename_i e
      rw [e]
      show (p.map.lookup docKey).getD [] = ((p.map.lookup docKey).getD []).tail
      rw [hempty]
      rfl
    · rfl
  unfold pop
  split
  · rename_i h
    exact hnone (by rw [h]; rfl)
  · rename_i h
    exact hnone (by rw [h]; rfl)
  · exact getD_lookup_dropFront p.map docKey key

theorem pop_eq (docKey : String) :
    (p.pop docKey now).1 =
      (p.queue docKey).head?.bind fun e => if expired now p.ttl e then none else e.origin := by
  unfold pop queue
  split
  · rename_i h
    rw [h]
    rfl
  · rename_i h
    rw [h]
    rfl
  · rename_i h
    rw [h]
    rfl

/-! ## 3. The bounds -/

def NoEmptyQueue (map : HashMap String (List Entry)) : Prop := ∀ entry ∈ map.entries, entry.2 ≠ []

variable {map : HashMap String (List Entry)}

theorem noEmptyQueue_iff : NoEmptyQueue map ↔ ∀ key, map.lookup key ≠ some [] := by
  constructor
  · intro h key hempty
    exact h ⟨key, []⟩ (lookup_eq_some_iff.mp hempty) rfl
  · rintro h ⟨key, queue⟩ hmem rfl
    exact h key (lookup_eq_some_iff.mpr hmem)

/-- Not too many entries, and no empty queue. -/
def Bounded (p : PendingOrigins) : Prop := len p.map ≤ maxEntries ∧ NoEmptyQueue p.map

theorem NoEmptyQueue.sweepExpired (map : HashMap String (List Entry)) (now ttl : Nat) :
    NoEmptyQueue (sweepExpired map now ttl) := by
  intro entry hmem hempty
  have hkept := (List.mem_filter.mp hmem).2
  rw [hempty] at hkept
  cases hkept

theorem NoEmptyQueue.pushBack (h : NoEmptyQueue map) (key : String) (e : Entry) :
    NoEmptyQueue (pushBack map key e) := by
  rw [noEmptyQueue_iff] at h ⊢
  intro key'
  rw [PendingOrigins.pushBack, lookup_insert_eq_ite]
  split
  · simp
  · exact h key'

theorem NoEmptyQueue.dropFront (h : NoEmptyQueue map) (docKey : String) :
    NoEmptyQueue (dropFront map docKey) := by
  rw [noEmptyQueue_iff] at h ⊢
  intro key
  rw [PendingOrigins.dropFront]
  split
  · exact h key
  · split
    · by_cases e : key = docKey
      · rw [e, AList.lookup_erase]
        nofun
      · rw [AList.lookup_erase_ne e]
        exact h key
    · rename_i queue _ hlast
      rw [lookup_insert_eq_ite]
      split
      · intro hempty
        rw [Option.some.inj hempty] at hlast
        exact hlast rfl
      · exact h key

theorem len_dropFront {queue : List Entry} (hlookup : map.lookup key = some queue)
    (hne : queue ≠ []) : len (dropFront map key) + 1 = len map := by
  obtain ⟨e, rest, rfl⟩ := List.exists_cons_of_ne_nil hne
  have hall := total_erase List.length map key
  rw [hlookup, Option.elim_some, List.length_cons] at hall
  unfold len PendingOrigins.dropFront
  rw [hlookup]
  show total List.length (if rest.isEmpty then map.erase key else map.insert key rest) + 1 = _
  by_cases hlast : rest.isEmpty
  · rw [if_pos hlast]
    rw [List.isEmpty_iff.mp hlast, List.length_nil] at hall
    omega
  · rw [if_neg hlast, total_insert]
    omega

theorem oldestKey_mem {oldest : Nat} (h : oldestKey entries = some (key, oldest)) :
    ∃ queue, ⟨key, queue⟩ ∈ entries ∧ queue ≠ [] := by
  induction entries generalizing oldest with
  | nil => cases h
  | cons entry entries ih =>
    obtain ⟨own, queue⟩ := entry
    have hrest : ∀ {oldest}, oldestKey entries = some (key, oldest) →
        ∃ queue', ⟨key, queue'⟩ ∈ (⟨own, queue⟩ :: entries : List (Σ _ : String, List Entry)) ∧
          queue' ≠ [] := by
      intro oldest h
      obtain ⟨queue', hmem, hne⟩ := ih h
      exact ⟨queue', List.mem_cons_of_mem _ hmem, hne⟩
    have hown : ∀ {front}, queue.head? = some front → own = key →
        ∃ queue', ⟨key, queue'⟩ ∈ (⟨own, queue⟩ :: entries : List (Σ _ : String, List Entry)) ∧
          queue' ≠ [] := by
      rintro front hfront rfl
      refine ⟨queue, List.mem_cons_self, ?_⟩
      rintro rfl
      cases hfront
    rw [oldestKey] at h
    split at h
    · exact hrest h
    · rename_i hfront _
      exact hown hfront (Prod.mk.inj (Option.some.inj h)).1
    · rename_i hfront hold
      split at h
      · exact hown hfront (Prod.mk.inj (Option.some.inj h)).1
      · rw [h] at hold
        exact hrest hold

theorem oldestKey_eq_none (h : oldestKey entries = none) : ∀ entry ∈ entries, entry.2 = [] := by
  induction entries with
  | nil => nofun
  | cons entry entries ih =>
    rw [oldestKey] at h
    split at h
    · rename_i hfront
      exact List.forall_mem_cons.mpr ⟨List.head?_eq_none_iff.mp hfront, ih h⟩
    · cases h
    · split at h <;> cases h

theorem len_evict {overage : Nat} (h : NoEmptyQueue map) (hle : overage ≤ len map) :
    len (evict overage map) + overage = len map ∧ NoEmptyQueue (evict overage map) := by
  induction overage generalizing map with
  | zero => exact ⟨rfl, h⟩
  | succ overage ih =>
    rw [evict]
    split
    · rename_i hnone
      -- no front at all: the map is empty, and nothing is too many
      have hentries : map.entries = [] :=
        List.eq_nil_iff_forall_not_mem.mpr fun entry hmem =>
          h entry hmem (oldestKey_eq_none hnone entry hmem)
      have hlen : len map = 0 := by
        unfold len total
        rw [hentries]
        rfl
      omega
    · rename_i key oldest hold
      obtain ⟨queue, hmem, hne⟩ := oldestKey_mem hold
      have hlen := len_dropFront (lookup_eq_some_iff.mpr hmem) hne
      have hrest := ih (h.dropFront key) (by omega)
      exact ⟨by omega, hrest.2⟩

theorem Bounded.insert (p : PendingOrigins) (docKey : String) (origin : Option String) (now : Nat) :
    (p.insert docKey origin now).Bounded := by
  have hne : NoEmptyQueue (pushBack (sweepExpired p.map now p.ttl) docKey ⟨origin, now⟩) :=
    (NoEmptyQueue.sweepExpired p.map now p.ttl).pushBack docKey _
  unfold Bounded PendingOrigins.insert capTotal
  dsimp only
  split
  · rename_i hle
    exact ⟨hle, hne⟩
  · obtain ⟨hlen, hkept⟩ := len_evict hne (Nat.sub_le _ maxEntries)
    exact ⟨by omega, hkept⟩

theorem Bounded.pop (h : p.Bounded) (docKey : String) (now : Nat) : (p.pop docKey now).2.Bounded := by
  unfold PendingOrigins.pop
  split
  · exact h
  · exact h
  · rename_i e rest hlookup
    have hlen := len_dropFront hlookup (List.cons_ne_nil e rest)
    exact ⟨by have := h.1; dsimp only; omega, h.2.dropFront docKey⟩

end PendingOrigins

end Peat.Sync
