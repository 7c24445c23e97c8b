/-
  THE PAIRING OF INSERTS AND POPS of the stash of origins: the i-th pop of a key against
  the i-th insert of that key.

  `rehash` may change the order of the map at any time.
-/
import Peat.Lib.Run
import Peat.Sync.PendingOrigins

namespace Peat.Sync

open Peat.Lib

/-! ## 1. The journal -/

/-- The stash with a history: what was inserted under every key, and how often it was popped. -/
structure OriginJournal where
  stash : PendingOrigins
  inserted : String → List Entry
  popped : String → Nat

inductive OriginOp where
  | insert (docKey : String) (origin : Option String) (now : Nat)
  | pop (docKey : String) (now : Nat)
  | rehash (map : HashMap String (List Entry))

namespace OriginJournal

def start (ttl : Nat) : OriginJournal where
  stash := PendingOrigins.withTtl ttl
  inserted := fun _ => []
  popped := fun _ => 0

def step (s : OriginJournal) : OriginOp → OriginJournal
  | .insert docKey origin now =>
    { s with
      stash := s.stash.insert docKey origin now
      inserted := fun key =>
        if key = docKey then s.inserted key ++ [⟨origin, now⟩] else s.inserted key }
  | .pop docKey now =>
    { s with
      stash := (s.stash.pop docKey now).2
      popped := fun key => if key = docKey then s.popped key + 1 else s.popped key }
  | .rehash map =>
    if map.entries.Perm s.stash.map.entries then { s with stash := { s.stash with map := map } } else s

/-- A pop of the key is answered from the insert of its own number, by its origin until it has reached
    its age. -/
def Paired (key : String) (s : OriginJournal) : OriginOp → Prop
  | .pop docKey now => docKey = key →
    ∃ e, (s.inserted key)[s.popped key]? = some e ∧
      (s.stash.pop key now).1 = if PendingOrigins.expired now s.stash.ttl e then none else e.origin
  | .insert _ _ _ => True
  | .rehash _ => True

/-- An insert finds room and the front of the key fresh, so that it neither evicts nor sweeps an entry of
    the key, and a pop of the key finds an entry. -/
def InStep (key : String) (s : OriginJournal) : OriginOp → Prop
  | .insert _ _ now => s.stash.Roomy ∧ s.stash.FrontFresh now key
  | .pop docKey _ => docKey = key → s.stash.queue key ≠ []
  | .rehash _ => True

/-! ## 2. The queue is what was inserted and not yet popped -/

structure Aligned (key : String) (s : OriginJournal) : Prop where
  popped : s.popped key ≤ (s.inserted key).length
  left : (s.inserted key).drop (s.popped key) = s.stash.queue key

variable {s : OriginJournal} {key : String}

theorem aligned_insert (h : s.Aligned key) {docKey : String} {origin : Option String} {now : Nat}
    (hstep : s.InStep key (.insert docKey origin now)) :
    (s.step (.insert docKey origin now)).Aligned key := by
  have hqueue := PendingOrigins.queue_insert hstep.2 hstep.1 docKey origin
  by_cases e : key = docKey
  · rw [if_pos e] at hqueue
    have hinserted : (s.step (.insert docKey origin now)).inserted key =
        s.inserted key ++ [⟨origin, now⟩] := if_pos e
    refine ⟨?_, ?_⟩
    · rw [hinserted, List.length_append]
      exact h.popped.trans (Nat.le_add_right _ _)
    · rw [hinserted]
      refine (List.drop_append_of_le_length h.popped).trans ?_
      rw [h.left]
      exact hqueue.symm
  · rw [if_neg e] at hqueue
    have hinserted : (s.step (.insert docKey origin now)).inserted key = s.inserted key := if_neg e
    exact ⟨by rw [hinserted]; exact h.popped, by rw [hinserted]; exact h.left.trans hqueue.symm⟩

theorem aligned_pop (h : s.Aligned key) {docKey : String} {now : Nat}
    (hstep : s.InStep key (.pop docKey now)) : (s.step (.pop docKey now)).Aligned key := by
  have hqueue := @PendingOrigins.queue_pop s.stash now docKey key
  by_cases e : key = docKey
  · rw [if_pos e] at hqueue
    have hpopped : (s.step (.pop docKey now)).popped key = s.popped key + 1 := if_pos e
    refine ⟨?_, ?_⟩
    · -- the queue is not empty, so an insert is left
      have hleft := List.length_pos_iff.mpr (hstep e.symm)
      rw [← h.left, List.length_drop] at hleft
      rw [hpopped]
      show _ ≤ (s.inserted key).length
      omega
    · rw [hpopped, ← List.tail_drop]
      exact (congrArg List.tail h.left).trans (e ▸ hqueue.symm)
  · rw [if_neg e] at hqueue
    have hpopped : (s.step (.pop docKey now)).popped key = s.popped key := if_neg e
    exact ⟨by rw [hpopped]; exact h.popped, by rw [hpopped]; exact h.left.trans hqueue.symm⟩

theorem aligned_rehash (h : s.Aligned key) (map : HashMap String (List Entry)) :
    (s.step (.rehash map)).Aligned key := by
  rw [step]
  split
  · rename_i hperm
    exact ⟨h.popped, h.left.trans (congrArg (·.getD []) (AList.perm_lookup hperm).symm)⟩
  · exact h

theorem paired_pop (h : s.Aligned key) {now : Nat} (hne : s.stash.queue key ≠ []) :
    s.Paired key (.pop key now) := by
  intro _
  obtain ⟨e, rest, hqueue⟩ := List.exists_cons_of_ne_nil hne
  refine ⟨e, ?_, ?_⟩
  · rw [← List.head?_drop, h.left, hqueue]
    rfl
  · rw [PendingOrigins.pop_eq, hqueue]
    rfl

/-- One step: a pop of the key is paired, and the queue stays what is left to pop. -/
theorem paired_step (s : OriginJournal) (op : OriginOp) (hstep : s.InStep key op)
    (h : s.Aligned key) : s.Paired key op ∧ (s.step op).Aligned key := by
  cases op with
  | insert docKey origin now => exact ⟨trivial, aligned_insert h hstep⟩
  | rehash map => exact ⟨trivial, aligned_rehash h map⟩
  | pop docKey now =>
    refine ⟨fun e => ?_, aligned_pop h hstep⟩
    subst e
    exact paired_pop h (hstep rfl) rfl

/-! ## 3. The bounds -/

theorem bounded_step (s : OriginJournal) (op : OriginOp) (h : s.stash.Bounded) :
    (s.step op).stash.Bounded := by
  cases op with
  | insert docKey origin now => exact PendingOrigins.Bounded.insert s.stash docKey origin now
  | pop docKey now => exact h.pop docKey now
  | rehash map =>
    rw [step]
    split
    · rename_i hperm
      have hlen : PendingOrigins.len map = PendingOrigins.len s.stash.map := (hperm.map _).sum_eq
      exact ⟨hlen.trans_le h.1, fun entry hmem => h.2 entry (hperm.subset hmem)⟩
    · exact h

/-- **The stash over whole runs**: as long as no insert takes an entry of a key away and no pop of it
    comes before its insert, every pop of the key answers for the insert of its own number; and the stash
    stays within its bounds whatever is done. -/
theorem origins_paired (ttl : Nat) (ops : List OriginOp) :
    (∀ key, RunMeets step (InStep key) (start ttl) ops → RunMeets step (Paired key) (start ttl) ops) ∧
      ∀ pre, pre <+: ops → (run step (start ttl) pre).stash.Bounded := by
  constructor
  · intro key
    exact runMeets_weaken (Aligned key) paired_step ⟨Nat.le_refl _, rfl⟩
  · intro pre _
    have hstart : (start ttl).stash.Bounded := ⟨Nat.zero_le _, nofun⟩
    exact run_invariant (fun s : OriginJournal => s.stash.Bounded) bounded_step hstart pre

/-- An insert that sweeps an old entry takes its turn with it: the first pop returns the second origin. -/
theorem sweep_shifts_pairing :
    let s := run step (start 10) [.insert "k" (some "ble") 0, .insert "k" (some "lora") 20]
    s.popped "k" = 0 ∧ ((s.inserted "k")[0]?).map Entry.origin = some (some "ble") ∧
      (s.stash.pop "k" 20).1 = some "lora" := by
  decide +kernel

end OriginJournal

end Peat.Sync
