/-
  THROTTLED STATE UPDATES (storage/throttled_node_store.rs): updates wait in a queue by
  node and are flushed to the inner store together.

  The backend is the state stored last for every node. Failures of `store_state` and
  clock readings are inputs. A flush clears the queue whatever failed.
-/
import Peat.Lib.HashMap
import Peat.Models.Node

namespace Peat.Storage

open Peat.Lib Peat.Models

/-! ## 1. The store -/

structure ThrottledNodeStore where
  inner : HashMap String NodeState
  pendingUpdates : HashMap String NodeState
  lastSync : Nat
  syncInterval : Nat

abbrev StoreAnswers := String → Option Error

namespace ThrottledNodeStore

def new (inner : HashMap String NodeState) (syncInterval now : Nat) : ThrottledNodeStore :=
  ⟨inner, ∅, now, syncInterval⟩

def storeState (answers : StoreAnswers) (inner : HashMap String NodeState) (nodeId : String)
    (state : NodeState) : HashMap String NodeState :=
  match answers nodeId with
  | none => inner.insert nodeId state
  | some _ => inner

def flushErrors (s : ThrottledNodeStore) (answers : StoreAnswers) : List (String × Error) :=
  s.pendingUpdates.entries.filterMap fun e => (answers e.1).map fun error => (e.1, error)

def flush (s : ThrottledNodeStore) (answers : StoreAnswers) (now : Nat) :
    ThrottledNodeStore × Except Error Unit :=
  if s.pendingUpdates.entries.isEmpty then (s, .ok ())
  else
    let flushed := { s with
      inner := s.pendingUpdates.foldl (storeState answers) s.inner
      pendingUpdates := ∅
      lastSync := now }
    let errors := s.flushErrors answers
    (flushed, if errors.isEmpty then .ok ()
      else .error (.internal ("Failed to flush " ++ toString errors.length ++ " state updates")))

def enqueue (s : ThrottledNodeStore) (nodeId : String) (state : NodeState) : ThrottledNodeStore :=
  { s with pendingUpdates := s.pendingUpdates.insert nodeId state }

def shouldSync (s : ThrottledNodeStore) (now : Nat) : Bool := s.syncInterval ≤ now - s.lastSync

def updateState (s : ThrottledNodeStore) (nodeId : String) (state : NodeState)
    (answers : StoreAnswers) (now flushedAt : Nat) : ThrottledNodeStore × Except Error Unit :=
  if (s.enqueue nodeId state).shouldSync now then (s.enqueue nodeId state).flush answers flushedAt
  else (s.enqueue nodeId state, .ok ())

theorem lookup_storeState_self (answers : StoreAnswers) (inner : HashMap String NodeState)
    (nodeId : String) (state : NodeState) : (storeState answers inner nodeId state).lookup nodeId =
      if answers nodeId = none then some state else inner.lookup nodeId := by
  rw [storeState]
  cases answers nodeId with
  | none => exact AList.lookup_insert inner
  | some error => rfl

theorem lookup_storeState_of_ne (answers : StoreAnswers) (inner : HashMap String NodeState)
    (nodeId : String) (state : NodeState) (other : String) (h : other ≠ nodeId) :
    (storeState answers inner nodeId state).lookup other = inner.lookup other := by
  rw [storeState]
  cases answers nodeId with
  | none => exact AList.lookup_insert_ne h
  | some error => rfl

theorem lookup_inner_flush (s : ThrottledNodeStore) (answers : StoreAnswers) (now : Nat)
    (nodeId : String) : (s.flush answers now).1.inner.lookup nodeId =
    match s.pendingUpdates.lookup nodeId with
    | none => s.inner.lookup nodeId
    | some state => if answers nodeId = none then some state else s.inner.lookup nodeId := by
  rw [flush]
  split
  · rename_i hempty
    have hnone : s.pendingUpdates.lookup nodeId = none := by
      rw [AList.lookup, List.isEmpty_iff.mp hempty]
      rfl
    rw [hnone]
  · refine (lookup_foldl_entries (storeState answers)
      (fun nodeId state old => if answers nodeId = none then some state else old)
      (lookup_storeState_self answers) (lookup_storeState_of_ne answers) _ _ _).trans ?_
    cases s.pendingUpdates.lookup nodeId <;> rfl

theorem lookup_pendingUpdates_flush (s : ThrottledNodeStore) (answers : StoreAnswers) (now : Nat)
    (nodeId : String) :
    (s.flush answers now).1.pendingUpdates.lookup nodeId = none := by
  rw [flush]
  split
  · rename_i hempty
    rw [AList.lookup, List.isEmpty_iff.mp hempty]
    rfl
  · rfl

end ThrottledNodeStore

/-! ## 2. The updates and what became of them -/

/-- The store, and the last state of each node. -/
structure ThrottleJournal where
  store : ThrottledNodeStore
  latest : String → Option NodeState

namespace ThrottleJournal

inductive Op where
  | updateState (nodeId : String) (state : NodeState) (answers : StoreAnswers) (now flushedAt : Nat)
  | flush (answers : StoreAnswers) (now : Nat)

def start (inner : HashMap String NodeState) (syncInterval now : Nat) : ThrottleJournal :=
  ⟨.new inner syncInterval now, fun _ => none⟩

def step (s : ThrottleJournal) : Op → ThrottleJournal
  | .updateState nodeId state answers now flushedAt =>
    ⟨(s.store.updateState nodeId state answers now flushedAt).1,
      Function.update s.latest nodeId (some state)⟩
  | .flush answers now => ⟨(s.store.flush answers now).1, s.latest⟩

/-- **No update is lost**: the latest state of every node is in the inner store or still pending. -/
def Kept (s : ThrottleJournal) : Prop :=
  ∀ nodeId state, s.latest nodeId = some state →
    s.store.inner.lookup nodeId = some state ∨ s.store.pendingUpdates.lookup nodeId = some state

/-- What fails to be stored is stored already. -/
def FlushClear (store : ThrottledNodeStore) (answers : StoreAnswers) : Prop :=
  ∀ e ∈ store.pendingUpdates.entries, answers e.1 ≠ none → store.inner.lookup e.1 = some e.2

instance (store : ThrottledNodeStore) (answers : StoreAnswers) :
    Decidable (FlushClear store answers) :=
  inferInstanceAs (Decidable (∀ e ∈ store.pendingUpdates.entries, _))

/-- A flush fails only for states that are stored already. -/
def Clear (s : ThrottleJournal) : Op → Prop
  | .updateState nodeId state answers now _ =>
    (s.store.enqueue nodeId state).shouldSync now = true →
      FlushClear (s.store.enqueue nodeId state) answers
  | .flush answers _ => FlushClear s.store answers

instance (s : ThrottleJournal) (op : Op) : Decidable (s.Clear op) :=
  match op with
  | .updateState _ _ _ _ _ => inferInstanceAs (Decidable (_ → _))
  | .flush _ _ => inferInstanceAs (Decidable (FlushClear _ _))

def Latest (s : ThrottleJournal) : Prop :=
  ∀ nodeId state, s.store.pendingUpdates.lookup nodeId = some state → s.latest nodeId = some state

variable {s : ThrottleJournal}

/-! ## 3. One call -/

def queued (s : ThrottleJournal) (nodeId : String) (state : NodeState) : ThrottleJournal :=
  ⟨s.store.enqueue nodeId state, Function.update s.latest nodeId (some state)⟩

theorem latest_queued (h : s.Latest) (nodeId : String) (state : NodeState) :
    (s.queued nodeId state).Latest := by
  intro other st hst
  show Function.update s.latest nodeId (some state) other = some st
  have hlookup : (s.store.pendingUpdates.insert nodeId state).lookup other = some st := hst
  rw [lookup_insert_eq_ite] at hlookup
  rw [Function.update_apply]
  by_cases e : other = nodeId
  · rw [if_pos e] at hlookup ⊢
    exact hlookup
  · rw [if_neg e] at hlookup ⊢
    exact h other st hlookup

theorem kept_queued (h : s.Kept) (nodeId : String) (state : NodeState) :
    (s.queued nodeId state).Kept := by
  intro other st hst
  have hlatest : Function.update s.latest nodeId (some state) other = some st := hst
  show s.store.inner.lookup other = some st ∨
    (s.store.pendingUpdates.insert nodeId state).lookup other = some st
  rw [Function.update_apply] at hlatest
  rw [lookup_insert_eq_ite]
  by_cases e : other = nodeId
  · rw [if_pos e] at hlatest ⊢
    exact .inr hlatest
  · rw [if_neg e] at hlatest ⊢
    exact h other st hlatest

theorem latest_flush (answers : StoreAnswers) (now : Nat) : (s.step (.flush answers now)).Latest := by
  intro nodeId state h
  have hnone := s.store.lookup_pendingUpdates_flush answers now nodeId
  exact absurd (hnone.symm.trans h) nofun

theorem kept_flush_iff (hlatest : s.Latest) (h : s.Kept) (answers : StoreAnswers) (now : Nat) :
    (s.step (.flush answers now)).Kept ↔ FlushClear s.store answers := by
  have hpending := s.store.lookup_pendingUpdates_flush answers now
  have hinner := s.store.lookup_inner_flush answers now
  constructor
  · intro hkept e he hfail
    have hlookup : s.store.pendingUpdates.lookup e.1 = some e.2 := lookup_eq_some_iff.mpr he
    rcases hkept e.1 e.2 (hlatest e.1 e.2 hlookup) with hin | hpend
    · rw [show (s.step (.flush answers now)).store.inner.lookup e.1 = _ from hinner e.1, hlookup] at hin
      exact (if_neg hfail).symm.trans hin
    · exact absurd ((hpending e.1).symm.trans hpend) nofun
  · intro hclear nodeId state hst
    refine .inl ((hinner nodeId).trans ?_)
    cases hlookup : s.store.pendingUpdates.lookup nodeId with
    | none =>
      rcases h nodeId state hst with hin | hpend
      · exact hin
      · exact absurd (hlookup.symm.trans hpend) nofun
    | some pending =>
      -- what is pending is the latest state, so it is the one that must arrive
      have hsame : pending = state :=
        Option.some.inj ((hlatest nodeId pending hlookup).symm.trans hst)
      subst hsame
      dsimp only
      split
      · rfl
      · rename_i hfail
        exact hclear ⟨nodeId, pending⟩ (lookup_eq_some_iff.mp hlookup) hfail

theorem step_updateState (s : ThrottleJournal) (nodeId : String) (state : NodeState)
    (answers : StoreAnswers) (now flushedAt : Nat) :
    s.step (.updateState nodeId state answers now flushedAt) =
      if (s.store.enqueue nodeId state).shouldSync now then
        (s.queued nodeId state).step (.flush answers flushedAt)
      else s.queued nodeId state := by
  rw [step, ThrottledNodeStore.updateState]
  split <;> rfl

theorem latest_step (op : Op) (h : s.Latest) : (s.step op).Latest := by
  cases op with
  | updateState nodeId state answers now flushedAt =>
    rw [step_updateState]
    split
    · exact latest_flush answers flushedAt
    · exact latest_queued h nodeId state
  | flush answers now => exact latest_flush answers now

theorem kept_step_iff (op : Op) (hlatest : s.Latest) (h : s.Kept) :
    (s.step op).Kept ↔ s.Clear op := by
  cases op with
  | updateState nodeId state answers now flushedAt =>
    have hqueued := kept_queued h nodeId state
    rw [step_updateState]
    show _ ↔ (_ → _)
    by_cases hsync : (s.store.enqueue nodeId state).shouldSync now = true
    · rw [if_pos hsync, kept_flush_iff (latest_queued hlatest nodeId state) hqueued]
      exact ⟨fun hclear _ => hclear, fun hclear => hclear hsync⟩
    · rw [if_neg hsync]
      exact iff_of_true hqueued fun hs => absurd hs hsync
  | flush answers now => exact kept_flush_iff hlatest h answers now

/-! ## 4. Whole runs -/

/-- **Throttling loses no update** in any state of a run exactly when every write that fails in a
    flush is of a state that the inner store already has. -/
theorem updates_kept_iff (inner : HashMap String NodeState) (syncInterval now : Nat) (ops : List Op) :
    (∀ pre, pre <+: ops → (run step (start inner syncInterval now) pre).Kept) ↔
      RunMeets step Clear (start inner syncInterval now) ops := by
  have hlatest : (start inner syncInterval now).Latest := by
    intro nodeId state h
    exact absurd ((AList.lookup_empty nodeId).symm.trans h) nofun
  have hkept : (start inner syncInterval now).Kept := by
    intro nodeId state h
    cases h
  exact run_within_iff_of_invariant Latest Kept (fun _ op => latest_step op)
    (fun _ op => kept_step_iff op) hlatest hkept

def sampleState : NodeState := .new ⟨0, 0, 0⟩ 0

/-- One failed write: the flush of another node's update drops the state of `n1`. -/
theorem failed_write_drops_update :
    ¬ (run step (start ∅ 10 0) [.updateState "n1" sampleState (fun _ => none) 5 5,
      .updateState "n2" sampleState (fun nodeId => if nodeId = "n1" then some (.storage "full") else none)
        12 12]).Kept := by
  intro h
  have hlost := h "n1" sampleState (by decide +kernel)
  revert hlost
  decide +kernel

end ThrottleJournal

end Peat.Storage
