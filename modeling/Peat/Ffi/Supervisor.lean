/-
  THE RECONNECT POLICY of peat-ffi/src/supervisor.rs: for every known peer a phase, and
  whether it is to be dialed now.

  The map gives an idle entry to every peer it does not know (`entryOf`). Times are unix
  milliseconds; the hash behind the jitter is a parameter.
-/
import Peat.Lib.HashMap

namespace Peat.Ffi

open Peat.Lib

/-! ## 1. The functions -/

inductive Phase where
  | idle | connecting | connected | backoff
  deriving DecidableEq, Repr

structure PeerDial where
  phase : Phase
  attempts : Nat
  nextMs : Nat
  sinceMs : Nat
  deriving DecidableEq, Repr

def PeerDial.idle : PeerDial := ⟨.idle, 0, 0, 0⟩

def backoffBaseMs : Nat := 2000

def backoffMaxMs : Nat := 300000

def connectingStuckMs : Nat := 30000

def maxU64 : Nat := 18446744073709551615

def maxU32 : Nat := 4294967295

def backoffMs (hash : String → Nat) (attempts : Nat) (nodeId : String) : Nat :=
  let shift := min (attempts - 1) 8
  let base := min (backoffBaseMs * Nat.shiftLeft 1 shift) maxU64
  let capped := min base backoffMaxMs
  let jitter := hash nodeId % (capped / 5 + 1)
  min (capped + jitter) maxU64

abbrev Supervisor := HashMap String PeerDial

namespace Supervisor

/-- `map.entry(node_id).or_default()`: what the map says of a peer. -/
def entryOf (m : Supervisor) (nodeId : String) : PeerDial := (m.lookup nodeId).getD .idle

def change (m : Supervisor) (nodeId : String) (f : PeerDial → PeerDial) : Supervisor :=
  m.insert nodeId (f (m.entryOf nodeId))

def markLive (r : Supervisor × List String) (id : String) : Supervisor × List String :=
  (r.1.change id fun entry => { entry with phase := .connected, attempts := 0 },
    if (r.1.entryOf id).phase ≠ .connected then r.2 ++ [id] else r.2)

def dropLost (connected : List String) (id : String) (entry : PeerDial) : PeerDial :=
  if entry.phase = .connected ∧ id ∉ connected then { entry with phase := .idle } else entry

def reconcile (m : Supervisor) (connected : List String) : Supervisor × List String :=
  let r := connected.foldl markLive (m, [])
  (mapVal (dropLost connected) r.1, r.2)

def peerEligible (entry : PeerDial) (nowMs : Nat) : Bool :=
  match entry.phase with
  | .idle => true
  | .connected => false
  | .backoff => decide (entry.nextMs ≤ nowMs)
  | .connecting => decide (connectingStuckMs ≤ nowMs - entry.sinceMs)

def eligible (m : Supervisor) (nodeId : String) (nowMs : Nat) : Supervisor × Bool :=
  (m.change nodeId id, peerEligible (m.entryOf nodeId) nowMs)

def markConnecting (m : Supervisor) (nodeId : String) (nowMs : Nat) : Supervisor :=
  m.change nodeId fun entry => { entry with phase := .connecting, sinceMs := nowMs }

def markConnected (m : Supervisor) (nodeId : String) : Supervisor :=
  m.change nodeId fun entry => { entry with phase := .connected, attempts := 0 }

def failed (hash : String → Nat) (nodeId : String) (nowMs : Nat) (entry : PeerDial) : PeerDial :=
  let attempts := min (entry.attempts + 1) maxU32
  let backoff := backoffMs hash attempts nodeId
  { entry with attempts, phase := .backoff, nextMs := min (nowMs + backoff) maxU64 }

def markFailed (hash : String → Nat) (m : Supervisor) (nodeId : String) (nowMs : Nat) :
    Supervisor :=
  m.change nodeId (failed hash nodeId nowMs)

def refresh (entry : PeerDial) : PeerDial :=
  if entry.phase = .backoff then { entry with phase := .idle, attempts := 0 } else entry

def resetBackoffAll (m : Supervisor) : Supervisor := mapVal (fun _ => refresh) m

def keepOnly (m : Supervisor) (keep : List String) : Supervisor :=
  retain (fun id _ => decide (id ∈ keep)) m

/-! ## 2. Peer by peer -/

variable (m : Supervisor)

theorem entryOf_change (nodeId : String) (f : PeerDial → PeerDial) (id : String) :
    (m.change nodeId f).entryOf id =
      if id = nodeId then f (m.entryOf nodeId) else m.entryOf id := by
  unfold change entryOf
  rw [lookup_insert_eq_ite]
  split <;> rfl

theorem entryOf_eligible (nodeId : String) (nowMs : Nat) (id : String) :
    (m.eligible nodeId nowMs).1.entryOf id = m.entryOf id := by
  show (m.change nodeId _).entryOf id = _
  rw [entryOf_change]
  split
  · rename_i h
    rw [h]
    rfl
  · rfl

theorem entryOf_mapVal (f : String → PeerDial → PeerDial) (hidle : ∀ id, f id .idle = .idle)
    (m : Supervisor) (id : String) :
    Supervisor.entryOf (mapVal f m) id = f id (m.entryOf id) := by
  unfold entryOf
  rw [lookup_mapVal]
  cases m.lookup id with
  | none => exact (hidle id).symm
  | some entry => rfl

theorem entryOf_markLive (l : List String) (r : Supervisor × List String) (id : String) :
    (l.foldl markLive r).1.entryOf id =
      if id ∈ l then { r.1.entryOf id with phase := .connected, attempts := 0 }
      else r.1.entryOf id := by
  induction l generalizing r with
  | nil => rfl
  | cons a l ih =>
    have hone : (markLive r a).1.entryOf id = _ := entryOf_change r.1 a _ id
    rw [List.foldl_cons, ih, hone]
    by_cases ha : id = a
    · subst ha
      rw [if_pos rfl, if_pos List.mem_cons_self]
      split <;> rfl
    · rw [if_neg ha]
      simp only [List.mem_cons, ha, false_or]

theorem entryOf_reconcile (connected : List String) (id : String) :
    (m.reconcile connected).1.entryOf id =
      if id ∈ connected then { m.entryOf id with phase := .connected, attempts := 0 }
      else if (m.entryOf id).phase = .connected then { m.entryOf id with phase := .idle }
      else m.entryOf id := by
  unfold reconcile
  dsimp only
  rw [entryOf_mapVal (dropLost connected) fun id => if_neg fun h => (by cases h.1)]
  rw [entryOf_markLive]
  unfold dropLost
  by_cases hc : id ∈ connected
  · rw [if_pos hc, if_pos hc, if_neg fun h => h.2 hc]
  · rw [if_neg hc, if_neg hc]
    simp only [hc, not_false_eq_true, and_true]

theorem entryOf_reset (id : String) : m.resetBackoffAll.entryOf id = refresh (m.entryOf id) :=
  entryOf_mapVal (fun _ => refresh) (fun _ => if_neg fun h => (by cases h)) m id

theorem entryOf_keepOnly (keep : List String) (id : String) :
    (m.keepOnly keep).entryOf id = if id ∈ keep then m.entryOf id else .idle := by
  unfold keepOnly entryOf
  rw [lookup_retain]
  by_cases hk : id ∈ keep
  · rw [if_pos hk, decide_eq_true hk]
    cases m.lookup id <;> rfl
  · rw [if_neg hk, decide_eq_false hk]
    cases m.lookup id <;> rfl

/-! ## 3. When a peer is to be dialed -/

def eligibleAt (m : Supervisor) (nodeId : String) (nowMs : Nat) : Bool :=
  peerEligible (m.entryOf nodeId) nowMs

theorem never_eligible_iff (entry : PeerDial) (clock : Nat) :
    (∀ t, clock ≤ t → peerEligible entry t = false) ↔ entry.phase = .connected := by
  unfold peerEligible
  cases entry.phase with
  | idle => exact ⟨fun h => absurd (h clock (Nat.le_refl _)) (by simp), fun h => (by cases h)⟩
  | connected => exact ⟨fun _ => rfl, fun _ _ _ => rfl⟩
  | backoff =>
    refine ⟨fun h => absurd (h (max clock entry.nextMs) (Nat.le_max_left _ _)) ?_,
      fun h => (by cases h)⟩
    simp only [decide_eq_false_iff_not, not_not]
    exact Nat.le_max_right _ _
  | connecting =>
    refine ⟨fun h => absurd (h (clock + entry.sinceMs + connectingStuckMs) (by omega)) ?_,
      fun h => (by cases h)⟩
    simp only [decide_eq_false_iff_not, not_not]
    omega

def Quiet (entry : PeerDial) (clock bound : Nat) : Prop :=
  ∀ t, clock ≤ t → t < bound → peerEligible entry t = false

variable {entry : PeerDial}

theorem quiet_of_connected (h : entry.phase = .connected) (clock bound : Nat) :
    Quiet entry clock bound := by
  intro t _ _
  unfold peerEligible
  rw [h]

theorem quiet_idle_iff (h : entry.phase = .idle) {clock bound : Nat} :
    Quiet entry clock bound ↔ bound ≤ clock := by
  unfold Quiet peerEligible
  rw [h]
  constructor
  · intro hq
    by_contra hlt
    cases hq clock (Nat.le_refl _) (by omega)
  · intro hle t ht hb
    omega

theorem quiet_backoff_iff (h : entry.phase = .backoff) {clock bound : Nat} :
    Quiet entry clock bound ↔ bound ≤ max clock entry.nextMs := by
  unfold Quiet peerEligible
  rw [h]
  simp only [decide_eq_false_iff_not]
  constructor
  · intro hq
    by_contra hlt
    exact hq (max clock entry.nextMs) (Nat.le_max_left _ _) (by omega) (Nat.le_max_right _ _)
  · intro hle t ht hb
    omega

theorem quiet_of_connecting (h : entry.phase = .connecting) (clock : Nat) :
    Quiet entry clock (entry.sinceMs + connectingStuckMs) := by
  unfold Quiet peerEligible
  rw [h]
  have hstuck : connectingStuckMs = 30000 := rfl
  simp only [decide_eq_false_iff_not]
  omega

end Supervisor

end Peat.Ffi
