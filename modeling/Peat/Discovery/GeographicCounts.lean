/-
  NODES AND BEACONS in geographic discovery: when the cache counts nodes, over every run
  of `process_beacon` and `cleanup_expired`.

  A journal keeps the beacons received and the clock reading of the last cleanup; the
  order of the map may change at any time (`rehash`).
-/
import Peat.Discovery.Geographic
import Peat.Lib.Run

namespace Peat.Discovery

open Peat.Lib

/-! ## 1. The journal -/

/-- The discovery, all beacons received, and whether a call panicked. -/
structure BeaconJournal where
  discovery : GeographicDiscovery
  received : List GeographicBeacon
  clock : Nat
  panicked : Bool

inductive BeaconOp where
  | process (b : GeographicBeacon)
  | cleanup (now : Nat)
  | rehash (clusters : HashMap String GeographicCluster)

namespace BeaconJournal

def start (nodeId : String) : BeaconJournal := ⟨GeographicDiscovery.new nodeId, [], 0, false⟩

def step (s : BeaconJournal) : BeaconOp → BeaconJournal
  | .process b =>
    match s.discovery.processBeacon b with
    | none => { s with panicked := true }
    | some d => { s with discovery := d, received := b :: s.received }
  | .cleanup now => { s with discovery := s.discovery.cleanupExpired now, clock := now }
  | .rehash clusters => { s with discovery := s.discovery.reorder clusters }

/-! ## 2. Counting nodes -/

def Newest (s : BeaconJournal) (b : GeographicBeacon) : Prop :=
  b.isExpired s.clock = false ∧
    ∀ r ∈ s.received, r.nodeId = b.nodeId → r.isExpired s.clock = false → r.timestamp ≤ b.timestamp

def ids (s : BeaconJournal) : List String := s.discovery.beacons.map (·.nodeId)

/-- Each node counts once, with its newest beacon. -/
structure Counted (s : BeaconJournal) : Prop where
  running : s.panicked = false
  once : s.ids.Nodup
  newest : ∀ b ∈ s.discovery.beacons, b ∈ s.received ∧ s.Newest b
  total : s.discovery.totalNodes = s.ids.toFinset.card
  formable : ∀ minSize, ∀ c ∈ s.discovery.findFormableCells minSize, minSize ≤ c.nodeIds.toFinset.card
  members : ∀ maxSize members, s.discovery.getCellMembers maxSize = some members → members.Nodup

variable {s : BeaconJournal}

theorem nodup_nodeIds (h : s.ids.Nodup) {c : GeographicCluster} (hc : c ∈ s.discovery.values) :
    c.nodeIds.Nodup := by
  rw [ids, GeographicDiscovery.beacons, List.map_flatMap] at h
  exact (List.nodup_flatMap.mp h).1 c hc

theorem nodup_getCellMembers (h : s.ids.Nodup) {maxSize : Nat} {members : List String}
    (hmembers : s.discovery.getCellMembers maxSize = some members) : members.Nodup := by
  rw [GeographicDiscovery.getCellMembers] at hmembers
  split at hmembers
  · cases hmembers
  · rename_i c hc
    split at hmembers
    · cases hmembers
      have hids := nodup_nodeIds h (GeographicDiscovery.exists_of_myCluster hc).1
      have hsorted : (c.nodeIds.insertionSort (· ≤ ·)).Nodup :=
        (List.perm_insertionSort _ _).nodup_iff.mpr hids
      exact hsorted.sublist (List.take_sublist _ _)
    · cases hmembers

theorem counted_iff :
    s.Counted ↔ s.panicked = false ∧ s.ids.Nodup ∧
      ∀ b ∈ s.discovery.beacons, b ∈ s.received ∧ s.Newest b := by
  constructor
  · intro h
    exact ⟨h.running, h.once, h.newest⟩
  · rintro ⟨hrunning, honce, hnewest⟩
    refine ⟨hrunning, honce, hnewest, ?_, fun minSize c hc => ?_, fun maxSize members hmembers => ?_⟩
    · rw [List.toFinset_card_of_nodup honce, GeographicDiscovery.totalNodes_eq, ids, List.length_map]
    · obtain ⟨hmem, hsize⟩ := List.mem_filter.mp hc
      rw [List.toFinset_card_of_nodup (nodup_nodeIds honce hmem), GeographicCluster.nodeIds,
        List.length_map]
      exact of_decide_eq_true hsize
    · exact nodup_getCellMembers honce hmembers

/-! ## 3. One call -/

/-- A beacon with a readable cell, of a node that is not in the cache, unexpired at the last cleanup and
    not older than another such beacon of its node. -/
def FirstOfNode (s : BeaconJournal) : BeaconOp → Prop
  | .process b => Geohash.Readable b.geohashCell ∧ b.nodeId ∉ s.ids ∧ s.Newest b
  | .cleanup _ => True
  | .rehash _ => True

variable {b : GeographicBeacon} {d : GeographicDiscovery}

theorem ids_process (hd : s.discovery.processBeacon b = some d) :
    (d.beacons.map (·.nodeId)).Perm (b.nodeId :: s.ids) :=
  (GeographicDiscovery.beacons_processBeacon hd).map _

theorem newest_cons_iff {b' : GeographicBeacon} :
    ({ s with discovery := d, received := b :: s.received } : BeaconJournal).Newest b' ↔
      s.Newest b' ∧ (b.nodeId = b'.nodeId → b.isExpired s.clock = false → b.timestamp ≤ b'.timestamp) := by
  simp only [Newest, List.forall_mem_cons]
  tauto

theorem counted_process_iff (h : s.Counted) (b : GeographicBeacon) :
    (s.step (.process b)).Counted ↔ s.FirstOfNode (.process b) := by
  rw [FirstOfNode, ← s.discovery.processBeacon_isSome_iff b, step]
  cases hd : s.discovery.processBeacon b with
  | none => exact iff_of_false (fun hc => Bool.noConfusion hc.running) fun hc => Bool.noConfusion hc.1
  | some d =>
    have hbeacons := GeographicDiscovery.beacons_processBeacon hd
    have honce : (d.beacons.map (·.nodeId)).Nodup ↔ b.nodeId ∉ s.ids := by
      rw [(ids_process hd).nodup_iff, List.nodup_cons]
      exact and_iff_left h.once
    rw [counted_iff]
    constructor
    · rintro ⟨-, hnodup, hnewest⟩
      have hb := hnewest b (hbeacons.mem_iff.mpr List.mem_cons_self)
      exact ⟨rfl, honce.mp hnodup, (newest_cons_iff.mp hb.2).1⟩
    · rintro ⟨-, hnew, hb⟩
      refine ⟨h.running, honce.mpr hnew, fun b' hb' => ?_⟩
      rcases List.mem_cons.mp (hbeacons.mem_iff.mp hb') with rfl | hold
      · exact ⟨List.mem_cons_self, newest_cons_iff.mpr ⟨hb, fun _ _ => Nat.le_refl _⟩⟩
      · obtain ⟨hreceived, hb'⟩ := h.newest b' hold
        -- an older entry of the cache is of another node
        have hother : b.nodeId ≠ b'.nodeId := fun e => hnew (e ▸ List.mem_map_of_mem hold)
        exact ⟨List.mem_cons_of_mem _ hreceived,
          newest_cons_iff.mpr ⟨hb', fun e => absurd e hother⟩⟩

theorem timestamp_le_of_expired {r : GeographicBeacon} {now : Nat} (hb : b.isExpired now = false)
    (hr : r.isExpired now = true) : r.timestamp ≤ b.timestamp := by
  unfold GeographicBeacon.isExpired at hb hr
  have hb' := of_decide_eq_false hb
  have hr' := of_decide_eq_true hr
  omega

theorem Counted.cleanup (h : s.Counted) (now : Nat) : (s.step (.cleanup now)).Counted := by
  have hbeacons := s.discovery.beacons_cleanupExpired now
  rw [counted_iff]
  refine ⟨h.running, ?_, fun b hb => ?_⟩
  · show ((s.discovery.cleanupExpired now).beacons.map (·.nodeId)).Nodup
    rw [hbeacons]
    exact h.once.sublist (List.filter_sublist.map _)
  · have hb : b ∈ (s.discovery.cleanupExpired now).beacons := hb
    rw [hbeacons, List.mem_filter, Bool.not_eq_true'] at hb
    obtain ⟨hmem, hunexpired⟩ := hb
    obtain ⟨hreceived, hb, hnewest⟩ := h.newest b hmem
    refine ⟨hreceived, hunexpired, fun r hr hid _ => ?_⟩
    cases hexp : r.isExpired s.clock with
    | false => exact hnewest r hr hid hexp
    | true => exact timestamp_le_of_expired hb hexp

theorem Counted.rehash (h : s.Counted) (clusters : HashMap String GeographicCluster) :
    (s.step (.rehash clusters)).Counted := by
  have hbeacons := s.discovery.beacons_reorder clusters
  rw [counted_iff]
  refine ⟨h.running, (hbeacons.map _).nodup_iff.mpr h.once, fun b hb => ?_⟩
  exact h.newest b (hbeacons.mem_iff.mp hb)

theorem counted_step_iff (s : BeaconJournal) (op : BeaconOp) (h : s.Counted) :
    (s.step op).Counted ↔ s.FirstOfNode op := by
  cases op with
  | process b => exact counted_process_iff h b
  | cleanup now => exact iff_of_true (h.cleanup now) trivial
  | rehash clusters => exact iff_of_true (h.rehash clusters) trivial

/-! ## 4. Whole runs -/

theorem counted_start (nodeId : String) : (start nodeId).Counted :=
  counted_iff.mpr ⟨rfl, List.nodup_nil, nofun⟩

/-- **Discovery over whole runs**: no call panics and the cache counts nodes exactly when every beacon has a
    readable cell, is of a node not in the cache, and is unexpired and the newest of its node. -/
theorem counts_nodes_iff (nodeId : String) (ops : List BeaconOp) :
    (∀ pre, pre <+: ops → (run step (start nodeId) pre).Counted) ↔
      RunMeets step FirstOfNode (start nodeId) ops :=
  run_within_iff Counted counted_step_iff (counted_start nodeId)

def sampleBeacon (nodeId cell : String) (timestamp : Nat) : GeographicBeacon :=
  ⟨nodeId, ⟨0, 0, 0⟩, cell, true, timestamp, []⟩

/-- A node that renews its beacon is two nodes, and proposes a cell with itself as both members. -/
theorem renewed_beacon_counts_twice :
    let s := run step (start "node_1")
      [.process (sampleBeacon "node_1" "9q8yyk8" 100), .process (sampleBeacon "node_1" "9q8yyk8" 110)]
    ¬ s.Counted ∧ s.discovery.totalNodes = 2 ∧ s.ids.toFinset.card = 1 ∧
      s.discovery.getCellMembers 5 = some ["node_1", "node_1"] ∧
      s.discovery.shouldInitiateCellFormation := by
  refine ⟨fun h => ?_, by decide +kernel, by decide +kernel, by decide +kernel, by decide +kernel⟩
  exact absurd h.once (by decide +kernel)

end BeaconJournal

end Peat.Discovery
