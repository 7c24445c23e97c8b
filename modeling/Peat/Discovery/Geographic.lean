/-
  GEOGRAPHIC DISCOVERY (discovery/geographic.rs): the cache of received beacons,
  clustered by geohash cell.

  `GeographicDiscovery` carries what its map always satisfies: a cluster stands under
  its own cell and holds beacons of that cell only. Timestamps are seconds, clock
  readings inputs; `reorder` is another order of the map.
-/
import Mathlib.Data.List.Sort
import Mathlib.Data.String.Basic
import Peat.Discovery.Geohash
import Peat.Lib.MapTotal

namespace Peat.Discovery

open Peat.Lib

/-! ## 1. Beacons and clusters -/

def beaconTtlSeconds : Nat := 30

def minCellSize : Nat := 2

structure GeographicBeacon where
  nodeId : String
  position : GeoCoordinate
  geohashCell : String
  operational : Bool
  timestamp : Nat
  capabilities : List String
  deriving DecidableEq

def GeographicBeacon.isExpired (b : GeographicBeacon) (currentTime : Nat) : Bool :=
  beaconTtlSeconds < currentTime - b.timestamp

structure GeographicCluster where
  geohashCell : String
  nodes : List GeographicBeacon
  center : GeoCoordinate
  deriving DecidableEq

namespace GeographicCluster

def new (geohashCell : String) : Except String GeographicCluster :=
  match decodeGeohash geohashCell with
  | .error e => .error e
  | .ok center => .ok ⟨geohashCell, [], center⟩

def addBeacon (c : GeographicCluster) (b : GeographicBeacon) : GeographicCluster :=
  { c with nodes := c.nodes ++ [b] }

def removeExpired (c : GeographicCluster) (currentTime : Nat) : GeographicCluster :=
  { c with nodes := c.nodes.filter fun b => !b.isExpired currentTime }

def canFormCell (c : GeographicCluster) (minSize : Nat) : Bool := minSize ≤ c.nodes.length

def nodeIds (c : GeographicCluster) : List String := c.nodes.map (·.nodeId)

structure Keyed (cell : String) (c : GeographicCluster) : Prop where
  cell_eq : c.geohashCell = cell
  center_eq : decodeGeohash cell = .ok c.center
  own : ∀ b ∈ c.nodes, b.geohashCell = cell

variable {c : GeographicCluster}

theorem keyed_of_new {cell : String} (h : new cell = .ok c) : c.Keyed cell := by
  rw [new] at h
  split at h
  · cases h
  · rename_i center hcenter
    cases h
    exact ⟨rfl, hcenter, nofun⟩

theorem nodes_of_new {cell : String} (h : new cell = .ok c) : c.nodes = [] := by
  rw [new] at h
  split at h
  · cases h
  · cases h
    rfl

theorem Keyed.addBeacon {b : GeographicBeacon} (h : c.Keyed b.geohashCell) :
    (c.addBeacon b).Keyed b.geohashCell := by
  refine ⟨h.cell_eq, h.center_eq, fun b' hb' => ?_⟩
  rcases List.mem_append.mp hb' with hold | hnew
  · exact h.own b' hold
  · rw [List.mem_singleton.mp hnew]

theorem Keyed.removeExpired {cell : String} (h : c.Keyed cell) (now : Nat) :
    (c.removeExpired now).Keyed cell :=
  ⟨h.cell_eq, h.center_eq, fun b hb => h.own b (List.mem_of_mem_filter hb)⟩

end GeographicCluster

/-! ## 2. The cache -/

structure GeographicDiscovery where
  clusters : HashMap String GeographicCluster
  myNodeId : String
  keyed : ∀ cell c, clusters.lookup cell = some c → c.Keyed cell

namespace GeographicDiscovery

def new (nodeId : String) : GeographicDiscovery := ⟨∅, nodeId, nofun⟩

/-- The cluster of a cell, or a new one: `entry(cell).or_insert_with(..)` without the `unwrap`. -/
def clusterFor (d : GeographicDiscovery) (cell : String) : Except String GeographicCluster :=
  match d.clusters.lookup cell with
  | some c => .ok c
  | none => GeographicCluster.new cell

variable {c : GeographicCluster}

theorem keyed_of_clusterFor {d : GeographicDiscovery} {cell : String}
    (h : d.clusterFor cell = .ok c) : c.Keyed cell := by
  rw [clusterFor] at h
  split at h
  · rename_i hlookup
    cases h
    exact d.keyed cell _ hlookup
  · exact GeographicCluster.keyed_of_new h

def processBeacon (d : GeographicDiscovery) (b : GeographicBeacon) : Option GeographicDiscovery :=
  match h : d.clusterFor b.geohashCell with
  | .error _ => none
  | .ok c =>
    some
      { d with
        clusters := d.clusters.insert b.geohashCell (c.addBeacon b)
        keyed := forall_lookup_insert (keyed_of_clusterFor h).addBeacon d.keyed }

def cleanupExpired (d : GeographicDiscovery) (currentTime : Nat) : GeographicDiscovery :=
  { d with
    clusters := retain (fun _ c => !c.nodes.isEmpty)
      (mapVal (fun _ c => c.removeExpired currentTime) d.clusters)
    keyed := by
      intro cell c h
      rw [lookup_retain, Option.filter_eq_some_iff, lookup_mapVal, Option.map_eq_some_iff] at h
      obtain ⟨⟨old, hold, rfl⟩, -⟩ := h
      exact (d.keyed cell old hold).removeExpired currentTime }

def values (d : GeographicDiscovery) : List GeographicCluster := d.clusters.entries.map (·.2)

def findFormableCells (d : GeographicDiscovery) (minSize : Nat) : List GeographicCluster :=
  d.values.filter fun c => c.canFormCell minSize

def myCluster (d : GeographicDiscovery) : Option GeographicCluster :=
  d.values.find? fun c => c.nodes.any fun b => b.nodeId = d.myNodeId

def shouldInitiateCellFormation (d : GeographicDiscovery) : Bool :=
  match d.myCluster with
  | none => false
  | some c =>
    if c.canFormCell minCellSize then
      match (c.nodes.map (·.nodeId)).min? with
      | none => false
      | some minId => minId = d.myNodeId
    else false

def getCellMembers (d : GeographicDiscovery) (maxSize : Nat) : Option (List String) :=
  match d.myCluster with
  | none => none
  | some c =>
    if c.canFormCell minCellSize then some ((c.nodeIds.insertionSort (· ≤ ·)).take maxSize) else none

def totalNodes (d : GeographicDiscovery) : Nat := (d.values.map fun c => c.nodes.length).sum

def reorder (d : GeographicDiscovery) (clusters : HashMap String GeographicCluster) :
    GeographicDiscovery :=
  if h : clusters.entries.Perm d.clusters.entries then
    { d with
      clusters := clusters
      keyed := fun cell c hlookup => d.keyed cell c ((AList.perm_lookup h).symm.trans hlookup) }
  else d

/-! ## 3. The beacons in the cache -/

def beacons (d : GeographicDiscovery) : List GeographicBeacon := d.values.flatMap (·.nodes)

def nodesIn (d : GeographicDiscovery) (cell : String) : List GeographicBeacon :=
  (d.clusters.lookup cell).elim [] (·.nodes)

variable {d d' : GeographicDiscovery} {b : GeographicBeacon}

theorem mem_values_iff : c ∈ d.values ↔ ∃ cell, d.clusters.lookup cell = some c := by
  simp only [values, List.mem_map, Sigma.exists, lookup_eq_some_iff]
  constructor
  · rintro ⟨cell, c', hmem, rfl⟩
    exact ⟨cell, hmem⟩
  · rintro ⟨cell, hmem⟩
    exact ⟨cell, c, hmem, rfl⟩

theorem mem_beacons_iff : b ∈ d.beacons ↔ ∃ c ∈ d.values, b ∈ c.nodes := List.mem_flatMap

theorem totalNodes_eq : d.totalNodes = d.beacons.length := by
  rw [beacons, List.length_flatMap]
  rfl

theorem processBeacon_cases (d : GeographicDiscovery) (b : GeographicBeacon) :
    (∃ e, d.clusterFor b.geohashCell = .error e ∧ d.processBeacon b = none) ∨
      ∃ c d', d.clusterFor b.geohashCell = .ok c ∧ d.processBeacon b = some d' ∧
        d'.myNodeId = d.myNodeId ∧
        d'.clusters = d.clusters.insert b.geohashCell (c.addBeacon b) := by
  unfold processBeacon
  split
  · rename_i e he
    exact Or.inl ⟨e, he, rfl⟩
  · rename_i c hc
    exact Or.inr ⟨c, _, hc, rfl, rfl, rfl⟩

theorem exists_of_processBeacon (h : d.processBeacon b = some d') :
    ∃ c, d.clusterFor b.geohashCell = .ok c ∧ d'.myNodeId = d.myNodeId ∧
      d'.clusters = d.clusters.insert b.geohashCell (c.addBeacon b) := by
  obtain ⟨e, -, hnone⟩ | ⟨c, d'', hc, hsome, hid, hclusters⟩ := d.processBeacon_cases b
  · rw [hnone] at h
    cases h
  · rw [hsome] at h
    cases h
    exact ⟨c, hc, hid, hclusters⟩

theorem processBeacon_isSome_iff (d : GeographicDiscovery) (b : GeographicBeacon) :
    (d.processBeacon b).isSome ↔ Geohash.Readable b.geohashCell := by
  have hfor : (d.clusterFor b.geohashCell).isOk ↔ (decodeGeohash b.geohashCell).isOk := by
    rw [clusterFor]
    split
    · rename_i c hlookup
      rw [(d.keyed _ c hlookup).center_eq]
      rfl
    · rw [GeographicCluster.new]
      cases decodeGeohash b.geohashCell <;> rfl
  rw [← decodeGeohash_isOk_iff, ← hfor]
  obtain ⟨e, he, hnone⟩ | ⟨c, d', hc, hsome, -, -⟩ := d.processBeacon_cases b
  · rw [he, hnone]
    rfl
  · rw [hc, hsome]
    rfl

theorem nodes_clusterFor {cell : String} (h : d.clusterFor cell = .ok c) :
    c.nodes = d.nodesIn cell := by
  rw [clusterFor] at h
  rw [nodesIn]
  split at h
  · rename_i hlookup
    cases h
    rw [hlookup]
    rfl
  · rename_i hlookup
    rw [hlookup]
    exact GeographicCluster.nodes_of_new h

theorem nodesIn_processBeacon (h : d.processBeacon b = some d') (cell : String) :
    d'.nodesIn cell = d.nodesIn cell ++ if cell = b.geohashCell then [b] else [] := by
  obtain ⟨c, hc, -, hclusters⟩ := exists_of_processBeacon h
  rw [nodesIn, hclusters, lookup_insert_eq_ite]
  split
  · rename_i e
    rw [e, ← nodes_clusterFor hc]
    rfl
  · rw [List.append_nil]
    rfl

theorem coe_beacons (d : GeographicDiscovery) :
    (d.beacons : Multiset GeographicBeacon) =
      total (fun c => (c.nodes : Multiset GeographicBeacon)) d.clusters := by
  unfold beacons values total
  generalize d.clusters.entries = entries
  induction entries with
  | nil => rfl
  | cons entry entries ih =>
    rw [List.map_cons, List.flatMap_cons, ← Multiset.coe_add, ih, List.map_cons, List.sum_cons]

theorem beacons_processBeacon (h : d.processBeacon b = some d') : d'.beacons.Perm (b :: d.beacons) := by
  obtain ⟨c, hc, -, hclusters⟩ := exists_of_processBeacon h
  rw [← Multiset.coe_eq_coe, ← Multiset.cons_coe, coe_beacons, coe_beacons, hclusters]
  rw [clusterFor] at hc
  split at hc
  · rename_i hlookup
    cases hc
    have hreplace := total_replace (fun c => (c.nodes : Multiset GeographicBeacon)) hlookup
      (c.addBeacon b)
    have hadd : ((c.addBeacon b).nodes : Multiset GeographicBeacon) = c.nodes + {b} := rfl
    rw [hadd, add_assoc, Multiset.singleton_add] at hreplace
    exact add_left_cancel hreplace
  · rename_i hlookup
    have hadd : ((c.addBeacon b).nodes : Multiset GeographicBeacon) = {b} := by
      rw [GeographicCluster.addBeacon, GeographicCluster.nodes_of_new hc]
      rfl
    rw [total_insert_new _ hlookup, hadd, Multiset.singleton_add]

theorem beacons_cleanupExpired (d : GeographicDiscovery) (now : Nat) :
    (d.cleanupExpired now).beacons = d.beacons.filter fun b => !b.isExpired now := by
  show ((((d.clusters.entries.map fun e =>
    (⟨e.1, e.2.removeExpired now⟩ : Σ _ : String, GeographicCluster)).filter
      fun e => !e.2.nodes.isEmpty).map (·.2)).flatMap (·.nodes)) =
    ((d.clusters.entries.map (·.2)).flatMap (·.nodes)).filter fun b => !b.isExpired now
  generalize d.clusters.entries = entries
  induction entries with
  | nil => rfl
  | cons entry entries ih =>
    rw [List.map_cons, List.map_cons, List.flatMap_cons, List.filter_append, ← ih, List.filter_cons]
    split
    · rfl
    · rename_i hempty
      have hnil : entry.2.nodes.filter (fun b => !b.isExpired now) = [] := by
        rw [Bool.not_eq_true, Bool.not_eq_false', List.isEmpty_iff] at hempty
        exact hempty
      rw [hnil]
      rfl

theorem beacons_reorder (d : GeographicDiscovery) (clusters : HashMap String GeographicCluster) :
    (d.reorder clusters).beacons.Perm d.beacons := by
  rw [reorder]
  split
  · rename_i hperm
    exact (hperm.map _).flatMap_right _
  · exact List.Perm.refl _

theorem lookup_reorder (d : GeographicDiscovery) (clusters : HashMap String GeographicCluster)
    (cell : String) : (d.reorder clusters).clusters.lookup cell = d.clusters.lookup cell := by
  rw [reorder]
  split
  · rename_i hperm
    exact AList.perm_lookup hperm
  · rfl

theorem myNodeId_reorder (d : GeographicDiscovery) (clusters : HashMap String GeographicCluster) :
    (d.reorder clusters).myNodeId = d.myNodeId := by
  rw [reorder]
  split <;> rfl

/-! ## 4. A list of beacons -/

def processAll (d : GeographicDiscovery) (bs : List GeographicBeacon) : Option GeographicDiscovery :=
  bs.foldlM processBeacon d

theorem processAll_eq (bs : List GeographicBeacon) (hread : ∀ b ∈ bs, Geohash.Readable b.geohashCell)
    (d : GeographicDiscovery) :
    ∃ d', d.processAll bs = some d' ∧ d'.myNodeId = d.myNodeId ∧ d'.beacons.Perm (bs ++ d.beacons) ∧
      ∀ cell, d'.nodesIn cell = d.nodesIn cell ++ bs.filter fun b => b.geohashCell = cell := by
  induction bs generalizing d with
  | nil => exact ⟨d, rfl, rfl, List.Perm.refl _, fun _ => (List.append_nil _).symm⟩
  | cons b bs ih =>
    obtain ⟨hb, hbs⟩ := List.forall_mem_cons.mp hread
    obtain ⟨d₁, h₁⟩ := Option.isSome_iff_exists.mp ((d.processBeacon_isSome_iff b).mpr hb)
    obtain ⟨d', h', hid, hperm, hnodes⟩ := ih hbs d₁
    refine ⟨d', ?_, ?_, ?_, fun cell => ?_⟩
    · rw [processAll, List.foldlM_cons, h₁]
      exact h'
    · obtain ⟨-, -, hid₁, -⟩ := exists_of_processBeacon h₁
      exact hid.trans hid₁
    · exact hperm.trans (((beacons_processBeacon h₁).append_left bs).trans List.perm_middle)
    · rw [hnodes, nodesIn_processBeacon h₁, List.append_assoc, List.filter_cons]
      congr 1
      by_cases e : cell = b.geohashCell
      · rw [if_pos e, if_pos (decide_eq_true e.symm)]
        rfl
      · rw [if_neg e, if_neg (fun h => e (of_decide_eq_true h).symm)]
        rfl

/-! ## 5. The own cluster -/

theorem exists_of_myCluster (h : d.myCluster = some c) :
    c ∈ d.values ∧ ∃ b ∈ c.nodes, b.nodeId = d.myNodeId := by
  refine ⟨List.mem_of_find?_eq_some h, ?_⟩
  have hany := List.find?_some h
  obtain ⟨b, hb, hid⟩ := List.any_eq_true.mp hany
  exact ⟨b, hb, of_decide_eq_true hid⟩

theorem myCluster_eq (hnodup : (d.beacons.map (·.nodeId)).Nodup) (hb : b ∈ d.beacons)
    (hown : b.nodeId = d.myNodeId) :
    ∃ c, d.myCluster = some c ∧ d.clusters.lookup b.geohashCell = some c := by
  have hsome : d.myCluster.isSome := by
    obtain ⟨c, hc, hbc⟩ := mem_beacons_iff.mp hb
    exact List.find?_isSome.mpr ⟨c, hc, List.any_eq_true.mpr ⟨b, hbc, decide_eq_true hown⟩⟩
  obtain ⟨c, hc⟩ := Option.isSome_iff_exists.mp hsome
  refine ⟨c, hc, ?_⟩
  -- the beacon the search found is the own one: no other has its id
  obtain ⟨hmem, b', hb', hid⟩ := exists_of_myCluster hc
  have hsame : b' = b :=
    List.inj_on_of_nodup_map hnodup (mem_beacons_iff.mpr ⟨c, hmem, hb'⟩) hb (hid.trans hown.symm)
  obtain ⟨cell, hlookup⟩ := mem_values_iff.mp hmem
  rw [← hsame, (d.keyed cell c hlookup).own b' hb']
  exact hlookup

end GeographicDiscovery

end Peat.Discovery
