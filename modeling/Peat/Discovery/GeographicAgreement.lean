/-
  LEADERLESS AGREEMENT in geographic discovery: nodes that have processed the same
  beacons, each in its own order, agree on who initiates a cell and on its members.

  A population is one beacon for each node, with readable cells. A node gets it in any
  order, and iterates its map in any order.
-/
import Peat.Discovery.Geographic

namespace Peat.Discovery

open Peat.Lib

/-! ## 1. Populations and deliveries -/

/-- One beacon of each node, with readable geohashes. -/
structure Population where
  beacons : List GeographicBeacon
  distinct : (beacons.map (·.nodeId)).Nodup
  readable : ∀ b ∈ beacons, Geohash.Readable b.geohashCell

/-- The order in which each node hears the beacons. -/
structure Deliveries (p : Population) where
  order : String → List GeographicBeacon
  perm : ∀ n, (order n).Perm p.beacons
  clusters : String → HashMap String GeographicCluster

namespace Population

def nodesOf (p : Population) (cell : String) : List String :=
  (p.beacons.filter fun b => b.geohashCell = cell).map (·.nodeId)

def discovery (p : Population) (deliveries : Deliveries p) (n : String) : Option GeographicDiscovery :=
  ((GeographicDiscovery.new n).processAll (deliveries.order n)).map (·.reorder (deliveries.clusters n))

variable {p : Population} {cell n : String}

structure View (p : Population) (n : String) (d : GeographicDiscovery) : Prop where
  own : d.myNodeId = n
  beacons : d.beacons.Perm p.beacons
  cells : ∀ cell, (d.nodesIn cell).Perm (p.beacons.filter fun b => b.geohashCell = cell)

theorem discovery_eq (p : Population) (deliveries : Deliveries p) (n : String) :
    ∃ d, p.discovery deliveries n = some d ∧ p.View n d := by
  have hperm := deliveries.perm n
  obtain ⟨d, hd, hid, hbeacons, hcells⟩ :=
    GeographicDiscovery.processAll_eq (deliveries.order n)
      (fun b hb => p.readable b (hperm.subset hb)) (GeographicDiscovery.new n)
  refine ⟨d.reorder (deliveries.clusters n), by rw [discovery, hd]; rfl, ?_, ?_, fun cell => ?_⟩
  · rw [GeographicDiscovery.myNodeId_reorder, hid]
    rfl
  · refine (d.beacons_reorder _).trans (hbeacons.trans ?_)
    rw [show (GeographicDiscovery.new n).beacons = [] from rfl, List.append_nil]
    exact hperm
  · rw [GeographicDiscovery.nodesIn, GeographicDiscovery.lookup_reorder]
    show (d.nodesIn cell).Perm _
    rw [hcells]
    exact hperm.filter _

/-! ## 2. The two decisions -/

variable {d : GeographicDiscovery}

theorem view_cluster (hview : p.View n d) (hn : n ∈ p.nodesOf cell) :
    ∃ c, d.myCluster = some c ∧ c.nodeIds.Perm (p.nodesOf cell) := by
  obtain ⟨b, hb, hid⟩ := List.mem_map.mp hn
  obtain ⟨hmem, hcell⟩ := List.mem_filter.mp hb
  have hnodup : (d.beacons.map (·.nodeId)).Nodup :=
    (hview.beacons.map _).nodup_iff.mpr p.distinct
  obtain ⟨c, hc, hlookup⟩ := GeographicDiscovery.myCluster_eq hnodup
    (hview.beacons.mem_iff.mpr hmem) (hid.trans hview.own.symm)
  refine ⟨c, hc, ?_⟩
  have hcells := hview.cells cell
  rw [GeographicDiscovery.nodesIn, ← of_decide_eq_true hcell, hlookup] at hcells
  rw [← of_decide_eq_true hcell]
  exact hcells.map _

theorem canFormCell_iff {c : GeographicCluster} (hc : c.nodeIds.Perm (p.nodesOf cell)) :
    c.canFormCell minCellSize = true ↔ minCellSize ≤ (p.nodesOf cell).length := by
  rw [← hc.length_eq, GeographicCluster.nodeIds, List.length_map]
  exact decide_eq_true_iff

theorem initiates_iff (hview : p.View n d) (hn : n ∈ p.nodesOf cell) :
    d.shouldInitiateCellFormation = true ↔
      minCellSize ≤ (p.nodesOf cell).length ∧ ∀ m ∈ p.nodesOf cell, n ≤ m := by
  obtain ⟨c, hc, hids⟩ := view_cluster hview hn
  have hmin : ∀ minId, c.nodeIds.min? = some minId →
      (minId = n ↔ ∀ m ∈ p.nodesOf cell, n ≤ m) := by
    intro minId h
    obtain ⟨hmem, hle⟩ := List.min?_eq_some_iff.mp h
    constructor
    · rintro rfl m hm
      exact hle m (hids.mem_iff.mpr hm)
    · intro hleast
      exact le_antisymm (hle n (hids.mem_iff.mpr hn)) (hleast minId (hids.mem_iff.mp hmem))
  rw [GeographicDiscovery.shouldInitiateCellFormation, hc]
  dsimp only
  rw [← canFormCell_iff hids, hview.own]
  split
  · rename_i hform
    rw [and_iff_right hform]
    split
    · rename_i hnone
      have hnil : c.nodeIds = [] := List.min?_eq_none_iff.mp hnone
      have hmem := hids.mem_iff.mpr hn
      rw [hnil] at hmem
      cases hmem
    · rename_i minId hsome
      exact decide_eq_true_iff.trans (hmin minId hsome)
  · rename_i hform
    exact iff_of_false Bool.false_ne_true fun h => hform h.1

theorem insertionSort_eq_of_perm {l l' : List String} (h : l.Perm l') :
    l.insertionSort (· ≤ ·) = l'.insertionSort (· ≤ ·) := by
  refine List.Perm.eq_of_pairwise (fun a b _ _ => le_antisymm) (List.pairwise_insertionSort _ l)
    (List.pairwise_insertionSort _ l') ?_
  exact (List.perm_insertionSort _ l).trans (h.trans (List.perm_insertionSort _ l').symm)

def membersOf (p : Population) (cell : String) (maxSize : Nat) : List String :=
  ((p.nodesOf cell).insertionSort (· ≤ ·)).take maxSize

theorem getCellMembers_eq (hview : p.View n d) (hn : n ∈ p.nodesOf cell) (maxSize : Nat) :
    d.getCellMembers maxSize =
      if minCellSize ≤ (p.nodesOf cell).length then some (p.membersOf cell maxSize) else none := by
  obtain ⟨c, hc, hids⟩ := view_cluster hview hn
  rw [GeographicDiscovery.getCellMembers, hc]
  dsimp only
  rw [insertionSort_eq_of_perm hids]
  exact if_congr (canFormCell_iff hids) rfl rfl

theorem mem_nodesOf_of_mem_membersOf {m : String} {maxSize : Nat} (h : m ∈ p.membersOf cell maxSize) :
    m ∈ p.nodesOf cell :=
  (List.mem_insertionSort _).mp (List.mem_of_mem_take h)

theorem least_mem_membersOf (hn : n ∈ p.nodesOf cell) (hleast : ∀ m ∈ p.nodesOf cell, n ≤ m)
    {maxSize : Nat} (hsize : 1 ≤ maxSize) : n ∈ p.membersOf cell maxSize := by
  have hsorted := List.pairwise_insertionSort (· ≤ ·) (p.nodesOf cell)
  have hmem : n ∈ (p.nodesOf cell).insertionSort (· ≤ ·) := (List.mem_insertionSort _).mpr hn
  rw [membersOf]
  cases hl : (p.nodesOf cell).insertionSort (· ≤ ·) with
  | nil =>
    rw [hl] at hmem
    cases hmem
  | cons a rest =>
    rw [hl] at hsorted hmem
    have hfirst : n = a := by
      have hna : n ≤ a :=
        hleast a ((List.mem_insertionSort _).mp (by rw [hl]; exact List.mem_cons_self))
      rcases List.mem_cons.mp hmem with rfl | hrest
      · rfl
      · exact le_antisymm hna ((List.pairwise_cons.mp hsorted).1 n hrest)
    obtain ⟨k, rfl⟩ := Nat.exists_eq_add_of_le' hsize
    rw [List.take_succ_cons, hfirst]
    exact List.mem_cons_self

/-! ## 3. Agreement -/

theorem exists_least (h : p.nodesOf cell ≠ []) :
    ∃ n ∈ p.nodesOf cell, ∀ m ∈ p.nodesOf cell, n ≤ m := by
  obtain ⟨n, hn⟩ := Option.ne_none_iff_exists'.mp (mt List.min?_eq_none_iff.mp h)
  exact ⟨n, List.min?_eq_some_iff.mp hn⟩

theorem existsUnique_initiator {views : String → GeographicDiscovery} (hviews : ∀ n, p.View n (views n))
    (hsize : minCellSize ≤ (p.nodesOf cell).length) :
    ∃! n, n ∈ p.nodesOf cell ∧ (views n).shouldInitiateCellFormation = true := by
  have hne : p.nodesOf cell ≠ [] := by
    intro hnil
    rw [hnil] at hsize
    cases hsize
  obtain ⟨n, hn, hleast⟩ := exists_least hne
  refine ⟨n, ⟨hn, (initiates_iff (hviews n) hn).mpr ⟨hsize, hleast⟩⟩, ?_⟩
  rintro m ⟨hm, hinit⟩
  obtain ⟨-, hm'⟩ := (initiates_iff (hviews m) hm).mp hinit
  exact le_antisymm (hm' n hn) (hleast m hm)

/-- **Leaderless agreement**: in whatever order the nodes process the beacons, a cell of at least
    `minCellSize` nodes has exactly one initiator, and all its nodes propose one list with the initiator in
    it. -/
theorem initiator_agreement (p : Population) (deliveries : Deliveries p) :
    ∃ views : String → GeographicDiscovery, (∀ n, p.discovery deliveries n = some (views n)) ∧
      ∀ cell,
        (minCellSize ≤ (p.nodesOf cell).length →
          (∃! n, n ∈ p.nodesOf cell ∧ (views n).shouldInitiateCellFormation = true) ∧
          ∀ maxSize, 1 ≤ maxSize → ∃ members,
            (∀ n ∈ p.nodesOf cell, (views n).getCellMembers maxSize = some members) ∧
            (∀ n ∈ p.nodesOf cell, (views n).shouldInitiateCellFormation = true → n ∈ members) ∧
            ∀ m ∈ members, m ∈ p.nodesOf cell) ∧
        ((p.nodesOf cell).length < minCellSize → ∀ n ∈ p.nodesOf cell,
          (views n).shouldInitiateCellFormation = false ∧
          ∀ maxSize, (views n).getCellMembers maxSize = none) := by
  choose views hsome hviews using p.discovery_eq deliveries
  refine ⟨views, hsome, fun cell => ⟨fun hsize => ⟨existsUnique_initiator hviews hsize, ?_⟩, ?_⟩⟩
  · intro maxSize hmax
    refine ⟨p.membersOf cell maxSize, fun n hn => ?_, fun n hn hinit => ?_, fun m hm => ?_⟩
    · rw [getCellMembers_eq (hviews n) hn, if_pos hsize]
    · exact least_mem_membersOf hn ((initiates_iff (hviews n) hn).mp hinit).2 hmax
    · exact mem_nodesOf_of_mem_membersOf hm
  · intro hsize n hn
    constructor
    · exact Bool.eq_false_iff.mpr fun hinit =>
        absurd ((initiates_iff (hviews n) hn).mp hinit).1 (Nat.not_le.mpr hsize)
    · intro maxSize
      rw [getCellMembers_eq (hviews n) hn, if_neg (Nat.not_le.mpr hsize)]

def sampleTrio : Population where
  beacons :=
    [⟨"node_b", ⟨0, 0, 0⟩, "9q8yyk8", true, 100, []⟩, ⟨"node_a", ⟨0, 0, 0⟩, "9q8yyk8", true, 101, []⟩,
      ⟨"node_c", ⟨0, 0, 0⟩, "9q5ctr1", true, 102, []⟩]
  distinct := by decide
  readable := by decide +kernel

def sampleTrioDeliveries : Deliveries sampleTrio where
  order n := if n = "node_a" then sampleTrio.beacons else sampleTrio.beacons.reverse
  perm n := by
    split
    · exact List.Perm.refl _
    · exact List.reverse_perm _
  clusters _ := ∅

theorem initiator_agreement_sampleTrio :
    sampleTrio.nodesOf "9q8yyk8" = ["node_b", "node_a"] ∧
      ∃ views : String → GeographicDiscovery,
        (∀ n, sampleTrio.discovery sampleTrioDeliveries n = some (views n)) ∧
        ∃! n, n ∈ sampleTrio.nodesOf "9q8yyk8" ∧ (views n).shouldInitiateCellFormation = true := by
  obtain ⟨views, hsome, hcells⟩ := initiator_agreement sampleTrio sampleTrioDeliveries
  exact ⟨by decide, views, hsome, ((hcells "9q8yyk8").1 (by decide)).1⟩

end Population

end Peat.Discovery
