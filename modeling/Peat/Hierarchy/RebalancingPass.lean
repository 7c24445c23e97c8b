/-
  WHEN A PASS REBALANCES WELL.

  The snapshot is stale after the first operation: a cell dissolved as a merge partner
  may be merged again.
-/
import Peat.Hierarchy.Rebalancing

namespace Peat.Hierarchy

open Peat.Lib Peat.Models

namespace RebalancingCall

section Run

variable {x : RebalancingCall} {routing : RoutingTable}

/-! ## 1. What a pass should do -/

/-- **A pass rebalances well**: each cell is used once at most, no node is mapped to a dissolved cell, every
    cell mapped to a zone owns a node, every node of a dissolved cell is in a new cell, and the count is of
    operations that moved nodes. -/
structure RebalancesWell (routing : RoutingTable) (p : Pass) : Prop where
  once : (p.operations.flatMap (·.sources)).Nodup
  dissolved : ∀ op ∈ p.operations, ∀ s ∈ op.sources, p.routing.getCellNodes s = []
  inhabited : ∀ k e, p.routing.zone k = some e → routing.zone k ≠ some e →
    p.routing.getCellNodes k ≠ []
  placed : ∀ op ∈ p.operations, ∀ s ∈ op.sources, ∀ n ∈ routing.getCellNodes s,
    ∃ op' ∈ p.operations, ∃ id ∈ op'.created, n ∈ p.routing.getCellNodes id
  counted : p.operationsCount = (p.operations.filter fun op => 0 < op.moved).length

/-- **When it does**, read off snapshot and table: no two operating cells share an id, no two merges a
    partner, which is not undersized itself; the nodes in operations have entries older than the call; the
    larger half of a split fits. -/
structure Rebalanceable (x : RebalancingCall) (routing : RoutingTable) : Prop where
  subjects : ((x.allCells.filter fun c => x.Operating c).map (·.idText)).Nodup
  partners : ((x.allCells.filterMap x.partner).map (·.idText)).Nodup
  sized : ∀ c ∈ x.allCells, ∀ d ∈ x.partner c, x.maintainer.minCellSize ≤ d.members.length
  older : ∀ c ∈ x.allCells, ∀ s ∈ x.sourcesOf c, ∀ n ∈ routing.getCellNodes s,
    routing.Accepts x.timestamp n = true
  room : ∀ c ∈ x.allCells, x.maintainer.maxCellSize < c.members.length →
    c.members.length - c.members.length / 2 ≤ x.maintainer.newCapacity

theorem perm_sources (x : RebalancingCall) :
    (x.allCells.flatMap x.sourcesOf).Perm
      ((x.allCells.filter fun c => x.Operating c).map (·.idText) ++
        (x.allCells.filterMap x.partner).map (·.idText)) := by
  have hops : x.allCells.flatMap (fun c => if x.Operating c then [c.idText] else []) =
      (x.allCells.filter fun c => x.Operating c).map (·.idText) := by
    induction x.allCells with
    | nil => rfl
    | cons c cells ih => by_cases h : x.Operating c <;> simp [h, ih]
  have hpartners : x.allCells.flatMap (fun c => ((x.partner c).map (·.idText)).toList) =
      (x.allCells.filterMap x.partner).map (·.idText) := by
    rw [List.map_filterMap]
    exact (List.filterMap_eq_flatMap_toList _ _).symm
  rw [← hops, ← hpartners]
  exact (List.flatMap_append_perm _ _ _).symm

variable {c : CellState} {n s : String}

theorem exists_source_of_touched (hagree : Agrees routing x.allCells) (hc : c ∈ x.allCells)
    (hn : n ∈ x.touched routing c) : ∃ s ∈ x.sourcesOf c, n ∈ routing.getCellNodes s := by
  by_cases hs : x.maintainer.maxCellSize < c.members.length
  · rw [touched_split hs] at hn
    rw [sourcesOf_split hs]
    refine ⟨c.idText, List.mem_singleton.mpr rfl, ?_⟩
    exact (hagree c hc).mem_iff.mp (HierarchyMaintainer.mem_members_of_split hn)
  · obtain ⟨e, he, hs⟩ := (mem_touched_merge hs).mp hn
    exact ⟨e.1, hs, RoutingTable.mem_getCellNodes.mpr ⟨e.2, he⟩⟩

theorem source_unique {s' : String} (h : n ∈ routing.getCellNodes s)
    (h' : n ∈ routing.getCellNodes s') : s = s' := by
  obtain ⟨ts, h⟩ := RoutingTable.mem_getCellNodes.mp h
  obtain ⟨ts', h'⟩ := RoutingTable.mem_getCellNodes.mp h'
  rw [h] at h'
  cases h'
  rfl

theorem touched_of_source (hagree : Agrees routing x.allCells) (hr : x.Rebalanceable routing)
    (hc : c ∈ x.allCells) (hs : s ∈ x.sourcesOf c) (hn : n ∈ routing.getCellNodes s) :
    n ∈ x.touched routing c := by
  by_cases hsize : x.maintainer.maxCellSize < c.members.length
  · rw [sourcesOf_split hsize, List.mem_singleton] at hs
    subst hs
    rw [touched_split hsize]
    exact (x.maintainer.split_complete_iff (hagree.nodup hc)).mpr (hr.room c hc hsize) n
      ((hagree c hc).mem_iff.mpr hn)
  · obtain ⟨ts, hnode⟩ := RoutingTable.mem_getCellNodes.mp hn
    exact (mem_touched_merge hsize).mpr ⟨(s, ts), hnode, hs⟩

theorem nodup_sources_iff (hagree : Agrees routing x.allCells) :
    (x.allCells.flatMap x.sourcesOf).Nodup ↔
      ((x.allCells.filter fun c => x.Operating c).map (·.idText)).Nodup ∧
      ((x.allCells.filterMap x.partner).map (·.idText)).Nodup ∧
      ∀ c ∈ x.allCells, ∀ d ∈ x.partner c, x.maintainer.minCellSize ≤ d.members.length := by
  rw [x.perm_sources.nodup_iff, List.nodup_append]
  constructor
  · intro h
    refine ⟨h.1, h.2.1, fun c hc d hd => Nat.le_of_not_lt fun hlt => ?_⟩
    -- an undersized partner operates itself: its partner may be `c`
    obtain ⟨_, hmem, hfit⟩ := partner_spec hd
    obtain ⟨e, he⟩ := HierarchyMaintainer.exists_preferred hc hfit.symm
    have hop : x.Operating d := .inr (by
      unfold partner
      rw [if_pos hlt, he]
      rfl)
    refine h.2.2 d.idText (List.mem_map_of_mem (List.mem_filter.mpr ⟨hmem, by simpa using hop⟩))
      d.idText (List.mem_map_of_mem (List.mem_filterMap.mpr ⟨c, hc, hd⟩)) rfl
  · intro h
    refine ⟨h.1, h.2.1, fun s hs s' hs' hss => ?_⟩
    obtain ⟨e, he, rfl⟩ := List.mem_map.mp hs
    obtain ⟨d, hd, rfl⟩ := List.mem_map.mp hs'
    obtain ⟨heall, hop⟩ := List.mem_filter.mp he
    obtain ⟨c, hc, hpartner⟩ := List.mem_filterMap.mp hd
    obtain ⟨_, hdall, hfit⟩ := partner_spec hpartner
    have hlen := hagree.length_eq heall hdall hss
    have hmin := h.2.2 c hc d hpartner
    have hmax := hfit.2
    rcases of_decide_eq_true hop with hop | hop
    · omega
    · obtain ⟨f, hf⟩ := Option.isSome_iff_exists.mp hop
      have hlt := (partner_spec hf).1
      omega

theorem rebalanceable_iff (hagree : Agrees routing x.allCells) :
    ((x.allCells.flatMap x.sourcesOf).Nodup ∧
      ∀ c ∈ x.allCells, ∀ s ∈ x.sourcesOf c, ∀ n ∈ routing.getCellNodes s,
        x.Moved routing x.allCells n) ↔ x.Rebalanceable routing := by
  constructor
  · intro h
    obtain ⟨hnodup, hmoved⟩ := h
    obtain ⟨h1, h2, h3⟩ := (nodup_sources_iff hagree).mp hnodup
    refine ⟨h1, h2, h3, fun c hc s hs n hn => (hmoved c hc s hs n hn).2, fun c hc hsize => ?_⟩
    have hown : c.idText ∈ x.sourcesOf c := by
      rw [sourcesOf_split hsize]
      exact List.mem_singleton.mpr rfl
    refine (x.maintainer.split_complete_iff (hagree.nodup hc)).mp fun n hn => ?_
    have hn' := (hagree c hc).mem_iff.mp hn
    obtain ⟨⟨c', hc', ht⟩, _⟩ := hmoved c hc c.idText hown n hn'
    -- the operation that tries the node dissolves its cell, so it is this split
    obtain ⟨s, hs, hns⟩ := exists_source_of_touched hagree hc' ht
    rw [source_unique hns hn'] at hs
    have hsame : c' = c := by
      by_contra hne
      have : Std.Symm (Function.onFun List.Disjoint x.sourcesOf) :=
        ⟨fun _ _ hd => List.Disjoint.symm hd⟩
      exact (List.nodup_flatMap.mp hnodup).2.forall hc' hc hne hs hown
    rw [hsame, touched_split hsize] at ht
    exact ht
  · intro hr
    refine ⟨(nodup_sources_iff hagree).mpr ⟨hr.subjects, hr.partners, hr.sized⟩, ?_⟩
    intro c hc s hs n hn
    exact ⟨⟨c, hc, touched_of_source hagree hr hc hs hn⟩, hr.older c hc s hs n hn⟩

/-! ## 2. The operations under the condition -/

def Filled (x : RebalancingCall) (p : Pass) : Prop :=
  ∀ op ∈ p.operations, 0 < op.moved ∧
    ∀ id ∈ op.created, ∃ n, p.routing.node n = some (id, x.timestamp)

variable {pre : List CellState} {p : Pass}

theorem not_moved_of_touched (hagree : Agrees routing x.allCells) (hr : x.Rebalanceable routing)
    (hpre : pre ++ [c] <+: x.allCells) (hn : n ∈ x.touched routing c) : ¬x.Moved routing pre n := by
  intro hm
  obtain ⟨⟨c', hc', hn'⟩, _⟩ := hm
  have hsub : pre ++ [c] ⊆ x.allCells := hpre.subset
  obtain ⟨s, hs, hns⟩ := exists_source_of_touched hagree
    (hsub (List.mem_append_right _ (List.mem_singleton.mpr rfl))) hn
  obtain ⟨s', hs', hns'⟩ := exists_source_of_touched hagree
    (hsub (List.mem_append_left _ hc')) hn'
  rw [source_unique hns' hns] at hs'
  have hnodup := (rebalanceable_iff hagree).mpr hr |>.1
  obtain ⟨post, hpost⟩ := hpre
  rw [← hpost, List.flatMap_append, List.flatMap_append, List.flatMap_singleton] at hnodup
  exact (List.nodup_append.mp (List.nodup_append.mp hnodup).1).2.2 s
    (List.mem_flatMap.mpr ⟨c', hc', hs'⟩) s hs rfl

theorem exists_touched (hagree : Agrees routing x.allCells) (hr : x.Rebalanceable routing)
    (hc : c ∈ x.allCells) (hop : x.Operating c) : ∃ n, n ∈ x.touched routing c := by
  have hmin := x.maintainer.minCellSize_lt
  have hpos := x.maintainer.minCellSize_pos
  -- a dissolved cell with a member
  obtain ⟨d, hd, hs, hlen⟩ : ∃ d ∈ x.allCells, d.idText ∈ x.sourcesOf c ∧ 0 < d.members.length := by
    rcases hop with hsize | hsome
    · refine ⟨c, hc, ?_, by omega⟩
      rw [sourcesOf_split hsize]
      exact List.mem_singleton.mpr rfl
    · obtain ⟨d, hd⟩ := Option.isSome_iff_exists.mp hsome
      refine ⟨d, (partner_spec hd).2.1, ?_, Nat.lt_of_lt_of_le hpos (hr.sized c hc d hd)⟩
      rw [sourcesOf_merge hd]
      exact List.mem_pair.mpr (.inr rfl)
  obtain ⟨n, hn⟩ := List.exists_mem_of_length_pos hlen
  exact ⟨n, touched_of_source hagree hr hc hs ((hagree d hd).mem_iff.mp hn)⟩

theorem Filled.operate (hagree : Agrees routing x.allCells) (hr : x.Rebalanceable routing)
    (hfresh : ∀ k, ∀ c ∈ x.allCells, x.uuid k ≠ c.idText) (hpre : pre ++ [c] <+: x.allCells)
    {p' : Pass} {op : Operation} (h : x.Inv routing pre p) (hfill : x.Filled p)
    (hperf : x.Performs p c op p') (hop : x.Operating c) : x.Filled p' := by
  have hc : c ∈ x.allCells := hpre.subset (List.mem_append_right _ (List.mem_singleton.mpr rfl))
  -- what is tried now was to be tried from the start
  have hinit : ∀ n ∈ x.touched p.routing c, n ∈ x.touched routing c := fun n hn => by
    by_cases hsize : x.maintainer.maxCellSize < c.members.length
    · rw [touched_split hsize] at hn ⊢
      exact hn
    · refine (mem_touched_congr (h.kept n fun hm => ?_)).mp hn
      obtain ⟨op', hop', id, hid, hnode⟩ := h.moved n hm
      obtain ⟨e, he, hs⟩ := (mem_touched_merge hsize).mp hn
      rw [hnode] at he
      cases he
      obtain ⟨k, rfl⟩ := h.created op' hop' id hid
      obtain ⟨d, hd, hid⟩ := sourcesOf_subset hc hs
      exact hfresh k d hd hid.symm
  have hsame : ∀ n ∈ x.touched routing c, p.routing.node n = routing.node n := fun n hn =>
    h.kept n (not_moved_of_touched hagree hr hpre hn)
  have hall : ∀ n ∈ x.touched p.routing c, p.routing.Accepts x.timestamp n = true := fun n hn => by
    obtain ⟨s, hs, hns⟩ := exists_source_of_touched hagree hc (hinit n hn)
    unfold RoutingTable.Accepts
    rw [hsame n (hinit n hn)]
    exact hr.older c hc s hs n hns
  have hne : x.touched p.routing c ≠ [] := by
    obtain ⟨n, hn⟩ := exists_touched hagree hr hc hop
    exact List.ne_nil_of_mem ((mem_touched_congr (hsame n hn)).mpr hn)
  intro op' hmem
  rw [hperf.operations] at hmem
  rcases List.mem_append.mp hmem with hmem | hmem
  · obtain ⟨hpos, hown⟩ := hfill op' hmem
    refine ⟨hpos, fun id hid => ?_⟩
    obtain ⟨n, hn⟩ := hown id hid
    exact ⟨n, (hperf.keeps n fun ha => not_accepts_of_moved hn ha.2).trans hn⟩
  · rw [List.mem_singleton.mp hmem]
    exact hperf.fills hne hall

/-! ## 3. The whole call -/

theorem checkAndRebalance_ok (hagree : Agrees routing x.allCells)
    (hfresh : ∀ k, ∀ c ∈ x.allCells, x.uuid k ≠ c.idText) :
    ∃ p, x.checkAndRebalance routing = .ok p ∧ x.Inv routing x.allCells p ∧
      (x.Rebalanceable routing → x.Filled p) := by
  refine foldlM_ok
    (fun pre p => x.Inv routing pre p ∧ (x.Rebalanceable routing → x.Filled p))
    (fun pre c p hpre h => ?_) ⟨inv_start, fun _ _ hmem => (nomatch hmem)⟩
  have hc : c ∈ x.allCells := hpre.subset (List.mem_append_right _ (List.mem_singleton.mpr rfl))
  obtain ⟨p', hok, hcases⟩ := rebalanceCell_spec (hagree.nodup hc) p
  refine ⟨p', hok, ?_⟩
  rcases hcases with ⟨hno, rfl⟩ | ⟨hop, op, hperf⟩
  · exact ⟨h.1.idle hno, h.2⟩
  · exact ⟨h.1.operate hperf, fun hr =>
      Filled.operate hagree hr hfresh hpre h.1 (h.2 hr) hperf hop⟩

theorem mem_sources_iff (hinv : x.Inv routing x.allCells p) (s : String) :
    (∃ op ∈ p.operations, s ∈ op.sources) ↔ ∃ c ∈ x.allCells, s ∈ x.sourcesOf c := by
  rw [← List.mem_flatMap, ← List.mem_flatMap, hinv.sources]

theorem moved_of_rebalancesWell (hinv : x.Inv routing x.allCells p)
    (hwell : RebalancesWell routing p) (hc : c ∈ x.allCells) (hs : s ∈ x.sourcesOf c)
    (hn : n ∈ routing.getCellNodes s) : x.Moved routing x.allCells n := by
  by_contra hm
  obtain ⟨op, hop, hs'⟩ := (mem_sources_iff hinv s).mpr ⟨c, hc, hs⟩
  have hstill : n ∈ p.routing.getCellNodes s := by
    rw [RoutingTable.mem_getCellNodes, hinv.kept n hm]
    exact RoutingTable.mem_getCellNodes.mp hn
  rw [hwell.dissolved op hop s hs'] at hstill
  cases hstill

theorem dissolved_of_moved (hinv : x.Inv routing x.allCells p)
    (hfresh : ∀ k, ∀ c ∈ x.allCells, x.uuid k ≠ c.idText) (hc : c ∈ x.allCells)
    (hs : s ∈ x.sourcesOf c) (hmoved : ∀ n ∈ routing.getCellNodes s, x.Moved routing x.allCells n) :
    p.routing.getCellNodes s = [] := by
  refine List.eq_nil_iff_forall_not_mem.mpr fun n hn => ?_
  obtain ⟨ts, hnode⟩ := RoutingTable.mem_getCellNodes.mp hn
  by_cases hm : x.Moved routing x.allCells n
  · obtain ⟨op', hop', id, hid, hnode'⟩ := hinv.moved n hm
    rw [hnode] at hnode'
    cases hnode'
    obtain ⟨k, hk⟩ := hinv.created op' hop' s hid
    obtain ⟨d, hd, hds⟩ := sourcesOf_subset hc hs
    exact hfresh k d hd (hk.symm.trans hds.symm)
  · rw [hinv.kept n hm] at hnode
    exact hm (hmoved n (RoutingTable.mem_getCellNodes.mpr ⟨ts, hnode⟩))

/-- **When one call of `check_and_rebalance` rebalances well**, for every list of cells and every table that
    agrees with them. -/
theorem checkAndRebalance_iff (x : RebalancingCall) (routing : RoutingTable)
    (hagree : Agrees routing x.allCells)
    (hfresh : ∀ k, ∀ c ∈ x.allCells, x.uuid k ≠ c.idText) :
    ∃ p, x.checkAndRebalance routing = .ok p ∧
      (RebalancesWell routing p ↔ x.Rebalanceable routing) := by
  obtain ⟨p, hok, hinv, hfilled⟩ := checkAndRebalance_ok hagree hfresh
  refine ⟨p, hok, fun hwell => ?_, fun hr => ?_⟩
  · exact (rebalanceable_iff hagree).mp ⟨hinv.sources ▸ hwell.once,
      fun c hc s hs n hn => moved_of_rebalancesWell hinv hwell hc hs hn⟩
  · obtain ⟨hnodup, hmoved⟩ := (rebalanceable_iff hagree).mpr hr
    refine
      { once := hinv.sources ▸ hnodup
        dissolved := fun op hop s hs => ?_
        inhabited := fun k e hk hnew => ?_
        placed := fun op hop s hs n hn => ?_
        counted := ?_ }
    · obtain ⟨c, hc, hs'⟩ := (mem_sources_iff hinv s).mp ⟨op, hop, hs⟩
      exact dissolved_of_moved hinv hfresh hc hs' (hmoved c hc s hs')
    · obtain ⟨op, hop, hid⟩ := (hinv.zones k e hk).resolve_left hnew
      obtain ⟨n, hn⟩ := (hfilled hr op hop).2 k hid
      exact List.ne_nil_of_mem (RoutingTable.mem_getCellNodes.mpr ⟨_, hn⟩)
    · obtain ⟨c, hc, hs'⟩ := (mem_sources_iff hinv s).mp ⟨op, hop, hs⟩
      obtain ⟨op', hop', id, hid, hnode⟩ := hinv.moved n (hmoved c hc s hs' n hn)
      exact ⟨op', hop', id, hid, RoutingTable.mem_getCellNodes.mpr ⟨_, hnode⟩⟩
    · have hall : (p.operations.filter fun op => 0 < op.moved) = p.operations :=
        List.filter_eq_self.mpr fun op hop => decide_eq_true (hfilled hr op hop).1
      rw [hall, hinv.count]

end Run

def zoneCell (id : String) (members : List String) : CellState :=
  { config := some ⟨id, 10, 2, none⟩, leaderId := none, members := members, capabilities := []
    cohortId := some "z", timestamp := none }

def callOn (membersA membersB : List String) : RebalancingCall where
  maintainer := ⟨3, 6, by decide, by decide⟩
  allCells := [zoneCell "A" membersA, zoneCell "B" membersB]
  timestamp := 10
  now := 10
  uuid := fun k => if k = 0 then "first" else "second"

def tableOf (membersA membersB : List String) : RoutingTable :=
  ((RoutingTable.new.assignNodes membersA "A" 1).1.assignNodes membersB "B" 1).1

theorem callOn_fresh (membersA membersB : List String) (k : Nat) :
    ∀ c ∈ (callOn membersA membersB).allCells, (callOn membersA membersB).uuid k ≠ c.idText := by
  intro c hc
  show (if k = 0 then "first" else "second") ≠ c.idText
  have hid : c.idText = "A" ∨ c.idText = "B" := by
    rcases List.mem_pair.mp hc with rfl | rfl
    · exact .inl rfl
    · exact .inr rfl
  rcases hid with hid | hid <;> rw [hid] <;> split <;> decide

/-- **Two undersized cells merge twice**: `A` with `B`, then `B` with `A`, which moves nobody, is counted,
    and leaves a cell without a node. -/
theorem merged_twice :
    Agrees (tableOf ["a1", "a2"] ["b1", "b2"]) (callOn ["a1", "a2"] ["b1", "b2"]).allCells ∧
    ∃ p, (callOn ["a1", "a2"] ["b1", "b2"]).checkAndRebalance
        (tableOf ["a1", "a2"] ["b1", "b2"]) = .ok p ∧
      p.operations = [⟨["A", "B"], ["first"], 4⟩, ⟨["B", "A"], ["second"], 0⟩] ∧
      p.operationsCount = 2 ∧ p.routing.zone "second" = some ("z", 10) ∧
      p.routing.getCellNodes "second" = [] ∧
      ¬RebalancesWell (tableOf ["a1", "a2"] ["b1", "b2"]) p := by
  refine ⟨by unfold Agrees; decide, _, rfl, by decide, by decide, by decide, by decide, ?_⟩
  intro h
  have hc := h.counted
  revert hc
  decide

/-- A call that meets the condition: `A` merges with `B`, which is large enough. -/
theorem checkAndRebalance_iff_merge :
    (callOn ["a1", "a2"] ["b1", "b2", "b3"]).Rebalanceable
      (tableOf ["a1", "a2"] ["b1", "b2", "b3"]) ∧
    ∃ p, (callOn ["a1", "a2"] ["b1", "b2", "b3"]).checkAndRebalance
        (tableOf ["a1", "a2"] ["b1", "b2", "b3"]) = .ok p ∧
      RebalancesWell (tableOf ["a1", "a2"] ["b1", "b2", "b3"]) p := by
  have hr : (callOn ["a1", "a2"] ["b1", "b2", "b3"]).Rebalanceable
      (tableOf ["a1", "a2"] ["b1", "b2", "b3"]) :=
    ⟨by decide, by decide, by decide, by decide, by decide⟩
  obtain ⟨p, hok, hiff⟩ := checkAndRebalance_iff (callOn ["a1", "a2"] ["b1", "b2", "b3"])
    (tableOf ["a1", "a2"] ["b1", "b2", "b3"]) (by unfold Agrees; decide) (callOn_fresh _ _)
  exact ⟨hr, p, hok, hiff.mpr hr⟩

end RebalancingCall

end Peat.Hierarchy
