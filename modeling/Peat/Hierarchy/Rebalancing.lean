/-
  ONE PASS OF `check_and_rebalance` (maintenance.rs): the loop over the store's valid
  cells that merges undersized and splits oversized cells in the routing table.

  Every decision is read off the SNAPSHOT of the cells, while each operation changes the
  routing table. `Pass` is what the loop carries, with a journal of the operations.
-/
import Peat.Hierarchy.Maintenance
import Peat.Hierarchy.RoutingTableCells

namespace Peat.Hierarchy

open Peat.Lib Peat.Models

/-! ## 1. The loop -/

structure RebalancingCall where
  maintainer : HierarchyMaintainer
  allCells : List CellState
  timestamp : Nat
  now : Nat
  uuid : Nat → String

structure Operation where
  sources : List String
  created : List String
  moved : Nat
  deriving DecidableEq, Repr

/-- What the loop over the cells carries. -/
structure Pass where
  routing : RoutingTable
  operationsCount : Nat
  drawn : Nat
  operations : List Operation

namespace RebalancingCall

/-- One round of the loop. The ids that `CellConfig::new` draws are overwritten at once and left
    out. -/
def rebalanceCell (x : RebalancingCall) (p : Pass) (cell : CellState) : Except String Pass :=
  match x.maintainer.needsRebalance cell with
  | .merge =>
    match x.maintainer.findMergeCandidate cell x.allCells with
    | some targetId =>
      let mergedId := x.uuid p.drawn
      let sources := [cell.idText, targetId]
      let r := p.routing.mergeCells sources mergedId cell.cohortId x.timestamp
      .ok ⟨r.1, p.operationsCount + 1, p.drawn + 1, p.operations ++ [⟨sources, [mergedId], r.2⟩]⟩
    | none => .ok p
  | .split =>
    match x.maintainer.splitCell cell (x.uuid p.drawn) (x.uuid (p.drawn + 1)) x.now with
    | .error e => .error e
    | .ok (a, b) =>
      let r := p.routing.splitCell cell.idText a.idText b.idText a.members b.members cell.cohortId
        x.timestamp
      .ok ⟨r.1, p.operationsCount + 1, p.drawn + 2,
        p.operations ++ [⟨[cell.idText], [a.idText, b.idText], r.2.1 + r.2.2⟩]⟩
  | .none => .ok p

def checkAndRebalance (x : RebalancingCall) (routing : RoutingTable) : Except String Pass :=
  x.allCells.foldlM x.rebalanceCell ⟨routing, 0, 0, []⟩

/-! ## 2. What the operation of one cell is about -/

section Plan

variable (x : RebalancingCall)

def partner (c : CellState) : Option CellState :=
  if c.members.length < x.maintainer.minCellSize then x.maintainer.preferred c x.allCells else none

def Operating (c : CellState) : Prop :=
  x.maintainer.maxCellSize < c.members.length ∨ (x.partner c).isSome

instance (c : CellState) : Decidable (x.Operating c) := inferInstanceAs (Decidable (_ ∨ _))

def sourcesOf (c : CellState) : List String :=
  (if x.Operating c then [c.idText] else []) ++ ((x.partner c).map (·.idText)).toList

def touched (t : RoutingTable) (c : CellState) : List String :=
  if x.maintainer.maxCellSize < c.members.length then
    x.maintainer.nodesForA c ++ x.maintainer.nodesForB c
  else (x.sourcesOf c).flatMap t.getCellNodes

variable {x}

variable {c : CellState} {t : RoutingTable}

variable {d : CellState}

theorem partner_spec (h : x.partner c = some d) :
    c.members.length < x.maintainer.minCellSize ∧ d ∈ x.allCells ∧ x.maintainer.Fits c d := by
  unfold partner at h
  by_cases hlt : c.members.length < x.maintainer.minCellSize
  · rw [if_pos hlt] at h
    exact ⟨hlt, HierarchyMaintainer.preferred_spec h⟩
  · rw [if_neg hlt] at h
    cases h

theorem partner_of_oversized (h : x.maintainer.maxCellSize < c.members.length) :
    x.partner c = none := by
  have := x.maintainer.minCellSize_lt
  unfold partner
  rw [if_neg (by omega)]

theorem sourcesOf_merge (h : x.partner c = some d) : x.sourcesOf c = [c.idText, d.idText] := by
  have hop : x.Operating c := .inr (by rw [h]; rfl)
  unfold sourcesOf
  rw [if_pos hop, h]
  rfl

theorem sourcesOf_split (h : x.maintainer.maxCellSize < c.members.length) :
    x.sourcesOf c = [c.idText] := by
  unfold sourcesOf
  rw [if_pos (.inl h), partner_of_oversized h]
  rfl

theorem sourcesOf_idle (h : ¬x.Operating c) : x.sourcesOf c = [] := by
  have hnone : x.partner c = none := Option.not_isSome_iff_eq_none.mp fun hs => h (.inr hs)
  unfold sourcesOf
  rw [if_neg h, hnone]
  rfl

theorem sourcesOf_subset (hc : c ∈ x.allCells) {s : String} (hs : s ∈ x.sourcesOf c) :
    ∃ d ∈ x.allCells, d.idText = s := by
  unfold sourcesOf at hs
  rcases List.mem_append.mp hs with h | h
  · split at h
    · exact ⟨c, hc, (List.mem_singleton.mp h).symm⟩
    · cases h
  · obtain ⟨d, hd, rfl⟩ := Option.map_eq_some_iff.mp (Option.mem_toList.mp h)
    exact ⟨d, (partner_spec hd).2.1, rfl⟩

theorem touched_split (h : x.maintainer.maxCellSize < c.members.length) :
    x.touched t c = x.maintainer.nodesForA c ++ x.maintainer.nodesForB c := if_pos h

theorem mem_touched_merge (h : ¬x.maintainer.maxCellSize < c.members.length) {n : String} :
    n ∈ x.touched t c ↔ ∃ e ∈ t.node n, e.1 ∈ x.sourcesOf c := by
  unfold touched
  rw [if_neg h, List.mem_flatMap]
  constructor
  · rintro ⟨s, hs, hn⟩
    obtain ⟨ts, hn⟩ := RoutingTable.mem_getCellNodes.mp hn
    exact ⟨(s, ts), hn, hs⟩
  · rintro ⟨⟨s, ts⟩, hn, hs⟩
    exact ⟨s, hs, RoutingTable.mem_getCellNodes.mpr ⟨ts, hn⟩⟩

theorem mem_touched_congr {t' : RoutingTable} {n : String} (h : t.node n = t'.node n) :
    n ∈ x.touched t c ↔ n ∈ x.touched t' c := by
  by_cases hs : x.maintainer.maxCellSize < c.members.length
  · rw [touched_split hs, touched_split hs]
  · rw [mem_touched_merge hs, mem_touched_merge hs, h]

/-! ## 3. One round of the loop -/

/-- **What a round that operates does**: the tried nodes that accept are in its new cells, every other node
    is where it was, and only its new cells are mapped to a zone. -/
structure Performs (x : RebalancingCall) (p : Pass) (c : CellState) (op : Operation)
    (p' : Pass) : Prop where
  operations : p'.operations = p.operations ++ [op]
  count : p'.operationsCount = p.operationsCount + 1
  sources : op.sources = x.sourcesOf c
  created : ∀ id ∈ op.created, ∃ k, id = x.uuid k
  moves : ∀ n ∈ x.touched p.routing c, p.routing.Accepts x.timestamp n = true →
    ∃ id ∈ op.created, p'.routing.node n = some (id, x.timestamp)
  keeps : ∀ n, ¬(n ∈ x.touched p.routing c ∧ p.routing.Accepts x.timestamp n = true) →
    p'.routing.node n = p.routing.node n
  zones : ∀ k e, p'.routing.zone k = some e → p.routing.zone k = some e ∨ k ∈ op.created
  fills : x.touched p.routing c ≠ [] →
    (∀ n ∈ x.touched p.routing c, p.routing.Accepts x.timestamp n = true) →
    0 < op.moved ∧ ∀ id ∈ op.created, ∃ n, p'.routing.node n = some (id, x.timestamp)

theorem performs_merge (hd : x.partner c = some d) (p : Pass) :
    let r := p.routing.mergeCells [c.idText, d.idText] (x.uuid p.drawn) c.cohortId x.timestamp
    x.Performs p c ⟨[c.idText, d.idText], [x.uuid p.drawn], r.2⟩
      ⟨r.1, p.operationsCount + 1, p.drawn + 1,
        p.operations ++ [⟨[c.idText, d.idText], [x.uuid p.drawn], r.2⟩]⟩ := by
  have hsize : ¬x.maintainer.maxCellSize < c.members.length := fun h => by
    rw [partner_of_oversized h] at hd
    cases hd
  have hmem : ∀ n, n ∈ x.touched p.routing c ↔
      ∃ e ∈ p.routing.node n, e.1 ∈ [c.idText, d.idText] := fun n => by
    rw [mem_touched_merge hsize, sourcesOf_merge hd]
  have hmoves : ∀ n ∈ x.touched p.routing c, p.routing.Accepts x.timestamp n = true →
      (p.routing.mergeCells [c.idText, d.idText] (x.uuid p.drawn) c.cohortId
        x.timestamp).1.node n = some (x.uuid p.drawn, x.timestamp) := fun n hn ha => by
    rw [RoutingTable.node_mergeCells, if_pos ⟨(hmem n).mp hn, ha⟩]
  refine
    { operations := rfl
      count := rfl
      sources := (sourcesOf_merge hd).symm
      created := fun id hid => ⟨p.drawn, List.mem_singleton.mp hid⟩
      moves := fun n hn ha => ⟨x.uuid p.drawn, List.mem_singleton.mpr rfl, hmoves n hn ha⟩
      keeps := fun n hno => ?_
      zones := fun k e h => RoutingTable.zone_mergeCells h
      fills := fun hne hall => ?_ }
  · rw [hmem] at hno
    exact (RoutingTable.node_mergeCells _ _ _ _ _ _).trans (if_neg hno)
  · obtain ⟨n, hn⟩ := List.exists_mem_of_ne_nil _ hne
    refine ⟨?_, fun id hid => ⟨n, ?_⟩⟩
    · refine RoutingTable.assignNodes_pos _ ?_ _ (hall n hn)
      unfold touched at hn
      rwa [if_neg hsize, sourcesOf_merge hd] at hn
    · rw [List.mem_singleton.mp hid]
      exact hmoves n hn (hall n hn)

theorem performs_split (hsize : x.maintainer.maxCellSize < c.members.length)
    (hn : c.members.Nodup) (p : Pass) (idA idB : String) (hA : ∃ k, idA = x.uuid k)
    (hB : ∃ k, idB = x.uuid k) :
    let r := p.routing.splitCell c.idText idA idB (x.maintainer.nodesForA c)
      (x.maintainer.nodesForB c) c.cohortId x.timestamp
    x.Performs p c ⟨[c.idText], [idA, idB], r.2.1 + r.2.2⟩
      ⟨r.1, p.operationsCount + 1, p.drawn + 2,
        p.operations ++ [⟨[c.idText], [idA, idB], r.2.1 + r.2.2⟩]⟩ := by
  have hnode := fun n => p.routing.node_splitCell c.idText idA idB
    (x.maintainer.disjoint_nodesFor hn) c.cohortId x.timestamp n
  have htouched : x.touched p.routing c =
    x.maintainer.nodesForA c ++ x.maintainer.nodesForB c := touched_split hsize
  have hmovesA : ∀ n ∈ x.maintainer.nodesForA c, p.routing.Accepts x.timestamp n = true →
      (p.routing.splitCell c.idText idA idB (x.maintainer.nodesForA c)
        (x.maintainer.nodesForB c) c.cohortId x.timestamp).1.node n = some (idA, x.timestamp) :=
    fun n hmem ha => by rw [hnode, if_pos ⟨hmem, ha⟩]
  have hmovesB : ∀ n ∈ x.maintainer.nodesForB c, p.routing.Accepts x.timestamp n = true →
      (p.routing.splitCell c.idText idA idB (x.maintainer.nodesForA c)
        (x.maintainer.nodesForB c) c.cohortId x.timestamp).1.node n = some (idB, x.timestamp) :=
    fun n hmem ha => by
      rw [hnode, if_neg fun h => x.maintainer.disjoint_nodesFor hn h.1 hmem, if_pos ⟨hmem, ha⟩]
  refine
    { operations := rfl
      count := rfl
      sources := (sourcesOf_split hsize).symm
      created := fun id hid => ?_
      moves := fun n hmem ha => ?_
      keeps := fun n hno => ?_
      zones := fun k e h => RoutingTable.zone_splitCell h
      fills := fun hne hall => ?_ }
  · rcases List.mem_pair.mp hid with rfl | rfl
    · exact hA
    · exact hB
  · rw [htouched] at hmem
    rcases List.mem_append.mp hmem with h | h
    · exact ⟨idA, List.mem_pair.mpr (.inl rfl), hmovesA n h ha⟩
    · exact ⟨idB, List.mem_pair.mpr (.inr rfl), hmovesB n h ha⟩
  · rw [htouched] at hno
    refine (hnode n).trans ?_
    rw [if_neg fun h => hno ⟨List.mem_append_left _ h.1, h.2⟩,
      if_neg fun h => hno ⟨List.mem_append_right _ h.1, h.2⟩]
  · rw [htouched] at hne hall
    obtain ⟨⟨a, ha⟩, b, hb⟩ := HierarchyMaintainer.exists_mem_nodesFor hsize hne
    have hacceptsA := hall a (List.mem_append_left _ ha)
    refine ⟨Nat.add_pos_left (RoutingTable.assignNodes_pos _ ha _ hacceptsA) _, fun id hid => ?_⟩
    rcases List.mem_pair.mp hid with rfl | rfl
    · exact ⟨a, hmovesA a ha hacceptsA⟩
    · exact ⟨b, hmovesB b hb (hall b (List.mem_append_right _ hb))⟩

theorem rebalanceCell_spec (hn : c.members.Nodup) (p : Pass) :
    ∃ p', x.rebalanceCell p c = .ok p' ∧
      ((¬x.Operating c ∧ p' = p) ∨ (x.Operating c ∧ ∃ op, x.Performs p c op p')) := by
  have hmin := x.maintainer.minCellSize_lt
  have hpos := x.maintainer.minCellSize_pos
  unfold rebalanceCell HierarchyMaintainer.needsRebalance
  by_cases hlt : c.members.length < x.maintainer.minCellSize
  · have hpartner : x.partner c = x.maintainer.preferred c x.allCells := if_pos hlt
    rw [if_pos hlt, HierarchyMaintainer.findMergeCandidate_eq, ← hpartner]
    cases hd : x.partner c with
    | none =>
      refine ⟨p, rfl, .inl ⟨?_, rfl⟩⟩
      rintro (h | h)
      · omega
      · rw [hd] at h
        cases h
    | some d =>
      have hop : x.Operating c := .inr (by rw [hd]; rfl)
      exact ⟨_, rfl, .inr ⟨hop, _, performs_merge hd p⟩⟩
  · rw [if_neg hlt]
    by_cases hsize : x.maintainer.maxCellSize < c.members.length
    · rw [if_pos hsize]
      obtain ⟨a, b, hok, hidA, hidB, hA, hB⟩ := x.maintainer.splitCell_ok hn
        (by omega : 2 ≤ c.members.length) (x.uuid p.drawn) (x.uuid (p.drawn + 1)) x.now
      rw [hok]
      dsimp only
      rw [hidA, hidB, hA, hB]
      exact ⟨_, rfl, .inr ⟨.inl hsize, _, performs_split hsize hn p _ _ ⟨_, rfl⟩ ⟨_, rfl⟩⟩⟩
    · rw [if_neg hsize]
      refine ⟨p, rfl, .inl ⟨?_, rfl⟩⟩
      rintro (h | h)
      · exact hsize h
      · rw [show x.partner c = none from if_neg hlt] at h
        cases h

end Plan

/-! ## 4. The whole pass, node by node -/

/-- The table and the cells name the same members. -/
def Agrees (routing : RoutingTable) (cells : List CellState) : Prop :=
  ∀ c ∈ cells, c.members.Perm (routing.getCellNodes c.idText)

section Run

variable {x : RebalancingCall} {routing : RoutingTable}

variable {c : CellState} {pre : List CellState}

variable {cells : List CellState}

theorem Agrees.nodup (h : Agrees routing cells) (hc : c ∈ cells) : c.members.Nodup :=
  (h c hc).nodup_iff.mpr (routing.nodup_getCellNodes c.idText)

theorem Agrees.length_eq (h : Agrees routing cells) {d : CellState} (hc : c ∈ cells)
    (hd : d ∈ cells) (hid : c.idText = d.idText) : c.members.length = d.members.length :=
  (hid ▸ h c hc).length_eq.trans (h d hd).length_eq.symm

def Moved (x : RebalancingCall) (routing : RoutingTable) (cells : List CellState)
    (n : String) : Prop :=
  (∃ c ∈ cells, n ∈ x.touched routing c) ∧ routing.Accepts x.timestamp n = true

/-- **The pass behind the loop**, after the rounds of the cells `pre`. -/
structure Inv (x : RebalancingCall) (routing : RoutingTable) (pre : List CellState)
    (p : Pass) : Prop where
  sources : p.operations.flatMap (·.sources) = pre.flatMap x.sourcesOf
  count : p.operationsCount = p.operations.length
  created : ∀ op ∈ p.operations, ∀ id ∈ op.created, ∃ k, id = x.uuid k
  moved : ∀ n, x.Moved routing pre n →
    ∃ op ∈ p.operations, ∃ id ∈ op.created, p.routing.node n = some (id, x.timestamp)
  kept : ∀ n, ¬x.Moved routing pre n → p.routing.node n = routing.node n
  zones : ∀ k e, p.routing.zone k = some e →
    routing.zone k = some e ∨ ∃ op ∈ p.operations, k ∈ op.created

theorem inv_start : x.Inv routing [] ⟨routing, 0, 0, []⟩ where
  sources := rfl
  count := rfl
  created := fun _ h => (nomatch h)
  moved := fun _ h => by
    obtain ⟨⟨c, hc, _⟩, _⟩ := h
    cases hc
  kept := fun _ _ => rfl
  zones := fun _ _ h => .inl h

theorem moved_concat {n : String} :
    x.Moved routing (pre ++ [c]) n ↔ x.Moved routing pre n ∨
      (n ∈ x.touched routing c ∧ routing.Accepts x.timestamp n = true) := by
  unfold Moved
  simp only [List.mem_append, List.mem_singleton, or_and_right, exists_or, exists_eq_left]

theorem not_accepts_of_moved {t : RoutingTable} {n id : String} {timestamp : Nat}
    (h : t.node n = some (id, timestamp)) : ¬t.Accepts timestamp n = true := fun ha =>
  Nat.lt_irrefl _ ((RoutingTable.accepts_some h).mp ha)

theorem Inv.idle {p : Pass} (h : x.Inv routing pre p) (hno : ¬x.Operating c) :
    x.Inv routing (pre ++ [c]) p := by
  have hsources : x.sourcesOf c = [] := sourcesOf_idle hno
  have htouched : ∀ n, n ∉ x.touched routing c := fun n hn => by
    rw [mem_touched_merge fun hs => hno (.inl hs), hsources] at hn
    obtain ⟨_, _, hmem⟩ := hn
    cases hmem
  have hmoved : ∀ n, x.Moved routing (pre ++ [c]) n ↔ x.Moved routing pre n := fun n => by
    rw [moved_concat]
    exact ⟨fun h => h.resolve_right fun h => htouched n h.1, Or.inl⟩
  refine
    { h with
      sources := ?_
      moved := fun n hn => h.moved n ((hmoved n).mp hn)
      kept := fun n hn => h.kept n fun hm => hn ((hmoved n).mpr hm) }
  rw [List.flatMap_append, List.flatMap_singleton, hsources, List.append_nil]
  exact h.sources

theorem Inv.operate {p p' : Pass} {op : Operation} (h : x.Inv routing pre p)
    (hop : x.Performs p c op p') : x.Inv routing (pre ++ [c]) p' := by
  have hold : ∀ op' ∈ p.operations, op' ∈ p'.operations := fun op' hmem => by
    rw [hop.operations]
    exact List.mem_append_left _ hmem
  have hnew : op ∈ p'.operations := by
    rw [hop.operations]
    exact List.mem_append_right _ (List.mem_singleton.mpr rfl)
  -- an untouched node looks to this round as it looked to the call
  have hsame : ∀ n, ¬x.Moved routing pre n →
      ((n ∈ x.touched p.routing c ∧ p.routing.Accepts x.timestamp n = true) ↔
        n ∈ x.touched routing c ∧ routing.Accepts x.timestamp n = true) := fun n hn => by
    have hnode := h.kept n hn
    unfold RoutingTable.Accepts
    rw [mem_touched_congr hnode, hnode]
  refine
    { sources := ?_
      count := ?_
      created := ?_
      moved := fun n hn => ?_
      kept := fun n hn => ?_
      zones := fun k e hk => ?_ }
  · rw [hop.operations, List.flatMap_append, List.flatMap_singleton, h.sources, hop.sources,
      List.flatMap_append, List.flatMap_singleton]
  · rw [hop.count, hop.operations, List.length_append, h.count]
    rfl
  · intro op' hmem
    rw [hop.operations] at hmem
    rcases List.mem_append.mp hmem with hmem | hmem
    · exact h.created op' hmem
    · rw [List.mem_singleton.mp hmem]
      exact hop.created
  · by_cases hm : x.Moved routing pre n
    · obtain ⟨op', hop', id, hid, hnode⟩ := h.moved n hm
      refine ⟨op', hold op' hop', id, hid, ?_⟩
      rw [hop.keeps n fun ha => not_accepts_of_moved hnode ha.2, hnode]
    · have ht := (moved_concat.mp hn).resolve_left hm
      obtain ⟨ht', ha'⟩ := (hsame n hm).mpr ht
      obtain ⟨id, hid, hnode⟩ := hop.moves n ht' ha'
      exact ⟨op, hnew, id, hid, hnode⟩
  · have hm : ¬x.Moved routing pre n := fun hm => hn (moved_concat.mpr (.inl hm))
    have ht := fun ht => hn (moved_concat.mpr (.inr ht))
    rw [hop.keeps n fun h' => ht ((hsame n hm).mp h'), h.kept n hm]
  · rcases hop.zones k e hk with hk | hk
    · rcases h.zones k e hk with hk | hk
      · exact .inl hk
      · obtain ⟨op', hop', hid⟩ := hk
        exact .inr ⟨op', hold op' hop', hid⟩
    · exact .inr ⟨op, hnew, hk⟩

end Run

end RebalancingCall

end Peat.Hierarchy
