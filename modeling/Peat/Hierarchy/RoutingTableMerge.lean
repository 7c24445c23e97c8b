/-
  IS `RoutingTable::merge` A JOIN on what the getters show?

  `merge` is associative and idempotent, but keeps the own entry when the other one
  carries the SAME timestamp.
-/
import Peat.Hierarchy.RoutingTable
import Peat.Lib.JoinOn

namespace Peat.Hierarchy

open Peat.Lib

namespace RoutingTable

/-- The three lookups give the same. -/
def SameMappings (a b : RoutingTable) : Prop :=
  (∀ n, a.getNodeCell n = b.getNodeCell n) ∧ (∀ c, a.getCellZone c = b.getCellZone c) ∧
    ∀ c, a.getCellLeader c = b.getCellLeader c

/-- Entries of one timestamp have one value. -/
def NoTie (a b : RoutingTable) : Prop :=
  ∀ sl k v w ts, a.entry sl k = some (v, ts) → b.entry sl k = some (w, ts) → v = w

variable (a : RoutingTable)

theorem sameMappings_iff (b : RoutingTable) :
    SameMappings a b ↔ ∀ sl k, a.get sl k = b.get sl k := by
  constructor
  · rintro ⟨hn, hz, hl⟩ sl k
    cases sl
    · exact hn k
    · exact hz k
    · exact hl k
  · intro h
    exact ⟨h .node, h .cell, h .leader⟩

theorem sameMappings_of_entry {a b : RoutingTable} (h : ∀ sl k, a.entry sl k = b.entry sl k) :
    SameMappings a b := by
  refine (sameMappings_iff a b).mpr fun sl k => ?_
  rw [get_eq, get_eq, h]

theorem entryStamp_eq_imp_iff {x y : Option (String × Nat)} :
    (entryStamp Prod.snd x = entryStamp Prod.snd y → x.map Prod.fst = y.map Prod.fst) ↔
      ∀ v w ts, x = some (v, ts) → y = some (w, ts) → v = w := by
  constructor
  · rintro h v w ts rfl rfl
    exact Option.some.inj (h rfl)
  · intro h e
    rcases x with _ | ⟨v, ts⟩ <;> rcases y with _ | ⟨w, us⟩
    · rfl
    · cases e
    · cases e
    · have hts : ts = us := WithBot.coe_inj.mp e
      subst hts
      rw [Option.map_some, Option.map_some, h v w ts rfl rfl]

theorem merge_get_comm_iff (b : RoutingTable) (sl : Slot) (k : String) :
    (a.merge b).get sl k = (b.merge a).get sl k ↔
      ∀ v w ts, a.entry sl k = some (v, ts) → b.entry sl k = some (w, ts) → v = w := by
  rw [get_eq, get_eq, entry_merge, entry_merge, ← entryStamp_eq_imp_iff]
  exact newest_comm_iff (Option.map Prod.fst)

theorem merge_comm_iff (b : RoutingTable) : SameMappings (a.merge b) (b.merge a) ↔ NoTie a b := by
  simp only [sameMappings_iff, merge_get_comm_iff]
  rfl

def entries (t : RoutingTable) : Slot → String → Option (String × Nat) := t.entry

theorem entries_merge (b : RoutingTable) :
    (a.merge b).entries = fun sl k => newestEntry (a.entries sl k) (b.entries sl k) := by
  funext sl k
  exact entry_merge a b sl k

theorem entries_comm_of_same {a b : RoutingTable} (h : SameMappings (a.merge b) (b.merge a)) :
    (a.merge b).entries = (b.merge a).entries := by
  have hno := (merge_comm_iff a b).mp h
  rw [entries_merge, entries_merge]
  funext sl k
  refine (newest_comm_iff id).mpr fun hts => ?_
  show a.entry sl k = b.entry sl k
  have hts' : entryStamp Prod.snd (a.entry sl k) = entryStamp Prod.snd (b.entry sl k) := hts
  rcases ha : a.entry sl k with _ | ⟨v, ts⟩ <;> rcases hb : b.entry sl k with _ | ⟨w, us⟩ <;>
    rw [ha, hb] at hts'
  · cases hts'
  · cases hts'
  · have e : ts = us := WithBot.coe_inj.mp hts'
    subst e
    rw [hno sl k v w ts ha hb]

/-- **`merge` is a join on a collection of tables if and only if no two of them tie.** -/
theorem mergeIsJoin_iff (S : List RoutingTable) :
    IsJoinOn merge SameMappings S ↔ ∀ a ∈ S, ∀ b ∈ S, NoTie a b := by
  rw [isJoinOn_iff entries (fun x y sl k => newestEntry (x sl k) (y sl k)) entries_merge]
  · simp only [merge_comm_iff]
  · intro x y z
    funext sl k
    exact newest_assoc
  · intro x
    funext sl k
    exact newest_self
  · intro a b h
    exact sameMappings_of_entry fun sl k => congrFun (congrFun h sl) k
  · intro a b
    exact entries_comm_of_same

/-- Two tables, one assignment each, of one node to two cells at one timestamp: each keeps its own
    cell after merging the other. -/
theorem merge_tie_diverges :
    let a := (new.assignNode "node1" "cell_alpha" 100).1
    let b := (new.assignNode "node1" "cell_beta" 100).1
    Reachable a ∧ Reachable b ∧ (a.merge b).getNodeCell "node1" = some "cell_alpha" ∧
      (b.merge a).getNodeCell "node1" = some "cell_beta" ∧ ¬ IsJoinOn merge SameMappings [a, b] := by
  intro a b
  have ha : (a.merge b).getNodeCell "node1" = some "cell_alpha" := by decide
  have hb : (b.merge a).getNodeCell "node1" = some "cell_beta" := by decide
  refine ⟨⟨[.assignNode "node1" "cell_alpha" 100], rfl⟩,
    ⟨[.assignNode "node1" "cell_beta" 100], rfl⟩, ha, hb, fun h => ?_⟩
  have hc := (h.comm a (by simp) b (by simp)).1 "node1"
  rw [ha, hb] at hc
  exact absurd hc (by decide)

end RoutingTable

end Peat.Hierarchy
