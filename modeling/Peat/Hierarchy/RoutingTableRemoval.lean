/-
  DO REMOVALS TAKE PART IN LAST-WRITER-WINS? What an accepted `remove_node`,
  `remove_cell` or `remove_cell_leader` at time `ts` keeps out of the later run.

  A removal erases the entry and with it the only timestamp of the key, so the next
  assignment or merge of the key is accepted.
-/
import Peat.Hierarchy.RoutingTable

namespace Peat.Hierarchy

open Peat.Lib

namespace RoutingTable

/-- The operation offers the key an entry no newer than `ts`: an assignment with such a timestamp,
    or a merge with a table whose entry has one. -/
def Stale (sl : Slot) (k : String) (ts : Nat) (op : TableOp) : Prop :=
  ∃ e ∈ op.offer sl k, e.2 ≤ ts

/-- **The promise at one step**: a stale write does not map an unmapped key again. -/
def StaysUnmapped (sl : Slot) (k : String) (ts : Nat) (s : RoutingTable) (op : TableOp) : Prop :=
  Stale sl k ts op → s.get sl k = none → (s.step op).get sl k = none

/-- A stale write finds the key mapped. -/
def FindsMapped (sl : Slot) (k : String) (ts : Nat) (s : RoutingTable) (op : TableOp) : Prop :=
  Stale sl k ts op → s.get sl k ≠ none

/-- The entry of the key, if any, is newer. -/
def NewerOnly (sl : Slot) (k : String) (ts : Nat) (s : RoutingTable) : Prop :=
  ∀ e ∈ s.entry sl k, ts < e.2

instance (sl : Slot) (k : String) (ts : Nat) (op : TableOp) : Decidable (Stale sl k ts op) :=
  inferInstanceAs (Decidable (∃ e ∈ op.offer sl k, e.2 ≤ ts))

instance (sl : Slot) (k : String) (ts : Nat) (s : RoutingTable) (op : TableOp) :
    Decidable (StaysUnmapped sl k ts s op) :=
  inferInstanceAs (Decidable (Stale sl k ts op → s.get sl k = none → (s.step op).get sl k = none))

instance (sl : Slot) (k : String) (ts : Nat) (s : RoutingTable) (op : TableOp) :
    Decidable (FindsMapped sl k ts s op) :=
  inferInstanceAs (Decidable (Stale sl k ts op → s.get sl k ≠ none))

/-! ## 1. One step -/

variable {op : TableOp} {sl : Slot} {k : String} {e : String × Nat} {s : RoutingTable}

theorem removal_of_offer (h : op.offer sl k = some e) : op.removal sl k = none := by
  cases op <;> cases sl <;> first | rfl | cases h

theorem entry_step_offer (h : op.offer sl k = some e) (s : RoutingTable) :
    (s.step op).entry sl k = newestEntry (s.entry sl k) (some e) := by
  rw [entry_step, removal_of_offer h, h]

theorem entry_step_unmapped (h : op.offer sl k = some e) (hs : s.entry sl k = none) :
    (s.step op).entry sl k = some e := by
  rw [entry_step_offer h, hs]
  exact newest_none_left _ _

theorem staysUnmapped_iff (sl : Slot) (k : String) (ts : Nat) (s : RoutingTable) (op : TableOp) :
    StaysUnmapped sl k ts s op ↔ FindsMapped sl k ts s op := by
  constructor
  · intro h hst hnone
    have hstep := h hst hnone
    obtain ⟨e, he, _⟩ := hst
    rw [get_eq_none, entry_step_unmapped he ((get_eq_none s sl k).mp hnone)] at hstep
    cases hstep
  · intro h hst hnone
    exact absurd hnone (h hst)

theorem newerOnly_step {ts : Nat} (hf : FindsMapped sl k ts s op) (hs : NewerOnly sl k ts s) :
    NewerOnly sl k ts (s.step op) := by
  intro e he
  cases hr : op.removal sl k with
  | some u =>
    rw [entry_step, hr] at he
    exact hs e (Option.filter_eq_some_iff.mp he).1
  | none =>
    cases ho : op.offer sl k with
    | none =>
      rw [entry_step, hr, ho] at he
      exact hs e ((newest_none_right _ _).symm.trans he)
    | some w =>
      rw [entry_step_offer ho] at he
      rcases newest_choice (entryStamp Prod.snd) (s.entry sl k) (some w) with hc | hc
      · exact hs e (hc.symm.trans he)
      · have hew : w = e := Option.some.inj (hc.symm.trans he)
        subst hew
        by_cases hst : w.2 ≤ ts
        · -- a stale write: the key holds an entry above `ts`, so the write cannot have won
          have hne : s.entry sl k ≠ none := fun h0 =>
            hf ⟨w, ho, hst⟩ ((get_eq_none s sl k).mpr h0)
          obtain ⟨x, hx⟩ := Option.ne_none_iff_exists'.mp hne
          have hxt := hs x hx
          rw [hx, newest_some_some, if_neg (by omega)] at hc
          rw [← Option.some.inj hc]
          exact hxt
        · omega

/-! ## 2. Every later run -/

theorem findsMapped_of_newerOnly {ts : Nat} (h : NewerOnly sl k ts (s.step op)) :
    FindsMapped sl k ts s op := by
  rintro ⟨e, he, hle⟩ hnone
  have hlt := h e (entry_step_unmapped he ((get_eq_none s sl k).mp hnone))
  omega

theorem newerOnly_removed {t : RoutingTable} {ts : Nat} (hacc : (t.remove sl k ts).2 = true) :
    NewerOnly sl k ts (t.remove sl k ts).1 := by
  intro e he
  rw [entry_remove_accepted hacc] at he
  cases he

/-- **After an accepted removal at `ts`**: no stale write maps the key again if and only if every stale
    write finds the key mapped. -/
theorem removal_remembered_iff (t : RoutingTable) (sl : Slot) (k : String) (ts : Nat)
    (hacc : (t.remove sl k ts).2 = true) (ops : List TableOp) :
    (RunMeets step (StaysUnmapped sl k ts) (t.remove sl k ts).1 ops ↔
      RunMeets step (FindsMapped sl k ts) (t.remove sl k ts).1 ops) ∧
    (RunMeets step (FindsMapped sl k ts) (t.remove sl k ts).1 ops ↔
      ∀ pre, pre <+: ops → NewerOnly sl k ts (run step (t.remove sl k ts).1 pre)) := by
  have hstep : ∀ s op, NewerOnly sl k ts s →
      (NewerOnly sl k ts (step s op) ↔ FindsMapped sl k ts s op) :=
    fun s op hs => ⟨findsMapped_of_newerOnly, fun hf => newerOnly_step hf hs⟩
  refine ⟨runMeets_congr fun s op => staysUnmapped_iff sl k ts s op, ?_⟩
  exact (run_within_iff (NewerOnly sl k ts) hstep (newerOnly_removed hacc)).symm

/-- A node assigned at 100 and removed at 200: a write at 300 keeps a later write at 150 out. -/
theorem removal_remembered_reassigned :
    let t := (new.assignNode "node1" "cell_alpha" 100).1
    let ops : List TableOp :=
      [.assignNode "node1" "cell_beta" 300, .assignNode "node1" "cell_alpha" 150]
    (t.remove .node "node1" 200).2 = true ∧
      RunMeets step (StaysUnmapped .node "node1" 200) (t.remove .node "node1" 200).1 ops := by
  intro t ops
  have hacc : (t.remove .node "node1" 200).2 = true := by decide
  exact ⟨hacc, (removal_remembered_iff t .node "node1" 200 hacc ops).1.mpr (by decide)⟩

/-- A node assigned at 100 and removed at 200 is mapped again by an assignment at 150, and by a merge with
    the entry of 100; likewise a cell and a leader. -/
theorem removal_forgotten :
    let t := (((new.assignNode "node1" "cell_alpha" 100).1.assignCell "cell_alpha" "zone_north"
      100).1.setCellLeader "cell_alpha" "node1" 100).1
    let n := t.removeNode "node1" 200
    let c := t.removeCell "cell_alpha" 200
    let l := t.removeCellLeader "cell_alpha" 200
    Reachable t ∧ n.2 = true ∧ c.2 = true ∧ l.2 = true ∧
      (n.1.assignNode "node1" "cell_beta" 150).1.getNodeCell "node1" = some "cell_beta" ∧
      (n.1.merge t).getNodeCell "node1" = some "cell_alpha" ∧
      (c.1.merge t).getCellZone "cell_alpha" = some "zone_north" ∧
      (l.1.merge t).getCellLeader "cell_alpha" = some "node1" ∧
      ¬ RunMeets step (StaysUnmapped .node "node1" 200) n.1
        [.assignNode "node1" "cell_beta" 150] := by
  refine ⟨⟨[.assignNode "node1" "cell_alpha" 100, .assignCell "cell_alpha" "zone_north" 100,
    .setCellLeader "cell_alpha" "node1" 100], rfl⟩, ?_⟩
  decide

end RoutingTable

end Peat.Hierarchy
