/-
  ACKNOWLEDGMENT TRACKING over runs: what `record_ack` and `check_ack_timeouts` answer,
  against who has acknowledged.

  The timeout manager compares two LENGTHS, the acknowledgments received and
  the nodes expected; the coordinator's `is_command_acknowledged` asks for
  every target by name.
-/
import Mathlib.Data.Finset.Card
import Peat.Lib.Run
import Peat.Command.Coordinator

namespace Peat.Command

open Peat.Lib

/-! ## 1. Who was asked and who answered -/

/-- Whom a timeout waits for, until when, and who answered. -/
structure Awaited where
  expected : List String
  deadline : Nat
  acked : List String

namespace Awaited

def Complete (a : Awaited) : Prop := ∀ n ∈ a.expected, n ∈ a.acked

def ack (a : Awaited) (n : String) : Awaited := { a with acked := a.acked ++ [n] }

def missing (a : Awaited) : Nat := (a.expected.toFinset \ a.acked.toFinset).card

def foreign (a : Awaited) : Nat := (a.acked.toFinset \ a.expected.toFinset).card

def repeated (a : Awaited) : Nat := a.expected.length - a.expected.toFinset.card

/-- **The acknowledgment of `n` keeps the lengths truthful**: `n` is known already, or nobody is missing; or
    `n` is the last one missing and as many foreign nodes as repeated entries came before; or too few
    foreign nodes hide who is missing. -/
def Clear (a : Awaited) (n : String) : Prop :=
  n ∈ a.acked ∨ a.missing = 0 ∨
  (n ∈ a.expected ∧ a.missing = 1 ∧ a.foreign = a.repeated) ∨
  (¬ (n ∈ a.expected ∧ a.missing = 1) ∧ a.foreign + 1 < a.repeated + a.missing)

def Truthful (a : Awaited) : Prop := a.missing + a.repeated ≤ a.foreign ↔ a.missing = 0

theorem missing_eq_zero_iff (a : Awaited) : a.missing = 0 ↔ a.Complete := by
  rw [missing, Finset.card_eq_zero, Finset.sdiff_eq_empty_iff_subset]
  exact ⟨fun h n hn => List.mem_toFinset.mp (h (List.mem_toFinset.mpr hn)),
    fun h n hn => List.mem_toFinset.mpr (h n (List.mem_toFinset.mp hn))⟩

theorem length_balance (a : Awaited) {received : List String} (hn : received.Nodup)
    (hmem : ∀ n, n ∈ received ↔ n ∈ a.acked) :
    received.length + a.missing + a.repeated = a.foreign + a.expected.length := by
  have hcard : received.length = a.acked.toFinset.card := by
    rw [← List.toFinset_card_of_nodup hn]
    congr 1
    ext n
    rw [List.mem_toFinset, List.mem_toFinset, hmem]
  have hack := Finset.card_sdiff_add_card_inter a.acked.toFinset a.expected.toFinset
  have hexp := Finset.card_sdiff_add_card_inter a.expected.toFinset a.acked.toFinset
  rw [Finset.inter_comm] at hexp
  have hle := List.toFinset_card_le a.expected
  unfold missing foreign repeated
  omega

/-! ## 2. What one acknowledgment changes -/

theorem acked_ack (a : Awaited) (n : String) :
    (a.ack n).acked.toFinset = insert n a.acked.toFinset := by
  ext x
  simp [ack]

variable {a : Awaited}

variable {n : String}

theorem counts_ack_known (h : n ∈ a.acked) :
    (a.ack n).missing = a.missing ∧ (a.ack n).foreign = a.foreign := by
  unfold missing foreign
  rw [acked_ack, Finset.insert_eq_of_mem (List.mem_toFinset.mpr h)]
  exact ⟨rfl, rfl⟩

theorem counts_ack_expected (h : n ∉ a.acked) (he : n ∈ a.expected) :
    (a.ack n).missing + 1 = a.missing ∧ (a.ack n).foreign = a.foreign := by
  unfold missing foreign
  rw [acked_ack]
  constructor
  · show (a.expected.toFinset \ _).card + 1 = _
    rw [Finset.sdiff_insert]
    refine Finset.card_erase_add_one (Finset.mem_sdiff.mpr ⟨List.mem_toFinset.mpr he, ?_⟩)
    exact fun hn => h (List.mem_toFinset.mp hn)
  · show (_ \ a.expected.toFinset).card = _
    rw [Finset.insert_sdiff_of_mem _ (List.mem_toFinset.mpr he)]

theorem counts_ack_foreign (h : n ∉ a.acked) (he : n ∉ a.expected) :
    (a.ack n).missing = a.missing ∧ (a.ack n).foreign = a.foreign + 1 := by
  unfold missing foreign
  rw [acked_ack]
  have he' : n ∉ a.expected.toFinset := fun hn => he (List.mem_toFinset.mp hn)
  constructor
  · show (a.expected.toFinset \ _).card = _
    rw [Finset.sdiff_insert_of_notMem he']
  · show (_ \ a.expected.toFinset).card = _
    rw [Finset.insert_sdiff_of_notMem _ he']
    refine Finset.card_insert_of_notMem fun hn => h ?_
    exact List.mem_toFinset.mp (Finset.mem_sdiff.mp hn).1

theorem truthful_ack_iff (ht : a.Truthful) (n : String) : (a.ack n).Truthful ↔ a.Clear n := by
  have hrep : (a.ack n).repeated = a.repeated := rfl
  unfold Truthful Clear at *
  rw [hrep]
  by_cases hknown : n ∈ a.acked
  · obtain ⟨hm, hf⟩ := counts_ack_known hknown
    rw [hm, hf]
    exact iff_of_true ht (.inl hknown)
  · by_cases he : n ∈ a.expected
    · obtain ⟨hm, hf⟩ := counts_ack_expected hknown he
      simp only [hf, hknown, he, true_and, false_or]
      omega
    · obtain ⟨hm, hf⟩ := counts_ack_foreign hknown he
      simp only [hm, hf, hknown, he, false_and, false_or, not_false_eq_true, true_and]
      omega

theorem truthful_asked (expected : List String) (deadline : Nat) :
    Truthful ⟨expected, deadline, []⟩ := by
  have hmissing : missing ⟨expected, deadline, []⟩ = expected.toFinset.card := by
    show (expected.toFinset \ ∅).card = _
    rw [Finset.sdiff_empty]
  have hforeign : foreign ⟨expected, deadline, []⟩ = 0 := by
    show (∅ \ expected.toFinset).card = 0
    rw [Finset.empty_sdiff, Finset.card_empty]
  unfold Truthful
  rw [hmissing, hforeign, Nat.le_zero, Nat.add_eq_zero_iff, and_iff_left_iff_imp]
  intro hzero
  rw [Finset.card_eq_zero, List.toFinset_eq_empty_iff] at hzero
  show expected.length - expected.toFinset.card = 0
  rw [hzero]
  rfl

end Awaited

/-! ## 3. The manager beside the record -/

/-- The manager and what was asked of it, by command. -/
structure AckJournal where
  manager : TimeoutManager
  asked : String → Option Awaited

namespace AckJournal

inductive Op where
  | registerAckTimeout (commandId : String) (expectedAcks : List String) (timeout now : Nat)
  | recordAck (commandId nodeId : String)
  | checkAckTimeouts (now : Nat)
  | unregisterAckTimeout (commandId : String)

def start : AckJournal := ⟨.new, fun _ => none⟩

def step (j : AckJournal) : Op → AckJournal
  | .registerAckTimeout id expected timeout now =>
    ⟨j.manager.registerAckTimeout id expected timeout now,
      Function.update j.asked id (some ⟨expected, now + timeout, []⟩)⟩
  | .recordAck id n =>
    ⟨(j.manager.recordAck id n).2, Function.update j.asked id ((j.asked id).map (·.ack n))⟩
  | .checkAckTimeouts _ => j
  | .unregisterAckTimeout id =>
    ⟨j.manager.unregisterAckTimeout id, Function.update j.asked id none⟩

structure Stores (c : CommandCoordinator) (id : String) (a : Awaited) : Prop where
  active : ∃ cmd, c.activeCommands.lookup id = some cmd ∧ c.routingTargets cmd = a.expected
  acknowledged : ∀ n, (∃ ack ∈ c.getCommandAcknowledgments id, ack.nodeId = n) ↔ n ∈ a.acked

/-- **The call answers exactly**: whether every expected node has acknowledged, and the commands past their
    deadline with a node missing, as every coordinator with the same acknowledgments says. -/
def Exact (j : AckJournal) : Op → Prop
  | .recordAck id n =>
    ((j.manager.recordAck id n).1 = true ↔
      ∃ a, (j.step (.recordAck id n)).asked id = some a ∧ a.Complete) ∧
    ∀ c a, (j.step (.recordAck id n)).asked id = some a → Stores c id a →
      c.isCommandAcknowledged id = (j.manager.recordAck id n).1
  | .checkAckTimeouts now =>
    ∀ id, (id ∈ j.manager.checkAckTimeouts now ↔
        ∃ a, j.asked id = some a ∧ a.deadline ≤ now ∧ ¬ a.Complete) ∧
      ∀ c a, j.asked id = some a → a.deadline ≤ now → Stores c id a →
        (id ∈ j.manager.checkAckTimeouts now ↔ c.isCommandAcknowledged id = false)
  | _ => True

/-- A recorded acknowledgment keeps the lengths truthful. -/
def Clear (j : AckJournal) : Op → Prop
  | .recordAck id n => ∀ a, j.asked id = some a → a.Clear n
  | _ => True

structure Tracks (t : AckTimeout) (a : Awaited) : Prop where
  expected : t.expectedAcks = a.expected
  deadline : t.expiresAt = a.deadline
  nodup : t.receivedAcks.Nodup
  received : ∀ n, n ∈ t.receivedAcks ↔ n ∈ a.acked

def Inv (j : AckJournal) : Prop :=
  ∀ id, Option.Rel Tracks (j.manager.ackTimeouts.lookup id) (j.asked id)

def AllTruthful (j : AckJournal) : Prop := ∀ id a, j.asked id = some a → a.Truthful

variable {t : AckTimeout} {a : Awaited}

theorem Tracks.received_ack (h : Tracks t a) (n : String) :
    Tracks (TimeoutManager.AckTimeout.received t n) (a.ack n) := by
  have hack : ∀ x, x ∈ (a.ack n).acked ↔ x ∈ a.acked ∨ x = n := fun x => by
    rw [Awaited.ack, List.mem_append, List.mem_singleton]
  unfold TimeoutManager.AckTimeout.received
  split
  · rename_i hn
    refine ⟨h.expected, h.deadline, h.nodup, fun x => ?_⟩
    rw [hack, h.received, or_iff_left_of_imp]
    rintro rfl
    exact (h.received x).mp hn
  · rename_i hn
    refine ⟨h.expected, h.deadline, ?_, fun x => ?_⟩
    · refine h.nodup.append (List.nodup_singleton n) ?_
      rw [List.disjoint_singleton]
      exact hn
    · rw [hack, List.mem_append, List.mem_singleton, h.received]

theorem Tracks.length_ge_iff (h : Tracks t a) (ht : a.Truthful) :
    t.receivedAcks.length ≥ t.expectedAcks.length ↔ a.Complete := by
  have hbal := a.length_balance h.nodup h.received
  unfold Awaited.Truthful at ht
  rw [← a.missing_eq_zero_iff, ← ht, h.expected]
  omega

theorem Tracks.truthful_of_length (h : Tracks t a)
    (hl : t.receivedAcks.length ≥ t.expectedAcks.length ↔ a.Complete) : a.Truthful := by
  have hbal := a.length_balance h.nodup h.received
  rw [← a.missing_eq_zero_iff, h.expected] at hl
  unfold Awaited.Truthful
  omega

section Steps

variable {j : AckJournal}

theorem inv_start : Inv start := fun _ => .none

theorem inv_recordAck (h : Inv j) (id n : String) : Inv (j.step (.recordAck id n)) := by
  intro k
  show Option.Rel Tracks ((j.manager.recordAck id n).2.ackTimeouts.lookup k)
    (Function.update j.asked id _ k)
  rw [TimeoutManager.lookup_recordAck, Function.update_apply]
  split
  · have hid := h id
    generalize j.manager.ackTimeouts.lookup id = t at hid
    generalize j.asked id = a at hid
    cases hid with
    | none => exact .none
    | some htr => exact .some (htr.received_ack n)
  · exact h k

theorem Inv.step (h : Inv j) (op : Op) : Inv (j.step op) := by
  cases op with
  | registerAckTimeout id expected timeout now =>
    intro k
    show Option.Rel Tracks ((j.manager.ackTimeouts.insert id _).lookup k)
      (Function.update j.asked id _ k)
    rw [lookup_insert_eq_ite, Function.update_apply]
    split
    · exact .some ⟨rfl, rfl, List.nodup_nil, fun _ => Iff.rfl⟩
    · exact h k
  | recordAck id n => exact inv_recordAck h id n
  | checkAckTimeouts now => exact h
  | unregisterAckTimeout id =>
    intro k
    show Option.Rel Tracks ((j.manager.ackTimeouts.erase id).lookup k)
      (Function.update j.asked id none k)
    rw [Function.update_apply]
    split
    · rename_i hk
      rw [hk, AList.lookup_erase]
      exact .none
    · rename_i hk
      rw [AList.lookup_erase_ne hk]
      exact h k

variable {id : String}

variable {a : Awaited}

theorem Inv.tracked (h : Inv j) (ha : j.asked id = some a) :
    ∃ t, j.manager.ackTimeouts.lookup id = some t ∧ Tracks t a := by
  have hid := h id
  rw [ha] at hid
  generalize j.manager.ackTimeouts.lookup id = o at hid
  cases hid with
  | some htr => exact ⟨_, rfl, htr⟩

theorem Inv.untracked (h : Inv j) (ha : j.asked id = none) :
    j.manager.ackTimeouts.lookup id = none := by
  have hid := h id
  rw [ha] at hid
  generalize j.manager.ackTimeouts.lookup id = o at hid
  cases hid with
  | none => rfl

/-! ## 4. The answers -/

theorem Stores.isCommandAcknowledged_iff {c : CommandCoordinator} (h : Stores c id a) :
    c.isCommandAcknowledged id = true ↔ a.Complete := by
  obtain ⟨cmd, hact, htargets⟩ := h.active
  unfold CommandCoordinator.isCommandAcknowledged Awaited.Complete
  rw [hact]
  dsimp only
  rw [htargets]
  split
  · rename_i hempty
    rw [List.isEmpty_iff.mp hempty]
    exact iff_of_true rfl nofun
  · rw [List.all_eq_true]
    refine forall₂_congr fun n _ => ?_
    rw [List.contains_iff_mem, List.mem_map]
    exact h.acknowledged n

theorem asked_recordAck (j : AckJournal) (id n : String) :
    (j.step (.recordAck id n)).asked id = (j.asked id).map (·.ack n) := Function.update_self ..

theorem exact_recordAck_iff (h : Inv j) {n : String} (ha : j.asked id = some a) :
    j.Exact (.recordAck id n) ↔ (a.ack n).Truthful := by
  have hasked : (j.step (.recordAck id n)).asked id = some (a.ack n) := by
    rw [asked_recordAck, ha]
    rfl
  obtain ⟨t, ht, htr⟩ := (h.step (.recordAck id n)).tracked hasked
  have hans : (j.manager.recordAck id n).1 = true ↔
      t.receivedAcks.length ≥ t.expectedAcks.length := by
    rw [TimeoutManager.recordAck_eq_true_iff]
    exact ⟨fun ⟨t', ht', hl⟩ => Option.some.inj (ht.symm.trans ht') ▸ hl, fun hl => ⟨t, ht, hl⟩⟩
  have hcomplete : (∃ b, (j.step (.recordAck id n)).asked id = some b ∧ b.Complete) ↔
      (a.ack n).Complete := by
    rw [hasked]
    exact ⟨fun ⟨_, hb, hc⟩ => Option.some.inj hb ▸ hc, fun hc => ⟨_, rfl, hc⟩⟩
  rw [Exact, hans, hcomplete]
  constructor
  · exact fun hex => htr.truthful_of_length hex.1
  · intro htruth
    refine ⟨htr.length_ge_iff htruth, fun c b hb hst => ?_⟩
    rw [hasked] at hb
    cases hb
    rw [Bool.eq_iff_iff, hst.isCommandAcknowledged_iff, hans, htr.length_ge_iff htruth]

theorem exact_recordAck_untracked (h : Inv j) (n : String) (ha : j.asked id = none) :
    j.Exact (.recordAck id n) := by
  have hnone : (j.step (.recordAck id n)).asked id = none := by
    rw [asked_recordAck, ha]
    rfl
  rw [Exact, TimeoutManager.recordAck_eq_true_iff, hnone]
  refine ⟨iff_of_false (fun ⟨t, ht, _⟩ => ?_) (fun ⟨_, hb, _⟩ => nomatch hb),
    fun _ _ hb => nomatch hb⟩
  have hno : (j.manager.recordAck id n).2.ackTimeouts.lookup id = none :=
    (h.step (.recordAck id n)).untracked hnone
  rw [hno] at ht
  nomatch ht

theorem exact_checkAckTimeouts (h : Inv j) (hall : j.AllTruthful) (now : Nat) :
    j.Exact (.checkAckTimeouts now) := by
  have hmem : ∀ id, id ∈ j.manager.checkAckTimeouts now ↔
      ∃ a, j.asked id = some a ∧ a.deadline ≤ now ∧ ¬ a.Complete := by
    intro id
    rw [TimeoutManager.mem_checkAckTimeouts]
    cases ha : j.asked id with
    | none =>
      rw [h.untracked ha]
      exact iff_of_false (fun ⟨_, ht, _⟩ => nomatch ht) fun ⟨_, hb, _⟩ => nomatch hb
    | some a =>
      obtain ⟨t, ht, htr⟩ := h.tracked ha
      have hlate : t.receivedAcks.length < t.expectedAcks.length ↔ ¬ a.Complete := by
        rw [← htr.length_ge_iff (hall id a ha), Nat.not_le]
      constructor
      · rintro ⟨t', ht', hdead, hlen⟩
        cases ht.symm.trans ht'
        exact ⟨a, rfl, htr.deadline ▸ hdead, hlate.mp hlen⟩
      · rintro ⟨_, ⟨⟩, hdead, hopen⟩
        exact ⟨t, ht, htr.deadline ▸ hdead, hlate.mpr hopen⟩
  refine fun id => ⟨hmem id, fun c a ha hdead hst => ?_⟩
  rw [hmem, ← Bool.not_eq_true, hst.isCommandAcknowledged_iff]
  exact ⟨fun ⟨b, hb, _, hc⟩ => Option.some.inj (ha.symm.trans hb) ▸ hc, fun hc => ⟨a, ha, hdead, hc⟩⟩

theorem AllTruthful.step {op : Op} (h : j.AllTruthful) (hc : j.Clear op) :
    (j.step op).AllTruthful := by
  intro k b hb
  cases op with
  | registerAckTimeout id expected timeout now =>
    replace hb : Function.update j.asked id _ k = some b := hb
    rw [Function.update_apply] at hb
    split at hb
    · cases hb
      exact Awaited.truthful_asked expected _
    · exact h k b hb
  | recordAck id n =>
    replace hb : Function.update j.asked id _ k = some b := hb
    rw [Function.update_apply] at hb
    split at hb
    · obtain ⟨a, ha, rfl⟩ := Option.map_eq_some_iff.mp hb
      exact (Awaited.truthful_ack_iff (h id a ha) n).mpr (hc a ha)
    · exact h k b hb
  | checkAckTimeouts now => exact h k b hb
  | unregisterAckTimeout id =>
    replace hb : Function.update j.asked id none k = some b := hb
    rw [Function.update_apply] at hb
    split at hb
    · nomatch hb
    · exact h k b hb

theorem exact_iff_clear (h : Inv j) (hall : j.AllTruthful) (op : Op) : j.Exact op ↔ j.Clear op := by
  cases op with
  | registerAckTimeout id expected timeout now => exact Iff.rfl
  | recordAck id n =>
    cases ha : j.asked id with
    | none =>
      refine iff_of_true (exact_recordAck_untracked h n ha) fun a hb => ?_
      rw [ha] at hb
      nomatch hb
    | some a =>
      rw [exact_recordAck_iff h ha, Awaited.truthful_ack_iff (hall id a ha), Clear, ha]
      exact ⟨fun hc _ hb => Option.some.inj hb ▸ hc, fun hc => hc a rfl⟩
  | checkAckTimeouts now => exact iff_of_true (exact_checkAckTimeouts h hall now) trivial
  | unregisterAckTimeout id => exact Iff.rfl

end Steps

/-- **Acknowledgment tracking**: every answer of a run is exact exactly when every acknowledgment of
    the run is clear. -/
theorem exact_iff (ops : List Op) :
    RunMeets step Exact start ops ↔ RunMeets step Clear start ops :=
  runMeets_iff_of_invariant (fun j => Inv j ∧ AllTruthful j)
    (fun _ op h => exact_iff_clear h.1 h.2 op)
    (fun _ op hex h => ⟨h.1.step op, h.2.step ((exact_iff_clear h.1 h.2 op).mp hex)⟩)
    ⟨inv_start, fun _ _ h => nomatch h⟩

/-- **A stranger completes the command**: one acknowledgment of a node nobody asked, and the one
    expected node counts as answered. -/
theorem stranger_completes :
    let ops := [.registerAckTimeout "cmd-1" ["n2"] 30 0, .recordAck "cmd-1" "n9"]
    let j := run step start [.registerAckTimeout "cmd-1" ["n2"] 30 0]
    (j.manager.recordAck "cmd-1" "n9").1 = true ∧
      (j.step (.recordAck "cmd-1" "n9")).asked "cmd-1" = some ⟨["n2"], 30, ["n9"]⟩ ∧
      (run step start ops).manager.checkAckTimeouts 1000 = [] ∧
      ¬ RunMeets step Exact start ops := by
  refine ⟨by decide, rfl, by decide, fun h => ?_⟩
  obtain ⟨a, ha, hc⟩ := h.2.1.1.mp (by decide)
  cases ha
  exact absurd (hc "n2" List.mem_cons_self) (by decide)

end AckJournal

end Peat.Command
