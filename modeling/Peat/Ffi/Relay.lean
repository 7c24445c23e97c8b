/-
  THE RELAY OF BLE FRAMES of peat-ffi/src/lib.rs: a frame that came in is put on the
  outbound queue for the other peers, unless the same frame went there a moment ago.

  The memory of the last frames is a table from a hash (a parameter) to an instant,
  pruned by age and cleared at its capacity. A call carries the time since the call
  before it.
-/
import Peat.Lib.HashMap
import Peat.Lib.Run
import Mathlib.Data.Set.Function

namespace Peat.Ffi

open Peat.Lib

/-! ## 1. The call -/

structure OutboundFrame where
  transportId : String
  collection : String
  bytes : List UInt8
  deriving DecidableEq, Repr

def relayDedupTtl : Nat := 5000000000

def relaySeenCap : Nat := 2048

structure RelayNode where
  relaySeen : HashMap UInt64 Nat
  outboundQueue : List OutboundFrame

namespace RelayNode

def live (n : RelayNode) (now : Nat) : HashMap UInt64 Nat :=
  retain (fun _ t => decide (now - t < relayDedupTtl)) n.relaySeen

def relayBleFrame (digest : OutboundFrame → UInt64) (n : RelayNode) (frame : OutboundFrame)
    (active : Bool) (now : Nat) : RelayNode :=
  if frame.collection = "nodes" then n
  else if !active then n
  else
    let key := digest frame
    let seen := n.live now
    if key ∈ seen then { n with relaySeen := seen }
    else
      let seen := if relaySeenCap ≤ seen.entries.length then ∅ else seen
      ⟨seen.insert key now, n.outboundQueue ++ [frame]⟩

def Looks (frame : OutboundFrame) (active : Bool) : Prop :=
  frame.collection ≠ "nodes" ∧ active = true

instance (frame : OutboundFrame) (active : Bool) : Decidable (Looks frame active) :=
  inferInstanceAs (Decidable (_ ∧ _))

theorem relay_cases (digest : OutboundFrame → UInt64) (n : RelayNode) (frame : OutboundFrame)
    (active : Bool) (now : Nat) :
    (¬Looks frame active ∧ n.relayBleFrame digest frame active now = n) ∨
    (Looks frame active ∧ digest frame ∈ n.live now ∧
      n.relayBleFrame digest frame active now = { n with relaySeen := n.live now }) ∨
    (Looks frame active ∧ digest frame ∉ n.live now ∧
      n.relayBleFrame digest frame active now =
        ⟨(if relaySeenCap ≤ (n.live now).entries.length then ∅ else n.live now).insert
          (digest frame) now, n.outboundQueue ++ [frame]⟩) := by
  unfold relayBleFrame
  by_cases hnodes : frame.collection = "nodes"
  · exact Or.inl ⟨fun h => h.1 hnodes, if_pos hnodes⟩
  · rw [if_neg hnodes]
    cases active with
    | false => exact Or.inl ⟨fun h => (by cases h.2), rfl⟩
    | true =>
      refine Or.inr ?_
      by_cases hkey : digest frame ∈ n.live now
      · exact Or.inl ⟨⟨hnodes, rfl⟩, hkey, if_pos hkey⟩
      · exact Or.inr ⟨⟨hnodes, rfl⟩, hkey, if_neg hkey⟩

theorem lookup_live (n : RelayNode) (now : Nat) (key : UInt64) :
    (n.live now).lookup key =
      (n.relaySeen.lookup key).filter fun t => decide (now - t < relayDedupTtl) :=
  lookup_retain _ _ _

theorem mem_live_iff {n : RelayNode} {now : Nat} {key : UInt64} :
    key ∈ n.live now ↔ ∃ t, n.relaySeen.lookup key = some t ∧ now - t < relayDedupTtl := by
  rw [← AList.lookup_isSome, Option.isSome_iff_exists]
  refine exists_congr fun t => ?_
  rw [lookup_live, Option.filter_eq_some_iff, decide_eq_true_iff]

end RelayNode

/-! ## 2. The history -/

structure RelayCall where
  frame : OutboundFrame
  active : Bool
  elapsed : Nat

/-- The relay on a clock, and the frames it passed on. -/
structure RelayJournal where
  node : RelayNode
  clock : Nat
  log : List (OutboundFrame × Nat)

namespace RelayJournal

open RelayNode

variable (digest : OutboundFrame → UInt64)

def start : RelayJournal := ⟨⟨∅, []⟩, 0, []⟩

def step (j : RelayJournal) (call : RelayCall) : RelayJournal :=
  let now := j.clock + call.elapsed
  let node := j.node.relayBleFrame digest call.frame call.active now
  ⟨node, now, (node.outboundQueue.drop j.node.outboundQueue.length).map (·, now) ++ j.log⟩

def now (j : RelayJournal) (call : RelayCall) : Nat := j.clock + call.elapsed

theorem step_cases (j : RelayJournal) (call : RelayCall) :
    (¬Looks call.frame call.active ∧ j.step digest call = ⟨j.node, j.now call, j.log⟩) ∨
    (Looks call.frame call.active ∧ digest call.frame ∈ j.node.live (j.now call) ∧
      j.step digest call =
        ⟨{ j.node with relaySeen := j.node.live (j.now call) }, j.now call, j.log⟩) ∨
    (Looks call.frame call.active ∧ digest call.frame ∉ j.node.live (j.now call) ∧
      j.step digest call =
        ⟨⟨(if relaySeenCap ≤ (j.node.live (j.now call)).entries.length then ∅
            else j.node.live (j.now call)).insert (digest call.frame) (j.now call),
          j.node.outboundQueue ++ [call.frame]⟩, j.now call,
          (call.frame, j.now call) :: j.log⟩) := by
  unfold step now
  dsimp only
  rcases relay_cases digest j.node call.frame call.active (j.clock + call.elapsed) with
    ⟨hl, h⟩ | ⟨hl, hk, h⟩ | ⟨hl, hk, h⟩
  · exact Or.inl ⟨hl, by rw [h]; simp⟩
  · exact Or.inr (Or.inl ⟨hl, hk, by rw [h]; simp⟩)
  · exact Or.inr (Or.inr ⟨hl, hk, by rw [h]; simp⟩)

structure Inv (j : RelayJournal) : Prop where
  origin : ∀ key t, j.node.relaySeen.lookup key = some t → ∃ f, (f, t) ∈ j.log ∧ digest f = key
  past : ∀ e ∈ j.log, e.2 ≤ j.clock
  app : ∀ e ∈ j.log, e.1.collection ≠ "nodes"

variable {j : RelayJournal} {call : RelayCall}

theorem origin_live (hi : j.Inv digest) {now : Nat} {key : UInt64} {t : Nat}
    (h : (j.node.live now).lookup key = some t) : ∃ f, (f, t) ∈ j.log ∧ digest f = key := by
  rw [lookup_live, Option.filter_eq_some_iff] at h
  exact hi.origin key t h.1

theorem inv_start : start.Inv digest :=
  ⟨fun _ _ h => (by cases h), fun _ h => (by cases h), fun _ h => (by cases h)⟩

theorem Inv.step {digest : OutboundFrame → UInt64} (hi : j.Inv digest) (call : RelayCall) :
    (j.step digest call).Inv digest := by
  have hpast : ∀ e ∈ j.log, e.2 ≤ j.now call := fun e he =>
    (hi.past e he).trans (Nat.le_add_right _ _)
  rcases j.step_cases digest call with ⟨-, h⟩ | ⟨-, -, h⟩ | ⟨hl, -, h⟩ <;> rw [h]
  · exact ⟨hi.origin, hpast, hi.app⟩
  · exact ⟨fun key t => origin_live digest hi, hpast, hi.app⟩
  · refine ⟨?_, List.forall_mem_cons.mpr ⟨Nat.le_refl _, hpast⟩,
      List.forall_mem_cons.mpr ⟨hl.1, hi.app⟩⟩
    refine forall_lookup_insert ⟨call.frame, List.mem_cons_self, rfl⟩ fun key t ht => ?_
    split at ht
    · cases ht
    · obtain ⟨f, hf, hk⟩ := origin_live digest hi ht
      exact ⟨f, List.mem_cons_of_mem _ hf, hk⟩

/-! ## 3. The guard -/

/-- Two relays of one frame are at least the TTL apart. -/
def Spaced (j : RelayJournal) : Prop :=
  j.log.Pairwise fun later earlier =>
    later.1 = earlier.1 → earlier.2 + relayDedupTtl ≤ later.2

def Guarded (j : RelayJournal) : Prop :=
  ∀ e ∈ j.log, j.clock < e.2 + relayDedupTtl → j.node.relaySeen.lookup (digest e.1) = some e.2

/-- A frame not seen lately finds room in the table. -/
def Roomy (j : RelayJournal) (call : RelayCall) : Prop :=
  Looks call.frame call.active → digest call.frame ∉ j.node.live (j.now call) →
    (j.node.live (j.now call)).entries.length < relaySeenCap

/-- A frame is dropped only if it was relayed within the TTL. -/
def DropsOnlyRepeats (j : RelayJournal) (call : RelayCall) : Prop :=
  Looks call.frame call.active → (j.step digest call).log = j.log →
    ∃ e ∈ j.log, e.1 = call.frame ∧ j.now call < e.2 + relayDedupTtl

variable {digest}

theorem Guarded.live (hg : j.Guarded digest) (hi : j.Inv digest) {e : OutboundFrame × Nat}
    (he : e ∈ j.log) (hage : j.now call < e.2 + relayDedupTtl) :
    (j.node.live (j.now call)).lookup (digest e.1) = some e.2 := by
  have hpast := hi.past e he
  have hclock : j.clock ≤ j.now call := Nat.le_add_right _ _
  rw [lookup_live, hg e he (by omega)]
  exact Option.filter_eq_some_iff.mpr ⟨rfl, decide_eq_true (by omega)⟩

theorem Guarded.spaced_step (hg : j.Guarded digest) (hi : j.Inv digest) (hs : j.Spaced)
    (call : RelayCall) : (j.step digest call).Spaced := by
  rcases j.step_cases digest call with ⟨-, h⟩ | ⟨-, -, h⟩ | ⟨-, hk, h⟩ <;> rw [h]
  · exact hs
  · exact hs
  · refine List.pairwise_cons.mpr ⟨fun e he heq => ?_, hs⟩
    by_contra hlt
    -- the same frame within the TTL would have been found in the table
    have hlive := hg.live hi he (Nat.lt_of_not_le hlt)
    refine hk (AList.lookup_isSome.mp ?_)
    have hframe : call.frame = e.1 := heq
    rw [hframe, hlive]
    rfl

theorem Guarded.step (hg : j.Guarded digest) (hi : j.Inv digest) (hroom : j.Roomy digest call) :
    (j.step digest call).Guarded digest := by
  rcases j.step_cases digest call with ⟨-, h⟩ | ⟨-, -, h⟩ | ⟨hl, hk, h⟩ <;> rw [h]
  · intro e he hage
    have hclock : j.clock ≤ j.now call := Nat.le_add_right _ _
    exact hg e he (Nat.lt_of_le_of_lt hclock hage)
  · exact fun e he hage => hg.live hi he hage
  · rw [if_neg (Nat.not_le.mpr (hroom hl hk))]
    refine List.forall_mem_cons.mpr ⟨fun _ => AList.lookup_insert _, fun e he hage => ?_⟩
    have hlive := hg.live hi he hage
    have hne : digest e.1 ≠ digest call.frame := fun heq =>
      hk (heq ▸ AList.lookup_isSome.mp (by rw [hlive]; rfl))
    exact (AList.lookup_insert_ne hne).trans hlive

theorem step_full (hl : Looks call.frame call.active)
    (hk : digest call.frame ∉ j.node.live (j.now call))
    (hcap : relaySeenCap ≤ (j.node.live (j.now call)).entries.length) :
    j.step digest call =
      ⟨⟨(∅ : HashMap UInt64 Nat).insert (digest call.frame) (j.now call),
        j.node.outboundQueue ++ [call.frame]⟩, j.now call, (call.frame, j.now call) :: j.log⟩ := by
  rcases j.step_cases digest call with ⟨hn, -⟩ | ⟨-, hin, -⟩ | ⟨-, -, h⟩
  · exact absurd hl hn
  · exact absurd hin hk
  · rw [if_pos hcap] at h
    exact h

theorem log_step_of_unknown (hl : Looks call.frame call.active)
    (hk : j.node.relaySeen.lookup (digest call.frame) = none) :
    (j.step digest call).log = (call.frame, j.now call) :: j.log := by
  rcases j.step_cases digest call with ⟨hn, -⟩ | ⟨-, hin, -⟩ | ⟨-, -, h⟩
  · exact absurd hl hn
  · obtain ⟨t, ht, -⟩ := mem_live_iff.mp hin
    rw [hk] at ht
    cases ht
  · rw [h]

theorem exists_repeat_of_full (hi : j.Inv digest) (hfull : ¬j.Roomy digest call) :
    ∃ next, ¬((j.step digest call).step digest next).Spaced := by
  obtain ⟨hl, hk, hcap⟩ : Looks call.frame call.active ∧
      digest call.frame ∉ j.node.live (j.now call) ∧
      relaySeenCap ≤ (j.node.live (j.now call)).entries.length := by
    unfold Roomy at hfull
    push Not at hfull
    exact hfull
  -- the table held something
  obtain ⟨⟨key, t⟩, hmem⟩ : ∃ entry, entry ∈ (j.node.live (j.now call)).entries :=
    List.exists_mem_of_length_pos (Nat.lt_of_lt_of_le (by decide) hcap)
  have hlookup := lookup_eq_some_iff.mpr hmem
  obtain ⟨f, hf, hkey⟩ := origin_live digest hi hlookup
  have hyoung : j.now call - t < relayDedupTtl := by
    rw [lookup_live, Option.filter_eq_some_iff] at hlookup
    exact of_decide_eq_true hlookup.2
  have hne : digest f ≠ digest call.frame := by
    intro heq
    refine hk (AList.lookup_isSome.mp ?_)
    rw [← heq, hkey, hlookup]
    rfl
  refine ⟨⟨f, true, 0⟩, fun hspaced => ?_⟩
  rw [step_full hl hk hcap] at hspaced
  unfold Spaced at hspaced
  rw [log_step_of_unknown ⟨hi.app _ hf, rfl⟩ (AList.lookup_insert_ne hne)] at hspaced
  have hfar := (List.pairwise_cons.mp hspaced).1 (f, t) (List.mem_cons_of_mem _ hf) rfl
  have hnow : t + relayDedupTtl ≤ j.now call + 0 := hfar
  omega

theorem dropsOnlyRepeats (hi : j.Inv digest)
    (hinj : ∀ e ∈ j.log, digest e.1 = digest call.frame → e.1 = call.frame) :
    j.DropsOnlyRepeats digest call := by
  intro hl hsame
  rcases j.step_cases digest call with ⟨hn, -⟩ | ⟨-, hin, -⟩ | ⟨-, -, h⟩
  · exact absurd hl hn
  · obtain ⟨t, ht, hage⟩ := mem_live_iff.mp hin
    obtain ⟨f, hf, hkey⟩ := hi.origin _ t ht
    exact ⟨(f, t), hf, hinj _ hf hkey, by omega⟩
  · rw [h] at hsame
    exact absurd hsame (List.cons_ne_self _ _)

variable (digest)

theorem mem_log_run {calls : List RelayCall} {e : OutboundFrame × Nat}
    (he : e ∈ (run (step digest) start calls).log) : ∃ call ∈ calls, call.frame = e.1 := by
  have hinv : ∀ (j : RelayJournal) (calls : List RelayCall),
      e ∈ (run (step digest) j calls).log → e ∈ j.log ∨ ∃ call ∈ calls, call.frame = e.1 := by
    intro j calls
    induction calls generalizing j with
    | nil => exact Or.inl
    | cons call calls ih =>
      intro he
      rcases ih (j.step digest call) he with he | ⟨c, hc, hframe⟩
      · rcases j.step_cases digest call with ⟨-, h⟩ | ⟨-, -, h⟩ | ⟨-, -, h⟩ <;> rw [h] at he
        · exact Or.inl he
        · exact Or.inl he
        · rcases List.mem_cons.mp he with rfl | he
          · exact Or.inr ⟨call, List.mem_cons_self, rfl⟩
          · exact Or.inl he
      · exact Or.inr ⟨c, List.mem_cons_of_mem _ hc, hframe⟩
  exact (hinv start calls he).resolve_left fun h => by cases h

/-- **The relay storm guard.** A frame is dropped only if an identical one was enqueued less than five
    seconds before; and identical ones are enqueued at least five seconds apart exactly when every call that
    relays finds room in the table. -/
theorem relay_storm_guard_iff (calls : List RelayCall)
    (hinj : Set.InjOn digest {f | ∃ call ∈ calls, call.frame = f}) :
    RunMeets (step digest) (DropsOnlyRepeats digest) start calls ∧
    ((∀ pre, pre <+: calls → (run (step digest) start pre).Spaced ∧
        ∀ next, ((run (step digest) start pre).step digest next).Spaced) ↔
      RunMeets (step digest) (Roomy digest) start calls) := by
  have hinv : ∀ calls, (run (step digest) start calls).Inv digest :=
    run_invariant (Inv digest) (fun _ call hi => hi.step call) (inv_start digest)
  constructor
  · rw [runMeets_iff]
    rintro pre call post rfl
    refine dropsOnlyRepeats (hinv pre) fun e he heq => hinj ?_ ?_ heq
    · obtain ⟨c, hc, hframe⟩ := mem_log_run digest he
      exact ⟨c, List.mem_append_left _ hc, hframe⟩
    · exact ⟨call, List.mem_append_cons_self, rfl⟩
  · refine run_within_iff_of_stronger
      (fun j : RelayJournal => j.Spaced ∧ ∀ next, (j.step digest next).Spaced)
      (fun j : RelayJournal => j.Inv digest ∧ j.Guarded digest ∧ j.Spaced) ?_ ?_ ?_ ?_
    · exact fun j ⟨hi, hg, hs⟩ => ⟨hs, hg.spaced_step hi hs⟩
    · exact fun j call ⟨hi, hg, hs⟩ hroom =>
        ⟨hi.step call, hg.step hi hroom, hg.spaced_step hi hs call⟩
    · intro j call ⟨hi, _, _⟩ hall
      by_contra hfull
      obtain ⟨next, hnot⟩ := exists_repeat_of_full hi hfull
      exact hnot (hall.2 next)
    · exact ⟨inv_start digest, fun _ h => (by cases h), List.Pairwise.nil⟩

def zeros (n : Nat) : RelayCall := ⟨⟨"ble", "demo", List.replicate n 0⟩, true, 0⟩

def lengthDigest (f : OutboundFrame) : UInt64 := UInt64.ofNat f.bytes.length

theorem relay_storm_guard_twice :
    RunMeets (step lengthDigest) (DropsOnlyRepeats lengthDigest) start [zeros 1, zeros 2, zeros 1] ∧
    ((∀ pre, pre <+: [zeros 1, zeros 2, zeros 1] → (run (step lengthDigest) start pre).Spaced ∧
        ∀ next, ((run (step lengthDigest) start pre).step lengthDigest next).Spaced) ↔
      RunMeets (step lengthDigest) (Roomy lengthDigest) start [zeros 1, zeros 2, zeros 1]) := by
  refine relay_storm_guard_iff lengthDigest _ ?_
  rintro f ⟨c, hc, rfl⟩ g ⟨d, hd, rfl⟩ heq
  simp only [List.mem_cons, List.not_mem_nil, or_false] at hc hd
  rcases hc with rfl | rfl | rfl <;> rcases hd with rfl | rfl | rfl <;>
    first | rfl | exact absurd heq (by decide)

theorem live_zero (n : RelayNode) : n.live 0 = n.relaySeen := by
  refine AList.ext ?_
  show n.relaySeen.entries.filter _ = _
  refine List.filter_eq_self.mpr fun e _ => decide_eq_true ?_
  rw [Nat.zero_sub]
  decide

theorem ofNat_eq_iff {k n : Nat} (hk : k < UInt64.size) (hn : n < UInt64.size) :
    UInt64.ofNat k = UInt64.ofNat n ↔ k = n := by
  constructor
  · intro h
    have hto := congrArg UInt64.toNat h
    rwa [UInt64.toNat_ofNat_of_lt' hk, UInt64.toNat_ofNat_of_lt' hn] at hto
  · exact congrArg UInt64.ofNat

theorem lengthDigest_zeros (n : Nat) : lengthDigest (zeros n).frame = UInt64.ofNat n := by
  unfold lengthDigest zeros
  rw [List.length_replicate]

theorem step_zeros (hclock : j.clock = 0) {n : Nat} (hnew : UInt64.ofNat n ∉ j.node.relaySeen) :
    j.step lengthDigest (zeros n) =
      ⟨⟨(if relaySeenCap ≤ j.node.relaySeen.entries.length then ∅ else j.node.relaySeen).insert
        (UInt64.ofNat n) 0, j.node.outboundQueue ++ [(zeros n).frame]⟩, 0,
        ((zeros n).frame, 0) :: j.log⟩ := by
  have hnow : j.now (zeros n) = 0 := by
    unfold now zeros
    omega
  have hcases := j.step_cases lengthDigest (zeros n)
  rw [hnow, live_zero, lengthDigest_zeros] at hcases
  rcases hcases with ⟨hl, -⟩ | ⟨-, hin, -⟩ | ⟨-, -, h⟩
  · have hdemo : "demo" ≠ "nodes" := by decide
    exact absurd ⟨hdemo, rfl⟩ hl
  · exact absurd hin hnew
  · exact h

theorem run_zeros (n : Nat) (hn : n ≤ relaySeenCap) :
    let j := run (step lengthDigest) start ((List.range n).map zeros)
    j.clock = 0 ∧ j.node.relaySeen.entries.length = n ∧
      (∀ k, k < UInt64.size → (UInt64.ofNat k ∈ j.node.relaySeen ↔ k < n)) ∧
      j.log = ((List.range n).map fun i => ((zeros i).frame, 0)).reverse := by
  have hsize : relaySeenCap < UInt64.size := by decide
  induction n with
  | zero => exact ⟨rfl, rfl, fun k _ => iff_of_false (AList.notMem_empty _) (Nat.not_lt_zero k), rfl⟩
  | succ n ih =>
    obtain ⟨hclock, hlen, hmem, hlog⟩ := ih (Nat.le_of_succ_le hn)
    have hnew : UInt64.ofNat n ∉
        (run (step lengthDigest) start ((List.range n).map zeros)).node.relaySeen :=
      fun h => Nat.lt_irrefl n ((hmem n (by omega)).mp h)
    rw [List.range_succ, List.map_append, List.map_singleton, run_concat,
      step_zeros hclock hnew, hlen, if_neg (Nat.not_le.mpr hn)]
    refine ⟨rfl, ?_, fun k hk => ?_, ?_⟩
    · rw [AList.entries_insert_of_notMem hnew, List.length_cons, hlen]
    · rw [AList.mem_insert, hmem k hk, ofNat_eq_iff hk (by omega)]
      omega
    · rw [hlog, List.map_append, List.map_singleton, List.reverse_concat]

def flood : List RelayCall := (List.range (relaySeenCap + 1)).map zeros ++ [zeros 0]

/-- The 2049th frame clears the table, and the first frame is relayed a second time at once. -/
theorem relay_repeats_after_clear :
    Set.InjOn lengthDigest {f | ∃ call ∈ flood, call.frame = f} ∧
    ¬(run (step lengthDigest) start flood).Spaced := by
  have hsize : relaySeenCap < UInt64.size := by decide
  constructor
  · have hlength : ∀ call ∈ flood, ∃ n, n < UInt64.size ∧ call = zeros n := by
      intro call hcall
      rcases List.mem_append.mp hcall with h | h
      · obtain ⟨n, hn, rfl⟩ := List.mem_map.mp h
        exact ⟨n, by have := List.mem_range.mp hn; omega, rfl⟩
      · exact ⟨0, by decide, List.mem_singleton.mp h⟩
    rintro f ⟨c, hc, rfl⟩ g ⟨d, hd, rfl⟩ heq
    obtain ⟨m, hm, rfl⟩ := hlength c hc
    obtain ⟨n, hn, rfl⟩ := hlength d hd
    rw [lengthDigest_zeros, lengthDigest_zeros, ofNat_eq_iff hm hn] at heq
    rw [heq]
  · obtain ⟨hclock, hlen, hmem, hlog⟩ := run_zeros relaySeenCap (Nat.le_refl _)
    have hnew := fun h => Nat.lt_irrefl _ ((hmem relaySeenCap hsize).mp h)
    have hagain : UInt64.ofNat 0 ∉
        (∅ : HashMap UInt64 Nat).insert (UInt64.ofNat relaySeenCap) 0 := by
      rw [AList.mem_insert, ofNat_eq_iff (by decide) hsize]
      rintro (h | h)
      · exact absurd h (by decide)
      · exact AList.notMem_empty _ h
    unfold flood
    rw [List.range_succ, List.map_append, List.map_singleton, run_concat, run_concat,
      step_zeros hclock hnew, hlen, if_pos (Nat.le_refl _), step_zeros rfl hagain, hlog]
    intro hspaced
    have hfirst : ((zeros 0).frame, 0) ∈
        ((zeros relaySeenCap).frame, 0) ::
          ((List.range relaySeenCap).map fun i => ((zeros i).frame, 0)).reverse :=
      List.mem_cons_of_mem _ (List.mem_reverse.mpr
        (List.mem_map.mpr ⟨0, List.mem_range.mpr (by decide), rfl⟩))
    exact absurd ((List.pairwise_cons.mp hspaced).1 _ hfirst rfl) (by decide)

end RelayJournal

end Peat.Ffi
