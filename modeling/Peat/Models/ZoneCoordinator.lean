/-
  IS THE ZONE COORDINATOR A LAST-WRITER-WINS REGISTER?

  The coordinator has no stamp of its own: its writes compare with the stamp of the
  whole state, which every cell or capability edit overwrites.
-/
import Peat.Models.Zone

namespace Peat.Models

open Peat.Lib

/-! ## 1. Zones with their last coordinator write -/

/-- A zone and the last write of its coordinator. -/
structure Traced where
  zone : ZoneState
  lastWrite : Option (Option String × Nat)
  deriving DecidableEq, Repr

inductive ZoneStep where
  | op (op : ZoneOp)
  | merge (other : Traced)
  deriving DecidableEq, Repr

namespace Traced

def new (config : ZoneConfig) (now : Nat) : Traced := ⟨ZoneState.new config now, none⟩

def act (z : Traced) (op : ZoneOp) : Traced :=
  ⟨z.zone.act op,
    if op.coordinatorWrite = none ∨ z.zone.Rejects op then z.lastWrite else op.coordinatorWrite⟩

def TakesRegister (z other : Traced) : Prop :=
  z.zone.zoneId = other.zone.zoneId ∧
    secondsOf z.zone.timestamp < secondsOf other.zone.timestamp

instance (z other : Traced) : Decidable (z.TakesRegister other) :=
  inferInstanceAs (Decidable (_ ∧ _))

def merge (z other : Traced) : Traced :=
  ⟨z.zone.mergeOrKeep other.zone, if z.TakesRegister other then other.lastWrite else z.lastWrite⟩

def step (z : Traced) : ZoneStep → Traced
  | .op op => z.act op
  | .merge other => z.merge other

theorem register_merge (z other : Traced) :
    (z.merge other).zone.register =
      if z.TakesRegister other then other.zone.register else z.zone.register := by
  show (z.zone.mergeOrKeep other.zone).register = _
  by_cases hid : z.zone.zoneId = other.zone.zoneId
  · rw [ZoneState.mergeOrKeep_of_same hid, ZoneState.register_mergeSame]
    by_cases hlt : secondsOf z.zone.timestamp < secondsOf other.zone.timestamp
    · rw [if_pos ⟨hid, hlt⟩]
      exact newest_of_lt hlt
    · rw [if_neg fun h => hlt h.2]
      exact newest_of_le (Nat.not_lt.mp hlt)
  · rw [ZoneState.mergeOrKeep_of_ne hid, if_neg fun h => hid h.1]

/-- The coordinator is the one of the last write. -/
def ShowsLastWrite (z : Traced) : Prop := z.zone.coordinatorId = (z.lastWrite.map Prod.fst).join

def machine (config : ZoneConfig) : Machine Nat ZoneOp Traced := ⟨new config, act, merge⟩

theorem showsLastWrite_act {z : Traced} (hz : z.ShowsLastWrite) (op : ZoneOp) :
    (z.act op).ShowsLastWrite := by
  show (z.zone.act op).coordinatorId = (Option.map Prod.fst (ite _ _ _)).join
  have h := ZoneState.effect_act z.zone op
  generalize z.zone.act op = s' at h
  cases h with
  | rejected _ hr => rw [if_pos (Or.inr hr)]; exact hz
  | addCell _ _ _ _ => exact hz
  | removeCell _ _ _ => exact hz
  | addCapability _ _ _ => exact hz
  | coordinator _ coordinatorId timestamp hw hts =>
    have hacc : ¬ (op.coordinatorWrite = none ∨ z.zone.Rejects op) := by
      rw [ZoneState.rejects_write_iff hw, hw]
      rintro (h | h)
      · cases h
      · omega
    rw [if_neg hacc, hw]
    rfl

theorem showsLastWrite_merge {z other : Traced} (hz : z.ShowsLastWrite)
    (ho : other.ShowsLastWrite) : (z.merge other).ShowsLastWrite := by
  have hreg := congrArg ZoneState.Register.coordinatorId (register_merge z other)
  by_cases h : z.TakesRegister other
  · rw [if_pos h] at hreg
    show _ = (Option.map Prod.fst (ite _ _ _)).join
    rw [if_pos h]
    exact hreg.trans ho
  · rw [if_neg h] at hreg
    show _ = (Option.map Prod.fst (ite _ _ _)).join
    rw [if_neg h]
    exact hreg.trans hz

theorem showsLastWrite_reachable {ι : Type*} [DecidableEq ι] (config : ZoneConfig)
    (ops : List (SysOp ι Nat ZoneOp)) :
    Machine.AllHold ShowsLastWrite ((machine config).sysRun ops) :=
  Machine.sys_invariant (M := machine config) (fun _ => rfl)
    (fun _ op hz => showsLastWrite_act hz op) (fun _ _ => showsLastWrite_merge) ops

/-! ## 2. Property and condition, step by step -/

/-- What a last-writer-wins register promises of a step after a write accepted at `t`: an older
    write leaves no trace, and the coordinator changes only in a coordinator operation or in a merge
    that brings a newer write. -/
def KeepsWrite (t : Nat) (z : Traced) (s : ZoneStep) : Prop :=
  (∀ op coordinatorId timestamp, s = .op op →
      op.coordinatorWrite = some (coordinatorId, timestamp) → timestamp < t → z.step s = z) ∧
  ((z.step s).zone.coordinatorId ≠ z.zone.coordinatorId →
    (∃ op, s = .op op ∧ op.coordinatorWrite ≠ none) ∨
    (∃ other coordinatorId u,
      s = .merge other ∧ other.lastWrite = some (coordinatorId, u) ∧ t < u))

/-- The step leaves the stamp to the coordinator: an effective cell or capability edit reads a clock
    not behind `t`; a zone that wins a merge with another coordinator was last stamped by a
    coordinator write. -/
def StampKept (t : Nat) (z : Traced) : ZoneStep → Prop
  | .op (.addCell cellId now) => ¬ z.zone.Rejects (.addCell cellId now) → t ≤ now
  | .op (.removeCell cellId now) => ¬ z.zone.Rejects (.removeCell cellId now) → t ≤ now
  | .op (.addCapability c now) => ¬ z.zone.Rejects (.addCapability c now) → t ≤ now
  | .op _ => True
  | .merge other =>
    z.TakesRegister other → other.zone.coordinatorId ≠ z.zone.coordinatorId →
      other.lastWrite.map Prod.snd = some (secondsOf other.zone.timestamp)

instance (t : Nat) (z : Traced) (s : ZoneStep) : Decidable (StampKept t z s) := by
  unfold StampKept
  split <;> infer_instance

section Step

variable {t : Nat} {z : Traced}

theorem act_of_rejects {op : ZoneOp} (hr : z.zone.Rejects op) : z.act op = z := by
  have hzone : z.zone.act op = z.zone := ZoneState.act_of_rejects hr
  unfold act
  rw [hzone, if_pos (Or.inr hr)]

theorem stamp_step {s : ZoneStep} (hs : StampKept t z s) (ht : t ≤ secondsOf z.zone.timestamp) :
    t ≤ secondsOf (z.step s).zone.timestamp := by
  cases s with
  | merge other =>
    have hreg := congrArg ZoneState.Register.timestamp (register_merge z other)
    show t ≤ secondsOf (z.merge other).zone.register.timestamp
    rw [hreg]
    by_cases h : z.TakesRegister other
    · rw [if_pos h]
      exact ht.trans h.2.le
    · rw [if_neg h]
      exact ht
  | op op =>
    show t ≤ secondsOf (z.zone.act op).timestamp
    by_cases hr : z.zone.Rejects op
    · rw [ZoneState.act_of_rejects hr]
      exact ht
    · have h := ZoneState.effect_act z.zone op
      generalize z.zone.act op = s' at h
      cases h with
      | rejected _ _ => exact ht
      | addCell cellId now _ _ => exact hs hr
      | removeCell cellId now _ => exact hs hr
      | addCapability c now _ => exact hs hr
      | coordinator _ coordinatorId timestamp _ hts => exact ht.trans hts

theorem coordinatorId_act {op : ZoneOp} (hw : op.coordinatorWrite = none) (s : ZoneState) :
    (s.act op).coordinatorId = s.coordinatorId := by
  have h := ZoneState.effect_act s op
  generalize s.act op = s' at h
  cases h with
  | coordinator _ coordinatorId timestamp hw' _ => rw [hw] at hw'; cases hw'
  | _ => rfl

theorem keepsWrite_step {s : ZoneStep} (hs : StampKept t z s)
    (ht : t ≤ secondsOf z.zone.timestamp) : KeepsWrite t z s := by
  refine ⟨fun op coordinatorId timestamp e hw hlt => ?_, fun hne => ?_⟩
  · subst e
    have hr : z.zone.Rejects op := (ZoneState.rejects_write_iff hw z.zone).mpr (by omega)
    exact act_of_rejects hr
  · cases s with
    | op op =>
      refine Or.inl ⟨op, rfl, fun hw => hne ?_⟩
      exact coordinatorId_act hw z.zone
    | merge other =>
      have hreg := congrArg ZoneState.Register.coordinatorId (register_merge z other)
      by_cases h : z.TakesRegister other
      · rw [if_pos h] at hreg
        have hdiff : other.zone.coordinatorId ≠ z.zone.coordinatorId := fun e =>
          hne (hreg.trans e)
        obtain ⟨⟨coordinatorId, u⟩, hw, hu⟩ := Option.map_eq_some_iff.mp (hs h hdiff)
        have hlt := h.2
        have hu' : u = secondsOf other.zone.timestamp := hu
        exact Or.inr ⟨other, coordinatorId, u, rfl, hw, by omega⟩
      · rw [if_neg h] at hreg
        exact absurd hreg hne

end Step

/-! ## 3. Whole runs -/

/-- **The coordinator as a last-writer-wins register**: a write that is accepted is kept by every run whose
    steps keep the stamp. -/
theorem coordinator_lww (z : Traced) (op : ZoneOp) (coordinatorId : Option String) (t : Nat)
    (hw : op.coordinatorWrite = some (coordinatorId, t)) (hacc : ¬ z.zone.Rejects op)
    (steps : List ZoneStep) (hk : RunMeets step (StampKept t) (z.step (.op op)) steps) :
    RunMeets step (KeepsWrite t) (z.step (.op op)) steps := by
  have hstart : t ≤ secondsOf (z.step (.op op)).zone.timestamp := by
    show t ≤ secondsOf (z.zone.act op).timestamp
    have h := ZoneState.effect_act z.zone op
    generalize z.zone.act op = s' at h
    cases h with
    | rejected _ hr => exact absurd hr hacc
    | addCell _ _ _ _ => cases hw
    | removeCell _ _ _ => cases hw
    | addCapability _ _ _ => cases hw
    | coordinator _ c u hw' _ =>
      rw [hw] at hw'
      cases hw'
      exact le_refl t
  exact runMeets_weaken (fun z' => t ≤ secondsOf z'.zone.timestamp)
    (fun z' s hs ht => ⟨keepsWrite_step hs ht, stamp_step hs ht⟩) hstart hk

def zoneOne : Traced := new (ZoneConfig.new "zone_1" 5 500) 500

/-- A cell joins after the write, an older write is rejected, a newer one arrives by merge. -/
theorem coordinator_lww_kept :
    let steps : List ZoneStep :=
      [.op (.addCell "cell_1" 1001), .op (.setCoordinator "node_2" 600),
       .merge (zoneOne.step (.op (.setCoordinator "node_3" 1100)))]
    RunMeets step (KeepsWrite 1000) (zoneOne.step (.op (.setCoordinator "node_1" 1000))) steps ∧
      (run step (zoneOne.step (.op (.setCoordinator "node_1" 1000))) steps).zone.coordinatorId =
        some "node_3" := by
  refine ⟨coordinator_lww zoneOne (.setCoordinator "node_1" 1000) (some "node_1") 1000 rfl
    (by decide) _ (by decide), by decide⟩

/-- The clock stands at 500 when a cell joins, and a write of 600 beats the one of 1000; and a zone stamped
    by a cell at 2000 takes the coordinator away. -/
theorem coordinator_write_forgotten :
    let z := zoneOne.step (.op (.setCoordinator "node_1" 1000))
    (¬ RunMeets step (KeepsWrite 1000) z
        [.op (.addCell "cell_1" 500), .op (.setCoordinator "node_2" 600)]) ∧
      ¬ RunMeets step (KeepsWrite 1000) z [.merge (zoneOne.step (.op (.addCell "cell_2" 2000)))] := by
  intro z
  refine ⟨fun h => ?_, fun h => ?_⟩
  · have hkept := h.2.1.1 (.setCoordinator "node_2" 600) (some "node_2") 600 rfl rfl (by decide)
    exact absurd (congrArg (fun y => y.zone.coordinatorId) hkept) (by decide)
  · rcases h.1.2 (by decide) with ⟨op, e, _⟩ | ⟨other, c, u, e, hw, _⟩
    · cases e
    · cases e
      have hnone : (zoneOne.step (.op (.addCell "cell_2" 2000))).lastWrite = none := by decide
      rw [hnone] at hw
      cases hw

end Traced

end Peat.Models
