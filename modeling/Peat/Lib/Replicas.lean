/-
  MANY REPLICAS of one state machine: each is created, edited on its own, copied, and
  merged with another one.

  A `Machine` says how a state is created, edited and merged; a system is a map from
  names, of any type, to states. `SysOp.copy` puts a snapshot of a replica under another
  name, so merges with OUTDATED states are among the runs too.
-/
import Mathlib.Logic.Function.Basic
import Peat.Lib.Run

namespace Peat.Lib

structure Machine (ν ο σ : Type*) where
  new : ν → σ
  act : σ → ο → σ
  merge : σ → σ → σ

/-- What replicas do: begin, act, copy another, merge with another. -/
inductive SysOp (ι ν ο : Type*) where
  | create (i : ι) (n : ν)
  | act (i : ι) (o : ο)
  | copy (i j : ι)
  | merge (i j : ι)

namespace Machine

variable {ι ν ο σ : Type*} [DecidableEq ι]

def merged (M : Machine ν ο σ) : Option σ → Option σ → Option σ
  | some a, some b => some (M.merge a b)
  | a, _ => a

def sysStep (M : Machine ν ο σ) (S : ι → Option σ) : SysOp ι ν ο → (ι → Option σ)
  | .create i n => Function.update S i (some (M.new n))
  | .act i o => Function.update S i ((S i).map (M.act · o))
  | .copy i j => Function.update S i (S j)
  | .merge i j => Function.update S i (M.merged (S i) (S j))

def sysRun (M : Machine ν ο σ) (ops : List (SysOp ι ν ο)) : ι → Option σ :=
  run M.sysStep (fun _ => none) ops

def MergeOk (_M : Machine ν ο σ) (ok : σ → σ → Prop) (S : ι → Option σ) : SysOp ι ν ο → Prop
  | .merge i j => ∀ a b, S i = some a → S j = some b → ok a b
  | _ => True

/-- All replicas that exist have the property. -/
def AllHold (P : σ → Prop) (S : ι → Option σ) : Prop := ∀ i s, S i = some s → P s

section Invariant

variable {M : Machine ν ο σ} {P : σ → Prop} {ok : σ → σ → Prop} {S : ι → Option σ}

theorem sysStep_merge_self (i j : ι) :
    M.sysStep S (.merge i j) i = M.merged (S i) (S j) := Function.update_self i _ S

theorem allHold_update (hS : AllHold P S) (i : ι) (o : Option σ) (ho : ∀ s, o = some s → P s) :
    AllHold P (Function.update S i o) := by
  intro k s hk
  by_cases e : k = i
  · subst e
    rw [Function.update_self] at hk
    exact ho s hk
  · rw [Function.update_of_ne e] at hk
    exact hS k s hk

theorem allHold_sysStep (ok : σ → σ → Prop) (hnew : ∀ n, P (M.new n))
    (hact : ∀ s o, P s → P (M.act s o))
    (hmerge : ∀ a b, P a → P b → ok a b → P (M.merge a b)) (op : SysOp ι ν ο)
    (hok : M.MergeOk ok S op) (hS : AllHold P S) : AllHold P (M.sysStep S op) := by
  cases op with
  | create i n => exact allHold_update hS i _ fun s e => Option.some.inj e ▸ hnew n
  | act i o =>
    refine allHold_update hS i _ fun s e => ?_
    obtain ⟨a, ha, rfl⟩ := Option.map_eq_some_iff.mp e
    exact hact a o (hS i a ha)
  | copy i j => exact allHold_update hS i _ (hS j)
  | merge i j =>
    refine allHold_update hS i _ fun s e => ?_
    cases ha : S i with
    | none => rw [ha] at e; cases e
    | some a =>
      cases hb : S j with
      | none =>
        rw [ha, hb] at e
        exact Option.some.inj e ▸ hS i a ha
      | some b =>
        rw [ha, hb] at e
        exact Option.some.inj e ▸ hmerge a b (hS i a ha) (hS j b hb) (hok a b ha hb)

theorem sys_invariant (hnew : ∀ n, P (M.new n)) (hact : ∀ s o, P s → P (M.act s o))
    (hmerge : ∀ a b, P a → P b → P (M.merge a b)) (ops : List (SysOp ι ν ο)) :
    AllHold P (M.sysRun ops) :=
  run_invariant (AllHold P)
    (fun S op hS => allHold_sysStep (fun _ _ => True) hnew hact
      (fun a b ha hb _ => hmerge a b ha hb) op (by cases op <;> simp [MergeOk]) hS)
    (fun _ _ h => by cases h) ops

theorem sys_within_iff (hnew : ∀ n, P (M.new n)) (hact : ∀ s o, P s → P (M.act s o))
    (hmerge : ∀ a b, P a → P b → (P (M.merge a b) ↔ ok a b)) (ops : List (SysOp ι ν ο)) :
    (∀ pre, pre <+: ops → AllHold P (M.sysRun pre)) ↔
      RunMeets M.sysStep (M.MergeOk ok) (fun _ => none) ops := by
  refine run_within_iff (AllHold P) (fun S op hS => ⟨fun hnext => ?_, fun hok => ?_⟩)
    (fun _ _ h => by cases h)
  · cases op with
    | merge i j =>
      intro a b ha hb
      refine (hmerge a b (hS i a ha) (hS j b hb)).mp (hnext i _ ?_)
      rw [sysStep_merge_self, ha, hb]
      rfl
    | create i n => trivial
    | act i o => trivial
    | copy i j => trivial
  · exact allHold_sysStep ok hnew hact (fun a b ha hb hab => (hmerge a b ha hb).mpr hab) op hok hS

theorem sys_within_iff_of_invariant (I : σ → Prop) (hInew : ∀ n, I (M.new n))
    (hIact : ∀ s o, I s → I (M.act s o)) (hImerge : ∀ a b, I a → I b → I (M.merge a b))
    (hnew : ∀ n, P (M.new n)) (hact : ∀ s o, I s → P s → P (M.act s o))
    (hmerge : ∀ a b, I a → I b → (P (M.merge a b) ↔ ok a b)) (ops : List (SysOp ι ν ο)) :
    (∀ pre, pre <+: ops → AllHold P (M.sysRun pre)) ↔
      RunMeets M.sysStep (M.MergeOk ok) (fun _ => none) ops := by
  have hboth : (∀ pre, pre <+: ops → AllHold P (M.sysRun pre)) ↔
      ∀ pre, pre <+: ops → AllHold (fun s => I s ∧ P s) (M.sysRun pre) := by
    refine forall₂_congr fun pre _ => ?_
    have hI : AllHold I (M.sysRun pre) := sys_invariant hInew hIact hImerge pre
    exact ⟨fun h i s hs => ⟨hI i s hs, h i s hs⟩, fun h i s hs => (h i s hs).2⟩
  rw [hboth]
  refine sys_within_iff (fun n => ⟨hInew n, hnew n⟩)
    (fun s o h => ⟨hIact s o h.1, hact s o h.1 h.2⟩) (fun a b ha hb => ?_) ops
  rw [← hmerge a b ha.1 hb.1]
  exact ⟨fun h => h.2, fun h => ⟨hImerge a b ha.1 hb.1, h⟩⟩

end Invariant

end Machine

end Peat.Lib
