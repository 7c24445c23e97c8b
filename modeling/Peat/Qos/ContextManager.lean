/-
  THE CONTEXT MANAGER of qos/context_manager.rs: one mission context, switched by any
  number of threads, and the listeners that are told of every switch.

  `set_context` and `compare_and_swap` exchange an atomic byte and then tell the
  listeners one by one; other calls may run in between. A `Pool` is the manager with all
  calls on it. The profiles are left out.
-/
import Peat.Lib.Run
import Mathlib.Data.List.Basic

namespace Peat.Qos

open Peat.Lib

/-! ## 1. The context and its byte -/

inductive MissionContext where
  | ingress | execution | egress | emergency | standby
  deriving DecidableEq, Repr

namespace MissionContext

def asU8 : MissionContext → UInt8
  | .ingress => 0
  | .execution => 1
  | .egress => 2
  | .emergency => 3
  | .standby => 4

end MissionContext

def u8ToContext (val : UInt8) : MissionContext :=
  if val = 0 then .ingress
  else if val = 1 then .execution
  else if val = 2 then .egress
  else if val = 3 then .emergency
  else .standby

@[simp] theorem u8ToContext_asU8 (c : MissionContext) : u8ToContext c.asU8 = c := by
  cases c <;> decide

theorem asU8_inj {c d : MissionContext} (h : c.asU8 = d.asU8) : c = d := by
  rw [← u8ToContext_asU8 c, h, u8ToContext_asU8]

abbrev Change := MissionContext × MissionContext

/-! ## 2. The functions -/

structure ContextManager where
  currentContext : UInt8
  listeners : List (List Change)
  deriving DecidableEq, Repr

inductive ContextCall where
  | setContext (newContext : MissionContext)
  | compareAndSwap (expected newContext : MissionContext)
  deriving DecidableEq, Repr

def exchange (current : UInt8) : ContextCall → UInt8 × Option Change
  | .setContext newContext =>
    let oldContext := u8ToContext current
    (newContext.asU8, if oldContext ≠ newContext then some (oldContext, newContext) else none)
  | .compareAndSwap expected newContext =>
    if current = expected.asU8 then
      (newContext.asU8, if expected ≠ newContext then some (expected, newContext) else none)
    else (current, none)

namespace ContextManager

def withContext (context : MissionContext) (listeners : Nat) : ContextManager :=
  ⟨context.asU8, List.replicate listeners []⟩

def getContext (m : ContextManager) : MissionContext := u8ToContext m.currentContext

def notifyListeners (m : ContextManager) (old new : MissionContext) : ContextManager :=
  { m with listeners := m.listeners.map ((old, new) :: ·) }

def setContext (m : ContextManager) (newContext : MissionContext) : ContextManager :=
  let oldContext := u8ToContext m.currentContext
  let m := { m with currentContext := newContext.asU8 }
  if oldContext ≠ newContext then m.notifyListeners oldContext newContext else m

def compareAndSwap (m : ContextManager) (expected newContext : MissionContext) :
    ContextManager × Bool :=
  if m.currentContext = expected.asU8 then
    let m := { m with currentContext := newContext.asU8 }
    if expected ≠ newContext then (m.notifyListeners expected newContext, true) else (m, true)
  else (m, false)

def act (m : ContextManager) : ContextCall → ContextManager
  | .setContext newContext => m.setContext newContext
  | .compareAndSwap expected newContext => (m.compareAndSwap expected newContext).1

theorem act_eq (m : ContextManager) (call : ContextCall) :
    m.act call =
      ⟨(exchange m.currentContext call).1,
        m.listeners.map fun log => (exchange m.currentContext call).2.toList ++ log⟩ := by
  cases call with
  | setContext newContext =>
    unfold act setContext exchange
    dsimp only
    split
    · rfl
    · simp
  | compareAndSwap expected newContext =>
    unfold act compareAndSwap exchange
    dsimp only
    split
    · split
      · rfl
      · simp
    · simp

end ContextManager

theorem exchange_spec (c : MissionContext) (call : ContextCall) :
    ∃ d : MissionContext, exchange c.asU8 call = (d.asU8, if c ≠ d then some (c, d) else none) := by
  cases call with
  | setContext newContext =>
    refine ⟨newContext, ?_⟩
    unfold exchange
    rw [u8ToContext_asU8]
  | compareAndSwap expected newContext =>
    by_cases h : c.asU8 = expected.asU8
    · obtain rfl := asU8_inj h
      exact ⟨newContext, if_pos rfl⟩
    · refine ⟨c, ?_⟩
      rw [exchange, if_neg h, if_neg (fun h => h rfl)]

/-! ## 3. Any number of calls at once -/

structure Progress where
  order : List Nat
  told : Nat → Nat

inductive PoolStep where
  | exchange (call : Nat)
  | notify (call : Nat)
  deriving DecidableEq, Repr

def Progress.step (k : Nat) (p : Progress) : PoolStep → Progress
  | .exchange i => if i ∈ p.order then p else { p with order := i :: p.order }
  | .notify i =>
    if i ∈ p.order ∧ p.told i < k then { p with told := Function.update p.told i (p.told i + 1) }
    else p

/-- The context, how far each call is, its change, and what each listener was told. -/
structure Pool where
  currentContext : UInt8
  progress : Progress
  change : Nat → Option Change
  log : Nat → List Change

namespace Pool

variable (k : Nat) (calls : Nat → ContextCall)

def start (init : MissionContext) : Pool := ⟨init.asU8, ⟨[], fun _ => 0⟩, fun _ => none, fun _ => []⟩

def step (s : Pool) : PoolStep → Pool
  | .exchange i =>
    if i ∈ s.progress.order then s
    else
      { s with
        currentContext := (exchange s.currentContext (calls i)).1
        progress := s.progress.step k (.exchange i)
        change := Function.update s.change i (exchange s.currentContext (calls i)).2 }
  | .notify i =>
    if i ∈ s.progress.order ∧ s.progress.told i < k then
      { s with
        progress := s.progress.step k (.notify i)
        log := Function.update s.log (s.progress.told i)
          ((s.change i).toList ++ s.log (s.progress.told i)) }
    else s

theorem progress_step (s : Pool) (st : PoolStep) :
    (s.step k calls st).progress = s.progress.step k st := by
  cases st with
  | exchange i =>
    unfold step
    dsimp only
    split
    · rename_i h
      exact (if_pos h).symm
    · rfl
  | notify i =>
    unfold step
    dsimp only
    split
    · rfl
    · rename_i h
      exact (if_neg h).symm

theorem progress_run (s : Pool) (schedule : List PoolStep) :
    (run (step k calls) s schedule).progress = run (Progress.step k) s.progress schedule := by
  induction schedule generalizing s with
  | nil => rfl
  | cons st schedule ih => rw [run_cons, run_cons, ih, progress_step]

variable {s : Pool} {i : Nat} {init : MissionContext}

theorem step_exchange (h : i ∉ s.progress.order) :
    s.step k calls (.exchange i) =
      ⟨(exchange s.currentContext (calls i)).1, ⟨i :: s.progress.order, s.progress.told⟩,
        Function.update s.change i (exchange s.currentContext (calls i)).2, s.log⟩ := by
  rw [step, if_neg h, Progress.step, if_neg h]

theorem step_notify (h : i ∈ s.progress.order ∧ s.progress.told i < k) :
    s.step k calls (.notify i) =
      ⟨s.currentContext,
        ⟨s.progress.order, Function.update s.progress.told i (s.progress.told i + 1)⟩, s.change,
        Function.update s.log (s.progress.told i)
          ((s.change i).toList ++ s.log (s.progress.told i))⟩ := by
  rw [step, if_pos h, Progress.step, if_pos h]

theorem run_notify (hin : i ∈ s.progress.order) (htold : s.progress.told i = 0) {n : Nat}
    (hn : n ≤ k) :
    (run (step k calls) s (List.replicate n (.notify i))).currentContext = s.currentContext ∧
    (run (step k calls) s (List.replicate n (.notify i))).change = s.change ∧
    i ∈ (run (step k calls) s (List.replicate n (.notify i))).progress.order ∧
    (run (step k calls) s (List.replicate n (.notify i))).progress.told i = n ∧
    ∀ l, (run (step k calls) s (List.replicate n (.notify i))).log l =
      if l < n then (s.change i).toList ++ s.log l else s.log l := by
  induction n with
  | zero => exact ⟨rfl, rfl, hin, htold, fun l => (if_neg (Nat.not_lt_zero l)).symm⟩
  | succ n ih =>
    obtain ⟨hctx, hchange, hmem, hpos, hlog⟩ := ih (Nat.le_of_succ_le hn)
    rw [List.replicate_succ', run_concat, step_notify k calls ⟨hmem, by rw [hpos]; exact hn⟩]
    refine ⟨hctx, hchange, hmem, ?_, fun l => ?_⟩
    · dsimp only
      rw [Function.update_self, hpos]
    · dsimp only
      rw [hpos, hchange]
      by_cases hl : l = n
      · subst hl
        rw [Function.update_self, hlog, if_neg (Nat.lt_irrefl _), if_pos (Nat.lt_succ_self _)]
      · rw [Function.update_of_ne hl, hlog]
        have hiff : l < n ↔ l < n + 1 := by omega
        simp only [hiff]

def manager (s : Pool) : ContextManager := ⟨s.currentContext, (List.range k).map s.log⟩

theorem run_alone (hnew : i ∉ s.progress.order) (htold : s.progress.told i = 0) :
    (run (step k calls) s (.exchange i :: List.replicate k (.notify i))).manager k =
      (s.manager k).act (calls i) := by
  have hex := step_exchange k calls hnew
  have hin : i ∈ (s.step k calls (.exchange i)).progress.order := by
    rw [hex]
    exact List.mem_cons_self
  have hzero : (s.step k calls (.exchange i)).progress.told i = 0 := by
    rw [hex]
    exact htold
  obtain ⟨hctx, -, -, -, hlog⟩ := run_notify k calls hin hzero (Nat.le_refl k)
  unfold manager
  rw [ContextManager.act_eq, List.map_map]
  dsimp only
  rw [run_cons, hctx]
  congr 1
  · rw [hex]
  · refine List.map_congr_left fun l hl => ?_
    rw [hlog, if_pos (List.mem_range.mp hl), hex]
    dsimp only
    rw [Function.update_self]
    rfl

theorem run_alone_start :
    (ContextManager.act ⟨0, [[]]⟩ (.setContext .egress)).listeners = [[(.ingress, .egress)]] := by
  have h := @run_alone 1 (fun _ => .setContext .egress) (start .ingress) 0 List.not_mem_nil rfl
  exact congrArg ContextManager.listeners h.symm

/-! ## 4. What the listeners are told -/

def lastTold (init : MissionContext) : List Change → MissionContext
  | [] => init
  | c :: _ => c.2

def Chained (init : MissionContext) : List Change → Prop
  | [] => True
  | c :: rest => c.1 = lastTold init rest ∧ Chained init rest

theorem Chained.of_append {new old : List Change} (h : Chained init (new ++ old)) :
    Chained init old := by
  induction new with
  | nil => exact h
  | cons c new ih => exact ih h.2

def changes (s : Pool) : List Change := s.progress.order.filterMap s.change

structure Inv (init : MissionContext) (s : Pool) : Prop where
  nodup : s.progress.order.Nodup
  idle : ∀ i, i ∉ s.progress.order → s.progress.told i = 0
  chained : Chained init s.changes
  current : s.currentContext = (lastTold init s.changes).asU8

theorem inv_start (init : MissionContext) : (start init).Inv init :=
  ⟨List.nodup_nil, fun _ _ => rfl, trivial, rfl⟩

theorem filterMap_update {order : List Nat} {change : Nat → Option Change} (h : i ∉ order)
    (c : Option Change) :
    order.filterMap (Function.update change i c) = order.filterMap change := by
  refine List.filterMap_congr fun j hj => ?_
  exact Function.update_of_ne (ne_of_mem_of_not_mem hj h) _ _

theorem changes_exchange (h : i ∉ s.progress.order) :
    (s.step k calls (.exchange i)).changes =
      (exchange s.currentContext (calls i)).2.toList ++ s.changes := by
  rw [step_exchange k calls h]
  unfold changes
  dsimp only
  rw [List.filterMap_cons, Function.update_self, filterMap_update h]
  cases (exchange s.currentContext (calls i)).2 <;> rfl

theorem Inv.step {k : Nat} {calls : Nat → ContextCall} (h : s.Inv init) (st : PoolStep) :
    (s.step k calls st).Inv init := by
  cases st with
  | exchange i =>
    by_cases hi : i ∈ s.progress.order
    · have hsame : s.step k calls (.exchange i) = s := if_pos hi
      rw [hsame]
      exact h
    · obtain ⟨d, hd⟩ := exchange_spec (lastTold init s.changes) (calls i)
      rw [← h.current] at hd
      have hchanges := changes_exchange k calls hi
      rw [hd] at hchanges
      have hctx : (s.step k calls (.exchange i)).currentContext = d.asU8 := by
        rw [step_exchange k calls hi, hd]
      refine ⟨?_, ?_, ?_, ?_⟩
      · rw [step_exchange k calls hi]
        exact List.nodup_cons.mpr ⟨hi, h.nodup⟩
      · rw [step_exchange k calls hi]
        exact fun j hj => h.idle j fun hmem => hj (List.mem_cons_of_mem _ hmem)
      · rw [hchanges]
        dsimp only
        split
        · exact ⟨rfl, h.chained⟩
        · exact h.chained
      · rw [hchanges, hctx]
        dsimp only
        split
        · rfl
        · rename_i hsame
          rw [← Decidable.not_not.mp hsame]
          rfl
  | notify i =>
    by_cases hi : i ∈ s.progress.order ∧ s.progress.told i < k
    · rw [step_notify k calls hi]
      refine ⟨h.nodup, fun j hj => ?_, h.chained, h.current⟩
      have hne : j ≠ i := by
        rintro rfl
        exact hj hi.1
      dsimp only
      rw [Function.update_of_ne hne]
      exact h.idle j hj
    · have hsame : s.step k calls (.notify i) = s := if_neg hi
      rw [hsame]
      exact h

def Caught (s : Pool) (l : Nat) : Prop :=
  ∃ pending done, s.progress.order = pending ++ done ∧
    (∀ i ∈ pending, s.change i ≠ none → s.progress.told i ≤ l) ∧
    (∀ i ∈ done, s.change i ≠ none → l < s.progress.told i) ∧
    s.log l = done.filterMap s.change

/-- A listener is told of a change only after all earlier ones. -/
def InTurn (s : Pool) : PoolStep → Prop
  | .exchange _ => True
  | .notify i => s.change i ≠ none → s.progress.told i < k →
    ∀ later earlier, s.progress.order = later ++ i :: earlier →
      ∀ j ∈ earlier, s.change j ≠ none → s.progress.told i < s.progress.told j

theorem caught_start (init : MissionContext) (l : Nat) : (start init).Caught l :=
  ⟨[], [], rfl, fun _ h => (by cases h), fun _ h => (by cases h), rfl⟩

theorem caught_exchange (hi : s.Inv init) {l : Nat} (h : s.Caught l) (i : Nat) :
    (s.step k calls (.exchange i)).Caught l := by
  by_cases hin : i ∈ s.progress.order
  · have hsame : s.step k calls (.exchange i) = s := if_pos hin
    rw [hsame]
    exact h
  · obtain ⟨pending, done, horder, hpending, hdone, hlog⟩ := h
    have hchange : ∀ j ∈ s.progress.order,
        Function.update s.change i (exchange s.currentContext (calls i)).2 j = s.change j :=
      fun j hj => Function.update_of_ne (ne_of_mem_of_not_mem hj hin) _ _
    rw [step_exchange k calls hin]
    rw [horder] at hchange hin
    refine ⟨i :: pending, done, by dsimp only; rw [horder]; rfl, ?_, ?_, ?_⟩
    · refine List.forall_mem_cons.mpr ⟨fun _ => ?_, fun j hj => ?_⟩
      · dsimp only
        rw [hi.idle i (by rw [horder]; exact hin)]
        exact Nat.zero_le _
      · dsimp only
        rw [hchange j (List.mem_append_left _ hj)]
        exact hpending j hj
    · intro j hj
      dsimp only
      rw [hchange j (List.mem_append_right _ hj)]
      exact hdone j hj
    · dsimp only
      rw [filterMap_update fun hmem => hin (List.mem_append_right _ hmem)]
      exact hlog

theorem caught_told (hi : s.Inv init) (h : s.Caught (s.progress.told i))
    (hturn : s.InTurn k (.notify i)) (hstep : i ∈ s.progress.order ∧ s.progress.told i < k)
    (hsome : s.change i ≠ none) : (s.step k calls (.notify i)).Caught (s.progress.told i) := by
  obtain ⟨pending, done, horder, hpending, hdone, hlog⟩ := h
  rw [step_notify k calls hstep]
  have hmem : i ∈ pending := by
    rw [horder] at hstep
    refine (List.mem_append.mp hstep.1).resolve_right fun hd => ?_
    exact Nat.lt_irrefl _ (hdone i hd hsome)
  obtain ⟨later, between, rfl⟩ := List.append_of_mem hmem
  have hnothing : ∀ j ∈ between, s.change j = none := by
    intro j hj
    by_contra hne
    have hbefore := hturn hsome hstep.2 later (between ++ done)
      (by rw [horder]; simp) j (List.mem_append_left _ hj) hne
    have hafter := hpending j (by simp [hj]) hne
    omega
  have hnodup : i ∉ later ∧ i ∉ between ++ done := by
    have hn := hi.nodup
    rw [horder, List.append_assoc, List.nodup_append] at hn
    refine ⟨fun hmem => hn.2.2 i hmem i (by simp) rfl, ?_⟩
    exact (List.nodup_cons.mp hn.2.1).1
  refine ⟨later, i :: (between ++ done), by dsimp only; rw [horder]; simp, ?_, ?_, ?_⟩
  · intro j hj hne
    dsimp only
    rw [Function.update_of_ne (ne_of_mem_of_not_mem hj hnodup.1)]
    exact hpending j (by simp [hj]) hne
  · refine List.forall_mem_cons.mpr ⟨fun _ => ?_, fun j hj hne => ?_⟩
    · dsimp only
      rw [Function.update_self]
      exact Nat.lt_succ_self _
    · dsimp only
      rw [Function.update_of_ne (ne_of_mem_of_not_mem hj hnodup.2)]
      rcases List.mem_append.mp hj with hj | hj
      · exact absurd (hnothing j hj) hne
      · exact hdone j hj hne
  · dsimp only
    rw [Function.update_self, hlog, List.filterMap_cons, List.filterMap_append,
      List.filterMap_eq_nil_iff.mpr hnothing]
    cases s.change i <;> rfl

theorem caught_passed {l : Nat} (h : s.Caught l)
    (hstep : i ∈ s.progress.order ∧ s.progress.told i < k)
    (hother : l = s.progress.told i → s.change i = none) :
    (s.step k calls (.notify i)).Caught l := by
  obtain ⟨pending, done, horder, hpending, hdone, hlog⟩ := h
  -- the count of the call goes past a listener it has something to tell only if it was past it
  have htold : ∀ j, s.change j ≠ none →
      (Function.update s.progress.told i (s.progress.told i + 1) j ≤ l ↔
        s.progress.told j ≤ l) := by
    intro j hne
    by_cases hj : j = i
    · subst hj
      rw [Function.update_self]
      have hne' : l ≠ s.progress.told j := fun e => hne (hother e)
      omega
    · rw [Function.update_of_ne hj]
  rw [step_notify k calls hstep]
  refine ⟨pending, done, horder, fun j hj hne => ?_, fun j hj hne => ?_, ?_⟩
  · exact (htold j hne).mpr (hpending j hj hne)
  · exact Nat.lt_of_not_le fun hle => Nat.not_le.mpr (hdone j hj hne) ((htold j hne).mp hle)
  · dsimp only
    by_cases hl : l = s.progress.told i
    · subst hl
      rw [Function.update_self, hother rfl]
      exact hlog
    · rw [Function.update_of_ne hl]
      exact hlog

theorem caught_notify (hi : s.Inv init) {l : Nat} (h : s.Caught l)
    (hturn : s.InTurn k (.notify i)) : (s.step k calls (.notify i)).Caught l := by
  by_cases hstep : i ∈ s.progress.order ∧ s.progress.told i < k
  · by_cases hother : l = s.progress.told i → s.change i = none
    · exact caught_passed k calls h hstep hother
    · obtain ⟨rfl, hsome⟩ := Classical.not_imp.mp hother
      exact caught_told k calls hi h hturn hstep hsome
  · have hsame : s.step k calls (.notify i) = s := if_neg hstep
    rw [hsame]
    exact h

theorem Caught.step (hi : s.Inv init) {l : Nat} (h : s.Caught l) {st : PoolStep}
    (hturn : s.InTurn k st) : (s.step k calls st).Caught l := by
  cases st with
  | exchange i => exact caught_exchange k calls hi h i
  | notify i => exact caught_notify k calls hi h hturn

/-- What a listener was told is a chain, and once it was told all it ends in the current context. -/
def Converging (init : MissionContext) (s : Pool) : Prop :=
  ∀ l, l < k → Chained init (s.log l) ∧
    ((∀ i ∈ s.progress.order, s.change i ≠ none → l < s.progress.told i) →
      lastTold init (s.log l) = (s.manager k).getContext)

theorem converging_of_caught (hi : s.Inv init) (h : ∀ l, s.Caught l) : s.Converging k init := by
  intro l _
  obtain ⟨pending, done, horder, hpending, -, hlog⟩ := h l
  have hchanges : s.changes = pending.filterMap s.change ++ s.log l := by
    unfold changes
    rw [horder, List.filterMap_append, hlog]
  refine ⟨Chained.of_append (hchanges ▸ hi.chained), fun hall => ?_⟩
  have hnone : pending.filterMap s.change = [] := by
    refine List.filterMap_eq_nil_iff.mpr fun j hj => ?_
    by_contra hne
    have hle := hpending j hj hne
    have hlt := hall j (by rw [horder]; exact List.mem_append_left _ hj) hne
    omega
  show _ = u8ToContext s.currentContext
  rw [hi.current, u8ToContext_asU8, hchanges, hnone]
  rfl

/-! ## 5. Schedules out of turn -/

def ToldByCalls (s : Pool) : Prop :=
  ∀ l, ∀ c ∈ s.log l, ∃ i ∈ s.progress.order, s.change i = some c ∧ l < s.progress.told i

theorem ToldByCalls.step {k : Nat} {calls : Nat → ContextCall} (h : s.ToldByCalls) (st : PoolStep) :
    (s.step k calls st).ToldByCalls := by
  cases st with
  | exchange i =>
    by_cases hi : i ∈ s.progress.order
    · have hsame : s.step k calls (.exchange i) = s := if_pos hi
      rw [hsame]
      exact h
    · rw [step_exchange k calls hi]
      intro l c hc
      obtain ⟨j, hj, hchange, hlt⟩ := h l c hc
      refine ⟨j, List.mem_cons_of_mem _ hj, ?_, hlt⟩
      dsimp only
      rw [Function.update_of_ne (ne_of_mem_of_not_mem hj hi)]
      exact hchange
  | notify i =>
    by_cases hi : i ∈ s.progress.order ∧ s.progress.told i < k
    · rw [step_notify k calls hi]
      have hgrow : ∀ j, s.progress.told j ≤
          Function.update s.progress.told i (s.progress.told i + 1) j := by
        intro j
        by_cases hj : j = i
        · subst hj
          rw [Function.update_self]
          exact Nat.le_succ _
        · exact Nat.le_of_eq (Function.update_of_ne hj _ _).symm
      have hold : ∀ l, ∀ c ∈ s.log l, ∃ j ∈ s.progress.order, s.change j = some c ∧
          l < Function.update s.progress.told i (s.progress.told i + 1) j := by
        intro l c hc
        obtain ⟨j, hj, hchange, hlt⟩ := h l c hc
        exact ⟨j, hj, hchange, Nat.lt_of_lt_of_le hlt (hgrow j)⟩
      intro l c hc
      dsimp only at hc ⊢
      by_cases hl : l = s.progress.told i
      · subst hl
        rw [Function.update_self] at hc
        rcases List.mem_append.mp hc with hc | hc
        · refine ⟨i, hi.1, Option.mem_toList.mp hc, ?_⟩
          rw [Function.update_self]
          exact Nat.lt_succ_self _
        · exact hold _ c hc
      · rw [Function.update_of_ne hl] at hc
        exact hold l c hc
    · have hsame : s.step k calls (.notify i) = s := if_neg hi
      rw [hsame]
      exact h

section Sets

variable (f : Nat → MissionContext) (init : MissionContext)

def contextAfter : List Nat → MissionContext
  | [] => init
  | i :: _ => f i

structure SetInv (s : Pool) : Prop where
  current : s.currentContext = (contextAfter f init s.progress.order).asU8
  change : ∀ later i earlier, s.progress.order = later ++ i :: earlier →
    s.change i = if contextAfter f init earlier ≠ f i then some (contextAfter f init earlier, f i)
      else none

theorem SetInv.step {f : Nat → MissionContext} {init : MissionContext} {k : Nat} {s : Pool}
    (h : s.SetInv f init) (st : PoolStep) :
    (s.step k (fun i => .setContext (f i)) st).SetInv f init := by
  cases st with
  | exchange i =>
    by_cases hi : i ∈ s.progress.order
    · have hsame : s.step k (fun i => .setContext (f i)) (.exchange i) = s := if_pos hi
      rw [hsame]
      exact h
    · rw [step_exchange k _ hi]
      refine ⟨rfl, fun later j earlier horder => ?_⟩
      dsimp only at horder ⊢
      cases later with
      | nil =>
        obtain ⟨rfl, rfl⟩ := List.cons.inj horder
        rw [Function.update_self, exchange, h.current, u8ToContext_asU8]
      | cons a later =>
        obtain ⟨rfl, hrest⟩ := List.cons.inj horder
        have hj : j ∈ s.progress.order := by
          rw [hrest]
          exact List.mem_append_cons_self
        rw [Function.update_of_ne (ne_of_mem_of_not_mem hj hi)]
        exact h.change later j earlier hrest
  | notify i =>
    by_cases hi : i ∈ s.progress.order ∧ s.progress.told i < k
    · rw [step_notify k _ hi]
      exact ⟨h.current, h.change⟩
    · have hsame : s.step k (fun i => .setContext (f i)) (.notify i) = s := if_neg hi
      rw [hsame]
      exact h

theorem setInv_start : (start init).SetInv f init :=
  ⟨rfl, fun later i earlier h => absurd h.symm (by simp [start])⟩

theorem contextAfter_append {c : MissionContext} {calls rest : List Nat} {j : Nat}
    (hcalls : ∀ i ∈ calls, f i = c) (hj : f j = c) :
    contextAfter f init (calls ++ j :: rest) = c := by
  cases calls with
  | nil => exact hj
  | cons i calls => exact hcalls i List.mem_cons_self

end Sets

def detour (between : List Nat) (j x : Nat) : MissionContext :=
  if x ∈ between ∨ x = j then .execution else .standby

section Detour

variable {i j : Nat} {later between before : List Nat}

theorem detour_outside (hn : (later ++ i :: (between ++ j :: before)).Nodup) {x : Nat}
    (hx : x ∈ later ∨ x = i ∨ x ∈ before) : detour between j x = .standby := by
  rw [List.nodup_append, List.nodup_cons, List.nodup_append, List.nodup_cons] at hn
  obtain ⟨-, ⟨hi, -, ⟨hj, -⟩, hbefore⟩, hlater⟩ := hn
  refine if_neg ?_
  rcases hx with hx | rfl | hx
  · rintro (hmem | rfl)
    · exact hlater x hx x (by simp [hmem]) rfl
    · exact hlater x hx x (by simp) rfl
  · rintro (hmem | rfl)
    · exact hi (by simp [hmem])
    · exact hi (by simp)
  · rintro (hmem | rfl)
    · exact hbefore x hmem x (by simp [hx]) rfl
    · exact hj hx

theorem detour_unchanged (hn : (later ++ i :: (between ++ j :: before)).Nodup) {x : Nat}
    (hx : x ∈ later ++ i :: (between ++ j :: before)) (hi : x ≠ i) (hj : x ≠ j) :
    ∃ a b, later ++ i :: (between ++ j :: before) = a ++ x :: b ∧
      contextAfter (detour between j) .standby b = detour between j x := by
  have hin : ∀ y ∈ between, detour between j y = .execution := fun y hy => if_pos (Or.inl hy)
  simp only [List.mem_append, List.mem_cons] at hx
  rcases hx with hx | hx | hx | hx | hx
  · obtain ⟨a, b, hlater⟩ := List.append_of_mem hx
    refine ⟨a, b ++ i :: (between ++ j :: before), by rw [hlater]; simp, ?_⟩
    rw [detour_outside hn (Or.inl hx)]
    refine contextAfter_append _ _ (fun y hy => detour_outside hn (Or.inl ?_))
      (detour_outside hn (Or.inr (Or.inl rfl)))
    rw [hlater]
    simp [hy]
  · exact absurd hx hi
  · obtain ⟨a, b, hbetween⟩ := List.append_of_mem hx
    refine ⟨later ++ i :: a, b ++ j :: before, by rw [hbetween]; simp, ?_⟩
    rw [hin x hx]
    refine contextAfter_append _ _ (fun y hy => hin y ?_) (if_pos (Or.inr rfl))
    rw [hbetween]
    simp [hy]
  · exact absurd hx hj
  · obtain ⟨a, b, hbefore⟩ := List.append_of_mem hx
    refine ⟨later ++ i :: (between ++ j :: a), b, by rw [hbefore]; simp, ?_⟩
    rw [detour_outside hn (Or.inr (Or.inr hx))]
    cases b with
    | nil => rfl
    | cons y b =>
      refine detour_outside hn (Or.inr (Or.inr ?_))
      rw [hbefore]
      simp

end Detour

theorem broken_out_of_turn {p : Progress} {j : Nat} {later between before : List Nat}
    (horder : p.order = later ++ i :: (between ++ j :: before)) (hn : p.order.Nodup)
    (hk : p.told i < k) (hle : p.told j ≤ p.told i) {pre : List PoolStep}
    (hp : run (Progress.step k) ⟨[], fun _ => 0⟩ pre = p) :
    ∃ init calls, ¬(run (step k calls) (start init) (pre ++ [.notify i])).Converging k init := by
  -- the earlier call goes over to execution, the call itself back to standby
  refine ⟨.standby, fun x => .setContext (detour between j x), fun hconv => ?_⟩
  rw [run_concat] at hconv
  have hprogress : (run (step k fun x => .setContext (detour between j x)) (start .standby)
      pre).progress = p := (progress_run k _ _ pre).trans hp
  have hset : (run (step k fun x => .setContext (detour between j x)) (start .standby)
      pre).SetInv (detour between j) .standby :=
    run_invariant (SetInv _ _) (fun _ st h => h.step st) (setInv_start _ _) pre
  have htold : (run (step k fun x => .setContext (detour between j x)) (start .standby)
      pre).ToldByCalls :=
    run_invariant ToldByCalls (fun _ st h => h.step st) (fun _ _ h => (by cases h)) pre
  generalize run (step k fun x => .setContext (detour between j x)) (start .standby) pre = s at *
  rw [← hprogress] at horder hn hk hle
  rw [horder] at hn
  -- nobody else changed anything, so the listener has been told nothing yet
  have hempty : s.log (s.progress.told i) = [] := by
    refine List.eq_nil_iff_forall_not_mem.mpr fun c hc => ?_
    obtain ⟨x, hx, hchange, hlt⟩ := htold _ c hc
    have hi : x ≠ i := by
      rintro rfl
      exact Nat.lt_irrefl _ hlt
    have hj : x ≠ j := by
      rintro rfl
      omega
    rw [horder] at hx
    obtain ⟨a, b, hsplit, hsame⟩ := detour_unchanged hn hx hi hj
    rw [hset.change a x b (horder.trans hsplit), if_neg (fun h => h hsame)] at hchange
    cases hchange
  have hcontext : contextAfter (detour between j) .standby (between ++ j :: before) = .execution :=
    contextAfter_append _ _ (fun y hy => if_pos (Or.inl hy)) (if_pos (Or.inr rfl))
  have hchange : s.change i = some (.execution, .standby) := by
    rw [hset.change later i _ horder, hcontext, detour_outside hn (Or.inr (Or.inl rfl))]
    rfl
  have hmem : i ∈ s.progress.order := by
    rw [horder]
    exact List.mem_append_cons_self
  rw [step_notify k _ ⟨hmem, hk⟩] at hconv
  have hchain := (hconv (s.progress.told i) hk).1
  dsimp only at hchain
  rw [Function.update_self, hempty, hchange] at hchain
  exact absurd hchain.1 (by decide)

/-- **Context listeners converge** along a schedule that tells every listener of the changes in the order of
    the exchanges: each is told a chain that ends in the current context. No other schedule does so always.
    -/
theorem listeners_converge (schedule : List PoolStep) :
    (∀ init calls, RunMeets (step k calls) (InTurn k) (start init) schedule →
      ∀ pre, pre <+: schedule → (run (step k calls) (start init) pre).Converging k init) ∧
    ((∀ init calls, ∀ pre, pre <+: schedule →
        (run (step k calls) (start init) pre).Converging k init) →
      ∀ init calls, RunMeets (step k calls) (InTurn k) (start init) schedule) := by
  constructor
  · intro init calls hturn pre hpre
    have hinv : (run (step k calls) (start init) pre).Inv init ∧
        ∀ l, (run (step k calls) (start init) pre).Caught l :=
      runMeets_invariant (fun s : Pool => s.Inv init ∧ ∀ l, s.Caught l)
        (fun s st hturn h => ⟨h.1.step st, fun l => (h.2 l).step k calls h.1 hturn⟩)
        (runMeets_initial hturn hpre) ⟨inv_start init, caught_start init⟩
    exact converging_of_caught k hinv.1 hinv.2
  · intro hall init calls
    rw [runMeets_iff]
    rintro pre st post rfl
    cases st with
    | exchange i => trivial
    | notify i =>
      intro _ hk later earlier horder j hj _
      by_contra hle
      obtain ⟨between, before, rfl⟩ := List.append_of_mem hj
      have hinv : (run (step k calls) (start init) pre).Inv init :=
        run_invariant (Inv init) (fun _ st h => h.step st) (inv_start init) pre
      obtain ⟨init', calls', hbroken⟩ := broken_out_of_turn k horder hinv.nodup hk
        (Nat.not_lt.mp hle) (progress_run k calls (start init) pre).symm
      exact hbroken (hall init' calls' (pre ++ [.notify i]) ⟨post, by simp⟩)

/-- Two threads, one listener, which ends up told "execution" while the context is "egress". -/
theorem listener_told_backwards :
    let calls : Nat → ContextCall := fun i => .setContext (if i = 0 then .execution else .egress)
    let s := run (step 1 calls) (start .standby) [.exchange 0, .exchange 1, .notify 1, .notify 0]
    s.log 0 = [(.standby, .execution), (.execution, .egress)] ∧
    s.progress.told 0 = 1 ∧ s.progress.told 1 = 1 ∧
    lastTold .standby (s.log 0) = .execution ∧ u8ToContext s.currentContext = .egress := by
  decide

end Pool

end Peat.Qos
