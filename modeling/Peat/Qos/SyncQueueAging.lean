/-
  WHAT `apply_aging` DOES AT ONE TIME (qos/sync_queue.rs): every clock reading of the
  call is the same `t`.
-/
import Peat.Qos.SyncQueue

namespace Peat.Qos

open Peat.Lib

/-! ## 1. One item -/

namespace PendingSync

def age (t : Nat) (x : PendingSync) : PendingSync := x.setClass (x.effectiveClass t)

def settled (t : Nat) (x : PendingSync) : PendingSync := (age t)^[2] x

def steps (t : Nat) (x : PendingSync) : Nat :=
  (if x.shouldPromote t then 1 else 0) + if (x.age t).shouldPromote t then 1 else 0

def ageFrom (src : QoSClass) (t : Nat) (x : PendingSync) : PendingSync :=
  if x.qosClass = src then x.age t else x

variable {x : PendingSync}

variable {t : Nat}

theorem age_eq_self_iff : x.age t = x ↔ x.effectiveClass t = x.qosClass := by
  constructor
  · intro h
    exact congrArg PendingSync.qosClass h
  · intro h
    unfold age setClass
    rw [h]

theorem shouldPromote_iff : x.shouldPromote t = true ↔ x.age t ≠ x := by
  unfold shouldPromote
  rw [bne_iff_ne, Ne, Ne, age_eq_self_iff]

theorem age_cases (t : Nat) (x : PendingSync) :
    x.age t = x ∨
    (x.qosClass = .bulk ∧ 1 ≤ x.adjustedHours t ∧ x.age t = x.setClass .low) ∨
    (x.qosClass = .low ∧ 2 ≤ x.adjustedHours t ∧ x.age t = x.setClass .normal) := by
  cases hc : x.qosClass with
  | critical => exact .inl (age_eq_self_iff.mpr (by unfold effectiveClass; rw [hc]))
  | high => exact .inl (age_eq_self_iff.mpr (by unfold effectiveClass; rw [hc]))
  | normal => exact .inl (age_eq_self_iff.mpr (by unfold effectiveClass; rw [hc]))
  | low =>
    have heff : x.effectiveClass t = if 2 ≤ x.adjustedHours t then .normal else .low := by
      unfold effectiveClass
      rw [hc]
    by_cases h : 2 ≤ x.adjustedHours t
    · rw [if_pos h] at heff
      exact .inr (.inr ⟨rfl, h, by rw [age, heff]⟩)
    · rw [if_neg h] at heff
      exact .inl (age_eq_self_iff.mpr (heff.trans hc.symm))
  | bulk =>
    have heff : x.effectiveClass t = if 1 ≤ x.adjustedHours t then .low else .bulk := by
      unfold effectiveClass
      rw [hc]
    by_cases h : 1 ≤ x.adjustedHours t
    · rw [if_pos h] at heff
      exact .inr (.inl ⟨rfl, h, by rw [age, heff]⟩)
    · rw [if_neg h] at heff
      exact .inl (age_eq_self_iff.mpr (heff.trans hc.symm))

theorem age_eq_self (hb : x.qosClass ≠ .bulk) (hl : x.qosClass ≠ .low) : x.age t = x := by
  rcases age_cases t x with h | ⟨h, _⟩ | ⟨h, _⟩
  · exact h
  · exact absurd h hb
  · exact absurd h hl

theorem age_settled (t : Nat) (x : PendingSync) : (x.settled t).age t = x.settled t := by
  show ((x.age t).age t).age t = (x.age t).age t
  rcases age_cases t x with h | ⟨_, _, h⟩ | ⟨_, _, h⟩
  · rw [h, h, h]
  · rcases age_cases t (x.age t) with h' | ⟨hc, _⟩ | ⟨_, _, h'⟩
    · rw [h', h']
    · rw [h] at hc
      nomatch hc
    · rw [h']
      exact age_eq_self nofun nofun
  · rw [h, age_eq_self (x := x.setClass .normal) nofun nofun]
    exact age_eq_self nofun nofun

theorem ageFrom_low_bulk (t : Nat) (x : PendingSync) :
    (x.ageFrom .bulk t).ageFrom .low t = x.settled t := by
  show _ = (x.age t).age t
  unfold ageFrom
  by_cases hb : x.qosClass = .bulk
  · rw [if_pos hb]
    by_cases hl : (x.age t).qosClass = .low
    · rw [if_pos hl]
    · rw [if_neg hl]
      rcases age_cases t x with h | ⟨_, _, h⟩ | ⟨hlow, _⟩
      · rw [h, h]
      · rw [h] at hl
        exact absurd rfl hl
      · rw [hb] at hlow
        nomatch hlow
  · rw [if_neg hb]
    by_cases hl : x.qosClass = .low
    · rw [if_pos hl]
      rcases age_cases t x with h | ⟨hbulk, _⟩ | ⟨_, _, h⟩
      · rw [h, h]
      · exact absurd hbulk hb
      · rw [h, age_eq_self (x := x.setClass .normal) nofun nofun]
    · rw [if_neg hl, age_eq_self hb hl, age_eq_self hb hl]

theorem ageFrom_fixed_iff :
    (x.ageFrom .bulk t).ageFrom .low t = x ↔ x.ageFrom .bulk t = x ∧ x.ageFrom .low t = x := by
  constructor
  · intro h
    have hbulk : x.ageFrom .bulk t = x := by
      unfold ageFrom at h ⊢
      by_cases hb : x.qosClass = .bulk
      · rw [if_pos hb] at h ⊢
        rcases age_cases t x with hx | ⟨_, _, hx⟩ | ⟨hlow, _⟩
        · exact hx
        · -- a promoted item would have to come back to P5
          have hlow : (x.setClass .low).qosClass = .low := rfl
          rw [hx, if_pos hlow] at h
          have hclass := congrArg PendingSync.qosClass h
          rw [hb] at hclass
          rcases age_cases t (x.setClass .low) with hy | ⟨hy, _⟩ | ⟨_, _, hy⟩
          · rw [hy] at hclass
            nomatch hclass
          · nomatch hy
          · rw [hy] at hclass
            nomatch hclass
        · rw [hb] at hlow
          nomatch hlow
      · rw [if_neg hb]
    rw [hbulk] at h
    exact ⟨hbulk, h⟩
  · intro ⟨hbulk, hlow⟩
    rw [hbulk, hlow]

end PendingSync

/-! ## 2. One pass -/

namespace PrioritySyncQueue

open PendingSync

inductive Rises : QoSClass → QoSClass → Prop
  | bulk : Rises .bulk .low
  | low : Rises .low .normal

variable {src dst : QoSClass} {t : Nat} {q q₁ q₂ : PrioritySyncQueue}

theorem Rises.ne (h : Rises src dst) : dst ≠ src := by
  cases h <;> nofun

variable {x : PendingSync}

theorem Rises.age_eq (h : Rises src dst) (hx : x.qosClass = src) (hage : x.age t ≠ x) :
    x.age t = x.setClass dst := by
  rcases age_cases t x with e | ⟨hc, _, e⟩ | ⟨hc, _, e⟩
  · exact absurd e hage
  · rw [hc] at hx
    cases h with
    | bulk => exact e
    | low => nomatch hx
  · rw [hc] at hx
    cases h with
    | bulk => nomatch hx
    | low => exact e

theorem Rises.promotes_iff (h : Rises src dst) (hx : x.qosClass = src) :
    promotes dst (t, t) x = true ↔ x.age t ≠ x := by
  unfold promotes
  rw [Bool.and_eq_true, shouldPromote_iff, beq_iff_eq]
  constructor
  · intro hboth
    exact hboth.1
  · intro hage
    exact ⟨hage, congrArg PendingSync.qosClass (h.age_eq hx hage)⟩

/-- **The queue after `f`**: every item is replaced by its image; in each lane the items that `f`
    leaves alone stand in front in their order, and behind them those that `f` changed. -/
structure AgedBy (f : PendingSync → PendingSync) (q q' : PrioritySyncQueue) : Prop where
  items : q'.items.Perm (q.items.map f)
  lanes : ∀ c, ∃ new, q'.queues c = (q.queues c).filter (fun x => f x = x) ++ new ∧
    ∀ y ∈ new, ∃ x ∈ q.items, y = f x ∧ y ≠ x

theorem AgedBy.trans {f g : PendingSync → PendingSync} (h : AgedBy f q q₁) (h' : AgedBy g q₁ q₂)
    (hfix : ∀ x, g (f x) = x ↔ f x = x ∧ g x = x) : AgedBy (fun x => g (f x)) q q₂ := by
  refine ⟨?_, fun c => ?_⟩
  · have hmap := h.items.map g
    rw [List.map_map] at hmap
    exact h'.items.trans hmap
  · obtain ⟨new, hlane, hnew⟩ := h.lanes c
    obtain ⟨new', hlane', hnew'⟩ := h'.lanes c
    refine ⟨new.filter (fun x => g x = x) ++ new', ?_, fun y hy => ?_⟩
    · have hfilter : (fun x => decide (f x = x) && decide (g x = x)) = fun x =>
          decide (g (f x) = x) := by
        funext x
        rw [← Bool.decide_and, decide_eq_decide.mpr (hfix x)]
      rw [hlane', hlane, List.filter_append, List.filter_filter, List.append_assoc, ← hfilter]
      simp only [Bool.and_comm]
    · rcases List.mem_append.mp hy with hy | hy
      · obtain ⟨hmem, hg⟩ := List.mem_filter.mp hy
        obtain ⟨x, hx, e, hne⟩ := hnew y hmem
        refine ⟨x, hx, ?_, hne⟩
        rw [← e]
        exact (of_decide_eq_true hg).symm
      · obtain ⟨z, hz, e, hne⟩ := hnew' y hy
        obtain ⟨x, hx, rfl⟩ := List.mem_map.mp (h.items.mem_iff.mp hz)
        refine ⟨x, hx, e, fun hyx => hne ?_⟩
        obtain ⟨hf, hg⟩ := (hfix x).mp (e.symm.trans hyx)
        rw [e, hf, hg]

theorem promotePass_queues (src dst : QoSClass) (clock : Nat → Nat × Nat) (q : PrioritySyncQueue) :
    (q.promotePass src dst clock).2.queues =
      Function.update (Function.update q.queues src
          (kept (fun k sync => !promotes dst (clock k) sync) (q.queues src))) dst
        (Function.update q.queues src
            (kept (fun k sync => !promotes dst (clock k) sync) (q.queues src)) dst ++
          (removed (fun k sync => !promotes dst (clock k) sync) (q.queues src)).map
            (setClass dst)) :=
  Lanes.foldl_pushBack _ _ _ _

theorem promotePass_at_queues (src dst : QoSClass) (t : Nat) (q : PrioritySyncQueue) :
    (q.promotePass src dst fun _ => (t, t)).2.queues =
      Function.update (Function.update q.queues src
          ((q.queues src).filter fun x => !promotes dst (t, t) x)) dst
        (Function.update q.queues src ((q.queues src).filter fun x => !promotes dst (t, t) x) dst ++
          ((q.queues src).filter (promotes dst (t, t))).map (setClass dst)) := by
  rw [promotePass_queues, kept_const, removed_const]
  simp only [Bool.not_not]

theorem promotePass_at_count (src dst : QoSClass) (t : Nat) (q : PrioritySyncQueue) :
    (q.promotePass src dst fun _ => (t, t)).1 =
      ((q.queues src).filter (promotes dst (t, t))).length := by
  unfold promotePass
  dsimp only
  rw [removed_const]
  simp only [Bool.not_not]

variable {c : QoSClass}

theorem mem_items (hx : x ∈ q.queues c) : x ∈ q.items :=
  Lanes.mem_items.mpr ⟨c, QoSClass.mem_allByPriority c, hx⟩

theorem Sorted.ageFrom_eq_self (hs : q.Sorted) (hc : c ≠ src) (hx : x ∈ q.queues c) :
    x.ageFrom src t = x :=
  if_neg fun hsrc => hc ((hs c x hx).symm.trans hsrc)

theorem Sorted.filter_ageFrom (hs : q.Sorted) (hc : c ≠ src) (t : Nat) :
    (q.queues c).filter (fun x => x.ageFrom src t = x) = q.queues c := by
  refine List.filter_eq_self.mpr fun x hx => ?_
  exact decide_eq_true (hs.ageFrom_eq_self hc hx)

theorem Rises.ageFrom_eq_self_iff (h : Rises src dst) (hs : q.Sorted) (hx : x ∈ q.queues src) :
    x.ageFrom src t = x ↔ promotes dst (t, t) x = false := by
  have hclass := hs src x hx
  rw [ageFrom, if_pos hclass, ← Bool.not_eq_true, h.promotes_iff hclass, not_not]

theorem Rises.ageFrom_eq (h : Rises src dst) (hs : q.Sorted) (hx : x ∈ q.queues src)
    (hp : promotes dst (t, t) x = true) : x.ageFrom src t = x.setClass dst := by
  have hclass := hs src x hx
  rw [ageFrom, if_pos hclass]
  exact h.age_eq hclass ((h.promotes_iff hclass).mp hp)

theorem promotePass_split (h : Rises src dst) (hs : q.Sorted) (t : Nat) :
    ∃ go rest, q.items.Perm (go ++ rest) ∧
      (q.promotePass src dst fun _ => (t, t)).2.items.Perm (go.map (ageFrom src t) ++ rest) ∧
      (∀ x ∈ go, x.ageFrom src t ≠ x) ∧ (∀ x ∈ rest, x.ageFrom src t = x) ∧
      (q.promotePass src dst fun _ => (t, t)).1 = go.length := by
  let stay := (q.queues src).filter fun x => !promotes dst (t, t) x
  let go := (q.queues src).filter (promotes dst (t, t))
  have hgo : ∀ x ∈ go, x ∈ q.queues src ∧ promotes dst (t, t) x = true := fun x hx =>
    List.mem_filter.mp hx
  refine ⟨go, Lanes.items QoSClass.allByPriority (Function.update q.queues src stay), ?_, ?_,
    fun x hx => ?_, fun x hx => ?_, promotePass_at_count src dst t q⟩
  · refine Lanes.items_split QoSClass.nodup_allByPriority (QoSClass.mem_allByPriority src) ?_
    exact (List.filter_append_perm _ _).symm
  · have hmap : go.map (ageFrom src t) = go.map (setClass dst) := by
      refine List.map_congr_left fun x hx => ?_
      exact h.ageFrom_eq hs (hgo x hx).1 (hgo x hx).2
    unfold items
    rw [promotePass_at_queues, hmap]
    exact Lanes.items_append QoSClass.nodup_allByPriority (QoSClass.mem_allByPriority dst) _
  · intro e
    rw [h.ageFrom_eq_self_iff hs (hgo x hx).1, (hgo x hx).2] at e
    nomatch e
  · obtain ⟨c, _, hc⟩ := Lanes.mem_items.mp hx
    by_cases e : c = src
    · rw [e, Function.update_self] at hc
      obtain ⟨hmem, hp⟩ := List.mem_filter.mp hc
      exact (h.ageFrom_eq_self_iff hs hmem).mpr (Bool.not_eq_true' _ ▸ hp)
    · rw [Function.update_of_ne e] at hc
      exact hs.ageFrom_eq_self e hc

theorem promotePass_agedBy (h : Rises src dst) (hs : q.Sorted) (t : Nat) :
    AgedBy (ageFrom src t) q (q.promotePass src dst fun _ => (t, t)).2 := by
  refine ⟨?_, fun c => ?_⟩
  · obtain ⟨go, rest, hold, hnew, _, hrest, _⟩ := promotePass_split h hs t
    have hid : rest.map (ageFrom src t) = rest :=
      (List.map_congr_left hrest).trans (List.map_id' rest)
    have hmap := hold.map (ageFrom src t)
    rw [List.map_append, hid] at hmap
    exact hnew.trans hmap.symm
  · rw [promotePass_at_queues]
    by_cases hd : c = dst
    · rw [hd, Function.update_self, Function.update_of_ne h.ne]
      refine ⟨((q.queues src).filter (promotes dst (t, t))).map (setClass dst), ?_, fun y hy => ?_⟩
      · rw [hs.filter_ageFrom h.ne]
      · obtain ⟨x, hx, rfl⟩ := List.mem_map.mp hy
        obtain ⟨hmem, hp⟩ := List.mem_filter.mp hx
        refine ⟨x, mem_items hmem, (h.ageFrom_eq hs hmem hp).symm, fun e => h.ne ?_⟩
        rw [← hs src x hmem, ← e]
        rfl
    · rw [Function.update_of_ne hd]
      refine ⟨[], ?_, nofun⟩
      rw [List.append_nil]
      by_cases hc : c = src
      · rw [hc, Function.update_self]
        refine List.filter_congr fun x hx => ?_
        have hnot : ∀ b : Bool, (!b) = decide (b = false) := by decide
        rw [decide_eq_decide.mpr (h.ageFrom_eq_self_iff hs hx), hnot]
      · rw [Function.update_of_ne hc, hs.filter_ageFrom hc]

theorem promotePass_count (h : Rises src dst) (hs : q.Sorted) (t : Nat) :
    (q.promotePass src dst fun _ => (t, t)).1 = q.items.countP fun x => x.ageFrom src t ≠ x := by
  obtain ⟨go, rest, hold, _, hgo, hrest, hcount⟩ := promotePass_split h hs t
  have hall : go.countP (fun x => x.ageFrom src t ≠ x) = go.length :=
    List.countP_eq_length.mpr fun x hx => decide_eq_true (hgo x hx)
  have hnone : rest.countP (fun x => x.ageFrom src t ≠ x) = 0 :=
    List.countP_eq_zero.mpr fun x hx => by simpa using hrest x hx
  rw [hcount, hold.countP_eq, List.countP_append, hall, hnone]
  rfl

theorem promotePass_of_aged (h : Rises src dst) (hs : q.Sorted)
    (haged : ∀ x ∈ q.items, x.age t = x) : q.promotePass src dst (fun _ => (t, t)) = (0, q) := by
  have hno : ∀ x ∈ q.queues src, promotes dst (t, t) x = false := by
    intro x hx
    rw [← h.ageFrom_eq_self_iff hs hx, ageFrom, if_pos (hs src x hx)]
    exact haged x (mem_items hx)
  have hgo : (q.queues src).filter (promotes dst (t, t)) = [] := by
    refine List.filter_eq_nil_iff.mpr fun x hx => ?_
    rw [hno x hx]
    nofun
  have hstay : ((q.queues src).filter fun x => !promotes dst (t, t) x) = q.queues src := by
    refine List.filter_eq_self.mpr fun x hx => ?_
    rw [hno x hx]
    rfl
  refine Prod.ext ?_ ?_
  · rw [promotePass_at_count, hgo]
    rfl
  · have hqueues := promotePass_at_queues src dst t q
    rw [hgo, hstay, List.map_nil, List.append_nil, Function.update_eq_self,
      Function.update_eq_self] at hqueues
    show { q with queues := (q.promotePass src dst fun _ => (t, t)).2.queues } = q
    rw [hqueues]

/-! ## 3. The call -/

theorem applyAging_count (bulkClock lowClock : Nat → Nat × Nat) (q : PrioritySyncQueue) :
    (q.applyAging bulkClock lowClock).1 = (q.promotePass .bulk .low bulkClock).1 +
      ((q.promotePass .bulk .low bulkClock).2.promotePass .low .normal lowClock).1 := by
  unfold applyAging
  dsimp only
  split <;> rfl

theorem applyAging_queues (bulkClock lowClock : Nat → Nat × Nat) (q : PrioritySyncQueue) :
    (q.applyAging bulkClock lowClock).2.queues =
      ((q.promotePass .bulk .low bulkClock).2.promotePass .low .normal lowClock).2.queues := by
  unfold applyAging
  dsimp only
  split <;> rfl

theorem applyAging_agedBy (hs : q.Sorted) (t : Nat) :
    AgedBy (settled t) q (q.applyAging (fun _ => (t, t)) fun _ => (t, t)).2 := by
  have hbulk := promotePass_agedBy .bulk hs t
  have hs₁ := (promotePass_effect .bulk .low (fun _ => (t, t)) q).sorted hs
  have hboth := hbulk.trans (promotePass_agedBy .low hs₁ t) fun _ => ageFrom_fixed_iff
  simp only [ageFrom_low_bulk] at hboth
  refine ⟨?_, fun c => ?_⟩
  · unfold items
    rw [applyAging_queues]
    exact hboth.items
  · rw [applyAging_queues]
    exact hboth.lanes c

theorem steps_eq (t : Nat) (x : PendingSync) :
    x.steps t = (if x.ageFrom .bulk t ≠ x then 1 else 0) +
      if (x.ageFrom .bulk t).ageFrom .low t ≠ x.ageFrom .bulk t then 1 else 0 := by
  unfold steps
  simp only [shouldPromote_iff]
  by_cases hb : x.qosClass = .bulk
  · have hbulk : x.ageFrom .bulk t = x.age t := if_pos hb
    have hsettled : (x.age t).ageFrom .low t = (x.age t).age t := by
      have h := ageFrom_low_bulk t x
      rwa [hbulk] at h
    rw [hbulk, hsettled]
  · have hbulk : x.ageFrom .bulk t = x := if_neg hb
    have hsettled : x.ageFrom .low t = (x.age t).age t := by
      have h := ageFrom_low_bulk t x
      rwa [hbulk] at h
    rw [hbulk, hsettled, if_neg (not_not.mpr rfl), Nat.zero_add]
    rcases age_cases t x with h | ⟨h, _⟩ | ⟨_, _, h⟩
    · rw [h, h, if_neg (not_not.mpr rfl)]
    · exact absurd h hb
    · rw [h, age_eq_self (x := x.setClass .normal) nofun nofun, if_neg (not_not.mpr rfl),
        Nat.add_zero]

theorem applyAging_steps (hs : q.Sorted) (t : Nat) :
    (q.applyAging (fun _ => (t, t)) fun _ => (t, t)).1 = (q.items.map (steps t)).sum := by
  have hs₁ := (promotePass_effect .bulk .low (fun _ => (t, t)) q).sorted hs
  have hitems := (promotePass_agedBy .bulk hs t).items
  rw [applyAging_count, promotePass_count .bulk hs, promotePass_count .low hs₁,
    hitems.countP_eq, List.countP_map]
  generalize q.items = l
  induction l with
  | nil => rfl
  | cons x l ih =>
    rw [List.countP_cons, List.countP_cons, List.map_cons, List.sum_cons, ← ih, steps_eq]
    simp only [Function.comp, decide_eq_true_eq]
    omega

/-- **`apply_aging` at one time**: the items are the old ones, each settled and in the queue of its class,
    those not promoted first; the count is the number of class steps; a second call does nothing. -/
theorem applyAging_at (hs : q.Sorted) (t : Nat) :
    let r := q.applyAging (fun _ => (t, t)) fun _ => (t, t)
    r.2.items.Perm (q.items.map (settled t)) ∧ r.2.Sorted ∧
      (∀ x : PendingSync, (x.settled t).age t = x.settled t) ∧
      (∀ c, ∃ new, r.2.queues c = (q.queues c).filter (fun x => x.settled t = x) ++ new ∧
        ∀ y ∈ new, ∃ x ∈ q.items, y = x.settled t ∧ y ≠ x) ∧
      r.2.applyAging (fun _ => (t, t)) (fun _ => (t, t)) = (0, r.2) ∧
      r.1 = (q.items.map (steps t)).sum := by
  intro r
  have haged := applyAging_agedBy hs t
  have hsorted : r.2.Sorted := (applyAging_effect _ _ q).sorted hs
  refine ⟨haged.items, hsorted, age_settled t, haged.lanes, ?_, applyAging_steps hs t⟩
  have hall : ∀ y ∈ r.2.items, y.age t = y := by
    intro y hy
    obtain ⟨x, _, rfl⟩ := List.mem_map.mp (haged.items.mem_iff.mp hy)
    exact age_settled t x
  unfold applyAging
  rw [promotePass_of_aged .bulk hsorted hall]
  dsimp only
  rw [promotePass_of_aged .low hsorted hall]
  rfl

def overdue : PrioritySyncQueue :=
  ((new ⟨100, by decide⟩).accept ⟨[1], .bulk, .modelUpdate, 0, 1⟩).accept
    ⟨[2, 3], .low, .heartbeat, 0, 1⟩

theorem sorted_overdue : overdue.Sorted :=
  SyncJournal.sorted_accept (SyncJournal.sorted_accept (fun _ _ hx => absurd hx List.not_mem_nil) _) _

/-- After three hours both are in P3: two class steps and one. -/
theorem applyAging_at_three_hours :
    overdue.Sorted ∧ (overdue.applyAging (fun _ => (10800000000000, 10800000000000))
      fun _ => (10800000000000, 10800000000000)).1 = 3 := by
  refine ⟨sorted_overdue, ?_⟩
  have hsteps := (applyAging_at sorted_overdue 10800000000000).2.2.2.2.2
  rw [hsteps]
  decide +kernel

end PrioritySyncQueue

end Peat.Qos
