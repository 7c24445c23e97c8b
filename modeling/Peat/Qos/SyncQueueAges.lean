/-
  THE OLDEST ITEM of the priority sync queue (qos/sync_queue.rs): `oldest_item_age`
  looks at the front of each queue only.

  That is right while every queue is ordered by time. `apply_aging` appends what it
  promotes behind what is there, and a promoted item is an old one.
-/
import Peat.Qos.SyncQueueAging
import Peat.Qos.SyncQueueBatches

namespace Peat.Qos

open Peat.Lib

namespace PrioritySyncQueue

/-! ## 1. The front of each queue -/

def oldestItemAge (q : PrioritySyncQueue) (now : Nat) : Option Nat :=
  ((QoSClass.allByPriority.filterMap fun c => (q.queues c).head?).map
    fun sync => sync.queueDuration now).max?

def greatestAge (q : PrioritySyncQueue) (now : Nat) : Option Nat :=
  (q.items.map fun sync => sync.queueDuration now).max?

def InOrder (l : List PendingSync) : Prop := l.Pairwise fun x y => x.queuedAt ≤ y.queuedAt

def Ordered (q : PrioritySyncQueue) : Prop := ∀ c, InOrder (q.queues c)

theorem queueDuration_le {x y : PendingSync} (h : x.queuedAt ≤ y.queuedAt) (now : Nat) :
    y.queueDuration now ≤ x.queueDuration now := by
  unfold PendingSync.queueDuration
  omega

theorem exists_front_of_inOrder {l : List PendingSync} (h : InOrder l) {x : PendingSync} (hx : x ∈ l)
    (now : Nat) : ∃ front, l.head? = some front ∧
      x.queueDuration now ≤ front.queueDuration now := by
  cases l with
  | nil => cases hx
  | cons front rest =>
    refine ⟨front, rfl, ?_⟩
    rcases List.mem_cons.mp hx with e | hrest
    · rw [e]
    · exact queueDuration_le ((List.pairwise_cons.mp h).1 x hrest) now

theorem oldestItemAge_of_ordered {q : PrioritySyncQueue} (h : q.Ordered) (now : Nat) :
    q.oldestItemAge now = q.greatestAge now := by
  unfold oldestItemAge greatestAge
  cases hmax : (q.items.map fun sync => sync.queueDuration now).max? with
  | none =>
    have hnil : q.items = [] := List.map_eq_nil_iff.mp (List.max?_eq_none_iff.mp hmax)
    have hlanes := Lanes.items_eq_nil.mp hnil
    rw [List.max?_eq_none_iff, List.map_eq_nil_iff, List.filterMap_eq_nil_iff]
    intro c hc
    rw [hlanes c hc]
    rfl
  | some a =>
    obtain ⟨hmem, hbound⟩ := List.max?_eq_some_iff.mp hmax
    have hage : ∀ x ∈ q.items, x.queueDuration now ≤ a := fun x hx =>
      hbound _ (List.mem_map_of_mem hx)
    have hfronts : ∀ c ∈ QoSClass.allByPriority, ∀ x, (q.queues c).head? = some x → x ∈ q.items :=
      fun c hc x hhead => Lanes.mem_items.mpr ⟨c, hc, List.mem_of_head? hhead⟩
    refine List.max?_eq_some_iff.mpr ⟨?_, fun b hb => ?_⟩
    · -- the item of age `a` has one in front of it that is at least as old
      obtain ⟨x, hx, hxa⟩ := List.mem_map.mp hmem
      obtain ⟨c, hc, hxc⟩ := Lanes.mem_items.mp hx
      obtain ⟨front, hhead, hle⟩ := exists_front_of_inOrder (h c) hxc now
      refine List.mem_map.mpr ⟨front, List.mem_filterMap.mpr ⟨c, hc, hhead⟩, ?_⟩
      exact Nat.le_antisymm (hage front (hfronts c hc front hhead)) (hxa ▸ hle)
    · obtain ⟨x, hx, rfl⟩ := List.mem_map.mp hb
      obtain ⟨c, hc, hhead⟩ := List.mem_filterMap.mp hx
      exact hage x (hfronts c hc x hhead)

/-! ## 2. Taking items away -/

def Shrinks (q q' : PrioritySyncQueue) : Prop := ∀ c, (q'.queues c).Sublist (q.queues c)

variable {q q₁ q₂ : PrioritySyncQueue}

theorem Shrinks.trans (h : Shrinks q q₁) (h' : Shrinks q₁ q₂) : Shrinks q q₂ := fun c =>
  (h' c).trans (h c)

theorem Shrinks.ordered (h : Shrinks q q₁) (ho : q.Ordered) : q₁.Ordered := fun c =>
  (ho c).sublist (h c)

theorem shrinks_refl (q : PrioritySyncQueue) : Shrinks q q := fun _ => List.Sublist.refl _

theorem shrinks_dequeueHighest (q : PrioritySyncQueue) : Shrinks q q.dequeueHighest.2 := by
  unfold dequeueHighest
  cases h : Lanes.popFirst QoSClass.allByPriority q.queues with
  | none => exact shrinks_refl q
  | some p => exact Lanes.popFirst_lane h

theorem shrinks_dequeueBatch (n : Nat) (q : PrioritySyncQueue) :
    Shrinks q (q.dequeueBatch n).2 := by
  induction n generalizing q with
  | zero => exact shrinks_refl q
  | succ n ih =>
    have hfirst := shrinks_dequeueHighest q
    unfold dequeueBatch
    rcases h : q.dequeueHighest with ⟨_ | sync, q'⟩
    · rw [h] at hfirst
      exact hfirst
    · rw [h] at hfirst
      exact hfirst.trans (ih q')

theorem shrinks_dequeueBytes (q : PrioritySyncQueue) (maxBytes : Nat) :
    Shrinks q (q.dequeueBytes maxBytes).2 := by
  have h := (q.dequeueBytes_spec maxBytes).served
  have hbatch := shrinks_dequeueBatch (q.dequeueBytes maxBytes).1.length q
  rwa [h] at hbatch

theorem shrinks_drainClass (q : PrioritySyncQueue) (c : QoSClass) :
    Shrinks q (q.drainClass c).2 := by
  intro d
  show (Function.update q.queues c [] d).Sublist (q.queues d)
  by_cases e : d = c
  · rw [e, Function.update_self]
    exact List.nil_sublist _
  · rw [Function.update_of_ne e]

theorem shrinks_removeStale (q : PrioritySyncQueue) (maxAge : Nat) (clock : QoSClass → Nat → Nat) :
    Shrinks q (q.removeStale maxAge clock).2 := fun _ => kept_sublist _ _

theorem shrinks_clear (q : PrioritySyncQueue) : Shrinks q q.clear := fun _ => List.nil_sublist _

/-! ## 3. Promotions -/

def raised (bulkClock : Nat → Nat × Nat) (q : PrioritySyncQueue) : List PendingSync :=
  (removed (fun k sync => !promotes .low (bulkClock k) sync) (q.queues .bulk)).map
    (PendingSync.setClass .low)

def staysLow (lowClock : Nat → Nat × Nat) (k : Nat) (sync : PendingSync) : Bool :=
  !promotes .normal (lowClock k) sync

/-- **No item is promoted behind a younger one**: a raised P5 item is not older than the P4 items it stands
    behind, and what comes to P3 not older than what is there. -/
structure AgingInOrder (bulkClock lowClock : Nat → Nat × Nat) (q : PrioritySyncQueue) : Prop where
  stay : ∀ x ∈ kept (staysLow lowClock) (q.queues .low),
    ∀ y ∈ kept (fun k => staysLow lowClock ((q.queues .low).length + k)) (q.raised bulkClock),
      x.queuedAt ≤ y.queuedAt
  leave : ∀ x ∈ removed (staysLow lowClock) (q.queues .low),
    ∀ y ∈ removed (fun k => staysLow lowClock ((q.queues .low).length + k)) (q.raised bulkClock),
      x.queuedAt ≤ y.queuedAt
  join : ∀ x ∈ q.queues .normal,
    ∀ y ∈ removed (staysLow lowClock) (q.queues .low ++ q.raised bulkClock),
      x.queuedAt ≤ y.queuedAt

theorem applyAging_lane (bulkClock lowClock : Nat → Nat × Nat) (q : PrioritySyncQueue)
    (c : QoSClass) :
    (q.applyAging bulkClock lowClock).2.queues c =
      match c with
      | .bulk => kept (fun k sync => !promotes .low (bulkClock k) sync) (q.queues .bulk)
      | .low => kept (staysLow lowClock) (q.queues .low ++ q.raised bulkClock)
      | .normal => q.queues .normal ++
          (removed (staysLow lowClock) (q.queues .low ++ q.raised bulkClock)).map
            (PendingSync.setClass .normal)
      | other => q.queues other := by
  have hlow : (q.promotePass .bulk .low bulkClock).2.queues .low =
      q.queues .low ++ q.raised bulkClock := by
    rw [promotePass_queues, Function.update_self]
    rfl
  have hlane : ∀ d, d ≠ .low → (q.promotePass .bulk .low bulkClock).2.queues d =
      Function.update q.queues .bulk
        (kept (fun k sync => !promotes .low (bulkClock k) sync) (q.queues .bulk)) d := by
    intro d hd
    rw [promotePass_queues, Function.update_of_ne hd]
  rw [applyAging_queues, promotePass_queues, hlow]
  cases c with
  | normal =>
    rw [Function.update_self, Function.update_of_ne (by decide), hlane _ (by decide)]
    rfl
  | low => rfl
  | bulk => exact hlane .bulk (by decide)
  | high => exact hlane .high (by decide)
  | critical => exact hlane .critical (by decide)

theorem inOrder_setClass {c : QoSClass} {l : List PendingSync} :
    InOrder (l.map (PendingSync.setClass c)) ↔ InOrder l := List.pairwise_map

theorem ordered_applyAging_iff (bulkClock lowClock : Nat → Nat × Nat) {q : PrioritySyncQueue}
    (ho : q.Ordered) :
    (q.applyAging bulkClock lowClock).2.Ordered ↔ AgingInOrder bulkClock lowClock q := by
  have hraised : InOrder (q.raised bulkClock) :=
    inOrder_setClass.mpr (List.Pairwise.sublist (removed_sublist _ _) (ho .bulk))
  have hkept : ∀ {keep : Nat → PendingSync → Bool} {l}, InOrder l → InOrder (kept keep l) :=
    fun h => List.Pairwise.sublist (kept_sublist _ _) h
  have hremoved : ∀ {keep : Nat → PendingSync → Bool} {l}, InOrder l → InOrder (removed keep l) :=
    fun h => List.Pairwise.sublist (removed_sublist _ _) h
  constructor
  · intro h
    have hlow := h .low
    have hnormal := h .normal
    rw [applyAging_lane] at hlow hnormal
    dsimp only at hlow hnormal
    rw [kept_append] at hlow
    obtain ⟨_, hgo, hjoin⟩ := List.pairwise_append.mp hnormal
    have hgo' := inOrder_setClass.mp hgo
    rw [removed_append] at hgo'
    refine ⟨(List.pairwise_append.mp hlow).2.2, (List.pairwise_append.mp hgo').2.2, ?_⟩
    intro x hx y hy
    exact hjoin x hx (y.setClass .normal) (List.mem_map_of_mem hy)
  · intro h c
    rw [applyAging_lane]
    cases c with
    | critical => exact ho .critical
    | high => exact ho .high
    | normal =>
      have hgo : InOrder (removed (staysLow lowClock) (q.queues .low ++ q.raised bulkClock)) := by
        rw [removed_append]
        exact List.pairwise_append.mpr ⟨hremoved (ho .low), hremoved hraised, h.leave⟩
      refine List.pairwise_append.mpr ⟨ho .normal, inOrder_setClass.mpr hgo, fun x hx y hy => ?_⟩
      obtain ⟨z, hz, rfl⟩ := List.mem_map.mp hy
      exact h.join x hx z hz
    | low =>
      show InOrder (kept (staysLow lowClock) (q.queues .low ++ q.raised bulkClock))
      rw [kept_append]
      exact List.pairwise_append.mpr ⟨hkept (ho .low), hkept hraised, h.stay⟩
    | bulk => exact hkept (ho .bulk)

end PrioritySyncQueue

/-! ## 4. Runs -/

namespace SyncJournal

open PrioritySyncQueue

/-- Entries come in the order of their times. -/
def Fresh (j : SyncJournal) : Op → Prop
  | .enqueue sync => ∀ x ∈ j.accepted, x.queuedAt ≤ sync.queuedAt
  | _ => True

/-- Aging finds the times of its two clocks in order. -/
def AgesInOrder (j : SyncJournal) : Op → Prop
  | .applyAging bulkClock lowClock => AgingInOrder bulkClock lowClock j.queue
  | _ => True

variable {maxBytes : Fin usizeSize} {j : SyncJournal}

theorem Inv.queuedAt (h : Inv maxBytes j) {x : PendingSync} (hx : x ∈ j.queue.items) :
    ∃ y ∈ j.accepted, y.queuedAt = x.queuedAt := by
  have hmem : x ∈ (↑(j.queue.items ++ j.left) : Multiset PendingSync) :=
    Multiset.mem_coe.mpr (List.mem_append_left _ hx)
  obtain ⟨y, hy, haged⟩ := Multiset.exists_mem_of_rel_of_mem (Multiset.rel_flip.mpr h.conserved) hmem
  refine ⟨y, Multiset.mem_coe.mp hy, ?_⟩
  have hsame : Aged y x := haged
  rw [hsame.same]

theorem ordered_accept (h : Inv maxBytes j) (ho : j.queue.Ordered) {sync : PendingSync}
    (hfresh : ∀ x ∈ j.accepted, x.queuedAt ≤ sync.queuedAt) : (j.queue.accept sync).Ordered := by
  intro c
  show InOrder (Lanes.pushBack j.queue.queues sync.qosClass sync c)
  rw [Lanes.pushBack_apply]
  by_cases hc : c = sync.qosClass
  · rw [if_pos hc]
    refine List.pairwise_append.mpr ⟨ho c, List.pairwise_singleton _ _, fun x hx y hy => ?_⟩
    obtain ⟨z, hz, e⟩ := h.queuedAt (Lanes.mem_items.mpr ⟨c, QoSClass.mem_allByPriority c, hx⟩)
    rw [List.mem_singleton.mp hy, ← e]
    exact hfresh z hz
  · rw [if_neg hc]
    exact ho c

theorem ordered_step_iff (h : Inv maxBytes j) (ho : j.queue.Ordered) {op : Op} (hf : j.Fresh op) :
    (j.step op).queue.Ordered ↔ j.AgesInOrder op := by
  cases op with
  | applyAging b l => exact ordered_applyAging_iff b l ho
  | enqueue sync =>
    refine iff_of_true ?_ trivial
    rcases enqueue_cases j.queue sync with he | ⟨_, he⟩
    · simp only [step, he]
      exact ho
    · simp only [step, he]
      exact ordered_accept h ho hf
  | dequeueHighest => exact iff_of_true ((shrinks_dequeueHighest _).ordered ho) trivial
  | dequeueBatch n => exact iff_of_true ((shrinks_dequeueBatch n _).ordered ho) trivial
  | dequeueBytes n => exact iff_of_true ((shrinks_dequeueBytes _ n).ordered ho) trivial
  | drainClass c => exact iff_of_true ((shrinks_drainClass _ c).ordered ho) trivial
  | removeStale a t => exact iff_of_true ((shrinks_removeStale _ a t).ordered ho) trivial
  | clear => exact iff_of_true ((shrinks_clear _).ordered ho) trivial

theorem ordered_run_iff {ops : List Op} (hfresh : RunMeets step Fresh (start maxBytes) ops) :
    (∀ pre, pre <+: ops → (run step (start maxBytes) pre).queue.Ordered) ↔
      RunMeets step AgesInOrder (start maxBytes) ops :=
  run_within_iff_of_meets (Inv maxBytes) (fun j : SyncJournal => j.queue.Ordered)
    (fun _ op _ h => h.step op) (fun _ _ hf h ho => ordered_step_iff h ho hf) hfresh
    (inv_start maxBytes) (fun _ => List.Pairwise.nil)

/-- **The oldest item over a run**: with fresh items and no promotion behind a younger item,
    `oldest_item_age` is the greatest age of all queued items. -/
theorem oldestItemAge_run {ops : List Op} (hfresh : RunMeets step Fresh (start maxBytes) ops)
    (hages : RunMeets step AgesInOrder (start maxBytes) ops) :
    ∀ pre, pre <+: ops → ∀ now, (run step (start maxBytes) pre).queue.oldestItemAge now =
      (run step (start maxBytes) pre).queue.greatestAge now := by
  intro pre hpre now
  exact oldestItemAge_of_ordered ((ordered_run_iff hfresh).mpr hages pre hpre) now

def update : PendingSync := ⟨[1], .bulk, .modelUpdate, 0, 1⟩

def heartbeat : PendingSync := ⟨[2], .low, .heartbeat, 3600000000000, 1⟩

def ageAfterAnHour : Op :=
  .applyAging (fun _ => (3600000000000, 3600000000000)) fun _ => (3600000000000, 3600000000000)

/-- Aging finds P4 empty; the heartbeat comes later. -/
theorem oldestItemAge_run_promoted_first :
    RunMeets step Fresh (start ⟨100, by decide⟩)
        [.enqueue update, ageAfterAnHour, .enqueue heartbeat] ∧
      RunMeets step AgesInOrder (start ⟨100, by decide⟩)
        [.enqueue update, ageAfterAnHour, .enqueue heartbeat] ∧
      (run step (start ⟨100, by decide⟩)
        [.enqueue update, ageAfterAnHour, .enqueue heartbeat]).queue.oldestItemAge
          3600000000000 = some 3600000000000 := by
  have hfresh : RunMeets step Fresh (start ⟨100, by decide⟩)
      [.enqueue update, ageAfterAnHour, .enqueue heartbeat] :=
    ⟨fun _ hx => absurd hx List.not_mem_nil, trivial, fun x hx => by
      rw [List.mem_singleton.mp hx]
      decide, trivial⟩
  have hages : RunMeets step AgesInOrder (start ⟨100, by decide⟩)
      [.enqueue update, ageAfterAnHour, .enqueue heartbeat] :=
    ⟨trivial, ⟨fun _ hx => absurd hx List.not_mem_nil, fun _ hx => absurd hx List.not_mem_nil,
      fun _ hx => absurd hx List.not_mem_nil⟩, trivial, trivial⟩
  refine ⟨hfresh, hages, ?_⟩
  rw [oldestItemAge_run hfresh hages _ (List.prefix_refl _)]
  decide +kernel

/-- The front of P4 has age zero, the model update promoted behind it an hour. -/
theorem oldestItemAge_misses_promoted :
    RunMeets step Fresh (start ⟨100, by decide⟩)
        [.enqueue update, .enqueue heartbeat, ageAfterAnHour] ∧
      (run step (start ⟨100, by decide⟩)
        [.enqueue update, .enqueue heartbeat, ageAfterAnHour]).queue.oldestItemAge
          3600000000000 = some 0 ∧
      (run step (start ⟨100, by decide⟩)
        [.enqueue update, .enqueue heartbeat, ageAfterAnHour]).queue.greatestAge
          3600000000000 = some 3600000000000 := by
  refine ⟨⟨fun _ hx => absurd hx List.not_mem_nil, fun x hx => ?_, trivial, trivial⟩,
    by decide +kernel, by decide +kernel⟩
  rw [List.mem_singleton.mp hx]
  decide

end SyncJournal

end Peat.Qos
