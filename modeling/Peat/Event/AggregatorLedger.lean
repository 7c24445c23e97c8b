/-
  THE BOOKS OF THE AGGREGATOR: where every received event went, over every run of
  `receive`, the flushes and the pops.
-/
import Mathlib.Algebra.GroupWithZero.Nat
import Peat.Event.Aggregator

namespace Peat.Event

open Peat.Lib HierarchyAggregator

/-! ## 1. The ledger -/

/-- The aggregator, and the events that went in and out. -/
structure AggregatorLedger where
  aggregator : HierarchyAggregator
  received : List PeatEvent
  passed : List PeatEvent
  returned : List SummaryEvent

namespace AggregatorLedger

inductive Op where
  | registerStrategy (eventType : String) (strategy : SummaryStrategy)
  | receive (event : PeatEvent) (now : Nat)
  | flushExpiredWindows (input : FlushInput)
  | flushAllWindows (input : FlushInput)
  | popPassthrough
  | popSummaries
  | popAll

def start (f : Formats) (tierId : String) (duration : Nat) : AggregatorLedger :=
  ⟨(HierarchyAggregator.new f tierId).withDefaultWindowDuration duration, [], [], []⟩

def take (j : AggregatorLedger) (passed : List PeatEvent) (returned : List SummaryEvent)
    (a : HierarchyAggregator) : AggregatorLedger where
  aggregator := a
  received := j.received
  passed := j.passed ++ passed
  returned := j.returned ++ returned

def step (f : Formats) (j : AggregatorLedger) : Op → AggregatorLedger
  | .registerStrategy eventType strategy =>
    { j with aggregator := j.aggregator.registerStrategy eventType strategy }
  | .receive e now =>
    { j with aggregator := j.aggregator.receive e now, received := j.received ++ [e] }
  | .flushExpiredWindows input =>
    { j with aggregator := (j.aggregator.flushExpiredWindows f input).2 }
  | .flushAllWindows input => { j with aggregator := (j.aggregator.flushAllWindows f input).2 }
  | .popPassthrough => j.take j.aggregator.popPassthrough.1 [] j.aggregator.popPassthrough.2
  | .popSummaries => j.take [] j.aggregator.popSummaries.1 j.aggregator.popSummaries.2
  | .popAll => j.take j.aggregator.popAll.1.1 j.aggregator.popAll.1.2 j.aggregator.popAll.2

def summaries (j : AggregatorLedger) : List SummaryEvent := j.returned ++ j.aggregator.summaryQueue

def popped (j : AggregatorLedger) : List PeatEvent := j.passed ++ j.returned.map SummaryEvent.event

def counted (l : List SummaryEvent) (key : WindowKey) : Nat :=
  ((l.filter fun s => s.summary.key = key).map fun s => s.summary.eventCount).sum

def owed (j : AggregatorLedger) (key : WindowKey) : Nat :=
  j.received.countP fun e => e.propagation = .summary ∧ e.windowKey = key

def account (j : AggregatorLedger) (key : WindowKey) : Nat :=
  counted j.summaries key + j.aggregator.openEvents key

def Balanced (j : AggregatorLedger) : Prop := ∀ key, j.account key = j.owed key

/-- **Conservation of events.** -/
structure Conserved (j : AggregatorLedger) : Prop where
  passthrough : (j.received.filter fun e => e.propagation = .full).Perm
    (j.passed ++ j.aggregator.passthroughQueue.items)
  balanced : j.Balanced
  ids : (j.summaries.map fun s => s.event.eventId).Nodup
  popped : ∀ e ∈ j.popped, e.propagation ≠ .query ∧ e.propagation ≠ .local

def flushedKeys (j : AggregatorLedger) : Op → List WindowKey
  | .flushExpiredWindows input => j.aggregator.expiredKeys input
  | .flushAllWindows _ => j.aggregator.nonEmptyKeys
  | _ => []

def KnownClass (key : WindowKey) : Prop := (EventClass.tryFrom key.1).isSome

instance (key : WindowKey) : Decidable (KnownClass key) := inferInstanceAs (Decidable (_ = true))

/-- No window that the call closes overflows its counters or has an unknown class. -/
def Fits (j : AggregatorLedger) (op : Op) : Prop :=
  ∀ key ∈ j.flushedKeys op, j.aggregator.openEvents key < u32Count ∧ KnownClass key

/-! ## 2. What holds in every state -/

structure Inv (tierId : String) (j : AggregatorLedger) : Prop where
  tier : j.aggregator.tierId = tierId
  labelled : ∀ key w, j.aggregator.windows.lookup key = some w →
    w.eventClass = EventClass.ofWire key.1 ∧ w.eventType = key.2
  passthrough : (j.received.filter fun e => e.propagation = .full).Perm
    (j.passed ++ j.aggregator.passthroughQueue.items)
  routed : ∀ s ∈ j.summaries, s.event.propagation = .full
  ids : (j.summaries.map fun s => s.event.eventId) =
    (List.range j.aggregator.summaryCounter).map fun n => summaryId tierId (n + 1)

theorem inv_start (f : Formats) (tierId : String) (duration : Nat) :
    Inv tierId (start f tierId duration) :=
  ⟨rfl, (fun _ _ h => nomatch h), List.Perm.refl _, (fun _ h => nomatch h), rfl⟩

def flushKey (f : Formats) (input : FlushInput) (j : AggregatorLedger) (key : WindowKey) :
    AggregatorLedger := { j with aggregator := (flushWindow f input j.aggregator key).2 }

theorem run_flushKey (f : Formats) (input : FlushInput) (j : AggregatorLedger)
    (keys : List WindowKey) :
    { j with aggregator := (flushKeys f input j.aggregator keys).2 } =
      run (flushKey f input) j keys := by
  rw [flushKeys_snd]
  induction keys generalizing j with
  | nil => rfl
  | cons key keys ih => exact ih (flushKey f input j key)

section Flush

variable {f : Formats} {input : FlushInput} {tierId : String} {j : AggregatorLedger}

theorem Inv.flushKey (h : Inv tierId j) (key : WindowKey) : Inv tierId (j.flushKey f input key) := by
  have hreset : ∀ w, j.aggregator.windows.lookup key = some w → ∀ k v,
      (j.aggregator.windows.insert key (w.reset (input.resetAt key))).lookup k = some v →
        v.eventClass = EventClass.ofWire k.1 ∧ v.eventType = k.2 := fun w hw =>
    forall_lookup_insert (h.labelled key w hw) h.labelled
  unfold AggregatorLedger.flushKey
  rcases flushWindow_cases f input j.aggregator key with ⟨_, e⟩ | ⟨w, hw, _, e⟩ | ⟨w, hw, _, e⟩ <;>
    rw [e]
  · exact h
  · exact ⟨h.tier, hreset w hw, h.passthrough, h.routed, h.ids⟩
  · have hsum : ∀ q : List SummaryEvent, j.returned ++ (j.aggregator.summaryQueue ++ q) =
        j.summaries ++ q := fun q => (List.append_assoc _ _ _).symm
    refine ⟨h.tier, hreset w hw, h.passthrough, ?_, ?_⟩
    · intro s hs
      replace hs : s ∈ j.returned ++ (j.aggregator.summaryQueue ++ _) := hs
      rw [hsum, List.mem_append, List.mem_singleton] at hs
      rcases hs with hs | rfl
      · exact h.routed s hs
      · rfl
    · show List.map _ (j.returned ++ (j.aggregator.summaryQueue ++ _)) = _
      rw [hsum, List.map_append, h.ids, List.range_succ, List.map_append, ← h.tier]
      rfl

theorem Inv.receive (h : Inv tierId j) (e : PeatEvent) (now : Nat) :
    Inv tierId (j.step f (.receive e now)) := by
  have hold (hmode : e.propagation ≠ .full) :
      ((j.received ++ [e]).filter fun e => e.propagation = .full).Perm
        (j.passed ++ j.aggregator.passthroughQueue.items) := by
    rw [List.filter_append, List.filter_singleton, decide_eq_false hmode]
    exact (List.append_nil _).symm ▸ h.passthrough
  show Inv tierId { j with aggregator := j.aggregator.receive e now, received := j.received ++ [e] }
  rcases j.aggregator.receive_cases e now with ⟨hmode, heq⟩ | ⟨hmode, heq⟩ | ⟨hmode, _, store, heq⟩ <;>
    rw [heq]
  · refine ⟨h.tier, h.labelled, ?_, h.routed, h.ids⟩
    show ((j.received ++ [e]).filter fun e => e.propagation = .full).Perm
      (j.passed ++ (j.aggregator.passthroughQueue.push e).items)
    rw [List.filter_append, List.filter_singleton, decide_eq_true hmode]
    refine (h.passthrough.append_right [e]).trans ?_
    rw [List.append_assoc]
    refine List.Perm.append_left _ (List.perm_append_comm.trans ?_)
    exact (PriorityEventQueue.items_push _ _).symm
  · have hwindow : (j.aggregator.windowFor e now).eventClass = EventClass.ofWire e.windowKey.1 ∧
        (j.aggregator.windowFor e now).eventType = e.windowKey.2 := by
      unfold windowFor
      cases hw : j.aggregator.windows.lookup e.windowKey with
      | none => exact ⟨rfl, rfl⟩
      | some w => exact h.labelled _ w hw
    exact ⟨h.tier, forall_lookup_insert hwindow h.labelled, hold (by rw [hmode]; nofun), h.routed,
      h.ids⟩
  · exact ⟨h.tier, h.labelled, hold hmode, h.routed, h.ids⟩

section Pop

variable {passed : List PeatEvent} {returned : List SummaryEvent} {a' : HierarchyAggregator}

theorem summaries_take (hp : Pops j.aggregator passed returned a') :
    (j.take passed returned a').summaries = j.summaries := by
  show j.returned ++ returned ++ a'.summaryQueue = j.returned ++ j.aggregator.summaryQueue
  rw [hp.summaries, List.append_assoc]

theorem Inv.take (h : Inv tierId j) (hp : Pops j.aggregator passed returned a') :
    Inv tierId (j.take passed returned a') := by
  refine ⟨hp.tier.trans h.tier, ?_, ?_, ?_, ?_⟩
  · show ∀ key w, a'.windows.lookup key = some w → _
    rw [hp.windows]
    exact h.labelled
  · show (j.received.filter _).Perm (j.passed ++ passed ++ _)
    rw [List.append_assoc]
    exact h.passthrough.trans (hp.passthrough.append_left _)
  · rw [summaries_take hp]
    exact h.routed
  · rw [summaries_take hp]
    show _ = (List.range a'.summaryCounter).map _
    rw [hp.counter]
    exact h.ids

end Pop

theorem Inv.step (h : Inv tierId j) (op : Op) : Inv tierId (j.step f op) := by
  cases op with
  | registerStrategy eventType strategy =>
    exact ⟨h.tier, h.labelled, h.passthrough, h.routed, h.ids⟩
  | receive e now => exact h.receive e now
  | flushExpiredWindows input =>
    show Inv tierId { j with aggregator := (flushKeys f input _ _).2 }
    rw [run_flushKey]
    exact run_invariant (Inv tierId) (fun _ key h => h.flushKey key) h _
  | flushAllWindows input =>
    show Inv tierId { j with aggregator := (flushKeys f input _ _).2 }
    rw [run_flushKey]
    exact run_invariant (Inv tierId) (fun _ key h => h.flushKey key) h _
  | popPassthrough => exact h.take j.aggregator.popPassthrough_pops
  | popSummaries => exact h.take j.aggregator.popSummaries_pops
  | popAll => exact h.take j.aggregator.popAll_pops

theorem summaryId_injective (tierId : String) : Function.Injective (summaryId tierId) := by
  intro m n h
  have hrepr : Nat.repr m = Nat.repr n := (String.append_right_inj _).mp h
  have hdigits := congrArg String.toList hrepr
  rw [Nat.toList_repr, Nat.toList_repr] at hdigits
  rw [← Nat.ofDigitChars_ten_toDigits (n := m), hdigits, Nat.ofDigitChars_ten_toDigits]

theorem Inv.nodup_ids (h : Inv tierId j) : (j.summaries.map fun s => s.event.eventId).Nodup := by
  rw [h.ids]
  exact List.nodup_range.map fun m n hmn => Nat.succ.inj (summaryId_injective tierId hmn)

theorem Inv.popped (h : Inv tierId j) : ∀ e ∈ j.popped, e.propagation = .full := by
  intro e he
  rcases List.mem_append.mp he with hp | hr
  · have := h.passthrough.mem_iff.mpr (List.mem_append_left _ hp)
    exact of_decide_eq_true (List.mem_filter.mp this).2
  · obtain ⟨s, hs, rfl⟩ := List.mem_map.mp hr
    exact h.routed s (List.mem_append_left _ hs)

theorem Inv.conserved_iff_balanced (h : Inv tierId j) : j.Conserved ↔ j.Balanced := by
  refine ⟨Conserved.balanced, fun hb => ⟨h.passthrough, hb, h.nodup_ids, fun e he => ?_⟩⟩
  rw [h.popped e he]
  exact ⟨nofun, nofun⟩

end Flush

/-! ## 3. The books of the summaries -/

def label (key : WindowKey) : WindowKey := ((EventClass.ofWire key.1).toI32, key.2)

theorem label_eq_iff {key : WindowKey} : label key = key ↔ KnownClass key := by
  rw [KnownClass, ← EventClass.toI32_ofWire]
  exact ⟨fun h => congrArg Prod.fst h, fun h => Prod.ext h rfl⟩

theorem knownClass_label (key : WindowKey) : KnownClass (label key) := by
  rw [KnownClass, label, EventClass.tryFrom_toI32]
  rfl

theorem counted_concat (l : List SummaryEvent) (s : SummaryEvent) (key : WindowKey) :
    counted (l ++ [s]) key =
      counted l key + if s.summary.key = key then s.summary.eventCount else 0 := by
  unfold counted
  rw [List.filter_append, List.map_append, List.sum_append, List.filter_singleton]
  by_cases hs : s.summary.key = key <;> simp [hs]

section Books

variable {f : Formats} {input : FlushInput} {tierId : String} {j : AggregatorLedger}

variable (f input) in
theorem account_flushKey (h : Inv tierId j) (key other : WindowKey) :
    (j.flushKey f input key).account other +
        (if other = key then j.aggregator.openEvents key else 0) =
      j.account other +
        if label key = other then j.aggregator.openEvents key % u32Count else 0 := by
  have hopen := openEvents_flushWindow f input j.aggregator key other
  unfold account summaries flushKey
  rw [hopen]
  -- what is left of the window and what was taken from it are what it held
  have hsplit : (if other = key then 0 else j.aggregator.openEvents other) +
      (if other = key then j.aggregator.openEvents key else 0) = j.aggregator.openEvents other := by
    by_cases ho : other = key
    · rw [if_pos ho, if_pos ho, ho, Nat.zero_add]
    · rw [if_neg ho, if_neg ho, Nat.add_zero]
  rw [Nat.add_assoc, hsplit]
  rcases flushWindow_cases f input j.aggregator key with ⟨hw, e⟩ | ⟨w, hw, he, e⟩ | ⟨w, hw, _, e⟩ <;>
    rw [e, openEvents.eq_def _ key, hw]
  · simp
  · simp [AggregationWindow.eventCount, he]
  · obtain ⟨hclass, htype⟩ := h.labelled key w hw
    have hkey : (eventSummary f j.aggregator w (input.stampedAt key)).key = label key := by
      show (w.eventClass.toI32, w.eventType) = _
      rw [hclass, htype]
      rfl
    show counted (j.returned ++ (j.aggregator.summaryQueue ++ [_])) other + _ = _
    rw [← List.append_assoc, counted_concat]
    show _ + (if (eventSummary f j.aggregator w (input.stampedAt key)).key = other
      then w.eventCount % u32Count else 0) + _ = _ + _ + if label key = other
      then w.eventCount % u32Count else 0
    rw [hkey, Nat.add_right_comm]

def Short (j : AggregatorLedger) : Prop :=
  (∃ key, ¬ KnownClass key ∧ j.account key < j.owed key) ∨
  ((∀ key, j.account key ≤ j.owed key) ∧ ∃ key, j.account key < j.owed key)

theorem Short.not_balanced (h : j.Short) : ¬ j.Balanced := by
  intro hb
  rcases h with ⟨key, _, hlt⟩ | ⟨_, key, hlt⟩ <;> exact Nat.ne_of_lt hlt (hb key)

def KeyFits (j : AggregatorLedger) (key : WindowKey) : Prop :=
  j.aggregator.openEvents key < u32Count ∧ (j.aggregator.openEvents key = 0 ∨ KnownClass key)

variable {key : WindowKey}

theorem balanced_flushKey (h : Inv tierId j) (hb : j.Balanced) (hfit : j.KeyFits key) :
    (j.flushKey f input key).Balanced := by
  intro other
  have hmove := account_flushKey f input h key other
  show _ = j.owed other
  rw [← hb other]
  rw [Nat.mod_eq_of_lt hfit.1] at hmove
  rcases hfit.2 with hzero | hknown
  · rw [hzero, ite_self, ite_self] at hmove
    exact hmove
  · simp only [label_eq_iff.mpr hknown, eq_comm (a := key)] at hmove
    exact Nat.add_right_cancel hmove

variable (f input) in
theorem account_flushKey_unknown (h : Inv tierId j) (key : WindowKey) {other : WindowKey}
    (hunknown : ¬ KnownClass other) :
    (j.flushKey f input key).account other +
      (if other = key then j.aggregator.openEvents key else 0) = j.account other := by
  have hlabel : label key ≠ other := fun e => hunknown (e ▸ knownClass_label key)
  rw [account_flushKey f input h, if_neg hlabel, Nat.add_zero]

theorem account_flushKey_known (h : Inv tierId j) (hknown : KnownClass key) (other : WindowKey) :
    (j.flushKey f input key).account other ≤ j.account other := by
  have hmove := account_flushKey f input h key other
  have hmod := Nat.mod_le (j.aggregator.openEvents key) u32Count
  simp only [label_eq_iff.mpr hknown, eq_comm (a := key)] at hmove
  by_cases ho : other = key
  · rw [if_pos ho, if_pos ho] at hmove
    omega
  · rw [if_neg ho, if_neg ho] at hmove
    omega

theorem short_flushKey (h : Inv tierId j) (hb : j.Balanced) (hfit : ¬ j.KeyFits key) :
    (j.flushKey f input key).Short := by
  by_cases hknown : KnownClass key
  · -- the count was cut off, and no other account moved
    refine .inr ⟨fun other => hb other ▸ account_flushKey_known h hknown other, key, ?_⟩
    have hbig : u32Count ≤ j.aggregator.openEvents key :=
      Nat.not_lt.mp fun hlt => hfit ⟨hlt, .inr hknown⟩
    have hmove := account_flushKey f input h key key
    rw [if_pos rfl, if_pos (label_eq_iff.mpr hknown), hb key] at hmove
    have hcut : j.aggregator.openEvents key % u32Count < u32Count := Nat.mod_lt _ (by decide)
    show _ < j.owed key
    omega
  · refine .inl ⟨key, hknown, ?_⟩
    have hpos : j.aggregator.openEvents key ≠ 0 := by
      intro hzero
      refine hfit ⟨?_, .inl hzero⟩
      rw [hzero]
      decide
    have hmove := account_flushKey_unknown f input h key hknown
    rw [if_pos rfl, hb key] at hmove
    show _ < j.owed key
    omega

theorem Short.flushKey (hs : j.Short) (h : Inv tierId j) (key : WindowKey) :
    (j.flushKey f input key).Short := by
  rcases hs with ⟨other, hunknown, hlt⟩ | ⟨hle, other, hlt⟩
  · have hmove := account_flushKey_unknown f input h key hunknown
    refine .inl ⟨other, hunknown, ?_⟩
    show _ < j.owed other
    omega
  · by_cases hknown : KnownClass key
    · refine .inr ⟨fun k => Nat.le_trans (account_flushKey_known h hknown k) (hle k), other, ?_⟩
      exact Nat.lt_of_le_of_lt (account_flushKey_known h hknown other) hlt
    · by_cases hzero : j.aggregator.openEvents key = 0
      · have hsame : ∀ k, (j.flushKey f input key).account k = j.account k := by
          intro k
          have hmove := account_flushKey f input h key k
          rw [hzero, Nat.zero_mod, ite_self, ite_self] at hmove
          exact hmove
        exact .inr ⟨fun k => hsame k ▸ hle k, other, hsame other ▸ hlt⟩
      · refine .inl ⟨key, hknown, ?_⟩
        have hmove := account_flushKey_unknown f input h key hknown
        have hkey := hle key
        rw [if_pos rfl] at hmove
        show _ < j.owed key
        omega

theorem runMeets_keyFits {keys : List WindowKey} (hn : keys.Nodup) :
    RunMeets (flushKey f input) KeyFits j keys ↔ ∀ key ∈ keys, j.KeyFits key := by
  induction keys generalizing j with
  | nil => exact iff_of_true trivial nofun
  | cons key keys ih =>
    obtain ⟨hnew, hn⟩ := List.nodup_cons.mp hn
    rw [List.forall_mem_cons]
    refine and_congr_right fun _ => (ih hn).trans (forall₂_congr fun k hk => ?_)
    have hopen : (j.flushKey f input key).aggregator.openEvents k = j.aggregator.openEvents k := by
      show (flushWindow f input j.aggregator key).2.openEvents k = _
      rw [openEvents_flushWindow, if_neg]
      rintro rfl
      exact hnew hk
    unfold KeyFits
    rw [hopen]

theorem nodup_flushedKeys (j : AggregatorLedger) (op : Op) : (j.flushedKeys op).Nodup := by
  cases op with
  | flushExpiredWindows input =>
    rw [flushedKeys, expiredKeys]
    exact nodup_selectedKeys _ _
  | flushAllWindows input =>
    rw [flushedKeys, nonEmptyKeys]
    exact nodup_selectedKeys _ _
  | _ => exact List.nodup_nil

theorem openEvents_flushedKeys {op : Op} (h : key ∈ j.flushedKeys op) :
    j.aggregator.openEvents key ≠ 0 := by
  have hlen : ∀ w, j.aggregator.windows.lookup key = some w → (!w.events.isEmpty) = true →
      j.aggregator.openEvents key ≠ 0 := by
    intro w hw hne hzero
    rw [openEvents, hw] at hzero
    replace hzero : w.events.length = 0 := hzero
    rw [List.length_eq_zero_iff.mp hzero] at hne
    exact Bool.false_ne_true hne
  cases op with
  | flushExpiredWindows input =>
    rw [flushedKeys, expiredKeys] at h
    obtain ⟨w, hw, hsel⟩ := mem_selectedKeys h
    exact hlen w hw (Bool.and_eq_true_iff.mp hsel).2
  | flushAllWindows input =>
    rw [flushedKeys, nonEmptyKeys] at h
    obtain ⟨w, hw, hsel⟩ := mem_selectedKeys h
    exact hlen w hw hsel
  | _ => exact absurd h List.not_mem_nil

theorem fits_iff (j : AggregatorLedger) (op : Op) :
    j.Fits op ↔ ∀ key ∈ j.flushedKeys op, j.KeyFits key := by
  refine forall₂_congr fun key hkey => and_congr_right fun _ => ?_
  exact (or_iff_right (openEvents_flushedKeys hkey)).symm

def Shifts (j j' : AggregatorLedger) : Prop :=
  ∀ key, ∃ n, j'.account key = j.account key + n ∧ j'.owed key = j.owed key + n

theorem shifts_receive (f : Formats) (j : AggregatorLedger) (e : PeatEvent) (now : Nat) :
    j.Shifts (j.step f (.receive e now)) := by
  intro key
  refine ⟨if e.propagation = .summary ∧ e.windowKey = key then 1 else 0, ?_, ?_⟩
  · show counted (j.returned ++ (j.aggregator.receive e now).summaryQueue) key +
      (j.aggregator.receive e now).openEvents key = _
    rw [openEvents_receive, summaryQueue_receive, ← Nat.add_assoc]
    rfl
  · show (j.received ++ [e]).countP _ = _
    rw [List.countP_append, List.countP_singleton]
    simp only [decide_eq_true_eq]
    rfl

theorem shifts_take {passed : List PeatEvent} {returned : List SummaryEvent}
    {a' : HierarchyAggregator} (hp : Pops j.aggregator passed returned a') :
    j.Shifts (j.take passed returned a') := by
  refine fun key => ⟨0, ?_, rfl⟩
  unfold account
  rw [summaries_take hp]
  show _ + (a'.windows.lookup key).elim 0 _ = _
  rw [hp.windows]
  rfl

theorem step_cases (f : Formats) (j : AggregatorLedger) (op : Op) :
    (∃ input, j.step f op = run (flushKey f input) j (j.flushedKeys op)) ∨
      (j.flushedKeys op = [] ∧ j.Shifts (j.step f op)) := by
  cases op with
  | registerStrategy eventType strategy => exact .inr ⟨rfl, fun _ => ⟨0, rfl, rfl⟩⟩
  | receive e now => exact .inr ⟨rfl, shifts_receive f j e now⟩
  | flushExpiredWindows input => exact .inl ⟨input, run_flushKey f input j _⟩
  | flushAllWindows input => exact .inl ⟨input, run_flushKey f input j _⟩
  | popPassthrough => exact .inr ⟨rfl, shifts_take j.aggregator.popPassthrough_pops⟩
  | popSummaries => exact .inr ⟨rfl, shifts_take j.aggregator.popSummaries_pops⟩
  | popAll => exact .inr ⟨rfl, shifts_take j.aggregator.popAll_pops⟩

theorem Shifts.balanced {j' : AggregatorLedger} (h : j.Shifts j') (hb : j.Balanced) :
    j'.Balanced := by
  intro key
  obtain ⟨n, ha, ho⟩ := h key
  rw [ha, ho, hb key]

theorem Shifts.short {j' : AggregatorLedger} (h : j.Shifts j') (hs : j.Short) : j'.Short := by
  have hlt : ∀ key, j.account key < j.owed key → j'.account key < j'.owed key := by
    intro key hlt
    obtain ⟨n, ha, ho⟩ := h key
    omega
  rcases hs with ⟨key, hunknown, hkey⟩ | ⟨hle, key, hkey⟩
  · exact .inl ⟨key, hunknown, hlt key hkey⟩
  · refine .inr ⟨fun k => ?_, key, hlt key hkey⟩
    obtain ⟨n, ha, ho⟩ := h k
    have := hle k
    omega

def Good (tierId : String) (j : AggregatorLedger) : Prop := Inv tierId j ∧ j.Balanced

def Bad (tierId : String) (j : AggregatorLedger) : Prop := Inv tierId j ∧ j.Short

theorem Good.flushKey (h : Good tierId j) (hfit : j.KeyFits key) :
    Good tierId (j.flushKey f input key) := ⟨h.1.flushKey key, balanced_flushKey h.1 h.2 hfit⟩

theorem Good.flushKey_bad (h : Good tierId j) (hfit : ¬ j.KeyFits key) :
    Bad tierId (j.flushKey f input key) := ⟨h.1.flushKey key, short_flushKey h.1 h.2 hfit⟩

theorem Bad.flushKey (h : Bad tierId j) (key : WindowKey) : Bad tierId (j.flushKey f input key) :=
  ⟨h.1.flushKey key, h.2.flushKey h.1 key⟩

theorem Good.step {op : Op} (h : Good tierId j) (hfit : j.Fits op) : Good tierId (j.step f op) := by
  refine ⟨h.1.step op, ?_⟩
  rcases step_cases f j op with ⟨input, heq⟩ | ⟨_, hshift⟩
  · rw [heq]
    exact (runMeets_invariant (Good tierId) (fun _ _ hc hj => hj.flushKey hc)
      ((runMeets_keyFits (j.nodup_flushedKeys op)).mpr ((j.fits_iff op).mp hfit)) h).2
  · exact hshift.balanced h.2

theorem Good.step_bad {op : Op} (h : Good tierId j) (hfit : ¬ j.Fits op) :
    Bad tierId (j.step f op) := by
  refine ⟨h.1.step op, ?_⟩
  rcases step_cases f j op with ⟨input, heq⟩ | ⟨hnone, _⟩
  · rw [heq]
    refine (run_bad (Good tierId) (Bad tierId) (fun _ _ hj hc => hj.flushKey hc)
      (fun _ _ hj hc => hj.flushKey_bad hc) (fun _ key hj => hj.flushKey key) h ?_).2
    rw [runMeets_keyFits (j.nodup_flushedKeys op), ← fits_iff]
    exact hfit
  · rw [fits_iff, hnone] at hfit
    exact absurd nofun hfit

theorem Bad.step (h : Bad tierId j) (op : Op) : Bad tierId (j.step f op) := by
  refine ⟨h.1.step op, ?_⟩
  rcases step_cases f j op with ⟨input, heq⟩ | ⟨_, hshift⟩
  · rw [heq]
    exact (run_invariant (Bad tierId) (fun _ key hj => hj.flushKey key) h _).2
  · exact hshift.short h.2

end Books

/-- **Conservation of events**: over a run of the aggregator every event is accounted for exactly when
    every window it flushes has a known class number and fewer than 2^32 events. -/
theorem conserved_iff (f : Formats) (tierId : String) (duration : Nat) (ops : List Op) :
    (run (step f) (start f tierId duration) ops).Conserved ↔
      RunMeets (step f) Fits (start f tierId duration) ops := by
  have hstart : Good tierId (start f tierId duration) := ⟨inv_start f tierId duration, fun _ => rfl⟩
  have hinv : Inv tierId (run (step f) (start f tierId duration) ops) :=
    run_invariant (Inv tierId) (fun _ op h => h.step op) hstart.1 ops
  rw [hinv.conserved_iff_balanced]
  constructor
  · intro hb
    by_contra hm
    exact (run_bad (Good tierId) (Bad tierId) (fun _ _ h hc => h.step hc)
      (fun _ _ h hc => h.step_bad hc) (fun _ op h => h.step op) hstart hm).2.not_balanced hb
  · intro hm
    exact (runMeets_invariant (Good tierId) (fun _ _ hc h => h.step hc) hm hstart).2

def unknownClassEvent : PeatEvent :=
  { eventId := "e1", timestamp := none, sourceNodeId := "n1", sourceFormationId := "c1",
    sourceInstanceId := none, eventClass := 7, eventType := "detection",
    routing := some ⟨PropagationMode.summary.toI32, EventPriority.normal.toI32, 300, 0⟩,
    payloadTypeUrl := "", payloadValue := [] }

/-- **The class number is lost**: the summary of a class-7 event is filed under class 0. -/
theorem unknown_class_lost :
    let f : Formats := ⟨fun _ => [], fun _ _ => []⟩
    let j := run (step f) (start f "cell-1" 1000000000)
      [.receive unknownClassEvent 0, .flushAllWindows ⟨fun _ => 0, fun _ => ⟨0, 0⟩, fun _ => 0⟩]
    j.owed (7, "detection") = 1 ∧ j.account (7, "detection") = 0 ∧
      j.owed (0, "detection") = 0 ∧ j.account (0, "detection") = 1 ∧ ¬ j.Conserved := by
  have key : (let f : Formats := ⟨fun _ => [], fun _ _ => []⟩
    let j := run (step f) (start f "cell-1" 1000000000)
      [.receive unknownClassEvent 0, .flushAllWindows ⟨fun _ => 0, fun _ => ⟨0, 0⟩, fun _ => 0⟩]
    j.owed (7, "detection") = 1 ∧ j.account (7, "detection") = 0 ∧
      j.owed (0, "detection") = 0 ∧ j.account (0, "detection") = 1) := by decide
  refine ⟨key.1, key.2.1, key.2.2.1, key.2.2.2, fun h => ?_⟩
  have hb := h.balanced (7, "detection")
  rw [key.1, key.2.1] at hb
  nomatch hb

end AggregatorLedger

end Peat.Event
