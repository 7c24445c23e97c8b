/-
  THE TIME TO LIVE of stored events: `remove_expired` of the event store
  (event/query.rs) and `enforce_ttl` of the aggregator (event/aggregator.rs).

  Both read the clock, add the time to live in a `u64` and keep the events whose sum
  lies ahead. The clock is in whole seconds and may stand before the epoch; `none` is a
  panic.
-/
import Peat.Event.Aggregator
import Peat.Event.Query

namespace Peat.Event

open Peat.Lib

/-! ## 1. The two functions -/

/-- `now.duration_since(UNIX_EPOCH).unwrap().as_secs()`. -/
def sinceEpoch (clock : Int) : Option Nat := if clock < 0 then none else some clock.toNat

def PeatEvent.keeps (b : Build) (now : Nat) (e : PeatEvent) : Option Bool :=
  match e.routing with
  | none => some true
  | some routing =>
    if routing.ttlSeconds > 0 then
      match e.timestamp with
      | none => some true
      | some ts =>
        (b.add u64Count ts.seconds routing.ttlSeconds).map fun expiry => decide (now < expiry)
    else some true

def sweep (b : Build) (clock : Int) (events : HashMap String PeatEvent) :
    Option (HashMap String PeatEvent) :=
  (sinceEpoch clock).bind fun now =>
    if ∀ entry ∈ events.entries, (entry.2.keeps b now).isSome then
      some (retain (fun _ e => (e.keeps b now).getD false) events)
    else none

variable {b : Build} {clock : Int} {events : HashMap String PeatEvent}

theorem sweep_eq_some_iff {events' : HashMap String PeatEvent} :
    sweep b clock events = some events' ↔ 0 ≤ clock ∧
      (∀ id e, events.lookup id = some e → (e.keeps b clock.toNat).isSome) ∧
      events' = retain (fun _ e => (e.keeps b clock.toNat).getD false) events := by
  unfold sweep sinceEpoch
  by_cases hclock : clock < 0
  · rw [if_pos hclock]
    exact iff_of_false nofun fun h => absurd h.1 (Int.not_le.mpr hclock)
  · rw [if_neg hclock, Option.bind_some]
    have hall : (∀ entry ∈ events.entries, (entry.2.keeps b clock.toNat).isSome) ↔
        ∀ id e, events.lookup id = some e → (e.keeps b clock.toNat).isSome := by
      constructor
      · intro h id e he
        exact h ⟨id, e⟩ (lookup_eq_some_iff.mp he)
      · intro h entry hentry
        exact h entry.1 entry.2 (lookup_eq_some_iff.mpr hentry)
    rw [← hall]
    split
    · rename_i h
      constructor
      · intro heq
        exact ⟨Int.not_lt.mp hclock, h, (Option.some.inj heq).symm⟩
      · intro heq
        rw [heq.2.2]
    · rename_i h
      exact iff_of_false nofun fun heq => h heq.2.1

namespace InMemoryEventStore

def removeExpired (b : Build) (s : InMemoryEventStore) (clock : Int) : Option InMemoryEventStore :=
  (sweep b clock s.events).pmap
    (fun events h => ⟨events, by
      intro id e he
      rw [(sweep_eq_some_iff.mp h).2.2, lookup_retain] at he
      exact s.keyed id e (Option.filter_eq_some_iff.mp he).1⟩)
    (fun _ h => h)

end InMemoryEventStore

def HierarchyAggregator.enforceTtl (b : Build) (a : HierarchyAggregator) (clock : Int) :
    Option HierarchyAggregator :=
  (sweep b clock a.queryableStore).map fun events => { a with queryableStore := events }

theorem InMemoryEventStore.removeExpired_eq_some_iff {s s' : InMemoryEventStore} :
    s.removeExpired b clock = some s' ↔ sweep b clock s.events = some s'.events := by
  unfold removeExpired
  rw [Option.pmap_eq_some_iff]
  constructor
  · intro ⟨events, _, hevents, hs⟩
    rw [hs, hevents]
  · intro h
    exact ⟨s'.events, h, h, rfl⟩

theorem HierarchyAggregator.enforceTtl_eq_some_iff {a a' : HierarchyAggregator} :
    a.enforceTtl b clock = some a' ↔ ∃ events, sweep b clock a.queryableStore = some events ∧
      { a with queryableStore := events } = a' :=
  Option.map_eq_some_iff

/-! ## 2. One event -/

namespace PeatEvent

/-- **An event is live** while it has no time to live, no time of its own, or the sum of the two lies
    ahead. -/
def Live (e : PeatEvent) (clock : Int) : Prop :=
  e.timestamp = none ∨ e.routing = none ∨ (∃ r, e.routing = some r ∧ r.ttlSeconds = 0) ∨
    ∃ ts r, e.timestamp = some ts ∧ e.routing = some r ∧ clock < ts.seconds + r.ttlSeconds

/-- The numbers of the event are those of its integer types. -/
def InRange (e : PeatEvent) : Prop :=
  (∀ ts, e.timestamp = some ts → ts.seconds < u64Count) ∧
    ∀ r, e.routing = some r → r.ttlSeconds < u32Count

/-- **The expiry of an event fits**: it does not overflow, or wraps around, in a release build, to a
    time that is still ahead. -/
def Fits (b : Build) (clock : Int) (e : PeatEvent) : Prop :=
  ∀ ts r, e.timestamp = some ts → e.routing = some r → 0 < r.ttlSeconds →
    ts.seconds + r.ttlSeconds < u64Count ∨
      b = .release ∧ clock + u64Count < ts.seconds + r.ttlSeconds

variable {clock : Int}

theorem live_iff_of_timed {e : PeatEvent} {ts : Timestamp} {r : AggregationPolicy}
    (hts : e.timestamp = some ts) (hr : e.routing = some r) (httl : 0 < r.ttlSeconds) :
    e.Live clock ↔ clock < ts.seconds + r.ttlSeconds := by
  unfold Live
  rw [hts, hr]
  constructor
  · intro h
    rcases h with h | h | ⟨r', h, hzero⟩ | ⟨ts', r', h, h', hlt⟩
    · cases h
    · cases h
    · cases h
      omega
    · cases h
      cases h'
      exact hlt
  · intro h
    exact .inr (.inr (.inr ⟨ts, r, rfl, rfl, h⟩))

theorem add_ahead_iff {b : Build} {seconds ttl : Nat} (hs : seconds < u64Count)
    (ht : ttl < u32Count) (h0 : 0 ≤ clock) (hclock : clock < u64Count) :
    (∃ kept, ((b.add u64Count seconds ttl).map fun expiry => decide (clock.toNat < expiry)) = some kept ∧
        (kept = true ↔ clock < seconds + ttl)) ↔
      (seconds + ttl < u64Count ∨ b = .release ∧ clock + u64Count < seconds + ttl) := by
  simp only [u64Count, u32Count] at hs ht hclock ⊢
  cases b with
  | checked =>
    by_cases hsum : seconds + ttl < 18446744073709551616
    · refine iff_of_true ⟨_, by rw [Build.add, if_pos hsum]; rfl, ?_⟩ (.inl hsum)
      rw [decide_eq_true_eq]
      omega
    · rw [Build.add, if_neg hsum]
      refine iff_of_false (fun ⟨_, h, _⟩ => by cases h) ?_
      intro h
      rcases h with h | ⟨h, _⟩
      · exact hsum h
      · cases h
  | release =>
    constructor
    · intro ⟨kept, hkept, hiff⟩
      cases hkept
      rw [decide_eq_true_eq] at hiff
      by_cases hsum : seconds + ttl < 18446744073709551616
      · exact .inl hsum
      · -- the exact sum lies ahead of every clock, so the wrapped one has to
        refine .inr ⟨rfl, ?_⟩
        omega
    · intro h
      refine ⟨_, rfl, ?_⟩
      rw [decide_eq_true_eq]
      omega

theorem keeps_spec {b : Build} {e : PeatEvent} (hrange : e.InRange) (h0 : 0 ≤ clock)
    (hclock : clock < u64Count) :
    (∃ kept, e.keeps b clock.toNat = some kept ∧ (kept = true ↔ e.Live clock)) ↔ e.Fits b clock := by
  unfold keeps
  cases hr : e.routing with
  | none =>
    refine iff_of_true ⟨true, rfl, iff_of_true rfl (.inr (.inl hr))⟩ ?_
    intro ts r _ hr'
    rw [hr] at hr'
    cases hr'
  | some r =>
    dsimp only
    by_cases httl : r.ttlSeconds > 0
    · rw [if_pos httl]
      cases hts : e.timestamp with
      | none =>
        refine iff_of_true ⟨true, rfl, iff_of_true rfl (.inl hts)⟩ ?_
        intro ts r' hts'
        rw [hts] at hts'
        cases hts'
      | some ts =>
        rw [live_iff_of_timed hts hr httl]
        refine (add_ahead_iff (hrange.1 ts hts) (hrange.2 r hr) h0 hclock).trans ⟨?_, ?_⟩
        · intro h ts' r' hts' hr' _
          cases hts.symm.trans hts'
          cases hr.symm.trans hr'
          exact h
        · intro h
          exact h ts r hts hr httl
    · rw [if_neg httl]
      have hzero : r.ttlSeconds = 0 := Nat.eq_zero_of_not_pos httl
      refine iff_of_true ⟨true, rfl, iff_of_true rfl (.inr (.inr (.inl ⟨r, hr, hzero⟩)))⟩ ?_
      intro ts r' _ hr' hpos
      cases hr.symm.trans hr'
      exact absurd hpos httl

end PeatEvent

/-! ## 3. The whole store -/

/-- Exactly the live events are kept. -/
def KeepsLive (clock : Int) (before after : HashMap String PeatEvent) : Prop :=
  ∀ id e, after.lookup id = some e ↔ before.lookup id = some e ∧ e.Live clock

theorem sweep_keepsLive_iff (hrange : ∀ id e, events.lookup id = some e → e.InRange)
    (hclock : clock < u64Count) :
    (∃ events', sweep b clock events = some events' ∧ KeepsLive clock events events') ↔
      0 ≤ clock ∧ ∀ id e, events.lookup id = some e → e.Fits b clock := by
  constructor
  · intro ⟨events', hsweep, hkeeps⟩
    obtain ⟨h0, hsome, hevents⟩ := sweep_eq_some_iff.mp hsweep
    refine ⟨h0, fun id e he => (PeatEvent.keeps_spec (hrange id e he) h0 hclock).mp ?_⟩
    obtain ⟨kept, hkept⟩ := Option.isSome_iff_exists.mp (hsome id e he)
    refine ⟨kept, hkept, ?_⟩
    have h := hkeeps id e
    rw [hevents, lookup_retain, he, Option.filter_some, hkept] at h
    cases kept with
    | true => exact iff_of_true rfl (h.mp rfl).2
    | false => exact iff_of_false Bool.false_ne_true fun hlive => by cases h.mpr ⟨rfl, hlive⟩
  · intro ⟨h0, hfits⟩
    have hspec : ∀ id e, events.lookup id = some e →
        ∃ kept, e.keeps b clock.toNat = some kept ∧ (kept = true ↔ e.Live clock) :=
      fun id e he => (PeatEvent.keeps_spec (hrange id e he) h0 hclock).mpr (hfits id e he)
    refine ⟨_, sweep_eq_some_iff.mpr ⟨h0, fun id e he => ?_, rfl⟩, fun id e => ?_⟩
    · obtain ⟨kept, hkept, _⟩ := hspec id e he
      rw [hkept]
      rfl
    · rw [lookup_retain, Option.filter_eq_some_iff]
      refine and_congr_right fun he => ?_
      obtain ⟨kept, hkept, hiff⟩ := hspec id e he
      rw [hkept]
      exact hiff

/-- **Time to live**: over the same events, both functions return with the live events, exactly when
    the clock is not before the epoch and the expiry of every event fits. -/
theorem ttl_enforced_iff (b : Build) (s : InMemoryEventStore) (a : HierarchyAggregator) (clock : Int)
    (hsame : a.queryableStore = s.events)
    (hrange : ∀ id e, s.events.lookup id = some e → e.InRange) (hclock : clock < u64Count) :
    (∃ s' a', s.removeExpired b clock = some s' ∧ a.enforceTtl b clock = some a' ∧
        a'.queryableStore = s'.events ∧ KeepsLive clock s.events s'.events) ↔
      0 ≤ clock ∧ ∀ id e, s.events.lookup id = some e → e.Fits b clock := by
  rw [← sweep_keepsLive_iff hrange hclock]
  constructor
  · intro ⟨s', a', hs', _, _, hkeeps⟩
    exact ⟨s'.events, InMemoryEventStore.removeExpired_eq_some_iff.mp hs', hkeeps⟩
  · intro ⟨events, hsweep, hkeeps⟩
    have hkeyed : ∀ id e, events.lookup id = some e → e.eventId = id :=
      fun id e he => s.keyed id e ((hkeeps id e).mp he).1
    refine ⟨⟨events, hkeyed⟩, { a with queryableStore := events },
      InMemoryEventStore.removeExpired_eq_some_iff.mpr hsweep, ?_, rfl, hkeeps⟩
    exact HierarchyAggregator.enforceTtl_eq_some_iff.mpr ⟨events, hsame ▸ hsweep, rfl⟩

def ttlEvent (seconds ttl : Nat) : PeatEvent :=
  { eventId := "e", timestamp := some ⟨seconds, 0⟩, sourceNodeId := "n", sourceFormationId := "f",
    sourceInstanceId := none, eventClass := EventClass.product.toI32, eventType := "detection",
    routing := some ⟨PropagationMode.query.toI32, EventPriority.normal.toI32, ttl, 0⟩,
    payloadTypeUrl := "", payloadValue := [] }

def ttlStore (seconds ttl : Nat) : InMemoryEventStore :=
  InMemoryEventStore.new.store (ttlEvent seconds ttl)

def ttlAggregator (seconds ttl : Nat) : HierarchyAggregator :=
  (HierarchyAggregator.new ⟨fun _ => [], fun _ _ => []⟩ "cell-1").receive (ttlEvent seconds ttl) 0

theorem lookup_ttlStore {seconds ttl : Nat} {id : String} {e : PeatEvent}
    (h : (ttlStore seconds ttl).events.lookup id = some e) : e = ttlEvent seconds ttl := by
  replace h : (AList.insert "e" (ttlEvent seconds ttl) ∅ : HashMap String PeatEvent).lookup id =
    some e := h
  rw [lookup_insert_eq_ite] at h
  split at h
  · exact (Option.some.inj h).symm
  · cases h

/-- Sixty seconds after the event an hour is not over, and both functions keep it. -/
theorem ttl_enforced_iff_hour :
    ∃ s' a', (ttlStore 1700000000 3600).removeExpired .checked 1700000060 = some s' ∧
      (ttlAggregator 1700000000 3600).enforceTtl .checked 1700000060 = some a' ∧
      a'.queryableStore = s'.events ∧
      KeepsLive 1700000060 (ttlStore 1700000000 3600).events s'.events := by
  refine (ttl_enforced_iff .checked (ttlStore 1700000000 3600) (ttlAggregator 1700000000 3600)
    1700000060 rfl (fun id e he => ?_) (by decide)).mpr ⟨by decide, fun id e he => ?_⟩
  · rw [lookup_ttlStore he]
    constructor
    · intro ts hts
      cases hts
      decide
    · intro r hr
      cases hr
      decide
  · rw [lookup_ttlStore he]
    intro ts r hts hr _
    cases hts
    cases hr
    exact .inl (by decide)

/-- **An expiry beyond the `u64`**: the event lives on, a build with overflow checks panics, and a
    release build removes the event. -/
theorem expiry_overflows :
    (ttlEvent 18446744073709551615 1).Live 1700000000 ∧
    ((ttlStore 18446744073709551615 1).removeExpired .checked 1700000000).isNone = true ∧
    ((ttlAggregator 18446744073709551615 1).enforceTtl .checked 1700000000).isNone = true ∧
    ((ttlStore 18446744073709551615 1).removeExpired .release 1700000000).map
      (fun s => s.events.lookup "e") = some none ∧
    ((ttlAggregator 18446744073709551615 1).enforceTtl .release 1700000000).map
      (fun a => a.queryableStore.lookup "e") = some none := by
  refine ⟨?_, by decide, by decide, by decide, by decide⟩
  exact .inr (.inr (.inr ⟨_, _, rfl, rfl, by decide⟩))

end Peat.Event
