/-
  THE HIERARCHY AGGREGATOR (event/aggregator.rs): events passed through, collected in
  windows and summarised, or stored for queries.

  Instants are nanoseconds; a flush carries its clock readings (`FlushInput`). The
  encoding of a summary and the default strategy's payload are parameters; a summary
  event is kept with the `EventSummary` it encodes.
-/
import Peat.Lib.HashMap
import Peat.Lib.Run
import Peat.Event.PriorityQueue

namespace Peat.Event

open Peat.Lib

/-! ## 1. Windows and summaries -/

abbrev WindowKey := Int × String

structure EventSummary where
  formationId : String
  windowStart : Option Timestamp
  windowEnd : Option Timestamp
  eventClass : Int
  eventType : String
  eventCount : Nat
  sourceNodeIds : List String
  summaryTypeUrl : String
  summaryValue : List UInt8
  deriving DecidableEq, Repr

def EventSummary.key (s : EventSummary) : WindowKey := (s.eventClass, s.eventType)

structure SummaryEvent where
  event : PeatEvent
  summary : EventSummary
  deriving DecidableEq, Repr

structure AggregationWindow where
  eventClass : EventClass
  eventType : String
  windowDuration : Nat
  windowStart : Nat
  events : List PeatEvent
  sourceNodes : List String
  deriving DecidableEq, Repr

namespace AggregationWindow

def new (eventClass : EventClass) (eventType : String) (windowDuration now : Nat) :
    AggregationWindow := ⟨eventClass, eventType, windowDuration, now, [], []⟩

def add (w : AggregationWindow) (e : PeatEvent) : AggregationWindow :=
  { w with sourceNodes := w.sourceNodes.insert e.sourceNodeId, events := w.events ++ [e] }

def shouldFlush (w : AggregationWindow) (now : Nat) : Bool := now - w.windowStart ≥ w.windowDuration

def eventCount (w : AggregationWindow) : Nat := w.events.length

def reset (w : AggregationWindow) (now : Nat) : AggregationWindow :=
  { w with windowStart := now, events := [], sourceNodes := [] }

end AggregationWindow

namespace PeatEvent

def propagation (e : PeatEvent) : PropagationMode :=
  (e.routing.map fun r => (PropagationMode.tryFrom r.propagation).getD .full).getD .full

def windowKey (e : PeatEvent) : WindowKey := (e.eventClass, e.eventType)

end PeatEvent

/-! ## 2. The aggregator -/

abbrev SummaryStrategy := List PeatEvent → List UInt8

structure HierarchyAggregator where
  tierId : String
  windows : HashMap WindowKey AggregationWindow
  passthroughQueue : PriorityEventQueue
  queryableStore : HashMap String PeatEvent
  summaryStrategies : HashMap String SummaryStrategy
  summaryQueue : List SummaryEvent
  summaryCounter : Nat
  defaultWindowDuration : Nat

structure FlushInput where
  checkedAt : WindowKey → Nat
  stampedAt : WindowKey → Timestamp
  resetAt : WindowKey → Nat

structure Formats where
  encode : EventSummary → List UInt8
  defaultSummary : String → SummaryStrategy

namespace HierarchyAggregator

def new (f : Formats) (tierId : String) : HierarchyAggregator where
  tierId := tierId
  windows := ∅
  passthroughQueue := fun _ => []
  queryableStore := ∅
  summaryStrategies := (AList.insert "detection" (f.defaultSummary "detection") ∅).insert
    "telemetry" (f.defaultSummary "telemetry")
  summaryQueue := []
  summaryCounter := 0
  defaultWindowDuration := 1000000000

def withDefaultWindowDuration (a : HierarchyAggregator) (duration : Nat) : HierarchyAggregator :=
  { a with defaultWindowDuration := duration }

def registerStrategy (a : HierarchyAggregator) (eventType : String) (strategy : SummaryStrategy) :
    HierarchyAggregator :=
  { a with summaryStrategies := a.summaryStrategies.insert eventType strategy }

def windowDuration (a : HierarchyAggregator) (e : PeatEvent) : Nat :=
  (e.routing.map fun r =>
    if r.aggregationWindowMs > 0 then r.aggregationWindowMs * 1000000
    else a.defaultWindowDuration).getD a.defaultWindowDuration

def windowFor (a : HierarchyAggregator) (e : PeatEvent) (now : Nat) : AggregationWindow :=
  (a.windows.lookup e.windowKey).getD
    (AggregationWindow.new (EventClass.ofWire e.eventClass) e.eventType (a.windowDuration e) now)

def receive (a : HierarchyAggregator) (e : PeatEvent) (now : Nat) : HierarchyAggregator :=
  match e.propagation with
  | .full => { a with passthroughQueue := a.passthroughQueue.push e }
  | .summary => { a with windows := a.windows.insert e.windowKey ((a.windowFor e now).add e) }
  | .query => { a with queryableStore := a.queryableStore.insert e.eventId e }
  | .local => a

def summaryId (tierId : String) (counter : Nat) : String :=
  tierId ++ "-summary-" ++ Nat.repr counter

def eventTypeBase (eventType : String) : String :=
  String.ofList (eventType.toList.takeWhile (· ≠ '.'))

def summaryPayload (f : Formats) (a : HierarchyAggregator) (w : AggregationWindow) : List UInt8 :=
  ((a.summaryStrategies.lookup (eventTypeBase w.eventType)).getD (f.defaultSummary w.eventType))
    w.events

def eventSummary (f : Formats) (a : HierarchyAggregator) (w : AggregationWindow) (now : Timestamp) :
    EventSummary where
  formationId := a.tierId
  windowStart := some now
  windowEnd := some now
  eventClass := w.eventClass.toI32
  eventType := w.eventType
  eventCount := w.eventCount % u32Count
  sourceNodeIds := w.sourceNodes
  summaryTypeUrl := "type.peat/summary." ++ w.eventType
  summaryValue := summaryPayload f a w

def summaryEvent (f : Formats) (a : HierarchyAggregator) (w : AggregationWindow) (now : Timestamp) :
    SummaryEvent where
  summary := eventSummary f a w now
  event :=
    { eventId := summaryId a.tierId (a.summaryCounter + 1)
      timestamp := some now
      sourceNodeId := a.tierId
      sourceFormationId := a.tierId
      sourceInstanceId := none
      eventClass := w.eventClass.toI32
      eventType := w.eventType ++ "_summary"
      routing := some ⟨PropagationMode.full.toI32, EventPriority.normal.toI32, 300, 0⟩
      payloadTypeUrl := "type.peat/event_summary." ++ w.eventType
      payloadValue := f.encode (eventSummary f a w now) }

def generateSummary (f : Formats) (a : HierarchyAggregator) (w : AggregationWindow) (now : Timestamp) :
    Option SummaryEvent × HierarchyAggregator :=
  if w.events.isEmpty then (none, a)
  else (some (summaryEvent f a w now), { a with summaryCounter := a.summaryCounter + 1 })

def flushWindow (f : Formats) (input : FlushInput) (a : HierarchyAggregator) (key : WindowKey) :
    Nat × HierarchyAggregator :=
  match a.windows.lookup key with
  | none => (0, a)
  | some w =>
    let generated := generateSummary f a w (input.stampedAt key)
    (generated.1.toList.length,
      { generated.2 with
        summaryQueue := generated.2.summaryQueue ++ generated.1.toList
        windows := generated.2.windows.insert key (w.reset (input.resetAt key)) })

def selectedKeys (a : HierarchyAggregator) (select : WindowKey → AggregationWindow → Bool) :
    List WindowKey := (a.windows.entries.filter fun e => select e.1 e.2).map Sigma.fst

def expiredKeys (a : HierarchyAggregator) (input : FlushInput) : List WindowKey :=
  a.selectedKeys fun key w => w.shouldFlush (input.checkedAt key) && !w.events.isEmpty

def nonEmptyKeys (a : HierarchyAggregator) : List WindowKey :=
  a.selectedKeys fun _ w => !w.events.isEmpty

def flushKeys (f : Formats) (input : FlushInput) (a : HierarchyAggregator) (keys : List WindowKey) :
    Nat × HierarchyAggregator :=
  keys.foldl (fun acc key =>
    let flushed := flushWindow f input acc.2 key
    (acc.1 + flushed.1, flushed.2)) (0, a)

def flushExpiredWindows (f : Formats) (a : HierarchyAggregator) (input : FlushInput) :
    Nat × HierarchyAggregator := flushKeys f input a (a.expiredKeys input)

def flushAllWindows (f : Formats) (a : HierarchyAggregator) (input : FlushInput) :
    Nat × HierarchyAggregator := flushKeys f input a a.nonEmptyKeys

def popPassthrough (a : HierarchyAggregator) : List PeatEvent × HierarchyAggregator :=
  let critical := a.passthroughQueue.popCritical
  let weighted := critical.2.popWeighted 100
  (critical.1 ++ weighted.1, { a with passthroughQueue := weighted.2 })

def popSummaries (a : HierarchyAggregator) : List SummaryEvent × HierarchyAggregator :=
  (a.summaryQueue, { a with summaryQueue := [] })

def popAll (a : HierarchyAggregator) : (List PeatEvent × List SummaryEvent) × HierarchyAggregator :=
  let passed := a.popPassthrough
  let summaries := passed.2.popSummaries
  ((passed.1, summaries.1), summaries.2)

/-! ## 3. What each operation does -/

variable (a : HierarchyAggregator)

theorem receive_cases (e : PeatEvent) (now : Nat) :
    (e.propagation = .full ∧ a.receive e now =
      { a with passthroughQueue := a.passthroughQueue.push e }) ∨
    (e.propagation = .summary ∧ a.receive e now =
      { a with windows := a.windows.insert e.windowKey ((a.windowFor e now).add e) }) ∨
    (e.propagation ≠ .full ∧ e.propagation ≠ .summary ∧
      ∃ store, a.receive e now = { a with queryableStore := store }) := by
  unfold receive
  cases e.propagation with
  | full => exact .inl ⟨rfl, rfl⟩
  | summary => exact .inr (.inl ⟨rfl, rfl⟩)
  | query => exact .inr (.inr ⟨nofun, nofun, _, rfl⟩)
  | «local» => exact .inr (.inr ⟨nofun, nofun, a.queryableStore, rfl⟩)

def openEvents (a : HierarchyAggregator) (key : WindowKey) : Nat :=
  (a.windows.lookup key).elim 0 AggregationWindow.eventCount

theorem openEvents_receive (e : PeatEvent) (now : Nat) (key : WindowKey) :
    (a.receive e now).openEvents key =
      a.openEvents key + if e.propagation = .summary ∧ e.windowKey = key then 1 else 0 := by
  rcases a.receive_cases e now with ⟨hmode, heq⟩ | ⟨hmode, heq⟩ | ⟨_, hmode, _, heq⟩ <;> rw [heq]
  · rw [if_neg fun h => by rw [hmode] at h; nomatch h.1]
    rfl
  · unfold openEvents
    rw [lookup_insert_eq_ite]
    split
    · rename_i hk
      rw [if_pos ⟨hmode, hk.symm⟩, hk]
      show ((a.windowFor e now).events ++ [e]).length = _
      rw [List.length_append, windowFor]
      cases a.windows.lookup e.windowKey <;> rfl
    · rename_i hk
      rw [if_neg fun h => hk h.2.symm]
      rfl
  · rw [if_neg fun h => hmode h.1]
    rfl

theorem summaryQueue_receive (e : PeatEvent) (now : Nat) :
    (a.receive e now).summaryQueue = a.summaryQueue := by
  rcases a.receive_cases e now with ⟨_, heq⟩ | ⟨_, heq⟩ | ⟨_, _, _, heq⟩ <;> rw [heq]

/-- **What a pop does**: `passed` and `returned` leave the two queues; windows and counter stay. -/
structure Pops (a : HierarchyAggregator) (passed : List PeatEvent) (returned : List SummaryEvent)
    (a' : HierarchyAggregator) : Prop where
  tier : a'.tierId = a.tierId
  windows : a'.windows = a.windows
  counter : a'.summaryCounter = a.summaryCounter
  passthrough : a.passthroughQueue.items.Perm (passed ++ a'.passthroughQueue.items)
  summaries : a.summaryQueue = returned ++ a'.summaryQueue

theorem popPassthrough_pops : Pops a a.popPassthrough.1 [] a.popPassthrough.2 :=
  ⟨rfl, rfl, rfl, (PriorityEventQueue.popCritical_removes _).trans
    (PriorityEventQueue.popWeighted_removes _ _), rfl⟩

theorem popSummaries_pops : Pops a [] a.popSummaries.1 a.popSummaries.2 :=
  ⟨rfl, rfl, rfl, List.Perm.refl _, (List.append_nil _).symm⟩

theorem popAll_pops : Pops a a.popAll.1.1 a.popAll.1.2 a.popAll.2 :=
  ⟨rfl, rfl, rfl, a.popPassthrough_pops.passthrough, (List.append_nil _).symm⟩

theorem flushWindow_cases (f : Formats) (input : FlushInput) (a : HierarchyAggregator)
    (key : WindowKey) :
    (a.windows.lookup key = none ∧ flushWindow f input a key = (0, a)) ∨
    (∃ w, a.windows.lookup key = some w ∧ w.events = [] ∧ flushWindow f input a key =
      (0, { a with windows := a.windows.insert key (w.reset (input.resetAt key)) })) ∨
    (∃ w, a.windows.lookup key = some w ∧ w.events ≠ [] ∧ flushWindow f input a key =
      (1, { a with
        windows := a.windows.insert key (w.reset (input.resetAt key))
        summaryQueue := a.summaryQueue ++ [summaryEvent f a w (input.stampedAt key)]
        summaryCounter := a.summaryCounter + 1 })) := by
  unfold flushWindow
  cases hw : a.windows.lookup key with
  | none => exact .inl ⟨rfl, rfl⟩
  | some w =>
    by_cases he : w.events = []
    · refine .inr (.inl ⟨w, rfl, he, ?_⟩)
      simp [generateSummary, he]
    · refine .inr (.inr ⟨w, rfl, he, ?_⟩)
      simp [generateSummary, he]

theorem openEvents_flushWindow (f : Formats) (input : FlushInput) (a : HierarchyAggregator)
    (key other : WindowKey) : (flushWindow f input a key).2.openEvents other =
      if other = key then 0 else a.openEvents other := by
  have hinsert : ∀ w : AggregationWindow,
      ((a.windows.insert key (w.reset (input.resetAt key))).lookup other).elim 0
        AggregationWindow.eventCount = if other = key then 0 else a.openEvents other := by
    intro w
    rw [lookup_insert_eq_ite]
    split <;> rfl
  rcases flushWindow_cases f input a key with ⟨hnone, h⟩ | ⟨w, _, _, h⟩ | ⟨w, _, _, h⟩ <;> rw [h]
  · by_cases ho : other = key
    · subst ho
      rw [if_pos rfl, openEvents, hnone]
      rfl
    · rw [if_neg ho]
  · exact hinsert w
  · exact hinsert w

theorem flushKeys_snd (f : Formats) (input : FlushInput) (a : HierarchyAggregator)
    (keys : List WindowKey) :
    (flushKeys f input a keys).2 = run (fun a key => (flushWindow f input a key).2) a keys := by
  have key : ∀ (n : Nat) (a : HierarchyAggregator), (keys.foldl (fun acc key =>
      let flushed := flushWindow f input acc.2 key
      (acc.1 + flushed.1, flushed.2)) (n, a)).2 =
      run (fun a key => (flushWindow f input a key).2) a keys := by
    induction keys with
    | nil => exact fun _ _ => rfl
    | cons k keys ih => exact fun n a => ih _ _
  exact key 0 a

theorem nodup_selectedKeys (select : WindowKey → AggregationWindow → Bool) :
    (a.selectedKeys select).Nodup :=
  (List.filter_sublist.map Sigma.fst).nodup a.windows.nodupKeys

theorem mem_selectedKeys {a : HierarchyAggregator} {key : WindowKey}
    {select : WindowKey → AggregationWindow → Bool} (h : key ∈ a.selectedKeys select) :
    ∃ w, a.windows.lookup key = some w ∧ select key w = true := by
  obtain ⟨⟨k, w⟩, he, rfl⟩ := List.mem_map.mp h
  obtain ⟨hmem, hsel⟩ := List.mem_filter.mp he
  exact ⟨w, lookup_eq_some_iff.mpr hmem, hsel⟩

end HierarchyAggregator

end Peat.Event
