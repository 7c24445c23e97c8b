/-
  EVENT QUERIES (event/query.rs): the in-memory store, a node's answer to a query and
  the merge of several answers.

  A store lists its events in the order of the hash map, which is any order:
  `HoldsAll` asks a central store for the same events, in any order.
-/
import Peat.Lib.HashMap
import Peat.Lib.TopK
import Peat.Event.Event

namespace Peat.Event

open Peat.Lib

/-! ## 1. The messages and the store -/

structure EventFilters where
  eventClass : Option Int
  eventType : Option String
  afterSeconds : Option Nat
  beforeSeconds : Option Nat
  sourceInstanceId : Option String
  deriving DecidableEq, Repr

structure EventQuery where
  queryId : String
  filters : Option EventFilters
  limit : Nat
  deriving DecidableEq, Repr

structure EventQueryResponse where
  queryId : String
  responderId : String
  events : List PeatEvent
  totalMatching : Nat
  truncated : Bool
  deriving DecidableEq, Repr

def PeatEvent.seconds (e : PeatEvent) : Nat := secondsOf e.timestamp

structure InMemoryEventStore where
  events : HashMap String PeatEvent
  keyed : ∀ id e, events.lookup id = some e → e.eventId = id

namespace InMemoryEventStore

def new : InMemoryEventStore := ⟨∅, fun _ _ h => nomatch h⟩

def store (s : InMemoryEventStore) (e : PeatEvent) : InMemoryEventStore where
  events := s.events.insert e.eventId e
  keyed := forall_lookup_insert rfl s.keyed

def values (s : InMemoryEventStore) : List PeatEvent := s.events.entries.map Sigma.snd

def passes (eventClass : Option EventClass) (eventType : Option String)
    (afterSeconds beforeSeconds : Option Nat) (sourceInstanceId : Option String) (e : PeatEvent) :
    Bool :=
  (eventClass.all fun c => e.eventClass = c.toI32) &&
  (eventType.all fun et => startsWith e.eventType et) &&
  (e.timestamp.all fun ts =>
    (afterSeconds.all fun after => !(ts.seconds < after)) &&
    (beforeSeconds.all fun before => !(ts.seconds > before))) &&
  (sourceInstanceId.all fun sid => e.sourceInstanceId = some sid)

def truncate (limit : Nat) (l : List PeatEvent) : List PeatEvent :=
  if limit > 0 ∧ l.length > limit then l.take limit else l

def query (s : InMemoryEventStore) (eventClass : Option EventClass) (eventType : Option String)
    (afterSeconds beforeSeconds : Option Nat) (sourceInstanceId : Option String) (limit : Nat) :
    List PeatEvent :=
  truncate limit (sortDesc PeatEvent.seconds
    (s.values.filter (passes eventClass eventType afterSeconds beforeSeconds sourceInstanceId)))

end InMemoryEventStore

/-! ## 2. The handler -/

structure EventQueryHandler where
  nodeId : String
  eventStore : InMemoryEventStore

def EventQuery.matching (q : EventQuery) : PeatEvent → Bool :=
  InMemoryEventStore.passes (q.filters.bind fun f => f.eventClass.map EventClass.ofWire)
    (q.filters.bind EventFilters.eventType) (q.filters.bind EventFilters.afterSeconds)
    (q.filters.bind EventFilters.beforeSeconds) (q.filters.bind EventFilters.sourceInstanceId)

namespace EventQueryHandler

open InMemoryEventStore

def queryLocal (h : EventQueryHandler) (q : EventQuery) : EventQueryResponse :=
  let events := h.eventStore.query (q.filters.bind fun f => f.eventClass.map EventClass.ofWire)
    (q.filters.bind EventFilters.eventType) (q.filters.bind EventFilters.afterSeconds)
    (q.filters.bind EventFilters.beforeSeconds) (q.filters.bind EventFilters.sourceInstanceId) q.limit
  let totalMatching := events.length % u32Count
  { queryId := q.queryId
    responderId := h.nodeId
    events := events
    totalMatching := totalMatching
    truncated := decide (q.limit > 0) && decide (totalMatching ≥ q.limit) }

def mergeResponses (queryId responderId : String) (responses : List EventQueryResponse)
    (limit : Nat) : EventQueryResponse :=
  let allEvents := sortDesc PeatEvent.seconds (responses.flatMap EventQueryResponse.events)
  let totalMatching := allEvents.length % u32Count
  { queryId := queryId
    responderId := responderId
    events := truncate limit allEvents
    totalMatching := totalMatching
    truncated := decide (limit > 0) && decide (totalMatching > limit) }

/-! ## 3. Distributed and central queries -/

def allEvents (hs : List EventQueryHandler) : List PeatEvent :=
  hs.flatMap fun h => h.eventStore.values

def allMatching (q : EventQuery) (hs : List EventQueryHandler) : List PeatEvent :=
  (allEvents hs).filter q.matching

/-- No event id is stored twice. -/
def DisjointIds (hs : List EventQueryHandler) : Prop :=
  hs.Pairwise fun a b => a.eventStore.events.Disjoint b.eventStore.events

/-- The central store has exactly the events of all stores. -/
def HoldsAll (central : EventQueryHandler) (hs : List EventQueryHandler) : Prop :=
  central.eventStore.values.Perm (allEvents hs)

def distributed (q : EventQuery) (queryId responderId : String) (hs : List EventQueryHandler) :
    EventQueryResponse :=
  mergeResponses queryId responderId (hs.map fun h => h.queryLocal q) q.limit

/-- **The distributed answer is the central one**, and the counters mean what they say. -/
structure Agrees (q : EventQuery) (queryId responderId : String) (hs : List EventQueryHandler)
    (central : EventQueryHandler) : Prop where
  events : (distributed q queryId responderId hs).events = (central.queryLocal q).events
  totalMatching : (distributed q queryId responderId hs).totalMatching =
    (central.queryLocal q).totalMatching
  truncated : (distributed q queryId responderId hs).truncated = (central.queryLocal q).truncated
  counts : (central.queryLocal q).totalMatching = (allMatching q hs).length
  omits : (central.queryLocal q).truncated = true ↔
    ∃ e ∈ allMatching q hs, e ∉ (central.queryLocal q).events

section Truncate

variable {limit n : Nat} {l : List PeatEvent}

def bound (limit n : Nat) : Nat := if limit = 0 then n else limit

theorem truncate_eq_take (h : l.length ≤ n) : truncate limit l = l.take (bound limit n) := by
  unfold truncate bound
  by_cases hz : limit = 0
  · have hno : ¬ (limit > 0 ∧ l.length > limit) := by omega
    rw [if_neg hno, if_pos hz, List.take_of_length_le h]
  · rw [if_neg hz]
    split
    · rfl
    · rename_i hc
      rw [List.take_of_length_le]
      omega

theorem length_truncate : (truncate limit l).length =
    if limit = 0 then l.length else min limit l.length := by
  rw [truncate_eq_take (Nat.le_refl _), List.length_take, bound]
  split <;> omega

theorem truncate_of_lt (h : limit = 0 ∨ l.length < limit) : truncate limit l = l := by
  unfold truncate
  rw [if_neg]
  omega

end Truncate

section Central

variable {q : EventQuery} {hs : List EventQueryHandler} {central : EventQueryHandler}

theorem events_queryLocal (h : EventQueryHandler) (q : EventQuery) : (h.queryLocal q).events =
    truncate q.limit (sortDesc PeatEvent.seconds (h.eventStore.values.filter q.matching)) := rfl

theorem allMatching_eq_flatten (q : EventQuery) (hs : List EventQueryHandler) :
    allMatching q hs = (hs.map fun h => h.eventStore.values.filter q.matching).flatten := by
  rw [allMatching, allEvents, List.filter_flatMap, List.flatMap_def]

theorem length_matching_le {h : EventQueryHandler} (hh : h ∈ hs) :
    (h.eventStore.values.filter q.matching).length ≤ (allMatching q hs).length := by
  rw [allMatching_eq_flatten]
  have hmem : h.eventStore.values.filter q.matching ∈
      hs.map fun h => h.eventStore.values.filter q.matching := List.mem_map.mpr ⟨h, hh, rfl⟩
  exact (List.sublist_flatten_of_mem hmem).length_le

theorem HoldsAll.matching (hc : HoldsAll central hs) (q : EventQuery) :
    (central.eventStore.values.filter q.matching).Perm (allMatching q hs) := hc.filter _

theorem events_distributed (queryId responderId : String)
    (hk : ((allMatching q hs).map PeatEvent.seconds).Nodup) (hc : HoldsAll central hs) :
    (distributed q queryId responderId hs).events = (central.queryLocal q).events := by
  let parts := hs.map fun h => h.eventStore.values.filter q.matching
  let k := bound q.limit (allMatching q hs).length
  have hlocal : ∀ h ∈ hs, (h.queryLocal q).events =
      topK PeatEvent.seconds k (h.eventStore.values.filter q.matching) := by
    intro h hh
    refine truncate_eq_take ?_
    rw [(perm_sortDesc _ _).length_eq]
    exact length_matching_le hh
  have hall : (hs.map fun h => h.queryLocal q).flatMap EventQueryResponse.events =
      parts.flatMap (topK PeatEvent.seconds k) := by
    rw [List.flatMap_map, List.flatMap_map]
    exact List.flatMap_congr hlocal
  have hlen : (parts.flatMap (topK PeatEvent.seconds k)).length ≤ (allMatching q hs).length := by
    rw [allMatching_eq_flatten]
    exact (flatMap_topK_subperm _ _ _).length_le
  have hmerged : (distributed q queryId responderId hs).events =
      topK PeatEvent.seconds k (parts.flatMap (topK PeatEvent.seconds k)) := by
    show truncate q.limit (sortDesc _ ((hs.map fun h => h.queryLocal q).flatMap _)) = _
    rw [hall]
    refine truncate_eq_take ?_
    rw [(perm_sortDesc _ _).length_eq]
    exact hlen
  have hcentral : (central.queryLocal q).events =
      topK PeatEvent.seconds k (allMatching q hs) := by
    rw [events_queryLocal, ← sortDesc_congr hk (hc.matching q).symm]
    refine truncate_eq_take ?_
    rw [(perm_sortDesc _ _).length_eq]
  rw [hmerged, hcentral, allMatching_eq_flatten]
  rw [allMatching_eq_flatten] at hk
  exact topK_flatMap_topK hk

theorem perm_distributed (hlimit : q.limit = 0 ∨ (allMatching q hs).length < q.limit) :
    ((hs.map fun h => h.queryLocal q).flatMap EventQueryResponse.events).Perm (allMatching q hs) := by
  rw [allMatching, allEvents, List.filter_flatMap, List.flatMap_map]
  refine List.Perm.flatMap_left _ fun h hh => ?_
  have hle := length_matching_le (q := q) hh
  rw [events_queryLocal, truncate_of_lt]
  · exact perm_sortDesc _ _
  · rw [(perm_sortDesc _ _).length_eq]
    omega

theorem events_central (hc : HoldsAll central hs)
    (hlimit : q.limit = 0 ∨ (allMatching q hs).length < q.limit) : (central.queryLocal q).events =
      sortDesc PeatEvent.seconds (central.eventStore.values.filter q.matching) := by
  rw [events_queryLocal, truncate_of_lt]
  rw [(perm_sortDesc _ _).length_eq, (hc.matching q).length_eq]
  exact hlimit

theorem Agrees.below_limit {queryId responderId : String} (hc : HoldsAll central hs)
    (h : Agrees q queryId responderId hs central) : (allMatching q hs).length < u32Count ∧
      (q.limit = 0 ∨ (allMatching q hs).length < q.limit) := by
  have hlen : (central.queryLocal q).events.length =
      if q.limit = 0 then (allMatching q hs).length else min q.limit (allMatching q hs).length := by
    rw [events_queryLocal, length_truncate, (perm_sortDesc _ _).length_eq, (hc.matching q).length_eq]
  have hcount : (central.queryLocal q).events.length % u32Count = (allMatching q hs).length := h.counts
  have hmod : (central.queryLocal q).events.length % u32Count < u32Count :=
    Nat.mod_lt _ (by decide)
  have hle := Nat.mod_le (central.queryLocal q).events.length u32Count
  refine ⟨hcount ▸ hmod, ?_⟩
  by_contra hno
  obtain ⟨hpos, hreach⟩ := not_or.mp hno
  rw [if_neg hpos] at hlen
  -- exactly as many as the limit: nothing is omitted, yet the answer calls itself truncated
  have hexact : (allMatching q hs).length = q.limit := by omega
  have htrunc : (central.queryLocal q).truncated = true := by
    show (decide (q.limit > 0) &&
      decide ((central.queryLocal q).events.length % u32Count ≥ q.limit)) = true
    rw [hcount, hexact]
    simp only [ge_iff_le, le_refl, decide_true, Bool.and_true, decide_eq_true_eq]
    exact Nat.pos_of_ne_zero hpos
  obtain ⟨e, he, hnot⟩ := h.omits.mp htrunc
  refine hnot ?_
  rw [events_queryLocal, truncate, if_neg]
  · exact (perm_sortDesc _ _).mem_iff.mpr ((hc.matching q).mem_iff.mpr he)
  · rw [(perm_sortDesc _ _).length_eq, (hc.matching q).length_eq]
    omega

theorem agrees_of_below_limit (queryId responderId : String) (hc : HoldsAll central hs)
    (hk : ((allMatching q hs).map PeatEvent.seconds).Nodup)
    (hsmall : (allMatching q hs).length < u32Count)
    (hlimit : q.limit = 0 ∨ (allMatching q hs).length < q.limit) :
    Agrees q queryId responderId hs central := by
  have hctotal : (central.queryLocal q).totalMatching = (allMatching q hs).length := by
    show (central.queryLocal q).events.length % u32Count = _
    rw [events_central hc hlimit, (perm_sortDesc _ _).length_eq, (hc.matching q).length_eq,
      Nat.mod_eq_of_lt hsmall]
  have hdtotal : (distributed q queryId responderId hs).totalMatching =
      (allMatching q hs).length := by
    show (sortDesc _ ((hs.map fun h => h.queryLocal q).flatMap _)).length % u32Count = _
    rw [(perm_sortDesc _ _).length_eq, (perm_distributed hlimit).length_eq, Nat.mod_eq_of_lt hsmall]
  have hctrunc : (central.queryLocal q).truncated = false := by
    show (decide (q.limit > 0) && decide ((central.queryLocal q).totalMatching ≥ q.limit)) = false
    rw [hctotal, ← Bool.decide_and]
    exact decide_eq_false (by omega)
  have hdtrunc : (distributed q queryId responderId hs).truncated = false := by
    show (decide (q.limit > 0) &&
      decide ((distributed q queryId responderId hs).totalMatching > q.limit)) = false
    rw [hdtotal, ← Bool.decide_and]
    exact decide_eq_false (by omega)
  refine ⟨events_distributed queryId responderId hk hc, hdtotal.trans hctotal.symm,
    hdtrunc.trans hctrunc.symm, hctotal, ?_⟩
  rw [hctrunc, events_central hc hlimit]
  refine iff_of_false Bool.false_ne_true ?_
  rintro ⟨e, he, hnot⟩
  exact hnot ((perm_sortDesc _ _).mem_iff.mpr ((hc.matching q).mem_iff.mpr he))

end Central

/-! ## 4. Every order of the central store -/

theorem map_eventId_values (s : InMemoryEventStore) : s.values.map PeatEvent.eventId = s.events.keys := by
  rw [InMemoryEventStore.values, List.map_map]
  refine List.map_congr_left fun entry hentry => ?_
  exact s.keyed entry.1 entry.2 (lookup_eq_some_iff.mpr hentry)

theorem nodup_eventIds {hs : List EventQueryHandler} (hd : DisjointIds hs) :
    ((allEvents hs).map PeatEvent.eventId).Nodup := by
  rw [allEvents, List.map_flatMap]
  simp only [map_eventId_values]
  refine List.nodup_flatMap.mpr ⟨fun h _ => h.eventStore.events.nodupKeys, ?_⟩
  exact hd.imp fun hab id ha hb => hab id ha hb

def ofEvents (l : List PeatEvent) (h : (l.map PeatEvent.eventId).Nodup) : InMemoryEventStore where
  events := ⟨l.map fun e => ⟨e.eventId, e⟩, by
    show List.Nodup (List.keys _)
    rw [List.keys, List.map_map]
    exact h⟩
  keyed := by
    intro id e he
    obtain ⟨x, _, hx⟩ := List.mem_map.mp (lookup_eq_some_iff.mp he)
    cases hx
    rfl

theorem values_ofEvents {l : List PeatEvent} (h : (l.map PeatEvent.eventId).Nodup) :
    (ofEvents l h).values = l := by
  show (l.map fun e => (⟨e.eventId, e⟩ : Σ _ : String, PeatEvent)).map Sigma.snd = l
  rw [List.map_map]
  exact List.map_id l

theorem exists_central {q : EventQuery} {hs : List EventQueryHandler} (hd : DisjointIds hs)
    {l : List PeatEvent} (hl : l.Perm (allMatching q hs)) :
    ∃ central, HoldsAll central hs ∧ central.eventStore.values.filter q.matching = l := by
  let rest := (allEvents hs).filter fun e => !q.matching e
  have hperm : (l ++ rest).Perm (allEvents hs) :=
    (hl.append_right rest).trans (List.filter_append_perm _ _)
  have hids : ((l ++ rest).map PeatEvent.eventId).Nodup :=
    (hperm.map _).nodup_iff.mpr (nodup_eventIds hd)
  refine ⟨⟨"central", ofEvents (l ++ rest) hids⟩, ?_, ?_⟩
  · show (ofEvents _ hids).values.Perm _
    rw [values_ofEvents]
    exact hperm
  · show (ofEvents _ hids).values.filter _ = l
    have hkeep : l.filter q.matching = l :=
      List.filter_eq_self.mpr fun e he => (List.mem_filter.mp (hl.mem_iff.mp he)).2
    have hdrop : rest.filter q.matching = [] := by
      refine List.filter_eq_nil_iff.mpr fun e he => ?_
      have := (List.mem_filter.mp he).2
      rw [Bool.not_eq_true'] at this
      rw [this]
      exact Bool.false_ne_true
    rw [values_ofEvents, List.filter_append, hkeep, hdrop, List.append_nil]

/-- **Distributed and central query** over stores with disjoint ids: the events agree whenever the matching
    ones differ in their seconds; the whole answer exactly when moreover fewer than `limit` events match. -/
theorem distributed_query_iff (q : EventQuery) (queryId responderId : String)
    (hs : List EventQueryHandler) (hd : DisjointIds hs) :
    (((allMatching q hs).map PeatEvent.seconds).Nodup → ∀ central, HoldsAll central hs →
      (distributed q queryId responderId hs).events = (central.queryLocal q).events) ∧
    ((∀ central, HoldsAll central hs → Agrees q queryId responderId hs central) ↔
      ((allMatching q hs).map PeatEvent.seconds).Nodup ∧
      (allMatching q hs).length < u32Count ∧
      (q.limit = 0 ∨ (allMatching q hs).length < q.limit)) := by
  refine ⟨fun hk central hc => events_distributed queryId responderId hk hc, ?_, ?_⟩
  · intro hall
    obtain ⟨central, hc, _⟩ := exists_central hd (List.Perm.refl (allMatching q hs))
    have hbelow := (hall central hc).below_limit hc
    refine ⟨?_, hbelow⟩
    have hnodup : (allMatching q hs).Nodup := ((nodup_eventIds hd).of_map).filter _
    refine nodup_keys_of_sortDesc_const (s := (distributed q queryId responderId hs).events) hnodup
      fun l hl => ?_
    obtain ⟨central, hc, hval⟩ := exists_central hd hl
    rw [(hall central hc).events, events_central hc hbelow.2, hval]
  · rintro ⟨hk, hsmall, hlimit⟩ central hc
    exact agrees_of_below_limit queryId responderId hc hk hsmall hlimit

def eventAt (id : String) (seconds : Nat) : PeatEvent :=
  { eventId := id, timestamp := some ⟨seconds, 0⟩, sourceNodeId := "n1", sourceFormationId := "c1",
    sourceInstanceId := none, eventClass := 1, eventType := "detection", routing := none,
    payloadTypeUrl := "", payloadValue := [] }

def twoNodes : List EventQueryHandler :=
  [⟨"n1", InMemoryEventStore.new.store (eventAt "a" 2)⟩,
    ⟨"n2", InMemoryEventStore.new.store (eventAt "b" 1)⟩]

theorem disjointIds_twoNodes : DisjointIds twoNodes := by
  unfold DisjointIds twoNodes
  simp [AList.Disjoint, InMemoryEventStore.store, InMemoryEventStore.new, eventAt]

theorem distributed_query_iff_twoNodes :
    DisjointIds twoNodes ∧ ∀ central, HoldsAll central twoNodes →
      Agrees ⟨"q", none, 3⟩ "q" "n1" twoNodes central :=
  ⟨disjointIds_twoNodes, (distributed_query_iff ⟨"q", none, 3⟩ "q" "n1" twoNodes
    disjointIds_twoNodes).2.mpr (by decide)⟩

/-- **The limit hides matches**: of two matching events, a central store asked for one counts one; the
    merged answer of two stores counts both. -/
theorem limit_hides_matches :
    let q : EventQuery := ⟨"q", none, 1⟩
    let central : EventQueryHandler :=
      ⟨"c", (InMemoryEventStore.new.store (eventAt "a" 2)).store (eventAt "b" 1)⟩
    DisjointIds twoNodes ∧ HoldsAll central twoNodes ∧ (allMatching q twoNodes).length = 2 ∧
      (central.queryLocal q).totalMatching = 1 ∧
      (distributed q "q" "n1" twoNodes).totalMatching = 2 ∧
      ¬ Agrees q "q" "n1" twoNodes central := by
  have hd := disjointIds_twoNodes
  refine ⟨hd, by unfold HoldsAll; decide, by decide, by decide, by decide, fun h => ?_⟩
  exact absurd h.totalMatching (by decide)

end EventQueryHandler

end Peat.Event
