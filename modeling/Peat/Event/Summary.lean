/-
  TELEMETRY SUMMARIES (`TelemetrySummaryStrategy` in event/summary.rs): for every metric
  the least, greatest and average value and their number, out of the JSON payloads of a
  list of events.

  Every event is a sample of the metric its TYPE names, with no value (`Sample.event`),
  in the record that collects the values of payloads under that name. How `serde_json`
  reads a payload is an argument.
-/
import Mathlib.Algebra.Field.Rat
import Mathlib.Algebra.Order.Ring.Rat
import Peat.Event.Event
import Peat.Lib.Grouping
import Peat.Lib.KeyedFold

namespace Peat.Event

open Peat.Lib

/-! ## 1. The statistics of a metric -/

def Build.inc : Build → Nat → Option Nat
  | .checked, n => if n + 1 < u32Count then some (n + 1) else none
  | .release, n => some ((n + 1) % u32Count)

structure MetricStats where
  min : ℚ
  max : ℚ
  sum : ℚ
  count : Nat
  deriving DecidableEq

structure MetricSummaryStats where
  min : ℚ
  max : ℚ
  avg : ℚ
  count : Nat
  deriving DecidableEq

namespace MetricStats

def default : MetricStats := ⟨0, 0, 0, 0⟩

def update (b : Build) (s : MetricStats) (value : ℚ) : Option MetricStats := do
  let count ← b.inc s.count
  if s.count = 0 then some ⟨value, value, s.sum + value, count⟩
  else some ⟨Min.min s.min value, Max.max s.max value, s.sum + value, count⟩

def countEvent (b : Build) (s : MetricStats) : Option MetricStats :=
  if s.count = 0 then some { s with count := 1 }
  else do
    let count ← b.inc s.count
    some { s with count := count }

def finalize (s : MetricStats) : MetricSummaryStats :=
  ⟨s.min, s.max, if s.count > 0 then s.sum / s.count else 0, s.count⟩

end MetricStats

/-! ## 2. The strategy -/

inductive JsonValue where
  | number (v : ℚ)
  | object (fields : List (String × JsonValue))
  | other

def JsonValue.asF64 : JsonValue → Option ℚ
  | .number v => some v
  | _ => none

def JsonValue.asObject : JsonValue → Option (List (String × JsonValue))
  | .object fields => some fields
  | _ => none

structure TelemetrySummary where
  metrics : HashMap String MetricSummaryStats
  sampleCount : Nat

namespace TelemetrySummaryStrategy

def metricName (eventType : String) : String :=
  if startsWith eventType "telemetry." then
    String.ofList (eventType.toList.drop "telemetry.".toList.length)
  else eventType

def trackFields (b : Build) (metrics : HashMap String MetricStats)
    (fields : List (String × JsonValue)) : Option (HashMap String MetricStats) :=
  fields.foldlM
    (fun metrics field =>
      match field.2.asF64 with
      | some v => updateAt .default (MetricStats.update b) metrics (field.1, v)
      | none => some metrics)
    metrics

def trackPayload (b : Build) (parse : List UInt8 → Option JsonValue)
    (metrics : HashMap String MetricStats) (e : PeatEvent) : Option (HashMap String MetricStats) :=
  if !e.payloadValue.isEmpty then
    match parse e.payloadValue with
    | some payload =>
      match payload.asObject with
      | some fields => trackFields b metrics fields
      | none => some metrics
    | none => some metrics
  else some metrics

def trackEvent (b : Build) (parse : List UInt8 → Option JsonValue)
    (metrics : HashMap String MetricStats) (e : PeatEvent) :
    Option (HashMap String MetricStats) := do
  let metrics ← trackPayload b parse metrics e
  updateAt .default (fun s (_ : Unit) => s.countEvent b) metrics (metricName e.eventType, ())

def summarize (b : Build) (parse : List UInt8 → Option JsonValue) (events : List PeatEvent) :
    Option TelemetrySummary := do
  let metrics ← events.foldlM (trackEvent b parse) ∅
  some ⟨mapVal (fun _ stats => stats.finalize) metrics, events.length % u32Count⟩

/-! ## 3. The samples of a metric -/

inductive Sample where
  | value (v : ℚ)
  | event

def take (b : Build) (s : MetricStats) : Sample → Option MetricStats
  | .value v => s.update b v
  | .event => s.countEvent b

section Samples

variable (b : Build) (parse : List UInt8 → Option JsonValue)

def fieldValues (fields : List (String × JsonValue)) : List (String × ℚ) :=
  fields.filterMap fun field => field.2.asF64.map fun v => (field.1, v)

def payloadValues (e : PeatEvent) : List (String × ℚ) :=
  if !e.payloadValue.isEmpty then
    match (parse e.payloadValue).bind JsonValue.asObject with
    | some fields => fieldValues fields
    | none => []
  else []

def samples (e : PeatEvent) : List (String × Sample) :=
  (payloadValues parse e).map (fun x => (x.1, .value x.2)) ++ [(metricName e.eventType, .event)]

/-- **The values observed for a metric.** -/
def valuesOf (events : List PeatEvent) (metric : String) : List ℚ :=
  itemsAt metric (events.flatMap (payloadValues parse))

def namesOf (events : List PeatEvent) (metric : String) : Nat :=
  events.countP fun e => metricName e.eventType = metric

def history (events : List PeatEvent) (metric : String) : List Sample :=
  itemsAt metric (events.flatMap (samples parse))

variable {b parse}

variable (metrics : HashMap String MetricStats)

theorem trackFields_eq (fields : List (String × JsonValue)) :
    trackFields b metrics fields =
      ((fieldValues fields).map fun x => (x.1, Sample.value x.2)).foldlM
        (updateAt .default (take b)) metrics := by
  unfold trackFields fieldValues
  induction fields generalizing metrics with
  | nil => rfl
  | cons field fields ih =>
    rw [List.foldlM_cons]
    cases hv : field.2.asF64 with
    | none =>
      rw [List.filterMap_cons_none (by rw [hv]; rfl)]
      exact ih metrics
    | some v =>
      rw [List.filterMap_cons_some (b := (field.1, v)) (by rw [hv]; rfl), List.map_cons,
        List.foldlM_cons]
      exact congrArg (Option.bind _) (funext ih)

theorem trackPayload_eq (e : PeatEvent) :
    trackPayload b parse metrics e =
      ((payloadValues parse e).map fun x => (x.1, Sample.value x.2)).foldlM
        (updateAt .default (take b)) metrics := by
  unfold trackPayload payloadValues
  by_cases hempty : (!e.payloadValue.isEmpty) = true
  · rw [if_pos hempty, if_pos hempty]
    cases parse e.payloadValue with
    | none => rfl
    | some payload =>
      dsimp only [Option.bind_some]
      cases payload.asObject with
      | none => rfl
      | some fields => exact trackFields_eq metrics fields
  · rw [if_neg hempty, if_neg hempty]
    rfl

theorem trackEvent_eq (e : PeatEvent) :
    trackEvent b parse metrics e =
      (samples parse e).foldlM (updateAt .default (take b)) metrics := by
  unfold trackEvent samples
  rw [List.foldlM_append, trackPayload_eq]
  refine congrArg (Option.bind _) (funext fun m => ?_)
  rw [List.foldlM_cons]
  exact (bind_pure _).symm

theorem foldlM_trackEvent (events : List PeatEvent) :
    events.foldlM (trackEvent b parse) metrics =
      (events.flatMap (samples parse)).foldlM (updateAt .default (take b)) metrics := by
  induction events generalizing metrics with
  | nil => rfl
  | cons e events ih =>
    rw [List.foldlM_cons, List.flatMap_cons, List.foldlM_append, trackEvent_eq]
    exact congrArg (Option.bind _) (funext ih)

theorem history_cons (e : PeatEvent) (events : List PeatEvent) (metric : String) :
    history parse (e :: events) metric =
      (itemsAt metric (payloadValues parse e)).map .value ++
        ((if metricName e.eventType = metric then [.event] else []) ++
          history parse events metric) := by
  unfold history
  rw [List.flatMap_cons, itemsAt_append, samples, itemsAt_append, itemsAt_map, itemsAt_cons,
    List.append_assoc]
  rfl

theorem valuesOf_cons (e : PeatEvent) (events : List PeatEvent) (metric : String) :
    valuesOf parse (e :: events) metric =
      itemsAt metric (payloadValues parse e) ++ valuesOf parse events metric := by
  unfold valuesOf
  rw [List.flatMap_cons, itemsAt_append]

theorem namesOf_cons (e : PeatEvent) (events : List PeatEvent) (metric : String) :
    namesOf (e :: events) metric =
      namesOf events metric + if metricName e.eventType = metric then 1 else 0 := by
  unfold namesOf
  rw [List.countP_cons]
  simp only [decide_eq_true_eq]

theorem length_history (events : List PeatEvent) (metric : String) :
    (history parse events metric).length =
      (valuesOf parse events metric).length + namesOf events metric := by
  induction events with
  | nil => rfl
  | cons e events ih =>
    rw [history_cons, valuesOf_cons, namesOf_cons, List.length_append, List.length_append,
      List.length_append, List.length_map, ih]
    split <;> simp only [List.length_cons, List.length_nil] <;> omega

theorem history_of_namesOf {events : List PeatEvent} {metric : String}
    (h : namesOf events metric = 0) :
    history parse events metric = (valuesOf parse events metric).map .value := by
  induction events with
  | nil => rfl
  | cons e events ih =>
    rw [namesOf_cons] at h
    rw [history_cons, valuesOf_cons, List.map_append, ih (by omega)]
    split at h
    · omega
    · rename_i hname
      rw [if_neg hname]
      rfl

end Samples

/-! ## 4. One record -/

section Record

variable {b : Build} {s s' : MetricStats}

def after (s : MetricStats) (count : Nat) : Sample → MetricStats
  | .value v =>
    if s.count = 0 then ⟨v, v, s.sum + v, count⟩
    else ⟨min s.min v, max s.max v, s.sum + v, count⟩
  | .event => { s with count := count }

theorem count_after (s : MetricStats) (count : Nat) (x : Sample) : (after s count x).count = count := by
  cases x with
  | value v =>
    dsimp only [after]
    split <;> rfl
  | event => rfl

theorem after_value {s : MetricStats} (h : s.count ≠ 0) (count : Nat) (v : ℚ) :
    after s count (.value v) = ⟨min s.min v, max s.max v, s.sum + v, count⟩ := if_neg h

theorem take_eq (b : Build) (s : MetricStats) (x : Sample) :
    take b s x = (b.inc s.count).map fun count => after s count x := by
  cases x with
  | value v =>
    show (b.inc s.count).bind _ = _
    cases b.inc s.count with
    | none => rfl
    | some count =>
      dsimp only [Option.bind_some, Option.map_some, after]
      split <;> rfl
  | event =>
    unfold take MetricStats.countEvent
    by_cases h : s.count = 0
    · rw [if_pos h, h]
      cases b <;> rfl
    · rw [if_neg h]
      cases b.inc s.count <;> rfl

theorem inc_of_lt {n : Nat} (h : n + 1 < u32Count) : b.inc n = some (n + 1) := by
  cases b with
  | checked => exact if_pos h
  | release => exact congrArg some (Nat.mod_eq_of_lt h)

theorem inc_eq_some {n m : Nat} (h : b.inc n = some m) : m = (n + 1) % u32Count := by
  cases b with
  | checked =>
    by_cases hlt : n + 1 < u32Count
    · rw [inc_of_lt hlt] at h
      rw [Nat.mod_eq_of_lt hlt]
      exact (Option.some.inj h).symm
    · have hnone : Build.checked.inc n = none := if_neg hlt
      rw [hnone] at h
      nomatch h
  | release => exact (Option.some.inj h).symm

theorem count_take {x : Sample} (h : take b s x = some s') : s'.count = (s.count + 1) % u32Count := by
  rw [take_eq] at h
  obtain ⟨count, hcount, rfl⟩ := Option.map_eq_some_iff.mp h
  rw [count_after]
  exact inc_eq_some hcount

theorem count_foldlM {l : List Sample} (hs : s.count < u32Count)
    (h : l.foldlM (take b) s = some s') : s'.count = (s.count + l.length) % u32Count := by
  induction l generalizing s with
  | nil =>
    cases h
    exact (Nat.mod_eq_of_lt hs).symm
  | cons x l ih =>
    rw [List.foldlM_cons] at h
    obtain ⟨s₁, hone, hrest⟩ := Option.bind_eq_some_iff.mp h
    have hcount := count_take hone
    have hlt : s₁.count < u32Count := by
      rw [hcount]
      exact Nat.mod_lt _ (by decide)
    rw [ih hlt hrest, hcount, Nat.mod_add_mod, List.length_cons, Nat.add_assoc, Nat.add_comm 1]

theorem exists_foldlM_checked (l : List Sample) (hs : s.count < u32Count) :
    (∃ s', l.foldlM (take .checked) s = some s') ↔ s.count + l.length < u32Count := by
  induction l generalizing s with
  | nil => exact iff_of_true ⟨s, rfl⟩ hs
  | cons x l ih =>
    rw [List.foldlM_cons, take_eq, List.length_cons]
    by_cases hlt : s.count + 1 < u32Count
    · rw [inc_of_lt hlt, Option.map_some, Option.bind_eq_bind, Option.bind_some]
      have hrest := ih (s := after s (s.count + 1) x) (by rw [count_after]; exact hlt)
      rw [count_after] at hrest
      rw [hrest, Nat.add_assoc, Nat.add_comm 1]
    · have hnone : Build.checked.inc s.count = none := if_neg hlt
      rw [hnone]
      exact iff_of_false (fun ⟨_, h⟩ => nomatch h) (by omega)

theorem exists_foldlM_release (l : List Sample) (s : MetricStats) :
    ∃ s', l.foldlM (take .release) s = some s' := by
  induction l generalizing s with
  | nil => exact ⟨s, rfl⟩
  | cons x l ih =>
    rw [List.foldlM_cons, take_eq]
    exact ih _

theorem foldlM_values (vs : List ℚ) (hpos : 0 < s.count) (h : s.count + vs.length < u32Count) :
    (vs.map Sample.value).foldlM (take b) s =
      some ⟨vs.foldl min s.min, vs.foldl max s.max, s.sum + vs.sum, s.count + vs.length⟩ := by
  induction vs generalizing s with
  | nil =>
    rw [List.sum_nil, add_zero]
    rfl
  | cons v vs ih =>
    rw [List.length_cons] at h
    rw [List.map_cons, List.foldlM_cons, take_eq, inc_of_lt (by omega), Option.map_some,
      after_value (Nat.ne_of_gt hpos)]
    refine (ih (Nat.succ_pos _) ?_).trans ?_
    · show s.count + 1 + vs.length < u32Count
      omega
    · rw [List.sum_cons, List.length_cons, add_assoc, Nat.add_assoc, Nat.add_comm 1]
      rfl

/-- **A metric is described**: how many values there are, the least and the greatest of them and their
    mean, which lies in between. -/
structure Describes (vs : List ℚ) (stats : MetricSummaryStats) : Prop where
  count : stats.count = vs.length
  least : IsLeast (values id vs) stats.min
  greatest : IsGreatest (values id vs) stats.max
  avg : stats.avg = mean vs
  between : stats.min ≤ stats.avg ∧ stats.avg ≤ stats.max

theorem describes_values {vs : List ℚ} (hne : vs ≠ []) (h : vs.length < u32Count) :
    ∃ s, (vs.map Sample.value).foldlM (take b) .default = some s ∧ Describes vs s.finalize := by
  obtain ⟨v, rest, rfl⟩ := List.exists_cons_of_ne_nil hne
  rw [List.length_cons] at h
  have hfirst : take b .default (.value v) = some ⟨v, v, 0 + v, 1⟩ := by
    rw [take_eq]
    cases b <;> rfl
  have hfold := foldlM_values (b := b) (s := ⟨v, v, 0 + v, 1⟩) rest Nat.one_pos
    (by rw [Nat.add_comm]; exact h)
  dsimp only at hfold
  refine ⟨_, by rw [List.map_cons, List.foldlM_cons, hfirst]; exact hfold, ?_⟩
  have hleast := isLeast_lowest id v rest
  have hgreatest := isGreatest_highest id v rest
  have havg : (0 + v + rest.sum) / ((1 + rest.length : Nat) : ℚ) = mean (v :: rest) := by
    rw [zero_add, Nat.add_comm, mean, List.sum_cons, List.length_cons]
  unfold lowest at hleast
  unfold highest at hgreatest
  rw [List.map_id] at hleast hgreatest
  have hfinal : MetricStats.finalize
      ⟨rest.foldl min v, rest.foldl max v, 0 + v + rest.sum, 1 + rest.length⟩ =
        ⟨rest.foldl min v, rest.foldl max v, mean (v :: rest), 1 + rest.length⟩ := by
    unfold MetricStats.finalize
    rw [if_pos (Nat.add_pos_left Nat.one_pos _), havg]
  rw [hfinal]
  exact ⟨Nat.add_comm _ _, hleast, hgreatest, rfl,
    le_mean hne fun x hx => hleast.2 ⟨x, hx, rfl⟩, mean_le hne fun x hx => hgreatest.2 ⟨x, hx, rfl⟩⟩

end Record

/-! ## 5. The summary -/

section Summary

variable {b : Build} {parse : List UInt8 → Option JsonValue} {events : List PeatEvent}
  {summary : TelemetrySummary} {metric : String}

theorem summarize_spec (h : summarize b parse events = some summary)
    (hne : history parse events metric ≠ []) :
    ∃ s, (history parse events metric).foldlM (take b) .default = some s ∧
      summary.metrics.lookup metric = some s.finalize := by
  obtain ⟨metrics, hfold, hsummary⟩ := Option.bind_eq_some_iff.mp h
  cases hsummary
  rw [foldlM_trackEvent] at hfold
  obtain ⟨hown, hthere⟩ := foldlM_updateAt hfold metric
  obtain ⟨s, hs⟩ := Option.isSome_iff_exists.mp (hthere (.inr hne))
  rw [hs] at hown
  refine ⟨s, hown, ?_⟩
  rw [lookup_mapVal, hs]
  rfl

theorem exists_summarize : (∃ summary, summarize b parse events = some summary) ↔
    ∀ metric, ∃ s, (history parse events metric).foldlM (take b) .default = some s := by
  have hfold : (∃ metrics, events.foldlM (trackEvent b parse) ∅ = some metrics) ↔
      ∀ metric, ∃ s, (history parse events metric).foldlM (take b) .default = some s := by
    rw [foldlM_trackEvent]
    exact exists_foldlM_updateAt
  rw [← hfold]
  constructor
  · intro ⟨_, h⟩
    obtain ⟨metrics, hm, _⟩ := Option.bind_eq_some_iff.mp h
    exact ⟨metrics, hm⟩
  · intro ⟨metrics, hm⟩
    exact ⟨_, Option.bind_eq_some_iff.mpr ⟨metrics, hm, rfl⟩⟩

/-- **The summary is accurate**: it describes every metric for which a value was observed. -/
def Accurate (parse : List UInt8 → Option JsonValue) (events : List PeatEvent)
    (summary : TelemetrySummary) : Prop :=
  ∀ metric, valuesOf parse events metric ≠ [] →
    ∃ stats, summary.metrics.lookup metric = some stats ∧
      Describes (valuesOf parse events metric) stats

theorem history_ne_nil (h : valuesOf parse events metric ≠ []) : history parse events metric ≠ [] := by
  intro hnil
  have hlen : (history parse events metric).length = _ := length_history events metric
  rw [hnil, List.length_nil] at hlen
  exact h (List.length_eq_zero_iff.mp (by omega))

theorem Accurate.count (hacc : Accurate parse events summary)
    (h : summarize b parse events = some summary) (hne : valuesOf parse events metric ≠ []) :
    ((valuesOf parse events metric).length + namesOf events metric) % u32Count =
      (valuesOf parse events metric).length := by
  obtain ⟨stats, hstats, hdesc⟩ := hacc metric hne
  obtain ⟨s, hfold, hlookup⟩ := summarize_spec h (history_ne_nil hne)
  rw [hlookup] at hstats
  cases hstats
  have hcount := count_foldlM (by decide) hfold
  have hzero : MetricStats.default.count = 0 := rfl
  rw [length_history, hzero, Nat.zero_add] at hcount
  exact hcount.symm.trans hdesc.count

theorem accurate_of_names (h : summarize b parse events = some summary)
    (hclear : ∀ metric, valuesOf parse events metric ≠ [] →
      namesOf events metric = 0 ∧ (valuesOf parse events metric).length < u32Count) :
    Accurate parse events summary := by
  intro metric hne
  obtain ⟨hnames, hlen⟩ := hclear metric hne
  obtain ⟨s, hfold, hlookup⟩ := summarize_spec h (history_ne_nil hne)
  obtain ⟨s', hfold', hdesc⟩ := describes_values (b := b) hne hlen
  rw [history_of_namesOf hnames, hfold'] at hfold
  cases hfold
  exact ⟨_, hlookup, hdesc⟩

/-- **When telemetry summaries are right**: exactly when no event type names a metric that has values, and
    no metric receives more samples than a `u32` counts; in a release build, values alone count. -/
theorem summarize_accurate_iff (parse : List UInt8 → Option JsonValue) (events : List PeatEvent) :
    ((∃ summary, summarize .checked parse events = some summary ∧ Accurate parse events summary) ↔
      ∀ metric, (valuesOf parse events metric).length + namesOf events metric < u32Count ∧
        (valuesOf parse events metric ≠ [] → namesOf events metric = 0)) ∧
    ((∀ metric, namesOf events metric < u32Count) →
      ((∃ summary, summarize .release parse events = some summary ∧
          Accurate parse events summary) ↔
        ∀ metric, valuesOf parse events metric ≠ [] →
          namesOf events metric = 0 ∧ (valuesOf parse events metric).length < u32Count)) := by
  have hzero : MetricStats.default.count < u32Count := by decide
  constructor
  · constructor
    · intro ⟨summary, h, hacc⟩ metric
      have hlen := (exists_foldlM_checked _ hzero).mp (exists_summarize.mp ⟨summary, h⟩ metric)
      rw [length_history] at hlen
      have hlt : (valuesOf parse events metric).length + namesOf events metric < u32Count :=
        (Nat.le_add_left _ _).trans_lt hlen
      refine ⟨hlt, fun hne => ?_⟩
      have hcount := hacc.count h hne
      rw [Nat.mod_eq_of_lt hlt] at hcount
      omega
    · intro hall
      have hsome : ∃ summary, summarize .checked parse events = some summary := by
        refine exists_summarize.mpr fun metric => (exists_foldlM_checked _ hzero).mpr ?_
        rw [length_history]
        exact (Nat.zero_add _).symm ▸ (hall metric).1
      obtain ⟨summary, h⟩ := hsome
      refine ⟨summary, h, accurate_of_names h fun metric hne => ?_⟩
      obtain ⟨hlt, hnames⟩ := hall metric
      exact ⟨hnames hne, (Nat.le_add_right _ _).trans_lt hlt⟩
  · intro hnames
    constructor
    · intro ⟨summary, h, hacc⟩ metric hne
      have hcount := hacc.count h hne
      have hname := hnames metric
      unfold u32Count at hcount hname ⊢
      omega
    · intro hclear
      obtain ⟨summary, h⟩ := exists_summarize.mpr fun metric =>
        exists_foldlM_release (history parse events metric) .default
      exact ⟨summary, h, accurate_of_names h hclear⟩

end Summary

def cpuEvent : PeatEvent :=
  ⟨"event-1", none, "node-1", "cell-1", none, 3, "telemetry.cpu", none, "",
    [123, 34, 99, 112, 117, 34, 58, 53, 48, 125]⟩

/-- One event gives `cpu` the value 50: the summary reports two samples with an average of 25, below the
    least value. -/
theorem summarize_counts_event_as_sample :
    let parse := fun _ => some (JsonValue.object [("cpu", .number 50)])
    valuesOf parse [cpuEvent] "cpu" = [50] ∧
      (summarize .release parse [cpuEvent]).map (·.metrics.lookup "cpu") =
        some (some ⟨50, 50, 25, 2⟩) ∧
      ∀ summary, summarize .release parse [cpuEvent] = some summary →
        ¬ Accurate parse [cpuEvent] summary := by
  intro parse
  have hvalues : valuesOf parse [cpuEvent] "cpu" = [50] := by decide +kernel
  refine ⟨hvalues, by decide +kernel, fun summary h hacc => ?_⟩
  have hcount := hacc.count h (by rw [hvalues]; exact List.cons_ne_nil _ _)
  rw [hvalues] at hcount
  revert hcount
  decide +kernel

end TelemetrySummaryStrategy

end Peat.Event
