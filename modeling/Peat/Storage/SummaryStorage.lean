/-
  DELIVERING CELL DELTAS through `update_cell_summary` of
  storage/automerge_summary_storage.rs.

  The store holds Automerge documents; the serde of a summary is a codec. The document
  metrics and the errors of the store itself are left out.
-/
import Peat.Lib.HashMap
import Peat.Lib.LastWriter
import Peat.Hierarchy.Deltas
import Peat.Storage.AutomergeUpsert
import Mathlib.Data.List.Sort

namespace Peat.Storage

open Peat.Lib Peat.Models Peat.Hierarchy

/-! ## 1. The storage -/

/-- The optional fields among the keys of a summary are there. -/
def Present (s : CellSummary) (key : String) : Prop :=
  (key = "position_centroid" → s.positionCentroid.isSome) ∧
    (key = "bounding_box" → s.boundingBox.isSome) ∧ (key = "aggregated_at" → s.aggregatedAt.isSome)

/-- The serde of `CellSummary`: only an optional field can be missing from the JSON. -/
structure SummaryCodec extends Codec CellSummary where
  sets_iff : ∀ s, toCodec.Representable s → ∀ key, known key = true →
    (toCodec.Sets s key ↔ Present s key)

abbrev SummaryStore := HashMap String Automerge

structure StorageError where
  message : String
  operation : String
  key : Option String
  deriving DecidableEq

def cellKey (cellId : String) : String := "cell-summary:" ++ cellId

section Storing

variable (c : SummaryCodec) (store : SummaryStore) (cellId : String)

/-- The first half of `update_cell_summary`: the stored document and the summary it is read as. -/
def storedSummary : Except StorageError (Automerge × CellSummary) :=
  match store.lookup (cellKey cellId) with
  | none => .error ⟨"Cell summary " ++ cellId ++ " not found", "update_cell_summary",
      some (cellKey cellId)⟩
  | some doc =>
    match automergeToMessage c.toCodec doc with
    | .error e => .error ⟨"Failed to deserialize CellSummary: " ++ e, "update_cell_summary",
        some (cellKey cellId)⟩
    | .ok summary => .ok (doc, summary)

def updateCellSummary (delta : CellDelta) : Except StorageError SummaryStore :=
  match storedSummary c store cellId with
  | .error e => .error e
  | .ok (doc, summary) =>
    match messageToAutomergeInto c.toCodec (applyCellDelta summary delta).1 (some doc) with
    | .error e => .error ⟨"Failed to convert updated CellSummary to Automerge: " ++ e,
        "update_cell_summary", some (cellKey cellId)⟩
    | .ok updated => .ok (store.insert (cellKey cellId) updated)

def deliver (deltas : List CellDelta) : Except StorageError SummaryStore :=
  deltas.foldlM (fun store delta => updateCellSummary c store cellId delta) store

/-- The stored document reads as the summary. -/
def Stores (s : CellSummary) : Prop := ∃ doc, storedSummary c store cellId = .ok (doc, s)

end Storing

def inSequence (deltas : List CellDelta) : List CellDelta :=
  deltas.dedup.insertionSort fun a b => a.sequence ≤ b.sequence

def afterDeltas (s : CellSummary) (deltas : List CellDelta) : CellSummary :=
  run (fun s delta => (applyCellDelta s delta).1) s deltas

/-- Every summary on the way can be represented in a document. -/
def Deliverable (c : SummaryCodec) (s : CellSummary) (deltas : List CellDelta) : Prop :=
  ∀ pre, pre <+: deltas → c.Representable (afterDeltas s pre)

theorem present_applyUpdate {s : CellSummary} {key : String} (h : Present s key)
    (u : FieldUpdate CellCount) : Present (applyUpdate s u) key := by
  refine ⟨fun hkey => ?_, fun hkey => ?_, fun hkey => ?_⟩
  · have hset := h.1 hkey
    cases u with
    | updatePositionCentroid pos => rfl
    | _ => exact hset
  · have hset := h.2.1 hkey
    cases u with
    | updateBoundingBox bbox => rfl
    | _ => exact hset
  · have hset := h.2.2 hkey
    cases u with
    | updateAggregatedAt ts => rfl
    | _ => exact hset

theorem present_applyCellDelta {s : CellSummary} {key : String} (h : Present s key) (delta : CellDelta) :
    Present (applyCellDelta s delta).1 key := by
  rw [applyCellDelta, applyDelta_fst]
  exact run_invariant (Present · key) (fun s u hs => present_applyUpdate hs u) h delta.updates

section Delivering

variable {c : SummaryCodec} {store : SummaryStore} {cellId : String} {s : CellSummary} {doc : Automerge}

theorem storedSummary_eq (hdoc : store.lookup (cellKey cellId) = some doc) (hs : c.Written doc s) :
    storedSummary c store cellId = .ok (doc, s) := by
  unfold storedSummary
  rw [hdoc]
  dsimp only
  rw [hs.reads]

/-- A delta is applied to the stored summary where the result can be represented. -/
theorem updateCellSummary_ok (hdoc : store.lookup (cellKey cellId) = some doc) (hs : c.Written doc s)
    (hrep : c.Representable s) {delta : CellDelta} (hnext : c.Representable (applyCellDelta s delta).1) :
    ∃ updated, updateCellSummary c store cellId delta = .ok (store.insert (cellKey cellId) updated) ∧
      c.Written updated (applyCellDelta s delta).1 := by
  have hcovered : ∀ e ∈ doc.root, c.known e.1 = true → c.Sets (applyCellDelta s delta).1 e.1 := by
    intro e he hknown
    have hpresent := (c.sets_iff s hrep e.1 hknown).mp (hs.sets e he hknown)
    exact (c.sets_iff _ hnext e.1 hknown).mpr (present_applyCellDelta hpresent delta)
  obtain ⟨updated, hupdated, hwritten⟩ := Upsertable.written ⟨hnext, hcovered⟩
  refine ⟨updated, ?_, hwritten⟩
  rw [updateCellSummary, storedSummary_eq hdoc hs]
  dsimp only
  rw [hupdated]

theorem deliver_ok (hdoc : store.lookup (cellKey cellId) = some doc) (hs : c.Written doc s)
    {deltas : List CellDelta} (hrep : Deliverable c s deltas) :
    ∃ store', deliver c store cellId deltas = .ok store' ∧
      Stores c store' cellId (afterDeltas s deltas) := by
  have hrun : ∃ store', deliver c store cellId deltas = .ok store' ∧
      ∃ doc, store'.lookup (cellKey cellId) = some doc ∧ c.Written doc (afterDeltas s deltas) := by
    refine foldlM_ok (fun pre (store : SummaryStore) => ∃ doc, store.lookup (cellKey cellId) = some doc ∧
      c.Written doc (afterDeltas s pre)) (fun pre delta store hpre hinv => ?_) ⟨doc, hdoc, hs⟩
    obtain ⟨doc, hdoc, hs⟩ := hinv
    have hstep : afterDeltas s (pre ++ [delta]) = (applyCellDelta (afterDeltas s pre) delta).1 :=
      run_concat pre delta
    have hnext := hrep _ hpre
    rw [hstep] at hnext ⊢
    obtain ⟨updated, hupdated, hwritten⟩ :=
      updateCellSummary_ok hdoc hs (hrep pre ((List.prefix_append ..).trans hpre)) hnext
    exact ⟨_, hupdated, updated, AList.lookup_insert _, hwritten⟩
  obtain ⟨store', hok, doc', hdoc', hwritten⟩ := hrun
  exact ⟨store', hok, doc', storedSummary_eq hdoc' hwritten⟩

end Delivering

theorem mem_inSequence {deltas : List CellDelta} (d : CellDelta) :
    d ∈ deltas ↔ d ∈ inSequence deltas := by
  unfold inSequence
  rw [List.mem_insertionSort, List.mem_dedup]

/-! ## 2. The registers of a summary -/

section Registers

variable {κ : Type} [DecidableEq κ]

/-- The parts of a summary that a delta sets. -/
inductive Register (κ : Type) where
  | id
  | leaderId
  | count (field : κ)
  | positionCentroid
  | avgFuelMinutes
  | worstHealth
  | readinessScore
  | boundingBox
  | aggregatedAt
  | child (id : String)
  | capability (cap : Capability)

def Register.Value : Register κ → Type
  | .id => String
  | .leaderId => String
  | .count _ => Nat
  | .positionCentroid => Option Position
  | .avgFuelMinutes => ℚ
  | .worstHealth => Int
  | .readinessScore => ℚ
  | .boundingBox => Option BoundingBox
  | .aggregatedAt => Option Timestamp
  | .child _ => Bool
  | .capability _ => Bool

omit [DecidableEq κ] in
def readRegister (s : Summary κ) : (r : Register κ) → r.Value
  | .id => s.id
  | .leaderId => s.leaderId
  | .count field => s.count field
  | .positionCentroid => s.positionCentroid
  | .avgFuelMinutes => s.avgFuelMinutes
  | .worstHealth => s.worstHealth
  | .readinessScore => s.readinessScore
  | .boundingBox => s.boundingBox
  | .aggregatedAt => s.aggregatedAt
  | .child id => decide (id ∈ s.childIds)
  | .capability cap => decide (cap ∈ s.aggregatedCapabilities)

def updateWrites : FieldUpdate κ → (r : Register κ) → Option r.Value
  | .setLeaderId id, .leaderId => some id
  | .setCount field count, .count f => if f = field then some count else none
  | .setAvgFuelMinutes fuel, .avgFuelMinutes => some fuel
  | .setWorstHealth health, .worstHealth => some health
  | .setReadinessScore score, .readinessScore => some score
  | .updatePositionCentroid pos, .positionCentroid => some (some pos)
  | .addId id, .child m => if m = id then some true else none
  | .removeId id, .child m => if m = id then some false else none
  | .addCapability cap, .capability c => if c = cap then some true else none
  | .removeCapability capId, .capability c => if c.id = capId then some false else none
  | .updateBoundingBox bbox, .boundingBox => some (some bbox)
  | .updateAggregatedAt ts, .aggregatedAt => some (some ts)
  | _, _ => none

def deltaWrites (delta : Delta κ) (r : Register κ) : Option r.Value :=
  lastWrite updateWrites r delta.updates

theorem readRegister_setCount (s : Summary κ) (field f : κ) (count : Nat) :
    (applyUpdate s (.setCount field count)).count f =
      (if f = field then some count else none).getD (s.count f) := by
  show (if f = field then count else s.count f) = _
  split <;> rfl

theorem decide_mem_pushNew (l : List String) (id m : String) :
    decide (m ∈ pushNew (fun m => m) l id) =
      (if m = id then some true else none).getD (decide (m ∈ l)) := by
  have hmem : m ∈ pushNew (fun m => m) l id ↔ m ∈ l ∨ m = id := by
    rw [mem_pushNew, List.map_id']
    by_cases hm : m = id
    · subst hm
      exact ⟨fun h => h.imp_right And.left, fun _ => Classical.byCases Or.inl fun h => .inr ⟨rfl, h⟩⟩
    · simp [hm]
  have hdec : decide (m ∈ pushNew (fun m => m) l id) = decide (m ∈ l ∨ m = id) :=
    decide_eq_decide.mpr hmem
  rw [hdec]
  by_cases hm : m = id
  · simp [hm]
  · simp [hm]

theorem decide_mem_filter_ne {α : Type} [DecidableEq α] (key : α → String) (l : List α) (k : String)
    (a : α) : decide (a ∈ l.filter fun x => key x != k) =
      (if key a = k then some false else none).getD (decide (a ∈ l)) := by
  by_cases ha : key a = k
  · simp [ha]
  · simp [ha]

theorem decide_mem_append_singleton (l : List Capability) (cap c : Capability) :
    decide (c ∈ l ++ [cap]) = (if c = cap then some true else none).getD (decide (c ∈ l)) := by
  by_cases hc : c = cap
  · simp [hc]
  · simp [hc]

theorem writesRegisters_applyUpdate :
    WritesRegisters (applyUpdate (κ := κ)) readRegister updateWrites := by
  intro s u r
  cases u with
  | setCount field count =>
    cases r with
    | count f => exact readRegister_setCount s field f count
    | _ => rfl
  | addId id =>
    cases r with
    | child m => exact decide_mem_pushNew s.childIds id m
    | _ => rfl
  | removeId id =>
    cases r with
    | child m => exact decide_mem_filter_ne (fun m => m) s.childIds id m
    | _ => rfl
  | addCapability cap =>
    cases r with
    | capability c => exact decide_mem_append_singleton s.aggregatedCapabilities cap c
    | _ => rfl
  | removeCapability capId =>
    cases r with
    | capability c => exact decide_mem_filter_ne Capability.id s.aggregatedCapabilities capId c
    | _ => rfl
  | _ => cases r <;> rfl

theorem writesRegisters_applyDelta :
    WritesRegisters (fun (s : Summary κ) delta => (applyDelta s delta).1) readRegister
      deltaWrites := by
  intro s delta r
  dsimp only
  rw [applyDelta_fst]
  exact writesRegisters_applyUpdate.flatten Delta.updates s delta r

end Registers

/-! ## 3. Deliveries in any order -/

/-- Equal but for the order of members and capabilities. -/
structure SameFields (a b : CellSummary) : Prop where
  id : a.id = b.id
  leaderId : a.leaderId = b.leaderId
  count : a.count = b.count
  positionCentroid : a.positionCentroid = b.positionCentroid
  avgFuelMinutes : a.avgFuelMinutes = b.avgFuelMinutes
  worstHealth : a.worstHealth = b.worstHealth
  readinessScore : a.readinessScore = b.readinessScore
  boundingBox : a.boundingBox = b.boundingBox
  aggregatedAt : a.aggregatedAt = b.aggregatedAt
  memberIds : ∀ id, id ∈ a.childIds ↔ id ∈ b.childIds
  capabilities : ∀ cap, cap ∈ a.aggregatedCapabilities ↔ cap ∈ b.aggregatedCapabilities

theorem sameFields_iff {a b : CellSummary} :
    SameFields a b ↔ ∀ r, readRegister a r = readRegister b r := by
  constructor
  · intro h r
    cases r with
    | id => exact h.id
    | leaderId => exact h.leaderId
    | count field => exact congrFun h.count field
    | positionCentroid => exact h.positionCentroid
    | avgFuelMinutes => exact h.avgFuelMinutes
    | worstHealth => exact h.worstHealth
    | readinessScore => exact h.readinessScore
    | boundingBox => exact h.boundingBox
    | aggregatedAt => exact h.aggregatedAt
    | child id => exact decide_eq_decide.mpr (h.memberIds id)
    | capability cap => exact decide_eq_decide.mpr (h.capabilities cap)
  · intro h
    exact ⟨h .id, h .leaderId, funext fun field => h (.count field), h .positionCentroid,
      h .avgFuelMinutes, h .worstHealth, h .readinessScore, h .boundingBox, h .aggregatedAt,
      fun id => decide_eq_decide.mp (h (.child id)),
      fun cap => decide_eq_decide.mp (h (.capability cap))⟩

/-- **When delivery is safe against order and repetition**: where the summaries on the way can be
    represented, exactly when every register's last write in the order of delivery is its last write in
    sequence order. -/
theorem delivery_iff (c : SummaryCodec) (store : SummaryStore) (cellId : String) (doc : Automerge)
    (s : CellSummary) (deltas : List CellDelta) (hdoc : store.lookup (cellKey cellId) = some doc)
    (hs : c.Written doc s) (hrep : Deliverable c s deltas) (hseq : Deliverable c s (inSequence deltas)) :
    ∃ store₁ store₂ a b,
      deliver c store cellId deltas = .ok store₁ ∧ Stores c store₁ cellId a ∧
      deliver c store cellId (inSequence deltas) = .ok store₂ ∧ Stores c store₂ cellId b ∧
      (SameFields a b ↔ ∀ r : Register CellCount,
        lastWrite deltaWrites r deltas = lastWrite deltaWrites r (inSequence deltas)) := by
  obtain ⟨store₁, hok₁, ha⟩ := deliver_ok hdoc hs hrep
  obtain ⟨store₂, hok₂, hb⟩ := deliver_ok hdoc hs hseq
  refine ⟨store₁, store₂, _, _, hok₁, ha, hok₂, hb, ?_⟩
  rw [sameFields_iff]
  exact read_run_eq_iff writesRegisters_applyDelta s mem_inSequence

def setsMemberCount (sequence count : Nat) : CellDelta :=
  ⟨"c", 0, sequence, [.setCount .memberCount count]⟩

/-- A summary of which only the member count is used. -/
def counted (n : Nat) : CellSummary :=
  ⟨"c", "", [], fun field => if field = .memberCount then n else 0, none, 0, 0, [], 0, none, none⟩

def readMemberCount : List (String × Sync.Value) → Except String CellSummary
  | [(_, .number (.posInt n))] => .ok (counted n.toNat)
  | _ => .error "missing field"

/-- The serde of those summaries. -/
def countCodec : SummaryCodec where
  toJson s := .object [("member_count", .number (.posInt (UInt64.ofNat (s.count .memberCount))))]
  fromJson
    | .object members => readMemberCount (members.filter fun kv => kv.1 == "member_count")
    | _ => .error "invalid type"
  known key := key == "member_count"
  wellFormed s := wellFormed_single _ (.number _ trivial)
  ignores members := by simp
  sets_iff s _ key hknown := by
    obtain rfl : key = "member_count" := by simpa using hknown
    exact iff_of_true ⟨_, rfl, _, List.mem_cons_self, nofun⟩
      ⟨fun h => absurd h (by decide), fun h => absurd h (by decide), fun h => absurd h (by decide)⟩

theorem representable_counted {n : Nat} (hn : n < 2 ^ 63) : countCodec.Representable (counted n) := by
  have hnat : (UInt64.ofNat n).toNat = n := UInt64.toNat_ofNat_of_lt (hn.trans (by decide))
  refine ⟨?_, _, rfl, fun kv hkv => ?_⟩
  · show Except.ok (counted (UInt64.ofNat n).toNat) = _
    rw [hnat]
  · rw [List.mem_singleton.mp hkv]
    exact .posInt (UInt64.ofNat n) (lt_of_eq_of_lt hnat hn)

theorem afterDeltas_counted {deltas : List CellDelta} {n : Nat} (hn : n < 2 ^ 63)
    (h : ∀ d ∈ deltas, ∃ seq k, k < 2 ^ 63 ∧ d = setsMemberCount seq k) :
    ∃ k < 2 ^ 63, afterDeltas (counted n) deltas = counted k := by
  induction deltas generalizing n with
  | nil => exact ⟨n, hn, rfl⟩
  | cons d deltas ih =>
    obtain ⟨⟨seq, k, hk, rfl⟩, hrest⟩ := List.forall_mem_cons.mp h
    have hstep : (applyCellDelta (counted n) (setsMemberCount seq k)).1 = counted k := by
      have hcount : (fun field => if field = CellCount.memberCount then k else (counted n).count field) =
          (counted k).count := by
        funext field
        cases field <;> rfl
      exact congrArg
        (fun count => (⟨"c", "", [], count, none, 0, 0, [], 0, none, none⟩ : CellSummary)) hcount
    obtain ⟨k', hk', hafter⟩ := ih hk hrest
    refine ⟨k', hk', ?_⟩
    show afterDeltas (applyCellDelta (counted n) (setsMemberCount seq k)).1 deltas = _
    rw [hstep, hafter]

theorem deliverable_counted {deltas : List CellDelta}
    (h : ∀ d ∈ deltas, ∃ seq k, k < 2 ^ 63 ∧ d = setsMemberCount seq k) :
    Deliverable countCodec (counted 0) deltas := by
  intro pre hpre
  obtain ⟨k, hk, hafter⟩ := afterDeltas_counted (n := 0) (by decide) fun d hd => h d (hpre.subset hd)
  rw [hafter]
  exact representable_counted hk

def cellDocument : Automerge where
  root := [("member_count", .scalar (.int 0))]
  sorted := List.pairwise_singleton _ _
  read e he := by
    rw [List.mem_singleton.mp he]
    nofun

theorem written_cellDocument : countCodec.Written cellDocument (counted 0) := by
  refine ⟨rfl, fun e he _ => ?_⟩
  rw [List.mem_singleton.mp he]
  exact ⟨_, rfl, _, List.mem_cons_self, nofun⟩

def oneCell : SummaryStore := AList.insert (cellKey "c") cellDocument ∅

def lateRepeat : List CellDelta := [setsMemberCount 1 5, setsMemberCount 2 7, setsMemberCount 1 5]

def earlyRepeat : List CellDelta := [setsMemberCount 1 5, setsMemberCount 1 5, setsMemberCount 2 7]

theorem inSequence_repeat : inSequence lateRepeat = [setsMemberCount 1 5, setsMemberCount 2 7] ∧
    inSequence earlyRepeat = [setsMemberCount 1 5, setsMemberCount 2 7] := by decide

theorem sets_repeat {deltas : List CellDelta} (h : deltas ⊆ [setsMemberCount 1 5, setsMemberCount 2 7]) :
    ∀ d ∈ deltas, ∃ seq k, k < 2 ^ 63 ∧ d = setsMemberCount seq k := by
  intro d hd
  rcases List.mem_cons.mp (h hd) with rfl | hd
  · exact ⟨1, 5, by decide, rfl⟩
  · exact ⟨2, 7, by decide, List.mem_singleton.mp hd⟩

/-- **A stale delta overrides a newer one**: delivered again after sequence 2, sequence 1 sets the member
    count back. -/
theorem stale_delta_overrides :
    ∃ store₁ store₂ a b,
      deliver countCodec oneCell "c" lateRepeat = .ok store₁ ∧
      Stores countCodec store₁ "c" a ∧ a.count .memberCount = 5 ∧
      deliver countCodec oneCell "c" (inSequence lateRepeat) = .ok store₂ ∧
      Stores countCodec store₂ "c" b ∧ b.count .memberCount = 7 ∧ ¬SameFields a b := by
  have hlate := deliverable_counted (sets_repeat (by decide : lateRepeat ⊆ _))
  have hseq := deliverable_counted (sets_repeat (by decide : inSequence lateRepeat ⊆ _))
  obtain ⟨store₁, hok₁, ha⟩ := deliver_ok (AList.lookup_insert _) written_cellDocument hlate
  obtain ⟨store₂, hok₂, hb⟩ := deliver_ok (AList.lookup_insert _) written_cellDocument hseq
  refine ⟨store₁, store₂, _, _, hok₁, ha, rfl, hok₂, hb, ?_, fun h => ?_⟩
  · rw [inSequence_repeat.1]
    rfl
  · have hcount := congrFun h.count .memberCount
    rw [inSequence_repeat.1] at hcount
    exact absurd hcount (by decide)

/-- Two deltas delivered in sequence order, the first of them twice. -/
theorem delivery_iff_in_order :
    ∃ store₁ store₂ a b,
      deliver countCodec oneCell "c" earlyRepeat = .ok store₁ ∧ Stores countCodec store₁ "c" a ∧
      deliver countCodec oneCell "c" (inSequence earlyRepeat) = .ok store₂ ∧
      Stores countCodec store₂ "c" b ∧ SameFields a b := by
  obtain ⟨store₁, store₂, a, b, h1, h2, h3, h4, hiff⟩ := delivery_iff countCodec oneCell "c" cellDocument
    (counted 0) earlyRepeat (AList.lookup_insert _) written_cellDocument
    (deliverable_counted (sets_repeat (by decide))) (deliverable_counted (sets_repeat (by decide)))
  refine ⟨store₁, store₂, a, b, h1, h2, h3, h4, hiff.mpr fun r => ?_⟩
  rw [inSequence_repeat.2]
  cases r with
  | count field => cases field <;> rfl
  | _ => rfl

end Peat.Storage
