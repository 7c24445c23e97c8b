/-
  THE ROSTER OF KNOWN PEERS of peat-ffi/src/roster.rs: a map kept in memory and written
  back, as a whole, to `roster.json` after every change, through a temporary file that
  is renamed.

  `Roster` carries that its map is keyed by the `node_id` of its entries. Of the JSON
  library `JsonCodec` says that what it prints it reads back. Whether a write or a
  rename succeeds is an input; a failed write may leave anything in the temporary file.
-/
import Peat.Lib.HashMap
import Peat.Lib.Run
import Mathlib.Data.List.Induction
import Mathlib.Data.String.Basic

namespace Peat.Ffi

open Peat.Lib

/-! ## 1. The map and its list -/

structure RosterEntry where
  nodeId : String
  groupId : String
  name : String
  addresses : List String
  relayUrl : Option String
  lastSeenMs : Nat
  deriving DecidableEq, Repr

structure Roster where
  entries : HashMap String RosterEntry
  keyed : ∀ k e, entries.lookup k = some e → e.nodeId = k

namespace Roster

def empty : Roster := ⟨∅, fun _ _ h => by cases h⟩

def get (r : Roster) (nodeId : String) : Option RosterEntry := r.entries.lookup nodeId

def insert (r : Roster) (entry : RosterEntry) : Roster :=
  ⟨r.entries.insert entry.nodeId entry, forall_lookup_insert rfl r.keyed⟩

def erase (r : Roster) (nodeId : String) : Roster :=
  ⟨r.entries.erase nodeId, fun k e h => by
    by_cases hk : k = nodeId
    · rw [hk, AList.lookup_erase] at h
      cases h
    · rw [AList.lookup_erase_ne hk] at h
      exact r.keyed k e h⟩

def list (r : Roster) : List RosterEntry :=
  (r.entries.entries.map (·.2)).mergeSort fun a b => decide (a.nodeId ≤ b.nodeId)

def collect (l : List RosterEntry) : Roster := l.foldl insert empty

variable (r : Roster)

theorem get_insert (entry : RosterEntry) (k : String) :
    (r.insert entry).get k = if k = entry.nodeId then some entry else r.get k :=
  lookup_insert_eq_ite r.entries entry.nodeId k entry

theorem get_erase (nodeId k : String) :
    (r.erase nodeId).get k = if k = nodeId then none else r.get k := by
  by_cases hk : k = nodeId
  · rw [if_pos hk, hk]
    exact AList.lookup_erase _ _
  · rw [if_neg hk]
    exact AList.lookup_erase_ne hk

theorem mem_list {r : Roster} {e : RosterEntry} : e ∈ r.list ↔ r.get e.nodeId = some e := by
  unfold list get
  rw [List.mem_mergeSort, List.mem_map]
  constructor
  · rintro ⟨⟨k, v⟩, hmem, rfl⟩
    have hk := lookup_eq_some_iff.mpr hmem
    rw [r.keyed k v hk]
    exact hk
  · intro h
    exact ⟨⟨e.nodeId, e⟩, lookup_eq_some_iff.mp h, rfl⟩

theorem nodup_list : (r.list.map (·.nodeId)).Nodup := by
  have hperm : (r.list.map (·.nodeId)).Perm ((r.entries.entries.map (·.2)).map (·.nodeId)) :=
    (List.mergeSort_perm _ _).map _
  have hkeys : (r.entries.entries.map (·.2)).map (·.nodeId) = r.entries.entries.keys := by
    rw [List.map_map]
    refine List.map_congr_left fun e he => ?_
    exact r.keyed e.1 e.2 (lookup_eq_some_iff.mpr he)
  rw [hperm.nodup_iff, hkeys]
  exact r.entries.nodupKeys

theorem get_foldl_insert {l : List RosterEntry} (hn : (l.map (·.nodeId)).Nodup) (r : Roster)
    (k : String) (e : RosterEntry) :
    (l.foldl insert r).get k = some e ↔
      e ∈ l ∧ e.nodeId = k ∨ (∀ e' ∈ l, e'.nodeId ≠ k) ∧ r.get k = some e := by
  induction l generalizing r with
  | nil => simp
  | cons a l ih =>
    obtain ⟨hnot, hn⟩ := List.nodup_cons.mp hn
    have ha : ∀ e' ∈ l, e'.nodeId ≠ a.nodeId := fun e' he' heq =>
      hnot (List.mem_map.mpr ⟨e', he', heq⟩)
    rw [List.foldl_cons, ih hn, get_insert]
    by_cases hk : k = a.nodeId
    · subst hk
      rw [if_pos rfl]
      constructor
      · rintro (⟨he, hid⟩ | ⟨-, hae⟩)
        · exact absurd hid (ha e he)
        · exact Or.inl ⟨Option.some.inj hae ▸ List.mem_cons_self, by rw [Option.some.inj hae]⟩
      · rintro (⟨he, hid⟩ | ⟨hall, -⟩)
        · rcases List.mem_cons.mp he with rfl | he
          · exact Or.inr ⟨ha, rfl⟩
          · exact absurd hid (ha e he)
        · exact absurd rfl (hall a List.mem_cons_self)
    · rw [if_neg hk, List.forall_mem_cons]
      constructor
      · rintro (⟨he, hid⟩ | ⟨hall, hr⟩)
        · exact Or.inl ⟨List.mem_cons_of_mem a he, hid⟩
        · exact Or.inr ⟨⟨fun h => hk h.symm, hall⟩, hr⟩
      · rintro (⟨he, hid⟩ | ⟨⟨-, hall⟩, hr⟩)
        · rcases List.mem_cons.mp he with rfl | he
          · exact absurd hid.symm hk
          · exact Or.inl ⟨he, hid⟩
        · exact Or.inr ⟨hall, hr⟩

theorem get_collect_list (k : String) : (collect r.list).get k = r.get k := by
  ext e
  have h := get_foldl_insert r.nodup_list empty k e
  unfold collect
  rw [h, mem_list]
  constructor
  · rintro (⟨he, rfl⟩ | ⟨-, hnone⟩)
    · exact he
    · cases hnone
  · intro he
    have hid := r.keyed k e he
    exact Or.inl ⟨by rw [hid]; exact he, hid⟩

end Roster

/-! ## 2. The store and its file -/

structure JsonCodec (Bytes : Type) where
  toVecPretty : List RosterEntry → Option Bytes
  fromSlice : Bytes → Option (List RosterEntry)
  fromSlice_toVecPretty : ∀ l json, toVecPretty l = some json → fromSlice json = some l

structure Disk (Bytes : Type) where
  live : Option Bytes
  tmp : Option Bytes

inductive WriteOutcome (Bytes : Type) where
  | writeFailed (left : Option Bytes)
  | renameFailed
  | renamed

structure RosterStore (Bytes : Type) where
  entries : Roster
  disk : Disk Bytes

namespace RosterStore

variable {Bytes : Type} (codec : JsonCodec Bytes)

def loadEntries (disk : Disk Bytes) : Roster :=
  match disk.live.bind codec.fromSlice with
  | some l => .collect l
  | none => .empty

def load (disk : Disk Bytes) : RosterStore Bytes := ⟨loadEntries codec disk, disk⟩

def persist (entries : Roster) (disk : Disk Bytes) (outcome : WriteOutcome Bytes) : Disk Bytes :=
  match codec.toVecPretty entries.list with
  | some json =>
    match outcome with
    | .writeFailed left => { disk with tmp := left }
    | .renameFailed => { disk with tmp := some json }
    | .renamed => { live := some json, tmp := none }
  | none => disk

def withLaterSeen (r : Roster) (entry : RosterEntry) : RosterEntry :=
  match r.get entry.nodeId with
  | some existing =>
    if entry.lastSeenMs < existing.lastSeenMs then
      { entry with lastSeenMs := existing.lastSeenMs }
    else entry
  | none => entry

def upsert (s : RosterStore Bytes) (entry : RosterEntry) (outcome : WriteOutcome Bytes) :
    RosterStore Bytes :=
  let map := s.entries.insert (withLaterSeen s.entries entry)
  ⟨map, persist codec map s.disk outcome⟩

def remove (s : RosterStore Bytes) (nodeId : String) (outcome : WriteOutcome Bytes) :
    RosterStore Bytes × Bool :=
  match s.entries.get nodeId with
  | some _ =>
    let map := s.entries.erase nodeId
    (⟨map, persist codec map s.disk outcome⟩, true)
  | none => (s, false)

def markSeen (s : RosterStore Bytes) (nodeId : String) (nowMs : Nat)
    (outcome : WriteOutcome Bytes) : RosterStore Bytes :=
  match s.entries.get nodeId with
  | some e =>
    let map := s.entries.insert { e with lastSeenMs := nowMs }
    ⟨map, persist codec map s.disk outcome⟩
  | none => s

theorem nodeId_withLaterSeen (r : Roster) (entry : RosterEntry) :
    (withLaterSeen r entry).nodeId = entry.nodeId := by
  unfold withLaterSeen
  split
  · split <;> rfl
  · rfl

theorem le_withLaterSeen {r : Roster} {entry e : RosterEntry} (h : r.get entry.nodeId = some e) :
    e.lastSeenMs ≤ (withLaterSeen r entry).lastSeenMs := by
  unfold withLaterSeen
  rw [h]
  dsimp only
  split
  · exact Nat.le_refl _
  · omega

variable (s : RosterStore Bytes)

theorem get_upsert (entry : RosterEntry) (outcome : WriteOutcome Bytes) (k : String) :
    (s.upsert codec entry outcome).entries.get k =
      if k = entry.nodeId then some (withLaterSeen s.entries entry) else s.entries.get k := by
  show (s.entries.insert _).get k = _
  rw [Roster.get_insert, nodeId_withLaterSeen]

theorem get_remove (nodeId : String) (outcome : WriteOutcome Bytes) (k : String) :
    (s.remove codec nodeId outcome).1.entries.get k =
      if k = nodeId then none else s.entries.get k := by
  unfold remove
  cases he : s.entries.get nodeId with
  | some e => exact s.entries.get_erase nodeId k
  | none =>
    by_cases hk : k = nodeId
    · rw [if_pos hk, hk]
      exact he
    · rw [if_neg hk]

theorem get_markSeen (nodeId : String) (nowMs : Nat) (outcome : WriteOutcome Bytes) (k : String) :
    (s.markSeen codec nodeId nowMs outcome).entries.get k =
      if k = nodeId then (s.entries.get nodeId).map fun e => { e with lastSeenMs := nowMs }
      else s.entries.get k := by
  unfold markSeen
  cases he : s.entries.get nodeId with
  | some e =>
    show (s.entries.insert _).get k = _
    rw [Roster.get_insert, ← s.entries.keyed nodeId e he]
    rfl
  | none =>
    by_cases hk : k = nodeId
    · rw [if_pos hk, hk]
      exact he
    · rw [if_neg hk]

end RosterStore

/-! ## 3. Runs -/

inductive RosterOp (Bytes : Type) where
  | upsert (entry : RosterEntry) (outcome : WriteOutcome Bytes)
  | remove (nodeId : String) (outcome : WriteOutcome Bytes)
  | markSeen (nodeId : String) (nowMs : Nat) (outcome : WriteOutcome Bytes)
  | reload

namespace RosterOp

variable {Bytes : Type}

def outcome : RosterOp Bytes → WriteOutcome Bytes
  | .upsert _ outcome => outcome
  | .remove _ outcome => outcome
  | .markSeen _ _ outcome => outcome
  | .reload => .renameFailed

def mutate (r : Roster) : RosterOp Bytes → Option Roster
  | .upsert entry _ => some (r.insert (RosterStore.withLaterSeen r entry))
  | .remove nodeId _ => (r.get nodeId).map fun _ => r.erase nodeId
  | .markSeen nodeId nowMs _ => (r.get nodeId).map fun e => r.insert { e with lastSeenMs := nowMs }
  | .reload => none

def Forgets (nodeId : String) : RosterOp Bytes → Prop
  | .remove nodeId' _ => nodeId' = nodeId
  | .reload => True
  | _ => False

end RosterOp

namespace RosterStore

variable {Bytes : Type} (codec : JsonCodec Bytes)

def act (s : RosterStore Bytes) : RosterOp Bytes → RosterStore Bytes
  | .upsert entry outcome => s.upsert codec entry outcome
  | .remove nodeId outcome => (s.remove codec nodeId outcome).1
  | .markSeen nodeId nowMs outcome => s.markSeen codec nodeId nowMs outcome
  | .reload => load codec s.disk

theorem act_eq (s : RosterStore Bytes) {op : RosterOp Bytes} (hop : op ≠ .reload) :
    s.act codec op =
      match op.mutate s.entries with
      | some map => ⟨map, persist codec map s.disk op.outcome⟩
      | none => s := by
  cases op with
  | upsert entry outcome => rfl
  | remove nodeId outcome =>
    rw [act, remove, RosterOp.mutate]
    cases s.entries.get nodeId <;> rfl
  | markSeen nodeId nowMs outcome =>
    rw [act, markSeen, RosterOp.mutate]
    cases s.entries.get nodeId <;> rfl
  | reload => exact absurd rfl hop

def Written (map : Roster) (outcome : WriteOutcome Bytes) : Prop :=
  match outcome with
  | .renamed => (codec.toVecPretty map.list).isSome = true
  | _ => False

instance (map : Roster) (outcome : WriteOutcome Bytes) : Decidable (Written codec map outcome) :=
  match outcome with
  | .renamed => inferInstanceAs (Decidable (_ = true))
  | .writeFailed _ => isFalse id
  | .renameFailed => isFalse id

theorem loadEntries_persist (map : Roster) (disk : Disk Bytes) (outcome : WriteOutcome Bytes)
    (k : String) :
    (loadEntries codec (persist codec map disk outcome)).get k =
      if Written codec map outcome then map.get k else (loadEntries codec disk).get k := by
  unfold persist
  cases hjson : codec.toVecPretty map.list with
  | none =>
    rw [if_neg]
    intro hw
    cases outcome with
    | renamed =>
      have hsome : (codec.toVecPretty map.list).isSome = true := hw
      rw [hjson] at hsome
      cases hsome
    | writeFailed left => exact hw
    | renameFailed => exact hw
  | some json =>
    cases outcome with
    | writeFailed left => rw [if_neg (show ¬Written codec map _ from id)]; rfl
    | renameFailed => rw [if_neg (show ¬Written codec map _ from id)]; rfl
    | renamed =>
      have hw : Written codec map .renamed := by
        show (codec.toVecPretty map.list).isSome = true
        rw [hjson]
        rfl
      rw [if_pos hw, ← map.get_collect_list k]
      unfold loadEntries
      rw [Option.bind_some, codec.fromSlice_toVecPretty _ _ hjson]

end RosterStore

/-- The store, and the entries that a restart should find. -/
structure RosterJournal (Bytes : Type) where
  store : RosterStore Bytes
  durable : Roster

namespace RosterJournal

open RosterStore

variable {Bytes : Type} (codec : JsonCodec Bytes)

def start (disk : Disk Bytes) : RosterJournal Bytes := ⟨load codec disk, loadEntries codec disk⟩

def step (j : RosterJournal Bytes) (op : RosterOp Bytes) : RosterJournal Bytes :=
  ⟨j.store.act codec op,
    match op.mutate j.store.entries with
    | some map => if Written codec map op.outcome then map else j.durable
    | none => j.durable⟩

def get (j : RosterJournal Bytes) (nodeId : String) : Option RosterEntry :=
  j.store.entries.get nodeId

/-- A restart loads the durable entries. -/
def ReloadsDurable (j : RosterJournal Bytes) : Prop :=
  ∀ k, (load codec j.store.disk).entries.get k = j.durable.get k

theorem ReloadsDurable.step {codec : JsonCodec Bytes} {j : RosterJournal Bytes}
    (h : j.ReloadsDurable codec) (op : RosterOp Bytes) : (j.step codec op).ReloadsDurable codec := by
  intro k
  by_cases hop : op = .reload
  · subst hop
    exact h k
  · unfold RosterJournal.step
    rw [act_eq codec j.store hop]
    cases op.mutate j.store.entries with
    | none => exact h k
    | some map =>
      show (loadEntries codec (persist codec map j.store.disk op.outcome)).get k = _
      rw [loadEntries_persist]
      by_cases hw : Written codec map op.outcome
      · rw [if_pos hw]
        simp only [if_pos hw]
      · rw [if_neg hw]
        simp only [if_neg hw]
        exact h k

theorem reload_eq_durable (disk : Disk Bytes) (ops : List (RosterOp Bytes)) :
    (run (step codec) (start codec disk) ops).ReloadsDurable codec :=
  run_invariant (ReloadsDurable codec) (fun _ op h => h.step op) (fun _ => rfl) ops

/-! ## 4. The time of the last contact -/

def StepsForward (j : RosterJournal Bytes) (op : RosterOp Bytes) : Prop :=
  ∀ nodeId, ¬op.Forgets nodeId → ∀ e, j.get nodeId = some e →
    ∃ e', (j.step codec op).get nodeId = some e' ∧ e.lastSeenMs ≤ e'.lastSeenMs

/-- No sighting is dated before the one on record. -/
def SeenLater (j : RosterJournal Bytes) : RosterOp Bytes → Prop
  | .markSeen nodeId nowMs _ => ∀ e, j.get nodeId = some e → e.lastSeenMs ≤ nowMs
  | _ => True

theorem stepsForward_iff (j : RosterJournal Bytes) (op : RosterOp Bytes) :
    j.StepsForward codec op ↔ j.SeenLater op := by
  cases op with
  | upsert entry outcome =>
    refine iff_of_true (fun nodeId _ e he => ?_) trivial
    have hget := get_upsert codec j.store entry outcome nodeId
    by_cases hid : nodeId = entry.nodeId
    · subst hid
      exact ⟨_, hget.trans (if_pos rfl), le_withLaterSeen he⟩
    · exact ⟨e, (hget.trans (if_neg hid)).trans he, Nat.le_refl _⟩
  | remove nodeId' outcome =>
    refine iff_of_true (fun nodeId hkeep e he => ?_) trivial
    have hget := get_remove codec j.store nodeId' outcome nodeId
    rw [if_neg fun h => hkeep h.symm] at hget
    exact ⟨e, hget.trans he, Nat.le_refl _⟩
  | markSeen nodeId' nowMs outcome =>
    have hget := get_markSeen codec j.store nodeId' nowMs outcome
    constructor
    · intro hforward e he
      have hstored : j.store.entries.get nodeId' = some e := he
      obtain ⟨e', he', hle⟩ := hforward nodeId' id e he
      have hnew := (hget nodeId').symm.trans he'
      rw [if_pos rfl, hstored] at hnew
      rw [← Option.some.inj hnew] at hle
      exact hle
    · intro hlater nodeId _ e he
      have hstored : j.store.entries.get nodeId = some e := he
      by_cases hid : nodeId = nodeId'
      · subst hid
        refine ⟨{ e with lastSeenMs := nowMs }, (hget nodeId).trans ?_, hlater e he⟩
        rw [if_pos rfl, hstored]
        rfl
      · exact ⟨e, ((hget nodeId).trans (if_neg hid)).trans he, Nat.le_refl _⟩
  | reload => exact iff_of_true (fun nodeId hkeep => absurd trivial hkeep) trivial

/-- The last sighting of a node never goes back until it is forgotten. -/
def NeverBack (j : RosterJournal Bytes) (ops : List (RosterOp Bytes)) : Prop :=
  ∀ pre stretch post, ops = pre ++ stretch ++ post → ∀ nodeId,
    (∀ op ∈ stretch, ¬op.Forgets nodeId) → ∀ e, (run (step codec) j pre).get nodeId = some e →
      ∃ e', (run (step codec) j (pre ++ stretch)).get nodeId = some e' ∧
        e.lastSeenMs ≤ e'.lastSeenMs

theorem neverBack_iff (j : RosterJournal Bytes) (ops : List (RosterOp Bytes)) :
    j.NeverBack codec ops ↔ RunMeets (step codec) (StepsForward codec) j ops := by
  rw [runMeets_iff]
  constructor
  · rintro h pre op post rfl nodeId hkeep e he
    obtain ⟨e', he', hle⟩ := h pre [op] post (by simp) nodeId
      (fun op' hop' => by rw [List.mem_singleton.mp hop']; exact hkeep) e he
    rw [run_concat] at he'
    exact ⟨e', he', hle⟩
  · rintro h pre stretch post rfl nodeId hkeep e he
    -- the stretch grows call by call at its end
    induction stretch using List.reverseRecOn generalizing post with
    | nil =>
      rw [List.append_nil]
      exact ⟨e, he, Nat.le_refl _⟩
    | append_singleton stretch op ih =>
      have hassoc : pre ++ (stretch ++ [op]) ++ post = pre ++ stretch ++ op :: post := by simp
      rw [hassoc] at h
      obtain ⟨e₁, he₁, hle₁⟩ := ih (op :: post) h
        fun op' hop' => hkeep op' (List.mem_append_left _ hop')
      obtain ⟨e₂, he₂, hle₂⟩ := h (pre ++ stretch) op post rfl nodeId
        (hkeep op List.mem_concat_self) e₁ he₁
      refine ⟨e₂, ?_, hle₁.trans hle₂⟩
      rw [← List.append_assoc, run_concat]
      exact he₂

/-- **Roster persistence.** A reload gives the roster as of the last change that was written; and the time
    of a node's last contact never goes back exactly when no contact is recorded with an earlier time. -/
theorem roster_persistence_iff (disk : Disk Bytes) (ops : List (RosterOp Bytes)) :
    (∀ pre, pre <+: ops → (run (step codec) (start codec disk) pre).ReloadsDurable codec) ∧
    ((start codec disk).NeverBack codec ops ↔
      RunMeets (step codec) SeenLater (start codec disk) ops) := by
  refine ⟨fun pre _ => reload_eq_durable codec disk pre, ?_⟩
  rw [neverBack_iff]
  exact runMeets_congr (stepsForward_iff codec)

def plainCodec : JsonCodec (List RosterEntry) := ⟨some, some, fun _ _ h => h.symm⟩

/-- A contact stamped 2000, then the record of a contact at 1000: the time goes back. -/
theorem markSeen_goes_back :
    let upsert := RosterOp.upsert ⟨"aa", "g1", "peer-aa", [], none, 2000⟩ .renamed
    let seen := RosterOp.markSeen "aa" 1000 .renamed
    let j := start plainCodec ⟨none, none⟩
    ((run (step plainCodec) j [upsert]).get "aa").map (·.lastSeenMs) = some 2000 ∧
    ((run (step plainCodec) j [upsert, seen]).get "aa").map (·.lastSeenMs) = some 1000 := by
  decide

end RosterJournal

end Peat.Ffi
