/-
  MAPS MERGED WITHOUT COORDINATION, as sets of operations: every write of a key names
  the writes it replaces, two maps are merged by taking all their operations, and what
  nothing replaces is there.

  An operation has an identifier (a counter and the actor that made it); an
  `OpSet` carries that identifiers are not used twice and that an operation
  replaces earlier ones only.
-/
import Mathlib.Data.List.MinMax
import Mathlib.Data.Prod.Lex
import Mathlib.Data.List.Sort
import Mathlib.Order.Nat
import Peat.Lib.UnionBy

namespace Peat.Lib

/-! ## 1. Operations -/

/-- A write of a key, or a removal (`none`); `pred` are the writes it replaces. -/
structure Op (κ α ν : Type) where
  id : Nat × α
  key : κ
  value : Option ν
  pred : List (Nat × α)
  deriving DecidableEq

/-- Operations of distinct ids, each after those it overwrites. -/
structure OpSet (κ α ν : Type) where
  ops : List (Op κ α ν)
  unique : (ops.map Op.id).Nodup
  causal : ∀ o ∈ ops, ∀ p ∈ o.pred, p.1 < o.id.1

namespace OpSet

variable {κ α ν : Type}

def empty : OpSet κ α ν := ⟨[], List.nodup_nil, nofun⟩

def clock (d : OpSet κ α ν) : Nat := (d.ops.map fun o => o.id.1).foldr max 0

variable {o : Op κ α ν} {d : OpSet κ α ν} {k : κ}

theorem le_clock (d : OpSet κ α ν) (ho : o ∈ d.ops) : o.id.1 ≤ d.clock :=
  List.le_max_of_le (List.mem_map_of_mem ho) (Nat.le_refl _)

variable [DecidableEq α]

def current (d : OpSet κ α ν) (o : Op κ α ν) : Bool :=
  d.ops.all fun o' => decide (o.id ∉ o'.pred)

theorem current_iff : d.current o = true ↔ ∀ o' ∈ d.ops, o.id ∉ o'.pred := by
  simp only [current, List.all_eq_true, decide_eq_true_eq]

def Agree (d e : OpSet κ α ν) : Prop := ∀ o ∈ d.ops, ∀ o' ∈ e.ops, o.id = o'.id → o = o'

def union (d e : OpSet κ α ν) : OpSet κ α ν where
  ops := unionBy Op.id d.ops e.ops
  unique := nodup_unionBy d.unique
  causal := by
    intro o ho
    rcases mem_of_mem_unionBy ho with ho | ⟨ho, -⟩
    · exact d.causal o ho
    · exact e.causal o ho

theorem mem_union {e : OpSet κ α ν} (h : Agree d e) :
    o ∈ (d.union e).ops ↔ o ∈ d.ops ∨ o ∈ e.ops := by
  constructor
  · intro ho
    exact (mem_of_mem_unionBy ho).imp_right And.left
  · rintro (ho | ho)
    · exact mem_unionBy_left ho
    · -- whatever stands in the union under the identifier is this operation
      obtain ⟨o', ho', hid⟩ := List.mem_map.mp
        (mem_keys_unionBy.mpr (Or.inr (List.mem_map_of_mem ho)) :
          o.id ∈ (unionBy Op.id d.ops e.ops).map Op.id)
      have heq : o' = o := by
        rcases mem_of_mem_unionBy ho' with hd | ⟨he, -⟩
        · exact h o' hd o ho hid
        · exact List.inj_on_of_nodup_map e.unique he ho hid
      rw [← heq]
      exact ho'

/-! ## 2. What is there -/

variable [DecidableEq κ]

def live (d : OpSet κ α ν) (k : κ) : List (Op κ α ν) :=
  d.ops.filter fun o => decide (o.key = k) && o.value.isSome && d.current o

theorem mem_live :
    o ∈ d.live k ↔ o ∈ d.ops ∧ o.key = k ∧ o.value.isSome = true ∧ ∀ o' ∈ d.ops, o.id ∉ o'.pred := by
  simp only [live, List.mem_filter, Bool.and_eq_true, decide_eq_true_eq, current_iff, and_assoc]

def putOp (d : OpSet κ α ν) (a : α) (k : κ) (v : ν) : Op κ α ν :=
  ⟨(d.clock + 1, a), k, some v, (d.live k).map Op.id⟩

def put (d : OpSet κ α ν) (a : α) (k : κ) (v : ν) : OpSet κ α ν where
  ops := d.ops ++ [d.putOp a k v]
  unique := by
    rw [List.map_append, List.map_singleton, ← List.concat_eq_append]
    refine d.unique.concat fun hmem => ?_
    obtain ⟨o, ho, hid⟩ := List.mem_map.mp hmem
    have hle := d.le_clock ho
    rw [hid] at hle
    exact Nat.not_succ_le_self _ hle
  causal := by
    intro o ho p hp
    rcases List.mem_append.mp ho with ho | ho
    · exact d.causal o ho p hp
    · rw [List.mem_singleton.mp ho] at hp ⊢
      obtain ⟨o', ho', rfl⟩ := List.mem_map.mp hp
      exact Nat.lt_succ_of_le (d.le_clock (mem_live.mp ho').1)

theorem putOp_not_replaced (d : OpSet κ α ν) (a : α) (k : κ) (v : ν) :
    ∀ o ∈ (d.put a k v).ops, (d.putOp a k v).id ∉ o.pred := by
  intro o ho hpred
  have hlt := (d.put a k v).causal o ho _ hpred
  rcases List.mem_append.mp ho with ho | ho
  · exact absurd (d.le_clock ho) (Nat.not_le.mpr (Nat.lt_of_succ_lt hlt))
  · rw [List.mem_singleton.mp ho] at hlt
    exact Nat.lt_irrefl _ hlt

theorem live_put_self (d : OpSet κ α ν) (a : α) (k : κ) (v : ν) :
    (d.put a k v).live k = [d.putOp a k v] := by
  have hnew : (decide ((d.putOp a k v).key = k) && (d.putOp a k v).value.isSome &&
      (d.put a k v).current (d.putOp a k v)) = true := by
    rw [current_iff.mpr (d.putOp_not_replaced a k v)]
    simp [putOp]
  have hold : ∀ o ∈ d.ops,
      ¬(decide (o.key = k) && o.value.isSome && (d.put a k v).current o) = true := by
    intro o ho h
    have hlive := mem_live.mp (List.mem_filter.mpr ⟨List.mem_append_left [d.putOp a k v] ho, h⟩ :
      o ∈ (d.put a k v).live k)
    obtain ⟨-, hkey, hvalue, hcurrent⟩ := hlive
    -- it was there before, so the write names it
    have hbefore : o ∈ d.live k := mem_live.mpr ⟨ho, hkey, hvalue, fun o' ho' =>
      hcurrent o' (List.mem_append_left _ ho')⟩
    exact hcurrent (d.putOp a k v) (List.mem_append_right _ List.mem_cons_self)
      (List.mem_map_of_mem hbefore)
  show (d.ops ++ [d.putOp a k v]).filter _ = _
  rw [List.filter_append, List.filter_eq_nil_iff.mpr hold, List.filter_singleton, hnew]
  rfl

theorem live_put_ne (d : OpSet κ α ν) (a : α) {k' : κ} (v : ν) (hne : k' ≠ k) :
    (d.put a k v).live k' = d.live k' := by
  have hnew : (decide ((d.putOp a k v).key = k') && (d.putOp a k v).value.isSome &&
      (d.put a k v).current (d.putOp a k v)) = false := by
    have hkey : (d.putOp a k v).key ≠ k' := hne.symm
    rw [decide_eq_false hkey]
    rfl
  have hold : ∀ o ∈ d.ops,
      (decide (o.key = k') && o.value.isSome && (d.put a k v).current o) =
        (decide (o.key = k') && o.value.isSome && d.current o) := by
    intro o ho
    by_cases hkey : o.key = k'
    · have hcurrent : (d.put a k v).current o = d.current o := by
        show (d.ops ++ [d.putOp a k v]).all _ = _
        have hlast : decide (o.id ∉ (d.putOp a k v).pred) = true := by
          refine decide_eq_true fun hmem => ?_
          obtain ⟨o', ho', hid⟩ := List.mem_map.mp hmem
          obtain ⟨hmem', hkey', -⟩ := mem_live.mp ho'
          have heq : o' = o := List.inj_on_of_nodup_map d.unique hmem' ho hid
          exact hne (hkey.symm.trans (heq ▸ hkey'))
        rw [List.all_append, List.all_cons, List.all_nil, hlast, Bool.and_true, Bool.and_true]
        rfl
      rw [hcurrent]
    · rw [decide_eq_false hkey]
      rfl
  show (d.ops ++ [d.putOp a k v]).filter _ = _
  rw [List.filter_append, List.filter_singleton, hnew, List.filter_congr hold]
  exact List.append_nil _

/-! ## 3. Merging and reading -/

theorem mem_live_union {e : OpSet κ α ν} (h : Agree d e) :
    o ∈ (d.union e).live k ↔ (o ∈ d.ops ∨ o ∈ e.ops) ∧ o.key = k ∧ o.value.isSome = true ∧
      (∀ o' ∈ d.ops, o.id ∉ o'.pred) ∧ ∀ o' ∈ e.ops, o.id ∉ o'.pred := by
  simp only [mem_live, mem_union h, or_imp, forall_and]

section Merged

variable [DecidableEq ν]

instance (d e : OpSet κ α ν) : Decidable (Agree d e) :=
  inferInstanceAs (Decidable (∀ o ∈ d.ops, ∀ o' ∈ e.ops, o.id = o'.id → o = o'))

def merge (d e : OpSet κ α ν) : OpSet κ α ν := if Agree d e then d.union e else d

theorem mem_live_merge {d e : OpSet κ α ν} {k : κ} {o : Op κ α ν} (h : o ∈ (d.merge e).live k) :
    o ∈ d.live k ∨ o ∈ e.live k := by
  unfold merge at h
  split at h
  · rename_i hagree
    obtain ⟨hd | he, hkey, hvalue, hcurrent, hcurrent'⟩ := (mem_live_union hagree).mp h
    · exact Or.inl (mem_live.mpr ⟨hd, hkey, hvalue, hcurrent⟩)
    · exact Or.inr (mem_live.mpr ⟨he, hkey, hvalue, hcurrent'⟩)
  · exact Or.inl h

end Merged

def getAll (d : OpSet κ α ν) (k : κ) : List ν := (d.live k).filterMap Op.value

theorem mem_getAll {v : ν} : v ∈ d.getAll k ↔ ∃ o ∈ d.live k, o.value = some v :=
  List.mem_filterMap

/-- An operation of `e` replaces the one that gives `d` the value. -/
def Supersedes (e d : OpSet κ α ν) (k : κ) (v : ν) : Prop :=
  ∃ o ∈ d.live k, o.value = some v ∧ ∃ o' ∈ e.ops, o.id ∈ o'.pred

theorem mem_getAll_merge_left [DecidableEq ν] {e : OpSet κ α ν} {v : ν} (h : v ∈ d.getAll k) :
    v ∈ (d.merge e).getAll k ∨ Supersedes e d k v := by
  obtain ⟨o, ho, hv⟩ := mem_getAll.mp h
  refine or_iff_not_imp_right.mpr fun hnot => mem_getAll.mpr ⟨o, ?_, hv⟩
  unfold merge
  split
  · rename_i hagree
    obtain ⟨hmem, hkey, hvalue, hcurrent⟩ := mem_live.mp ho
    exact (mem_live_union hagree).mpr ⟨Or.inl hmem, hkey, hvalue, hcurrent,
      fun o' ho' hpred => hnot ⟨o, ho, hv, o', ho', hpred⟩⟩
  · exact ho

theorem mem_getAll_merge_right [DecidableEq ν] {e : OpSet κ α ν} {v : ν} (hagree : Agree d e)
    (h : v ∈ e.getAll k) : v ∈ (d.merge e).getAll k ∨ Supersedes d e k v := by
  obtain ⟨o, ho, hv⟩ := mem_getAll.mp h
  refine or_iff_not_imp_right.mpr fun hnot => mem_getAll.mpr ⟨o, ?_, hv⟩
  obtain ⟨hmem, hkey, hvalue, hcurrent⟩ := mem_live.mp ho
  rw [merge, if_pos hagree]
  exact (mem_live_union hagree).mpr ⟨Or.inr hmem, hkey, hvalue,
    fun o' ho' hpred => hnot ⟨o, ho, hv, o', ho', hpred⟩, hcurrent⟩

theorem mem_getAll_merge [DecidableEq ν] {e : OpSet κ α ν} {v : ν} (h : v ∈ (d.merge e).getAll k) :
    v ∈ d.getAll k ∨ v ∈ e.getAll k := by
  obtain ⟨o, ho, hv⟩ := mem_getAll.mp h
  rcases mem_live_merge ho with hd | he
  · exact Or.inl (mem_getAll.mpr ⟨o, hd, hv⟩)
  · exact Or.inr (mem_getAll.mpr ⟨o, he, hv⟩)

theorem getAll_put_self (d : OpSet κ α ν) (a : α) (k : κ) (v : ν) :
    (d.put a k v).getAll k = [v] := by
  unfold getAll
  rw [live_put_self]
  rfl

theorem getAll_put_ne (d : OpSet κ α ν) (a : α) {k' : κ} (v : ν) (hne : k' ≠ k) :
    (d.put a k v).getAll k' = d.getAll k' := by
  unfold getAll
  rw [live_put_ne d a v hne]

section Order

variable [LinearOrder α]

def get (d : OpSet κ α ν) (k : κ) : Option ν :=
  ((d.live k).argmax fun o => toLex o.id).bind Op.value

variable {d : OpSet κ α ν}

theorem mem_getAll_of_get {k : κ} {v : ν} (h : d.get k = some v) : v ∈ d.getAll k := by
  obtain ⟨o, ho, hv⟩ := Option.bind_eq_some_iff.mp h
  exact mem_getAll.mpr ⟨o, List.argmax_mem ho, hv⟩

theorem isSome_get_iff {k : κ} : (d.get k).isSome = true ↔ d.live k ≠ [] := by
  unfold get
  cases hwin : (d.live k).argmax fun o => toLex o.id with
  | none => exact iff_of_false (by simp) fun h => h (List.argmax_eq_none.mp hwin)
  | some o =>
    have hmem := List.argmax_mem hwin
    exact iff_of_true (mem_live.mp hmem).2.2.1 (List.ne_nil_of_mem hmem)

theorem isSome_get_of_getAll {k : κ} (h : d.getAll k ≠ []) : (d.get k).isSome = true := by
  refine isSome_get_iff.mpr fun hnil => h ?_
  unfold getAll
  rw [hnil]
  rfl

end Order

def keys [LinearOrder κ] (d : OpSet κ α ν) : List κ :=
  ((d.ops.map Op.key).dedup.filter fun k => !(d.live k).isEmpty).insertionSort (· ≤ ·)

theorem mem_keys [LinearOrder κ] : k ∈ d.keys ↔ d.live k ≠ [] := by
  unfold keys
  rw [List.mem_insertionSort, List.mem_filter, List.mem_dedup]
  simp only [Bool.not_eq_true', List.isEmpty_eq_false_iff]
  refine and_iff_right_of_imp fun hne => ?_
  obtain ⟨o, ho⟩ := List.exists_mem_of_ne_nil _ hne
  obtain ⟨hmem, hkey, -⟩ := mem_live.mp ho
  exact List.mem_map.mpr ⟨o, hmem, hkey⟩

theorem nodup_keys [LinearOrder κ] (d : OpSet κ α ν) : d.keys.Nodup :=
  (List.perm_insertionSort _ _).nodup_iff.mpr ((List.nodup_dedup _).filter _)

end OpSet

end Peat.Lib
