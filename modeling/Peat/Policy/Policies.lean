/-
  THE RESOLUTION POLICIES (policy/{conflictable,policies}.rs): which of several
  conflicting items wins.

  Three of the policies sort the items and take the first. On a comparison that is no
  total preorder the sort may leave any order, or panic.
-/
import Mathlib.Data.List.MinMax
import Peat.Lib.HashMap
import Peat.Lib.Rounding
import Peat.Lib.TopK
import Peat.Schema

namespace Peat.Policy

open Peat.Lib

/-! ## 1. Items and policies -/

inductive AttributeValue where
  | string (v : String)
  | int (v : Int)
  | uint (v : Nat)
  | float (v : F64)
  | bool (v : Bool)
  | timestamp (v : Nat)
  deriving DecidableEq

def AttributeValue.asFloat : AttributeValue → F64
  | .float v => v
  | .int v => .ofInt v
  | .uint v => .ofInt v
  | .string _ | .bool _ | .timestamp _ => .finite 0

class Conflictable (T : Type*) where
  id : T → String
  conflictKeys : T → List String
  timestamp : T → Option Nat
  attributes : T → HashMap String AttributeValue

structure ResolutionPolicy (T : Type*) where
  name : String
  resolve : List T → Except Error T

def compareValues : AttributeValue → AttributeValue → Ordering
  | .int a, .int b => cmp a b
  | .uint a, .uint b => cmp a b
  | .float a, .float b => (a.partialCmp b).getD .eq
  | a, b => (a.asFloat.partialCmp b.asFloat).getD .eq

def compareAttributes (present : AttributeValue → AttributeValue → Ordering) :
    Option AttributeValue → Option AttributeValue → Ordering
  | some a, some b => present a b
  | some _, none => .lt
  | none, some _ => .gt
  | none, none => .eq

def highestFirst : Option AttributeValue → Option AttributeValue → Ordering :=
  compareAttributes fun a b => compareValues b a

section Policies

variable {T : Type*}

/-- What two of the policies do: `sort_by`, and the first item. The default is never used, the list is
    not empty. -/
def resolveSorted (order : T → T → Ordering) : List T → Except Error T
  | [] => .error (.invalidInput "Cannot resolve empty item list")
  | [item] => .ok item
  | first :: second :: rest =>
    .ok (((first :: second :: rest).insertionSort fun a b => order a b ≠ .gt).head?.getD first)

variable [Conflictable T]

def attr (name : String) (item : T) : Option AttributeValue :=
  (Conflictable.attributes item).lookup name

def lastWriteWinsPolicy : ResolutionPolicy T where
  name := "LAST_WRITE_WINS"
  resolve := resolveSorted fun a b =>
    cmp ((Conflictable.timestamp b).getD 0) ((Conflictable.timestamp a).getD 0)

def highestAttributeWinsPolicy (attributeName : String) : ResolutionPolicy T where
  name := attributeName
  resolve := resolveSorted fun a b => highestFirst (attr attributeName a) (attr attributeName b)

def rejectConflictPolicy : ResolutionPolicy T where
  name := "REJECT_CONFLICT"
  resolve
    | [] => .error (.invalidInput "Empty item list")
    | [item] => .ok item
    | first :: second :: rest =>
      .error (.conflictDetected ("Conflict detected between " ++
        toString (first :: second :: rest).length ++ " items (policy: REJECT)"))

end Policies

/-! ## 2. Sorting by a comparison -/

/-- **The comparison is a total preorder on the items.** -/
structure TotalPreorderOn {T : Type*} (order : T → T → Ordering) (items : List T) : Prop where
  swap : ∀ a ∈ items, ∀ b ∈ items, order a b = (order b a).swap
  trans : ∀ a ∈ items, ∀ b ∈ items, ∀ c ∈ items,
    order a b ≠ .gt → order b c ≠ .gt → order a c ≠ .gt

section Sorting

variable {T : Type*} {order : T → T → Ordering} {items : List T} {x : T}

theorem TotalPreorderOn.total (h : TotalPreorderOn order items) {a b : T} (ha : a ∈ items)
    (hb : b ∈ items) : order a b ≠ .gt ∨ order b a ≠ .gt := by
  rw [h.swap a ha b hb]
  cases order b a <;> simp

theorem exists_resolveSorted (order : T → T → Ordering) (hne : items ≠ []) :
    ∃ x, resolveSorted order items = .ok x := by
  match items with
  | [] => exact absurd rfl hne
  | [item] => exact ⟨_, rfl⟩
  | first :: second :: rest => exact ⟨_, rfl⟩

theorem resolveSorted_eq_ok_iff (h : TotalPreorderOn order items) :
    resolveSorted order items = .ok x ↔ FirstBest (fun a b => order a b ≠ .gt) items x := by
  rw [← head?_insertionSort_eq_some (fun a ha b hb => h.total ha hb) h.trans]
  match items with
  | [] => simp [resolveSorted]
  | [item] => simp [resolveSorted]
  | first :: second :: rest =>
    have hne : (first :: second :: rest).insertionSort (fun a b => order a b ≠ .gt) ≠ [] := by
      intro hnil
      have hperm := List.perm_insertionSort (fun a b => order a b ≠ .gt) (first :: second :: rest)
      rw [hnil] at hperm
      exact List.cons_ne_nil _ _ (List.nil_perm.mp hperm)
    obtain ⟨y, others, hy⟩ := List.exists_cons_of_ne_nil hne
    rw [resolveSorted, hy]
    simp

theorem cmp_ne_gt_iff {κ : Type*} [LinearOrder κ] {v w : κ} : cmp v w ≠ .gt ↔ v ≤ w := by
  rw [ne_eq, cmp_eq_gt_iff, not_lt]

theorem resolveSorted_cmp_eq_ok_iff {κ : Type*} [LinearOrder κ] (key : T → κ) :
    resolveSorted (fun a b => cmp (key b) (key a)) items = .ok x ↔ FirstMax key items x := by
  have hpreorder : TotalPreorderOn (fun a b => cmp (key b) (key a)) items := by
    refine ⟨fun a _ b _ => (cmp_swap _ _).symm, fun a _ b _ c _ hab hbc => ?_⟩
    exact cmp_ne_gt_iff.mpr ((cmp_ne_gt_iff.mp hbc).trans (cmp_ne_gt_iff.mp hab))
  have hle : (fun a b => cmp (key b) (key a) ≠ .gt) = fun a b => key b ≤ key a :=
    funext₂ fun a b => propext cmp_ne_gt_iff
  rw [resolveSorted_eq_ok_iff hpreorder, firstMax_iff_firstBest, hle]

end Sorting

/-! ## 3. Integer attributes -/

/-- An integer, or absent. -/
def Integral : Option AttributeValue → Prop
  | some (.int _) | some (.uint _) | none => True
  | _ => False

def exactValue : Option AttributeValue → Int
  | some (.int v) => v
  | some (.uint v) => v
  | _ => 0

def isInt : Option AttributeValue → Bool
  | some (.int _) => true
  | _ => false

/-- **An `Int` and a `Uint` with the same float**: the comparison takes them for equal. -/
def SameFloat (a b : Option AttributeValue) : Prop :=
  a ≠ none ∧ b ≠ none ∧ isInt a ≠ isInt b ∧
    F64.ofInt (exactValue a) = F64.ofInt (exactValue b)

instance (a b : Option AttributeValue) : Decidable (SameFloat a b) :=
  inferInstanceAs (Decidable (_ ∧ _))

theorem SameFloat.symm {a b : Option AttributeValue} (h : SameFloat a b) : SameFloat b a :=
  ⟨h.2.1, h.1, h.2.2.1.symm, h.2.2.2.symm⟩

section Integers

variable {a b c : Option AttributeValue}

def rounded (a : Option AttributeValue) : Int := roundInt 53 (exactValue a)

theorem sameFloat_iff : SameFloat a b ↔
    a ≠ none ∧ b ≠ none ∧ isInt a ≠ isInt b ∧ rounded a = rounded b := by
  rw [SameFloat, F64.ofInt_eq_iff]
  rfl

theorem rounded_mono (h : exactValue a ≤ exactValue b) : rounded a ≤ rounded b :=
  roundInt_mono (by decide) h

theorem highestFirst_ne_gt_iff (ha : Integral a) (hb : Integral b) :
    highestFirst a b ≠ .gt ↔ b = none ∨ a ≠ none ∧ rounded b ≤ rounded a ∧
      (isInt a = isInt b → exactValue b ≤ exactValue a) := by
  have hmono : ∀ {v w : Int}, v ≤ w → roundInt 53 v ≤ roundInt 53 w := roundInt_mono (by decide)
  have hfloat : ∀ v w : Int, ((F64.ofInt v).partialCmp (F64.ofInt w)).getD .eq ≠ .gt ↔
      roundInt 53 v ≤ roundInt 53 w := by
    intro v w
    rw [F64.partialCmp_ofInt]
    exact cmp_ne_gt_iff
  match a, b, ha, hb with
  | none, none, _, _ => simp [highestFirst, compareAttributes]
  | some a, none, _, _ => simp [highestFirst, compareAttributes]
  | none, some b, _, _ => simp [highestFirst, compareAttributes]
  | some (.int v), some (.int w), _, _ =>
    refine (cmp_ne_gt_iff : cmp w v ≠ .gt ↔ _).trans ?_
    simpa [rounded, exactValue, isInt] using hmono
  | some (.uint v), some (.uint w), _, _ =>
    refine (cmp_ne_gt_iff : cmp w v ≠ .gt ↔ _).trans ?_
    simpa [rounded, exactValue, isInt] using fun h => hmono (Int.ofNat_le.mpr h)
  | some (.int v), some (.uint w), _, _ | some (.uint v), some (.int w), _, _ =>
    refine (hfloat w v).trans ?_
    simp [rounded, exactValue, isInt]

theorem compareValues_swap (a b : AttributeValue) : (compareValues b a).swap = compareValues a b := by
  have hfloat : ∀ x y : F64, ((y.partialCmp x).getD .eq).swap = (x.partialCmp y).getD .eq := by
    intro x y
    rw [← F64.partialCmp_swap x y]
    cases y.partialCmp x <;> rfl
  cases a <;> cases b <;> dsimp only [compareValues] <;> first | exact hfloat _ _ | exact cmp_swap _ _

theorem highestFirst_swap (a b : Option AttributeValue) :
    highestFirst a b = (highestFirst b a).swap := by
  cases a <;> cases b <;> first | rfl | exact (compareValues_swap _ _).symm

end Integers

/-! ## 4. The highest attribute -/

section Highest

variable {T : Type*} {f : T → Option AttributeValue} {items : List T} {x : T}

/-- **The item with the highest attribute wins**, by its exact value, and the comparison is a total
    preorder on the items. -/
def HighestWins [Conflictable T] (name : String) (items : List T) : Prop :=
  (∃ x ∈ items, (highestAttributeWinsPolicy name).resolve items = .ok x ∧
    ∀ y ∈ items, exactValue (attr name y) ≤ exactValue (attr name x)) ∧
  TotalPreorderOn (fun a b => highestFirst (attr name a) (attr name b)) items

def Greatest (f : T → Option AttributeValue) (items : List T) (y : T) : Prop :=
  f y ≠ none ∧ ∀ z ∈ items, f z ≠ none → exactValue (f z) ≤ exactValue (f y)

def OnePerFloat (f : T → Option AttributeValue) (items : List T) : Prop :=
  ∀ x ∈ items, ∀ y ∈ items, ∀ z ∈ items,
    SameFloat (f x) (f z) → SameFloat (f z) (f y) → exactValue (f x) = exactValue (f y)

/-- **The attributes can be compared**: if one is absent, the greatest is not negative; an `Int` and a
    `Uint` with the same float are alone with it, and none of the other kind stands in front of the first
    greatest item. -/
structure Comparable (f : T → Option AttributeValue) (items : List T) : Prop where
  absent : (∃ x ∈ items, f x = none) → ∀ y ∈ items, Greatest f items y → 0 ≤ exactValue (f y)
  kinds : OnePerFloat f items
  first : ∀ pre y post, items = pre ++ y :: post → Greatest f items y →
    (∀ z ∈ pre, ¬ Greatest f items z) → ∀ z ∈ pre, ¬ SameFloat (f z) (f y)

def Ahead (f : T → Option AttributeValue) (a b : T) : Prop := highestFirst (f a) (f b) ≠ .gt

theorem ahead_iff (hint : ∀ item ∈ items, Integral (f item)) {a b : T} (ha : a ∈ items)
    (hb : b ∈ items) : Ahead f a b ↔ f b = none ∨ f a ≠ none ∧ rounded (f b) ≤ rounded (f a) ∧
      (isInt (f a) = isInt (f b) → exactValue (f b) ≤ exactValue (f a)) :=
  highestFirst_ne_gt_iff (hint a ha) (hint b hb)

theorem trans_iff (hint : ∀ item ∈ items, Integral (f item)) :
    (∀ a ∈ items, ∀ b ∈ items, ∀ c ∈ items, Ahead f a b → Ahead f b c → Ahead f a c) ↔
      OnePerFloat f items := by
  constructor
  · intro htrans
    -- each of the two may stand in front of the other, by way of the third
    have hle : ∀ x ∈ items, ∀ y ∈ items, ∀ z ∈ items, SameFloat (f x) (f z) → SameFloat (f z) (f y) →
        exactValue (f y) ≤ exactValue (f x) := by
      intro x hx y hy z hz hxz hzy
      obtain ⟨hxn, hzn, hkxz, hrxz⟩ := sameFloat_iff.mp hxz
      obtain ⟨_, hyn, hkzy, hrzy⟩ := sameFloat_iff.mp hzy
      have hkxy : isInt (f x) = isInt (f y) := by
        cases hx : isInt (f x) <;> cases hy : isInt (f y) <;> simp_all
      have hxz := (ahead_iff hint hx hz).mpr (.inr ⟨hxn, hrxz.ge, fun h => absurd h hkxz⟩)
      have hzy := (ahead_iff hint hz hy).mpr (.inr ⟨hzn, hrzy.ge, fun h => absurd h hkzy⟩)
      have hxy := (ahead_iff hint hx hy).mp (htrans x hx z hz y hy hxz hzy)
      exact (hxy.resolve_left hyn).2.2 hkxy
    intro x hx y hy z hz hxz hzy
    exact le_antisymm (hle y hy x hx z hz hzy.symm hxz.symm) (hle x hx y hy z hz hxz hzy)
  · intro hkinds a ha b hb c hc hab hbc
    rw [ahead_iff hint ha hb] at hab
    rw [ahead_iff hint hb hc] at hbc
    rw [ahead_iff hint ha hc]
    rcases hbc with hnone | ⟨hbn, hrcb, hvcb⟩
    · exact .inl hnone
    · obtain ⟨han, hrba, hvba⟩ := hab.resolve_left hbn
      refine (em (f c = none)).imp id fun hcn => ⟨han, hrcb.trans hrba, fun hkac => ?_⟩
      by_cases hkab : isInt (f a) = isInt (f b)
      · exact (hvcb (hkab.symm.trans hkac)).trans (hvba hkab)
      · by_contra hlt
        have hrac : rounded (f a) ≤ rounded (f c) := rounded_mono (not_le.mp hlt).le
        have hab : SameFloat (f a) (f b) :=
          sameFloat_iff.mpr ⟨han, hbn, hkab, le_antisymm (hrac.trans hrcb) hrba⟩
        have hbc : SameFloat (f b) (f c) :=
          sameFloat_iff.mpr ⟨hbn, hcn, fun h => hkab (hkac.trans h.symm),
            le_antisymm (hrba.trans hrac) hrcb⟩
        exact hlt (hkinds a ha c hc b hb hab hbc).ge

theorem totalPreorderOn_iff (hint : ∀ item ∈ items, Integral (f item)) :
    TotalPreorderOn (fun a b => highestFirst (f a) (f b)) items ↔ OnePerFloat f items :=
  ⟨fun h => (trans_iff hint).mp h.trans,
    fun h => ⟨fun _ _ _ _ => highestFirst_swap _ _, (trans_iff hint).mpr h⟩⟩

theorem exists_first_greatest (h : ∃ y ∈ items, f y ≠ none) :
    ∃ pre y post, items = pre ++ y :: post ∧ Greatest f items y ∧
      ∀ z ∈ pre, ¬ Greatest f items z := by
  classical
  have hsome : ∃ y ∈ items, Greatest f items y := by
    obtain ⟨y, hy, hyn⟩ := h
    cases hmax : (items.filter fun z => f z ≠ none).argmax fun z => exactValue (f z) with
    | none =>
      have hmem : y ∈ items.filter fun z => f z ≠ none := List.mem_filter.mpr ⟨hy, decide_eq_true hyn⟩
      rw [List.argmax_eq_none.mp hmax] at hmem
      cases hmem
    | some x =>
      obtain ⟨hx, hxn⟩ := List.mem_filter.mp (List.argmax_mem hmax)
      refine ⟨x, hx, of_decide_eq_true hxn, fun z hz hzn => ?_⟩
      exact List.le_of_mem_argmax (f := fun z => exactValue (f z))
        (List.mem_filter.mpr ⟨hz, decide_eq_true hzn⟩) hmax
  obtain ⟨y, hy, hg⟩ := hsome
  cases hfind : items.find? fun z => decide (Greatest f items z) with
  | none => exact absurd (decide_eq_true hg) (List.find?_eq_none.mp hfind y hy)
  | some first =>
    obtain ⟨hfirst, pre, post, hitems, hpre⟩ := List.find?_eq_some_iff_append.mp hfind
    exact ⟨pre, first, post, hitems, of_decide_eq_true hfirst, fun z hz => by simpa using hpre z hz⟩

theorem Comparable.greatest (h : Comparable f items)
    (hint : ∀ item ∈ items, Integral (f item)) (hx : FirstBest (Ahead f) items x)
    (htotal : ∀ a ∈ items, ∀ b ∈ items, Ahead f a b ∨ Ahead f b a)
    (hsome : ∃ y ∈ items, f y ≠ none) : Greatest f items x := by
  obtain ⟨pre, y, post, hitems, hg, hfirst⟩ := exists_first_greatest hsome
  have hy : y ∈ items := by simp [hitems]
  obtain ⟨hxn, hround, hkind⟩ :=
    ((ahead_iff hint hx.mem hy).mp (hx.rel htotal hy)).resolve_left hg.1
  rcases le_or_gt (exactValue (f y)) (exactValue (f x)) with hle | hlt
  · exact ⟨hxn, fun z hz hzn => (hg.2 z hz hzn).trans hle⟩
  · -- the two are of different kinds and have one float, so the first of them wins
    have hne : isInt (f x) ≠ isInt (f y) := fun hk => absurd (hkind hk) (not_le.mpr hlt)
    have hround' := rounded_mono hlt.le
    have hsame : SameFloat (f x) (f y) :=
      sameFloat_iff.mpr ⟨hxn, hg.1, hne, le_antisymm hround' hround⟩
    have hyx : Ahead f y x :=
      (ahead_iff hint hy hx.mem).mpr (.inr ⟨hg.1, hround', fun hk => absurd hk.symm hne⟩)
    obtain ⟨pre', post', hitems', hpre', _⟩ := hx
    rcases append_cons_cases (hitems.symm.trans hitems') with ⟨mid, hmid⟩ | ⟨mid, hmid⟩ | ⟨_, rfl⟩
    · exact absurd hyx (hpre' y (by simp [hmid]))
    · exact absurd hsame (h.first pre y post hitems hg hfirst x (by simp [hmid]))
    · exact absurd rfl hne

theorem comparable_of_winner (hint : ∀ item ∈ items, Integral (f item))
    (hpreorder : TotalPreorderOn (fun a b => highestFirst (f a) (f b)) items)
    (hbest : FirstBest (Ahead f) items x)
    (hmax : ∀ y ∈ items, exactValue (f y) ≤ exactValue (f x)) : Comparable f items := by
  have hx := hbest.mem
  have hkinds := (totalPreorderOn_iff hint).mp hpreorder
  have hpresent : ∀ y ∈ items, f y ≠ none → f x ≠ none := by
    intro y hy hyn
    have hahead := hbest.rel (fun a ha b hb => hpreorder.total ha hb) hy
    exact (((ahead_iff hint hx hy).mp hahead).resolve_left hyn).1
  refine ⟨fun ⟨w, hw, hwn⟩ y hy hg => ?_, hkinds, fun pre y post hitems hg hfirst z hz hsame => ?_⟩
  · have hzero := hmax w hw
    rw [hwn] at hzero
    exact le_trans hzero (hg.2 x hx (hpresent y hy hg.1))
  · have hy : y ∈ items := by simp [hitems]
    have hzi : z ∈ items := by simp [hitems, hz]
    have hxg : Greatest f items x := ⟨hpresent y hy hg.1, fun z hz _ => hmax z hz⟩
    have heq := le_antisymm (hmax y hy) (hg.2 x hx hxg.1)
    have hrxy : rounded (f x) = rounded (f y) := congrArg (roundInt 53) heq.symm
    obtain ⟨hzn, _, hkzy, hrzy⟩ := sameFloat_iff.mp hsame
    -- the winner is not in front of `z`, which the comparison takes for as good
    have hzx : Ahead f z x := by
      refine (ahead_iff hint hzi hx).mpr (.inr ⟨hzn, (hrxy.trans hrzy.symm).le, fun hkzx => ?_⟩)
      have hyx : SameFloat (f y) (f x) :=
        sameFloat_iff.mpr ⟨hg.1, hxg.1, fun h => hkzy (hkzx.trans h.symm), hrxy.symm⟩
      exact (hkinds z hzi x hx y hy hsame hyx).ge
    obtain ⟨pre', post', hitems', hpre', _⟩ := hbest
    rcases append_cons_cases (hitems.symm.trans hitems') with ⟨mid, hmid⟩ | ⟨mid, hmid⟩ | ⟨rfl, _⟩
    · exact hpre' z (by simp [hmid, hz]) hzx
    · exact hfirst x (by simp [hmid]) hxg
    · exact hpre' z hz hzx

/-- **What the order promises is kept** exactly when the attributes can be compared. -/
theorem highestWins_iff [Conflictable T] (name : String) (items : List T) (hne : items ≠ [])
    (hint : ∀ item ∈ items, Integral (attr name item)) :
    HighestWins name items ↔ Comparable (attr name) items := by
  constructor
  · intro ⟨⟨x, hx, hresolve, hmax⟩, hpreorder⟩
    exact comparable_of_winner hint hpreorder ((resolveSorted_eq_ok_iff hpreorder).mp hresolve) hmax
  · intro h
    have hpreorder := (totalPreorderOn_iff hint).mpr h.kinds
    obtain ⟨x, hresolve⟩ := exists_resolveSorted
      (fun a b => highestFirst (attr name a) (attr name b)) hne
    have hbest : FirstBest (Ahead (attr name)) items x :=
      (resolveSorted_eq_ok_iff hpreorder).mp hresolve
    refine ⟨⟨x, hbest.mem, hresolve, fun y hy => ?_⟩, hpreorder⟩
    by_cases hsome : ∃ y ∈ items, attr name y ≠ none
    · have hg := h.greatest hint hbest (fun a ha b hb => hpreorder.total ha hb) hsome
      by_cases hyn : attr name y = none
      · rw [hyn]
        exact h.absent ⟨y, hy, hyn⟩ x hbest.mem hg
      · exact hg.2 y hy hyn
    · have hnone : ∀ z ∈ items, attr name z = none := by
        intro z hz
        by_contra hzn
        exact hsome ⟨z, hz, hzn⟩
      rw [hnone y hy, hnone x hbest.mem]

end Highest

structure Rated where
  id : String
  rating : Option AttributeValue
  deriving DecidableEq

instance : Conflictable Rated where
  id item := item.id
  conflictKeys _ := []
  timestamp _ := none
  attributes item := item.rating.elim ∅ fun v => AList.singleton "rating" v

/-- Small numbers of both kinds and a missing one: the largest wins. -/
theorem highestWins_iff_small :
    HighestWins "rating" [(⟨"a", some (.int 3)⟩ : Rated), ⟨"b", some (.uint 7)⟩, ⟨"c", none⟩] := by
  have hnone : ∀ x ∈ [(⟨"a", some (.int 3)⟩ : Rated), ⟨"b", some (.uint 7)⟩, ⟨"c", none⟩],
      0 ≤ exactValue (attr "rating" x) ∧
      ∀ y ∈ [(⟨"a", some (.int 3)⟩ : Rated), ⟨"b", some (.uint 7)⟩, ⟨"c", none⟩],
        ¬ SameFloat (attr "rating" x) (attr "rating" y) := by decide +kernel
  refine (highestWins_iff "rating" _ (List.cons_ne_nil _ _) ?_).mpr ⟨?_, ?_, ?_⟩
  · simp only [List.forall_mem_cons]
    exact ⟨trivial, trivial, trivial, nofun⟩
  · exact fun _ y hy _ => (hnone y hy).1
  · exact fun x hx _ _ z hz hxz => absurd hxz ((hnone x hx).2 z hz)
  · intro pre y post hitems _ _ z hz hsame
    exact (hnone z (by simp [hitems, hz])).2 y (by simp [hitems]) hsame

/-- **A missing attribute is not a 0**: -5 wins against it. Beyond 53 bits an `Int` wins against a larger
    `Uint`. -/
theorem missing_below_negative :
    ¬ HighestWins "rating" [(⟨"a", some (.int (-5))⟩ : Rated), ⟨"b", none⟩] ∧
    ¬ HighestWins "rating"
      [(⟨"a", some (.int 9007199254740992)⟩ : Rated), ⟨"b", some (.uint 9007199254740993)⟩] ∧
    ¬ TotalPreorderOn (fun a b => highestFirst (attr "rating" a) (attr "rating" b))
      [(⟨"a", some (.int 9007199254740992)⟩ : Rated), ⟨"b", some (.uint 9007199254740992)⟩,
        ⟨"c", some (.int 9007199254740993)⟩] := by
  -- the first of two items wins, and the second has the greater value
  have hfirst : ∀ a b : Rated, (highestAttributeWinsPolicy "rating").resolve [a, b] = .ok a →
      exactValue (attr "rating" a) < exactValue (attr "rating" b) →
      ¬ HighestWins "rating" [a, b] := by
    intro a b hresolve hlt ⟨⟨x, _, hx, hmax⟩, _⟩
    rw [hresolve] at hx
    cases hx
    exact absurd (hmax b (by simp)) (not_le.mpr hlt)
  refine ⟨hfirst _ _ (by decide +kernel) (by decide +kernel),
    hfirst _ _ (by decide +kernel) (by decide +kernel), fun h => ?_⟩
  exact h.trans _ (.head _) _ (.tail _ (.head _)) _ (.tail _ (.tail _ (.head _))) (by decide +kernel)
    (by decide +kernel) (by decide +kernel)

end Peat.Policy
