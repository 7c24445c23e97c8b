/-
  JSON IN AUTOMERGE DOCUMENTS (storage/automerge_conversion.rs): how
  `populate_from_json` writes a value and `extract_to_json` reads it back.

  A document is a tree of maps, lists and scalars, the entries of a map sorted by key. A
  list takes an item at any index up to its length.
-/
import Mathlib.Data.String.Basic
import Peat.Lib.SortedMap
import Peat.Sync.Document

namespace Peat.Storage

open Peat.Lib Peat.Sync

/-! ## 1. Documents -/

/-- `ScalarValue`; of a byte string the text that `from_utf8_lossy` makes of it. -/
inductive Scalar where
  | bytes (lossyText : String)
  | str (s : String)
  | int (i : Int64)
  | uint (u : UInt64)
  | f64 (x : Rat)
  | counter
  | timestamp (ts : Int64)
  | boolean (b : Bool)
  | null

inductive Node where
  | scalar (s : Scalar)
  | map (entries : List (String × Node))
  | list (items : List Node)
  | text

def numberOfI64 (i : Int64) : Number := if i < 0 then .negInt i else .posInt i.toUInt64

def Scalar.toJson : Scalar → Value
  | .bytes lossyText => .string lossyText
  | .str s => .string s
  | .int i => .number (numberOfI64 i)
  | .uint u => .number (.posInt u)
  | .f64 x => .number (.float x)
  | .counter => .null
  | .timestamp ts => .number (numberOfI64 ts)
  | .boolean b => .bool b
  | .null => .null

mutual

def extractToJson : Node → Value
  | .scalar s => s.toJson
  | .map entries => .object (extractMembers entries)
  | .list items => .array (extractItems items)
  | .text => .null

def extractMembers : List (String × Node) → List (String × Value)
  | [] => []
  | (key, n) :: entries => (key, extractToJson n) :: extractMembers entries

def extractItems : List Node → List Value
  | [] => []
  | .scalar (.str s) :: items => .string s :: extractItems items
  | .map entries :: items => .object (extractMembers entries) :: extractItems items
  | _ :: items => extractItems items

end

/-! ## 2. Writing -/

inductive AutomergeError where
  | invalidIndex (index : Nat)
  deriving DecidableEq

def asI64 : Number → Option Int64
  | .posInt n => if n.toNat < 2 ^ 63 then some n.toInt64 else none
  | .negInt i => some i
  | .float _ => none

def roundTopU64 (n : Nat) : Nat :=
  if n % 2048 < 1024 ∨ n % 2048 = 1024 ∧ n / 2048 % 2 = 0 then n / 2048 * 2048
  else (n / 2048 + 1) * 2048

/-- The scalar a number is put as: `as_i64`, and otherwise `as_f64`. -/
def numberScalar (n : Number) : Scalar :=
  match asI64 n with
  | some i => .int i
  | none =>
    match n with
    | .posInt u => .f64 (roundTopU64 u.toNat)
    | .negInt i => .int i
    | .float x => .f64 x

def insertAt (items : List Node) (idx : Nat) (node : Except AutomergeError Node) :
    Except AutomergeError (List Node) :=
  if idx ≤ items.length then node.map (items.insertIdx idx) else .error (.invalidIndex idx)

mutual

/-- What `populate_from_json` puts under the key of a member; nothing for null. The object or list it
    puts is new, and is filled from the value. -/
def memberNode : Value → Except AutomergeError (Option Node)
  | .null => .ok none
  | .bool b => .ok (some (.scalar (.boolean b)))
  | .number n => .ok (some (.scalar (numberScalar n)))
  | .string s => .ok (some (.scalar (.str s)))
  | .array items =>
    match insertItems [] 0 items with
    | .error e => .error e
    | .ok nodes => .ok (some (.list nodes))
  | .object members =>
    match populateMembers [] members with
    | .error e => .error e
    | .ok entries => .ok (some (.map entries))

def populateMembers (obj : List (String × Node)) :
    List (String × Value) → Except AutomergeError (List (String × Node))
  | [] => .ok obj
  | (key, value) :: members =>
    match memberNode value with
    | .error e => .error e
    | .ok none => populateMembers obj members
    | .ok (some n) => populateMembers (put key n obj) members

def insertItems (nodes : List Node) (idx : Nat) : List Value → Except AutomergeError (List Node)
  | [] => .ok nodes
  | .string s :: items =>
    match insertAt nodes idx (.ok (.scalar (.str s))) with
    | .error e => .error e
    | .ok nodes' => insertItems nodes' (idx + 1) items
  | .object members :: items =>
    match insertAt nodes idx ((populateMembers [] members).map .map) with
    | .error e => .error e
    | .ok nodes' => insertItems nodes' (idx + 1) items
  | _ :: items => insertItems nodes (idx + 1) items

end

def populateFromJson (obj : List (String × Node)) : Value → Except AutomergeError (List (String × Node))
  | .object members => populateMembers obj members
  | _ => .ok obj

/-! ## 3. JSON without null members -/

mutual

def dropNulls : Value → Value
  | .array items => .array (dropNullsItems items)
  | .object members => .object (dropNullsMembers members)
  | v => v

def dropNullsItems : List Value → List Value
  | [] => []
  | v :: items => dropNulls v :: dropNullsItems items

def dropNullsMembers : List (String × Value) → List (String × Value)
  | [] => []
  | (_, .null) :: members => dropNullsMembers members
  | (key, v) :: members => (key, dropNulls v) :: dropNullsMembers members

end

@[elab_as_elim]
theorem value_induction {P : Value → Prop} (null : P .null) (bool : ∀ b, P (.bool b))
    (number : ∀ n, P (.number n)) (string : ∀ s, P (.string s))
    (array : ∀ items, (∀ v ∈ items, P v) → P (.array items))
    (object : ∀ members, (∀ kv ∈ members, P kv.2) → P (.object members)) (v : Value) : P v :=
  @Value.rec P (fun items => ∀ v ∈ items, P v) (fun members => ∀ kv ∈ members, P kv.2)
    (fun kv => P kv.2) null bool number string array object nofun
    (fun _ _ hv hitems => List.forall_mem_cons.mpr ⟨hv, hitems⟩) nofun
    (fun _ _ hkv hmembers => List.forall_mem_cons.mpr ⟨hkv, hmembers⟩) (fun _ _ hv => hv) v

theorem dropNullsItems_eq (items : List Value) : dropNullsItems items = items.map dropNulls := by
  induction items with
  | nil => rfl
  | cons v items ih => rw [dropNullsItems, ih, List.map_cons]

variable {v : Value} {members : List (String × Value)} {items : List Value}
  {entries : List (String × Node)} {nodes : List Node}

variable {key : String} {n : Node}

theorem dropNullsMembers_cons (hv : v ≠ .null) (members : List (String × Value)) :
    dropNullsMembers ((key, v) :: members) = (key, dropNulls v) :: dropNullsMembers members := by
  cases v with
  | null => exact absurd rfl hv
  | _ => rfl

theorem extractMembers_eq (entries : List (String × Node)) :
    extractMembers entries = entries.map fun e => (e.1, extractToJson e.2) := by
  induction entries with
  | nil => rfl
  | cons e entries ih =>
    rw [extractMembers, ih]
    rfl

/-! ## 4. Which values read back -/

/-- A number as `serde_json` makes them: a negative integer is negative. -/
def ProperNumber : Number → Prop
  | .negInt i => i < 0
  | _ => True

/-- A value as `serde_json` makes them: proper numbers, and the members of objects sorted. -/
inductive WellFormed : Value → Prop where
  | null : WellFormed .null
  | bool (b : Bool) : WellFormed (.bool b)
  | number (n : Number) (h : ProperNumber n) : WellFormed (.number n)
  | string (s : String) : WellFormed (.string s)
  | array (items : List Value) (h : ∀ v ∈ items, WellFormed v) : WellFormed (.array items)
  | object (members : List (String × Value)) (hsorted : SortedKeys members)
      (h : ∀ kv ∈ members, WellFormed kv.2) : WellFormed (.object members)

def TextOrObject : Value → Prop
  | .string _ => True
  | .object _ => True
  | _ => False

/-- The JSON values that come back as they went in. -/
inductive Storable : Value → Prop where
  | null : Storable .null
  | bool (b : Bool) : Storable (.bool b)
  | posInt (n : UInt64) (h : n.toNat < 2 ^ 63) : Storable (.number (.posInt n))
  | negInt (i : Int64) : Storable (.number (.negInt i))
  | float (x : Rat) : Storable (.number (.float x))
  | string (s : String) : Storable (.string s)
  | array (items : List Value) (htext : ∀ v ∈ items, TextOrObject v) (h : ∀ v ∈ items, Storable v) :
      Storable (.array items)
  | object (members : List (String × Value)) (h : ∀ kv ∈ members, Storable kv.2) :
      Storable (.object members)

def memberNodes : List (String × Value) → Except AutomergeError (List (String × Node))
  | [] => .ok []
  | (key, v) :: members =>
    match memberNode v with
    | .error e => .error e
    | .ok none => memberNodes members
    | .ok (some n) => (memberNodes members).map ((key, n) :: ·)

def itemNodes : List Value → Except AutomergeError (List Node)
  | [] => .ok []
  | v :: items =>
    match memberNode v with
    | .error e => .error e
    | .ok none => itemNodes items
    | .ok (some n) => (itemNodes items).map (n :: ·)

theorem map_ok_iff {ε α β : Type*} {x : Except ε α} {f : α → β} {b : β} :
    x.map f = .ok b ↔ ∃ a, x = .ok a ∧ f a = b := by
  cases x with
  | error e => exact iff_of_false nofun fun ⟨_, h, _⟩ => nomatch h
  | ok a =>
    constructor
    · intro h
      exact ⟨a, rfl, Except.ok.inj h⟩
    · rintro ⟨_, h, rfl⟩
      cases h
      rfl

theorem populateMembers_eq (members : List (String × Value)) (obj : List (String × Node)) :
    populateMembers obj members = (memberNodes members).map (putAll obj) := by
  induction members generalizing obj with
  | nil => rfl
  | cons kv members ih =>
    obtain ⟨key, v⟩ := kv
    rw [populateMembers, memberNodes]
    cases memberNode v with
    | error e => rfl
    | ok found =>
      cases found with
      | none => exact ih obj
      | some n =>
        dsimp only
        rw [ih]
        cases memberNodes members <;> rfl

theorem populateMembers_ok_iff {obj root : List (String × Node)} :
    populateMembers obj members = .ok root ↔
      ∃ entries, memberNodes members = .ok entries ∧ putAll obj entries = root := by
  rw [populateMembers_eq, map_ok_iff]

theorem insertAt_end (nodes : List Node) (node : Except AutomergeError Node) :
    insertAt nodes nodes.length node = node.map fun n => nodes ++ [n] := by
  rw [insertAt, if_pos (Nat.le_refl _)]
  cases node with
  | error e => rfl
  | ok n => exact congrArg Except.ok (List.insertIdx_length_self ..)

theorem insertItems_eq (h : ∀ v ∈ items, TextOrObject v) (nodes : List Node) :
    insertItems nodes nodes.length items = (itemNodes items).map (nodes ++ ·) := by
  induction items generalizing nodes with
  | nil => exact congrArg Except.ok (List.append_nil nodes).symm
  | cons v items ih =>
    obtain ⟨hv, hitems⟩ := List.forall_mem_cons.mp h
    have hnext : ∀ n, insertItems (nodes ++ [n]) (nodes.length + 1) items =
        ((itemNodes items).map (n :: ·)).map (nodes ++ ·) := by
      intro n
      have hstep := ih hitems (nodes ++ [n])
      rw [List.length_append, List.length_singleton] at hstep
      rw [hstep]
      cases itemNodes items with
      | error e => rfl
      | ok rest => exact congrArg Except.ok (List.append_assoc ..)
    cases v with
    | string s =>
      rw [insertItems, insertAt_end, itemNodes, memberNode]
      exact hnext _
    | object members =>
      rw [insertItems, insertAt_end, itemNodes, memberNode]
      cases populateMembers [] members with
      | error e => rfl
      | ok entries => exact hnext _
    | null | bool b | number n | array items' => exact absurd hv id

theorem memberNode_ne_none (hv : v ≠ .null) : memberNode v ≠ .ok none := by
  cases v with
  | null => exact absurd rfl hv
  | bool b | number n | string s => nofun
  | array items =>
    rw [memberNode]
    split <;> nofun
  | object members =>
    rw [memberNode]
    split <;> nofun

theorem put_first_ok_iff {α β : Type*} (hv : v ≠ .null) {others : Except AutomergeError α}
    {skip : Except AutomergeError β} {first : Node → α → β} {b : β} :
    (match memberNode v with
      | .error e => Except.error e
      | .ok none => skip
      | .ok (some n) => others.map (first n)) = .ok b ↔
      ∃ n rest, memberNode v = .ok (some n) ∧ others = .ok rest ∧ first n rest = b := by
  constructor
  · intro h
    split at h
    · cases h
    · rename_i hnone
      exact absurd hnone (memberNode_ne_none hv)
    · rename_i n hn
      obtain ⟨rest, hrest, rfl⟩ := map_ok_iff.mp h
      exact ⟨n, rest, hn, hrest, rfl⟩
  · rintro ⟨n, rest, hn, hrest, rfl⟩
    rw [hn, hrest]
    rfl

theorem memberNodes_cons_ok_iff (hv : v ≠ .null) :
    memberNodes ((key, v) :: members) = .ok entries ↔
      ∃ n rest, memberNode v = .ok (some n) ∧ memberNodes members = .ok rest ∧
        (key, n) :: rest = entries := by
  rw [memberNodes]
  exact put_first_ok_iff hv

theorem itemNodes_cons_ok_iff (hv : v ≠ .null) :
    itemNodes (v :: items) = .ok nodes ↔
      ∃ n rest, memberNode v = .ok (some n) ∧ itemNodes items = .ok rest ∧ n :: rest = nodes := by
  rw [itemNodes]
  exact put_first_ok_iff hv

theorem keys_memberNodes (h : memberNodes members = .ok entries) :
    entries.map Prod.fst = (dropNullsMembers members).map Prod.fst := by
  induction members generalizing entries with
  | nil =>
    cases h
    rfl
  | cons kv members ih =>
    obtain ⟨key, v⟩ := kv
    by_cases hv : v = .null
    · subst hv
      exact ih h
    · obtain ⟨n, rest, -, hrest, rfl⟩ := (memberNodes_cons_ok_iff hv).mp h
      rw [dropNullsMembers_cons hv, List.map_cons, List.map_cons, ih hrest]

open Classical in
theorem keys_dropNullsMembers (members : List (String × Value)) :
    (dropNullsMembers members).map Prod.fst =
      (members.filter fun kv => kv.2 ≠ .null).map Prod.fst := by
  induction members with
  | nil => rfl
  | cons kv members ih =>
    obtain ⟨key, v⟩ := kv
    by_cases hv : v = .null
    · subst hv
      rw [List.filter_cons_of_neg (by simp)]
      exact ih
    · rw [dropNullsMembers_cons hv, List.filter_cons_of_pos (by simp [hv]), List.map_cons, ih]
      rfl

theorem mem_keys_dropNullsMembers :
    key ∈ (dropNullsMembers members).map Prod.fst ↔ ∃ v, (key, v) ∈ members ∧ v ≠ .null := by
  simp [keys_dropNullsMembers]

theorem sortedKeys_memberNodes (h : memberNodes members = .ok entries)
    (hsorted : SortedKeys members) : SortedKeys entries := by
  have hkeys : (members.map Prod.fst).Pairwise (· < ·) := List.pairwise_map.mpr hsorted
  refine List.pairwise_map.mp (?_ : (entries.map Prod.fst).Pairwise (· < ·))
  rw [keys_memberNodes h, keys_dropNullsMembers]
  exact hkeys.sublist (List.filter_sublist.map Prod.fst)

/-! ## 5. Numbers, lists and objects -/

theorem numberScalar_toJson_iff {n : Number} (h : ProperNumber n) :
    (numberScalar n).toJson = .number n ↔ Storable (.number n) := by
  cases n with
  | posInt u =>
    by_cases hu : u.toNat < 2 ^ 63
    · have hint : u.toInt64.toInt = u.toNat := BitVec.toInt_eq_toNat_of_lt (x := u.toBitVec)
        (show 2 * u.toNat < 2 ^ 64 by omega)
      have hnonneg : ¬ u.toInt64 < 0 := by
        rw [Int64.lt_iff_toInt_lt, hint]
        exact Int.not_lt.mpr (Int.natCast_nonneg _)
      refine iff_of_true ?_ (.posInt u hu)
      rw [numberScalar, asI64, if_pos hu]
      show Value.number (numberOfI64 u.toInt64) = _
      rw [numberOfI64, if_neg hnonneg, UInt64.toUInt64_toInt64]
    · refine iff_of_false ?_ ?_
      · rw [numberScalar, asI64, if_neg hu]
        nofun
      · intro hs
        cases hs
        exact hu ‹_›
  | negInt i =>
    refine iff_of_true ?_ (.negInt i)
    have hneg : i < 0 := h
    show Value.number (numberOfI64 i) = _
    rw [numberOfI64, if_pos hneg]
  | float x => exact iff_of_true rfl (.float x)

def Reads (v : Value) : Prop := ∃ n, memberNode v = .ok (some n) ∧ extractToJson n = dropNulls v

theorem extractItems_cons (hv : TextOrObject v) (h : memberNode v = .ok (some n))
    (items : List Node) : extractItems (n :: items) = extractToJson n :: extractItems items := by
  cases v with
  | string s =>
    cases h
    rfl
  | object members =>
    rw [memberNode] at h
    split at h
    · cases h
    · cases h
      rfl
  | null | bool b | number n' | array items' => exact absurd hv id

theorem of_mem_extractItems (h : v ∈ extractItems nodes) :
    TextOrObject v ∧ ∃ n ∈ nodes, v = extractToJson n := by
  have hrest : ∀ {n : Node} {nodes : List Node}, (TextOrObject v ∧ ∃ n' ∈ nodes, v = extractToJson n') →
      TextOrObject v ∧ ∃ n' ∈ n :: nodes, v = extractToJson n' := by
    rintro n nodes ⟨hv, n', hn', e⟩
    exact ⟨hv, n', List.mem_cons_of_mem _ hn', e⟩
  induction nodes with
  | nil => cases h
  | cons n nodes ih =>
    unfold extractItems at h
    split at h
    · cases ‹_ = _›
    · cases ‹_ = _›
      rcases List.mem_cons.mp h with rfl | h'
      · exact ⟨trivial, _, List.mem_cons_self, rfl⟩
      · exact hrest (ih h')
    · cases ‹_ = _›
      rcases List.mem_cons.mp h with rfl | h'
      · exact ⟨trivial, _, List.mem_cons_self, rfl⟩
      · exact hrest (ih h')
    · cases ‹_ = _›
      exact hrest (ih h)

theorem textOrObject_dropNulls_iff : TextOrObject (dropNulls v) ↔ TextOrObject v := by
  cases v <;> exact Iff.rfl

theorem ne_null_of_textOrObject (hv : TextOrObject v) : v ≠ .null := by
  rintro rfl
  exact hv

theorem itemNodes_read_iff (htext : ∀ v ∈ items, TextOrObject v)
    (h : ∀ v ∈ items, Reads v ↔ v ≠ .null ∧ Storable v) :
    (∃ nodes, itemNodes items = .ok nodes ∧ extractItems nodes = items.map dropNulls) ↔
      ∀ v ∈ items, Storable v := by
  induction items with
  | nil => exact iff_of_true ⟨[], rfl, rfl⟩ nofun
  | cons v items ih =>
    obtain ⟨hv, hitems⟩ := List.forall_mem_cons.mp htext
    obtain ⟨hread, hreads⟩ := List.forall_mem_cons.mp h
    have hne : v ≠ .null := ne_null_of_textOrObject hv
    have hread' : Reads v ↔ Storable v := hread.trans (and_iff_right hne)
    rw [List.forall_mem_cons, ← ih hitems hreads, ← hread']
    constructor
    · rintro ⟨nodes, hnodes, hextract⟩
      obtain ⟨n, rest, hn, hrest, rfl⟩ := (itemNodes_cons_ok_iff hne).mp hnodes
      rw [extractItems_cons hv hn, List.map_cons] at hextract
      obtain ⟨hfirst, htail⟩ := List.cons.inj hextract
      exact ⟨⟨n, hn, hfirst⟩, rest, hrest, htail⟩
    · rintro ⟨⟨n, hn, hfirst⟩, rest, hrest, htail⟩
      refine ⟨n :: rest, (itemNodes_cons_ok_iff hne).mpr ⟨n, rest, hn, hrest, rfl⟩, ?_⟩
      rw [extractItems_cons hv hn, List.map_cons, hfirst, htail]

theorem memberNodes_read_iff (h : ∀ kv ∈ members, Reads kv.2 ↔ kv.2 ≠ .null ∧ Storable kv.2) :
    (∃ entries, memberNodes members = .ok entries ∧
        extractMembers entries = dropNullsMembers members) ↔ ∀ kv ∈ members, Storable kv.2 := by
  induction members with
  | nil => exact iff_of_true ⟨[], rfl, rfl⟩ nofun
  | cons kv members ih =>
    obtain ⟨key, v⟩ := kv
    obtain ⟨hread, hreads⟩ := List.forall_mem_cons.mp h
    rw [List.forall_mem_cons, ← ih hreads]
    by_cases hv : v = .null
    · subst hv
      exact (and_iff_right Storable.null).symm
    · have hread' : Reads v ↔ Storable v := hread.trans (and_iff_right hv)
      rw [← hread', dropNullsMembers_cons hv]
      constructor
      · rintro ⟨entries, hentries, hextract⟩
        obtain ⟨n, rest, hn, hrest, rfl⟩ := (memberNodes_cons_ok_iff hv).mp hentries
        obtain ⟨hfirst, htail⟩ := List.cons.inj hextract
        exact ⟨⟨n, hn, (Prod.mk.inj hfirst).2⟩, rest, hrest, htail⟩
      · rintro ⟨⟨n, hn, hfirst⟩, rest, hrest, htail⟩
        refine ⟨(key, n) :: rest, (memberNodes_cons_ok_iff hv).mpr ⟨n, rest, hn, hrest, rfl⟩, ?_⟩
        rw [extractMembers, hfirst, htail]

theorem memberNode_array_ok_iff :
    memberNode (.array items) = .ok (some n) ↔
      ∃ nodes, insertItems [] 0 items = .ok nodes ∧ .list nodes = n := by
  have hfill : memberNode (.array items) =
      (insertItems [] 0 items).map fun nodes => some (.list nodes) := by
    rw [memberNode]
    cases insertItems [] 0 items <;> rfl
  rw [hfill, map_ok_iff]
  simp only [Option.some.injEq]

theorem memberNode_object_ok_iff :
    memberNode (.object members) = .ok (some n) ↔
      ∃ entries, populateMembers [] members = .ok entries ∧ .map entries = n := by
  have hfill : memberNode (.object members) =
      (populateMembers [] members).map fun entries => some (.map entries) := by
    rw [memberNode]
    cases populateMembers [] members <;> rfl
  rw [hfill, map_ok_iff]
  simp only [Option.some.injEq]

theorem insertItems_nil_ok_iff (h : ∀ v ∈ items, TextOrObject v) :
    insertItems [] 0 items = .ok nodes ↔ itemNodes items = .ok nodes := by
  have heq := insertItems_eq h []
  rw [List.length_nil] at heq
  rw [heq]
  cases itemNodes items <;> exact Iff.rfl

theorem reads_array_iff (h : ∀ v ∈ items, Reads v ↔ v ≠ .null ∧ Storable v) :
    Reads (.array items) ↔ Storable (.array items) := by
  constructor
  · rintro ⟨node, hnode, hread⟩
    obtain ⟨nodes, hnodes, rfl⟩ := memberNode_array_ok_iff.mp hnode
    have hread : Value.array (extractItems nodes) = .array (dropNullsItems items) := hread
    rw [dropNullsItems_eq] at hread
    have hextract := Value.array.inj hread
    -- what is read back from a list are texts and objects
    have htext : ∀ v ∈ items, TextOrObject v := by
      intro v hv
      have hmem : dropNulls v ∈ extractItems nodes := by
        rw [hextract]
        exact List.mem_map_of_mem hv
      exact textOrObject_dropNulls_iff.mp (of_mem_extractItems hmem).1
    have hin := (insertItems_nil_ok_iff htext).mp hnodes
    exact .array items htext ((itemNodes_read_iff htext h).mp ⟨nodes, hin, hextract⟩)
  · intro hs
    cases hs with
    | array _ htext hstorable =>
      obtain ⟨nodes, hnodes, hextract⟩ := (itemNodes_read_iff htext h).mpr hstorable
      refine ⟨.list nodes,
        memberNode_array_ok_iff.mpr ⟨nodes, (insertItems_nil_ok_iff htext).mpr hnodes, rfl⟩, ?_⟩
      show Value.array (extractItems nodes) = .array (dropNullsItems items)
      rw [dropNullsItems_eq, hextract]

theorem reads_object_iff (hsorted : SortedKeys members)
    (h : ∀ kv ∈ members, Reads kv.2 ↔ kv.2 ≠ .null ∧ Storable kv.2) :
    Reads (.object members) ↔ Storable (.object members) := by
  constructor
  · rintro ⟨node, hnode, hread⟩
    obtain ⟨root, hroot, rfl⟩ := memberNode_object_ok_iff.mp hnode
    obtain ⟨entries, hm, rfl⟩ := populateMembers_ok_iff.mp hroot
    have hread : Value.object (extractMembers (putAll [] entries)) =
      .object (dropNullsMembers members) := hread
    rw [putAll_nil (sortedKeys_memberNodes hm hsorted)] at hread
    exact .object members ((memberNodes_read_iff h).mp ⟨entries, hm, Value.object.inj hread⟩)
  · intro hs
    cases hs with
    | object _ hstorable =>
      obtain ⟨entries, hm, hextract⟩ := (memberNodes_read_iff h).mpr hstorable
      have hput := putAll_nil (sortedKeys_memberNodes hm hsorted)
      refine ⟨.map entries,
        memberNode_object_ok_iff.mpr ⟨entries, populateMembers_ok_iff.mpr ⟨entries, hm, hput⟩, rfl⟩, ?_⟩
      show Value.object (extractMembers entries) = .object (dropNullsMembers members)
      rw [hextract]

theorem reads_iff (hwf : WellFormed v) : Reads v ↔ v ≠ .null ∧ Storable v := by
  induction v using value_induction with
  | null => exact iff_of_false (fun ⟨n, hn, _⟩ => nomatch hn) fun h => h.1 rfl
  | bool b => exact iff_of_true ⟨_, rfl, rfl⟩ ⟨nofun, .bool b⟩
  | string s => exact iff_of_true ⟨_, rfl, rfl⟩ ⟨nofun, .string s⟩
  | number n =>
    cases hwf with
    | number _ hn =>
      rw [and_iff_right (by nofun), ← numberScalar_toJson_iff hn]
      constructor
      · rintro ⟨node, hnode, hread⟩
        cases hnode
        exact hread
      · exact fun hread => ⟨_, rfl, hread⟩
  | array items ih =>
    cases hwf with
    | array _ hitems =>
      rw [and_iff_right (by nofun)]
      exact reads_array_iff fun v hv => ih v hv (hitems v hv)
  | object members ih =>
    cases hwf with
    | object _ hsorted hmembers =>
      rw [and_iff_right (by nofun)]
      exact reads_object_iff hsorted fun kv hkv => ih kv hkv (hmembers kv hkv)

/-- No object in the value has a null member. -/
def NoNullMembers (v : Value) : Prop := dropNulls v = v

/-- The members are stored and read back. -/
def RoundTrips (members : List (String × Value)) : Prop :=
  ∃ root, populateFromJson [] (.object members) = .ok root ∧ extractMembers root = members

/-- **Which objects survive a fresh document**: those that can be stored. -/
theorem roundTrips_iff (hwf : WellFormed (.object members)) (hnull : NoNullMembers (.object members)) :
    RoundTrips members ↔ Storable (.object members) := by
  have hread := reads_iff hwf
  rw [and_iff_right (by nofun)] at hread
  rw [← hread, Reads, hnull]
  constructor
  · intro ⟨root, hroot, hextract⟩
    exact ⟨.map root, memberNode_object_ok_iff.mpr ⟨root, hroot, rfl⟩, congrArg _ hextract⟩
  · intro ⟨n, hn, hextract⟩
    obtain ⟨root, hroot, rfl⟩ := memberNode_object_ok_iff.mp hn
    exact ⟨root, hroot, Value.object.inj hextract⟩

theorem wellFormed_single (key : String) (hv : WellFormed v) : WellFormed (.object [(key, v)]) :=
  .object _ (List.pairwise_singleton _ _) fun _ h => List.mem_singleton.mp h ▸ hv

/-- An integer, a text, and an array with an object in it. -/
def unitMembers : List (String × Value) :=
  [("level", .number (.posInt 3)), ("role", .string "medic"),
    ("tags", .array [.string "a", .object [("id", .string "b")]])]

theorem roundTrips_iff_role : RoundTrips unitMembers := by
  have hwf : WellFormed (.object unitMembers) := by
    refine .object _ (List.pairwise_map.mp (by decide : (unitMembers.map Prod.fst).Pairwise (· < ·))) ?_
    simp only [unitMembers, List.forall_mem_cons]
    refine ⟨.number _ trivial, .string _, .array _ ?_, nofun⟩
    simp only [List.forall_mem_cons]
    exact ⟨.string _, wellFormed_single "id" (.string "b"), nofun⟩
  refine (roundTrips_iff hwf rfl).mpr (.object _ ?_)
  simp only [unitMembers, List.forall_mem_cons]
  refine ⟨.posInt 3 (by decide), .string _, .array _ ?_ ?_, nofun⟩
  · simp [TextOrObject]
  · simp only [List.forall_mem_cons]
    exact ⟨.string _, .object _ (List.forall_mem_singleton.mpr (.string "b")), nofun⟩

/-- A number in an array is not written. -/
theorem number_in_array_lost :
    let members := [("levels", Value.array [.number (.posInt 1)])]
    NoNullMembers (.object members) ∧ ¬ RoundTrips members := by
  refine ⟨rfl, ?_⟩
  intro ⟨root, hroot, hextract⟩
  cases hroot
  cases hextract

end Peat.Storage
