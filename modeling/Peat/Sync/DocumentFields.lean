/-
  FIELDS IN THE DOCUMENTS OF THE IN-MEMORY BACKEND (`put_json_value`,
  `insert_json_value` and `automerge_value_to_json` in sync/automerge.rs).

  A write puts a new root map into the Automerge document. A list takes texts, numbers
  and truth values; an array or object in it becomes its JSON text (`toText`), and a
  null moves the index on without an item.
-/
import Peat.Storage.AutomergeConversion
import Peat.Sync.AutomergeBackend

namespace Peat.Sync

open Peat.Lib

/-! ## 1. Reading and writing -/

inductive ScalarValue where
  | bytes (data : List UInt8)
  | str (s : String)
  | int (i : Int64)
  | uint (u : UInt64)
  | f64 (x : Rat)
  | counter (value : Int64)
  | timestamp (ts : Int64)
  | boolean (b : Bool)
  | null
  | unknown

inductive Node where
  | scalar (s : ScalarValue)
  | map (entries : List (String × Node))
  | list (items : List Node)
  | text (s : String)

def ScalarValue.toJson : ScalarValue → Value
  | .bytes data => .array (data.map fun b => .number (.posInt b.toUInt64))
  | .str s => .string s
  | .int i => .number (Storage.numberOfI64 i)
  | .uint u => .number (.posInt u)
  | .f64 x => .number (.float x)
  | .counter value => .number (Storage.numberOfI64 value)
  | .timestamp ts => .number (Storage.numberOfI64 ts)
  | .boolean b => .bool b
  | .null => .null
  | .unknown => .null

mutual

def Node.toJson : Node → Value
  | .scalar s => s.toJson
  | .map entries => .object (membersToJson entries)
  | .list items => .array (itemsToJson items)
  | .text s => .string s

def membersToJson : List (String × Node) → List (String × Value)
  | [] => []
  | (key, n) :: entries => (key, n.toJson) :: membersToJson entries

def itemsToJson : List Node → List Value
  | [] => []
  | n :: items => n.toJson :: itemsToJson items

end

def numberValue (n : Number) : ScalarValue :=
  match Storage.asI64 n with
  | some i => .int i
  | none =>
    match n with
    | .posInt u => .f64 (Storage.roundTopU64 u.toNat)
    | .negInt i => .int i
    | .float x => .f64 x

def scalarOf : Value → Option ScalarValue
  | .string s => some (.str s)
  | .number n => some (numberValue n)
  | .bool b => some (.boolean b)
  | _ => none

section Writing

variable (toText : Value → String)

def itemNode (v : Value) : Node := .scalar ((scalarOf v).getD (.str (toText v)))

def insertJsonValue (list : List Node) (index : Nat) (v : Value) :
    Except Storage.AutomergeError (List Node) :=
  match v with
  | .null => .ok list
  | v => if index ≤ list.length then .ok (list.insertIdx index (itemNode toText v))
    else .error (.invalidIndex index)

def insertItems (list : List Node) (index : Nat) :
    List Value → Except Storage.AutomergeError (List Node)
  | [] => .ok list
  | v :: items =>
    match insertJsonValue toText list index v with
    | .error e => .error e
    | .ok list' => insertItems list' (index + 1) items

mutual

def nodeOf : Value → Except Storage.AutomergeError (Option Node)
  | .null => .ok none
  | .array items => (insertItems toText [] 0 items).map fun list => some (.list list)
  | .object members => (putMembers [] members).map fun entries => some (.map entries)
  | v => .ok ((scalarOf v).map .scalar)

def putMembers (obj : List (String × Node)) :
    List (String × Value) → Except Storage.AutomergeError (List (String × Node))
  | [] => .ok obj
  | (key, value) :: members =>
    match nodeOf value with
    | .error e => .error e
    | .ok none => putMembers obj members
    | .ok (some n) => putMembers (put key n obj) members

end

abbrev StoredDocuments := HashMap String (HashMap String Node)

def pairs (fields : Fields) : List (String × Value) := fields.entries.map fun e => (e.1, e.2)

def applyDocumentToAutomerge (doc : HashMap String Node) (fields : Fields) :
    Except StoreError (HashMap String Node) :=
  match putMembers toText [] (pairs fields) with
  | .ok entries => .ok (doc.insert "root" (.map entries))
  | .error (.invalidIndex index) =>
    .error (.internal ("Transaction failed: InvalidIndex(" ++ toString index ++ ")"))

def automergeToFields (doc : HashMap String Node) : Fields :=
  match doc.lookup "root" with
  | some (.map entries) => ((membersToJson entries).map fun e => ⟨e.1, e.2⟩).toAList
  | _ => ∅

def upsertFields (docs : StoredDocuments) (collection docId : String) (fields : Fields) :
    Except StoreError StoredDocuments :=
  (applyDocumentToAutomerge toText ((docs.lookup (docKey collection docId)).getD ∅) fields).map
    (docs.insert (docKey collection docId))

def getFields (docs : StoredDocuments) (collection docId : String) : Option Fields :=
  (docs.lookup (docKey collection docId)).map automergeToFields

end Writing

/-! ## 2. Which values are kept -/

def KeptScalar : Value → Prop
  | .string _ => True
  | .bool _ => True
  | .number n => Storage.Storable (.number n)
  | _ => False

/-- The values that come back as they went in. -/
inductive Kept : Value → Prop where
  | scalar {v : Value} (h : KeptScalar v) : Kept v
  | array {items : List Value} (h : ∀ v ∈ items, KeptScalar v) : Kept (.array items)
  | object {members : List (String × Value)} (h : ∀ kv ∈ members, Kept kv.2) : Kept (.object members)

variable {toText : Value → String} {v : Value} {items : List Value} {members : List (String × Value)}
  {list list' : List Node} {obj root entries : List (String × Node)} {index : Nat}

def ReadsBack (toText : Value → String) (v : Value) : Prop :=
  ∃ n, nodeOf toText v = .ok (some n) ∧ n.toJson = v

theorem itemsToJson_eq (list : List Node) : itemsToJson list = list.map Node.toJson := by
  induction list with
  | nil => rfl
  | cons n list ih => rw [itemsToJson, ih, List.map_cons]

theorem membersToJson_eq (entries : List (String × Node)) :
    membersToJson entries = entries.map fun e => (e.1, e.2.toJson) := by
  induction entries with
  | nil => rfl
  | cons e entries ih => rw [membersToJson, ih, List.map_cons]

theorem numberValue_toJson (n : Number) : (numberValue n).toJson = (Storage.numberScalar n).toJson := by
  unfold numberValue Storage.numberScalar
  cases Storage.asI64 n <;> cases n <;> rfl

theorem scalarOf_toJson_iff (h : Storage.WellFormed v) :
    (∃ s, scalarOf v = some s ∧ s.toJson = v) ↔ KeptScalar v := by
  cases h with
  | string s => exact iff_of_true ⟨_, rfl, rfl⟩ trivial
  | bool b => exact iff_of_true ⟨_, rfl, rfl⟩ trivial
  | number n hn =>
    rw [KeptScalar, ← Storage.numberScalar_toJson_iff hn, ← numberValue_toJson]
    simp [scalarOf]
  | null | array items | object members => exact iff_of_false (by simp [scalarOf]) id

theorem itemNode_toJson_iff (h : Storage.WellFormed v) :
    (itemNode toText v).toJson = v ↔ KeptScalar v := by
  rw [← scalarOf_toJson_iff h, itemNode, Node.toJson]
  cases v <;> simp [scalarOf, ScalarValue.toJson]

theorem itemNode_toJson_ne_null (v : Value) : (itemNode toText v).toJson ≠ .null := by
  rw [itemNode, Node.toJson]
  cases v with
  | number n =>
    show (numberValue n).toJson ≠ .null
    unfold numberValue
    cases Storage.asI64 n <;> cases n <;> nofun
  | _ => nofun

/-! ## 3. Arrays -/

theorem mem_of_insertItems (h : insertItems toText list index items = .ok list') {n : Node}
    (hn : n ∈ list') : n ∈ list ∨ ∃ v, n = itemNode toText v := by
  induction items generalizing list index with
  | nil =>
    cases h
    exact .inl hn
  | cons v items ih =>
    rw [insertItems] at h
    split at h
    · cases h
    · rename_i list'' hin
      rcases ih h with hmem | hitem
      · unfold insertJsonValue at hin
        split at hin
        · cases hin
          exact .inl hmem
        · split at hin
          · rename_i hle
            cases hin
            exact ((List.mem_insertIdx hle).mp hmem).elim (fun e => .inr ⟨v, e⟩) .inl
          · cases hin
      · exact .inr hitem

theorem insertItems_append (h : ∀ v ∈ items, v ≠ .null) (list : List Node) :
    insertItems toText list list.length items = .ok (list ++ items.map (itemNode toText)) := by
  induction items generalizing list with
  | nil => simp [insertItems]
  | cons v items ih =>
    obtain ⟨hv, hitems⟩ := List.forall_mem_cons.mp h
    have hin : insertJsonValue toText list list.length v = .ok (list ++ [itemNode toText v]) := by
      unfold insertJsonValue
      split
      · exact absurd rfl hv
      · rw [if_pos (Nat.le_refl _), List.insertIdx_length_self]
    have hrest := ih hitems (list ++ [itemNode toText v])
    rw [List.length_append, List.length_singleton] at hrest
    rw [insertItems, hin]
    dsimp only
    rw [hrest, List.append_assoc, List.map_cons, List.singleton_append]

theorem map_eq_self_iff {f : Value → Value} : items.map f = items ↔ ∀ v ∈ items, f v = v := by
  nth_rewrite 2 [← List.map_id items]
  exact List.map_inj_left

theorem keptScalar_ne_null (h : KeptScalar v) : v ≠ .null := by
  rintro rfl
  exact h

theorem array_readsBack_iff (hwf : ∀ v ∈ items, Storage.WellFormed v) :
    (∃ list, insertItems toText [] 0 items = .ok list ∧ itemsToJson list = items) ↔
      ∀ v ∈ items, KeptScalar v := by
  constructor
  · intro ⟨list, hlist, hread⟩
    -- what is read from the list are items, and an item is never read as null
    have hne : ∀ v ∈ items, v ≠ .null := by
      intro v hv
      rw [← hread, itemsToJson_eq] at hv
      obtain ⟨n, hn, rfl⟩ := List.mem_map.mp hv
      obtain ⟨w, rfl⟩ := (mem_of_insertItems hlist hn).resolve_left List.not_mem_nil
      exact itemNode_toJson_ne_null w
    have hall : insertItems toText [] 0 items = _ := insertItems_append hne []
    rw [hlist] at hall
    cases hall
    rw [itemsToJson_eq, List.nil_append, List.map_map, map_eq_self_iff] at hread
    exact fun v hv => (itemNode_toJson_iff (hwf v hv)).mp (hread v hv)
  · intro h
    refine ⟨_, insertItems_append (fun v hv => keptScalar_ne_null (h v hv)) [], ?_⟩
    rw [itemsToJson_eq, List.nil_append, List.map_map, map_eq_self_iff]
    exact fun v hv => (itemNode_toJson_iff (hwf v hv)).mpr (h v hv)

/-! ## 4. Objects and documents -/

def Puts (toText : Value → String) (kv : String × Value) (e : String × Node) : Prop :=
  e.1 = kv.1 ∧ nodeOf toText kv.2 = .ok (some e.2)

theorem nodeOf_ne_none (h : v ≠ .null) : nodeOf toText v ≠ .ok none := by
  cases v with
  | null => exact absurd rfl h
  | array items =>
    rw [nodeOf]
    cases insertItems toText [] 0 items <;> nofun
  | object members =>
    rw [nodeOf]
    cases putMembers toText [] members <;> nofun
  | _ => nofun

theorem putMembers_ok_iff (h : ∀ kv ∈ members, kv.2 ≠ .null) :
    putMembers toText obj members = .ok root ↔
      ∃ entries, List.Forall₂ (Puts toText) members entries ∧ putAll obj entries = root := by
  induction members generalizing obj with
  | nil => simp [putMembers, putAll]
  | cons kv members ih =>
    obtain ⟨hv, hmembers⟩ := List.forall_mem_cons.mp h
    rw [putMembers]
    constructor
    · intro h
      split at h
      · cases h
      · exact absurd ‹_› (nodeOf_ne_none hv)
      · obtain ⟨entries, hputs, rfl⟩ := (ih hmembers).mp h
        exact ⟨(kv.1, _) :: entries, .cons ⟨rfl, ‹_›⟩ hputs, rfl⟩
    · rintro ⟨_, hputs, rfl⟩
      obtain ⟨e, entries, hput, hrest, rfl⟩ := List.forall₂_cons_left_iff.mp hputs
      rw [hput.2]
      dsimp only
      rw [← hput.1]
      exact (ih hmembers).mpr ⟨entries, hrest, rfl⟩

theorem keys_of_puts (h : List.Forall₂ (Puts toText) members entries) :
    entries.map Prod.fst = members.map Prod.fst := by
  induction h with
  | nil => rfl
  | cons hput _ ih => rw [List.map_cons, List.map_cons, hput.1, ih]

theorem exists_put (h : List.Forall₂ (Puts toText) members entries) {kv : String × Value}
    (hkv : kv ∈ members) : ∃ e ∈ entries, Puts toText kv e := by
  induction h with
  | nil => cases hkv
  | cons hput _ ih =>
    rcases List.mem_cons.mp hkv with rfl | hkv
    · exact ⟨_, List.mem_cons_self, hput⟩
    · obtain ⟨e, he, hput⟩ := ih hkv
      exact ⟨e, List.mem_cons_of_mem _ he, hput⟩

theorem exists_entries (h : ∀ kv ∈ members, ReadsBack toText kv.2) :
    ∃ entries, List.Forall₂ (Puts toText) members entries ∧ membersToJson entries = members := by
  induction members with
  | nil => exact ⟨[], .nil, rfl⟩
  | cons kv members ih =>
    obtain ⟨⟨n, hn, hread⟩, hmembers⟩ := List.forall_mem_cons.mp h
    obtain ⟨entries, hputs, hentries⟩ := ih hmembers
    refine ⟨(kv.1, n) :: entries, .cons ⟨rfl, hn⟩ hputs, ?_⟩
    rw [membersToJson, hread, hentries]

theorem toJson_ne_null {n : Node} (h : nodeOf toText v = .ok (some n)) : n.toJson ≠ .null := by
  cases v with
  | null => cases h
  | array items =>
    rw [nodeOf] at h
    generalize insertItems toText [] 0 items = inserted at h
    cases inserted <;> cases h
    nofun
  | object members =>
    rw [nodeOf] at h
    generalize putMembers toText [] members = put at h
    cases put <;> cases h
    nofun
  | number n =>
    cases h
    exact @itemNode_toJson_ne_null toText (.number n)
  | bool b =>
    cases h
    nofun
  | string s =>
    cases h
    nofun

theorem mem_of_putMembers (h : putMembers toText obj members = .ok root) {e : String × Node}
    (he : e ∈ root) : e ∈ obj ∨ ∃ v, nodeOf toText v = .ok (some e.2) := by
  induction members generalizing obj with
  | nil =>
    cases h
    exact .inl he
  | cons kv members ih =>
    rw [putMembers] at h
    split at h
    · cases h
    · exact ih h
    · rename_i n hn
      rcases ih h with hmem | hnode
      · rcases mem_of_mem_put hmem with rfl | hobj
        · exact .inr ⟨_, hn⟩
        · exact .inl hobj
      · exact .inr hnode

theorem members_readBack_iff (hkeys : members.Pairwise fun a b => a.1 ≠ b.1) :
    (∃ root, putMembers toText [] members = .ok root ∧ ∀ e, e ∈ membersToJson root ↔ e ∈ members) ↔
      ∀ kv ∈ members, ReadsBack toText kv.2 := by
  have hroot : ∀ {entries}, List.Forall₂ (Puts toText) members entries →
      ∀ e, e ∈ membersToJson (putAll [] entries) ↔ e ∈ membersToJson entries := by
    intro entries hputs e
    have hne : entries.Pairwise fun a b => a.1 ≠ b.1 := by
      rw [← List.pairwise_map (R := (· ≠ ·)), keys_of_puts hputs]
      exact List.pairwise_map.mpr hkeys
    have hmem : ∀ e, e ∈ putAll [] entries ↔ e ∈ entries := by
      intro e
      rw [mem_putAll_iff List.Pairwise.nil hne]
      simp
    simp only [membersToJson_eq, List.mem_map, hmem]
  constructor
  · intro ⟨root, hput, hread⟩ kv hkv
    have hne : ∀ kv ∈ members, kv.2 ≠ .null := by
      intro kv hkv
      rw [← hread, membersToJson_eq] at hkv
      obtain ⟨e, he, rfl⟩ := List.mem_map.mp hkv
      obtain ⟨v, hv⟩ := (mem_of_putMembers hput he).resolve_left List.not_mem_nil
      exact toJson_ne_null hv
    obtain ⟨entries, hputs, rfl⟩ := (putMembers_ok_iff hne).mp hput
    obtain ⟨e, he, hkey, hnode⟩ := exists_put hputs hkv
    refine ⟨e.2, hnode, ?_⟩
    have hmem : (kv.1, e.2.toJson) ∈ members := by
      rw [← hread, hroot hputs, membersToJson_eq, ← hkey]
      exact List.mem_map_of_mem he
    -- two members with one key are the same
    by_contra hne
    have : Std.Symm fun a b : String × Value => a.1 ≠ b.1 := ⟨fun _ _ => Ne.symm⟩
    exact hkeys.forall hmem hkv (fun e => hne (congrArg Prod.snd e)) rfl
  · intro hall
    obtain ⟨entries, hputs, hread⟩ := exists_entries hall
    have hne : ∀ kv ∈ members, kv.2 ≠ .null := by
      intro kv hkv hnull
      obtain ⟨n, hn, hread⟩ := hall kv hkv
      exact toJson_ne_null hn (hread.trans hnull)
    refine ⟨_, (putMembers_ok_iff hne).mpr ⟨entries, hputs, rfl⟩, fun e => ?_⟩
    rw [hroot hputs, hread]

theorem sortedKeys_membersToJson (h : SortedKeys root) : SortedKeys (membersToJson root) := by
  rw [membersToJson_eq]
  exact List.pairwise_map.mpr h

theorem sortedKeys_putMembers (h : putMembers toText obj members = .ok root) (hobj : SortedKeys obj) :
    SortedKeys root := by
  induction members generalizing obj with
  | nil =>
    cases h
    exact hobj
  | cons kv members ih =>
    rw [putMembers] at h
    split at h
    · cases h
    · exact ih h hobj
    · exact ih h (hobj.put _ _)

theorem noNullMembers_object (h : Storage.NoNullMembers (.object members)) :
    ∀ kv ∈ members, Storage.NoNullMembers kv.2 := by
  have hdrop : Storage.dropNullsMembers members = members := Value.object.inj h
  have hkeys := Storage.keys_dropNullsMembers members
  have hlen := congrArg List.length hkeys
  rw [hdrop, List.length_map, List.length_map, eq_comm, List.length_filter_eq_length_iff] at hlen
  have hne : ∀ kv ∈ members, kv.2 ≠ .null := fun kv hkv => by simpa using hlen kv hkv
  clear h hkeys hlen
  induction members with
  | nil => nofun
  | cons kv members ih =>
    obtain ⟨hv, hrest⟩ := List.forall_mem_cons.mp hne
    obtain ⟨key, v⟩ := kv
    rw [Storage.dropNullsMembers_cons hv] at hdrop
    obtain ⟨hfirst, htail⟩ := List.cons.inj hdrop
    exact List.forall_mem_cons.mpr ⟨(Prod.mk.inj hfirst).2, ih htail hrest⟩

theorem kept_object_iff : Kept (.object members) ↔ ∀ kv ∈ members, Kept kv.2 := by
  refine ⟨fun h => ?_, .object⟩
  cases h with
  | scalar h => exact h.elim
  | object h => exact h

theorem kept_array_iff : Kept (.array items) ↔ ∀ v ∈ items, KeptScalar v := by
  refine ⟨fun h => ?_, .array⟩
  cases h with
  | scalar h => exact h.elim
  | array h => exact h

theorem array_readsBack : ReadsBack toText (.array items) ↔
    ∃ list, insertItems toText [] 0 items = .ok list ∧ itemsToJson list = items := by
  rw [ReadsBack, nodeOf]
  cases insertItems toText [] 0 items <;> simp [Except.map, Node.toJson]

theorem object_readsBack : ReadsBack toText (.object members) ↔
    ∃ root, putMembers toText [] members = .ok root ∧ membersToJson root = members := by
  rw [ReadsBack, nodeOf]
  cases putMembers toText [] members <;> simp [Except.map, Node.toJson]

theorem readsBack_iff (hwf : Storage.WellFormed v) (hnull : Storage.NoNullMembers v) :
    ReadsBack toText v ↔ Kept v := by
  induction v using Storage.value_induction with
  | null =>
    refine iff_of_false (fun ⟨n, hn, _⟩ => nomatch hn) fun h => ?_
    cases h with
    | scalar h => exact h
  | bool b => exact iff_of_true ⟨_, rfl, rfl⟩ (.scalar trivial)
  | string s => exact iff_of_true ⟨_, rfl, rfl⟩ (.scalar trivial)
  | number n =>
    have hkept : Kept (.number n) ↔ KeptScalar (.number n) := by
      refine ⟨fun h => ?_, .scalar⟩
      cases h with
      | scalar h => exact h
    rw [hkept, ← scalarOf_toJson_iff hwf]
    simp [ReadsBack, nodeOf, scalarOf, Node.toJson]
  | array items _ =>
    cases hwf with
    | array _ hitems => rw [array_readsBack, array_readsBack_iff hitems, kept_array_iff]
  | object members ih =>
    cases hwf with
    | object _ hsorted hmembers =>
      have hread : (∀ kv ∈ members, ReadsBack toText kv.2) ↔ ∀ kv ∈ members, Kept kv.2 :=
        forall₂_congr fun kv hkv => ih kv hkv (hmembers kv hkv) (noNullMembers_object hnull kv hkv)
      rw [object_readsBack, kept_object_iff, ← hread, ← members_readBack_iff (hsorted.imp ne_of_lt)]
      refine exists_congr fun root => and_congr_right fun hroot => ?_
      constructor
      · rintro h e
        rw [h]
      · -- both sides are sorted
        have hs := sortedKeys_membersToJson (sortedKeys_putMembers hroot List.Pairwise.nil)
        exact fun h => hs.ext hsorted h

/-! ## 5. A document is written and read -/

variable {docs : StoredDocuments} {collection docId : String} {fields : Fields}

theorem mem_pairs_iff {kv : String × Value} : kv ∈ pairs fields ↔ fields.lookup kv.1 = some kv.2 := by
  rw [lookup_eq_some_iff, pairs, List.mem_map]
  constructor
  · rintro ⟨e, he, rfl⟩
    exact he
  · exact fun h => ⟨⟨kv.1, kv.2⟩, h, rfl⟩

theorem pairs_keys (fields : Fields) : (pairs fields).Pairwise fun a b => a.1 ≠ b.1 :=
  List.pairwise_map.mpr (List.pairwise_map.mp fields.nodupKeys)

theorem lookup_automergeToFields (h : SortedKeys root) (doc : HashMap String Node) {key : String}
    {v : Value} : (automergeToFields (doc.insert "root" (.map root))).lookup key = some v ↔
      (key, v) ∈ membersToJson root := by
  have hdistinct : ((membersToJson root).map fun e => (⟨e.1, e.2⟩ : Σ _ : String, Value)).NodupKeys :=
    List.pairwise_map.mpr (List.pairwise_map.mpr ((sortedKeys_membersToJson h).imp ne_of_lt))
  rw [automergeToFields, AList.lookup_insert]
  dsimp only
  rw [AList.lookup_to_alist]
  refine (List.mem_dlookup_iff hdistinct).trans ?_
  rw [List.mem_map]
  constructor
  · rintro ⟨e, he, heq⟩
    cases heq
    exact he
  · exact fun h => ⟨(key, v), h, rfl⟩

theorem upsertFields_ok_iff {docs' : StoredDocuments} :
    upsertFields toText docs collection docId fields = .ok docs' ↔
      ∃ root, putMembers toText [] (pairs fields) = .ok root ∧
        docs.insert (docKey collection docId)
          (((docs.lookup (docKey collection docId)).getD ∅).insert "root" (.map root)) = docs' := by
  unfold upsertFields applyDocumentToAutomerge
  cases putMembers toText [] (pairs fields) with
  | error e =>
    cases e
    simp [Except.map]
  | ok root => simp [Except.map]

/-- **Which fields survive a write and a read**: where every value is kept, and for no other. -/
theorem upsert_get_iff (toText : Value → String) (docs : StoredDocuments) (collection docId : String)
    (fields : Fields) (h : ∀ key v, fields.lookup key = some v →
      Storage.WellFormed v ∧ Storage.NoNullMembers v) :
    (∃ docs', upsertFields toText docs collection docId fields = .ok docs' ∧
        ∃ found, getFields docs' collection docId = some found ∧
          ∀ key, found.lookup key = fields.lookup key) ↔
      ∀ key v, fields.lookup key = some v → Kept v := by
  have hread : (∀ kv ∈ pairs fields, ReadsBack toText kv.2) ↔
      ∀ key v, fields.lookup key = some v → Kept v := by
    simp only [Prod.forall, mem_pairs_iff]
    exact forall₃_congr fun key v hv => readsBack_iff (h key v hv).1 (h key v hv).2
  rw [← hread, ← members_readBack_iff (pairs_keys fields)]
  constructor
  · rintro ⟨docs', hup, found, hget, hsame⟩
    obtain ⟨root, hroot, rfl⟩ := upsertFields_ok_iff.mp hup
    rw [getFields, AList.lookup_insert] at hget
    cases hget
    refine ⟨root, hroot, fun e => ?_⟩
    rw [mem_pairs_iff, ← hsame,
      lookup_automergeToFields (sortedKeys_putMembers hroot List.Pairwise.nil)]
  · rintro ⟨root, hroot, hmem⟩
    refine ⟨_, upsertFields_ok_iff.mpr ⟨root, hroot, rfl⟩, ?_⟩
    rw [getFields, AList.lookup_insert]
    refine ⟨_, rfl, fun key => Option.ext fun v => ?_⟩
    rw [lookup_automergeToFields (sortedKeys_putMembers hroot List.Pairwise.nil), hmem, mem_pairs_iff]

/-- An integer, an array and an object. -/
def unitFields : Fields :=
  ⟨[⟨"level", .number (.posInt 3)⟩, ⟨"tags", .array [.string "a", .number (.posInt 2)]⟩,
    ⟨"unit", .object [("role", .string "medic")]⟩], (by decide : ["level", "tags", "unit"].Nodup)⟩

/-- Fields over an earlier document of the same id. -/
theorem upsert_get_role :
    let docs : StoredDocuments := AList.singleton (docKey "nodes" "n1")
      (AList.singleton "root" (.map [("role", .scalar (.str "scout"))]))
    ∃ docs', upsertFields (fun _ => "") docs "nodes" "n1" unitFields = .ok docs' ∧
      ∃ found, getFields docs' "nodes" "n1" = some found ∧
        ∀ key, found.lookup key = unitFields.lookup key := by
  have hvalue : ∀ key v, unitFields.lookup key = some v → v = .number (.posInt 3) ∨
      v = .array [.string "a", .number (.posInt 2)] ∨ v = .object [("role", .string "medic")] := by
    intro key v hv
    have hmem := lookup_eq_some_iff.mp hv
    simp only [unitFields, List.mem_cons, List.not_mem_nil, or_false, Sigma.mk.injEq, heq_eq_eq] at hmem
    exact hmem.imp And.right (Or.imp And.right And.right)
  refine (upsert_get_iff _ _ _ _ _ fun key v hv => ?_).mpr fun key v hv => ?_
  · rcases hvalue key v hv with rfl | rfl | rfl
    · exact ⟨.number _ trivial, rfl⟩
    · refine ⟨.array _ ?_, rfl⟩
      simp only [List.forall_mem_cons]
      exact ⟨.string _, .number _ trivial, nofun⟩
    · exact ⟨Storage.wellFormed_single "role" (.string _), rfl⟩
  · rcases hvalue key v hv with rfl | rfl | rfl
    · exact .scalar (.posInt 3 (by decide))
    · refine .array ?_
      simp only [List.forall_mem_cons]
      exact ⟨trivial, .posInt 2 (by decide), nofun⟩
    · exact .object (List.forall_mem_singleton.mpr (.scalar trivial))

/-- After a null in an array the next item has no place, and the write fails. -/
theorem null_item_fails :
    upsertFields (fun _ => "") ∅ "nodes" "n1" (AList.singleton "tags" (.array [.null, .string "a"])) =
      .error (.internal "Transaction failed: InvalidIndex(1)") := rfl

end Peat.Sync
