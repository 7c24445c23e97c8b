/-
  MESSAGES WRITTEN OVER OLDER DOCUMENTS: `message_to_automerge_into` and
  `automerge_to_message` of storage/automerge_conversion.rs.

  A message type is a codec. `Automerge` carries what the documents of this module
  satisfy: the root is sorted, and nothing in it reads back as null.
-/
import Peat.Storage.AutomergeConversion

namespace Peat.Storage

open Peat.Lib Peat.Sync

/-! ## 1. Over an older document -/

variable {obj entries root : List (String × Node)} {members : List (String × Value)}

/-- A member of the object that is not null. -/
def SetIn (members : List (String × Value)) (key : String) : Prop := ∃ v, (key, v) ∈ members ∧ v ≠ .null

theorem setIn_iff (h : memberNodes members = .ok entries) {key : String} :
    SetIn members key ↔ ∃ e ∈ entries, e.1 = key := by
  rw [SetIn, ← mem_keys_dropNullsMembers, ← keys_memberNodes h, List.mem_map]

theorem reads_upsert {known : String → Bool} (hobj : SortedKeys obj) (hwf : WellFormed (.object members))
    (hstorable : ∀ kv ∈ members, Storable kv.2)
    (hcovered : ∀ e ∈ obj, known e.1 = true → SetIn members e.1) :
    ∃ root, populateMembers obj members = .ok root ∧
      (∀ e ∈ root, known e.1 = true → SetIn members e.1) ∧
      (extractMembers root).filter (fun kv => known kv.1) =
        (dropNullsMembers members).filter fun kv => known kv.1 := by
  obtain ⟨hsorted, hmembers⟩ : SortedKeys members ∧ ∀ kv ∈ members, WellFormed kv.2 := by
    cases hwf with
    | object _ hsorted hmembers => exact ⟨hsorted, hmembers⟩
  obtain ⟨entries, hm, hextract⟩ :=
    (memberNodes_read_iff fun kv hkv => reads_iff (hmembers kv hkv)).mpr hstorable
  refine ⟨_, populateMembers_ok_iff.mpr ⟨entries, hm, rfl⟩, fun e he hknown => ?_, ?_⟩
  · rcases mem_of_mem_putAll he with hnew | hold
    · exact (setIn_iff hm).mpr ⟨e, hnew, rfl⟩
    · exact hcovered e hold hknown
  · have hput := filter_putAll hobj (sortedKeys_memberNodes hm hsorted) known
      fun e he hknown => (setIn_iff hm).mp (hcovered e he hknown)
    rw [← hextract, extractMembers_eq, extractMembers_eq, List.filter_map, List.filter_map]
    exact congrArg (List.map _) hput

/-! ## 2. Nothing reads back as null -/

theorem exists_of_mem_memberNodes (h : memberNodes members = .ok entries) {e : String × Node}
    (he : e ∈ entries) : ∃ kv ∈ members, memberNode kv.2 = .ok (some e.2) := by
  induction members generalizing entries with
  | nil =>
    cases h
    cases he
  | cons kv members ih =>
    have hrest : ∀ {rest}, memberNodes members = .ok rest → e ∈ rest →
        ∃ kv' ∈ kv :: members, memberNode kv'.2 = .ok (some e.2) := by
      intro rest hm hin
      obtain ⟨kv', hkv', hnode⟩ := ih hm hin
      exact ⟨kv', List.mem_cons_of_mem _ hkv', hnode⟩
    obtain ⟨key, v⟩ := kv
    by_cases hv : v = .null
    · subst hv
      exact hrest h he
    · obtain ⟨n, rest, hn, hm, rfl⟩ := (memberNodes_cons_ok_iff hv).mp h
      rcases List.mem_cons.mp he with rfl | hin
      · exact ⟨_, List.mem_cons_self, hn⟩
      · exact hrest hm hin

theorem memberNode_ne_null {v : Value} {n : Node} (h : memberNode v = .ok (some n)) :
    extractToJson n ≠ .null := by
  cases v with
  | null => cases h
  | bool b | string s =>
    cases h
    nofun
  | number i =>
    cases h
    show (numberScalar i).toJson ≠ .null
    unfold numberScalar
    split
    · nofun
    · split <;> nofun
  | array items =>
    obtain ⟨nodes, -, rfl⟩ := memberNode_array_ok_iff.mp h
    nofun
  | object members =>
    obtain ⟨entries, -, rfl⟩ := memberNode_object_ok_iff.mp h
    nofun

/-! ## 3. Messages -/

/-- A document of which every root value reads back. -/
structure Automerge where
  root : List (String × Node)
  sorted : SortedKeys root
  read : ∀ e ∈ root, extractToJson e.2 ≠ .null

def Automerge.new : Automerge := ⟨[], List.Pairwise.nil, nofun⟩

/-- A message type with its `Serialize` and `DeserializeOwned`: of an object it reads the members under
    its own keys. -/
structure Codec (M : Type*) where
  toJson : M → Value
  fromJson : Value → Except String M
  known : String → Bool
  wellFormed : ∀ m, WellFormed (toJson m)
  ignores : ∀ members,
    fromJson (.object (members.filter fun kv => known kv.1)) = fromJson (.object members)

section Codecs

variable {M : Type*} (c : Codec M)

/-- The message has a member of that key which is not null. -/
def Codec.Sets (m : M) (key : String) : Prop := ∃ members, c.toJson m = .object members ∧ SetIn members key

/-- The message survives its own JSON (one with a float that is not finite does not), and the JSON is an
    object whose members can be stored. -/
def Codec.Representable (m : M) : Prop :=
  c.fromJson (dropNulls (c.toJson m)) = .ok m ∧
    ∃ members, c.toJson m = .object members ∧ ∀ kv ∈ members, Storable kv.2

/-- A message that is read from an object where the key is set has it set (an `Option` of a text or of a
    message). -/
def Codec.Optional (key : String) : Prop :=
  ∀ members m, c.fromJson (.object members) = .ok m → SetIn members key → c.Sets m key

end Codecs

def AutomergeError.debug : AutomergeError → String
  | .invalidIndex index => "InvalidIndex(" ++ toString index ++ ")"

theorem populateFromJson_entries {json : Value} (h : populateFromJson obj json = .ok root) :
    ∃ members entries, memberNodes members = .ok entries ∧ root = putAll obj entries := by
  cases json with
  | object members =>
    obtain ⟨entries, hm, hroot⟩ := populateMembers_ok_iff.mp h
    exact ⟨members, entries, hm, hroot.symm⟩
  | null | bool b | number n | string s | array items =>
    cases h
    exact ⟨[], [], rfl, rfl⟩

theorem mem_populateFromJson {json : Value} (h : populateFromJson obj json = .ok root)
    (hobj : SortedKeys obj) (hwf : WellFormed json) {e : String × Node} (he : e ∈ obj) :
    e ∈ root ∨ ∃ members, json = .object members ∧ SetIn members e.1 := by
  cases hwf with
  | object members hsorted _ =>
    obtain ⟨entries, hm, rfl⟩ := populateMembers_ok_iff.mp h
    rw [mem_putAll_iff hobj ((sortedKeys_memberNodes hm hsorted).imp ne_of_lt)]
    by_cases hnew : ∃ e' ∈ entries, e'.1 = e.1
    · exact .inr ⟨members, rfl, (setIn_iff hm).mpr hnew⟩
    · exact .inl (.inr ⟨he, fun e' he' hkey => hnew ⟨e', he', hkey⟩⟩)
  | null | bool b | number n | string s | array items _ =>
    cases h
    exact .inl he

theorem sortedKeys_populateFromJson {json : Value} (h : populateFromJson obj json = .ok root)
    (hobj : SortedKeys obj) : SortedKeys root := by
  obtain ⟨-, entries, -, rfl⟩ := populateFromJson_entries h
  exact hobj.putAll entries

theorem populateFromJson_ne_null {json : Value} (h : populateFromJson obj json = .ok root)
    (hobj : ∀ e ∈ obj, extractToJson e.2 ≠ .null) : ∀ e ∈ root, extractToJson e.2 ≠ .null := by
  obtain ⟨members, entries, hm, rfl⟩ := populateFromJson_entries h
  intro e he
  rcases mem_of_mem_putAll he with hnew | hold
  · obtain ⟨kv, -, hnode⟩ := exists_of_mem_memberNodes hm hnew
    exact memberNode_ne_null hnode
  · exact hobj e hold

variable {M : Type*}

def messageToAutomergeInto (c : Codec M) (message : M) (existing : Option Automerge) :
    Except String Automerge :=
  let doc := existing.getD Automerge.new
  match h : populateFromJson doc.root (c.toJson message) with
  | .error e => .error ("Failed to populate Automerge document: " ++ e.debug)
  | .ok root =>
    .ok ⟨root, sortedKeys_populateFromJson h doc.sorted, populateFromJson_ne_null h doc.read⟩

def messageToAutomerge (c : Codec M) (message : M) : Except String Automerge :=
  messageToAutomergeInto c message none

def automergeToMessage (c : Codec M) (doc : Automerge) : Except String M :=
  match c.fromJson (.object (extractMembers doc.root)) with
  | .error e => .error ("Failed to deserialize JSON to message: " ++ e)
  | .ok message => .ok message

theorem messageToAutomergeInto_ok_iff {c : Codec M} {m : M} {prev doc : Automerge} :
    messageToAutomergeInto c m (some prev) = .ok doc ↔
      populateFromJson prev.root (c.toJson m) = .ok doc.root := by
  unfold messageToAutomergeInto
  dsimp only [Option.getD_some]
  split
  · rename_i e he
    rw [he]
    exact iff_of_false nofun nofun
  · rename_i root hroot
    constructor
    · intro h
      cases h
      exact hroot
    · intro h
      obtain ⟨root', hsorted, hread⟩ := doc
      cases Except.ok.inj (hroot.symm.trans h)
      rfl

theorem automergeToMessage_ok_iff {c : Codec M} {m : M} {doc : Automerge} :
    automergeToMessage c doc = .ok m ↔ c.fromJson (.object (extractMembers doc.root)) = .ok m := by
  unfold automergeToMessage
  split
  · rename_i e he
    rw [he]
    exact iff_of_false nofun nofun
  · rename_i m' hm
    rw [hm]

/-- The document is read as the message, and sets of the keys of its type only those that the message
    sets. -/
structure Codec.Written (c : Codec M) (doc : Automerge) (m : M) : Prop where
  reads : automergeToMessage c doc = .ok m
  sets : ∀ e ∈ doc.root, c.known e.1 = true → c.Sets m e.1

/-- The message can be represented, and sets every key of its type that is in the old document. -/
def Upsertable (c : Codec M) (m : M) (prev : Automerge) : Prop :=
  c.Representable m ∧ ∀ e ∈ prev.root, c.known e.1 = true → c.Sets m e.1

theorem Upsertable.written {c : Codec M} {m : M} {prev : Automerge} (h : Upsertable c m prev) :
    ∃ doc, messageToAutomergeInto c m (some prev) = .ok doc ∧ c.Written doc m := by
  obtain ⟨⟨hfaithful, members, hjson, hstorable⟩, hcovered⟩ := h
  have hwf := c.wellFormed m
  rw [hjson] at hwf hfaithful
  have hsets : ∀ {key}, SetIn members key ↔ c.Sets m key := by
    intro key
    rw [Codec.Sets, hjson]
    exact ⟨fun hset => ⟨members, rfl, hset⟩, fun ⟨_, hsame, hset⟩ => Value.object.inj hsame ▸ hset⟩
  obtain ⟨root, hroot, hsame, hextract⟩ := reads_upsert prev.sorted hwf hstorable
    fun e he hknown => hsets.mpr (hcovered e he hknown)
  have hpopulate : populateFromJson prev.root (.object members) = .ok root := hroot
  refine ⟨⟨root, sortedKeys_populateFromJson hpopulate prev.sorted,
    populateFromJson_ne_null hpopulate prev.read⟩, ?_, ?_, ?_⟩
  · rw [messageToAutomergeInto_ok_iff, hjson]
    exact hpopulate
  · rw [automergeToMessage_ok_iff, ← c.ignores, hextract, c.ignores]
    exact hfaithful
  · exact fun e he hknown => hsets.mp (hsame e he hknown)

/-- The message is written over the earlier document and read back. -/
def ReadsBack (c : Codec M) (m : M) (prev : Automerge) : Prop :=
  ∃ doc, messageToAutomergeInto c m (some prev) = .ok doc ∧ automergeToMessage c doc = .ok m

/-- **The upsert law**: a message written over an older document reads back where it can be represented and
    sets every key of its type that is in the old document; an optional field of the old document that
    it does not set is never read back as absent. -/
theorem upsert_reads_back (c : Codec M) (m : M) (prev : Automerge) :
    (Upsertable c m prev → ReadsBack c m prev) ∧
      (ReadsBack c m prev → ∀ e ∈ prev.root, c.Optional e.1 → c.Sets m e.1) := by
  constructor
  · intro h
    obtain ⟨doc, hdoc, hwritten⟩ := h.written
    exact ⟨doc, hdoc, hwritten.reads⟩
  · rintro ⟨doc, hdoc, hread⟩ e he hoptional
    rw [messageToAutomergeInto_ok_iff] at hdoc
    rcases mem_populateFromJson hdoc prev.sorted (c.wellFormed m) he with hkept | hset
    · -- what is left of the old document is read as a field of the message
      refine hoptional _ m (automergeToMessage_ok_iff.mp hread) ⟨extractToJson e.2, ?_, doc.read e hkept⟩
      rw [extractMembers_eq]
      exact List.mem_map_of_mem hkept
    · exact hset

def readOptionalField : List (String × Value) → Except String (Option String)
  | [] => .ok none
  | [(_, .null)] => .ok none
  | [(_, .string s)] => .ok (some s)
  | _ => .error "invalid type"

/-- A message with one optional text. -/
def optionalField : Codec (Option String) where
  toJson leader := .object [("leader_id", leader.elim .null .string)]
  fromJson
    | .object members => readOptionalField (members.filter fun kv => kv.1 == "leader_id")
    | _ => .error "invalid type"
  known key := key == "leader_id"
  wellFormed := by
    rintro (_ | s)
    · exact wellFormed_single _ .null
    · exact wellFormed_single _ (.string s)
  ignores members := by simp

theorem optional_leaderId : optionalField.Optional "leader_id" := by
  rintro members m hread ⟨v, hv, hne⟩
  have hin : ("leader_id", v) ∈ members.filter fun kv => kv.1 == "leader_id" := by simp [hv]
  have hread : readOptionalField (members.filter fun kv => kv.1 == "leader_id") = .ok m := hread
  unfold readOptionalField at hread
  split at hread
  · rename_i hnone
    rw [hnone] at hin
    cases hin
  · rename_i hnull
    rw [hnull] at hin
    exact absurd (Prod.mk.inj (List.mem_singleton.mp hin)).2 hne
  · cases hread
    exact ⟨_, rfl, _, List.mem_cons_self, nofun⟩
  · cases hread

/-- A field that is set again reads back, and one that is taken away does not. -/
theorem upsert_reads_back_optionalField :
    ∃ prev, messageToAutomerge optionalField (some "node-1") = .ok prev ∧
      ReadsBack optionalField (some "node-2") prev ∧ ¬ ReadsBack optionalField none prev := by
  have hkey : ∀ prev, messageToAutomerge optionalField (some "node-1") = .ok prev →
      prev.root = [("leader_id", .scalar (.str "node-1"))] := by
    intro prev hprev
    cases hprev
    rfl
  obtain ⟨prev, hprev⟩ : ∃ prev, messageToAutomerge optionalField (some "node-1") = .ok prev := ⟨_, rfl⟩
  refine ⟨prev, hprev, (upsert_reads_back optionalField (some "node-2") prev).1 ⟨⟨rfl, _, rfl, ?_⟩, ?_⟩,
    fun hread => ?_⟩
  · intro kv hkv
    rw [List.mem_singleton.mp hkv]
    exact .string "node-2"
  · intro e he _
    rw [hkey prev hprev] at he
    rw [List.mem_singleton.mp he]
    exact ⟨_, rfl, _, List.mem_cons_self, nofun⟩
  · obtain ⟨members, hjson, v, hv, hne⟩ := (upsert_reads_back optionalField none prev).2 hread
      ("leader_id", .scalar (.str "node-1")) (by rw [hkey prev hprev]; exact List.mem_cons_self)
      optional_leaderId
    cases hjson
    exact hne (Prod.mk.inj (List.mem_singleton.mp hv)).2

/-- A field that the new message does not have keeps its old value. -/
theorem absent_field_keeps_value :
    ∃ prev, messageToAutomerge optionalField (some "node-1") = .ok prev ∧
      ¬ ReadsBack optionalField none prev ∧
      ∃ doc, messageToAutomergeInto optionalField none (some prev) = .ok doc ∧
        automergeToMessage optionalField doc = .ok (some "node-1") := by
  have hread : ∀ prev doc, messageToAutomerge optionalField (some "node-1") = .ok prev →
      messageToAutomergeInto optionalField none (some prev) = .ok doc →
      automergeToMessage optionalField doc = .ok (some "node-1") := by
    intro prev doc hprev hdoc
    cases hprev
    cases hdoc
    rfl
  refine ⟨_, rfl, ?_, _, rfl, rfl⟩
  rintro ⟨doc, hdoc, hnone⟩
  have hsome := hread _ doc rfl hdoc
  rw [hsome] at hnone
  cases hnone

end Peat.Storage
