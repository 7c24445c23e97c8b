/-
  THE KEY-VALUE DOCUMENTS of peat-ffi/src/crdt_kv.rs: one Automerge document for every
  named collection, kept in memory and in a file, and read as the text of a JSON object.

  Automerge is a parameter (`AutomergeMaps`), and so are the alphanumeric characters. A
  file reads back what was last written to it.
-/
import Mathlib.Data.String.Basic
import Peat.Lib.HashMap
import Peat.Lib.JsonText
import Peat.Lib.OpSet
import Peat.Lib.Run

namespace Peat.Ffi

open Peat.Lib

/-! ## 1. The maps of Automerge -/

inductive KvValue where
  | str (text : String)
  | other
  deriving DecidableEq

/-- The root maps of Automerge documents. A `put` is made under the actor of the document; `getAll`
    are the values that conflict, `get` is the one that wins. A merge of documents that use no change id
    for two changes (`Related`) has the values of both, without those that the other one replaces or
    deletes (`Supersedes`). -/
structure AutomergeMaps (Actor Doc Bytes : Type) where
  new : Doc
  put : Doc → Actor → String → String → Doc
  merge : Doc → Doc → Doc
  keys : Doc → List String
  get : Doc → String → Option KvValue
  getAll : Doc → String → List KvValue
  save : Doc → Bytes
  load : Bytes → Option Doc
  load_save : ∀ d, load (save d) = some d
  nodup_keys : ∀ d, (keys d).Nodup
  mem_keys : ∀ d k, k ∈ keys d ↔ (get d k).isSome = true
  mem_getAll_of_get : ∀ d k v, get d k = some v → v ∈ getAll d k
  isSome_get_of_getAll : ∀ d k, getAll d k ≠ [] → (get d k).isSome = true
  getAll_new : ∀ k, getAll new k = []
  getAll_put_self : ∀ d a k v, getAll (put d a k v) k = [.str v]
  getAll_put_ne : ∀ d a k k' v, k' ≠ k → getAll (put d a k v) k' = getAll d k'
  mem_getAll_merge : ∀ d e k v, v ∈ getAll (merge d e) k → v ∈ getAll d k ∨ v ∈ getAll e k
  Related : Doc → Doc → Prop
  Supersedes : Doc → Doc → String → KvValue → Prop
  not_supersedes_new : ∀ d k v, ¬ Supersedes new d k v
  survives : ∀ d e k v, v ∈ getAll d k → v ∈ getAll (merge d e) k ∨ Supersedes e d k v
  arrives : ∀ d e k v, Related d e → v ∈ getAll e k → v ∈ getAll (merge d e) k ∨ Supersedes d e k v

theorem AutomergeMaps.get_put_self {Actor Doc Bytes : Type} (lib : AutomergeMaps Actor Doc Bytes)
    (d : Doc) (a : Actor) (k v : String) : lib.get (lib.put d a k v) k = some (.str v) := by
  have hall := lib.getAll_put_self d a k v
  obtain ⟨w, hw⟩ := Option.isSome_iff_exists.mp
    (lib.isSome_get_of_getAll _ k (by rw [hall]; exact List.cons_ne_nil _ _))
  have hmem := lib.mem_getAll_of_get _ _ _ hw
  rw [hall] at hmem
  rw [hw, List.mem_singleton.mp hmem]

theorem AutomergeMaps.get_new {Actor Doc Bytes : Type} (lib : AutomergeMaps Actor Doc Bytes)
    (k : String) : lib.get lib.new k = none := by
  refine Option.eq_none_iff_forall_not_mem.mpr fun v hv => ?_
  have hmem := lib.mem_getAll_of_get _ _ _ hv
  rw [lib.getAll_new] at hmem
  cases hmem

/-! ## 2. The manager -/

structure CrdtKvDocs (Doc Bytes : Type) where
  docs : HashMap String Doc
  files : HashMap String Bytes

namespace CrdtKvDocs

variable {Actor Doc Bytes : Type} (lib : AutomergeMaps Actor Doc Bytes)
  (isAlphanumeric : Char → Bool)

def safeChar (c : Char) : Char :=
  if isAlphanumeric c || c = '-' || c = '_' then c else '_'

def path (coll : String) : String :=
  "kv-" ++ String.ofList (coll.toList.map (safeChar isAlphanumeric)) ++ ".automerge"

def loadDoc (m : CrdtKvDocs Doc Bytes) (coll : String) : Doc :=
  ((m.files.lookup (path isAlphanumeric coll)).bind lib.load).getD lib.new

def docOf (m : CrdtKvDocs Doc Bytes) (coll : String) : Doc :=
  (m.docs.lookup coll).getD (m.loadDoc lib isAlphanumeric coll)

def withDoc {R : Type} (m : CrdtKvDocs Doc Bytes) (coll : String) (f : Doc → R) :
    CrdtKvDocs Doc Bytes × R :=
  let doc := m.docOf lib isAlphanumeric coll
  ({ m with docs := m.docs.insert coll doc }, f doc)

def persist (m : CrdtKvDocs Doc Bytes) (coll : String) (doc : Doc) : CrdtKvDocs Doc Bytes :=
  { m with files := m.files.insert (path isAlphanumeric coll) (lib.save doc) }

def store (m : CrdtKvDocs Doc Bytes) (coll : String) (doc : Doc) : CrdtKvDocs Doc Bytes :=
  persist lib isAlphanumeric { m with docs := m.docs.insert coll doc } coll doc

def put (m : CrdtKvDocs Doc Bytes) (coll : String) (actor : Actor) (key valueJson : String) :
    CrdtKvDocs Doc Bytes × Bytes :=
  let doc := lib.put (m.docOf lib isAlphanumeric coll) actor key valueJson
  (m.store lib isAlphanumeric coll doc, lib.save doc)

def merge (m : CrdtKvDocs Doc Bytes) (coll : String) (bytes : Bytes) : CrdtKvDocs Doc Bytes :=
  match lib.load bytes with
  | some incoming =>
    m.store lib isAlphanumeric coll (lib.merge (m.docOf lib isAlphanumeric coll) incoming)
  | none => m

def snapshot (m : CrdtKvDocs Doc Bytes) (coll : String) : CrdtKvDocs Doc Bytes × Bytes :=
  m.withDoc lib isAlphanumeric coll lib.save

def pushMember (doc : Doc) (r : String × Bool) (key : String) : String × Bool :=
  match lib.get doc key with
  | some (.str v) =>
    let out := if r.2 then r.1 else r.1.push ','
    ((out ++ String.ofList (quote key.toList)).push ':' ++ v, false)
  | _ => r

def docJson (doc : Doc) : String :=
  (((lib.keys doc).foldl (pushMember lib doc) ("\x7b", true)).1).push rightBrace

def allJson (m : CrdtKvDocs Doc Bytes) (coll : String) : CrdtKvDocs Doc Bytes × String :=
  m.withDoc lib isAlphanumeric coll (docJson lib)

def reopen (m : CrdtKvDocs Doc Bytes) : CrdtKvDocs Doc Bytes := { m with docs := ∅ }

/-! ## 3. The text -/

variable {lib}

def texts (lib : AutomergeMaps Actor Doc Bytes) (doc : Doc) (keys : List String) :
    List (String × String) :=
  keys.filterMap fun key =>
    match lib.get doc key with
    | some (.str v) => some (key, v)
    | _ => none

variable {doc : Doc}

theorem mem_texts {keys : List String} {e : String × String} :
    e ∈ texts lib doc keys ↔ e.1 ∈ keys ∧ lib.get doc e.1 = some (.str e.2) := by
  unfold texts
  rw [List.mem_filterMap]
  constructor
  · rintro ⟨key, hkey, h⟩
    split at h
    · rename_i v hget
      cases h
      exact ⟨hkey, hget⟩
    · cases h
  · intro ⟨hkey, hget⟩
    exact ⟨e.1, hkey, by rw [hget]⟩

def memberText (e : String × String) : List Char := quote e.1.toList ++ ':' :: e.2.toList

theorem toList_foldl_pushMember (doc : Doc) (keys : List String) (out : String) (first : Bool) :
    ((keys.foldl (pushMember lib doc) (out, first)).1).toList =
      out.toList ++ if first then [','].intercalate ((texts lib doc keys).map memberText)
        else ((texts lib doc keys).map memberText).flatMap fun q => ',' :: q := by
  induction keys generalizing out first with
  | nil => cases first <;> simp [texts, List.intercalate]
  | cons key keys ih =>
    rw [List.foldl_cons, pushMember]
    have htexts : texts lib doc (key :: keys) =
        (match lib.get doc key with
          | some (.str v) => (key, v) :: texts lib doc keys
          | _ => texts lib doc keys) := by
      unfold texts
      rw [List.filterMap_cons]
      split <;> rename_i h <;> split at h <;> simp_all
    rw [htexts]
    split
    · rw [ih]
      cases first with
      | true =>
        simp [intercalate_cons, memberText]
      | false => simp [memberText]
    · exact ih out first

theorem toList_docJson (doc : Doc) :
    (docJson lib doc).toList =
      leftBrace :: ([','].intercalate ((texts lib doc (lib.keys doc)).map memberText) ++
        [rightBrace]) := by
  unfold docJson
  rw [String.toList_push, toList_foldl_pushMember]
  rfl

theorem colon_mem_docJson {k text : String} (h : lib.get doc k = some (.str text)) :
    ':' ∈ (docJson lib doc).toList := by
  have hmem : (k, text) ∈ texts lib doc (lib.keys doc) :=
    mem_texts.mpr ⟨(lib.mem_keys doc k).mpr (by rw [h]; rfl), h⟩
  rw [toList_docJson]
  cases htexts : texts lib doc (lib.keys doc) with
  | nil =>
    rw [htexts] at hmem
    cases hmem
  | cons e es =>
    rw [List.map_cons, intercalate_cons]
    simp [memberText]

/-! ## 4. The object -/

def JsonValue (v : KvValue) : Prop := ∃ text, v = .str text ∧ IsJson text.toList

def HoldsJson (lib : AutomergeMaps Actor Doc Bytes) (doc : Doc) : Prop :=
  ∀ k, ∀ v ∈ lib.getAll doc k, JsonValue v

def units (s : String) : List Nat := s.toList.map Char.toNat

theorem units_injective : Function.Injective units := by
  intro a b h
  refine String.toList_injective (List.map_injective_iff.mpr ?_ h)
  intro c d hcd
  exact Char.toNat_inj.mp hcd

/-- The text is that of a JSON object whose members are the entries of the document: one for every
    key, with what the winning text stands for. -/
def IsObjectOf (lib : AutomergeMaps Actor Doc Bytes) (t : List Char) (doc : Doc) : Prop :=
  ∃ members, Denotes t (.obj members) ∧ (members.map (·.1)).Nodup ∧
    (∀ k v, lib.get doc k = some v →
      ∃ m ∈ members, m.1 = units k ∧ ∃ text, v = .str text ∧ Denotes text.toList m.2) ∧
    ∀ m ∈ members, ∃ k text, m.1 = units k ∧ lib.get doc k = some (.str text) ∧
      Denotes text.toList m.2

theorem nodup_texts (doc : Doc) : ((texts lib doc (lib.keys doc)).map fun e => units e.1).Nodup := by
  have hnodup : (texts lib doc (lib.keys doc)).Nodup := by
    refine (lib.nodup_keys doc).filterMap fun a a' e ha ha' => ?_
    split at ha <;> cases ha
    split at ha' <;> cases ha'
    rfl
  refine hnodup.map_on fun e he e' he' h => ?_
  have hkey : e.1 = e'.1 := units_injective h
  have hget := (mem_texts.mp he).2
  rw [hkey, (mem_texts.mp he').2] at hget
  injection hget with hvalue
  injection hvalue with htext
  exact Prod.ext hkey htext.symm

theorem denotes_docJson (doc : Doc) {f : String → Json}
    (hf : ∀ e ∈ texts lib doc (lib.keys doc), Denotes e.2.toList (f e.2)) :
    Denotes (docJson lib doc).toList
      (.obj ((texts lib doc (lib.keys doc)).map fun e => (units e.1, f e.2))) := by
  rw [toList_docJson]
  cases htexts : texts lib doc (lib.keys doc) with
  | nil => exact .emptyObj (l := []) nofun
  | cons e es =>
    rw [htexts] at hf
    have hobj := Denotes.obj
      ((e :: es).map fun e => ((quote e.1.toList, units e.1), (e.2.toList, f e.2)))
      (by simp) ?_ ?_
    · rw [List.map_map, List.map_map] at hobj
      exact hobj
    · intro m hm
      obtain ⟨e', -, rfl⟩ := List.mem_map.mp hm
      exact keyText_quote e'.1.toList
    · intro m hm
      obtain ⟨e', he', rfl⟩ := List.mem_map.mp hm
      exact hf e' he'

theorem isObjectOf_docJson (h : HoldsJson lib doc) :
    IsObjectOf lib (docJson lib doc).toList doc := by
  have hread : ∀ text : String, ∃ j, IsJson text.toList → Denotes text.toList j := by
    intro text
    by_cases hjson : IsJson text.toList
    · exact ⟨hjson.choose, fun _ => hjson.choose_spec⟩
    · exact ⟨.null, fun hj => absurd hj hjson⟩
  choose f hf using hread
  have hwins : ∀ k v, lib.get doc k = some v → ∃ text, v = .str text ∧ IsJson text.toList :=
    fun k v hget => h k v (lib.mem_getAll_of_get doc k v hget)
  have htexts : ∀ e ∈ texts lib doc (lib.keys doc), Denotes e.2.toList (f e.2) := by
    intro e he
    obtain ⟨text, heq, hjson⟩ := hwins e.1 _ (mem_texts.mp he).2
    injection heq with heq
    exact hf e.2 (heq ▸ hjson)
  refine ⟨_, denotes_docJson doc htexts, ?_, fun k v hget => ?_, fun m hm => ?_⟩
  · rw [List.map_map]
    exact nodup_texts doc
  · obtain ⟨text, rfl, hjson⟩ := hwins k v hget
    have hkey : k ∈ lib.keys doc := (lib.mem_keys doc k).mpr (by rw [hget]; rfl)
    exact ⟨(units k, f text), List.mem_map.mpr ⟨(k, text), mem_texts.mpr ⟨hkey, hget⟩, rfl⟩, rfl,
      text, rfl, hf text hjson⟩
  · obtain ⟨e, he, rfl⟩ := List.mem_map.mp hm
    exact ⟨e.1, e.2, rfl, (mem_texts.mp he).2, htexts e he⟩

theorem holdsJson_new : HoldsJson lib lib.new := by
  intro k v hv
  rw [lib.getAll_new] at hv
  cases hv

theorem HoldsJson.put (h : HoldsJson lib doc) (actor : Actor) (key : String) {value : String}
    (hv : IsJson value.toList) : HoldsJson lib (lib.put doc actor key value) := by
  intro k v hmem
  by_cases hk : k = key
  · rw [hk, lib.getAll_put_self] at hmem
    exact ⟨value, List.mem_singleton.mp hmem, hv⟩
  · rw [lib.getAll_put_ne _ _ _ _ _ hk] at hmem
    exact h k v hmem

theorem HoldsJson.merge {incoming : Doc} (h : HoldsJson lib doc) (hin : HoldsJson lib incoming) :
    HoldsJson lib (lib.merge doc incoming) := by
  intro k v hmem
  rcases lib.mem_getAll_merge _ _ _ _ hmem with hd | hi
  · exact h k v hd
  · exact hin k v hi

end CrdtKvDocs

/-! ## 5. Runs -/

inductive KvOp (Actor Bytes : Type) where
  | put (coll : String) (actor : Actor) (key valueJson : String)
  | merge (coll : String) (bytes : Bytes)
  | read (coll : String)
  | reopen

def KvOp.coll {Actor Bytes : Type} : KvOp Actor Bytes → Option String
  | .put coll _ _ _ => some coll
  | .merge coll _ => some coll
  | .read coll => some coll
  | .reopen => none

/-- The documents, and the ones they should be. -/
structure KvJournal (Doc Bytes : Type) where
  manager : CrdtKvDocs Doc Bytes
  ideal : String → Doc

namespace KvJournal

open CrdtKvDocs

variable {Actor Doc Bytes : Type} (lib : AutomergeMaps Actor Doc Bytes)
  (isAlphanumeric : Char → Bool)

def start : KvJournal Doc Bytes := ⟨⟨∅, ∅⟩, fun _ => lib.new⟩

def step (j : KvJournal Doc Bytes) : KvOp Actor Bytes → KvJournal Doc Bytes
  | .put coll actor key valueJson =>
    ⟨(j.manager.put lib isAlphanumeric coll actor key valueJson).1,
      Function.update j.ideal coll (lib.put (j.ideal coll) actor key valueJson)⟩
  | .merge coll bytes =>
    ⟨j.manager.merge lib isAlphanumeric coll bytes,
      match lib.load bytes with
      | some incoming => Function.update j.ideal coll (lib.merge (j.ideal coll) incoming)
      | none => j.ideal⟩
  | .read coll => { j with manager := (j.manager.snapshot lib isAlphanumeric coll).1 }
  | .reopen => { j with manager := j.manager.reopen }

/-- What is written is JSON. -/
def WritesJson : KvOp Actor Bytes → Prop
  | .put _ _ _ valueJson => IsJson valueJson.toList
  | .merge _ bytes => ∀ incoming, lib.load bytes = some incoming → HoldsJson lib incoming
  | _ => True

/-- The collection reads as the object of the values it should have. -/
def ReadsOwn (j : KvJournal Doc Bytes) (coll : String) : Prop :=
  IsObjectOf lib (j.manager.allJson lib isAlphanumeric coll).2.toList (j.ideal coll)

variable (names : Set String)

structure Inv (j : KvJournal Doc Bytes) : Prop where
  opened : ∀ coll ∈ names, ∀ doc, j.manager.docs.lookup coll = some doc → doc = j.ideal coll
  filed : ∀ coll ∈ names,
    j.manager.files.lookup (path isAlphanumeric coll) = some (lib.save (j.ideal coll)) ∨
      j.manager.files.lookup (path isAlphanumeric coll) = none ∧ j.ideal coll = lib.new
  json : ∀ coll, HoldsJson lib (j.ideal coll)

variable {lib isAlphanumeric names}

variable {j : KvJournal Doc Bytes}

theorem Inv.docOf_eq (hi : Inv lib isAlphanumeric names j) {coll : String} (hc : coll ∈ names) :
    j.manager.docOf lib isAlphanumeric coll = j.ideal coll := by
  unfold docOf
  cases hopen : j.manager.docs.lookup coll with
  | some doc => exact hi.opened coll hc doc hopen
  | none =>
    show j.manager.loadDoc lib isAlphanumeric coll = _
    unfold loadDoc
    rcases hi.filed coll hc with hfile | ⟨hfile, hnew⟩
    · rw [hfile, Option.bind_some, lib.load_save]
      rfl
    · rw [hfile, hnew]
      rfl

theorem Inv.withDoc (hi : Inv lib isAlphanumeric names j) {coll : String} (hc : coll ∈ names)
    {R : Type} (f : Doc → R) :
    Inv lib isAlphanumeric names
      { j with manager := (j.manager.withDoc lib isAlphanumeric coll f).1 } := by
  refine ⟨fun coll' hc' doc hdoc => ?_, hi.filed, hi.json⟩
  have hlookup : (j.manager.docs.insert coll (j.manager.docOf lib isAlphanumeric coll)).lookup
      coll' = some doc := hdoc
  rw [lookup_insert_eq_ite] at hlookup
  split at hlookup
  · rename_i heq
    rw [heq, ← Option.some.inj hlookup]
    exact hi.docOf_eq hc
  · exact hi.opened coll' hc' doc hlookup

theorem Inv.store (hi : Inv lib isAlphanumeric names j)
    (hinj : Set.InjOn (path isAlphanumeric) names) {coll : String} (hc : coll ∈ names) {doc : Doc}
    (hjson : HoldsJson lib doc) :
    Inv lib isAlphanumeric names
      ⟨j.manager.store lib isAlphanumeric coll doc, Function.update j.ideal coll doc⟩ := by
  refine ⟨fun coll' hc' doc' hdoc => ?_, fun coll' hc' => ?_, fun coll' => ?_⟩
  · have hlookup : (j.manager.docs.insert coll doc).lookup coll' = some doc' := hdoc
    rw [lookup_insert_eq_ite] at hlookup
    dsimp only
    split at hlookup
    · rename_i heq
      rw [heq, Function.update_self]
      exact (Option.some.inj hlookup).symm
    · rename_i hne
      rw [Function.update_of_ne hne]
      exact hi.opened coll' hc' doc' hlookup
  · have hlookup := lookup_insert_eq_ite j.manager.files (path isAlphanumeric coll)
      (path isAlphanumeric coll') (lib.save doc)
    dsimp only [CrdtKvDocs.store, persist]
    rw [hlookup]
    by_cases heq : coll' = coll
    · subst heq
      rw [if_pos rfl, Function.update_self]
      exact Or.inl rfl
    · rw [if_neg fun h => heq (hinj hc' hc h), Function.update_of_ne heq]
      exact hi.filed coll' hc'
  · by_cases heq : coll' = coll
    · subst heq
      dsimp only
      rw [Function.update_self]
      exact hjson
    · dsimp only
      rw [Function.update_of_ne heq]
      exact hi.json coll'

theorem Inv.step (hi : Inv lib isAlphanumeric names j)
    (hinj : Set.InjOn (path isAlphanumeric) names) {op : KvOp Actor Bytes}
    (hname : ∀ coll, op.coll = some coll → coll ∈ names) (hjson : WritesJson lib op) :
    Inv lib isAlphanumeric names (j.step lib isAlphanumeric op) := by
  cases op with
  | put coll actor key valueJson =>
    have hc := hname coll rfl
    rw [KvJournal.step, CrdtKvDocs.put]
    dsimp only
    rw [hi.docOf_eq hc]
    exact hi.store hinj hc ((hi.json coll).put actor key hjson)
  | merge coll bytes =>
    have hc := hname coll rfl
    rw [KvJournal.step, CrdtKvDocs.merge]
    cases hload : lib.load bytes with
    | none => exact hi
    | some incoming =>
      dsimp only
      rw [hi.docOf_eq hc]
      exact hi.store hinj hc ((hi.json coll).merge (hjson incoming hload))
  | read coll => exact hi.withDoc (hname coll rfl) _
  | reopen =>
    exact ⟨fun _ _ _ h => (by cases h), hi.filed, hi.json⟩

theorem inv_start : Inv lib isAlphanumeric names (start lib) :=
  ⟨fun _ _ _ h => (by cases h), fun _ _ => Or.inr ⟨rfl, rfl⟩, fun _ => holdsJson_new⟩

theorem inv_run (hinj : Set.InjOn (path isAlphanumeric) names) {ops : List (KvOp Actor Bytes)}
    (hnames : ∀ op ∈ ops, ∀ coll, op.coll = some coll → coll ∈ names)
    (hjson : ∀ op ∈ ops, WritesJson lib op) :
    Inv lib isAlphanumeric names (run (KvJournal.step lib isAlphanumeric) (start lib) ops) := by
  have hmeets : RunMeets (KvJournal.step lib isAlphanumeric)
      (fun _ op => (∀ coll, op.coll = some coll → coll ∈ names) ∧ WritesJson lib op) (start lib)
      ops :=
    runMeets_of_forall_mem fun op hop => ⟨hnames op hop, hjson op hop⟩
  exact runMeets_invariant (Inv lib isAlphanumeric names)
    (fun j op hop hi => hi.step hinj hop.1 hop.2) hmeets inv_start

theorem isJson_one : IsJson "1".toList := by
  have hdigits : Digits ['1'] := ⟨List.cons_ne_nil _ _, fun c hc => by
    rw [List.mem_singleton.mp hc]
    rfl⟩
  have hzero : ['1'].head? = some '0' → ['1'] = ['0'] := fun h => by simp at h
  exact ⟨.num ['1'], .num ⟨[], ['1'], [], [], rfl, Or.inl rfl, ⟨hdigits, hzero⟩, Or.inl rfl,
    Or.inl rfl⟩⟩

theorem not_readsOwn_of_shared (lib : AutomergeMaps Actor Doc Bytes) (actor : Actor)
    {a b : String} (hne : b ≠ a) (hpath : path isAlphanumeric b = path isAlphanumeric a) :
    ¬(run (KvJournal.step lib isAlphanumeric) (start lib) [.put a actor "k" "1"]).ReadsOwn lib
      isAlphanumeric b := by
  intro ⟨members, hdenotes, _, _, hmembers⟩
  -- nothing was written under the second name
  have hideal : (run (KvJournal.step lib isAlphanumeric) (start lib)
      [.put a actor "k" "1"]).ideal b = lib.new := Function.update_of_ne hne _ _
  have hnone : members = [] := by
    refine List.eq_nil_iff_forall_not_mem.mpr fun m hm => ?_
    obtain ⟨k, text, -, hget, -⟩ := hmembers m hm
    rw [hideal, lib.get_new] at hget
    cases hget
  -- but its file is that of the first
  have hdoc : (run (KvJournal.step lib isAlphanumeric) (start lib)
      [.put a actor "k" "1"]).manager.docOf lib isAlphanumeric b =
        lib.put lib.new actor "k" "1" := by
    show (((∅ : HashMap String Doc).insert a _).lookup b).getD
      (((((∅ : HashMap String Bytes).insert (path isAlphanumeric a)
        (lib.save (lib.put lib.new actor "k" "1"))).lookup (path isAlphanumeric b)).bind
          lib.load).getD lib.new) = _
    rw [AList.lookup_insert_ne hne, hpath, AList.lookup_insert, Option.bind_some, lib.load_save]
    rfl
  rw [hnone] at hdenotes
  refine hdenotes.colon_not_mem rfl ?_
  show ':' ∈ (docJson lib ((run (KvJournal.step lib isAlphanumeric) (start lib)
      [.put a actor "k" "1"]).manager.docOf lib isAlphanumeric b)).toList
  rw [hdoc]
  exact colon_mem_docJson (lib.get_put_self lib.new actor "k" "1")

variable (lib isAlphanumeric names)

/-- **The key-value documents.** In all runs, every collection of a set of names reads as a JSON object with
    exactly the entries written under its own name, if and only if no two of the names have the same file.
    -/
theorem kv_documents_iff [Inhabited Actor] :
    (∀ ops : List (KvOp Actor Bytes),
      (∀ op ∈ ops, ∀ coll, op.coll = some coll → coll ∈ names) →
      (∀ op ∈ ops, WritesJson lib op) →
      ∀ coll ∈ names, (run (KvJournal.step lib isAlphanumeric) (start lib) ops).ReadsOwn lib
        isAlphanumeric coll) ↔
      Set.InjOn (path isAlphanumeric) names := by
  constructor
  · intro hall b hb a ha hpath
    by_contra hne
    refine not_readsOwn_of_shared lib default hne hpath (hall _ ?_ ?_ b hb)
    · intro op hop coll hcoll
      rw [List.mem_singleton.mp hop] at hcoll
      rw [← Option.some.inj hcoll]
      exact ha
    · intro op hop
      rw [List.mem_singleton.mp hop]
      exact isJson_one
  · intro hinj ops hnames hjson coll hc
    have hi := inv_run hinj hnames hjson
    have hdoc := hi.docOf_eq hc
    unfold ReadsOwn
    show IsObjectOf lib (docJson lib _).toList _
    rw [hdoc]
    exact isObjectOf_docJson (hi.json coll)

/-! ## 6. Documents as sets of operations -/

def opSetMaps : AutomergeMaps Nat (OpSet String Nat KvValue) (OpSet String Nat KvValue) where
  new := .empty
  put d actor k v := d.put actor k (.str v)
  merge := OpSet.merge
  keys := OpSet.keys
  get := OpSet.get
  getAll := OpSet.getAll
  save := id
  load := some
  load_save _ := rfl
  nodup_keys := OpSet.nodup_keys
  mem_keys _ _ := OpSet.mem_keys.trans OpSet.isSome_get_iff.symm
  mem_getAll_of_get _ _ _ := OpSet.mem_getAll_of_get
  isSome_get_of_getAll _ _ := OpSet.isSome_get_of_getAll
  getAll_new _ := rfl
  getAll_put_self d actor k v := d.getAll_put_self actor k (.str v)
  getAll_put_ne d actor _ _ v hne := d.getAll_put_ne actor (.str v) hne
  mem_getAll_merge _ _ _ _ := OpSet.mem_getAll_merge
  Related := OpSet.Agree
  Supersedes := OpSet.Supersedes
  not_supersedes_new _ _ _ h := by
    obtain ⟨o, -, -, o', ho', -⟩ := h
    cases ho'
  survives _ _ _ _ := OpSet.mem_getAll_merge_left
  arrives _ _ _ _ := OpSet.mem_getAll_merge_right

/-- What is put into `a_b` is read from `a/b`; and a peer's document with an empty text is read as no JSON
    at all. -/
theorem kv_documents_leak :
    ¬(run (KvJournal.step opSetMaps Char.isAlphanum) (start opSetMaps)
      [.put "a_b" 0 "k" "1"]).ReadsOwn opSetMaps Char.isAlphanum "a/b" ∧
    ¬(run (KvJournal.step opSetMaps Char.isAlphanum) (start opSetMaps)
      [.merge "c" (OpSet.empty.put 1 "k" (.str ""))]).ReadsOwn opSetMaps Char.isAlphanum "c" := by
  constructor
  · exact not_readsOwn_of_shared opSetMaps 0 (by decide) (by decide)
  · intro ⟨members, _, _, hentries, _⟩
    obtain ⟨m, -, -, text, htext, hdenotes⟩ := hentries "k" (.str "") rfl
    injection htext with htext
    rw [← htext] at hdenotes
    exact hdenotes.ne_nil rfl

end KvJournal

end Peat.Ffi
