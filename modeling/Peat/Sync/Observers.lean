/-
  OBSERVERS OF THE IN-MEMORY BACKEND: the stream of one observer, replayed, against the
  documents it observes.

  An upsert or a remove writes and then notifies, `observe` takes its snapshot and then
  registers, each under a lock of its own; any steps of others may come in between.
-/
import Peat.Lib.Run
import Peat.Sync.AutomergeBackend

namespace Peat.Sync

open Peat.Lib

/-! ## 1. Streams and views -/

def ChangeEvent.collection : ChangeEvent → String
  | .initial collection _ => collection
  | .updated collection _ _ => collection
  | .removed collection _ _ => collection

abbrev View := String → Option Document

def ChangeEvent.apply (view : View) : ChangeEvent → View
  | .initial _ documents => fun docId => documents.find? fun doc => doc.id = some docId
  | .updated _ document _ =>
    match document.id with
    | none => view
    | some docId => Function.update view docId (some document)
  | .removed _ docId _ => Function.update view docId none

def replay (stream : List ChangeEvent) : View := stream.foldl ChangeEvent.apply fun _ => none

theorem replay_append (stream : List ChangeEvent) (event : ChangeEvent) :
    replay (stream ++ [event]) = event.apply (replay stream) := by
  rw [replay, List.foldl_append]
  rfl

def AutomergeBackend.shown (b : AutomergeBackend) (ev : Evaluators) (collection : String) (q : Query) :
    View :=
  fun docId => (b.get collection docId).filter (AutomergeBackend.matched ev q)

/-! ## 2. The steps under the locks -/

structure Call where
  collection : String
  docId : String
  written : Option Fields
  origin : Option String
  late : Bool

namespace Call

def key (call : Call) : String := docKey call.collection call.docId

def event (call : Call) : ChangeEvent :=
  match call.written with
  | none => .removed call.collection call.docId none
  | some fields => .updated call.collection ⟨some call.docId, fields⟩ call.origin

theorem collection_event (call : Call) : call.event.collection = call.collection := by
  rw [event]
  split <;> rfl

theorem apply_event (call : Call) (view : View) :
    call.event.apply view =
      Function.update view call.docId (call.written.map fun fields => ⟨some call.docId, fields⟩) := by
  rw [event]
  split
  · rename_i h
    rw [h]
    rfl
  · rename_i h
    rw [h]
    rfl

end Call

inductive Stage where
  | before
  | snapped (initial : List Document)
  | watching (observer : Nat)

structure Watch where
  backend : AutomergeBackend
  pending : List Call
  stage : Stage

namespace Watch

inductive Op where
  | upsert (collection : String) (document : Document) (origin : Option String) (uuid : String)
  | remove (collection docId : String)
  | notify (n : Nat)
  | snapshot
  | register

def start (b : AutomergeBackend) : Watch := ⟨b, [], .before⟩

def late (s : Watch) : Bool :=
  match s.stage with
  | .before => false
  | _ => true

section Steps

variable (ev : Evaluators) (c : String) (q : Query)

def step (s : Watch) : Op → Watch
  | .upsert collection document origin uuid =>
    let docId := document.id.getD uuid
    { s with
      backend := s.backend.put collection docId document.fields
      pending := s.pending ++ [⟨collection, docId, some document.fields, origin, s.late⟩] }
  | .remove collection docId =>
    match s.backend.documents.lookup (docKey collection docId) with
    | none => s
    | some _ =>
      { s with
        backend := s.backend.take collection docId
        pending := s.pending ++ [⟨collection, docId, none, none, s.late⟩] }
  | .notify n =>
    match s.pending[n]? with
    | none => s
    | some call =>
      { s with backend := s.backend.notify call.event, pending := s.pending.eraseIdx n }
  | .snapshot =>
    match s.stage with
    | .before => { s with stage := .snapped (s.backend.snapshot ev c q) }
    | _ => s
  | .register =>
    match s.stage with
    | .snapped initial =>
      { s with
        backend := s.backend.register c initial
        stage := .watching s.backend.observers.length }
    | _ => s

def stream (s : Watch) : List ChangeEvent :=
  match s.stage with
  | .before => []
  | .snapped initial => [.initial c initial]
  | .watching observer => (s.backend.observers[observer]?).getD []

def Settled (s : Watch) : Prop := (∃ observer, s.stage = .watching observer) ∧ s.pending = []

/-- **The observer view law**: every event is about the collection, and when everything has settled the
    replayed stream shows exactly the documents of the collection that match. -/
def Lawful (s : Watch) : Prop :=
  (∀ event ∈ s.stream c, event.collection = c) ∧
    (s.Settled → replay (s.stream c) = s.backend.shown ev c q)

def Agrees (b : AutomergeBackend) (call : Call) : Prop :=
  b.documents.lookup call.key = call.written ∧
    ∀ fields, call.written = some fields →
      AutomergeBackend.matched ev q ⟨some call.docId, fields⟩ = true

/-- **The condition** on a step: the snapshot meets no key with a second colon; a document written after the
    snapshot is not notified before the registration; and after it only the collection is notified, of each
    document last what the backend holds. -/
def Clear (s : Watch) : Op → Prop
  | .snapshot => ∀ key fields, s.backend.documents.lookup key = some fields →
      startsWith key (c ++ ":") = true → key = docKey c (idOfKey key)
  | .notify n =>
    match s.pending[n]? with
    | none => True
    | some call =>
      match s.stage with
      | .before => True
      | .snapped _ => call.late = true → startsWith call.key (c ++ ":") = false
      | .watching _ => call.collection = c ∧
          ((∀ other ∈ s.pending.eraseIdx n, other.key ≠ call.key) → Agrees ev q s.backend call)
  | _ => True

end Steps

variable {ev : Evaluators} {c : String} {q : Query} {s : Watch}

/-! ## 3. The snapshot -/

variable {b : AutomergeBackend} {call : Call}

theorem replay_snapshot
    (h : ∀ key fields, b.documents.lookup key = some fields → startsWith key (c ++ ":") = true →
      key = docKey c (idOfKey key)) :
    replay [.initial c (b.snapshot ev c q)] = b.shown ev c q := by
  have hmem : ∀ doc docId, doc ∈ b.snapshot ev c q ∧ doc.id = some docId ↔
      b.shown ev c q docId = some doc := by
    intro doc docId
    rw [AutomergeBackend.shown, Option.filter_eq_some_iff, AutomergeBackend.mem_snapshot_iff]
    constructor
    · rintro ⟨⟨key, fields, hlookup, hstart, rfl, hmatch⟩, hid⟩
      have hkey := h key fields hlookup hstart
      rw [Option.some.inj hid] at hkey
      refine ⟨?_, hmatch⟩
      rw [AutomergeBackend.get, ← hkey, hlookup, ← hid]
      rfl
    · rintro ⟨hget, hmatch⟩
      obtain ⟨fields, hlookup, rfl⟩ := Option.map_eq_some_iff.mp hget
      have hstart : startsWith (docKey c docId) (c ++ ":") = true := startsWith_docKey c docId
      have hid : idOfKey (docKey c docId) = docId :=
        docKey_right_inj (h _ fields hlookup hstart).symm
      refine ⟨⟨_, fields, hlookup, hstart, ?_, hmatch⟩, rfl⟩
      rw [AutomergeBackend.documentOf, hid]
  funext docId
  show (b.snapshot ev c q).find? _ = _
  cases hfind : (b.snapshot ev c q).find? fun doc => decide (doc.id = some docId) with
  | some doc =>
    have hid := List.find?_some hfind
    exact ((hmem doc docId).mp ⟨List.mem_of_find?_eq_some hfind, of_decide_eq_true hid⟩).symm
  | none =>
    cases hshown : b.shown ev c q docId with
    | none => rfl
    | some doc =>
      obtain ⟨hdoc, hid⟩ := (hmem doc docId).mpr hshown
      have hnot := List.find?_eq_none.mp hfind doc hdoc
      exact absurd (decide_eq_true hid) hnot

/-! ## 4. The invariant -/

def Awaits (s : Watch) (call : Call) : Prop :=
  match s.stage with
  | .before => True
  | .snapped _ => call.late = true
  | .watching _ => True

/-- **The view is right wherever no notification is awaited**, and the stream is about the collection
    only. -/
structure Aligned (ev : Evaluators) (c : String) (q : Query) (s : Watch) : Prop where
  registered : ∀ observer, s.stage = .watching observer → observer < s.backend.observers.length
  own : ∀ event ∈ s.stream c, event.collection = c
  view : s.late = true → ∀ docId,
    (∀ call ∈ s.pending, s.Awaits call → call.key ≠ docKey c docId) →
      replay (s.stream c) docId = s.backend.shown ev c q docId

theorem Aligned.lawful (h : s.Aligned ev c q) : s.Lawful ev c q := by
  refine ⟨h.own, ?_⟩
  rintro ⟨⟨observer, hstage⟩, hpending⟩
  funext docId
  refine h.view ?_ docId fun call hcall => ?_
  · rw [late, hstage]
  · rw [hpending] at hcall
    cases hcall

theorem shown_congr {b' : AutomergeBackend} {docId : String}
    (h : b'.documents.lookup (docKey c docId) = b.documents.lookup (docKey c docId)) :
    b'.shown ev c q docId = b.shown ev c q docId := by
  rw [AutomergeBackend.shown, AutomergeBackend.get, h]
  rfl

theorem aligned_write (hlate : call.late = s.late)
    (hobservers : b.observers = s.backend.observers)
    (hdocuments : ∀ key, key ≠ call.key → b.documents.lookup key = s.backend.documents.lookup key)
    (h : s.Aligned ev c q) :
    Aligned ev c q { s with backend := b, pending := s.pending ++ [call] } := by
  have hstream : stream c { s with backend := b, pending := s.pending ++ [call] } = s.stream c := by
    simp only [stream, hobservers]
  refine ⟨fun observer hstage => ?_, ?_, fun hl docId hfree => ?_⟩
  · rw [hobservers]
    exact h.registered observer hstage
  · rw [hstream]
    exact h.own
  · have hawaits : s.Awaits call := by
      rw [Awaits]
      split
      · trivial
      · exact hlate.trans hl
      · trivial
    have hkey : call.key ≠ docKey c docId :=
      hfree call (List.mem_append_right _ (List.mem_singleton_self call)) hawaits
    rw [hstream, shown_congr (hdocuments _ (Ne.symm hkey))]
    exact h.view hl docId fun other hother => hfree other (List.mem_append_left _ hother)

theorem mem_pending_iff {n : Nat} (hcall : s.pending[n]? = some call) (other : Call) :
    other ∈ s.pending ↔ other = call ∨ other ∈ s.pending.eraseIdx n := by
  obtain ⟨hn, hget⟩ := List.getElem?_eq_some_iff.mp hcall
  have hsplit : s.pending = s.pending.take n ++ call :: s.pending.drop (n + 1) := by
    rw [← hget, ← List.drop_eq_getElem_cons hn, List.take_append_drop]
  rw [List.eraseIdx_eq_take_drop_succ]
  conv_lhs => rw [hsplit]
  simp [or_left_comm]

theorem stream_notify {observer : Nat} (hregistered : observer < b.observers.length)
    (event : ChangeEvent) (pending pending' : List Call) :
    stream c ⟨b.notify event, pending', .watching observer⟩ =
      stream c ⟨b, pending, .watching observer⟩ ++ [event] := by
  obtain ⟨events, hevents⟩ : ∃ events, b.observers[observer]? = some events :=
    ⟨_, List.getElem?_eq_getElem hregistered⟩
  show ((b.observers.map (· ++ [event]))[observer]?).getD [] =
    (b.observers[observer]?).getD [] ++ [event]
  rw [List.getElem?_map, hevents]
  rfl

theorem Agrees.shown (h : Agrees ev q b call) (hc : call.collection = c) :
    (call.written.map fun fields => ⟨some call.docId, fields⟩) = b.shown ev c q call.docId := by
  have hkey : docKey c call.docId = call.key := by rw [Call.key, hc]
  obtain ⟨hlookup, hmatch⟩ := h
  rw [AutomergeBackend.shown, AutomergeBackend.get, hkey]
  show _ = ((b.documents.lookup call.key).map _).filter _
  rw [hlookup]
  cases hwritten : call.written with
  | none => rfl
  | some fields =>
    have hm := hmatch fields hwritten
    rw [Option.map_some, Option.filter_some, hm]
    rfl

theorem aligned_notify {n : Nat} (hcall : s.pending[n]? = some call)
    (hop : s.Clear ev c q (.notify n)) (h : s.Aligned ev c q) :
    Aligned ev c q
      { s with backend := s.backend.notify call.event, pending := s.pending.eraseIdx n } := by
  have hlen : (s.backend.notify call.event).observers.length = s.backend.observers.length :=
    List.length_map _
  rw [Clear, hcall] at hop
  obtain ⟨b, pending, stage⟩ := s
  have hregistered : ∀ observer, stage = .watching observer →
      observer < (b.notify call.event).observers.length :=
    fun observer hstage => hlen ▸ h.registered observer hstage
  cases stage with
  | before => exact ⟨hregistered, h.own, fun hl => absurd hl Bool.false_ne_true⟩
  | snapped initial =>
    refine ⟨hregistered, h.own, fun hl docId hfree => h.view hl docId fun other hother hlate => ?_⟩
    rcases (mem_pending_iff hcall other).mp hother with rfl | hrest
    · -- it does not concern the collection
      intro e
      have hstart := hop hlate
      rw [e, startsWith_docKey] at hstart
      cases hstart
    · exact hfree other hrest hlate
  | watching observer =>
    obtain ⟨hc, hlast⟩ := hop
    have hnew := @stream_notify c b observer (h.registered observer rfl) call.event pending
      (pending.eraseIdx n)
    refine ⟨hregistered, ?_, fun hl docId hfree => ?_⟩
    · rw [hnew, List.forall_mem_append]
      refine ⟨h.own, fun event hevent => ?_⟩
      rw [List.mem_singleton.mp hevent, call.collection_event, hc]
    · rw [hnew, replay_append, call.apply_event]
      by_cases hid : docId = call.docId
      · -- the last notification of this document
        have hkey : call.key = docKey c docId := by rw [Call.key, hc, hid]
        rw [hid, Function.update_self]
        exact (hlast fun other hother => hkey ▸ hfree other hother trivial).shown hc
      · rw [Function.update_of_ne hid]
        refine h.view hl docId fun other hother _ => ?_
        rcases (mem_pending_iff hcall other).mp hother with rfl | hrest
        · intro e
          rw [Call.key, hc] at e
          exact hid (docKey_right_inj e).symm
        · exact hfree other hrest trivial

theorem aligned_step {op : Op} (hop : s.Clear ev c q op) (h : s.Aligned ev c q) :
    (step ev c q s op).Aligned ev c q := by
  cases op with
  | upsert collection document origin uuid =>
    exact aligned_write rfl rfl (fun key hkey => AList.lookup_insert_ne hkey) h
  | remove collection docId =>
    rw [step]
    split
    · exact h
    · exact aligned_write rfl rfl (fun key hkey => AList.lookup_erase_ne hkey) h
  | notify n =>
    rw [step]
    split
    · exact h
    · rename_i hcall
      exact aligned_notify hcall hop h
  | snapshot =>
    obtain ⟨b, pending, stage⟩ := s
    cases stage with
    | before =>
      refine ⟨fun _ hstage => (nomatch hstage), fun event hevent => ?_, fun _ docId _ => ?_⟩
      · rw [List.mem_singleton.mp hevent]
        rfl
      · exact congrFun (replay_snapshot hop) docId
    | snapped initial => exact h
    | watching observer => exact h
  | register =>
    obtain ⟨b, pending, stage⟩ := s
    cases stage with
    | before => exact h
    | snapped initial =>
      have hstream : stream c (step ev c q ⟨b, pending, .snapped initial⟩ .register) =
          [.initial c initial] := by
        show ((b.observers ++ [[.initial c initial]])[b.observers.length]?).getD [] = _
        rw [List.getElem?_concat_length]
        rfl
      refine ⟨fun observer hstage => ?_, ?_, fun hl docId hfree => ?_⟩
      · cases hstage
        show b.observers.length < (b.observers ++ _).length
        rw [List.length_append]
        exact Nat.lt_succ_self _
      · rw [hstream]
        exact h.own
      · rw [hstream]
        exact h.view rfl docId fun call hcall _ => hfree call hcall trivial
    | watching observer => exact h

theorem aligned_start (b : AutomergeBackend) : (start b).Aligned ev c q :=
  ⟨fun _ hstage => (nomatch hstage), fun _ hevent => (nomatch hevent),
    fun hl => absurd hl Bool.false_ne_true⟩

/-! ## 5. Runs -/

section Runs

def nodeAlpha : Document := ⟨some "alpha", ∅⟩

def fresh : AutomergeBackend := .new fun _ => .immutable

def observedNodes : List Op :=
  [.upsert "nodes" nodeAlpha none "", .notify 0, .snapshot, .upsert "nodes" nodeAlpha none "",
    .register, .notify 0, .remove "nodes" "alpha", .notify 0]

end Runs

end Watch

end Peat.Sync
