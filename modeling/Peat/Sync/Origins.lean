/-
  WHOSE CHANGE WAS IT: the origins that observers of the persistent store report.

  A change is broadcast by its key alone; the origin of a local upsert waits in the
  stash (`PendingOrigins`) for an observer that reports a change of the key. Beside
  every notification stands its cause.
-/
import Peat.Lib.Run
import Peat.Sync.IrohDocumentStore

namespace Peat.Sync

open Peat.Lib

/-! ## 1. Observers of the persistent store -/

inductive Cause where
  | upsert (origin : Option String)
  | remote
  deriving DecidableEq

def Cause.origin : Cause → Option String
  | .upsert origin => origin
  | .remote => none

structure Notice where
  key : String
  cause : Cause
  deriving DecidableEq

structure Observer where
  collection : String
  query : Query
  channel : List Notice
  sent : List (Cause × ChangeEvent)

structure ObservedStore where
  store : IrohDocumentStore
  observers : List Observer

namespace Observer

def covers (o : Observer) (key : String) : Bool := startsWith key (o.collection ++ ":")

def receive (notice : Notice) (o : Observer) : Observer :=
  { o with channel := o.channel ++ [notice] }

def fetch (ev : Evaluators) (s : IrohDocumentStore) (o : Observer) (key : String) : Option Document :=
  (stripPrefix key (o.collection ++ ":")).bind fun docId =>
    ((s.documents.lookup (docKey o.collection docId)).map
      (IrohDocumentStore.documentOf docId)).filter (IrohDocumentStore.matchesQuery ev · o.query)

def outstanding (o : Observer) (key : String) : List Cause :=
  (o.channel.filter (·.key = key)).map (·.cause)

end Observer

/-! ## 2. The lane of one key -/

@[ext] structure Lane where
  stash : List (Option String)
  outstanding : Nat → Option (List Cause)

namespace Lane

def Quiet (l : Lane) : Prop :=
  l.stash = [] ∧ ∀ i causes, l.outstanding i = some causes → ∀ cause ∈ causes, cause = .remote

def Busy (l : Lane) (i : Nat) : Prop :=
  l.stash ≠ [] ∧ l.outstanding i = some (l.stash.map .upsert) ∧
    ∀ j causes, l.outstanding j = some causes → j ≠ i → causes = []

def Good (l : Lane) : Prop := l.Quiet ∨ ∃ i, l.Busy i

def push (l : Lane) (origin : Option String) : Lane :=
  ⟨l.stash ++ [origin], fun i => (l.outstanding i).map (· ++ [.upsert origin])⟩

def change (l : Lane) : Lane := ⟨l.stash, fun i => (l.outstanding i).map (· ++ [.remote])⟩

def take (l : Lane) (i : Nat) (reports : Bool) : Lane :=
  ⟨if reports then l.stash.tail else l.stash,
    Function.update l.outstanding i ((l.outstanding i).map List.tail)⟩

def join (l : Lane) (i : Nat) : Lane := ⟨l.stash, Function.update l.outstanding i (some [])⟩

variable {l : Lane} {i : Nat}

variable {causes : List Cause}

theorem Good.front_eq (h : l.Good) {cause : Cause} (hi : l.outstanding i = some (cause :: causes)) :
    l.stash.head?.join = cause.origin := by
  rcases h with ⟨hstash, hremote⟩ | ⟨k, hne, hk, hothers⟩
  · rw [hremote i _ hi cause List.mem_cons_self, hstash]
    rfl
  · have hik : i = k := by
      by_contra hik
      exact absurd (hothers i _ hi hik) (List.cons_ne_nil _ _)
    rw [hik, hk] at hi
    obtain ⟨origin, rest, hstash, rfl, -⟩ := List.map_eq_cons_iff.mp (Option.some.inj hi)
    rw [hstash]
    rfl

theorem Good.push (h : l.Good) (hi : l.outstanding i = some causes)
    (hremote : Cause.remote ∉ causes) (hunique : ∀ j c, l.outstanding j = some c → j = i)
    (origin : Option String) : (l.push origin).Good := by
  have hothers : ∀ j c, (l.push origin).outstanding j = some c → j ≠ i → c = [] := by
    intro j c hj hji
    obtain ⟨c', hc', -⟩ := Option.map_eq_some_iff.mp hj
    exact absurd (hunique j c' hc') hji
  have hcauses : causes = l.stash.map Cause.upsert := by
    rcases h with ⟨hstash, hall⟩ | ⟨k, -, hk, -⟩
    · rw [hstash]
      refine List.eq_nil_iff_forall_not_mem.mpr fun cause hcause => hremote ?_
      exact hall i causes hi cause hcause ▸ hcause
    · rw [hunique k _ hk, hi] at hk
      exact Option.some.inj hk
  refine Or.inr ⟨i, List.append_ne_nil_of_right_ne_nil _ (List.cons_ne_nil _ _), ?_, hothers⟩
  show (l.outstanding i).map _ = some ((l.stash ++ [origin]).map Cause.upsert)
  rw [hi, hcauses, List.map_append]
  rfl

theorem Good.change (h : l.Good)
    (hremote : ∀ i causes, l.outstanding i = some causes → ∀ cause ∈ causes, cause = .remote) :
    l.change.Good := by
  rcases h with ⟨hstash, -⟩ | ⟨k, hne, hk, -⟩
  · refine Or.inl ⟨hstash, fun i causes hi cause hcause => ?_⟩
    obtain ⟨old, hold, rfl⟩ := Option.map_eq_some_iff.mp hi
    rcases List.mem_append.mp hcause with hmem | hmem
    · exact hremote i old hold cause hmem
    · exact List.mem_singleton.mp hmem
  · obtain ⟨origin, rest, hstash⟩ := List.exists_cons_of_ne_nil hne
    rw [hstash] at hk
    have hfirst := hremote k _ hk (.upsert origin) List.mem_cons_self
    cases hfirst

theorem Good.take (h : l.Good) {cause : Cause} (hi : l.outstanding i = some (cause :: causes))
    {reports : Bool} (hreports : cause ≠ .remote → reports = true) : (l.take i reports).Good := by
  have hself : (l.take i reports).outstanding i = some causes := by
    show Function.update l.outstanding i _ i = _
    rw [Function.update_self, hi]
    rfl
  have hother : ∀ j, j ≠ i → (l.take i reports).outstanding j = l.outstanding j :=
    fun j hj => Function.update_of_ne hj _ _
  rcases h with ⟨hstash, hremote⟩ | ⟨k, hne, hk, hothers⟩
  · refine Or.inl ⟨?_, fun j c hj x hx => ?_⟩
    · show (if reports then l.stash.tail else l.stash) = []
      rw [hstash]
      exact ite_self _
    · by_cases hji : j = i
      · rw [hji, hself] at hj
        cases hj
        exact hremote i _ hi x (List.mem_cons_of_mem _ hx)
      · rw [hother j hji] at hj
        exact hremote j c hj x hx
  · have hik : i = k := by
      by_contra hik
      exact absurd (hothers i _ hi hik) (List.cons_ne_nil _ _)
    subst hik
    rw [hi] at hk
    obtain ⟨origin, rest, hstash, hcause, hrest⟩ := List.map_eq_cons_iff.mp (Option.some.inj hk).symm
    have htaken : (l.take i reports).stash = rest := by
      show (if reports then l.stash.tail else l.stash) = rest
      rw [hreports (hcause ▸ nofun), hstash]
      rfl
    have hquiet : ∀ j c, (l.take i reports).outstanding j = some c → j ≠ i → c = [] :=
      fun j c hj hji => hothers j c (hother j hji ▸ hj) hji
    cases hr : rest with
    | nil =>
      refine Or.inl ⟨htaken.trans hr, fun j c hj x hx => ?_⟩
      have hempty : c = [] := by
        by_cases hji : j = i
        · rw [hji, hself] at hj
          rw [← Option.some.inj hj, ← hrest, hr]
          rfl
        · exact hquiet j c hj hji
      rw [hempty] at hx
      cases hx
    | cons o os =>
      refine Or.inr ⟨i, ?_, ?_, hquiet⟩
      · rw [htaken, hr]
        exact List.cons_ne_nil _ _
      · rw [hself, htaken, hrest]

theorem Good.join (h : l.Good) (hnew : l.outstanding i = none) : (l.join i).Good := by
  have hself : (l.join i).outstanding i = some [] := Function.update_self _ _ _
  have hother : ∀ j, j ≠ i → (l.join i).outstanding j = l.outstanding j :=
    fun j hj => Function.update_of_ne hj _ _
  rcases h with ⟨hstash, hremote⟩ | ⟨k, hne, hk, hothers⟩
  · refine Or.inl ⟨hstash, fun j c hj x hx => ?_⟩
    by_cases hji : j = i
    · rw [hji, hself] at hj
      cases hj
      cases hx
    · exact hremote j c (hother j hji ▸ hj) x hx
  · have hki : k ≠ i := by
      rintro rfl
      rw [hnew] at hk
      cases hk
    refine Or.inr ⟨k, hne, (hother k hki).trans hk, fun j c hj hjk => ?_⟩
    by_cases hji : j = i
    · rw [hji, hself] at hj
      exact (Option.some.inj hj).symm
    · exact hothers j c (hother j hji ▸ hj) hjk

end Lane

/-! ## 3. The steps -/

namespace ObservedStore

inductive Op where
  | observe (collection : String) (query : Query)
  | upsert (collection : String) (document : Document) (origin : Option String) (generated : String)
      (now : Nat) (outcome : StorageOutcome)
  | remote (key : String) (stored : Stored)
  | process (observer : Nat) (now : Nat)

def start (deletionPolicy : String → DeletionPolicy) (nodeId : String) : ObservedStore :=
  ⟨.new deletionPolicy nodeId, []⟩

def broadcast (s : ObservedStore) (notice : Notice) : ObservedStore :=
  { s with observers := s.observers.map (Observer.receive notice) }

def next (s : ObservedStore) (i : Nat) : Option (Observer × Notice × List Notice) :=
  match s.observers[i]? with
  | none => none
  | some o =>
    match o.channel with
    | [] => none
    | notice :: rest => some (o, notice, rest)

section Steps

variable (ev : Evaluators) (rootAfter : Option Fields → Fields)

def handle (s : ObservedStore) (i : Nat) (o : Observer) (notice : Notice) (rest : List Notice)
    (now : Nat) : ObservedStore :=
  match o.fetch ev s.store notice.key with
  | none => { s with observers := s.observers.set i { o with channel := rest } }
  | some doc =>
    let popped := s.store.pendingOrigins.pop notice.key now
    { store := { s.store with pendingOrigins := popped.2 }
      observers := s.observers.set i
        { o with
          channel := rest
          sent := o.sent ++ [(notice.cause, .updated o.collection doc popped.1)] } }

def step (s : ObservedStore) : Op → ObservedStore
  | .observe collection query => { s with observers := s.observers ++ [⟨collection, query, [], []⟩] }
  | .upsert collection document origin generated now outcome =>
    let result := s.store.upsertWithOrigin rootAfter collection document origin generated now outcome
    let written : ObservedStore := { s with store := result.2 }
    match outcome.written with
    | .error _ => written
    | .ok () =>
      written.broadcast ⟨docKey collection (document.id.getD generated), .upsert origin⟩
  | .remote key stored =>
    { s with store := { s.store with documents := s.store.documents.insert key stored } }.broadcast
      ⟨key, .remote⟩
  | .process i now =>
    match s.next i with
    | none => s
    | some (o, notice, rest) => s.handle ev i o notice rest now

/-- **Attribution**: every event carries the origin of its cause. -/
def Attributed (s : ObservedStore) : Prop :=
  ∀ o ∈ s.observers, ∀ sent ∈ o.sent, ∃ collection doc,
    sent.2 = .updated collection doc sent.1.origin

/-- The step stays within the bounds of the stash: an insert sweeps and evicts nothing, and a pop finds
    nothing that is too old. -/
def Within (s : ObservedStore) : Op → Prop
  | .upsert _ _ _ _ now _ => s.store.pendingOrigins.Fresh now ∧ s.store.pendingOrigins.Roomy
  | .process i now =>
    match s.next i with
    | none => True
    | some (_, notice, _) => ∀ e ∈ (s.store.pendingOrigins.queue notice.key).head?,
        PendingOrigins.expired now s.store.pendingOrigins.ttl e = false
  | _ => True

def SoleReader (s : ObservedStore) (key : String) : Prop :=
  match s.observers.filter (·.covers key) with
  | [o] => Cause.remote ∉ o.outstanding key
  | _ => False

/-- **The condition** on a step: an upsert succeeds, one observer covers its key, and no remote change of it
    is outstanding there, nor the other way round; and what is fetched for an upsert matches. -/
def Clear (s : ObservedStore) : Op → Prop
  | .observe _ _ => True
  | .upsert collection document _ generated _ outcome =>
    outcome.written = .ok () ∧ s.SoleReader (docKey collection (document.id.getD generated))
  | .remote key _ => ∀ o ∈ s.observers, o.covers key = true →
      ∀ cause ∈ o.outstanding key, cause = .remote
  | .process i _ =>
    match s.next i with
    | none => True
    | some (o, notice, _) => notice.cause ≠ .remote → o.covers notice.key = true →
        (o.fetch ev s.store notice.key).isSome = true

end Steps

instance (s : ObservedStore) : ∀ op, Decidable (s.Within op)
  | .observe _ _ => isTrue trivial
  | .upsert _ _ _ _ _ _ => inferInstanceAs (Decidable (_ ∧ _))
  | .remote _ _ => isTrue trivial
  | .process i _ =>
    match h : s.next i with
    | none => isTrue (by rw [Within, h]; trivial)
    | some (_, notice, _) =>
      decidable_of_iff (∀ e ∈ (s.store.pendingOrigins.queue notice.key).head?,
        PendingOrigins.expired _ s.store.pendingOrigins.ttl e = false) (by rw [Within, h])

instance (s : ObservedStore) (key : String) : Decidable (s.SoleReader key) :=
  match h : s.observers.filter (·.covers key) with
  | [] => isFalse (by rw [SoleReader, h]; exact not_false)
  | [o] => decidable_of_iff (Cause.remote ∉ o.outstanding key) (by rw [SoleReader, h])
  | _ :: _ :: _ => isFalse (by rw [SoleReader, h]; exact not_false)

instance (ev : Evaluators) (s : ObservedStore) : ∀ op, Decidable (s.Clear ev op)
  | .observe _ _ => isTrue trivial
  | .upsert _ _ _ _ _ _ => inferInstanceAs (Decidable (_ ∧ _))
  | .remote key _ => inferInstanceAs (Decidable (∀ o ∈ s.observers, o.covers key = true →
      ∀ cause ∈ o.outstanding key, cause = .remote))
  | .process i _ =>
    match h : s.next i with
    | none => isTrue (by rw [Clear, h]; trivial)
    | some (o, notice, _) =>
      decidable_of_iff (notice.cause ≠ .remote → o.covers notice.key = true →
        (o.fetch ev s.store notice.key).isSome = true) (by rw [Clear, h])

variable {key : String} {i : Nat} {o : Observer} {notice : Notice} {rest : List Notice}

theorem SoleReader.exists_filter_eq {s : ObservedStore} (h : s.SoleReader key) :
    ∃ o, s.observers.filter (·.covers key) = [o] ∧ Cause.remote ∉ o.outstanding key := by
  rw [SoleReader] at h
  split at h
  · rename_i o hfilter
    exact ⟨o, hfilter, h⟩
  · cases h

def lane (s : ObservedStore) (key : String) : Lane :=
  ⟨(s.store.pendingOrigins.queue key).map (·.origin), fun i =>
    (s.observers[i]?).bind fun o => if o.covers key then some (o.outstanding key) else none⟩

variable {ev : Evaluators} {rootAfter : Option Fields → Fields} {s : ObservedStore}

/-! ## 4. What a step does to the lanes -/

theorem next_eq_some_iff :
    s.next i = some (o, notice, rest) ↔ s.observers[i]? = some o ∧ o.channel = notice :: rest := by
  rw [next]
  cases s.observers[i]? with
  | none => exact iff_of_false nofun fun h => nomatch h.1
  | some o' =>
    dsimp only
    split
    · rename_i hchannel
      refine iff_of_false nofun ?_
      rintro ⟨e, h⟩
      rw [← Option.some.inj e, hchannel] at h
      cases h
    · rename_i notice' rest' hchannel
      constructor
      · intro e
        cases e
        exact ⟨rfl, hchannel⟩
      · rintro ⟨e, h⟩
        cases e
        rw [hchannel] at h
        cases h
        rfl

theorem outstanding_receive (o : Observer) (notice : Notice) (key : String) :
    (o.receive notice).outstanding key =
      if notice.key = key then o.outstanding key ++ [notice.cause] else o.outstanding key := by
  rw [Observer.outstanding, Observer.receive, List.filter_append, List.map_append]
  by_cases e : notice.key = key
  · simp [e, Observer.outstanding]
  · simp [e, Observer.outstanding]

theorem lane_broadcast (notice : Notice) (key : String) :
    (s.broadcast notice).lane key =
      if notice.key = key then
        ⟨(s.lane key).stash, fun i => ((s.lane key).outstanding i).map (· ++ [notice.cause])⟩
      else s.lane key := by
  have hout : ∀ i, ((s.broadcast notice).lane key).outstanding i =
      if notice.key = key then ((s.lane key).outstanding i).map (· ++ [notice.cause])
      else (s.lane key).outstanding i := by
    intro i
    show ((s.observers.map (Observer.receive notice))[i]?).bind _ = _
    rw [List.getElem?_map]
    show _ = if notice.key = key then ((s.observers[i]?).bind _).map _ else (s.observers[i]?).bind _
    cases s.observers[i]? with
    | none => exact (ite_self _).symm
    | some o =>
      show (if o.covers key then some ((o.receive notice).outstanding key) else none) =
        if notice.key = key then (if o.covers key then some (o.outstanding key) else none).map _
        else if o.covers key then some (o.outstanding key) else none
      rw [outstanding_receive]
      cases o.covers key
      · exact (ite_self _).symm
      · by_cases e : notice.key = key
        · simp [e]
        · simp [e]
  by_cases e : notice.key = key
  · rw [if_pos e]
    refine Lane.ext rfl (funext fun i => ?_)
    rw [hout, if_pos e]
  · rw [if_neg e]
    refine Lane.ext rfl (funext fun i => ?_)
    rw [hout, if_neg e]

theorem outstanding_of_cons (h : o.channel = notice :: rest) (key : String) :
    o.outstanding key =
      if notice.key = key then notice.cause :: Observer.outstanding { o with channel := rest } key
      else Observer.outstanding { o with channel := rest } key := by
  rw [Observer.outstanding, h, List.filter_cons]
  by_cases e : notice.key = key
  · simp [e, Observer.outstanding]
  · simp [e, Observer.outstanding]

theorem covers_of_fetch {doc : Document} (h : o.fetch ev s.store key = some doc) :
    o.covers key = true := by
  by_contra hc
  rw [Observer.fetch, stripPrefix_eq_none key (Bool.eq_false_iff.mpr hc)] at h
  cases h

theorem lane_observe (collection : String) (query : Query) (key : String) :
    (step ev rootAfter s (.observe collection query)).lane key =
      if startsWith key (collection ++ ":") then (s.lane key).join s.observers.length
      else s.lane key := by
  have hnew : (s.lane key).outstanding s.observers.length = none := by
    show (s.observers[s.observers.length]?).bind _ = none
    rw [List.getElem?_eq_none (Nat.le_refl _)]
    rfl
  have hadded : ∀ i, ((step ev rootAfter s (.observe collection query)).lane key).outstanding i =
      if i = s.observers.length then
        if startsWith key (collection ++ ":") then some [] else none
      else (s.lane key).outstanding i := by
    intro i
    show ((s.observers ++ [⟨collection, query, [], []⟩])[i]?).bind _ = _
    by_cases hi : i = s.observers.length
    · rw [if_pos hi, hi, List.getElem?_concat_length]
      rfl
    · rw [if_neg hi, List.getElem?_append, List.getElem?_singleton]
      by_cases hlt : i < s.observers.length
      · rw [if_pos hlt]
        rfl
      · rw [if_neg hlt, if_neg (by omega)]
        show none = (s.observers[i]?).bind _
        rw [List.getElem?_eq_none (by omega)]
        rfl
  by_cases hs : startsWith key (collection ++ ":") = true
  · rw [if_pos hs]
    refine Lane.ext rfl (funext fun i => ?_)
    rw [hadded, if_pos hs]
    exact (Function.update_apply _ _ _ i).symm
  · rw [if_neg hs]
    refine Lane.ext rfl (funext fun i => ?_)
    rw [hadded, if_neg hs]
    split
    · rename_i hi
      rw [hi, hnew]
    · rfl

theorem lane_upsert {collection : String} {document : Document} {origin : Option String}
    {generated : String} {now : Nat} {outcome : StorageOutcome} (hok : outcome.written = .ok ())
    (hfresh : s.store.pendingOrigins.Fresh now) (hroom : s.store.pendingOrigins.Roomy)
    (key : String) :
    (step ev rootAfter s (.upsert collection document origin generated now outcome)).lane key =
      if docKey collection (document.id.getD generated) = key then (s.lane key).push origin
      else s.lane key := by
  have hstep : step ev rootAfter s (.upsert collection document origin generated now outcome) =
      ({ s with store := (s.store.upsertWithOrigin rootAfter collection document origin generated now
        outcome).2 } : ObservedStore).broadcast
          ⟨docKey collection (document.id.getD generated), .upsert origin⟩ := by
    rw [step, hok]
  have hpending : (s.store.upsertWithOrigin rootAfter collection document origin generated now
      outcome).2.pendingOrigins =
        s.store.pendingOrigins.insert (docKey collection (document.id.getD generated)) origin now := by
    rw [IrohDocumentStore.upsertWithOrigin, hok]
    rfl
  rw [hstep]
  generalize (s.store.upsertWithOrigin rootAfter collection document origin generated now
    outcome).2 = written at hpending
  have hstash : (lane { s with store := written } key).stash =
      if key = docKey collection (document.id.getD generated) then (s.lane key).stash ++ [origin]
      else (s.lane key).stash := by
    show (written.pendingOrigins.queue key).map _ = _
    rw [hpending, PendingOrigins.queue_insert (hfresh.frontFresh key) hroom]
    split
    · rw [List.map_append]
      rfl
    · rfl
  rw [lane_broadcast, hstash]
  by_cases e : docKey collection (document.id.getD generated) = key
  · rw [if_pos e, if_pos e, if_pos e.symm]
    rfl
  · rw [if_neg e, if_neg e]
    refine Lane.ext ?_ rfl
    rw [hstash, if_neg (Ne.symm e)]

theorem lane_remote (k : String) (stored : Stored) (key : String) :
    (step ev rootAfter s (.remote k stored)).lane key =
      if k = key then (s.lane key).change else s.lane key := by
  rw [step, lane_broadcast]
  rfl

theorem outstanding_taken (hnext : s.next i = some (o, notice, rest))
    (sent : List (Cause × ChangeEvent)) (key : String) (j : Nat) :
    ((s.observers.set i { o with channel := rest, sent := sent })[j]?).bind
        (fun o => if o.covers key then some (o.outstanding key) else none) =
      if notice.key = key ∧ o.covers key = true then
        Function.update (s.lane key).outstanding i (((s.lane key).outstanding i).map List.tail) j
      else (s.lane key).outstanding j := by
  obtain ⟨ho, hchannel⟩ := next_eq_some_iff.mp hnext
  have hlt : i < s.observers.length := (List.getElem?_eq_some_iff.mp ho).1
  have hself : (s.lane key).outstanding i =
      if o.covers key then some (o.outstanding key) else none := by
    show (s.observers[i]?).bind _ = _
    rw [ho]
    rfl
  by_cases hj : j = i
  · rw [hj, List.getElem?_set_self hlt, Function.update_self, hself, outstanding_of_cons hchannel]
    show (if o.covers key then some (Observer.outstanding { o with channel := rest } key)
      else none) = _
    by_cases e : notice.key = key
    · cases o.covers key <;> simp [e]
    · simp [e]
  · rw [List.getElem?_set_ne (Ne.symm hj), Function.update_of_ne hj, ite_self]
    rfl

theorem stash_popped (popped key : String) (now : Nat) :
    (PendingOrigins.queue (s.store.pendingOrigins.pop popped now).2 key).map (·.origin) =
      if key = popped then (s.lane key).stash.tail else (s.lane key).stash := by
  rw [PendingOrigins.queue_pop]
  split
  · rename_i e
    rw [← e, List.map_tail]
    rfl
  · rfl

theorem lane_handle (hnext : s.next i = some (o, notice, rest)) (now : Nat) (key : String) :
    (s.handle ev i o notice rest now).lane key =
      if notice.key = key ∧ o.covers key = true then
        (s.lane key).take i (o.fetch ev s.store key).isSome
      else s.lane key := by
  have hout := outstanding_taken hnext
  rw [handle]
  cases hf : o.fetch ev s.store notice.key with
  | none =>
    by_cases hcond : notice.key = key ∧ o.covers key = true
    · have hkey : o.fetch ev s.store key = none := hcond.1 ▸ hf
      rw [if_pos hcond, hkey]
      refine Lane.ext rfl (funext fun j => (hout o.sent key j).trans ?_)
      rw [if_pos hcond]
      rfl
    · rw [if_neg hcond]
      refine Lane.ext rfl (funext fun j => (hout o.sent key j).trans ?_)
      rw [if_neg hcond]
  | some doc =>
    have hstash := stash_popped (s := s) notice.key key now
    by_cases hcond : notice.key = key ∧ o.covers key = true
    · have hkey : o.fetch ev s.store key = some doc := hcond.1 ▸ hf
      rw [if_pos hcond, hkey]
      refine Lane.ext (hstash.trans ?_) (funext fun j => (hout _ key j).trans ?_)
      · rw [if_pos hcond.1.symm]
        rfl
      · rw [if_pos hcond]
        rfl
    · have hne : key ≠ notice.key := fun e => hcond ⟨e.symm, e ▸ covers_of_fetch hf⟩
      rw [if_neg hcond]
      refine Lane.ext (hstash.trans (if_neg hne)) (funext fun j => (hout _ key j).trans ?_)
      rw [if_neg hcond]

/-! ## 5. Runs -/

theorem exists_index_of_filter_eq {α : Type} {p : α → Bool} {l : List α} {a : α}
    (h : l.filter p = [a]) :
    ∃ i : Nat, l[i]? = some a ∧ p a = true ∧
      ∀ (j : Nat) b, l[j]? = some b → p b = true → j = i := by
  induction l with
  | nil => cases h
  | cons x l ih =>
    by_cases hx : p x = true
    · rw [List.filter_cons_of_pos hx] at h
      obtain ⟨rfl, hrest⟩ := List.cons.inj h
      refine ⟨0, rfl, hx, fun j b hj hb => ?_⟩
      cases j with
      | zero => rfl
      | succ j =>
        have hmem : b ∈ l.filter p := List.mem_filter.mpr ⟨List.mem_of_getElem? hj, hb⟩
        rw [hrest] at hmem
        cases hmem
    · rw [List.filter_cons_of_neg hx] at h
      obtain ⟨i, hi, ha, hunique⟩ := ih h
      refine ⟨i + 1, hi, ha, fun j b hj hb => ?_⟩
      cases j with
      | zero =>
        cases hj
        exact absurd hb hx
      | succ j => rw [hunique j b hj hb]

theorem outstanding_eq_some_iff {causes : List Cause} :
    (s.lane key).outstanding i = some causes ↔
      ∃ o, s.observers[i]? = some o ∧ o.covers key = true ∧ o.outstanding key = causes := by
  show (s.observers[i]?).bind _ = some causes ↔ _
  rw [Option.bind_eq_some_iff]
  refine exists_congr fun o => and_congr_right fun _ => ?_
  cases o.covers key <;> simp

theorem outstanding_of_next (hnext : s.next i = some (o, notice, rest))
    (hcovers : o.covers notice.key = true) :
    (s.lane notice.key).outstanding i =
      some (notice.cause :: Observer.outstanding { o with channel := rest } notice.key) := by
  obtain ⟨ho, hchannel⟩ := next_eq_some_iff.mp hnext
  refine outstanding_eq_some_iff.mpr ⟨o, ho, hcovers, ?_⟩
  rw [outstanding_of_cons hchannel, if_pos rfl]

theorem good_step {op : Op} (hwithin : s.Within op) (hclear : s.Clear ev op)
    (h : ∀ key, (s.lane key).Good) (key : String) : ((step ev rootAfter s op).lane key).Good := by
  cases op with
  | observe collection query =>
    rw [lane_observe]
    split
    · refine (h key).join ?_
      show (s.observers[s.observers.length]?).bind _ = none
      rw [List.getElem?_eq_none (Nat.le_refl _)]
      rfl
    · exact h key
  | upsert collection document origin generated now outcome =>
    obtain ⟨hok, hsole⟩ := hclear
    rw [lane_upsert hok hwithin.1 hwithin.2]
    split
    · rename_i e
      rw [e] at hsole
      obtain ⟨o, hfilter, hremote⟩ := hsole.exists_filter_eq
      obtain ⟨i, hi, hcovers, hunique⟩ := exists_index_of_filter_eq hfilter
      refine (h key).push (outstanding_eq_some_iff.mpr ⟨o, hi, hcovers, rfl⟩) hremote ?_ origin
      intro j causes hj
      obtain ⟨o', ho', hcovers', -⟩ := outstanding_eq_some_iff.mp hj
      exact hunique j o' ho' hcovers'
    · exact h key
  | remote k stored =>
    rw [lane_remote]
    split
    · rename_i e
      refine (h key).change fun i causes hi cause hcause => ?_
      obtain ⟨o, ho, hcovers, rfl⟩ := outstanding_eq_some_iff.mp hi
      rw [Clear, e] at hclear
      exact hclear o (List.mem_of_getElem? ho) hcovers cause hcause
    · exact h key
  | process i now =>
    rw [step]
    rw [Clear] at hclear
    cases hnext : s.next i with
    | none => exact h key
    | some found =>
      obtain ⟨o, notice, rest⟩ := found
      rw [hnext] at hclear
      show ((s.handle ev i o notice rest now).lane key).Good
      rw [lane_handle hnext]
      split
      · rename_i hcond
        obtain ⟨rfl, hcovers⟩ := hcond
        exact (h notice.key).take (outstanding_of_next hnext hcovers)
          fun hcause => hclear hcause hcovers
      · exact h key

theorem forall_observer_set {P : Observer → Prop} {o' : Observer} (h : ∀ o ∈ s.observers, P o)
    (hnew : P o') : ∀ o ∈ s.observers.set i o', P o := by
  intro o ho
  rcases List.mem_or_eq_of_mem_set ho with hmem | rfl
  · exact h o hmem
  · exact hnew

theorem pop_of_fresh {now : Nat}
    (h : ∀ e ∈ (s.store.pendingOrigins.queue key).head?,
      PendingOrigins.expired now s.store.pendingOrigins.ttl e = false) :
    (s.store.pendingOrigins.pop key now).1 = (s.lane key).stash.head?.join := by
  rw [PendingOrigins.pop_eq]
  show _ = ((s.store.pendingOrigins.queue key).map _).head?.join
  cases hq : s.store.pendingOrigins.queue key with
  | nil => rfl
  | cons e queue =>
    have hage := h e (by rw [hq]; rfl)
    show (if _ then none else e.origin) = e.origin
    rw [hage]
    rfl

theorem attributed_step {op : Op} (hwithin : s.Within op) (hgood : ∀ key, (s.lane key).Good)
    (h : s.Attributed) : (step ev rootAfter s op).Attributed := by
  have hbroadcast : ∀ (t : ObservedStore) notice, t.Attributed → (t.broadcast notice).Attributed := by
    intro t notice ht o ho
    obtain ⟨old, hold, rfl⟩ := List.mem_map.mp ho
    exact ht old hold
  cases op with
  | observe collection query =>
    intro o ho
    rcases List.mem_append.mp ho with hmem | hmem
    · exact h o hmem
    · rw [List.mem_singleton.mp hmem]
      exact fun _ hsent => nomatch hsent
  | upsert collection document origin generated now outcome =>
    rw [step]
    cases outcome.written with
    | error message => exact h
    | ok done => exact hbroadcast _ _ h
  | remote k stored => exact hbroadcast _ _ h
  | process i now =>
    rw [step]
    rw [Within] at hwithin
    cases hnext : s.next i with
    | none => exact h
    | some found =>
      obtain ⟨o, notice, rest⟩ := found
      rw [hnext] at hwithin
      have hmem : o ∈ s.observers := List.mem_of_getElem? (next_eq_some_iff.mp hnext).1
      show (s.handle ev i o notice rest now).Attributed
      rw [handle]
      cases hf : o.fetch ev s.store notice.key with
      | none => exact forall_observer_set h (h o hmem)
      | some doc =>
        have hfront := (hgood notice.key).front_eq (outstanding_of_next hnext (covers_of_fetch hf))
        have hpop := (pop_of_fresh hwithin).trans hfront
        refine forall_observer_set h fun sent hsent => ?_
        rcases List.mem_append.mp hsent with hold | hnew
        · exact h o hmem sent hold
        · rw [List.mem_singleton.mp hnew, hpop]
          exact ⟨o.collection, doc, rfl⟩

/-- **Origins are attributed** in every run within the bounds whose steps are clear: every event carries the
    origin given to its upsert, and one for a remote change carries none. -/
theorem origins_attributed (ev : Evaluators) (rootAfter : Option Fields → Fields)
    (deletionPolicy : String → DeletionPolicy) (nodeId : String) (ops : List Op)
    (hwithin : RunMeets (step ev rootAfter) Within (start deletionPolicy nodeId) ops)
    (hclear : RunMeets (step ev rootAfter) (Clear ev) (start deletionPolicy nodeId) ops)
    (pre : List Op) (hpre : pre <+: ops) :
    (run (step ev rootAfter) (start deletionPolicy nodeId) pre).Attributed := by
  have hboth : RunMeets (step ev rootAfter) (fun s op => Within s op ∧ Clear ev s op)
      (start deletionPolicy nodeId) ops := runMeets_and.mpr ⟨hwithin, hclear⟩
  have hinv := runMeets_invariant (fun s => (∀ key, (lane s key).Good) ∧ Attributed s)
    (fun s op hop h => ⟨good_step hop.1 hop.2 h.1, attributed_step hop.1 h.1 h.2⟩)
    (runMeets_initial hboth hpre) ⟨fun key => Or.inl ⟨rfl, fun _ _ hi => nomatch hi⟩, ?_⟩
  · exact hinv.2
  · exact fun _ ho => nomatch ho

section Runs

def track : Document := ⟨some "t1", ∅⟩

def trackUpsert (origin : String) (now : Nat) : Op :=
  .upsert "tracks" track (some origin) "" now .fine

def bridgedTracks : List Op :=
  [.observe "tracks" .all, trackUpsert "ble" 0, trackUpsert "lite" 1, .process 0 2,
    .remote "tracks:t2" ⟨⟨some "t2", ∅⟩, ∅⟩, .process 0 3, .process 0 4]

theorem origins_attributed_bridged :
    (run (step plainEvaluators (·.getD ∅)) (start (fun _ => .immutable) "n0")
      bridgedTracks).Attributed := by
  exact origins_attributed plainEvaluators (·.getD ∅) (fun _ => .immutable) "n0" bridgedTracks
    (by decide +kernel) (by decide +kernel) bridgedTracks (List.prefix_refl _)

/-- Two observers race for the one origin: the second reports the upsert with none. -/
theorem second_observer_without_origin :
    RunMeets (step plainEvaluators (·.getD ∅)) Within (start (fun _ => .immutable) "n0")
      [.observe "tracks" .all, .observe "tracks" .all, trackUpsert "ble" 0, .process 0 1,
        .process 1 1] ∧
    ¬ (run (step plainEvaluators (·.getD ∅)) (start (fun _ => .immutable) "n0")
      [.observe "tracks" .all, .observe "tracks" .all, trackUpsert "ble" 0, .process 0 1,
        .process 1 1]).Attributed := by
  refine ⟨by decide +kernel, fun h => ?_⟩
  obtain ⟨collection, doc, e⟩ := h _ (List.mem_cons_of_mem _ List.mem_cons_self)
    (.upsert (some "ble"), .updated "tracks" track none) List.mem_cons_self
  cases e

end Runs

end ObservedStore

end Peat.Sync
