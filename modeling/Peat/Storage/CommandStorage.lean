/-
  COMMANDS, ACKNOWLEDGMENTS AND STATUS IN ONE KEY SPACE
  (storage/automerge_command_storage.rs).

  The store is a map from keys to documents with a scan by prefix; a document reads back
  as the message it was written from only. An acknowledgment stands under "ack:", the
  command id, "-" and the node id.
-/
import Peat.Command.Command
import Peat.Lib.HashMap
import Peat.Lib.Run
import Peat.Lib.Separated

namespace Peat.Storage

open Peat.Lib Peat.Command

/-! ## 1. The storage -/

inductive StoredMessage where
  | command (command : HierarchicalCommand) (publishedAtUs : Nat)
  | acknowledgment (acknowledgment : CommandAcknowledgment) (receivedAtUs : Nat)
  | status (status : CommandStatus) (updatedAtUs : Nat)

def StoredMessage.asAcknowledgment : StoredMessage → Option CommandAcknowledgment
  | acknowledgment ack _ => some ack
  | command _ _ => none
  | status _ _ => none

structure AutomergeCommandStorage where
  store : HashMap String StoredMessage

namespace AutomergeCommandStorage

def commandsStart : String := "cmd:"

def acksStart : String := "ack:"

def statusStart : String := "status:"

def commandKey (commandId : String) : String := commandsStart ++ commandId

def ackKey (commandId nodeId : String) : String := acksStart ++ commandId ++ "-" ++ nodeId

def ackStart (commandId : String) : String := acksStart ++ commandId ++ "-"

def statusKey (commandId : String) : String := statusStart ++ commandId

def put (s : AutomergeCommandStorage) (key : String) (message : StoredMessage) :
    AutomergeCommandStorage :=
  ⟨s.store.insert key message⟩

def scan (s : AutomergeCommandStorage) (start : String) : List (Σ _ : String, StoredMessage) :=
  s.store.entries.filter fun e => startsWith e.1 start

def publishCommand (s : AutomergeCommandStorage) (command : HierarchicalCommand) (nowUs : Nat) :
    AutomergeCommandStorage × String :=
  (s.put (commandKey command.commandId) (.command command nowUs), commandKey command.commandId)

def deleteCommand (s : AutomergeCommandStorage) (commandId : String) : AutomergeCommandStorage :=
  ⟨s.store.erase (commandKey commandId)⟩

def publishAcknowledgment (s : AutomergeCommandStorage) (ack : CommandAcknowledgment) (nowUs : Nat) :
    AutomergeCommandStorage × String :=
  (s.put (ackKey ack.commandId ack.nodeId) (.acknowledgment ack nowUs),
    ackKey ack.commandId ack.nodeId)

def getAcknowledgments (s : AutomergeCommandStorage) (commandId : String) :
    List CommandAcknowledgment :=
  (s.scan (ackStart commandId)).filterMap fun e => e.2.asAcknowledgment

def updateCommandStatus (s : AutomergeCommandStorage) (status : CommandStatus) (nowUs : Nat) :
    AutomergeCommandStorage :=
  s.put (statusKey status.commandId) (.status status nowUs)

theorem mem_getAcknowledgments {s : AutomergeCommandStorage} {commandId : String}
    {ack : CommandAcknowledgment} : ack ∈ s.getAcknowledgments commandId ↔
      ∃ key nowUs, s.store.lookup key = some (.acknowledgment ack nowUs) ∧
        startsWith key (ackStart commandId) = true := by
  rw [getAcknowledgments, List.mem_filterMap]
  constructor
  · rintro ⟨⟨key, message⟩, he, hack⟩
    obtain ⟨hmem, hstart⟩ := List.mem_filter.mp he
    cases message with
    | acknowledgment a nowUs =>
      cases hack
      exact ⟨key, nowUs, lookup_eq_some_iff.mpr hmem, hstart⟩
    | command command nowUs => cases hack
    | status status nowUs => cases hack
  · rintro ⟨key, nowUs, hlookup, hstart⟩
    exact ⟨⟨key, .acknowledgment ack nowUs⟩,
      List.mem_filter.mpr ⟨lookup_eq_some_iff.mp hlookup, hstart⟩, rfl⟩

/-! ## 2. Keys -/

def PlainAck (commandId nodeId : String) : Prop :=
  Separated.Plain '-' commandId.toList nodeId.toList

instance (commandId nodeId : String) : Decidable (PlainAck commandId nodeId) :=
  inferInstanceAs (Decidable (_ ∧ _))

variable {c c' n n' : String}

theorem toList_ackKey (c n : String) :
    (ackKey c n).toList = acksStart.toList ++ Separated.join '-' c.toList n.toList := by
  simp [ackKey, Separated.join, String.toList_append]

theorem toList_ackStart (c : String) :
    (ackStart c).toList = acksStart.toList ++ (c.toList ++ ['-']) := by
  simp [ackStart, String.toList_append]

theorem ackKey_inj (h : PlainAck c n) : ackKey c n = ackKey c' n' ↔ c = c' ∧ n = n' := by
  rw [← String.toList_inj, toList_ackKey, toList_ackKey, List.append_cancel_left_eq,
    Separated.join_inj h, String.toList_inj, String.toList_inj]

theorem startsWith_ackKey_iff (h : PlainAck c n) :
    startsWith (ackKey c n) (ackStart c') = true ↔ c' = c := by
  rw [startsWith, List.isPrefixOf_iff_prefix, toList_ackKey, toList_ackStart,
    List.prefix_append_right_inj, Separated.prefix_join_iff h, String.toList_inj]

theorem exists_startsWith_ackKey (h : ¬ PlainAck c n) :
    ∃ c', c' ≠ c ∧ startsWith (ackKey c n) (ackStart c') = true := by
  obtain ⟨a, b, hne, heq⟩ := Separated.exists_other_reading h
  refine ⟨String.ofList a, fun e => hne ?_, ?_⟩
  · have ha : a = c.toList := by rw [← e, String.toList_ofList]
    subst ha
    have hb : b = n.toList := by
      have hrest := List.append_cancel_left heq
      exact (List.cons.inj hrest).2
    rw [hb]
  · rw [startsWith, List.isPrefixOf_iff_prefix, toList_ackKey, toList_ackStart,
      List.prefix_append_right_inj, String.toList_ofList, ← heq]
    exact ⟨b, by rw [List.append_assoc]; rfl⟩

theorem startsWith_acksStart {key : String} (h : startsWith key (ackStart c) = true) :
    startsWith key acksStart = true := by
  rw [startsWith, List.isPrefixOf_iff_prefix] at h ⊢
  rw [toList_ackStart] at h
  exact (List.prefix_append _ _).trans h

theorem not_startsWith_commandKey (c : String) : startsWith (commandKey c) acksStart = false := by
  rw [startsWith, commandKey, String.toList_append]
  rfl

theorem not_startsWith_statusKey (c : String) : startsWith (statusKey c) acksStart = false := by
  rw [startsWith, statusKey, String.toList_append]
  rfl

end AutomergeCommandStorage

/-! ## 3. What was published, and the law -/

/-- The storage, and what was published by key. -/
structure AckPublications where
  storage : AutomergeCommandStorage
  published : String × String → Option CommandAcknowledgment

namespace AckPublications

open AutomergeCommandStorage

inductive Op where
  | publishAcknowledgment (ack : CommandAcknowledgment) (nowUs : Nat)
  | publishCommand (command : HierarchicalCommand) (nowUs : Nat)
  | deleteCommand (commandId : String)
  | updateCommandStatus (status : CommandStatus) (nowUs : Nat)

def start : AckPublications := ⟨⟨∅⟩, fun _ => none⟩

def step (s : AckPublications) : Op → AckPublications
  | .publishAcknowledgment ack nowUs => ⟨(s.storage.publishAcknowledgment ack nowUs).1,
      Function.update s.published (ack.commandId, ack.nodeId) (some ack)⟩
  | .publishCommand command nowUs => { s with storage := (s.storage.publishCommand command nowUs).1 }
  | .deleteCommand commandId => { s with storage := s.storage.deleteCommand commandId }
  | .updateCommandStatus status nowUs =>
    { s with storage := s.storage.updateCommandStatus status nowUs }

/-- **The acknowledgment store law**: a command has one acknowledgment of every node that acknowledged
    it, the last one, and no others. -/
structure Lawful (s : AckPublications) : Prop where
  answers : ∀ commandId ack, ack ∈ s.storage.getAcknowledgments commandId ↔
    s.published (commandId, ack.nodeId) = some ack
  once : ∀ commandId, ((s.storage.getAcknowledgments commandId).map (·.nodeId)).Nodup

/-- The key of the acknowledgment splits back into its two ids. -/
def Clear (_ : AckPublications) : Op → Prop
  | .publishAcknowledgment ack _ => PlainAck ack.commandId ack.nodeId
  | _ => True

instance (s : AckPublications) : ∀ op, Decidable (s.Clear op)
  | .publishAcknowledgment ack _ => inferInstanceAs (Decidable (PlainAck ack.commandId ack.nodeId))
  | .publishCommand _ _ => isTrue trivial
  | .deleteCommand _ => isTrue trivial
  | .updateCommandStatus _ _ => isTrue trivial

def Published (s : AckPublications) (key : String) (message : StoredMessage) : Prop :=
  ∃ ack nowUs, message = .acknowledgment ack nowUs ∧ key = ackKey ack.commandId ack.nodeId ∧
    PlainAck ack.commandId ack.nodeId ∧ s.published (ack.commandId, ack.nodeId) = some ack

structure Faithful (s : AckPublications) : Prop where
  stored : ∀ key message, s.storage.store.lookup key = some message →
    startsWith key acksStart = true → s.Published key message
  holds : ∀ commandId nodeId ack, s.published (commandId, nodeId) = some ack →
    (ack.commandId = commandId ∧ ack.nodeId = nodeId) ∧
      ∃ nowUs, s.storage.store.lookup (ackKey commandId nodeId) = some (.acknowledgment ack nowUs)

variable {s : AckPublications}

theorem Faithful.of_lookup (h : s.Faithful) {key commandId : String} {ack : CommandAcknowledgment}
    {nowUs : Nat} (hlookup : s.storage.store.lookup key = some (.acknowledgment ack nowUs))
    (hstart : startsWith key (ackStart commandId) = true) :
    key = ackKey commandId ack.nodeId ∧ s.published (commandId, ack.nodeId) = some ack := by
  obtain ⟨a, at', hmessage, hkey, hplain, hpublished⟩ :=
    h.stored key _ hlookup (startsWith_acksStart hstart)
  cases hmessage
  rw [hkey, startsWith_ackKey_iff hplain] at hstart
  rw [hstart]
  exact ⟨hkey, hpublished⟩

theorem Faithful.mem_getAcknowledgments (h : s.Faithful) (commandId : String)
    (ack : CommandAcknowledgment) : ack ∈ s.storage.getAcknowledgments commandId ↔
      s.published (commandId, ack.nodeId) = some ack := by
  rw [AutomergeCommandStorage.mem_getAcknowledgments]
  constructor
  · rintro ⟨key, nowUs, hlookup, hstart⟩
    exact (h.of_lookup hlookup hstart).2
  · intro hpublished
    obtain ⟨⟨hcommand, -⟩, nowUs, hlookup⟩ := h.holds commandId ack.nodeId ack hpublished
    refine ⟨_, nowUs, hlookup, ?_⟩
    rw [startsWith, List.isPrefixOf_iff_prefix, toList_ackKey, toList_ackStart,
      List.prefix_append_right_inj]
    exact ⟨ack.nodeId.toList, by rw [List.append_assoc]; rfl⟩

theorem Faithful.nodup (h : s.Faithful) (commandId : String) :
    ((s.storage.getAcknowledgments commandId).map (·.nodeId)).Nodup := by
  unfold getAcknowledgments scan List.Nodup
  rw [List.pairwise_map, List.pairwise_filterMap]
  refine ((List.nodupKeys_iff_pairwise.mp s.storage.store.nodupKeys).filter _).imp_of_mem ?_
  -- two documents of one node have one key
  intro e e' he he' hne ack hack ack' hack' hnode
  obtain ⟨hmem, hstart⟩ := List.mem_filter.mp he
  obtain ⟨hmem', hstart'⟩ := List.mem_filter.mp he'
  obtain ⟨key, message⟩ := e
  obtain ⟨key', message'⟩ := e'
  cases message <;> cases hack
  cases message' <;> cases hack'
  apply hne
  show key = key'
  rw [(h.of_lookup (lookup_eq_some_iff.mpr hmem) hstart).1,
    (h.of_lookup (lookup_eq_some_iff.mpr hmem') hstart').1, hnode]

theorem Faithful.lawful (h : s.Faithful) : s.Lawful := ⟨h.mem_getAcknowledgments, h.nodup⟩

/-! ## 4. One operation -/

theorem Faithful.frame (h : s.Faithful) {storage : AutomergeCommandStorage} {own : String}
    (hown : startsWith own acksStart = false)
    (hframe : ∀ key, key ≠ own → storage.store.lookup key = s.storage.store.lookup key) :
    Faithful { s with storage := storage } where
  stored key message hlookup hstart := by
    have hne : key ≠ own := by
      rintro rfl
      rw [hown] at hstart
      cases hstart
    rw [show ({ s with storage := storage } : AckPublications).storage.store.lookup key = _ from
      hframe key hne] at hlookup
    exact h.stored key message hlookup hstart
  holds commandId nodeId ack hpublished := by
    obtain ⟨hids, nowUs, hlookup⟩ := h.holds commandId nodeId ack hpublished
    refine ⟨hids, nowUs, (hframe _ ?_).trans hlookup⟩
    rintro rfl
    rw [startsWith, Bool.eq_false_iff, ne_eq, List.isPrefixOf_iff_prefix, toList_ackKey] at hown
    exact hown (List.prefix_append _ _)

theorem Faithful.publish (h : s.Faithful) {ack : CommandAcknowledgment} (nowUs : Nat)
    (hplain : PlainAck ack.commandId ack.nodeId) :
    (s.step (.publishAcknowledgment ack nowUs)).Faithful where
  stored key message hlookup hstart := by
    have hstore := (lookup_insert_eq_ite s.storage.store (ackKey ack.commandId ack.nodeId) key
      (.acknowledgment ack nowUs)).symm.trans hlookup
    split at hstore
    · rename_i e
      cases hstore
      exact ⟨ack, nowUs, rfl, e, hplain, Function.update_self _ _ _⟩
    · rename_i e
      obtain ⟨a, at', hmessage, hkey, hp, hpublished⟩ := h.stored key message hstore hstart
      refine ⟨a, at', hmessage, hkey, hp, ?_⟩
      show Function.update s.published (ack.commandId, ack.nodeId) (some ack) _ = some a
      rw [Function.update_of_ne, hpublished]
      intro hids
      obtain ⟨hc, hn⟩ := Prod.mk.inj hids
      exact e (by rw [hkey, hc, hn])
  holds commandId nodeId a hpublished := by
    have hupdate : Function.update s.published (ack.commandId, ack.nodeId) (some ack)
        (commandId, nodeId) = some a := hpublished
    rw [Function.update_apply] at hupdate
    split at hupdate
    · rename_i e
      cases e
      cases hupdate
      exact ⟨⟨rfl, rfl⟩, nowUs, AList.lookup_insert _⟩
    · rename_i e
      obtain ⟨hids, at', hlookup⟩ := h.holds commandId nodeId a hupdate
      refine ⟨hids, at', (AList.lookup_insert_ne fun hkey => e ?_).trans hlookup⟩
      obtain ⟨hc, hn⟩ := (ackKey_inj hplain).mp hkey.symm
      exact Prod.ext hc.symm hn.symm

theorem Faithful.step (h : s.Faithful) {op : Op} (hclear : s.Clear op) : (s.step op).Faithful := by
  cases op with
  | publishAcknowledgment ack nowUs => exact h.publish nowUs hclear
  | publishCommand command nowUs =>
    exact h.frame (not_startsWith_commandKey command.commandId) fun _ => AList.lookup_insert_ne
  | deleteCommand commandId =>
    exact h.frame (not_startsWith_commandKey commandId) fun _ => AList.lookup_erase_ne
  | updateCommandStatus status nowUs =>
    exact h.frame (not_startsWith_statusKey status.commandId) fun _ => AList.lookup_insert_ne

theorem Faithful.clear_of_lawful (h : s.Faithful) {op : Op} (hlaw : (s.step op).Lawful) :
    s.Clear op := by
  cases op with
  | publishAcknowledgment ack nowUs =>
    by_contra hnot
    obtain ⟨c, hne, hstart⟩ := exists_startsWith_ackKey hnot
    have hshown := (hlaw.answers c ack).mp
      (AutomergeCommandStorage.mem_getAcknowledgments.mpr ⟨_, nowUs, AList.lookup_insert _, hstart⟩)
    have hother : (c, ack.nodeId) ≠ (ack.commandId, ack.nodeId) := fun e => hne (Prod.ext_iff.mp e).1
    have hold : s.published (c, ack.nodeId) = some ack :=
      (Function.update_of_ne hother _ _).symm.trans hshown
    exact hne (h.holds c ack.nodeId ack hold).1.1.symm
  | publishCommand command nowUs => trivial
  | deleteCommand commandId => trivial
  | updateCommandStatus status nowUs => trivial

/-! ## 5. Whole runs -/

theorem faithful_start : start.Faithful where
  stored key _ hlookup := nomatch (AList.lookup_empty key).symm.trans hlookup
  holds _ _ _ hpublished := nomatch hpublished

/-- **The acknowledgment store law** holds in every state of a run exactly when no acknowledgment is
    published with a dash in its command id or its node id. -/
theorem acknowledgments_lawful_iff (ops : List Op) :
    (∀ pre, pre <+: ops → (run step start pre).Lawful) ↔ RunMeets step Clear start ops :=
  run_within_iff_of_stronger Lawful Faithful (fun _ h => h.lawful) (fun _ _ h hclear => h.step hclear)
    (fun _ _ h hlaw => h.clear_of_lawful hlaw) faithful_start

/-- **An acknowledgment of another command**: what "node-1" acknowledged for "cmd" is handed out for
    the command "cmd-node". -/
theorem dash_shows_elsewhere :
    let ack : CommandAcknowledgment := ⟨"cmd", "node-1", 1, none, none⟩
    let s := run step start [.publishAcknowledgment ack 0]
    s.storage.getAcknowledgments "cmd-node" = [ack] ∧ s.published ("cmd-node", "node-1") = none ∧
      ¬ s.Lawful := by
  refine ⟨by decide +kernel, by decide +kernel, fun h => ?_⟩
  have hshown := (h.answers "cmd-node" ⟨"cmd", "node-1", 1, none, none⟩).mp (by decide +kernel)
  exact absurd hshown (by decide +kernel)

end AckPublications

end Peat.Storage
