/-
  THE COMMAND COORDINATOR (command/coordinator.rs): issuing a command at its origin and
  receiving one from a higher tier.

  Clock readings and the answer of the storage are inputs. `issueCommand` is cut where
  the source awaits: the check, the four stores, the acknowledgment timeout, the
  publish.
-/
import Peat.Command.Routing
import Peat.Command.ConflictResolver
import Peat.Command.TimeoutManager

namespace Peat.Command

open Peat.Lib

/-! ## 1. The coordinator -/

structure CommandCoordinator where
  nodeId : String
  router : CommandRouter
  activeCommands : HashMap String HierarchicalCommand
  acknowledgments : HashMap (String × String) CommandAcknowledgment
  commandStatus : HashMap String CommandStatus
  conflictResolver : ConflictResolver
  timeoutManager : TimeoutManager

/-- Two clock readings and the answer of the storage. -/
structure IssueInput where
  statusAt : Nat
  ackAt : Nat
  published : Except Error String

namespace CommandCoordinator

def new (cellId : Option String) (nodeId : String) (cellMembers : List String) :
    CommandCoordinator where
  nodeId := nodeId
  router := ⟨nodeId, cellId, cellMembers, none⟩
  activeCommands := ∅
  acknowledgments := ∅
  commandStatus := ∅
  conflictResolver := .new
  timeoutManager := .new

def requiresAcknowledgment (cmd : HierarchicalCommand) : Bool := cmd.acknowledgmentPolicy > 1

def checkConflicts (c : CommandCoordinator) (cmd : HierarchicalCommand) : Except Error Unit :=
  match c.conflictResolver.checkConflict cmd with
  | .noConflict => .ok ()
  | .conflict existing =>
    match ConflictResolver.resolve (existing ++ [cmd]) cmd.policy with
    | .error e => .error e
    | .ok resolved =>
      if resolved.commandId ≠ cmd.commandId then
        .error (.internal "Command rejected by conflict resolution policy")
      else .ok ()

def registerExpiration (c : CommandCoordinator) (cmd : HierarchicalCommand) :
    Option CommandCoordinator :=
  (c.timeoutManager.tryRegisterExpiration cmd).map fun m => { c with timeoutManager := m }

def registerCommand (c : CommandCoordinator) (cmd : HierarchicalCommand) : CommandCoordinator :=
  { c with conflictResolver := c.conflictResolver.registerCommand cmd }

def storeActive (c : CommandCoordinator) (cmd : HierarchicalCommand) : CommandCoordinator :=
  { c with activeCommands := c.activeCommands.insert cmd.commandId cmd }

def pendingStatus (cmd : HierarchicalCommand) (now : Nat) : CommandStatus :=
  ⟨cmd.commandId, 1, [], some ⟨now, 0⟩⟩

def createStatus (c : CommandCoordinator) (cmd : HierarchicalCommand) (now : Nat) :
    CommandCoordinator :=
  { c with commandStatus := c.commandStatus.insert cmd.commandId (pendingStatus cmd now) }

def routingTargets (c : CommandCoordinator) (cmd : HierarchicalCommand) : List String :=
  CommandRouter.getRoutingTargets (c.router.resolveTarget cmd)

def ackTimeout : Nat := 30000000000

def setupAckTimeout (c : CommandCoordinator) (cmd : HierarchicalCommand) (now : Nat) :
    CommandCoordinator :=
  if requiresAcknowledgment cmd ∧ c.routingTargets cmd ≠ [] then
    { c with
      timeoutManager :=
        c.timeoutManager.registerAckTimeout cmd.commandId (c.routingTargets cmd) ackTimeout now }
  else c

def routeCommand (c : CommandCoordinator) (cmd : HierarchicalCommand)
    (published : Except Error String) : Except Error Unit :=
  if CommandRouter.shouldRoute (c.router.resolveTarget cmd) then published.map fun _ => () else .ok ()

def writeStores (c : CommandCoordinator) (cmd : HierarchicalCommand) (io : IssueInput) :
    CommandCoordinator :=
  (((c.registerCommand cmd).storeActive cmd).createStatus cmd io.statusAt).setupAckTimeout cmd io.ackAt

/-- What the call returns, `none` for the panic of `register_expiration`, and the coordinator after it. -/
def issueCommand (c : CommandCoordinator) (cmd : HierarchicalCommand) (io : IssueInput) :
    Option (Except Error Unit) × CommandCoordinator :=
  match c.checkConflicts cmd with
  | .error e => (some (.error e), c)
  | .ok () =>
    match c.registerExpiration cmd with
    | none => (none, c)
    | some c' => (some (c'.routeCommand cmd io.published), c'.writeStores cmd io)

/-! ## 2. Failed calls -/

theorem checkConflicts_ok_iff (c : CommandCoordinator) (cmd : HierarchicalCommand) :
    c.checkConflicts cmd = .ok () ↔ ¬ c.conflictResolver.Loses cmd := by
  unfold checkConflicts ConflictResolver.checkConflict
  by_cases hc : c.conflictResolver.conflicting cmd = []
  · rw [hc]
    exact iff_of_true rfl fun h => h.1 hc
  · rw [if_neg (by simpa using hc), ← ConflictResolver.resolve_conflicting _ _ hc]
    dsimp only
    cases ConflictResolver.resolve (c.conflictResolver.conflicting cmd ++ [cmd]) cmd.policy with
    | error e => exact iff_of_false nofun fun ⟨_, hx, _⟩ => nomatch hx
    | ok resolved =>
      by_cases hid : resolved.commandId = cmd.commandId
      · exact iff_of_true (if_neg fun h => h hid) ⟨resolved, rfl, hid⟩
      · refine iff_of_false (fun h => ?_) fun ⟨x, hx, hxid⟩ => ?_
        · dsimp only at h
          rw [if_pos hid] at h
          nomatch h
        · cases hx
          exact hid hxid

/-- The five stores of `issue_command` read alike. -/
structure SameStores (c c' : CommandCoordinator) : Prop where
  activeCommands : ∀ id, c.activeCommands.lookup id = c'.activeCommands.lookup id
  commandStatus : ∀ id, c.commandStatus.lookup id = c'.commandStatus.lookup id
  conflictIndex : ∀ t, c.conflictResolver.targetCommands.lookup t =
    c'.conflictResolver.targetCommands.lookup t
  expiring : ∀ t, c.timeoutManager.expiringCommands.lookup t =
    c'.timeoutManager.expiringCommands.lookup t
  ackTimeouts : ∀ id, c.timeoutManager.ackTimeouts.lookup id = c'.timeoutManager.ackTimeouts.lookup id

/-- The call would write what is there: the command has no targets to index and no expiration time,
    and its other entries stand as the call would write them. -/
structure AlreadyIssued (c : CommandCoordinator) (cmd : HierarchicalCommand) (io : IssueInput) :
    Prop where
  active : c.activeCommands.lookup cmd.commandId = some cmd
  status : c.commandStatus.lookup cmd.commandId = some (pendingStatus cmd io.statusAt)
  targets : cmd.targetIds = []
  expires : cmd.expiresAt = none
  acks : cmd.acknowledgmentPolicy > 1 → c.timeoutManager.ackTimeouts.lookup cmd.commandId =
    some ⟨cmd.commandId, c.router.cellMembers, [], io.ackAt + ackTimeout⟩

section Issue

variable {c : CommandCoordinator} {cmd : HierarchicalCommand} {io : IssueInput}

theorem registerExpiration_eq_some_iff {c' : CommandCoordinator} :
    c.registerExpiration cmd = some c' ↔ TimeoutManager.Representable cmd ∧
      { c with timeoutManager := c.timeoutManager.registerExpiration cmd } = c' := by
  unfold registerExpiration
  simp only [Option.map_eq_some_iff, TimeoutManager.tryRegisterExpiration_eq_some_iff]
  constructor
  · rintro ⟨m, ⟨hrep, rfl⟩, rfl⟩
    exact ⟨hrep, rfl⟩
  · rintro ⟨hrep, rfl⟩
    exact ⟨_, ⟨hrep, rfl⟩, rfl⟩

def issuedTimeouts (c : CommandCoordinator) (cmd : HierarchicalCommand) (io : IssueInput) :
    TimeoutManager :=
  if requiresAcknowledgment cmd ∧ c.routingTargets cmd ≠ [] then
    c.timeoutManager.registerAckTimeout cmd.commandId (c.routingTargets cmd) ackTimeout io.ackAt
  else c.timeoutManager

theorem writeStores_eq (c : CommandCoordinator) (cmd : HierarchicalCommand) (io : IssueInput) :
    c.writeStores cmd io =
      { c with
        activeCommands := c.activeCommands.insert cmd.commandId cmd
        commandStatus := c.commandStatus.insert cmd.commandId (pendingStatus cmd io.statusAt)
        conflictResolver := c.conflictResolver.registerCommand cmd
        timeoutManager := c.issuedTimeouts cmd io } := by
  unfold writeStores setupAckTimeout issuedTimeouts
  show (if requiresAcknowledgment cmd ∧ c.routingTargets cmd ≠ [] then _ else _) = _
  split <;> rfl

theorem expiringCommands_issuedTimeouts :
    (c.issuedTimeouts cmd io).expiringCommands = c.timeoutManager.expiringCommands := by
  unfold issuedTimeouts
  split <;> rfl

theorem ackTimeouts_issuedTimeouts_iff (hids : cmd.targetIds = []) (hroute : c.router.RoutesOn cmd) :
    (∀ id, (c.issuedTimeouts cmd io).ackTimeouts.lookup id = c.timeoutManager.ackTimeouts.lookup id) ↔
      (cmd.acknowledgmentPolicy > 1 → c.timeoutManager.ackTimeouts.lookup cmd.commandId =
        some ⟨cmd.commandId, c.router.cellMembers, [], io.ackAt + ackTimeout⟩) := by
  obtain ⟨htargets, hne⟩ := CommandRouter.routingTargets_of_no_ids hids hroute
  unfold issuedTimeouts
  rw [routingTargets, htargets]
  by_cases hreq : cmd.acknowledgmentPolicy > 1
  · rw [if_pos ⟨decide_eq_true hreq, hne⟩, forall_prop_of_true hreq, ← lookup_insert_same_iff]
    rfl
  · rw [if_neg fun h => hreq (of_decide_eq_true h.1)]
    exact iff_of_true (fun _ => rfl) fun h => absurd h hreq

theorem sameStores_writeStores_iff {c' : CommandCoordinator} (hroute : c.router.RoutesOn cmd)
    (hreg : c.registerExpiration cmd = some c') :
    SameStores (c'.writeStores cmd io) c ↔ c.AlreadyIssued cmd io := by
  obtain ⟨_, rfl⟩ := registerExpiration_eq_some_iff.mp hreg
  have hexp := c.timeoutManager.registerExpiration_lookup_iff cmd
  have hacks := c.timeoutManager.ackTimeouts_registerExpiration cmd
  -- the coordinator differs from `c` in the expiration buckets only
  have hissued := @ackTimeouts_issuedTimeouts_iff
    { c with timeoutManager := c.timeoutManager.registerExpiration cmd } cmd io
  rw [hacks] at hissued
  rw [writeStores_eq]
  constructor
  · intro h
    have hids := (c.conflictResolver.registerCommand_lookup_iff cmd).mp h.conflictIndex
    have hsame := h.expiring
    rw [expiringCommands_issuedTimeouts] at hsame
    exact ⟨(lookup_insert_same_iff _ _ _).mp h.activeCommands,
      (lookup_insert_same_iff _ _ _).mp h.commandStatus, hids, hexp.mp hsame,
      (hissued hids hroute).mp h.ackTimeouts⟩
  · intro h
    have hsame := hexp.mpr h.expires
    refine ⟨(lookup_insert_same_iff _ _ _).mpr h.active, (lookup_insert_same_iff _ _ _).mpr h.status,
      (c.conflictResolver.registerCommand_lookup_iff cmd).mpr h.targets, ?_,
      (hissued h.targets hroute).mpr h.acks⟩
    rw [expiringCommands_issuedTimeouts]
    exact hsame

/-- **Failed calls** leave the stores as they were exactly when the command loses the conflict, has an
    expiry that panics, is not routed, is accepted by the storage, or was issued already. -/
theorem issue_atomic_iff (c : CommandCoordinator) (cmd : HierarchicalCommand) (io : IssueInput) :
    ((∃ e, (c.issueCommand cmd io).1 = some (.error e)) → SameStores (c.issueCommand cmd io).2 c) ↔
      c.conflictResolver.Loses cmd ∨ ¬ TimeoutManager.Representable cmd ∨ ¬ c.router.RoutesOn cmd ∨
        (∃ docId, io.published = .ok docId) ∨ c.AlreadyIssued cmd io := by
  unfold issueCommand
  by_cases hlose : c.conflictResolver.Loses cmd
  · cases hcheck : c.checkConflicts cmd with
    | ok u => exact absurd hlose ((c.checkConflicts_ok_iff cmd).mp hcheck)
    | error e =>
      have hsame : SameStores c c := ⟨fun _ => rfl, fun _ => rfl, fun _ => rfl, fun _ => rfl, fun _ => rfl⟩
      exact iff_of_true (fun _ => hsame) (.inl hlose)
  · rw [(c.checkConflicts_ok_iff cmd).mpr hlose, or_iff_right hlose]
    dsimp only
    cases hreg : c.registerExpiration cmd with
    | none =>
      refine iff_of_true (fun ⟨e, h⟩ => nomatch h) (.inl fun hrep => ?_)
      rw [registerExpiration_eq_some_iff.mpr ⟨hrep, rfl⟩] at hreg
      nomatch hreg
    | some c' =>
      obtain ⟨hrep, hc'⟩ := registerExpiration_eq_some_iff.mp hreg
      have hrouter : c'.router = c.router := hc' ▸ rfl
      rw [or_iff_right fun h => h hrep]
      dsimp only
      by_cases hroute : c.router.RoutesOn cmd
      · rw [sameStores_writeStores_iff hroute hreg, or_iff_right fun h => h hroute, routeCommand,
          hrouter, if_pos (CommandRouter.shouldRoute_iff.mpr hroute)]
        cases io.published with
        | ok docId => exact iff_of_true (fun ⟨e, h⟩ => nomatch h) (.inl ⟨docId, rfl⟩)
        | error e =>
          rw [or_iff_right fun ⟨docId, h⟩ => nomatch h]
          exact forall_prop_of_true ⟨e, rfl⟩
      · refine iff_of_true (fun ⟨e, h⟩ => ?_) (.inl hroute)
        rw [routeCommand, hrouter,
          if_neg fun h => hroute (CommandRouter.shouldRoute_iff.mp h)] at h
        nomatch h

end Issue

def leader : CommandCoordinator := .new (some "cell-1") "n1" ["n2"]

def sampleCommand (id : String) (scope : Scope) (targetIds : List String) : HierarchicalCommand :=
  { commandId := id, originatorId := "zone-1", target := some ⟨scope.toI32, targetIds⟩,
    commandType := none, priority := 1, bufferPolicy := 1, conflictPolicy := 2,
    acknowledgmentPolicy := 1, leaderChangePolicy := 1, issuedAt := some ⟨10, 0⟩, expiresAt := none,
    version := 1 }

/-- **A failed publish leaves its traces**: the caller gets the storage's error, and the command is
    active, pending and indexed. -/
theorem failed_publish_leaves_command :
    let cmd := sampleCommand "cmd-1" .individual ["n2"]
    let r := leader.issueCommand cmd ⟨100, 100, .error (.storage "offline")⟩
    r.1 = some (.error (.storage "offline")) ∧ leader.activeCommands.lookup "cmd-1" = none ∧
      r.2.activeCommands.lookup "cmd-1" = some cmd ∧
      r.2.commandStatus.lookup "cmd-1" = some (pendingStatus cmd 100) ∧
      r.2.conflictResolver.commandsFor "n2" = [cmd] ∧ ¬ SameStores r.2 leader := by
  have hact : (leader.issueCommand (sampleCommand "cmd-1" .individual ["n2"])
      ⟨100, 100, .error (.storage "offline")⟩).2.activeCommands.lookup "cmd-1" =
        some (sampleCommand "cmd-1" .individual ["n2"]) := by decide
  refine ⟨by decide, by decide, hact, by decide, by decide, fun h => ?_⟩
  have hsame := h.activeCommands "cmd-1"
  rw [hact] at hsame
  nomatch hsame

/-! ## 3. Received commands -/

structure ReceiveInput where
  executedAt : Nat
  acknowledgedAt : Nat
  published : Except Error String
  ackPublished : Except Error String

inductive Effect where
  | executed (commandId : String)
  | routed (commandId : String) (targets : List String)
  | acknowledged (ack : CommandAcknowledgment)
  deriving DecidableEq, Repr

def executeCommand (c : CommandCoordinator) (cmd : HierarchicalCommand) (now : Nat) :
    CommandCoordinator :=
  let executing : CommandStatus :=
    match c.commandStatus.lookup cmd.commandId with
    | some status => { status with state := 2 }
    | none => ⟨cmd.commandId, 2, [], some ⟨now, 0⟩⟩
  { c with commandStatus := c.commandStatus.insert cmd.commandId { executing with state := 3 } }

def acknowledgment (c : CommandCoordinator) (cmd : HierarchicalCommand) (status : Int) (now : Nat) :
    CommandAcknowledgment := ⟨cmd.commandId, c.nodeId, status, none, some ⟨now, 0⟩⟩

def sendAcknowledgment (c : CommandCoordinator) (cmd : HierarchicalCommand) (status : Int)
    (now : Nat) (published : Except Error String) : Except Error Unit × CommandCoordinator :=
  match published with
  | .error e => (.error e, c)
  | .ok _ =>
    let recorded := c.timeoutManager.recordAck cmd.commandId c.nodeId
    (.ok (),
      { c with
        acknowledgments := c.acknowledgments.insert (cmd.commandId, c.nodeId)
          (c.acknowledgment cmd status now)
        timeoutManager :=
          if recorded.1 then recorded.2.unregisterAckTimeout cmd.commandId else recorded.2 })

def getCommandAcknowledgments (c : CommandCoordinator) (commandId : String) :
    List CommandAcknowledgment :=
  (c.acknowledgments.entries.filter fun e => e.1.1 = commandId).map Sigma.snd

def isCommandAcknowledged (c : CommandCoordinator) (commandId : String) : Bool :=
  match c.activeCommands.lookup commandId with
  | none => false
  | some cmd =>
    if (c.routingTargets cmd).isEmpty then true
    else (c.routingTargets cmd).all fun t =>
      ((c.getCommandAcknowledgments commandId).map CommandAcknowledgment.nodeId).contains t

def receiveCommand (c : CommandCoordinator) (cmd : HierarchicalCommand) (io : ReceiveInput) :
    Except Error Unit × CommandCoordinator × List Effect :=
  match c.router.resolveTarget cmd with
  | .self =>
    let executed := c.executeCommand cmd io.executedAt
    if requiresAcknowledgment cmd then
      -- 1 is `ACK_RECEIVED`
      let sent := executed.sendAcknowledgment cmd 1 io.acknowledgedAt io.ackPublished
      (sent.1, sent.2,
        [.executed cmd.commandId, .acknowledged (executed.acknowledgment cmd 1 io.acknowledgedAt)])
    else (.ok (), executed, [.executed cmd.commandId])
  | .subordinates nodes => (c.routeCommand cmd io.published, c, [.routed cmd.commandId nodes])
  | .allCellMembers nodes => (c.routeCommand cmd io.published, c, [.routed cmd.commandId nodes])
  | .notApplicable => (.ok (), c, [])

/-- **Every addressed node gets the command**: this one executes it, the others are routing targets. -/
structure Reaches (c : CommandCoordinator) (cmd : HierarchicalCommand) (effects : List Effect) :
    Prop where
  executes : c.router.Addressed cmd c.router.nodeId → .executed cmd.commandId ∈ effects
  routes : ∀ m ∈ c.router.cellMembers, m ≠ c.router.nodeId → c.router.Addressed cmd m →
    ∃ targets, .routed cmd.commandId targets ∈ effects ∧ m ∈ targets

section Receive

variable {c : CommandCoordinator} {cmd : HierarchicalCommand} (io : ReceiveInput)

theorem effects_self (h : c.router.resolveTarget cmd = .self) :
    .executed cmd.commandId ∈ (c.receiveCommand cmd io).2.2 ∧
      ∀ targets, .routed cmd.commandId targets ∉ (c.receiveCommand cmd io).2.2 := by
  unfold receiveCommand
  rw [h]
  dsimp only
  split
  · exact ⟨List.mem_cons_self, fun targets ht => by simp at ht⟩
  · exact ⟨List.mem_cons_self, fun targets ht => by simp at ht⟩

theorem effects_of_ne_self (h : c.router.resolveTarget cmd ≠ .self) :
    .executed cmd.commandId ∉ (c.receiveCommand cmd io).2.2 ∧
      ∀ m ∈ c.routingTargets cmd,
        ∃ targets, .routed cmd.commandId targets ∈ (c.receiveCommand cmd io).2.2 ∧ m ∈ targets := by
  unfold receiveCommand routingTargets
  cases hr : c.router.resolveTarget cmd with
  | self => exact absurd hr h
  | subordinates nodes => exact ⟨by simp, fun m hm => ⟨nodes, List.mem_cons_self, hm⟩⟩
  | allCellMembers nodes => exact ⟨by simp, fun m hm => ⟨nodes, List.mem_cons_self, hm⟩⟩
  | notApplicable => exact ⟨List.not_mem_nil, fun m hm => nomatch hm⟩

theorem reaches_individual_iff (hs : cmd.scope = .individual) :
    c.Reaches cmd (c.receiveCommand cmd io).2.2 ↔ ¬ (c.router.nodeId ∈ cmd.targetIds ∧
      ∃ m ∈ c.router.cellMembers, m ≠ c.router.nodeId ∧ m ∈ cmd.targetIds) := by
  have haddr : ∀ n, c.router.Addressed cmd n ↔ n ∈ cmd.targetIds := fun n => by
    unfold CommandRouter.Addressed
    rw [or_iff_left fun h => CommandRouter.scope_covers_ne_individual h hs, and_iff_right hs]
  have hres := CommandRouter.resolveTarget_individual (r := c.router) hs
  by_cases hself : c.router.nodeId ∈ cmd.targetIds
  · rw [if_pos hself] at hres
    obtain ⟨hexec, hno⟩ := effects_self io hres
    rw [and_iff_right hself]
    constructor
    · rintro h ⟨m, hm, hne, hlisted⟩
      obtain ⟨targets, ht, _⟩ := h.routes m hm hne ((haddr m).mpr hlisted)
      exact hno targets ht
    · intro h
      exact ⟨fun _ => hexec, fun m hm hne ha => absurd ⟨m, hm, hne, (haddr m).mp ha⟩ h⟩
  · have hlisted : ∀ m ∈ c.router.cellMembers, m ∈ cmd.targetIds → m ∈ c.routingTargets cmd := by
      intro m hm ht
      have hmem : m ∈ c.router.cellMembers.filter fun m => m ∈ cmd.targetIds :=
        List.mem_filter.mpr ⟨hm, decide_eq_true ht⟩
      rw [routingTargets, hres, if_neg hself, if_pos (List.ne_nil_of_mem hmem)]
      exact hmem
    have hne : c.router.resolveTarget cmd ≠ .self := by
      rw [hres, if_neg hself]
      split <;> nofun
    refine iff_of_true ⟨fun ha => absurd ((haddr _).mp ha) hself, fun m hm _ ha => ?_⟩
      fun h => hself h.1
    exact (effects_of_ne_self io hne).2 m (hlisted m hm ((haddr m).mp ha))

theorem reaches_group_iff (hc : c.router.Covers cmd) :
    c.Reaches cmd (c.receiveCommand cmd io).2.2 ↔ c.router.cellMembers = [] := by
  have hres := CommandRouter.resolveTarget_group hc
  unfold CommandRouter.resolveGroup at hres
  by_cases hm : c.router.cellMembers = []
  · rw [if_neg fun h => h hm] at hres
    refine iff_of_true ⟨fun _ => (effects_self io hres).1, fun m hmem => ?_⟩ hm
    rw [hm] at hmem
    nomatch hmem
  · rw [if_pos hm] at hres
    refine iff_of_false (fun h => ?_) hm
    exact (effects_of_ne_self io (by rw [hres]; nofun)).1 (h.executes (.inr hc))

/-- **Received commands** reach every addressed node exactly when this node is not the leader of others
    while its group is addressed, and is not listed itself along with another member. -/
theorem receive_reaches_iff (c : CommandCoordinator) (cmd : HierarchicalCommand) (io : ReceiveInput) :
    c.Reaches cmd (c.receiveCommand cmd io).2.2 ↔
      (c.router.Covers cmd → c.router.cellMembers = []) ∧
      ¬ (cmd.scope = .individual ∧ c.router.nodeId ∈ cmd.targetIds ∧
        ∃ m ∈ c.router.cellMembers, m ≠ c.router.nodeId ∧ m ∈ cmd.targetIds) := by
  by_cases hs : cmd.scope = .individual
  · rw [reaches_individual_iff io hs, and_iff_right hs]
    exact (and_iff_right fun hc => absurd hs (CommandRouter.scope_covers_ne_individual hc)).symm
  · rw [and_iff_left fun h => hs h.1]
    by_cases hc : c.router.Covers cmd
    · rw [reaches_group_iff io hc, forall_prop_of_true hc]
    · refine iff_of_true ?_ fun h => absurd h hc
      exact ⟨fun ha => ha.elim (fun h => absurd h.1 hs) (absurd · hc),
        fun m _ _ ha => ha.elim (fun h => absurd h.1 hs) (absurd · hc)⟩

end Receive

/-- **A leader does not execute its cell's commands**: it only routes them to the members. -/
theorem leader_does_not_execute :
    let cmd := sampleCommand "cmd-1" .cell ["cell-1"]
    let r := leader.receiveCommand cmd ⟨100, 100, .ok "doc-1", .ok "doc-2"⟩
    leader.router.Addressed cmd "n1" ∧ r.2.2 = [.routed "cmd-1" ["n2"]] ∧
      ¬ leader.Reaches cmd r.2.2 := by
  have haddr : leader.router.Addressed (sampleCommand "cmd-1" .cell ["cell-1"]) "n1" :=
    .inr (.inl ⟨rfl, "cell-1", rfl, List.mem_cons_self⟩)
  have heff : (leader.receiveCommand (sampleCommand "cmd-1" .cell ["cell-1"])
      ⟨100, 100, .ok "doc-1", .ok "doc-2"⟩).2.2 = [.routed "cmd-1" ["n2"]] := by decide
  refine ⟨haddr, heff, fun h => ?_⟩
  have hexec := h.executes haddr
  rw [heff] at hexec
  simp at hexec

end CommandCoordinator

end Peat.Command
