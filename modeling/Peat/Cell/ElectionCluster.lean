/-
  DO THE NODES OF A CELL AGREE ON A LEADER?

  Nodes start the election of round 1 and announcements are delivered, in any order and
  with any repetition. A candidate follows the FIRST announcement of a greater id and
  ignores the rest.
-/
import Peat.Cell.LeaderElection
import Mathlib.Data.Finset.Basic

namespace Peat.Cell

open Peat.Lib LeaderElectionManager

/-! ## 1. The cluster -/

abbrev Cluster := String → LeaderElectionManager

inductive ClusterOp where
  | start (node : String) (clock : Clock)
  | deliver (message : CellMessage) (dest : String) (instant : Nat)

namespace ClusterOp

def onNode (n : String) : ClusterOp → Option ElectionOp
  | .start node clock => if node = n then some (.startElection clock) else none
  | .deliver message dest instant =>
    if dest = n then some (.processElectionMessage message instant) else none

def Starts (n : String) : ClusterOp → Bool
  | .start node _ => node = n
  | .deliver _ _ _ => false

def Delivers (m : CellMessage) (n : String) : ClusterOp → Bool
  | .start _ _ => false
  | .deliver message dest _ => message = m && dest = n

end ClusterOp

namespace Cluster

def new (cellId : String) (capabilities : String → List Capability) (now : String → Nat) : Cluster :=
  fun n => .new cellId n (CellMessageBus.new cellId n) (capabilities n) (now n)

def step (c : Cluster) : ClusterOp → Cluster
  | .start node clock => Function.update c node ((c node).startElection clock)
  | .deliver message dest instant =>
    Function.update c dest ((c dest).processElectionMessage message instant)

/-- A node of the cluster starts, or gets a message that another one has sent. -/
def Legal (ids : Finset String) (c : Cluster) : ClusterOp → Prop
  | .start node _ => node ∈ ids
  | .deliver message dest _ =>
    dest ∈ ids ∧ message.sender ≠ dest ∧ ∃ n ∈ ids, message ∈ (c n).messageBus.outboundQueue

instance (ids : Finset String) (c : Cluster) (op : ClusterOp) : Decidable (Legal ids c op) := by
  unfold Legal
  split <;> infer_instance

/-- Every node has started, and every message has reached all others. -/
def Complete (ids : Finset String) (ops : List ClusterOp) (c : Cluster) : Prop :=
  (∀ n ∈ ids, ∃ op ∈ ops, op.Starts n) ∧
  ∀ n ∈ ids, ∀ m ∈ (c n).messageBus.outboundQueue, ∀ dest ∈ ids, dest ≠ m.sender →
    ∃ op ∈ ops, op.Delivers m dest

/-- All but the top node follow it. -/
def Agreed (ids : Finset String) (top : String) (c : Cluster) : Prop :=
  ∀ n ∈ ids, n ≠ top → (c n).getState = .follower ∧ (c n).getLeader = some top

def heard (n : String) (ops : List ClusterOp) : List String :=
  ((ops.filterMap (ClusterOp.onNode n)).filterMap ElectionOp.announced).map Prod.fst

theorem step_apply (c : Cluster) (op : ClusterOp) (n : String) :
    step c op n = (op.onNode n).elim (c n) (c n).act := by
  cases op with
  | start node clock =>
    by_cases e : node = n
    · subst e
      simp [step, ClusterOp.onNode, act]
    · simp [step, ClusterOp.onNode, e, Function.update_of_ne (Ne.symm e)]
  | deliver message dest instant =>
    by_cases e : dest = n
    · subst e
      simp [step, ClusterOp.onNode, act]
    · simp [step, ClusterOp.onNode, e, Function.update_of_ne (Ne.symm e)]

theorem apply_run (c : Cluster) (ops : List ClusterOp) (n : String) :
    run step c ops n = run act (c n) (ops.filterMap (ClusterOp.onNode n)) :=
  run_filterMap (fun c : Cluster => c n) (ClusterOp.onNode n) (fun c op => step_apply c op n) ops

/-! ## 2. What one node makes of what it hears -/

def Follows (m : LeaderElectionManager) : Option String → Prop
  | none => m.state = .candidate
  | some l => m.state = .follower ∧ m.currentLeader = some l

def FirstRound (op : ElectionOp) : Prop :=
  (∃ clock, op = .startElection clock) ∨
  ∃ message instant leaderId, op = .processElectionMessage message instant ∧
    message.payload = .leaderAnnounce leaderId 1

def greater (n : String) (op : ElectionOp) : Option String :=
  (op.announced.map Prod.fst).filter fun l => n < l

variable {m : LeaderElectionManager} {op : ElectionOp}

theorem getRound_act_firstRound (hop : FirstRound op) : (m.act op).getRound = m.getRound := by
  rw [getRound_act, if_neg]
  rcases hop with ⟨clock, rfl⟩ | ⟨message, instant, leaderId, rfl, _⟩ <;> exact id

theorem follows_act {o : Option String} (hm : Follows m o) (hr : m.getRound = 1)
    (hop : FirstRound op) : Follows (m.act op) (o.or (greater m.nodeId op)) := by
  rcases hop with ⟨clock, rfl⟩ | ⟨message, instant, leaderId, rfl, hp⟩
  · cases o <;> exact hm
  · have hg : greater m.nodeId (.processElectionMessage message instant) =
        if m.nodeId < leaderId then some leaderId else none := by
      dsimp only [greater, ElectionOp.announced]
      rw [hp]
      exact if_congr decide_eq_true_iff rfl rfl
    have hact : m.act (.processElectionMessage message instant) =
        m.handleLeaderAnnounce leaderId 1 instant := by
      dsimp only [act, processElectionMessage]
      rw [hp]
    have hround : m.getRound ≤ 1 := by
      rw [hr]
      exact UInt32.le_refl 1
    rw [hact, hg]
    cases o with
    | some l =>
      -- a follower ignores every further announcement
      rcases m.handleLeaderAnnounce_cases leaderId 1 instant with ⟨_, h⟩ | ⟨⟨_, hs, _⟩, _⟩
      · rw [h]
        exact hm
      · exact (nomatch hs.symm.trans hm.1)
    | none =>
      rcases m.handleLeaderAnnounce_cases leaderId 1 instant with ⟨hno, h⟩ | ⟨⟨_, _, hid⟩, h⟩
      · rw [h, if_neg fun hid => hno ⟨hround, hm, hid⟩]
        exact hm
      · rw [h, if_pos hid]
        exact ⟨rfl, rfl⟩

variable {ops : List ElectionOp} {n : String} {ids : Finset String} {c : Cluster}

theorem round_run (hr : m.getRound = 1) (hops : ∀ op ∈ ops, FirstRound op) :
    (run act m ops).getRound = 1 ∧ (run act m ops).nodeId = m.nodeId := by
  refine runMeets_invariant (C := fun _ op => FirstRound op)
    (fun m' : LeaderElectionManager => m'.getRound = 1 ∧ m'.nodeId = m.nodeId)
    (fun m' op hop h => ⟨(getRound_act_firstRound hop).trans h.1, (nodeId_act m' op).trans h.2⟩)
    (runMeets_iff.mpr ?_) ⟨hr, rfl⟩
  rintro pre op post rfl
  exact hops op (List.mem_append_right _ List.mem_cons_self)

theorem follows_run (hm : m.state = .candidate) (hr : m.getRound = 1)
    (hops : ∀ op ∈ ops, FirstRound op) :
    Follows (run act m ops)
      (((ops.filterMap ElectionOp.announced).map Prod.fst).find? fun l => m.nodeId < l) := by
  induction ops using List.reverseRecOn with
  | nil => exact hm
  | append_singleton ops op ih =>
    have hops' : ∀ op ∈ ops, FirstRound op := fun o ho => hops o (List.mem_append_left _ ho)
    obtain ⟨hround, hid⟩ := round_run hr hops'
    have hlast : (([op].filterMap ElectionOp.announced).map Prod.fst).find? (fun l => m.nodeId < l) =
        greater m.nodeId op := by
      cases ha : op.announced with
      | none => simp [greater, ha]
      | some a =>
        rw [List.filterMap_cons_some ha, List.filterMap_nil, List.map_singleton,
          List.find?_singleton, greater, ha]
        rfl
    rw [run_concat, List.filterMap_append, List.map_append, List.find?_append, hlast, ← hid]
    rw [← hid] at ih
    exact follows_act (ih hops') hround (hops op (List.mem_append_right _ (List.mem_singleton_self op)))

/-! ## 3. What is on the way -/

structure Announcing (n : String) (m : LeaderElectionManager) : Prop where
  bus_id : m.messageBus.nodeId = n
  id : m.nodeId = n
  round : m.getRound = 1
  queue : ∀ msg ∈ m.messageBus.outboundQueue, msg.sender = n ∧ msg.payload = .leaderAnnounce n 1

theorem messageBus_processElectionMessage (m : LeaderElectionManager) (message : CellMessage)
    (instant : Nat) :
    (m.act (.processElectionMessage message instant)).messageBus = m.messageBus :=
  (m.processElectionMessage_frame message instant).2

theorem announcing_act (hm : Announcing n m) (hop : FirstRound op) : Announcing n (m.act op) := by
  have hid := (nodeId_act m op).trans hm.id
  have hround := (getRound_act_firstRound hop).trans hm.round
  rcases hop with ⟨clock, rfl⟩ | ⟨message, instant, leaderId, rfl, _⟩
  · refine ⟨hm.bus_id, hid, hround, fun msg hmsg => ?_⟩
    rcases CellMessageBus.mem_queue_publish.mp hmsg with h | rfl
    · exact hm.queue msg h
    · refine ⟨hm.bus_id, ?_⟩
      show CellMessageType.leaderAnnounce m.nodeId m.getRound = _
      rw [hm.id, hm.round]
  · have hbus := messageBus_processElectionMessage m message instant
    refine ⟨?_, hid, hround, ?_⟩
    · exact (congrArg CellMessageBus.nodeId hbus).trans hm.bus_id
    · rw [hbus]
      exact hm.queue

def BringsFirstRound (op : ClusterOp) : Prop := ∀ n e, op.onNode n = some e → FirstRound e

theorem bringsFirstRound_of_legal (hc : ∀ n, Announcing n (c n)) {op : ClusterOp}
    (hop : Legal ids c op) : BringsFirstRound op := by
  intro n e he
  cases op with
  | start node clock =>
    obtain ⟨_, he⟩ := Option.ite_none_right_eq_some.mp he
    exact .inl ⟨clock, (Option.some.inj he).symm⟩
  | deliver message dest instant =>
    obtain ⟨_, _, k, _, hk⟩ := hop
    obtain ⟨_, he⟩ := Option.ite_none_right_eq_some.mp he
    exact .inr ⟨message, instant, k, (Option.some.inj he).symm, ((hc k).queue message hk).2⟩

theorem announcing_step (hc : ∀ n, Announcing n (c n)) {op : ClusterOp} (hop : Legal ids c op)
    (n : String) : Announcing n (step c op n) := by
  rw [step_apply]
  cases he : op.onNode n with
  | none => exact hc n
  | some e => exact announcing_act (hc n) (bringsFirstRound_of_legal hc hop n e he)

theorem queue_subset_act (m : LeaderElectionManager) (op : ElectionOp) :
    m.messageBus.outboundQueue ⊆ (m.act op).messageBus.outboundQueue := by
  intro msg hmsg
  cases op with
  | startElection clock => exact CellMessageBus.mem_queue_publish.mpr (.inl hmsg)
  | setAsLeader => exact hmsg
  | processElectionMessage message instant =>
    rw [messageBus_processElectionMessage]
    exact hmsg
  | sendHeartbeatIfLeader clock =>
    show msg ∈ (m.sendHeartbeatIfLeader clock).messageBus.outboundQueue
    unfold sendHeartbeatIfLeader
    split
    · exact CellMessageBus.mem_queue_publish.mpr (.inl hmsg)
    · exact hmsg
  | checkLeaderFailure clock =>
    show msg ∈ (m.checkLeaderFailure clock).1.messageBus.outboundQueue
    unfold checkLeaderFailure
    split
    · split
      · exact CellMessageBus.mem_queue_publish.mpr (.inl hmsg)
      · exact hmsg
    · exact hmsg

theorem queue_of_started {ops : List ClusterOp} (h : ∃ op ∈ ops, op.Starts n) :
    ∃ msg, msg ∈ (run step c ops n).messageBus.outboundQueue := by
  obtain ⟨op, hop, hs⟩ := h
  obtain ⟨pre, post, rfl⟩ := List.append_of_mem hop
  cases op with
  | deliver _ _ _ => cases hs
  | start node clock =>
    obtain rfl : node = n := of_decide_eq_true hs
    rw [run_append, run_cons, apply_run, step_apply, ClusterOp.onNode, if_pos rfl]
    refine run_invariant (fun m : LeaderElectionManager => ∃ msg, msg ∈ m.messageBus.outboundQueue)
      (fun m op ⟨msg, h⟩ => ⟨msg, queue_subset_act m op h⟩) ?_ _
    exact ⟨_, CellMessageBus.mem_queue_publish.mpr (.inr rfl)⟩

theorem mem_heard {ops : List ClusterOp} {m : CellMessage} {leaderId : String}
    (hp : m.payload = .leaderAnnounce leaderId 1) (h : ∃ op ∈ ops, op.Delivers m n) :
    leaderId ∈ heard n ops := by
  obtain ⟨op, hop, hd⟩ := h
  cases op with
  | start _ _ => cases hd
  | deliver message dest instant =>
    obtain ⟨rfl, rfl⟩ : message = m ∧ dest = n := by simpa [ClusterOp.Delivers] using hd
    refine List.mem_map.mpr ⟨(leaderId, 1), List.mem_filterMap.mpr
      ⟨.processElectionMessage message instant, List.mem_filterMap.mpr ⟨_, hop, if_pos rfl⟩, ?_⟩, rfl⟩
    simp [ElectionOp.announced, hp]

/-! ## 4. Agreement -/

section Round

variable {cellId : String} {capabilities : String → List Capability} {now : String → Nat}
  {ids : Finset String} {ops : List ClusterOp}

theorem announcing_new (cellId : String) (capabilities : String → List Capability)
    (now : String → Nat) (n : String) : Announcing n (new cellId capabilities now n) :=
  ⟨rfl, rfl, rfl, fun _ h => (nomatch h)⟩

theorem announcing_run (hlegal : RunMeets step (Legal ids) (new cellId capabilities now) ops)
    (n : String) : Announcing n (run step (new cellId capabilities now) ops n) :=
  runMeets_invariant (fun c : Cluster => ∀ n, Announcing n (c n))
    (fun _ _ hl hc => announcing_step hc hl) hlegal (announcing_new cellId capabilities now) n

theorem firstRound_calls (hlegal : RunMeets step (Legal ids) (new cellId capabilities now) ops)
    (n : String) : ∀ e ∈ ops.filterMap (ClusterOp.onNode n), FirstRound e := by
  have hbrings : RunMeets step (fun _ op => BringsFirstRound op) (new cellId capabilities now) ops :=
    runMeets_weaken (fun c : Cluster => ∀ n, Announcing n (c n))
      (fun c op hl hc => ⟨bringsFirstRound_of_legal hc hl, announcing_step hc hl⟩)
      (announcing_new cellId capabilities now) hlegal
  intro e he
  obtain ⟨op, hop, hoe⟩ := List.mem_filterMap.mp he
  obtain ⟨pre, post, h⟩ := List.append_of_mem hop
  exact runMeets_iff.mp hbrings pre op post h n e hoe

theorem hears_top {top n : String}
    (hlegal : RunMeets step (Legal ids) (new cellId capabilities now) ops)
    (hall : Complete ids ops (run step (new cellId capabilities now) ops)) (htop : top ∈ ids)
    (hn : n ∈ ids) (hne : n ≠ top) : top ∈ heard n ops := by
  obtain ⟨msg, hmsg⟩ := queue_of_started (c := new cellId capabilities now) (hall.1 top htop)
  obtain ⟨hsender, hp⟩ := (announcing_run hlegal top).queue msg hmsg
  exact mem_heard hp (hall.2 top htop msg hmsg n hn (hsender ▸ hne))

end Round

/-- **When the nodes of a cell agree**: in every complete run of round 1, exactly when the first greater id
    that each node hears is the greatest. -/
theorem agreement_iff (cellId : String) (capabilities : String → List Capability)
    (now : String → Nat) (ids : Finset String) (top : String) (htop : top ∈ ids)
    (hmax : ∀ n ∈ ids, n ≤ top) (ops : List ClusterOp)
    (hlegal : RunMeets step (Legal ids) (new cellId capabilities now) ops)
    (hall : Complete ids ops (run step (new cellId capabilities now) ops)) :
    Agreed ids top (run step (new cellId capabilities now) ops) ↔
      ∀ n ∈ ids, n ≠ top → (heard n ops).find? (fun l => n < l) = some top := by
  refine forall₃_congr fun n hn hne => ?_
  have hlt : n < top := lt_of_le_of_ne (hmax n hn) hne
  -- what the node ended as, read off what it heard
  have hfollows := follows_run (m := new cellId capabilities now n) rfl rfl
    (firstRound_calls hlegal n)
  rw [← apply_run] at hfollows
  have hfind : (heard n ops).find? (fun l => n < l) ≠ none := fun hnone =>
    absurd (decide_eq_true hlt)
      (List.find?_eq_none.mp hnone top (hears_top hlegal hall htop hn hne))
  show _ ↔ (heard n ops).find? _ = _
  cases ho : (heard n ops).find? (fun l => n < l) with
  | none => exact absurd ho hfind
  | some l =>
    have hf : Follows (run step (new cellId capabilities now) ops n) (some l) := by
      rw [← ho]
      exact hfollows
    constructor
    · intro h
      rw [← h.2]
      exact hf.2.symm
    · intro h
      rw [← h]
      exact hf

def announced (n : String) : CellMessage :=
  CellMessage.new n "cell" 1 (.leaderAnnounce n 1) 0

def threeNodes (first second : String) : List ClusterOp :=
  [.start "a" ⟨0, 0⟩, .start "b" ⟨0, 0⟩, .start "c" ⟨0, 0⟩,
    .deliver (announced first) "a" 0, .deliver (announced second) "a" 0,
    .deliver (announced "a") "b" 0, .deliver (announced "c") "b" 0,
    .deliver (announced "a") "c" 0, .deliver (announced "b") "c" 0]

theorem agreement_iff_greatest_first :
    Agreed {"a", "b", "c"} "c" (run step (new "cell" (fun _ => []) fun _ => 0) (threeNodes "c" "b")) :=
  (agreement_iff "cell" (fun _ => []) (fun _ => 0) {"a", "b", "c"} "c" (by decide) (by decide)
    (threeNodes "c" "b") (by decide) (by unfold Complete; decide)).mpr (by decide)

/-- **Two leaders**: every announcement reaches every other node, but `a` hears `b` before `c` and
    stays a follower of `b`. -/
theorem agreement_lost :
    RunMeets step (Legal {"a", "b", "c"}) (new "cell" (fun _ => []) fun _ => 0) (threeNodes "b" "c") ∧
    Complete {"a", "b", "c"} (threeNodes "b" "c")
      (run step (new "cell" (fun _ => []) fun _ => 0) (threeNodes "b" "c")) ∧
    (run step (new "cell" (fun _ => []) fun _ => 0) (threeNodes "b" "c") "a").getLeader = some "b" ∧
    ¬ Agreed {"a", "b", "c"} "c"
      (run step (new "cell" (fun _ => []) fun _ => 0) (threeNodes "b" "c")) := by
  refine ⟨by decide, by unfold Complete; decide, by decide, fun h => ?_⟩
  exact absurd (h "a" (by decide) (by decide)).2 (by decide)

end Cluster

end Peat.Cell
