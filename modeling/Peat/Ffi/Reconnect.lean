/-
  THE RECONNECT PASS of peat-ffi/src/lib.rs: `run_supervisor_tick`, `on_peer_observed`
  and `wake_reconnect` over the policy of Supervisor.lean, and the dials they start,
  which report later.

  The roster and the connected peers are inputs of every call. Between any two accesses
  to the policy other passes and reports may come: a run is a list of such accesses
  (`ReconnectEvent`), and a whole pass is a list of them.
-/
import Peat.Lib.Run
import Peat.Ffi.Supervisor

namespace Peat.Ffi

open Peat.Lib

/-! ## 1. The calls -/

/-- The supervisor, the dials in flight and when peers were dialled. -/
structure ReconnectNode where
  supervisor : Supervisor
  dials : List (String × Nat)
  stamps : List (String × Nat)

namespace ReconnectNode

variable (hash : String → Nat)

/-- `run_supervisor_tick`'s `connected`: iroh's peers, and the members of the roster that are up
    on any transport. -/
def connectedSet (iroh : List String) (anyTransport : String → Bool) (roster : List String) :
    List String :=
  iroh ++ roster.filter fun id => decide (id ∉ iroh) && anyTransport id

def tryDialRosterPeer (n : ReconnectNode) (nodeId : String) (nowMs : Nat) : ReconnectNode :=
  { n with
    supervisor := n.supervisor.markConnecting nodeId nowMs
    dials := (nodeId, nowMs) :: n.dials }

def dialReported (n : ReconnectNode) (nodeId : String) (start : Nat) (ok : Bool) (nowMs : Nat) :
    ReconnectNode :=
  let dials := n.dials.erase (nodeId, start)
  if ok then ⟨n.supervisor.markConnected nodeId, dials, n.stamps ++ [(nodeId, nowMs)]⟩
  else ⟨n.supervisor.markFailed hash nodeId nowMs, dials, n.stamps⟩

def ground (n : ReconnectNode) (roster connected : List String) (nowMs : Nat) : ReconnectNode :=
  let r := n.supervisor.reconcile connected
  { n with
    supervisor := r.1
    stamps := n.stamps ++ (r.2.filter fun id => decide (id ∈ roster)).map (·, nowMs) }

def dialMember (connected : List String) (nowMs : Nat) (n : ReconnectNode) (nodeId : String) :
    ReconnectNode :=
  if nodeId ∈ connected then n
  else
    let r := n.supervisor.eligible nodeId nowMs
    let n := { n with supervisor := r.1 }
    if !r.2 then n else n.tryDialRosterPeer nodeId nowMs

def runSupervisorTick (n : ReconnectNode) (iroh : List String) (anyTransport : String → Bool)
    (roster : List String) (nowMs : Nat) : ReconnectNode :=
  let connected := connectedSet iroh anyTransport roster
  let n := n.ground roster connected nowMs
  let n := { n with supervisor := n.supervisor.keepOnly (connected ++ roster) }
  roster.foldl (dialMember connected nowMs) n

def onPeerObserved (n : ReconnectNode) (anyTransport : String → Bool) (roster : List String)
    (nodeId : String) (nowMs : Nat) : ReconnectNode :=
  if nodeId ∉ roster then n
  else if anyTransport nodeId then
    { n with
      supervisor := n.supervisor.markConnected nodeId
      stamps := n.stamps ++ [(nodeId, nowMs)] }
  else
    let r := n.supervisor.eligible nodeId nowMs
    let n := { n with supervisor := r.1 }
    if r.2 then n.tryDialRosterPeer nodeId nowMs else n

def wakeReconnect (n : ReconnectNode) (iroh : List String) (anyTransport : String → Bool)
    (roster : List String) (nowMs : Nat) : ReconnectNode :=
  let n := { n with supervisor := n.supervisor.resetBackoffAll }
  n.runSupervisorTick iroh anyTransport roster nowMs

end ReconnectNode

/-! ## 2. The accesses to the policy -/

/-- One access to the policy behind its lock. A pass that asked for a peer `behind` milliseconds
    after it read the clock dials it with the time it read. -/
inductive ReconnectEvent where
  | reconcile (roster connected : List String)
  | retain (keep : List String)
  | reset
  | ask (nodeId : String) (behind : Nat)
  | dial (nodeId : String) (start : Nat)
  | observed (nodeId : String)
  | report (nodeId : String) (start : Nat) (ok : Bool)

/-- A node on a clock, the peers that are up and the permissions to dial. -/
structure Watch where
  node : ReconnectNode
  clock : Nat
  up : List String
  granted : List (String × Nat)

namespace Watch

variable (hash : String → Nat)

def start : Watch := ⟨⟨∅, [], []⟩, 0, [], []⟩

def act (s : Watch) : ReconnectEvent → Watch
  | .reconcile roster connected =>
    { s with node := s.node.ground roster connected s.clock, up := connected }
  | .retain keep =>
    { s with node := { s.node with supervisor := s.node.supervisor.keepOnly keep } }
  | .reset => { s with node := { s.node with supervisor := s.node.supervisor.resetBackoffAll } }
  | .ask nodeId behind =>
    let r := s.node.supervisor.eligible nodeId (s.clock - behind)
    { s with
      node := { s.node with supervisor := r.1 }
      granted := if r.2 then (nodeId, s.clock - behind) :: s.granted else s.granted }
  | .dial nodeId start =>
    if (nodeId, start) ∈ s.granted then
      { s with
        node := s.node.tryDialRosterPeer nodeId start
        granted := s.granted.erase (nodeId, start) }
    else s
  | .observed nodeId =>
    { s with
      node := { s.node with
        supervisor := s.node.supervisor.markConnected nodeId
        stamps := s.node.stamps ++ [(nodeId, s.clock)] }
      up := nodeId :: s.up }
  | .report nodeId start ok =>
    if (nodeId, start) ∈ s.node.dials then
      { s with
        node := s.node.dialReported hash nodeId start ok s.clock
        up := if ok then nodeId :: s.up else s.up }
    else s

def wait (s : Watch) (elapsed : Nat) : Watch := { s with clock := s.clock + elapsed }

def step (s : Watch) (move : Nat × ReconnectEvent) : Watch := (s.wait move.1).act hash move.2

/-! ## 3. A whole pass -/

def dialEvents (now : Nat) (nodeId : String) : List (Nat × ReconnectEvent) :=
  [(0, .ask nodeId 0), (0, .dial nodeId now)]

def tickEvents (connected roster : List String) (now : Nat) : List (Nat × ReconnectEvent) :=
  [(0, .reconcile roster connected), (0, .retain (connected ++ roster))] ++
    roster.flatMap fun id => if id ∈ connected then [] else dialEvents now id

def observedEvents (anyTransport : String → Bool) (roster : List String) (nodeId : String)
    (now : Nat) : List (Nat × ReconnectEvent) :=
  if nodeId ∉ roster then []
  else if anyTransport nodeId then [(0, .observed nodeId)]
  else dialEvents now nodeId

theorem run_dialEvents (s : Watch) (hg : s.granted = []) (nodeId : String) :
    run (step hash) s (dialEvents s.clock nodeId) =
      { s with
        node :=
          let r := s.node.supervisor.eligible nodeId s.clock
          let n := { s.node with supervisor := r.1 }
          if r.2 then n.tryDialRosterPeer nodeId s.clock else n } := by
  obtain ⟨node, clock, up, granted⟩ := s
  subst hg
  unfold dialEvents
  simp only [run_cons, run_nil, step, wait, act, Nat.add_zero, Nat.sub_zero]
  rcases Bool.eq_false_or_eq_true (node.supervisor.eligible nodeId clock).2 with hok | hok
  · simp [hok]
  · simp [hok]

theorem run_dialMembers (connected roster : List String) (s : Watch) (hg : s.granted = []) :
    run (step hash) s (roster.flatMap fun id =>
        if id ∈ connected then [] else dialEvents s.clock id) =
      { s with node := roster.foldl (ReconnectNode.dialMember connected s.clock) s.node } := by
  induction roster generalizing s with
  | nil => rfl
  | cons id roster ih =>
    rw [List.flatMap_cons, run_append, List.foldl_cons]
    by_cases hc : id ∈ connected
    · rw [if_pos hc, run_nil, ih s hg, ReconnectNode.dialMember, if_pos hc]
    · have hone := run_dialEvents hash s hg id
      rw [if_neg hc, hone]
      have hrest := ih { s with node := ReconnectNode.dialMember connected s.clock s.node id } hg
      rw [ReconnectNode.dialMember, if_neg hc] at hrest ⊢
      dsimp only at hrest ⊢
      cases hok : (s.node.supervisor.eligible id s.clock).2 <;>
        simpa [hok] using hrest

theorem run_tickEvents (s : Watch) (hg : s.granted = []) (iroh : List String)
    (anyTransport : String → Bool) (roster : List String) :
    (run (step hash) s
        (tickEvents (ReconnectNode.connectedSet iroh anyTransport roster) roster s.clock)).node =
      s.node.runSupervisorTick iroh anyTransport roster s.clock := by
  unfold tickEvents
  rw [run_append]
  have hloop := run_dialMembers hash (ReconnectNode.connectedSet iroh anyTransport roster) roster
    (run (step hash) s [(0, .reconcile roster (ReconnectNode.connectedSet iroh anyTransport roster)),
      (0, .retain (ReconnectNode.connectedSet iroh anyTransport roster ++ roster))]) hg
  exact congrArg Watch.node hloop

theorem run_wakeEvents (s : Watch) (hg : s.granted = []) (iroh : List String)
    (anyTransport : String → Bool) (roster : List String) :
    (run (step hash) s ((0, .reset) ::
        tickEvents (ReconnectNode.connectedSet iroh anyTransport roster) roster s.clock)).node =
      s.node.wakeReconnect iroh anyTransport roster s.clock :=
  run_tickEvents hash (s.act hash .reset) hg iroh anyTransport roster

/-- One member is connected, one is not. -/
theorem run_wakeEvents_start :
    (start.node.wakeReconnect ["aa"] (fun _ => false) ["aa", "bb"] start.clock).dials = [("bb", 0)] := by
  rw [← run_wakeEvents (fun _ => 0) start rfl]
  decide

theorem run_observedEvents (s : Watch) (hg : s.granted = []) (anyTransport : String → Bool)
    (roster : List String) (nodeId : String) :
    (run (step hash) s (observedEvents anyTransport roster nodeId s.clock)).node =
      s.node.onPeerObserved anyTransport roster nodeId s.clock := by
  unfold observedEvents ReconnectNode.onPeerObserved
  split
  · rfl
  · split
    · rfl
    · rw [run_dialEvents hash s hg]

theorem run_observedEvents_start :
    (start.node.onPeerObserved (· == "aa") ["aa", "bb"] "aa" start.clock).dials = [] ∧
      (start.node.onPeerObserved (· == "aa") ["aa", "bb"] "bb" start.clock).dials = [("bb", 0)] := by
  rw [← run_observedEvents (fun _ => 0) start rfl, ← run_observedEvents (fun _ => 0) start rfl]
  decide

/-! ## 4. Safety -/

/-- What is up is not eligible from now on; neither is a peer with a dial that has not reported,
    until the dial is thirty seconds old. -/
structure Safe (s : Watch) : Prop where
  up : ∀ id ∈ s.up, ∀ t, s.clock ≤ t → s.node.supervisor.eligibleAt id t = false
  busy : ∀ d ∈ s.node.dials, ∀ t, s.clock ≤ t → t < d.2 + connectingStuckMs →
    s.node.supervisor.eligibleAt d.1 t = false

/-- A permitted dial finds no other dial to the peer in flight. -/
def Alone (s : Watch) : ReconnectEvent → Prop
  | .dial nodeId start => (nodeId, start) ∈ s.granted →
    ∀ d ∈ s.node.dials, d.1 = nodeId → d.2 + connectingStuckMs ≤ s.clock
  | _ => True

/-- A permitted dial starts while the peer is still eligible. -/
def Prompt (s : Watch) : ReconnectEvent → Prop
  | .dial nodeId start => (nodeId, start) ∈ s.granted →
    s.node.supervisor.eligibleAt nodeId s.clock = true
  | _ => True

/-- The entries that the event resets are of no peer that is up and of no dial in flight. -/
def Clear (s : Watch) : ReconnectEvent → Prop
  | .reconcile _ connected => ∀ d ∈ s.node.dials, d.1 ∉ connected →
    (s.node.supervisor.entryOf d.1).phase = .connected → d.2 + connectingStuckMs ≤ s.clock
  | .retain keep => (∀ id ∈ s.up, id ∈ keep) ∧
    ∀ d ∈ s.node.dials, d.1 ∉ keep → d.2 + connectingStuckMs ≤ s.clock
  | .reset => ∀ d ∈ s.node.dials, (s.node.supervisor.entryOf d.1).phase = .backoff →
    d.2 + connectingStuckMs ≤ s.clock
  | .report nodeId start false => (nodeId, start) ∈ s.node.dials → nodeId ∉ s.up ∧
    ∀ d ∈ s.node.dials.erase (nodeId, start), d.1 = nodeId →
      d.2 + connectingStuckMs ≤ max s.clock
        (Supervisor.failed hash nodeId s.clock (s.node.supervisor.entryOf nodeId)).nextMs
  | _ => True

open Supervisor

theorem safe_iff {s : Watch} : s.Safe ↔
    (∀ id ∈ s.up, (s.node.supervisor.entryOf id).phase = .connected) ∧
    ∀ d ∈ s.node.dials,
      Quiet (s.node.supervisor.entryOf d.1) s.clock (d.2 + connectingStuckMs) := by
  constructor
  · intro hs
    exact ⟨fun id hid => (never_eligible_iff _ _).mp (hs.up id hid), hs.busy⟩
  · intro ⟨hup, hbusy⟩
    exact ⟨fun id hid => (never_eligible_iff _ _).mpr (hup id hid), hbusy⟩

theorem Safe.wait {s : Watch} (hs : s.Safe) (elapsed : Nat) : (s.wait elapsed).Safe :=
  ⟨fun id hid t ht => hs.up id hid t (Nat.le_of_add_right_le ht),
    fun d hd t ht => hs.busy d hd t (Nat.le_of_add_right_le ht)⟩

variable {hash} {s : Watch}

theorem safe_reconcile_iff (hs : s.Safe) (roster connected : List String) :
    (s.act hash (.reconcile roster connected)).Safe ↔
      s.Clear hash (.reconcile roster connected) := by
  have hold := (safe_iff.mp hs).2
  have hentry := entryOf_reconcile s.node.supervisor connected
  rw [safe_iff]
  constructor
  · intro ⟨_, hbusy⟩ d hd hc hphase
    have hquiet := hbusy d hd
    change Quiet ((s.node.supervisor.reconcile connected).1.entryOf d.1) _ _ at hquiet
    rw [hentry, if_neg hc, if_pos hphase] at hquiet
    exact (quiet_idle_iff rfl).mp hquiet
  · intro hclear
    refine ⟨fun id hid => ?_, fun d hd => ?_⟩
    · have hmem : id ∈ connected := hid
      show ((s.node.supervisor.reconcile connected).1.entryOf id).phase = _
      rw [hentry, if_pos hmem]
    · show Quiet ((s.node.supervisor.reconcile connected).1.entryOf d.1) _ _
      rw [hentry]
      by_cases hc : d.1 ∈ connected
      · rw [if_pos hc]
        exact quiet_of_connected rfl _ _
      · rw [if_neg hc]
        split
        · rename_i hphase
          exact (quiet_idle_iff rfl).mpr (hclear d hd hc hphase)
        · exact hold d hd

theorem safe_retain_iff (hs : s.Safe) (keep : List String) :
    (s.act hash (.retain keep)).Safe ↔ s.Clear hash (.retain keep) := by
  obtain ⟨hup, hold⟩ := safe_iff.mp hs
  have hentry := entryOf_keepOnly s.node.supervisor keep
  rw [safe_iff]
  refine and_congr (forall₂_congr fun id hid => ?_) (forall₂_congr fun d hd => ?_)
  · show ((s.node.supervisor.keepOnly keep).entryOf id).phase = _ ↔ _
    rw [hentry]
    by_cases hk : id ∈ keep
    · rw [if_pos hk]
      exact iff_of_true (hup id hid) hk
    · rw [if_neg hk]
      exact iff_of_false (fun h => by cases h) hk
  · show Quiet ((s.node.supervisor.keepOnly keep).entryOf d.1) _ _ ↔ _
    rw [hentry]
    by_cases hk : d.1 ∈ keep
    · rw [if_pos hk]
      exact iff_of_true (hold d hd) fun h => absurd hk h
    · rw [if_neg hk, quiet_idle_iff rfl]
      exact ⟨fun h _ => h, fun h => h hk⟩

theorem safe_reset_iff (hs : s.Safe) : (s.act hash .reset).Safe ↔ s.Clear hash .reset := by
  obtain ⟨hup, hold⟩ := safe_iff.mp hs
  have hentry := entryOf_reset s.node.supervisor
  rw [safe_iff]
  have hup' : ∀ id ∈ s.up, (s.node.supervisor.resetBackoffAll.entryOf id).phase = .connected := by
    intro id hid
    rw [hentry, refresh, if_neg (by rw [hup id hid]; decide)]
    exact hup id hid
  refine (and_iff_right hup').trans (forall₂_congr fun d hd => ?_)
  show Quiet (s.node.supervisor.resetBackoffAll.entryOf d.1) _ _ ↔ _
  rw [hentry, refresh]
  by_cases hb : (s.node.supervisor.entryOf d.1).phase = .backoff
  · rw [if_pos hb, quiet_idle_iff rfl]
    exact ⟨fun h _ => h, fun h => h hb⟩
  · rw [if_neg hb]
    exact iff_of_true (hold d hd) fun h => absurd h hb

theorem safe_ask (hs : s.Safe) (nodeId : String) (behind : Nat) :
    (s.act hash (.ask nodeId behind)).Safe := by
  obtain ⟨hup, hold⟩ := safe_iff.mp hs
  refine safe_iff.mpr ⟨fun id hid => ?_, fun d hd => ?_⟩
  · exact (congrArg PeerDial.phase (entryOf_eligible _ _ (s.clock - behind) id)).trans (hup id hid)
  · show Quiet (Supervisor.entryOf (s.node.supervisor.eligible nodeId (s.clock - behind)).1 d.1) _ _
    rw [entryOf_eligible]
    exact hold d hd

theorem safe_markConnected (hs : s.Safe) (nodeId : String) {dials : List (String × Nat)}
    (hdials : ∀ d ∈ dials, d ∈ s.node.dials) (stamps : List (String × Nat)) :
    Safe ⟨⟨s.node.supervisor.markConnected nodeId, dials, stamps⟩, s.clock, nodeId :: s.up,
      s.granted⟩ := by
  obtain ⟨hup, hold⟩ := safe_iff.mp hs
  have hentry := entryOf_change s.node.supervisor nodeId
    fun entry => { entry with phase := .connected, attempts := 0 }
  refine safe_iff.mpr ⟨fun id hid => ?_, fun d hd => ?_⟩
  · show ((s.node.supervisor.markConnected nodeId).entryOf id).phase = _
    rw [markConnected, hentry]
    split
    · rfl
    · rename_i hne
      exact hup id ((List.mem_cons.mp hid).resolve_left hne)
  · show Quiet ((s.node.supervisor.markConnected nodeId).entryOf d.1) _ _
    rw [markConnected, hentry]
    split
    · exact quiet_of_connected rfl _ _
    · exact hold d (hdials d hd)

theorem Safe.alone (hs : s.Safe) {event : ReconnectEvent} (hp : s.Prompt event) :
    s.Alone event := by
  cases event with
  | dial nodeId start =>
    intro hg d hd hid
    by_contra hyoung
    have hfalse := hs.busy d hd s.clock (Nat.le_refl _) (Nat.lt_of_not_le hyoung)
    rw [hid, hp hg] at hfalse
    cases hfalse
  | _ => trivial

theorem safe_dial (hs : s.Safe) {nodeId : String} {start : Nat}
    (hp : s.Prompt (.dial nodeId start)) : (s.act hash (.dial nodeId start)).Safe := by
  obtain ⟨hup, hold⟩ := safe_iff.mp hs
  rw [act]
  by_cases hg : (nodeId, start) ∈ s.granted
  · rw [if_pos hg]
    have helig := hp hg
    have hentry := entryOf_change s.node.supervisor nodeId
      fun entry => { entry with phase := .connecting, sinceMs := start }
    have hdown : nodeId ∉ s.up := by
      intro hmem
      have hfalse := hs.up nodeId hmem s.clock (Nat.le_refl _)
      rw [helig] at hfalse
      cases hfalse
    refine safe_iff.mpr ⟨fun id hid => ?_, fun d hd => ?_⟩
    · show ((s.node.supervisor.markConnecting nodeId start).entryOf id).phase = _
      rw [markConnecting, hentry, if_neg (ne_of_mem_of_not_mem hid hdown)]
      exact hup id hid
    · show Quiet ((s.node.supervisor.markConnecting nodeId start).entryOf d.1) _ _
      rw [markConnecting, hentry]
      rcases List.mem_cons.mp hd with rfl | hd
      · rw [if_pos rfl]
        exact quiet_of_connecting rfl _
      · split
        · rename_i hid
          have hfar := hs.alone hp hg d hd hid
          exact fun t ht hlt => absurd (Nat.le_trans hfar ht) (Nat.not_le.mpr hlt)
        · exact hold d hd
  · rw [if_neg hg]
    exact hs

theorem safe_failed_iff (hs : s.Safe) (nodeId : String) (start : Nat) :
    (s.act hash (.report nodeId start false)).Safe ↔
      s.Clear hash (.report nodeId start false) := by
  obtain ⟨hup, hold⟩ := safe_iff.mp hs
  rw [act, Clear]
  by_cases ho : (nodeId, start) ∈ s.node.dials
  · rw [if_pos ho, forall_prop_of_true ho, safe_iff]
    have hentry := entryOf_change s.node.supervisor nodeId (failed hash nodeId s.clock)
    refine and_congr ?_ (forall₂_congr fun d hd => ?_)
    · show (∀ id ∈ s.up, ((s.node.supervisor.change nodeId _).entryOf id).phase = _) ↔ _
      constructor
      · intro h hmem
        have hphase := h nodeId hmem
        rw [hentry, if_pos rfl] at hphase
        cases hphase
      · intro hdown id hid
        rw [hentry, if_neg (ne_of_mem_of_not_mem hid hdown)]
        exact hup id hid
    · show Quiet ((s.node.supervisor.change nodeId _).entryOf d.1) _ _ ↔ _
      rw [hentry]
      by_cases hid : d.1 = nodeId
      · rw [if_pos hid, quiet_backoff_iff rfl, forall_prop_of_true hid]
      · rw [if_neg hid]
        exact iff_of_true (hold d (List.mem_of_mem_erase hd)) fun h => absurd h hid
  · rw [if_neg ho]
    exact iff_of_true hs fun h => absurd h ho

theorem safe_act_iff (hs : s.Safe) {event : ReconnectEvent} (hp : s.Prompt event) :
    (s.act hash event).Safe ↔ s.Clear hash event := by
  cases event with
  | reconcile roster connected => exact safe_reconcile_iff hs roster connected
  | retain keep => exact safe_retain_iff hs keep
  | reset => exact safe_reset_iff hs
  | ask nodeId behind => exact iff_of_true (safe_ask hs nodeId behind) trivial
  | dial nodeId start => exact iff_of_true (safe_dial hs hp) trivial
  | observed nodeId =>
    exact iff_of_true (safe_markConnected hs nodeId (fun _ hd => hd) _) trivial
  | report nodeId start ok =>
    cases ok with
    | false => exact safe_failed_iff hs nodeId start
    | true =>
      refine iff_of_true ?_ trivial
      rw [act]
      split
      · exact safe_markConnected hs nodeId (fun _ hd => List.mem_of_mem_erase hd) _
      · exact hs

/-! ## 5. Runs -/

variable (hash)

/-- The event is prompt at its time. -/
def PromptMove (s : Watch) (move : Nat × ReconnectEvent) : Prop :=
  (s.wait move.1).Prompt move.2

/-- The event is alone at its time and leaves a safe state. -/
def SafeMove (s : Watch) (move : Nat × ReconnectEvent) : Prop :=
  (s.wait move.1).Alone move.2 ∧ (s.step hash move).Safe

/-- The event is clear at its time. -/
def ClearMove (s : Watch) (move : Nat × ReconnectEvent) : Prop :=
  (s.wait move.1).Clear hash move.2

theorem prompt_dialEvents (s : Watch) (hg : s.granted = []) (nodeId : String) :
    RunMeets (step hash) PromptMove s (dialEvents s.clock nodeId) := by
  refine ⟨trivial, fun hmem => ?_, trivial⟩
  -- the one permission there is comes from the question just asked
  have hok : (s.node.supervisor.eligible nodeId s.clock).2 = true := by
    by_contra hno
    have hnone : ((s.wait 0).act hash (.ask nodeId 0)).granted = [] := (if_neg hno).trans hg
    have hmem' : (nodeId, s.clock) ∈ ((s.wait 0).act hash (.ask nodeId 0)).granted := hmem
    rw [hnone] at hmem'
    cases hmem'
  show peerEligible (Supervisor.entryOf (s.node.supervisor.eligible nodeId s.clock).1 nodeId) _ = _
  rw [entryOf_eligible]
  exact hok

theorem prompt_tickEvents (s : Watch) (hg : s.granted = []) (connected roster : List String) :
    RunMeets (step hash) PromptMove s (tickEvents connected roster s.clock) := by
  have hloop : ∀ (roster : List String) (s : Watch), s.granted = [] →
      RunMeets (step hash) PromptMove s (roster.flatMap fun id =>
        if id ∈ connected then [] else dialEvents s.clock id) := by
    intro roster
    induction roster with
    | nil => exact fun s _ => trivial
    | cons id roster ih =>
      intro s hg
      rw [List.flatMap_cons, runMeets_append]
      by_cases hc : id ∈ connected
      · rw [if_pos hc]
        exact ⟨trivial, ih s hg⟩
      · rw [if_neg hc, run_dialEvents hash s hg]
        exact ⟨prompt_dialEvents hash s hg id, ih _ hg⟩
  exact (runMeets_append _ _).mpr ⟨⟨trivial, trivial, trivial⟩, hloop roster _ hg⟩

theorem prompt_tickEvents_start :
    RunMeets (step fun _ => 0) PromptMove start (tickEvents [] ["aa"] start.clock) :=
  prompt_tickEvents _ start rfl _ _

theorem safe_start : start.Safe :=
  ⟨fun _ h => (by cases h), fun _ h => (by cases h)⟩

/-- **Reconnect safety.** Along every run whose passes dial only eligible peers: what is up is not eligible,
    and no second dial is started next to a young one, exactly when every access keeps the marks of the
    peers that are up and of the young dials. -/
theorem reconnect_safe_iff (moves : List (Nat × ReconnectEvent)) :
    RunMeets (step hash) (fun s move => s.PromptMove move ∧ s.SafeMove hash move) start moves ↔
      RunMeets (step hash) (fun s move => s.PromptMove move ∧ s.ClearMove hash move) start
        moves := by
  refine runMeets_iff_of_invariant Safe (fun s move hs => ?_) (fun s move h _ => h.2.2) safe_start
  refine and_congr_right fun hp => ?_
  have hs' := hs.wait move.1
  exact (and_iff_right (hs'.alone hp)).trans (safe_act_iff hs' hp)

def later (elapsed : Nat) : List (Nat × ReconnectEvent) → List (Nat × ReconnectEvent)
  | [] => []
  | move :: moves => (elapsed + move.1, move.2) :: moves

def dialedThenUp : List (Nat × ReconnectEvent) :=
  tickEvents [] ["aa"] 0 ++ later 1000 (tickEvents ["aa"] ["aa"] 1000)

/-- A dial's late failure makes a connected peer eligible; and a pass starts a second dial next to the
    first. -/
theorem late_dial_loses_marks :
    (let s := run (step fun _ => 0) start (dialedThenUp ++ [(1000, .report "aa" 0 false)]);
      s.up = ["aa"] ∧ s.clock = 2000 ∧ s.node.supervisor.eligibleAt "aa" 4400 = true) ∧
    (run (step fun _ => 0) start
      (dialedThenUp ++ later 1000 (tickEvents [] ["aa"] 2000))).node.dials =
        [("aa", 2000), ("aa", 0)] := by
  decide

end Watch

end Peat.Ffi
