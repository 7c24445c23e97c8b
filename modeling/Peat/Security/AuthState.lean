/-
  THE LIFETIME OF A CERTIFICATE (security/auth_state.rs): valid, close to its end, in
  its grace period, expired; and the monitor that reports the changes.

  The certificate's own tests add the grace period in a `u64` and know a certificate
  without an end; the tracker does neither. `none` is an overflow.
-/
import Peat.Security.Membership

namespace Peat.Security

open Peat.Lib

/-! ## 1. The tracker -/

inductive CertificateState where
  | valid (expiresInMs : Nat)
  | warning (expiresInMs : Nat)
  | gracePeriod (graceRemainingMs : Nat)
  | expired
  deriving DecidableEq, Repr

inductive StateKind where
  | valid | warning | gracePeriod | expired
  deriving DecidableEq, Repr

def StateKind.rank : StateKind → Nat
  | .valid => 0 | .warning => 1 | .gracePeriod => 2 | .expired => 3

theorem StateKind.rank_injective {k k' : StateKind} (h : k.rank = k'.rank) : k = k' := by
  cases k <;> cases k' <;> first | rfl | cases h

namespace CertificateState

def kind : CertificateState → StateKind
  | .valid _ => .valid
  | .warning _ => .warning
  | .gracePeriod _ => .gracePeriod
  | .expired => .expired

def isOperational : CertificateState → Bool
  | .valid _ | .warning _ | .gracePeriod _ => true
  | .expired => false

end CertificateState

structure AuthConfig where
  authIntervalHours : UInt16
  gracePeriodHours : UInt16
  warningThresholdHours : UInt16
  deriving DecidableEq, Repr

namespace AuthConfig

def default : AuthConfig := ⟨24, 4, 1⟩

def gracePeriodMs (config : AuthConfig) : Nat := config.gracePeriodHours.toNat * 3600000

def warningThresholdMs (config : AuthConfig) : Nat := config.warningThresholdHours.toNat * 3600000

end AuthConfig

structure AuthStateTracker where
  config : AuthConfig
  deriving DecidableEq, Repr

namespace AuthStateTracker

def checkState (t : AuthStateTracker) (cert : MembershipCertificate) (nowMs : Nat) :
    CertificateState :=
  if nowMs < cert.expiresAtMs then
    let expiresInMs := cert.expiresAtMs - nowMs
    if expiresInMs ≤ t.config.warningThresholdMs then .warning expiresInMs else .valid expiresInMs
  else
    let expiredForMs := nowMs - cert.expiresAtMs
    if expiredForMs < t.config.gracePeriodMs then
      .gracePeriod (t.config.gracePeriodMs - expiredForMs)
    else .expired

def isOperational (t : AuthStateTracker) (cert : MembershipCertificate) (nowMs : Nat) : Bool :=
  (t.checkState cert nowMs).isOperational

def hardCutoff (t : AuthStateTracker) (cert : MembershipCertificate) : Nat :=
  min (cert.expiresAtMs + t.config.gracePeriodMs) (u64Count - 1)

def kindAt (t : AuthStateTracker) (cert : MembershipCertificate) (nowMs : Nat) : StateKind :=
  (t.checkState cert nowMs).kind

def Within (t : AuthStateTracker) (cert : MembershipCertificate) (nowMs : Nat) : StateKind → Prop
  | .valid => nowMs + t.config.warningThresholdMs < cert.expiresAtMs
  | .warning => cert.expiresAtMs ≤ nowMs + t.config.warningThresholdMs ∧ nowMs < cert.expiresAtMs
  | .gracePeriod => cert.expiresAtMs ≤ nowMs ∧ nowMs < cert.expiresAtMs + t.config.gracePeriodMs
  | .expired => cert.expiresAtMs + t.config.gracePeriodMs ≤ nowMs

theorem kindAt_eq_iff {t : AuthStateTracker} {cert : MembershipCertificate} {nowMs : Nat}
    {kind : StateKind} : t.kindAt cert nowMs = kind ↔ t.Within cert nowMs kind := by
  unfold kindAt checkState
  cases kind
  all_goals
    dsimp only [Within]
    repeat' split
  all_goals
    simp only [CertificateState.kind, reduceCtorEq, true_iff, false_iff]
    omega

theorem within_kindAt (t : AuthStateTracker) (cert : MembershipCertificate) (nowMs : Nat) :
    t.Within cert nowMs (t.kindAt cert nowMs) := kindAt_eq_iff.mp rfl

theorem rank_kindAt_mono (t : AuthStateTracker) (cert : MembershipCertificate) {nowMs laterMs : Nat}
    (h : nowMs ≤ laterMs) : (t.kindAt cert nowMs).rank ≤ (t.kindAt cert laterMs).rank := by
  have hnow := t.within_kindAt cert nowMs
  have hlater := t.within_kindAt cert laterMs
  cases hk : t.kindAt cert nowMs <;> cases hk' : t.kindAt cert laterMs <;>
    simp only [hk, hk', Within, StateKind.rank] at hnow hlater ⊢ <;> omega

end AuthStateTracker

/-! ## 2. The certificate's own tests -/

namespace MembershipCertificate

def addMs (a b : Nat) : Option Nat := if a + b < u64Count then some (a + b) else none

def isInGracePeriod? (cert : MembershipCertificate) (nowMs gracePeriodMs : Nat) : Option Bool :=
  if cert.expiresAtMs = 0 then some false
  else if nowMs ≥ cert.expiresAtMs then
    (addMs cert.expiresAtMs gracePeriodMs).map fun cutoff => decide (nowMs < cutoff)
  else some false

def isExpired? (cert : MembershipCertificate) (nowMs gracePeriodMs : Nat) : Option Bool :=
  if cert.expiresAtMs = 0 then some false
  else (addMs cert.expiresAtMs gracePeriodMs).map fun cutoff => decide (nowMs ≥ cutoff)

end MembershipCertificate

/-- **The two views of a certificate agree**, without an overflow. -/
structure ViewsAgree (t : AuthStateTracker) (cert : MembershipCertificate) (nowMs : Nat)
    (expired inGrace : Bool) : Prop where
  isExpired : cert.isExpired? nowMs t.config.gracePeriodMs = some expired
  isInGracePeriod : cert.isInGracePeriod? nowMs t.config.gracePeriodMs = some inGrace
  expired_iff : t.kindAt cert nowMs = .expired ↔ expired = true
  grace_iff : t.kindAt cert nowMs = .gracePeriod ↔ inGrace = true
  otherwise : expired = false → inGrace = false →
    (t.kindAt cert nowMs = .valid ∨ t.kindAt cert nowMs = .warning) ∧ nowMs < cert.expiresAtMs
  operational_iff : t.isOperational cert nowMs = true ↔ nowMs < t.hardCutoff cert

theorem AuthStateTracker.isOperational_iff {t : AuthStateTracker} {cert : MembershipCertificate}
    {nowMs : Nat} : t.isOperational cert nowMs = true ↔ t.kindAt cert nowMs ≠ .expired := by
  unfold isOperational kindAt
  cases t.checkState cert nowMs with
  | expired => exact iff_of_false Bool.false_ne_true fun h => h rfl
  | _ => exact iff_of_true rfl (by intro h; cases h)

/-- **Two views of one lifetime**: they agree at a time exactly when the certificate has an end and
    its grace period ends within the `u64`. -/
theorem viewsAgree_iff (t : AuthStateTracker) (cert : MembershipCertificate) (nowMs : Nat) :
    (∃ expired inGrace, ViewsAgree t cert nowMs expired inGrace) ↔
      0 < cert.expiresAtMs ∧ cert.expiresAtMs + t.config.gracePeriodMs < u64Count := by
  constructor
  · intro ⟨expired, inGrace, h⟩
    have hend : cert.expiresAtMs ≠ 0 := by
      -- without an end both tests say no, and the tracker knows no third answer after the end
      intro h0
      have hexp := h.isExpired
      have hgrace := h.isInGracePeriod
      rw [MembershipCertificate.isExpired?, if_pos h0] at hexp
      rw [MembershipCertificate.isInGracePeriod?, if_pos h0] at hgrace
      have hlt := (h.otherwise (Option.some.inj hexp).symm (Option.some.inj hgrace).symm).2
      rw [h0] at hlt
      exact Nat.not_lt_zero _ hlt
    refine ⟨Nat.pos_of_ne_zero hend, ?_⟩
    have hexp := h.isExpired
    rw [MembershipCertificate.isExpired?, if_neg hend] at hexp
    obtain ⟨cutoff, hcutoff, _⟩ := Option.map_eq_some_iff.mp hexp
    unfold MembershipCertificate.addMs at hcutoff
    split at hcutoff
    · assumption
    · cases hcutoff
  · intro ⟨hend, hsum⟩
    have hadd : MembershipCertificate.addMs cert.expiresAtMs t.config.gracePeriodMs =
        some (cert.expiresAtMs + t.config.gracePeriodMs) := if_pos hsum
    have hne : cert.expiresAtMs ≠ 0 := Nat.pos_iff_ne_zero.mp hend
    have hcut : t.hardCutoff cert = cert.expiresAtMs + t.config.gracePeriodMs :=
      Nat.min_eq_left (Nat.le_sub_one_of_lt hsum)
    refine ⟨decide (nowMs ≥ cert.expiresAtMs + t.config.gracePeriodMs),
      decide (nowMs ≥ cert.expiresAtMs ∧ nowMs < cert.expiresAtMs + t.config.gracePeriodMs), ?_⟩
    constructor
    · rw [MembershipCertificate.isExpired?, if_neg hne, hadd]
      rfl
    · rw [MembershipCertificate.isInGracePeriod?, if_neg hne, hadd]
      split
      · rename_i h
        simp only [Option.map_some, h, true_and]
      · rename_i h
        simp only [h, false_and, decide_false]
    · rw [AuthStateTracker.kindAt_eq_iff, decide_eq_true_eq]
      rfl
    · rw [AuthStateTracker.kindAt_eq_iff, decide_eq_true_eq]
      rfl
    · intro hexp hgrace
      rw [decide_eq_false_iff_not] at hexp hgrace
      have hlt : nowMs < cert.expiresAtMs := by omega
      refine ⟨?_, hlt⟩
      rw [AuthStateTracker.kindAt_eq_iff, AuthStateTracker.kindAt_eq_iff]
      unfold AuthStateTracker.Within
      omega
    · rw [AuthStateTracker.isOperational_iff, hcut, ne_eq, AuthStateTracker.kindAt_eq_iff]
      exact Nat.not_le

def certificateUntil (expiresAtMs : Nat) : MembershipCertificate :=
  { CertificateRegistry.sampleCertificate 1 "ALPHA-01" with expiresAtMs := expiresAtMs }

/-- **A certificate without an end expires** for the tracker, five hours after the epoch; and an end close
    to the last `u64` overflows the certificate's own sum. -/
theorem endless_certificate_expires :
    let t : AuthStateTracker := ⟨AuthConfig.default⟩
    t.checkState (certificateUntil 0) 18000000 = .expired ∧
      (certificateUntil 0).isExpired? 18000000 t.config.gracePeriodMs = some false ∧
      (¬ ∃ expired inGrace, ViewsAgree t (certificateUntil 0) 18000000 expired inGrace) ∧
      (certificateUntil 18446744073709551615).isExpired? 0 t.config.gracePeriodMs = none ∧
      t.isOperational (certificateUntil 18446744073709551615) 18446744073709551615 = true ∧
      t.hardCutoff (certificateUntil 18446744073709551615) = 18446744073709551615 := by
  refine ⟨by decide, by decide, ?_, by decide, by decide, by decide⟩
  intro ⟨expired, inGrace, h⟩
  have hexpired : expired = true := h.expired_iff.mp (by decide)
  rw [hexpired] at h
  exact absurd h.isExpired (by decide)

/-! ## 3. The monitor -/

inductive AuthStateEvent where
  | enteringWarning (expiresInMs : Nat)
  | enteringGracePeriod (graceRemainingMs : Nat)
  | expired
  | renewed (newExpiresAtMs : Nat)
  deriving DecidableEq, Repr

def AuthStateEvent.entered : AuthStateEvent → StateKind
  | .enteringWarning _ => .warning
  | .enteringGracePeriod _ => .gracePeriod
  | .expired => .expired
  | .renewed _ => .valid

structure AuthStateMonitor where
  tracker : AuthStateTracker
  lastState : Option CertificateState
  deriving DecidableEq, Repr

namespace AuthStateMonitor

def new (tracker : AuthStateTracker) : AuthStateMonitor := ⟨tracker, none⟩

def transition : Option CertificateState → CertificateState → Option AuthStateEvent
  | some (.valid _), .warning expiresInMs => some (.enteringWarning expiresInMs)
  | none, .warning expiresInMs => some (.enteringWarning expiresInMs)
  | some (.warning _), .gracePeriod graceRemainingMs => some (.enteringGracePeriod graceRemainingMs)
  | some state, .expired => if state ≠ .expired then some .expired else none
  | _, _ => none

def update (m : AuthStateMonitor) (cert : MembershipCertificate) (nowMs : Nat) :
    Option AuthStateEvent × AuthStateMonitor :=
  let newState := m.tracker.checkState cert nowMs
  (transition m.lastState newState, { m with lastState := some newState })

def notifyRenewed (m : AuthStateMonitor) (newCert : MembershipCertificate) :
    AuthStateEvent × AuthStateMonitor :=
  (.renewed newCert.expiresAtMs, { m with lastState := some (.valid newCert.expiresAtMs) })

def lastKind (m : AuthStateMonitor) : StateKind := (m.lastState.map CertificateState.kind).getD .valid

structure Look where
  before : StateKind
  after : StateKind
  event : Option AuthStateEvent
  deriving DecidableEq, Repr

def looks (cert : MembershipCertificate) : AuthStateMonitor → List Nat → List Look
  | _, [] => []
  | m, nowMs :: times =>
    ⟨m.lastKind, (m.update cert nowMs).2.lastKind, (m.update cert nowMs).1⟩ ::
      looks cert (m.update cert nowMs).2 times

def events (looks : List Look) : List AuthStateEvent := looks.filterMap Look.event

def Look.Exact (look : Look) : Prop :=
  (look.event.isSome = true ↔ look.after ≠ look.before) ∧
    ∀ event, look.event = some event → event.entered = look.after

/-- **The changes are reported**: each one and nothing else, no kind twice and all in order of time,
    and every kind seen was announced by then. -/
structure Faithful (looks : List Look) : Prop where
  exact : ∀ look ∈ looks, look.Exact
  order : ((events looks).map AuthStateEvent.entered).Pairwise fun k k' => k.rank < k'.rank
  announced : ∀ earlier look later, looks = earlier ++ look :: later → look.after ≠ .valid →
    ∃ event ∈ events (earlier ++ [look]), event.entered = look.after

/-- **No change is missed at this call**: it does not fall into the grace period right after a valid
    state, and a first call does not find the certificate expired. -/
def Covered (cert : MembershipCertificate) (m : AuthStateMonitor) (nowMs : Nat) : Prop :=
  (m.tracker.kindAt cert nowMs = .gracePeriod → m.lastKind ≠ .valid) ∧
    (m.tracker.kindAt cert nowMs = .expired → m.lastState ≠ none)

/-- **The looks come in time**: the first one of a new monitor before the end, and one of them in the
    time of warning if there is one in the grace period. -/
def InTime (cert : MembershipCertificate) (m : AuthStateMonitor) (times : List Nat) : Prop :=
  (m.lastState = none → ∀ first, times.head? = some first → first < cert.expiresAtMs) ∧
    ((∃ time ∈ times, m.tracker.Within cert time .gracePeriod) →
      ∃ time ∈ times, m.tracker.Within cert time .warning)

section Steps

variable {cert : MembershipCertificate} {m : AuthStateMonitor} {nowMs : Nat} {times : List Nat}

def step (cert : MembershipCertificate) (m : AuthStateMonitor) (nowMs : Nat) : AuthStateMonitor :=
  (m.update cert nowMs).2

theorem lastKind_step : (m.step cert nowMs).lastKind = m.tracker.kindAt cert nowMs := rfl

def look (cert : MembershipCertificate) (m : AuthStateMonitor) (nowMs : Nat) : Look :=
  ⟨m.lastKind, m.tracker.kindAt cert nowMs, (m.update cert nowMs).1⟩

theorem looks_cons : looks cert m (nowMs :: times) =
    look cert m nowMs :: looks cert (m.step cert nowMs) times := rfl

theorem look_exact_iff (hmono : m.lastKind.rank ≤ (m.tracker.kindAt cert nowMs).rank) :
    (look cert m nowMs).Exact ↔ Covered cert m nowMs := by
  unfold Covered look update Look.Exact
  unfold lastKind AuthStateTracker.kindAt at hmono ⊢
  dsimp only
  generalize m.tracker.checkState cert nowMs = new at hmono ⊢
  generalize m.lastState = old at hmono ⊢
  rcases old with _ | old
  · cases new <;> simp [transition, CertificateState.kind, AuthStateEvent.entered]
  · cases old <;> cases new <;>
      simp_all [transition, CertificateState.kind, AuthStateEvent.entered, StateKind.rank]

def NotBefore (cert : MembershipCertificate) (m : AuthStateMonitor) (times : List Nat) : Prop :=
  ∀ time ∈ times, m.lastKind.rank ≤ (m.tracker.kindAt cert time).rank

theorem notBefore_step (h : (nowMs :: times).Pairwise (· ≤ ·)) :
    NotBefore cert (m.step cert nowMs) times :=
  fun time htime => m.tracker.rank_kindAt_mono cert ((List.pairwise_cons.mp h).1 time htime)

theorem exact_iff_covered (hsorted : times.Pairwise (· ≤ ·)) (hmono : NotBefore cert m times) :
    (∀ look ∈ looks cert m times, look.Exact) ↔ RunMeets (step cert) (Covered cert) m times := by
  induction times generalizing m with
  | nil => exact iff_of_true (nofun) trivial
  | cons nowMs times ih =>
    rw [looks_cons, List.forall_mem_cons, look_exact_iff (hmono nowMs List.mem_cons_self),
      ih (List.pairwise_cons.mp hsorted).2 (notBefore_step hsorted)]
    rfl

theorem events_order (hsorted : times.Pairwise (· ≤ ·)) (hmono : NotBefore cert m times)
    (h : ∀ look ∈ looks cert m times, look.Exact) :
    (∀ event ∈ events (looks cert m times), m.lastKind.rank < event.entered.rank) ∧
      ((events (looks cert m times)).map AuthStateEvent.entered).Pairwise
        fun k k' => k.rank < k'.rank := by
  induction times generalizing m with
  | nil => exact ⟨nofun, List.Pairwise.nil⟩
  | cons nowMs times ih =>
    rw [looks_cons, List.forall_mem_cons] at h
    obtain ⟨hlook, hrest⟩ := h
    obtain ⟨hahead, hpairs⟩ := ih (List.pairwise_cons.mp hsorted).2 (notBefore_step hsorted) hrest
    have hnow : m.lastKind.rank ≤ (m.tracker.kindAt cert nowMs).rank := hmono nowMs List.mem_cons_self
    have hlater : ∀ event ∈ events (looks cert (m.step cert nowMs) times),
        m.lastKind.rank < event.entered.rank :=
      fun event hevent => Nat.lt_of_le_of_lt hnow (hahead event hevent)
    unfold events at hahead hpairs hlater ⊢
    rw [looks_cons]
    cases hevent : (look cert m nowMs).event with
    | none =>
      rw [List.filterMap_cons_none hevent]
      exact ⟨hlater, hpairs⟩
    | some event =>
      have hentered : event.entered = m.tracker.kindAt cert nowMs := hlook.2 event hevent
      have hchanged : m.tracker.kindAt cert nowMs ≠ m.lastKind :=
        hlook.1.mp (by rw [hevent]; rfl)
      have hlt : m.lastKind.rank < event.entered.rank := by
        rw [hentered]
        exact Nat.lt_of_le_of_ne hnow fun e => hchanged (StateKind.rank_injective e).symm
      rw [List.filterMap_cons_some hevent]
      constructor
      · exact List.forall_mem_cons.mpr ⟨hlt, hlater⟩
      · refine List.pairwise_cons.mpr ⟨fun k hk => ?_, hpairs⟩
        obtain ⟨later, hmem, hk⟩ := List.mem_map.mp hk
        rw [hentered, ← hk]
        exact hahead later hmem

theorem announced_of_exact (h : ∀ look ∈ looks cert m times, look.Exact) {earlier later : List Look}
    {seen : Look} (hsplit : looks cert m times = earlier ++ seen :: later) :
    seen.after = m.lastKind ∨
      ∃ event ∈ events (earlier ++ [seen]), event.entered = seen.after := by
  induction times generalizing m earlier with
  | nil => exact absurd hsplit.symm (List.append_ne_nil_of_right_ne_nil _ (List.cons_ne_nil _ _))
  | cons nowMs times ih =>
    rw [looks_cons] at h hsplit
    obtain ⟨hlook, hrest⟩ := List.forall_mem_cons.mp h
    -- the call itself: the kind stays, or its event announces it
    have hself : (look cert m nowMs).after = m.lastKind ∨ ∃ event,
        (look cert m nowMs).event = some event ∧ event.entered = (look cert m nowMs).after := by
      by_cases hsame : (look cert m nowMs).after = m.lastKind
      · exact .inl hsame
      · obtain ⟨event, hevent⟩ := Option.isSome_iff_exists.mp (hlook.1.mpr hsame)
        exact .inr ⟨event, hevent, hlook.2 event hevent⟩
    cases earlier with
    | nil =>
      obtain ⟨rfl, _⟩ := List.cons.inj hsplit
      rcases hself with hsame | ⟨event, hevent, hentered⟩
      · exact .inl hsame
      · exact .inr ⟨event, List.mem_filterMap.mpr ⟨_, List.mem_singleton_self _, hevent⟩, hentered⟩
    | cons head earlier =>
      obtain ⟨hhead, htail⟩ := List.cons.inj hsplit
      subst hhead
      rcases ih hrest htail with hsame | ⟨event, hmem, hentered⟩
      · rcases hself with hstart | ⟨event, hevent, hentered⟩
        · exact .inl (hsame.trans hstart)
        · refine .inr ⟨event, List.mem_filterMap.mpr ⟨_, List.mem_cons_self, hevent⟩, ?_⟩
          exact hentered.trans hsame.symm
      · obtain ⟨found, hfound, hevent⟩ := List.mem_filterMap.mp hmem
        exact .inr ⟨event, List.mem_filterMap.mpr ⟨found, List.mem_cons_of_mem _ hfound, hevent⟩,
          hentered⟩

/-! ## 4. Looks that come in time -/

theorem covered_of_past (hsorted : times.Pairwise (· ≤ ·)) (hmono : NotBefore cert m times)
    (hpast : 0 < m.lastKind.rank) : RunMeets (step cert) (Covered cert) m times := by
  induction times generalizing m with
  | nil => trivial
  | cons nowMs times ih =>
    have hnow := hmono nowMs List.mem_cons_self
    refine ⟨⟨fun _ hvalid => ?_, fun _ hnone => ?_⟩, ?_⟩
    · rw [hvalid] at hpast
      exact Nat.lt_irrefl 0 hpast
    · rw [lastKind, hnone] at hpast
      exact Nat.lt_irrefl 0 hpast
    · exact ih (List.pairwise_cons.mp hsorted).2 (notBefore_step hsorted) (Nat.lt_of_lt_of_le hpast hnow)

theorem rank_le_of_mem (hsorted : (nowMs :: times).Pairwise (· ≤ ·)) {kind : StateKind}
    (h : kind ∈ (nowMs :: times).map (m.tracker.kindAt cert)) :
    (m.tracker.kindAt cert nowMs).rank ≤ kind.rank := by
  obtain ⟨time, htime, rfl⟩ := List.mem_map.mp h
  rcases List.mem_cons.mp htime with rfl | htime
  · exact Nat.le_refl _
  · exact m.tracker.rank_kindAt_mono cert ((List.pairwise_cons.mp hsorted).1 time htime)

theorem covered_iff_of_valid (hsorted : times.Pairwise (· ≤ ·)) (hstate : m.lastState ≠ none)
    (hvalid : m.lastKind = .valid) :
    RunMeets (step cert) (Covered cert) m times ↔
      (.gracePeriod ∈ times.map (m.tracker.kindAt cert) →
        .warning ∈ times.map (m.tracker.kindAt cert)) := by
  induction times generalizing m with
  | nil => exact iff_of_true trivial fun h => absurd h List.not_mem_nil
  | cons nowMs times ih =>
    have hrest := (List.pairwise_cons.mp hsorted).2
    cases hkind : m.tracker.kindAt cert nowMs with
    | valid =>
      -- nothing has happened yet
      have hnext := ih hrest (m := m.step cert nowMs) (Option.some_ne_none _) hkind
      simp only [RunMeets, Covered, hkind, List.map_cons, List.mem_cons, reduceCtorEq, false_implies,
        and_true, true_and, false_or]
      exact hnext
    | warning =>
      -- from here on every change is reported
      refine iff_of_true ⟨⟨fun h => ?_, fun _ => hstate⟩,
        covered_of_past hrest (notBefore_step hsorted) ?_⟩
        fun _ => List.mem_map.mpr ⟨nowMs, List.mem_cons_self, hkind⟩
      · rw [hkind] at h
        cases h
      · rw [lastKind_step, hkind]
        exact Nat.one_pos
    | gracePeriod =>
      -- the change is missed, and the time of warning is over
      refine iff_of_false (fun h => h.1.1 hkind hvalid) fun h => ?_
      have hle := rank_le_of_mem hsorted (h (List.mem_map.mpr ⟨nowMs, List.mem_cons_self, hkind⟩))
      rw [hkind] at hle
      exact absurd hle (by decide)
    | expired =>
      refine iff_of_true ⟨⟨fun h => ?_, fun _ => hstate⟩,
        covered_of_past hrest (notBefore_step hsorted) ?_⟩
        fun h => ?_
      · rw [hkind] at h
        cases h
      · rw [lastKind_step, hkind]
        exact Nat.succ_pos _
      · have hle := rank_le_of_mem hsorted h
        rw [hkind] at hle
        exact absurd hle (by decide)

theorem covered_iff_of_new (hnew : m.lastState = none) :
    RunMeets (step cert) (Covered cert) m (nowMs :: times) ↔
      m.tracker.kindAt cert nowMs ≠ .expired ∧
        RunMeets (step cert) (Covered cert) { m with lastState := some (.valid 0) } (nowMs :: times) := by
  have hcovered : Covered cert m nowMs ↔ m.tracker.kindAt cert nowMs ≠ .expired ∧
      Covered cert { m with lastState := some (.valid 0) } nowMs := by
    simp only [Covered, lastKind, hnew, Option.map_none, Option.getD_none, Option.map_some,
      Option.getD_some, CertificateState.kind, Option.some_ne_none, ne_eq, not_true, imp_false,
      not_false_iff, implies_true, and_true]
    exact and_comm
  show Covered cert m nowMs ∧ _ ↔ _ ∧ Covered cert _ nowMs ∧ _
  rw [hcovered, and_assoc]
  rfl

theorem covered_iff_inTime (hstart : m.lastKind = .valid) (hsorted : times.Pairwise (· ≤ ·)) :
    RunMeets (step cert) (Covered cert) m times ↔ InTime cert m times := by
  unfold InTime
  simp only [← AuthStateTracker.kindAt_eq_iff, ← List.mem_map]
  by_cases hnew : m.lastState = none
  · cases times with
    | nil =>
      refine iff_of_true trivial ⟨fun _ _ h => ?_, fun h => absurd h List.not_mem_nil⟩
      cases h
    | cons nowMs times =>
      rw [covered_iff_of_new hnew, covered_iff_of_valid hsorted (Option.some_ne_none _) rfl]
      refine and_congr_left fun hwarned => ?_
      have hwithin := m.tracker.within_kindAt cert nowMs
      simp only [hnew, List.head?_cons, Option.some.injEq, forall_eq', true_implies]
      cases hkind : m.tracker.kindAt cert nowMs <;>
        simp only [hkind, AuthStateTracker.Within] at hwithin
      case gracePeriod =>
        -- no later look is in the time of warning
        have hle := rank_le_of_mem hsorted (hwarned (List.mem_map.mpr ⟨nowMs, List.mem_cons_self, hkind⟩))
        rw [hkind] at hle
        exact absurd hle (by decide)
      all_goals
        simp only [ne_eq, reduceCtorEq, not_true, not_false_iff, true_iff, false_iff]
        omega
  · rw [covered_iff_of_valid hsorted hnew hstart]
    exact ⟨fun h => ⟨fun hnone => absurd hnone hnew, h⟩, And.right⟩

end Steps

/-- **The monitor reports the changes** of one certificate over a run of calls exactly when the calls
    come in time. -/
theorem faithful_iff (m : AuthStateMonitor) (cert : MembershipCertificate) (times : List Nat)
    (hstart : m.lastKind = .valid) (hsorted : times.Pairwise (· ≤ ·)) :
    Faithful (looks cert m times) ↔ InTime cert m times := by
  have hmono : NotBefore cert m times := by
    intro time _
    rw [hstart]
    exact Nat.zero_le _
  rw [← covered_iff_inTime hstart hsorted, ← exact_iff_covered hsorted hmono]
  constructor
  · exact Faithful.exact
  · intro hexact
    refine ⟨hexact, (events_order hsorted hmono hexact).2, fun earlier look later hsplit hseen => ?_⟩
    exact (announced_of_exact hexact hsplit).resolve_left fun h => hseen (h.trans hstart)

/-- Looks in every stretch of the default timeline are reported: the warning, the grace period and the
    end. -/
theorem faithful_iff_each_stretch :
    let m := new ⟨AuthConfig.default⟩
    Faithful (looks (certificateUntil 86400000) m [0, 82800000, 86400000, 100800000]) ∧
      events (looks (certificateUntil 86400000) m [0, 82800000, 86400000, 100800000]) =
        [.enteringWarning 3600000, .enteringGracePeriod 14400000, .expired] := by
  refine ⟨(faithful_iff _ _ _ rfl (by decide)).mpr ⟨fun _ first hfirst => ?_, fun _ => ?_⟩, by decide⟩
  · cases hfirst
    decide
  · exact ⟨82800000, by decide, by decide, by decide⟩

/-- **The grace period goes unannounced**: a monitor that looks at the start and an hour after the end
    returns nothing; one that first looks after the grace period never says that the certificate has
    expired. -/
theorem grace_period_unannounced :
    let m := new ⟨AuthConfig.default⟩
    let cert := certificateUntil 86400000
    looks cert m [0, 90000000] = [⟨.valid, .valid, none⟩, ⟨.valid, .gracePeriod, none⟩] ∧
      looks cert m [100800000] = [⟨.valid, .expired, none⟩] ∧
      ¬ Faithful (looks cert m [0, 90000000]) ∧ ¬ Faithful (looks cert m [100800000]) := by
  have hgrace : looks (certificateUntil 86400000) (new ⟨AuthConfig.default⟩) [0, 90000000] =
      [⟨.valid, .valid, none⟩, ⟨.valid, .gracePeriod, none⟩] := by decide
  have hexpired : looks (certificateUntil 86400000) (new ⟨AuthConfig.default⟩) [100800000] =
      [⟨.valid, .expired, none⟩] := by decide
  refine ⟨hgrace, hexpired, fun h => ?_, fun h => ?_⟩
  · have hlook := h.exact ⟨.valid, .gracePeriod, none⟩ (by rw [hgrace]; decide)
    exact absurd (hlook.1.mpr (by decide)) (by decide)
  · have hlook := h.exact ⟨.valid, .expired, none⟩ (by rw [hexpired]; decide)
    exact absurd (hlook.1.mpr (by decide)) (by decide)

end AuthStateMonitor

end Peat.Security
