/-
  ACCOUNT LOCKOUT over whole runs of the user authenticator.

  Beside the authenticator stands, for every username, the WINDOW since the last
  successful login or unlock. One account with its window is an automaton of its own
  (`Account.act`), and every operation acts on at most one (`account_step`).
-/
import Peat.Lib.Run
import Peat.Security.UserAuth

namespace Peat.Security

open Peat.Lib

/-! ## 1. One account and its window -/

/-- The calls refused since the last successful login or unlock: `counted` ones that the record counts,
    on top of the counter's `start`, and those refused for the second factor. -/
structure Window where
  start : UInt32
  counted : Nat
  secondFactor : Nat
  disabled : Bool

namespace Window

def opening (start : UInt32) : Window := ⟨start, 0, 0, false⟩

def refusals (w : Window) : Nat := w.counted + w.secondFactor

end Window

inductive Outcome where
  | unverified
  | wrongCredential
  | wrongSecondFactor
  | verified

def outcome (verify : AuthMethod → Except SecurityError Bool) : Option UserRecord → Outcome
  | none => .unverified
  | some user =>
    if user.status = .active then
      match verify user.authMethod with
      | .ok true => .verified
      | .ok false => .wrongCredential
      | .error .invalidMfaCode => .wrongSecondFactor
      | .error _ => .unverified
    else .unverified

def Window.after (w : Window) : Outcome → Window
  | .unverified => w
  | .wrongCredential => { w with counted := w.counted + 1 }
  | .wrongSecondFactor => { w with secondFactor := w.secondFactor + 1 }
  | .verified => .opening 0

/-- A refusal leaves the limit out of reach, or it is one that counts, and the counter started at no
    less than the refusals this window did not count (and not at its greatest value, from which it
    wraps around). -/
def Window.Clear (max : UInt32) (w : Window) : Outcome → Prop
  | .wrongCredential => w.refusals + 1 < max.toNat ∨
      w.secondFactor ≤ w.start.toNat ∧ w.start.toNat + 1 < UInt32.size
  | .wrongSecondFactor => w.refusals + 1 < max.toNat
  | .unverified => True
  | .verified => True

instance (max : UInt32) (w : Window) : ∀ o, Decidable (w.Clear max o)
  | .wrongCredential => inferInstanceAs (Decidable (_ ∨ _))
  | .wrongSecondFactor => inferInstanceAs (Decidable (_ < _))
  | .unverified => isTrue trivial
  | .verified => isTrue trivial

def Verdict.recordAfter (old : Option UserRecord) : Verdict → Option UserRecord
  | .refuse _ => old
  | .fail record _ => some record
  | .accept record => some record

structure Account where
  record : Option UserRecord
  window : Window

inductive Action where
  | login (verify : AuthMethod → Except SecurityError Bool) (username : String) (loginAt : Int)
  | unlock
  | disable
  | changePassword (method : AuthMethod → Except SecurityError AuthMethod)
  | register (record : UserRecord)

namespace Account

def act (max : UInt32) (acc : Account) : Action → Account
  | .login verify username loginAt =>
    ⟨(judge max verify username loginAt acc.record).recordAfter acc.record,
      acc.window.after (outcome verify acc.record)⟩
  | .unlock =>
    match acc.record with
    | none => acc
    | some user => ⟨some (UserAuthenticator.unlocked user), .opening 0⟩
  | .disable =>
    match acc.record with
    | none => acc
    | some user => ⟨some (UserAuthenticator.disabled user), { acc.window with disabled := true }⟩
  | .changePassword method =>
    match acc.record with
    | none => acc
    | some user =>
      match method user.authMethod with
      | .error _ => acc
      | .ok authMethod => ⟨some { user with authMethod }, acc.window⟩
  | .register record =>
    match acc.record with
    | none => ⟨some record, .opening record.failedAttempts⟩
    | some _ => acc

def closedStatus (w : Window) : AccountStatus := if w.disabled then .disabled else .locked

/-- **Locked out in time**: with the limit of refusals reached, the account is locked. -/
def LockedOut (max : UInt32) (acc : Account) : Prop :=
  max.toNat ≤ acc.window.refusals →
    ∃ user, acc.record = some user ∧ user.status = closedStatus acc.window

def Clear (max : UInt32) (acc : Account) : Action → Prop
  | .login verify _ _ => acc.window.Clear max (outcome verify acc.record)
  | _ => True

instance (max : UInt32) (acc : Account) : ∀ action, Decidable (acc.Clear max action)
  | .login verify _ _ => inferInstanceAs (Decidable (acc.window.Clear max (outcome verify acc.record)))
  | .unlock | .disable | .changePassword _ | .register _ => isTrue trivial

structure Inv (max : UInt32) (acc : Account) : Prop where
  absent : acc.record = none → acc.window.refusals = 0
  counter : ∀ user, acc.record = some user →
    user.failedAttempts = acc.window.start + UInt32.ofNat acc.window.counted
  active : ∀ user, acc.record = some user → user.status = .active →
    acc.window.counted = 0 ∨ acc.window.start.toNat + 1 = UInt32.size ∨
      acc.window.start.toNat + acc.window.counted < max.toNat
  disabled : ∀ user, acc.record = some user → acc.window.disabled = true → user.status = .disabled

theorem login_cases (max : UInt32) (acc : Account)
    (verify : AuthMethod → Except SecurityError Bool) (username : String) (loginAt : Int) :
    (outcome verify acc.record = .unverified ∧ acc.act max (.login verify username loginAt) = acc) ∨
    ∃ user, acc.record = some user ∧ user.status = .active ∧
      ((outcome verify acc.record = .wrongCredential ∧
        acc.act max (.login verify username loginAt) =
          ⟨some (user.recordFailure max), acc.window.after .wrongCredential⟩) ∨
      (outcome verify acc.record = .wrongSecondFactor ∧
        acc.act max (.login verify username loginAt) =
          ⟨some user, acc.window.after .wrongSecondFactor⟩) ∨
      (outcome verify acc.record = .verified ∧
        acc.act max (.login verify username loginAt) =
          ⟨some (user.recordLogin loginAt), .opening 0⟩)) := by
  obtain ⟨record, window⟩ := acc
  cases record with
  | none => exact .inl ⟨rfl, rfl⟩
  | some user =>
    by_cases hactive : user.status = .active
    · cases hv : verify user.authMethod with
      | error e =>
        by_cases he : e = .invalidMfaCode
        · subst he
          refine .inr ⟨user, rfl, hactive, .inr (.inl ⟨?_, ?_⟩)⟩
          · simp only [outcome, hactive, hv, if_true]
          · simp only [act, judge, outcome, hactive, hv, if_true, Verdict.recordAfter]
        · have ho : outcome verify (some user) = .unverified := by
            simp only [outcome, hactive, hv, if_true]
          refine .inl ⟨ho, ?_⟩
          simp only [act, judge, ho, hactive, hv, Verdict.recordAfter, Window.after]
      | ok verified =>
        cases verified with
        | false =>
          refine .inr ⟨user, rfl, hactive, .inl ⟨?_, ?_⟩⟩
          · simp only [outcome, hactive, hv, if_true]
          · simp only [act, judge, outcome, hactive, hv, if_true, Verdict.recordAfter]
        | true =>
          refine .inr ⟨user, rfl, hactive, .inr (.inr ⟨?_, ?_⟩)⟩
          · simp only [outcome, hactive, hv, if_true]
          · simp only [act, judge, outcome, hactive, hv, if_true, Verdict.recordAfter, Window.after]
    · have ho : outcome verify (some user) = .unverified := if_neg hactive
      refine .inl ⟨ho, ?_⟩
      rw [act, ho]
      cases hs : user.status with
      | active => exact absurd hs hactive
      | _ => simp only [judge, hs, Verdict.recordAfter, Window.after]

theorem changePassword_cases (max : UInt32) (acc : Account)
    (method : AuthMethod → Except SecurityError AuthMethod) :
    acc.act max (.changePassword method) = acc ∨
    ∃ user authMethod, acc.record = some user ∧
      acc.act max (.changePassword method) = ⟨some { user with authMethod }, acc.window⟩ := by
  obtain ⟨record, window⟩ := acc
  cases record with
  | none => exact .inl rfl
  | some user =>
    cases hm : method user.authMethod with
    | error e => exact .inl (by simp only [act, hm])
    | ok authMethod => exact .inr ⟨user, authMethod, rfl, by simp only [act, hm]⟩

variable {max : UInt32} {acc : Account}

theorem toNat_start_add (start : UInt32) (n : Nat) :
    (start + UInt32.ofNat n).toNat = (start.toNat + n) % UInt32.size := by
  simp [UInt32.size]

variable {user : UserRecord}

theorem Inv.counter_succ (h : Inv max acc) (hrec : acc.record = some user) :
    user.failedAttempts + 1 = acc.window.start + UInt32.ofNat (acc.window.counted + 1) := by
  rw [h.counter user hrec, UInt32.ofNat_add, ← UInt32.add_assoc]
  rfl

theorem Inv.locks_iff (h : Inv max acc) (hrec : acc.record = some user)
    (hactive : user.status = .active) (hreach : acc.window.refusals + 1 = max.toNat) :
    max ≤ user.failedAttempts + 1 ↔
      acc.window.secondFactor ≤ acc.window.start.toNat ∧
        acc.window.start.toNat + 1 < UInt32.size := by
  have hmax : max.toNat < UInt32.size := max.toNat_lt
  have hstart : acc.window.start.toNat < UInt32.size := acc.window.start.toNat_lt
  have hbound := h.active user hrec hactive
  rw [UInt32.le_iff_toNat_le, h.counter_succ hrec, toNat_start_add]
  unfold Window.refusals at hreach
  unfold UInt32.size at *
  omega

theorem Inv.below_limit (h : Inv max acc) (hrec : acc.record = some user)
    (hactive : user.status = .active) (hnot : ¬ max ≤ user.failedAttempts + 1) :
    acc.window.start.toNat + 1 = UInt32.size ∨
      acc.window.start.toNat + (acc.window.counted + 1) < max.toNat := by
  have hmax : max.toNat < UInt32.size := max.toNat_lt
  have hstart : acc.window.start.toNat < UInt32.size := acc.window.start.toNat_lt
  have hbound := h.active user hrec hactive
  rw [UInt32.le_iff_toNat_le, h.counter_succ hrec, toNat_start_add] at hnot
  unfold UInt32.size at *
  omega

theorem inv_some {w : Window} (counter : user.failedAttempts = w.start + UInt32.ofNat w.counted)
    (active : user.status = .active → w.counted = 0 ∨ w.start.toNat + 1 = UInt32.size ∨
      w.start.toNat + w.counted < max.toNat)
    (disabled : w.disabled = true → user.status = .disabled) : Inv max ⟨some user, w⟩ := by
  refine ⟨nofun, fun u hu => ?_, fun u hu => ?_, fun u hu => ?_⟩
  · cases hu
    exact counter
  · cases hu
    exact active
  · cases hu
    exact disabled

theorem inv_opened {start : UInt32} (h : user.failedAttempts = start) :
    Inv max ⟨some user, .opening start⟩ :=
  inv_some (h.trans (UInt32.add_zero start).symm) (fun _ => .inl rfl) nofun

theorem inv_opening (start : UInt32) (record : Option UserRecord)
    (h : ∀ user, record = some user → user.failedAttempts = start) :
    Inv max ⟨record, .opening start⟩ := by
  cases record with
  | none =>
    have hno : ∀ user : UserRecord, none ≠ some user := fun user => (Option.some_ne_none user).symm
    exact ⟨fun _ => rfl, fun u hu => absurd hu (hno u), fun u hu => absurd hu (hno u),
      fun u hu => absurd hu (hno u)⟩
  | some user => exact inv_opened (h user rfl)

theorem status_recordFailure (user : UserRecord) (max : UInt32) :
    (user.recordFailure max).status =
      if max ≤ user.failedAttempts + 1 then .locked else user.status := rfl

theorem Inv.not_disabled (h : Inv max acc) (hrec : acc.record = some user)
    (hactive : user.status = .active) : acc.window.disabled = false := by
  refine Bool.eq_false_iff.mpr fun hd => ?_
  have hdis := h.disabled user hrec hd
  rw [hactive] at hdis
  nomatch hdis

theorem Inv.wrongCredential (h : Inv max acc) (hrec : acc.record = some user)
    (hactive : user.status = .active) :
    Inv max ⟨some (user.recordFailure max), acc.window.after .wrongCredential⟩ := by
  refine inv_some (h.counter_succ hrec) (fun hnow => ?_) fun hd => ?_
  · refine .inr (h.below_limit hrec hactive fun hlimit => ?_)
    rw [status_recordFailure, if_pos hlimit] at hnow
    nomatch hnow
  · rw [show (acc.window.after .wrongCredential).disabled = acc.window.disabled from rfl,
      h.not_disabled hrec hactive] at hd
    nomatch hd

theorem Inv.act (h : Inv max acc) (action : Action) : Inv max (acc.act max action) := by
  obtain ⟨record, window⟩ := acc
  cases action with
  | login verify username loginAt =>
    obtain ⟨-, e⟩ | ⟨user, hrec, hactive, ⟨-, e⟩ | ⟨-, e⟩ | ⟨-, e⟩⟩ :=
      login_cases max ⟨record, window⟩ verify username loginAt
    · rw [e]
      exact h
    · rw [e]
      exact h.wrongCredential hrec hactive
    · rw [e, ← hrec]
      refine ⟨fun hn => ?_, h.counter, h.active, h.disabled⟩
      rw [hrec] at hn
      nomatch hn
    · rw [e]
      exact inv_opened rfl
  | unlock =>
    cases record with
    | none => exact h
    | some user => exact inv_opened rfl
  | disable =>
    cases record with
    | none => exact h
    | some user =>
      refine inv_some (h.counter user rfl) (fun hnow => ?_) fun _ => rfl
      nomatch hnow
  | changePassword method =>
    obtain e | ⟨user, authMethod, hrec, e⟩ :=
      changePassword_cases max ⟨record, window⟩ method
    · rw [e]
      exact h
    · rw [e]
      exact inv_some (h.counter user hrec) (h.active user hrec) (h.disabled user hrec)
  | register new =>
    cases record with
    | none => exact inv_opened rfl
    | some user => exact h

theorem closedStatus_ne_active (w : Window) : closedStatus w ≠ .active := by
  unfold closedStatus
  split <;> nofun

theorem lockedOut_of_lt (h : acc.window.refusals < max.toNat) : acc.LockedOut max :=
  fun hle => absurd h (Nat.not_lt.mpr hle)

theorem LockedOut.lt_of_active (h : acc.LockedOut max) (hrec : acc.record = some user)
    (hactive : user.status = .active) : acc.window.refusals < max.toNat := by
  refine Nat.lt_of_not_le fun hle => ?_
  obtain ⟨user', hrec', hclosed⟩ := h hle
  cases hrec.symm.trans hrec'
  exact closedStatus_ne_active acc.window (hclosed.symm.trans hactive)

theorem refusals_after_wrongCredential (w : Window) :
    (w.after .wrongCredential).refusals = w.refusals + 1 := Nat.add_right_comm _ _ _

theorem lockedOut_wrongCredential_iff (h : Inv max acc) (hlocked : acc.LockedOut max)
    (hrec : acc.record = some user) (hactive : user.status = .active) :
    LockedOut max ⟨some (user.recordFailure max), acc.window.after .wrongCredential⟩ ↔
      acc.window.refusals + 1 < max.toNat ∨
        acc.window.secondFactor ≤ acc.window.start.toNat ∧
          acc.window.start.toNat + 1 < UInt32.size := by
  have hlt := hlocked.lt_of_active hrec hactive
  by_cases hbelow : acc.window.refusals + 1 < max.toNat
  · refine iff_of_true (lockedOut_of_lt ?_) (.inl hbelow)
    rw [refusals_after_wrongCredential]
    exact hbelow
  have hreach : acc.window.refusals + 1 = max.toNat := Nat.le_antisymm hlt (Nat.not_lt.mp hbelow)
  have hclosed : closedStatus (acc.window.after .wrongCredential) = .locked := by
    rw [closedStatus, show (acc.window.after .wrongCredential).disabled = acc.window.disabled from rfl,
      h.not_disabled hrec hactive]
    rfl
  rw [or_iff_right hbelow, ← h.locks_iff hrec hactive hreach]
  constructor
  · intro hout
    obtain ⟨_, ⟨⟩, hstatus⟩ := hout (by rw [refusals_after_wrongCredential]; exact hreach.ge)
    rw [hclosed, status_recordFailure, hactive] at hstatus
    exact Decidable.of_not_not fun hn => nomatch (if_neg hn).symm.trans hstatus
  · intro hlimit _
    exact ⟨_, rfl, by rw [hclosed, status_recordFailure, if_pos hlimit]⟩

theorem lockedOut_wrongSecondFactor_iff (hactive : user.status = .active) :
    LockedOut max ⟨some user, acc.window.after .wrongSecondFactor⟩ ↔
      acc.window.refusals + 1 < max.toNat := by
  constructor
  · intro hout
    exact hout.lt_of_active rfl hactive
  · exact fun hbelow => lockedOut_of_lt hbelow

theorem lockedOut_act_iff (hmax : 0 < max.toNat) (h : Inv max acc) (hlocked : acc.LockedOut max)
    (action : Action) : (acc.act max action).LockedOut max ↔ acc.Clear max action := by
  obtain ⟨record, window⟩ := acc
  have hopen : ∀ start rec, LockedOut max ⟨rec, .opening start⟩ := fun _ _ => lockedOut_of_lt hmax
  cases action with
  | login verify username loginAt =>
    obtain ⟨ho, e⟩ | ⟨user, hrec, hactive, ⟨ho, e⟩ | ⟨ho, e⟩ | ⟨ho, e⟩⟩ :=
      login_cases max ⟨record, window⟩ verify username loginAt
    · rw [e, Clear, ho]
      exact iff_of_true hlocked trivial
    · rw [e, Clear, ho]
      exact lockedOut_wrongCredential_iff h hlocked hrec hactive
    · rw [e, Clear, ho]
      exact lockedOut_wrongSecondFactor_iff hactive
    · rw [e, Clear, ho]
      exact iff_of_true (hopen _ _) trivial
  | unlock =>
    cases record with
    | none => exact iff_of_true hlocked trivial
    | some user => exact iff_of_true (hopen _ _) trivial
  | disable =>
    cases record with
    | none => exact iff_of_true hlocked trivial
    | some user => exact iff_of_true (fun _ => ⟨_, rfl, rfl⟩) trivial
  | changePassword method =>
    refine iff_of_true ?_ trivial
    obtain e | ⟨user, authMethod, hrec, e⟩ :=
      changePassword_cases max ⟨record, window⟩ method
    · rw [e]
      exact hlocked
    · rw [e]
      intro hle
      obtain ⟨user', hrec', hstatus⟩ := hlocked hle
      cases hrec.symm.trans hrec'
      exact ⟨_, rfl, hstatus⟩
  | register new =>
    cases record with
    | none => exact iff_of_true (hopen _ _) trivial
    | some user => exact iff_of_true hlocked trivial

end Account

/-! ## 2. Runs of the authenticator -/

/-- The authenticator, and by user the refusals that count. -/
structure LoginJournal where
  auth : UserAuthenticator
  windows : String → Window

namespace LoginJournal

inductive Op where
  | authenticate (username : String) (credential : Credential) (input : LoginInput)
  | authenticatePasswordOnly (username password : String) (input : LoginInput)
  | validateSession (id : SessionId) (now : Int)
  | invalidateSession (id : SessionId)
  | invalidateUserSessions (username : String)
  | cleanupExpiredSessions (now : Int)
  | bindSessionToDevice (id : SessionId) (deviceId : DeviceId)
  | unlockAccount (username : String)
  | disableAccount (username : String)
  | changePassword (username oldPassword newPassword salt : String)
  | registerUser (password : String) (identity : UserIdentity) (salt : String)
      (totpSecret : Vector UInt8 20) (now : Int)

variable {PasswordHash : Type} (prim : Primitives PasswordHash)

def applied (a : UserAuthenticator) : Op → UserAuthenticator
  | .authenticate username credential input => (a.authenticate prim username credential input).2
  | .authenticatePasswordOnly username password input =>
    (a.authenticatePasswordOnly prim username password input).2
  | .validateSession id now => (a.validateSession id now).2
  | .invalidateSession id => a.invalidateSession id
  | .invalidateUserSessions username => a.invalidateUserSessions username
  | .cleanupExpiredSessions now => a.cleanupExpiredSessions now
  | .bindSessionToDevice id deviceId => (a.bindSessionToDevice id deviceId).2
  | .unlockAccount username => (a.unlockAccount username).2
  | .disableAccount username => (a.disableAccount username).2
  | .changePassword username oldPassword newPassword salt =>
    (a.changePassword prim username oldPassword newPassword salt).2
  | .registerUser password identity salt totpSecret now =>
    (a.registerUser prim password identity salt totpSecret now).2

def action? : Op → Option (String × Action)
  | .authenticate username credential input =>
    some (username, .login (verifyCredentials prim credential input.totpAt) username input.loginAt)
  | .authenticatePasswordOnly username password input =>
    some (username, .login (verifyPasswordOnly prim password) username input.loginAt)
  | .unlockAccount username => some (username, .unlock)
  | .disableAccount username => some (username, .disable)
  | .changePassword username oldPassword newPassword salt =>
    some (username, .changePassword
      (UserAuthenticator.changedMethod prim username oldPassword newPassword salt))
  | .registerUser password identity salt totpSecret now =>
    match prim.hashPassword (bytesOf password) salt with
    | .error _ => none
    | .ok hash => some (identity.username,
        .register (UserAuthenticator.registered identity hash totpSecret.toList now))
  | _ => none

def account (j : LoginJournal) (username : String) : Account :=
  ⟨j.auth.userStore.getUser username, j.windows username⟩

def start (auth : UserAuthenticator) : LoginJournal :=
  ⟨auth, fun username => .opening ((auth.userStore.getUser username).elim 0 (·.failedAttempts))⟩

def step (j : LoginJournal) (op : Op) : LoginJournal where
  auth := applied prim j.auth op
  windows :=
    match action? prim op with
    | none => j.windows
    | some (username, action) => Function.update j.windows username
        ((j.account username).act j.auth.maxFailedAttempts action).window

/-- **Account lockout** of one user: with the limit of refusals reached the account is locked (or an
    administrator has disabled it since), and no login opens a session or changes anything. -/
def Enforced (j : LoginJournal) (username : String) : Prop :=
  j.auth.maxFailedAttempts.toNat ≤ (j.windows username).refusals →
    (∃ user, j.auth.userStore.getUser username = some user ∧
      user.status = Account.closedStatus (j.windows username)) ∧
    (∀ credential input, ∃ e,
      j.auth.authenticate prim username credential input = (.error e, j.auth)) ∧
    ∀ password input, ∃ e,
      j.auth.authenticatePasswordOnly prim username password input = (.error e, j.auth)

/-- A login finds the count of failures where the lockout expects it. -/
def Clear (j : LoginJournal) (op : Op) : Prop :=
  match action? prim op with
  | none => True
  | some (username, action) => (j.account username).Clear j.auth.maxFailedAttempts action

instance (j : LoginJournal) (op : Op) : Decidable (j.Clear prim op) :=
  match h : action? prim op with
  | none => isTrue (by rw [Clear, h]; trivial)
  | some (username, action) =>
    decidable_of_iff ((j.account username).Clear j.auth.maxFailedAttempts action)
      (by rw [Clear, h])

variable {prim}

section Accounts

variable {a : UserAuthenticator} {name username : String}

theorem getUser_unwritten {s : LocalUserStore} {read : Option UserRecord}
    (h : s.getUser username = read) :
    s.getUser name = if name = username then read else s.getUser name := by
  rw [← h]
  exact apply_eq_ite_own s.getUser username name

variable {record : UserRecord} {next : UserAuthenticator → UserAuthenticator}

theorem getUser_updateThen {user : UserRecord} (hnext : ∀ b, (next b).userStore = b.userStore)
    (h : a.userStore.getUser username = some user) (hid : record.identity = user.identity) :
    (a.updateThen record next).2.userStore.getUser name =
      if name = username then some record else a.userStore.getUser name := by
  rw [UserAuthenticator.updateThen_eq next h hid, hnext]
  exact LocalUserStore.getUser_updateUser h hid

theorem getUser_login (verify : AuthMethod → Except SecurityError Bool) (input : LoginInput) :
    (a.login verify username input).2.userStore.getUser name =
      if name = username then
        (judge a.maxFailedAttempts verify username input.loginAt
          (a.userStore.getUser username)).recordAfter (a.userStore.getUser username)
      else a.userStore.getUser name := by
  unfold UserAuthenticator.login
  obtain ⟨e, he⟩ | ⟨user, hread, -, he | he⟩ := judge_cases a.maxFailedAttempts verify username
    input.loginAt (a.userStore.getUser username)
  · rw [he]
    exact getUser_unwritten rfl
  · rw [he]
    exact LocalUserStore.getUser_updateUser hread rfl
  · rw [he]
    exact LocalUserStore.getUser_updateUser hread rfl

def acted (a : UserAuthenticator) (username : String) (action : Action) (w : Window) :
    Option UserRecord :=
  ((⟨a.userStore.getUser username, w⟩ : Account).act a.maxFailedAttempts action).record

theorem getUser_unlockAccount (w : Window) : (a.unlockAccount username).2.userStore.getUser name =
    if name = username then acted a username .unlock w else a.userStore.getUser name := by
  unfold UserAuthenticator.unlockAccount acted
  cases hread : a.userStore.getUser username with
  | none => exact getUser_unwritten hread
  | some user => exact getUser_updateThen (fun _ => rfl) hread rfl

theorem getUser_disableAccount (w : Window) : (a.disableAccount username).2.userStore.getUser name =
    if name = username then acted a username .disable w else a.userStore.getUser name := by
  unfold UserAuthenticator.disableAccount acted
  cases hread : a.userStore.getUser username with
  | none => exact getUser_unwritten hread
  | some user => exact getUser_updateThen (fun _ => rfl) hread rfl

theorem getUser_changePassword (old new salt : String) (w : Window) :
    (a.changePassword prim username old new salt).2.userStore.getUser name =
      if name = username then acted a username
        (.changePassword (UserAuthenticator.changedMethod prim username old new salt)) w
      else a.userStore.getUser name := by
  unfold UserAuthenticator.changePassword acted
  cases hread : a.userStore.getUser username with
  | none => exact getUser_unwritten hread
  | some user =>
    simp only [Account.act]
    cases UserAuthenticator.changedMethod prim username old new salt user.authMethod with
    | error e => exact getUser_unwritten hread
    | ok method => exact getUser_updateThen (fun _ => rfl) hread rfl

theorem getUser_storeUser (record : UserRecord) (w : Window) :
    (a.userStore.storeUser record).2.getUser name =
      if name = record.identity.username then
        acted a record.identity.username (.register record) w else a.userStore.getUser name := by
  unfold LocalUserStore.storeUser acted
  cases hread : a.userStore.getUser record.identity.username with
  | none => exact LocalUserStore.getUser_put
  | some user => exact getUser_unwritten hread

theorem userStore_registerUser (password : String) (identity : UserIdentity) (salt : String)
    (totpSecret : Vector UInt8 20) (now : Int) :
    (a.registerUser prim password identity salt totpSecret now).2.userStore =
      match prim.hashPassword (bytesOf password) salt with
      | .error _ => a.userStore
      | .ok hash => (a.userStore.storeUser
          (UserAuthenticator.registered identity hash totpSecret.toList now)).2 := by
  unfold UserAuthenticator.registerUser
  cases prim.hashPassword (bytesOf password) salt with
  | error e => rfl
  | ok hash =>
    dsimp only
    split <;> (rename_i e; rw [e])

theorem userStore_validateSession (id : SessionId) (now : Int) :
    (a.validateSession id now).2.userStore = a.userStore := by
  unfold UserAuthenticator.validateSession
  split
  · rfl
  · split <;> rfl

theorem userStore_bindSessionToDevice (id : SessionId) (deviceId : DeviceId) :
    (a.bindSessionToDevice id deviceId).2.userStore = a.userStore := by
  unfold UserAuthenticator.bindSessionToDevice
  split <;> rfl

theorem getUser_applied (op : Op) (windows : String → Window) :
    (applied prim a op).userStore.getUser name =
      match action? prim op with
      | none => a.userStore.getUser name
      | some (username, action) =>
        if name = username then acted a username action (windows username)
        else a.userStore.getUser name := by
  cases op with
  | authenticate username credential input => exact getUser_login _ input
  | authenticatePasswordOnly username password input => exact getUser_login _ input
  | validateSession id now => exact congrArg (·.getUser name) (userStore_validateSession id now)
  | invalidateSession id => rfl
  | invalidateUserSessions username => rfl
  | cleanupExpiredSessions now => rfl
  | bindSessionToDevice id deviceId =>
    exact congrArg (·.getUser name) (userStore_bindSessionToDevice id deviceId)
  | unlockAccount username => exact getUser_unlockAccount _
  | disableAccount username => exact getUser_disableAccount _
  | changePassword username old new salt => exact getUser_changePassword old new salt _
  | registerUser password identity salt totpSecret now =>
    rw [applied, userStore_registerUser, action?]
    cases prim.hashPassword (bytesOf password) salt with
    | error e => rfl
    | ok hash => exact getUser_storeUser _ _

theorem maxFailedAttempts_updateThen
    (hnext : ∀ b, (next b).maxFailedAttempts = b.maxFailedAttempts) :
    (a.updateThen record next).2.maxFailedAttempts = a.maxFailedAttempts := by
  unfold UserAuthenticator.updateThen
  split
  · rfl
  · exact hnext _

theorem maxFailedAttempts_login (verify : AuthMethod → Except SecurityError Bool)
    (input : LoginInput) :
    (a.login verify username input).2.maxFailedAttempts = a.maxFailedAttempts := by
  unfold UserAuthenticator.login
  split <;> rfl

theorem maxFailedAttempts_applied (op : Op) :
    (applied prim a op).maxFailedAttempts = a.maxFailedAttempts := by
  cases op with
  | authenticate username credential input => exact maxFailedAttempts_login _ input
  | authenticatePasswordOnly username password input => exact maxFailedAttempts_login _ input
  | validateSession id now =>
    rw [applied, UserAuthenticator.validateSession]
    split
    · rfl
    · split <;> rfl
  | invalidateSession id => rfl
  | invalidateUserSessions username => rfl
  | cleanupExpiredSessions now => rfl
  | bindSessionToDevice id deviceId =>
    rw [applied, UserAuthenticator.bindSessionToDevice]
    split <;> rfl
  | unlockAccount username =>
    rw [applied, UserAuthenticator.unlockAccount]
    split
    · rfl
    · exact maxFailedAttempts_updateThen fun _ => rfl
  | disableAccount username =>
    rw [applied, UserAuthenticator.disableAccount]
    split
    · rfl
    · exact maxFailedAttempts_updateThen fun _ => rfl
  | changePassword username old new salt =>
    rw [applied, UserAuthenticator.changePassword]
    split
    · rfl
    · split
      · rfl
      · exact maxFailedAttempts_updateThen fun _ => rfl
  | registerUser password identity salt totpSecret now =>
    rw [applied, UserAuthenticator.registerUser]
    split
    · rfl
    · split <;> rfl

end Accounts

variable {j : LoginJournal}

theorem account_step (op : Op) (name : String) :
    (j.step prim op).account name =
      match action? prim op with
      | none => j.account name
      | some (username, action) =>
        if name = username then (j.account username).act j.auth.maxFailedAttempts action
        else j.account name := by
  rw [account, step, getUser_applied op j.windows]
  cases action? prim op with
  | none => rfl
  | some target =>
    obtain ⟨username, action⟩ := target
    by_cases hname : name = username
    · subst hname
      simp only [if_true, Function.update_self]
      rfl
    · simp only [if_neg hname, Function.update_of_ne hname]
      rfl

def InOrder (j : LoginJournal) : Prop :=
  1 ≤ j.auth.maxFailedAttempts ∧ ∀ username, (j.account username).Inv j.auth.maxFailedAttempts

def AllLockedOut (j : LoginJournal) : Prop :=
  ∀ username, (j.account username).LockedOut j.auth.maxFailedAttempts

theorem maxFailedAttempts_step (op : Op) :
    (j.step prim op).auth.maxFailedAttempts = j.auth.maxFailedAttempts :=
  maxFailedAttempts_applied op

theorem InOrder.step (h : j.InOrder) (op : Op) : (j.step prim op).InOrder := by
  unfold InOrder
  simp only [account_step, maxFailedAttempts_step]
  refine ⟨h.1, fun name => ?_⟩
  cases action? prim op with
  | none => exact h.2 name
  | some target =>
    dsimp only
    split
    · exact (h.2 target.1).act target.2
    · exact h.2 name

theorem allLockedOut_step_iff (h : j.InOrder) (hlocked : j.AllLockedOut) (op : Op) :
    (j.step prim op).AllLockedOut ↔ j.Clear prim op := by
  unfold AllLockedOut Clear
  simp only [account_step, maxFailedAttempts_step]
  cases action? prim op with
  | none => exact iff_of_true hlocked trivial
  | some target =>
    obtain ⟨username, action⟩ := target
    have hact := Account.lockedOut_act_iff (UInt32.le_iff_toNat_le.mp h.1) (h.2 username)
      (hlocked username) action
    dsimp only
    rw [← hact]
    constructor
    · intro hall
      have hself := hall username
      rw [if_pos rfl] at hself
      exact hself
    · intro hself name
      split
      · exact hself
      · exact hlocked name

theorem login_closed {a : UserAuthenticator} {username : String} {user : UserRecord}
    (hread : a.userStore.getUser username = some user) (hclosed : user.status ≠ .active)
    (verify : AuthMethod → Except SecurityError Bool) (input : LoginInput) :
    ∃ e, a.login verify username input = (.error e, a) := by
  unfold UserAuthenticator.login
  obtain ⟨e, he⟩ | ⟨user', hread', hactive, -⟩ := judge_cases a.maxFailedAttempts verify username
    input.loginAt (a.userStore.getUser username)
  · exact ⟨e, by rw [he]⟩
  · cases hread.symm.trans hread'
    exact absurd hactive hclosed

theorem enforced_iff_lockedOut (username : String) :
    j.Enforced prim username ↔ (j.account username).LockedOut j.auth.maxFailedAttempts := by
  refine imp_congr_right fun hle => ⟨And.left, fun h => ⟨h, ?_⟩⟩
  obtain ⟨user, hread, hstatus⟩ := h
  have hclosed : user.status ≠ .active :=
    fun h => Account.closedStatus_ne_active _ (hstatus.symm.trans h)
  exact ⟨fun _ _ => login_closed hread hclosed _ _, fun _ _ => login_closed hread hclosed _ _⟩

theorem inOrder_start {auth : UserAuthenticator} (hmax : 1 ≤ auth.maxFailedAttempts) :
    (start auth).InOrder := by
  refine ⟨hmax, fun username => Account.inv_opening _ _ fun user hread => ?_⟩
  rw [show auth.userStore.getUser username = some user from hread]
  rfl

/-- **Account lockout** is enforced for every user in every state of a run exactly when every login of the
    run is clear. -/
theorem lockout_iff (prim : Primitives PasswordHash) (auth : UserAuthenticator)
    (hmax : 1 ≤ auth.maxFailedAttempts) (ops : List Op) :
    (∀ pre, pre <+: ops → ∀ username, (run (step prim) (start auth) pre).Enforced prim username) ↔
      RunMeets (step prim) (Clear prim) (start auth) ops := by
  have hstart : (start auth).AllLockedOut :=
    fun _ => Account.lockedOut_of_lt (UInt32.le_iff_toNat_le.mp hmax)
  rw [← run_within_iff_of_invariant InOrder AllLockedOut (fun _ op h => h.step op)
    (fun _ op h hlocked => allLockedOut_step_iff h hlocked op) (inOrder_start hmax) hstart]
  exact forall₂_congr fun pre _ => forall_congr' enforced_iff_lockedOut

def attempt (password totpCode : String) : Op :=
  .authenticate "alpha_6" (.passwordMfa password totpCode) ⟨0, 0, 0, ⟨7⟩⟩

/-- Five wrong passwords. -/
theorem lockout_iff_wrong_passwords : 1 ≤ alphaSix.maxFailedAttempts ∧
    ∀ pre, pre <+: List.replicate 5 (attempt "wrong" "000000") → ∀ username,
      (run (step plainPrimitives) (start alphaSix) pre).Enforced plainPrimitives username :=
  ⟨by decide, (lockout_iff plainPrimitives alphaSix (by decide) _).mpr (by decide +kernel)⟩

/-- **Guessing the second factor is free**: five wrong codes are not counted, and the next right one opens a
    session. -/
theorem second_factor_never_locks :
    let j := run (step plainPrimitives) (start alphaSix)
      (List.replicate 5 (attempt "password123" "111111"))
    (j.windows "alpha_6").refusals = 5 ∧ j.auth.userStore.getUser "alpha_6" =
        some alphaSixRecord ∧
      (∃ session, (j.auth.authenticate plainPrimitives "alpha_6"
        (.passwordMfa "password123" "000000") ⟨0, 0, 0, ⟨7⟩⟩).1 = .ok session) ∧
      ¬ j.Enforced plainPrimitives "alpha_6" := by
  refine ⟨by decide +kernel, by decide +kernel, ⟨_, rfl⟩, fun h => ?_⟩
  obtain ⟨⟨user, hread, hstatus⟩, -⟩ := h (by decide +kernel)
  have hactive : user.status = .active := by
    cases hread.symm.trans (show _ = some alphaSixRecord by decide +kernel)
    rfl
  exact Account.closedStatus_ne_active _ (hstatus.symm.trans hactive)

end LoginJournal

end Peat.Security
