/-
  CONCURRENT CALLS on one user authenticator, interleaved at its store reads, store
  writes and session-map accesses.

  A call is a `Stage`: the step it takes next, with what it has read. A call that is not
  interrupted is the function of the source (`drive_authenticate` and the others).
-/
import Peat.Lib.Run
import Peat.Security.UserAuth

namespace Peat.Security

open Peat.Lib

/-! ## 1. Calls as sequences of atomic steps -/

inductive Request where
  | authenticate (username : String) (credential : Credential) (input : LoginInput)
  | authenticatePasswordOnly (username password : String) (input : LoginInput)
  | changePassword (username oldPassword newPassword salt : String)
  | disableAccount (username : String)
  | unlockAccount (username : String)
  | validateSession (id : SessionId) (now : Int)

inductive Reply where
  | session (session : UserSession)
  | identity (identity : UserIdentity)
  | done

/-- Where a call is suspended, or its result. -/
inductive Stage where
  | read (request : Request)
  | writeFailure (record : UserRecord) (error : SecurityError)
  | writeLogin (record : UserRecord) (input : LoginInput)
  | insertSession (session : UserSession)
  | writePassword (username : String) (record : UserRecord)
  | dropSessions (username : String)
  | writeDisabled (username : String) (record : UserRecord)
  | dropDisabled (username : String)
  | writeUnlocked (record : UserRecord)
  | removeSession (id : SessionId)
  | finished (result : Except SecurityError Reply)

namespace UserAuthenticator

variable {PasswordHash : Type} (prim : Primitives PasswordHash)

def loginStage (input : LoginInput) : Verdict → Stage
  | .refuse e => .finished (.error e)
  | .fail record e => .writeFailure record e
  | .accept record => .writeLogin record input

def updateStage (a : UserAuthenticator) (username : String) (next : UserRecord → Stage) : Stage :=
  match a.userStore.getUser username with
  | none => .finished (.error (.userNotFound username))
  | some user => next user

def afterRead (a : UserAuthenticator) : Request → Stage
  | .authenticate username credential input =>
    loginStage input (judge a.maxFailedAttempts (verifyCredentials prim credential input.totpAt)
      username input.loginAt (a.userStore.getUser username))
  | .authenticatePasswordOnly username password input =>
    loginStage input (judge a.maxFailedAttempts (verifyPasswordOnly prim password)
      username input.loginAt (a.userStore.getUser username))
  | .changePassword username oldPassword newPassword salt => a.updateStage username fun user =>
    match changedMethod prim username oldPassword newPassword salt user.authMethod with
    | .error e => .finished (.error e)
    | .ok method => .writePassword username { user with authMethod := method }
  | .disableAccount username =>
    a.updateStage username fun user => .writeDisabled username (disabled user)
  | .unlockAccount username => a.updateStage username fun user => .writeUnlocked (unlocked user)
  | .validateSession id now =>
    match a.sessions.lookup id with
    | none => .finished (.error .sessionNotFound)
    | some session =>
      if session.isExpired now then .removeSession id
      else .finished (.ok (.identity session.identity))

def writeThen (a : UserAuthenticator) (record : UserRecord) (next : Stage) :
    UserAuthenticator × Stage :=
  (a.write record,
    match (a.userStore.updateUser record).1 with
    | .error e => .finished (.error e)
    | .ok () => next)

def advance (a : UserAuthenticator) : Stage → UserAuthenticator × Stage
  | .read request => (a, a.afterRead prim request)
  | .writeFailure record e => (a.write record, .finished (.error e))
  | .writeLogin record input => (a.write record, .insertSession (a.newSession record input))
  | .insertSession session => (a.insertSession session, .finished (.ok (.session session)))
  | .writePassword username record => a.writeThen record (.dropSessions username)
  | .dropSessions username => (a.invalidateUserSessions username, .finished (.ok .done))
  | .writeDisabled username record => a.writeThen record (.dropDisabled username)
  | .dropDisabled username => (a.invalidateUserSessions username, .finished (.ok .done))
  | .writeUnlocked record => a.writeThen record (.finished (.ok .done))
  | .removeSession id => (a.invalidateSession id, .finished (.error .sessionExpired))
  | .finished result => (a, .finished result)

def follow (p : UserAuthenticator × Stage) : UserAuthenticator × Stage := p.1.advance prim p.2

def drive (a : UserAuthenticator) (request : Request) : UserAuthenticator × Stage :=
  follow prim (follow prim (a.advance prim (.read request)))

variable {prim} {a : UserAuthenticator} {username : String} {user record : UserRecord}

theorem drive_eq (request : Request) :
    a.drive prim request = follow prim (a.advance prim (a.afterRead prim request)) := rfl

theorem drive_login {request : Request} {verify : AuthMethod → Except SecurityError Bool}
    {input : LoginInput} (h : a.afterRead prim request = loginStage input
      (judge a.maxFailedAttempts verify username input.loginAt (a.userStore.getUser username))) :
    a.drive prim request = ((a.login verify username input).2,
      .finished ((a.login verify username input).1.map .session)) := by
  rw [drive_eq, h, login]
  cases judge a.maxFailedAttempts verify username input.loginAt (a.userStore.getUser username) <;> rfl

theorem drive_authenticate (credential : Credential) (input : LoginInput) :
    a.drive prim (.authenticate username credential input) =
      ((a.authenticate prim username credential input).2,
        .finished ((a.authenticate prim username credential input).1.map .session)) :=
  drive_login rfl

theorem drive_authenticatePasswordOnly (password : String) (input : LoginInput) :
    a.drive prim (.authenticatePasswordOnly username password input) =
      ((a.authenticatePasswordOnly prim username password input).2,
        .finished ((a.authenticatePasswordOnly prim username password input).1.map .session)) :=
  drive_login rfl

theorem writeThen_eq (next : Stage) (h : a.userStore.getUser username = some user)
    (hid : record.identity = user.identity) : a.writeThen record next = (a.write record, next) := by
  rw [writeThen, LocalUserStore.updateUser_of_getUser h hid]

theorem updateStage_none (next : UserRecord → Stage) (h : a.userStore.getUser username = none) :
    a.updateStage username next = .finished (.error (.userNotFound username)) := by
  rw [updateStage, h]

theorem updateStage_some (next : UserRecord → Stage) (h : a.userStore.getUser username = some user) :
    a.updateStage username next = next user := by
  rw [updateStage, h]

theorem drive_write {stage next : Stage} {act : UserAuthenticator → UserAuthenticator}
    (h : a.userStore.getUser username = some user) (hid : record.identity = user.identity)
    (hstage : a.advance prim stage = a.writeThen record next)
    (hnext : ∀ b : UserAuthenticator, b.advance prim next = (act b, .finished (.ok .done))) :
    follow prim (a.advance prim stage) =
      ((a.updateThen record act).2, .finished ((a.updateThen record act).1.map fun _ => .done)) := by
  rw [hstage, writeThen_eq next h hid, updateThen_eq act h hid]
  exact hnext _

theorem drive_disableAccount : a.drive prim (.disableAccount username) =
    ((a.disableAccount username).2, .finished ((a.disableAccount username).1.map fun _ => .done)) := by
  unfold disableAccount
  cases hread : a.userStore.getUser username with
  | none =>
    rw [drive_eq, afterRead, updateStage_none _ hread]
    rfl
  | some user =>
    rw [drive_eq, afterRead, updateStage_some _ hread]
    exact drive_write hread rfl rfl fun _ => rfl

theorem drive_unlockAccount : a.drive prim (.unlockAccount username) =
    ((a.unlockAccount username).2, .finished ((a.unlockAccount username).1.map fun _ => .done)) := by
  unfold unlockAccount
  cases hread : a.userStore.getUser username with
  | none =>
    rw [drive_eq, afterRead, updateStage_none _ hread]
    rfl
  | some user =>
    rw [drive_eq, afterRead, updateStage_some _ hread]
    exact drive_write hread rfl rfl fun _ => rfl

theorem drive_changePassword (oldPassword newPassword salt : String) :
    a.drive prim (.changePassword username oldPassword newPassword salt) =
      ((a.changePassword prim username oldPassword newPassword salt).2, .finished
        ((a.changePassword prim username oldPassword newPassword salt).1.map fun _ => .done)) := by
  unfold changePassword
  cases hread : a.userStore.getUser username with
  | none =>
    rw [drive_eq, afterRead, updateStage_none _ hread]
    rfl
  | some user =>
    rw [drive_eq, afterRead, updateStage_some _ hread]
    dsimp only
    cases changedMethod prim username oldPassword newPassword salt user.authMethod with
    | error e => rfl
    | ok method =>
      exact drive_write hread rfl rfl fun _ => rfl

theorem drive_validateSession (id : SessionId) (now : Int) :
    a.drive prim (.validateSession id now) =
      ((a.validateSession id now).2, .finished ((a.validateSession id now).1.map .identity)) := by
  rw [drive_eq, afterRead, validateSession]
  cases a.sessions.lookup id with
  | none => rfl
  | some session =>
    dsimp only
    split <;> rfl

end UserAuthenticator

/-! ## 2. Schedules -/

/-- An authenticator, the calls made on it, and which users stand disabled: a `disable_account` has
    returned `Ok` and no `unlock_account` has written since. -/
structure AuthPool where
  auth : UserAuthenticator
  calls : List Stage
  disabled : String → Bool

namespace AuthPool

inductive Op where
  | start (request : Request)
  | resume (i : Nat)

variable {PasswordHash : Type} (prim : Primitives PasswordHash)

def init (auth : UserAuthenticator) : AuthPool := ⟨auth, [], fun _ => false⟩

def disabledAfter (p : AuthPool) : Stage → String → Bool
  | .dropDisabled username => Function.update p.disabled username true
  | .writeUnlocked record => Function.update p.disabled record.identity.username false
  | _ => p.disabled

def resume (p : AuthPool) (i : Nat) (stage : Stage) : AuthPool where
  auth := (p.auth.advance prim stage).1
  calls := p.calls.set i (p.auth.advance prim stage).2
  disabled := p.disabledAfter stage

def step (p : AuthPool) : Op → AuthPool
  | .start request => { p with calls := p.calls ++ [.read request] }
  | .resume i =>
    match p.calls[i]? with
    | none => p
    | some stage => p.resume prim i stage

/-- The account is disabled, and `validate_session` accepts no session of the user at any reading of
    the clock. -/
def Settled (a : UserAuthenticator) (username : String) : Prop :=
  (∃ user, a.userStore.getUser username = some user ∧ user.status = .disabled) ∧
    ∀ id now identity, (a.validateSession id now).1 = .ok identity → identity.username ≠ username

/-- **Disabling is final**: who stands disabled has a disabled account and no valid session. -/
def Final (p : AuthPool) : Prop := ∀ username, p.disabled username = true → Settled p.auth username

/-- The step does not undo a disabling: while a user stands disabled no login of theirs writes the
    record it read or inserts its session, and no password change writes back a record it read before
    it was disabled; and a `disable_account` finds its own write in place when it returns. -/
def StageClear (p : AuthPool) : Stage → Prop
  | .writeFailure record _ => p.disabled record.identity.username = false
  | .writeLogin record _ => p.disabled record.identity.username = false
  | .insertSession session => p.disabled session.identity.username = false
  | .writePassword _ record => p.disabled record.identity.username = true → record.status = .disabled
  | .dropDisabled username =>
    ∃ user, p.auth.userStore.getUser username = some user ∧ user.status = .disabled
  | _ => True

@[inherit_doc StageClear] def Clear (p : AuthPool) : Op → Prop
  | .start _ => True
  | .resume i => ∀ stage, p.calls[i]? = some stage → p.StageClear stage

def Sound (store : LocalUserStore) : Stage → Prop
  | .writeFailure record _ => (store.getUser record.identity.username).isSome ∧ record.status ≠ .disabled
  | .writeLogin record _ => (store.getUser record.identity.username).isSome ∧ record.status ≠ .disabled
  | .writePassword _ record => (store.getUser record.identity.username).isSome
  | .writeDisabled _ record => (store.getUser record.identity.username).isSome ∧ record.status = .disabled
  | .writeUnlocked record => (store.getUser record.identity.username).isSome
  | _ => True

def Inv (p : AuthPool) : Prop := ∀ stage ∈ p.calls, Sound p.auth.userStore stage

section Suspended

variable {prim} {a : UserAuthenticator}

variable {record : UserRecord}

theorem getUser_write (name : String) (h : (a.userStore.getUser record.identity.username).isSome) :
    (a.write record).userStore.getUser name =
      if name = record.identity.username then some record else a.userStore.getUser name := by
  rw [UserAuthenticator.write, LocalUserStore.updateUser, if_pos h]
  exact LocalUserStore.getUser_put

theorem isSome_getUser_write (record : UserRecord) {name : String}
    (h : (a.userStore.getUser name).isSome) :
    ((a.write record).userStore.getUser name).isSome := by
  by_cases hrec : (a.userStore.getUser record.identity.username).isSome
  · rw [getUser_write name hrec]
    split
    · rfl
    · exact h
  · rw [UserAuthenticator.write, LocalUserStore.updateUser, if_neg hrec]
    exact h

theorem isSome_getUser_advance (stage : Stage) {name : String}
    (h : (a.userStore.getUser name).isSome) :
    ((a.advance prim stage).1.userStore.getUser name).isSome := by
  cases stage with
  | writeFailure record _ => exact isSome_getUser_write record h
  | writeLogin record _ => exact isSome_getUser_write record h
  | writePassword _ record => exact isSome_getUser_write record h
  | writeDisabled _ record => exact isSome_getUser_write record h
  | writeUnlocked record => exact isSome_getUser_write record h
  | _ => exact h

theorem Sound.mono {store store' : LocalUserStore} {stage : Stage} (h : Sound store stage)
    (hstore : ∀ name, (store.getUser name).isSome → (store'.getUser name).isSome) :
    Sound store' stage := by
  cases stage with
  | writeFailure record _ => exact ⟨hstore _ h.1, h.2⟩
  | writeLogin record _ => exact ⟨hstore _ h.1, h.2⟩
  | writePassword _ record => exact hstore _ h
  | writeDisabled _ record => exact ⟨hstore _ h.1, h.2⟩
  | writeUnlocked record => exact hstore _ h
  | _ => trivial

theorem isSome_of_read {username : String} {user : UserRecord}
    (h : a.userStore.getUser username = some user) (hid : record.identity = user.identity) :
    (a.userStore.getUser record.identity.username).isSome := by
  rw [hid, a.userStore.keyed username user h, h]
  rfl

theorem sound_loginStage (verify : AuthMethod → Except SecurityError Bool) (username : String)
    (input : LoginInput) : Sound a.userStore (UserAuthenticator.loginStage input
      (judge a.maxFailedAttempts verify username input.loginAt (a.userStore.getUser username))) := by
  obtain ⟨e, he⟩ | ⟨user, hread, hactive, he | he⟩ := judge_cases a.maxFailedAttempts verify username
    input.loginAt (a.userStore.getUser username)
  · rw [he]
    trivial
  · rw [he]
    refine ⟨isSome_of_read hread rfl, ?_⟩
    rw [UserRecord.recordFailure, hactive]
    dsimp only
    split <;> nofun
  · rw [he]
    refine ⟨isSome_of_read hread rfl, ?_⟩
    show user.status ≠ .disabled
    rw [hactive]
    nofun

theorem sound_updateStage {username : String} {next : UserRecord → Stage}
    (h : ∀ user, a.userStore.getUser username = some user → Sound a.userStore (next user)) :
    Sound a.userStore (a.updateStage username next) := by
  unfold UserAuthenticator.updateStage
  cases hread : a.userStore.getUser username with
  | none => trivial
  | some user => exact h user hread

theorem sound_afterRead (request : Request) : Sound a.userStore (a.afterRead prim request) := by
  cases request with
  | authenticate username credential input => exact sound_loginStage _ username input
  | authenticatePasswordOnly username password input => exact sound_loginStage _ username input
  | changePassword username old new salt =>
    refine sound_updateStage fun user hread => ?_
    split
    · trivial
    · exact isSome_of_read hread rfl
  | disableAccount username => exact sound_updateStage fun user hread => ⟨isSome_of_read hread rfl, rfl⟩
  | unlockAccount username => exact sound_updateStage fun user hread => isSome_of_read hread rfl
  | validateSession id now =>
    rw [UserAuthenticator.afterRead]
    split
    · trivial
    · split <;> trivial

theorem sound_advance (stage : Stage) :
    Sound (a.advance prim stage).1.userStore (a.advance prim stage).2 := by
  cases stage with
  | read request => exact sound_afterRead request
  | writePassword username record =>
    rw [UserAuthenticator.advance, UserAuthenticator.writeThen]
    split <;> trivial
  | writeDisabled username record =>
    rw [UserAuthenticator.advance, UserAuthenticator.writeThen]
    split <;> trivial
  | writeUnlocked record =>
    rw [UserAuthenticator.advance, UserAuthenticator.writeThen]
    split <;> trivial
  | _ => trivial

end Suspended

/-! ## 3. Disabling is final -/

variable {prim} {p : AuthPool}

theorem Inv.step (h : p.Inv) (op : Op) : (p.step prim op).Inv := by
  cases op with
  | start request =>
    intro stage hmem
    obtain hold | hnew := List.mem_append.mp hmem
    · exact h stage hold
    · rw [List.mem_singleton.mp hnew]
      trivial
  | resume i =>
    rw [AuthPool.step]
    split
    · exact h
    · rename_i own _
      intro stage hmem
      obtain hold | hnew := List.mem_or_eq_of_mem_set hmem
      · exact (h stage hold).mono fun _ => isSome_getUser_advance own
      · rw [hnew]
        exact sound_advance own

section Settling

variable {a b : UserAuthenticator} {username : String}

theorem settled_iff : Settled a username ↔
    (∃ user, a.userStore.getUser username = some user ∧ user.status = .disabled) ∧
      ∀ id session, a.sessions.lookup id = some session → session.identity.username ≠ username := by
  refine and_congr_right fun _ => ⟨fun h id session hsession => ?_, fun h id now identity hok => ?_⟩
  · refine h id session.expiresAt session.identity ?_
    have hlive : session.isExpired session.expiresAt = false := decide_eq_false (Int.lt_irrefl _)
    simp only [UserAuthenticator.validateSession, hsession, hlive, Bool.false_eq_true, if_false]
  · unfold UserAuthenticator.validateSession at hok
    split at hok
    · cases hok
    · rename_i session hsession
      split at hok
      · cases hok
      · cases hok
        exact h id session hsession

theorem Settled.of_sessions (h : Settled a username) (hstore : b.userStore = a.userStore)
    (hsessions : ∀ id session, b.sessions.lookup id = some session →
      a.sessions.lookup id = some session) : Settled b username := by
  rw [settled_iff] at h ⊢
  refine ⟨?_, fun id session hlookup => h.2 id session (hsessions id session hlookup)⟩
  rw [hstore]
  exact h.1

variable {record : UserRecord} {session : UserSession}

theorem settled_write_self (hsome : (a.userStore.getUser record.identity.username).isSome)
    (h : Settled a record.identity.username) :
    Settled (a.write record) record.identity.username ↔ record.status = .disabled := by
  rw [settled_iff, getUser_write _ hsome, if_pos rfl]
  constructor
  · rintro ⟨⟨_, ⟨⟩, hstatus⟩, -⟩
    exact hstatus
  · exact fun hstatus => ⟨⟨record, rfl, hstatus⟩, (settled_iff.mp h).2⟩

theorem settled_write_of_ne (hsome : (a.userStore.getUser record.identity.username).isSome)
    (hne : username ≠ record.identity.username) :
    Settled (a.write record) username ↔ Settled a username := by
  rw [settled_iff, settled_iff, getUser_write _ hsome, if_neg hne]
  rfl

theorem settled_insertSession_self (session : UserSession) :
    ¬ Settled (a.insertSession session) session.identity.username := by
  intro h
  exact (settled_iff.mp h).2 session.sessionId session (AList.lookup_insert _) rfl

theorem Settled.insertSession (h : Settled a username)
    (hne : session.identity.username ≠ username) : Settled (a.insertSession session) username := by
  rw [settled_iff] at h ⊢
  exact ⟨h.1, forall_lookup_insert hne h.2⟩

theorem lookup_invalidateUserSessions {id : SessionId} :
    (a.invalidateUserSessions username).sessions.lookup id = some session ↔
      a.sessions.lookup id = some session ∧ session.identity.username ≠ username := by
  rw [UserAuthenticator.invalidateUserSessions, lookup_retain, Option.filter_eq_some_iff,
    decide_eq_true_eq]

theorem Settled.invalidateUserSessions (h : Settled a username) (name : String) :
    Settled (a.invalidateUserSessions name) username :=
  h.of_sessions rfl fun _ _ hlookup => (lookup_invalidateUserSessions.mp hlookup).1

theorem settled_invalidateUserSessions_self : Settled (a.invalidateUserSessions username) username ↔
    ∃ user, a.userStore.getUser username = some user ∧ user.status = .disabled := by
  rw [settled_iff]
  exact and_iff_left fun _ _ hlookup => (lookup_invalidateUserSessions.mp hlookup).2

theorem Settled.invalidateSession (h : Settled a username) (id : SessionId) :
    Settled (a.invalidateSession id) username := by
  refine h.of_sessions rfl fun id' session hlookup => ?_
  by_cases e : id' = id
  · rw [e, UserAuthenticator.invalidateSession, AList.lookup_erase] at hlookup
    nomatch hlookup
  · exact (AList.lookup_erase_ne e).symm.trans hlookup

end Settling

variable {record : UserRecord}

theorem final_write_iff (h : p.Final)
    (hsome : (p.auth.userStore.getUser record.identity.username).isSome) :
    (∀ username, p.disabled username = true → Settled (p.auth.write record) username) ↔
      (p.disabled record.identity.username = true → record.status = .disabled) := by
  constructor
  · intro hfinal hflag
    exact (settled_write_self hsome (h _ hflag)).mp (hfinal _ hflag)
  · intro hrecord username hflag
    by_cases e : username = record.identity.username
    · subst e
      exact (settled_write_self hsome (h _ hflag)).mpr (hrecord hflag)
    · exact (settled_write_of_ne hsome e).mpr (h username hflag)

theorem final_writeLogin_iff (h : p.Final)
    (hsound : (p.auth.userStore.getUser record.identity.username).isSome ∧ record.status ≠ .disabled) :
    (∀ username, p.disabled username = true → Settled (p.auth.write record) username) ↔
      p.disabled record.identity.username = false := by
  rw [final_write_iff h hsound.1, ← Bool.not_eq_true]
  exact imp_congr_right fun _ => iff_of_false hsound.2 id

theorem final_insertSession_iff {session : UserSession} (h : p.Final) :
    (∀ username, p.disabled username = true → Settled (p.auth.insertSession session) username) ↔
      p.disabled session.identity.username = false := by
  rw [← Bool.not_eq_true]
  constructor
  · exact fun hfinal hflag => settled_insertSession_self session (hfinal _ hflag)
  · intro hclear username hflag
    exact (h username hflag).insertSession fun e => hclear (e ▸ hflag)

theorem final_writeUnlocked (h : p.Final)
    (hsome : (p.auth.userStore.getUser record.identity.username).isSome) (username : String)
    (hflag : Function.update p.disabled record.identity.username false username = true) :
    Settled (p.auth.write record) username := by
  by_cases e : username = record.identity.username
  · rw [e, Function.update_self] at hflag
    nomatch hflag
  · rw [Function.update_of_ne e] at hflag
    exact (settled_write_of_ne hsome e).mpr (h username hflag)

theorem final_dropDisabled_iff {username : String} (h : p.Final) :
    (∀ name, Function.update p.disabled username true name = true →
        Settled (p.auth.invalidateUserSessions username) name) ↔
      ∃ user, p.auth.userStore.getUser username = some user ∧ user.status = .disabled := by
  rw [← settled_invalidateUserSessions_self]
  constructor
  · exact fun hfinal => hfinal username (Function.update_self _ _ _)
  · intro hself name hflag
    by_cases e : name = username
    · exact e ▸ hself
    · rw [Function.update_of_ne e] at hflag
      exact (h name hflag).invalidateUserSessions username

theorem final_resume_iff {i : Nat} {stage : Stage} (h : p.Final)
    (hsound : Sound p.auth.userStore stage) :
    (p.resume prim i stage).Final ↔ p.StageClear stage := by
  cases stage with
  | read request => exact iff_of_true h trivial
  | writeFailure record e =>
    have hwrite := final_writeLogin_iff h hsound
    exact hwrite
  | writeLogin record input =>
    have hwrite := final_writeLogin_iff h hsound
    exact hwrite
  | insertSession session => exact final_insertSession_iff h
  | writePassword username record =>
    have hwrite := final_write_iff h hsound
    exact hwrite
  | dropSessions username =>
    exact iff_of_true (fun name hflag => (h name hflag).invalidateUserSessions username) trivial
  | writeDisabled username record =>
    exact iff_of_true ((final_write_iff h hsound.1).mpr fun _ => hsound.2) trivial
  | dropDisabled username => exact final_dropDisabled_iff h
  | writeUnlocked record => exact iff_of_true (final_writeUnlocked h hsound) trivial
  | removeSession id =>
    exact iff_of_true (fun name hflag => (h name hflag).invalidateSession id) trivial
  | finished result => exact iff_of_true h trivial

theorem final_step_iff (hinv : p.Inv) (h : p.Final) (op : Op) :
    (p.step prim op).Final ↔ p.Clear op := by
  cases op with
  | start request => exact iff_of_true h trivial
  | resume i =>
    rw [step, Clear]
    cases hi : p.calls[i]? with
    | none => exact iff_of_true h fun _ e => absurd e (Option.some_ne_none _).symm
    | some stage =>
      refine (final_resume_iff h (hinv stage (List.mem_of_getElem? hi))).trans ?_
      exact ⟨fun hc _ e => Option.some.inj e ▸ hc, fun hc => hc stage rfl⟩

theorem inv_init (auth : UserAuthenticator) : (init auth).Inv :=
  fun _ hmem => absurd hmem List.not_mem_nil

theorem final_init (auth : UserAuthenticator) : (init auth).Final :=
  fun _ hflag => absurd hflag Bool.false_ne_true

/-- **Disabling is final**, in every state of a schedule of concurrent calls over any users and
    sessions, exactly when every step of the schedule is clear. -/
theorem disabling_final_iff (prim : Primitives PasswordHash) (auth : UserAuthenticator)
    (ops : List Op) :
    (∀ pre, pre <+: ops → (run (step prim) (init auth) pre).Final) ↔
      RunMeets (step prim) Clear (init auth) ops :=
  run_within_iff_of_invariant Inv Final (fun _ op h => h.step op)
    (fun _ op hinv h => final_step_iff hinv h op) (inv_init auth) (final_init auth)

/-- **A login outlives the disabling**: it has read the active record and writes it back. -/
theorem late_login_reactivates :
    let p := run (step plainPrimitives) (init alphaSix)
      [.start (.authenticate "alpha_6" (.passwordMfa "password123" "000000") ⟨0, 0, 0, ⟨7⟩⟩),
        .start (.disableAccount "alpha_6"), .resume 0, .resume 1, .resume 1, .resume 1,
        .resume 0, .resume 0]
    p.calls[1]? = some (.finished (.ok .done)) ∧ p.disabled "alpha_6" = true ∧
      p.auth.userStore.getUser "alpha_6" = some (alphaSixRecord.recordLogin 0) ∧
      (p.auth.validateSession ⟨7⟩ 0).1 = .ok ⟨"alpha_6", "CPT Smith"⟩ ∧ ¬ p.Final := by
  intro p
  have hflag : p.disabled "alpha_6" = true := by decide +kernel
  have hvalid : (p.auth.validateSession ⟨7⟩ 0).1 = .ok ⟨"alpha_6", "CPT Smith"⟩ := rfl
  refine ⟨rfl, hflag, by decide +kernel, hvalid, fun h => ?_⟩
  exact (h "alpha_6" hflag).2 ⟨7⟩ 0 ⟨"alpha_6", "CPT Smith"⟩ hvalid rfl

end AuthPool

end Peat.Security
