/-
  USER AUTHENTICATION: the local user store, credentials, logins and sessions
  (security/user_auth.rs).

  Argon2 and HMAC-SHA256 are parameters (`Primitives`); clock readings, salts and
  session ids are inputs. The two logins differ in how they verify (`login`); what a
  login does to the record is `judge`.
-/
import Peat.Lib.HashMap
import Peat.Security.Common

namespace Peat.Security

open Peat.Lib

/-! ## 1. Records and the local store -/

structure UserIdentity where
  username : String
  displayName : String
  deriving DecidableEq

inductive AccountStatus where
  | active
  | locked
  | disabled
  | pending
  deriving DecidableEq

inductive AuthMethod where
  | passwordMfa (passwordHash : String) (totpSecret : List UInt8)
  | smartCard (cardId pinHash : String)
  | certificate (certificateFingerprint : String)
  deriving DecidableEq

inductive Credential where
  | passwordMfa (password totpCode : String)
  | smartCard (cardId pin : String)
  | certificate (fingerprint : String)
  deriving DecidableEq

structure UserRecord where
  identity : UserIdentity
  authMethod : AuthMethod
  status : AccountStatus
  createdAt : Int
  lastLogin : Option Int
  failedAttempts : UInt32
  deriving DecidableEq

structure LocalUserStore where
  users : HashMap String UserRecord
  keyed : ∀ name record, users.lookup name = some record → record.identity.username = name

namespace LocalUserStore

def new : LocalUserStore := ⟨∅, fun _ _ h => nomatch h⟩

def put (s : LocalUserStore) (record : UserRecord) : LocalUserStore :=
  ⟨s.users.insert record.identity.username record, forall_lookup_insert rfl s.keyed⟩

def withUsers (users : List UserRecord) : LocalUserStore := users.foldl put new

def getUser (s : LocalUserStore) (username : String) : Option UserRecord := s.users.lookup username

def storeUser (s : LocalUserStore) (record : UserRecord) :
    Except SecurityError Unit × LocalUserStore :=
  if (s.getUser record.identity.username).isSome then
    (.error (.userAlreadyExists record.identity.username), s)
  else (.ok (), s.put record)

def updateUser (s : LocalUserStore) (record : UserRecord) :
    Except SecurityError Unit × LocalUserStore :=
  if (s.getUser record.identity.username).isSome then (.ok (), s.put record)
  else (.error (.userNotFound record.identity.username), s)

variable {s : LocalUserStore} {record : UserRecord} {name : String}

theorem getUser_put : (s.put record).getUser name =
    if name = record.identity.username then some record else s.getUser name :=
  lookup_insert_eq_ite s.users _ _ _

theorem updateUser_of_getUser {user : UserRecord} (h : s.getUser name = some user)
    (hid : record.identity = user.identity) : s.updateUser record = (.ok (), s.put record) := by
  rw [updateUser, hid, s.keyed name user h, h]
  rfl

theorem getUser_updateUser {user : UserRecord} {other : String} (h : s.getUser name = some user)
    (hid : record.identity = user.identity) : (s.updateUser record).2.getUser other =
      if other = name then some record else s.getUser other := by
  rw [updateUser_of_getUser h hid, getUser_put, hid, s.keyed name user h]

end LocalUserStore

/-! ## 2. Verifying a credential -/

/-- Password hashes and HMAC. -/
structure Primitives (PasswordHash : Type) where
  parseHash : String → Except String PasswordHash
  verifyPassword : List UInt8 → PasswordHash → Bool
  hashPassword : List UInt8 → (salt : String) → Except String String
  hmacSha256 : (secret message : List UInt8) → Except String (Vector UInt8 32)

def totpTimeStepSecs : Nat := 30

def constantTimeCompare (a b : List UInt8) : Bool :=
  if a.length ≠ b.length then false
  else (a.zip b).foldl (fun result p => result ||| (p.1 ^^^ p.2)) 0 == 0

def toBeBytes (n : Nat) : List UInt8 := (toLeBytes 8 n).reverse

def truncate (result : Vector UInt8 32) : Nat :=
  let byte := fun i => (result.toList.getD i 0).toNat
  let offset := byte 31 % 16
  byte offset % 128 * 16777216 + byte (offset + 1) * 65536 + byte (offset + 2) * 256 +
    byte (offset + 3)

def sixDigits (n : Nat) : String :=
  String.ofList ([100000, 10000, 1000, 100, 10, 1].map fun p => (n / p % 10).digitChar)

def base32Alphabet : List Char := "ABCDEFGHIJKLMNOPQRSTUVWXYZ234567".toList

/-- The inner loop of `base32_encode`: digits while five bits are left. The digits pushed and the bits
    that stay. -/
def base32Digits (buffer : Nat) : Nat → List Char × Nat
  | bitsLeft + 5 =>
    let rest := base32Digits buffer bitsLeft
    (base32Alphabet.getD ((buffer >>> bitsLeft) % 32) 'A' :: rest.1, rest.2)
  | bitsLeft => ([], bitsLeft)

def base32Encode (data : List UInt8) : String :=
  let (result, buffer, bitsLeft) := data.foldl (fun (result, buffer, bitsLeft) byte =>
    let buffer := (buffer * 256 + byte.toNat) % u64Count
    let (digits, bitsLeft) := base32Digits buffer (bitsLeft + 8)
    (result ++ digits, buffer, bitsLeft)) (([], 0, 0) : List Char × Nat × Nat)
  String.ofList (if bitsLeft > 0 then
    result ++ [base32Alphabet.getD ((buffer <<< (5 - bitsLeft)) % 32) 'A'] else result)

section Verify

variable {PasswordHash : Type} (prim : Primitives PasswordHash)

def generateHotp (secret : List UInt8) (counter : Nat) : Except SecurityError String :=
  match prim.hmacSha256 secret (toBeBytes counter) with
  | .error e => .error (.totpError ("HMAC error: " ++ e))
  | .ok result => .ok (sixDigits (truncate result % 1000000))

def checkOffsets (secret : List UInt8) (code : String) (counter : Int) :
    List Int → Except SecurityError Bool
  | [] => .ok false
  | offset :: offsets =>
    match generateHotp prim secret ((counter + offset) % u64Count).toNat with
    | .error e => .error e
    | .ok expected =>
      if constantTimeCompare (bytesOf code) (bytesOf expected) then .ok true
      else checkOffsets secret code counter offsets

def verifyTotp (secret : List UInt8) (code : String) (now : Int) : Except SecurityError Bool :=
  if now < 0 then .error (.totpError "System time before UNIX epoch")
  else checkOffsets prim secret code (now / nanosPerSec / totpTimeStepSecs) [-1, 0, 1]

def checkPassword (hash password : String) : Except SecurityError Bool :=
  match prim.parseHash hash with
  | .error e => .error (.passwordHashError e)
  | .ok parsed => .ok (prim.verifyPassword (bytesOf password) parsed)

def verifyCredentials (credential : Credential) (now : Int) (method : AuthMethod) :
    Except SecurityError Bool :=
  match method, credential with
  | .passwordMfa hash secret, .passwordMfa password code =>
    match checkPassword prim hash password with
    | .error e => .error e
    | .ok false => .ok false
    | .ok true =>
      match verifyTotp prim secret code now with
      | .error e => .error e
      | .ok false => .error .invalidMfaCode
      | .ok true => .ok true
  | .smartCard storedId hash, .smartCard cardId pin =>
    if storedId ≠ cardId then .ok false else checkPassword prim hash pin
  | .certificate stored, .certificate fingerprint => .ok (stored == fingerprint)
  | _, _ => .error (.unsupportedAuthMethod "mismatched auth method and credential")

def verifyPasswordOnly (password : String) (method : AuthMethod) : Except SecurityError Bool :=
  match method with
  | .passwordMfa hash _ => checkPassword prim hash password
  | _ => .error (.unsupportedAuthMethod "non-password")

end Verify

/-! ## 3. Logins and sessions -/

structure SessionId where
  uuid : BitVec 128
  deriving DecidableEq

structure UserSession where
  sessionId : SessionId
  identity : UserIdentity
  deviceId : Option DeviceId
  createdAt : Int
  expiresAt : Int
  deriving DecidableEq

def UserSession.isExpired (session : UserSession) (now : Int) : Bool := now > session.expiresAt

inductive Verdict where
  | refuse (error : SecurityError)
  | fail (record : UserRecord) (error : SecurityError)
  | accept (record : UserRecord)

structure LoginInput where
  totpAt : Int
  loginAt : Int
  sessionAt : Int
  sessionId : SessionId

def UserRecord.recordFailure (user : UserRecord) (maxFailedAttempts : UInt32) : UserRecord :=
  { user with
    failedAttempts := user.failedAttempts + 1
    status := if user.failedAttempts + 1 ≥ maxFailedAttempts then .locked else user.status }

def UserRecord.recordLogin (user : UserRecord) (loginAt : Int) : UserRecord :=
  { user with failedAttempts := 0, lastLogin := some loginAt }

def judge (maxFailedAttempts : UInt32) (verify : AuthMethod → Except SecurityError Bool)
    (username : String) (loginAt : Int) : Option UserRecord → Verdict
  | none => .refuse (.userNotFound username)
  | some user =>
    match user.status with
    | .locked => .refuse (.accountLocked username)
    | .disabled => .refuse (.accountDisabled username)
    | .pending => .refuse (.accountPending username)
    | .active =>
      match verify user.authMethod with
      | .error e => .refuse e
      | .ok false => .fail (user.recordFailure maxFailedAttempts) (.invalidCredential username)
      | .ok true => .accept (user.recordLogin loginAt)

theorem judge_cases (maxFailedAttempts : UInt32) (verify : AuthMethod → Except SecurityError Bool)
    (username : String) (loginAt : Int) (read : Option UserRecord) :
    (∃ e, judge maxFailedAttempts verify username loginAt read = .refuse e) ∨
    ∃ user, read = some user ∧ user.status = .active ∧
      (judge maxFailedAttempts verify username loginAt read =
          .fail (user.recordFailure maxFailedAttempts) (.invalidCredential username) ∨
        judge maxFailedAttempts verify username loginAt read = .accept (user.recordLogin loginAt)) := by
  cases read with
  | none => exact .inl ⟨_, rfl⟩
  | some user =>
    cases hs : user.status with
    | active =>
      cases hv : verify user.authMethod with
      | error e => exact .inl ⟨e, by simp only [judge, hs, hv]⟩
      | ok verified =>
        refine .inr ⟨user, rfl, hs, ?_⟩
        cases verified with
        | false => exact .inl (by simp only [judge, hs, hv])
        | true => exact .inr (by simp only [judge, hs, hv])
    | _ => exact .inl ⟨_, by simp only [judge, hs]; rfl⟩

structure UserAuthenticator where
  userStore : LocalUserStore
  sessions : HashMap SessionId UserSession
  sessionExpiry : Nat
  maxFailedAttempts : UInt32

namespace UserAuthenticator

variable {PasswordHash : Type} (prim : Primitives PasswordHash)

def new (userStore : LocalUserStore) (sessionExpiry : Nat) (maxFailedAttempts : UInt32) :
    UserAuthenticator :=
  ⟨userStore, ∅, sessionExpiry, maxFailedAttempts⟩

def write (a : UserAuthenticator) (record : UserRecord) : UserAuthenticator :=
  { a with userStore := (a.userStore.updateUser record).2 }

def newSession (a : UserAuthenticator) (record : UserRecord) (input : LoginInput) : UserSession where
  sessionId := input.sessionId
  identity := record.identity
  deviceId := none
  createdAt := input.sessionAt
  expiresAt := input.sessionAt + a.sessionExpiry

def insertSession (a : UserAuthenticator) (session : UserSession) : UserAuthenticator :=
  { a with sessions := a.sessions.insert session.sessionId session }

def login (a : UserAuthenticator) (verify : AuthMethod → Except SecurityError Bool)
    (username : String) (input : LoginInput) : Except SecurityError UserSession × UserAuthenticator :=
  match judge a.maxFailedAttempts verify username input.loginAt (a.userStore.getUser username) with
  | .refuse e => (.error e, a)
  | .fail record e => (.error e, a.write record)
  | .accept record =>
    (.ok (a.newSession record input), (a.write record).insertSession (a.newSession record input))

def authenticate (a : UserAuthenticator) (username : String) (credential : Credential)
    (input : LoginInput) : Except SecurityError UserSession × UserAuthenticator :=
  a.login (verifyCredentials prim credential input.totpAt) username input

def authenticatePasswordOnly (a : UserAuthenticator) (username password : String)
    (input : LoginInput) : Except SecurityError UserSession × UserAuthenticator :=
  a.login (verifyPasswordOnly prim password) username input

def invalidateSession (a : UserAuthenticator) (id : SessionId) : UserAuthenticator :=
  { a with sessions := a.sessions.erase id }

def validateSession (a : UserAuthenticator) (id : SessionId) (now : Int) :
    Except SecurityError UserIdentity × UserAuthenticator :=
  match a.sessions.lookup id with
  | none => (.error .sessionNotFound, a)
  | some session =>
    if session.isExpired now then (.error .sessionExpired, a.invalidateSession id)
    else (.ok session.identity, a)

def invalidateUserSessions (a : UserAuthenticator) (username : String) : UserAuthenticator :=
  { a with sessions := retain (fun _ session => session.identity.username ≠ username) a.sessions }

def cleanupExpiredSessions (a : UserAuthenticator) (now : Int) : UserAuthenticator :=
  { a with sessions := retain (fun _ session => session.expiresAt > now) a.sessions }

def bindSessionToDevice (a : UserAuthenticator) (id : SessionId) (deviceId : DeviceId) :
    Except SecurityError Unit × UserAuthenticator :=
  match a.sessions.lookup id with
  | none => (.error .sessionNotFound, a)
  | some session =>
    (.ok (), { a with sessions := a.sessions.insert id { session with deviceId := some deviceId } })

def updateThen (a : UserAuthenticator) (record : UserRecord)
    (next : UserAuthenticator → UserAuthenticator) : Except SecurityError Unit × UserAuthenticator :=
  match a.userStore.updateUser record with
  | (.error e, userStore) => (.error e, { a with userStore })
  | (.ok (), userStore) => (.ok (), next { a with userStore })

def unlocked (user : UserRecord) : UserRecord := { user with status := .active, failedAttempts := 0 }

def disabled (user : UserRecord) : UserRecord := { user with status := .disabled }

def changedMethod (username oldPassword newPassword salt : String) :
    AuthMethod → Except SecurityError AuthMethod
  | .passwordMfa hash secret =>
    match checkPassword prim hash oldPassword with
    | .error e => .error e
    | .ok false => .error (.invalidCredential username)
    | .ok true =>
      match prim.hashPassword (bytesOf newPassword) salt with
      | .error e => .error (.passwordHashError e)
      | .ok newHash => .ok (.passwordMfa newHash secret)
  | _ => .error (.unsupportedAuthMethod "non-password")

def unlockAccount (a : UserAuthenticator) (username : String) :
    Except SecurityError Unit × UserAuthenticator :=
  match a.userStore.getUser username with
  | none => (.error (.userNotFound username), a)
  | some user => a.updateThen (unlocked user) id

def disableAccount (a : UserAuthenticator) (username : String) :
    Except SecurityError Unit × UserAuthenticator :=
  match a.userStore.getUser username with
  | none => (.error (.userNotFound username), a)
  | some user => a.updateThen (disabled user) (·.invalidateUserSessions username)

def changePassword (a : UserAuthenticator) (username oldPassword newPassword salt : String) :
    Except SecurityError Unit × UserAuthenticator :=
  match a.userStore.getUser username with
  | none => (.error (.userNotFound username), a)
  | some user =>
    match changedMethod prim username oldPassword newPassword salt user.authMethod with
    | .error e => (.error e, a)
    | .ok method =>
      a.updateThen { user with authMethod := method } (·.invalidateUserSessions username)

def registered (identity : UserIdentity) (passwordHash : String) (totpSecret : List UInt8)
    (now : Int) : UserRecord where
  identity := identity
  authMethod := .passwordMfa passwordHash totpSecret
  status := .active
  createdAt := now
  lastLogin := none
  failedAttempts := 0

def registerUser (a : UserAuthenticator) (password : String) (identity : UserIdentity)
    (salt : String) (totpSecret : Vector UInt8 20) (now : Int) :
    Except SecurityError String × UserAuthenticator :=
  match prim.hashPassword (bytesOf password) salt with
  | .error e => (.error (.passwordHashError e), a)
  | .ok passwordHash =>
    match a.userStore.storeUser (registered identity passwordHash totpSecret.toList now) with
    | (.error e, userStore) => (.error e, { a with userStore })
    | (.ok (), userStore) => (.ok (base32Encode totpSecret.toList), { a with userStore })

variable {a : UserAuthenticator} {username : String} {user record : UserRecord}

theorem updateThen_eq (next : UserAuthenticator → UserAuthenticator)
    (h : a.userStore.getUser username = some user) (hid : record.identity = user.identity) :
    a.updateThen record next = (.ok (), next (a.write record)) := by
  rw [updateThen, write, LocalUserStore.updateUser_of_getUser h hid]

end UserAuthenticator

/-! ## 4. A user to compute with -/

def plainPrimitives : Primitives String where
  parseHash hash := .ok hash
  verifyPassword password hash := password == bytesOf hash
  hashPassword password _ := .ok (String.ofList (password.map fun b => Char.ofNat b.toNat))
  hmacSha256 secret message := .ok (.ofFn fun i => (message.reverse ++ secret).getD i 0)

def alphaSixRecord : UserRecord :=
  UserAuthenticator.registered ⟨"alpha_6", "CPT Smith"⟩ "password123" [] 0

def alphaSix : UserAuthenticator := .new (.withUsers [alphaSixRecord]) (28800 * nanosPerSec) 5

end Peat.Security
