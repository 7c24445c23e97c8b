/-
  CHALLENGE AND RESPONSE between devices (security/authenticator.rs), and what an
  attacker who delivers responses can make of it.

  The signature scheme is a parameter (`Crypto`); randomness and clock readings are
  inputs. The authenticator keeps NO record of its challenges; `Network` does.
-/
import Peat.Lib.HashMap
import Peat.Lib.Run
import Peat.Security.Common

namespace Peat.Security

open Peat.Lib

/-! ## 1. The messages and the authenticator -/

structure Challenge where
  nonce : List UInt8
  timestamp : Option Timestamp
  challengerId : String
  expiresAt : Option Timestamp
  protocolVersion : Nat
  capabilities : List String
  deriving DecidableEq

structure SignedChallengeResponse where
  challengeNonce : List UInt8
  publicKey : List UInt8
  signature : List UInt8
  timestamp : Option Timestamp
  deviceType : Int
  certificates : List (List UInt8)
  protocolVersion : Nat
  capabilities : List String
  deriving DecidableEq

/-- Signatures and the encodings of keys and ids. -/
structure Crypto (Key Sig : Type) where
  publicKey : Key → PublicKey
  sign : Key → List UInt8 → Sig
  verifyWithKey : PublicKey → List UInt8 → Sig → Except SecurityError Unit
  verifyingKeyFromBytes : List UInt8 → Except SecurityError PublicKey
  signatureFromBytes : List UInt8 → Except SecurityError Sig
  signatureToBytes : Sig → List UInt8
  deviceId : PublicKey → DeviceId
  toHex : DeviceId → String

/-- Signatures of a key verify under its public key. -/
def Crypto.Correct {Key Sig : Type} (c : Crypto Key Sig) : Prop :=
  ∀ key message, c.verifyWithKey (c.publicKey key) message (c.sign key message) = .ok ()

def currentProtocolVersion : Nat := 1

def incompatibleProtocolVersion : String := "incompatible protocol version:"

def buildSignedMessage (nonce : List UInt8) (challengerId : String)
    (responseTsSeconds protocolVersion : Nat) : List UInt8 :=
  nonce ++ bytesOf challengerId ++ toLeBytes 8 responseTsSeconds ++
    if protocolVersion ≥ 1 then toLeBytes 4 protocolVersion else []

structure VerifiedPeer where
  deviceId : DeviceId
  publicKey : PublicKey
  verifiedAt : Nat

structure DeviceAuthenticator (Key : Type) where
  keypair : Key
  verifiedPeers : HashMap DeviceId VerifiedPeer
  challengeTimeout : Nat

namespace DeviceAuthenticator

variable {Key Sig : Type} (c : Crypto Key Sig)

def withTimeout (keypair : Key) (challengeTimeout : Nat) : DeviceAuthenticator Key :=
  ⟨keypair, ∅, challengeTimeout⟩

def idHex (a : DeviceAuthenticator Key) : String := c.toHex (c.deviceId (c.publicKey a.keypair))

def generateChallenge (a : DeviceAuthenticator Key) (nonce : Vector UInt8 32) (now : Nat) :
    Challenge where
  nonce := nonce.toList
  timestamp := some (timestampOf now)
  challengerId := a.idHex c
  expiresAt := some (timestampOf (now + a.challengeTimeout))
  protocolVersion := currentProtocolVersion
  capabilities := []

def checkChallengeExpiry (challenge : Challenge) (now : Nat) : Except SecurityError Unit :=
  match challenge.expiresAt with
  | none => .ok ()
  | some expires =>
    if now / nanosPerSec > expires.seconds then .error (.challengeExpired expires.seconds) else .ok ()

def responseMessage (challenge : Challenge) (stampedAt : Nat) : List UInt8 :=
  buildSignedMessage challenge.nonce challenge.challengerId (stampedAt / nanosPerSec)
    (min challenge.protocolVersion currentProtocolVersion)

def respondToChallenge (a : DeviceAuthenticator Key) (challenge : Challenge)
    (checkedAt stampedAt : Nat) : Except SecurityError SignedChallengeResponse :=
  match checkChallengeExpiry challenge checkedAt with
  | .error e => .error e
  | .ok () => .ok
    { challengeNonce := challenge.nonce
      publicKey := (c.publicKey a.keypair).toList
      signature := c.signatureToBytes (c.sign a.keypair (responseMessage challenge stampedAt))
      timestamp := some ⟨stampedAt / nanosPerSec, 0⟩
      deviceType := 0
      certificates := []
      protocolVersion := min challenge.protocolVersion currentProtocolVersion
      capabilities := [] }

def verifiedMessage (a : DeviceAuthenticator Key) (response : SignedChallengeResponse) :
    List UInt8 :=
  buildSignedMessage response.challengeNonce (a.idHex c) (secondsOf response.timestamp)
    response.protocolVersion

def checkResponse (a : DeviceAuthenticator Key) (response : SignedChallengeResponse) :
    Except SecurityError PublicKey := do
  if response.protocolVersion > currentProtocolVersion then
    throw (.authenticationFailed (incompatibleProtocolVersion ++ " peer claims " ++
      toString response.protocolVersion ++ ", our maximum is " ++ toString currentProtocolVersion))
  let publicKey ← c.verifyingKeyFromBytes response.publicKey
  let signature ← c.signatureFromBytes response.signature
  c.verifyWithKey publicKey (a.verifiedMessage c response) signature
  return publicKey

def verifyResponse (a : DeviceAuthenticator Key) (response : SignedChallengeResponse) (now : Nat) :
    Except SecurityError DeviceId × DeviceAuthenticator Key :=
  match a.checkResponse c response with
  | .error e => (.error e, a)
  | .ok publicKey =>
    let id := c.deviceId publicKey
    (.ok id, { a with verifiedPeers := a.verifiedPeers.insert id ⟨id, publicKey, now⟩ })

def removePeer (a : DeviceAuthenticator Key) (id : DeviceId) : DeviceAuthenticator Key :=
  { a with verifiedPeers := a.verifiedPeers.erase id }

def clearVerifiedPeers (a : DeviceAuthenticator Key) : DeviceAuthenticator Key :=
  { a with verifiedPeers := ∅ }

def Accepts (a : DeviceAuthenticator Key) (response : SignedChallengeResponse) (now : Nat) : Prop :=
  ∃ id, (a.verifyResponse c response now).1 = .ok id

variable {c} {a : DeviceAuthenticator Key} {response : SignedChallengeResponse} {now : Nat}

theorem checkResponse_ok_iff {publicKey : PublicKey} : a.checkResponse c response = .ok publicKey ↔
    response.protocolVersion ≤ currentProtocolVersion ∧
      c.verifyingKeyFromBytes response.publicKey = .ok publicKey ∧
        ∃ signature, c.signatureFromBytes response.signature = .ok signature ∧
          c.verifyWithKey publicKey (a.verifiedMessage c response) signature = .ok () := by
  unfold checkResponse
  by_cases hv : response.protocolVersion > currentProtocolVersion
  · rw [if_pos hv]
    exact iff_of_false nofun fun h => absurd h.1 (Nat.not_le.mpr hv)
  rw [if_neg hv, and_iff_right (Nat.not_lt.mp hv)]
  cases c.verifyingKeyFromBytes response.publicKey with
  | error e => exact iff_of_false nofun nofun
  | ok key =>
    cases c.signatureFromBytes response.signature with
    | error e => exact iff_of_false nofun nofun
    | ok signature =>
      simp only [Except.ok.injEq, exists_eq_left']
      cases hs : c.verifyWithKey key (a.verifiedMessage c response) signature with
      | error e =>
        refine iff_of_false ?_ ?_
        · simp [hs, bind, Except.bind]
        · rintro ⟨rfl, h⟩
          rw [hs] at h
          cases h
      | ok u =>
        simp only [hs, bind, Except.bind, pure, Except.pure, Except.ok.injEq]
        constructor
        · rintro rfl
          exact ⟨rfl, hs⟩
        · exact And.left

theorem accepts_iff : a.Accepts c response now ↔
    response.protocolVersion ≤ currentProtocolVersion ∧
      ∃ publicKey signature, c.verifyingKeyFromBytes response.publicKey = .ok publicKey ∧
        c.signatureFromBytes response.signature = .ok signature ∧
        c.verifyWithKey publicKey (a.verifiedMessage c response) signature = .ok () := by
  have hok : a.Accepts c response now ↔ ∃ publicKey, a.checkResponse c response = .ok publicKey := by
    unfold Accepts verifyResponse
    cases a.checkResponse c response with
    | error e => exact iff_of_false nofun nofun
    | ok publicKey => exact iff_of_true ⟨_, rfl⟩ ⟨_, rfl⟩
  rw [hok]
  simp only [checkResponse_ok_iff, exists_and_left]

end DeviceAuthenticator

/-! ## 2. The network: an attacker delivers -/

def Challenge.Live (challenge : Challenge) (now : Nat) : Prop :=
  ∀ expires ∈ challenge.expiresAt, now ≤ nanosOf expires

instance (challenge : Challenge) (now : Nat) : Decidable (challenge.Live now) :=
  inferInstanceAs (Decidable (∀ expires ∈ challenge.expiresAt, now ≤ nanosOf expires))

def Challenge.Answers (challenge : Challenge) (response : SignedChallengeResponse) (now : Nat) :
    Prop :=
  challenge.nonce = response.challengeNonce ∧ challenge.Live now

instance (challenge : Challenge) (response : SignedChallengeResponse) (now : Nat) :
    Decidable (challenge.Answers response now) :=
  inferInstanceAs (Decidable (_ ∧ _))

/-- The verifier, its challenges without an answer, and all signatures made. -/
structure Network (Key Sig : Type) where
  verifier : DeviceAuthenticator Key
  unanswered : List Challenge
  signed : List (PublicKey × List UInt8 × Sig)

namespace Network

variable {Key Sig : Type}

inductive Event (Key : Type) where
  | generateChallenge (nonce : Vector UInt8 32) (now : Nat)
  | respondToChallenge (device : DeviceAuthenticator Key) (challenge : Challenge)
      (checkedAt stampedAt : Nat)
  | verifyResponse (response : SignedChallengeResponse) (now : Nat)
  | removePeer (id : DeviceId)
  | clearVerifiedPeers

def init (verifier : DeviceAuthenticator Key) : Network Key Sig := ⟨verifier, [], []⟩

variable (c : Crypto Key Sig)

def signature? (device : DeviceAuthenticator Key) (challenge : Challenge) (checkedAt stampedAt : Nat) :
    List (PublicKey × List UInt8 × Sig) :=
  match device.respondToChallenge c challenge checkedAt stampedAt with
  | .error _ => []
  | .ok _ =>
    let message := DeviceAuthenticator.responseMessage challenge stampedAt
    [(c.publicKey device.keypair, message, c.sign device.keypair message)]

/-- The response is what a device signed: of a known version, and its signature was made, under its
    key, over the message the verifier checks. -/
def Genuine (n : Network Key Sig) (response : SignedChallengeResponse) : Prop :=
  response.protocolVersion ≤ currentProtocolVersion ∧
    ∃ entry ∈ n.signed, c.verifyingKeyFromBytes response.publicKey = .ok entry.1 ∧
      entry.2.1 = n.verifier.verifiedMessage c response ∧
      c.signatureFromBytes response.signature = .ok entry.2.2

instance [DecidableEq Sig] (n : Network Key Sig) (response : SignedChallengeResponse) :
    Decidable (n.Genuine c response) := inferInstanceAs (Decidable (_ ∧ ∃ entry ∈ n.signed, _))

/-- One event. A challenge counts as answered by a genuine response, whatever the verifier says. -/
def step [DecidableEq Sig] (n : Network Key Sig) : Event Key → Network Key Sig
  | .generateChallenge nonce now =>
    { n with unanswered := n.unanswered ++ [n.verifier.generateChallenge c nonce now] }
  | .respondToChallenge device challenge checkedAt stampedAt =>
    { n with signed := n.signed ++ signature? c device challenge checkedAt stampedAt }
  | .verifyResponse response now =>
    { n with
      verifier := (n.verifier.verifyResponse c response now).2
      unanswered :=
        if n.Genuine c response then n.unanswered.eraseP (·.Answers response now) else n.unanswered }
  | .removePeer id => { n with verifier := n.verifier.removePeer id }
  | .clearVerifiedPeers => { n with verifier := n.verifier.clearVerifiedPeers }

def Fresh (n : Network Key Sig) (response : SignedChallengeResponse) (now : Nat) : Prop :=
  ∃ challenge ∈ n.unanswered, challenge.Answers response now

/-- An accepted response is fresh. -/
def NoReplay (n : Network Key Sig) : Event Key → Prop
  | .verifyResponse response now => n.verifier.Accepts c response now → n.Fresh response now
  | _ => True

/-- A genuine response meets an unanswered challenge. -/
def Clear (n : Network Key Sig) : Event Key → Prop
  | .verifyResponse response now => n.Genuine c response → n.Fresh response now
  | _ => True

/-- **Unforgeability**: no response carries a valid signature that its key's holder did not make. -/
def Unforged (n : Network Key Sig) : Event Key → Prop
  | .verifyResponse response _ => ∀ publicKey signature,
    c.verifyingKeyFromBytes response.publicKey = .ok publicKey →
    c.signatureFromBytes response.signature = .ok signature →
    c.verifyWithKey publicKey (n.verifier.verifiedMessage c response) signature = .ok () →
    (publicKey, n.verifier.verifiedMessage c response, signature) ∈ n.signed
  | _ => True

def SignaturesValid (n : Network Key Sig) : Prop :=
  ∀ entry ∈ n.signed, c.verifyWithKey entry.1 entry.2.1 entry.2.2 = .ok ()

variable {c} {n : Network Key Sig}

/-! ## 3. Replay -/

theorem signaturesValid_step [DecidableEq Sig] (hc : c.Correct) (e : Event Key) (h : n.SignaturesValid c) :
    (n.step c e).SignaturesValid c := by
  cases e with
  | generateChallenge nonce now => exact h
  | respondToChallenge device challenge checkedAt stampedAt =>
    intro entry hentry
    obtain hold | hnew := List.mem_append.mp hentry
    · exact h entry hold
    · unfold signature? at hnew
      split at hnew
      · cases hnew
      · rw [List.mem_singleton.mp hnew]
        exact hc _ _
  | verifyResponse response now => exact h
  | removePeer id => exact h
  | clearVerifiedPeers => exact h

theorem accepts_iff_genuine {response : SignedChallengeResponse} {now : Nat}
    (h : n.SignaturesValid c) (hu : n.Unforged c (.verifyResponse response now)) :
    n.verifier.Accepts c response now ↔ n.Genuine c response := by
  rw [DeviceAuthenticator.accepts_iff]
  refine and_congr_right fun _ => ?_
  constructor
  · rintro ⟨publicKey, signature, hkey, hsig, hvalid⟩
    exact ⟨_, hu publicKey signature hkey hsig hvalid, hkey, rfl, hsig⟩
  · rintro ⟨⟨publicKey, message, signature⟩, hentry, hkey, rfl, hsig⟩
    exact ⟨publicKey, signature, hkey, hsig, h _ hentry⟩

theorem noReplay_iff_clear {e : Event Key} (h : n.SignaturesValid c) (hu : n.Unforged c e) :
    n.NoReplay c e ↔ n.Clear c e := by
  cases e with
  | verifyResponse response now => exact imp_congr_left (accepts_iff_genuine h hu)
  | _ => exact Iff.rfl

/-- **No replay.** Where signatures are not forged, the authenticator accepts only first answers, in time,
    to its own challenges exactly when the network delivers no other genuine response. -/
theorem no_replay_iff [DecidableEq Sig] (c : Crypto Key Sig) (hc : c.Correct)
    (verifier : DeviceAuthenticator Key) (events : List (Event Key))
    (hu : RunMeets (step c) (Unforged c) (init verifier) events) :
    RunMeets (step c) (NoReplay c) (init verifier) events ↔
      RunMeets (step c) (Clear c) (init verifier) events := by
  refine runMeets_iff_of_meets (SignaturesValid c) (fun n e h => noReplay_iff_clear h) ?_ nofun hu
  exact fun n e _ => signaturesValid_step hc e

def plain : Crypto PublicKey (List UInt8) where
  publicKey key := key
  sign key message := key.toList ++ message
  verifyWithKey key message signature :=
    if signature = key.toList ++ message then .ok ()
    else .error (.invalidSignature "Verification equation was not satisfied")
  verifyingKeyFromBytes bytes :=
    if h : bytes.toArray.size = 32 then .ok ⟨bytes.toArray, h⟩ else .error (.invalidPublicKey "length")
  signatureFromBytes bytes := .ok bytes
  signatureToBytes signature := signature
  deviceId key := .ofFn fun i => key.get (i.castLE (by decide))
  toHex id := String.ofList (id.toList.flatMap fun b => [b / 16, b % 16].map (·.toNat.digitChar))

theorem plain_correct : plain.Correct := fun _ _ => if_pos rfl

def alpha : DeviceAuthenticator PublicKey := .withTimeout (.replicate 32 1) (30 * nanosPerSec)

def bravo : DeviceAuthenticator PublicKey :=
  .withTimeout (.replicate 32 2) (30 * nanosPerSec)

def alphasChallenge : Challenge :=
  alpha.generateChallenge plain (.replicate 32 9) (100 * nanosPerSec)

def bravosResponse : SignedChallengeResponse where
  challengeNonce := List.replicate 32 9
  publicKey := List.replicate 32 2
  signature := List.replicate 32 2 ++
    DeviceAuthenticator.responseMessage alphasChallenge (110 * nanosPerSec)
  timestamp := some ⟨110, 0⟩
  deviceType := 0
  certificates := []
  protocolVersion := 1
  capabilities := []

def exchange : List (Event PublicKey) :=
  [.generateChallenge (.replicate 32 9) (100 * nanosPerSec),
    .respondToChallenge bravo alphasChallenge (110 * nanosPerSec) (110 * nanosPerSec)]

theorem unforged_of_signed {c : Crypto Key Sig} {n : Network Key Sig}
    {response : SignedChallengeResponse} {now : Nat} {publicKey : PublicKey} {signature : Sig}
    (hkey : c.verifyingKeyFromBytes response.publicKey = .ok publicKey)
    (hsig : c.signatureFromBytes response.signature = .ok signature)
    (h : (publicKey, n.verifier.verifiedMessage c response, signature) ∈ n.signed) :
    n.Unforged c (.verifyResponse response now) := by
  intro publicKey' signature' hkey' hsig' _
  cases hkey.symm.trans hkey'
  cases hsig.symm.trans hsig'
  exact h

/-- Verified once and in time, the response is the first answer to the challenge. -/
theorem no_replay_iff_exchange :
    RunMeets (step plain) (NoReplay plain) (init alpha)
      (exchange ++ [.verifyResponse bravosResponse (111 * nanosPerSec)]) := by
  refine (no_replay_iff plain plain_correct alpha _ ?_).mpr ?_
  · exact ⟨trivial, trivial, unforged_of_signed rfl rfl (List.mem_singleton.mpr rfl), trivial⟩
  · refine ⟨trivial, trivial, fun _ => ?_, trivial⟩
    exact ⟨alphasChallenge, List.mem_singleton.mpr rfl, rfl, by decide⟩

/-- The response is accepted a second time, long after the challenge ran out, though no signature is
    forged. -/
theorem replayed_response_accepted :
    let events := exchange ++ [.verifyResponse bravosResponse (111 * nanosPerSec),
      .verifyResponse bravosResponse (1000 * nanosPerSec)]
    plain.Correct ∧ RunMeets (step plain) (Unforged plain) (init alpha) events ∧
      ¬ RunMeets (step plain) (NoReplay plain) (init alpha) events := by
  refine ⟨plain_correct, ?_, ?_⟩
  · exact ⟨trivial, trivial, unforged_of_signed rfl rfl (List.mem_singleton.mpr rfl),
      unforged_of_signed rfl rfl (List.mem_singleton.mpr rfl), trivial⟩
  · rintro ⟨-, -, -, h, -⟩
    obtain ⟨challenge, hmem, -⟩ := h ⟨_, rfl⟩
    -- the first delivery has used up the only challenge
    have hused : (run (step plain) (init alpha)
        (exchange ++ [.verifyResponse bravosResponse (111 * nanosPerSec)])).unanswered.length = 0 := by
      decide +kernel
    exact absurd (List.length_pos_of_mem hmem) (Nat.not_lt.mpr (Nat.le_of_eq hused))

end Network

end Peat.Security
