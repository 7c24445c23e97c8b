/-
  WHAT THE SIGNED MESSAGE BINDS (`build_signed_message` in security/authenticator.rs).

  Nonce, id and time stand one behind the other, the version behind them from version 1
  on. Nonce and id have no length in front, so a version 0 message can be the same
  bytes.
-/
import Mathlib.Data.List.Infix
import Peat.Security.Authenticator
import Peat.Security.CertificateFormat

namespace Peat.Security

open Peat.Lib

/-! ## 1. The message -/

variable {id : String} {nonce nonce' : List UInt8} {ts ts' v v' : Nat}

/-- **The message binds its parts**, for a challenger with this id. -/
def BindsParts (id : String) : Prop :=
  ∀ nonce nonce' ts ts' v v', ts < u64Count → ts' < u64Count → v ≤ currentProtocolVersion →
    v' ≤ currentProtocolVersion → buildSignedMessage nonce id ts v = buildSignedMessage nonce' id ts' v' →
    nonce = nonce' ∧ ts = ts' ∧ v = v'

/-- Shifted by four bytes the text is a prefix of itself. -/
def Repeats (id : String) : Prop := (bytesOf id).drop 4 <+: bytesOf id

instance (id : String) : Decidable (Repeats id) := inferInstanceAs (Decidable (_ <+: _))

theorem buildSignedMessage_zero :
    buildSignedMessage nonce id ts 0 = nonce ++ (bytesOf id ++ toLeBytes 8 ts) := by
  simp [buildSignedMessage]

theorem buildSignedMessage_one : buildSignedMessage nonce id ts 1 =
    nonce ++ (bytesOf id ++ (toLeBytes 8 ts ++ toLeBytes 4 1)) := by
  simp [buildSignedMessage]

theorem eq_of_tail_eq (tail : List UInt8) (hts : ts < u64Count) (hts' : ts' < u64Count)
    (h : nonce ++ (bytesOf id ++ (toLeBytes 8 ts ++ tail)) =
      nonce' ++ (bytesOf id ++ (toLeBytes 8 ts' ++ tail))) : nonce = nonce' ∧ ts = ts' := by
  obtain ⟨hnonce, hrest⟩ := List.append_inj' h (by simp [length_toLeBytes])
  have htimes := List.append_cancel_right (List.append_cancel_left hrest)
  exact ⟨hnonce, toLeBytes_injective hts hts' htimes⟩

theorem repeats_of_eq (h : buildSignedMessage nonce id ts 0 = buildSignedMessage nonce' id ts' 1) :
    Repeats id := by
  rw [buildSignedMessage_zero, buildSignedMessage_one] at h
  have hlen := congrArg List.length h
  simp only [List.length_append, length_toLeBytes] at hlen
  have hdrop := congrArg (List.drop (nonce'.length + 4)) h
  rw [List.drop_left' (by omega), ← List.drop_drop, List.drop_left] at hdrop
  have hid : (bytesOf id).drop 4 <+: bytesOf id ++ toLeBytes 8 ts := by
    rw [hdrop]
    exact (List.prefix_append _ _ : bytesOf id <+: _).drop 4
  exact List.prefix_of_prefix_length_le hid (List.prefix_append _ _) (by simp)

theorem exists_shift (h : Repeats id) :
    ∃ x y : List UInt8, y.length = 4 ∧ bytesOf id ++ y = x ++ bytesOf id := by
  obtain ⟨y, hy⟩ := h
  have hlen := congrArg List.length hy
  rw [List.length_append, List.length_drop] at hlen
  by_cases hlong : 4 ≤ (bytesOf id).length
  · refine ⟨(bytesOf id).take 4, y, by omega, ?_⟩
    nth_rewrite 1 [← List.take_append_drop 4 (bytesOf id)]
    rw [List.append_assoc, hy]
  · refine ⟨bytesOf id ++ List.replicate (4 - (bytesOf id).length) 0,
      List.replicate (4 - (bytesOf id).length) 0 ++ bytesOf id, ?_, by simp⟩
    rw [List.length_append, List.length_replicate]
    omega

theorem bindsParts_iff (id : String) : BindsParts id ↔ ¬ Repeats id := by
  constructor
  · intro hbinds hrep
    obtain ⟨x, y, hy, hshift⟩ := exists_shift hrep
    -- the four bytes behind the id are the low half of the time, the version is the high half
    have htime : ∀ bytes : List UInt8, bytes.length = 8 →
        toLeBytes 8 (fromLeBytes bytes) = bytes ∧ fromLeBytes bytes < u64Count := by
      intro bytes hbytes
      rw [← hbytes]
      refine ⟨(toLeBytes_fromLeBytes bytes).1, ?_⟩
      have hlt := (toLeBytes_fromLeBytes bytes).2
      rwa [hbytes] at hlt
    obtain ⟨hlow, hlowlt⟩ := htime (y ++ toLeBytes 4 0) (by simp [hy, length_toLeBytes])
    obtain ⟨hhigh, hhighlt⟩ := htime (toLeBytes 4 0 ++ toLeBytes 4 1) (by simp [length_toLeBytes])
    have heq : buildSignedMessage x id (fromLeBytes (toLeBytes 4 0 ++ toLeBytes 4 1)) 0 =
        buildSignedMessage [] id (fromLeBytes (y ++ toLeBytes 4 0)) 1 := by
      have hbehind := congrArg (· ++ (toLeBytes 4 0 ++ toLeBytes 4 1)) hshift
      simp only [List.append_assoc] at hbehind
      rw [buildSignedMessage_zero, buildSignedMessage_one, hlow, hhigh, List.append_assoc, hbehind]
      rfl
    have hver := (hbinds _ _ _ _ _ _ hhighlt hlowlt (by decide) (by decide) heq).2.2
    cases hver
  · intro hrep nonce nonce' ts ts' v v' hts hts' hv hv' h
    have hzero : ∀ {v}, v ≤ currentProtocolVersion → v = 0 ∨ v = 1 := by
      intro v hv
      have hone : currentProtocolVersion = 1 := rfl
      omega
    rcases hzero hv with rfl | rfl <;> rcases hzero hv' with rfl | rfl
    · rw [buildSignedMessage_zero, buildSignedMessage_zero] at h
      obtain ⟨hn, ht⟩ := eq_of_tail_eq [] hts hts' (by simpa using h)
      exact ⟨hn, ht, rfl⟩
    · exact absurd (repeats_of_eq h) hrep
    · exact absurd (repeats_of_eq h.symm) hrep
    · rw [buildSignedMessage_one, buildSignedMessage_one] at h
      obtain ⟨hn, ht⟩ := eq_of_tail_eq _ hts hts' h
      exact ⟨hn, ht, rfl⟩

/-! ## 2. The handshake -/

/-- What the scheme is relied on for: signatures verify, keys and signatures survive their bytes, and
    a signature is good for one message only. -/
structure Crypto.Lawful {Key Sig : Type} (c : Crypto Key Sig) : Prop where
  correct : c.Correct
  key : ∀ key, c.verifyingKeyFromBytes (c.publicKey key).toList = .ok (c.publicKey key)
  signature : ∀ s, c.signatureFromBytes (c.signatureToBytes s) = .ok s
  binding : ∀ key m m' s, c.verifyWithKey key m s = .ok () → c.verifyWithKey key m' s = .ok () → m = m'

namespace DeviceAuthenticator

variable {Key Sig : Type} {c : Crypto Key Sig} {a : DeviceAuthenticator Key}

/-- `respond_to_challenge` of a build whose own version is `ours`: it answers a higher one like its
    own. -/
def respondAt (c : Crypto Key Sig) (ours : Nat) (device : DeviceAuthenticator Key)
    (challenge : Challenge) (checkedAt stampedAt : Nat) :
    Except SecurityError SignedChallengeResponse :=
  device.respondToChallenge c
    { challenge with protocolVersion := min challenge.protocolVersion ours } checkedAt stampedAt

/-- One signature is accepted for one nonce, time and version only. -/
def SignatureBinds (c : Crypto Key Sig) (a : DeviceAuthenticator Key) : Prop :=
  ∀ r r' : SignedChallengeResponse, ∀ now now', r.publicKey = r'.publicKey →
    r.signature = r'.signature → secondsOf r.timestamp < u64Count →
    secondsOf r'.timestamp < u64Count → a.Accepts c r now → a.Accepts c r' now' →
    r.challengeNonce = r'.challengeNonce ∧ secondsOf r.timestamp = secondsOf r'.timestamp ∧
      r.protocolVersion = r'.protocolVersion

/-- What a device of the same or an older version answers is accepted. -/
def Completes (c : Crypto Key Sig) (a : DeviceAuthenticator Key) : Prop :=
  ∀ device ours challenge checkedAt stampedAt response now, ours ≤ currentProtocolVersion →
    challenge.challengerId = a.idHex c →
    respondAt c ours device challenge checkedAt stampedAt = .ok response → a.Accepts c response now

theorem signatureBinds_of_bindsParts (hc : c.Lawful) (h : BindsParts (a.idHex c)) :
    a.SignatureBinds c := by
  intro r r' now now' hkey hsig hts hts' hr hr'
  obtain ⟨hv, key, s, hk, hs, hok⟩ := accepts_iff.mp hr
  obtain ⟨hv', key', s', hk', hs', hok'⟩ := accepts_iff.mp hr'
  rw [← hkey, hk] at hk'
  rw [← hsig, hs] at hs'
  cases hk'
  cases hs'
  exact h _ _ _ _ _ _ hts hts' hv hv' (hc.binding _ _ _ _ hok hok')

theorem completes (hc : c.Lawful) (a : DeviceAuthenticator Key) : a.Completes c := by
  intro device ours challenge checkedAt stampedAt response now hours hid h
  unfold respondAt respondToChallenge at h
  split at h
  · cases h
  · cases h
    refine accepts_iff.mpr ⟨Nat.min_le_right _ _, _, _, hc.key _, hc.signature _, ?_⟩
    show c.verifyWithKey _ (buildSignedMessage _ (a.idHex c) _ _) _ = _
    rw [← hid]
    exact hc.correct _ _

theorem plain_lawful : Network.plain.Lawful where
  correct := Network.plain_correct
  key key := by
    have hkey : Network.plain.publicKey key = key := rfl
    rw [hkey]
    exact dif_pos key.size_toArray
  signature _ := rfl
  binding key m m' s h h' := by
    have hs : ∀ {m}, Network.plain.verifyWithKey key m s = .ok () → s = key.toList ++ m := by
      intro m h
      by_contra hne
      rw [show Network.plain.verifyWithKey key m s = _ from if_neg hne] at h
      cases h
    exact List.append_cancel_left ((hs h).symm.trans (hs h'))

end DeviceAuthenticator

end Peat.Security
