/-
  THE CERTIFICATE REGISTRY (security/membership.rs): certificates by public key, and
  public keys by callsign.

  The registry drops the callsign of a certificate that goes, whoever the
  callsign leads to by then; several members may hold one callsign.
-/
import Peat.Lib.HashMap
import Peat.Lib.Run
import Peat.Security.Common

namespace Peat.Security

open Peat.Lib

/-! ## 1. Certificates and the registry -/

structure MembershipCertificate where
  memberPublicKey : PublicKey
  callsign : String
  meshId : String
  issuedAtMs : Nat
  expiresAtMs : Nat
  permissions : UInt8
  issuerPublicKey : PublicKey
  issuerSignature : Vector UInt8 64
  deriving DecidableEq

def MembershipCertificate.isExpired (cert : MembershipCertificate) (nowMs gracePeriodMs : Nat) :
    Bool :=
  if cert.expiresAtMs = 0 then false
  else nowMs ≥ (cert.expiresAtMs + gracePeriodMs) % u64Count

structure CertificateRegistry where
  byPublicKey : HashMap PublicKey MembershipCertificate
  callsignToPubkey : HashMap String PublicKey

namespace CertificateRegistry

def new : CertificateRegistry := ⟨∅, ∅⟩

def forget (r : CertificateRegistry) (pubkey : PublicKey) : HashMap String PublicKey :=
  match r.byPublicKey.lookup pubkey with
  | none => r.callsignToPubkey
  | some old => r.callsignToPubkey.erase old.callsign

def register (r : CertificateRegistry) (cert : MembershipCertificate) :
    Option MembershipCertificate × CertificateRegistry :=
  (r.byPublicKey.lookup cert.memberPublicKey,
    { byPublicKey := r.byPublicKey.insert cert.memberPublicKey cert
      callsignToPubkey := (r.forget cert.memberPublicKey).insert cert.callsign cert.memberPublicKey })

def getByPubkey (r : CertificateRegistry) (pubkey : PublicKey) : Option MembershipCertificate :=
  r.byPublicKey.lookup pubkey

def getByCallsign (r : CertificateRegistry) (callsign : String) : Option MembershipCertificate :=
  (r.callsignToPubkey.lookup callsign).bind r.byPublicKey.lookup

def remove (r : CertificateRegistry) (pubkey : PublicKey) :
    Option MembershipCertificate × CertificateRegistry :=
  (r.byPublicKey.lookup pubkey, ⟨r.byPublicKey.erase pubkey, r.forget pubkey⟩)

def isCallsignTaken (r : CertificateRegistry) (callsign : String) : Bool :=
  (r.callsignToPubkey.lookup callsign).isSome

def expired (r : CertificateRegistry) (nowMs gracePeriodMs : Nat) : List PublicKey :=
  (r.byPublicKey.entries.filter fun e => e.2.isExpired nowMs gracePeriodMs).map Sigma.fst

def removeAll (r : CertificateRegistry) (pubkeys : List PublicKey) : CertificateRegistry :=
  run (fun r pubkey => (r.remove pubkey).2) r pubkeys

def removeExpired (r : CertificateRegistry) (nowMs gracePeriodMs : Nat) :
    Nat × CertificateRegistry :=
  let expired := r.expired nowMs gracePeriodMs
  (expired.length, r.removeAll expired)

/-! ## 2. What the property is -/

/-- The two indexes lead to each other. -/
structure Consistent (r : CertificateRegistry) : Prop where
  leads : ∀ callsign cert, r.getByCallsign callsign = some cert → cert.callsign = callsign
  found : ∀ pubkey cert, r.getByPubkey pubkey = some cert →
    r.isCallsignTaken cert.callsign = true ∧ ∃ other, r.getByCallsign cert.callsign = some other ∧
      (∃ key, r.getByPubkey key = some other) ∧ other.callsign = cert.callsign

inductive Op where
  | register (cert : MembershipCertificate)
  | remove (pubkey : PublicKey)
  | removeExpired (nowMs gracePeriodMs : Nat)

def step (r : CertificateRegistry) : Op → CertificateRegistry
  | .register cert => (r.register cert).2
  | .remove pubkey => (r.remove pubkey).2
  | .removeExpired nowMs gracePeriodMs => (r.removeExpired nowMs gracePeriodMs).2

def Alone (r : CertificateRegistry) (pubkey : PublicKey) (old : MembershipCertificate) : Prop :=
  ∀ key cert, r.getByPubkey key = some cert → key ≠ pubkey → cert.callsign ≠ old.callsign

/-- **The operation takes a callsign from a member only if no other member keeps it.** -/
def Clear (r : CertificateRegistry) : Op → Prop
  | .register cert => ∀ old, r.getByPubkey cert.memberPublicKey = some old →
      old.callsign ≠ cert.callsign → r.Alone cert.memberPublicKey old
  | .remove pubkey => ∀ old, r.getByPubkey pubkey = some old → r.Alone pubkey old
  | .removeExpired nowMs gracePeriodMs =>
    ∀ pubkey old, r.getByPubkey pubkey = some old → old.isExpired nowMs gracePeriodMs = true →
      ∀ key cert, r.getByPubkey key = some cert → cert.isExpired nowMs gracePeriodMs = false →
        cert.callsign ≠ old.callsign

/-! ## 3. The index leads to the right certificates -/

def Resolves (r : CertificateRegistry) : Prop :=
  ∀ callsign pubkey, r.callsignToPubkey.lookup callsign = some pubkey →
    ∃ cert, r.byPublicKey.lookup pubkey = some cert ∧ cert.callsign = callsign

def Indexed (r : CertificateRegistry) : Prop :=
  ∀ pubkey cert, r.byPublicKey.lookup pubkey = some cert →
    r.callsignToPubkey.lookup cert.callsign ≠ none

theorem new_resolves : new.Resolves := by
  intro callsign pubkey h
  nomatch h

theorem new_indexed : new.Indexed := by
  intro pubkey cert h
  rw [new, AList.lookup_empty] at h
  nomatch h

section Lookups

variable {r : CertificateRegistry}

theorem lookup_forget (r : CertificateRegistry) (pubkey : PublicKey) (callsign : String) :
    (r.forget pubkey).lookup callsign =
      if (r.byPublicKey.lookup pubkey).map MembershipCertificate.callsign = some callsign then none
      else r.callsignToPubkey.lookup callsign := by
  unfold forget
  cases r.byPublicKey.lookup pubkey with
  | none => rfl
  | some old =>
    show (r.callsignToPubkey.erase old.callsign).lookup callsign =
      if some old.callsign = some callsign then none else _
    by_cases h : old.callsign = callsign
    · rw [if_pos (congrArg some h), h, AList.lookup_erase]
    · rw [if_neg fun e => h (Option.some.inj e), AList.lookup_erase_ne (Ne.symm h)]

variable {pubkey key : PublicKey}

theorem Resolves.forget (h : r.Resolves) {callsign : String}
    (hl : (r.forget pubkey).lookup callsign = some key) :
    key ≠ pubkey ∧ ∃ cert, r.byPublicKey.lookup key = some cert ∧ cert.callsign = callsign := by
  rw [lookup_forget] at hl
  split at hl
  · nomatch hl
  · rename_i hne
    obtain ⟨cert, hcert, hcall⟩ := h callsign key hl
    refine ⟨?_, cert, hcert, hcall⟩
    rintro rfl
    rw [hcert] at hne
    exact hne (congrArg some hcall)

theorem Resolves.register (h : r.Resolves) (cert : MembershipCertificate) :
    (r.register cert).2.Resolves := by
  intro callsign key hl
  show ∃ c, (r.byPublicKey.insert cert.memberPublicKey cert).lookup key = some c ∧ _
  replace hl : ((r.forget cert.memberPublicKey).insert cert.callsign
    cert.memberPublicKey).lookup callsign = some key := hl
  rw [lookup_insert_eq_ite] at hl
  split at hl
  · rename_i hcall
    cases hl
    rw [AList.lookup_insert]
    exact ⟨cert, rfl, hcall.symm⟩
  · obtain ⟨hne, c, hc, hcall⟩ := h.forget hl
    rw [AList.lookup_insert_ne hne]
    exact ⟨c, hc, hcall⟩

theorem Resolves.remove (h : r.Resolves) (pubkey : PublicKey) : (r.remove pubkey).2.Resolves := by
  intro callsign key hl
  obtain ⟨hne, c, hc, hcall⟩ := h.forget hl
  refine ⟨c, ?_, hcall⟩
  show (r.byPublicKey.erase pubkey).lookup key = some c
  rw [AList.lookup_erase_ne hne]
  exact hc

theorem Resolves.step (h : r.Resolves) (op : Op) : (r.step op).Resolves := by
  cases op with
  | register cert => exact h.register cert
  | remove pubkey => exact h.remove pubkey
  | removeExpired nowMs gracePeriodMs =>
    exact run_invariant Resolves (fun _ pubkey hr => hr.remove pubkey) h _

theorem Resolves.consistent_iff_indexed (h : r.Resolves) : r.Consistent ↔ r.Indexed := by
  constructor
  · intro hc pubkey cert hcert hnone
    have htaken := (hc.found pubkey cert hcert).1
    rw [isCallsignTaken, hnone] at htaken
    nomatch htaken
  · intro hi
    constructor
    · intro callsign cert hget
      obtain ⟨key, hkey, hcert⟩ := Option.bind_eq_some_iff.mp hget
      obtain ⟨c, hc, hcall⟩ := h callsign key hkey
      rw [hc] at hcert
      cases hcert
      exact hcall
    · intro pubkey cert hcert
      obtain ⟨key, hkey⟩ := Option.ne_none_iff_exists'.mp (hi pubkey cert hcert)
      obtain ⟨other, hother, hcall⟩ := h cert.callsign key hkey
      refine ⟨by rw [isCallsignTaken, hkey]; rfl, other, ?_, ⟨key, hother⟩, hcall⟩
      rw [getByCallsign, hkey]
      exact hother

/-! ## 4. The index holds every callsign -/

theorem Indexed.forget (h : r.Indexed) {cert : MembershipCertificate}
    (hcert : r.byPublicKey.lookup key = some cert)
    (hfree : ∀ old, r.byPublicKey.lookup pubkey = some old → cert.callsign ≠ old.callsign) :
    (r.forget pubkey).lookup cert.callsign ≠ none := by
  rw [lookup_forget, if_neg]
  · exact h key cert hcert
  · intro hheld
    obtain ⟨old, hold, hcall⟩ := Option.map_eq_some_iff.mp hheld
    exact hfree old hold hcall.symm

theorem lookup_forget_held {old : MembershipCertificate}
    (h : r.byPublicKey.lookup pubkey = some old) :
    (r.forget pubkey).lookup old.callsign = none := by
  rw [lookup_forget, h]
  exact if_pos rfl

theorem indexed_register_iff (h : r.Indexed) (cert : MembershipCertificate) :
    (r.register cert).2.Indexed ↔ r.Clear (.register cert) := by
  have hkeys : ∀ key, (r.register cert).2.byPublicKey.lookup key =
      if key = cert.memberPublicKey then some cert else r.byPublicKey.lookup key :=
    fun key => lookup_insert_eq_ite _ _ key _
  have hindex : ∀ callsign, (r.register cert).2.callsignToPubkey.lookup callsign =
      if callsign = cert.callsign then some cert.memberPublicKey
      else (r.forget cert.memberPublicKey).lookup callsign := fun callsign =>
    lookup_insert_eq_ite _ _ callsign _
  constructor
  · intro hi old hold hmoved key other hother hne hcall
    refine hi key other ?_ ?_
    · rw [hkeys, if_neg hne]
      exact hother
    · rw [hindex, hcall, if_neg hmoved]
      exact lookup_forget_held hold
  · intro hclear key other hother
    rw [hindex]
    split
    · exact Option.some_ne_none _
    · rename_i hcall
      rw [hkeys] at hother
      split at hother
      · cases hother
        exact absurd rfl hcall
      · rename_i hne
        refine h.forget hother fun old hold heq => ?_
        exact hclear old hold (heq ▸ hcall) key other hother hne heq

theorem indexed_remove_iff (h : r.Indexed) (pubkey : PublicKey) :
    (r.remove pubkey).2.Indexed ↔ r.Clear (.remove pubkey) := by
  constructor
  · intro hi old hold key other hother hne hcall
    refine hi key other ?_ ?_
    · show (r.byPublicKey.erase pubkey).lookup key = _
      rw [AList.lookup_erase_ne hne]
      exact hother
    · rw [hcall]
      exact lookup_forget_held hold
  · intro hclear key other hother
    replace hother : (r.byPublicKey.erase pubkey).lookup key = some other := hother
    by_cases hne : key = pubkey
    · rw [hne, AList.lookup_erase] at hother
      nomatch hother
    · rw [AList.lookup_erase_ne hne] at hother
      exact h.forget hother fun old hold => hclear old hold key other hother hne

theorem lookup_removeAll (r : CertificateRegistry) (keys : List PublicKey) (key : PublicKey) :
    (r.removeAll keys).byPublicKey.lookup key =
      if key ∈ keys then none else r.byPublicKey.lookup key := by
  induction keys generalizing r with
  | nil => rfl
  | cons k keys ih =>
    show ((r.remove k).2.removeAll keys).byPublicKey.lookup key = _
    rw [ih]
    by_cases hk : key = k
    · subst hk
      rw [if_pos (List.mem_cons_self (a := key) (l := keys))]
      show (if _ then none else (r.byPublicKey.erase key).lookup key) = none
      rw [AList.lookup_erase, ite_self]
    · simp only [List.mem_cons, hk, false_or]
      show (if _ then none else (r.byPublicKey.erase k).lookup key) = _
      rw [AList.lookup_erase_ne hk]

theorem lookup_callsign_removeAll (r : CertificateRegistry) (keys : List PublicKey)
    (callsign : String) :
    (r.removeAll keys).callsignToPubkey.lookup callsign =
      if ∃ k ∈ keys, (r.byPublicKey.lookup k).map MembershipCertificate.callsign = some callsign
      then none else r.callsignToPubkey.lookup callsign := by
  induction keys generalizing r with
  | nil => exact (if_neg fun ⟨_, hk, _⟩ => absurd hk List.not_mem_nil).symm
  | cons k keys ih =>
    show ((r.remove k).2.removeAll keys).callsignToPubkey.lookup callsign = _
    have hrest : ∀ k', k' ≠ k → (r.remove k).2.byPublicKey.lookup k' = r.byPublicKey.lookup k' :=
      fun k' hne => AList.lookup_erase_ne hne
    have hself : (r.remove k).2.byPublicKey.lookup k = none := AList.lookup_erase _ _
    rw [ih]
    show (if _ then none else (r.forget k).lookup callsign) = _
    rw [lookup_forget]
    by_cases hk : (r.byPublicKey.lookup k).map MembershipCertificate.callsign = some callsign
    · rw [if_pos hk, ite_self, if_pos ⟨k, List.mem_cons_self, hk⟩]
    · rw [if_neg hk]
      refine if_congr ⟨?_, ?_⟩ rfl rfl
      · rintro ⟨k', hmem, hcall⟩
        by_cases he : k' = k
        · rw [he, hself] at hcall
          nomatch hcall
        · exact ⟨k', List.mem_cons_of_mem _ hmem, hrest k' he ▸ hcall⟩
      · rintro ⟨k', hmem, hcall⟩
        have he : k' ≠ k := fun e => hk (e ▸ hcall)
        exact ⟨k', (List.mem_cons.mp hmem).resolve_left he, (hrest k' he).symm ▸ hcall⟩

theorem mem_expired {nowMs gracePeriodMs : Nat} :
    key ∈ r.expired nowMs gracePeriodMs ↔
      ∃ cert, r.byPublicKey.lookup key = some cert ∧ cert.isExpired nowMs gracePeriodMs = true := by
  unfold expired
  simp only [List.mem_map, List.mem_filter, lookup_eq_some_iff]
  constructor
  · rintro ⟨⟨key, cert⟩, ⟨hmem, hexp⟩, rfl⟩
    exact ⟨cert, hmem, hexp⟩
  · rintro ⟨cert, hmem, hexp⟩
    exact ⟨⟨key, cert⟩, ⟨hmem, hexp⟩, rfl⟩

theorem indexed_removeExpired_iff (h : r.Indexed) (nowMs gracePeriodMs : Nat) :
    (r.removeExpired nowMs gracePeriodMs).2.Indexed ↔
      r.Clear (.removeExpired nowMs gracePeriodMs) := by
  have hkeys := lookup_removeAll r (r.expired nowMs gracePeriodMs)
  have hindex := lookup_callsign_removeAll r (r.expired nowMs gracePeriodMs)
  constructor
  · intro hi pubkey old hold hexp key other hother hfresh hcall
    refine hi key other ?_ ?_
    · refine (hkeys key).trans (if_neg fun hmem => ?_) |>.trans hother
      obtain ⟨c, hc, hcexp⟩ := mem_expired.mp hmem
      cases hother.symm.trans hc
      rw [hfresh] at hcexp
      nomatch hcexp
    · refine (hindex other.callsign).trans (if_pos ⟨pubkey, mem_expired.mpr ⟨old, hold, hexp⟩, ?_⟩)
      rw [show r.byPublicKey.lookup pubkey = some old from hold, hcall]
      rfl
  · intro hclear key other hother
    replace hother := (hkeys key).symm.trans hother
    show (r.removeAll _).callsignToPubkey.lookup _ ≠ none
    split at hother
    · nomatch hother
    · rename_i hkeep
      have hfresh : other.isExpired nowMs gracePeriodMs = false := by
        rw [← Bool.not_eq_true]
        exact fun hexp => hkeep (mem_expired.mpr ⟨other, hother, hexp⟩)
      rw [hindex, if_neg]
      · exact h key other hother
      · rintro ⟨k, hk, hheld⟩
        obtain ⟨old, hold, hexp⟩ := mem_expired.mp hk
        rw [hold] at hheld
        exact hclear k old hold hexp key other hother hfresh (Option.some.inj hheld).symm

theorem indexed_step_iff (h : r.Indexed) (op : Op) : (r.step op).Indexed ↔ r.Clear op := by
  cases op with
  | register cert => exact indexed_register_iff h cert
  | remove pubkey => exact indexed_remove_iff h pubkey
  | removeExpired nowMs gracePeriodMs => exact indexed_removeExpired_iff h nowMs gracePeriodMs

end Lookups

/-- **Certificate lookup**: index and certificates agree in every state of a run exactly when every
    operation of the run is clear. -/
theorem consistent_iff (ops : List Op) :
    (∀ pre, pre <+: ops → (run step new pre).Consistent) ↔ RunMeets step Clear new ops := by
  have hresolves : ∀ pre, (run step new pre).Resolves :=
    run_invariant Resolves (fun _ op h => h.step op) new_resolves
  have hindexed : (∀ pre, pre <+: ops → (run step new pre).Indexed) ↔ RunMeets step Clear new ops :=
    run_within_iff Indexed (fun _ op h => indexed_step_iff h op) new_indexed
  rw [← hindexed]
  exact forall₂_congr fun pre _ => (hresolves pre).consistent_iff_indexed

def sampleCertificate (member : UInt8) (callsign : String) : MembershipCertificate :=
  { memberPublicKey := Vector.replicate 32 member, callsign := callsign, meshId := "A1B2C3D4",
    issuedAtMs := 1, expiresAtMs := 0, permissions := 0, issuerPublicKey := Vector.replicate 32 0,
    issuerSignature := Vector.replicate 64 0 }

/-- **One member's callsign goes with another's**: of two members ALPHA-01 the later one is removed, and the
    earlier one cannot be found. -/
theorem shared_callsign_lost :
    let r := run step new [.register (sampleCertificate 1 "ALPHA-01"),
      .register (sampleCertificate 2 "ALPHA-01"), .remove (Vector.replicate 32 2)]
    r.getByPubkey (Vector.replicate 32 1) = some (sampleCertificate 1 "ALPHA-01") ∧
      r.isCallsignTaken "ALPHA-01" = false ∧ r.getByCallsign "ALPHA-01" = none ∧
      ¬ r.Consistent := by
  have hreg : (run step new [.register (sampleCertificate 1 "ALPHA-01"),
      .register (sampleCertificate 2 "ALPHA-01"), .remove (Vector.replicate 32 2)]).getByPubkey
        (Vector.replicate 32 1) = some (sampleCertificate 1 "ALPHA-01") := by decide
  refine ⟨hreg, by decide, by decide, fun h => ?_⟩
  have htaken := (h.found _ _ hreg).1
  exact absurd htaken (by decide)

end CertificateRegistry

end Peat.Security
