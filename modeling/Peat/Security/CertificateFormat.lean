/-
  THE WIRE FORMAT OF A CERTIFICATE (`encode`, `decode` and `signable_bytes` in
  security/membership.rs).

  The callsign has its length in front, the mesh id has none. `decode` checks the length
  of the callsign, the constructor does not.
-/
import Mathlib.Algebra.Order.Ring.Nat
import Peat.Lib.Decoder
import Peat.Security.Membership

namespace Peat.Security

open Peat.Lib

/-! ## 1. Bytes -/

def fromUtf8 (bytes : List UInt8) : Option String := String.fromUTF8? ⟨bytes.toArray⟩

def fromLeBytes (bytes : List UInt8) : Nat := bytes.foldr (fun b n => b.toNat + 256 * n) 0

def copied (n : Nat) (bytes : List UInt8) : Option (Vector UInt8 n) :=
  if h : bytes.length = n then some ⟨bytes.toArray, h⟩ else none

theorem fromUtf8_eq_some_iff {bytes : List UInt8} {s : String} :
    fromUtf8 bytes = some s ↔ bytesOf s = bytes := by
  unfold fromUtf8 String.fromUTF8? bytesOf
  constructor
  · intro h
    split at h
    · cases h
      rfl
    · cases h
  · intro h
    subst h
    exact dif_pos s.isValidUTF8

theorem bytesOf_injective {s t : String} (h : bytesOf s = bytesOf t) : s = t :=
  Option.some.inj ((fromUtf8_eq_some_iff.mpr h).symm.trans (fromUtf8_eq_some_iff.mpr rfl))

theorem bytesOf_append (s t : String) : bytesOf (s ++ t) = bytesOf s ++ bytesOf t := by
  show ((s ++ t).toByteArray).data.toList = s.toByteArray.data.toList ++ t.toByteArray.data.toList
  rw [String.toByteArray_append, ByteArray.data_append, Array.toList_append]

theorem length_bytesOf (s : String) : (bytesOf s).length = s.utf8ByteSize := rfl

theorem length_toLeBytes (width n : Nat) : (toLeBytes width n).length = width := by
  induction width generalizing n with
  | zero => rfl
  | succ width ih => rw [toLeBytes, List.length_cons, ih]

theorem fromLeBytes_toLeBytes {width n : Nat} (h : n < 256 ^ width) :
    fromLeBytes (toLeBytes width n) = n := by
  induction width generalizing n with
  | zero => exact (Nat.lt_one_iff.mp h).symm
  | succ width ih =>
    have hdigit : (UInt8.ofNat (n % 256)).toNat = n % 256 := by
      rw [UInt8.toNat_ofNat']
      omega
    have hrest : n / 256 < 256 ^ width := Nat.div_lt_of_lt_mul (by rw [← Nat.pow_succ']; exact h)
    show (UInt8.ofNat (n % 256)).toNat + 256 * fromLeBytes (toLeBytes width (n / 256)) = n
    rw [hdigit, ih hrest]
    exact Nat.mod_add_div n 256

theorem toLeBytes_fromLeBytes (bytes : List UInt8) :
    toLeBytes bytes.length (fromLeBytes bytes) = bytes ∧ fromLeBytes bytes < 256 ^ bytes.length := by
  induction bytes with
  | nil => exact ⟨rfl, Nat.one_pos⟩
  | cons b bytes ih =>
    have hb := b.toNat_lt
    have hvalue : fromLeBytes (b :: bytes) = b.toNat + 256 * fromLeBytes bytes := rfl
    have hdigit : fromLeBytes (b :: bytes) % 256 = b.toNat := by omega
    have hrest : fromLeBytes (b :: bytes) / 256 = fromLeBytes bytes := by omega
    constructor
    · rw [List.length_cons, toLeBytes, hdigit, hrest, ih.1, UInt8.ofNat_toNat]
    · rw [List.length_cons, Nat.pow_succ]
      omega

theorem toLeBytes_injective {m n : Nat} (hm : m < u64Count) (hn : n < u64Count)
    (h : toLeBytes 8 m = toLeBytes 8 n) : m = n := by
  have hbytes := congrArg fromLeBytes h
  have hm' : m < 256 ^ 8 := hm
  have hn' : n < 256 ^ 8 := hn
  rw [fromLeBytes_toLeBytes hm', fromLeBytes_toLeBytes hn'] at hbytes
  exact hbytes

theorem copied_eq_some_iff {n : Nat} {bytes : List UInt8} {v : Vector UInt8 n} :
    copied n bytes = some v ↔ bytes = v.toList := by
  unfold copied
  constructor
  · intro h
    split at h
    · cases h
      rfl
    · cases h
  · intro h
    subst h
    rw [dif_pos Vector.length_toList]
    rfl

/-! ## 2. Writing and reading -/

structure SerializationError where
  message : String
  deriving DecidableEq, Repr

def certificateBaseSize : Nat := 154

def maxCallsignLen : Nat := 16

def meshIdLen : Nat := 8

namespace MemberPermissions

def all : UInt8 := 0b00000001 ||| 0b00000010 ||| 0b00000100 ||| 0b10000000

def fromBitsTruncate (bits : UInt8) : UInt8 := bits &&& all

end MemberPermissions

open MemberPermissions

namespace MembershipCertificate

def new (memberPublicKey : PublicKey) (callsign meshId : String) (issuedAtMs expiresAtMs : Nat)
    (permissions : UInt8) (issuerPublicKey : PublicKey) : MembershipCertificate :=
  ⟨memberPublicKey, callsign, meshId, issuedAtMs, expiresAtMs, permissions, issuerPublicKey,
    Vector.replicate 64 0⟩

def front (c : MembershipCertificate) : List UInt8 :=
  c.memberPublicKey.toList ++ (UInt8.ofNat c.callsign.utf8ByteSize :: (bytesOf c.callsign ++
    (bytesOf c.meshId ++ (toLeBytes 8 c.issuedAtMs ++ toLeBytes 8 c.expiresAtMs))))

def signableBytes (c : MembershipCertificate) : List UInt8 :=
  c.front ++ c.permissions :: c.issuerPublicKey.toList

def encode (c : MembershipCertificate) : List UInt8 :=
  c.front ++ c.permissions :: (c.issuerPublicKey.toList ++ c.issuerSignature.toList)

def truncated (name : String) : SerializationError := ⟨"truncated " ++ name⟩

/-- Bytes as text; how `Utf8Error` describes what is wrong with them is an argument. -/
def text (utf8Error : List UInt8 → String) (name : String) (bytes : List UInt8) :
    Decoder SerializationError String :=
  match fromUtf8 bytes with
  | some s => pure s
  | none => throw ⟨"invalid " ++ name ++ " UTF-8: " ++ utf8Error bytes⟩

def byteAt (data : List UInt8) (start : Nat) : Option UInt8 := (slice data start 1).bind List.head?

def decode (utf8Error : List UInt8 → String) (data : List UInt8) :
    Decoder SerializationError MembershipCertificate :=
  if data.length < certificateBaseSize then
    throw ⟨"certificate too short: " ++ Nat.repr data.length ++ " bytes, need at least " ++
      Nat.repr certificateBaseSize⟩
  else do
    let memberPublicKey ← orPanic ((slice data 0 32).bind (copied 32))
    let callsignLen ← orPanic ((byteAt data 32).map UInt8.toNat)
    if callsignLen > maxCallsignLen then
      throw ⟨"callsign too long: " ++ Nat.repr callsignLen ++ " bytes, max " ++
        Nat.repr maxCallsignLen⟩
    else do
      let callsign ← field data 33 callsignLen (truncated "callsign") >>= text utf8Error "callsign"
      let offset := 33 + callsignLen
      let meshId ← field data offset meshIdLen (truncated "mesh_id") >>= text utf8Error "mesh_id"
      let offset := offset + meshIdLen
      let issuedAtMs ← field data offset 8 (truncated "issued_at") >>= fun bytes =>
        orPanic ((copied 8 bytes).map fun v => fromLeBytes v.toList)
      let offset := offset + 8
      let expiresAtMs ← field data offset 8 (truncated "expires_at") >>= fun bytes =>
        orPanic ((copied 8 bytes).map fun v => fromLeBytes v.toList)
      let offset := offset + 8
      let permissions ← field data offset 1 (truncated "permissions") >>= fun bytes =>
        orPanic (bytes.head?.map fromBitsTruncate)
      let offset := offset + 1
      let issuerPublicKey ← field data offset 32 (truncated "issuer_public_key") >>= fun bytes =>
        orPanic (copied 32 bytes)
      let offset := offset + 32
      let issuerSignature ← field data offset 64 (truncated "signature") >>= fun bytes =>
        orPanic (copied 64 bytes)
      pure ⟨memberPublicKey, callsign, meshId, issuedAtMs, expiresAtMs, permissions,
        issuerPublicKey, issuerSignature⟩

/-! ## 3. The fields one by one -/

section Fields

variable {data : List UInt8} {start len : Nat} {utf8Error : List UInt8 → String}

theorem text_eq_pure_iff {name : String} {bytes : List UInt8} {s : String} :
    text utf8Error name bytes = pure s ↔ bytesOf s = bytes := by
  rw [← fromUtf8_eq_some_iff]
  unfold text
  cases fromUtf8 bytes with
  | none => exact ⟨fun h => (by cases h), fun h => (by cases h)⟩
  | some t => exact ⟨fun h => (by cases h; rfl), fun h => (by cases h; rfl)⟩

theorem text_returns (name : String) (bytes : List UInt8) : Returns (text utf8Error name bytes) := by
  unfold text
  cases fromUtf8 bytes with
  | none => exact returns_throw _
  | some t => exact returns_pure t

theorem field_bind_eq_pure_iff {β : Type} {truncated : SerializationError}
    {f : List UInt8 → Decoder SerializationError β} {b : β} :
    (field data start len truncated >>= f) = pure b ↔
      ∃ x, FieldAt data start len x ∧ f x = pure b := by
  rw [bind_eq_pure_iff]
  exact exists_congr fun x => and_congr_left fun _ => field_eq_pure_iff

variable {e : SerializationError} {c : MembershipCertificate}

theorem textField_iff {name : String} {s : String} :
    (field data start len e >>= text utf8Error name) = pure s ↔ FieldAt data start len (bytesOf s) := by
  rw [field_bind_eq_pure_iff]
  constructor
  · intro ⟨x, hx, hs⟩
    rw [text_eq_pure_iff.mp hs]
    exact hx
  · intro h
    exact ⟨_, h, text_eq_pure_iff.mpr rfl⟩

theorem arrayField_iff {n : Nat} {v : Vector UInt8 n} :
    (field data start len e >>= fun bytes => orPanic (copied n bytes)) = pure v ↔
      FieldAt data start len v.toList := by
  rw [field_bind_eq_pure_iff]
  constructor
  · intro ⟨x, hx, hv⟩
    rw [← copied_eq_some_iff.mp (orPanic_eq_pure_iff.mp hv)]
    exact hx
  · intro h
    exact ⟨_, h, orPanic_eq_pure_iff.mpr (copied_eq_some_iff.mpr rfl)⟩

theorem numberField_iff {n : Nat} :
    (field data start 8 e >>= fun bytes =>
        orPanic ((copied 8 bytes).map fun v => fromLeBytes v.toList)) = pure n ↔
      FieldAt data start 8 (toLeBytes 8 n) ∧ n < u64Count := by
  rw [field_bind_eq_pure_iff]
  constructor
  · intro ⟨x, hx, hn⟩
    obtain ⟨v, hv, hvalue⟩ := Option.map_eq_some_iff.mp (orPanic_eq_pure_iff.mp hn)
    obtain ⟨hbytes, hlt⟩ := toLeBytes_fromLeBytes v.toList
    rw [Vector.length_toList, hvalue] at hbytes hlt
    rw [hbytes, ← copied_eq_some_iff.mp hv]
    exact ⟨hx, hlt⟩
  · intro ⟨h, hlt⟩
    have hv : copied 8 (toLeBytes 8 n) = some ⟨(toLeBytes 8 n).toArray, length_toLeBytes 8 n⟩ :=
      dif_pos (length_toLeBytes 8 n)
    refine ⟨_, h, ?_⟩
    rw [hv]
    exact orPanic_eq_pure_iff.mpr (congrArg some (fromLeBytes_toLeBytes hlt))

theorem byteAt_eq_some_iff {b : UInt8} : byteAt data start = some b ↔ FieldAt data start 1 [b] := by
  unfold byteAt
  rw [Option.bind_eq_some_iff, ← slice_eq_some_iff]
  constructor
  · intro ⟨x, hx, hb⟩
    obtain ⟨rest, rfl⟩ := List.head?_eq_some_iff.mp hb
    have hlen := (slice_eq_some_iff.mp hx).length
    rw [hx, List.eq_nil_of_length_eq_zero (Nat.succ.inj hlen)]
  · intro h
    exact ⟨[b], h, rfl⟩

theorem permissionsField_iff {b : UInt8} :
    (field data start 1 e >>= fun bytes => orPanic (bytes.head?.map fromBitsTruncate)) = pure b ↔
      ∃ p, FieldAt data start 1 [p] ∧ b = fromBitsTruncate p := by
  rw [field_bind_eq_pure_iff]
  constructor
  · intro ⟨x, hx, hb⟩
    obtain ⟨p, hp, hbits⟩ := Option.map_eq_some_iff.mp (orPanic_eq_pure_iff.mp hb)
    have hbyte : byteAt data start = some p := by
      rw [byteAt, slice_eq_some_iff.mpr hx]
      exact hp
    exact ⟨p, byteAt_eq_some_iff.mp hbyte, hbits.symm⟩
  · intro ⟨p, hp, hb⟩
    rw [hb]
    exact ⟨[p], hp, rfl⟩

/-- Both times fit into a `u64`. -/
def InRange (c : MembershipCertificate) : Prop :=
  c.issuedAtMs < u64Count ∧ c.expiresAtMs < u64Count

/-- The data is the encoding of the certificate, with any undefined permission bits in its permission
    byte and any bytes behind it. -/
def Encodes (c : MembershipCertificate) (data : List UInt8) : Prop :=
  ∃ p rest, c.permissions = fromBitsTruncate p ∧
    data = c.front ++ p :: (c.issuerPublicKey.toList ++ (c.issuerSignature.toList ++ rest))

/-- The texts have the lengths that the format has room for. -/
structure Sized (c : MembershipCertificate) : Prop where
  callsign : c.callsign.utf8ByteSize ≤ maxCallsignLen
  meshId : c.meshId.utf8ByteSize = meshIdLen
  inRange : c.InRange

theorem encodes_of_decode (h : decode utf8Error data = pure c) : c.Sized ∧ c.Encodes data := by
  unfold decode at h
  split at h
  · cases h
  obtain ⟨key, hkey, h⟩ := bind_eq_pure_iff.mp h
  obtain ⟨n, hn, h⟩ := bind_eq_pure_iff.mp h
  split at h
  · cases h
  rename_i hshort
  obtain ⟨callsign, hcallsign, h⟩ := bind_eq_pure_iff.mp h
  obtain ⟨meshId, hmeshId, h⟩ := bind_eq_pure_iff.mp h
  obtain ⟨issuedAtMs, hissued, h⟩ := bind_eq_pure_iff.mp h
  obtain ⟨expiresAtMs, hexpires, h⟩ := bind_eq_pure_iff.mp h
  obtain ⟨permissions, hpermissions, h⟩ := bind_eq_pure_iff.mp h
  obtain ⟨issuerKey, hissuer, h⟩ := bind_eq_pure_iff.mp h
  obtain ⟨signature, hsignature, h⟩ := bind_eq_pure_iff.mp h
  cases h
  -- the fields as they stand in the data
  obtain ⟨x, hx, hkey⟩ := Option.bind_eq_some_iff.mp (orPanic_eq_pure_iff.mp hkey)
  have hkey := copied_eq_some_iff.mp hkey ▸ slice_eq_some_iff.mp hx
  obtain ⟨b, hb, hbn⟩ := Option.map_eq_some_iff.mp (orPanic_eq_pure_iff.mp hn)
  have hb := byteAt_eq_some_iff.mp hb
  have hcallsign := textField_iff.mp hcallsign
  have hmeshId := textField_iff.mp hmeshId
  obtain ⟨hissued, hissuedLt⟩ := numberField_iff.mp hissued
  obtain ⟨hexpires, hexpiresLt⟩ := numberField_iff.mp hexpires
  obtain ⟨p, hp, hbits⟩ := permissionsField_iff.mp hpermissions
  have hissuer := arrayField_iff.mp hissuer
  have hsignature := arrayField_iff.mp hsignature
  have hsize : callsign.utf8ByteSize = n := hcallsign.length
  refine ⟨⟨?_, hmeshId.length, hissuedLt, hexpiresLt⟩, p,
    data.drop (33 + n + meshIdLen + 8 + 8 + 1 + 32 + 64), hbits, ?_⟩
  · rw [hsize]
    exact Nat.not_lt.mp hshort
  · have hbyte : UInt8.ofNat callsign.utf8ByteSize = b := by rw [hsize, ← hbn, UInt8.ofNat_toNat]
    have hfirst : data = key.toList ++ data.drop 32 := hkey.rest
    have hsecond : data.drop 32 = b :: data.drop 33 := hb.rest
    rw [hsecond, hcallsign.rest, hmeshId.rest, hissued.rest, hexpires.rest, hp.rest, hissuer.rest,
      hsignature.rest] at hfirst
    rw [front, hbyte]
    simp only [List.append_assoc, List.cons_append]
    exact hfirst

theorem decode_of_encodes (hs : c.Sized) (he : c.Encodes data) :
    decode utf8Error data = pure c := by
  obtain ⟨p, rest, hbits, hdata⟩ := he
  have hcall : c.callsign.utf8ByteSize ≤ 16 := hs.callsign
  have hlen : (UInt8.ofNat c.callsign.utf8ByteSize).toNat = c.callsign.utf8ByteSize :=
    UInt8.toNat_ofNat_of_lt (by show _ < 256; omega)
  have hall : data.drop 0 = c.memberPublicKey.toList ++ ([UInt8.ofNat c.callsign.utf8ByteSize] ++
      (bytesOf c.callsign ++ (bytesOf c.meshId ++ (toLeBytes 8 c.issuedAtMs ++
        (toLeBytes 8 c.expiresAtMs ++ ([p] ++ (c.issuerPublicKey.toList ++
          (c.issuerSignature.toList ++ rest)))))))) := by
    rw [List.drop_zero, hdata, front]
    simp only [List.append_assoc, List.cons_append, List.nil_append]
  -- the fields follow each other
  obtain ⟨hkey, hle, htail⟩ := FieldAt.of_drop (Nat.zero_le _) hall Vector.length_toList
  obtain ⟨hbyte, hle, htail⟩ := FieldAt.of_drop hle htail (List.length_singleton)
  obtain ⟨hcallsign, hle, htail⟩ := FieldAt.of_drop hle htail (length_bytesOf c.callsign)
  obtain ⟨hmeshId, hle, htail⟩ := FieldAt.of_drop hle htail hs.meshId
  obtain ⟨hissued, hle, htail⟩ := FieldAt.of_drop hle htail (length_toLeBytes 8 _)
  obtain ⟨hexpires, hle, htail⟩ := FieldAt.of_drop hle htail (length_toLeBytes 8 _)
  obtain ⟨hp, hle, htail⟩ := FieldAt.of_drop hle htail (List.length_singleton)
  obtain ⟨hissuer, hle, htail⟩ := FieldAt.of_drop hle htail Vector.length_toList
  obtain ⟨hsignature, hle, _⟩ := FieldAt.of_drop hle htail Vector.length_toList
  have hlong : ¬ data.length < certificateBaseSize := by
    unfold certificateBaseSize
    unfold meshIdLen at hle
    omega
  unfold decode
  rw [if_neg hlong]
  refine bind_eq_pure_iff.mpr ⟨c.memberPublicKey, ?_, bind_eq_pure_iff.mpr
    ⟨c.callsign.utf8ByteSize, ?_, ?_⟩⟩
  · rw [slice_eq_some_iff.mpr hkey]
    exact orPanic_eq_pure_iff.mpr (copied_eq_some_iff.mpr rfl)
  · rw [byteAt_eq_some_iff.mpr hbyte]
    exact orPanic_eq_pure_iff.mpr (congrArg some hlen)
  rw [if_neg (Nat.not_lt.mpr hs.callsign)]
  refine bind_eq_pure_iff.mpr ⟨_, textField_iff.mpr hcallsign, ?_⟩
  refine bind_eq_pure_iff.mpr ⟨_, textField_iff.mpr hmeshId, ?_⟩
  refine bind_eq_pure_iff.mpr ⟨_, numberField_iff.mpr ⟨hissued, hs.inRange.1⟩, ?_⟩
  refine bind_eq_pure_iff.mpr ⟨_, numberField_iff.mpr ⟨hexpires, hs.inRange.2⟩, ?_⟩
  refine bind_eq_pure_iff.mpr ⟨_, permissionsField_iff.mpr ⟨p, hp, hbits⟩, ?_⟩
  refine bind_eq_pure_iff.mpr ⟨_, arrayField_iff.mpr hissuer, ?_⟩
  exact bind_eq_pure_iff.mpr ⟨_, arrayField_iff.mpr hsignature, rfl⟩

theorem decode_eq_pure_iff : decode utf8Error data = pure c ↔ c.Sized ∧ c.Encodes data :=
  ⟨encodes_of_decode, fun h => decode_of_encodes h.1 h.2⟩

theorem fieldBind_returns {β : Type} {f : List UInt8 → Decoder SerializationError β}
    (hf : ∀ x, x.length = len → Returns (f x)) : Returns (field data start len e >>= f) :=
  (field_returns data start len e).bind fun x hx => hf x (field_eq_pure_iff.mp hx).length

variable {x : List UInt8}

theorem copied_returns {n : Nat} (h : x.length = n) :
    Returns (orPanic (copied n x) : Decoder SerializationError (Vector UInt8 n)) := by
  rw [copied, dif_pos h]
  exact Option.some_ne_none _

theorem number_returns (h : x.length = 8) :
    Returns (orPanic ((copied 8 x).map fun v => fromLeBytes v.toList) :
      Decoder SerializationError Nat) := by
  rw [copied, dif_pos h]
  exact Option.some_ne_none _

theorem permissions_returns (h : x.length = 1) :
    Returns (orPanic (x.head?.map fromBitsTruncate) : Decoder SerializationError UInt8) := by
  obtain ⟨p, rfl⟩ := List.length_eq_one_iff.mp h
  exact Option.some_ne_none _

theorem decode_returns (utf8Error : List UInt8 → String) (data : List UInt8) :
    Returns (decode utf8Error data) := by
  unfold decode
  split
  · exact returns_throw _
  rename_i hlong
  unfold certificateBaseSize at hlong
  have hkey : slice data 0 32 = some (data.take 32) := if_pos (by omega)
  have hbyte : slice data 32 1 = some ((data.drop 32).take 1) := if_pos (by omega)
  refine Returns.bind ?_ fun key _ => Returns.bind ?_ fun n _ => ?_
  · rw [hkey]
    exact copied_returns (List.length_take_of_le (by omega))
  · rw [byteAt, hbyte]
    obtain ⟨b, hb⟩ := List.length_eq_one_iff.mp
      (List.length_take_of_le (l := data.drop 32) (by rw [List.length_drop]; omega) : _ = 1)
    rw [hb]
    exact Option.some_ne_none _
  split
  · exact returns_throw _
  refine Returns.bind (fieldBind_returns fun x _ => text_returns _ x) fun _ _ => ?_
  refine Returns.bind (fieldBind_returns fun x _ => text_returns _ x) fun _ _ => ?_
  refine Returns.bind (fieldBind_returns fun x hx => number_returns hx) fun _ _ => ?_
  refine Returns.bind (fieldBind_returns fun x hx => number_returns hx) fun _ _ => ?_
  refine Returns.bind (fieldBind_returns fun x hx => permissions_returns hx) fun _ _ => ?_
  refine Returns.bind (fieldBind_returns fun x hx => copied_returns hx) fun _ _ => ?_
  exact Returns.bind (fieldBind_returns fun x hx => copied_returns hx) fun _ _ => returns_pure _

theorem length_front (h : c.Sized) : c.front.length = 57 + c.callsign.utf8ByteSize := by
  have hmesh : c.meshId.utf8ByteSize = 8 := h.meshId
  unfold front
  simp only [List.length_append, List.length_cons, Vector.length_toList, length_bytesOf,
    length_toLeBytes, hmesh]
  omega

end Fields

/-- **The wire format**: a certificate within the lengths, of defined permissions, comes back from its
    encoding; `decode` never panics; and it accepts encodings up to undefined permission bits and bytes
    behind the end. -/
theorem certificate_format (utf8Error : List UInt8 → String) :
    (∀ c : MembershipCertificate, c.Sized → fromBitsTruncate c.permissions = c.permissions →
      decode utf8Error c.encode = pure c) ∧
    (∀ data, Returns (decode utf8Error data)) ∧
    ∀ data c, decode utf8Error data = pure c → ∃ before p after rest,
      data = before ++ p :: (after ++ rest) ∧ c.encode = before ++ fromBitsTruncate p :: after ∧
        before.length = 57 + c.callsign.utf8ByteSize ∧ after.length = 96 := by
  refine ⟨fun c hs hbits => ?_, decode_returns utf8Error, fun data c h => ?_⟩
  · refine decode_of_encodes hs ⟨c.permissions, [], hbits.symm, ?_⟩
    rw [List.append_nil]
    rfl
  · obtain ⟨hs, p, rest, hbits, hdata⟩ := decode_eq_pure_iff.mp h
    refine ⟨c.front, p, c.issuerPublicKey.toList ++ c.issuerSignature.toList, rest, ?_, ?_,
      length_front hs, ?_⟩
    · rw [hdata, List.append_assoc]
    · rw [encode, hbits]
    · rw [List.length_append, Vector.length_toList, Vector.length_toList]

def alphaCertificate (permissions : UInt8) : MembershipCertificate :=
  { CertificateRegistry.sampleCertificate 1 "ALPHA-01" with permissions := permissions }

theorem sized_alphaCertificate (permissions : UInt8) : (alphaCertificate permissions).Sized where
  callsign := by show "ALPHA-01".utf8ByteSize ≤ 16; decide
  meshId := by show "A1B2C3D4".utf8ByteSize = 8; decide
  inRange := ⟨by show 1 < u64Count; decide, by show 0 < u64Count; decide⟩

/-- A certificate with the standard permissions comes back. -/
theorem certificate_format_alpha :
    decode (fun _ => "") (alphaCertificate 3).encode = pure (alphaCertificate 3) :=
  (certificate_format fun _ => "").1 (alphaCertificate 3) (sized_alphaCertificate 3) (by decide)

/-- **Two encodings of one certificate**: a byte behind the end is accepted, and an undefined permission bit
    is dropped. -/
theorem encoding_not_unique :
    decode (fun _ => "") ((alphaCertificate 3).encode ++ [0]) = pure (alphaCertificate 3) ∧
      (alphaCertificate 3).encode ≠ (alphaCertificate 3).encode ++ [0] ∧
      (alphaCertificate 11).Sized ∧
      decode (fun _ => "") (alphaCertificate 11).encode = pure (alphaCertificate 3) ∧
      alphaCertificate 11 ≠ alphaCertificate 3 := by
  refine ⟨?_, ?_, sized_alphaCertificate 11, ?_, ?_⟩
  · refine decode_of_encodes (sized_alphaCertificate 3) ⟨3, [0], by decide, ?_⟩
    show ((alphaCertificate 3).front ++ 3 :: _) ++ [0] = _
    rw [List.append_assoc, List.cons_append, List.append_assoc]
  · intro h
    have hlen := congrArg List.length h
    rw [List.length_append, List.length_singleton] at hlen
    omega
  · refine decode_of_encodes (sized_alphaCertificate 3) ⟨11, [], by decide, ?_⟩
    rw [List.append_nil]
    rfl
  · intro h
    exact absurd (congrArg permissions h) (by decide)

/-! ## 4. What the signature binds -/

/-- Equal in all fields but the signature. -/
structure SameFields (c c' : MembershipCertificate) : Prop where
  memberPublicKey : c.memberPublicKey = c'.memberPublicKey
  callsign : c.callsign = c'.callsign
  meshId : c.meshId = c'.meshId
  issuedAtMs : c.issuedAtMs = c'.issuedAtMs
  expiresAtMs : c.expiresAtMs = c'.expiresAtMs
  permissions : c.permissions = c'.permissions
  issuerPublicKey : c.issuerPublicKey = c'.issuerPublicKey

/-- **Callsign and mesh id divide in one way**: no other place, at a distance of 256 bytes or a multiple
    of it, divides the two together into two strings. -/
def DividesOnce (c : MembershipCertificate) : Prop :=
  ∀ s t : String, s ++ t = c.callsign ++ c.meshId →
    s.utf8ByteSize % 256 = c.callsign.utf8ByteSize % 256 → s = c.callsign

theorem ofNat_eq_ofNat_iff {m n : Nat} : UInt8.ofNat m = UInt8.ofNat n ↔ m % 256 = n % 256 := by
  rw [← UInt8.toNat_inj, UInt8.toNat_ofNat', UInt8.toNat_ofNat']

variable {c : MembershipCertificate}

theorem signableBytes_eq_iff {c' : MembershipCertificate} (hc : c.InRange) (hc' : c'.InRange) :
    c.signableBytes = c'.signableBytes ↔
      c.memberPublicKey = c'.memberPublicKey ∧
      c.callsign.utf8ByteSize % 256 = c'.callsign.utf8ByteSize % 256 ∧
      c.callsign ++ c.meshId = c'.callsign ++ c'.meshId ∧
      c.issuedAtMs = c'.issuedAtMs ∧ c.expiresAtMs = c'.expiresAtMs ∧
      c.permissions = c'.permissions ∧ c.issuerPublicKey = c'.issuerPublicKey := by
  constructor
  · intro h
    unfold signableBytes front at h
    simp only [List.append_assoc, List.cons_append] at h
    have hkeys : c.memberPublicKey.toList.length = c'.memberPublicKey.toList.length := by
      rw [Vector.length_toList, Vector.length_toList]
    obtain ⟨hkey, h⟩ := List.append_inj h hkeys
    obtain ⟨hbyte, h⟩ := List.cons.inj h
    -- behind the strings both have the same number of bytes
    rw [← List.append_assoc (bytesOf c.callsign), ← List.append_assoc (bytesOf c'.callsign),
      ← bytesOf_append, ← bytesOf_append] at h
    obtain ⟨hstrings, h⟩ := List.append_inj' h (by
      simp only [List.length_append, List.length_cons, length_toLeBytes, Vector.length_toList])
    have hissued : (toLeBytes 8 c.issuedAtMs).length = (toLeBytes 8 c'.issuedAtMs).length := by
      rw [length_toLeBytes, length_toLeBytes]
    obtain ⟨hissuedEq, h⟩ := List.append_inj h hissued
    have hexpires : (toLeBytes 8 c.expiresAtMs).length = (toLeBytes 8 c'.expiresAtMs).length := by
      rw [length_toLeBytes, length_toLeBytes]
    obtain ⟨hexpiresEq, h⟩ := List.append_inj h hexpires
    obtain ⟨hpermissions, hissuer⟩ := List.cons.inj h
    exact ⟨Vector.toList_inj.mp hkey, ofNat_eq_ofNat_iff.mp hbyte, bytesOf_injective hstrings,
      toLeBytes_injective hc.1 hc'.1 hissuedEq, toLeBytes_injective hc.2 hc'.2 hexpiresEq,
      hpermissions, Vector.toList_inj.mp hissuer⟩
  · intro ⟨hkey, hbyte, hstrings, hissued, hexpires, hpermissions, hissuer⟩
    unfold signableBytes front
    simp only [List.append_assoc, List.cons_append]
    rw [← List.append_assoc (bytesOf c.callsign), ← List.append_assoc (bytesOf c'.callsign),
      ← bytesOf_append, ← bytesOf_append, hkey, ofNat_eq_ofNat_iff.mpr hbyte, hstrings, hissued,
      hexpires, hpermissions, hissuer]

/-- **The signature binds the fields** of a certificate, against every other one, exactly when its
    callsign and mesh id divide in one way. -/
theorem signature_binds_iff (c : MembershipCertificate) (hc : c.InRange) :
    (∀ c' : MembershipCertificate, c'.InRange → c.signableBytes = c'.signableBytes →
        SameFields c c') ↔ c.DividesOnce := by
  constructor
  · intro h s t hst hsize
    have hmoved : InRange { c with callsign := s, meshId := t } := hc
    have hsame := h { c with callsign := s, meshId := t } hmoved
      ((signableBytes_eq_iff hc hmoved).mpr ⟨rfl, hsize.symm, hst.symm, rfl, rfl, rfl, rfl⟩)
    exact hsame.callsign.symm
  · intro h c' hc' hbytes
    obtain ⟨hkey, hsize, hstrings, hissued, hexpires, hpermissions, hissuer⟩ :=
      (signableBytes_eq_iff hc hc').mp hbytes
    have hcallsign : c'.callsign = c.callsign := h c'.callsign c'.meshId hstrings.symm hsize.symm
    rw [hcallsign] at hstrings
    have hmesh : c.meshId = c'.meshId := (String.append_right_inj c.callsign).mp hstrings
    exact ⟨hkey, hcallsign.symm, hmesh, hissued, hexpires, hpermissions, hissuer⟩

theorem dividesOnce_of_short (h : c.callsign.utf8ByteSize + c.meshId.utf8ByteSize < 256) :
    c.DividesOnce := by
  intro s t hst hsize
  have hlen := congrArg String.utf8ByteSize hst
  rw [String.utf8ByteSize_append, String.utf8ByteSize_append] at hlen
  have heq : s.utf8ByteSize = c.callsign.utf8ByteSize := by omega
  have hbytes := congrArg bytesOf hst
  rw [bytesOf_append, bytesOf_append] at hbytes
  exact bytesOf_injective (List.append_inj_left hbytes heq)

/-- Callsign and mesh id of eight bytes each. -/
theorem signature_binds_iff_alpha :
    (alphaCertificate 3).InRange ∧ ∀ c' : MembershipCertificate, c'.InRange →
      (alphaCertificate 3).signableBytes = c'.signableBytes → SameFields (alphaCertificate 3) c' :=
  ⟨(sized_alphaCertificate 3).inRange,
    (signature_binds_iff (alphaCertificate 3) (sized_alphaCertificate 3).inRange).mpr
      (dividesOnce_of_short (by show "ALPHA-01".utf8ByteSize + "A1B2C3D4".utf8ByteSize < 256; decide))⟩

def longText : String := String.ofList (List.replicate 256 'A')

def newNamed (callsign meshId : String) : MembershipCertificate :=
  new (Vector.replicate 32 1) callsign meshId 1 2 3 (Vector.replicate 32 0)

/-- **One signature for two callsigns**: 256 bytes of mesh id alone and 256 bytes of callsign alone are
    signed alike. -/
theorem callsign_not_bound :
    (newNamed "" longText).InRange ∧ (newNamed longText "").InRange ∧
      (newNamed "" longText).signableBytes = (newNamed longText "").signableBytes ∧
      (newNamed "" longText).callsign ≠ (newNamed longText "").callsign := by
  have hrange : ∀ callsign meshId, (newNamed callsign meshId).InRange :=
    fun _ _ => ⟨by show 1 < u64Count; decide, by show 2 < u64Count; decide⟩
  have hsigned : ∀ s t s' t' : String, s.utf8ByteSize % 256 = s'.utf8ByteSize % 256 →
      s ++ t = s' ++ t' → (newNamed s t).signableBytes = (newNamed s' t').signableBytes :=
    fun s t s' t' hsize htext => (signableBytes_eq_iff (hrange s t) (hrange s' t')).mpr
      ⟨rfl, hsize, htext, rfl, rfl, rfl, rfl⟩
  have hlong : longText.utf8ByteSize = 256 := by decide +kernel
  refine ⟨hrange _ _, hrange _ _, hsigned _ _ _ _ ?_ ?_, ?_⟩
  · rw [hlong]
    rfl
  · rw [String.empty_append, String.append_empty]
  · intro h
    replace h : "" = longText := h
    rw [← h] at hlong
    exact absurd hlong (by decide)

end MembershipCertificate

end Peat.Security
