/-
  READING A GEOHASH (geohash.rs) as a coordinate (discovery/geo.rs).

  A hash is one to twelve bytes of a base-32 alphabet, its bits those of longitude and
  latitude by turns; the empty hash shifts by all 64 bits, which panics with overflow
  checks and is an error here. The floating point arithmetic of the reading is exact, so
  its numbers are rationals.
-/
import Mathlib.Tactic.Linarith
import Mathlib.Tactic.Positivity
import Mathlib.Tactic.Ring

namespace Peat.Discovery

/-! ## 1. Coordinates -/

structure GeoCoordinate where
  lat : ℚ
  lon : ℚ
  alt : ℚ
  deriving DecidableEq

def GeoCoordinate.new (lat lon alt : ℚ) : Except String GeoCoordinate :=
  if ¬ (-90 ≤ lat ∧ lat ≤ 90) then .error "Latitude must be between -90 and 90 degrees"
  else if ¬ (-180 ≤ lon ∧ lon ≤ 180) then .error "Longitude must be between -180 and 180 degrees"
  else .ok ⟨lat, lon, alt⟩

/-! ## 2. The hash -/

namespace Geohash

inductive GeohashError where
  | invalidHashCharacter (c : Char)
  | invalidHash (message : String)
  | shiftOverflow
  deriving DecidableEq

def base32Codes : List Char :=
  ['0', '1', '2', '3', '4', '5', '6', '7',
   '8', '9', 'b', 'c', 'd', 'e', 'f', 'g',
   'h', 'j', 'k', 'm', 'n', 'p', 'q', 'r',
   's', 't', 'u', 'v', 'w', 'x', 'y', 'z']

def decoder (c : UInt8) : Nat :=
  (base32Codes.findIdx? fun code => code.toNat = c.toNat).getD 0xff

def squash (x : BitVec 64) : BitVec 32 :=
  let v := x &&& 0x5555555555555555#64
  let v := (v ||| v >>> 1) &&& 0x3333333333333333#64
  let v := (v ||| v >>> 2) &&& 0x0f0f0f0f0f0f0f0f#64
  let v := (v ||| v >>> 4) &&& 0x00ff00ff00ff00ff#64
  let v := (v ||| v >>> 8) &&& 0x0000ffff0000ffff#64
  let v := (v ||| v >>> 16) &&& 0x00000000ffffffff#64
  v.setWidth 32

def deinterleave (x : BitVec 64) : BitVec 32 × BitVec 32 := (squash x, squash (x >>> 1))

def decodeRange (x : BitVec 32) (r : ℚ) : ℚ :=
  let p : ℚ := 1 + x.toNat / 2 ^ 32
  2 * r * (p - 1) - r

def errorWithPrecision (bits : Nat) : ℚ × ℚ :=
  let latBits := bits / 2
  let lonBits := bits - latBits
  (180 / 2 ^ latBits, 360 / 2 ^ lonBits)

def bytes (s : String) : List UInt8 := s.toList.flatMap String.utf8EncodeChar

def pushByte (intHash : BitVec 64) (c : UInt8) : Except GeohashError (BitVec 64) :=
  if decoder c = 0xff then .error (.invalidHashCharacter (Char.ofNat c.toNat))
  else .ok (intHash <<< 5 ||| BitVec.ofNat 64 (decoder c))

def place (intHash : BitVec 64) (bits : Nat) : (ℚ × ℚ) × ℚ × ℚ :=
  let (latInt, lonInt) := deinterleave (intHash <<< (64 - bits))
  let lat := decodeRange latInt 90
  let lon := decodeRange lonInt 180
  let (latErr, lonErr) := errorWithPrecision bits
  ((lon + lonErr / 2, lat + latErr / 2), lonErr / 2, latErr / 2)

def decode (hashStr : String) : Except GeohashError ((ℚ × ℚ) × ℚ × ℚ) :=
  let bits := (bytes hashStr).length * 5
  if (bytes hashStr).length > 12 then .error (.invalidHash "hash length exceeds maximum of 12")
  else
    match (bytes hashStr).foldlM pushByte 0 with
    | .error e => .error e
    | .ok intHash => if bits = 0 then .error .shiftOverflow else .ok (place intHash bits)

end Geohash

def decodeGeohash (hash : String) : Except String GeoCoordinate :=
  match Geohash.decode hash with
  | .error _ => .error "Invalid geohash"
  | .ok ((lon, lat), _, _) => GeoCoordinate.new lat lon 0

namespace Geohash

/-! ## 3. The alphabet decides -/

def Readable (hash : String) : Prop :=
  bytes hash ≠ [] ∧ (bytes hash).length ≤ 12 ∧ ∀ c ∈ bytes hash, decoder c ≠ 0xff

instance (hash : String) : Decidable (Readable hash) := inferInstanceAs (Decidable (_ ∧ _))

theorem foldlM_pushByte_isOk_iff (cs : List UInt8) (intHash : BitVec 64) :
    (cs.foldlM pushByte intHash).isOk ↔ ∀ c ∈ cs, decoder c ≠ 0xff := by
  induction cs generalizing intHash with
  | nil => exact iff_of_true rfl nofun
  | cons c cs ih =>
    rw [List.foldlM_cons, List.forall_mem_cons, pushByte]
    split
    · rename_i hc
      exact iff_of_false Bool.false_ne_true fun h => h.1 hc
    · rename_i hc
      exact (ih _).trans (and_iff_right hc).symm

theorem decode_isOk_iff (hash : String) : (decode hash).isOk ↔ Readable hash := by
  have hloop := foldlM_pushByte_isOk_iff (bytes hash) 0
  rw [decode, Readable, ← hloop]
  split
  · rename_i hlong
    exact iff_of_false Bool.false_ne_true fun h => absurd h.2.1 (Nat.not_le.mpr hlong)
  · rename_i hshort
    rw [and_iff_right (Nat.le_of_not_lt hshort)]
    split
    · rename_i he
      rw [he]
      exact iff_of_false Bool.false_ne_true fun h => Bool.false_ne_true h.2
    · rename_i he
      rw [he]
      split
      · rename_i hbits
        refine iff_of_false Bool.false_ne_true fun h => h.1 (List.length_eq_zero_iff.mp ?_)
        omega
      · rename_i hbits
        exact iff_of_true rfl ⟨fun hnil => hbits (by rw [hnil]; rfl), rfl⟩

/-! ## 4. Every reading lies on the globe -/

def Gathered (x : BitVec 64) (w : Nat) (v : BitVec 64) : Prop :=
  ∀ a q, q < 2 * w → 2 * w * a + q < 64 →
    v.getLsbD (2 * w * a + q) = (decide (q < w) && x.getLsbD (2 * (w * a + q)))

def KeepsLower (w : Nat) (mask : BitVec 64) : Prop :=
  ∀ p < 64, mask.getLsbD p = decide (p % (2 * w) < w)

instance (w : Nat) (mask : BitVec 64) : Decidable (KeepsLower w mask) :=
  inferInstanceAs (Decidable (∀ p < 64, _))

section Gathering

variable {x v mask : BitVec 64} {w : Nat}

theorem KeepsLower.getLsbD_group (h : KeepsLower w mask) {a q : Nat} (hq : q < 2 * w)
    (hp : 2 * w * a + q < 64) : mask.getLsbD (2 * w * a + q) = decide (q < w) := by
  rw [h _ hp, Nat.mul_add_mod, Nat.mod_eq_of_lt hq]

theorem gathered_mask (hmask : KeepsLower 1 mask) : Gathered x 1 (x &&& mask) := by
  intro a q hq hp
  rw [BitVec.getLsbD_and, hmask.getLsbD_group hq hp, Bool.and_comm]
  by_cases hq0 : q < 1
  · obtain rfl := Nat.lt_one_iff.mp hq0
    rw [Nat.add_zero, Nat.add_zero, Nat.one_mul, Nat.mul_one]
  · rw [decide_eq_false hq0, Bool.false_and, Bool.false_and]

theorem Gathered.fold (h : Gathered x w v) (hmask : KeepsLower (2 * w) mask) (hdvd : 4 * w ∣ 64) :
    Gathered x (2 * w) ((v ||| v >>> w) &&& mask) := by
  intro a q hq hp
  rw [BitVec.getLsbD_and, hmask.getLsbD_group hq hp, BitVec.getLsbD_or, BitVec.getLsbD_ushiftRight]
  have hpos : 2 * (2 * w) * a + q = 2 * w * (2 * a) + q := by ring
  -- the four groups from here on are all within the word
  have hup : 2 * w * (2 * a) + 4 * w ≤ 64 := by
    obtain ⟨n, hn⟩ := hdvd
    have hlt : 4 * w * a < 4 * w * n := by
      have : 2 * w * (2 * a) = 4 * w * a := by ring
      omega
    calc 2 * w * (2 * a) + 4 * w = 4 * w * (a + 1) := by ring
      _ ≤ 4 * w * n := Nat.mul_le_mul_left _ (Nat.lt_of_mul_lt_mul_left hlt)
      _ = 64 := hn.symm
  by_cases hlow : q < 2 * w
  · rw [decide_eq_true hlow, Bool.and_true, Bool.true_and, hpos, h (2 * a) q hlow (by omega)]
    by_cases hfirst : q < w
    · -- the group stays, and what is moved onto it are zeros
      have hnext : w + (2 * w * (2 * a) + q) = 2 * w * (2 * a) + (w + q) := by ring
      have hindex : w * (2 * a) + q = 2 * w * a + q := by ring
      rw [hnext, h (2 * a) (w + q) (by omega) (by omega), decide_eq_true hfirst,
        decide_eq_false (by omega : ¬ w + q < w), Bool.true_and, Bool.false_and, Bool.or_false, hindex]
    · -- the next group is moved onto zeros
      obtain ⟨r, rfl⟩ := Nat.exists_eq_add_of_le (Nat.le_of_not_lt hfirst)
      have hnext : w + (2 * w * (2 * a) + (w + r)) = 2 * w * (2 * a + 1) + r := by ring
      have hbound : 2 * w * (2 * a + 1) = 2 * w * (2 * a) + 2 * w := by ring
      have hindex : w * (2 * a + 1) + r = 2 * w * a + (w + r) := by ring
      rw [hnext, h (2 * a + 1) r (by omega) (by omega), decide_eq_false hfirst,
        decide_eq_true (by omega : r < w), Bool.false_and, Bool.false_or, Bool.true_and, hindex]
  · rw [decide_eq_false hlow, Bool.and_false, Bool.false_and]

end Gathering

theorem squash_eq_setWidth (x : BitVec 64) : ∃ v, squash x = v.setWidth 32 ∧ Gathered x 32 v := by
  have hstart : Gathered x 1 (x &&& 0x5555555555555555#64) := gathered_mask (by decide +kernel)
  exact ⟨_, rfl, ((((hstart.fold (by decide +kernel) (by decide)).fold (by decide +kernel)
    (by decide)).fold (by decide +kernel) (by decide)).fold (by decide +kernel) (by decide)).fold
    (by decide +kernel) (by decide)⟩

theorem getLsbD_squash (x : BitVec 64) {i : Nat} (hi : i < 32) :
    (squash x).getLsbD i = x.getLsbD (2 * i) := by
  obtain ⟨v, hv, hgathered⟩ := squash_eq_setWidth x
  have hbit := hgathered 0 i (by omega) (by omega)
  rw [Nat.mul_zero, Nat.zero_add, decide_eq_true hi, Bool.true_and] at hbit
  rw [hv, BitVec.getLsbD_setWidth, decide_eq_true hi, Bool.true_and, hbit]

theorem toNat_add_le_of_low_zero (x : BitVec 32) {k : Nat} (hk : k ≤ 32)
    (hlow : ∀ i < k, x.getLsbD i = false) : x.toNat + 2 ^ k ≤ 2 ^ 32 := by
  have hmod : x.toNat % 2 ^ k = 0 := by
    refine Nat.eq_of_testBit_eq fun i => ?_
    rw [Nat.testBit_mod_two_pow, Nat.zero_testBit]
    by_cases hi : i < k
    · exact Bool.and_eq_false_imp.mpr fun _ => hlow i hi
    · rw [decide_eq_false hi, Bool.false_and]
  obtain ⟨m, hm⟩ := Nat.dvd_of_mod_eq_zero hmod
  have hpow : 2 ^ 32 = 2 ^ k * 2 ^ (32 - k) := by rw [← Nat.pow_add, Nat.add_sub_cancel' hk]
  have hlt := x.isLt
  rw [hm, hpow] at hlt ⊢
  have hmlt : m < 2 ^ (32 - k) := Nat.lt_of_mul_lt_mul_left hlt
  calc 2 ^ k * m + 2 ^ k = 2 ^ k * (m + 1) := by rw [Nat.mul_succ]
    _ ≤ 2 ^ k * 2 ^ (32 - k) := Nat.mul_le_mul_left _ hmlt

theorem decodeRange_add_in_range {x : BitVec 32} {r : ℚ} (hr : 0 ≤ r) {n : Nat} (hn : n ≤ 32)
    (hx : x.toNat + 2 ^ (32 - n) ≤ 2 ^ 32) :
    -r ≤ decodeRange x r + 2 * r / 2 ^ n / 2 ∧ decodeRange x r + 2 * r / 2 ^ n / 2 ≤ r := by
  have hstep : (1 : ℚ) / 2 ^ n = 2 ^ (32 - n) / 2 ^ 32 := by
    rw [div_eq_div_iff (by positivity) (by positivity), one_mul, ← pow_add, Nat.sub_add_cancel hn]
  have hq : ((x.toNat : ℚ) + 2 ^ (32 - n)) / 2 ^ 32 ≤ 1 := by
    rw [div_le_one (by positivity)]
    exact_mod_cast hx
  have hx0 : (0 : ℚ) ≤ (x.toNat : ℚ) / 2 ^ 32 := by positivity
  have hs0 : (0 : ℚ) ≤ 1 / 2 ^ n := by positivity
  rw [add_div, ← hstep] at hq
  have heq : decodeRange x r + 2 * r / 2 ^ n / 2 =
      r * (2 * ((x.toNat : ℚ) / 2 ^ 32) + 1 / 2 ^ n) - r := by
    unfold decodeRange
    ring
  rw [heq]
  constructor
  · have : 0 ≤ r * (2 * ((x.toNat : ℚ) / 2 ^ 32) + 1 / 2 ^ n) := by positivity
    linarith
  · have hle : 2 * ((x.toNat : ℚ) / 2 ^ 32) + 1 / 2 ^ n ≤ 2 := by linarith
    have := mul_le_mul_of_nonneg_left hle hr
    linarith

variable {bits : Nat}

variable (intHash : BitVec 64)

theorem getLsbD_shifted {i : Nat} (hi : i < 64 - bits) :
    (intHash <<< (64 - bits)).getLsbD i = false := by
  rw [BitVec.getLsbD_shiftLeft, decide_eq_true hi]
  simp

theorem latInt_add_le (hbits : bits ≤ 60) :
    (squash (intHash <<< (64 - bits))).toNat + 2 ^ (32 - bits / 2) ≤ 2 ^ 32 := by
  refine toNat_add_le_of_low_zero _ (Nat.sub_le _ _) fun i hi => ?_
  rw [getLsbD_squash _ (by omega)]
  exact getLsbD_shifted intHash (by omega)

theorem lonInt_add_le (hbits : bits ≤ 60) :
    (squash (intHash <<< (64 - bits) >>> 1)).toNat + 2 ^ (32 - (bits - bits / 2)) ≤ 2 ^ 32 := by
  refine toNat_add_le_of_low_zero _ (Nat.sub_le _ _) fun i hi => ?_
  rw [getLsbD_squash _ (by omega), BitVec.getLsbD_ushiftRight]
  exact getLsbD_shifted intHash (by omega)

theorem place_in_range (hbits : bits ≤ 60) :
    (-180 ≤ (place intHash bits).1.1 ∧ (place intHash bits).1.1 ≤ 180) ∧
      -90 ≤ (place intHash bits).1.2 ∧ (place intHash bits).1.2 ≤ 90 := by
  have hlon := decodeRange_add_in_range (r := 180) (by norm_num) (by omega)
    (lonInt_add_le intHash hbits)
  have hlat := decodeRange_add_in_range (r := 90) (by norm_num) (by omega)
    (latInt_add_le intHash hbits)
  norm_num at hlon hlat
  exact ⟨hlon, hlat⟩

theorem decode_in_range {hash : String} {lon lat lonErr latErr : ℚ}
    (h : decode hash = .ok ((lon, lat), lonErr, latErr)) :
    (-180 ≤ lon ∧ lon ≤ 180) ∧ -90 ≤ lat ∧ lat ≤ 90 := by
  rw [decode] at h
  split at h
  · cases h
  · rename_i hshort
    split at h
    · cases h
    · rename_i intHash _
      split at h
      · cases h
      · have hbits : (bytes hash).length * 5 ≤ 60 := by omega
        have hrange := place_in_range intHash hbits
        rw [Except.ok.inj h] at hrange
        exact hrange

end Geohash

theorem decodeGeohash_isOk_iff (hash : String) :
    (decodeGeohash hash).isOk ↔ Geohash.Readable hash := by
  rw [← Geohash.decode_isOk_iff, decodeGeohash]
  split
  · rename_i he
    rw [he]
    rfl
  · rename_i lon lat _ _ he
    obtain ⟨hlon, hlat⟩ := Geohash.decode_in_range he
    rw [he, GeoCoordinate.new, if_neg (not_not.mpr hlat), if_neg (not_not.mpr hlon)]
    rfl

example : Geohash.Readable "9q8yyk8" ∧ ¬ Geohash.Readable "9a" ∧ ¬ Geohash.Readable "" := by decide +kernel

end Peat.Discovery
