/-
  THE BASE32 TEXT of a TOTP secret (`base32_encode` in security/user_auth.rs) is the one
  of RFC 4648, without padding.

  The bytes are one number, read big-endian; the digits of the text are its bits in
  fives, with zeros behind the last byte. The 64-bit buffer only ever has the number's
  low bits right, and the loop reads no others.
-/
import Peat.Lib.Digits
import Peat.Security.UserAuth

namespace Peat.Security

open Peat.Lib

def bytesValue (data : List UInt8) : Nat := value 256 (data.map UInt8.toNat)

def base32Chars (ds : List Nat) : List Char := ds.map fun d => base32Alphabet.getD d 'A'

/-- RFC 4648: the bits of the data and zeros up to a multiple of five, five to a digit. -/
def rfc4648 (data : List UInt8) : List Char :=
  let count := (8 * data.length + 4) / 5
  base32Chars (digits 32 count (bytesValue data * 2 ^ (5 * count - 8 * data.length)))

/-- RFC 4648 read back: whole bytes, and the bits behind the last one are dropped. -/
def base32Decode (text : String) : Option (List UInt8) :=
  (text.toList.mapM fun c => base32Alphabet.idxOf? c).map fun ds =>
    (digits 256 (5 * ds.length / 8) (value 32 ds / 2 ^ (5 * ds.length % 8))).map UInt8.ofNat

/-! ## 1. The loop -/

theorem low_bits {v n : Nat} (hn : n + 5 ≤ 64) : v % u64Count / 2 ^ n % 32 = v / 2 ^ n % 32 := by
  have hsplit : u64Count = 2 ^ n * 2 ^ (64 - n) := by
    rw [← Nat.pow_add, Nat.add_sub_cancel' (by omega)]
    rfl
  have hdvd : 32 ∣ 2 ^ (64 - n) := Nat.pow_dvd_pow 2 (by omega : 5 ≤ 64 - n)
  rw [hsplit, Nat.mod_mul_right_div_self, Nat.mod_mod_of_dvd _ hdvd]

theorem base32Digits_eq (v : Nat) {bitsLeft : Nat} (hbits : bitsLeft ≤ 64) :
    base32Digits (v % u64Count) bitsLeft =
      (base32Chars (digits 32 (bitsLeft / 5) (v / 2 ^ (bitsLeft % 5))), bitsLeft % 5) := by
  fun_induction base32Digits (v % u64Count) bitsLeft with
  | case1 n rest ih =>
    have hcount : (n + 5) / 5 = 1 + n / 5 := by omega
    have hpow : 2 ^ (n % 5) * 32 ^ (n / 5) = 2 ^ n := by
      rw [show 32 = 2 ^ 5 from rfl, ← Nat.pow_mul, ← Nat.pow_add, Nat.mod_add_div]
    have hrest : rest = _ := ih (by omega)
    change _ = (base32Chars (digits 32 ((n + 5) / 5) (v / 2 ^ ((n + 5) % 5))), (n + 5) % 5)
    rw [hrest, Nat.add_mod_right, hcount, digits_add, Nat.div_div_eq_div_mul, hpow,
      Nat.shiftRight_eq_div_pow, low_bits hbits]
    rfl
  | case2 n hn =>
    have hlt : n < 5 := by
      by_contra hge
      exact hn (n - 5) (by omega)
    rw [Nat.div_eq_of_lt hlt, Nat.mod_eq_of_lt hlt]
    rfl

def base32Step (s : List Char × Nat × Nat) (byte : UInt8) : List Char × Nat × Nat :=
  let buffer := (s.2.1 * 256 + byte.toNat) % u64Count
  (s.1 ++ (base32Digits buffer (s.2.2 + 8)).1, buffer, (base32Digits buffer (s.2.2 + 8)).2)

/-- What the loop holds after some bytes: the digits of their whole fives of bits, and how many bits
    are left over in the low end of the buffer. -/
theorem base32_loop (data : List UInt8) : data.foldl base32Step ([], 0, 0) =
    (base32Chars (digits 32 (8 * data.length / 5) (bytesValue data / 2 ^ (8 * data.length % 5))),
      bytesValue data % u64Count, 8 * data.length % 5) := by
  induction data using List.reverseRecOn with
  | nil => rfl
  | append_singleton data byte ih =>
    have hvalue : bytesValue (data ++ [byte]) = bytesValue data * 256 + byte.toNat := by
      simp [bytesValue, value_concat]
    have hbyte := byte.toNat_lt
    have hbuffer : (bytesValue data % u64Count * 256 + byte.toNat) % u64Count =
        (bytesValue data * 256 + byte.toNat) % u64Count := by
      rw [Nat.add_mod, Nat.mod_mul_mod, ← Nat.add_mod]
    have hcount : 8 * (data ++ [byte]).length / 5 =
        8 * data.length / 5 + (8 * data.length % 5 + 8) / 5 := by simp; omega
    have hleft : 8 * (data ++ [byte]).length % 5 = (8 * data.length % 5 + 8) % 5 := by simp; omega
    have hpow : 2 ^ ((8 * data.length % 5 + 8) % 5) * 32 ^ ((8 * data.length % 5 + 8) / 5) =
        256 * 2 ^ (8 * data.length % 5) := by
      rw [show 32 = 2 ^ 5 from rfl, ← Nat.pow_mul, ← Nat.pow_add, Nat.mod_add_div, Nat.pow_add,
        Nat.mul_comm]
    have hshift : (bytesValue data * 256 + byte.toNat) / 256 = bytesValue data := by omega
    rw [List.foldl_append, ih, List.foldl_cons, List.foldl_nil, base32Step]
    dsimp only
    rw [hbuffer, base32Digits_eq _ (by omega), hvalue, hcount, hleft, digits_add, Nat.div_div_eq_div_mul,
      hpow, ← Nat.div_div_eq_div_mul, hshift]
    simp [base32Chars]

theorem base32Encode_eq (data : List UInt8) : (base32Encode data).toList = rfc4648 data := by
  have hloop : base32Encode data = (fun s => String.ofList (if s.2.2 > 0 then
      s.1 ++ [base32Alphabet.getD ((s.2.1 <<< (5 - s.2.2)) % 32) 'A'] else s.1))
        (data.foldl base32Step ([], 0, 0)) := rfl
  rw [hloop, base32_loop, rfc4648]
  dsimp only
  rw [String.toList_ofList]
  by_cases hleft : 8 * data.length % 5 = 0
  · have hcount : (8 * data.length + 4) / 5 = 8 * data.length / 5 := by omega
    have hpad : 5 * (8 * data.length / 5) - 8 * data.length = 0 := by omega
    rw [if_neg (by omega), hcount, hpad, hleft]
    simp
  · have hcount : (8 * data.length + 4) / 5 = 8 * data.length / 5 + 1 := by omega
    have hpad : 5 * (8 * data.length / 5 + 1) - 8 * data.length = 5 - 8 * data.length % 5 := by omega
    have hpow : 2 ^ (8 * data.length % 5) * 2 ^ (5 - 8 * data.length % 5) = 32 := by
      rw [← Nat.pow_add, Nat.add_sub_cancel' (by omega)]
    have hdiv : bytesValue data * 2 ^ (5 - 8 * data.length % 5) / 32 =
        bytesValue data / 2 ^ (8 * data.length % 5) := by
      rw [← hpow, Nat.mul_div_mul_right _ _ (Nat.two_pow_pos _)]
    have hmod : bytesValue data % u64Count * 2 ^ (5 - 8 * data.length % 5) % 32 =
        bytesValue data * 2 ^ (5 - 8 * data.length % 5) % 32 := by
      rw [Nat.mul_mod, Nat.mod_mod_of_dvd _ (by decide : 32 ∣ u64Count), ← Nat.mul_mod]
    rw [if_pos (by omega), hcount, hpad, digits, hdiv, Nat.shiftLeft_eq, hmod]
    simp [base32Chars]

/-! ## 2. Reading the text back -/

theorem idxOf_alphabet : ∀ d < 32, base32Alphabet.idxOf? (base32Alphabet.getD d 'A') = some d := by decide

theorem mapM_base32Chars {ds : List Nat} (h : ∀ d ∈ ds, d < 32) :
    (base32Chars ds).mapM (fun c => base32Alphabet.idxOf? c) = some ds := by
  induction ds with
  | nil => rfl
  | cons d ds ih =>
    obtain ⟨hd, hds⟩ := List.forall_mem_cons.mp h
    have hrest := ih hds
    rw [base32Chars] at hrest ⊢
    rw [List.map_cons, List.mapM_cons, idxOf_alphabet d hd, hrest]
    rfl

theorem base32Decode_base32Encode (data : List UInt8) : base32Decode (base32Encode data) = some data := by
  have hbytes : ∀ d ∈ data.map UInt8.toNat, d < 256 := by simpa using fun b _ => b.toNat_lt
  have hlt : bytesValue data < 256 ^ data.length := by
    simpa [bytesValue] using value_lt hbytes
  generalize hcount : (8 * data.length + 4) / 5 = count
  have hbits : 5 * count / 8 = data.length ∧ 5 * count % 8 = 5 * count - 8 * data.length := by omega
  have hroom : bytesValue data * 2 ^ (5 * count - 8 * data.length) < 32 ^ count := by
    have hpow : 256 ^ data.length * 2 ^ (5 * count - 8 * data.length) = 32 ^ count := by
      rw [show 256 = 2 ^ 8 from rfl, show 32 = 2 ^ 5 from rfl, ← Nat.pow_mul, ← Nat.pow_mul, ← Nat.pow_add,
        Nat.add_sub_cancel' (by omega)]
    rw [← hpow]
    exact Nat.mul_lt_mul_of_pos_right hlt (Nat.two_pow_pos _)
  rw [base32Decode, base32Encode_eq, rfc4648, hcount, mapM_base32Chars (lt_of_mem_digits (by decide)),
    Option.map_some, length_digits, value_digits, Nat.mod_eq_of_lt hroom, hbits.1, hbits.2,
    Nat.mul_div_cancel _ (Nat.two_pow_pos _)]
  have hback := digits_value hbytes
  rw [List.length_map] at hback
  rw [bytesValue, hback]
  simp [Function.comp_def]

/-- **The text is RFC 4648's**, of every byte string, and reads back as the bytes it was made from. -/
theorem base32Encode_rfc4648 (data : List UInt8) :
    (base32Encode data).toList = rfc4648 data ∧
      (base32Encode data).length = (8 * data.length + 4) / 5 ∧
      (∀ c ∈ (base32Encode data).toList, c ∈ base32Alphabet) ∧
      base32Decode (base32Encode data) = some data ∧ Function.Injective base32Encode := by
  have hinj : Function.Injective base32Encode := fun a b h => by
    have hb := base32Decode_base32Encode b
    rw [← h, base32Decode_base32Encode a] at hb
    exact Option.some.inj hb
  refine ⟨base32Encode_eq data, ?_, ?_, base32Decode_base32Encode data, hinj⟩
  · rw [← String.length_toList, base32Encode_eq]
    simp [rfc4648, base32Chars]
  · rw [base32Encode_eq]
    intro c hc
    obtain ⟨d, hd, rfl⟩ := List.mem_map.mp hc
    have hmem : ∀ d < 32, base32Alphabet.getD d 'A' ∈ base32Alphabet := by decide
    exact hmem d (lt_of_mem_digits (by decide) d hd)

end Peat.Security
