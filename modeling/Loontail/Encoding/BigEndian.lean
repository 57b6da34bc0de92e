import Mathlib.Data.Nat.Digits.Lemmas

/-! # Numbers of fixed width, the highest byte first -/

namespace BigEndian

def decode (bytes : List UInt8) : Nat :=
  bytes.foldl (fun value byte => value * 256 + byte.toNat) 0

def encode (width value : Nat) : List UInt8 :=
  ((Nat.digitsAppend 256 width value).map UInt8.ofNat).reverse

example : encode 4 64 = [0, 0, 0, 64] ∧ decode [0, 0, 1, 2] = 258 := by decide

theorem decode_concat (bytes : List UInt8) (byte : UInt8) :
    decode (bytes ++ [byte]) = decode bytes * 256 + byte.toNat := by
  rw [decode, List.foldl_append]
  rfl

theorem decode_eq_ofDigits (bytes : List UInt8) :
    decode bytes = Nat.ofDigits 256 (bytes.reverse.map UInt8.toNat) := by
  induction bytes using List.reverseRecOn with
  | nil => rfl
  | append_singleton bytes byte induction =>
      rw [decode_concat, induction, List.reverse_append]
      simp only [List.reverse_singleton, List.singleton_append, List.map_cons, Nat.ofDigits_cons]
      omega

theorem decode_lt (bytes : List UInt8) : decode bytes < 256 ^ bytes.length := by
  have digits := @Nat.ofDigits_lt_base_pow_length 256 (bytes.reverse.map UInt8.toNat) (by omega)
    (by
      intro digit member
      obtain ⟨byte, -, rfl⟩ := List.mem_map.mp member
      exact byte.toNat_lt)
  rw [List.length_map, List.length_reverse] at digits
  rw [decode_eq_ofDigits]
  exact digits

theorem length_encode {width value : Nat} (fits : value < 256 ^ width) :
    (encode width value).length = width := by
  rw [encode, List.length_reverse, List.length_map]
  exact Nat.length_digitsAppend (by omega) width fits

theorem decode_encode (width value : Nat) : decode (encode width value) = value := by
  have bytes : ((Nat.digitsAppend 256 width value).map UInt8.ofNat).map UInt8.toNat =
      Nat.digitsAppend 256 width value := by
    rw [List.map_map]
    refine (List.map_congr_left fun digit member => ?_).trans (List.map_id _)
    have small : digit < 256 := Nat.lt_of_mem_digitsAppend (by omega) width digit member
    exact UInt8.toNat_ofNat_of_lt small
  rw [decode_eq_ofDigits, encode, List.reverse_reverse, bytes, Nat.digitsAppend,
    Nat.ofDigits_append_replicate_zero, Nat.ofDigits_digits]

theorem encode_decode (bytes : List UInt8) : encode bytes.length (decode bytes) = bytes := by
  have digits : (bytes.reverse.map UInt8.toNat).length = bytes.length ∧
      ∀ digit ∈ bytes.reverse.map UInt8.toNat, digit < 256 := by
    constructor
    · rw [List.length_map, List.length_reverse]
    · intro digit member
      obtain ⟨byte, -, rfl⟩ := List.mem_map.mp member
      exact byte.toNat_lt
  have same : (bytes.reverse.map UInt8.toNat).map UInt8.ofNat = bytes.reverse := by
    rw [List.map_map]
    exact (List.map_congr_left fun byte _ => UInt8.ofNat_toNat).trans (List.map_id _)
  rw [decode_eq_ofDigits, encode,
    (Nat.setInvOn_digitsAppend_ofDigits (by omega) bytes.length).1 digits, same,
    List.reverse_reverse]

theorem decode_inj {left right : List UInt8} (same : left.length = right.length) :
    decode left = decode right ↔ left = right := by
  constructor
  · intro numbers
    rw [← encode_decode left, ← encode_decode right, same, numbers]
  · exact congrArg decode

end BigEndian
