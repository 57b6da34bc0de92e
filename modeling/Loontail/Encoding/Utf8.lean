import Mathlib.Data.List.Basic

/-! # Texts by their bytes

The bytes of a text, and the slices that byte offsets take. An offset inside a character or
behind the end takes none. -/

namespace Utf8

def bytes (chars : List Char) : List UInt8 := chars.flatMap String.utf8EncodeChar

def splitAt : Nat → List Char → Option (List Char × List Char)
  | 0, chars => some ([], chars)
  | _ + 1, [] => none
  | offset + 1, char :: rest =>
      if char.utf8Size ≤ offset + 1 then
        (splitAt (offset + 1 - char.utf8Size) rest).map fun (before, after) =>
          (char :: before, after)
      else none

def slice (chars : List Char) (first last : Nat) : Option (List Char) :=
  (splitAt last chars).bind fun parts => (splitAt first parts.1).map Prod.snd

example : slice "aéb".toList 1 3 = some ['é'] ∧ slice "aéb".toList 1 2 = none := by
  decide +kernel

@[simp] theorem bytes_cons (char : Char) (chars : List Char) :
    bytes (char :: chars) = String.utf8EncodeChar char ++ bytes chars := rfl

def read (bytes : List UInt8) : Option (List Char) :=
  bytes.toByteArray.utf8Decode?.map Array.toList

theorem read_bytes (chars : List Char) : read (bytes chars) = some chars := by
  have whole : (bytes chars).toByteArray = chars.utf8Encode := rfl
  rw [read, whole, List.utf8Decode?_utf8Encode]
  rfl

section Ascii

variable {char : Char} {chars : List Char}

theorem encode_ascii (ascii : char.toNat < 128) :
    String.utf8EncodeChar char = [UInt8.ofNat char.toNat] := by
  have small : char.val.toNat ≤ 127 := Nat.le_of_lt_succ ascii
  simp only [String.utf8EncodeChar, if_pos small]
  rfl

theorem utf8Size_ascii (ascii : char.toNat < 128) : char.utf8Size = 1 := by
  rw [← String.length_utf8EncodeChar, encode_ascii ascii]
  rfl

theorem encode_wide (wide : 128 ≤ char.toNat) :
    ∀ byte ∈ String.utf8EncodeChar char, 128 ≤ byte.toNat := by
  have large : ¬char.val.toNat ≤ 127 := Nat.not_le.mpr wide
  simp only [String.utf8EncodeChar, if_neg large]
  split
  · simp
    omega
  · split
    · simp
      omega
    · simp
      omega

theorem bytes_ascii (ascii : ∀ char ∈ chars, char.toNat < 128) :
    bytes chars = chars.map fun char => UInt8.ofNat char.toNat := by
  induction chars with
  | nil => rfl
  | cons char rest induction =>
      rw [List.forall_mem_cons] at ascii
      rw [bytes_cons, encode_ascii ascii.1, induction ascii.2]
      rfl

theorem ascii_of_bytes (ascii : ∀ byte ∈ bytes chars, byte.toNat < 128) :
    ∀ char ∈ chars, char.toNat < 128 := by
  intro char member
  by_contra wide
  have large := encode_wide (Nat.not_lt.mp wide)
  obtain ⟨byte, first⟩ := List.exists_mem_of_ne_nil _ (@String.utf8EncodeChar_ne_nil char)
  have small := ascii byte (List.mem_flatMap.mpr ⟨char, member, first⟩)
  exact Nat.not_lt.mpr (large byte first) small

theorem length_bytes (ascii : ∀ char ∈ chars, char.toNat < 128) :
    (bytes chars).length = chars.length := by
  rw [bytes_ascii ascii, List.length_map]

theorem splitAt_ascii {offset : Nat} (ascii : ∀ char ∈ chars, char.toNat < 128)
    (inside : offset ≤ chars.length) :
    splitAt offset chars = some (chars.take offset, chars.drop offset) := by
  induction chars generalizing offset with
  | nil =>
      obtain rfl : offset = 0 := Nat.le_zero.mp inside
      rfl
  | cons char rest induction =>
      rw [List.forall_mem_cons] at ascii
      cases offset with
      | zero => rfl
      | succ offset =>
          have here := induction ascii.2 (Nat.le_of_succ_le_succ inside)
          simp only [splitAt, utf8Size_ascii ascii.1]
          rw [if_pos (Nat.le_add_left 1 offset), Nat.add_sub_cancel, here]
          rfl

theorem slice_ascii {first last : Nat} (ascii : ∀ char ∈ chars, char.toNat < 128)
    (ordered : first ≤ last) (inside : last ≤ chars.length) :
    slice chars first last = some ((chars.take last).drop first) := by
  have before : ∀ char ∈ chars.take last, char.toNat < 128 := fun char member =>
    ascii char (List.mem_of_mem_take member)
  have short : first ≤ (chars.take last).length := by
    rw [List.length_take]
    exact Nat.le_min.mpr ⟨ordered, Nat.le_trans ordered inside⟩
  rw [slice, splitAt_ascii ascii inside, Option.bind_some, splitAt_ascii before short]
  rfl

theorem slice_middle (before middle after : List Char) {first last : Nat}
    (ascii : ∀ char ∈ chars, char.toNat < 128) (whole : chars = before ++ (middle ++ after))
    (start : before.length = first) (stop : first + middle.length = last) :
    slice chars first last = some middle := by
  have inside : last ≤ chars.length := by
    rw [whole, List.length_append, List.length_append]
    omega
  rw [slice_ascii ascii (by omega) inside, whole, ← stop, ← start, List.take_append,
    List.take_of_length_le (Nat.le_add_right _ _), Nat.add_sub_cancel_left, List.take_left,
    List.drop_left]

end Ascii

end Utf8
