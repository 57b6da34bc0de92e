import Mathlib.Data.List.DropRight
import Mathlib.Data.List.Infix
import Loontail.Encoding.Utf8

/-! # Text as the handlers read it

The string functions of the standard library that the account code uses, and
the two spellings of a Minecraft identifier. -/

namespace Loontail.Text

/-- The characters with the `White_Space` property, which `trim` removes. -/
def isWhitespace (char : Char) : Bool :=
  let code := char.toNat
  (9 ≤ code && code ≤ 13) || code = 0x20 || code = 0x85 || code = 0xA0 || code = 0x1680 ||
    (0x2000 ≤ code && code ≤ 0x200A) || code = 0x2028 || code = 0x2029 || code = 0x202F ||
    code = 0x205F || code = 0x3000

def trimChars (chars : List Char) : List Char :=
  ((chars.dropWhile isWhitespace).reverse.dropWhile isWhitespace).reverse

@[irreducible] def trim (text : String) : String := .ofList (trimChars text.toList)

theorem trimChars_eq (chars : List Char) :
    trimChars chars = (chars.dropWhile isWhitespace).rdropWhile isWhitespace := rfl

theorem trimChars_of_plain {chars : List Char}
    (plain : ∀ char ∈ chars, isWhitespace char = false) : trimChars chars = chars := by
  have front : chars.dropWhile isWhitespace = chars := by
    rw [List.dropWhile_eq_self_iff]
    intro present
    rw [plain _ (List.getElem_mem present)]
    exact Bool.false_ne_true
  rw [trimChars_eq, front, List.rdropWhile_eq_self_iff]
  intro present
  rw [plain _ (List.getLast_mem present)]
  exact Bool.false_ne_true

theorem trimChars_trimChars (chars : List Char) :
    trimChars (trimChars chars) = trimChars chars := by
  have front : (trimChars chars).dropWhile isWhitespace = trimChars chars := by
    rw [trimChars_eq, List.dropWhile_eq_self_iff]
    intro present
    obtain ⟨back, whole⟩ := List.rdropWhile_prefix isWhitespace (chars.dropWhile isWhitespace)
    have longer : 0 < (chars.dropWhile isWhitespace).length := by
      rw [← whole, List.length_append]
      omega
    have head := List.dropWhile_get_zero_not isWhitespace chars longer
    have same : (chars.dropWhile isWhitespace).get ⟨0, longer⟩ =
        ((chars.dropWhile isWhitespace).rdropWhile isWhitespace).get ⟨0, present⟩ := by
      simp only [List.get_eq_getElem]
      rw [List.getElem_of_eq whole.symm, List.getElem_append_left present]
    rwa [same] at head
  calc trimChars (trimChars chars)
      = ((trimChars chars).dropWhile isWhitespace).rdropWhile isWhitespace := rfl
    _ = (trimChars chars).rdropWhile isWhitespace := by rw [front]
    _ = trimChars chars := by rw [trimChars_eq, List.rdropWhile_idempotent]

@[simp] theorem trim_trim (text : String) : trim (trim text) = trim text := by
  simp only [trim, String.toList_ofList, trimChars_trimChars]

def toAsciiLowercase (text : String) : String := .ofList (text.toList.map Char.toLower)

def eqIgnoreAsciiCase (left right : String) : Bool :=
  left.toList.map Char.toLower = right.toList.map Char.toLower

/-- `split_once`: what stands before the first separator, and what after it. -/
def splitOnce (separator : Char) : List Char → Option (List Char × List Char)
  | [] => none
  | char :: rest =>
      if char = separator then some ([], rest)
      else (splitOnce separator rest).map fun (before, after) => (char :: before, after)

/-- `split`: the pieces between separators, at least one. -/
def split (separator : Char) : List Char → List (List Char)
  | [] => [[]]
  | char :: rest =>
      match split separator rest with
      | [] => [[char]]
      | piece :: pieces =>
          if char = separator then [] :: piece :: pieces else (char :: piece) :: pieces

theorem split_eq_splitOn (separator : Char) (chars : List Char) :
    split separator chars = chars.splitOn separator := by
  induction chars with
  | nil => simp [split]
  | cons char rest induction =>
      rw [split, induction, List.splitOn_cons_eq_if_modifyHead]
      rcases List.exists_cons_of_ne_nil (List.splitOn_ne_nil separator rest) with
        ⟨piece, pieces, parts⟩
      by_cases same : char = separator <;> simp [parts, same]

theorem not_mem_of_mem_split {separator : Char} {chars piece : List Char}
    (member : piece ∈ split separator chars) : separator ∉ piece := by
  induction chars generalizing piece with
  | nil => simp [List.mem_singleton.mp member]
  | cons char rest induction =>
      rw [split] at member
      rcases parts : split separator rest with _ | ⟨first, pieces⟩
      · rw [split_eq_splitOn] at parts
        exact (List.splitOn_ne_nil separator rest parts).elim
      · simp only [parts] at member induction
        split at member
        · rcases List.mem_cons.mp member with rfl | later
          · simp
          · exact induction later
        · rename_i different
          rcases List.mem_cons.mp member with rfl | later
          · have apart : separator ∉ first := induction (by simp)
            simp [apart, Ne.symm different]
          · exact induction (List.mem_cons_of_mem _ later)

theorem split_intercalate {separator : Char} {pieces : List (List Char)} (present : pieces ≠ [])
    (apart : ∀ piece ∈ pieces, separator ∉ piece) :
    split separator ([separator].intercalate pieces) = pieces := by
  rw [split_eq_splitOn, List.splitOn_intercalate separator apart present]

theorem mem_split_iff {separator : Char} {chars : List Char} {char : Char}
    (other : char ≠ separator) :
    (∃ piece ∈ split separator chars, char ∈ piece) ↔ char ∈ chars := by
  induction chars with
  | nil => simp [split]
  | cons first rest induction =>
      rw [split]
      rcases parts : split separator rest with _ | ⟨piece, pieces⟩
      · rw [split_eq_splitOn] at parts
        exact (List.splitOn_ne_nil separator rest parts).elim
      · rw [parts] at induction
        rw [List.mem_cons, ← induction]
        by_cases same : first = separator
        · have apart : char ≠ first := fun equal => other (equal.trans same)
          simp [same, other]
        · simp [same, or_assoc]

theorem split_append (separator : Char) (front back : List Char) :
    split separator (front ++ separator :: back) =
      split separator front ++ split separator back := by
  induction front with
  | nil =>
      rcases parts : split separator back with _ | ⟨piece, pieces⟩
      · rw [split_eq_splitOn] at parts
        exact (List.splitOn_ne_nil separator back parts).elim
      · simp [split, parts]
  | cons char rest induction =>
      rw [List.cons_append, split, induction, split]
      rcases parts : split separator rest with _ | ⟨piece, pieces⟩
      · rw [split_eq_splitOn] at parts
        exact (List.splitOn_ne_nil separator rest parts).elim
      · by_cases same : char = separator <;> simp [same]

/-- `strip_prefix`, the characters after it. -/
def stripLeading (leading : String) (chars : List Char) : Option (List Char) :=
  if leading.toList.isPrefixOf chars then some (chars.drop leading.toList.length) else none

/-! ## Minecraft identifiers -/

def isHexDigit (char : Char) : Bool :=
  ('0' ≤ char && char ≤ '9') || ('a' ≤ char && char ≤ 'f') || ('A' ≤ char && char ≤ 'F')

def hexDigits : List Char := "0123456789abcdefABCDEF".toList

theorem mem_hexDigits {char : Char} (hex : isHexDigit char = true) : char ∈ hexDigits := by
  have ranges : (48 ≤ char.toNat ∧ char.toNat ≤ 57) ∨ (97 ≤ char.toNat ∧ char.toNat ≤ 102) ∨
      (65 ≤ char.toNat ∧ char.toNat ≤ 70) := by
    simpa [isHexDigit, Char.le_def, UInt32.le_iff_toNat_le, or_assoc] using hex
  have all : ∀ code < 103, (48 ≤ code ∧ code ≤ 57) ∨ (97 ≤ code ∧ code ≤ 102) ∨
      (65 ≤ code ∧ code ≤ 70) → Char.ofNat code ∈ hexDigits := by decide +kernel
  rw [← Char.ofNat_toNat char]
  exact all char.toNat (by omega) ranges

def hexValue (digit : Char) : Nat :=
  if digit ≤ '9' then digit.toNat - '0'.toNat
  else if digit ≤ 'F' then digit.toNat - 'A'.toNat + 10
  else digit.toNat - 'a'.toNat + 10

/-- By characters, which for these texts is by bytes. -/
def isUuidUndashed (value : String) : Bool :=
  value.toList.length = 32 && value.toList.all isHexDigit

def isUuidDashed (value : String) : Bool :=
  value.toList.length = 36 && value.toList.zipIdx.all fun (char, index) =>
    if index = 8 || index = 13 || index = 18 || index = 23 then char = '-' else isHexDigit char

/-- At most 48 characters of an offending value are echoed. -/
def truncated (value : String) : String :=
  if 48 < value.toList.length then .ofList (value.toList.take 48 ++ ['…']) else value

end Loontail.Text

namespace Loontail.Yggdrasil

open Text Utf8

inductive UuidError where
  | invalid (value : String)
  deriving DecidableEq, Repr

def UuidError.message : UuidError → String
  | .invalid value => "value is not a valid UUID: " ++ value

def isAsciiHexdigit (byte : UInt8) : Bool :=
  (48 ≤ byte && byte ≤ 57) || (97 ≤ byte && byte ≤ 102) || (65 ≤ byte && byte ≤ 70)

def isUuidUndashed (value : String) : Bool :=
  let bytes := bytes value.toList
  bytes.length = 32 && bytes.all isAsciiHexdigit

def isDashIndex (index : Nat) : Bool := index = 8 || index = 13 || index = 18 || index = 23

def isUuidDashed (value : String) : Bool :=
  let bytes := bytes value.toList
  bytes.length = 36 && bytes.zipIdx.all fun (byte, index) =>
    if isDashIndex index then byte = 45 else isAsciiHexdigit byte

def undashUuid (value : String) : Except UuidError String :=
  if isUuidUndashed value then .ok (toAsciiLowercase value)
  else if isUuidDashed value then
    .ok (toAsciiLowercase (.ofList (value.toList.filter (· ≠ '-'))))
  else .error (.invalid (truncated value))

section Bytes

variable {char : Char} {value : String}

theorem hexdigit_ascii (ascii : char.toNat < 128) :
    isAsciiHexdigit (UInt8.ofNat char.toNat) = isHexDigit char ∧
      (UInt8.ofNat char.toNat = 45 ↔ char = '-') := by
  have all : ∀ code < 128, isAsciiHexdigit (UInt8.ofNat code) = isHexDigit (Char.ofNat code) ∧
      (UInt8.ofNat code = 45 ↔ Char.ofNat code = '-') := by decide +kernel
  have here := all char.toNat ascii
  rwa [Char.ofNat_toNat] at here

theorem ascii_of_hexdigit {byte : UInt8} (hex : isAsciiHexdigit byte = true) :
    byte.toNat < 128 := by
  simp only [isAsciiHexdigit, Bool.or_eq_true, Bool.and_eq_true, decide_eq_true_eq,
    UInt8.le_iff_toNat_le] at hex
  rcases hex with (digit | lower) | upper
  · exact Nat.lt_of_le_of_lt digit.2 (by decide)
  · exact Nat.lt_of_le_of_lt lower.2 (by decide)
  · exact Nat.lt_of_le_of_lt upper.2 (by decide)

theorem ascii_of_hex (hex : isHexDigit char = true) : char.toNat < 128 := by
  have all : (hexDigits.all fun digit => digit.toNat < 128) = true := by decide
  exact of_decide_eq_true (List.all_eq_true.mp all char (mem_hexDigits hex))

theorem isUuidUndashed_eq : isUuidUndashed value = Text.isUuidUndashed value := by
  have alike (ascii : ∀ char ∈ value.toList, char.toNat < 128) :
      isUuidUndashed value = true ↔ Text.isUuidUndashed value = true := by
    simp only [isUuidUndashed, Text.isUuidUndashed, bytes_ascii ascii, List.length_map,
      Bool.and_eq_true, List.all_eq_true, List.forall_mem_map]
    refine and_congr_right fun _ => forall₂_congr fun char member => ?_
    rw [(hexdigit_ascii (ascii char member)).1]
  refine Bool.eq_iff_iff.mpr ⟨?_, ?_⟩
  · intro undashed
    have hex := undashed
    simp only [isUuidUndashed, Bool.and_eq_true, List.all_eq_true] at hex
    exact (alike (ascii_of_bytes fun byte member => ascii_of_hexdigit (hex.2 byte member))).mp
      undashed
  · intro undashed
    have hex := undashed
    simp only [Text.isUuidUndashed, Bool.and_eq_true, List.all_eq_true] at hex
    exact (alike fun char member => ascii_of_hex (hex.2 char member)).mpr undashed

theorem isUuidDashed_eq : isUuidDashed value = Text.isUuidDashed value := by
  have alike (ascii : ∀ char ∈ value.toList, char.toNat < 128) :
      isUuidDashed value = true ↔ Text.isUuidDashed value = true := by
    simp only [isUuidDashed, Text.isUuidDashed, bytes_ascii ascii, List.length_map,
      List.zipIdx_map, Bool.and_eq_true, List.all_eq_true, List.forall_mem_map]
    refine and_congr_right fun _ => forall₂_congr ?_
    rintro ⟨char, index⟩ member
    obtain ⟨hex, dash⟩ := hexdigit_ascii (ascii char (List.fst_mem_of_mem_zipIdx member))
    simp only [Prod.map, id_eq, hex, dash, isDashIndex]
  refine Bool.eq_iff_iff.mpr ⟨?_, ?_⟩
  · intro dashed
    have fits := dashed
    simp only [isUuidDashed, Bool.and_eq_true, List.all_eq_true] at fits
    refine (alike (ascii_of_bytes fun byte member => ?_)).mp dashed
    obtain ⟨index, placed⟩ := List.mem_iff_getElem?.mp member
    have here := fits.2 (byte, index) (List.mk_mem_zipIdx_iff_getElem?.mpr placed)
    split at here
    · obtain rfl : byte = 45 := of_decide_eq_true here
      decide
    · exact ascii_of_hexdigit here
  · intro dashed
    have fits := dashed
    simp only [Text.isUuidDashed, Bool.and_eq_true, List.all_eq_true] at fits
    refine (alike fun char member => ?_).mpr dashed
    obtain ⟨index, placed⟩ := List.mem_iff_getElem?.mp member
    have here := fits.2 (char, index) (List.mk_mem_zipIdx_iff_getElem?.mpr placed)
    split at here
    · obtain rfl : char = '-' := of_decide_eq_true here
      decide
    · exact ascii_of_hex here

end Bytes

end Loontail.Yggdrasil

namespace Loontail.Text

def undashUuid (value : String) : Except String String :=
  (Yggdrasil.undashUuid value).mapError Yggdrasil.UuidError.message

example : undashUuid "11111111-2222-3333-4444-55555555555A" =
    .ok "1111111122223333444455555555555a" := by decide +kernel

/-! ## Email addresses -/

/-- The shape of an address: one `@` between a local part and a dotted domain. -/
def isValidEmail (email : String) : Bool :=
  let email := trim email
  !(email.isEmpty || 254 < email.utf8ByteSize || email.toList.any isWhitespace) &&
    match splitOnce '@' email.toList with
    | none => false
    | some (before, domain) =>
        !(before.isEmpty || domain.isEmpty || domain.contains '@') &&
          match splitOnce '.' domain with
          | none => false
          | some (host, rest) => !host.isEmpty && !rest.isEmpty && rest.head? ≠ some '.'

example : isValidEmail "user@example.com" = true ∧ isValidEmail "user@nodot" = false := by
  decide +kernel

/-! ## Patterns of LIKE

The pattern language of the database with a backslash as its escape, and the escaping
that `escape_like_pattern` does. -/

/-- `text LIKE pattern ESCAPE '\'`. -/
def like : List Char → List Char → Bool
  | [], text => text.isEmpty
  | '%' :: pattern, text => text.tails.any (like pattern)
  | '_' :: pattern, text =>
      match text with
      | [] => false
      | _ :: rest => like pattern rest
  | '\\' :: char :: pattern, text =>
      match text with
      | [] => false
      | first :: rest => first = char && like pattern rest
  | char :: pattern, text =>
      match text with
      | [] => false
      | first :: rest => first = char && like pattern rest

/-- The characters that a pattern would not take literally. -/
def isWildcard (char : Char) : Bool := char = '\\' || char = '%' || char = '_'

def escapeLikePattern (needle : List Char) : List Char :=
  needle.flatMap fun char => if isWildcard char then ['\\', char] else [char]

theorem like_any (text : List Char) : like ['%'] text = true := by
  have nothing : like [] [] = true := rfl
  rw [like]
  induction text with
  | nil => simp [nothing]
  | cons char rest induction => simp [List.tails, induction]

theorem like_escaped (char : Char) (pattern text : List Char) :
    like ('\\' :: char :: pattern) text =
      match text with
      | [] => false
      | first :: rest => first = char && like pattern rest := by
  cases text <;> rfl

theorem like_literal {char : Char} (literal : isWildcard char = false)
    (pattern text : List Char) :
    like (char :: pattern) text =
      match text with
      | [] => false
      | first :: rest => first = char && like pattern rest := by
  simp only [isWildcard, Bool.or_eq_false_iff, decide_eq_false_iff_not] at literal
  conv_lhs => unfold like
  split
  · rename_i same
    cases same
  · rename_i same
    exact (literal.1.2 (List.cons.inj same).1).elim
  · rename_i same
    exact (literal.2 (List.cons.inj same).1).elim
  · rename_i same
    exact (literal.1.1 (List.cons.inj same).1).elim
  · rename_i same
    cases same
    rfl

/-- Escaped, a needle matches itself and nothing else. -/
theorem like_escapeLikePattern (needle pattern text : List Char) :
    like (escapeLikePattern needle ++ pattern) text =
      (needle.isPrefixOf text && like pattern (text.drop needle.length)) := by
  induction needle generalizing text with
  | nil => simp [escapeLikePattern]
  | cons char rest induction =>
      have one : like (escapeLikePattern (char :: rest) ++ pattern) text =
          match text with
          | [] => false
          | first :: more => first = char && like (escapeLikePattern rest ++ pattern) more := by
        cases wild : isWildcard char with
        | true =>
            have escaped : escapeLikePattern (char :: rest) ++ pattern =
                '\\' :: char :: (escapeLikePattern rest ++ pattern) := by
              simp [escapeLikePattern, wild]
            rw [escaped, like_escaped]
        | false =>
            have literal : escapeLikePattern (char :: rest) ++ pattern =
                char :: (escapeLikePattern rest ++ pattern) := by
              simp [escapeLikePattern, wild]
            rw [literal, like_literal wild]
      rw [one]
      cases text with
      | nil => rfl
      | cons first more =>
          have same : decide (first = char) = (char == first) := by
            rw [Bool.eq_iff_iff, decide_eq_true_iff, beq_iff_eq, eq_comm]
          simp only [induction, List.isPrefixOf, List.length_cons, List.drop_succ_cons, same,
            Bool.and_assoc]

/-- `LIKE escaped || '%'`. -/
theorem like_startsWith (needle text : List Char) :
    like (escapeLikePattern needle ++ ['%']) text = needle.isPrefixOf text := by
  rw [like_escapeLikePattern, like_any, Bool.and_true]

/-- `LIKE '%' || escaped || '%'`. -/
theorem like_contains (needle text : List Char) :
    like ('%' :: (escapeLikePattern needle ++ ['%'])) text = true ↔ needle <:+: text := by
  rw [like, List.any_eq_true, List.infix_iff_prefix_suffix]
  constructor
  · rintro ⟨tail, member, leads⟩
    rw [like_startsWith] at leads
    exact ⟨tail, List.isPrefixOf_iff_prefix.mp leads, (List.mem_tails tail text).mp member⟩
  · rintro ⟨tail, leads, ends⟩
    refine ⟨tail, (List.mem_tails tail text).mpr ends, ?_⟩
    rw [like_startsWith]
    exact List.isPrefixOf_iff_prefix.mpr leads

end Loontail.Text
