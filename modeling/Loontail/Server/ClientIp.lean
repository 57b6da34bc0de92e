import Loontail.Core.Text
import Loontail.Server.RateLimit
import Loontail.Accounts.Headers

/-! # Whose request it is

The client's address: the transport peer, or behind a trusted proxy what the forwarding
headers say. -/

/-! ## Reading addresses

`parse::<IpAddr>`, reader by reader. A reader that fails has read nothing. -/

namespace Loontail.Server

open Accounts Text

abbrev Reader (Value : Type) := List Char → Option (Value × List Char)

/-- `to_digit`. -/
def digitValue (char : Char) : Nat :=
  if '0' ≤ char ∧ char ≤ '9' then char.toNat - '0'.toNat
  else if 'a' ≤ char ∧ char ≤ 'f' then char.toNat - 'a'.toNat + 10
  else char.toNat - 'A'.toNat + 10

def isDecimalDigit (char : Char) : Bool := '0' ≤ char && char ≤ '9'

/-- `read_given_char`. -/
def readGivenChar (target : Char) : Reader Unit
  | char :: rest => if char = target then some ((), rest) else none
  | [] => none

/-- `read_separator`: every value but the first follows a separator. -/
def readSeparator {Value : Type} (separator : Char) (index : Nat) (inner : Reader Value) :
    Reader Value := fun chars =>
  if 0 < index then (readGivenChar separator chars).bind fun read => inner read.2
  else inner chars

/-- `read_number`: all digits that follow, of which there may not be too many. -/
def readNumber (isDigit : Char → Bool) (radix maxDigits bound : Nat) (allowZeroPrefix : Bool) :
    Reader Nat := fun chars =>
  let digits := chars.takeWhile isDigit
  let value := digits.foldl (fun value digit => value * radix + digitValue digit) 0
  if digits = [] ∨ maxDigits < digits.length then none
  else if !allowZeroPrefix && digits.head? = some '0' && 1 < digits.length then none
  else if value < bound then some (value, chars.dropWhile isDigit) else none

def readOctet (index : Nat) : Reader Nat :=
  readSeparator '.' index (readNumber isDecimalDigit 10 3 256 false)

def readGroup (index : Nat) : Reader Nat :=
  readSeparator ':' index (readNumber isHexDigit 16 4 65536 true)

/-- `read_ipv4_addr`. -/
def readIpv4Addr : Reader Nat := fun chars => do
  let (first, chars) ← readOctet 0 chars
  let (second, chars) ← readOctet 1 chars
  let (third, chars) ← readOctet 2 chars
  let (fourth, chars) ← readOctet 3 chars
  some (((first * 256 + second) * 256 + third) * 256 + fourth, chars)

/-- `read_groups`: as many groups as there are, and whether an IPv4 address ends them,
which fills the last two. -/
def readGroups : (room index : Nat) → List Char → (List Nat × Bool) × List Char
  | 0, _, chars => (([], false), chars)
  | room + 1, index, chars =>
      match (if 0 < room then readSeparator ':' index readIpv4Addr chars else none) with
      | some (address, rest) => (([address / 65536, address % 65536], true), rest)
      | none =>
          match readGroup index chars with
          | some (group, rest) =>
              let ((groups, mixed), rest) := readGroups room (index + 1) rest
              ((group :: groups, mixed), rest)
          | none => (([], false), chars)

def joinGroups (groups : List Nat) : BitVec 128 :=
  .ofNat 128 (groups.foldl (fun value group => value * 65536 + group) 0)

/-- `read_ipv6_addr`: eight groups, or fewer around one `::`. -/
def readIpv6Addr : Reader (BitVec 128) := fun chars =>
  let ((head, mixed), chars) := readGroups 8 0 chars
  if head.length = 8 then some (joinGroups head, chars)
  else if mixed then none
  else do
    let (_, chars) ← readGivenChar ':' chars
    let (_, chars) ← readGivenChar ':' chars
    let ((tail, _), chars) := readGroups (7 - head.length) 0 chars
    some (joinGroups (head ++ List.replicate (8 - head.length - tail.length) 0 ++ tail), chars)

/-- `read_ip_addr`. -/
def readIpAddr : Reader IpAddr := fun chars =>
  match readIpv4Addr chars with
  | some (address, rest) => some (.v4 (.ofNat 32 address), rest)
  | none => (readIpv6Addr chars).map fun (address, rest) => (.v6 address, rest)

/-- `parse_with`: nothing may be left. -/
def parseIpAddr (chars : List Char) : Option IpAddr :=
  match readIpAddr chars with
  | some (address, []) => some address
  | _ => none

example : parseIpAddr "10.0.0.1".toList = some (.v4 0x0A000001#32) ∧
    parseIpAddr "::ffff:10.0.0.1".toList = some (.v6 0xFFFF0A000001#128) ∧
    parseIpAddr "10.0.0.01".toList = none ∧ parseIpAddr "1::2::3".toList = none := by
  decide +kernel

/-! ## What an address is made of -/

def isAddressChar (char : Char) : Bool := isHexDigit char || char = '.' || char = ':'

def Spelled (chars rest : List Char) : Prop :=
  ∃ taken, chars = taken ++ rest ∧ ∀ char ∈ taken, isAddressChar char = true

theorem Spelled.refl (chars : List Char) : Spelled chars chars := ⟨[], rfl, by simp⟩

theorem Spelled.trans {chars middle rest : List Char} (first : Spelled chars middle)
    (second : Spelled middle rest) : Spelled chars rest := by
  obtain ⟨before, rfl, spelled⟩ := first
  obtain ⟨after, rfl, continued⟩ := second
  refine ⟨before ++ after, by simp, fun char member => ?_⟩
  exact (List.mem_append.mp member).elim (spelled char) (continued char)

section Spelling

variable {chars rest : List Char} {Value : Type}

theorem readGivenChar_spelled {target : Char} {reply : Unit}
    (address : isAddressChar target = true)
    (read : readGivenChar target chars = some (reply, rest)) : Spelled chars rest := by
  cases chars with
  | nil => cases read
  | cons char following =>
      rw [readGivenChar] at read
      split at read
      · rename_i same
        cases read
        exact ⟨[char], rfl, by simpa [same] using address⟩
      · cases read

theorem readSeparator_spelled {separator : Char} {index : Nat} {inner : Reader Value}
    {value : Value} (address : isAddressChar separator = true)
    (within : ∀ {chars rest value}, inner chars = some (value, rest) → Spelled chars rest)
    (read : readSeparator separator index inner chars = some (value, rest)) :
    Spelled chars rest := by
  unfold readSeparator at read
  split at read
  · obtain ⟨⟨_, middle⟩, given, continued⟩ := Option.bind_eq_some_iff.mp read
    exact (readGivenChar_spelled address given).trans (within continued)
  · exact within read

theorem readNumber_spelled {isDigit : Char → Bool} {radix maxDigits bound value : Nat}
    {allowZeroPrefix : Bool} (address : ∀ char, isDigit char = true → isAddressChar char = true)
    (read : readNumber isDigit radix maxDigits bound allowZeroPrefix chars = some (value, rest)) :
    Spelled chars rest := by
  unfold readNumber at read
  simp only at read
  split at read
  · cases read
  · split at read
    · cases read
    · split at read
      · cases read
        refine ⟨chars.takeWhile isDigit, List.takeWhile_append_dropWhile.symm, ?_⟩
        exact fun char member => address char (List.mem_takeWhile_imp member)
      · cases read

theorem isAddressChar_of_digit {char : Char} (digit : isDecimalDigit char = true) :
    isAddressChar char = true := by
  simp only [isDecimalDigit] at digit
  simp [isAddressChar, isHexDigit, digit]

theorem isAddressChar_of_hex {char : Char} (digit : isHexDigit char = true) :
    isAddressChar char = true := by
  simp [isAddressChar, digit]

theorem readOctet_spelled {index value : Nat} (read : readOctet index chars = some (value, rest)) :
    Spelled chars rest :=
  readSeparator_spelled rfl (readNumber_spelled fun _ => isAddressChar_of_digit) read

theorem readGroup_spelled {index value : Nat} (read : readGroup index chars = some (value, rest)) :
    Spelled chars rest :=
  readSeparator_spelled rfl (readNumber_spelled fun _ => isAddressChar_of_hex) read

theorem readIpv4Addr_spelled {value : Nat} (read : readIpv4Addr chars = some (value, rest)) :
    Spelled chars rest := by
  unfold readIpv4Addr at read
  obtain ⟨⟨first, one⟩, octet, read⟩ := Option.bind_eq_some_iff.mp read
  obtain ⟨⟨second, two⟩, next, read⟩ := Option.bind_eq_some_iff.mp read
  obtain ⟨⟨third, three⟩, later, read⟩ := Option.bind_eq_some_iff.mp read
  obtain ⟨⟨fourth, four⟩, last, read⟩ := Option.bind_eq_some_iff.mp read
  cases read
  exact (readOctet_spelled octet).trans ((readOctet_spelled next).trans
    ((readOctet_spelled later).trans (readOctet_spelled last)))

theorem readGroups_spelled (room index : Nat) (chars : List Char) :
    Spelled chars (readGroups room index chars).2 := by
  induction room generalizing index chars with
  | zero => exact .refl chars
  | succ room induction =>
      rw [readGroups]
      split
      · rename_i address rest mixed
        split at mixed
        · exact readSeparator_spelled rfl readIpv4Addr_spelled mixed
        · cases mixed
      · split
        · rename_i group rest read
          exact (readGroup_spelled read).trans (induction (index + 1) rest)
        · exact .refl chars

theorem readIpv6Addr_spelled {value : BitVec 128}
    (read : readIpv6Addr chars = some (value, rest)) : Spelled chars rest := by
  have front := readGroups_spelled 8 0 chars
  unfold readIpv6Addr at read
  simp only at read
  split at read
  · cases read
    exact front
  · split at read
    · cases read
    · obtain ⟨⟨_, one⟩, first, read⟩ := Option.bind_eq_some_iff.mp read
      obtain ⟨⟨_, two⟩, second, read⟩ := Option.bind_eq_some_iff.mp read
      cases read
      exact front.trans ((readGivenChar_spelled rfl first).trans
        ((readGivenChar_spelled rfl second).trans (readGroups_spelled _ 0 two)))

theorem readIpAddr_spelled {value : IpAddr} (read : readIpAddr chars = some (value, rest)) :
    Spelled chars rest := by
  unfold readIpAddr at read
  split at read
  · rename_i address following found
    cases read
    exact readIpv4Addr_spelled found
  · obtain ⟨⟨address, following⟩, found, same⟩ := Option.map_eq_some_iff.mp read
    cases same
    exact readIpv6Addr_spelled found

/-- The text of an address holds nothing but digits, dots and colons. -/
theorem isAddressChar_of_parse {address : IpAddr} (parsed : parseIpAddr chars = some address) :
    ∀ char ∈ chars, isAddressChar char = true := by
  unfold parseIpAddr at parsed
  split at parsed
  · rename_i found read
    obtain ⟨taken, whole, spelled⟩ := readIpAddr_spelled read
    rw [whole, List.append_nil]
    exact spelled
  · cases parsed

end Spelling

/-! ## The client's address -/

/-- `forwarded_for_rightmost`: the right-most hop that is an address. -/
def forwardedForRightmost (headers : Headers) : Option IpAddr :=
  (headers.text "x-forwarded-for").bind fun value =>
    (split ',' value.toList).reverse.findSome? fun hop => parseIpAddr (trimChars hop)

def realIp (headers : Headers) : Option IpAddr :=
  (headers.text "x-real-ip").bind fun raw => parseIpAddr (trimChars raw.toList)

def clientIp (headers : Headers) (peerAddr : Option IpAddr) (trustedProxy : Bool) :
    Option IpAddr :=
  if !trustedProxy then peerAddr
  else (forwardedForRightmost headers).or ((realIp headers).or peerAddr)

/-! ## What a proxy adds -/

/-- Where a proxy puts the hop that it adds: behind a comma and blanks at the end of the
last line, or on a line of its own. -/
inductive Forwarding where
  | lastLine (blanks : Nat)
  | furtherLine
  deriving DecidableEq, Repr

def forwardedLines (headers : Headers) : List String :=
  (headers.filter fun header => header.1 = "x-forwarded-for").map (·.2)

def withHop (blanks : Nat) (line hop : String) : String :=
  line ++ .ofList (',' :: List.replicate blanks ' ') ++ hop

def extendLast (blanks : Nat) (hop : String) : Headers → Headers
  | [] => [("x-forwarded-for", hop)]
  | (name, value) :: rest =>
      if name = "x-forwarded-for" ∧ forwardedLines rest = [] then
        (name, withHop blanks value hop) :: rest
      else (name, value) :: extendLast blanks hop rest

def forward (mode : Forwarding) (hop : String) (headers : Headers) : Headers :=
  match mode with
  | .lastLine blanks => extendLast blanks hop headers
  | .furtherLine => headers ++ [("x-forwarded-for", hop)]

section Lines

variable {headers : Headers} {hop line : String} {mode : Forwarding} {blanks : Nat}

theorem get_forwarded (headers : Headers) :
    headers.get "x-forwarded-for" = (forwardedLines headers).head? := by
  unfold Headers.get forwardedLines
  rw [List.head?_map, List.head?_filter]

theorem extendLast_of_lines (some : forwardedLines headers ≠ []) :
    forwardedLines (extendLast blanks hop headers) =
      (forwardedLines headers).dropLast ++
        [withHop blanks ((forwardedLines headers).getLast some) hop] := by
  induction headers with
  | nil => exact (some rfl).elim
  | cons header rest induction =>
      obtain ⟨name, value⟩ := header
      by_cases last : forwardedLines rest = []
      · by_cases named : name = "x-forwarded-for"
        · subst named
          have whole : forwardedLines (("x-forwarded-for", value) :: rest) = [value] := by
            simpa [forwardedLines] using last
          have extended : forwardedLines (extendLast blanks hop
              (("x-forwarded-for", value) :: rest)) = [withHop blanks value hop] := by
            rw [extendLast, if_pos ⟨rfl, last⟩]
            simpa [forwardedLines] using last
          simp only [extended, whole, List.dropLast_singleton, List.nil_append,
            List.getLast_singleton]
        · have nothing : forwardedLines ((name, value) :: rest) = forwardedLines rest := by
            simp [forwardedLines, named]
          exact (some (nothing.trans last)).elim
      · have kept : extendLast blanks hop ((name, value) :: rest) =
            (name, value) :: extendLast blanks hop rest := by
          rw [extendLast, if_neg fun both => last both.2]
        rw [kept]
        by_cases named : name = "x-forwarded-for"
        · have front : ∀ others : Headers,
              forwardedLines ((name, value) :: others) = value :: forwardedLines others := by
            intro others
            simp [forwardedLines, named]
          simp only [front, induction last, List.dropLast_cons_of_ne_nil last,
            List.getLast_cons last, List.cons_append]
        · have skipped : ∀ others : Headers,
              forwardedLines ((name, value) :: others) = forwardedLines others := by
            intro others
            simp [forwardedLines, named]
          simp only [skipped, induction last]

theorem forwardedLines_append (headers : Headers) (hop : String) :
    forwardedLines (headers ++ [("x-forwarded-for", hop)]) = forwardedLines headers ++ [hop] := by
  simp [forwardedLines]

theorem extendLast_of_none (none : forwardedLines headers = []) :
    extendLast blanks hop headers = headers ++ [("x-forwarded-for", hop)] := by
  induction headers with
  | nil => rfl
  | cons header rest induction =>
      obtain ⟨name, value⟩ := header
      have other : name ≠ "x-forwarded-for" := by
        rintro rfl
        simp [forwardedLines] at none
      have later : forwardedLines rest = [] := by simpa [forwardedLines, other] using none
      rw [extendLast, if_neg fun both => other both.1, induction later, List.cons_append]

/-- The first line after the proxy: a client's line stays first unless it is the only
one and the proxy extends it. -/
theorem get_forward (mode : Forwarding) (hop : String) (headers : Headers) :
    (forward mode hop headers).get "x-forwarded-for" =
      match forwardedLines headers, mode with
      | [], _ => some hop
      | [line], .lastLine blanks => some (withHop blanks line hop)
      | line :: _, _ => some line := by
  rw [get_forwarded]
  cases lines : forwardedLines headers with
  | nil =>
      have alone : forward mode hop headers = headers ++ [("x-forwarded-for", hop)] := by
        cases mode with
        | lastLine blanks => exact extendLast_of_none lines
        | furtherLine => rfl
      rw [alone, forwardedLines_append, lines]
      rfl
  | cons line rest =>
      cases mode with
      | furtherLine =>
          rw [forward, forwardedLines_append, lines]
          cases rest <;> rfl
      | lastLine blanks =>
          have some : forwardedLines headers ≠ [] := by
            rw [lines]
            exact List.cons_ne_nil _ _
          rw [forward, extendLast_of_lines some]
          cases rest with
          | nil => simp [lines]
          | cons next later => simp [lines]

theorem get_forward_other {name : String} (other : name ≠ "x-forwarded-for") (mode : Forwarding)
    (hop : String) (headers : Headers) :
    (forward mode hop headers).get name = headers.get name := by
  have appended : ∀ headers : Headers,
      Headers.get (headers ++ [("x-forwarded-for", hop)]) name = headers.get name := by
    intro headers
    simp [Headers.get, List.find?_append, Ne.symm other]
  cases mode with
  | furtherLine => exact appended headers
  | lastLine blanks =>
      rw [forward]
      induction headers with
      | nil => exact appended []
      | cons header rest induction =>
          obtain ⟨first, value⟩ := header
          rw [extendLast]
          split
          · rename_i both
            rw [both.1]
            simp [Headers.get, Ne.symm other]
          · by_cases same : first = name
            · simp [Headers.get, same]
            · have skipped : ∀ others : Headers,
                  Headers.get ((first, value) :: others) name = others.get name := by
                intro others
                simp [Headers.get, same]
              rw [skipped, skipped, induction]

theorem realIp_forward (mode : Forwarding) (hop : String) (headers : Headers) :
    realIp (forward mode hop headers) = realIp headers := by
  unfold realIp Headers.text
  rw [get_forward_other (by decide)]

end Lines

end Loontail.Server
