import Mathlib.Data.List.Basic

/-! # Base64

The standard alphabet with padding. Three bytes are four symbols; one or two bytes at the end
are two or three, and padding makes them four. -/

namespace Base64

def isSymbol (char : Char) : Bool :=
  ('A' ≤ char && char ≤ 'Z') || ('a' ≤ char && char ≤ 'z') || ('0' ≤ char && char ≤ '9') ||
    char = '+' || char = '/'

def alphabet : List Char :=
  "ABCDEFGHIJKLMNOPQRSTUVWXYZabcdefghijklmnopqrstuvwxyz0123456789+/".toList

def symbol (value : Nat) : Char := alphabet.getD (value % 64) 'A'

theorem symbol_isSymbol (value : Nat) : isSymbol (symbol value) = true := by
  have all : ∀ index < 64, isSymbol (alphabet.getD index 'A') = true := by decide +kernel
  exact all (value % 64) (Nat.mod_lt value (by decide))

def encode : List UInt8 → List Char
  | [] => []
  | [first] => [symbol (first.toNat / 4), symbol (first.toNat % 4 * 16), '=', '=']
  | [first, second] =>
      [symbol (first.toNat / 4), symbol (first.toNat % 4 * 16 + second.toNat / 16),
        symbol (second.toNat % 16 * 4), '=']
  | first :: second :: third :: rest =>
      symbol (first.toNat / 4) :: symbol (first.toNat % 4 * 16 + second.toNat / 16) ::
        symbol (second.toNat % 16 * 4 + third.toNat / 64) :: symbol (third.toNat % 64) ::
          encode rest

example : encode [77, 97, 110] = "TWFu".toList ∧ encode [77, 97] = "TWE=".toList ∧
    encode [77] = "TQ==".toList := by decide

structure Padded (text body : List Char) (padding : Nat) : Prop where
  whole : text = body ++ List.replicate padding '='
  symbols : ∀ char ∈ body, isSymbol char = true

/-- Whole quartets, of which the last one holds two symbols at least. -/
structure WellFormed (text : List Char) : Prop where
  quartets : text.length % 4 = 0
  padded : ∃ body padding, Padded text body padding ∧ padding ≤ 2
  lastQuartet : ∀ char ∈ (text.drop (text.length - 4)).take 2, isSymbol char = true

section Padded

variable {text body other : List Char} {padding more : Nat}

theorem Padded.length (padded : Padded text body padding) :
    text.length = body.length + padding := by
  rw [padded.whole, List.length_append, List.length_replicate]

/-- A text can be read in one way only. -/
theorem Padded.unique (padded : Padded text body padding) (again : Padded text other more) :
    body = other ∧ padding = more := by
  have read : ∀ {body : List Char} {padding : Nat}, Padded text body padding →
      text.takeWhile isSymbol = body := by
    intro body padding padded
    rw [padded.whole, List.takeWhile_append_of_pos padded.symbols]
    cases padding with
    | zero => exact List.append_nil body
    | succ rest =>
        rw [List.replicate_succ, List.takeWhile_cons_of_neg (by decide), List.append_nil]
  have same : body = other := (read padded).symm.trans (read again)
  have lengths := padded.length.symm.trans again.length
  rw [same] at lengths
  exact ⟨same, Nat.add_left_cancel lengths⟩

theorem Padded.prepend {front : List Char} (padded : Padded text body padding)
    (symbols : ∀ char ∈ front, isSymbol char = true) :
    Padded (front ++ text) (front ++ body) padding where
  whole := by rw [padded.whole, List.append_assoc]
  symbols := fun char member => (List.mem_append.mp member).elim (symbols char)
    (padded.symbols char)

theorem Padded.append (padded : Padded text body padding) (more : Nat) :
    Padded (text ++ List.replicate more '=') body (padding + more) where
  whole := by rw [padded.whole, List.append_assoc, List.replicate_append_replicate]
  symbols := padded.symbols

theorem Padded.take (padded : Padded text body padding) (count : Nat) :
    Padded (text.take count) (body.take count) (min (count - body.length) padding) where
  whole := by rw [padded.whole, List.take_append, List.take_replicate]
  symbols := fun char member => padded.symbols char (List.mem_of_mem_take member)

theorem Padded.wellFormed (padded : Padded text body padding) (few : padding ≤ 2)
    (quartets : text.length % 4 = 0) : WellFormed text where
  quartets := quartets
  padded := ⟨body, padding, padded, few⟩
  lastQuartet := by
    intro char member
    have length := padded.length
    have first := List.mem_of_mem_take member
    by_cases present : 4 ≤ text.length
    · have inside : text.length - 4 + 2 ≤ body.length := by omega
      have front : (text.drop (text.length - 4)).take 2 =
          (body.take (text.length - 4 + 2)).drop (text.length - 4) := by
        rw [List.take_drop, padded.whole, List.take_append_of_le_length]
        rw [← padded.whole]
        exact inside
      rw [front] at member
      exact padded.symbols char (List.mem_of_mem_take (List.mem_of_mem_drop member))
    · have empty : text = [] := List.length_eq_zero_iff.mp (by omega)
      rw [empty] at first
      cases first

end Padded

/-! ## Encodings -/

def paddingOf (bytes : List UInt8) : Nat := (3 - bytes.length % 3) % 3

theorem paddingOf_le (bytes : List UInt8) : paddingOf bytes ≤ 2 := by
  unfold paddingOf
  omega

theorem encode_padded (bytes : List UInt8) :
    (∃ body, Padded (encode bytes) body (paddingOf bytes)) ∧ (encode bytes).length % 4 = 0 := by
  induction bytes using encode.induct with
  | case1 => exact ⟨⟨[], rfl, nofun⟩, rfl⟩
  | case2 first =>
      refine ⟨⟨[_, _], rfl, ?_⟩, by simp [encode]⟩
      simp [symbol_isSymbol]
  | case3 first second =>
      refine ⟨⟨[_, _, _], rfl, ?_⟩, by simp [encode]⟩
      simp [symbol_isSymbol]
  | case4 first second third rest induction =>
      obtain ⟨⟨body, padded⟩, quartets⟩ := induction
      have same : paddingOf (first :: second :: third :: rest) = paddingOf rest := by
        simp only [paddingOf, List.length_cons]
        omega
      rw [same, encode]
      constructor
      · refine ⟨_, padded.prepend (?_ : ∀ char ∈ [_, _, _, _], isSymbol char = true)⟩
        simp [symbol_isSymbol]
      · simp only [List.length_cons]
        omega

/-! ## Decodings -/

def valueOf (char : Char) : Option Nat := alphabet.idxOf? char

/-- Only what is encoded is decoded: the padding is whole, and the bits that no byte takes are
clear. -/
def decode : List Char → Option (List UInt8)
  | [] => some []
  | [first, second, '=', '='] => do
      let first ← valueOf first
      let second ← valueOf second
      if second % 16 = 0 then some [.ofNat (first * 4 + second / 16)] else none
  | [first, second, third, '='] => do
      let first ← valueOf first
      let second ← valueOf second
      let third ← valueOf third
      if third % 4 = 0 then
        some [.ofNat (first * 4 + second / 16), .ofNat (second % 16 * 16 + third / 4)]
      else none
  | first :: second :: third :: fourth :: rest => do
      let first ← valueOf first
      let second ← valueOf second
      let third ← valueOf third
      let fourth ← valueOf fourth
      let bytes ← decode rest
      some (.ofNat (first * 4 + second / 16) :: .ofNat (second % 16 * 16 + third / 4) ::
        .ofNat (third % 4 * 64 + fourth) :: bytes)
  | _ => none

example : decode "TWE=".toList = some [77, 97] ∧ decode "TWF=".toList = none ∧
    decode "TWE".toList = none := by decide +kernel

theorem valueOf_symbol {value : Nat} (small : value < 64) : valueOf (symbol value) = some value := by
  have all : ∀ value < 64, valueOf (symbol value) = some value := by decide +kernel
  exact all value small

theorem symbol_ne_pad (value : Nat) : symbol value ≠ '=' := by
  intro pad
  have symbol := symbol_isSymbol value
  rw [pad] at symbol
  cases symbol

theorem decode_encode (bytes : List UInt8) : decode (encode bytes) = some bytes := by
  induction bytes using encode.induct with
  | case1 => rfl
  | case2 first =>
      have low := first.toNat_lt
      rw [encode, decode, valueOf_symbol (by omega), valueOf_symbol (by omega)]
      have whole : first.toNat / 4 * 4 + first.toNat % 4 * 16 / 16 = first.toNat := by omega
      simp only [Option.bind_eq_bind, Option.bind_some, Nat.mul_mod_left, if_true, whole,
        UInt8.ofNat_toNat]
  | case3 first second =>
      have low := first.toNat_lt
      have next := second.toNat_lt
      rw [encode, decode, valueOf_symbol (by omega), valueOf_symbol (by omega),
        valueOf_symbol (by omega)]
      · have clear : second.toNat % 16 * 4 % 4 = 0 := Nat.mul_mod_left _ _
        have one : first.toNat / 4 * 4 + (first.toNat % 4 * 16 + second.toNat / 16) / 16 =
            first.toNat := by omega
        have two : (first.toNat % 4 * 16 + second.toNat / 16) % 16 * 16 +
            second.toNat % 16 * 4 / 4 = second.toNat := by omega
        simp only [Option.bind_eq_bind, Option.bind_some, clear, if_true, one, two,
          UInt8.ofNat_toNat]
      · exact fun pad => symbol_ne_pad _ pad
  | case4 first second third rest induction =>
      have low := first.toNat_lt
      have next := second.toNat_lt
      have last := third.toNat_lt
      rw [encode, decode, valueOf_symbol (by omega), valueOf_symbol (by omega),
        valueOf_symbol (by omega), valueOf_symbol (by omega), induction]
      · have one : first.toNat / 4 * 4 + (first.toNat % 4 * 16 + second.toNat / 16) / 16 =
            first.toNat := by omega
        have two : (first.toNat % 4 * 16 + second.toNat / 16) % 16 * 16 +
            (second.toNat % 16 * 4 + third.toNat / 64) / 4 = second.toNat := by omega
        have three : (second.toNat % 16 * 4 + third.toNat / 64) % 4 * 64 + third.toNat % 64 =
            third.toNat := by omega
        simp only [Option.bind_eq_bind, Option.bind_some, one, two, three, UInt8.ofNat_toNat]
      · exact fun _ pad => absurd pad (symbol_ne_pad _)
      · exact fun pad => absurd pad (symbol_ne_pad _)

end Base64
