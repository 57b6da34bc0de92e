import Mathlib.Data.List.Basic

/-! # JSON

Values are printed on one line, or with an indentation of two spaces. A reader that takes any white
space between the tokens gets them back from either. -/

namespace Json

/-- Numbers are whole. -/
inductive Value where
  | null
  | bool (value : Bool)
  | number (value : Int)
  | string (text : String)
  | array (items : List Value)
  | object (members : List (String × Value))

/-! ## Printing -/

inductive Layout where
  | compact
  | pretty
  deriving DecidableEq, Repr

namespace Layout

def newline : Layout → Nat → List Char
  | compact, _ => []
  | pretty, depth => '\n' :: List.replicate (2 * depth) ' '

def colon : Layout → List Char
  | compact => [':']
  | pretty => [':', ' ']

end Layout

def hexDigit (value : Nat) : Char := "0123456789abcdef".toList.getD value '0'

def escape (char : Char) : List Char :=
  if char = '"' then ['\\', '"']
  else if char = '\\' then ['\\', '\\']
  else if char = '\x08' then ['\\', 'b']
  else if char = '\t' then ['\\', 't']
  else if char = '\n' then ['\\', 'n']
  else if char = '\x0c' then ['\\', 'f']
  else if char = '\r' then ['\\', 'r']
  else if char.toNat < 32 then
    ['\\', 'u', '0', '0', hexDigit (char.toNat / 16), hexDigit (char.toNat % 16)]
  else [char]

def quote (text : String) : List Char := '"' :: text.toList.flatMap escape ++ ['"']

def decimal : Int → List Char
  | .ofNat value => Nat.toDigits 10 value
  | .negSucc value => '-' :: Nat.toDigits 10 (value + 1)

mutual

def render (layout : Layout) (depth : Nat) : Value → List Char
  | .null => ['n', 'u', 'l', 'l']
  | .bool true => ['t', 'r', 'u', 'e']
  | .bool false => ['f', 'a', 'l', 's', 'e']
  | .number value => decimal value
  | .string text => quote text
  | .array [] => ['[', ']']
  | .array (first :: rest) =>
      '[' :: layout.newline (depth + 1) ++ render layout (depth + 1) first ++
        renderItems layout depth rest
  | .object [] => ['\x7b', '\x7d']
  | .object ((name, value) :: rest) =>
      '\x7b' :: layout.newline (depth + 1) ++ quote name ++ layout.colon ++
        render layout (depth + 1) value ++ renderMembers layout depth rest

def renderItems (layout : Layout) (depth : Nat) : List Value → List Char
  | [] => layout.newline depth ++ [']']
  | first :: rest =>
      ',' :: layout.newline (depth + 1) ++ render layout (depth + 1) first ++
        renderItems layout depth rest

def renderMembers (layout : Layout) (depth : Nat) : List (String × Value) → List Char
  | [] => layout.newline depth ++ ['\x7d']
  | (name, value) :: rest =>
      ',' :: layout.newline (depth + 1) ++ quote name ++ layout.colon ++
        render layout (depth + 1) value ++ renderMembers layout depth rest

end

/-! ## Reading -/

def isSpace (char : Char) : Bool := char = ' ' || char = '\n' || char = '\r' || char = '\t'

def skip (chars : List Char) : List Char := chars.dropWhile isSpace

def hexValue (char : Char) : Option Nat :=
  if char.isDigit then some (char.toNat - '0'.toNat)
  else if 'a' ≤ char && char ≤ 'f' then some (char.toNat - 'a'.toNat + 10)
  else if 'A' ≤ char && char ≤ 'F' then some (char.toNat - 'A'.toNat + 10)
  else none

/-- What stands after a backslash. Halves of a surrogate pair are not taken. -/
def unescape : List Char → Option (Char × List Char)
  | '"' :: rest => some ('"', rest)
  | '\\' :: rest => some ('\\', rest)
  | '/' :: rest => some ('/', rest)
  | 'b' :: rest => some ('\x08', rest)
  | 'f' :: rest => some ('\x0c', rest)
  | 'n' :: rest => some ('\n', rest)
  | 'r' :: rest => some ('\r', rest)
  | 't' :: rest => some ('\t', rest)
  | 'u' :: first :: second :: third :: fourth :: rest => do
      let first ← hexValue first
      let second ← hexValue second
      let third ← hexValue third
      let fourth ← hexValue fourth
      let code := ((first * 16 + second) * 16 + third) * 16 + fourth
      if code.isValidChar then some (.ofNat code, rest) else none
  | _ => none

def readChars : Nat → List Char → Option (List Char × List Char)
  | 0, _ => none
  | _ + 1, [] => none
  | fuel + 1, char :: rest =>
      if char = '"' then some ([], rest)
      else if char = '\\' then do
        let (char, rest) ← unescape rest
        let (chars, rest) ← readChars fuel rest
        some (char :: chars, rest)
      else if char.toNat < 32 then none
      else do
        let (chars, rest) ← readChars fuel rest
        some (char :: chars, rest)

def readNatural (chars : List Char) : Option (Nat × List Char) :=
  if chars.takeWhile Char.isDigit = [] then none
  else some (Nat.ofDigitChars 10 (chars.takeWhile Char.isDigit) 0, chars.dropWhile Char.isDigit)

def readNumber : List Char → Option (Int × List Char)
  | '-' :: rest => (readNatural rest).map fun (value, rest) => (-(value : Int), rest)
  | chars => (readNatural chars).map fun (value, rest) => ((value : Int), rest)

mutual

def readValue : Nat → List Char → Option (Value × List Char)
  | 0, _ => none
  | fuel + 1, chars =>
      match skip chars with
      | 'n' :: 'u' :: 'l' :: 'l' :: rest => some (.null, rest)
      | 't' :: 'r' :: 'u' :: 'e' :: rest => some (.bool true, rest)
      | 'f' :: 'a' :: 'l' :: 's' :: 'e' :: rest => some (.bool false, rest)
      | '"' :: rest => do
          let (chars, rest) ← readChars fuel rest
          some (.string (.ofList chars), rest)
      | '[' :: rest => do
          if (skip rest).head? = some ']' then some (.array [], (skip rest).tail)
          else
            let (first, rest) ← readValue fuel rest
            let (items, rest) ← readItems fuel rest
            some (.array (first :: items), rest)
      | '\x7b' :: rest => do
          if (skip rest).head? = some '\x7d' then some (.object [], (skip rest).tail)
          else
            let (first, rest) ← readMember fuel rest
            let (members, rest) ← readMembers fuel rest
            some (.object (first :: members), rest)
      | chars => do
          let (value, rest) ← readNumber chars
          some (.number value, rest)

def readItems : Nat → List Char → Option (List Value × List Char)
  | 0, _ => none
  | fuel + 1, chars =>
      match skip chars with
      | ']' :: rest => some ([], rest)
      | ',' :: rest => do
          let (first, rest) ← readValue fuel rest
          let (items, rest) ← readItems fuel rest
          some (first :: items, rest)
      | _ => none

def readMember : Nat → List Char → Option ((String × Value) × List Char)
  | 0, _ => none
  | fuel + 1, chars =>
      match skip chars with
      | '"' :: rest => do
          let (name, rest) ← readChars fuel rest
          match skip rest with
          | ':' :: rest => do
              let (value, rest) ← readValue fuel rest
              some ((.ofList name, value), rest)
          | _ => none
      | _ => none

def readMembers : Nat → List Char → Option (List (String × Value) × List Char)
  | 0, _ => none
  | fuel + 1, chars =>
      match skip chars with
      | '\x7d' :: rest => some ([], rest)
      | ',' :: rest => do
          let (first, rest) ← readMember fuel rest
          let (members, rest) ← readMembers fuel rest
          some (first :: members, rest)
      | _ => none

end

/-- A whole text. No value takes more steps than its text has characters. -/
def read (chars : List Char) : Option Value := do
  let (value, rest) ← readValue (chars.length + 1) chars
  if skip rest = [] then some value else none

example : (read " [ -12 , \x7b\"a\\u00e9\":null\x7d ]".toList).map (render .compact 0) =
    some "[-12,\x7b\"aé\":null\x7d]".toList := by decide +kernel

/-! ## Taking values apart -/

namespace Value

variable {Item : Type}

def asStr : Value → Option String
  | string text => some text
  | _ => none

def asInt : Value → Option Int
  | number value => some value
  | _ => none

def asBool : Value → Option Bool
  | bool value => some value
  | _ => none

def asArray (item : Value → Option Item) : Value → Option (List Item)
  | array items => items.mapM item
  | _ => none

def asObject (item : Value → Option Item) : Value → Option (List (String × Item))
  | object members => members.mapM fun (name, value) => (item value).map (name, ·)
  | _ => none

def get (name : String) : Value → Option Value
  | object members => (members.find? fun member => member.1 = name).map Prod.snd
  | _ => none

/-- A member that may be missing, or null. -/
def getOptional (name : String) (item : Value → Option Item) (value : Value) :
    Option (Option Item) :=
  match value.get name with
  | none | some null => some none
  | some present => (item present).map some

variable {item : Value → Option Item} {print : Item → Value}

theorem asArray_map (read : ∀ value, item (print value) = some value) (items : List Item) :
    (array (items.map print)).asArray item = some items := by
  rw [asArray]
  induction items with
  | nil => rfl
  | cons first rest induction =>
      rw [List.map_cons, List.mapM_cons, read, induction]
      rfl

theorem asObject_map (read : ∀ value, item (print value) = some value)
    (members : List (String × Item)) :
    (object (members.map fun (name, value) => (name, print value))).asObject item =
      some members := by
  rw [asObject]
  induction members with
  | nil => rfl
  | cons first rest induction =>
      simp only [List.map_cons, List.mapM_cons, read, Option.map_some, induction]
      rfl

end Value

/-! ## What is printed is read -/

section Tokens

variable {layout : Layout} {depth fuel : Nat} {char : Char} {chars rest : List Char}

theorem skip_cons (apart : isSpace char = false) : skip (char :: chars) = char :: chars :=
  List.dropWhile_cons_of_neg (by rw [apart]; exact Bool.false_ne_true)

@[simp] theorem skip_newline : skip (layout.newline depth ++ chars) = skip chars := by
  cases layout with
  | compact => rfl
  | pretty =>
      rw [Layout.newline, List.cons_append, skip, List.dropWhile_cons_of_pos (by decide)]
      exact List.dropWhile_append_of_pos fun _ member => by
        rw [List.eq_of_mem_replicate member]
        rfl

theorem hexValue_hexDigit {value : Nat} (small : value < 16) :
    hexValue (hexDigit value) = some value := by
  have all : ∀ value < 16, hexValue (hexDigit value) = some value := by decide +kernel
  exact all value small

theorem readChars_escape : readChars (fuel + 1) (escape char ++ rest) =
    (readChars fuel rest).map fun (chars, rest) => (char :: chars, rest) := by
  have taken : ∀ {letter : Char} {escaped : List Char},
      unescape (letter :: escaped ++ rest) = some (char, rest) →
        readChars (fuel + 1) ('\\' :: letter :: escaped ++ rest) =
          (readChars fuel rest).map fun (chars, rest) => (char :: chars, rest) := by
    intro letter escaped known
    rw [List.cons_append, readChars, if_neg (by decide), if_pos rfl, known]
    simp only [Option.bind_eq_bind, Option.bind_some]
    cases readChars fuel rest <;> rfl
  unfold escape
  split
  · rename_i same
    subst same
    exact @taken '"' [] rfl
  split
  · rename_i same
    subst same
    exact @taken '\\' [] rfl
  split
  · rename_i same
    subst same
    exact @taken 'b' [] rfl
  split
  · rename_i same
    subst same
    exact @taken 't' [] rfl
  split
  · rename_i same
    subst same
    exact @taken 'n' [] rfl
  split
  · rename_i same
    subst same
    exact @taken 'f' [] rfl
  split
  · rename_i same
    subst same
    exact @taken 'r' [] rfl
  split
  · rename_i small
    apply @taken 'u' ['0', '0', hexDigit (char.toNat / 16), hexDigit (char.toNat % 16)]
    have high := @hexValue_hexDigit (char.toNat / 16) (by omega)
    have low := @hexValue_hexDigit (char.toNat % 16) (by omega)
    have zero : hexValue '0' = some 0 := by decide
    have code : ((0 * 16 + 0) * 16 + char.toNat / 16) * 16 + char.toNat % 16 = char.toNat := by
      omega
    simp only [List.cons_append, List.nil_append, unescape, high, low, zero, Option.bind_eq_bind,
      Option.bind_some, code, Char.ofNat_toNat]
    exact if_pos char.valid
  · rename_i quote backslash _ _ _ _ _ printable
    rw [List.singleton_append, readChars, if_neg quote, if_neg backslash, if_neg printable]
    cases readChars fuel rest <;> rfl

theorem readChars_quoted {text : List Char} (enough : text.length < fuel) :
    readChars fuel (text.flatMap escape ++ '"' :: rest) = some (text, rest) := by
  induction text generalizing fuel with
  | nil =>
      cases fuel with
      | zero => exact absurd enough (Nat.lt_irrefl 0)
      | succ fuel => rw [List.flatMap_nil, List.nil_append, readChars, if_pos rfl]
  | cons char text induction =>
      cases fuel with
      | zero => exact absurd enough (Nat.not_lt_zero _)
      | succ fuel =>
          rw [List.flatMap_cons, List.append_assoc, readChars_escape,
            induction (Nat.lt_of_succ_lt_succ enough)]
          rfl

theorem length_escape_pos : 0 < (escape char).length := by
  unfold escape
  split_ifs <;> exact Nat.succ_pos _

theorem length_le_escaped (text : List Char) : text.length ≤ (text.flatMap escape).length := by
  induction text with
  | nil => exact Nat.le_refl 0
  | cons char text induction =>
      have one := @length_escape_pos char
      simp only [List.flatMap_cons, List.length_append, List.length_cons]
      omega

/-- What follows a number must not go on with it. -/
def Ends (rest : List Char) : Prop := ∀ char, rest.head? = some char → char.isDigit = false

theorem digits_readNatural (value : Nat) (ends : Ends rest) :
    readNatural (Nat.toDigits 10 value ++ rest) = some (value, rest) := by
  have digits : ∀ char ∈ Nat.toDigits 10 value, char.isDigit = true := fun char member =>
    Nat.isDigit_of_mem_toDigits (by decide) (by decide) member
  have taken : (Nat.toDigits 10 value ++ rest).takeWhile Char.isDigit = Nat.toDigits 10 value := by
    rw [List.takeWhile_append_of_pos digits]
    cases rest with
    | nil => exact List.append_nil _
    | cons char others =>
        rw [List.takeWhile_cons_of_neg, List.append_nil]
        rw [ends char rfl]
        exact Bool.false_ne_true
  have dropped : (Nat.toDigits 10 value ++ rest).dropWhile Char.isDigit = rest := by
    rw [List.dropWhile_append_of_pos digits]
    cases rest with
    | nil => rfl
    | cons char others =>
        apply List.dropWhile_cons_of_neg
        rw [ends char rfl]
        exact Bool.false_ne_true
  have some : Nat.toDigits 10 value ≠ [] := List.ne_nil_of_length_pos Nat.length_toDigits_pos
  rw [readNatural, taken, dropped, if_neg some, Nat.ofDigitChars_ten_toDigits]

theorem digits_head (value : Nat) :
    ∃ char others, Nat.toDigits 10 value = char :: others ∧ char.isDigit = true := by
  obtain ⟨char, others, same⟩ := List.exists_cons_of_length_pos (@Nat.length_toDigits_pos 10 value)
  refine ⟨char, others, same, ?_⟩
  apply Nat.isDigit_of_mem_toDigits (by decide) (by decide : 10 ≤ 10)
  rw [same]
  exact List.mem_cons_self

theorem decimal_head (value : Int) :
    ∃ char others, decimal value = char :: others ∧ (char = '-' ∨ char.isDigit = true) := by
  cases value with
  | ofNat value =>
      obtain ⟨char, others, same, digit⟩ := digits_head value
      exact ⟨char, others, same, .inr digit⟩
  | negSucc value => exact ⟨'-', Nat.toDigits 10 (value + 1), rfl, .inl rfl⟩

theorem readNumber_decimal (value : Int) (ends : Ends rest) :
    readNumber (decimal value ++ rest) = some (value, rest) := by
  cases value with
  | ofNat value =>
      have read := digits_readNatural value ends
      obtain ⟨char, others, same, digit⟩ := digits_head value
      rw [same, List.cons_append] at read
      rw [decimal, same, List.cons_append]
      unfold readNumber
      split
      · rename_i minus
        cases minus
        cases digit
      · rw [read]
        rfl
  | negSucc value =>
      rw [decimal, List.cons_append, readNumber, digits_readNatural (value + 1) ends]
      rfl

end Tokens

section Values

variable {layout : Layout} {depth fuel : Nat} {chars rest : List Char}

theorem space_of_digit {char : Char} (digit : char.isDigit = true) : isSpace char = false := by
  unfold isSpace
  simp only [Bool.or_eq_false_iff, decide_eq_false_iff_not]
  refine ⟨⟨⟨?_, ?_⟩, ?_⟩, ?_⟩ <;>
    · rintro rfl
      cases digit

theorem render_head (value : Value) :
    ∃ char others, render layout depth value = char :: others ∧ isSpace char = false ∧
      char ≠ ']' := by
  cases value with
  | null => exact ⟨_, _, by rw [render], by decide, by decide⟩
  | bool value =>
      cases value with
      | false => exact ⟨'f', ['a', 'l', 's', 'e'], by rw [render], by decide, by decide⟩
      | true => exact ⟨'t', ['r', 'u', 'e'], by rw [render], by decide, by decide⟩
  | number value =>
      obtain ⟨char, others, same, head⟩ := decimal_head value
      refine ⟨char, others, by rw [render, same], ?_⟩
      rcases head with rfl | digit
      · exact ⟨by decide, by decide⟩
      · refine ⟨space_of_digit digit, ?_⟩
        rintro rfl
        cases digit
  | string text =>
      exact ⟨'"', text.toList.flatMap escape ++ ['"'], by rw [render, quote]; rfl, by decide,
        by decide⟩
  | array items =>
      cases items with
      | nil => exact ⟨'[', [']'], by rw [render], by decide, by decide⟩
      | cons first others => exact ⟨'[', _, by rw [render]; rfl, by decide, by decide⟩
  | object members =>
      cases members with
      | nil => exact ⟨'\x7b', ['\x7d'], by rw [render], by decide, by decide⟩
      | cons first others => exact ⟨'\x7b', _, by rw [render]; rfl, by decide, by decide⟩

theorem skip_render (value : Value) :
    skip (render layout depth value ++ rest) = render layout depth value ++ rest := by
  obtain ⟨char, others, same, apart, -⟩ := @render_head layout depth value
  rw [same, List.cons_append, skip_cons apart]

theorem ends_newline (close : Char) (apart : close.isDigit = false) :
    Ends (layout.newline depth ++ close :: rest) := by
  intro char head
  cases layout with
  | compact =>
      cases head
      exact apart
  | pretty =>
      cases head
      rfl

theorem ends_items (items : List Value) : Ends (renderItems layout depth items ++ rest) := by
  cases items with
  | nil =>
      rw [renderItems, List.append_assoc]
      exact ends_newline ']' rfl
  | cons first others =>
      intro char head
      rw [renderItems] at head
      cases head
      rfl

theorem ends_members (members : List (String × Value)) :
    Ends (renderMembers layout depth members ++ rest) := by
  cases members with
  | nil =>
      rw [renderMembers, List.append_assoc]
      exact ends_newline '\x7d' rfl
  | cons first others =>
      intro char head
      rw [renderMembers] at head
      cases head
      rfl

theorem readValue_number {value : Int} (ends : Ends rest)
    (opens : skip chars = decimal value ++ rest) :
    readValue (fuel + 1) chars = some (.number value, rest) := by
  have read := readNumber_decimal value ends
  obtain ⟨char, others, same, head⟩ := decimal_head value
  rw [same, List.cons_append] at read opens
  rw [readValue, opens]
  have apart : ∀ letter, letter ≠ '-' → letter.isDigit = false → char ≠ letter := by
    rintro letter dash plain rfl
    rcases head with minus | digit
    · exact dash minus
    · rw [plain] at digit
      cases digit
  split
  · rename_i first
    exact absurd (List.cons.inj first).1 (apart 'n' (by decide) rfl)
  · rename_i first
    exact absurd (List.cons.inj first).1 (apart 't' (by decide) rfl)
  · rename_i first
    exact absurd (List.cons.inj first).1 (apart 'f' (by decide) rfl)
  · rename_i first
    exact absurd (List.cons.inj first).1 (apart '"' (by decide) rfl)
  · rename_i first
    exact absurd (List.cons.inj first).1 (apart '[' (by decide) rfl)
  · rename_i first
    exact absurd (List.cons.inj first).1 (apart '\x7b' (by decide) rfl)
  · rw [read]
    rfl

theorem readValue_string {text : String} (enough : text.toList.length < fuel)
    (opens : skip chars = quote text ++ rest) :
    readValue (fuel + 1) chars = some (.string text, rest) := by
  rw [quote, List.append_assoc, List.cons_append] at opens
  rw [readValue, opens]
  change (readChars fuel (text.toList.flatMap escape ++ '"' :: rest)).bind _ = _
  rw [readChars_quoted enough]
  change some (Value.string (.ofList text.toList), rest) = _
  rw [String.ofList_toList]

theorem length_quote_ge (name : String) : name.toList.length + 2 ≤ (quote name).length := by
  have inner := length_le_escaped name.toList
  simp only [quote, List.length_append, List.length_cons, List.length_nil]
  omega

theorem length_render_pos (value : Value) : 0 < (render layout depth value).length := by
  obtain ⟨char, others, same, -⟩ := @render_head layout depth value
  rw [same]
  exact Nat.succ_pos _

theorem length_renderItems_pos (items : List Value) :
    0 < (renderItems layout depth items).length := by
  cases items <;> simp [renderItems]

theorem length_renderMembers_pos (members : List (String × Value)) :
    0 < (renderMembers layout depth members).length := by
  cases members <;> simp [renderMembers]

theorem readMember_of_value {name : String} {value : Value}
    (known : ∀ {fuel : Nat} {chars : List Char},
      (render layout (depth + 1) value).length ≤ fuel →
        skip chars = render layout (depth + 1) value ++ rest →
          readValue fuel chars = some (value, rest))
    (enough : (quote name).length + (render layout (depth + 1) value).length ≤ fuel) :
    readMember fuel (layout.newline (depth + 1) ++
      (quote name ++ (layout.colon ++ (render layout (depth + 1) value ++ rest)))) =
        some ((name, value), rest) := by
  have size := length_quote_ge name
  obtain ⟨fuel, rfl⟩ : ∃ less, fuel = less + 1 := ⟨fuel - 1, by omega⟩
  have steady := @skip_render layout (depth + 1) rest value
  rw [readMember, skip_newline, quote, List.append_assoc, List.cons_append, skip_cons (by decide)]
  change (readChars fuel (name.toList.flatMap escape ++ '"' :: (layout.colon ++ _))).bind _ = _
  rw [readChars_quoted (by omega)]
  cases layout with
  | compact =>
      change (readValue fuel (render .compact (depth + 1) value ++ rest)).bind _ = _
      rw [known (by omega) steady]
      change some ((String.ofList name.toList, value), rest) = _
      rw [String.ofList_toList]
  | pretty =>
      change (readValue fuel (' ' :: (render .pretty (depth + 1) value ++ rest))).bind _ = _
      rw [known (by omega) (by rw [skip, List.dropWhile_cons_of_pos (by decide)]; exact steady)]
      change some ((String.ofList name.toList, value), rest) = _
      rw [String.ofList_toList]

mutual

/-- A step for each character is enough. -/
theorem readValue_render : ∀ (value : Value) {depth fuel : Nat} {chars rest : List Char},
    (render layout depth value).length ≤ fuel → Ends rest →
      skip chars = render layout depth value ++ rest → readValue fuel chars = some (value, rest)
  | value, depth, 0, chars, rest, enough, _, _ =>
      absurd enough (Nat.not_le.mpr (length_render_pos value))
  | .null, depth, fuel + 1, chars, rest, _, _, opens => by
      rw [readValue, opens, render]
      rfl
  | .bool true, depth, fuel + 1, chars, rest, _, _, opens => by
      rw [readValue, opens, render]
      rfl
  | .bool false, depth, fuel + 1, chars, rest, _, _, opens => by
      rw [readValue, opens, render]
      rfl
  | .number value, depth, fuel + 1, chars, rest, _, ends, opens => by
      rw [render] at opens
      exact readValue_number ends opens
  | .string text, depth, fuel + 1, chars, rest, enough, _, opens => by
      rw [render] at enough opens
      have size := length_quote_ge text
      exact readValue_string (by omega) opens
  | .array [], depth, fuel + 1, chars, rest, _, _, opens => by
      rw [readValue, opens, render]
      rfl
  | .array (first :: others), depth, fuel + 1, chars, rest, enough, _, opens => by
      have more := @length_renderItems_pos layout depth others
      simp only [render, List.cons_append, List.length_cons, List.length_append] at enough
      have item := @readValue_render first (depth + 1) fuel
        (layout.newline (depth + 1) ++
          (render layout (depth + 1) first ++ (renderItems layout depth others ++ rest)))
        (renderItems layout depth others ++ rest) (by omega) (ends_items others)
        (by rw [skip_newline, skip_render])
      have items := @readItems_render others depth fuel rest (by omega)
      obtain ⟨char, tail, same, -, open'⟩ := @render_head layout (depth + 1) first
      have inner : (skip (layout.newline (depth + 1) ++
          (render layout (depth + 1) first ++ (renderItems layout depth others ++ rest)))).head? ≠
            some ']' := by
        rw [skip_newline, skip_render, same]
        intro closes
        exact open' (Option.some.inj closes)
      rw [readValue, opens, render]
      simp only [List.cons_append, List.append_assoc]
      rw [if_neg inner, item]
      simp only [Option.bind_eq_bind, Option.bind_some, items]
  | .object [], depth, fuel + 1, chars, rest, _, _, opens => by
      rw [readValue, opens, render]
      rfl
  | .object ((name, value) :: others), depth, fuel + 1, chars, rest, enough, _, opens => by
      have more := @length_renderMembers_pos layout depth others
      simp only [render, List.cons_append, List.length_cons, List.length_append] at enough
      have member := @readMember_of_value layout depth fuel
        (renderMembers layout depth others ++ rest) name value
        (fun enough opens => readValue_render value enough (ends_members others) opens) (by omega)
      have members := @readMembers_render others depth fuel rest (by omega)
      have inner : (skip (layout.newline (depth + 1) ++ (quote name ++ (layout.colon ++
          (render layout (depth + 1) value ++
            (renderMembers layout depth others ++ rest)))))).head? ≠ some '\x7d' := by
        rw [skip_newline, quote, List.append_assoc, List.cons_append, skip_cons (by decide)]
        intro closes
        cases closes
      rw [readValue, opens, render]
      simp only [List.cons_append, List.append_assoc]
      rw [if_neg inner, member]
      simp only [Option.bind_eq_bind, Option.bind_some, members]

theorem readItems_render : ∀ (items : List Value) {depth fuel : Nat} {rest : List Char},
    (renderItems layout depth items).length ≤ fuel →
      readItems fuel (renderItems layout depth items ++ rest) = some (items, rest)
  | items, depth, 0, rest, enough =>
      absurd enough (Nat.not_le.mpr (length_renderItems_pos items))
  | [], depth, fuel + 1, rest, enough => by
      rw [renderItems, List.append_assoc, readItems, skip_newline, List.singleton_append,
        skip_cons (by decide)]
      rfl
  | first :: others, depth, fuel + 1, rest, enough => by
      simp only [renderItems, List.cons_append, List.length_cons, List.length_append] at enough
      have item := @readValue_render first (depth + 1) fuel
        (layout.newline (depth + 1) ++
          (render layout (depth + 1) first ++ (renderItems layout depth others ++ rest)))
        (renderItems layout depth others ++ rest) (by omega) (ends_items others)
        (by rw [skip_newline, skip_render])
      have items := @readItems_render others depth fuel rest (by omega)
      simp only [renderItems, List.cons_append, List.append_assoc]
      rw [readItems, skip_cons (by decide)]
      simp only [item, Option.bind_eq_bind, Option.bind_some, items]

theorem readMembers_render : ∀ (members : List (String × Value)) {depth fuel : Nat}
    {rest : List Char}, (renderMembers layout depth members).length ≤ fuel →
      readMembers fuel (renderMembers layout depth members ++ rest) = some (members, rest)
  | members, depth, 0, rest, enough =>
      absurd enough (Nat.not_le.mpr (length_renderMembers_pos members))
  | [], depth, fuel + 1, rest, enough => by
      rw [renderMembers, List.append_assoc, readMembers, skip_newline, List.singleton_append,
        skip_cons (by decide)]
      rfl
  | (name, value) :: others, depth, fuel + 1, rest, enough => by
      simp only [renderMembers, List.cons_append, List.length_cons, List.length_append] at enough
      have member := @readMember_of_value layout depth fuel
        (renderMembers layout depth others ++ rest) name value
        (fun enough opens => readValue_render value enough (ends_members others) opens) (by omega)
      have members := @readMembers_render others depth fuel rest (by omega)
      simp only [renderMembers, List.cons_append, List.append_assoc]
      rw [readMembers, skip_cons (by decide)]
      simp only [member, Option.bind_eq_bind, Option.bind_some, members]

end

/-- A text in either layout is read back as the value it was printed from. -/
theorem read_render (layout : Layout) (value : Value) :
    read (render layout 0 value) = some value := by
  have taken := @readValue_render layout value 0 _ (render layout 0 value) [] (Nat.le_succ _)
    (fun _ head => by cases head) (by
      have steady := @skip_render layout 0 [] value
      rwa [List.append_nil] at steady ⊢)
  rw [read, taken]
  rfl

end Values

end Json
