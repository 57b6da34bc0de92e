import Loontail.Core.Text
import Loontail.Encoding.Base64
import Loontail.Encoding.Json
import Loontail.Encoding.Utf8
import Loontail.Server.PublicUrl
import Loontail.Yggdrasil.Uuid

/-! # The textures value, and the repair of base64

The value of a profile's textures is a JSON text in base64. Where the padding of such a text is
missing it is added; what cannot be repaired is refused. -/

namespace Loontail.Yggdrasil

open Base64 Text
open Server (SkinInput CapeInput)

/-! ## The textures value -/

structure TextureMetadata where
  model : String
  deriving DecidableEq, Repr

structure TextureEntry where
  url : String
  metadata : Option TextureMetadata
  deriving DecidableEq, Repr

structure TexturesValue where
  skin : Option TextureEntry
  cape : Option TextureEntry
  deriving DecidableEq, Repr

structure TexturesPayload where
  timestamp : Int
  profileId : String
  profileName : String
  textures : TexturesValue
  deriving DecidableEq, Repr

inductive PayloadError where
  | invalidProfileId
  | emptyProfileName
  deriving DecidableEq, Repr

structure TexturesPayloadInput where
  profileId : String
  profileName : String
  timestamp : Int
  skin : Option SkinInput
  cape : Option CapeInput
  deriving DecidableEq, Repr

def skinEntry (input : SkinInput) : TextureEntry where
  url := .ofList input.url
  metadata :=
    match input.variant with
    | .slim => some ⟨"slim"⟩
    | .classic => none

def capeEntry (input : CapeInput) : TextureEntry := ⟨.ofList input.url, none⟩

def buildTexturesPayload (input : TexturesPayloadInput) : Except PayloadError TexturesPayload :=
  if !isUuidUndashed input.profileId then .error .invalidProfileId
  else if input.profileName = "" then .error .emptyProfileName
  else
    .ok
      { timestamp := input.timestamp
        profileId := toAsciiLowercase input.profileId
        profileName := input.profileName
        textures := ⟨input.skin.map skinEntry, input.cape.map capeEntry⟩ }

def TextureEntry.json (entry : TextureEntry) : Json.Value :=
  .object (("url", .string entry.url) ::
    (entry.metadata.map fun metadata =>
      ("metadata", .object [("model", .string metadata.model)])).toList)

def TexturesValue.json (textures : TexturesValue) : Json.Value :=
  .object ((textures.skin.map fun skin => ("SKIN", skin.json)).toList ++
    (textures.cape.map fun cape => ("CAPE", cape.json)).toList)

def TexturesPayload.json (payload : TexturesPayload) : Json.Value :=
  .object [("timestamp", .number payload.timestamp), ("profileId", .string payload.profileId),
    ("profileName", .string payload.profileName), ("textures", payload.textures.json)]

def encodeTexturesValue (payload : TexturesPayload) : String :=
  .ofList (Base64.encode (Utf8.bytes (Json.render .compact 0 payload.json)))

def buildTexturesValue (input : TexturesPayloadInput) : Except PayloadError String :=
  (buildTexturesPayload input).map encodeTexturesValue

example : buildTexturesValue
      { profileId := "F84C6A790A4E45E0879F0E478DE5CB7E", profileName := "Notch"
        timestamp := 1700000000000, cape := none
        skin := some ⟨"https://textures.example.com/skin/abc.png".toList, .slim⟩ } =
    .ok ("eyJ0aW1lc3RhbXAiOjE3MDAwMDAwMDAwMDAsInByb2ZpbGVJZCI6ImY4NGM2YTc5MGE0ZTQ1ZTA4NzlmMGU0" ++
      "NzhkZTVjYjdlIiwicHJvZmlsZU5hbWUiOiJOb3RjaCIsInRleHR1cmVzIjp7IlNLSU4iOnsidXJsIjoiaHR0cHM6" ++
      "Ly90ZXh0dXJlcy5leGFtcGxlLmNvbS9za2luL2FiYy5wbmciLCJtZXRhZGF0YSI6eyJtb2RlbCI6InNsaW0ifX19" ++
      "fQ==") := by
  decide +kernel

def TextureMetadata.ofJson (value : Json.Value) : Option TextureMetadata := do
  let model ← value.get "model" >>= Json.Value.asStr
  some { model }

def TextureEntry.ofJson (value : Json.Value) : Option TextureEntry := do
  let url ← value.get "url" >>= Json.Value.asStr
  let metadata ← value.getOptional "metadata" TextureMetadata.ofJson
  some { url, metadata }

def TexturesValue.ofJson (value : Json.Value) : Option TexturesValue := do
  let skin ← value.getOptional "SKIN" TextureEntry.ofJson
  let cape ← value.getOptional "CAPE" TextureEntry.ofJson
  some { skin, cape }

def TexturesPayload.ofJson (value : Json.Value) : Option TexturesPayload := do
  let timestamp ← value.get "timestamp" >>= Json.Value.asInt
  let profileId ← value.get "profileId" >>= Json.Value.asStr
  let profileName ← value.get "profileName" >>= Json.Value.asStr
  let textures ← value.get "textures" >>= TexturesValue.ofJson
  some { timestamp, profileId, profileName, textures }

def readTexturesValue (value : String) : Option TexturesPayload := do
  let bytes ← Base64.decode value.toList
  let text ← Utf8.read bytes
  let json ← Json.read text
  TexturesPayload.ofJson json

theorem TextureEntry.ofJson_json (entry : TextureEntry) : ofJson entry.json = some entry := by
  obtain ⟨url, metadata⟩ := entry
  cases metadata <;> rfl

theorem TexturesValue.ofJson_json (textures : TexturesValue) :
    ofJson textures.json = some textures := by
  obtain ⟨skin, cape⟩ := textures
  have missing : ∀ {name : String} {value : Json.Value}, value.get name = none →
      value.getOptional name TextureEntry.ofJson = some none := by
    intro name value absent
    rw [Json.Value.getOptional, absent]
  have present : ∀ {name : String} {value : Json.Value} {entry : TextureEntry},
      value.get name = some entry.json →
        value.getOptional name TextureEntry.ofJson = some (some entry) := by
    intro name value entry found
    rw [Json.Value.getOptional, found]
    exact congrArg (Option.map some) (TextureEntry.ofJson_json entry)
  cases skin <;> cases cape
  · rfl
  · rw [ofJson, missing rfl, present rfl]
    rfl
  · rw [ofJson, present rfl, missing rfl]
    rfl
  · rw [ofJson, present rfl, present rfl]
    rfl

theorem read_encodeTexturesValue (payload : TexturesPayload) :
    readTexturesValue (encodeTexturesValue payload) = some payload := by
  rw [readTexturesValue, encodeTexturesValue, String.toList_ofList, Base64.decode_encode]
  simp only [Option.bind_eq_bind, Option.bind_some, Utf8.read_bytes, Json.read_render]
  change (TexturesValue.ofJson payload.textures.json).bind _ = _
  rw [TexturesValue.ofJson_json]
  rfl

/-! ## The repair of base64 -/

inductive Base64Error where
  | empty
  | whitespace
  | badLength
  | badAlphabet
  deriving DecidableEq, Repr

/-- The characters from a byte index on, where `size` is the length of the whole in bytes. -/
def scanBase64 (size index : Nat) (seenPad : Bool) (padCount : Nat) :
    List Char → Except Base64Error Unit
  | [] => .ok ()
  | char :: rest =>
      if isSymbol char then
        if seenPad then .error .badAlphabet
        else scanBase64 size (index + char.utf8Size) seenPad padCount rest
      else if char = '=' then
        if 2 < padCount + 1 || index < size - 2 then .error .badAlphabet
        else scanBase64 size (index + char.utf8Size) true (padCount + 1) rest
      else .error .badAlphabet

def missingPadding (size : Nat) : Nat := if size % 4 = 0 then 0 else 4 - size % 4

def normalizeBase64 (encoded : String) : Except Base64Error String :=
  let size := (Utf8.bytes encoded.toList).length
  if encoded = "" then .error .empty
  else if trim encoded ≠ encoded then .error .whitespace
  else if size % 4 = 1 then .error .badLength
  else
    match scanBase64 size 0 false 0 encoded.toList with
    | .error error => .error error
    | .ok () => .ok (encoded ++ .ofList (List.replicate (missingPadding size) '='))

example : normalizeBase64 "TWE" = .ok "TWE=" ∧ normalizeBase64 "TW*u" = .error .badAlphabet ∧
    normalizeBase64 "TWFu " = .error .whitespace ∧ normalizeBase64 "TWFuX" = .error .badLength := by
  decide +kernel

/-! ## What is accepted -/

section Accepted

variable {chars body : List Char} {padding size index padCount : Nat}

theorem isSymbol_ascii {char : Char} (symbol : isSymbol char = true) : char.toNat < 128 := by
  simp only [isSymbol, Bool.or_eq_true, Bool.and_eq_true, decide_eq_true_eq, Char.le_def,
    UInt32.le_iff_toNat_le] at symbol
  rcases symbol with (((upper | lower) | digit) | rfl) | rfl
  · exact Nat.lt_of_le_of_lt upper.2 (by decide)
  · exact Nat.lt_of_le_of_lt lower.2 (by decide)
  · exact Nat.lt_of_le_of_lt digit.2 (by decide)
  · decide
  · decide

theorem padded_ascii (padded : Padded chars body padding) : ∀ char ∈ chars, char.toNat < 128 := by
  intro char member
  rw [padded.whole, List.mem_append] at member
  rcases member with symbol | pad
  · exact isSymbol_ascii (padded.symbols char symbol)
  · rw [List.eq_of_mem_replicate pad]
    decide

theorem scan_pads (seen : scanBase64 size index true padCount chars = .ok ()) :
    chars = List.replicate chars.length '=' ∧ padCount + chars.length ≤ max 2 padCount := by
  induction chars generalizing index padCount with
  | nil => exact ⟨rfl, Nat.le_max_right 2 padCount⟩
  | cons char rest induction =>
      simp only [scanBase64, if_true] at seen
      split at seen
      · cases seen
      · split at seen
        · rename_i pad
          split at seen
          · cases seen
          · rename_i few
            simp only [Bool.or_eq_true, decide_eq_true_eq, not_or, Nat.not_lt] at few
            obtain ⟨pads, count⟩ := induction seen
            constructor
            · rw [List.length_cons, List.replicate_succ, ← pads, pad]
            · rw [List.length_cons]
              omega
        · cases seen

theorem scan_padded (seen : scanBase64 size index false 0 chars = .ok ()) :
    ∃ body padding, Padded chars body padding ∧ padding ≤ 2 := by
  induction chars generalizing index with
  | nil => exact ⟨[], 0, ⟨rfl, nofun⟩, Nat.zero_le 2⟩
  | cons char rest induction =>
      rw [scanBase64] at seen
      split at seen
      · rename_i symbol
        obtain ⟨body, padding, padded, few⟩ := induction seen
        have one : ∀ other ∈ [char], isSymbol other = true := by
          intro other member
          rw [List.mem_singleton.mp member]
          exact symbol
        exact ⟨[char] ++ body, padding, padded.prepend one, few⟩
      · split at seen
        · rename_i pad
          split at seen
          · cases seen
          · obtain ⟨pads, count⟩ := scan_pads seen
            refine ⟨[], rest.length + 1, ⟨?_, nofun⟩, by omega⟩
            rw [List.nil_append, List.replicate_succ, ← pads, pad]
        · cases seen

theorem scan_of_pads (late : size ≤ index + 2) (few : padCount + padding ≤ 2) (seenPad : Bool) :
    scanBase64 size index seenPad padCount (List.replicate padding '=') = .ok () := by
  induction padding generalizing index padCount seenPad with
  | zero => rfl
  | succ rest induction =>
      have plain : isSymbol '=' = false := by decide
      rw [List.replicate_succ, scanBase64, plain]
      have inside : ¬(decide (2 < padCount + 1) || decide (index < size - 2)) = true := by
        simp only [Bool.or_eq_true, decide_eq_true_eq, not_or, Nat.not_lt]
        omega
      rw [if_neg Bool.false_ne_true, if_pos rfl, if_neg inside]
      exact induction (by omega) (by omega) true

theorem scan_of_padded (symbols : ∀ char ∈ body, isSymbol char = true) (few : padding ≤ 2)
    (whole : size = index + body.length + padding) :
    scanBase64 size index false 0 (body ++ List.replicate padding '=') = .ok () := by
  induction body generalizing index with
  | nil =>
      rw [List.length_nil] at whole
      exact scan_of_pads (by omega) (by omega) false
  | cons char rest induction =>
      rw [List.forall_mem_cons] at symbols
      rw [List.cons_append, scanBase64, if_pos symbols.1, if_neg Bool.false_ne_true]
      refine induction symbols.2 ?_
      rw [Utf8.utf8Size_ascii (isSymbol_ascii symbols.1), whole, List.length_cons]
      omega

theorem trim_of_padded {encoded : String} (padded : Padded encoded.toList body padding) :
    trim encoded = encoded := by
  have plain : ∀ code < 128, isSymbol (Char.ofNat code) = true →
      isWhitespace (Char.ofNat code) = false := by decide +kernel
  rw [trim, trimChars_of_plain, String.ofList_toList]
  intro char member
  rw [padded.whole, List.mem_append] at member
  rcases member with symbol | pad
  · have symbol := padded.symbols char symbol
    have here := plain char.toNat (isSymbol_ascii symbol)
    rw [Char.ofNat_toNat] at here
    exact here symbol
  · rw [List.eq_of_mem_replicate pad]
    decide

/-- What is accepted, and what is made of it. -/
theorem normalizeBase64_ok {encoded normalized : String} :
    normalizeBase64 encoded = .ok normalized ↔ encoded ≠ "" ∧
      (∃ body padding, Padded encoded.toList body padding ∧ padding ≤ 2) ∧
      encoded.toList.length % 4 ≠ 1 ∧
      normalized.toList =
        encoded.toList ++ List.replicate (missingPadding encoded.toList.length) '=' := by
  have made : ∀ size, (.ok (encoded ++ .ofList (List.replicate (missingPadding size) '=')) :
      Except Base64Error String) = .ok normalized ↔
        normalized.toList = encoded.toList ++ List.replicate (missingPadding size) '=' := by
    intro size
    rw [Except.ok.injEq, ← String.toList_inj, String.toList_append, String.toList_ofList, eq_comm]
  constructor
  · intro accepted
    simp only [normalizeBase64] at accepted
    split at accepted
    · cases accepted
    · rename_i present
      split at accepted
      · cases accepted
      · split at accepted
        · cases accepted
        · rename_i fits
          split at accepted
          · cases accepted
          · rename_i scanned
            obtain ⟨body, padding, padded, few⟩ := scan_padded scanned
            rw [Utf8.length_bytes (padded_ascii padded)] at fits accepted
            exact ⟨present, ⟨body, padding, padded, few⟩, fits, (made _).mp accepted⟩
  · rintro ⟨present, ⟨body, padding, padded, few⟩, fits, whole⟩
    have size := Utf8.length_bytes (padded_ascii padded)
    have scanned : scanBase64 encoded.toList.length 0 false 0 encoded.toList = .ok () := by
      have all := scan_of_padded padded.symbols few
        (by rw [padded.length, Nat.zero_add] : encoded.toList.length = 0 + body.length + padding)
      rwa [← padded.whole] at all
    simp only [normalizeBase64, size]
    rw [if_neg present, if_neg (not_not.mpr (trim_of_padded padded)), if_neg fits, scanned]
    exact (made _).mpr whole

end Accepted

end Loontail.Yggdrasil
