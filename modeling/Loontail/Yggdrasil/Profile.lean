import Loontail.Accounts.Yggdrasil
import Loontail.Textures.Service
import Loontail.Yggdrasil.Payload

/-! # Profiles and the textures in them

The game gets a user's textures inside a signed value, the launcher from a lookup. Both read the
rows of the registry, in whatever order the database returns them. -/

namespace Loontail.Yggdrasil

open Relational Server Text Textures
open Accounts (ProfileIdentity)

/-! ## Profiles -/

inductive YggError where
  | badRequest (message : String)
  | forbidden
  | notFound
  | internal
  deriving DecidableEq, Repr

def YggError.ofAppError : AppError → YggError
  | .badRequest _ => badRequest "Invalid request."
  | .unauthorized | .forbidden | .tooManyRequests => forbidden
  | .notFound _ => notFound
  | .conflict _ => badRequest "Conflict."
  | .database _ | .internal _ => internal

structure ProfileProperty where
  name : String
  value : String
  signature : Option String
  deriving DecidableEq, Repr

structure GameProfile where
  id : String
  name : String
  properties : List ProfileProperty
  deriving DecidableEq, Repr

/-- What `sign_value` makes of a value, or nothing where the key fails. -/
abbrev SigningKey := String → Option String

def signature (signing : Option SigningKey) (value : String) : Except YggError (Option String) :=
  match signing with
  | none => .ok none
  | some sign =>
      match sign value with
      | some signature => .ok (some signature)
      | none => .error .internal

/-- `queried` is the answer of the query for the user's texture rows. -/
def buildProfile (publicBase : List Char) (identity : ProfileIdentity)
    (queried : Except DatabaseError (List TextureRow)) (timestamp : Int)
    (signing : Option SigningKey) : Except YggError GameProfile := do
  let rows ← queried.mapError (YggError.ofAppError ∘ AppError.database)
  let textures := loadTextures rows
  let link (kind : String) := texturePublicUrl publicBase identity.profileUuid.toList kind.toList
  if textures.skinVariant.isSome || textures.hasCape then
    let input : TexturesPayloadInput :=
      { profileId := identity.profileUuid
        profileName := identity.username
        timestamp
        skin := textures.skinVariant.map fun variant => ⟨link "skin", Server.parseVariant variant⟩
        cape := if textures.hasCape then some ⟨link "cape"⟩ else none }
    let value ← (buildTexturesValue input).mapError fun _ => .internal
    let signature ← signature signing value
    .ok ⟨identity.profileUuid, identity.username, [⟨"textures", value, signature⟩]⟩
  else .ok ⟨identity.profileUuid, identity.username, []⟩

/-! ## The lookup of the launcher -/

structure LookupSkin where
  url : List Char
  variant : Textures.SkinVariant
  deriving DecidableEq, Repr

structure LookupCape where
  url : List Char
  deriving DecidableEq, Repr

structure TexturesLookupResponse where
  skin : Option LookupSkin
  cape : Option LookupCape
  deriving DecidableEq, Repr

/-- Against the origin of the public URL, where it has one. -/
def absolutizeUrl (publicUrl relative : List Char) : List Char :=
  match (parsePublicUrl publicUrl).1 with
  | some origin => origin ++ relative
  | none => relative

def lookupResponse (publicUrl : List Char) (profileUuid : String) (rows : List TextureRow) :
    TexturesLookupResponse :=
  rows.foldl (fun response row =>
    let url := absolutizeUrl publicUrl (relativeTextureUrl profileUuid row.kind).toList
    match TextureKind.parse row.kind with
    | some .skin =>
        { response with skin := some ⟨url, Textures.parseVariant (row.variant.getD "")⟩ }
    | some .cape => { response with cape := some ⟨url⟩ }
    | none => response) ⟨none, none⟩

/-- `owner` is what `resolve_user_id` answers about a profile, `queried` what the query for the
texture rows of a user does. -/
def lookup (publicUrl : List Char) (uuid : String)
    (owner : String → Except DatabaseError (Option Loontail.Uuid))
    (queried : Loontail.Uuid → Except DatabaseError (List TextureRow)) :
    Except AppError TexturesLookupResponse := do
  let profileUuid ← (Text.undashUuid uuid).mapError fun _ => .badRequest "invalid profile uuid"
  match ← (owner profileUuid).mapError .database with
  | none => .ok ⟨none, none⟩
  | some userId =>
      let rows ← (queried userId).mapError .database
      .ok (lookupResponse publicUrl profileUuid rows)

/-! ## The body of the answer -/

def ProfileProperty.json (property : ProfileProperty) : Json.Value :=
  .object ([("name", .string property.name), ("value", .string property.value)] ++
    (property.signature.map fun signature => ("signature", .string signature)).toList)

/-- Without properties the member is left out. -/
def GameProfile.json (profile : GameProfile) : Json.Value :=
  .object ([("id", .string profile.id), ("name", .string profile.name)] ++
    if profile.properties = [] then []
    else [("properties", .array (profile.properties.map ProfileProperty.json))])

def GameProfile.body (profile : GameProfile) : List UInt8 :=
  Utf8.bytes (Json.render .compact 0 profile.json)

def ProfileProperty.ofJson (value : Json.Value) : Option ProfileProperty := do
  let name ← value.get "name" >>= Json.Value.asStr
  let text ← value.get "value" >>= Json.Value.asStr
  let signature ← value.getOptional "signature" Json.Value.asStr
  some { name, value := text, signature }

def GameProfile.ofJson (value : Json.Value) : Option GameProfile := do
  let id ← value.get "id" >>= Json.Value.asStr
  let name ← value.get "name" >>= Json.Value.asStr
  let properties ← ((value.get "properties").getD (.array [])).asArray ProfileProperty.ofJson
  some { id, name, properties }

def GameProfile.parse (body : List UInt8) : Option GameProfile := do
  let text ← Utf8.read body
  let json ← Json.read text
  ofJson json

theorem ProfileProperty.ofJson_json (property : ProfileProperty) :
    ofJson property.json = some property := by
  obtain ⟨name, value, signature⟩ := property
  cases signature <;> rfl

theorem GameProfile.ofJson_json (profile : GameProfile) : ofJson profile.json = some profile := by
  obtain ⟨id, name, properties⟩ := profile
  cases properties with
  | nil => rfl
  | cons first rest =>
      have listed := Json.Value.asArray_map ProfileProperty.ofJson_json (first :: rest)
      rw [json, if_neg (List.cons_ne_nil first rest)]
      change ((Json.Value.array _).asArray ProfileProperty.ofJson).bind _ = _
      rw [listed]
      rfl

theorem GameProfile.parse_body (profile : GameProfile) : parse profile.body = some profile := by
  rw [parse, body, Utf8.read_bytes]
  simp only [Option.bind_eq_bind, Option.bind_some, Json.read_render]
  exact ofJson_json profile

/-! ## What the rows of a user come to -/

/-- `kind` and `variant` of a row. -/
def columns (row : Texture) : TextureRow where
  kind := row.kind.asStr
  variant := row.variant.map variantStr

section Rows

variable {registry : Keyed Texture.key} {userId : Loontail.Uuid} {rows : List Texture} {kind : TextureKind}

/-- What a query for a user's textures may return. -/
def Fetched (registry : Keyed Texture.key) (userId : Loontail.Uuid) (rows : List Texture) : Prop :=
  rows.Perm (registry.rows.filter fun row => row.userId = userId)

instance : Decidable (Fetched registry userId rows) := inferInstanceAs (Decidable (List.Perm _ _))

theorem Fetched.distinct (fetched : Fetched registry userId rows) :
    (rows.map Texture.kind).Nodup := by
  refine (fetched.map Texture.kind).nodup_iff.mpr (List.Nodup.of_map (userId, ·) ?_)
  have keys : ((registry.rows.filter fun row => row.userId = userId).map Texture.key).Nodup :=
    registry.distinct.sublist (List.filter_sublist.map Texture.key)
  rw [List.map_map]
  refine List.map_congr_left (fun row member => ?_) ▸ keys
  rw [Texture.key, of_decide_eq_true (List.mem_filter.mp member).2]
  rfl

theorem Fetched.find (fetched : Fetched registry userId rows) :
    rows.find? (fun row => row.kind = kind) = registry.find (userId, kind) := by
  let shelf : Keyed Texture.kind := ⟨rows, fetched.distinct⟩
  refine Option.ext fun row => ?_
  have here : shelf.find kind = some row ↔ row ∈ rows ∧ row.kind = kind := Keyed.find_eq_some
  rw [Keyed.find_eq_some, Prod.mk.injEq, ← and_assoc, ← here.trans (and_congr_left fun _ => ?_)]
  · rfl
  · rw [fetched.mem_iff, List.mem_filter, decide_eq_true_eq]

theorem foldl_kinds {State : Type} {step : State → Texture → State}
    (make : Option Texture → Option Texture → State)
    (skin : ∀ cape row, row.kind = .skin → step (make none cape) row = make (some row) cape)
    (cape : ∀ skin row, row.kind = .cape → step (make skin none) row = make skin (some row))
    (distinct : (rows.map Texture.kind).Nodup) :
    rows.foldl step (make none none) =
      make (rows.find? fun row => row.kind = .skin) (rows.find? fun row => row.kind = .cape) := by
  induction rows using List.reverseRecOn with
  | nil => rfl
  | append_singleton rest row induction =>
      rw [List.map_append, List.map_singleton] at distinct
      obtain ⟨earlier, -, apart⟩ := List.nodup_append.mp distinct
      have first : rest.find? (fun other => other.kind = row.kind) = none := by
        refine List.find?_eq_none.mpr fun other member same => ?_
        exact apart _ (List.mem_map_of_mem member) _ List.mem_cons_self (of_decide_eq_true same)
      rw [List.foldl_append, induction earlier, List.find?_append, List.find?_append]
      cases kind : row.kind with
      | skin =>
          rw [kind] at first
          simp only [List.foldl_cons, List.foldl_nil, first, List.find?_cons, kind]
          simpa using skin _ row kind
      | cape =>
          rw [kind] at first
          simp only [List.foldl_cons, List.foldl_nil, first, List.find?_cons, kind]
          simpa using cape _ row kind

/-- A row without a variant counts as classic, as the stored text of one does. -/
theorem parseVariant_text (variant : Option Textures.SkinVariant) :
    Textures.parseVariant ((variant.map variantStr).getD "") = variant.getD .classic := by
  cases variant with
  | none => rfl
  | some variant => cases variant <;> rfl

theorem slim_text (variant : Option Textures.SkinVariant) :
    Server.parseVariant ((variant.map variantStr).getD "") =
      if variant = some .slim then .slim else .classic := by
  cases variant with
  | none => rfl
  | some variant => cases variant <;> decide

theorem loadTextures_columns (distinct : (rows.map Texture.kind).Nodup) :
    loadTextures (rows.map columns) =
      { skinVariant := (rows.find? fun row => row.kind = .skin).map fun row =>
          (row.variant.map variantStr).getD ""
        hasCape := (rows.find? fun row => row.kind = .cape).isSome } := by
  rw [loadTextures, List.foldl_map]
  refine foldl_kinds (fun skin cape => (⟨skin.map fun row => (row.variant.map variantStr).getD "",
    cape.isSome⟩ : UserTextures)) (fun cape row kind => ?_) (fun skin row kind => ?_) distinct
  · rw [columns, kind]
    rfl
  · rw [columns, kind]
    rfl

theorem lookupResponse_columns {publicUrl : List Char} {profileUuid : String}
    (distinct : (rows.map Texture.kind).Nodup) :
    lookupResponse publicUrl profileUuid (rows.map columns) =
      { skin := (rows.find? fun row => row.kind = .skin).map fun row =>
          { url := absolutizeUrl publicUrl (relativeTextureUrl profileUuid "skin").toList
            variant := row.variant.getD .classic }
        cape := (rows.find? fun row => row.kind = .cape).map fun _ =>
          { url := absolutizeUrl publicUrl (relativeTextureUrl profileUuid "cape").toList } } := by
  rw [lookupResponse, List.foldl_map]
  refine foldl_kinds (fun skin cape => (⟨skin.map fun row => ⟨_, row.variant.getD .classic⟩,
    cape.map fun _ => ⟨_⟩⟩ : TexturesLookupResponse)) (fun cape row kind => ?_)
    (fun skin row kind => ?_) distinct
  · rw [columns, kind]
    change (⟨some ⟨_, Textures.parseVariant _⟩, _⟩ : TexturesLookupResponse) = _
    rw [parseVariant_text]
    rfl
  · rw [columns, kind]
    rfl

end Rows

/-! ## What the game reads -/

def registeredTextures (publicBase : List Char) (identity : ProfileIdentity)
    (registry : Keyed Texture.key) : TexturesValue :=
  let link (kind : String) : String :=
    .ofList (texturePublicUrl publicBase identity.profileUuid.toList kind.toList)
  { skin := (registry.find (identity.userId, .skin)).map fun row =>
      { url := link "skin"
        metadata := if row.variant = some .slim then some ⟨"slim"⟩ else none }
    cape := (registry.find (identity.userId, .cape)).map fun _ =>
      { url := link "cape", metadata := none } }

section Served

variable {publicBase publicUrl : List Char} {identity : ProfileIdentity} {timestamp : Int}
  {registry : Keyed Texture.key} {rows : List Texture} {signing : Option SigningKey}

theorem entries_fetched (fetched : Fetched registry identity.userId rows) :
    let textures := loadTextures (rows.map columns)
    let link (kind : String) := texturePublicUrl publicBase identity.profileUuid.toList kind.toList
    (⟨(textures.skinVariant.map fun variant => ⟨link "skin", Server.parseVariant variant⟩).map
        skinEntry, (if textures.hasCape then some ⟨link "cape"⟩ else none).map capeEntry⟩ :
          TexturesValue) = registeredTextures publicBase identity registry := by
  intro textures link
  have loaded := loadTextures_columns fetched.distinct
  rw [fetched.find, fetched.find] at loaded
  simp only [textures, loaded, registeredTextures]
  congr 1
  · cases registry.find (identity.userId, .skin) with
    | none => rfl
    | some row =>
        simp only [Option.map_some, slim_text, skinEntry]
        by_cases slim : row.variant = some .slim <;> simp only [slim, if_true, if_false] <;> rfl
  · cases registry.find (identity.userId, .cape) <;> rfl

/-- Without a registered texture there is no property; else there is one. -/
theorem buildProfile_fetched (fetched : Fetched registry identity.userId rows) :
    buildProfile publicBase identity (.ok (rows.map columns)) timestamp signing =
      if registeredTextures publicBase identity registry = ⟨none, none⟩ then
        .ok ⟨identity.profileUuid, identity.username, []⟩
      else if isUuidUndashed identity.profileUuid = false ∨ identity.username = "" then
        .error .internal
      else
        let value := encodeTexturesValue
          { timestamp, profileId := toAsciiLowercase identity.profileUuid
            profileName := identity.username
            textures := registeredTextures publicBase identity registry }
        (signature signing value).map fun signature =>
          ⟨identity.profileUuid, identity.username, [⟨"textures", value, signature⟩]⟩ := by
  rw [← @entries_fetched publicBase identity registry rows fetched]
  simp only [buildProfile, Except.mapError, bind, Except.bind]
  generalize loadTextures (rows.map columns) = textures
  obtain ⟨variant, hasCape⟩ := textures
  simp only
  generalize made : variant.map (fun variant => (⟨_, Server.parseVariant variant⟩ : SkinInput)) = skin
  generalize given : (if hasCape = true then some (⟨_⟩ : CapeInput) else none) = cape
  have present : (variant.isSome || hasCape) = true ↔
      ¬(⟨skin.map skinEntry, cape.map capeEntry⟩ : TexturesValue) = ⟨none, none⟩ := by
    subst made given
    cases variant <;> cases hasCape <;> simp
  by_cases none : (⟨skin.map skinEntry, cape.map capeEntry⟩ : TexturesValue) = ⟨none, none⟩
  · rw [if_neg fun some => present.mp some none, if_pos none]
  · rw [if_pos (present.mpr none), if_neg none]
    simp only [buildTexturesValue, buildTexturesPayload]
    cases undashed : isUuidUndashed identity.profileUuid with
    | false => rfl
    | true =>
        by_cases named : identity.username = ""
        · rw [if_neg (by decide), if_pos named, if_pos (.inr named)]
          rfl
        · rw [if_neg (by decide), if_neg named, if_neg (by simpa using named)]
          simp only [Except.map]

/-- What the game reads from the answer about a user's profile is what the user has registered,
signed as it was asked for, and the launcher's lookup tells of the same textures. -/
theorem profile_exact {lookedUp : List Texture} {profile : GameProfile} {uuid : String}
    {owner : String → Except DatabaseError (Option Loontail.Uuid)}
    {queried : Loontail.Uuid → Except DatabaseError (List TextureRow)}
    (fetched : Fetched registry identity.userId rows)
    (again : Fetched registry identity.userId lookedUp)
    (built : buildProfile publicBase identity (.ok (rows.map columns)) timestamp signing =
      .ok profile)
    (asked : Text.undashUuid uuid = .ok identity.profileUuid)
    (owned : owner identity.profileUuid = .ok (some identity.userId))
    (found : queried identity.userId = .ok (lookedUp.map columns)) :
    let textures := registeredTextures publicBase identity registry
    (∃ properties, GameProfile.parse profile.body =
        some ⟨identity.profileUuid, identity.username, properties⟩ ∧
      (properties = [] ↔ ∀ kind, registry.find (identity.userId, kind) = none) ∧
      ∀ property ∈ properties, properties = [property] ∧ property.name = "textures" ∧
        signature signing property.value = .ok property.signature ∧
        readTexturesValue property.value =
          some { timestamp, profileId := toAsciiLowercase identity.profileUuid
                 profileName := identity.username, textures }) ∧
      ∃ response, lookup publicUrl uuid owner queried = .ok response ∧
        response.skin.map (fun skin => decide (skin.variant = .slim)) =
          textures.skin.map (fun skin => skin.metadata.isSome) ∧
        response.cape.isSome = textures.cape.isSome := by
  intro textures
  have empty : textures = ⟨none, none⟩ ↔ ∀ kind, registry.find (identity.userId, kind) = none := by
    simp only [textures, registeredTextures, TexturesValue.mk.injEq, Option.map_eq_none_iff]
    constructor
    · rintro ⟨skin, cape⟩ kind
      cases kind
      · exact skin
      · exact cape
    · exact fun all => ⟨all .skin, all .cape⟩
  have answered := @lookupResponse_columns lookedUp publicUrl identity.profileUuid again.distinct
  rw [again.find, again.find] at answered
  have responds : lookup publicUrl uuid owner queried =
      .ok (lookupResponse publicUrl identity.profileUuid (lookedUp.map columns)) := by
    simp only [lookup, asked, Except.mapError, bind, Except.bind, owned, found]
  refine ⟨⟨profile.properties, ?_⟩, _, responds, ?_, ?_⟩
  · rw [GameProfile.parse_body, ← empty]
    rw [buildProfile_fetched fetched] at built
    split at built
    · rename_i none
      cases built
      exact ⟨rfl, iff_of_true rfl none, fun _ member => by cases member⟩
    · rename_i some
      split at built
      · cases built
      · simp only [Except.map] at built
        split at built
        · cases built
        · rename_i signed
          cases built
          refine ⟨rfl, iff_of_false (List.cons_ne_nil _ _) some, fun property member => ?_⟩
          obtain rfl := List.mem_singleton.mp member
          exact ⟨rfl, rfl, signed, read_encodeTexturesValue _⟩
  · simp only [answered, textures, registeredTextures, Option.map_map]
    congr 1
    funext row
    rw [Function.comp_apply, Function.comp_apply]
    cases row.variant with
    | none => rfl
    | some variant => cases variant <;> rfl
  · simp only [answered, textures, registeredTextures, Option.isSome_map]

end Served

/-- A slim skin and a cape, whose row names the user as another profile. -/
def wardrobe : Keyed Texture.key :=
  let row (kind : TextureKind) (variant : Option Textures.SkinVariant) : Texture :=
    { userId := 1, kind, profileUuid := "ffffffffffffffffffffffffffffffff", username := "Steve"
      filePath := [], fileUrl := "", fileSize := 100, variant, updatedAt := 0 }
  (Keyed.empty.upsert (row .skin (some .slim))).upsert (row .cape none)

def steve : ProfileIdentity := ⟨1, "11111111222233334444555555555555", "Steve"⟩

theorem profile_exact_wardrobe : ∃ profile properties,
    buildProfile "https://auth.loontail.dev/api/yggdrasil".toList steve
        (.ok (wardrobe.rows.reverse.map columns)) 1700000000000 (some some) = .ok profile ∧
      GameProfile.parse profile.body = some ⟨steve.profileUuid, "Steve", properties⟩ ∧
      properties ≠ [] ∧
    ∃ response, lookup [] "11111111-2222-3333-4444-555555555555"
        (fun profileUuid => .ok (if profileUuid = steve.profileUuid then some 1 else none))
        (fun userId => .ok ((wardrobe.rows.filter (·.userId = userId)).map columns)) =
          .ok response ∧ response.cape.isSome = true := by
  have fetched : Fetched wardrobe steve.userId wardrobe.rows.reverse := by decide +kernel
  obtain ⟨profile, built⟩ : ∃ profile, buildProfile
      "https://auth.loontail.dev/api/yggdrasil".toList steve
        (.ok (wardrobe.rows.reverse.map columns)) 1700000000000 (some some) = .ok profile := by
    rw [buildProfile_fetched fetched]
    exact ⟨_, rfl⟩
  have again : Fetched wardrobe steve.userId wardrobe.rows := by decide +kernel
  obtain ⟨⟨properties, parsed, present, -⟩, response, responds, -, cape⟩ := @profile_exact
    "https://auth.loontail.dev/api/yggdrasil".toList [] steve 1700000000000 wardrobe
    wardrobe.rows.reverse (some some) wardrobe.rows profile "11111111-2222-3333-4444-555555555555"
    (fun profileUuid => .ok (if profileUuid = steve.profileUuid then some 1 else none))
    (fun userId => .ok ((wardrobe.rows.filter (·.userId = userId)).map columns)) fetched again
    built (by decide +kernel) (by decide +kernel) (by decide +kernel)
  have skin : wardrobe.find (steve.userId, .skin) ≠ none := by decide +kernel
  exact ⟨profile, properties, built, parsed, fun none => skin (present.mp none .skin),
    response, responds, cape.trans (by decide +kernel)⟩

end Loontail.Yggdrasil
