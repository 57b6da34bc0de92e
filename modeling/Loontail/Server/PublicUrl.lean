import Loontail.Core.Text
import Mathlib.Data.List.DropRight

/-! # Where textures are linked and where they are mounted

One setting, the public URL, is read twice: the signed profiles build texture
links from it, and the router takes its mount from it. Texts are lists of
characters here. -/

namespace Loontail.Text

/-- `trim_end_matches` with one character. -/
def trimEndMatches (char : Char) (chars : List Char) : List Char :=
  chars.rdropWhile (· = char)

def splitAround (separator : List Char) : List Char → Option (List Char × List Char)
  | [] => if separator = [] then some ([], []) else none
  | char :: rest =>
      if separator.isPrefixOf (char :: rest) then
        some ([], (char :: rest).drop separator.length)
      else (splitAround separator rest).map fun (before, after) => (char :: before, after)

end Loontail.Text

namespace Loontail.Server

open Text

/-! ## The public URL -/

def parsePublicUrl (publicUrl : List Char) : Option (List Char) × List Char :=
  match splitAround "://".toList publicUrl with
  | none => (none, publicUrl)
  | some (scheme, rest) =>
      let authority := rest.takeWhile (· ≠ '/')
      -- no authority: what follows the scheme is a path
      if authority = [] then (none, rest)
      else (some (scheme ++ "://".toList ++ authority), rest.dropWhile (· ≠ '/'))

/-- The mount of the Yggdrasil router inside the `/api` subtree. -/
def yggdrasilApiSuffix (publicUrl : List Char) : List Char :=
  let trimmed := trimEndMatches '/' (parsePublicUrl publicUrl).2
  match stripLeading "/api" trimmed with
  | some suffix => if suffix ≠ [] then suffix else "/yggdrasil".toList
  | none => "/yggdrasil".toList

def yggdrasilMountPrefix (apiSuffix : List Char) : List Char := "/api".toList ++ apiSuffix

/-! ## The `/api` subtree

The Yggdrasil router hangs in it beside the others, at a path that is not known before the
start. A table that the router refuses stops the service: there is none then. -/

namespace Api

inductive Verb where
  | get
  | post
  | put
  | delete
deriving DecidableEq, Repr

structure Route where
  verb : Verb
  path : List Char
deriving DecidableEq, Repr

def catalogRoutes : List Route :=
  [⟨.get, "/clients".toList⟩,
    ⟨.get, "/clients/{id}".toList⟩,
    ⟨.get, "/keywords".toList⟩,
    ⟨.get, "/keywords/{id}".toList⟩,
    ⟨.get, "/servers".toList⟩,
    ⟨.get, "/servers/{id}".toList⟩]

def accountRoutes : List Route :=
  [⟨.post, "/login".toList⟩,
    ⟨.post, "/register".toList⟩,
    ⟨.post, "/refresh".toList⟩,
    ⟨.post, "/logout".toList⟩,
    ⟨.get, "/me".toList⟩]

def yggdrasilRoutes : List Route :=
  [⟨.post, "/authserver/authenticate".toList⟩,
    ⟨.post, "/authserver/refresh".toList⟩,
    ⟨.post, "/authserver/validate".toList⟩,
    ⟨.post, "/authserver/invalidate".toList⟩,
    ⟨.post, "/sessionserver/session/minecraft/join".toList⟩,
    ⟨.get, "/sessionserver/session/minecraft/hasJoined".toList⟩,
    ⟨.get, "/sessionserver/session/minecraft/profile/{uuid}".toList⟩,
    ⟨.post, "/api/profiles/minecraft".toList⟩,
    ⟨.get, "/".toList⟩]

def textureRoutes : List Route :=
  [⟨.get, "/{segment}".toList⟩,
    ⟨.put, "/{segment}".toList⟩,
    ⟨.delete, "/{segment}".toList⟩,
    ⟨.get, "/{segment}/{kind}".toList⟩]

def bundleRoutes : List Route :=
  [⟨.get, "/builds/{slug}/manifest".toList⟩,
    ⟨.get, "/builds/{slug}/files/{*path}".toList⟩]

/-- The root of a nested router is at the path of the nest itself. -/
def nested (mount : List Char) (inner : List Route) : List Route :=
  inner.map fun route =>
    { route with path := if route.path = ['/'] then mount else mount ++ route.path }

/-- The paths that a nest may have. A segment may not start as captures once did. -/
def nestable (mount : List Char) : Bool :=
  mount.head? = some '/' && mount ≠ ['/'] &&
    (split '/' mount).all fun segment =>
      segment.head? ≠ some ':' && segment.head? ≠ some '*'

/-- `.nest`. No path has two handlers for one method. -/
def nest (mount : List Char) (inner router : List Route) : Option (List Route) :=
  if nestable mount && router.all fun route => !(nested mount inner).contains route then
    some (router ++ nested mount inner)
  else none

/-- The subtree that `build_router` makes; `tree` is whether the captures in the paths agree,
which the router checks as it puts the paths into its tree. -/
def router (tree : List (List Char) → Bool) (suffix : List Char) : Option (List Route) := do
  let api ← nest "/auth".toList accountRoutes catalogRoutes
  let yggdrasil ← nest "/textures".toList textureRoutes yggdrasilRoutes
  let api ← nest suffix yggdrasil api
  let api ← nest "/bundle-registry".toList bundleRoutes api
  if tree (api.map (·.path)) then some api else none

end Api

/-- Where `build_router` nests the texture routes, when the router is made. -/
def textureMounts (tree : List (List Char) → Bool) (publicUrl : List Char) :
    Option (List (List Char)) :=
  (Api.router tree (yggdrasilApiSuffix publicUrl)).map fun _ =>
    ["/textures".toList,
      yggdrasilMountPrefix (yggdrasilApiSuffix publicUrl) ++ "/textures".toList]

/-- The route `/{segment}/{kind}`: two segments below the mount. -/
def captures (mount path : List Char) : Bool :=
  mount.isPrefixOf path &&
    match path.drop mount.length with
    | '/' :: rest =>
        match splitOnce '/' rest with
        | some (segment, kind) => segment ≠ [] && kind ≠ [] && !kind.contains '/'
        | none => false
    | _ => false

def servesTexture (tree : List (List Char) → Bool) (publicUrl path : List Char) : Bool :=
  (textureMounts tree publicUrl).any fun mounts => mounts.any (captures · path)

/-! ## Texture links -/

def textureUrl (profileUuid kind : List Char) : List Char :=
  "/textures/".toList ++ profileUuid ++ '/' :: kind

def isAbsolute (url : List Char) : Bool :=
  "http://".toList.isPrefixOf url || "https://".toList.isPrefixOf url

def absolutize (publicBase url : List Char) : List Char :=
  if isAbsolute url then url
  else
    let base := trimEndMatches '/' publicBase
    if url.head? = some '/' then base ++ url else base ++ '/' :: url

def texturePublicUrl (publicBase profileUuid kind : List Char) : List Char :=
  absolutize publicBase (textureUrl profileUuid kind)

inductive SkinVariant where
  | classic
  | slim
deriving DecidableEq, Repr

def parseVariant (raw : String) : SkinVariant :=
  if eqIgnoreAsciiCase raw "SLIM" then .slim else .classic

structure UserTextures where
  skinVariant : Option String
  hasCape : Bool
deriving DecidableEq, Repr

/-- One row of `user_textures`. -/
structure TextureRow where
  kind : String
  variant : Option String
deriving DecidableEq, Repr

def loadTextures (rows : List TextureRow) : UserTextures :=
  rows.foldl (fun textures row =>
    if row.kind = "skin" then { textures with skinVariant := some (row.variant.getD "") }
    else if row.kind = "cape" then { textures with hasCape := true }
    else textures) ⟨none, false⟩

structure SkinInput where
  url : List Char
  variant : SkinVariant
deriving DecidableEq, Repr

structure CapeInput where
  url : List Char
deriving DecidableEq, Repr

structure TexturesPayload where
  skin : Option SkinInput
  cape : Option CapeInput
deriving DecidableEq, Repr

/-- The textures `build_profile` signs; a user with none gets no property. -/
def profileTextures (publicBase profileUuid : List Char) (rows : List TextureRow) :
    Option TexturesPayload :=
  let textures := loadTextures rows
  if textures.skinVariant.isSome || textures.hasCape then
    some
      { skin := textures.skinVariant.map fun variant =>
          ⟨texturePublicUrl publicBase profileUuid "skin".toList, parseVariant variant⟩
        cape := if textures.hasCape then
            some ⟨texturePublicUrl publicBase profileUuid "cape".toList⟩
          else none }
  else none

def TexturesPayload.urls (payload : TexturesPayload) : List (List Char) :=
  (payload.skin.map (·.url)).toList ++ (payload.cape.map (·.url)).toList

end Loontail.Server
