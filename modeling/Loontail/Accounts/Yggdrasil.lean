import Loontail.Accounts.Credentials

/-! # The Yggdrasil endpoints

What the game and its servers call. Errors stand as they are before they are put
into Mojang's envelope; the texture properties of a profile are left out. -/

namespace Loontail.Accounts

structure ProfileSummary where
  id : String
  name : String
  deriving DecidableEq, Repr

structure YggdrasilSession where
  accessToken : String
  clientToken : String
  availableProfiles : List ProfileSummary
  selectedProfile : ProfileSummary
  user : Option Uuid
  deriving DecidableEq, Repr

structure ProfileIdentity where
  userId : Uuid
  profileUuid : String
  username : String
  deriving DecidableEq, Repr

namespace Yggdrasil

open Concurrency Fallible Credentials Identity Text

/-- A user without a profile has nothing to select and is refused. -/
def sessionDocument (user : User) (tokens : YggdrasilTokens) (requestUser : Bool) :
    Except AppError YggdrasilSession :=
  match user.profileUuid with
  | some profileUuid =>
      let selected : ProfileSummary := { id := profileUuid, name := user.username }
      .ok { accessToken := tokens.accessToken, clientToken := tokens.clientToken
            availableProfiles := [selected], selectedProfile := selected
            user := if requestUser then some user.id else none }
  | none => .error .forbidden

structure AuthenticateRequest where
  username : String
  password : String
  clientToken : Option String
  requestUser : Bool
  deriving DecidableEq, Repr

/-- `POST /authserver/authenticate`; no pair is minted without a profile. -/
def authenticate (state : AppState) (body : AuthenticateRequest) (draws : Draws) :
    Handler (Uuid × YggdrasilSession) := do
  let user ← authenticatePassword state body.username body.password draws
  refuse user.profileUuid.isNone .forbidden
  let tokens ← issueYggdrasilTokens state user.id body.clientToken draws
  let document ← lift (sessionDocument user tokens body.requestUser)
  pure (user.id, document)

/-- `selectedProfileId` is the `id` of a selected profile, where it has one, and
`some none` when that is no string. -/
structure RefreshRequest where
  accessToken : String
  clientToken : Option String
  requestUser : Bool
  selectedProfileId : Option (Option String)
  deriving DecidableEq, Repr

/-- `POST /authserver/refresh`. -/
def refresh (state : AppState) (body : RefreshRequest) (draws : Draws) :
    Handler (Uuid × YggdrasilSession) := do
  let refreshed ← refreshYggdrasil state body.accessToken body.clientToken draws
  let profileUuid ← okOr refreshed.1.profileUuid .forbidden
  refuse (body.selectedProfileId.any fun selected => selected ≠ some profileUuid) .forbidden
  let document ← lift (sessionDocument refreshed.1 refreshed.2 body.requestUser)
  pure (refreshed.1.id, document)

structure TokenPair where
  accessToken : String
  clientToken : Option String
  deriving DecidableEq, Repr

/-- `POST /authserver/validate`. -/
def validate (state : AppState) (body : TokenPair) : Handler Uuid := do
  let user ← validateYggdrasil state body.accessToken body.clientToken
  pure user.id

/-- `POST /authserver/invalidate`. -/
def invalidate (state : AppState) (body : TokenPair) : Handler Unit := do
  let _ ← invalidateYggdrasil state body.accessToken body.clientToken
  pure ()

structure JoinRequest where
  accessToken : String
  selectedProfile : String
  serverId : String
  deriving DecidableEq, Repr

def claims (selectedProfile profileUuid : String) : Bool :=
  match undashUuid selectedProfile with
  | .ok claimed => claimed = profileUuid
  | .error _ => false

/-- `POST /sessionserver/session/minecraft/join`. -/
def join (state : AppState) (body : JoinRequest) : Handler Uuid := do
  let user ← validateYggdrasil state body.accessToken none
  let profileUuid ← okOr user.profileUuid .forbidden
  refuse (!claims body.selectedProfile profileUuid) .forbidden
  let recordedAt ← now
  operate (.recordJoin recordedAt body.serverId
    { userId := user.id, ip := none
      expiresAt := recordedAt + durationSeconds joinSessionTtlSeconds })
  pure user.id

structure HasJoinedQuery where
  username : String
  serverId : String
  ip : Option String
  deriving DecidableEq, Repr

/-- Compared only where both the record and the query have an address. -/
def ipDiffers : Option String → Option String → Bool
  | some recorded, some queried => recorded ≠ queried
  | _, _ => false

def joinedProfile (session : JoinSession) (username : String) :
    Handler (Option ProfileIdentity) := do
  let user ← loadUser session.userId
  if eqIgnoreAsciiCase user.username (trim username) then do
    let profileUuid ← okOr user.profileUuid .forbidden
    pure (some { userId := user.id, profileUuid, username := user.username })
  else pure none

/-- `GET /sessionserver/session/minecraft/hasJoined`; `none` is 204. -/
def hasJoined (params : HasJoinedQuery) : Handler (Option ProfileIdentity) := do
  let askedAt ← now
  let session ← operate (.takeJoin askedAt params.serverId)
  match session with
  | none => pure none
  | some session =>
      if ipDiffers session.ip params.ip then pure none
      else joinedProfile session params.username

end Yggdrasil

end Loontail.Accounts
