import Loontail.Accounts.Identity

/-! # Sessions and Yggdrasil tokens -/

namespace Loontail.Accounts

open Concurrency

namespace Credentials

open Fallible

structure IssuedSession where
  token : String
  expiresAt : Timestamp
  deriving DecidableEq, Repr

/-- A lifetime that does not fit is replaced by seven days. -/
def issueSession (state : AppState) (userId : Uuid) (ttl : Nat) (token : String) :
    Handler IssuedSession := do
  let issuedAt ← now
  let expiresAt := issuedAt + ttlOrElse ttl (7 * 86400)
  query (.insertSession userId (state.hashToken token) expiresAt)
  pure { token, expiresAt }

def userFromToken (state : AppState) (token : String) : Handler User := do
  let user ← query (.userFromToken (state.hashToken token))
  okOr user .unauthorized

def revokeSession (state : AppState) (token : String) : Handler Nat :=
  query (.revokeSession (state.hashToken token))

/-! ## Extractors -/

/-- `AuthUser`: a mutation by cookie passes the double-submit check first. -/
def authUser (state : AppState) (parts : Parts) : Handler User := do
  let presented ← okOr (sessionToken parts.headers state.config.cookieName) .unauthorized
  whenever (presented.2 = .cookie && parts.method.isMutating) (lift (verifyCsrf parts.headers))
  userFromToken state presented.1

def adminUser (state : AppState) (parts : Parts) : Handler User := do
  let user ← authUser state parts
  refuse (!user.isAdmin) .forbidden
  pure user

theorem authUser_refused {state : AppState} {parts : Parts}
    (noBearer : parts.headers.bearerToken = none)
    (unproven : parts.headers.cookieValue state.config.cookieName = none ∨
      parts.method.isMutating = true ∧ csrfMatches parts.headers = false) :
    ∃ error, authUser state parts = throw error := by
  unfold authUser sessionToken
  rw [noBearer]
  rcases presented : parts.headers.cookieValue state.config.cookieName with _ | token
  · exact ⟨.unauthorized, rfl⟩
  · rcases unproven with absent | ⟨mutates, unmatched⟩
    · cases presented.symm.trans absent
    · refine ⟨.forbidden, ?_⟩
      simp only [Option.map_some, verifyCsrf_eq, unmatched, mutates]
      rfl

theorem adminUser_refused {state : AppState} {parts : Parts} {error : AppError}
    (refused : authUser state parts = throw error) : adminUser state parts = throw error := by
  unfold adminUser
  rw [refused]
  rfl

/-! ## Yggdrasil tokens -/

structure YggdrasilTokens where
  accessToken : String
  clientToken : String
  expiresAt : Timestamp
  deriving DecidableEq, Repr

/-- A supplied client token is kept; the user's oldest pairs beyond the cap go. -/
def issueYggdrasilTokens (state : AppState) (userId : Uuid) (clientToken : Option String)
    (draws : Draws) : Handler YggdrasilTokens := do
  let clientToken := clientToken.getD draws.clientToken
  let issuedAt ← now
  let expiresAt := issuedAt + ttlOrElse state.config.yggdrasilTokenTtl (15 * 86400)
  query (.insertToken userId (state.hashToken draws.accessToken) clientToken expiresAt)
  whenever (state.config.maxTokensPerUser > 0) do
    let _ ← query (.evictTokens userId state.config.maxTokensPerUser)
    pure ()
  pure { accessToken := draws.accessToken, clientToken, expiresAt }

/-- The checks that validation and refresh share: a live pair, the client token
where one is supplied, an eligible user. -/
def eligibleUser (state : AppState) (accessToken : String) (clientToken : Option String) :
    Handler (User × Uuid × String) := do
  let row ← query (.selectToken (state.hashToken accessToken))
  let row ← okOr row .forbidden
  refuse (clientToken.any fun supplied => supplied ≠ row.2) .forbidden
  let user ← query (.selectUser row.1)
  let user ← okOr user .forbidden
  refuse (user.blocked || !user.confirmed) .forbidden
  pure (user, row)

def validateYggdrasil (state : AppState) (accessToken : String) (clientToken : Option String) :
    Handler User := do
  let eligible ← eligibleUser state accessToken clientToken
  pure eligible.1

def refreshYggdrasil (state : AppState) (accessToken : String) (clientToken : Option String)
    (draws : Draws) : Handler (User × YggdrasilTokens) := do
  let eligible ← eligibleUser state accessToken clientToken
  let _ ← query (.deleteToken (state.hashToken accessToken) none)
  let tokens ← issueYggdrasilTokens state eligible.2.1 (some eligible.2.2) draws
  pure (eligible.1, tokens)

def invalidateYggdrasil (state : AppState) (accessToken : String)
    (clientToken : Option String) : Handler Nat :=
  query (.deleteToken (state.hashToken accessToken) clientToken)

end Credentials

/-! ## The account surface of launchers and agents

One login yields a session token and a Yggdrasil pair. Handlers return the user
they served beside the body of the reply. -/

structure AccountDto where
  id : Uuid
  username : String
  email : Option String
  uuid : Option String
  isAdmin : Bool
  deriving DecidableEq, Repr

def User.account (user : User) : AccountDto where
  id := user.id
  username := user.username
  email := user.email
  uuid := user.profileUuid
  isAdmin := user.isAdmin

structure AuthResponse where
  session : Credentials.IssuedSession
  minecraft : Credentials.YggdrasilTokens
  profile : AccountDto
  deriving DecidableEq, Repr

namespace Account

open Concurrency Fallible Credentials Identity

def authResponse (state : AppState) (user : User) (draws : Draws) : Handler AuthResponse := do
  let session ← issueSession state user.id state.config.sessionTtl draws.sessionToken
  let minecraft ← issueYggdrasilTokens state user.id none draws
  pure { session, minecraft, profile := user.account }

structure LoginRequest where
  username : String
  password : String
  deriving DecidableEq, Repr

/-- `POST /api/auth/login`. -/
def login (state : AppState) (body : LoginRequest) (draws : Draws) : Handler AuthResponse := do
  let user ← authenticatePassword state body.username body.password draws
  authResponse state user draws

structure RegisterRequest where
  username : String
  email : String
  password : String
  deriving DecidableEq, Repr

/-- `POST /api/auth/register`. -/
def register (state : AppState) (body : RegisterRequest) (draws : Draws) :
    Handler AuthResponse := do
  let user ← registerUser state body.username body.email body.password draws
  authResponse state user draws

def revokePresented (state : AppState) (headers : Headers) : Handler Unit :=
  match sessionTokenFromHeaders headers state.config.cookieName with
  | some token => do
      let _ ← revokeSession state token
      pure ()
  | none => pure ()

/-- `POST /api/auth/refresh`: the presented session is revoked and a fresh one issued. -/
def refresh (state : AppState) (parts : Parts) (draws : Draws) : Handler AuthResponse := do
  let user ← authUser state parts
  revokePresented state parts.headers
  authResponse state user draws

/-- `POST /api/auth/logout`. -/
def logout (state : AppState) (headers : Headers) : Handler Unit :=
  revokePresented state headers

/-- `GET /api/auth/me`. -/
def me (state : AppState) (parts : Parts) : Handler AccountDto := do
  let user ← authUser state parts
  pure user.account

/-- What `POST /users/bootstrap` of the network domain does to its account; the
presence row it also writes is the network's. -/
def bootstrap (state : AppState) (parts : Parts) (minecraftUuid : String) :
    Handler AccountDto := do
  let auth ← authUser state parts
  let result ← query (.bindMinecraft auth.id (Text.trim minecraftUuid))
  let user ← uniqueOr (fun index => match index with
    | .minecraftUuid =>
        .conflict "this Minecraft account is already linked to another user"
    | _ => .database .uniqueViolation) result
  let user ← okOr user (.database .rowNotFound)
  pure user.account

end Account

end Loontail.Accounts
