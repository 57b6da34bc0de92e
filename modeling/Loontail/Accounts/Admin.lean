import Loontail.Accounts.Credentials
import Loontail.Core.Text
import Loontail.Core.Paging

/-! # Administration of users

Every handler returns the administrator it served beside the body of the reply. -/

namespace Loontail.Accounts

structure AdminUserDto where
  id : Uuid
  username : String
  email : Option String
  minecraftUuid : Option String
  profileUuid : Option String
  confirmed : Bool
  blocked : Bool
  isAdmin : Bool
  deriving DecidableEq, Repr

def User.adminView (user : User) : AdminUserDto where
  id := user.id
  username := user.username
  email := user.email
  minecraftUuid := user.minecraftUuid
  profileUuid := user.profileUuid
  confirmed := user.confirmed
  blocked := user.blocked
  isAdmin := user.isAdmin

structure AdminMeResponse where
  id : Uuid
  username : String
  email : Option String
  isAdmin : Bool
  deriving DecidableEq, Repr

def User.adminMe (user : User) : AdminMeResponse where
  id := user.id
  username := user.username
  email := user.email
  isAdmin := user.isAdmin

namespace Admin

open Concurrency Fallible Credentials Identity

def guardLastAdmin (target : Uuid) : Handler Unit := do
  let targetIsUsableAdmin ← query (.isUsableAdmin target)
  whenever targetIsUsableAdmin do
    let usableAdmins ← query .countUsableAdmins
    refuse (usableAdmins ≤ 1) (.conflict "cannot remove the last admin")

/-- `POST /admin/users`. -/
def create (state : AppState) (parts : Parts) (body : AdminCreateUser) (draws : Draws) :
    Handler (Uuid × AdminUserDto) := do
  let admin ← adminUser state parts
  let user ← adminCreateUser state body draws
  pure (admin.id, user.adminView)

/-- `GET /admin/users/{id}`. -/
def get (state : AppState) (parts : Parts) (id : Uuid) : Handler (Uuid × AdminUserDto) := do
  let admin ← adminUser state parts
  let user ← loadUser id
  pure (admin.id, user.adminView)

/-- `PATCH /admin/users/{id}`: a demotion is guarded, and revokes the sessions. -/
def patch (state : AppState) (parts : Parts) (id : Uuid) (body : UpdateUser) :
    Handler (Uuid × AdminUserDto) := do
  let admin ← adminUser state parts
  whenever (body.isAdmin = some false) (guardLastAdmin id)
  let user ← updateUser state id body
  whenever (body.isAdmin = some false) do
    let _ ← query (.revokeAllSessions id)
    pure ()
  pure (admin.id, user.adminView)

/-- `DELETE /admin/users/{id}`. -/
def delete (state : AppState) (parts : Parts) (id : Uuid) : Handler Uuid := do
  let admin ← adminUser state parts
  let _ ← loadUser id
  guardLastAdmin id
  let _ ← query (.deleteUser id)
  pure admin.id

/-- `POST /admin/users/{id}/block`. -/
def blockUser (state : AppState) (parts : Parts) (id : Uuid) :
    Handler (Uuid × AdminUserDto) := do
  let admin ← adminUser state parts
  guardLastAdmin id
  let user ← block id
  pure (admin.id, user.adminView)

/-- `POST /admin/users/{id}/unblock`. -/
def unblockUser (state : AppState) (parts : Parts) (id : Uuid) :
    Handler (Uuid × AdminUserDto) := do
  let admin ← adminUser state parts
  let user ← unblock id
  pure (admin.id, user.adminView)

def revokeCredentials (id : Uuid) : Handler Unit := do
  let _ ← query (.revokeAllSessions id)
  let _ ← query (.deleteAllTokens id)
  pure ()

/-- `POST /admin/users/{id}/reset-password`. -/
def resetPassword (state : AppState) (parts : Parts) (id : Uuid) (password : String)
    (draws : Draws) : Handler Uuid := do
  let admin ← adminUser state parts
  setPassword state id password draws.salt
  revokeCredentials id
  pure admin.id

/-- `POST /admin/users/{id}/revoke-tokens`. -/
def revokeTokens (state : AppState) (parts : Parts) (id : Uuid) : Handler Uuid := do
  let admin ← adminUser state parts
  let _ ← loadUser id
  revokeCredentials id
  pure admin.id

/-! ## The panel's own session -/

structure SessionCookies where
  session : IssuedSession
  csrf : String
  deriving DecidableEq, Repr

/-- `POST /admin/auth/login`: a correct password of another user is refused. -/
def login (state : AppState) (body : Account.LoginRequest) (draws : Draws) :
    Handler (SessionCookies × AdminMeResponse) := do
  let user ← authenticatePassword state body.username body.password draws
  refuse (!user.isAdmin) .forbidden
  let session ← issueSession state user.id state.config.adminSessionTtl draws.sessionToken
  pure ({ session, csrf := draws.csrfToken }, user.adminMe)

/-- `POST /admin/auth/logout`. -/
def logout (state : AppState) (headers : Headers) : Handler Unit :=
  match headers.cookieValue state.config.cookieName with
  | some token => do
      let _ ← revokeSession state token
      pure ()
  | none => pure ()

/-- `GET /admin/auth/me`. -/
def me (state : AppState) (parts : Parts) : Handler AdminMeResponse := do
  let admin ← adminUser state parts
  pure admin.adminMe

end Admin

/-! ## The search of the account list

The condition under which `search_users` counts and lists a user. -/

section Listing

open Relational Text

/-- The pattern of a query, `none` where the query lists all users. -/
def AppState.searchPattern (state : AppState) (query : String) : Option String :=
  let trimmed := trim query
  if trimmed = "" then none
  else some (.ofList ('%' :: (escapeLikePattern (state.toLowercase trimmed).toList ++ ['%'])))

/-- `normalized_username LIKE $1 ESCAPE '\' OR lower(email) LIKE $1 ESCAPE '\'`. -/
def User.searched (lower : String → String) (pattern : String) (user : User) : Bool :=
  like pattern.toList user.normalizedUsername.toList ||
    (user.email.map lower).any fun email => like pattern.toList email.toList

/-- The users that `search_users` counts and orders into pages. -/
def AppState.searchUsers (state : AppState) (query : String) (database : Database) : List User :=
  match state.searchPattern query with
  | none => database.users.rows
  | some pattern => database.users.rows.filter (User.searched database.lower pattern)

theorem mem_searchUsers (state : AppState) (query : String) (database : Database) (user : User) :
    user ∈ state.searchUsers query database ↔ user ∈ database.users.rows ∧
      (trim query = "" ∨
        (state.toLowercase (trim query)).toList <:+: user.normalizedUsername.toList ∨
        ∃ email ∈ user.email, (state.toLowercase (trim query)).toList <:+:
          (database.lower email).toList) := by
  unfold AppState.searchUsers AppState.searchPattern
  by_cases empty : trim query = ""
  · simp [empty]
  · cases given : user.email <;> simp [empty, given, User.searched, like_contains]

/-! ## The list -/

structure StoredUser extends User where
  createdAt : Timestamp
  deriving DecidableEq, Repr

/-- `ORDER BY created_at DESC`. -/
def StoredUser.recency (user : StoredUser) : Timestamp := -user.createdAt

def userPageSize : Int64 := 25

def searchOffset (page : Int64) : Int64 := pageOffset userPageSize page

/-- The condition of `search_users`, or none where the query is empty. -/
def AppState.selectedUsers (state : AppState) (lower : String → String) (query : String)
    (rows : List StoredUser) : List StoredUser :=
  match state.searchPattern query with
  | none => rows
  | some pattern => rows.filter fun user => user.toUser.searched lower pattern

/-- `search_users`, with the page count that the handler adds to its answer. -/
def AppState.searchUserPage (state : AppState) (lower : String → String) (query : String)
    (rows : List StoredUser) (arrangement : Arrangement StoredUser.recency) (page : Int64) :
    Option (Listing StoredUser) :=
  listPage userPageSize
    (fun total => if 0 < userPageSize then (total + userPageSize - 1) / userPageSize else 0)
    (state.selectedUsers lower query rows) arrangement page

def AppState.listUsers (state : AppState) (lower : String → String) (query : Option String)
    (page : Option Int64) (rows : List StoredUser)
    (arrangement : Arrangement StoredUser.recency) : Option (Listing StoredUser) :=
  state.searchUserPage lower (query.getD "") rows arrangement (page.getD 1)

end Listing

end Loontail.Accounts
