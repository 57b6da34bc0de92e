import Loontail.Accounts.Headers
import Loontail.Accounts.Service

/-! # The user lookup, create and reconcile service -/

namespace Loontail.Accounts

open Concurrency Text

structure Config where
  sessionTtl : Nat
  adminSessionTtl : Nat
  cookieName : String
  yggdrasilTokenTtl : Nat
  maxTokensPerUser : Int

/-- What every handler is given besides its request. `hashPassword` takes the salt
it draws, and `toLowercase` is the one of the standard library. -/
structure AppState where
  config : Config
  hashToken : String → String
  hashPassword : (salt plain : String) → Option String
  verifyPassword : (plain hash : String) → Bool
  toLowercase : String → String

def AppState.normalizeUsername (state : AppState) (username : String) : String :=
  state.toLowercase (trim username)

/-- The values that a handler draws at random, and which of several rows the database comes
to first where it is free to choose. -/
structure Draws where
  userId : Uuid
  salt : String
  profileUuid : String
  sessionToken : String
  accessToken : String
  clientToken : String
  csrfToken : String
  choice : Nat
  deriving DecidableEq, Repr

abbrev Handler (Reply : Type) := Fallible accounts AppError Reply

def operate (operation : Operation) : Handler operation.Result :=
  @Fallible.operate accounts AppError operation

/-- `sqlx::query(…).await?`. -/
def query (statement : Statement) : Handler statement.Reply := do
  match ← operate (.statement statement) with
  | .ok reply => pure reply
  | .error error => throw (.database error)

def now : Handler Timestamp := operate .now

section Rules

variable {logic : Logic accounts} {onError : AppError → logic.Situation → Prop}
  {situation : logic.Situation}

@[simp] theorem meets_operate (operation : Operation)
    {onOk : operation.Result → logic.Situation → Prop} :
    @Fallible.Meets accounts AppError (no_index operation.Result) (operate operation) logic
        onOk onError situation ↔
      logic.admits situation operation onOk := Iff.rfl

@[simp] theorem meets_query (statement : Statement)
    {onOk : statement.Reply → logic.Situation → Prop} :
    @Fallible.Meets accounts AppError (no_index statement.Reply) (query statement) logic
        onOk onError situation ↔
      logic.admits situation (.statement statement) fun result following =>
        match result with
        | .ok reply => onOk reply following
        | .error error => onError (.database error) following := by
  rw [query, Fallible.meets_bind, meets_operate]
  refine iff_of_eq (congrArg _ ?_)
  funext result following
  cases result <;> rfl

@[simp] theorem meets_now {onOk : Timestamp → logic.Situation → Prop} :
    @Fallible.Meets accounts AppError Timestamp now logic onOk onError situation ↔
      logic.admits situation Operation.now onOk := Iff.rfl

end Rules

namespace Identity

open Fallible

def hashPassword (state : AppState) (salt plain : String) : Except AppError String :=
  match state.hashPassword salt plain with
  | some hash => .ok hash
  | none => .error (.internal "password hash failed")

def checkPasswordLen (password : String) : Except AppError Unit :=
  if password.isEmpty then .error (.badRequest "password is required")
  else if 1024 < password.utf8ByteSize then .error (.badRequest "password is too long")
  else .ok ()

/-- `reconcile_profile_uuid`; `drawn` is the identifier minted where none is kept. -/
def reconcileProfileUuid (minecraftUuid currentProfileUuid : Option String) (drawn : String) :
    Except AppError String :=
  match minecraftUuid with
  | some minecraft =>
      match undashUuid minecraft with
      | .ok profile => .ok profile
      | .error message => .error (.badRequest ("invalid minecraftUuid: " ++ message))
  | none => .ok (currentProfileUuid.getD drawn)

/-- `map_create_conflict`. -/
def createConflict (normalized email : String) : UniqueIndex → AppError
  | .normalizedUsername => .conflict ("username '" ++ normalized ++ "' is already taken")
  | .email => .conflict ("email '" ++ email ++ "' is already registered")
  | _ => .database .uniqueViolation

def uniqueOr {Value : Type} (error : UniqueIndex → AppError)
    (result : Except UniqueIndex Value) : Handler Value :=
  match result with
  | .ok value => pure value
  | .error index => throw (error index)

@[simp] theorem meets_uniqueOr {Value : Type} {logic : Logic accounts}
    {onOk : Value → logic.Situation → Prop} {onError : AppError → logic.Situation → Prop}
    {situation : logic.Situation} (error : UniqueIndex → AppError)
    (result : Except UniqueIndex Value) :
    (uniqueOr error result).Meets logic onOk onError situation ↔
      (∀ index, result = .error index → onError (error index) situation) ∧
        ∀ value, result = .ok value → onOk value situation := by
  cases result <;> simp [uniqueOr]

/-- `map_username_conflict`. -/
def usernameConflict (normalized : String) : UniqueIndex → AppError
  | .normalizedUsername => .conflict ("username '" ++ normalized ++ "' is already taken")
  | _ => .database .uniqueViolation

structure BootstrapIdentity where
  minecraftUuid : String
  username : String
  deriving DecidableEq, Repr

def refreshBootstrapRow (id : Uuid) (ident : BootstrapIdentity) (normalized : String)
    (minecraftUuid profileUuid : Option String) : Handler User := do
  let result ← query (.refreshBootstrap id {
    minecraftUuid, profileUuid, username := trim ident.username
    normalizedUsername := normalized })
  let updated ← uniqueOr (usernameConflict normalized) result
  okOr updated (.database .rowNotFound)

/-- By the Minecraft identifier, else by the profile it makes, else a new user. -/
def findOrCreateFromBootstrap (state : AppState) (ident : BootstrapIdentity) (draws : Draws) :
    Handler User := do
  let minecraftUuid := trim ident.minecraftUuid
  let username := trim ident.username
  refuse minecraftUuid.isEmpty (.badRequest "minecraftUuid is required")
  refuse username.isEmpty (.badRequest "username is required")
  let profileUuid ← lift ((undashUuid minecraftUuid).mapError fun message =>
    .badRequest ("invalid minecraftUuid: " ++ message))
  let normalized := state.normalizeUsername username
  match ← query (.selectByMinecraftUuid minecraftUuid) with
  | some existing => refreshBootstrapRow existing.id ident normalized none (some profileUuid)
  | none =>
      match ← query (.selectByProfileUuid profileUuid) with
      | some existing =>
          refreshBootstrapRow existing.id ident normalized (some minecraftUuid) none
      | none => do
          let result ← query (.insertUser {
            id := draws.userId, minecraftUuid := some minecraftUuid, username
            normalizedUsername := normalized, email := none, passwordHash := none
            profileUuid := some profileUuid, confirmed := false, blocked := false
            isAdmin := false })
          uniqueOr (usernameConflict normalized) result

def assignOrReconcileProfileUuid (user : User) (draws : Draws) : Handler User := do
  let desired ← lift (reconcileProfileUuid user.minecraftUuid user.profileUuid draws.profileUuid)
  if user.profileUuid = some desired then pure user
  else do
    let result ← query (.setProfileUuid user.id desired)
    let updated ← uniqueOr (fun _ => .database .uniqueViolation) result
    okOr updated (.database .rowNotFound)

/-- The checks of `authenticate_password` on the row it found: a stored hash that
the password verifies, not blocked, confirmed. -/
def passwordAccepted (state : AppState) (password : String) (user : User) : Bool :=
  match user.passwordHash with
  | some hash => state.verifyPassword password hash && !user.blocked && user.confirmed
  | none => false

def authenticatePassword (state : AppState) (identifier password : String) (draws : Draws) :
    Handler User := do
  let identifier := trim identifier
  refuse (identifier.isEmpty || password.isEmpty) .forbidden
  let user ← query (.selectByIdentifier (state.normalizeUsername identifier) draws.choice)
  let user ← okOr user .forbidden
  refuse (!passwordAccepted state password user) .forbidden
  assignOrReconcileProfileUuid user draws

structure AdminCreateUser where
  username : String
  email : String
  password : String
  minecraftUuid : Option String
  isAdmin : Bool
  deriving DecidableEq, Repr

/-- An identifier that is blank counts as none. -/
def suppliedMinecraftUuid (minecraftUuid : Option String) : Option String :=
  (minecraftUuid.map trim).filter fun text => !text.isEmpty

def adminCreateUser (state : AppState) (input : AdminCreateUser) (draws : Draws) :
    Handler User := do
  let username := trim input.username
  let email := trim input.email
  refuse username.isEmpty (.badRequest "username is required")
  refuse email.isEmpty (.badRequest "email is required")
  lift (checkPasswordLen input.password)
  let minecraftUuid := suppliedMinecraftUuid input.minecraftUuid
  let normalized := state.normalizeUsername username
  let passwordHash ← lift (hashPassword state draws.salt input.password)
  let profileUuid ← lift (reconcileProfileUuid minecraftUuid none draws.profileUuid)
  let result ← query (.insertUser {
    id := draws.userId, minecraftUuid, username, normalizedUsername := normalized
    email := some email, passwordHash := some passwordHash
    profileUuid := some profileUuid, confirmed := true, blocked := false
    isAdmin := input.isAdmin })
  uniqueOr (createConflict normalized email) result

def registerUser (state : AppState) (username email password : String) (draws : Draws) :
    Handler User := do
  let username := trim username
  let email := trim email
  refuse username.isEmpty (.badRequest "username is required")
  refuse (!isValidEmail email) (.badRequest "a valid email is required")
  lift (checkPasswordLen password)
  let normalized := state.normalizeUsername username
  let passwordHash ← lift (hashPassword state draws.salt password)
  let result ← query (.insertUser {
    id := draws.userId, minecraftUuid := none, username, normalizedUsername := normalized
    email := some email, passwordHash := some passwordHash
    profileUuid := some draws.profileUuid, confirmed := true, blocked := false
    isAdmin := false })
  uniqueOr (createConflict normalized email) result

def loadUser (id : Uuid) : Handler User := do
  let user ← query (.selectUser id)
  okOr user (.notFound "user not found")

structure UpdateUser where
  username : Option String
  email : Option String
  isAdmin : Option Bool
  confirmed : Option Bool
  deriving DecidableEq, Repr

def UpdateUser.columns (state : AppState) (patch : UpdateUser) : Sql.UpdateUser where
  username := patch.username
  normalizedUsername := patch.username.map state.normalizeUsername
  email := patch.email
  isAdmin := patch.isAdmin
  confirmed := patch.confirmed

def updateUser (state : AppState) (id : Uuid) (patch : UpdateUser) : Handler User := do
  let normalized := patch.username.map state.normalizeUsername
  let result ← query (.updateUser id (patch.columns state))
  let updated ← uniqueOr (createConflict (normalized.getD "") (patch.email.getD "")) result
  okOr updated (.notFound "user not found")

def setPassword (state : AppState) (id : Uuid) (new salt : String) : Handler Unit := do
  lift (checkPasswordLen new)
  let hash ← lift (hashPassword state salt new)
  let affected ← query (.setPassword id hash)
  refuse (affected = 0) (.notFound "user not found")

def setBlocked (id : Uuid) (blocked : Bool) : Handler User := do
  let user ← query (.setBlocked id blocked)
  okOr user (.notFound "user not found")

def block (id : Uuid) : Handler User := setBlocked id true

def unblock (id : Uuid) : Handler User := setBlocked id false

end Identity

end Loontail.Accounts
