import Loontail.Accounts.Admin
import Loontail.Accounts.Yggdrasil
import Loontail.Core.Realtime

/-! # What the account domain is asked to do

A request carries the headers or the body by which its caller is recognised, and
the values that the handler draws at random. A reply names the user as whom it
was served. -/

namespace Loontail.Accounts

open Concurrency Relational

namespace Sockets

open Fallible Credentials

/-- `GET /signaling`, up to the upgrade: bearer first, then `?token=`. -/
def signalingWs (state : AppState) (headers : Headers) (token : Option String) :
    Handler Uuid := do
  let token ← okOr (headers.bearerToken.orElse fun _ => token) .unauthorized
  let user ← userFromToken state token
  pure user.id

structure RelayQuery where
  token : Option String
  role : String
  deriving DecidableEq, Repr

/-- Single-use: a valid ticket is consumed at once. -/
def validateGuestTicket (state : AppState) (relay : RelaySession) (token : String) :
    Handler Unit := do
  let ticketId ← okOr relay.joinTicketId (.conflict "relay session has no ticket")
  let valid ← query (.ticketValid ticketId (state.hashToken token) relay.guestUserId)
  refuse (!valid) .unauthorized
  let _ ← query (.consumeTicket ticketId)
  pure ()

/-- The host proves itself by session, the guest by ticket. -/
def authenticate (state : AppState) (relay : RelaySession) (role token : String) :
    Handler (Option Uuid) :=
  match role with
  | "host" => do
      let user ← userFromToken state token
      refuse (user.id ≠ relay.hostUserId) .forbidden
      pure (some user.id)
  | "guest" => do
      validateGuestTicket state relay token
      pure relay.guestUserId
  | _ => throw (.badRequest "role must be host or guest")

/-- `GET /relay/:relaySessionId?role=host|guest`, up to the upgrade. -/
def relayWs (state : AppState) (headers : Headers) (relaySessionId : Uuid)
    (params : RelayQuery) : Handler (Option Uuid) := do
  let token ← okOr (headers.bearerToken.orElse fun _ => params.token) .unauthorized
  let relay ← query (.selectRelay relaySessionId)
  let relay ← okOr relay (.notFound "relay session not found")
  refuse (relay.status = .closed) (.conflict "relay session is closed")
  authenticate state relay params.role token

end Sockets

inductive Request where
  | login (body : Account.LoginRequest) (draws : Draws)
  | register (body : Account.RegisterRequest) (draws : Draws)
  | refresh (parts : Parts) (draws : Draws)
  | logout (headers : Headers)
  | me (parts : Parts)
  | bootstrap (parts : Parts) (minecraftUuid : String)
  | signaling (headers : Headers) (token : Option String)
  | relay (headers : Headers) (relaySessionId : Uuid) (params : Sockets.RelayQuery)
  | authenticate (body : Yggdrasil.AuthenticateRequest) (draws : Draws)
  | yggdrasilRefresh (body : Yggdrasil.RefreshRequest) (draws : Draws)
  | validate (body : Yggdrasil.TokenPair)
  | invalidate (body : Yggdrasil.TokenPair)
  | join (body : Yggdrasil.JoinRequest)
  | hasJoined (params : Yggdrasil.HasJoinedQuery)
  | adminLogin (body : Account.LoginRequest) (draws : Draws)
  | adminLogout (headers : Headers)
  | adminMe (parts : Parts)
  | createUser (parts : Parts) (body : Identity.AdminCreateUser) (draws : Draws)
  | getUser (parts : Parts) (id : Uuid)
  | patchUser (parts : Parts) (id : Uuid) (body : Identity.UpdateUser)
  | deleteUser (parts : Parts) (id : Uuid)
  | blockUser (parts : Parts) (id : Uuid)
  | unblockUser (parts : Parts) (id : Uuid)
  | resetPassword (parts : Parts) (id : Uuid) (password : String) (draws : Draws)
  | revokeTokens (parts : Parts) (id : Uuid)
  | cleanup
  | tick (elapsed : Nat)
  | network (joinTickets : Table joinTicketLayout) (relaySessions : Table relaySessionLayout)

inductive Body where
  | auth (response : AuthResponse)
  | account (account : AccountDto)
  | yggdrasil (session : YggdrasilSession)
  | profile (profile : ProfileIdentity)
  | adminLogin (cookies : Admin.SessionCookies) (me : AdminMeResponse)
  | adminMe (me : AdminMeResponse)
  | adminUser (user : AdminUserDto)
  | noContent
  deriving DecidableEq, Repr

/-- `principal` is the user as whom the request was served, where it was as one. -/
structure Reply where
  principal : Option Uuid
  body : Body
  deriving DecidableEq, Repr

namespace Reply

def ofAuth (response : AuthResponse) : Reply := ⟨some response.profile.id, .auth response⟩

def ofAccount (account : AccountDto) : Reply := ⟨some account.id, .account account⟩

def ofYggdrasil (served : Uuid × YggdrasilSession) : Reply :=
  ⟨some served.1, .yggdrasil served.2⟩

def ofProfile : Option ProfileIdentity → Reply
  | some profile => ⟨some profile.userId, .profile profile⟩
  | none => ⟨none, .noContent⟩

def ofAdminLogin (served : Admin.SessionCookies × AdminMeResponse) : Reply :=
  ⟨some served.2.id, .adminLogin served.1 served.2⟩

def ofAdminMe (me : AdminMeResponse) : Reply := ⟨some me.id, .adminMe me⟩

def ofAdmin (served : Uuid × AdminUserDto) : Reply := ⟨some served.1, .adminUser served.2⟩

def servedTo (principal : Option Uuid) : Reply := ⟨principal, .noContent⟩

end Reply

/-- The hourly cleanup; its failures are only logged. -/
def cleanupExpired : Handler Unit := do
  let _ ← operate (.statement .cleanupTokens)
  let _ ← operate (.statement .cleanupSessions)
  pure ()

namespace Request

open Reply

def handler (state : AppState) : Request → Handler Reply
  | login body draws => ofAuth <$> Account.login state body draws
  | register body draws => ofAuth <$> Account.register state body draws
  | refresh parts draws => ofAuth <$> Account.refresh state parts draws
  | logout headers => (fun _ => servedTo none) <$> Account.logout state headers
  | me parts => ofAccount <$> Account.me state parts
  | bootstrap parts minecraftUuid =>
      ofAccount <$> Account.bootstrap state parts minecraftUuid
  | signaling headers token => (servedTo ∘ some) <$> Sockets.signalingWs state headers token
  | relay headers relaySessionId params =>
      servedTo <$> Sockets.relayWs state headers relaySessionId params
  | authenticate body draws => ofYggdrasil <$> Yggdrasil.authenticate state body draws
  | yggdrasilRefresh body draws => ofYggdrasil <$> Yggdrasil.refresh state body draws
  | validate body => (servedTo ∘ some) <$> Yggdrasil.validate state body
  | invalidate body => (fun _ => servedTo none) <$> Yggdrasil.invalidate state body
  | join body => (servedTo ∘ some) <$> Yggdrasil.join state body
  | hasJoined params => ofProfile <$> Yggdrasil.hasJoined params
  | adminLogin body draws => ofAdminLogin <$> Admin.login state body draws
  | adminLogout headers => (fun _ => servedTo none) <$> Admin.logout state headers
  | adminMe parts => ofAdminMe <$> Admin.me state parts
  | createUser parts body draws => ofAdmin <$> Admin.create state parts body draws
  | getUser parts id => ofAdmin <$> Admin.get state parts id
  | patchUser parts id body => ofAdmin <$> Admin.patch state parts id body
  | deleteUser parts id => (servedTo ∘ some) <$> Admin.delete state parts id
  | blockUser parts id => ofAdmin <$> Admin.blockUser state parts id
  | unblockUser parts id => ofAdmin <$> Admin.unblockUser state parts id
  | resetPassword parts id password draws =>
      (servedTo ∘ some) <$> Admin.resetPassword state parts id password draws
  | revokeTokens parts id => (servedTo ∘ some) <$> Admin.revokeTokens state parts id
  | cleanup => (fun _ => servedTo none) <$> cleanupExpired
  | tick elapsed => (fun _ => servedTo none) <$> operate (.tick elapsed)
  | network joinTickets relaySessions =>
      (fun _ => servedTo none) <$> operate (.network joinTickets relaySessions)

end Request

def handle (state : AppState) (request : Request) :
    Process accounts (Except AppError Reply) :=
  (request.handler state).run

end Loontail.Accounts
