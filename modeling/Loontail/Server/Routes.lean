import Loontail.Accounts.Requests
import Loontail.Concurrency.Extension

/-! # The routes that change state

Every route with a method other than GET, HEAD and OPTIONS. The account domain's
handlers are the modelled ones; the handlers of the other domains can do anything
behind the extractor that stands in their signature. -/

namespace Loontail.Server

open Accounts Concurrency Fallible

inductive Guard where
  | anyone
  | user
  | admin
  deriving DecidableEq, Repr

structure Route where
  method : Method
  path : String
  guard : Guard
  deriving DecidableEq, Repr

/-- `.nest`. -/
def nest (path : String) (routes : List Route) : List Route :=
  routes.map fun route => { route with path := path ++ route.path }

def networkRoutes : List Route :=
  [⟨.post, "/users/bootstrap", .user⟩,
    ⟨.post, "/friends/requests", .user⟩,
    ⟨.post, "/friends/requests/{id}/accept", .user⟩,
    ⟨.post, "/friends/requests/{id}/decline", .user⟩,
    ⟨.delete, "/friends/{user_id}", .user⟩,
    ⟨.post, "/presence/heartbeat", .user⟩,
    ⟨.post, "/presence/status", .user⟩,
    ⟨.post, "/world-sessions", .user⟩,
    ⟨.patch, "/world-sessions/{id}", .user⟩,
    ⟨.delete, "/world-sessions/{id}", .user⟩,
    ⟨.post, "/world-sessions/{id}/join-ticket", .user⟩,
    ⟨.post, "/world-sessions/{id}/join-requests", .user⟩,
    ⟨.post, "/join-requests/{id}/accept", .user⟩,
    ⟨.post, "/join-requests/{id}/decline", .user⟩,
    ⟨.post, "/world-sessions/{id}/invites", .user⟩,
    ⟨.post, "/invites/{id}/accept", .user⟩,
    ⟨.post, "/invites/{id}/decline", .user⟩,
    ⟨.post, "/invites/{id}/approve", .user⟩,
    ⟨.delete, "/invites/{id}", .user⟩]

def catalogAdminRoutes : List Route :=
  [⟨.post, "/clients", .admin⟩,
    ⟨.patch, "/clients/{id}", .admin⟩,
    ⟨.delete, "/clients/{id}", .admin⟩,
    ⟨.post, "/clients/{id}/publish", .admin⟩,
    ⟨.post, "/clients/{id}/unpublish", .admin⟩,
    ⟨.post, "/clients/{id}/media/upload", .admin⟩,
    ⟨.delete, "/clients/{id}/media/{media_id}", .admin⟩,
    ⟨.post, "/clients/{client_id}/keywords/{keyword_id}", .admin⟩,
    ⟨.delete, "/clients/{client_id}/keywords/{keyword_id}", .admin⟩,
    ⟨.post, "/clients/{client_id}/servers/{server_id}", .admin⟩,
    ⟨.delete, "/clients/{client_id}/servers/{server_id}", .admin⟩,
    ⟨.post, "/keywords", .admin⟩,
    ⟨.delete, "/keywords/{id}", .admin⟩,
    ⟨.post, "/keywords/{id}/publish", .admin⟩,
    ⟨.post, "/keywords/{id}/unpublish", .admin⟩,
    ⟨.post, "/servers", .admin⟩,
    ⟨.patch, "/servers/{id}", .admin⟩,
    ⟨.delete, "/servers/{id}", .admin⟩,
    ⟨.post, "/servers/{id}/publish", .admin⟩,
    ⟨.post, "/servers/{id}/unpublish", .admin⟩]

def bundleAdminRoutes : List Route :=
  [⟨.post, "/builds", .admin⟩,
    ⟨.put, "/builds/{slug}", .admin⟩,
    ⟨.delete, "/builds/{slug}", .admin⟩,
    ⟨.post, "/builds/{slug}/upload", .admin⟩,
    ⟨.post, "/builds/{slug}/regenerate", .admin⟩,
    ⟨.post, "/builds/{slug}/validate", .admin⟩,
    ⟨.post, "/builds/{slug}/files", .admin⟩,
    ⟨.post, "/builds/{slug}/folders", .admin⟩,
    ⟨.post, "/builds/{slug}/files/bulk-delete", .admin⟩,
    ⟨.post, "/builds/{slug}/files/move", .admin⟩,
    ⟨.delete, "/builds/{slug}/files/{entryId}", .admin⟩,
    ⟨.put, "/builds/{slug}/files/{entryId}", .admin⟩,
    ⟨.post, "/builds/{slug}/files/{entryId}/rename", .admin⟩,
    ⟨.post, "/builds/{slug}/files/{entryId}/move", .admin⟩,
    ⟨.post, "/builds/{slug}/files/{entryId}/rehash", .admin⟩]

def textureRoutes : List Route :=
  [⟨.put, "/{segment}", .user⟩, ⟨.delete, "/{segment}", .user⟩]

def textureAdminRoutes : List Route :=
  [⟨.delete, "/skins/{user_id}", .admin⟩,
    ⟨.delete, "/capes/{user_id}", .admin⟩,
    ⟨.post, "/purge-missing", .admin⟩]

/-- Beside the account domain's own; `mount` is the prefix of the Yggdrasil router. -/
def routes (mount : String) : List Route :=
  networkRoutes ++ nest "/textures" textureRoutes ++ nest (mount ++ "/textures") textureRoutes ++
    [⟨.post, mount ++ "/api/profiles/minecraft", .anyone⟩] ++
    nest "/admin/catalog" catalogAdminRoutes ++ nest "/admin/bundles" bundleAdminRoutes ++
    nest "/admin/textures" textureAdminRoutes

/-- A route of the account domain with what its handler takes beside the headers, or
one of the other domains with the rest of the request. -/
inductive Endpoint (Payload : Type) where
  | login (body : Account.LoginRequest) (draws : Draws)
  | register (body : Account.RegisterRequest) (draws : Draws)
  | refresh (draws : Draws)
  | logout
  | authenticate (body : Yggdrasil.AuthenticateRequest) (draws : Draws)
  | yggdrasilRefresh (body : Yggdrasil.RefreshRequest) (draws : Draws)
  | validate (body : Yggdrasil.TokenPair)
  | invalidate (body : Yggdrasil.TokenPair)
  | join (body : Yggdrasil.JoinRequest)
  | adminLogin (body : Account.LoginRequest) (draws : Draws)
  | adminLogout
  | createUser (body : Identity.AdminCreateUser) (draws : Draws)
  | patchUser (id : Uuid) (body : Identity.UpdateUser)
  | deleteUser (id : Uuid)
  | blockUser (id : Uuid)
  | unblockUser (id : Uuid)
  | resetPassword (id : Uuid) (password : String) (draws : Draws)
  | revokeTokens (id : Uuid)
  | other (route : Route) (payload : Payload)

namespace Endpoint

variable {Payload : Type}

def line (mount : String) : Endpoint Payload → Method × String
  | login .. => (.post, "/api/auth/login")
  | register .. => (.post, "/api/auth/register")
  | refresh _ => (.post, "/api/auth/refresh")
  | logout => (.post, "/api/auth/logout")
  | authenticate .. => (.post, mount ++ "/authserver/authenticate")
  | yggdrasilRefresh .. => (.post, mount ++ "/authserver/refresh")
  | validate _ => (.post, mount ++ "/authserver/validate")
  | invalidate _ => (.post, mount ++ "/authserver/invalidate")
  | join _ => (.post, mount ++ "/sessionserver/session/minecraft/join")
  | adminLogin .. => (.post, "/admin/auth/login")
  | adminLogout => (.post, "/admin/auth/logout")
  | createUser .. => (.post, "/admin/users")
  | patchUser .. => (.patch, "/admin/users/{id}")
  | deleteUser _ => (.delete, "/admin/users/{id}")
  | blockUser _ => (.post, "/admin/users/{id}/block")
  | unblockUser _ => (.post, "/admin/users/{id}/unblock")
  | resetPassword .. => (.post, "/admin/users/{id}/reset-password")
  | revokeTokens _ => (.post, "/admin/users/{id}/revoke-tokens")
  | other route _ => (route.method, route.path)

def asks (parts : Parts) : Endpoint Payload → Accounts.Request ⊕ Route × Payload
  | login body draws => .inl (.login body draws)
  | register body draws => .inl (.register body draws)
  | refresh draws => .inl (.refresh parts draws)
  | logout => .inl (.logout parts.headers)
  | authenticate body draws => .inl (.authenticate body draws)
  | yggdrasilRefresh body draws => .inl (.yggdrasilRefresh body draws)
  | validate body => .inl (.validate body)
  | invalidate body => .inl (.invalidate body)
  | join body => .inl (.join body)
  | adminLogin body draws => .inl (.adminLogin body draws)
  | adminLogout => .inl (.adminLogout parts.headers)
  | createUser body draws => .inl (.createUser parts body draws)
  | patchUser id body => .inl (.patchUser parts id body)
  | deleteUser id => .inl (.deleteUser parts id)
  | blockUser id => .inl (.blockUser parts id)
  | unblockUser id => .inl (.unblockUser parts id)
  | resetPassword id password draws => .inl (.resetPassword parts id password draws)
  | revokeTokens id => .inl (.revokeTokens parts id)
  | other route payload => .inr (route, payload)

end Endpoint

/-- The domains beside the accounts: what they add to the shared state, and what their
handlers do once the caller is known. A payload is the path, the query, the body and
what the handler draws at random. -/
structure Domains where
  extension : Extension accounts
  Payload : Type
  Reply : Type
  guarded : Route → Accounts.User → Headers → Payload → Fallible extension.whole AppError Reply
  anyone : Route → Payload → Fallible extension.whole AppError Reply

def Domains.handler (domains : Domains) (state : Accounts.AppState) (route : Route) (parts : Parts)
    (payload : domains.Payload) : Fallible domains.extension.whole AppError domains.Reply :=
  match route.guard with
  | .anyone => domains.anyone route payload
  | .user => do
      let user ← (Credentials.authUser state parts).embed domains.extension
      domains.guarded route user parts.headers payload
  | .admin => do
      let user ← (Credentials.adminUser state parts).embed domains.extension
      domains.guarded route user parts.headers payload

inductive Response (Reply : Type) where
  | account (result : Except AppError Accounts.Reply)
  | other (result : Except AppError Reply)
  | notFound

structure Request (Payload : Type) where
  headers : Headers
  endpoint : Endpoint Payload

namespace Request

variable {Payload : Type}

def parts (mount : String) (request : Request Payload) : Parts :=
  ⟨(request.endpoint.line mount).1, request.headers⟩

def withoutCredentials (state : Accounts.AppState) (request : Request Payload) : Request Payload :=
  { request with headers := request.headers.withoutCredentials state.config.cookieName }

end Request

/-- A path or a method that no route has is not found, and touches nothing. -/
def handle (state : Accounts.AppState) (mount : String) (domains : Domains)
    (request : Request domains.Payload) :
    Process domains.extension.whole (Response domains.Reply) :=
  match request.endpoint.asks (request.parts mount) with
  | .inl asked => .account <$> (Accounts.handle state asked).embed domains.extension
  | .inr (route, payload) =>
      if route ∈ routes mount then
        .other <$> (domains.handler state route (request.parts mount) payload).run
      else pure .notFound

end Loontail.Server
