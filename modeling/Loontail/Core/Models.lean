import Mathlib.Data.Int.Basic
import Mathlib.Order.Defs.LinearOrder

/-! # Shared types of the service

Identifiers are natural numbers: the code compares them and orders pairs of
them, nothing else. Times are microseconds, the resolution of the database. -/

namespace Loontail

abbrev Uuid := Nat

abbrev Timestamp := Int

/-- What a statement reports instead of rows. -/
inductive DatabaseError where
  | uniqueViolation
  | checkViolation
  | foreignKeyViolation
  | cardinalityViolation
  | rowNotFound
  | connection
  deriving DecidableEq, Repr

inductive AppError where
  | badRequest (message : String)
  | unauthorized
  | forbidden
  | notFound (message : String)
  | conflict (message : String)
  | tooManyRequests
  | database (error : DatabaseError)
  | internal (message : String)
  deriving DecidableEq, Repr

/-! ## Statuses -/

inductive PresenceStatus where
  | offline
  | online
  | inWorld
  | joinable
  deriving DecidableEq, Repr

/-- The statuses a client may set; `offline` is never set directly. -/
def PresenceStatus.fromClient : String → Option PresenceStatus
  | "online" => some .online
  | "inWorld" => some .inWorld
  | "joinable" => some .joinable
  | _ => none

theorem PresenceStatus.fromClient_ne_offline {text : String} {status : PresenceStatus}
    (parsed : fromClient text = some status) : status ≠ .offline := by
  rintro rfl
  unfold fromClient at parsed
  split at parsed <;> cases parsed

def PresenceStatus.isInWorld : PresenceStatus → Bool
  | .inWorld => true
  | .joinable => true
  | _ => false

inductive WorldStatus where
  | open
  | closed
  deriving DecidableEq, Repr

def WorldStatus.parse : String → Except AppError WorldStatus
  | "open" => .ok .open
  | "closed" => .ok .closed
  | _ => .error (.badRequest "status must be open or closed")

inductive InvitePolicy where
  | hostOnly
  | friendsOfFriends
  deriving DecidableEq, Repr

def InvitePolicy.parse : String → Except AppError InvitePolicy
  | "host_only" => .ok .hostOnly
  | "friends_of_friends" => .ok .friendsOfFriends
  | _ => .error (.badRequest "invitePolicy must be host_only or friends_of_friends")

inductive RequestStatus where
  | pending
  | pendingApproval
  | accepted
  | declined
  | revoked
  | expired
  deriving DecidableEq, Repr

/-- The statuses that the partial unique indexes of the invites count as active. -/
def RequestStatus.isActive : RequestStatus → Bool
  | .pending => true
  | .pendingApproval => true
  | _ => false

/-- `relay_sessions.status`, kept as text in the database. -/
inductive RelayStatus where
  | pending
  | active
  | closed
  deriving DecidableEq, Repr

/-! ## Durations

Durations are configured in whole seconds; `Duration::from_std` refuses those
that do not fit its range of `i64` milliseconds. -/

def microsecondsPerSecond : Int := 1000000

def durationSeconds (seconds : Nat) : Timestamp := seconds * microsecondsPerSecond

def durationFromStd (seconds : Nat) : Option Timestamp :=
  if seconds ≤ 9223372036854775 then some (durationSeconds seconds) else none

/-- `Duration::from_std(ttl).unwrap_or_else(|_| Duration::seconds(fallback))`. -/
def ttlOrElse (seconds fallback : Nat) : Timestamp :=
  (durationFromStd seconds).getD (durationSeconds fallback)

/-- `value.clamp(low, high)`, which panics when the bounds are crossed. -/
def clamp (value low high : Int) : Option Int :=
  if low ≤ high then some (max low (min value high)) else none

/-! ## Public shapes -/

structure UserDto where
  id : Uuid
  minecraftUuid : Option String
  username : String
  deriving DecidableEq, Repr

/-- A join ticket, delivered once to a guest with its raw token. -/
structure JoinTicketDto where
  ticket : String
  relaySessionId : Uuid
  worldSessionId : Uuid
  hostUserId : Uuid
  expiresAt : Timestamp
  invitePolicy : InvitePolicy
  hostMinecraftVersion : Option String
  hostLoader : Option String
  deriving DecidableEq, Repr

/-! ## Configuration -/

structure Config where
  maxPlayersPerWorld : Int
  heartbeatTimeout : Nat
  joinRequestTtl : Nat
  joinTicketTtl : Nat
  inviteTtl : Nat

/-- What every handler is given besides its request. `hashToken` is the digest
under which tokens are stored. -/
structure AppState where
  config : Config
  hashToken : String → String

end Loontail
