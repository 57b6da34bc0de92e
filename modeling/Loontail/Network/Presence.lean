import Loontail.Network.Handler

/-! # Presence -/

namespace Loontail.Network.Presence

open Handler

/-- Collapse a stored status to `offline` once the last heartbeat exceeds the timeout. -/
def effectiveStatus (now : Timestamp) (stored : PresenceStatus)
    (lastHeartbeat : Timestamp) (timeout : Nat) : PresenceStatus :=
  if now - lastHeartbeat > ttlOrElse timeout 60 then .offline else stored

def effectiveStatusFor (state : AppState) (userId : Uuid) : Handler PresenceStatus := do
  match ← query (.presence (.select userId)) with
  | some row =>
      let time ← now
      pure (effectiveStatus time row.status row.lastHeartbeatAt state.config.heartbeatTimeout)
  | none => pure .offline

def heartbeat (state : AppState) (auth : Uuid) : Handler PresenceStatus := do
  query (.presence (.heartbeat auth))
  effectiveStatusFor state auth

def markOnline (userId : Uuid) : Handler Unit := query (.presence (.markOnline userId))

def markOffline (userId : Uuid) : Handler Unit := do
  let _ ← query (.presence (.markOffline userId))
  pure ()

def sendToAll (event : ServerEvent) : List Uuid → Handler Unit
  | [] => pure ()
  | friendId :: rest => do
      sendTo friendId event
      sendToAll event rest

def broadcastPresence (userId : Uuid) : Handler Unit := do
  let friends ← query (.friend (.friendIds userId))
  sendToAll (.presenceUpdate userId) friends

structure SetStatusRequest where
  status : String
  currentWorldSessionId : Option Uuid
  deriving DecidableEq, Repr

/-- Entering a world requires it to be an open world owned by this user. -/
def checkOwnWorld (auth : Uuid) (status : PresenceStatus) (worldId : Option Uuid) :
    Handler Unit :=
  match worldId with
  | some worldId => whenever status.isInWorld do
      let owns ← query (.presence (.ownsOpenWorld worldId auth))
      refuse (!owns) (.badRequest "currentWorldSessionId must be your own open world session")
  | none => pure ()

def setStatus (auth : Uuid) (body : SetStatusRequest) : Handler PresenceStatus := do
  match PresenceStatus.fromClient body.status with
  | none => throw (.badRequest "status must be online, inWorld or joinable")
  | some status =>
      checkOwnWorld auth status body.currentWorldSessionId
      query (.presence (.setStatus auth status
        (if status.isInWorld then body.currentWorldSessionId else none)))
      logged (broadcastPresence auth)
      pure status

structure BootstrapRequest where
  minecraftUuid : String
  accountType : Option String
  xuid : Option String
  clientId : Option String
  minecraftVersion : Option String
  modVersion : Option String
  loader : Option String
  deriving DecidableEq, Repr

/-- `users::bootstrap`, on a body whose Minecraft identifier is trimmed. -/
def bootstrap (auth : Uuid) (body : BootstrapRequest) : Handler UserDto := do
  let user ← insertUnique (.presence (.bootstrapUser auth body.minecraftUuid
      body.accountType body.xuid body.clientId))
    "this Minecraft account is already linked to another user"
  query (.presence (.bootstrap user.id body.minecraftVersion body.modVersion body.loader))
  pure user.dto

/-! ## Footprints -/

attribute [local simp] Operation.purpose

theorem effectiveStatusFor_serves (state : AppState) (userId : Uuid) (purpose : Purpose) :
    (effectiveStatusFor state userId).Serves purpose := by
  simp only [Serves, uses_iff, effectiveStatusFor, meets_bind, meets_query, forall_except]
  refine ⟨.inl rfl, fun row => ?_, fun _ => trivial⟩
  cases row <;> simp [Serving]

section Broadcast

variable {allowed : Operation → Prop}

theorem sendToAll_uses (sends : ∀ userId event, allowed (.signaling (.sendTo userId event)))
    (event : ServerEvent) (userIds : List Uuid) : (sendToAll event userIds).Uses allowed := by
  induction userIds with
  | nil => trivial
  | cons userId rest induction => exact ⟨sends userId event, fun _ => induction⟩

theorem broadcastPresence_uses
    (sends : ∀ userId event, allowed (.signaling (.sendTo userId event)))
    (userId : Uuid) (reads : allowed (.statement (.friend (.friendIds userId)))) :
    (broadcastPresence userId).Uses allowed := by
  refine ⟨reads, fun result => ?_⟩
  cases result with
  | ok friends => exact sendToAll_uses sends _ friends
  | error => trivial

end Broadcast

theorem broadcastPresence_serves (userId : Uuid) (purpose : Purpose) :
    (broadcastPresence userId).Serves purpose :=
  broadcastPresence_uses (fun _ _ => .inl rfl) userId (.inl rfl)

theorem heartbeat_serves (state : AppState) (auth : Uuid) (purpose : Purpose) :
    (heartbeat state auth).Serves purpose := by
  have status := effectiveStatusFor_serves state auth purpose
  simp [Serves, uses_iff, heartbeat, forall_except, Serving, status.meets]

theorem checkOwnWorld_serves (auth : Uuid) (status : PresenceStatus)
    (worldId : Option Uuid) (purpose : Purpose) :
    (checkOwnWorld auth status worldId).Serves purpose := by
  cases worldId <;>
    simp [Serves, uses_iff, checkOwnWorld, forall_except, Serving]

theorem setStatus_serves (auth : Uuid) (body : SetStatusRequest) :
    (setStatus auth body).Serves .setStatus := by
  have checked (status : PresenceStatus) (worldId : Option Uuid) :=
    checkOwnWorld_serves auth status worldId .setStatus
  have told := broadcastPresence_serves auth .setStatus
  rw [Serves, uses_iff, setStatus]
  split
  · trivial
  · simp [forall_except, Serving, (checked _ _).meets, told.meets]

theorem bootstrap_serves (auth : Uuid) (body : BootstrapRequest) (purpose : Purpose) :
    (bootstrap auth body).Serves purpose := by
  simp [Serves, uses_iff, bootstrap, forall_except, Serving]

end Loontail.Network.Presence
