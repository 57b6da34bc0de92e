import Loontail.Core.Models
import Mathlib.Data.List.AList

/-! # In-memory realtime state

The fan-out registry of signaling connections and the rendezvous map of relay
sockets. Both are locked maps, so each operation is one atomic step. -/

namespace Loontail

inductive ServerEvent where
  | friendRequest (requestId : Uuid) (fromUser : UserDto)
  | friendRequestAccepted (requestId : Uuid) (byUser : UserDto)
  | joinRequest (requestId worldSessionId : Uuid) (fromUser : UserDto)
  | joinRequestAccepted (requestId : Uuid) (ticket : JoinTicketDto)
  | joinRequestDeclined (requestId : Uuid)
  | guestArriving (relaySessionId worldSessionId : Uuid) (guestUser : UserDto)
  | worldInvite (inviteId worldSessionId : Uuid) (inviter host : UserDto)
  | inviteApprovalRequest (inviteId worldSessionId : Uuid) (inviter invitee : UserDto)
  | friendRequestDeclined (requestId : Uuid)
  | friendRemoved (userId : Uuid)
  | presenceUpdate (userId : Uuid)
  | worldPolicyChanged (worldSessionId : Uuid) (invitePolicy : InvitePolicy)
  deriving DecidableEq, Repr

/-! ## Signaling -/

/-- `connections` lists the senders registered for each user, named by their
connection. `receivers` holds, for each connection whose receiver has not been
dropped, the events delivered to it. -/
structure SignalingHub where
  connections : AList (fun _ : Uuid => List Uuid)
  receivers : AList (fun _ : Uuid => List ServerEvent)

namespace SignalingHub

def new : SignalingHub where
  connections := ∅
  receivers := ∅

def setConnections (hub : SignalingHub) (userId : Uuid) (conns : List Uuid) :
    SignalingHub :=
  { hub with
    connections :=
      if conns.isEmpty then hub.connections.erase userId
      else hub.connections.insert userId conns }

def add (hub : SignalingHub) (userId connId : Uuid) : SignalingHub where
  connections :=
    hub.connections.insert userId ((hub.connections.lookup userId).getD [] ++ [connId])
  receivers := hub.receivers.insert connId []

def remove (hub : SignalingHub) (userId connId : Uuid) : SignalingHub :=
  match hub.connections.lookup userId with
  | none => hub
  | some conns => hub.setConnections userId (conns.filter (· ≠ connId))

/-- `tx.send(event)`: succeeds while the receiver exists. -/
def deliver (receivers : AList (fun _ : Uuid => List ServerEvent))
    (event : ServerEvent) (connId : Uuid) : AList (fun _ : Uuid => List ServerEvent) :=
  match receivers.lookup connId with
  | none => receivers
  | some queue => receivers.insert connId (queue ++ [event])

/-- Deliver to all of a user's live connections, pruning dead senders. -/
def sendTo (hub : SignalingHub) (userId : Uuid) (event : ServerEvent) : SignalingHub :=
  match hub.connections.lookup userId with
  | none => hub
  | some conns =>
      let live := conns.filter fun connId => (hub.receivers.lookup connId).isSome
      { hub.setConnections userId live with
        receivers := conns.foldl (fun receivers connId =>
          deliver receivers event connId) hub.receivers }

def connectedUsers (hub : SignalingHub) : Nat := hub.connections.keys.length

def isOnline (hub : SignalingHub) (userId : Uuid) : Bool :=
  (hub.connections.lookup userId).isSome

def dropReceiver (hub : SignalingHub) (connId : Uuid) : SignalingHub :=
  { hub with receivers := hub.receivers.erase connId }

end SignalingHub

/-! ## Relay rendezvous -/

inductive RelayRole where
  | host
  | guest
  deriving DecidableEq, Repr

/-- A valid pair is one host and one guest. -/
def rolesPair (left right : RelayRole) : Bool := left ≠ right

abbrev SocketId := Nat

/-- The first party of a pair, parked until its peer arrives. `done` is the
channel on which the handler that pipes the pair reports the end. -/
structure PendingPeer where
  socket : SocketId
  done : SocketId
  deriving DecidableEq, Repr

structure RelayHub where
  waiting : AList (fun _ : Uuid => RelayRole × PendingPeer)
  active : UInt64

namespace RelayHub

def new : RelayHub where
  waiting := ∅
  active := 0

/-- Park the first party. When a peer already waits for this session, the slot
is untouched and `peer` is handed back. -/
def park (hub : RelayHub) (relaySessionId : Uuid) (role : RelayRole)
    (peer : PendingPeer) : Option PendingPeer × RelayHub :=
  match hub.waiting.lookup relaySessionId with
  | some _ => (some peer, hub)
  | none => (none, { hub with waiting := hub.waiting.insert relaySessionId (role, peer) })

/-- Take the parked party only when its role is opposite to `incomingRole`. -/
def take (hub : RelayHub) (relaySessionId : Uuid) (incomingRole : RelayRole) :
    Option PendingPeer × RelayHub :=
  match hub.waiting.lookup relaySessionId with
  | some (parkedRole, peer) =>
      if rolesPair parkedRole incomingRole then
        (some peer, { hub with waiting := hub.waiting.erase relaySessionId })
      else (none, hub)
  | none => (none, hub)

/-- Drop whatever is parked, whoever parked it. -/
def removeWaiting (hub : RelayHub) (relaySessionId : Uuid) :
    Option PendingPeer × RelayHub :=
  ((hub.waiting.lookup relaySessionId).map (·.2),
    { hub with waiting := hub.waiting.erase relaySessionId })

def isWaiting (hub : RelayHub) (relaySessionId : Uuid) : Bool :=
  (hub.waiting.lookup relaySessionId).isSome

def incrActive (hub : RelayHub) : RelayHub := { hub with active := hub.active + 1 }

def decrActive (hub : RelayHub) : RelayHub := { hub with active := hub.active - 1 }

/-! What each operation leaves in the other sessions' slots, and in its own. -/

theorem park_accepted {hub after : RelayHub} {relaySessionId : Uuid}
    {role : RelayRole} {peer : PendingPeer}
    (accepted : hub.park relaySessionId role peer = (none, after)) :
    hub.waiting.lookup relaySessionId = none ∧
      after = { hub with waiting := hub.waiting.insert relaySessionId (role, peer) } := by
  unfold park at accepted
  split at accepted
  · cases accepted
  · rename_i vacant
    exact ⟨vacant, (Prod.mk.inj accepted).2.symm⟩

theorem park_refused {hub after : RelayHub} {relaySessionId : Uuid}
    {role : RelayRole} {peer back : PendingPeer}
    (refused : hub.park relaySessionId role peer = (some back, after)) :
    back = peer ∧ after = hub ∧ ∃ waiter, hub.waiting.lookup relaySessionId = some waiter := by
  unfold park at refused
  split at refused
  · rename_i waiter occupied
    cases refused
    exact ⟨rfl, rfl, waiter, occupied⟩
  · cases refused

theorem take_some {hub after : RelayHub} {relaySessionId : Uuid}
    {incomingRole : RelayRole} {peer : PendingPeer}
    (taken : hub.take relaySessionId incomingRole = (some peer, after)) :
    ∃ parkedRole, hub.waiting.lookup relaySessionId = some (parkedRole, peer) ∧
      parkedRole ≠ incomingRole ∧
      after = { hub with waiting := hub.waiting.erase relaySessionId } := by
  unfold take at taken
  split at taken
  · rename_i parkedRole waiter found
    split at taken
    · rename_i opposite
      cases taken
      exact ⟨parkedRole, found, by simpa [rolesPair] using opposite, rfl⟩
    · cases taken
  · cases taken

theorem take_none {hub after : RelayHub} {relaySessionId : Uuid}
    {incomingRole : RelayRole}
    (missed : hub.take relaySessionId incomingRole = (none, after)) :
    after = hub ∧ ∀ parkedRole peer,
      hub.waiting.lookup relaySessionId = some (parkedRole, peer) →
        parkedRole = incomingRole := by
  unfold take at missed
  split at missed
  · rename_i parkedRole waiter found
    split at missed
    · cases missed
    · rename_i same
      refine ⟨(Prod.mk.inj missed).2.symm, fun role peer present => ?_⟩
      rw [found] at present
      cases present
      simpa [rolesPair] using same
  · rename_i vacant
    refine ⟨(Prod.mk.inj missed).2.symm, fun role peer present => ?_⟩
    rw [vacant] at present
    cases present

/-! ## The sockets that wait -/

def holds (hub : RelayHub) (socket : SocketId) : Nat :=
  hub.waiting.entries.countP fun slot => slot.2.2.socket = socket

private theorem holds_erase {hub : RelayHub} {relaySessionId : Uuid} {role : RelayRole}
    {peer : PendingPeer}
    (found : hub.waiting.lookup relaySessionId = some (role, peer)) (socket : SocketId) :
    hub.holds socket =
      { hub with waiting := hub.waiting.erase relaySessionId }.holds socket +
        if peer.socket = socket then 1 else 0 := by
  have listed : relaySessionId ∈ hub.waiting.entries.keys :=
    AList.lookup_isSome.mp (by rw [found]; rfl)
  rcases List.exists_of_kerase listed with ⟨slot, newer, older, vacant, split, left⟩
  have equal : slot = (role, peer) := by
    have first : hub.waiting.entries.dlookup relaySessionId = some slot := by
      rw [split, List.dlookup_append, List.dlookup_eq_none.mpr vacant, List.dlookup_cons_eq]
      rfl
    exact Option.some.inj (first.symm.trans found)
  subst equal
  have erased : (hub.waiting.erase relaySessionId).entries = newer ++ older := left
  rw [holds, holds, erased, split, List.countP_append, List.countP_append, List.countP_cons]
  simp only [decide_eq_true_eq]
  omega

theorem holds_park_accepted {hub after : RelayHub} {relaySessionId : Uuid}
    {role : RelayRole} {peer : PendingPeer}
    (accepted : hub.park relaySessionId role peer = (none, after)) (socket : SocketId) :
    after.holds socket = hub.holds socket + if peer.socket = socket then 1 else 0 := by
  rcases park_accepted accepted with ⟨vacant, rfl⟩
  have absent : relaySessionId ∉ hub.waiting := by
    rw [← AList.lookup_eq_none]
    exact vacant
  simp [holds, AList.insert_of_notMem absent, List.countP_cons]

theorem holds_take_some {hub after : RelayHub} {relaySessionId : Uuid}
    {incomingRole : RelayRole} {peer : PendingPeer}
    (taken : hub.take relaySessionId incomingRole = (some peer, after)) (socket : SocketId) :
    hub.holds socket = after.holds socket + if peer.socket = socket then 1 else 0 := by
  rcases take_some taken with ⟨parkedRole, found, -, rfl⟩
  exact holds_erase found socket

theorem holds_removeWaiting_some {hub after : RelayHub} {relaySessionId : Uuid}
    {peer : PendingPeer}
    (removed : hub.removeWaiting relaySessionId = (some peer, after)) (socket : SocketId) :
    hub.holds socket = after.holds socket + if peer.socket = socket then 1 else 0 := by
  rcases Prod.mk.inj removed with ⟨waited, rfl⟩
  rcases Option.map_eq_some_iff.mp waited with ⟨⟨role, waiter⟩, found, rfl⟩
  exact holds_erase found socket

theorem removeWaiting_none {hub after : RelayHub} {relaySessionId : Uuid}
    (missed : hub.removeWaiting relaySessionId = (none, after)) : after = hub := by
  rcases Prod.mk.inj missed with ⟨vacant, rfl⟩
  have absent : relaySessionId ∉ hub.waiting :=
    AList.lookup_eq_none.mp (Option.map_eq_none_iff.mp vacant)
  have unchanged : hub.waiting.erase relaySessionId = hub.waiting :=
    AList.ext (List.kerase_of_notMem_keys absent)
  rw [unchanged]

end RelayHub

structure Realtime where
  signaling : SignalingHub
  relay : RelayHub

def Realtime.new : Realtime where
  signaling := .new
  relay := .new

end Loontail
