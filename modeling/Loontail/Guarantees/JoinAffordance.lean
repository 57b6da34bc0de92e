import Loontail.Network.Friends
import Loontail.Network.Statements.Admission

/-! # The friend a viewer may join through, and the gate

The list of friends and the gate of a join request write one rule twice. They differ in
the instant at which a heartbeat becomes too old. -/

namespace Loontail

open Relational Network

variable {now : Timestamp} {timeout : Nat} {viewer friend worldId : Uuid} {database : Database}

theorem Database.areFriends_of_mem_friendIds (listed : friend ∈ Sql.friendIds viewer database) :
    database.areFriends friend viewer = true := by
  obtain ⟨friendship, member, named⟩ := List.mem_map.mp listed
  obtain ⟨present, mine⟩ := List.mem_filter.mp member
  refine List.any_eq_true.mpr ⟨friendship, present, ?_⟩
  have ordered := friendship.ordered.le
  simp only [Bool.or_eq_true, decide_eq_true_eq] at mine
  simp only [Bool.and_eq_true, decide_eq_true_eq]
  split at named
  · rename_i first
    subst first
    subst named
    exact ⟨(min_eq_right ordered).symm, (max_eq_left ordered).symm⟩
  · rename_i first
    obtain second := mine.resolve_left first
    subst second
    subst named
    exact ⟨(min_eq_left ordered).symm, (max_eq_right ordered).symm⟩

theorem Sql.isLiveMember_iff :
    isLiveMember now timeout worldId friend database = true ↔
      (∃ relay ∈ database.relaySessions.rows, relay.worldSessionId = worldId ∧
        relay.status = .active ∧ relay.guestUserId = some friend) ∧
      ∃ presence, database.presence.find friend = some presence ∧ presence.status ≠ .offline ∧
        now - presence.lastHeartbeatAt < durationSeconds timeout := by
  simp only [isLiveMember, Bool.and_eq_true, List.any_eq_true, decide_eq_true_eq]
  refine and_congr ?_ ?_
  · exact exists_congr fun relay => and_congr_right fun _ => and_assoc
  · constructor
    · rintro ⟨presence, member, ⟨rfl, online⟩, recent⟩
      exact ⟨presence, Table.find_eq_some.mpr ⟨member, rfl⟩, online, Int.sub_lt_of_sub_lt recent⟩
    · rintro ⟨presence, found, online, recent⟩
      obtain ⟨member, same⟩ := Table.find_eq_some.mp found
      exact ⟨presence, member, ⟨same, online⟩, Int.sub_lt_of_sub_lt recent⟩

theorem Sql.isFriendOfActiveMember_iff :
    isFriendOfActiveMember now timeout viewer worldId database = true ↔
      ∃ guest, isLiveMember now timeout worldId guest database = true ∧
        database.areFriends guest viewer = true := by
  simp only [isFriendOfActiveMember, List.any_eq_true, List.mem_filterMap, Bool.and_eq_true]
  constructor
  · rintro ⟨guest, -, live, friends⟩
    exact ⟨guest, live, friends⟩
  · rintro ⟨guest, live, friends⟩
    obtain ⟨⟨relay, member, -, -, mine⟩, -⟩ := isLiveMember_iff.mp live
    exact ⟨guest, ⟨relay, member, mine⟩, live, friends⟩

namespace Network.Presence

def FriendPresence.ShowsGuest (guestWorld : Uuid → Option Uuid) (entry : FriendPresence)
    (worldId : Uuid) : Prop :=
  guestWorld entry.user.id = some worldId ∧ entry.status = .inWorld ∧
    entry.currentWorldSessionId = some worldId

theorem shown_guest {guestWorld : Uuid → Option Uuid} {entry : FriendPresence}
    (found : ∀ userId, Sql.IsGuestWorld userId database (guestWorld userId))
    (listed : entry ∈ friendsWithPresence now timeout guestWorld viewer database)
    (shows : entry.ShowsGuest guestWorld worldId) :
    database.areFriends entry.user.id viewer = true ∧
      (∃ relay ∈ database.relaySessions.rows, relay.worldSessionId = worldId ∧
        relay.status = .active ∧ relay.guestUserId = some entry.user.id) ∧
      ∃ presence, database.presence.find entry.user.id = some presence ∧
        presence.status ≠ .offline ∧
        now - presence.lastHeartbeatAt ≤ durationSeconds timeout := by
  obtain ⟨row, member, rfl⟩ := List.mem_map.mp listed
  obtain ⟨friendId, friend, joined⟩ := List.mem_filterMap.mp member
  obtain ⟨user, known, built⟩ := Option.map_eq_some_iff.mp joined
  have same : user.id = friendId := (Table.find_eq_some.mp known).2
  subst same
  subst built
  obtain ⟨guest, inWorld, -⟩ := shows
  refine ⟨Database.areFriends_of_mem_friendIds friend, ?_, ?_⟩
  · have chosen := found user.id
    rw [show guestWorld user.id = some worldId from guest] at chosen
    obtain ⟨relay, present, hosted, -⟩ := chosen
    obtain ⟨stored, active⟩ := List.mem_filter.mp present
    simp only [Bool.and_eq_true, decide_eq_true_eq] at active
    exact ⟨relay, stored, hosted, active.1.2, active.1.1⟩
  · cases stored : database.presence.find user.id with
    | none =>
        rw [FriendPresence.from, stored] at inWorld
        dsimp only [Option.map] at inWorld
        rw [show guestWorld user.id = some worldId from guest] at inWorld
        exact absurd rfl (deriveFriendStatus_guest inWorld)
    | some presence =>
        rw [FriendPresence.from, stored] at inWorld
        dsimp only [Option.map] at inWorld
        rw [show guestWorld user.id = some worldId from guest] at inWorld
        obtain ⟨online, recent⟩ := effectiveStatus_online (deriveFriendStatus_guest inWorld)
        exact ⟨presence, stored, online, recent.trans (ttlOrElse_le timeout)⟩

end Network.Presence

/-- The gate lets a viewer in through a friend who is shown as a guest exactly if that
friend's heartbeat is not of the timeout's very age, or another friend is a live guest. -/
theorem shown_guest_admitted_iff {guestWorld : Uuid → Option Uuid} {entry : Presence.FriendPresence}
    (found : ∀ userId, Sql.IsGuestWorld userId database (guestWorld userId))
    (listed : entry ∈ Presence.friendsWithPresence now timeout guestWorld viewer database)
    (shows : entry.ShowsGuest guestWorld worldId) :
    Sql.isFriendOfActiveMember now timeout viewer worldId database = true ↔
      (database.presence.find entry.user.id).any (fun presence =>
        now - presence.lastHeartbeatAt ≠ durationSeconds timeout) = true ∨
      ∃ other, other ≠ entry.user.id ∧ database.areFriends other viewer = true ∧
        Sql.isLiveMember now timeout worldId other database = true := by
  obtain ⟨friends, guest, presence, stored, online, recent⟩ :=
    Presence.shown_guest found listed shows
  rw [Sql.isFriendOfActiveMember_iff, stored]
  simp only [Option.any_some, decide_eq_true_eq]
  constructor
  · rintro ⟨other, live, trusted⟩
    by_cases same : other = entry.user.id
    · subst same
      obtain ⟨-, row, found, -, younger⟩ := Sql.isLiveMember_iff.mp live
      obtain rfl := Option.some.inj (stored.symm.trans found)
      exact .inl (ne_of_lt younger)
    · exact .inr ⟨other, same, trusted, live⟩
  · rintro (apart | ⟨other, -, trusted, live⟩)
    · have younger := lt_of_le_of_ne recent apart
      exact ⟨entry.user.id, Sql.isLiveMember_iff.mpr ⟨guest, presence, stored, online, younger⟩,
        friends⟩
    · exact ⟨other, live, trusted⟩

/-! ## At the boundary -/

def affordedDatabase : Database :=
  { Database.empty with
    users := {
      rows := [{ id := 2, minecraftUuid := none, username := "guest", accountType := none,
                 xuid := none, clientId := none, blocked := false, lastSeenAt := 0,
                 updatedAt := 0 }]
      issued := [2]
      keysUnique := by decide
      slotsUnique := by decide
      keysIssued := by decide }
    friendships := {
      rows := [{ id := 7, userAId := 1, userBId := 2, ordered := by decide }]
      issued := [7]
      keysUnique := by decide
      slotsUnique := by decide
      keysIssued := by decide }
    presence := {
      rows := [{ userId := 2, status := .online, lastHeartbeatAt := 0, minecraftVersion := none,
                 modVersion := none, loader := none, currentWorldSessionId := none,
                 updatedAt := 0 }]
      issued := [2]
      keysUnique := by decide
      slotsUnique := by decide
      keysIssued := by decide }
    worldSessions := {
      rows := [{ id := 3, hostUserId := 5, status := .open, maxPlayers := 4, currentPlayers := 1,
                 invitePolicy := .friendsOfFriends, createdAt := 0, closedAt := none }]
      issued := [3]
      keysUnique := by decide
      slotsUnique := by decide
      keysIssued := by decide }
    relaySessions := {
      rows := [{ id := 4, worldSessionId := 3, hostUserId := 5, guestUserId := some 2,
                 joinTicketId := none, status := .active, createdAt := 0, closedAt := none }]
      issued := [4]
      keysUnique := by decide
      slotsUnique := by decide
      keysIssued := by decide } }

def affordedWorld (userId : Uuid) : Option Uuid := if userId = 2 then some 3 else none

theorem affordedWorld_found (userId : Uuid) :
    Sql.IsGuestWorld userId affordedDatabase (affordedWorld userId) := by
  unfold affordedWorld
  split
  · rename_i same
    subst same
    exact ⟨_, List.mem_filter.mpr ⟨List.mem_singleton.mpr rfl, by decide⟩, rfl, by decide⟩
  · rename_i other
    refine List.filter_eq_nil_iff.mpr fun relay member => ?_
    rw [List.mem_singleton.mp member]
    simp [Ne.symm other]

/-- Before the boundary the list and the gate agree. -/
theorem shown_guest_admitted_recent :
    ∃ entry ∈ Presence.friendsWithPresence 59999999 60 affordedWorld 1 affordedDatabase,
      entry.ShowsGuest affordedWorld 3 ∧
        Sql.isFriendOfActiveMember 59999999 60 1 3 affordedDatabase = true := by
  have listed : (⟨⟨2, none, "guest"⟩, .inWorld, some 3, none, none⟩ : Presence.FriendPresence) ∈
      Presence.friendsWithPresence 59999999 60 affordedWorld 1 affordedDatabase := by decide
  have shows : Presence.FriendPresence.ShowsGuest affordedWorld
      ⟨⟨2, none, "guest"⟩, .inWorld, some 3, none, none⟩ 3 := ⟨rfl, rfl, rfl⟩
  refine ⟨_, listed, shows, ?_⟩
  exact (shown_guest_admitted_iff affordedWorld_found listed shows).mpr (.inl (by decide))

/-- A heartbeat of exactly the timeout's age is shown and not admitted. -/
theorem shown_guest_refused :
    ¬∀ (now : Timestamp) (timeout : Nat) (viewer worldId : Uuid) (database : Database)
      (guestWorld : Uuid → Option Uuid) (entry : Presence.FriendPresence),
      (∀ userId, Sql.IsGuestWorld userId database (guestWorld userId)) →
      entry ∈ Presence.friendsWithPresence now timeout guestWorld viewer database →
      entry.ShowsGuest guestWorld worldId →
      Sql.isFriendOfActiveMember now timeout viewer worldId database = true := by
  intro always
  have admitted := always 60000000 60 1 3 affordedDatabase affordedWorld
    ⟨⟨2, none, "guest"⟩, .inWorld, some 3, none, none⟩ affordedWorld_found (by decide)
    ⟨rfl, rfl, rfl⟩
  exact absurd admitted (by decide)

end Loontail
