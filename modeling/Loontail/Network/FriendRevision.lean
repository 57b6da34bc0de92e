import Loontail.Network.Frames
import Loontail.Relational.Evolution

/-! # What a statement makes of a friend request

Acceptance and decline each set one request, whatever its status was; only a
commit of an acceptance makes two users friends. -/

namespace Loontail

open Concurrency Relational

namespace Statement

def reviseFriendRequest (now : Timestamp) (request : FriendRequest) : Statement → FriendRequest
  | .friend (.commitAccept transaction id ..) =>
      if request.id = id then
        { request with status := .accepted, updatedAt := transaction.startedAt }
      else request
  | .friend (.decline id) =>
      if request.id = id then { request with status := .declined, updatedAt := now }
      else request
  | _ => request

def insertsFriendRequest (now : Timestamp) : Statement → FriendRequest → Prop
  | .friend (.insertRequest fromUserId toUserId newId), row =>
      ∃ notSelf, row = { id := newId, fromUserId, toUserId, status := .pending
                         createdAt := now, updatedAt := now, notSelf }
  | _, _ => False

def befriends (left right : Uuid) : Statement → Prop
  | .friend (.commitAccept _ _ fromUserId toUserId _) =>
      left = fromUserId ∧ right = toUserId ∨ left = toUserId ∧ right = fromUserId
  | _ => False

@[simp] theorem reviseFriendRequest_id (now : Timestamp) (request : FriendRequest)
    (statement : Statement) :
    (statement.reviseFriendRequest now request).id = request.id := by
  unfold reviseFriendRequest
  split
  · split <;> rfl
  · split <;> rfl
  · rfl

theorem reviseFriendRequest_pending {now : Timestamp} {request : FriendRequest}
    {statement : Statement}
    (pending : (statement.reviseFriendRequest now request).status = .pending) :
    statement.reviseFriendRequest now request = request := by
  unfold reviseFriendRequest at pending ⊢
  split at pending
  · split at pending
    · cases pending
    · rename_i other
      exact if_neg other
  · split at pending
    · cases pending
    · rename_i other
      exact if_neg other
  · rfl

end Statement

theorem ordered_pair_eq {left right one other : Nat} :
    min left right = min one other ∧ max left right = max one other ↔
      one = left ∧ other = right ∨ one = right ∧ other = left := by
  omega

section Statements

variable {now : Timestamp} {database after : Database}

namespace Sql

theorem insertFriendRequest_ok {fromUserId toUserId newId reply : Uuid}
    (executed : insertFriendRequest now fromUserId toUserId newId database =
      .ok (reply, after)) :
    ∃ notSelf friendRequests, database.friendRequests.insert {
        id := newId, fromUserId, toUserId, status := .pending
        createdAt := now, updatedAt := now, notSelf } = some friendRequests ∧
      after = { database with friendRequests } := by
  unfold insertFriendRequest at executed
  split at executed
  · rename_i notSelf
    split at executed
    · rename_i friendRequests inserted
      cases executed
      exact ⟨notSelf, friendRequests, inserted, rfl⟩
    · cases executed
  · cases executed

theorem insertFriendship_ok {left right newId : Uuid}
    (executed : insertFriendship left right newId database = .ok ((), after)) :
    after = database ∧ database.areFriends left right = true ∨
    ∃ ordered friendships, database.friendships.insert {
        id := newId, userAId := min left right, userBId := max left right
        ordered } = some friendships ∧ after = { database with friendships } := by
  unfold insertFriendship at executed
  split at executed
  · rename_i friends
    cases executed
    exact .inl ⟨rfl, friends⟩
  · split at executed
    · rename_i ordered
      split at executed
      · rename_i friendships inserted
        cases executed
        exact .inr ⟨ordered, friendships, inserted, rfl⟩
      · cases executed
    · cases executed

theorem insertFriendship_requests {left right newId : Uuid}
    (executed : insertFriendship left right newId database = .ok ((), after)) :
    after.friendRequests = database.friendRequests := by
  rcases insertFriendship_ok executed with ⟨rfl, -⟩ | ⟨_, _, -, rfl⟩
  · rfl
  · rfl

theorem insertFriendship_friends {left right newId one other : Uuid}
    (executed : insertFriendship left right newId database = .ok ((), after)) :
    after.areFriends one other = true ↔ database.areFriends one other = true ∨
      (one = left ∧ other = right ∨ one = right ∧ other = left) := by
  rcases insertFriendship_ok executed with ⟨rfl, friends⟩ | ⟨_, friendships, inserted, rfl⟩
  · constructor
    · exact .inl
    · rintro (friends | ⟨rfl, rfl⟩ | ⟨rfl, rfl⟩)
      · exact friends
      · exact friends
      · rw [Database.areFriends_comm]
        exact friends
  · have rows := (Table.insert_rows inserted).1
    simp only [Database.areFriends, rows, List.any_cons, Bool.or_eq_true, Bool.and_eq_true,
      decide_eq_true_eq]
    rw [ordered_pair_eq, or_comm]

end Sql

theorem FriendStatement.execute_find {statement : FriendStatement} {reply : statement.Reply}
    (executed : statement.execute now database = .ok (reply, after)) {id : Uuid}
    {request : FriendRequest} (found : database.friendRequests.find id = some request) :
    after.friendRequests.find id =
      some (Statement.reviseFriendRequest now request (.friend statement)) := by
  cases statement with
  | insertRequest fromUserId toUserId newId =>
      rcases Sql.insertFriendRequest_ok executed with ⟨_, friendRequests, inserted, rfl⟩
      rw [Table.find_insert inserted, if_neg, found]
      · rfl
      · rintro rfl
        exact (Table.insert_rows inserted).2.2 (Table.issued_of_find found)
  | commitAccept transaction other fromUserId toUserId newId =>
      rw [Sql.insertFriendship_requests executed, Table.find_update, found, Option.map_some]
      simp only [Table.revise, Statement.reviseFriendRequest, decide_eq_true_eq]
  | decline other =>
      cases executed
      rw [Table.find_update, found, Option.map_some]
      simp only [Table.revise, Statement.reviseFriendRequest, decide_eq_true_eq]
  | _ =>
      cases executed
      exact found

theorem FriendStatement.execute_revised {statement : FriendStatement} {reply : statement.Reply}
    (executed : statement.execute now database = .ok (reply, after)) :
    database.friendRequests.Revised
      (fun request => Statement.reviseFriendRequest now request (.friend statement))
      (Statement.insertsFriendRequest now (.friend statement)) after.friendRequests := by
  cases statement with
  | insertRequest fromUserId toUserId newId =>
      rcases Sql.insertFriendRequest_ok executed with ⟨notSelf, _, inserted, rfl⟩
      exact .insert (fun _ _ => rfl) ⟨notSelf, rfl⟩ inserted
  | commitAccept transaction id fromUserId toUserId newId =>
      rw [Sql.insertFriendship_requests executed]
      refine .of_revised rfl fun request _ => ?_
      simp only [Table.revise, Statement.reviseFriendRequest, decide_eq_true_eq]
  | decline id =>
      cases executed
      refine .of_revised rfl fun request _ => ?_
      simp only [Table.revise, Statement.reviseFriendRequest, decide_eq_true_eq]
  | _ =>
      cases executed
      exact .of_same (fun _ => rfl) rfl

theorem FriendStatement.execute_friends {statement : FriendStatement} {reply : statement.Reply}
    (executed : statement.execute now database = .ok (reply, after)) {left right : Uuid}
    (friends : after.areFriends left right = true) :
    database.areFriends left right = true ∨
      Statement.befriends left right (.friend statement) := by
  cases statement with
  | insertRequest fromUserId toUserId newId =>
      rcases Sql.insertFriendRequest_ok executed with ⟨_, _, -, rfl⟩
      exact .inl friends
  | commitAccept transaction id fromUserId toUserId newId =>
      exact (Sql.insertFriendship_friends executed).mp friends
  | remove one other =>
      cases executed
      simp only [Database.areFriends, List.any_eq_true] at friends ⊢
      rcases friends with ⟨friendship, member, pair⟩
      exact .inl ⟨friendship, (Table.mem_delete.mp member).1, pair⟩
  | _ =>
      cases executed
      exact .inl friends

/-- A statement that succeeds leaves every friend request as `reviseFriendRequest`
says and inserts at most the one it names; only `befriends` makes friends. -/
structure Database.Befriended (statement : Statement) (now : Timestamp)
    (database after : Database) : Prop where
  found : ∀ id request, database.friendRequests.find id = some request →
    after.friendRequests.find id = some (statement.reviseFriendRequest now request)
  revised : database.friendRequests.Revised
    (fun request => statement.reviseFriendRequest now request)
    (statement.insertsFriendRequest now) after.friendRequests
  friends : ∀ left right, after.areFriends left right = true →
    database.areFriends left right = true ∨ statement.befriends left right

theorem Database.Befriended.of_same {statement : Statement}
    (same : ∀ request, statement.reviseFriendRequest now request = request)
    (requests : after.friendRequests = database.friendRequests)
    (friendships : after.friendships = database.friendships) :
    Database.Befriended statement now database after where
  found := by
    intro id request found
    rw [requests, same]
    exact found
  revised := .of_same same requests
  friends := by
    intro left right friends
    rw [Database.areFriends, friendships] at friends
    exact .inl friends

theorem Statement.execute_befriended {statement : Statement} {reply : statement.Reply}
    (executed : statement.execute now database = .ok (reply, after)) :
    Database.Befriended statement now database after := by
  cases statement with
  | friend statement =>
      exact ⟨fun _ _ => FriendStatement.execute_find executed,
        FriendStatement.execute_revised executed,
        fun _ _ => FriendStatement.execute_friends executed⟩
  | world =>
      rcases WorldStatement.execute_frame executed with ⟨_, _, _, rfl⟩
      exact .of_same (fun _ => rfl) rfl rfl
  | relay =>
      rcases RelayStatement.execute_frame executed with ⟨_, _, _, rfl⟩
      exact .of_same (fun _ => rfl) rfl rfl
  | presence =>
      rcases PresenceStatement.execute_frame executed with ⟨_, _, rfl⟩
      exact .of_same (fun _ => rfl) rfl rfl
  | join =>
      rcases JoinStatement.execute_frame executed with ⟨_, _, _, rfl⟩
      exact .of_same (fun _ => rfl) rfl rfl
  | invite =>
      rcases InviteStatement.execute_frame executed with ⟨_, _, _, rfl⟩
      exact .of_same (fun _ => rfl) rfl rfl
  | maintenance =>
      rcases MaintenanceStatement.execute_frame executed with ⟨_, _, _, _, _, rfl⟩
      exact .of_same (fun _ => rfl) rfl rfl

end Statements

end Loontail
