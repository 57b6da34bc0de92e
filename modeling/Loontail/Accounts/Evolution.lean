import Loontail.Accounts.Holders

/-! # What statements make of users

A user is what the statement sets, or is as before; only a deletion takes a user
away, and no identifier comes back. -/

namespace Loontail.Accounts

open Concurrency Relational

theorem Database.id_of_find {database : Database} {id : Uuid} {user : User}
    (found : database.users.find id = some user) : user.id = id :=
  (Table.find_eq_some.mp found).2

def Statement.sets (user : User) : Statement → User
  | .updateUser id patch => if user.id = id then patch.apply user else user
  | .setProfileUuid id profileUuid =>
      if user.id = id then { user with profileUuid := some profileUuid } else user
  | .bindMinecraft id minecraftUuid =>
      if user.id = id then { user with
        minecraftUuid := user.minecraftUuid.orElse fun _ =>
          if minecraftUuid = "" then none else some minecraftUuid }
      else user
  | .setPassword id hash =>
      if user.id = id then { user with passwordHash := some hash } else user
  | .setBlocked id blocked => if user.id = id then { user with blocked } else user
  | .refreshBootstrap id refresh => if user.id = id then refresh.apply user else user
  | _ => user

@[simp] theorem Statement.sets_id (user : User) (statement : Statement) :
    (statement.sets user).id = user.id := by
  unfold Statement.sets
  split
  all_goals first
    | rfl
    | (split <;> rfl)

theorem Statement.sets_blocked (user : User) (statement : Statement) :
    (statement.sets user).blocked = user.blocked ∨
      ∃ blocked, statement = .setBlocked user.id blocked ∧
        (statement.sets user).blocked = blocked := by
  unfold Statement.sets
  split
  case h_5 id blocked =>
      split
      · rename_i here
        subst here
        exact .inr ⟨blocked, rfl, rfl⟩
      · exact .inl rfl
  all_goals first
    | exact .inl rfl
    | (split <;> exact .inl rfl)

/-- Every user found before is found after the statement, as it was or as the
statement sets it, and nobody else is, but under a new identifier. -/
structure Database.Keeps (statement : Statement) (before after : Database) : Prop where
  found : ∀ id user, before.users.find id = some user → statement ≠ .deleteUser id →
    after.users.find id = some user ∨ after.users.find id = some (statement.sets user)
  was : ∀ id user, after.users.find id = some user → id ∈ before.users.issued →
    ∃ earlier, before.users.find id = some earlier ∧
      (user = earlier ∨ user = statement.sets earlier)
  issued : ∀ id ∈ before.users.issued, id ∈ after.users.issued

namespace Database.Keeps

variable {statement : Statement} {before after : Database}

theorem of_same (same : after.users = before.users) : Keeps statement before after where
  found := fun id user found _ => .inl (by rw [same]; exact found)
  was := fun id user found _ => ⟨user, by rw [same] at found; exact found, .inl rfl⟩
  issued := fun id issued => by rw [same]; exact issued

theorem of_revised {selected : User → Bool} {set : User → User}
    (rows : after.users.rows = before.users.rows.map (Table.revise selected set))
    (issued : after.users.issued = before.users.issued)
    (keepsKey : ∀ row, selected row = true → (set row).id = row.id)
    (agrees : ∀ row, Table.revise selected set row = statement.sets row) :
    Keeps statement before after where
  found := by
    intro id user found _
    rw [Table.find_revised rows keepsKey, found, Option.map_some, agrees]
    exact .inr rfl
  was := by
    intro id user found _
    rw [Table.find_revised rows keepsKey] at found
    obtain ⟨earlier, present, rfl⟩ := Option.map_eq_some_iff.mp found
    exact ⟨earlier, present, .inr (agrees earlier)⟩
  issued := fun id member => by rw [issued]; exact member

theorem of_reviseUser {id : Uuid} {set : User → User}
    {keepsKey : ∀ user, (set user).id = user.id}
    {reply : Except UniqueIndex (Option User)}
    (agrees : ∀ user, (if user.id = id then set user else user) = statement.sets user)
    (executed : Sql.reviseUser id set keepsKey before = .ok (reply, after)) :
    Keeps statement before after := by
  rcases Sql.reviseUser_ok executed with ⟨rfl, -⟩ | ⟨user, users, found, claimed, -, -, rfl⟩
  · exact .of_same rfl
  · obtain ⟨rows, issued⟩ := Table.claim_rows claimed
    refine .of_revised rows issued (fun row _ => keepsKey row) fun row => ?_
    rw [← agrees row]
    by_cases here : row.id = id <;> simp [Table.revise, here]

end Database.Keeps

theorem Statement.execute_keeps {now : Timestamp} {database after : Database}
    {statement : Statement} {reply : statement.Reply}
    (executed : statement.execute now database = .ok (reply, after)) :
    database.Keeps statement after := by
  cases statement with
  | insertSession userId tokenHash expiresAt =>
      obtain ⟨_, -, rfl⟩ := Sql.insertSession_ok executed
      exact .of_same rfl
  | insertToken userId accessTokenHash clientToken expiresAt =>
      obtain ⟨_, -, rfl⟩ := Sql.insertToken_ok executed
      exact .of_same rfl
  | insertUser user =>
      rcases Sql.insertUser_ok executed with ⟨_, -, rfl⟩ | ⟨users, inserted, -, -, rfl⟩
      · exact .of_same rfl
      · obtain ⟨rows, issued, fresh⟩ := Table.insert_rows inserted
        have other : ∀ id, id ∈ database.users.issued →
            users.find id = database.users.find id := by
          intro id present
          rw [Table.find_insert inserted, if_neg]
          rintro rfl
          exact fresh present
        constructor
        · intro id earlier found _
          exact .inl ((other id (Table.issued_of_find found)).trans found)
        · intro id later found present
          exact ⟨later, (other id present).symm.trans found, .inl rfl⟩
        · intro id present
          change id ∈ users.issued
          rw [issued]
          exact List.mem_cons_of_mem _ present
  | updateUser id patch => exact .of_reviseUser (fun _ => rfl) executed
  | setProfileUuid id profileUuid => exact .of_reviseUser (fun _ => rfl) executed
  | bindMinecraft id minecraftUuid => exact .of_reviseUser (fun _ => rfl) executed
  | refreshBootstrap id refresh => exact .of_reviseUser (fun _ => rfl) executed
  | setPassword id hash =>
      cases executed
      refine .of_revised rfl rfl (fun _ _ => rfl) fun user => ?_
      by_cases here : user.id = id <;> simp [Table.revise, Statement.sets, here]
  | setBlocked id blocked =>
      cases executed
      refine .of_revised rfl rfl (fun _ _ => rfl) fun user => ?_
      by_cases here : user.id = id <;> simp [Table.revise, Statement.sets, here]
  | deleteUser id =>
      cases executed
      constructor
      · intro other user found spared
        obtain ⟨member, rfl⟩ := Table.find_eq_some.mp found
        refine .inl (Table.find_eq_some.mpr ⟨Table.mem_delete.mpr ⟨member, ?_⟩, rfl⟩)
        rw [decide_eq_false_iff_not]
        rintro rfl
        exact spared rfl
      · intro other user found _
        obtain ⟨member, rfl⟩ := Table.find_eq_some.mp found
        exact ⟨user, Table.find_eq_some.mpr ⟨(Table.mem_delete.mp member).1, rfl⟩, .inl rfl⟩
      · exact fun _ member => member
  | _ =>
      cases executed
      exact .of_same rfl

end Loontail.Accounts
