import Loontail.Guarantees.BlockedAccounts

/-! # One administrator always remains

The guard counts the administrators that are not blocked in statements of its own;
the demotion, deletion or block it guards comes later, and does not count again. -/

namespace Loontail.Accounts

open Concurrency Relational

def Request.removesAdmin : Request → Bool
  | .patchUser .. => true
  | .deleteUser .. => true
  | .blockUser .. => true
  | _ => false

def Removing (choice : Move Request) : Prop :=
  ∀ request, choice = .start request → request.removesAdmin = true

def Statement.demotes : Statement → Option Uuid
  | .updateUser id patch => if patch.isAdmin = some false then some id else none
  | .deleteUser id => some id
  | .setBlocked id true => some id
  | _ => none

def demoted (event : Event accounts) : Option Uuid :=
  match event.operation, event.result with
  | .statement (.updateUser _ _), .ok (.error _) => none
  | .statement statement, .ok _ => statement.demotes
  | _, _ => none

def Database.HasAdmin (database : Database) : Prop :=
  ∃ user ∈ database.users.rows, user.usableAdmin = true

instance (database : Database) : Decidable database.HasAdmin := by
  unfold Database.HasAdmin
  infer_instance

/-- What the guard asks holds when its user is demoted: the user is no usable
administrator, or not the last. -/
def GuardHolds (event : Event accounts) : Prop :=
  ∀ id ∈ demoted event, Sql.isUsableAdmin id event.before.database = true →
    2 ≤ Sql.countUsableAdmins event.before.database

instance (event : Event accounts) : Decidable (GuardHolds event) := by
  unfold GuardHolds
  infer_instance

/-! ## Who remains -/

section Remaining

variable {database : Database}

theorem Database.otherAdmin {id : Uuid} (two : 2 ≤ Sql.countUsableAdmins database) :
    ∃ user ∈ database.users.rows, user.usableAdmin = true ∧ user.id ≠ id := by
  by_contra alone
  have named : ∀ user ∈ database.users.rows, user.usableAdmin = true → user.id = id := by
    intro user member usable
    by_contra other
    exact alone ⟨user, member, usable, other⟩
  have once := @Table.affected_le_one _ _ _ userLayout _ database.users
    (fun user => user.usableAdmin && user.id = id) id (by simp)
  have same : Sql.countUsableAdmins database =
      database.users.affected fun user => user.usableAdmin && user.id = id := by
    refine List.countP_congr fun user member => ?_
    simpa using named user member
  omega

/-- While the guard holds of a user, an administrator remains without the user. -/
theorem Database.HasAdmin.without {id : Uuid} (admin : database.HasAdmin)
    (guarded : Sql.isUsableAdmin id database = true → 2 ≤ Sql.countUsableAdmins database) :
    ∃ user ∈ database.users.rows, user.usableAdmin = true ∧ user.id ≠ id := by
  obtain ⟨user, member, usable⟩ := admin
  by_cases same : user.id = id
  · refine Database.otherAdmin (guarded ?_)
    simp only [Sql.isUsableAdmin, List.any_eq_true, Bool.and_eq_true, decide_eq_true_eq]
    exact ⟨user, member, same, usable⟩
  · exact ⟨user, member, usable, same⟩

end Remaining

theorem Statement.sets_usableAdmin {statement : Statement} {user : User}
    (usable : user.usableAdmin = true) (spared : statement.demotes ≠ some user.id) :
    (statement.sets user).usableAdmin = true := by
  simp only [User.usableAdmin, Bool.and_eq_true, Bool.not_eq_true'] at usable ⊢
  rcases statement.sets_blocked user with same | ⟨blocked, rfl, -⟩
  · rw [same]
    refine ⟨?_, usable.2⟩
    unfold Statement.sets
    split
    case h_1 id patch =>
        split
        · rename_i here
          subst here
          simp only [Sql.UpdateUser.apply]
          cases set : patch.isAdmin with
          | none => simpa using usable.1
          | some isAdmin =>
              cases isAdmin with
              | true => rfl
              | false => simp [demotes, set] at spared
        · exact usable.1
    all_goals first
      | exact usable.1
      | (split <;> exact usable.1)
  · cases blocked with
    | true => exact (spared rfl).elim
    | false => simpa [sets] using usable.1

/-- Of an executed statement the event demotes whom the statement demotes; a PATCH
that a unique index refused changed nothing. -/
theorem demoted_of_executed {before : Service} {database : Database} {statement : Statement}
    {reply : statement.Reply}
    (executed : statement.execute before.clock before.database = .ok (reply, database))
    (process : Nat) :
    demoted ⟨process, before, .statement statement, .ok reply, { before with database }⟩ =
        statement.demotes ∨ database = before.database := by
  cases statement with
  | updateUser id patch =>
      cases reply with
      | ok updated => exact .inl rfl
      | error index =>
          rcases Sql.reviseUser_ok executed with ⟨unchanged, -⟩ | ⟨_, _, -, -, -, same, -⟩
          · exact .inr unchanged
          · cases same
  | _ => exact .inl rfl

theorem usableAdmin_executed {now : Timestamp} {database after : Database}
    {statement : Statement} {reply : statement.Reply} {user : User}
    (executed : statement.execute now database = .ok (reply, after))
    (member : user ∈ database.users.rows) (usable : user.usableAdmin = true)
    (spared : statement.demotes ≠ some user.id) : after.HasAdmin := by
  have found : database.users.find user.id = some user := Table.find_eq_some.mpr ⟨member, rfl⟩
  have standing : statement ≠ .deleteUser user.id := by
    rintro rfl
    exact spared rfl
  rcases (Statement.execute_keeps executed).found user.id user found standing with same | set
  · exact ⟨user, (Table.find_eq_some.mp same).1, usable⟩
  · exact ⟨statement.sets user, (Table.find_eq_some.mp set).1,
      Statement.sets_usableAdmin usable spared⟩

theorem hasAdmin_event {event : Event accounts} (happened : event.Happened)
    (guarded : GuardHolds event) (was : event.before.database.HasAdmin) :
    event.after.database.HasAdmin := by
  rcases event with ⟨process, before, operation, result, after⟩
  have occurs : accounts.Occurs before operation result after := happened
  cases operation with
  | statement statement =>
      rcases occurs_statement occurs with ⟨-, -, rfl⟩ | ⟨reply, database, rfl, executed, rfl⟩
      · exact was
      · rcases demoted_of_executed executed process with same | unchanged
        · have asked : ∀ id, statement.demotes = some id →
              Sql.isUsableAdmin id before.database = true →
                2 ≤ Sql.countUsableAdmins before.database := fun id demotes =>
            guarded id (same.trans demotes)
          obtain ⟨user, member, usable, spared⟩ : ∃ user ∈ before.database.users.rows,
              user.usableAdmin = true ∧ statement.demotes ≠ some user.id := by
            cases demotes : statement.demotes with
            | none =>
                obtain ⟨user, member, usable⟩ := was
                exact ⟨user, member, usable, by simp⟩
            | some id =>
                obtain ⟨user, member, usable, other⟩ := was.without (asked id demotes)
                exact ⟨user, member, usable, by simpa using Ne.symm other⟩
          exact usableAdmin_executed executed member usable spared
        · change Database.HasAdmin database
          rw [unchanged]
          exact was
  | _ =>
      obtain ⟨_, _, left⟩ := occurs_database (by simp) occurs
      change Database.HasAdmin after.database
      rw [left]
      exact was

/-- While the guard still holds when its user is demoted, deleted or blocked, every
state that a run reaches has an administrator. -/
theorem last_admin_remains (state : AppState) (database : Database) (clock : Timestamp)
    (admin : database.HasAdmin) {moves : List (Move Request)}
    {final : Pool accounts Request (Except AppError Reply)}
    (reached : run (Pool.move (handle state)) (.initial (.boot database clock)) moves =
      some final) (guarded : ∀ event ∈ final.history, GuardHolds event) :
    final.shared.database.HasAdmin := by
  refine @Traced.invariant accounts _ _ _ (fun _ service => service.database.HasAdmin)
    (Pool.traced_of_run reached) admin ?_
  intro event older suffix happened was
  exact hasAdmin_event happened (guarded event (suffix.subset (by simp))) was

/-! ## Two administrators demote each other -/

def kai : User where
  id := 7
  minecraftUuid := none
  username := "Kai"
  normalizedUsername := "kai"
  email := none
  passwordHash := some "kai"
  profileUuid := some "00000000000000000000000000000007"
  confirmed := true
  blocked := false
  isAdmin := true

def twoAdminsDatabase : Database :=
  { steveDatabase with
    users := {
      rows := [alex, kai]
      issued := [5, 6, 7]
      keysUnique := by decide
      slotsUnique := by decide
      keysIssued := by decide }
    sessions := {
      rows := [⟨"alex", 6, 100000000, none⟩, ⟨"kai", 7, 100000000, none⟩]
      issued := ["session", "alex", "kai"]
      keysUnique := by decide
      slotsUnique := by decide
      keysIssued := by decide }
    yggdrasilTokens := .empty }

def demoting (token : String) (id : Uuid) : Request :=
  .patchUser (bearing token) id ⟨none, none, some false, none⟩

/-- The second demotion begins when the first is through, and its caller is none. -/
def demotedInTurn : List (Move Request) :=
  .start (demoting "alex" 7) :: List.replicate 5 (.advance 0) ++
    [.start (demoting "kai" 6), .advance 1]

theorem last_admin_remains_in_turn :
    ∃ final, run (Pool.move (handle plainState)) (.initial (.boot twoAdminsDatabase 0))
        demotedInTurn = some final ∧
      (∃ event ∈ final.history, demoted event = some 7) ∧ final.shared.database.HasAdmin := by
  have inTurn : ((run (Pool.move (handle plainState)) (.initial (.boot twoAdminsDatabase 0))
      demotedInTurn).map fun final => decide (
        (∃ event ∈ final.history, demoted event = some 7) ∧
        ∀ event ∈ final.history, GuardHolds event)) = some true := by
    decide +kernel
  rcases Option.map_eq_some_iff.mp inTurn with ⟨final, reached, holds⟩
  rcases of_decide_eq_true holds with ⟨demotes, guarded⟩
  exact ⟨final, reached, demotes, last_admin_remains plainState twoAdminsDatabase 0
    (by decide) reached guarded⟩

/-- Both guards count two administrators before either is demoted. -/
def demotedAtOnce : List (Move Request) :=
  [.start (demoting "alex" 7), .start (demoting "kai" 6)] ++
    List.replicate 3 (.advance 0) ++ List.replicate 3 (.advance 1) ++
    List.replicate 2 (.advance 0) ++ List.replicate 2 (.advance 1)

/-- No administrator may remain. -/
theorem no_admin_remains :
    ¬∀ (state : AppState) (database : Database) (clock : Timestamp)
      (moves : List (Move Request)) (final : Pool accounts Request (Except AppError Reply)),
      database.HasAdmin → (∀ choice ∈ moves, Removing choice) →
      run (Pool.move (handle state)) (.initial (.boot database clock)) moves = some final →
        final.shared.database.HasAdmin := by
  intro remains
  have atOnce : ((run (Pool.move (handle plainState)) (.initial (.boot twoAdminsDatabase 0))
      demotedAtOnce).map fun final => decide (¬final.shared.database.HasAdmin)) = some true := by
    decide +kernel
  rcases Option.map_eq_some_iff.mp atOnce with ⟨final, reached, holds⟩
  refine of_decide_eq_true holds (remains plainState twoAdminsDatabase 0 demotedAtOnce final
    (by decide) ?_ reached)
  simp [demotedAtOnce, Removing, demoting, Request.removesAdmin]

end Loontail.Accounts
