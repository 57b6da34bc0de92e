import Loontail.Accounts.Footprints
import Loontail.Accounts.TokenCalls
import Loontail.Guarantees.LastAdmin

/-! # An administrator who can log in

The guard looks at two columns of a user, a login at four. What the guard leaves
may be an administrator who cannot log in. -/

namespace Loontail.Accounts

open Concurrency Relational Fallible

def Request.administers : Request → Bool
  | .createUser .. => true
  | .patchUser .. => true
  | .blockUser .. => true
  | .unblockUser .. => true
  | .deleteUser .. => true
  | .resetPassword .. => true
  | .revokeTokens .. => true
  | _ => false

def Administering (choice : Turn Request) : Prop :=
  ∃ request faults, choice = .atomically request faults ∧ request.administers = true

def User.adminLogin (user : User) : Bool := user.isAdmin && user.canLogIn

def Database.HasAdminLogin (database : Database) : Prop :=
  ∃ user ∈ database.users.rows, user.adminLogin = true

instance (database : Database) : Decidable database.HasAdminLogin := by
  unfold Database.HasAdminLogin
  infer_instance

def Sql.UpdateUser.lowers (patch : Sql.UpdateUser) : Bool :=
  patch.isAdmin = some false || patch.confirmed = some false

/-- The user from whom the request takes the login of an administrator, unless a
unique index refuses the patch, beside the headers by which its caller is known. -/
def Request.strips (state : AppState) (database : Database) : Request → Option (Parts × Uuid)
  | .patchUser parts id body =>
      if (body.columns state).lowers && (database.users.find id).any fun user =>
        Sql.violated database ((body.columns state).apply user) = none then some (parts, id)
      else none
  | .deleteUser parts id => some (parts, id)
  | .blockUser parts id => some (parts, id)
  | _ => none

def Request.guarded : Request → Bool
  | .patchUser _ _ body => body.isAdmin = some false
  | .deleteUser .. => true
  | .blockUser .. => true
  | _ => false

/-- An administrator strips a user only while another administrator can log in, or
in a request that the guard refuses. -/
def LoginSpared (state : AppState) (service : Service) (request : Request) : Prop :=
  ∀ target ∈ request.strips state service.database,
    (adminCaller state service target.1).isSome = true →
      (∃ user ∈ service.database.users.rows, user.adminLogin = true ∧ user.id ≠ target.2) ∨
      (request.guarded = true ∧ Sql.isUsableAdmin target.2 service.database = true ∧
        Sql.countUsableAdmins service.database ≤ 1)

instance (state : AppState) (service : Service) (request : Request) :
    Decidable (LoginSpared state service request) := by
  unfold LoginSpared
  infer_instance

/-! ## What statements leave -/

def Statement.strips : Statement → Option Uuid
  | .updateUser id patch => if patch.lowers then some id else none
  | .deleteUser id => some id
  | .setBlocked id true => some id
  | _ => none

theorem Sql.UpdateUser.apply_adminLogin {patch : UpdateUser} {user : User}
    (login : user.adminLogin = true) (raises : patch.lowers = false) :
    (patch.apply user).adminLogin = true := by
  simp only [lowers, Bool.or_eq_false_iff, decide_eq_false_iff_not] at raises
  simp only [User.adminLogin, User.canLogIn, Bool.and_eq_true] at login ⊢
  refine ⟨?_, ⟨login.2.1.1, ?_⟩, login.2.2⟩
  · cases set : patch.isAdmin with
    | none => simpa [apply, set] using login.1
    | some isAdmin => cases isAdmin <;> simp_all [apply]
  · cases set : patch.confirmed with
    | none => simpa [apply, set] using login.2.1.2
    | some confirmed => cases confirmed <;> simp_all [apply]

theorem Statement.sets_adminLogin {statement : Statement} {user : User}
    (login : user.adminLogin = true) (spared : statement.strips ≠ some user.id) :
    (statement.sets user).adminLogin = true := by
  unfold Statement.sets
  split
  case h_1 id patch =>
      split
      · rename_i here
        subst here
        refine Sql.UpdateUser.apply_adminLogin login ?_
        simpa [strips] using spared
      · exact login
  case h_4 id hash =>
      split
      · simp only [User.adminLogin, User.canLogIn, Bool.and_eq_true] at login ⊢
        exact ⟨login.1, login.2.1, rfl⟩
      · exact login
  case h_5 id blocked =>
      split
      · rename_i here
        subst here
        cases blocked with
        | true => exact (spared rfl).elim
        | false =>
            simp only [User.adminLogin, User.canLogIn, Bool.and_eq_true] at login ⊢
            exact ⟨login.1, ⟨rfl, login.2.1.2⟩, login.2.2⟩
      · exact login
  all_goals first
    | exact login
    | (split <;> exact login)

theorem adminLogin_executed {now : Timestamp} {database after : Database}
    {statement : Statement} {reply : statement.Reply} {user : User}
    (executed : statement.execute now database = .ok (reply, after))
    (member : user ∈ database.users.rows) (login : user.adminLogin = true)
    (spared : statement.strips ≠ some user.id) : after.HasAdminLogin := by
  have found : database.users.find user.id = some user := Table.find_eq_some.mpr ⟨member, rfl⟩
  have standing : statement ≠ .deleteUser user.id := by
    rintro rfl
    exact spared rfl
  rcases (Statement.execute_keeps executed).found user.id user found standing with same | set
  · exact ⟨user, (Table.find_eq_some.mp same).1, login⟩
  · exact ⟨statement.sets user, (Table.find_eq_some.mp set).1,
      Statement.sets_adminLogin login spared⟩

theorem Database.HasAdminLogin.executed {now : Timestamp} {database after : Database}
    {statement : Statement} {reply : statement.Reply}
    (was : database.HasAdminLogin) (spares : statement.strips = none)
    (executed : statement.execute now database = .ok (reply, after)) : after.HasAdminLogin := by
  obtain ⟨user, member, login⟩ := was
  exact adminLogin_executed executed member login (by simp [spares])

/-! ## What requests leave -/

def Spares (operation : Operation) : Prop :=
  ∀ statement, operation = .statement statement → statement.strips = none

theorem spares_occurs (before : Service) (operation : Operation) (result : operation.Result)
    (after : Service) (spares : Spares operation) (was : before.database.HasAdminLogin)
    (occurs : accounts.Occurs before operation result after) : after.database.HasAdminLogin := by
  cases operation with
  | statement statement =>
      rcases occurs_statement occurs with ⟨-, -, rfl⟩ | ⟨reply, database, -, executed, rfl⟩
      · exact was
      · exact was.executed (spares statement rfl) executed
  | _ =>
      obtain ⟨_, _, left⟩ := occurs_database (by simp) occurs
      rw [left]
      exact was

structure Database.OtherLogin (database : Database) (id : Uuid) (user : User) : Prop where
  member : user ∈ database.users.rows
  login : user.adminLogin = true
  other : user.id ≠ id

theorem Database.OtherLogin.executed {now : Timestamp} {database after : Database} {id : Uuid}
    {statement : Statement} {reply : statement.Reply} {user : User}
    (others : database.OtherLogin id user)
    (strips : ∀ other, statement.strips = some other → other = id)
    (executed : statement.execute now database = .ok (reply, after)) : after.HasAdminLogin :=
  adminLogin_executed executed others.member others.login fun same =>
    others.other (strips _ same)

section Requests

variable {state : AppState} {service : Service}

theorem spares_statement {statement : Statement} (spares : statement.strips = none) :
    Spares (.statement statement) := by
  rintro other ⟨⟩
  exact spares

theorem administers_spares {request : Request} (administers : request.administers = true)
    (unguarded : request.removesAdmin = false) : (handle state request).Uses Spares := by
  have reads (tokenHash : String) : Spares (.statement (.userFromToken tokenHash)) :=
    spares_statement rfl
  have revokes (id : Uuid) : Takes Spares (Admin.revokeCredentials id) :=
    revokeCredentials_takes (spares_statement rfl) (spares_statement rfl)
  refine Takes.uses ?_
  cases request with
  | createUser parts body draws =>
      refine Takes.map ((adminUser_takes reads parts).bind fun admin => ?_) _
      exact (adminCreateUser_takes (fun _ => spares_statement rfl) body draws).bind fun _ =>
        takes_pure _
  | unblockUser parts id =>
      refine Takes.map ((adminUser_takes reads parts).bind fun admin => ?_) _
      exact (setBlocked_takes (spares_statement rfl)).bind fun _ => takes_pure _
  | resetPassword parts id password draws =>
      refine Takes.map ((adminUser_takes reads parts).bind fun admin => ?_) _
      refine (setPassword_takes (fun _ => spares_statement rfl) password draws.salt).bind fun _ => ?_
      exact (revokes id).bind fun _ => takes_pure _
  | revokeTokens parts id =>
      refine Takes.map ((adminUser_takes reads parts).bind fun admin => ?_) _
      refine (loadUser_takes (fun _ => spares_statement rfl) id).bind fun _ => ?_
      exact (revokes id).bind fun _ => takes_pure _
  | patchUser parts id body => cases unguarded
  | deleteUser parts id => cases unguarded
  | blockUser parts id => cases unguarded
  | _ => cases administers

theorem guardLastAdmin_everyWay {id : Uuid} {onOk : Unit → Service → Prop}
    {onError : AppError → Service → Prop}
    (ok : ¬(Sql.isUsableAdmin id service.database = true ∧
      Sql.countUsableAdmins service.database ≤ 1) → onOk () service)
    (error : ∀ error, onError error service) :
    (Admin.guardLastAdmin id).Meets (.everyWay accounts) onOk onError service := by
  refine (meets_bind _ _).mpr (query_everyWay (fun usable database executed => ?_) fun _ =>
    error _)
  cases executed
  refine (meets_whenever _ _).mpr ⟨fun is => ?_, fun isNot => ok fun last => ?_⟩
  · refine (meets_bind _ _).mpr (query_everyWay (fun count database executed => ?_) fun _ =>
      error _)
    cases executed
    refine (meets_refuse _ _).mpr ⟨fun _ => error _, fun more => ok fun last => ?_⟩
    exact absurd last.2 (of_decide_eq_false more)
  · rw [last.1] at isNot
    cases isNot

/-- The statement strips the user, and somebody else can log in. -/
theorem strips_everyWay {statement : Statement} {id : Uuid}
    {onOk : statement.Reply → Service → Prop} {onError : AppError → Service → Prop}
    (strips : ∀ other, statement.strips = some other → other = id)
    (others : ∃ user, service.database.OtherLogin id user)
    (ok : ∀ reply after, after.database.HasAdminLogin → onOk reply after)
    (error : ∀ error, onError error service) :
    (query statement).Meets (.everyWay accounts) onOk onError service := by
  obtain ⟨user, others⟩ := others
  exact query_everyWay (fun reply database executed => ok reply _ (others.executed strips executed))
    fun _ => error _

theorem LoginSpared.others {request : Request} {parts : Parts} {id : Uuid}
    (spared : LoginSpared state service request)
    (strips : request.strips state service.database = some (parts, id))
    (called : (adminCaller state service parts).isSome = true)
    (passed : ¬(request.guarded = true ∧ Sql.isUsableAdmin id service.database = true ∧
      Sql.countUsableAdmins service.database ≤ 1)) :
    ∃ user, service.database.OtherLogin id user := by
  obtain ⟨user, member, login, other⟩ := (spared (parts, id) strips called).resolve_right passed
  exact ⟨user, member, login, other⟩

def LeavesLogin (service : Service) {Value : Type} (handler : Handler Value) : Prop :=
  handler.Meets (.everyWay accounts) (fun _ after => after.database.HasAdminLogin)
    (fun _ after => after.database.HasAdminLogin) service

theorem delete_leaves {parts : Parts} {id : Uuid} (was : service.database.HasAdminLogin)
    (spared : LoginSpared state service (.deleteUser parts id)) :
    LeavesLogin service (Admin.delete state parts id) := by
  refine (meets_bind _ _).mpr (adminUser_everyWay (fun admin called => ?_) fun _ => was)
  refine (meets_bind _ _).mpr ((meets_bind _ _).mpr (query_everyWay ?_ fun _ => was))
  intro user database executed
  cases executed
  refine (meets_okOr _ _).mpr ⟨fun _ => was, fun present _ => ?_⟩
  refine (meets_bind _ _).mpr (guardLastAdmin_everyWay (fun passed => ?_) fun _ => was)
  have others := spared.others rfl (by simp [called]) fun refused => passed refused.2
  refine (meets_bind _ _).mpr (strips_everyWay (by simp [Statement.strips]) others ?_ fun _ =>
    was)
  exact fun _ _ kept => (meets_pure _).mpr kept

theorem blockUser_leaves {parts : Parts} {id : Uuid} (was : service.database.HasAdminLogin)
    (spared : LoginSpared state service (.blockUser parts id)) :
    LeavesLogin service (Admin.blockUser state parts id) := by
  refine (meets_bind _ _).mpr (adminUser_everyWay (fun admin called => ?_) fun _ => was)
  refine (meets_bind _ _).mpr (guardLastAdmin_everyWay (fun passed => ?_) fun _ => was)
  have others := spared.others rfl (by simp [called]) fun refused => passed refused.2
  refine (meets_bind _ _).mpr ((meets_bind _ _).mpr
    (strips_everyWay (by simp [Statement.strips]) others ?_ fun _ => was))
  intro user after kept
  exact (meets_okOr _ _).mpr ⟨fun _ => kept, fun _ _ => (meets_pure _).mpr kept⟩

theorem patched_login {parts : Parts} {id : Uuid} {body : Identity.UpdateUser}
    (was : service.database.HasAdminLogin)
    (spared : LoginSpared state service (.patchUser parts id body))
    (called : (adminCaller state service parts).isSome = true)
    (passed : body.isAdmin = some false → ¬(Sql.isUsableAdmin id service.database = true ∧
      Sql.countUsableAdmins service.database ≤ 1))
    {reply : (Statement.updateUser id (body.columns state)).Reply} {database : Database}
    (executed : (Statement.updateUser id (body.columns state)).execute service.clock
      service.database = .ok (reply, database)) : database.HasAdminLogin := by
  rcases Sql.reviseUser_ok executed with ⟨rfl, -⟩ | ⟨user, _, found, -, free, -, -⟩
  · exact was
  · cases lowers : (body.columns state).lowers with
    | false => exact was.executed (by simp [Statement.strips, lowers]) executed
    | true =>
        have strips : Request.strips state service.database (.patchUser parts id body) =
            some (parts, id) := by
          simp [Request.strips, lowers, found, free]
        obtain ⟨other, others⟩ := spared.others strips called fun refused =>
          passed (of_decide_eq_true refused.1) refused.2
        refine others.executed (fun stripped same => ?_) executed
        simp only [Statement.strips, lowers, if_true, Option.some.injEq] at same
        exact same.symm

theorem patch_leaves {parts : Parts} {id : Uuid} {body : Identity.UpdateUser}
    (was : service.database.HasAdminLogin)
    (spared : LoginSpared state service (.patchUser parts id body)) :
    LeavesLogin service (Admin.patch state parts id body) := by
  refine (meets_bind _ _).mpr (adminUser_everyWay (fun admin called => ?_) fun _ => was)
  have updates : (body.isAdmin = some false → ¬(Sql.isUsableAdmin id service.database = true ∧
      Sql.countUsableAdmins service.database ≤ 1)) →
      LeavesLogin service (Identity.updateUser state id body >>= fun user =>
        whenever (body.isAdmin = some false) (do
          let _ ← query (.revokeAllSessions id)
          pure ()) >>= fun _ => pure (admin.id, user.adminView)) := by
    intro passed
    refine (meets_bind _ _).mpr ((meets_bind _ _).mpr (query_everyWay ?_ fun _ => was))
    intro reply database executed
    have kept := patched_login was spared (by simp [called]) passed executed
    simp only [meets_bind, Identity.meets_uniqueOr, meets_okOr, meets_whenever, meets_pure]
    refine ⟨fun _ _ => kept, fun _ _ => ⟨fun _ => kept, fun user _ => ⟨fun _ => ?_, fun _ => kept⟩⟩⟩
    refine query_everyWay (fun _ _ revoked => ?_) fun _ => kept
    exact Database.HasAdminLogin.executed kept rfl revoked
  refine (meets_bind _ _).mpr ((meets_whenever _ _).mpr ⟨fun lowers => ?_, fun keeps => ?_⟩)
  · refine guardLastAdmin_everyWay (fun passed => updates fun _ => passed) fun _ => was
  · exact updates fun lowers => absurd lowers (of_decide_eq_false keeps)

end Requests

/-- A request handled at once leaves an administrator who can log in. -/
theorem administers_leaves {state : AppState} {service : Service} {request : Request}
    (administers : request.administers = true) (was : service.database.HasAdminLogin)
    (spared : LoginSpared state service request) :
    (handle state request).Meets (.everyWay accounts)
      (fun _ after => after.database.HasAdminLogin) service := by
  cases request with
  | patchUser parts id body =>
      exact meets_run.mpr ((meets_map _ _).mpr (patch_leaves was spared))
  | deleteUser parts id =>
      exact meets_run.mpr ((meets_map _ _).mpr (delete_leaves was spared))
  | blockUser parts id =>
      exact meets_run.mpr ((meets_map _ _).mpr (blockUser_leaves was spared))
  | createUser parts body draws =>
      exact (administers_spares administers rfl).everyWay
        (fun before operation result after => spares_occurs before operation result after) was
  | unblockUser parts id =>
      exact (administers_spares administers rfl).everyWay
        (fun before operation result after => spares_occurs before operation result after) was
  | resetPassword parts id password draws =>
      exact (administers_spares administers rfl).everyWay
        (fun before operation result after => spares_occurs before operation result after) was
  | revokeTokens parts id =>
      exact (administers_spares administers rfl).everyWay
        (fun before operation result after => spares_occurs before operation result after) was
  | _ => cases administers

def TurnSpares (state : AppState) (pool : Pool accounts Request (Except AppError Reply)) :
    Turn Request → Prop
  | .atomically request _ => LoginSpared state pool.shared request
  | .move _ => True

instance (state : AppState) (pool : Pool accounts Request (Except AppError Reply))
    (choice : Turn Request) : Decidable (TurnSpares state pool choice) := by
  unfold TurnSpares
  split <;> infer_instance

/-- While the only administrator that can log in is stripped only where the guard
refuses, every sequence of operations leaves an administrator that can log in. -/
theorem admin_login_remains (state : AppState) (database : Database) (clock : Timestamp)
    (login : database.HasAdminLogin) {turns : List (Turn Request)}
    {final : Pool accounts Request (Except AppError Reply)}
    (administering : ∀ choice ∈ turns, Administering choice)
    (spared : Along (Pool.turn (handle state)) (TurnSpares state)
      (.initial (.boot database clock)) turns)
    (reached : run (Pool.turn (handle state)) (.initial (.boot database clock)) turns =
      some final) : final.shared.database.HasAdminLogin := by
  refine invariant_along
    (fun pool : Pool accounts Request (Except AppError Reply) =>
      pool.shared.database.HasAdminLogin) ?_ login
    ((Along.of_forall administering).and spared) reached
  rintro pool choice next was ⟨⟨request, faults, rfl, administers⟩, spares⟩ turned
  obtain ⟨outcome, executed, -⟩ := Pool.turn_atomically turned
  exact Process.execute_everyWay (administers_leaves administers was spares) executed

/-! ## An administrator unconfirms themselves -/

/-- The last administrator asks to be deleted, and the guard refuses. -/
def administeredWell : List (Turn Request) :=
  [.atomically (.patchUser (bearing "admin") 5 ⟨none, none, none, some false⟩) [],
    .atomically (.blockUser (bearing "admin") 5) [],
    .atomically (.deleteUser (bearing "admin") 6) []]

theorem admin_login_remains_well :
    ∃ final, run (Pool.turn (handle plainState)) (.initial (.boot adminDatabase 0))
        administeredWell = some final ∧
      (final.shared.database.users.find 5).map (·.blocked) = some true ∧
      final.shared.database.HasAdminLogin := by
  have well : ((run (Pool.turn (handle plainState)) (.initial (.boot adminDatabase 0))
      administeredWell).map fun final =>
        decide ((final.shared.database.users.find 5).map (·.blocked) = some true)) =
          some true := by
    decide +kernel
  rcases Option.map_eq_some_iff.mp well with ⟨final, reached, holds⟩
  refine ⟨final, reached, of_decide_eq_true holds, admin_login_remains plainState adminDatabase 0
    (by decide) ?_ (by decide +kernel) reached⟩
  simp [administeredWell, Administering, Request.administers]

/-- Nobody may be left who can log in as an administrator. -/
theorem no_admin_login_remains :
    ¬∀ (state : AppState) (database : Database) (clock : Timestamp)
      (turns : List (Turn Request)) (final : Pool accounts Request (Except AppError Reply)),
      database.HasAdminLogin → (∀ choice ∈ turns, Administering choice) →
      run (Pool.turn (handle state)) (.initial (.boot database clock)) turns = some final →
        final.shared.database.HasAdminLogin := by
  intro remains
  have unconfirmed : ((run (Pool.turn (handle plainState)) (.initial (.boot adminDatabase 0))
      [.atomically (.patchUser (bearing "admin") 6 ⟨none, none, none, some false⟩) []]).map
        fun final => decide (¬final.shared.database.HasAdminLogin)) = some true := by
    decide +kernel
  rcases Option.map_eq_some_iff.mp unconfirmed with ⟨final, reached, holds⟩
  refine of_decide_eq_true holds (remains plainState adminDatabase 0 _ final (by decide) ?_
    reached)
  simp [Administering, Request.administers]

end Loontail.Accounts
