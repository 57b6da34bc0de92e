import Loontail.Accounts.Credentials
import Loontail.Accounts.Writes
import Loontail.Concurrency.Sequence

/-! # Calls that write identities

The six writers of a user's row: the two bootstraps, the administrator's creation and
PATCH, registration and login. -/

namespace Loontail.Accounts

open Concurrency Relational Fallible

inductive IdentityCall where
  | bootstrap (parts : Parts) (minecraftUuid : String)
  | findOrCreate (ident : Identity.BootstrapIdentity) (draws : Draws)
  | adminCreate (input : Identity.AdminCreateUser) (draws : Draws)
  | register (body : Account.RegisterRequest) (draws : Draws)
  | login (body : Account.LoginRequest) (draws : Draws)
  | update (id : Uuid) (patch : Identity.UpdateUser)

def IdentityCall.handler (state : AppState) : IdentityCall → Handler Uuid
  | .bootstrap parts minecraftUuid => do
      let account ← Account.bootstrap state parts minecraftUuid
      pure account.id
  | .findOrCreate ident draws => do
      let user ← Identity.findOrCreateFromBootstrap state ident draws
      pure user.id
  | .adminCreate input draws => do
      let user ← Identity.adminCreateUser state input draws
      pure user.id
  | .register body draws => do
      let response ← Account.register state body draws
      pure response.profile.id
  | .login body draws => do
      let response ← Account.login state body draws
      pure response.profile.id
  | .update id patch => do
      let user ← Identity.updateUser state id patch
      pure user.id

def handleIdentity (state : AppState) (call : IdentityCall) :
    Process accounts (Except AppError Uuid) :=
  (call.handler state).run

abbrev IdentityPool : Type := Pool accounts IdentityCall (Except AppError Uuid)

/-! ## Judging handlers under a condition on events -/

section Rules

variable {index : Nat} {Condition : Event accounts → Prop} {service : Service}
  {onError : AppError → Service → Prop}

theorem query_provided {statement : Statement} {onOk : statement.Reply → Service → Prop}
    (ok : ∀ reply database, statement.execute service.clock service.database =
        .ok (reply, database) →
      Condition ⟨index, service, .statement statement, .ok reply, { service with database }⟩ →
        onOk reply { service with database })
    (error : ∀ error, onError (.database error) service) :
    (query statement).Meets (.provided accounts index Condition) onOk onError service := by
  refine (meets_query statement).mpr fun result after occurs met => ?_
  rcases occurs_statement occurs with ⟨failure, rfl, rfl⟩ | ⟨reply, database, rfl, executed, rfl⟩
  · exact error failure
  · exact ok reply database executed met

theorem read_provided {statement : Statement} {onOk : statement.Reply → Service → Prop}
    {answer : statement.Reply}
    (reads : statement.execute service.clock service.database = .ok (answer, service.database))
    (ok : onOk answer service) (error : ∀ error, onError (.database error) service) :
    (query statement).Meets (.provided accounts index Condition) onOk onError service := by
  refine query_provided (fun reply database executed _ => ?_) error
  rw [reads] at executed
  cases executed
  exact ok

end Rules

/-! ## What a bootstrap of the mod leaves -/

/-- The user that a bootstrap answers with has both identifiers; of the other users
nothing is changed. -/
structure Bootstrapped (before : Database) (minecraft profile : String) (user : User)
    (after : Database) : Prop where
  made : Text.undashUuid minecraft = .ok profile
  member : user ∈ after.users.rows
  identified : user.minecraftUuid = some minecraft
  profiled : user.profileUuid = some profile
  others : ∀ row ∈ after.users.rows, row = user ∨ row ∈ before.users.rows
  kept : ∀ row ∈ before.users.rows, row ∈ after.users.rows ∨ row.id = user.id ∧
    (row.minecraftUuid = some minecraft ∨ row.profileUuid = some profile)

theorem Bootstrapped.of_refreshed {before after : Database} {minecraft profile : String}
    {existing user : User} {refresh : Sql.BootstrapRefresh}
    (made : Text.undashUuid minecraft = .ok profile) (present : existing ∈ before.users.rows)
    (known : existing.minecraftUuid = some minecraft ∨ existing.profileUuid = some profile)
    (setMinecraft : (refresh.apply existing).minecraftUuid = some minecraft)
    (setProfile : (refresh.apply existing).profileUuid = some profile)
    (executed : Sql.reviseUser existing.id refresh.apply (fun _ => rfl) before =
      .ok (.ok (some user), after)) : Bootstrapped before minecraft profile user after := by
  rcases Sql.reviseUser_ok executed with ⟨-, ⟨-, impossible⟩ | ⟨_, impossible⟩⟩ |
    ⟨row, users, found, claimed, -, same, rfl⟩
  · cases impossible
  · cases impossible
  have own : row = existing := Table.eq_of_key_eq (Table.find_eq_some.mp found).1 present
    (Table.find_eq_some.mp found).2
  subst own
  cases same
  have rows := (Table.claim_rows claimed).1
  constructor
  · exact made
  · rw [rows]
    exact Table.mem_revised.mpr ⟨row, present, by simp [Table.revise]⟩
  · exact setMinecraft
  · exact setProfile
  · intro other among
    exact (Database.kept_or_set found (rows ▸ among)).symm
  · intro other among
    by_cases here : other.id = row.id
    · obtain rfl := Table.eq_of_key_eq among present here
      exact .inr ⟨rfl, known⟩
    · left
      rw [rows]
      exact Table.mem_revised.mpr ⟨other, among, by simp [Table.revise, here]⟩

theorem Bootstrapped.of_inserted {before after : Database} {minecraft profile : String}
    {inserted user : User} (made : Text.undashUuid minecraft = .ok profile)
    (setMinecraft : inserted.minecraftUuid = some minecraft)
    (setProfile : inserted.profileUuid = some profile)
    (executed : Sql.insertUser inserted before = .ok (.ok user, after)) :
    Bootstrapped before minecraft profile user after := by
  rcases Sql.insertUser_ok executed with ⟨_, impossible, -⟩ | ⟨users, grown, -, same, rfl⟩
  · cases impossible
  cases same
  constructor
  · exact made
  · exact (Table.mem_insert grown).mpr (.inl rfl)
  · exact setMinecraft
  · exact setProfile
  · exact fun row member => (Table.mem_insert grown).mp member
  · exact fun row member => .inl ((Table.mem_insert grown).mpr (.inr member))

section Bootstrap

variable {state : AppState} {index : Nat} {Condition : Event accounts → Prop} {service : Service}
  {ident : Identity.BootstrapIdentity}

theorem refreshBootstrapRow_provided {existing : User} {minecraft profile normalized : String}
    {bindMinecraft bindProfile : Option String}
    (made : Text.undashUuid minecraft = .ok profile)
    (present : existing ∈ service.database.users.rows)
    (known : existing.minecraftUuid = some minecraft ∨ existing.profileUuid = some profile)
    (setMinecraft : (bindMinecraft.orElse fun _ => existing.minecraftUuid) = some minecraft)
    (setProfile : (bindProfile.orElse fun _ => existing.profileUuid) = some profile) :
    (Identity.refreshBootstrapRow existing.id ident normalized bindMinecraft bindProfile).Meets
      (.provided accounts index Condition)
      (fun user after => ∃ profile,
        Bootstrapped service.database minecraft profile user after.database)
      (fun _ after => after.database = service.database) service := by
  refine (meets_bind _ _).mpr (query_provided (fun reply database executed _ => ?_) fun _ => rfl)
  refine (meets_bind _ _).mpr ((Identity.meets_uniqueOr _ _).mpr ⟨?_, ?_⟩)
  · rintro taken rfl
    rcases Sql.reviseUser_ok executed with ⟨same, -⟩ | ⟨_, _, -, -, -, impossible, -⟩
    · exact same
    · cases impossible
  · rintro updated rfl
    refine (meets_okOr _ _).mpr ⟨?_, ?_⟩
    · rintro rfl
      rcases Sql.reviseUser_ok executed with ⟨same, -⟩ | ⟨_, _, -, -, -, impossible, -⟩
      · exact same
      · cases impossible
    · rintro user rfl
      refine ⟨profile, .of_refreshed made present known ?_ ?_ executed⟩
      · exact setMinecraft
      · exact setProfile

theorem findOrCreate_provided {draws : Draws} :
    (Identity.findOrCreateFromBootstrap state ident draws).Meets
      (.provided accounts index Condition)
      (fun user after => ∃ profile, Bootstrapped service.database (Text.trim ident.minecraftUuid)
        profile user after.database)
      (fun _ after => after.database = service.database) service := by
  refine (meets_bind _ _).mpr ((meets_refuse _ _).mpr ⟨fun _ => rfl, fun _ => ?_⟩)
  refine (meets_bind _ _).mpr ((meets_refuse _ _).mpr ⟨fun _ => rfl, fun _ => ?_⟩)
  refine (meets_bind _ _).mpr ((meets_lift _).mpr ⟨fun _ _ => rfl, fun profile ok => ?_⟩)
  have made : Text.undashUuid (Text.trim ident.minecraftUuid) = .ok profile := by
    cases undashed : Text.undashUuid (Text.trim ident.minecraftUuid) with
    | ok value =>
        rw [undashed] at ok
        cases ok
        rfl
    | error message =>
        rw [undashed] at ok
        cases ok
  refine (meets_bind _ _).mpr (read_provided rfl ?_ fun _ => rfl)
  split
  · rename_i existing found
    -- found by its Minecraft identifier: the profile is set
    obtain ⟨member, held⟩ := Sql.selectByMinecraftUuid_some found
    exact refreshBootstrapRow_provided made member (.inl held) (by simp [held]) rfl
  · refine (meets_bind _ _).mpr (read_provided rfl ?_ fun _ => rfl)
    split
    · rename_i existing found
      -- found by its profile: the Minecraft identifier is bound
      obtain ⟨member, held⟩ := Sql.selectByProfileUuid_some found
      exact refreshBootstrapRow_provided made member (.inr held) rfl (by simp [held])
    · refine (meets_bind _ _).mpr (query_provided (fun reply database executed _ => ?_)
        fun _ => rfl)
      refine (Identity.meets_uniqueOr _ _).mpr ⟨?_, ?_⟩
      · rintro taken rfl
        rcases Sql.insertUser_ok executed with ⟨_, -, same⟩ | ⟨_, -, -, impossible, -⟩
        · exact same
        · cases impossible
      · rintro user rfl
        exact ⟨profile, .of_inserted made rfl rfl executed⟩

end Bootstrap

end Loontail.Accounts
