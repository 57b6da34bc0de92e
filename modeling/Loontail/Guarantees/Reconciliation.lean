import Loontail.Accounts.IdentityCalls
import Loontail.Guarantees.BlockedAccounts

/-! # Identity reconciliation

Where the Minecraft identifier of a user is known, the profile identifier is its
undashed form. Five of the six writers keep to this by themselves; the bootstrap of
the network domain fills the first column and leaves the second alone. -/

namespace Loontail.Accounts

open Concurrency Relational Fallible

def User.Reconciled (user : User) : Prop :=
  ∀ minecraft ∈ user.minecraftUuid, ∃ profile ∈ user.profileUuid,
    Text.undashUuid minecraft = .ok profile

instance (user : User) : Decidable user.Reconciled := by
  unfold User.Reconciled
  infer_instance

def Database.Reconciled (database : Database) : Prop :=
  ∀ user ∈ database.users.rows, user.Reconciled

instance (database : Database) : Decidable database.Reconciled := by
  unfold Database.Reconciled
  infer_instance

/-- The event has filled the column of the user with the identifier. -/
def fills : Event accounts → Option (Uuid × String)
  | ⟨_, _, .statement (.bindMinecraft id minecraft), .ok (.ok _), _⟩ => some (id, minecraft)
  | _ => none

/-- An identifier that filled an unset column makes the profile identifier that the user
has. -/
def FillsOwn (event : Event accounts) : Prop :=
  ∀ filled ∈ fills event, ∀ user ∈ event.before.database.users.find filled.1,
    user.minecraftUuid = none → filled.2 ≠ "" →
      ∃ profile ∈ user.profileUuid, Text.undashUuid filled.2 = .ok profile

instance (event : Event accounts) : Decidable (FillsOwn event) := by
  unfold FillsOwn
  infer_instance

/-! ## One statement -/

theorem User.Reconciled.of_entry {lower : String → String} {earlier user : User}
    (same : earlier.entry lower = user.entry lower) (reconciled : earlier.Reconciled) :
    user.Reconciled := by
  have minecraft : earlier.minecraftUuid = user.minecraftUuid := congrFun same .minecraftUuid
  have profile : earlier.profileUuid = user.profileUuid := congrFun same .profileUuid
  rw [User.Reconciled, minecraft, profile] at reconciled
  exact reconciled

theorem Database.Reconciled.executed {now : Timestamp} {database after : Database}
    {statement : Statement} {reply : statement.Reply} (was : database.Reconciled)
    (written : ∀ user, statement.writes database = some user →
      Sql.violated database user = none → user.Reconciled)
    (executed : statement.execute now database = .ok (reply, after)) : after.Reconciled := by
  intro user member
  rcases (Statement.execute_writes executed).entries user member with
    ⟨earlier, present, -, same⟩ | ⟨writes, free⟩
  · exact (was earlier present).of_entry same
  · exact written user writes free

structure Statement.Revises (statement : Statement) (database : Database) (id : Uuid)
    (row user : User) : Prop where
  member : row ∈ database.users.rows
  here : row.id = id
  revised : user = statement.sets row

theorem Statement.writes_revised {statement : Statement} {id : Uuid} {database : Database}
    {user : User} (subject : statement.subject = some id)
    (writes : statement.writes database = some user) :
    ∃ row, statement.Revises database id row user := by
  rw [Statement.writes_of_subject subject] at writes
  obtain ⟨row, found, rfl⟩ := Option.map_eq_some_iff.mp writes
  exact ⟨row, (Table.find_eq_some.mp found).1, (Table.find_eq_some.mp found).2, rfl⟩

/-- The statement writes reconciled rows by itself, or is the one the condition is on. -/
def Statement.Minds : Statement → Prop
  | .insertUser user => user.Reconciled
  | .setProfileUuid .. => False
  | .refreshBootstrap .. => False
  | _ => True

theorem filled_reconciled {process : Nat} {before after : Service} {id : Uuid}
    {minecraft : String} {reply : Option User}
    (own : FillsOwn ⟨process, before, .statement (.bindMinecraft id minecraft), .ok (.ok reply),
      after⟩) (was : before.database.Reconciled) {user : User}
    (writes : (Statement.bindMinecraft id minecraft).writes before.database = some user) :
    user.Reconciled := by
  obtain ⟨row, member, here, rfl⟩ := Statement.writes_revised rfl writes
  have sets : (Statement.bindMinecraft id minecraft).sets row = { row with
      minecraftUuid := row.minecraftUuid.orElse fun _ =>
        if minecraft = "" then none else some minecraft } := if_pos here
  rw [sets]
  cases held : row.minecraftUuid with
  | some other => simpa [User.Reconciled, held] using was row member
  | none =>
      by_cases blank : minecraft = ""
      · simp [User.Reconciled, blank]
      · intro filled among
        have same : minecraft = filled := by simpa [held, blank] using among
        subst same
        exact own _ rfl row (Table.find_eq_some.mpr ⟨member, here⟩) held blank

def Minding (operation : Operation) : Prop :=
  ∀ statement, operation = .statement statement → statement.Minds

theorem minding_occurs {process : Nat} {before : Service} {operation : Operation}
    {result : operation.Result} {after : Service}
    (minds : Minding operation)
    (was : before.database.Reconciled) (occurs : accounts.Occurs before operation result after)
    (own : FillsOwn ⟨process, before, operation, result, after⟩) :
    after.database.Reconciled := by
  cases operation with
  | statement statement =>
      rcases occurs_statement occurs with ⟨-, -, rfl⟩ | ⟨reply, database, rfl, executed, rfl⟩
      · exact was
      · have written (minded : ∀ user, statement.writes before.database = some user →
            user.Reconciled) : database.Reconciled :=
          was.executed (fun user writes _ => minded user writes) executed
        cases statement with
        | insertUser inserted =>
            refine written fun user writes => ?_
            cases Option.some.inj writes
            exact minds _ rfl
        | bindMinecraft id minecraft =>
            cases reply with
            | ok reply => exact written fun user writes => filled_reconciled own was writes
            | error index =>
                rcases Sql.reviseUser_ok executed with ⟨rfl, -⟩ | ⟨_, _, -, -, -, impossible, -⟩
                · exact was
                · cases impossible
        | setProfileUuid id profile => exact (minds _ rfl).elim
        | refreshBootstrap id refresh => exact (minds _ rfl).elim
        | updateUser id patch =>
            refine written fun user writes => ?_
            obtain ⟨row, member, here, rfl⟩ := Statement.writes_revised rfl writes
            rw [Statement.sets, if_pos here]
            exact was row member
        | setPassword id hash =>
            refine written fun user writes => ?_
            obtain ⟨row, member, here, rfl⟩ := Statement.writes_revised rfl writes
            rw [Statement.sets, if_pos here]
            exact was row member
        | setBlocked id blocked =>
            refine written fun user writes => ?_
            obtain ⟨row, member, here, rfl⟩ := Statement.writes_revised rfl writes
            rw [Statement.sets, if_pos here]
            exact was row member
        | _ => exact written fun user writes => by cases writes
  | _ =>
      obtain ⟨_, _, left⟩ := occurs_database (by simp) occurs
      rw [left]
      exact was

/-! ## The six writers -/

section Calls

variable {state : AppState} {index : Nat} {service : Service}

theorem authResponse_minds {user : User} {draws : Draws} :
    (Account.authResponse state user draws).run.Uses Minding := by
  refine meets_run.mpr ?_
  simp [Account.authResponse, Credentials.issueSession, Credentials.issueYggdrasilTokens,
    forall_except, Minding, Statement.Minds]

theorem bootstrap_minds {parts : Parts} {minecraft : String} :
    (Account.bootstrap state parts minecraft).run.Uses Minding := by
  refine meets_run.mpr ?_
  simp [Account.bootstrap, Credentials.authUser, Credentials.userFromToken, forall_except,
    Minding, Statement.Minds]

theorem updateUser_minds {id : Uuid} {patch : Identity.UpdateUser} :
    (Identity.updateUser state id patch).run.Uses Minding := by
  refine meets_run.mpr ?_
  simp [Identity.updateUser, forall_except, Minding, Statement.Minds]

theorem registerUser_minds {username email password : String} {draws : Draws} :
    (Identity.registerUser state username email password draws).run.Uses Minding := by
  refine meets_run.mpr ?_
  simp [Identity.registerUser, forall_except, Minding, Statement.Minds, User.Reconciled]

theorem reconcileProfileUuid_ok {minecraft current : Option String} {drawn profile : String}
    (ok : Identity.reconcileProfileUuid minecraft current drawn = .ok profile) :
    ∀ known ∈ minecraft, Text.undashUuid known = .ok profile := by
  intro known among
  cases among
  simp only [Identity.reconcileProfileUuid] at ok
  split at ok
  · cases ok
    assumption
  · cases ok

theorem adminCreateUser_minds {input : Identity.AdminCreateUser} {draws : Draws} :
    (Identity.adminCreateUser state input draws).run.Uses Minding := by
  refine meets_run.mpr ?_
  simp [Identity.adminCreateUser, forall_except, Minding, Statement.Minds, User.Reconciled]
  intro _ _ _ _ _ _ profile ok known supplied
  exact reconcileProfileUuid_ok ok known supplied

def Reconciles (index : Nat) (service : Service) {Value : Type} (handler : Handler Value) :
    Prop :=
  handler.Meets (.provided accounts index FillsOwn) (fun _ after => after.database.Reconciled)
    (fun _ after => after.database.Reconciled) service

theorem Reconciles.of_minds {Value : Type} {handler : Handler Value}
    (minds : handler.run.Uses Minding) (was : service.database.Reconciled) :
    Reconciles index service handler :=
  meets_run.mp (minds.provided (fun _ _ _ _ minding kept occurs own =>
    minding_occurs minding kept occurs own) was)

theorem Reconciles.bind {Value Next : Type} {handler : Handler Value}
    {next : Value → Handler Next} (first : Reconciles index service handler)
    (rest : ∀ value after, after.database.Reconciled → Reconciles index after (next value)) :
    Reconciles index service (handler >>= next) :=
  (meets_bind _ _).mpr (first.mono (fun value after kept => rest value after kept) fun _ _ => id)

theorem assign_reconciles {user : User} {draws : Draws} (was : service.database.Reconciled)
    (member : user ∈ service.database.users.rows) :
    Reconciles index service (Identity.assignOrReconcileProfileUuid user draws) := by
  refine (meets_bind _ _).mpr ((meets_lift _).mpr ⟨fun _ _ => was, fun profile ok => ?_⟩)
  refine (meets_ite _ _ _).mpr ⟨fun _ => was, fun _ => ?_⟩
  refine (meets_bind _ _).mpr (query_provided (fun reply database executed _ => ?_) fun _ => was)
  have kept : database.Reconciled := by
    refine was.executed (fun written writes _ => ?_) executed
    obtain ⟨row, present, here, rfl⟩ := Statement.writes_revised rfl writes
    have same : row = user := Table.eq_of_key_eq present member here
    subst same
    rw [Statement.sets, if_pos rfl]
    intro minecraft among
    exact ⟨profile, rfl, reconcileProfileUuid_ok ok minecraft among⟩
  simp [kept]

theorem authenticatePassword_reconciles {identifier password : String} {draws : Draws}
    (was : service.database.Reconciled) :
    Reconciles index service (Identity.authenticatePassword state identifier password draws) := by
  refine (meets_bind _ _).mpr ((meets_refuse _ _).mpr ⟨fun _ => was, fun _ => ?_⟩)
  refine (meets_bind _ _).mpr (read_provided rfl ?_ fun _ => was)
  refine (meets_bind _ _).mpr ((meets_okOr _ _).mpr ⟨fun _ => was, fun user found => ?_⟩)
  refine (meets_bind _ _).mpr ((meets_refuse _ _).mpr ⟨fun _ => was, fun _ => ?_⟩)
  exact assign_reconciles was (List.mem_filter.mp (List.mem_of_getElem? found)).1

theorem Bootstrapped.reconciled {before after : Database} {minecraft profile : String}
    {user : User} (bootstrapped : Bootstrapped before minecraft profile user after)
    (was : before.Reconciled) : after.Reconciled := by
  intro row member
  rcases bootstrapped.others row member with rfl | earlier
  · intro known among
    have same : minecraft = known := Option.some.inj (bootstrapped.identified.symm.trans among)
    exact ⟨profile, bootstrapped.profiled, same ▸ bootstrapped.made⟩
  · exact was row earlier

theorem findOrCreate_reconciles {ident : Identity.BootstrapIdentity} {draws : Draws}
    (was : service.database.Reconciled) :
    Reconciles index service (Identity.findOrCreateFromBootstrap state ident draws) := by
  refine findOrCreate_provided.mono ?_ ?_
  · rintro user after ⟨profile, bootstrapped⟩
    exact bootstrapped.reconciled was
  · intro error after same
    rw [same]
    exact was

end Calls

/-- Every call leaves the table reconciled when a bootstrap fills no column with
another's identifier. -/
theorem call_reconciles (state : AppState) (index : Nat) (call : IdentityCall)
    (service : Service) (was : service.database.Reconciled) :
    (handleIdentity state call).Meets (.provided accounts index FillsOwn)
      (fun _ after => after.database.Reconciled) service := by
  have ends : ∀ (id : Uuid) (after : Service), after.database.Reconciled →
      Reconciles index after (pure id) := fun _ _ kept => kept
  refine meets_run.mpr ?_
  cases call with
  | bootstrap parts minecraft =>
      exact Reconciles.bind (.of_minds bootstrap_minds was) fun _ _ => ends _ _
  | findOrCreate ident draws =>
      exact Reconciles.bind (findOrCreate_reconciles was) fun _ _ => ends _ _
  | adminCreate input draws =>
      exact Reconciles.bind (.of_minds adminCreateUser_minds was) fun _ _ => ends _ _
  | register body draws =>
      refine Reconciles.bind (Reconciles.bind (.of_minds registerUser_minds was) ?_) fun _ _ =>
        ends _ _
      exact fun user after kept => .of_minds authResponse_minds kept
  | login body draws =>
      refine Reconciles.bind (Reconciles.bind (authenticatePassword_reconciles was) ?_)
        fun _ _ => ends _ _
      exact fun user after kept => .of_minds authResponse_minds kept
  | update id patch =>
      exact Reconciles.bind (.of_minds updateUser_minds was) fun _ _ => ends _ _

/-- After every sequence of calls in which a bootstrap fills an unset column only with
the identifier that the user's profile was made from, all users are reconciled. -/
theorem identities_reconciled (state : AppState) (database : Database) (clock : Timestamp)
    (was : database.Reconciled) {calls : List (IdentityCall × List Bool)} {final : IdentityPool}
    (reached : run (Pool.turn (handleIdentity state)) (.initial (.boot database clock))
      (inSequence calls) = some final)
    (own : ∀ event ∈ final.history, FillsOwn event) : final.shared.database.Reconciled :=
  Pool.inSequence_invariant (fun service : Service => service.database.Reconciled)
    (fun index call service kept => call_reconciles state index call service kept) was reached own

/-! ## A player's first start of the game -/

def registering (id : Uuid) (name profile : String) : IdentityCall :=
  .register ⟨name, name ++ "@example.com", "secret"⟩
    { drawn name with userId := id, profileUuid := profile }

def starting (name minecraft : String) : IdentityCall :=
  .bootstrap (bearing (name ++ "-session")) minecraft

def emptyDatabase : Database := .empty Text.toAsciiLowercase

def startedAsProfile : List (IdentityCall × List Bool) :=
  [(registering 1 "steve" "11111111222233334444555555555555", []),
    (starting "steve" "11111111-2222-3333-4444-555555555555", [])]

theorem identities_reconciled_as_profile :
    ∃ final, run (Pool.turn (handleIdentity plainState)) (.initial (.boot emptyDatabase 0))
        (inSequence startedAsProfile) = some final ∧
      (∃ user ∈ final.shared.database.users.rows, user.minecraftUuid.isSome = true) ∧
        final.shared.database.Reconciled := by
  have started : ((run (Pool.turn (handleIdentity plainState)) (.initial (.boot emptyDatabase 0))
      (inSequence startedAsProfile)).map fun final => decide (
        (∃ user ∈ final.shared.database.users.rows, user.minecraftUuid.isSome = true) ∧
        ∀ event ∈ final.history, FillsOwn event)) = some true := by
    decide +kernel
  rcases Option.map_eq_some_iff.mp started with ⟨final, reached, holds⟩
  rcases of_decide_eq_true holds with ⟨known, own⟩
  exact ⟨final, reached, known, identities_reconciled plainState emptyDatabase 0
    (by decide) reached own⟩

/-- The profile was drawn when the user registered. -/
def startedAsOther : List (IdentityCall × List Bool) :=
  [(registering 1 "steve" "00000000000040008000000000000001", []),
    (starting "steve" "11111111-2222-3333-4444-555555555555", [])]

/-- A bootstrap can leave the two identifiers apart. -/
theorem identities_not_reconciled :
    ¬∀ (state : AppState) (database : Database) (clock : Timestamp)
      (calls : List (IdentityCall × List Bool)) (final : IdentityPool),
      database.users.rows = [] →
      run (Pool.turn (handleIdentity state)) (.initial (.boot database clock))
        (inSequence calls) = some final → final.shared.database.Reconciled := by
  intro reconciled
  have apart : ((run (Pool.turn (handleIdentity plainState)) (.initial (.boot emptyDatabase 0))
      (inSequence startedAsOther)).map fun final =>
        decide (¬final.shared.database.Reconciled)) = some true := by
    decide +kernel
  rcases Option.map_eq_some_iff.mp apart with ⟨final, reached, holds⟩
  exact of_decide_eq_true holds
    (reconciled plainState emptyDatabase 0 startedAsOther final rfl reached)

end Loontail.Accounts
