import Loontail.Accounts.TokenCalls
import Loontail.Guarantees.LoginIdentifiers

/-! # A correct login succeeds

A login looks the account up, checks the password and puts the profile identifier
right. The last step fails on identifiers that a bootstrap was free to store. -/

namespace Loontail.Accounts

open Concurrency Relational Fallible

/-- A hash is verified by the password it was made from, and by no other. -/
def AppState.HashingWorks (state : AppState) : Prop :=
  ∀ salt plain hash, state.hashPassword salt plain = some hash →
    ∀ given, state.verifyPassword given hash = true ↔ given = plain

/-- What the writers see to in a row: the normalized name is the name's, there is a
profile, and a stored hash is that of some password. -/
structure User.Sound (state : AppState) (user : User) : Prop where
  named : user.normalizedUsername = state.normalizeUsername user.username
  profile : user.profileUuid.isSome = true
  hashed : ∀ hash ∈ user.passwordHash, ∃ salt plain,
    state.hashPassword salt plain = some hash ∧ plain ≠ ""

def CanReconcile (database : Database) (user : User) : Prop :=
  ∀ minecraft ∈ user.minecraftUuid, ∃ profile, Text.undashUuid minecraft = .ok profile ∧
    (user.profileUuid = some profile ∨
      ∀ other ∈ database.users.rows, other.profileUuid ≠ some profile)

/-- The login by name comes to the account, whichever row that matches is read, and can put
its profile right. -/
structure LoginReaches (database : Database) (user : User) : Prop where
  named : Text.trim user.username ≠ ""
  alone : ∀ other ∈ database.users.rows, other.id ≠ user.id →
    other.email.map database.lower ≠ some user.normalizedUsername
  reconciles : CanReconcile database user

/-! ## What the writers see to -/

def Statement.WritesSound (state : AppState) : Statement → Prop
  | .insertUser user => user.Sound state
  | .updateUser _ patch =>
      patch.normalizedUsername = patch.username.map state.normalizeUsername
  | .refreshBootstrap _ refresh =>
      refresh.normalizedUsername = state.normalizeUsername refresh.username
  | .setPassword .. => False
  | _ => True

def KeepsSound (state : AppState) (operation : Operation) : Prop :=
  ∀ statement, operation = .statement statement → statement.WritesSound state

def Database.Sound (state : AppState) (database : Database) : Prop :=
  ∀ user ∈ database.users.rows, user.Sound state

section Sound

variable {state : AppState}

theorem Statement.sets_sound {statement : Statement} {user : User}
    (writes : statement.WritesSound state) (sound : user.Sound state) :
    (statement.sets user).Sound state := by
  unfold Statement.sets
  split
  · rename_i id patch
    split
    · refine ⟨?_, sound.profile, sound.hashed⟩
      simp only [Sql.UpdateUser.apply, show patch.normalizedUsername = _ from writes]
      cases patch.username with
      | none => exact sound.named
      | some username => rfl
    · exact sound
  · split
    · exact ⟨sound.named, rfl, sound.hashed⟩
    · exact sound
  · split
    · exact ⟨sound.named, sound.profile, sound.hashed⟩
    · exact sound
  · cases writes
  · split
    · exact ⟨sound.named, sound.profile, sound.hashed⟩
    · exact sound
  · rename_i id refresh
    split
    · refine ⟨writes, ?_, sound.hashed⟩
      cases bound : refresh.profileUuid <;> simp [Sql.BootstrapRefresh.apply, bound, sound.profile]
    · exact sound
  · exact sound

theorem keepsSound_occurs {before after : Service} {operation : Operation}
    {result : operation.Result} (keeps : KeepsSound state operation)
    (was : before.database.Sound state) (occurs : accounts.Occurs before operation result after) :
    after.database.Sound state := by
  cases operation with
  | statement statement =>
      rcases occurs_statement occurs with ⟨-, -, rfl⟩ | ⟨reply, database, rfl, executed, rfl⟩
      · exact was
      · have minds : statement.WritesSound state := keeps statement rfl
        intro user member
        rcases (Statement.execute_writes executed).rows user member with kept | writes
        · exact was user kept
        · unfold Statement.writes at writes
          split at writes
          · cases writes
            exact minds
          · obtain ⟨id, -, revised⟩ := Option.bind_eq_some_iff.mp writes
            obtain ⟨row, found, rfl⟩ := Option.map_eq_some_iff.mp revised
            exact Statement.sets_sound minds (was row (Table.find_eq_some.mp found).1)
  | _ =>
      obtain ⟨_, _, left⟩ := occurs_database (by simp) occurs
      rw [left]
      exact was

theorem checkPasswordLen_ok {password : String}
    (ok : Identity.checkPasswordLen password = .ok ()) : password ≠ "" := by
  rintro rfl
  simp [Identity.checkPasswordLen] at ok

theorem hashPassword_ok {salt plain hash : String}
    (ok : Identity.hashPassword state salt plain = .ok hash) :
    state.hashPassword salt plain = some hash := by
  simp only [Identity.hashPassword] at ok
  split at ok
  · cases ok
    assumption
  · cases ok

theorem User.Sound.of_created {user : User} {salt password hash : String}
    (named : user.normalizedUsername = state.normalizeUsername user.username)
    (profile : user.profileUuid.isSome = true)
    (checked : Identity.checkPasswordLen password = .ok ())
    (hashes : Identity.hashPassword state salt password = .ok hash)
    (stored : user.passwordHash = some hash) : user.Sound state where
  named := named
  profile := profile
  hashed := by
    intro other among
    cases stored.symm.trans among
    exact ⟨salt, password, hashPassword_ok hashes, checkPasswordLen_ok checked⟩

theorem findOrCreate_keepsSound {ident : Identity.BootstrapIdentity} {draws : Draws} :
    (Identity.findOrCreateFromBootstrap state ident draws).run.Uses (KeepsSound state) := by
  have refreshes : ∀ (id : Uuid) (minecraft profile : Option String),
      (Identity.refreshBootstrapRow id ident (state.normalizeUsername (Text.trim ident.username))
        minecraft profile).run.Uses (KeepsSound state) := by
    intro id minecraft profile
    refine meets_run.mpr ?_
    simp [Identity.refreshBootstrapRow, forall_except, KeepsSound, Statement.WritesSound]
  have reads : ∀ statement : Statement, statement.WritesSound state →
      KeepsSound state (.statement statement) := by
    rintro statement writes _ ⟨⟩
    exact writes
  refine meets_run.mpr ?_
  refine (meets_bind _ _).mpr ((meets_refuse _ _).mpr ⟨fun _ => trivial, fun _ => ?_⟩)
  refine (meets_bind _ _).mpr ((meets_refuse _ _).mpr ⟨fun _ => trivial, fun _ => ?_⟩)
  refine (meets_bind _ _).mpr ((meets_lift _).mpr ⟨fun _ _ => trivial, fun profile _ => ?_⟩)
  refine (meets_bind _ _).mpr ((meets_query _).mpr ⟨reads _ trivial, forall_except.mpr
    ⟨fun first => ?_, fun _ => trivial⟩⟩)
  cases first with
  | some existing => exact meets_run.mp (refreshes existing.id none (some profile))
  | none =>
      refine (meets_bind _ _).mpr ((meets_query _).mpr ⟨reads _ trivial, forall_except.mpr
        ⟨fun second => ?_, fun _ => trivial⟩⟩)
      cases second with
      | some existing => exact meets_run.mp (refreshes existing.id _ none)
      | none =>
          refine (meets_bind _ _).mpr ((meets_query _).mpr ⟨reads _ ?_, fun result => ?_⟩)
          · exact ⟨rfl, rfl, by simp⟩
          · cases result <;> simp

theorem call_keepsSound (call : IdentityCall) :
    (handleIdentity state call).Uses (KeepsSound state) := by
  refine meets_run.mpr ?_
  cases call with
  | bootstrap parts minecraft =>
      simp [IdentityCall.handler, Account.bootstrap, Credentials.authUser,
        Credentials.userFromToken, forall_except, KeepsSound, Statement.WritesSound]
  | findOrCreate ident draws =>
      exact (meets_bind _ _).mpr (meets_run.mp findOrCreate_keepsSound)
  | adminCreate input draws =>
      simp [IdentityCall.handler, Identity.adminCreateUser, forall_except, KeepsSound,
        Statement.WritesSound]
      intro _ _ _ checked hash hashes profile _
      exact .of_created rfl rfl checked hashes rfl
  | register body draws =>
      simp [IdentityCall.handler, Account.register, Identity.registerUser, Account.authResponse,
        Credentials.issueSession, Credentials.issueYggdrasilTokens, forall_except, KeepsSound,
        Statement.WritesSound]
      intro _ _ _ checked hash hashes
      exact .of_created rfl rfl checked hashes rfl
  | login body draws =>
      simp [IdentityCall.handler, Account.login, Identity.authenticatePassword,
        Identity.assignOrReconcileProfileUuid, Account.authResponse,
        Credentials.issueSession, Credentials.issueYggdrasilTokens, forall_except, KeepsSound,
        Statement.WritesSound]
  | update id patch =>
      simp [IdentityCall.handler, Identity.updateUser, forall_except, KeepsSound,
        Statement.WritesSound, Identity.UpdateUser.columns]

end Sound

/-! ## The login -/

section Login

variable {state : AppState} {service : Service} {index : Nat} {history : List (Event accounts)}
  {user : User}

theorem selectByIdentifier_some {database : Database} {identifier : String} {choice : Nat}
    (found : Sql.selectByIdentifier identifier choice database = some user) :
    user ∈ database.users.rows ∧ (user.normalizedUsername = identifier ∨
      user.email.map database.lower = some identifier) := by
  obtain ⟨member, answers⟩ := List.mem_filter.mp (List.mem_of_getElem? found)
  rw [Bool.or_eq_true, decide_eq_true_eq, decide_eq_true_eq] at answers
  exact ⟨member, answers⟩

theorem exists_selectByIdentifier {database : Database} {identifier : String}
    (member : user ∈ database.users.rows)
    (answers : user.normalizedUsername = identifier ∨
      user.email.map database.lower = some identifier) :
    ∃ choice, Sql.selectByIdentifier identifier choice database = some user := by
  have among : user ∈ database.users.rows.filter fun user =>
      user.normalizedUsername = identifier || user.email.map database.lower = some identifier := by
    refine List.mem_filter.mpr ⟨member, ?_⟩
    rwa [Bool.or_eq_true, decide_eq_true_eq, decide_eq_true_eq]
  obtain ⟨choice, inside, here⟩ := List.mem_iff_getElem.mp among
  refine ⟨choice, ?_⟩
  rw [Sql.selectByIdentifier, Nat.mod_eq_of_lt inside, List.getElem?_eq_getElem inside, here]

theorem selectByIdentifier_isSome {database : Database} {identifier : String}
    (member : user ∈ database.users.rows)
    (answers : user.normalizedUsername = identifier ∨
      user.email.map database.lower = some identifier) (choice : Nat) :
    Sql.selectByIdentifier identifier choice database ≠ none := by
  obtain ⟨other, read⟩ := exists_selectByIdentifier member answers
  have inside := List.length_pos_of_mem (List.mem_of_getElem? read)
  exact fun none => absurd (List.getElem?_eq_none_iff.mp none)
    (Nat.not_le.mpr (Nat.mod_lt choice inside))

/-- The lookup by the user's name comes to the user, whichever row is read, when no other row
has it for an email. -/
theorem selectByIdentifier_iff {database : Database} (member : user ∈ database.users.rows) :
    (∀ choice, Sql.selectByIdentifier user.normalizedUsername choice database = some user) ↔
      ∀ other ∈ database.users.rows, other.id ≠ user.id →
        other.email.map database.lower ≠ some user.normalizedUsername := by
  constructor
  · intro reads other present different same
    obtain ⟨choice, read⟩ := exists_selectByIdentifier present (.inr same)
    rw [reads choice] at read
    cases read
    exact different rfl
  · intro alone choice
    obtain ⟨other, read⟩ := Option.ne_none_iff_exists'.mp
      (selectByIdentifier_isSome member (.inl rfl) choice)
    obtain ⟨present, name | email⟩ := selectByIdentifier_some read
    · rw [read, Table.eq_of_slot_eq present member (congrArg some name) rfl]
    · by_cases same : other.id = user.id
      · rw [read, Table.eq_of_key_eq present member same]
      · exact (alone other present same email).elim

theorem setProfileUuid_execute {database : Database} {now : Timestamp} {profile : String}
    (distinct : database.Apart SameEntry) (member : user ∈ database.users.rows)
    (other : user.profileUuid ≠ some profile) :
    (∃ reply after, (Statement.setProfileUuid user.id profile).execute now database =
        .ok (.ok reply, after) ∧ reply = some { user with profileUuid := some profile } ∧
      ∀ holder ∈ database.users.rows, holder.profileUuid ≠ some profile) ∨
    ∃ violated after, (Statement.setProfileUuid user.id profile).execute now database =
        .ok (.error violated, after) ∧
      ∃ holder ∈ database.users.rows, holder.profileUuid = some profile := by
  have found : database.users.find user.id = some user := Table.find_eq_some.mpr ⟨member, rfl⟩
  simp only [Statement.execute, Sql.reviseUser, found]
  by_cases free : ∀ holder ∈ database.users.rows, holder.profileUuid ≠ some profile
  · left
    have unviolated :
        Sql.violated database { user with profileUuid := some profile } = none := by
      refine Sql.violated_eq_none.mpr fun holder present different index entered same => ?_
      cases index with
      | profileUuid => exact free holder present same
      | minecraftUuid =>
          exact distinct user member holder present different.symm
            ⟨.minecraftUuid, entered, same⟩
      | normalizedUsername =>
          exact distinct user member holder present different.symm
            ⟨.normalizedUsername, entered, same⟩
      | email => exact distinct user member holder present different.symm ⟨.email, entered, same⟩
    obtain ⟨users, claimed⟩ := @Table.claim_of_keepsSlot _ _ _ userLayout database.users
      (fun row => row.id = user.id) (fun row => { row with profileUuid := some profile })
      (fun _ _ => rfl) _ fun _ _ => .inl rfl
    rw [unviolated]
    simp only [claimed]
    exact ⟨_, _, rfl, rfl, free⟩
  · right
    push Not at free
    obtain ⟨holder, present, holds⟩ := free
    cases refused : Sql.violated database { user with profileUuid := some profile } with
    | some index => exact ⟨index, database, rfl, holder, present, holds⟩
    | none =>
        have different : holder.id ≠ user.id := fun same =>
          other (Table.eq_of_key_eq present member same ▸ holds)
        exact (Sql.violated_eq_none.mp refused holder present different .profileUuid rfl
          holds).elim

theorem assign_steady {draws : Draws} (sound : user.Sound state)
    (distinct : service.database.Apart SameEntry)
    (member : user ∈ service.database.users.rows) :
    (Identity.assignOrReconcileProfileUuid user draws).Meets (.steady accounts index)
      (fun returned _ => returned.id = user.id ∧ CanReconcile service.database user)
      (fun _ _ => ¬CanReconcile service.database user) (service, history) := by
  refine (meets_bind _ _).mpr ((meets_lift _).mpr ⟨fun error failed reconciles => ?_,
    fun profile ok => ?_⟩)
  · cases held : user.minecraftUuid with
    | none => simp [Identity.reconcileProfileUuid, held] at failed
    | some minecraft =>
        obtain ⟨profile, undashed, -⟩ := reconciles minecraft held
        simp [Identity.reconcileProfileUuid, held, undashed] at failed
  · have undashed := reconcileProfileUuid_ok ok
    refine (meets_ite _ _ _).mpr ⟨fun same => ⟨rfl, fun minecraft among => ?_⟩, fun other => ?_⟩
    · exact ⟨profile, undashed minecraft among, .inl same⟩
    · -- a profile is only rewritten where a Minecraft identifier is known
      have known : ∃ minecraft, user.minecraftUuid = some minecraft := by
        cases held : user.minecraftUuid with
        | some minecraft => exact ⟨minecraft, rfl⟩
        | none =>
            obtain ⟨current, has⟩ := Option.isSome_iff_exists.mp sound.profile
            simp only [Identity.reconcileProfileUuid, held, has, Option.getD_some,
              Except.ok.injEq] at ok
            exact (other (ok ▸ has)).elim
      obtain ⟨minecraft, held⟩ := known
      have made : ∀ made, Text.undashUuid minecraft = .ok made → made = profile := fun made ok =>
        Except.ok.inj (ok.symm.trans (undashed minecraft held))
      rcases @setProfileUuid_execute user _ service.clock profile distinct member other with
        ⟨written, after, executed, rfl, free⟩ | ⟨index, after, executed, holder, present, holds⟩
      · refine (meets_bind _ _).mpr (query_steady (fun answer database ran => ?_) fun error ran => ?_)
        · cases executed.symm.trans ran
          simp only [meets_bind, Identity.meets_uniqueOr, meets_okOr]
          refine ⟨fun _ refused => (nomatch refused), ?_⟩
          rintro _ ⟨⟩
          refine ⟨fun missing => (nomatch missing), ?_⟩
          rintro _ ⟨⟩
          exact ⟨rfl, fun minecraft among => ⟨profile, undashed minecraft among, .inr free⟩⟩
        · cases executed.symm.trans ran
      · refine (meets_bind _ _).mpr (query_steady (fun answer database ran => ?_) fun error ran => ?_)
        · cases executed.symm.trans ran
          simp only [meets_bind, Identity.meets_uniqueOr, meets_okOr]
          refine ⟨fun _ _ reconciles => ?_, fun _ accepted => nomatch accepted⟩
          obtain ⟨profile, undashes, same | free⟩ := reconciles minecraft held
          · cases made profile undashes
            exact other same
          · cases made profile undashes
            exact free holder present holds
        · cases executed.symm.trans ran

structure LoginComes (database : Database) (choice : Nat) (user : User) : Prop where
  named : Text.trim user.username ≠ ""
  read : Sql.selectByIdentifier user.normalizedUsername choice database = some user
  reconciles : CanReconcile database user

theorem loginReaches_iff {database : Database} (member : user ∈ database.users.rows) :
    LoginReaches database user ↔ ∀ choice, LoginComes database choice user := by
  constructor
  · rintro ⟨named, alone, reconciles⟩ choice
    exact ⟨named, (selectByIdentifier_iff member).mpr alone choice, reconciles⟩
  · intro comes
    exact ⟨(comes 0).named, (selectByIdentifier_iff member).mp fun choice => (comes choice).read,
      (comes 0).reconciles⟩

/-- The login by the user's own name and password, handled at once. -/
theorem login_steady {password hash : String} {draws : Draws} (works : state.HashingWorks)
    (sound : service.database.Sound state) (distinct : service.database.Apart SameEntry)
    (member : user ∈ service.database.users.rows) (stored : user.passwordHash = some hash)
    (current : state.verifyPassword password hash = true) (confirmed : user.confirmed = true)
    (unblocked : user.blocked = false) :
    (Identity.authenticatePassword state user.username password draws).Meets
      (.steady accounts index)
      (fun returned _ => returned.id = user.id ↔ LoginComes service.database draws.choice user)
      (fun _ _ => ¬LoginComes service.database draws.choice user) (service, history) := by
  have own := sound user member
  have given : password ≠ "" := by
    obtain ⟨salt, plain, hashes, nonempty⟩ := own.hashed hash stored
    rw [(works salt plain hash hashes password).mp current]
    exact nonempty
  have looked : state.normalizeUsername (Text.trim user.username) = user.normalizedUsername := by
    rw [own.named]
    simp [AppState.normalizeUsername]
  refine (meets_bind _ _).mpr ((meets_refuse _ _).mpr ⟨fun refused comes => ?_, fun kept => ?_⟩)
  · simp [given] at refused
    exact comes.named refused
  have named : Text.trim user.username ≠ "" := by
    intro blank
    simp [blank] at kept
  rw [looked]
  refine (meets_bind _ _).mpr (query_steady (fun found database executed => ?_) fun _ executed =>
    nomatch executed)
  cases executed
  refine (meets_bind _ _).mpr ((meets_okOr _ _).mpr ⟨fun none => ?_, fun found read => ?_⟩)
  · exact (selectByIdentifier_isSome member (.inl rfl) _ none).elim
  have present : found ∈ service.database.users.rows := (selectByIdentifier_some read).1
  by_cases same : found.id = user.id
  · have equal : found = user := Table.eq_of_key_eq present member same
    subst equal
    have accepted : Identity.passwordAccepted state password found = true := by
      simp [Identity.passwordAccepted, stored, current, confirmed, unblocked]
    refine (meets_bind _ _).mpr ((meets_refuse _ _).mpr ⟨fun refused => ?_, fun _ => ?_⟩)
    · simp [accepted] at refused
    refine (assign_steady own distinct member).mono (fun returned _ reconciled => ?_)
      fun _ _ failed comes => failed comes.reconciles
    exact ⟨fun _ => ⟨named, read, reconciled.2⟩, fun _ => reconciled.1⟩
  · -- another account has the name for its email, and is the one that is read
    have captured : ¬LoginComes service.database draws.choice user := by
      intro comes
      cases read.symm.trans comes.read
      exact same rfl
    refine (meets_bind _ _).mpr ((meets_refuse _ _).mpr ⟨fun _ => captured, fun _ => ?_⟩)
    refine (assign_steady (sound found present) distinct present).mono
      (fun returned _ reconciled => ?_) fun _ _ _ => captured
    rw [reconciled.1]
    exact ⟨fun equal => (same equal).elim, fun comes => (captured comes).elim⟩

end Login

/-- What a sequence of calls makes of an empty table is sound and distinct. -/
theorem sound_of_calls {state : AppState} {database : Database} {clock : Timestamp}
    (fresh : database.users.rows = []) {calls : List (IdentityCall × List Bool)}
    {final : IdentityPool}
    (reached : run (Pool.turn (handleIdentity state)) (.initial (.boot database clock))
      (inSequence calls) = some final) :
    final.shared.database.Sound state ∧ final.shared.database.Apart SameEntry := by
  constructor
  · refine Pool.inSequence_invariant (fun service : Service => service.database.Sound state)
      (fun index call service was => ?_) ?_ reached fun _ _ => trivial
    · exact (call_keepsSound call).provided (fun _ _ _ _ keeps kept occurs _ =>
        keepsSound_occurs keeps kept occurs) was
    · intro user member
      have rows : user ∈ database.users.rows := member
      rw [fresh] at rows
      cases rows
  · refine Database.Apart.traced ?_ (Pool.traced_of_turns reached) (apart_of_fresh fresh _)
      fun event _ => writesApart_sameEntry event
    rintro left right ⟨index, present, same⟩
    exact ⟨index, by rwa [same], same.symm⟩

/-- After every sequence of calls, a confirmed account that is not blocked gets in by its
name and password, whatever the database is free to choose, exactly when the login reaches it. -/
theorem login_returns_iff (state : AppState) (works : state.HashingWorks) (database : Database)
    (clock : Timestamp) (fresh : database.users.rows = [])
    {calls : List (IdentityCall × List Bool)} {final : IdentityPool}
    (reached : run (Pool.turn (handleIdentity state)) (.initial (.boot database clock))
      (inSequence calls) = some final)
    {user : User} (member : user ∈ final.shared.database.users.rows) {password hash : String}
    (stored : user.passwordHash = some hash)
    (current : state.verifyPassword password hash = true) (confirmed : user.confirmed = true)
    (unblocked : user.blocked = false) :
    (∀ draws : Draws, ∃ returned after history,
      (Identity.authenticatePassword state user.username password draws).run.execute
        final.entries.length [] final.shared final.history =
          some (.ok returned, after, history) ∧ returned.id = user.id) ↔
      LoginReaches final.shared.database user := by
  obtain ⟨sound, distinct⟩ := sound_of_calls fresh reached
  have each : (∀ choice, LoginComes final.shared.database choice user) ↔
      ∀ draws : Draws, LoginComes final.shared.database draws.choice user :=
    ⟨fun comes draws => comes draws.choice,
      fun comes choice => comes ⟨0, "", "", "", "", "", "", choice⟩⟩
  rw [loginReaches_iff member, each]
  refine forall_congr' fun draws => ?_
  obtain ⟨outcome, after, history, executed⟩ := Process.execute_total (fun _ _ => rfl)
    (Identity.authenticatePassword state user.username password draws).run final.entries.length
    final.shared final.history
  have judged := Process.execute_steady
    (login_steady works sound distinct member stored current confirmed unblocked) executed
  rw [executed]
  cases outcome with
  | ok returned =>
      refine Iff.trans ⟨?_, fun same => ⟨returned, after, history, rfl, same⟩⟩ judged
      rintro ⟨other, _, _, equal, same⟩
      cases equal
      exact same
  | error failure =>
      refine ⟨?_, fun comes => (judged comes).elim⟩
      rintro ⟨_, _, _, equal, -⟩
      cases equal

/-! ## After the game was started -/

theorem plainState_works : plainState.HashingWorks := by
  intro salt plain hash hashes given
  cases hashes
  simp [plainState]

theorem login_returns_as_profile :
    ∃ final, run (Pool.turn (handleIdentity plainState)) (.initial (.boot emptyDatabase 0))
        (inSequence startedAsProfile) = some final ∧
      ∃ user ∈ final.shared.database.users.rows, ∃ returned after history,
        (Identity.authenticatePassword plainState user.username "secret" (drawn "login")).run.execute
          final.entries.length [] final.shared final.history =
            some (.ok returned, after, history) ∧ returned.id = user.id := by
  have started : ((run (Pool.turn (handleIdentity plainState)) (.initial (.boot emptyDatabase 0))
      (inSequence startedAsProfile)).map fun final => decide (
        ∃ user ∈ final.shared.database.users.rows, (user.passwordHash = some "secret" ∧
          user.confirmed = true ∧ user.blocked = false) ∧ Text.trim user.username ≠ "" ∧
          (∀ other ∈ final.shared.database.users.rows, other.id ≠ user.id →
            other.email.map final.shared.database.lower ≠ some user.normalizedUsername) ∧
          user.Reconciled)) = some true := by
    decide +kernel
  rcases Option.map_eq_some_iff.mp started with ⟨final, reached, holds⟩
  rcases of_decide_eq_true holds with
    ⟨user, member, ⟨stored, confirmed, unblocked⟩, named, alone, reconciled⟩
  refine ⟨final, reached, user, member, (login_returns_iff plainState plainState_works
    emptyDatabase 0 rfl reached member stored (by decide) confirmed unblocked).mpr
      ⟨named, alone, fun minecraft among => ?_⟩ (drawn "login")⟩
  obtain ⟨profile, has, undashed⟩ := reconciled minecraft among
  exact ⟨profile, undashed, .inl has⟩

def startedAsNobody : List (IdentityCall × List Bool) :=
  [(registering 1 "steve" "00000000000040008000000000000001", []),
    (starting "steve" "not-a-uuid", [])]

/-- A correct login can fail. -/
theorem login_refused :
    ¬∀ (state : AppState) (database : Database) (clock : Timestamp)
      (calls : List (IdentityCall × List Bool)) (final : IdentityPool) (user : User)
      (password hash : String) (draws : Draws), state.HashingWorks →
      database.users.rows = [] →
      run (Pool.turn (handleIdentity state)) (.initial (.boot database clock))
        (inSequence calls) = some final →
      user ∈ final.shared.database.users.rows → user.passwordHash = some hash →
      state.verifyPassword password hash = true → user.confirmed = true →
      user.blocked = false → ∃ returned after history,
        (Identity.authenticatePassword state user.username password draws).run.execute
          final.entries.length [] final.shared final.history =
            some (.ok returned, after, history) ∧ returned.id = user.id := by
  intro returns
  have started : ((run (Pool.turn (handleIdentity plainState)) (.initial (.boot emptyDatabase 0))
      (inSequence startedAsNobody)).map fun final => decide (
        ∃ user ∈ final.shared.database.users.rows, (user.passwordHash = some "secret" ∧
          user.confirmed = true ∧ user.blocked = false) ∧
          (((Identity.authenticatePassword plainState user.username "secret"
            (drawn "login")).run.execute final.entries.length [] final.shared
              final.history).map fun ended => ended.1.toOption.isNone) = some true)) =
        some true := by
    decide +kernel
  rcases Option.map_eq_some_iff.mp started with ⟨final, reached, holds⟩
  rcases of_decide_eq_true holds with
    ⟨user, member, ⟨stored, confirmed, unblocked⟩, refused⟩
  obtain ⟨returned, after, history, executed, -⟩ := returns plainState emptyDatabase 0
    startedAsNobody final user "secret" "secret" (drawn "login") plainState_works rfl reached
    member stored (by decide) confirmed unblocked
  rw [executed] at refused
  cases refused

end Loontail.Accounts
