import Loontail.Accounts.Service
import Loontail.Concurrency.Trace
import Loontail.Relational.Evolution

/-! # The life of a credential

A session token or an access token is issued once, for one user, and once it is
revoked or deleted nothing brings it back. -/

namespace Loontail.Accounts

open Concurrency Relational

inductive Credential where
  | session (tokenHash : String)
  | yggdrasil (accessTokenHash : String)
  deriving DecidableEq, Repr

def Database.issued (database : Database) : Credential → Prop
  | .session tokenHash => tokenHash ∈ database.sessions.issued
  | .yggdrasil accessTokenHash => accessTokenHash ∈ database.yggdrasilTokens.issued

instance (database : Database) (credential : Credential) :
    Decidable (database.issued credential) := by
  unfold Database.issued
  split <;> infer_instance

/-- The user for whom the credential stands while it is neither revoked nor
deleted; whether it has expired is left open. -/
def Database.holder (database : Database) : Credential → Option Uuid
  | .session tokenHash =>
      ((database.sessions.find tokenHash).filter fun session => session.revokedAt = none).map
        (·.userId)
  | .yggdrasil accessTokenHash =>
      (database.yggdrasilTokens.find accessTokenHash).map (·.userId)

theorem Database.holder_session {database : Database} {tokenHash : String} {userId : Uuid} :
    database.holder (.session tokenHash) = some userId ↔
      ∃ session, database.sessions.find tokenHash = some session ∧
        session.revokedAt = none ∧ session.userId = userId := by
  simp only [holder, Option.map_eq_some_iff, Option.filter_eq_some_iff, decide_eq_true_eq,
    and_assoc]

theorem Database.holder_yggdrasil {database : Database} {accessTokenHash : String}
    {userId : Uuid} :
    database.holder (.yggdrasil accessTokenHash) = some userId ↔
      ∃ token, database.yggdrasilTokens.find accessTokenHash = some token ∧
        token.userId = userId := by
  simp only [holder, Option.map_eq_some_iff]

theorem Database.issued_of_holder {database : Database} {credential : Credential}
    {userId : Uuid} (held : database.holder credential = some userId) :
    database.issued credential := by
  cases credential with
  | session tokenHash =>
      obtain ⟨session, found, -⟩ := holder_session.mp held
      exact Table.issued_of_find found
  | yggdrasil accessTokenHash =>
      obtain ⟨token, found, -⟩ := holder_yggdrasil.mp held
      exact Table.issued_of_find found

/-! ## How the tables of credentials change -/

def SessionAges (earlier later : Session) : Prop :=
  later = earlier ∨ ∃ revokedAt, later = { earlier with revokedAt := some revokedAt }

theorem SessionAges.trans {first second third : Session} (older : SessionAges first second)
    (newer : SessionAges second third) : SessionAges first third := by
  rcases newer with rfl | ⟨at_, rfl⟩
  · exact older
  · rcases older with rfl | ⟨_, rfl⟩
    · exact .inr ⟨at_, rfl⟩
    · exact .inr ⟨at_, rfl⟩

theorem SessionAges.tokenHash {earlier later : Session} (ages : SessionAges earlier later) :
    later.tokenHash = earlier.tokenHash := by
  rcases ages with rfl | ⟨_, rfl⟩ <;> rfl

structure Database.Ages (before after : Database) : Prop where
  sessions : Table.Evolves (fun _ => True) SessionAges before.sessions after.sessions
  tokens : Table.Evolves (fun _ => True) Eq before.yggdrasilTokens after.yggdrasilTokens

namespace Database.Ages

variable {before middle after : Database}

theorem of_same (sessions : after.sessions = before.sessions)
    (tokens : after.yggdrasilTokens = before.yggdrasilTokens) : Ages before after where
  sessions := by
    rw [sessions]
    exact .refl (fun _ => .inl rfl) _
  tokens := by
    rw [tokens]
    exact .refl (fun _ => rfl) _

theorem refl (database : Database) : Ages database database := of_same rfl rfl

theorem trans (first : Ages before middle) (second : Ages middle after) :
    Ages before after where
  sessions := first.sessions.trans (fun _ _ _ => .trans) (fun _ _ _ _ => trivial)
    (fun _ _ ages => ages.tokenHash) second.sessions
  tokens := first.tokens.trans (fun _ _ _ => Eq.trans) (fun _ _ _ _ => trivial)
    (fun _ _ same => congrArg _ same.symm) second.tokens

theorem issued (ages : Ages before after) {credential : Credential}
    (was : before.issued credential) : after.issued credential := by
  cases credential with
  | session tokenHash => exact ages.sessions.issued tokenHash was
  | yggdrasil accessTokenHash => exact ages.tokens.issued accessTokenHash was

theorem holder (ages : Ages before after) {credential : Credential} {userId : Uuid}
    (was : before.issued credential) (held : after.holder credential = some userId) :
    before.holder credential = some userId := by
  cases credential with
  | session tokenHash =>
      obtain ⟨session, found, unrevoked, rfl⟩ := Database.holder_session.mp held
      obtain ⟨earlier, present, revised⟩ :=
        ages.sessions.find (fun _ _ ages => ages.tokenHash) was found
      rcases revised with rfl | ⟨_, rfl⟩
      · exact Database.holder_session.mpr ⟨session, present, unrevoked, rfl⟩
      · cases unrevoked
  | yggdrasil accessTokenHash =>
      obtain ⟨token, found, rfl⟩ := Database.holder_yggdrasil.mp held
      obtain ⟨earlier, present, rfl⟩ :=
        ages.tokens.find (fun _ _ same => congrArg _ same.symm) was found
      exact Database.holder_yggdrasil.mpr ⟨earlier, present, rfl⟩

end Database.Ages

/-! ## One operation -/

section Statements

variable {now : Timestamp} {database after : Database}

namespace Sql

theorem insertSession_ok {userId : Uuid} {tokenHash : String} {expiresAt : Timestamp}
    (executed : insertSession userId tokenHash expiresAt database = .ok ((), after)) :
    ∃ sessions, database.sessions.insert ⟨tokenHash, userId, expiresAt, none⟩ =
      some sessions ∧ after = { database with sessions } := by
  unfold insertSession at executed
  split at executed
  · split at executed
    · rename_i sessions inserted
      cases executed
      exact ⟨sessions, inserted, rfl⟩
    · cases executed
  · cases executed

theorem insertToken_ok {userId : Uuid} {accessTokenHash clientToken : String}
    {expiresAt : Timestamp} (executed : insertToken now userId accessTokenHash clientToken
      expiresAt database = .ok ((), after)) :
    ∃ yggdrasilTokens, database.yggdrasilTokens.insert
        ⟨userId, accessTokenHash, clientToken, now, expiresAt⟩ = some yggdrasilTokens ∧
      after = { database with yggdrasilTokens } := by
  unfold insertToken at executed
  split at executed
  · split at executed
    · rename_i yggdrasilTokens inserted
      cases executed
      exact ⟨yggdrasilTokens, inserted, rfl⟩
    · cases executed
  · cases executed

theorem insertUser_ok {user : User} {reply : Except UniqueIndex User}
    (executed : insertUser user database = .ok (reply, after)) :
    (∃ index, reply = .error index ∧ after = database) ∨
    ∃ users, database.users.insert user = some users ∧ violated database user = none ∧
      reply = .ok user ∧ after = { database with users } := by
  unfold insertUser at executed
  split at executed
  · rename_i index taken
    cases executed
    exact .inl ⟨index, rfl, rfl⟩
  · rename_i free
    split at executed
    · rename_i users inserted
      cases executed
      exact .inr ⟨users, inserted, free, rfl, rfl⟩
    · cases executed

theorem reviseUser_ok {id : Uuid} {set : User → User}
    {keepsKey : ∀ user, (set user).id = user.id}
    {reply : Except UniqueIndex (Option User)}
    (executed : reviseUser id set keepsKey database = .ok (reply, after)) :
    after = database ∧ (database.users.find id = none ∧ reply = .ok none ∨
        ∃ index, reply = .error index) ∨
    ∃ user users, database.users.find id = some user ∧
      database.users.claim (fun row => row.id = id) set (fun row _ => keepsKey row) =
        some users ∧ violated database (set user) = none ∧ reply = .ok (some (set user)) ∧
      after = { database with users } := by
  unfold reviseUser at executed
  split at executed
  · rename_i absent
    cases executed
    exact .inl ⟨rfl, .inl ⟨absent, rfl⟩⟩
  · rename_i user found
    split at executed
    · rename_i index taken
      cases executed
      exact .inl ⟨rfl, .inr ⟨index, rfl⟩⟩
    · rename_i free
      split at executed
      · rename_i users claimed
        cases executed
        exact .inr ⟨user, users, found, claimed, free, rfl, rfl⟩
      · cases executed

theorem revokeSessions_ages (selected : Session → Bool) :
    database.Ages (revokeSessions now selected database).2 where
  sessions := Table.Evolves.of_revised rfl rfl (fun _ => .inl rfl)
    (fun _ _ => .inr ⟨now, rfl⟩)
  tokens := .refl (fun _ => rfl) _

theorem deleteTokens_ages (selected : YggdrasilToken → Bool) :
    database.Ages (deleteTokens selected database).2 where
  sessions := .refl (fun _ => .inl rfl) _
  tokens := .delete (fun _ => rfl) _ selected

end Sql

theorem Statement.execute_ages {statement : Statement} {reply : statement.Reply}
    (executed : statement.execute now database = .ok (reply, after)) :
    database.Ages after := by
  cases statement with
  | insertSession userId tokenHash expiresAt =>
      obtain ⟨sessions, inserted, rfl⟩ := Sql.insertSession_ok executed
      exact ⟨.insert (fun _ => .inl rfl) trivial inserted, .refl (fun _ => rfl) _⟩
  | insertToken userId accessTokenHash clientToken expiresAt =>
      obtain ⟨tokens, inserted, rfl⟩ := Sql.insertToken_ok executed
      exact ⟨.refl (fun _ => .inl rfl) _, .insert (fun _ => rfl) trivial inserted⟩
  | revokeSession tokenHash =>
      cases executed
      exact Sql.revokeSessions_ages _
  | revokeAllSessions userId =>
      cases executed
      exact Sql.revokeSessions_ages _
  | cleanupSessions =>
      cases executed
      exact ⟨.delete (fun _ => .inl rfl) _ _, .refl (fun _ => rfl) _⟩
  | evictTokens userId maxPerUser =>
      cases executed
      exact Sql.deleteTokens_ages _
  | deleteToken accessTokenHash clientToken =>
      cases executed
      exact Sql.deleteTokens_ages _
  | deleteAllTokens userId =>
      cases executed
      exact Sql.deleteTokens_ages _
  | cleanupTokens =>
      cases executed
      exact Sql.deleteTokens_ages _
  | deleteUser id =>
      cases executed
      exact ⟨.delete (fun _ => .inl rfl) _ _, .delete (fun _ => rfl) _ _⟩
  | insertUser user =>
      rcases Sql.insertUser_ok executed with ⟨_, -, rfl⟩ | ⟨_, -, -, -, rfl⟩
      · exact .refl _
      · exact .of_same rfl rfl
  | updateUser id patch =>
      rcases Sql.reviseUser_ok executed with ⟨rfl, -⟩ | ⟨_, _, -, -, -, -, rfl⟩
      · exact .refl _
      · exact .of_same rfl rfl
  | setProfileUuid id profileUuid =>
      rcases Sql.reviseUser_ok executed with ⟨rfl, -⟩ | ⟨_, _, -, -, -, -, rfl⟩
      · exact .refl _
      · exact .of_same rfl rfl
  | bindMinecraft id minecraftUuid =>
      rcases Sql.reviseUser_ok executed with ⟨rfl, -⟩ | ⟨_, _, -, -, -, -, rfl⟩
      · exact .refl _
      · exact .of_same rfl rfl
  | refreshBootstrap id refresh =>
      rcases Sql.reviseUser_ok executed with ⟨rfl, -⟩ | ⟨_, _, -, -, -, -, rfl⟩
      · exact .refl _
      · exact .of_same rfl rfl
  | _ =>
      cases executed
      exact .of_same rfl rfl

end Statements

theorem occurs_ages {before after : Service} {operation : Operation} {result : operation.Result}
    (occurs : accounts.Occurs before operation result after) :
    before.database.Ages after.database := by
  cases operation with
  | statement statement =>
      rcases occurs_statement occurs with ⟨-, -, rfl⟩ | ⟨_, _, -, executed, rfl⟩
      · exact .refl _
      · exact Statement.execute_ages executed
  | _ =>
      obtain ⟨_, _, left⟩ := occurs_database (by simp) occurs
      rw [left]
      exact .of_same rfl rfl

theorem ages_of_trace {start final : Service} {history : List (Event accounts)}
    (traced : @Traced accounts start history final) : start.database.Ages final.database := by
  refine @Traced.invariant accounts _ _ _ (fun _ service => start.database.Ages service.database)
    traced (.refl _) ?_
  intro event older suffix happened ages
  exact ages.trans (occurs_ages happened)

theorem ages_since {start final : Service} {history older : List (Event accounts)}
    {event : Event accounts} (traced : @Traced accounts start history final)
    (suffix : event :: older <:+ history) :
    event.after.database.Ages final.database := by
  obtain ⟨newer, -, later⟩ := traced.since suffix
  exact ages_of_trace later

/-! ## What retires a credential -/

def Statement.retires : Statement → Option Credential
  | .revokeSession tokenHash => some (.session tokenHash)
  | .deleteToken accessTokenHash none => some (.yggdrasil accessTokenHash)
  | _ => none

def Statement.sweeps : Statement → Credential → Option Uuid
  | .revokeAllSessions userId, .session _ => some userId
  | .deleteAllTokens userId, .yggdrasil _ => some userId
  | _, _ => none

section Retiring

variable {now : Timestamp} {database after : Database}

theorem Sql.revokeSessions_holder {selected : Session → Bool} {tokenHash : String}
    {userId : Uuid}
    (held : (revokeSessions now selected database).2.holder (.session tokenHash) =
      some userId) :
    ∃ session, session.tokenHash = tokenHash ∧ session.userId = userId ∧
      selected session = false := by
  obtain ⟨session, found, unrevoked, rfl⟩ := Database.holder_session.mp held
  obtain ⟨member, rfl⟩ := Table.find_eq_some.mp found
  obtain ⟨earlier, -, rfl⟩ := Table.mem_revised.mp member
  unfold Table.revise at unrevoked ⊢
  split at unrevoked
  · cases unrevoked
  · rename_i unselected
    rw [if_neg unselected]
    refine ⟨earlier, rfl, rfl, ?_⟩
    simpa [unrevoked] using unselected

theorem Sql.deleteTokens_holder {selected : YggdrasilToken → Bool} {accessTokenHash : String}
    {userId : Uuid}
    (held : (deleteTokens selected database).2.holder (.yggdrasil accessTokenHash) =
      some userId) :
    ∃ token, token.accessTokenHash = accessTokenHash ∧ token.userId = userId ∧
      selected token = false := by
  obtain ⟨token, found, rfl⟩ := Database.holder_yggdrasil.mp held
  obtain ⟨member, rfl⟩ := Table.find_eq_some.mp found
  exact ⟨token, rfl, rfl, (Table.mem_delete.mp member).2⟩

theorem Statement.holder_of_retires {statement : Statement} {reply : statement.Reply}
    {credential : Credential} (retires : statement.retires = some credential)
    (executed : statement.execute now database = .ok (reply, after)) :
    after.holder credential = none := by
  unfold Statement.retires at retires
  split at retires
  · cases retires
    cases executed
    rw [Option.eq_none_iff_forall_ne_some]
    intro userId held
    obtain ⟨session, same, -, unselected⟩ := Sql.revokeSessions_holder held
    exact of_decide_eq_false unselected same
  · cases retires
    cases executed
    rw [Option.eq_none_iff_forall_ne_some]
    intro userId held
    obtain ⟨token, same, -, unselected⟩ := Sql.deleteTokens_holder held
    simp [same] at unselected
  · cases retires

theorem Statement.holder_of_sweeps {statement : Statement} {reply : statement.Reply}
    {credential : Credential} {userId : Uuid}
    (sweeps : statement.sweeps credential = some userId)
    (executed : statement.execute now database = .ok (reply, after)) :
    after.holder credential ≠ some userId := by
  unfold Statement.sweeps at sweeps
  split at sweeps
  · cases sweeps
    cases executed
    intro held
    obtain ⟨session, -, same, unselected⟩ := Sql.revokeSessions_holder held
    exact of_decide_eq_false unselected same
  · cases sweeps
    cases executed
    intro held
    obtain ⟨token, -, same, unselected⟩ := Sql.deleteTokens_holder held
    exact of_decide_eq_false unselected same
  · cases sweeps

end Retiring

end Loontail.Accounts
