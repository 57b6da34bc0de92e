import Loontail.Accounts.Holders
import Loontail.Accounts.Requests
import Loontail.Concurrency.Protocol

/-! # Checked, then issued

A credential is issued in a statement of its own, after the statement that found the
user behind a password or behind the credential that is refreshed. -/

namespace Loontail.Accounts

open Concurrency Relational Fallible

def Request.rotates (state : AppState) : Request → Option Credential
  | .refresh parts _ =>
      (sessionTokenFromHeaders parts.headers state.config.cookieName).map fun token =>
        .session (state.hashToken token)
  | .yggdrasilRefresh body _ => some (.yggdrasil (state.hashToken body.accessToken))
  | _ => none

def foundBy (event : Event accounts) : Option Uuid :=
  match event.operation, event.result with
  | .statement (.userFromToken _), .ok (some user) => some user.id
  | .statement (.selectToken _), .ok (some row) => some row.1
  | .statement (.selectByIdentifier ..), .ok (some user) => some user.id
  | .statement (.insertUser _), .ok (.ok user) => some user.id
  | _, _ => none

def issuedBy (event : Event accounts) : Option (Uuid × Credential) :=
  match event.operation, event.result with
  | .statement (.insertSession userId tokenHash _), .ok _ => some (userId, .session tokenHash)
  | .statement (.insertToken userId accessTokenHash _ _), .ok _ =>
      some (userId, .yggdrasil accessTokenHash)
  | _, _ => none

def Database.live (database : Database) (now : Timestamp) : Credential → Option Uuid
  | .session tokenHash =>
      ((database.sessions.find tokenHash).filter (Sql.liveSession now)).map (·.userId)
  | .yggdrasil accessTokenHash => (Sql.selectToken now accessTokenHash database).map (·.1)

theorem Database.holder_of_live {database : Database} {now : Timestamp} {credential : Credential}
    {userId : Uuid} (live : database.live now credential = some userId) :
    database.holder credential = some userId := by
  cases credential with
  | session tokenHash =>
      simp only [Database.live, Option.map_eq_some_iff, Option.filter_eq_some_iff,
        Sql.liveSession, Bool.and_eq_true, decide_eq_true_eq] at live
      obtain ⟨session, ⟨found, unrevoked, -⟩, holds⟩ := live
      exact holder_session.mpr ⟨session, found, unrevoked, holds⟩
  | yggdrasil accessTokenHash =>
      simp only [Database.live, Sql.selectToken, Option.map_eq_some_iff,
        Option.filter_eq_some_iff] at live
      obtain ⟨row, ⟨token, ⟨found, -⟩, rfl⟩, holds⟩ := live
      exact holder_yggdrasil.mpr ⟨token, found, holds⟩

/-! ## What the statements say -/

section Executed

variable {now : Timestamp} {database after : Database}

theorem holder_of_userFromToken {tokenHash : String} {user : User}
    (found : Sql.userFromToken now tokenHash database = some user) :
    database.holder (.session tokenHash) = some user.id := by
  unfold Sql.userFromToken at found
  split at found
  · rename_i session live
    obtain ⟨present, unrevoked⟩ := Option.filter_eq_some_iff.mp live
    obtain ⟨owner, -⟩ := Option.filter_eq_some_iff.mp found
    have same : user.id = session.userId := (Table.find_eq_some.mp owner).2
    simp only [Sql.liveSession, Bool.and_eq_true, decide_eq_true_eq] at unrevoked
    exact Database.holder_session.mpr ⟨session, present, unrevoked.1, same.symm⟩
  · cases found

theorem holder_of_selectToken {accessTokenHash : String} {row : Uuid × String}
    (found : Sql.selectToken now accessTokenHash database = some row) :
    database.holder (.yggdrasil accessTokenHash) = some row.1 := by
  have live : database.live now (.yggdrasil accessTokenHash) = some row.1 := by
    simp [Database.live, found]
  exact Database.holder_of_live live

end Executed

theorem holder_of_issuedBy {event : Event accounts} (happened : event.Happened) {userId : Uuid}
    {credential : Credential} (issues : issuedBy event = some (userId, credential)) :
    event.after.database.holder credential = some userId := by
  rcases event with ⟨process, before, operation, result, after⟩
  have occurs : accounts.Occurs before operation result after := happened
  simp only [issuedBy] at issues
  split at issues
  · cases issues
    obtain ⟨database, executed, rfl⟩ := occurs_ok occurs
    obtain ⟨sessions, inserted, rfl⟩ := Sql.insertSession_ok executed
    have found := (Table.find_insert inserted _).trans (if_pos rfl)
    exact Database.holder_session.mpr ⟨_, found, rfl, rfl⟩
  · cases issues
    obtain ⟨database, executed, rfl⟩ := occurs_ok occurs
    obtain ⟨tokens, inserted, rfl⟩ := Sql.insertToken_ok executed
    have found := (Table.find_insert inserted _).trans (if_pos rfl)
    exact Database.holder_yggdrasil.mpr ⟨_, found, rfl⟩
  · cases issues

/-! ## A refresh issues for the user whose credential it found

Only the refresh of a session issues a session. -/

def Credential.isSession : Credential → Bool
  | .session _ => true
  | .yggdrasil _ => false

structure Renewal where
  presented : Option Credential
  user : Option Uuid

namespace Renewal

def allows (phase : Renewal) : Operation → Prop
  | .statement (.insertSession userId ..) =>
      phase.presented.isSome = true →
        phase.user = some userId ∧ phase.presented.any Credential.isSession = true
  | .statement (.insertToken userId ..) =>
      phase.presented.isSome = true → phase.user = some userId
  | _ => True

def after (phase : Renewal) : (operation : Operation) → operation.Result → Renewal
  | .statement (.userFromToken tokenHash), .ok (some user) =>
      if phase.presented = some (.session tokenHash) then { phase with user := some user.id }
      else phase
  | .statement (.selectToken accessTokenHash), .ok (some row) =>
      if phase.presented = some (.yggdrasil accessTokenHash) then { phase with user := some row.1 }
      else phase
  | _, _ => phase

@[simp] theorem after_presented (phase : Renewal) (operation : Operation)
    (result : operation.Result) : (phase.after operation result).presented = phase.presented := by
  unfold after
  split <;> try split
  all_goals rfl

end Renewal

variable {state : AppState}

@[reducible] def renewalProtocol (state : AppState) : Protocol accounts Request where
  Phase := Renewal
  initial request := ⟨request.rotates state, none⟩
  allows := Renewal.allows
  after := Renewal.after

theorem renewal_free {Outcome : Type} (process : Process accounts Outcome) {phase : Renewal}
    (free : phase.presented = none) :
    process.Meets (renewalProtocol state).logic (fun _ _ => True) phase := by
  induction process generalizing phase with
  | done outcome => trivial
  | call operation next induction =>
      refine ⟨?_, fun result => induction result ?_⟩
      · change phase.allows operation
        unfold Renewal.allows
        split
        · intro present
          simp [free] at present
        · intro present
          simp [free] at present
        · trivial
      · exact (Renewal.after_presented phase operation result).trans free

theorem handle_renews (state : AppState) (request : Request) :
    (handle state request).Meets (renewalProtocol state).logic (fun _ _ => True)
      ((renewalProtocol state).initial request) := by
  cases request with
  | refresh parts draws =>
      cases presented : sessionToken parts.headers state.config.cookieName with
      | none =>
          apply renewal_free
          simp [Request.rotates, sessionTokenFromHeaders_eq, presented]
      | some token =>
          refine meets_run.mpr ?_
          simp only [Request.handler, Account.refresh, Credentials.authUser, presented,
            Credentials.userFromToken, Account.revokePresented, sessionTokenFromHeaders_eq,
            Option.map_some, Credentials.revokeSession, bind_pure_comp, Account.authResponse,
            Credentials.issueSession, Credentials.issueYggdrasilTokens, Option.getD_none,
            gt_iff_lt, map_bind, Functor.map_map, bind_assoc, bind_map_left, Request.rotates,
            meets_bind, meets_map, meets_whenever, decide_eq_true_eq, meets_query, Renewal.allows,
            ExceptT.stM_eq, forall_except, implies_true, and_self, decide_eq_false_iff_not, not_lt,
            and_true, meets_now, Renewal.after, forall_const, true_and, meets_okOr,
            Bool.and_eq_true, meets_lift, and_imp, Bool.and_eq_false_imp, reduceCtorEq,
            Option.some.injEq, Credential.session.injEq, ↓reduceIte, forall_eq']
          constructor
          · rintro - - - - _ user rfl
            simp [Credential.isSession]
          · rintro - _ user rfl
            simp [Credential.isSession]
  | yggdrasilRefresh body draws =>
      refine meets_run.mpr ?_
      simp only [Request.handler, Yggdrasil.refresh, Credentials.refreshYggdrasil,
        Credentials.eligibleUser, ne_eq, decide_not, bind_pure_comp,
        Credentials.issueYggdrasilTokens, Option.getD_some, gt_iff_lt, map_bind, Functor.map_map,
        bind_assoc, bind_map_left, Request.rotates, meets_bind, meets_map, meets_lift,
        implies_true, and_self, meets_refuse, meets_okOr, meets_whenever, decide_eq_true_eq,
        meets_query, Renewal.allows, ExceptT.stM_eq, forall_except, decide_eq_false_iff_not,
        not_lt, and_true, meets_now, Renewal.after, forall_const, true_and, Bool.or_eq_true,
        Bool.not_eq_eq_eq_not, Bool.not_true, Bool.or_eq_false_iff, Bool.not_false, and_imp,
        Prod.forall, Option.some.injEq, reduceCtorEq, ↓reduceIte, Credential.yggdrasil.injEq]
      rintro _ userId clientToken rfl - _ user rfl - - -
      simp
  | _ => exact renewal_free _ rfl

end Loontail.Accounts
