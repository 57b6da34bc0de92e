import Loontail.Accounts.Evolution
import Loontail.Accounts.Requests
import Loontail.Concurrency.Turn
import Loontail.Accounts.Credentials
import Loontail.Relational.Discards

/-! # Calls of the Yggdrasil token store

The operations on token pairs, each handled at once and with its statements
answered, and the ledger of the pairs they have issued. -/

/-! ## Account requests handled at once

The rules by which a handler is judged when nothing comes between its statements:
each of them fails and changes nothing, or executes on the state the last one left. -/

namespace Loontail.Accounts

open Concurrency Relational Fallible

section Rules

variable {Value : Type} {service : Service} {onError : AppError → Service → Prop}

theorem query_everyWay {statement : Statement} {onOk : statement.Reply → Service → Prop}
    (ok : ∀ reply database, statement.execute service.clock service.database =
      .ok (reply, database) → onOk reply { service with database })
    (error : ∀ error, onError (.database error) service) :
    (query statement).Meets (.everyWay accounts) onOk onError service := by
  refine (meets_query statement).mpr fun result after occurs => ?_
  rcases occurs_statement occurs with ⟨failure, rfl, rfl⟩ | ⟨reply, database, rfl, executed, rfl⟩
  · exact error failure
  · exact ok reply database executed

end Rules

def caller (state : AppState) (service : Service) (parts : Parts) : Option User :=
  match sessionToken parts.headers state.config.cookieName with
  | some (token, source) =>
      if source = .cookie && parts.method.isMutating && !csrfMatches parts.headers then none
      else Sql.userFromToken service.clock (state.hashToken token) service.database
  | none => none

def adminCaller (state : AppState) (service : Service) (parts : Parts) : Option User :=
  (caller state service parts).filter User.isAdmin

section Extractors

variable {state : AppState} {service : Service} {parts : Parts}
  {onOk : User → Service → Prop} {onError : AppError → Service → Prop}

theorem userFromToken_everyWay {token : String}
    (ok : ∀ user, Sql.userFromToken service.clock (state.hashToken token) service.database =
      some user → onOk user service)
    (error : ∀ error, onError error service) :
    (Credentials.userFromToken state token).Meets (.everyWay accounts) onOk onError service := by
  refine (meets_bind _ _).mpr (query_everyWay (fun reply database executed => ?_) fun _ =>
    error _)
  cases executed
  exact (meets_okOr _ _).mpr ⟨fun _ => error _, ok⟩

theorem authUser_everyWay (ok : ∀ user, caller state service parts = some user → onOk user service)
    (error : ∀ error, onError error service) :
    (Credentials.authUser state parts).Meets (.everyWay accounts) onOk onError service := by
  simp only [Credentials.authUser, meets_bind, meets_okOr, meets_whenever, meets_lift]
  refine ⟨fun _ => error _, fun presented found => ⟨fun cookie => ⟨fun _ _ => error _, ?_⟩,
    fun bearer => ?_⟩⟩
  · intro _ verified
    have submitted : csrfMatches parts.headers = true := by
      rw [verifyCsrf_eq] at verified
      by_contra unequal
      simp [unequal] at verified
    refine userFromToken_everyWay (fun user resolved => ok user ?_) error
    simp only [caller, found, submitted, Bool.not_true, Bool.and_false, Bool.false_eq_true,
      if_false, resolved]
  · refine userFromToken_everyWay (fun user resolved => ok user ?_) error
    simp only [caller, found, bearer, Bool.false_and, Bool.false_eq_true, if_false, resolved]

theorem adminUser_everyWay
    (ok : ∀ admin, adminCaller state service parts = some admin → onOk admin service)
    (error : ∀ error, onError error service) :
    (Credentials.adminUser state parts).Meets (.everyWay accounts) onOk onError service := by
  refine (meets_bind _ _).mpr (authUser_everyWay (fun user called => ?_) error)
  simp only [meets_bind, meets_refuse, meets_pure]
  refine ⟨fun _ => error _, fun admin => ok user ?_⟩
  exact Option.filter_eq_some_iff.mpr ⟨called, by simpa using admin⟩

end Extractors

/-! ## The calls -/

inductive TokenCall where
  | issue (userId : Uuid) (clientToken : Option String) (draws : Draws)
  | refresh (accessToken : String) (clientToken : Option String) (draws : Draws)
  | invalidate (accessToken : String) (clientToken : Option String)
  | invalidateAll (userId : Uuid)
  | cleanup
  | elapse (seconds : Nat)

def TokenCall.handler (state : AppState) :
    TokenCall → Handler (Option (Uuid × Credentials.YggdrasilTokens))
  | .issue userId clientToken draws => do
      let tokens ← Credentials.issueYggdrasilTokens state userId clientToken draws
      pure (some (userId, tokens))
  | .refresh accessToken clientToken draws => do
      let refreshed ← Credentials.refreshYggdrasil state accessToken clientToken draws
      pure (some (refreshed.1.id, refreshed.2))
  | .invalidate accessToken clientToken => do
      let _ ← Credentials.invalidateYggdrasil state accessToken clientToken
      pure none
  | .invalidateAll userId => do
      let _ ← query (.deleteAllTokens userId)
      pure none
  | .cleanup => do
      let _ ← query .cleanupTokens
      pure none
  | .elapse seconds => do
      let _ ← operate (.tick seconds)
      pure none

def handleTokens (state : AppState) (call : TokenCall) :
    Process accounts (Except AppError (Option (Uuid × Credentials.YggdrasilTokens))) :=
  (call.handler state).run

abbrev TokenPool : Type :=
  Pool accounts TokenCall (Except AppError (Option (Uuid × Credentials.YggdrasilTokens)))

/-! ## The ledger -/

/-- What the event does to the pairs that were issued and not removed, evictions
left out. -/
def ledgerAfter (event : Event accounts) (ledger : List YggdrasilToken) :
    List YggdrasilToken :=
  match event with
  | ⟨_, before, .statement (.insertToken userId accessTokenHash clientToken expiresAt),
      .ok _, _⟩ => ⟨userId, accessTokenHash, clientToken, before.clock, expiresAt⟩ :: ledger
  | ⟨_, _, .statement (.deleteToken accessTokenHash clientToken), .ok _, _⟩ =>
      ledger.filter fun token => !(token.accessTokenHash = accessTokenHash &&
        clientToken.all fun supplied => token.clientToken = supplied)
  | ⟨_, _, .statement (.deleteAllTokens userId), .ok _, _⟩ =>
      ledger.filter fun token => !(token.userId = userId)
  | ⟨_, before, .statement .cleanupTokens, .ok _, _⟩ =>
      ledger.filter fun token => !(token.expiresAt ≤ before.clock)
  | _ => ledger

/-- The pairs that were issued and not removed otherwise than by eviction, newest
first. -/
def tokenLedger (history : List (Event accounts)) : List YggdrasilToken :=
  history.foldr ledgerAfter []

def issueTime (event : Event accounts) : Option Timestamp :=
  match event with
  | ⟨_, before, .statement (.insertToken ..), .ok _, _⟩ => some before.clock
  | _ => none

def IssuesIncrease (history : List (Event accounts)) : Prop :=
  (history.filterMap issueTime).Pairwise fun later earlier => earlier < later

instance (history : List (Event accounts)) : Decidable (IssuesIncrease history) :=
  inferInstanceAs (Decidable (List.Pairwise _ _))

/-- The event evicted the pair while its user held `max` newer ones. -/
def displaces (max : Int) (token : YggdrasilToken) (event : Event accounts) : Prop :=
  match event with
  | ⟨_, before, .statement (.evictTokens userId _), _, _⟩ =>
      userId = token.userId ∧ max ≤ before.database.yggdrasilTokens.rows.countP fun other =>
        other.userId = token.userId && token.issuedAt < other.issuedAt
  | _ => False

def Database.tokensOf (database : Database) (userId : Uuid) : List YggdrasilToken :=
  database.yggdrasilTokens.rows.filter fun token => token.userId = userId

theorem Database.mem_tokensOf {database : Database} {userId : Uuid} {token : YggdrasilToken} :
    token ∈ database.tokensOf userId ↔
      token ∈ database.yggdrasilTokens.rows ∧ token.userId = userId := by
  simp [tokensOf]

/-! ## Handlers without failures -/

section Rules

variable {Value : Type} {index : Nat} {service : Service} {history : List (Event accounts)}
  {onError : AppError → Service × List (Event accounts) → Prop}

theorem query_steady {statement : Statement}
    {onOk : statement.Reply → Service × List (Event accounts) → Prop}
    (ok : ∀ reply database, statement.execute service.clock service.database =
        .ok (reply, database) →
      onOk reply ({ service with database },
        ⟨index, service, .statement statement, .ok reply, { service with database }⟩ :: history))
    (error : ∀ error, statement.execute service.clock service.database = .error error →
      onError (.database error)
        (service, ⟨index, service, .statement statement, .error error, service⟩ :: history)) :
    (query statement).Meets (.steady accounts index) onOk onError (service, history) := by
  refine (meets_query statement).mpr fun result after _ performed => ?_
  change service.perform (.statement statement) = (result, after) at performed
  rw [Service.perform] at performed
  split at performed
  · rename_i reply database executed
    cases performed
    exact ok reply database executed
  · rename_i failure executed
    cases performed
    exact error failure executed

theorem now_steady {onOk : Timestamp → Service × List (Event accounts) → Prop}
    (ok : onOk service.clock
      (service, ⟨index, service, .now, service.clock, service⟩ :: history)) :
    now.Meets (.steady accounts index) onOk onError (service, history) := by
  refine meets_now.mpr fun result after _ performed => ?_
  cases performed
  exact ok

end Rules

end Loontail.Accounts
