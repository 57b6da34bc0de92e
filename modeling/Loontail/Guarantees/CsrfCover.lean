import Loontail.Accounts.Holders
import Loontail.Guarantees.SingleSuccessor
import Loontail.Server.Routes

/-! # The double-submit check and the routes

A mutation that rides on the session cookie alone does what the same request does
from someone who is not logged in. The extractor sees to it where a handler has one;
the two logouts read the cookie themselves. -/

namespace Loontail.Server

open Accounts Concurrency Fallible Relational

/-- A mutating request whose only credential is the session cookie, without a header
that matches the double-submit cookie. -/
structure RidesCookie (mount : String) {Payload : Type} (request : Request Payload) : Prop where
  mutates : (request.parts mount).method.isMutating = true
  noBearer : request.headers.bearerToken = none
  unmatched : csrfMatches request.headers = false

/-- Handled from this state, the request can leave exactly the states that it can leave
without its credentials. -/
def SameWithout (state : Accounts.AppState) (mount : String) (domains : Domains)
    (request : Request domains.Payload) (before : domains.extension.whole.State) : Prop :=
  ∀ after, (handle state mount domains request).Leaves before after ↔
    (handle state mount domains (request.withoutCredentials state)).Leaves before after

def Endpoint.logsOut {Payload : Type} : Endpoint Payload → Bool
  | .logout => true
  | .adminLogout => true
  | _ => false

/-- The session cookie names a session that has not been revoked. -/
def CookieStands (state : Accounts.AppState) (headers : Headers) (database : Accounts.Database) :
    Prop :=
  ∃ token ∈ headers.cookieValue state.config.cookieName,
    (database.holder (.session (state.hashToken token))).isSome = true

variable {state : Accounts.AppState} {mount : String} {domains : Domains}

/-! ## Routes with an extractor -/

theorem sameWithout_of_refused {request : Request domains.Payload}
    {before : domains.extension.whole.State}
    (refused : ∀ headers error,
      Credentials.authUser state (Request.parts mount { request with headers }) = throw error →
        ∃ response, handle state mount domains { request with headers } = .done response)
    (rides : RidesCookie mount request) : SameWithout state mount domains request before := by
  intro after
  obtain ⟨error, presented⟩ := @Credentials.authUser_refused state
    (request.parts mount) rides.noBearer (.inr ⟨rides.mutates, rides.unmatched⟩)
  obtain ⟨response, stopped⟩ := refused request.headers error presented
  obtain ⟨other, anonymous⟩ := @Credentials.authUser_refused state
    ((request.withoutCredentials state).parts mount)
    (Headers.bearerToken_withoutCredentials _ _)
    (.inl (Headers.cookieValue_withoutCredentials _ _))
  obtain ⟨reply, ended⟩ := refused _ other anonymous
  rw [show handle state mount domains request = _ from stopped,
    show handle state mount domains (request.withoutCredentials state) = _ from ended,
    Process.leaves_done, Process.leaves_done]

theorem other_refused {route : Route} {payload : domains.Payload} {parts : Parts}
    {error : AppError} (guarded : route.guard ≠ .anyone)
    (refused : Credentials.authUser state parts = throw error) :
    domains.handler state route parts payload = throw error := by
  unfold Domains.handler
  cases named : route.guard with
  | anyone => exact (guarded named).elim
  | user =>
      simp only [refused]
      rfl
  | admin =>
      simp only [Credentials.adminUser_refused refused]
      rfl

/-! ## The logouts -/

theorem leaves_revoke {Outcome : Type} {tokenHash : String} {before after : Accounts.Service}
    {next : Except DatabaseError Nat → Process accounts Outcome}
    (ends : ∀ result, ∃ outcome, next result = .done outcome) :
    (@Process.call accounts Outcome (.statement (.revokeSession tokenHash)) next).Leaves
        before after ↔
      after = before ∨ after = { before with
        database := (Sql.revokeSessions before.clock
          (fun session => session.tokenHash = tokenHash) before.database).2 } := by
  have left (result : Except DatabaseError Nat) (middle : Accounts.Service) :
      (next result).Leaves middle after ↔ after = middle := by
    obtain ⟨outcome, ended⟩ := ends result
    rw [ended, Process.leaves_done]
  rw [Process.leaves_call]
  simp only [left]
  constructor
  · rintro ⟨result, middle, occurs, rfl⟩
    rcases Accounts.occurs_statement occurs with ⟨-, -, rfl⟩ | ⟨reply, database, -, executed, rfl⟩
    · exact .inl rfl
    · cases executed
      exact .inr rfl
  · rintro (rfl | rfl)
    · exact ⟨.error .connection, after, .inr ⟨rfl, rfl⟩, rfl⟩
    · exact ⟨_, _, .inl ⟨rfl, rfl⟩, rfl⟩

/-- Revoking changes the database where the session stood, and nothing elsewhere. -/
theorem revokeSessions_eq_self_iff {now : Timestamp} {tokenHash : String}
    {database : Accounts.Database} :
    (Sql.revokeSessions now (fun session => session.tokenHash = tokenHash) database).2 =
        database ↔ database.holder (.session tokenHash) = none := by
  constructor
  · intro same
    rw [Option.eq_none_iff_forall_ne_some]
    intro userId held
    rw [← same] at held
    obtain ⟨session, named, -, unselected⟩ := Sql.revokeSessions_holder held
    exact of_decide_eq_false unselected named
  · intro missing
    have unselected : ∀ session ∈ database.sessions.rows,
        (decide (session.tokenHash = tokenHash) && decide (session.revokedAt = none)) = false := by
      intro session member
      by_contra selected
      rw [Bool.not_eq_false, Bool.and_eq_true, decide_eq_true_eq, decide_eq_true_eq] at selected
      have held := Accounts.Database.holder_session.mpr
        ⟨session, Table.find_eq_some.mpr ⟨member, selected.1⟩, selected.2, rfl⟩
      cases held.symm.trans missing
    rw [Sql.revokeSessions, Table.update_eq_self unselected]

theorem leaves_logout {asked : Accounts.Request} {headers : Headers}
    {before after : Accounts.Service} (byCookie : asked = .logout headers ∧
      headers.bearerToken = none ∨ asked = .adminLogout headers) :
    (Accounts.handle state asked).Leaves before after ↔
      after = before ∨ ∃ token ∈ headers.cookieValue state.config.cookieName,
        after = { before with
          database := (Sql.revokeSessions before.clock
            (fun session => session.tokenHash = state.hashToken token) before.database).2 } := by
  rcases presented : headers.cookieValue state.config.cookieName with _ | token
  · have idle : ∃ outcome, Accounts.handle state asked = .done outcome := by
      rcases byCookie with ⟨rfl, noBearer⟩ | rfl
      · refine ⟨.ok (.servedTo none), ?_⟩
        simp only [Accounts.handle, Accounts.Request.handler, Account.logout,
          Account.revokePresented, sessionTokenFromHeaders, noBearer, presented]
        rfl
      · refine ⟨.ok (.servedTo none), ?_⟩
        simp only [Accounts.handle, Accounts.Request.handler, Admin.logout, presented]
        rfl
    obtain ⟨outcome, ended⟩ := idle
    simp [ended, Process.leaves_done]
  · have revokes : ∃ next, Accounts.handle state asked =
          .call (.statement (.revokeSession (state.hashToken token))) next ∧
        ∀ result, ∃ outcome, next result = .done outcome := by
      rcases byCookie with ⟨rfl, noBearer⟩ | rfl
      · simp only [Accounts.handle, Accounts.Request.handler, Account.logout,
          Account.revokePresented, sessionTokenFromHeaders, noBearer, presented]
        refine ⟨_, rfl, fun result => ?_⟩
        cases result <;> exact ⟨_, rfl⟩
      · simp only [Accounts.handle, Accounts.Request.handler, Admin.logout, presented]
        refine ⟨_, rfl, fun result => ?_⟩
        cases result <;> exact ⟨_, rfl⟩
    obtain ⟨next, same, ends⟩ := revokes
    rw [same, leaves_revoke ends]
    simp

theorem handle_asks {request : Request domains.Payload} {asked : Accounts.Request}
    (asks : request.endpoint.asks (request.parts mount) = .inl asked)
    {before after : domains.extension.whole.State} :
    (handle state mount domains request).Leaves before after ↔
      (Accounts.handle state asked).Leaves before.1 after.1 ∧ after.2 = before.2 := by
  unfold handle
  rw [asks]
  exact (Process.leaves_map _ _).trans Process.leaves_embed

/-- A logout that rides on the cookie differs exactly where it ends a session. -/
theorem sameWithout_logout {request : Request domains.Payload}
    {before : domains.extension.whole.State} (logsOut : request.endpoint.logsOut = true)
    (noBearer : request.headers.bearerToken = none) :
    SameWithout state mount domains request before ↔
      ¬CookieStands state request.headers before.1.database := by
  have byCookie (headers : Headers) (silent : headers.bearerToken = none) :
      ∃ asked, request.endpoint.asks ⟨(request.endpoint.line mount).1, headers⟩ = .inl asked ∧
        (asked = .logout headers ∧ headers.bearerToken = none ∨ asked = .adminLogout headers) := by
    cases named : request.endpoint with
    | logout => exact ⟨_, rfl, .inl ⟨rfl, silent⟩⟩
    | adminLogout => exact ⟨_, rfl, .inr rfl⟩
    | _ => simp [named, Endpoint.logsOut] at logsOut
  obtain ⟨asked, asks, riding⟩ := byCookie request.headers noBearer
  obtain ⟨quiet, asksQuiet, silent⟩ := byCookie _
    (Headers.bearerToken_withoutCredentials state.config.cookieName request.headers)
  have absent := Headers.cookieValue_withoutCredentials state.config.cookieName request.headers
  have revoked (token : String) :
      ({ before.1 with database := (Sql.revokeSessions before.1.clock
        (fun session => session.tokenHash = state.hashToken token) before.1.database).2 } :
        Accounts.Service) = before.1 ↔
      before.1.database.holder (.session (state.hashToken token)) = none := by
    rw [← @revokeSessions_eq_self_iff before.1.clock]
    exact ⟨congrArg Accounts.Service.database, fun same => by rw [same]⟩
  unfold SameWithout CookieStands
  simp only [handle_asks asks, @handle_asks _ _ _ (request.withoutCredentials state) _ asksQuiet,
    leaves_logout riding, leaves_logout silent, absent]
  constructor
  · rintro same ⟨token, presented, stands⟩
    have left := (same (_, before.2)).mp ⟨.inr ⟨token, presented, rfl⟩, rfl⟩
    have gone : before.1.database.holder (.session (state.hashToken token)) = none := by
      simpa [revoked] using left
    simp [gone] at stands
  · intro fallen after
    have idle : ∀ token ∈ request.headers.cookieValue state.config.cookieName,
        before.1.database.holder (.session (state.hashToken token)) = none := by
      intro token presented
      by_contra stands
      exact fallen ⟨token, presented, Option.isSome_iff_ne_none.mpr stands⟩
    constructor
    · rintro ⟨same | ⟨token, presented, left⟩, kept⟩
      · exact ⟨.inl same, kept⟩
      · exact ⟨.inl (left.trans ((revoked token).mpr (idle token presented))), kept⟩
    · rintro ⟨same | ⟨token, presented, -⟩, kept⟩
      · exact ⟨.inl same, kept⟩
      · cases presented

/-! ## Every route -/

theorem sameWithout_asks {headers : Headers} {endpoint : Endpoint domains.Payload}
    {before : domains.extension.whole.State} {ask : Parts → Accounts.Request}
    (asks : ∀ parts, endpoint.asks parts = .inl (ask parts))
    (stops : ∀ parts error, Credentials.authUser state parts = throw error →
      Accounts.handle state (ask parts) = .done (.error error))
    (rides : RidesCookie mount ⟨headers, endpoint⟩) :
    SameWithout state mount domains ⟨headers, endpoint⟩ before := by
  refine sameWithout_of_refused (fun other error refused => ?_) rides
  refine ⟨.account (.error error), ?_⟩
  unfold handle
  simp only [asks, stops _ error refused]
  rfl

theorem sameWithout_covered {request : Request domains.Payload}
    {before : domains.extension.whole.State} (covered : request.endpoint.logsOut = false)
    (rides : RidesCookie mount request) : SameWithout state mount domains request before := by
  obtain ⟨headers, endpoint⟩ := request
  cases endpoint with
  | login body draws => exact fun after => Iff.rfl
  | register body draws => exact fun after => Iff.rfl
  | refresh draws =>
      refine sameWithout_asks (fun parts => rfl) (fun parts error refused => ?_) rides
      simp only [Accounts.handle, Accounts.Request.handler, Account.refresh, refused]
      rfl
  | logout => cases covered
  | authenticate body draws => exact fun after => Iff.rfl
  | yggdrasilRefresh body draws => exact fun after => Iff.rfl
  | validate body => exact fun after => Iff.rfl
  | invalidate body => exact fun after => Iff.rfl
  | join body => exact fun after => Iff.rfl
  | adminLogin body draws => exact fun after => Iff.rfl
  | adminLogout => cases covered
  | createUser body draws =>
      refine sameWithout_asks (fun parts => rfl) (fun parts error refused => ?_) rides
      simp only [Accounts.handle, Accounts.Request.handler, Admin.create,
        Credentials.adminUser_refused refused]
      rfl
  | patchUser id body =>
      refine sameWithout_asks (fun parts => rfl) (fun parts error refused => ?_) rides
      simp only [Accounts.handle, Accounts.Request.handler, Admin.patch,
        Credentials.adminUser_refused refused]
      rfl
  | deleteUser id =>
      refine sameWithout_asks (fun parts => rfl) (fun parts error refused => ?_) rides
      simp only [Accounts.handle, Accounts.Request.handler, Admin.delete,
        Credentials.adminUser_refused refused]
      rfl
  | blockUser id =>
      refine sameWithout_asks (fun parts => rfl) (fun parts error refused => ?_) rides
      simp only [Accounts.handle, Accounts.Request.handler, Admin.blockUser,
        Credentials.adminUser_refused refused]
      rfl
  | unblockUser id =>
      refine sameWithout_asks (fun parts => rfl) (fun parts error refused => ?_) rides
      simp only [Accounts.handle, Accounts.Request.handler, Admin.unblockUser,
        Credentials.adminUser_refused refused]
      rfl
  | resetPassword id password draws =>
      refine sameWithout_asks (fun parts => rfl) (fun parts error refused => ?_) rides
      simp only [Accounts.handle, Accounts.Request.handler, Admin.resetPassword,
        Credentials.adminUser_refused refused]
      rfl
  | revokeTokens id =>
      refine sameWithout_asks (fun parts => rfl) (fun parts error refused => ?_) rides
      simp only [Accounts.handle, Accounts.Request.handler, Admin.revokeTokens,
        Credentials.adminUser_refused refused]
      rfl
  | other route payload =>
      by_cases unguarded : route.guard = .anyone
      · intro after
        simp only [handle, Endpoint.asks, Request.withoutCredentials, Domains.handler, unguarded]
      · refine sameWithout_of_refused (fun other error refused => ?_) rides
        by_cases served : route ∈ routes mount
        · refine ⟨.other (.error error), ?_⟩
          simp only [handle, Endpoint.asks, served, if_true]
          rw [other_refused unguarded refused]
          rfl
        · refine ⟨.notFound, ?_⟩
          simp only [handle, Endpoint.asks, served, if_false]
          rfl

/-- From every state, a request that rides on the session cookie does what it would do
without, unless it is a logout and the cookie names a session that is not revoked. -/
theorem cookie_adds_nothing_iff (state : Accounts.AppState) (mount : String) (domains : Domains)
    (before : domains.extension.whole.State) (request : Request domains.Payload)
    (rides : RidesCookie mount request) :
    SameWithout state mount domains request before ↔
      ¬(request.endpoint.logsOut = true ∧
        CookieStands state request.headers before.1.database) := by
  cases logsOut : request.endpoint.logsOut with
  | true => simpa using sameWithout_logout logsOut rides.noBearer
  | false => exact iff_of_true (sameWithout_covered logsOut rides) (by simp)

/-! ## A forged request -/

def accountsAlone : Domains where
  extension := {
    State := Unit
    Operation := Empty
    Result := nofun
    ready := nofun
    perform := nofun
    fault := nofun }
  Payload := Unit
  Reply := Unit
  guarded := fun _ _ _ _ => pure ()
  anyone := fun _ _ => pure ()

/-- Posted across sites: the browser adds the session cookie. -/
def forged (endpoint : Endpoint Unit) : Request Unit where
  headers := [("cookie", "loontail_admin=steve-session")]
  endpoint := endpoint

def registered : List (Turn (Request Unit)) :=
  [.atomically ⟨[], .register ⟨"steve", "steve@example.com", "secret"⟩ (drawn "steve")⟩ []]

theorem cookie_adds_nothing_forged_reset :
    RidesCookie "/api/yggdrasil" (forged (.resetPassword 100 "forged" (drawn "forged"))) ∧
      SameWithout Accounts.plainState "/api/yggdrasil" accountsAlone
        (forged (.resetPassword 100 "forged" (drawn "forged"))) (.boot Accounts.steveDatabase 0, ()) := by
  have rides : RidesCookie "/api/yggdrasil"
      (forged (.resetPassword 100 "forged" (drawn "forged"))) :=
    ⟨by decide +kernel, by decide +kernel, by decide +kernel⟩
  exact ⟨rides, (cookie_adds_nothing_iff Accounts.plainState "/api/yggdrasil" accountsAlone
    (.boot Accounts.steveDatabase 0, ()) _ rides).mpr fun both => Bool.false_ne_true both.1⟩

/-- A forged logout ends the session that the cookie names. -/
theorem forged_logout_ends_session :
    ¬∀ (state : Accounts.AppState) (mount : String) (domains : Domains)
      (database : Accounts.Database) (clock : Timestamp) (added : domains.extension.State)
      (turns : List (Turn (Request domains.Payload)))
      (final : Pool domains.extension.whole (Request domains.Payload) (Response domains.Reply))
      (request : Request domains.Payload),
      run (Pool.turn (handle state mount domains)) (.initial (.boot database clock, added)) turns =
        some final →
      RidesCookie mount request → SameWithout state mount domains request final.shared := by
  intro same
  have started : ((run (Pool.turn (handle Accounts.plainState "/api/yggdrasil" accountsAlone))
      (.initial (.boot (.empty Text.toAsciiLowercase) 0, ())) registered).map fun final =>
        decide ((final.shared.1.database.holder (.session "steve-session")).isSome = true)) =
      some true := by
    decide +kernel
  have rides : RidesCookie "/api/yggdrasil" (forged .logout) :=
    ⟨by decide +kernel, by decide +kernel, by decide +kernel⟩
  have presented : (forged .logout).headers.cookieValue Accounts.plainState.config.cookieName =
      some "steve-session" := by
    decide +kernel
  rcases Option.map_eq_some_iff.mp started with ⟨final, reached, stands⟩
  have unchanged := same Accounts.plainState "/api/yggdrasil" accountsAlone _ 0 () registered final
    (forged .logout) reached rides
  exact (sameWithout_logout rfl rides.noBearer).mp unchanged
    ⟨"steve-session", presented, of_decide_eq_true stands⟩

end Loontail.Server
