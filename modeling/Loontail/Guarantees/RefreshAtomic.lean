import Loontail.Accounts.Requests
import Loontail.Concurrency.Sequence
import Loontail.Guarantees.SingleSuccessor

/-! # Whether a failed refresh costs its pair

The pair is deleted before its successor is inserted, and before the reply is known to
be one; nothing brings it back. -/

namespace Loontail.Accounts

open Concurrency Relational Fallible

def pairValid (state : AppState) (service : Service) (accessToken : String)
    (clientToken : Option String) : Bool :=
  match Sql.selectToken service.clock (state.hashToken accessToken) service.database with
  | none => false
  | some row =>
      !(clientToken.any fun supplied => supplied ≠ row.2) &&
        (service.database.users.find row.1).any fun user => !(user.blocked || !user.confirmed)

theorem pairValid_of_none {state : AppState} {service : Service} {accessToken : String}
    {clientToken : Option String}
    (missing : Sql.selectToken service.clock (state.hashToken accessToken) service.database = none) :
    pairValid state service accessToken clientToken = false := by
  rw [pairValid, missing]

theorem pairValid_of_some {state : AppState} {service : Service} {accessToken : String}
    {clientToken : Option String} {row : Uuid × String}
    (live : Sql.selectToken service.clock (state.hashToken accessToken) service.database =
      some row) :
    pairValid state service accessToken clientToken =
      (!(clientToken.any fun supplied => supplied ≠ row.2) &&
        (service.database.users.find row.1).any fun user => !(user.blocked || !user.confirmed)) := by
  rw [pairValid, live]

/-- The pair is as valid as it was, and none was issued. -/
structure Harmless (state : AppState) (body : Yggdrasil.RefreshRequest) (before after : Service)
    (issues : Bool) : Prop where
  valid : pairValid state after body.accessToken body.clientToken =
    pairValid state before body.accessToken body.clientToken
  unissued : issues = false

namespace Harmless

variable {state : AppState} {body : Yggdrasil.RefreshRequest} {before after : Service}

theorem same : Harmless state body before before false := ⟨rfl, rfl⟩

theorem not_of_issued : ¬Harmless state body before after true := fun harmless => by
  cases harmless.unissued

theorem not_of_lost {issues : Bool}
    (valid : pairValid state before body.accessToken body.clientToken = true)
    (lost : pairValid state after body.accessToken body.clientToken = false) :
    ¬Harmless state body before after issues := fun harmless => by
  rw [harmless.valid, valid] at lost
  cases lost

end Harmless

/-! ## The statements of a refresh -/

section Statements

variable {service : Service} {script : List Bool} {marked : Bool} {index : Nat}
  {onError : AppError → Service × List Bool × Bool → Prop}

theorem query_scripted {statement : Statement} (quiet : statement.issues = false)
    {onOk : statement.Reply → Service × List Bool × Bool → Prop}
    (error : ∀ error, script.headD false = true ∨
        (∃ failure, statement.execute service.clock service.database = .error failure) →
      onError (.database error) (service, script.tail, marked))
    (ok : script.headD false = false → ∀ reply database,
      statement.execute service.clock service.database = .ok (reply, database) →
      onOk reply ({ service with database }, script.tail, marked)) :
    (query statement).Meets (.scripted accounts index issued) onOk onError
      (service, script, marked) := by
  have silent : ∀ result after,
      issued ⟨index, service, .statement statement, result, after⟩ = false := by
    intro result after
    cases result with
    | ok reply => exact quiet
    | error error => rfl
  refine (meets_query statement).mpr ⟨fun fails result fault => ?_, fun runs result after _ done => ?_⟩
  · cases fault
    rw [silent]
    exact error _ (.inl fails)
  · rw [silent]
    change service.perform (.statement statement) = (result, after) at done
    rw [Service.perform] at done
    split at done
    · rename_i reply database executed
      cases done
      exact ok runs reply database executed
    · rename_i failure executed
      cases done
      exact error _ (.inr ⟨failure, executed⟩)

theorem now_scripted {onOk : Timestamp → Service × List Bool × Bool → Prop}
    (ok : ∀ script, onOk service.clock (service, script, marked)) :
    now.Meets (.scripted accounts index issued) onOk onError (service, script, marked) := by
  refine meets_now.mpr ⟨fun _ result fault => ?_, fun _ result after _ performed => ?_⟩
  · cases fault
  · cases performed
    exact ok script.tail

theorem insertToken_scripted {userId : Uuid} {accessTokenHash clientToken : String}
    {expiresAt : Timestamp} {onOk : Unit → Service × List Bool × Bool → Prop}
    (error : ∀ error, onError (.database error) (service, script.tail, marked))
    (ok : ∀ database, onOk () ({ service with database }, script.tail, true)) :
    (query (.insertToken userId accessTokenHash clientToken expiresAt)).Meets
      (.scripted accounts index issued) onOk onError (service, script, marked) := by
  refine (meets_query _).mpr ⟨fun _ result fault => ?_, fun _ result after _ done => ?_⟩
  · cases fault
    exact error _
  · change service.perform (.statement _) = (result, after) at done
    rw [Service.perform] at done
    split at done
    · cases done
      exact ok _
    · cases done
      exact error _

end Statements

section Refresh

variable {state : AppState} {body : Yggdrasil.RefreshRequest} {draws : Draws} {index : Nat}
  {before : Service}

/-- The checks of a refresh, by the script: either they refuse and nothing has happened, or
the pair was valid and neither read failed. -/
theorem eligibleUser_scripted {script : List Bool}
    {onOk : User × Uuid × String → Service × List Bool × Bool → Prop}
    {onError : AppError → Service × List Bool × Bool → Prop}
    (refused : ∀ error rest, pairValid state before body.accessToken body.clientToken = false ∨
        script.headD false = true ∨ script.tail.headD false = true →
      onError error (before, rest, false))
    (eligible : ∀ reply, pairValid state before body.accessToken body.clientToken = true →
      script.headD false = false → script.tail.headD false = false →
      onOk reply (before, script.tail.tail, false)) :
    (Credentials.eligibleUser state body.accessToken body.clientToken).Meets
      (.scripted accounts index issued) onOk onError (before, script, false) := by
  unfold Credentials.eligibleUser
  simp only [meets_bind, meets_okOr, meets_refuse, meets_pure]
  refine query_scripted rfl ?_ ?_
  · rintro error (fails | ⟨failure, executed⟩)
    · exact refused _ _ (.inr (.inl fails))
    · cases executed
  intro first found database selected
  cases selected
  refine ⟨fun missing => refused _ _ (.inl ?_), fun row live => ⟨fun differs => ?_, fun agrees => ?_⟩⟩
  · exact pairValid_of_none missing
  · refine refused _ _ (.inl ?_)
    rw [pairValid_of_some live, differs, Bool.not_true, Bool.false_and]
  refine query_scripted rfl ?_ ?_
  · rintro error (fails | ⟨failure, executed⟩)
    · exact refused _ _ (.inr (.inr fails))
    · cases executed
  intro second user database loaded
  cases loaded
  refine ⟨fun missing => refused _ _ (.inl ?_), fun owner known => ⟨fun barred => ?_, fun free => ?_⟩⟩
  · rw [pairValid_of_some live, missing, Option.any_none, Bool.and_false]
  · refine refused _ _ (.inl ?_)
    rw [pairValid_of_some live, known, Option.any_some, barred, Bool.not_true, Bool.and_false]
  · refine eligible _ ?_ first second
    rw [pairValid_of_some live, known, Option.any_some, agrees, free]
    rfl

theorem issue_scripted {script : List Bool} {deleted : Service} {userId : Uuid}
    {clientToken : Option String}
    (valid : pairValid state before body.accessToken body.clientToken = true)
    (lost : pairValid state deleted body.accessToken body.clientToken = false) :
    (Credentials.issueYggdrasilTokens state userId clientToken draws).Meets
      (.scripted accounts index issued) (fun _ following => following.2.2 = true)
      (fun _ following => ¬Harmless state body before following.1 following.2.2)
      (deleted, script, false) := by
  unfold Credentials.issueYggdrasilTokens
  simp only [meets_bind, meets_whenever, meets_pure]
  refine now_scripted fun script => insertToken_scripted ?_ ?_
  · exact fun _ => Harmless.not_of_lost valid lost
  intro database
  refine ⟨fun _ => query_scripted rfl ?_ ?_, fun _ => rfl⟩
  · exact fun _ _ => Harmless.not_of_issued
  · exact fun _ _ _ _ => rfl

theorem pairValid_of_deleted {clock : Timestamp} {sessions : JoinSessions} {database : Database}
    {selected : YggdrasilToken → Bool}
    (all : ∀ token, token.accessTokenHash = state.hashToken body.accessToken →
      selected token = true) :
    pairValid state ⟨(Sql.deleteTokens selected database).2, sessions, clock⟩ body.accessToken
      body.clientToken = false := by
  refine pairValid_of_none ?_
  have gone : (database.yggdrasilTokens.delete selected).find
      (state.hashToken body.accessToken) = none := by
    by_contra present
    obtain ⟨token, found⟩ := Option.ne_none_iff_exists'.mp present
    obtain ⟨member, same⟩ := Table.find_eq_some.mp found
    have kept := (Table.mem_delete.mp member).2
    rw [all token same] at kept
    cases kept
  simp [Sql.selectToken, Sql.deleteTokens, gone]

/-- A refresh that fails is harmless exactly if it gets no further than its deletion. -/
theorem refresh_scripted {script : List Bool} :
    (Yggdrasil.refresh state body draws).Meets (.scripted accounts index issued)
      (fun _ _ => True)
      (fun _ following => Harmless state body before following.1 following.2.2 ↔
        pairValid state before body.accessToken body.clientToken = false ∨
          true ∈ script.take 3)
      (before, script, false) := by
  have early : (true ∈ script.take 3) ↔ script.headD false = true ∨
      script.tail.headD false = true ∨ script.tail.tail.headD false = true := by
    simp only [mem_take_succ, List.take_zero, List.not_mem_nil, or_false]
  unfold Yggdrasil.refresh Credentials.refreshYggdrasil
  simp only [meets_bind, meets_okOr, meets_refuse, meets_pure, meets_lift, early]
  refine eligibleUser_scripted ?_ ?_
  · intro error rest cause
    refine iff_of_true .same (cause.imp_right fun fails => ?_)
    exact fails.imp_right .inl
  intro eligible valid first second
  refine query_scripted rfl ?_ ?_
  · rintro error (fails | ⟨failure, executed⟩)
    · exact iff_of_true .same (.inr (.inr (.inr fails)))
    · cases executed
  intro third count database deleted
  cases deleted
  have late : ¬(pairValid state before body.accessToken body.clientToken = false ∨
      script.headD false = true ∨ script.tail.headD false = true ∨
        script.tail.tail.headD false = true) := by
    rw [valid, first, second, third]
    decide
  have lost := @pairValid_of_deleted state body before.clock before.joinSessions before.database
    (fun token => token.accessTokenHash = state.hashToken body.accessToken && true)
    (by simp)
  refine (issue_scripted valid lost).mono ?_ ?_
  · rintro tokens ⟨service, rest, marked⟩ rfl
    have harmful := @Harmless.not_of_issued state body before service
    refine ⟨fun _ => iff_of_false harmful late, fun profileUuid _ => ⟨fun _ => ?_, fun _ => ?_⟩⟩
    · exact iff_of_false harmful late
    · exact ⟨fun _ _ => iff_of_false harmful late, fun _ _ => trivial⟩
  · exact fun _ _ harmful => iff_of_false harmful late

end Refresh

/-- A refresh that answers with an error leaves its pair as valid as it was and issues none
exactly if it was not valid, or one of the first three statements failed: the reads of the
pair and of its user, and the deletion. -/
theorem refresh_atomic_iff {state : AppState} {body : Yggdrasil.RefreshRequest} {draws : Draws}
    {index : Nat} {script : List Bool} {before after : Service} {error : AppError}
    {events : List (Event accounts)}
    (executed : (handle state (.yggdrasilRefresh body draws)).execute index script before [] =
      some (.error error, after, events)) :
    Harmless state body before after (events.any issued) ↔
      pairValid state before body.accessToken body.clientToken = false ∨ true ∈ script.take 3 := by
  have meets : Process.Meets (.scripted accounts index issued)
      (fun outcome following => ∀ error, outcome = .error error →
        (Harmless state body before following.1 following.2.2 ↔
          pairValid state before body.accessToken body.clientToken = false ∨
            true ∈ script.take 3))
      (handle state (.yggdrasilRefresh body draws)) (before, script, false) := by
    refine meets_outcome.mpr ((meets_map _ _).mpr (refresh_scripted.mono ?_ ?_))
    · intro reply following _ error impossible
      cases impossible
    · intro _ following judged _ _
      exact judged
  exact @Process.execute_scripted accounts _ _ index script before after [] events _ issued
    (fun outcome after issues => ∀ error, outcome = .error error →
      (Harmless state body before after issues ↔
        pairValid state before body.accessToken body.clientToken = false ∨
          true ∈ script.take 3)) meets executed error rfl

/-- A pair that is refused for a wrong client token survives. -/
theorem refresh_atomic_refused :
    ∃ after events, (handle plainState (.yggdrasilRefresh ⟨"access", some "wrong", false, none⟩
        (drawn "first"))).execute 0 [] (.boot steveDatabase 0) [] =
          some (.error .forbidden, after, events) ∧
      Harmless plainState ⟨"access", some "wrong", false, none⟩ (.boot steveDatabase 0) after
        (events.any issued) := by
  have refused : ((handle plainState (.yggdrasilRefresh ⟨"access", some "wrong", false, none⟩
      (drawn "first"))).execute 0 [] (.boot steveDatabase 0) []).map
        (fun run => decide (run.1 = .error .forbidden)) = some true := by decide +kernel
  obtain ⟨⟨outcome, after, events⟩, executed, failed⟩ := Option.map_eq_some_iff.mp refused
  obtain rfl := of_decide_eq_true failed
  exact ⟨after, events, executed, (refresh_atomic_iff executed).mpr (by decide +kernel)⟩

/-- No statement fails, and the pair is gone all the same: a selected profile that names
another account is found out too late. -/
theorem refresh_loses_pair :
    ¬∀ (state : AppState) (body : Yggdrasil.RefreshRequest) (draws : Draws) (script : List Bool)
      (before after : Service) (error : AppError) (events : List (Event accounts)),
      (handle state (.yggdrasilRefresh body draws)).execute 0 script before [] =
        some (.error error, after, events) →
      Harmless state body before after (events.any issued) := by
  intro always
  have refused : ((handle plainState (.yggdrasilRefresh
      ⟨"access", some "client", false, some (some "another")⟩ (drawn "first"))).execute 0 []
      (.boot steveDatabase 0) []).map (fun run =>
        decide (run.1 = .error .forbidden ∧ run.2.2.any issued = true)) = some true := by
    decide +kernel
  obtain ⟨⟨outcome, after, events⟩, executed, failed⟩ := Option.map_eq_some_iff.mp refused
  obtain ⟨rfl, issues⟩ := of_decide_eq_true failed
  have harmless := always _ _ _ _ _ _ _ _ executed
  rw [harmless.unissued] at issues
  cases issues

end Loontail.Accounts
