import Loontail.Accounts.Requests

/-! # The operations that handlers take

A handler takes none but the allowed operations if its parts do. The parts that
handlers share are judged here once, for any operations that may be allowed. -/

namespace Loontail.Accounts

open Concurrency Fallible

abbrev Takes {Value : Type} (allowed : Operation → Prop) (handler : Handler Value) : Prop :=
  @Fallible.Meets accounts AppError Value handler (.footprint allowed) (fun _ _ => True)
    (fun _ _ => True) ()

section Rules

variable {allowed : Operation → Prop} {Value Outcome : Type}

theorem Takes.bind {handler : Handler Value} {next : Value → Handler Outcome}
    (takes : Takes allowed handler) (continued : ∀ value, Takes allowed (next value)) :
    Takes allowed (handler >>= next) :=
  (meets_bind _ _).mpr (takes.mono (fun value _ _ => continued value) fun _ _ _ => trivial)

theorem Takes.map {handler : Handler Value} (takes : Takes allowed handler)
    (apply : Value → Outcome) : Takes allowed (apply <$> handler) :=
  (meets_map _ _).mpr (takes.mono (fun _ _ _ => trivial) fun _ _ _ => trivial)

theorem Takes.whenever {handler : Handler Unit} (takes : Takes allowed handler)
    (condition : Bool) : Takes allowed (whenever condition handler) :=
  (meets_whenever _ _).mpr ⟨fun _ => takes, fun _ => trivial⟩

theorem Takes.uses {handler : Handler Value} (takes : Takes allowed handler) :
    handler.run.Uses allowed :=
  meets_run.mpr takes

theorem Takes.ignored {logic : Logic accounts} {situation : logic.Situation}
    {onOk : Value → logic.Situation → Prop} {onError : AppError → logic.Situation → Prop}
    {handler : Handler Value} (takes : Takes (logic.Ignores situation) handler)
    (ok : ∀ value, onOk value situation) (error : ∀ error, onError error situation) :
    handler.Meets logic onOk onError situation :=
  Fallible.Meets.of_footprint takes (fun _ ignored => ignored) (fun value _ => ok value)
    fun failure _ => error failure

theorem takes_pure (value : Value) : Takes allowed (pure value) := trivial

theorem takes_throw (error : AppError) : Takes allowed (throw error : Handler Value) := trivial

theorem takes_okOr (value : Option Value) (error : AppError) :
    Takes allowed (okOr value error) := by
  simp

theorem takes_refuse (condition : Bool) (error : AppError) :
    Takes allowed (refuse condition error) := by
  simp

theorem takes_lift (result : Except AppError Value) : Takes allowed (lift result) := by
  simp

theorem takes_uniqueOr (error : UniqueIndex → AppError) (result : Except UniqueIndex Value) :
    Takes allowed (Identity.uniqueOr error result) := by
  simp

theorem takes_operate {operation : Operation} (may : allowed operation) :
    Takes allowed (operate operation) :=
  ⟨may, fun _ => trivial⟩

theorem takes_query {statement : Statement} (may : allowed (.statement statement)) :
    Takes allowed (query statement) :=
  (meets_query statement).mpr ⟨may, forall_except.mpr ⟨fun _ => trivial, fun _ => trivial⟩⟩

end Rules

/-! ## The parts that handlers share -/

section Parts

variable {allowed : Operation → Prop} {state : AppState}

theorem userFromToken_takes
    (reads : ∀ tokenHash, allowed (.statement (.userFromToken tokenHash))) (token : String) :
    Takes allowed (Credentials.userFromToken state token) :=
  (takes_query (reads _)).bind fun _ => takes_okOr _ _

theorem authUser_takes (reads : ∀ tokenHash, allowed (.statement (.userFromToken tokenHash)))
    (parts : Parts) : Takes allowed (Credentials.authUser state parts) :=
  (takes_okOr _ _).bind fun _ => ((takes_lift _).whenever _).bind fun _ =>
    userFromToken_takes reads _

theorem adminUser_takes (reads : ∀ tokenHash, allowed (.statement (.userFromToken tokenHash)))
    (parts : Parts) : Takes allowed (Credentials.adminUser state parts) :=
  (authUser_takes reads parts).bind fun _ => (takes_refuse _ _).bind fun _ => takes_pure _

theorem adminCreateUser_takes (inserts : ∀ row, allowed (.statement (.insertUser row)))
    (input : Identity.AdminCreateUser) (draws : Draws) :
    Takes allowed (Identity.adminCreateUser state input draws) :=
  (takes_refuse _ _).bind fun _ => (takes_refuse _ _).bind fun _ => (takes_lift _).bind fun _ =>
    (takes_lift _).bind fun _ => (takes_lift _).bind fun _ =>
      (takes_query (inserts _)).bind fun _ => takes_uniqueOr _ _

theorem loadUser_takes (reads : ∀ id, allowed (.statement (.selectUser id))) (id : Uuid) :
    Takes allowed (Identity.loadUser id) :=
  (takes_query (reads id)).bind fun _ => takes_okOr _ _

theorem eligibleUser_takes
    (tokens : ∀ accessTokenHash, allowed (.statement (.selectToken accessTokenHash)))
    (users : ∀ id, allowed (.statement (.selectUser id))) (accessToken : String)
    (clientToken : Option String) :
    Takes allowed (Credentials.eligibleUser state accessToken clientToken) :=
  (takes_query (tokens _)).bind fun _ => (takes_okOr _ _).bind fun _ =>
    (takes_refuse _ _).bind fun _ => (takes_query (users _)).bind fun _ =>
      (takes_okOr _ _).bind fun _ => (takes_refuse _ _).bind fun _ => takes_pure _

theorem setBlocked_takes {id : Uuid} {blocked : Bool}
    (writes : allowed (.statement (.setBlocked id blocked))) :
    Takes allowed (Identity.setBlocked id blocked) :=
  (takes_query writes).bind fun _ => takes_okOr _ _

theorem setPassword_takes {id : Uuid}
    (writes : ∀ hash, allowed (.statement (.setPassword id hash))) (new salt : String) :
    Takes allowed (Identity.setPassword state id new salt) :=
  (takes_lift _).bind fun _ => (takes_lift _).bind fun _ =>
    (takes_query (writes _)).bind fun _ => takes_refuse _ _

theorem revokeCredentials_takes {id : Uuid}
    (sessions : allowed (.statement (.revokeAllSessions id)))
    (tokens : allowed (.statement (.deleteAllTokens id))) :
    Takes allowed (Admin.revokeCredentials id) :=
  (takes_query sessions).bind fun _ => (takes_query tokens).bind fun _ => takes_pure _

end Parts

/-! ## Handlers that take any statement -/

section Statements

variable {allowed : Operation → Prop} {state : AppState}
  (statements : ∀ statement, allowed (.statement statement))
include statements

theorem revokePresented_takes (headers : Headers) :
    Takes allowed (Account.revokePresented state headers) := by
  unfold Account.revokePresented
  split
  · exact (takes_query (statements _)).bind fun _ => takes_pure _
  · exact takes_pure _

theorem assignOrReconcile_takes (user : User) (draws : Draws) :
    Takes allowed (Identity.assignOrReconcileProfileUuid user draws) := by
  refine (takes_lift _).bind fun desired => ?_
  split
  · exact takes_pure _
  · exact (takes_query (statements _)).bind fun _ => (takes_uniqueOr _ _).bind fun _ =>
      takes_okOr _ _

theorem authenticatePassword_takes (identifier password : String) (draws : Draws) :
    Takes allowed (Identity.authenticatePassword state identifier password draws) :=
  (takes_refuse _ _).bind fun _ => (takes_query (statements _)).bind fun _ =>
    (takes_okOr _ _).bind fun _ => (takes_refuse _ _).bind fun _ =>
      assignOrReconcile_takes statements _ draws

theorem registerUser_takes (username email password : String) (draws : Draws) :
    Takes allowed (Identity.registerUser state username email password draws) :=
  (takes_refuse _ _).bind fun _ => (takes_refuse _ _).bind fun _ => (takes_lift _).bind fun _ =>
    (takes_lift _).bind fun _ => (takes_query (statements _)).bind fun _ => takes_uniqueOr _ _

theorem updateUser_takes (id : Uuid) (patch : Identity.UpdateUser) :
    Takes allowed (Identity.updateUser state id patch) :=
  (takes_query (statements _)).bind fun _ => (takes_uniqueOr _ _).bind fun _ => takes_okOr _ _

theorem guardLastAdmin_takes (target : Uuid) : Takes allowed (Admin.guardLastAdmin target) :=
  (takes_query (statements _)).bind fun _ =>
    ((takes_query (statements _)).bind fun _ => takes_refuse _ _).whenever _

theorem relayAuthenticate_takes (relay : RelaySession) (role token : String) :
    Takes allowed (Sockets.authenticate state relay role token) := by
  unfold Sockets.authenticate
  split
  · exact (userFromToken_takes (fun _ => statements _) token).bind fun _ =>
      (takes_refuse _ _).bind fun _ => takes_pure _
  · refine Takes.bind ?_ fun _ => takes_pure _
    exact (takes_okOr _ _).bind fun _ => (takes_query (statements _)).bind fun _ =>
      (takes_refuse _ _).bind fun _ => (takes_query (statements _)).bind fun _ => takes_pure _
  · exact takes_throw _

variable (clock : allowed .now)
include clock

theorem issueSession_takes (userId : Uuid) (ttl : Nat) (token : String) :
    Takes allowed (Credentials.issueSession state userId ttl token) :=
  (takes_operate clock).bind fun _ => (takes_query (statements _)).bind fun _ => takes_pure _

theorem issueYggdrasilTokens_takes (userId : Uuid) (clientToken : Option String)
    (draws : Draws) :
    Takes allowed (Credentials.issueYggdrasilTokens state userId clientToken draws) :=
  (takes_operate clock).bind fun _ => (takes_query (statements _)).bind fun _ =>
    (((takes_query (statements _)).bind fun _ => takes_pure _).whenever _).bind fun _ =>
      takes_pure _

theorem authResponse_takes (user : User) (draws : Draws) :
    Takes allowed (Account.authResponse state user draws) :=
  (issueSession_takes statements clock _ _ _).bind fun _ =>
    (issueYggdrasilTokens_takes statements clock _ _ _).bind fun _ => takes_pure _

end Statements

end Loontail.Accounts
