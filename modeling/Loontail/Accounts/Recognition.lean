import Loontail.Accounts.Holders
import Loontail.Accounts.Requests
import Loontail.Concurrency.Protocol

/-! # How callers are recognised

Each way into the service has one statement that decides as whom the request is
served. The protocol follows that user to the reply. -/

namespace Loontail.Accounts

open Concurrency Fallible

def Request.password : Request → Option String
  | .login body _ => some body.password
  | .authenticate body _ => some body.password
  | .adminLogin body _ => some body.password
  | _ => none

def Yggdrasil.confirms (user : User) (username : String) : Bool :=
  Text.eqIgnoreAsciiCase user.username (Text.trim username) && user.profileUuid.isSome

/-- What the row of a user must show for the request to be served as that user. -/
def Request.admits (user : User) : Request → Bool
  | .yggdrasilRefresh .. => !user.blocked && user.confirmed
  | .validate _ => !user.blocked && user.confirmed
  | .join _ => !user.blocked && user.confirmed
  | .hasJoined params => Yggdrasil.confirms user params.username
  | _ => false

/-- The user as whom a reply lets the request go on. -/
@[simp] def Request.recognises (state : AppState) (request : Request) :
    (statement : Statement) → statement.Reply → Option Uuid
  | .userFromToken _, some user => some user.id
  | .selectByIdentifier .., some user =>
      if request.password.any fun password => Identity.passwordAccepted state password user then
        some user.id
      else none
  | .selectUser _, some user => if request.admits user then some user.id else none
  | .ticketValid _ _ guestUserId, true => guestUserId
  | .insertUser _, .ok user =>
      match request with
      | .register .. => some user.id
      | _ => none
  | _, _ => none

def Request.recognised (state : AppState) (request : Request) (event : Event accounts) :
    Option Uuid :=
  match event.operation, event.result with
  | .statement statement, .ok reply => request.recognises state statement reply
  | _, _ => none

structure Recognition where
  request : Request
  caller : Option Uuid

namespace Recognition

@[simp] def allows (phase : Recognition) : Operation → Prop
  | .statement (.setProfileUuid id _) => phase.caller = some id
  | .statement (.bindMinecraft id _) => phase.caller = some id
  | _ => True

@[simp] def learn (state : AppState) (phase : Recognition) :
    (statement : Statement) → statement.Reply → Recognition
  | .setProfileUuid .., .ok (some user) => { phase with caller := some user.id }
  | .bindMinecraft .., .ok (some user) => { phase with caller := some user.id }
  | statement, reply =>
      { phase with
        caller := (phase.request.recognises state statement reply).orElse fun _ => phase.caller }

@[simp] def after (state : AppState) (phase : Recognition) :
    (operation : Operation) → operation.Result → Recognition
  | .statement statement, .ok reply => phase.learn state statement reply
  | _, _ => phase

@[simp] def Served : Except AppError Reply → Recognition → Prop
  | .ok reply, phase => ∀ user, reply.principal = some user → phase.caller = some user
  | .error _, _ => True

end Recognition

@[reducible] def recognitionProtocol (state : AppState) : Protocol accounts Request where
  Phase := Recognition
  initial request := ⟨request, none⟩
  allows := Recognition.allows
  after := Recognition.after state

section Handlers

variable {state : AppState} {phase : Recognition}

def Finds (state : AppState) (phase : Recognition) (handler : Handler User) : Prop :=
  handler.Meets (recognitionProtocol state).logic
    (fun user following => following = { phase with caller := some user.id })
    (fun _ _ => True) phase

theorem Finds.bind {handler : Handler User} (finds : Finds state phase handler)
    {Outcome : Type} {next : User → Handler Outcome} {onOk : Outcome → Recognition → Prop}
    (continues : ∀ user, (next user).Meets (recognitionProtocol state).logic onOk
      (fun _ _ => True) { phase with caller := some user.id }) :
    (handler >>= next).Meets (recognitionProtocol state).logic onOk (fun _ _ => True) phase := by
  refine (meets_bind _ _).mpr (finds.mono (fun user following same => ?_) fun _ _ => id)
  subst same
  exact continues user

theorem userFromToken_finds (token : String) :
    Finds state phase (Credentials.userFromToken state token) := by
  simp only [Finds, Credentials.userFromToken, meets_bind, meets_query, Recognition.allows,
    Recognition.after, forall_except, meets_okOr, implies_true, and_true, true_and]
  rintro reply present rfl
  rfl

theorem authUser_finds (parts : Parts) : Finds state phase (Credentials.authUser state parts) := by
  simp only [Finds, Credentials.authUser, meets_bind, meets_okOr, meets_whenever, meets_lift,
    implies_true, true_and]
  intro presented _
  exact ⟨fun _ _ _ => userFromToken_finds _, fun _ => userFromToken_finds _⟩

theorem adminUser_finds (parts : Parts) :
    Finds state phase (Credentials.adminUser state parts) := by
  refine (authUser_finds parts).bind fun user => ?_
  simp

theorem assignOrReconcile_finds (user : User) (draws : Draws)
    (found : phase.caller = some user.id) :
    Finds state phase (Identity.assignOrReconcileProfileUuid user draws) := by
  simp only [Finds, Identity.assignOrReconcileProfileUuid, meets_bind, meets_lift, meets_ite,
    meets_pure, meets_query, Recognition.allows, Recognition.after, forall_except, meets_okOr,
    Identity.meets_uniqueOr, found, implies_true, and_true, true_and]
  intro desired _
  refine ⟨fun _ => found ▸ rfl, fun _ => ⟨?_, by rintro _ _ ⟨⟩⟩⟩
  rintro (_ | updated) _ ⟨⟩ present ⟨⟩
  rfl

theorem authenticatePassword_finds {password : String}
    (presents : phase.request.password = some password) (identifier : String) (draws : Draws) :
    Finds state phase (Identity.authenticatePassword state identifier password draws) := by
  simp only [Finds, Identity.authenticatePassword, meets_bind, meets_refuse, meets_query,
    Recognition.allows, Recognition.after, forall_except, meets_okOr, implies_true, and_true,
    true_and]
  rintro - reply user rfl accepted
  have learned : phase.learn state
      (.selectByIdentifier (state.normalizeUsername (Text.trim identifier)) draws.choice)
      (some user) =
        { phase with caller := some user.id } := by
    simp only [Bool.not_eq_false'] at accepted
    simp [presents, accepted]
  rw [learned]
  exact @assignOrReconcile_finds state { phase with caller := some user.id } user draws rfl

theorem registerUser_finds {body : Account.RegisterRequest} {draws : Draws}
    (asks : phase.request = .register body draws) (username email password : String) :
    Finds state phase (Identity.registerUser state username email password draws) := by
  simp only [Finds, Identity.registerUser, meets_bind, meets_refuse, meets_lift, meets_query,
    Recognition.allows, Recognition.after, forall_except, Identity.meets_uniqueOr, implies_true,
    and_true, true_and]
  rintro - - - - hash -
  refine ⟨?_, by rintro _ _ ⟨⟩⟩
  rintro user _ ⟨⟩
  simp [asks]

theorem eligibleUser_bind (accessToken : String) (clientToken : Option String)
    {Outcome : Type} {next : User × Uuid × String → Handler Outcome}
    {onOk : Outcome → Recognition → Prop}
    (admits : ∀ user, phase.request.admits user = (!user.blocked && user.confirmed))
    (continues : ∀ user row, (next (user, row)).Meets (recognitionProtocol state).logic onOk
      (fun _ _ => True) { phase with caller := some user.id }) :
    (Credentials.eligibleUser state accessToken clientToken >>= next).Meets
      (recognitionProtocol state).logic onOk (fun _ _ => True) phase := by
  simp only [Credentials.eligibleUser, bind_assoc, meets_bind, meets_refuse, meets_query,
    Recognition.allows, Recognition.after, forall_except, meets_okOr, meets_pure, implies_true,
    and_true, true_and]
  rintro _ row rfl - reply user rfl eligible
  have admitted : phase.request.admits user = true := by
    rw [admits]
    simpa using eligible
  simp only [Recognition.learn, Request.recognises, admitted]
  exact continues user row

theorem joinedProfile_serves (session : JoinSession) {params : Yggdrasil.HasJoinedQuery}
    (asks : phase.request = .hasJoined params) :
    (Yggdrasil.joinedProfile session params.username).Meets (recognitionProtocol state).logic
      (fun profile following => Recognition.Served (.ok (.ofProfile profile)) following)
      (fun _ _ => True) phase := by
  simp only [Yggdrasil.joinedProfile, Identity.loadUser, bind_assoc, meets_bind, meets_query,
    Recognition.allows, Recognition.after, forall_except, meets_okOr, meets_ite, meets_pure,
    implies_true, and_true, true_and]
  rintro reply user rfl
  refine ⟨fun named profileUuid profile => ?_, by rintro _ _ ⟨⟩⟩
  have confirmed : phase.request.admits user = true := by
    simp [asks, Request.admits, Yggdrasil.confirms, named, profile]
  simp [confirmed, Reply.ofProfile]

def Silent (state : AppState) (phase : Recognition) {Value : Type} (handler : Handler Value) :
    Prop :=
  handler.Meets (recognitionProtocol state).logic (fun _ following => following = phase)
    (fun _ _ => True) phase

theorem Silent.bind {Value Outcome : Type} {handler : Handler Value}
    (silent : Silent state phase handler) {next : Value → Handler Outcome}
    {onOk : Outcome → Recognition → Prop}
    (continues : ∀ value, (next value).Meets (recognitionProtocol state).logic onOk
      (fun _ _ => True) phase) :
    (handler >>= next).Meets (recognitionProtocol state).logic onOk (fun _ _ => True) phase := by
  refine (meets_bind _ _).mpr (silent.mono (fun value following same => ?_) fun _ _ => id)
  subst same
  exact continues value

theorem whenever_silent {handler : Handler Unit} (silent : Silent state phase handler)
    (condition : Bool) : Silent state phase (whenever condition handler) :=
  (meets_whenever _ _).mpr ⟨fun _ => silent, fun _ => rfl⟩

theorem issueSession_silent (userId : Uuid) (ttl : Nat) (token : String) :
    Silent state phase (Credentials.issueSession state userId ttl token) := by
  simp [Silent, Credentials.issueSession, forall_except]

theorem issueYggdrasilTokens_silent (userId : Uuid) (clientToken : Option String)
    (draws : Draws) :
    Silent state phase (Credentials.issueYggdrasilTokens state userId clientToken draws) := by
  simp [Silent, Credentials.issueYggdrasilTokens, forall_except]

theorem revokePresented_silent (headers : Headers) :
    Silent state phase (Account.revokePresented state headers) := by
  unfold Account.revokePresented
  split <;> simp [Silent, Credentials.revokeSession, forall_except]

theorem authResponse_serves (user : User) (draws : Draws) :
    (Account.authResponse state user draws).Meets (recognitionProtocol state).logic
      (fun response following => Recognition.Served (.ok (.ofAuth response)) following)
      (fun _ _ => True) { phase with caller := some user.id } := by
  refine (issueSession_silent _ _ _).bind fun session => ?_
  refine (issueYggdrasilTokens_silent _ _ _).bind fun minecraft => ?_
  simp [Reply.ofAuth, User.account]

theorem loadUser_silent (unadmitted : ∀ user, phase.request.admits user = false) (id : Uuid) :
    Silent state phase (Identity.loadUser id) := by
  simp [Silent, Identity.loadUser, unadmitted, forall_except]

theorem guardLastAdmin_silent (target : Uuid) :
    Silent state phase (Admin.guardLastAdmin target) := by
  simp [Silent, Admin.guardLastAdmin, forall_except]

theorem updateUser_silent (id : Uuid) (patch : Identity.UpdateUser) :
    Silent state phase (Identity.updateUser state id patch) := by
  simp [Silent, Identity.updateUser, forall_except]

theorem setBlocked_silent (id : Uuid) (blocked : Bool) :
    Silent state phase (Identity.setBlocked id blocked) := by
  simp [Silent, Identity.setBlocked, forall_except]

theorem setPassword_silent (id : Uuid) (new salt : String) :
    Silent state phase (Identity.setPassword state id new salt) := by
  simp [Silent, Identity.setPassword, forall_except]

theorem revokeCredentials_silent (id : Uuid) :
    Silent state phase (Admin.revokeCredentials id) := by
  simp [Silent, Admin.revokeCredentials, forall_except]

end Handlers

/-- Whoever is served was recognised as the user as whom the reply is made out. -/
theorem handle_recognises (state : AppState) (request : Request) :
    (handle state request).Meets (recognitionProtocol state).logic Recognition.Served
      ((recognitionProtocol state).initial request) := by
  refine meets_outcome.mpr ?_
  change Fallible.Meets _ _ _ (fun _ _ => True) _
  cases request with
  | login body draws =>
      refine (meets_map _ _).mpr ((authenticatePassword_finds rfl _ _).bind fun user => ?_)
      exact authResponse_serves user draws
  | register body draws =>
      refine (meets_map _ _).mpr ((registerUser_finds rfl _ _ _).bind fun user => ?_)
      exact authResponse_serves user draws
  | refresh parts draws =>
      refine (meets_map _ _).mpr ((authUser_finds parts).bind fun user => ?_)
      refine (revokePresented_silent parts.headers).bind fun _ => ?_
      exact authResponse_serves user draws
  | logout headers =>
      refine (meets_map _ _).mpr ((revokePresented_silent headers).mono ?_ fun _ _ => id)
      simp [Reply.servedTo]
  | me parts =>
      refine (meets_map _ _).mpr ((authUser_finds parts).bind fun user => ?_)
      simp [Reply.ofAccount, User.account]
  | bootstrap parts minecraftUuid =>
      refine (meets_map _ _).mpr ((authUser_finds parts).bind fun user => ?_)
      simp only [meets_bind, meets_query, Recognition.allows, Recognition.after, forall_except,
        Identity.meets_uniqueOr, meets_okOr, meets_pure, implies_true, and_true, true_and]
      refine ⟨?_, by rintro _ _ ⟨⟩⟩
      rintro (_ | updated) _ ⟨⟩ present ⟨⟩
      simp [Reply.ofAccount, User.account]
  | signaling headers token =>
      refine (meets_map _ _).mpr ((meets_bind _ _).mpr ?_)
      simp only [meets_okOr, implies_true, true_and]
      intro presented _
      refine (userFromToken_finds presented).bind fun user => ?_
      simp [Reply.servedTo]
  | relay headers relaySessionId params =>
      simp only [Request.handler, Sockets.relayWs, meets_map, meets_bind, meets_okOr,
        meets_refuse, meets_query, Recognition.allows, Recognition.after, Recognition.learn,
        Request.recognises, forall_except, implies_true, and_true, true_and]
      rintro presented - _ relay rfl -
      unfold Sockets.authenticate
      split
      · refine (userFromToken_finds presented).bind fun user => ?_
        simp [Reply.servedTo]
      · simp [Sockets.validateGuestTicket, forall_except, Reply.servedTo]
      · simp
  | authenticate body draws =>
      refine (meets_map _ _).mpr ((authenticatePassword_finds rfl _ _).bind fun user => ?_)
      refine (meets_bind _ _).mpr ((meets_refuse _ _).mpr ⟨fun _ => trivial, fun _ => ?_⟩)
      refine (issueYggdrasilTokens_silent _ _ _).bind fun tokens => ?_
      simp [Reply.ofYggdrasil]
  | yggdrasilRefresh body draws =>
      refine (meets_map _ _).mpr ((meets_bind _ _).mpr ?_)
      refine eligibleUser_bind _ _ (fun _ => rfl) fun user row => ?_
      simp only [meets_bind, meets_query, Recognition.allows, Recognition.after,
        Recognition.learn, Request.recognises, forall_except, implies_true, and_true, true_and]
      intro deleted
      refine (issueYggdrasilTokens_silent _ _ _).mono (fun tokens following same => ?_)
        fun _ _ => id
      subst same
      simp [Reply.ofYggdrasil]
  | validate body =>
      refine (meets_map _ _).mpr ((meets_bind _ _).mpr ?_)
      refine eligibleUser_bind _ _ (fun _ => rfl) fun user row => ?_
      simp [Reply.servedTo]
  | invalidate body =>
      simp [Request.handler, Yggdrasil.invalidate, Credentials.invalidateYggdrasil,
        forall_except, Reply.servedTo]
  | join body =>
      refine (meets_map _ _).mpr ((meets_bind _ _).mpr ?_)
      refine eligibleUser_bind _ _ (fun _ => rfl) fun user row => ?_
      simp [Reply.servedTo]
  | hasJoined params =>
      refine (meets_map _ _).mpr ?_
      simp only [Yggdrasil.hasJoined, meets_bind, meets_now, meets_operate, Recognition.allows,
        Recognition.after, true_and]
      intro askedAt session
      cases session with
      | none => simp [Reply.ofProfile]
      | some session =>
          refine (meets_ite _ _ _).mpr ⟨fun _ => ?_, fun _ => joinedProfile_serves session rfl⟩
          simp [Reply.ofProfile]
  | adminLogin body draws =>
      refine (meets_map _ _).mpr ((authenticatePassword_finds rfl _ _).bind fun user => ?_)
      simp only [meets_bind, meets_refuse, implies_true, true_and]
      intro admin
      refine (issueSession_silent _ _ _).mono ?_ fun _ _ => id
      simp [Reply.ofAdminLogin, User.adminMe]
  | adminLogout headers =>
      simp only [Request.handler, Admin.logout]
      split <;> simp [Credentials.revokeSession, forall_except, Reply.servedTo]
  | adminMe parts =>
      refine (meets_map _ _).mpr ((adminUser_finds parts).bind fun user => ?_)
      simp [Reply.ofAdminMe, User.adminMe]
  | createUser parts body draws =>
      refine (meets_map _ _).mpr ((adminUser_finds parts).bind fun user => ?_)
      simp [Identity.adminCreateUser, forall_except, Reply.ofAdmin]
  | getUser parts id =>
      refine (meets_map _ _).mpr ((adminUser_finds parts).bind fun user => ?_)
      refine (loadUser_silent (fun _ => rfl) id).bind fun target => ?_
      simp [Reply.ofAdmin]
  | patchUser parts id body =>
      refine (meets_map _ _).mpr ((adminUser_finds parts).bind fun user => ?_)
      refine (whenever_silent (guardLastAdmin_silent id) _).bind fun _ => ?_
      refine (updateUser_silent id body).bind fun updated => ?_
      simp [forall_except, Reply.ofAdmin]
  | deleteUser parts id =>
      refine (meets_map _ _).mpr ((adminUser_finds parts).bind fun user => ?_)
      refine (loadUser_silent (fun _ => rfl) id).bind fun target => ?_
      refine (guardLastAdmin_silent id).bind fun _ => ?_
      simp [forall_except, Reply.servedTo]
  | blockUser parts id =>
      refine (meets_map _ _).mpr ((adminUser_finds parts).bind fun user => ?_)
      refine (guardLastAdmin_silent id).bind fun _ => ?_
      refine (setBlocked_silent id true).bind fun blocked => ?_
      simp [Reply.ofAdmin]
  | unblockUser parts id =>
      refine (meets_map _ _).mpr ((adminUser_finds parts).bind fun user => ?_)
      refine (setBlocked_silent id false).bind fun unblocked => ?_
      simp [Reply.ofAdmin]
  | resetPassword parts id password draws =>
      refine (meets_map _ _).mpr ((adminUser_finds parts).bind fun user => ?_)
      refine (setPassword_silent id password draws.salt).bind fun _ => ?_
      refine (revokeCredentials_silent id).bind fun _ => ?_
      simp [Reply.servedTo]
  | revokeTokens parts id =>
      refine (meets_map _ _).mpr ((adminUser_finds parts).bind fun user => ?_)
      refine (loadUser_silent (fun _ => rfl) id).bind fun target => ?_
      refine (revokeCredentials_silent id).bind fun _ => ?_
      simp [Reply.servedTo]
  | cleanup => simp [Request.handler, cleanupExpired, Reply.servedTo]
  | tick elapsed => simp [Request.handler, Reply.servedTo]
  | network joinTickets relaySessions => simp [Request.handler, Reply.servedTo]

/-! ## Who was recognised, and when -/

theorem Sql.reviseUser_id {id : Uuid} {set : User → User}
    {keepsKey : ∀ user, (set user).id = user.id} {database after : Database} {user : User}
    (executed : reviseUser id set keepsKey database = .ok (.ok (some user), after)) :
    user.id = id := by
  rcases reviseUser_ok executed with ⟨-, ⟨-, impossible⟩ | ⟨_, impossible⟩⟩ |
    ⟨earlier, _, found, -, -, same, -⟩
  · cases impossible
  · cases impossible
  · cases same
    rw [keepsKey earlier]
    exact (Relational.Table.find_eq_some.mp found).2

section Recognised

variable {state : AppState}

@[simp] theorem Recognition.after_request (phase : Recognition) (operation : Operation)
    (result : operation.Result) :
    (phase.after state operation result).request = phase.request := by
  unfold after
  split
  · unfold learn
    split <;> rfl
  · rfl

theorem recognition_request (request : Request) (index : Nat)
    (history : List (Event accounts)) :
    ((recognitionProtocol state).phase request index history).request = request := by
  refine @Protocol.phase_induction accounts Request (recognitionProtocol state)
    (fun phase => phase.request = request) request rfl ?_ index history
  intro phase operation result holds
  exact (Recognition.after_request phase operation result).trans holds

theorem recognised_of_after {phase : Recognition} {event : Event accounts} {user : Uuid}
    (happened : event.Happened) (allowed : phase.allows event.operation)
    (unknown : phase.caller ≠ some user)
    (learned : (phase.after state event.operation event.result).caller = some user) :
    phase.request.recognised state event = some user := by
  rcases event with ⟨process, before, operation, result, after⟩
  have occurs : accounts.Occurs before operation result after := happened
  simp only [Recognition.after] at learned
  unfold Request.recognised
  split at learned
  · rename_i statement reply
    obtain ⟨database, executed, rfl⟩ := occurs_ok occurs
    unfold Recognition.learn at learned
    split at learned
    · rename_i id _ found
      cases Sql.reviseUser_id executed
      exact (unknown (Eq.trans allowed learned)).elim
    · rename_i id _ found
      cases Sql.reviseUser_id executed
      exact (unknown (Eq.trans allowed learned)).elim
    · simpa [unknown] using learned
  · exact (unknown learned).elim

def servedAs (pool : Pool accounts Request (Except AppError Reply)) (index : Nat) :
    Option Uuid :=
  match pool.entries[index]? with
  | some (_, .done (.ok reply)) => reply.principal
  | _ => none

/-- Behind every reply made out to a user is an event that recognised the user. -/
theorem recognised_of_served {database : Database} {clock : Timestamp}
    {moves : List (Move Request)} {final : Pool accounts Request (Except AppError Reply)}
    (reached : run (Pool.move (handle state)) (.initial (.boot database clock)) moves =
      some final) {index : Nat} {request : Request} {user : Uuid}
    (owned : final.owner index = some request) (served : servedAs final index = some user) :
    ∃ event ∈ final.history, event.process = index ∧
      request.recognised state event = some user := by
  unfold servedAs at served
  split at served
  · rename_i asked reply found
    cases (Pool.owner_of_entry found).symm.trans owned
    have caller : ((recognitionProtocol state).phase request index final.history).caller =
        some user :=
      (Pool.obeys_of_run (handle_recognises state) reached).2 index request _ found user served
    obtain ⟨event, older, suffix, rfl, unknown, learned⟩ :=
      @Protocol.phase_milestone accounts Request (recognitionProtocol state)
        (fun phase => phase.caller = some user) _ _ _ (by simp) caller
    obtain ⟨owner, same, allowed⟩ :=
      Pool.allowed_in_phase (handle_recognises state) reached suffix
    cases owned.symm.trans same
    have happened := ((Pool.traced_of_run reached).of_suffix suffix).2
    have recognised := recognised_of_after happened allowed unknown learned
    rw [recognition_request] at recognised
    exact ⟨event, suffix.subset (by simp), rfl, recognised⟩
  · cases served

end Recognised

end Loontail.Accounts
