import Loontail.Accounts.Footprints
import Loontail.Accounts.JoinLog
import Loontail.Guarantees.BlockedAccounts

/-! # The join handshake

A client announces that it joins a server, and the server asks who has joined. What
the server is told is judged against the log of the store. -/

namespace Loontail.Accounts

open Concurrency Relational Fallible

inductive JoinPhase where
  | other
  | joining (body : Yggdrasil.JoinRequest) (token admitted : Option Uuid)
  | asking (params : Yggdrasil.HasJoinedQuery) (taken : Option (Timestamp × JoinSession))
      (shown : Option (Uuid × User))

namespace JoinPhase

def begin : Request → JoinPhase
  | .join body => .joining body none none
  | .hasJoined params => .asking params none none
  | _ => .other

@[simp] def allows (state : AppState) : JoinPhase → Operation → Prop
  | .other, operation => operation.server = none
  | .joining body _ admitted, .recordJoin now serverId session =>
      serverId = body.serverId ∧ admitted = some session.userId ∧
        session.expiresAt = now + durationSeconds joinSessionTtlSeconds
  | .joining .., .takeJoin .. => False
  | .joining body .., .statement (.selectToken accessTokenHash) =>
      accessTokenHash = state.hashToken body.accessToken
  | .joining .., _ => True
  | .asking params .., .takeJoin _ serverId => serverId = params.serverId
  | .asking .., .recordJoin .. => False
  | .asking .., _ => True

@[simp] def after : JoinPhase → (operation : Operation) → operation.Result → JoinPhase
  | .joining body _ admitted, .statement (.selectToken _), .ok (some (userId, _)) =>
      .joining body (some userId) admitted
  | .joining body token admitted, .statement (.selectUser id), .ok (some user) =>
      .joining body token
        (if token = some id ∧ user.blocked = false ∧ user.confirmed = true then some user.id
          else admitted)
  | .asking params _ shown, .takeJoin now _, some session =>
      .asking params (some (now, session)) shown
  | .asking params taken _, .statement (.selectUser id), .ok (some user) =>
      .asking params taken (some (id, user))
  | phase, _, _ => phase

@[simp] def Ends : Except AppError Reply → JoinPhase → Prop
  | .ok ⟨some principal, .profile profile⟩, .asking params taken shown =>
      ∃ now session user, taken = some (now, session) ∧ shown = some (session.userId, user) ∧
        Text.eqIgnoreAsciiCase user.username (Text.trim params.username) = true ∧
        principal = user.id ∧ profile.userId = user.id ∧ profile.username = user.username ∧
        user.profileUuid = some profile.profileUuid
  | _, _ => True

def Asks (params : Yggdrasil.HasJoinedQuery) : JoinPhase → Prop
  | .asking same _ _ => same = params
  | _ => False

end JoinPhase

@[reducible] def joinProtocol (state : AppState) : Protocol accounts Request where
  Phase := JoinPhase
  initial := JoinPhase.begin
  allows := JoinPhase.allows state
  after := JoinPhase.after

/-! ## The handlers -/

def OffStore (operation : Operation) : Prop := operation.server = none

section Handlers

variable {state : AppState}

theorem handle_offStore {request : Request} (other : JoinPhase.begin request = .other) :
    (handle state request).Uses OffStore := by
  have statements (statement : Statement) : OffStore (.statement statement) := rfl
  have reads (tokenHash : String) : OffStore (.statement (.userFromToken tokenHash)) := rfl
  have loads (id : Uuid) : OffStore (.statement (.selectUser id)) := rfl
  have clock : OffStore .now := rfl
  have takes {Value : Type} {apply : Value → Reply} {handler : Handler Value}
      (handled : request.handler state = apply <$> handler) (takes : Takes OffStore handler) :
      (handle state request).Uses OffStore := by
    refine Takes.uses ?_
    rw [handled]
    exact takes.map apply
  cases request with
  | join body => cases other
  | hasJoined params => cases other
  | login body draws =>
      exact takes rfl ((authenticatePassword_takes statements _ _ draws).bind fun user =>
        authResponse_takes statements clock user draws)
  | register body draws =>
      exact takes rfl ((registerUser_takes statements _ _ _ draws).bind fun user =>
        authResponse_takes statements clock user draws)
  | refresh parts draws =>
      exact takes rfl ((authUser_takes reads parts).bind fun user =>
        (revokePresented_takes statements _).bind fun _ =>
          authResponse_takes statements clock user draws)
  | logout headers => exact takes rfl (revokePresented_takes statements headers)
  | me parts => exact takes rfl ((authUser_takes reads parts).bind fun _ => takes_pure _)
  | bootstrap parts minecraftUuid =>
      exact takes rfl ((authUser_takes reads parts).bind fun _ =>
        (takes_query (statements _)).bind fun _ => (takes_uniqueOr _ _).bind fun _ =>
          (takes_okOr _ _).bind fun _ => takes_pure _)
  | signaling headers token =>
      exact takes rfl ((takes_okOr _ _).bind fun _ =>
        (userFromToken_takes reads _).bind fun _ => takes_pure _)
  | relay headers relaySessionId params =>
      exact takes rfl ((takes_okOr _ _).bind fun _ => (takes_query (statements _)).bind fun _ =>
        (takes_okOr _ _).bind fun relay => (takes_refuse _ _).bind fun _ =>
          relayAuthenticate_takes statements relay _ _)
  | authenticate body draws =>
      exact takes rfl ((authenticatePassword_takes statements _ _ draws).bind fun user =>
        (takes_refuse _ _).bind fun _ =>
          (issueYggdrasilTokens_takes statements clock _ _ draws).bind fun _ =>
            (takes_lift _).bind fun _ => takes_pure _)
  | yggdrasilRefresh body draws =>
      refine takes rfl (Takes.bind ?_ fun refreshed => ?_)
      · exact (eligibleUser_takes (fun _ => rfl) loads _ _).bind fun _ =>
          (takes_query (statements _)).bind fun _ =>
            (issueYggdrasilTokens_takes statements clock _ _ draws).bind fun _ => takes_pure _
      · exact (takes_okOr _ _).bind fun _ => (takes_refuse _ _).bind fun _ =>
          (takes_lift _).bind fun _ => takes_pure _
  | validate body =>
      exact takes rfl (((eligibleUser_takes (fun _ => rfl) loads _ _).bind fun _ => takes_pure _).bind
        fun _ => takes_pure _)
  | invalidate body =>
      exact takes rfl ((takes_query (statements _)).bind fun _ => takes_pure _)
  | adminLogin body draws =>
      exact takes rfl ((authenticatePassword_takes statements _ _ draws).bind fun user =>
        (takes_refuse _ _).bind fun _ =>
          (issueSession_takes statements clock _ _ _).bind fun _ => takes_pure _)
  | adminLogout headers =>
      refine takes rfl ?_
      unfold Admin.logout
      split
      · exact (takes_query (statements _)).bind fun _ => takes_pure _
      · exact takes_pure _
  | adminMe parts => exact takes rfl ((adminUser_takes reads parts).bind fun _ => takes_pure _)
  | createUser parts body draws =>
      exact takes rfl ((adminUser_takes reads parts).bind fun _ =>
        (adminCreateUser_takes (fun _ => rfl) body draws).bind fun _ => takes_pure _)
  | getUser parts id =>
      exact takes rfl ((adminUser_takes reads parts).bind fun _ =>
        (loadUser_takes loads id).bind fun _ => takes_pure _)
  | patchUser parts id body =>
      refine takes rfl ((adminUser_takes reads parts).bind fun admin => ?_)
      refine ((guardLastAdmin_takes statements id).whenever _).bind fun _ => ?_
      refine (updateUser_takes statements id body).bind fun user => ?_
      refine Takes.bind (Takes.whenever ?_ _) fun _ => takes_pure _
      exact (takes_query (statements _)).bind fun _ => takes_pure _
  | deleteUser parts id =>
      refine takes rfl ((adminUser_takes reads parts).bind fun admin => ?_)
      refine (loadUser_takes loads id).bind fun _ => ?_
      refine (guardLastAdmin_takes statements id).bind fun _ => ?_
      exact (takes_query (statements _)).bind fun _ => takes_pure _
  | blockUser parts id =>
      refine takes rfl ((adminUser_takes reads parts).bind fun admin => ?_)
      refine (guardLastAdmin_takes statements id).bind fun _ => ?_
      exact (setBlocked_takes (statements _)).bind fun _ => takes_pure _
  | unblockUser parts id =>
      exact takes rfl ((adminUser_takes reads parts).bind fun _ =>
        (setBlocked_takes (statements _)).bind fun _ => takes_pure _)
  | resetPassword parts id password draws =>
      refine takes rfl ((adminUser_takes reads parts).bind fun admin => ?_)
      refine (setPassword_takes (fun _ => rfl) password draws.salt).bind fun _ => ?_
      exact (revokeCredentials_takes (statements _) (statements _)).bind fun _ => takes_pure _
  | revokeTokens parts id =>
      refine takes rfl ((adminUser_takes reads parts).bind fun admin => ?_)
      refine (loadUser_takes loads id).bind fun _ => ?_
      exact (revokeCredentials_takes (statements _) (statements _)).bind fun _ => takes_pure _
  | cleanup =>
      exact takes rfl ((takes_operate (statements _)).bind fun _ =>
        (takes_operate (statements _)).bind fun _ => takes_pure _)
  | tick elapsed => exact takes rfl (takes_operate rfl)
  | network joinTickets relaySessions => exact takes rfl (takes_operate rfl)

theorem validateYggdrasil_joins (body : Yggdrasil.JoinRequest) :
    (Credentials.validateYggdrasil state body.accessToken none).Meets (joinProtocol state).logic
      (fun user following => ∃ token, following = .joining body token (some user.id))
      (fun _ _ => True) (.joining body none none) := by
  unfold Credentials.validateYggdrasil Credentials.eligibleUser
  simp only [meets_bind, meets_query, meets_okOr, meets_refuse, meets_pure]
  refine ⟨rfl, fun result => ?_⟩
  cases result with
  | error error => trivial
  | ok row =>
      refine ⟨fun _ => trivial, ?_⟩
      rintro ⟨userId, clientToken⟩ rfl
      refine ⟨fun _ => trivial, fun _ => ⟨trivial, fun result => ?_⟩⟩
      cases result with
      | error error => trivial
      | ok found =>
          refine ⟨fun _ => trivial, ?_⟩
          rintro user rfl
          refine ⟨fun _ => trivial, fun eligible => ⟨some userId, ?_⟩⟩
          rw [Bool.or_eq_false_iff, Bool.not_eq_false'] at eligible
          exact congrArg _ (if_pos ⟨rfl, eligible⟩)

theorem join_joins (body : Yggdrasil.JoinRequest) :
    (Yggdrasil.join state body).Meets (joinProtocol state).logic (fun _ _ => True)
      (fun _ _ => True) (.joining body none none) := by
  unfold Yggdrasil.join
  rw [meets_bind]
  refine (validateYggdrasil_joins body).mono ?_ fun _ _ _ => trivial
  rintro user following ⟨token, rfl⟩
  simp only [meets_bind, meets_okOr, meets_refuse, meets_now, meets_operate, meets_pure]
  refine ⟨fun _ => trivial, fun profile _ => ⟨fun _ => trivial, fun _ => ?_⟩⟩
  exact ⟨trivial, fun recordedAt => ⟨⟨rfl, rfl, rfl⟩, fun _ => trivial⟩⟩

theorem joinedProfile_joins (params : Yggdrasil.HasJoinedQuery) (now : Timestamp)
    (session : JoinSession) :
    (Yggdrasil.joinedProfile session params.username).Meets (joinProtocol state).logic
      (fun profile following => JoinPhase.Ends (.ok (.ofProfile profile)) following)
      (fun _ _ => True) (.asking params (some (now, session)) none) := by
  unfold Yggdrasil.joinedProfile Identity.loadUser
  simp only [meets_bind, meets_query, meets_okOr, meets_ite, meets_pure]
  refine ⟨trivial, fun result => ?_⟩
  cases result with
  | error error => trivial
  | ok found =>
      refine ⟨fun _ => trivial, ?_⟩
      rintro user rfl
      refine ⟨fun named => ⟨fun _ => trivial, fun profile has => ?_⟩, fun _ => trivial⟩
      exact ⟨now, session, user, rfl, rfl, named, rfl, rfl, rfl, has⟩

theorem hasJoined_joins (params : Yggdrasil.HasJoinedQuery) :
    (Yggdrasil.hasJoined params).Meets (joinProtocol state).logic
      (fun profile following => JoinPhase.Ends (.ok (.ofProfile profile)) following)
      (fun _ _ => True) (.asking params none none) := by
  unfold Yggdrasil.hasJoined
  simp only [meets_bind, meets_now, meets_operate]
  refine ⟨trivial, fun now => ⟨rfl, fun session => ?_⟩⟩
  cases session with
  | none => trivial
  | some session =>
      exact (meets_ite _ _ _).mpr ⟨fun _ => trivial, fun _ => joinedProfile_joins params now session⟩

theorem handle_joins (state : AppState) (request : Request) :
    (handle state request).Meets (joinProtocol state).logic JoinPhase.Ends
      ((joinProtocol state).initial request) := by
  cases request with
  | join body =>
      refine meets_outcome.mpr ((meets_map _ _).mpr ?_)
      exact (join_joins body).mono (fun _ _ _ => trivial) fun _ _ _ => trivial
  | hasJoined params =>
      refine meets_outcome.mpr ((meets_map _ _).mpr ?_)
      exact (hasJoined_joins params).mono (fun _ _ ends => ends) fun _ _ _ => trivial
  | _ =>
      refine (handle_offStore rfl).meets (fun operation off => ?_) fun outcome => ?_
      · exact Protocol.ignores off fun result => by
          cases operation <;> rfl
      · rcases outcome with failure | ⟨_ | principal, body⟩ 
        · trivial
        · trivial
        · cases body <;> trivial

end Handlers

/-! ## What a process has learned -/

def Presents (state : AppState) (history : List (Event accounts)) (process : Nat)
    (accessToken : String) (userId : Uuid) : Prop :=
  ∃ id clientToken user,
    Answered history process (.statement (.selectToken (state.hashToken accessToken)))
      (.ok (some (id, clientToken))) ∧
    Answered history process (.statement (.selectUser id)) (.ok (some user)) ∧
    user.id = userId ∧ user.blocked = false ∧ user.confirmed = true

def JoinPhase.Learned (state : AppState) (request : Request) (history : List (Event accounts))
    (process : Nat) : JoinPhase → Prop
  | .other => True
  | .joining body token admitted => request = .join body ∧
      (∀ id ∈ token, ∃ clientToken,
        Answered history process (.statement (.selectToken (state.hashToken body.accessToken)))
          (.ok (some (id, clientToken)))) ∧
      ∀ userId ∈ admitted, Presents state history process body.accessToken userId
  | .asking params taken shown => request = .hasJoined params ∧
      (∀ now session, taken = some (now, session) → ∃ older before after,
        (⟨process, before, .takeJoin now params.serverId, some session, after⟩ ::
          older : List (Event accounts)) <:+ history) ∧
      ∀ id user, shown = some (id, user) →
        Answered history process (.statement (.selectUser id)) (.ok (some user))

section Run

variable {state : AppState} {request : Request} {history : List (Event accounts)}
  {process : Nat} {phase : JoinPhase}

theorem Presents.later {event : Event accounts} {accessToken : String} {userId : Uuid}
    (presents : Presents state history process accessToken userId) :
    Presents state (event :: history) process accessToken userId := by
  obtain ⟨id, clientToken, user, selected, found, rest⟩ := presents
  exact ⟨id, clientToken, user, selected.later, found.later, rest⟩

theorem JoinPhase.Learned.later {event : Event accounts}
    (learned : phase.Learned state request history process) :
    phase.Learned state request (event :: history) process := by
  cases phase with
  | other => trivial
  | joining body token admitted =>
      obtain ⟨own, selected, presents⟩ := learned
      refine ⟨own, fun id among => ?_, fun userId among => (presents userId among).later⟩
      obtain ⟨clientToken, answered⟩ := selected id among
      exact ⟨clientToken, answered.later⟩
  | asking params taken shown =>
      obtain ⟨own, took, answered⟩ := learned
      refine ⟨own, fun now session same => ?_, fun id user same => (answered id user same).later⟩
      obtain ⟨older, before, after, suffix⟩ := took now session same
      exact ⟨older, before, after, suffix.trans (List.suffix_cons _ _)⟩

theorem answered_newest {before after : Service} {operation : Operation}
    {result : operation.Result} :
    @Answered accounts (⟨process, before, operation, result, after⟩ :: history) process operation
      result :=
  ⟨before, after, List.mem_cons_self⟩

theorem JoinPhase.Learned.event {before after : Service} {operation : Operation}
    {result : operation.Result} (learned : phase.Learned state request history process)
    (allowed : phase.allows state operation) :
    (phase.after operation result).Learned state request
      (⟨process, before, operation, result, after⟩ :: history) process := by
  unfold JoinPhase.after
  split
  · -- the join's token was found
    rename_i body token admitted accessTokenHash userId clientToken
    obtain ⟨own, selected, presents⟩ := learned.later
    refine ⟨own, ?_, presents⟩
    rintro id ⟨⟩
    obtain rfl : accessTokenHash = state.hashToken body.accessToken := allowed
    exact ⟨clientToken, answered_newest⟩
  · -- the user of the token was found
    rename_i body token admitted id user
    obtain ⟨own, selected, presents⟩ := learned.later
    refine ⟨own, selected, fun userId among => ?_⟩
    split at among
    · rename_i eligible
      cases among
      obtain ⟨clientToken, answered⟩ := selected id eligible.1
      exact ⟨id, clientToken, user, answered, answered_newest, rfl, eligible.2⟩
    · exact presents userId among
  · -- the server took a join
    rename_i params taken shown now serverId session
    obtain ⟨own, took, answered⟩ := learned.later
    refine ⟨own, ?_, answered⟩
    rintro now session ⟨⟩
    obtain rfl : serverId = params.serverId := allowed
    exact ⟨history, before, after, List.suffix_refl _⟩
  · -- and its user was loaded
    rename_i params taken shown id user
    obtain ⟨own, took, answered⟩ := learned.later
    refine ⟨own, took, ?_⟩
    rintro id user ⟨⟩
    exact answered_newest
  · exact learned.later

theorem learned_of_run {database : Database} {clock : Timestamp} {moves : List (Move Request)}
    {final : Pool accounts Request (Except AppError Reply)}
    (reached : run (Pool.move (handle state)) (.initial (.boot database clock)) moves =
      some final) (owned : final.owner process = some request)
    (suffix : history <:+ final.history) :
    JoinPhase.Learned state request history process
      ((joinProtocol state).phase request process history) := by
  induction history with
  | nil =>
      cases request with
      | join body => exact ⟨rfl, by simp, by simp⟩
      | hasJoined params => exact ⟨rfl, by simp, by simp⟩
      | _ => trivial
  | cons event rest induction =>
      have learned := induction ((List.suffix_cons _ _).trans suffix)
      rcases event with ⟨index, before, operation, result, after⟩
      by_cases own : index = process
      · subst own
        obtain ⟨other, owns, allowed⟩ := Pool.allowed_in_phase (handle_joins state) reached suffix
        cases owned.symm.trans owns
        rw [Protocol.phase_cons_own request ⟨index, before, operation, result, after⟩]
        exact learned.event allowed
      · rw [Protocol.phase_cons_other request ⟨index, before, operation, result, after⟩ own]
        exact learned.later

theorem answered_selectUser {start final : Service} {id : Uuid} {user : User}
    (traced : @Traced accounts start history final)
    (answered : Answered history process (.statement (.selectUser id)) (.ok (some user))) :
    user.id = id := by
  obtain ⟨before, after, member⟩ := answered
  obtain ⟨older, suffix⟩ := suffix_of_mem member
  obtain ⟨database, executed, -⟩ := occurs_ok (traced.of_suffix suffix).2
  have found : before.database.users.find id = some user := congrArg Prod.fst
    (Except.ok.inj executed)
  exact Database.id_of_find found

theorem phase_asking (params : Yggdrasil.HasJoinedQuery) :
    ∃ taken shown, (joinProtocol state).phase (.hasJoined params) process history =
      .asking params taken shown := by
  have asks : ((joinProtocol state).phase (.hasJoined params) process history).Asks params := by
    refine @Protocol.phase_induction accounts Request (joinProtocol state)
      (JoinPhase.Asks params) (.hasJoined params) rfl ?_ process history
    intro phase operation result
    change phase.Asks params → (phase.after operation result).Asks params
    unfold JoinPhase.after
    split <;> exact id
  cases phase : (joinProtocol state).phase (.hasJoined params) process history with
  | asking same taken shown =>
      rw [phase] at asks
      obtain rfl : same = params := asks
      exact ⟨taken, shown, rfl⟩
  | _ =>
      rw [phase] at asks
      exact asks.elim

end Run

def answeredQuestion (final : Pool accounts Request (Except AppError Reply)) (process : Nat) :
    Option (Yggdrasil.HasJoinedQuery × Reply) :=
  match final.entries[process]? with
  | some (.hasJoined params, .done (.ok reply)) => some (params, reply)
  | _ => none

theorem entry_of_answeredQuestion {final : Pool accounts Request (Except AppError Reply)}
    {process : Nat} {params : Yggdrasil.HasJoinedQuery} {reply : Reply}
    (answered : answeredQuestion final process = some (params, reply)) :
    final.entries[process]? = some (.hasJoined params, .done (.ok reply)) := by
  unfold answeredQuestion at answered
  split at answered
  · rename_i entry
    cases answered
    exact entry
  · cases answered

/-- Before the process asked about the server, the principal announced a join of it with a
valid token, less than the time to live before, and the store was not used for the
server in between. -/
def TookLatestJoin (state : AppState) (final : Pool accounts Request (Except AppError Reply))
    (process : Nat) (serverId : String) (principal : Uuid) : Prop :=
  ∃ asked newer joined older askedAt joinedAt session body,
    asked :: (newer ++ joined :: older) <:+ final.history ∧ asked.process = process ∧
    asked.operation = .takeJoin askedAt serverId ∧
    joined.operation = .recordJoin joinedAt serverId session ∧ session.userId = principal ∧
    joinedAt ≤ askedAt ∧ askedAt < joinedAt + durationSeconds joinSessionTtlSeconds ∧
    (∀ event ∈ newer, event.operation.server ≠ some serverId) ∧
    final.owner joined.process = some (.join body) ∧ body.serverId = serverId ∧
    Presents state older joined.process body.accessToken principal

/-- The profile is the principal's, who has the name up to case. -/
def ShowsProfile (final : Pool accounts Request (Except AppError Reply)) (process : Nat)
    (username : String) (principal : Uuid) (profile : ProfileIdentity) : Prop :=
  ∃ user, Answered final.history process (.statement (.selectUser principal)) (.ok (some user)) ∧
    Text.eqIgnoreAsciiCase user.username username = true ∧
    user.profileUuid = some profile.profileUuid ∧ profile.userId = principal ∧
    profile.username = user.username

/-- In every run that uses the store at one time after another, a server is told of the
latest join that nobody has asked about and that has not expired, under the trimmed name,
and a join in the log can be taken until it expires. -/
theorem has_joined_follows_log (state : AppState) (database : Database) (clock : Timestamp)
    {moves : List (Move Request)} {final : Pool accounts Request (Except AppError Reply)}
    (reached : run (Pool.move (handle state)) (.initial (.boot database clock)) moves =
      some final) (ordered : ReadingsOrdered final.history) :
    (∀ process params principal profile,
      answeredQuestion final process = some (params, ⟨some principal, .profile profile⟩) →
      TookLatestJoin state final process params.serverId principal ∧
        ShowsProfile final process (Text.trim params.username) principal profile) ∧
    ∀ serverId session time, pendingJoin serverId final.history = some session →
      (∀ reading ∈ readings final.history, reading ≤ time) → time < session.expiresAt →
        (final.shared.joinSessions.take time serverId).1 = some session := by
  have traced := Pool.traced_of_run reached
  constructor
  · intro process params principal profile answers
    have entry := entry_of_answeredQuestion answers
    have ended := (Pool.obeys_of_run (handle_joins state) reached).2 process _ _ entry
    have learned := learned_of_run reached (Pool.owner_of_entry entry) (List.suffix_refl _)
    obtain ⟨taken, shown, phase⟩ := @phase_asking state final.history process params
    rw [phase] at learned
    have ends : JoinPhase.Ends (.ok ⟨some principal, .profile profile⟩)
        (.asking params taken shown) := phase ▸ ended
    obtain ⟨askedAt, session, user, rfl, rfl, named, rfl, own, shows, has⟩ := ends
    obtain ⟨-, took, loaded⟩ := learned
    obtain ⟨older, before, after, suffix⟩ := took askedAt session rfl
    have answered := loaded session.userId user rfl
    have principal := answered_selectUser traced answered
    obtain ⟨earlier, happened⟩ := traced.of_suffix suffix
    have inOrder := ordered.of_suffix suffix
    have pending := ((holdsPending_of_trace earlier inOrder.tail).taken inOrder happened).symm
    obtain ⟨pending, live⟩ := Option.filter_eq_some_iff.mp pending
    obtain ⟨newer, joined, oldest, joinedAt, rfl, records, apart⟩ := pendingJoin_eq_some pending
    have within : joined :: oldest <:+ final.history :=
      (List.suffix_append newer _).trans ((List.suffix_cons _ _).trans suffix)
    obtain ⟨request, owned, allowed⟩ :=
      Pool.allowed_in_phase (handle_joins state) reached within
    have facts := learned_of_run reached owned ((List.suffix_cons _ _).trans within)
    have earlierReading : joinedAt ≤ askedAt := by
      refine inOrder.before rfl joinedAt (List.mem_filterMap.mpr ⟨joined, by simp, ?_⟩)
      rw [records]
      rfl
    rw [records] at allowed
    cases phase : (joinProtocol state).phase request joined.process oldest with
    | other =>
        rw [phase] at allowed
        cases allowed
    | asking params taken shown =>
        rw [phase] at allowed
        exact allowed.elim
    | joining body token admitted =>
        rw [phase] at allowed facts
        obtain ⟨server, rfl, expires⟩ := allowed
        obtain ⟨rfl, -, presents⟩ := facts
        refine ⟨⟨_, newer, joined, oldest, askedAt, joinedAt, session, body, suffix, rfl, rfl,
          records, principal.symm, earlierReading, ?_, apart, owned, server.symm, ?_⟩, user, ?_⟩
        · rw [← expires]
          simpa [JoinSession.isExpired] using live
        · rw [principal]
          exact presents session.userId rfl
        · rw [principal]
          exact ⟨answered, named, has, own.trans principal, shows⟩
  · intro serverId session time pending bound live
    have holds := holdsPending_of_trace traced ordered
    change ((final.shared.joinSessions.sweep time).find serverId).filter _ = some session
    rw [JoinSessions.find_sweep holds.keyed, filter_later (le_refl time),
      holds.holds serverId time bound, pending]
    simpa [Option.filter, JoinSession.isExpired] using live

/-! ## A name with a blank -/

def joinedThenAsked (username : String) : List (Move Request) :=
  .start (.join ⟨"access", "00000000000000000000000000000005", "server"⟩) ::
    List.replicate 4 (.advance 0) ++
    .start (.hasJoined ⟨username, "server", none⟩) :: List.replicate 3 (.advance 1)

def steveProfile : ProfileIdentity where
  userId := 5
  profileUuid := "00000000000000000000000000000005"
  username := "Steve"

theorem has_joined_follows_log_asked :
    ∃ final, run (Pool.move (handle plainState)) (.initial (.boot steveDatabase 0))
        (joinedThenAsked "STEVE") = some final ∧
      TookLatestJoin plainState final 1 "server" 5 ∧
        ShowsProfile final 1 (Text.trim "STEVE") 5 steveProfile := by
  have joined : ((run (Pool.move (handle plainState)) (.initial (.boot steveDatabase 0))
      (joinedThenAsked "STEVE")).map fun final => decide (
        answeredQuestion final 1 =
          some (⟨"STEVE", "server", none⟩, ⟨some 5, .profile steveProfile⟩) ∧
        ReadingsOrdered final.history)) = some true := by
    decide +kernel
  rcases Option.map_eq_some_iff.mp joined with ⟨final, reached, holds⟩
  rcases of_decide_eq_true holds with ⟨answered, ordered⟩
  exact ⟨final, reached, (has_joined_follows_log plainState steveDatabase 0 reached ordered).1
    1 ⟨"STEVE", "server", none⟩ 5 steveProfile answered⟩

/-- A name with a blank before it is not the user's, and is answered. -/
theorem has_joined_trims :
    ¬∀ (state : AppState) (database : Database) (clock : Timestamp)
      (moves : List (Move Request)) (final : Pool accounts Request (Except AppError Reply)),
      run (Pool.move (handle state)) (.initial (.boot database clock)) moves = some final →
      ReadingsOrdered final.history → ∀ process params principal profile,
      answeredQuestion final process = some (params, ⟨some principal, .profile profile⟩) →
        ShowsProfile final process params.username principal profile := by
  intro shows
  have joined : ((run (Pool.move (handle plainState)) (.initial (.boot steveDatabase 0))
      (joinedThenAsked " Steve")).map fun final => decide (
        answeredQuestion final 1 =
          some (⟨" Steve", "server", none⟩, ⟨some 5, .profile steveProfile⟩) ∧
        ReadingsOrdered final.history)) = some true := by
    decide +kernel
  rcases Option.map_eq_some_iff.mp joined with ⟨final, reached, holds⟩
  rcases of_decide_eq_true holds with ⟨answered, ordered⟩
  obtain ⟨user, -, named, -, -, shown⟩ := shows plainState steveDatabase 0 _ final reached ordered
    1 ⟨" Steve", "server", none⟩ 5 steveProfile answered
  rw [← show ("Steve" : String) = user.username from shown] at named
  revert named
  decide

end Loontail.Accounts
