import Loontail.Accounts.Footprints
import Loontail.Accounts.Issuance

/-! # One credential, one successor

A refresh validates the credential it is given, retires it, and issues a new one,
each in a statement of its own; how many rows the second one found is not asked. -/

namespace Loontail.Accounts

open Concurrency Relational Fallible

def Statement.issues : Statement → Bool
  | .insertSession .. => true
  | .insertToken .. => true
  | _ => false

def retiredBy (event : Event accounts) : Option Credential :=
  match event.operation, event.result with
  | .statement statement, .ok _ => statement.retires
  | _, _ => none

def issued (event : Event accounts) : Bool :=
  match event.operation, event.result with
  | .statement statement, .ok _ => statement.issues
  | _, _ => false

variable {state : AppState}

/-- Two refreshes of one credential that both issued another are one. -/
def OneSuccessor (state : AppState)
    (pool : Pool accounts Request (Except AppError Reply)) : Prop :=
  ∀ left ∈ pool.history, ∀ right ∈ pool.history, issued left = true → issued right = true →
    ∀ leftRequest rightRequest credential,
      pool.owner left.process = some leftRequest →
      pool.owner right.process = some rightRequest →
      leftRequest.rotates state = some credential →
      rightRequest.rotates state = some credential → left.process = right.process

def RetiresLive (state : AppState) (pool : Pool accounts Request (Except AppError Reply))
    (event : Event accounts) : Prop :=
  ∀ request ∈ pool.owner event.process, ∀ credential ∈ request.rotates state,
    retiredBy event = some credential →
      (event.before.database.holder credential).isSome = true

instance (pool : Pool accounts Request (Except AppError Reply)) (event : Event accounts) :
    Decidable (RetiresLive state pool event) := by
  unfold RetiresLive
  infer_instance

/-! ## A refresh retires before it issues -/

structure Rotation where
  presented : Option Credential
  retired : Bool

namespace Rotation

def allows (phase : Rotation) : Operation → Prop
  | .statement statement =>
      statement.issues = true → phase.presented.isSome = true → phase.retired = true
  | _ => True

def after (phase : Rotation) : (operation : Operation) → operation.Result → Rotation
  | .statement statement, .ok _ =>
      { phase with retired := phase.retired || statement.retires = phase.presented }
  | _, _ => phase

@[simp] theorem after_presented (phase : Rotation) (operation : Operation)
    (result : operation.Result) : (phase.after operation result).presented = phase.presented := by
  unfold after
  split <;> rfl

theorem after_retired {phase : Rotation} (retired : phase.retired = true)
    (operation : Operation) (result : operation.Result) :
    (phase.after operation result).retired = true := by
  unfold after
  split
  · simp [retired]
  · exact retired

end Rotation

@[reducible] def rotationProtocol (state : AppState) : Protocol accounts Request where
  Phase := Rotation
  initial request := ⟨request.rotates state, false⟩
  allows := Rotation.allows
  after := Rotation.after

theorem rotates_settled {Outcome : Type} (process : Process accounts Outcome) {phase : Rotation}
    (settled : phase.presented.isSome = true → phase.retired = true) :
    process.Meets (rotationProtocol state).logic (fun _ _ => True) phase := by
  induction process generalizing phase with
  | done outcome => trivial
  | call operation next induction =>
      refine ⟨?_, fun result => induction result fun present => ?_⟩
      · change phase.allows operation
        unfold Rotation.allows
        split
        · exact fun _ => settled
        · trivial
      · refine Rotation.after_retired (settled ?_) operation result
        rw [← Rotation.after_presented phase operation result]
        exact present

theorem handle_rotates_free {request : Request} (free : request.rotates state = none) :
    (handle state request).Meets (rotationProtocol state).logic (fun _ _ => True)
      ((rotationProtocol state).initial request) := by
  refine rotates_settled (handle state request) fun present => ?_
  change (request.rotates state).isSome = true at present
  rw [free] at present
  cases present

theorem rotation_ignores {phase : Rotation} {statement : Statement}
    (issues : statement.issues = false) (retires : statement.retires = none)
    (presents : phase.presented.isSome = true) :
    (rotationProtocol state).logic.Ignores phase (.statement statement) := by
  refine Protocol.ignores (fun issuing => ?_) fun result => ?_
  · rw [issues] at issuing
    cases issuing
  · cases result with
    | error error => rfl
    | ok reply =>
        have apart : none ≠ phase.presented := by
          intro absent
          rw [← absent] at presents
          cases presents
        simp [Rotation.after, retires, apart]

theorem retires_meets {phase : Rotation} {statement : Statement}
    (issues : statement.issues = false) (retires : statement.retires = phase.presented) :
    @Fallible.Meets accounts AppError statement.Reply (query statement)
      (rotationProtocol state).logic (fun _ following => following.retired = true)
      (fun _ _ => True) phase := by
  refine (meets_query _).mpr ⟨fun issuing => ?_, forall_except.mpr ⟨fun reply => ?_, fun _ => trivial⟩⟩
  · rw [issues] at issuing
    cases issuing
  · simp [Rotation.after, retires]

theorem retired_meets {Value : Type} (handler : Handler Value) {phase : Rotation}
    (retired : phase.retired = true) :
    handler.Meets (rotationProtocol state).logic (fun _ _ => True) (fun _ _ => True) phase :=
  meets_run.mp (rotates_settled handler.run fun _ => retired)

theorem refresh_rotates (parts : Parts) (draws : Draws) {token : String}
    (presented : sessionTokenFromHeaders parts.headers state.config.cookieName = some token) :
    (Account.refresh state parts draws).Meets (rotationProtocol state).logic (fun _ _ => True)
      (fun _ _ => True) ⟨some (.session (state.hashToken token)), false⟩ := by
  have reads (tokenHash : String) : (rotationProtocol state).logic.Ignores
      ⟨some (.session (state.hashToken token)), false⟩ (.statement (.userFromToken tokenHash)) :=
    rotation_ignores rfl rfl rfl
  refine (meets_bind _ _).mpr ((authUser_takes reads parts).ignored (fun user => ?_) fun _ => trivial)
  rw [Account.revokePresented, presented]
  refine (meets_bind _ _).mpr ((meets_bind _ _).mpr ?_)
  exact (retires_meets rfl rfl).mono (fun _ _ retired => retired_meets _ retired) fun _ _ _ => trivial

theorem yggdrasilRefresh_rotates (body : Yggdrasil.RefreshRequest) (draws : Draws) :
    (Yggdrasil.refresh state body draws).Meets (rotationProtocol state).logic (fun _ _ => True)
      (fun _ _ => True) ⟨some (.yggdrasil (state.hashToken body.accessToken)), false⟩ := by
  have tokens (accessTokenHash : String) : (rotationProtocol state).logic.Ignores
      ⟨some (.yggdrasil (state.hashToken body.accessToken)), false⟩
      (.statement (.selectToken accessTokenHash)) := rotation_ignores rfl rfl rfl
  have users (id : Uuid) : (rotationProtocol state).logic.Ignores
      ⟨some (.yggdrasil (state.hashToken body.accessToken)), false⟩
      (.statement (.selectUser id)) := rotation_ignores rfl rfl rfl
  refine (meets_bind _ _).mpr ((meets_bind _ _).mpr ?_)
  refine (eligibleUser_takes tokens users _ _).ignored (fun eligible => ?_) fun _ => trivial
  refine (meets_bind _ _).mpr ((retires_meets rfl rfl).mono (fun _ _ retired => ?_) fun _ _ _ => trivial)
  exact (meets_bind _ _).mp (retired_meets _ retired)

theorem handle_rotates (state : AppState) (request : Request) :
    (handle state request).Meets (rotationProtocol state).logic (fun _ _ => True)
      ((rotationProtocol state).initial request) := by
  cases request with
  | refresh parts draws =>
      cases presented : sessionTokenFromHeaders parts.headers state.config.cookieName with
      | none =>
          apply handle_rotates_free
          simp [Request.rotates, presented]
      | some token =>
          have rotates : Request.rotates state (.refresh parts draws) =
              some (.session (state.hashToken token)) := by
            simp [Request.rotates, presented]
          refine meets_run.mpr ((meets_map _ _).mpr ?_)
          change (Account.refresh state parts draws).Meets (rotationProtocol state).logic
            (fun _ _ => True) (fun _ _ => True)
            ⟨Request.rotates state (.refresh parts draws), false⟩
          rw [rotates]
          exact refresh_rotates parts draws presented
  | yggdrasilRefresh body draws =>
      exact meets_run.mpr ((meets_map _ _).mpr (yggdrasilRefresh_rotates body draws))
  | _ => exact handle_rotates_free (by rfl)

/-! ## What is retired stays retired -/

/-- A live credential that was retired stands for nobody from then on. -/
theorem retired_for_good {start final : Service} {history : List (Event accounts)}
    (traced : @Traced accounts start history final) {event : Event accounts}
    {credential : Credential} (member : event ∈ history)
    (retired : retiredBy event = some credential)
    (live : (event.before.database.holder credential).isSome = true) :
    final.database.holder credential = none := by
  obtain ⟨older, suffix⟩ := suffix_of_mem member
  have happened := (traced.of_suffix suffix).2
  obtain ⟨userId, held⟩ := Option.isSome_iff_exists.mp live
  have issued := (occurs_ages happened).issued (Database.issued_of_holder held)
  have nobody : event.after.database.holder credential = none := by
    rcases event with ⟨process, before, operation, result, after⟩
    have occurs : accounts.Occurs before operation result after := happened
    simp only [retiredBy] at retired
    split at retired
    · rename_i statement reply
      obtain ⟨database, executed, rfl⟩ := occurs_ok occurs
      exact Statement.holder_of_retires retired executed
    · cases retired
  rw [Option.eq_none_iff_forall_ne_some]
  intro other still
  have revived := (ages_since traced suffix).holder issued still
  rw [nobody] at revived
  cases revived

section Run

variable {database : Database} {clock : Timestamp} {moves : List (Move Request)}
  {final : Pool accounts Request (Except AppError Reply)}

/-- A refresh that issued a credential has retired the one it was given. -/
theorem retired_before_issued
    (reached : run (Pool.move (handle state)) (.initial (.boot database clock)) moves =
      some final) {event : Event accounts} (member : event ∈ final.history)
    (issues : issued event = true) {request : Request} {credential : Credential}
    (owned : final.owner event.process = some request)
    (rotates : request.rotates state = some credential) :
    ∃ earlier ∈ final.history, earlier.process = event.process ∧
      retiredBy earlier = some credential := by
  obtain ⟨older, suffix⟩ := suffix_of_mem member
  obtain ⟨owner, same, allowed⟩ := Pool.allowed_in_phase (handle_rotates state) reached suffix
  cases owned.symm.trans same
  have presented : ∀ index history,
      ((rotationProtocol state).phase request index history).presented = some credential := by
    intro index history
    refine @Protocol.phase_induction accounts Request (rotationProtocol state)
      (fun phase => phase.presented = some credential) request ?_ ?_ index history
    · exact rotates
    · intro phase operation result holds
      exact (Rotation.after_presented phase operation result).trans holds
  have retired : ((rotationProtocol state).phase request event.process older).retired = true := by
    rcases event with ⟨process, before, operation, result, after⟩
    simp only [issued] at issues
    split at issues
    · exact allowed issues (by rw [presented]; rfl)
    · cases issues
  obtain ⟨earlier, before, within, own, unretired, milestone⟩ :=
    @Protocol.phase_milestone accounts Request (rotationProtocol state)
      (fun phase => phase.retired = true) _ _ _ (by simp) retired
  have later : earlier ∈ final.history :=
    suffix.subset (List.mem_cons_of_mem _ (within.subset (by simp)))
  refine ⟨earlier, later, own, ?_⟩
  rcases earlier with ⟨process, found, operation, result, left⟩
  simp only [Rotation.after] at milestone
  split at milestone
  · simp only [Bool.or_eq_true, decide_eq_true_eq] at milestone
    rcases milestone with already | retires
    · exact (unretired already).elim
    · rw [presented] at retires
      exact retires
  · exact (unretired milestone).elim

/-- While refreshes retire credentials that still stand, a credential has one
successor. -/
theorem one_successor (state : AppState) (database : Database) (clock : Timestamp)
    {moves : List (Move Request)} {final : Pool accounts Request (Except AppError Reply)}
    (reached : run (Pool.move (handle state)) (.initial (.boot database clock)) moves =
      some final) (live : ∀ event ∈ final.history, RetiresLive state final event) :
    OneSuccessor state final := by
  intro left leftMem right rightMem leftIssues rightIssues leftRequest rightRequest credential
    leftOwned rightOwned leftRotates rightRotates
  obtain ⟨first, firstMem, firstOwn, firstRetires⟩ :=
    retired_before_issued reached leftMem leftIssues leftOwned leftRotates
  obtain ⟨second, secondMem, secondOwn, secondRetires⟩ :=
    retired_before_issued reached rightMem rightIssues rightOwned rightRotates
  have firstLive := live first firstMem leftRequest (firstOwn ▸ leftOwned) credential
    leftRotates firstRetires
  have secondLive := live second secondMem rightRequest (secondOwn ▸ rightOwned) credential
    rightRotates secondRetires
  have traced := Pool.traced_of_run reached
  rcases mem_or_earlier firstMem secondMem with rfl | ⟨older, suffix, earlier⟩ |
    ⟨older, suffix, earlier⟩
  · exact firstOwn.symm.trans secondOwn
  · have dead := retired_for_good (traced.of_suffix suffix).1 earlier firstRetires firstLive
    rw [dead] at secondLive
    cases secondLive
  · have dead := retired_for_good (traced.of_suffix suffix).1 earlier secondRetires secondLive
    rw [dead] at firstLive
    cases firstLive

end Run

/-! ## Two refreshes of one pair -/

def plainState : AppState where
  config := {
    sessionTtl := 100, adminSessionTtl := 100, cookieName := "loontail_admin"
    yggdrasilTokenTtl := 100, maxTokensPerUser := 10 }
  hashToken := id
  hashPassword := fun _ plain => some plain
  verifyPassword := fun plain hash => plain = hash
  toLowercase := Text.toAsciiLowercase

def steve : User where
  id := 5
  minecraftUuid := none
  username := "Steve"
  normalizedUsername := "steve"
  email := none
  passwordHash := some "old"
  profileUuid := some "00000000000000000000000000000005"
  confirmed := true
  blocked := false
  isAdmin := false

def steveDatabase : Database :=
  { Database.empty Text.toAsciiLowercase with
    users := {
      rows := [steve]
      issued := [5]
      keysUnique := by decide
      slotsUnique := by decide
      keysIssued := by decide }
    sessions := {
      rows := [⟨"session", 5, 100000000, none⟩]
      issued := ["session"]
      keysUnique := by decide
      slotsUnique := by decide
      keysIssued := by decide }
    yggdrasilTokens := {
      rows := [⟨5, "access", "client", 0, 100000000⟩]
      issued := ["access"]
      keysUnique := by decide
      slotsUnique := by decide
      keysIssued := by decide } }

def drawn (tag : String) : Draws where
  userId := 100
  salt := tag ++ "-salt"
  profileUuid := tag ++ "-profile"
  sessionToken := tag ++ "-session"
  accessToken := tag ++ "-access"
  clientToken := tag ++ "-client"
  csrfToken := tag ++ "-csrf"
  choice := 0

def refreshAs (tag : String) : Request :=
  .yggdrasilRefresh ⟨"access", some "client", false, none⟩ (drawn tag)

/-- The second refresh comes when the first has finished, and is refused. -/
def refreshedTwice : List (Move Request) :=
  .start (refreshAs "first") :: List.replicate 6 (.advance 0) ++
    [.start (refreshAs "second"), .advance 1]

theorem one_successor_refreshed :
    ∃ final, run (Pool.move (handle plainState)) (.initial (.boot steveDatabase 0))
        refreshedTwice = some final ∧
      (∃ event ∈ final.history, issued event = true) ∧ OneSuccessor plainState final := by
  have refreshed : ((run (Pool.move (handle plainState)) (.initial (.boot steveDatabase 0))
      refreshedTwice).map fun final => decide (
        (∃ event ∈ final.history, issued event = true) ∧
        ∀ event ∈ final.history, RetiresLive plainState final event)) = some true := by
    decide +kernel
  rcases Option.map_eq_some_iff.mp refreshed with ⟨final, reached, holds⟩
  rcases of_decide_eq_true holds with ⟨issues, live⟩
  exact ⟨final, reached, issues, one_successor plainState steveDatabase 0 reached live⟩

/-- Both refreshes have validated the pair before either deletes it. -/
def refreshedAtOnce : List (Move Request) :=
  [.start (refreshAs "first"), .start (refreshAs "second")] ++
    List.replicate 2 (.advance 0) ++ List.replicate 6 (.advance 1) ++
    List.replicate 4 (.advance 0)

/-- One pair can have two successors. -/
theorem two_successors :
    ¬∀ (state : AppState) (database : Database) (clock : Timestamp)
      (moves : List (Move Request)) (final : Pool accounts Request (Except AppError Reply)),
      run (Pool.move (handle state)) (.initial (.boot database clock)) moves = some final →
        OneSuccessor state final := by
  intro one
  have both : ((run (Pool.move (handle plainState)) (.initial (.boot steveDatabase 0))
      refreshedAtOnce).map fun final => decide (
        ((final.owner 0).bind (·.rotates plainState) = some (.yggdrasil "access") ∧
          (final.owner 1).bind (·.rotates plainState) = some (.yggdrasil "access")) ∧
        (∃ left ∈ final.history, left.process = 0 ∧ issued left = true) ∧
        ∃ right ∈ final.history, right.process = 1 ∧ issued right = true)) = some true := by
    decide +kernel
  rcases Option.map_eq_some_iff.mp both with ⟨final, reached, holds⟩
  rcases of_decide_eq_true holds with ⟨⟨presents, again⟩, ⟨left, leftMem, leftOwn, leftIssues⟩,
    right, rightMem, rightOwn, rightIssues⟩
  rcases Option.bind_eq_some_iff.mp presents with ⟨first, firstOwned, firstRotates⟩
  rcases Option.bind_eq_some_iff.mp again with ⟨second, secondOwned, secondRotates⟩
  have same := one plainState steveDatabase 0 refreshedAtOnce final reached left leftMem right
    rightMem leftIssues rightIssues first second (.yggdrasil "access")
    (by rw [leftOwn]; exact firstOwned) (by rw [rightOwn]; exact secondOwned)
    firstRotates secondRotates
  omega

end Loontail.Accounts
