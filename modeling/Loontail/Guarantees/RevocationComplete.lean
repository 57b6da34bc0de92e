import Loontail.Accounts.Issuance
import Loontail.Guarantees.BlockedAccounts

/-! # Revocation of all that a user holds

A reset of the password and a revocation of tokens end a user's sessions in one
statement and the Yggdrasil tokens in another. A login or a refresh that was checked
before may issue its credential after them. -/

namespace Loontail.Accounts

open Concurrency Relational Fallible

def Request.revokesAllOf : Request → Option Uuid
  | .resetPassword _ id _ _ => some id
  | .revokeTokens _ id => some id
  | _ => none

def Request.resets : Request → Bool
  | .resetPassword .. => true
  | _ => false

def Request.byPassword : Request → Bool
  | .login .. => true
  | .register .. => true
  | .authenticate .. => true
  | .adminLogin .. => true
  | _ => false

def sweptBy (credential : Credential) (event : Event accounts) : Option Uuid :=
  match event.operation, event.result with
  | .statement statement, .ok _ => statement.sweeps credential
  | _, _ => none

def resetBy (event : Event accounts) : Option Uuid :=
  match event.operation, event.result with
  | .statement (.setPassword id _), .ok _ => some id
  | _, _ => none

def IssuedBefore (history : List (Event accounts)) (process : Nat) (credential : Credential) :
    Prop :=
  ∀ event ∈ history, event.process = process → event.before.database.issued credential

def FoundBefore (history : List (Event accounts)) (process revoker : Nat) (userId : Uuid)
    (mark : Event accounts → Option Uuid) : Prop :=
  (∃ event ∈ history, event.process = revoker ∧ mark event = some userId) ∧ Throughout (fun event older => event.process = revoker → mark event = some userId →
    ∃ earlier ∈ older, earlier.process = process ∧ foundBy earlier = some userId) history

/-- The request issues by refreshing a credential older than the revocation, or for a
password that it checked before the revocation replaced it. -/
def FromBefore (state : AppState) (history : List (Event accounts)) (revoker : Nat)
    (revoking : Request) (process : Nat) (issuing : Request) (userId : Uuid) : Prop :=
  (∃ credential ∈ issuing.rotates state, IssuedBefore history revoker credential) ∨
    issuing.byPassword = true ∧ revoking.resets = true ∧
      FoundBefore history process revoker userId resetBy

variable {state : AppState}

/-- Once a revocation has returned, nothing that comes from before it is live. -/
def RevocationComplete (state : AppState)
    (pool : Pool accounts Request (Except AppError Reply)) : Prop :=
  ∀ revoker revoking reply userId,
    pool.entries[revoker]? = some (revoking, .done (.ok reply)) →
    revoking.revokesAllOf = some userId →
    ∀ event ∈ pool.history, ∀ credential issuing,
      issuedBy event = some (userId, credential) →
      pool.owner event.process = some issuing →
      FromBefore state pool.history revoker revoking event.process issuing userId →
        pool.shared.database.live pool.shared.clock credential ≠ some userId

/-- The event issues a credential of a kind that a revocation has swept already, while
the process found the user before: before that sweep of the credential it refreshes, or
before the reset of the password. -/
def Overtaken (state : AppState) (pool : Pool accounts Request (Except AppError Reply))
    (event : Event accounts) (older : List (Event accounts)) : Prop :=
  ∃ issuance ∈ issuedBy event, ∃ issuing ∈ pool.owner event.process,
    ∃ sweep ∈ older, sweptBy issuance.2 sweep = some issuance.1 ∧
      ∃ revoking ∈ pool.owner sweep.process, revoking.revokesAllOf = some issuance.1 ∧
        ((∃ credential ∈ issuing.rotates state,
            IssuedBefore older sweep.process credential ∧
            FoundBefore older event.process sweep.process issuance.1 (sweptBy credential)) ∨
          issuing.byPassword = true ∧ revoking.resets = true ∧
            FoundBefore older event.process sweep.process issuance.1 resetBy)

instance (history : List (Event accounts)) (process : Nat) (credential : Credential) :
    Decidable (IssuedBefore history process credential) := by
  unfold IssuedBefore
  infer_instance

instance (history : List (Event accounts)) (process revoker : Nat) (userId : Uuid)
    (mark : Event accounts → Option Uuid) :
    Decidable (FoundBefore history process revoker userId mark) := by
  unfold FoundBefore
  infer_instance

instance (history : List (Event accounts)) (revoker : Nat) (revoking : Request) (process : Nat)
    (issuing : Request) (userId : Uuid) :
    Decidable (FromBefore state history revoker revoking process issuing userId) := by
  unfold FromBefore
  infer_instance

instance (pool : Pool accounts Request (Except AppError Reply)) (event : Event accounts)
    (older : List (Event accounts)) : Decidable (Overtaken state pool event older) := by
  unfold Overtaken
  infer_instance

/-! ## A revocation sweeps in order -/

structure Sweeping where
  target : Option Uuid
  resets : Bool
  set : Bool
  sessions : Bool
  tokens : Bool

namespace Sweeping

def allows (phase : Sweeping) : Operation → Prop
  | .statement (.revokeAllSessions id) =>
      phase.target = some id → phase.resets = true → phase.set = true
  | .statement (.deleteAllTokens id) => phase.target = some id → phase.sessions = true
  | _ => True

def after (phase : Sweeping) : (operation : Operation) → operation.Result → Sweeping
  | .statement (.setPassword id _), .ok _ =>
      { phase with set := phase.set || phase.target = some id }
  | .statement (.revokeAllSessions id), .ok _ =>
      { phase with sessions := phase.sessions || phase.target = some id }
  | .statement (.deleteAllTokens id), .ok _ =>
      { phase with tokens := phase.tokens || phase.target = some id }
  | _, _ => phase

def Finished : Except AppError Reply → Sweeping → Prop
  | .ok _, phase => phase.target.isSome = true → phase.sessions = true ∧ phase.tokens = true
  | .error _, _ => True

@[simp] theorem after_target (phase : Sweeping) (operation : Operation)
    (result : operation.Result) : (phase.after operation result).target = phase.target := by
  unfold after
  split <;> rfl

@[simp] theorem after_resets (phase : Sweeping) (operation : Operation)
    (result : operation.Result) : (phase.after operation result).resets = phase.resets := by
  unfold after
  split <;> rfl

end Sweeping

@[reducible] def sweepProtocol : Protocol accounts Request where
  Phase := Sweeping
  initial request := ⟨request.revokesAllOf, request.resets, false, false, false⟩
  allows := Sweeping.allows
  after := Sweeping.after

theorem sweep_free (process : Process accounts (Except AppError Reply)) {phase : Sweeping}
    (free : phase.target = none) : process.Meets sweepProtocol.logic Sweeping.Finished phase := by
  induction process generalizing phase with
  | done outcome =>
      cases outcome with
      | error _ => trivial
      | ok _ =>
          intro present
          simp [free] at present
  | call operation next induction =>
      refine ⟨?_, fun result => induction result ?_⟩
      · change phase.allows operation
        unfold Sweeping.allows
        split
        · intro same
          simp [free] at same
        · intro same
          simp [free] at same
        · trivial
      · exact (Sweeping.after_target phase operation result).trans free

theorem handle_sweeps (state : AppState) (request : Request) :
    (handle state request).Meets sweepProtocol.logic Sweeping.Finished
      (sweepProtocol.initial request) := by
  cases request with
  | resetPassword parts id password draws =>
      refine meets_outcome.mpr ?_
      simp [Request.handler, Admin.resetPassword, Credentials.adminUser, Credentials.authUser,
        Credentials.userFromToken, Identity.setPassword, Admin.revokeCredentials, forall_except,
        Sweeping.allows, Sweeping.after, Sweeping.Finished, Request.revokesAllOf, Request.resets]
  | revokeTokens parts id =>
      refine meets_outcome.mpr ?_
      simp [Request.handler, Admin.revokeTokens, Credentials.adminUser, Credentials.authUser,
        Credentials.userFromToken, Identity.loadUser, Admin.revokeCredentials, forall_except,
        Sweeping.allows, Sweeping.after, Sweeping.Finished, Request.revokesAllOf, Request.resets]
  | _ => exact sweep_free _ rfl

/-! ## What the phases of a revocation stand for -/

theorem sweptBy_cases {credential : Credential} {event : Event accounts} {userId : Uuid}
    (swept : sweptBy credential event = some userId) :
    (∃ tokenHash process before reply after, credential = .session tokenHash ∧
      event = ⟨process, before, .statement (.revokeAllSessions userId), .ok reply, after⟩) ∨
    ∃ accessTokenHash process before reply after, credential = .yggdrasil accessTokenHash ∧
      event = ⟨process, before, .statement (.deleteAllTokens userId), .ok reply, after⟩ := by
  rcases event with ⟨process, before, operation, result, after⟩
  simp only [sweptBy, Statement.sweeps] at swept
  split at swept
  · split at swept
    · cases swept
      exact .inl ⟨_, _, _, _, _, rfl, rfl⟩
    · cases swept
      exact .inr ⟨_, _, _, _, _, rfl, rfl⟩
    · cases swept
  · cases swept

theorem Sweeping.after_cases (phase : Sweeping) (event : Event accounts) :
    phase.after event.operation event.result = phase ∨
    ∃ id, (resetBy event = some id ∧ phase.after event.operation event.result =
        { phase with set := phase.set || phase.target = some id }) ∨
      ((∀ tokenHash, sweptBy (.session tokenHash) event = some id) ∧
        phase.after event.operation event.result =
          { phase with sessions := phase.sessions || phase.target = some id }) ∨
      ((∀ accessTokenHash, sweptBy (.yggdrasil accessTokenHash) event = some id) ∧
        phase.after event.operation event.result =
          { phase with tokens := phase.tokens || phase.target = some id }) := by
  rcases event with ⟨process, before, operation, result, left⟩
  simp only [Sweeping.after]
  split
  · exact .inr ⟨_, .inl ⟨rfl, rfl⟩⟩
  · exact .inr ⟨_, .inr (.inl ⟨fun _ => rfl, rfl⟩)⟩
  · exact .inr ⟨_, .inr (.inr ⟨fun _ => rfl, rfl⟩)⟩
  · exact .inl rfl

section Phase

variable {request : Request} {userId : Uuid} {index : Nat} {history : List (Event accounts)}

theorem sweep_target (targets : request.revokesAllOf = some userId) (index : Nat)
    (history : List (Event accounts)) :
    (sweepProtocol.phase request index history).target = some userId := by
  refine @Protocol.phase_induction accounts Request sweepProtocol
    (fun phase => phase.target = some userId) request targets ?_ index history
  intro phase operation result holds
  exact (Sweeping.after_target phase operation result).trans holds

theorem sweep_resets (request : Request) (index : Nat) (history : List (Event accounts)) :
    (sweepProtocol.phase request index history).resets = request.resets := by
  refine @Protocol.phase_induction accounts Request sweepProtocol
    (fun phase => phase.resets = request.resets) request rfl ?_ index history
  intro phase operation result holds
  exact (Sweeping.after_resets phase operation result).trans holds

theorem marked_of_phase {holds : Sweeping → Prop} {mark : Event accounts → Option Uuid}
    (targets : request.revokesAllOf = some userId)
    (fresh : ¬holds (sweepProtocol.initial request))
    (marks : ∀ (phase : Sweeping) (event : Event accounts), ¬holds phase →
      holds (phase.after event.operation event.result) → mark event = phase.target)
    (reached : holds (sweepProtocol.phase request index history)) :
    ∃ event ∈ history, event.process = index ∧ mark event = some userId := by
  obtain ⟨event, older, within, own, before, milestone⟩ :=
    @Protocol.phase_milestone accounts Request sweepProtocol holds _ _ _ fresh reached
  exact ⟨event, within.subset (by simp), own,
    (marks _ event before milestone).trans (sweep_target targets index older)⟩

theorem sessions_swept (targets : request.revokesAllOf = some userId)
    (swept : (sweepProtocol.phase request index history).sessions = true) (tokenHash : String) :
    ∃ event ∈ history, event.process = index ∧
      sweptBy (.session tokenHash) event = some userId := by
  refine @marked_of_phase _ _ _ _ (fun phase => phase.sessions = true) _ targets nofun ?_ swept
  intro phase event before milestone
  rcases phase.after_cases event with same | ⟨id, ⟨-, same⟩ | ⟨marks, same⟩ | ⟨-, same⟩⟩ <;>
    rw [same] at milestone
  · exact (before milestone).elim
  · exact (before milestone).elim
  · simp only [Bool.or_eq_true, decide_eq_true_eq] at milestone
    exact (marks tokenHash).trans (milestone.resolve_left before).symm
  · exact (before milestone).elim

theorem tokens_swept (targets : request.revokesAllOf = some userId)
    (swept : (sweepProtocol.phase request index history).tokens = true)
    (accessTokenHash : String) :
    ∃ event ∈ history, event.process = index ∧
      sweptBy (.yggdrasil accessTokenHash) event = some userId := by
  refine @marked_of_phase _ _ _ _ (fun phase => phase.tokens = true) _ targets nofun ?_ swept
  intro phase event before milestone
  rcases phase.after_cases event with same | ⟨id, ⟨-, same⟩ | ⟨-, same⟩ | ⟨marks, same⟩⟩ <;>
    rw [same] at milestone
  · exact (before milestone).elim
  · exact (before milestone).elim
  · exact (before milestone).elim
  · simp only [Bool.or_eq_true, decide_eq_true_eq] at milestone
    exact (marks accessTokenHash).trans (milestone.resolve_left before).symm

theorem password_set (targets : request.revokesAllOf = some userId)
    (set : (sweepProtocol.phase request index history).set = true) :
    ∃ event ∈ history, event.process = index ∧ resetBy event = some userId := by
  refine @marked_of_phase _ _ _ _ (fun phase => phase.set = true) _ targets nofun ?_ set
  intro phase event before milestone
  rcases phase.after_cases event with same | ⟨id, ⟨marks, same⟩ | ⟨-, same⟩ | ⟨-, same⟩⟩ <;>
    rw [same] at milestone
  · exact (before milestone).elim
  · simp only [Bool.or_eq_true, decide_eq_true_eq] at milestone
    exact marks.trans (milestone.resolve_left before).symm
  · exact (before milestone).elim
  · exact (before milestone).elim

end Phase

section Run

variable {database : Database} {clock : Timestamp} {moves : List (Move Request)}
  {final : Pool accounts Request (Except AppError Reply)}

theorem swept_of_returned
    (reached : run (Pool.move (handle state)) (.initial (.boot database clock)) moves =
      some final) {revoker : Nat} {revoking : Request} {reply : Reply} {userId : Uuid}
    (returned : final.entries[revoker]? = some (revoking, .done (.ok reply)))
    (targets : revoking.revokesAllOf = some userId) (credential : Credential) :
    ∃ event ∈ final.history, event.process = revoker ∧
      sweptBy credential event = some userId := by
  have obeys := Pool.obeys_of_run (handle_sweeps state) reached
  have finished : Sweeping.Finished (.ok reply)
      (sweepProtocol.phase revoking revoker final.history) := obeys.2 revoker revoking _ returned
  obtain ⟨sessions, tokens⟩ := finished (by rw [sweep_target targets]; rfl)
  cases credential with
  | session tokenHash => exact sessions_swept targets sessions tokenHash
  | yggdrasil accessTokenHash => exact tokens_swept targets tokens accessTokenHash

theorem password_before_sessions
    (reached : run (Pool.move (handle state)) (.initial (.boot database clock)) moves =
      some final) {sweep : Event accounts} {older : List (Event accounts)} {revoking : Request}
    {userId : Uuid} (suffix : sweep :: older <:+ final.history)
    (owned : final.owner sweep.process = some revoking)
    (targets : revoking.revokesAllOf = some userId) {tokenHash : String}
    (swept : sweptBy (.session tokenHash) sweep = some userId) (resets : revoking.resets = true) :
    ∃ earlier ∈ older, earlier.process = sweep.process ∧ resetBy earlier = some userId := by
  obtain ⟨owner, same, allowed⟩ := Pool.allowed_in_phase (handle_sweeps state) reached suffix
  cases owned.symm.trans same
  apply password_set targets
  rcases sweptBy_cases swept with ⟨_, _, _, _, _, -, rfl⟩ | ⟨_, _, _, _, _, mismatch, -⟩
  · exact allowed (sweep_target targets _ _) ((sweep_resets revoking _ _).trans resets)
  · cases mismatch

theorem sessions_before_tokens
    (reached : run (Pool.move (handle state)) (.initial (.boot database clock)) moves =
      some final) {sweep : Event accounts} {older : List (Event accounts)} {revoking : Request}
    {userId : Uuid} (suffix : sweep :: older <:+ final.history)
    (owned : final.owner sweep.process = some revoking)
    (targets : revoking.revokesAllOf = some userId) {accessTokenHash : String}
    (swept : sweptBy (.yggdrasil accessTokenHash) sweep = some userId) (tokenHash : String) :
    ∃ earlier ∈ older, earlier.process = sweep.process ∧
      sweptBy (.session tokenHash) earlier = some userId := by
  obtain ⟨owner, same, allowed⟩ := Pool.allowed_in_phase (handle_sweeps state) reached suffix
  cases owned.symm.trans same
  refine sessions_swept targets ?_ tokenHash
  rcases sweptBy_cases swept with ⟨_, _, _, _, _, mismatch, -⟩ | ⟨_, _, _, _, _, -, rfl⟩
  · cases mismatch
  · exact allowed (sweep_target targets _ _)

theorem password_before_sweep
    (reached : run (Pool.move (handle state)) (.initial (.boot database clock)) moves =
      some final) {sweep : Event accounts} {older : List (Event accounts)} {revoking : Request}
    {userId : Uuid} (suffix : sweep :: older <:+ final.history)
    (owned : final.owner sweep.process = some revoking)
    (targets : revoking.revokesAllOf = some userId) {credential : Credential}
    (swept : sweptBy credential sweep = some userId) (resets : revoking.resets = true) :
    ∃ earlier ∈ older, earlier.process = sweep.process ∧ resetBy earlier = some userId := by
  cases credential with
  | session tokenHash =>
      exact password_before_sessions reached suffix owned targets swept resets
  | yggdrasil accessTokenHash =>
      obtain ⟨sessions, member, own, sweeps⟩ :=
        sessions_before_tokens reached suffix owned targets swept ""
      obtain ⟨oldest, within⟩ := suffix_of_mem member
      obtain ⟨earlier, inOldest, mine, resetting⟩ := password_before_sessions reached
        (within.trans ((List.suffix_cons _ _).trans suffix)) (own ▸ owned) targets sweeps resets
      exact ⟨earlier, within.subset (List.mem_cons_of_mem _ inOldest), mine.trans own, resetting⟩

/-! ## Dead credentials stay dead -/

/-- A credential that was there when it was swept does not stand for the user again. -/
theorem swept_for_good {start final : Service} {history : List (Event accounts)}
    (traced : @Traced accounts start history final) {sweep : Event accounts}
    {older : List (Event accounts)} (suffix : sweep :: older <:+ history)
    {credential : Credential} {userId : Uuid} (swept : sweptBy credential sweep = some userId)
    (was : sweep.before.database.issued credential) :
    final.database.holder credential ≠ some userId := by
  intro held
  have happened := (traced.of_suffix suffix).2
  have stood := (ages_since traced suffix).holder ((occurs_ages happened).issued was) held
  rcases sweep with ⟨process, before, operation, result, after⟩
  have occurs : accounts.Occurs before operation result after := happened
  simp only [sweptBy] at swept
  split at swept
  · obtain ⟨database, executed, rfl⟩ := occurs_ok occurs
    exact Statement.holder_of_sweeps swept executed stood
  · cases swept

theorem found_before_issued
    (reached : run (Pool.move (handle state)) (.initial (.boot database clock)) moves =
      some final) {event : Event accounts} {older : List (Event accounts)}
    (suffix : event :: older <:+ final.history) {userId : Uuid} {issued presented : Credential}
    (issues : issuedBy event = some (userId, issued)) {issuing : Request}
    (owned : final.owner event.process = some issuing)
    (rotates : issuing.rotates state = some presented) :
    (issued.isSession = true → presented.isSession = true) ∧
    ∃ check oldest, check :: oldest <:+ older ∧ check.process = event.process ∧
      foundBy check = some userId ∧
      check.before.database.holder presented = some userId := by
  obtain ⟨owner, same, allowed⟩ := Pool.allowed_in_phase (handle_renews state) reached suffix
  cases owned.symm.trans same
  have presents : ∀ index history,
      ((renewalProtocol state).phase issuing index history).presented = some presented := by
    intro index history
    refine @Protocol.phase_induction accounts Request (renewalProtocol state)
      (fun phase => phase.presented = some presented) issuing rotates ?_ index history
    intro phase operation result holds
    exact (Renewal.after_presented phase operation result).trans holds
  have found : ((renewalProtocol state).phase issuing event.process older).user = some userId ∧
      (issued.isSession = true → presented.isSession = true) := by
    have present : ((renewalProtocol state).phase issuing event.process older).presented.isSome =
        true := by
      rw [presents]
      rfl
    rcases event with ⟨process, before, operation, result, after⟩
    simp only [issuedBy] at issues
    split at issues
    · cases issues
      obtain ⟨same, session⟩ := allowed present
      rw [presents] at session
      exact ⟨same, fun _ => session⟩
    · cases issues
      exact ⟨allowed present, by rintro ⟨⟩⟩
    · cases issues
  refine ⟨found.2, ?_⟩
  obtain ⟨check, oldest, within, own, unfound, milestone⟩ :=
    @Protocol.phase_milestone accounts Request (renewalProtocol state)
      (fun phase => phase.user = some userId) _ _ _ (by simp) found.1
  refine ⟨check, oldest, within, own, ?_⟩
  have traced := Pool.traced_of_run reached
  have happened := (traced.of_suffix
    (within.trans ((List.suffix_cons _ _).trans suffix))).2
  rcases check with ⟨process, before, operation, result, after⟩
  have occurs : accounts.Occurs before operation result after := happened
  simp only [Renewal.after, presents] at milestone
  split at milestone
  · split at milestone
    · rename_i same
      cases same
      cases milestone
      obtain ⟨database, executed, -⟩ := occurs_ok occurs
      exact ⟨rfl, holder_of_userFromToken (congrArg Prod.fst (Except.ok.inj executed))⟩
    · exact (unfound milestone).elim
  · split at milestone
    · rename_i same
      cases same
      cases milestone
      obtain ⟨database, executed, -⟩ := occurs_ok occurs
      exact ⟨rfl, holder_of_selectToken (congrArg Prod.fst (Except.ok.inj executed))⟩
    · exact (unfound milestone).elim
  · exact (unfound milestone).elim

theorem sweptBy_of_kind {left right : Credential} (same : left.isSession = right.isSession)
    (event : Event accounts) : sweptBy left event = sweptBy right event := by
  have together (statement : Statement) : statement.sweeps left = statement.sweeps right := by
    cases left with
    | session _ =>
        cases right with
        | session _ => cases statement <;> rfl
        | yggdrasil _ => cases same
    | yggdrasil _ =>
        cases right with
        | session _ => cases same
        | yggdrasil _ => cases statement <;> rfl
  rcases event with ⟨process, before, operation, result, after⟩
  simp only [sweptBy]
  split
  · exact together _
  · rfl

theorem Credential.of_kinds {issued presented : Credential}
    (differ : issued.isSession ≠ presented.isSession)
    (kinds : issued.isSession = true → presented.isSession = true) :
    ∃ accessTokenHash tokenHash, issued = .yggdrasil accessTokenHash ∧
      presented = .session tokenHash := by
  cases issued <;> cases presented <;> simp_all [Credential.isSession]

theorem issuedBy_of_sweptBy {event : Event accounts} {credential : Credential} {userId : Uuid}
    (swept : sweptBy credential event = some userId) : issuedBy event = none := by
  rcases sweptBy_cases swept with ⟨_, _, _, _, _, -, rfl⟩ | ⟨_, _, _, _, _, -, rfl⟩ <;> rfl

theorem foundBy_of_sweptBy {event : Event accounts} {credential : Credential} {userId : Uuid}
    (swept : sweptBy credential event = some userId) : foundBy event = none := by
  rcases sweptBy_cases swept with ⟨_, _, _, _, _, -, rfl⟩ | ⟨_, _, _, _, _, -, rfl⟩ <;> rfl

/-- A credential that is live after a revocation was issued after its sweep. -/
theorem issued_after_sweep {start : Service} {history : List (Event accounts)} {last : Service}
    (traced : @Traced accounts start history last) {event sweep : Event accounts}
    (member : event ∈ history) (sweepMem : sweep ∈ history) {userId : Uuid}
    {credential : Credential} (issues : issuedBy event = some (userId, credential))
    (swept : sweptBy credential sweep = some userId)
    (held : last.database.holder credential = some userId) :
    ∃ older, event :: older <:+ history ∧ sweep ∈ older := by
  rcases mem_or_earlier member sweepMem with rfl | ⟨older, suffix, earlier⟩ | found
  · cases issues.symm.trans (issuedBy_of_sweptBy swept)
  · obtain ⟨oldest, within⟩ := suffix_of_mem earlier
    have before := (traced.of_suffix suffix).1
    have stands := holder_of_issuedBy (before.of_suffix within).2 issues
    have was := (ages_since before within).issued (Database.issued_of_holder stands)
    exact (swept_for_good traced suffix swept was held).elim
  · exact found

/-- While no login and no refresh is overtaken, a revocation that has returned is
complete. -/
theorem revocation_complete (state : AppState) (database : Database) (clock : Timestamp)
    {moves : List (Move Request)} {final : Pool accounts Request (Except AppError Reply)}
    (reached : run (Pool.move (handle state)) (.initial (.boot database clock)) moves =
      some final)
    (undisturbed : Throughout (fun event older => ¬Overtaken state final event older)
      final.history) : RevocationComplete state final := by
  intro revoker revoking reply userId returned targets event member issued issuing issues owned
    dated live
  have traced := Pool.traced_of_run reached
  obtain ⟨sweep, sweepMem, sweepOwn, swept⟩ := swept_of_returned reached returned targets issued
  have revokes : final.owner sweep.process = some revoking := by
    rw [sweepOwn]
    exact Pool.owner_of_entry returned
  obtain ⟨older, suffix, earlier⟩ := issued_after_sweep traced member sweepMem issues swept
    (Database.holder_of_live live)
  have older_within : older <:+ final.history := (List.suffix_cons _ _).trans suffix
  refine throughout_iff.mp undisturbed event older suffix ⟨(userId, issued), issues, issuing,
    owned, sweep, earlier, swept, revoking, revokes, targets, ?_⟩
  rcases dated with ⟨presented, rotates, before⟩ | ⟨password, resets, -, found⟩
  · left
    obtain ⟨kinds, check, oldest, within, checkOwn, found, stood⟩ :=
      found_before_issued reached suffix issues owned rotates
    refine ⟨presented, rotates, fun other otherMem own =>
      before other (older_within.subset otherMem) (own.trans sweepOwn), ?_, ?_⟩
    · cases same : decide (issued.isSession = presented.isSession) with
      | true =>
          exact ⟨sweep, earlier, rfl, (sweptBy_of_kind (of_decide_eq_true same) sweep).symm.trans
            swept⟩
      | false =>
          obtain ⟨accessTokenHash, tokenHash, rfl, rfl⟩ :=
            Credential.of_kinds (of_decide_eq_false same) kinds
          obtain ⟨oldest, sweepAt⟩ := suffix_of_mem earlier
          obtain ⟨sessions, inOldest, own, sweeps⟩ := sessions_before_tokens reached
            (sweepAt.trans older_within) revokes targets swept tokenHash
          exact ⟨sessions, sweepAt.subset (List.mem_cons_of_mem _ inOldest), own, sweeps⟩
    · rw [throughout_iff]
      intro barrier oldestBarrier barrierAt barrierOwn barrierSweeps
      rcases same_or_earlier within barrierAt with rfl | earlier | later
      · cases found.symm.trans (foundBy_of_sweptBy barrierSweeps)
      · exact ⟨check, earlier.subset (by simp), checkOwn, found⟩
      · have was := before barrier ((barrierAt.trans older_within).subset (by simp))
          (barrierOwn.trans sweepOwn)
        have checked := (traced.of_suffix (within.trans older_within)).1
        exact (swept_for_good checked later barrierSweeps was stood).elim
  · right
    refine ⟨password, resets, ?_, ?_⟩
    · obtain ⟨oldest, sweepAt⟩ := suffix_of_mem earlier
      obtain ⟨reset, inOldest, own, resetting⟩ := password_before_sweep reached
        (sweepAt.trans older_within) revokes targets swept resets
      exact ⟨reset, sweepAt.subset (List.mem_cons_of_mem _ inOldest), own, resetting⟩
    · rw [throughout_iff] at found ⊢
      intro barrier oldest barrierAt barrierOwn barrierResets
      exact found barrier oldest (barrierAt.trans older_within) (barrierOwn.trans sweepOwn)
        barrierResets

end Run

/-! ## A reset during a login -/

def oldLogin : Request := .login ⟨"steve", "old"⟩ (drawn "old")

def reset : Request := .resetPassword (bearing "admin") 5 "new" (drawn "reset")

/-- The login has finished when the reset begins. -/
def resetAfterLogin : List (Move Request) :=
  .start oldLogin :: List.replicate 6 (.advance 0) ++ .start reset :: List.replicate 4 (.advance 1)

theorem revocation_complete_after_login :
    ∃ final, run (Pool.move (handle plainState)) (.initial (.boot adminDatabase 0))
        resetAfterLogin = some final ∧
      (∃ event ∈ final.history, issuedBy event = some (5, .session "old-session")) ∧
      servedAs final 1 = some 6 ∧ RevocationComplete plainState final := by
  have revoked : ((run (Pool.move (handle plainState)) (.initial (.boot adminDatabase 0))
      resetAfterLogin).map fun final => decide (
        ((∃ event ∈ final.history, issuedBy event = some (5, .session "old-session")) ∧
          servedAs final 1 = some 6) ∧
        Throughout (fun event older => ¬Overtaken plainState final event older)
          final.history)) = some true := by
    decide +kernel
  rcases Option.map_eq_some_iff.mp revoked with ⟨final, reached, holds⟩
  rcases of_decide_eq_true holds with ⟨⟨issues, served⟩, undisturbed⟩
  exact ⟨final, reached, issues, served,
    revocation_complete plainState adminDatabase 0 reached undisturbed⟩

/-- The login has checked the password when the reset begins, and issues when it has
returned. -/
def resetDuringLogin : List (Move Request) :=
  .start oldLogin :: .advance 0 :: .start reset :: List.replicate 4 (.advance 1) ++
    List.replicate 5 (.advance 0)

theorem returned_of_servedAs {pool : Pool accounts Request (Except AppError Reply)} {index : Nat}
    {user : Uuid} {request : Request} (served : servedAs pool index = some user)
    (owned : pool.owner index = some request) :
    ∃ reply, pool.entries[index]? = some (request, .done (.ok reply)) := by
  unfold servedAs at served
  split at served
  · rename_i asked reply found
    cases (Pool.owner_of_entry found).symm.trans owned
    exact ⟨reply, found⟩
  · cases served

/-- A session obtained with the old password can outlive the reset. -/
theorem old_password_outlives_reset :
    ¬∀ (state : AppState) (database : Database) (clock : Timestamp)
      (moves : List (Move Request)) (final : Pool accounts Request (Except AppError Reply)),
      run (Pool.move (handle state)) (.initial (.boot database clock)) moves = some final →
        RevocationComplete state final := by
  intro complete
  have outlived : ((run (Pool.move (handle plainState)) (.initial (.boot adminDatabase 0))
      resetDuringLogin).map fun final => decide (
        (servedAs final 1 = some 6 ∧
          final.shared.database.live final.shared.clock (.session "old-session") = some 5) ∧
        ∃ event ∈ final.history, issuedBy event = some (5, .session "old-session") ∧
          ∃ issuing ∈ final.owner event.process, ∃ revoking ∈ final.owner 1,
            revoking.revokesAllOf = some 5 ∧
            FromBefore plainState final.history 1 revoking event.process issuing 5)) =
      some true := by
    decide +kernel
  rcases Option.map_eq_some_iff.mp outlived with ⟨final, reached, holds⟩
  rcases of_decide_eq_true holds with ⟨⟨served, live⟩, event, member, issues, issuing, owned,
    revoking, revokes, targets, dated⟩
  obtain ⟨reply, returned⟩ := returned_of_servedAs served revokes
  exact complete plainState adminDatabase 0 resetDuringLogin final reached 1 revoking reply 5
    returned targets event member (.session "old-session") issuing issues owned dated live

end Loontail.Accounts
