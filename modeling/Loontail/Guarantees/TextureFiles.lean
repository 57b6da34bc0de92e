import Loontail.Textures.Ledger

/-! # The files of textures are those of the rows

An upload unlinks the file that the row named when it looked. Another upload that stores its row
between that look and the upload's own row leaves a file that no row names. -/

namespace Loontail.Textures

open Concurrency Disk Relational

abbrev TexturePool := Pool textureStore TextureRequest (Except AppError TextureReply)

/-! ## Names of files -/

def Revision.marks (revision : Revision) (path : List String) : Bool :=
  match path.getLast? with
  | some name => (revision.hex ++ ".png").toList.isSuffixOf name.toList
  | none => false

theorem Revision.marks_diskPath (revision : Revision) (storageRoot : List String)
    (kind : TextureKind) (profileUuid : String) :
    revision.marks (diskPath storageRoot kind profileUuid revision) = true := by
  have last : (diskPath storageRoot kind profileUuid revision).getLast? =
      some (fileName profileUuid revision) := by
    rw [diskPath, List.getLast?_append]
    rfl
  rw [marks, last]
  refine List.isSuffixOf_iff_suffix.mpr ⟨(profileUuid ++ "-").toList, ?_⟩
  rw [fileName, ← String.toList_append, ← String.append_assoc]

theorem Revision.eq_of_marks {left right : Revision} {path : List String}
    (first : left.marks path = true) (second : right.marks path = true) : left = right := by
  unfold marks at first second
  split at first
  · rename_i name last
    simp only [last] at second
    have lengths : (left.hex ++ ".png").toList.length = (right.hex ++ ".png").toList.length := by
      rw [String.toList_append, String.toList_append, List.length_append, List.length_append,
        left.digits, right.digits]
    have same := (List.suffix_of_suffix_length_le (List.isSuffixOf_iff_suffix.mp first)
      (List.isSuffixOf_iff_suffix.mp second) lengths.le).eq_of_length lengths
    rw [String.toList_append, String.toList_append] at same
    have hex : left.hex = right.hex := String.toList_inj.mp (List.append_cancel_right same)
    cases left
    cases right
    simpa using hex
  · cases first

/-! ## The runs in question -/

def TextureRequest.revision : TextureRequest → Option Revision
  | upload _ _ _ revision _ => some revision
  | _ => none

def TextureRequest.ofUser : TextureRequest → Bool
  | upload .. => true
  | delete .. => true
  | adminDelete .. => true
  | _ => false

/-- No upload before has drawn the revision, and no row has a file named after it. -/
def freshRevision (start : TextureService) (pool : TexturePool) : Move TextureRequest → Bool
  | .start request =>
      match request.revision with
      | some revision =>
          pool.entries.all (fun entry => entry.1.revision ≠ some revision) &&
            start.registry.rows.all fun row => !revision.marks row.filePath
      | none => true
  | _ => true

def undisturbed : Move TextureRequest → Bool
  | .start request => request.ofUser
  | .advance _ => true
  | .fail _ => false

def lookedUp (index : Nat) (event : Event textureStore) : Option (Option (List String)) :=
  if event.process = index then
    match event with
    | ⟨_, _, .statement (.filePath ..), .ok old, _⟩ => some old
    | _ => none
  else none

def lastLookedUp (index : Nat) (history : List (Event textureStore)) :
    Option (Option (List String)) := history.findSome? (lookedUp index)

/-- An upload stores its row where there is none, or where there is the row that it has seen. -/
def inOrder (pool : TexturePool) : Move TextureRequest → Bool
  | .advance index =>
      match pool.upcoming index with
      | some (.statement (.upsert row)) =>
          match pool.shared.stored row.key with
          | some path => lastLookedUp index pool.history = some (some path)
          | none => true
      | _ => true
  | _ => true

/-- Each row has a file of its own. -/
structure Consistent (service : TextureService) : Prop where
  files : ∀ row ∈ service.registry.rows, service.disk.isFile row.filePath = true
  distinct : (service.registry.rows.map (·.filePath)).Nodup

/-! ## The custody of a pool -/

def creates (event : Event textureStore) : Option (List String) :=
  event.operation.creates event.result

def Used (start : TextureService) (history : List (Event textureStore)) (path : List String) :
    Prop :=
  (∃ row ∈ start.registry.rows, row.filePath = path) ∨
    ∃ event ∈ history, creates event = some path

section Custody

variable (storageRoot : List String) (start : TextureService) (pool : TexturePool)

def dutyOf (index : Nat) : Duty TextureKey (List String) :=
  ((pool.phaseOf (textureProtocol storageRoot) index).map TexturePhase.duty).getD .free

def custodyOf : TextureCustody :=
  pool.shared.custody (Used start pool.history) (dutyOf storageRoot pool)

def Drawn (path : List String) : Prop :=
  ∃ index request revision, pool.owner index = some request ∧
    request.revision = some revision ∧ revision.marks path = true

/-- The files are in good hands. With careful steps no file is forgotten. -/
structure Tended (careful : Prop) : Prop where
  sound : (custodyOf storageRoot start pool).Sound
  kept : careful → (custodyOf storageRoot start pool).Kept
  named : ∀ path, Used start pool.history path →
    (∃ row ∈ start.registry.rows, row.filePath = path) ∨ Drawn pool path
  fresh : ∀ index key path,
    pool.phaseOf (textureProtocol storageRoot) index = some (.fresh (some (key, path))) →
      Drawn pool path ∧ ¬Used start pool.history path
  alone : ∀ left right key other path,
    pool.phaseOf (textureProtocol storageRoot) left = some (.fresh (some (key, path))) →
    pool.phaseOf (textureProtocol storageRoot) right = some (.fresh (some (other, path))) →
      left = right
  ofUser : careful → ∀ index phase,
    pool.phaseOf (textureProtocol storageRoot) index = some phase → ¬Surveys phase
  seen : ∀ index key path old,
    pool.phaseOf (textureProtocol storageRoot) index = some (.under (.informed key path old)) →
      lastLookedUp index pool.history = some old

end Custody

section Steps

variable {storageRoot : List String} {start : TextureService} {careful : Prop}

theorem tended_initial (consistent : Consistent start) :
    Tended storageRoot start (.initial start) careful := by
  have free : ∀ index, dutyOf storageRoot (.initial start) index = .free := fun _ => rfl
  have stored : ∀ key path, start.stored key = some path →
      ∃ row ∈ start.registry.rows, row.key = key ∧ row.filePath = path := by
    intro key path found
    obtain ⟨row, here, rfl⟩ := Option.map_eq_some_iff.mp found
    obtain ⟨member, same⟩ := Keyed.find_eq_some.mp here
    exact ⟨row, member, same, rfl⟩
  refine ⟨⟨fun key path found => ?_, fun left right path first second => ?_, nofun, nofun, nofun,
    nofun⟩, fun _ path used present => ?_, fun path used => .inl ?_, nofun, nofun, fun _ => nofun,
    nofun⟩
  · obtain ⟨row, member, -, rfl⟩ := stored key path found
    exact ⟨.inl ⟨row, member, rfl⟩, consistent.files row member⟩
  · obtain ⟨one, oneMember, rfl, onePath⟩ := stored left path first
    obtain ⟨other, otherMember, rfl, otherPath⟩ := stored right path second
    rw [List.inj_on_of_nodup_map consistent.distinct oneMember otherMember
      (onePath.trans otherPath.symm)]
  · rcases used with ⟨row, member, rfl⟩ | ⟨event, none, -⟩
    · refine .inl ⟨row.key, ?_⟩
      change (start.registry.find row.key).map _ = _
      rw [Keyed.find_eq_some.mpr ⟨member, rfl⟩]
      rfl
    · exact (List.not_mem_nil none).elim
  · rcases used with row | ⟨event, none, -⟩
    · exact row
    · exact (List.not_mem_nil none).elim

theorem Drawn.move {pool next : TexturePool} {choice : Move TextureRequest}
    (moved : pool.move (handleTexture storageRoot) choice = some next) {path : List String}
    (drawn : Drawn pool path) : Drawn next path := by
  obtain ⟨index, request, revision, owned, made, marks⟩ := drawn
  exact ⟨index, request, revision, Pool.owner_move moved owned, made, marks⟩

theorem not_drawn_of_fresh {pool : TexturePool} {request : TextureRequest} {revision : Revision}
    (drawn : request.revision = some revision)
    (fresh : freshRevision start pool (.start request) = true) {path : List String}
    (marks : revision.marks path = true) :
    ¬((∃ row ∈ start.registry.rows, row.filePath = path) ∨ Drawn pool path) := by
  simp only [freshRevision, drawn, Bool.and_eq_true, List.all_eq_true] at fresh
  rintro (⟨row, member, rfl⟩ | ⟨index, other, earlier, owned, made, before⟩)
  · have unmarked := fresh.2 row member
    rw [marks] at unmarked
    cases unmarked
  · obtain ⟨entry, found, rfl⟩ := Option.map_eq_some_iff.mp owned
    have apart := of_decide_eq_true (fresh.1 entry (List.mem_of_getElem? found))
    exact apart (by rw [made, Revision.eq_of_marks before marks])

theorem Tended.started {pool next : TexturePool} {request : TextureRequest}
    (tended : Tended storageRoot start pool careful)
    (moved : pool.move (handleTexture storageRoot) (.start request) = some next)
    (fresh : freshRevision start pool (.start request) = true)
    (own : careful → request.ofUser = true)
    (phases : ∀ other, next.phaseOf (textureProtocol storageRoot) other =
      if other = pool.entries.length then some (request.phase storageRoot)
      else pool.phaseOf (textureProtocol storageRoot) other) :
    Tended storageRoot start next careful := by
  have made : next = pool.started request (handleTexture storageRoot request) :=
    (Option.some.inj moved).symm
  have new : pool.phaseOf (textureProtocol storageRoot) pool.entries.length = none := by
    rw [Pool.phaseOf, Pool.owner, List.getElem?_eq_none (Nat.le_refl _)]
    rfl
  have duties : dutyOf storageRoot next = dutyOf storageRoot pool := by
    funext index
    rw [dutyOf, phases, dutyOf]
    split
    · rename_i same
      rw [same, new]
      cases request <;> rfl
    · rfl
  have history : next.history = pool.history := by rw [made]; rfl
  have custody : custodyOf storageRoot start next = custodyOf storageRoot start pool := by
    rw [custodyOf, custodyOf, duties, history, made]
    rfl
  have owned : next.owner pool.entries.length = some request := by
    rw [made, Pool.owner_started, if_pos rfl]
  -- what the new request is about
  have target : ∀ key path, request.phase storageRoot = .fresh (some (key, path)) →
      ∃ revision, request.revision = some revision ∧ revision.marks path = true := by
    intro key path same
    cases request with
    | upload segment user multipart revision now =>
        refine ⟨revision, rfl, ?_⟩
        simp only [TextureRequest.phase, uploadTarget, TexturePhase.fresh.injEq,
          Option.bind_eq_bind, Option.bind_eq_some_iff, Option.some.injEq, Prod.mk.injEq] at same
        obtain ⟨kind, -, profileUuid, -, -, rfl⟩ := same
        exact revision.marks_diskPath storageRoot kind profileUuid
    | delete => cases same
    | adminDelete => cases same
    | orphans => cases same
    | purgeMissing => cases same
  have drawnNext : ∀ key path, request.phase storageRoot = .fresh (some (key, path)) →
      Drawn next path := by
    intro key path same
    obtain ⟨revision, drawn, marks⟩ := target key path same
    exact ⟨_, request, revision, owned, drawn, marks⟩
  have unknown : ∀ key path, request.phase storageRoot = .fresh (some (key, path)) →
      ¬((∃ row ∈ start.registry.rows, row.filePath = path) ∨ Drawn pool path) := by
    intro key path same
    obtain ⟨revision, drawn, marks⟩ := target key path same
    exact not_drawn_of_fresh drawn fresh marks
  refine ⟨?_, fun careful => ?_, fun path used => ?_, fun index key path inside => ?_,
    fun left right key other path first second => ?_, fun careful index phase inside => ?_,
    fun index key path old inside => ?_⟩
  · rw [custody]
    exact tended.sound
  · rw [custody]
    exact tended.kept careful
  · rw [history] at used
    exact (tended.named path used).imp_right (Drawn.move moved)
  · rw [history]
    rw [phases] at inside
    split at inside
    · have same := Option.some.inj inside
      exact ⟨drawnNext key path same, fun used => unknown key path same (tended.named path used)⟩
    · obtain ⟨drawn, unused⟩ := tended.fresh index key path inside
      exact ⟨drawn.move moved, unused⟩
  · rw [phases] at first second
    split at first
    · rename_i newest
      split at second
      · rename_i last
        rw [newest, last]
      · exact (unknown key path (Option.some.inj first)
          (.inr (tended.fresh right other path second).1)).elim
    · split at second
      · exact (unknown other path (Option.some.inj second)
          (.inr (tended.fresh left key path first).1)).elim
      · exact tended.alone left right key other path first second
  · rw [phases] at inside
    split at inside
    · obtain rfl := Option.some.inj inside
      have user := own careful
      cases request with
      | upload => exact id
      | delete => exact id
      | adminDelete => exact id
      | orphans => cases user
      | purgeMissing => cases user
    · exact tended.ofUser careful index phase inside
  · rw [history]
    rw [phases] at inside
    split at inside
    · have same := Option.some.inj inside
      cases request <;> cases same
    · exact tended.seen index key path old inside

/-! ## What an operation leads to -/

section Phases

variable {phase : TexturePhase} {operation : TextureOperation} {result : operation.Result}
  {key : TextureKey} {path : List String}

theorem creates_of_fresh (allowed : phase.allows operation)
    (made : operation.creates result = some path) :
    ∃ key, phase = .fresh (some (key, path)) := by
  unfold TexturePhase.allows at allowed
  split at allowed
  · cases made
  · rename_i target other
    obtain ⟨key, rfl⟩ := allowed
    cases result with
    | error error => cases made
    | ok created =>
        obtain rfl := Option.some.inj made
        exact ⟨key, rfl⟩
  all_goals first
    | exact allowed.elim
    | cases made

theorem fresh_of_after (allowed : phase.allows operation)
    (same : phase.after operation result = .fresh (some (key, path))) :
    phase = .fresh (some (key, path)) ∧ operation.creates result = none := by
  unfold TexturePhase.allows at allowed
  split at allowed
  · rename_i target other
    cases target with
    | none => cases same
    | some target => exact ⟨same, rfl⟩
  · rename_i target other
    obtain ⟨own, rfl⟩ := allowed
    cases result with
    | error error => exact ⟨same, rfl⟩
    | ok created => cases same
  all_goals first
    | exact allowed.elim
    | cases result <;> cases same

theorem surveys_of_after (allowed : phase.allows operation)
    (surveys : Surveys (phase.after operation result)) : Surveys phase := by
  unfold TexturePhase.allows at allowed
  split at allowed
  · rename_i target other
    cases target <;> exact surveys
  · rename_i target other
    obtain ⟨own, rfl⟩ := allowed
    cases result <;> exact surveys
  all_goals first
    | exact allowed.elim
    | trivial
    | cases result <;> exact surveys

theorem informed_of_after {before after : TextureService} {index : Nat}
    {old : Option (List String)} (allowed : phase.allows operation)
    (same : phase.after operation result = .under (.informed key path old)) :
    lookedUp index ⟨index, before, operation, result, after⟩ = some old ∨
      phase = .under (.informed key path old) ∧
        lookedUp index ⟨index, before, operation, result, after⟩ = none := by
  unfold TexturePhase.allows at allowed
  unfold lookedUp
  rw [if_pos rfl]
  split at allowed
  · rename_i target other
    cases target <;> cases same
  · rename_i target other
    obtain ⟨own, rfl⟩ := allowed
    cases result <;> cases same
  · cases same
  · cases result with
    | error error => cases same
    | ok found =>
        cases same
        exact .inl rfl
  · rename_i own place known row
    cases result with
    | error error => exact .inr ⟨same, rfl⟩
    | ok stored =>
        have closed : TexturePhase.under (if known = some place then .free else .owing known) =
            .under (.informed key path old) := same
        split at closed
        · cases closed
        · cases known <;> cases closed
  · cases same
  · cases result with
    | error error => cases same
    | ok removed => cases removed <;> cases same
  all_goals first
    | exact allowed.elim
    | cases result <;> cases same

end Phases

/-! ## Pools -/

theorem lastLookedUp_other {index : Nat} {event : Event textureStore}
    (other : event.process ≠ index) (history : List (Event textureStore)) :
    lastLookedUp index (event :: history) = lastLookedUp index history := by
  have nothing : lookedUp index event = none := if_neg other
  rw [lastLookedUp, List.findSome?_cons, nothing]
  rfl

theorem Tended.operated {pool next : TexturePool} {choice : Move TextureRequest} {index : Nat}
    {phase : TexturePhase} {operation : TextureOperation} {result : operation.Result}
    {after : TextureService} (tended : Tended storageRoot start pool careful)
    (moved : pool.move (handleTexture storageRoot) choice = some next)
    (current : pool.phaseOf (textureProtocol storageRoot) index = some phase)
    (allowed : phase.allows operation) (went : Went careful pool.shared operation result after)
    (ordered : careful → ∀ key path old row, phase = .under (.informed key path old) →
      operation = .statement (.upsert row) →
        pool.shared.stored key = none ∨ pool.shared.stored key = old)
    (shared : next.shared = after)
    (history : next.history = ⟨index, pool.shared, operation, result, after⟩ :: pool.history)
    (phases : ∀ other, next.phaseOf (textureProtocol storageRoot) other =
      if other = index then some (phase.after operation result)
      else pool.phaseOf (textureProtocol storageRoot) other) :
    Tended storageRoot start next careful := by
  have own : dutyOf storageRoot pool index = phase.duty := by
    rw [dutyOf, current]
    rfl
  have step := operation_step went allowed own
    (fun key path same => (tended.fresh index key path (same ▸ current)).2) ordered
    (fun care kind listed missing same => tended.ofUser care index phase current (same ▸ trivial))
  have used : ∀ path, Used start next.history path ↔
      operation.creates result = some path ∨ Used start pool.history path := by
    intro path
    simp only [Used, history, List.mem_cons, exists_eq_or_imp]
    exact or_left_comm
  have custody : custodyOf storageRoot start next =
      after.custody (fun path => operation.creates result = some path ∨ Used start pool.history path)
        (Function.update (dutyOf storageRoot pool) index (phase.after operation result).duty) := by
    rw [custodyOf, shared]
    refine congrArg₂ _ (funext fun path => propext (used path)) (funext fun other => ?_)
    rw [dutyOf, phases, Function.update_apply]
    split
    · rfl
    · rfl
  -- a process that has not begun is where it was
  have before : ∀ other key path,
      next.phaseOf (textureProtocol storageRoot) other = some (.fresh (some (key, path))) →
        pool.phaseOf (textureProtocol storageRoot) other = some (.fresh (some (key, path))) ∧
          (other = index → operation.creates result = none) := by
    intro other key path inside
    rw [phases] at inside
    split at inside
    · rename_i same
      obtain ⟨fresh, nothing⟩ := fresh_of_after allowed (Option.some.inj inside)
      rw [same, current, fresh]
      exact ⟨rfl, fun _ => nothing⟩
    · rename_i apart
      exact ⟨inside, fun same => (apart same).elim⟩
  refine ⟨?_, fun care => ?_, fun path used' => ?_, fun other key path inside => ?_,
    fun left right key other path first second => ?_, fun care other phase' inside => ?_,
    fun other key path old inside => ?_⟩
  · rw [custody]
    exact step.sound tended.sound
  · rw [custody]
    have careful' : careful = True := eq_true care
    subst careful'
    exact step.kept (tended.kept care)
  · rcases (used path).mp used' with made | earlier
    · obtain ⟨key, rfl⟩ := creates_of_fresh allowed made
      exact .inr ((tended.fresh index key path current).1.move moved)
    · exact (tended.named path earlier).imp_right (Drawn.move moved)
  · obtain ⟨earlier, nothing⟩ := before other key path inside
    obtain ⟨drawn, unused⟩ := tended.fresh other key path earlier
    refine ⟨drawn.move moved, fun used' => ?_⟩
    rcases (used path).mp used' with made | old
    · obtain ⟨one, rfl⟩ := creates_of_fresh allowed made
      have same := tended.alone other index key one path earlier current
      rw [nothing same] at made
      cases made
    · exact unused old
  · exact tended.alone left right key other path (before left key path first).1
      (before right other path second).1
  · rw [phases] at inside
    split at inside
    · obtain rfl := Option.some.inj inside
      exact fun surveys => tended.ofUser care index phase current (surveys_of_after allowed surveys)
    · exact tended.ofUser care other phase' inside
  · rw [history]
    rw [phases] at inside
    split at inside
    · rename_i same
      subst same
      rw [lastLookedUp, List.findSome?_cons]
      rcases @informed_of_after phase operation result key path pool.shared after other old allowed
        (Option.some.inj inside) with looked | ⟨rfl, nothing⟩
      · rw [looked]
      · rw [nothing]
        exact tended.seen other key path old current
    · rename_i apart
      rw [lastLookedUp_other (Ne.symm apart)]
      exact tended.seen other key path old inside

/-- The condition on the steps of a run. With care, nothing fails and uploads are in order. -/
def Minds (start : TextureService) (careful : Prop) (pool : TexturePool)
    (choice : Move TextureRequest) : Prop :=
  freshRevision start pool choice = true ∧
    (careful → undisturbed choice = true ∧ inOrder pool choice = true)

theorem Tended.move {pool next : TexturePool} {choice : Move TextureRequest}
    (tended : Tended storageRoot start pool careful)
    (obeys : pool.Obeys (textureProtocol storageRoot) Discharged)
    (minds : Minds start careful pool choice)
    (moved : pool.move (handleTexture storageRoot) choice = some next) :
    Tended storageRoot start next careful := by
  rcases Pool.move_phases obeys moved with ⟨request, rfl, -, -, phases⟩ |
    ⟨index, phase, operation, result, after, made, upcoming, current, allowed, occurs,
      shared, history, phases⟩
  · exact tended.started moved minds.1 (fun care => (minds.2 care).1) phases
  · have advances : careful → choice = .advance index := fun care => by
      rcases made with advance | ⟨rfl, -⟩
      · exact advance
      · have calm := (minds.2 care).1
        cases calm
    refine tended.operated moved current allowed ?_ (fun care key path old row inside upsert => ?_)
      shared history phases
    · by_cases care : careful
      · have advance := advances care
        subst advance
        exact .inl (Pool.performed_of_advance moved history)
      · rcases occurs with ⟨-, performed⟩ | ⟨fault, same⟩
        · exact .inl performed
        · exact .inr ⟨fault, same, care⟩
    · have ordered := (minds.2 care).2
      have row' : row.key = key := by
        subst inside upsert
        exact allowed.1
      have looked := tended.seen index key path old (inside ▸ current)
      rw [advances care] at ordered
      simp only [inOrder, upcoming, upsert, row'] at ordered
      split at ordered
      · rename_i stored here
        rw [looked] at ordered
        exact .inr (here.trans (Option.some.inj (of_decide_eq_true ordered)).symm)
      · rename_i none
        exact .inl none

end Steps

/-! ## Runs -/

/-- Of the files in question, those are left that a row names, and each row's file is there. -/
def FilesAgree (start : TextureService) (final : TexturePool) : Prop :=
  (∀ path, Used start final.history path → final.shared.disk.isFile path = true →
    ∃ row ∈ final.shared.registry.rows, row.filePath = path) ∧
  ∀ row ∈ final.shared.registry.rows,
    Used start final.history row.filePath ∧ final.shared.disk.isFile row.filePath = true

theorem exists_row_iff {service : TextureService} {path : List String} :
    (∃ key, service.stored key = some path) ↔
      ∃ row ∈ service.registry.rows, row.filePath = path := by
  constructor
  · rintro ⟨key, stored⟩
    obtain ⟨row, found, rfl⟩ := Option.map_eq_some_iff.mp stored
    exact ⟨row, (Keyed.find_eq_some.mp found).1, rfl⟩
  · rintro ⟨row, member, rfl⟩
    refine ⟨row.key, ?_⟩
    rw [TextureService.stored, Keyed.find_eq_some.mpr ⟨member, rfl⟩]
    rfl

section Runs

variable {storageRoot : List String} {start : TextureService} {moves : List (Move TextureRequest)}
  {final : TexturePool}

theorem tended_of_run {careful : Prop} (consistent : Consistent start)
    (minds : Along (Pool.move (handleTexture storageRoot)) (Minds start careful) (.initial start)
      moves)
    (reached : run (Pool.move (handleTexture storageRoot)) (.initial start) moves = some final) :
    Tended storageRoot start final careful ∧
      final.Obeys (textureProtocol storageRoot) Discharged := by
  have kept : ∀ (pool : TexturePool) choice next, Tended storageRoot start pool careful →
      pool.Obeys (textureProtocol storageRoot) Discharged → Minds start careful pool choice →
      pool.move (handleTexture storageRoot) choice = some next →
      Tended storageRoot start next careful :=
    fun _ _ _ tended obeys minds moved => tended.move obeys minds moved
  exact Pool.invariant_of_protocol handleTexture_follows kept (tended_initial consistent) minds
    reached

theorem free_of_succeeded (obeys : final.Obeys (textureProtocol storageRoot) Discharged)
    (succeeded : final.succeeded = true) (index : Nat) : dutyOf storageRoot final index = .free := by
  rw [dutyOf, Pool.phaseOf, Pool.owner]
  cases found : final.entries[index]? with
  | none => rfl
  | some entry =>
      obtain ⟨request, process⟩ := entry
      have ended := List.all_eq_true.mp succeeded _ (List.mem_of_getElem? found)
      have meets := obeys.2 index request process found
      cases process with
      | call operation next => cases ended
      | done outcome =>
          cases outcome with
          | error error => cases ended
          | ok reply => exact meets reply rfl

/-- Where each upload replaces the row that it has seen, or none, the files agree with the rows
once all have ended. -/
theorem texture_files_agree (storageRoot : List String) (start : TextureService)
    (consistent : Consistent start) {moves : List (Move TextureRequest)} {final : TexturePool}
    (minds : Along (Pool.move (handleTexture storageRoot))
      (fun pool choice => freshRevision start pool choice = true ∧ undisturbed choice = true ∧
        inOrder pool choice = true) (.initial start) moves)
    (reached : run (Pool.move (handleTexture storageRoot)) (.initial start) moves = some final)
    (succeeded : final.succeeded = true) : FilesAgree start final := by
  have careful : Along (Pool.move (handleTexture storageRoot)) (Minds start True)
      (.initial start) moves := minds.mono fun _ _ holds => ⟨holds.1, fun _ => holds.2⟩
  obtain ⟨tended, obeys⟩ := tended_of_run consistent careful reached
  have free := free_of_succeeded obeys succeeded
  refine ⟨fun path used present => ?_, fun row member => ?_⟩
  · exact exists_row_iff.mp ((tended.sound.settled (tended.kept trivial) free used).mp present)
  · obtain ⟨key, stored⟩ := exists_row_iff.mpr ⟨row, member, rfl⟩
    exact tended.sound.stored key row.filePath stored

/-- Whatever fails or overlaps, no row loses its file to another request. -/
theorem texture_rows_have_files (storageRoot : List String) (start : TextureService)
    (consistent : Consistent start) {moves : List (Move TextureRequest)} {final : TexturePool}
    (fresh : Along (Pool.move (handleTexture storageRoot))
      (fun pool choice => freshRevision start pool choice = true) (.initial start) moves)
    (reached : run (Pool.move (handleTexture storageRoot)) (.initial start) moves = some final) :
    ∀ row ∈ final.shared.registry.rows, final.shared.disk.isFile row.filePath = true := by
  have careless : Along (Pool.move (handleTexture storageRoot)) (Minds start False)
      (.initial start) moves := fresh.mono fun _ _ holds => ⟨holds, False.elim⟩
  intro row member
  obtain ⟨key, stored⟩ := exists_row_iff.mpr ⟨row, member, rfl⟩
  exact ((tended_of_run consistent careless reached).1.sound.stored key row.filePath stored).2

end Runs

def noTextures : TextureService where
  users := [1]
  registry := .empty
  disk := .empty
  folding := ⟨id, fun _ _ _ => Iff.rfl⟩

theorem noTextures_consistent : Consistent noTextures :=
  ⟨fun _ none => (List.not_mem_nil none).elim, .nil⟩

def aurora : AuthUser := ⟨1, "aurora", some "0a"⟩

def skinBody : Bundles.Multipart where
  fields := [⟨some "file", some "skin.png",
    [[0x89, 0x50, 0x4E, 0x47, 0x0D, 0x0A, 0x1A, 0x0A, 0, 0, 0, 13, 0x49, 0x48, 0x44, 0x52,
      0, 0, 0, 64, 0, 0, 0, 64]], none, .ok ""⟩]
  failure := none

def skinUpload (revision : Revision) : Move TextureRequest :=
  .start (.upload "skin" aurora skinBody revision 0)

def firstRevision : Revision := ⟨"aaaaaaaaaaaa", by decide +kernel⟩

def secondRevision : Revision := ⟨"bbbbbbbbbbbb", by decide +kernel⟩

def skinsInTurn : List (Move TextureRequest) :=
  [skinUpload firstRevision, skinUpload secondRevision] ++
    List.replicate 5 (.advance 0) ++ List.replicate 6 (.advance 1)

theorem texture_files_agree_in_turn :
    ∃ final, run (Pool.move (handleTexture ["textures"])) (.initial noTextures) skinsInTurn =
      some final ∧ FilesAgree noTextures final := by
  have ended : ((run (Pool.move (handleTexture ["textures"])) (.initial noTextures)
      skinsInTurn).map fun final => final.succeeded) = some true := by decide +kernel
  obtain ⟨final, reached, succeeded⟩ := Option.map_eq_some_iff.mp ended
  have minds : Along (Pool.move (handleTexture ["textures"]))
      (fun pool choice => freshRevision noTextures pool choice = true ∧
        undisturbed choice = true ∧ inOrder pool choice = true) (.initial noTextures)
      skinsInTurn := by decide +kernel
  exact ⟨final, reached,
    texture_files_agree ["textures"] noTextures noTextures_consistent minds reached succeeded⟩

/-- Both uploads look before either has stored its row. -/
def skinsCrossing : List (Move TextureRequest) :=
  [skinUpload firstRevision, skinUpload secondRevision] ++
    List.replicate 4 (.advance 0) ++ List.replicate 4 (.advance 1) ++ [.advance 0, .advance 1]

theorem texture_file_orphaned :
    ¬∀ (storageRoot : List String) (start : TextureService) (moves : List (Move TextureRequest))
      (final : TexturePool), Consistent start →
      Along (Pool.move (handleTexture storageRoot))
        (fun pool choice => freshRevision start pool choice = true ∧ undisturbed choice = true)
        (.initial start) moves →
      run (Pool.move (handleTexture storageRoot)) (.initial start) moves = some final →
      final.succeeded = true → FilesAgree start final := by
  intro always
  have ended : ((run (Pool.move (handleTexture ["textures"])) (.initial noTextures)
      skinsCrossing).map fun final => (final.succeeded,
        final.history.any fun event =>
          creates event = some (diskPath ["textures"] .skin "0a" firstRevision),
        final.shared.disk.isFile (diskPath ["textures"] .skin "0a" firstRevision),
        final.shared.registry.rows.map (·.filePath))) =
      some (true, true, true, [diskPath ["textures"] .skin "0a" secondRevision]) := by
    decide +kernel
  have minds : Along (Pool.move (handleTexture ["textures"]))
      (fun pool choice => freshRevision noTextures pool choice = true ∧
        undisturbed choice = true) (.initial noTextures) skinsCrossing := by decide +kernel
  obtain ⟨final, reached, seen⟩ := Option.map_eq_some_iff.mp ended
  simp only [Prod.mk.injEq] at seen
  obtain ⟨succeeded, written, present, rows⟩ := seen
  obtain ⟨event, member, made⟩ := List.any_eq_true.mp written
  have agree := always ["textures"] noTextures skinsCrossing final noTextures_consistent minds
    reached succeeded
  obtain ⟨row, listed, same⟩ := agree.1 _ (.inr ⟨event, member, of_decide_eq_true made⟩) present
  have named : row.filePath ∈ final.shared.registry.rows.map (·.filePath) :=
    List.mem_map.mpr ⟨row, listed, rfl⟩
  rw [rows, same] at named
  revert named
  decide +kernel

end Loontail.Textures
