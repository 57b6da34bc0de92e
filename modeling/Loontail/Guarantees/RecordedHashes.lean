import Loontail.Bundles.ContentProtocol
import Loontail.Bundles.DiskCalls
import Loontail.Bundles.Statements
import Loontail.Concurrency.Trace

/-! # Whether a row tells the bytes that are served

Uploads and rehashes write the file and its row in separate steps. The row is right when
the last that set its hash had read the file that lies there, and the last that set its
size had put it there. -/

namespace Loontail.Bundles

open Concurrency Disk Relational

/-! ## What an event does to one artifact -/

def puts (path : List String) : Event registry → Bool
  | ⟨_, _, .disk (.rename _ target), .ok _, _⟩ => target = path
  | _ => false

def readsAt (path : List String) : Event registry → Bool
  | ⟨_, _, .disk (.read other), .ok _, _⟩ => other = path
  | _ => false

def setsSize (bundleId : Uuid) (relativePath : String) : Event registry → Bool
  | ⟨_, _, .statement (.upsertArtifact id entry), .ok _, _⟩ =>
      id = bundleId && entry.relativePath = relativePath
  | _ => false

/-- An upload sets the hash with the size, a rehash sets it alone. -/
def setsHash (bundleId : Uuid) (relativePath : String) : Event registry → Bool
  | ⟨_, _, .statement (.upsertArtifact id entry), .ok _, _⟩ =>
      id = bundleId && entry.relativePath = relativePath
  | ⟨_, before, .statement (.updateSha id _), .ok _, _⟩ =>
      (before.database.artifacts.find id).any (Sql.at_ bundleId relativePath)
  | _ => false

def readSince (path : List String) (process : Nat) : List (Event registry) → Bool
  | [] => false
  | event :: older => !puts path event &&
      (event.process = process && readsAt path event || readSince path process older)

def putLast (path : List String) (process : Nat) : List (Event registry) → Bool
  | [] => false
  | event :: older => if puts path event then event.process = process
      else putLast path process older

/-- The hash was set last by a process that had read the file that lies at the path; it
was right at the start where nobody set it and nobody put a file there. -/
def HashCurrent (path : List String) (bundleId : Uuid) (relativePath : String) (start : Prop) :
    List (Event registry) → Prop
  | [] => start
  | event :: older =>
      if setsHash bundleId relativePath event then readSince path event.process older = true
      else puts path event = false ∧ HashCurrent path bundleId relativePath start older

/-- The size was set last by the process that put the file there. -/
def SizeCurrent (path : List String) (bundleId : Uuid) (relativePath : String) (start : Prop) :
    List (Event registry) → Prop
  | [] => start
  | event :: older =>
      if setsSize bundleId relativePath event then putLast path event.process older = true
      else puts path event = false ∧ SizeCurrent path bundleId relativePath start older

section Decide

variable {path : List String} {bundleId : Uuid} {relativePath : String} {start : Prop}

instance HashCurrent.decidable [Decidable start] : (history : List (Event registry)) →
    Decidable (HashCurrent path bundleId relativePath start history)
  | [] => inferInstanceAs (Decidable start)
  | event :: older =>
      have : Decidable (HashCurrent path bundleId relativePath start older) := decidable older
      inferInstanceAs (Decidable (if setsHash bundleId relativePath event then
          readSince path event.process older = true
        else puts path event = false ∧ HashCurrent path bundleId relativePath start older))

instance SizeCurrent.decidable [Decidable start] : (history : List (Event registry)) →
    Decidable (SizeCurrent path bundleId relativePath start history)
  | [] => inferInstanceAs (Decidable start)
  | event :: older =>
      have : Decidable (SizeCurrent path bundleId relativePath start older) := decidable older
      inferInstanceAs (Decidable (if setsSize bundleId relativePath event then
          putLast path event.process older = true
        else puts path event = false ∧ SizeCurrent path bundleId relativePath start older))

theorem HashCurrent.of_set {history : List (Event registry)}
    (current : HashCurrent path bundleId relativePath False history) :
    HashCurrent path bundleId relativePath start history := by
  induction history with
  | nil => exact current.elim
  | cons event older induction =>
      unfold HashCurrent at current ⊢
      split
      · rename_i sets
        rw [if_pos sets] at current
        exact current
      · rename_i unset
        rw [if_neg unset] at current
        exact ⟨current.1, induction current.2⟩

theorem SizeCurrent.of_set {history : List (Event registry)}
    (current : SizeCurrent path bundleId relativePath False history) :
    SizeCurrent path bundleId relativePath start history := by
  induction history with
  | nil => exact current.elim
  | cons event older induction =>
      unfold SizeCurrent at current ⊢
      split
      · rename_i sets
        rw [if_pos sets] at current
        exact current
      · rename_i unset
        rw [if_neg unset] at current
        exact ⟨current.1, induction current.2⟩

end Decide

/-! ## What a process knows -/

def known (process : Nat) : List (Event registry) → ContentPhase
  | [] => .unknowing
  | event :: older =>
      if event.process = process then
        (known process older).after event.operation event.result
      else known process older

theorem phase_eq_known (state : State) (request : ContentRequest) (process : Nat)
    (history : List (Event registry)) :
    (contentProtocol state).phase request process history = known process history := by
  induction history with
  | nil => rfl
  | cons event older induction =>
      by_cases own : event.process = process
      · subst own
        rw [Protocol.phase_cons_own, known, if_pos rfl, induction]
      · rw [Protocol.phase_cons_other request event own, known, if_neg own, induction]

/-! ## What a step can do -/

def OffManifest (path : List String) : Prop :=
  ∀ slug, ¬stagedManifestPath slug <+: path ∧ path ≠ manifestPath slug

structure Quiet (phase : ContentPhase) (event : Event registry) : Prop where
  knows : phase.after event.operation event.result = phase
  puts : ∀ path, puts path event = false
  reads : ∀ path, readsAt path event = false
  sizes : ∀ bundleId relativePath, setsSize bundleId relativePath event = false
  hashes : ∀ bundleId relativePath, setsHash bundleId relativePath event = false
  uploads : event.after.uploads = event.before.uploads
  persists : Persists event.before.database event.after.database
  artifacts : event.after.database.artifacts.rows = event.before.database.artifacts.rows
  disk : ∀ path, OffManifest path → (event.before.disk.find path).isSome →
    event.after.disk.find path = event.before.disk.find path

inductive Course (state : State) (phase : ContentPhase) : Event registry → Prop where
  | quiet {event : Event registry} (quiet : Quiet phase event) : Course state phase event
  | named {process : Nat} {service : Service} {slug : String} {bundle : Bundle}
      (member : bundle ∈ service.database.bundles.rows) :
      Course state phase
        ⟨process, service, .statement (.findBySlug slug), .ok (some bundle), service⟩
  | found {process : Nat} {service : Service} {id : Uuid} {artifact : BundleArtifact}
      (member : artifact ∈ service.database.artifacts.rows) :
      Course state phase
        ⟨process, service, .statement (.findArtifact id), .ok (some artifact), service⟩
  | numbered {process : Nat} {service : Service} (unnumbered : phase.number = none) :
      Course state phase ⟨process, service, .newUpload, service.uploads,
        { service with uploads := service.uploads + 1 }⟩
  | created {process : Nat} {service : Service} {path : List String} {disk : Builds}
      (owns : phase.Owns path) (made : service.disk.writeFile path [] = .ok disk) :
      Course state phase
        ⟨process, service, .disk (.create path), .ok (), { service with disk }⟩
  | appended {process : Nat} {service : Service} {path : List String} {data : Bytes}
      {disk : Builds} {written : Nat} (temp : phase.temp = some (path, written))
      (made : DiskCall.appended service.disk path data = .ok disk) :
      Course state phase
        ⟨process, service, .disk (.append path data), .ok (), { service with disk }⟩
  | placed {process : Nat} {service : Service} {source target : List String} {disk : Builds}
      {written : Nat} {bundleId : Uuid} {relativePath : String}
      (temp : phase.temp = some (source, written)) (unplaced : phase.placed = none)
      (there : phase.At bundleId relativePath target)
      (made : service.disk.rename source target = .ok disk) :
      Course state phase
        ⟨process, service, .disk (.rename source target), .ok (), { service with disk }⟩
  | removed {process : Nat} {service : Service} {path : List String} {disk : Builds}
      (owns : phase.Owns path) (made : service.disk.removeFile path = .ok disk) :
      Course state phase
        ⟨process, service, .disk (.removeFile path), .ok (), { service with disk }⟩
  | read {process : Nat} {service : Service} {path : List String} {content : Bytes}
      (unread : phase.read = none) (made : service.disk.find path = some (.file content)) :
      Course state phase
        ⟨process, service, .disk (.read path), .ok content, service⟩
  | upserted {process : Nat} {service : Service} {bundleId : Uuid} {entry : ScanEntry}
      {database : Database} (records : phase.Records state bundleId entry)
      (made : Sql.upsert bundleId entry service.database = .ok ((), database)) :
      Course state phase ⟨process, service, .statement (.upsertArtifact bundleId entry),
        .ok (), { service with database }⟩
  | rehashed {process : Nat} {service : Service} {id : Uuid} {sha256 : String}
      (rehashed : phase.Rehashed state id sha256) :
      Course state phase ⟨process, service, .statement (.updateSha id sha256), .ok (),
        { service with
          database := Sql.setArtifact id (fun artifact => { artifact with sha256 := some sha256 })
            (fun _ => ⟨rfl, rfl⟩) service.database }⟩

section Courses

variable {state : State} {phase : ContentPhase} {process : Nat} {before after : Service}

theorem quiet_refused (statement : Statement) (error : DatabaseError) :
    Quiet phase ⟨process, before, .statement statement, .error error, before⟩ := by
  cases statement <;> exact ⟨rfl, fun _ => rfl, fun _ => rfl, fun _ _ => rfl, fun _ _ => rfl,
    rfl, .refl _, rfl, fun _ _ _ => rfl⟩

theorem quiet_failed (call : DiskCall) (error : IoError) :
    Quiet phase ⟨process, before, .disk call, .error error, before⟩ := by
  cases call <;> exact ⟨rfl, fun _ => rfl, fun _ => rfl, fun _ _ => rfl, fun _ _ => rfl,
    rfl, .refl _, rfl, fun _ _ _ => rfl⟩

theorem course_of_statement {statement : Statement}
    {result : (Operation.statement statement).Result}
    (allowed : phase.allows state (.statement statement))
    (occurs : registry.Occurs before (.statement statement) result after) :
    Course state phase ⟨process, before, .statement statement, result, after⟩ := by
  rcases occurs_statement occurs with ⟨reply, database, rfl, executed, rfl⟩ | ⟨error, rfl, rfl⟩
  · cases statement with
    | findBySlug slug =>
        cases executed
        cases found : Sql.findBySlug slug before.database with
        | none =>
            exact .quiet ⟨rfl, fun _ => rfl, fun _ => rfl, fun _ _ => rfl, fun _ _ => rfl, rfl,
              .refl _, rfl, fun _ _ _ => rfl⟩
        | some bundle => exact .named (List.mem_of_find?_eq_some found)
    | findArtifact id =>
        cases executed
        cases found : before.database.artifacts.find id with
        | none =>
            exact .quiet ⟨rfl, fun _ => rfl, fun _ => rfl, fun _ _ => rfl, fun _ _ => rfl, rfl,
              .refl _, rfl, fun _ _ _ => rfl⟩
        | some artifact => exact .found (Table.find_eq_some.mp found).1
    | listArtifacts id =>
        cases executed
        exact .quiet ⟨rfl, fun _ => rfl, fun _ => rfl, fun _ _ => rfl, fun _ _ => rfl, rfl,
          .refl _, rfl, fun _ _ _ => rfl⟩
    | finishRegeneration id filesCount totalSize =>
        obtain ⟨persists, same⟩ := finishRegeneration_persists executed
        exact .quiet ⟨rfl, fun _ => rfl, fun _ => rfl, fun _ _ => rfl, fun _ _ => rfl, rfl,
          persists, congrArg _ same, fun _ _ _ => rfl⟩
    | upsertArtifact id entry => exact .upserted allowed executed
    | updateSha id sha256 =>
        cases executed
        exact .rehashed allowed
    | _ => exact allowed.elim
  · exact .quiet (quiet_refused statement error)

theorem course_of_disk {call : DiskCall} {result : (Operation.disk call).Result}
    (allowed : phase.allows state (.disk call))
    (occurs : registry.Occurs before (.disk call) result after) :
    Course state phase ⟨process, before, .disk call, result, after⟩ := by
  rcases occurs_disk occurs with ⟨rfl, rfl⟩ | ⟨rfl, rfl⟩
  · cases call with
    | createDirAll path =>
        rcases DiskCall.settle_cases before.disk (before.disk.createDirAll path) with
          ⟨tree, made, settled⟩ | ⟨error, -, settled⟩
        · simp only [DiskCall.perform, settled]
          exact .quiet ⟨rfl, fun _ => rfl, fun _ => rfl, fun _ _ => rfl, fun _ _ => rfl, rfl,
            .refl _, rfl, fun _ _ there => Tree.createDirAll_keeps made there⟩
        · simp only [DiskCall.perform, settled]
          exact .quiet (quiet_failed _ error)
    | create path =>
        rcases DiskCall.settle_cases before.disk (before.disk.writeFile path []) with
          ⟨tree, made, settled⟩ | ⟨error, -, settled⟩
        · simp only [DiskCall.perform, settled]
          exact .created allowed made
        · simp only [DiskCall.perform, settled]
          exact .quiet (quiet_failed _ error)
    | append path data =>
        obtain ⟨written, temp⟩ := allowed
        rcases DiskCall.settle_cases before.disk (DiskCall.appended before.disk path data) with
          ⟨tree, made, settled⟩ | ⟨error, -, settled⟩
        · simp only [DiskCall.perform, settled]
          exact .appended temp made
        · simp only [DiskCall.perform, settled]
          exact .quiet (quiet_failed _ error)
    | rename source target =>
        obtain ⟨unplaced, ⟨written, temp⟩, bundleId, relativePath, there⟩ := allowed
        rcases DiskCall.settle_cases before.disk (before.disk.rename source target) with
          ⟨tree, made, settled⟩ | ⟨error, -, settled⟩
        · simp only [DiskCall.perform, settled]
          exact .placed temp unplaced there made
        · simp only [DiskCall.perform, settled]
          exact .quiet (quiet_failed _ error)
    | removeFile path =>
        rcases DiskCall.settle_cases before.disk (before.disk.removeFile path) with
          ⟨tree, made, settled⟩ | ⟨error, -, settled⟩
        · simp only [DiskCall.perform, settled]
          exact .removed allowed made
        · simp only [DiskCall.perform, settled]
          exact .quiet (quiet_failed _ error)
    | read path =>
        simp only [DiskCall.perform]
        unfold Tree.read
        split
        · rename_i content made
          exact .read allowed made
        · exact .quiet (quiet_failed _ _)
        · exact .quiet (quiet_failed _ _)
    | tryExists path =>
        exact .quiet ⟨rfl, fun _ => rfl, fun _ => rfl, fun _ _ => rfl, fun _ _ => rfl, rfl,
          .refl _, rfl, fun _ _ _ => rfl⟩
    | probe filesRoot relativePaths =>
        exact .quiet ⟨rfl, fun _ => rfl, fun _ => rfl, fun _ _ => rfl, fun _ _ => rfl, rfl,
          .refl _, rfl, fun _ _ _ => rfl⟩
    | writeManifest slug json =>
        exact .quiet ⟨rfl, fun _ => rfl, fun _ => rfl, fun _ _ => rfl, fun _ _ => rfl, rfl,
          .refl _, rfl, fun path off there =>
            @DiskCall.perform_spares before.disk (.writeManifest slug json) path (off slug) there⟩
    | _ => exact allowed.elim
  · exact .quiet (quiet_failed call .device)

theorem course_of_allowed {event : Event registry}
    (allowed : phase.allows state event.operation) (happened : event.Happened) :
    Course state phase event := by
  rcases event with ⟨process, before, operation, result, after⟩
  cases operation with
  | statement statement => exact course_of_statement allowed happened
  | disk call => exact course_of_disk allowed happened
  | newUpload =>
      have issued : result = before.uploads ∧
          after = { before with uploads := before.uploads + 1 } := occurs_newUpload happened
      obtain ⟨rfl, rfl⟩ := issued
      exact .numbered allowed
  | _ => exact allowed.elim

theorem upload_off_manifest (slug : String) (number : Nat) :
    OffManifest (uploadPath slug number) := by
  intro other
  constructor
  · intro within
    have whole : stagedManifestPath other = uploadPath slug number := within.eq_of_length rfl
    exact uploadPath_ne (by decide) slug other number whole.symm
  · exact uploadPath_ne (by decide) slug other number

/-- What lies apart from the manifests and from what the process owns stays, unless an
upload puts its file there. -/
theorem Course.spares {event : Event registry} {path : List String}
    (course : Course state phase event) (off : OffManifest path)
    (owned : ∀ temp written, phase.temp = some (temp, written) → phase.Owns temp)
    (foreign : ∀ own, phase.Owns own → ¬own <+: path) (unput : puts path event = false)
    (there : (event.before.disk.find path).isSome) :
    event.after.disk.find path = event.before.disk.find path := by
  have other : ∀ own, phase.Owns own → path ≠ own := by
    rintro own owns rfl
    exact foreign path owns (List.prefix_refl _)
  cases course with
  | quiet quiet => exact quiet.disk path off there
  | named => rfl
  | found => rfl
  | numbered => rfl
  | created owns made => exact Tree.writeFile_keeps made (other _ owns)
  | appended temp made => exact DiskCall.appended_keeps made (other _ (owned _ _ temp))
  | placed temp unplaced at_ made =>
      refine Tree.rename_keeps made (foreign _ (owned _ _ temp)) ?_ there
      rintro rfl
      simp [puts] at unput
  | removed owns made => exact Tree.removeFile_keeps made (other _ owns)
  | read => rfl
  | upserted => rfl
  | rehashed => rfl

theorem Course.puts_upload {event : Event registry} (course : Course state phase event)
    (slug : String) (number : Nat) : puts (uploadPath slug number) event = false := by
  cases course with
  | quiet quiet => exact quiet.puts _
  | placed temp unplaced there made =>
      obtain ⟨build, -, rfl⟩ := there
      refine decide_eq_false fun same => ?_
      exact upload_not_within_files slug build number _ ⟨[], by rw [List.append_nil, ← same]; rfl⟩
  | _ => rfl

theorem Course.numbering {event : Event registry} (course : Course state phase event) :
    ((phase.after event.operation event.result).number = phase.number ∧
        event.after.uploads = event.before.uploads) ∨
      (phase.number = none ∧
        (phase.after event.operation event.result).number = some event.before.uploads ∧
        event.after.uploads = event.before.uploads + 1) := by
  cases course with
  | quiet quiet => exact .inl ⟨by rw [quiet.knows], quiet.uploads⟩
  | numbered unnumbered => exact .inr ⟨unnumbered, rfl, rfl⟩
  | _ => exact .inl ⟨rfl, rfl⟩

def Holding (phase : ContentPhase) (disk : Builds) : Prop :=
  ∀ path written, phase.temp = some (path, written) →
    phase.Owns path ∧ ∃ content, disk.find path = some (.file content) ∧
      content.length = written

theorem Course.holding {event : Event registry} (course : Course state phase event)
    (holding : Holding phase event.before.disk) :
    Holding (phase.after event.operation event.result) event.after.disk := by
  intro path written temp
  cases course with
  | quiet quiet =>
      rw [quiet.knows] at temp ⊢
      obtain ⟨⟨slug, number, numbered, rfl⟩, content, there, length⟩ := holding path written temp
      refine ⟨⟨slug, number, numbered, rfl⟩, content, ?_, length⟩
      rw [quiet.disk _ (upload_off_manifest slug number) (by rw [there]; rfl), there]
  | numbered unnumbered =>
      obtain ⟨⟨slug, number, numbered, -⟩, -⟩ := holding path written temp
      rw [unnumbered] at numbered
      cases numbered
  | created owns made =>
      cases temp
      exact ⟨owns, [], by rw [(Tree.writeFile_ok made).1, Tree.withFile, if_pos rfl], rfl⟩
  | appended held made =>
      obtain ⟨owns, content, there, length⟩ := holding _ _ held
      simp only [ContentPhase.after, held, Option.map_some, Option.some.injEq,
        Prod.mk.injEq] at temp
      obtain ⟨rfl, rfl⟩ := temp
      refine ⟨owns, _, DiskCall.appended_puts there made, ?_⟩
      rw [List.length_append, length]
  | placed => cases temp
  | removed => cases temp
  | _ => exact holding path written temp

structure Staged (history : List (Event registry)) (service : Service) : Prop where
  issued : ∀ process number, (known process history).number = some number →
    number < service.uploads
  apart : ∀ left right number, (known left history).number = some number →
    (known right history).number = some number → left = right
  holding : ∀ process, Holding (known process history) service.disk

theorem Staged.start (service : Service) : Staged [] service :=
  ⟨by rintro _ _ ⟨⟩, by rintro _ _ _ ⟨⟩, by rintro _ _ _ ⟨⟩⟩

theorem known_own (event : Event registry) (older : List (Event registry)) :
    known event.process (event :: older) =
      (known event.process older).after event.operation event.result := if_pos rfl

theorem known_other {event : Event registry} {process : Nat} (other : event.process ≠ process)
    (older : List (Event registry)) :
    known process (event :: older) = known process older := if_neg other

theorem Staged.step {event : Event registry} {older : List (Event registry)}
    (staged : Staged older event.before)
    (course : Course state (known event.process older) event) :
    Staged (event :: older) event.after := by
  have grows : event.before.uploads ≤ event.after.uploads := by
    rcases course.numbering with ⟨-, same⟩ | ⟨-, -, more⟩ <;> omega
  -- a number of the process is one it had, or the one that was just issued
  have own : ∀ number, (known event.process (event :: older)).number = some number →
      (known event.process older).number = some number ∨
        (number = event.before.uploads ∧ event.after.uploads = event.before.uploads + 1) := by
    intro number numbered
    rw [known_own] at numbered
    rcases course.numbering with ⟨same, -⟩ | ⟨-, issued, more⟩
    · exact .inl (same ▸ numbered)
    · rw [issued] at numbered
      cases numbered
      exact .inr ⟨rfl, more⟩
  constructor
  · intro process number numbered
    by_cases same : event.process = process
    · subst same
      rcases own number numbered with old | ⟨rfl, more⟩
      · exact (staged.issued _ _ old).trans_le grows
      · omega
    · rw [known_other same] at numbered
      exact (staged.issued _ _ numbered).trans_le grows
  · have once : ∀ process number, event.process ≠ process →
        (known event.process (event :: older)).number = some number →
        (known process older).number ≠ some number := by
      intro process number different numbered other
      rcases own number numbered with old | ⟨rfl, -⟩
      · exact different (staged.apart _ _ _ old other)
      · exact Nat.lt_irrefl _ (staged.issued _ _ other)
    intro left right number first second
    by_cases leftOwn : event.process = left <;> by_cases rightOwn : event.process = right
    · exact leftOwn.symm.trans rightOwn
    · subst leftOwn
      rw [known_other rightOwn] at second
      exact (once right number rightOwn first second).elim
    · subst rightOwn
      rw [known_other leftOwn] at first
      exact (once left number leftOwn second first).elim
    · rw [known_other leftOwn] at first
      rw [known_other rightOwn] at second
      exact staged.apart left right number first second
  · intro process
    by_cases same : event.process = process
    · subst same
      rw [known_own]
      exact course.holding (staged.holding _)
    · rw [known_other same]
      intro path written temp
      obtain ⟨⟨slug, number, numbered, rfl⟩, content, there, length⟩ :=
        staged.holding process path written temp
      refine ⟨⟨slug, number, numbered, rfl⟩, content, ?_, length⟩
      rw [course.spares (upload_off_manifest slug number) ?_ ?_ ?_ (by rw [there]; rfl), there]
      · exact fun own written temp => (staged.holding _ own written temp).1
      · rintro own ⟨other, issued, first, rfl⟩ within
        have whole := within.eq_of_length rfl
        obtain ⟨-, rfl⟩ := uploadPath_injective whole
        exact same (staged.apart _ _ _ first numbered)
      · exact course.puts_upload slug number

/-! ## The names of builds and artifacts -/

structure Informed (history : List (Event registry)) (database : Database) : Prop where
  builds : ∀ process id slug, (known process history).bundle = some (id, slug) →
    Registered database id slug
  entries : ∀ process artifact, (known process history).entry = some artifact →
    ∃ row ∈ database.artifacts.rows, row.id = artifact.id ∧
      row.bundleId = artifact.bundleId ∧ row.relativePath = artifact.relativePath

theorem Informed.start (database : Database) : Informed [] database :=
  ⟨by rintro _ _ _ ⟨⟩, by rintro _ _ ⟨⟩⟩

theorem Course.persists {event : Event registry} (course : Course state phase event) :
    Persists event.before.database event.after.database := by
  cases course with
  | quiet quiet => exact quiet.persists
  | upserted records made =>
      refine ⟨fun row member => ⟨row, ?_, rfl, rfl⟩, fun row => Sql.upsert_persists made⟩
      exact (Sql.upsert_rows made).1 ▸ member
  | rehashed =>
      refine ⟨fun row member => ⟨row, member, rfl, rfl⟩,
        fun row member => ⟨_, List.mem_map_of_mem member, ?_⟩⟩
      unfold Table.revise
      split <;> exact ⟨rfl, rfl, rfl⟩
  | _ => exact .refl _

theorem Informed.persists {history : List (Event registry)} {before after : Database}
    (informed : Informed history before) (persists : Persists before after) :
    Informed history after := by
  refine ⟨fun process id slug told => persists.registered (informed.builds process id slug told),
    fun process artifact told => ?_⟩
  obtain ⟨row, member, id, build, path⟩ := informed.entries process artifact told
  obtain ⟨kept, there, sameId, sameBuild, samePath⟩ := persists.artifacts row member
  exact ⟨kept, there, sameId.trans id, sameBuild.trans build, samePath.trans path⟩

theorem Course.told {event : Event registry} (course : Course state phase event) :
    ((phase.after event.operation event.result).bundle = phase.bundle ∨
      ∃ row ∈ event.after.database.bundles.rows,
        (phase.after event.operation event.result).bundle = some (row.id, row.slug)) ∧
    ((phase.after event.operation event.result).entry = phase.entry ∨
      ∃ row ∈ event.after.database.artifacts.rows,
        (phase.after event.operation event.result).entry = some row) := by
  cases course with
  | quiet quiet => exact ⟨.inl (by rw [quiet.knows]), .inl (by rw [quiet.knows])⟩
  | named member => exact ⟨.inr ⟨_, member, rfl⟩, .inl rfl⟩
  | found member => exact ⟨.inl rfl, .inr ⟨_, member, rfl⟩⟩
  | _ => exact ⟨.inl rfl, .inl rfl⟩

theorem Informed.step {event : Event registry} {older : List (Event registry)}
    (informed : Informed older event.before.database)
    (course : Course state (known event.process older) event) :
    Informed (event :: older) event.after.database := by
  have kept := informed.persists course.persists
  constructor
  · intro process id slug told
    by_cases same : event.process = process
    · subst same
      rw [known_own] at told
      rcases course.told.1 with unchanged | ⟨row, member, just⟩
      · exact kept.builds _ id slug (unchanged ▸ told)
      · rw [just] at told
        cases told
        exact ⟨row, member, rfl, rfl⟩
    · rw [known_other same] at told
      exact kept.builds process id slug told
  · intro process artifact told
    by_cases same : event.process = process
    · subst same
      rw [known_own] at told
      rcases course.told.2 with unchanged | ⟨row, member, just⟩
      · exact kept.entries _ artifact (unchanged ▸ told)
      · rw [just] at told
        cases told
        exact ⟨_, member, rfl, rfl, rfl⟩
    · rw [known_other same] at told
      exact kept.entries process artifact told

/-! ## One artifact -/

section Artifact

variable {bundle : Bundle} {relativePath : String}

theorem files_off_manifest (slug relativePath : String) :
    OffManifest (joinFiles (filesPath slug) relativePath) := by
  intro other
  have apart := @not_within_files other slug "artifacts.json" (by decide) (segments relativePath)
  exact ⟨not_within_files (by decide) _, fun same => apart ⟨[], by rw [List.append_nil]; exact same.symm⟩⟩

theorem Course.once {event : Event registry} (course : Course state phase event) :
    ((phase.after event.operation event.result).read = phase.read ∨ phase.read = none) ∧
    ((phase.after event.operation event.result).placed = phase.placed ∨
      phase.placed = none) := by
  cases course with
  | quiet quiet => exact ⟨.inl (by rw [quiet.knows]), .inl (by rw [quiet.knows])⟩
  | placed temp unplaced => exact ⟨.inl rfl, .inr unplaced⟩
  | read unread => exact ⟨.inr unread, .inl rfl⟩
  | _ => exact ⟨.inl rfl, .inl rfl⟩

def HashRight (state : State) (bundle : Bundle) (relativePath : String) (service : Service) :
    Prop :=
  ∀ artifact ∈ service.database.artifacts.rows,
    Sql.at_ bundle.id relativePath artifact = true → ∃ content,
      service.disk.find (joinFiles (filesPath bundle.slug) relativePath) = some (.file content) ∧
      artifact.sha256 = some (state.sha256 content)

def SizeRight (bundle : Bundle) (relativePath : String) (service : Service) : Prop :=
  ∀ artifact ∈ service.database.artifacts.rows,
    Sql.at_ bundle.id relativePath artifact = true → ∃ content,
      service.disk.find (joinFiles (filesPath bundle.slug) relativePath) = some (.file content) ∧
      artifact.size = content.length

/-- What a process knows of the file at the path is so unless another was put there. -/
structure Watched (path : List String) (history : List (Event registry)) (disk : Builds) :
    Prop where
  read : ∀ process, readSince path process history = true → ∃ content,
    (known process history).read = some (path, content) ∧ disk.find path = some (.file content)
  placed : ∀ process, putLast path process history = true → ∃ content,
    (known process history).placed = some (path, content.length) ∧
      disk.find path = some (.file content)

theorem Watched.start (path : List String) (disk : Builds) : Watched path [] disk :=
  ⟨by rintro _ ⟨⟩, by rintro _ ⟨⟩⟩

theorem known_read_once {event : Event registry} {older : List (Event registry)}
    (course : Course state (known event.process older) event) {process : Nat}
    {fact : List String × Bytes} (read : (known process older).read = some fact) :
    (known process (event :: older)).read = some fact := by
  by_cases same : event.process = process
  · subst same
    rw [known_own]
    rcases course.once.1 with kept | none
    · rw [kept, read]
    · rw [none] at read
      cases read
  · rw [known_other same, read]

theorem known_placed_once {event : Event registry} {older : List (Event registry)}
    (course : Course state (known event.process older) event) {process : Nat}
    {fact : List String × Nat} (placed : (known process older).placed = some fact) :
    (known process (event :: older)).placed = some fact := by
  by_cases same : event.process = process
  · subst same
    rw [known_own]
    rcases course.once.2 with kept | none
    · rw [kept, placed]
    · rw [none] at placed
      cases placed
  · rw [known_other same, placed]

theorem Staged.spares_files {event : Event registry} {older : List (Event registry)}
    (staged : Staged older event.before)
    (course : Course state (known event.process older) event) {slug relativePath : String}
    (unput : puts (joinFiles (filesPath slug) relativePath) event = false) {content : Bytes}
    (there : event.before.disk.find (joinFiles (filesPath slug) relativePath) =
      some (.file content)) :
    event.after.disk.find (joinFiles (filesPath slug) relativePath) = some (.file content) := by
  rw [course.spares (files_off_manifest slug relativePath) ?_ ?_ unput (by rw [there]; rfl), there]
  · exact fun own written temp => (staged.holding _ own written temp).1
  · rintro own ⟨build, number, -, rfl⟩
    exact upload_not_within_files build slug number _

theorem Watched.step {event : Event registry} {older : List (Event registry)}
    {slug relativePath : String} (staged : Staged older event.before)
    (course : Course state (known event.process older) event)
    (watched : Watched (joinFiles (filesPath slug) relativePath) older event.before.disk) :
    Watched (joinFiles (filesPath slug) relativePath) (event :: older) event.after.disk := by
  constructor
  · intro process since
    simp only [readSince, Bool.and_eq_true, Bool.not_eq_true', Bool.or_eq_true,
      decide_eq_true_eq] at since
    obtain ⟨unput, ⟨rfl, reads⟩ | before⟩ := since
    · rw [known_own]
      cases course with
      | quiet quiet =>
          rw [quiet.reads] at reads
          cases reads
      | read unread made =>
          obtain rfl := of_decide_eq_true reads
          exact ⟨_, rfl, made⟩
      | _ => cases reads
    · obtain ⟨content, read, there⟩ := watched.read process before
      exact ⟨content, known_read_once course read, staged.spares_files course unput there⟩
  · intro process last
    unfold putLast at last
    split at last
    · rename_i put
      obtain rfl := of_decide_eq_true last
      rw [known_own]
      cases course with
      | quiet quiet =>
          rw [quiet.puts] at put
          cases put
      | placed temp unplaced at_ made =>
          obtain rfl := of_decide_eq_true put
          obtain ⟨-, content, there, length⟩ := staged.holding _ _ _ temp
          refine ⟨content, ?_, (Tree.rename_puts made).trans there⟩
          simp only [ContentPhase.after, temp, Option.map_some, length]
      | _ => cases put
    · rename_i unput
      obtain ⟨content, placed, there⟩ := watched.placed process last
      exact ⟨content, known_placed_once course placed,
        staged.spares_files course (Bool.eq_false_iff.mpr unput) there⟩

theorem Informed.path_eq {history : List (Event registry)} {database : Database}
    (informed : Informed history database) (registered : Registered database bundle.id bundle.slug)
    {process : Nat} {path : List String}
    (there : (known process history).At bundle.id relativePath path) :
    path = joinFiles (filesPath bundle.slug) relativePath := by
  obtain ⟨slug, told, rfl⟩ := there
  rw [(informed.builds process bundle.id slug told).slug_eq registered]

theorem Course.keeps_hash {event : Event registry} (course : Course state phase event)
    (unset : setsHash bundle.id relativePath event = false) {artifact : BundleArtifact}
    (member : artifact ∈ event.after.database.artifacts.rows)
    (here : Sql.at_ bundle.id relativePath artifact = true) :
    ∃ old ∈ event.before.database.artifacts.rows, Sql.at_ bundle.id relativePath old = true ∧
      old.sha256 = artifact.sha256 := by
  cases course with
  | quiet quiet => exact ⟨artifact, quiet.artifacts ▸ member, here, rfl⟩
  | @upserted process service bundleId entry database records made =>
      rcases Sql.mem_upsert made member with ⟨there, -⟩ | ⟨-, old⟩
      · obtain ⟨build, name⟩ := Sql.at_iff.mp there
        obtain ⟨same, path⟩ := Sql.at_iff.mp here
        simp [setsHash, ← build, ← name, same, path] at unset
      · exact ⟨artifact, old, here, rfl⟩
  | @rehashed process service id sha256 rehashed =>
      obtain ⟨old, there, rfl⟩ := List.mem_map.mp member
      unfold Table.revise at here ⊢
      split
      · rename_i chosen
        rw [if_pos chosen] at here
        have found : service.database.artifacts.find id = some old :=
          Table.find_eq_some.mpr ⟨there, of_decide_eq_true chosen⟩
        have other : Sql.at_ bundle.id relativePath old = true := here
        simp [setsHash, found, other] at unset
      · rename_i other
        rw [if_neg other] at here
        exact ⟨old, there, here, rfl⟩
  | _ => exact ⟨artifact, member, here, rfl⟩

theorem Course.keeps_size {event : Event registry} (course : Course state phase event)
    (unset : setsSize bundle.id relativePath event = false) {artifact : BundleArtifact}
    (member : artifact ∈ event.after.database.artifacts.rows)
    (here : Sql.at_ bundle.id relativePath artifact = true) :
    ∃ old ∈ event.before.database.artifacts.rows, Sql.at_ bundle.id relativePath old = true ∧
      old.size = artifact.size := by
  cases course with
  | quiet quiet => exact ⟨artifact, quiet.artifacts ▸ member, here, rfl⟩
  | @upserted process service bundleId entry database records made =>
      rcases Sql.mem_upsert made member with ⟨there, -⟩ | ⟨-, old⟩
      · obtain ⟨build, name⟩ := Sql.at_iff.mp there
        obtain ⟨same, path⟩ := Sql.at_iff.mp here
        simp [setsSize, ← build, ← name, same, path] at unset
      · exact ⟨artifact, old, here, rfl⟩
  | rehashed =>
      obtain ⟨old, there, rfl⟩ := List.mem_map.mp member
      refine ⟨old, there, ?_, ?_⟩
      · unfold Table.revise at here
        split at here <;> exact here
      · unfold Table.revise
        split <;> rfl
  | _ => exact ⟨artifact, member, here, rfl⟩

theorem hashRight_step {event : Event registry} {older : List (Event registry)} {start : Prop}
    (staged : Staged older event.before) (informed : Informed older event.before.database)
    (registered : Registered event.before.database bundle.id bundle.slug)
    (watched : Watched (joinFiles (filesPath bundle.slug) relativePath) older event.before.disk)
    (course : Course state (known event.process older) event)
    (earlier : HashCurrent (joinFiles (filesPath bundle.slug) relativePath) bundle.id
      relativePath start older → HashRight state bundle relativePath event.before)
    (current : HashCurrent (joinFiles (filesPath bundle.slug) relativePath) bundle.id
      relativePath start (event :: older)) : HashRight state bundle relativePath event.after := by
  unfold HashCurrent at current
  split at current
  · -- the process that sets the hash has read the file that lies there
    rename_i sets
    obtain ⟨content, read, there⟩ := watched.read event.process current
    cases course with
    | quiet quiet =>
        rw [quiet.hashes] at sets
        cases sets
    | upserted records made =>
        simp only [setsHash, Bool.and_eq_true, decide_eq_true_eq] at sets
        obtain ⟨rfl, rfl⟩ := sets
        obtain ⟨path, size, held, at_, -, -, heldRead, hash⟩ := records
        obtain rfl := informed.path_eq registered at_
        rw [read] at heldRead
        cases heldRead
        intro artifact member here
        rcases Sql.mem_upsert made member with ⟨-, same⟩ | ⟨elsewhere, -⟩
        · refine ⟨content, there, ?_⟩
          rw [← hash, ← same]
          rfl
        · rw [here] at elsewhere
          cases elsewhere
    | rehashed rehashed =>
        obtain ⟨entry, path, held, told, rfl, at_, heldRead, rfl⟩ := rehashed
        obtain ⟨found, present, chosen⟩ := (Option.any_eq_true _ _).mp sets
        obtain ⟨foundMem, foundId⟩ := Table.find_eq_some.mp present
        obtain ⟨row, rowMem, rowId, build, name⟩ := informed.entries _ _ told
        obtain rfl := Table.eq_of_key_eq rowMem foundMem (rowId.trans foundId.symm)
        obtain ⟨same, rfl⟩ := Sql.at_iff.mp chosen
        rw [← build, ← name, same] at at_
        obtain rfl := informed.path_eq registered at_
        rw [read] at heldRead
        cases heldRead
        intro artifact member here
        obtain ⟨old, oldMem, rfl⟩ := List.mem_map.mp member
        unfold Table.revise at here ⊢
        split
        · exact ⟨content, there, rfl⟩
        · -- no other row has the path of the artifact
          rename_i other
          rw [if_neg other] at here
          obtain ⟨oldBuild, oldPath⟩ := Sql.at_iff.mp here
          have slot : artifactLayout.slot old = some (row.bundleId, row.relativePath) := by
            rw [same, ← oldBuild, ← oldPath]
          obtain rfl := Table.eq_of_slot_eq oldMem rowMem slot rfl
          exact (other (decide_eq_true rowId)).elim
    | _ => cases sets
  · rename_i unset
    obtain ⟨unput, before⟩ := current
    intro artifact member here
    obtain ⟨old, oldMem, oldHere, same⟩ :=
      course.keeps_hash (Bool.eq_false_iff.mpr unset) member here
    obtain ⟨content, there, hash⟩ := earlier before old oldMem oldHere
    exact ⟨content, staged.spares_files course unput there, same ▸ hash⟩

theorem sizeRight_step {event : Event registry} {older : List (Event registry)} {start : Prop}
    (staged : Staged older event.before) (informed : Informed older event.before.database)
    (registered : Registered event.before.database bundle.id bundle.slug)
    (watched : Watched (joinFiles (filesPath bundle.slug) relativePath) older event.before.disk)
    (course : Course state (known event.process older) event)
    (earlier : SizeCurrent (joinFiles (filesPath bundle.slug) relativePath) bundle.id
      relativePath start older → SizeRight bundle relativePath event.before)
    (current : SizeCurrent (joinFiles (filesPath bundle.slug) relativePath) bundle.id
      relativePath start (event :: older)) : SizeRight bundle relativePath event.after := by
  unfold SizeCurrent at current
  split at current
  · -- the process that sets the size has put the file there
    rename_i sets
    obtain ⟨content, placed, there⟩ := watched.placed event.process current
    cases course with
    | quiet quiet =>
        rw [quiet.sizes] at sets
        cases sets
    | upserted records made =>
        simp only [setsSize, Bool.and_eq_true, decide_eq_true_eq] at sets
        obtain ⟨rfl, rfl⟩ := sets
        obtain ⟨path, size, held, at_, heldPlaced, counted, -, -⟩ := records
        obtain rfl := informed.path_eq registered at_
        rw [placed] at heldPlaced
        cases heldPlaced
        intro artifact member here
        rcases Sql.mem_upsert made member with ⟨-, same⟩ | ⟨elsewhere, -⟩
        · refine ⟨content, there, ?_⟩
          rw [← counted, ← same]
          rfl
        · rw [here] at elsewhere
          cases elsewhere
    | _ => cases sets
  · rename_i unset
    obtain ⟨unput, before⟩ := current
    intro artifact member here
    obtain ⟨old, oldMem, oldHere, same⟩ :=
      course.keeps_size (Bool.eq_false_iff.mpr unset) member here
    obtain ⟨content, there, size⟩ := earlier before old oldMem oldHere
    exact ⟨content, staged.spares_files course unput there, same ▸ size⟩

end Artifact

end Courses

structure Accounted (state : State) (start : Service) (bundle : Bundle) (relativePath : String)
    (history : List (Event registry)) (service : Service) : Prop where
  staged : Staged history service
  informed : Informed history service.database
  registered : Registered service.database bundle.id bundle.slug
  watched : Watched (joinFiles (filesPath bundle.slug) relativePath) history service.disk
  hash : HashCurrent (joinFiles (filesPath bundle.slug) relativePath) bundle.id relativePath
    (HashRight state bundle relativePath start) history → HashRight state bundle relativePath service
  size : SizeCurrent (joinFiles (filesPath bundle.slug) relativePath) bundle.id relativePath
    (SizeRight bundle relativePath start) history → SizeRight bundle relativePath service

theorem Accounted.step {state : State} {start : Service} {bundle : Bundle}
    {relativePath : String} {event : Event registry} {older : List (Event registry)}
    (accounted : Accounted state start bundle relativePath older event.before)
    (course : Course state (known event.process older) event) :
    Accounted state start bundle relativePath (event :: older) event.after where
  staged := accounted.staged.step course
  informed := accounted.informed.step course
  registered := course.persists.registered accounted.registered
  watched := accounted.watched.step accounted.staged course
  hash := hashRight_step accounted.staged accounted.informed accounted.registered
    accounted.watched course accounted.hash
  size := sizeRight_step accounted.staged accounted.informed accounted.registered
    accounted.watched course accounted.size

abbrev ContentPool := Pool registry ContentRequest (Except AppError Reply)

/-- After every interleaving of uploads and rehashes in which a row's hash was set last by a
process that had read the file that lies there, and its size by the one that put the file
there, both are those of the file. -/
theorem recorded_hash_served (state : State) (start : Service)
    {moves : List (Move ContentRequest)} {final : ContentPool}
    (reached : run (Pool.move (handleContent state)) (.initial start) moves = some final)
    {bundle : Bundle} (registered : bundle ∈ start.database.bundles.rows) {relativePath : String}
    (hash : HashCurrent (joinFiles (filesPath bundle.slug) relativePath) bundle.id relativePath
      (HashRight state bundle relativePath start) final.history)
    (size : SizeCurrent (joinFiles (filesPath bundle.slug) relativePath) bundle.id relativePath
      (SizeRight bundle relativePath start) final.history) :
    HashRight state bundle relativePath final.shared ∧
      SizeRight bundle relativePath final.shared := by
  have accounted : Accounted state start bundle relativePath final.history final.shared := by
    refine @Traced.invariant registry start final.shared final.history
      (Accounted state start bundle relativePath) (Pool.traced_of_run reached) ?_ ?_
    · exact ⟨.start start, .start _, ⟨bundle, registered, rfl, rfl⟩, .start _ _, id, id⟩
    · intro event older suffix happened accounted
      obtain ⟨request, -, allowed⟩ :=
        Pool.allowed_in_phase (fun request => handleContent_follows state request) reached suffix
      rw [phase_eq_known] at allowed
      exact accounted.step (course_of_allowed allowed happened)
  exact ⟨accounted.hash hash, accounted.size size⟩

def onePack : Service :=
  match Sql.insertBundle "pack" "pack" Database.empty with
  | .ok (_, database) => .boot database .empty
  | .error _ => .boot .empty .empty

def packBundle : Bundle := ⟨1, "pack", "pack", none, none, .draft, 0, 0, none⟩

def shownState : State where
  publicPrefix := ""
  sha256 := fun bytes => .ofList (bytes.map fun byte => .ofNat byte.toNat)
  toJson := fun manifest => manifest.flatMap fun group => group.2.flatMap fun entry =>
    entry.path.toList.map fun char => .ofNat char.toNat
  openZip := fun _ => .error ""
  databaseText := fun _ => ""
  modifiedTime := fun _ => none

def oneFile (name : String) (content : Bytes) : Multipart where
  fields := [⟨some "file", some name, [content], none, .ok ""⟩]
  failure := none

def twoUploads : List (Move ContentRequest) :=
  [.start (.upload "pack" (oneFile "a.jar" [65])),
   .start (.upload "pack" (oneFile "a.jar" [66, 66]))]

def uploadsInTurn : List (Move ContentRequest) :=
  twoUploads ++ List.replicate 14 (.advance 0) ++ List.replicate 14 (.advance 1)

theorem recorded_hash_served_in_turn :
    ∃ final, run (Pool.move (handleContent shownState)) (.initial onePack) uploadsInTurn =
        some final ∧ final.shared.database.artifacts.rows.length = 1 ∧
      HashRight shownState packBundle "a.jar" final.shared ∧
      SizeRight packBundle "a.jar" final.shared := by
  have current : ((run (Pool.move (handleContent shownState)) (.initial onePack)
      uploadsInTurn).map fun final =>
        decide (final.shared.database.artifacts.rows.length = 1 ∧
          HashCurrent (joinFiles (filesPath "pack") "a.jar") 1 "a.jar" False final.history ∧
          SizeCurrent (joinFiles (filesPath "pack") "a.jar") 1 "a.jar" False final.history)) =
      some true := by decide +kernel
  obtain ⟨final, reached, holds⟩ := Option.map_eq_some_iff.mp current
  obtain ⟨one, hash, size⟩ := of_decide_eq_true holds
  have registered : packBundle ∈ onePack.database.bundles.rows := by decide +kernel
  exact ⟨final, reached, one,
    recorded_hash_served shownState onePack reached registered (.of_set hash) (.of_set size)⟩

/-- The first upload has hashed its file when the second replaces it, and writes its row
when the second has ended. -/
def uploadsCrossing : List (Move ContentRequest) :=
  twoUploads ++ List.replicate 9 (.advance 0) ++ List.replicate 14 (.advance 1) ++
    List.replicate 5 (.advance 0)

theorem recorded_hash_stale :
    ¬∀ (state : State) (start : Service) (moves : List (Move ContentRequest))
      (final : ContentPool),
      run (Pool.move (handleContent state)) (.initial start) moves = some final →
      final.succeeded = true → ∀ bundle ∈ start.database.bundles.rows, ∀ relativePath,
        HashRight state bundle relativePath start → SizeRight bundle relativePath start →
        HashRight state bundle relativePath final.shared ∧
          SizeRight bundle relativePath final.shared := by
  intro always
  have stale : ((run (Pool.move (handleContent shownState)) (.initial onePack)
      uploadsCrossing).map fun final => decide (final.succeeded = true ∧
        final.shared.disk.find (joinFiles (filesPath "pack") "a.jar") =
          some (.file [66, 66]) ∧
        ∃ artifact ∈ final.shared.database.artifacts.rows,
          Sql.at_ 1 "a.jar" artifact = true ∧ artifact.sha256 = some "A")) = some true := by
    decide +kernel
  obtain ⟨final, reached, holds⟩ := Option.map_eq_some_iff.mp stale
  obtain ⟨ended, there, artifact, member, here, hash⟩ := of_decide_eq_true holds
  have registered : packBundle ∈ onePack.database.bundles.rows := by decide +kernel
  have unfiled : onePack.database.artifacts.rows = [] := by decide +kernel
  have right := always shownState onePack uploadsCrossing final reached ended packBundle registered
    "a.jar" (by rw [HashRight, unfiled]; simp) (by rw [SizeRight, unfiled]; simp)
  obtain ⟨content, found, told⟩ := right.1 artifact member here
  have same : some (Node.file content) = some (Node.file [66, 66]) := found.symm.trans there
  cases same
  rw [hash] at told
  revert told
  decide

end Loontail.Bundles
