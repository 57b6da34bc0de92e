import Loontail.Bundles.RegenerationProtocol
import Loontail.Guarantees.RecordedHashes

/-! # Whether the manifest converges

A regeneration reads the rows, looks for their files, writes the manifest and then the
counters, all in steps of their own. What it leaves is right while nothing of what it has
read and found is overtaken. -/

namespace Loontail.Bundles

open Concurrency Disk Relational

/-! ## What a regeneration depends on -/

def listing (id : Uuid) (service : Service) : List BundleArtifact :=
  Sql.listArtifacts id service.database

def onDisk (slug : String) (service : Service) (artifact : BundleArtifact) : Bool :=
  service.disk.present (joinFiles (filesPath slug) artifact.relativePath)

/-- The rows of the build in their order, each with whether it is on disk. -/
def inventory (id : Uuid) (slug : String) (service : Service) : List (BundleArtifact × Bool) :=
  (listing id service).map fun artifact => (artifact, onDisk slug service artifact)

/-- What `build_manifest` gives for the rows that are on disk. -/
def presentManifest (state : State) (id : Uuid) (slug : String) (service : Service) :
    BuiltManifest :=
  buildManifest (listing id service) slug state.publicPrefix (onDisk slug service)

theorem buildManifest_congr {artifacts : List BundleArtifact} {slug publicPrefix : String}
    {existing other : BundleArtifact → Bool}
    (same : ∀ artifact ∈ artifacts, existing artifact = other artifact) :
    buildManifest artifacts slug publicPrefix existing =
      buildManifest artifacts slug publicPrefix other := by
  unfold buildManifest
  refine List.foldl_ext _ _ _ fun built artifact member => ?_
  simp only [same artifact member]

theorem presentManifest_eq {state : State} {id : Uuid} {slug : String} {before after : Service}
    (same : inventory id slug before = inventory id slug after) :
    presentManifest state id slug before = presentManifest state id slug after := by
  have rows : listing id before = listing id after := by
    have first := congrArg (List.map Prod.fst) same
    simpa [inventory, List.map_map, Function.comp_def] using first
  unfold inventory at same
  rw [rows] at same
  unfold presentManifest
  rw [rows]
  refine buildManifest_congr fun artifact member => ?_
  exact congrArg Prod.snd (List.map_inj_left.mp same artifact member)

/-! ## The events of a regeneration -/

def lists (id : Uuid) : Event registry → Bool
  | ⟨_, _, .statement (.listArtifacts other), .ok _, _⟩ => other = id
  | _ => false

def probes (slug : String) : Event registry → Bool
  | ⟨_, _, .disk (.probe filesRoot _), .ok _, _⟩ => filesRoot = filesPath slug
  | _ => false

def writesManifest (slug : String) : Event registry → Bool
  | ⟨_, _, .disk (.writeManifest other _), .ok _, _⟩ => other = slug
  | _ => false

def finishes (id : Uuid) : Event registry → Bool
  | ⟨_, _, .statement (.finishRegeneration other ..), .ok _, _⟩ => other = id
  | _ => false

def listedSince (id : Uuid) (process : Nat) : List (Event registry) → Bool
  | [] => false
  | event :: older => event.process = process && lists id event ||
      listing id event.before = listing id event.after && listedSince id process older

def probedSince (id : Uuid) (slug : String) (process : Nat) : List (Event registry) → Bool
  | [] => false
  | event :: older => event.process = process && probes slug event ||
      inventory id slug event.before = inventory id slug event.after &&
        probedSince id slug process older

def upToDate (id : Uuid) (slug : String) (process : Nat) (history : List (Event registry)) :
    Bool := listedSince id process history && probedSince id slug process history

/-- The last that wrote was up to date, and the inventory has not changed since; where
nobody wrote it was right at the start. -/
def Current (writes : Event registry → Bool) (id : Uuid) (slug : String) (start : Prop) :
    List (Event registry) → Prop
  | [] => start
  | event :: older =>
      if writes event then upToDate id slug event.process older = true
      else inventory id slug event.before = inventory id slug event.after ∧
        Current writes id slug start older

instance Current.decidable {writes : Event registry → Bool} {id : Uuid} {slug : String}
    {start : Prop} [Decidable start] : (history : List (Event registry)) →
    Decidable (Current writes id slug start history)
  | [] => inferInstanceAs (Decidable start)
  | event :: older =>
      have : Decidable (Current writes id slug start older) := decidable older
      inferInstanceAs (Decidable (if writes event then
          upToDate id slug event.process older = true
        else inventory id slug event.before = inventory id slug event.after ∧
          Current writes id slug start older))

theorem Current.of_written {writes : Event registry → Bool} {id : Uuid} {slug : String}
    {start : Prop} {history : List (Event registry)}
    (current : Current writes id slug False history) : Current writes id slug start history := by
  induction history with
  | nil => exact current.elim
  | cons event older induction =>
      unfold Current at current ⊢
      split
      · rename_i wrote
        rw [if_pos wrote] at current
        exact current
      · rename_i other
        rw [if_neg other] at current
        exact ⟨current.1, induction current.2⟩

/-! ## What a step can do -/

section Courses

variable {state : State} {phase : RegenerationPhase} {process : Nat} {before after : Service}

structure Aside (phase : RegenerationPhase) (event : Event registry) : Prop where
  bundle : (phase.after event.operation event.result).bundle = phase.bundle ∨ phase.bundle = none
  rows : (phase.after event.operation event.result).rows = phase.rows
  present : (phase.after event.operation event.result).present = phase.present
  lists : ∀ id, lists id event = false
  probes : ∀ slug, probes slug event = false
  writes : ∀ slug, writesManifest slug event = false
  finishes : ∀ id, finishes id event = false
  manifests : ∀ slug, (event.before.disk.find (manifestPath slug)).isSome →
    event.after.disk.find (manifestPath slug) = event.before.disk.find (manifestPath slug)
  counters : ∀ row ∈ event.after.database.bundles.rows,
    ∃ old ∈ event.before.database.bundles.rows, old.id = row.id ∧
      old.filesCount = row.filesCount ∧ old.totalSize = row.totalSize

inductive RegenerationCourse (state : State) (phase : RegenerationPhase) :
    Event registry → Prop where
  | aside {event : Event registry} (aside : Aside phase event) :
      RegenerationCourse state phase event
  | listed {process : Nat} {service : Service} {id : Uuid} {slug : String}
      (unread : phase.rows = none) (unfound : phase.present = none)
      (bundle : phase.bundle = some (id, slug)) :
      RegenerationCourse state phase ⟨process, service, .statement (.listArtifacts id),
        .ok (listing id service), service⟩
  | probed {process : Nat} {service : Service} {id : Uuid} {slug : String}
      {rows : List BundleArtifact} (unfound : phase.present = none)
      (bundle : phase.bundle = some (id, slug)) (read : phase.rows = some rows) :
      RegenerationCourse state phase
        ⟨process, service, .disk (.probe (filesPath slug) (rows.map (·.relativePath))),
          .ok ((rows.map (·.relativePath)).filter fun path =>
            service.disk.present (joinFiles (filesPath slug) path)), service⟩
  | wrote {process : Nat} {service : Service} {id : Uuid} {slug : String}
      {built : BuiltManifest} {disk : Builds} (builds : phase.Builds state id slug built)
      (written : disk.find (manifestPath slug) = some (.file (state.toJson built.manifest)))
      (others : ∀ other, other ≠ slug → (service.disk.find (manifestPath other)).isSome →
        disk.find (manifestPath other) = service.disk.find (manifestPath other))
      (files : ∀ build relativePath, disk.find (joinFiles (filesPath build) relativePath) =
        service.disk.find (joinFiles (filesPath build) relativePath)) :
      RegenerationCourse state phase
        ⟨process, service, .disk (.writeManifest slug (state.toJson built.manifest)), .ok (),
          { service with disk }⟩
  | finished {process : Nat} {service : Service} {id : Uuid} {slug : String}
      {built : BuiltManifest} {bundle : Bundle} {database : Database}
      (builds : phase.Builds state id slug built)
      (made : Sql.finishRegeneration id built.filesCount built.totalSize service.database =
        .ok (bundle, database)) :
      RegenerationCourse state phase
        ⟨process, service, .statement (.finishRegeneration id built.filesCount built.totalSize),
          .ok bundle, { service with database }⟩

theorem aside_refused (statement : Statement) (error : DatabaseError) :
    Aside phase ⟨process, before, .statement statement, .error error, before⟩ := by
  cases statement <;> exact ⟨.inl rfl, rfl, rfl, fun _ => rfl, fun _ => rfl, fun _ => rfl,
    fun _ => rfl, fun _ _ => rfl, fun row member => ⟨row, member, rfl, rfl, rfl⟩⟩

theorem aside_failed (call : DiskCall) (error : IoError) {disk : Builds}
    (manifests : ∀ slug, (before.disk.find (manifestPath slug)).isSome →
      disk.find (manifestPath slug) = before.disk.find (manifestPath slug)) :
    Aside phase ⟨process, before, .disk call, .error error, { before with disk }⟩ := by
  cases call <;> exact ⟨.inl rfl, rfl, rfl, fun _ => rfl, fun _ => rfl, fun _ => rfl,
    fun _ => rfl, manifests, fun row member => ⟨row, member, rfl, rfl, rfl⟩⟩

theorem aside_filing {statement : Statement} {reply : statement.Reply} {database : Database}
    (free : (Operation.statement statement).Free) (filing : statement.Filing)
    (executed : statement.execute before.database = .ok (reply, database)) :
    Aside phase ⟨process, before, .statement statement, .ok reply, { before with database }⟩ := by
  have counters : ∀ row ∈ database.bundles.rows, ∃ old ∈ before.database.bundles.rows,
      old.id = row.id ∧ old.filesCount = row.filesCount ∧ old.totalSize = row.totalSize := by
    intro row member
    rw [filing.bundles executed] at member
    exact ⟨row, member, rfl, rfl, rfl⟩
  cases statement with
  | findBySlug => exact free.elim
  | listArtifacts => exact free.elim
  | finishRegeneration => exact free.elim
  | _ => exact ⟨.inl rfl, rfl, rfl, fun _ => rfl, fun _ => rfl, fun _ => rfl, fun _ => rfl,
      fun _ _ => rfl, counters⟩

theorem course_of_query {statement : Statement}
    {result : (Operation.statement statement).Result}
    (allowed : phase.allows state (.statement statement))
    (occurs : registry.Occurs before (.statement statement) result after) :
    RegenerationCourse state phase ⟨process, before, .statement statement, result, after⟩ := by
  rcases occurs_statement occurs with ⟨reply, database, rfl, executed, rfl⟩ | ⟨error, rfl, rfl⟩
  · cases statement with
    | findBySlug slug =>
        cases executed
        refine .aside ⟨.inr allowed, ?_, ?_, fun _ => rfl, fun _ => rfl, fun _ => rfl,
          fun _ => rfl, fun _ _ => rfl, fun row member => ⟨row, member, rfl, rfl, rfl⟩⟩
        · cases Sql.findBySlug slug before.database <;> rfl
        · cases Sql.findBySlug slug before.database <;> rfl
    | listArtifacts id =>
        cases executed
        obtain ⟨unread, unfound, slug, bundle⟩ := allowed
        exact .listed unread unfound bundle
    | finishRegeneration id filesCount totalSize =>
        obtain ⟨slug, built, builds, rfl, rfl⟩ := allowed
        exact .finished builds executed
    | setStatus id status processingError =>
        cases executed
        refine .aside ⟨.inl rfl, rfl, rfl, fun _ => rfl, fun _ => rfl, fun _ => rfl,
          fun _ => rfl, fun _ _ => rfl, fun row member => ?_⟩
        obtain ⟨old, there, rfl⟩ := List.mem_map.mp member
        refine ⟨old, there, ?_⟩
        unfold Table.revise
        split <;> exact ⟨rfl, rfl, rfl⟩
    | insertBundle => exact allowed.elim
    | updateBundleMeta => exact allowed.elim
    | deleteBundle => exact allowed.elim
    | _ => exact .aside (aside_filing allowed trivial executed)
  · exact .aside (aside_refused statement error)

theorem course_of_call {call : DiskCall} {result : (Operation.disk call).Result}
    (allowed : phase.allows state (.disk call))
    (occurs : registry.Occurs before (.disk call) result after) :
    RegenerationCourse state phase ⟨process, before, .disk call, result, after⟩ := by
  rcases occurs_disk occurs with ⟨rfl, rfl⟩ | ⟨rfl, rfl⟩
  · have free : call.Free → RegenerationCourse state phase
        ⟨process, before, .disk call, (call.perform before.disk).1,
          { before with disk := (call.perform before.disk).2 }⟩ := by
      intro free
      have manifests := fun slug => @DiskCall.perform_spares before.disk call _ (free.spares slug)
      cases call with
      | probe => exact free.elim
      | writeManifest => exact free.elim
      | _ => exact .aside ⟨.inl rfl, rfl, rfl, fun _ => rfl, fun _ => rfl, fun _ => rfl,
          fun _ => rfl, manifests, fun row member => ⟨row, member, rfl, rfl, rfl⟩⟩
    cases call with
    | probe filesRoot relativePaths =>
        obtain ⟨unfound, id, slug, rows, bundle, read, rfl, rfl⟩ := allowed
        exact .probed unfound bundle read
    | writeManifest slug json =>
        obtain ⟨id, built, builds, rfl⟩ := allowed
        have others : ∀ other, other ≠ slug → (before.disk.find (manifestPath other)).isSome →
            (DiskCall.replaceManifest before.disk slug (state.toJson built.manifest)).2.find
              (manifestPath other) = before.disk.find (manifestPath other) := by
          intro other different there
          refine DiskCall.replaceManifest_keeps (DiskCall.staged_not_within slug other) ?_ there
          intro same
          exact different (List.cons.inj same).1
        have files : ∀ build relativePath,
            (DiskCall.replaceManifest before.disk slug (state.toJson built.manifest)).2.find
              (joinFiles (filesPath build) relativePath) =
                before.disk.find (joinFiles (filesPath build) relativePath) :=
          fun build relativePath => DiskCall.replaceManifest_files before.disk slug
            (state.toJson built.manifest) build (segments relativePath)
        rcases DiskCall.replaceManifest_cases before.disk slug (state.toJson built.manifest) with
          ⟨disk, replaced, written⟩ | ⟨error, disk, replaced, kept⟩
        · rw [replaced] at others files
          simp only [DiskCall.perform, replaced]
          exact .wrote builds written others files
        · rw [replaced] at others
          simp only [DiskCall.perform, replaced]
          refine .aside (aside_failed _ error fun other there => ?_)
          by_cases same : other = slug
          · subst same
            exact kept there
          · exact others other same there
    | _ => exact free allowed
  · exact .aside (aside_failed call .device fun _ _ => rfl)

theorem regenerationCourse_of_allowed {event : Event registry}
    (allowed : phase.allows state event.operation) (happened : event.Happened) :
    RegenerationCourse state phase event := by
  rcases event with ⟨process, before, operation, result, after⟩
  have occurs : registry.Occurs before operation result after := happened
  cases operation with
  | statement statement => exact course_of_query allowed occurs
  | disk call => exact course_of_call allowed occurs
  | begin =>
      obtain rfl := occurs_begin occurs
      exact .aside ⟨.inl rfl, rfl, rfl, fun _ => rfl, fun _ => rfl, fun _ => rfl, fun _ => rfl,
        fun _ _ => rfl, fun row member => ⟨row, member, rfl, rfl, rfl⟩⟩
  | inside log statement =>
      obtain ⟨rfl, -⟩ := occurs_inside occurs
      exact .aside ⟨.inl rfl, rfl, rfl, fun _ => rfl, fun _ => rfl, fun _ => rfl, fun _ => rfl,
        fun _ _ => rfl, fun row member => ⟨row, member, rfl, rfl, rfl⟩⟩
  | newUpload =>
      obtain ⟨-, rfl⟩ := occurs_newUpload occurs
      exact .aside ⟨.inl rfl, rfl, rfl, fun _ => rfl, fun _ => rfl, fun _ => rfl, fun _ => rfl,
        fun _ _ => rfl, fun row member => ⟨row, member, rfl, rfl, rfl⟩⟩
  | commit log =>
      rcases occurs_commit occurs with ⟨database, -, replayed, rfl⟩ | ⟨error, -, rfl⟩
      · refine .aside ⟨.inl rfl, rfl, rfl, fun _ => rfl, fun _ => rfl, fun _ => rfl,
          fun _ => rfl, fun _ _ => rfl, fun row member => ?_⟩
        rw [replay_bundles allowed replayed] at member
        exact ⟨row, member, rfl, rfl, rfl⟩
      · exact .aside ⟨.inl rfl, rfl, rfl, fun _ => rfl, fun _ => rfl, fun _ => rfl,
          fun _ => rfl, fun _ _ => rfl, fun row member => ⟨row, member, rfl, rfl, rfl⟩⟩

end Courses

/-! ## What the regenerations know -/

section Knowledge

variable {state : State} {id : Uuid} {slug : String} {event : Event registry}
  {older : List (Event registry)}

theorem RegenerationCourse.once {phase : RegenerationPhase}
    (course : RegenerationCourse state phase event) :
    ((phase.after event.operation event.result).bundle = phase.bundle ∨ phase.bundle = none) ∧
    ((phase.after event.operation event.result).rows = phase.rows ∨ phase.rows = none) ∧
    ((phase.after event.operation event.result).present = phase.present ∨
      phase.present = none) := by
  cases course with
  | aside aside => exact ⟨aside.bundle, .inl aside.rows, .inl aside.present⟩
  | listed unread => exact ⟨.inl rfl, .inr unread, .inl rfl⟩
  | probed unfound => exact ⟨.inl rfl, .inl rfl, .inr unfound⟩
  | wrote => exact ⟨.inl rfl, .inl rfl, .inl rfl⟩
  | finished => exact ⟨.inl rfl, .inl rfl, .inl rfl⟩

theorem learned_kept {Fact : Type} {fact : RegenerationPhase → Option Fact}
    (once : fact ((learned state event.process older).after event.operation event.result) =
        fact (learned state event.process older) ∨
      fact (learned state event.process older) = none)
    {process : Nat} {value : Fact} (known : fact (learned state process older) = some value) :
    fact (learned state process (event :: older)) = some value := by
  by_cases own : event.process = process
  · subst own
    rw [learned_own]
    rcases once with kept | none
    · rw [kept, known]
    · rw [none] at known
      cases known
  · rw [learned_other own, known]

def foundPaths (id : Uuid) (slug : String) (service : Service) : List String :=
  ((listing id service).map (·.relativePath)).filter fun path =>
    service.disk.present (joinFiles (filesPath slug) path)

theorem foundPaths_eq {before after : Service}
    (same : inventory id slug before = inventory id slug after) :
    foundPaths id slug before = foundPaths id slug after := by
  have paths : ∀ service : Service, foundPaths id slug service =
      ((inventory id slug service).filter (·.2)).map fun entry => entry.1.relativePath := by
    intro service
    simp only [foundPaths, inventory, List.filter_map, List.map_map, Function.comp_def, onDisk]
  rw [paths, paths, same]

/-- What a process has read and found is so unless it was overtaken. -/
structure Overseen (state : State) (id : Uuid) (slug : String)
    (history : List (Event registry)) (service : Service) : Prop where
  listed : ∀ process, listedSince id process history = true →
    (∃ build, (learned state process history).bundle = some (id, build)) ∧
      (learned state process history).rows = some (listing id service)
  probed : ∀ process, probedSince id slug process history = true →
    (∃ build, (learned state process history).bundle = some (build, slug)) ∧
      ∃ present, (learned state process history).present = some present
  found : ∀ process, listedSince id process history = true →
    probedSince id slug process history = true →
    (learned state process history).present = some (foundPaths id slug service)

theorem Overseen.start (state : State) (id : Uuid) (slug : String) (service : Service) :
    Overseen state id slug [] service :=
  ⟨by rintro _ ⟨⟩, by rintro _ ⟨⟩, by rintro _ ⟨⟩⟩

theorem Overseen.step (overseen : Overseen state id slug older event.before)
    (course : RegenerationCourse state (learned state event.process older) event) :
    Overseen state id slug (event :: older) event.after := by
  obtain ⟨bundleOnce, rowsOnce, presentOnce⟩ := course.once
  have bundleKept : ∀ {process value}, (learned state process older).bundle = some value →
      (learned state process (event :: older)).bundle = some value :=
    fun told => @learned_kept _ _ _ _ RegenerationPhase.bundle bundleOnce _ _ told
  have rowsKept : ∀ {process value}, (learned state process older).rows = some value →
      (learned state process (event :: older)).rows = some value :=
    fun told => @learned_kept _ _ _ _ RegenerationPhase.rows rowsOnce _ _ told
  have presentKept : ∀ {process value}, (learned state process older).present = some value →
      (learned state process (event :: older)).present = some value :=
    fun told => @learned_kept _ _ _ _ RegenerationPhase.present presentOnce _ _ told
  constructor
  · intro process since
    simp only [listedSince, Bool.or_eq_true, Bool.and_eq_true, decide_eq_true_eq] at since
    rcases since with ⟨rfl, lists⟩ | ⟨same, before⟩
    · rw [learned_own]
      cases course with
      | aside aside =>
          rw [aside.lists] at lists
          cases lists
      | listed unread unfound bundle =>
          obtain rfl := of_decide_eq_true lists
          exact ⟨⟨_, bundle⟩, rfl⟩
      | _ => cases lists
    · obtain ⟨⟨build, bundle⟩, rows⟩ := overseen.listed process before
      exact ⟨⟨build, bundleKept bundle⟩, by rw [rowsKept rows, same]⟩
  · intro process since
    simp only [probedSince, Bool.or_eq_true, Bool.and_eq_true, decide_eq_true_eq] at since
    rcases since with ⟨rfl, probes⟩ | ⟨-, before⟩
    · rw [learned_own]
      cases course with
      | aside aside =>
          rw [aside.probes] at probes
          cases probes
      | probed unfound bundle read =>
          have root := of_decide_eq_true probes
          have name := (List.cons.inj root).1
          exact ⟨⟨_, name ▸ bundle⟩, _, rfl⟩
      | _ => cases probes
    · obtain ⟨⟨build, bundle⟩, present, found⟩ := overseen.probed process before
      exact ⟨⟨build, bundleKept bundle⟩, present, presentKept found⟩
  · intro process listedNow probedNow
    simp only [probedSince, Bool.or_eq_true, Bool.and_eq_true, decide_eq_true_eq] at probedNow
    simp only [listedSince, Bool.or_eq_true, Bool.and_eq_true, decide_eq_true_eq] at listedNow
    rcases probedNow with ⟨rfl, probes⟩ | ⟨same, probedBefore⟩
    · rw [learned_own]
      cases course with
      | aside aside =>
          rw [aside.probes] at probes
          cases probes
      | probed unfound bundle read =>
          -- the rows it looks for are those that there are
          rcases listedNow with ⟨-, lists⟩ | ⟨-, listedBefore⟩
          · cases lists
          · have root := of_decide_eq_true probes
            obtain ⟨-, told⟩ := overseen.listed _ listedBefore
            have rows := Option.some.inj (read.symm.trans told)
            simp only [RegenerationPhase.after, foundPaths, root, rows]
      | _ => cases probes
    · rcases listedNow with ⟨rfl, lists⟩ | ⟨-, listedBefore⟩
      · -- who reads the rows has not looked for files
        obtain ⟨-, present, found⟩ := overseen.probed _ probedBefore
        cases course with
        | aside aside =>
            rw [aside.lists] at lists
            cases lists
        | listed unread unfound bundle =>
            rw [unfound] at found
            cases found
        | _ => cases lists
      · rw [presentKept (overseen.found process listedBefore probedBefore), foundPaths_eq same]

theorem Overseen.builds {service : Service} {process : Nat} {build : Uuid} {name : String}
    {built : BuiltManifest} (overseen : Overseen state id slug older service)
    (current : upToDate id slug process older = true)
    (builds : (learned state process older).Builds state build name built) :
    build = id ∧ name = slug ∧ built = presentManifest state id slug service := by
  simp only [upToDate, Bool.and_eq_true] at current
  obtain ⟨listed, probed⟩ := current
  obtain ⟨rows, present, bundle, read, found, rfl⟩ := builds
  obtain ⟨⟨other, left⟩, readRows⟩ := overseen.listed process listed
  obtain ⟨⟨another, right⟩, -⟩ := overseen.probed process probed
  rw [bundle] at left right
  cases left
  cases right
  rw [read] at readRows
  cases readRows
  rw [overseen.found process listed probed] at found
  cases found
  refine ⟨rfl, rfl, buildManifest_congr fun artifact member => ?_⟩
  rw [Bool.eq_iff_iff, List.contains_iff_mem, foundPaths, List.mem_filter]
  exact ⟨fun both => both.2, fun there => ⟨List.mem_map_of_mem member, there⟩⟩

end Knowledge

/-! ## What a regeneration leaves -/

section Outcome

variable {state : State} {bundle : Bundle} {event : Event registry}
  {older : List (Event registry)} {start : Prop}

/-- `artifacts.json` is what is built of the rows that are on disk. -/
def ManifestRight (state : State) (bundle : Bundle) (service : Service) : Prop :=
  service.disk.find (manifestPath bundle.slug) = some (.file
    (state.toJson (presentManifest state bundle.id bundle.slug service).manifest))

def CountersRight (state : State) (bundle : Bundle) (service : Service) : Prop :=
  ∀ row ∈ service.database.bundles.rows, row.id = bundle.id →
    row.filesCount = (presentManifest state bundle.id bundle.slug service).filesCount ∧
    row.totalSize = (presentManifest state bundle.id bundle.slug service).totalSize

theorem inventory_eq {id : Uuid} {slug : String} {before after : Service}
    (rows : listing id after = listing id before)
    (files : ∀ relativePath, after.disk.find (joinFiles (filesPath slug) relativePath) =
      before.disk.find (joinFiles (filesPath slug) relativePath)) :
    inventory id slug before = inventory id slug after := by
  simp only [inventory, rows, onDisk, Tree.present, files]

theorem manifestRight_step
    (overseen : Overseen state bundle.id bundle.slug older event.before)
    (course : RegenerationCourse state (learned state event.process older) event)
    (earlier : Current (writesManifest bundle.slug) bundle.id bundle.slug start older →
      ManifestRight state bundle event.before)
    (current : Current (writesManifest bundle.slug) bundle.id bundle.slug start
      (event :: older)) : ManifestRight state bundle event.after := by
  unfold Current at current
  split at current
  · rename_i writes
    cases course with
    | aside aside =>
        rw [aside.writes] at writes
        cases writes
    | @wrote process service id slug built disk builds written others files =>
        have all : id = bundle.id ∧ slug = bundle.slug ∧
            built = presentManifest state bundle.id bundle.slug service :=
          overseen.builds current builds
        obtain ⟨rfl, rfl, rfl⟩ := all
        have same : presentManifest state bundle.id bundle.slug service =
            presentManifest state bundle.id bundle.slug { service with disk } :=
          presentManifest_eq (inventory_eq rfl (files bundle.slug))
        unfold ManifestRight
        rw [← same]
        exact written
    | _ => cases writes
  · rename_i other
    obtain ⟨same, before⟩ := current
    have right := earlier before
    unfold ManifestRight at right ⊢
    rw [← presentManifest_eq same, ← right]
    have there : (event.before.disk.find (manifestPath bundle.slug)).isSome := by
      rw [right]
      rfl
    cases course with
    | aside aside => exact aside.manifests bundle.slug there
    | wrote builds written others files =>
        refine others bundle.slug ?_ there
        rintro rfl
        exact other (decide_eq_true rfl)
    | _ => rfl

theorem countersRight_step
    (overseen : Overseen state bundle.id bundle.slug older event.before)
    (course : RegenerationCourse state (learned state event.process older) event)
    (earlier : Current (finishes bundle.id) bundle.id bundle.slug start older →
      CountersRight state bundle event.before)
    (current : Current (finishes bundle.id) bundle.id bundle.slug start (event :: older)) :
    CountersRight state bundle event.after := by
  unfold Current at current
  split at current
  · rename_i finishes
    cases course with
    | aside aside =>
        rw [aside.finishes] at finishes
        cases finishes
    | @finished process service id slug built row database builds made =>
        have all : id = bundle.id ∧ slug = bundle.slug ∧
            built = presentManifest state bundle.id bundle.slug service :=
          overseen.builds current builds
        obtain ⟨rfl, rfl, rfl⟩ := all
        unfold Sql.finishRegeneration Sql.reviseBundle at made
        split at made
        · cases made
        · cases made
          rintro row member same
          obtain ⟨old, there, rfl⟩ := List.mem_map.mp member
          unfold Table.revise at same ⊢
          split
          · exact ⟨rfl, rfl⟩
          · rename_i other
            rw [if_neg other] at same
            exact (other (decide_eq_true same)).elim
    | _ => cases finishes
  · rename_i other
    obtain ⟨same, before⟩ := current
    have right := earlier before
    unfold CountersRight at right ⊢
    rw [← presentManifest_eq same]
    intro row member named
    cases course with
    | aside aside =>
        obtain ⟨old, there, id, count, size⟩ := aside.counters row member
        rw [← count, ← size]
        exact right old there (id.trans named)
    | @finished process service id slug built revised database builds made =>
        have another : id ≠ bundle.id := by
          rintro rfl
          exact other (decide_eq_true rfl)
        unfold Sql.finishRegeneration Sql.reviseBundle at made
        split at made
        · cases made
        · cases made
          obtain ⟨old, there, rfl⟩ := List.mem_map.mp member
          unfold Table.revise at named ⊢
          split
          · rename_i chosen
            rw [if_pos chosen] at named
            exact (another ((of_decide_eq_true chosen).symm.trans named)).elim
          · rename_i kept
            rw [if_neg kept] at named
            exact right old there named
    | _ => exact right row member named

end Outcome

abbrev FilingPool := Pool registry FileOperation (Except AppError Reply)

structure Converging (state : State) (start : Service) (bundle : Bundle)
    (history : List (Event registry)) (service : Service) : Prop where
  overseen : Overseen state bundle.id bundle.slug history service
  manifest : Current (writesManifest bundle.slug) bundle.id bundle.slug
    (ManifestRight state bundle start) history → ManifestRight state bundle service
  counters : Current (finishes bundle.id) bundle.id bundle.slug
    (CountersRight state bundle start) history → CountersRight state bundle service

/-- After every interleaving of file operations in which the manifest was written last, and
the counters too, by a process that was up to date, and no row or file changed since, both
are what is built of the rows that are on disk. -/
theorem manifest_converges (state : State) (start : Service) (bundle : Bundle)
    {moves : List (Move FileOperation)} {final : FilingPool}
    (reached : run (Pool.move (handleFiling state)) (.initial start) moves = some final)
    (manifest : Current (writesManifest bundle.slug) bundle.id bundle.slug
      (ManifestRight state bundle start) final.history)
    (counters : Current (finishes bundle.id) bundle.id bundle.slug
      (CountersRight state bundle start) final.history) :
    ManifestRight state bundle final.shared ∧ CountersRight state bundle final.shared := by
  have converging : Converging state start bundle final.history final.shared := by
    refine @Traced.invariant registry start final.shared final.history
      (Converging state start bundle) (Pool.traced_of_run reached) ⟨.start _ _ _ _, id, id⟩ ?_
    intro event older suffix happened converging
    obtain ⟨operation, -, allowed⟩ :=
      Pool.allowed_in_phase (fun request => handleFiling_follows state request) reached suffix
    have course := regenerationCourse_of_allowed
      (phase_eq_learned state operation event.process older ▸ allowed) happened
    exact ⟨converging.overseen.step course,
      manifestRight_step converging.overseen course converging.manifest,
      countersRight_step converging.overseen course converging.counters⟩
  exact ⟨converging.manifest manifest, converging.counters counters⟩

def twoFilings : List (Move FileOperation) :=
  [.start (.uploadFile "pack" (oneFile "a" [65])), .start (.uploadFile "pack" (oneFile "b" [66]))]

def filingsInTurn : List (Move FileOperation) :=
  twoFilings ++ List.replicate 14 (.advance 0) ++ List.replicate 14 (.advance 1)

theorem manifest_converges_in_turn :
    ∃ final, run (Pool.move (handleFiling shownState)) (.initial onePack) filingsInTurn =
        some final ∧ (presentManifest shownState 1 "pack" final.shared).filesCount = 2 ∧
      ManifestRight shownState packBundle final.shared ∧
      CountersRight shownState packBundle final.shared := by
  have current : ((run (Pool.move (handleFiling shownState)) (.initial onePack)
      filingsInTurn).map fun final =>
        decide ((presentManifest shownState 1 "pack" final.shared).filesCount = 2 ∧
          Current (writesManifest "pack") 1 "pack" False final.history ∧
          Current (finishes 1) 1 "pack" False final.history)) = some true := by decide +kernel
  obtain ⟨final, reached, holds⟩ := Option.map_eq_some_iff.mp current
  obtain ⟨two, manifest, counters⟩ := of_decide_eq_true holds
  exact ⟨final, reached, two, manifest_converges shownState onePack packBundle reached
    (.of_written manifest) (.of_written counters)⟩

/-- The first has looked for its files when the second comes, and writes its manifest when
the second has ended. -/
def filingsCrossing : List (Move FileOperation) :=
  twoFilings ++ List.replicate 12 (.advance 0) ++ List.replicate 14 (.advance 1) ++
    List.replicate 2 (.advance 0)

/-- Not even uploads to one build converge. -/
theorem manifest_left_behind :
    ¬∀ (state : State) (start : Service) (bundle : Bundle) (moves : List (Move FileOperation))
      (final : FilingPool),
      run (Pool.move (handleFiling state)) (.initial start) moves = some final →
      bundle ∈ start.database.bundles.rows →
      (∀ operation ∈ final.entries.map (·.1), ∃ multipart,
        operation = .uploadFile bundle.slug multipart) →
      final.succeeded = true → ManifestRight state bundle final.shared := by
  intro always
  have stale : ((run (Pool.move (handleFiling shownState)) (.initial onePack)
      filingsCrossing).map fun final => decide (final.succeeded = true ∧
        final.entries.map (·.1) =
          [.uploadFile "pack" (oneFile "a" [65]), .uploadFile "pack" (oneFile "b" [66])] ∧
        final.shared.disk.find (manifestPath "pack") = some (.file [97]) ∧
        shownState.toJson (presentManifest shownState 1 "pack" final.shared).manifest =
          [97, 98])) = some true := by
    decide +kernel
  obtain ⟨final, reached, holds⟩ := Option.map_eq_some_iff.mp stale
  obtain ⟨ended, requests, left, whole⟩ := of_decide_eq_true holds
  have registered : packBundle ∈ onePack.database.bundles.rows := by decide +kernel
  have right := always shownState onePack packBundle filingsCrossing final reached registered
    (by rw [requests]; simp [packBundle]) ended
  have written : final.shared.disk.find (manifestPath "pack") = some (.file [97, 98]) := by
    rw [← whole]
    exact right
  rw [left] at written
  cases written

end Loontail.Bundles
