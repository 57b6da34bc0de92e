import Loontail.Bundles.ManifestProtocol
import Loontail.Concurrency.Trace

/-! # Whether a manifest is read whole

The temporary file of a build has one name. A writer that opens it while another has it
open empties and shares the other's file, also after that one renamed it. -/

namespace Loontail.Bundles

open Concurrency Disk

/-! ## One writer at a time -/

def stagedBy (process : Nat) : List (Event buildFolders) → Option String
  | [] => none
  | event :: older =>
      if event.process = process then
        match event.operation, event.result with
        | .create slug _, .ok _ => some slug
        | .write .., .ok _ => stagedBy process older
        | _, _ => none
      else stagedBy process older

def Exclusive (event : Event buildFolders) (older : List (Event buildFolders)) : Prop :=
  match event.operation, event.result with
  | .create slug _, .ok _ =>
      ∀ other ∈ older, other.process ≠ event.process → stagedBy other.process older ≠ some slug
  | _, _ => True

instance (event : Event buildFolders) (older : List (Event buildFolders)) :
    Decidable (Exclusive event older) :=
  match event with
  | ⟨process, _, .create slug _, .ok _, _⟩ =>
      inferInstanceAs (Decidable (∀ other ∈ older, other.process ≠ process →
        stagedBy other.process older ≠ some slug))
  | ⟨_, _, .create _ _, .error _, _⟩ => .isTrue trivial
  | ⟨_, _, .createDirAll _, _, _⟩ => .isTrue trivial
  | ⟨_, _, .write .., _, _⟩ => .isTrue trivial
  | ⟨_, _, .rename .., _, _⟩ => .isTrue trivial
  | ⟨_, _, .open .., _, _⟩ => .isTrue trivial
  | ⟨_, _, .read .., _, _⟩ => .isTrue trivial

/-! ## The invariant -/

/-- A manifest that was there from the start, or that some writer was asked to write. -/
def Produced (start : BuildFolders) (pool : Pool buildFolders ManifestRequest
    (Except IoError ManifestReply)) (slug : String) (bytes : Bytes) : Prop :=
  start.stored slug .manifest = some bytes ∨
    ∃ writer json, pool.owner writer = some (.write slug json) ∧ json.flatten = bytes

theorem Produced.move {start : BuildFolders} {pool next : Pool buildFolders ManifestRequest
      (Except IoError ManifestReply)} {choice : Move ManifestRequest} {slug : String}
    {bytes : Bytes} (moved : pool.move handleFiles choice = some next)
    (produced : Produced start pool slug bytes) : Produced start next slug bytes := by
  rcases produced with old | ⟨writer, json, owned, text⟩
  · exact .inl old
  · exact .inr ⟨writer, json, Pool.owner_move moved owned, text⟩

namespace FilePhase

def staged : FilePhase → Option String
  | staging slug _ _ _ => some slug
  | _ => none

/-- A writer's file is the temporary one and holds what it wrote; a reader's file is a
whole manifest that no writer can reach any more. -/
def Holds (produced : String → Bytes → Prop) (volume : BuildFolders) : FilePhase → Prop
  | staging slug file written _ =>
      volume.entry slug .staged = some file ∧ volume.content file = written
  | reading slug file content =>
      file < volume.contents.length ∧ (∀ other, volume.entry other .staged ≠ some file) ∧
        produced slug (volume.content file) ∧ content <+: volume.content file
  | answered slug bytes => produced slug bytes
  | _ => True

end FilePhase

structure Sound (produced : String → Bytes → Prop) (volume : BuildFolders)
    (phase : Nat → Option FilePhase) : Prop where
  manifest : ∀ slug bytes, volume.stored slug .manifest = some bytes → produced slug bytes
  holds : ∀ index found, phase index = some found → found.Holds produced volume
  alone : ∀ left right first second slug, phase left = some first → phase right = some second →
    first.staged = some slug → second.staged = some slug → left = right

def advanced (phase : Nat → Option FilePhase) (index : Nat) (next : FilePhase) :
    Nat → Option FilePhase :=
  fun other => if other = index then some next else phase other

theorem advanced_cases {phase : Nat → Option FilePhase} {index other : Nat}
    {next found : FilePhase} (current : advanced phase index next other = some found) :
    (other = index ∧ found = next) ∨ (other ≠ index ∧ phase other = some found) := by
  unfold advanced at current
  split at current
  · rename_i same
    exact .inl ⟨same, (Option.some.inj current).symm⟩
  · rename_i different
    exact .inr ⟨different, current⟩

namespace Sound

variable {produced : String → Bytes → Prop} {volume after : BuildFolders}
  {phase : Nat → Option FilePhase} {index : Nat} {next : FilePhase}

theorem mono {wider : String → Bytes → Prop}
    (implies : ∀ slug bytes, produced slug bytes → wider slug bytes)
    (sound : Sound produced volume phase) : Sound wider volume phase where
  manifest := fun slug bytes stored => implies slug bytes (sound.manifest slug bytes stored)
  holds := by
    intro index found current
    have held := sound.holds index found current
    cases found with
    | reading slug file content => exact ⟨held.1, held.2.1, implies _ _ held.2.2.1, held.2.2.2⟩
    | answered slug bytes => exact implies _ _ held
    | _ => exact held
  alone := sound.alone

/-- What one process does is judged by its own phase, by the manifests and by what it does
to the files of the others. -/
theorem advance (sound : Sound produced volume phase)
    (manifest : ∀ slug bytes, after.stored slug .manifest = some bytes → produced slug bytes)
    (others : ∀ other found, other ≠ index → phase other = some found →
      found.Holds produced volume → found.Holds produced after)
    (own : next.Holds produced after)
    (alone : ∀ other found slug, other ≠ index → phase other = some found →
      found.staged = some slug → next.staged ≠ some slug) :
    Sound produced after (advanced phase index next) where
  manifest := manifest
  holds := by
    intro other found current
    rcases advanced_cases current with ⟨-, rfl⟩ | ⟨different, kept⟩
    · exact own
    · exact others other found different kept (sound.holds other found kept)
  alone := by
    intro left right first second slug current too staged also
    rcases advanced_cases current with ⟨here, rfl⟩ | ⟨leftOther, kept⟩
    · rcases advanced_cases too with ⟨there, rfl⟩ | ⟨rightOther, held⟩
      · exact here.trans there.symm
      · exact (alone right second slug rightOther held also staged).elim
    · rcases advanced_cases too with ⟨there, rfl⟩ | ⟨rightOther, held⟩
      · exact (alone left first slug leftOther kept staged also).elim
      · exact sound.alone left right first second slug kept held staged also

theorem stored_eq (entries : after.entry = volume.entry)
    (contents : after.contents = volume.contents) : after.stored = volume.stored := by
  funext slug name
  rw [Volume.stored, Volume.stored, entries]
  congr 1
  funext file
  rw [Volume.content, Volume.content, contents]

theorem holds_eq (entries : after.entry = volume.entry)
    (contents : after.contents = volume.contents) {found : FilePhase}
    (held : found.Holds produced volume) : found.Holds produced after := by
  have content : after.content = volume.content := by
    funext file
    rw [Volume.content, Volume.content, contents]
  cases found with
  | staging slug file written rest => rwa [FilePhase.Holds, entries, content]
  | reading slug file bytes => rwa [FilePhase.Holds, entries, contents, content]
  | answered slug bytes => exact held
  | _ => trivial

theorem unchanged (sound : Sound produced volume phase) (entries : after.entry = volume.entry)
    (contents : after.contents = volume.contents) (own : next.Holds produced volume)
    (free : next.staged = none) : Sound produced after (advanced phase index next) := by
  refine sound.advance ?_ (fun _ _ _ _ => holds_eq entries contents)
    (holds_eq entries contents own) ?_
  · rw [stored_eq entries contents]
    exact sound.manifest
  · intro other found slug _ _ _ staged
    rw [free] at staged
    cases staged

theorem manifest_other {slug other : String} {file found : Nat}
    (staged : volume.entry slug .staged = some file)
    (named : volume.entry other .manifest = some found) : found ≠ file := by
  rintro rfl
  exact absurd (volume.apart _ _ _ _ _ staged named).2 (by decide)

theorem created {slug : String} {file : Nat} {json : List Bytes}
    (sound : Sound produced volume phase)
    (opened : volume.create slug .staged = .ok (file, after))
    (exclusive : ∀ other found, other ≠ index → phase other = some found →
      found.staged ≠ some slug) :
    Sound produced after (advanced phase index (.staging slug file [] json)) := by
  have entry := Volume.entry_create opened
  have length := Volume.length_create opened
  refine sound.advance ?_ ?_ ?_ ?_
  · intro other bytes stored
    obtain ⟨found, named, rfl⟩ := Option.map_eq_some_iff.mp stored
    rw [entry, if_neg (by simp)] at named
    have kept := Volume.create_keeps opened (volume.linked _ _ _ named) fun staged =>
      manifest_other staged named rfl
    rw [kept]
    exact sound.manifest other _ (by rw [Volume.stored, named, Option.map_some])
  · intro other found different current held
    cases found with
    | staging otherSlug otherFile written rest =>
        have apart : otherSlug ≠ slug := by
          rintro rfl
          exact exclusive other _ different current rfl
        refine ⟨by rw [entry, if_neg fun same => apart same.1]; exact held.1, ?_⟩
        rw [Volume.create_keeps opened (volume.linked _ _ _ held.1) fun same =>
          apart (volume.apart _ _ _ _ _ held.1 same).1]
        exact held.2
    | reading otherSlug otherFile content =>
        obtain ⟨bound, unreachable, whole, begun⟩ := held
        have kept := Volume.create_keeps opened bound (unreachable slug)
        refine ⟨by omega, fun build => ?_, ?_⟩
        · rw [entry]
          split
          · rintro same
            cases same
            rcases Volume.create_cases opened with ⟨present, -⟩ | ⟨fresh, -⟩
            · exact unreachable slug present
            · omega
          · exact unreachable build
        · rw [kept]
          exact ⟨whole, begun⟩
    | answered otherSlug bytes => exact held
    | _ => trivial
  · exact ⟨by rw [entry, if_pos ⟨rfl, rfl⟩], (Volume.content_create opened).1⟩
  · rintro other found build different current staged same
    cases same
    exact exclusive other found different current staged

theorem wrote {slug : String} {file : Nat} {written piece : Bytes} {rest : List Bytes}
    (sound : Sound produced volume phase)
    (current : phase index = some (.staging slug file written (piece :: rest))) :
    Sound produced (volume.write file written.length piece)
      (advanced phase index (.staging slug file (written ++ piece) rest)) := by
  obtain ⟨staged, text⟩ := sound.holds index _ current
  have bound := volume.linked _ _ _ staged
  have content : ∀ other, (volume.write file written.length piece).content other =
      if other = file then written ++ piece else volume.content other := by
    intro other
    rw [Volume.write, Volume.content_overwrite bound, text, patch_end]
  have different : ∀ other found build, other ≠ index → phase other = some found →
      found.staged = some build → build ≠ slug := by
    rintro other found build apart here holds rfl
    exact apart (sound.alone other index found _ build here current holds rfl)
  refine sound.advance ?_ ?_ ?_ ?_
  · intro other bytes stored
    obtain ⟨found, named, rfl⟩ := Option.map_eq_some_iff.mp stored
    rw [content, if_neg (manifest_other staged named)]
    exact sound.manifest other _ (by rw [Volume.stored, show volume.entry other .manifest =
      some found from named, Option.map_some])
  · intro other found apart here held
    cases found with
    | staging otherSlug otherFile otherWritten otherRest =>
        refine ⟨held.1, ?_⟩
        rw [content, if_neg]
        · exact held.2
        · rintro rfl
          exact different other _ otherSlug apart here rfl
            (volume.apart _ _ _ _ _ held.1 staged).1
    | reading otherSlug otherFile bytes =>
        obtain ⟨within, unreachable, whole⟩ := held
        have own : otherFile ≠ file := by
          rintro rfl
          exact unreachable slug staged
        refine ⟨?_, unreachable, ?_⟩
        · rw [Volume.write, Volume.overwrite, List.length_set]
          exact within
        · rw [content, if_neg own]
          exact whole
    | answered otherSlug bytes => exact held
    | _ => trivial
  · exact ⟨staged, by rw [content, if_pos rfl]⟩
  · rintro other found build apart here holds same
    cases same
    exact different other found slug apart here holds rfl

/-- Renaming publishes what the writer wrote, which is all of its manifest. -/
theorem renamed {slug : String} {file : Nat} {written : Bytes} {rest : List Bytes}
    (sound : Sound produced volume phase)
    (current : phase index = some (.staging slug file written rest))
    (whole : produced slug written)
    (moved : volume.rename slug .staged .manifest = .ok after) :
    Sound produced after (advanced phase index .finished) := by
  obtain ⟨staged, text⟩ := sound.holds index _ current
  obtain ⟨entries, contents⟩ := Volume.rename_ok moved
  have content : after.content = volume.content := by
    funext other
    rw [Volume.content, Volume.content, contents]
  have elsewhere : ∀ other, other ≠ slug → after.entry other .staged =
      volume.entry other .staged := by
    intro other apart
    simp [entries, Volume.relink, apart]
  refine sound.advance ?_ ?_ trivial (by simp [FilePhase.staged])
  · intro other bytes stored
    obtain ⟨found, named, rfl⟩ := Option.map_eq_some_iff.mp stored
    rw [content]
    rw [entries] at named
    rcases Volume.relink_cases named with ⟨rfl, -, source⟩ | ⟨-, -, kept⟩
    · cases staged.symm.trans source
      rw [text]
      exact whole
    · exact sound.manifest other _ (by rw [Volume.stored, kept, Option.map_some])
  · intro other found apart here held
    cases found with
    | staging otherSlug otherFile otherWritten otherRest =>
        have different : otherSlug ≠ slug := by
          rintro rfl
          exact apart (sound.alone other index _ _ otherSlug here current rfl rfl)
        rw [FilePhase.Holds, elsewhere otherSlug different, content]
        exact held
    | reading otherSlug otherFile bytes =>
        obtain ⟨within, unreachable, rest⟩ := held
        rw [FilePhase.Holds, contents, content]
        refine ⟨within, fun build named => ?_, rest⟩
        rw [entries] at named
        rcases Volume.relink_cases named with ⟨-, wrong, -⟩ | ⟨-, -, kept⟩
        · cases wrong
        · exact unreachable build kept
    | answered otherSlug bytes => exact held
    | _ => trivial

/-! ## One call -/

theorem occurs_error {before : BuildFolders} {asked : FileCall} {error : IoError}
    (occurs : buildFolders.Occurs before asked (.error error) after) : after = before := by
  rcases occurs with ⟨-, performed⟩ | ⟨-, same⟩
  · cases asked with
    | createDirAll slug => cases performed
    | create slug file =>
        simp only [FileCall.perform] at performed
        split at performed
        · cases performed
        · exact (Prod.mk.inj performed).2.symm
    | write file offset data => cases performed
    | rename slug source target =>
        simp only [FileCall.perform] at performed
        split at performed
        · cases performed
        · exact (Prod.mk.inj performed).2.symm
    | «open» slug file => exact (Prod.mk.inj performed).2.symm
    | read file offset bound => cases performed
  · exact same

theorem occurs_ok {before : BuildFolders} {asked : FileCall} {answer : asked.Answer}
    (occurs : buildFolders.Occurs before asked (.ok answer) after) :
    FileCall.perform before asked = (.ok answer, after) := by
  rcases occurs with ⟨-, performed⟩ | ⟨failed, -⟩
  · exact performed
  · cases failed

theorem after_error (found : FilePhase) (asked : FileCall) (error : IoError) :
    found.after asked (.error error) = .finished := by
  unfold FilePhase.after
  split <;> simp_all

theorem received {slug : String} {file : Nat} {content : Bytes} {bound : Option Nat}
    (sound : Sound produced volume phase)
    (current : phase index = some (.reading slug file content)) (some : bound ≠ some 0) :
    Sound produced volume (advanced phase index
      (.receive slug file content (volume.read file content.length bound) bound)) := by
  obtain ⟨within, unreachable, whole, rest, text⟩ := sound.holds index _ current
  have left : (volume.content file).drop content.length = rest := by
    rw [← text, List.drop_left]
  have piece : volume.read file content.length bound <+: rest := by
    rw [← left]
    cases bound with
    | none => exact List.prefix_refl _
    | some count => exact List.take_prefix _ _
  unfold FilePhase.receive
  split
  · rename_i last
    have done : volume.read file content.length bound = rest := by
      cases bound with
      | none => exact left
      | some count =>
          have empty : (List.drop content.length (volume.content file)).take count = [] := by
            simpa [Volume.read] using last
          have filled : count ≠ 0 := fun zero => some (congrArg _ zero)
          rw [left, List.take_eq_nil_iff] at empty
          rw [Volume.read, left, empty.resolve_left filled, List.take_nil]
    refine sound.unchanged rfl rfl ?_ rfl
    rw [done, text]
    exact whole
  · refine sound.unchanged rfl rfl ⟨within, unreachable, whole, ?_⟩ rfl
    rw [← text]
    exact (List.prefix_append_right_inj content).mpr piece

theorem step {before : BuildFolders} {asked : FileCall} {result : Except IoError asked.Answer}
    {found : FilePhase} (sound : Sound produced before phase)
    (current : phase index = some found) (allowed : found.allows asked)
    (occurs : buildFolders.Occurs before asked result after)
    (whole : ∀ slug file written, found = .staging slug file written [] → produced slug written)
    (exclusive : ∀ slug json, found = .ensured slug json → ∀ other held, other ≠ index →
      phase other = some held → held.staged ≠ some slug ∨ ∃ error, result = .error error) :
    Sound produced after (advanced phase index (found.after asked result)) := by
  cases result with
  | error error =>
      rw [occurs_error occurs, after_error]
      exact sound.unchanged rfl rfl trivial rfl
  | ok answer =>
      have performed := occurs_ok occurs
      cases found with
      | arriving request =>
          cases request with
          | write slug json =>
              cases allowed
              cases performed
              exact sound.unchanged rfl rfl trivial rfl
          | read slug sizes =>
              cases allowed
              obtain ⟨opened, rfl⟩ := Prod.mk.inj performed
              have named : before.entry slug .manifest = some answer := by
                unfold Volume.openFile at opened
                split at opened
                · rename_i file named
                  cases opened
                  exact named
                · cases opened
              refine sound.unchanged rfl rfl ⟨before.linked _ _ _ named, ?_, ?_, ?_⟩ rfl
              · exact fun other staged => manifest_other staged named rfl
              · exact sound.manifest slug _ (by rw [Volume.stored, named, Option.map_some])
              · exact List.nil_prefix
      | ensured slug json =>
          cases allowed
          have opened : before.create slug .staged = .ok (answer, after) := by
            simp only [FileCall.perform] at performed
            split at performed
            · rename_i number left created
              cases performed
              exact created
            · cases performed
          refine sound.created opened fun other held different here => ?_
          rcases exclusive slug json rfl other held different here with free | ⟨_, failed⟩
          · exact free
          · cases failed
      | staging slug file written rest =>
          cases rest with
          | nil =>
              cases allowed
              have moved : before.rename slug .staged .manifest = .ok after := by
                simp only [FileCall.perform] at performed
                split at performed
                · rename_i left renamed
                  cases performed
                  exact renamed
                · cases performed
              exact sound.renamed current (whole slug file written rfl) moved
          | cons piece rest =>
              cases allowed
              cases performed
              exact sound.wrote current
      | reading slug file content =>
          obtain ⟨bound, some, rfl⟩ := allowed
          cases performed
          exact sound.received current some
      | answered slug bytes => exact allowed.elim
      | finished => exact allowed.elim

end Sound

/-! ## Every run -/

theorem stagedBy_own (event : Event buildFolders) (older : List (Event buildFolders)) :
    stagedBy event.process (event :: older) =
      match event.operation, event.result with
      | .create slug _, .ok _ => some slug
      | .write .., .ok _ => stagedBy event.process older
      | _, _ => none := if_pos rfl

theorem stagedBy_other {event : Event buildFolders} {process : Nat}
    (different : event.process ≠ process) (older : List (Event buildFolders)) :
    stagedBy process (event :: older) = stagedBy process older := if_neg different

theorem mem_of_stagedBy {process : Nat} {slug : String} {history : List (Event buildFolders)}
    (staged : stagedBy process history = some slug) :
    ∃ event ∈ history, event.process = process := by
  induction history with
  | nil => cases staged
  | cons event older induction =>
      by_cases own : event.process = process
      · exact ⟨event, by simp, own⟩
      · rw [stagedBy_other own] at staged
        obtain ⟨earlier, member, same⟩ := induction staged
        exact ⟨earlier, by simp [member], same⟩

theorem stagedBy_after {event : Event buildFolders} {older : List (Event buildFolders)}
    {found : FilePhase} {slug : String} (allowed : found.allows event.operation)
    (before : ∀ build, found.staged = some build → stagedBy event.process older = some build)
    (staged : (found.after event.operation event.result).staged = some slug) :
    stagedBy event.process (event :: older) = some slug := by
  rw [stagedBy_own]
  rcases event with ⟨process, start, asked, result, after⟩
  simp only at allowed before staged ⊢
  cases result with
  | error error =>
      rw [Sound.after_error] at staged
      cases staged
  | ok answer =>
      cases found with
      | arriving request => cases request <;> cases allowed <;> cases staged
      | ensured build json =>
          cases allowed
          exact staged
      | staging build file written rest =>
          cases rest with
          | nil =>
              cases allowed
              cases staged
          | cons piece rest =>
              cases allowed
              exact before slug staged
      | reading build file content =>
          obtain ⟨bound, -, rfl⟩ := allowed
          have free : (FilePhase.receive build file content answer bound).staged = none := by
            unfold FilePhase.receive
            split <;> rfl
          have held : (FilePhase.receive build file content answer bound).staged = some slug :=
            staged
          rw [free] at held
          cases held
      | answered build bytes => exact allowed.elim
      | finished => exact allowed.elim

abbrev FilePool := Pool buildFolders ManifestRequest (Except IoError ManifestReply)

/-- In a run of writers that take turns the invariant holds, and the history tells who has
a temporary file open. -/
def Orderly (start : BuildFolders) (pool : FilePool) : Prop :=
  Throughout Exclusive pool.history →
    Sound (Produced start pool) pool.shared (pool.phaseOf fileProtocol) ∧
      ∀ index found slug, pool.phaseOf fileProtocol index = some found →
        found.staged = some slug → stagedBy index pool.history = some slug

theorem Orderly.initial (start : BuildFolders) : Orderly start (.initial start) := by
  intro _
  refine ⟨⟨fun slug bytes stored => .inl stored, ?_, ?_⟩, ?_⟩
  · rintro index found ⟨⟩
  · rintro left right first second slug ⟨⟩
  · rintro index found slug ⟨⟩

theorem Orderly.move {start : BuildFolders} {pool next : FilePool}
    {choice : Move ManifestRequest} (orderly : Orderly start pool)
    (obeys : pool.Obeys fileProtocol fileEnding)
    (moved : pool.move handleFiles choice = some next) : Orderly start next := by
  intro exclusive
  have wider : ∀ slug bytes, Produced start pool slug bytes → Produced start next slug bytes :=
    fun slug bytes => Produced.move moved
  rcases Pool.move_phases obeys moved with ⟨request, -, shared, history, phases⟩ |
    ⟨index, found, asked, result, after, -, -, current, allowed, occurs, shared, history,
      phases⟩
  · rw [history] at exclusive
    obtain ⟨sound, open_⟩ := orderly exclusive
    have extended : next.phaseOf fileProtocol =
        advanced (pool.phaseOf fileProtocol) pool.entries.length (.arriving request) :=
      funext phases
    have arrived : Sound (Produced start pool) pool.shared
        (advanced (pool.phaseOf fileProtocol) pool.entries.length (.arriving request)) :=
      sound.unchanged rfl rfl trivial rfl
    rw [shared, history, extended]
    refine ⟨arrived.mono wider, ?_⟩
    intro other held slug here staged
    rcases advanced_cases here with ⟨-, rfl⟩ | ⟨-, kept⟩
    · cases staged
    · exact open_ other held slug kept staged
  · rw [history] at exclusive
    obtain ⟨here, earlier⟩ := exclusive
    obtain ⟨sound, open_⟩ := orderly earlier
    have extended : next.phaseOf fileProtocol =
        advanced (pool.phaseOf fileProtocol) index (found.after asked result) := funext phases
    rw [shared, history, extended]
    constructor
    · refine (sound.step current allowed occurs ?_ ?_).mono wider
      · rintro slug file written rfl
        obtain ⟨request, owned, phase⟩ := Option.map_eq_some_iff.mp current
        have serves := serves_filePhase request index pool.history
        rw [phase] at serves
        obtain ⟨json, rfl, text⟩ := serves
        exact .inr ⟨index, json, owned, by simpa using text⟩
      · rintro slug json rfl other held different kept
        cases result with
        | error error => exact .inr ⟨error, rfl⟩
        | ok answer =>
            left
            intro staged
            cases allowed
            have holder := open_ other held slug kept staged
            obtain ⟨event, member, rfl⟩ := mem_of_stagedBy holder
            exact here event member different holder
    · intro other held slug there staged
      rcases advanced_cases there with ⟨rfl, rfl⟩ | ⟨different, kept⟩
      · exact @stagedBy_after ⟨other, pool.shared, asked, result, after⟩ pool.history found slug
          allowed (fun build => open_ other found build current) staged
      · rw [@stagedBy_other ⟨index, pool.shared, asked, result, after⟩ other
          (Ne.symm different)]
        exact open_ other held slug kept staged

def answerOf (pool : FilePool) (reader : Nat) : Option (String × Bytes) :=
  pool.entries[reader]?.bind fun entry =>
    match entry with
    | (.read slug _, .done (.ok (.content bytes))) => some (slug, bytes)
    | _ => none

theorem answerOf_eq_some {pool : FilePool} {reader : Nat} {slug : String} {bytes : Bytes}
    (answered : answerOf pool reader = some (slug, bytes)) :
    ∃ sizes, pool.entries[reader]? =
      some (.read slug sizes, .done (.ok (.content bytes))) := by
  obtain ⟨entry, found, read⟩ := Option.bind_eq_some_iff.mp answered
  split at read
  · rename_i sizes _
    cases read
    exact ⟨sizes, found⟩
  · cases read

/-- While no writer opens the temporary file of a build that another has open, every read
of a manifest gets all of the bytes of one that was there or that a writer produced. -/
theorem manifest_read_whole (start : BuildFolders) {moves : List (Move ManifestRequest)}
    {final : FilePool} (reached : run (Pool.move handleFiles) (.initial start) moves = some final)
    (exclusive : Throughout Exclusive final.history) {reader : Nat} {slug : String}
    {bytes : Bytes} (answered : answerOf final reader = some (slug, bytes)) :
    Produced start final slug bytes := by
  obtain ⟨sizes, ended⟩ := answerOf_eq_some answered
  obtain ⟨orderly, obeys⟩ := invariant
    (fun pool : FilePool => Orderly start pool ∧ pool.Obeys fileProtocol fileEnding)
    (fun _ _ _ holds moved =>
      ⟨holds.1.move holds.2 moved, holds.2.move handleFiles_follows moved⟩)
    ⟨Orderly.initial start, Pool.initial_obeys start⟩ reached
  obtain ⟨build, phase⟩ := obeys.2 reader _ _ ended
  have serves := serves_filePhase (.read slug sizes) reader final.history
  have current : final.phaseOf fileProtocol reader = some (.answered build bytes) := by
    rw [Pool.phaseOf, Pool.owner_of_entry ended, Option.map_some]
    exact congrArg some phase
  rw [phase] at serves
  obtain ⟨_, same⟩ := serves
  cases same
  exact (orderly exclusive).1.holds reader _ current

/-- Two writers, the second after the first has renamed, and a reader between them. -/
def writersInTurn : List (Move ManifestRequest) :=
  [.start (.write "pack" [[1, 2], [3, 4]]), .start (.write "pack" [[5, 6]]),
   .start (.read "pack" [1]), .advance 0, .advance 1, .advance 0, .advance 0, .advance 0,
   .advance 0, .advance 2, .advance 1, .advance 2, .advance 1, .advance 2, .advance 1]

theorem manifest_read_whole_in_turn :
    ∃ final, run (Pool.move handleFiles) (.initial Volume.empty) writersInTurn = some final ∧
      answerOf final 2 = some ("pack", [1, 2, 3, 4]) ∧
      Produced Volume.empty final "pack" [1, 2, 3, 4] := by
  have whole : ((run (Pool.move handleFiles) (.initial Volume.empty) writersInTurn).map
      fun final => decide (Throughout Exclusive final.history ∧
        answerOf final 2 = some ("pack", [1, 2, 3, 4]))) = some true := by decide +kernel
  obtain ⟨final, reached, some⟩ := Option.map_eq_some_iff.mp whole
  obtain ⟨exclusive, answered⟩ := of_decide_eq_true some
  exact ⟨final, reached, answered, manifest_read_whole .empty reached exclusive answered⟩

/-- The second writer opens the temporary file while the first still writes it. -/
def writersTogether : List (Move ManifestRequest) :=
  [.start (.write "pack" [[1, 2], [3, 4]]), .start (.write "pack" [[5, 6]]),
   .start (.read "pack" []), .advance 0, .advance 1, .advance 0, .advance 0, .advance 1,
   .advance 0, .advance 1, .advance 0, .advance 2, .advance 2]

/-- The reader gets one writer's bytes in front of the other's. -/
theorem manifest_read_mixed :
    ¬∀ (start : BuildFolders) (moves : List (Move ManifestRequest)) (final : FilePool),
      run (Pool.move handleFiles) (.initial start) moves = some final →
      ∀ reader slug bytes, answerOf final reader = some (slug, bytes) →
        Produced start final slug bytes := by
  intro always
  have mixed : ((run (Pool.move handleFiles) (.initial Volume.empty) writersTogether).map
      fun final => decide (answerOf final 2 = some ("pack", [5, 6, 3, 4]) ∧
        final.entries.map (·.1) = [.write "pack" [[1, 2], [3, 4]], .write "pack" [[5, 6]],
          .read "pack" []])) = some true := by decide +kernel
  obtain ⟨final, reached, some⟩ := Option.map_eq_some_iff.mp mixed
  obtain ⟨answered, asked⟩ := of_decide_eq_true some
  rcases always .empty writersTogether final reached 2 "pack" _ answered with
    old | ⟨writer, json, owned, text⟩
  · cases old
  · have listed : (final.entries.map (·.1))[writer]? = Option.some (.write "pack" json) := by
      rw [List.getElem?_map]
      exact owned
    have member := List.mem_of_getElem? listed
    rw [asked] at member
    simp only [List.mem_cons, ManifestRequest.write.injEq, true_and, List.not_mem_nil,
      or_false, reduceCtorEq] at member
    rcases member with rfl | rfl <;> cases text

end Loontail.Bundles
