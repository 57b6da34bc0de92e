import Loontail.Bundles.Archive
import Loontail.Concurrency.Evaluate
import Loontail.Guarantees.SafePaths
import Mathlib.Algebra.GroupWithZero.Nat

/-! # How much an archive can write

The cap counts the sizes that the entries declare. What is written is what their readers
yield, so the cap holds of an archive when its entries keep to it in fact. -/

namespace Loontail.Bundles

open Concurrency Disk

/-! ## What an event writes -/

def written : Event registry → Nat
  | ⟨_, _, .disk (.append _ data), .ok _, _⟩ => data.length
  | _ => 0

def writtenBytes (events : List (Event registry)) : Nat := (events.map written).sum

def refuses : Event registry → Bool
  | ⟨_, _, .disk _, .error _, _⟩ => true
  | _ => false

@[simp] theorem writtenBytes_cons (event : Event registry) (events : List (Event registry)) :
    writtenBytes (event :: events) = written event + writtenBytes events := rfl

def DiskCall.weight : DiskCall → Nat
  | append _ data => data.length
  | _ => 0

theorem written_done {call : DiskCall} (index : Nat) (before after : Service)
    (answer : call.Answer) :
    written ⟨index, before, .disk call, .ok answer, after⟩ = call.weight := by
  cases call <;> rfl

theorem written_refused {event : Event registry} (refused : refuses event = true) :
    written event = 0 := by
  obtain ⟨index, before, operation, result, after⟩ := event
  unfold refuses at refused
  split at refused
  · rename_i call error same
    cases same
    unfold written
    split
    · rename_i other
      cases other
    · rfl
  · cases refused

/-- At most so many bytes were written since, and exactly so many when the disk has
refused nothing. -/
structure Spent (bytes : Nat) (before after : List (Event registry)) : Prop where
  since : before <:+ after
  atMost : writtenBytes after ≤ writtenBytes before + bytes
  exactly : after.any refuses = false → writtenBytes after = writtenBytes before + bytes

namespace Spent

variable {bytes more : Nat} {before middle after : List (Event registry)}

theorem refl (events : List (Event registry)) : Spent 0 events events :=
  ⟨List.suffix_refl events, le_rfl, fun _ => rfl⟩

theorem trans (first : Spent bytes before middle) (second : Spent more middle after) :
    Spent (bytes + more) before after := by
  refine ⟨first.since.trans second.since, ?_, fun accepted => ?_⟩
  · have earlier := first.atMost
    have later := second.atMost
    omega
  · have clean : middle.any refuses = false := by
      rw [List.any_eq_false] at accepted ⊢
      exact fun event member => accepted event (second.since.subset member)
    rw [second.exactly accepted, first.exactly clean, Nat.add_assoc]

theorem refused {event : Event registry} (refused : refuses event = true) (bytes : Nat)
    (events : List (Event registry)) : Spent bytes events (event :: events) := by
  refine ⟨List.suffix_cons _ _, ?_, fun accepted => ?_⟩
  · rw [writtenBytes_cons, written_refused refused]
    omega
  · simp [refused] at accepted

theorem done {call : DiskCall} (index : Nat) (before after : Service) (answer : call.Answer)
    (events : List (Event registry)) :
    Spent call.weight events (⟨index, before, .disk call, .ok answer, after⟩ :: events) := by
  have whole : writtenBytes (⟨index, before, .disk call, .ok answer, after⟩ :: events) =
      writtenBytes events + call.weight := by
    rw [writtenBytes_cons, written_done, Nat.add_comm]
  exact ⟨List.suffix_cons _ _, whole.le, fun _ => whole⟩

end Spent

/-! ## What an archive yields -/

def ZipEntry.yield (entry : ZipEntry) (later : Nat) : Nat :=
  if entry.isDir then later
  else entry.content.length + if entry.failure.isNone then later else 0

/-- The bytes that the entries yield, up to the first that is refused. -/
def yields (dest : List String) (total : Nat) : List ZipSlot → Nat
  | [] => 0
  | .error _ :: _ => 0
  | .ok entry :: rest =>
      match entryPath entry.name with
      | .error _ => 0
      | .ok none => yields dest total rest
      | .ok (some safe) =>
          let declared := min (total + entry.size) u64Max
          if !isWithin (joinFiles dest safe) dest || maxUncompressed < declared then 0
          else entry.yield (yields dest declared rest)

def slotsAt (state : State) (disk : Builds) (archive : List String) : List ZipSlot :=
  match disk.read archive with
  | .ok bytes => (openArchive state bytes).toOption.getD []
  | .error _ => []

/-! ## What extraction writes -/

section Extraction

variable {dest : List String} {index : Nat}
  {situation : (Logic.recorded registry index).Situation}

theorem io_spends {call : DiskCall} (context : String) :
    @Fallible.Meets registry AppError call.Answer (io call context) (.recorded registry index)
      (fun _ following => Spent call.weight situation.2 following.2)
      (fun _ following => ∀ bytes, Spent bytes situation.2 following.2) situation := by
  refine (meets_io call context).mpr fun result after occurs => ?_
  cases result with
  | ok answer => exact .done index situation.1 after answer situation.2
  | error error => exact fun bytes => .refused rfl bytes situation.2

theorem placeEntry_spends (entry : ZipEntry) (safe : String) (path : List String) :
    (placeEntry entry safe path).Meets (.recorded registry index)
      (fun _ following => ∃ bytes, Spent bytes situation.2 following.2 ∧
        ∀ later, entry.yield later = bytes + later)
      (fun _ following => ∀ later, Spent (entry.yield later) situation.2 following.2)
      situation := by
  unfold placeEntry
  split
  · rename_i dir
    refine (io_spends _).mono ?_ fun _ _ refused later => refused _
    exact fun _ _ spent => ⟨0, spent, fun later => by simp [ZipEntry.yield, dir]⟩
  · rename_i file
    have more : entry.content.length ≤ entry.yield 0 := by simp [ZipEntry.yield, file]
    unfold copyEntry
    simp only [Fallible.meets_bind]
    refine (io_spends _).mono ?_ fun _ _ refused later => refused _
    intro _ made folders
    refine (io_spends _).mono ?_ fun _ _ refused later => ?_
    · intro _ opened created
      refine (io_spends _).mono ?_ fun _ _ refused later => ?_
      · intro _ copied appended
        have spent : Spent entry.content.length situation.2 copied.2 := by
          simpa [DiskCall.weight] using (folders.trans created).trans appended
        cases ending : entry.failure with
        | none => exact ⟨_, spent, fun later => by simp [ZipEntry.yield, file, ending]⟩
        | some failure =>
            intro later
            simpa [ZipEntry.yield, file, ending] using spent
      · simpa [DiskCall.weight] using (folders.trans created).trans (refused (entry.yield later))
    · simpa [DiskCall.weight] using folders.trans (refused (entry.yield later))

theorem extractEntry_spends (total : Nat) (slot : ZipSlot) (rest : List ZipSlot) :
    (extractEntry dest total slot).Meets (.recorded registry index)
      (fun declared following => ∃ bytes, Spent bytes situation.2 following.2 ∧
        yields dest total (slot :: rest) = bytes + yields dest declared rest)
      (fun _ following => Spent (yields dest total (slot :: rest)) situation.2 following.2)
      situation := by
  cases slot with
  | error failure => exact .refl situation.2
  | ok entry =>
      unfold extractEntry
      rw [Fallible.meets_bind, Fallible.meets_lift]
      refine ⟨fun error slips => ?_, fun found accepted => ?_⟩
      · simpa [yields, slips] using Spent.refl situation.2
      · cases found with
        | none => exact ⟨0, .refl _, by simp [yields, accepted]⟩
        | some safe =>
            simp only [Fallible.meets_bind, Fallible.meets_refuse]
            refine ⟨fun outside => ?_, fun inside => ⟨fun large => ?_, fun fits => ?_⟩⟩
            · simpa [yields, accepted, outside] using Spent.refl situation.2
            · have excess := of_decide_eq_true large
              simpa [yields, accepted, excess] using Spent.refl situation.2
            · have whole : yields dest total (.ok entry :: rest) =
                  entry.yield (yields dest (min (total + entry.size) u64Max) rest) := by
                rw [yields, accepted]
                simp only [inside, fits, Bool.or_self, Bool.false_eq_true, if_false]
              rw [whole]
              refine (placeEntry_spends entry safe _).mono ?_ fun _ _ failed => failed _
              rintro _ following ⟨bytes, spent, same⟩
              exact ⟨bytes, spent, same _⟩

theorem extractEntries_spends (total : Nat) (slots : List ZipSlot) :
    (extractEntries dest total slots).Meets (.recorded registry index)
      (fun _ following => Spent (yields dest total slots) situation.2 following.2)
      (fun _ following => Spent (yields dest total slots) situation.2 following.2)
      situation := by
  induction slots generalizing total situation with
  | nil => exact .refl situation.2
  | cons slot rest induction =>
      unfold extractEntries
      rw [Fallible.meets_bind]
      refine (extractEntry_spends total slot rest).mono ?_ fun _ _ spent => spent
      rintro declared following ⟨bytes, spent, whole⟩
      rw [whole]
      exact (induction declared).mono (fun _ _ later => spent.trans later)
        fun _ _ later => spent.trans later

theorem extractZip_spends (state : State) (archive : List String) :
    (extractZip state archive dest).Meets (.recorded registry index)
      (fun _ following => Spent (yields dest 0 (slotsAt state situation.1.disk archive))
        situation.2 following.2)
      (fun _ following => Spent (yields dest 0 (slotsAt state situation.1.disk archive))
        situation.2 following.2) situation := by
  unfold extractZip
  rw [Fallible.meets_bind, meets_io]
  intro result after occurs
  cases result with
  | error error => exact .refused rfl _ situation.2
  | ok bytes =>
      have opened : situation.1.disk.read archive = .ok bytes := by
        rcases occurs_disk occurs with ⟨answer, -⟩ | ⟨impossible, -⟩
        · exact answer.symm
        · cases impossible
      have nothing : Spent 0 situation.2 (⟨index, situation.1, .disk (.read archive), .ok bytes,
          after⟩ :: situation.2) := @Spent.done (.read archive) index _ after bytes situation.2
      simp only [Fallible.meets_bind, Fallible.meets_lift]
      refine ⟨fun error refused => ?_, fun slots accepted => ?_⟩
      · have none : slotsAt state situation.1.disk archive = [] := by
          simp [slotsAt, opened, refused, Except.toOption]
        rw [none]
        exact nothing
      · have some : slotsAt state situation.1.disk archive = slots := by
          simp [slotsAt, opened, accepted, Except.toOption]
        rw [some]
        refine (extractEntries_spends 0 slots).mono ?_ ?_
        · exact fun _ _ later => by simpa using nothing.trans later
        · exact fun _ _ later => by simpa using nothing.trans later

end Extraction

/-- An archive that yields no more than the cap is written within it; where the disk
refuses nothing no other is. -/
theorem extraction_capped_iff {state : State} {archive dest : List String} {index : Nat}
    {faults : List Bool} {before after : Service} {events : List (Event registry)}
    {outcome : Except AppError Unit}
    (executed : (extractZip state archive dest).run.execute index faults before [] =
      some (outcome, after, events)) :
    (yields dest 0 (slotsAt state before.disk archive) ≤ maxUncompressed →
      writtenBytes events ≤ maxUncompressed) ∧
    (events.any refuses = false → (writtenBytes events ≤ maxUncompressed ↔
      yields dest 0 (slotsAt state before.disk archive) ≤ maxUncompressed)) := by
  have spent : Spent (yields dest 0 (slotsAt state before.disk archive)) [] events := by
    have ended := Process.execute_recorded
      (@extractZip_spends dest index (before, []) state archive) executed
    cases outcome with
    | ok reply => exact ended
    | error error => exact ended
  have most : writtenBytes events ≤ yields dest 0 (slotsAt state before.disk archive) := by
    simpa [writtenBytes] using spent.atMost
  refine ⟨fun kept => most.trans kept, fun accepted => ?_⟩
  have all : writtenBytes events = yields dest 0 (slotsAt state before.disk archive) := by
    simpa [writtenBytes] using spent.exactly accepted
  rw [all]

def entryState (size : Nat) (content : Bytes) : State :=
  { shownState with openZip := fun _ => .ok [.ok ⟨"a.jar", false, size, content, none⟩] }

/-- The entry declares nothing and yields three bytes. -/
theorem extraction_capped_undeclared :
    ∃ after events, (extractZip (entryState 0 [65, 66, 67]) ["pack", "a.zip"]
        (filesPath "pack")).run.execute 0 [] stagedArchive [] = some (.ok (), after, events) ∧
      writtenBytes events ≤ maxUncompressed := by
  have ended : ((extractZip (entryState 0 [65, 66, 67]) ["pack", "a.zip"]
      (filesPath "pack")).run.execute 0 [] stagedArchive []).map
        (fun ran => (ran.1, ran.2.2.any refuses)) = some (.ok (), false) := by decide +kernel
  obtain ⟨⟨outcome, after, events⟩, executed, same⟩ := Option.map_eq_some_iff.mp ended
  obtain ⟨rfl, accepted⟩ := Prod.mk.inj same
  refine ⟨after, events, executed, ?_⟩
  exact ((extraction_capped_iff executed).2 accepted).mpr (by decide +kernel)

theorem yields_undeclared (content : Bytes) :
    yields (filesPath "pack") 0
      (slotsAt (entryState 0 content) stagedArchive.disk ["pack", "a.zip"]) = content.length := by
  have read : stagedArchive.disk.read ["pack", "a.zip"] = .ok [] := by decide +kernel
  have named : entryPath "a.jar" = .ok (some "a.jar") := by decide +kernel
  have within : isWithin (joinFiles (filesPath "pack") "a.jar") (filesPath "pack") = true := by
    decide +kernel
  simp [slotsAt, read, openArchive, entryState, Except.toOption, maxEntries, yields, named, within,
    ZipEntry.yield]

/-- An entry that declares nothing and yields one byte more than the cap. -/
def overfullState : State := entryState 0 (List.replicate (maxUncompressed + 1) 0)

theorem extraction_not_capped :
    ¬∀ (state : State) (archive dest : List String) (index : Nat) (faults : List Bool)
      (before after : Service) (events : List (Event registry)) (outcome : Except AppError Unit),
      (extractZip state archive dest).run.execute index faults before [] =
        some (outcome, after, events) → writtenBytes events ≤ maxUncompressed := by
  intro capped
  have ended : ((extractZip overfullState ["pack", "a.zip"] (filesPath "pack")).run.execute 0 []
      stagedArchive []).map (fun ran => (ran.1, ran.2.2.any refuses)) = some (.ok (), false) := by
    decide +kernel
  obtain ⟨⟨outcome, after, events⟩, executed, same⟩ := Option.map_eq_some_iff.mp ended
  obtain ⟨rfl, accepted⟩ := Prod.mk.inj same
  have spent : Spent (yields (filesPath "pack") 0
      (slotsAt overfullState stagedArchive.disk ["pack", "a.zip"])) [] events :=
    Process.execute_recorded (@extractZip_spends (filesPath "pack") 0 (stagedArchive, [])
      overfullState ["pack", "a.zip"]) executed
  rw [overfullState, yields_undeclared, List.length_replicate] at spent
  have all := spent.exactly accepted
  have within := capped overfullState _ _ _ _ _ _ _ _ executed
  omega

end Loontail.Bundles
