import Loontail.Bundles.Archive
import Loontail.Bundles.DiskCalls
import Loontail.Bundles.Rules
import Loontail.Bundles.Storage
import Loontail.Concurrency.Evaluate
import Loontail.Disk.Strays

/-! # Extraction into a folder

What extraction does goes by the folder it extracts into and by nothing else. -/

namespace Loontail.Bundles

open Concurrency Disk

/-! ## Calls on what is in a folder -/

def Inner (folder path : List String) : Prop := ∃ rest, PlainNames rest ∧ folder ++ rest = path

theorem Inner.within {folder path : List String} (inner : Inner folder path) :
    folder <+: path := by
  obtain ⟨rest, -, rfl⟩ := inner
  exact List.prefix_append _ _

theorem inner_joinFiles {folder : List String} {relativePath : String}
    (normalized : Normalized relativePath) : Inner folder (joinFiles folder relativePath) :=
  ⟨segments relativePath, normalized.plainNames, rfl⟩

theorem inner_parent {folder : List String} {relativePath : String}
    (normalized : Normalized relativePath) :
    Inner folder (joinFiles folder relativePath).dropLast := by
  refine ⟨(segments relativePath).dropLast,
    normalized.plainNames.of_prefix (List.dropLast_prefix _), ?_⟩
  rw [joinFiles, List.dropLast_append_of_ne_nil (segments_ne_nil relativePath)]

def DiskCall.Inside (folder : List String) : DiskCall → Prop
  | createDirAll path => Inner folder path
  | create path => Inner folder path
  | append path _ => Inner folder path
  | _ => False

def Operation.Inside (folder : List String) : Operation → Prop
  | .disk call => call.Inside folder
  | _ => False

section Calls

variable {folder path : List String} {left right disk : Builds}

theorem appended_alike {data : Bytes} (alike : Tree.Alike folder left right)
    (within : folder <+: path) :
    Tree.Together folder (DiskCall.appended left path data) (DiskCall.appended right path data) := by
  unfold DiskCall.appended
  rw [alike path (.inr within)]
  split
  · exact alike.writeFile within _
  · exact .ok alike

theorem settle_together {made other : Except IoError Builds}
    (alike : Tree.Alike folder left right) (together : Tree.Together folder made other) :
    (DiskCall.settle left made).1 = (DiskCall.settle right other).1 ∧
      Tree.Alike folder (DiskCall.settle left made).2 (DiskCall.settle right other).2 := by
  cases together with
  | error error => exact ⟨rfl, alike⟩
  | ok after => exact ⟨rfl, after⟩

theorem DiskCall.Inside.alike {call : DiskCall} (inside : call.Inside folder)
    (alike : Tree.Alike folder left right) :
    (call.perform left).1 = (call.perform right).1 ∧
      Tree.Alike folder (call.perform left).2 (call.perform right).2 := by
  cases call with
  | createDirAll path => exact settle_together alike (alike.createDirAll inside.within)
  | create path => exact settle_together alike (alike.writeFile inside.within [])
  | append path data => exact settle_together alike (appended_alike alike inside.within)
  | _ => exact inside.elim

theorem DiskCall.Inside.apart {call : DiskCall} (inside : call.Inside folder)
    (above : ¬path <+: folder) (outside : ¬folder <+: path) :
    (call.perform disk).2.find path = disk.find path := by
  have other : ∀ {inner : List String}, folder <+: inner → path ≠ inner := by
    rintro inner within rfl
    exact outside within
  cases call with
  | createDirAll inner =>
      refine settle_find fun after made => Tree.createDirAll_apart made fun higher => ?_
      exact (Tree.near_of_above inside.within higher).elim above outside
  | create inner =>
      exact settle_find fun after made => Tree.writeFile_keeps made (other inside.within)
  | append inner data =>
      exact settle_find fun after made => appended_keeps made (other inside.within)
  | _ => exact inside.elim

end Calls

/-! ## Extraction -/

section Parts

variable {dest : List String}

abbrev Within (dest : List String) {Reply : Type} (part : Handler Reply) : Prop :=
  part.Meets (.footprint (Operation.Inside dest)) (fun _ _ => True) (fun _ _ => True) ()

theorem placeEntry_within (entry : ZipEntry) {safe : String} (normalized : Normalized safe) :
    Within dest (placeEntry entry safe (joinFiles dest safe)) := by
  have inner : Inner dest (joinFiles dest safe) := inner_joinFiles normalized
  have parent : Inner dest (joinFiles dest safe).dropLast := inner_parent normalized
  unfold placeEntry copyEntry
  split
  · exact takes_io _ inner
  · refine takes_bind (takes_io _ parent) fun _ => takes_bind (takes_io _ inner) fun _ => ?_
    refine takes_bind (takes_io _ inner) fun _ => ?_
    split <;> trivial

theorem entryPath_normalized {name safe : String} (accepted : entryPath name = .ok (some safe)) :
    Normalized safe := by
  unfold entryPath at accepted
  split at accepted
  · cases accepted
  · simp only at accepted
    split at accepted
    · cases accepted
    · split at accepted
      · rename_i path normal
        cases accepted
        exact normalized_of_ok normal
      · split at accepted <;> cases accepted

theorem extractEntry_within (total : Nat) (slot : ZipSlot) :
    Within dest (extractEntry dest total slot) := by
  cases slot with
  | error failure => trivial
  | ok entry =>
      unfold extractEntry
      rw [Within, Fallible.meets_bind, Fallible.meets_lift]
      refine ⟨fun _ _ => trivial, fun path accepted => ?_⟩
      cases path with
      | none => trivial
      | some safe =>
          refine takes_bind (takes_refuse _ _) fun _ => takes_bind (takes_refuse _ _) fun _ => ?_
          exact takes_bind (placeEntry_within entry (entryPath_normalized accepted)) fun _ => trivial

theorem extractEntries_within (total : Nat) (slots : List ZipSlot) :
    Within dest (extractEntries dest total slots) := by
  induction slots generalizing total with
  | nil => trivial
  | cons slot rest induction =>
      exact takes_bind (extractEntry_within total slot) fun declared => induction declared

end Parts

/-- The part of `extract_zip` that follows the reading of the archive. -/
def unpackInto (state : State) (dest : List String) (bytes : Bytes) : Handler Unit := do
  let slots ← Fallible.lift (openArchive state bytes)
  extractEntries dest 0 slots

theorem unpackInto_within (state : State) (dest : List String) (bytes : Bytes) :
    Within dest (unpackInto state dest bytes) :=
  takes_bind (takes_lift _) fun slots => extractEntries_within 0 slots

def bareBuild (slug : String) : Service :=
  .boot .empty ((DiskCall.createDirAll (filesPath slug)).perform .empty).2

/-- How an archive extracts into a build without any file, and what it leaves there. -/
def unpack (state : State) (slug : String) (bytes : Bytes) : Except AppError Unit × Builds :=
  let (outcome, after) := (unpackInto state (filesPath slug) bytes).run.evaluate (bareBuild slug)
  (outcome, after.disk)

/-- Wherever the files of a build have been cleared, an archive extracts as it does into
a build without any file. -/
theorem unpackInto_alike {state : State} {slug : String} {bytes : Bytes} {service : Service}
    (cleared : Tree.Alike (filesPath slug) service.disk (bareBuild slug).disk) :
    let left := (unpackInto state (filesPath slug) bytes).run.evaluate service
    left.1 = (unpack state slug bytes).1 ∧
      Tree.Alike (filesPath slug) left.2.disk (unpack state slug bytes).2 := by
  refine @Process.Uses.alike registry (Except AppError Unit) (Operation.Inside (filesPath slug))
    (fun left right : Service => Tree.Alike (filesPath slug) left.disk right.disk) ?_ _
    (Takes.uses (unpackInto_within state (filesPath slug) bytes)) service (bareBuild slug) cleared
  intro operation left right inside alike
  cases operation with
  | disk call => exact inside.alike alike
  | _ => exact inside.elim

theorem unpackInto_apart {state : State} {slug : String} {bytes : Bytes} {service : Service} :
    let after := ((unpackInto state (filesPath slug) bytes).run.evaluate service).2
    after.database = service.database ∧ ∀ path, ¬path <+: filesPath slug →
      ¬filesPath slug <+: path → after.disk.find path = service.disk.find path := by
  refine @Process.Uses.alone registry (Except AppError Unit) (Operation.Inside (filesPath slug))
    (fun after : Service => after.database = service.database ∧ ∀ path,
      ¬path <+: filesPath slug → ¬filesPath slug <+: path →
        after.disk.find path = service.disk.find path) ?_ _
    (Takes.uses (unpackInto_within state (filesPath slug) bytes)) service
    ⟨rfl, fun _ _ _ => rfl⟩
  intro operation before inside kept
  cases operation with
  | disk call =>
      exact ⟨kept.1, fun path above outside =>
        (inside.apart above outside).trans (kept.2 path above outside)⟩
  | _ => exact inside.elim

end Loontail.Bundles
