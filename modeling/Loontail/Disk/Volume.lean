import Loontail.Disk.Tree
import Mathlib.Data.List.Basic

/-! # Open files

Folders of names, each name the link to a numbered file. A program that has opened a
file keeps its number: what happens to the name later does not concern it, what
others write to the file does. -/

namespace Disk

/-- Writing past the end fills the gap with zeros. -/
def patch (content : Bytes) (offset : Nat) (data : Bytes) : Bytes :=
  content.take offset ++ List.replicate (offset - content.length) 0 ++ data ++
    content.drop (offset + data.length)

theorem patch_end (content data : Bytes) :
    patch content content.length data = content ++ data := by
  simp [patch]

/-- No two names are links to one file. -/
structure Volume (Folder Name : Type) where
  folders : Folder → Bool
  entry : Folder → Name → Option Nat
  contents : List Bytes
  linked : ∀ folder name file, entry folder name = some file → file < contents.length
  apart : ∀ folder name other otherName file, entry folder name = some file →
    entry other otherName = some file → folder = other ∧ name = otherName

namespace Volume

variable {Folder Name : Type}

def empty : Volume Folder Name where
  folders := fun _ => false
  entry := fun _ _ => none
  contents := []
  linked := by simp
  apart := by simp

def content (volume : Volume Folder Name) (file : Nat) : Bytes :=
  volume.contents.getD file []

def stored (volume : Volume Folder Name) (folder : Folder) (name : Name) : Option Bytes :=
  (volume.entry folder name).map volume.content

theorem linked_set {volume : Volume Folder Name} {file : Nat} {data : Bytes} (folder : Folder)
    (name : Name) (other : Nat) (found : volume.entry folder name = some other) :
    other < (volume.contents.set file data).length := by
  rw [List.length_set]
  exact volume.linked folder name other found

def overwrite (volume : Volume Folder Name) (file : Nat) (data : Bytes) : Volume Folder Name :=
  { volume with
    contents := volume.contents.set file data
    linked := linked_set }

variable [DecidableEq Folder] [DecidableEq Name]

def makeFolder (volume : Volume Folder Name) (folder : Folder) : Volume Folder Name :=
  { volume with folders := fun other => other = folder || volume.folders other }

def link (volume : Volume Folder Name) (folder : Folder) (name : Name) (other : Folder)
    (otherName : Name) : Option Nat :=
  if other = folder ∧ otherName = name then some volume.contents.length
  else volume.entry other otherName

theorem link_linked {volume : Volume Folder Name} {folder : Folder} {name : Name}
    (other : Folder) (otherName : Name) (file : Nat)
    (found : volume.link folder name other otherName = some file) :
    file < (volume.contents ++ [[]]).length := by
  rw [List.length_append, List.length_singleton]
  unfold link at found
  split at found
  · cases found
    omega
  · have bound := volume.linked other otherName file found
    omega

theorem link_apart {volume : Volume Folder Name} {folder : Folder} {name : Name}
    (first : Folder) (firstName : Name) (second : Folder) (secondName : Name) (file : Nat)
    (left : volume.link folder name first firstName = some file)
    (right : volume.link folder name second secondName = some file) :
    first = second ∧ firstName = secondName := by
  unfold link at left right
  split at left
  · rename_i here
    split at right
    · rename_i there
      exact ⟨here.1.trans there.1.symm, here.2.trans there.2.symm⟩
    · cases left
      have bound := volume.linked second secondName _ right
      omega
  · split at right
    · cases right
      have bound := volume.linked first firstName _ left
      omega
    · exact volume.apart first firstName second secondName file left right

/-- `open(O_CREAT | O_TRUNC)`: a name that exists keeps its file, which is emptied. -/
def create (volume : Volume Folder Name) (folder : Folder) (name : Name) :
    Except IoError (Nat × Volume Folder Name) :=
  if volume.folders folder then
    match volume.entry folder name with
    | some file => .ok (file, volume.overwrite file [])
    | none =>
        .ok (volume.contents.length,
          { volume with
            entry := volume.link folder name
            contents := volume.contents ++ [[]]
            linked := link_linked
            apart := link_apart })
  else .error .notFound

def write (volume : Volume Folder Name) (file offset : Nat) (data : Bytes) :
    Volume Folder Name :=
  volume.overwrite file (patch (volume.content file) offset data)

/-- Up to so many bytes from an offset, all of them without a bound. -/
def read (volume : Volume Folder Name) (file offset : Nat) (bound : Option Nat) : Bytes :=
  match bound with
  | some count => ((volume.content file).drop offset).take count
  | none => (volume.content file).drop offset

def openFile (volume : Volume Folder Name) (folder : Folder) (name : Name) :
    Except IoError Nat :=
  match volume.entry folder name with
  | some file => .ok file
  | none => .error .notFound

/-- The links after the name `source` of a folder became `target`. -/
def relink (volume : Volume Folder Name) (folder : Folder) (source target : Name)
    (other : Folder) (name : Name) : Option Nat :=
  if other = folder ∧ name = target then volume.entry folder source
  else if other = folder ∧ name = source then none
  else volume.entry other name

theorem relink_cases {volume : Volume Folder Name} {folder other : Folder}
    {source target name : Name} {file : Nat}
    (found : volume.relink folder source target other name = some file) :
    (other = folder ∧ name = target ∧ volume.entry folder source = some file) ∨
      (¬(other = folder ∧ name = target) ∧ ¬(other = folder ∧ name = source) ∧
        volume.entry other name = some file) := by
  unfold relink at found
  split at found
  · rename_i here
    exact .inl ⟨here.1, here.2, found⟩
  · rename_i elsewhere
    split at found
    · cases found
    · rename_i stays
      exact .inr ⟨elsewhere, stays, found⟩

theorem relink_linked {volume : Volume Folder Name} {folder : Folder} {source target : Name}
    (other : Folder) (name : Name) (file : Nat)
    (found : volume.relink folder source target other name = some file) :
    file < volume.contents.length := by
  rcases relink_cases found with ⟨-, -, moved⟩ | ⟨-, -, kept⟩
  · exact volume.linked folder source file moved
  · exact volume.linked other name file kept

theorem relink_apart {volume : Volume Folder Name} {folder : Folder} {source target : Name}
    (first : Folder) (firstName : Name) (second : Folder) (secondName : Name) (file : Nat)
    (left : volume.relink folder source target first firstName = some file)
    (right : volume.relink folder source target second secondName = some file) :
    first = second ∧ firstName = secondName := by
  rcases relink_cases left with ⟨here, named, moved⟩ | ⟨-, stays, kept⟩ <;>
    rcases relink_cases right with ⟨there, called, gone⟩ | ⟨-, remains, held⟩
  · exact ⟨here.trans there.symm, named.trans called.symm⟩
  · have same := volume.apart folder source second secondName file moved held
    exact (remains ⟨same.1.symm, same.2.symm⟩).elim
  · have same := volume.apart first firstName folder source file kept gone
    exact (stays same).elim
  · exact volume.apart first firstName second secondName file kept held

/-- `rename` inside a folder: the target becomes the link to the source's file, and
the file it named before is only left to those who have it open. -/
def rename (volume : Volume Folder Name) (folder : Folder) (source target : Name) :
    Except IoError (Volume Folder Name) :=
  match volume.entry folder source with
  | none => .error .notFound
  | some _ =>
      .ok { volume with
        entry := volume.relink folder source target
        linked := relink_linked
        apart := relink_apart }

/-! ## What a call leaves -/

omit [DecidableEq Folder] [DecidableEq Name] in
theorem content_overwrite {volume : Volume Folder Name} {file : Nat}
    (present : file < volume.contents.length) (data : Bytes) (other : Nat) :
    (volume.overwrite file data).content other =
      if other = file then data else volume.content other := by
  by_cases same : other = file
  · subst same
    simp [overwrite, content, present]
  · simp [overwrite, content, List.getElem?_set_ne (Ne.symm same), same]

section Created

variable {volume after : Volume Folder Name} {folder : Folder} {name : Name} {file : Nat}

theorem create_cases (created : volume.create folder name = .ok (file, after)) :
    (volume.entry folder name = some file ∧ after = volume.overwrite file []) ∨
      (file = volume.contents.length ∧ after.entry = volume.link folder name ∧
        after.contents = volume.contents ++ [[]]) := by
  unfold create at created
  split at created
  · split at created
    · rename_i present
      cases created
      exact .inl ⟨present, rfl⟩
    · cases created
      exact .inr ⟨rfl, rfl, rfl⟩
  · cases created

theorem entry_create (created : volume.create folder name = .ok (file, after))
    (other : Folder) (otherName : Name) :
    after.entry other otherName =
      if other = folder ∧ otherName = name then some file else volume.entry other otherName := by
  rcases create_cases created with ⟨present, rfl⟩ | ⟨rfl, linked, -⟩
  · split
    · rename_i here
      rw [here.1, here.2]
      exact present
    · rfl
  · rw [linked]
    rfl

theorem length_create (created : volume.create folder name = .ok (file, after)) :
    volume.contents.length ≤ after.contents.length ∧ file < after.contents.length := by
  rcases create_cases created with ⟨present, rfl⟩ | ⟨rfl, -, contents⟩
  · have bound := volume.linked folder name file present
    simp only [overwrite, List.length_set]
    omega
  · rw [contents, List.length_append, List.length_singleton]
    omega

theorem content_create (created : volume.create folder name = .ok (file, after)) :
    after.content file = [] ∧
      ∀ other, other < volume.contents.length → other ≠ file →
        after.content other = volume.content other := by
  rcases create_cases created with ⟨present, rfl⟩ | ⟨rfl, -, contents⟩
  · have bound := volume.linked folder name file present
    refine ⟨by rw [content_overwrite bound, if_pos rfl], fun other _ different => ?_⟩
    rw [content_overwrite bound, if_neg different]
  · constructor
    · simp [content, contents]
    · intro other bound _
      simp [content, contents, List.getElem?_append_left bound]

theorem create_keeps (created : volume.create folder name = .ok (file, after)) {other : Nat}
    (bound : other < volume.contents.length) (unnamed : volume.entry folder name ≠ some other) :
    after.content other = volume.content other := by
  refine (content_create created).2 other bound fun same => ?_
  rcases create_cases created with ⟨present, -⟩ | ⟨fresh, -⟩
  · exact unnamed (same ▸ present)
  · omega

end Created

theorem rename_ok {volume after : Volume Folder Name} {folder : Folder} {source target : Name}
    (renamed : volume.rename folder source target = .ok after) :
    after.entry = volume.relink folder source target ∧ after.contents = volume.contents := by
  unfold rename at renamed
  split at renamed
  · cases renamed
  · cases renamed
    exact ⟨rfl, rfl⟩

end Volume

end Disk
