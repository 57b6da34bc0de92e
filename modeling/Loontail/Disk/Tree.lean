import Mathlib.Data.List.Dedup
import Mathlib.Data.List.Induction
import Mathlib.Data.List.Infix
import Mathlib.Data.List.Sort

/-! # Trees of files and folders

A tree says what is at each path; whatever exists lies in a folder. The calls follow
POSIX: each answers with an error and changes nothing, or leaves what its definition
shows. -/

namespace Disk

abbrev Bytes := List UInt8

inductive IoError where
  | notFound
  | alreadyExists
  | notADirectory
  | isADirectory
  | directoryNotEmpty
  | invalidInput
  | device
  deriving DecidableEq, Repr

/-- As the standard library prints it. -/
def IoError.text : IoError → String
  | notFound => "No such file or directory (os error 2)"
  | device => "Input/output error (os error 5)"
  | alreadyExists => "File exists (os error 17)"
  | notADirectory => "Not a directory (os error 20)"
  | isADirectory => "Is a directory (os error 21)"
  | invalidInput => "Invalid argument (os error 22)"
  | directoryNotEmpty => "Directory not empty (os error 39)"

inductive Node (Content : Type) where
  | file (content : Content)
  | folder
  deriving DecidableEq, Repr

def Node.isFolder {Content : Type} : Node Content → Bool
  | file _ => false
  | folder => true

structure Tree (Name Content : Type) where
  find : List Name → Option (Node Content)
  known : List (List Name)
  listed : ∀ path, (find path).isSome → path ∈ known
  root : find [] = some .folder
  closed : ∀ path name, (find (path ++ [name])).isSome → find path = some .folder

namespace Tree

variable {Name Content : Type}

theorem listed_root (path : List Name)
    (present : (if path.isEmpty then some (Node.folder : Node Content) else none).isSome) :
    path ∈ [([] : List Name)] := by
  cases path with
  | nil => simp
  | cons name rest => cases present

theorem closed_root (path : List Name) (name : Name)
    (present : (if (path ++ [name]).isEmpty then some (Node.folder : Node Content)
      else none).isSome) :
    (if path.isEmpty then some (Node.folder : Node Content) else none) = some .folder := by
  simp at present

def empty : Tree Name Content where
  find := fun path => if path.isEmpty then some .folder else none
  known := [[]]
  listed := listed_root
  root := rfl
  closed := closed_root

def isFolder (tree : Tree Name Content) (path : List Name) : Bool :=
  match tree.find path with
  | some node => node.isFolder
  | none => false

def isFile (tree : Tree Name Content) (path : List Name) : Bool :=
  match tree.find path with
  | some node => !node.isFolder
  | none => false

/-- `Path::exists`. -/
def present (tree : Tree Name Content) (path : List Name) : Bool := (tree.find path).isSome

theorem isFolder_iff {tree : Tree Name Content} {path : List Name} :
    tree.isFolder path = true ↔ tree.find path = some .folder := by
  unfold isFolder
  split
  · rename_i node found
    cases node <;> simp [found, Node.isFolder]
  · rename_i missing
    simp [missing]

theorem isFile_iff {tree : Tree Name Content} {path : List Name} :
    tree.isFile path = true ↔ ∃ content, tree.find path = some (.file content) := by
  unfold isFile
  split
  · rename_i node found
    cases node <;> simp [found, Node.isFolder]
  · rename_i missing
    simp [missing]

theorem isFile_congr {left right : Tree Name Content} {path : List Name}
    (same : left.find path = right.find path) : left.isFile path = right.isFile path := by
  rw [isFile, isFile, same]

theorem present_cases {tree : Tree Name Content} {path : List Name} :
    tree.present path = true ↔ tree.isFile path = true ∨ tree.isFolder path = true := by
  unfold present isFile isFolder
  cases tree.find path with
  | none => simp
  | some node => cases node <;> simp [Node.isFolder]

theorem not_root_of_isFile {tree : Tree Name Content} {path : List Name}
    (file : tree.isFile path = true) : path ≠ [] := by
  rintro rfl
  obtain ⟨content, found⟩ := isFile_iff.mp file
  rw [tree.root] at found
  cases found

theorem folder_above {tree : Tree Name Content} {path : List Name} {rest : List Name}
    (present : (tree.find (path ++ rest)).isSome) (proper : rest ≠ []) :
    tree.find path = some .folder := by
  induction rest using List.reverseRecOn with
  | nil => exact (proper rfl).elim
  | append_singleton rest name induction =>
      rw [← List.append_assoc] at present
      have above := tree.closed _ _ present
      by_cases last : rest = []
      · subst last
        simpa using above
      · exact induction (by rw [above]; rfl) last

theorem folder_of_above {tree : Tree Name Content} {path below : List Name}
    (within : path <+: below) (proper : path ≠ below) (present : (tree.find below).isSome) :
    tree.find path = some .folder := by
  obtain ⟨rest, rfl⟩ := within
  refine folder_above present ?_
  rintro rfl
  exact proper (List.append_nil path).symm

def throughFile (tree : Tree Name Content) (path : List Name) : Bool :=
  path.inits.any tree.isFile

/-- Why a folder that is none cannot be entered. -/
def unresolved (tree : Tree Name Content) (folder : List Name) : IoError :=
  if tree.throughFile folder then .notADirectory else .notFound

variable [DecidableEq Name]

/-! ## Creating -/

def withFolders (tree : Tree Name Content) (path other : List Name) : Option (Node Content) :=
  if other <+: path then some .folder else tree.find other

theorem withFolders_listed {tree : Tree Name Content} {path : List Name} (other : List Name)
    (present : (tree.withFolders path other).isSome) : other ∈ path.inits ++ tree.known := by
  unfold withFolders at present
  split at present
  · rename_i within
    exact List.mem_append_left _ ((List.mem_inits _ _).mpr within)
  · exact List.mem_append_right _ (tree.listed other present)

theorem withFolders_root {tree : Tree Name Content} {path : List Name} :
    tree.withFolders path [] = some .folder := if_pos List.nil_prefix

theorem withFolders_closed {tree : Tree Name Content} {path : List Name} (other : List Name)
    (name : Name) (present : (tree.withFolders path (other ++ [name])).isSome) :
    tree.withFolders path other = some .folder := by
  unfold withFolders at present ⊢
  split at present
  · rename_i within
    rw [if_pos ((List.prefix_append other [name]).trans within)]
  · split
    · rfl
    · exact tree.closed other name present

/-- `create_dir_all`. -/
def createDirAll (tree : Tree Name Content) (path : List Name) :
    Except IoError (Tree Name Content) :=
  if tree.isFile path then .error .alreadyExists
  else if tree.throughFile path then .error .notADirectory
  else .ok
    { find := tree.withFolders path
      known := path.inits ++ tree.known
      listed := withFolders_listed
      root := withFolders_root
      closed := withFolders_closed }

def withFile (tree : Tree Name Content) (path : List Name) (content : Content)
    (other : List Name) : Option (Node Content) :=
  if other = path then some (.file content) else tree.find other

def Admits (tree : Tree Name Content) (path : List Name) : Prop :=
  path ≠ [] ∧ tree.isFolder path = false ∧ tree.isFolder path.dropLast = true

instance (tree : Tree Name Content) (path : List Name) : Decidable (tree.Admits path) :=
  inferInstanceAs (Decidable (_ ∧ _ ∧ _))

theorem withFile_listed {tree : Tree Name Content} {path : List Name} {content : Content}
    (other : List Name) (present : (tree.withFile path content other).isSome) :
    other ∈ path :: tree.known := by
  unfold withFile at present
  split at present
  · rename_i same
    exact List.mem_cons.mpr (.inl same)
  · exact List.mem_cons_of_mem _ (tree.listed other present)

theorem withFile_root {tree : Tree Name Content} {path : List Name} {content : Content}
    (admits : tree.Admits path) : tree.withFile path content [] = some .folder := by
  rw [withFile, if_neg admits.1.symm]
  exact tree.root

theorem withFile_closed {tree : Tree Name Content} {path : List Name} {content : Content}
    (admits : tree.Admits path) (other : List Name) (name : Name)
    (present : (tree.withFile path content (other ++ [name])).isSome) :
    tree.withFile path content other = some .folder := by
  obtain ⟨-, free, above⟩ := admits
  have folder : tree.find other = some .folder := by
    unfold withFile at present
    split at present
    · rename_i same
      have parent : path.dropLast = other := by rw [← same, List.dropLast_concat]
      rw [parent] at above
      exact isFolder_iff.mp above
    · exact tree.closed other name present
  rw [withFile, if_neg]
  · exact folder
  · rintro rfl
    rw [isFolder_iff.mpr folder] at free
    cases free

/-- `File::create`, with what is written to the file afterwards. -/
def writeFile (tree : Tree Name Content) (path : List Name) (content : Content) :
    Except IoError (Tree Name Content) :=
  if admits : tree.Admits path then
    .ok
      { find := tree.withFile path content
        known := path :: tree.known
        listed := withFile_listed
        root := withFile_root admits
        closed := withFile_closed admits }
  else if tree.isFolder path then .error .isADirectory
  else .error (tree.unresolved path.dropLast)

/-! ## Removing -/

def withoutFile (tree : Tree Name Content) (path other : List Name) : Option (Node Content) :=
  if other = path then none else tree.find other

theorem withoutFile_listed {tree : Tree Name Content} {path : List Name} (other : List Name)
    (present : (tree.withoutFile path other).isSome) : other ∈ tree.known := by
  unfold withoutFile at present
  split at present
  · cases present
  · exact tree.listed other present

theorem withoutFile_root {tree : Tree Name Content} {path : List Name}
    (file : tree.isFile path = true) : tree.withoutFile path [] = some .folder := by
  rw [withoutFile, if_neg (not_root_of_isFile file).symm]
  exact tree.root

theorem withoutFile_closed {tree : Tree Name Content} {path : List Name}
    (file : tree.isFile path = true) (other : List Name) (name : Name)
    (present : (tree.withoutFile path (other ++ [name])).isSome) :
    tree.withoutFile path other = some .folder := by
  unfold withoutFile at present
  split at present
  · cases present
  · have folder := tree.closed other name present
    rw [withoutFile, if_neg]
    · exact folder
    · rintro rfl
      obtain ⟨content, found⟩ := isFile_iff.mp file
      rw [folder] at found
      cases found

def removeFile (tree : Tree Name Content) (path : List Name) :
    Except IoError (Tree Name Content) :=
  if file : tree.isFile path = true then
    .ok
      { find := tree.withoutFile path
        known := tree.known
        listed := withoutFile_listed
        root := withoutFile_root file
        closed := withoutFile_closed file }
  else if tree.isFolder path then .error .isADirectory
  else .error (tree.unresolved path.dropLast)

def withoutFolder (tree : Tree Name Content) (path other : List Name) :
    Option (Node Content) :=
  if path <+: other then none else tree.find other

theorem withoutFolder_listed {tree : Tree Name Content} {path : List Name} (other : List Name)
    (present : (tree.withoutFolder path other).isSome) : other ∈ tree.known := by
  unfold withoutFolder at present
  split at present
  · cases present
  · exact tree.listed other present

theorem withoutFolder_root {tree : Tree Name Content} {path : List Name} (inside : path ≠ []) :
    tree.withoutFolder path [] = some .folder := by
  rw [withoutFolder, if_neg fun within => inside (List.prefix_nil.mp within)]
  exact tree.root

theorem withoutFolder_closed {tree : Tree Name Content} {path : List Name} (other : List Name)
    (name : Name) (present : (tree.withoutFolder path (other ++ [name])).isSome) :
    tree.withoutFolder path other = some .folder := by
  unfold withoutFolder at present
  split at present
  · cases present
  · rename_i outside
    rw [withoutFolder, if_neg fun within => outside (within.trans (List.prefix_append _ _))]
    exact tree.closed other name present

/-- `remove_dir_all`. -/
def removeDirAll (tree : Tree Name Content) (path : List Name) :
    Except IoError (Tree Name Content) :=
  if inside : path ≠ [] then
    if tree.isFolder path then
      .ok
        { find := tree.withoutFolder path
          known := tree.known
          listed := withoutFolder_listed
          root := withoutFolder_root inside
          closed := withoutFolder_closed }
    else if tree.isFile path then .error .notADirectory
    else .error (tree.unresolved path.dropLast)
  else .error .invalidInput

/-! ## Renaming -/

def vacant (tree : Tree Name Content) (path : List Name) : Bool :=
  tree.known.all fun other => !(path <+: other && other ≠ path && (tree.find other).isSome)

/-- What is at the source may take the place of what is at the target. -/
def replaces (tree : Tree Name Content) (source target : List Name) : Bool :=
  (tree.isFile source && !tree.isFolder target) ||
    (tree.isFolder source && !tree.isFile target && tree.vacant target)

def Movable (tree : Tree Name Content) (source target : List Name) : Prop :=
  target ≠ [] ∧ ¬source <+: target ∧ tree.isFolder target.dropLast = true ∧
    tree.replaces source target = true

instance (tree : Tree Name Content) (source target : List Name) :
    Decidable (tree.Movable source target) :=
  inferInstanceAs (Decidable (_ ∧ _ ∧ _ ∧ _))

def moved (tree : Tree Name Content) (source target other : List Name) :
    Option (Node Content) :=
  if target <+: other then tree.find (source ++ other.drop target.length)
  else if source <+: other then none
  else tree.find other

theorem moved_listed {tree : Tree Name Content} {source target : List Name} (other : List Name)
    (present : (tree.moved source target other).isSome) :
    other ∈ tree.known.map (fun path => target ++ path.drop source.length) ++ tree.known := by
  unfold moved at present
  split at present
  · rename_i within
    obtain ⟨rest, rfl⟩ := within
    rw [List.drop_left] at present
    refine List.mem_append_left _ (List.mem_map.mpr ⟨source ++ rest, tree.listed _ present, ?_⟩)
    rw [List.drop_left]
  · split at present
    · cases present
    · exact List.mem_append_right _ (tree.listed other present)

theorem moved_root {tree : Tree Name Content} {source target : List Name}
    (movable : tree.Movable source target) : tree.moved source target [] = some .folder := by
  obtain ⟨inside, apart, -, -⟩ := movable
  rw [moved, if_neg fun within => inside (List.prefix_nil.mp within), if_neg]
  · exact tree.root
  · intro within
    exact apart (List.prefix_nil.mp within ▸ List.nil_prefix)

theorem moved_closed {tree : Tree Name Content} {source target : List Name}
    (movable : tree.Movable source target) (other : List Name) (name : Name)
    (present : (tree.moved source target (other ++ [name])).isSome) :
    tree.moved source target other = some .folder := by
  obtain ⟨inside, apart, above, -⟩ := movable
  unfold moved at present
  split at present
  · rename_i within
    rcases List.prefix_concat_iff.mp within with whole | below
    · -- the target itself: its folder stays where it is
      have parent : target.dropLast = other := by rw [whole, List.dropLast_concat]
      rw [parent] at above
      rw [moved, if_neg, if_neg]
      · exact isFolder_iff.mp above
      · intro under
        exact apart (whole ▸ under.trans (List.prefix_append _ _))
      · intro under
        have longer := under.length_le
        rw [whole, List.length_append, List.length_singleton] at longer
        omega
    · obtain ⟨rest, rfl⟩ := below
      rw [List.append_assoc, List.drop_left, ← List.append_assoc] at present
      rw [moved, if_pos (List.prefix_append _ _), List.drop_left]
      exact tree.closed _ name present
  · rename_i outside
    split at present
    · cases present
    · rename_i stays
      rw [moved, if_neg fun within => outside (within.trans (List.prefix_append _ _)),
        if_neg fun within => stays (within.trans (List.prefix_append _ _))]
      exact tree.closed other name present

def renameError (tree : Tree Name Content) (source target : List Name) : IoError :=
  if !tree.present source then tree.unresolved source.dropLast
  else if !tree.isFolder target.dropLast then tree.unresolved target.dropLast
  else if source <+: target then .invalidInput
  else if target <+: source then .directoryNotEmpty
  else if tree.isFolder source then
    if tree.isFile target then .notADirectory else .directoryNotEmpty
  else .isADirectory

def rename (tree : Tree Name Content) (source target : List Name) :
    Except IoError (Tree Name Content) :=
  if source = target ∧ tree.present source then .ok tree
  else if movable : tree.Movable source target then
    .ok
      { find := tree.moved source target
        known := tree.known.map (fun path => target ++ path.drop source.length) ++ tree.known
        listed := moved_listed
        root := moved_root movable
        closed := moved_closed movable }
  else .error (tree.renameError source target)

/-! ## Reading -/

def read (tree : Tree Name Content) (path : List Name) : Except IoError Content :=
  match tree.find path with
  | some (.file content) => .ok content
  | some .folder => .error .isADirectory
  | none => .error (tree.unresolved path.dropLast)

def readDir (tree : Tree Name Content) (path : List Name) : Except IoError Unit :=
  match tree.find path with
  | some .folder => .ok ()
  | some (.file _) => .error .notADirectory
  | none => .error (tree.unresolved path.dropLast)

def precedes (before : Name → Name → Bool) : List Name → List Name → Bool
  | [], _ => true
  | _ :: _, [] => false
  | left :: lefts, right :: rights =>
      before left right || (left = right && precedes before lefts rights)

def below (tree : Tree Name Content) (before : Name → Name → Bool) (folder : List Name) :
    List (List Name × Node Content) :=
  (((tree.known.filter fun path => folder <+: path && path ≠ folder).dedup.filterMap fun path =>
    (tree.find path).map fun node => (path.drop folder.length, node))).insertionSort
      fun left right => precedes before left.1 right.1

/-! ## What a call leaves -/

section Facts

variable {tree after : Tree Name Content} {path source target : List Name}

theorem createDirAll_ok (created : tree.createDirAll path = .ok after) :
    after.find = tree.withFolders path ∧ ∀ other, other <+: path → tree.isFile other = false := by
  unfold createDirAll at created
  split at created
  · cases created
  · split at created
    · cases created
    · rename_i clear
      cases created
      refine ⟨rfl, fun other within => ?_⟩
      simp only [throughFile, List.any_eq_true, not_exists, not_and, Bool.not_eq_true] at clear
      exact clear other ((List.mem_inits _ _).mpr within)

theorem createDirAll_of_clear (clear : ∀ other, other <+: path → tree.isFile other = false) :
    ∃ made, tree.createDirAll path = .ok made := by
  unfold createDirAll
  rw [if_neg (by rw [clear path (List.prefix_refl _)]; simp), if_neg]
  · exact ⟨_, rfl⟩
  · simp only [throughFile, List.any_eq_true, not_exists, not_and, Bool.not_eq_true]
    exact fun other member => clear other ((List.mem_inits _ _).mp member)

theorem writeFile_ok {content : Content} (written : tree.writeFile path content = .ok after) :
    after.find = tree.withFile path content ∧ tree.Admits path := by
  unfold writeFile at written
  split at written
  · rename_i admits
    cases written
    exact ⟨rfl, admits⟩
  · split at written <;> cases written

theorem writeFile_of_admits (content : Content) (admits : tree.Admits path) :
    ∃ written, tree.writeFile path content = .ok written := by
  unfold writeFile
  rw [dif_pos admits]
  exact ⟨_, rfl⟩

theorem removeFile_ok (removed : tree.removeFile path = .ok after) :
    after.find = tree.withoutFile path ∧ tree.isFile path = true := by
  unfold removeFile at removed
  split at removed
  · rename_i file
    cases removed
    exact ⟨rfl, file⟩
  · split at removed <;> cases removed

theorem removeDirAll_ok (removed : tree.removeDirAll path = .ok after) :
    after.find = tree.withoutFolder path ∧ path ≠ [] ∧ tree.isFolder path = true := by
  unfold removeDirAll at removed
  split at removed
  · rename_i inside
    split at removed
    · rename_i folder
      cases removed
      exact ⟨rfl, inside, folder⟩
    · split at removed <;> cases removed
  · cases removed

theorem removeDirAll_of_folder (inside : path ≠ []) (folder : tree.isFolder path = true) :
    ∃ removed, tree.removeDirAll path = .ok removed := by
  unfold removeDirAll
  rw [dif_pos inside, if_pos folder]
  exact ⟨_, rfl⟩

theorem rename_ok (renamed : tree.rename source target = .ok after) :
    (source = target ∧ after = tree) ∨
      (source ≠ target ∧ after.find = tree.moved source target ∧
        tree.Movable source target) := by
  unfold rename at renamed
  split at renamed
  · rename_i same
    cases renamed
    exact .inl ⟨same.1, rfl⟩
  · split at renamed
    · rename_i movable
      cases renamed
      refine .inr ⟨?_, rfl, movable⟩
      rintro rfl
      exact movable.2.1 (List.prefix_refl _)
    · cases renamed

theorem rename_of_movable (movable : tree.Movable source target) :
    ∃ moved, tree.rename source target = .ok moved := by
  unfold rename
  split
  · exact ⟨tree, rfl⟩
  · exact ⟨_, rfl⟩

/-! ### What stays where it is -/

theorem createDirAll_keeps {other : List Name} (created : tree.createDirAll path = .ok after)
    (there : (tree.find other).isSome) : after.find other = tree.find other := by
  obtain ⟨made, clear⟩ := createDirAll_ok created
  rw [made, withFolders]
  split
  · rename_i within
    obtain ⟨node, found⟩ := Option.isSome_iff_exists.mp there
    cases node with
    | folder => exact found.symm
    | file content =>
        have file := isFile_iff.mpr ⟨content, found⟩
        rw [clear other within] at file
        cases file
  · rfl

theorem writeFile_keeps {content : Content} {other : List Name}
    (written : tree.writeFile path content = .ok after) (apart : other ≠ path) :
    after.find other = tree.find other := by
  rw [(writeFile_ok written).1, withFile, if_neg apart]

theorem removeFile_keeps {other : List Name} (removed : tree.removeFile path = .ok after)
    (apart : other ≠ path) : after.find other = tree.find other := by
  rw [(removeFile_ok removed).1, withoutFile, if_neg apart]

theorem removeDirAll_keeps {other : List Name} (removed : tree.removeDirAll path = .ok after)
    (apart : ¬path <+: other) : after.find other = tree.find other := by
  rw [(removeDirAll_ok removed).1, withoutFolder, if_neg apart]

theorem rename_keeps {other : List Name} (renamed : tree.rename source target = .ok after)
    (apart : ¬source <+: other) (elsewhere : other ≠ target)
    (there : (tree.find other).isSome) : after.find other = tree.find other := by
  rcases rename_ok renamed with ⟨-, rfl⟩ | ⟨-, left, movable⟩
  · rfl
  · rw [left, moved, if_neg apart]
    split
    · rename_i within
      obtain ⟨-, -, -, replaces⟩ := movable
      have above := isFolder_iff.mpr (folder_of_above within elsewhere.symm there)
      simp only [Tree.replaces, above, Bool.not_true, Bool.and_false, Bool.false_or,
        Bool.and_eq_true, vacant, List.all_eq_true] at replaces
      have clear := replaces.2 other (tree.listed other there)
      simp [within, elsewhere, there] at clear
    · rfl

/-! ### What is not touched at all -/

theorem createDirAll_apart {other : List Name} (created : tree.createDirAll path = .ok after)
    (apart : ¬other <+: path) : after.find other = tree.find other := by
  rw [(createDirAll_ok created).1, withFolders, if_neg apart]

theorem rename_apart {other : List Name} (renamed : tree.rename source target = .ok after)
    (left : ¬source <+: other) (entered : ¬target <+: other) :
    after.find other = tree.find other := by
  rcases rename_ok renamed with ⟨-, rfl⟩ | ⟨-, moves, -⟩
  · rfl
  · rw [moves, moved, if_neg entered, if_neg left]

theorem rename_puts (renamed : tree.rename source target = .ok after) :
    after.find target = tree.find source := by
  rcases rename_ok renamed with ⟨rfl, rfl⟩ | ⟨-, left, -⟩
  · rfl
  · rw [left, moved, if_pos (List.prefix_refl _), List.drop_length, List.append_nil]

/-- A file goes where its folder goes, unless another takes its place. -/
theorem rename_follows {other : List Name} {content : Content}
    (renamed : tree.rename source target = .ok after)
    (there : tree.find other = some (.file content))
    (unmatched : other = target → ∀ new, tree.find source = some (.file new) → new = content) :
    after.find (if source <+: other then target ++ other.drop source.length else other) =
      some (.file content) := by
  split
  · rename_i within
    obtain ⟨rest, rfl⟩ := within
    rw [List.drop_left]
    rcases rename_ok renamed with ⟨rfl, rfl⟩ | ⟨-, left, -⟩
    · exact there
    · rw [left, moved, if_pos (List.prefix_append _ _), List.drop_left]
      exact there
  · rename_i outside
    by_cases taken : other = target
    · subst taken
      rcases rename_ok renamed with ⟨rfl, rfl⟩ | ⟨-, -, movable⟩
      · exact there
      · -- only a file can take the place of a file
        have file := isFile_iff.mpr ⟨content, there⟩
        have replaces := movable.2.2.2
        simp only [Tree.replaces, file, Bool.not_true, Bool.and_false, Bool.false_and,
          Bool.or_false, Bool.and_eq_true] at replaces
        obtain ⟨new, found⟩ := isFile_iff.mp replaces.1
        rw [rename_puts renamed, found, unmatched rfl new found]
    · rw [rename_keeps renamed outside taken (by rw [there]; rfl)]
      exact there

theorem mem_below {before : Name → Name → Bool} {folder rest : List Name}
    {node : Node Content} : (rest, node) ∈ tree.below before folder ↔
      rest ≠ [] ∧ tree.find (folder ++ rest) = some node := by
  rw [below, List.mem_insertionSort, List.mem_filterMap]
  constructor
  · rintro ⟨path, member, found⟩
    obtain ⟨other, there, same⟩ := Option.map_eq_some_iff.mp found
    cases same
    rw [List.mem_dedup, List.mem_filter] at member
    obtain ⟨-, within⟩ := member
    simp only [Bool.and_eq_true, decide_eq_true_eq] at within
    obtain ⟨⟨rest, rfl⟩, proper⟩ := within
    rw [List.drop_left]
    exact ⟨by rintro rfl; exact proper (List.append_nil _), there⟩
  · rintro ⟨proper, there⟩
    refine ⟨folder ++ rest, ?_, by rw [there, Option.map_some, List.drop_left]⟩
    rw [List.mem_dedup, List.mem_filter]
    refine ⟨tree.listed _ (by rw [there]; rfl), ?_⟩
    simp only [Bool.and_eq_true, decide_eq_true_eq]
    exact ⟨List.prefix_append _ _, by simpa using proper⟩

theorem nodup_below {before : Name → Name → Bool} {folder : List Name} :
    ((tree.below before folder).map Prod.fst).Nodup := by
  rw [below, ((List.perm_insertionSort _ _).map Prod.fst).nodup_iff, List.map_filterMap,
    List.Nodup, List.pairwise_filterMap]
  apply (List.nodup_dedup _).imp_of_mem
  intro left right leftMem rightMem different one oneFrom other otherFrom same
  rw [List.mem_dedup, List.mem_filter, Bool.and_eq_true, decide_eq_true_eq] at leftMem rightMem
  obtain ⟨leftRest, rfl⟩ := leftMem.2.1
  obtain ⟨rightRest, rfl⟩ := rightMem.2.1
  apply different
  simp only [Option.map_map, Option.map_eq_some_iff, Function.comp, List.drop_left] at oneFrom otherFrom
  obtain ⟨-, -, rfl⟩ := oneFrom
  obtain ⟨-, -, rfl⟩ := otherFrom
  rw [same]

end Facts

end Tree

end Disk
