import Loontail.Disk.Tree

/-! # One thing put after another

Folders are made and files are written, each below the folders on the way to it. Whether all of
them can be put does not depend on their order, and what they leave depends on it only where
several files go to one path. -/

namespace Disk

variable {Name Content : Type}

/-- A file or a folder, behind the path where it goes. -/
abbrev Item (Name Content : Type) := List Name × Node Content

/-- The first is a file where the second needs a folder. -/
def Clash (first second : Item Name Content) : Prop :=
  first.2.isFolder = false ∧ first.1 <+: second.1 ∧
    (second.2.isFolder = true ∨ first.1 ≠ second.1)

def Node.content : Node Content → Option Content
  | file content => some content
  | folder => none

theorem Node.eq_folder {node : Node Content} (folder : node.isFolder = true) : node = .folder := by
  cases node with
  | file content => cases folder
  | folder => rfl

theorem prefix_dropLast {above path : List Name} (proper : above ≠ path) (within : above <+: path) :
    above <+: path.dropLast := by
  cases path using List.reverseRecOn with
  | nil => exact absurd (List.prefix_nil.mp within) proper
  | append_singleton parent name =>
      rw [List.dropLast_concat]
      exact (List.prefix_concat_iff.mp within).resolve_left proper

theorem parent_ne {path : List Name} (some : path ≠ []) : path.dropLast ≠ path := by
  intro same
  have shorter : path.dropLast.length = path.length - 1 := List.length_dropLast
  have long := List.length_pos_iff.mpr some
  rw [same] at shorter
  omega

section Contents

variable [DecidableEq Name]

instance (first second : Item Name Content) : Decidable (Clash first second) :=
  inferInstanceAs (Decidable (_ ∧ _ ∧ _))

def lastFile (items : List (Item Name Content)) (path : List Name) : Option Content :=
  (items.filterMap fun item => if item.1 = path then item.2.content else none).getLast?

/-- What the things make of a path: the last file that goes there, else a folder where something
goes there or below. -/
def contents (items : List (Item Name Content)) (path : List Name) : Option (Node Content) :=
  match lastFile items path with
  | some content => some (.file content)
  | none => if items.any fun item => path.isPrefixOf item.1 then some .folder else none

variable {items : List (Item Name Content)} {item : Item Name Content} {path : List Name}

theorem lastFile_cons : lastFile (item :: items) path =
    (lastFile items path).or (if item.1 = path then item.2.content else none) := by
  unfold lastFile
  rw [List.filterMap_cons]
  cases (if item.1 = path then item.2.content else none) with
  | none => rw [Option.or_none]
  | some content =>
      simp only [List.getLast?_cons]
      cases (items.filterMap _).getLast? <;> rfl

theorem lastFile_isSome : (lastFile items path).isSome = true ↔
    ∃ item ∈ items, item.1 = path ∧ item.2.isFolder = false := by
  induction items with
  | nil => simp [lastFile]
  | cons item rest induction =>
      rw [lastFile_cons, Option.isSome_or, Bool.or_eq_true, induction, List.exists_mem_cons_iff,
        or_comm]
      apply or_congr_left
      obtain ⟨there, node⟩ := item
      by_cases here : there = path <;> cases node <;> simp [here, Node.content, Node.isFolder]

theorem exists_of_contents (some : (contents items path).isSome = true) :
    ∃ item ∈ items, path <+: item.1 := by
  unfold contents at some
  split at some
  · rename_i content last
    obtain ⟨item, member, same, -⟩ := lastFile_isSome.mp (by rw [last]; rfl)
    exact ⟨item, member, same ▸ List.prefix_refl _⟩
  · split at some
    · rename_i below
      obtain ⟨item, member, within⟩ := List.any_eq_true.mp below
      exact ⟨item, member, List.isPrefixOf_iff_prefix.mp within⟩
    · cases some

theorem contents_within (folder : List Name) :
    contents (items.map fun item => (folder ++ item.1, item.2)) (folder ++ path) =
      contents items path := by
  have last : lastFile (items.map fun item => (folder ++ item.1, item.2)) (folder ++ path) =
      lastFile items path := by
    simp only [lastFile, List.filterMap_map, Function.comp_def, List.append_cancel_left_eq]
  have below : (items.map fun item => (folder ++ item.1, item.2)).any
      (fun item => (folder ++ path).isPrefixOf item.1) =
        items.any fun item => path.isPrefixOf item.1 := by
    rw [List.any_map, Bool.eq_iff_iff]
    simp only [List.any_eq_true, Function.comp, List.isPrefixOf_iff_prefix,
      List.prefix_append_right_inj]
  unfold contents
  rw [last, below]

end Contents

namespace Tree

variable [DecidableEq Name] {tree middle after : Tree Name Content} {path : List Name}
  {content : Content} {item other : Item Name Content} {items : List (Item Name Content)}

structure Receives (tree : Tree Name Content) (item : Item Name Content) : Prop where
  clear : ∀ above, above <+: item.1 → item.2.isFolder = true ∨ above ≠ item.1 →
    tree.isFile above = false
  free : item.2.isFolder = false → tree.isFolder item.1 = false

def put (tree : Tree Name Content) (item : Item Name Content) (path : List Name) :
    Option (Node Content) :=
  if path = item.1 then some item.2
  else if path <+: item.1 then some .folder
  else tree.find path

/-! ## Putting one thing -/

theorem createDirAll_puts (made : tree.createDirAll path = .ok after) :
    tree.Receives (path, .folder) ∧ after.find = tree.put (path, .folder) := by
  obtain ⟨folders, clear⟩ := createDirAll_ok made
  refine ⟨⟨fun above within _ => clear above within, fun file => (by cases file)⟩, ?_⟩
  funext other
  rw [folders, withFolders, put]
  by_cases same : other = path
  · rw [if_pos same, if_pos (same ▸ List.prefix_refl _)]
  · rw [if_neg same]

theorem createDirAll_refused {error : IoError} (refused : tree.createDirAll path = .error error) :
    ¬tree.Receives (path, .folder) := by
  intro receives
  obtain ⟨made, created⟩ := createDirAll_of_clear fun above within =>
    receives.clear above within (.inl rfl)
  rw [refused] at created
  cases created

theorem parent_made (receives : tree.Receives (path, .file content)) :
    ∃ made, tree.createDirAll path.dropLast = .ok made ∧ made.Admits path := by
  have some : path ≠ [] := by
    rintro rfl
    have folder := receives.free rfl
    rw [isFolder_iff.mpr tree.root] at folder
    cases folder
  obtain ⟨made, created⟩ := createDirAll_of_clear fun above within =>
    receives.clear above (within.trans (List.dropLast_prefix _)) (.inr fun same => by
      rw [same] at within
      exact parent_ne some (within.eq_of_length_le (by simp)).symm)
  have folders := (createDirAll_ok created).1
  refine ⟨made, created, some, ?_, ?_⟩
  · have outside : ¬path <+: path.dropLast := fun within =>
      parent_ne some (within.eq_of_length_le (by simp)).symm
    rw [isFolder, folders, withFolders, if_neg outside]
    exact receives.free rfl
  · rw [isFolder_iff, folders, withFolders, if_pos (List.prefix_refl _)]

theorem writeFile_puts (made : tree.createDirAll path.dropLast = .ok middle)
    (written : middle.writeFile path content = .ok after) :
    tree.Receives (path, .file content) ∧ after.find = tree.put (path, .file content) := by
  obtain ⟨folders, clear⟩ := createDirAll_ok made
  obtain ⟨file, some, free, -⟩ := writeFile_ok written
  constructor
  · constructor
    · intro above within needed
      exact clear above (prefix_dropLast (needed.resolve_left Bool.false_ne_true) within)
    · intro _
      rw [isFolder, folders, withFolders, if_neg] at free
      · exact free
      · exact fun within => parent_ne some (within.eq_of_length_le (by simp)).symm
  · funext other
    rw [file, withFile, put, folders, withFolders]
    by_cases same : other = path
    · rw [if_pos same, if_pos same]
    · rw [if_neg same, if_neg same]
      by_cases within : other <+: path
      · rw [if_pos (prefix_dropLast same within), if_pos within]
      · rw [if_neg fun above => within (above.trans (List.dropLast_prefix _)), if_neg within]

/-! ## What can be put afterwards -/

section Put

variable (received : tree.Receives item) (put : after.find = tree.put item)
include received put

theorem isFile_put : after.isFile path = true ↔
    tree.isFile path = true ∨ path = item.1 ∧ item.2.isFolder = false := by
  rw [isFile, put, Tree.put]
  by_cases here : path = item.1
  · subst here
    rw [if_pos rfl]
    cases folder : item.2.isFolder with
    | false => simp [folder]
    | true => simp [folder, received.clear item.1 (List.prefix_refl _) (.inl folder)]
  · rw [if_neg here]
    by_cases within : path <+: item.1
    · simp [within, here, Node.isFolder, received.clear path within (.inr here)]
    · rw [if_neg within]
      simp [here, isFile]

theorem isFolder_put : after.isFolder path = true ↔
    tree.isFolder path = true ∨ path <+: item.1 ∧ (item.2.isFolder = true ∨ path ≠ item.1) := by
  rw [isFolder, put, Tree.put]
  by_cases here : path = item.1
  · subst here
    rw [if_pos rfl]
    cases folder : item.2.isFolder with
    | false => simp [folder, received.free folder]
    | true => simp [folder]
  · rw [if_neg here]
    by_cases within : path <+: item.1
    · simp [within, here, Node.isFolder]
    · rw [if_neg within]
      simp [within, isFolder]

/-- A thing finds its place afterwards where it had one and does not clash with what was put. -/
theorem receives_put : after.Receives other ↔
    tree.Receives other ∧ ¬Clash item other ∧ ¬Clash other item := by
  constructor
  · intro receives
    refine ⟨⟨fun above within needed => ?_, fun file => ?_⟩, ?_, ?_⟩
    · have clear := receives.clear above within needed
      rw [Bool.eq_false_iff] at clear ⊢
      exact fun there => clear ((isFile_put received put).mpr (.inl there))
    · have free := receives.free file
      rw [Bool.eq_false_iff] at free ⊢
      exact fun there => free ((isFolder_put received put).mpr (.inl there))
    · rintro ⟨file, within, needed⟩
      have clear := receives.clear item.1 within needed
      rw [(isFile_put received put).mpr (.inr ⟨rfl, file⟩)] at clear
      cases clear
    · rintro ⟨file, within, needed⟩
      have free := receives.free file
      rw [(isFolder_put received put).mpr (.inr ⟨within, needed⟩)] at free
      cases free
  · rintro ⟨receives, behind, ahead⟩
    constructor
    · intro above within needed
      rw [Bool.eq_false_iff]
      intro there
      rcases (isFile_put received put).mp there with before | ⟨rfl, file⟩
      · rw [receives.clear above within needed] at before
        cases before
      · exact behind ⟨file, within, needed⟩
    · intro file
      rw [Bool.eq_false_iff]
      intro there
      rcases (isFolder_put received put).mp there with before | ⟨within, needed⟩
      · rw [receives.free file] at before
        cases before
      · exact ahead ⟨file, within, needed⟩

end Put

/-! ## Putting one thing after another -/

structure Fits (tree : Tree Name Content) (items : List (Item Name Content)) : Prop where
  received : ∀ item ∈ items, tree.Receives item
  apart : ∀ first ∈ items, ∀ second ∈ items, ¬Clash first second

inductive Puts : Tree Name Content → List (Item Name Content) → Tree Name Content → Prop where
  | nil {tree : Tree Name Content} : Puts tree [] tree
  | cons {tree middle after : Tree Name Content} {item : Item Name Content}
      {items : List (Item Name Content)} (received : tree.Receives item)
      (put : middle.find = tree.put item) (rest : Puts middle items after) :
      Puts tree (item :: items) after

theorem fits_nil {Label Data : Type} {tree : Tree Label Data} : tree.Fits [] :=
  ⟨fun _ member => absurd member List.not_mem_nil, fun _ member => absurd member List.not_mem_nil⟩

theorem fits_cons (received : tree.Receives item) (put : middle.find = tree.put item) :
    tree.Fits (item :: items) ↔ middle.Fits items := by
  have later : ∀ other ∈ items, middle.Receives other ↔
      tree.Receives other ∧ ¬Clash item other ∧ ¬Clash other item :=
    fun other _ => receives_put received put
  constructor
  · intro fits
    constructor
    · intro other member
      have among := List.mem_cons_of_mem item member
      exact (later other member).mpr ⟨fits.received other among,
        fits.apart item List.mem_cons_self other among, fits.apart other among item List.mem_cons_self⟩
    · intro first member second also
      exact fits.apart first (List.mem_cons_of_mem item member) second
        (List.mem_cons_of_mem item also)
  · intro fits
    have alone : ¬Clash item item := by
      rintro ⟨file, -, folder | other⟩
      · rw [file] at folder
        cases folder
      · exact other rfl
    constructor
    · intro other member
      rcases List.mem_cons.mp member with rfl | among
      · exact received
      · exact ((later other among).mp (fits.received other among)).1
    · intro first member second also
      rcases List.mem_cons.mp member with rfl | among
      · rcases List.mem_cons.mp also with rfl | there
        · exact alone
        · exact ((later second there).mp (fits.received second there)).2.1
      · rcases List.mem_cons.mp also with rfl | there
        · exact ((later first among).mp (fits.received first among)).2.2
        · exact fits.apart first among second there

theorem Puts.fits (puts : Puts tree items after) : tree.Fits items := by
  induction puts with
  | nil => exact fits_nil
  | cons received put _ induction => exact (fits_cons received put).mpr induction

theorem Puts.append {first second : List (Item Name Content)} (puts : Puts tree first middle)
    (more : Puts middle second after) : Puts tree (first ++ second) after := by
  induction puts with
  | nil => exact more
  | cons received put _ induction => exact .cons received put (induction more)

theorem Puts.find (puts : Puts tree items after) (path : List Name) :
    after.find path = (contents items path).or (tree.find path) := by
  induction puts with
  | nil => rfl
  | cons received put rest induction =>
      rename_i tree middle after item items
      have fits := (fits_cons received put).mpr rest.fits
      rw [induction, put, Tree.put]
      unfold contents
      rw [lastFile_cons]
      cases last : lastFile items path with
      | some content => rfl
      | none =>
          rw [Option.none_or, List.any_cons]
          by_cases below : items.any (fun other => path.isPrefixOf other.1) = true
          · -- a file at the path would clash with what goes below it
            have folder : (if item.1 = path then item.2.content else none) = none := by
              obtain ⟨other, among, within⟩ := List.any_eq_true.mp below
              rw [List.isPrefixOf_iff_prefix] at within
              split
              · rename_i here
                subst here
                cases kind : item.2 with
                | folder => rfl
                | file content =>
                    exfalso
                    apply fits.apart item List.mem_cons_self other (List.mem_cons_of_mem _ among)
                    refine ⟨by rw [kind]; rfl, within, ?_⟩
                    by_contra plain
                    rw [not_or, not_not, Bool.not_eq_true] at plain
                    have found := lastFile_isSome.mpr ⟨other, among, plain.2.symm, plain.1⟩
                    rw [last] at found
                    cases found
              · rfl
            rw [folder, below, Bool.or_true]
            rfl
          · rw [Bool.not_eq_true] at below
            rw [below, Bool.or_false]
            by_cases here : path = item.1
            · subst here
              cases kind : item.2 with
              | folder => simp [Node.content]
              | file content => simp [Node.content]
            · rw [if_neg here, if_neg (Ne.symm here)]
              by_cases within : path <+: item.1 <;> simp [within]

theorem Puts.find_apart (puts : Puts tree items after)
    (apart : ∀ item ∈ items, ¬path <+: item.1) : after.find path = tree.find path := by
  have none : contents items path = none := by
    cases given : contents items path with
    | none => rfl
    | some node =>
        obtain ⟨item, member, within⟩ := exists_of_contents (by rw [given]; rfl)
        exact absurd within (apart item member)
  rw [puts.find, none, Option.none_or]

end Tree

end Disk
