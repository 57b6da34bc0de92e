import Loontail.Disk.Placement
import Loontail.Guarantees.ArtifactTree
import Loontail.Guarantees.ManifestContents
import Loontail.Guarantees.RejectedArchives

/-! # What an accepted archive publishes

An archive is accepted for what it lists, whatever the build held before: the files, the rows and
the manifest are then those of its entries. -/

namespace Loontail.Bundles

open Concurrency Disk Relational

/-! ## What an archive gives -/

def ZipEntry.node (entry : ZipEntry) : Node Bytes :=
  if entry.isDir then .folder else .file entry.content

def ZipEntry.item (entry : ZipEntry) : Option (Item String Bytes) :=
  match entryPath entry.name with
  | .ok (some safe) => some (segments safe, entry.node)
  | _ => none

def slotItem : ZipSlot → Option (Item String Bytes)
  | .error _ => none
  | .ok entry => entry.item

def slotSize : ZipSlot → Nat
  | .error _ => 0
  | .ok entry => if entry.item.isSome then entry.size else 0

def ZipEntry.readable (entry : ZipEntry) : Bool := entry.isDir || entry.failure.isNone

def soundSlot : ZipSlot → Bool
  | .error _ => false
  | .ok entry =>
      match entryPath entry.name with
      | .error _ => false
      | .ok none => true
      | .ok (some _) => entry.readable

def archiveItems (slots : List ZipSlot) : List (Item String Bytes) := slots.filterMap slotItem

def itemsIn (dest : List String) (slots : List ZipSlot) : List (Item String Bytes) :=
  (archiveItems slots).map fun item => (dest ++ item.1, item.2)

/-- What extraction asks of the slots and of the tree, with the sizes that were declared before. -/
structure Extractable (dest : List String) (total : Nat) (slots : List ZipSlot) (tree : Builds) :
    Prop where
  sound : ∀ slot ∈ slots, soundSlot slot = true
  bounded : total + (slots.map slotSize).sum ≤ maxUncompressed
  fits : tree.Fits (itemsIn dest slots)

section Extraction

variable {dest path : List String} {service : Service} {state : State}

/-! ## Extraction -/

theorem placeEntry_puts (entry : ZipEntry) (safe : String) :
    (placeEntry entry safe path).Meets (.alone registry)
      (fun _ following => entry.readable = true ∧ ∃ disk, following = { service with disk } ∧
        service.disk.Receives (path, entry.node) ∧
        disk.find = service.disk.put (path, entry.node))
      (fun _ _ => ¬(entry.readable = true ∧ service.disk.Receives (path, entry.node))) service := by
  unfold placeEntry ZipEntry.readable ZipEntry.node
  cases entry.isDir with
  | true =>
      rw [if_pos rfl, if_pos rfl, alone_io]
      simp only [DiskCall.perform]
      cases made : service.disk.createDirAll path with
      | ok disk => exact ⟨rfl, disk, rfl, Tree.createDirAll_puts made⟩
      | error error => exact fun possible => Tree.createDirAll_refused made possible.2
  | false =>
      rw [if_neg Bool.false_ne_true, if_neg Bool.false_ne_true, Fallible.meets_bind, alone_io]
      simp only [DiskCall.perform]
      cases made : service.disk.createDirAll path.dropLast with
      | error error =>
          rintro ⟨-, receives⟩
          obtain ⟨disk, created, -⟩ := Tree.parent_made receives
          rw [made] at created
          cases created
      | ok disk =>
          simp only [DiskCall.settle]
          rw [Fallible.meets_bind, alone_io]
          simp only [DiskCall.perform]
          cases written : disk.writeFile path [] with
          | error error =>
              rintro ⟨-, receives⟩
              obtain ⟨other, created, admits⟩ := Tree.parent_made receives
              obtain rfl : disk = other := Except.ok.inj (made.symm.trans created)
              obtain ⟨file, wrote⟩ := Tree.writeFile_of_admits ([] : Bytes) admits
              rw [written] at wrote
              cases wrote
          | ok blank =>
              have there : blank.find path = some (.file []) := by
                rw [(Tree.writeFile_ok written).1, Tree.withFile, if_pos rfl]
              obtain ⟨full, filled⟩ := Tree.writeFile_of_admits entry.content (admits_of_file there)
              have whole : disk.writeFile path entry.content = .ok _ :=
                (Tree.writeFile_of_admits entry.content (Tree.writeFile_ok written).2).choose_spec
              have same : full.find = disk.withFile path entry.content := by
                funext other
                rw [(Tree.writeFile_ok filled).1, Tree.withFile, (Tree.writeFile_ok written).1,
                  Tree.withFile, Tree.withFile]
                split <;> rfl
              obtain ⟨receives, put⟩ := Tree.writeFile_puts made whole
              unfold copyEntry
              rw [Fallible.meets_bind, alone_io]
              simp only [DiskCall.perform, DiskCall.settle, DiskCall.appended, there,
                List.nil_append, filled]
              cases failure : entry.failure with
              | none =>
                  refine ⟨rfl, full, rfl, receives, same.trans ?_⟩
                  rw [← put, (Tree.writeFile_ok whole).1]
              | some text => exact fun possible => (by cases possible.1)

theorem entryPath_within {name safe : String} (accepted : entryPath name = .ok (some safe))
    (inside : ".." ∉ dest) : isWithin (joinFiles dest safe) dest = true := by
  have normalized := entryPath_normalized accepted
  have plain : ".." ∉ joinFiles dest safe := by
    rw [joinFiles, List.mem_append, not_or]
    exact ⟨inside, fun up => (normalized _ up).notUp rfl⟩
  rw [isWithin, Bool.and_eq_true, Bool.not_eq_true', List.isPrefixOf_iff_prefix,
    ← Bool.not_eq_true, List.contains_iff_mem]
  exact ⟨List.prefix_append _ _, plain⟩

theorem itemsIn_cons (slot : ZipSlot) (rest : List ZipSlot) : itemsIn dest (slot :: rest) =
    itemsIn dest [slot] ++ itemsIn dest rest := by
  unfold itemsIn archiveItems
  rw [← List.map_append, ← List.filterMap_append, List.singleton_append]

theorem extractable_cons {total : Nat} {slot : ZipSlot} {rest : List ZipSlot} {tree after : Builds}
    (sound : soundSlot slot = true) (puts : tree.Puts (itemsIn dest [slot]) after) :
    Extractable dest total (slot :: rest) tree ↔
      Extractable dest (total + slotSize slot) rest after := by
  have sizes : total + ((slot :: rest).map slotSize).sum =
      total + slotSize slot + (rest.map slotSize).sum := by
    rw [List.map_cons, List.sum_cons, Nat.add_assoc]
  have fits : tree.Fits (itemsIn dest (slot :: rest)) ↔ after.Fits (itemsIn dest rest) := by
    rw [itemsIn_cons]
    generalize itemsIn dest [slot] = first at puts ⊢
    induction puts with
    | nil => exact Iff.rfl
    | cons received put _ induction => exact (Tree.fits_cons received put).trans induction
  constructor
  · intro extractable
    exact ⟨fun other member => extractable.sound other (List.mem_cons_of_mem slot member),
      sizes ▸ extractable.bounded, fits.mp extractable.fits⟩
  · intro extractable
    exact ⟨List.forall_mem_cons.mpr ⟨sound, extractable.sound⟩, sizes ▸ extractable.bounded,
      fits.mpr extractable.fits⟩

theorem extractEntry_puts {total : Nat} (slot : ZipSlot) (inside : ".." ∉ dest)
    (fair : total ≤ maxUncompressed) :
    (extractEntry dest total slot).Meets (.alone registry)
      (fun declared following => soundSlot slot = true ∧ declared = total + slotSize slot ∧
        declared ≤ maxUncompressed ∧ ∃ disk, following = { service with disk } ∧
        service.disk.Puts (itemsIn dest [slot]) disk)
      (fun _ _ => ∀ rest, ¬Extractable dest total (slot :: rest) service.disk) service := by
  cases slot with
  | error failure =>
      intro rest possible
      cases possible.sound _ List.mem_cons_self
  | ok entry =>
      unfold extractEntry
      rw [Fallible.meets_bind, Fallible.meets_lift]
      cases named : entryPath entry.name with
      | error error =>
          refine ⟨fun _ _ rest possible => ?_, fun path accepted => (by cases accepted)⟩
          have sound := possible.sound _ List.mem_cons_self
          simp only [soundSlot, named] at sound
          cases sound
      | ok found =>
          refine ⟨fun error refused => (by cases refused), fun path accepted => ?_⟩
          cases accepted
          cases found with
          | none =>
              have skipped : entry.item = none := by simp only [ZipEntry.item, named]
              refine ⟨by simp only [soundSlot, named], ?_, fair, service.disk, rfl, ?_⟩
              · simp [slotSize, skipped]
              · have empty : itemsIn dest [.ok entry] = [] := by
                  simp [itemsIn, archiveItems, slotItem, skipped]
                rw [empty]
                exact .nil
          | some safe =>
              have item : entry.item = some (segments safe, entry.node) := by
                simp only [ZipEntry.item, named]
              have size : slotSize (.ok entry) = entry.size := by
                rw [slotSize, item]
                rfl
              have single : itemsIn dest [.ok entry] = [(joinFiles dest safe, entry.node)] := by
                simp [itemsIn, archiveItems, slotItem, item, joinFiles]
              have sound : soundSlot (.ok entry) = entry.readable := by
                simp only [soundSlot, named]
              simp only [entryPath_within named inside, Bool.not_true, Fallible.meets_bind,
                Fallible.meets_refuse]
              refine ⟨fun outside => (by cases outside), fun _ => ⟨fun large rest possible => ?_, ?_⟩⟩
              · have excess := of_decide_eq_true large
                have bounded := possible.bounded
                rw [List.map_cons, List.sum_cons, size] at bounded
                omega
              · intro small
                have fits := of_decide_eq_false small
                have exact_ : min (total + entry.size) u64Max = total + entry.size := by
                  have cap : maxUncompressed < u64Max := by decide
                  omega
                apply (placeEntry_puts entry safe).mono
                · rintro _ following ⟨readable, disk, rfl, receives, put⟩
                  rw [exact_] at fits ⊢
                  refine ⟨sound.trans readable, by rw [size], by omega, disk, rfl, ?_⟩
                  rw [single]
                  exact .cons receives put .nil
                · intro _ following refused rest possible
                  apply refused
                  refine ⟨sound ▸ possible.sound _ List.mem_cons_self, ?_⟩
                  apply possible.fits.received
                  rw [itemsIn_cons, single]
                  exact List.mem_append_left _ List.mem_cons_self

/-- Extraction goes to its end exactly where nothing speaks against it. -/
theorem extractEntries_puts {total : Nat} (slots : List ZipSlot) (inside : ".." ∉ dest)
    (fair : total ≤ maxUncompressed) :
    (extractEntries dest total slots).Meets (.alone registry)
      (fun _ following => Extractable dest total slots service.disk ∧
        ∃ disk, following = { service with disk } ∧
          service.disk.Puts (itemsIn dest slots) disk)
      (fun _ _ => ¬Extractable dest total slots service.disk) service := by
  induction slots generalizing total service with
  | nil =>
      exact ⟨⟨fun _ member => absurd member List.not_mem_nil, fair, Tree.fits_nil⟩, service.disk,
        rfl, .nil⟩
  | cons slot rest induction =>
      unfold extractEntries
      rw [Fallible.meets_bind]
      apply (extractEntry_puts slot inside fair).mono
      · rintro _ following ⟨sound, rfl, small, disk, rfl, puts⟩
        apply (induction small).mono
        · rintro _ last ⟨extractable, after, rfl, more⟩
          refine ⟨(extractable_cons sound puts).mpr extractable, after, rfl, ?_⟩
          rw [itemsIn_cons]
          exact puts.append more
        · exact fun _ _ refused possible => refused ((extractable_cons sound puts).mp possible)
      · exact fun _ _ refused => refused rest

end Extraction

/-! ## Extraction into a bare folder -/

structure Bare (folder : List String) (tree : Builds) : Prop where
  there : tree.find folder = some .folder
  empty : ∀ rest, rest ≠ [] → tree.find (folder ++ rest) = none

/-- Every entry is sound, the cap is kept, and no file is where another entry needs a folder. -/
structure Acceptable (slots : List ZipSlot) : Prop where
  sound : ∀ slot ∈ slots, soundSlot slot = true
  bounded : (slots.map slotSize).sum ≤ maxUncompressed
  apart : ∀ first ∈ archiveItems slots, ∀ second ∈ archiveItems slots, ¬Clash first second

instance (slots : List ZipSlot) : Decidable (Acceptable slots) :=
  decidable_of_iff ((∀ slot ∈ slots, soundSlot slot = true) ∧
      (slots.map slotSize).sum ≤ maxUncompressed ∧
      ∀ first ∈ archiveItems slots, ∀ second ∈ archiveItems slots, ¬Clash first second)
    ⟨fun ⟨sound, bounded, apart⟩ => ⟨sound, bounded, apart⟩,
      fun acceptable => ⟨acceptable.sound, acceptable.bounded, acceptable.apart⟩⟩

section Bare

variable {dest : List String} {tree after : Builds} {slots : List ZipSlot}

theorem archiveItems_plain {item : Item String Bytes} (member : item ∈ archiveItems slots) :
    item.1 ≠ [] ∧ PlainNames item.1 := by
  obtain ⟨slot, -, gives⟩ := List.mem_filterMap.mp member
  cases slot with
  | error failure => cases gives
  | ok entry =>
      simp only [slotItem, ZipEntry.item] at gives
      split at gives
      · rename_i safe accepted
        cases gives
        exact ⟨segments_ne_nil safe, (entryPath_normalized accepted).plainNames⟩
      · cases gives

theorem forall_itemsIn {holds : Item String Bytes → Prop} :
    (∀ item ∈ itemsIn dest slots, holds item) ↔
      ∀ item ∈ archiveItems slots, holds (dest ++ item.1, item.2) := by
  rw [itemsIn, List.forall_mem_map]

theorem clash_within {first second : Item String Bytes} :
    Clash (dest ++ first.1, first.2) (dest ++ second.1, second.2) ↔ Clash first second := by
  simp only [Clash, List.prefix_append_right_inj, ne_eq, List.append_cancel_left_eq]

theorem Bare.receives (bare : Bare dest tree) {item : Item String Bytes} (some : item.1 ≠ []) :
    tree.Receives (dest ++ item.1, item.2) where
  clear above within _ := by
    rw [Tree.isFile]
    rcases List.prefix_or_prefix_of_prefix within (List.prefix_append dest item.1) with
      higher | lower
    · by_cases same : above = dest
      · rw [same, bare.there]
        rfl
      · rw [Tree.folder_of_above higher same (by rw [bare.there]; rfl)]
        rfl
    · obtain ⟨rest, rfl⟩ := lower
      by_cases here : rest = []
      · rw [here, List.append_nil, bare.there]
        rfl
      · rw [bare.empty rest here]
  free _ := by rw [Tree.isFolder, bare.empty item.1 some]

theorem extractable_bare (bare : Bare dest tree) :
    Extractable dest 0 slots tree ↔ Acceptable slots := by
  constructor
  · intro extractable
    refine ⟨extractable.sound, by simpa using extractable.bounded, ?_⟩
    intro first member second also clash
    exact extractable.fits.apart _ (List.mem_map_of_mem member) _ (List.mem_map_of_mem also)
      (clash_within.mpr clash)
  · intro acceptable
    refine ⟨acceptable.sound, by simpa using acceptable.bounded, ?_, ?_⟩
    · rw [forall_itemsIn]
      exact fun item member => bare.receives (archiveItems_plain member).1
    · simp only [forall_itemsIn]
      intro first member
      exact fun second also clash => acceptable.apart first member second also
        (clash_within.mp clash)

theorem Bare.find_puts (bare : Bare dest tree) (puts : tree.Puts (itemsIn dest slots) after)
    {rest : List String} (some : rest ≠ []) :
    after.find (dest ++ rest) = contents (archiveItems slots) rest := by
  rw [puts.find, itemsIn, contents_within, bare.empty rest some, Option.or_none]

theorem puts_elsewhere (puts : tree.Puts (itemsIn dest slots) after) {path : List String}
    (above : ¬path <+: dest) (outside : ¬dest <+: path) : after.find path = tree.find path := by
  apply puts.find_apart
  rw [forall_itemsIn]
  intro item _ within
  rcases List.prefix_or_prefix_of_prefix within (List.prefix_append dest item.1) with
    higher | lower
  · exact above higher
  · exact outside lower

theorem Bare.plain (bare : Bare dest tree) (puts : tree.Puts (itemsIn dest slots) after)
    (rest : List String) (there : (after.find (dest ++ rest)).isSome = true) : PlainNames rest := by
  by_cases some : rest = []
  · rw [some]
    exact .nil
  · rw [bare.find_puts puts some] at there
    obtain ⟨item, member, within⟩ := exists_of_contents there
    exact PlainNames.of_prefix (archiveItems_plain member).2 within

theorem Bare.stays (bare : Bare dest tree) (puts : tree.Puts (itemsIn dest slots) after) :
    after.find dest = some .folder := by
  have noFile : lastFile (itemsIn dest slots) dest = none := by
    rw [← Option.not_isSome_iff_eq_none, lastFile_isSome]
    rintro ⟨item, member, here, -⟩
    obtain ⟨inner, among, rfl⟩ := List.mem_map.mp member
    exact (archiveItems_plain among).1 (List.append_cancel_left (here.trans (List.append_nil dest).symm))
  rw [puts.find, contents, noFile, bare.there]
  simp only
  split <;> rfl

end Bare

/-! ## Publication -/

/-- What rows, entries of a manifest and things on disk are compared by: the path, whether it is a
folder, the size and the hash. -/
abbrev Shape := String × Bool × Int × Option String

def BundleArtifact.shape (row : BundleArtifact) : Shape :=
  (row.relativePath, row.isDir, row.size, row.sha256)

def ManifestEntry.shape (entry : ManifestEntry) : Shape :=
  (entry.path, entry.isDir, entry.size, entry.sha256)

def ScanEntry.shape (entry : ScanEntry) : Shape :=
  (entry.relativePath, entry.isDir, entry.size, entry.sha256)

def nodeSize : Node Bytes → Int
  | .folder => 0
  | .file content => content.length

def nodeHash (state : State) : Node Bytes → Option String
  | .folder => none
  | .file content => some (state.sha256 content)

def shapeOf (state : State) (item : Item String Bytes) : Shape :=
  (joinSegments item.1, item.2.isFolder, nodeSize item.2, nodeHash state item.2)

/-- The listing is what lies on disk, in the rows and in the manifest, and what is counted. -/
structure Publishes (state : State) (id : Uuid) (slug : String)
    (listing : List (Item String Bytes)) (reply : Bundle) (service : Service) : Prop where
  files : ∀ rest node, (rest, node) ∈ listing ↔
    rest ≠ [] ∧ service.disk.find (filesPath slug ++ rest) = some node
  rows : ((Sql.ofBundle id service.database).map BundleArtifact.shape).Perm
    (listing.map (shapeOf state))
  manifest : ∃ manifest : Manifest,
    service.disk.find (manifestPath slug) = some (.file (state.toJson manifest)) ∧
    (manifest.entries.map ManifestEntry.shape).Perm (listing.map (shapeOf state)) ∧
    ∀ entry ∈ manifest.entries, entry.url =
      if entry.isDir then none else some (publicUrl state.publicPrefix slug entry.path)
  ready : reply.status = .ready
  filesCount : reply.filesCount = (listing.filter fun item => !item.2.isFolder).length
  totalSize : reply.totalSize = (listing.map fun item => nodeSize item.2).sum

def Writable (slug : String) (disk : Builds) : Prop :=
  disk.isFolder (manifestPath slug) = false ∧ disk.isFolder (stagedManifestPath slug) = false

section Publishing

variable {state : State} {service : Service} {listing : List (Item String Bytes)}

theorem scanEntry_shape {filesRoot rest : List String} {node : Node Bytes} (some : rest ≠ [])
    (plain : PlainNames rest) :
    (scanEntry state filesRoot (rest, node)).shape = shapeOf state (rest, node) := by
  have path := @scanEntry_path state filesRoot rest node plain some
  unfold ScanEntry.shape shapeOf
  rw [path]
  cases node with
  | folder => rfl
  | file content => rfl

theorem Reconciled.shapes {id : Uuid} {scan : List ScanEntry} {before after : Database}
    (reconciled : Reconciled id scan before after)
    (distinct : (scan.map (·.relativePath)).Nodup) :
    ((Sql.ofBundle id after).map BundleArtifact.shape).Perm (scan.map ScanEntry.shape) := by
  have rowsOnce : ((Sql.ofBundle id after).map BundleArtifact.shape).Nodup := by
    apply List.Nodup.of_map Prod.fst
    rw [List.map_map]
    exact nodup_paths id after
  have scanOnce : (scan.map ScanEntry.shape).Nodup := by
    apply List.Nodup.of_map Prod.fst
    rw [List.map_map]
    exact distinct
  apply (List.perm_ext_iff_of_nodup rowsOnce scanOnce).mpr
  intro shape
  constructor
  · intro member
    obtain ⟨row, owned, rfl⟩ := List.mem_map.mp member
    obtain ⟨there, mine⟩ := List.mem_filter.mp owned
    obtain ⟨entry, listed, path⟩ := List.mem_map.mp
      (reconciled.paths.subset (List.mem_map_of_mem owned))
    obtain ⟨other, among, recorded⟩ := reconciled.recorded entry listed
    have same : other = row := at_unique (List.mem_filter.mp among).1 there recorded.at_
      (Sql.at_iff.mpr ⟨of_decide_eq_true mine, path.symm⟩)
    rw [← same, recorded.fields]
    exact List.mem_map_of_mem listed
  · intro member
    obtain ⟨entry, listed, rfl⟩ := List.mem_map.mp member
    obtain ⟨row, owned, recorded⟩ := reconciled.recorded entry listed
    have shape : row.shape = entry.shape := by
      rw [recorded.fields]
      rfl
    rw [← shape]
    exact List.mem_map_of_mem owned

theorem shape_placed {row : BundleArtifact} (plain : ∀ item ∈ listing, item.1 ≠ [] ∧ PlainNames item.1)
    (listed : row.shape ∈ listing.map (shapeOf state)) :
    ∃ item ∈ listing, segments row.relativePath = item.1 ∧ row.isDir = item.2.isFolder ∧
      row.sha256 = nodeHash state item.2 := by
  obtain ⟨item, member, same⟩ := List.mem_map.mp listed
  obtain ⟨some, names⟩ := plain item member
  obtain ⟨path, rest⟩ := Prod.mk.inj same
  obtain ⟨kind, rest⟩ := Prod.mk.inj rest
  refine ⟨item, member, ?_, kind.symm, (Prod.mk.inj rest).2.symm⟩
  rw [← path, names.segments some]

theorem manifestEntry_shape {slug publicPrefix : String} {row : BundleArtifact}
    (plain : row.isDir = true → row.sha256 = none) :
    (manifestEntry slug publicPrefix row).shape = row.shape := by
  unfold ManifestEntry.shape BundleArtifact.shape manifestEntry
  cases dir : row.isDir with
  | false => rfl
  | true => rw [plain dir]; rfl

theorem replaceManifest_writes {disk : Builds} {slug : String} (json : Bytes)
    (build : disk.find (buildPath slug) = some .folder) (writable : Writable slug disk) :
    ∃ after, DiskCall.replaceManifest disk slug json = (.ok (), after) := by
  have clear : ∀ other, other <+: buildPath slug → disk.isFile other = false := by
    intro other within
    rw [Tree.isFile]
    by_cases same : other = buildPath slug
    · rw [same, build]
      rfl
    · rw [Tree.folder_of_above within same (by rw [build]; rfl)]
      rfl
  obtain ⟨made, created⟩ := Tree.createDirAll_of_clear clear
  have still := Tree.createDirAll_idle created (by rw [build]; rfl)
  have admits : made.Admits (stagedManifestPath slug) := by
    refine ⟨by simp [stagedManifestPath], ?_, Tree.isFolder_iff.mpr ?_⟩
    · rw [Tree.isFolder, still]
      exact writable.2
    · rw [still]
      exact build
  obtain ⟨staged, written⟩ := Tree.writeFile_of_admits json admits
  have file := (Tree.writeFile_ok written).1
  have other : manifestPath slug ≠ stagedManifestPath slug := by
    intro same
    exact DiskCall.staged_not_within slug slug (by rw [same])
  have movable : staged.Movable (stagedManifestPath slug) (manifestPath slug) := by
    refine ⟨by simp [manifestPath], DiskCall.staged_not_within slug slug, ?_, ?_⟩
    · rw [Tree.isFolder_iff, Tree.writeFile_keeps written, still]
      · exact build
      · intro same
        have short := congrArg List.length same
        simp [manifestPath, stagedManifestPath] at short
    · rw [Tree.replaces, Bool.or_eq_true, Bool.and_eq_true]
      refine .inl ⟨Tree.isFile_iff.mpr ⟨json, by rw [file, Tree.withFile, if_pos rfl]⟩, ?_⟩
      rw [Tree.isFolder, Tree.writeFile_keeps written other, still, Bool.not_eq_true']
      exact writable.1
  obtain ⟨after, renamed⟩ := Tree.rename_of_movable movable
  refine ⟨after, ?_⟩
  unfold DiskCall.replaceManifest
  simp only [created, written, renamed, DiskCall.settle]

theorem counts_of_perm {slug publicPrefix : String} {artifacts : List BundleArtifact}
    {built : BuiltManifest} (shown : Shows slug publicPrefix artifacts built)
    (rows : (artifacts.map BundleArtifact.shape).Perm (listing.map (shapeOf state))) :
    built.filesCount = (listing.filter fun item => !item.2.isFolder).length ∧
      built.totalSize = (listing.map fun item => nodeSize item.2).sum := by
  have files := rows.filter fun shape => !shape.2.1
  rw [List.filter_map, List.filter_map] at files
  constructor
  · rw [shown.filesCount]
    have sized := files.length_eq
    rw [List.length_map, List.length_map] at sized
    exact congrArg Int.ofNat sized
  · have sizes := files.map fun shape => max shape.2.2.1 0
    rw [List.map_map, List.map_map] at sizes
    rw [shown.totalSize, sizeOf]
    refine Eq.trans sizes.sum_eq ?_
    clear rows files sizes
    induction listing with
    | nil => rfl
    | cons item rest induction =>
        obtain ⟨path, node⟩ := item
        cases node with
        | folder => simpa [nodeSize, Node.isFolder, shapeOf] using induction
        | file content => simpa [nodeSize, Node.isFolder, shapeOf] using induction

theorem regenerateManifest_publishes {bundle : Bundle}
    (registered : Registered service.database bundle.id bundle.slug)
    (build : service.disk.find (buildPath bundle.slug) = some .folder)
    (files : ∀ rest node, (rest, node) ∈ listing ↔
      rest ≠ [] ∧ service.disk.find (filesPath bundle.slug ++ rest) = some node)
    (plain : ∀ item ∈ listing, item.1 ≠ [] ∧ PlainNames item.1)
    (rows : ((Sql.ofBundle bundle.id service.database).map BundleArtifact.shape).Perm
      (listing.map (shapeOf state))) :
    (regenerateManifest state bundle).Meets (.alone registry)
      (fun reply following => Publishes state bundle.id bundle.slug listing reply following ∧
        Registered following.database bundle.id bundle.slug)
      (fun _ _ => ¬Writable bundle.slug service.disk) service := by
  unfold regenerateManifest
  rw [Fallible.meets_bind]
  apply @query_done service _ (.listArtifacts bundle.id) _ _ _ rfl
  have sorted : (Sql.listArtifacts bundle.id service.database).Perm
      (Sql.ofBundle bundle.id service.database) := List.perm_insertionSort _ _
  generalize Sql.listArtifacts bundle.id service.database = artifacts at sorted
  have listed : (artifacts.map BundleArtifact.shape).Perm (listing.map (shapeOf state)) :=
    (sorted.map _).trans rows
  have placed : ∀ row ∈ artifacts, ∃ item ∈ listing, segments row.relativePath = item.1 ∧
      row.isDir = item.2.isFolder ∧ row.sha256 = nodeHash state item.2 := fun row member =>
    shape_placed plain (listed.subset (List.mem_map_of_mem member))
  rw [Fallible.meets_bind]
  apply @io_done service _ (.probe (filesPath bundle.slug) (artifacts.map (·.relativePath))) _
    service.disk _ _ rfl
  have whole : artifacts.filter (fun artifact => ((artifacts.map (·.relativePath)).filter
      fun path => service.disk.present (joinFiles (filesPath bundle.slug) path)).contains
        artifact.relativePath) = artifacts := by
    rw [List.filter_eq_self]
    intro row member
    obtain ⟨item, among, path, -⟩ := placed row member
    rw [List.contains_iff_mem, List.mem_filter]
    refine ⟨List.mem_map_of_mem member, ?_⟩
    rw [Tree.present, joinFiles, path, ((files item.1 item.2).mp among).2]
    rfl
  have shown := @buildManifest_shows bundle.slug state.publicPrefix artifacts fun artifact =>
    ((artifacts.map (·.relativePath)).filter fun path => service.disk.present
      (joinFiles (filesPath bundle.slug) path)).contains artifact.relativePath
  rw [whole] at shown
  simp only
  generalize buildManifest artifacts bundle.slug state.publicPrefix _ = built at shown ⊢
  have entries : (built.manifest.entries.map ManifestEntry.shape).Perm
      (listing.map (shapeOf state)) := by
    refine (shown.entries.map _).trans ?_
    rw [List.map_map]
    refine List.Perm.trans (.of_eq (List.map_congr_left fun row member => ?_)) listed
    obtain ⟨item, -, -, kind, hash⟩ := placed row member
    apply manifestEntry_shape
    intro folder
    rw [hash, Node.eq_folder (kind.symm.trans folder)]
    rfl
  obtain ⟨filesCount, totalSize⟩ := counts_of_perm shown listed
  rw [Fallible.meets_bind, alone_io]
  simp only [DiskCall.perform]
  rcases DiskCall.replaceManifest_cases service.disk bundle.slug (state.toJson built.manifest) with
    ⟨after, written, there⟩ | ⟨error, after, refused, -⟩
  · rw [written]
    obtain ⟨row, member, same, slugged⟩ := registered
    have found : service.database.bundles.find bundle.id = some row :=
      Table.find_eq_some.mpr ⟨member, same⟩
    have finished : ∃ database, Sql.finishRegeneration bundle.id built.filesCount built.totalSize
        service.database = .ok ({ row with
          status := .ready, filesCount := built.filesCount, totalSize := built.totalSize,
          processingError := none }, database) := by
      unfold Sql.finishRegeneration Sql.reviseBundle
      rw [found]
      exact ⟨_, rfl⟩
    obtain ⟨database, finished⟩ := finished
    obtain ⟨persists, artifactsKept⟩ := finishRegeneration_persists finished
    apply @query_done { service with disk := after } _
      (.finishRegeneration bundle.id built.filesCount built.totalSize) _ _ _ finished
    refine ⟨⟨fun rest node => ?_, ?_, ⟨built.manifest, there, entries, ?_⟩, rfl, filesCount,
      totalSize⟩, persists.registered ⟨row, member, same, slugged⟩⟩
    · have kept := DiskCall.replaceManifest_files service.disk bundle.slug
        (state.toJson built.manifest) bundle.slug rest
      rw [written] at kept
      rw [files, kept]
    · rw [Sql.ofBundle, artifactsKept]
      exact rows
    · intro entry member
      obtain ⟨artifact, -, rfl⟩ := List.mem_map.mp (shown.entries.subset member)
      rfl
  · rw [refused]
    intro writable
    obtain ⟨done, wrote⟩ := replaceManifest_writes (state.toJson built.manifest) build writable
    rw [refused] at wrote
    cases wrote

end Publishing

/-! ## Ingestion -/

structure Lists (slots : List ZipSlot) (listing : List (Item String Bytes)) : Prop where
  once : (listing.map Prod.fst).Nodup
  listed : ∀ rest node, (rest, node) ∈ listing ↔
    rest ≠ [] ∧ contents (archiveItems slots) rest = some node

theorem Lists.plain {slots : List ZipSlot} {listing : List (Item String Bytes)}
    (lists : Lists slots listing) : ∀ item ∈ listing, item.1 ≠ [] ∧ PlainNames item.1 := by
  intro item member
  obtain ⟨some, given⟩ := (lists.listed item.1 item.2).mp member
  obtain ⟨other, among, within⟩ := exists_of_contents (by rw [given]; rfl)
  exact ⟨some, PlainNames.of_prefix (archiveItems_plain among).2 within⟩

def Opens (state : State) (bytes : Bytes) (slots : List ZipSlot) : Prop :=
  openArchive state bytes = .ok slots ∧ Acceptable slots

section Upload

variable {state : State} {service : Service} {bytes : Bytes}

structure Extracted (slug : String) (slots : List ZipSlot) (before : Builds) (disk : Builds) :
    Prop where
  folder : disk.find (filesPath slug) = some .folder
  files : ∀ rest, rest ≠ [] →
    disk.find (filesPath slug ++ rest) = contents (archiveItems slots) rest
  plain : ∀ rest, (disk.find (filesPath slug ++ rest)).isSome = true → PlainNames rest
  beside : ∀ name, name ≠ "files" → (∀ number, [slug, name] ≠ uploadPath slug number) →
    disk.find [slug, name] = before.find [slug, name]

theorem Extracted.build {slug : String} {slots : List ZipSlot} {before disk : Builds}
    (extracted : Extracted slug slots before disk) :
    disk.find (buildPath slug) = some .folder := by
  apply disk.closed (buildPath slug) "files"
  change (disk.find (filesPath slug)).isSome = true
  rw [extracted.folder]
  rfl

theorem Extracted.writable {slug : String} {slots : List ZipSlot} {before disk : Builds}
    (extracted : Extracted slug slots before disk) (writable : Writable slug before) :
    Writable slug disk := by
  have manifest := extracted.beside "artifacts.json" (by decide) fun number same =>
    uploadPath_ne (by decide) slug slug number same.symm
  have staged := extracted.beside "artifacts.json.tmp" (by decide) fun number same =>
    uploadPath_ne (by decide) slug slug number same.symm
  constructor
  · rw [Tree.isFolder, manifestPath, manifest]
    exact writable.1
  · rw [Tree.isFolder, stagedManifestPath, staged]
    exact writable.2

/-- Scan, rows and manifest follow the files. -/
theorem publish_extracted {bundle : Bundle} {slots : List ZipSlot} {before : Builds}
    (registered : Registered service.database bundle.id bundle.slug)
    (extracted : Extracted bundle.slug slots before service.disk) :
    (do
      let scan ← scanDirectory state (filesPath bundle.slug)
      upsertScan bundle.id scan
      regenerateManifest state bundle : Handler Bundle).Meets (.alone registry)
      (fun reply following => ∃ listing, Lists slots listing ∧
        Publishes state bundle.id bundle.slug listing reply following ∧
        Registered following.database bundle.id bundle.slug)
      (fun _ _ => ¬Writable bundle.slug before) service := by
  have bare : Tidy bundle.id bundle.slug [] service.disk :=
    ⟨fun _ member => absurd member List.not_mem_nil,
      fun _ member => absurd member List.not_mem_nil, extracted.plain⟩
  have present : service.disk.present (filesPath bundle.slug) = true := by
    rw [Tree.present, extracted.folder]
    rfl
  let listing := service.disk.below (fun left right => left < right) (filesPath bundle.slug)
  have found : ∀ item ∈ listing, item.1 ≠ [] ∧
      service.disk.find (filesPath bundle.slug ++ item.1) = some item.2 :=
    fun item member => Tree.mem_below.mp member
  have lists : Lists slots listing := by
    refine ⟨Tree.nodup_below, fun rest node => Tree.mem_below.trans ?_⟩
    apply and_congr_right
    intro some
    rw [extracted.files rest some]
  have scanned := @scanned_of_found bundle.id bundle.slug state service.disk listing bare found
    lists.once
  rw [Fallible.meets_bind]
  apply scanDirectory_alone.mono _ fun _ _ impossible => impossible.elim
  intro scan following outcome
  have listed : scan = listing.map (scanEntry state (filesPath bundle.slug)) := by
    rw [outcome.2, present, if_pos rfl]
  rw [outcome.1, listed, Fallible.meets_bind]
  apply (upsertScan_reconciles (registered_found registered) scanned.distinct).mono
  · rintro _ following ⟨database, rfl, reconciled⟩
    have shapes : ((Sql.ofBundle bundle.id database).map BundleArtifact.shape).Perm
        (listing.map (shapeOf state)) := by
      refine (reconciled.shapes scanned.distinct).trans (.of_eq ?_)
      rw [List.map_map]
      apply List.map_congr_left
      intro item member
      obtain ⟨some, names⟩ := lists.plain item member
      exact scanEntry_shape some names
    have still : Registered database bundle.id bundle.slug := by
      rw [Registered, reconciled.bundles]
      exact registered
    apply (@regenerateManifest_publishes state { service with database } listing bundle still
      extracted.build (fun rest node => Tree.mem_below) lists.plain shapes).mono
    · exact fun reply last published => ⟨listing, lists, published⟩
    · exact fun _ _ unwritable writable => unwritable (extracted.writable writable)
  · exact fun _ _ => False.elim

theorem ingestArchive_publishes {bundle : Bundle} {number : Nat} (valid : bundle.slug ≠ "..")
    (registered : Registered service.database bundle.id bundle.slug)
    (files : service.disk.find (filesPath bundle.slug) = some .folder)
    (sent : service.disk.find (uploadPath bundle.slug number) = some (.file bytes)) :
    (ingestArchive state bundle (uploadPath bundle.slug number)).Meets (.alone registry)
      (fun reply following => ∃ slots listing, Opens state bytes slots ∧ Lists slots listing ∧
        Publishes state bundle.id bundle.slug listing reply following ∧
        Registered following.database bundle.id bundle.slug)
      (fun _ _ => ∀ slots, Opens state bytes slots → ¬Writable bundle.slug service.disk)
      service := by
  obtain ⟨removed, made, cleared, created, alike, elsewhere⟩ := cleared_files files
  have first : (DiskCall.removeDirAll (filesPath bundle.slug)).perform service.disk =
      (.ok (), removed) := by simp only [DiskCall.perform, cleared, DiskCall.settle]
  have second : (DiskCall.createDirAll (filesPath bundle.slug)).perform removed =
      (.ok (), made) := by simp only [DiskCall.perform, created, DiskCall.settle]
  have present : service.disk.present (filesPath bundle.slug) = true := by
    rw [Tree.present, files]
    rfl
  have beside : ∀ name, name ≠ "files" → ¬filesPath bundle.slug <+: [bundle.slug, name] ∧
      ¬[bundle.slug, name] <+: filesPath bundle.slug := by
    intro name other
    constructor
    · intro within
      have same : filesPath bundle.slug = [bundle.slug, name] := within.eq_of_length rfl
      simp only [filesPath, List.cons.injEq, and_true] at same
      exact other same.2.symm
    · rw [← List.append_nil (filesPath bundle.slug)]
      exact not_within_files other []
  have upload : uploadPath bundle.slug number =
      [bundle.slug, "upload-" ++ toString number ++ ".zip.tmp"] := rfl
  have apart : "upload-" ++ toString number ++ ".zip.tmp" ≠ "files" := fun same =>
    @uploadPath_ne "files" (by decide) bundle.slug bundle.slug number (by rw [upload, same])
  have bare : Bare (filesPath bundle.slug) made := by
    have find : (bareBuild bundle.slug).disk.find =
        Tree.withFolders .empty (filesPath bundle.slug) := rfl
    constructor
    · rw [alike _ (.inr (List.prefix_refl _)), find, Tree.withFolders,
        if_pos (List.prefix_refl _)]
    · intro rest some
      rw [alike _ (.inr (List.prefix_append _ _)), find, Tree.withFolders, if_neg]
      · rfl
      · exact fun within => some (by simpa using within.length_le)
  have inside : ".." ∉ filesPath bundle.slug := by
    simp [filesPath, Ne.symm valid]
  unfold ingestArchive clearFiles
  rw [Fallible.meets_bind, Fallible.meets_bind, alone_pathExists, present, if_pos rfl]
  apply io_done first
  rw [Fallible.meets_bind]
  apply io_done second
  unfold extractZip
  rw [Fallible.meets_bind, Fallible.meets_bind]
  have there : made.find (uploadPath bundle.slug number) = some (.file bytes) :=
    (elsewhere _ (beside _ apart).1).trans sent
  apply @io_done _ _ (.read (uploadPath bundle.slug number)) bytes made
  · simp only [DiskCall.perform, Tree.read, there]
  rw [Fallible.meets_bind, Fallible.meets_lift]
  refine ⟨fun error refused slots opens => ?_, fun slots opened => ?_⟩
  · rw [opens.1] at refused
    cases refused
  apply (@extractEntries_puts (filesPath bundle.slug) { service with disk := made } 0 slots inside
    (Nat.zero_le _)).mono
  · rintro _ following ⟨extractable, disk, rfl, puts⟩
    have opens : Opens state bytes slots := ⟨opened, (extractable_bare bare).mp extractable⟩
    rw [Fallible.meets_bind, alone_attempt]
    have kept : ∀ path, path ≠ uploadPath bundle.slug number →
        ((DiskCall.removeFile (uploadPath bundle.slug number)).perform disk).2.find path =
          disk.find path := fun path other =>
      DiskCall.settle_find fun _ removed => Tree.removeFile_keeps removed other
    have among : ∀ rest, filesPath bundle.slug ++ rest ≠ uploadPath bundle.slug number :=
      fun rest same => upload_not_within_files bundle.slug bundle.slug number rest
        (same ▸ List.prefix_refl _)
    have extracted : Extracted bundle.slug slots service.disk
        ((DiskCall.removeFile (uploadPath bundle.slug number)).perform disk).2 := by
      constructor
      · have here := among []
        rw [List.append_nil] at here
        rw [kept _ here]
        exact bare.stays puts
      · intro rest some
        rw [kept _ (among rest)]
        exact bare.find_puts puts some
      · intro rest there
        rw [kept _ (among rest)] at there
        exact bare.plain puts rest there
      · intro name other fresh
        rw [kept _ (fresh number), puts_elsewhere puts (beside name other).2 (beside name other).1]
        exact elsewhere _ (beside name other).1
    apply (@publish_extracted state { service with
      disk := ((DiskCall.removeFile (uploadPath bundle.slug number)).perform disk).2 } bundle slots
      service.disk registered extracted).mono
    · rintro reply last ⟨listing, lists, published, still⟩
      exact ⟨slots, listing, opens, lists, published, still⟩
    · exact fun _ _ unwritable _ _ => unwritable
  · rintro _ _ refused other opens
    obtain rfl : slots = other := Except.ok.inj (opened.symm.trans opens.1)
    exact absurd ((extractable_bare bare).mpr opens.2) refused

end Upload

/-! ## The upload -/

section Receive

variable {state : State} {before service : Service} {path : List String}

theorem writeChunks_bounded {written : Nat} (chunks : List Bytes)
    (within : written ≤ maxUploadBytes) :
    (writeChunks path written chunks).Meets (.alone registry)
      (fun _ _ => written + chunks.flatten.length ≤ maxUploadBytes) (fun _ _ => True) service := by
  induction chunks generalizing written service with
  | nil => exact within
  | cons chunk rest induction =>
      unfold writeChunks
      rw [Fallible.meets_bind, Fallible.meets_refuse]
      refine ⟨fun _ => trivial, fun fits => ?_⟩
      have small := of_decide_eq_false fits
      have exact_ : min (written + chunk.length) u64Max = written + chunk.length := by
        have cap : maxUploadBytes < u64Max := by decide
        omega
      rw [exact_] at small ⊢
      rw [Fallible.meets_bind, alone_io]
      split
      · apply (induction (by omega)).mono
        · intro _ _ bounded
          rw [List.flatten_cons, List.length_append, ← Nat.add_assoc]
          exact bounded
        · exact fun _ _ _ => trivial
      · trivial

theorem streamFieldToFile_whole (field : Field) :
    (streamFieldToFile field path).Meets (.alone registry)
      (fun _ following => (field.failure = none ∧ field.chunks.flatten.length ≤ maxUploadBytes) ∧
        Receiving path field.chunks.flatten before following)
      (fun _ _ => field.failure = none ∧ field.chunks.flatten.length ≤ maxUploadBytes →
        ¬before.disk.Admits path) before := by
  by_cases whole : field.failure = none ∧ field.chunks.flatten.length ≤ maxUploadBytes
  · by_cases admits : before.disk.Admits path
    · apply (streamFieldToFile_receives admits whole.1 whole.2).mono
      · exact fun _ _ received => ⟨whole, received⟩
      · exact fun _ _ => False.elim
    · unfold streamFieldToFile
      rw [Fallible.meets_bind, alone_io]
      simp only [DiskCall.perform]
      cases written : before.disk.writeFile path [] with
      | error error => exact fun _ => admits
      | ok disk => exact absurd (Tree.writeFile_ok written).2 admits
  · unfold streamFieldToFile
    rw [Fallible.meets_bind, alone_io]
    split
    · rw [Fallible.meets_bind]
      apply (writeChunks_bounded field.chunks (Nat.zero_le _)).mono
      · intro written following bounded
        rw [Nat.zero_add] at bounded
        cases failure : field.failure with
        | none => exact absurd ⟨failure, bounded⟩ whole
        | some text => exact fun possible => absurd possible.1 (by simp)
      · exact fun _ _ _ possible => absurd possible whole
    · exact fun possible => absurd possible whole

theorem streamArchive_whole (multipart : Multipart) :
    (streamArchive path multipart.fields).Meets (.alone registry)
      (fun sent following => if sent then
          ∃ bytes, multipart.archive = some bytes ∧ Receiving path bytes before following
        else multipart.archive = none)
      (fun _ _ => ∀ bytes, multipart.archive = some bytes → ¬before.disk.Admits path) before := by
  obtain ⟨fields, failure⟩ := multipart
  induction fields with
  | nil => rfl
  | cons field rest induction =>
      unfold streamArchive
      by_cases named : field.name = some "archive"
      · have archive : Multipart.archive ⟨field :: rest, failure⟩ =
            if field.failure = none ∧ field.chunks.flatten.length ≤ maxUploadBytes then
              some field.chunks.flatten
            else none := by
          simp [Multipart.archive, named]
        rw [if_pos named, Fallible.meets_bind]
        apply (streamFieldToFile_whole field).mono
        · rintro _ following ⟨whole, received⟩
          exact ⟨_, archive.trans (if_pos whole), received⟩
        · intro _ _ refused bytes arrives
          rw [archive] at arrives
          split at arrives
          · rename_i whole
            exact refused whole
          · cases arrives
      · have archive : Multipart.archive ⟨field :: rest, failure⟩ =
            Multipart.archive ⟨rest, failure⟩ := by
          simp [Multipart.archive, named]
        rw [if_neg named, archive]
        exact induction

theorem receiveArchive_publishes {bundle : Bundle} {multipart : Multipart} {number : Nat}
    (valid : bundle.slug ≠ "..") (registered : Registered service.database bundle.id bundle.slug)
    (files : service.disk.find (filesPath bundle.slug) = some .folder) :
    (receiveArchive state bundle multipart (uploadPath bundle.slug number)).Meets
      (.alone registry)
      (fun reply following => ∃ bytes slots listing, multipart.archive = some bytes ∧
        Opens state bytes slots ∧ Lists slots listing ∧
        Publishes state bundle.id bundle.slug listing reply following ∧
        Registered following.database bundle.id bundle.slug)
      (fun _ _ => ∀ bytes slots, multipart.archive = some bytes → Opens state bytes slots →
        service.disk.Admits (uploadPath bundle.slug number) → ¬Writable bundle.slug service.disk)
      service := by
  unfold receiveArchive
  rw [Fallible.meets_bind]
  apply (streamArchive_whole multipart).mono
  · intro sent following streamed
    cases sent with
    | false =>
        rw [if_neg Bool.false_ne_true, Fallible.meets_bind, Fallible.meets_lift]
        have none : multipart.archive = none := streamed
        constructor
        · intro _ _ bytes slots arrives
          rw [none] at arrives
          cases arrives
        · intro _ _ bytes slots arrives
          rw [none] at arrives
          cases arrives
    | true =>
        obtain ⟨bytes, arrives, received⟩ := streamed
        rw [if_pos rfl, Fallible.meets_bind]
        have persists := (@Statement.Idle.persists (.setStatus bundle.id .processing none) ()
          following.database _ trivial rfl).1
        apply @query_done following _ (.setStatus bundle.id .processing none) () _ _ rfl
        unfold failing
        rw [Fallible.meets_bind, meets_observe]
        have still : Registered (Sql.setStatus bundle.id .processing none following.database)
            bundle.id bundle.slug := by
          apply persists.registered
          rw [received.database]
          exact registered
        have folder : following.disk.find (filesPath bundle.slug) = some .folder := by
          rw [received.elsewhere _ (upload_apart _ _ (.inr (List.prefix_refl _)))]
          exact files
        apply (@ingestArchive_publishes state { following with
          database := Sql.setStatus bundle.id .processing none following.database } bytes bundle
          number valid still folder received.file).mono
        · rintro reply last ⟨slots, listing, opens, published⟩
          exact ⟨bytes, slots, listing, arrives, opens, published⟩
        · intro error last refused
          rw [Fallible.meets_bind]
          apply @query_done last _ (.setStatus bundle.id .failed (some (errorText state error))) ()
            _ _ rfl
          intro other slots again opens _ writable
          obtain rfl : bytes = other := Option.some.inj (arrives.symm.trans again)
          refine refused slots opens ⟨?_, ?_⟩
          · rw [Tree.isFolder, received.elsewhere _ (upload_apart _ _ (.inl rfl))]
            exact writable.1
          · have other : stagedManifestPath bundle.slug ≠ uploadPath bundle.slug number :=
              fun same => uploadPath_ne (by decide) bundle.slug bundle.slug number same.symm
            rw [Tree.isFolder, received.elsewhere _ other]
            exact writable.2
  · exact fun _ _ refused bytes _ arrives _ admits => absurd admits (refused bytes arrives)

end Receive

section Published

variable {state : State} {id : Uuid} {slug : String} {service : Service}
  {listing : List (Item String Bytes)}

structure Ready (slug : String) (service : Service) : Prop where
  valid : validateSlug slug = .ok ()
  files : service.disk.find (filesPath slug) = some .folder
  fresh : service.disk.find (uploadPath slug service.uploads) = none
  writable : Writable slug service.disk

theorem resolvedBundle_registered (registered : Registered service.database id slug) :
    (resolvedBundle slug).Meets (.alone registry)
      (fun bundle following => following = service ∧ validateSlug slug = .ok () ∧
        bundle.id = id ∧ bundle.slug = slug)
      (fun _ _ => validateSlug slug ≠ .ok ()) service := by
  obtain ⟨row, member, same, slugged⟩ := registered
  have findable : (Sql.findBySlug slug service.database).isSome = true :=
    List.find?_isSome.mpr ⟨row, member, decide_eq_true slugged⟩
  unfold resolvedBundle requireBySlug
  simp only [Fallible.meets_bind, Fallible.meets_lift, Fallible.meets_okOr]
  refine ⟨fun error refused valid => ?_, fun _ valid => ?_⟩
  · rw [valid] at refused
    cases refused
  apply @query_done service _ (.findBySlug slug) _ _ _ rfl
  constructor
  · intro missing
    rw [missing] at findable
    cases findable
  · intro bundle found
    have named : bundle.slug = slug := by simpa using List.find?_some found
    have one : bundle = row := Table.eq_of_slot_eq (List.mem_of_find?_eq_some found) member rfl
      (congrArg some (slugged.trans named.symm))
    exact ⟨rfl, valid, one ▸ same, named⟩

theorem Publishes.dropUpload {reply : Bundle} (published : Publishes state id slug listing reply
    service) (registered : Registered service.database id slug) (number : Nat) :
    (dropUpload (uploadPath slug number)).Meets (.alone registry)
      (fun _ following => Publishes state id slug listing reply following ∧
        Registered following.database id slug)
      (fun _ _ => False) service := by
  unfold Bundles.dropUpload
  rw [Fallible.meets_bind, alone_attempt]
  have kept : ∀ path, path = manifestPath slug ∨ filesPath slug <+: path →
      ((DiskCall.removeFile (uploadPath slug number)).perform service.disk).2.find path =
        service.disk.find path := fun path other =>
    DiskCall.settle_find fun _ removed =>
      Tree.removeFile_keeps removed (upload_apart slug number other)
  refine ⟨⟨fun rest node => ?_, published.rows, ?_, published.ready, published.filesCount,
    published.totalSize⟩, registered⟩
  · rw [kept _ (.inr (List.prefix_append _ _))]
    exact published.files rest node
  · obtain ⟨manifest, there, listed⟩ := published.manifest
    exact ⟨manifest, (kept _ (.inl rfl)).trans there, listed⟩

theorem uploadArchive_publishes (registered : Registered service.database id slug)
    (multipart : Multipart) :
    (uploadArchive state slug multipart).Meets (.alone registry)
      (fun reply following => ∃ bytes slots listing, multipart.archive = some bytes ∧
        Opens state bytes slots ∧ Lists slots listing ∧
        Publishes state id slug listing reply following ∧
        Registered following.database id slug ∧ validateSlug slug = .ok ())
      (fun _ _ => ∀ bytes slots, multipart.archive = some bytes → Opens state bytes slots →
        ¬Ready slug service) service := by
  unfold uploadArchive
  rw [Fallible.meets_bind]
  apply (resolvedBundle_registered registered).mono
  · rintro bundle service ⟨rfl, valid, rfl, rfl⟩
    unfold ensureBuildDir tempUpload
    rw [Fallible.meets_bind, alone_io]
    simp only [DiskCall.perform]
    cases made : service.disk.createDirAll (filesPath bundle.slug) with
    | error error =>
        intro bytes slots _ _ ready
        have clear : ∀ other, other <+: filesPath bundle.slug →
            service.disk.isFile other = false := by
          intro other within
          rw [Tree.isFile]
          by_cases same : other = filesPath bundle.slug
          · rw [same, ready.files]
            rfl
          · rw [Tree.folder_of_above within same (by rw [ready.files]; rfl)]
            rfl
        obtain ⟨disk, created⟩ := Tree.createDirAll_of_clear clear
        rw [made] at created
        cases created
    | ok first =>
        have folders := (Tree.createDirAll_ok made).1
        have folder : first.find (filesPath bundle.slug) = some .folder := by
          rw [folders, Tree.withFolders, if_pos (List.prefix_refl _)]
        have build : first.find (buildPath bundle.slug) = some .folder := by
          rw [folders, Tree.withFolders, if_pos ⟨["files"], rfl⟩]
        simp only [DiskCall.settle, Fallible.meets_bind]
        apply @mkdir_idle { service with disk := first } _ _ _ _ build
        intro second still
        have files : second.find (filesPath bundle.slug) = some .folder :=
          (congrFun still _).trans folder
        rw [meets_operate]
        change (observe (receiveArchive state bundle multipart
          (uploadPath bundle.slug service.uploads))).Meets (.alone registry) _ _
            { service with disk := second, uploads := service.uploads + 1 }
        rw [meets_observe]
        apply (@receiveArchive_publishes state { service with
          disk := second, uploads := service.uploads + 1 } bundle multipart service.uploads
          (validateSlug_ok valid).2.2.1 registered files).mono
        · rintro reply following ⟨bytes, slots, listing, arrives, opens, lists, published, still⟩
          apply (published.dropUpload still service.uploads).mono
          · rintro _ last ⟨published, still⟩
            rw [Fallible.meets_lift]
            refine ⟨fun error refused => (by cases refused), fun other same => ?_⟩
            cases same
            exact ⟨bytes, slots, listing, arrives, opens, lists, published, still, valid⟩
          · exact fun _ _ => False.elim
        · intro error following refused
          have unready : ∀ bytes slots, multipart.archive = some bytes →
              Opens state bytes slots → ¬Ready bundle.slug service := by
            intro bytes slots arrives opens ready
            have same : second.find = service.disk.find :=
              still.trans (Tree.createDirAll_idle made (by rw [ready.files]; rfl))
            refine refused bytes slots arrives opens ⟨?_, ?_, ?_⟩ ?_
            · simp [uploadPath]
            · rw [Tree.isFolder, same, ready.fresh]
            · exact Tree.isFolder_iff.mpr ((congrFun still _).trans build)
            · rw [Writable, Tree.isFolder, Tree.isFolder, same]
              exact ready.writable
          unfold Bundles.dropUpload
          rw [Fallible.meets_bind, alone_attempt]
          rw [Fallible.meets_pure, Fallible.meets_lift]
          exact ⟨fun _ _ => unready, fun _ ok => (by cases ok)⟩
  · exact fun _ _ invalid _ _ _ _ ready => invalid ready.valid

/-! ## The validation -/

/-- Nothing is missing and nothing is orphaned where the rows are those of the files. -/
theorem validate_published {reply : Bundle}
    (published : Publishes state id slug listing reply service)
    (plain : ∀ item ∈ listing, item.1 ≠ [] ∧ PlainNames item.1)
    (registered : Registered service.database id slug) (valid : validateSlug slug = .ok ()) :
    (validate state slug).Meets (.alone registry)
      (fun result following => result = ⟨[], []⟩ ∧ following = service) (fun _ _ => False)
      service := by
  unfold validate
  rw [Fallible.meets_bind]
  apply (resolvedBundle_registered registered).mono
  · rintro bundle service ⟨rfl, -, rfl, rfl⟩
    rw [Fallible.meets_bind]
    apply @query_done service _ (.listArtifacts bundle.id) _ _ _ rfl
    have listed : ((Sql.listArtifacts bundle.id service.database).map BundleArtifact.shape).Perm
        (listing.map (shapeOf state)) :=
      ((List.perm_insertionSort _ _).map _).trans published.rows
    generalize Sql.listArtifacts bundle.id service.database = artifacts at listed
    rw [Fallible.meets_bind]
    apply @io_done service _ (.probe (filesPath bundle.slug) ((artifacts.filter fun artifact =>
      !artifact.isDir).map (·.relativePath))) _ service.disk _ _ rfl
    rw [Fallible.meets_bind]
    have missing : (artifacts.filter fun artifact => !artifact.isDir).filter (fun file =>
        !(((artifacts.filter fun artifact => !artifact.isDir).map (·.relativePath)).filter
          fun path => service.disk.present (joinFiles (filesPath bundle.slug) path)).contains
            file.relativePath) = [] := by
      rw [List.filter_eq_nil_iff]
      intro file member
      obtain ⟨item, among, path, -⟩ := shape_placed plain
        (listed.subset (List.mem_map_of_mem (List.mem_of_mem_filter member)))
      rw [Bool.not_eq_true', Bool.not_eq_false, List.contains_iff_mem, List.mem_filter]
      refine ⟨List.mem_map_of_mem member, ?_⟩
      rw [Tree.present, joinFiles, path, ((published.files item.1 item.2).mp among).2]
      rfl
    have orphaned : ∀ entry : ScanEntry, entry.shape ∈ listing.map (shapeOf state) →
        (!entry.isDir && !((artifacts.filter fun artifact => !artifact.isDir).map
          (·.relativePath)).contains entry.relativePath) = false := by
      intro entry scanned
      obtain ⟨row, member, same⟩ := List.mem_map.mp (listed.symm.subset scanned)
      obtain ⟨path, rest⟩ := Prod.mk.inj same
      cases dir : entry.isDir with
      | true => rfl
      | false =>
          have file : row ∈ artifacts.filter fun artifact => !artifact.isDir :=
            List.mem_filter.mpr ⟨member, by rw [(Prod.mk.inj rest).1, dir]; rfl⟩
          rw [← path, List.contains_iff_mem.mpr (List.mem_map_of_mem file)]
          rfl
    have scan : (scanDirectory state (filesPath bundle.slug)).Meets (.alone registry)
        (fun scan following => following = service ∧
          ∀ entry ∈ scan, entry.shape ∈ listing.map (shapeOf state))
        (fun _ _ => False) service := by
      apply scanDirectory_alone.mono _ fun _ _ impossible => impossible
      rintro entries following ⟨rfl, rfl⟩
      apply And.intro rfl
      split
      · refine List.forall_mem_map.mpr fun found there => ?_
        have member := (published.files found.1 found.2).mpr (Tree.mem_below.mp there)
        obtain ⟨some, names⟩ := plain found member
        rw [scanEntry_shape some names]
        exact List.mem_map_of_mem member
      · exact fun _ member => absurd member List.not_mem_nil
    apply scan.mono
    · rintro entries following ⟨rfl, shapes⟩
      refine ⟨?_, rfl⟩
      rw [missing]
      have none : entries.filter (fun entry => !entry.isDir && !((artifacts.filter fun artifact =>
          !artifact.isDir).map (·.relativePath)).contains entry.relativePath) = [] := by
        rw [List.filter_eq_nil_iff]
        intro entry member
        rw [orphaned entry (shapes entry member)]
        exact Bool.false_ne_true
      rw [none]
      rfl
    · exact fun _ _ refused => refused
  · exact fun _ _ invalid => absurd valid invalid

end Published

theorem validate_evaluates {state : State} {id : Uuid} {slug : String} {service : Service}
    {listing : List (Item String Bytes)} {reply : Bundle}
    (published : Publishes state id slug listing reply service)
    (plain : ∀ item ∈ listing, item.1 ≠ [] ∧ PlainNames item.1)
    (registered : Registered service.database id slug) (valid : validateSlug slug = .ok ()) :
    (handle state (.validate slug)).evaluate service =
      (.ok (.validated ⟨[], []⟩), service) := by
  have meets : ((Request.validate slug).handler state).Meets (.alone registry)
      (fun reply following => reply = .validated ⟨[], []⟩ ∧ following = service)
      (fun _ _ => False) service := by
    rw [Request.handler, Fallible.meets_map]
    apply (validate_published published plain registered valid).mono
    · exact fun result following done => ⟨congrArg Reply.validated done.1, done.2⟩
    · exact fun _ _ refused => refused
  have ended := Process.meets_alone.mp meets
  cases outcome : (((Request.validate slug).handler state).run.evaluate service).1 with
  | error error =>
      rw [outcome] at ended
      exact ended.elim
  | ok reply =>
      rw [outcome] at ended
      exact Prod.ext (outcome.trans (congrArg _ ended.1)) ended.2

/-- Where an archive is accepted, the files of the build, its rows and its manifest are those of
the archive's entries, whatever they were before, and a validation finds nothing amiss. A build
that is ready accepts every archive that can be extracted. -/
theorem uploaded_archive_published {state : State} {id : Uuid} {slug : String} {start : Service}
    (registered : Registered start.database id slug) (multipart : Multipart) :
    let uploaded := (handle state (.uploadArchive slug multipart)).evaluate start
    (∀ reply, uploaded.1 = .ok reply → ∃ bundle bytes slots listing, reply = .bundle bundle ∧
      multipart.archive = some bytes ∧ Opens state bytes slots ∧ Lists slots listing ∧
      Publishes state id slug listing bundle uploaded.2 ∧
      (handle state (.validate slug)).evaluate uploaded.2 =
        (.ok (.validated ⟨[], []⟩), uploaded.2)) ∧
    (Ready slug start → ∀ bytes slots, multipart.archive = some bytes →
      Opens state bytes slots → ∃ reply, uploaded.1 = .ok reply) := by
  intro uploaded
  have meets : ((Request.uploadArchive slug multipart).handler state).Meets (.alone registry)
      (fun reply following => ∃ bundle bytes slots listing, reply = .bundle bundle ∧
        multipart.archive = some bytes ∧ Opens state bytes slots ∧ Lists slots listing ∧
        Publishes state id slug listing bundle following ∧
        (handle state (.validate slug)).evaluate following =
          (.ok (.validated ⟨[], []⟩), following))
      (fun _ _ => ∀ bytes slots, multipart.archive = some bytes → Opens state bytes slots →
        ¬Ready slug start) start := by
    rw [Request.handler, Fallible.meets_map]
    apply (uploadArchive_publishes registered multipart).mono
    · rintro bundle after ⟨bytes, slots, listing, arrives, opens, lists, published, still, valid⟩
      exact ⟨bundle, bytes, slots, listing, rfl, arrives, opens, lists, published,
        validate_evaluates published lists.plain still valid⟩
    · exact fun _ _ refused => refused
  have ended := Process.meets_alone.mp meets
  constructor
  · intro reply accepted
    have outcome : (((Request.uploadArchive slug multipart).handler state).run.evaluate start).1 =
        .ok reply := accepted
    rw [outcome] at ended
    exact ended
  · intro ready bytes slots arrives opens
    cases outcome : (((Request.uploadArchive slug multipart).handler state).run.evaluate start).1 with
    | ok reply => exact ⟨reply, outcome⟩
    | error error =>
        rw [outcome] at ended
        exact absurd ready (ended bytes slots arrives opens)

def modsZipState : State :=
  { shownState with
    openZip := fun _ => .ok [.ok ⟨"mods/", true, 0, [], none⟩,
      .ok ⟨"mods/b.jar", false, 2, [66, 66], none⟩] }

theorem uploaded_archive_published_replacing :
    ∃ bundle after listing, (handle modsZipState (.uploadArchive "pack" oneArchive)).evaluate
        oneFilePublished = (.ok (.bundle bundle), after) ∧
      (["mods", "b.jar"], .file [66, 66]) ∈ listing ∧
      Publishes modsZipState 1 "pack" listing bundle after ∧
      (handle modsZipState (.validate "pack")).evaluate after =
        (.ok (.validated ⟨[], []⟩), after) := by
  have registered : Registered oneFilePublished.database 1 "pack" := by
    unfold Registered
    decide +kernel
  have ready : Ready "pack" oneFilePublished :=
    ⟨by decide +kernel, by decide +kernel, by decide +kernel, by decide +kernel, by decide +kernel⟩
  have opens : Opens modsZipState [80, 75] _ := ⟨rfl, by decide +kernel⟩
  have always := @uploaded_archive_published modsZipState 1 "pack" oneFilePublished registered
    oneArchive
  revert always
  generalize (handle modsZipState (.uploadArchive "pack" oneArchive)).evaluate oneFilePublished =
    uploaded
  rintro ⟨published, granted⟩
  obtain ⟨outcome, after⟩ := uploaded
  obtain ⟨reply, rfl⟩ := granted ready [80, 75] _ (by decide +kernel) opens
  obtain ⟨bundle, bytes, slots, listing, rfl, arrives, opened, lists, publishes, validated⟩ :=
    published reply rfl
  have there : oneArchive.archive = some [80, 75] := by decide +kernel
  obtain rfl : [80, 75] = bytes := Option.some.inj (there.symm.trans arrives)
  have same := Except.ok.inj (opened.1.symm.trans opens.1)
  subst same
  exact ⟨bundle, after, listing, rfl, (lists.listed _ _).mpr (by decide +kernel), publishes,
    validated⟩

end Loontail.Bundles
