import Loontail.Bundles.Manifest
import Mathlib.Algebra.Ring.Int.Defs

/-! # What is in a manifest

Grouping, filtering and counting run in one loop over the rows. After any number of rows
the groups are those of the rows that are on disk, and so are the counters. -/

namespace Loontail.Bundles

section Contents

variable (slug publicPrefix : String)

def ofCategory (category : String) (artifacts : List BundleArtifact) : List ManifestEntry :=
  (artifacts.filter fun artifact => manifestCategory artifact = category).map
    (manifestEntry slug publicPrefix)

/-- The sizes count as far as they are not negative. -/
def sizeOf (artifacts : List BundleArtifact) : Int :=
  ((artifacts.filter fun artifact => !artifact.isDir).map fun artifact => max artifact.size 0).sum

structure Shows (present : List BundleArtifact) (built : BuiltManifest) : Prop where
  entries : built.manifest.entries.Perm (present.map (manifestEntry slug publicPrefix))
  distinct : built.manifest.categories.Nodup
  listed : ∀ category ∈ built.manifest.categories,
    ∃ artifact ∈ present, manifestCategory artifact = category
  groups : ∀ category, built.manifest.group category =
    ofCategory slug publicPrefix category present
  filesCount : built.filesCount = (present.filter fun artifact => !artifact.isDir).length
  totalSize : built.totalSize = sizeOf present

variable {slug publicPrefix : String} {artifacts present : List BundleArtifact}
  {artifact : BundleArtifact} {existing : BundleArtifact → Bool}

theorem buildManifest_concat : buildManifest (artifacts ++ [artifact]) slug publicPrefix existing =
    if !existing artifact then buildManifest artifacts slug publicPrefix existing
    else
      { manifest := (buildManifest artifacts slug publicPrefix existing).manifest.push
          (manifestCategory artifact) (manifestEntry slug publicPrefix artifact)
        filesCount :=
          if artifact.isDir then (buildManifest artifacts slug publicPrefix existing).filesCount
          else (buildManifest artifacts slug publicPrefix existing).filesCount + 1
        totalSize :=
          if artifact.isDir then (buildManifest artifacts slug publicPrefix existing).totalSize
          else (buildManifest artifacts slug publicPrefix existing).totalSize +
            max artifact.size 0 } := by
  rw [buildManifest, List.foldl_append]
  rfl

theorem ofCategory_concat (category : String) :
    ofCategory slug publicPrefix category (present ++ [artifact]) =
      ofCategory slug publicPrefix category present ++
        if manifestCategory artifact = category then [manifestEntry slug publicPrefix artifact]
        else [] := by
  unfold ofCategory
  rw [List.filter_append, List.map_append]
  by_cases same : manifestCategory artifact = category <;> simp [same]

theorem Shows.push {built : BuiltManifest} (shows_ : Shows slug publicPrefix present built) :
    Shows slug publicPrefix (present ++ [artifact])
      { manifest := built.manifest.push (manifestCategory artifact)
          (manifestEntry slug publicPrefix artifact)
        filesCount := if artifact.isDir then built.filesCount else built.filesCount + 1
        totalSize :=
          if artifact.isDir then built.totalSize else built.totalSize + max artifact.size 0 } where
  entries := by
    rw [List.map_append, List.map_singleton]
    exact (Manifest.entries_push _ _ _).trans ((shows_.entries.cons _).trans
      (List.perm_append_singleton _ _).symm)
  distinct := by
    rw [Manifest.categories_push]
    split
    · exact shows_.distinct
    · rename_i absent
      exact List.nodup_append.mpr ⟨shows_.distinct, List.nodup_singleton _,
        fun category member other last same =>
          absent (List.mem_singleton.mp last ▸ same ▸ member)⟩
  listed := by
    intro category member
    rw [Manifest.categories_push] at member
    have old : category ∈ built.manifest.categories →
        ∃ other ∈ present ++ [artifact], manifestCategory other = category := fun earlier =>
      have ⟨other, among, same⟩ := shows_.listed category earlier
      ⟨other, List.mem_append_left _ among, same⟩
    split at member
    · exact old member
    · rcases List.mem_append.mp member with earlier | last
      · exact old earlier
      · exact ⟨artifact, by simp, (List.mem_singleton.mp last).symm⟩
  groups := fun category => by
    rw [Manifest.group_push, shows_.groups, ofCategory_concat]
  filesCount := by
    rw [List.filter_append, List.length_append, Int.natCast_add, ← shows_.filesCount]
    cases dir : artifact.isDir <;> simp [dir]
  totalSize := by
    unfold sizeOf
    rw [List.filter_append, List.map_append, List.sum_append]
    have before := shows_.totalSize
    unfold sizeOf at before
    rw [← before]
    cases dir : artifact.isDir <;> simp [dir]

theorem buildManifest_shows : Shows slug publicPrefix (artifacts.filter existing)
    (buildManifest artifacts slug publicPrefix existing) := by
  induction artifacts using List.reverseRecOn with
  | nil => exact ⟨.refl _, .nil, by simp [buildManifest, Manifest.categories], fun _ => rfl, rfl, rfl⟩
  | append_singleton rest artifact induction =>
      rw [buildManifest_concat, List.filter_append]
      cases there : existing artifact with
      | false => simpa [there] using induction
      | true => simpa [there] using induction.push

end Contents

/-- A manifest has every row that is on disk once, in its own category and there in the
order of the rows; the counters are those of the files among them. -/
theorem manifest_exact (artifacts : List BundleArtifact) (slug publicPrefix : String)
    (existing : BundleArtifact → Bool) :
    let built := buildManifest artifacts slug publicPrefix existing
    let present := artifacts.filter existing
    let files := present.filter fun artifact => !artifact.isDir
    (built.manifest.flatMap Prod.snd).Perm (present.map (manifestEntry slug publicPrefix)) ∧
      (built.manifest.map Prod.fst).Nodup ∧
      (∀ category entries, (category, entries) ∈ built.manifest ↔ entries ≠ [] ∧ entries =
        (present.filter fun artifact => manifestCategory artifact = category).map
          (manifestEntry slug publicPrefix)) ∧
      built.filesCount = files.length ∧
      built.totalSize = (files.map fun artifact => max artifact.size 0).sum := by
  intro built present files
  have shows_ : Shows slug publicPrefix present built := buildManifest_shows
  refine ⟨shows_.entries, shows_.distinct, fun category entries => ?_, shows_.filesCount,
    shows_.totalSize⟩
  constructor
  · intro member
    have group := Manifest.group_of_mem shows_.distinct member
    rw [shows_.groups] at group
    obtain ⟨artifact, there, same⟩ := shows_.listed category (List.mem_map_of_mem member)
    refine ⟨?_, group.symm⟩
    rintro rfl
    rw [ofCategory, List.map_eq_nil_iff, List.filter_eq_nil_iff] at group
    exact group artifact there (decide_eq_true same)
  · rintro ⟨some, rfl⟩
    have group : built.manifest.group category =
        ofCategory slug publicPrefix category present := shows_.groups category
    have listed := @Manifest.mem_of_group built.manifest category (group ▸ some)
    rw [group] at listed
    exact listed

/-- What the launcher reads from the bytes of a manifest has, in each category, the entries of the
rows that are on disk. Two lists of rows give the same bytes exactly where they list the same
categories in the same order, with the same entries in the same order. -/
theorem manifest_text_exact (artifacts others : List BundleArtifact) (slug publicPrefix : String)
    (existing remaining : BundleArtifact → Bool) :
    let built := buildManifest artifacts slug publicPrefix existing
    let rebuilt := buildManifest others slug publicPrefix remaining
    (∃ manifest, Manifest.parse (toJson built.manifest) = some manifest ∧
      manifest.categories.Nodup ∧ ∀ category, manifest.group category =
        ofCategory slug publicPrefix category (artifacts.filter existing)) ∧
    (toJson built.manifest = toJson rebuilt.manifest ↔
      built.manifest.categories = rebuilt.manifest.categories ∧ ∀ category,
        ofCategory slug publicPrefix category (artifacts.filter existing) =
          ofCategory slug publicPrefix category (others.filter remaining)) := by
  intro built rebuilt
  have shows_ : Shows slug publicPrefix (artifacts.filter existing) built := buildManifest_shows
  have reshown : Shows slug publicPrefix (others.filter remaining) rebuilt := buildManifest_shows
  refine ⟨⟨built.manifest, Manifest.parse_toJson _, shows_.distinct, shows_.groups⟩, ?_⟩
  rw [toJson_injective.eq_iff]
  constructor
  · intro same
    refine ⟨congrArg Manifest.categories same, fun category => ?_⟩
    rw [← shows_.groups, ← reshown.groups, same]
  · rintro ⟨categories, groups⟩
    refine Manifest.eq_of_groups shows_.distinct categories fun category => ?_
    rw [shows_.groups, reshown.groups, groups]

end Loontail.Bundles
