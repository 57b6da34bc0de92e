import Loontail.Bundles.Schema
import Loontail.Bundles.Storage
import Loontail.Encoding.Json
import Loontail.Encoding.Utf8

/-! # Building a manifest

The launcher's list of a bundle's files, grouped by category in the order in which the
categories first appear. -/

namespace Loontail.Bundles

structure ManifestEntry where
  path : String
  name : String
  size : Int
  isDir : Bool
  sha256 : Option String
  url : Option String
  downloadOnce : Option Bool
  deriving DecidableEq, Repr

abbrev Manifest := List (String × List ManifestEntry)

/-- `manifest.entry(category).or_default().push(entry)`. -/
def Manifest.push (category : String) (entry : ManifestEntry) : Manifest → Manifest
  | [] => [(category, [entry])]
  | (name, entries) :: rest =>
      if name = category then (name, entries ++ [entry]) :: rest
      else (name, entries) :: push category entry rest

namespace Manifest

def entries (manifest : Manifest) : List ManifestEntry := manifest.flatMap Prod.snd

def categories (manifest : Manifest) : List String := manifest.map Prod.fst

def group (category : String) : Manifest → List ManifestEntry
  | [] => []
  | (name, entries) :: rest => if name = category then entries else group category rest

section Push

variable (manifest : Manifest) (category : String) (entry : ManifestEntry)

theorem entries_push :
    (push category entry manifest).entries.Perm (entry :: manifest.entries) := by
  induction manifest with
  | nil => exact .refl _
  | cons first rest induction =>
      obtain ⟨name, listed⟩ := first
      unfold push
      split
      · simp only [entries, List.flatMap_cons, List.append_assoc]
        exact List.perm_middle
      · simp only [entries, List.flatMap_cons] at induction ⊢
        exact (induction.append_left listed).trans List.perm_middle

theorem categories_push :
    (push category entry manifest).categories =
      if category ∈ manifest.categories then manifest.categories
      else manifest.categories ++ [category] := by
  induction manifest with
  | nil => rfl
  | cons first rest induction =>
      obtain ⟨name, listed⟩ := first
      unfold push
      by_cases same : name = category
      · simp [categories, same]
      · simp only [categories] at induction
        rw [if_neg same]
        simp only [categories, List.map_cons, induction, List.mem_cons, Ne.symm same, false_or]
        by_cases known : category ∈ rest.map Prod.fst <;> simp [known]

theorem group_push (other : String) :
    group other (push category entry manifest) =
      group other manifest ++ if category = other then [entry] else [] := by
  induction manifest with
  | nil => simp [push, group]
  | cons first rest induction =>
      obtain ⟨name, listed⟩ := first
      unfold push
      by_cases same : name = category
      · subst same
        by_cases here : name = other <;> simp [group, here]
      · by_cases here : name = other
        · subst here
          simp [group, same, Ne.symm same]
        · simp [group, same, here, induction]

end Push

theorem group_of_absent {manifest : Manifest} {category : String}
    (absent : category ∉ manifest.categories) : group category manifest = [] := by
  induction manifest with
  | nil => rfl
  | cons first rest induction =>
      obtain ⟨name, listed⟩ := first
      rw [categories, List.map_cons, List.mem_cons, not_or] at absent
      rw [group, if_neg (Ne.symm absent.1)]
      exact induction absent.2

theorem eq_of_groups {manifest other : Manifest} (distinct : manifest.categories.Nodup)
    (categories : manifest.categories = other.categories)
    (groups : ∀ category, group category manifest = group category other) : manifest = other := by
  induction manifest generalizing other with
  | nil => exact (List.map_eq_nil_iff.mp categories.symm).symm
  | cons first rest induction =>
      obtain ⟨name, listed⟩ := first
      cases other with
      | nil => cases categories
      | cons second more =>
          obtain ⟨again, entries⟩ := second
          obtain ⟨rfl, tails⟩ := List.cons.inj categories
          obtain ⟨absent, remaining⟩ := List.nodup_cons.mp distinct
          have here := groups name
          simp only [group, if_true] at here
          subst here
          refine congrArg _ (induction remaining tails fun category => ?_)
          by_cases same : name = category
          · subst same
            have missing : name ∉ Manifest.categories more := by
              rw [Manifest.categories, ← tails]
              exact absent
            rw [group_of_absent absent, group_of_absent missing]
          · have there := groups category
            simpa only [group, if_neg same] using there

theorem group_of_mem {manifest : Manifest} (distinct : manifest.categories.Nodup)
    {category : String} {listed : List ManifestEntry} (member : (category, listed) ∈ manifest) :
    group category manifest = listed := by
  induction manifest with
  | nil => cases member
  | cons first rest induction =>
      obtain ⟨name, others⟩ := first
      obtain ⟨absent, remaining⟩ := List.nodup_cons.mp distinct
      rcases List.mem_cons.mp member with same | later
      · cases same
        exact if_pos rfl
      · have different : name ≠ category := by
          rintro rfl
          exact absent (List.mem_map.mpr ⟨_, later, rfl⟩)
        rw [group, if_neg different]
        exact induction remaining later

theorem mem_of_group {manifest : Manifest} {category : String}
    (some : group category manifest ≠ []) : (category, group category manifest) ∈ manifest := by
  induction manifest with
  | nil => exact (some rfl).elim
  | cons first rest induction =>
      obtain ⟨name, listed⟩ := first
      unfold group at some ⊢
      split
      · rename_i same
        rw [same]
        exact List.mem_cons_self
      · rename_i different
        rw [if_neg different] at some
        exact List.mem_cons_of_mem _ (induction some)

end Manifest

structure BuiltManifest where
  manifest : Manifest
  filesCount : Int
  totalSize : Int
  deriving DecidableEq, Repr

def manifestCategory (artifact : BundleArtifact) : String :=
  if artifact.category = "" then "root" else artifact.category

def manifestEntry (slug publicPrefix : String) (artifact : BundleArtifact) : ManifestEntry where
  path := artifact.relativePath
  name := artifact.name
  size := artifact.size
  isDir := artifact.isDir
  sha256 := if artifact.isDir then none else artifact.sha256
  url := if artifact.isDir then none else some (publicUrl publicPrefix slug artifact.relativePath)
  downloadOnce := if artifact.downloadOnce then some true else none

def buildManifest (artifacts : List BundleArtifact) (slug publicPrefix : String)
    (existing : BundleArtifact → Bool) : BuiltManifest :=
  artifacts.foldl (fun built artifact =>
    if !existing artifact then built
    else
      { manifest := built.manifest.push (manifestCategory artifact)
          (manifestEntry slug publicPrefix artifact)
        filesCount := if artifact.isDir then built.filesCount else built.filesCount + 1
        totalSize :=
          if artifact.isDir then built.totalSize else built.totalSize + max artifact.size 0 })
    ⟨[], 0, 0⟩

/-! ## The text of a manifest

The launcher hashes the bytes, so the order of the members and what is left out are fixed. -/

/-- `sha256`, `url` and `downloadOnce` are left out where there are none. -/
def ManifestEntry.json (entry : ManifestEntry) : Json.Value :=
  .object ([("path", .string entry.path), ("name", .string entry.name),
      ("size", .number entry.size), ("isDir", .bool entry.isDir)] ++
    (entry.sha256.map fun hash => ("sha256", .string hash)).toList ++
    (entry.url.map fun url => ("url", .string url)).toList ++
    (entry.downloadOnce.map fun once => ("downloadOnce", .bool once)).toList)

def Manifest.json (manifest : Manifest) : Json.Value :=
  .object (manifest.map fun (category, entries) =>
    (category, .array (entries.map ManifestEntry.json)))

def toJson (manifest : Manifest) : List UInt8 := Utf8.bytes (Json.render .pretty 0 manifest.json)

example : toJson [("mods", [⟨"mods/a.jar", "a.jar", 100, false, some "deadbeef", none, some true⟩])] =
    Utf8.bytes ("\x7b\n  \"mods\": [\n    \x7b\n      \"path\": \"mods/a.jar\",\n" ++
      "      \"name\": \"a.jar\",\n      \"size\": 100,\n      \"isDir\": false,\n" ++
      "      \"sha256\": \"deadbeef\",\n      \"downloadOnce\": true\n    \x7d\n  ]\n\x7d").toList := by
  decide +kernel

def ManifestEntry.ofJson (value : Json.Value) : Option ManifestEntry := do
  let path ← value.get "path" >>= Json.Value.asStr
  let name ← value.get "name" >>= Json.Value.asStr
  let size ← value.get "size" >>= Json.Value.asInt
  let isDir ← value.get "isDir" >>= Json.Value.asBool
  let sha256 ← value.getOptional "sha256" Json.Value.asStr
  let url ← value.getOptional "url" Json.Value.asStr
  let downloadOnce ← value.getOptional "downloadOnce" Json.Value.asBool
  some { path, name, size, isDir, sha256, url, downloadOnce }

def Manifest.parse (bytes : List UInt8) : Option Manifest := do
  let text ← Utf8.read bytes
  let value ← Json.read text
  value.asObject (·.asArray ManifestEntry.ofJson)

theorem ManifestEntry.ofJson_json (entry : ManifestEntry) : ofJson entry.json = some entry := by
  obtain ⟨path, name, size, isDir, sha256, url, downloadOnce⟩ := entry
  cases sha256 <;> cases url <;> cases downloadOnce <;> rfl

theorem Manifest.parse_toJson (manifest : Manifest) : parse (toJson manifest) = some manifest := by
  rw [parse, toJson, Utf8.read_bytes]
  simp only [Option.bind_eq_bind, Option.bind_some, Json.read_render]
  exact Json.Value.asObject_map (Json.Value.asArray_map ManifestEntry.ofJson_json) manifest

theorem toJson_injective : Function.Injective toJson := fun first second same =>
  Option.some.inj ((Manifest.parse_toJson first).symm.trans (same ▸ Manifest.parse_toJson second))

end Loontail.Bundles
