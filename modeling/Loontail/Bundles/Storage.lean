import Loontail.Core.Models
import Loontail.Core.Text
import Loontail.Server.PublicUrl
import Loontail.Bundles.Schema

/-! # Paths and links of the bundle registry

The files of a build are named by relative paths with forward slashes. A path is
normalized before it is stored, split where its folders are needed, and written
into the manifest as part of a link. -/

namespace Loontail.Bundles

open Text

/-! ## Slugs -/

/-- A slug is one inert path segment. -/
def validateSlug (slug : String) : Except AppError Unit :=
  if slug = "" || slug = "." || slug = ".." || slug.toList.contains '/' ||
      slug.toList.contains '\\' || slug.toList.contains '\x00' then
    .error (.badRequest "invalid slug")
  else .ok ()

theorem validateSlug_ok {slug : String} (valid : validateSlug slug = .ok ()) :
    slug ≠ "" ∧ slug ≠ "." ∧ slug ≠ ".." ∧ '/' ∉ slug.toList ∧ '\\' ∉ slug.toList := by
  unfold validateSlug at valid
  split at valid
  · cases valid
  · rename_i inert
    simp only [Bool.or_eq_true, decide_eq_true_eq, List.contains_iff_mem, not_or] at inert
    exact ⟨inert.1.1.1.1.1, inert.1.1.1.1.2, inert.1.1.1.2, inert.1.1.2, inert.1.2⟩

/-! ## Segments -/

def segments (path : String) : List String :=
  (split '/' path.toList).map String.ofList

def joinSegments (parts : List String) : String :=
  .ofList (['/'].intercalate (parts.map String.toList))

theorem segments_ne_nil (path : String) : segments path ≠ [] := by
  simp [segments, split_eq_splitOn, List.splitOn_ne_nil]

theorem not_mem_of_mem_segments {path part : String} (member : part ∈ segments path) :
    '/' ∉ part.toList := by
  obtain ⟨piece, present, rfl⟩ := List.mem_map.mp member
  rw [String.toList_ofList]
  exact not_mem_of_mem_split present

theorem joinSegments_segments (path : String) : joinSegments (segments path) = path := by
  have whole : ['/'].intercalate (split '/' path.toList) = path.toList := by
    rw [split_eq_splitOn]
    exact List.intercalate_splitOn '/'
  simp only [joinSegments, segments, List.map_map, Function.comp_def, String.toList_ofList,
    List.map_id', whole, String.ofList_toList]

theorem segments_joinSegments {parts : List String} (present : parts ≠ [])
    (apart : ∀ part ∈ parts, '/' ∉ part.toList) : segments (joinSegments parts) = parts := by
  have pieces : split '/' (['/'].intercalate (parts.map String.toList)) =
      parts.map String.toList := by
    refine split_intercalate (by simpa using present) fun piece member => ?_
    obtain ⟨part, listed, rfl⟩ := List.mem_map.mp member
    exact apart part listed
  simp only [segments, joinSegments, String.toList_ofList, pieces, List.map_map,
    Function.comp_def, String.ofList_toList, List.map_id']

theorem segments_injective : Function.Injective segments := fun left right same => by
  rw [← joinSegments_segments left, same, joinSegments_segments]

theorem segments_of_plain {name : String} (plain : '/' ∉ name.toList) : segments name = [name] := by
  have whole : joinSegments [name] = name := by
    simp [joinSegments]
  have parts := @segments_joinSegments [name] (by simp) (by simpa using plain)
  rwa [whole] at parts

/-- `format!("{old_rel}/{suffix}")`. -/
def beneath (path suffix : String) : String := path ++ "/" ++ suffix

theorem segments_beneath (path suffix : String) :
    segments (beneath path suffix) = segments path ++ segments suffix := by
  have chars : (beneath path suffix).toList = path.toList ++ '/' :: suffix.toList := by
    simp [beneath]
  rw [segments, chars, split_append, List.map_append]
  rfl

/-! ## Normalization -/

/-- `std::path::Component`, as far as a relative path has them. -/
inductive Component where
  | curDir
  | parentDir
  | normal (segment : String)
  deriving DecidableEq, Repr

/-- `Path::components` of a relative path: empty segments are skipped, and so is `.`
but in front. -/
def components (path : String) : List Component :=
  (if (segments path).head? = some "." then [.curDir] else []) ++
    (segments path).filterMap fun segment =>
      if segment = "" || segment = "." then none
      else if segment = ".." then some .parentDir
      else some (.normal segment)

def normalParts (field : String) : List Component → Except AppError (List String)
  | [] => .ok []
  | .curDir :: rest => normalParts field rest
  | .parentDir :: _ => .error (.badRequest (field ++ " escapes the build directory"))
  | .normal segment :: rest =>
      match normalParts field rest with
      | .ok parts => .ok (segment :: parts)
      | .error error => .error error

/-- `raw.replace('\\', "/")`. -/
def unify (raw : String) : String :=
  .ofList (raw.toList.map fun char => if char = '\\' then '/' else char)

def normalizeRelativePath (raw field : String) : Except AppError String :=
  let unified := unify raw
  if unified.toList.head? = some '/' then
    .error (.badRequest ("invalid " ++ field ++ " — must be a relative path"))
  else
    match normalParts field (components unified) with
    | .error error => .error error
    | .ok [] => .error (.badRequest (field ++ " is required"))
    | .ok parts => .ok (joinSegments parts)

example : normalizeRelativePath "mods\\./a.jar" "p" = .ok "mods/a.jar" ∧
    normalizeRelativePath "a/../../b" "p" =
      .error (.badRequest "p escapes the build directory") := by decide +kernel

/-! ### What a normalized path is -/

structure SafeSegment (segment : String) : Prop where
  filled : segment ≠ ""
  notHere : segment ≠ "."
  notUp : segment ≠ ".."
  plain : '\\' ∉ segment.toList

instance (segment : String) : Decidable (SafeSegment segment) :=
  decidable_of_iff
    (segment ≠ "" ∧ segment ≠ "." ∧ segment ≠ ".." ∧ '\\' ∉ segment.toList)
    ⟨fun ⟨filled, notHere, notUp, plain⟩ => ⟨filled, notHere, notUp, plain⟩,
      fun safe => ⟨safe.filled, safe.notHere, safe.notUp, safe.plain⟩⟩

def Normalized (path : String) : Prop := ∀ segment ∈ segments path, SafeSegment segment

instance (path : String) : Decidable (Normalized path) :=
  inferInstanceAs (Decidable (∀ segment ∈ segments path, SafeSegment segment))

theorem mem_normalParts {field : String} {given : List Component} {parts : List String}
    (accepted : normalParts field given = .ok parts) {part : String} (member : part ∈ parts) :
    .normal part ∈ given := by
  induction given generalizing parts with
  | nil =>
      cases accepted
      cases member
  | cons first rest induction =>
      cases first with
      | curDir => exact List.mem_cons_of_mem _ (induction accepted member)
      | parentDir => cases accepted
      | normal segment =>
          rcases continued : normalParts field rest with error | later
          · simp [normalParts, continued] at accepted
          · simp only [normalParts, continued, Except.ok.injEq] at accepted
            subst accepted
            rcases List.mem_cons.mp member with rfl | within
            · exact List.mem_cons_self
            · exact List.mem_cons_of_mem _ (induction continued within)

theorem normal_mem_components {path segment : String}
    (member : .normal segment ∈ components path) :
    segment ∈ segments path ∧ segment ≠ "" ∧ segment ≠ "." ∧ segment ≠ ".." := by
  unfold components at member
  rcases List.mem_append.mp member with here | named
  · split at here <;> simp at here
  · obtain ⟨piece, listed, kept⟩ := List.mem_filterMap.mp named
    split at kept
    · cases kept
    · rename_i filled
      split at kept
      · cases kept
      · rename_i inside
        cases kept
        simp only [Bool.or_eq_true, decide_eq_true_eq, not_or] at filled
        exact ⟨listed, filled.1, filled.2, inside⟩

theorem mem_segments_iff {path : String} {char : Char} (other : char ≠ '/') :
    (∃ segment ∈ segments path, char ∈ segment.toList) ↔ char ∈ path.toList := by
  rw [← mem_split_iff other]
  simp [segments]

theorem not_mem_of_unify {raw segment : String} (member : segment ∈ segments (unify raw)) :
    '\\' ∉ segment.toList := by
  intro held
  have within : '\\' ∈ (unify raw).toList :=
    (mem_segments_iff (by decide)).mp ⟨segment, member, held⟩
  simp only [unify, String.toList_ofList, List.mem_map] at within
  obtain ⟨char, -, same⟩ := within
  split at same
  · cases same
  · rename_i other
    exact other same

theorem normalized_of_ok {raw field path : String}
    (accepted : normalizeRelativePath raw field = .ok path) : Normalized path := by
  unfold normalizeRelativePath at accepted
  simp only at accepted
  split at accepted
  · cases accepted
  split at accepted
  · cases accepted
  · cases accepted
  rename_i relative _ parts filled gathered
  cases accepted
  have safe : ∀ part ∈ parts, part ∈ segments (unify raw) ∧ part ≠ "" ∧ part ≠ "." ∧
      part ≠ ".." := fun part member =>
    normal_mem_components (mem_normalParts gathered member)
  have present : parts ≠ [] := fun empty => filled (empty ▸ rfl)
  intro part member
  rw [segments_joinSegments present fun part member =>
    not_mem_of_mem_segments (safe part member).1] at member
  obtain ⟨listed, some, notHere, notUp⟩ := safe part member
  exact ⟨some, notHere, notUp, not_mem_of_unify listed⟩

theorem normalizeRelativePath_parts {raw field path : String}
    (accepted : normalizeRelativePath raw field = .ok path) :
    normalParts field (components (unify raw)) = .ok (segments path) := by
  unfold normalizeRelativePath at accepted
  simp only at accepted
  split at accepted
  · cases accepted
  split at accepted
  · cases accepted
  · cases accepted
  rename_i relative _ parts filled gathered
  cases accepted
  have present : parts ≠ [] := fun empty => filled (empty ▸ rfl)
  rw [gathered, segments_joinSegments present fun part member =>
    not_mem_of_mem_segments (normal_mem_components (mem_normalParts gathered member)).1]

theorem unify_eq_self {path : String} (plain : '\\' ∉ path.toList) : unify path = path := by
  have same : path.toList.map (fun char => if char = '\\' then '/' else char) =
      path.toList := by
    refine (List.map_congr_left fun char member => ?_).trans (List.map_id' _)
    rw [if_neg]
    rintro rfl
    exact plain member
  rw [unify, same, String.ofList_toList]

theorem Normalized.plain {path : String} (normalized : Normalized path) :
    '\\' ∉ path.toList := by
  intro held
  obtain ⟨segment, member, within⟩ := (mem_segments_iff (by decide)).mpr held
  exact (normalized segment member).plain within

theorem normalParts_normal (field : String) (parts : List String) :
    normalParts field (parts.map .normal) = .ok parts := by
  induction parts with
  | nil => rfl
  | cons part rest induction => rw [List.map_cons, normalParts, induction]

theorem Normalized.components {path : String} (normalized : Normalized path) :
    components path = (segments path).map .normal := by
  have ordinary : (segments path).filterMap (fun segment =>
      if segment = "" || segment = "." then none
      else if segment = ".." then some Component.parentDir
      else some (.normal segment)) = (segments path).map .normal := by
    rw [← List.filterMap_eq_map]
    refine List.filterMap_congr fun segment member => ?_
    have safe := normalized segment member
    simp [safe.filled, safe.notHere, safe.notUp]
  have leads : (segments path).head? ≠ some "." := by
    intro here
    exact (normalized "." (List.mem_of_mem_head? here)).notHere rfl
  rw [Bundles.components, if_neg leads, List.nil_append, ordinary]

theorem Normalized.relative {path : String} (normalized : Normalized path) :
    path.toList.head? ≠ some '/' := by
  intro rooted
  obtain ⟨rest, whole⟩ := List.head?_eq_some_iff.mp rooted
  have first : segments path = "" :: segments (.ofList rest) := by
    have split : path = beneath "" (.ofList rest) := by
      rw [← String.toList_inj, whole]
      simp [beneath]
    rw [split, segments_beneath]
    rfl
  exact (normalized "" (by simp [first])).filled rfl

theorem Normalized.accepted {path : String} (normalized : Normalized path) (field : String) :
    normalizeRelativePath path field = .ok path := by
  unfold normalizeRelativePath
  simp only [unify_eq_self normalized.plain, normalized.relative, if_false,
    normalized.components, normalParts_normal]
  split
  · rename_i impossible
    cases impossible
  · rename_i empty
    exact (segments_ne_nil path (Except.ok.inj empty)).elim
  · rename_i parts _ gathered
    cases gathered
    rw [joinSegments_segments]

/-! ### Paths below a folder -/

theorem unify_beneath (path suffix : String) :
    unify (beneath path suffix) = beneath (unify path) (unify suffix) := by
  rw [← String.toList_inj]
  simp [unify, beneath]

/-- A path below a folder names what the folder names, and then its own part. -/
theorem components_beneath {folder name : String} (safe : SafeSegment name)
    (plain : '/' ∉ name.toList) :
    components (beneath folder name) = components folder ++ [.normal name] := by
  have first : (segments folder ++ [name]).head? = (segments folder).head? := by
    cases parts : segments folder with
    | nil => exact (segments_ne_nil folder parts).elim
    | cons head rest => rfl
  unfold components
  rw [segments_beneath, segments_of_plain plain, first, List.filterMap_append]
  simp [safe.filled, safe.notHere, safe.notUp]

theorem normalParts_concat (field : String) (given : List Component) (name : String) :
    normalParts field (given ++ [.normal name]) =
      (normalParts field given).map (· ++ [name]) := by
  induction given with
  | nil => rfl
  | cons first rest induction =>
      cases first with
      | curDir => exact induction
      | parentDir => rfl
      | normal segment =>
          simp only [List.cons_append, normalParts, induction]
          cases normalParts field rest <;> rfl

/-! ## Names and categories -/

/-- The name in its folder, and the top-level folder (`root` for a file there). -/
def splitRelativePath (path : String) : String × String :=
  let parts := segments path
  (parts.getLast?.getD path, if parts.length > 1 then parts.headD "root" else "root")

example : splitRelativePath "mods/a.jar" = ("a.jar", "mods") ∧
    splitRelativePath "file.jar" = ("file.jar", "root") := by decide +kernel

/-! ## Links -/

def publicUrl (publicPrefix slug path : String) : String :=
  .ofList (trimEndMatches '/' publicPrefix.toList) ++ "/builds/" ++ slug ++ "/files/" ++
    unify path

end Loontail.Bundles

/-! ## The route of a build's files

The public router is mounted twice; both mounts serve a file under its slug and its
path. The router captures the two parameters as they stand in the request, and the
extractor decodes them. -/

namespace Loontail.Text

/-- Whether the text starts with an escape: a percent sign and two digits. -/
def escapes : List Char → Bool
  | '%' :: high :: low :: _ => isHexDigit high && isHexDigit low
  | _ => false

/-- The bytes of a text whose escapes are decoded; what is no escape stays. -/
def percentDecodeBytes : List Char → List UInt8
  | [] => []
  | char :: rest =>
      match rest with
      | high :: low :: later =>
          if char = '%' && isHexDigit high && isHexDigit low then
            UInt8.ofNat (16 * hexValue high + hexValue low) :: percentDecodeBytes later
          else String.utf8EncodeChar char ++ percentDecodeBytes (high :: low :: later)
      | short => String.utf8EncodeChar char ++ percentDecodeBytes short

def percentDecode (chars : List Char) : Option (List Char) :=
  (percentDecodeBytes chars).toByteArray.utf8Decode?.map Array.toList

def escapeFree : List Char → Bool
  | [] => true
  | char :: rest => !escapes (char :: rest) && escapeFree rest

end Loontail.Text

namespace Loontail.Bundles

open Text

/-- Where `build_router` nests the routes with the files. -/
inductive RegistryMount where
  | root
  | api
  deriving DecidableEq, Repr

def RegistryMount.path : RegistryMount → List Char
  | .root => "/bundle-registry".toList
  | .api => "/api/bundle-registry".toList

/-- `/builds/{slug}/files/{*path}` below a mount: the parameters as they stand there. -/
def captureFile (mount : RegistryMount) (request : List Char) : Option (List Char × List Char) :=
  (stripLeading (String.ofList mount.path ++ "/builds/") request).bind fun rest =>
    (splitOnce '/' rest).bind fun (slug, below) =>
      (stripLeading "files/" below).bind fun path =>
        if slug ≠ [] && path ≠ [] then some (slug, path) else none

def routeFile (request : List Char) : Option (List Char × List Char) :=
  (captureFile .root request).orElse fun _ => captureFile .api request

/-- The slug and the path that `serve_file` looks up for a request. -/
def resolveFile (request : List Char) : Except AppError (String × String) :=
  match routeFile request with
  | none => .error (.notFound "")
  | some (rawSlug, rawPath) =>
      match percentDecode rawSlug, percentDecode rawPath with
      | some slug, some path =>
          match validateSlug (.ofList slug) with
          | .error error => .error error
          | .ok () =>
              match normalizeRelativePath (.ofList path) "path" with
              | .error error => .error error
              | .ok normalized => .ok (.ofList slug, normalized)
      | _, _ => .error (.badRequest "Invalid URL: invalid UTF-8 in path parameter")

end Loontail.Bundles

/-! ## Rows named after their paths

The name and the category of a row are those of its path, which is normalized. -/

namespace Loontail.Bundles

def PlainNames (parts : List String) : Prop :=
  ∀ part ∈ parts, SafeSegment part ∧ '/' ∉ part.toList

theorem PlainNames.nil : PlainNames [] := by simp [PlainNames]

theorem PlainNames.append {first second : List String} :
    PlainNames (first ++ second) ↔ PlainNames first ∧ PlainNames second :=
  List.forall_mem_append

theorem PlainNames.of_prefix {first whole : List String} (plain : PlainNames whole)
    (leads : first <+: whole) : PlainNames first := fun part member =>
  plain part (leads.subset member)

theorem Normalized.plainNames {path : String} (normalized : Normalized path) :
    PlainNames (segments path) := fun part member =>
  ⟨normalized part member, not_mem_of_mem_segments member⟩

theorem PlainNames.segments {parts : List String} (plain : PlainNames parts)
    (some : parts ≠ []) : segments (joinSegments parts) = parts :=
  segments_joinSegments some fun part member => (plain part member).2

theorem PlainNames.normalized {parts : List String} (plain : PlainNames parts)
    (some : parts ≠ []) : Normalized (joinSegments parts) := fun part member =>
  (plain part (plain.segments some ▸ member)).1

structure BundleArtifact.Named (artifact : BundleArtifact) : Prop where
  normalized : Normalized artifact.relativePath
  split : splitRelativePath artifact.relativePath = (artifact.name, artifact.category)

instance (artifact : BundleArtifact) : Decidable artifact.Named :=
  decidable_of_iff
    (Normalized artifact.relativePath ∧
      splitRelativePath artifact.relativePath = (artifact.name, artifact.category))
    ⟨fun ⟨normalized, split⟩ => ⟨normalized, split⟩, fun named => ⟨named.normalized, named.split⟩⟩

namespace BundleArtifact.Named

variable {artifact : BundleArtifact}

theorem last (named : artifact.Named) :
    segments artifact.relativePath =
      (segments artifact.relativePath).dropLast ++ [artifact.name] := by
  have name : (segments artifact.relativePath).getLast?.getD artifact.relativePath =
      artifact.name := congrArg Prod.fst named.split
  rw [List.getLast?_eq_some_getLast (segments_ne_nil _), Option.getD_some] at name
  rw [← name, List.dropLast_append_getLast]

theorem mem (named : artifact.Named) : artifact.name ∈ segments artifact.relativePath := by
  rw [named.last]
  simp

theorem safe (named : artifact.Named) : SafeSegment artifact.name :=
  named.normalized _ named.mem

theorem plain (named : artifact.Named) : '/' ∉ artifact.name.toList :=
  not_mem_of_mem_segments named.mem

end BundleArtifact.Named

end Loontail.Bundles
