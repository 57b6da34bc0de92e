import Loontail.Bundles.Storage
import Loontail.Guarantees.TextureUrls

/-! # Whether the links of a manifest lead to their files

A link carries the slug and the path as they are. The client cuts it at a query or a
fragment and the server decodes escapes, so a file is found when its link has neither. -/

namespace Loontail.Text

/-! ## Decoding shortens -/

def encoded (chars : List Char) : List UInt8 := chars.flatMap String.utf8EncodeChar

theorem encoded_append (front back : List Char) :
    encoded (front ++ back) = encoded front ++ encoded back := List.flatMap_append

theorem utf8EncodeChar_pos (char : Char) : 0 < (String.utf8EncodeChar char).length :=
  List.length_pos_iff.mpr String.utf8EncodeChar_ne_nil

theorem escapes_short {char : Char} {rest : List Char}
    (short : ∀ high low later, rest = high :: low :: later → False) :
    escapes (char :: rest) = false := by
  unfold escapes
  split
  · rename_i high low later same
    cases same
    exact (short high low later rfl).elim
  · rfl

theorem escapes_cons {char high low : Char} {later : List Char} :
    escapes (char :: high :: low :: later) = true ↔
      (char = '%' && isHexDigit high && isHexDigit low) = true := by
  by_cases percent : char = '%'
  · subst percent
    simp [escapes]
  · have other : escapes (char :: high :: low :: later) = false := by
      unfold escapes
      split
      · rename_i same
        cases same
        exact (percent rfl).elim
      · rfl
    simp [other, percent]

theorem percentDecodeBytes_of_escapeFree {chars : List Char} (free : escapeFree chars = true) :
    percentDecodeBytes chars = encoded chars := by
  fun_induction percentDecodeBytes chars with
  | case1 => rfl
  | case2 char high low later escape induction =>
      rw [escapeFree, escapes_cons.mpr escape] at free
      cases free
  | case3 char high low later plain induction =>
      rw [escapeFree, Bool.and_eq_true] at free
      rw [induction free.2]
      rfl
  | case4 char rest short induction =>
      rw [escapeFree, Bool.and_eq_true] at free
      rw [induction free.2]
      rfl

theorem length_percentDecodeBytes_le (chars : List Char) :
    (percentDecodeBytes chars).length ≤ (encoded chars).length := by
  fun_induction percentDecodeBytes chars with
  | case1 => simp [encoded]
  | case2 char high low later escape induction =>
      have first := utf8EncodeChar_pos char
      simp only [encoded, List.flatMap_cons, List.length_append, List.length_cons] at induction ⊢
      omega
  | case3 char high low later plain induction =>
      simp only [encoded, List.flatMap_cons, List.length_append] at induction ⊢
      omega
  | case4 char rest short induction =>
      simp only [encoded, List.flatMap_cons, List.length_append] at induction ⊢
      omega

theorem length_percentDecodeBytes_lt {chars : List Char} (escape : escapeFree chars = false) :
    (percentDecodeBytes chars).length < (encoded chars).length := by
  fun_induction percentDecodeBytes chars with
  | case1 => cases escape
  | case2 char high low later escaped induction =>
      have first := utf8EncodeChar_pos char
      have second := utf8EncodeChar_pos high
      have rest := length_percentDecodeBytes_le later
      simp only [encoded, List.flatMap_cons, List.length_append, List.length_cons] at rest ⊢
      omega
  | case3 char high low later plain induction =>
      have within : escapeFree (high :: low :: later) = false := by
        rw [escapeFree, Bool.eq_false_iff.mpr fun here => plain (escapes_cons.mp here)] at escape
        simpa using escape
      have shorter := induction within
      simp only [encoded, List.flatMap_cons, List.length_append] at shorter ⊢
      omega
  | case4 char rest short induction =>
      have within : escapeFree rest = false := by
        rw [escapeFree, escapes_short short] at escape
        simpa using escape
      have shorter := induction within
      simp only [encoded, List.flatMap_cons, List.length_append] at shorter ⊢
      omega

theorem encoded_of_percentDecode {chars decoded : List Char}
    (accepted : percentDecode chars = some decoded) :
    encoded decoded = percentDecodeBytes chars := by
  obtain ⟨array, decodes, rfl⟩ := Option.map_eq_some_iff.mp accepted
  have whole := @ByteArray.utf8Encode_get_utf8Decode? (percentDecodeBytes chars).toByteArray
    (by rw [decodes]; rfl)
  simp only [decodes, Option.get_some] at whole
  exact List.toByteArray_inj.mp whole

theorem percentDecode_of_escapeFree {chars : List Char} (free : escapeFree chars = true) :
    percentDecode chars = some chars := by
  have same : (encoded chars).toByteArray = chars.utf8Encode := rfl
  rw [percentDecode, percentDecodeBytes_of_escapeFree free, same, List.utf8Decode?_utf8Encode,
    Option.map_some]

/-- Decoding never lengthens, and it keeps the length of texts without escapes only. -/
theorem length_of_percentDecode {chars decoded : List Char}
    (accepted : percentDecode chars = some decoded) :
    (encoded decoded).length < (encoded chars).length ∨
      escapeFree chars = true ∧ decoded = chars := by
  cases free : escapeFree chars with
  | true =>
      rw [percentDecode_of_escapeFree free] at accepted
      exact .inr ⟨rfl, (Option.some.inj accepted).symm⟩
  | false =>
      rw [encoded_of_percentDecode accepted]
      exact .inl (length_percentDecodeBytes_lt free)

theorem encoded_sublist {shorter longer : List Char} (within : shorter.Sublist longer) :
    (encoded shorter).length ≤ (encoded longer).length := by
  induction within with
  | slnil => exact Nat.le_refl _
  | cons char _ induction =>
      simp only [encoded, List.flatMap_cons, List.length_append] at induction ⊢
      omega
  | cons_cons char _ induction =>
      simp only [encoded, List.flatMap_cons, List.length_append] at induction ⊢
      omega

end Loontail.Text

namespace Loontail.Bundles

open Text Server

/-! ## Normalizing shortens -/

theorem intercalate_sublist {separator : List Char} {kept pieces : List (List Char)}
    (within : kept.Sublist pieces) :
    (separator.intercalate kept).Sublist (separator.intercalate pieces) := by
  induction within with
  | slnil => exact .refl _
  | @cons kept rest piece within induction =>
      rcases rest with _ | ⟨second, more⟩
      · cases List.sublist_nil.mp within
        exact List.nil_sublist _
      · rw [List.intercalate_cons_cons]
        exact induction.trans (List.sublist_append_right _ _)
  | @cons_cons kept rest piece within induction =>
      rcases rest with _ | ⟨second, more⟩
      · cases List.sublist_nil.mp within
        exact .refl _
      · rw [List.intercalate_cons_cons]
        rcases kept with _ | ⟨first, others⟩
        · simp
        · rw [List.intercalate_cons_cons]
          exact (List.Sublist.refl _).append induction

theorem normalParts_eq {field : String} {given : List Component} {parts : List String}
    (accepted : normalParts field given = .ok parts) :
    parts = given.filterMap fun component =>
      match component with
      | .normal segment => some segment
      | _ => none := by
  induction given generalizing parts with
  | nil =>
      cases accepted
      rfl
  | cons first rest induction =>
      cases first with
      | curDir => exact induction accepted
      | parentDir => cases accepted
      | normal segment =>
          rcases continued : normalParts field rest with error | later
          · simp [normalParts, continued] at accepted
          · simp only [normalParts, continued, Except.ok.injEq] at accepted
            rw [← accepted, induction continued]
            rfl

theorem filterMap_sublist {Value : Type} {keep : Value → Option Value}
    (keeps : ∀ value kept, keep value = some kept → kept = value) (values : List Value) :
    (values.filterMap keep).Sublist values := by
  induction values with
  | nil => exact .slnil
  | cons value rest induction =>
      cases found : keep value with
      | none =>
          rw [List.filterMap_cons_none found]
          exact induction.cons value
      | some kept =>
          rw [List.filterMap_cons_some found, keeps value kept found]
          exact induction.cons_cons value

theorem normalized_sublist {raw field path : String}
    (accepted : normalizeRelativePath raw field = .ok path) :
    path.toList.Sublist (unify raw).toList := by
  unfold normalizeRelativePath at accepted
  simp only at accepted
  split at accepted
  · cases accepted
  split at accepted
  · cases accepted
  · cases accepted
  rename_i parts _ gathered
  cases accepted
  have listed : parts.Sublist (segments (unify raw)) := by
    rw [normalParts_eq gathered, components, List.filterMap_append, List.filterMap_filterMap]
    have leading : ((if (segments (unify raw)).head? = some "." then [Component.curDir]
        else []).filterMap fun component =>
          match component with
          | .normal segment => some segment
          | _ => none) = [] := by
      split <;> rfl
    rw [leading, List.nil_append]
    refine filterMap_sublist (fun segment kept found => ?_) _
    split at found
    · cases found
    · split at found
      · cases found
      · exact (Option.some.inj found).symm
  have whole : (unify raw).toList =
      ['/'].intercalate ((segments (unify raw)).map String.toList) := by
    have joined := congrArg String.toList (joinSegments_segments (unify raw))
    rwa [joinSegments, String.toList_ofList, eq_comm] at joined
  rw [joinSegments, String.toList_ofList, whole]
  exact intercalate_sublist (listed.map String.toList)

theorem encoded_unify (raw : String) :
    (encoded (unify raw).toList).length = (encoded raw.toList).length := by
  rw [unify, String.toList_ofList]
  induction raw.toList with
  | nil => rfl
  | cons char rest induction =>
      simp only [encoded, List.map_cons, List.flatMap_cons, List.length_append] at induction ⊢
      rw [induction]
      by_cases back : char = '\\'
      · subst back
        rfl
      · rw [if_neg back]

/-! ## The route -/

def fileRequest (mount : RegistryMount) (slug path : List Char) : List Char :=
  mount.path ++ "/builds/".toList ++ slug ++ "/files/".toList ++ path

theorem stripLeading_append (leading : String) (rest : List Char) :
    stripLeading leading (leading.toList ++ rest) = some rest := by
  rw [stripLeading, if_pos (List.isPrefixOf_iff_prefix.mpr (List.prefix_append _ _)),
    List.drop_left]

theorem splitOnce_append {separator : Char} {before : List Char} (absent : separator ∉ before)
    (after : List Char) :
    splitOnce separator (before ++ separator :: after) = some (before, after) :=
  splitOnce_eq_some.mpr ⟨absent, rfl⟩

theorem splitOnce_none {separator : Char} {chars : List Char} (absent : separator ∉ chars) :
    splitOnce separator chars = none := by
  induction chars with
  | nil => rfl
  | cons char rest induction =>
      rw [List.mem_cons, not_or] at absent
      rw [splitOnce, if_neg (Ne.symm absent.1), induction absent.2]
      rfl

/-- Below its mount the route captures the slug and a path that is not empty. -/
theorem captureFile_request (mount : RegistryMount) {slug : List Char} (filled : slug ≠ [])
    (inert : '/' ∉ slug) (path : List Char) :
    captureFile mount (fileRequest mount slug path) =
      if path = [] then none else some (slug, path) := by
  have text : fileRequest mount slug path =
      (String.ofList mount.path ++ "/builds/").toList ++
        (slug ++ '/' :: ("files/".toList ++ path)) := by
    simp [fileRequest, show "/files/".toList = '/' :: "files/".toList from rfl]
  rw [captureFile, text, stripLeading_append, Option.bind_some, splitOnce_append inert,
    Option.bind_some]
  simp only [stripLeading_append, Option.bind_some]
  by_cases empty : path = [] <;> simp [empty, filled]

theorem captureFile_short (mount : RegistryMount) {slug : List Char} (inert : '/' ∉ slug) :
    captureFile mount (mount.path ++ "/builds/".toList ++ slug) = none := by
  have text : mount.path ++ "/builds/".toList ++ slug =
      (String.ofList mount.path ++ "/builds/").toList ++ slug := by simp
  rw [captureFile, text, stripLeading_append, Option.bind_some, splitOnce_none inert]
  rfl

theorem captureFile_other {mount other : RegistryMount} (different : mount ≠ other)
    (below : List Char) : captureFile mount (other.path ++ below) = none := by
  cases mount <;> cases other
  · exact (different rfl).elim
  · rfl
  · rfl
  · exact (different rfl).elim

theorem routeFile_eq (mount : RegistryMount) (below : List Char) :
    routeFile (mount.path ++ below) = captureFile mount (mount.path ++ below) := by
  cases mount with
  | root =>
      rw [routeFile, @captureFile_other .api .root (by decide) below]
      cases captureFile .root (RegistryMount.path .root ++ below) <;> rfl
  | api =>
      rw [routeFile, @captureFile_other .root .api (by decide) below]
      rfl

theorem resolveFile_short (mount : RegistryMount) {slug : List Char} (inert : '/' ∉ slug) :
    resolveFile (mount.path ++ "/builds/".toList ++ slug) = .error (.notFound "") := by
  rw [resolveFile, List.append_assoc, routeFile_eq, ← List.append_assoc,
    captureFile_short mount inert]

theorem resolveFile_request (mount : RegistryMount) {slug path : List Char}
    (filled : slug ≠ []) (inert : '/' ∉ slug) {found : String × String} :
    resolveFile (fileRequest mount slug path) = .ok found ↔
      path ≠ [] ∧ ∃ name rest, percentDecode slug = some name ∧
        percentDecode path = some rest ∧ validateSlug (.ofList name) = .ok () ∧
        normalizeRelativePath (.ofList rest) "path" = .ok found.2 ∧
        found.1 = .ofList name := by
  have routed : routeFile (fileRequest mount slug path) =
      if path = [] then none else some (slug, path) := by
    rw [← captureFile_request mount filled inert path]
    simp only [fileRequest, List.append_assoc]
    exact routeFile_eq mount _
  rw [resolveFile, routed]
  by_cases empty : path = []
  · simp [empty]
  rw [if_neg empty]
  constructor
  · intro resolved
    refine ⟨empty, ?_⟩
    simp only at resolved
    split at resolved
    · rename_i name rest decodedSlug decodedPath
      split at resolved
      · cases resolved
      · rename_i valid
        split at resolved
        · cases resolved
        · rename_i normalized accepted
          cases resolved
          exact ⟨name, rest, decodedSlug, decodedPath, valid, accepted, rfl⟩
    · cases resolved
  · rintro ⟨-, name, rest, decodedSlug, decodedPath, valid, accepted, same⟩
    simp only [decodedSlug, decodedPath, valid, accepted]
    rw [← same]

/-! ## The links of a manifest -/

/-- The configured prefix of the links: a path the routes are mounted at, behind an
origin or by itself. -/
inductive RegistryPrefix where
  | relative (mount : RegistryMount) (slashes : Nat)
  | absolute (url : HttpUrl) (mount : RegistryMount) (leads : url.trimmed = mount.path)

namespace RegistryPrefix

def mount : RegistryPrefix → RegistryMount
  | relative mount _ => mount
  | absolute _ mount _ => mount

def text : RegistryPrefix → List Char
  | relative mount slashes => mount.path ++ List.replicate slashes '/'
  | absolute url _ _ => url.text

end RegistryPrefix

def uncut (chars : List Char) : List Char :=
  chars.takeWhile fun char => char ≠ '?' && char ≠ '#'

def requestPath (link : List Char) : List Char :=
  if link.head? = some '/' then uncut link else urlPath link

theorem trimEndMatches_replicate (char : Char) (count : Nat) :
    trimEndMatches char (List.replicate count char) = [] := by
  rw [trimEndMatches, List.rdropWhile_eq_nil_iff]
  intro one member
  exact decide_eq_true (List.eq_of_mem_replicate member)

theorem RegistryMount.path_ends (mount : RegistryMount) : mount.path.getLast? ≠ some '/' := by
  cases mount <;> decide +kernel

theorem RegistryMount.path_rooted (mount : RegistryMount) (below : List Char) :
    (mount.path ++ below).head? = some '/' := by
  cases mount <;> rfl

theorem fileRequest_rooted (mount : RegistryMount) (slug path : List Char) :
    (fileRequest mount slug path).head? = some '/' := by
  simp only [fileRequest, List.append_assoc]
  exact mount.path_rooted _

theorem requestPath_publicUrl (publicPrefix : RegistryPrefix) (slug path : String) :
    requestPath (publicUrl (.ofList publicPrefix.text) slug path).toList =
      uncut (fileRequest publicPrefix.mount slug.toList (unify path).toList) := by
  cases publicPrefix with
  | relative mount slashes =>
      have link : (publicUrl (.ofList (RegistryPrefix.relative mount slashes).text) slug
          path).toList = fileRequest mount slug.toList (unify path).toList := by
        simp [publicUrl, RegistryPrefix.text, fileRequest,
          trimEndMatches_append mount.path_ends, trimEndMatches_replicate]
      rw [link, requestPath, if_pos (fileRequest_rooted mount _ _)]
      rfl
  | absolute url mount leads =>
      have link : (publicUrl (.ofList (RegistryPrefix.absolute url mount leads).text) slug
          path).toList = url.origin ++ fileRequest mount slug.toList (unify path).toList := by
        have trimmed : trimEndMatches '/' url.path = mount.path := leads
        simp [publicUrl, RegistryPrefix.text, HttpUrl.text, fileRequest,
          trimEndMatches_append url.origin_ends, trimmed]
      have distant : (url.origin ++ fileRequest mount slug.toList (unify path).toList).head? ≠
          some '/' := by
        rw [HttpUrl.origin, HttpUrl.scheme]
        cases url.secure <;> simp
      rw [link, requestPath, if_neg distant, urlPath,
        url.parse_origin (.inr (fileRequest_rooted mount _ _))]
      rfl

structure Verbatim (text : String) : Prop where
  noQuery : '?' ∉ text.toList
  noFragment : '#' ∉ text.toList
  noEscape : escapeFree text.toList = true

theorem uncut_eq_self {chars : List Char} (noQuery : '?' ∉ chars) (noFragment : '#' ∉ chars) :
    uncut chars = chars := by
  refine List.takeWhile_eq_self_iff.mpr fun char member => ?_
  have apart : char ≠ '?' ∧ char ≠ '#' := by
    constructor
    · rintro rfl
      exact noQuery member
    · rintro rfl
      exact noFragment member
  simp [apart]

theorem uncut_append {front : List Char} (whole : uncut front = front) (back : List Char) :
    uncut (front ++ back) = front ++ uncut back :=
  List.takeWhile_append_of_pos (List.takeWhile_eq_self_iff.mp whole)

theorem uncut_append_of_cut {front : List Char} (cut : uncut front ≠ front)
    (back : List Char) : uncut (front ++ back) = uncut front := by
  rw [uncut, List.takeWhile_append, if_neg]
  · rfl
  · intro same
    exact cut ((List.takeWhile_prefix _).eq_of_length same)

theorem uncut_verbatim {chars : List Char} (whole : uncut chars = chars) :
    '?' ∉ chars ∧ '#' ∉ chars := by
  have kept := List.takeWhile_eq_self_iff.mp whole
  constructor
  · intro member
    simpa using kept _ member
  · intro member
    simpa using kept _ member

theorem uncut_front (mount : RegistryMount) :
    uncut (mount.path ++ "/builds/".toList) = mount.path ++ "/builds/".toList := by
  cases mount <;> decide +kernel

theorem uncut_request (mount : RegistryMount) (slug path : List Char) :
    uncut (fileRequest mount slug path) =
      if uncut slug = slug then fileRequest mount slug (uncut path)
      else mount.path ++ "/builds/".toList ++ uncut slug := by
  rw [fileRequest, List.append_assoc, List.append_assoc, uncut_append (uncut_front mount)]
  split
  · rename_i whole
    have files : uncut "/files/".toList = "/files/".toList := by decide +kernel
    rw [uncut_append whole, uncut_append files, fileRequest]
    simp only [List.append_assoc]
  · rename_i cut
    rw [uncut_append_of_cut cut]

/-- Only a path that nobody cuts or decodes comes back as it was. -/
theorem decoded_verbatim {path rest : List Char}
    (decoded : percentDecode (uncut path) = some rest)
    (longer : (encoded path).length ≤ (encoded rest).length) :
    uncut path = path ∧ escapeFree path = true ∧ rest = path := by
  have cut : (uncut path).Sublist path := (List.takeWhile_prefix _).sublist
  have kept := encoded_sublist cut
  rcases length_of_percentDecode decoded with shorter | ⟨free, rfl⟩
  · omega
  · have whole : uncut path = path := by
      by_contra different
      obtain ⟨rest, whole⟩ : uncut path <+: path := List.takeWhile_prefix _
      have left : rest ≠ [] := by
        rintro rfl
        exact different (by simpa using whole)
      obtain ⟨first, more, rfl⟩ := List.exists_cons_of_ne_nil left
      have sum : (encoded path).length =
          (encoded (uncut path)).length + (encoded (first :: more)).length := by
        rw [← List.length_append, ← encoded_append, whole]
      have some : 0 < (encoded (first :: more)).length := by
        have here := utf8EncodeChar_pos first
        simp only [encoded, List.flatMap_cons, List.length_append]
        omega
      omega
    rw [whole] at free ⊢
    exact ⟨rfl, free, rfl⟩

/-- A link of the manifest leads to its file exactly when nobody cuts or decodes it. -/
theorem manifest_link_resolves (publicPrefix : RegistryPrefix) {slug raw field path : String}
    (valid : validateSlug slug = .ok ())
    (accepted : normalizeRelativePath raw field = .ok path) :
    resolveFile (requestPath (publicUrl (.ofList publicPrefix.text) slug path).toList) =
        .ok (slug, path) ↔
      Verbatim slug ∧ Verbatim path := by
  obtain ⟨named, -, -, inert, -⟩ := validateSlug_ok valid
  have normalized := normalized_of_ok accepted
  have filled : slug.toList ≠ [] := by simpa using named
  have sent : requestPath (publicUrl (.ofList publicPrefix.text) slug path).toList =
      uncut (fileRequest publicPrefix.mount slug.toList path.toList) := by
    rw [requestPath_publicUrl, unify_eq_self normalized.plain]
  rw [sent, uncut_request]
  split
  case isFalse cut =>
    have shortened : '/' ∉ uncut slug.toList := fun member =>
      inert ((List.takeWhile_prefix _).subset member)
    rw [resolveFile_short publicPrefix.mount shortened]
    constructor
    · rintro ⟨⟩
    · rintro ⟨verbatim, -⟩
      exact (cut (uncut_eq_self verbatim.noQuery verbatim.noFragment)).elim
  case isTrue whole =>
    rw [resolveFile_request publicPrefix.mount filled inert]
    constructor
    · rintro ⟨-, name, rest, decodedSlug, decodedPath, -, again, same⟩
      have longer : (encoded path.toList).length ≤ (encoded rest).length := by
        have kept := encoded_sublist (normalized_sublist again)
        rwa [encoded_unify, String.toList_ofList] at kept
      have pathVerbatim := decoded_verbatim decodedPath longer
      have kept : (encoded slug.toList).length ≤ (encoded name).length := by
        rw [show slug = .ofList name from same, String.toList_ofList]
      rw [← whole] at decodedSlug
      have slugVerbatim := decoded_verbatim decodedSlug kept
      have slugPlain := uncut_verbatim slugVerbatim.1
      have pathPlain := uncut_verbatim pathVerbatim.1
      exact ⟨⟨slugPlain.1, slugPlain.2, slugVerbatim.2.1⟩,
        ⟨pathPlain.1, pathPlain.2, pathVerbatim.2.1⟩⟩
    · rintro ⟨slugVerbatim, pathVerbatim⟩
      have present : path.toList ≠ [] := by
        intro empty
        have nothing : path = "" := by simpa using empty
        subst nothing
        exact (normalized "" (by decide +kernel)).filled rfl
      rw [uncut_eq_self pathVerbatim.noQuery pathVerbatim.noFragment]
      refine ⟨present, slug.toList, path.toList,
        percentDecode_of_escapeFree slugVerbatim.noEscape,
        percentDecode_of_escapeFree pathVerbatim.noEscape, ?_, ?_, ?_⟩
      · rw [String.ofList_toList]
        exact valid
      · rw [String.ofList_toList]
        exact normalized.accepted "path"
      · rw [String.ofList_toList]

theorem manifest_link_resolves_plain :
    resolveFile (requestPath (publicUrl (.ofList (RegistryPrefix.relative .root 1).text)
      "my-build" "mods/a b.jar").toList) = .ok ("my-build", "mods/a b.jar") :=
  (manifest_link_resolves (.relative .root 1) (by decide +kernel)
    (show normalizeRelativePath "mods\\a b.jar" "relativePath" = .ok "mods/a b.jar" by
      decide +kernel)).mpr
    ⟨⟨by decide +kernel, by decide +kernel, by decide +kernel⟩,
      ⟨by decide +kernel, by decide +kernel, by decide +kernel⟩⟩

/-- A file with a number sign in its name is asked for under half of it. -/
theorem manifest_link_cut :
    validateSlug "my-build" = .ok () ∧
      normalizeRelativePath "mods/a#1.jar" "relativePath" = .ok "mods/a#1.jar" ∧
      resolveFile (requestPath
        (publicUrl "/bundle-registry" "my-build" "mods/a#1.jar").toList) =
          .ok ("my-build", "mods/a") := by
  refine ⟨by decide +kernel, by decide +kernel, ?_⟩
  have sent : requestPath (publicUrl "/bundle-registry" "my-build" "mods/a#1.jar").toList =
      fileRequest .root "my-build".toList "mods/a".toList := by decide +kernel
  rw [sent]
  refine (resolveFile_request .root (by decide +kernel) (by decide +kernel)).mpr
    ⟨by decide +kernel, "my-build".toList, "mods/a".toList,
      percentDecode_of_escapeFree (by decide +kernel),
      percentDecode_of_escapeFree (by decide +kernel), ?_, ?_, ?_⟩
  · decide +kernel
  · decide +kernel
  · decide +kernel

end Loontail.Bundles
