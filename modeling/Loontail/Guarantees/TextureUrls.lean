import Loontail.Server.PublicUrl

/-! # Whether signed texture links are served

The links follow the path of the public URL wherever it points; the mount follows
it only below `/api/`, where it has to find a place among the other routes. -/

namespace Loontail.Text

theorem trimEndMatches_append {char : Char} {front : List Char}
    (ends : front.getLast? ≠ some char) (back : List Char) :
    trimEndMatches char (front ++ back) = front ++ trimEndMatches char back := by
  induction back using List.reverseRecOn with
  | nil =>
      rw [trimEndMatches, trimEndMatches, List.rdropWhile_nil, List.append_nil,
        List.rdropWhile_eq_self_iff]
      intro filled
      simpa [List.getLast?_eq_some_getLast filled] using ends
  | append_singleton back last induction =>
      simp only [trimEndMatches] at induction ⊢
      rw [← List.append_assoc, List.rdropWhile_concat, List.rdropWhile_concat, induction]
      split
      · rfl
      · rw [List.append_assoc]

theorem forall_of_all {chars : List Char} {allowed : Char → Prop} [DecidablePred allowed]
    (all : (chars.all fun char => allowed char) = true) : ∀ char ∈ chars, allowed char :=
  fun char member => of_decide_eq_true (List.all_eq_true.mp all char member)

theorem splitOnce_eq_some {separator : Char} {chars before after : List Char} :
    splitOnce separator chars = some (before, after) ↔
      separator ∉ before ∧ chars = before ++ separator :: after := by
  induction chars generalizing before with
  | nil => simp [splitOnce]
  | cons char rest induction =>
      rw [splitOnce]
      split
      · rename_i same
        subst same
        constructor
        · intro equal
          cases equal
          exact ⟨by simp, rfl⟩
        · rintro ⟨absent, equal⟩
          cases before with
          | nil => cases equal; rfl
          | cons first more =>
              cases equal
              exact absurd (.head _) absent
      · rename_i different
        constructor
        · intro mapped
          rcases Option.map_eq_some_iff.mp mapped with ⟨⟨early, late⟩, split, equal⟩
          cases equal
          rcases induction.mp split with ⟨absent, rfl⟩
          refine ⟨?_, rfl⟩
          rw [List.mem_cons, not_or]
          exact ⟨fun same => different same.symm, absent⟩
        · rintro ⟨absent, equal⟩
          cases before with
          | nil => cases equal; exact absurd rfl different
          | cons first more =>
              cases equal
              rw [induction.mpr ⟨fun member => absent (.tail _ member), rfl⟩]
              rfl

theorem last_unique {char : Char} {left right leftTail rightTail : List Char}
    (leftPlain : char ∉ leftTail) (rightPlain : char ∉ rightTail)
    (equal : left ++ char :: leftTail = right ++ char :: rightTail) :
    left = right ∧ leftTail = rightTail := by
  rcases List.append_eq_append_iff.mp equal with ⟨more, split, rest⟩ | ⟨more, split, rest⟩
  · cases more with
    | nil =>
        rw [List.nil_append, List.cons.injEq] at rest
        exact ⟨by simpa using split.symm, rest.2⟩
    | cons first more =>
        cases rest
        exact absurd (by simp) leftPlain
  · cases more with
    | nil =>
        rw [List.nil_append, List.cons.injEq] at rest
        exact ⟨by simpa using split, rest.2.symm⟩
    | cons first more =>
        cases rest
        exact absurd (by simp) rightPlain

end Loontail.Text

namespace Loontail.Server

open Text

/-- `http(s)://authority` followed by a path. -/
structure HttpUrl where
  secure : Bool
  authority : List Char
  path : List Char
  named : authority ≠ []
  rooted : path = [] ∨ path.head? = some '/'
  authorityPlain : ∀ char ∈ authority, char ≠ '/' ∧ char ≠ '?' ∧ char ≠ '#'
  pathPlain : ∀ char ∈ path, char ≠ '?' ∧ char ≠ '#'

namespace HttpUrl

def scheme (url : HttpUrl) : List Char :=
  if url.secure then "https".toList else "http".toList

def origin (url : HttpUrl) : List Char := url.scheme ++ "://".toList ++ url.authority

def text (url : HttpUrl) : List Char := url.origin ++ url.path

def trimmed (url : HttpUrl) : List Char := trimEndMatches '/' url.path

end HttpUrl

structure Segment where
  chars : List Char
  filled : chars ≠ []
  plain : ∀ char ∈ chars, char ≠ '/' ∧ char ≠ '?' ∧ char ≠ '#'

def urlPath (url : List Char) : List Char :=
  (parsePublicUrl url).2.takeWhile fun char => char ≠ '?' && char ≠ '#'

namespace HttpUrl

theorem parse_origin (url : HttpUrl) {path : List Char}
    (rooted : path = [] ∨ path.head? = some '/') :
    (parsePublicUrl (url.origin ++ path)).2 = path := by
  have around : splitAround "://".toList (url.origin ++ path) =
      some (url.scheme, url.authority ++ path) := by
    rw [origin, scheme]
    cases url.secure <;> rfl
  have slash : ∀ char ∈ url.authority, (decide (char ≠ '/')) = true := fun char member =>
    decide_eq_true (url.authorityPlain char member).1
  have stops : path.takeWhile (· ≠ '/') = [] ∧ path.dropWhile (· ≠ '/') = path := by
    rcases rooted with rfl | head
    · exact ⟨rfl, rfl⟩
    · cases path with
      | nil => cases head
      | cons char rest =>
          cases head
          exact ⟨rfl, rfl⟩
  rw [parsePublicUrl, around]
  simp only [List.takeWhile_append_of_pos slash, List.dropWhile_append_of_pos slash, stops.1,
    stops.2, List.append_nil, if_neg url.named]

theorem trimmed_rooted (url : HttpUrl) :
    url.trimmed = [] ∨ url.trimmed.head? = some '/' := by
  have shorter : url.trimmed <+: url.path := List.rdropWhile_prefix _ _
  rcases shorter with ⟨slashes, split⟩
  cases shape : url.trimmed with
  | nil => exact .inl rfl
  | cons char rest =>
      rw [shape] at split
      rcases url.rooted with empty | head
      · rw [empty] at split
        cases split
      · rw [← split] at head
        exact .inr head

theorem origin_ends (url : HttpUrl) : url.origin.getLast? ≠ some '/' := by
  intro ends
  rw [origin, List.getLast?_append_of_ne_nil _ url.named] at ends
  exact (url.authorityPlain '/' (List.mem_of_getLast? ends)).1 rfl

theorem texturePublicUrl_text (url : HttpUrl) (profileUuid kind : List Char) :
    texturePublicUrl url.text profileUuid kind =
      url.origin ++ (url.trimmed ++ textureUrl profileUuid kind) := by
  have relative : isAbsolute (textureUrl profileUuid kind) = false := rfl
  have rooted : (textureUrl profileUuid kind).head? = some '/' := rfl
  rw [texturePublicUrl, absolutize, relative, if_neg Bool.false_ne_true]
  simp only [rooted, if_true]
  rw [text, trimEndMatches_append url.origin_ends, List.append_assoc, trimmed]

theorem suffix_text (url : HttpUrl) :
    yggdrasilApiSuffix url.text =
      match stripLeading "/api" url.trimmed with
      | some suffix => if suffix ≠ [] then suffix else "/yggdrasil".toList
      | none => "/yggdrasil".toList := by
  rewrite [yggdrasilApiSuffix, text, url.parse_origin url.rooted, trimmed]
  rfl

theorem urlPath_link (url : HttpUrl) (profile kind : Segment) :
    urlPath (texturePublicUrl url.text profile.chars kind.chars) =
      url.trimmed ++ textureUrl profile.chars kind.chars := by
  have rooted : url.trimmed ++ textureUrl profile.chars kind.chars = [] ∨
      (url.trimmed ++ textureUrl profile.chars kind.chars).head? = some '/' := by
    right
    rcases url.trimmed_rooted with empty | head
    · rw [empty]
      rfl
    · rw [List.head?_append, head]
      rfl
  rw [urlPath, texturePublicUrl_text, url.parse_origin rooted,
    List.takeWhile_eq_self_iff]
  intro char member
  have plain : char ≠ '?' ∧ char ≠ '#' := by
    have all : ∀ one ∈ "/textures/".toList, one ≠ '?' ∧ one ≠ '#' :=
      forall_of_all (by decide +kernel)
    rcases List.mem_append.mp member with inPath | inLink
    · exact url.pathPlain char ((List.rdropWhile_prefix _ _).subset inPath)
    · rcases List.mem_append.mp inLink with inFront | inBack
      · rcases List.mem_append.mp inFront with inRoute | inProfile
        · exact all char inRoute
        · exact (profile.plain char inProfile).2
      · rcases List.mem_cons.mp inBack with rfl | inKind
        · decide
        · exact (kind.plain char inKind).2
  simp [plain]

end HttpUrl

theorem captures_iff {mount path : List Char} :
    captures mount path = true ↔ ∃ segment kind : List Char,
      segment ≠ [] ∧ '/' ∉ segment ∧ kind ≠ [] ∧ '/' ∉ kind ∧
        path = mount ++ '/' :: (segment ++ '/' :: kind) := by
  rw [captures, Bool.and_eq_true, List.isPrefixOf_iff_prefix]
  constructor
  · rintro ⟨⟨below, rfl⟩, captured⟩
    rw [List.drop_left] at captured
    split at captured
    · rename_i rest
      split at captured
      · rename_i segment kind split
        rcases splitOnce_eq_some.mp split with ⟨plain, rfl⟩
        simp only [Bool.and_eq_true, decide_eq_true_eq, Bool.not_eq_true',
          List.contains_eq_mem, decide_eq_false_iff_not] at captured
        exact ⟨segment, kind, captured.1.1, plain, captured.1.2, captured.2, rfl⟩
      · cases captured
    · cases captured
  · rintro ⟨segment, kind, filled, plain, kindFilled, kindPlain, rfl⟩
    refine ⟨List.prefix_append _ _, ?_⟩
    rw [List.drop_left]
    simp only [splitOnce_eq_some.mpr ⟨plain, rfl⟩]
    simp [filled, kindFilled, kindPlain]

theorem regroup (base route segment kind : List Char) :
    base ++ (route ++ ['/'] ++ segment ++ '/' :: kind) =
      ((base ++ route) ++ '/' :: segment) ++ '/' :: kind := by
  simp

/-- A texture path is captured under the mount it hangs from, and under no other. -/
theorem captures_link {base front : List Char} {profile kind : Segment} :
    captures (front ++ "/textures".toList)
        (base ++ textureUrl profile.chars kind.chars) = true ↔ base = front := by
  have profilePlain : '/' ∉ profile.chars := fun slash => (profile.plain '/' slash).1 rfl
  have kindPlain : '/' ∉ kind.chars := fun slash => (kind.plain '/' slash).1 rfl
  have shape : base ++ textureUrl profile.chars kind.chars =
      ((base ++ "/textures".toList) ++ '/' :: profile.chars) ++ '/' :: kind.chars := by
    have slash : "/textures/".toList = "/textures".toList ++ ['/'] := by decide +kernel
    have spelled := congrArg
      (fun route => base ++ (route ++ profile.chars ++ '/' :: kind.chars)) slash
    exact spelled.trans (regroup base _ profile.chars kind.chars)
  rw [captures_iff, shape]
  constructor
  · rintro ⟨segment, last, -, segmentPlain, -, lastPlain, equal⟩
    rw [← List.cons_append, ← List.append_assoc] at equal
    have routes := (last_unique kindPlain lastPlain equal).1
    exact List.append_cancel_right (last_unique profilePlain segmentPlain routes).1
  · rintro rfl
    refine ⟨profile.chars, kind.chars, profile.filled, profilePlain, kind.filled, kindPlain, ?_⟩
    rw [List.append_assoc, List.cons_append]

/-! ## A place in the subtree -/

namespace Api

def inner : List Route := yggdrasilRoutes ++ nested "/textures".toList textureRoutes

def others : List Route :=
  catalogRoutes ++ nested "/auth".toList accountRoutes ++
    nested "/bundle-registry".toList bundleRoutes

def getPaths : List (List Char) := (others.filter (·.verb = .get)).map (·.path)

def paths (suffix : List Char) : List (List Char) :=
  (catalogRoutes ++ nested "/auth".toList accountRoutes ++ nested suffix inner ++
    nested "/bundle-registry".toList bundleRoutes).map (·.path)

/-- Only the root of the Yggdrasil router can meet another route, and answers a GET. -/
theorem clashes_iff (suffix : List Char) :
    (∃ route ∈ others, route ∈ nested suffix inner) ↔ suffix ∈ getPaths := by
  have root : ∀ route ∈ inner, route.path = ['/'] → route.verb = .get := by decide +kernel
  have apart : ∀ route ∈ inner, route.path ≠ ['/'] →
      ∀ other ∈ others, ¬route.path <:+ other.path := by decide +kernel
  constructor
  · rintro ⟨route, among, nests⟩
    obtain ⟨own, member, rfl⟩ := List.mem_map.mp nests
    by_cases isRoot : own.path = ['/']
    · rw [if_pos isRoot] at among
      have answers : (Route.mk own.verb suffix).verb = .get := root own member isRoot
      exact List.mem_map.mpr ⟨_, List.mem_filter.mpr ⟨among, decide_eq_true answers⟩, rfl⟩
    · rw [if_neg isRoot] at among
      exact (apart own member isRoot _ among (List.suffix_append _ _)).elim
  · intro taken
    obtain ⟨route, kept, rfl⟩ := List.mem_map.mp taken
    obtain ⟨among, answers⟩ := List.mem_filter.mp kept
    have here : (⟨.get, "/".toList⟩ : Route) ∈ inner := by decide +kernel
    refine ⟨route, among, List.mem_map.mpr ⟨_, here, ?_⟩⟩
    have verb : route.verb = .get := of_decide_eq_true answers
    cases route
    cases verb
    rfl

theorem nest_eq_some {mount : List Char} {routes table made : List Route} :
    nest mount routes table = some made ↔
      (nestable mount = true ∧ ∀ route ∈ table, route ∉ nested mount routes) ∧
        made = table ++ nested mount routes := by
  rw [nest]
  split
  · rename_i fits
    rw [Bool.and_eq_true, List.all_eq_true] at fits
    rw [Option.some.injEq, eq_comm]
    refine (and_iff_right ⟨fits.1, fun route member nests => ?_⟩).symm
    exact absurd (fits.2 route member) (by simpa using nests)
  · rename_i unfit
    refine iff_of_false (fun made => nomatch made) fun fits => unfit ?_
    rw [Bool.and_eq_true, List.all_eq_true]
    exact ⟨fits.1.1, fun route member => by simpa using fits.1.2 route member⟩

theorem router_eq_some {tree : List (List Char) → Bool} {suffix : List Char}
    {api : List Route} : router tree suffix = some api ↔
      ∃ table, nest suffix inner (catalogRoutes ++ nested "/auth".toList accountRoutes) =
        some table ∧ nest "/bundle-registry".toList bundleRoutes table = some api ∧
          tree (api.map (·.path)) = true := by
  have account : nest "/auth".toList accountRoutes catalogRoutes =
      some (catalogRoutes ++ nested "/auth".toList accountRoutes) := by decide +kernel
  have textures : nest "/textures".toList textureRoutes yggdrasilRoutes = some inner := by
    decide +kernel
  simp only [router, account, textures, Option.bind_eq_bind, Option.bind_some,
    Option.bind_eq_some_iff]
  refine exists_congr fun table => and_congr_right fun _ => ?_
  constructor
  · rintro ⟨made, nests, checked⟩
    split at checked
    · rename_i agrees
      cases checked
      exact ⟨nests, agrees⟩
    · cases checked
  · rintro ⟨nests, agrees⟩
    exact ⟨api, nests, if_pos agrees⟩

/-- The router is made when the nest has a path of its own that a nest may have, and the
captures in the paths agree. -/
theorem router_isSome (tree : List (List Char) → Bool) (suffix : List Char) :
    (router tree suffix).isSome = true ↔
      nestable suffix = true ∧ suffix ∉ getPaths ∧ tree (paths suffix) = true := by
  have place : nestable "/bundle-registry".toList = true := by decide +kernel
  have still : ∀ route ∈ catalogRoutes ++ nested "/auth".toList accountRoutes,
      route ∉ nested "/bundle-registry".toList bundleRoutes := by decide +kernel
  rw [Option.isSome_iff_exists, ← clashes_iff]
  simp only [router_eq_some, nest_eq_some]
  constructor
  · rintro ⟨api, table, ⟨⟨rooted, free⟩, rfl⟩, ⟨⟨-, bundles⟩, rfl⟩, agrees⟩
    refine ⟨rooted, ?_, agrees⟩
    rintro ⟨route, among, nests⟩
    rcases List.mem_append.mp among with before | bundle
    · exact free route before nests
    · exact bundles route (List.mem_append_right _ nests) bundle
  · rintro ⟨rooted, free, agrees⟩
    refine ⟨_, _, ⟨⟨rooted, fun route before nests => ?_⟩, rfl⟩,
      ⟨⟨place, fun route member bundle => ?_⟩, rfl⟩, agrees⟩
    · exact free ⟨route, List.mem_append_left _ before, nests⟩
    · rcases List.mem_append.mp member with before | nests
      · exact still route before bundle
      · exact free ⟨route, List.mem_append_right _ bundle, nests⟩

end Api

/-- The Yggdrasil router finds a place at the path. What braces make of a path is left to the
router. -/
structure Mountable (tree : List (List Char) → Bool) (suffix : List Char) : Prop where
  rooted : suffix.head? = some '/'
  segments : ∀ segment ∈ split '/' suffix,
    segment.head? ≠ some ':' ∧ segment.head? ≠ some '*'
  free : suffix ∉ Api.getPaths
  agrees : (∀ char ∈ suffix, char ≠ '{' ∧ char ≠ '}') ∨ tree (Api.paths suffix) = true

/-- Fixed segments stand beside captures, and do not disturb them. -/
def TakesFixed (tree : List (List Char) → Bool) : Prop :=
  ∀ suffix : List Char, (∀ char ∈ suffix, char ≠ '{' ∧ char ≠ '}') →
    tree (Api.paths suffix) = true

section Mounts

variable {tree : List (List Char) → Bool}

theorem mountable_iff (takes : TakesFixed tree) {suffix : List Char} (below : suffix ≠ ['/']) :
    Mountable tree suffix ↔ (Api.router tree suffix).isSome = true := by
  rw [Api.router_isSome]
  simp only [Api.nestable, Bool.and_eq_true, decide_eq_true_eq, List.all_eq_true]
  constructor
  · rintro ⟨rooted, segments, free, agrees⟩
    exact ⟨⟨⟨rooted, below⟩, segments⟩, free, agrees.elim (takes suffix) id⟩
  · rintro ⟨⟨⟨rooted, -⟩, segments⟩, free, agrees⟩
    exact ⟨rooted, segments, free, .inr agrees⟩

theorem mountable_yggdrasil : Mountable tree "/yggdrasil".toList where
  rooted := rfl
  segments := by decide +kernel
  free := by decide +kernel
  agrees := .inl (forall_of_all (by decide +kernel))

/-- A texture link is served when the router is made and the path of the link hangs from the
root or from the mount. -/
theorem servesTexture_link (url : HttpUrl) (profile kind : Segment) :
    servesTexture tree url.text
        (urlPath (texturePublicUrl url.text profile.chars kind.chars)) = true ↔
      (Api.router tree (yggdrasilApiSuffix url.text)).isSome = true ∧
        (url.trimmed = [] ∨ url.trimmed = "/api".toList ++ yggdrasilApiSuffix url.text) := by
  have root : "/textures".toList = [] ++ "/textures".toList := rfl
  rw [servesTexture, textureMounts, url.urlPath_link]
  cases made : Api.router tree (yggdrasilApiSuffix url.text) with
  | none => simp
  | some api =>
      simp only [Option.map_some, Option.any_some, Option.isSome_some, true_and]
      rw [List.any_cons, List.any_cons, List.any_nil, Bool.or_false, Bool.or_eq_true,
        captures_link, yggdrasilMountPrefix]
      conv_lhs => lhs; rw [root]
      rw [captures_link]

/-- The mount follows the public URL below `/api/`, where it finds a place. -/
theorem mounted_iff (takes : TakesFixed tree) (url : HttpUrl) :
    ((Api.router tree (yggdrasilApiSuffix url.text)).isSome = true ∧
        (url.trimmed = [] ∨ url.trimmed = "/api".toList ++ yggdrasilApiSuffix url.text)) ∧
        (yggdrasilApiSuffix url.text).head? = some '/' ↔
      url.trimmed = [] ∨
        ∃ suffix, url.trimmed = "/api".toList ++ suffix ∧ Mountable tree suffix := by
  have ends : ∀ suffix, url.trimmed = "/api".toList ++ suffix → suffix ≠ ['/'] := by
    rintro suffix below rfl
    have last := List.rdropWhile_last_not (fun char => decide (char = '/')) url.path
      (by rw [show url.path.rdropWhile _ = _ from below]; simp)
    simp only [show url.path.rdropWhile _ = _ from below] at last
    exact last rfl
  constructor
  · rintro ⟨⟨made, empty | below⟩, -⟩
    · exact .inl empty
    · exact .inr ⟨_, below, (mountable_iff takes (ends _ below)).mpr made⟩
  · rintro (empty | ⟨suffix, below, place⟩)
    · have fallback : yggdrasilApiSuffix url.text = "/yggdrasil".toList := by
        rw [url.suffix_text, empty]
        rfl
      rw [fallback]
      exact ⟨⟨(mountable_iff takes (by decide +kernel)).mp mountable_yggdrasil,
        .inl empty⟩, rfl⟩
    · have same : yggdrasilApiSuffix url.text = suffix := by
        rw [url.suffix_text, below]
        have filled : suffix ≠ [] := by
          rintro rfl
          cases place.rooted
        exact if_pos filled
      rw [same]
      exact ⟨⟨(mountable_iff takes (ends _ below)).mp place, .inr below⟩, place.rooted⟩

end Mounts

def Segment.skin : Segment where
  chars := "skin".toList
  filled := by decide
  plain := forall_of_all (by decide +kernel)

def Segment.cape : Segment where
  chars := "cape".toList
  filled := by decide
  plain := forall_of_all (by decide +kernel)

theorem urls_of_profileTextures {base profileUuid : List Char} {rows : List TextureRow}
    {payload : TexturesPayload}
    (signed : profileTextures base profileUuid rows = some payload) :
    payload.urls ≠ [] ∧ ∀ link ∈ payload.urls, ∃ kind : Segment,
      link = texturePublicUrl base profileUuid kind.chars := by
  rw [profileTextures] at signed
  split at signed
  · rename_i some
    cases signed
    cases variant : (loadTextures rows).skinVariant with
    | none =>
        have cape : (loadTextures rows).hasCape = true := by simpa [variant] using some
        rw [cape]
        refine ⟨List.cons_ne_nil _ _, ?_⟩
        intro link member
        exact ⟨.cape, List.mem_singleton.mp member⟩
    | some raw =>
        refine ⟨List.cons_ne_nil _ _, ?_⟩
        intro link member
        rcases List.mem_cons.mp member with isSkin | rest
        · exact ⟨.skin, isSkin⟩
        · cases cape : (loadTextures rows).hasCape with
          | false =>
              rw [cape] at rest
              cases rest
          | true =>
              rw [cape] at rest
              exact ⟨.cape, List.mem_singleton.mp rest⟩
  · cases signed

/-- Every texture link of a profile is served, under a suffix that is rooted, exactly when the
path of the public URL is the root, or lies below `/api` at a place of its own. -/
theorem textures_served_iff (tree : List (List Char) → Bool) (takes : TakesFixed tree)
    (url : HttpUrl) (profile : Segment) (rows : List TextureRow)
    (payload : TexturesPayload)
    (signed : profileTextures url.text profile.chars rows = some payload) :
    (∀ link ∈ payload.urls, servesTexture tree url.text (urlPath link) = true) ∧
        (yggdrasilApiSuffix url.text).head? = some '/' ↔
      url.trimmed = [] ∨
        ∃ suffix, url.trimmed = "/api".toList ++ suffix ∧ Mountable tree suffix := by
  rcases urls_of_profileTextures signed with ⟨filled, links⟩
  rw [← mounted_iff takes]
  apply and_congr_left
  intro _
  constructor
  · intro served
    rcases List.exists_mem_of_ne_nil _ filled with ⟨link, member⟩
    rcases links link member with ⟨kind, rfl⟩
    exact (servesTexture_link url profile kind).mp (served _ member)
  · intro hangs link member
    rcases links link member with ⟨kind, rfl⟩
    exact (servesTexture_link url profile kind).mpr hangs

/-- `https://auth.loontail.dev/api/yggdrasil/`. -/
def deployed : HttpUrl where
  secure := true
  authority := "auth.loontail.dev".toList
  path := "/api/yggdrasil/".toList
  named := by decide
  rooted := .inr (by decide +kernel)
  authorityPlain := forall_of_all (by decide +kernel)
  pathPlain := forall_of_all (by decide +kernel)

def steveProfile : Segment where
  chars := "11111111222233334444555555555555".toList
  filled := by decide
  plain := forall_of_all (by decide +kernel)

/-- The route tree, where no path of the public URL brings captures of its own. -/
def fixedTree (_ : List (List Char)) : Bool := true

theorem textures_served_iff_deployed :
    servesTexture fixedTree deployed.text (urlPath (texturePublicUrl deployed.text
      steveProfile.chars "skin".toList)) = true := by
  have served := ((textures_served_iff fixedTree (fun _ _ => rfl) deployed steveProfile
    [⟨"skin", some "SLIM"⟩]
    ⟨some ⟨texturePublicUrl deployed.text steveProfile.chars "skin".toList, .slim⟩, none⟩
    (by decide +kernel)).mpr (.inr ⟨"/yggdrasil".toList, by decide +kernel,
      mountable_yggdrasil⟩)).1
  exact served _ (List.mem_singleton_self _)

/-- The same origin with the router under another path, one with a longer word
that starts with `api`, and one that the catalog has. -/
def elsewhere : HttpUrl :=
  { deployed with
    path := "/minecraft".toList
    rooted := .inr (by decide +kernel)
    pathPlain := forall_of_all (by decide +kernel) }

def longer : HttpUrl :=
  { deployed with
    path := "/apiary/yggdrasil".toList
    rooted := .inr (by decide +kernel)
    pathPlain := forall_of_all (by decide +kernel) }

def taken : HttpUrl :=
  { deployed with
    path := "/api/clients".toList
    rooted := .inr (by decide +kernel)
    pathPlain := forall_of_all (by decide +kernel) }

theorem textures_not_served :
    (profileTextures elsewhere.text steveProfile.chars [⟨"skin", some "SLIM"⟩]).map
        (·.urls.map fun link => servesTexture fixedTree elsewhere.text (urlPath link)) =
      some [false] ∧
    yggdrasilApiSuffix longer.text = "ary/yggdrasil".toList ∧
    Api.router fixedTree (yggdrasilApiSuffix longer.text) = none ∧
    Api.router fixedTree (yggdrasilApiSuffix taken.text) = none := by
  decide +kernel

end Loontail.Server
