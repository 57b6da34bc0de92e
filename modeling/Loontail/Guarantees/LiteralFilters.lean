import Loontail.Observability.RequestLog
import Loontail.Textures.Schema

/-! # What a filter selects

A text is put into a pattern as it is. It stands for itself exactly if no character of it has a
meaning in patterns. -/

namespace Loontail

open Textures Observability

namespace Text

/-- A text that a pattern with any ending matches, for each character with a meaning one that it
can stand for. Behind the last backslash comes the sign for any ending. -/
def reading : List Char → List Char
  | [] => []
  | '%' :: rest => reading rest
  | '_' :: rest => 'a' :: reading rest
  | ['\\'] => ['%']
  | '\\' :: char :: rest => char :: reading rest
  | char :: rest => char :: reading rest

example : reading "a_c%".toList = "aac".toList ∧ reading "a\\_".toList = "a_".toList := by
  decide +kernel

theorem length_reading_le (needle : List Char) : (reading needle).length ≤ needle.length := by
  fun_induction reading needle with
  | case1 => exact Nat.le_refl 0
  | case2 rest induction => exact Nat.le_succ_of_le induction
  | case3 rest induction => exact Nat.succ_le_succ induction
  | case4 => exact Nat.le_refl 1
  | case5 char rest induction => exact Nat.succ_le_succ (Nat.le_succ_of_le induction)
  | case6 char rest _ _ _ _ induction => exact Nat.succ_le_succ induction

theorem not_isWildcard {char : Char} {rest : List Char} (percent : char ≠ '%')
    (underscore : char ≠ '_') (last : char = '\\' → rest = [] → False)
    (escape : ∀ next more, char = '\\' → rest = next :: more → False) :
    isWildcard char = false := by
  have backslash : char ≠ '\\' := by
    intro same
    cases rest with
    | nil => exact last same rfl
    | cons next more => exact escape next more same rfl
  simp only [isWildcard, Bool.or_eq_false_iff, decide_eq_false_iff_not]
  exact ⟨⟨backslash, percent⟩, underscore⟩

def Plain (needle : List Char) : Prop := ∀ char ∈ needle, isWildcard char = false

theorem Plain.escapeLikePattern {needle : List Char} (plain : Plain needle) :
    escapeLikePattern needle = needle := by
  induction needle with
  | nil => rfl
  | cons char rest induction =>
      obtain ⟨first, rest⟩ := List.forall_mem_cons.mp plain
      simp only [Text.escapeLikePattern, List.flatMap_cons, first, Bool.false_eq_true, if_false]
      exact congrArg (char :: ·) (induction rest)

section Fold

variable {lower : Char → Char}
  (kept : ∀ wild, isWildcard wild = true → ∀ char, lower char = wild ↔ char = wild)
include kept

theorem isWildcard_lower (char : Char) : isWildcard (lower char) = isWildcard char := by
  have same : ∀ wild, isWildcard wild = true →
      decide (lower char = wild) = decide (char = wild) := fun wild known =>
    decide_eq_decide.mpr (kept wild known char)
  simp only [isWildcard, same '\\' rfl, same '%' rfl, same '_' rfl]

theorem Plain.map_lower {needle : List Char} (plain : Plain needle) :
    Plain (needle.map lower) := by
  intro char member
  obtain ⟨first, among, rfl⟩ := List.mem_map.mp member
  rw [isWildcard_lower kept]
  exact plain first among

theorem like_reading (needle : List Char) :
    like (needle.map lower ++ ['%']) ((reading needle).map lower) = true := by
  have fixed : ∀ wild, isWildcard wild = true → lower wild = wild := fun wild known =>
    (kept wild known wild).mpr rfl
  fun_induction reading needle with
  | case1 => exact like_any []
  | case2 rest induction =>
      rw [List.map_cons, fixed '%' rfl, List.cons_append, like, List.any_eq_true]
      exact ⟨_, (List.mem_tails _ _).mpr List.suffix_rfl, induction⟩
  | case3 rest induction =>
      rw [List.map_cons, fixed '_' rfl, List.cons_append, List.map_cons, like]
      exact induction
  | case4 =>
      rw [List.map_cons, fixed '\\' rfl, List.map_nil, List.map_cons, fixed '%' rfl, List.map_nil]
      decide
  | case5 char rest induction =>
      rw [List.map_cons, fixed '\\' rfl, List.map_cons, List.map_cons, List.cons_append,
        List.cons_append, like_escaped]
      simp only [decide_true, Bool.true_and, induction]
  | case6 char rest percent underscore last escape induction =>
      have literal := not_isWildcard percent underscore last escape
      rw [List.map_cons, List.cons_append, List.map_cons,
        like_literal ((isWildcard_lower kept char).trans literal)]
      simp only [decide_true, Bool.true_and, induction]

theorem plain_of_reading {needle : List Char}
    (same : needle.map lower = (reading needle).map lower) : Plain needle := by
  have fixed : ∀ wild, isWildcard wild = true → lower wild = wild := fun wild known =>
    (kept wild known wild).mpr rfl
  fun_induction reading needle with
  | case1 => exact nofun
  | case2 rest induction =>
      have length := congrArg List.length same
      have bound := length_reading_le rest
      rw [List.length_map, List.length_map, List.length_cons] at length
      omega
  | case3 rest induction =>
      rw [List.map_cons, List.map_cons, fixed '_' rfl] at same
      have first := (kept '_' rfl 'a').mp (List.cons.inj same).1.symm
      exact absurd first (by decide)
  | case4 =>
      rw [List.map_cons, List.map_cons, fixed '\\' rfl] at same
      have first := (kept '\\' rfl '%').mp (List.cons.inj same).1.symm
      exact absurd first (by decide)
  | case5 char rest induction =>
      have length := congrArg List.length same
      have bound := length_reading_le rest
      rw [List.length_map, List.length_map, List.length_cons, List.length_cons,
        List.length_cons] at length
      omega
  | case6 char rest percent underscore last escape induction =>
      rw [List.map_cons, List.map_cons] at same
      exact List.forall_mem_cons.mpr
        ⟨not_isWildcard percent underscore last escape, induction (List.cons.inj same).2⟩

theorem plain_of_within {needle : List Char}
    (within : needle.map lower <:+: (reading needle).map lower) : Plain needle := by
  refine plain_of_reading kept (within.eq_of_length (Nat.le_antisymm within.length_le ?_))
  rw [List.length_map, List.length_map]
  exact length_reading_le needle

end Fold

end Text

open Text

/-! ## The texture list -/

namespace Textures

def Texture.contains (folding : CaseFolding) (search : String) (row : Texture) : Bool :=
  decide (folding.fold search <:+: folding.fold row.username ∨
    folding.fold search <:+: folding.fold row.profileUuid)

def LiteralSearch (folding : CaseFolding) (search : String) : Prop :=
  ∀ (kind : TextureKind) (contents : Contents Texture.key),
    let found := contents.rows.filter fun row => row.kind = kind && row.contains folding search
    selectedTextures folding kind search contents.rows = found ∧
      adminCount folding kind search contents.rows = .ofNat found.length

variable {folding : CaseFolding} {search : String}

theorem fold_pattern : folding.fold ("%" ++ search ++ "%") =
    '%' :: (folding.fold search ++ ['%']) := by
  have fixed := (folding.lower_eq_iff '%' rfl '%').mpr rfl
  simp [CaseFolding.fold, fixed]

theorem ilike_contains (plain : Plain search.toList) (text : String) :
    folding.ilike text ("%" ++ search ++ "%") = true ↔
      folding.fold search <:+: folding.fold text := by
  have folded : Plain (folding.fold search) := plain.map_lower folding.lower_eq_iff
  have pattern := like_contains (folding.fold search) (folding.fold text)
  rw [folded.escapeLikePattern] at pattern
  rw [CaseFolding.ilike, fold_pattern, pattern]

theorem selected_eq_contains (plain : Plain search.toList) (kind : TextureKind) (row : Texture) :
    row.selected folding kind search = (row.kind = kind && row.contains folding search) := by
  have empty : search = "" → folding.fold search <:+: folding.fold row.username := by
    rintro rfl
    exact List.nil_infix
  rw [Texture.selected]
  congr 1
  rw [Bool.eq_iff_iff, Texture.contains]
  simp only [Bool.or_eq_true, decide_eq_true_eq, ilike_contains plain]
  constructor
  · rintro ((nothing | username) | profile)
    · exact .inl (empty nothing)
    · exact .inl username
    · exact .inr profile
  · rintro (username | profile)
    · exact .inl (.inr username)
    · exact .inr profile

def noProfile : String := "00000000000000000000000000000000"

/-- A row whose username is a reading of the search. -/
def misread (search : String) : Texture where
  userId := 0
  kind := .skin
  profileUuid := noProfile
  username := .ofList (reading search.toList)
  filePath := []
  fileUrl := ""
  fileSize := 0
  variant := some .classic
  updatedAt := 0

theorem selected_misread : (misread search).selected folding .skin search = true := by
  have matched : folding.ilike (misread search).username ("%" ++ search ++ "%") = true := by
    rw [CaseFolding.ilike, fold_pattern, like, List.any_eq_true]
    refine ⟨_, (List.mem_tails _ _).mpr List.suffix_rfl, ?_⟩
    rw [misread, CaseFolding.fold, CaseFolding.fold, String.toList_ofList]
    exact like_reading folding.lower_eq_iff search.toList
  rw [Texture.selected, matched, Bool.or_true, Bool.true_or]
  rfl

theorem plain_of_contains_misread (found : (misread search).contains folding search = true) :
    Plain search.toList := by
  rw [Texture.contains, decide_eq_true_eq] at found
  rcases found with username | profile
  · rw [misread, CaseFolding.fold, CaseFolding.fold, String.toList_ofList] at username
    exact plain_of_within folding.lower_eq_iff username
  · have plain : (noProfile.toList.all fun char => !isWildcard char) = true := by decide +kernel
    intro char member
    rw [Bool.eq_false_iff]
    intro wild
    have fixed := (folding.lower_eq_iff char wild char).mpr rfl
    have among := profile.subset (List.mem_map.mpr ⟨char, member, fixed⟩)
    obtain ⟨first, digit, same⟩ := List.mem_map.mp among
    rw [(folding.lower_eq_iff char wild first).mp same] at digit
    have tame := List.all_eq_true.mp plain char digit
    rw [wild] at tame
    cases tame

theorem literalSearch_iff : LiteralSearch folding search ↔ Plain search.toList := by
  constructor
  · intro literal
    have same := (literal .skin
      ⟨[misread search], List.nodup_singleton _, (by decide : 1 < 2 ^ 41)⟩).1
    have member : misread search ∈ [misread search].filter fun row =>
        row.kind = .skin && row.contains folding search := by
      rw [← same]
      exact List.mem_filter.mpr ⟨List.mem_singleton.mpr rfl, selected_misread⟩
    have found := (List.mem_filter.mp member).2
    rw [Bool.and_eq_true] at found
    exact plain_of_contains_misread found.2
  · intro plain kind contents
    have same : selectedTextures folding kind search contents.rows =
        contents.rows.filter fun row => row.kind = kind && row.contains folding search :=
      List.filter_congr fun row _ => selected_eq_contains plain kind row
    exact ⟨same, congrArg (fun found : List Texture => Int64.ofNat found.length) same⟩

end Textures

/-! ## The request list -/

namespace Observability

def LiteralPath (path : String) : Prop :=
  ∀ (query : RequestLogQuery) (contents : Contents StoredRequest.id),
    { query with path := some path }.selected contents.rows = contents.rows.filter fun row =>
      { query with path := none }.filter row && path.toList.isPrefixOf row.path.toList

theorem pathLike_startsWith {path : String} (plain : Plain path.toList) (row : StoredRequest) :
    pathLike path row = path.toList.isPrefixOf row.path.toList := by
  have pattern := like_startsWith path.toList row.path.toList
  rw [plain.escapeLikePattern] at pattern
  rw [pathLike, String.toList_append]
  exact pattern

def misread (path : String) : StoredRequest where
  ts := 0
  method := "GET"
  path := .ofList (reading path.toList)
  status := 200
  latencyMs := 0
  userId := none
  authKind := "anon"
  ip := none
  userAgent := none
  bytesOut := none
  id := 0

theorem pathLike_misread (path : String) : pathLike path (misread path) = true := by
  have matched := @like_reading id (fun _ _ _ => Iff.rfl) path.toList
  rw [List.map_id, List.map_id] at matched
  have path_reading : (misread path).path.toList = reading path.toList := String.toList_ofList
  rw [pathLike, path_reading, String.toList_append]
  exact matched

theorem filter_path (query : RequestLogQuery) (path : String) (row : StoredRequest) :
    { query with path := some path }.filter row =
      ({ query with path := none }.filter row && pathLike path row) := by
  simp only [RequestLogQuery.filter, Option.all_some, Option.all_none, Bool.and_true]
  ac_rfl

theorem literalPath_iff {path : String} : LiteralPath path ↔ Plain path.toList := by
  constructor
  · intro literal
    have same := literal ⟨none, none, none, none, none, none⟩
      ⟨[misread path], List.nodup_singleton _, (by decide : 1 < 2 ^ 41)⟩
    have member : misread path ∈ [misread path].filter fun row =>
        ({ path := none, since := none, untilTs := none, method := none, status := none,
            page := none } : RequestLogQuery).filter row &&
          path.toList.isPrefixOf row.path.toList := by
      rw [← same]
      refine List.mem_filter.mpr ⟨List.mem_singleton.mpr rfl, ?_⟩
      rw [filter_path, pathLike_misread, Bool.and_true]
      rfl
    have found := (List.mem_filter.mp member).2
    rw [Bool.and_eq_true, List.isPrefixOf_iff_prefix, misread, String.toList_ofList] at found
    refine @plain_of_within id (fun _ _ _ => Iff.rfl) _ ?_
    rw [List.map_id, List.map_id]
    exact found.2.isInfix
  · intro plain query contents
    refine List.filter_congr fun row _ => ?_
    rw [filter_path, pathLike_startsWith plain]

end Observability

/-- Each filter is literal exactly for the texts without a character that has a meaning. -/
theorem filters_literal_iff (folding : CaseFolding) (text : String) :
    (LiteralSearch folding text ↔ ∀ char ∈ text.toList, isWildcard char = false) ∧
      (LiteralPath text ↔ ∀ char ∈ text.toList, isWildcard char = false) :=
  ⟨literalSearch_iff, literalPath_iff⟩

/-- The search `a_c` finds the user `abc`. -/
theorem filters_not_literal :
    ¬∀ (folding : CaseFolding) (text : String), LiteralSearch folding text ∧ LiteralPath text := by
  intro literal
  have same := ((literal ⟨id, fun _ _ _ => Iff.rfl⟩ "a_c").1 .skin
    ⟨[{ Textures.misread "" with username := "abc" }], List.nodup_singleton _, by decide⟩).1
  exact absurd same (by decide +kernel)

end Loontail
