import Mathlib.Data.List.SplitLengths
import Loontail.Core.Text
import Loontail.Encoding.Utf8

/-! # The spellings of a UUID

The conversions look at the bytes of a text and cut it at byte offsets. What they accept and
what they make is described by the five groups of digits that both spellings have. -/

namespace Loontail.Yggdrasil

open Text Utf8

/-- No result at all stands for a slice that panics. -/
def dashUuid (value : String) : Option (Except UuidError String) :=
  if isUuidDashed value then some (.ok (toAsciiLowercase value))
  else if !isUuidUndashed value then some (.error (.invalid (truncated value)))
  else do
    let v := (toAsciiLowercase value).toList
    let first ← slice v 0 8
    let second ← slice v 8 12
    let third ← slice v 12 16
    let fourth ← slice v 16 20
    let fifth ← slice v 20 32
    some (.ok (.ofList (first ++ '-' :: second ++ '-' :: third ++ '-' :: fourth ++ '-' :: fifth)))

example : dashUuid "F84C6a790A4e45E0879F0e478DE5cb7E" =
      some (.ok "f84c6a79-0a4e-45e0-879f-0e478de5cb7e") ∧
    dashUuid "f84c6a790-a4e-45e0-879f-0e478de5cb7e" =
      some (.error (.invalid "f84c6a790-a4e-45e0-879f-0e478de5cb7e")) := by
  decide +kernel

/-! ## The groups of digits -/

def lowerDigits : List Char := "0123456789abcdef".toList

structure Uuid where
  groups : List (List Char)
  lengths : groups.map List.length = [8, 4, 4, 4, 12]
  digits : ∀ char ∈ groups.flatten, char ∈ lowerDigits

def Uuid.undashed (uuid : Uuid) : String := .ofList uuid.groups.flatten

def Uuid.dashed (uuid : Uuid) : String := .ofList (['-'].intercalate uuid.groups)

theorem Uuid.five (uuid : Uuid) : ∃ first second third fourth fifth,
    uuid.groups = [first, second, third, fourth, fifth] ∧ first.length = 8 ∧ second.length = 4 ∧
      third.length = 4 ∧ fourth.length = 4 ∧ fifth.length = 12 := by
  have lengths := uuid.lengths
  rcases parts : uuid.groups with
    _ | ⟨first, _ | ⟨second, _ | ⟨third, _ | ⟨fourth, _ | ⟨fifth, _ | ⟨more, rest⟩⟩⟩⟩⟩⟩
  all_goals simp [parts] at lengths
  exact ⟨first, second, third, fourth, fifth, rfl, lengths⟩

/-! ## What is accepted -/

section Accepted

variable {char : Char} {chars : List Char} {value : String}

/-! ## The groups of what is accepted -/

theorem ascii_of_toLower (ascii : char.toLower.toNat < 128) : char.toNat < 128 := by
  unfold Char.toLower at ascii
  split at ascii
  · rename_i upper
    exact Nat.lt_of_le_of_lt (UInt32.le_iff_toNat_le.mp upper.2) (by decide)
  · exact ascii

theorem ascii_of_lowerDigit (digit : char ∈ lowerDigits) : char.toNat < 128 := by
  have all : (lowerDigits.all fun digit => digit.toNat < 128) = true := by decide
  exact of_decide_eq_true (List.all_eq_true.mp all char digit)

theorem toLower_digit : (char.toLower ∈ lowerDigits ↔ isHexDigit char = true) ∧
    (char.toLower = '-' ↔ char = '-') := by
  have all : ∀ code < 128, ((Char.ofNat code).toLower ∈ lowerDigits ↔
      isHexDigit (Char.ofNat code) = true) ∧ ((Char.ofNat code).toLower = '-' ↔
        Char.ofNat code = '-') := by decide +kernel
  by_cases ascii : char.toNat < 128
  · have here := all char.toNat ascii
    rwa [Char.ofNat_toNat] at here
  · have wide : ∀ other : Char, other.toNat < 128 → char.toLower ≠ other := by
      rintro other small rfl
      exact ascii (ascii_of_toLower small)
    refine ⟨⟨fun member => ?_, fun hex => (ascii (ascii_of_hex hex)).elim⟩,
      ⟨fun same => (wide '-' (by decide) same).elim, ?_⟩⟩
    · exact (wide _ (ascii_of_lowerDigit member) rfl).elim
    · rintro rfl
      exact (ascii (by decide)).elim

theorem group_zipIdx {start : Nat} {group : List Char}
    (inside : ∀ index, start ≤ index → index < start + group.length →
      isDashIndex index = false) :
    (∀ placed ∈ group.zipIdx start, (if isDashIndex placed.2 then placed.1 = '-'
        else placed.1 ∈ lowerDigits)) ↔ ∀ char ∈ group, char ∈ lowerDigits := by
  constructor
  · rintro fits char member
    obtain ⟨index, placed⟩ := List.mem_iff_getElem?.mp member
    obtain ⟨short, -⟩ := List.getElem?_eq_some_iff.mp placed
    have here := fits (char, start + index)
      (List.mk_add_mem_zipIdx_iff_getElem?.mpr placed)
    rwa [inside _ (Nat.le_add_right start index) (Nat.add_lt_add_left short start),
      if_neg Bool.false_ne_true] at here
  · rintro digits ⟨char, index⟩ member
    have bounds := List.mem_zipIdx member
    rw [inside index bounds.1 (by omega), if_neg Bool.false_ne_true]
    exact digits char (List.fst_mem_of_mem_zipIdx member)

theorem cut {size : Nat} (inside : size < chars.length) : ∃ front char back,
    chars = front ++ char :: back ∧ front.length = size ∧
      back.length + (size + 1) = chars.length := by
  refine ⟨chars.take size, chars.get ⟨size, inside⟩, chars.drop (size + 1), ?_, ?_, ?_⟩
  · rw [List.get_eq_getElem, ← List.drop_eq_getElem_cons, List.take_append_drop]
  · rw [List.length_take]
    omega
  · rw [List.length_drop]
    omega

theorem five_fit {first second third fourth fifth : List Char} {dash other next last : Char}
    (eight : first.length = 8) (four : second.length = 4) (same : third.length = 4)
    (again : fourth.length = 4) :
    (∀ placed ∈ (first ++ dash :: (second ++ other :: (third ++ next ::
        (fourth ++ last :: fifth)))).zipIdx,
      (if isDashIndex placed.2 then placed.1 = '-' else placed.1 ∈ lowerDigits)) ↔
    (dash = '-' ∧ other = '-' ∧ next = '-' ∧ last = '-') ∧
      ∀ char ∈ [first, second, third, fourth, fifth].flatten, char ∈ lowerDigits := by
  have group (start : Nat) (chars : List Char) (between : start + chars.length ≤ 8 ∨
      9 ≤ start ∧ start + chars.length ≤ 13 ∨ 14 ≤ start ∧ start + chars.length ≤ 18 ∨
        19 ≤ start ∧ start + chars.length ≤ 23 ∨ 24 ≤ start) :
      (∀ placed ∈ chars.zipIdx start, (if isDashIndex placed.2 then placed.1 = '-'
        else placed.1 ∈ lowerDigits)) ↔ ∀ char ∈ chars, char ∈ lowerDigits := by
    refine group_zipIdx fun index behind before => ?_
    simp only [isDashIndex, Bool.or_eq_false_iff, decide_eq_false_iff_not]
    omega
  have dashes : isDashIndex 8 = true ∧ isDashIndex 13 = true ∧ isDashIndex 18 = true ∧
      isDashIndex 23 = true := by decide
  simp only [List.zipIdx_append, List.zipIdx_cons, List.forall_mem_append, List.forall_mem_cons,
    eight, four, same, again, Nat.zero_add, Nat.reduceAdd, dashes.1, dashes.2.1, dashes.2.2.1,
    dashes.2.2.2, if_true]
  rw [group 0 first (by omega), group 9 second (by omega), group 14 third (by omega),
    group 19 fourth (by omega), group 24 fifth (by omega)]
  simp only [List.flatten_cons, List.flatten_nil, List.forall_mem_append, List.append_nil]
  tauto

/-- The check of the positions is a check of the groups between the dashes. -/
theorem dashed_groups : (chars.length = 36 ∧ ∀ placed ∈ chars.zipIdx,
      (if isDashIndex placed.2 then placed.1 = '-' else placed.1 ∈ lowerDigits)) ↔
    ∃ uuid : Uuid, chars = ['-'].intercalate uuid.groups := by
  constructor
  · rintro ⟨long, fits⟩
    obtain ⟨first, dash, rest, rfl, eight, left⟩ := cut (by omega : 8 < chars.length)
    obtain ⟨second, other, more, rfl, four, less⟩ := cut (by omega : 4 < rest.length)
    obtain ⟨third, next, later, rfl, same, fewer⟩ := cut (by omega : 4 < more.length)
    obtain ⟨fourth, last, fifth, rfl, again, fewest⟩ := cut (by omega : 4 < later.length)
    have twelve : fifth.length = 12 := by omega
    obtain ⟨⟨rfl, rfl, rfl, rfl⟩, digits⟩ := (five_fit eight four same again).mp fits
    refine ⟨⟨[first, second, third, fourth, fifth], ?_, digits⟩, ?_⟩
    · simp only [List.map_cons, List.map_nil, eight, four, same, again, twelve]
    · simp [List.intercalate]
  · rintro ⟨uuid, rfl⟩
    obtain ⟨first, second, third, fourth, fifth, groups, eight, four, same, again, twelve⟩ :=
      uuid.five
    have digits := uuid.digits
    rw [groups] at digits ⊢
    have fits := (five_fit eight four same again).mpr ⟨⟨rfl, rfl, rfl, rfl⟩, digits⟩
    have whole : ['-'].intercalate [first, second, third, fourth, fifth] = first ++ '-' ::
        (second ++ '-' :: (third ++ '-' :: (fourth ++ '-' :: fifth))) := by
      simp [List.intercalate]
    rw [whole]
    refine ⟨?_, fits⟩
    simp only [List.length_append, List.length_cons, eight, four, same, again, twelve]

theorem isUuidUndashed_iff : isUuidUndashed value = true ↔
    ∃ uuid : Uuid, toAsciiLowercase value = uuid.undashed := by
  rw [isUuidUndashed_eq]
  simp only [Text.isUuidUndashed, Bool.and_eq_true, decide_eq_true_eq, List.all_eq_true,
    toAsciiLowercase, Uuid.undashed, String.ofList_inj]
  constructor
  · rintro ⟨long, hex⟩
    have whole : ([8, 4, 4, 4, 12].splitLengths (value.toList.map Char.toLower)).flatten =
        value.toList.map Char.toLower := by
      refine List.flatten_splitLengths _ _ ?_
      rw [List.length_map, long]
      decide
    refine ⟨⟨_, List.map_splitLengths_length (value.toList.map Char.toLower) _ ?_, ?_⟩,
      whole.symm⟩
    · rw [List.length_map, long]
      decide
    · rw [whole, List.forall_mem_map]
      exact fun char member => toLower_digit.1.mpr (hex char member)
  · rintro ⟨uuid, lower⟩
    have digits := uuid.digits
    have length := congrArg List.length lower
    rw [List.length_map, List.length_flatten, uuid.lengths] at length
    rw [← lower, List.forall_mem_map] at digits
    exact ⟨length, fun char member => toLower_digit.1.mp (digits char member)⟩

theorem isUuidDashed_iff : isUuidDashed value = true ↔
    ∃ uuid : Uuid, toAsciiLowercase value = uuid.dashed := by
  rw [isUuidDashed_eq]
  simp only [Text.isUuidDashed, Bool.and_eq_true, decide_eq_true_eq, List.all_eq_true,
    toAsciiLowercase, Uuid.dashed, String.ofList_inj]
  rw [← dashed_groups, List.length_map, List.zipIdx_map, List.forall_mem_map]
  refine and_congr_right fun _ => forall₂_congr ?_
  rintro ⟨char, index⟩ -
  change (if isDashIndex index then decide (char = '-') else isHexDigit char) = true ↔
    if isDashIndex index then char.toLower = '-' else char.toLower ∈ lowerDigits
  split
  · rw [decide_eq_true_eq, toLower_digit.2]
  · rw [toLower_digit.1]

end Accepted

/-! ## What is made -/

namespace Uuid

variable {left right : Uuid}

theorem undashed_inj (same : left.undashed = right.undashed) : left = right := by
  have groups : left.groups = right.groups := List.eq_iff_flatten_eq.mpr
    ⟨String.ofList_inj.mp same, left.lengths.trans right.lengths.symm⟩
  cases left
  cases right
  cases groups
  rfl

theorem filter_dashed (uuid : Uuid) :
    uuid.dashed.toList.filter (· ≠ '-') = uuid.undashed.toList := by
  obtain ⟨first, second, third, fourth, fifth, groups, -⟩ := uuid.five
  have digits := uuid.digits
  have plain : ∀ chars : List Char, (∀ char ∈ chars, char ∈ lowerDigits) →
      (chars.filter fun char => !decide (char = '-')) = chars := by
    intro chars digits
    refine List.filter_eq_self.mpr fun char member => ?_
    rw [Bool.not_eq_true', decide_eq_false_iff_not]
    rintro rfl
    exact absurd (digits '-' member) (by decide)
  simp only [groups, List.flatten_cons, List.flatten_nil, List.forall_mem_append] at digits
  obtain ⟨one, two, three, four, five, -⟩ := digits
  simp [dashed, undashed, groups, List.intercalate, plain _ one, plain _ two, plain _ three,
    plain _ four, plain _ five]

theorem dashed_inj (same : left.dashed = right.dashed) : left = right := by
  refine undashed_inj (String.toList_inj.mp ?_)
  rw [← filter_dashed, ← filter_dashed, same]

theorem length_undashed (uuid : Uuid) : uuid.undashed.toList.length = 32 := by
  rw [undashed, String.toList_ofList, List.length_flatten, uuid.lengths]
  decide

theorem length_dashed (uuid : Uuid) : uuid.dashed.toList.length = 36 := by
  rw [dashed, String.toList_ofList]
  exact (dashed_groups.mpr ⟨uuid, rfl⟩).1

theorem undashed_ne_dashed : left.undashed ≠ right.dashed := by
  intro same
  have length := right.length_dashed
  rw [← same, left.length_undashed] at length
  cases length

theorem toLower_lowerDigits {text : String}
    (digits : ∀ char ∈ text.toList, char = '-' ∨ char ∈ lowerDigits) :
    toAsciiLowercase text = text := by
  have fixed : (lowerDigits.all fun digit => digit.toLower = digit) = true := by decide
  rw [← String.toList_inj, toAsciiLowercase, String.toList_ofList]
  refine (List.map_congr_left fun char member => ?_).trans (List.map_id _)
  rcases digits char member with rfl | digit
  · decide
  · exact of_decide_eq_true (List.all_eq_true.mp fixed char digit)

theorem toLower_undashed (uuid : Uuid) : toAsciiLowercase uuid.undashed = uuid.undashed := by
  refine toLower_lowerDigits fun char member => .inr ?_
  rw [undashed, String.toList_ofList] at member
  exact uuid.digits char member

theorem toLower_dashed (uuid : Uuid) : toAsciiLowercase uuid.dashed = uuid.dashed := by
  refine toLower_lowerDigits fun char member => or_iff_not_imp_left.mpr fun dash => ?_
  have kept : char ∈ uuid.dashed.toList.filter (· ≠ '-') :=
    List.mem_filter.mpr ⟨member, decide_eq_true dash⟩
  rw [uuid.filter_dashed, undashed, String.toList_ofList] at kept
  exact uuid.digits char kept

end Uuid

/-- A text in any case that spells a UUID in one of the two forms. -/
def Spells (value : String) (uuid : Uuid) : Prop :=
  toAsciiLowercase value = uuid.undashed ∨ toAsciiLowercase value = uuid.dashed

section Made

variable {value : String} {uuid : Uuid}

theorem undashUuid_of_spells (spells : Spells value uuid) :
    undashUuid value = .ok uuid.undashed := by
  rcases spells with undashed | dashed
  · rw [undashUuid, if_pos (isUuidUndashed_iff.mpr ⟨uuid, undashed⟩), undashed]
  · have other : ¬isUuidUndashed value = true := by
      intro undashed
      obtain ⟨left, same⟩ := isUuidUndashed_iff.mp undashed
      exact Uuid.undashed_ne_dashed (same.symm.trans dashed)
    rw [undashUuid, if_neg other, if_pos (isUuidDashed_iff.mpr ⟨uuid, dashed⟩)]
    have filtered := uuid.filter_dashed
    rw [← dashed, toAsciiLowercase, String.toList_ofList, List.filter_map] at filtered
    have kept : (value.toList.filter fun char => decide (char ≠ '-')) =
        value.toList.filter ((fun char => decide (char ≠ '-')) ∘ Char.toLower) :=
      List.filter_congr fun char _ => decide_eq_decide.mpr (not_congr toLower_digit.2.symm)
    rw [toAsciiLowercase, String.toList_ofList, kept, filtered, String.ofList_toList]

theorem dashUuid_of_spells (spells : Spells value uuid) :
    dashUuid value = some (.ok uuid.dashed) := by
  rcases spells with undashed | dashed
  · have plain := isUuidUndashed_iff.mpr ⟨uuid, undashed⟩
    have other : ¬isUuidDashed value = true := by
      intro dashed
      obtain ⟨right, same⟩ := isUuidDashed_iff.mp dashed
      exact Uuid.undashed_ne_dashed (undashed.symm.trans same)
    have ascii : ∀ char ∈ uuid.undashed.toList, char.toNat < 128 := by
      rw [Uuid.undashed, String.toList_ofList]
      exact fun char member => ascii_of_lowerDigit (uuid.digits char member)
    obtain ⟨first, second, third, fourth, fifth, groups, eight, four, same, again, twelve⟩ :=
      uuid.five
    have whole : uuid.undashed.toList = first ++ (second ++ (third ++ (fourth ++ fifth))) := by
      rw [Uuid.undashed, String.toList_ofList, groups]
      simp
    have one : slice uuid.undashed.toList 0 8 = some first :=
      slice_middle [] first _ ascii whole rfl (by omega)
    have two : slice uuid.undashed.toList 8 12 = some second :=
      slice_middle first second _ ascii whole eight (by omega)
    have three : slice uuid.undashed.toList 12 16 = some third :=
      slice_middle (first ++ second) third (fourth ++ fifth) ascii (by simp [whole])
        (by simp [eight, four]) (by omega)
    have next : slice uuid.undashed.toList 16 20 = some fourth :=
      slice_middle (first ++ second ++ third) fourth fifth ascii (by simp [whole])
        (by simp [eight, four, same]) (by omega)
    have last : slice uuid.undashed.toList 20 32 = some fifth :=
      slice_middle (first ++ second ++ third ++ fourth) fifth [] ascii (by simp [whole])
        (by simp [eight, four, same, again]) (by omega)
    rw [dashUuid, if_neg other, plain, undashed, Bool.not_true, if_neg Bool.false_ne_true]
    simp only [one, two, three, next, last, Option.bind_eq_bind, Option.bind_some, Uuid.dashed,
      groups]
    simp [List.intercalate]
  · rw [dashUuid, if_pos (isUuidDashed_iff.mpr ⟨uuid, dashed⟩), dashed]

/-- What spells no UUID is refused by both conversions with one error. -/
theorem refused_of_not_spells (none : ∀ uuid, ¬Spells value uuid) :
    undashUuid value = .error (.invalid (truncated value)) ∧
      dashUuid value = some (.error (.invalid (truncated value))) := by
  have undashed : ¬isUuidUndashed value = true := fun accepted =>
    (isUuidUndashed_iff.mp accepted).elim fun uuid spelled => none uuid (.inl spelled)
  have dashed : ¬isUuidDashed value = true := fun accepted =>
    (isUuidDashed_iff.mp accepted).elim fun uuid spelled => none uuid (.inr spelled)
  constructor
  · rw [undashUuid, if_neg undashed, if_neg dashed]
  · rw [dashUuid, if_neg dashed, Bool.eq_false_iff.mpr undashed]
    rfl

end Made

end Loontail.Yggdrasil
