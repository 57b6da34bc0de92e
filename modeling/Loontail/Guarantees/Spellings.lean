import Loontail.Yggdrasil.Uuid
import Loontail.Yggdrasil.Payload

/-! # Spellings of identifiers and encodings

The two conversions of a UUID accept the same texts. The repair of base64 makes the encoding of one
that has lost padding. -/

/-! ## Both spellings of a UUID -/

namespace Loontail.Yggdrasil

open Base64 Text

theorem spells_or_refused (value : String) :
    (∃ uuid, Spells value uuid) ∨ undashUuid value = .error (.invalid (truncated value)) ∧
      dashUuid value = some (.error (.invalid (truncated value))) := by
  by_cases known : ∃ uuid, Spells value uuid
  · exact .inl known
  · exact .inr (refused_of_not_spells fun uuid spells => known ⟨uuid, spells⟩)

theorem undashUuid_eq_iff_dashUuid_eq {left right : String} :
    undashUuid left = undashUuid right ↔ dashUuid left = dashUuid right := by
  rcases spells_or_refused left with ⟨uuid, spells⟩ | ⟨undashed, dashed⟩
  · rw [undashUuid_of_spells spells, dashUuid_of_spells spells]
    rcases spells_or_refused right with ⟨other, again⟩ | ⟨undashed, dashed⟩
    · rw [undashUuid_of_spells again, dashUuid_of_spells again, Except.ok.injEq,
        Option.some.injEq, Except.ok.injEq]
      constructor
      · intro same
        rw [Uuid.undashed_inj same]
      · intro same
        rw [Uuid.dashed_inj same]
    · simp [undashed, dashed]
  · rw [undashed, dashed]
    rcases spells_or_refused right with ⟨other, again⟩ | ⟨undashed, dashed⟩
    · simp [undashUuid_of_spells again, dashUuid_of_spells again]
    · simp [undashed, dashed]

theorem accepted_iff {value : String} :
    (∃ uuid, Spells value uuid) ↔
      Text.isUuidUndashed value = true ∨ Text.isUuidDashed value = true := by
  rw [← isUuidUndashed_eq, ← isUuidDashed_eq, isUuidUndashed_iff, isUuidDashed_iff, ← exists_or]
  exact Iff.rfl

theorem Spells.unique {value : String} {uuid other : Uuid} (spells : Spells value uuid)
    (again : Spells value other) : uuid = other := by
  have undashed := undashUuid_of_spells spells
  rw [undashUuid_of_spells again] at undashed
  exact (Uuid.undashed_inj (Except.ok.inj undashed)).symm

/-- No slice panics. The texts of 32 digits, and of 36 characters with the four dashes in their
places, spell one UUID each. Both conversions accept these and no others. They are taken to the two
canonical forms of the UUID, which the conversions take to each other and to themselves. -/
theorem uuid_spellings (value : String) :
    ((∃ uuid, Spells value uuid) ↔
      Text.isUuidUndashed value = true ∨ Text.isUuidDashed value = true) ∧
    (∀ uuid, Spells value uuid →
      (∀ other, Spells value other → other = uuid) ∧
      undashUuid value = .ok uuid.undashed ∧ dashUuid value = some (.ok uuid.dashed) ∧
      uuid.undashed.toList.length = 32 ∧ toAsciiLowercase uuid.undashed = uuid.undashed ∧
      uuid.dashed.toList.length = 36 ∧ toAsciiLowercase uuid.dashed = uuid.dashed ∧
      undashUuid uuid.dashed = .ok uuid.undashed ∧
      dashUuid uuid.undashed = some (.ok uuid.dashed) ∧
      undashUuid uuid.undashed = .ok uuid.undashed ∧
      dashUuid uuid.dashed = some (.ok uuid.dashed)) ∧
    ((¬∃ uuid, Spells value uuid) →
      undashUuid value = .error (.invalid (truncated value)) ∧
        dashUuid value = some (.error (.invalid (truncated value)))) ∧
    ∀ other, undashUuid value = undashUuid other ↔ dashUuid value = dashUuid other := by
  refine ⟨accepted_iff, fun uuid spells => ?_,
    fun none => refused_of_not_spells fun uuid spells => none ⟨uuid, spells⟩,
    fun other => undashUuid_eq_iff_dashUuid_eq⟩
  have plain : Spells uuid.undashed uuid := .inl uuid.toLower_undashed
  have form : Spells uuid.dashed uuid := .inr uuid.toLower_dashed
  exact ⟨fun other again => again.unique spells,
    undashUuid_of_spells spells, dashUuid_of_spells spells,
    uuid.length_undashed, uuid.toLower_undashed, uuid.length_dashed, uuid.toLower_dashed,
    undashUuid_of_spells form, dashUuid_of_spells plain,
    undashUuid_of_spells plain, dashUuid_of_spells form⟩

/-! ## What the repair of base64 makes

Of an encoding that has lost padding it makes the encoding. It counts the padding that is there
and the padding that is missing, but not both together. -/

/-- Padding where none belongs, or where only more than two would do. -/
def Overpadded (text : List Char) : Prop :=
  ∃ body padding, Padded text body padding ∧
    (body.length % 4 = 0 ∧ padding = 2 ∨ body.length % 4 = 1 ∧ (padding = 1 ∨ padding = 2))

/-- The repair is sound exactly where the text is not overpadded. -/
theorem normalize_sound_iff (encoded : String) :
    (∀ normalized, normalizeBase64 encoded = .ok normalized →
      WellFormed normalized.toList ∧ normalizeBase64 normalized = .ok normalized) ↔
        ¬Overpadded encoded.toList := by
  constructor
  · rintro sound ⟨body, padding, padded, excess⟩
    have length := padded.length
    have present : encoded ≠ "" := by
      rintro rfl
      rw [String.toList_empty, List.length_nil] at length
      omega
    have made : normalizeBase64 encoded = .ok
        (encoded ++ .ofList (List.replicate (missingPadding encoded.toList.length) '=')) := by
      refine normalizeBase64_ok.mpr
        ⟨present, ⟨body, padding, padded, by omega⟩, by omega, ?_⟩
      rw [String.toList_append, String.toList_ofList]
    obtain ⟨other, more, again, few⟩ := (sound _ made).1.padded
    rw [String.toList_append, String.toList_ofList] at again
    have counted := (padded.append (missingPadding encoded.toList.length)).unique again
    have missing : 3 ≤ padding + missingPadding encoded.toList.length := by
      unfold missingPadding
      split
      · omega
      · omega
    omega
  · rintro fair normalized accepted
    obtain ⟨present, ⟨body, padding, padded, few⟩, fits, whole⟩ := normalizeBase64_ok.mp accepted
    have length := padded.length
    have repaired := padded.append (missingPadding encoded.toList.length)
    rw [← whole] at repaired
    have enough : padding + missingPadding encoded.toList.length ≤ 2 := by
      have other : ¬(body.length % 4 = 0 ∧ padding = 2 ∨
          body.length % 4 = 1 ∧ (padding = 1 ∨ padding = 2)) :=
        fun excess => fair ⟨body, padding, padded, excess⟩
      unfold missingPadding
      split
      · omega
      · omega
    have quartets : normalized.toList.length % 4 = 0 := by
      rw [repaired.length]
      unfold missingPadding
      split
      · omega
      · omega
    refine ⟨repaired.wellFormed enough quartets, normalizeBase64_ok.mpr
      ⟨?_, ⟨body, _, repaired, enough⟩, by omega, ?_⟩⟩
    · rintro rfl
      rw [String.toList_empty, List.nil_eq, List.append_eq_nil_iff] at whole
      exact present (String.toList_inj.mp whole.1)
    · rw [missingPadding, if_pos quartets]
      exact (List.append_nil _).symm

/-- One symbol is padded with three characters. -/
theorem normalize_unsound :
    ¬∀ encoded normalized, normalizeBase64 encoded = .ok normalized →
      WellFormed normalized.toList ∧ normalizeBase64 normalized = .ok normalized := by
  intro sound
  have made : normalizeBase64 "a=" = .ok "a===" := by decide +kernel
  have symbol := (sound "a=" "a===" made).1.lastQuartet '=' (by decide +kernel)
  exact absurd symbol (by decide)

/-- Whatever padding an encoding has lost, it is restored. -/
theorem normalize_complete {bytes : List UInt8} (present : bytes ≠ []) {kept : String}
    {removed : Nat} (whole : kept.toList ++ List.replicate removed '=' = encode bytes)
    (fits : kept.toList.length % 4 ≠ 1) :
    normalizeBase64 kept = .ok (.ofList (encode bytes)) := by
  obtain ⟨⟨body, padded⟩, quartets⟩ := encode_padded bytes
  have few := paddingOf_le bytes
  have long : 0 < (encode bytes).length := by
    cases bytes with
    | nil => exact (present rfl).elim
    | cons first rest => cases rest with
      | nil => simp [encode]
      | cons second more => cases more <;> simp [encode]
  have front : kept.toList = (encode bytes).take kept.toList.length := by
    rw [← whole, List.take_left']
    rfl
  have part := padded.take kept.toList.length
  rw [← front] at part
  have again := part.append removed
  rw [whole] at again
  obtain ⟨same, count⟩ := again.unique padded
  have length := padded.length
  have rest := part.length
  rw [same] at rest
  refine normalizeBase64_ok.mpr ⟨?_, ⟨_, _, part, by omega⟩, fits, ?_⟩
  · rintro rfl
    rw [String.toList_empty, List.length_nil] at rest
    omega
  · have missing : missingPadding kept.toList.length = removed := by
      unfold missingPadding
      split
      · omega
      · omega
    rw [String.toList_ofList, missing, whole]

theorem normalize_complete_unpadded : normalizeBase64 "TQ" = .ok (.ofList (encode [77])) :=
  normalize_complete (by decide) (by decide +kernel : "TQ".toList ++ List.replicate 2 '=' = _)
    (by decide +kernel)

end Loontail.Yggdrasil
