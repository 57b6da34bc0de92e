import Loontail.Relational.Table

/-! # How tables change

Whatever statements run, a row of the later table is either new, under a key
never issued before, or the revision of a row of the earlier one. -/

namespace Relational

namespace Table

variable {Row Key Slot : Type} {layout : Layout Row Key Slot}

structure Evolves (fresh : Row → Prop) (revises : Row → Row → Prop)
    (old new : Table layout) : Prop where
  rows : ∀ row ∈ new.rows, layout.key row ∉ old.issued ∧ fresh row ∨
    ∃ earlier ∈ old.rows, revises earlier row
  issued : ∀ key ∈ old.issued, key ∈ new.issued

namespace Evolves

variable {fresh : Row → Prop} {revises : Row → Row → Prop} {old new : Table layout}

theorem refl (reflexive : ∀ row, revises row row) (table : Table layout) :
    Evolves fresh revises table table where
  rows := fun row member => .inr ⟨row, member, reflexive row⟩
  issued := fun _ member => member

theorem trans {middle : Table layout}
    (transitive : ∀ first second third, revises first second → revises second third →
      revises first third)
    (keepsFresh : ∀ earlier later, fresh earlier → revises earlier later → fresh later)
    (keepsKey : ∀ earlier later, revises earlier later → layout.key later = layout.key earlier)
    (first : Evolves fresh revises old middle) (second : Evolves fresh revises middle new) :
    Evolves fresh revises old new where
  rows := by
    intro row member
    rcases second.rows row member with ⟨unissued, isFresh⟩ | ⟨between, present, revised⟩
    · exact .inl ⟨fun issued => unissued (first.issued _ issued), isFresh⟩
    · rcases first.rows between present with ⟨unissued, isFresh⟩ | ⟨earlier, found, was⟩
      · exact .inl ⟨keepsKey between row revised ▸ unissued,
          keepsFresh between row isFresh revised⟩
      · exact .inr ⟨earlier, found, transitive earlier between row was revised⟩
  issued := fun key member => second.issued key (first.issued key member)

theorem insert [DecidableEq Key] [DecidableEq Slot] {row : Row}
    (reflexive : ∀ row, revises row row) (isFresh : fresh row)
    (inserted : old.insert row = some new) : Evolves fresh revises old new where
  rows := by
    intro other member
    rcases (mem_insert inserted).mp member with rfl | member
    · exact .inl ⟨(insert_rows inserted).2.2, isFresh⟩
    · exact .inr ⟨other, member, reflexive other⟩
  issued := by
    intro key member
    rw [(insert_rows inserted).2.1]
    exact List.mem_cons_of_mem _ member

theorem of_revised {selected : Row → Bool} {set : Row → Row}
    (rows : new.rows = old.rows.map (revise selected set))
    (issued : new.issued = old.issued) (reflexive : ∀ row, revises row row)
    (revision : ∀ row, selected row = true → revises row (set row)) :
    Evolves fresh revises old new where
  rows := by
    intro row member
    rw [rows] at member
    rcases mem_revised.mp member with ⟨earlier, present, rfl⟩
    refine .inr ⟨earlier, present, ?_⟩
    unfold revise
    split
    · rename_i chosen
      exact revision earlier chosen
    · exact reflexive earlier
  issued := fun _ member => issued ▸ member

theorem delete (reflexive : ∀ row, revises row row) (table : Table layout)
    (selected : Row → Bool) : Evolves fresh revises table (table.delete selected) where
  rows := fun row member => .inr ⟨row, (mem_delete.mp member).1, reflexive row⟩
  issued := fun _ member => member

/-- An issued key can only be found as a revision of the row it was issued for. -/
theorem find [DecidableEq Key]
    (keepsKey : ∀ earlier later, revises earlier later → layout.key later = layout.key earlier)
    (evolves : Evolves fresh revises old new) {key : Key} {row : Row}
    (issued : key ∈ old.issued) (found : new.find key = some row) :
    ∃ earlier, old.find key = some earlier ∧ revises earlier row := by
  rcases find_eq_some.mp found with ⟨member, rfl⟩
  rcases evolves.rows row member with ⟨unissued, -⟩ | ⟨earlier, present, revised⟩
  · exact (unissued issued).elim
  · exact ⟨earlier, find_eq_some.mpr ⟨present, (keepsKey earlier row revised).symm⟩, revised⟩

end Evolves

theorem keys_revised {old new : Table layout} {selected : Row → Bool} {set : Row → Row}
    (rows : new.rows = old.rows.map (revise selected set))
    (keepsKey : ∀ row, selected row = true → layout.key (set row) = layout.key row) :
    ∀ row ∈ new.rows, layout.key row ∈ old.issued := by
  intro row member
  rw [rows] at member
  rcases mem_revised.mp member with ⟨earlier, present, rfl⟩
  have issued := old.keysIssued earlier present
  unfold revise
  split
  · rename_i chosen
    rw [keepsKey earlier chosen]
    exact issued
  · exact issued

/-- Every row is what `revise` makes of an earlier one, or was inserted as
`inserted` says, under a key never issued before. -/
def Revised (revise : Row → Row) (inserted : Row → Prop) (old new : Table layout) : Prop :=
  ∀ row ∈ new.rows, (∃ earlier ∈ old.rows, row = revise earlier) ∨
    layout.key row ∉ old.issued ∧ inserted row

namespace Revised

variable {revise set : Row → Row} {inserted : Row → Prop} {selected : Row → Bool}
  {old new : Table layout}

theorem of_same (same : ∀ row, revise row = row) (equal : new = old) :
    Revised revise inserted old new := by
  intro row member
  exact .inl ⟨row, equal ▸ member, (same row).symm⟩

theorem of_revised (rows : new.rows = old.rows.map (Table.revise selected set))
    (agrees : ∀ row ∈ old.rows, Table.revise selected set row = revise row) :
    Revised revise inserted old new := by
  intro row member
  rw [rows] at member
  rcases mem_revised.mp member with ⟨earlier, present, rfl⟩
  exact .inl ⟨earlier, present, agrees earlier present⟩

theorem insert [DecidableEq Key] [DecidableEq Slot] {row : Row}
    (same : ∀ row ∈ old.rows, revise row = row) (isInserted : inserted row)
    (grown : old.insert row = some new) : Revised revise inserted old new := by
  intro other member
  rcases (mem_insert grown).mp member with rfl | member
  · exact .inr ⟨(insert_rows grown).2.2, isInserted⟩
  · exact .inl ⟨other, member, (same other member).symm⟩

theorem delete (same : ∀ row, revise row = row) (table : Table layout)
    (selected : Row → Bool) : Revised revise inserted table (table.delete selected) := by
  intro row member
  exact .inl ⟨row, (mem_delete.mp member).1, (same row).symm⟩

end Revised

theorem issued_of_find [DecidableEq Key] {table : Table layout} {key : Key} {row : Row}
    (found : table.find key = some row) : key ∈ table.issued := by
  rcases find_eq_some.mp found with ⟨member, rfl⟩
  exact table.keysIssued row member

end Table

/-! ## Reclaiming a slot before taking it

A row that no longer counts still holds its slot. One update releases the slots of such
rows, and an insert takes the slot if nothing else holds it. -/

namespace Table

variable {Row Key Slot : Type} {layout : Layout Row Key Slot}

/-- What comes of asking for `slot` with a new row of the key: refused where a row that
counts holds it, and otherwise granted once the rows that do not count are revised. -/
structure Reclaimed (slot : Slot) (key : Key) (counts : Row → Bool) (lapse : Row → Row)
    (before after : Table layout) (refused : Bool) : Prop where
  refused_iff : refused = true ↔
    ∃ row ∈ before.rows, layout.slot row = some slot ∧ counts row = true
  kept : refused = true → after.rows = before.rows
  granted : refused = false → ∃ row, layout.key row = key ∧ layout.slot row = some slot ∧
    after.rows = row :: before.rows.map lapse

variable {before middle : Table layout} {selected : Row → Bool} {set : Row → Row}
  {counts : Row → Bool} {slot : Slot}

theorem revise_of_held
    (selects : ∀ row, selected row = true → layout.slot row = some slot ∧ counts row = false)
    (held : ∃ row ∈ before.rows, layout.slot row = some slot ∧ counts row = true) :
    before.rows.map (revise selected set) = before.rows := by
  obtain ⟨holder, member, holds, counted⟩ := held
  rw [List.map_congr_left fun row present => show revise selected set row = row from ?_,
    List.map_id']
  have unselected : selected row = false := by
    by_contra chosen
    obtain ⟨slotted, lapsed⟩ := selects row (by simpa using chosen)
    obtain rfl := eq_of_slot_eq present member slotted holds
    rw [lapsed] at counted
    cases counted
  rw [revise, unselected, if_neg Bool.false_ne_true]

/-- The slot is free after the update exactly if no row that counts held it. -/
theorem free_of_revised
    (selects : ∀ row, selected row = true ↔ layout.slot row = some slot ∧ counts row = false)
    (releases : ∀ row, selected row = true → layout.slot (set row) = none)
    (rows : middle.rows = before.rows.map (revise selected set)) :
    (∀ other ∈ middle.rows, layout.slot other ≠ some slot) ↔
      ¬∃ row ∈ before.rows, layout.slot row = some slot ∧ counts row = true := by
  rw [rows]
  constructor
  · rintro free ⟨row, member, holds, counted⟩
    have unselected : selected row = false := by
      by_contra chosen
      rw [((selects row).mp (by simpa using chosen)).2] at counted
      cases counted
    exact free row (mem_revised.mpr ⟨row, member, by simp [revise, unselected]⟩) holds
  · intro unheld other member holds
    obtain ⟨row, present, rfl⟩ := mem_revised.mp member
    unfold revise at holds
    split at holds
    · rename_i chosen
      rw [releases row chosen] at holds
      cases holds
    · rename_i unselected
      refine unheld ⟨row, present, holds, ?_⟩
      by_contra lapsed
      exact unselected ((selects row).mpr ⟨holds, by simpa using lapsed⟩)

/-- The insert after the update settles who has the slot. -/
theorem reclaimed_of_insert [DecidableEq Key] [DecidableEq Slot] {row : Row}
    (selects : ∀ row, selected row = true ↔ layout.slot row = some slot ∧ counts row = false)
    (releases : ∀ row, selected row = true → layout.slot (set row) = none)
    (rows : middle.rows = before.rows.map (revise selected set))
    (slotted : layout.slot row = some slot) (fresh : layout.key row ∉ middle.issued) :
    Reclaimed slot (layout.key row) counts (revise selected set) before
      ((middle.insert row).getD middle) (middle.insert row).isNone := by
  have possible : (∃ after, middle.insert row = some after) ↔
      ¬∃ row ∈ before.rows, layout.slot row = some slot ∧ counts row = true := by
    rw [exists_insert, ← free_of_revised selects releases rows]
    refine ⟨fun both => both.2 slot slotted, fun unheld => ⟨fresh, fun other same => ?_⟩⟩
    obtain rfl := Option.some.inj (slotted.symm.trans same)
    exact unheld
  cases inserted : middle.insert row with
  | none =>
      have held : ∃ row ∈ before.rows, layout.slot row = some slot ∧ counts row = true := by
        by_contra unheld
        obtain ⟨after, grown⟩ := possible.mpr unheld
        rw [inserted] at grown
        cases grown
      exact {
        refused_iff := iff_of_true rfl held
        kept := fun _ => rows.trans (revise_of_held (fun row chosen => (selects row).mp chosen) held)
        granted := fun granted => by cases granted }
  | some after =>
      have grown := (insert_rows inserted).1
      rw [rows] at grown
      exact {
        refused_iff := iff_of_false (by simp) (possible.mp ⟨after, inserted⟩)
        kept := fun refused => by cases refused
        granted := fun _ => ⟨row, rfl, slotted, grown⟩ }

end Table

end Relational
