import Mathlib.Data.List.Nodup
import Mathlib.Data.List.Lemmas
import Mathlib.Data.List.Pairwise

/-! # Tables with a primary key and a partial unique index

A table carries its constraints: no two rows share a key or an indexed slot, and
a key that was ever issued is never issued again, even when its row is gone. -/

namespace Relational

/-- How a row is identified. `slot` is its entry in the partial unique index,
`none` for rows the index does not cover. -/
structure Layout (Row Key Slot : Type) where
  key : Row → Key
  slot : Row → Option Slot

structure Table {Row Key Slot : Type} (layout : Layout Row Key Slot) where
  rows : List Row
  issued : List Key
  keysUnique : (rows.map layout.key).Nodup
  slotsUnique : (rows.filterMap layout.slot).Nodup
  keysIssued : ∀ row ∈ rows, layout.key row ∈ issued

namespace Table

variable {Row Key Slot : Type} {layout : Layout Row Key Slot}

def empty : Table layout where
  rows := []
  issued := []
  keysUnique := List.nodup_nil
  slotsUnique := List.nodup_nil
  keysIssued := by simp

theorem eq_of_key_eq {table : Table layout} {left right : Row}
    (leftMem : left ∈ table.rows) (rightMem : right ∈ table.rows)
    (equal : layout.key left = layout.key right) : left = right :=
  List.inj_on_of_nodup_map table.keysUnique leftMem rightMem equal

theorem eq_of_slot_eq {table : Table layout} {left right : Row} {slot : Slot}
    (leftMem : left ∈ table.rows) (rightMem : right ∈ table.rows)
    (leftSlot : layout.slot left = some slot)
    (rightSlot : layout.slot right = some slot) : left = right := by
  by_contra different
  have unique := table.slotsUnique
  rw [List.Nodup, List.pairwise_filterMap] at unique
  have : Std.Symm fun first second => ∀ one, layout.slot first = some one →
      ∀ two, layout.slot second = some two → one ≠ two :=
    ⟨fun _ _ apart two twoSlot one oneSlot equal =>
      apart one oneSlot two twoSlot equal.symm⟩
  exact unique.forall leftMem rightMem different slot leftSlot slot rightSlot rfl

section Lookup

variable [DecidableEq Key]

def find (table : Table layout) (key : Key) : Option Row :=
  table.rows.find? fun row => layout.key row = key

theorem find_eq_some {table : Table layout} {key : Key} {row : Row} :
    table.find key = some row ↔ row ∈ table.rows ∧ layout.key row = key := by
  constructor
  · intro found
    exact ⟨List.mem_of_find?_eq_some found, by simpa using List.find?_some found⟩
  · rintro ⟨member, rfl⟩
    cases found : table.find (layout.key row) with
    | none =>
        have absent := List.find?_eq_none.mp found row member
        simp at absent
    | some other =>
        have same : layout.key other = layout.key row := by
          simpa using List.find?_some found
        rw [eq_of_key_eq (List.mem_of_find?_eq_some found) member same]

theorem find_eq_none {table : Table layout} {key : Key} :
    table.find key = none ↔ ∀ row ∈ table.rows, layout.key row ≠ key := by
  simp [find]

end Lookup

/-! ## Insertion -/

section Insert

variable [DecidableEq Key] [DecidableEq Slot]

/-- `INSERT`: refused when the key was issued before or the slot is taken. -/
def insert (table : Table layout) (row : Row) : Option (Table layout) :=
  if fresh : layout.key row ∉ table.issued ∧
      ∀ slot ∈ layout.slot row, slot ∉ table.rows.filterMap layout.slot then
    some {
      rows := row :: table.rows
      issued := layout.key row :: table.issued
      keysUnique := by
        rw [List.map_cons, List.nodup_cons]
        refine ⟨fun member => ?_, table.keysUnique⟩
        rcases List.mem_map.mp member with ⟨other, otherMem, equal⟩
        exact fresh.1 (equal ▸ table.keysIssued other otherMem)
      slotsUnique := by
        cases taken : layout.slot row with
        | none =>
            rw [List.filterMap_cons_none taken]
            exact table.slotsUnique
        | some slot =>
            rw [List.filterMap_cons_some taken, List.nodup_cons]
            exact ⟨fresh.2 slot taken, table.slotsUnique⟩
      keysIssued := by
        intro other member
        rcases List.mem_cons.mp member with rfl | member
        · exact List.mem_cons_self
        · exact List.mem_cons_of_mem _ (table.keysIssued other member) }
  else none

theorem insert_rows {table after : Table layout} {row : Row}
    (inserted : table.insert row = some after) :
    after.rows = row :: table.rows ∧
      after.issued = layout.key row :: table.issued ∧
      layout.key row ∉ table.issued := by
  unfold insert at inserted
  split at inserted
  · rename_i fresh
    cases inserted
    exact ⟨rfl, rfl, fresh.1⟩
  · cases inserted

/-- A row goes in exactly if its key is new and its slot free. -/
theorem exists_insert {table : Table layout} {row : Row} :
    (∃ after, table.insert row = some after) ↔ layout.key row ∉ table.issued ∧
      ∀ slot, layout.slot row = some slot →
        ∀ other ∈ table.rows, layout.slot other ≠ some slot := by
  unfold insert
  split
  · rename_i fresh
    refine iff_of_true ⟨_, rfl⟩ ⟨fresh.1, fun slot taken other member same => ?_⟩
    exact fresh.2 slot taken (List.mem_filterMap.mpr ⟨other, member, same⟩)
  · rename_i stale
    refine iff_of_false (fun ⟨_, inserted⟩ => Option.some_ne_none _ inserted.symm) ?_
    rintro ⟨key, free⟩
    refine stale ⟨key, fun slot taken member => ?_⟩
    obtain ⟨other, present, same⟩ := List.mem_filterMap.mp member
    exact free slot taken other present same

theorem mem_insert {table after : Table layout} {row other : Row}
    (inserted : table.insert row = some after) :
    other ∈ after.rows ↔ other = row ∨ other ∈ table.rows := by
  rw [(insert_rows inserted).1, List.mem_cons]

theorem find_insert {table after : Table layout} {row : Row}
    (inserted : table.insert row = some after) (key : Key) :
    after.find key =
      if layout.key row = key then some row else table.find key := by
  rw [find, (insert_rows inserted).1, List.find?_cons]
  by_cases same : layout.key row = key <;> simp [same, find]

end Insert

/-! ## Update -/

/-- The row after `UPDATE … SET set WHERE selected`. -/
def revise (selected : Row → Bool) (set : Row → Row) (row : Row) : Row :=
  if selected row then set row else row

private theorem filterMap_revise_sublist {selected : Row → Bool} {set : Row → Row}
    (keepsSlot : ∀ row, selected row = true →
      layout.slot (set row) = layout.slot row ∨ layout.slot (set row) = none)
    (rows : List Row) :
    ((rows.map (revise selected set)).filterMap layout.slot).Sublist
      (rows.filterMap layout.slot) := by
  induction rows with
  | nil => exact .refl _
  | cons row rest induction =>
      have kept : layout.slot (revise selected set row) = layout.slot row ∨
          layout.slot (revise selected set row) = none := by
        unfold revise
        split
        · rename_i chosen
          exact keepsSlot row chosen
        · exact .inl rfl
      rw [List.map_cons]
      rcases kept with same | released
      · cases taken : layout.slot row with
        | none =>
            rw [List.filterMap_cons_none (same.trans taken),
              List.filterMap_cons_none taken]
            exact induction
        | some slot =>
            rw [List.filterMap_cons_some (same.trans taken),
              List.filterMap_cons_some taken]
            exact induction.cons_cons slot
      · rw [List.filterMap_cons_none released]
        cases taken : layout.slot row with
        | none =>
            rw [List.filterMap_cons_none taken]
            exact induction
        | some slot =>
            rw [List.filterMap_cons_some taken]
            exact induction.cons slot

private theorem map_key_revise {selected : Row → Bool} {set : Row → Row}
    (keepsKey : ∀ row, selected row = true → layout.key (set row) = layout.key row)
    (rows : List Row) :
    (rows.map (revise selected set)).map layout.key = rows.map layout.key := by
  rw [List.map_map]
  refine List.map_congr_left fun row _ => ?_
  simp only [Function.comp, revise]
  split
  · rename_i chosen
    exact keepsKey row chosen
  · rfl

private theorem keysIssued_revise {table : Table layout} {selected : Row → Bool}
    {set : Row → Row}
    (keepsKey : ∀ row, selected row = true → layout.key (set row) = layout.key row) :
    ∀ row ∈ table.rows.map (revise selected set), layout.key row ∈ table.issued := by
  intro row member
  have keys : layout.key row ∈ (table.rows.map (revise selected set)).map layout.key :=
    List.mem_map_of_mem member
  rw [map_key_revise keepsKey] at keys
  rcases List.mem_map.mp keys with ⟨other, otherMem, equal⟩
  exact equal ▸ table.keysIssued other otherMem

/-- `UPDATE` that leaves keys alone and at most releases slots. -/
def update (table : Table layout) (selected : Row → Bool) (set : Row → Row)
    (keepsKey : ∀ row, selected row = true →
      layout.key (set row) = layout.key row := by intros; rfl)
    (keepsSlot : ∀ row, selected row = true →
      layout.slot (set row) = layout.slot row ∨ layout.slot (set row) = none := by
        intros; first | exact .inl rfl | exact .inr rfl) :
    Table layout where
  rows := table.rows.map (revise selected set)
  issued := table.issued
  keysUnique := by
    rw [map_key_revise keepsKey]
    exact table.keysUnique
  slotsUnique :=
    (filterMap_revise_sublist keepsSlot table.rows).nodup table.slotsUnique
  keysIssued := keysIssued_revise keepsKey

/-- `UPDATE` that may claim slots: refused when it would give one to two rows. -/
def claim [DecidableEq Slot] (table : Table layout) (selected : Row → Bool)
    (set : Row → Row)
    (keepsKey : ∀ row, selected row = true →
      layout.key (set row) = layout.key row := by intros; rfl) :
    Option (Table layout) :=
  if unique : ((table.rows.map (revise selected set)).filterMap layout.slot).Nodup then
    some {
      rows := table.rows.map (revise selected set)
      issued := table.issued
      keysUnique := by
        rw [map_key_revise keepsKey]
        exact table.keysUnique
      slotsUnique := unique
      keysIssued := keysIssued_revise keepsKey }
  else none

section UpdateFacts

variable {table : Table layout} {selected : Row → Bool} {set : Row → Row}
variable {keepsKey : ∀ row, selected row = true →
  layout.key (set row) = layout.key row}
variable {keepsSlot : ∀ row, selected row = true →
  layout.slot (set row) = layout.slot row ∨ layout.slot (set row) = none}

@[simp] theorem update_rows :
    (table.update selected set keepsKey keepsSlot).rows =
      table.rows.map (revise selected set) := rfl

theorem update_eq_self (unselected : ∀ row ∈ table.rows, selected row = false) :
    table.update selected set keepsKey keepsSlot = table := by
  have same : table.rows.map (revise selected set) = table.rows := by
    rw [List.map_congr_left fun row member => show revise selected set row = row by
      rw [revise, unselected row member, if_neg Bool.false_ne_true], List.map_id']
  cases table
  simp only [update, mk.injEq, and_true]
  exact same

theorem claim_rows [DecidableEq Slot] {after : Table layout}
    (claimed : table.claim selected set keepsKey = some after) :
    after.rows = table.rows.map (revise selected set) ∧
      after.issued = table.issued := by
  unfold claim at claimed
  split at claimed
  · cases claimed
    exact ⟨rfl, rfl⟩
  · cases claimed

theorem claim_of_keepsSlot [DecidableEq Slot]
    (keepsSlot : ∀ row, selected row = true →
      layout.slot (set row) = layout.slot row ∨ layout.slot (set row) = none) :
    ∃ after, table.claim selected set keepsKey = some after :=
  ⟨_, dif_pos ((filterMap_revise_sublist keepsSlot table.rows).nodup table.slotsUnique)⟩

/-- An update of one row is not refused where no other row has the slot it claims. -/
theorem exists_claim_of_apart [DecidableEq Slot] {row : Row}
    (alone : ∀ other ∈ table.rows, selected other = true → other = row)
    (apart : ∀ other ∈ table.rows, other ≠ row → ∀ slot, layout.slot (set row) = some slot →
      layout.slot other ≠ some slot) :
    ∃ after, table.claim selected set keepsKey = some after := by
  refine ⟨_, dif_pos ?_⟩
  have unique := table.slotsUnique
  rw [List.Nodup, List.pairwise_filterMap] at unique ⊢
  rw [List.pairwise_map]
  refine (unique.and (List.Nodup.of_map _ table.keysUnique)).imp_of_mem ?_
  rintro left right leftMem rightMem ⟨slots, different⟩ first firstSlot second secondSlot
  rintro rfl
  unfold revise at firstSlot secondSlot
  by_cases leftChosen : selected left = true
  · obtain rfl := alone left leftMem leftChosen
    by_cases rightChosen : selected right = true
    · exact different (alone right rightMem rightChosen).symm
    · rw [if_pos leftChosen] at firstSlot
      rw [if_neg rightChosen] at secondSlot
      exact apart right rightMem (Ne.symm different) first firstSlot secondSlot
  · rw [if_neg leftChosen] at firstSlot
    by_cases rightChosen : selected right = true
    · obtain rfl := alone right rightMem rightChosen
      rw [if_pos rightChosen] at secondSlot
      exact apart left leftMem different first secondSlot firstSlot
    · rw [if_neg rightChosen] at secondSlot
      exact slots first firstSlot first secondSlot rfl

theorem mem_revised {row : Row} :
    row ∈ table.rows.map (revise selected set) ↔
      ∃ old ∈ table.rows, revise selected set old = row := List.mem_map

variable [DecidableEq Key]

private theorem find?_revise
    (keepsKey : ∀ row, selected row = true → layout.key (set row) = layout.key row)
    (rows : List Row) (key : Key) :
    (rows.map (revise selected set)).find? (fun row => layout.key row = key) =
      (rows.find? fun row => layout.key row = key).map (revise selected set) := by
  rw [List.find?_map]
  congr 2
  funext row
  simp only [Function.comp, revise]
  split
  · rename_i chosen
    rw [keepsKey row chosen]
  · rfl

theorem find_revised {old new : Table layout}
    (rows : new.rows = old.rows.map (revise selected set))
    (keepsKey : ∀ row, selected row = true → layout.key (set row) = layout.key row)
    (key : Key) :
    new.find key = (old.find key).map (revise selected set) := by
  rw [find, rows]
  exact find?_revise keepsKey old.rows key

theorem find_update (key : Key) :
    (table.update selected set keepsKey keepsSlot).find key =
      (table.find key).map (revise selected set) :=
  find_revised rfl keepsKey key

theorem find_claim [DecidableEq Slot] {after : Table layout}
    (claimed : table.claim selected set keepsKey = some after) (key : Key) :
    after.find key = (table.find key).map (revise selected set) :=
  find_revised (claim_rows claimed).1 keepsKey key

theorem map_revise_other {key other : Key}
    (named : ∀ row, selected row = true → layout.key row = key) (apart : other ≠ key) :
    (table.find other).map (revise selected set) = table.find other := by
  cases found : table.find other with
  | none => rfl
  | some row =>
      have here : selected row = false := by
        by_contra chosen
        exact apart ((find_eq_some.mp found).2.symm.trans (named row (by simpa using chosen)))
      simp [revise, here]

end UpdateFacts

/-! ## Deletion -/

/-- `DELETE … WHERE selected`; the keys of the deleted rows stay issued. -/
def delete (table : Table layout) (selected : Row → Bool) : Table layout where
  rows := table.rows.filter fun row => !selected row
  issued := table.issued
  keysUnique := (List.filter_sublist.map layout.key).nodup table.keysUnique
  slotsUnique := (List.filter_sublist.filterMap layout.slot).nodup table.slotsUnique
  keysIssued := fun row member =>
    table.keysIssued row (List.mem_of_mem_filter member)

theorem mem_delete {table : Table layout} {selected : Row → Bool} {row : Row} :
    row ∈ (table.delete selected).rows ↔ row ∈ table.rows ∧ selected row = false := by
  simp [delete]

theorem find_delete [DecidableEq Key] {table : Table layout} {selected : Row → Bool} {key : Key}
    (spared : ∀ row ∈ table.rows, layout.key row = key → selected row = false) :
    (table.delete selected).find key = table.find key := by
  cases found : table.find key with
  | none =>
      have absent := find_eq_none.mp found
      exact find_eq_none.mpr fun row member => absent row (mem_delete.mp member).1
  | some row =>
      obtain ⟨member, here⟩ := find_eq_some.mp found
      exact find_eq_some.mpr ⟨mem_delete.mpr ⟨member, spared row member here⟩, here⟩

@[simp] theorem delete_issued (table : Table layout) (selected : Row → Bool) :
    (table.delete selected).issued = table.issued := rfl

/-! ## Queries -/

/-- `rows_affected` of a statement that selects these rows. -/
def affected (table : Table layout) (selected : Row → Bool) : Nat :=
  table.rows.countP selected

theorem affected_eq_zero {table : Table layout} {selected : Row → Bool} :
    table.affected selected = 0 ↔ ∀ row ∈ table.rows, selected row = false := by
  simp [affected]

theorem affected_pos {table : Table layout} {selected : Row → Bool} :
    0 < table.affected selected ↔ ∃ row ∈ table.rows, selected row = true := by
  simp [affected, List.countP_pos_iff]

/-- A statement that names one key affects at most one row. -/
theorem affected_le_one [DecidableEq Key] {table : Table layout} {selected : Row → Bool}
    {key : Key} (named : ∀ row, selected row = true → layout.key row = key) :
    table.affected selected ≤ 1 := by
  have fewer : table.affected selected ≤
      table.rows.countP fun row => layout.key row == key :=
    List.countP_mono_left fun row _ chosen => by simp [named row chosen]
  have once := List.nodup_iff_count_le_one.mp table.keysUnique key
  rw [List.count, List.countP_map] at once
  exact fewer.trans once

theorem affected_cases [DecidableEq Key] (table : Table layout) {selected : Row → Bool}
    {key : Key} (named : ∀ row, selected row = true → layout.key row = key) :
    (table.affected selected = 1 ∧
      ∃ row, table.find key = some row ∧ selected row = true) ∨
    table.affected selected = 0 ∧ ∀ row ∈ table.rows, selected row = false := by
  have atMost : table.affected selected ≤ 1 := affected_le_one named
  cases none : table.affected selected with
  | zero => exact .inr ⟨rfl, affected_eq_zero.mp none⟩
  | succ count =>
      have one : count = 0 := by omega
      rcases affected_pos.mp (by omega : 0 < table.affected selected) with ⟨row, member, chosen⟩
      exact .inl ⟨by omega, row, find_eq_some.mpr ⟨member, named row chosen⟩, chosen⟩

theorem affected_eq_one [DecidableEq Key] {table : Table layout} {selected : Row → Bool}
    {key : Key} {row : Row} (found : table.find key = some row) (chosen : selected row = true)
    (named : ∀ row, selected row = true → layout.key row = key) :
    table.affected selected = 1 := by
  rcases table.affected_cases named with ⟨one, -⟩ | ⟨-, unselected⟩
  · exact one
  · rw [unselected row (find_eq_some.mp found).1] at chosen
    cases chosen

end Table

/-! ## Tables whose rows are replaced by key

The rows have a primary key and no other constraint. A key whose row is gone may come again. -/

structure Keyed {Row Key : Type} (keyOf : Row → Key) where
  rows : List Row
  distinct : (rows.map keyOf).Nodup

namespace Keyed

variable {Row Key : Type} {keyOf : Row → Key}

def empty : Keyed keyOf := ⟨[], List.nodup_nil⟩

variable [DecidableEq Key]

def find (table : Keyed keyOf) (key : Key) : Option Row :=
  table.rows.find? fun row => keyOf row = key

def erase (table : Keyed keyOf) (key : Key) : Keyed keyOf where
  rows := table.rows.filter fun row => keyOf row ≠ key
  distinct := table.distinct.sublist (List.filter_sublist.map _)

/-- `INSERT … ON CONFLICT (key) DO UPDATE` of all other columns. -/
def upsert (table : Keyed keyOf) (row : Row) : Keyed keyOf where
  rows := row :: (table.erase (keyOf row)).rows
  distinct := by
    refine List.nodup_cons.mpr ⟨fun member => ?_, (table.erase (keyOf row)).distinct⟩
    obtain ⟨other, kept, same⟩ := List.mem_map.mp member
    exact of_decide_eq_true (List.mem_filter.mp kept).2 same

section Lookup

variable {table : Keyed keyOf} {key other : Key} {row : Row}

theorem find_eq_some : table.find key = some row ↔ row ∈ table.rows ∧ keyOf row = key := by
  constructor
  · intro found
    exact ⟨List.mem_of_find?_eq_some found, by simpa using List.find?_some found⟩
  · rintro ⟨member, rfl⟩
    have present : (table.find (keyOf row)).isSome :=
      List.find?_isSome.mpr ⟨row, member, decide_eq_true rfl⟩
    obtain ⟨other, found⟩ := Option.isSome_iff_exists.mp present
    have same : keyOf other = keyOf row := by simpa using List.find?_some found
    rw [found, List.inj_on_of_nodup_map table.distinct (List.mem_of_find?_eq_some found) member same]

theorem find_erase : (table.erase key).find other = if other = key then none else table.find other := by
  refine Option.ext fun row => ?_
  rw [find_eq_some, erase, List.mem_filter, decide_eq_true_eq]
  split
  · rename_i same
    refine iff_of_false ?_ (Option.some_ne_none row ∘ Eq.symm)
    rintro ⟨⟨-, apart⟩, here⟩
    exact apart (here.trans same)
  · rename_i apart
    rw [find_eq_some]
    constructor
    · rintro ⟨⟨member, -⟩, here⟩
      exact ⟨member, here⟩
    · rintro ⟨member, rfl⟩
      exact ⟨⟨member, apart⟩, rfl⟩

theorem find_upsert :
    (table.upsert row).find other = if other = keyOf row then some row else table.find other := by
  rw [find, upsert, List.find?_cons]
  by_cases same : other = keyOf row
  · rw [if_pos same, decide_eq_true same.symm]
  · rw [if_neg same, decide_eq_false fun here => same here.symm]
    change (table.erase (keyOf row)).find other = table.find other
    rw [find_erase, if_neg same]

end Lookup

end Keyed

end Relational
