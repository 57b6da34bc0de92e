import Loontail.Relational.Table
import Mathlib.Data.Fintype.Card
import Mathlib.Data.List.Basic
import Mathlib.Data.List.MinMax
import Mathlib.Data.List.Nodup

/-! # Rows that go

Rows go because they are too many, or batch after batch because they are selected. -/

/-! ## Keeping the newest rows

Rows carry a time stamp. To cap their number is to drop every row that as many
rows are newer than as may be kept. -/

namespace Relational

variable {Row Time : Type} [LinearOrder Time] {stamp : Row → Time} {rows : List Row}
  {cap : Nat}

def newerThan (stamp : Row → Time) (rows : List Row) (row : Row) : Nat :=
  rows.countP fun other => stamp row < stamp other

def capped (stamp : Row → Time) (cap : Nat) (rows : List Row) : List Row :=
  rows.filter fun row => newerThan stamp rows row < cap

theorem mem_capped {row : Row} :
    row ∈ capped stamp cap rows ↔ row ∈ rows ∧ newerThan stamp rows row < cap := by
  simp [capped]

/-- What the cap drops is older than what it keeps. -/
theorem older_of_beyond {gone kept : Row} (beyond : cap ≤ newerThan stamp rows gone)
    (within : newerThan stamp rows kept < cap) : stamp gone < stamp kept := by
  by_contra later
  have more : newerThan stamp rows gone ≤ newerThan stamp rows kept := by
    apply List.countP_mono_left
    intro other _ newer
    rw [decide_eq_true_eq] at newer ⊢
    exact lt_of_le_of_lt (not_lt.mp later) newer
  omega

theorem newest_capped {row : Row} (member : row ∈ rows) (positive : 0 < cap)
    (newest : ∀ other ∈ rows, stamp other ≤ stamp row) : row ∈ capped stamp cap rows := by
  rw [mem_capped]
  refine ⟨member, ?_⟩
  have none : newerThan stamp rows row = 0 := by
    rw [newerThan, List.countP_eq_zero]
    intro other among
    simpa using newest other among
  rw [none]
  exact positive

theorem length_capped [DecidableEq Row] (distinct : (rows.map stamp).Nodup) :
    (capped stamp cap rows).length ≤ cap := by
  have kept : (capped stamp cap rows).Sublist rows := List.filter_sublist
  have apart : ((capped stamp cap rows).map stamp).Nodup := distinct.sublist (kept.map stamp)
  cases oldest : (capped stamp cap rows).argmin stamp with
  | none =>
      rw [List.argmin_eq_none.mp oldest]
      exact Nat.zero_le _
  | some row =>
      have member := List.argmin_mem oldest
      -- all others that are left are newer than the oldest of them
      have newer : ∀ other ∈ (capped stamp cap rows).erase row, stamp row < stamp other := by
        intro other among
        have left := List.mem_of_mem_erase among
        have different : stamp row ≠ stamp other := by
          intro same
          have equal := List.inj_on_of_nodup_map apart member left same
          have unique : (capped stamp cap rows).Nodup := apart.of_map
          rw [equal, unique.mem_erase_iff] at among
          exact among.1 rfl
        exact lt_of_le_of_ne (not_lt.mp (List.not_lt_of_mem_argmin left oldest)) different
      have counted : ((capped stamp cap rows).erase row).length ≤ newerThan stamp rows row := by
        calc ((capped stamp cap rows).erase row).length
            = ((capped stamp cap rows).erase row).countP (fun other => stamp row < stamp other) :=
              (List.countP_eq_length.mpr fun other among =>
                decide_eq_true (newer other among)).symm
          _ ≤ newerThan stamp rows row := ((List.erase_sublist).trans kept).countP_le
      rw [List.length_erase_of_mem member] at counted
      have within := (mem_capped.mp member).2
      omega

end Relational

/-! ## Deleting in batches

A batch is a part of the selected rows, and is deleted by its keys. What is selected may be
deleted batch after batch, while rows that are not selected come in. -/

namespace Relational.Table

variable {Row Key Slot : Type} {layout : Layout Row Key Slot} {table : Table layout}
  {selected : Row → Bool}

theorem length_rows_le [Fintype Key] (table : Table layout) :
    table.rows.length ≤ Fintype.card Key := by
  have bound := table.keysUnique.length_le_card
  rwa [List.length_map] at bound

theorem eq_of_rows {left right : Table layout} (rows : left.rows = right.rows)
    (issued : left.issued = right.issued) : left = right := by
  cases left
  cases right
  cases rows
  cases issued
  rfl

theorem delete_eq_self (none : table.affected selected = 0) : table.delete selected = table := by
  refine eq_of_rows (List.filter_eq_self.mpr fun row member => ?_) rfl
  rw [affected_eq_zero.mp none row member, Bool.not_false]

/-- `key IN (…)`, over the keys of the batch. -/
def inBatch [DecidableEq Key] (layout : Layout Row Key Slot) (batch : List Row) (row : Row) :
    Bool :=
  (batch.map layout.key).contains (layout.key row)

section Batch

variable {batch rest : List Row} (parts : (batch ++ rest).Perm (table.rows.filter selected))
include parts

theorem mem_of_batch {row : Row} (among : row ∈ batch) :
    row ∈ table.rows ∧ selected row = true :=
  List.mem_filter.mp (parts.mem_iff.mp (List.mem_append_left rest among))

variable [DecidableEq Key]

/-- A key names a row of the batch only if it is the row's own. -/
theorem inBatch_iff {row : Row} (member : row ∈ table.rows) :
    inBatch layout batch row = true ↔ row ∈ batch := by
  rw [inBatch, List.contains_iff_mem, List.mem_map]
  constructor
  · rintro ⟨other, among, same⟩
    rwa [← eq_of_key_eq (mem_of_batch parts among).1 member same]
  · intro among
    exact ⟨row, among, rfl⟩

theorem selected_of_inBatch {row : Row} (member : row ∈ table.rows)
    (among : inBatch layout batch row = true) : selected row = true :=
  (mem_of_batch parts ((inBatch_iff parts member).mp among)).2

theorem affected_inBatch : table.affected (inBatch layout batch) = batch.length := by
  have rowsNodup : table.rows.Nodup := List.Nodup.of_map _ table.keysUnique
  have partsNodup : (batch ++ rest).Nodup := parts.nodup_iff.mpr (rowsNodup.filter _)
  have same : (table.rows.filter (inBatch layout batch)).Perm batch := by
    refine (List.perm_ext_iff_of_nodup (rowsNodup.filter _) partsNodup.of_append_left).mpr ?_
    intro row
    rw [List.mem_filter]
    constructor
    · rintro ⟨member, among⟩
      exact (inBatch_iff parts member).mp among
    · intro among
      have member := (mem_of_batch parts among).1
      exact ⟨member, (inBatch_iff parts member).mpr among⟩
  rw [affected, List.countP_eq_length_filter, same.length_eq]

theorem affected_delete_inBatch :
    (table.delete (inBatch layout batch)).affected selected = rest.length := by
  have whole : table.affected selected = batch.length + rest.length := by
    rw [affected, List.countP_eq_length_filter, ← parts.length_eq, List.length_append]
  have split : table.affected selected = table.affected (inBatch layout batch) +
      (table.delete (inBatch layout batch)).affected selected := by
    simp only [affected, delete, List.countP_filter]
    rw [List.countP_eq_countP_filter_add table.rows selected (inBatch layout batch)]
    simp only [List.countP_filter]
    congr 1
    refine List.countP_congr fun row member => ?_
    simp only [Bool.and_eq_true, and_iff_right_iff_imp]
    exact selected_of_inBatch parts member
  rw [affected_inBatch parts] at split
  omega

/-- To delete a batch first makes no difference to the deletion of all. -/
theorem delete_delete_inBatch :
    (table.delete (inBatch layout batch)).delete selected = table.delete selected := by
  refine eq_of_rows (List.filter_filter.trans (List.filter_congr fun row member => ?_)) rfl
  cases kept : selected row with
  | true => rfl
  | false =>
      rw [Bool.not_false, Bool.true_and, Bool.not_eq_true', Bool.eq_false_iff]
      intro among
      rw [selected_of_inBatch parts member among] at kept
      cases kept

end Batch

/-! ### Rows that come in -/

section Receive

variable [DecidableEq Key] [DecidableEq Slot]

/-- `INSERT`, which leaves the table as it is where it is refused. -/
def receive (table : Table layout) (row : Row) : Table layout :=
  (table.insert row).getD table

def receiveAll (table : Table layout) (rows : List Row) : Table layout := rows.foldl receive table

theorem affected_receive {row : Row} (unselected : selected row = false) :
    (table.receive row).affected selected = table.affected selected := by
  unfold receive
  cases inserted : table.insert row with
  | none => rfl
  | some after =>
      rw [Option.getD_some, affected, (insert_rows inserted).1]
      simp [affected, unselected]

theorem affected_receiveAll {rows : List Row} (unselected : ∀ row ∈ rows, selected row = false) :
    (table.receiveAll rows).affected selected = table.affected selected := by
  induction rows generalizing table with
  | nil => rfl
  | cons row rest induction =>
      have continued := @induction (table.receive row) fun other among =>
        unselected other (List.mem_cons_of_mem _ among)
      exact continued.trans (affected_receive (unselected row List.mem_cons_self))

/-- Where only the key can be taken, a row comes in if its key is new. -/
theorem receive_cases (slotless : ∀ row, layout.slot row = none) (table : Table layout)
    (row : Row) :
    (layout.key row ∉ table.issued ∧ (table.receive row).rows = row :: table.rows ∧
      (table.receive row).issued = layout.key row :: table.issued) ∨
    (layout.key row ∈ table.issued ∧ table.receive row = table) := by
  unfold receive
  cases inserted : table.insert row with
  | some after =>
      obtain ⟨rows, issued, fresh⟩ := insert_rows inserted
      exact .inl ⟨fresh, rows, issued⟩
  | none =>
      refine .inr ⟨?_, rfl⟩
      by_contra fresh
      have free : ∃ after, table.insert row = some after :=
        exists_insert.mpr ⟨fresh, fun slot taken => by simp [slotless] at taken⟩
      obtain ⟨after, succeeds⟩ := free
      rw [inserted] at succeeds
      cases succeeds

theorem receive_delete (slotless : ∀ row, layout.slot row = none) {row : Row}
    (unselected : selected row = false) :
    (table.receive row).delete selected = (table.delete selected).receive row := by
  rcases receive_cases slotless table row with ⟨fresh, rows, issued⟩ | ⟨known, same⟩
  · rcases receive_cases slotless (table.delete selected) row with ⟨-, after⟩ | ⟨known, -⟩
    · refine eq_of_rows ?_ ?_
      · rw [after.1]
        simp [delete, rows, unselected]
      · rw [after.2, delete_issued, delete_issued, issued]
    · exact (fresh known).elim
  · rcases receive_cases slotless (table.delete selected) row with ⟨fresh, -⟩ | ⟨-, after⟩
    · exact (fresh known).elim
    · rw [same, after]

theorem receiveAll_delete (slotless : ∀ row, layout.slot row = none) {rows : List Row}
    (unselected : ∀ row ∈ rows, selected row = false) :
    (table.receiveAll rows).delete selected = (table.delete selected).receiveAll rows := by
  induction rows generalizing table with
  | nil => rfl
  | cons row rest induction =>
      have first := @receive_delete _ _ _ layout table selected _ _ slotless row
        (unselected row List.mem_cons_self)
      have continued := @induction (table.receive row) fun other among =>
        unselected other (List.mem_cons_of_mem _ among)
      rw [first] at continued
      exact continued

end Receive

end Relational.Table
