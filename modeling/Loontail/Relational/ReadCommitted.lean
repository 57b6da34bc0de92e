import Mathlib.Data.List.Basic
import Mathlib.Logic.Function.Basic

/-! # Tables under READ COMMITTED

A statement sees what is committed when it begins, and what its own transaction has done. A
row that an open transaction has removed is locked: whoever else is about to remove it waits
until that transaction has ended, and passes the row over if it is gone by then. Rows are
inserted and removed, never rewritten. -/

namespace Relational

structure WriteSet (Row Key : Type) where
  removed : List Key
  inserted : List Row

def WriteSet.empty {Row Key : Type} : WriteSet Row Key := ⟨[], []⟩

/-- The transactions that have begun are numbered; one that has ended, or has not begun, has
done nothing. -/
structure ReadCommitted (Row Key : Type) where
  committed : List Row
  begun : Nat
  writes : Nat → WriteSet Row Key
  unbegun : ∀ transaction, begun ≤ transaction → writes transaction = .empty

namespace ReadCommitted

variable {Row Key : Type}

def start (rows : List Row) : ReadCommitted Row Key where
  committed := rows
  begun := 0
  writes := fun _ => .empty
  unbegun := fun _ _ => rfl

def begin (table : ReadCommitted Row Key) : Nat × ReadCommitted Row Key :=
  (table.begun,
    { table with
      begun := table.begun + 1
      unbegun := fun transaction late => table.unbegun transaction (by omega) })

def put (table : ReadCommitted Row Key) (transaction : Nat) (writes : WriteSet Row Key) :
    ReadCommitted Row Key :=
  if opened : transaction < table.begun then
    { table with
      writes := Function.update table.writes transaction writes
      unbegun := fun other late => by
        rw [Function.update_of_ne (by omega)]
        exact table.unbegun other late }
  else table

def insert (table : ReadCommitted Row Key) (transaction : Nat) (row : Row) :
    ReadCommitted Row Key :=
  table.put transaction
    { table.writes transaction with inserted := (table.writes transaction).inserted ++ [row] }

def rollback (table : ReadCommitted Row Key) (transaction : Nat) : ReadCommitted Row Key :=
  table.put transaction .empty

section Keys

variable [DecidableEq Key] (key : Row → Key)

def remaining (table : ReadCommitted Row Key) (transaction : Nat) : List Row :=
  table.committed.filter fun row => key row ∉ (table.writes transaction).removed

def visible (table : ReadCommitted Row Key) (transaction : Nat) : List Row :=
  table.remaining key transaction ++ (table.writes transaction).inserted

def look (table : ReadCommitted Row Key) (transaction : Nat) (chosen : Row → Bool) : List Key :=
  ((table.visible key transaction).filter chosen).map key

def locked (table : ReadCommitted Row Key) (transaction : Nat) (wanted : Key) : Bool :=
  (List.range table.begun).any fun other =>
    other ≠ transaction && (table.writes other).removed.contains wanted

/-- A row that was found and is not locked is removed, unless it is gone. -/
def take (table : ReadCommitted Row Key) (transaction : Nat) (wanted : Key) :
    Option Row × ReadCommitted Row Key :=
  match (table.visible key transaction).find? fun row => key row = wanted with
  | none => (none, table)
  | some row =>
      let writes := table.writes transaction
      (some row, table.put transaction
        ⟨wanted :: writes.removed, writes.inserted.filter fun row => key row ≠ wanted⟩)

def commit (table : ReadCommitted Row Key) (transaction : Nat) : ReadCommitted Row Key :=
  { table.put transaction .empty with committed := table.visible key transaction }

end Keys

/-! ## What each step leaves -/

section Steps

variable {table : ReadCommitted Row Key} {transaction other : Nat} {writes : WriteSet Row Key}

@[simp] theorem put_committed : (table.put transaction writes).committed = table.committed := by
  unfold put
  split
  · rfl
  · rfl

@[simp] theorem put_begun : (table.put transaction writes).begun = table.begun := by
  unfold put
  split
  · rfl
  · rfl

theorem put_writes (opened : transaction < table.begun) :
    (table.put transaction writes).writes transaction = writes := by
  unfold put
  rw [dif_pos opened]
  exact Function.update_self transaction writes table.writes

theorem put_others (apart : other ≠ transaction) :
    (table.put transaction writes).writes other = table.writes other := by
  unfold put
  split
  · exact Function.update_of_ne apart writes table.writes
  · rfl

variable [DecidableEq Key] {key : Row → Key} {wanted : Key} {row : Row}

theorem mem_remaining : row ∈ table.remaining key transaction ↔
    row ∈ table.committed ∧ key row ∉ (table.writes transaction).removed := by
  rw [remaining, List.mem_filter, decide_eq_true_eq]

theorem mem_look {chosen : Row → Bool} : wanted ∈ table.look key transaction chosen ↔
    ∃ row ∈ table.visible key transaction, chosen row = true ∧ key row = wanted := by
  simp only [look, List.mem_map, List.mem_filter, and_assoc]

@[simp] theorem take_committed :
    (table.take key transaction wanted).2.committed = table.committed := by
  unfold take
  split
  · rfl
  · exact put_committed

@[simp] theorem take_begun : (table.take key transaction wanted).2.begun = table.begun := by
  unfold take
  split
  · rfl
  · exact put_begun

theorem take_others (apart : other ≠ transaction) :
    (table.take key transaction wanted).2.writes other = table.writes other := by
  unfold take
  split
  · rfl
  · exact put_others apart

theorem take_remaining (opened : transaction < table.begun) :
    (table.take key transaction wanted).2.remaining key transaction =
      (table.remaining key transaction).filter fun row => key row ≠ wanted := by
  unfold take
  split
  · rename_i missing
    refine (List.filter_eq_self.mpr fun row member => ?_).symm
    have absent := List.find?_eq_none.mp missing row (List.mem_append_left _ member)
    simpa using absent
  · rw [remaining, put_writes opened, put_committed, remaining, List.filter_filter]
    refine List.filter_congr fun row member => ?_
    simp [not_or]

theorem take_inserted (opened : transaction < table.begun)
    (none : (table.writes transaction).inserted = []) :
    ((table.take key transaction wanted).2.writes transaction).inserted = [] := by
  unfold take
  split
  · exact none
  · rw [put_writes opened, none]
    rfl

theorem take_only (member : row ∈ table.visible key transaction)
    (only : ∀ other ∈ table.visible key transaction, key other = key row → other = row) :
    (table.take key transaction (key row)).1 = some row := by
  unfold take
  split
  · rename_i missing
    have absent := List.find?_eq_none.mp missing row member
    simp at absent
  · rename_i other found
    have same := List.find?_some found
    rw [only other (List.mem_of_find?_eq_some found) (of_decide_eq_true same)]

theorem commit_others (apart : other ≠ transaction) :
    (table.commit key transaction).writes other = table.writes other := put_others apart

@[simp] theorem commit_begun : (table.commit key transaction).begun = table.begun := put_begun

end Steps

end ReadCommitted

end Relational
