import Mathlib.Data.List.AList
import Mathlib.Data.List.Destutter
import Mathlib.Data.List.Sort

/-! # Rows read for many owners at once

Rows that are read in one order for many owners are grouped by their owner in memory. The
group of an owner is what a read for this owner alone returns. -/

namespace Relational

variable {Row Key Value Rank : Type}

/-! ## The order of a selection -/

/-- `ORDER BY`: rows of one rank stay in the order of the table. -/
def orderBy [LinearOrder Rank] (rank : Row → Rank) (rows : List Row) : List Row :=
  rows.insertionSort fun left right => rank left ≤ rank right

section Order

variable [LinearOrder Rank] (rank : Row → Rank)

@[simp] theorem mem_orderBy {rows : List Row} {row : Row} :
    row ∈ orderBy rank rows ↔ row ∈ rows := List.mem_insertionSort _

theorem orderBy_perm (rows : List Row) : (orderBy rank rows).Perm rows :=
  List.perm_insertionSort _ rows

theorem orderBy_pairwise (rows : List Row) :
    (orderBy rank rows).Pairwise fun left right => rank left ≤ rank right := by
  induction rows with
  | nil => exact .nil
  | cons row rest induction =>
      have : IsTrans Row fun left right => rank left ≤ rank right := ⟨fun _ _ _ => le_trans⟩
      have : Std.Total fun left right : Row => rank left ≤ rank right :=
        ⟨fun left right => le_total (rank left) (rank right)⟩
      exact List.Pairwise.orderedInsert row _ induction

/-- `LIMIT 1` returns a row of the least rank. -/
theorem orderBy_head_le {rows : List Row} {first row : Row}
    (head : (orderBy rank rows).head? = some first) (member : row ∈ rows) :
    rank first ≤ rank row := by
  obtain ⟨rest, sorted⟩ := List.head?_eq_some_iff.mp head
  have ordered := orderBy_pairwise rank rows
  have among := (mem_orderBy rank).mpr member
  rw [sorted] at ordered among
  rcases List.mem_cons.mp among with rfl | later
  · exact le_rfl
  · exact (List.pairwise_cons.mp ordered).1 row later

theorem filter_orderedInsert (selected : Row → Bool) (row : Row) {rows : List Row}
    (sorted : rows.Pairwise fun left right => rank left ≤ rank right) :
    (rows.orderedInsert (fun left right => rank left ≤ rank right) row).filter selected =
      if selected row then
        (rows.filter selected).orderedInsert (fun left right => rank left ≤ rank right) row
      else rows.filter selected := by
  induction rows with
  | nil => cases chosen : selected row <;> simp [chosen]
  | cons first rest induction =>
      obtain ⟨least, ordered⟩ := List.pairwise_cons.mp sorted
      by_cases before : rank row ≤ rank first
      · rw [List.orderedInsert_cons_of_le _ rest before, List.filter_cons]
        split
        · -- what remains of the rows is still above the row that is put before them
          symm
          cases remaining : (first :: rest).filter selected with
          | nil => rfl
          | cons next others =>
              have among : next ∈ first :: rest :=
                List.mem_of_mem_filter (remaining ▸ List.mem_cons_self)
              refine List.orderedInsert_cons_of_le _ others (le_trans before ?_)
              rcases List.mem_cons.mp among with rfl | later
              · exact le_rfl
              · exact least next later
        · rfl
      · rw [List.orderedInsert_of_not_le _ rest before, List.filter_cons, List.filter_cons,
          induction ordered]
        cases chosen : selected first
        · rfl
        · cases taken : selected row
          · rfl
          · simp only [if_true]
            rw [List.orderedInsert_cons, if_neg before]

theorem filter_orderBy (selected : Row → Bool) (rows : List Row) :
    (orderBy rank rows).filter selected = orderBy rank (rows.filter selected) := by
  induction rows with
  | nil => rfl
  | cons row rest induction =>
      have inserted := filter_orderedInsert rank selected row (orderBy_pairwise rank rest)
      rw [induction] at inserted
      refine inserted.trans ?_
      rw [List.filter_cons]
      split <;> rfl

end Order

/-! ## Groups -/

abbrev Groups (Key Value : Type) := AList fun _ : Key => List Value

namespace Groups

variable [DecidableEq Key]

/-- `entry(key).or_default().push(value)`. -/
def push (groups : Groups Key Value) (key : Key) (value : Value) : Groups Key Value :=
  groups.insert key ((groups.lookup key).getD [] ++ [value])

def group (groups : Groups Key Value) (key : Key) : List Value := (groups.lookup key).getD []

theorem group_push (groups : Groups Key Value) (key other : Key) (value : Value) :
    (groups.push key value).group other =
      groups.group other ++ if key = other then [value] else [] := by
  unfold push group
  split
  · rename_i same
    rw [same, AList.lookup_insert]
    rfl
  · rename_i different
    rw [AList.lookup_insert_ne (Ne.symm different), List.append_nil]

theorem group_erase_ne {groups : Groups Key Value} {key other : Key} (different : other ≠ key) :
    Groups.group (groups.erase key) other = groups.group other := by
  rw [group, AList.lookup_erase_ne different, group]

/-- `for row in rows { groups.entry(key).or_default().push(value); }`. -/
def of (key : Row → Key) (value : Row → Value) (rows : List Row) : Groups Key Value :=
  rows.foldl (fun groups row => groups.push (key row) (value row)) ∅

/-- A group holds what belongs to its key, in the order of the rows. -/
theorem group_of (key : Row → Key) (value : Row → Value) (rows : List Row) (owner : Key) :
    (of key value rows).group owner = (rows.filter fun row => key row = owner).map value := by
  suffices started : ∀ groups : Groups Key Value,
      (rows.foldl (fun groups row => groups.push (key row) (value row)) groups).group owner =
        groups.group owner ++ (rows.filter fun row => key row = owner).map value from started ∅
  induction rows with
  | nil => exact fun groups => (List.append_nil _).symm
  | cons row rest induction =>
      intro groups
      rw [List.foldl_cons, induction, group_push, List.filter_cons, List.append_assoc]
      by_cases same : key row = owner <;> simp [same]

end Groups

/-! ## Maps -/

section Index

variable [DecidableEq Key]

/-- `rows.map(|row| (key, value)).collect()` into a map: the last row of a key stays. -/
def indexBy (key : Row → Key) (value : Row → Value) (rows : List Row) :
    AList fun _ : Key => Value :=
  rows.foldl (fun index row => index.insert (key row) (value row)) ∅

variable {key : Row → Key} {value : Row → Value} {rows : List Row}

theorem indexBy_concat (row : Row) :
    indexBy key value (rows ++ [row]) = (indexBy key value rows).insert (key row) (value row) := by
  rw [indexBy, List.foldl_append]
  rfl

theorem lookup_indexBy_none {other : Key} (absent : ∀ row ∈ rows, key row ≠ other) :
    (indexBy key value rows).lookup other = none := by
  induction rows using List.reverseRecOn with
  | nil => rfl
  | append_singleton rest row induction =>
      have different : other ≠ key row := Ne.symm (absent row (by simp))
      rw [indexBy_concat, AList.lookup_insert_ne different]
      exact induction fun earlier member => absent earlier (by simp [member])

theorem lookup_indexBy {row : Row} (member : row ∈ rows)
    (agree : ∀ other ∈ rows, key other = key row → value other = value row) :
    (indexBy key value rows).lookup (key row) = some (value row) := by
  induction rows using List.reverseRecOn with
  | nil => cases member
  | append_singleton rest last induction =>
      rw [indexBy_concat]
      by_cases same : key last = key row
      · rw [← same, AList.lookup_insert, agree last (by simp) same]
      · rw [AList.lookup_insert_ne (Ne.symm same)]
        refine induction ?_ fun other among => agree other (by simp [among])
        rcases List.mem_append.mp member with present | final
        · exact present
        · exact absurd (congrArg key (List.mem_singleton.mp final).symm) same

end Index

/-! ## Keys without repetition -/

/-- `keys.sort_unstable(); keys.dedup();`. -/
def distinct [LinearOrder Key] (keys : List Key) : List Key :=
  (keys.insertionSort (· ≤ ·)).destutter (· ≠ ·)

theorem mem_destutter_ne [DecidableEq Key] {key : Key} {keys : List Key} :
    key ∈ keys.destutter (· ≠ ·) ↔ key ∈ keys := by
  refine ⟨fun member => (List.destutter_sublist _ keys).subset member, ?_⟩
  cases keys with
  | nil => exact id
  | cons first rest =>
      rw [List.destutter_cons']
      induction rest generalizing first with
      | nil => exact id
      | cons second others induction =>
          intro member
          by_cases same : first = second
          · rw [List.destutter'_cons_neg _ (fun different => different same)]
            refine induction first ?_
            rcases List.mem_cons.mp member with rfl | later
            · exact List.mem_cons_self
            · exact same ▸ later
          · rw [List.destutter'_cons_pos _ same]
            rcases List.mem_cons.mp member with rfl | later
            · exact List.mem_cons_self
            · exact List.mem_cons_of_mem _ (induction second later)

@[simp] theorem mem_distinct [LinearOrder Key] {key : Key} {keys : List Key} :
    key ∈ distinct keys ↔ key ∈ keys := by
  rw [distinct, mem_destutter_ne, List.mem_insertionSort]

end Relational
