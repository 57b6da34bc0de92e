import Mathlib.Algebra.Group.Nat.Defs
import Mathlib.Algebra.Ring.Int.Defs
import Loontail.Relational.Paging

/-! # Paginated listings

A listing clamps the number of the page, multiplies it out to an offset and answers with the
rows from there on. -/

namespace Loontail

open Relational

variable {Row Rank : Type}

/-- A table of the database has fewer than 2^32 blocks, and fewer than 2^9 rows in each. -/
structure Contents {Key : Type} (key : Row → Key) where
  rows : List Row
  keysUnique : (rows.map key).Nodup
  bounded : rows.length < 2 ^ 41

structure PageMeta where
  page : Int64
  pageSize : Int64
  total : Int64
  pageCount : Int64
  deriving DecidableEq

structure Listing (Row : Type) where
  data : List Row
  pageMeta : PageMeta
  deriving DecidableEq

/-- `page.max(1)`, and the rows of the pages before it. -/
def pageOffset (size page : Int64) : Int64 := (max page 1 - 1) * size

/-- `LIMIT … OFFSET …`, which the database refuses for a negative offset. -/
def limitOffset (limit offset : Int64) (rows : List Row) : Option (List Row) :=
  if offset < 0 then none else some (slice limit.toInt.toNat offset.toInt.toNat rows)

/-- The query for a page and the query for the number of all rows, over one selection. -/
def listPage [LE Rank] {rank : Row → Rank} (size : Int64) (pageCount : Int64 → Int64)
    (selected : List Row) (arrangement : Arrangement rank) (page : Int64) : Option (Listing Row) :=
  let total := Int64.ofNat selected.length
  (limitOffset size (pageOffset size page) (arrangement.order selected)).map fun data =>
    ⟨data, ⟨max page 1, size, total, pageCount total⟩⟩

/-! ## Offsets -/

def SafeOffset (size page offset : Int64) : Prop :=
  offset.toInt = (max page.toInt 1 - 1) * size.toInt ∧ 0 ≤ offset.toInt

theorem toInt_max_one (page : Int64) : (max page 1).toInt = max page.toInt 1 := by
  have one : (1 : Int64).toInt = 1 := rfl
  change (if page ≤ 1 then (1 : Int64) else page).toInt = _
  split
  · rename_i low
    rw [Int64.le_iff_toInt_le, one] at low
    omega
  · rename_i high
    rw [Int64.le_iff_toInt_le, one] at high
    omega

theorem toInt_pageOffset (size page : Int64) : (pageOffset size page).toInt =
    ((max page.toInt 1 - 1) * size.toInt).bmod (2 ^ 64) := by
  have upper := page.toInt_lt
  have one : (1 : Int64).toInt = 1 := rfl
  have less : (max page 1 - 1).toInt = max page.toInt 1 - 1 := by
    rw [Int64.toInt_sub, toInt_max_one, one]
    exact Int.bmod_eq_of_le (by omega) (by omega)
  rw [pageOffset, Int64.toInt_mul, less]

/-- Pages up to a bound have safe offsets, and the pages behind it do not. -/
theorem safeOffset_iff {size page : Int64} (positive : 0 < size.toInt) :
    SafeOffset size page (pageOffset size page) ↔
      max page.toInt 1 - 1 ≤ (2 ^ 63 - 1) / size.toInt := by
  rw [SafeOffset, toInt_pageOffset, Int.le_ediv_iff_mul_le positive]
  have low : 0 ≤ (max page.toInt 1 - 1) * size.toInt :=
    Int.mul_nonneg (by omega) positive.le
  constructor
  · rintro ⟨same, -⟩
    have bound : ((max page.toInt 1 - 1) * size.toInt).bmod (2 ^ 64) < ((2 ^ 64 : Nat) + 1) / 2 :=
      Int.bmod_lt (by decide)
    omega
  · intro small
    rw [Int.bmod_eq_of_le (by omega) (by omega)]
    exact ⟨rfl, low⟩

theorem toInt_ceil {size : Int64} {width length : Nat} (whole : size.toInt = width)
    (positive : 0 < width) (narrow : width < 2 ^ 20) (bounded : length < 2 ^ 41) :
    ((Int64.ofNat length + size - 1) / size).toInt = ((length + width - 1) / width : Nat) := by
  have one : (1 : Int64).toInt = 1 := rfl
  have sum : (Int64.ofNat length + size - 1).toInt = ((length + width - 1 : Nat) : Int) := by
    have inner : ((length : Int) + width).bmod (2 ^ 64) = length + width :=
      Int.bmod_eq_of_le (by omega) (by omega)
    rw [Int64.toInt_sub, Int64.toInt_add, Int64.toInt_ofNat_of_lt (by omega), whole, one, inner,
      Int.bmod_eq_of_le (by omega) (by omega)]
    omega
  have less : (length + width - 1) / width ≤ length + width - 1 := Nat.div_le_self _ _
  rw [Int64.toInt_div, sum, whole, ← Int.ofNat_tdiv]
  generalize (length + width - 1) / width = quotient at less ⊢
  exact Int.bmod_eq_of_le (by omega) (by omega)

/-! ## Pages that partition their selection -/

/-- The first page says how many there are. Together they list each selected row once, in
whichever order the database has the rows at each query. -/
def Partitioned [LE Rank] {rank : Row → Rank}
    (request : Arrangement rank → Int64 → Option (Listing Row)) (selected : List Row) : Prop :=
  ∀ executions : Nat → Arrangement rank, ∃ first, request (executions 0) 1 = some first ∧
    ∃ answers : List (Listing Row),
      (List.range first.pageMeta.pageCount.toInt.toNat).map
          (fun index => request (executions index) (Int64.ofNat (index + 1))) =
        answers.map some ∧
      (answers.flatMap (·.data)).Perm selected

section Partition

variable [LinearOrder Rank] {rank : Row → Rank} {size : Int64} {pageCount : Int64 → Int64}
  {selected : List Row} {count : Nat}

def pageAfter (size : Int64) (pageCount : Int64 → Int64) (selected : List Row)
    (arrangement : Arrangement rank) (index : Nat) : Listing Row where
  data := slice size.toInt.toNat (index * size.toInt.toNat) (arrangement.order selected)
  pageMeta := ⟨max (Int64.ofNat (index + 1)) 1, size, Int64.ofNat selected.length,
    pageCount (Int64.ofNat selected.length)⟩

theorem listPage_eq (positive : 0 < size.toInt) (arrangement : Arrangement rank) {index : Nat}
    (small : index * size.toInt.toNat < 2 ^ 41) :
    listPage size pageCount selected arrangement (Int64.ofNat (index + 1)) =
      some (pageAfter size pageCount selected arrangement index) := by
  obtain ⟨width, whole⟩ := Int.eq_ofNat_of_zero_le positive.le
  rw [whole, Int.toNat_natCast] at small
  have wide : 1 ≤ width := by omega
  have below : index ≤ index * width := Nat.le_mul_of_pos_right index wide
  have page : (Int64.ofNat (index + 1)).toInt = ((index + 1 : Nat) : Int) :=
    Int64.toInt_ofNat_of_lt (by omega)
  have offset : (pageOffset size (Int64.ofNat (index + 1))).toInt =
      ((index * width : Nat) : Int) := by
    have same : max ((index + 1 : Nat) : Int) 1 - 1 = (index : Int) := by omega
    rw [toInt_pageOffset, page, whole, same, ← Int.natCast_mul]
    exact Int.bmod_eq_of_le (by omega) (by omega)
  have zero : (0 : Int64).toInt = 0 := rfl
  have safe : ¬pageOffset size (Int64.ofNat (index + 1)) < 0 := by
    rw [Int64.lt_iff_toInt_lt, offset, zero]
    omega
  rw [listPage, limitOffset, if_neg safe, offset, pageAfter, whole, Int.toNat_natCast,
    Int.toNat_natCast]
  rfl

theorem partitioned_listPage_iff (positive : 0 < size.toInt) (distinct : selected.Nodup)
    (bounded : selected.length < 2 ^ 41)
    (counted : (pageCount (Int64.ofNat selected.length)).toInt = count)
    (enough : selected.length ≤ count * size.toInt.toNat)
    (tight : ∀ index < count, index * size.toInt.toNat ≤ selected.length) :
    Partitioned (fun arrangement : Arrangement rank =>
        listPage size pageCount selected arrangement) selected ↔
      ¬Straddled rank size.toInt.toNat selected := by
  have first : ∀ arrangement : Arrangement rank,
      listPage size pageCount selected arrangement 1 =
        some (pageAfter size pageCount selected arrangement 0) := fun arrangement =>
    listPage_eq positive arrangement (by rw [Nat.zero_mul]; decide)
  rw [← pages_perm_iff distinct enough]
  refine forall_congr' fun executions => ?_
  have asked : (List.range count).map (fun index =>
      listPage size pageCount selected (executions index) (Int64.ofNat (index + 1))) =
        ((List.range count).map fun index =>
          pageAfter size pageCount selected (executions index) index).map some := by
    rw [List.map_map]
    refine List.map_congr_left fun index among => ?_
    exact listPage_eq positive _
      (Nat.lt_of_le_of_lt (tight index (List.mem_range.mp among)) bounded)
  have pageCount_first : ∀ arrangement : Arrangement rank,
      (pageAfter size pageCount selected arrangement 0).pageMeta.pageCount.toInt.toNat = count := by
    intro arrangement
    rw [pageAfter, counted, Int.toNat_natCast]
  constructor
  · rintro ⟨answer, answered, answers, same, perm⟩
    have known := Option.some.inj ((first (executions 0)).symm.trans answered)
    rw [← known, pageCount_first, asked] at same
    rw [← List.map_injective_iff.mpr (Option.some_injective _) same, List.flatMap_map] at perm
    exact perm
  · intro perm
    refine ⟨_, first _, (List.range count).map fun index =>
      pageAfter size pageCount selected (executions index) index, ?_, ?_⟩
    · rw [pageCount_first]
      exact asked
    · rw [List.flatMap_map]
      exact perm

end Partition

end Loontail
