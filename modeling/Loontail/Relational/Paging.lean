import Mathlib.Data.List.Perm.Basic
import Loontail.Relational.Grouping

/-! # Pages of a selection

Every page of a sorted selection is read by a query of its own. Rows of one rank stand in any
order, and in another one at every query. -/

namespace Relational

variable {Row Rank : Type}

/-- `LIMIT … OFFSET …`. -/
def slice (limit offset : Nat) (rows : List Row) : List Row := (rows.drop offset).take limit

/-- How the execution of one query orders rows. -/
structure Arrangement [LE Rank] (rank : Row → Rank) where
  order : List Row → List Row
  perm : ∀ rows, (order rows).Perm rows
  sorted : ∀ rows, (order rows).Pairwise fun left right => rank left ≤ rank right

def pages [LE Rank] {rank : Row → Rank} (size count : Nat) (executions : Nat → Arrangement rank)
    (rows : List Row) : List Row :=
  (List.range count).flatMap fun page => slice size (page * size) ((executions page).order rows)

def Straddled [LinearOrder Rank] (rank : Row → Rank) (size : Nat) (rows : List Row) : Prop :=
  ∃ row ∈ rows, ∃ page,
    rows.countP (fun other => decide (rank other < rank row)) < page * size ∧
      page * size < rows.countP fun other => decide (rank other ≤ rank row)

section Sorted

variable [LinearOrder Rank] {rank : Row → Rank} {rows sorted : List Row}

theorem filter_append_filter_not (below : Rank → Bool)
    (closed : ∀ left right, left ≤ right → below right = true → below left = true)
    (ordered : sorted.Pairwise fun left right => rank left ≤ rank right) :
    (sorted.filter fun row => below (rank row)) ++
      (sorted.filter fun row => !below (rank row)) = sorted := by
  induction sorted with
  | nil => rfl
  | cons row rest induction =>
      obtain ⟨least, ordered⟩ := List.pairwise_cons.mp ordered
      cases low : below (rank row) with
      | true =>
          simp only [List.filter_cons, low, if_true, Bool.not_true, Bool.false_eq_true, if_false,
            List.cons_append, induction ordered]
      | false =>
          have high : ∀ later ∈ rest, below (rank later) = false := by
            intro later member
            rw [Bool.eq_false_iff]
            intro lower
            exact Bool.false_ne_true (low.symm.trans (closed _ _ (least later member) lower))
          have none : (rest.filter fun row => below (rank row)) = [] :=
            List.filter_eq_nil_iff.mpr fun later member => by simp [high later member]
          have all : (rest.filter fun row => !below (rank row)) = rest :=
            List.filter_eq_self.mpr fun later member => by simp [high later member]
          simp [low, none, all]

section Border

variable (below : Rank → Bool)
  (closed : ∀ left right, left ≤ right → below right = true → below left = true)
  (ordered : sorted.Pairwise fun left right => rank left ≤ rank right) (perm : sorted.Perm rows)
include closed ordered perm

theorem take_countP : sorted.take (rows.countP fun row => below (rank row)) =
    sorted.filter fun row => below (rank row) := by
  have size : (sorted.filter fun row => below (rank row)).length =
      rows.countP fun row => below (rank row) := by
    rw [← List.countP_eq_length_filter]
    exact perm.countP_eq _
  conv_lhs => rw [← filter_append_filter_not below closed ordered]
  exact List.take_left' size

theorem drop_countP : sorted.drop (rows.countP fun row => below (rank row)) =
    sorted.filter fun row => !below (rank row) := by
  have size : (sorted.filter fun row => below (rank row)).length =
      rows.countP fun row => below (rank row) := by
    rw [← List.countP_eq_length_filter]
    exact perm.countP_eq _
  conv_lhs => rw [← filter_append_filter_not below closed ordered]
  exact List.drop_left' size

theorem lt_countP_iff {position : Nat} {row : Row} (here : sorted[position]? = some row) :
    position < (rows.countP fun row => below (rank row)) ↔ below (rank row) = true := by
  constructor
  · intro early
    have member : row ∈ sorted.take (rows.countP fun row => below (rank row)) := by
      refine List.mem_of_getElem? (?_ : _[position]? = some row)
      rw [List.getElem?_take_of_lt early, here]
    rw [take_countP below closed ordered perm] at member
    exact (List.mem_filter.mp member).2
  · intro low
    by_contra late
    have member : row ∈ sorted.drop (rows.countP fun row => below (rank row)) := by
      refine List.mem_of_getElem?
        (?_ : _[position - rows.countP fun row => below (rank row)]? = some row)
      rw [List.getElem?_drop, Nat.add_sub_cancel' (Nat.not_lt.mp late), here]
    rw [drop_countP below closed ordered perm, List.mem_filter, low] at member
    exact Bool.false_ne_true member.2

end Border

theorem closed_lt (border : Rank) (left right : Rank) (less : left ≤ right)
    (low : decide (right < border) = true) : decide (left < border) = true :=
  decide_eq_true (less.trans_lt (of_decide_eq_true low))

theorem closed_le (border : Rank) (left right : Rank) (less : left ≤ right)
    (low : decide (right ≤ border) = true) : decide (left ≤ border) = true :=
  decide_eq_true (less.trans (of_decide_eq_true low))

/-- Up to a position that parts no rows of one rank, every order has the same rows. -/
theorem take_perm {other : List Row} {position : Nat}
    (ordered : sorted.Pairwise fun left right => rank left ≤ rank right)
    (perm : sorted.Perm rows)
    (otherOrdered : other.Pairwise fun left right => rank left ≤ rank right)
    (otherPerm : other.Perm rows)
    (parts : ∀ row ∈ rows, rows.countP (fun other => decide (rank other < rank row)) < position →
      rows.countP (fun other => decide (rank other ≤ rank row)) ≤ position) :
    (sorted.take position).Perm (other.take position) := by
  rcases here : sorted[position]? with _ | row
  · have whole : rows.length ≤ position := by
      rw [← perm.length_eq]
      exact List.getElem?_eq_none_iff.mp here
    rw [List.take_of_length_le (by rwa [perm.length_eq]),
      List.take_of_length_le (by rwa [otherPerm.length_eq])]
    exact perm.trans otherPerm.symm
  · have member := perm.mem_iff.mp (List.mem_of_getElem? here)
    have upto := (lt_countP_iff _ (closed_le (rank row)) ordered perm here).mpr
      (decide_eq_true le_rfl)
    have behind : ¬position < rows.countP fun other => decide (rank other < rank row) := fun early =>
      lt_irrefl _ (of_decide_eq_true
        ((lt_countP_iff _ (closed_lt (rank row)) ordered perm here).mp early))
    have size : rows.countP (fun other => decide (rank other < rank row)) = position := by
      refine Nat.le_antisymm (Nat.not_lt.mp behind) (Nat.not_lt.mp fun inside => ?_)
      exact Nat.not_le.mpr upto (parts row member inside)
    rw [← size, take_countP _ (closed_lt (rank row)) ordered perm,
      take_countP _ (closed_lt (rank row)) otherOrdered otherPerm]
    exact (perm.trans otherPerm.symm).filter _

theorem sorted_parts (border : Rank)
    (ordered : sorted.Pairwise fun left right => rank left ≤ rank right) :
    sorted = (sorted.filter fun row => decide (rank row < border)) ++
      ((sorted.filter fun row => decide (rank row = border)) ++
        sorted.filter fun row => decide (border < rank row)) := by
  have behind := filter_append_filter_not _ (closed_lt border) ordered
  have least : (sorted.filter fun row => !decide (rank row < border)).Pairwise
      fun left right => rank left ≤ rank right := ordered.sublist List.filter_sublist
  have rest := filter_append_filter_not _ (closed_le border) least
  rw [List.filter_filter, List.filter_filter] at rest
  conv_lhs => rw [← behind, ← rest]
  congr 2
  · refine List.filter_congr fun row _ => ?_
    rw [← decide_not, ← Bool.decide_and, decide_eq_decide, not_lt]
    exact le_antisymm_iff.symm
  · refine List.filter_congr fun row _ => ?_
    rw [← decide_not, ← decide_not, ← Bool.decide_and, decide_eq_decide, not_lt, not_le]
    exact ⟨fun both => both.1, fun above => ⟨above, above.le⟩⟩

end Sorted

/-! ## Whether the pages partition the selection -/

theorem flatMap_slice (size start count : Nat) (rows : List Row) :
    ((List.range' start count).flatMap fun page => slice size (page * size) rows) =
      slice (count * size) (start * size) rows := by
  induction count generalizing start with
  | zero => simp [slice]
  | succ count induction =>
      rw [List.range'_succ, List.flatMap_cons, induction]
      simp only [slice]
      rw [Nat.add_mul, Nat.add_mul, Nat.one_mul, Nat.add_comm (count * size) size, List.take_add,
        List.drop_drop]

section Partition

variable [LinearOrder Rank] {rank : Row → Rank} {rows : List Row} {size count : Nat}

/-- Where no end of a page is straddled, every row is on one page. -/
theorem pages_perm (executions : Nat → Arrangement rank) (enough : rows.length ≤ count * size)
    (apart : ¬Straddled rank size rows) : (pages size count executions rows).Perm rows := by
  have first := executions 0
  have alike : ∀ page, (slice size (page * size) ((executions page).order rows)).Perm
      (slice size (page * size) (first.order rows)) := by
    intro page
    have parts : ∀ page, ∀ row ∈ rows,
        rows.countP (fun other => decide (rank other < rank row)) < page * size →
          rows.countP (fun other => decide (rank other ≤ rank row)) ≤ page * size := by
      intro page row member inside
      by_contra behind
      exact apart ⟨row, member, page, inside, Nat.not_le.mp behind⟩
    have both : ∀ stop, (((executions page).order rows).take (stop * size)).Perm
        ((first.order rows).take (stop * size)) := fun stop =>
      take_perm ((executions page).sorted rows) ((executions page).perm rows)
        (first.sorted rows) (first.perm rows) (parts stop)
    have whole := both (page + 1)
    rw [Nat.add_mul, Nat.one_mul, List.take_add, List.take_add] at whole
    exact (List.perm_append_left_iff _).mp (((both page).symm.append_right _).trans whole)
  have flat : (pages size count executions rows).Perm
      ((List.range count).flatMap fun page => slice size (page * size) (first.order rows)) :=
    List.Perm.flatMap_left _ fun page _ => alike page
  rw [List.range_eq_range', flatMap_slice, slice, Nat.zero_mul, List.drop_zero,
    List.take_of_length_le (by rwa [(first.perm rows).length_eq])] at flat
  exact flat.trans (first.perm rows)

def Arrangement.stable : Arrangement rank where
  order := orderBy rank
  perm := orderBy_perm rank
  sorted := orderBy_pairwise rank

def Arrangement.reversed : Arrangement rank where
  order rows := orderBy rank rows.reverse
  perm rows := (orderBy_perm rank rows.reverse).trans rows.reverse_perm
  sorted rows := orderBy_pairwise rank rows.reverse

theorem filter_orderBy_tied (border : Rank) (rows : List Row) :
    ((orderBy rank rows).filter fun row => decide (rank row = border)) =
      rows.filter fun row => decide (rank row = border) := by
  rw [filter_orderBy]
  refine List.Pairwise.insertionSort_eq (List.pairwise_of_forall_mem_list ?_)
  intro left among right other
  exact le_of_eq ((of_decide_eq_true (List.mem_filter.mp among).2).trans
    (of_decide_eq_true (List.mem_filter.mp other).2).symm)

theorem countP_le_eq (rank : Row → Rank) (border : Rank) (rows : List Row) :
    rows.countP (fun row => decide (rank row ≤ border)) =
      rows.countP (fun row => decide (rank row < border)) +
        rows.countP fun row => decide (rank row = border) := by
  induction rows with
  | nil => rfl
  | cons row rest induction =>
      simp only [List.countP_cons, induction, decide_eq_true_eq]
      rcases lt_trichotomy (rank row) border with less | same | above
      · rw [if_pos less.le, if_pos less, if_neg less.ne]
        omega
      · rw [if_pos same.le, if_neg same.not_lt, if_pos same]
        omega
      · rw [if_neg above.not_ge, if_neg above.not_gt, if_neg above.ne']
        omega

/-- Up to a page the rows come in one order, from there on in another. -/
theorem pages_switch {page : Nat} (inside : page ≤ count) (enough : rows.length ≤ count * size)
    (before after : Arrangement rank) :
    pages size count (fun index => if index < page then before else after) rows =
      (before.order rows).take (page * size) ++ (after.order rows).drop (page * size) := by
  have early : ∀ index ∈ List.range' 0 page, slice size (index * size)
      ((if index < page then before else after).order rows) =
        slice size (index * size) (before.order rows) := by
    intro index among
    rw [if_pos (by have := List.mem_range'_1.mp among; omega)]
  have late : ∀ index ∈ List.range' page (count - page), slice size (index * size)
      ((if index < page then before else after).order rows) =
        slice size (index * size) (after.order rows) := by
    intro index among
    rw [if_neg (by have := List.mem_range'_1.mp among; omega)]
  have whole : count = page + (count - page) := by omega
  have rest : ((after.order rows).drop (page * size)).length ≤ (count - page) * size := by
    rw [List.length_drop, (after.perm rows).length_eq, Nat.sub_mul]
    omega
  rw [pages, List.range_eq_range', whole, ← List.range'_append_1, List.flatMap_append,
    Nat.zero_add, List.flatMap_congr early, List.flatMap_congr late, flatMap_slice, flatMap_slice,
    slice, slice, Nat.zero_mul, List.drop_zero, List.take_of_length_le rest]

/-- Where an end of a page is straddled, a row can be listed twice. -/
theorem not_nodup_of_straddled (enough : rows.length ≤ count * size)
    (straddled : Straddled rank size rows) :
    ∃ executions : Nat → Arrangement rank, ¬(pages size count executions rows).Nodup := by
  obtain ⟨row, member, page, early, late⟩ := straddled
  have short : page * size < count * size :=
    Nat.lt_of_lt_of_le (Nat.lt_of_lt_of_le late List.countP_le_length) enough
  have inside : page ≤ count := Nat.le_of_lt (Nat.lt_of_mul_lt_mul_right short)
  have sum := countP_le_eq rank (rank row) rows
  obtain ⟨first, more, tied⟩ : ∃ first more,
      (rows.filter fun other => decide (rank other = rank row)) = first :: more :=
    List.exists_cons_of_ne_nil (List.ne_nil_of_mem
      (List.mem_filter.mpr ⟨member, decide_eq_true rfl⟩))
  have many : rows.countP (fun other => decide (rank other = rank row)) = more.length + 1 := by
    rw [List.countP_eq_length_filter, tied, List.length_cons]
  have lower : ∀ {other : List Row}, other.Perm rows →
      (other.filter fun other => decide (rank other < rank row)).length =
        rows.countP fun other => decide (rank other < rank row) := by
    intro other perm
    rw [← List.countP_eq_length_filter]
    exact perm.countP_eq _
  -- the first row of the rank stands before the end of the page in one order and behind it in
  -- the other
  refine ⟨fun index => if index < page then .stable else .reversed, fun distinct => ?_⟩
  rw [pages_switch inside enough] at distinct
  have front : first ∈ (orderBy rank rows).take (page * size) := by
    have parts := sorted_parts (rank row) (orderBy_pairwise rank rows)
    rw [filter_orderBy_tied, tied] at parts
    refine List.mem_of_getElem? (?_ : _[rows.countP fun other =>
      decide (rank other < rank row)]? = some first)
    rw [List.getElem?_take_of_lt early, parts, ← lower (orderBy_perm rank rows),
      List.getElem?_append_right (Nat.le_refl _), Nat.sub_self]
    rfl
  have back : first ∈ (orderBy rank rows.reverse).drop (page * size) := by
    have parts := sorted_parts (rank row) (orderBy_pairwise rank rows.reverse)
    rw [filter_orderBy_tied, List.filter_reverse, tied, List.reverse_cons, List.append_assoc,
      ← List.append_assoc] at parts
    rw [parts, List.drop_append_of_le_length]
    · exact List.mem_append_right _ List.mem_cons_self
    · rw [List.length_append, List.length_reverse, lower ((orderBy_perm rank rows.reverse).trans
        rows.reverse_perm)]
      omega
  exact (List.nodup_append.mp distinct).2.2 first front first back rfl

/-- Whatever order the database chooses, the pages list each row once. -/
theorem pages_perm_iff (distinct : rows.Nodup) (enough : rows.length ≤ count * size) :
    (∀ executions : Nat → Arrangement rank, (pages size count executions rows).Perm rows) ↔
      ¬Straddled rank size rows := by
  constructor
  · intro whole straddled
    obtain ⟨executions, repeated⟩ := not_nodup_of_straddled enough straddled
    exact repeated ((whole executions).nodup_iff.mpr distinct)
  · exact fun apart executions => pages_perm executions enough apart

theorem not_straddled_of_injective (distinct : (rows.map rank).Nodup) :
    ¬Straddled rank size rows := by
  rintro ⟨row, member, page, early, late⟩
  have once : rows.countP (fun other => decide (rank other = rank row)) ≤ 1 := by
    refine Nat.le_trans (Nat.le_of_eq ?_) (List.nodup_iff_count_le_one.mp distinct (rank row))
    rw [List.count, List.countP_map]
    exact List.countP_congr fun other _ => by simp
  have sum := countP_le_eq rank (rank row) rows
  omega

end Partition

end Relational
