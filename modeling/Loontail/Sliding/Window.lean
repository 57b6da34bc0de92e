import Mathlib.Order.Basic
import Mathlib.Data.List.Sort

/-! # Sliding windows

A bucket holds the times at which attempts were admitted, oldest first. Times
leave it from the front once the window has moved past them. -/

namespace Sliding

variable {Time : Type} [LinearOrder Time]

def prune (cutoff : Time) (times : List Time) : List Time :=
  times.dropWhile (· ≤ cutoff)

def live (cutoff : Time) (times : List Time) : Nat :=
  times.countP (cutoff < ·)

/-- One attempt at `now`: prune, then admit it if fewer than `max` times are left. -/
def attempt (max : Nat) (cutoff now : Time) (times : List Time) : Bool × List Time :=
  let pruned := prune cutoff times
  if max ≤ pruned.length then (false, pruned) else (true, pruned ++ [now])

/-- In order, and nothing after `clock`. -/
structure Tidy (clock : Time) (times : List Time) : Prop where
  ordered : times.Pairwise (· ≤ ·)
  past : ∀ time ∈ times, time ≤ clock

theorem prune_sublist (cutoff : Time) (times : List Time) :
    (prune cutoff times).Sublist times :=
  List.dropWhile_sublist _

theorem prune_eq_filter {cutoff : Time} {times : List Time}
    (ordered : times.Pairwise (· ≤ ·)) :
    prune cutoff times = times.filter (cutoff < ·) := by
  induction times with
  | nil => rfl
  | cons time rest induction =>
      rw [List.pairwise_cons] at ordered
      by_cases old : time ≤ cutoff
      · simpa [prune, old, not_lt.mpr old] using induction ordered.2
      · have later : ∀ other ∈ rest, cutoff < other := fun other member =>
          lt_of_lt_of_le (not_le.mp old) (ordered.1 other member)
        have kept : rest.filter (cutoff < ·) = rest :=
          List.filter_eq_self.mpr fun other member => by simpa using later other member
        simp [prune, old, not_le.mp old, kept]

theorem length_prune {cutoff : Time} {times : List Time}
    (ordered : times.Pairwise (· ≤ ·)) :
    (prune cutoff times).length = live cutoff times := by
  rw [prune_eq_filter ordered, live, List.countP_eq_length_filter]

@[simp] theorem live_nil (cutoff : Time) : live cutoff [] = 0 := rfl

@[simp] theorem live_append (cutoff : Time) (left right : List Time) :
    live cutoff (left ++ right) = live cutoff left + live cutoff right :=
  List.countP_append

@[simp] theorem live_cons (cutoff time : Time) (times : List Time) :
    live cutoff (time :: times) = live cutoff times + if cutoff < time then 1 else 0 := by
  simp [live, List.countP_cons]

theorem live_eq_zero {cutoff : Time} {times : List Time}
    (stale : ∀ time ∈ times, time ≤ cutoff) : live cutoff times = 0 := by
  rw [live, List.countP_eq_zero]
  intro time member
  simpa using stale time member

/-- What pruning drops stays outside every later window. -/
theorem live_prune {cutoff later : Time} (moved : cutoff ≤ later) (times : List Time) :
    live later (prune cutoff times) = live later times := by
  induction times with
  | nil => rfl
  | cons time rest induction =>
      by_cases old : time ≤ cutoff
      · have outside : ¬later < time := not_lt.mpr (le_trans old moved)
        have dropped : prune cutoff (time :: rest) = prune cutoff rest := by
          simp [prune, old]
        rw [dropped, induction, live_cons, if_neg outside, Nat.add_zero]
      · simp [prune, old]

theorem le_of_getLast? {times : List Time} (ordered : times.Pairwise (· ≤ ·))
    {newest : Time} (last : times.getLast? = some newest) :
    ∀ time ∈ times, time ≤ newest := by
  rcases List.getLast?_eq_some_iff.mp last with ⟨earlier, rfl⟩
  intro time member
  rcases List.mem_append.mp member with before | final
  · exact (List.pairwise_append.mp ordered).2.2 time before newest (by simp)
  · rw [List.mem_singleton.mp final]

theorem getLast?_prune {cutoff : Time} {times : List Time}
    (nonempty : prune cutoff times ≠ []) :
    (prune cutoff times).getLast? = times.getLast? := by
  have suffix : prune cutoff times <:+ times := List.dropWhile_suffix _
  rcases suffix with ⟨dropped, split⟩
  have ends := List.getLast?_append_of_ne_nil dropped nonempty
  rw [split] at ends
  exact ends.symm

namespace Tidy

theorem nil (clock : Time) : Tidy clock [] := ⟨.nil, by simp⟩

theorem later {clock now : Time} {times : List Time} (tidy : Tidy clock times)
    (passed : clock ≤ now) : Tidy now times :=
  ⟨tidy.ordered, fun time member => le_trans (tidy.past time member) passed⟩

theorem prune {clock : Time} {times : List Time} (tidy : Tidy clock times)
    (cutoff : Time) : Tidy clock (prune cutoff times) :=
  ⟨tidy.ordered.sublist (prune_sublist cutoff times),
    fun time member => tidy.past time ((prune_sublist cutoff times).subset member)⟩

theorem concat {now : Time} {times : List Time} (tidy : Tidy now times) :
    Tidy now (times ++ [now]) := by
  constructor
  · rw [List.pairwise_append]
    refine ⟨tidy.ordered, List.pairwise_singleton _ _, ?_⟩
    intro time member last isLast
    rw [List.mem_singleton.mp isLast]
    exact tidy.past time member
  · intro time member
    rcases List.mem_append.mp member with earlier | last
    · exact tidy.past time earlier
    · exact le_of_eq (List.mem_singleton.mp last)

theorem attempt {now : Time} {times : List Time} (tidy : Tidy now times)
    (max : Nat) (cutoff : Time) : Tidy now (attempt max cutoff now times).2 := by
  rw [Sliding.attempt]
  split
  · exact tidy.prune cutoff
  · exact (tidy.prune cutoff).concat

end Tidy

/-! ## What an attempt does to its bucket -/

theorem attempt_admits {max : Nat} {cutoff now : Time} {times : List Time}
    (ordered : times.Pairwise (· ≤ ·)) :
    (attempt max cutoff now times).1 = decide (live cutoff times < max) := by
  rw [← length_prune ordered, attempt]
  split <;> simp <;> omega

theorem live_attempt {max : Nat} {cutoff now later : Time} (moved : cutoff ≤ later)
    (times : List Time) :
    live later (attempt max cutoff now times).2 =
      live later times +
        if (attempt max cutoff now times).1 && later < now then 1 else 0 := by
  rw [attempt]
  split
  · simp [live_prune moved]
  · simp [live_prune moved]

theorem length_attempt {max : Nat} {cutoff now : Time} {times : List Time}
    (within : times.length ≤ max) : (attempt max cutoff now times).2.length ≤ max := by
  have shorter := (prune_sublist cutoff times).length_le
  rw [attempt]
  split
  · exact le_trans shorter within
  · rw [List.length_append, List.length_singleton]
    omega

/-- With a positive bound the bucket ends with the newest admitted attempt. -/
theorem getLast?_attempt {max : Nat} {cutoff now : Time} {times : List Time}
    (positive : 1 ≤ max) :
    (attempt max cutoff now times).2.getLast? =
      if (attempt max cutoff now times).1 then some now else times.getLast? := by
  rw [attempt]
  split
  · rename_i full
    have nonempty : prune cutoff times ≠ [] := by
      intro empty
      rw [empty, List.length_nil] at full
      omega
    simpa using getLast?_prune nonempty
  · simp

end Sliding
