import Mathlib.Data.List.AList
import Mathlib.Data.List.Perm.Subperm

/-! # Maps that forget keys

A finite map from keys to values, entries of which are dropped by a predicate or
by how they rank. -/

namespace Sliding

abbrev Keyed (Key Value : Type) := AList fun _ : Key => Value

namespace Keyed

variable {Key Value Rank : Type}

/-- `len`. -/
def size (map : Keyed Key Value) : Nat := map.entries.length

theorem length_keys (map : Keyed Key Value) : map.keys.length = map.size :=
  List.length_map _

theorem size_le {map : Keyed Key Value} {keys : List Key}
    (among : ∀ key ∈ map, key ∈ keys) : map.size ≤ keys.length := by
  rw [← length_keys]
  exact (map.keys_nodup.subperm fun key member => among key member).length_le

/-- `retain`. -/
def retain (keeps : Key → Value → Bool) (map : Keyed Key Value) : Keyed Key Value where
  entries := map.entries.filter fun entry => keeps entry.1 entry.2
  nodupKeys := map.nodupKeys.sublist List.filter_sublist

theorem size_retain (keeps : Key → Value → Bool) (map : Keyed Key Value) :
    (map.retain keeps).size ≤ map.size :=
  List.length_filter_le _ _

/-- The `count` entries that come first in the order `before` of their ranks. -/
def first (before : Rank × Key → Rank × Key → Bool) (rank : Value → Rank) (count : Nat)
    (map : Keyed Key Value) : List Key :=
  (((map.entries.map fun entry => (rank entry.2, entry.1)).mergeSort before).take
    count).map (·.2)

theorem first_nodup (before : Rank × Key → Rank × Key → Bool) (rank : Value → Rank)
    (count : Nat) (map : Keyed Key Value) : (map.first before rank count).Nodup := by
  have sorted : ((map.entries.map fun entry => (rank entry.2, entry.1)).mergeSort
      before).Perm (map.entries.map fun entry => (rank entry.2, entry.1)) :=
    List.mergeSort_perm _ _
  have keys := sorted.map (·.2)
  rw [List.map_map] at keys
  have unique : ((map.entries.map fun entry => (rank entry.2, entry.1)).mergeSort
      before |>.map (·.2)).Nodup := keys.nodup_iff.mpr map.keys_nodup
  exact unique.sublist ((List.take_sublist _ _).map _)

theorem length_first {before : Rank × Key → Rank × Key → Bool} {rank : Value → Rank}
    {count : Nat} {map : Keyed Key Value} (within : count ≤ map.size) :
    (map.first before rank count).length = count := by
  rw [first, List.length_map, List.length_take, List.length_mergeSort, List.length_map]
  exact min_eq_left within

variable [DecidableEq Key]

theorem lookup_eq_some {map : Keyed Key Value} {key : Key} {value : Value} :
    map.lookup key = some value ↔ ⟨key, value⟩ ∈ map.entries :=
  AList.mem_lookup_iff

theorem mem_of_lookup {map : Keyed Key Value} {key : Key} {value : Value}
    (found : map.lookup key = some value) : key ∈ map :=
  AList.lookup_isSome.mp (by rw [found]; rfl)

theorem lookup_of_mem {map : Keyed Key Value} {key : Key} (member : key ∈ map) :
    ∃ value, map.lookup key = some value :=
  Option.isSome_iff_exists.mp (AList.lookup_isSome.mpr member)

theorem lookup_retain {keeps : Key → Value → Bool} {map : Keyed Key Value} {key : Key}
    {value : Value} :
    (map.retain keeps).lookup key = some value ↔
      map.lookup key = some value ∧ keeps key value = true := by
  rw [lookup_eq_some, lookup_eq_some, retain, List.mem_filter]

theorem size_insert_of_mem {map : Keyed Key Value} {key : Key} (member : key ∈ map)
    (value : Value) : size (map.insert key value) = map.size := by
  have present : key ∈ map.keys := member
  have positive : 0 < map.keys.length := List.length_pos_of_mem present
  rw [← length_keys, ← length_keys, AList.keys_insert, List.length_cons,
    List.length_erase_of_mem present]
  omega

theorem size_insert_le (map : Keyed Key Value) (key : Key) (value : Value) :
    size (map.insert key value) ≤ map.size + 1 := by
  rw [← length_keys, ← length_keys, AList.keys_insert, List.length_cons]
  exact Nat.succ_le_succ List.length_erase_le

/-- `remove`, for each of the keys. -/
def eraseAll (keys : List Key) (map : Keyed Key Value) : Keyed Key Value :=
  keys.foldl (fun map key => map.erase key) map

theorem lookup_eraseAll (keys : List Key) (map : Keyed Key Value) (key : Key) :
    (map.eraseAll keys).lookup key = if key ∈ keys then none else map.lookup key := by
  induction keys generalizing map with
  | nil => rfl
  | cons head rest induction =>
      have erased := induction (map.erase head)
      by_cases same : key = head
      · subst same
        simp only [eraseAll, List.foldl_cons, List.mem_cons, true_or, if_true] at erased ⊢
        rw [erased, AList.lookup_erase, ite_self]
      · simp only [eraseAll, List.foldl_cons, List.mem_cons, same, false_or] at erased ⊢
        rw [erased, AList.lookup_erase_ne same]

theorem mem_eraseAll {keys : List Key} {map : Keyed Key Value} {key : Key} :
    key ∈ map.eraseAll keys ↔ key ∉ keys ∧ key ∈ map := by
  rw [← AList.lookup_isSome, ← AList.lookup_isSome, lookup_eraseAll]
  split <;> simp_all

theorem size_eraseAll {keys : List Key} {map : Keyed Key Value} (distinct : keys.Nodup)
    (present : ∀ key ∈ keys, key ∈ map) :
    (map.eraseAll keys).size = map.size - keys.length := by
  induction keys generalizing map with
  | nil => rfl
  | cons head rest induction =>
      rw [List.nodup_cons] at distinct
      have remaining : ∀ key ∈ rest, key ∈ map.erase head := by
        intro key member
        rw [AList.mem_erase]
        exact ⟨fun same => distinct.1 (same ▸ member), present key (.tail _ member)⟩
      have shorter : size (map.erase head) = map.size - 1 := by
        rw [← length_keys, ← length_keys, AList.keys_erase,
          List.length_erase_of_mem (present head (.head _))]
      have erased := induction distinct.2 remaining
      rw [shorter] at erased
      rw [List.length_cons, Nat.add_comm, Nat.sub_add_eq]
      exact erased

/-! ## The entries that rank first -/

section First

variable {before : Rank × Key → Rank × Key → Bool} {rank : Value → Rank} {count : Nat}
  {map : Keyed Key Value}

theorem mem_of_mem_first {key : Key} (member : key ∈ map.first before rank count) :
    ∃ value, map.lookup key = some value ∧
      (rank value, key) ∈ ((map.entries.map fun entry =>
        (rank entry.2, entry.1)).mergeSort before).take count := by
  rcases List.mem_map.mp member with ⟨⟨place, key⟩, taken, rfl⟩
  have listed := List.mem_of_mem_take taken
  rw [List.mem_mergeSort] at listed
  rcases List.mem_map.mp listed with ⟨⟨owner, value⟩, entry, equal⟩
  cases equal
  exact ⟨value, lookup_eq_some.mpr entry, taken⟩

theorem before_of_first (transitive : ∀ a b c, before a b → before b c → before a c)
    (total : ∀ a b, (before a b || before b a) = true) {key other : Key} {value : Value}
    (ranked : key ∈ map.first before rank count)
    (unranked : other ∉ map.first before rank count)
    (found : map.lookup other = some value) :
    ∃ own, map.lookup key = some own ∧ before (rank own, key) (rank value, other) := by
  rcases mem_of_mem_first ranked with ⟨own, ownFound, taken⟩
  refine ⟨own, ownFound, ?_⟩
  have listed : (rank value, other) ∈ (map.entries.map fun entry =>
      (rank entry.2, entry.1)).mergeSort before := by
    rw [List.mem_mergeSort]
    exact List.mem_map.mpr ⟨⟨other, value⟩, lookup_eq_some.mp found, rfl⟩
  rw [← List.take_append_drop count (List.mergeSort _ before)] at listed
  rcases List.mem_append.mp listed with early | late
  · exact absurd (List.mem_map.mpr ⟨_, early, rfl⟩) unranked
  · have sorted := List.pairwise_mergeSort transitive total
      (map.entries.map fun entry => (rank entry.2, entry.1))
    rw [← List.take_append_drop count (List.mergeSort _ before),
      List.pairwise_append] at sorted
    exact sorted.2.2 _ taken _ late

end First

end Keyed

end Sliding
