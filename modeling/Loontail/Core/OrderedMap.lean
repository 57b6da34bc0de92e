import Mathlib.Data.List.Nodup

/-! # Maps in the order of their insertions -/

structure OrderedMap (Key Value : Type) where
  entries : List (Key × Value)
  distinct : (entries.map Prod.fst).Nodup

namespace OrderedMap

variable {Key Value : Type}

def empty : OrderedMap Key Value := ⟨[], .nil⟩

def keys (map : OrderedMap Key Value) : List Key := map.entries.map Prod.fst

def values (map : OrderedMap Key Value) : List Value := map.entries.map Prod.snd

theorem keys_nodup (map : OrderedMap Key Value) : map.keys.Nodup := map.distinct

variable [DecidableEq Key]

def get (map : OrderedMap Key Value) (key : Key) : Option Value :=
  (map.entries.find? fun entry => entry.1 = key).map Prod.snd

def has (map : OrderedMap Key Value) (key : Key) : Bool := (map.get key).isSome

def modify (map : OrderedMap Key Value) (key : Key) (change : Value → Value) :
    OrderedMap Key Value where
  entries := map.entries.map fun entry => if entry.1 = key then (entry.1, change entry.2) else entry
  distinct := by
    have same : (Prod.fst ∘ fun entry : Key × Value =>
        if entry.1 = key then (entry.1, change entry.2) else entry) = Prod.fst := by
      funext entry
      rw [Function.comp_apply]
      split <;> rfl
    rw [List.map_map, same]
    exact map.distinct

theorem get_eq_none_iff {map : OrderedMap Key Value} {key : Key} :
    map.get key = none ↔ key ∉ map.keys := by
  rw [get, Option.map_eq_none_iff, List.find?_eq_none, keys, List.mem_map]
  constructor
  · rintro other ⟨entry, member, rfl⟩
    exact other entry member (decide_eq_true rfl)
  · intro other entry member same
    exact other ⟨entry, member, of_decide_eq_true same⟩

def set (map : OrderedMap Key Value) (key : Key) (value : Value) : OrderedMap Key Value :=
  if known : key ∈ map.keys then map.modify key fun _ => value
  else
    { entries := map.entries ++ [(key, value)]
      distinct := by
        rw [List.map_append]
        exact List.nodup_append.mpr ⟨map.distinct, List.nodup_singleton _, by
          rintro other member last among rfl
          rw [List.map_singleton, List.mem_singleton] at among
          obtain rfl : other = key := among
          exact known member⟩ }

example : ((empty.set "b" 1 |>.set "a" 2 |>.set "b" 3).entries) = [("b", 3), ("a", 2)] := by
  decide

section Lookup

variable {map : OrderedMap Key Value} {key other : Key} {value : Value}

theorem get_eq_some_iff : map.get key = some value ↔ (key, value) ∈ map.entries := by
  rw [get, Option.map_eq_some_iff]
  constructor
  · rintro ⟨entry, found, rfl⟩
    have same : entry.1 = key := by simpa using List.find?_some found
    rw [← same]
    exact List.mem_of_find?_eq_some found
  · intro member
    have present : (map.entries.find? fun entry => decide (entry.1 = key)).isSome :=
      List.find?_isSome.mpr ⟨_, member, decide_eq_true rfl⟩
    obtain ⟨entry, found⟩ := Option.isSome_iff_exists.mp present
    have same : entry.1 = key := by simpa using List.find?_some found
    have one := List.inj_on_of_nodup_map map.distinct (List.mem_of_find?_eq_some found) member same
    exact ⟨entry, found, congrArg Prod.snd one⟩

theorem mem_keys_iff : key ∈ map.keys ↔ ∃ value, map.get key = some value := by
  rw [← Option.ne_none_iff_exists', ne_eq, get_eq_none_iff, not_not]

theorem mem_values_iff : value ∈ map.values ↔ ∃ key, map.get key = some value := by
  simp only [values, List.mem_map, get_eq_some_iff]
  constructor
  · rintro ⟨⟨key, value⟩, member, rfl⟩
    exact ⟨key, member⟩
  · rintro ⟨key, member⟩
    exact ⟨(key, value), member, rfl⟩

@[simp] theorem get_empty : (empty : OrderedMap Key Value).get key = none := rfl

@[simp] theorem keys_modify (change : Value → Value) : (map.modify key change).keys = map.keys := by
  rw [keys, modify, List.map_map, keys]
  refine List.map_congr_left fun entry _ => ?_
  rw [Function.comp_apply]
  split <;> rfl

theorem get_modify (change : Value → Value) : (map.modify key change).get other =
    if other = key then (map.get key).map change else map.get other := by
  rw [get, modify, List.find?_map]
  have same : ((fun entry : Key × Value => decide (entry.1 = other)) ∘ fun entry =>
      if entry.1 = key then (entry.1, change entry.2) else entry) =
        fun entry => decide (entry.1 = other) := by
    funext entry
    rw [Function.comp_apply]
    split <;> rfl
  rw [same, get, get]
  by_cases equal : other = key
  · subst equal
    rw [if_pos rfl]
    cases found : map.entries.find? fun entry => decide (entry.1 = other) with
    | none => rfl
    | some entry =>
        have here : entry.1 = other := by simpa using List.find?_some found
        simp [here]
  · rw [if_neg equal]
    cases found : map.entries.find? fun entry => decide (entry.1 = other) with
    | none => rfl
    | some entry =>
        have here : entry.1 = other := by simpa using List.find?_some found
        have apart : entry.1 ≠ key := fun same => equal (here.symm.trans same)
        simp [apart]

theorem get_set : (map.set key value).get other =
    if other = key then some value else map.get other := by
  rw [set]
  split
  · rename_i known
    rw [get_modify]
    obtain ⟨old, found⟩ := mem_keys_iff.mp known
    rw [found]
    rfl
  · rename_i fresh
    rw [get, List.find?_append, Option.map_or]
    by_cases equal : other = key
    · subst equal
      have none := get_eq_none_iff.mpr fresh
      rw [get] at none
      rw [none, if_pos rfl]
      simp
    · have apart : ¬key = other := fun same => equal same.symm
      rw [if_neg equal, get]
      simp [apart]

theorem has_eq_true_iff : map.has key = true ↔ key ∈ map.keys := by
  rw [has, Option.isSome_iff_exists, mem_keys_iff]

theorem map_values {keyOf : Value → Key}
    (keyed : ∀ key value, map.get key = some value → keyOf value = key) :
    map.values.map keyOf = map.keys := by
  rw [values, List.map_map, keys]
  exact List.map_congr_left fun entry member => keyed entry.1 entry.2 (get_eq_some_iff.mpr member)

theorem get_foldl_set {written : List (Key × Value)} (distinct : (written.map Prod.fst).Nodup) :
    (written.foldl (fun map (key, value) => map.set key value) map).get key = some value ↔
      (key, value) ∈ written ∨ key ∉ written.map Prod.fst ∧ map.get key = some value := by
  induction written generalizing map with
  | nil => simp
  | cons entry rest induction =>
      obtain ⟨first, stored⟩ := entry
      rw [List.map_cons, List.nodup_cons] at distinct
      rw [List.foldl_cons, induction distinct.2, get_set]
      simp only [List.map_cons, List.mem_cons, Prod.mk.injEq, not_or]
      by_cases here : key = first
      · subst here
        have later : (key, value) ∉ rest := fun member =>
          distinct.1 (List.mem_map.mpr ⟨_, member, rfl⟩)
        simp only [later, distinct.1, not_false_eq_true, if_true, true_and, false_or, or_false,
          Option.some.injEq, not_true_eq_false, false_and]
        exact eq_comm
      · simp only [here, false_and, false_or, if_false, not_false_eq_true, true_and]

theorem mem_keys_set : other ∈ (map.set key value).keys ↔ other = key ∨ other ∈ map.keys := by
  rw [mem_keys_iff, mem_keys_iff, get_set]
  by_cases equal : other = key <;> simp [equal]

end Lookup

end OrderedMap
