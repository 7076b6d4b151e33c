import Mathlib.Data.Finmap

/-! # Distributed maps

A shared map as its clients see it: every operation is atomic on one key, `set`
replaces, `delete` and `evict` remove, and `values` is a snapshot in no
particular order.  Two maps are equal exactly when they answer every `get` alike.

`Keyed key map` is the invariant of a map whose entries are only ever written
under a key read off the value; `evictAll` is a sequence of evictions by key.
-/

namespace TrainWatch.Library

universe u v

/-- A finite map from keys to values, up to the order of its entries. -/
def IMap (κ : Type u) (ν : Type v) : Type (max u v) := Finmap fun _ : κ => ν

namespace IMap

variable {κ : Type u} {ν : Type v}

instance : EmptyCollection (IMap κ ν) := ⟨(∅ : Finmap fun _ : κ => ν)⟩

instance : Inhabited (IMap κ ν) := ⟨∅⟩

/-- The values of all entries; a list `order` with `↑order = map.values` is one
    order in which an iteration can meet them. -/
def values (map : IMap κ ν) : Multiset ν := (Finmap.entries map).map Sigma.snd

section Operations

variable [DecidableEq κ]

instance [DecidableEq ν] : DecidableEq (IMap κ ν) :=
  inferInstanceAs (DecidableEq (Finmap fun _ : κ => ν))

def get (map : IMap κ ν) (key : κ) : Option ν := Finmap.lookup key map

def set (map : IMap κ ν) (key : κ) (value : ν) : IMap κ ν := Finmap.insert key value map

def delete (map : IMap κ ν) (key : κ) : IMap κ ν := Finmap.erase key map

/-- Eviction removes the entry from memory; with no backing store behind the map
    that is a removal. -/
def evict (map : IMap κ ν) (key : κ) : IMap κ ν := map.delete key

def evictAll (map : IMap κ ν) (keys : List κ) : IMap κ ν := keys.foldl evict map

/-! ## What a `get` sees -/

@[ext] theorem ext {map map' : IMap κ ν} (same : ∀ key, map.get key = map'.get key) : map = map' :=
  Finmap.ext_lookup same

@[simp] theorem get_empty (key : κ) : (∅ : IMap κ ν).get key = none := Finmap.lookup_empty key

@[simp] theorem get_set_self (map : IMap κ ν) (key : κ) (value : ν) :
    (map.set key value).get key = some value := Finmap.lookup_insert map

theorem get_set_of_ne (map : IMap κ ν) {key other : κ} (value : ν) (different : other ≠ key) :
    (map.set key value).get other = map.get other := Finmap.lookup_insert_of_ne map different

theorem get_set (map : IMap κ ν) (key other : κ) (value : ν) :
    (map.set key value).get other = if other = key then some value else map.get other := by
  split
  · rename_i same; rw [same, get_set_self]
  · rename_i different; exact get_set_of_ne map value different

@[simp] theorem get_delete_self (map : IMap κ ν) (key : κ) : (map.delete key).get key = none :=
  Finmap.lookup_erase key map

theorem get_delete_of_ne (map : IMap κ ν) {key other : κ} (different : other ≠ key) :
    (map.delete key).get other = map.get other := Finmap.lookup_erase_ne different

theorem get_delete (map : IMap κ ν) (key other : κ) :
    (map.delete key).get other = if other = key then none else map.get other := by
  split
  · rename_i same; rw [same, get_delete_self]
  · rename_i different; exact get_delete_of_ne map different

theorem get_evict (map : IMap κ ν) (key other : κ) :
    (map.evict key).get other = if other = key then none else map.get other :=
  map.get_delete key other

theorem get_evictAll (map : IMap κ ν) (keys : List κ) (other : κ) :
    (map.evictAll keys).get other = if other ∈ keys then none else map.get other := by
  induction keys generalizing map with
  | nil => simp [evictAll]
  | cons key keys inductionHypothesis =>
    have tail := inductionHypothesis (map.evict key)
    simp only [evictAll, List.foldl_cons] at tail ⊢
    rw [tail, get_evict]
    by_cases member : other ∈ keys
    · simp [member]
    · by_cases same : other = key <;> simp [member, same]

theorem get_of_evictAll {map : IMap κ ν} {keys : List κ} {key : κ} {value : ν}
    (found : (map.evictAll keys).get key = some value) : map.get key = some value := by
  rw [get_evictAll] at found
  split at found
  · cases found
  · exact found

theorem mem_values_iff (map : IMap κ ν) (value : ν) :
    value ∈ map.values ↔ ∃ key, map.get key = some value := by
  simp only [values, Multiset.mem_map, get]
  constructor
  · rintro ⟨⟨key, value'⟩, member, rfl⟩
    exact ⟨key, Finmap.lookup_eq_some_iff.mpr member⟩
  · rintro ⟨key, found⟩
    exact ⟨⟨key, value⟩, Finmap.lookup_eq_some_iff.mp found, rfl⟩

/-! ## Maps keyed by a field of the value -/

/-- Every entry sits under the key that `key` reads off its value. -/
def Keyed (key : ν → κ) (map : IMap κ ν) : Prop :=
  ∀ k value, map.get k = some value → key value = k

theorem Keyed.nodup {key : ν → κ} {map : IMap κ ν} (keyed : Keyed key map) :
    (map.values.map key).Nodup := by
  have same : map.values.map key = (Finmap.entries map).map Sigma.fst := by
    rw [values, Multiset.map_map]
    apply Multiset.map_congr rfl
    intro entry member
    exact keyed entry.1 entry.2 (Finmap.lookup_eq_some_iff.mpr member)
  rw [same]
  exact Multiset.nodup_keys.mpr map.nodupKeys

theorem Keyed.empty (key : ν → κ) : Keyed key (∅ : IMap κ ν) := by
  intro k value found
  simp at found

theorem Keyed.set {key : ν → κ} {map : IMap κ ν} (keyed : Keyed key map) (value : ν) :
    Keyed key (map.set (key value) value) := by
  intro k found member
  rw [get_set] at member
  split at member
  · rename_i same
    cases member
    exact same.symm
  · exact keyed k found member

theorem Keyed.delete {key : ν → κ} {map : IMap κ ν} (keyed : Keyed key map) (removed : κ) :
    Keyed key (map.delete removed) := by
  intro k value found
  rw [get_delete] at found
  split at found
  · cases found
  · exact keyed k value found

/-- Evicting the keys of selected values removes these values and nothing else. -/
theorem Keyed.get_evictAll_iff {key : ν → κ} {map : IMap κ ν} (keyed : Keyed key map)
    {selected : List ν}
    {isSelected : ν → Prop}
    (selects : ∀ value, value ∈ selected ↔ value ∈ map.values ∧ isSelected value)
    {k : κ} {value : ν} :
    (map.evictAll (selected.map key)).get k = some value ↔ map.get k = some value ∧
    ¬ isSelected value := by
  rw [get_evictAll]
  by_cases evicted : k ∈ selected.map key
  · rw [if_pos evicted]
    obtain ⟨other, member, same⟩ := List.mem_map.mp evicted
    obtain ⟨stored, isSelected'⟩ := (selects other).mp member
    -- the selected value with this key sits under it, so it is the entry itself
    obtain ⟨k', held⟩ := (map.mem_values_iff other).mp stored
    cases same.symm.trans (keyed k' other held)
    refine iff_of_false (by simp) ?_
    rintro ⟨found, notSelected⟩
    cases held.symm.trans found
    exact notSelected isSelected'
  · rw [if_neg evicted]
    refine ⟨fun found => ⟨found, fun isSelected' => evicted ?_⟩, And.left⟩
    have member := (selects value).mpr ⟨(map.mem_values_iff value).mpr ⟨k, found⟩, isSelected'⟩
    exact List.mem_map.mpr ⟨value, member, keyed k value found⟩

theorem Keyed.evictAll {key : ν → κ} {map : IMap κ ν} (keyed : Keyed key map) (removed : List κ) :
    Keyed key (map.evictAll removed) :=
  fun k value found => keyed k value (get_of_evictAll found)

/-- A second sweep takes what it selects of the rest, so the two of them take what either selects.
    -/
theorem Keyed.evictAll_evictAll {key : ν → κ} {map : IMap κ ν} (keyed : Keyed key map)
    {first second both : List ν}
    {inFirst inSecond : ν → Prop}
    (firstSelects : ∀ value, value ∈ first ↔ value ∈ map.values ∧ inFirst value)
    (secondSelects : ∀ value, value ∈ second ↔ value ∈ (map.evictAll (first.map key)).values ∧
      inSecond value)
    (bothSelects : ∀ value, value ∈ both ↔ value ∈ map.values ∧ (inFirst value ∨ inSecond value)) :
    (map.evictAll (first.map key)).evictAll (second.map key) = map.evictAll (both.map key) := by
  ext k value
  have keyed' := keyed.evictAll (first.map key)
  rw [keyed'.get_evictAll_iff secondSelects, keyed.get_evictAll_iff firstSelects,
    keyed.get_evictAll_iff bothSelects,
    not_or, and_assoc]

end Operations

end IMap

end TrainWatch.Library
