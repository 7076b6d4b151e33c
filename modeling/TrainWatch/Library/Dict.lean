import Mathlib.Data.List.Induction
import Mathlib.Data.List.Nodup

/-! # Dictionaries that remember the order of insertion

Setting a key that is there replaces its value and leaves its place; a new key goes to
the end.  No key stands twice in a dictionary, and this is part of the type.
-/

namespace TrainWatch.Library

universe u v

structure Dict (κ : Type u) (ν : Type v) where
  items : List (κ × ν)
  nodup : (items.map Prod.fst).Nodup

namespace Dict

variable {κ : Type u} {ν : Type v}

def empty : Dict κ ν := ⟨[], List.nodup_nil⟩

def keys (dict : Dict κ ν) : List κ := dict.items.map Prod.fst

variable [DecidableEq κ]

/-- The value of the first item with the key; there is at most one in a dictionary. -/
def get (dict : Dict κ ν) (key : κ) : Option ν := dict.items.lookup key

def replaced (items : List (κ × ν)) (key : κ) (value : ν) : List (κ × ν) :=
  items.map fun item => if item.1 = key then (key, value) else item

theorem keys_replaced (items : List (κ × ν)) (key : κ) (value : ν) :
    (replaced items key value).map Prod.fst = items.map Prod.fst := by
  rw [replaced, List.map_map]
  apply List.map_congr_left
  intro item _
  by_cases same : item.1 = key
  · simp [same]
  · simp [same]

def set (dict : Dict κ ν) (key : κ) (value : ν) : Dict κ ν :=
  if present : key ∈ dict.keys then
    ⟨replaced dict.items key value, by rw [keys_replaced]; exact dict.nodup⟩
  else
    ⟨dict.items ++ [(key, value)], by
      rw [List.map_append, List.map_singleton, List.nodup_append]
      refine ⟨dict.nodup, List.nodup_singleton _, ?_⟩
      intro old member new same equal
      rw [List.mem_singleton.mp same] at equal
      subst equal
      exact present member⟩

/-! ## Items and values -/

theorem get_eq_none_iff (dict : Dict κ ν) (key : κ) : dict.get key = none ↔ key ∉ dict.keys := by
  rw [get, List.lookup_eq_none_iff, keys, List.mem_map, not_exists]
  refine forall_congr' fun item => ?_
  rw [not_and, bne_iff_ne, ne_comm]

theorem mem_items_iff (dict : Dict κ ν) (key : κ) (value : ν) :
    (key, value) ∈ dict.items ↔ dict.get key = some value := by
  rw [get, List.lookup_eq_some_iff]
  constructor
  · intro member
    obtain ⟨before, after, split⟩ := List.append_of_mem member
    have nodup := dict.nodup
    rw [split, List.map_append, List.map_cons, List.nodup_append] at nodup
    -- the key stands nowhere else
    refine ⟨before, after, split, fun item earlier => bne_iff_ne.mpr fun same => ?_⟩
    exact nodup.2.2 item.1 (List.mem_map_of_mem earlier) key List.mem_cons_self same.symm
  · rintro ⟨before, after, split, _⟩
    rw [split]
    exact List.mem_append_right _ List.mem_cons_self

@[simp] theorem get_empty (key : κ) : (empty : Dict κ ν).get key = none := rfl

theorem lookup_replaced (items : List (κ × ν)) (key other : κ) (value : ν) :
    (replaced items key value).lookup other =
      if other = key then (items.lookup other).map fun _ => value else items.lookup other := by
  induction items with
  | nil => simp [replaced]
  | cons item items inductionHypothesis =>
    rw [replaced] at inductionHypothesis
    rw [replaced, List.map_cons, List.lookup_cons, List.lookup_cons, inductionHypothesis]
    by_cases here : item.1 = key
    · by_cases same : other = key
      · simp [here, same]
      · simp [here, same, beq_false_of_ne same]
    · by_cases same : other = key
      · have different : (key == item.1) = false := beq_false_of_ne (Ne.symm here)
        simp [here, same, different]
      · simp [here, same]

theorem get_set (dict : Dict κ ν) (key other : κ) (value : ν) :
    (dict.set key value).get other = if other = key then some value else dict.get other := by
  unfold set
  by_cases present : key ∈ dict.keys
  · have held : ∃ old, dict.get key = some old := by
      rw [← Option.ne_none_iff_exists', ne_eq, get_eq_none_iff]
      exact not_not_intro present
    obtain ⟨old, held⟩ := held
    rw [get] at held
    simp only [present, dif_pos, get, lookup_replaced]
    by_cases same : other = key
    · simp [same, held]
    · simp [same]
  · have absent := (get_eq_none_iff dict key).mpr present
    rw [get] at absent
    simp only [present, dif_neg, not_false_eq_true, get, List.lookup_append, List.lookup_cons,
      List.lookup_nil]
    by_cases same : other = key
    · simp [same, absent]
    · simp [same, beq_false_of_ne same]

theorem items_set_of_absent {dict : Dict κ ν} {key : κ} (absent : key ∉ dict.keys) (value : ν) :
    (dict.set key value).items = dict.items ++ [(key, value)] := by
  rw [set, dif_neg absent]

theorem mem_items_set {dict : Dict κ ν} {key : κ} {value : ν} {item : κ × ν}
    (member : item ∈ (dict.set key value).items) :
    item = (key, value) ∨ item ∈ dict.items := by
  have found := (mem_items_iff _ item.1 item.2).mp member
  rw [get_set] at found
  split at found
  · rename_i same
    left
    exact Prod.ext same (Option.some.inj found).symm
  · right
    exact (mem_items_iff dict item.1 item.2).mpr found

/-! ## Dictionaries built from pairs -/

def ofPairs (pairs : List (κ × ν)) : Dict κ ν :=
  pairs.foldl (fun dict pair => dict.set pair.1 pair.2) empty

theorem items_ofPairs {pairs : List (κ × ν)} (distinct : (pairs.map Prod.fst).Nodup) :
    (ofPairs pairs).items = pairs := by
  induction pairs using List.reverseRecOn with
  | nil => rfl
  | append_singleton pairs pair inductionHypothesis =>
    rw [List.map_append, List.map_singleton, List.nodup_append] at distinct
    obtain ⟨distinct, _, different⟩ := distinct
    have earlier := inductionHypothesis distinct
    have absent : pair.1 ∉ (ofPairs pairs).keys := by
      rw [keys, earlier]
      exact fun member => different _ member _ (List.mem_singleton_self _) rfl
    rw [ofPairs] at earlier absent
    rw [ofPairs, List.foldl_append, List.foldl_cons, List.foldl_nil, items_set_of_absent absent,
      earlier]

theorem ofPairs_items (dict : Dict κ ν) : ofPairs dict.items = dict := by
  have same := items_ofPairs dict.nodup
  cases built : ofPairs dict.items with
  | mk items nodup =>
    rw [built] at same
    cases dict
    cases same
    rfl

theorem get_ofPairs (pairs : List (κ × ν)) (key : κ) :
    (ofPairs pairs).get key = ((pairs.filter fun pair => pair.1 = key).getLast?).map Prod.snd := by
  induction pairs using List.reverseRecOn with
  | nil => rfl
  | append_singleton pairs pair inductionHypothesis =>
    rw [ofPairs] at inductionHypothesis
    rw [ofPairs, List.foldl_append, List.foldl_cons, List.foldl_nil, get_set, inductionHypothesis]
    by_cases same : key = pair.1
    · simp [same]
    · have different : pair.1 ≠ key := Ne.symm same
      simp [same, different]

/-- A value is found in the items once they have been changed, if no other key has become its own.
    -/
theorem get_ofPairs_map (dict : Dict κ ν) {key : κ} {change : κ × ν → κ × ν}
    (same : ∀ item ∈ dict.items, (change item).1 = key ↔ item.1 = key) :
    (ofPairs (dict.items.map change)).get key = (dict.get key).map fun value =>
    (change (key, value)).2 := by
  have before := get_ofPairs dict.items key
  rw [ofPairs_items] at before
  have kept : (dict.items.map change).filter (fun pair => pair.1 = key) =
      (dict.items.filter fun pair => pair.1 = key).map change := by
    rw [List.filter_map]
    refine congrArg (List.map change) (List.filter_congr fun item member => ?_)
    simpa using same item member
  rw [get_ofPairs, kept, before, List.getLast?_map]
  cases last : (dict.items.filter fun pair => pair.1 = key).getLast? with
  | none => rfl
  | some pair =>
    have own : pair.1 = key := by simpa using (List.mem_filter.mp (List.mem_of_getLast? last)).2
    simp [← own]

theorem mem_keys_ofPairs (pairs : List (κ × ν)) (key : κ) :
    key ∈ (ofPairs pairs).keys ↔ ∃ pair ∈ pairs, pair.1 = key := by
  have absent := (ofPairs pairs).get_eq_none_iff key
  rw [get_ofPairs, Option.map_eq_none_iff, List.getLast?_eq_none_iff,
    List.filter_eq_nil_iff] at absent
  rw [← not_iff_not, ← absent]
  simp only [decide_eq_true_eq, not_exists, not_and]

end Dict

end TrainWatch.Library
