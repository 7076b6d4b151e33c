import TrainWatch.Library.Dict
import TrainWatch.Library.IMap
import Mathlib.Data.List.Forall2

/-! # Relations between computations, lists and maps

A relation between values is carried over to what computes or holds them: `Lifts R`
compares what two computations return, and `Related R` what two maps hold.  Related lists
are Mathlib's `Forall₂`, related options `Option.Rel`.
-/

namespace TrainWatch.Library

universe u v w

/-! ## Computations -/

section Computations

variable {ε α α' β β' : Type u}

/-- Both computations return, with related values, or both throw the same. -/
inductive Lifts (R : α → β → Prop) : Except ε α → Except ε β → Prop where
  | ok {a : α} {b : β} (related : R a b) : Lifts R (.ok a) (.ok b)
  | error (thrown : ε) : Lifts R (.error thrown) (.error thrown)

theorem Lifts.refl (computation : Except ε α) : Lifts Eq computation computation := by
  cases computation with
  | ok a => exact .ok rfl
  | error thrown => exact .error thrown

theorem Lifts.bind {R : α → β → Prop} {R' : α' → β' → Prop} {first : Except ε α}
    {first' : Except ε β}
    {second : α → Except ε α'} {second' : β → Except ε β'} (lifts : Lifts R first first')
    (continues : ∀ a b, R a b → Lifts R' (second a) (second' b)) :
    Lifts R' (first >>= second) (first' >>= second') := by
  cases lifts with
  | ok related => exact continues _ _ related
  | error thrown => exact .error thrown

theorem Lifts.bind_same {R : α' → β' → Prop} (first : Except ε α) {second : α → Except ε α'}
    {second' : α → Except ε β'} (continues : ∀ a, Lifts R (second a) (second' a)) :
    Lifts R (first >>= second) (first >>= second') := by
  refine (Lifts.refl first).bind ?_
  rintro a _ rfl
  exact continues a

end Computations

/-! ## Lists and maps -/

theorem exists_of_rel_some {α : Type u} {β : Type v} {R : α → β → Prop} {a : α} {other : Option β}
    (related : Option.Rel R (some a) other) : ∃ b, other = some b ∧ R a b := by
  cases related with
  | some here => exact ⟨_, rfl, here⟩

theorem rel_swap {α : Type u} {β : Type v} {R : α → β → Prop} {first : Option α} {second : Option β}
    (related : Option.Rel R first second) : Option.Rel (fun b a => R a b) second first := by
  cases related with
  | some here => exact .some here
  | none => exact .none

theorem rel_getElem? {α : Type u} {β : Type v} {R : α → β → Prop} {as : List α} {bs : List β}
    (related : List.Forall₂ R as bs) (i : Nat) : Option.Rel R as[i]? bs[i]? := by
  induction related generalizing i with
  | nil => exact .none
  | cons here _ inductionHypothesis =>
    cases i with
    | zero => exact .some here
    | succ i => exact inductionHypothesis i

theorem rel_getLast? {α : Type u} {β : Type v} {R : α → β → Prop} {as : List α} {bs : List β}
    (related : List.Forall₂ R as bs) : Option.Rel R as.getLast? bs.getLast? := by
  rw [List.getLast?_eq_getElem?, List.getLast?_eq_getElem?, related.length_eq]
  exact rel_getElem? related _

theorem exists_of_mem_left {α : Type u} {β : Type v} {R : α → β → Prop} {as : List α} {bs : List β}
    (related : List.Forall₂ R as bs) {a : α} (member : a ∈ as) : ∃ b ∈ bs, R a b := by
  induction related with
  | nil => cases member
  | cons here _ inductionHypothesis =>
    obtain rfl | later := List.mem_cons.mp member
    · exact ⟨_, List.mem_cons_self, here⟩
    · obtain ⟨b, member', there⟩ := inductionHypothesis later
      exact ⟨b, List.mem_cons_of_mem _ member', there⟩

theorem exists_of_mem_right {α : Type u} {β : Type v} {R : α → β → Prop} {as : List α} {bs : List β}
    (related : List.Forall₂ R as bs) {b : β} (member : b ∈ bs) : ∃ a ∈ as, R a b :=
  exists_of_mem_left related.flip member

/-- A traversal that returns has computed every element from the one at its position. -/
theorem mapM_eq_some_iff {α : Type u} {β : Type v} {stage : α → Option β} {as : List α}
    {bs : List β} :
    as.mapM stage = some bs ↔ List.Forall₂ (fun a b => stage a = some b) as bs := by
  induction as generalizing bs with
  | nil => simp [eq_comm]
  | cons a as inductionHypothesis =>
    simp only [List.mapM_cons, Option.bind_eq_bind, Option.bind_eq_some_iff, Option.pure_def,
      Option.some.injEq]
    constructor
    · rintro ⟨b, here, rest, later, rfl⟩
      exact .cons here (inductionHypothesis.mp later)
    · rintro (_ | ⟨here, later⟩)
      exact ⟨_, here, _, inductionHypothesis.mpr later, rfl⟩

theorem exists_mapM_eq_some {α : Type u} {β : Type v} {stage : α → Option β} {as : List α}
    (each : ∀ a ∈ as, ∃ b, stage a = some b) : ∃ bs, as.mapM stage = some bs := by
  induction as with
  | nil => exact ⟨[], rfl⟩
  | cons a as inductionHypothesis =>
    obtain ⟨b, here⟩ := each a List.mem_cons_self
    obtain ⟨bs, later⟩ := inductionHypothesis fun other member =>
      each other (List.mem_cons_of_mem _ member)
    exact ⟨b :: bs, mapM_eq_some_iff.mpr (.cons here (mapM_eq_some_iff.mp later))⟩

theorem mem_of_mapM {α : Type u} {β : Type v} {stage : α → Option β} {as : List α} {bs : List β}
    (mapped : as.mapM stage = some bs) {b : β} : b ∈ bs ↔ ∃ a ∈ as, stage a = some b := by
  have pointwise := mapM_eq_some_iff.mp mapped
  constructor
  · exact exists_of_mem_right pointwise
  · rintro ⟨a, member, here⟩
    obtain ⟨b', member', here'⟩ := exists_of_mem_left pointwise member
    cases here.symm.trans here'
    exact member'

/-- Dictionaries of related values under the same keys hold related values. -/
theorem Dict.rel_get_ofPairs {κ : Type u} {ν : Type v} {ω : Type w} [DecidableEq κ]
    {R : ν → ω → Prop}
    {key : ν → κ} {key' : ω → κ} (agree : ∀ value other, R value other → key value = key' other)
    {values : List ν} {others : List ω} (related : List.Forall₂ R values others) (k : κ) :
    Option.Rel R ((Dict.ofPairs (values.map fun value => (key value, value))).get k)
      (others.filter fun other => key' other = k).getLast? := by
  rw [Dict.get_ofPairs, List.filter_map, List.getLast?_map, Option.map_map]
  have filtered :
      List.Forall₂ R (values.filter fun value => key value = k)
        (others.filter fun other => key' other = k) :=
    List.rel_filter (fun value other here => by simp [agree value other here]) related
  simpa [Function.comp_def] using rel_getLast? filtered

def Dict.toMap {κ : Type u} {ν : Type v} [DecidableEq κ] (dict : Dict κ ν) : IMap κ ν :=
  dict.items.foldl (fun map item => map.set item.1 item.2) ∅

@[simp] theorem Dict.get_toMap {κ : Type u} {ν : Type v} [DecidableEq κ] (dict : Dict κ ν)
    (key : κ) :
    dict.toMap.get key = dict.get key := by
  have ofPairs : ∀ pairs : List (κ × ν),
      (pairs.foldl (fun map item => map.set item.1 item.2) (∅ : IMap κ ν)).get key =
        (Dict.ofPairs pairs).get key := by
    intro pairs
    induction pairs using List.reverseRecOn with
    | nil => exact IMap.get_empty key
    | append_singleton pairs pair inductionHypothesis =>
      rw [Dict.ofPairs, List.foldl_append, List.foldl_append, ← Dict.ofPairs]
      simp only [List.foldl_cons, List.foldl_nil, IMap.get_set, Dict.get_set, inductionHypothesis]
  rw [Dict.toMap, ofPairs, Dict.ofPairs_items]

namespace IMap

variable {κ : Type u} {ν : Type v} {ω : Type w} [DecidableEq κ]

/-- Both maps have the same keys, with related values under them. -/
def Related (R : ν → ω → Prop) (map : IMap κ ν) (other : IMap κ ω) : Prop :=
  ∀ key, Option.Rel R (map.get key) (other.get key)

variable {R : ν → ω → Prop} {map map' : IMap κ ν} {other other' : IMap κ ω}

theorem Related.empty (R : ν → ω → Prop) : Related R (∅ : IMap κ ν) (∅ : IMap κ ω) := by
  intro key
  simp only [get_empty]
  exact .none

theorem Related.get (related : Related R map other) {key : κ} {value : ν}
    (found : map.get key = some value) :
    ∃ value', other.get key = some value' ∧ R value value' :=
  exists_of_rel_some (found ▸ related key)

theorem Related.rel (related : Related R map other) {key : κ} {value : ν} {value' : ω}
    (found : map.get key = some value) (found' : other.get key = some value') : R value value' := by
  obtain ⟨held, isHeld, here⟩ := related.get found
  cases isHeld.symm.trans found'
  exact here

theorem Related.symm (related : Related R map other) :
    Related (fun value' value => R value value') other map :=
  fun key => rel_swap (related key)

/-- A property that related values share holds of all values of both maps or of neither. -/
theorem Related.forall_values (related : Related R map other) {property : ν → Prop}
    {property' : ω → Prop}
    (alike : ∀ value value', R value value' → (property value ↔ property' value')) :
    (∀ value ∈ map.values, property value) ↔ ∀ value' ∈ other.values, property' value' := by
  constructor
  · intro all value' member
    obtain ⟨key, found'⟩ := (other.mem_values_iff value').mp member
    obtain ⟨value, found, here⟩ := related.symm.get found'
    exact (alike value value' here).mp (all value ((map.mem_values_iff value).mpr ⟨key, found⟩))
  · intro all value member
    obtain ⟨key, found⟩ := (map.mem_values_iff value).mp member
    obtain ⟨value', found', here⟩ := related.get found
    exact (alike value value' here).mpr
      (all value' ((other.mem_values_iff value').mpr ⟨key, found'⟩))

theorem Related.set (related : Related R map other) (key : κ) {value : ν} {value' : ω}
    (here : R value value') : Related R (map.set key value) (other.set key value') := by
  intro k
  rw [get_set, get_set]
  split
  · exact .some here
  · exact related k

theorem Related.delete (related : Related R map other) (key : κ) :
    Related R (map.delete key) (other.delete key) := by
  intro k
  rw [get_delete, get_delete]
  split
  · exact .none
  · exact related k

/-- Removals that treat related entries alike keep the maps related. -/
theorem Related.remove (related : Related R map other) {gone : ν → Prop} {gone' : ω → Prop}
    (remains : ∀ key value, map'.get key = some value ↔ map.get key = some value ∧ ¬ gone value)
    (remains' : ∀ key value, other'.get key = some value ↔ other.get key = some value ∧
      ¬ gone' value)
    (alike : ∀ key value value', map.get key = some value → other.get key = some value' →
      (gone value ↔ gone' value')) :
    Related R map' other' := by
  intro key
  cases left : map'.get key with
  | some value =>
    obtain ⟨found, stays⟩ := (remains key value).mp left
    obtain ⟨value', found', here⟩ := related.get found
    have stays' : ¬ gone' value' := fun goes =>
      stays ((alike key value value' found found').mpr goes)
    rw [(remains' key value').mpr ⟨found', stays'⟩]
    exact .some here
  | none =>
    cases left' : other'.get key with
    | none => exact .none
    | some value' =>
      -- what remains in the second map has a counterpart, which would have remained too
      obtain ⟨found', stays'⟩ := (remains' key value').mp left'
      obtain ⟨value, found, _⟩ := related.symm.get found'
      have stays : ¬ gone value := fun goes =>
        stays' ((alike key value value' found found').mp goes)
      rw [(remains key value).mpr ⟨found, stays⟩] at left
      cases left

/-- Two snapshots that list their entries in one order of the keys list related values. -/
theorem Related.forall₂ (related : Related R map other) {key : ν → κ} {key' : ω → κ}
    (keyed : Keyed key map)
    (keyed' : Keyed key' other) {as : List ν} {bs : List ω} (fromMap : ∀ a ∈ as, a ∈ map.values)
    (fromOther : ∀ b ∈ bs, b ∈ other.values) (sameOrder : as.map key = bs.map key') :
    List.Forall₂ R as bs := by
  induction as generalizing bs with
  | nil =>
    cases bs with
    | nil => exact .nil
    | cons b bs => cases sameOrder
  | cons a as inductionHypothesis =>
    cases bs with
    | nil => cases sameOrder
    | cons b bs =>
      rw [List.map_cons, List.map_cons, List.cons.injEq] at sameOrder
      obtain ⟨same, sameOrder⟩ := sameOrder
      obtain ⟨k, found⟩ := (map.mem_values_iff a).mp (fromMap a List.mem_cons_self)
      obtain ⟨k', found'⟩ := (other.mem_values_iff b).mp (fromOther b List.mem_cons_self)
      -- both values sit under the key that is read off them
      have sameKey : k' = k := by rw [← keyed k a found, same, keyed' k' b found']
      rw [sameKey] at found'
      exact .cons (related.rel found found') (inductionHypothesis
        (fun a member => fromMap a (List.mem_cons_of_mem _ member))
        (fun b member => fromOther b (List.mem_cons_of_mem _ member)) sameOrder)

end IMap

end TrainWatch.Library
