import TrainWatch.Library.IMap
import TrainWatch.Library.BlindWrites
import Mathlib.Data.List.Perm.Basic

/-! # Values put under keys of their own

A client that puts values one after the other, each under the key read off it, writes
blindly: what a `get` finds is the last value with that key.  So two orders of the same
values leave the same map except where different values have one key.
-/

namespace TrainWatch.Library

universe u v

namespace IMap

variable {κ : Type u} {ν : Type v} [DecidableEq κ]

/-- The cells are the keys, and what a put writes does not depend on the map. -/
def puts (key : ν → κ) : WriteSystem (IMap κ ν) ν κ (Option ν) where
  read := get
  perform := fun map value => map.set (key value) value
  target := key
  value := some
  read_perform := by
    intro map value k
    rw [get_set]
    exact if_congr eq_comm rfl rfl
  ext := fun _ _ => ext

variable {key : ν → κ}

def putAll (key : ν → κ) (map : IMap κ ν) (values : List ν) : IMap κ ν :=
  values.foldl (fun map value => map.set (key value) value) map

/-- The last value with the key, or else what was there before. -/
theorem get_putAll (map : IMap κ ν) (values : List ν) (k : κ) :
    (map.putAll key values).get k =
      ((values.filter fun value => key value = k).getLast?).or (map.get k) := by
  have last : (map.putAll key values).get k =
      (((values.filter fun value => key value = k).getLast?).map some).getD (map.get k) :=
    (puts key).read_performAll map values k
  rw [last]
  cases (values.filter fun value => key value = k).getLast? with
  | none => rfl
  | some value => rfl

theorem get_putAll_isSome {values : List ν} {k : κ} :
    (((∅ : IMap κ ν).putAll key values).get k).isSome ↔ ∃ value ∈ values, key value = k := by
  rw [get_putAll, get_empty, Option.or_none, Option.isSome_iff_ne_none, ne_eq,
    List.getLast?_eq_none_iff]
  simp [List.filter_eq_nil_iff]

theorem of_get_putAll {values : List ν} {k : κ} {value : ν}
    (found : ((∅ : IMap κ ν).putAll key values).get k = some value) :
    value ∈ values ∧ key value = k := by
  rw [get_putAll, get_empty, Option.or_none] at found
  have member := List.mem_of_getLast? found
  simpa using member

/-- Where all values with the key are the same, it is found whatever the order was. -/
theorem get_putAll_of_agree {values : List ν} {value : ν} (member : value ∈ values)
    (agree : ∀ other ∈ values, key other = key value → other = value) :
    ((∅ : IMap κ ν).putAll key values).get (key value) = some value := by
  have present : (((∅ : IMap κ ν).putAll key values).get (key value)).isSome :=
    get_putAll_isSome.mpr ⟨value, member, rfl⟩
  obtain ⟨other, found⟩ := Option.isSome_iff_exists.mp present
  obtain ⟨inValues, same⟩ := of_get_putAll found
  rw [found, agree other inValues same]

theorem exists_perm_getLast {values : List ν} {value : ν} (member : value ∈ values) :
    ∃ others, (others ++ [value]).Perm values := by
  obtain ⟨before, after, rfl⟩ := List.append_of_mem member
  refine ⟨before ++ after, ?_⟩
  rw [List.append_assoc]
  exact List.perm_append_comm.append_left before

/-- Lines that are parsed and put answer a `get` alike in all their orders if and only if no two of
    the values parsed differ and have its key. -/
theorem get_putAll_alike_iff {α : Type v} {parse : α → Option ν} {lines : List α} {k : κ} :
    (∀ order order' : List α, order.Perm lines → order'.Perm lines →
      ((∅ : IMap κ ν).putAll key (order.filterMap parse)).get k =
        ((∅ : IMap κ ν).putAll key (order'.filterMap parse)).get k) ↔
    ∀ value ∈ lines.filterMap parse, ∀ other ∈ lines.filterMap parse, key value = k →
      key other = k →
      value = other := by
  constructor
  · intro alike value member other member' here here'
    obtain ⟨line, inLines, parsed⟩ := List.mem_filterMap.mp member
    obtain ⟨line', inLines', parsed'⟩ := List.mem_filterMap.mp member'
    -- the order that puts a value last finds it
    obtain ⟨rest, order⟩ := exists_perm_getLast inLines
    obtain ⟨rest', order'⟩ := exists_perm_getLast inLines'
    have same := alike _ _ order order'
    simpa [get_putAll, parsed, parsed', here, here'] using same
  · intro agree order order' perm perm'
    have listed : ∀ {value}, value ∈ order.filterMap parse ↔ value ∈ lines.filterMap parse :=
      (perm.filterMap parse).mem_iff
    have listed' : ∀ {value}, value ∈ order'.filterMap parse ↔ value ∈ lines.filterMap parse :=
      (perm'.filterMap parse).mem_iff
    cases found : ((∅ : IMap κ ν).putAll key (order.filterMap parse)).get k with
    | some value =>
      -- it was put in the second order too, and everything with its key is equal to it
      obtain ⟨member, rfl⟩ := of_get_putAll found
      refine (get_putAll_of_agree (listed'.mpr (listed.mp member)) ?_).symm
      intro other member' same
      exact agree other (listed'.mp member') value (listed.mp member) same rfl
    | none =>
      symm
      rw [← Option.not_isSome_iff_eq_none, get_putAll_isSome] at found ⊢
      rintro ⟨value, member, here⟩
      exact found ⟨value, listed.mpr (listed'.mp member), here⟩

end IMap

/-! ## Keys that encode several fields -/

section Encoding

variable {φ : Type u} {κ : Type u} {ν : Type v} [DecidableEq φ] [DecidableEq κ]

theorem getLast?_filter_eq_some {values : List ν} {p : ν → Bool} {value : ν} :
    (values.filter p).getLast? = some value ↔
      p value = true ∧ ∃ before after, values = before ++ value :: after ∧ ∀ later ∈ after,
        p later = false := by
  rw [List.getLast?_filter, List.find?_eq_some_iff_append]
  refine and_congr_right fun _ => ?_
  constructor
  · rintro ⟨after, before, split, others⟩
    refine ⟨before.reverse, after.reverse, ?_, fun later member => ?_⟩
    · have whole := congrArg List.reverse split
      simpa using whole
    · simpa using others later (List.mem_reverse.mp member)
  · rintro ⟨before, after, rfl, others⟩
    refine ⟨after.reverse, before.reverse, by simp, fun later member => ?_⟩
    simpa using others later (List.mem_reverse.mp member)

variable {fields : ν → φ} {encode : φ → κ}

/-- Under a key that encodes the fields, not always injectively, a `get` finds the last value with
    the fields asked for if and only if every value that is taken for one is followed by one. -/
theorem IMap.get_putAll_encoded_iff {values : List ν} {q : φ} :
    (putAll (fun value => encode (fields value)) ∅ values).get (encode q) =
        (values.filter fun value => fields value = q).getLast? ↔
      ∀ before value after, values = before ++ value :: after → fields value ≠ q →
        encode (fields value) = encode q → ∃ later ∈ after, fields later = q := by
  rw [get_putAll, get_empty, Option.or_none]
  constructor
  · rintro same before value after rfl different taken
    -- some value is found, and it stands after the one that is taken for it
    cases found :
      ((before ++ value :: after).filter fun value =>
      encode (fields value) = encode q).getLast? with
    | none =>
      rw [List.getLast?_eq_none_iff, List.filter_eq_nil_iff] at found
      exact absurd (decide_eq_true taken) (found value (by simp))
    | some last =>
      rw [found] at same
      obtain ⟨isAsked, _⟩ := getLast?_filter_eq_some.mp same.symm
      have inTail :
          last ∈ ((value :: after).filter fun value => encode (fields value) = encode q) := by
        rw [List.filter_append, List.getLast?_append] at found
        have nonempty :
            ((value :: after).filter fun value => encode (fields value) = encode q) ≠ [] := by
          exact List.ne_nil_of_mem (List.mem_filter.mpr ⟨List.mem_cons_self, decide_eq_true taken⟩)
        rw [List.getLast?_eq_some_getLast nonempty, Option.some_or] at found
        rw [← Option.some.inj found]
        exact List.getLast_mem nonempty
      obtain rfl | later := List.mem_cons.mp (List.mem_filter.mp inTail).1
      · exact absurd (of_decide_eq_true isAsked) different
      · exact ⟨last, later, of_decide_eq_true isAsked⟩
  · intro followed
    cases found : (values.filter fun value => encode (fields value) = encode q).getLast? with
    | none =>
      -- nothing has the key, so nothing has the fields
      symm
      rw [List.getLast?_eq_none_iff, List.filter_eq_nil_iff] at found ⊢
      intro value member asked
      exact found value member (decide_eq_true (congrArg encode (of_decide_eq_true asked)))
    | some last =>
      symm
      obtain ⟨taken, before, after, split, others⟩ := getLast?_filter_eq_some.mp found
      have noneLater : ∀ later ∈ after, fields later ≠ q := by
        intro later member asked
        have alsoTaken := others later member
        rw [asked] at alsoTaken
        simp at alsoTaken
      -- the last value with the key has the fields, or one that has them would follow it
      refine getLast?_filter_eq_some.mpr ⟨?_, before, after, split, fun later member => ?_⟩
      · by_contra different
        obtain ⟨later, member, asked⟩ := followed before last after split
          (fun same => different (decide_eq_true same)) (of_decide_eq_true taken)
        exact noneLater later member asked
      · exact decide_eq_false (noneLater later member)

end Encoding

end TrainWatch.Library
