import Mathlib.Data.List.Sort
import Mathlib.Data.List.Perm.Basic

/-! # The first few of a list by some order

`Selects before max items shown` says what a query with a limit is for: `shown` is in
order, as long as the limit allows, and nothing that is left out comes before anything
shown.  Sorting and then taking the first gives such a list; taking the first and then
sorting does so only where there is nothing to choose.
-/

namespace TrainWatch.Library

universe u v

variable {α : Type u} {before : α → α → Prop}

structure Selects (before : α → α → Prop) (max : Nat) (items shown : List α) : Prop where
  inOrder : shown.Pairwise before
  length : shown.length = min max items.length
  leftOut : ∃ rest, (shown ++ rest).Perm items ∧ ∀ a ∈ shown, ∀ b ∈ rest, before a b

theorem Selects.of_perm {max : Nat} {items items' shown : List α}
    (selected : Selects before max items shown)
    (perm : items.Perm items') : Selects before max items' shown where
  inOrder := selected.inOrder
  length := by rw [selected.length, perm.length_eq]
  leftOut := by
    obtain ⟨rest, whole, after⟩ := selected.leftOut
    exact ⟨rest, whole.trans perm, after⟩

variable [DecidableRel before]

/-! ## Filters of sorted lists -/

section Filter

variable [IsTrans α before]

theorem filter_orderedInsert (keep : α → Bool) (a : α) {as : List α}
    (inOrder : as.Pairwise before) :
    (as.orderedInsert before a).filter keep =
      if keep a then (as.filter keep).orderedInsert before a else as.filter keep := by
  induction as with
  | nil => by_cases kept : keep a <;> simp [kept]
  | cons b as inductionHypothesis =>
    obtain ⟨after, tail⟩ := List.pairwise_cons.mp inOrder
    have inserted := inductionHypothesis tail
    by_cases first : before a b
    · -- everything else comes after `a` too
      have front : ((b :: as).filter keep).orderedInsert before a = a :: (b :: as).filter keep := by
        have all : ∀ c ∈ (b :: as).filter keep, before a c := by
          intro c member
          obtain rfl | later := List.mem_cons.mp (List.mem_filter.mp member).1
          · exact first
          · exact trans_of before first (after c later)
        cases kept : (b :: as).filter keep with
        | nil => rfl
        | cons c cs =>
            exact List.orderedInsert_cons_of_le before cs (all c (kept ▸ List.mem_cons_self))
      rw [List.orderedInsert_cons_of_le before as first, List.filter_cons, front]
    · rw [List.orderedInsert_cons, if_neg first, List.filter_cons, List.filter_cons, inserted]
      by_cases kept : keep a
      · by_cases keptToo : keep b <;> simp [kept, keptToo, first]
      · simp [kept]

/-- A stable sort and a filter can be exchanged. -/
theorem filter_insertionSort [Std.Total before] (keep : α → Bool) (as : List α) :
    (as.insertionSort before).filter keep = (as.filter keep).insertionSort before := by
  induction as with
  | nil => rfl
  | cons a as inductionHypothesis =>
    rw [List.insertionSort_cons, filter_orderedInsert keep a
      (List.pairwise_insertionSort before as),
      inductionHypothesis, List.filter_cons]
    by_cases kept : keep a
    · rw [if_pos kept, if_pos kept, List.insertionSort_cons]
    · rw [if_neg kept, if_neg kept]

end Filter

/-! ## Groups -/

theorem flatMap_groups {ι : Type v} [DecidableEq ι] (group : α → ι) {groups : List ι}
    (nodup : groups.Nodup)
    (as : List α) :
    (groups.flatMap fun i => as.filter fun a => group a = i).Perm
    (as.filter fun a => group a ∈ groups) := by
  induction groups with
  | nil => simp
  | cons i groups inductionHypothesis =>
    obtain ⟨absent, tail⟩ := List.nodup_cons.mp nodup
    rw [List.flatMap_cons]
    refine ((inductionHypothesis tail).append_left _).trans ?_
    have split := List.filter_append_perm (fun a => decide (group a = i))
      (as.filter fun a => group a ∈ i :: groups)
    rw [List.filter_filter, List.filter_filter] at split
    -- being in the first group and being in a later one exclude each other
    have first : (as.filter fun a => decide (group a = i) && decide (group a ∈ i :: groups)) =
        as.filter fun a => group a = i := by
      apply List.filter_congr
      intro a _
      by_cases here : group a = i
      · simp [here]
      · simp [here]
    have later : (as.filter fun a => (!decide (group a = i)) && decide (group a ∈ i :: groups)) =
        as.filter fun a => group a ∈ groups := by
      apply List.filter_congr
      intro a _
      by_cases here : group a = i
      · simp [here, absent]
      · simp [here]
    rw [first, later] at split
    exact split

/-! ## Limits before and after sorting -/

theorem exists_perm_ends {ε : Type v} {entries : List ε} {x y : ε} (member : x ∈ entries)
    (member' : y ∈ entries)
    (different : y ≠ x) : ∃ between, ((x :: between) ++ [y]).Perm entries := by
  obtain ⟨front, back, rfl⟩ := List.append_of_mem member
  have first : (x :: (front ++ back)).Perm (front ++ x :: back) := List.perm_middle.symm
  have later :
      y ∈ front ++ back := (List.mem_cons.mp (first.mem_iff.mpr member')).resolve_left different
  obtain ⟨front', back', split⟩ := List.append_of_mem later
  have last : (front' ++ back' ++ [y]).Perm (front ++ back) := by
    rw [split, List.append_assoc]
    exact List.perm_append_comm.append_left front'
  exact ⟨front' ++ back', (last.cons x).trans first⟩

/-- Limited first and sorted afterwards, a list that starts with `a` and ends with `b` shows the one
    and leaves out the other. -/
theorem before_of_selects {items middle : List α} {max : Nat} {a b : α}
    (perm : ((a :: middle) ++ [b]).Perm items)
    (positive : max ≠ 0) (more : max < items.length)
    (selected : Selects before max items ((((a :: middle) ++ [b]).take max).insertionSort before)) :
    before a b := by
  obtain ⟨rest, whole, after⟩ := selected.leftOut
  have fits : max ≤ (a :: middle).length := by
    have count := perm.length_eq
    rw [List.length_append, List.length_singleton] at count
    omega
  have isShown : a ∈ (((a :: middle) ++ [b]).take max).insertionSort before := by
    rw [List.mem_insertionSort, List.take_append_of_le_length fits]
    obtain ⟨limit, rfl⟩ := Nat.exists_eq_succ_of_ne_zero positive
    exact List.mem_cons_self
  have isLeftOut : b ∈ rest := by
    have sorted := List.perm_insertionSort before (((a :: middle) ++ [b]).take max)
    have joined := sorted.symm.append_right (((a :: middle) ++ [b]).drop max)
    rw [List.take_append_drop] at joined
    have dropped := (List.perm_append_left_iff _).mp (whole.trans (perm.symm.trans joined))
    rw [dropped.mem_iff, List.drop_append_of_le_length fits]
    exact List.mem_append_right _ (List.mem_singleton_self b)
  exact after a isShown b isLeftOut

section Limits

variable [Std.Total before] [IsTrans α before] {items shown : List α} {max : Nat}

theorem selects_take_sort (max : Nat) (items : List α) :
    Selects before max items ((items.insertionSort before).take max) where
  inOrder := (List.pairwise_insertionSort before items).sublist (List.take_sublist _ _)
  length := by rw [List.length_take, List.length_insertionSort]
  leftOut := by
    have inOrder := List.pairwise_insertionSort before items
    rw [← List.take_append_drop max (items.insertionSort before), List.pairwise_append] at inOrder
    refine ⟨(items.insertionSort before).drop max, ?_, inOrder.2.2⟩
    rw [List.take_append_drop]
    exact List.perm_insertionSort before items

theorem selects_sort_take {order : List α} (perm : order.Perm items)
    (chosen : ∀ a ∈ order.take max, ∀ b ∈ order.drop max, before a b) :
    Selects before max items ((order.take max).insertionSort before) where
  inOrder := List.pairwise_insertionSort before _
  length := by rw [List.length_insertionSort, List.length_take, perm.length_eq]
  leftOut := by
    refine ⟨order.drop max, ?_, ?_⟩
    · have whole := (List.perm_insertionSort before (order.take max)).append_right (order.drop max)
      rw [List.take_append_drop] at whole
      exact whole.trans perm
    · intro a member b
      exact chosen a ((List.mem_insertionSort before).mp member) b

/-- Limited first, the right ones of the items that `parse` makes of the entries are kept in every
    order of the entries if and only if nothing is kept, or everything is, or every two items are
    before and after one another. -/
theorem selects_sort_take_iff {ε : Type v} {parse : ε → Option α} {entries : List ε} :
    (∀ order : List ε, order.Perm entries →
      Selects before max (entries.filterMap parse)
        (((order.filterMap parse).take max).insertionSort before)) ↔
      max = 0 ∨ (entries.filterMap parse).length ≤ max ∨
        ∀ a ∈ entries.filterMap parse, ∀ b ∈ entries.filterMap parse, before a b := by
  constructor
  · intro selects
    by_contra otherwise
    push Not at otherwise
    obtain ⟨positive, more, a, member, b, member', notBefore⟩ := otherwise
    obtain ⟨x, inEntries, parsed⟩ := List.mem_filterMap.mp member
    obtain ⟨y, inEntries', parsed'⟩ := List.mem_filterMap.mp member'
    have different : y ≠ x := by
      rintro rfl
      cases parsed.symm.trans parsed'
      exact notBefore ((total_of before a a).elim id id)
    -- the order that meets `x` first and `y` last
    obtain ⟨between, perm⟩ := exists_perm_ends inEntries inEntries' different
    have items : ((x :: between) ++ [y]).filterMap parse = (a :: between.filterMap parse) ++
        [b] := by
      simp [parsed, parsed']
    have selected := selects _ perm
    rw [items] at selected
    exact notBefore (before_of_selects (items ▸ perm.filterMap parse) positive more selected)
  · intro choice order perm
    have permItems := perm.filterMap parse
    apply selects_sort_take permItems
    intro a member b member'
    obtain rfl | all | same := choice
    · cases member
    · rw [List.drop_eq_nil_of_le (permItems.length_eq ▸ all)] at member'
      cases member'
    · exact same a (permItems.mem_iff.mp (List.mem_of_mem_take member)) b
        (permItems.mem_iff.mp (List.mem_of_mem_drop member'))

/-- What is selected is determined up to items that the order does not tell apart. -/
theorem Selects.keys_eq {β : Type v} [LinearOrder β] {key : α → β}
    (byKey : ∀ a b, before a b ↔ key a ≤ key b)
    {shown' : List α} (selected : Selects before max items shown)
    (selected' : Selects before max items shown') :
    shown.map key = shown'.map key := by
  -- the keys of any selection are the first ones of the sorted keys
  have keys : ∀ {list : List α}, Selects before max items list →
      list.map key = ((items.map key).insertionSort (· ≤ ·)).take max := by
    intro list selected
    obtain ⟨rest, perm, after⟩ := selected.leftOut
    have whole : ((list ++ rest.insertionSort before).map key) = (items.map key).insertionSort
        (· ≤ ·) := by
      refine List.Perm.eq_of_pairwise' (r := (· ≤ ·)) ?_ (List.pairwise_insertionSort _ _) ?_
      · refine List.pairwise_map.mpr (List.Pairwise.imp (fun {a b} => (byKey a b).mp) ?_)
        refine List.pairwise_append.mpr ⟨selected.inOrder,
          List.pairwise_insertionSort before rest, ?_⟩
        intro a member b member'
        exact after a member b ((List.mem_insertionSort before).mp member')
      · have sorted := ((List.perm_insertionSort before rest).append_left list).trans perm
        exact (sorted.map key).trans (List.perm_insertionSort _ _).symm
    rw [← whole, List.map_append]
    have count := perm.length_eq
    rw [List.length_append] at count
    -- either the selection is full, or nothing was left out
    by_cases short : max ≤ items.length
    · have full : (list.map key).length = max := by
        rw [List.length_map, selected.length, Nat.min_eq_left short]
      rw [← full, List.take_left]
    · have all := selected.length
      have none : rest = [] := List.eq_nil_of_length_eq_zero (by omega)
      rw [none, List.insertionSort_nil, List.map_nil, List.append_nil, List.take_of_length_le
        (by rw [List.length_map]; omega)]
  rw [keys selected, keys selected']

end Limits

end TrainWatch.Library
