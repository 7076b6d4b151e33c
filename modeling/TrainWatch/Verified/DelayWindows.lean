import TrainWatch.Search.HzTrainWatchSearch
import TrainWatch.Movement.Repositories
import TrainWatch.Library.Selection

/-! # The newest movements of each delay window

The movements are sorted once, before they are grouped, and each group is cut to the
limit afterwards: grouping is filtering, which keeps the order, so each window shows its
newest movements.
-/

namespace TrainWatch.Verified.DelayWindows

open TrainWatch.Java TrainWatch.Library TrainWatch.Movement TrainWatch.Search
open TrainWatch.Search.HzTrainWatchSearch

/-- The order of `TrainMovement.compareTo`. -/
abbrev NewestFirst (tm o : TrainMovement) : Prop := o.timestamp.epochMilli ≤ tm.timestamp.epochMilli

instance : Std.Total NewestFirst := ⟨fun _ _ => Int.le_total _ _⟩

instance : IsTrans TrainMovement NewestFirst :=
  ⟨fun _ _ _ first second => Int.le_trans second first⟩

def windowOf (tm : TrainMovement) : DelayWindow := DelayWindow.fromDelay tm.delay

def inWindow (dw : DelayWindow) (movements : List TrainMovement) : List TrainMovement :=
  movements.filter fun tm => windowOf tm = dw

def allShown (result : DelayWindow → Option (List TrainMovement)) : List TrainMovement :=
  DelayWindow.sortedValues.flatMap fun dw => (result dw).getD []

theorem sortMovements_eq (movements : List TrainMovement) :
    sortMovements movements = movements.insertionSort NewestFirst := rfl

theorem collectSortedMovements_eq (movements : List TrainMovement) (dw : DelayWindow) :
    collectSortedMovements movements dw =
      if inWindow dw movements = [] then none else some
        ((inWindow dw movements).insertionSort NewestFirst) := by
  have group : ((sortMovements movements).filter fun tm => DelayWindow.fromDelay tm.delay = dw) =
      (inWindow dw movements).insertionSort NewestFirst := by
    rw [sortMovements_eq, filter_insertionSort]
    rfl
  rw [collectSortedMovements, group]
  by_cases empty : inWindow dw movements = []
  · rw [if_pos empty, empty]
    rfl
  · rw [if_neg empty]
    cases sorted : (inWindow dw movements).insertionSort NewestFirst with
    | nil =>
      have count := List.length_insertionSort NewestFirst (inWindow dw movements)
      rw [sorted] at count
      exact absurd (List.eq_nil_of_length_eq_zero count.symm) empty
    | cons tm rest => rfl

def newest (max : Nat) (movements : List TrainMovement) (dw : DelayWindow) :
    Option (List TrainMovement) :=
  if inWindow dw movements = [] then none else some
    (((inWindow dw movements).insertionSort NewestFirst).take max)

theorem delayedTrainsByAllWindows_eq_ok (movements : List TrainMovement) {maxResults : Int}
    (notNegative : 0 ≤ maxResults) :
    delayedTrainsByAllWindows movements maxResults = .ok (newest maxResults.toNat movements) := by
  rw [delayedTrainsByAllWindows, limit_eq_ok notNegative]
  congr 1
  funext dw
  rw [collectSortedMovements_eq, newest]
  by_cases empty : inWindow dw movements = []
  · rw [if_pos empty, if_pos empty]
    rfl
  · rw [if_neg empty, if_neg empty]
    rfl

theorem getD_newest (max : Nat) (movements : List TrainMovement) (dw : DelayWindow) :
    (newest max movements dw).getD [] =
    ((inWindow dw movements).insertionSort NewestFirst).take max := by
  rw [newest]
  by_cases empty : inWindow dw movements = []
  · rw [if_pos empty, empty]
    simp
  · rw [if_neg empty]
    rfl

/-- Without the limits, every movement is shown once. -/
theorem perm_groups (movements : List TrainMovement) :
    (DelayWindow.sortedValues.flatMap fun dw =>
      (inWindow dw movements).insertionSort NewestFirst).Perm movements := by
  have sorted :
      (DelayWindow.sortedValues.flatMap fun dw =>
        (inWindow dw movements).insertionSort NewestFirst).Perm
      (DelayWindow.sortedValues.flatMap fun dw => inWindow dw movements) :=
    List.Perm.flatMap_left _ fun dw _ => List.perm_insertionSort NewestFirst (inWindow dw movements)
  have nodup : DelayWindow.sortedValues.Nodup := by decide
  -- every delay falls into one of the four windows
  have groups := flatMap_groups windowOf nodup movements
  have all : (movements.filter fun tm => windowOf tm ∈ DelayWindow.sortedValues) = movements := by
    rw [List.filter_eq_self]
    intro tm _
    exact decide_eq_true (DelayWindow.mem_sortedValues (windowOf tm))
  rw [all] at groups
  exact sorted.trans groups

theorem sublist_groups (max : Nat) (movements : List TrainMovement) :
    (allShown (newest max movements)).Sublist
      (DelayWindow.sortedValues.flatMap fun dw =>
        (inWindow dw movements).insertionSort NewestFirst) := by
  apply List.Sublist.flatMap_right
  intro dw _
  rw [getD_newest]
  exact List.take_sublist _ _

/-- Whatever the limit, a window shows delays of its own range only. -/
theorem delay_of_shown {movements shown : List TrainMovement} {max : Nat} {dw : DelayWindow}
    (found : newest max movements dw = some shown) {tm : TrainMovement} (member : tm ∈ shown) :
    dw.Contains tm.delay := by
  have cut := getD_newest max movements dw
  rw [found, Option.getD_some] at cut
  rw [cut] at member
  have grouped := (List.mem_insertionSort NewestFirst).mp (List.mem_of_mem_take member)
  exact DelayWindow.fromDelay_eq_iff.mp (of_decide_eq_true (List.mem_filter.mp grouped).2)

/-- For every store keyed by train id, in every order in which its movements are met, the windows
    shown are those with a movement, each shows the newest of its movements as far as the limit
    goes, no train is shown twice, and with room for the whole store all of it is shown. -/
theorem delayed_trains_are_newest {store : HzTrainMovementRepo}
    (keyed : IMap.Keyed TrainMovement.trainId store)
    {movements : List TrainMovement} (order : (movements : Multiset _) = IMap.values store)
    {maxResults : Int}
    (notNegative : 0 ≤ maxResults) :
    ∃ result, delayedTrainsByAllWindows movements maxResults = .ok result ∧
      (∀ dw, (result dw).isSome ↔ ∃ tm ∈ movements, DelayWindow.fromDelay tm.delay = dw) ∧
      (∀ dw shown, result dw = some shown →
        Selects NewestFirst maxResults.toNat (movements.filter fun tm =>
          DelayWindow.fromDelay tm.delay = dw) shown) ∧
      ((allShown result).map (·.trainId)).Nodup ∧
      ((movements.length : Int) ≤ maxResults → (allShown result).Perm movements) := by
  refine ⟨_, delayedTrainsByAllWindows_eq_ok movements notNegative, ?_, ?_, ?_, ?_⟩
  · intro dw
    rw [newest]
    by_cases empty : inWindow dw movements = []
    · rw [if_pos empty]
      rw [inWindow, List.filter_eq_nil_iff] at empty
      refine iff_of_false (by simp) ?_
      rintro ⟨tm, member, here⟩
      exact empty tm member (decide_eq_true here)
    · rw [if_neg empty]
      obtain ⟨tm, member⟩ := List.exists_mem_of_ne_nil _ empty
      obtain ⟨stored, here⟩ := List.mem_filter.mp member
      exact iff_of_true rfl ⟨tm, stored, of_decide_eq_true here⟩
  · intro dw shown found
    have cut := getD_newest maxResults.toNat movements dw
    rw [found, Option.getD_some] at cut
    rw [cut]
    exact selects_take_sort maxResults.toNat (inWindow dw movements)
  · -- the store has a train once, and what is shown is a part of it
    have trains : (movements.map (·.trainId)).Nodup := by
      have nodup := keyed.nodup
      rw [← order] at nodup
      exact nodup
    have shown := (sublist_groups maxResults.toNat movements).map (·.trainId)
    exact (((perm_groups movements).map _).nodup_iff.mpr trains).sublist shown
  · intro room
    have uncut : allShown (newest maxResults.toNat movements) =
        DelayWindow.sortedValues.flatMap fun dw =>
          (inWindow dw movements).insertionSort NewestFirst := by
      apply List.flatMap_congr
      intro dw _
      rw [getD_newest]
      apply List.take_of_length_le
      rw [List.length_insertionSort]
      have fewer : (inWindow dw movements).length ≤ movements.length := List.length_filter_le _ _
      omega
    rw [uncut]
    exact perm_groups movements

/-! ## A late train and an early one -/

def movementOf (trainId : String) (delay : Int) (millis : Int) : TrainMovement :=
  { trainId, origin := none, departure := none, destination := none, arrival := none, delay
    currentLocation := none, timestamp := ⟨millis⟩, hasArrived := false, isPassenger := true }

def lateAndEarly : HzTrainMovementRepo :=
  ((∅ : HzTrainMovementRepo).put (movementOf "871A01MN18" 12 1000)).put
    (movementOf "871A02MN18" (-2) 2000)

/-- The rule at a store of two trains. -/
theorem late_and_early_are_shown :
    ∃ result, delayedTrainsByAllWindows [movementOf "871A02MN18" (-2) 2000,
      movementOf "871A01MN18" 12 1000] 5 = .ok result ∧
      (allShown result).Perm [movementOf "871A02MN18" (-2) 2000, movementOf "871A01MN18" 12 1000] ∧
      (result .upTo5mins).isSome := by
  have keyed : IMap.Keyed TrainMovement.trainId lateAndEarly := ((IMap.Keyed.empty _).set _).set _
  have order :
      (([movementOf "871A02MN18" (-2) 2000, movementOf "871A01MN18" 12 1000] :
        List TrainMovement) : Multiset _) = IMap.values lateAndEarly := by decide
  obtain ⟨result, shown, windows, _, _, all⟩ :=
    delayed_trains_are_newest keyed order (by decide : (0 : Int) ≤ 5)
  exact ⟨result, shown, all (by decide),
    (windows .upTo5mins).mpr ⟨_, List.mem_cons_self, by decide⟩⟩

end TrainWatch.Verified.DelayWindows
