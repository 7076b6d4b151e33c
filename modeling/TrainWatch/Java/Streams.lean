import TrainWatch.Java.Lang
import Mathlib.Data.List.Sort

/-! # Streams whose stages may throw

A stream pulls its elements in order, and an exception of a stage ends it.  `limit`
stops pulling once it has its elements, so later elements are not looked at; `sorted`
compares every element as soon as there are two.
-/

namespace TrainWatch.Java

universe u v

section Streams

variable {α : Type u} {β : Type v}

/-- `filter` with a predicate that may throw on an element. -/
def filterE (keep : α → Except JavaException Bool) : List α → Except JavaException (List α)
  | [] => .ok []
  | a :: as =>
    match keep a, filterE keep as with
    | .ok true, .ok kept => .ok (a :: kept)
    | .ok false, rest => rest
    | .ok true, .error thrown => .error thrown
    | .error thrown, _ => .error thrown

theorem mem_of_filterE {keep : α → Except JavaException Bool} {as kept : List α}
    (filtered : filterE keep as = .ok kept) {a : α} :
    a ∈ kept ↔ a ∈ as ∧ keep a = .ok true := by
  induction as generalizing kept with
  | nil => cases filtered; simp
  | cons b as inductionHypothesis =>
    simp only [filterE] at filtered
    split at filtered
    · rename_i rest accepted tail
      cases filtered
      rw [List.mem_cons, inductionHypothesis tail, List.mem_cons]
      constructor
      · rintro (rfl | ⟨member, keeps⟩)
        · exact ⟨.inl rfl, accepted⟩
        · exact ⟨.inr member, keeps⟩
      · rintro ⟨rfl | member, keeps⟩
        · exact .inl rfl
        · exact .inr ⟨member, keeps⟩
    · rename_i rejected
      rw [inductionHypothesis filtered, List.mem_cons]
      constructor
      · rintro ⟨member, keeps⟩
        exact ⟨.inr member, keeps⟩
      · rintro ⟨rfl | member, keeps⟩
        · rw [rejected] at keeps; cases keeps
        · exact ⟨member, keeps⟩
    · cases filtered
    · cases filtered

theorem ok_of_filterE {keep : α → Except JavaException Bool} {as kept : List α}
    (filtered : filterE keep as = .ok kept) {a : α} (member : a ∈ as) :
    ∃ verdict, keep a = .ok verdict := by
  induction as generalizing kept with
  | nil => cases member
  | cons b as inductionHypothesis =>
    simp only [filterE] at filtered
    split at filtered
    · rename_i rest accepted tail
      rcases List.mem_cons.mp member with rfl | later
      · exact ⟨true, accepted⟩
      · exact inductionHypothesis tail later
    · rename_i rejected
      rcases List.mem_cons.mp member with rfl | later
      · exact ⟨false, rejected⟩
      · exact inductionHypothesis filtered later
    · cases filtered
    · cases filtered

theorem filterE_completes {keep : α → Except JavaException Bool} {as : List α}
    (decides : ∀ a ∈ as, ∃ verdict, keep a = .ok verdict) : ∃ kept, filterE keep as = .ok kept := by
  induction as with
  | nil => exact ⟨[], rfl⟩
  | cons a as inductionHypothesis =>
    obtain ⟨verdict, here⟩ := decides a List.mem_cons_self
    obtain ⟨kept, tail⟩ := inductionHypothesis fun b member =>
      decides b (List.mem_cons_of_mem _ member)
    cases verdict with
    | true => exact ⟨a :: kept, by rw [filterE, here, tail]⟩
    | false => exact ⟨kept, by rw [filterE, here, tail]⟩

end Streams

/-! ## Stages that complete on all elements -/

section Pipelines

variable {α β : Type}

theorem mapM_eq_ok {stage : α → Except JavaException β} {image : α → β} {as : List α}
    (completes : ∀ a ∈ as, stage a = .ok (image a)) : as.mapM stage = .ok (as.map image) := by
  induction as with
  | nil => rfl
  | cons a as inductionHypothesis =>
    have tail := inductionHypothesis fun b member => completes b (List.mem_cons_of_mem _ member)
    simp [List.mapM_cons, completes a List.mem_cons_self, tail]

theorem mem_of_mapM_eq_ok {stage : α → Except JavaException β} {as : List α} {bs : List β}
    (mapped : as.mapM stage = .ok bs) {b : β} (member : b ∈ bs) : ∃ a ∈ as, stage a = .ok b := by
  induction as generalizing bs with
  | nil =>
    cases mapped
    cases member
  | cons a as inductionHypothesis =>
    rw [List.mapM_cons] at mapped
    obtain ⟨b', here, rest⟩ := bind_eq_ok.mp mapped
    obtain ⟨tail, mappedTail, result⟩ := bind_eq_ok.mp rest
    cases result
    obtain rfl | inTail := List.mem_cons.mp member
    · exact ⟨a, List.mem_cons_self, here⟩
    · obtain ⟨a', inAs, there⟩ := inductionHypothesis mappedTail inTail
      exact ⟨a', List.mem_cons_of_mem _ inAs, there⟩

/-- The first `max` elements that `stage` keeps, and no look at the elements after them. -/
def limitE (stage : α → Except JavaException (Option β)) :
    Nat → List α → Except JavaException (List β)
  | 0, _ => .ok []
  | _ + 1, [] => .ok []
  | max + 1, a :: as => do
    match ← stage a with
    | none => limitE stage (max + 1) as
    | some b =>
      let rest ← limitE stage max as
      pure (b :: rest)

/-- What a stage keeps of an element on which it completes. -/
def keptBy (stage : α → Except JavaException (Option β)) (a : α) : Option β :=
  match stage a with
  | .ok kept => kept
  | .error _ => none

theorem eq_keptBy {stage : α → Except JavaException (Option β)} {a : α}
    (completes : ∃ kept, stage a = .ok kept) :
    stage a = .ok (keptBy stage a) := by
  obtain ⟨kept, here⟩ := completes
  rw [keptBy, here]

theorem limitE_eq_ok {stage : α → Except JavaException (Option β)} {as : List α}
    (completes : ∀ a ∈ as, ∃ kept, stage a = .ok kept) (max : Nat) :
    limitE stage max as = .ok ((as.filterMap (keptBy stage)).take max) := by
  induction as generalizing max with
  | nil =>
    cases max with
    | zero => rfl
    | succ max => rfl
  | cons a as inductionHypothesis =>
    have tail := inductionHypothesis fun b member => completes b (List.mem_cons_of_mem _ member)
    cases max with
    | zero => rfl
    | succ max =>
      have here := eq_keptBy (completes a List.mem_cons_self)
      cases kept : keptBy stage a with
      | none =>
        rw [kept] at here
        simp [limitE, here, tail, kept]
      | some b =>
        rw [kept] at here
        simp [limitE, here, tail, kept]

/-- With room for all elements, every one of them is looked at. -/
theorem completes_of_limitE {stage : α → Except JavaException (Option β)} {max : Nat} {as : List α}
    {taken : List β}
    (room : as.length ≤ max) (completed : limitE stage max as = .ok taken) :
    ∀ a ∈ as, ∃ kept, stage a = .ok kept := by
  induction as generalizing max taken with
  | nil =>
    intro a member
    cases member
  | cons b as inductionHypothesis =>
    obtain ⟨max, rfl⟩ : ∃ limit, max = limit + 1 :=
      Nat.exists_eq_succ_of_ne_zero (by rintro rfl; cases room)
    have room' : as.length ≤ max := Nat.le_of_succ_le_succ room
    simp only [limitE] at completed
    obtain ⟨kept, here, rest⟩ := bind_eq_ok.mp completed
    intro a member
    obtain rfl | later := List.mem_cons.mp member
    · exact ⟨kept, here⟩
    · cases kept with
      | none => exact inductionHypothesis (Nat.le_succ_of_le room') rest a later
      | some first =>
        obtain ⟨taken, tail, _⟩ := bind_eq_ok.mp rest
        exact inductionHypothesis room' tail a later

theorem ok_of_limitE {stage : α → Except JavaException (Option β)} {max : Nat} {a : α} {as : List α}
    {taken : List β} (completed : limitE stage (max + 1) (a :: as) = .ok taken) :
    ∃ kept, stage a = .ok kept := by
  simp only [limitE] at completed
  obtain ⟨kept, here, _⟩ := bind_eq_ok.mp completed
  exact ⟨kept, here⟩

/-- The elements that `limit` pulls through the stage: the first, and those after it until the stage
    throws or has kept enough. -/
inductive Pulled (stage : α → Except JavaException (Option β)) : Nat → List α → α → Prop where
  | first (max : Nat) (a : α) (as : List α) : Pulled stage (max + 1) (a :: as) a
  | afterDropped {max : Nat} {a a' : α} {as : List α} (here : stage a = .ok none)
      (later : Pulled stage (max + 1) as a') : Pulled stage (max + 1) (a :: as) a'
  | afterKept {max : Nat} {a a' : α} {as : List α} {b : β} (here : stage a = .ok (some b))
      (later : Pulled stage max as a') : Pulled stage (max + 1) (a :: as) a'

/-- Stages that agree on what the first of them pulls hand on the same elements. -/
theorem limitE_congr {stage stage' : α → Except JavaException (Option β)} {max : Nat} {as : List α}
    (agree : ∀ a, Pulled stage max as a → stage a = stage' a) :
    limitE stage max as = limitE stage' max as := by
  induction as generalizing max with
  | nil => cases max <;> rfl
  | cons a as inductionHypothesis =>
    cases max with
    | zero => rfl
    | succ max =>
      have here := agree a (.first max a as)
      rw [limitE, limitE, ← here]
      cases decided : stage a with
      | error thrown => rfl
      | ok kept =>
        cases kept with
        | none => exact inductionHypothesis fun a' later => agree a' (.afterDropped decided later)
        | some b =>
          rw [ok_bind, ok_bind]
          dsimp only
          rw [inductionHypothesis fun a' later => agree a' (.afterKept decided later)]

theorem mem_of_limitE {stage : α → Except JavaException (Option β)} {max : Nat} {as : List α}
    {taken : List β}
    (completed : limitE stage max as = .ok taken) {b : β} (member : b ∈ taken) :
    ∃ a ∈ as, stage a = .ok (some b) := by
  induction as generalizing max taken with
  | nil => cases max <;> cases completed <;> cases member
  | cons a as inductionHypothesis =>
    -- what the rest hands over comes from the rest, whatever is left of the limit
    have later : ∀ {max taken}, limitE stage max as = .ok taken → b ∈ taken → ∃ a' ∈ a :: as,
        stage a' = .ok (some b) := by
      intro max taken rest member
      obtain ⟨a', inTail, handed⟩ := inductionHypothesis rest member
      exact ⟨a', List.mem_cons_of_mem _ inTail, handed⟩
    cases max with
    | zero =>
      cases completed
      cases member
    | succ max =>
      obtain ⟨kept, here, rest⟩ := bind_eq_ok.mp completed
      cases kept with
      | none => exact later rest member
      | some b' =>
        obtain ⟨taken, tail, result⟩ := bind_eq_ok.mp rest
        cases result
        obtain rfl | inTail := List.mem_cons.mp member
        · exact ⟨a, List.mem_cons_self, here⟩
        · exact later tail inTail

/-- Two stages that differ only in which elements they drop agree on all they pull, if they hand on
    the same. -/
theorem agree_of_limitE {stage stage' : α → Except JavaException (Option β)} {max : Nat}
    {as : List α}
    {taken taken' : List β}
    (keeps : ∀ a b b', stage a = .ok (some b) → stage' a = .ok (some b') → b = b')
    (drops : ∀ a a' b, stage a = .ok (some b) → stage' a' = .ok (some b) → stage' a = .ok (some b))
    (drops' : ∀ a a' b, stage' a = .ok (some b) → stage a' = .ok (some b) → stage a = .ok (some b))
    (completed : limitE stage max as = .ok taken) (completed' : limitE stage' max as = .ok taken')
    (same : taken.Perm taken') {a : α} (pulled : Pulled stage max as a) : stage a = stage' a := by
  induction as generalizing max taken taken' with
  | nil => cases pulled
  | cons first as inductionHypothesis =>
    cases max with
    | zero => cases pulled
    | succ max =>
      obtain ⟨kept, here, rest⟩ := bind_eq_ok.mp completed
      obtain ⟨kept', here', rest'⟩ := bind_eq_ok.mp completed'
      cases kept with
      | none =>
        cases kept' with
        | none =>
          cases pulled with
          | first => rw [here, here']
          | afterDropped _ later => exact inductionHypothesis rest rest' same later
          | afterKept kept _ => cases here.symm.trans kept
        | some b =>
          -- the first stage hands this element on too, so it cannot drop it here
          obtain ⟨tail, _, result⟩ := bind_eq_ok.mp rest'
          cases result
          obtain ⟨a', _, handed⟩ := mem_of_limitE completed (same.mem_iff.mpr List.mem_cons_self)
          cases here.symm.trans (drops' first a' b here' handed)
      | some b =>
        obtain ⟨tail, limited, result⟩ := bind_eq_ok.mp rest
        cases result
        cases kept' with
        | none =>
          obtain ⟨a', _, handed⟩ := mem_of_limitE completed' (same.mem_iff.mp List.mem_cons_self)
          cases here'.symm.trans (drops first a' b here handed)
        | some b' =>
          obtain ⟨tail', limited', result⟩ := bind_eq_ok.mp rest'
          cases result
          cases keeps first b b' here here'
          cases pulled with
          | first => rw [here, here']
          | afterDropped dropped _ => cases here.symm.trans dropped
          | afterKept _ later => exact inductionHypothesis limited limited' same.cons_inv later

theorem limitE_forall₂ {γ : Type} {stage : α → Except JavaException (Option β)}
    {stage' : γ → Except JavaException (Option β)} {as : List α} {cs : List γ}
    (alike : List.Forall₂ (fun a c => stage a = stage' c) as cs) (max : Nat) :
    limitE stage max as = limitE stage' max cs := by
  induction alike generalizing max with
  | nil => cases max <;> rfl
  | cons here _ inductionHypothesis =>
    cases max with
    | zero => rfl
    | succ max =>
      rw [limitE, limitE, here]
      refine bind_congr fun kept => ?_
      cases kept with
      | none => exact inductionHypothesis (max + 1)
      | some b =>
        dsimp only
        rw [inductionHypothesis max]

/-- Insertion before the first element it need not come after. -/
def insertE (notAfter : α → α → Except JavaException Bool) (a : α) :
    List α → Except JavaException (List α)
  | [] => .ok [a]
  | b :: bs => do
    if ← notAfter a b then pure (a :: b :: bs)
    else
      let rest ← insertE notAfter a bs
      pure (b :: rest)

/-- A stable sort by a comparison that may throw. -/
def sortedE (notAfter : α → α → Except JavaException Bool) : List α → Except JavaException (List α)
  | [] => .ok []
  | a :: as => do
    let sorted ← sortedE notAfter as
    insertE notAfter a sorted

theorem perm_of_insertE {notAfter : α → α → Except JavaException Bool} {a : α}
    {as inserted : List α}
    (completed : insertE notAfter a as = .ok inserted) : inserted.Perm (a :: as) := by
  induction as generalizing inserted with
  | nil =>
    cases completed
    rfl
  | cons b bs inductionHypothesis =>
    obtain ⟨first, _, rest⟩ := bind_eq_ok.mp completed
    cases first with
    | true =>
      cases rest
      rfl
    | false =>
      obtain ⟨tail, inTail, result⟩ := bind_eq_ok.mp rest
      cases result
      exact ((inductionHypothesis inTail).cons b).trans (.swap a b bs)

theorem perm_of_sortedE {notAfter : α → α → Except JavaException Bool} {as sorted : List α}
    (completed : sortedE notAfter as = .ok sorted) : sorted.Perm as := by
  induction as generalizing sorted with
  | nil =>
    cases completed
    rfl
  | cons a as inductionHypothesis =>
    obtain ⟨tail, sortedTail, inserted⟩ := bind_eq_ok.mp completed
    exact (perm_of_insertE inserted).trans ((inductionHypothesis sortedTail).cons a)

variable {notAfter : α → α → Except JavaException Bool}
    {before : α → α → Prop} [DecidableRel before]

theorem insertE_eq_ok {a : α} {as : List α}
    (compares : ∀ b ∈ as, notAfter a b = .ok (decide (before a b))) :
    insertE notAfter a as = .ok (as.orderedInsert before a) := by
  induction as with
  | nil => rfl
  | cons b bs inductionHypothesis =>
    have tail := inductionHypothesis fun c member => compares c (List.mem_cons_of_mem _ member)
    by_cases first : before a b
    · simp [insertE, compares b List.mem_cons_self, first]
    · simp [insertE, compares b List.mem_cons_self, first, tail]

theorem sortedE_eq_ok {as : List α}
    (compares : ∀ a ∈ as, ∀ b ∈ as, notAfter a b = .ok (decide (before a b))) :
    sortedE notAfter as = .ok (as.insertionSort before) := by
  induction as with
  | nil => rfl
  | cons a as inductionHypothesis =>
    have tail := inductionHypothesis fun b inTail c inTail' =>
      compares b (List.mem_cons_of_mem _ inTail) c (List.mem_cons_of_mem _ inTail')
    have inserted : insertE notAfter a (as.insertionSort before) = _ :=
      insertE_eq_ok fun b member =>
      compares a List.mem_cons_self b
        (List.mem_cons_of_mem _ ((List.mem_insertionSort before).mp member))
    simp [sortedE, tail, inserted]

end Pipelines

end TrainWatch.Java
