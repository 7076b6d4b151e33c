import TrainWatch.Java.Lang
import Mathlib.Data.List.Perm.Subperm

/-! # Parallel streams and futures

A parallel `map(stage).forEach(action)` hands the elements over in any order, each to both
stages.  An element that fails does not stop those other threads are busy with; the stream
throws one of the failures, and by then any part of the elements has been handed over.  A
future is seen by the thread that waits for it.
-/

namespace TrainWatch.Java

/-- What a method can throw; `catch (Exception e)` lets an error pass. -/
inductive Throwable (ε : Type) where
  | exception (thrown : ε)
  | error (name : String)
deriving DecidableEq, Repr

/-! ## Parallel streams -/

namespace ParallelStream

variable {α β σ τ : Type}

/-- One element: what the action sees it with, and the element mapped if both stages accept it. -/
def handle (stage : α → Except τ β) (action : σ → β → σ × Except τ Unit) (state : σ) (a : α) :
    σ × Except τ β :=
  match stage a with
  | .error thrown => (state, .error thrown)
  | .ok b =>
    match action state b with
    | (state, .ok ()) => (state, .ok b)
    | (state, .error thrown) => (state, .error thrown)

def fates (stage : α → Except τ β) (action : σ → β → σ × Except τ Unit) (state : σ) :
    List α → List (α × Except τ β)
  | [] => []
  | a :: as =>
    (a, (handle stage action state a).2) :: fates stage action (handle stage action state a).1 as

def reached (stage : α → Except τ β) (action : σ → β → σ × Except τ Unit) (state : σ)
    (as : List α) : σ :=
  as.foldl (fun state a => (handle stage action state a).1) state

/-- The stream completes when all elements were accepted, and can throw any failure among the
    elements handed over.  The elements are there: a source that cannot be opened or read further is
    left out. -/
inductive Traversal (stage : α → Except τ β) (action : σ → β → σ × Except τ Unit) (state : σ)
    (elements : List α) :
    List α → Except τ Unit → Prop where
  | completed {order : List α} (all : order.Perm elements)
      (accepted : ∀ fate ∈ fates stage action state order, ∃ b, fate.2 = .ok b) :
      Traversal stage action state elements order (.ok ())
  | threw {order : List α} {a : α} {thrown : τ} (part : order.Subperm elements)
      (failed : (a, .error thrown) ∈ fates stage action state order) :
      Traversal stage action state elements order (.error thrown)

variable {stage : α → Except τ β} {action : σ → β → σ × Except τ Unit} {state : σ}

theorem handle_of_ok {a : α} {b : β} {next : σ} (mapped : stage a = .ok b)
    (acted : action state b = (next, .ok ())) :
    handle stage action state a = (next, .ok b) := by
  simp only [handle, mapped, acted]

theorem handle_of_error {a : α} {b : β} {next : σ} {thrown : τ} (mapped : stage a = .ok b)
    (acted : action state b = (next, .error thrown)) :
    handle stage action state a = (next, .error thrown) := by
  simp only [handle, mapped, acted]

theorem map_fst_fates (order : List α) : (fates stage action state order).map Prod.fst = order := by
  induction order generalizing state with
  | nil => rfl
  | cons a order inductionHypothesis => rw [fates, List.map_cons, inductionHypothesis]

theorem fates_append (first second : List α) :
    fates stage action state (first ++ second) =
      fates stage action state first ++ fates stage action
        (reached stage action state first) second := by
  induction first generalizing state with
  | nil => rfl
  | cons a first inductionHypothesis =>
    rw [List.cons_append, fates, fates, inductionHypothesis]
    rfl

theorem fates_of_stateless {fate : α → Except τ β}
    (stateless : ∀ state a, (handle stage action state a).2 = fate a)
    (order : List α) : fates stage action state order = order.map fun a => (a, fate a) := by
  induction order generalizing state with
  | nil => rfl
  | cons a order inductionHypothesis => rw [fates, stateless, inductionHypothesis, List.map_cons]

theorem stage_eq_of_handle {a : α} {b : β} (accepted : (handle stage action state a).2 = .ok b) :
    stage a = .ok b := by
  unfold handle at accepted
  cases mapped : stage a with
  | error thrown =>
    rw [mapped] at accepted
    cases accepted
  | ok b' =>
    rw [mapped] at accepted
    dsimp only at accepted
    split at accepted
    · exact accepted
    · cases accepted

theorem stage_eq_of_fates {order : List α} {a : α} {b : β}
    (accepted : (a, .ok b) ∈ fates stage action state order) :
    stage a = .ok b := by
  induction order generalizing state with
  | nil => cases accepted
  | cons first order inductionHypothesis =>
    obtain here | later := List.mem_cons.mp accepted
    · obtain ⟨rfl, fate⟩ := Prod.mk.inj here
      exact stage_eq_of_handle fate.symm
    · exact inductionHypothesis later

/-- The rest of the elements can follow those handed over, with the same fates for the first. -/
theorem exists_complete_order {elements order : List α} (part : order.Subperm elements) :
    ∃ whole, whole.Perm elements ∧
      ∀ fate ∈ fates stage action state order, fate ∈ fates stage action state whole := by
  obtain ⟨handed, perm, sublist⟩ := part
  obtain ⟨rest, whole⟩ := sublist.exists_perm_append
  refine ⟨order ++ rest, (whole.trans (perm.append_right rest)).symm, fun fate member => ?_⟩
  rw [fates_append]
  exact List.mem_append_left _ member

theorem exists_traversal {elements order : List α} (all : order.Perm elements) :
    ∃ outcome, Traversal stage action state elements order outcome := by
  by_cases accepted : ∀ fate ∈ fates stage action state order, ∃ b, fate.2 = .ok b
  · exact ⟨.ok (), .completed all accepted⟩
  · obtain ⟨⟨a, fate⟩, member, failed⟩ := not_forall₂.mp accepted
    cases fate with
    | ok b => exact absurd ⟨b, rfl⟩ failed
    | error thrown => exact ⟨.error thrown, .threw all.subperm member⟩

end ParallelStream

/-! ## Futures -/

/-- A future nobody completes leaves the waiting thread waiting. -/
inductive CompletableFuture (τ : Type) where
  | pending
  | completed
  | completedExceptionally (thrown : τ)
deriving DecidableEq, Repr

inductive LogEvent (τ : Type) where
  | info (message : String)
  | error (message : String) (thrown : τ)
deriving DecidableEq, Repr

/-- How a `main` ends: what its callback logged and what it throws. -/
structure Ending (τ : Type) where
  logged : List (LogEvent τ)
  thrown : Option τ
deriving DecidableEq, Repr

namespace CompletableFuture

variable {τ : Type}

/-- Whatever the task throws completes the future exceptionally, errors included. -/
def runAsync : Except τ Unit → CompletableFuture τ
  | .ok () => .completed
  | .error thrown => .completedExceptionally thrown

/-- Only the first completion counts. -/
def complete : CompletableFuture τ → CompletableFuture τ
  | .pending => .completed
  | done => done

def completeExceptionally (thrown : τ) : CompletableFuture τ → CompletableFuture τ
  | .pending => .completedExceptionally thrown
  | done => done

/-- `whenCompleteAsync(callback).get()`: the callback runs, then the failure, if any, is thrown. -/
def whenCompleteGet (callback : Option τ → List (LogEvent τ)) :
    CompletableFuture τ → Option (Ending τ)
  | .pending => none
  | .completed => some ⟨callback none, none⟩
  | .completedExceptionally thrown => some ⟨callback (some thrown), some thrown⟩

end CompletableFuture

end TrainWatch.Java
