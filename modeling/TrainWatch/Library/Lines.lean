import Mathlib.Data.List.Basic

/-! # Texts read line by line

A line is read with the terminator at its end; what stands behind the last terminator is
a line too, unless there is nothing.  Records without a terminator, each written with one
behind it, are read back one by one.
-/

namespace TrainWatch.Library

universe u

variable {α : Type u} [DecidableEq α] (newline : α)

def lines : List α → List (List α)
  | [] => []
  | c :: text =>
    if c = newline then [c] :: lines text
    else
      match lines text with
      | [] => [[c]]
      | line :: more => (c :: line) :: more

def unlines (records : List (List α)) : List α := records.flatMap fun record => record ++ [newline]

variable {newline}

theorem lines_append {record : List α} (oneLine : newline ∉ record) (text : List α) :
    lines newline (record ++ newline :: text) = (record ++ [newline]) :: lines newline text := by
  induction record with
  | nil => simp [lines]
  | cons c record inductionHypothesis =>
    rw [List.mem_cons, not_or] at oneLine
    have different : c ≠ newline := Ne.symm oneLine.1
    simp [lines, different, inductionHypothesis oneLine.2]

theorem lines_unlines {records : List (List α)} (oneLine : ∀ record ∈ records, newline ∉ record) :
    lines newline (unlines newline records) = records.map (· ++ [newline]) := by
  induction records with
  | nil => rfl
  | cons record records inductionHypothesis =>
    have rest := inductionHypothesis fun other member =>
      oneLine other (List.mem_cons_of_mem _ member)
    rw [unlines, List.flatMap_cons, List.append_assoc, List.singleton_append,
      lines_append (oneLine record List.mem_cons_self), List.map_cons]
    exact congrArg _ rest

end TrainWatch.Library
