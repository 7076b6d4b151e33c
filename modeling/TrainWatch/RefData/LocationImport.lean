import TrainWatch.RefData.Schedule
import TrainWatch.Library.Puts
import TrainWatch.Java.Concurrent

/-! # The import of a locations file

Every line is a location, put under its stanox and under its tiploc.  The stream is
parallel: the lines are handed over in any order, and when a put fails the import ends with
some of the others put.
-/

namespace TrainWatch.RefData

open TrainWatch.Java TrainWatch.Library

namespace LocationPopulator

/-- The lines in the order in which they are handed over, until a put fails. -/
def populate (repo : HzLocationRepo) :
    List LocationRecord → HzLocationRepo × Except JavaException Unit
  | [] => (repo, .ok ())
  | location :: lines =>
    match repo.put location.toLocation with
    | (repo, .ok ()) => populate repo lines
    | (repo, .error thrown) => (repo, .error thrown)

def stanoxKey (location : Location) : String := location.stanox.getD ""

def tiplocKey (location : Location) : String := location.tiploc.getD ""

structure Keyed (location : Location) : Prop where
  stanox : location.stanox = some (stanoxKey location)
  tiploc : location.tiploc = some (tiplocKey location)

theorem stanoxKey_eq_iff {location : Location} (keyed : Keyed location) {stanox : String} :
    stanoxKey location = stanox ↔ location.stanox = some stanox := by
  rw [keyed.stanox, Option.some.injEq]

theorem tiplocKey_eq_iff {location : Location} (keyed : Keyed location) {tiploc : String} :
    tiplocKey location = tiploc ↔ location.tiploc = some tiploc := by
  rw [keyed.tiploc, Option.some.injEq]

theorem populate_eq_ok {lines : List LocationRecord}
    (keyed : ∀ location ∈ lines, Keyed location.toLocation)
    (repo : HzLocationRepo) :
    populate repo lines =
      (⟨repo.byStanoxMap.putAll stanoxKey (lines.map LocationRecord.toLocation),
        repo.byTiplocMap.putAll tiplocKey (lines.map LocationRecord.toLocation)⟩, .ok ()) := by
  induction lines generalizing repo with
  | nil => rfl
  | cons location lines inductionHypothesis =>
    obtain ⟨stanox, tiploc⟩ := keyed location List.mem_cons_self
    have put : repo.put location.toLocation =
        (⟨repo.byStanoxMap.set (stanoxKey location.toLocation) location.toLocation,
          repo.byTiplocMap.set (tiplocKey location.toLocation) location.toLocation⟩, .ok ()) := by
      rw [HzLocationRepo.put, stanox, tiploc]
    rw [populate, put]
    exact inductionHypothesis (fun other member => keyed other (List.mem_cons_of_mem _ member)) _

/-! ## The outcome of an import -/

def populateAsync {ε : Type} (traversed : Except (Throwable ε) Unit)
    (result : CompletableFuture (Throwable ε)) :
    List (LogEvent (Throwable ε)) × CompletableFuture (Throwable ε) :=
  match traversed with
  | .ok () => ([], result.complete)
  | .error (.exception thrown) =>
    ([.error "location file parse error" (.exception thrown)], result.completeExceptionally
      (.exception thrown))
  | .error (.error _) => ([], result)

def populateFromFiles {ε : Type} (traversed : Except (Throwable ε) Unit) :
    List (LogEvent (Throwable ε)) × CompletableFuture (Throwable ε) :=
  populateAsync traversed .pending

/-- A null location has no keys. -/
def addToRepo (repo : HzLocationRepo) (location : Option Location) :
    HzLocationRepo × Except (Throwable JavaException) Unit :=
  match location with
  | none => (repo, .error (.exception .nullPointerException))
  | some location =>
    match repo.put location with
    | (repo, .ok ()) => (repo, .ok ())
    | (repo, .error thrown) => (repo, .error (.exception thrown))

/-- The first stage on a line whose JSON has been read. -/
def fromRecord (location : LocationRecord) : Except (Throwable JavaException) (Option Location) :=
  .ok (some location.toLocation)

/-- The repository of a stream that completed is that of the lines put one after the other. -/
theorem populate_of_accepted {repo : HzLocationRepo} {order : List LocationRecord}
    (accepted : ∀ fate ∈ ParallelStream.fates fromRecord addToRepo repo order, ∃ location,
      fate.2 = .ok location) :
    populate repo order = (ParallelStream.reached fromRecord addToRepo repo order, .ok ()) := by
  induction order generalizing repo with
  | nil => rfl
  | cons location order inductionHypothesis =>
    have tail := fun fate later => accepted fate (List.mem_cons_of_mem _ later)
    obtain ⟨_, here⟩ := accepted _ List.mem_cons_self
    have mapped : fromRecord location = .ok (some location.toLocation) := rfl
    cases put : repo.put location.toLocation with
    | mk next verdict =>
      cases verdict with
      | error thrown =>
        have rejected :
            addToRepo repo (some location.toLocation) = (next, .error (.exception thrown)) := by
          simp only [addToRepo, put]
        rw [ParallelStream.handle_of_error mapped rejected] at here
        cases here
      | ok _ =>
        have added : addToRepo repo (some location.toLocation) = (next, .ok ()) := by
          simp only [addToRepo, put]
        have first :
            ParallelStream.handle fromRecord addToRepo repo location =
            (next, .ok (some location.toLocation)) :=
          ParallelStream.handle_of_ok mapped added
        rw [first] at tail
        rw [populate, put, ParallelStream.reached, List.foldl_cons, first]
        exact inductionHypothesis tail

end LocationPopulator

namespace PopulateLocationsApp

variable {ε : Type}

/-- `size` entries in the map of locations by stanox. -/
def onComplete (size : Nat) (err : Option (Throwable ε)) : List (LogEvent (Throwable ε)) :=
  match err with
  | none => [.info "Done populating!", .info s!"Count: {size}"]
  | some _ => [.info s!"Count: {size}"]

def main (size : Nat) (future : CompletableFuture (Throwable ε)) : Option (Ending (Throwable ε)) :=
  future.whenCompleteGet (onComplete size)

theorem done_ne_count (size : Nat) : "Done populating!" ≠ s!"Count: {size}" := by
  intro same
  have texts : "Done populating!".toList = "Count: ".toList ++ (toString size).toList := by
    rw [same, ← String.toList_append]
    rfl
  cases (List.cons.inj texts).1

def ErrorPath (thrown : Throwable ε) (ending : Ending (Throwable ε)) : Prop :=
  .info "Done populating!" ∉ ending.logged ∧ ending.thrown = some thrown

end PopulateLocationsApp

end TrainWatch.RefData
