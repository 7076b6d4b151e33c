import TrainWatch.RefData.ScheduleImport
import TrainWatch.RefData.LocationImport

/-! # An import that reports success

The two populators do the same job with different plumbing.  Both catch the exceptions of
their stream and log them; the one for locations hands them on to its future, the one for
schedules does not, so that its future completes after a failure too.  An error in the sense
of `java.lang.Error` passes both `catch` blocks: it fails the future of the one for
schedules, and the future of the one for locations is then never completed.
-/

namespace TrainWatch.Verified.ImportOutcome

open TrainWatch.Java TrainWatch.RefData
open TrainWatch.Java.ParallelStream

variable {α β σ τ : Type}

/-- Every line was handed over, parsed, and put as it was parsed. -/
structure EveryLinePut (fromJson : α → Except τ β) (lines : List α)
    (handed : List (α × Except τ β)) : Prop where
  all : (handed.map Prod.fst).Perm lines
  put : ∀ fate ∈ handed, ∃ element, fromJson fate.1 = .ok element ∧ fate.2 = .ok element

/-- In every run over the file, a future that completes means that every line was put, and a line
    that fails means that the future fails and the application takes its error path. -/
def SuccessIsComplete (fromJson : α → Except τ β) (addToRepo : σ → β → σ × Except τ Unit) (repo : σ)
    (lines : List α)
    (populate : Except τ Unit → CompletableFuture τ)
    (main : CompletableFuture τ → Option (Ending τ))
    (errorPath : τ → Ending τ → Prop) : Prop :=
  ∀ order outcome, Traversal fromJson addToRepo repo lines order outcome →
    (populate outcome = .completed →
      EveryLinePut fromJson lines (fates fromJson addToRepo repo order)) ∧
    ∀ line thrown, (line, .error thrown) ∈ fates fromJson addToRepo repo order →
      ∃ reported ending, populate outcome = .completedExceptionally reported ∧
        main (populate outcome) = some ending ∧ errorPath reported ending

section Plumbing

variable {fromJson : α → Except τ β} {addToRepo : σ → β → σ × Except τ Unit} {repo : σ}
    {lines order : List α}

theorem everyLinePut_of_accepted (all : order.Perm lines)
    (accepted : ∀ fate ∈ fates fromJson addToRepo repo order, ∃ element, fate.2 = .ok element) :
    EveryLinePut fromJson lines (fates fromJson addToRepo repo order) where
  all := by rw [map_fst_fates]; exact all
  put := by
    rintro ⟨line, fate⟩ member
    obtain ⟨element, rfl⟩ := accepted _ member
    exact ⟨element, stage_eq_of_fates member, rfl⟩

variable {populate : Except τ Unit → CompletableFuture τ}
    {main : CompletableFuture τ → Option (Ending τ)}
  {errorPath : τ → Ending τ → Prop} {Reports : τ → Prop}

/-- A populator whose future reports some of the failures keeps the promise exactly for the files
    whose lines fail in no other way, whatever the order. -/
theorem successIsComplete_iff
    (reports : ∀ thrown, Reports thrown → populate (.error thrown) =
      .completedExceptionally thrown ∧
      ∃ ending, main (.completedExceptionally thrown) = some ending ∧ errorPath thrown ending)
    (silent : ∀ thrown, ¬ Reports thrown → ∀ reported, populate (.error thrown) ≠
      .completedExceptionally reported) :
    SuccessIsComplete fromJson addToRepo repo lines populate main errorPath ↔
      ∀ order, order.Perm lines → ∀ line thrown,
        (line, .error thrown) ∈ fates fromJson addToRepo repo order → Reports thrown := by
  constructor
  · intro keeps order all line thrown failed
    -- the stream may throw this failure of all
    have run : Traversal fromJson addToRepo repo lines order (.error thrown) :=
      .threw all.subperm failed
    obtain ⟨reported, _, future, _⟩ := (keeps order _ run).2 line thrown failed
    by_contra unreported
    exact silent thrown unreported reported future
  · intro reported order outcome run
    cases run with
    | completed all accepted =>
      refine ⟨fun _ => everyLinePut_of_accepted all accepted, fun line thrown failed => ?_⟩
      obtain ⟨_, impossible⟩ := accepted _ failed
      cases impossible
    | @threw _ thrown part failed =>
      -- handed over with the rest of the lines, the line fails in the same way
      obtain ⟨whole, all, keepsFates⟩ := exists_complete_order part
      obtain ⟨future, ending, ends, failing⟩ :=
        reports thrown (reported whole all _ thrown (keepsFates _ failed))
      rw [future]
      refine ⟨?_, fun _ _ _ => ⟨thrown, ending, rfl, ends, failing⟩⟩
      intro impossible
      cases impossible

end Plumbing

/-! ## The two populators -/

variable {ε : Type}

/-- The promise for `ScheduleRepositoryPopulator.populateFromFile` and its application. -/
def SchedulesSuccessIsComplete (fromJson : α → Except (Throwable ε) (Option Schedule))
    (addToRepo : σ → Option Schedule → σ × Except (Throwable ε) Unit) (repo : σ) (lines : List α) :
    Prop :=
  ∀ scheduleFile count seconds, SuccessIsComplete fromJson addToRepo repo lines
    (fun traversed => (ScheduleRepositoryPopulator.populateFromFile scheduleFile traversed).2)
    (PopulateSchedulesApp.main count seconds) PopulateSchedulesApp.ErrorPath

def LocationsSuccessIsComplete (fromJson : α → Except (Throwable ε) (Option Location))
    (addToRepo : σ → Option Location → σ × Except (Throwable ε) Unit) (repo : σ) (lines : List α) :
    Prop :=
  ∀ size, SuccessIsComplete fromJson addToRepo repo lines
    (fun traversed => (LocationPopulator.populateFromFiles traversed).2)
    (PopulateLocationsApp.main size) PopulateLocationsApp.ErrorPath

def IsError : Throwable ε → Prop
  | .exception _ => False
  | .error _ => True

theorem schedules_iff {fromJson : α → Except (Throwable ε) (Option Schedule)}
    {addToRepo : σ → Option Schedule → σ × Except (Throwable ε) Unit} {repo : σ} {lines : List α}
    (scheduleFile : String) (count seconds : Nat) :
    SuccessIsComplete fromJson addToRepo repo lines
        (fun traversed => (ScheduleRepositoryPopulator.populateFromFile scheduleFile traversed).2)
        (PopulateSchedulesApp.main count seconds) PopulateSchedulesApp.ErrorPath ↔
      ∀ order, order.Perm lines → ∀ line thrown,
        (line, .error thrown) ∈ fates fromJson addToRepo repo order → IsError thrown := by
  refine successIsComplete_iff ?_ ?_
  · intro thrown isError
    cases thrown with
    | exception thrown => cases isError
    | error name => exact ⟨rfl, _, rfl, List.mem_cons_self, rfl⟩
  · intro thrown isException reported failed
    cases thrown with
    | exception thrown =>
      -- the task has logged the exception and ends normally
      cases failed
    | error name => exact isException trivial

theorem locations_iff {fromJson : α → Except (Throwable ε) (Option Location)}
    {addToRepo : σ → Option Location → σ × Except (Throwable ε) Unit} {repo : σ} {lines : List α}
    (size : Nat) :
    SuccessIsComplete fromJson addToRepo repo lines
        (fun traversed => (LocationPopulator.populateFromFiles traversed).2)
        (PopulateLocationsApp.main size) PopulateLocationsApp.ErrorPath ↔
      ∀ order, order.Perm lines → ∀ line thrown,
        (line, .error thrown) ∈ fates fromJson addToRepo repo order → ¬ IsError thrown := by
  refine successIsComplete_iff ?_ ?_
  · intro thrown isException
    cases thrown with
    | exception thrown =>
      refine ⟨rfl, _, rfl, ?_, rfl⟩
      intro logged
      cases PopulateLocationsApp.done_ne_count size
        (LogEvent.info.inj (List.mem_singleton.mp logged))
    | error name => exact absurd trivial isException
  · intro thrown isError reported failed
    cases thrown with
    | exception thrown => exact isError id
    | error name => cases failed

theorem schedulesSuccessIsComplete_iff {fromJson : α → Except (Throwable ε) (Option Schedule)}
    {addToRepo : σ → Option Schedule → σ × Except (Throwable ε) Unit} {repo : σ} {lines : List α} :
    SchedulesSuccessIsComplete fromJson addToRepo repo lines ↔
      ∀ order, order.Perm lines → ∀ line thrown,
        (line, .error (.exception thrown)) ∉ fates fromJson addToRepo repo order := by
  constructor
  · intro keeps order all line thrown failed
    exact (schedules_iff "" 0 0).mp (keeps "" 0 0) order all line _ failed
  · intro noException scheduleFile count seconds
    refine (schedules_iff scheduleFile count seconds).mpr fun order all line thrown failed => ?_
    cases thrown with
    | exception thrown => exact absurd failed (noException order all line thrown)
    | error name => exact trivial

theorem locationsSuccessIsComplete_iff {fromJson : α → Except (Throwable ε) (Option Location)}
    {addToRepo : σ → Option Location → σ × Except (Throwable ε) Unit} {repo : σ} {lines : List α} :
    LocationsSuccessIsComplete fromJson addToRepo repo lines ↔
      ∀ order, order.Perm lines → ∀ line name,
        (line, .error (.error name)) ∉ fates fromJson addToRepo repo order := by
  constructor
  · intro keeps order all line name failed
    exact (locations_iff 0).mp (keeps 0) order all line _ failed trivial
  · intro noError size
    refine (locations_iff size).mpr fun order all line thrown failed => ?_
    cases thrown with
    | exception thrown => exact id
    | error name => exact absurd failed (noError order all line name)

/-- Over any file and any repository, the import of schedules keeps the promise exactly when no line
    fails with an exception, and the import of locations exactly when no line fails with an error.
    -/
theorem import_success_is_complete_iff {ρ : Type}
    (toSchedule : α → Except (Throwable ε) (Option Schedule))
    (putSchedule : σ → Option Schedule → σ × Except (Throwable ε) Unit) (scheduleRepo : σ)
    (toLocation : α → Except (Throwable ε) (Option Location))
    (putLocation : ρ → Option Location → ρ × Except (Throwable ε) Unit) (locationRepo : ρ)
    (lines : List α) :
    (SchedulesSuccessIsComplete toSchedule putSchedule scheduleRepo lines ↔
      ∀ order, order.Perm lines → ∀ line thrown,
        (line, .error (.exception thrown)) ∉ fates toSchedule putSchedule scheduleRepo order) ∧
    (LocationsSuccessIsComplete toLocation putLocation locationRepo lines ↔
      ∀ order, order.Perm lines → ∀ line name,
        (line, .error (.error name)) ∉ fates toLocation putLocation locationRepo order) :=
  ⟨schedulesSuccessIsComplete_iff, locationsSuccessIsComplete_iff⟩

/-- What the parser makes of a blank line is null; the other line of the file is an object with an
    identifier only. -/
def fromJsonOrNull (json : String) : Except (Throwable JavaException) (Option Schedule) :=
  if json = "" then .ok none
  else .ok (some
    { id := some "C04131", trainServiceCode := none, startDate := none, endDate := none
      origin := none, destination := none, departure := none, arrival := none, atocCode := none })

/-- A blank line is handed over first and fails; the schedule is never put, and the future
    completes. -/
theorem blank_line_is_reported_as_success :
    ¬ SchedulesSuccessIsComplete fromJsonOrNull ScheduleRepositoryPopulator.addToRepo .empty
      ["\x7b\"id\":\"C04131\"\x7d", ""] := by
  intro keeps
  have failed : ("", .error (.exception .nullPointerException)) ∈
      fates fromJsonOrNull ScheduleRepositoryPopulator.addToRepo .empty [""] := List.mem_cons_self
  have part : List.Subperm [""] ["\x7b\"id\":\"C04131\"\x7d", ""] :=
    (List.sublist_cons_self _ _).subperm
  obtain ⟨_, _, future, _⟩ := (keeps "schedules.json" 0 0 _ _ (.threw part failed)).2 _ _ failed
  cases future

/-! ## The repository of the application -/

theorem fate_addToRepo (fromJson : α → Except (Throwable JavaException) (Option Schedule))
    (repo : HzScheduleRepo)
    (line : α) :
    (handle fromJson ScheduleRepositoryPopulator.addToRepo repo line).2 =
      match fromJson line with
      | .ok none => .error (.exception .nullPointerException)
      | parsed => parsed := by
  unfold handle
  cases fromJson line with
  | error thrown => rfl
  | ok schedule =>
    cases schedule with
    | none => rfl
    | some schedule => rfl

theorem mem_fates_addToRepo {fromJson : α → Except (Throwable JavaException) (Option Schedule)}
    {repo : HzScheduleRepo}
    {order : List α} {line : α} {fate : Except (Throwable JavaException) (Option Schedule)} :
    (line, fate) ∈ fates fromJson ScheduleRepositoryPopulator.addToRepo repo order ↔
      line ∈ order ∧ fate =
        match fromJson line with
        | .ok none => .error (.exception .nullPointerException)
        | parsed => parsed := by
  rw [fates_of_stateless (fate_addToRepo fromJson), List.mem_map]
  constructor
  · rintro ⟨line, member, same⟩
    obtain ⟨rfl, rfl⟩ := Prod.mk.inj same
    exact ⟨member, rfl⟩
  · rintro ⟨member, rfl⟩
    exact ⟨line, member, rfl⟩

/-- Into the repository of schedules, the promise is kept exactly when every line parses to a
    schedule or fails with an error. -/
theorem hazelcast_schedules_iff {fromJson : α → Except (Throwable JavaException) (Option Schedule)}
    {repo : HzScheduleRepo} {lines : List α} :
    SchedulesSuccessIsComplete fromJson ScheduleRepositoryPopulator.addToRepo repo lines ↔
      ∀ line ∈ lines, (∃ schedule, fromJson line = .ok (some schedule)) ∨
        ∃ name, fromJson line = .error (.error name) := by
  rw [schedulesSuccessIsComplete_iff]
  constructor
  · intro noException line member
    have never := fun thrown failed =>
      noException lines (.refl lines) line thrown (mem_fates_addToRepo.mpr ⟨member, failed⟩)
    cases parsed : fromJson line with
    | error thrown =>
      cases thrown with
      | exception thrown => exact absurd (by rw [parsed]) (never thrown)
      | error name => exact .inr ⟨name, rfl⟩
    | ok schedule =>
      cases schedule with
      | none => exact absurd (by rw [parsed]) (never .nullPointerException)
      | some schedule => exact .inl ⟨schedule, rfl⟩
  · intro decided order all line thrown failed
    obtain ⟨member, fate⟩ := mem_fates_addToRepo.mp failed
    obtain ⟨schedule, parsed⟩ | ⟨name, parsed⟩ := decided line (all.mem_iff.mp member)
    · rw [parsed] at fate
      cases fate
    · rw [parsed] at fate
      cases fate

end TrainWatch.Verified.ImportOutcome
