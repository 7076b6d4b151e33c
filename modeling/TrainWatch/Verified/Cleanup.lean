import TrainWatch.Movement.HzCleanup
import TrainWatch.Verified.Steps

/-! # The end of the cleanup of activations

One activation that is not too old and whose schedule has no departure time, met by one
pass, is the end of all later passes over the activations.  Those that are stored then stay
until the train arrives or is activated anew.
-/

namespace TrainWatch.Verified.Cleanup

open TrainWatch.Java TrainWatch.RefData TrainWatch.Library TrainWatch.Movement
open TrainWatch.Movement.HzCleanup TrainWatch.Movement.TrainMovementProducer

section

variable {repos : ReferenceRepos} {c c' : HzCleanup} {trace : List HzCleanup.Action}

/-- A stored activation that the test of the pass throws on. -/
def Undated (now : LocalDateTime) (ta : TrainActivation) : Prop :=
  ta.timestamp.isBefore (now.minusHours activationThreshold) = false ∧ ta.schedule.departure = none

def GaveUp (repos : ReferenceRepos) (trace : List HzCleanup.Action) : Prop :=
  ∃ before now values after met, trace = before ++ .beginActivations now values :: after ∧
    run (HzCleanup.step repos) HzCleanup.start before = some met ∧ ∃ ta ∈ values, Undated now ta

/-- Neither is a pass over the activations under way, nor will one begin. -/
structure Over (c : HzCleanup) : Prop where
  task : c.activationTask = false
  pass : ∀ pending, c.pass ≠ some (.activations pending)

theorem over_step {action : HzCleanup.Action} (ended : Over c)
    (stepped : c.step repos action = some c') :
    Over c' ∧ (c'.system.activations = c.system.activations ∨
      ∃ other, action = .others other ∧ c.system.step repos other = some c'.system ∧
        ∀ now ageInHours values, other ≠ .evictActivations now ageInHours values) := by
  obtain ⟨task, noPass⟩ := ended
  cases action with
  | beginMovements now values =>
    simp only [HzCleanup.step] at stepped
    split at stepped
    · cases stepped
      exact ⟨⟨task, by simp⟩, .inl rfl⟩
    · cases stepped
  | beginActivations now values =>
    obtain ⟨_, scheduled, _⟩ := step_beginActivations stepped
    rw [task] at scheduled
    cases scheduled
  | evict =>
    obtain ⟨trainId, pending, _, rfl⟩ | ⟨trainId, pending, pass, _⟩ := evict_eq_some stepped
    · exact ⟨⟨task, by simp⟩, .inl rfl⟩
    · exact absurd pass (noPass _)
  | finish =>
    simp only [HzCleanup.step] at stepped
    split at stepped
    · cases stepped
      exact ⟨⟨task, by simp⟩, .inl rfl⟩
    · cases stepped
      exact ⟨⟨task, by simp⟩, .inl rfl⟩
    · cases stepped
  | others other =>
    obtain ⟨notEvict, system, ran, rfl⟩ := step_others stepped
    exact ⟨⟨task, noPass⟩, .inr ⟨other, rfl, ran, notEvict⟩⟩

theorem task_step {action : HzCleanup.Action} (scheduled : c.activationTask = true)
    (stepped : c.step repos action = some c') : c'.activationTask = true ∨
      Over c' ∧ ∃ now values, action = .beginActivations now values ∧ ∃ ta ∈ values,
        Undated now ta := by
  cases action with
  | beginMovements now values =>
    simp only [HzCleanup.step] at stepped
    split at stepped
    · cases stepped
      exact .inl scheduled
    · cases stepped
  | beginActivations now values =>
    obtain ⟨idle, _, _, ⟨sweep, _, rfl⟩ | ⟨threw, rfl⟩⟩ := step_beginActivations stepped
    · exact .inl scheduled
    · -- an exception ends the scheduled task; one of the activations has no departure
      exact .inr ⟨⟨rfl, by simp [idle]⟩, now, values, rfl, beginPass_throws_iff.mp threw⟩
  | evict =>
    obtain ⟨_, _, _, rfl⟩ | ⟨_, _, _, rfl⟩ := evict_eq_some stepped
    · exact .inl scheduled
    · exact .inl scheduled
  | finish =>
    simp only [HzCleanup.step] at stepped
    split at stepped
    · cases stepped
      exact .inl scheduled
    · cases stepped
      exact .inl scheduled
    · cases stepped
  | others other =>
    obtain ⟨_, system, _, rfl⟩ := step_others stepped
    exact .inl scheduled

theorem run_task (reached : run (HzCleanup.step repos) HzCleanup.start trace = some c) :
    Over c ∧ GaveUp repos trace ∨ c.activationTask = true := by
  refine run_history (fun history c => Over c ∧ GaveUp repos history ∨ c.activationTask = true)
    (.inr rfl) ?_ reached
  intro history action c c' _ earlier holds stepped
  obtain ⟨ended, before, now, values, after, met, rfl, there, undated⟩ | scheduled := holds
  · exact .inl ⟨(over_step ended stepped).1, before, now, values, after ++ [action], met, by simp,
      there, undated⟩
  · obtain goesOn | ⟨ended, now, values, rfl, undated⟩ := task_step scheduled stepped
    · exact .inr goesOn
    · exact .inl ⟨ended, history, now, values, [], c, rfl, earlier, undated⟩

theorem over_of_gaveUp (reached : run (HzCleanup.step repos) HzCleanup.start trace = some c)
    (gaveUp : GaveUp repos trace) : Over c := by
  obtain ⟨before, now, values, after, met, rfl, there, undated⟩ := gaveUp
  obtain ⟨met', there', rest⟩ := run_append_eq_some.mp reached
  cases there.symm.trans there'
  obtain ⟨next, threw, goesOn⟩ := run_cons_eq_some.mp rest
  have ended : Over next := by
    obtain ⟨idle, _, _, ⟨sweep, begun, _⟩ | ⟨_, rfl⟩⟩ := step_beginActivations threw
    · obtain ⟨thrown, stuck⟩ := beginPass_throws_iff.mpr undated
      cases begun.symm.trans stuck
    · exact ⟨rfl, by simp [idle]⟩
  exact run_invariant Over (fun _ _ _ _ ended stepped => (over_step ended stepped).1) ended goesOn

def Untouched (repos : ReferenceRepos) (trainId : String) (later : List HzCleanup.Action) : Prop :=
  (∀ now msg schedule, .others (.sendMessage now msg) ∈ later →
    ¬Activates repos msg trainId schedule) ∧
    ∀ record, .others (.process record) ∈ later → record.value.trainId = trainId →
      record.value.hasArrivedAtDest = false

/-- The task gives up exactly when a pass meets an activation that is not too old and has no
    departure; from then on every activation stays as it is until its train is activated anew or
    arrives, however old it grows. -/
theorem cleanup_gives_up (reached : run (HzCleanup.step repos) HzCleanup.start trace = some c) :
    (c.activationTask = false ↔ GaveUp repos trace) ∧
    (c.activationTask = false → ∀ later c', run (HzCleanup.step repos) c later = some c' →
      ∀ trainId ta, Untouched repos trainId later →
        IMap.get c.system.activations trainId = some ta →
        IMap.get c'.system.activations trainId = some ta) := by
  have whole := run_task reached
  refine ⟨⟨fun given => ?_, fun gaveUp => (over_of_gaveUp reached gaveUp).task⟩, fun given => ?_⟩
  · obtain ⟨_, gaveUp⟩ | scheduled := whole
    · exact gaveUp
    · rw [given] at scheduled
      cases scheduled
  · have ended : Over c := by
      obtain ⟨ended, _⟩ | scheduled := whole
      · exact ended
      · rw [given] at scheduled
        cases scheduled
    intro later c' goesOn trainId ta untouched found
    obtain ⟨notActivated, notArrived⟩ := untouched
    refine (run_invariant (fun c => Over c ∧ IMap.get c.system.activations trainId = some ta) ?_
      ⟨ended, found⟩ goesOn).2
    intro action member d d' holds stepped
    obtain ⟨ended, found⟩ := holds
    -- without the task only an activation or an arrival of the train changes its entry
    obtain ⟨ended', same | ⟨other, rfl, ran, notEvict⟩⟩ := over_step ended stepped
    · exact ⟨ended', by rw [same]; exact found⟩
    · refine ⟨ended', ?_⟩
      obtain same | ⟨now, msg, activation, rfl, _, _, activates, _⟩ |
        ⟨record, rfl, own, arrived, _⟩ |
        ⟨now, ageInHours, values, rfl, _⟩ := activation_after_step ran trainId
      · exact same.trans found
      · exact absurd activates (notActivated now msg activation.schedule member)
      · rw [notArrived record member own] at arrived
        cases arrived
      · exact absurd rfl (notEvict now ageInHours values)

/-! ## An activation without a departure -/

open Sample

def undatedSchedule : Schedule := { schedule with departure := none }

def undatedRefData : ReferenceRepos :=
  { refData with scheduleRepo := HzScheduleRepo.empty.put undatedSchedule }

def undatedActivation : TrainActivation := { activation with schedule := undatedSchedule }

/-- A pass at ten meets the activation of nine. -/
def undatedTrace : List HzCleanup.Action :=
  [.others (.sendMessage (clock 9 0) activationMessage), .beginActivations (clock 10 0)
    [undatedActivation]]

def afterPass : HzCleanup :=
  (run (HzCleanup.step undatedRefData) HzCleanup.start undatedTrace).get (by decide)

def nextMorning : List HzCleanup.Action := [.beginMovements (clock 33 0) [], .finish]

def afterMorning : HzCleanup :=
  (run (HzCleanup.step undatedRefData) afterPass nextMorning).get (by decide)

theorem undated_activation_stays : GaveUp undatedRefData undatedTrace ∧
    IMap.get afterMorning.system.activations "871A01MN18" = some undatedActivation := by
  have reached : run (HzCleanup.step undatedRefData) HzCleanup.start undatedTrace =
    some afterPass := (Option.some_get _).symm
  have goesOn : run (HzCleanup.step undatedRefData) afterPass nextMorning = some afterMorning :=
    (Option.some_get _).symm
  have untouched : Untouched undatedRefData "871A01MN18" nextMorning :=
    ⟨fun _ _ _ member => by simp [nextMorning] at member, fun _ member => by
      simp [nextMorning] at member⟩
  obtain ⟨gaveUp, stays⟩ := cleanup_gives_up reached
  exact ⟨gaveUp.mp rfl, stays rfl nextMorning afterMorning goesOn "871A01MN18" undatedActivation
    untouched (by decide)⟩

end

end TrainWatch.Verified.Cleanup
