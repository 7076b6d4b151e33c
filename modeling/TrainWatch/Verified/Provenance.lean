import TrainWatch.Verified.Steps

/-! # Where a shown movement comes from

The invariant relates the history of actions to all three places a movement's data
passes through: an activation in the store belongs to the latest activation message
of its train, a record of the topic to the message it was built from, and a movement
in the store to a record of the topic.
-/

namespace TrainWatch.Verified.Provenance

open TrainWatch.Java TrainWatch.RefData TrainWatch.Library TrainWatch.Movement
open TrainWatch.Movement.TrainMovementProducer

variable {repos : ReferenceRepos}

/-- The last message of the history that activated the train found `schedule`. -/
def LatestActivation (repos : ReferenceRepos) (history : List Action) (trainId : String)
    (schedule : Schedule) : Prop :=
  ∃ before now msg after, history = before ++ .sendMessage now msg :: after ∧
    Activates repos msg trainId schedule ∧
    ∀ now' msg' schedule', .sendMessage now' msg' ∈ after → ¬ Activates repos msg' trainId schedule'

/-- The movement carries the data of one handled movement message and of the schedule of the
    latest activation that preceded it. -/
def BuiltFrom (repos : ReferenceRepos) (history : List Action) (tm : TrainMovement) : Prop :=
  ∃ before now msg after body schedule, history = before ++ .sendMessage now msg :: after ∧
    MovementMessage msg tm.trainId body ∧
    repos.locationRepo.getByStanox body.locStanox = .ok tm.currentLocation ∧
    LatestActivation repos before tm.trainId schedule ∧
    tm.origin = schedule.origin ∧ tm.destination = schedule.destination ∧
    tm.departure = schedule.departure ∧ tm.arrival = schedule.arrival ∧
    schedule.isPassenger = some tm.isPassenger

theorem LatestActivation.now {history : List Action} {now : LocalDateTime}
    {msg : TrustMovementMessage}
    {trainId : String} {schedule : Schedule} (activates : Activates repos msg trainId schedule) :
    LatestActivation repos (history ++ [.sendMessage now msg]) trainId schedule :=
  ⟨history, now, msg, [], rfl, activates, fun _ _ _ member => by cases member⟩

theorem LatestActivation.snoc {history : List Action} {action : Action} {trainId : String}
    {schedule : Schedule} (latest : LatestActivation repos history trainId schedule)
    (other : ∀ now msg schedule', action = .sendMessage now msg →
      ¬ Activates repos msg trainId schedule') :
    LatestActivation repos (history ++ [action]) trainId schedule := by
  obtain ⟨before, now, msg, after, rfl, activates, last⟩ := latest
  refine ⟨before, now, msg, after ++ [action], by simp, activates,
    fun now' msg' schedule' member => ?_⟩
  rcases List.mem_append.mp member with earlier | new
  · exact last now' msg' schedule' earlier
  · exact other now' msg' schedule' (List.mem_singleton.mp new).symm

theorem BuiltFrom.snoc {history : List Action} {tm : TrainMovement}
    (built : BuiltFrom repos history tm)
    (action : Action) : BuiltFrom repos (history ++ [action]) tm := by
  obtain ⟨before, now, msg, after, body, schedule, rfl, rest⟩ := built
  exact ⟨before, now, msg, after ++ [action], body, schedule, by simp, rest⟩

structure Traced (repos : ReferenceRepos) (history : List Action) (s : State) : Prop where
  activations : ∀ trainId activation, IMap.get s.activations trainId = some activation →
    LatestActivation repos history trainId activation.schedule
  topic : ∀ record ∈ s.topic, BuiltFrom repos history record.value
  movements : ∀ trainId tm, IMap.get s.movements trainId = some tm → ∃ record ∈ s.topic,
    record.value = tm

theorem traced_empty : Traced repos [] .empty where
  activations := fun trainId activation found => by simp [State.empty] at found
  topic := fun record member => by cases member
  movements := fun trainId tm found => by simp [State.empty] at found

theorem builtFrom_of_recordFrom {history : List Action} {s : State} {now : LocalDateTime}
    {msg : TrustMovementMessage} {record : Record} (traced : Traced repos history s)
    (kind : msg.isActivation = .ok false)
    (built : recordFrom repos s.activations now msg = .ok (some record)) :
    BuiltFrom repos (history ++ [.sendMessage now msg]) record.value := by
  obtain ⟨body, activation, hasBody, _, stored, translation⟩ := recordFrom_eq_some.mp built
  exact ⟨history, now, msg, [], body, activation.schedule, rfl,
    ⟨kind, hasBody, translation.trainId⟩, translation.currentLocation,
    traced.activations _ _ stored, translation.origin, translation.destination,
    translation.departure, translation.arrival, translation.isPassenger⟩

theorem activations_step {history : List Action} {s s' : State} {action : Action}
    (traced : Traced repos history s) (stepped : s.step repos action = some s') {trainId : String}
    {activation : TrainActivation} (found : IMap.get s'.activations trainId = some activation) :
    LatestActivation repos (history ++ [action]) trainId activation.schedule := by
  rcases activation_after_step stepped trainId with
    same | ⟨now, msg, stored, rfl, own, _, activates, _, after⟩ | ⟨_, _, _, _, gone⟩ |
      ⟨_, _, _, _, gone⟩
  · -- the entry is older than this action; were the action an activation of the train, it would
    -- have replaced it by an entry for the schedule it found
    by_cases replaced : ∃ now msg schedule', action = .sendMessage now msg ∧
        Activates repos msg trainId schedule'
    · obtain ⟨now, msg, schedule', rfl, activates⟩ := replaced
      cases stepped
      obtain ⟨body, _, handled⟩ := State.handle_of_activates s now activates
      rw [handled] at found
      cases (IMap.get_set_self _ _ _).symm.trans found
      exact .now activates
    · refine (traced.activations trainId activation (same ▸ found)).snoc ?_
      intro now msg schedule' isSend activates
      exact replaced ⟨now, msg, schedule', isSend, activates⟩
  · cases after.symm.trans found
    exact .now activates
  · rw [gone] at found; cases found
  · rw [gone] at found; cases found

theorem traced_step {history : List Action} {s s' : State} {action : Action}
    (traced : Traced repos history s) (stepped : s.step repos action = some s') :
    Traced repos (history ++ [action]) s' where
  activations := fun trainId activation found => activations_step traced stepped found
  topic := by
    intro record member
    rcases topic_after_step stepped with same | ⟨now, msg, sent, rfl, kind, built, grown⟩
    · exact (traced.topic record (same ▸ member)).snoc action
    · rw [grown] at member
      rcases List.mem_append.mp member with earlier | new
      · exact (traced.topic record earlier).snoc _
      · cases List.mem_singleton.mp new
        exact builtFrom_of_recordFrom traced kind built
  movements := by
    intro trainId tm found
    -- records stay in the topic, also after they have been processed
    have kept : ∀ record ∈ s.topic, record ∈ s'.topic := by
      intro record member
      rcases topic_after_step stepped with same | ⟨_, _, _, _, _, _, grown⟩
      · exact same ▸ member
      · rw [grown]; exact List.mem_append_left _ member
    rcases movement_after_step stepped trainId with same | gone | ⟨record, _, next, _, after⟩
    · obtain ⟨record, member, value⟩ := traced.movements trainId tm (same ▸ found)
      exact ⟨record, kept record member, value⟩
    · rw [gone] at found; cases found
    · cases after.symm.trans found
      exact ⟨record, kept record (List.mem_of_getElem? next), rfl⟩

theorem traced_run {trace : List Action} {s : State}
    (reached : run (State.step repos) .empty trace = some s) : Traced repos trace s :=
  run_history (Traced repos) traced_empty
    (fun _ _ _ _ _ _ traced stepped => traced_step traced stepped) reached

/-- In every reachable state every movement in the topic and in the store has its train id and
    location from one handled message and the rest from the latest activation before it, and every
    entry of either store sits under its own train id. -/
theorem every_movement_has_its_source {trace : List Action} {s : State}
    (reached : run (State.step repos) .empty trace = some s) :
    (∀ record ∈ s.topic, BuiltFrom repos trace record.value) ∧
    (∀ trainId tm, IMap.get s.movements trainId = some tm →
      tm.trainId = trainId ∧ BuiltFrom repos trace tm) ∧
    (∀ trainId activation, IMap.get s.activations trainId = some activation →
      activation.trainId = trainId) := by
  have traced := traced_run reached
  have keyed := keyedStores_run reached
  refine ⟨traced.topic, fun trainId tm found => ⟨keyed.2 trainId tm found, ?_⟩, keyed.1⟩
  obtain ⟨record, member, rfl⟩ := traced.movements trainId tm found
  exact traced.topic record member

/-- The rule at a run that stores an activation, sends a record and shows the movement. -/
theorem shown_movement_has_its_source :
    ∃ s, run (State.step Sample.refData) .empty Sample.shown = some s ∧
      IMap.get s.movements "871A01MN18" = some Sample.movement ∧
      BuiltFrom Sample.refData Sample.shown Sample.movement := by
  have evaluated : (run (State.step Sample.refData) .empty Sample.shown).map
      (IMap.get ·.movements "871A01MN18") = some (some Sample.movement) := by decide
  obtain ⟨s, reached, found⟩ := Option.map_eq_some_iff.mp evaluated
  exact ⟨s, reached, found, ((every_movement_has_its_source reached).2.1 _ _ found).2⟩

end TrainWatch.Verified.Provenance
