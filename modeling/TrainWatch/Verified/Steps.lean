import TrainWatch.Movement.Pipeline

/-! # What one step does to one train

The invariants of the system are all read off the three theorems of this module:
how a step can change the activation of a train, its movement, and the topic.
-/

namespace TrainWatch.Verified

open TrainWatch.Java TrainWatch.RefData TrainWatch.Library TrainWatch.Movement
open TrainWatch.Movement.TrainMovementProducer

section

variable {repos : ReferenceRepos} {s s' : State} {action : Action}

/-- The activation of a train changes only when one is stored, when a terminated movement of the
    train is processed, or when a cleanup pass takes it. -/
theorem activation_after_step (stepped : s.step repos action = some s') (trainId : String) :
    IMap.get s'.activations trainId = IMap.get s.activations trainId ∨
    (∃ now msg activation, action = .sendMessage now msg ∧ activation.trainId = trainId ∧
      activation.timestamp = now ∧ Activates repos msg trainId activation.schedule ∧
      (∃ body, msg.body = some body ∧ activation.wttDeparture = body.originDepTimestamp) ∧
      IMap.get s'.activations trainId = some activation) ∨
    (∃ record, action = .process record ∧ record.value.trainId = trainId ∧
      record.value.hasArrivedAtDest = true ∧ IMap.get s'.activations trainId = none) ∨
    (∃ now ageInHours values, action = .evictActivations now ageInHours values ∧
      IMap.get s'.activations trainId = none) := by
  cases action with
  | sendMessage now msg =>
    cases stepped
    rcases s.handle_cases repos now msg with
      unchanged | ⟨activation, stored, timestamp, activates, departs⟩ | ⟨record, sent, _⟩
    · rw [unchanged]; exact .inl rfl
    · rw [stored]
      by_cases same : trainId = activation.trainId
      · subst same
        exact .inr (.inl ⟨now, msg, activation, rfl, rfl, timestamp, activates, departs,
          IMap.get_set_self _ _ _⟩)
      · exact .inl (IMap.get_set_of_ne _ _ same)
    · rw [sent]; exact .inl rfl
  | process record =>
    obtain ⟨_, _, rfl⟩ := State.step_process stepped
    simp only [RepoCall.performAll_repoCalls]
    split
    · rename_i arrived
      by_cases same : trainId = record.value.trainId
      · subst same
        exact .inr (.inr (.inl ⟨record, rfl, rfl, arrived, IMap.get_delete_self _ _⟩))
      · exact .inl (IMap.get_delete_of_ne _ same)
    · exact .inl rfl
  | evictMovements now ageInHours values =>
    obtain ⟨_, rfl⟩ := State.step_evictMovements stepped
    exact .inl rfl
  | evictActivations now ageInHours values =>
    obtain ⟨_, ⟨_, rfl⟩ | ⟨activations, evicted, rfl⟩⟩ := State.step_evictActivations stepped
    · exact .inl rfl
    · -- a pass removes what it has selected and changes nothing else
      obtain ⟨selected, _, rfl⟩ := HzTrainActivationRepo.evictOlderThan_eq_ok.mp evicted
      simp only [IMap.get_evictAll]
      split
      · exact .inr (.inr (.inr ⟨now, ageInHours, values, rfl, rfl⟩))
      · exact .inl rfl

/-- The movement of a train changes only when one of its records is processed, or when a cleanup
    pass takes it. -/
theorem movement_after_step (stepped : s.step repos action = some s') (trainId : String) :
    IMap.get s'.movements trainId = IMap.get s.movements trainId ∨
    IMap.get s'.movements trainId = none ∨
    (∃ record, action = .process record ∧ s.topic[s.position]? = some record ∧
      record.value.trainId = trainId ∧ IMap.get s'.movements trainId = some record.value) := by
  cases action with
  | sendMessage now msg =>
    cases stepped
    rcases s.handle_cases repos now msg with unchanged | ⟨activation, stored, _⟩ | ⟨record, sent, _⟩
    · rw [unchanged]; exact .inl rfl
    · rw [stored]; exact .inl rfl
    · rw [sent]; exact .inl rfl
  | process record =>
    obtain ⟨next, _, rfl⟩ := State.step_process stepped
    simp only [RepoCall.performAll_repoCalls]
    by_cases same : trainId = record.value.trainId
    · subst same
      split
      · exact .inr (.inl (IMap.get_delete_self _ _))
      · exact .inr (.inr ⟨record, rfl, next, rfl, IMap.get_set_self _ _ _⟩)
    · split
      · exact .inl (IMap.get_delete_of_ne _ same)
      · exact .inl (IMap.get_set_of_ne _ _ same)
  | evictMovements now ageInHours values =>
    obtain ⟨_, rfl⟩ := State.step_evictMovements stepped
    simp only [HzTrainMovementRepo.evictOlderThan, IMap.get_evictAll]
    split
    · exact .inr (.inl rfl)
    · exact .inl rfl
  | evictActivations now ageInHours values =>
    obtain ⟨_, ⟨_, rfl⟩ | ⟨activations, _, rfl⟩⟩ := State.step_evictActivations stepped
    · exact .inl rfl
    · exact .inl rfl

/-- The topic only grows, by the record of a handled movement message. -/
theorem topic_after_step (stepped : s.step repos action = some s') :
    s'.topic = s.topic ∨
    (∃ now msg record, action = .sendMessage now msg ∧ msg.isActivation = .ok false ∧
      recordFrom repos s.activations now msg = .ok (some record) ∧ s'.topic = s.topic ++
        [record]) := by
  cases action with
  | sendMessage now msg =>
    cases stepped
    rcases s.handle_cases repos now msg with unchanged | ⟨activation, stored, _⟩ |
      ⟨record, sent, kind, built⟩
    · rw [unchanged]; exact .inl rfl
    · rw [stored]; exact .inl rfl
    · rw [sent]; exact .inr ⟨now, msg, record, rfl, kind, built, rfl⟩
  | process record =>
    obtain ⟨_, _, rfl⟩ := State.step_process stepped
    exact .inl rfl
  | evictMovements now ageInHours values =>
    obtain ⟨_, rfl⟩ := State.step_evictMovements stepped
    exact .inl rfl
  | evictActivations now ageInHours values =>
    obtain ⟨_, ⟨_, rfl⟩ | ⟨activations, _, rfl⟩⟩ := State.step_evictActivations stepped
    · exact .inl rfl
    · exact .inl rfl

/-- Both stores hold every entry under its own train id. -/
def KeyedStores (s : State) : Prop :=
  IMap.Keyed TrainActivation.trainId s.activations ∧ IMap.Keyed TrainMovement.trainId s.movements

theorem keyedStores_empty : KeyedStores .empty := ⟨IMap.Keyed.empty _, IMap.Keyed.empty _⟩

theorem keyedStores_step (keyed : KeyedStores s) (stepped : s.step repos action = some s') :
    KeyedStores s' := by
  obtain ⟨activationsKeyed, movementsKeyed⟩ := keyed
  cases action with
  | sendMessage now msg =>
    cases stepped
    obtain unchanged | ⟨activation, stored, _⟩ | ⟨record, sent, _⟩ := s.handle_cases repos now msg
    · rw [unchanged]; exact ⟨activationsKeyed, movementsKeyed⟩
    · rw [stored]; exact ⟨activationsKeyed.set activation, movementsKeyed⟩
    · rw [sent]; exact ⟨activationsKeyed, movementsKeyed⟩
  | process record =>
    obtain ⟨_, _, rfl⟩ := State.step_process stepped
    simp only [KeyedStores, RepoCall.performAll_repoCalls]
    split
    · exact ⟨activationsKeyed.delete _, movementsKeyed.delete _⟩
    · exact ⟨activationsKeyed, movementsKeyed.set record.value⟩
  | evictMovements now ageInHours values =>
    obtain ⟨_, rfl⟩ := State.step_evictMovements stepped
    exact ⟨activationsKeyed, movementsKeyed.evictAll _⟩
  | evictActivations now ageInHours values =>
    obtain ⟨_, ⟨_, rfl⟩ | ⟨activations, evicted, rfl⟩⟩ := State.step_evictActivations stepped
    · exact ⟨activationsKeyed, movementsKeyed⟩
    · obtain ⟨selected, _, rfl⟩ := HzTrainActivationRepo.evictOlderThan_eq_ok.mp evicted
      exact ⟨activationsKeyed.evictAll _, movementsKeyed⟩

theorem keyedStores_run {trace : List Action}
    (reached : run (State.step repos) .empty trace = some s) :
    KeyedStores s :=
  run_invariant KeyedStores (fun _ _ _ _ => keyedStores_step) keyedStores_empty reached

end

/-! ## A sample train

One schedule from Victoria to Brighton, departing at 10:30, and the messages about the
train that runs to it on 18 March 2016. -/

namespace Sample

def victoria : Location :=
  { stanox := some "87201", description := some "LONDON VICTORIA", crs := some "VIC"
    latLon := some ⟨some "51.49", some "51.49"⟩, tiploc := some "VICTRIC" }

def brighton : Location :=
  { stanox := some "87901", description := some "BRIGHTON", crs := some "BTN"
    latLon := some ⟨some "50.83", some "50.83"⟩, tiploc := some "BRGHTN" }

/-- The two as they stand in the locations file. -/
def victoriaRecord : LocationRecord :=
  { stanox := some "87201", description := some "LONDON VICTORIA", crs := some "VIC"
    latLon := ⟨.str "51.49", .str "51.49"⟩, tiploc := some "VICTRIC" }

def brightonRecord : LocationRecord :=
  { stanox := some "87901", description := some "BRIGHTON", crs := some "BTN"
    latLon := ⟨.str "50.83", .str "50.83"⟩, tiploc := some "BRGHTN" }

def clock (hour minute : Nat) : LocalDateTime :=
  ⟨1458259200000 + hour * millisPerHour + minute * millisPerMinute⟩

def schedule : Schedule :=
  { id := some "W12345", trainServiceCode := some "24745000"
    startDate := some ⟨2016, 3, 1, by decide⟩, endDate := some ⟨2016, 3, 31, by decide⟩
    origin := some victoria, destination := some brighton
    departure := some (.ofMillis (10 * millisPerHour + 30 * millisPerMinute))
    arrival := some (.ofMillis (11 * millisPerHour + 30 * millisPerMinute)), atocCode := some "SN" }

def refData : ReferenceRepos :=
  { scheduleRepo := HzScheduleRepo.empty.put schedule
    locationRepo :=
      { byStanoxMap := ((∅ : IMap _ _).set "87201" victoria).set "87901" brighton
        byTiplocMap := ((∅ : IMap _ _).set "VICTRIC" victoria).set "BRGHTN" brighton } }

def emptyBody : TrustMovementMessage.Body :=
  { actualTimestamp := none, locStanox := none, originDepTimestamp := none, trainUid := none
    scheduleEndDate := none, scheduleStartDate := none, timetableVariation := none
    trainId := some "871A01MN18", trainServiceCode := some "24745000", trainTerminated := none
    variationStatus := none }

def activationBody : TrustMovementMessage.Body :=
  { emptyBody with
    originDepTimestamp := some "1458297000000", trainUid := some "W12345"
    scheduleStartDate := some "2016-03-01", scheduleEndDate := some "2016-03-31" }

def activationMessage : TrustMovementMessage := ⟨some ⟨some "0001"⟩, some activationBody⟩

def movementBody : TrustMovementMessage.Body :=
  { emptyBody with
    actualTimestamp := some "1458297600000", locStanox := some "87201"
    timetableVariation := some "10", variationStatus := some "LATE"
    trainTerminated := some "false" }

def movementMessage : TrustMovementMessage := ⟨some ⟨some "0003"⟩, some movementBody⟩

def arrivalMessage : TrustMovementMessage :=
  ⟨some ⟨some "0003"⟩,
    some { movementBody with locStanox := some "87901", trainTerminated := some "true" }⟩

theorem activationMessage_activates : Activates refData activationMessage "871A01MN18" schedule :=
  ⟨rfl, activationBody, rfl, rfl, by decide⟩

theorem movementMessage_message : MovementMessage movementMessage "871A01MN18" movementBody :=
  ⟨rfl, rfl, rfl⟩

theorem movementBody_wellFormed : WellFormed movementBody where
  stanox := rfl
  timestamp := fun text given => ⟨1458297600000, by cases given; decide⟩
  delay := ⟨10, by decide⟩

/-- The activation that `activationMessage` stores at 9:00. -/
def activation : TrainActivation := ⟨"871A01MN18", schedule, some "1458297000000", clock 9 0⟩

/-- The movement that `movementMessage` is translated into. -/
def movement : TrainMovement :=
  { trainId := "871A01MN18", origin := schedule.origin, departure := schedule.departure
    destination := schedule.destination, arrival := schedule.arrival, delay := 10
    currentLocation := some victoria, timestamp := clock 10 40, hasArrived := false
    isPassenger := true }

def record : Record := ⟨some "24745000", movement⟩

def arrivalRecord : Record :=
  ⟨some "24745000", { movement with currentLocation := some brighton, hasArrived := true }⟩

/-- The train is activated, moves, and its movement is processed. -/
def shown : List Action :=
  [.sendMessage (clock 9 0) activationMessage, .sendMessage (clock 10 41) movementMessage,
    .process record]

end Sample

end TrainWatch.Verified
