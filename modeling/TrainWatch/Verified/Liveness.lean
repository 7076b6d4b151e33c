import TrainWatch.Verified.Steps

/-! # When a live train's messages are sent

The producer drops a message whose train has no stored activation, and the cleanup job
takes activations by two tests: their age, and the time of day of the departure.  The
first never takes the activation of a live train; the second does, one minute after the
departure.  So the messages of a train are sent as long as no pass has met it departed.
-/

namespace TrainWatch.Verified.Liveness

open TrainWatch.Java TrainWatch.RefData TrainWatch.Library TrainWatch.Movement
open TrainWatch.Movement.TrainMovementProducer

variable {repos : ReferenceRepos}

/-- `since` are the actions since the train's latest activation was stored: at `now` it is younger
    than the threshold of the cleanup job, and no termination of the train has been processed. -/
structure Live (repos : ReferenceRepos) (since : List Action) (trainId : String)
    (stored now : LocalDateTime) : Prop where
  young : (now.minusHours HzCleanup.activationThreshold).isBefore stored = true
  latest : ∀ clock msg schedule, .sendMessage clock msg ∈ since →
    ¬ Activates repos msg trainId schedule
  running : ∀ record, .process record ∈ since → record.value.trainId = trainId →
    record.value.hasArrivedAtDest = false
  cleanup : ∀ clock ageInHours values, .evictActivations clock ageInHours values ∈ since →
    ageInHours = HzCleanup.activationThreshold ∧ now.isBefore clock = false

/-- No pass met the train after its departure: read as times of day, the departure was never
    before the reading of the pass's clock less one minute. -/
def NeverMetDeparted (since : List Action) (schedule : Schedule) : Prop :=
  ∀ clock ageInHours values departure, .evictActivations clock ageInHours values ∈ since →
    schedule.departure = some departure →
    departure.isBefore (clock.toLocalTime.minusMinutes 1) = false

theorem young_at_pass {stored clock now : LocalDateTime}
    (young : (now.minusHours HzCleanup.activationThreshold).isBefore stored = true)
    (past : now.isBefore clock = false) :
    stored.isBefore (clock.minusHours HzCleanup.activationThreshold) = false := by
  simp only [LocalDateTime.isBefore_eq_true, LocalDateTime.isBefore_eq_false,
    LocalDateTime.minusHours_epochMilli] at young past ⊢
  omega

/-- The activation is in the store, which holds every entry under its own train id. -/
structure Held (trainId : String) (activation : TrainActivation) (s : State) : Prop where
  keyed : KeyedStores s
  found : IMap.get s.activations trainId = some activation

theorem held_step {since : List Action} {trainId : String} {activation : TrainActivation}
    {now : LocalDateTime} (live : Live repos since trainId activation.timestamp now)
    (neverMet : NeverMetDeparted since activation.schedule) {action : Action}
    (member : action ∈ since)
    {s s' : State} (held : Held trainId activation s) (stepped : s.step repos action = some s') :
    Held trainId activation s' := by
  refine ⟨keyedStores_step held.keyed stepped, ?_⟩
  cases activation_after_step stepped trainId with
  | inl same => rw [same]; exact held.found
  | inr changed =>
    obtain ⟨clock, msg, newer, rfl, _, _, activates, _⟩ | ⟨record, rfl, own, arrived, _⟩ |
      ⟨clock, ageInHours, values, rfl, _⟩ := changed
    · exact absurd activates (live.latest clock msg newer.schedule member)
    · have travelling := live.running record member own
      rw [arrived] at travelling
      cases travelling
    · -- a pass: neither of its tests selects the activation, whatever the snapshot's order
      obtain ⟨rfl, past⟩ := live.cleanup clock ageInHours values member
      obtain ⟨snapshot, ⟨_, rfl⟩ | ⟨activations, evicted, rfl⟩⟩ :=
        State.step_evictActivations stepped
      · exact held.found
      · have young := young_at_pass live.young past
        have waiting := fun departure =>
          neverMet clock HzCleanup.activationThreshold values departure member
        exact HzTrainActivationRepo.get_evictOlderThan_of_fresh held.keyed.1 snapshot evicted
          held.found young waiting

/-- In every run, a well-formed message about a live train that no pass has met departed is
    translated, and its movement is the next record of the topic. -/
theorem live_train_is_sent {before since : List Action} {s : State} {stored now : LocalDateTime}
    {activation msg : TrustMovementMessage} {trainId : String} {schedule : Schedule}
    {body : TrustMovementMessage.Body}
    (reached :
      run (State.step repos) .empty (before ++ .sendMessage stored activation :: since) = some s)
    (activates : Activates repos activation trainId schedule)
    (live : Live repos since trainId stored now) (neverMet : NeverMetDeparted since schedule)
    (flag : schedule.isPassenger.isSome)
    (message : MovementMessage msg trainId body) (wellFormed : WellFormed body) :
    ∃ movement, movement.trainId = trainId ∧
      trainMovementFrom repos s.activations now msg = .ok (some movement) ∧
      s.step repos (.sendMessage now msg) =
        some { s with topic := s.topic ++ [⟨body.trainServiceCode, movement⟩] } := by
  obtain ⟨earlier, start, rest⟩ := run_append_eq_some.mp reached
  obtain ⟨middle, first, later⟩ := run_cons_eq_some.mp rest
  have keyed : KeyedStores middle := keyedStores_step (keyedStores_run start) first
  obtain ⟨activationBody, _, handled⟩ := State.handle_of_activates earlier stored activates
  have stores : earlier.handle repos stored activation = middle := Option.some.inj first
  -- the first message stores the activation, and no later step of the run takes it
  have held : Held trainId ⟨trainId, schedule, activationBody.originDepTimestamp, stored⟩ s := by
    refine run_invariant (Held trainId _) (fun action member _ _ => held_step live neverMet member)
      ⟨keyed, ?_⟩ later
    rw [← stores, handled]
    exact IMap.get_set_self _ _ _
  obtain ⟨kind, hasBody, hasTrain⟩ := message
  obtain ⟨movement, own, translation⟩ := exists_translation wellFormed hasTrain now flag
  have found : IMap.get s.activations movement.trainId = some _ := own ▸ held.found
  refine ⟨movement, own, trainMovementFrom_eq_some.mpr ⟨body, _, hasBody, found, translation⟩, ?_⟩
  have built :
      recordFrom repos s.activations now msg = .ok (some ⟨body.trainServiceCode, movement⟩) :=
    recordFrom_eq_some.mpr ⟨body, _, hasBody, rfl, found, translation⟩
  exact congrArg some (State.handle_of_record kind built)

/-! ## The sample train around its departure -/

open Sample

/-- The train is activated at 9:00, and the cleanup job passes at the given time of day. -/
def passAt (hour minute : Nat) : List Action :=
  [.evictMovements (clock hour minute) HzCleanup.movementThreshold [],
    .evictActivations (clock hour minute) HzCleanup.activationThreshold [activation]]

theorem live_passAt {hour minute : Nat}
    (past : (clock 10 41).isBefore (clock hour minute) = false) :
    Live refData (passAt hour minute) activation.trainId activation.timestamp (clock 10 41) where
  young := by decide
  latest := by simp [passAt]
  running := by simp [passAt]
  cleanup := by simp_all [passAt]

/-- The rule at a pass that falls on the last minute in which the train still counts as waiting. -/
theorem waiting_train_is_sent :
    ∃ s, run (State.step refData) .empty
      (.sendMessage (clock 9 0) activationMessage :: passAt 10 31) = some s ∧
      ∃ movement, movement.trainId = "871A01MN18" ∧
        trainMovementFrom refData s.activations (clock 10 41) movementMessage =
          .ok (some movement) ∧
        s.step refData (.sendMessage (clock 10 41) movementMessage) =
          some { s with topic := s.topic ++ [⟨movementBody.trainServiceCode, movement⟩] } := by
  have evaluated : (run (State.step refData) .empty
      (.sendMessage (clock 9 0) activationMessage :: passAt 10 31)).isSome := by decide
  obtain ⟨s, reached⟩ := Option.isSome_iff_exists.mp evaluated
  have neverMet : NeverMetDeparted (passAt 10 31) schedule := by
    intro reading ageInHours values departure member departs
    simp only [passAt, List.mem_cons, List.not_mem_nil, or_false, reduceCtorEq, false_or,
      Action.evictActivations.injEq] at member
    cases departs
    rw [member.1]
    decide
  have fromStart : run (State.step refData) .empty
      ([] ++ .sendMessage (clock 9 0) activationMessage :: passAt 10 31) = some s := reached
  exact ⟨s, reached, live_train_is_sent fromStart activationMessage_activates
    (live_passAt (by decide)) neverMet rfl movementMessage_message movementBody_wellFormed⟩

/-- One minute later the pass takes the activation of the live train, and its next message,
    well-formed as it is, is dropped. -/
theorem departed_train_is_dropped :
    ∃ s, run (State.step refData) .empty
      (.sendMessage (clock 9 0) activationMessage :: passAt 10 32) = some s ∧
      Activates refData activationMessage "871A01MN18" schedule ∧
      Live refData (passAt 10 32) "871A01MN18" (clock 9 0) (clock 10 41) ∧
      MovementMessage movementMessage "871A01MN18" movementBody ∧ WellFormed movementBody ∧
      trainMovementFrom refData s.activations (clock 10 41) movementMessage = .ok none ∧
      s.step refData (.sendMessage (clock 10 41) movementMessage) = some s := by
  have evaluated : (run (State.step refData) .empty
      (.sendMessage (clock 9 0) activationMessage :: passAt 10 32)).map
        (fun s => decide (trainMovementFrom refData s.activations (clock 10 41) movementMessage =
          .ok none ∧
          s.step refData (.sendMessage (clock 10 41) movementMessage) = some s)) = some true := by
            decide
  obtain ⟨s, reached, dropped⟩ := Option.map_eq_some_iff.mp evaluated
  exact ⟨s, reached, activationMessage_activates, live_passAt (by decide), movementMessage_message,
    movementBody_wellFormed, of_decide_eq_true dropped⟩

end TrainWatch.Verified.Liveness
