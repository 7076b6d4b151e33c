import TrainWatch.Verified.DelayWindows
import TrainWatch.Verified.Feed

/-! # From the bytes of the feed to the searches

What the searches show has its source in the messages of the topic's frames: a movement is
the translation of one message, a departure and a station are those of an activation that
an earlier message stored.  The invariant is about the messages alone, so it holds whatever
the cleanup and the processor do between them.
-/

namespace TrainWatch.Verified.Shown

open TrainWatch.Java TrainWatch.RefData TrainWatch.Library TrainWatch.Stomp TrainWatch.Movement
  TrainWatch.Search
open TrainWatch.Movement.TrustFeed TrainWatch.Movement.TrainMovementProducer
  TrainWatch.Search.HzTrainWatchSearch
open TrainWatch.Verified.PlainClients TrainWatch.Verified.Feed

/-! ## What the messages say -/

section Messages

variable {repos : ReferenceRepos} {messages : List TrustMovementMessage}

/-- The activation is what the last message that activated its train stores. -/
def Activated (repos : ReferenceRepos) (messages : List TrustMovementMessage)
    (activation : TrainActivation) : Prop :=
  ∃ before msg after body, messages = before ++ msg :: after ∧
    Activates repos msg activation.trainId activation.schedule ∧ msg.body = some body ∧
    activation.wttDeparture = body.originDepTimestamp ∧
    ∀ msg' ∈ after, ∀ schedule, ¬ Activates repos msg' activation.trainId schedule

/-- The movement is the translation of a message that follows the activation of its train. -/
def Reported (repos : ReferenceRepos) (messages : List TrustMovementMessage) (tm : TrainMovement) :
    Prop :=
  ∃ before msg after body activation now, messages = before ++ msg :: after ∧
    MovementMessage msg tm.trainId body ∧
    Activated repos before activation ∧ activation.trainId = tm.trainId ∧
      Translation repos now body activation.schedule tm

theorem Activated.append {activation : TrainActivation}
    (activated : Activated repos messages activation)
    {more : List TrustMovementMessage}
    (others : ∀ msg ∈ more, ∀ schedule, ¬ Activates repos msg activation.trainId schedule) :
    Activated repos (messages ++ more) activation := by
  obtain ⟨before, msg, after, body, rfl, activates, hasBody, departs, last⟩ := activated
  refine ⟨before, msg, after ++ more, body, by simp, activates, hasBody, departs,
    fun msg' member => ?_⟩
  obtain earlier | later := List.mem_append.mp member
  · exact last msg' earlier
  · exact others msg' later

theorem Activated.last {activation : TrainActivation} {msg : TrustMovementMessage}
    {body : TrustMovementMessage.Body}
    (activates : Activates repos msg activation.trainId activation.schedule)
    (hasBody : msg.body = some body)
    (departs : activation.wttDeparture = body.originDepTimestamp) :
    Activated repos (messages ++ [msg]) activation :=
  ⟨messages, msg, [], body, rfl, activates, hasBody, departs, fun _ member => by cases member⟩

theorem Reported.append {tm : TrainMovement} (reported : Reported repos messages tm)
    (more : List TrustMovementMessage) :
    Reported repos (messages ++ more) tm := by
  obtain ⟨before, msg, after, body, activation, now, rfl, rest⟩ := reported
  exact ⟨before, msg, after ++ more, body, activation, now, by simp, rest⟩

/-! ## What the stores hold -/

structure Sourced (repos : ReferenceRepos) (messages : List TrustMovementMessage) (s : State) :
    Prop where
  keyed : KeyedStores s
  activations : ∀ trainId activation, IMap.get s.activations trainId = some activation →
    Activated repos messages activation
  topic : ∀ record ∈ s.topic, Reported repos messages record.value
  movements : ∀ trainId tm, IMap.get s.movements trainId = some tm → Reported repos messages tm

variable {s s' : State} {action : Movement.Action}

theorem sourced_empty : Sourced repos [] .empty where
  keyed := keyedStores_empty
  activations := fun trainId activation found => by simp [State.empty] at found
  topic := fun record member => by cases member
  movements := fun trainId tm found => by simp [State.empty] at found

theorem activations_step (sourced : Sourced repos messages s)
    (stepped : s.step repos action = some s') {trainId : String}
    {activation : TrainActivation} (found : IMap.get s'.activations trainId = some activation) :
    Activated repos (messages ++ sentBy [action]) activation := by
  obtain same | ⟨now, msg, stored, rfl, rfl, _, activates, ⟨body, hasBody, departs⟩, after⟩ |
    ⟨_, _, _, _, gone⟩ |
    ⟨_, _, _, _, gone⟩ := activation_after_step stepped trainId
  · -- an activation of the train in this step would have replaced the entry
    by_cases replaced : ∃ now msg schedule, action = .sendMessage now msg ∧
      Activates repos msg trainId schedule
    · obtain ⟨now, msg, schedule, rfl, activates⟩ := replaced
      cases stepped
      obtain ⟨body, hasBody, handled⟩ := State.handle_of_activates s now activates
      rw [handled] at found
      cases (IMap.get_set_self _ _ _).symm.trans found
      exact .last activates hasBody rfl
    · have earlier : IMap.get s.activations trainId = some activation := same ▸ found
      refine (sourced.activations trainId activation earlier).append fun msg member schedule
        activates => ?_
      rw [sourced.keyed.1 trainId activation earlier] at activates
      cases action with
      | sendMessage now msg' =>
        cases List.mem_singleton.mp member
        exact replaced ⟨now, msg, schedule, rfl, activates⟩
      | _ => cases member
  · cases after.symm.trans found
    exact .last activates hasBody departs
  · rw [gone] at found
    cases found
  · rw [gone] at found
    cases found

theorem reported_of_recordFrom (sourced : Sourced repos messages s) {now : LocalDateTime}
    {msg : TrustMovementMessage}
    {record : Record} (kind : msg.isActivation = .ok false)
    (built : recordFrom repos s.activations now msg = .ok (some record)) :
    Reported repos (messages ++ [msg]) record.value := by
  obtain ⟨body, activation, hasBody, _, stored, translation⟩ := recordFrom_eq_some.mp built
  exact ⟨messages, msg, [], body, activation, now, rfl, ⟨kind, hasBody, translation.trainId⟩,
    sourced.activations _ _ stored, sourced.keyed.1 _ _ stored, translation⟩

theorem sourced_step (sourced : Sourced repos messages s)
    (stepped : s.step repos action = some s') :
    Sourced repos (messages ++ sentBy [action]) s' where
  keyed := keyedStores_step sourced.keyed stepped
  activations := fun trainId activation found => activations_step sourced stepped found
  topic := by
    intro record member
    obtain same | ⟨now, msg, sent, rfl, kind, built, grown⟩ := topic_after_step stepped
    · exact (sourced.topic record (same ▸ member)).append _
    · rw [grown] at member
      obtain earlier | new := List.mem_append.mp member
      · exact (sourced.topic record earlier).append _
      · cases List.mem_singleton.mp new
        exact reported_of_recordFrom sourced kind built
  movements := by
    intro trainId tm found
    obtain same | gone | ⟨record, _, next, _, after⟩ := movement_after_step stepped trainId
    · exact (sourced.movements trainId tm (same ▸ found)).append _
    · rw [gone] at found
      cases found
    · cases after.symm.trans found
      exact (sourced.topic record (List.mem_of_getElem? next)).append _

theorem sourced_run {trace : List Movement.Action}
    (reached : run (State.step repos) .empty trace = some s) :
    Sourced repos (sentBy trace) s := by
  refine run_history (fun history s => Sourced repos (sentBy history) s) sourced_empty ?_ reached
  intro history action s s' _ _ sourced stepped
  rw [sentBy, List.filterMap_append, ← sentBy, ← sentBy]
  exact sourced_step sourced stepped

/-! ## What the searches answer -/

/-- Whatever the searches return, in whatever order they meet the values of the stores, comes from
    the messages. -/
structure AnswersFrom (repos : ReferenceRepos) (messages : List TrustMovementMessage) (s : State) :
    Prop where
  delays : ∀ (movements : List TrainMovement) (maxResults : Int) result, (movements : Multiset _) =
    IMap.values s.movements →
    delayedTrainsByAllWindows movements maxResults = .ok result →
    ∀ dw shown, result dw = some shown → ∀ tm ∈ shown, DelayWindow.fromDelay tm.delay = dw ∧
      Reported repos messages tm
  withinOneHour : ∀ (departures : List TrainActivation) now (maxResults : Int) found,
    (departures : Multiset _) = IMap.values s.activations →
      departuresWithinOneHour departures now maxResults = .ok found →
    ∀ td ∈ found, ∃ activation, Activated repos messages activation ∧
      toDeparture activation = .ok td
  withinOneHourAt :
    ∀ (departures : List TrainActivation) now (station : Station) (maxResults : Int) found,
    (departures : Multiset _) = IMap.values s.activations →
    departuresWithinOneHourAt departures now station maxResults = .ok found →
    ∀ td ∈ found, ∃ activation, Activated repos messages activation ∧
      toDeparture activation = .ok td ∧
      (td.origin.bind (·.description)) = station.name
  stations : ∀ (capitalize : String → String) (departures : List TrainActivation) listed,
    (departures : Multiset _) = IMap.values s.activations → listStations capitalize departures =
      .ok listed →
    ∀ station ∈ listed, ∃ activation, Activated repos messages activation ∧
      makeStation capitalize activation = .ok station

theorem departureBefore_eq_some {cutOff : LocalDateTime} {ta : TrainActivation}
    {td : TrainDeparture}
    (kept : departureBefore cutOff ta = .ok (some td)) : toDeparture ta = .ok td := by
  obtain ⟨created, here, rest⟩ := bind_eq_ok.mp kept
  split at rest
  · cases rest
    exact here
  · cases rest

theorem departureFrom_eq_some {station : Station} {cutOff : LocalDateTime} {ta : TrainActivation}
    {td : TrainDeparture}
    (kept : departureFrom station cutOff ta = .ok (some td)) :
    toDeparture ta = .ok td ∧ td.origin.bind (·.description) = station.name := by
  obtain ⟨origin, hasOrigin, rest⟩ := bind_eq_ok.mp kept
  obtain ⟨description, hasDescription, rest⟩ := bind_eq_ok.mp rest
  split at rest
  · rename_i here
    have created := departureBefore_eq_some rest
    refine ⟨created, ?_⟩
    obtain ⟨_, _, built⟩ := bind_eq_ok.mp created
    cases built
    rw [show ta.schedule.origin = some origin from nonNull_eq_ok.mp hasOrigin]
    exact (nonNull_eq_ok.mp hasDescription).trans here
  · cases rest

theorem mem_of_limitSorted {stage : TrainActivation → Except JavaException (Option TrainDeparture)}
    {maxResults : Int}
    {departures : List TrainActivation} {found : List TrainDeparture}
    (completed : limitSorted stage maxResults departures = .ok found) {td : TrainDeparture}
    (member : td ∈ found) :
    ∃ ta ∈ departures, stage ta = .ok (some td) := by
  rw [limitSorted] at completed
  split at completed
  · cases completed
  · obtain ⟨taken, limited, sorted⟩ := bind_eq_ok.mp completed
    cases sorted
    exact mem_of_limitE limited ((List.mem_insertionSort _).mp member)

theorem answersFrom_of_sourced (sourced : Sourced repos messages s) :
    AnswersFrom repos messages s := by
  -- a snapshot holds the stored activations, in any order
  have activated : ∀ {departures : List TrainActivation}, (departures : Multiset _) =
    IMap.values s.activations →
      ∀ ta ∈ departures, Activated repos messages ta := by
    intro departures values ta member
    have inStore : ta ∈ IMap.values s.activations := by
      rw [← values]
      exact member
    obtain ⟨trainId, found⟩ := (IMap.mem_values_iff _ _).mp inStore
    exact sourced.activations trainId ta found
  constructor
  · intro movements maxResults result values completed dw shown here tm member
    obtain ⟨group, grouped, inGroup⟩ := mem_of_limit completed here
    rw [DelayWindows.collectSortedMovements_eq] at grouped
    split at grouped
    · cases grouped
    · cases grouped
      obtain ⟨inMovements, inWindow⟩ :=
        List.mem_filter.mp ((List.mem_insertionSort _).mp (inGroup tm member))
      have inStore : tm ∈ IMap.values s.movements := by
        rw [← values]
        exact inMovements
      obtain ⟨trainId, found⟩ := (IMap.mem_values_iff _ _).mp inStore
      exact ⟨of_decide_eq_true inWindow, sourced.movements trainId tm found⟩
  · intro departures now maxResults found values completed td member
    obtain ⟨ta, inDepartures, kept⟩ := mem_of_limitSorted completed member
    exact ⟨ta, activated values ta inDepartures, departureBefore_eq_some kept⟩
  · intro departures now station maxResults found values completed td member
    obtain ⟨ta, inDepartures, kept⟩ := mem_of_limitSorted completed member
    exact ⟨ta, activated values ta inDepartures, departureFrom_eq_some kept⟩
  · intro capitalize departures listed values completed station member
    obtain ⟨made, mapped, sorted⟩ := bind_eq_ok.mp completed
    have inDistinct : station ∈ Station.distinct made := (perm_of_sortedE sorted).mem_iff.mp member
    obtain ⟨ta, inDepartures, makes⟩ := mem_of_mapM_eq_ok mapped (mem_of_mem_distinct inDistinct)
    exact ⟨ta, activated values ta inDepartures, makes⟩

end Messages

/-! ## The feed -/

section Feed

variable {repos : ReferenceRepos} {parseJsonArray : TrustMessageParser}
variable {s s' : TrustFeed} {trace : List TrustFeed.Action} {username password : String}

def topicMessages (repos : ReferenceRepos) (parseJsonArray : TrustMessageParser)
    (calls : List Call) : List TrustMovementMessage :=
  (calls.filter onTopic).flatMap (messagesOf repos parseJsonArray)

theorem topicMessages_append (calls more : List Call) :
    topicMessages repos parseJsonArray (calls ++ more) =
    topicMessages repos parseJsonArray calls ++ topicMessages repos parseJsonArray more := by
  rw [topicMessages, List.filter_append, List.flatMap_append]
  rfl

theorem listening_or_follows
    (reached : run (TrustFeed.step repos parseJsonArray) (start username password) trace = some s) :
    Listening repos s ∧
      (s.login = .subscribed → ∃ before, Follows repos parseJsonArray before s) := by
  refine run_invariant (fun s => Listening repos s ∧
    (s.login = .subscribed → ∃ before, Follows repos parseJsonArray before s))
    (fun _ _ s s' holds stepped => ?_) ⟨listening_start, fun subscribed => by
      cases subscribed⟩ reached
  obtain ⟨listening, follows⟩ := holds
  refine ⟨listening_step listening stepped, fun subscribed => ?_⟩
  by_cases already : s.login = .subscribed
  · obtain ⟨before, follows⟩ := follows already
    exact ⟨before, follows_step follows stepped⟩
  · exact ⟨_, follows_login listening stepped already subscribed⟩

theorem handled_of_written
    (reached : run (TrustFeed.step repos parseJsonArray) (start username password) trace = some s) :
    ∃ since, s.handled <+: topicMessages repos parseJsonArray
      ((Wire.received (written trace)).drop since) := by
  obtain ⟨listening, follows⟩ := listening_or_follows reached
  by_cases subscribed : s.login = .subscribed
  · obtain ⟨before, _, _, after, handed, same⟩ := follows subscribed
    have received := (Connection.run_carries (connection_run reached)).handed
    have written_eq : Wire.received (written trace) =
        s.connection.handed ++ Receiver.reader.handedOver
          (Receiver.reader.feed s.connection.reader s.connection.underWay) :=
      received.symm
    refine ⟨before.length, ?_⟩
    rw [written_eq, handed, List.append_assoc, List.drop_left, topicMessages_append, topicMessages,
      ← same, List.append_assoc]
    exact List.prefix_append _ _
  · refine ⟨0, ?_⟩
    rw [(listening.notYet subscribed).2]
    exact List.nil_prefix

/-- Whatever bytes the feed writes, and however they arrive, are handled, processed and cleaned up:
    what the searches answer comes from the messages handled, and those are, from some frame on, the
    ones that the bytes carry on the topic. -/
theorem shown_is_received
    (reached : run (TrustFeed.step repos parseJsonArray) (start username password) trace = some s) :
    ∃ since, s.handled <+: topicMessages repos parseJsonArray
      ((Wire.received (written trace)).drop since) ∧
      AnswersFrom repos s.handled s.system := by
  obtain ⟨since, handled⟩ := handled_of_written reached
  obtain ⟨pipeline, ran, sent⟩ := (listening_or_follows reached).1.pipeline
  exact ⟨since, handled, answersFrom_of_sourced (sent ▸ sourced_run ran)⟩

/-! ### A train is activated and shown -/

open Sample

def journeyPieces : List String :=
  ["[\x7b\"header\":\x7b\"msg_type\":\"0001\"\x7d,\"body\":\x7b",
    "\"origin_dep_timestamp\":\"1458297000000\",",
    "\"schedule_end_date\":\"2016-03-31\",", "\"schedule_start_date\":\"2016-03-01\",",
    "\"train_id\":\"871A01MN18\",\"train_uid\":\"W12345\",",
    "\"train_service_code\":\"24745000\"\x7d\x7d,",
    "\x7b\"header\":\x7b\"msg_type\":\"0003\"\x7d,\"body\":\x7b",
    "\"actual_timestamp\":\"1458297600000\",",
    "\"loc_stanox\":\"87201\",\"timetable_variation\":\"10\",",
    "\"train_id\":\"871A01MN18\",\"train_terminated\":\"false\",",
    "\"train_service_code\":\"24745000\",\"variation_status\":\"LATE\"\x7d\x7d]"]

def journeyBody : String := String.join journeyPieces

/-- What Gson makes of the body. -/
def journeyParser : TrustMessageParser := fun body =>
  if body = some journeyBody then some [some activationMessage, some movementMessage] else none

def journeyFrame : Call :=
  ⟨.message, some (Dict.ofPairs [("destination", some trainMovementTopic)]),
    some journeyBody⟩

def connected : TrustFeed :=
  TrustFeed.receive journeyParser
    { start "user" "secret" with connection := ⟨[], Receiver.idle, [connectedFrame.received]⟩ }
    connectedFrame.received

def subscribed : TrustFeed := (connected.step refData journeyParser .login).get rfl

def told : TrustFeed :=
  { subscribed with
    connection := ⟨[], Receiver.idle, [connectedFrame.received, journeyFrame.received]⟩
    session := subscribed.session.receive journeyFrame.received
    pending := [[some activationMessage, some movementMessage]] }

theorem receive_journeyFrame : TrustFeed.receive journeyParser
    { subscribed with
      connection := ⟨[], Receiver.idle, [connectedFrame.received, journeyFrame.received]⟩ }
    journeyFrame.received = told := by
  have heard : (subscribed.session.client.receive journeyFrame.received).2 = .told [()] := rfl
  have parsed :
      journeyParser (some journeyBody) = some [some activationMessage, some movementMessage] := by
    rw [journeyParser, if_pos rfl]
  have body : journeyFrame.received.body = some journeyBody := by
    simp only [journeyFrame, Call.received, Option.getD_some]
  rw [TrustFeed.receive, heard, body, parsed]
  rfl

theorem journeyFrame_wellFormed : WellFormed (isAscii ·) journeyFrame := by
  have letters : journeyPieces.all (fun piece => piece.toList.all fun c =>
      isAscii c && decide (c ≠ '\x00')) = true := by decide
  refine wellFormed_onTopic ?_
  rw [journeyBody, String.toList_join, List.all_flatMap]
  exact letters

def journey : List TrustFeed.Action :=
  [.sendMessage (clock 9 0), .sendMessage (clock 10 41), .others (.process record)]

def journeyShown : TrustFeed :=
  (run (TrustFeed.step refData journeyParser) told journey).get (by decide)

def journeyTrace : List TrustFeed.Action :=
  [.write (Transmitter.transmit connectedFrame),
    .arrive (Transmitter.transmit connectedFrame).length, .round, .login,
    .write (Transmitter.transmit journeyFrame), .arrive (Transmitter.transmit journeyFrame).length,
      .round] ++ journey

theorem journey_is_shown : IMap.get journeyShown.system.movements "871A01MN18" = some movement ∧
    ∃ since, [activationMessage, movementMessage] <+:
        topicMessages refData journeyParser ((Wire.received (written journeyTrace)).drop since) ∧
      AnswersFrom refData [activationMessage, movementMessage] journeyShown.system := by
  have free : (start "user" "secret").pending = [] ∧ (start "user" "secret").login ≠ .refused :=
    ⟨rfl, by decide⟩
  have connects : run (TrustFeed.step refData journeyParser) (start "user" "secret")
      [.write (Transmitter.transmit connectedFrame),
        .arrive (Transmitter.transmit connectedFrame).length, .round] =
        some connected := run_delivers (Wire.wellFormed_bare .connected) rfl free
  have logsIn : connected.step refData journeyParser .login = some subscribed :=
    (Option.some_get _).symm
  have free' : subscribed.pending = [] ∧ subscribed.login ≠ .refused := ⟨rfl, by decide⟩
  have delivers : run (TrustFeed.step refData journeyParser) subscribed
      [.write (Transmitter.transmit journeyFrame),
        .arrive (Transmitter.transmit journeyFrame).length, .round] =
        some told := receive_journeyFrame ▸ run_delivers journeyFrame_wellFormed rfl free'
  have goesOn : run (TrustFeed.step refData journeyParser) told journey = some journeyShown :=
    (Option.some_get _).symm
  have reached : run (TrustFeed.step refData journeyParser) (start "user" "secret") journeyTrace =
      some journeyShown :=
    run_append_eq_some.mpr ⟨told, run_append_eq_some.mpr ⟨connected, connects, run_cons_eq_some.mpr
      ⟨subscribed, logsIn, delivers⟩⟩, goesOn⟩
  exact ⟨by decide, shown_is_received reached⟩

end Feed

end TrainWatch.Verified.Shown
