import TrainWatch.Movement.Repositories

/-! # The producer

`sendMessage` handles one TRUST message.  The stores it reads are the activation
store and the two reference repositories; what it does to the system is at most one
write, its last act, so it is given here as the `Effect` that write has.

An exception in the activation branch, or in the test that selects the branch,
leaves `sendMessage`; one in the movement branch is caught and logged there.
-/

namespace TrainWatch.Movement

open TrainWatch.Java TrainWatch.RefData TrainWatch.Library

/-- A record of the topic: the key that selects its partition, and its value. -/
structure Record where
  key : Option String
  value : TrainMovement
deriving DecidableEq, Repr

namespace TrainMovementProducer

inductive Effect where
  | nothing
  | putActivation (activation : TrainActivation)
  | send (record : Record)
deriving DecidableEq, Repr

variable (repos : ReferenceRepos)

def lookupSchedule (msg : TrustMovementMessage) : Except JavaException (Option Schedule) := do
  let body ← nonNull msg.body
  pure (repos.scheduleRepo.getBy body.trainUid body.trainServiceCode body.scheduleStartDate
    body.scheduleEndDate)

/-- An early train's variation gets a minus sign in front, whatever it is. -/
def calculateDelay (body : TrustMovementMessage.Body) : Option String :=
  match body.variationStatus with
  | none => body.timetableVariation
  | some status =>
    if status == "EARLY" then some ("-" ++ concatOperand body.timetableVariation)
    else body.timetableVariation

def dateTime (now : LocalDateTime) (body : TrustMovementMessage.Body) :
    Except JavaException LocalDateTime :=
  match body.actualTimestamp with
  | none => .ok now
  | some timestamp => do
    let millis ← Long.parseLong (some timestamp)
    pure (LocalDateTime.ofEpochMilli millis)

def trainMovementFrom (activationRepo : HzTrainActivationRepo) (now : LocalDateTime)
    (msg : TrustMovementMessage) : Except JavaException (Option TrainMovement) := do
  let body ← nonNull msg.body
  let ta ← HzTrainActivationRepo.get activationRepo body.trainId
  match ta with
  | none => pure none
  | some t =>
    let current ← repos.locationRepo.getByStanox body.locStanox
    let trainId ← nonNull body.trainId
    let timestamp ← dateTime now body
    let movement ← TrainMovement.create trainId timestamp current (calculateDelay body)
      body.trainTerminated t.schedule
    pure (some movement)

/-- The movement branch of `sendMessage`, before its exceptions are caught. -/
def recordFrom (activationRepo : HzTrainActivationRepo) (now : LocalDateTime)
    (msg : TrustMovementMessage) : Except JavaException (Option Record) := do
  let movement ← trainMovementFrom repos activationRepo now msg
  match movement with
  | none => pure none
  | some movement =>
    let body ← nonNull msg.body
    pure (some ⟨body.trainServiceCode, movement⟩)

def sendMessage (activationRepo : HzTrainActivationRepo) (now : LocalDateTime)
    (msg : TrustMovementMessage) : Except JavaException Effect := do
  let isActivation ← msg.isActivation
  if isActivation then
    let schedule ← lookupSchedule repos msg
    match schedule with
    | none => pure .nothing
    | some schedule =>
      let body ← nonNull msg.body
      let trainId ← nonNull body.trainId
      pure (.putActivation ⟨trainId, schedule, body.originDepTimestamp, now⟩)
  else
    match recordFrom repos activationRepo now msg with
    | .ok (some record) => pure (.send record)
    | .ok none => pure .nothing
    -- caught and logged
    | .error _ => pure .nothing

/-! ## What a message can do -/

/-- `msg` is an activation message of the train and its schedule lookup finds `schedule`. -/
def Activates (msg : TrustMovementMessage) (trainId : String) (schedule : Schedule) : Prop :=
  msg.isActivation = .ok true ∧ ∃ body, msg.body = some body ∧ body.trainId = some trainId ∧
    lookupSchedule repos msg = .ok (some schedule)

/-- `msg` is a message about the train that is not an activation. -/
def MovementMessage (msg : TrustMovementMessage) (trainId : String)
    (body : TrustMovementMessage.Body) : Prop :=
  msg.isActivation = .ok false ∧ msg.body = some body ∧ body.trainId = some trainId

/-- The fields of a movement message that are used as text or number have the form the
    translation needs. -/
structure WellFormed (body : TrustMovementMessage.Body) : Prop where
  stanox : body.locStanox.isSome
  timestamp : ∀ text, body.actualTimestamp = some text → ∃ millis, Long.parseLong (some text) =
    .ok millis
  delay : ∃ minutes, Integer.parseInt (some ((calculateDelay body).getD "0")) = .ok minutes

/-- The movement that a well-formed message about an activated train is translated into. -/
structure Translation (now : LocalDateTime) (body : TrustMovementMessage.Body) (schedule : Schedule)
    (movement : TrainMovement) : Prop where
  trainId : body.trainId = some movement.trainId
  currentLocation : repos.locationRepo.getByStanox body.locStanox = .ok movement.currentLocation
  timestamp : dateTime now body = .ok movement.timestamp
  delay : Integer.parseInt (some ((calculateDelay body).getD "0")) = .ok movement.delay
  hasArrived : movement.hasArrived = Boolean.valueOf body.trainTerminated
  isPassenger : schedule.isPassenger = some movement.isPassenger
  origin : movement.origin = schedule.origin
  departure : movement.departure = schedule.departure
  destination : movement.destination = schedule.destination
  arrival : movement.arrival = schedule.arrival

variable {repos} {activationRepo : HzTrainActivationRepo} {now : LocalDateTime}
variable {msg : TrustMovementMessage}

theorem trainMovementFrom_eq_some {movement : TrainMovement} :
    trainMovementFrom repos activationRepo now msg = .ok (some movement) ↔
      ∃ body activation, msg.body = some body ∧
        IMap.get activationRepo movement.trainId = some activation ∧
        Translation repos now body activation.schedule movement := by
  constructor
  · intro translated
    simp only [trainMovementFrom, bind_eq_ok, nonNull_eq_ok,
      HzTrainActivationRepo.get] at translated
    -- the body and the train id are read twice, and give the same both times
    obtain ⟨body, hasBody, ta, ⟨trainId, hasTrain, lookup⟩, rest⟩ := translated
    cases lookup
    split at rest
    · cases rest
    · rename_i activation stored
      simp only [bind_eq_ok, nonNull_eq_ok] at rest
      obtain ⟨current, located, trainId', hasTrain', timestamp, timed, built, created,
        result⟩ := rest
      cases hasTrain.symm.trans hasTrain'
      cases result
      obtain ⟨minutes, isPassenger, parsed, flag, rfl⟩ := TrainMovement.create_eq_ok.mp created
      exact ⟨body, activation, hasBody, stored, hasTrain, located, timed, parsed, rfl, flag, rfl,
        rfl, rfl, rfl⟩
  · rintro ⟨body, activation, hasBody, stored, translation⟩
    have created : TrainMovement.create movement.trainId movement.timestamp movement.currentLocation
        (calculateDelay body) body.trainTerminated activation.schedule = .ok movement := by
      refine TrainMovement.create_eq_ok.mpr
        ⟨movement.delay, movement.isPassenger, translation.delay, translation.isPassenger, ?_⟩
      obtain ⟨_, _, _, _, arrived, _, origin, departure, destination, arrival⟩ := translation
      cases movement
      simp_all
    simp [trainMovementFrom, hasBody, HzTrainActivationRepo.get, translation.trainId, stored,
      translation.currentLocation, translation.timestamp, created]

theorem recordFrom_eq_some {record : Record} :
    recordFrom repos activationRepo now msg = .ok (some record) ↔
      ∃ body activation, msg.body = some body ∧ record.key = body.trainServiceCode ∧
        IMap.get activationRepo record.value.trainId = some activation ∧
        Translation repos now body activation.schedule record.value := by
  simp only [recordFrom, bind_eq_ok]
  constructor
  · rintro ⟨movement, translated, rest⟩
    cases movement with
    | none => cases rest
    | some movement =>
      simp only [bind_eq_ok, nonNull_eq_ok] at rest
      obtain ⟨body', hasBody', result⟩ := rest
      cases result
      obtain ⟨body, activation, hasBody, stored, translation⟩ :=
        trainMovementFrom_eq_some.mp translated
      cases hasBody.symm.trans hasBody'
      exact ⟨_, activation, hasBody, rfl, stored, translation⟩
  · rintro ⟨body, activation, hasBody, key, stored, translation⟩
    refine ⟨some record.value, trainMovementFrom_eq_some.mpr ⟨body, activation, hasBody, stored,
      translation⟩, ?_⟩
    simp [hasBody, ← key]

/-- Everything a message can do: nothing, store one activation, or send one record. -/
theorem sendMessage_cases {effect : Effect}
    (handled : sendMessage repos activationRepo now msg = .ok effect) :
    effect = .nothing ∨
    (∃ activation, effect = .putActivation activation ∧ activation.timestamp = now ∧
      Activates repos msg activation.trainId activation.schedule ∧
      ∃ body, msg.body = some body ∧ activation.wttDeparture = body.originDepTimestamp) ∨
    (∃ record, effect = .send record ∧ msg.isActivation = .ok false ∧
      recordFrom repos activationRepo now msg = .ok (some record)) := by
  -- `isActivation` decides between the two translations, and either may give nothing
  obtain ⟨isActivation, kind, rest⟩ := bind_eq_ok.mp handled
  cases isActivation with
  | true =>
    obtain ⟨schedule, lookup, rest⟩ := bind_eq_ok.mp rest
    cases schedule with
    | none => cases rest; exact .inl rfl
    | some schedule =>
      obtain ⟨body, hasBody, rest⟩ := bind_eq_ok.mp rest
      obtain ⟨trainId, hasTrain, rest⟩ := bind_eq_ok.mp rest
      cases rest
      rw [nonNull_eq_ok] at hasBody hasTrain
      exact .inr (.inl ⟨_, rfl, rfl, ⟨kind, body, hasBody, hasTrain, lookup⟩, body, hasBody, rfl⟩)
  | false =>
    simp only [Bool.false_eq_true, if_false] at rest
    split at rest
    · rename_i record built
      cases rest
      exact .inr (.inr ⟨record, rfl, kind, built⟩)
    · cases rest; exact .inl rfl
    · cases rest; exact .inl rfl

theorem sendMessage_of_activates (activationRepo : HzTrainActivationRepo) (now : LocalDateTime)
    {trainId : String} {schedule : Schedule} (activates : Activates repos msg trainId schedule) :
    ∃ body, msg.body = some body ∧ sendMessage repos activationRepo now msg =
      .ok (.putActivation ⟨trainId, schedule, body.originDepTimestamp, now⟩) := by
  obtain ⟨kind, body, hasBody, hasTrain, lookup⟩ := activates
  exact ⟨body, hasBody, by simp [sendMessage, kind, lookup, hasBody, hasTrain]⟩

theorem sendMessage_of_record {record : Record} (kind : msg.isActivation = .ok false)
    (built : recordFrom repos activationRepo now msg = .ok (some record)) :
    sendMessage repos activationRepo now msg = .ok (.send record) := by
  simp [sendMessage, kind, built]

/-- A well-formed message about a train with a stored activation is translated. -/
theorem exists_translation {body : TrustMovementMessage.Body} {trainId : String}
    (wellFormed : WellFormed body) (train : body.trainId = some trainId) (now : LocalDateTime)
    {schedule : Schedule} (flag : schedule.isPassenger.isSome) :
    ∃ movement, movement.trainId = trainId ∧ Translation repos now body schedule movement := by
  obtain ⟨stanox, hasStanox⟩ := Option.isSome_iff_exists.mp wellFormed.stanox
  obtain ⟨isPassenger, hasFlag⟩ := Option.isSome_iff_exists.mp flag
  obtain ⟨minutes, parsed⟩ := wellFormed.delay
  have timed : ∃ timestamp, dateTime now body = .ok timestamp := by
    cases text : body.actualTimestamp with
    | none => exact ⟨now, by simp [dateTime, text]⟩
    | some text' =>
      obtain ⟨millis, isNumber⟩ := wellFormed.timestamp text' text
      exact ⟨.ofEpochMilli millis, by simp [dateTime, text, isNumber]⟩
  obtain ⟨timestamp, timed⟩ := timed
  refine ⟨{ trainId, timestamp, currentLocation := repos.locationRepo.byStanoxMap.get stanox
            origin := schedule.origin, departure := schedule.departure
            destination := schedule.destination, arrival := schedule.arrival
            hasArrived := Boolean.valueOf body.trainTerminated
            delay := minutes, isPassenger }, rfl,
    { trainId := train, currentLocation := ?_, timestamp := timed, delay := parsed
      hasArrived := rfl, isPassenger := hasFlag, origin := rfl, departure := rfl, destination := rfl
      arrival := rfl }⟩
  simp [HzLocationRepo.getByStanox, hasStanox]

theorem wellFormed_of_translation {body : TrustMovementMessage.Body} {schedule : Schedule}
    {movement : TrainMovement} (translation : Translation repos now body schedule movement) :
    WellFormed body where
  stanox := by
    obtain ⟨stanox, hasStanox, _⟩ := bind_eq_ok.mp translation.currentLocation
    rw [nonNull_eq_ok.mp hasStanox]
    rfl
  timestamp := by
    intro text given
    have timed := translation.timestamp
    simp only [dateTime, given] at timed
    obtain ⟨millis, parsed, _⟩ := bind_eq_ok.mp timed
    exact ⟨millis, parsed⟩
  delay := ⟨movement.delay, translation.delay⟩

end TrainMovementProducer

end TrainWatch.Movement
