import TrainWatch.Verified.Steps

/-! # Which sent records the processor can process

The producer accepts a message whose location is unknown and sends a movement without
one; the processor's first act is to format the movement, which dereferences the location.
Nothing else that can be absent from a sent movement makes the processor throw.
-/

namespace TrainWatch.Verified.PoisonRecords

open TrainWatch.Java TrainWatch.RefData TrainWatch.Library TrainWatch.Movement
open TrainWatch.Movement.TrainMovementProducer TrainWatch.Movement.TrainMovementProcessor

variable {repos : ReferenceRepos} {activationRepo : HzTrainActivationRepo} {now : LocalDateTime}
variable {msg : TrustMovementMessage}

/-- What the producer needs of a movement message to send a record for it. -/
def Accepted (activationRepo : HzTrainActivationRepo) (msg : TrustMovementMessage) : Prop :=
  ∃ body trainId activation, msg.body = some body ∧ body.trainId = some trainId ∧
    IMap.get activationRepo trainId = some activation ∧ WellFormed body ∧
    activation.schedule.isPassenger.isSome

def LocationKnown (repos : ReferenceRepos) (msg : TrustMovementMessage) : Prop :=
  ∃ body location, msg.body = some body ∧
    repos.locationRepo.getByStanox body.locStanox = .ok (some location)

theorem exists_sent_of_accepted (now : LocalDateTime) (kind : msg.isActivation = .ok false)
    (accepted : Accepted activationRepo msg) :
    ∃ body record, msg.body = some body ∧
      sendMessage repos activationRepo now msg = .ok (.send record) ∧
      repos.locationRepo.getByStanox body.locStanox = .ok record.value.currentLocation := by
  obtain ⟨body, trainId, activation, hasBody, hasTrain, stored, wellFormed, flag⟩ := accepted
  obtain ⟨movement, rfl, translation⟩ := exists_translation wellFormed hasTrain now flag
  have built :
      recordFrom repos activationRepo now msg = .ok (some ⟨body.trainServiceCode, movement⟩) :=
    recordFrom_eq_some.mpr ⟨body, activation, hasBody, rfl, stored, translation⟩
  exact ⟨body, _, hasBody, sendMessage_of_record kind built, translation.currentLocation⟩

theorem accepted_of_sent {record : Record}
    (sent : sendMessage repos activationRepo now msg = .ok (.send record)) :
    Accepted activationRepo msg ∧ ∃ body, msg.body = some body ∧
      repos.locationRepo.getByStanox body.locStanox = .ok record.value.currentLocation := by
  cases sendMessage_cases sent with
  | inl silent => cases silent
  | inr acted =>
    obtain ⟨_, stores, _⟩ | ⟨_, same, _, built⟩ := acted
    · cases stores
    · cases same
      obtain ⟨body, activation, hasBody, _, stored, translation⟩ := recordFrom_eq_some.mp built
      have flag : activation.schedule.isPassenger.isSome := by rw [translation.isPassenger]; rfl
      have wellFormed := wellFormed_of_translation translation
      exact ⟨⟨body, _, activation, hasBody, translation.trainId, stored, wellFormed, flag⟩,
        body, hasBody, translation.currentLocation⟩

/-- Every record the producer sends for a movement message is processed, with all its repository
    calls, if and only if the message's location is known or the producer does not accept it. -/
theorem sent_records_are_processed_iff (kind : msg.isActivation = .ok false) :
    (∀ record, sendMessage repos activationRepo now msg = .ok (.send record) →
      process record.value = .ok (repoCalls record.value)) ↔
    (Accepted activationRepo msg → LocationKnown repos msg) := by
  constructor
  · intro processed accepted
    obtain ⟨body, record, hasBody, sent, located⟩ := exists_sent_of_accepted now kind accepted
    obtain ⟨known, _⟩ := process_eq_ok.mp (processed record sent)
    obtain ⟨location, found⟩ := Option.isSome_iff_exists.mp known
    exact ⟨body, location, hasBody, by rw [located, found]⟩
  · intro known record sent
    obtain ⟨accepted, body, hasBody, located⟩ := accepted_of_sent sent
    obtain ⟨_, location, hasBody', found⟩ := known accepted
    cases hasBody.symm.trans hasBody'
    have located' : record.value.currentLocation = some location := by
      rw [located] at found
      exact Except.ok.inj found
    exact process_eq_ok.mpr ⟨by rw [located']; rfl, rfl⟩

/-! ## The sample movement, at a known and at an unknown location -/

open Sample

/-- The rule at a movement reported from Victoria. -/
theorem located_movement_is_processed :
    sendMessage refData (IMap.set ∅ activation.trainId activation) (clock 10 41) movementMessage =
        .ok (.send record) ∧
      process record.value = .ok (repoCalls record.value) := by
  have known : LocationKnown refData movementMessage := ⟨movementBody, victoria, rfl, by decide⟩
  have sent : sendMessage refData (IMap.set ∅ activation.trainId activation) (clock 10 41)
      movementMessage = .ok (.send record) := by decide
  exact ⟨sent, (sent_records_are_processed_iff rfl).mpr (fun _ => known) record sent⟩

def unlocatedMessage : TrustMovementMessage :=
  ⟨some ⟨some "0003"⟩, some { movementBody with locStanox := some "99999" }⟩

/-- The producer sends the movement; on its record the processor throws. -/
theorem unlocated_movement_is_poison :
    unlocatedMessage.isActivation = .ok false ∧
      sendMessage refData (IMap.set ∅ activation.trainId activation)
        (clock 10 41) unlocatedMessage =
        .ok (.send ⟨some "24745000", { movement with currentLocation := none }⟩) ∧
      process { movement with currentLocation := none } = .error .nullPointerException := by
  decide

end TrainWatch.Verified.PoisonRecords
