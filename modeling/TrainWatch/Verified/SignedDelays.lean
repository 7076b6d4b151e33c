import TrainWatch.Java.Texts
import TrainWatch.Verified.Steps

/-! # The delay of a translated movement

The variation of a movement message is a number without a sign.  The producer puts a minus
sign in front of it when the train is early, and the constructor of the movement takes zero
when there is none: a variation that is absent and early falls between the two.
-/

namespace TrainWatch.Verified.SignedDelays

open TrainWatch.Java TrainWatch.RefData TrainWatch.Library TrainWatch.Movement
open TrainWatch.Movement.TrainMovementProducer

/-- A message whose numbers are numbers. -/
structure Numeric (body : TrustMovementMessage.Body) : Prop where
  stanox : body.locStanox.isSome
  timestamp : ∀ text, body.actualTimestamp = some text →
    ∃ millis, SignedDecimalText millis text ∧ -2 ^ 63 ≤ millis ∧ millis < 2 ^ 63
  variation : ∀ text, body.timetableVariation = some text → ∃ minutes, DecimalText minutes text ∧
    minutes < 2 ^ 31

def Early (body : TrustMovementMessage.Body) : Prop := body.variationStatus = some "EARLY"

instance (body : TrustMovementMessage.Body) : Decidable (Early body) :=
  inferInstanceAs (Decidable (_ = _))

def signed (body : TrustMovementMessage.Body) (minutes : Nat) : Int :=
  if Early body then -minutes else minutes

/-- The movement says what the message says. -/
structure Carries (body : TrustMovementMessage.Body) (movement : TrainMovement) : Prop where
  trainId : body.trainId = some movement.trainId
  delay : ∀ text minutes, body.timetableVariation = some text → DecimalText minutes text →
    movement.delay = signed body minutes
  noVariation : body.timetableVariation = none → movement.delay = 0
  timestamp : ∀ text millis, body.actualTimestamp = some text → SignedDecimalText millis text →
    movement.timestamp = .ofEpochMilli millis
  arrival : movement.hasArrivedAtDest = true ↔ ∃ text, body.trainTerminated = some text ∧
    ReadsTrue text

/-- The message is sent as one record, and this is all that happens. -/
def Translated (repos : ReferenceRepos) (s : State) (now : LocalDateTime)
    (msg : TrustMovementMessage)
    (body : TrustMovementMessage.Body) : Prop :=
  ∃ record, sendMessage repos s.activations now msg = .ok (.send record) ∧
    s.handle repos now msg = { s with topic := s.topic ++ [record] } ∧ Carries body record.value

/-! ## The text of the delay -/

section Texts

variable {body : TrustMovementMessage.Body} {text : String}

theorem calculateDelay_of_variation (given : body.timetableVariation = some text) :
    calculateDelay body = some (if Early body then "-" ++ text else text) := by
  unfold calculateDelay Early
  split
  · rename_i status
    simp [status, given]
  · rename_i word status
    by_cases early : word = "EARLY"
    · simp [status, early, given, concatOperand]
    · simp [status, early, given]

theorem calculateDelay_of_none (absent : body.timetableVariation = none) :
    calculateDelay body = if Early body then some "-null" else none := by
  unfold calculateDelay Early
  split
  · rename_i status
    simp [status, absent]
  · rename_i word status
    by_cases early : word = "EARLY"
    · simp [status, early, absent, concatOperand]
    · simp [status, early, absent]

theorem parseInt_of_variation (given : body.timetableVariation = some text) {minutes : Nat}
    (decimal : DecimalText minutes text) (fits : minutes < 2 ^ 31) :
    Integer.parseInt (some ((calculateDelay body).getD "0")) = .ok (signed body minutes) := by
  rw [calculateDelay_of_variation given, Option.getD_some, signed]
  split
  · exact parseWithin_of_parseSigned (parseSigned_negated decimal) (by omega)
  · exact parseWithin_of_parseSigned (parseSigned_decimal decimal) (by omega)

theorem parseInt_of_none (absent : body.timetableVariation = none) :
    Integer.parseInt (some ((calculateDelay body).getD "0")) =
      if Early body then .error (.numberFormatException (some "-null")) else .ok 0 := by
  rw [calculateDelay_of_none absent]
  split
  · decide
  · decide

theorem parseLong_of_signed {millis : Int} (decimal : SignedDecimalText millis text)
    (fits : -2 ^ 63 ≤ millis ∧ millis < 2 ^ 63) : Long.parseLong (some text) = .ok millis :=
  parseWithin_of_parseSigned (parseSigned_signed decimal) fits

/-- The translation needs a variation where the train is early, and nothing else. -/
theorem wellFormed_iff (numeric : Numeric body) :
    WellFormed body ↔ ¬ (Early body ∧ body.timetableVariation = none) := by
  constructor
  · rintro wellFormed ⟨early, absent⟩
    obtain ⟨minutes, parsed⟩ := wellFormed.delay
    rw [parseInt_of_none absent, if_pos early] at parsed
    cases parsed
  · intro notBoth
    refine ⟨numeric.stanox, ?_, ?_⟩
    · intro text given
      obtain ⟨millis, decimal, fits⟩ := numeric.timestamp text given
      exact ⟨millis, parseLong_of_signed decimal fits⟩
    · cases given : body.timetableVariation with
      | none =>
        have notEarly : ¬ Early body := fun early => notBoth ⟨early, given⟩
        exact ⟨0, by rw [parseInt_of_none given, if_neg notEarly]⟩
      | some text =>
        obtain ⟨minutes, decimal, fits⟩ := numeric.variation text given
        exact ⟨_, parseInt_of_variation given decimal fits⟩

end Texts

/-! ## What is sent -/

section Sent

variable {repos : ReferenceRepos} {s : State} {now : LocalDateTime} {msg : TrustMovementMessage}
variable {body : TrustMovementMessage.Body} {trainId : String} {activation : TrainActivation}

theorem carries_of_translation (numeric : Numeric body) {schedule : Schedule}
    {movement : TrainMovement}
    (translation : Translation repos now body schedule movement) : Carries body movement where
  trainId := translation.trainId
  delay := by
    intro text minutes given decimal
    obtain ⟨minutes', decimal', fits⟩ := numeric.variation text given
    -- a text is decimal for one number only
    have same : minutes' = minutes := decimal'.value.symm.trans decimal.value
    have parsed := parseInt_of_variation given decimal' fits
    rw [translation.delay, same] at parsed
    exact Except.ok.inj parsed
  noVariation := by
    intro absent
    have parsed := parseInt_of_none absent
    rw [translation.delay] at parsed
    split at parsed
    · cases parsed
    · exact Except.ok.inj parsed
  timestamp := by
    intro text millis given decimal
    obtain ⟨millis', decimal', fits⟩ := numeric.timestamp text given
    have same : millis' = millis :=
      Option.some.inj ((parseSigned_signed decimal').symm.trans (parseSigned_signed decimal))
    have timed := translation.timestamp
    simp only [dateTime, given, parseLong_of_signed decimal' fits, ok_bind, pure_eq_ok,
      same] at timed
    exact (Except.ok.inj timed).symm
  arrival := by
    rw [TrainMovement.hasArrivedAtDest, translation.hasArrived]
    cases body.trainTerminated with
    | none => simp [Boolean.valueOf]
    | some text => simp [valueOf_iff]

/-- A message about an activated train is sent as one record with the signed delay, and no store is
    changed, if and only if it does not say early without a variation and the schedule of the
    activation says whether it is for passengers. -/
theorem movement_is_translated_iff (message : MovementMessage msg trainId body)
    (stored : IMap.get s.activations trainId = some activation) (numeric : Numeric body) :
    Translated repos s now msg body ↔
      ¬ (Early body ∧ body.timetableVariation = none) ∧ activation.schedule.isPassenger.isSome := by
  obtain ⟨kind, hasBody, hasTrain⟩ := message
  rw [← wellFormed_iff numeric]
  constructor
  · rintro ⟨record, sent, _⟩
    obtain silent | ⟨_, stores, _⟩ | ⟨_, same, _, built⟩ := sendMessage_cases sent
    · cases silent
    · cases stores
    · cases same
      obtain ⟨body', activation', hasBody', _, stored', translation⟩ := recordFrom_eq_some.mp built
      cases hasBody.symm.trans hasBody'
      -- the record is about the train of the message
      cases hasTrain.symm.trans translation.trainId
      cases stored.symm.trans stored'
      exact ⟨wellFormed_of_translation translation, by rw [translation.isPassenger]; rfl⟩
  · rintro ⟨wellFormed, flag⟩
    obtain ⟨movement, rfl, translation⟩ : ∃ movement, movement.trainId = trainId ∧
        Translation repos now body activation.schedule movement :=
          exists_translation wellFormed hasTrain now flag
    have built :
        recordFrom repos s.activations now msg = .ok (some ⟨body.trainServiceCode, movement⟩) :=
      recordFrom_eq_some.mpr ⟨body, activation, hasBody, rfl, stored, translation⟩
    exact ⟨_, sendMessage_of_record kind built, State.handle_of_record kind built,
      carries_of_translation numeric translation⟩

end Sent

/-! ## An early train -/

section Sample

open Sample

def activated : State := { State.empty with activations := IMap.set ∅ "871A01MN18" activation }

def earlyBody (variation : Option String) : TrustMovementMessage.Body :=
  { movementBody with variationStatus := some "EARLY", timetableVariation := variation }

def earlyMessage (variation : Option String) : TrustMovementMessage :=
  ⟨some ⟨some "0003"⟩, some (earlyBody variation)⟩

theorem earlyMessage_message (variation : Option String) :
    MovementMessage (earlyMessage variation) "871A01MN18" (earlyBody variation) := ⟨rfl, rfl, rfl⟩

theorem decimalText_timestamp :
    DecimalText 1458297600000 "1458297600000" := decimalText_toString 1458297600000

theorem earlyBody_numeric {variation : Option String}
    (decimal : ∀ text, variation = some text → ∃ minutes, DecimalText minutes text ∧
      minutes < 2 ^ 31) :
    Numeric (earlyBody variation) where
  stanox := rfl
  timestamp := by
    intro text given
    cases given
    exact ⟨1458297600000, .inl ⟨1458297600000, rfl, decimalText_timestamp⟩, by decide, by decide⟩
  variation := decimal

/-- The rule at a variation of five minutes. -/
theorem five_minutes_early :
    ∃ record, activated.handle refData (clock 10 41) (earlyMessage (some "5")) =
      { activated with topic := [record] } ∧ record.value.delay = -5 := by
  have five : DecimalText 5 "5" := decimalText_toString 5
  have numeric : Numeric (earlyBody (some "5")) :=
    earlyBody_numeric fun text given => ⟨5, by cases given; exact five, by decide⟩
  have stored : IMap.get activated.activations "871A01MN18" = some activation := by decide
  obtain ⟨record, _, handled, carries⟩ :
    Translated refData activated (clock 10 41) (earlyMessage (some "5"))
      (earlyBody (some "5")) :=
    (movement_is_translated_iff (earlyMessage_message _) stored numeric).mpr ⟨by decide, rfl⟩
  exact ⟨record, handled, carries.delay "5" 5 rfl five⟩

/-- An early train without a variation: a movement that is dropped. -/
theorem early_without_variation_is_dropped :
    MovementMessage (earlyMessage none) "871A01MN18" (earlyBody none) ∧
      IMap.get activated.activations "871A01MN18" = some activation ∧
        activation.schedule.isPassenger.isSome ∧
      Numeric (earlyBody none) ∧
      sendMessage refData activated.activations (clock 10 41) (earlyMessage none) = .ok .nothing ∧
      ¬ Translated refData activated (clock 10 41) (earlyMessage none) (earlyBody none) := by
  have numeric : Numeric (earlyBody none) := earlyBody_numeric fun text given => by cases given
  have dropped : sendMessage refData activated.activations (clock 10 41) (earlyMessage none) =
      .ok .nothing := by decide
  refine ⟨earlyMessage_message none, by decide, rfl, numeric, dropped, ?_⟩
  rintro ⟨record, sent, _⟩
  cases dropped.symm.trans sent

end Sample

end TrainWatch.Verified.SignedDelays
