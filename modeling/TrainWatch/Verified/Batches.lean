import TrainWatch.Verified.Steps

/-! # One bad message in a batch

The movement branch of `sendMessage` catches its exceptions, the activation branch and
the test that selects the branch do not: what they throw ends the loop over the batch.
Whether a message throws does not depend on the stores' contents or on the clock, so the
batch can be compared with the one that lacks the throwing messages.
-/

namespace TrainWatch.Verified.Batches

open TrainWatch.Java TrainWatch.RefData TrainWatch.Library TrainWatch.Movement
open TrainWatch.Movement.TrainMovementProducer

/-- A null header or type; an activation message without a body, or without a train id when the
    schedule is found. -/
def throws (repos : ReferenceRepos) (msg : TrustMovementMessage) : Bool :=
  match msg.isActivation with
  | .error _ => true
  | .ok false => false
  | .ok true =>
    match lookupSchedule repos msg with
    | .error _ => true
    | .ok none => false
    | .ok (some _) => (msg.body.bind (·.trainId)).isNone

def activatedSchedule (repos : ReferenceRepos) (trainId : String) (msg : TrustMovementMessage) :
    Option Schedule :=
  if msg.isActivation = .ok true ∧ msg.body.bind (·.trainId) = some trainId then
    (lookupSchedule repos msg).toOption.join
  else none

/-- The schedule of the train's activation after the messages: that of the last of them that
    activates the train, or else of the stored one. -/
def latestSchedule (repos : ReferenceRepos) (s : State) (msgs : List TrustMovementMessage)
    (trainId : String) : Option Schedule :=
  (msgs.reverse.findSome? (activatedSchedule repos trainId)).or
    ((IMap.get s.activations trainId).map (·.schedule))

/-- After the messages `earlier`, `msg` stores an activation or sends a movement. -/
def TakesEffect (repos : ReferenceRepos) (s : State) (earlier : List TrustMovementMessage)
    (msg : TrustMovementMessage) : Prop :=
  (∃ trainId schedule, Activates repos msg trainId schedule) ∨
  (∃ trainId body schedule, MovementMessage msg trainId body ∧ WellFormed body ∧
    latestSchedule repos s earlier trainId = some schedule ∧ schedule.isPassenger.isSome)

section

variable {repos : ReferenceRepos} {s : State}

theorem activatedSchedule_eq_some {trainId : String} {msg : TrustMovementMessage}
    {schedule : Schedule} :
    activatedSchedule repos trainId msg = some schedule ↔ Activates repos msg trainId schedule := by
  unfold activatedSchedule Activates
  split
  · rename_i activates
    obtain ⟨kind, train⟩ := activates
    obtain ⟨body, hasBody, hasTrain⟩ := Option.bind_eq_some_iff.mp train
    cases lookup : lookupSchedule repos msg with
    | ok found => cases found <;> simp_all [Except.toOption]
    | error thrown => simp [Except.toOption]
  · rename_i other
    constructor
    · intro impossible
      cases impossible
    · rintro ⟨kind, body, hasBody, hasTrain, _⟩
      exact absurd ⟨kind, by rw [hasBody]; exact hasTrain⟩ other

/-- A message throws in every state of the stores and at every reading of the clock, or in none. -/
theorem sendMessage_throws_iff {activationRepo : HzTrainActivationRepo} {now : LocalDateTime}
    {msg : TrustMovementMessage} :
    (∃ thrown, sendMessage repos activationRepo now msg = .error thrown) ↔
    throws repos msg = true := by
  unfold sendMessage throws
  cases kind : msg.isActivation with
  | error thrown => simp
  | ok isActivation =>
    cases isActivation with
    | false =>
      simp only [ok_bind, Bool.false_eq_true, if_false]
      cases recordFrom repos activationRepo now msg with
      | ok built => cases built <;> simp
      | error thrown => simp
    | true =>
      simp only [ok_bind, if_true]
      cases lookup : lookupSchedule repos msg with
      | error thrown => simp
      | ok found =>
        cases found with
        | none => simp
        | some schedule =>
          obtain ⟨body, hasBody, _⟩ := bind_eq_ok.mp lookup
          rw [nonNull_eq_ok.mp hasBody]
          cases hasTrain : body.trainId <;> simp [hasTrain]

theorem map_snd_map (reading : LocalDateTime) (msgs : List TrustMovementMessage) :
    (msgs.map (reading, ·)).map Prod.snd = msgs := by
  simp [Function.comp_def]

/-- Every message handled on its own, whatever it throws. -/
def handleEach (repos : ReferenceRepos) (s : State)
    (batch : List (LocalDateTime × TrustMovementMessage)) : State :=
  batch.foldl (fun s m => s.handle repos m.1 m.2) s

theorem handleEach_append (s : State) (first second : List (LocalDateTime × TrustMovementMessage)) :
    handleEach repos s (first ++ second) = handleEach repos (handleEach repos s first) second :=
  List.foldl_append

theorem handle_of_throws {now : LocalDateTime} {msg : TrustMovementMessage}
    (bad : throws repos msg = true) :
    s.handle repos now msg = s := by
  obtain ⟨thrown, sent⟩ := sendMessage_throws_iff.mpr bad
  rw [State.handle, sent]

theorem produceMessages_cons_of_throws {now : LocalDateTime} {msg : TrustMovementMessage}
    (bad : throws repos msg = true) (rest : List (LocalDateTime × TrustMovementMessage)) :
    s.produceMessages repos ((now, msg) :: rest) = s := by
  obtain ⟨thrown, sent⟩ := sendMessage_throws_iff.mpr bad
  rw [State.produceMessages, sent]

theorem produceMessages_cons {now : LocalDateTime} {msg : TrustMovementMessage}
    (good : throws repos msg = false) (rest : List (LocalDateTime × TrustMovementMessage)) :
    s.produceMessages repos ((now, msg) :: rest) =
      (s.handle repos now msg).produceMessages repos rest := by
  cases sent : sendMessage repos s.activations now msg with
  | ok effect => simp only [State.produceMessages, State.handle, sent]
  | error thrown =>
    have bad := sendMessage_throws_iff.mp ⟨thrown, sent⟩
    rw [good] at bad
    cases bad

theorem produceMessages_append {good : List (LocalDateTime × TrustMovementMessage)}
    (noneThrows : ∀ m ∈ good, throws repos m.2 = false)
    (rest : List (LocalDateTime × TrustMovementMessage)) :
    s.produceMessages repos (good ++ rest) =
      (handleEach repos s good).produceMessages repos rest := by
  induction good generalizing s with
  | nil => rfl
  | cons m good inductionHypothesis =>
    rw [List.cons_append, produceMessages_cons (noneThrows m List.mem_cons_self),
      inductionHypothesis fun other member => noneThrows other (List.mem_cons_of_mem _ member)]
    rfl

/-- Without the messages that throw, the batch is every message handled on its own. -/
theorem produceMessages_filter (batch : List (LocalDateTime × TrustMovementMessage)) :
    s.produceMessages repos
      (batch.filter fun m => !throws repos m.2) = handleEach repos s batch := by
  induction batch generalizing s with
  | nil => rfl
  | cons m batch inductionHypothesis =>
    cases bad : throws repos m.2 with
    | true =>
      rw [List.filter_cons_of_neg (by simp [bad]), inductionHypothesis]
      simp only [handleEach, List.foldl_cons, handle_of_throws bad]
    | false =>
      rw [List.filter_cons_of_pos (by simp [bad]), produceMessages_cons bad, inductionHypothesis]
      rfl

theorem handleEach_concat (s : State) (batch : List (LocalDateTime × TrustMovementMessage))
    (m : LocalDateTime × TrustMovementMessage) :
    handleEach repos s (batch ++ [m]) = (handleEach repos s batch).handle repos m.1 m.2 :=
  handleEach_append s batch [m]

theorem schedule_after_handle (now : LocalDateTime) (msg : TrustMovementMessage)
    (trainId : String) :
    (IMap.get (s.handle repos now msg).activations trainId).map (·.schedule) =
      (activatedSchedule repos trainId msg).or
        ((IMap.get s.activations trainId).map (·.schedule)) := by
  cases found : activatedSchedule repos trainId msg with
  | some schedule =>
    obtain ⟨body, _, handled⟩ :=
      State.handle_of_activates s now (activatedSchedule_eq_some.mp found)
    rw [handled]
    simp [HzTrainActivationRepo.put]
  | none =>
    obtain unchanged | ⟨activation, stored, _, activates, _⟩ | ⟨record, sent, _⟩ :=
      s.handle_cases repos now msg
    · simp [unchanged]
    · have different : trainId ≠ activation.trainId := by
        intro same
        have finds := activatedSchedule_eq_some.mpr activates
        rw [← same, found] at finds
        cases finds
      simp [stored, HzTrainActivationRepo.put, IMap.get_set_of_ne _ _ different]
    · simp [sent]

theorem schedule_after_batch (repos : ReferenceRepos) (s : State)
    (batch : List (LocalDateTime × TrustMovementMessage)) (trainId : String) :
    (IMap.get (handleEach repos s batch).activations trainId).map (·.schedule) =
      latestSchedule repos s (batch.map Prod.snd) trainId := by
  induction batch using List.reverseRecOn with
  | nil => simp [latestSchedule, handleEach]
  | append_singleton batch m inductionHypothesis =>
    rw [handleEach_concat, schedule_after_handle, inductionHypothesis]
    cases found : activatedSchedule repos trainId m.2 with
    | some schedule => simp [latestSchedule, found]
    | none => simp [latestSchedule, found]

theorem handle_of_noEffect {earlier : List (LocalDateTime × TrustMovementMessage)}
    {now : LocalDateTime}
    {msg : TrustMovementMessage} (noEffect : ¬ TakesEffect repos s (earlier.map Prod.snd) msg) :
    (handleEach repos s earlier).handle repos now msg = handleEach repos s earlier := by
  obtain unchanged | ⟨activation, _, _, activates, _⟩ | ⟨record, _, kind, built⟩ :=
    (handleEach repos s earlier).handle_cases repos now msg
  · exact unchanged
  · exact absurd (.inl ⟨_, _, activates⟩) noEffect
  · obtain ⟨body, activation, hasBody, _, stored, translation⟩ := recordFrom_eq_some.mp built
    have schedule := schedule_after_batch repos s earlier record.value.trainId
    rw [stored, Option.map_some] at schedule
    have flag : activation.schedule.isPassenger.isSome := by rw [translation.isPassenger]; rfl
    exact absurd (.inr ⟨_, body, _, ⟨kind, hasBody, translation.trainId⟩,
      wellFormed_of_translation translation, schedule.symm, flag⟩) noEffect

/-! ## What an effect leaves behind -/

theorem topic_length_handle (repos : ReferenceRepos) (s : State) (now : LocalDateTime)
    (msg : TrustMovementMessage) :
    s.topic.length ≤ (s.handle repos now msg).topic.length := by
  obtain unchanged | ⟨activation, stored, _⟩ | ⟨record, sent, _⟩ := s.handle_cases repos now msg
  · rw [unchanged]
  · rw [stored]
  · simp [sent]

theorem topic_length_handleEach (repos : ReferenceRepos) (s : State)
    (batch : List (LocalDateTime × TrustMovementMessage)) :
    s.topic.length ≤ (handleEach repos s batch).topic.length := by
  induction batch generalizing s with
  | nil => exact Nat.le_refl _
  | cons m batch inductionHypothesis =>
    have first := topic_length_handle repos s m.1 m.2
    exact Nat.le_trans first (inductionHypothesis _)

def StoredAt (reading : LocalDateTime) (trainId : String) (s : State) : Prop :=
  ∃ activation, IMap.get s.activations trainId = some activation ∧ activation.timestamp = reading

theorem storedAt_handleEach {reading : LocalDateTime} {trainId : String}
    (stored : StoredAt reading trainId s)
    (msgs : List TrustMovementMessage) :
    StoredAt reading trainId (handleEach repos s (msgs.map (reading, ·))) := by
  induction msgs generalizing s with
  | nil => exact stored
  | cons msg msgs inductionHypothesis =>
    have first : StoredAt reading trainId (s.handle repos reading msg) := by
      obtain unchanged | ⟨activation, replaced, timestamp, _⟩ | ⟨record, sent, _⟩ :=
        s.handle_cases repos reading msg
      · rw [unchanged]; exact stored
      · rw [replaced]
        by_cases same : trainId = activation.trainId
        · exact ⟨activation, by rw [same]; exact IMap.get_set_self _ _ _, timestamp⟩
        · obtain ⟨older, found, olderTimestamp⟩ := stored
          exact ⟨older, (IMap.get_set_of_ne _ _ same).trans found, olderTimestamp⟩
      · rw [sent]; exact stored
    exact inductionHypothesis first

theorem exists_reading (s : State) (trainId : String) :
    ∃ reading, ¬ StoredAt reading trainId s := by
  cases found : IMap.get s.activations trainId with
  | none => exact ⟨⟨0⟩, fun stored => by simp [StoredAt, found] at stored⟩
  | some activation =>
    refine ⟨⟨activation.timestamp.epochMilli + 1⟩, ?_⟩
    rintro ⟨other, same, timestamp⟩
    cases found.symm.trans same
    have equal := congrArg LocalDateTime.epochMilli timestamp
    simp at equal

theorem topic_length_handle_of_movement (repos : ReferenceRepos) (now : LocalDateTime)
    {msg : TrustMovementMessage} {trainId : String}
    {body : TrustMovementMessage.Body} {activation : TrainActivation}
    (message : MovementMessage msg trainId body) (wellFormed : WellFormed body)
    (stored : IMap.get s.activations trainId = some activation)
    (flag : activation.schedule.isPassenger.isSome) :
    s.topic.length < (s.handle repos now msg).topic.length := by
  obtain ⟨kind, hasBody, hasTrain⟩ := message
  obtain ⟨movement, rfl, translation⟩ : ∃ movement, movement.trainId = trainId ∧
      Translation repos now body activation.schedule movement :=
    exists_translation wellFormed hasTrain now flag
  have built :
      recordFrom repos s.activations now msg = .ok (some ⟨body.trainServiceCode, movement⟩) :=
    recordFrom_eq_some.mpr ⟨body, activation, hasBody, rfl, stored, translation⟩
  simp [State.handle_of_record kind built]

/-- Where a message takes effect, there is a reading of the clock at which the messages from
    somewhere before it on change the state. -/
theorem exists_changed (repos : ReferenceRepos) (s : State)
    (earlier : List (LocalDateTime × TrustMovementMessage))
    (between : List TrustMovementMessage) {msg : TrustMovementMessage}
    (later : List TrustMovementMessage)
    (effect : TakesEffect repos s (earlier.map Prod.snd ++ between) msg) :
    ∃ reading, handleEach repos s (earlier ++ (between ++ msg :: later).map (reading, ·)) ≠
      handleEach repos s earlier := by
  have split :
      ∀ reading, handleEach repos s (earlier ++ (between ++ msg :: later).map (reading, ·)) =
      handleEach repos ((handleEach repos s (earlier ++ between.map (reading, ·))).handle repos
        reading msg)
        (later.map (reading, ·)) := by
    intro reading
    rw [List.map_append, List.map_cons, ← List.append_assoc, handleEach_append]
    rfl
  cases effect with
  | inl activation =>
    -- at a fresh reading, the activation stored is another than the one there was
    obtain ⟨trainId, schedule, activates⟩ := activation
    obtain ⟨reading, fresh⟩ := exists_reading (handleEach repos s earlier) trainId
    refine ⟨reading, fun unchanged => fresh ?_⟩
    rw [← unchanged, split]
    apply storedAt_handleEach
    obtain ⟨body, _, handled⟩ := State.handle_of_activates
      (handleEach repos s (earlier ++ between.map (reading, ·))) reading activates
    rw [handled]
    exact ⟨_, IMap.get_set_self _ _ _, rfl⟩
  | inr movement =>
    obtain ⟨trainId, body, schedule, message, wellFormed, latest, flag⟩ := movement
    refine ⟨⟨0⟩, fun unchanged => ?_⟩
    have stored := schedule_after_batch repos s (earlier ++ between.map (⟨0⟩, ·)) trainId
    rw [List.map_append, map_snd_map, latest] at stored
    obtain ⟨activation, found, rfl⟩ := Option.map_eq_some_iff.mp stored
    have grows := topic_length_handle_of_movement repos ⟨0⟩ message wellFormed found flag
    have before := topic_length_handleEach repos (handleEach repos s earlier) (between.map (⟨0⟩, ·))
    have after := topic_length_handleEach repos
      ((handleEach repos s (earlier ++ between.map (⟨0⟩, ·))).handle repos ⟨0⟩ msg)
        (later.map (⟨0⟩, ·))
    rw [← split, unchanged] at after
    rw [← handleEach_append] at before
    omega

/-! ## The batch -/

theorem handleEach_of_noEffect {earlier batch : List (LocalDateTime × TrustMovementMessage)}
    (noEffect : ∀ between m later, batch = between ++ m :: later →
      ¬ TakesEffect repos s ((earlier ++ between).map Prod.snd) m.2) :
    handleEach repos s (earlier ++ batch) = handleEach repos s earlier := by
  induction batch using List.reverseRecOn with
  | nil => rw [List.append_nil]
  | append_singleton batch m inductionHypothesis =>
    have unchanged := inductionHypothesis fun between other later split =>
      noEffect between other (later ++ [m]) (by simp [split])
    rw [← List.append_assoc, handleEach_concat, handle_of_noEffect (noEffect batch m [] rfl),
      unchanged]

/-- Whatever the clock reads, a batch leaves the stores and the topic as it does without the
    messages that throw, if and only if no message that throws stands before one that takes effect.
    -/
theorem batch_unharmed_iff (repos : ReferenceRepos) (s : State) (msgs : List TrustMovementMessage) :
    (∀ batch : List (LocalDateTime × TrustMovementMessage), batch.map Prod.snd = msgs →
      s.produceMessages repos batch =
        s.produceMessages repos (batch.filter fun m => !throws repos m.2)) ↔
    (∀ earlier msg later, msgs = earlier ++ msg :: later → TakesEffect repos s earlier msg →
      ∀ bad ∈ earlier, throws repos bad = false) := by
  constructor
  · intro unharmed earlier msg later split effect
    cases found : earlier.find? (throws repos) with
    | none => exact fun bad member => by simpa using List.find?_eq_none.mp found bad member
    | some first =>
      obtain ⟨isBad, good, between, rfl, noneThrows⟩ := List.find?_eq_some_iff_append.mp found
      -- all messages from the first throwing one on are read at a clock that shows the effect
      obtain ⟨reading, changed⟩ := exists_changed repos s (good.map (⟨0⟩, ·))
        (first :: between) later (by rwa [map_snd_map])
      have same :=
        unharmed (good.map (⟨0⟩, ·) ++ (first :: between ++ msg :: later).map (reading, ·))
          (by rw [List.map_append, map_snd_map, map_snd_map, split, List.append_assoc])
      have goodMapped : ∀ m ∈ good.map (Prod.mk (⟨0⟩ : LocalDateTime)),
          throws repos m.2 = false := by
        intro m member
        obtain ⟨other, inGood, rfl⟩ := List.mem_map.mp member
        simpa using noneThrows other inGood
      rw [produceMessages_filter, produceMessages_append goodMapped, List.cons_append,
        List.map_cons,
        produceMessages_cons_of_throws isBad] at same
      exact absurd same.symm changed
  · intro noEffectAfter batch same
    rw [produceMessages_filter]
    cases found : batch.find? (fun m => throws repos m.2) with
    | none =>
      have noneThrows : ∀ m ∈ batch, throws repos m.2 = false :=
        fun m member => by simpa using List.find?_eq_none.mp found m member
      have all := produceMessages_append (s := s) noneThrows []
      rwa [List.append_nil] at all
    | some first =>
      -- the loop ends at the first message that throws, and what it misses takes no effect
      obtain ⟨isBad, good, later, rfl, noneThrows⟩ := List.find?_eq_some_iff_append.mp found
      have noneThrows' : ∀ m ∈ good, throws repos m.2 = false := fun m member => by
        simpa using noneThrows m member
      have stopped :
          s.produceMessages repos (good ++ first :: later) = handleEach repos s good := by
        rw [produceMessages_append noneThrows', produceMessages_cons_of_throws isBad]
      have idle : handleEach repos s (good ++ [first]) = handleEach repos s good := by
        rw [handleEach_concat, handle_of_throws isBad]
      have rest :
          handleEach repos s ((good ++ [first]) ++ later) = handleEach repos s
          (good ++ [first]) := by
        refine handleEach_of_noEffect fun between m after split effect => ?_
        have clear := noEffectAfter _ m.2 (after.map Prod.snd) (by rw [← same, split]; simp) effect
          first.2 (by simp)
        rw [isBad] at clear
        cases clear
      rw [stopped, ← idle, ← rest, List.append_assoc]
      rfl

end

/-! ## The sample activation behind a message without a type -/

open Sample

def untyped : TrustMovementMessage := ⟨some ⟨none⟩, some emptyBody⟩

def sampleBatch : List (LocalDateTime × TrustMovementMessage) :=
  [(clock 9 0, untyped), (clock 9 0, activationMessage)]

/-- The message throws, the activation after it is not stored; without the message it would be. -/
theorem activation_lost_behind_untyped :
    throws refData untyped = true ∧
      (State.empty.produceMessages refData sampleBatch).activations = ∅ ∧
      IMap.get (State.empty.produceMessages refData
        (sampleBatch.filter fun m => !throws refData m.2)).activations "871A01MN18" =
          some activation := by
  decide

end TrainWatch.Verified.Batches
