import TrainWatch.Verified.Termination

/-! # What takes a newly stored activation

The processor deletes the activation of a terminated train by its train id, whenever it
gets to the record.  So an activation stored in the meantime falls to the termination of
the train's previous run, and one stored after that record was processed stays.
-/

namespace TrainWatch.Verified.Reactivation

open TrainWatch.Java TrainWatch.RefData TrainWatch.Library TrainWatch.Movement
open TrainWatch.Movement.TrainMovementProducer TrainWatch.Verified.Termination

variable {repos : ReferenceRepos} {trainId : String} {offset : Nat} {terminated : Record}

/-! ## The records that are completed -/

/-- A record of the train that ends its run. -/
def Terminates (trainId : String) (record : Record) : Prop :=
  record.value.trainId = trainId ∧ record.value.hasArrivedAtDest = true

/-- A terminated record of the train has been processed in `last`, and had not been in `first`. -/
def Completed (trainId : String) (first last : Threads) : Prop :=
  ∃ offset record, last.topic[offset]? = some record ∧ Terminates trainId record ∧
    last.Processed offset ∧ ¬ first.Processed offset

/-- What is left of the processor's calls are the last ones for the record that it has taken. -/
structure Busy (t : Threads) : Prop where
  bounded : t.position ≤ t.topic.length
  calls : t.calls ≠ [] → ∃ offset record, t.position = offset + 1 ∧ t.topic[offset]? = some record ∧
    t.calls <:+ TrainMovementProcessor.repoCalls record.value

theorem busy_step {t t' : Threads} {action : ThreadAction} (busy : Busy t)
    (stepped : t.step repos action = some t') : Busy t' := by
  refine ⟨Threads.position_le_step busy.bounded stepped, fun working => ?_⟩
  have kept : t'.position = t.position → t'.calls <:+ t.calls → t.calls ≠ [] → ∃ offset record,
      t'.position = offset + 1 ∧ t'.topic[offset]? = some record ∧
        t'.calls <:+ TrainMovementProcessor.repoCalls record.value := by
    intro position fewer before
    obtain ⟨offset, record, taken, here, rest⟩ := busy.calls before
    have inTopic := (List.getElem?_eq_some_iff.mp here).1
    exact ⟨offset, record, position.trans taken,
      (Threads.getElem?_topic_step inTopic stepped).trans here, fewer.trans rest⟩
  cases action with
  | handle now msg =>
    obtain ⟨position, calls⟩ := Threads.processor_of_handle stepped
    exact kept position (calls ▸ List.suffix_refl _) (calls ▸ working)
  | perform =>
    obtain ⟨position, calls⟩ := Threads.processor_of_perform stepped
    exact kept position (calls ▸ List.suffix_refl _) (calls ▸ working)
  | take record =>
    obtain ⟨_, next, _, rfl⟩ := Threads.step_take stepped
    exact ⟨t.position, record, rfl, next, List.suffix_refl _⟩
  | call call =>
    obtain ⟨calls, remaining, rfl⟩ := Threads.step_call stepped
    exact kept rfl (remaining ▸ List.suffix_cons _ _) (by simp [remaining])

theorem busy_run {trace : List ThreadAction} {t : Threads}
    (reached : run (Threads.step repos) (.atRest .empty) trace = some t) : Busy t :=
  run_invariant Busy (fun _ _ _ _ => busy_step)
    ⟨Nat.le_refl 0, fun working => absurd rfl working⟩ reached

/-- The delete of an activation is the last call for a terminated record of its train. -/
theorem eq_delete_iff {tm : TrainMovement} {call : RepoCall} {calls : List RepoCall}
    (left : call :: calls <:+ TrainMovementProcessor.repoCalls tm) :
    call = .activationDelete trainId ↔ (tm.trainId = trainId ∧ tm.hasArrivedAtDest = true) ∧
      calls = [] := by
  cases arrived : tm.hasArrivedAtDest with
  | true =>
    simp only [TrainMovementProcessor.repoCalls, arrived, if_true,
      TrainMovementProcessor.deleteArriveTrain,
      List.suffix_cons_iff, List.cons.injEq, List.suffix_nil, reduceCtorEq, or_false] at left
    obtain ⟨rfl, rfl⟩ | ⟨rfl, rfl⟩ := left
    · simp
    · simp
  | false =>
    simp only [TrainMovementProcessor.repoCalls, arrived, Bool.false_eq_true, if_false,
      List.suffix_cons_iff,
      List.cons.injEq, List.suffix_nil, reduceCtorEq, or_false] at left
    simp [left.1]

/-- A step deletes the train's activation exactly if it completes a terminated record of the train.
    -/
theorem eq_delete_iff_completed {t t' : Threads} {action : ThreadAction} (busy : Busy t)
    (stepped : t.step repos action = some t') :
    action = .call (.activationDelete trainId) ↔ Completed trainId t t' := by
  have nothing : t'.position = t.position → t'.calls = t.calls → ¬ Completed trainId t t' := by
    rintro position calls ⟨offset, _, _, _, processed, unprocessed⟩
    rw [Threads.Processed, position, calls] at processed
    exact unprocessed processed
  cases action with
  | handle now msg =>
    obtain ⟨position, calls⟩ := Threads.processor_of_handle stepped
    simp [nothing position calls]
  | perform =>
    obtain ⟨position, calls⟩ := Threads.processor_of_perform stepped
    simp [nothing position calls]
  | take record =>
    obtain ⟨idle, _, _, rfl⟩ := Threads.step_take stepped
    -- the record taken has calls to be made, and those before it were processed
    have waiting : TrainMovementProcessor.repoCalls record.value ≠ [] := by
      unfold TrainMovementProcessor.repoCalls TrainMovementProcessor.deleteArriveTrain
      split <;> simp
    simp only [reduceCtorEq, false_iff]
    rintro ⟨offset, _, _, _, ⟨past, done⟩, unprocessed⟩
    have different : t.position ≠ offset := fun same => waiting (done (congrArg Nat.succ same))
    have before : offset < t.position := by
      have bound : offset < t.position + 1 := past
      omega
    exact unprocessed ⟨before, fun _ => idle⟩
  | call call =>
    obtain ⟨calls, remaining, rfl⟩ := Threads.step_call stepped
    obtain ⟨offset, record, position, here, left⟩ := busy.calls (by simp [remaining])
    rw [remaining] at left
    rw [ThreadAction.call.injEq, eq_delete_iff left]
    constructor
    · rintro ⟨terminates, rfl⟩
      have processed : Threads.Processed { t with calls := [] } offset :=
        ⟨by simp [position], fun _ => rfl⟩
      have unprocessed : ¬ t.Processed offset := by
        intro before
        rw [before.2 position] at remaining
        cases remaining
      exact ⟨offset, record, here, terminates, processed, unprocessed⟩
    · rintro ⟨other, found, here', terminates, ⟨past, done⟩, unprocessed⟩
      -- only the record at work can be completed
      have atWork : t.position = other + 1 := by
        by_contra elsewhere
        exact unprocessed ⟨past, fun same => absurd same elsewhere⟩
      obtain rfl : other = offset := Nat.succ.inj (atWork.symm.trans position)
      cases here.symm.trans here'
      exact ⟨terminates, done atWork⟩

theorem delete_mem_iff_completed {trace : List ThreadAction} {start t : Threads} (busy : Busy start)
    (reached : run (Threads.step repos) start trace = some t) :
    .call (.activationDelete trainId) ∈ trace ↔ Completed trainId start t := by
  have invariant : Busy t ∧ (∀ offset, start.Processed offset → t.Processed offset) ∧
      (.call (.activationDelete trainId) ∈ trace ↔ Completed trainId start t) := by
    refine run_history (fun history u => Busy u ∧
      (∀ offset, start.Processed offset → u.Processed offset) ∧
      (.call (.activationDelete trainId) ∈ history ↔ Completed trainId start u))
      ⟨busy, fun _ => id, ?_⟩ ?_ reached
    · simp [Completed]
    rintro history action u u' _ _ ⟨busy, grows, deleted⟩ stepped
    refine ⟨busy_step busy stepped, fun offset before =>
      Threads.processed_step (grows offset before) stepped, ?_⟩
    rw [List.mem_append, deleted, List.mem_singleton, eq_comm, eq_delete_iff_completed busy stepped]
    -- records processed before stay where they are on the topic
    have same : ∀ {offset}, u.Processed offset → u'.topic[offset]? = u.topic[offset]? :=
      fun processed => Threads.getElem?_topic_step (processed.1.trans_le busy.bounded) stepped
    constructor
    · rintro (⟨offset, record, here, terminates, processed, unprocessed⟩ |
        ⟨offset, record, here, terminates, processed, unprocessed⟩)
      · exact ⟨offset, record, (same processed).trans here, terminates,
          Threads.processed_step processed stepped, unprocessed⟩
      · exact ⟨offset, record, here, terminates, processed, fun before =>
          unprocessed (grows offset before)⟩
    · rintro ⟨offset, record, here, terminates, processed, unprocessed⟩
      by_cases earlier : u.Processed offset
      · exact .inl ⟨offset, record, (same earlier).symm.trans here, terminates, earlier,
          unprocessed⟩
      · exact .inr ⟨offset, record, here, terminates, processed, earlier⟩
  exact invariant.2.2

/-! ## The activation -/

/-- The stored activation, until a delete of the train's activation is in the history. -/
structure Kept (trainId : String) (activation : TrainActivation) (history : List ThreadAction)
    (t : Threads) : Prop where
  stored : IMap.get t.activations trainId =
    if .call (.activationDelete trainId) ∈ history then none else some activation
  effect : ∀ other, t.effect = some (.putActivation other) → other.trainId ≠ trainId

theorem kept_step {activation : TrainActivation} {history : List ThreadAction} {t t' : Threads}
    {action : ThreadAction} (kept : Kept trainId activation history t)
    (other : ∀ now msg schedule, action = .handle now msg → ¬ Activates repos msg trainId schedule)
    (stepped : t.step repos action = some t') :
    Kept trainId activation (history ++ [action]) t' := by
  have stored := kept.stored
  cases action with
  | handle now msg =>
    obtain ⟨_, rfl | ⟨effect, handled, rfl⟩⟩ := Threads.step_handle stepped
    · exact ⟨by simpa using stored, kept.effect⟩
    · refine ⟨by simpa using stored, fun next decided => ?_⟩
      -- the effect decided now is performed later; it is not a put for this train
      cases decided
      obtain impossible | ⟨_, same, _, activates, _⟩ | ⟨_, impossible, _⟩ :=
        sendMessage_cases handled
      · cases impossible
      · cases same
        intro own
        exact other now msg next.schedule rfl (own ▸ activates)
      · cases impossible
  | perform =>
    obtain ⟨effect, decided, rfl⟩ := Threads.step_perform stepped
    have idle : ∀ next, (none : Option Effect) = some (.putActivation next) →
        next.trainId ≠ trainId := by
      intro next impossible
      cases impossible
    cases effect with
    | nothing => exact ⟨by simpa [State.perform] using stored, idle⟩
    | send record => exact ⟨by simpa [State.perform] using stored, idle⟩
    | putActivation next =>
      have different : trainId ≠ next.trainId := Ne.symm (kept.effect next decided)
      refine ⟨?_, idle⟩
      simp only [State.perform, HzTrainActivationRepo.put, IMap.get_set_of_ne _ _ different]
      simpa using stored
  | take record =>
    obtain ⟨_, _, _, rfl⟩ := Threads.step_take stepped
    exact ⟨by simpa using stored, kept.effect⟩
  | call call =>
    obtain ⟨_, _, rfl⟩ := Threads.step_call stepped
    refine ⟨?_, kept.effect⟩
    cases call with
    | movementPut tm => simpa [RepoCall.perform] using stored
    | movementDelete tm => simpa [RepoCall.perform] using stored
    | activationDelete deleted =>
      by_cases same : deleted = trainId
      · simp [RepoCall.perform, HzTrainActivationRepo.delete, same]
      · have different : trainId ≠ deleted := Ne.symm same
        simp only [RepoCall.perform, HzTrainActivationRepo.delete,
          IMap.get_delete_of_ne _ different]
        simpa [different] using stored

/-- An activation of a train, stored by a message handled after the one that produced a terminated
    movement of the train and not replaced since, is still there once that movement has been
    processed if and only if every terminated record of the train that has been processed by then
    had been processed when it was stored; and one stored before the processing of that movement
    was complete is gone. -/
theorem stored_activation_survives_iff {before between after : List ThreadAction}
    {start decided last stored t : Threads} {now : LocalDateTime} {msg : TrustMovementMessage}
    {activation : TrainActivation}
    (reached : run (Threads.step repos) (.atRest .empty) before = some start)
    (handled : start.step repos (.handle now msg) = some decided)
    (sent : decided.effect = some (.send terminated))
    (arrived : terminated.value.hasArrivedAtDest = true)
    (continued : run (Threads.step repos) decided between = some last)
    (storing : last.effect = some (.putActivation activation))
    (own : activation.trainId = terminated.value.trainId)
    (performed : last.step repos .perform = some stored)
    (ended : run (Threads.step repos) stored after = some t)
    (processed : t.Processed start.topic.length)
    (latest : NotReactivated repos after terminated.value.trainId) :
    (IMap.get t.activations terminated.value.trainId = some activation ↔
      ∀ offset record, t.topic[offset]? = some record → Terminates terminated.value.trainId record →
        t.Processed offset → stored.Processed offset) ∧
    (¬ stored.Processed start.topic.length →
      IMap.get t.activations terminated.value.trainId = none) := by
  have wholeRun : run (Threads.step repos) (.atRest .empty)
      (before ++ .handle now msg :: (between ++ [.perform])) = some stored :=
    run_append_eq_some.mpr ⟨_, reached, run_cons_eq_some.mpr ⟨_, handled,
      run_snoc_eq_some.mpr ⟨_, continued, performed⟩⟩⟩
  have busy := busy_run wholeRun
  -- the terminated record is on the topic, or its send has not been performed yet
  have inTopic : t.Sent start.topic.length terminated := by
    have initial : decided.Sent start.topic.length terminated := by
      rw [Threads.eq_of_decided handled sent]
      exact .inl ⟨rfl, rfl⟩
    exact run_invariant (fun t => t.Sent start.topic.length terminated)
      (fun _ _ _ _ => Threads.sent_step) initial
      (run_append_eq_some.mpr ⟨_, run_snoc_eq_some.mpr ⟨_, continued, performed⟩, ended⟩)
  have fresh : Kept terminated.value.trainId activation [] stored := by
    obtain ⟨effect, decided', rfl⟩ := Threads.step_perform performed
    cases decided'.symm.trans storing
    refine ⟨?_, fun _ impossible => by cases impossible⟩
    simp [State.perform, HzTrainActivationRepo.put, ← own]
  -- from its put on, only a delete of the processor can take the activation away
  have kept : Kept terminated.value.trainId activation after t := by
    refine run_history (Kept terminated.value.trainId activation) fresh ?_ ended
    intro history action u u' shorter _ kept stepped
    refine kept_step kept (fun now msg schedule same => latest now msg schedule ?_) stepped
    exact shorter.subset (by simp [same])
  have deleted : .call (.activationDelete terminated.value.trainId) ∈ after ↔
      Completed terminated.value.trainId stored t := delete_mem_iff_completed busy ended
  rw [kept.stored]
  constructor
  · constructor
    · intro survives offset record here terminates processed
      by_contra unprocessed
      rw [if_pos (deleted.mpr ⟨offset, record, here, terminates, processed,
        unprocessed⟩)] at survives
      cases survives
    · intro noneSince
      refine if_neg fun made => ?_
      obtain ⟨offset, record, here, terminates, processed, unprocessed⟩ := deleted.mp made
      exact unprocessed (noneSince offset record here terminates processed)
  · intro unprocessed
    refine if_pos (deleted.mpr ⟨_, terminated, ?_, ⟨rfl, arrived⟩, processed, unprocessed⟩)
    -- a record not on the topic cannot have been processed
    obtain ⟨length, _⟩ | here := inTopic
    · have bounded := (busy_run (run_append_eq_some.mpr ⟨_, wholeRun, ended⟩)).bounded
      exact absurd (processed.1.trans_le bounded) (by omega)
    · exact here

/-! ## The sample train id used again -/

open Sample

def reactivate : List ThreadAction := [.handle (clock 11 40) activationMessage]

def newActivation : TrainActivation := { activation with timestamp := clock 11 40 }

/-- The rule at an activation stored after the termination was processed. -/
theorem reused_train_id_stays :
    ∃ start decided last stored,
      run (Threads.step refData) (.atRest .empty) travelled = some start ∧
      start.step refData (.handle (clock 11 31) arrivalMessage) = some decided ∧
      run (Threads.step refData) decided ([.perform] ++ terminate ++ reactivate) = some last ∧
      last.step refData .perform = some stored ∧
      IMap.get stored.activations "871A01MN18" = some newActivation := by
  have evaluated : ((run (Threads.step refData) (.atRest .empty) travelled).bind fun start =>
      (start.step refData (.handle (clock 11 31) arrivalMessage)).bind fun decided =>
        (run (Threads.step refData) decided ([.perform] ++ terminate ++ reactivate)).bind
          fun last =>
          (last.step refData .perform).map fun stored =>
            decide (decided.effect = some (.send arrivalRecord) ∧
              last.effect = some (.putActivation newActivation) ∧
              stored.Processed start.topic.length)) = some true := by
    decide
  obtain ⟨start, reached, evaluated⟩ := Option.bind_eq_some_iff.mp evaluated
  obtain ⟨decided, handled, evaluated⟩ := Option.bind_eq_some_iff.mp evaluated
  obtain ⟨last, continued, evaluated⟩ := Option.bind_eq_some_iff.mp evaluated
  obtain ⟨stored, performed, evaluated⟩ := Option.map_eq_some_iff.mp evaluated
  obtain ⟨sent, storing, processed⟩ := of_decide_eq_true evaluated
  have latest : NotReactivated refData [] "871A01MN18" := fun _ _ _ member => by cases member
  have survives := stored_activation_survives_iff reached handled sent rfl continued storing rfl
    performed (run_nil stored) processed latest
  exact ⟨start, decided, last, stored, reached, handled, continued, performed,
    survives.1.mpr fun _ _ _ _ => id⟩

/-- Stored while the termination is in flight, the activation falls to it. -/
theorem reused_train_id_is_lost :
    ∃ start decided last stored t,
      run (Threads.step refData) (.atRest .empty) travelled = some start ∧
      start.step refData (.handle (clock 11 31) arrivalMessage) = some decided ∧
      decided.effect = some (.send arrivalRecord) ∧ arrivalRecord.value.hasArrivedAtDest = true ∧
      run (Threads.step refData) decided ([.perform] ++ reactivate) = some last ∧
      last.effect = some (.putActivation newActivation) ∧
      newActivation.trainId = arrivalRecord.value.trainId ∧
      last.step refData .perform = some stored ∧
      run (Threads.step refData) stored terminate = some t ∧ t.Processed start.topic.length ∧
      IMap.get t.activations newActivation.trainId = none := by
  have evaluated : ((run (Threads.step refData) (.atRest .empty) travelled).bind fun start =>
      (start.step refData (.handle (clock 11 31) arrivalMessage)).bind fun decided =>
        (run (Threads.step refData) decided ([.perform] ++ reactivate)).bind fun last =>
          (last.step refData .perform).bind fun stored =>
            (run (Threads.step refData) stored terminate).map fun t =>
              decide (decided.effect = some (.send arrivalRecord) ∧
                last.effect = some (.putActivation newActivation) ∧ t.Processed start.topic.length ∧
                IMap.get t.activations "871A01MN18" = none)) = some true := by
    decide
  obtain ⟨start, reached, evaluated⟩ := Option.bind_eq_some_iff.mp evaluated
  obtain ⟨decided, handled, evaluated⟩ := Option.bind_eq_some_iff.mp evaluated
  obtain ⟨last, continued, evaluated⟩ := Option.bind_eq_some_iff.mp evaluated
  obtain ⟨stored, performed, evaluated⟩ := Option.bind_eq_some_iff.mp evaluated
  obtain ⟨t, ended, evaluated⟩ := Option.map_eq_some_iff.mp evaluated
  obtain ⟨sent, storing, processed, lost⟩ := of_decide_eq_true evaluated
  exact ⟨start, decided, last, stored, t, reached, handled, sent, rfl, continued, storing, rfl,
    performed, ended, processed, lost⟩

end TrainWatch.Verified.Reactivation
