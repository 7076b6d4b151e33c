import TrainWatch.Movement.Threads
import TrainWatch.Verified.Steps

/-! # What can bring a terminated train back

The activation of a terminated train outlives its last message by as long as the record
is in flight, and until it is deleted the producer goes on sending the train's movements.
They are processed after the termination and put the train back.  The invariant is about
the topic from the terminated record on: nothing in it, in the producer's hand or in the
processor's puts the train, and what the processor still has to do removes it.
-/

namespace TrainWatch.Verified.Termination

open TrainWatch.Java TrainWatch.RefData TrainWatch.Library TrainWatch.Movement
open TrainWatch.Movement.TrainMovementProducer

variable {repos : ReferenceRepos} {trainId : String} {offset : Nat} {terminated : Record}

/-- Neither store has an entry for the train. -/
def Gone (trainId : String) (stores : Stores) : Prop :=
  ∀ cell : Cell, cell.trainId = trainId → Cell.read stores cell = none

theorem gone_of_repoCalls {tm : TrainMovement} (arrived : tm.hasArrivedAtDest = true)
    (stores : Stores) :
    Gone tm.trainId (RepoCall.performAll stores (TrainMovementProcessor.repoCalls tm)) := by
  intro cell own
  rw [RepoCall.performAll_repoCalls, if_pos arrived]
  cases cell with
  | movement trainId =>
    cases own
    simp [Cell.read, HzTrainMovementRepo.delete]
  | activation trainId =>
    cases own
    simp [Cell.read, HzTrainActivationRepo.delete]

/-- A write of the producer that does not put the train back. -/
def Harmless (trainId : String) : Effect → Prop
  | .nothing => True
  | .putActivation activation => activation.trainId ≠ trainId
  | .send record => record.value.trainId = trainId → record.value.hasArrivedAtDest = true

/-- `terminated`, a record of the train, is or is about to be at `offset` of the topic. -/
structure Closing (trainId : String) (offset : Nat) (terminated : Record) (t : Threads) : Prop where
  sent : t.Sent offset terminated
  later : ∀ index record, offset ≤ index → t.topic[index]? = some record →
    record.value.trainId = trainId → record.value.hasArrivedAtDest = true
  effect : ∀ effect, t.effect = some effect → Harmless trainId effect
  calls : offset < t.position → ∀ tm, .movementPut tm ∈ t.calls → tm.trainId ≠ trainId
  finishing : t.position = offset + 1 → Gone trainId (RepoCall.performAll t.toStores t.calls)
  gone : t.Processed offset → Gone trainId t.toStores

theorem closing_handle {t t' : Threads} {now : LocalDateTime} {msg : TrustMovementMessage}
    (closing : Closing trainId offset terminated t)
    (noReactivation : ∀ schedule, ¬ Activates repos msg trainId schedule)
    (noFurther : ∀ body, MovementMessage msg trainId body → ¬ t.Processed offset →
      Boolean.valueOf body.trainTerminated = true)
    (stepped : t.step repos (.handle now msg) = some t') :
    Closing trainId offset terminated t' := by
  obtain ⟨_, rfl | ⟨effect, handled, rfl⟩⟩ := Threads.step_handle stepped
  · exact closing
  · have harmless : Harmless trainId effect := by
      obtain rfl | ⟨activation, rfl, _, activates, _⟩ | ⟨record, rfl, kind, built⟩ :=
        sendMessage_cases handled
      · trivial
      · intro same
        exact noReactivation activation.schedule (same ▸ activates)
      · intro same
        obtain ⟨body, activation, hasBody, _, stored, translation⟩ := recordFrom_eq_some.mp built
        -- the activation is still there, so the terminated record is not processed yet
        have unprocessed : ¬ t.Processed offset := by
          intro processed
          have absent := closing.gone processed (.activation trainId) rfl
          rw [same] at stored
          simp [Cell.read, stored] at absent
        have message : MovementMessage msg trainId body :=
          ⟨kind, hasBody, same ▸ translation.trainId⟩
        have terminates := noFurther body message unprocessed
        exact translation.hasArrived.trans terminates
    exact { closing with
      sent := Threads.sent_step closing.sent stepped
      effect := fun decided same => by cases same; exact harmless }

theorem closing_perform {t t' : Threads} (closing : Closing trainId offset terminated t)
    (stepped : t.step repos .perform = some t') : Closing trainId offset terminated t' := by
  have sent := Threads.sent_step closing.sent stepped
  obtain ⟨effect, decided, rfl⟩ := Threads.step_perform stepped
  have harmless := closing.effect effect decided
  have nothingDecided : ∀ effect, (none : Option Effect) = some effect →
      Harmless trainId effect := by
    intro effect impossible
    cases impossible
  cases effect with
  | nothing => exact { closing with sent := sent, effect := nothingDecided }
  | putActivation activation =>
    -- the write goes to the activation of another train
    have same : ∀ cell : Cell, cell.trainId = trainId →
        Cell.read { t.toStores with activations := t.activations.put activation } cell =
          Cell.read t.toStores cell := by
      intro cell own
      cases cell with
      | movement trainId => rfl
      | activation trainId =>
        cases own
        have different : trainId ≠ activation.trainId := Ne.symm harmless
        simp only [Cell.read, HzTrainActivationRepo.put, IMap.get_set_of_ne _ _ different]
    refine { closing with sent := sent, effect := nothingDecided, finishing := ?_, gone := ?_ }
    · intro position cell own
      have finished := closing.finishing position cell own
      rw [RepoCall.performAll_eq] at finished ⊢
      rw [← finished]
      exact RepoCall.system.read_performAll_congr _ (same cell own)
    · intro processed cell own
      exact (same cell own).trans (closing.gone processed cell own)
  | send record =>
    refine { closing with sent := sent, effect := nothingDecided, later := ?_ }
    intro index found ordered here own
    simp only [State.perform] at here
    by_cases earlier : index < t.topic.length
    · rw [List.getElem?_append_left earlier] at here
      exact closing.later index found ordered here own
    · rw [List.getElem?_append_right (Nat.le_of_not_lt earlier)] at here
      have new : found = record := by
        have member := List.mem_of_getElem? here
        exact List.mem_singleton.mp member
      subst new
      exact harmless own

theorem closing_take {t t' : Threads} {record : Record} (own : terminated.value.trainId = trainId)
    (arrived : terminated.value.hasArrivedAtDest = true)
    (closing : Closing trainId offset terminated t)
    (stepped : t.step repos (.take record) = some t') : Closing trainId offset terminated t' := by
  obtain ⟨idle, next, _, rfl⟩ := Threads.step_take stepped
  have finishing : t.position + 1 = offset + 1 →
      Gone trainId (RepoCall.performAll t.toStores
        (TrainMovementProcessor.repoCalls record.value)) := by
    intro position
    have atOffset : t.position = offset := Nat.succ.inj position
    rw [atOffset] at next
    rw [Threads.eq_of_taken closing.sent next, ← own]
    exact gone_of_repoCalls arrived t.toStores
  refine { closing with calls := ?_, finishing := finishing, gone := ?_ }
  · intro past tm puts same
    obtain ⟨rfl, travelling⟩ := RepoCall.of_movementPut_mem puts
    have terminates := closing.later t.position record (Nat.le_of_lt_succ past) next same
    rw [travelling] at terminates
    cases terminates
  · intro processed
    -- the record is the terminated one itself, or a later one
    by_cases atOffset : t.position = offset
    · have done := processed.2 (congrArg Nat.succ atOffset)
      have finished := finishing (congrArg Nat.succ atOffset)
      rwa [show TrainMovementProcessor.repoCalls record.value = [] from done] at finished
    · have past : offset < t.position := by
        have bound : offset < t.position + 1 := processed.1
        omega
      exact closing.gone ⟨past, fun _ => idle⟩

theorem closing_call {t t' : Threads} {call : RepoCall}
    (closing : Closing trainId offset terminated t)
    (stepped : t.step repos (.call call) = some t') : Closing trainId offset terminated t' := by
  obtain ⟨calls, remaining, rfl⟩ := Threads.step_call stepped
  have finishing : t.position = offset + 1 →
      Gone trainId (RepoCall.performAll (call.perform t.toStores) calls) := by
    intro position
    have finished := closing.finishing position
    rwa [remaining] at finished
  refine { closing with calls := ?_, finishing := finishing, gone := ?_ }
  · intro past tm puts
    apply closing.calls past tm
    rw [remaining]
    exact List.mem_cons_of_mem _ puts
  · intro processed
    by_cases current : t.position = offset + 1
    · -- the last call of the terminated record itself
      have done : calls = [] := processed.2 current
      have finished := finishing current
      rwa [done] at finished
    · intro cell own
      have before := closing.gone ⟨processed.1, fun same => absurd same current⟩ cell own
      rw [RepoCall.read_perform]
      split
      · rename_i target
        cases call with
        | movementPut tm =>
          -- the only call that could bring an entry back is none of the train's
          have different : tm.trainId ≠ trainId := by
            apply closing.calls processed.1 tm
            rw [remaining]
            exact List.mem_cons_self
          rw [← target] at own
          exact absurd own different
        | movementDelete tm => rfl
        | activationDelete trainId => rfl
      · exact before

theorem closing_start {t : Threads} (bounded : t.position ≤ t.topic.length)
    (arrived : terminated.value.hasArrivedAtDest = true) :
    Closing terminated.value.trainId t.topic.length terminated
      { t with effect := some (.send terminated) } where
  sent := .inl ⟨rfl, rfl⟩
  later := by
    intro index record ordered here
    have bound := (List.getElem?_eq_some_iff.mp here).1
    exact absurd bound (Nat.not_lt.mpr ordered)
  effect := by
    intro effect decided
    cases decided
    exact fun _ => arrived
  calls := fun past => absurd past (Nat.not_lt.mpr bounded)
  finishing := by
    intro position
    have outOfReach : t.position = t.topic.length + 1 := position
    omega
  gone := fun processed => absurd processed.1 (Nat.not_lt.mpr bounded)

def NotReactivated (repos : ReferenceRepos) (since : List ThreadAction) (trainId : String) : Prop :=
  ∀ now msg schedule, .handle now msg ∈ since → ¬ Activates repos msg trainId schedule

/-- While the record at `offset` is not processed, the producer handles no movement message of
    the train other than terminating ones. -/
def NotContinued (repos : ReferenceRepos) (start : Threads) (since : List ThreadAction)
    (trainId : String)
    (offset : Nat) : Prop :=
  ∀ earlier now msg t body, earlier ++ [.handle now msg] <+: since →
    run (Threads.step repos) start earlier = some t → ¬ t.Processed offset →
    MovementMessage msg trainId body → Boolean.valueOf body.trainTerminated = true

/-- In every run of the two threads and in every state in which a terminated movement has been
    processed, the movement store has no entry for its train, unless, after the message that
    produced it, the train was activated again, or a further movement message of it was handled
    before the processing was complete. -/
theorem terminated_train_stays_away {before since : List ThreadAction} {start decided t : Threads}
    {now : LocalDateTime} {msg : TrustMovementMessage}
    (reached : run (Threads.step repos) (.atRest .empty) before = some start)
    (handled : start.step repos (.handle now msg) = some decided)
    (sent : decided.effect = some (.send terminated))
    (arrived : terminated.value.hasArrivedAtDest = true)
    (continued : run (Threads.step repos) decided since = some t)
    (processed : t.Processed start.topic.length)
    (notReactivated : NotReactivated repos since terminated.value.trainId)
    (notContinued : NotContinued repos decided since terminated.value.trainId start.topic.length) :
    IMap.get t.movements terminated.value.trainId = none := by
  have bounded := Threads.position_le_run reached
  have initial : Closing terminated.value.trainId start.topic.length terminated decided := by
    rw [Threads.eq_of_decided handled sent]
    exact closing_start bounded arrived
  have closing : Closing terminated.value.trainId start.topic.length terminated t := by
    -- no step of either thread brings the train back while the record is not processed
    refine run_history (fun _ t => Closing terminated.value.trainId start.topic.length terminated t)
      initial ?_ continued
    intro history action u u' shorter earlier closing stepped
    cases action with
    | handle now msg =>
      have member : .handle now msg ∈ since := shorter.subset (by simp)
      exact closing_handle closing (fun schedule => notReactivated now msg schedule member)
        (fun body message open' =>
          notContinued history now msg u body shorter earlier open' message) stepped
    | perform => exact closing_perform closing stepped
    | take record => exact closing_take rfl arrived closing stepped
    | call call => exact closing_call closing stepped
  have absent := closing.gone processed (.movement terminated.value.trainId) rfl
  exact Option.map_eq_none_iff.mp absent

/-! ## The sample train terminates -/

open Sample

/-- The train is activated, moves, and its movement is processed. -/
def travelled : List ThreadAction :=
  [.handle (clock 9 0) activationMessage, .perform, .handle (clock 10 41) movementMessage, .perform,
    .take record, .call (.movementPut movement)]

def terminate : List ThreadAction :=
  [.take arrivalRecord, .call (.movementDelete arrivalRecord.value),
    .call (.activationDelete arrivalRecord.value.trainId)]

/-- The rule at a train whose terminating message is the last one. -/
theorem sample_train_stays_away :
    ∃ start decided t, run (Threads.step refData) (.atRest .empty) travelled = some start ∧
      start.step refData (.handle (clock 11 31) arrivalMessage) = some decided ∧
      run (Threads.step refData) decided (.perform :: terminate) = some t ∧
      IMap.get start.movements "871A01MN18" = some movement ∧
      IMap.get t.movements "871A01MN18" = none := by
  have evaluated : ((run (Threads.step refData) (.atRest .empty) travelled).bind fun start =>
      (start.step refData (.handle (clock 11 31) arrivalMessage)).bind fun decided =>
        (run (Threads.step refData) decided (.perform :: terminate)).map fun t =>
          decide (IMap.get start.movements "871A01MN18" = some movement ∧
            decided.effect = some (.send arrivalRecord) ∧
              t.Processed start.topic.length)) = some true := by
    decide
  obtain ⟨start, reached, evaluated⟩ := Option.bind_eq_some_iff.mp evaluated
  obtain ⟨decided, handled, evaluated⟩ := Option.bind_eq_some_iff.mp evaluated
  obtain ⟨t, continued, evaluated⟩ := Option.map_eq_some_iff.mp evaluated
  obtain ⟨moved, sent, processed⟩ := of_decide_eq_true evaluated
  have silent : ∀ now msg, ThreadAction.handle now msg ∉ .perform :: terminate := by
    simp [terminate]
  have notReactivated : NotReactivated refData (.perform :: terminate) "871A01MN18" :=
    fun now msg _ member => absurd member (silent now msg)
  have notContinued :
      NotContinued refData decided (.perform :: terminate) "871A01MN18" start.topic.length :=
    fun _ now msg _ _ shorter => absurd (shorter.subset (by simp)) (silent now msg)
  exact ⟨start, decided, t, reached, handled, continued, moved,
    terminated_train_stays_away reached handled sent rfl continued processed notReactivated
      notContinued⟩

/-- A movement message handled while the termination is in flight. -/
def overtaken : List ThreadAction :=
  [.perform, .handle (clock 11 32) movementMessage, .perform] ++ terminate

def late : List ThreadAction := [.take record, .call (.movementPut movement)]

/-- The termination has been processed and the train was not activated again, yet the message
    handled in between puts it back. -/
theorem overtaken_train_comes_back :
    ∃ start decided t t', run (Threads.step refData) (.atRest .empty) travelled = some start ∧
      start.step refData (.handle (clock 11 31) arrivalMessage) = some decided ∧
      decided.effect = some (.send arrivalRecord) ∧ arrivalRecord.value.hasArrivedAtDest = true ∧
      run (Threads.step refData) decided overtaken = some t ∧ t.Processed start.topic.length ∧
      run (Threads.step refData) t late = some t' ∧
      NotReactivated refData (overtaken ++ late) arrivalRecord.value.trainId ∧
      IMap.get t'.movements arrivalRecord.value.trainId = some movement := by
  have evaluated : ((run (Threads.step refData) (.atRest .empty) travelled).bind fun start =>
      (start.step refData (.handle (clock 11 31) arrivalMessage)).bind fun decided =>
        (run (Threads.step refData) decided overtaken).bind fun t =>
          (run (Threads.step refData) t late).map fun t' =>
            decide (decided.effect = some (.send arrivalRecord) ∧ t.Processed start.topic.length ∧
              IMap.get t'.movements "871A01MN18" = some movement)) = some true := by
    decide
  obtain ⟨start, reached, evaluated⟩ := Option.bind_eq_some_iff.mp evaluated
  obtain ⟨decided, handled, evaluated⟩ := Option.bind_eq_some_iff.mp evaluated
  obtain ⟨t, continued, evaluated⟩ := Option.bind_eq_some_iff.mp evaluated
  obtain ⟨t', back, evaluated⟩ := Option.map_eq_some_iff.mp evaluated
  obtain ⟨sent, processed, shown⟩ := of_decide_eq_true evaluated
  have notReactivated : NotReactivated refData (overtaken ++ late) "871A01MN18" := by
    intro now msg schedule member activates
    have handledMessage : msg = movementMessage := by
      simp [overtaken, late, terminate] at member
      exact member.2
    rw [handledMessage] at activates
    exact absurd activates.1 (by decide)
  exact ⟨start, decided, t, t', reached, handled, sent, rfl, continued, processed, back,
    notReactivated, shown⟩

end TrainWatch.Verified.Termination
