import TrainWatch.Movement.Processor
import TrainWatch.Library.Transition

/-! # Producer, topic, processor and cleanup as one system

The topic is the log of all records sent, with the offset of the next record the
processor takes.  An action carries the readings of the clock and the snapshot it
depends on, so that a list of actions determines the run.  Records on which
`process` throws stop the stream: no action consumes them.
-/

namespace TrainWatch.Movement

open TrainWatch.Java TrainWatch.RefData TrainWatch.Library

structure State extends Stores where
  topic : List Record
  position : Nat
deriving DecidableEq

inductive Action where
  | sendMessage (now : LocalDateTime) (msg : TrustMovementMessage)
  | process (record : Record)
  | evictMovements (now : LocalDateTime) (ageInHours : Int) (values : List TrainMovement)
  | evictActivations (now : LocalDateTime) (ageInHours : Int) (values : List TrainActivation)
deriving DecidableEq, Repr

namespace State

def empty : State := { activations := ∅, movements := ∅, topic := [], position := 0 }

def perform (s : State) : TrainMovementProducer.Effect → State
  | .nothing => s
  | .putActivation activation => { s with activations := s.activations.put activation }
  | .send record => { s with topic := s.topic ++ [record] }

/-- One call of `sendMessage`; the STOMP client swallows what leaves it. -/
def handle (repos : ReferenceRepos) (s : State) (now : LocalDateTime) (msg : TrustMovementMessage) :
    State :=
  match TrainMovementProducer.sendMessage repos s.activations now msg with
  | .ok effect => s.perform effect
  | .error _ => s

/-- The messages of one STOMP body, in order, until one throws; `forEach` is then left. -/
def produceMessages (repos : ReferenceRepos) (s : State) :
    List (LocalDateTime × TrustMovementMessage) → State
  | [] => s
  | (now, msg) :: rest =>
    match TrainMovementProducer.sendMessage repos s.activations now msg with
    | .ok effect => (s.perform effect).produceMessages repos rest
    | .error _ => s

def step (repos : ReferenceRepos) (s : State) : Action → Option State
  | .sendMessage now msg => some (s.handle repos now msg)
  | .process record =>
    if s.topic[s.position]? = some record then
      match TrainMovementProcessor.process record.value with
      | .ok calls => some
          { s with toStores := RepoCall.performAll s.toStores calls, position := s.position + 1 }
      -- the exception ends the stream, and the record is never consumed
      | .error _ => none
    else none
  | .evictMovements now ageInHours values =>
    if (values : Multiset _) = IMap.values s.movements then
      some { s with movements := s.movements.evictOlderThan now ageInHours values }
    else none
  | .evictActivations now ageInHours values =>
    if (values : Multiset _) = IMap.values s.activations then
      match s.activations.evictOlderThan now ageInHours values with
      | .ok activations => some { s with activations := activations }
      -- the selection threw, before anything was evicted
      | .error _ => some s
    else none

/-! ## What a step can do -/

variable {repos : ReferenceRepos} {s s' : State} {now : LocalDateTime} {msg : TrustMovementMessage}

/-- Handling a message leaves the state alone, stores an activation, or sends a record. -/
theorem handle_cases (repos : ReferenceRepos) (s : State) (now : LocalDateTime)
    (msg : TrustMovementMessage) :
    s.handle repos now msg = s ∨
    (∃ activation, s.handle repos now msg = { s with activations := s.activations.put activation } ∧
      activation.timestamp = now ∧
      TrainMovementProducer.Activates repos msg activation.trainId activation.schedule ∧
      ∃ body, msg.body = some body ∧ activation.wttDeparture = body.originDepTimestamp) ∨
    (∃ record, s.handle repos now msg = { s with topic := s.topic ++ [record] } ∧
      msg.isActivation = .ok false ∧
      TrainMovementProducer.recordFrom repos s.activations now msg = .ok (some record)) := by
  unfold handle
  split
  · rename_i effect handled
    rcases TrainMovementProducer.sendMessage_cases handled with rfl |
      ⟨activation, rfl, rest⟩ | ⟨record, rfl, rest⟩
    · exact .inl rfl
    · exact .inr (.inl ⟨activation, rfl, rest⟩)
    · exact .inr (.inr ⟨record, rfl, rest⟩)
  · exact .inl rfl

theorem handle_of_activates (s : State) (now : LocalDateTime) {trainId : String}
    {schedule : Schedule}
    (activates : TrainMovementProducer.Activates repos msg trainId schedule) :
    ∃ body, msg.body = some body ∧ s.handle repos now msg =
      { s with
        activations := s.activations.put ⟨trainId, schedule, body.originDepTimestamp, now⟩ } := by
  obtain ⟨body, hasBody, sent⟩ :=
    TrainMovementProducer.sendMessage_of_activates s.activations now activates
  exact ⟨body, hasBody, by rw [handle, sent]; rfl⟩

theorem handle_of_record {record : Record} (kind : msg.isActivation = .ok false)
    (built : TrainMovementProducer.recordFrom repos s.activations now msg = .ok (some record)) :
    s.handle repos now msg = { s with topic := s.topic ++ [record] } := by
  rw [handle, TrainMovementProducer.sendMessage_of_record kind built]
  rfl

/-- A processed record was the next one, has a location, and changes its own train's entries only.
    -/
theorem step_process {record : Record} (stepped : s.step repos (.process record) = some s') :
    s.topic[s.position]? = some record ∧ record.value.currentLocation.isSome ∧
      s' = { s with
        toStores := RepoCall.performAll s.toStores (TrainMovementProcessor.repoCalls record.value)
        position := s.position + 1 } := by
  simp only [step] at stepped
  split at stepped
  · rename_i next
    split at stepped
    · rename_i calls processed
      obtain ⟨located, rfl⟩ := TrainMovementProcessor.process_eq_ok.mp processed
      cases stepped
      exact ⟨next, located, rfl⟩
    · cases stepped
  · cases stepped

theorem step_evictMovements {ageInHours : Int} {values : List TrainMovement}
    (stepped : s.step repos (.evictMovements now ageInHours values) = some s') :
    (values : Multiset _) = IMap.values s.movements ∧
      s' = { s with movements := s.movements.evictOlderThan now ageInHours values } := by
  simp only [step] at stepped
  split at stepped
  · rename_i snapshot
    cases stepped
    exact ⟨snapshot, rfl⟩
  · cases stepped

theorem step_evictActivations {ageInHours : Int} {values : List TrainActivation}
    (stepped : s.step repos (.evictActivations now ageInHours values) = some s') :
    (values : Multiset _) = IMap.values s.activations ∧
      ((¬ ∃ activations, s.activations.evictOlderThan now ageInHours values = .ok activations) ∧
        s' = s ∨
        ∃ activations, s.activations.evictOlderThan now ageInHours values = .ok activations ∧
          s' = { s with activations := activations }) := by
  simp only [step] at stepped
  split at stepped
  · rename_i snapshot
    split at stepped
    · rename_i activations evicted
      cases stepped
      exact ⟨snapshot, .inr ⟨activations, evicted, rfl⟩⟩
    · rename_i thrown threw
      cases stepped
      refine ⟨snapshot, .inl ⟨?_, rfl⟩⟩
      rintro ⟨activations, evicted⟩
      cases threw.symm.trans evicted
  · cases stepped

end State

end TrainWatch.Movement
