import TrainWatch.Movement.Pipeline

/-! # The producer's and the processor's thread

The producer thread reads the stores when it handles a message and makes its one write
afterwards; the processor thread takes a record and makes its repository calls one by
one.  The steps of the two threads interleave freely.  The steps of `State` that belong
to them are the runs in which a thread is not interrupted.
-/

namespace TrainWatch.Movement

open TrainWatch.Java TrainWatch.RefData TrainWatch.Library

/-- `effect` is the write the producer is about to make, `calls` what is left of the
    record the processor has taken. -/
structure Threads extends State where
  effect : Option TrainMovementProducer.Effect
  calls : List RepoCall
deriving DecidableEq

inductive ThreadAction where
  | handle (now : LocalDateTime) (msg : TrustMovementMessage)
  | perform
  | take (record : Record)
  | call (call : RepoCall)
deriving DecidableEq, Repr

namespace Threads

/-- Both threads wait for their next input. -/
def atRest (s : State) : Threads := { s with effect := none, calls := [] }

def step (repos : ReferenceRepos) (t : Threads) : ThreadAction → Option Threads
  | .handle now msg =>
    match t.effect with
    | none =>
      match TrainMovementProducer.sendMessage repos t.activations now msg with
      | .ok effect => some { t with effect := some effect }
      | .error _ => some t
    | some _ => none
  | .perform =>
    match t.effect with
    | some effect => some { t with toState := t.toState.perform effect, effect := none }
    | none => none
  | .take record =>
    if t.calls = [] ∧ t.topic[t.position]? = some record then
      match TrainMovementProcessor.process record.value with
      | .ok calls => some { t with position := t.position + 1, calls := calls }
      | .error _ => none
    else none
  | .call call =>
    match t.calls with
    | next :: calls =>
      if next = call then some { t with toStores := call.perform t.toStores, calls := calls }
      else none
    | [] => none

/-- The record at the offset has been taken and all its calls have been made. -/
def Processed (t : Threads) (offset : Nat) : Prop :=
  offset < t.position ∧ (t.position = offset + 1 → t.calls = [])

instance (t : Threads) (offset : Nat) : Decidable (t.Processed offset) :=
  inferInstanceAs (Decidable (_ ∧ _))

/-! ## What a step can do -/

variable {repos : ReferenceRepos} {t t' : Threads} {now : LocalDateTime}
    {msg : TrustMovementMessage}

/-- Handling decides the producer's next write, or throws and leaves everything as it was. -/
theorem step_handle (stepped : t.step repos (.handle now msg) = some t') :
    t.effect = none ∧
      (t' = t ∨ ∃ effect, TrainMovementProducer.sendMessage repos t.activations now msg =
        .ok effect ∧
        t' = { t with effect := some effect }) := by
  simp only [step] at stepped
  split at stepped
  · rename_i idle
    split at stepped
    · rename_i effect handled
      cases stepped
      exact ⟨idle, .inr ⟨effect, handled, rfl⟩⟩
    · cases stepped
      exact ⟨idle, .inl rfl⟩
  · cases stepped

theorem step_perform (stepped : t.step repos .perform = some t') :
    ∃ effect, t.effect = some effect ∧
      t' = { t with toState := t.toState.perform effect, effect := none } := by
  simp only [step] at stepped
  split at stepped
  · rename_i effect decided
    cases stepped
    exact ⟨effect, decided, rfl⟩
  · cases stepped

theorem step_take {record : Record} (stepped : t.step repos (.take record) = some t') :
    t.calls = [] ∧ t.topic[t.position]? = some record ∧ record.value.currentLocation.isSome ∧
      t' = { t with
        position := t.position + 1
        calls := TrainMovementProcessor.repoCalls record.value } := by
  simp only [step] at stepped
  split at stepped
  · rename_i ready
    split at stepped
    · rename_i calls processed
      obtain ⟨located, rfl⟩ := TrainMovementProcessor.process_eq_ok.mp processed
      cases stepped
      exact ⟨ready.1, ready.2, located, rfl⟩
    · cases stepped
  · cases stepped

theorem step_call {call : RepoCall} (stepped : t.step repos (.call call) = some t') :
    ∃ calls, t.calls = call :: calls ∧
      t' = { t with toStores := call.perform t.toStores, calls := calls } := by
  simp only [step] at stepped
  split at stepped
  · rename_i next calls remaining
    split at stepped
    · rename_i same
      cases stepped
      exact ⟨calls, by rw [remaining, same], rfl⟩
    · cases stepped
  · cases stepped

/-- Where handling a message has decided a write, that is all it changed. -/
theorem eq_of_decided {effect : TrainMovementProducer.Effect}
    (stepped : t.step repos (.handle now msg) = some t') (decided : t'.effect = some effect) :
    t' = { t with effect := some effect } := by
  obtain ⟨idle, rfl | ⟨other, _, rfl⟩⟩ := step_handle stepped
  · rw [idle] at decided
    cases decided
  · cases decided
    rfl

theorem processor_of_handle (stepped : t.step repos (.handle now msg) = some t') :
    t'.position = t.position ∧ t'.calls = t.calls := by
  obtain ⟨_, rfl | ⟨effect, _, rfl⟩⟩ := step_handle stepped
  · exact ⟨rfl, rfl⟩
  · exact ⟨rfl, rfl⟩

theorem processor_of_perform (stepped : t.step repos .perform = some t') :
    t'.position = t.position ∧ t'.calls = t.calls := by
  obtain ⟨effect, _, rfl⟩ := step_perform stepped
  cases effect with
  | nothing => exact ⟨rfl, rfl⟩
  | putActivation activation => exact ⟨rfl, rfl⟩
  | send record => exact ⟨rfl, rfl⟩

/-- The record is, or is the next to be, at the offset of the topic. -/
def Sent (t : Threads) (offset : Nat) (record : Record) : Prop :=
  t.topic.length = offset ∧ t.effect = some (.send record) ∨ t.topic[offset]? = some record

theorem sent_step {action : ThreadAction} {offset : Nat} {record : Record}
    (sent : t.Sent offset record)
    (stepped : t.step repos action = some t') : t'.Sent offset record := by
  cases action with
  | handle now msg =>
    obtain ⟨idle, rfl | ⟨effect, _, rfl⟩⟩ := step_handle stepped
    · exact sent
    · obtain ⟨_, deciding⟩ | written := sent
      · rw [idle] at deciding; cases deciding
      · exact .inr written
  | perform =>
    obtain ⟨effect, decided, rfl⟩ := step_perform stepped
    -- the decided record is appended now, or it stood before what is appended
    obtain ⟨rfl, deciding⟩ | written := sent
    · cases decided.symm.trans deciding
      exact .inr (by simp [State.perform])
    · cases effect with
      | nothing => exact .inr written
      | putActivation activation => exact .inr written
      | send other =>
        have bound : offset < t.topic.length := (List.getElem?_eq_some_iff.mp written).1
        exact .inr (by simp only [State.perform, List.getElem?_append_left bound, written])
  | take other =>
    obtain ⟨_, _, _, rfl⟩ := step_take stepped
    exact sent
  | call call =>
    obtain ⟨_, _, rfl⟩ := step_call stepped
    exact sent

theorem eq_of_taken {offset : Nat} {record taken : Record} (sent : t.Sent offset record)
    (next : t.topic[offset]? = some taken) : taken = record := by
  obtain ⟨length, _⟩ | written := sent
  · have bound := (List.getElem?_eq_some_iff.mp next).1
    omega
  · exact Option.some.inj (next.symm.trans written)

theorem position_le_step {action : ThreadAction} (bounded : t.position ≤ t.topic.length)
    (stepped : t.step repos action = some t') : t'.position ≤ t'.topic.length := by
  cases action with
  | handle now msg =>
    obtain ⟨_, rfl | ⟨effect, _, rfl⟩⟩ := step_handle stepped
    · exact bounded
    · exact bounded
  | perform =>
    obtain ⟨effect, _, rfl⟩ := step_perform stepped
    cases effect with
    | nothing => exact bounded
    | putActivation activation => exact bounded
    | send record =>
      simp only [State.perform, List.length_append]
      omega
  | take record =>
    obtain ⟨_, next, _, rfl⟩ := step_take stepped
    exact (List.getElem?_eq_some_iff.mp next).1
  | call call =>
    obtain ⟨_, _, rfl⟩ := step_call stepped
    exact bounded

theorem position_le_run {trace : List ThreadAction}
    (reached : run (step repos) (atRest .empty) trace = some t) :
    t.position ≤ t.topic.length :=
  run_invariant (fun t => t.position ≤ t.topic.length) (fun _ _ _ _ => position_le_step)
    (Nat.le_refl 0) reached

theorem getElem?_topic_step {action : ThreadAction} {offset : Nat}
    (inTopic : offset < t.topic.length)
    (stepped : t.step repos action = some t') : t'.topic[offset]? = t.topic[offset]? := by
  cases action with
  | handle now msg =>
    obtain ⟨_, rfl | ⟨effect, _, rfl⟩⟩ := step_handle stepped
    · rfl
    · rfl
  | perform =>
    obtain ⟨effect, _, rfl⟩ := step_perform stepped
    cases effect with
    | nothing => rfl
    | putActivation activation => rfl
    | send record => exact List.getElem?_append_left inTopic
  | take record =>
    obtain ⟨_, _, _, rfl⟩ := step_take stepped
    rfl
  | call call =>
    obtain ⟨_, _, rfl⟩ := step_call stepped
    rfl

theorem processed_step {action : ThreadAction} {offset : Nat} (processed : t.Processed offset)
    (stepped : t.step repos action = some t') : t'.Processed offset := by
  obtain ⟨past, done⟩ := processed
  cases action with
  | handle now msg =>
    obtain ⟨position, calls⟩ := processor_of_handle stepped
    rw [Processed, position, calls]
    exact ⟨past, done⟩
  | perform =>
    obtain ⟨position, calls⟩ := processor_of_perform stepped
    rw [Processed, position, calls]
    exact ⟨past, done⟩
  | take record =>
    obtain ⟨_, _, _, rfl⟩ := step_take stepped
    refine ⟨Nat.lt_succ_of_lt past, fun position => ?_⟩
    have atOffset : t.position = offset := Nat.succ.inj position
    omega
  | call call =>
    obtain ⟨calls, remaining, rfl⟩ := step_call stepped
    refine ⟨past, fun position => ?_⟩
    rw [done position] at remaining
    cases remaining

/-! ## Uninterrupted threads -/

theorem run_handle (s : State) (now : LocalDateTime) (msg : TrustMovementMessage) :
    ∃ trace, run (step repos) (atRest s) trace = some (atRest (s.handle repos now msg)) := by
  cases sent : TrainMovementProducer.sendMessage repos s.activations now msg with
  | ok effect => exact ⟨[.handle now msg, .perform], by simp [atRest, step, State.handle, sent]⟩
  | error thrown => exact ⟨[.handle now msg], by simp [atRest, step, State.handle, sent]⟩

theorem run_calls (t : Threads) :
    run (step repos) t (t.calls.map .call) =
      some { t with toStores := RepoCall.performAll t.toStores t.calls, calls := [] } := by
  obtain ⟨s, effect, calls⟩ := t
  induction calls generalizing s with
  | nil => rfl
  | cons call calls inductionHypothesis =>
    have rest := inductionHypothesis { s with toStores := call.perform s.toStores }
    simpa [step, RepoCall.performAll] using rest

/-- Every run of the system without cleanup passes is one of its two threads. -/
theorem run_of_run {s s' : State} {trace : List Action}
    (reached : run (State.step repos) s trace = some s')
    (noPass : ∀ action ∈ trace, (∃ now msg, action = .sendMessage now msg) ∨
      ∃ record, action = .process record) :
    ∃ threads, run (step repos) (atRest s) threads = some (atRest s') := by
  induction trace generalizing s with
  | nil => cases reached; exact ⟨[], rfl⟩
  | cons action trace inductionHypothesis =>
    obtain ⟨middle, first, rest⟩ := run_cons_eq_some.mp reached
    have uninterrupted : ∃ threads, run (step repos) (atRest s) threads = some (atRest middle) := by
      obtain ⟨now, msg, rfl⟩ | ⟨record, rfl⟩ := noPass action List.mem_cons_self
      · cases first
        exact run_handle s now msg
      · obtain ⟨next, located, rfl⟩ := State.step_process first
        have taken : step repos (atRest s) (.take record) = some
            { atRest s with position := s.position + 1
                            calls := TrainMovementProcessor.repoCalls record.value } := by
          have processed := TrainMovementProcessor.process_eq_ok.mpr ⟨located, rfl⟩
          simp [step, atRest, next, processed]
        exact ⟨_, run_cons_eq_some.mpr ⟨_, taken, run_calls _⟩⟩
    obtain ⟨threads, first⟩ := uninterrupted
    obtain ⟨later, rest⟩ := inductionHypothesis rest
      fun a member => noPass a (List.mem_cons_of_mem _ member)
    exact ⟨threads ++ later, run_append_eq_some.mpr ⟨_, first, rest⟩⟩

end Threads

end TrainWatch.Movement
