import TrainWatch.Verified.Steps
import TrainWatch.Library.Interleaving
import TrainWatch.Library.Redelivery

/-! # The processed log

The processor's repository calls are blind writes of one train's entries.  So its result
depends on the order of the records of each train only: neither the scheduling of the
partitions nor the replays after a crash change what the stores hold at the end.
-/

namespace TrainWatch.Verified.Streaming

open TrainWatch.Java TrainWatch.RefData TrainWatch.Library TrainWatch.Movement
open TrainWatch.Movement.TrainMovementProcessor

/-- Processing a record completes exactly if it has a current location. -/
def Located (log : List Record) : Prop := ∀ record ∈ log, record.value.currentLocation.isSome

/-! ## Partitions -/

section Partitions

variable {π : Type} (partition : String → π)

/-- All records of a train have the same key, and it is not null. -/
def OneKeyPerTrain (log : List Record) : Prop :=
  ∀ record ∈ log, record.key.isSome ∧
    ∀ other ∈ log, other.value.trainId = record.value.trainId → other.key = record.key

def ownerOf (log : List Record) (trainId : String) : π :=
  match log.find? fun record => record.value.trainId = trainId with
  | some record => partition (record.key.getD "")
  | none => partition ""

variable {partition}

theorem partition_eq_ownerOf {log : List Record} (oneKey : OneKeyPerTrain log) {record : Record}
    (member : record ∈ log) :
    record.key.map partition = some (ownerOf partition log record.value.trainId) := by
  obtain ⟨code, hasCode⟩ := Option.isSome_iff_exists.mp (oneKey record member).1
  cases found : log.find? fun other => other.value.trainId = record.value.trainId with
  | none =>
    have missing := List.find?_eq_none.mp found record member
    simp at missing
  | some other =>
    have same : other.value.trainId = record.value.trainId := by
      have selected := List.find?_some found
      simpa using selected
    have sameKey := (oneKey record member).2 other (List.mem_of_find?_eq_some found) same
    simp [ownerOf, found, sameKey, hasCode]

variable [DecidableEq π]

/-- The log as the partitions hold it; a record's key selects its partition. -/
def partitioned (partition : String → π) (stores : Stores) (log : List Record) :
    Workers Stores π Record RepoCall :=
  ⟨stores, fun worker => ⟨log.filter fun record => record.key.map partition = some worker, []⟩⟩

/-- Every complete schedule of the partitions leaves the stores that the log leaves when it is
    processed in the order of production. -/
theorem schedule_equals_sequence {log : List Record} {stores : Stores}
    {final : Workers Stores π Record RepoCall} {trace : List (WorkerAction π)}
    (oneKey : OneKeyPerTrain log) (located : Located log)
    (reached : run (Workers.step RepoCall.system RepoCall.ofRecord)
      (partitioned partition stores log) trace = some final)
    (idle : final.Idle) : processAll stores log = .ok final.state := by
  have state :
      final.state = RepoCall.system.performAll stores (writesOf RepoCall.ofRecord log) := by
    refine Workers.state_of_idle (fun cell => ownerOf partition log cell.trainId) ?_ reached idle
    intro record member call own worker
    -- a record's calls are its train's, and all records of the train are in one partition
    have train : call.cell.trainId = record.value.trainId := RepoCall.cell_trainId_of_ofRecord own
    have home : record.key.map partition = some (ownerOf partition log record.value.trainId) :=
      partition_eq_ownerOf oneKey member
    show decide _ = true ↔ worker = ownerOf partition log call.cell.trainId
    rw [train, home, decide_eq_true_iff, Option.some.injEq]
    exact eq_comm
  rw [state]
  exact processAll_eq_ok located stores

/-- Any two complete schedules of the partitions end with the same stores, those of processing the
    whole log in the order of production. -/
theorem result_is_schedule_independent {log : List Record} {stores : Stores}
    {final final' : Workers Stores π Record RepoCall} {trace trace' : List (WorkerAction π)}
    (oneKey : OneKeyPerTrain log) (located : Located log)
    (reached : run (Workers.step RepoCall.system RepoCall.ofRecord)
      (partitioned partition stores log) trace = some final) (idle : final.Idle)
    (reached' : run (Workers.step RepoCall.system RepoCall.ofRecord)
      (partitioned partition stores log) trace' = some final') (idle' : final'.Idle) :
    final.state = final'.state ∧ processAll stores log = .ok final.state := by
  have sequence := schedule_equals_sequence oneKey located reached idle
  have sequence' := schedule_equals_sequence oneKey located reached' idle'
  exact ⟨Except.ok.inj (sequence.symm.trans sequence'), sequence⟩

/-! A second train beside the sample train, with a service code of its own. -/

open Sample

def otherRecord : Record := ⟨some "24746000", { movement with trainId := "871B02MN18" }⟩

def sampleLog : List Record := [record, otherRecord, arrivalRecord]

def samplePartition (code : String) : Bool := code == "24745000"

def oneAfterTheOther : List (WorkerAction Bool) :=
  [.begin true, .perform true, .begin true, .perform true, .perform true, .begin false,
    .perform false]

/-- The put of the second train falls between the two deletes of the first. -/
def interleaved : List (WorkerAction Bool) :=
  [.begin false, .begin true, .perform true, .begin true, .perform true, .perform false,
    .perform true]

theorem sampleLog_located : Located sampleLog := by unfold Located; decide

/-- The rule at two schedules of two partitions. -/
theorem sample_schedules_agree :
    ∃ final final', run (Workers.step RepoCall.system RepoCall.ofRecord)
        (partitioned samplePartition ⟨∅, ∅⟩ sampleLog) oneAfterTheOther = some final ∧
      run (Workers.step RepoCall.system RepoCall.ofRecord)
        (partitioned samplePartition ⟨∅, ∅⟩ sampleLog) interleaved = some final' ∧
      final.state = final'.state ∧ processAll ⟨∅, ∅⟩ sampleLog = .ok final.state := by
  have evaluated : (run (Workers.step RepoCall.system RepoCall.ofRecord)
      (partitioned samplePartition ⟨∅, ∅⟩ sampleLog) oneAfterTheOther).map
        (fun final => decide final.Idle) = some true := by decide
  have evaluated' : (run (Workers.step RepoCall.system RepoCall.ofRecord)
      (partitioned samplePartition ⟨∅, ∅⟩ sampleLog) interleaved).map
        (fun final => decide final.Idle) = some true := by decide
  obtain ⟨final, reached, idle⟩ := Option.map_eq_some_iff.mp evaluated
  obtain ⟨final', reached', idle'⟩ := Option.map_eq_some_iff.mp evaluated'
  have oneKey : OneKeyPerTrain sampleLog := by unfold OneKeyPerTrain; decide
  exact ⟨final, final', reached, reached', result_is_schedule_independent oneKey sampleLog_located
    reached (of_decide_eq_true idle) reached' (of_decide_eq_true idle')⟩

end Partitions

/-! ## Crashes and redelivery -/

/-- However often and wherever the processor crashes, each time resuming at an offset that is not
    past the record it was at: when it has reached the end of the log, the stores are those of one
    pass without a crash. -/
theorem redelivery_equals_one_pass {log : List Record} {stores : Stores}
    {final : Delivery Stores RepoCall} {trace : List DeliveryAction} (located : Located log)
    (reached :
      run (Delivery.step RepoCall.system RepoCall.ofRecord log) (.start stores) trace = some final)
    (ended : final.position = log.length) : processAll stores log = .ok final.state := by
  rw [Delivery.state_of_end reached ended]
  exact processAll_eq_ok located stores

open Sample

/-- A crash between the two deletes of the termination, and a restart from the first record. -/
def crashed : List DeliveryAction :=
  [.begin, .perform, .complete, .begin, .perform, .complete, .begin, .perform, .crash 0,
    .begin, .perform, .complete, .begin, .perform, .complete, .begin, .perform, .perform, .complete]

/-- The rule at that crash. -/
theorem crashed_run_equals_one_pass :
    ∃ final, run (Delivery.step RepoCall.system RepoCall.ofRecord sampleLog)
        (.start ⟨IMap.set ∅ activation.trainId activation, ∅⟩) crashed = some final ∧
      processAll ⟨IMap.set ∅ activation.trainId activation, ∅⟩ sampleLog = .ok final.state := by
  have evaluated : (run (Delivery.step RepoCall.system RepoCall.ofRecord sampleLog)
      (.start ⟨IMap.set ∅ activation.trainId activation, ∅⟩) crashed).map (·.position) =
        some sampleLog.length := by decide
  obtain ⟨final, reached, ended⟩ := Option.map_eq_some_iff.mp evaluated
  exact ⟨final, reached, redelivery_equals_one_pass sampleLog_located reached ended⟩

end TrainWatch.Verified.Streaming
