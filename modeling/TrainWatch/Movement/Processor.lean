import TrainWatch.Movement.Producer
import TrainWatch.Library.BlindWrites

/-! # The processor

`process` handles one record of the topic.  Formatting the movement for the log comes
first and can throw; the repository calls that follow are given as a list, in the
order in which they are made, so that other threads' calls can fall between them.
Each of them is a blind write of one cell: the movement or the activation of a train.
-/

namespace TrainWatch.Movement

open TrainWatch.Java TrainWatch.RefData TrainWatch.Library

inductive RepoCall where
  | movementPut (tm : TrainMovement)
  | movementDelete (tm : TrainMovement)
  | activationDelete (trainId : String)
deriving DecidableEq, Repr

namespace TrainMovementProcessor

def deleteArriveTrain (tm : TrainMovement) : List RepoCall :=
  [.movementDelete tm, .activationDelete tm.trainId]

/-- The repository calls for a movement that has been formatted. -/
def repoCalls (tm : TrainMovement) : List RepoCall :=
  if tm.hasArrivedAtDest then deleteArriveTrain tm else [.movementPut tm]

def process (tm : TrainMovement) : Except JavaException (List RepoCall) := do
  let _ ← tm.toText
  pure (repoCalls tm)

/-- Processing completes exactly for a movement with a current location, and then makes all its
    calls. -/
theorem process_eq_ok {tm : TrainMovement} {calls : List RepoCall} :
    process tm = .ok calls ↔ tm.currentLocation.isSome ∧ calls = repoCalls tm := by
  rw [← tm.toText_isOk]
  simp only [process, bind_eq_ok, pure_eq_ok, Except.ok.injEq]
  constructor
  · rintro ⟨text, formatted, rfl⟩
    exact ⟨⟨text, formatted⟩, rfl⟩
  · rintro ⟨⟨text, formatted⟩, rfl⟩
    exact ⟨text, formatted, rfl⟩

end TrainMovementProcessor

/-! ## The stores the calls go to -/

structure Stores where
  activations : HzTrainActivationRepo
  movements : HzTrainMovementRepo
deriving DecidableEq

def RepoCall.perform (stores : Stores) : RepoCall → Stores
  | .movementPut tm => { stores with movements := stores.movements.put tm }
  | .movementDelete tm => { stores with movements := stores.movements.delete tm }
  | .activationDelete trainId => { stores with activations := stores.activations.delete trainId }

def RepoCall.performAll (stores : Stores) (calls : List RepoCall) : Stores :=
  calls.foldl RepoCall.perform stores

inductive Cell where
  | movement (trainId : String)
  | activation (trainId : String)
deriving DecidableEq, Repr

namespace Cell

def trainId : Cell → String
  | movement trainId => trainId
  | activation trainId => trainId

def read (stores : Stores) : Cell → Option (TrainMovement ⊕ TrainActivation)
  | movement trainId => (IMap.get stores.movements trainId).map .inl
  | activation trainId => (IMap.get stores.activations trainId).map .inr

theorem ext_read {stores stores' : Stores} (same : ∀ cell, read stores cell = read stores' cell) :
    stores = stores' := by
  have activations : stores.activations = stores'.activations := by
    apply IMap.ext
    intro trainId
    exact Option.map_injective Sum.inr_injective (same (activation trainId))
  have movements : stores.movements = stores'.movements := by
    apply IMap.ext
    intro trainId
    exact Option.map_injective Sum.inl_injective (same (movement trainId))
  cases stores
  cases stores'
  simp_all

end Cell

namespace RepoCall

def cell : RepoCall → Cell
  | movementPut tm => .movement tm.trainId
  | movementDelete tm => .movement tm.trainId
  | activationDelete trainId => .activation trainId

def written : RepoCall → Option (TrainMovement ⊕ TrainActivation)
  | movementPut tm => some (.inl tm)
  | movementDelete _ => none
  | activationDelete _ => none

theorem read_perform (stores : Stores) (call : RepoCall) (cell : Cell) :
    Cell.read (call.perform stores) cell =
      if call.cell = cell then call.written else Cell.read stores cell := by
  cases call <;> cases cell <;>
    simp only [perform, Cell.read, RepoCall.cell, written, HzTrainMovementRepo.put,
      HzTrainMovementRepo.delete, HzTrainActivationRepo.delete, IMap.get_set, IMap.get_delete,
      Cell.movement.injEq, Cell.activation.injEq, reduceCtorEq, if_false, eq_comm] <;>
    split <;> rfl

/-- The stores under the processor's calls are written blindly, cell by cell. -/
def system : WriteSystem Stores RepoCall Cell (Option (TrainMovement ⊕ TrainActivation)) where
  read := Cell.read
  perform := fun stores call => call.perform stores
  target := cell
  value := written
  read_perform := read_perform
  ext := fun _ _ => Cell.ext_read

theorem performAll_eq (stores : Stores) (calls : List RepoCall) :
    performAll stores calls = system.performAll stores calls := rfl

theorem cell_trainId {tm : TrainMovement} {call : RepoCall}
    (member : call ∈ TrainMovementProcessor.repoCalls tm) : call.cell.trainId = tm.trainId := by
  unfold TrainMovementProcessor.repoCalls TrainMovementProcessor.deleteArriveTrain at member
  split at member <;> simp only [List.mem_cons, List.not_mem_nil, or_false] at member
  · rcases member with rfl | rfl <;> rfl
  · rw [member]; rfl

/-- A movement is only put for a record that has not arrived, and it is the record's own. -/
theorem of_movementPut_mem {tm other : TrainMovement}
    (member : .movementPut other ∈ TrainMovementProcessor.repoCalls tm) :
    other = tm ∧ tm.hasArrivedAtDest = false := by
  unfold TrainMovementProcessor.repoCalls TrainMovementProcessor.deleteArriveTrain at member
  split at member
  · simp at member
  · rename_i travelling
    simp only [List.mem_singleton, movementPut.injEq] at member
    exact ⟨member, Bool.eq_false_iff.mpr travelling⟩

/-! ## The effect of one record -/

theorem performAll_repoCalls (stores : Stores) (tm : TrainMovement) :
    performAll stores (TrainMovementProcessor.repoCalls tm) =
      if tm.hasArrivedAtDest then
        { movements := stores.movements.delete tm
          activations := stores.activations.delete tm.trainId }
      else { stores with movements := stores.movements.put tm } := by
  unfold TrainMovementProcessor.repoCalls
  split <;> rfl

/-- The calls a record of the topic stands for; none if processing it throws. -/
def ofRecord (record : Record) : Option (List RepoCall) :=
  (TrainMovementProcessor.process record.value).toOption

theorem ofRecord_eq_some {record : Record} (located : record.value.currentLocation.isSome) :
    ofRecord record = some (TrainMovementProcessor.repoCalls record.value) := by
  rw [ofRecord, TrainMovementProcessor.process_eq_ok.mpr ⟨located, rfl⟩]
  rfl

theorem cell_trainId_of_ofRecord {record : Record} {call : RepoCall}
    (member : call ∈ (ofRecord record).getD []) : call.cell.trainId = record.value.trainId := by
  cases processed : TrainMovementProcessor.process record.value with
  | ok calls =>
    obtain ⟨_, rfl⟩ := TrainMovementProcessor.process_eq_ok.mp processed
    rw [ofRecord, processed] at member
    exact cell_trainId member
  | error thrown =>
    rw [ofRecord, processed] at member
    cases member

end RepoCall

namespace TrainMovementProcessor

/-- The records of a log one after the other, stopping where `process` throws. -/
def processAll (stores : Stores) (log : List Record) : Except JavaException Stores :=
  log.foldlM (fun stores record => do
    let calls ← process record.value
    pure (RepoCall.performAll stores calls)) stores

theorem processAll_eq_ok {log : List Record}
    (located : ∀ record ∈ log, record.value.currentLocation.isSome)
    (stores : Stores) :
    processAll stores log = .ok
      (RepoCall.system.performAll stores (writesOf RepoCall.ofRecord log)) := by
  induction log generalizing stores with
  | nil => rfl
  | cons record log inductionHypothesis =>
    have here := located record List.mem_cons_self
    have tail := inductionHypothesis (fun other member =>
      located other (List.mem_cons_of_mem _ member))
      (RepoCall.performAll stores (repoCalls record.value))
    have processed := process_eq_ok.mpr ⟨here, rfl⟩
    rw [writesOf_cons, RepoCall.ofRecord_eq_some here, Option.getD_some,
      RepoCall.system.performAll_append]
    simp only [processAll, List.foldlM_cons, processed, ok_bind, pure_eq_ok] at tail ⊢
    exact tail

end TrainMovementProcessor

end TrainWatch.Movement
