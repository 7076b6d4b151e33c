import TrainWatch.RefData.Schedule

/-! # Messages, activations and movements

A TRUST message has a header and a body of nullable texts.  An activation ties a
train id to a schedule; a movement is built from a later message of the same train
and the schedule of its activation.
-/

namespace TrainWatch.Movement

open TrainWatch.Java TrainWatch.RefData

namespace TrustMovementMessage

structure Header where
  msgType : Option String
deriving DecidableEq, Repr

structure Body where
  actualTimestamp : Option String
  locStanox : Option String
  originDepTimestamp : Option String
  trainUid : Option String
  scheduleEndDate : Option String
  scheduleStartDate : Option String
  timetableVariation : Option String
  trainId : Option String
  trainServiceCode : Option String
  trainTerminated : Option String
  variationStatus : Option String
deriving DecidableEq, Repr

end TrustMovementMessage

/-- The parser leaves header and body non-null when the message lacks them, but an explicit
    JSON null makes them null. -/
structure TrustMovementMessage where
  header : Option TrustMovementMessage.Header
  body : Option TrustMovementMessage.Body
deriving DecidableEq, Repr

def TrustMovementMessage.isActivation (msg : TrustMovementMessage) : Except JavaException Bool := do
  let header ← nonNull msg.header
  let msgType ← nonNull header.msgType
  pure (msgType == "0001")

/-- `timestamp` is the clock's reading when the activation is built.  The train id is not null:
    the store rejects an activation without one. -/
structure TrainActivation where
  trainId : String
  schedule : Schedule
  wttDeparture : Option String
  timestamp : LocalDateTime
deriving DecidableEq, Repr

structure TrainMovement where
  trainId : String
  origin : Option Location
  departure : Option LocalTime
  destination : Option Location
  arrival : Option LocalTime
  delay : Int
  currentLocation : Option Location
  timestamp : LocalDateTime
  hasArrived : Bool
  isPassenger : Bool
deriving DecidableEq, Repr

namespace TrainMovement

/-- The constructor: an absent delay counts as zero, and the schedule's passenger flag is unboxed.
    -/
def create (trainId : String) (timestamp : LocalDateTime) (current : Option Location)
    (delay terminated : Option String) (schedule : Schedule) :
    Except JavaException TrainMovement := do
  let hasArrived := Boolean.valueOf terminated
  let delay ← Integer.parseInt (some (delay.getD "0"))
  let isPassenger ← nonNull schedule.isPassenger
  pure
    { trainId, timestamp, currentLocation := current, origin := schedule.origin
      departure := schedule.departure, destination := schedule.destination
      arrival := schedule.arrival, hasArrived, delay, isPassenger }

def safeCrs (loc : Option Location) : String :=
  match loc with
  | none => "---"
  | some loc => loc.crs.getD "---"

def originCrs (tm : TrainMovement) : String := safeCrs tm.origin

def destCrs (tm : TrainMovement) : String := safeCrs tm.destination

def hasArrivedAtDest (tm : TrainMovement) : Bool := tm.hasArrived

/-- The nine arguments of the format string; its conversions accept every value of them, null
    included. -/
structure Formatted where
  departure : Option LocalTime
  oCrs : String
  orig : Option String
  arrival : Option LocalTime
  dCrs : String
  dest : Option String
  delay : Int
  current : Option String
  timestamp : LocalDateTime
deriving DecidableEq, Repr

def Formatted.format (t : TrainMovement) : Except JavaException Formatted := do
  let orig := match t.origin with
    | none => some "N/A"
    | some origin => origin.description
  let dest := match t.destination with
    | none => some "N/A"
    | some destination => destination.description
  let oCrs := t.originCrs
  let dCrs := t.destCrs
  let currentLocation ← nonNull t.currentLocation
  let current := currentLocation.tiploc
  pure { departure := t.departure, oCrs, orig, arrival := t.arrival, dCrs, dest, delay := t.delay
         current, timestamp := t.timestamp }

/-- `toString`: only the current location is dereferenced without a guard. -/
def toText (tm : TrainMovement) : Except JavaException Formatted := Formatted.format tm

theorem toText_isOk (tm : TrainMovement) :
    (∃ text, tm.toText = .ok text) ↔ tm.currentLocation.isSome := by
  unfold toText Formatted.format
  cases tm.currentLocation <;> simp

theorem create_eq_ok {trainId : String} {timestamp : LocalDateTime} {current : Option Location}
    {delay terminated : Option String} {schedule : Schedule} {movement : TrainMovement} :
    create trainId timestamp current delay terminated schedule = .ok movement ↔
      ∃ minutes isPassenger, Integer.parseInt (some (delay.getD "0")) = .ok minutes ∧
        schedule.isPassenger = some isPassenger ∧
        movement =
          { trainId, timestamp, currentLocation := current, origin := schedule.origin
            departure := schedule.departure, destination := schedule.destination
            arrival := schedule.arrival, hasArrived := Boolean.valueOf terminated
            delay := minutes, isPassenger } := by
  simp only [create, bind_eq_ok, nonNull_eq_ok, pure_eq_ok, Except.ok.injEq]
  constructor
  · rintro ⟨minutes, parsed, isPassenger, flag, rfl⟩
    exact ⟨minutes, isPassenger, parsed, flag, rfl⟩
  · rintro ⟨minutes, isPassenger, parsed, flag, rfl⟩
    exact ⟨minutes, parsed, isPassenger, flag, rfl⟩

end TrainMovement

end TrainWatch.Movement
