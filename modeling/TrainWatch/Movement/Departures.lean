import TrainWatch.Movement.Model

/-! # What the searches return

A departure is an activation with its scheduled instant parsed; a delay window is one
of four ranges of minutes, in the order in which they are shown.
-/

namespace TrainWatch.Movement

open TrainWatch.Java TrainWatch.RefData

structure TrainDeparture where
  trainId : String
  origin : Option Location
  departure : LocalTime
  destination : Option Location
  arrival : Option LocalTime
  wtt : LocalDateTime
deriving DecidableEq, Repr

namespace TrainDeparture

/-- Division of a long truncates towards zero. -/
def makeDateTimeFrom (timestamp : Option String) : Except JavaException LocalDateTime := do
  let millis ← Long.parseLong timestamp
  pure (LocalDateTime.ofEpochSecond (millis.tdiv 1000))

def create (trainId : String) (wttDeparture : Option String) (schedule : Schedule) :
    Except JavaException TrainDeparture := do
  let wtt ← makeDateTimeFrom wttDeparture
  pure
    { trainId, origin := schedule.origin, wtt, departure := wtt.toLocalTime
      destination := schedule.destination, arrival := schedule.arrival }

def scheduledDeparture (td : TrainDeparture) : LocalDateTime := td.wtt

theorem create_completes {trainId : String} {wttDeparture : Option String} {schedule : Schedule} :
    (∃ td, create trainId wttDeparture schedule = .ok td) ↔
      ∃ millis, Long.parseLong wttDeparture = .ok millis := by
  unfold create makeDateTimeFrom
  cases Long.parseLong wttDeparture with
  | ok millis => simp
  | error thrown => simp

end TrainDeparture

inductive DelayWindow where
  | upTo5mins
  | from5to15mins
  | from15to30mins
  | over30mins
deriving DecidableEq, Repr

namespace DelayWindow

def fromDelay (delayInMins : Int) : DelayWindow :=
  if delayInMins ≤ 5 then upTo5mins
  else if delayInMins ≤ 15 then from5to15mins
  else if delayInMins ≤ 30 then from15to30mins
  else over30mins

/-- The range of delays of a window, in minutes. -/
def Contains (delayInMins : Int) : DelayWindow → Prop
  | upTo5mins => delayInMins ≤ 5
  | from5to15mins => 5 < delayInMins ∧ delayInMins ≤ 15
  | from15to30mins => 15 < delayInMins ∧ delayInMins ≤ 30
  | over30mins => 30 < delayInMins

theorem fromDelay_eq_iff {delayInMins : Int} {dw : DelayWindow} :
    fromDelay delayInMins = dw ↔ dw.Contains delayInMins := by
  unfold fromDelay
  split_ifs
  · cases dw <;> simp [Contains] <;> omega
  · cases dw <;> simp [Contains] <;> omega
  · cases dw <;> simp [Contains] <;> omega
  · cases dw <;> simp [Contains] <;> omega

/-- `Collections.sort` of an enumeration orders it by its ordinals. -/
def sortedValues : List DelayWindow := [upTo5mins, from5to15mins, from15to30mins, over30mins]

theorem mem_sortedValues (dw : DelayWindow) : dw ∈ sortedValues := by
  cases dw <;> simp [sortedValues]

end DelayWindow

end TrainWatch.Movement
