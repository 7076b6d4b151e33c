import TrainWatch.Library.Related
import TrainWatch.Search.HzTrainWatchSearch
import TrainWatch.Verified.Steps

/-! # What the default time zone changes

`LocalDateTime.now()` reads the clock in the zone of the JVM, but the times of messages and
schedules are converted at UTC.  Two runs that differ in the zone alone keep what a message
says as it is and what the clock says shifted by the difference of the zones, and a
comparison of the one with the other can come out differently between the two cut-offs.
-/

namespace TrainWatch.Verified.Zones

open TrainWatch.Java TrainWatch.RefData TrainWatch.Library TrainWatch.Movement TrainWatch.Search
open TrainWatch.Movement.TrainMovementProducer TrainWatch.Search.HzTrainWatchSearch

/-! ## The same events in two zones -/

/-- `LocalDateTime.now()` at an instant, in a zone that many milliseconds ahead of UTC. -/
def localNow (offset instant : Int) : LocalDateTime := ⟨instant + offset⟩

inductive Event where
  | sendMessage (instant : Int) (msg : TrustMovementMessage)
  | process
  | evictMovements (instant ageInHours : Int)
  | evictActivations (instant ageInHours : Int)

/-- The actions that an event can be in a zone. -/
def CarriesOut (offset : Int) : Event → Action → Prop
  | .sendMessage instant msg, action => action = .sendMessage (localNow offset instant) msg
  | .process, action => ∃ record, action = .process record
  | .evictMovements instant ageInHours, action =>
    ∃ values, action = .evictMovements (localNow offset instant) ageInHours values
  | .evictActivations instant ageInHours, action =>
    ∃ values, action = .evictActivations (localNow offset instant) ageInHours values

/-- Before one of the cut-offs, but not before the other. -/
def Between (cutOff cutOff' time : LocalDateTime) : Prop :=
  cutOff.epochMilli ≤ time.epochMilli ∧ time.epochMilli < cutOff'.epochMilli ∨
    cutOff'.epochMilli ≤ time.epochMilli ∧ time.epochMilli < cutOff.epochMilli

/-- No stored movement whose time is that of its message lies between the cut-offs of the pass. -/
def MovementsAgree (offset offset' : Int) (s t : State) (instant ageInHours : Int) : Prop :=
  ∀ trainId tm tm', IMap.get s.movements trainId = some tm → IMap.get t.movements trainId =
    some tm' →
    tm'.timestamp = tm.timestamp →
      ¬ Between ((localNow offset instant).minusHours ageInHours)
        ((localNow offset' instant).minusHours ageInHours)
        tm.timestamp

/-- Every stored activation that is not too old departs before both departed thresholds of the pass
    or before neither. -/
def ActivationsAgree (offset offset' : Int) (s : State) (instant ageInHours : Int) : Prop :=
  ∀ trainId ta, IMap.get s.activations trainId = some ta →
    ta.timestamp.isBefore ((localNow offset instant).minusHours ageInHours) = false →
    ∀ departure, ta.schedule.departure = some departure →
      departure.isBefore ((localNow offset instant).toLocalTime.minusMinutes 1) =
        departure.isBefore ((localNow offset' instant).toLocalTime.minusMinutes 1)

/-- The condition on an event and the stores it meets. -/
def ZonesAgree (offset offset' : Int) (s t : State) : Event → Prop
  | .sendMessage _ _ => True
  | .process => True
  | .evictMovements instant ageInHours => MovementsAgree offset offset' s t instant ageInHours
  | .evictActivations instant ageInHours => ActivationsAgree offset offset' s instant ageInHours

/-- Two runs of the system on the same events, one in each zone, that meet the condition at every
    event. -/
def ZoneRuns (repos : ReferenceRepos) (offset offset' : Int) : State → State → Prop :=
  TwoRuns (State.step repos) (fun s t action action' => ∃ event, CarriesOut offset event action ∧
    CarriesOut offset' event action' ∧ ZonesAgree offset offset' s t event) .empty

/-! ## What the two runs share -/

def shifted (shift : Int) (time : LocalDateTime) : LocalDateTime := ⟨time.epochMilli + shift⟩

/-- An activation is stamped by the clock. -/
def AlikeActivation (shift : Int) (ta ta' : TrainActivation) : Prop :=
  ta' = { ta with timestamp := shifted shift ta.timestamp }

/-- A movement is stamped by its message, or by the clock. -/
def AlikeMovement (shift : Int) (tm tm' : TrainMovement) : Prop :=
  tm' = tm ∨ tm' = { tm with timestamp := shifted shift tm.timestamp }

def AlikeRecord (shift : Int) (record record' : Record) : Prop :=
  record'.key = record.key ∧ AlikeMovement shift record.value record'.value

inductive AlikeEffect (shift : Int) : Effect → Effect → Prop where
  | nothing : AlikeEffect shift .nothing .nothing
  | putActivation {ta ta' : TrainActivation} (alike : AlikeActivation shift ta ta') :
      AlikeEffect shift (.putActivation ta) (.putActivation ta')
  | send {record record' : Record} (alike : AlikeRecord shift record record') :
      AlikeEffect shift (.send record) (.send record')

structure Alike (shift : Int) (s t : State) : Prop where
  activations : IMap.Related (AlikeActivation shift) s.activations t.activations
  movements : IMap.Related (AlikeMovement shift) s.movements t.movements
  topic : List.Forall₂ (AlikeRecord shift) s.topic t.topic
  position : t.position = s.position

theorem alike_empty (shift : Int) : Alike shift .empty .empty :=
  ⟨IMap.Related.empty _, IMap.Related.empty _, .nil, rfl⟩

theorem localNow_eq_shifted (offset offset' instant : Int) :
    localNow offset' instant = shifted (offset' - offset) (localNow offset instant) := by
  simp only [localNow, shifted, LocalDateTime.mk.injEq]
  omega

@[simp] theorem shifted_minusHours (shift : Int) (time : LocalDateTime) (hours : Int) :
    (shifted shift time).minusHours hours = shifted shift (time.minusHours hours) := by
  simp only [shifted, LocalDateTime.minusHours, LocalDateTime.mk.injEq]
  omega

@[simp] theorem shifted_isBefore (shift : Int) (time other : LocalDateTime) :
    (shifted shift time).isBefore (shifted shift other) = time.isBefore other := by
  rw [Bool.eq_iff_iff, LocalDateTime.isBefore_eq_true, LocalDateTime.isBefore_eq_true]
  simp only [shifted]
  omega

theorem isBefore_eq_iff {cutOff cutOff' time : LocalDateTime} :
    time.isBefore cutOff = time.isBefore cutOff' ↔ ¬ Between cutOff cutOff' time := by
  rw [Bool.eq_iff_iff, LocalDateTime.isBefore_eq_true, LocalDateTime.isBefore_eq_true, Between]
  omega

theorem AlikeMovement.trainId {shift : Int} {tm tm' : TrainMovement}
    (alike : AlikeMovement shift tm tm') :
    tm'.trainId = tm.trainId := by
  obtain rfl | rfl := alike <;> rfl

/-! ## Messages -/

section Messages

variable (repos : ReferenceRepos) {shift : Int}

theorem create_alike (trainId : String) {timestamp timestamp' : LocalDateTime}
    (stamped : timestamp' = timestamp ∨ timestamp' = shifted shift timestamp)
    (current : Option Location)
    (delay terminated : Option String) (schedule : Schedule) :
    Lifts (AlikeMovement shift)
      (TrainMovement.create trainId timestamp current delay terminated schedule)
      (TrainMovement.create trainId timestamp' current delay terminated schedule) := by
  refine .bind_same _ fun minutes => .bind_same _ fun isPassenger => .ok ?_
  obtain rfl | rfl := stamped
  · exact .inl rfl
  · exact .inr rfl

theorem dateTime_alike (now : LocalDateTime) (body : TrustMovementMessage.Body) :
    Lifts (fun timestamp timestamp' => timestamp' = timestamp ∨
      timestamp' = shifted shift timestamp)
      (dateTime now body) (dateTime (shifted shift now) body) := by
  unfold dateTime
  cases body.actualTimestamp with
  | none => exact .ok (.inr rfl)
  | some text => exact .bind_same _ fun millis => .ok (.inl rfl)

variable {activations activations' : HzTrainActivationRepo}

theorem trainMovementFrom_alike
    (related : IMap.Related (AlikeActivation shift) activations activations')
    (now : LocalDateTime) (msg : TrustMovementMessage) :
    Lifts (Option.Rel (AlikeMovement shift)) (trainMovementFrom repos activations now msg)
      (trainMovementFrom repos activations' (shifted shift now) msg) := by
  refine .bind_same _ fun body => ?_
  have read : Lifts (Option.Rel (AlikeActivation shift)) (activations.get body.trainId)
      (activations'.get body.trainId) := .bind_same _ fun trainId => .ok (related trainId)
  refine read.bind fun ta ta' here => ?_
  cases here with
  | none => exact .ok .none
  | some alike =>
    -- the two activations differ in their stamp, which the rest does not read
    cases alike
    refine .bind_same _ fun current => .bind_same _ fun trainId => ?_
    refine (dateTime_alike now body).bind fun timestamp timestamp' stamped => ?_
    refine (create_alike trainId stamped current _ _ _).bind fun movement movement' same => ?_
    exact .ok (.some same)

theorem recordFrom_alike (related : IMap.Related (AlikeActivation shift) activations activations')
    (now : LocalDateTime) (msg : TrustMovementMessage) :
    Lifts (Option.Rel (AlikeRecord shift)) (recordFrom repos activations now msg)
      (recordFrom repos activations' (shifted shift now) msg) := by
  refine (trainMovementFrom_alike repos related now msg).bind fun movement movement' here => ?_
  cases here with
  | none => exact .ok .none
  | some alike => exact .bind_same _ fun body => .ok (.some ⟨rfl, alike⟩)

theorem sendMessage_alike (related : IMap.Related (AlikeActivation shift) activations activations')
    (now : LocalDateTime) (msg : TrustMovementMessage) :
    Lifts (AlikeEffect shift) (sendMessage repos activations now msg)
      (sendMessage repos activations' (shifted shift now) msg) := by
  refine .bind_same _ fun isActivation => ?_
  cases isActivation with
  | true =>
    refine .bind_same _ fun schedule => ?_
    cases schedule with
    | none => exact .ok .nothing
    -- both store the activation that their clock stamps
    | some schedule =>
      exact .bind_same _ fun body => .bind_same _ fun trainId => .ok (.putActivation rfl)
  | false =>
    -- the movement branch never throws: its exceptions are logged
    have built := recordFrom_alike repos related now msg
    simp only [Bool.false_eq_true, if_false]
    revert built
    generalize recordFrom repos activations now msg = record
    generalize recordFrom repos activations' (shifted shift now) msg = record'
    intro built
    cases built with
    | error thrown => exact .ok .nothing
    | ok here =>
      cases here with
      | none => exact .ok .nothing
      | some alike => exact .ok (.send alike)

theorem handle_alike {s t : State} (alike : Alike shift s t) (now : LocalDateTime)
    (msg : TrustMovementMessage) :
    Alike shift (s.handle repos now msg) (t.handle repos (shifted shift now) msg) := by
  have sent := sendMessage_alike repos alike.activations now msg
  unfold State.handle
  revert sent
  generalize sendMessage repos s.activations now msg = effect
  generalize sendMessage repos t.activations (shifted shift now) msg = effect'
  intro sent
  cases sent with
  | error thrown => exact alike
  | ok here =>
    cases here with
    | nothing => exact alike
    | putActivation same =>
      cases same
      exact { alike with activations := alike.activations.set _ rfl }
    | send same =>
      exact { alike with topic := List.rel_append alike.topic (.cons same .nil) }

end Messages

/-! ## Records and passes -/

section Steps

variable {repos : ReferenceRepos} {offset offset' : Int} {s t s' t' : State}

theorem process_alike {shift : Int} (alike : Alike shift s t) {record record' : Record}
    (stepped : s.step repos (.process record) = some s')
    (stepped' : t.step repos (.process record') = some t') :
    Alike shift s' t' := by
  obtain ⟨next, _, rfl⟩ := State.step_process stepped
  obtain ⟨next', _, rfl⟩ := State.step_process stepped'
  -- both take the record at the same position of alike topics
  have taken := rel_getElem? alike.topic s.position
  rw [alike.position] at next'
  rw [next, next'] at taken
  cases taken with
  | some same =>
    obtain ⟨_, sameMovement⟩ := same
    have arrived : record'.value.hasArrivedAtDest = record.value.hasArrivedAtDest := by
      obtain same | same := sameMovement
      · rw [same]
      · rw [same]
        rfl
    simp only [RepoCall.performAll_repoCalls, arrived, alike.position]
    split
    · refine ⟨?_, ?_, alike.topic, rfl⟩
      · rw [sameMovement.trainId]
        exact alike.activations.delete _
      · simp only [HzTrainMovementRepo.delete, sameMovement.trainId]
        exact alike.movements.delete _
    · refine ⟨alike.activations, ?_, alike.topic, rfl⟩
      simp only [HzTrainMovementRepo.put, sameMovement.trainId]
      exact alike.movements.set _ sameMovement

theorem old_iff {instant ageInHours : Int}
    (agree : MovementsAgree offset offset' s t instant ageInHours)
    (alike : Alike (offset' - offset) s t) (trainId : String) (tm tm' : TrainMovement)
    (found : IMap.get s.movements trainId = some tm)
    (found' : IMap.get t.movements trainId = some tm') :
    tm.timestamp.isBefore ((localNow offset instant).minusHours ageInHours) = true ↔
      tm'.timestamp.isBefore ((localNow offset' instant).minusHours ageInHours) = true := by
  rw [← Bool.eq_iff_iff]
  obtain same | same := alike.movements.rel found found'
  · -- stamped by its message: the condition of the pass is about this movement
    rw [same, isBefore_eq_iff]
    exact agree trainId tm tm' found found' (by rw [same])
  · -- stamped by the clock: the movement and the cut-off are shifted alike
    rw [same, localNow_eq_shifted offset offset', shifted_minusHours, shifted_isBefore]

theorem evictMovements_alike (keyed : KeyedStores s) (keyed' : KeyedStores t)
    (alike : Alike (offset' - offset) s t)
    {instant ageInHours : Int} (agree : MovementsAgree offset offset' s t instant ageInHours)
    {values values' : List TrainMovement}
    (snapshot : (values : Multiset _) = IMap.values s.movements)
    (snapshot' : (values' : Multiset _) = IMap.values t.movements) :
    IMap.Related (AlikeMovement (offset' - offset))
      (s.movements.evictOlderThan (localNow offset instant) ageInHours values)
      (t.movements.evictOlderThan (localNow offset' instant) ageInHours values') :=
  alike.movements.remove (fun _ _ => HzTrainMovementRepo.get_evictOlderThan keyed.2 snapshot)
    (fun _ _ => HzTrainMovementRepo.get_evictOlderThan keyed'.2 snapshot') (old_iff agree alike)

theorem age_alike (instant ageInHours : Int) {ta ta' : TrainActivation}
    (alike : AlikeActivation (offset' - offset) ta ta') :
    ta'.timestamp.isBefore ((localNow offset' instant).minusHours ageInHours) =
      ta.timestamp.isBefore ((localNow offset instant).minusHours ageInHours) := by
  cases alike
  rw [localNow_eq_shifted offset offset', shifted_minusHours, shifted_isBefore]

theorem stale_iff {instant ageInHours : Int}
    (agree : ActivationsAgree offset offset' s instant ageInHours)
    (alike : Alike (offset' - offset) s t) (trainId : String) (ta ta' : TrainActivation)
    (found : IMap.get s.activations trainId = some ta)
    (found' : IMap.get t.activations trainId = some ta') :
    HzTrainActivationRepo.Stale (localNow offset instant) ageInHours ta ↔
      HzTrainActivationRepo.Stale (localNow offset' instant) ageInHours ta' := by
  have same := alike.activations.rel found found'
  have age := age_alike instant ageInHours same
  have schedule : ta'.schedule = ta.schedule := by rw [same]
  rw [HzTrainActivationRepo.Stale, HzTrainActivationRepo.Stale, age, schedule]
  cases young : ta.timestamp.isBefore ((localNow offset instant).minusHours ageInHours) with
  | true => simp
  | false =>
    refine or_congr Iff.rfl (exists_congr fun departure => and_congr_right fun departs => ?_)
    rw [agree trainId ta found young departure departs]

theorem pass_completes_iff (alike : Alike (offset' - offset) s t) (instant ageInHours : Int)
    {values values' : List TrainActivation}
    (snapshot : (values : Multiset _) = IMap.values s.activations)
    (snapshot' : (values' : Multiset _) = IMap.values t.activations) :
    (∃ map, s.activations.evictOlderThan (localNow offset instant) ageInHours values = .ok map) ↔
      ∃ map, t.activations.evictOlderThan
        (localNow offset' instant) ageInHours values' = .ok map := by
  simp only [HzTrainActivationRepo.evictOlderThan_completes, ← Multiset.mem_coe, snapshot,
    snapshot']
  refine alike.activations.forall_values fun ta ta' same => ?_
  have schedule : ta'.schedule = ta.schedule := by rw [same]
  rw [age_alike instant ageInHours same, schedule]

theorem evictActivations_alike (keyed : KeyedStores s) (keyed' : KeyedStores t)
    (alike : Alike (offset' - offset) s t)
    {instant ageInHours : Int} (agree : ActivationsAgree offset offset' s instant ageInHours)
    {values values' : List TrainActivation}
    (stepped : s.step repos (.evictActivations (localNow offset instant) ageInHours values) =
      some s')
    (stepped' : t.step repos (.evictActivations (localNow offset' instant) ageInHours values') =
      some t') :
    Alike (offset' - offset) s' t' := by
  obtain ⟨snapshot, ⟨throws, rfl⟩ | ⟨activations, evicted, rfl⟩⟩ :=
    State.step_evictActivations stepped
  · -- a selection that throws evicts nothing, and then the other one throws as well
    obtain ⟨snapshot', ⟨_, rfl⟩ | ⟨activations, evicted, rfl⟩⟩ :=
      State.step_evictActivations stepped'
    · exact alike
    · exact absurd ((pass_completes_iff alike instant ageInHours snapshot snapshot').mpr
        ⟨_, evicted⟩) throws
  · obtain ⟨snapshot', ⟨throws, rfl⟩ | ⟨activations', evicted', rfl⟩⟩ :=
      State.step_evictActivations stepped'
    · exact absurd ((pass_completes_iff alike instant ageInHours snapshot snapshot').mp
        ⟨_, evicted⟩) throws
    · refine { alike with activations := ?_ }
      exact alike.activations.remove (fun _ _ =>
        HzTrainActivationRepo.get_evictOlderThan keyed.1 snapshot evicted)
        (fun _ _ => HzTrainActivationRepo.get_evictOlderThan keyed'.1 snapshot' evicted')
          (stale_iff agree alike)

theorem alike_step (keyed : KeyedStores s) (keyed' : KeyedStores t)
    (alike : Alike (offset' - offset) s t)
    {event : Event} {action action' : Action} (carried : CarriesOut offset event action)
    (carried' : CarriesOut offset' event action') (agree : ZonesAgree offset offset' s t event)
    (stepped : s.step repos action = some s') (stepped' : t.step repos action' = some t') :
    Alike (offset' - offset) s' t' := by
  cases event with
  | sendMessage instant msg =>
    cases carried
    cases carried'
    cases stepped
    cases stepped'
    rw [localNow_eq_shifted offset offset']
    exact handle_alike repos alike _ msg
  | process =>
    obtain ⟨record, rfl⟩ := carried
    obtain ⟨record', rfl⟩ := carried'
    exact process_alike alike stepped stepped'
  | evictMovements instant ageInHours =>
    obtain ⟨values, rfl⟩ := carried
    obtain ⟨values', rfl⟩ := carried'
    obtain ⟨snapshot, rfl⟩ := State.step_evictMovements stepped
    obtain ⟨snapshot', rfl⟩ := State.step_evictMovements stepped'
    exact { alike with
      movements := evictMovements_alike keyed keyed' alike agree snapshot snapshot' }
  | evictActivations instant ageInHours =>
    obtain ⟨values, rfl⟩ := carried
    obtain ⟨values', rfl⟩ := carried'
    exact evictActivations_alike keyed keyed' alike agree stepped stepped'

theorem ZoneRuns.keyed (runs : ZoneRuns repos offset offset' s t) :
    KeyedStores s ∧ KeyedStores t := by
  obtain ⟨⟨trace, reached⟩, trace', reached'⟩ := runs.both_runs
  exact ⟨keyedStores_run reached, keyedStores_run reached'⟩

theorem ZoneRuns.alike (runs : ZoneRuns repos offset offset' s t) :
    Alike (offset' - offset) s t := by
  apply runs.invariant (Alike (offset' - offset)) (alike_empty _)
  intro s t s' t' action action' earlier alike pair stepped stepped'
  obtain ⟨event, carried, carried', agree⟩ := pair
  obtain ⟨keyed, keyed'⟩ := ZoneRuns.keyed earlier
  exact alike_step keyed keyed' alike carried carried' agree stepped stepped'

theorem exists_step (alike : Alike (offset' - offset) s t) {event : Event} {action : Action}
    (carried : CarriesOut offset event action) (stepped : s.step repos action = some s') :
    ∃ action', CarriesOut offset' event action' ∧ (t.step repos action').isSome := by
  cases event with
  | sendMessage instant msg => exact ⟨_, rfl, rfl⟩
  | process =>
    obtain ⟨record, rfl⟩ := carried
    obtain ⟨next, located, _⟩ := State.step_process stepped
    obtain ⟨record', next', _, sameMovement⟩ :=
      exists_of_rel_some (next ▸ rel_getElem? alike.topic s.position)
    -- the record in the other zone has its location whenever this one has
    have located' : record'.value.currentLocation.isSome := by
      obtain same | same := sameMovement
      · rw [same]
        exact located
      · rw [same]
        exact located
    rw [← alike.position] at next'
    refine ⟨.process record', ⟨record', rfl⟩, ?_⟩
    rw [State.step, if_pos next', TrainMovementProcessor.process_eq_ok.mpr ⟨located', rfl⟩]
    rfl
  | evictMovements instant ageInHours =>
    obtain ⟨values', snapshot'⟩ : ∃ values : List TrainMovement,
        (values : Multiset _) = IMap.values t.movements :=
      Quot.exists_rep _
    refine ⟨_, ⟨values', rfl⟩, ?_⟩
    rw [State.step, if_pos snapshot']
    rfl
  | evictActivations instant ageInHours =>
    obtain ⟨values', snapshot'⟩ : ∃ values : List TrainActivation,
        (values : Multiset _) = IMap.values t.activations :=
      Quot.exists_rep _
    refine ⟨_, ⟨values', rfl⟩, ?_⟩
    rw [State.step, if_pos snapshot']
    split <;> rfl

end Steps

/-! ## Evicted movements -/

def taken (map : HzTrainMovementRepo) (now : LocalDateTime) (ageInHours : Int)
    (values : List TrainMovement)
    (trainId : String) : Option TrainMovement :=
  match IMap.get (map.evictOlderThan now ageInHours values) trainId with
  | some _ => none
  | none => IMap.get map trainId

/-- A pass at one instant takes the same movements in both zones, up to the clock's stamp. -/
def EvictsSame (offset offset' : Int) (s t : State) (instant ageInHours : Int)
    (values values' : List TrainMovement) : Prop :=
  ∀ trainId, Option.Rel (AlikeMovement (offset' - offset))
    (taken s.movements (localNow offset instant) ageInHours values trainId)
    (taken t.movements (localNow offset' instant) ageInHours values' trainId)

theorem taken_eq {map : HzTrainMovementRepo} (keyed : IMap.Keyed TrainMovement.trainId map)
    {values : List TrainMovement}
    (snapshot : (values : Multiset _) = IMap.values map) (now : LocalDateTime) (ageInHours : Int)
    (trainId : String) :
    taken map now ageInHours values trainId =
      (IMap.get map trainId).filter fun tm => tm.timestamp.isBefore
        (now.minusHours ageInHours) := by
  have remains : ∀ tm, IMap.get (map.evictOlderThan now ageInHours values) trainId = some tm ↔ _ :=
    fun tm => HzTrainMovementRepo.get_evictOlderThan keyed snapshot
  unfold taken
  cases left : IMap.get (map.evictOlderThan now ageInHours values) trainId with
  | some tm =>
    obtain ⟨found, young⟩ := (remains tm).mp left
    rw [found, Option.filter_some, if_neg young]
  | none =>
    cases found : IMap.get map trainId with
    | none => rfl
    | some tm =>
      have old : tm.timestamp.isBefore (now.minusHours ageInHours) = true := by
        by_contra young
        rw [(remains tm).mpr ⟨found, young⟩] at left
        cases left
      rw [Option.filter_some, if_pos old]

theorem evictsSame_iff {offset offset' : Int} {s t : State} (keyed : KeyedStores s)
    (keyed' : KeyedStores t)
    (alike : Alike (offset' - offset) s t) (instant ageInHours : Int)
    {values values' : List TrainMovement}
    (snapshot : (values : Multiset _) = IMap.values s.movements)
    (snapshot' : (values' : Multiset _) = IMap.values t.movements) :
    EvictsSame offset offset' s t instant ageInHours values values' ↔
      MovementsAgree offset offset' s t instant ageInHours := by
  simp only [EvictsSame, taken_eq keyed.2 snapshot, taken_eq keyed'.2 snapshot']
  constructor
  · intro same trainId tm tm' found found' sameTime
    have here := same trainId
    rw [found, found', Option.filter_some, Option.filter_some, sameTime] at here
    rw [← isBefore_eq_iff]
    -- a movement taken in one zone only is related to nothing
    cases first : tm.timestamp.isBefore ((localNow offset instant).minusHours ageInHours) <;>
      cases second : tm.timestamp.isBefore ((localNow offset' instant).minusHours ageInHours) <;>
      rw [first, second] at here <;> first | rfl | cases here
  · intro agree trainId
    cases found : IMap.get s.movements trainId with
    | none =>
      have absent := alike.movements trainId
      rw [found] at absent
      generalize IMap.get t.movements trainId = other at absent
      cases absent
      exact .none
    | some tm =>
      obtain ⟨tm', found', here⟩ := alike.movements.get found
      have both := old_iff agree alike trainId tm tm' found found'
      rw [found', Option.filter_some, Option.filter_some]
      by_cases old : tm.timestamp.isBefore ((localNow offset instant).minusHours ageInHours) = true
      · rw [if_pos old, if_pos (both.mp old)]
        exact .some here
      · rw [if_neg old, if_neg (mt both.mpr old)]
        exact .none

/-! ## Departures -/

def candidate (t : TrainActivation) : Except JavaException (Option TrainDeparture) := do
  let td ← toDeparture t
  pure (some td)

def candidateAt (station : Station) (t : TrainActivation) :
    Except JavaException (Option TrainDeparture) := do
  let origin ← nonNull t.schedule.origin
  let description ← nonNull origin.description
  if some description = station.name then candidate t else pure none

/-- Both searches keep the candidates before their cut-off. -/
def cut (candidates : TrainActivation → Except JavaException (Option TrainDeparture))
    (cutOff : LocalDateTime)
    (t : TrainActivation) : Except JavaException (Option TrainDeparture) := do
  let found ← candidates t
  pure (found.filter fun td => td.scheduledDeparture.isBefore cutOff)

/-- No candidate that the search looks at lies between the two cut-offs. -/
def DeparturesAgree (candidates : TrainActivation → Except JavaException (Option TrainDeparture))
    (cutOff cutOff' : LocalDateTime) (maxResults : Int) (values : List TrainActivation) : Prop :=
  ∀ ta, Pulled (cut candidates cutOff) maxResults.toNat values ta →
    ∀ td, candidates ta = .ok (some td) → ¬ Between cutOff cutOff' td.scheduledDeparture

theorem departureBefore_eq_cut (cutOff : LocalDateTime) :
    departureBefore cutOff = cut candidate cutOff := by
  funext t
  rw [departureBefore, cut, candidate]
  cases toDeparture t with
  | ok td => simp [Option.filter_some]
  | error thrown => rfl

theorem departureFrom_eq_cut (station : Station) (cutOff : LocalDateTime) :
    departureFrom station cutOff = cut (candidateAt station) cutOff := by
  funext t
  rw [departureFrom, cut, candidateAt, departureBefore_eq_cut]
  cases t.schedule.origin with
  | none => rfl
  | some origin =>
    cases described : origin.description with
    | none => simp [described]
    | some description =>
      by_cases here : some description = station.name
      · simp [described, ← here, cut]
      · simp [described, here]

section Searches

variable {candidates : TrainActivation → Except JavaException (Option TrainDeparture)}
variable {cutOff cutOff' : LocalDateTime} {maxResults : Int} {values values' : List TrainActivation}

theorem cut_eq_some {t : TrainActivation} {td : TrainDeparture} :
    cut candidates cutOff t = .ok (some td) ↔
      candidates t = .ok (some td) ∧ td.scheduledDeparture.isBefore cutOff = true := by
  rw [cut]
  cases candidates t with
  | error thrown => simp
  | ok found => simp [Option.filter_eq_some_iff]

theorem cut_eq_cut_iff {t : TrainActivation} :
    cut candidates cutOff t = cut candidates cutOff' t ↔
      ∀ td, candidates t = .ok (some td) → ¬ Between cutOff cutOff' td.scheduledDeparture := by
  rw [cut, cut]
  cases candidates t with
  | error thrown => simp
  | ok found =>
    cases found with
    | none => simp
    | some td =>
      simp only [ok_bind, pure_eq_ok, Except.ok.injEq, Option.some.injEq, forall_eq',
        ← isBefore_eq_iff,
        Option.filter_some]
      cases td.scheduledDeparture.isBefore cutOff <;>
        cases td.scheduledDeparture.isBefore cutOff' <;> simp

theorem limitSorted_congr (agree : DeparturesAgree candidates cutOff cutOff' maxResults values) :
    limitSorted (cut candidates cutOff) maxResults values = limitSorted
      (cut candidates cutOff') maxResults values := by
  rw [limitSorted, limitSorted, limitE_congr fun ta pulled => cut_eq_cut_iff.mpr (agree ta pulled)]

/-- A search that returns the same for both cut-offs has not looked at a candidate between them. -/
theorem agree_of_limitSorted {found : List TrainDeparture}
    (completed : limitSorted (cut candidates cutOff) maxResults values = .ok found)
    (completed' : limitSorted (cut candidates cutOff') maxResults values = .ok found) :
    DeparturesAgree candidates cutOff cutOff' maxResults values := by
  have notNegative : 0 ≤ maxResults := by
    by_contra negative
    rw [limitSorted, if_pos (Int.not_le.mp negative)] at completed
    cases completed
  rw [limitSorted_eq notNegative] at completed completed'
  obtain ⟨taken, limited, sorted⟩ := bind_eq_ok.mp completed
  obtain ⟨taken', limited', sorted'⟩ := bind_eq_ok.mp completed'
  -- sorted alike, the elements handed on are the same up to their order
  have sameSorted : taken.insertionSort SoonestFirst = taken'.insertionSort SoonestFirst :=
    Except.ok.inj (sorted.trans sorted'.symm)
  have same : taken.Perm taken' :=
    (List.perm_insertionSort _ taken).symm.trans (sameSorted ▸ List.perm_insertionSort _ taken')
  intro ta pulled
  -- both searches read a candidate alike, and drop it for its time alone
  have alike : cut candidates cutOff ta = cut candidates cutOff' ta := by
    refine agree_of_limitE ?_ ?_ ?_ limited limited' same pulled
    · intro a td td' kept kept'
      have read := (cut_eq_some.mp kept).1.symm.trans (cut_eq_some.mp kept').1
      exact Option.some.inj (Except.ok.inj read)
    · intro a a' td kept kept'
      exact cut_eq_some.mpr ⟨(cut_eq_some.mp kept).1, (cut_eq_some.mp kept').2⟩
    · intro a a' td kept kept'
      exact cut_eq_some.mpr ⟨(cut_eq_some.mp kept).1, (cut_eq_some.mp kept').2⟩
  exact cut_eq_cut_iff.mp alike

theorem limitSorted_alike {shift : Int}
    (stampless : ∀ ta timestamp, candidates { ta with timestamp } = candidates ta)
    (alike : List.Forall₂ (AlikeActivation shift) values values') :
    limitSorted (cut candidates cutOff) maxResults values = limitSorted
      (cut candidates cutOff) maxResults values' := by
  have same :
      List.Forall₂ (fun ta ta' => cut candidates cutOff ta = cut candidates cutOff ta') values
      values' := by
    refine alike.imp fun ta ta' here => ?_
    rw [here, cut, cut, stampless ta (shifted shift ta.timestamp)]
  rw [limitSorted, limitSorted, limitE_forall₂ same]

end Searches

/-! ## Two zones -/

/-- The searches do the same where the condition holds, and return the same departures only there.
    -/
def SameExactlyIf (condition : Prop) (search search' : Except JavaException (List TrainDeparture)) :
    Prop :=
  (condition → search' = search) ∧ ∀ found, search = .ok found → search' = .ok found → condition

theorem sameExactlyIf_limitSorted
    {candidates : TrainActivation → Except JavaException (Option TrainDeparture)}
    (stampless : ∀ ta timestamp, candidates { ta with timestamp } = candidates ta) {shift : Int}
    {values values' : List TrainActivation}
    (alike : List.Forall₂ (AlikeActivation shift) values values')
    (cutOff cutOff' : LocalDateTime) (maxResults : Int) :
    SameExactlyIf (DeparturesAgree candidates cutOff cutOff' maxResults values)
      (limitSorted (cut candidates cutOff) maxResults values)
        (limitSorted (cut candidates cutOff') maxResults values') := by
  rw [← limitSorted_alike stampless alike]
  exact ⟨fun agree => (limitSorted_congr agree).symm, fun found => agree_of_limitSorted⟩

/-- After any two runs on the same events, a pass takes the same movements in both zones if and only
    if none that its message stamped lies between the two cut-offs, and the searches over stores met
    in one order return the same departures if and only if they look at none between theirs. -/
theorem zones_show_the_same {repos : ReferenceRepos} {offset offset' : Int} {s t : State}
    (runs : ZoneRuns repos offset offset' s t) (instant : Int) :
    (∀ (ageInHours : Int) (values values' : List TrainMovement), (values : Multiset _) =
      IMap.values s.movements →
      (values' : Multiset _) = IMap.values t.movements →
        (EvictsSame offset offset' s t instant ageInHours values values' ↔
          MovementsAgree offset offset' s t instant ageInHours)) ∧
    ∀ (values values' : List TrainActivation), (values : Multiset _) = IMap.values s.activations →
      (values' : Multiset _) = IMap.values t.activations → values.map (·.trainId) = values'.map
        (·.trainId) →
        ∀ (station : Station) (maxResults : Int),
          SameExactlyIf
            (DeparturesAgree candidate ((localNow offset instant).plusMinutes 180)
              ((localNow offset' instant).plusMinutes 180) maxResults values)
            (departuresWithinOneHour values (localNow offset instant) maxResults)
            (departuresWithinOneHour values' (localNow offset' instant) maxResults) ∧
          SameExactlyIf
            (DeparturesAgree (candidateAt station) ((localNow offset instant).plusMinutes 60)
              ((localNow offset' instant).plusMinutes 60) maxResults values)
            (departuresWithinOneHourAt values (localNow offset instant) station maxResults)
            (departuresWithinOneHourAt values' (localNow offset' instant) station maxResults) := by
  obtain ⟨keyed, keyed'⟩ := runs.keyed
  have alike := runs.alike
  constructor
  · intro ageInHours values values' snapshot snapshot'
    exact evictsSame_iff keyed keyed' alike instant ageInHours snapshot snapshot'
  · intro values values' snapshot snapshot' sameOrder station maxResults
    -- in the same order of the trains the snapshots are alike entry by entry
    have listed : List.Forall₂ (AlikeActivation (offset' - offset)) values values' := by
      refine alike.activations.forall₂ keyed.1 keyed'.1 ?_ ?_ sameOrder
      · intro ta member
        rw [← snapshot]
        exact member
      · intro ta member
        rw [← snapshot']
        exact member
    simp only [departuresWithinOneHour, departuresWithinOneHourAt, departureBefore_eq_cut,
      departureFrom_eq_cut]
    exact ⟨sameExactlyIf_limitSorted (fun _ _ => rfl) listed _ _ maxResults,
      sameExactlyIf_limitSorted (fun _ _ => rfl) listed _ _ maxResults⟩

section Sample

open Sample

/-- The instant at which clocks at UTC read this time of the sample's day. -/
def utc (hour minute : Nat) : Int := (clock hour minute).epochMilli

def oneHour : Int := millisPerHour

/-- The train is activated at nine, moves at twenty to eleven, and its movement is processed. -/
def events : List Event :=
  [.sendMessage (utc 9 0) activationMessage, .sendMessage (utc 10 41) movementMessage, .process]

def actions (offset : Int) : List Action :=
  [.sendMessage (localNow offset (utc 9 0)) activationMessage,
    .sendMessage (localNow offset (utc 10 41)) movementMessage, .process record]

theorem actions_carry_out (offset : Int) :
    List.Forall₂ (CarriesOut offset) events (actions offset) :=
  .cons rfl (.cons rfl (.cons ⟨record, rfl⟩ .nil))

def stampedIn (offset : Int) : TrainActivation :=
  { activation with timestamp := localNow offset (utc 9 0) }

/-- What is stored after them: the activation has the clock's stamp, the movement its message's. -/
def shownIn (offset : Int) : State :=
  { activations := HzTrainActivationRepo.put ∅ (stampedIn offset)
    movements := HzTrainMovementRepo.put ∅ movement
    topic := [record], position := 1 }

/-- At noon, the movement of twenty to eleven is two hours old one hour ahead of UTC, but not at
    UTC. -/
theorem movement_is_evicted_in_one_zone :
    List.Forall₂ (CarriesOut 0) events (actions 0) ∧ List.Forall₂ (CarriesOut oneHour) events
      (actions oneHour) ∧
      run (State.step refData) .empty (actions 0) = some (shownIn 0) ∧
      run (State.step refData) .empty (actions oneHour) = some (shownIn oneHour) ∧
      ([movement] : Multiset TrainMovement) = IMap.values (shownIn 0).movements ∧
      ([movement] : Multiset TrainMovement) = IMap.values (shownIn oneHour).movements ∧
      taken (shownIn 0).movements (localNow 0 (utc 12 0)) 2 [movement] "871A01MN18" = none ∧
      taken (shownIn oneHour).movements (localNow oneHour (utc 12 0)) 2 [movement] "871A01MN18" =
        some movement ∧
      ¬ EvictsSame 0 oneHour (shownIn 0) (shownIn oneHour) (utc 12 0) 2 [movement] [movement] := by
  have kept : taken (shownIn 0).movements (localNow 0 (utc 12 0)) 2 [movement] "871A01MN18" =
      none := by decide
  have gone :
      taken (shownIn oneHour).movements (localNow oneHour (utc 12 0)) 2 [movement] "871A01MN18" =
      some movement := by decide
  refine ⟨actions_carry_out 0, actions_carry_out oneHour, by decide, by decide, by decide,
    by decide, kept, gone, ?_⟩
  intro same
  have here := same "871A01MN18"
  rw [kept, gone] at here
  cases here

theorem sample_runs : ZoneRuns refData 0 oneHour (shownIn 0) (shownIn oneHour) := by
  have activated :
      ZoneRuns refData 0 oneHour { shownIn 0 with movements := ∅, topic := [], position := 0 }
      { shownIn oneHour with movements := ∅, topic := [], position := 0 } :=
    .step .start ⟨.sendMessage (utc 9 0) activationMessage, rfl, rfl, trivial⟩ (by decide)
      (by decide)
  have sent : ZoneRuns refData 0 oneHour { shownIn 0 with movements := ∅, position := 0 }
      { shownIn oneHour with movements := ∅, position := 0 } :=
    .step activated ⟨.sendMessage (utc 10 41) movementMessage, rfl, rfl, trivial⟩ (by decide)
      (by decide)
  exact .step sent ⟨.process, ⟨record, rfl⟩, ⟨record, rfl⟩, trivial⟩ (by decide) (by decide)

/-- The rule at two o'clock, when the movement is older than both cut-offs, and at a search that
    finds the departure before both of its own. -/
theorem both_zones_agree_at_two :
    EvictsSame 0 oneHour (shownIn 0) (shownIn oneHour) (utc 14 0) 2 [movement] [movement] ∧
      departuresWithinOneHour [stampedIn oneHour] (localNow oneHour (utc 14 0)) 1 =
        departuresWithinOneHour [stampedIn 0] (localNow 0 (utc 14 0)) 1 := by
  obtain ⟨passes, searches⟩ := zones_show_the_same sample_runs (utc 14 0)
  constructor
  · refine (passes 2 [movement] [movement] (by decide) (by decide)).mpr ?_
    intro trainId tm tm' found _ _
    have only : tm = movement := by
      simp only [shownIn, HzTrainMovementRepo.put, IMap.get_set, IMap.get_empty] at found
      split at found
      · exact (Option.some.inj found).symm
      · cases found
    rw [only, ← isBefore_eq_iff]
    decide
  · refine (searches [stampedIn 0] [stampedIn oneHour] (by decide) (by decide) rfl
      ⟨none, none⟩ 1).1.1 ?_
    intro ta pulled td read
    have only : ta = stampedIn 0 := by
      cases pulled with
      | first => rfl
      | afterDropped _ later => cases later
      | afterKept _ later => cases later
    rw [only] at read
    cases read
    rw [← isBefore_eq_iff]
    decide

end Sample

end TrainWatch.Verified.Zones
