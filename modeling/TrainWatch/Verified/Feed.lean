import TrainWatch.Movement.TrustFeed
import TrainWatch.Verified.Batches
import TrainWatch.Verified.PlainClients
import TrainWatch.Verified.Wire

/-! # From the bytes of the feed to the pipeline

Whatever the feed writes and however it is cut, the messages that the producer handles are
those in the bodies of the topic's frames, each body in its order and up to the first
message that throws; and what they make of the stores and the topic is a run of the
pipeline that handles the same messages.
-/

namespace TrainWatch.Verified.Feed

open TrainWatch.Java TrainWatch.RefData TrainWatch.Library TrainWatch.Stomp TrainWatch.Movement
open TrainWatch.Movement.TrustFeed
open TrainWatch.Verified.PlainClients

section Feed

variable {repos : ReferenceRepos} {parseJsonArray : TrustMessageParser}
variable {s s' : TrustFeed} {trace : List TrustFeed.Action} {username password : String}

/-- The messages of a body that are handled: up to the first that throws, with it, or up to a null.
    -/
def untilThrow (repos : ReferenceRepos) :
    List (Option TrustMovementMessage) → List TrustMovementMessage
  | [] => []
  | none :: _ => []
  | some msg :: rest => if Batches.throws repos msg then [msg] else msg :: untilThrow repos rest

def onTopic (call : Call) : Bool :=
  call.command = .message && call.headers.isSome && call.destination = some trainMovementTopic

def messagesOf (repos : ReferenceRepos) (parseJsonArray : TrustMessageParser) (call : Call) :
    List TrustMovementMessage :=
  untilThrow repos ((parseJsonArray call.body).getD [])

def sentBy (trace : List Movement.Action) : List TrustMovementMessage :=
  trace.filterMap fun
    | .sendMessage _ msg => some msg
    | _ => none

/-! ## The receiver's side -/

def onWire : TrustFeed.Action → Option (ConnectionAction UInt8)
  | .write piece => some (.send piece)
  | .arrive count => some (.arrive count)
  | .round => some .read
  | _ => none

def written (trace : List TrustFeed.Action) : List UInt8 := Connection.sent (trace.filterMap onWire)

/-- Without error listeners only the listeners of a channel are told anything. -/
theorem reaction_of_noErrorListeners {client : StompClient Unit}
    (noErrorListeners : client.errorListeners = []) (call : Call) :
    (client.receive call).2 = .told ((client.listeners call.destination).getD []) ∧
      hears client.listeners call = true ∨
      (∀ listeners, (client.receive call).2 ≠ .told listeners) ∧
        hears client.listeners call = false := by
  cases command : call.command with
  | message =>
    cases headers : call.headers with
    | none => exact .inr ⟨by simp [StompClient.receive, command, headers], by simp [hears, headers]⟩
    | some h =>
      cases listed : client.listeners call.destination with
      | none =>
        exact .inr ⟨by simp [StompClient.receive, command, headers, listed],
          by simp [hears, listed]⟩
      | some listeners =>
        exact .inl ⟨by simp [StompClient.receive, command, headers, listed],
          by simp [hears, command, headers, listed]⟩
  | receipt =>
    right
    cases headers : call.headers with
    | none => exact ⟨by simp [StompClient.receive, command, headers], by simp [hears, command]⟩
    | some h => exact ⟨by simp [StompClient.receive, command, headers], by simp [hears, command]⟩
  | error =>
    exact .inr ⟨by simp [StompClient.receive, command, noErrorListeners],
      by simp [hears, command]⟩
  | _ => exact .inr ⟨by simp [StompClient.receive, command], by simp [hears, command]⟩

def bodies (parseJsonArray : TrustMessageParser) (listeners : Option String → Option (List Unit))
    (call : Call) :
    List (List (Option TrustMovementMessage)) :=
  if hears listeners call then ((listeners call.destination).getD []).map fun _ =>
    (parseJsonArray call.body).getD []
  else []

theorem pending_receive (s : TrustFeed) (noErrorListeners : s.session.client.errorListeners = [])
    (call : Call) :
    (s.receive parseJsonArray call).pending = s.pending ++
    bodies parseJsonArray s.session.client.listeners call := by
  obtain ⟨told, hears⟩ | ⟨notTold, silent⟩ := reaction_of_noErrorListeners noErrorListeners call
  · rw [TrustFeed.receive, bodies, if_pos hears, told]
  · rw [bodies, silent, if_neg Bool.false_ne_true, TrustFeed.receive]
    split
    · rename_i listeners told
      exact absurd told (notTold listeners)
    · rfl

/-- What the calls of one round change. -/
structure Received (parseJsonArray : TrustMessageParser) (s s' : TrustFeed) (calls : List Call) :
    Prop where
  listeners : s'.session.client.listeners = s.session.client.listeners
  errorListeners : s'.session.client.errorListeners = []
  pending :
    s'.pending = s.pending ++ calls.flatMap (bodies parseJsonArray s.session.client.listeners)
  login : s'.login = s.login
  handled : s'.handled = s.handled
  system : s'.system = s.system

theorem received_all (calls : List Call) (s : TrustFeed)
    (noErrorListeners : s.session.client.errorListeners = []) :
    Received parseJsonArray s (calls.foldl (TrustFeed.receive parseJsonArray) s) calls := by
  induction calls generalizing s with
  | nil => exact ⟨rfl, noErrorListeners, by simp, rfl, rfl, rfl⟩
  | cons call calls inductionHypothesis =>
    have takes : Takes s.session (s.receive parseJsonArray call).session [call] :=
      takes_receive s.session call
    obtain ⟨listeners, errorListeners, pending, login, handled, system⟩ :=
      inductionHypothesis (s.receive parseJsonArray call)
        (takes.errorListeners.trans noErrorListeners)
    refine ⟨listeners.trans takes.listeners, errorListeners, ?_, login, handled, system⟩
    rw [List.foldl_cons, pending, pending_receive s noErrorListeners, takes.listeners,
      List.flatMap_cons, List.append_assoc]

theorem connection_receives (calls : List Call) (s : TrustFeed) :
    (calls.foldl (TrustFeed.receive parseJsonArray) s).connection = s.connection := by
  induction calls generalizing s with
  | nil => rfl
  | cons call calls inductionHypothesis =>
      rw [List.foldl_cons, inductionHypothesis, TrustFeed.receive]

def listenersOf (login : Login) : Option String → Option (List Unit) :=
  match login with
  | .subscribed => Function.update (fun _ => none) (some trainMovementTopic) (some [()])
  | _ => fun _ => none

theorem bodies_of_subscribed (call : Call) : bodies parseJsonArray (listenersOf .subscribed) call =
    if onTopic call then [(parseJsonArray call.body).getD []] else [] := by
  by_cases here : call.destination = some trainMovementTopic
  · simp [bodies, listenersOf, hears, onTopic, here]
  · simp [bodies, listenersOf, hears, onTopic, here]

theorem flatMap_bodies_of_subscribed (calls : List Call) :
    calls.flatMap (bodies parseJsonArray (listenersOf .subscribed)) =
    (calls.filter onTopic).map fun call => (parseJsonArray call.body).getD [] := by
  induction calls with
  | nil => rfl
  | cons call calls inductionHypothesis =>
    rw [List.flatMap_cons, bodies_of_subscribed, inductionHypothesis]
    cases here : onTopic call with
    | true => simp [here]
    | false => simp [here]

theorem listenersOf_of_ne {login : Login} (notYet : login ≠ .subscribed) :
    listenersOf login = fun _ => none := by
  cases login with
  | subscribed => exact absurd rfl notYet
  | waiting => rfl
  | refused => rfl

theorem bodies_of_not_subscribed {login : Login} (notYet : login ≠ .subscribed) (call : Call) :
    bodies parseJsonArray (listenersOf login) call = [] := by
  simp [listenersOf_of_ne notYet, bodies, hears]

/-! ## What a step does -/

theorem sendMessage_cases {now : LocalDateTime}
    (stepped : s.step repos parseJsonArray (.sendMessage now) = some s') :
    (∃ bodies, s.pending = [] :: bodies ∧ s' = { s with pending := bodies }) ∨
    (∃ rest bodies, s.pending = (none :: rest) :: bodies ∧ s' = { s with pending := bodies }) ∨
    ∃ msg rest bodies, s.pending = (some msg :: rest) :: bodies ∧
      s' = { s with system := s.system.handle repos now msg, handled := s.handled ++ [msg]
                    pending := if Batches.throws repos msg then bodies else rest :: bodies } := by
  simp only [TrustFeed.step] at stepped
  split at stepped
  · cases stepped
  · rename_i bodies pending
    cases stepped
    exact .inl ⟨bodies, pending, rfl⟩
  · rename_i rest bodies pending
    cases stepped
    exact .inr (.inl ⟨rest, bodies, pending, rfl⟩)
  · rename_i msg rest bodies pending
    refine .inr (.inr ⟨msg, rest, bodies, pending, ?_⟩)
    split at stepped
    · rename_i effect sent
      cases stepped
      -- the message is handled exactly when it does not throw
      have good : Batches.throws repos msg = false := by
        cases bad : Batches.throws repos msg with
        | false => rfl
        | true =>
          obtain ⟨thrown, threw⟩ := Batches.sendMessage_throws_iff.mpr bad
          rw [sent] at threw
          cases threw
      rw [State.handle, sent, good, if_neg Bool.false_ne_true]
    · rename_i thrown sent
      cases stepped
      have bad : Batches.throws repos msg = true := Batches.sendMessage_throws_iff.mp ⟨thrown, sent⟩
      rw [State.handle, sent, bad, if_pos rfl]

theorem step_cases {action : TrustFeed.Action}
    (stepped : s.step repos parseJsonArray action = some s') :
    (∃ connection network, onWire action = some network ∧
      s.connection.step Receiver.reader network = some connection ∧
      connection.handed = s.connection.handed ∧ s' = { s with connection := connection }) ∨
    (∃ connection calls, action = .round ∧ s.pending = [] ∧ s.login ≠ .refused ∧
      s.connection.step Receiver.reader .read = some connection ∧
        connection.handed = s.connection.handed ++ calls ∧
      s' = calls.foldl (TrustFeed.receive parseJsonArray) { s with connection := connection }) ∨
    (action = .login ∧ s.login = .waiting ∧
      (s' = { s with
          session := s.session.use (.subscribe (some trainMovementTopic) (some ()) none)
          login := .subscribed } ∨
        ∃ login, login ≠ .subscribed ∧
          s' = { s with session := s.session.use .nextError, login := login })) ∨
    (∃ now, action = .sendMessage now) ∨
    ∃ other system, action = .others other ∧ (∀ now msg, other ≠ .sendMessage now msg) ∧
      s.system.step repos other = some system ∧ s' = { s with system := system } := by
  cases action with
  | write piece =>
    simp only [TrustFeed.step] at stepped
    obtain ⟨connection, sent, same⟩ := Option.map_eq_some_iff.mp stepped
    refine .inl ⟨connection, _, rfl, sent, ?_, same.symm⟩
    cases sent
    rfl
  | arrive count =>
    simp only [TrustFeed.step] at stepped
    obtain ⟨connection, arrived, same⟩ := Option.map_eq_some_iff.mp stepped
    refine .inl ⟨connection, _, rfl, arrived, ?_, same.symm⟩
    cases arrived
    rfl
  | round =>
    simp only [TrustFeed.step] at stepped
    split at stepped
    · rename_i free
      obtain ⟨connection, read, rfl⟩ := Option.map_eq_some_iff.mp stepped
      obtain ⟨⟨calls, receiver⟩, _, rfl⟩ := Option.map_eq_some_iff.mp read
      refine .inr (.inl ⟨_, calls, rfl, free.1, free.2, read, rfl, ?_⟩)
      rw [List.drop_left]
    · cases stepped
  | login =>
    simp only [TrustFeed.step] at stepped
    split at stepped
    · rename_i waiting
      refine .inr (.inr (.inl ⟨rfl, waiting, ?_⟩))
      split at stepped
      · cases stepped
        exact .inl rfl
      · split at stepped
        · cases stepped
        · -- a non-null error refuses the login, a null one is taken off and the wait goes on
          rename_i error _ _
          cases stepped
          refine .inr ⟨_, ?_, rfl⟩
          cases error <;> simp
    · cases stepped
  | sendMessage now => exact .inr (.inr (.inr (.inl ⟨now, rfl⟩)))
  | others other =>
    simp only [TrustFeed.step] at stepped
    split at stepped
    · cases stepped
    · rename_i notSend
      obtain ⟨system, ran, same⟩ := Option.map_eq_some_iff.mp stepped
      exact .inr (.inr (.inr (.inr ⟨other, system, rfl, notSend, ran, same.symm⟩)))

/-! ## Runs -/

/-- The listener is there once the login is over, nothing has been handled before, and the stores
    are those of a run of the pipeline with the messages handled. -/
structure Listening (repos : ReferenceRepos) (s : TrustFeed) : Prop where
  errorListeners : s.session.client.errorListeners = []
  listeners : s.session.client.listeners = listenersOf s.login
  notYet : s.login ≠ .subscribed → s.pending = [] ∧ s.handled = []
  pipeline : ∃ trace, run (State.step repos) State.empty trace = some s.system ∧
    sentBy trace = s.handled

theorem listening_start : Listening repos (start username password) :=
  ⟨rfl, rfl, fun _ => ⟨rfl, rfl⟩, [], rfl, rfl⟩

theorem listening_step {action : TrustFeed.Action} (listening : Listening repos s)
    (stepped : s.step repos parseJsonArray action = some s') : Listening repos s' := by
  obtain ⟨errorListeners, listeners, notYet, pipeline⟩ := listening
  obtain ⟨_, _, _, _, _, rfl⟩ | ⟨connection, calls, rfl, free, _, _, _, rfl⟩ |
    ⟨rfl, waiting, rfl | ⟨login, notSubscribed, rfl⟩⟩ | ⟨now, rfl⟩ |
    ⟨other, system, rfl, notSend, ran, rfl⟩ := step_cases stepped
  · exact ⟨errorListeners, listeners, notYet, pipeline⟩
  · obtain ⟨listeners', errorListeners', pending', login', handled', system'⟩ :=
      (received_all calls { s with connection := connection } errorListeners : Received
        parseJsonArray _ _ _)
    refine ⟨errorListeners', ?_, fun notSubscribed => ?_, ?_⟩
    · -- a round: before the login no body is pending, since nobody listens to the topic
      rw [listeners', login']
      exact listeners
    · rw [login'] at notSubscribed
      rw [pending', handled']
      refine ⟨?_, (notYet notSubscribed).2⟩
      rw [show s.pending = [] from free, List.nil_append, List.flatMap_eq_nil_iff]
      intro call _
      rw [listeners]
      exact bodies_of_not_subscribed notSubscribed call
    · rw [system', handled']
      exact pipeline
  · refine ⟨errorListeners, ?_, fun notSubscribed => absurd rfl notSubscribed, pipeline⟩
    show Function.update s.session.client.listeners (some trainMovementTopic) _ = _
    rw [listeners, waiting]
    simp [listenersOf]
  · refine ⟨errorListeners, ?_, fun _ => notYet (by simp [waiting]), pipeline⟩
    show s.session.client.listeners = listenersOf login
    rw [listeners, waiting, listenersOf_of_ne notSubscribed]
    rfl
  · obtain ⟨bodies, pending, rfl⟩ | ⟨rest, bodies, pending, rfl⟩ |
      ⟨msg, rest, bodies, pending, rfl⟩ := sendMessage_cases stepped
    · refine ⟨errorListeners, listeners, fun notSubscribed => ?_, pipeline⟩
      rw [(notYet notSubscribed).1] at pending
      cases pending
    · refine ⟨errorListeners, listeners, fun notSubscribed => ?_, pipeline⟩
      rw [(notYet notSubscribed).1] at pending
      cases pending
    · refine ⟨errorListeners, listeners, fun notSubscribed => ?_, ?_⟩
      · rw [(notYet notSubscribed).1] at pending
        cases pending
      · obtain ⟨trace, reached, sent⟩ := pipeline
        refine ⟨trace ++ [.sendMessage now msg], run_snoc_eq_some.mpr ⟨s.system, reached, rfl⟩, ?_⟩
        rw [sentBy, List.filterMap_append, ← sentBy, sent]
        rfl
  · refine ⟨errorListeners, listeners, notYet, ?_⟩
    -- a message handled is one more step of the pipeline, the others are its own steps
    obtain ⟨trace, reached, sent⟩ := pipeline
    refine ⟨trace ++ [other], run_snoc_eq_some.mpr ⟨s.system, reached, ran⟩, ?_⟩
    have silent : sentBy [other] = [] := by
      cases other with
      | sendMessage now msg => exact absurd rfl (notSend now msg)
      | _ => rfl
    rw [sentBy, List.filterMap_append, ← sentBy, ← sentBy, sent, silent, List.append_nil]

/-- What has been handled of what was handed over since the login, and what still will be. -/
structure Follows (repos : ReferenceRepos) (parseJsonArray : TrustMessageParser)
    (before : List Call) (s : TrustFeed) : Prop where
  listening : Listening repos s
  subscribed : s.login = .subscribed
  follows : ∃ after, s.connection.handed = before ++ after ∧
    s.handled ++ s.pending.flatMap (untilThrow repos) = (after.filter onTopic).flatMap
      (messagesOf repos parseJsonArray)

/-- The subscription is the first step with anything to follow. -/
theorem follows_login {action : TrustFeed.Action} (listening : Listening repos s)
    (logsIn : s.step repos parseJsonArray action = some s') (notYet : s.login ≠ .subscribed)
    (subscribed : s'.login = .subscribed) :
    Follows repos parseJsonArray s.connection.handed s' := by
  refine ⟨listening_step listening logsIn, subscribed, [], ?_⟩
  obtain ⟨pending, handled⟩ := listening.notYet notYet
  obtain ⟨_, _, _, _, _, rfl⟩ | ⟨connection, calls, rfl, _, _, _, _, rfl⟩ |
    ⟨rfl, _, rfl | ⟨_, notSubscribed, rfl⟩⟩ |
    ⟨now, rfl⟩ | ⟨_, _, rfl, _, _, rfl⟩ := step_cases logsIn
  · exact absurd subscribed notYet
  · obtain ⟨_, _, _, login, _, _⟩ :=
      (received_all calls { s with connection := connection } listening.errorListeners : Received
        parseJsonArray _ _ _)
    exact absurd (login.symm.trans subscribed) notYet
  · exact ⟨(List.append_nil _).symm, by rw [pending, handled]; rfl⟩
  · exact absurd subscribed notSubscribed
  · rw [TrustFeed.step, pending] at logsIn
    cases logsIn
  · exact absurd subscribed notYet

theorem follows_step {before : List Call} {action : TrustFeed.Action}
    (follows : Follows repos parseJsonArray before s)
    (stepped : s.step repos parseJsonArray action = some s') :
    Follows repos parseJsonArray before s' := by
  obtain ⟨listening, subscribed, after, handed, same⟩ := follows
  have listening' := listening_step listening stepped
  obtain ⟨_, _, _, _, unchanged, rfl⟩ | ⟨connection, calls, rfl, free, _, _, longer, rfl⟩ |
    ⟨rfl, waiting, _⟩ | ⟨now, rfl⟩ |
    ⟨other, system, rfl, _, _, rfl⟩ := step_cases stepped
  · exact ⟨listening', subscribed, after, unchanged.trans handed, same⟩
  · obtain ⟨_, _, pending', login', handled', _⟩ :=
      (received_all calls { s with connection := connection } listening.errorListeners :
        Received parseJsonArray _ _ _)
    refine ⟨listening', login'.trans subscribed, after ++ calls, ?_, ?_⟩
    · rw [connection_receives, longer, handed, List.append_assoc]
    · rw [free, List.flatMap_nil, List.append_nil] at same
      rw [pending', handled', show s.pending = [] from free, List.nil_append]
      show s.handled ++ (calls.flatMap (bodies parseJsonArray s.session.client.listeners)).flatMap
        (untilThrow repos) = _
      rw [listening.listeners, subscribed, flatMap_bodies_of_subscribed, same, List.filter_append,
        List.flatMap_append,
        List.flatMap_map]
      rfl
  · -- there is no second login
    rw [subscribed] at waiting
    cases waiting
  · obtain ⟨bodies, pending, rfl⟩ | ⟨rest, bodies, pending, rfl⟩ |
      ⟨msg, rest, bodies, pending, rfl⟩ := sendMessage_cases stepped
    · rw [pending] at same
      exact ⟨listening', subscribed, after, handed, same⟩
    · rw [pending] at same
      exact ⟨listening', subscribed, after, handed, same⟩
    · refine ⟨listening', subscribed, after, handed, ?_⟩
      rw [pending, List.flatMap_cons, untilThrow] at same
      rw [← same]
      -- a message that throws drops the rest of its body
      cases bad : Batches.throws repos msg with
      | true => simp
      | false => simp
  · exact ⟨listening', subscribed, after, handed, same⟩

theorem connection_run
    (reached : run (TrustFeed.step repos parseJsonArray) (start username password) trace = some s) :
    run (Connection.step Receiver.reader) (Connection.start Receiver.idle)
      (trace.filterMap onWire) = some s.connection := by
  refine run_history (fun history s =>
    run (Connection.step Receiver.reader) (Connection.start Receiver.idle)
    (history.filterMap onWire) = some s.connection) rfl ?_ reached
  intro history action s s' _ _ holds stepped
  -- what is not on the wire leaves the connection alone
  have unchanged : onWire action = none → s'.connection = s.connection →
      run (Connection.step Receiver.reader) (Connection.start Receiver.idle)
        ((history ++ [action]).filterMap onWire) =
        some s'.connection := by
    intro silent same
    rw [List.filterMap_append, List.filterMap_cons_none silent, List.filterMap_nil, List.append_nil,
      same, holds]
  obtain ⟨connection, network, onWire, ran, _, rfl⟩ |
    ⟨connection, calls, rfl, _, _, ran, _, rfl⟩ | ⟨rfl, _, rfl | ⟨_, _, rfl⟩⟩ |
    ⟨now, rfl⟩ | ⟨other, system, rfl, _, _, rfl⟩ := step_cases stepped
  · rw [List.filterMap_append, List.filterMap_cons_some onWire, List.filterMap_nil]
    exact run_snoc_eq_some.mpr ⟨s.connection, holds, ran⟩
  · rw [List.filterMap_append, connection_receives]
    exact run_snoc_eq_some.mpr ⟨s.connection, holds, ran⟩
  · exact unchanged rfl rfl
  · exact unchanged rfl rfl
  · obtain ⟨bodies, pending, rfl⟩ | ⟨rest, bodies, pending, rfl⟩ |
      ⟨msg, rest, bodies, pending, rfl⟩ := sendMessage_cases stepped
    · exact unchanged rfl rfl
    · exact unchanged rfl rfl
    · exact unchanged rfl rfl
  · exact unchanged rfl rfl

/-- From the login on, the messages handled are, in order, those in the bodies of the topic's frames
    that have been handed over, each body up to the first message that throws; the frames are those
    that the bytes give, whatever bytes they are; and the stores are those of a run of the pipeline
    with the messages handled. -/
theorem feed_is_handled {before later : List TrustFeed.Action} {s₀ s₁ : TrustFeed}
    (reached : run (TrustFeed.step repos parseJsonArray) (start username password) before = some s₀)
    (logsIn : s₀.step repos parseJsonArray .login = some s₁) (subscribed : s₁.login = .subscribed)
    (goesOn : run (TrustFeed.step repos parseJsonArray) s₁ later = some s) :
    s.handled ++ s.pending.flatMap (untilThrow repos) =
      ((s.connection.handed.drop s₀.connection.handed.length).filter onTopic).flatMap
        (messagesOf repos parseJsonArray) ∧
    s.connection.handed <+: Wire.received (written (before ++ .login :: later)) ∧
    (s.connection.Quiet Receiver.reader → s.connection.handed = Wire.received
      (written (before ++ .login :: later))) ∧
    ∃ pipeline, run (State.step repos) State.empty pipeline = some s.system ∧
      sentBy pipeline = s.handled := by
  have whole :
      run (TrustFeed.step repos parseJsonArray) (start username password)
      (before ++ .login :: later) = some s :=
    run_append_eq_some.mpr ⟨s₀, reached, run_cons_eq_some.mpr ⟨s₁, logsIn, goesOn⟩⟩
  have listening₀ : Listening repos s₀ :=
    run_invariant (Listening repos) (fun _ _ _ _ => listening_step) listening_start reached
  have notYet : s₀.login ≠ .subscribed := by
    intro already
    rw [TrustFeed.step, already] at logsIn
    cases logsIn
  -- `after` are the frames handed over since the login
  obtain ⟨listening, _, after, handed, same⟩ :
    Follows repos parseJsonArray s₀.connection.handed s :=
    run_invariant (Follows repos parseJsonArray s₀.connection.handed) (fun _ _ _ _ => follows_step)
      (follows_login listening₀ logsIn notYet subscribed) goesOn
  have carries := Connection.run_carries (connection_run whole)
  refine ⟨?_, carries.handed_isPrefix, carries.handed_of_quiet, listening.pipeline⟩
  rw [handed, List.drop_left, same]

theorem run_delivers {call : Call} (wellFormed : WellFormed (isAscii ·) call) {handed : List Call}
    (waiting : s.connection = ⟨[], Receiver.idle, handed⟩)
    (free : s.pending = [] ∧ s.login ≠ .refused) :
    run (TrustFeed.step repos parseJsonArray) s
        [.write (Transmitter.transmit call), .arrive (Transmitter.transmit call).length, .round] =
      some (TrustFeed.receive parseJsonArray { s with
        connection := ⟨[], Receiver.idle, handed ++ [call.received]⟩ } call.received) := by
  have read :
      Receiver.reader.next (Receiver.reader.feed Receiver.idle (Transmitter.transmit call)) =
      some ([call.received], Receiver.idle) := Wire.reads_wellFormed wellFormed
  simp [TrustFeed.step, Connection.step, waiting, free, read]

/-! ### A message with a null behind it -/

open Sample

def sampleBody : String :=
  "[\x7b\"header\":\x7b\"msg_type\":\"0003\"\x7d,\"body\":\x7b\"train_id\":\"871A01MN18\",\"train_service_code\":\"24745000\"\x7d\x7d,null]"

def bareMessage : TrustMovementMessage := ⟨some ⟨some "0003"⟩, some emptyBody⟩

/-- What Gson makes of the body. -/
def sampleParser : TrustMessageParser :=
  fun body => if body = some sampleBody then some [some bareMessage, none]
    else none

def connectedFrame : Call := ⟨.connected, none, none⟩

def sampleFrame : Call :=
  ⟨.message, some (Dict.ofPairs [("destination", some trainMovementTopic)]),
    some sampleBody⟩

theorem wellFormed_onTopic {body : String}
    (letters : body.toList.all (fun c => isAscii c && decide (c ≠ '\x00')) = true) :
    WellFormed
      (isAscii ·) ⟨.message, some (Dict.ofPairs [("destination", some trainMovementTopic)]),
      some body⟩ := by
  have topicLetters : trainMovementTopic.toList.all (fun c => isAscii c && !lineEnd c) = true := by
    decide
  constructor
  · rintro _ ⟨⟩ item member
    cases List.mem_singleton.mp member
    refine ⟨by simp [isAscii, lineEnd], rfl, trainMovementTopic, rfl, fun c member => ?_, rfl⟩
    simpa using List.all_eq_true.mp topicLetters c member
  · rintro _ ⟨⟩ c member
    simpa using List.all_eq_true.mp letters c member

theorem sampleFrame_wellFormed :
    WellFormed (isAscii ·) sampleFrame := wellFormed_onTopic (by decide)

def beforeLogin : TrustFeed :=
  TrustFeed.receive sampleParser
    { start "user" "secret" with connection := ⟨[], Receiver.idle, [connectedFrame.received]⟩ }
    connectedFrame.received

def afterLogin : TrustFeed := (beforeLogin.step refData sampleParser .login).get rfl

def afterFrame : TrustFeed :=
  TrustFeed.receive sampleParser
    { afterLogin with
      connection := ⟨[], Receiver.idle, [connectedFrame.received, sampleFrame.received]⟩ }
    sampleFrame.received

def afterMessage : TrustFeed :=
  (afterFrame.step refData sampleParser (.sendMessage (clock 10 41))).get rfl

theorem bareMessage_is_handled : afterMessage.handled ++ [] = [bareMessage] ∧
    ∃ pipeline, run (State.step refData) State.empty pipeline = some afterMessage.system ∧
      sentBy pipeline = [bareMessage] := by
  have free : (start "user" "secret").pending = [] ∧ (start "user" "secret").login ≠ .refused :=
    ⟨rfl, by decide⟩
  have connects : run (TrustFeed.step refData sampleParser) (start "user" "secret")
      [.write (Transmitter.transmit connectedFrame),
        .arrive (Transmitter.transmit connectedFrame).length, .round] =
        some beforeLogin := run_delivers (Wire.wellFormed_bare .connected) rfl free
  have logsIn : beforeLogin.step refData sampleParser .login = some afterLogin :=
    (Option.some_get _).symm
  have free' : afterLogin.pending = [] ∧ afterLogin.login ≠ .refused := ⟨rfl, by decide⟩
  have delivers : run (TrustFeed.step refData sampleParser) afterLogin
      [.write (Transmitter.transmit sampleFrame), .arrive (Transmitter.transmit sampleFrame).length,
        .round] =
        some afterFrame := run_delivers sampleFrame_wellFormed rfl free'
  have handles :
      afterFrame.step refData sampleParser (.sendMessage (clock 10 41)) = some afterMessage :=
    (Option.some_get _).symm
  obtain ⟨handled, _, _, pipeline⟩ :=
    feed_is_handled connects logsIn rfl (run_snoc_eq_some.mpr ⟨afterFrame, delivers, handles⟩)
  exact ⟨handled, pipeline⟩

end Feed

end TrainWatch.Verified.Feed
