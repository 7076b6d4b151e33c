import TrainWatch.Movement.Pipeline
import TrainWatch.Stomp.Client
import TrainWatch.Stomp.Receiver

/-! # The producer at the other end of the feed

`TrainMovementProducer` subscribes a listener to the TRUST topic of the feed.  The
receiver's thread calls it with the body of each message; the listener parses the body and
sends the messages in it one after the other, and only then does the thread read on.  The
processor and the cleanup go on in between.
-/

namespace TrainWatch.Movement

open TrainWatch.Java TrainWatch.RefData TrainWatch.Library TrainWatch.Stomp

def trainMovementTopic : String := "/topic/TRAIN_MVT_ALL_TOC"

/-- `connectToHost` waits for the login; it ends with the subscription, or in a `LoginException`. -/
inductive Login where
  | waiting
  | subscribed
  | refused
deriving DecidableEq, Repr

structure TrustFeed where
  connection : Connection Receiver UInt8 Call
  /-- The client has one listener. -/
  session : Session Unit
  login : Login
  /-- What the listener has still to send, of each body it was called with. -/
  pending : List (List (Option TrustMovementMessage))
  /-- The messages that `sendMessage` was called with. -/
  handled : List TrustMovementMessage
  system : State

namespace TrustFeed

inductive Action where
  | write (piece : List UInt8)
  | arrive (count : Nat)
  | round
  | login
  | sendMessage (now : LocalDateTime)
  | others (action : Movement.Action)

/-- The thread of the receiver has been started and the CONNECT transmitted. -/
def start (username password : String) : TrustFeed :=
  ⟨Connection.start Receiver.idle, Session.start.transmit
    ⟨.connect, some (Dict.ofPairs [("login", some username), ("passcode", some password)]), none⟩,
      .waiting, [], [], State.empty⟩

/-- Gson's parser of a body; it can throw, and give null, and nulls among the messages. -/
abbrev TrustMessageParser := Option String → Option (List (Option TrustMovementMessage))

variable (repos : ReferenceRepos) (parseJsonArray : TrustMessageParser)

/-- The listeners are called where they are told; what throws there is dropped. -/
def receive (s : TrustFeed) (call : Call) : TrustFeed :=
  { s with
    session := s.session.receive call
    pending := s.pending ++
      match (s.session.client.receive call).2 with
      | .told listeners => listeners.map fun _ => (parseJsonArray call.body).getD []
      | _ => [] }

def step (s : TrustFeed) : Action → Option TrustFeed
  | .write piece => (s.connection.step Receiver.reader (.send piece)).map fun connection =>
      { s with connection := connection }
  | .arrive count => (s.connection.step Receiver.reader (.arrive count)).map fun connection =>
      { s with connection := connection }
  | .round =>
    if s.pending = [] ∧ s.login ≠ .refused then
      (s.connection.step Receiver.reader .read).map fun connection =>
        (connection.handed.drop s.connection.handed.length).foldl (receive parseJsonArray)
          { s with connection := connection }
    else none
  | .login =>
    if s.login = .waiting then
      if s.session.client.connected then
        some { s with
          session := s.session.use (.subscribe (some trainMovementTopic) (some ()) none)
          login := .subscribed }
      else
        match s.session.client.errors with
        | [] => none
        -- a null error is taken for none, and the wait goes on
        | error :: _ =>
          some { s with
            session := s.session.use .nextError
            login := if error.isSome then .refused else .waiting }
    else none
  | .sendMessage now =>
    match s.pending with
    | [] => none
    | [] :: bodies => some { s with pending := bodies }
    -- a null message throws, and `forEach` is left
    | (none :: _) :: bodies => some { s with pending := bodies }
    | (some msg :: rest) :: bodies =>
      match TrainMovementProducer.sendMessage repos s.system.activations now msg with
      | .ok effect =>
        some { s with
          system := s.system.perform effect
          pending := rest :: bodies
          handled := s.handled ++ [msg] }
      | .error _ => some { s with pending := bodies, handled := s.handled ++ [msg] }
  | .others action =>
    match action with
    | .sendMessage _ _ => none
    | action => (s.system.step repos action).map fun system => { s with system := system }

end TrustFeed

end TrainWatch.Movement
