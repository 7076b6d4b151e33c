import TrainWatch.Stomp.Network

/-! # A client of the library across the network

The constructor starts the thread of the receiver, transmits CONNECT and waits until the
client is connected or has been told of an error.  What the methods transmit is written to
the client's handler; the thread calls the client with each frame that it reads.  The
client here makes one call at a time.
-/

namespace TrainWatch.Stomp

open TrainWatch.Java TrainWatch.Library

/-- Until the constructor returns or throws, and until `disconnect`. -/
inductive Phase where
  | connecting
  | connected
  | refused
  | disconnected
deriving DecidableEq, Repr

structure NetworkClient (τ ℓ : Type) where
  network : Network τ
  session : Session ℓ
  phase : Phase

namespace NetworkClient

variable {τ ℓ : Type} [DecidableEq ℓ]

inductive Action (ℓ : Type) where
  | login
  | use (use : Use ℓ)
  | disconnect (headers : Option Headers)
  | round
  | others (action : Network.Action)

/-- What the client alone does: it writes to its handler, and reads what that writes. -/
def own (k : Nat) : Network.Action → Bool
  | .inbound client (.send _) => client = k
  | .outbound client .read => client = k
  | _ => false

def connectCall (login passcode : Option String) : Call :=
  ⟨.connect, some (Dict.ofPairs [("login", login), ("passcode", passcode)]), none⟩

def start (k : Nat) (login passcode : Option String) : NetworkClient τ ℓ :=
  let network : Network τ := Network.start
  { network := { network with
      inbound := Function.update network.inbound k
        { network.inbound k with underWay := Transmitter.transmit (connectCall login passcode) } }
    session := Session.start.transmit (connectCall login passcode)
    phase := .connecting }

def bytesSince (session later : Session ℓ) : List UInt8 :=
  (later.transmitted.drop session.transmitted.length).flatMap Transmitter.transmit

variable (authenticator : Authenticator τ) (sessions : Nat → String) (k : Nat)

/-- A method has changed the client, and what it transmits is written. -/
def write (s : NetworkClient τ ℓ) (session : Session ℓ) : Option (NetworkClient τ ℓ) :=
  (s.network.step authenticator sessions (.inbound k (.send (bytesSince s.session session)))).map
    fun network =>
    { s with network := network, session := session }

/-- A method of the client; frames it gets from the thread alone. -/
def use (s : NetworkClient τ ℓ) : Use ℓ → Option (NetworkClient τ ℓ)
  | .receive _ => none
  | use => s.write authenticator sessions k (s.session.use use)

def step (s : NetworkClient τ ℓ) : Action ℓ → Option (NetworkClient τ ℓ)
  | .login =>
    if s.phase = .connecting then
      if s.session.client.connected then some { s with phase := .connected }
      else
        match s.session.client.errors with
        | [] => none
        -- a null error is taken for none, and the wait goes on
        | error :: _ =>
          some { s with
            session := s.session.use .nextError
            phase := if error.isSome then .refused else .connecting }
    else none
  | .use use => if s.phase = .connected then s.use authenticator sessions k use else none
  -- the thread is interrupted, and the connection closed behind what has been written
  | .disconnect headers =>
    if s.phase = .connected then
      (s.write authenticator sessions k (s.session.transmit ⟨.disconnect, headers, none⟩)).map
        fun s => { s with
          phase := .disconnected
          session := { s.session with client := { s.session.client with connected := false } } }
    else none
  | .round =>
    if s.phase = .connecting ∨ s.phase = .connected then
      (s.network.step authenticator sessions (.outbound k .read)).map fun network =>
        { s with
          network := network
          session :=
            ((network.outbound k).handed.drop (s.network.outbound k).handed.length).foldl
            Session.receive s.session }
    else none
  | .others action =>
    if own k action then none
    else (s.network.step authenticator sessions action).map fun network =>
      { s with network := network }

/-! ## What a step can do -/

section Steps

variable {authenticator : Authenticator τ} {sessions : Nat → String} {k : Nat}
    {s s' : NetworkClient τ ℓ}

omit [DecidableEq ℓ] in
theorem write_eq_some {session : Session ℓ}
    (written : s.write authenticator sessions k session = some s') :
    ∃ network, s.network.step authenticator sessions
      (.inbound k (.send (bytesSince s.session session))) = some network ∧
      s' = { s with network := network, session := session } := by
  obtain ⟨network, moved, same⟩ := Option.map_eq_some_iff.mp written
  exact ⟨network, moved, same.symm⟩

theorem step_login (stepped : s.step authenticator sessions k .login = some s') :
    s'.network = s.network ∧ (s'.session = s.session ∨ s'.session = s.session.use .nextError) := by
  simp only [step] at stepped
  split at stepped
  · split at stepped
    · cases stepped
      exact ⟨rfl, .inl rfl⟩
    · split at stepped
      · cases stepped
      · cases stepped
        exact ⟨rfl, .inr rfl⟩
  · cases stepped

theorem step_use {use : Use ℓ} (stepped : s.step authenticator sessions k (.use use) = some s') :
    (∀ call, use ≠ .receive call) ∧ s.write authenticator sessions k
    (s.session.use use) = some s' := by
  simp only [step] at stepped
  split at stepped
  · cases use with
    | receive call => cases stepped
    | _ => exact ⟨by simp, stepped⟩
  · cases stepped

theorem step_disconnect {headers : Option Headers}
    (stepped : s.step authenticator sessions k (.disconnect headers) = some s') :
    ∃ middle, s.write authenticator sessions k (s.session.transmit ⟨.disconnect, headers, none⟩) =
      some middle ∧
      s' = { middle with
        phase := .disconnected
        session := { middle.session with
          client := { middle.session.client with connected := false } } } := by
  simp only [step] at stepped
  split at stepped
  · obtain ⟨middle, written, same⟩ := Option.map_eq_some_iff.mp stepped
    exact ⟨middle, written, same.symm⟩
  · cases stepped

theorem step_round (stepped : s.step authenticator sessions k .round = some s') :
    ∃ network, s.network.step authenticator sessions (.outbound k .read) = some network ∧
      s' = { s with
        network := network
        session :=
          ((network.outbound k).handed.drop (s.network.outbound k).handed.length).foldl
          Session.receive s.session } := by
  simp only [step] at stepped
  split at stepped
  · obtain ⟨network, moved, same⟩ := Option.map_eq_some_iff.mp stepped
    exact ⟨network, moved, same.symm⟩
  · cases stepped

theorem step_others {action : Network.Action}
    (stepped : s.step authenticator sessions k (.others action) = some s') :
    own k action = false ∧ ∃ network, s.network.step authenticator sessions action = some network ∧
      s' = { s with network := network } := by
  simp only [step] at stepped
  split at stepped
  · cases stepped
  · rename_i theirs
    obtain ⟨network, moved, same⟩ := Option.map_eq_some_iff.mp stepped
    exact ⟨by simpa using theirs, network, moved, same.symm⟩

end Steps

end NetworkClient

end TrainWatch.Stomp
