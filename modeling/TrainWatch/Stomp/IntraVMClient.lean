import TrainWatch.Stomp.Client
import TrainWatch.Stomp.Server

/-! # A client in the same VM as its server

A method changes the client first and then calls the server; in between, and while the
call waits, other threads go on.  What the server hands to the client is received by it in
the thread that hands it out, where its listeners are told and make no call of the server
themselves.  The client here makes one call at a time.
-/

namespace TrainWatch.Stomp

open TrainWatch.Java TrainWatch.Library

structure IntraVMClient (τ ℓ : Type) where
  server : Server τ
  session : Session ℓ
  /-- The call that is on its way to the server. -/
  calling : Option Call
  /-- `_server` is null. -/
  disconnected : Bool

namespace IntraVMClient

variable {τ ℓ : Type} [DecidableEq ℓ]

def start : IntraVMClient τ ℓ :=
  ⟨Server.start, { Session.start with client := { StompClient.new with connected := true } }, none,
    false⟩

inductive Action (ℓ : Type) where
  | use (use : Use ℓ)
  | disconnect
  | call
  | others (action : Server.Action)

/-- What a peer was handed. -/
def handedTo (peer : Peer) (handed : List (Peer × Call)) : List Call :=
  handed.filterMap fun handed => if handed.1 = peer then some handed.2 else none

/-- The server goes on, and the client receives what that hands to it. -/
def serve (s : IntraVMClient τ ℓ) (k : Nat) (server : Server τ) : IntraVMClient τ ℓ :=
  { s with
    server := server
    session :=
      (handedTo (.intraVM k) (server.handed.drop s.server.handed.length)).foldl Session.receive
      s.session }

variable (authenticator : Authenticator τ) (session : Nat → String) (k : Nat)

/-- A method has changed the client, and sets its call on its way, if it makes one.  After
    `disconnect` that throws. -/
def dispatch (s : IntraVMClient τ ℓ) (session : Session ℓ) : Option (IntraVMClient τ ℓ) :=
  match session.transmitted.drop s.session.transmitted.length with
  | [] => some { s with session := session }
  | call :: _ =>
    if s.disconnected then
      some { s with session := { session with
        transmitted := s.session.transmitted, awaited := s.session.awaited } }
    else if s.calling.isSome then none
    else some { s with session := session, calling := some call }

/-- A method of the client; frames it gets from the server alone. -/
def use (s : IntraVMClient τ ℓ) : Use ℓ → Option (IntraVMClient τ ℓ)
  | .receive _ => none
  | use => s.dispatch (s.session.use use)

def step (s : IntraVMClient τ ℓ) : Action ℓ → Option (IntraVMClient τ ℓ)
  | .use use => s.use use
  | .disconnect =>
    if s.disconnected ∨ s.calling.isSome then none
    else some
      { s with
        session := s.session.transmit ⟨.disconnect, none, none⟩
        calling := some ⟨.disconnect, none, none⟩ }
  | .call =>
    match s.calling with
    | none => none
    | some call =>
      (s.server.make authenticator (.intraVM k) call).map fun server =>
        { s.serve k server with calling := none, disconnected := call.command = .disconnect }
  | .others action =>
    match action with
    | .call client call =>
      if client = k then none
      else (s.server.step authenticator session (.call client call)).map (s.serve k)
    | action => (s.server.step authenticator session action).map (s.serve k)

end IntraVMClient

end TrainWatch.Stomp
