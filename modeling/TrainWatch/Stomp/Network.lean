import TrainWatch.Stomp.IntraVMClient
import TrainWatch.Stomp.Receiver

/-! # The server and its network clients

Between a network client and its handler run two streams of bytes.  The handler's thread
takes a frame off the one and calls the server with it before it reads on.  What the
server gives the handler to transmit is written to the other as long as the handler has
not closed the connection.
-/

namespace TrainWatch.Stomp

open TrainWatch.Java TrainWatch.Library

structure Network (τ : Type) where
  server : Server τ
  inbound : Nat → Connection Receiver UInt8 Call
  outbound : Nat → Connection Receiver UInt8 Call
  /-- How many of the calls that its thread has read a handler has received. -/
  received : Nat → Nat

namespace Network

variable {τ : Type}

def start : Network τ :=
  ⟨Server.start, fun _ => Connection.start Receiver.idle, fun _ => Connection.start Receiver.idle,
    fun _ => 0⟩

/-- A handler receives what its thread has read, so that the frames of a `Server.Action` come from
    there alone. -/
inductive Action where
  | server (action : Server.Action)
  | receive (handler : Nat)
  | inbound (client : Nat) (action : ConnectionAction UInt8)
  | outbound (client : Nat) (action : ConnectionAction UInt8)

/-- What the server hands to a handler, in a step to `server`, as the bytes that reach its client.
    The bytes of a frame are taken to enter the stream together: nothing in `transmit` keeps two
    threads from writing at once. -/
def transmitted (n : Network τ) (server : Server τ) (client : Nat) : List UInt8 :=
  if (n.server.handlers client).closed then []
  else (IntraVMClient.handedTo (.socket client) (server.handed.drop n.server.handed.length)).flatMap
    Transmitter.transmit

/-- The server goes on, and what that hands to the handlers is written to their clients. -/
def serve (n : Network τ) (server : Server τ) : Network τ :=
  { n with
    server := server
    outbound := fun client =>
      { n.outbound client with
        underWay := (n.outbound client).underWay ++ n.transmitted server client } }

variable (authenticator : Authenticator τ) (session : Nat → String)

def step (n : Network τ) : Action → Option (Network τ)
  | .server action =>
    match action with
    | .frame _ _ => none
    | action => (n.server.step authenticator session action).map n.serve
  | .receive handler =>
    match (n.inbound handler).handed[n.received handler]? with
    | none => none
    | some call => (n.server.step authenticator session (.frame handler call)).map fun server =>
      { n.serve server with
        received := Function.update n.received handler (n.received handler + 1) }
  | .inbound client action =>
    -- the thread of a handler is in `receive` until that returns, and ends with the connection
    if action = .read ∧ ((n.server.handlers client).closed ∨
      n.received client < (n.inbound client).handed.length) then none
    else ((n.inbound client).step Receiver.reader action).map fun connection =>
      { n with inbound := Function.update n.inbound client connection }
  | .outbound client action =>
    match action with
    | .send _ => none
    | action => ((n.outbound client).step Receiver.reader action).map fun connection =>
      { n with outbound := Function.update n.outbound client connection }

/-! ## What a step can do -/

section Steps

variable {authenticator : Authenticator τ} {session : Nat → String} {n n' : Network τ}

theorem step_server {action : Server.Action}
    (stepped : n.step authenticator session (.server action) = some n') :
    (∀ handler call, action ≠ .frame handler call) ∧
      ∃ server, n.server.step authenticator session action = some server ∧ n' = n.serve server := by
  simp only [step] at stepped
  split at stepped
  · cases stepped
  · rename_i notFrame
    obtain ⟨server, ran, same⟩ := Option.map_eq_some_iff.mp stepped
    exact ⟨fun handler call isFrame => notFrame handler call isFrame, server, ran, same.symm⟩

theorem step_receive {handler : Nat}
    (stepped : n.step authenticator session (.receive handler) = some n') :
    ∃ call server, (n.inbound handler).handed[n.received handler]? = some call ∧
      n.server.step authenticator session (.frame handler call) = some server ∧
        n' = { n.serve server with
          received := Function.update n.received handler (n.received handler + 1) } := by
  simp only [step] at stepped
  split at stepped
  · cases stepped
  · rename_i call next
    obtain ⟨server, ran, same⟩ := Option.map_eq_some_iff.mp stepped
    exact ⟨call, server, next, ran, same.symm⟩

theorem step_inbound {client : Nat} {action : ConnectionAction UInt8}
    (stepped : n.step authenticator session (.inbound client action) = some n') :
    ∃ connection, (n.inbound client).step Receiver.reader action = some connection ∧
      n' = { n with inbound := Function.update n.inbound client connection } := by
  simp only [step] at stepped
  split at stepped
  · cases stepped
  · obtain ⟨connection, ran, same⟩ := Option.map_eq_some_iff.mp stepped
    exact ⟨connection, ran, same.symm⟩

theorem step_outbound {client : Nat} {action : ConnectionAction UInt8}
    (stepped : n.step authenticator session (.outbound client action) = some n') :
    Connection.sent [action] = [] ∧ ∃ connection,
      (n.outbound client).step Receiver.reader action = some connection ∧
      n' = { n with outbound := Function.update n.outbound client connection } := by
  simp only [step] at stepped
  split at stepped
  · cases stepped
  · rename_i notSend
    obtain ⟨connection, ran, same⟩ := Option.map_eq_some_iff.mp stepped
    refine ⟨?_, connection, ran, same.symm⟩
    cases action with
    | send piece => exact absurd rfl (notSend piece)
    | arrive count => rfl
    | read => rfl

end Steps

end Network

end TrainWatch.Stomp
