import TrainWatch.Stomp.Network
import TrainWatch.Verified.Delivery
import TrainWatch.Verified.Wire

/-! # The broker over the wire

The server with its clients' bytes runs as the server with their frames, and each client
receives what its handler was given to transmit.  No network client can put a frame into
what another one receives: what the server relays of its bytes is read as one frame.  A
client in the same VM can, with a NUL in a body, so its calls are assumed to be one frame
each.
-/

namespace TrainWatch.Verified.Network

open TrainWatch.Java TrainWatch.Library TrainWatch.Stomp TrainWatch.Stomp.Server

section Calls

variable {τ : Type} {authenticator : Authenticator τ} {session : Nat → String}
variable {s s' : Server τ} {trace : List Server.Action}

/-! ## Where the server's calls come from -/

theorem made_error {handler : Nat} {call : Call} (error : call.command = .error)
    (received : s.receiveFrame authenticator session handler call = some s') :
    s'.made = s.made := by
  have notConnect : call.command ≠ .connect := by simp [error]
  rw [receiveFrame, if_neg notConnect] at received
  split at received
  · cases received
    rfl
  · simp only [relay, error] at received
    cases received
    rfl

/-- The calls made by one step: that of an intra-VM client, a frame, or the receipt that a handler
    asks for itself. -/
theorem made_step {action : Server.Action}
    (stepped : s.step authenticator session action = some s') :
    ∀ made ∈ s'.made, made ∈ s.made ∨ (∃ receipt, made.2 = Call.receiptFor receipt) ∨
      (∃ client, made.1 = .intraVM client ∧ action = .call client made.2) ∨
        ∃ handler, made.1 = .socket handler ∧ action = .frame handler made.2 ∧
          made.2.command ≠ .error := by
  have ofMake : ∀ {y : Peer} {call : Call} {s' : Server τ}, s.make authenticator y call = some s' →
      ∀ made ∈ s'.made, made ∈ s.made ∨ made = (y, call) := by
    intro y call s' makes made member
    rw [(make_leaves makes).1] at member
    obtain earlier | now := List.mem_append.mp member
    · exact .inl earlier
    · exact .inr (List.mem_singleton.mp now)
  intro made member
  rcases step_cases stepped with ⟨client, call, rfl, makes⟩ | ⟨handler, call, rfl, _, _, received⟩ |
    ⟨y, call, rest, commit, rfl, committing, rfl⟩ | ⟨y, commit, rfl, committing, rfl⟩
  · obtain earlier | rfl := ofMake makes made member
    · exact .inl earlier
    · exact .inr (.inr (.inl ⟨client, rfl, rfl⟩))
  · -- an ERROR of the client goes back to it and is not made
    by_cases error : call.command = .error
    · rw [made_error error received] at member
      exact .inl member
    · obtain ⟨token, _, rfl⟩ | ⟨told, _, rfl⟩ | rfl |
        ⟨_, rfl | ⟨receipt, s'', makes, rfl⟩ | makes⟩ := receiveFrame_cases received
      · exact .inl member
      · exact .inl member
      · exact .inl member
      · exact .inl member
      · obtain earlier | rfl := ofMake makes made member
        · exact .inl earlier
        · exact .inr (.inl ⟨receipt, rfl⟩)
      · obtain earlier | rfl := ofMake makes made member
        · exact .inl earlier
        · exact .inr (.inr (.inr ⟨handler, rfl, rfl, error⟩))
  · have leaves : Leaves _
        (receiveOther authenticator { s with committing := some (y, rest, commit) } y call) :=
      leaves_receiveOther _ y call
    rw [leaves.made] at member
    exact .inl member
  · have leaves : Leaves _ (sendReceipt authenticator { s with committing := none } y commit) :=
      leaves_sendReceipt _ y commit
    rw [leaves.made] at member
    exact .inl member

/-- A call that its client has made, over the server's own interfaces, or a receipt. -/
def Source (trace : List Server.Action) (peer : Peer) (call : Call) : Prop :=
  (∃ receipt, call = Call.receiptFor receipt) ∨ (∃ client, peer = .intraVM client ∧
    .call client call ∈ trace) ∨
    ∃ handler, peer = .socket handler ∧ .frame handler call ∈ trace ∧ call.command ≠ .error

theorem made_source
    (reached : run (Server.step authenticator session) Server.start trace = some s) :
    ∀ made ∈ s.made, Source trace made.1 made.2 := by
  refine run_invariant (fun s => ∀ made ∈ s.made, Source trace made.1 made.2) ?_
    (by simp [Server.start]) reached
  intro action inTrace s s' holds stepped made member
  obtain earlier | receipt | ⟨client, peer, rfl⟩ | ⟨handler, peer, rfl, notError⟩ :=
    made_step stepped made member
  · exact holds made earlier
  · exact .inl receipt
  · exact .inr (.inl ⟨client, peer, inTrace⟩)
  · exact .inr (.inr ⟨handler, peer, inTrace, notError⟩)

theorem performed_source
    (reached : run (Server.step authenticator session) Server.start trace = some s)
    {entry : Performed τ}
    (member : entry ∈ s.performed) : Source trace entry.peer entry.call := by
  have each : ∀ call ∈ s.madeBy entry.peer, Source trace entry.peer call := by
    intro call inMade
    obtain ⟨made, there, own⟩ := List.mem_filterMap.mp inMade
    split at own
    · rename_i peer
      cases own
      exact peer ▸ made_source reached made there
    · cases own
  have closed : ∀ call, Source trace entry.peer call → ∀ other ∈ deferral.echo entry.peer call,
      Source trace entry.peer other := by
    intro call _ other echoed
    obtain none | ⟨receipt, one⟩ := echo_cases entry.peer call
    · rw [show deferral.echo entry.peer call = _ from none] at echoed
      cases echoed
    · rw [show deferral.echo entry.peer call = _ from one] at echoed
      exact .inl ⟨receipt, List.mem_singleton.mp echoed⟩
  have own : entry.call ∈ s.performedFor entry.peer :=
    List.mem_filterMap.mpr ⟨entry, member, if_pos rfl⟩
  have alone := (Broker.performedFor_isPrefix reached entry.peer).subset own
  exact Deferral.all_alone closed each entry.call (List.mem_append_right _ alone)

/-! ## What the server hands out -/

/-- What is handed to a peer comes from a call performed, or is told to it without one. -/
def Handed (authenticator : Authenticator τ) (session : Nat → String) (trace : List Server.Action)
    (performed : List (Performed τ))
    (handed : Peer × Call) : Prop :=
  (∃ entry ∈ performed, ∃ listeners, handed ∈ (execute authenticator listeners entry).2) ∨
    ∃ frame, (∀ handler call, frame = some (handler, call) → .frame handler call ∈ trace) ∧
      Told authenticator session frame handed.1 handed.2

theorem handed_source
    (reached : run (Server.step authenticator session) Server.start trace = some s) :
    ∀ handed ∈ s.handed, Handed authenticator session trace s.performed handed := by
  have kept :
      ∀ {s s' : Server τ} {frame : Option (Nat × Call)}, Grows authenticator session frame s s' →
      (∀ handler call, frame = some (handler, call) → .frame handler call ∈ trace) →
        (∀ handed ∈ s.handed, Handed authenticator session trace s.performed handed) →
          ∀ handed ∈ s'.handed, Handed authenticator session trace s'.performed handed := by
    intro s s' frame grows inTrace
    induction grows with
    | same _ handed performed => rw [handed, performed]; exact id
    | tell peer told isTold _ handed performed =>
      intro holds entry member
      rw [handed] at member
      rw [performed]
      obtain earlier | now := List.mem_append.mp member
      · exact holds entry earlier
      · cases List.mem_singleton.mp now
        exact .inr ⟨frame, inTrace, isTold⟩
    | perform entry _ handed performed =>
      intro holds other member
      rw [handed] at member
      rw [performed]
      obtain earlier | now := List.mem_append.mp member
      · obtain ⟨entry', there, listeners, executed⟩ | told := holds other earlier
        · exact .inl ⟨entry', List.mem_append_left _ there, listeners, executed⟩
        · exact .inr told
      · exact .inl ⟨entry, List.mem_append_right _ List.mem_cons_self, _, now⟩
    | trans _ _ first second => exact second ∘ first
  -- a step only adds to what has been handed out, and for what it adds it has the source
  refine run_invariant (fun s =>
    ∀ handed ∈ s.handed, Handed authenticator session trace s.performed handed) ?_
    (by simp [Server.start]) reached
  intro action inTrace s s' holds stepped
  refine kept (step_grows stepped) (fun handler call isFrame => ?_) holds
  cases action with
  | frame handler' call' =>
    cases isFrame
    exact inTrace
  | _ => cases isFrame

/-! ## Frames that the server writes -/

section OneFrames

variable {call : Call}

def InLine (text : String) : Prop := ∀ c ∈ text.toList, lineEnd c = false

theorem inLine_of_all {text : String} (plain : text.toList.all (fun c => !lineEnd c) = true) :
    InLine text := by
  intro c member
  simpa using List.all_eq_true.mp plain c member

theorem inLine_headerText {name : String} {value : Option String} (key : InLine name)
    (text : InLine (concatOperand value)) :
    ∀ c ∈ Transmitter.headerText (name, value), lineEnd c = false := by
  intro c member
  obtain letter | rfl | letter := by simpa [Transmitter.headerText] using member
  · exact key c letter
  · rfl
  · exact text c letter

theorem inLine_destination (oneFrame : OneFrame call) :
    InLine (concatOperand call.destination) := by
  cases destination : call.destination with
  | none => exact inLine_of_all (by decide)
  | some channel =>
    obtain ⟨headers, hasHeaders, value⟩ := Option.bind_eq_some_iff.mp destination
    have there : ("destination", some channel) ∈ headers.items :=
      (Dict.mem_items_iff _ _ _).mpr (Option.join_eq_some_iff.mp value)
    intro c letter
    exact oneFrame.headers headers hasHeaders _ there c
      (List.mem_append_right _ (List.mem_cons_of_mem _ letter))

theorem oneFrame_asMessage (oneFrame : OneFrame call) : OneFrame call.asMessage := by
  refine ⟨?_, oneFrame.body⟩
  rintro _ ⟨⟩ item member
  cases headers : call.headers with
  | none =>
    rw [headers] at member
    cases member
  | some headers' =>
    rw [headers] at member
    exact oneFrame.headers headers' headers item member

theorem oneFrame_refusal (oneFrame : OneFrame call) {kind : String} (inLine : InLine kind) :
    OneFrame (refusal kind call) := by
  have items :
      (Dict.ofPairs [("message:", some "authorization refused"), ("type:", some kind),
        ("channel:", call.destination)]).items =
      [("message:", some "authorization refused"), ("type:", some kind),
        ("channel:", call.destination)] :=
    Dict.items_ofPairs (by simp)
  constructor
  · rintro _ ⟨⟩ item member
    rw [items] at member
    obtain rfl | rfl | rfl := by simpa using member
    · exact inLine_headerText (inLine_of_all (by decide)) (inLine_of_all (by decide))
    · exact inLine_headerText (inLine_of_all (by decide)) inLine
    · exact inLine_headerText (inLine_of_all (by decide)) (inLine_destination oneFrame)
  · rintro _ ⟨⟩ member
    have body : '\x00' ∉ (concatOperand call.body).toList := by
      cases text : call.body with
      | none => decide
      | some text' => exact oneFrame.body text' text
    simp [body] at member

theorem oneFrame_execute {listeners : Subscriptions} {entry : Performed τ}
    (oneFrame : OneFrame entry.call) :
    ∀ handed ∈ (execute authenticator listeners entry).2, OneFrame handed.2 := by
  intro handed member
  cases command : entry.call.command with
  | send =>
    simp only [execute, command] at member
    split at member
    · obtain ⟨peer, _, rfl⟩ := List.mem_map.mp member
      exact oneFrame_asMessage oneFrame
    · cases List.mem_singleton.mp member
      exact oneFrame_refusal oneFrame (inLine_of_all (by decide))
  | subscribe =>
    simp only [execute, command] at member
    split at member
    · cases member
    · cases List.mem_singleton.mp member
      exact oneFrame_refusal oneFrame (inLine_of_all (by decide))
  | _ => simp [execute, command] at member

/-- Everything handed to a network client is read as one frame, if that holds of the calls of the
    intra-VM clients, of the frames that are no errors, and of all frames of its own. -/
theorem oneFrame_handed
    (reached : run (Server.step authenticator session) Server.start trace = some s)
    (sessions : ∀ handler, InLine (session handler))
    (refusals : ∀ login passcode message, authenticator.connect login passcode = .error message →
      '\x00' ∉ (concatOperand message).toList)
    (calls : ∀ client call, .call client call ∈ trace → OneFrame call)
    (frames : ∀ handler call, .frame handler call ∈ trace → call.command ≠ .error → OneFrame call)
    {client : Nat}
    (own : ∀ call, .frame client call ∈ trace → OneFrame call) :
    ∀ call ∈ IntraVMClient.handedTo (.socket client) s.handed, OneFrame call := by
  intro call member
  obtain ⟨⟨peer, handed⟩, there, same⟩ := List.mem_filterMap.mp member
  split at same
  · rename_i isClient
    cases same
    obtain rfl : peer = .socket client := isClient
    -- the answer to a performed call, or what a handler tells its own client
    obtain ⟨entry, inPerformed, listeners, executed⟩ | ⟨frame, inTrace, isTold⟩ :=
      handed_source reached _ there
    · obtain ⟨receipt, isReceipt⟩ | ⟨k, _, made⟩ | ⟨handler, _, framed, notError⟩ :=
        performed_source reached inPerformed
      · simp [execute, isReceipt, Call.receiptFor] at executed
      · -- a refused intra-VM call is quoted in the answer, so it has to be one frame
        exact oneFrame_execute (calls k _ made) _ executed
      · exact oneFrame_execute (frames handler _ framed notError) _ executed
    · cases isTold with
      | connected =>
        constructor
        · rintro _ ⟨⟩ item inHeaders
          have items :
              (Dict.ofPairs [("session", some (session client))]).items =
              [("session", some (session client))] :=
            Dict.items_ofPairs (by simp)
          rw [items] at inHeaders
          cases List.mem_singleton.mp inHeaders
          exact inLine_headerText (inLine_of_all (by decide)) (sessions client)
        · rintro _ ⟨⟩
      | loginFailed _ refused =>
        constructor
        · rintro _ ⟨⟩
        · rintro _ ⟨⟩ nul
          simp [refusals _ _ _ refused] at nul
      | notConnected =>
        constructor
        · rintro _ ⟨⟩
        · rintro _ ⟨⟩
          decide
      | error isFrame command => exact own _ (inTrace _ _ isFrame)
  · cases same

end OneFrames

theorem stays_closed {action : Server.Action}
    (stepped : s.step authenticator session action = some s') {handler : Nat}
    (closed : (s.handlers handler).closed = true) : (s'.handlers handler).closed = true := by
  have closes : ∀ {s : Server τ} (other : Nat), (s.handlers handler).closed = true →
      ((s.close other).handlers handler).closed = true := by
    intro s other closed
    by_cases own : handler = other
    · simp [close, own]
    · simp [close, Function.update_of_ne own, closed]
  have ofMake : ∀ {y : Peer} {call : Call} {s' : Server τ}, s.make authenticator y call = some s' →
      (s'.handlers handler).closed = true := by
    intro y call s' makes
    rw [(make_leaves makes).2.1]
    exact closed
  rcases step_cases stepped with ⟨client, call, rfl, makes⟩ |
    ⟨other, call, rfl, isOpen, _, received⟩ |
    ⟨y, call, rest, commit, rfl, committing, rfl⟩ | ⟨y, commit, rfl, committing, rfl⟩
  · exact ofMake makes
  · -- a closed handler receives no frame, so the step is of another one
    have elsewhere : handler ≠ other := by
      rintro rfl
      rw [closed] at isOpen
      cases isOpen
    obtain ⟨token, _, rfl⟩ | ⟨told, _, rfl⟩ | rfl | ⟨_, rfl | ⟨receipt, s'', makes, rfl⟩ | makes⟩ :=
      receiveFrame_cases received
    · simp [hand, Function.update_of_ne elsewhere, closed]
    · exact closed
    · exact closed
    · exact closes other closed
    · exact closes other (ofMake makes)
    · exact ofMake makes
  · have leaves : Leaves _
        (receiveOther authenticator { s with committing := some (y, rest, commit) } y call) :=
      leaves_receiveOther _ y call
    rw [leaves.handlers]
    exact closed
  · have leaves : Leaves _ (sendReceipt authenticator { s with committing := none } y commit) :=
      leaves_sendReceipt _ y commit
    rw [leaves.handlers]
    exact closed

end Calls

/-! ## The server over the wire -/

section Wires

variable {τ : Type} {authenticator : Authenticator τ} {session : Nat → String}
variable {n n' : Network τ} {client : Nat}

def written (client : Nat) (trace : List Network.Action) : List UInt8 :=
  trace.flatMap fun
    | .inbound writer action => if writer = client then Connection.sent [action] else []
    | _ => []

/-- The calls of the clients in the same VM, and the steps of commits. -/
def ownActions (trace : List Network.Action) : List Server.Action :=
  trace.filterMap fun
    | .server action => some action
    | _ => none

def framesOf (handler : Nat) (actions : List Server.Action) : List Call :=
  actions.filterMap fun
    | .frame other call => if other = handler then some call else none
    | _ => none

/-- What has been written to a client: the calls handed to its handler, until that closed the
    connection. -/
def Transmits (s : Server τ) (client : Nat) (connection : Connection Receiver UInt8 Call) : Prop :=
  ∃ calls, calls <+: IntraVMClient.handedTo (.socket client) s.handed ∧
    ((s.handlers client).closed = false →
      calls = IntraVMClient.handedTo (.socket client) s.handed) ∧
      Connection.Carries Receiver.reader Receiver.idle
        (calls.flatMap Transmitter.transmit) connection

/-- The server has run with the frames that its handlers have read and received. -/
structure Follows (authenticator : Authenticator τ) (session : Nat → String)
    (history : List Network.Action) (n : Network τ) :
    Prop where
  server : ∃ actions, run (Server.step authenticator session) Server.start actions = some n.server ∧
    actions.filter (fun action => action.framed.isNone) = ownActions history ∧
      ∀ handler, framesOf handler actions = (n.inbound handler).handed.take (n.received handler)
  received : ∀ handler, n.received handler ≤ (n.inbound handler).handed.length
  inbound : ∀ client, Connection.Carries Receiver.reader Receiver.idle (written client history)
    (n.inbound client)
  outbound : ∀ client, Transmits n.server client (n.outbound client)

theorem transmits_serve {action : Server.Action} {server : Server τ}
    (stepped : n.server.step authenticator session action = some server)
    (transmits : Transmits n.server client (n.outbound client)) :
    Transmits server client ((n.serve server).outbound client) := by
  obtain ⟨calls, isPrefix, whole, carries⟩ := transmits
  obtain ⟨fresh, longer⟩ := handed_grows (step_grows stepped)
  have more : IntraVMClient.handedTo (.socket client) server.handed =
      IntraVMClient.handedTo (.socket client) n.server.handed ++ IntraVMClient.handedTo
        (.socket client) fresh := by
    rw [← longer, Delivery.handedTo_append]
  cases closed : (n.server.handlers client).closed with
  | true =>
    have same : (n.serve server).outbound client = n.outbound client := by
      simp [Network.serve, Network.transmitted, closed]
    refine ⟨calls, isPrefix.trans (more ▸ List.prefix_append _ _), fun isOpen => ?_, same ▸ carries⟩
    rw [stays_closed stepped closed] at isOpen
    cases isOpen
  | false =>
    have piece : n.transmitted server client =
        (IntraVMClient.handedTo (.socket client) fresh).flatMap Transmitter.transmit := by
      simp [Network.transmitted, closed, ← longer]
    have wrote :
        Connection.Carries Receiver.reader Receiver.idle _ ((n.serve server).outbound client) :=
      Connection.carries_send carries (n.transmitted server client)
    rw [piece, ← List.flatMap_append, whole closed, ← more] at wrote
    exact ⟨_, List.prefix_refl _, fun _ => rfl, wrote⟩

theorem follows_start : Follows authenticator session [] Network.start where
  server := ⟨[], rfl, rfl, fun _ => rfl⟩
  received := fun _ => Nat.le_refl 0
  inbound := fun _ => Connection.carries_start _
  outbound := fun _ => ⟨[], List.prefix_refl _, fun _ => rfl, Connection.carries_start _⟩

theorem written_append (client : Nat) (first second : List Network.Action) :
    written client (first ++ second) = written client first ++ written client second :=
      List.flatMap_append

theorem ownActions_append (first second : List Network.Action) :
    ownActions (first ++ second) = ownActions first ++ ownActions second := List.filterMap_append

theorem framesOf_append (handler : Nat) (first second : List Server.Action) :
    framesOf handler (first ++ second) = framesOf handler first ++ framesOf handler second :=
      List.filterMap_append

/-! ### One kind of action after the other -/

section Follows

variable {history : List Network.Action} (follows : Follows authenticator session history n)
include follows

theorem follows_server {action : Server.Action} {server : Server τ}
    (notFrame : ∀ handler call, action ≠ .frame handler call)
    (moved : n.server.step authenticator session action = some server) :
    Follows authenticator session (history ++ [.server action]) (n.serve server) := by
  obtain ⟨actions, ran, own, frames⟩ := follows.server
  have noFrame : action.framed = none := by
    cases action with
    | frame handler call => exact absurd rfl (notFrame handler call)
    | _ => rfl
  have noneOf : ∀ handler, framesOf handler [action] = [] := by
    intro handler
    cases action with
    | frame other call => exact absurd rfl (notFrame other call)
    | _ => rfl
  refine ⟨⟨actions ++ [action], run_snoc_eq_some.mpr ⟨_, ran, moved⟩, ?_, fun handler => ?_⟩,
    follows.received,
    fun client => ?_, fun client => transmits_serve moved (follows.outbound client)⟩
  · rw [List.filter_append, own, ownActions_append]
    simp [noFrame, ownActions]
  · rw [framesOf_append, frames, noneOf, List.append_nil]
    rfl
  · rw [written_append, show written client [Network.Action.server action] = [] from rfl,
      List.append_nil]
    exact follows.inbound client

theorem follows_receive {handler : Nat} {call : Call} {server : Server τ}
    (next : (n.inbound handler).handed[n.received handler]? = some call)
    (moved : n.server.step authenticator session (.frame handler call) = some server) :
    Follows authenticator session (history ++ [.receive handler])
      { n.serve server with
        received := Function.update n.received handler (n.received handler + 1) } := by
  obtain ⟨actions, ran, own, frames⟩ := follows.server
  obtain ⟨there, isCall⟩ := List.getElem?_eq_some_iff.mp next
  refine ⟨⟨actions ++ [.frame handler call], run_snoc_eq_some.mpr ⟨_, ran, moved⟩, ?_,
    fun other => ?_⟩, fun other => ?_,
    fun client => ?_, fun client => transmits_serve moved (follows.outbound client)⟩
  · rw [List.filter_append, own, ownActions_append]
    simp [Action.framed, ownActions]
  · rw [framesOf_append, frames]
    show _ = ((n.inbound other).handed.take (Function.update n.received handler
      (n.received handler + 1) other))
    -- the handler takes its next frame; the others have taken none
    by_cases same : other = handler
    · subst same
      rw [Function.update_self, List.take_add_one, next]
      simp [framesOf]
    · have different : handler ≠ other := Ne.symm same
      rw [Function.update_of_ne same]
      simp [framesOf, different]
  · show Function.update n.received handler (n.received handler + 1) other ≤
      (n.inbound other).handed.length
    by_cases same : other = handler
    · subst same
      rw [Function.update_self]
      exact there
    · rw [Function.update_of_ne same]
      exact follows.received other
  · rw [written_append, show written client [Network.Action.receive handler] = [] from rfl,
      List.append_nil]
    exact follows.inbound client

theorem follows_inbound {writer : Nat} {action : ConnectionAction UInt8}
    {connection : Connection Receiver UInt8 Call}
    (moved : (n.inbound writer).step Receiver.reader action = some connection) :
    Follows authenticator session (history ++ [.inbound writer action])
      { n with inbound := Function.update n.inbound writer connection } := by
  obtain ⟨actions, ran, own, frames⟩ := follows.server
  obtain ⟨fresh, longer⟩ := Connection.handed_step moved
  refine ⟨⟨actions, ran, ?_, fun handler => ?_⟩, fun handler => ?_, fun client => ?_,
    follows.outbound⟩
  · rw [own, ownActions_append]
    simp [ownActions]
  · -- the frames received so far are not touched by what is handed over behind them
    rw [frames]
    by_cases same : handler = writer
    · subst same
      simp only [Function.update_self]
      rw [← longer, List.take_append_of_le_length (follows.received handler)]
    · simp only [Function.update_of_ne same]
  · by_cases same : handler = writer
    · subst same
      simp only [Function.update_self]
      rw [← longer, List.length_append]
      exact Nat.le_trans (follows.received handler) (Nat.le_add_right _ _)
    · simp only [Function.update_of_ne same]
      exact follows.received handler
  · rw [written_append]
    by_cases same : client = writer
    · subst same
      have now :
          written client [Network.Action.inbound client action] = Connection.sent [action] := by
          simp [written]
      simp only [Function.update_self]
      rw [now]
      exact Connection.carries_step (follows.inbound client) moved
    · have different : writer ≠ client := Ne.symm same
      have now : written client [Network.Action.inbound writer action] = [] := by
        simp [written, different]
      simp only [Function.update_of_ne same]
      rw [now, List.append_nil]
      exact follows.inbound client

theorem follows_outbound {reader : Nat} {action : ConnectionAction UInt8}
    {connection : Connection Receiver UInt8 Call}
    (notSend : Connection.sent [action] = [])
    (moved : (n.outbound reader).step Receiver.reader action = some connection) :
    Follows authenticator session (history ++ [.outbound reader action])
      { n with outbound := Function.update n.outbound reader connection } := by
  obtain ⟨actions, ran, own, frames⟩ := follows.server
  refine ⟨⟨actions, ran, ?_, frames⟩, follows.received, fun client => ?_, fun client => ?_⟩
  · rw [own, ownActions_append]
    simp [ownActions]
  · rw [written_append, show written client [Network.Action.outbound reader action] = [] from rfl,
      List.append_nil]
    exact follows.inbound client
  · obtain ⟨calls, isPrefix, whole, carries⟩ := follows.outbound client
    refine ⟨calls, isPrefix, whole, ?_⟩
    by_cases same : client = reader
    · subst same
      have later := Connection.carries_step carries moved
      rw [notSend, List.append_nil] at later
      simp only [Function.update_self]
      exact later
    · simp only [Function.update_of_ne same]
      exact carries

theorem follows_step {action : Network.Action}
    (stepped : n.step authenticator session action = some n') :
    Follows authenticator session (history ++ [action]) n' := by
  cases action with
  | server action =>
    obtain ⟨notFrame, server, moved, rfl⟩ := Network.step_server stepped
    exact follows_server follows notFrame moved
  | receive handler =>
    obtain ⟨call, server, next, moved, rfl⟩ := Network.step_receive stepped
    exact follows_receive follows next moved
  | inbound writer action =>
    obtain ⟨connection, moved, rfl⟩ := Network.step_inbound stepped
    exact follows_inbound follows moved
  | outbound reader action =>
    obtain ⟨notSend, connection, moved, rfl⟩ := Network.step_outbound stepped
    exact follows_outbound follows notSend moved

end Follows

theorem run_follows {trace : List Network.Action}
    (reached : run (Network.step authenticator session) Network.start trace = some n) :
    Follows authenticator session trace n :=
  run_history (Follows authenticator session) follows_start
    (fun _ _ _ _ _ _ follows stepped => follows_step follows stepped) reached

/-- Whatever bytes the clients write, however they are cut, and whenever the threads run: the server
    runs with the calls of the intra-VM clients and, of each network client, with what its bytes
    give, from the first call on; and each network client receives what the bytes of the calls give
    that its handler was handed until it closed the connection. -/
theorem served_over_wire {trace : List Network.Action}
    (reached : run (Network.step authenticator session) Network.start trace = some n) :
    (∃ actions, run (Server.step authenticator session) Server.start actions = some n.server ∧
      actions.filter (fun action => action.framed.isNone) = ownActions trace ∧
        ∀ handler, framesOf handler actions <+: Wire.received (written handler trace) ∧
          ((n.inbound handler).Quiet Receiver.reader →
            n.received handler = (n.inbound handler).handed.length →
            framesOf handler actions = Wire.received (written handler trace))) ∧
      ∀ client, ∃ calls, calls <+: IntraVMClient.handedTo (.socket client) n.server.handed ∧
        ((n.server.handlers client).closed = false →
          calls = IntraVMClient.handedTo (.socket client) n.server.handed) ∧
          (n.outbound client).handed <+: Wire.received (calls.flatMap Transmitter.transmit) ∧
            ((n.outbound client).Quiet Receiver.reader →
              (n.outbound client).handed = Wire.received (calls.flatMap Transmitter.transmit)) := by
  obtain ⟨⟨actions, ran, own, frames⟩, received, inbound, outbound⟩ := run_follows reached
  refine ⟨⟨actions, ran, own, fun handler => ⟨?_, fun quiet all => ?_⟩⟩, fun client => ?_⟩
  · rw [frames]
    exact (List.take_prefix _ _).trans (inbound handler).handed_isPrefix
  · rw [frames, all, List.take_length]
    exact (inbound handler).handed_of_quiet quiet
  · obtain ⟨calls, isPrefix, whole, carries⟩ := outbound client
    exact ⟨calls, isPrefix, whole, carries.handed_isPrefix, carries.handed_of_quiet⟩

/-- A call that the client in the same VM has made, or the network client's bytes give. -/
def Wrote (trace : List Network.Action) : Peer → Call → Prop
  | .intraVM client, call => .server (.call client call) ∈ trace
  | .socket client, call => call ∈ Wire.received (written client trace)

theorem mem_framesOf {handler : Nat} {call : Call} {actions : List Server.Action}
    (member : .frame handler call ∈ actions) :
    call ∈ framesOf handler actions := List.mem_filterMap.mpr ⟨_, member, if_pos rfl⟩

theorem mem_ownActions {trace : List Network.Action} {action : Server.Action}
    (member : action ∈ ownActions trace) :
    .server action ∈ trace := by
  obtain ⟨networkAction, there, same⟩ := List.mem_filterMap.mp member
  cases networkAction with
  | server own =>
    cases same
    exact there
  | _ => cases same

theorem received_oneFrames {calls : List Call} (each : ∀ call ∈ calls, OneFrame call) :
    Wire.received (calls.flatMap Transmitter.transmit) = calls.map Call.reread := by
  have whole := Reader.handedOver_frames (fun call member =>
    Wire.reads_oneFrame (each call member)) []
  have nothing : Receiver.reader.handedOver (Receiver.reader.feed Receiver.idle []) = [] :=
    Wire.received_nil
  rw [List.append_nil, nothing, List.append_nil] at whole
  exact whole

theorem framesOf_received {trace : List Network.Action}
    (follows : Follows authenticator session trace n) {actions : List Server.Action}
    (frames : ∀ handler, framesOf handler actions = (n.inbound handler).handed.take
      (n.received handler)) {handler : Nat}
    {call : Call} (member : .frame handler call ∈ actions) :
    call ∈ Wire.received (written handler trace) := by
  have read : call ∈ (n.inbound handler).handed.take (n.received handler) :=
    frames handler ▸ mem_framesOf member
  exact (follows.inbound handler).handed_isPrefix.subset (List.take_subset _ _ read)

theorem performed_wrote {trace : List Network.Action}
    (follows : Follows authenticator session trace n) {entry : Performed τ}
    (member : entry ∈ n.server.performed) :
    (∃ receipt, entry.call = Call.receiptFor receipt) ∨ Wrote trace entry.peer entry.call := by
  obtain ⟨actions, ran, same, frames⟩ := follows.server
  obtain receipt | ⟨k, peer, inActions⟩ | ⟨handler, peer, inActions, _⟩ :=
    performed_source ran member
  · exact .inl receipt
  · rw [peer]
    exact .inr (mem_ownActions (same ▸ List.mem_filter.mpr ⟨inActions, rfl⟩))
  · rw [peer]
    exact .inr (framesOf_received follows frames inActions)

theorem filter_rereads {trace : List Network.Action}
    (follows : Follows authenticator session trace n) (client : Nat) :
    ((IntraVMClient.handedTo (.socket client) n.server.handed).map Call.reread).filter
        (fun call => call.command = .message) =
      (Broker.due authenticator (.socket client) n.server.performed).map Call.reread := by
  obtain ⟨actions, ran, _⟩ := follows.server
  rw [← (Broker.run_serves ran).delivered (.socket client), Delivery.messagesTo_eq_filter]
  exact List.filter_map

/-- Each call that a client is handed reaches it as one frame, when its own frames and the calls in
    the VM are in order. -/
theorem handed_rereads {trace : List Network.Action}
    (follows : Follows authenticator session trace n)
    (sessions : ∀ handler, InLine (session handler))
    (refusals : ∀ login passcode message, authenticator.connect login passcode = .error message →
      '\x00' ∉ (concatOperand message).toList)
    (calls : ∀ k call, .server (.call k call) ∈ trace → OneFrame call)
    (own : ∀ call ∈ Wire.received (written client trace), OneFrame call) :
    (n.outbound client).handed <+: (IntraVMClient.handedTo (.socket client) n.server.handed).map
      Call.reread ∧
      ((n.server.handlers client).closed = false → (n.outbound client).Quiet Receiver.reader →
        (n.outbound client).handed =
          (IntraVMClient.handedTo (.socket client) n.server.handed).map Call.reread) := by
  obtain ⟨actions, ran, same, frames⟩ := follows.server
  obtain ⟨sent, isPrefix, whole, carries⟩ := follows.outbound client
  have oneFrame := oneFrame_handed ran sessions refusals
    (fun k call member => calls k call (mem_ownActions (same ▸ List.mem_filter.mpr ⟨member, rfl⟩)))
    (fun handler call member notError => by
      obtain frame | report := Wire.received_decoded (written handler trace) call
        (framesOf_received follows frames member)
      · exact Wire.oneFrame_of_wellFormed frame.2.2
      · exact absurd report.1 notError)
    (fun call member => own call (framesOf_received follows frames member))
  -- one frame each, so cutting the bytes gives the calls back
  have reread :
      Receiver.reader.handedOver
        (Receiver.reader.feed Receiver.idle (sent.flatMap Transmitter.transmit)) =
      sent.map Call.reread :=
    received_oneFrames fun call member => oneFrame call (isPrefix.subset member)
  refine ⟨?_, fun isOpen quiet => ?_⟩
  · have handed := carries.handed_isPrefix
    rw [reread] at handed
    exact handed.trans (isPrefix.map Call.reread)
  · rw [carries.handed_of_quiet quiet, reread, whole isOpen]

/-- While the intra-VM clients' calls are one frame each, a network client whose own frames are in
    order receives one frame for each call that its handler was handed, and no other, whatever bytes
    the others write; the messages among them are those due to it, and each send performed is one
    that an intra-VM client made or that the bytes of a network client give.  All have arrived once
    nothing is on its way, if the handler is open. -/
theorem messages_over_wire {trace : List Network.Action}
    (reached : run (Network.step authenticator session) Network.start trace = some n)
    (sessions : ∀ handler, InLine (session handler))
    (refusals : ∀ login passcode message, authenticator.connect login passcode = .error message →
      '\x00' ∉ (concatOperand message).toList)
    (calls : ∀ k call, .server (.call k call) ∈ trace → OneFrame call)
    (own : ∀ call ∈ Wire.received (written client trace), OneFrame call) :
    (n.outbound client).handed <+: (IntraVMClient.handedTo (.socket client) n.server.handed).map
      Call.reread ∧
      ((n.outbound client).handed.filter fun call => call.command = .message) <+:
        (Broker.due authenticator (.socket client) n.server.performed).map Call.reread ∧
      ((n.server.handlers client).closed = false → (n.outbound client).Quiet Receiver.reader →
        (n.outbound client).handed = (IntraVMClient.handedTo (.socket client) n.server.handed).map
          Call.reread ∧
          ((n.outbound client).handed.filter fun call => call.command = .message) =
            (Broker.due authenticator (.socket client) n.server.performed).map Call.reread) ∧
      ∀ entry ∈ n.server.performed, entry.call.command = .send →
        Wrote trace entry.peer entry.call := by
  have follows := run_follows reached
  obtain ⟨handed, whole⟩ := handed_rereads follows sessions refusals calls own
  -- reading back keeps the commands, so the messages can be picked before or after
  have messages := filter_rereads follows client
  refine ⟨handed, ?_, fun isOpen quiet => ?_, fun entry member isSend => ?_⟩
  · rw [← messages]
    exact handed.filter _
  · have all := whole isOpen quiet
    refine ⟨all, ?_⟩
    rw [all, messages]
  · obtain ⟨receipt, isReceipt⟩ | wrote := performed_wrote follows member
    · rw [isReceipt] at isSend
      cases isSend
    · exact wrote

/-! ### Frames on their way -/

/-- A well-formed frame is read in one round of the handler's thread, and received. -/
theorem run_arrived {call : Call} (wellFormed : WellFormed (isAscii ·) call) {handed : List Call}
    {server : Server τ}
    (underWay : n.inbound client = ⟨Transmitter.transmit call, Receiver.idle, handed⟩)
    (received : n.received client = handed.length)
    (isOpen : (n.server.handlers client).closed = false)
    (receives : n.server.step authenticator session (.frame client call.received) = some server) :
    run (Network.step authenticator session) n
      [.inbound client (.arrive (Transmitter.transmit call).length), .inbound client .read,
        .receive client] =
      some { n.serve server with
        inbound := Function.update n.inbound client ⟨[], Receiver.idle, handed ++ [call.received]⟩
        received := Function.update n.received client (handed.length + 1) } := by
  have read :
      Receiver.reader.next (Receiver.reader.feed Receiver.idle (Transmitter.transmit call)) =
      some ([call.received], Receiver.idle) := Wire.reads_wellFormed wellFormed
  simp [Network.step, Connection.step, underWay, received, isOpen, read, receives, Network.serve,
    Network.transmitted]

theorem run_frame {call : Call} (wellFormed : WellFormed (isAscii ·) call) {handed : List Call}
    {server : Server τ}
    (waiting : n.inbound client = ⟨[], Receiver.idle, handed⟩)
    (received : n.received client = handed.length)
    (isOpen : (n.server.handlers client).closed = false)
    (receives : n.server.step authenticator session (.frame client call.received) = some server) :
    run (Network.step authenticator session) n
      [.inbound client (.send (Transmitter.transmit call)),
        .inbound client (.arrive (Transmitter.transmit call).length),
        .inbound client .read, .receive client] =
      some { n.serve server with
        inbound := Function.update n.inbound client ⟨[], Receiver.idle, handed ++ [call.received]⟩
        received := Function.update n.received client (handed.length + 1) } := by
  have sent : n.step authenticator session (.inbound client (.send (Transmitter.transmit call))) =
      some { n with inbound := Function.update n.inbound client ⟨Transmitter.transmit call,
        Receiver.idle, handed⟩ } := by
    simp [Network.step, Connection.step, waiting]
  rw [run_cons, sent, Option.bind_some]
  refine Eq.trans (run_arrived (n := { n with inbound := Function.update n.inbound client _ })
    wellFormed ?_ received isOpen
    receives) ?_
  · exact Function.update_self ..
  · simp [Network.serve, Network.transmitted]

theorem run_outbound {actions : List (ConnectionAction UInt8)}
    {connection : Connection Receiver UInt8 Call}
    (runs : run (Connection.step Receiver.reader) (n.outbound client) actions = some connection)
    (noSend : ∀ piece, .send piece ∉ actions) :
    run (Network.step authenticator session) n (actions.map (.outbound client)) =
      some { n with outbound := Function.update n.outbound client connection } := by
  induction actions generalizing n with
  | nil =>
    cases runs
    simp
  | cons action actions inductionHypothesis =>
    obtain ⟨middle, first, rest⟩ := run_cons_eq_some.mp runs
    have moves : n.step authenticator session (.outbound client action) =
        some { n with outbound := Function.update n.outbound client middle } := by
      cases action with
      | send piece => exact absurd List.mem_cons_self (noSend piece)
      | arrive count => simp [Network.step, first]
      | read => simp [Network.step, first]
    have rest' : run (Connection.step Receiver.reader)
        (({ n with outbound := Function.update n.outbound client middle } : Network τ).outbound
          client) actions = some connection := by
      simpa using rest
    rw [List.map_cons, run_cons, moves, Option.bind_some,
      inductionHypothesis rest' fun piece member => noSend piece (List.mem_cons_of_mem _ member)]
    simp

/-- In every state a client can receive all that has been written to it. -/
theorem exists_quiet (n : Network τ) (client : Nat) :
    ∃ (actions : List (ConnectionAction UInt8)) (n' : Network τ),
    run (Network.step authenticator session) n (actions.map (.outbound client)) = some n' ∧
      n'.server = n.server ∧
      (n'.outbound client).Quiet Receiver.reader := by
  obtain ⟨rounds, final, reached, quiet⟩ :
    ∃ rounds final, run (Connection.step Receiver.reader) (n.outbound client) _ = some final ∧
      final.Quiet Receiver.reader := Connection.exists_quiet (n.outbound client)
  refine ⟨_, _, run_outbound reached ?_, rfl, by simpa using quiet⟩
  intro piece member
  obtain other | replicated := List.mem_cons.mp member
  · cases other
  · cases List.eq_of_mem_replicate replicated

end Wires

/-! ### A client that connects and subscribes, and a send -/

section Sample

def connectFrame : Call := ⟨.connect, none, none⟩

def subscribeFrame : Call := ⟨.subscribe, Broker.onTracks, none⟩

def connectedFrame : Call := ⟨.connected, some (Dict.ofPairs [("session", some "")]), none⟩

def frameTrace (call : Call) : List Network.Action :=
  [.inbound 0 (.send (Transmitter.transmit call)),
    .inbound 0 (.arrive (Transmitter.transmit call).length), .inbound 0 .read,
    .receive 0]

def sampleTrace : List Network.Action :=
  frameTrace connectFrame ++ (frameTrace subscribeFrame ++ [.server (.call 1 Broker.sampleSend)])

def sampleStep (n : Network String) (action : Network.Action) : Option (Network String) :=
  n.step AllowAllAuthenticator (fun _ => "") action

def serverAfter (s : Server String) (action : Server.Action) : Option (Server String) :=
  s.step AllowAllAuthenticator (fun _ => "") action

def connectedServer : Server String :=
  (serverAfter Server.start (.frame 0 connectFrame.received)).get rfl

def subscribedServer : Server String :=
  (serverAfter connectedServer (.frame 0 subscribeFrame.received)).get rfl

def sendingServer : Server String :=
  (serverAfter subscribedServer (.call 1 Broker.sampleSend)).get rfl

theorem onTracks_wellFormed (command : Command) {body : Option String}
    (letters : ∀ text, body = some text →
      text.toList.all (fun c => isAscii c && decide (c ≠ '\x00')) = true) :
    WellFormed (isAscii ·) ⟨command, Broker.onTracks, body⟩ := by
  constructor
  · rintro _ ⟨⟩ item member
    cases List.mem_singleton.mp member
    exact ⟨by simp [isAscii, lineEnd], rfl, "tracks", rfl, by simp [isAscii, lineEnd], rfl⟩
  · intro text same c member
    simpa using List.all_eq_true.mp (letters text same) c member

theorem connectedFrame_wellFormed : WellFormed (isAscii ·) connectedFrame := by
  refine ⟨?_, fun _ same => nomatch same⟩
  rintro _ ⟨⟩ item member
  cases List.mem_singleton.mp member
  exact ⟨by simp [isAscii, lineEnd], rfl, "", rfl, by simp, rfl⟩

theorem subscribeFrame_wellFormed : WellFormed (isAscii ·) subscribeFrame :=
  onTracks_wellFormed .subscribe fun _ same => nomatch same

def connectedNetwork : Network String :=
  { (Network.start : Network String).serve connectedServer with
    inbound := Function.update (Network.start : Network String).inbound 0
      ⟨[], Receiver.idle, [connectFrame.received]⟩
    received := Function.update (Network.start : Network String).received 0 1 }

theorem sampleTrace_runs :
    ∃ n, run sampleStep Network.start sampleTrace = some n ∧ n.server = sendingServer ∧
    n.inbound 0 = ⟨[], Receiver.idle, [connectFrame.received, subscribeFrame.received]⟩ ∧
      n.received 0 = 2 := by
  have wellFormed : WellFormed (isAscii ·) connectFrame := Wire.wellFormed_bare .connect
  have connected :
      (Network.start : Network String).server.step AllowAllAuthenticator (fun _ => "")
        (.frame 0 connectFrame.received) = some connectedServer := (Option.some_get _).symm
  have waiting : (Network.start : Network String).inbound 0 = ⟨[], Receiver.idle, []⟩ := rfl
  have connects : run sampleStep Network.start (frameTrace connectFrame) = some connectedNetwork :=
    run_frame wellFormed waiting rfl rfl connected
  have subscribed :
      connectedNetwork.server.step AllowAllAuthenticator (fun _ => "")
        (.frame 0 subscribeFrame.received) = some subscribedServer := (Option.some_get _).symm
  have waiting' : connectedNetwork.inbound 0 = ⟨[], Receiver.idle, [connectFrame.received]⟩ := rfl
  have subscribes : run sampleStep connectedNetwork (frameTrace subscribeFrame) = some _ :=
    run_frame subscribeFrame_wellFormed waiting' rfl rfl subscribed
  refine ⟨_, run_append_eq_some.mpr ⟨_, connects, run_append_eq_some.mpr ⟨_, subscribes, rfl⟩⟩, rfl,
    rfl, rfl⟩

theorem framesWellFormed :
    ∀ call ∈ [connectFrame, subscribeFrame], WellFormed (isAscii ·) call := by
  intro call member
  obtain rfl | rfl := by simpa using member
  · exact Wire.wellFormed_bare .connect
  · exact subscribeFrame_wellFormed

theorem received_sample :
    Wire.received ([connectFrame, subscribeFrame].flatMap Transmitter.transmit) =
    [connectFrame, subscribeFrame].map Call.received := by
  have whole := Wire.received_append framesWellFormed []
  rw [List.append_nil, Wire.received_nil, List.append_nil] at whole
  exact whole

/-- The server has run with the two frames. -/
theorem frames_are_received : ∃ n actions, run sampleStep Network.start sampleTrace = some n ∧
    run serverAfter Server.start actions = some n.server ∧ framesOf 0 actions =
      [connectFrame.received, subscribeFrame.received] := by
  obtain ⟨n, reached, _, inbound, received⟩ := sampleTrace_runs
  obtain ⟨⟨actions, ran, _, frames⟩, _⟩ := served_over_wire reached
  refine ⟨n, actions, reached, ran, ?_⟩
  have quiet : (n.inbound 0).Quiet Receiver.reader := inbound ▸ ⟨rfl, rfl⟩
  rw [(frames 0).2 quiet (by rw [received, inbound]; rfl)]
  exact received_sample

/-- And the client receives that it is connected, and the send. -/
theorem subscriber_hears : ∃ trace n, run sampleStep Network.start trace = some n ∧
    (n.outbound 0).handed = [connectedFrame.received, Broker.sampleSend.asMessage.received] := by
  obtain ⟨n, reached, server, _, _⟩ := sampleTrace_runs
  obtain ⟨arrivals, n', goesOn, same, quiet⟩ : ∃ arrivals n', run sampleStep n _ = some n' ∧ _ :=
    exists_quiet n 0
  refine ⟨_, n', run_append_eq_some.mpr ⟨n, reached, goesOn⟩, ?_⟩
  have calls : ∀ k call, .server (.call k call) ∈ sampleTrace ++ arrivals.map (.outbound 0) →
      OneFrame call := by
    intro k call member
    obtain ⟨_, rfl⟩ : k = 1 ∧ call = Broker.sampleSend := by
      simpa [sampleTrace, frameTrace] using member
    exact Wire.oneFrame_of_wellFormed (onTracks_wellFormed .send (by rintro _ ⟨⟩; decide))
  have nothingMore : written 0 (arrivals.map (.outbound 0)) = [] :=
    List.flatMap_eq_nil_iff.mpr fun action member => by
      obtain ⟨arrival, _, rfl⟩ := List.mem_map.mp member
      rfl
  have own : ∀ call ∈ Wire.received (written 0 (sampleTrace ++ arrivals.map (.outbound 0))),
      OneFrame call := by
    have wrote :
        written 0 sampleTrace = [connectFrame, subscribeFrame].flatMap Transmitter.transmit := by
      simp [written, sampleTrace, frameTrace, Connection.sent]
    rw [written_append, nothingMore, List.append_nil, wrote, received_sample]
    intro call member
    obtain ⟨frame, there, rfl⟩ := List.mem_map.mp member
    exact Wire.oneFrame_of_wellFormed (Wire.wellFormed_received.mpr (framesWellFormed frame there))
  have refusals : ∀ login passcode message, AllowAllAuthenticator.connect login passcode =
    .error message →
      '\x00' ∉ (concatOperand message).toList := by
    intro login passcode message refused
    cases refused
  obtain ⟨_, _, all, _⟩ := messages_over_wire (run_append_eq_some.mpr ⟨n, reached, goesOn⟩)
    (fun _ => inLine_of_all rfl)
    refusals calls own
  rw [(all (by rw [same, server]; rfl) quiet).1, same, server]
  have handed :
      IntraVMClient.handedTo (.socket 0) sendingServer.handed =
    [connectedFrame, Broker.sampleSend.asMessage] := rfl
  have message : Broker.sampleSend.asMessage.reread = Broker.sampleSend.asMessage.received :=
    Wire.reread_of_wellFormed (onTracks_wellFormed .message (by rintro _ ⟨⟩; decide))
  rw [handed, List.map_cons, List.map_cons, List.map_nil,
    Wire.reread_of_wellFormed connectedFrame_wellFormed, message]

end Sample

end TrainWatch.Verified.Network
