import TrainWatch.Stomp.NetworkClient
import TrainWatch.Verified.Network

/-! # From a send to the listeners across the network

A client of the library that gives a listener with every subscription.  While the calls of
the clients in the server's VM are in order, and whatever bytes the other network clients
write, what is due to it on a channel that it does not leave is told to the listeners in
order; the client can be behind, and only messages of channels that it was leaving are put
on its stack.
-/

namespace TrainWatch.Verified.Subscribers

open TrainWatch.Java TrainWatch.Library TrainWatch.Stomp TrainWatch.Stomp.Server
open TrainWatch.Verified.PlainClients

/-! ## What is due to a client -/

section Due

variable {τ : Type} {authenticator : Authenticator τ} {sessions : Nat → String} {k : Nat}
variable {n : Network τ} {transmitted : List Call} {m : Call}

/-- Nobody is subscribed without a SUBSCRIBE that was performed. -/
theorem exists_subscribe {peer : Peer} {channel : Option String} {entries : List (Performed τ)}
    (subscribed : Broker.subscribed authenticator peer channel entries = true) :
    ∃ entry ∈ entries, entry.peer = peer ∧ entry.call.command = .subscribe ∧
      entry.call.destination = channel := by
  rw [Broker.subscribed] at subscribed
  cases last : (entries.filterMap (Broker.verdict authenticator peer channel)).getLast? with
  | none =>
    rw [last] at subscribed
    cases subscribed
  | some word =>
    rw [last, Option.getD_some] at subscribed
    -- the last word about the channel is a subscription
    subst subscribed
    obtain ⟨entry, member, said⟩ := List.mem_filterMap.mp (List.mem_of_getLast? last)
    refine ⟨entry, member, ?_⟩
    unfold Broker.verdict at said
    split at said
    · rename_i own
      split at said
      · rename_i command
        split at said
        · rename_i here
          exact ⟨own, command, here.1⟩
        · cases said
      · split at said
        · cases said
        · cases said
      · cases said
      · cases said
    · cases said

theorem mem_due {peer : Peer} {entries : List (Performed τ)}
    (member : m ∈ Broker.due authenticator peer entries) :
    ∃ send ∈ entries, send.call.command = .send ∧ m = send.call.asMessage ∧ ∃ entry ∈ entries,
      entry.peer = peer ∧ entry.call.command = .subscribe ∧
        entry.call.destination = m.destination := by
  obtain ⟨first, send, last, rfl, isDue, rfl⟩ := Delivery.mem_dueAfter member
  rw [List.nil_append, Broker.isDue, Bool.and_eq_true, Bool.and_eq_true] at isDue
  obtain ⟨⟨isSend, _⟩, subscribed⟩ := isDue
  obtain ⟨entry, inFirst, own⟩ := exists_subscribe subscribed
  refine ⟨send, List.mem_append_right _ List.mem_cons_self, by simpa using isSend, rfl, entry,
    List.mem_append_left _ inFirst, ?_⟩
  rw [Delivery.destination_asMessage]
  exact own

theorem wellFormed_asMessage {charset : Char → Prop} {call : Call}
    (wellFormed : WellFormed charset call) :
    WellFormed charset call.asMessage := by
  obtain ⟨headers, body⟩ := Wire.wellFormed_received.mpr wellFormed
  exact ⟨headers, wellFormed.body⟩

theorem wellFormed_mono {charset charset' : Char → Prop} (within : ∀ c, charset c → charset' c)
    {call : Call}
    (wellFormed : WellFormed charset call) : WellFormed charset' call := by
  refine ⟨fun headers same item member => ?_, fun body same c member => ?_⟩
  · obtain ⟨keyLetters, keyTrimmed, value, isValue, valueLetters, valueTrimmed⟩ :=
      wellFormed.headers headers same item member
    exact ⟨fun c letter => ⟨within c (keyLetters c letter).1, (keyLetters c letter).2⟩, keyTrimmed,
      value, isValue,
      fun c letter => ⟨within c (valueLetters c letter).1, (valueLetters c letter).2⟩, valueTrimmed⟩
  · exact ⟨within c (wellFormed.body body same c member).1, (wellFormed.body body same c member).2⟩

theorem destination_received (call : Call) : call.received.destination = call.destination := by
  rw [Call.received, Call.destination, Call.destination]
  cases call.headers <;> rfl

/-- The network has run with the calls that a client has transmitted, and with calls in the VM that
    are in order. -/
def Carried (authenticator : Authenticator τ) (sessions : Nat → String) (k : Nat) (n : Network τ)
    (transmitted : List Call) : Prop :=
  ∃ history, run (Network.step authenticator sessions) Network.start history = some n ∧
    Network.written k history = transmitted.flatMap Transmitter.transmit ∧
      ∀ j call, .server (.call j call) ∈ history → WellFormed Decoded call

variable (own : ∀ call ∈ transmitted, WellFormed (isAscii ·) call)
include own

theorem received_of_wrote {history : List Network.Action}
    (wrote : Network.written k history = transmitted.flatMap Transmitter.transmit) :
    Wire.received (Network.written k history) = transmitted.map Call.received := by
  have whole := Wire.received_append own []
  rw [List.append_nil, Wire.received_nil, List.append_nil] at whole
  rw [wrote, whole]

variable (carried : Carried authenticator sessions k n transmitted)
include carried

/-- What is due to such a client is well formed, and of a channel that it has subscribed to itself.
    -/
theorem due_subscribed (member : m ∈ Broker.due authenticator (.socket k) n.server.performed) :
    WellFormed Decoded m ∧ ∃ call ∈ transmitted, call.command = .subscribe ∧
      call.destination = m.destination := by
  obtain ⟨history, reached, wrote, calls⟩ := carried
  have follows := Network.run_follows reached
  obtain ⟨send, inPerformed, isSend, rfl, entry, performed, peer, subscribes, here⟩ :=
    mem_due member
  constructor
  -- a receipt is performed too, but it is neither a send nor a subscription
  · obtain ⟨receipt, isReceipt⟩ | sent := Network.performed_wrote follows inPerformed
    · rw [isReceipt] at isSend
      cases isSend
    · refine wellFormed_asMessage ?_
      cases sender : send.peer with
      | intraVM j =>
        rw [sender] at sent
        exact calls j _ sent
      | socket j =>
        rw [sender] at sent
        obtain frame | report := Wire.received_decoded _ _ sent
        · exact frame.2.2
        · rw [report.1] at isSend
          cases isSend
  · obtain ⟨receipt, isReceipt⟩ | read := Network.performed_wrote follows performed
    · rw [isReceipt] at subscribes
      cases subscribes
    · rw [peer, Network.Wrote, received_of_wrote own wrote] at read
      obtain ⟨call, there, same⟩ := List.mem_map.mp read
      rw [← same] at subscribes here
      exact ⟨call, there, subscribes, (destination_received call).symm.trans here⟩

theorem destination_due (member : m ∈ Broker.due authenticator (.socket k) n.server.performed) :
    m.reread.destination = m.destination := by
  obtain ⟨wellFormed, call, there, _, here⟩ := due_subscribed own carried member
  rw [Wire.destination_reread wellFormed, ← here, ← Wire.destination_reread (own call there),
    Wire.reread_of_wellFormed (own call there), destination_received]

theorem ofChannel_due (channel : String) :
    Inbox.ofChannel channel
      ((Broker.due authenticator (.socket k) n.server.performed).map Call.reread) =
      (Inbox.ofChannel channel (Broker.due authenticator (.socket k) n.server.performed)).map
        Call.reread := by
  rw [Inbox.ofChannel, List.filter_map]
  refine congrArg (List.map Call.reread) (List.filter_congr fun m member => ?_)
  simp [destination_due own carried member]

variable (inLine : ∀ handler, Network.InLine (sessions handler))
variable (refusals : ∀ login passcode message, authenticator.connect login passcode =
    .error message → '\x00' ∉ (concatOperand message).toList)
include inLine refusals

/-- The messages that have arrived are the first of those due, and with nothing under way all of
    them. -/
theorem arrived_due :
    ((n.outbound k).handed.filter fun call => call.command = .message) <+:
        (Broker.due authenticator (.socket k) n.server.performed).map Call.reread ∧
      ((n.server.handlers k).closed = false → (n.outbound k).Quiet Receiver.reader →
        ((n.outbound k).handed.filter fun call => call.command = .message) =
          (Broker.due authenticator (.socket k) n.server.performed).map Call.reread) := by
  obtain ⟨history, reached, wrote, calls⟩ := carried
  have follows := Network.run_follows reached
  have ownFrames : ∀ call ∈ Wire.received (Network.written k history), OneFrame call := by
    intro call member
    rw [received_of_wrote own wrote] at member
    obtain ⟨frame, there, rfl⟩ := List.mem_map.mp member
    exact Wire.oneFrame_of_wellFormed (Wire.wellFormed_received.mpr (own frame there))
  obtain ⟨handed, whole⟩ := Network.handed_rereads follows inLine refusals
    (fun j call member => Wire.oneFrame_of_wellFormed (calls j call member)) ownFrames
  rw [← Network.filter_rereads follows k]
  exact ⟨handed.filter _, fun isOpen quiet => by rw [whole isOpen quiet]⟩

theorem arrived_subscribed (member : m ∈ (n.outbound k).handed) (isMessage : m.command = .message) :
    m.headers.isSome ∧ ∃ call ∈ transmitted, call.command = .subscribe ∧
      call.destination = m.destination := by
  have due := (arrived_due own carried inLine refusals).1.subset
    (List.mem_filter.mpr ⟨member, by simpa using isMessage⟩)
  obtain ⟨m', there, rfl⟩ := List.mem_map.mp due
  obtain ⟨_, call, subscribed, subscribes, here⟩ := due_subscribed own carried there
  exact ⟨rfl, call, subscribed, subscribes, here.trans (destination_due own carried there).symm⟩

end Due

/-! ## What the client makes of it -/

section Client

variable {τ ℓ : Type} [DecidableEq ℓ] {authenticator : Authenticator τ} {sessions : Nat → String}
    {k : Nat}
variable {s s' : NetworkClient τ ℓ} {login passcode : Option String}

/-- A method that leaves no subscription without a listener. -/
def Attends : Use ℓ → Prop
  | .subscribe _ listener _ => listener.isSome
  | .subscribeW _ listener _ _ => listener.isSome
  | _ => True

/-- The listeners are those of the channels that the client has last subscribed to. -/
def Said (session : Session ℓ) : Prop :=
  ∀ name, (session.client.listeners name).isSome = wanted name session.transmitted

omit [DecidableEq ℓ] in
theorem said_snoc {session session' : Session ℓ} {call : Call} (said : Said session)
    (silent : ∀ name, word name call = none)
    (listeners : session'.client.listeners = session.client.listeners)
    (transmitted : session'.transmitted = session.transmitted ++ [call]) : Said session' := by
  intro name
  rw [listeners, transmitted, wanted_snoc, silent, said]
  rfl

theorem said_use {session : Session ℓ} {use : Use ℓ} (method : ∀ call, use ≠ .receive call)
    (attends : Attends use)
    (said : Said session) :
    Said (session.use use) ∧ ∃ calls,
    (session.use use).transmitted = session.transmitted ++ calls := by
  have speaks : Speaks session (session.use use) →
      Said (session.use use) ∧ ∃ calls, (session.use use).transmitted = session.transmitted ++
        calls := by
    rintro (⟨transmitted, listeners⟩ | ⟨call, transmitted, _, _, listeners⟩)
    · exact ⟨fun name => by rw [listeners, transmitted, said], [],
        by rw [transmitted, List.append_nil]⟩
    · exact ⟨fun name => by rw [listeners, transmitted, wanted_snoc, said], [call], transmitted⟩
  cases use with
  -- `speaks_use` is about clients that use no transaction
  | begin headers => exact ⟨said_snoc said (fun _ => rfl) rfl rfl, _, rfl⟩
  | commit => exact ⟨said_snoc said (fun _ => rfl) rfl rfl, _, rfl⟩
  | commitWith headers => exact ⟨said_snoc said (fun _ => rfl) rfl rfl, _, rfl⟩
  | commitW headers receipt => exact ⟨said_snoc said (fun _ => rfl) rfl rfl, _, rfl⟩
  | abort headers => exact ⟨said_snoc said (fun _ => rfl) rfl rfl, _, rfl⟩
  | _ => exact speaks (speaks_use session method attends)

theorem wanted_or_left {channel : Option String} {calls : List Call} {call : Call}
    (member : call ∈ calls)
    (subscribes : call.command = .subscribe) (here : call.destination = channel) :
    wanted channel calls = true ∨ ∃ other ∈ calls, other.command = .unsubscribe ∧
      other.destination = channel := by
  have said : word channel call = some true := by simp [word, subscribes, here]
  cases last : (calls.filterMap (word channel)).getLast? with
  | none =>
    have nothing := List.getLast?_eq_none_iff.mp last
    rw [List.filterMap_eq_nil_iff] at nothing
    rw [nothing call member] at said
    cases said
  | some stays =>
    cases stays with
    | true => exact .inl (by rw [wanted, last, Option.getD_some])
    | false =>
      obtain ⟨other, there, left⟩ := List.mem_filterMap.mp (List.mem_of_getLast? last)
      exact .inr ⟨other, there, word_eq_false left⟩

/-! ### Steps and runs -/

section Carried

variable {n n' : Network τ} {transmitted : List Call}

theorem carried_step (carried : Carried authenticator sessions k n transmitted)
    {action : Network.Action} {calls : List Call}
    (stepped : n.step authenticator sessions action = some n')
    (wrote : Network.written k [action] = calls.flatMap Transmitter.transmit)
    (inOrder : ∀ j call, action = .server (.call j call) → WellFormed Decoded call) :
    Carried authenticator sessions k n' (transmitted ++ calls) := by
  obtain ⟨history, reached, written, before⟩ := carried
  refine ⟨history ++ [action], run_snoc_eq_some.mpr ⟨n, reached, stepped⟩, ?_,
    fun j call member => ?_⟩
  · rw [Network.written_append, written, wrote, List.flatMap_append]
  · obtain earlier | now := List.mem_append.mp member
    · exact before j call earlier
    · exact inOrder j call (List.mem_singleton.mp now).symm

theorem written_others {action : Network.Action} (others : NetworkClient.own k action = false) :
    Network.written k [action] = [] := by
  cases action with
  | inbound client action =>
    cases action with
    | send piece =>
      have different : client ≠ k := by simpa [NetworkClient.own] using others
      simp [Network.written, different]
    | _ => simp [Network.written, Connection.sent]
  | _ => rfl

theorem handed_others {action : Network.Action} (others : action ≠ .outbound k .read)
    (stepped : n.step authenticator sessions action = some n') : (n'.outbound k).handed =
    (n.outbound k).handed := by
  cases action with
  | server action =>
    obtain ⟨_, server, _, rfl⟩ := Network.step_server stepped
    rfl
  | receive handler =>
    obtain ⟨_, server, _, _, rfl⟩ := Network.step_receive stepped
    rfl
  | inbound client action =>
    obtain ⟨_, _, rfl⟩ := Network.step_inbound stepped
    rfl
  | outbound reader action =>
    obtain ⟨_, connection, moved, rfl⟩ := Network.step_outbound stepped
    -- only a round of the client's own connection hands it something
    by_cases own : reader = k
    · subst own
      simp only [Function.update_self]
      cases action with
      | send piece =>
        cases moved
        rfl
      | arrive count =>
        cases moved
        rfl
      | read => exact absurd rfl others
    · simp only [Function.update_of_ne (Ne.symm own)]

end Carried

/-- What a client keeps that gives a listener with every subscription. -/
structure Listening (authenticator : Authenticator τ) (sessions : Nat → String) (k : Nat)
    (s : NetworkClient τ ℓ) : Prop where
  carried : Carried authenticator sessions k s.network s.session.transmitted
  said : Said s.session
  heard : (∀ call ∈ s.session.transmitted, WellFormed (isAscii ·) call) →
    Heard s.session (s.network.outbound k).handed

omit [DecidableEq ℓ] in
theorem listening_start :
    Listening authenticator sessions k
    (NetworkClient.start k login passcode : NetworkClient τ ℓ) where
  carried := by
    refine ⟨[.inbound k (.send (Transmitter.transmit (NetworkClient.connectCall login passcode)))],
      rfl, ?_, by simp⟩
    simp [Network.written, Connection.sent, NetworkClient.start, Session.transmit, Session.start]
  said := fun name => rfl
  heard := fun _ => ⟨fun _ _ => rfl, by intro m member; cases member⟩

omit [DecidableEq ℓ] in
/-- What a method changes, and writes. -/
theorem listening_write {session : Session ℓ} {calls : List Call}
    (listening : Listening authenticator sessions k s)
    (said : Said session) (told : session.told = s.session.told)
    (queued : session.queued = s.session.queued)
    (transmitted : session.transmitted = s.session.transmitted ++ calls)
    (written : s.write authenticator sessions k session = some s') :
    Listening authenticator sessions k s' := by
  obtain ⟨network, moved, rfl⟩ := NetworkClient.write_eq_some written
  rw [NetworkClient.bytesSince, transmitted, List.drop_left] at moved
  refine ⟨?_, said, fun own => ?_⟩
  · show Carried authenticator sessions k network session.transmitted
    rw [transmitted]
    exact carried_step listening.carried moved (by simp [Network.written, Connection.sent])
      (by simp)
  · have before := listening.heard fun call member =>
      own call (transmitted ▸ List.mem_append_left _ member)
    show Heard session (network.outbound k).handed
    rw [handed_others (by simp) moved]
    exact heard_method before told queued transmitted

theorem listening_round (inLine : ∀ handler, Network.InLine (sessions handler))
    (refusals : ∀ login passcode message, authenticator.connect login passcode = .error message →
      '\x00' ∉ (concatOperand message).toList)
    (listening : Listening authenticator sessions k s)
    (stepped : s.step authenticator sessions k .round = some s') :
    Listening authenticator sessions k s' := by
  obtain ⟨network, moved, rfl⟩ := NetworkClient.step_round stepped
  obtain ⟨_, connection, read, rfl⟩ := Network.step_outbound moved
  obtain ⟨fresh, longer⟩ := Connection.handed_step read
  have handed :
      ((Function.update s.network.outbound k connection k).handed.drop
      (s.network.outbound k).handed.length) = fresh := by
    rw [Function.update_self, ← longer, List.drop_left]
  obtain ⟨listeners, _, transmitted, _⟩ := takes_all fresh s.session
  have carried : Carried authenticator sessions k _ (s.session.transmitted ++ []) :=
    carried_step listening.carried moved rfl (by simp)
  rw [List.append_nil] at carried
  simp only [handed]
  refine ⟨?_, fun name => ?_, fun own => ?_⟩
  · rw [transmitted]
    exact carried
  · rw [listeners, transmitted]
    exact listening.said name
  · rw [transmitted] at own
    simp only [Function.update_self, ← longer]
    refine heard_receives (listening.heard own) fun m member isMessage => ?_
    have arrived : m ∈ (Function.update s.network.outbound k connection k).handed := by
      rw [Function.update_self, ← longer]
      exact List.mem_append_right _ member
    -- its channel was subscribed to, so either somebody listens or the client has asked to leave it
    obtain ⟨hasHeaders, call, there, subscribes, here⟩ :=
      arrived_subscribed own carried inLine refusals arrived isMessage
    rw [listening.said]
    exact ⟨hasHeaders, wanted_or_left there subscribes here⟩

theorem listening_step (inLine : ∀ handler, Network.InLine (sessions handler))
    (refusals : ∀ login passcode message, authenticator.connect login passcode = .error message →
      '\x00' ∉ (concatOperand message).toList)
    (listening : Listening authenticator sessions k s) {action : NetworkClient.Action ℓ}
    (attends : ∀ use, action = .use use → Attends use)
    (inOrder : ∀ j call, action = .others (.server (.call j call)) → WellFormed Decoded call)
    (stepped : s.step authenticator sessions k action = some s') :
    Listening authenticator sessions k s' := by
  cases action with
  | login =>
    obtain ⟨network, same⟩ := NetworkClient.step_login stepped
    obtain ⟨carried, said, heard⟩ := listening
    obtain same | same := same
    · exact ⟨by rw [network, same]; exact carried, by rw [same]; exact said,
        by rw [network, same]; exact heard⟩
    -- an error is taken off its stack: neither the listeners nor the messages on theirs are touched
    · refine ⟨by rw [network, same]; exact carried, by rw [same]; exact said, fun own => ?_⟩
      rw [same] at own ⊢
      rw [network]
      obtain ⟨heard, queued⟩ := heard own
      exact ⟨heard, queued⟩
  | use use =>
    obtain ⟨method, written⟩ := NetworkClient.step_use stepped
    obtain ⟨said, calls, transmitted⟩ := said_use method (attends use rfl) listening.said
    obtain ⟨call, isReceive⟩ | ⟨_, told, queued, _⟩ := Inbox.use_cases s.session use
    · exact absurd isReceive (method call)
    · exact listening_write listening said told queued transmitted written
  | disconnect headers =>
    obtain ⟨middle, written, rfl⟩ := NetworkClient.step_disconnect stepped
    have said : Said (s.session.transmit ⟨.disconnect, headers, none⟩) :=
      said_snoc listening.said (fun _ => rfl) rfl rfl
    obtain ⟨carried, said, heard⟩ := listening_write listening said rfl rfl rfl written
    refine ⟨carried, said, fun own => ?_⟩
    obtain ⟨heard, queued⟩ := heard own
    exact ⟨heard, queued⟩
  | round => exact listening_round inLine refusals listening stepped
  | others action =>
    obtain ⟨others, network, moved, rfl⟩ := NetworkClient.step_others stepped
    have notRead : action ≠ .outbound k .read := by
      rintro rfl
      simp [NetworkClient.own] at others
    have carried : Carried authenticator sessions k network (s.session.transmitted ++ []) :=
      carried_step listening.carried moved (written_others others) fun j call same =>
        inOrder j call (congrArg _ same)
    rw [List.append_nil] at carried
    refine ⟨carried, listening.said, fun own => ?_⟩
    rw [handed_others notRead moved]
    exact listening.heard own

/-- While the intra-VM clients' calls are well formed, whatever bytes the other network clients
    write and however everything is cut and interleaved: on a channel that the client does not leave
    its listeners have been told the first of the messages due to it, in order and nothing else, and
    all of them when its handler is open and nothing is on its way; on its stack are messages of
    channels that it was leaving. -/
theorem heard_over_wire {trace : List (NetworkClient.Action ℓ)}
    (reached : run (NetworkClient.step authenticator sessions k)
      (NetworkClient.start k login passcode) trace = some s)
    (inLine : ∀ handler, Network.InLine (sessions handler))
    (refusals : ∀ login passcode message, authenticator.connect login passcode = .error message →
      '\x00' ∉ (concatOperand message).toList)
    (inOrder : ∀ j call, .others (.server (.call j call)) ∈ trace → WellFormed Decoded call)
    (attends : ∀ use, .use use ∈ trace → Attends use)
    (own : ∀ call ∈ s.session.transmitted, WellFormed (isAscii ·) call) :
    (∀ channel, Stays channel s.session.transmitted →
      Inbox.ofChannel channel (Inbox.heard s.session) <+:
          (Inbox.ofChannel channel
            (Broker.due authenticator (.socket k) s.network.server.performed)).map Call.reread ∧
        ((s.network.server.handlers k).closed = false →
          (s.network.outbound k).Quiet Receiver.reader →
          Inbox.ofChannel channel (Inbox.heard s.session) =
            (Inbox.ofChannel channel
              (Broker.due authenticator (.socket k) s.network.server.performed)).map Call.reread)) ∧
      ∀ m ∈ s.session.queued, ∃ call ∈ s.session.transmitted, call.command = .unsubscribe ∧
        call.destination = m.destination := by
  have listening : Listening authenticator sessions k s :=
    run_invariant (Listening authenticator sessions k) (fun _ member _ _ listening stepped =>
      listening_step inLine refusals listening (fun use same => attends use (same ▸ member))
        (fun j call same => inOrder j call (same ▸ member)) stepped) listening_start reached
  obtain ⟨heard, queued⟩ := listening.heard own
  -- the wire: what has arrived is the first part of what is due
  obtain ⟨first, all⟩ := arrived_due own listening.carried inLine refusals
  refine ⟨fun channel stays => ?_, queued⟩
  rw [heard channel stays, ← ofChannel_due own listening.carried]
  exact ⟨first.filter _, fun isOpen quiet => by rw [all isOpen quiet]⟩

/-! ### Frames on their way -/

/-- What is on its way between a client and its handler, and what has arrived. -/
structure At (k : Nat) (s : NetworkClient τ ℓ) (server : Server τ) (session : Session ℓ)
    (toServer : List UInt8)
    (frames : List Call) (toClient : List UInt8) (told : List Call) : Prop where
  server : s.network.server = server
  session : s.session = session
  inbound : s.network.inbound k = ⟨toServer, Receiver.idle, frames⟩
  received : s.network.received k = frames.length
  outbound : s.network.outbound k = ⟨toClient, Receiver.idle, told⟩

variable {server server' : Server τ} {session : Session ℓ} {toServer toClient : List UInt8}
    {frames told : List Call} {call : Call}

theorem run_others {actions : List Network.Action} {network : Network τ}
    (ran : run (Network.step authenticator sessions) s.network actions = some network)
    (others : ∀ action ∈ actions, NetworkClient.own k action = false) :
    run (NetworkClient.step authenticator sessions k) s
      (actions.map .others) = some { s with network := network } := by
  induction actions generalizing s with
  | nil =>
    cases ran
    rfl
  | cons action actions inductionHypothesis =>
    obtain ⟨middle, first, rest⟩ := run_cons_eq_some.mp ran
    have moved : s.step authenticator sessions k (.others action) =
        some { s with network := middle } := by
      simp [NetworkClient.step, others action List.mem_cons_self, first]
    rw [List.map_cons, run_cons, moved, Option.bind_some]
    exact inductionHypothesis rest fun other member => others other (List.mem_cons_of_mem _ member)

def receivedTrace (k : Nat) (call : Call) : List (NetworkClient.Action ℓ) :=
  [.others (.inbound k (.arrive (Transmitter.transmit call).length)), .others (.inbound k .read),
    .others (.receive k)]

def toldTrace (k : Nat) (call : Call) : List (NetworkClient.Action ℓ) :=
  [.others (.outbound k (.arrive (Transmitter.transmit call).length)), .round]

theorem at_received (here : At k s server session (Transmitter.transmit call) frames toClient told)
    (wellFormed : WellFormed (isAscii ·) call) (isOpen : (server.handlers k).closed = false)
    (receives : server.step authenticator sessions (.frame k call.received) = some server') :
    ∃ s', run (NetworkClient.step authenticator sessions k) s (receivedTrace k call) = some s' ∧
      s'.phase = s.phase ∧
      At k s' server' session [] (frames ++ [call.received])
        (toClient ++
          (IntraVMClient.handedTo (.socket k) (server'.handed.drop server.handed.length)).flatMap
          Transmitter.transmit) told := by
  obtain ⟨rfl, rfl, inbound, received, outbound⟩ := here
  have ran := Network.run_arrived wellFormed inbound received isOpen receives
  refine ⟨_, run_others ran (by simp [NetworkClient.own]), rfl, rfl, rfl, ?_, ?_, ?_⟩
  · simp
  · simp
  · simp [Network.serve, Network.transmitted, isOpen, outbound]

theorem at_told (here : At k s server session toServer frames (Transmitter.transmit call) told)
    (wellFormed : WellFormed (isAscii ·) call)
    (runs : s.phase = .connecting ∨ s.phase = .connected) :
    ∃ s', run (NetworkClient.step authenticator sessions k) s (toldTrace k call) = some s' ∧
      s'.phase = s.phase ∧
      At k s' server (session.receive call.received) toServer frames []
        (told ++ [call.received]) := by
  obtain ⟨rfl, rfl, inbound, received, outbound⟩ := here
  have read :
      Receiver.reader.next (Receiver.reader.feed Receiver.idle (Transmitter.transmit call)) =
      some ([call.received], Receiver.idle) := Wire.reads_wellFormed wellFormed
  refine ⟨{ s with
      network := { s.network with
        outbound :=
          Function.update s.network.outbound k ⟨[], Receiver.idle, told ++ [call.received]⟩ }
      session := s.session.receive call.received }, ?_, rfl, rfl, rfl, inbound, received,
        Function.update_self ..⟩
  simp [toldTrace, NetworkClient.step, NetworkClient.own, Network.step, Connection.step, outbound,
    read, runs]

theorem at_used (here : At k s server session toServer frames toClient told)
    (ready : s.phase = .connected) {use : Use ℓ}
    (method : ∀ call, use ≠ .receive call) :
    ∃ s', s.step authenticator sessions k (.use use) = some s' ∧ s'.phase = .connected ∧
      At k s' server (session.use use)
      (toServer ++ NetworkClient.bytesSince session (session.use use)) frames toClient told := by
  obtain ⟨rfl, rfl, inbound, received, outbound⟩ := here
  have used :
      s.use authenticator sessions k use = s.write authenticator sessions k
      (s.session.use use) := by
    cases use with
    | receive call => exact absurd rfl (method call)
    | _ => rfl
  simp only [NetworkClient.step, ready, if_true, used, NetworkClient.write, Network.step,
    Connection.step, Option.map_some]
  exact ⟨_, rfl, rfl, rfl, rfl, by simp [inbound], received, outbound⟩

theorem at_call (here : At k s server session toServer frames toClient told)
    (isOpen : (server.handlers k).closed = false) {j : Nat}
    (calls : server.step authenticator sessions (.call j call) = some server') :
    ∃ s', s.step authenticator sessions k (.others (.server (.call j call))) = some s' ∧
      s'.phase = s.phase ∧
      At k s' server' session toServer frames
        (toClient ++
          (IntraVMClient.handedTo (.socket k) (server'.handed.drop server.handed.length)).flatMap
          Transmitter.transmit) told := by
  obtain ⟨rfl, rfl, inbound, received, outbound⟩ := here
  refine ⟨{ s with network := s.network.serve server' }, ?_, rfl, rfl, rfl, inbound, received, ?_⟩
  · simp [NetworkClient.step, NetworkClient.own, Network.step, calls]
  · simp [Network.serve, Network.transmitted, isOpen, outbound]

/-! ### A client that connects and subscribes, and a send -/

def connectFrame : Call := NetworkClient.connectCall (some "visitor") (some "key")

def subscription : Use Unit := .subscribe (some "tracks") (some ()) none

def sampleTrace : List (NetworkClient.Action Unit) :=
  receivedTrace 0 connectFrame ++ (toldTrace 0 Network.connectedFrame ++
    (.login :: .use subscription ::
    (receivedTrace 0 Network.subscribeFrame ++ (.others (.server (.call 1 Broker.sampleSend)) ::
      toldTrace 0 Broker.sampleSend.asMessage))))

def sampleStep (s : NetworkClient String Unit) (action : NetworkClient.Action Unit) :
    Option (NetworkClient String Unit) :=
  s.step AllowAllAuthenticator (fun _ => "") 0 action

theorem connectFrame_wellFormed : WellFormed (isAscii ·) connectFrame := by
  have items : (Dict.ofPairs [("login", some "visitor"), ("passcode", some "key")]).items =
      [("login", some "visitor"), ("passcode", some "key")] := rfl
  refine ⟨?_, by rintro _ ⟨⟩⟩
  rintro _ ⟨⟩ item member
  rw [items] at member
  obtain rfl | rfl := by simpa using member
  · exact ⟨by simp [isAscii, lineEnd], rfl, "visitor", rfl, by simp [isAscii, lineEnd], rfl⟩
  · exact ⟨by simp [isAscii, lineEnd], rfl, "key", rfl, by simp [isAscii, lineEnd], rfl⟩

theorem sampleTrace_runs :
    ∃ s session,
      run sampleStep (NetworkClient.start 0 (some "visitor") (some "key")) sampleTrace = some s ∧
    session.transmitted = [connectFrame, Network.subscribeFrame] ∧
      At 0 s Network.sendingServer session []
        [connectFrame.received, Network.subscribeFrame.received] []
        [Network.connectedFrame.received, Broker.sampleSend.asMessage.received] := by
  have started :
      At 0 (NetworkClient.start 0 (some "visitor") (some "key") : NetworkClient String Unit)
        Server.start (Session.start.transmit connectFrame) (Transmitter.transmit connectFrame)
        [] [] [] := by
    refine ⟨rfl, rfl, ?_, rfl, rfl⟩
    simp [NetworkClient.start, Network.start, Connection.start, connectFrame]
  have connects :
      Server.start.step AllowAllAuthenticator (fun _ => "") (.frame 0 connectFrame.received) =
        some Network.connectedServer := rfl
  have subscribes :
      Network.connectedServer.step AllowAllAuthenticator (fun _ => "")
        (.frame 0 Network.subscribeFrame.received) =
        some Network.subscribedServer := (Option.some_get _).symm
  have sends :
      Network.subscribedServer.step AllowAllAuthenticator (fun _ => "")
        (.call 1 Broker.sampleSend) =
        some Network.sendingServer := (Option.some_get _).symm
  -- the CONNECT, the login and the SUBSCRIBE, then the send and its way back
  obtain ⟨s₁, ran₁, phase₁, at₁⟩ := at_received started connectFrame_wellFormed rfl connects
  have welcome :
      IntraVMClient.handedTo (.socket 0)
        (Network.connectedServer.handed.drop (Server.start : Server String).handed.length) =
      [Network.connectedFrame] := rfl
  rw [welcome, List.flatMap_singleton] at at₁
  obtain ⟨s₂, ran₂, phase₂, at₂⟩ :
    ∃ s₂, run sampleStep s₁ (toldTrace 0 Network.connectedFrame) = some s₂ ∧ _ :=
    at_told at₁ Network.connectedFrame_wellFormed (.inl phase₁)
  have waits : s₂.phase = .connecting := phase₂.trans phase₁
  have logsIn : sampleStep s₂ .login = some { s₂ with phase := .connected } := by
    have connected : s₂.session.client.connected = true := at₂.session ▸ rfl
    simp [sampleStep, NetworkClient.step, waits, connected]
  have at₃ : At 0 { s₂ with phase := .connected } _ _ _ _ _ _ :=
    ⟨at₂.server, at₂.session, at₂.inbound, at₂.received, at₂.outbound⟩
  obtain ⟨s₄, ran₄, phase₄, at₄⟩ :
    ∃ s₄, sampleStep { s₂ with phase := .connected } (.use subscription) = some s₄ ∧ _ :=
    at_used at₃ rfl (by simp [subscription])
  have piece :
      NetworkClient.bytesSince
        ((Session.start.transmit connectFrame).receive Network.connectedFrame.received)
        (((Session.start.transmit connectFrame).receive Network.connectedFrame.received).use
          subscription) =
      [Network.subscribeFrame].flatMap Transmitter.transmit := rfl
  rw [piece, List.flatMap_singleton] at at₄
  obtain ⟨s₅, ran₅, phase₅, at₅⟩ := at_received at₄ Network.subscribeFrame_wellFormed rfl subscribes
  obtain ⟨s₆, ran₆, phase₆, at₆⟩ := at_call at₅ rfl sends
  have relayed :
      IntraVMClient.handedTo (.socket 0)
        (Network.sendingServer.handed.drop Network.subscribedServer.handed.length) =
      [Broker.sampleSend.asMessage] := rfl
  rw [relayed, List.flatMap_singleton] at at₆
  have message : WellFormed (isAscii ·) Broker.sampleSend.asMessage :=
    Network.onTracks_wellFormed .message (by rintro _ ⟨⟩; decide)
  obtain ⟨s₇, ran₇, _, at₇⟩ : ∃ s₇, run sampleStep s₆ (toldTrace 0 Broker.sampleSend.asMessage) =
    some s₇ ∧ _ :=
    at_told at₆ message (.inr (phase₆.trans (phase₅.trans phase₄)))
  have subscribed := run_append_eq_some.mpr ⟨s₅, ran₅, run_cons_eq_some.mpr ⟨s₆, ran₆, ran₇⟩⟩
  have ready := run_cons_eq_some.mpr ⟨_, logsIn, run_cons_eq_some.mpr ⟨s₄, ran₄, subscribed⟩⟩
  exact ⟨s₇, _, run_append_eq_some.mpr ⟨s₁, ran₁, run_append_eq_some.mpr ⟨s₂, ran₂, ready⟩⟩,
    rfl, at₇⟩

/-- The send has been heard. -/
theorem subscriber_hears_send :
    ∃ s, run sampleStep (NetworkClient.start 0 (some "visitor") (some "key")) sampleTrace = some s ∧
    Inbox.ofChannel "tracks" (Inbox.heard s.session) = [Broker.sampleSend.asMessage.received] := by
  obtain ⟨s, session, reached, transmitted, here⟩ := sampleTrace_runs
  refine ⟨s, reached, ?_⟩
  rw [← here.session] at transmitted
  have refusals : ∀ login passcode message, AllowAllAuthenticator.connect login passcode =
    .error message →
      '\x00' ∉ (concatOperand message).toList := by
    intro login passcode message refused
    cases refused
  have inOrder : ∀ j call, .others (.server (.call j call)) ∈ sampleTrace →
      WellFormed Decoded call := by
    intro j call member
    obtain ⟨_, rfl⟩ : j = 1 ∧ call = Broker.sampleSend := by
      simpa [sampleTrace, receivedTrace, toldTrace] using member
    exact wellFormed_mono (fun _ =>
      .inl) (Network.onTracks_wellFormed .send (by rintro _ ⟨⟩; decide))
  have attends : ∀ use, .use use ∈ sampleTrace → Attends use := by
    intro use member
    obtain rfl : use = subscription := by simpa [sampleTrace, receivedTrace, toldTrace] using member
    rfl
  have own : ∀ call ∈ s.session.transmitted, WellFormed (isAscii ·) call := by
    intro call member
    rw [transmitted] at member
    obtain rfl | rfl := by simpa using member
    · exact connectFrame_wellFormed
    · exact Network.subscribeFrame_wellFormed
  have stays : Stays "tracks" s.session.transmitted := by
    rw [transmitted]
    intro call member unsubscribes
    obtain rfl | rfl := by simpa using member
    · cases unsubscribes
    · cases unsubscribes
  obtain ⟨heard, _⟩ := heard_over_wire reached (fun _ =>
    Network.inLine_of_all rfl) refusals inOrder attends own
  obtain ⟨_, all⟩ := heard "tracks" stays
  have isOpen : (s.network.server.handlers 0).closed = false := by
    rw [here.server]
    rfl
  have quiet : (s.network.outbound 0).Quiet Receiver.reader := here.outbound ▸ ⟨rfl, rfl⟩
  rw [all isOpen quiet, here.server]
  have due :
      Inbox.ofChannel "tracks"
        (Broker.due AllowAllAuthenticator (.socket 0) Network.sendingServer.performed) =
      [Broker.sampleSend.asMessage] := rfl
  have message : Broker.sampleSend.asMessage.reread = Broker.sampleSend.asMessage.received :=
    Wire.reread_of_wellFormed (Network.onTracks_wellFormed .message (by rintro _ ⟨⟩; decide))
  rw [due, List.map_singleton, message]

end Client

end TrainWatch.Verified.Subscribers
