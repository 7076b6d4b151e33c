import TrainWatch.Verified.PlainClients

/-! # From a send to the listeners

A client in the server's VM that uses no transactions and gives a listener with every
subscription.  While a call of it is on its way the client and the server disagree about
the channel of that call, and about no other.  What is due to the client on a channel that
it does not leave reaches the listeners, each message once and in order.
-/

namespace TrainWatch.Verified.Delivery

open TrainWatch.Library TrainWatch.Stomp TrainWatch.Stomp.Server
open TrainWatch.Verified.PlainClients

section Both

variable {τ ℓ : Type} [DecidableEq ℓ] {authenticator : Authenticator τ} {session : Nat → String}
    {k : Nat}
variable {s s' : IntraVMClient τ ℓ} {server : Server τ}

def Reachable (authenticator : Authenticator τ) (session : Nat → String) (server : Server τ) :
    Prop :=
  ∃ trace, run (Server.step authenticator session) Server.start trace = some server

theorem mem_dueAfter {peer : Peer} {before entries : List (Performed τ)} {m : Call}
    (member : m ∈ Broker.dueAfter authenticator peer before entries) :
    ∃ first entry last, entries = first ++ entry :: last ∧
      Broker.isDue authenticator peer
        (before ++ first) entry = true ∧ m = entry.call.asMessage := by
  induction entries generalizing before with
  | nil => cases member
  | cons entry entries inductionHypothesis =>
    rw [Broker.dueAfter] at member
    obtain now | later := List.mem_append.mp member
    · split at now
      · rename_i isDue
        exact ⟨[], entry, entries, rfl, by rw [List.append_nil]; exact isDue,
          List.mem_singleton.mp now⟩
      · cases now
    · obtain ⟨first, due, last, rfl, isDue, same⟩ := inductionHypothesis later
      exact ⟨entry :: first, due, last, rfl, by rw [List.append_assoc] at isDue; exact isDue, same⟩

theorem destination_asMessage (call : Call) : call.asMessage.destination = call.destination := by
  obtain ⟨command, headers, body⟩ := call
  cases headers with
  | none => rfl
  | some _ => rfl

/-- A message that the server hands to a client, in a step in which no call of that client but the
    last was performed, is of a channel that the client was subscribed to before the step. -/
theorem subscribed_of_handed {before after : Server τ} {peer : Peer} {more : List (Performed τ)}
    {fresh : List (Peer × Call)}
    (reached : Reachable authenticator session before)
    (reached' : Reachable authenticator session after)
    (performed : after.performed = before.performed ++ more)
    (handed : after.handed = before.handed ++ fresh)
    (others : ∀ entry ∈ more.dropLast, entry.peer ≠ peer) {m : Call}
    (member : m ∈ Broker.messagesTo peer fresh) :
    m.headers.isSome ∧
      Broker.subscribed authenticator peer m.destination before.performed = true := by
  obtain ⟨_, reached⟩ := reached
  obtain ⟨_, reached'⟩ := reached'
  have all := (Broker.run_serves reached').delivered peer
  rw [handed, performed, Broker.messagesTo_append, (Broker.run_serves reached).delivered,
    Broker.due, Broker.due,
    Broker.dueAfter_append, List.nil_append, List.append_cancel_left_eq] at all
  rw [all] at member
  obtain ⟨first, entry, last, rfl, isDue, rfl⟩ := mem_dueAfter member
  refine ⟨rfl, ?_⟩
  have earlier : ∀ entry ∈ first, entry.peer ≠ peer := by
    intro other inFirst
    apply others
    rw [List.dropLast_append_of_ne_nil (List.cons_ne_nil _ _)]
    exact List.mem_append_left _ inFirst
  rw [Broker.isDue, Broker.subscribed_others earlier, Bool.and_eq_true] at isDue
  rw [destination_asMessage]
  exact isDue.2

/-- The server has had the client's calls but for the one on its way; the client has listeners for
    the channels it has last subscribed to; and what came in has been heard, but for messages of
    channels it was leaving. -/
structure Agrees (authenticator : Authenticator τ) (session : Nat → String) (k : Nat)
    (s : IntraVMClient τ ℓ) : Prop where
  reached : Reachable authenticator session s.server
  made : s.server.madeBy (.intraVM k) ++ s.calling.toList = s.session.transmitted
  plain : ∀ call ∈ s.session.transmitted, Plain call
  connected : s.disconnected = false → ∀ call ∈ s.server.madeBy (.intraVM k), call.command ≠
    .disconnect
  left : s.disconnected = true → s.calling = none ∧
    ∃ calls last, s.server.madeBy (.intraVM k) = calls ++ [last] ∧ last.command = .disconnect
  said : s.disconnected = false →
    ∀ name, (s.session.client.listeners name).isSome = wanted name s.session.transmitted
  heard : Heard s.session (IntraVMClient.handedTo (.intraVM k) s.server.handed)

omit [DecidableEq ℓ] in
theorem agrees_start :
    Agrees authenticator session k (IntraVMClient.start : IntraVMClient τ ℓ) where
  reached := ⟨[], rfl⟩
  made := rfl
  plain := by intro call member; cases member
  connected := by intro _ call member; cases member
  left := by intro isLeft; cases isLeft
  said := fun _ _ => rfl
  heard := ⟨fun _ _ => rfl, by intro m member; cases member⟩

omit [DecidableEq ℓ] in
theorem plain_made (agrees : Agrees authenticator session k s) :
    ∀ call ∈ s.server.madeBy (.intraVM k), Plain call := by
  intro call member
  apply agrees.plain
  rw [← agrees.made]
  exact List.mem_append_left _ member

omit [DecidableEq ℓ] in
theorem subscribed_iff (agrees : Agrees authenticator session k s) (channel : Option String) :
    Broker.subscribed authenticator (.intraVM k) channel s.server.performed =
      (!s.disconnected && wanted channel (s.server.madeBy (.intraVM k))) := by
  obtain ⟨trace, reached⟩ := agrees.reached
  have plain := plain_made agrees
  have performed : callsFor (.intraVM k) s.server.performed = s.server.madeBy (.intraVM k) :=
    (performed_of_plain reached plain).2
  cases disconnected : s.disconnected with
  | false =>
    rw [subscribed_eq_wanted (performed ▸ agrees.connected disconnected), performed, Bool.not_false,
      Bool.true_and]
  | true =>
    obtain ⟨_, calls, last, ends, disconnects⟩ := agrees.left disconnected
    rw [subscribed_of_disconnect (performed.trans ends) disconnects, Bool.not_true, Bool.false_and]

omit [DecidableEq ℓ] in
theorem listened_or_leaving (agrees : Agrees authenticator session k s) {more : List (Performed τ)}
    {fresh : List (Peer × Call)}
    (reached : Reachable authenticator session server)
    (performed : server.performed = s.server.performed ++ more)
    (handed : server.handed = s.server.handed ++ fresh)
    (others : ∀ entry ∈ more.dropLast, entry.peer ≠ .intraVM k)
    {m : Call} (member : m ∈ Broker.messagesTo (.intraVM k) fresh) :
    m.headers.isSome ∧ ((s.session.client.listeners m.destination).isSome ∨
      ∃ call ∈ s.session.transmitted, call.command = .unsubscribe ∧
        call.destination = m.destination) := by
  obtain ⟨hasHeaders, subscribed⟩ :=
    subscribed_of_handed agrees.reached reached performed handed others member
  rw [subscribed_iff agrees, Bool.and_eq_true, Bool.not_eq_true'] at subscribed
  obtain ⟨here, before⟩ := subscribed
  refine ⟨hasHeaders, ?_⟩
  rw [agrees.said here, ← agrees.made]
  cases calling : s.calling with
  | none =>
    rw [Option.toList_none, List.append_nil]
    exact .inl before
  | some call =>
    rw [Option.toList_some, wanted_snoc, before]
    cases said : word m.destination call with
    | none => exact .inl rfl
    | some stays =>
      cases stays with
      | true => exact .inl rfl
      | false => exact .inr ⟨call, List.mem_append_right _ List.mem_cons_self, word_eq_false said⟩

theorem messagesTo_eq_filter (peer : Peer) (handed : List (Peer × Call)) :
    Broker.messagesTo peer handed =
    (IntraVMClient.handedTo peer handed).filter fun call => call.command = .message := by
  induction handed with
  | nil => rfl
  | cons first handed inductionHypothesis =>
    rw [Broker.messagesTo, IntraVMClient.handedTo] at inductionHypothesis ⊢
    by_cases own : first.1 = peer
    · by_cases isMessage : first.2.command = .message
      · simp [own, isMessage, inductionHypothesis]
      · simp [own, isMessage, inductionHypothesis]
    · simp [own, inductionHypothesis]

theorem handedTo_append (peer : Peer) (first second : List (Peer × Call)) :
    IntraVMClient.handedTo peer (first ++ second) =
    IntraVMClient.handedTo peer first ++ IntraVMClient.handedTo peer second := List.filterMap_append

omit [DecidableEq ℓ] in
theorem takes_serve (agrees : Agrees authenticator session k s) {more : List (Performed τ)}
    {frame : Option (Nat × Call)} (reached : Reachable authenticator session server)
    (grows : Grows authenticator session frame s.server server)
    (performed : server.performed = s.server.performed ++ more)
    (others : ∀ entry ∈ more.dropLast, entry.peer ≠ .intraVM k) :
    (s.serve k server).session.client.listeners = s.session.client.listeners ∧
      (s.serve k server).session.transmitted = s.session.transmitted ∧
        Heard (s.serve k server).session (IntraVMClient.handedTo (.intraVM k) server.handed) := by
  obtain ⟨fresh, handed⟩ := handed_grows grows
  have dropped : server.handed.drop s.server.handed.length = fresh := by
    rw [← handed, List.drop_left]
  obtain ⟨listeners, _, transmitted, _⟩ :=
    takes_all (IntraVMClient.handedTo (.intraVM k) fresh) s.session
  rw [IntraVMClient.serve, dropped, ← handed, handedTo_append]
  refine ⟨listeners, transmitted, heard_receives agrees.heard fun m member isMessage => ?_⟩
  refine listened_or_leaving agrees reached performed handed.symm others ?_
  rw [messagesTo_eq_filter]
  exact List.mem_filter.mpr ⟨member, by simpa using isMessage⟩

/-! ### Runs -/

omit [DecidableEq ℓ] in
theorem others_performed (agrees : Agrees authenticator session k s)
    (reached : Reachable authenticator session server)
    (made : server.madeBy (.intraVM k) = s.server.madeBy (.intraVM k)) {more : List (Performed τ)}
    (performed : server.performed = s.server.performed ++ more) :
    ∀ entry ∈ more, entry.peer ≠ .intraVM k := by
  have plain := plain_made agrees
  obtain ⟨_, before⟩ := agrees.reached
  obtain ⟨_, after⟩ := reached
  have same : callsFor (.intraVM k) server.performed = callsFor (.intraVM k) s.server.performed :=
    (performed_of_plain after (made ▸ plain)).2.trans
      (made.trans (performed_of_plain before plain).2.symm)
  rw [performed, callsFor, List.filterMap_append, ← callsFor, List.append_right_eq_self,
    List.filterMap_eq_nil_iff] at same
  intro entry member own
  have nothing := same entry member
  rw [if_pos own] at nothing
  cases nothing

omit [DecidableEq ℓ] in
theorem reachable_step {before after : Server τ} {action : Server.Action}
    (reached : Reachable authenticator session before)
    (stepped : before.step authenticator session action = some after) :
    Reachable authenticator session after := by
  obtain ⟨trace, reached⟩ := reached
  exact ⟨trace ++ [action], run_snoc_eq_some.mpr ⟨before, reached, stepped⟩⟩

omit [DecidableEq ℓ] in
theorem agrees_others (agrees : Agrees authenticator session k s) {action : Server.Action}
    (others : ∀ call, action ≠ .call k call)
    (stepped : s.server.step authenticator session action = some server) :
    Agrees authenticator session k (s.serve k server) := by
  have reached := reachable_step agrees.reached stepped
  have made : server.madeBy (.intraVM k) = s.server.madeBy (.intraVM k) :=
    madeBy_others others stepped
  have grows := step_grows stepped
  obtain ⟨more, performed⟩ := performed_grows grows
  have theirs := others_performed agrees reached made performed.symm
  obtain ⟨listeners, transmitted, heard⟩ := takes_serve agrees reached grows performed.symm
    fun entry member => theirs entry (List.dropLast_subset _ member)
  constructor
  · exact reached
  · rw [transmitted, ← agrees.made]
    exact congrArg (· ++ s.calling.toList) made
  · rw [transmitted]
    exact agrees.plain
  · intro here
    show ∀ call ∈ server.madeBy (.intraVM k), _
    rw [made]
    exact agrees.connected here
  · intro isLeft
    show _ ∧ ∃ calls last, server.madeBy (.intraVM k) = _ ∧ _
    rw [made]
    exact agrees.left isLeft
  · intro here name
    rw [listeners, transmitted]
    exact agrees.said here name
  · exact heard

omit [DecidableEq ℓ] in
theorem agrees_call (agrees : Agrees authenticator session k s) {call : Call}
    (calling : s.calling = some call)
    (makes : s.server.make authenticator (.intraVM k) call = some server) :
    Agrees authenticator session k
      { s.serve k server with calling := none, disconnected := call.command = .disconnect } := by
  have here : s.disconnected = false := by
    cases disconnected : s.disconnected with
    | false => rfl
    | true =>
      rw [(agrees.left disconnected).1] at calling
      cases calling
  -- the call on its way was the last one transmitted, and now it is made
  have transmitted : s.server.madeBy (.intraVM k) ++ [call] = s.session.transmitted := by
    rw [← agrees.made, calling, Option.toList_some]
  have stepped : s.server.step authenticator session (.call k call) = some server := makes
  have reached : Reachable authenticator session server := reachable_step agrees.reached stepped
  have made := madeBy_own makes
  have before : s.server.transactions (.intraVM k) = none := by
    obtain ⟨_, reachedBefore⟩ := agrees.reached
    exact (performed_of_plain reachedBefore (plain_made agrees)).1
  have plain :
      Plain call := agrees.plain call (transmitted ▸ List.mem_append_right _ List.mem_cons_self)
  obtain ⟨listeners, transmitted', heard⟩ := takes_serve agrees reached (step_grows stepped)
    (performed_of_make before plain makes) (by simp)
  constructor
  · exact reached
  · show server.madeBy (.intraVM k) ++ [] = (s.serve k server).session.transmitted
    rw [transmitted', made, transmitted, List.append_nil]
  · exact transmitted' ▸ agrees.plain
  · intro stays other member
    have notDisconnect : call.command ≠ .disconnect := by simpa using stays
    rw [show (s.serve k server).server.madeBy (.intraVM k) = _ from made] at member
    obtain earlier | last := List.mem_append.mp member
    · exact agrees.connected here other earlier
    · cases List.mem_singleton.mp last
      exact notDisconnect
  · intro leaves
    exact ⟨rfl, _, call, made, by simpa using leaves⟩
  · intro _ name
    show ((s.serve k server).session.client.listeners name).isSome = wanted name
      (s.serve k server).session.transmitted
    rw [listeners, transmitted']
    exact agrees.said here name
  · exact heard

/-- A method changes the client and sets a call on its way; after a disconnect only the former. -/
theorem use_cases {use : Use ℓ} (listens : Listens use) (used : s.use use = some s') :
    (∀ call, use ≠ .receive call) ∧
      (((s.session.use use).transmitted = s.session.transmitted ∧
          (∀ name, ((s.session.use use).client.listeners name).isSome =
            (s.session.client.listeners name).isSome) ∧
          s' = { s with session := s.session.use use }) ∨
        (s.disconnected = true ∧ s' = { s with
          session := { s.session.use use with
            transmitted := s.session.transmitted, awaited := s.session.awaited } }) ∨
        ∃ call, s.disconnected = false ∧ s.calling = none ∧
          (s.session.use use).transmitted = s.session.transmitted ++ [call] ∧ Plain call ∧
          (∀ name, ((s.session.use use).client.listeners name).isSome =
            (word name call).getD (s.session.client.listeners name).isSome) ∧
          s' = { s with session := s.session.use use, calling := some call }) := by
  have method : ∀ call, use ≠ .receive call := by
    rintro call rfl
    cases used
  refine ⟨method, ?_⟩
  have dispatched : s.use use = s.dispatch (s.session.use use) := by
    cases use with
    | receive call => exact absurd rfl (method call)
    | _ => rfl
  rw [dispatched, IntraVMClient.dispatch] at used
  -- a method makes one call or none; `dispatch` looks at what it has added
  obtain ⟨transmitted, listeners⟩ | ⟨call, transmitted, plain, _, listeners⟩ :=
    speaks_use s.session method listens
  · rw [transmitted, List.drop_length] at used
    cases used
    exact .inl ⟨transmitted, listeners, rfl⟩
  · rw [transmitted, List.drop_left] at used
    simp only at used
    split at used
    · rename_i isLeft
      cases used
      exact .inr (.inl ⟨isLeft, rfl⟩)
    · rename_i here
      split at used
      · cases used
      · rename_i free
        cases used
        exact .inr (.inr ⟨call, by simpa using here, by simpa using free, transmitted, plain,
          listeners, rfl⟩)

theorem agrees_use (agrees : Agrees authenticator session k s) {use : Use ℓ} (listens : Listens use)
    (used : s.use use = some s') : Agrees authenticator session k s' := by
  obtain ⟨method, changed⟩ := use_cases listens used
  obtain ⟨call, isReceive⟩ | ⟨_, told, queued, _⟩ := Inbox.use_cases s.session use
  · exact absurd isReceive (method call)
  obtain ⟨reached, made, plain, connected, left, said, heard⟩ := agrees
  obtain ⟨transmitted, listeners, rfl⟩ | ⟨isLeft, rfl⟩ |
    ⟨call, here, free, transmitted, isPlain, listeners, rfl⟩ := changed
  · refine ⟨reached, transmitted ▸ made, transmitted ▸ plain, connected, left,
      fun here name => ?_, ?_⟩
    · rw [listeners, transmitted]
      exact said here name
    · exact heard_method heard told queued (transmitted.trans (List.append_nil _).symm)
  · refine ⟨reached, made, plain, connected, left, fun here => ?_, heard_method heard told queued
      (List.append_nil _).symm⟩
    rw [isLeft] at here
    cases here
  · rw [free, Option.toList_none, List.append_nil] at made
    refine ⟨reached, ?_, ?_, connected, ?_, fun _ name => ?_,
      heard_method heard told queued transmitted⟩
    · rw [transmitted, ← made]
      rfl
    · intro other member
      rw [transmitted] at member
      obtain earlier | last := List.mem_append.mp member
      · exact plain other earlier
      · cases List.mem_singleton.mp last
        exact isPlain
    · intro isLeft
      rw [here] at isLeft
      cases isLeft
    · rw [listeners, transmitted, wanted_snoc, said here]

omit [DecidableEq ℓ] in
theorem agrees_disconnect (agrees : Agrees authenticator session k s)
    (here : s.disconnected = false)
    (free : s.calling = none) : Agrees authenticator session k
      { s with
        session := s.session.transmit ⟨.disconnect, none, none⟩
        calling := some ⟨.disconnect, none, none⟩ } := by
  obtain ⟨reached, made, plain, connected, left, said, heard⟩ := agrees
  rw [free, Option.toList_none, List.append_nil] at made
  refine ⟨reached, ?_, ?_, connected, ?_, fun _ name => ?_, heard_method heard rfl rfl rfl⟩
  · rw [Session.transmit, ← made]
    rfl
  · intro call member
    obtain earlier | last := List.mem_append.mp member
    · exact plain call earlier
    · cases List.mem_singleton.mp last
      exact ⟨by simp, by simp, by simp⟩
  · intro isLeft
    rw [here] at isLeft
    cases isLeft
  · show (s.session.client.listeners name).isSome = wanted name (s.session.transmitted ++ [_])
    rw [wanted_snoc, said here]
    rfl

theorem step_others {action : Server.Action}
    (stepped : s.step authenticator session k (.others action) = some s') :
    ∃ server, (∀ call, action ≠ .call k call) ∧
      s.server.step authenticator session action = some server ∧
      s' = s.serve k server := by
  simp only [IntraVMClient.step] at stepped
  split at stepped
  · rename_i client call
    split at stepped
    · cases stepped
    · rename_i other
      obtain ⟨server, ran, same⟩ := Option.map_eq_some_iff.mp stepped
      refine ⟨server, fun call' equal => ?_, ran, same.symm⟩
      cases equal
      exact other rfl
  · rename_i notCall
    obtain ⟨server, ran, same⟩ := Option.map_eq_some_iff.mp stepped
    exact ⟨server, fun call equal => notCall k call equal, ran, same.symm⟩

theorem agrees_step (agrees : Agrees authenticator session k s) {action : IntraVMClient.Action ℓ}
    (listens : ∀ use, action = .use use → Listens use)
    (stepped : s.step authenticator session k action = some s') :
    Agrees authenticator session k s' := by
  cases action with
  | use use => exact agrees_use agrees (listens use rfl) stepped
  | disconnect =>
    simp only [IntraVMClient.step] at stepped
    split at stepped
    · cases stepped
    · rename_i free
      rw [not_or, Bool.not_eq_true, Bool.not_eq_true, Option.isSome_eq_false_iff,
        Option.isNone_iff_eq_none] at free
      cases stepped
      exact agrees_disconnect agrees free.1 free.2
  | call =>
    simp only [IntraVMClient.step] at stepped
    split at stepped
    · cases stepped
    · rename_i call calling
      obtain ⟨server, makes, rfl⟩ := Option.map_eq_some_iff.mp stepped
      exact agrees_call agrees calling makes
  | others action =>
    obtain ⟨server, others, ran, rfl⟩ := step_others stepped
    exact agrees_others agrees others ran

theorem run_agrees {trace : List (IntraVMClient.Action ℓ)}
    (listens : ∀ use, .use use ∈ trace → Listens use)
    (reached : run (IntraVMClient.step authenticator session k) IntraVMClient.start trace =
      some s) :
    Agrees authenticator session k s :=
  run_invariant (Agrees authenticator session k)
    (fun _ member _ _ agrees stepped =>
      agrees_step agrees (fun use same => listens use (same ▸ member)) stepped)
    agrees_start reached

/-- In every interleaving of a client that makes one call at a time with the others: what was due to
    it on a channel that it has not left has been told to its listeners, in order, and nothing else
    on that channel has; on the stack are messages of channels that it was leaving; and once its
    call has returned, and before it disconnects, it is subscribed to the channels that it has
    listeners for. -/
theorem heard_is_due {trace : List (IntraVMClient.Action ℓ)}
    (listens : ∀ use, .use use ∈ trace → Listens use)
    (reached : run (IntraVMClient.step authenticator session k) IntraVMClient.start trace =
      some s) :
    (∀ channel, (∀ call ∈ s.session.transmitted, call.command = .unsubscribe →
      call.destination ≠ some channel) →
      Inbox.ofChannel channel (Inbox.heard s.session) =
        Inbox.ofChannel channel (Broker.due authenticator (.intraVM k) s.server.performed)) ∧
    (∀ m ∈ s.session.queued,
      ∃ call ∈ s.session.transmitted, call.command = .unsubscribe ∧
        call.destination = m.destination) ∧
    (s.calling = none → s.disconnected = false → ∀ channel,
      .intraVM k ∈ (s.server.listeners channel).getD [] ↔
        (s.session.client.listeners channel).isSome) := by
  have agrees := run_agrees listens reached
  obtain ⟨_, serverReached⟩ := agrees.reached
  have serves := Broker.run_serves serverReached
  refine ⟨fun channel stays => ?_, agrees.heard.queued, fun free here channel => ?_⟩
  · rw [agrees.heard.heard channel stays, ← messagesTo_eq_filter, serves.delivered]
  · have made := agrees.made
    rw [free, Option.toList_none, List.append_nil] at made
    rw [serves.listed.mem_iff, subscribed_iff agrees, here, agrees.said here, made, Bool.not_false,
      Bool.true_and]

/-- The client subscribes, and another one sends. -/
def sampleTrace : List (IntraVMClient.Action Unit) :=
  [.use (.subscribe (some "tracks") (some ()) none), .call, .others (.call 1 Broker.sampleSend)]

def sampleClient : IntraVMClient String Unit :=
  (run (IntraVMClient.step AllowAllAuthenticator (fun _ => "") 0) IntraVMClient.start
    sampleTrace).get rfl

theorem sampleClient_hears :
    Inbox.ofChannel "tracks" (Inbox.heard sampleClient.session) = [Broker.sampleSend.asMessage] ∧
    (.intraVM 0 ∈ (sampleClient.server.listeners (some "tracks")).getD [] ↔
      (sampleClient.session.client.listeners (some "tracks")).isSome) := by
  have listens : ∀ use, .use use ∈ sampleTrace → Listens use := by
    intro use member
    obtain rfl : use = .subscribe (some "tracks") (some ()) none := by
      simpa [sampleTrace] using member
    rfl
  have reached :
      run (IntraVMClient.step AllowAllAuthenticator (fun _ => "") 0) IntraVMClient.start
      sampleTrace = some sampleClient :=
    (Option.some_get _).symm
  obtain ⟨heard, _, agreed⟩ := heard_is_due listens reached
  have stays : ∀ call ∈ sampleClient.session.transmitted, call.command = .unsubscribe →
      call.destination ≠ some "tracks" := by
    intro call member unsubscribes
    cases List.mem_singleton.mp (show call ∈ [⟨.subscribe, Broker.onTracks, none⟩] from member)
    cases unsubscribes
  exact ⟨(heard "tracks" stays).trans rfl, agreed rfl rfl (some "tracks")⟩

end Both

end TrainWatch.Verified.Delivery
