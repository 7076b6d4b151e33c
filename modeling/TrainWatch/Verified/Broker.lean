import TrainWatch.Stomp.Server

/-! # The server as a broker

Three levels.  What is performed for a client is what its own calls alone determine; the
channels are what the calls performed make of them, one after the other; and the messages
a client is handed are the authorised sends on the channels it was subscribed to at that
time, each once and in order.
-/

namespace TrainWatch.Verified.Broker

open TrainWatch.Java TrainWatch.Library TrainWatch.Stomp TrainWatch.Stomp.Server

section Runs

variable {τ : Type} {authenticator : Authenticator τ} {session : Nat → String}
variable {s s' : Server τ} {trace : List Server.Action}

/-! ## Transactions -/

theorem run_deferred (reached : run (step authenticator session) start trace = some s) :
    ∃ deferrals, run (Deferral.State.step deferral) Deferral.State.start deferrals =
      some s.deferred ∧
      ∀ y, Deferral.callsOf y deferrals = s.madeBy y := by
  refine run_invariant (fun s =>
    ∃ deferrals, run (Deferral.State.step deferral) Deferral.State.start deferrals =
    some s.deferred ∧
    ∀ y, Deferral.callsOf y deferrals = s.madeBy y) ?_ ⟨[], rfl, fun _ => rfl⟩ reached
  intro action _ s s' holds stepped
  obtain ⟨deferrals, runs, calls⟩ := holds
  obtain ⟨more, made, runs', longer, calls'⟩ := step_deferred stepped
  refine ⟨deferrals ++ more, run_append_eq_some.mpr ⟨_, runs, runs'⟩, fun y => ?_⟩
  have both : Deferral.callsOf y (deferrals ++ more) = Deferral.callsOf y deferrals ++
      Deferral.callsOf y more := by
    simp [Deferral.callsOf]
  rw [both, calls, calls', madeBy, madeBy, longer, List.filterMap_append]

/-- The calls that a commit of the client has still to replay, and its receipt. -/
def replaysLeft (s : Server τ) (y : Peer) : List Call := s.deferred.left y

/-- What is performed for a client, what is queued in its transaction and what its commit has still
    to do are determined by the calls that client has made. -/
theorem account_as_alone (reached : run (step authenticator session) start trace = some s)
    (y : Peer) :
    (replaysLeft s y).foldl (Deferral.Account.handle deferral y)
      ⟨s.transactions y, s.performedFor y⟩ =
      Deferral.alone deferral y (s.madeBy y) := by
  obtain ⟨deferrals, runs, calls⟩ := run_deferred reached
  have account : s.deferred.account y = ⟨s.transactions y, s.performedFor y⟩ := by
    simp only [Deferral.State.account, deferred, performedFor, List.filterMap_map]
    rfl
  rw [← calls, ← account]
  exact Deferral.account_eq_alone runs y

theorem replaysLeft_of_idle {y : Peer} (idle : s.committing.map Prod.fst ≠ some y) :
    replaysLeft s y = [] := by
  apply Deferral.left_of_free
  simpa [deferred, Option.map_map, Function.comp_def] using idle

theorem performedFor_isPrefix (reached : run (step authenticator session) start trace = some s)
    (y : Peer) :
    s.performedFor y <+: (Deferral.alone deferral y (s.madeBy y)).performed := by
  rw [← account_as_alone reached y]
  exact Deferral.performed_foldl_handle (replaysLeft s y) ⟨s.transactions y, s.performedFor y⟩

/-- In every interleaving of the clients, replays included: what has been performed for a client,
    and in which order, is the beginning of what its calls would have had performed if it were
    alone; and unless a commit of it goes on it is all of that, with the same transaction open. -/
theorem performed_as_alone (reached : run (step authenticator session) start trace = some s)
    (y : Peer) :
    s.performedFor y <+: (Deferral.alone deferral y (s.madeBy y)).performed ∧
      (s.committing.map Prod.fst ≠ some y →
        Deferral.alone deferral y (s.madeBy y) = ⟨s.transactions y, s.performedFor y⟩) := by
  refine ⟨performedFor_isPrefix reached y, fun idle => ?_⟩
  have account := account_as_alone reached y
  rw [replaysLeft_of_idle idle, List.foldl_nil] at account
  exact account.symm

def onTracks : Option Headers := some (Dict.ofPairs [("destination", some "tracks")])

def sampleSend : Call := ⟨.send, onTracks, some "2U12"⟩

/-- The first client subscribes; the second sends twice in a transaction, and half of its commit is
    done. -/
def sampleTrace : List Server.Action :=
  [.call 0 ⟨.subscribe, onTracks, none⟩, .call 1 ⟨.begin, none, none⟩, .call 1 sampleSend,
    .call 1 sampleSend,
    .call 1 ⟨.commit, none, none⟩, .replay]

def sampleServer : Server String :=
  (run (step AllowAllAuthenticator fun _ => "") start sampleTrace).get rfl

theorem sampleServer_reached :
    run (step AllowAllAuthenticator fun _ => "") start sampleTrace = some sampleServer :=
  (Option.some_get _).symm

/-- The client that commits is behind, the other one is not. -/
theorem half_a_commit_is_performed :
    [⟨.begin, none, none⟩, sampleSend] <+: [⟨.begin, none, none⟩, sampleSend, sampleSend] ∧
      Deferral.alone deferral (.intraVM 0) [⟨.subscribe, onTracks, none⟩] =
        ⟨sampleServer.transactions (.intraVM 0), sampleServer.performedFor (.intraVM 0)⟩ :=
  ⟨(performed_as_alone sampleServer_reached (.intraVM 1)).1,
    (performed_as_alone sampleServer_reached (.intraVM 0)).2 (by decide)⟩

/-! ## Channels -/

/-- What a performed call says about a peer's subscription to a channel, if anything. -/
def verdict (authenticator : Authenticator τ) (peer : Peer) (channel : Option String)
    (entry : Performed τ) : Option Bool :=
  if entry.peer = peer then
    match entry.call.command with
    | .subscribe =>
      if entry.call.destination = channel ∧ entry.mayPerform authenticator.authorizeSubscribe
        then some true else none
    | .unsubscribe => if entry.call.destination = channel then some false else none
    | .disconnect => some false
    | _ => none
  else none

/-- The last word of the calls performed. -/
def subscribed (authenticator : Authenticator τ) (peer : Peer) (channel : Option String)
    (entries : List (Performed τ)) : Bool :=
  ((entries.filterMap (verdict authenticator peer channel)).getLast?).getD false

theorem subscribed_snoc (peer : Peer) (channel : Option String) (entries : List (Performed τ))
    (entry : Performed τ) :
    subscribed authenticator peer channel (entries ++ [entry]) =
      (verdict authenticator peer channel entry).getD
        (subscribed authenticator peer channel entries) := by
  cases said : verdict authenticator peer channel entry with
  | none => simp [subscribed, said]
  | some word => simp [subscribed, said]

/-- Nobody is listed twice, and the lists are those of the peers subscribed. -/
structure Listed (authenticator : Authenticator τ) (listeners : Subscriptions)
    (entries : List (Performed τ)) : Prop where
  nodup : ∀ channel, ((listeners channel).getD []).Nodup
  mem_iff : ∀ channel peer, peer ∈ (listeners channel).getD [] ↔
    subscribed authenticator peer channel entries = true

theorem listed_start : Listed authenticator (start : Server τ).listeners [] := by
  constructor
  · intro channel
    exact List.nodup_nil
  · intro channel peer
    simp [start, subscribed]

theorem execute_listeners (listeners : Subscriptions) (entry : Performed τ)
    (channel : Option String) :
    ((execute authenticator listeners entry).1 channel).getD [] =
      match verdict authenticator entry.peer channel entry with
      | some true =>
        if entry.peer ∈ (listeners channel).getD [] then (listeners channel).getD []
        else (listeners channel).getD [] ++ [entry.peer]
      | some false => ((listeners channel).getD []).erase entry.peer
      | none => (listeners channel).getD [] := by
  have erased : ∀ l : Option (List Peer),
      (l.map (·.erase entry.peer)).getD [] = (l.getD []).erase entry.peer := by
    intro l
    cases l with
    | none => rfl
    | some _ => rfl
  rw [verdict, if_pos rfl]
  cases command : entry.call.command with
  | send =>
    simp only [execute, command]
    split
    · rfl
    · rfl
  | subscribe =>
    -- an authorised subscription adds the peer once; one that is refused changes no list
    by_cases allowed : entry.mayPerform authenticator.authorizeSubscribe = true
    · by_cases here : entry.call.destination = channel
      · subst here
        simp only [execute, command, allowed, if_true, Function.update_self, and_self,
          Option.getD_some]
      · have elsewhere : channel ≠ entry.call.destination := Ne.symm here
        simp only [execute, command, allowed, if_true, Function.update_of_ne elsewhere, here,
          false_and, if_false]
    · simp only [execute, command, allowed, and_false, if_false, Bool.false_eq_true]
  | unsubscribe =>
    by_cases here : entry.call.destination = channel
    · subst here
      simp only [execute, command, Function.update_self, if_true, erased]
    · have elsewhere : channel ≠ entry.call.destination := Ne.symm here
      simp only [execute, command, Function.update_of_ne elsewhere, here, if_false]
  | disconnect => simp only [execute, command, erased]
  | begin => simp only [execute, command]
  | commit => simp only [execute, command]
  | abort => simp only [execute, command]
  | connect => simp only [execute, command]
  | message => simp only [execute, command]
  | receipt => simp only [execute, command]
  | connected => simp only [execute, command]
  | error => simp only [execute, command]

theorem verdict_of_ne {peer : Peer} {entry : Performed τ} (other : entry.peer ≠ peer)
    (channel : Option String) :
    verdict authenticator peer channel entry = none := by
  rw [verdict, if_neg other]

theorem listed_perform {listeners : Subscriptions} {entries : List (Performed τ)}
    (listed : Listed authenticator listeners entries)
    (entry : Performed τ) : Listed authenticator (execute authenticator listeners entry).1
    (entries ++ [entry]) := by
  obtain ⟨nodup, memIff⟩ := listed
  constructor
  · intro channel
    rw [execute_listeners]
    split
    · split
      · exact nodup channel
      · rename_i absent
        exact (List.nodup_append_comm.mp (List.nodup_cons.mpr ⟨absent, nodup channel⟩))
    · exact (nodup channel).erase _
    · exact nodup channel
  · intro channel peer
    rw [execute_listeners, subscribed_snoc]
    -- a call says something about its own peer only
    by_cases own : entry.peer = peer
    · subst own
      split
      · rename_i said
        rw [said]
        split
        · rename_i there
          simp [there]
        · simp
      · rename_i said
        rw [said, (nodup channel).mem_erase_iff]
        simp
      · rename_i said
        rw [said, memIff]
        rfl
    · have other : peer ≠ entry.peer := Ne.symm own
      rw [verdict_of_ne own, Option.getD_none, ← memIff]
      split
      · split
        · rfl
        · simp [other]
      · rw [(nodup channel).mem_erase_iff]
        simp [other]
      · rfl

/-! ## Deliveries -/

def messagesTo (peer : Peer) (handed : List (Peer × Call)) : List Call :=
  handed.filterMap fun handed => if handed.1 = peer ∧ handed.2.command = .message then some handed.2
    else none

/-- An authorised send on a channel that the peer is subscribed to after the calls before it. -/
def isDue (authenticator : Authenticator τ) (peer : Peer) (before : List (Performed τ))
    (entry : Performed τ) : Bool :=
  entry.call.command = .send && entry.mayPerform authenticator.authorizeSend &&
    subscribed authenticator peer entry.call.destination before

/-- The messages that `entries`, performed after `before`, are due to bring a peer. -/
def dueAfter (authenticator : Authenticator τ) (peer : Peer) :
    List (Performed τ) → List (Performed τ) → List Call
  | _, [] => []
  | before, entry :: entries =>
    (if isDue authenticator peer before entry then [entry.call.asMessage] else []) ++
      dueAfter authenticator peer (before ++ [entry]) entries

def due (authenticator : Authenticator τ) (peer : Peer) (entries : List (Performed τ)) :
    List Call :=
  dueAfter authenticator peer [] entries

theorem dueAfter_snoc (peer : Peer) (before entries : List (Performed τ)) (entry : Performed τ) :
    dueAfter authenticator peer before (entries ++ [entry]) =
      dueAfter authenticator peer before entries ++
      if isDue authenticator peer (before ++ entries) entry then [entry.call.asMessage] else
        [] := by
  induction entries generalizing before with
  | nil => simp [dueAfter]
  | cons first entries inductionHypothesis =>
    rw [List.cons_append, dueAfter, dueAfter, inductionHypothesis, List.append_assoc,
      List.append_assoc,
      List.singleton_append]

theorem messagesTo_append (peer : Peer) (first second : List (Peer × Call)) :
    messagesTo peer (first ++ second) = messagesTo peer first ++ messagesTo peer second :=
      List.filterMap_append

theorem messagesTo_answer {peer other : Peer} {call : Call} (notMessage : call.command ≠ .message) :
    messagesTo peer [(other, call)] = [] := by
  simp [messagesTo, notMessage]

theorem messagesTo_copies {listeners : List Peer} (nodup : listeners.Nodup) (peer : Peer)
    (call : Call)
    (isMessage : call.command = .message) :
    messagesTo peer (listeners.map fun listener => (listener, call)) =
      if peer ∈ listeners then [call] else [] := by
  induction listeners with
  | nil => rfl
  | cons first listeners inductionHypothesis =>
    obtain ⟨fresh, nodup⟩ := List.nodup_cons.mp nodup
    have rest := inductionHypothesis nodup
    rw [List.map_cons, ← List.singleton_append, messagesTo_append, rest]
    by_cases own : first = peer
    · subst own
      simp [messagesTo, isMessage, fresh]
    · have other : peer ≠ first := Ne.symm own
      simp [messagesTo, own, other]

theorem messagesTo_execute {listeners : Subscriptions} {entries : List (Performed τ)}
    (listed : Listed authenticator listeners entries) (peer : Peer) (entry : Performed τ) :
    messagesTo peer (execute authenticator listeners entry).2 =
      if isDue authenticator peer entries entry then [entry.call.asMessage] else [] := by
  cases command : entry.call.command with
  | send =>
    by_cases allowed : entry.mayPerform authenticator.authorizeSend = true
    · simp only [execute, command, allowed, if_true, isDue, decide_true, Bool.true_and]
      rw [messagesTo_copies (listed.nodup _) peer _ rfl]
      simp only [listed.mem_iff]
    · simp only [execute, command, allowed, isDue, decide_true, Bool.true_and, Bool.false_eq_true,
        if_false]
      rw [messagesTo_answer (by simp [refusal])]
      simp
  | subscribe =>
    simp only [execute, command, isDue]
    split
    · rfl
    · rw [messagesTo_answer (by simp [refusal])]
      rfl
  | _ => simp [execute, command, isDue, messagesTo]

theorem command_of_execute {listeners : Subscriptions} {entry : Performed τ} {handed : Peer × Call}
    (member : handed ∈ (execute authenticator listeners entry).2) :
    handed.2.command = .message ∨ handed.2.command = .error := by
  cases command : entry.call.command with
  | send =>
    simp only [execute, command] at member
    split at member
    · obtain ⟨peer, _, rfl⟩ := List.mem_map.mp member
      exact .inl rfl
    · cases List.mem_singleton.mp member
      exact .inr rfl
  | subscribe =>
    simp only [execute, command] at member
    split at member
    · cases member
    · cases List.mem_singleton.mp member
      exact .inr rfl
  | _ => simp [execute, command] at member

/-- The lists are those of the subscribed, and every peer has been handed what was due to it. -/
structure Serves (authenticator : Authenticator τ) (s : Server τ) : Prop where
  listed : Listed authenticator s.listeners s.performed
  delivered : ∀ peer, messagesTo peer s.handed = due authenticator peer s.performed

theorem serves_grows {frame : Option (Nat × Call)} (grows : Grows authenticator session frame s s')
    (serves : Serves authenticator s) : Serves authenticator s' := by
  induction grows with
  | same listeners handed performed =>
    obtain ⟨listed, delivered⟩ := serves
    exact ⟨by rw [listeners, performed]; exact listed, by rw [handed, performed]; exact delivered⟩
  | tell peer told isTold listeners handed performed =>
    obtain ⟨listed, delivered⟩ := serves
    refine ⟨by rw [listeners, performed]; exact listed, fun other => ?_⟩
    rw [handed, performed, messagesTo_append, messagesTo_answer isTold.command.1, List.append_nil,
      delivered]
  | perform entry listeners handed performed =>
    obtain ⟨listed, delivered⟩ := serves
    refine ⟨by rw [listeners, performed]; exact listed_perform listed entry, fun peer => ?_⟩
    rw [handed, performed, messagesTo_append, delivered, messagesTo_execute listed, due, due,
      dueAfter_snoc,
      List.nil_append]
  | trans first second inductionHypothesis inductionHypothesis' =>
    exact inductionHypothesis' (inductionHypothesis serves)

theorem run_serves (reached : run (step authenticator session) start trace = some s) :
    Serves authenticator s :=
  run_invariant (Serves authenticator)
    (fun _ _ _ _ serves stepped => serves_grows (step_grows stepped) serves)
    ⟨listed_start, fun _ => rfl⟩ reached

/-- In every run each peer has been handed, once each and in order, the authorised sends performed
    on the channels that its last performed call about them left it subscribed to; and it is on the
    list of a channel, once, exactly if it is subscribed now. -/
theorem delivered_is_due (reached : run (step authenticator session) start trace = some s)
    (peer : Peer) :
    messagesTo peer s.handed = due authenticator peer s.performed ∧
      ∀ channel, ((s.listeners channel).getD []).count peer =
        (subscribed authenticator peer channel s.performed).toNat := by
  obtain ⟨listed, delivered⟩ := run_serves reached
  refine ⟨delivered peer, fun channel => ?_⟩
  rw [(listed.nodup channel).count]
  cases said : subscribed authenticator peer channel s.performed with
  | true => simp [(listed.mem_iff channel peer).mpr said]
  | false =>
    have absent : peer ∉ (s.listeners channel).getD [] := fun member => by
      rw [(listed.mem_iff channel peer).mp member] at said
      cases said
    simp [absent]

/-- The one of the two sends that has been replayed. -/
theorem first_of_two_is_delivered :
    messagesTo (.intraVM 0) sampleServer.handed = [sampleSend.asMessage] ∧
    ((sampleServer.listeners (some "tracks")).getD []).count (.intraVM 0) = 1 := by
  obtain ⟨delivered, listed⟩ := delivered_is_due sampleServer_reached (.intraVM 0)
  exact ⟨delivered.trans rfl, (listed (some "tracks")).trans rfl⟩

/-- The handler has closed its connection, and its thread is in no call. -/
structure Gone (s : Server τ) (handler : Nat) : Prop where
  closed : (s.handlers handler).closed = true
  idle : s.committing.map Prod.fst ≠ some (.socket handler)

theorem gone_step {handler : Nat} {action : Action} (gone : Gone s handler)
    (stepped : s.step authenticator session action = some s') :
    Gone s' handler ∧ s'.madeBy (.socket handler) = s.madeBy (.socket handler) := by
  obtain ⟨closed, idle⟩ := gone
  -- only its own handler closes a connection, and only its own calls begin a commit
  have ofMake : ∀ {y : Peer} {call : Call} {s' : Server τ}, y ≠ .socket handler →
    s.make authenticator y call = some s' →
      Gone s' handler ∧ s'.madeBy (.socket handler) = s.madeBy (.socket handler) := by
    intro y call s' other makes
    obtain ⟨made, handlers, committing⟩ := make_leaves makes
    refine ⟨⟨by rw [handlers]; exact closed, ?_⟩, by simp [madeBy, made, other]⟩
    obtain same | ⟨queued, own⟩ := committing
    · rw [same]
      exact idle
    · rw [own]
      simpa using other
  rcases step_cases stepped with ⟨client, call, rfl, makes⟩ |
    ⟨other, call, rfl, otherOpen, _, received⟩ |
    ⟨y, call, rest, commit, rfl, committing, rfl⟩ | ⟨y, commit, rfl, committing, rfl⟩
  · exact ofMake (by simp) makes
  · have different : other ≠ handler := by
      rintro rfl
      rw [closed] at otherOpen
      cases otherOpen
    have elsewhere : Peer.socket other ≠ .socket handler := by simpa using different
    obtain ⟨token, _, rfl⟩ | ⟨told, _, rfl⟩ | rfl | ⟨_, rfl | ⟨receipt, s'', makes, rfl⟩ | makes⟩ :=
      receiveFrame_cases received
    · exact ⟨⟨by simp [hand, Function.update_of_ne different.symm, closed], idle⟩, rfl⟩
    · exact ⟨⟨closed, idle⟩, rfl⟩
    · exact ⟨⟨closed, idle⟩, rfl⟩
    · exact ⟨⟨by simp [close, Function.update_of_ne different.symm, closed], idle⟩, rfl⟩
    · obtain ⟨⟨closed', idle'⟩, made⟩ := ofMake elsewhere makes
      exact ⟨⟨by simp [close, Function.update_of_ne different.symm, closed'], idle'⟩, made⟩
    · exact ofMake elsewhere makes
  · have leaves : Leaves _
        (receiveOther authenticator { s with committing := some (y, rest, commit) } y call) :=
      leaves_receiveOther _ y call
    have notBusy : y ≠ .socket handler := by simpa [committing] using idle
    refine ⟨⟨by rw [leaves.handlers]; exact closed, ?_⟩, by rw [madeBy, leaves.made]; rfl⟩
    rw [leaves.committing]
    simpa using notBusy
  · have leaves : Leaves _ (sendReceipt authenticator { s with committing := none } y commit) :=
      leaves_sendReceipt _ y commit
    refine ⟨⟨by rw [leaves.handlers]; exact closed, ?_⟩, by rw [madeBy, leaves.made]; rfl⟩
    rw [leaves.committing]
    simp

theorem subscribed_others {peer : Peer} {more : List (Performed τ)}
    (others : ∀ entry ∈ more, entry.peer ≠ peer)
    (channel : Option String) (before : List (Performed τ)) :
    subscribed authenticator peer channel
      (before ++ more) = subscribed authenticator peer channel before := by
  have silent : more.filterMap (verdict authenticator peer channel) = [] :=
    List.filterMap_eq_nil_iff.mpr fun entry member => verdict_of_ne (others entry member) channel
  rw [subscribed, List.filterMap_append, silent, List.append_nil, subscribed]

/-- A send that reaches a peer with these subscriptions. -/
def reaches (authenticator : Authenticator τ) (listeners : Subscriptions) (peer : Peer)
    (entry : Performed τ) : Bool :=
  entry.call.command = .send && entry.mayPerform authenticator.authorizeSend &&
    peer ∈ (listeners entry.call.destination).getD []

theorem dueAfter_others {peer : Peer} {before more : List (Performed τ)} {listeners : Subscriptions}
    (listed : Listed authenticator listeners before) (others : ∀ entry ∈ more, entry.peer ≠ peer) :
    dueAfter authenticator peer before more =
      (more.filter (reaches authenticator listeners peer)).map fun entry =>
      entry.call.asMessage := by
  induction more using List.reverseRecOn with
  | nil => rfl
  | append_singleton more entry inductionHypothesis =>
    have earlier : ∀ entry ∈ more, entry.peer ≠ peer := fun other member =>
      others other (List.mem_append_left _ member)
    have same :
        isDue authenticator peer (before ++ more) entry =
        reaches authenticator listeners peer entry := by
      rw [isDue, reaches, subscribed_others earlier, Bool.eq_iff_iff]
      simp only [Bool.and_eq_true, decide_eq_true_eq, listed.mem_iff]
    rw [dueAfter_snoc, inductionHypothesis earlier, same, List.filter_append, List.map_append]
    cases sent : reaches authenticator listeners peer entry with
    | true => simp [sent]
    | false => simp [sent]

theorem dueAfter_append (peer : Peer) (before first second : List (Performed τ)) :
    dueAfter authenticator peer before (first ++ second) =
      dueAfter authenticator peer before first ++ dueAfter authenticator peer
        (before ++ first) second := by
  induction first generalizing before with
  | nil => rw [List.append_nil]; rfl
  | cons entry first inductionHypothesis =>
    rw [List.cons_append, dueAfter, dueAfter, inductionHypothesis, List.append_assoc,
      List.append_assoc, List.singleton_append]

/-- A network client that has closed its connection stays subscribed to what it was subscribed to
    and keeps its open transaction, for ever; it goes on being handed every authorised send on those
    channels. -/
theorem gone_stays_subscribed {handler : Nat} {later : List Action}
    (reached : run (step authenticator session) start trace = some s) (gone : Gone s handler)
    (goesOn : run (step authenticator session) s later = some s') :
    s'.transactions (.socket handler) = s.transactions (.socket handler) ∧
      (∀ channel, .socket handler ∈ (s'.listeners channel).getD [] ↔
        .socket handler ∈ (s.listeners channel).getD []) ∧
      ∃ more, s'.performed = s.performed ++ more ∧ messagesTo (.socket handler) s'.handed =
        messagesTo (.socket handler) s.handed ++
          (more.filter (reaches authenticator s.listeners (.socket handler))).map fun entry =>
            entry.call.asMessage := by
  have reached' : run (step authenticator session) start (trace ++ later) = some s' :=
    run_append_eq_some.mpr ⟨s, reached, goesOn⟩
  obtain ⟨gone', made, more, performed⟩ :
    Gone s' handler ∧ s'.madeBy (.socket handler) = s.madeBy (.socket handler) ∧
      s.performed <+: s'.performed := by
    refine run_invariant (fun t => Gone t handler ∧ t.madeBy (.socket handler) = s.madeBy
      (.socket handler) ∧
      s.performed <+: t.performed) ?_ ⟨gone, rfl, List.prefix_refl _⟩ goesOn
    intro action _ t t' holds stepped
    obtain ⟨gone', made'⟩ := gone_step holds.1 stepped
    exact ⟨gone', made'.trans holds.2.1, holds.2.2.trans (performed_grows (step_grows stepped))⟩
  -- it has nothing left to replay, so its account is that of its calls, which are over
  have account := account_as_alone reached (.socket handler)
  have account' := account_as_alone reached' (.socket handler)
  rw [replaysLeft_of_idle gone.idle, List.foldl_nil] at account
  rw [replaysLeft_of_idle gone'.idle, List.foldl_nil, made, ← account] at account'
  injection account' with transactions calls
  have others : ∀ entry ∈ more, entry.peer ≠ .socket handler := by
    rw [performedFor, performedFor, ← performed, List.filterMap_append, List.append_right_eq_self,
      List.filterMap_eq_nil_iff] at calls
    intro entry member own
    have nothing := calls entry member
    rw [if_pos own] at nothing
    cases nothing
  have serves := run_serves reached
  have serves' := run_serves reached'
  refine ⟨transactions, fun channel => ?_, more, performed.symm, ?_⟩
  · rw [serves'.listed.mem_iff, serves.listed.mem_iff, ← performed, subscribed_others others]
  · rw [serves'.delivered, serves.delivered, ← performed, due, dueAfter_append, List.nil_append,
      dueAfter_others serves.listed others, due]

/-- A network client that connects, subscribes and disconnects. -/
def shortVisit : List Server.Action :=
  [.frame 0 ⟨.connect, some Dict.empty, none⟩, .frame 0 ⟨.subscribe, onTracks, none⟩,
    .frame 0 ⟨.disconnect, none, none⟩]

def afterVisit : Server String :=
  (run (step AllowAllAuthenticator fun _ => "") start shortVisit).get rfl

def afterSend : Server String :=
    (run (step AllowAllAuthenticator fun _ => "") afterVisit [.call 1 sampleSend]).get rfl

/-- It is handed what is sent after it has gone. -/
theorem visitor_stays_subscribed : .socket 0 ∈ (afterSend.listeners (some "tracks")).getD [] ∧
    ∃ more, afterSend.performed = afterVisit.performed ++ more ∧
      messagesTo (.socket 0) afterSend.handed =
      [] ++ (more.filter (reaches AllowAllAuthenticator afterVisit.listeners (.socket 0))).map
        fun entry => entry.call.asMessage := by
  have visited : run (step AllowAllAuthenticator fun _ => "") start shortVisit = some afterVisit :=
    (Option.some_get _).symm
  have gone : Gone afterVisit 0 := ⟨rfl, by decide⟩
  have sent : run (step AllowAllAuthenticator fun _ => "") afterVisit [.call 1 sampleSend] =
      some afterSend :=
    (Option.some_get _).symm
  obtain ⟨_, listed, delivered⟩ := gone_stays_subscribed visited gone sent
  exact ⟨(listed (some "tracks")).mpr (by decide), delivered⟩

end Runs

end TrainWatch.Verified.Broker
