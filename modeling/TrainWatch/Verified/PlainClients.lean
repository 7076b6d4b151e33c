import TrainWatch.Stomp.IntraVMClient
import TrainWatch.Verified.Broker
import TrainWatch.Verified.Inbox

/-! # Clients without transactions

The server performs the calls of such a client as they come, so what the client is
subscribed to is what it last said of each channel.  On the client's own side a method
changes the listeners as the call says that it transmits, if a listener comes with every
subscription.
-/

namespace TrainWatch.Verified.PlainClients

open TrainWatch.Java TrainWatch.Library TrainWatch.Stomp TrainWatch.Stomp.Server

/-! ## At the server -/

def Plain (call : Call) : Prop :=
  call.command ≠ .begin ∧ call.command ≠ .commit ∧ call.command ≠ .abort

section Calls

variable {τ : Type} {authenticator : Authenticator τ} {session : Nat → String}
variable {s s' : Server τ} {trace : List Server.Action} {y : Peer} {call : Call} {k : Nat}

theorem madeBy_own (makes : s.make authenticator y call = some s') :
    s'.madeBy y = s.madeBy y ++ [call] := by
  rw [madeBy, (make_leaves makes).1, List.filterMap_append, ← madeBy]
  simp

theorem committing_of_make (makes : s.make authenticator y call = some s')
    (other : call.command ≠ .commit) :
    s'.committing = s.committing := by
  unfold make at makes
  split at makes
  · cases makes
  · cases makes
    unfold receive
    split
    · rename_i commit
      exact absurd commit other
    · exact (@leaves_sendReceipt τ authenticator _ y call).committing
    · exact (@leaves_receiveOther τ authenticator _ y call).committing

/-- A commit that goes on was made. -/
def Commits (s : Server τ) : Prop :=
  ∀ y queued commit, s.committing = some (y, queued, commit) → (y, commit) ∈ s.made ∧
    commit.command = .commit

theorem commits_make (commits : Commits s) (makes : s.make authenticator y call = some s') :
    Commits s' := by
  obtain ⟨made, _, committing⟩ := make_leaves makes
  intro busy queued commit goesOn
  rw [made]
  by_cases isCommit : call.command = .commit
  · obtain same | ⟨_, own⟩ := committing
    · obtain ⟨member, kind⟩ := commits busy queued commit (same ▸ goesOn)
      exact ⟨List.mem_append_left _ member, kind⟩
    · rw [own] at goesOn
      cases goesOn
      exact ⟨List.mem_append_right _ List.mem_cons_self, isCommit⟩
  · obtain ⟨member, kind⟩ := commits busy queued commit (committing_of_make makes isCommit ▸ goesOn)
    exact ⟨List.mem_append_left _ member, kind⟩

theorem commits_step {action : Server.Action} (commits : Commits s)
    (stepped : s.step authenticator session action = some s') :
    Commits s' := by
  rcases step_cases stepped with ⟨client, call, rfl, makes⟩ | ⟨handler, call, rfl, _, _, received⟩ |
    ⟨y, call, rest, commit, rfl, committing, rfl⟩ | ⟨y, commit, rfl, committing, rfl⟩
  · exact commits_make commits makes
  · obtain ⟨token, _, rfl⟩ | ⟨told, _, rfl⟩ | rfl | ⟨_, rfl | ⟨receipt, s'', makes, rfl⟩ | makes⟩ :=
      receiveFrame_cases received
    · exact commits
    · exact commits
    · exact commits
    · exact commits
    · have commits' : Commits s'' := commits_make commits makes
      exact commits'
    · exact commits_make commits makes
  · have leaves : Leaves _
        (receiveOther authenticator { s with committing := some (y, rest, commit) } y call) :=
      leaves_receiveOther _ y call
    intro busy queued other goesOn
    rw [leaves.committing] at goesOn
    cases goesOn
    rw [leaves.made]
    exact commits y _ commit committing
  · have leaves : Leaves _ (sendReceipt authenticator { s with committing := none } y commit) :=
      leaves_sendReceipt _ y commit
    intro busy queued other goesOn
    rw [leaves.committing] at goesOn
    cases goesOn

theorem mem_madeBy : call ∈ s.madeBy y ↔ (y, call) ∈ s.made := by
  simp only [madeBy, List.mem_filterMap, Option.ite_none_right_eq_some, Option.some.injEq,
    Prod.exists]
  constructor
  · rintro ⟨_, _, member, rfl, rfl⟩
    exact member
  · intro member
    exact ⟨y, call, member, rfl, rfl⟩

theorem idle_of_uncommitted (reached : run (step authenticator session) start trace = some s)
    (uncommitted : ∀ call ∈ s.madeBy y, call.command ≠ .commit) :
    s.committing.map Prod.fst ≠ some y := by
  intro busy
  obtain ⟨⟨_, queued, commit⟩, committing, rfl⟩ := Option.map_eq_some_iff.mp busy
  have commits : Commits s :=
    run_invariant Commits (fun _ _ _ _ => commits_step) (by intro _ _ _ none; cases none) reached
  obtain ⟨made, isCommit⟩ := commits _ queued commit committing
  exact uncommitted commit (mem_madeBy.mpr made) isCommit

theorem account_of_uncommitted (reached : run (step authenticator session) start trace = some s)
    (uncommitted : ∀ call ∈ s.madeBy y, call.command ≠ .commit) :
    ⟨s.transactions y, s.performedFor y⟩ = Deferral.alone deferral y (s.madeBy y) := by
  have account := Broker.account_as_alone reached y
  rw [Broker.replaysLeft_of_idle (idle_of_uncommitted reached uncommitted),
    List.foldl_nil] at account
  exact account

theorem alone_of_plain {calls : List Call} (plain : ∀ call ∈ calls, Plain call) :
    Deferral.alone deferral (.intraVM k) calls = ⟨none, calls⟩ := by
  apply Deferral.alone_of_plain
  intro call member
  obtain ⟨notBegin, notCommit, notAbort⟩ := plain call member
  simp [deferral, echo, notBegin, notCommit, notAbort]

theorem performed_of_plain (reached : run (step authenticator session) start trace = some s)
    (plain : ∀ call ∈ s.madeBy (.intraVM k), Plain call) :
    s.transactions (.intraVM k) = none ∧ s.performedFor (.intraVM k) = s.madeBy (.intraVM k) := by
  have account := account_of_uncommitted reached fun call member => (plain call member).2.1
  rw [alone_of_plain plain] at account
  injection account with transactions performed
  exact ⟨transactions, performed⟩

theorem madeBy_others {action : Server.Action} (others : ∀ call, action ≠ .call k call)
    (stepped : s.step authenticator session action = some s') :
    s'.madeBy (.intraVM k) = s.madeBy (.intraVM k) := by
  -- what is made is made for one peer, and here it is another one
  have ofMake : ∀ {y : Peer} {call : Call} {s' : Server τ}, y ≠ .intraVM k →
    s.make authenticator y call = some s' →
      s'.madeBy (.intraVM k) = s.madeBy (.intraVM k) := by
    intro y call s' other makes
    simp [madeBy, (make_leaves makes).1, other]
  rcases step_cases stepped with ⟨client, call, rfl, makes⟩ | ⟨handler, call, rfl, _, _, received⟩ |
    ⟨y, call, rest, commit, rfl, committing, rfl⟩ | ⟨y, commit, rfl, committing, rfl⟩
  · refine ofMake ?_ makes
    rintro same
    cases same
    exact others call rfl
  · obtain ⟨token, _, rfl⟩ | ⟨told, _, rfl⟩ | rfl | ⟨_, rfl | ⟨receipt, s'', makes, rfl⟩ | makes⟩ :=
      receiveFrame_cases received
    · rfl
    · rfl
    · rfl
    · rfl
    · have same : s''.madeBy (.intraVM k) = s.madeBy (.intraVM k) := ofMake (by simp) makes
      exact same
    · exact ofMake (by simp) makes
  · have leaves : Leaves _
        (receiveOther authenticator { s with committing := some (y, rest, commit) } y call) :=
      leaves_receiveOther _ y call
    rw [madeBy, leaves.made, madeBy]
  · have leaves : Leaves _ (sendReceipt authenticator { s with committing := none } y commit) :=
      leaves_sendReceipt _ y commit
    rw [madeBy, leaves.made, madeBy]

theorem performed_of_make (none_ : s.transactions (.intraVM k) = none) (plain : Plain call)
    (makes : s.make authenticator (.intraVM k) call = some s') :
    s'.performed = s.performed ++ [⟨.intraVM k, none, call⟩] := by
  obtain ⟨_, notCommit, notAbort⟩ := plain
  unfold make at makes
  split at makes
  · cases makes
  · cases makes
    rw [receive_of_other notCommit notAbort, receiveOther, sendReceipt]
    have once :
        (({ s with made := s.made ++ [(.intraVM k, call)] } : Server τ).queueOrPerform
          authenticator (.intraVM k) call).performed =
        s.performed ++ [⟨.intraVM k, none, call⟩] := by
      simp [queueOrPerform, none_, token]
    split
    · exact once
    · exact once

/-! ## Subscriptions of a client -/

/-- What a call says about the channel, but for a DISCONNECT. -/
def word (channel : Option String) (call : Call) : Option Bool :=
  match call.command with
  | .subscribe => if call.destination = channel then some true else none
  | .unsubscribe => if call.destination = channel then some false else none
  | _ => none

/-- The last of the calls about a channel subscribes to it. -/
def wanted (channel : Option String) (calls : List Call) : Bool :=
  ((calls.filterMap (word channel)).getLast?).getD false

theorem wanted_snoc (channel : Option String) (calls : List Call) (call : Call) :
    wanted channel (calls ++ [call]) = (word channel call).getD (wanted channel calls) := by
  cases said : word channel call with
  | none => simp [wanted, said]
  | some _ => simp [wanted, said]

theorem word_eq_false {channel : Option String} {call : Call}
    (said : word channel call = some false) :
    call.command = .unsubscribe ∧ call.destination = channel := by
  unfold word at said
  split at said
  · split at said
    · cases said
    · cases said
  · rename_i command
    split at said
    · rename_i here
      exact ⟨command, here⟩
    · cases said
  · cases said

theorem verdict_intraVM (channel : Option String) (entry : Performed τ) :
    Broker.verdict authenticator (.intraVM k) channel entry =
      if entry.peer = .intraVM k then
        if entry.call.command = .disconnect then some false else word channel entry.call
      else none := by
  by_cases own : entry.peer = .intraVM k
  · have may : entry.mayPerform authenticator.authorizeSubscribe = true := by
      rw [Performed.mayPerform, own]
    rw [Broker.verdict, if_pos own, if_pos own, word]
    cases command : entry.call.command with
    | subscribe => simp [may]
    | _ => simp
  · rw [if_neg own, Broker.verdict_of_ne own]

def callsFor (y : Peer) (entries : List (Performed τ)) : List Call :=
  entries.filterMap fun entry => if entry.peer = y then some entry.call else none

theorem callsFor_snoc (y : Peer) (entries : List (Performed τ)) (entry : Performed τ) :
    callsFor y (entries ++ [entry]) = callsFor y entries ++ if entry.peer = y then [entry.call] else
      [] := by
  by_cases own : entry.peer = y
  · simp [callsFor, own]
  · simp [callsFor, own]

theorem subscribed_eq_wanted {channel : Option String} {entries : List (Performed τ)}
    (connected : ∀ call ∈ callsFor (.intraVM k) entries, call.command ≠ .disconnect) :
    Broker.subscribed authenticator (.intraVM k) channel entries = wanted channel
      (callsFor (.intraVM k) entries) := by
  induction entries using List.reverseRecOn with
  | nil => rfl
  | append_singleton entries entry inductionHypothesis =>
    rw [callsFor_snoc] at connected ⊢
    rw [Broker.subscribed_snoc, verdict_intraVM,
      inductionHypothesis fun call member => connected call (List.mem_append_left _ member)]
    by_cases own : entry.peer = .intraVM k
    · have stays : entry.call.command ≠ .disconnect :=
        connected entry.call (List.mem_append_right _ (by simp [own]))
      rw [if_pos own, if_pos own, if_neg stays, wanted_snoc]
    · rw [if_neg own, if_neg own, List.append_nil, Option.getD_none]

theorem subscribed_of_disconnect {channel : Option String} {entries : List (Performed τ)}
    {calls : List Call}
    {last : Call} (ends : callsFor (.intraVM k) entries = calls ++ [last])
    (disconnects : last.command = .disconnect) :
    Broker.subscribed authenticator (.intraVM k) channel entries = false := by
  induction entries using List.reverseRecOn with
  | nil => simp [callsFor] at ends
  | append_singleton entries entry inductionHypothesis =>
    rw [callsFor_snoc] at ends
    rw [Broker.subscribed_snoc, verdict_intraVM]
    by_cases own : entry.peer = .intraVM k
    · rw [if_pos own] at ends
      obtain ⟨_, same⟩ := List.append_inj' ends rfl
      cases same
      rw [if_pos own, if_pos disconnects, Option.getD_some]
    · rw [if_neg own, List.append_nil] at ends
      rw [if_neg own, Option.getD_none, inductionHypothesis ends]

end Calls

/-! ## The client's own side -/

section Uses

variable {ℓ : Type} [DecidableEq ℓ]

/-- A method outside any transaction that leaves no subscription without a listener. -/
def Listens : Use ℓ → Prop
  | .begin _ => False
  | .commit => False
  | .commitWith _ => False
  | .commitW _ _ => False
  | .abort _ => False
  | .subscribe _ listener _ => listener.isSome
  | .subscribeW _ listener _ _ => listener.isSome
  | _ => True

theorem destination_withDestination (command : Command) (headers : Option Headers)
    (name body : Option String) :
    Call.destination ⟨command, withDestination headers name, body⟩ = name := by
  simp [Call.destination, withDestination, Headers.value, Dict.get_set]

/-- A method leaves the listeners as the call it transmits says. -/
inductive Speaks (s s' : Session ℓ) : Prop where
  | silent (transmitted : s'.transmitted = s.transmitted)
      (listeners : ∀ name, (s'.client.listeners name).isSome = (s.client.listeners name).isSome)
  | calls (call : Call) (transmitted : s'.transmitted = s.transmitted ++ [call])
      (plain : Plain call)
      (stays : call.command ≠ .disconnect) (listeners : ∀ name,
        (s'.client.listeners name).isSome = (word name call).getD (s.client.listeners name).isSome)

omit [DecidableEq ℓ] in
theorem isSome_update (listeners : Option String → Option (List ℓ)) (name other : Option String)
    (list : Option (List ℓ)) :
    (Function.update listeners name list other).isSome = if name = other then list.isSome else
    (listeners other).isSome := by
  by_cases same : name = other
  · subst same
    rw [Function.update_self, if_pos rfl]
  · rw [Function.update_of_ne (Ne.symm same), if_neg same]

omit [DecidableEq ℓ] in
theorem speaks_send (s : Session ℓ) (dest mesg : Option String) (headers : Option Headers) :
    Speaks s (s.send dest mesg headers) :=
  .calls _ rfl ⟨by simp, by simp, by simp⟩ (by simp) fun name => rfl

theorem speaks_subscribe (s : Session ℓ) (name : Option String) (listener : ℓ)
    (headers : Option Headers) :
    Speaks s (s.subscribe name (some listener) headers) := by
  refine .calls _ rfl ⟨by simp, by simp, by simp⟩ (by simp) fun other => ?_
  rw [word, destination_withDestination]
  simp only [Session.subscribe, Session.transmit, StompClient.addListener, isSome_update]
  by_cases same : name = other
  · simp [same]
  · simp [same]

omit [DecidableEq ℓ] in
theorem speaks_unsubscribe (s : Session ℓ) (name : Option String) (headers : Option Headers) :
    Speaks s (s.unsubscribe name headers) := by
  refine .calls _ rfl ⟨by simp, by simp, by simp⟩ (by simp) fun other => ?_
  rw [word, destination_withDestination]
  simp only [Session.unsubscribe, Session.transmit, StompClient.removeListeners, isSome_update]
  by_cases same : name = other
  · simp [same]
  · simp [same]

theorem speaks_unsubscribeListener (s : Session ℓ) (name : Option String) (listener : ℓ) :
    Speaks s (s.unsubscribeListener name listener) := by
  unfold Session.unsubscribeListener
  split
  · exact .silent rfl fun _ => rfl
  · rename_i list listed
    split
    · refine .calls _ rfl ⟨by simp, by simp, by simp⟩ (by simp) fun other => ?_
      rw [word, destination_withDestination]
      simp only [Session.unsubscribe, Session.transmit, StompClient.removeListeners, isSome_update]
      by_cases same : name = other
      · simp [same]
      · simp [same]
    · refine .silent rfl fun other => ?_
      simp only [isSome_update]
      split
      · rename_i same
        rw [← same, listed]
        rfl
      · rfl

theorem speaks_use (s : Session ℓ) {use : Use ℓ} (method : ∀ call, use ≠ .receive call)
    (listens : Listens use) :
    Speaks s (s.use use) := by
  cases use with
  | receive call => exact absurd rfl (method call)
  | begin headers => exact listens.elim
  | commit => exact listens.elim
  | commitWith headers => exact listens.elim
  | commitW headers receipt => exact listens.elim
  | abort headers => exact listens.elim
  | subscribe name listener headers =>
    obtain ⟨listener, rfl⟩ := Option.isSome_iff_exists.mp listens
    exact speaks_subscribe s name listener headers
  | subscribeW name listener headers receipt =>
    obtain ⟨listener, rfl⟩ := Option.isSome_iff_exists.mp listens
    -- waiting for the receipt changes neither the call nor the listeners
    obtain ⟨transmitted, listeners⟩ | ⟨call, transmitted, plain, stays, listeners⟩ :=
      speaks_subscribe s name listener (addReceipt headers receipt)
    · exact .silent transmitted listeners
    · exact .calls call transmitted plain stays listeners
  | unsubscribe name headers => exact speaks_unsubscribe s name headers
  | unsubscribeW name headers receipt =>
    obtain ⟨transmitted, listeners⟩ | ⟨call, transmitted, plain, stays, listeners⟩ :=
      speaks_unsubscribe s name none
    · exact .silent transmitted listeners
    · exact .calls call transmitted plain stays listeners
  | unsubscribeListener name listener => exact speaks_unsubscribeListener s name listener
  | send dest mesg headers => exact speaks_send s dest mesg headers
  | sendW dest mesg headers receipt =>
    obtain ⟨transmitted, listeners⟩ | ⟨call, transmitted, plain, stays, listeners⟩ :=
      speaks_send s dest mesg (addReceipt headers receipt)
    · exact .silent transmitted listeners
    · exact .calls call transmitted plain stays listeners
  | getNextOf name =>
    have same : (s.use (.getNextOf name)).client.listeners = s.client.listeners := by
      simp only [Session.use, StompClient.getNextOf]
      split
      · rfl
      · rfl
    exact .silent rfl fun other => by rw [same]
  | _ => exact .silent rfl fun _ => rfl

/-! ### What the client receives -/

def hears (listeners : Option String → Option (List ℓ)) (call : Call) : Bool :=
  call.command = .message && call.headers.isSome && (listeners call.destination).isSome

def shelves (listeners : Option String → Option (List ℓ)) (call : Call) : Bool :=
  call.command = .message && call.headers.isSome && (listeners call.destination).isNone

def receiptOf (call : Call) : Option (Option String) :=
  if call.command = .receipt then call.headers.map (·.value "receipt-id") else none

/-- What receiving calls changes of a client. -/
structure Takes (s s' : Session ℓ) (calls : List Call) : Prop where
  listeners : s'.client.listeners = s.client.listeners
  errorListeners : s'.client.errorListeners = s.client.errorListeners
  transmitted : s'.transmitted = s.transmitted
  heard : Inbox.heard s' = Inbox.heard s ++ calls.filter (hears s.client.listeners)
  queued : s'.queued = s.queued ++ calls.filter (shelves s.client.listeners)
  receipts : s'.client.receipts = s.client.receipts ++ calls.filterMap receiptOf

omit [DecidableEq ℓ] in
theorem takes_receive (s : Session ℓ) (call : Call) : Takes s (s.receive call) [call] := by
  -- one equation for each branch of `receive`; the clauses are read off it
  cases command : call.command with
  | message =>
    cases headers : call.headers with
    | none =>
      have same : s.receive call = s := by
        simp [Session.receive, StompClient.receive, command, headers]
      rw [same]
      constructor <;> simp [hears, shelves, receiptOf, command, headers]
    | some h =>
      cases listed : s.client.listeners call.destination with
      | none =>
        have same : s.receive call =
            { s with
              client := { s.client with queue := s.client.queue ++ [call] }
              queued := s.queued ++ [call] } := by
          simp [Session.receive, StompClient.receive, command, headers, listed]
        rw [same]
        constructor <;> simp [hears, shelves, receiptOf, command, headers, listed, Inbox.heard]
      | some listeners =>
        have same : s.receive call = { s with told := s.told ++ [(listeners, call)] } := by
          simp [Session.receive, StompClient.receive, command, headers, listed]
        rw [same]
        constructor <;> simp [hears, shelves, receiptOf, command, headers, listed, Inbox.heard]
  | receipt =>
    cases headers : call.headers with
    | none =>
      have same : s.receive call = s := by
        simp [Session.receive, StompClient.receive, command, headers]
      rw [same]
      constructor <;> simp [hears, shelves, receiptOf, command, headers]
    | some h =>
      have same : s.receive call =
          { s with
            client := { s.client with
              receipts := s.client.receipts ++ [h.value "receipt-id"] } } := by
        simp [Session.receive, StompClient.receive, command, headers]
      rw [same]
      constructor <;> simp [hears, shelves, receiptOf, command, headers, Inbox.heard]
  | error =>
    cases nobody : s.client.errorListeners.isEmpty with
    | true =>
      have same : s.receive call =
          { s with client := { s.client with errors := s.client.errors ++ [call.body] } } := by
        simp [Session.receive, StompClient.receive, command, nobody]
      rw [same]
      constructor <;> simp [hears, shelves, receiptOf, command, Inbox.heard]
    | false =>
      have same :
          s.receive call = { s with told := s.told ++ [(s.client.errorListeners, call)] } := by
        simp [Session.receive, StompClient.receive, command, nobody]
      rw [same]
      constructor <;> simp [hears, shelves, receiptOf, command, Inbox.heard]
  | connected =>
    have same : s.receive call = { s with client := { s.client with connected := true } } := by
      simp [Session.receive, StompClient.receive, command]
    rw [same]
    constructor <;> simp [hears, shelves, receiptOf, command, Inbox.heard]
  | _ =>
    have same : s.receive call = s := by simp [Session.receive, StompClient.receive, command]
    rw [same]
    constructor <;> simp [hears, shelves, receiptOf, command]

omit [DecidableEq ℓ] in
theorem takes_all (calls : List Call) (s : Session ℓ) :
    Takes s (calls.foldl Session.receive s) calls := by
  induction calls generalizing s with
  | nil => exact ⟨rfl, rfl, rfl, by simp, by simp, by simp⟩
  | cons call calls inductionHypothesis =>
    obtain ⟨listeners, errorListeners, transmitted, heard, queued, receipts⟩ := takes_receive s call
    obtain ⟨listeners', errorListeners', transmitted', heard', queued', receipts'⟩ :=
      inductionHypothesis (s.receive call)
    rw [List.foldl_cons]
    rw [listeners] at heard' queued'
    refine ⟨listeners'.trans listeners, errorListeners'.trans errorListeners,
      transmitted'.trans transmitted, ?_, ?_, ?_⟩
    · rw [heard', heard, List.append_assoc, ← List.filter_append, List.singleton_append]
    · rw [queued', queued, List.append_assoc, ← List.filter_append, List.singleton_append]
    · rw [receipts', receipts, List.append_assoc, ← List.filterMap_append, List.singleton_append]

/-! ### What it has heard -/

def Stays (channel : String) (calls : List Call) : Prop :=
  ∀ call ∈ calls, call.command = .unsubscribe → call.destination ≠ some channel

/-- What has arrived has been heard, but for messages of channels that the client was leaving. -/
structure Heard (s : Session ℓ) (arrived : List Call) : Prop where
  heard : ∀ channel, Stays channel s.transmitted → Inbox.ofChannel channel (Inbox.heard s) =
    Inbox.ofChannel channel (arrived.filter fun call => call.command = .message)
  queued : ∀ m ∈ s.queued, ∃ call ∈ s.transmitted, call.command = .unsubscribe ∧
    call.destination = m.destination

omit [DecidableEq ℓ] in
theorem heard_method {s s' : Session ℓ} {arrived calls : List Call} (heard : Heard s arrived)
    (told : s'.told = s.told)
    (queued : s'.queued = s.queued) (transmitted : s'.transmitted = s.transmitted ++ calls) :
    Heard s' arrived := by
  constructor
  · intro channel stays
    rw [Inbox.heard_congr told]
    refine heard.heard channel fun call member => stays call ?_
    rw [transmitted]
    exact List.mem_append_left _ member
  · intro m member
    rw [queued] at member
    obtain ⟨call, there, left⟩ := heard.queued m member
    refine ⟨call, ?_, left⟩
    rw [transmitted]
    exact List.mem_append_left _ there

omit [DecidableEq ℓ] in
theorem heard_receives {s : Session ℓ} {arrived fresh : List Call} (heard : Heard s arrived)
    (listened : ∀ m ∈ fresh, m.command = .message → m.headers.isSome ∧
      ((s.client.listeners m.destination).isSome ∨
      ∃ call ∈ s.transmitted, call.command = .unsubscribe ∧ call.destination = m.destination)) :
    Heard (fresh.foldl Session.receive s) (arrived ++ fresh) := by
  obtain ⟨_, _, transmitted, heardNow, queuedNow, _⟩ := takes_all fresh s
  constructor
  · intro channel stays
    rw [transmitted] at stays
    rw [heardNow, List.filter_append, Inbox.ofChannel_append, Inbox.ofChannel_append,
      heard.heard channel stays]
    congr 1
    simp only [Inbox.ofChannel, List.filter_filter]
    apply List.filter_congr
    intro m member
    by_cases here : m.destination = some channel
    · by_cases isMessage : m.command = .message
      · -- a message nobody listens for is of a channel that was left, which this one is not
        obtain ⟨hasHeaders, isSome | ⟨call, there, leaves, left⟩⟩ := listened m member isMessage
        · rw [here] at isSome
          simp [hears, here, isMessage, hasHeaders, isSome]
        · exact absurd (left.trans here) (stays call there leaves)
      · simp [hears, isMessage]
    · simp [here]
  · intro m member
    rw [transmitted]
    rw [queuedNow] at member
    obtain earlier | now := List.mem_append.mp member
    · exact heard.queued m earlier
    · obtain ⟨inFresh, shelved⟩ := List.mem_filter.mp now
      simp only [shelves, Bool.and_eq_true, decide_eq_true_eq] at shelved
      obtain ⟨⟨isMessage, _⟩, nobody⟩ := shelved
      obtain ⟨_, isSome | leaving⟩ := listened m inFresh isMessage
      · rw [Option.isNone_iff_eq_none.mp nobody] at isSome
        cases isSome
      · exact leaving

end Uses

end TrainWatch.Verified.PlainClients
