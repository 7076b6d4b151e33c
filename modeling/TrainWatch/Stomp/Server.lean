import TrainWatch.Library.Deferral
import TrainWatch.Stomp.Frames

/-! # The embedded server

Clients in the same VM call the server themselves; each network client has a handler whose
thread takes its frames.  Calls go to the server one at a time for each client.  A commit
holds the lock on the transactions while it replays what was queued, one call after the
other; sends and subscriptions of other clients go on in between.  A listener makes no call of
the server while it is told of a message: one that sent would have its send told to the
listeners behind it before the message that they are still owed.
-/

namespace TrainWatch.Stomp

open TrainWatch.Java TrainWatch.Library

/-- Who calls the server, and whom it calls back. -/
inductive Peer where
  | intraVM (client : Nat)
  | socket (handler : Nat)
deriving DecidableEq, Repr

/-- `connect` gives a token, or the message of the `LoginException`. -/
structure Authenticator (τ : Type) where
  connect : Option String → Option String → Except (Option String) τ
  authorizeSend : Option τ → Option String → Bool
  authorizeSubscribe : Option τ → Option String → Bool

def AllowAllAuthenticator : Authenticator String where
  connect _ _ := .ok ""
  authorizeSend _ _ := true
  authorizeSubscribe _ _ := true

/-- The part of a network client's handler that outlives a call. -/
structure SocketHandler (τ : Type) where
  token : Option τ
  authenticated : Bool
  closed : Bool

/-- A call as it is performed: with the token its client has at that time. -/
structure Performed (τ : Type) where
  peer : Peer
  token : Option τ
  call : Call

/-- The answer to a call with a receipt header. -/
def Call.receiptFor (receipt : String) : Call :=
  ⟨.receipt, some (Dict.ofPairs [("receipt-id", some receipt)]), none⟩

/-! ## Channels -/

/-- Channel to listeners; a channel without an entry has never been subscribed to. -/
abbrev Subscriptions := Option String → Option (List Peer)

section Channels

variable {τ : Type} (authenticator : Authenticator τ)

def Performed.mayPerform (authorize : Option τ → Option String → Bool) (performed : Performed τ) :
    Bool :=
  match performed.peer with
  | .intraVM _ => true
  | .socket _ => authorize performed.token performed.call.destination

/-- What a refused client is told; the names end in colons. -/
def refusal (kind : String) (call : Call) : Call :=
  ⟨.error, some (Dict.ofPairs [("message:", some "authorization refused"), ("type:", some kind),
    ("channel:", call.destination)]),
    some ("The message:\n-----\n" ++ concatOperand call.body ++
      "\n-----\nAuthentication token refused for this channel")⟩

/-- The message that the listeners of the channel get. -/
def Call.asMessage (call : Call) : Call :=
  ⟨.message, some (call.headers.getD Dict.empty), call.body⟩

/-- A call outside any transaction: the channels after it, and what is handed to whom. -/
def execute (listeners : Subscriptions) (performed : Performed τ) :
    Subscriptions × List (Peer × Call) :=
  match performed.call.command with
  | .send =>
    if performed.mayPerform authenticator.authorizeSend then
      (listeners, ((listeners performed.call.destination).getD []).map fun peer =>
        (peer, performed.call.asMessage))
    else (listeners, [(performed.peer, refusal "send" performed.call)])
  | .subscribe =>
    if performed.mayPerform authenticator.authorizeSubscribe then
      let l := (listeners performed.call.destination).getD []
      (Function.update listeners performed.call.destination
        (some (if performed.peer ∈ l then l else l ++ [performed.peer])), [])
    else (listeners, [(performed.peer, refusal "subscription" performed.call)])
  | .unsubscribe =>
    (Function.update listeners performed.call.destination
      ((listeners performed.call.destination).map (·.erase performed.peer)), [])
  | .disconnect => (fun channel => (listeners channel).map (·.erase performed.peer), [])
  | _ => (listeners, [])

end Channels

/-! ## The server -/

structure Server (τ : Type) where
  transactions : Peer → Option (List Call)
  listeners : Subscriptions
  handlers : Nat → SocketHandler τ
  /-- The client whose commit holds the lock, the calls it has still to replay, and its own commit
      call. -/
  committing : Option (Peer × List Call × Call)
  /-- What was passed to `receive` of intra-VM clients and to `transmit` of handlers. -/
  handed : List (Peer × Call)
  /-- The calls performed, and those the clients have made. -/
  performed : List (Performed τ)
  made : List (Peer × Call)

namespace Server

variable {τ : Type}

def start : Server τ :=
  ⟨fun _ => none, fun _ => none, fun _ => ⟨none, false, false⟩, none, [], [], []⟩

variable (authenticator : Authenticator τ) (session : Nat → String)

def token (s : Server τ) : Peer → Option τ
  | .intraVM _ => none
  | .socket handler => (s.handlers handler).token

def hand (s : Server τ) (peer : Peer) (call : Call) :
    Server τ := { s with handed := s.handed ++ [(peer, call)] }

/-- A call is queued in the open transaction of its client, or performed. -/
def queueOrPerform (s : Server τ) (y : Peer) (call : Call) : Server τ :=
  match s.transactions y with
  | some queued =>
      { s with transactions := Function.update s.transactions y (some (queued ++ [call])) }
  | none =>
    let entry : Performed τ := ⟨y, s.token y, call⟩
    let result := execute authenticator s.listeners entry
    { s with
      transactions := if call.command = .begin then Function.update s.transactions y (some [])
        else s.transactions
      listeners := result.1
      handed := s.handed ++ result.2
      performed := s.performed ++ [entry] }

/-- The receipt is handed to an intra-VM client; a handler passes it back to the server as a call.
    -/
def sendReceipt (s : Server τ) (y : Peer) (call : Call) : Server τ :=
  match call.receipt with
  | none => s
  | some receipt =>
    match y with
    | .intraVM _ => s.hand y (Call.receiptFor receipt)
    | .socket _ => s.queueOrPerform authenticator y (Call.receiptFor receipt)

/-- `receive` for everything but a commit and an abort. -/
def receiveOther (s : Server τ) (y : Peer) (call : Call) : Server τ :=
  (s.queueOrPerform authenticator y call).sendReceipt authenticator y call

/-- `receive`, up to the replays of a commit.  Without a transaction a commit throws, and there is
    no receipt. -/
def receive (s : Server τ) (y : Peer) (call : Call) : Server τ :=
  match call.command with
  | .commit =>
    match s.transactions y with
    | some queued =>
      { s with
        transactions := Function.update s.transactions y none
        committing := some (y, queued, call) }
    | none => s
  | .abort =>
    ({ s with transactions := Function.update s.transactions y none } : Server τ).sendReceipt
      authenticator y call
  | _ => s.receiveOther authenticator y call

/-- A client whose commit goes on makes no call; the lock is waited for by every call that touches
    the transactions. -/
def waits (s : Server τ) (y : Peer) (call : Call) : Bool :=
  match s.committing with
  | none => false
  | some (busy, _) =>
    busy = y || call.command = .commit || call.command = .abort || call.command = .begin ||
      (s.transactions y).isSome

inductive Action where
  | call (client : Nat) (call : Call)
  | frame (handler : Nat) (call : Call)
  | replay
  | finish

/-- The call of the server that a client makes, when it may. -/
def make (s : Server τ) (y : Peer) (call : Call) : Option (Server τ) :=
  if s.waits y call then none
  else some (({ s with made := s.made ++ [(y, call)] } : Server τ).receive authenticator y call)

def close (s : Server τ) (handler : Nat) : Server τ :=
  { s with
    handlers := Function.update s.handlers handler { s.handlers handler with closed := true } }

/-- A CONNECT frame; without headers it throws, and the receiver swallows that. -/
def connect (s : Server τ) (handler : Nat) (call : Call) : Server τ :=
  match call.headers with
  | none => s
  | some h =>
    match authenticator.connect (h.value "login") (h.value "passcode") with
    | .ok token =>
      ({ s with
        handlers := Function.update s.handlers handler
          ⟨some token, true, (s.handlers handler).closed⟩ } :
        Server τ).hand (.socket handler) ⟨.connected,
          some (Dict.ofPairs [("session", some (session handler))]), none⟩
    | .error message =>
        s.hand (.socket handler) ⟨.error, none, some ("Login failed: " ++ concatOperand message)⟩

/-- What an authenticated client sends: a DISCONNECT is consumed here, and an error goes back. -/
def relay (s : Server τ) (handler : Nat) (call : Call) : Option (Server τ) :=
  match call.command with
  | .disconnect =>
    match call.receipt with
    | none => some (s.close handler)
    | some receipt => (s.make authenticator (.socket handler) (Call.receiptFor receipt)).map
        (·.close handler)
  | .error => some (s.hand (.socket handler) call)
  | _ => s.make authenticator (.socket handler) call

/-- `SocketHandler.receive`. -/
def receiveFrame (s : Server τ) (handler : Nat) (call : Call) : Option (Server τ) :=
  if call.command = .connect then some (s.connect authenticator session handler call)
  else if (s.handlers handler).authenticated = false then
    some (s.hand (.socket handler) ⟨.error, none, some "Not CONNECTed, or not authorized"⟩)
  else s.relay authenticator handler call

def step (s : Server τ) : Action → Option (Server τ)
  | .call client call => s.make authenticator (.intraVM client) call
  | .frame handler call =>
    if (s.handlers handler).closed ∨ s.committing.map Prod.fst = some (.socket handler) then none
    else s.receiveFrame authenticator session handler call
  | .replay =>
    match s.committing with
    | some (y, call :: rest, commit) =>
      some (({ s with committing := some (y, rest, commit) } : Server τ).receiveOther authenticator
        y call)
    | _ => none
  | .finish =>
    match s.committing with
    | some (y, [], commit) =>
        some (({ s with committing := none } : Server τ).sendReceipt authenticator y commit)
    | _ => none

/-! ## The server as a deferral of calls -/

@[simp] theorem receipt_receiptFor (receipt : String) :
    (Call.receiptFor receipt).receipt = none := rfl

/-- A call of a handler with a receipt header is followed by the receipt, as a call of its own. -/
def echo (y : Peer) (call : Call) : List Call :=
  match y, call.receipt with
  | .socket _, some receipt => [Call.receiptFor receipt]
  | _, _ => []

theorem echo_receiptFor (y : Peer) (receipt : String) : echo y (Call.receiptFor receipt) = [] := by
  cases y <;> rfl

theorem echo_cases (y : Peer) (call : Call) :
    echo y call = [] ∨ ∃ receipt, echo y call = [Call.receiptFor receipt] := by
  unfold echo
  split
  · exact .inr ⟨_, rfl⟩
  · exact .inl rfl

def deferral : Deferral Peer Call where
  opens call := call.command = .begin
  closes call := call.command = .commit
  drops call := call.command = .abort
  echo := echo
  echo_echo := by
    intro y call other member
    obtain none | ⟨receipt, one⟩ := echo_cases y call
    · rw [none] at member
      cases member
    · rw [one] at member
      cases List.mem_singleton.mp member
      exact echo_receiptFor y receipt

/-- The transactions, the commit under way and the order of the calls performed. -/
def deferred (s : Server τ) : Deferral.State Peer Call where
  buffers := s.transactions
  busy := s.committing.map fun commit => (commit.1, commit.2.1 ++ echo commit.1 commit.2.2)
  performed := s.performed.map fun entry => (entry.peer, entry.call)

/-- The calls a client has made, and those performed for it. -/
def madeBy (s : Server τ) (y : Peer) : List Call :=
  s.made.filterMap fun made => if made.1 = y then some made.2 else none

def performedFor (s : Server τ) (y : Peer) : List Call :=
  s.performed.filterMap fun entry => if entry.peer = y then some entry.call else none

section Simulation

variable {authenticator : Authenticator τ} {session : Nat → String} {s s' : Server τ} {y : Peer}
    {call : Call}

theorem deferred_queueOrPerform (s : Server τ) (y : Peer) (call : Call) :
    (s.queueOrPerform authenticator y call).deferred = s.deferred.pass deferral y call := by
  cases open_ : s.transactions y with
  | some queued => simp [queueOrPerform, deferred, Deferral.State.pass, Deferral.State.setBuffer,
      open_]
  | none =>
    have same : Function.update s.transactions y none = s.transactions := by
      rw [← open_, Function.update_eq_self]
    by_cases begins : call.command = .begin
    · simp [queueOrPerform, deferred, Deferral.State.pass, Deferral.State.setBuffer, deferral,
        open_, begins]
    · simp [queueOrPerform, deferred, Deferral.State.pass, Deferral.State.setBuffer, deferral,
        open_, begins, same]

theorem deferred_sendReceipt (s : Server τ) (y : Peer) (call : Call) :
    (s.sendReceipt authenticator y call).deferred =
    (echo y call).foldl (fun s call => s.pass deferral y call) s.deferred := by
  unfold sendReceipt echo
  cases receipt : call.receipt with
  | none => cases y <;> rfl
  | some receipt =>
    cases y with
    | intraVM client => rfl
    | socket handler => exact deferred_queueOrPerform s _ _

theorem deferred_receiveOther (s : Server τ) (y : Peer) (call : Call) :
    (s.receiveOther authenticator y call).deferred = s.deferred.handle deferral y call := by
  rw [receiveOther, deferred_sendReceipt, deferred_queueOrPerform]
  rfl

theorem foldl_handle_echo (d : Deferral.State Peer Call) (y : Peer) (call : Call) :
    (echo y call).foldl (fun d call => d.handle deferral y call) d = (echo y call).foldl
    (fun d call => d.pass deferral y call) d := by
  obtain none | ⟨receipt, one⟩ := echo_cases y call
  · rw [none]
    rfl
  · rw [one, List.foldl_cons, List.foldl_cons, Deferral.State.handle]
    show List.foldl _ _ (Call.receiptFor receipt :: echo y (Call.receiptFor receipt)) = _
    rw [echo_receiptFor]
    rfl

theorem receive_of_other (notCommit : call.command ≠ .commit) (notAbort : call.command ≠ .abort) :
    s.receive authenticator y call = s.receiveOther authenticator y call := by
  unfold receive
  split
  · rename_i commit
    exact absurd commit notCommit
  · rename_i abort
    exact absurd abort notAbort
  · rfl

/-- The calls made, the handlers and the commit under way are the same in both states. -/
structure Leaves (s s' : Server τ) : Prop where
  made : s'.made = s.made
  handlers : s'.handlers = s.handlers
  committing : s'.committing = s.committing

theorem leaves_queueOrPerform (s : Server τ) (y : Peer) (call : Call) :
    Leaves s (s.queueOrPerform authenticator y call) := by
  unfold queueOrPerform
  split
  · exact ⟨rfl, rfl, rfl⟩
  · exact ⟨rfl, rfl, rfl⟩

theorem leaves_sendReceipt (s : Server τ) (y : Peer) (call : Call) :
    Leaves s (s.sendReceipt authenticator y call) := by
  unfold sendReceipt
  split
  · exact ⟨rfl, rfl, rfl⟩
  · split
    · exact ⟨rfl, rfl, rfl⟩
    · exact leaves_queueOrPerform s _ _

theorem leaves_receiveOther (s : Server τ) (y : Peer) (call : Call) :
    Leaves s (s.receiveOther authenticator y call) := by
  obtain ⟨made, handlers, committing⟩ :=
    leaves_sendReceipt (s.queueOrPerform authenticator y call) y call
  obtain ⟨made', handlers', committing'⟩ : Leaves s (s.queueOrPerform authenticator y call) :=
    leaves_queueOrPerform s y call
  exact ⟨made.trans made', handlers.trans handlers', committing.trans committing'⟩

theorem receive_leaves (s : Server τ) (y : Peer) (call : Call) :
    (s.receive authenticator y call).made = s.made ∧ (s.receive authenticator y call).handlers =
      s.handlers ∧
      ((s.receive authenticator y call).committing = s.committing ∨
        ∃ queued, (s.receive authenticator y call).committing = some (y, queued, call)) := by
  unfold receive
  split
  · split
    · exact ⟨rfl, rfl, .inr ⟨_, rfl⟩⟩
    · exact ⟨rfl, rfl, .inl rfl⟩
  · have leaves : Leaves _ (sendReceipt authenticator
        { s with transactions := Function.update s.transactions y none } y call) :=
      leaves_sendReceipt _ y call
    exact ⟨leaves.made, leaves.handlers, .inl leaves.committing⟩
  · have leaves : Leaves s (s.receiveOther authenticator y call) := leaves_receiveOther s y call
    exact ⟨leaves.made, leaves.handlers, .inl leaves.committing⟩

theorem make_leaves (makes : s.make authenticator y call = some s') :
    s'.made = s.made ++ [(y, call)] ∧ s'.handlers = s.handlers ∧
      (s'.committing = s.committing ∨ ∃ queued, s'.committing = some (y, queued, call)) := by
  unfold make at makes
  split at makes
  · cases makes
  · cases makes
    exact receive_leaves _ y call

theorem waits_iff (s : Server τ) (y : Peer) (call : Call) : s.waits y call = true ↔
    s.deferred.busy.isSome ∧ (s.deferred.busy.map Prod.fst = some y ∨ deferral.closes call ∨
      deferral.drops call ∨
      deferral.opens call ∨ (s.deferred.buffers y).isSome) := by
  cases committing : s.committing with
  | none => simp [waits, deferred, committing]
  | some commit =>
    obtain ⟨busy, queued, commit⟩ := commit
    simp [waits, deferred, deferral, committing, or_assoc]

theorem deferred_make (makes : s.make authenticator y call = some s') :
    s.deferred.step deferral (.call y call) = some s'.deferred := by
  unfold make at makes
  split at makes
  · cases makes
  · rename_i free
    cases makes
    rw [Deferral.State.step, if_neg fun waiting => free ((waits_iff s y call).mpr waiting)]
    by_cases commit : call.command = .commit
    · rw [if_pos (by simpa [deferral] using commit)]
      cases open_ : s.transactions y with
      | none => simp [receive, commit, deferred, open_]
      | some queued =>
        simp [receive, commit, deferred, open_, Deferral.State.setBuffer, deferral]
    · rw [if_neg (by simpa [deferral] using commit)]
      by_cases abort : call.command = .abort
      · rw [if_pos (by simpa [deferral] using abort)]
        have unfolded :
            ({ s with made := s.made ++ [(y, call)] } : Server τ).receive authenticator y call =
            sendReceipt authenticator
              { s with
                transactions := Function.update s.transactions y none
                made := s.made ++ [(y, call)] }
              y call := by
          simp [receive, abort]
        rw [unfolded, deferred_sendReceipt, ← foldl_handle_echo]
        rfl
      · rw [if_neg (by simpa [deferral] using abort), receive_of_other commit abort,
          deferred_receiveOther]
        rfl

def Accepts (authenticator : Authenticator τ) (call : Call) (token : τ) : Prop :=
  call.command = .connect ∧ ∃ headers, call.headers = some headers ∧
    authenticator.connect (headers.value "login") (headers.value "passcode") = .ok token

/-- What is told without a call performed: receipts to clients in the same VM, and to a network
    client what its handler answers to the frame that it receives, if any. -/
inductive Told (authenticator : Authenticator τ) (session : Nat → String)
    (frame : Option (Nat × Call)) : Peer → Call → Prop where
  | receipt (client : Nat) (receipt : String) :
      Told authenticator session frame (.intraVM client) (Call.receiptFor receipt)
  | connected (handler : Nat) :
      Told authenticator session frame (.socket handler) ⟨.connected,
        some (Dict.ofPairs [("session", some (session handler))]), none⟩
  | loginFailed {login passcode message : Option String} (handler : Nat)
      (refused : authenticator.connect login passcode = .error message) :
      Told authenticator session frame (.socket handler) ⟨.error, none,
        some ("Login failed: " ++ concatOperand message)⟩
  | notConnected (handler : Nat) :
      Told authenticator session frame (.socket handler) ⟨.error, none,
        some "Not CONNECTed, or not authorized"⟩
  | error {handler : Nat} {call : Call} (isFrame : frame = some (handler, call))
      (command : call.command = .error) :
      Told authenticator session frame (.socket handler) call

theorem Told.command {frame : Option (Nat × Call)} {peer : Peer} {told : Call}
    (isTold : Told authenticator session frame peer told) :
    told.command ≠ .message ∧ ∀ handler, peer = .socket handler → told.command ≠ .receipt := by
  cases isTold with
  | receipt client receipt => exact ⟨by simp [Call.receiptFor], fun _ other => nomatch other⟩
  | connected handler => simp
  | loginFailed handler refused => simp
  | notConnected handler => simp
  | error isFrame command => simp [command]

/-- What a handler does with a frame: it connects, answers with an error, or, once authenticated,
    closes the connection or passes the call on. -/
theorem receiveFrame_cases {handler : Nat}
    (received : s.receiveFrame authenticator session handler call = some s') :
    (∃ token, Accepts authenticator call token ∧
      s' = ({ s with
        handlers := Function.update s.handlers handler
          ⟨some token, true, (s.handlers handler).closed⟩ } :
        Server τ).hand (.socket handler) ⟨.connected,
          some (Dict.ofPairs [("session", some (session handler))]), none⟩) ∨
    (∃ told : Call, (told.command = .error ∧ Told authenticator session (some (handler, call))
      (.socket handler) told) ∧
      s' = s.hand (.socket handler) told) ∨
    s' = s ∨
    (s.handlers handler).authenticated = true ∧
      (s' = s.close handler ∨
        (∃ receipt s'', s.make authenticator (.socket handler) (Call.receiptFor receipt) =
          some s'' ∧ s' = s''.close handler) ∨
        s.make authenticator (.socket handler) call = some s') := by
  unfold receiveFrame at received
  split at received
  · rename_i isConnect
    cases received
    unfold connect
    split
    · exact .inr (.inr (.inl rfl))
    · rename_i headers hasHeaders
      split
      · rename_i token accepted
        exact .inl ⟨token, ⟨isConnect, headers, hasHeaders, accepted⟩, rfl⟩
      · rename_i refused
        exact .inr (.inl ⟨_, ⟨rfl, .loginFailed handler refused⟩, rfl⟩)
  · split at received
    · cases received
      exact .inr (.inl ⟨_, ⟨rfl, .notConnected handler⟩, rfl⟩)
    · rename_i authenticated
      have authenticated : (s.handlers handler).authenticated = true := by simpa using authenticated
      unfold relay at received
      split at received
      · split at received
        · cases received
          exact .inr (.inr (.inr ⟨authenticated, .inl rfl⟩))
        · rename_i receipt _
          -- the receipt goes through the server before the connection is closed
          obtain ⟨s'', makes, rfl⟩ := Option.map_eq_some_iff.mp received
          exact .inr (.inr (.inr ⟨authenticated, .inr (.inl ⟨receipt, s'', makes, rfl⟩)⟩))
      · rename_i error
        cases received
        exact .inr (.inl ⟨call, ⟨error, .error rfl error⟩, rfl⟩)
      · exact .inr (.inr (.inr ⟨authenticated, .inr (.inr received)⟩))

/-- What a step can do, with the frames reduced to what they have the server do. -/
theorem step_cases {action : Action} (stepped : s.step authenticator session action = some s') :
    (∃ client call, action = .call client call ∧ s.make authenticator (.intraVM client) call =
      some s') ∨
    (∃ handler call, action = .frame handler call ∧ (s.handlers handler).closed = false ∧
      s.committing.map Prod.fst ≠ some (.socket handler) ∧
        s.receiveFrame authenticator session handler call = some s') ∨
    (∃ y call rest commit, action = .replay ∧ s.committing = some (y, call :: rest, commit) ∧
      s' = ({ s with committing := some (y, rest, commit) } : Server τ).receiveOther authenticator y
        call) ∨
    ∃ y commit, action = .finish ∧ s.committing = some (y, [], commit) ∧
      s' = ({ s with committing := none } : Server τ).sendReceipt authenticator y commit := by
  cases action with
  | call client call => exact .inl ⟨client, call, rfl, stepped⟩
  | frame handler call =>
    simp only [step] at stepped
    split at stepped
    · cases stepped
    · rename_i free
      rw [not_or, Bool.not_eq_true] at free
      exact .inr (.inl ⟨handler, call, rfl, free.1, free.2, stepped⟩)
  | replay =>
    simp only [step] at stepped
    split at stepped
    · rename_i y call rest commit committing
      cases stepped
      exact .inr (.inr (.inl ⟨y, call, rest, commit, rfl, committing, rfl⟩))
    · cases stepped
  | finish =>
    simp only [step] at stepped
    split at stepped
    · rename_i y commit committing
      cases stepped
      exact .inr (.inr (.inr ⟨y, commit, rfl, committing, rfl⟩))
    · cases stepped

theorem deferred_replay {rest : List Call} {commit : Call}
    (committing : s.committing = some (y, call :: rest, commit)) :
    s.deferred.step deferral .replay =
      some (({ s with committing := some (y, rest, commit) } : Server τ).receiveOther authenticator
        y call).deferred := by
  have busy : s.deferred.busy = some (y, call :: (rest ++ echo y commit)) := by
    simp [deferred, committing]
  rw [deferred_receiveOther, Deferral.State.step, busy]
  exact congrArg some (Deferral.handle_busy s.deferred y call
    (some (y, rest ++ echo y commit))).symm

theorem deferred_finish {commit : Call} (committing : s.committing = some (y, [], commit)) :
    ∃ trace, run (Deferral.State.step deferral) s.deferred trace =
      some (({ s with committing := none } : Server τ).sendReceipt authenticator y
        commit).deferred ∧
        ∀ client, Deferral.callsOf client trace = [] := by
  have busy : s.deferred.busy = some (y, echo y commit) := by simp [deferred, committing]
  have idle : ({ s with committing := none } : Server τ).deferred =
      { s.deferred with busy := none } := rfl
  rw [deferred_sendReceipt, idle, Deferral.foldl_pass_busy]
  obtain none | ⟨receipt, one⟩ := echo_cases y commit
  · refine ⟨[.finish], ?_, fun _ => rfl⟩
    rw [none] at busy ⊢
    simp [Deferral.State.step, busy]
  · refine ⟨[.replay, .finish], ?_, fun _ => rfl⟩
    rw [one] at busy ⊢
    have handled :
        s.deferred.handle deferral y (Call.receiptFor receipt) = s.deferred.pass deferral y
        (Call.receiptFor receipt) := by
      have same := foldl_handle_echo s.deferred y commit
      rw [one] at same
      exact same
    simp [Deferral.State.step, busy, handled]

/-- Every step of the server is a sequence of steps of the deferral, by the calls it makes. -/
theorem step_deferred {action : Action} (stepped : s.step authenticator session action = some s') :
    ∃ trace calls, run (Deferral.State.step deferral) s.deferred trace = some s'.deferred ∧
      s'.made = s.made ++ calls ∧
      ∀ client, Deferral.callsOf client trace = calls.filterMap fun made =>
        if made.1 = client then some made.2 else none := by
  have ofMake : ∀ {y : Peer} {call : Call} {s' : Server τ}, s.make authenticator y call = some s' →
      run (Deferral.State.step deferral) s.deferred [.call y call] = some s'.deferred ∧
        s'.made = s.made ++ [(y, call)] := by
    intro y call s' makes
    exact ⟨by simp [deferred_make makes], (make_leaves makes).1⟩
  -- a call made is a call of the deferral, and what is not made is none
  have oneCall : ∀ (y client : Peer) (call : Call), Deferral.callsOf client [.call y call] =
      [(y, call)].filterMap fun made => if made.1 = client then some made.2 else none := by
    intro y client call
    by_cases same : y = client
    · simp [Deferral.callsOf, same]
    · simp [Deferral.callsOf, same]
  rcases step_cases stepped with ⟨client, call, rfl, makes⟩ | ⟨handler, call, rfl, _, _, received⟩ |
    ⟨y, call, rest, commit, rfl, committing, rfl⟩ | ⟨y, commit, rfl, committing, rfl⟩
  · obtain ⟨runs, made⟩ := ofMake makes
    exact ⟨_, _, runs, made, fun _ => oneCall _ _ _⟩
  · obtain ⟨token, _, rfl⟩ | ⟨told, _, rfl⟩ | rfl | ⟨_, rfl | ⟨receipt, s'', makes, rfl⟩ | makes⟩ :=
      receiveFrame_cases received
    · exact ⟨[], [], rfl, (List.append_nil _).symm, fun _ => rfl⟩
    · exact ⟨[], [], rfl, (List.append_nil _).symm, fun _ => rfl⟩
    · exact ⟨[], [], rfl, (List.append_nil _).symm, fun _ => rfl⟩
    · exact ⟨[], [], rfl, (List.append_nil _).symm, fun _ => rfl⟩
    · obtain ⟨runs, made⟩ := ofMake makes
      exact ⟨_, _, runs, made, fun _ => oneCall _ _ _⟩
    · obtain ⟨runs, made⟩ := ofMake makes
      exact ⟨_, _, runs, made, fun _ => oneCall _ _ _⟩
  · refine ⟨[.replay], [], ?_, ?_, fun _ => rfl⟩
    · rw [run_cons, deferred_replay committing]
      rfl
    · rw [(leaves_receiveOther _ y call).made, List.append_nil]
  · obtain ⟨trace, runs, none⟩ := deferred_finish committing
    refine ⟨trace, [], runs, ?_, none⟩
    rw [(leaves_sendReceipt _ y commit).made, List.append_nil]

/-! ### What a step changes of the channels -/

def Action.framed : Action → Option (Nat × Call)
  | .frame handler call => some (handler, call)
  | _ => none

/-- What the steps do to the channels, to what is handed out and to the calls performed: they
    perform a call, tell a peer something, or leave all three alone. -/
inductive Grows (authenticator : Authenticator τ) (session : Nat → String)
    (frame : Option (Nat × Call)) :
    Server τ → Server τ → Prop where
  | same {s s' : Server τ} (listeners : s'.listeners = s.listeners) (handed : s'.handed = s.handed)
      (performed : s'.performed = s.performed) : Grows authenticator session frame s s'
  | tell {s s' : Server τ} (peer : Peer) (told : Call)
      (isTold : Told authenticator session frame peer told)
      (listeners : s'.listeners = s.listeners) (handed : s'.handed = s.handed ++ [(peer, told)])
      (performed : s'.performed = s.performed) : Grows authenticator session frame s s'
  | perform {s s' : Server τ} (entry : Performed τ) (listeners : s'.listeners =
      (execute authenticator s.listeners entry).1)
      (handed : s'.handed = s.handed ++ (execute authenticator s.listeners entry).2)
      (performed : s'.performed = s.performed ++ [entry]) : Grows authenticator session frame s s'
  | trans {s s' s'' : Server τ} (first : Grows authenticator session frame s s')
      (second : Grows authenticator session frame s' s'') : Grows authenticator session frame s s''

section Growth

variable {frame : Option (Nat × Call)}

theorem Grows.after {s'' : Server τ} (second : Grows authenticator session frame s' s'')
    (listeners : s'.listeners = s.listeners)
    (handed : s'.handed = s.handed) (performed : s'.performed = s.performed) :
    Grows authenticator session frame s s'' :=
  .trans (.same listeners handed performed) second

theorem grows_queueOrPerform (s : Server τ) (y : Peer) (call : Call) :
    Grows authenticator session frame s (s.queueOrPerform authenticator y call) := by
  unfold queueOrPerform
  split
  · exact .same rfl rfl rfl
  · exact .perform ⟨y, s.token y, call⟩ rfl rfl rfl

theorem grows_sendReceipt (s : Server τ) (y : Peer) (call : Call) :
    Grows authenticator session frame s (s.sendReceipt authenticator y call) := by
  unfold sendReceipt
  split
  · exact .same rfl rfl rfl
  · split
    · rename_i receipt _ _ client
      exact .tell (.intraVM client) (Call.receiptFor receipt) (.receipt client receipt) rfl rfl rfl
    · exact grows_queueOrPerform s _ _

theorem grows_receiveOther (s : Server τ) (y : Peer) (call : Call) :
    Grows authenticator session frame s (s.receiveOther authenticator y call) :=
  (grows_queueOrPerform s y call).trans (grows_sendReceipt _ y call)

theorem grows_receive (s : Server τ) (y : Peer) (call : Call) :
    Grows authenticator session frame s (s.receive authenticator y call) := by
  unfold receive
  split
  · split
    · exact .same rfl rfl rfl
    · exact .same rfl rfl rfl
  · exact (grows_sendReceipt _ y call).after rfl rfl rfl
  · exact grows_receiveOther s y call

theorem grows_make (makes : s.make authenticator y call = some s') :
    Grows authenticator session frame s s' := by
  unfold make at makes
  split at makes
  · cases makes
  · cases makes
    exact (grows_receive _ y call).after rfl rfl rfl

theorem step_grows {action : Action} (stepped : s.step authenticator session action = some s') :
    Grows authenticator session action.framed s s' := by
  rcases step_cases stepped with ⟨client, call, rfl, makes⟩ | ⟨handler, call, rfl, _, _, received⟩ |
    ⟨y, call, rest, commit, rfl, committing, rfl⟩ | ⟨y, commit, rfl, committing, rfl⟩
  · exact grows_make makes
  · obtain ⟨token, _, rfl⟩ | ⟨told, answer, rfl⟩ | rfl |
      ⟨_, rfl | ⟨receipt, s'', makes, rfl⟩ | makes⟩ := receiveFrame_cases received
    · exact .tell (.socket handler) _ (.connected handler) rfl rfl rfl
    · exact .tell (.socket handler) told answer.2 rfl rfl rfl
    · exact .same rfl rfl rfl
    · exact .same rfl rfl rfl
    · exact (grows_make makes).trans (.same rfl rfl rfl)
    · exact grows_make makes
  · exact (grows_receiveOther _ y call).after rfl rfl rfl
  · exact (grows_sendReceipt _ y commit).after rfl rfl rfl

theorem performed_grows (grows : Grows authenticator session frame s s') :
    s.performed <+: s'.performed := by
  induction grows with
  | same _ _ performed => exact performed ▸ List.prefix_refl _
  | tell _ _ _ _ _ performed => exact performed ▸ List.prefix_refl _
  | perform entry _ _ performed =>
    rw [performed]
    exact List.prefix_append _ _
  | trans _ _ first second => exact first.trans second

theorem handed_grows (grows : Grows authenticator session frame s s') : s.handed <+: s'.handed := by
  induction grows with
  | same _ handed _ => exact handed ▸ List.prefix_refl _
  | tell peer told _ _ handed _ =>
    rw [handed]
    exact List.prefix_append _ _
  | perform entry _ handed _ =>
    rw [handed]
    exact List.prefix_append _ _
  | trans _ _ first second => exact first.trans second

end Growth

end Simulation

end Server

end TrainWatch.Stomp
