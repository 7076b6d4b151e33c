import TrainWatch.Verified.Broker

/-! # Clients that were never admitted

A network client whose every CONNECT the authenticator refuses gets errors and nothing
else, and to everyone else the server behaves as if that client did not exist.
-/

namespace TrainWatch.Verified.Admission

open TrainWatch.Java TrainWatch.Library TrainWatch.Stomp TrainWatch.Stomp.Server

section Runs

variable {τ : Type} {authenticator : Authenticator τ} {session : Nat → String}
variable {s s' : Server τ} {handler : Nat} {y : Peer} {call : Call}

/-- No frame of the handler is a CONNECT that the authenticator accepts. -/
def Refused (authenticator : Authenticator τ) (handler : Nat) (trace : List Server.Action) : Prop :=
  ∀ call token, .frame handler call ∈ trace → ¬ Accepts authenticator call token

def isFrameOf (handler : Nat) : Server.Action → Bool
  | .frame other _ => other = handler
  | _ => false

def without (handler : Nat) (trace : List Server.Action) : List Server.Action :=
  trace.filter fun action => !isFrameOf handler action

def toOthers (handler : Nat) (handed : List (Peer × Call)) : List (Peer × Call) :=
  handed.filter fun handed => handed.1 ≠ .socket handler

/-- The same server, without what the handler was given to transmit. -/
def unheard (handler : Nat) (s : Server τ) :
    Server τ := { s with handed := toOthers handler s.handed }

structure Outside (s : Server τ) (handler : Nat) : Prop where
  unknown : s.handlers handler = ⟨none, false, false⟩
  noTransaction : s.transactions (.socket handler) = none
  notListed : ∀ channel, .socket handler ∉ (s.listeners channel).getD []
  notBusy : s.committing.map Prod.fst ≠ some (.socket handler)

theorem toOthers_append (handler : Nat) (first second : List (Peer × Call)) :
    toOthers handler (first ++ second) = toOthers handler first ++ toOthers handler second :=
      List.filter_append _ _

theorem toOthers_own (told : Call) : toOthers handler [(.socket handler, told)] = [] := by
  simp [toOthers]

def ForOthers (handler : Nat) (handed : List (Peer × Call)) : Prop :=
  ∀ entry ∈ handed, entry.1 ≠ .socket handler

theorem toOthers_eq_self {handed : List (Peer × Call)} (forOthers : ForOthers handler handed) :
    toOthers handler handed = handed :=
  List.filter_eq_self.mpr fun entry member => by simpa using forOthers entry member

theorem forOthers_singleton (other : y ≠ .socket handler) (told : Call) :
    ForOthers handler [(y, told)] := by
  intro entry member
  cases List.mem_singleton.mp member
  exact other

theorem forOthers_execute {listeners : Subscriptions}
    (notListed : ∀ channel, .socket handler ∉ (listeners channel).getD [])
    {entry : Performed τ} (other : entry.peer ≠ .socket handler) :
    ForOthers handler (execute authenticator listeners entry).2 := by
  intro handed member
  cases command : entry.call.command with
  | send =>
    simp only [execute, command] at member
    split at member
    · obtain ⟨peer, listed, rfl⟩ := List.mem_map.mp member
      intro same
      have here : peer = .socket handler := same
      exact notListed _ (here ▸ listed)
    · exact forOthers_singleton other _ handed member
  | subscribe =>
    simp only [execute, command] at member
    split at member
    · cases member
    · exact forOthers_singleton other _ handed member
  | _ => simp [execute, command] at member

theorem notListed_execute {listeners : Subscriptions}
    (notListed : ∀ channel, .socket handler ∉ (listeners channel).getD [])
    {entry : Performed τ} (other : entry.peer ≠ .socket handler) (channel : Option String) :
    .socket handler ∉ ((execute authenticator listeners entry).1 channel).getD [] := by
  rw [Broker.execute_listeners]
  split
  · split
    · exact notListed channel
    · simp [notListed channel, other.symm]
  · exact fun member => notListed channel (List.mem_of_mem_erase member)
  · exact notListed channel

/-! ## Calls of the others -/

/-- What another client does leaves the handler outside, hands it nothing, and is the same where the
    handler's part is left out. -/
structure Aside (handler : Nat) (s s' : Server τ) : Prop where
  outside : Outside s' handler
  handed : ∃ more, s'.handed = s.handed ++ more ∧ ForOthers handler more

def Apart (handler : Nat) (f : Server τ → Server τ) : Prop :=
  ∀ s, Outside s handler → Aside handler s (f s) ∧ f (unheard handler s) = unheard handler (f s)

theorem Aside.trans {s'' : Server τ} (first : Aside handler s s') (second : Aside handler s' s'') :
    Aside handler s s'' := by
  obtain ⟨_, more, handed, forOthers⟩ := first
  obtain ⟨outside, more', handed', forOthers'⟩ := second
  refine ⟨outside, more ++ more', by rw [handed', handed, List.append_assoc],
    fun entry member => ?_⟩
  obtain here | there := List.mem_append.mp member
  · exact forOthers entry here
  · exact forOthers' entry there

theorem Aside.of_same (outside : Outside s' handler) (handed : s'.handed = s.handed) :
    Aside handler s s' :=
  ⟨outside, [], by rw [handed, List.append_nil], fun _ member => nomatch member⟩

theorem Apart.comp {f g : Server τ → Server τ} (first : Apart handler f)
    (second : Apart handler g) :
    Apart handler fun s => g (f s) := by
  intro s outside
  obtain ⟨aside, same⟩ := first s outside
  obtain ⟨aside', same'⟩ := second (f s) aside.outside
  exact ⟨aside.trans aside', (congrArg g same).trans same'⟩

theorem apart_queueOrPerform (authenticator : Authenticator τ) (other : y ≠ .socket handler)
    (call : Call) :
    Apart handler fun s : Server τ => s.queueOrPerform authenticator y call := by
  intro s outside
  obtain ⟨unknown, noTransaction, notListed, notBusy⟩ := outside
  have elsewhere := fun l : Option (List Call) =>
      (Function.update_of_ne other.symm l s.transactions).trans noTransaction
  cases open_ : s.transactions y with
  | some queued =>
    simp only [queueOrPerform, unheard, open_]
    exact ⟨.of_same ⟨unknown, elsewhere _, notListed, notBusy⟩ rfl, trivial⟩
  | none =>
    have forOthers : ForOthers handler (execute authenticator s.listeners ⟨y, s.token y, call⟩).2 :=
      forOthers_execute notListed other
    simp only [queueOrPerform, unheard, open_, toOthers_append]
    refine ⟨⟨⟨unknown, ?_, notListed_execute notListed other, notBusy⟩, _, rfl, forOthers⟩, ?_⟩
    · show (if call.command = .begin then _ else _ : Peer → Option (List Call))
        (.socket handler) = none
      split
      · exact elsewhere _
      · exact noTransaction
    · have same : token { s with handed := toOthers handler s.handed } y = s.token y := by
        cases y <;> rfl
      rw [same, toOthers_eq_self forOthers]

theorem apart_sendReceipt (authenticator : Authenticator τ) (other : y ≠ .socket handler)
    (call : Call) :
    Apart handler fun s : Server τ => s.sendReceipt authenticator y call := by
  intro s outside
  cases receipt : call.receipt with
  | none =>
    simp only [sendReceipt, receipt]
    exact ⟨.of_same outside rfl, trivial⟩
  | some receipt' =>
    cases y with
    | intraVM client =>
      have forOthers := forOthers_singleton other (Call.receiptFor receipt')
      simp only [sendReceipt, receipt, hand, unheard, toOthers_append, toOthers_eq_self forOthers]
      exact ⟨⟨⟨outside.unknown, outside.noTransaction, outside.notListed, outside.notBusy⟩, _, rfl,
        forOthers⟩, trivial⟩
    | socket m =>
      simp only [sendReceipt, receipt]
      exact apart_queueOrPerform authenticator other _ s outside

theorem apart_receiveOther (authenticator : Authenticator τ) (other : y ≠ .socket handler)
    (call : Call) :
    Apart handler fun s : Server τ => s.receiveOther authenticator y call :=
  (apart_queueOrPerform authenticator other call).comp (apart_sendReceipt authenticator other call)

theorem outside_of_eq {s t : Server τ} (outside : Outside s handler)
    (handlers : t.handlers = s.handlers)
    (transactions : t.transactions (.socket handler) = none) (listeners : t.listeners = s.listeners)
    (notBusy : t.committing.map Prod.fst ≠ some (.socket handler)) : Outside t handler :=
  ⟨handlers ▸ outside.unknown, transactions, listeners ▸ outside.notListed, notBusy⟩

theorem apart_receive (authenticator : Authenticator τ) (other : y ≠ .socket handler)
    (call : Call) :
    Apart handler fun s : Server τ => s.receive authenticator y call := by
  intro s outside
  have elsewhere := fun l : Option (List Call) =>
    (Function.update_of_ne other.symm l s.transactions).trans outside.noTransaction
  by_cases commit : call.command = .commit
  · simp only [receive, commit, unheard]
    cases open_ : s.transactions y with
    | none => exact ⟨.of_same outside rfl, rfl⟩
    | some queued =>
      refine ⟨.of_same (outside_of_eq outside rfl (elsewhere none) rfl ?_) rfl, rfl⟩
      simpa using other
  · by_cases abort : call.command = .abort
    · have dropped :
          Outside ({ s with transactions := Function.update s.transactions y none } : Server τ)
        handler :=
        outside_of_eq outside rfl (elsewhere none) rfl outside.notBusy
      obtain ⟨aside, same⟩ := apart_sendReceipt authenticator other call _ dropped
      simp only [receive, abort]
      exact ⟨⟨aside.outside, aside.handed⟩, same⟩
    · simp only [receive_of_other commit abort]
      exact apart_receiveOther authenticator other call s outside

theorem apart_make (other : y ≠ .socket handler) (outside : Outside s handler)
    (makes : s.make authenticator y call = some s') :
    Aside handler s s' ∧ (unheard handler s).make authenticator y call = some
      (unheard handler s') := by
  unfold make at makes
  split at makes
  · cases makes
  · rename_i free
    cases makes
    have noted : Outside ({ s with made := s.made ++ [(y, call)] } : Server τ) handler :=
      outside_of_eq outside rfl outside.noTransaction rfl outside.notBusy
    obtain ⟨aside, same⟩ := apart_receive authenticator other call _ noted
    refine ⟨⟨aside.outside, aside.handed⟩, ?_⟩
    have free' : (unheard handler s).waits y call ≠ true := free
    rw [make, if_neg free', ← same]
    rfl

theorem apart_hand (other : y ≠ .socket handler) (told : Call) :
    Apart handler fun s : Server τ => s.hand y told := by
  intro s outside
  have forOthers := forOthers_singleton other told
  simp only [hand, unheard, toOthers_append, toOthers_eq_self forOthers]
  exact ⟨⟨⟨outside.unknown, outside.noTransaction, outside.notListed, outside.notBusy⟩, _, rfl,
    forOthers⟩, trivial⟩

theorem apart_close {m : Nat} (other : m ≠ handler) :
    Apart handler fun s : Server τ => s.close m := by
  intro s outside
  refine ⟨.of_same ⟨?_, outside.noTransaction, outside.notListed, outside.notBusy⟩ rfl, rfl⟩
  exact (Function.update_of_ne other.symm _ _).trans outside.unknown

theorem apart_connect {m : Nat} (other : m ≠ handler) (call : Call) :
    Apart handler fun s : Server τ => s.connect authenticator session m call := by
  intro s outside
  have different : Peer.socket m ≠ .socket handler := by simpa using other
  cases headers : call.headers with
  | none =>
    simp only [connect, headers]
    exact ⟨.of_same outside rfl, trivial⟩
  | some h =>
    cases answer : authenticator.connect (h.value "login") (h.value "passcode") with
    | ok token =>
      simp only [connect, headers, answer]
      have admitted : Outside ({ s with
          handlers := Function.update s.handlers m ⟨some token, true, (s.handlers m).closed⟩ } :
          Server τ) handler := by
        refine ⟨?_, outside.noTransaction, outside.notListed, outside.notBusy⟩
        exact (Function.update_of_ne other.symm _ _).trans outside.unknown
      obtain ⟨aside, same⟩ := apart_hand different _ _ admitted
      exact ⟨⟨aside.outside, aside.handed⟩, same⟩
    | error message =>
      simp only [connect, headers, answer]
      exact apart_hand different _ s outside

theorem apart_relay {m : Nat} (other : m ≠ handler) (outside : Outside s handler)
    (relayed : s.relay authenticator m call = some s') :
    Aside handler s s' ∧ (unheard handler s).relay authenticator m call = some
      (unheard handler s') := by
  have different : Peer.socket m ≠ .socket handler := by simpa using other
  by_cases disconnect : call.command = .disconnect
  · simp only [relay, disconnect] at relayed ⊢
    cases receipt : call.receipt with
    | none =>
      simp only [receipt] at relayed ⊢
      cases relayed
      obtain ⟨aside, same⟩ := apart_close other s outside
      exact ⟨aside, congrArg some same⟩
    | some receipt' =>
      simp only [receipt] at relayed ⊢
      obtain ⟨s'', makes, rfl⟩ := Option.map_eq_some_iff.mp relayed
      obtain ⟨aside, same⟩ := apart_make different outside makes
      obtain ⟨aside', same'⟩ := apart_close other s'' aside.outside
      rw [same]
      exact ⟨aside.trans aside', congrArg some same'⟩
  · by_cases error : call.command = .error
    · simp only [relay, error] at relayed ⊢
      cases relayed
      obtain ⟨aside, same⟩ := apart_hand different call s outside
      exact ⟨aside, congrArg some same⟩
    · -- any other frame becomes a call
      have passes : ∀ t : Server τ,
          t.relay authenticator m call = t.make authenticator (.socket m) call := by
        intro t
        unfold relay
        split
        · rename_i here
          exact absurd here disconnect
        · rename_i here
          exact absurd here error
        · rfl
      rw [passes] at relayed ⊢
      exact apart_make different outside relayed

theorem apart_receiveFrame {m : Nat} (other : m ≠ handler) (outside : Outside s handler)
    (received : s.receiveFrame authenticator session m call = some s') :
    Aside handler s s' ∧ (unheard handler s).receiveFrame authenticator session m call = some
      (unheard handler s') := by
  unfold receiveFrame at received ⊢
  split at received
  · rename_i connect
    cases received
    obtain ⟨aside, same⟩ := apart_connect other call s outside
    rw [if_pos connect]
    exact ⟨aside, congrArg some same⟩
  · rename_i connect
    rw [if_neg connect]
    split at received
    · rename_i refused
      cases received
      have refused' : ((unheard handler s).handlers m).authenticated = false := refused
      obtain ⟨aside, same⟩ :=
        apart_hand (by simpa using other : Peer.socket m ≠ .socket handler) _ s outside
      rw [if_pos refused']
      exact ⟨aside, congrArg some same⟩
    · rename_i admitted
      have admitted' : ¬ ((unheard handler s).handlers m).authenticated = false := admitted
      rw [if_neg admitted']
      exact apart_relay other outside received

/-! ## Whole runs -/

theorem apart_step {action : Server.Action} (outside : Outside s handler)
    (notItsFrame : isFrameOf handler action = false)
    (stepped : s.step authenticator session action = some s') :
    Aside handler s s' ∧ (unheard handler s).step authenticator session action = some
      (unheard handler s') := by
  rcases step_cases stepped with ⟨client, call, rfl, makes⟩ |
    ⟨m, call, rfl, isOpen, free, received⟩ |
    ⟨y, call, rest, commit, rfl, committing, rfl⟩ | ⟨y, commit, rfl, committing, rfl⟩
  · exact apart_make (by simp) outside makes
  · have other : m ≠ handler := by simpa [isFrameOf] using notItsFrame
    obtain ⟨aside, same⟩ := apart_receiveFrame other outside received
    refine ⟨aside, ?_⟩
    -- the step is possible in the other run too: only the handler's own part differs
    have enabled :
        ¬ (((unheard handler s).handlers m).closed = true ∨
        (unheard handler s).committing.map Prod.fst = some (.socket m)) := by
      rintro (closed | busy)
      · exact absurd (isOpen.symm.trans closed) (by simp)
      · exact free busy
    simp only [step]
    rw [if_neg enabled]
    exact same
  · have other : y ≠ .socket handler := by simpa [committing] using outside.notBusy
    have next : Outside ({ s with committing := some (y, rest, commit) } : Server τ) handler :=
      outside_of_eq outside rfl outside.noTransaction rfl (by simpa using other)
    obtain ⟨aside, same⟩ := apart_receiveOther authenticator other call _ next
    refine ⟨⟨aside.outside, aside.handed⟩, ?_⟩
    have busy : (unheard handler s).committing = some (y, call :: rest, commit) := committing
    simp only [step, busy]
    exact congrArg some same
  · have other : y ≠ .socket handler := by simpa [committing] using outside.notBusy
    have next : Outside ({ s with committing := none } : Server τ) handler :=
      outside_of_eq outside rfl outside.noTransaction rfl (by simp)
    obtain ⟨aside, same⟩ := apart_sendReceipt authenticator other commit _ next
    refine ⟨⟨aside.outside, aside.handed⟩, ?_⟩
    have busy : (unheard handler s).committing = some (y, [], commit) := committing
    simp only [step, busy]
    exact congrArg some same

theorem own_frame (outside : Outside s handler)
    (refused : ∀ token, ¬ Accepts authenticator call token)
    (stepped : s.step authenticator session (.frame handler call) = some s') :
    Outside s' handler ∧ unheard handler s' = unheard handler s ∧
      (s'.handed = s.handed ∨ ∃ told : Call, told.command = .error ∧
        s'.handed = s.handed ++ [(.socket handler, told)]) := by
  rcases step_cases stepped with ⟨_, _, other, _⟩ | ⟨m, call, same, _, _, received⟩ |
    ⟨_, _, _, _, other, _⟩ | ⟨_, _, other, _⟩
  · cases other
  · cases same
    obtain ⟨token, accepted, _⟩ | ⟨told, ⟨error, _⟩, rfl⟩ | rfl | ⟨authenticated, _⟩ :=
      receiveFrame_cases received
    · exact absurd accepted (refused token)
    · refine ⟨outside_of_eq outside rfl outside.noTransaction rfl outside.notBusy, ?_,
        .inr ⟨told, error, rfl⟩⟩
      simp [unheard, hand, toOthers_append, toOthers_own]
    · exact ⟨outside, rfl, .inl rfl⟩
    · rw [outside.unknown] at authenticated
      cases authenticated
  · cases other
  · cases other

theorem outside_start :
    Outside (start : Server τ) handler := ⟨rfl, rfl, fun _ => List.not_mem_nil, by simp [start]⟩

/-- A network client whose CONNECTs are all refused is told nothing but errors; and the run without
    its frames goes the same way for everyone else, in transactions, channels, calls performed and
    everything handed out. -/
theorem refused_client_is_outside {trace : List Server.Action}
    (refused : Refused authenticator handler trace)
    (reached : run (step authenticator session) start trace = some s) :
    run (step authenticator session) start (without handler trace) = some (unheard handler s) ∧
      ∀ call, (.socket handler, call) ∈ s.handed → call.command = .error := by
  have holds : Outside s handler ∧ run (step authenticator session) start (without handler trace) =
    some (unheard handler s) ∧
      ∀ call, (.socket handler, call) ∈ s.handed → call.command = .error := by
    -- the two runs side by side: the shorter one skips the frames of the handler
    refine run_history (fun history s => Outside s handler ∧
      run (step authenticator session) start (without handler history) = some (unheard handler s) ∧
        ∀ call, (.socket handler, call) ∈ s.handed → call.command = .error)
      ⟨outside_start, rfl, by simp [start]⟩ ?_ reached
    intro history action s s' shorter _ holds stepped
    obtain ⟨outside, runs, errors⟩ := holds
    have inTrace : action ∈ trace := shorter.subset (List.mem_append_right _ List.mem_cons_self)
    cases own : isFrameOf handler action with
    | true =>
      obtain ⟨call, rfl⟩ : ∃ call, action = .frame handler call := by
        cases action with
        | frame m call => exact ⟨call, by simpa [isFrameOf] using own⟩
        | _ => cases own
      have dropped :
          without handler (history ++ [.frame handler call]) = without handler history := by
        simp [without, isFrameOf]
      obtain ⟨outside', same, handed⟩ :=
        own_frame outside (fun token => refused call token inTrace) stepped
      rw [dropped, same]
      refine ⟨outside', runs, fun told member => ?_⟩
      obtain unchanged | ⟨answer, error, longer⟩ := handed
      · exact errors told (unchanged ▸ member)
      · rw [longer] at member
        obtain earlier | now := List.mem_append.mp member
        · exact errors told earlier
        · cases List.mem_singleton.mp now
          exact error
    | false =>
      have kept : without handler (history ++ [action]) = without handler history ++ [action] := by
        simp [without, own]
      obtain ⟨aside, same⟩ := apart_step outside own stepped
      obtain ⟨more, longer, forOthers⟩ := aside.handed
      rw [kept]
      refine ⟨aside.outside, run_snoc_eq_some.mpr ⟨_, runs, same⟩, fun told member => ?_⟩
      rw [longer] at member
      obtain earlier | now := List.mem_append.mp member
      · exact errors told earlier
      · exact absurd rfl (forOthers _ now)
  exact holds.2

def RefuseAllAuthenticator : Authenticator String where
  connect _ _ := .error (some "unknown login")
  authorizeSend _ _ := true
  authorizeSubscribe _ _ := true

/-- A stranger tries to subscribe; a client in the VM sends. -/
def strangeTrace : List Server.Action :=
  [.frame 0 ⟨.connect, some Dict.empty, none⟩, .frame 0 ⟨.subscribe, Broker.onTracks, none⟩,
    .call 1 Broker.sampleSend]

def strangeServer : Server String :=
  (run (step RefuseAllAuthenticator fun _ => "") start strangeTrace).get rfl

/-- The stranger is told two errors. -/
theorem stranger_is_outside :
    run (step RefuseAllAuthenticator fun _ => "") start [.call 1 Broker.sampleSend] =
      some (unheard 0 strangeServer) ∧
      ∀ call ∈ [(⟨.error, none, some "Login failed: unknown login"⟩ : Call),
        ⟨.error, none, some "Not CONNECTed, or not authorized"⟩],
        call.command = .error := by
  have refused : Refused RefuseAllAuthenticator 0 strangeTrace := by
    rintro call token _ ⟨_, headers, _, accepted⟩
    cases accepted
  obtain ⟨without, told⟩ := refused_client_is_outside refused (Option.some_get rfl).symm
  refine ⟨without, fun call member => told call ?_⟩
  have handed :
      strangeServer.handed = [(.socket 0, ⟨.error, none, some "Login failed: unknown login"⟩),
      (.socket 0, ⟨.error, none, some "Not CONNECTed, or not authorized"⟩)] := rfl
  show (.socket 0, call) ∈ strangeServer.handed
  rw [handed]
  simpa using member

end Runs

end TrainWatch.Verified.Admission
