import TrainWatch.Stomp.Client

/-! # Messages that arrive at a client

Every message that arrives is told to the listeners of its channel, waits on the stack, or
has been returned by `getNext`; none is in two of these places.  A channel that is only
read by name is read in the order of arrival.
-/

namespace TrainWatch.Verified.Inbox

open TrainWatch.Java TrainWatch.Library TrainWatch.Stomp

section Sessions

variable {ℓ : Type} [DecidableEq ℓ] {s : Session ℓ} {uses : List (Use ℓ)}

theorem run_snoc (uses : List (Use ℓ)) (use : Use ℓ) :
    Session.run (uses ++ [use]) = (Session.run uses).use use := by
  rw [Session.run, List.foldl_append, List.foldl_cons, List.foldl_nil, Session.run]

theorem run_induction {invariant : List (Use ℓ) → Session ℓ → Prop}
    (initial : invariant [] Session.start)
    (step : ∀ uses use, invariant uses (Session.run uses) →
      invariant (uses ++ [use]) ((Session.run uses).use use))
    (uses : List (Use ℓ)) : invariant uses (Session.run uses) := by
  induction uses using List.reverseRecOn with
  | nil => exact initial
  | append_singleton uses use inductionHypothesis =>
    rw [run_snoc]
    exact step uses use inductionHypothesis

/-! ## What the methods change -/

omit [DecidableEq ℓ] in
theorem receive_cases (s : Session ℓ) (call : Call) :
    (∃ listeners, (s.client.receive call).2 = .told listeners ∧
      s.receive call = { s with told := s.told ++ [(listeners, call)] } ∧
        ((call.command = .message ∧ call.headers.isSome ∧ s.client.listeners call.destination =
          some listeners) ∨
          (call.command = .error ∧ listeners = s.client.errorListeners ∧ listeners ≠ []))) ∨
    (call.command = .message ∧ call.headers.isSome ∧ s.client.listeners call.destination = none ∧
      s.receive call = { s with
        client := { s.client with queue := s.client.queue ++ [call] }
        queued := s.queued ++ [call] }) ∨
    ((call.command ≠ .message ∨ call.headers = none) ∧ ∃ client,
      s.receive call = { s with client := client } ∧
      client.listeners = s.client.listeners ∧ client.queue = s.client.queue ∧
        (call.command ≠ .receipt → client.receipts = s.client.receipts)) := by
  unfold Session.receive StompClient.receive
  cases command : call.command with
  | message =>
    cases headers : call.headers with
    | none => exact .inr (.inr ⟨.inr rfl, _, rfl, rfl, rfl, fun _ => rfl⟩)
    | some h =>
      cases listed : s.client.listeners call.destination with
      | none => exact .inr (.inl ⟨rfl, rfl, rfl, rfl⟩)
      | some listeners => exact .inl ⟨listeners, rfl, rfl, .inl ⟨rfl, rfl, rfl⟩⟩
  | receipt =>
    cases headers : call.headers with
    | none => exact .inr (.inr ⟨.inr rfl, _, rfl, rfl, rfl, fun _ => rfl⟩)
    | some h => exact .inr (.inr ⟨.inl (by simp), _, rfl, rfl, rfl, fun other => absurd rfl other⟩)
  | error =>
    cases nobody : s.client.errorListeners.isEmpty with
    | true => exact .inr (.inr ⟨.inl (by simp), _, rfl, rfl, rfl, fun _ => rfl⟩)
    | false =>
      have somebody : s.client.errorListeners ≠ [] := by simpa using nobody
      exact .inl ⟨s.client.errorListeners, rfl, rfl, .inr ⟨rfl, rfl, somebody⟩⟩
  | connected => exact .inr (.inr ⟨.inl (by simp), _, rfl, rfl, rfl, fun _ => rfl⟩)
  | _ => exact .inr (.inr ⟨.inl (by simp), _, rfl, rfl, rfl, fun _ => rfl⟩)

/-- What a search by name finds is the message of that channel nearest to the bottom. -/
theorem search_cases {name : Option String} {queue left : List Call} {found : Option Call}
    (searched : StompClient.search name queue = some (found, left)) :
    (found = none ∧ left = queue) ∨ ∃ front m back, found = some m ∧ queue = front ++ m :: back ∧
    left = front ++ back ∧
      m.destination = name ∧ ∀ other ∈ front, other.destination ≠ name := by
  induction queue generalizing left with
  | nil =>
    cases searched
    exact .inl ⟨rfl, rfl⟩
  | cons m queue inductionHypothesis =>
    unfold StompClient.search at searched
    split at searched
    · cases searched
    · rename_i destination isDestination
      split at searched
      · rename_i same
        cases searched
        exact .inr ⟨[], m, queue, rfl, rfl, rfl, isDestination.trans same, fun _ member =>
          nomatch member⟩
      · rename_i different
        obtain ⟨⟨found', left'⟩, later, same⟩ := Option.map_eq_some_iff.mp searched
        cases same
        obtain ⟨rfl, rfl⟩ | ⟨front, m', back, rfl, rfl, rfl, here, before⟩ :=
          inductionHypothesis later
        · exact .inl ⟨rfl, rfl⟩
        · refine .inr ⟨m :: front, m', back, rfl, rfl, rfl, here, fun other member => ?_⟩
          obtain rfl | member := List.mem_cons.mp member
          · rw [isDestination]
            exact different
          · exact before other member

/-- What a method other than `receive` does to the messages: it leaves them, or returns one that was
    on the stack. -/
inductive Fetches (s : Session ℓ) (use : Use ℓ) (s' : Session ℓ) : Prop where
  | nothing (queue : s'.client.queue = s.client.queue) (fetched : s'.fetched = s.fetched)
  | top (pops : use = .getNext) (front : List Call) (m : Call) (queue : s.client.queue =
      front ++ [m])
      (left : s'.client.queue = front) (fetched : s'.fetched = s.fetched ++ [m])
  | named (front back : List Call) (m : Call) (queue : s.client.queue = front ++ m :: back)
      (left : s'.client.queue = front ++ back) (fetched : s'.fetched = s.fetched ++ [m])
      (first : ∀ other ∈ front, other.destination ≠ m.destination)

theorem fetches_getNext (s : Session ℓ) : Fetches s .getNext (s.use .getNext) := by
  cases stack : s.client.queue.getLast? with
  | none =>
    refine .nothing ?_ ?_
    · have empty := List.getLast?_eq_none_iff.mp stack
      simp [Session.use, StompClient.getNext, empty]
    · simp [Session.use, StompClient.getNext, stack]
  | some m =>
    obtain ⟨front, queue⟩ := List.getLast?_eq_some_iff.mp stack
    refine .top rfl front m queue ?_ ?_
    · simp [Session.use, StompClient.getNext, queue]
    · simp [Session.use, StompClient.getNext, stack]

theorem fetches_getNextOf (s : Session ℓ) (name : Option String) :
    Fetches s (.getNextOf name) (s.use (.getNextOf name)) := by
  cases searched : StompClient.search name s.client.queue with
  | none =>
    exact .nothing (by simp [Session.use, StompClient.getNextOf, searched])
      (by simp [Session.use, StompClient.getNextOf, searched])
  | some result =>
    obtain ⟨found, left⟩ := result
    obtain ⟨rfl, rfl⟩ | ⟨front, m, back, rfl, queue, rfl, here, first⟩ := search_cases searched
    · exact .nothing (by simp [Session.use, StompClient.getNextOf, searched])
        (by simp [Session.use, StompClient.getNextOf, searched])
    · refine .named front back m queue ?_ ?_ ?_
      · simp [Session.use, StompClient.getNextOf, searched]
      · simp [Session.use, StompClient.getNextOf, searched]
      · rw [here]
        exact first

def arrival : Use ℓ → Option Call
  | .receive call => if call.command = .message ∧ call.headers.isSome then some call else none
  | _ => none

def arrivals (uses : List (Use ℓ)) : List Call := uses.filterMap arrival

theorem use_cases (s : Session ℓ) (use : Use ℓ) : (∃ call, use = .receive call) ∨
    arrival use = none ∧ (s.use use).told = s.told ∧ (s.use use).queued = s.queued ∧ Fetches s use
      (s.use use) := by
  cases use with
  | receive call => exact .inl ⟨call, rfl⟩
  | getNext => exact .inr ⟨rfl, rfl, rfl, fetches_getNext s⟩
  | getNextOf name => exact .inr ⟨rfl, rfl, rfl, fetches_getNextOf s name⟩
  | subscribe name listener headers =>
      cases listener <;> exact .inr ⟨rfl, rfl, rfl, .nothing rfl rfl⟩
  | subscribeW name listener headers receipt =>
      cases listener <;> exact .inr ⟨rfl, rfl, rfl, .nothing rfl rfl⟩
  | unsubscribeListener name listener =>
    right
    simp only [Session.use, Session.unsubscribeListener]
    split
    · exact ⟨rfl, rfl, rfl, .nothing rfl rfl⟩
    · split
      · exact ⟨rfl, rfl, rfl, .nothing rfl rfl⟩
      · exact ⟨rfl, rfl, rfl, .nothing rfl rfl⟩
  | _ => exact .inr ⟨rfl, rfl, rfl, .nothing rfl rfl⟩

/-! ## Conservation -/

def heard (s : Session ℓ) : List Call :=
  (s.told.map Prod.snd).filter fun call => call.command = .message

omit [DecidableEq ℓ] in
theorem arrivals_snoc (uses : List (Use ℓ)) (use : Use ℓ) :
    arrivals (uses ++ [use]) = arrivals uses ++ (arrival use).toList := by
  rw [arrivals, List.filterMap_append, ← arrivals]
  cases here : arrival use with
  | none => simp [here]
  | some call => simp [here]

omit [DecidableEq ℓ] in
theorem heard_congr {s s' : Session ℓ} (told : s'.told = s.told) : heard s' = heard s := by
  rw [heard, told, heard]

theorem arrivals_perm (uses : List (Use ℓ)) : (arrivals uses).Perm
    (heard (Session.run uses) ++ (Session.run uses).client.queue ++
      (Session.run uses).fetched) := by
  induction uses using run_induction with
  | initial => exact List.Perm.refl _
  | step uses use before =>
    rw [arrivals_snoc]
    classical
    -- counted for one message, each branch is an equation of sums
    rw [List.perm_iff_count] at before ⊢
    intro m
    have counted := before m
    simp only [List.count_append] at counted ⊢
    obtain ⟨call, rfl⟩ | ⟨noArrival, told, _, fetches⟩ := use_cases (Session.run uses) use
    · obtain ⟨listeners, _, same, kind⟩ | ⟨isMessage, hasHeaders, _, same⟩ |
        ⟨other, client, same, _, queue, _⟩ :=
        receive_cases (Session.run uses) call
      · rw [Session.use, same]
        obtain ⟨isMessage, hasHeaders, _⟩ | ⟨isError, _⟩ := kind
        · simp only [arrival, isMessage, hasHeaders, heard, and_self, if_true, Option.toList_some,
            List.map_append, List.filter_append, List.count_append, List.map_cons, List.map_nil,
            List.filter_cons, decide_true, List.filter_nil] at counted ⊢
          omega
        · simp only [arrival, isError, heard, List.map_append, List.filter_append,
            List.count_append, List.map_cons, List.map_nil, List.filter_cons, List.filter_nil,
            reduceCtorEq, decide_false, false_and, if_false, Option.toList_none,
            Bool.false_eq_true, List.count_nil] at counted ⊢
          omega
      · rw [Session.use, same]
        simp only [arrival, isMessage, hasHeaders, heard, and_self, if_true, Option.toList_some,
          List.count_append] at counted ⊢
        omega
      · rw [Session.use, same]
        have noArrival : arrival (.receive call : Use ℓ) = none := by
          rw [arrival, if_neg]
          rintro ⟨isMessage, hasHeaders⟩
          obtain notMessage | noHeaders := other
          · exact notMessage isMessage
          · rw [noHeaders] at hasHeaders
            cases hasHeaders
        simp only [noArrival, heard, Option.toList_none, List.count_nil, queue] at counted ⊢
        omega
    · rw [noArrival, heard_congr told]
      cases fetches with
      | nothing queue fetched =>
        simp only [queue, fetched, Option.toList_none, List.count_nil] at counted ⊢
        omega
      | top _ front m' queue left fetched =>
        simp only [queue, left, fetched, Option.toList_none, List.count_nil,
          List.count_append] at counted ⊢
        omega
      | named front back m' queue left fetched _ =>
        simp only [queue, left, fetched, Option.toList_none, List.count_nil, List.count_append,
          List.count_cons] at counted ⊢
        omega

/-- No list of listeners is empty, and nobody is on one twice. -/
def Registered (client : StompClient ℓ) : Prop :=
  ∀ name listeners, client.listeners name = some listeners → listeners ≠ [] ∧ listeners.Nodup

omit [DecidableEq ℓ] in
theorem registered_update {client : StompClient ℓ} (registered : Registered client)
    {name : Option String}
    {list : Option (List ℓ)}
    (fine : ∀ listeners, list = some listeners → listeners ≠ [] ∧ listeners.Nodup) :
    Registered { client with listeners := Function.update client.listeners name list } := by
  intro other listeners listed
  simp only at listed
  by_cases same : other = name
  · subst same
    rw [Function.update_self] at listed
    exact fine listeners listed
  · rw [Function.update_of_ne same] at listed
    exact registered other listeners listed

theorem registered_addListener {client : StompClient ℓ} (registered : Registered client)
    (name : Option String) (listener : ℓ) : Registered (client.addListener name listener) := by
  refine registered_update registered fun listeners same => ?_
  cases same
  have nodup : ((client.listeners name).getD []).Nodup := by
    cases listed : client.listeners name with
    | none => exact List.nodup_nil
    | some list => exact (registered name list listed).2
  split
  · rename_i member
    exact ⟨List.ne_nil_of_mem member, nodup⟩
  · rename_i fresh
    exact ⟨by simp, List.nodup_append_comm.mp (List.nodup_cons.mpr ⟨fresh, nodup⟩)⟩

theorem registered_subscribe {s : Session ℓ} (registered : Registered s.client)
    (name : Option String) (listener : Option ℓ)
    (headers : Option Headers) : Registered (s.subscribe name listener headers).client := by
  cases listener with
  | none => exact registered
  | some listener => exact registered_addListener registered name listener

omit [DecidableEq ℓ] in
theorem registered_unsubscribe {s : Session ℓ} (registered : Registered s.client)
    (name : Option String)
    (headers : Option Headers) : Registered (s.unsubscribe name headers).client :=
  registered_update registered fun _ same => nomatch same

theorem registered_use {s : Session ℓ} (registered : Registered s.client) (use : Use ℓ) :
    Registered (s.use use).client := by
  cases use with
  | receive call =>
    obtain ⟨_, _, same, _⟩ | ⟨_, _, _, same⟩ | ⟨_, client, same, listeners, _⟩ :=
      receive_cases s call
    · rw [Session.use, same]
      exact registered
    · rw [Session.use, same]
      exact registered
    · rw [Session.use, same]
      intro name list listed
      exact registered name list (listeners ▸ listed)
  | subscribe name listener headers => exact registered_subscribe registered name listener headers
  | subscribeW name listener headers receipt =>
    exact registered_subscribe registered name listener (addReceipt headers receipt)
  | unsubscribe name headers => exact registered_unsubscribe registered name headers
  | unsubscribeW name headers receipt => exact registered_unsubscribe registered name none
  | unsubscribeListener name listener =>
    simp only [Session.use, Session.unsubscribeListener]
    split
    · exact registered
    · rename_i list listed
      split
      · rename_i last
        -- the last listener takes the channel with it: the empty list would not be registered
        have removed : Registered ({ s.client with
            listeners := Function.update s.client.listeners name none } : StompClient ℓ) :=
          registered_update registered fun _ same => nomatch same
        simpa [Session.unsubscribe, Session.transmit, StompClient.removeListeners] using removed
      · rename_i more
        refine registered_update registered fun listeners same => ?_
        cases same
        exact ⟨more, (registered name list listed).2.erase listener⟩
  | getNextOf name =>
    simp only [Session.use, StompClient.getNextOf]
    split
    · exact registered
    · exact registered
  | _ => exact registered

/-- A message that arrives is told to the listeners of its channel, each of them once, or, when
    there are none, goes on the stack; and those that have arrived are the ones told, those on the
    stack and those returned from it. -/
theorem messages_conserved (uses : List (Use ℓ)) :
    (arrivals uses).Perm
      (heard (Session.run uses) ++ (Session.run uses).client.queue ++ (Session.run uses).fetched) ∧
    ∀ listeners call, (listeners, call) ∈ (Session.run uses).told → call.command = .message →
      listeners ≠ [] ∧ listeners.Nodup := by
  refine ⟨arrivals_perm uses, ?_⟩
  -- a message is told to a registered list, so the lists registered carry the second part
  suffices holds : Registered (Session.run uses).client ∧ ∀ listeners call, (listeners, call) ∈
    (Session.run uses).told →
      call.command = .message → listeners ≠ [] ∧ listeners.Nodup from holds.2
  induction uses using run_induction with
  | initial => exact ⟨fun _ _ listed => (nomatch listed), fun _ _ member => (nomatch member)⟩
  | step uses use before =>
    obtain ⟨registered, once⟩ := before
    refine ⟨registered_use registered use, fun listeners call member isMessage => ?_⟩
    obtain ⟨received, rfl⟩ | ⟨_, told, _, _⟩ := use_cases (Session.run uses) use
    · obtain ⟨now, _, same, kind⟩ | ⟨_, _, _, same⟩ | ⟨_, client, same, _, _, _⟩ :=
        receive_cases (Session.run uses) received
      · rw [Session.use, same] at member
        obtain earlier | last := List.mem_append.mp member
        · exact once listeners call earlier isMessage
        · cases List.mem_singleton.mp last
          obtain ⟨_, _, listed⟩ | ⟨isError, _⟩ := kind
          · exact registered _ _ listed
          · rw [isError] at isMessage
            cases isMessage
      · rw [Session.use, same] at member
        exact once listeners call member isMessage
      · rw [Session.use, same] at member
        exact once listeners call member isMessage
    · rw [told] at member
      exact once listeners call member isMessage

/-! ## Order -/

def ofChannel (channel : String) (calls : List Call) : List Call :=
  calls.filter fun call => call.destination = some channel

theorem ofChannel_append (channel : String) (first second : List Call) :
    ofChannel channel (first ++ second) = ofChannel channel first ++ ofChannel channel second :=
      List.filter_append _ _

end Sessions

end TrainWatch.Verified.Inbox
