import TrainWatch.Verified.Delivery

/-! # Methods that wait, and commits that begin

A client in the server's VM is given the receipts that the headers of its calls ask for; a
client across the network is given none, so its methods that wait for one never return.
`commit(Map)` transmits a BEGIN: what comes after it stays in the transaction.
-/

namespace TrainWatch.Verified.Receipts

open TrainWatch.Java TrainWatch.Library TrainWatch.Stomp TrainWatch.Stomp.Server
open TrainWatch.Verified.PlainClients TrainWatch.Verified.Delivery

/-! ## What the server hands out -/

section Handed

variable {τ : Type} {authenticator : Authenticator τ} {session : Nat → String}
variable {s s' : Server τ} {y : Peer} {call : Call} {k : Nat}

def receiptsTo (k : Nat) (handed : List (Peer × Call)) : List (Option String) :=
  (IntraVMClient.handedTo (.intraVM k) handed).filterMap receiptOf

theorem receiptsTo_append (first second : List (Peer × Call)) :
    receiptsTo k (first ++ second) = receiptsTo k first ++ receiptsTo k second := by
  rw [receiptsTo, handedTo_append, List.filterMap_append]
  rfl

def asked (call : Call) : List (Option String) := call.receipt.toList.map some

theorem receiptsTo_queueOrPerform (s : Server τ) (y : Peer) (call : Call) :
    receiptsTo k (s.queueOrPerform authenticator y call).handed = receiptsTo k s.handed := by
  unfold queueOrPerform
  split
  · rfl
  · rw [receiptsTo_append, List.append_right_eq_self, receiptsTo, List.filterMap_eq_nil_iff]
    intro told member
    obtain ⟨handed, inExecute, own⟩ := List.mem_filterMap.mp member
    obtain ⟨_, same⟩ := Option.ite_none_right_eq_some.mp own
    cases same
    have command : handed.2.command = .message ∨ handed.2.command = .error :=
      Broker.command_of_execute inExecute
    obtain message | error := command
    · simp [receiptOf, message]
    · simp [receiptOf, error]

theorem receiptsTo_sendReceipt (s : Server τ) (y : Peer) (call : Call) :
    receiptsTo k (s.sendReceipt authenticator y call).handed =
      receiptsTo k s.handed ++ if y = .intraVM k then asked call else [] := by
  unfold sendReceipt
  split
  · rename_i noReceipt
    simp [asked, noReceipt]
  · rename_i receipt hasReceipt
    split
    · rename_i client
      rw [hand, receiptsTo_append]
      by_cases own : client = k
      · subst own
        simp [receiptsTo, IntraVMClient.handedTo, receiptOf, Call.receiptFor, asked, hasReceipt,
          Headers.value, Dict.get_ofPairs]
      · simp [receiptsTo, IntraVMClient.handedTo, own]
    · rw [receiptsTo_queueOrPerform]
      simp

theorem receiptsTo_receiveOther (s : Server τ) (y : Peer) (call : Call) :
    receiptsTo k (s.receiveOther authenticator y call).handed =
      receiptsTo k s.handed ++ if y = .intraVM k then asked call else [] := by
  rw [receiveOther, receiptsTo_sendReceipt, receiptsTo_queueOrPerform]

theorem receiptsTo_make (makes : s.make authenticator y call = some s')
    (plain : y = .intraVM k → Plain call) :
    receiptsTo k s'.handed = receiptsTo k s.handed ++ if y = .intraVM k then asked call else
      [] := by
  unfold make at makes
  split at makes
  · cases makes
  · cases makes
    unfold receive
    split
    · rename_i commit
      have other : y ≠ .intraVM k := fun own => (plain own).2.1 commit
      rw [if_neg other, List.append_nil]
      split
      · rfl
      · rfl
    · rw [receiptsTo_sendReceipt]
    · rw [receiptsTo_receiveOther]

theorem receiptsTo_others {action : Server.Action} (others : ∀ call, action ≠ .call k call)
    (idle : s.committing.map Prod.fst ≠ some (.intraVM k))
    (stepped : s.step authenticator session action = some s') :
    receiptsTo k s'.handed = receiptsTo k s.handed := by
  -- only what the client itself calls brings it receipts
  have ofMake : ∀ {y : Peer} {call : Call} {s' : Server τ}, y ≠ .intraVM k →
    s.make authenticator y call = some s' →
      receiptsTo k s'.handed = receiptsTo k s.handed := by
    intro y call s' other makes
    rw [receiptsTo_make makes fun own => absurd own other, if_neg other, List.append_nil]
  have toOther : ∀ (handler : Nat) (told : Call), receiptsTo k [(.socket handler, told)] = [] := by
    intro handler told
    simp [receiptsTo, IntraVMClient.handedTo]
  rcases step_cases stepped with ⟨client, call, rfl, makes⟩ | ⟨handler, call, rfl, _, _, received⟩ |
    ⟨y, call, rest, commit, rfl, committing, rfl⟩ | ⟨y, commit, rfl, committing, rfl⟩
  · refine ofMake ?_ makes
    rintro same
    cases same
    exact others call rfl
  · obtain ⟨token, _, rfl⟩ | ⟨told, _, rfl⟩ | rfl | ⟨_, rfl | ⟨receipt, s'', makes, rfl⟩ | makes⟩ :=
      receiveFrame_cases received
    · rw [hand, receiptsTo_append, toOther, List.append_nil]
    · rw [hand, receiptsTo_append, toOther, List.append_nil]
    · rfl
    · rfl
    · have same : receiptsTo k s''.handed = receiptsTo k s.handed := ofMake (by simp) makes
      exact same
    · exact ofMake (by simp) makes
  · have other : y ≠ .intraVM k := by simpa [committing] using idle
    rw [receiptsTo_receiveOther, if_neg other, List.append_nil]
  · have other : y ≠ .intraVM k := by simpa [committing] using idle
    rw [receiptsTo_sendReceipt, if_neg other, List.append_nil]

end Handed

/-! ## Clients in the same VM -/

section IntraVM

variable {τ ℓ : Type} [DecidableEq ℓ] {authenticator : Authenticator τ} {session : Nat → String}
    {k : Nat}
variable {s s' : IntraVMClient τ ℓ}

/-- A use that keeps the receipts that have come. -/
def Keeps : Use ℓ → Prop
  | .clearReceipt _ => False
  | .clearReceipts => False
  | _ => True

theorem receipts_use (s : Session ℓ) {use : Use ℓ} (method : ∀ call, use ≠ .receive call)
    (keeps : Keeps use) :
    (s.use use).client.receipts = s.client.receipts := by
  cases use with
  | receive call => exact absurd rfl (method call)
  | clearReceipt receipt => exact keeps.elim
  | clearReceipts => exact keeps.elim
  | subscribe name listener headers => cases listener <;> rfl
  | subscribeW name listener headers receipt => cases listener <;> rfl
  | unsubscribeListener name listener =>
    simp only [Session.use, Session.unsubscribeListener]
    split
    · rfl
    · split
      · rfl
      · rfl
  | getNextOf name =>
    simp only [Session.use, StompClient.getNextOf]
    split
    · rfl
    · rfl
  | _ => rfl

theorem hasReceipt_map (receipt : String) (receipts : List String) :
    StompClient.hasReceipt receipt (receipts.map some) = some (decide (receipt ∈ receipts)) := by
  induction receipts with
  | nil => rfl
  | cons held receipts inductionHypothesis =>
    rw [List.map_cons, StompClient.hasReceipt, inductionHypothesis]
    by_cases same : held = receipt
    · simp [same]
    · simp [same, Ne.symm same]

omit [DecidableEq ℓ] in
theorem receipts_serve (s : IntraVMClient τ ℓ) {server : Server τ} {more : List (Option String)}
    {frame : Option (Nat × Call)} (grows : Grows authenticator session frame s.server server)
    (handed : receiptsTo k server.handed = receiptsTo k s.server.handed ++ more) :
    (s.serve k server).session.client.receipts = s.session.client.receipts ++ more := by
  obtain ⟨fresh, longer⟩ := handed_grows grows
  have dropped : server.handed.drop s.server.handed.length = fresh := by
    rw [← longer, List.drop_left]
  rw [← longer, receiptsTo_append, List.append_cancel_left_eq] at handed
  rw [IntraVMClient.serve, dropped, (takes_all _ s.session).receipts, ← handed, receiptsTo]

theorem receipts_step (agrees : Agrees authenticator session k s)
    (receipts : s.session.client.receipts = (s.server.madeBy (.intraVM k)).flatMap asked)
    {action : IntraVMClient.Action ℓ} (listens : ∀ use, action = .use use → Listens use ∧ Keeps use)
    (stepped : s.step authenticator session k action = some s') :
    s'.session.client.receipts = (s'.server.madeBy (.intraVM k)).flatMap asked := by
  cases action with
  | use use =>
    obtain ⟨isPlain, keeps⟩ := listens use rfl
    obtain ⟨method, changed⟩ := use_cases isPlain stepped
    have same := receipts_use s.session method keeps
    obtain ⟨_, _, rfl⟩ | ⟨_, rfl⟩ | ⟨call, _, _, _, _, _, rfl⟩ := changed
    · exact same.trans receipts
    · exact same.trans receipts
    · exact same.trans receipts
  | disconnect =>
    simp only [IntraVMClient.step] at stepped
    split at stepped
    · cases stepped
    · cases stepped
      exact receipts
  | call =>
    simp only [IntraVMClient.step] at stepped
    split at stepped
    · cases stepped
    · rename_i call calling
      obtain ⟨server, makes, rfl⟩ := Option.map_eq_some_iff.mp stepped
      have plain : Plain call := by
        apply agrees.plain
        rw [← agrees.made, calling]
        exact List.mem_append_right _ List.mem_cons_self
      -- the call brings the receipts it asks for, in the same step
      have handed := receiptsTo_make makes (k := k) fun _ => plain
      have made := madeBy_own makes
      have ran : s.server.step authenticator session (.call k call) = some server := makes
      rw [if_pos rfl] at handed
      show (s.serve k server).session.client.receipts = (server.madeBy (.intraVM k)).flatMap asked
      rw [receipts_serve s (step_grows ran) handed, made, List.flatMap_append, receipts,
        List.flatMap_singleton]
  | others action =>
    obtain ⟨server, others, ran, rfl⟩ := step_others stepped
    obtain ⟨_, reached⟩ := agrees.reached
    -- no commit of the client goes on, so the others' steps hand it no receipt
    have idle := idle_of_uncommitted reached fun call member => (plain_made agrees call member).2.1
    have handed := receiptsTo_others (k := k) others idle ran
    show (s.serve k server).session.client.receipts = (server.madeBy (.intraVM k)).flatMap asked
    rw [receipts_serve s (step_grows ran) (handed.trans (List.append_nil _).symm), List.append_nil,
      receipts,
      madeBy_others others ran]

/-- The receipts of a client that clears none are those its calls have asked for, each once and in
    order; so a method that waits for a receipt goes on exactly when the server has had a call that
    asks for it. -/
theorem receipts_as_asked {trace : List (IntraVMClient.Action ℓ)}
    (listens : ∀ use, .use use ∈ trace → Listens use ∧ Keeps use)
    (reached : run (IntraVMClient.step authenticator session k) IntraVMClient.start trace =
      some s) :
    s.session.client.receipts = (s.server.madeBy (.intraVM k)).flatMap asked ∧
    ∀ receipt, StompClient.hasReceipt receipt s.session.client.receipts =
      some (decide (receipt ∈ (s.server.madeBy (.intraVM k)).filterMap Call.receipt)) := by
  have holds : Agrees authenticator session k s ∧
      s.session.client.receipts = (s.server.madeBy (.intraVM k)).flatMap asked := by
    refine run_invariant (fun s => Agrees authenticator session k s ∧
      s.session.client.receipts = (s.server.madeBy (.intraVM k)).flatMap asked) ?_ ⟨agrees_start,
        rfl⟩ reached
    intro action member s s' holds stepped
    have own : ∀ use, action = .use use → Listens use ∧ Keeps use := fun use same =>
      listens use (same ▸ member)
    exact ⟨agrees_step holds.1 (fun use same => (own use same).1) stepped,
      receipts_step holds.1 holds.2 own stepped⟩
  have mapped : ∀ calls : List Call,
      calls.flatMap asked = (calls.filterMap Call.receipt).map some := by
    intro calls
    induction calls with
    | nil => rfl
    | cons call calls inductionHypothesis =>
      rw [List.flatMap_cons, inductionHypothesis, asked]
      cases receipt : call.receipt with
      | none => simp [receipt]
      | some _ => simp [receipt]
  refine ⟨holds.2, fun receipt => ?_⟩
  rw [holds.2, mapped, hasReceipt_map]

/-- A client subscribes and asks for a receipt. -/
def waitingTrace : List (IntraVMClient.Action Unit) :=
  [.use (.subscribeW (some "tracks") (some ()) (some Dict.empty) "1"), .call]

def waitingClient : IntraVMClient String Unit :=
  (run (IntraVMClient.step AllowAllAuthenticator (fun _ => "") 0) IntraVMClient.start
    waitingTrace).get rfl

theorem waitingClient_goes_on : waitingClient.session.client.receipts = [some "1"] ∧
    StompClient.hasReceipt "1" waitingClient.session.client.receipts = some true := by
  have listens : ∀ use, .use use ∈ waitingTrace → Listens use ∧ Keeps use := by
    intro use member
    obtain rfl : use = .subscribeW (some "tracks") (some ()) (some Dict.empty) "1" := by
      simpa [waitingTrace] using member
    exact ⟨rfl, trivial⟩
  have reached :
      run (IntraVMClient.step AllowAllAuthenticator (fun _ => "") 0) IntraVMClient.start
      waitingTrace = some waitingClient :=
    (Option.some_get _).symm
  obtain ⟨receipts, goesOn⟩ := receipts_as_asked listens reached
  exact ⟨receipts.trans rfl, (goesOn "1").trans rfl⟩

end IntraVM

/-! ## Clients across the network -/

section Network

variable {τ ℓ : Type} [DecidableEq ℓ] {authenticator : Authenticator τ} {session : Nat → String}
variable {s : Server τ} {trace : List Server.Action} {handler : Nat}

def connectedFrame : Call := ⟨.connected, some (Dict.ofPairs [("session", some "")]), none⟩

end Network

/-! ## Commits that begin -/

section Transactions

variable {τ ℓ : Type} [DecidableEq ℓ] {authenticator : Authenticator τ} {session : Nat → String}
variable {s : Server τ} {trace : List Server.Action} {k : Nat}

/-- The uses that end a transaction. -/
def Ends : Use ℓ → Prop
  | .commit => True
  | .commitW _ _ => True
  | .abort _ => True
  | _ => False

/-- The uses that have to do with transactions. -/
def Transactional : Use ℓ → Prop
  | .begin _ => True
  | .commitWith _ => True
  | use => Ends use

theorem transmitted_use (s : Session ℓ) (use : Use ℓ) :
    ∃ calls, (s.use use).transmitted = s.transmitted ++ calls ∧
    ∀ call ∈ calls, (¬Ends use → call.command ≠ .commit ∧ call.command ≠ .abort) ∧
      (¬Transactional use → Plain call) := by
  -- a method transmits one call, or none
  have one : ∀ {call : Call}, Plain call → ∀ other ∈ [call],
      (¬Ends use → other.command ≠ .commit ∧ other.command ≠ .abort) ∧
        (¬Transactional use → Plain other) := by
    intro call plain other member
    cases List.mem_singleton.mp member
    exact ⟨fun _ => plain.2, fun _ => plain⟩
  have noCall : ∀ call ∈ ([] : List Call),
      (¬Ends use → call.command ≠ .commit ∧ call.command ≠ .abort) ∧
        (¬Transactional use → Plain call) := by
    intro call member
    cases member
  cases use with
  | receive call => exact ⟨[], (takes_receive s call).transmitted.trans (List.append_nil _).symm,
      noCall⟩
  | begin headers => exact ⟨_, rfl, by simp [Transactional]⟩
  | commit => exact ⟨_, rfl, by simp [Transactional, Ends]⟩
  | commitWith headers => exact ⟨_, rfl, by simp [Transactional]⟩
  | commitW headers receipt => exact ⟨_, rfl, by simp [Transactional, Ends]⟩
  | abort headers => exact ⟨_, rfl, by simp [Transactional, Ends]⟩
  | subscribe name listener headers => exact ⟨_, rfl, one ⟨by simp, by simp, by simp⟩⟩
  | subscribeW name listener headers receipt => exact ⟨_, rfl, one ⟨by simp, by simp, by simp⟩⟩
  | unsubscribe name headers => exact ⟨_, rfl, one ⟨by simp, by simp, by simp⟩⟩
  | unsubscribeW name headers receipt => exact ⟨_, rfl, one ⟨by simp, by simp, by simp⟩⟩
  | send dest mesg headers => exact ⟨_, rfl, one ⟨by simp, by simp, by simp⟩⟩
  | sendW dest mesg headers receipt => exact ⟨_, rfl, one ⟨by simp, by simp, by simp⟩⟩
  | unsubscribeListener name listener =>
    obtain ⟨transmitted, _⟩ | ⟨call, transmitted, plain, _⟩ :=
      speaks_unsubscribeListener s name listener
    · exact ⟨[], transmitted.trans (List.append_nil _).symm, noCall⟩
    · exact ⟨_, transmitted, one plain⟩
  | getNextOf name =>
    have same : (s.use (.getNextOf name)).transmitted = s.transmitted := rfl
    exact ⟨[], same.trans (List.append_nil _).symm, noCall⟩
  | _ => exact ⟨[], (List.append_nil _).symm, noCall⟩

theorem transmitted_uses (uses : List (Use ℓ)) (s : Session ℓ) : ∃ calls,
    (uses.foldl Session.use s).transmitted = s.transmitted ++ calls ∧
      ((∀ use ∈ uses, ¬Ends use) → ∀ call ∈ calls, call.command ≠ .commit ∧ call.command ≠ .abort) ∧
      ((∀ use ∈ uses, ¬Transactional use) → ∀ call ∈ calls, Plain call) := by
  induction uses generalizing s with
  | nil => exact ⟨[], (List.append_nil _).symm, by simp, by simp⟩
  | cons use uses inductionHypothesis =>
    obtain ⟨calls, transmitted, said⟩ := transmitted_use s use
    obtain ⟨more, transmitted', open_, plain⟩ := inductionHypothesis (s.use use)
    refine ⟨calls ++ more, ?_, fun noEnd call member => ?_, fun none call member => ?_⟩
    · rw [List.foldl_cons, transmitted', transmitted, List.append_assoc]
    · obtain now | later := List.mem_append.mp member
      · exact (said call now).1 (noEnd use List.mem_cons_self)
      · exact open_ (fun other there => noEnd other (List.mem_cons_of_mem _ there)) call later
    · obtain now | later := List.mem_append.mp member
      · exact (said call now).2 (none use List.mem_cons_self)
      · exact plain (fun other there => none other (List.mem_cons_of_mem _ there)) call later

/-- Of what a client has called after `begin`, the first of its calls about transactions, nothing is
    performed without a `commit()`, a `commitW` or an abort, whatever else it calls, `commit(Map)`
    too. -/
theorem nothing_without_commit (reached : run (step authenticator session) start trace = some s)
    {before after : List (Use ℓ)} {headers : Option Headers}
    (plain : ∀ use ∈ before, ¬Transactional use)
    (noEnd : ∀ use ∈ after, ¬Ends use)
    (made : s.madeBy (.intraVM k) <+:
      (Session.run (before ++ .begin headers :: after)).transmitted) :
    s.performedFor (.intraVM k) <+: (Session.run before).transmitted ++
      [⟨.begin, headers, none⟩] := by
  obtain ⟨first, transmitted, _, firstPlain⟩ := transmitted_uses before Session.start
  obtain ⟨later, transmitted', laterOpen, _⟩ :=
    transmitted_uses after ((Session.run before).use (.begin headers))
  have firstPlain := firstPlain plain
  have laterOpen := laterOpen noEnd
  have whole : (Session.run (before ++ .begin headers :: after)).transmitted =
      first ++ [⟨.begin, headers, none⟩] ++ later := by
    have split : Session.run (before ++ .begin headers :: after) =
        after.foldl Session.use ((Session.run before).use (.begin headers)) := by
      rw [Session.run, List.foldl_append, List.foldl_cons, ← Session.run]
    have unfolded : (Session.run before).transmitted = first := transmitted
    rw [split, transmitted', Session.use, Session.transmit, unfolded]
  have unfolded : (Session.run before).transmitted = first := transmitted
  rw [unfolded]
  rw [whole] at made
  -- no COMMIT among the calls made, so the client's account is that of its calls alone
  have uncommitted : ∀ call ∈ s.madeBy (.intraVM k), call.command ≠ .commit := by
    intro call member
    obtain inFirst | inLater := List.mem_append.mp (made.subset member)
    · obtain inFirst | last := List.mem_append.mp inFirst
      · exact (firstPlain call inFirst).2.1
      · cases List.mem_singleton.mp last
        simp
    · exact (laterOpen call inLater).1
  have account := account_of_uncommitted reached uncommitted
  have performed :
      s.performedFor (.intraVM k) = (Deferral.alone deferral (.intraVM k)
      (s.madeBy (.intraVM k))).performed :=
    congrArg Deferral.Account.performed account
  have afterBegin : Deferral.alone deferral (.intraVM k) (first ++ [⟨.begin, headers, none⟩]) =
      ⟨some [], first ++ [⟨.begin, headers, none⟩]⟩ := by
    rw [Deferral.alone, List.foldl_append, ← Deferral.alone, alone_of_plain firstPlain]
    rfl
  rw [performed]
  -- the server has had a part of the calls up to BEGIN, or all of them and more
  obtain shorter | ⟨rest, longer⟩ :=
    List.prefix_or_prefix_of_prefix made (List.prefix_append _ later)
  · obtain same | shorter := List.prefix_concat_iff.mp shorter
    · have upToBegin : (Deferral.alone deferral (.intraVM k) (s.madeBy (.intraVM k))).performed =
          first ++ [⟨.begin, headers, none⟩] := by rw [same, afterBegin]
      exact upToBegin ▸ List.prefix_refl _
    · rw [alone_of_plain fun call member => firstPlain call (shorter.subset member)]
      exact shorter.trans (List.prefix_append _ _)
  · -- nothing behind BEGIN closes or drops the transaction, so it is all kept back
    have restOpen : ∀ call ∈ rest, deferral.closes call = false ∧ deferral.drops call = false := by
      intro call member
      rw [← longer, List.prefix_append_right_inj] at made
      obtain ⟨notCommit, notAbort⟩ := laterOpen call (made.subset member)
      exact ⟨by simp [deferral, notCommit], by simp [deferral, notAbort]⟩
    have upToBegin : (Deferral.alone deferral (.intraVM k) (s.madeBy (.intraVM k))).performed =
        first ++ [⟨.begin, headers, none⟩] := by
      rw [← longer, Deferral.alone, List.foldl_append, ← Deferral.alone, afterBegin,
        (Deferral.performed_of_open rfl restOpen).1]
    exact upToBegin ▸ List.prefix_refl _

/-- The server has had a BEGIN, a SEND and, from `commit(Map)`, another BEGIN. -/
def openServer : Server String :=
  (run (step AllowAllAuthenticator fun _ => "") start
    [.call 0 ⟨.begin, none, none⟩, .call 0 Broker.sampleSend, .call 0 ⟨.begin, none, none⟩]).get rfl

theorem openServer_keeps_the_send :
    openServer.performedFor (.intraVM 0) <+: [] ++ [⟨.begin, none, none⟩] := by
  have reached : run (step AllowAllAuthenticator fun _ => "") start
      [.call 0 ⟨.begin, none, none⟩, .call 0 Broker.sampleSend,
        .call 0 ⟨.begin, none, none⟩] =
      some openServer :=
    (Option.some_get _).symm
  let before : List (Use Unit) := []
  let after : List (Use Unit) := [.send (some "tracks") (some "2U12") none, .commitWith none]
  have plain : ∀ use ∈ before, ¬Transactional use := by simp [before]
  have noEnd : ∀ use ∈ after, ¬Ends use := by simp [after, Ends]
  exact nothing_without_commit reached plain noEnd (List.prefix_refl _)

end Transactions

end TrainWatch.Verified.Receipts
