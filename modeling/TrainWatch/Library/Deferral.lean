import TrainWatch.Library.Transition
import Mathlib.Logic.Function.Basic

/-! # Calls put off until a commit

Each client's calls are performed at once, or, once it has made an opening call, kept in
its buffer.  A closing call performs what the buffer holds, one call at a time, while the
other clients go on; a dropping call empties it.  An opening call that was kept opens the
next buffer when its turn comes.  A call can bring others of the same client with it, its
*echo*.

What is performed for a client, and in which order, depends on its own calls alone: that
is `performed_eq_alone`.  In which order the calls of different clients are performed is
up to the schedule.
-/

namespace TrainWatch.Library

universe u v

structure Deferral (π : Type u) (α : Type v) where
  opens : α → Bool
  closes : α → Bool
  drops : α → Bool
  echo : π → α → List α
  echo_echo : ∀ (client : π) (call other : α), other ∈ echo client call → echo client other = []

namespace Deferral

variable {π : Type u} {α : Type v} (rules : Deferral π α)

/-! ## One client alone -/

/-- The buffer of a client, if one is open, and what has been performed for it. -/
structure Account (α : Type v) where
  buffer : Option (List α)
  performed : List α
deriving DecidableEq, Repr

/-- A call is kept, or performed at once. -/
def Account.pass (account : Account α) (call : α) : Account α :=
  match account.buffer with
  | some kept => { account with buffer := some (kept ++ [call]) }
  | none => ⟨if rules.opens call then some [] else none, account.performed ++ [call]⟩

/-- The same with the echo of the call behind it. -/
def Account.handle (client : π) (account : Account α) (call : α) : Account α :=
  (call :: rules.echo client call).foldl (Account.pass rules) account

/-- A call of any kind; a closing call without a buffer has no effect at all. -/
def Account.call (client : π) (account : Account α) (call : α) : Account α :=
  if rules.closes call then
    match account.buffer with
    | some kept => (kept ++ rules.echo client call).foldl (Account.handle rules client)
        { account with buffer := none }
    | none => account
  else if rules.drops call then
    (rules.echo client call).foldl (Account.handle rules client) { account with buffer := none }
  else account.handle rules client call

/-- What becomes of the calls of a client that is alone. -/
def alone (client : π) (calls : List α) :
    Account α := calls.foldl (Account.call rules client) ⟨none, []⟩

/-! ## All clients together -/

/-- The buffers, the client that is committing with the calls it has still to handle, and the calls
    performed so far. -/
structure State (π : Type u) (α : Type v) where
  buffers : π → Option (List α)
  busy : Option (π × List α)
  performed : List (π × α)

inductive Action (π : Type u) (α : Type v) where
  | call (client : π) (call : α)
  | replay
  | finish
deriving DecidableEq, Repr

namespace State

def start : State π α := ⟨fun _ => none, none, []⟩

variable [DecidableEq π]

def setBuffer (s : State π α) (client : π) (buffer : Option (List α)) : State π α :=
  { s with buffers := Function.update s.buffers client buffer }

def pass (s : State π α) (client : π) (call : α) : State π α :=
  match s.buffers client with
  | some kept => s.setBuffer client (some (kept ++ [call]))
  | none =>
    { s.setBuffer client (if rules.opens call then some [] else none) with
      performed := s.performed ++ [(client, call)] }

def handle (s : State π α) (client : π) (call : α) : State π α :=
  (call :: rules.echo client call).foldl (fun s call => s.pass rules client call) s

/-- One commit at a time: while a client is busy it makes no other call, and no other client's
    buffer is touched. -/
def step (s : State π α) : Action π α → Option (State π α)
  | .call client call =>
    if s.busy.isSome ∧ (s.busy.map Prod.fst = some client ∨ rules.closes call ∨ rules.drops call ∨
      rules.opens call ∨
        (s.buffers client).isSome) then none
    else if rules.closes call then
      match s.buffers client with
      | some kept =>
          some { s.setBuffer client none with
          busy := some (client, kept ++ rules.echo client call) }
      | none => some s
    else if rules.drops call then
      some ((rules.echo client call).foldl (fun s call => s.handle rules client call)
        (s.setBuffer client none))
    else some (s.handle rules client call)
  | .replay =>
    match s.busy with
    | some (client, call :: rest) =>
        some { s.handle rules client call with busy := some (client, rest) }
    | _ => none
  | .finish =>
    match s.busy with
    | some (_, []) => some { s with busy := none }
    | _ => none

def account (s : State π α) (client : π) : Account α :=
  ⟨s.buffers client, s.performed.filterMap fun entry =>
    if entry.1 = client then some entry.2 else none⟩

def left (s : State π α) (client : π) : List α :=
  match s.busy with
  | some (busy, rest) => if busy = client then rest else []
  | none => []

end State

def callsOf [DecidableEq π] (client : π) (trace : List (Action π α)) : List α :=
  trace.filterMap fun
    | .call caller call => if caller = client then some call else none
    | .replay => none
    | .finish => none

/-! ## What a client sees of the others -/

section Accounts

variable {rules} [DecidableEq π] {s s' : State π α} {client other : π} {call : α}

theorem account_pass (s : State π α) (client other : π) (call : α) :
    (s.pass rules client call).account other =
    if other = client then (s.account other).pass rules call else s.account other := by
  by_cases same : other = client
  · subst same
    cases buffer : s.buffers other with
    | none => simp [State.pass, State.setBuffer, State.account, Account.pass, buffer]
    | some kept => simp [State.pass, State.setBuffer, State.account, Account.pass, buffer]
  · have different : client ≠ other := Ne.symm same
    cases buffer : s.buffers client with
    | none => simp [State.pass, State.setBuffer, State.account, buffer, same, different]
    | some kept => simp [State.pass, State.setBuffer, State.account, buffer, same]

theorem busy_pass (s : State π α) (client : π) (call : α) :
    (s.pass rules client call).busy = s.busy := by
  unfold State.pass
  split
  · rfl
  · rfl

theorem foldl_pass_busy (calls : List α) (s : State π α) (client : π) (busy : Option (π × List α)) :
    calls.foldl (fun s call => s.pass rules client call) { s with busy := busy } =
      { calls.foldl (fun s call => s.pass rules client call) s with busy := busy } := by
  induction calls generalizing s with
  | nil => rfl
  | cons call calls inductionHypothesis =>
    have one :
        State.pass rules { s with busy := busy } client call =
      { s.pass rules client call with busy := busy } := by
      unfold State.pass
      cases s.buffers client with
      | none => rfl
      | some kept => rfl
    rw [List.foldl_cons, List.foldl_cons, one, inductionHypothesis]

theorem handle_busy (s : State π α) (client : π) (call : α) (busy : Option (π × List α)) :
    State.handle rules { s with busy := busy } client call =
      { s.handle rules client call with busy := busy } :=
  foldl_pass_busy _ s client busy

theorem foldl_pass (calls : List α) (s : State π α) (client other : π) :
    ((calls.foldl (fun s call => s.pass rules client call) s).account other =
      if other = client then calls.foldl (Account.pass rules) (s.account other)
        else s.account other) ∧
    (calls.foldl (fun s call => s.pass rules client call) s).busy = s.busy := by
  induction calls generalizing s with
  | nil => simp
  | cons call calls inductionHypothesis =>
    obtain ⟨account, busy⟩ := inductionHypothesis (s.pass rules client call)
    rw [List.foldl_cons, List.foldl_cons, account, busy, account_pass, busy_pass]
    refine ⟨?_, rfl⟩
    split
    · rfl
    · rfl

theorem account_handle (s : State π α) (client other : π) (call : α) :
    (s.handle rules client call).account other =
    if other = client then (s.account other).handle rules client call else s.account other :=
  (foldl_pass _ s client other).1

theorem busy_handle (s : State π α) (client : π) (call : α) :
    (s.handle rules client call).busy = s.busy :=
  (foldl_pass _ s client client).2

omit [DecidableEq π] in
theorem performed_foldl_pass (calls : List α) (account : Account α) :
    account.performed <+: (calls.foldl (Account.pass rules) account).performed := by
  induction calls generalizing account with
  | nil => exact List.prefix_refl _
  | cons call calls inductionHypothesis =>
    refine List.IsPrefix.trans ?_ (inductionHypothesis (account.pass rules call))
    unfold Account.pass
    split
    · exact List.prefix_refl _
    · exact List.prefix_append _ _

omit [DecidableEq π] in
theorem performed_foldl_handle (calls : List α) (account : Account α) :
    account.performed <+: (calls.foldl (Account.handle rules client) account).performed := by
  induction calls generalizing account with
  | nil => exact List.prefix_refl _
  | cons call calls inductionHypothesis =>
    exact (performed_foldl_pass _ account).trans
      (inductionHypothesis (account.handle rules client call))

theorem foldl_handle (calls : List α) (s : State π α) (client other : π) :
    ((calls.foldl (fun s call => s.handle rules client call) s).account other =
      if other = client then calls.foldl (Account.handle rules client) (s.account other)
        else s.account other) ∧
    (calls.foldl (fun s call => s.handle rules client call) s).busy = s.busy := by
  induction calls generalizing s with
  | nil => simp
  | cons call calls inductionHypothesis =>
    obtain ⟨account, busy⟩ := inductionHypothesis (s.handle rules client call)
    rw [List.foldl_cons, List.foldl_cons, account, busy, account_handle, busy_handle]
    refine ⟨?_, rfl⟩
    split
    · rfl
    · rfl

theorem left_of_free (free : s.busy.map Prod.fst ≠ some client) : s.left client = [] := by
  unfold State.left
  split
  · rename_i busy rest same
    rw [same, Option.map_some] at free
    rw [if_neg fun here => free (congrArg some here)]
  · rfl

theorem left_congr (same : s'.busy = s.busy) (client : π) : s'.left client = s.left client := by
  rw [State.left, same, State.left]

/-- What a step does: a call is taken from a client that is not committing, or a commit goes on. -/
theorem step_cases {action : Action π α} (stepped : s.step rules action = some s') :
    (∃ client call, action = .call client call ∧ s.busy.map Prod.fst ≠ some client ∧
      ((rules.closes call = true ∧ ∃ kept, s.buffers client = some kept ∧ s.busy = none ∧
          s' = { s.setBuffer client none with
            busy := some (client, kept ++ rules.echo client call) }) ∨
        rules.closes call = true ∧ s.buffers client = none ∧ s' = s ∨
        rules.closes call = false ∧ rules.drops call = true ∧
          s' = (rules.echo client call).foldl (fun s call => s.handle rules client call)
            (s.setBuffer client none) ∨
        rules.closes call = false ∧ rules.drops call = false ∧ s' = s.handle rules client call)) ∨
    (∃ client call rest, action = .replay ∧ s.busy = some (client, call :: rest) ∧
      s' = { s.handle rules client call with busy := some (client, rest) }) ∨
    ∃ client, action = .finish ∧ s.busy = some (client, []) ∧ s' = { s with busy := none } := by
  cases action with
  | call client call =>
    left
    simp only [State.step] at stepped
    -- a closing call of another client waits while a batch is being replayed
    split at stepped
    · cases stepped
    · rename_i free
      have notBusy : s.busy.map Prod.fst ≠ some client := by
        intro busy
        refine free ⟨?_, .inl busy⟩
        cases here : s.busy with
        | none => rw [here] at busy; cases busy
        | some _ => rfl
      refine ⟨client, call, rfl, notBusy, ?_⟩
      split at stepped
      · rename_i closes
        split at stepped
        · rename_i kept buffer
          have idle : s.busy = none := by
            cases here : s.busy with
            | none => rfl
            | some _ => exact absurd ⟨by simp [here], .inr (.inl closes)⟩ free
          cases stepped
          exact .inl ⟨closes, kept, buffer, idle, rfl⟩
        · rename_i buffer
          cases stepped
          exact .inr (.inl ⟨closes, buffer, rfl⟩)
      · rename_i closes
        have closes := Bool.not_eq_true _ ▸ closes
        split at stepped
        · rename_i drops
          cases stepped
          exact .inr (.inr (.inl ⟨closes, drops, rfl⟩))
        · rename_i drops
          cases stepped
          exact .inr (.inr (.inr ⟨closes, Bool.not_eq_true _ ▸ drops, rfl⟩))
  | replay =>
    right
    left
    simp only [State.step] at stepped
    split at stepped
    · rename_i client call rest busy
      cases stepped
      exact ⟨client, call, rest, rfl, busy, rfl⟩
    · cases stepped
  | finish =>
    right
    right
    simp only [State.step] at stepped
    split at stepped
    · rename_i client busy
      cases stepped
      exact ⟨client, rfl, busy, rfl⟩
    · cases stepped

theorem callsOf_snoc (trace : List (Action π α)) (client caller : π) (call : α) :
    callsOf client (trace ++ [.call caller call]) =
      if caller = client then callsOf client trace ++ [call] else callsOf client trace := by
  by_cases same : caller = client
  · simp [callsOf, same]
  · simp [callsOf, same]

theorem account_setBuffer (s : State π α) (client other : π) (buffer : Option (List α)) :
    (s.setBuffer client buffer).account other =
      if other = client then { s.account other with buffer := buffer } else s.account other := by
  by_cases same : other = client
  · simp [State.setBuffer, State.account, same]
  · simp [State.setBuffer, State.account, same]

theorem free_of_call {caller : π} (stepped : s.step rules (.call caller call) = some s') :
    s.busy.map Prod.fst ≠ some caller := by
  rcases step_cases stepped with ⟨_, _, same, free, _⟩ | ⟨_, _, _, other, _⟩ | ⟨_, other, _⟩
  · cases same
    exact free
  · cases other
  · cases other

/-- After a call its client's part of the state is what the call alone makes of it; the others'
    parts are as before. -/
theorem account_call {caller : π} (stepped : s.step rules (.call caller call) = some s')
    (client : π) :
    (s'.left client).foldl (Account.handle rules client) (s'.account client) =
      if caller = client then (s.account client).call rules client call
      else (s.left client).foldl (Account.handle rules client) (s.account client) := by
  rcases step_cases stepped with ⟨_, _, same, free, kind⟩ | ⟨_, _, _, other, _⟩ | ⟨_, other, _⟩
  · cases same
    obtain ⟨closes, kept, buffer, idle, rfl⟩ | ⟨closes, buffer, rfl⟩ |
      ⟨closes, drops, rfl⟩ | ⟨closes, drops, rfl⟩ := kind
    · -- the client is busy with its buffer now, which is what it has left to do
      have account :
          State.account
            { s.setBuffer caller none with busy := some (caller, kept ++ rules.echo caller call) }
            client = (s.setBuffer caller none).account client := rfl
      rw [account, account_setBuffer]
      by_cases own : caller = client
      · subst own
        rw [if_pos rfl, if_pos rfl, Account.call, if_pos closes]
        simp only [State.account, buffer, State.left, if_true]
      · rw [if_neg own, if_neg (Ne.symm own)]
        simp only [State.left, idle, own, if_false]
    · by_cases own : caller = client
      · subst own
        rw [left_of_free free, if_pos rfl, Account.call, if_pos closes, State.account, buffer]
        rfl
      · rw [if_neg own]
    · obtain ⟨account, busy⟩ :=
        foldl_handle (rules.echo caller call) (s.setBuffer caller none) caller client
      have same : (s.setBuffer caller none).busy = s.busy := rfl
      rw [left_congr (busy.trans same), account, account_setBuffer]
      by_cases own : caller = client
      · subst own
        rw [left_of_free free, if_pos rfl, if_pos rfl, if_pos rfl, Account.call, closes,
          if_neg Bool.false_ne_true, if_pos drops, List.foldl_nil]
      · rw [if_neg own, if_neg (Ne.symm own), if_neg (Ne.symm own)]
    · rw [left_congr (busy_handle s caller call), account_handle]
      by_cases own : caller = client
      · subst own
        rw [left_of_free free, if_pos rfl, if_pos rfl, Account.call, closes, drops,
          if_neg Bool.false_ne_true, if_neg Bool.false_ne_true, List.foldl_nil]
      · rw [if_neg own, if_neg (Ne.symm own)]
  · cases other
  · cases other

/-- The rest of a commit is the same work, whoever does the next part of it. -/
theorem account_replay (stepped : s.step rules .replay = some s') (client : π) :
    (s'.left client).foldl (Account.handle rules client) (s'.account client) =
      (s.left client).foldl (Account.handle rules client) (s.account client) := by
  rcases step_cases stepped with ⟨_, _, other, _⟩ | ⟨busyClient, call, rest, _, busy, rfl⟩ |
    ⟨_, other, _⟩
  · cases other
  · have account :
        State.account { s.handle rules busyClient call with busy := some (busyClient, rest) }
          client = (s.handle rules busyClient call).account client := rfl
    rw [account, account_handle]
    by_cases own : busyClient = client
    · subst own
      simp only [State.left, busy, if_true, List.foldl_cons]
    · have elsewhere : client ≠ busyClient := Ne.symm own
      simp only [State.left, busy, own, elsewhere, if_false]
  · cases other

theorem account_finish (stepped : s.step rules .finish = some s') (client : π) :
    (s'.left client).foldl (Account.handle rules client) (s'.account client) =
      (s.left client).foldl (Account.handle rules client) (s.account client) := by
  rcases step_cases stepped with ⟨_, _, other, _⟩ | ⟨_, _, _, other, _⟩ | ⟨busyClient, _, busy, rfl⟩
  · cases other
  · cases other
  · simp only [State.left, busy, ite_self, List.foldl_nil]
    rfl

/-- In every interleaving, what has been performed for a client, what its buffer holds and what its
    commit has still to do are what they would be if the other clients did not exist. -/
theorem account_eq_alone {trace : List (Action π α)}
    (reached : run (State.step rules) State.start trace = some s)
    (client : π) : (s.left client).foldl (Account.handle rules client) (s.account client) =
      alone rules client (callsOf client trace) := by
  refine run_history (fun history s => (s.left client).foldl (Account.handle rules client)
    (s.account client) =
    alone rules client (callsOf client history)) rfl ?_ reached
  intro history action s s' _ earlier holds stepped
  cases action with
  | call caller call =>
    rw [account_call stepped, callsOf_snoc]
    by_cases own : caller = client
    · subst own
      rw [left_of_free (free_of_call stepped), List.foldl_nil] at holds
      rw [if_pos rfl, if_pos rfl, holds, alone, alone, List.foldl_append, List.foldl_cons,
        List.foldl_nil]
    · rw [if_neg own, if_neg own, holds]
  | replay =>
    have same : callsOf client (history ++ [.replay]) = callsOf client history := by simp [callsOf]
    rw [account_replay stepped, holds, same]
  | finish =>
    have same : callsOf client (history ++ [.finish]) = callsOf client history := by simp [callsOf]
    rw [account_finish stepped, holds, same]

end Accounts

/-! ## Clients without buffers, and with one that stays open -/

section Open

variable {rules} {client : π} {account : Account α} {calls : List α}

theorem alone_of_plain (plain : ∀ call ∈ calls, rules.opens call = false ∧
    rules.closes call = false ∧ rules.drops call = false ∧ rules.echo client call = []) :
    alone rules client calls = ⟨none, calls⟩ := by
  induction calls using List.reverseRecOn with
  | nil => rfl
  | append_singleton calls call inductionHypothesis =>
    have earlier : alone rules client calls = ⟨none, calls⟩ :=
      inductionHypothesis fun other member => plain other (List.mem_append_left _ member)
    obtain ⟨opens, closes, drops, noEcho⟩ := plain call (List.mem_append_right _ List.mem_cons_self)
    rw [alone, List.foldl_append, List.foldl_cons, List.foldl_nil, ← alone, earlier, Account.call,
      closes, drops, if_neg Bool.false_ne_true, if_neg Bool.false_ne_true, Account.handle, noEcho,
      List.foldl_cons, List.foldl_nil, Account.pass, opens]
    rfl

theorem foldl_pass_open {kept : List α} (isOpen : account.buffer = some kept) :
    calls.foldl (Account.pass rules) account = { account with buffer := some (kept ++ calls) } := by
  induction calls generalizing account kept with
  | nil => rw [List.foldl_nil, List.append_nil, ← isOpen]
  | cons call calls inductionHypothesis =>
    rw [List.foldl_cons, inductionHypothesis (show (account.pass rules call).buffer =
      some (kept ++ [call]) by simp [Account.pass, isOpen])]
    simp [Account.pass, isOpen]

/-- Without a closing or a dropping call nothing more is performed once a buffer is open. -/
theorem performed_of_open (isOpen : account.buffer.isSome)
    (neither : ∀ call ∈ calls, rules.closes call = false ∧ rules.drops call = false) :
    (calls.foldl (Account.call rules client) account).performed = account.performed ∧
      (calls.foldl (Account.call rules client) account).buffer.isSome := by
  induction calls generalizing account with
  | nil => exact ⟨rfl, isOpen⟩
  | cons call calls inductionHypothesis =>
    obtain ⟨closes, drops⟩ := neither call List.mem_cons_self
    obtain ⟨kept, buffer⟩ := Option.isSome_iff_exists.mp isOpen
    have kind :
        account.call rules client call =
      { account with buffer := some (kept ++ call :: rules.echo client call) } := by
      rw [Account.call, closes, drops, if_neg Bool.false_ne_true, if_neg Bool.false_ne_true,
        Account.handle,
        foldl_pass_open buffer]
    have stillOpen : (account.call rules client call).buffer.isSome := by rw [kind]; rfl
    obtain ⟨performed, stays⟩ := inductionHypothesis stillOpen fun other member =>
      neither other (List.mem_cons_of_mem call member)
    rw [List.foldl_cons, performed, kind]
    exact ⟨rfl, kind ▸ stays⟩

end Open

/-! ## Where the calls performed come from -/

section Sources

variable {rules} {client : π} {property : α → Prop} {account : Account α} {call : α}
    {calls : List α}

def Account.All (property : α → Prop) (account : Account α) : Prop :=
  ∀ call ∈ account.buffer.getD [] ++ account.performed, property call

theorem all_pass (holds : account.All property) (here : property call) :
    (account.pass rules call).All property := by
  intro other member
  unfold Account.pass at member
  split at member
  · rename_i kept isOpen
    obtain inBuffer | performed := List.mem_append.mp member
    · obtain earlier | now := List.mem_append.mp inBuffer
      · exact holds other (by rw [isOpen]; exact List.mem_append_left _ earlier)
      · exact List.mem_singleton.mp now ▸ here
    · exact holds other (List.mem_append_right _ performed)
  · have noneKept :
      (if rules.opens call then some [] else none : Option (List α)).getD [] = [] := by
      split <;> rfl
    rw [noneKept, List.nil_append] at member
    obtain earlier | now := List.mem_append.mp member
    · exact holds other (List.mem_append_right _ earlier)
    · exact List.mem_singleton.mp now ▸ here

theorem all_handle
    (closed : ∀ call, property call → ∀ other ∈ rules.echo client call, property other)
    (holds : account.All property) (here : property call) :
    (account.handle rules client call).All property := by
  have each : ∀ other ∈ call :: rules.echo client call, property other := by
    intro other member
    obtain rfl | echo := List.mem_cons.mp member
    · exact here
    · exact closed call here other echo
  exact List.foldlRecOn _ _ holds fun before holds other member =>
    all_pass holds (each other member)

theorem all_foldl_handle
    (closed : ∀ call, property call → ∀ other ∈ rules.echo client call, property other)
    (holds : account.All property) (each : ∀ call ∈ calls, property call) :
    (calls.foldl (Account.handle rules client) account).All property :=
  List.foldlRecOn _ _ holds fun _ holds call member => all_handle closed holds (each call member)

theorem all_call (closed : ∀ call, property call → ∀ other ∈ rules.echo client call, property other)
    (holds : account.All property) (here : property call) :
    (account.call rules client call).All property := by
  have dropped : Account.All property { account with buffer := none } := fun other member =>
    holds other (List.mem_append_right _ member)
  unfold Account.call
  split
  · split
    · rename_i kept isOpen
      refine all_foldl_handle closed dropped fun other member => ?_
      obtain earlier | echo := List.mem_append.mp member
      · exact holds other (by rw [isOpen]; exact List.mem_append_left _ earlier)
      · exact closed call here other echo
    · exact holds
  · split
    · exact all_foldl_handle closed dropped (closed call here)
    · exact all_handle closed holds here

/-- A property of a client's calls that passes on to their echoes is one of all that is performed
    for it. -/
theorem all_alone
    (closed : ∀ call, property call → ∀ other ∈ rules.echo client call, property other)
    (each : ∀ call ∈ calls, property call) : (alone rules client calls).All property := by
  have nothing : Account.All property ⟨none, []⟩ := fun _ member => nomatch member
  exact List.foldlRecOn _ _ nothing fun _ holds call member =>
    all_call closed holds (each call member)

end Sources

end Deferral

end TrainWatch.Library
