import TrainWatch.Stomp.Frames
import Mathlib.Data.List.Perm.Basic
import Mathlib.Logic.Function.Basic

/-! # The client library

What a client does with the frames it receives, and what its methods transmit.  A message
goes to the listeners of its channel, or on the stack of unread messages; `getNext` takes
the message on top of the stack, `getNext(name)` the one of the channel nearest to the
bottom.  The methods that end in W wait for a receipt.
-/

namespace TrainWatch.Stomp

open TrainWatch.Java TrainWatch.Library

structure StompClient (ℓ : Type) where
  listeners : Option String → Option (List ℓ)
  errorListeners : List ℓ
  queue : List Call
  receipts : List (Option String)
  connected : Bool
  errors : List (Option String)

namespace StompClient

variable {ℓ : Type}

def new : StompClient ℓ := ⟨fun _ => none, [], [], [], false, []⟩

/-- What becomes of a frame: listeners are told, it is put on the stack, or only the state takes
    note of it. -/
inductive Reaction (ℓ : Type) where
  | told (listeners : List ℓ)
  | queued
  | noted
deriving DecidableEq, Repr

/-- `receive`; without headers a MESSAGE and a RECEIPT throw. -/
def receive (client : StompClient ℓ) (call : Call) : StompClient ℓ × Reaction ℓ :=
  match call.command with
  | .message =>
    match call.headers, client.listeners call.destination with
    | none, _ => (client, .noted)
    | some _, some listeners => (client, .told listeners)
    | some _, none => ({ client with queue := client.queue ++ [call] }, .queued)
  | .connected => ({ client with connected := true }, .noted)
  | .receipt =>
    match call.headers with
    | none => (client, .noted)
    | some h => ({ client with receipts := client.receipts ++ [h.value "receipt-id"] }, .noted)
  | .error =>
    if client.errorListeners.isEmpty then ({ client with errors := client.errors ++ [call.body] },
      .noted)
    else (client, .told client.errorListeners)
  | _ => (client, .noted)

/-- The message of `getNext()`; on an empty stack it throws. -/
def getNext (client : StompClient ℓ) : StompClient ℓ × Option Call :=
  ({ client with queue := client.queue.dropLast }, client.queue.getLast?)

/-- The search of `getNext(name)`; it throws at a message without a destination. -/
def search (name : Option String) : List Call → Option (Option Call × List Call)
  | [] => some (none, [])
  | m :: queue =>
    match m.destination with
    | none => none
    | some destination =>
      if some destination = name then some (some m, queue)
      else (search name queue).map fun result => (result.1, m :: result.2)

def getNextOf (client : StompClient ℓ) (name : Option String) : StompClient ℓ × Option Call :=
  match search name client.queue with
  | some (found, queue) => ({ client with queue := queue }, found)
  | none => (client, none)

/-- `hasReceipt` throws at an identifier that is null. -/
def hasReceipt (receipt : String) : List (Option String) → Option Bool
  | [] => some false
  | none :: _ => none
  | some held :: receipts => if held = receipt then some true else hasReceipt receipt receipts

/-- So does the loop of `clearReceipt`, with what it has removed by then. -/
def clearReceipt (receipt : String) : List (Option String) → List (Option String)
  | [] => []
  | none :: receipts => none :: receipts
  | some held :: receipts =>
    if held = receipt then clearReceipt receipt receipts else some held ::
      clearReceipt receipt receipts

variable [DecidableEq ℓ]

def addListener (client : StompClient ℓ) (name : Option String) (listener : ℓ) : StompClient ℓ :=
  let list := (client.listeners name).getD []
  { client with
    listeners :=
      Function.update client.listeners name
      (some (if listener ∈ list then list else list ++ [listener])) }

def removeListeners (client : StompClient ℓ) (name : Option String) : StompClient ℓ :=
  { client with listeners := Function.update client.listeners name none }

end StompClient

/-! ## What the methods transmit -/

def withDestination (headers : Option Headers) (name : Option String) : Option Headers :=
  some ((headers.getD Dict.empty).set "destination" name)

/-- A receipt is asked for in the caller's own headers; in those made here in place of null it is
    lost. -/
def addReceipt (headers : Option Headers) (receipt : String) : Option Headers :=
  headers.map fun headers => headers.set "receipt" (some receipt)

/-- The methods of the client, and the frames it receives.  The methods with W are given the receipt
    they generate. -/
inductive Use (ℓ : Type) where
  | receive (call : Call)
  | begin (headers : Option Headers)
  | commit
  | commitWith (headers : Option Headers)
  | commitW (headers : Option Headers) (receipt : String)
  | abort (headers : Option Headers)
  | subscribe (name : Option String) (listener : Option ℓ) (headers : Option Headers)
  | subscribeW (name : Option String) (listener : Option ℓ) (headers : Option Headers)
      (receipt : String)
  | unsubscribe (name : Option String) (headers : Option Headers)
  | unsubscribeListener (name : Option String) (listener : ℓ)
  | unsubscribeW (name : Option String) (headers : Option Headers) (receipt : String)
  | send (dest mesg : Option String) (headers : Option Headers)
  | sendW (dest mesg : Option String) (headers : Option Headers) (receipt : String)
  | getNext
  | getNextOf (name : Option String)
  | addErrorListener (listener : ℓ)
  | delErrorListener (listener : ℓ)
  | nextError
  | clearReceipt (receipt : String)
  | clearReceipts

/-- A client with what it has done: the messages and errors its listeners were told of, those it put
    on the stack, those it returned, the calls it transmitted, and the receipts its methods wait
    for. -/
structure Session (ℓ : Type) where
  client : StompClient ℓ
  told : List (List ℓ × Call)
  queued : List Call
  fetched : List Call
  transmitted : List Call
  awaited : List String

namespace Session

variable {ℓ : Type} [DecidableEq ℓ]

def start : Session ℓ := ⟨StompClient.new, [], [], [], [], []⟩

def transmit (s : Session ℓ) (call : Call) :
    Session ℓ := { s with transmitted := s.transmitted ++ [call] }

def await (s : Session ℓ) (receipt : String) :
    Session ℓ := { s with awaited := s.awaited ++ [receipt] }

def receive (s : Session ℓ) (call : Call) : Session ℓ :=
  match s.client.receive call with
  | (client, .told listeners) => { s with client := client, told := s.told ++ [(listeners, call)] }
  | (client, .queued) => { s with client := client, queued := s.queued ++ [call] }
  | (client, .noted) => { s with client := client }

def subscribe (s : Session ℓ) (name : Option String) (listener : Option ℓ)
    (headers : Option Headers) : Session ℓ :=
  let client := match listener with
    | some listener => s.client.addListener name listener
    | none => s.client
  ({ s with client := client } : Session ℓ).transmit ⟨.subscribe,
    withDestination headers name, none⟩

def unsubscribe (s : Session ℓ) (name : Option String) (headers : Option Headers) : Session ℓ :=
  ({ s with client := s.client.removeListeners name } : Session ℓ).transmit ⟨.unsubscribe,
    withDestination headers name, none⟩

/-- The server is told when the last listener goes. -/
def unsubscribeListener (s : Session ℓ) (name : Option String) (listener : ℓ) : Session ℓ :=
  match s.client.listeners name with
  | none => s
  | some list =>
    let s' : Session ℓ :=
      { s with client := { s.client with
        listeners := Function.update s.client.listeners name (some (list.erase listener)) } }
    if list.erase listener = [] then s'.unsubscribe name none else s'

def send (s : Session ℓ) (dest mesg : Option String) (headers : Option Headers) : Session ℓ :=
  s.transmit ⟨.send, withDestination headers dest, mesg⟩

def use (s : Session ℓ) : Use ℓ → Session ℓ
  | .receive call => s.receive call
  | .begin headers => s.transmit ⟨.begin, headers, none⟩
  | .commit => s.transmit ⟨.commit, none, none⟩
  -- `commit(Map)` transmits BEGIN
  | .commitWith headers => s.transmit ⟨.begin, headers, none⟩
  | .commitW headers receipt =>
      (s.transmit ⟨.commit, addReceipt headers receipt, none⟩).await receipt
  | .abort headers => s.transmit ⟨.abort, headers, none⟩
  | .subscribe name listener headers => s.subscribe name listener headers
  | .subscribeW name listener headers receipt =>
      (s.subscribe name listener (addReceipt headers receipt)).await receipt
  | .unsubscribe name headers => s.unsubscribe name headers
  | .unsubscribeListener name listener => s.unsubscribeListener name listener
  -- the headers with the receipt are not transmitted
  | .unsubscribeW name _ receipt => (s.unsubscribe name none).await receipt
  | .send dest mesg headers => s.send dest mesg headers
  | .sendW dest mesg headers receipt =>
      (s.send dest mesg (addReceipt headers receipt)).await receipt
  | .getNext =>
    let result := s.client.getNext
    { s with client := result.1, fetched := s.fetched ++ result.2.toList }
  | .getNextOf name =>
    let result := s.client.getNextOf name
    { s with client := result.1, fetched := s.fetched ++ result.2.toList }
  | .addErrorListener listener =>
    { s with client := { s.client with errorListeners := s.client.errorListeners ++ [listener] } }
  | .delErrorListener listener =>
    { s with client := { s.client with errorListeners := s.client.errorListeners.erase listener } }
  | .nextError => { s with client := { s.client with errors := s.client.errors.tail } }
  | .clearReceipt receipt =>
    { s with
      client := { s.client with receipts := StompClient.clearReceipt receipt s.client.receipts } }
  | .clearReceipts => { s with client := { s.client with receipts := [] } }

def run (uses : List (Use ℓ)) : Session ℓ := uses.foldl Session.use start

end Session

end TrainWatch.Stomp
