import TrainWatch.Java.Ascii
import TrainWatch.Library.Dict

/-! # STOMP frames as the client library writes them

A frame is a command, headers and a body; each of the two can be null when a frame is
written.  The order of the items of the headers is the order in which the map is
iterated, and nothing is assumed about it.
-/

namespace TrainWatch.Stomp

open TrainWatch.Java TrainWatch.Library

inductive Command where
  | send
  | subscribe
  | unsubscribe
  | begin
  | commit
  | abort
  | disconnect
  | connect
  | message
  | receipt
  | connected
  | error
deriving DecidableEq, Repr

def Command.toString : Command → String
  | .send => "SEND"
  | .subscribe => "SUBSCRIBE"
  | .unsubscribe => "UNSUBSCRIBE"
  | .begin => "BEGIN"
  | .commit => "COMMIT"
  | .abort => "ABORT"
  | .disconnect => "DISCONNECT"
  | .connect => "CONNECT"
  | .message => "MESSAGE"
  | .receipt => "RECEIPT"
  | .connected => "CONNECTED"
  | .error => "ERROR"

def Command.all : List Command :=
  [.send, .subscribe, .unsubscribe, .begin, .commit, .abort, .connect, .message, .receipt,
    .connected, .disconnect, .error]

/-- The command of a word, blanks around it dropped; of any other word the text of the error thrown.
    -/
def Command.valueOf (v : String) : Except String Command :=
  match Command.all.find? fun command => trim v = command.toString with
  | some command => .ok command
  | none => .error ("Unrecognised command " ++ trim v)

/-- A map from header names to values, which can be null. -/
abbrev Headers := Dict String (Option String)

/-- `headers.get(name)`: null also when there is no such header. -/
def Headers.value (headers : Headers) (name : String) : Option String :=
  (Dict.get headers name).join

/-- What is passed to `transmit`, and to `receive`. -/
structure Call where
  command : Command
  headers : Option Headers
  body : Option String

def Call.destination (call : Call) : Option String := call.headers.bind (·.value "destination")

def Call.receipt (call : Call) : Option String := call.headers.bind (·.value "receipt")

namespace Transmitter

def headerText (item : String × Option String) : List Char :=
  item.1.toList ++ ':' :: (concatOperand item.2).toList

def headerLine (item : String × Option String) : List Char := headerText item ++ ['\n']

def message (call : Call) : List Char :=
  call.command.toString.toList ++ '\n' ::
    (((call.headers.map fun headers => headers.items.flatMap headerLine).getD []) ++ '\n' ::
      ((call.body.map String.toList).getD [] ++ ['\x00']))

def transmit (call : Call) : List UInt8 := (message call).map encodeAscii

end Transmitter

/-! ## Frames that survive the wire -/

def lineEnd (c : Char) : Bool := c = '\n' || c = '\r'

/-- A header that is read back as it was, over a set of characters. -/
structure HeaderWellFormed (charset : Char → Prop) (item : String × Option String) : Prop where
  key_letters : ∀ c ∈ item.1.toList, charset c ∧ c ≠ ':' ∧ lineEnd c = false
  key_trimmed : trim item.1 = item.1
  value : ∃ value, item.2 = some value ∧ (∀ c ∈ value.toList, charset c ∧ lineEnd c = false) ∧
    trim value = value

/-- Names without colons, nothing that a line cannot hold, no blanks at the ends, and no NUL in the
    body. -/
structure WellFormed (charset : Char → Prop) (call : Call) : Prop where
  headers : ∀ headers, call.headers = some headers → ∀ item ∈ headers.items,
    HeaderWellFormed charset item
  body : ∀ body, call.body = some body → ∀ c ∈ body.toList, charset c ∧ c ≠ '\x00'

/-- A frame that is read as one: every header stays on its line, and no NUL ends the body early. -/
structure OneFrame (call : Call) : Prop where
  headers : ∀ headers, call.headers = some headers → ∀ item ∈ headers.items,
    ∀ c ∈ Transmitter.headerText item, lineEnd c = false
  body : ∀ body, call.body = some body → '\x00' ∉ body.toList

/-- The characters a decoded byte can be. -/
def Decoded (c : Char) : Prop := isAscii c ∨ c = '\uFFFD'

/-- The call at the other end: null headers arrive as none, a null body as the empty text. -/
def Call.received (call : Call) : Call :=
  ⟨call.command, some (call.headers.getD Dict.empty), some (call.body.getD "")⟩

/-! ## Commands -/

theorem Command.valueOf_toString (command : Command) :
    Command.valueOf command.toString = .ok command := by
  cases command <;> rfl

theorem Command.toString_letters (command : Command) :
    command.toString.toList ≠ [] ∧ ∀ c ∈ command.toString.toList, lineEnd c = false ∧
      isAscii c = true := by
  cases command <;> exact ⟨by decide, by simp [Command.toString, lineEnd, isAscii]⟩

/-- Exactly the words that are no command are refused; the message has the word in it, trimmed. -/
theorem Command.valueOf_eq_error {word text : String} : Command.valueOf word = .error text ↔
    text = "Unrecognised command " ++ trim word ∧
      ∀ command : Command, trim word ≠ command.toString := by
  have complete : ∀ command : Command, command ∈ Command.all := by
    intro command
    cases command <;> decide
  unfold Command.valueOf
  split
  · rename_i command found
    have same : trim word = command.toString := by simpa using List.find?_some found
    simp only [reduceCtorEq, false_iff, not_and, not_forall, not_not]
    exact fun _ => ⟨command, same⟩
  · rename_i missing
    have other : ∀ command : Command, trim word ≠ command.toString := by
      intro command same
      have differs := List.find?_eq_none.mp missing command (complete command)
      simp [same] at differs
    rw [Except.error.injEq]
    exact ⟨fun same => ⟨same.symm, other⟩, fun same => same.1.symm⟩

end TrainWatch.Stomp
