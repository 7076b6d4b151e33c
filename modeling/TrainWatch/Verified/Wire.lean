import TrainWatch.Stomp.Receiver

/-! # Frames over the wire

A transmitted frame is read back exactly if it is well formed, however the bytes are cut
and whenever the receiver runs.  A frame with an unknown command costs one report; a
header line without a colon ends the thread.
-/

namespace TrainWatch.Verified.Wire

open TrainWatch.Java TrainWatch.Library TrainWatch.Stomp TrainWatch.Stomp.Receiver

/-- One side transmits, the bytes arrive in pieces, the other side's thread makes a round. -/
inductive Action where
  | transmit (call : Call)
  | arrive (count : Nat)
  | round

def Action.onWire : Action → ConnectionAction UInt8
  | .transmit call => .send (Transmitter.transmit call)
  | .arrive count => .arrive count
  | .round => .read

def step (connection : Connection Receiver UInt8 Call) (action : Action) :
    Option (Connection Receiver UInt8 Call) :=
  Connection.step reader connection action.onWire

def connected : Connection Receiver UInt8 Call := Connection.start idle

def transmitted (trace : List Action) : List Call :=
  trace.filterMap fun
    | .transmit call => some call
    | .arrive _ => none
    | .round => none

/-! ## One frame -/

section OneFrame

variable {call : Call}

theorem wellFormed_received {charset : Char → Prop} :
    WellFormed charset call.received ↔ WellFormed charset call := by
  obtain ⟨command, headers, body⟩ := call
  constructor
  · intro wellFormed
    refine ⟨?_, ?_⟩
    · rintro _ rfl
      exact wellFormed.headers _ rfl
    · rintro _ rfl
      exact wellFormed.body _ rfl
  · intro wellFormed
    refine ⟨?_, ?_⟩
    · intro received same item member
      cases same
      cases headers with
      | none => cases member
      | some headers => exact wellFormed.headers headers rfl item member
    · intro received same c member
      cases same
      cases body with
      | none => cases member
      | some body => exact wellFormed.body body rfl c member

theorem decode_transmit (call : Call) : (Transmitter.transmit call).map decodeAscii =
    call.command.toString.toList ++ '\n' :: (call.headerLines.flatMap (· ++ ['\n']) ++
      '\n' :: ((call.body.getD "").toList.map asAscii ++ ['\x00'])) := by
  have word : call.command.toString.toList.map asAscii = call.command.toString.toList :=
    map_asAscii fun c member => ((Command.toString_letters call.command).2 c member).2
  have lines :
      ((call.headers.map fun headers => headers.items.flatMap Transmitter.headerLine).getD []).map
        asAscii = call.headerLines.flatMap (· ++ ['\n']) := by
    cases headers : call.headers with
    | none => simp [Call.headerLines, headers, Dict.empty]
    | some headers' =>
      simp only [Call.headerLines, headers, Option.map_some, Option.getD_some, List.map_flatMap,
        List.flatMap_map]
      refine List.flatMap_congr fun item _ => ?_
      rw [Transmitter.headerLine, List.map_append]
      rfl
  have body :
      ((call.body.map String.toList).getD []).map asAscii =
      (call.body.getD "").toList.map asAscii := by
    cases call.body <;> rfl
  -- writing a character and reading the byte makes it ASCII
  have whole :
      (Transmitter.transmit call).map decodeAscii = (Transmitter.message call).map asAscii :=
    List.map_map
  rw [whole, Transmitter.message, List.map_append, List.map_cons, List.map_append, List.map_cons,
    List.map_append, word,
    lines, body]
  rfl

theorem headerLine_of_oneFrame (oneFrame : OneFrame call) :
    ∀ line ∈ call.headerLines, BufferedReader.HeaderLine line := by
  intro line member
  obtain ⟨item, inHeaders, rfl⟩ := List.mem_map.mp member
  refine ⟨List.mem_map.mpr ⟨':', by simp [Transmitter.headerText], rfl⟩, fun c written => ?_⟩
  obtain ⟨letter, inText, rfl⟩ := List.mem_map.mp written
  obtain same | replaced := asAscii_cases letter
  · rw [same]
    cases headers : call.headers with
    | none =>
      rw [headers] at inHeaders
      cases inHeaders
    | some headers' =>
      rw [headers] at inHeaders
      exact oneFrame.headers headers' headers item inHeaders letter inText
  · rw [replaced]
    rfl

/-- One round takes a frame, and the receiver is where it was. -/
theorem reads_oneFrame (oneFrame : OneFrame call) :
    Reader.Reads reader idle Transmitter.transmit Call.reread call := by
  obtain ⟨nonempty, letters⟩ := Command.toString_letters call.command
  have bytes : idle.feed (Transmitter.transmit call) =
      ⟨⟨(Transmitter.transmit call).map decodeAscii, false, false⟩, false⟩ := rfl
  refine (congrArg Receiver.next (bytes.trans (by rw [decode_transmit]))).trans
    (next_eq_some.mpr ⟨rfl, ?_, ?_⟩)
  · simp [BufferedReader.pending_of_not_skip]
  · have line := BufferedReader.readLine_written (fun c member => (letters c member).1)
      (call.headerLines.flatMap (· ++ ['\n']) ++ '\n' :: ((call.body.getD "").toList.map asAscii ++
        ['\x00']))
    have lines := BufferedReader.readHeaders_written (headerLine_of_oneFrame oneFrame)
      ((call.body.getD "").toList.map asAscii ++ ['\x00'])
    -- a character outside ASCII is written as a question mark, which is no NUL
    have absent : '\x00' ∉ (call.body.getD "").toList.map asAscii := by
      intro member
      obtain ⟨c, inBody, isNul⟩ := List.mem_map.mp member
      obtain same | replaced := asAscii_cases c
      · rw [same] at isNul
        subst isNul
        cases body : call.body with
        | none => rw [body] at inBody; cases inBody
        | some text =>
          rw [body] at inBody
          exact oneFrame.body text body inBody
      · rw [replaced] at isNul
        cases isNul
    have toNul :
        BufferedReader.readToNul
          ⟨(call.body.getD "").toList.map asAscii ++ ['\x00'], false, false⟩ =
        some ((call.body.getD "").toList.map asAscii, ⟨[], false, false⟩) :=
      BufferedReader.readToNul_eq_some.mpr ⟨[], BufferedReader.pending_of_not_skip rfl, absent, rfl⟩
    have word :
        Command.valueOf (String.ofList call.command.toString.toList) = .ok call.command := by
      rw [String.ofList_toList, Command.valueOf_toString]
    exact Round.frame line nonempty word lines toNul

theorem oneFrame_of_wellFormed {charset : Char → Prop} (wellFormed : WellFormed charset call) :
    OneFrame call := by
  refine ⟨fun headers same item member => ?_, fun body same member =>
    (wellFormed.body body same _ member).2 rfl⟩
  exact (BufferedReader.headerRead_wellFormed (wellFormed.headers headers same item member)).1.2

theorem reread_of_wellFormed (wellFormed : WellFormed (isAscii ·) call) :
    call.reread = call.received := by
  obtain ⟨headers, body⟩ := wellFormed_received.mpr wellFormed
  have each :
      call.headerLines.map BufferedReader.headerRead = (call.headers.getD Dict.empty).items := by
    rw [Call.headerLines, List.map_map]
    refine (List.map_congr_left (g := id) fun item member => ?_).trans (List.map_id _)
    have isHeader := headers _ rfl item member
    obtain ⟨keyLetters, _, value, isValue, valueLetters, _⟩ := headers _ rfl item member
    refine (BufferedReader.headerRead_asAscii isHeader).trans (Prod.ext ?_ ?_)
    · exact textAsAscii_of_ascii fun c letter => (keyLetters c letter).1
    · rw [isValue, Option.map_some, textAsAscii_of_ascii fun c letter => (valueLetters c letter).1]
      exact isValue.symm
  have text : (call.body.getD "").toList.map asAscii = (call.body.getD "").toList :=
    map_asAscii fun c member => (body _ rfl c member).1
  rw [Call.reread, each, text, String.ofList_toList, Dict.ofPairs_items, Call.received]

theorem destination_reread {charset : Char → Prop} (wellFormed : WellFormed charset call) :
    call.reread.destination = call.destination.map textAsAscii := by
  have lines : call.headerLines.map BufferedReader.headerRead =
      (call.headers.getD Dict.empty).items.map fun item =>
        (textAsAscii item.1, item.2.map textAsAscii) := by
    rw [Call.headerLines, List.map_map]
    refine List.map_congr_left fun item member => ?_
    exact BufferedReader.headerRead_asAscii
      ((wellFormed_received.mpr wellFormed).headers _ rfl item member)
  have found : (Dict.ofPairs ((call.headers.getD Dict.empty).items.map fun item =>
      (textAsAscii item.1, item.2.map textAsAscii))).get "destination" =
        ((call.headers.getD Dict.empty).get "destination").map fun value => value.map textAsAscii :=
    Dict.get_ofPairs_map _ fun item _ => textAsAscii_eq_iff (by simp [isAscii]) (by simp) item.1
  have here : call.destination = ((call.headers.getD Dict.empty).get "destination").join := by
    cases headers : call.headers with
    | none => simp [Call.destination, headers]
    | some headers' => simp [Call.destination, headers, Headers.value]
  rw [here, Call.reread, lines, Call.destination, Option.bind_some, Headers.value, found]
  cases (call.headers.getD Dict.empty).get "destination" with
  | none => rfl
  | some value => cases value <;> rfl

theorem reads_wellFormed (wellFormed : WellFormed (isAscii ·) call) :
    Reader.Reads reader idle Transmitter.transmit Call.received call := by
  have reads := reads_oneFrame (oneFrame_of_wellFormed wellFormed)
  rw [Reader.Reads, reread_of_wellFormed wellFormed] at reads
  exact reads

end OneFrame

/-! ## The whole stream -/

section Streams

variable {calls : List Call} {trace : List Action} {connection : Connection Receiver UInt8 Call}

theorem sent_onWire (trace : List Action) :
    Connection.sent (trace.map Action.onWire) =
      (transmitted trace).flatMap Transmitter.transmit := by
  induction trace with
  | nil => rfl
  | cons action trace inductionHypothesis =>
    cases action with
    | transmit call => simpa [transmitted, Connection.sent, Action.onWire] using inductionHypothesis
    | arrive count => simpa [transmitted, Connection.sent, Action.onWire] using inductionHypothesis
    | round => simpa [transmitted, Connection.sent, Action.onWire] using inductionHypothesis

theorem run_onWire (start : Connection Receiver UInt8 Call) (trace : List Action) :
    run step start trace = run (Connection.step reader) start (trace.map Action.onWire) := by
  rw [run, run, List.foldlM_map]
  rfl

/-- What `receive` is called with, for all bytes of a stream, once the receiver has read what it
    can. -/
def received (bytes : List UInt8) : List Call := reader.handedOver (idle.feed bytes)

theorem received_nil : received [] = [] := Reader.handedOver_of_waiting rfl

theorem received_append (wellFormed : ∀ call ∈ calls, WellFormed (isAscii ·) call)
    (more : List UInt8) :
    received (calls.flatMap Transmitter.transmit ++ more) = calls.map Call.received ++
      received more :=
  Reader.handedOver_frames (fun call member => reads_wellFormed (wellFormed call member)) more

/-- What the receiver makes of bytes is frames over the charset they decode to, and reports. -/
theorem received_frames {charset : Char → Prop} {bytes : List UInt8}
    (letters : ∀ byte ∈ bytes, charset (decodeAscii byte)) :
    ∀ call ∈ received bytes, Frame charset call ∨ Report call := by
  have kept : ∀ (receiver receiver' : Receiver) (calls : List Call),
    (∀ c ∈ receiver.input.input, charset c) →
      reader.next receiver = some (calls, receiver') →
        (∀ c ∈ receiver'.input.input, charset c) ∧ ∀ call ∈ calls, Frame charset call ∨
          Report call :=
    fun _ _ _ holds round => (next_eq_some.mp round).2.2.frames holds
  refine Reader.forall_handedOver kept ?_
  · intro c member
    obtain ⟨byte, inBytes, rfl⟩ := List.mem_map.mp (show c ∈ bytes.map decodeAscii from member)
    exact letters byte inBytes

theorem received_decoded (bytes : List UInt8) :
    ∀ call ∈ received bytes, Frame Decoded call ∨ Report call :=
  received_frames fun byte _ => decode_cases byte

theorem received_ascii (calls : List Call) :
    ∀ call ∈ received (calls.flatMap Transmitter.transmit), Frame
      (isAscii ·) call ∨ Report call := by
  apply received_frames
  intro byte member
  obtain ⟨call, _, written⟩ := List.mem_flatMap.mp member
  obtain ⟨c, _, rfl⟩ := List.mem_map.mp written
  exact isAscii_decode_encode c

/-- In every run what is handed over is the beginning of what the stream gives, and in the end all
    of it. -/
theorem handed_isPrefix (reached : run step connected trace = some connection) :
    connection.handed <+: received ((transmitted trace).flatMap Transmitter.transmit) ∧
      (connection.Quiet reader →
        connection.handed = received ((transmitted trace).flatMap Transmitter.transmit)) := by
  rw [run_onWire] at reached
  have carries := Connection.run_carries reached
  rw [sent_onWire] at carries
  exact ⟨carries.handed_isPrefix, carries.handed_of_quiet⟩

theorem exists_run (calls : List Call) : ∃ trace connection, transmitted trace = calls ∧
    run step connected trace = some connection ∧ connection.Quiet reader := by
  have written :
      run (Connection.step reader) connected ((calls.map Transmitter.transmit).map .send) =
      some { connected with underWay := (calls.map Transmitter.transmit).flatten } :=
        Connection.run_send _ _
  obtain ⟨rounds, final, reached, quiet⟩ :
    ∃ rounds final, run (Connection.step reader) _ _ = some final ∧ final.Quiet reader :=
    Connection.exists_quiet { connected with underWay := (calls.map Transmitter.transmit).flatten }
  refine ⟨calls.map .transmit ++ .arrive (calls.map Transmitter.transmit).flatten.length ::
    List.replicate rounds .round,
    final, ?_, ?_, quiet⟩
  · have sends : (calls.map Action.transmit).filterMap (fun
        | .transmit call => some call
        | .arrive _ => none
        | .round => none) = calls := by
      rw [List.filterMap_map]
      exact List.filterMap_some
    simp [transmitted, sends]
  · rw [run_onWire, List.map_append, List.map_map, run_append, List.map_cons, List.map_replicate]
    rw [List.map_map] at written
    exact (congrArg (Option.bind · _) written).trans reached

/-- The frames transmitted are exactly the frames received, in every interleaving of the two sides,
    if and only if every one of them is well formed. -/
theorem received_iff_wellFormed (calls : List Call) :
    (∀ trace connection, transmitted trace = calls → run step connected trace = some connection →
      connection.handed <+: calls.map Call.received ∧
        (connection.Quiet reader → connection.handed = calls.map Call.received)) ↔
      ∀ call ∈ calls, WellFormed (isAscii ·) call := by
  constructor
  · intro delivered call member
    obtain ⟨trace, connection, same, reached, quiet⟩ := exists_run calls
    have whole := (delivered trace connection same reached).2 quiet
    rw [(handed_isPrefix reached).2 quiet, same] at whole
    -- a report has no headers, so the call is among the frames
    have arrived : call.received ∈ received (calls.flatMap Transmitter.transmit) := by
      rw [whole]
      exact List.mem_map_of_mem member
    obtain frame | report := received_ascii calls _ arrived
    · exact wellFormed_received.mp frame.2.2
    · cases report.2
  · intro wellFormed trace connection same reached
    have whole := received_append wellFormed []
    rw [List.append_nil, received_nil, List.append_nil] at whole
    have handed := handed_isPrefix reached
    rw [same, whole] at handed
    exact handed

/-! ### Frames that are none -/

theorem received_round (wellFormed : ∀ call ∈ calls, WellFormed (isAscii ·) call)
    {bytes : List UInt8} {handed : List Call}
    {receiver : Receiver} (round : Round ⟨bytes.map decodeAscii, false, false⟩ handed receiver)
    (ready : bytes ≠ []) (more : List UInt8) :
    received (calls.flatMap Transmitter.transmit ++ (bytes ++ more)) =
      calls.map Call.received ++ (handed ++ reader.handedOver (receiver.feed more)) := by
  have first : reader.next (idle.feed bytes) = some (handed, receiver) := by
    refine next_eq_some.mpr ⟨rfl, ?_, round⟩
    rw [BufferedReader.pending_of_not_skip rfl]
    simpa [idle, feed, BufferedReader.feed] using ready
  have later :
      reader.next (reader.feed idle (bytes ++ more)) =
      some (handed, reader.feed receiver more) := by
    rw [reader.feed_append]
    exact reader.next_feed first more
  rw [received_append wellFormed]
  exact congrArg _ (Reader.handedOver_of_next later)

/-- A frame with an unknown command is reported, and the frames around it arrive as if it had not
    been sent. -/
theorem received_unknown (wellFormed : ∀ call ∈ calls, WellFormed (isAscii ·) call)
    {word skipped : List Char}
    {garbage : List UInt8}
    (decoded : garbage.map decodeAscii = word ++ '\n' :: (skipped ++ ['\x00']))
    (nonempty : word ≠ []) (oneLine : ∀ c ∈ word, lineEnd c = false) (noNul : '\x00' ∉ skipped)
    (unknown : ∀ command : Command, trim (String.ofList word) ≠ command.toString)
    (more : List UInt8) :
    received (calls.flatMap Transmitter.transmit ++ (garbage ++ more)) = calls.map Call.received ++
      ⟨.error, none, some ("Unrecognised command " ++ trim (String.ofList word) ++ "\n")⟩ ::
        received more := by
  have line := BufferedReader.readLine_written oneLine (skipped ++ ['\x00'])
  have skip :
      BufferedReader.readToNul ⟨skipped ++ ['\x00'], false, false⟩ =
      some (skipped, ⟨[], false, false⟩) :=
    BufferedReader.readToNul_eq_some.mpr ⟨[], BufferedReader.pending_of_not_skip rfl, noNul, rfl⟩
  have refused := Command.valueOf_eq_error.mpr ⟨rfl, unknown⟩
  have round := Round.unknown line nonempty refused skip
  rw [← decoded] at round
  exact received_round wellFormed round (by rintro rfl; simp at decoded) more

def welcome : Call := ⟨.connected, none, none⟩

theorem wellFormed_bare (command : Command) : WellFormed (isAscii ·) ⟨command, none, none⟩ :=
  ⟨fun _ same => (nomatch same), fun _ same => (nomatch same)⟩

theorem wellFormed_welcome : ∀ call ∈ [welcome], WellFormed (isAscii ·) call := by
  intro call member
  cases List.mem_singleton.mp member
  exact wellFormed_bare .connected

/-- A PING behind the CONNECTED frame. -/
theorem ping_is_reported :
    received ([welcome].flatMap Transmitter.transmit ++
      ("PING\n\x00".toList.map encodeAscii ++ [])) =
      [welcome].map Call.received ++ ⟨.error, none, some "Unrecognised command PING\n"⟩ :: received
        [] := by
  have unknown : ∀ command : Command, trim (String.ofList "PING".toList) ≠ command.toString := by
    intro command
    cases command <;> decide
  have decoded : ("PING\n\x00".toList.map encodeAscii).map decodeAscii = "PING".toList ++ '\n' ::
      ([] ++ ['\x00']) := by
    decide
  exact received_unknown wellFormed_welcome decoded (by simp)
    (by simp [lineEnd]) List.not_mem_nil unknown []

/-- A header line without a colon ends the thread: what was read before has arrived, the failure is
    reported, and nothing that follows arrives. -/
theorem received_noColon (wellFormed : ∀ call ∈ calls, WellFormed (isAscii ·) call)
    {command : Command}
    {items : List (String × Option String)} {line : List Char} {garbage : List UInt8}
    (decoded : garbage.map decodeAscii =
      command.toString.toList ++ '\n' :: (items.flatMap Transmitter.headerLine ++ (line ++ ['\n'])))
    (headers : ∀ item ∈ items, HeaderWellFormed (isAscii ·) item) (nonempty : line ≠ [])
    (oneLine : ∀ c ∈ line, lineEnd c = false) (noColon : ':' ∉ line) (more : List UInt8) :
    received (calls.flatMap Transmitter.transmit ++ (garbage ++ more)) =
      calls.map Call.received ++ [⟨.error, none, some "String index out of range: -1"⟩] := by
  obtain ⟨word, letters⟩ := Command.toString_letters command
  have first := BufferedReader.readLine_written (fun c member => (letters c member).1)
    (items.flatMap Transmitter.headerLine ++ (line ++ ['\n']))
  have named : Command.valueOf (String.ofList command.toString.toList) = .ok command := by
    rw [String.ofList_toList, Command.valueOf_toString]
  have cut : BufferedReader.readHeaders ⟨items.flatMap Transmitter.headerLine ++ (line ++ ['\n']),
    false, false⟩ Dict.empty =
      .threw (some "String index out of range: -1") := by
    have lines : items.flatMap Transmitter.headerLine = (items.map Transmitter.headerText).flatMap
        (· ++ ['\n']) := by
      rw [List.flatMap_map]
      rfl
    have each : ∀ line ∈ items.map Transmitter.headerText, BufferedReader.HeaderLine line := by
      intro line member
      obtain ⟨item, inItems, rfl⟩ := List.mem_map.mp member
      exact (BufferedReader.headerRead_wellFormed (headers item inItems)).1
    rw [lines, BufferedReader.readHeaders_lines each]
    exact BufferedReader.readHeaders_noColon (BufferedReader.readLine_written oneLine []) nonempty
      noColon
  have round := Round.threw first word named cut
  rw [← decoded] at round
  rw [received_round wellFormed round (by rintro rfl; simp at decoded) more]
  -- a thread that has exited reads nothing
  rw [Reader.handedOver_of_waiting rfl, List.append_nil]

/-- A header line without a colon, and the frame behind it. -/
theorem broken_header_is_the_end :
    received ([welcome].flatMap Transmitter.transmit ++
        ("MESSAGE\nbroken\n".toList.map encodeAscii ++ Transmitter.transmit welcome)) =
      [welcome].map Call.received ++ [⟨.error, none, some "String index out of range: -1"⟩] := by
  have noItems :
      ∀ item ∈ ([] : List (String × Option String)), HeaderWellFormed (isAscii ·) item := by simp
  have decoded : ("MESSAGE\nbroken\n".toList.map encodeAscii).map decodeAscii =
      Command.message.toString.toList ++ '\n' ::
        (([] : List (String × Option String)).flatMap Transmitter.headerLine ++
        ("broken".toList ++ ['\n'])) := by decide
  exact received_noColon wellFormed_welcome decoded noItems (by simp) (by simp [lineEnd])
    (by simp) _

/-- A call with another frame behind a NUL in its body. -/
def smuggle (call smuggled : Call) (body : String) : Call :=
  { call with
    body := some (body ++ String.ofList ('\x00' :: (Transmitter.message smuggled).dropLast)) }

/-- Bodies are not escaped: one call is transmitted, and two are received. -/
theorem received_smuggled {call smuggled : Call} {body : String}
    (wellFormed : WellFormed (isAscii ·) call)
    (wellFormed' : WellFormed (isAscii ·) smuggled) (hasBody : call.body = some body) :
    received (Transmitter.transmit (smuggle call smuggled body)) =
      [call.received, smuggled.received] := by
  -- the NUL that ends the second frame is the one that `transmit` appends
  have last :
      (Transmitter.message smuggled).dropLast ++ ['\x00'] = Transmitter.message smuggled := by
    obtain ⟨text, whole⟩ : ∃ text, Transmitter.message smuggled = text ++ ['\x00'] :=
      ⟨_ ++ '\n' :: (_ ++ '\n' :: _), by
        simp only [Transmitter.message, List.append_assoc, List.cons_append]
        rfl⟩
    rw [whole, List.dropLast_concat]
  have bytes :
      Transmitter.transmit (smuggle call smuggled body) =
      [call, smuggled].flatMap Transmitter.transmit := by
    have text : Transmitter.message (smuggle call smuggled body) =
        Transmitter.message call ++ ((Transmitter.message smuggled).dropLast ++ ['\x00']) := by
      simp [Transmitter.message, smuggle, hasBody]
    simp only [Transmitter.transmit, text, last, List.map_append, List.flatMap_cons,
      List.flatMap_nil, List.append_nil]
  have each : ∀ frame ∈ [call, smuggled], WellFormed (isAscii ·) frame := by
    simp [wellFormed, wellFormed']
  have both := received_append each []
  rw [bytes]
  rw [List.append_nil, received_nil] at both
  exact both

/-- The body of a SEND brings a DISCONNECT. -/
theorem body_brings_disconnect :
    received (Transmitter.transmit
      (smuggle ⟨.send, none, some "2U12"⟩ ⟨.disconnect, none, none⟩ "2U12")) =
      [⟨.send, some Dict.empty, some "2U12"⟩, ⟨.disconnect, some Dict.empty, some ""⟩] := by
  have wellFormed : WellFormed (isAscii ·) ⟨.send, none, some "2U12"⟩ := by
    refine ⟨fun _ same => (nomatch same), ?_⟩
    rintro _ ⟨⟩
    simp [isAscii]
  exact received_smuggled wellFormed (wellFormed_bare .disconnect) rfl

/-! ### Whatever arrives -/

def after (bytes : List UInt8) : Receiver := reader.settled (idle.feed bytes)

/-- Whatever bytes a peer writes, only well-formed frames and reports are handed over; when it
    closes the connection in the middle of a frame, that frame is not handed over, and there is one
    report at most. -/
theorem received_sound (bytes : List UInt8) :
    (∀ call ∈ received bytes, Frame Decoded call ∨ Report call) ∧
      (reader.handedOver (after bytes).close = [] ∨
        ∃ message, reader.handedOver (after bytes).close = [⟨.error, none, message⟩]) := by
  refine ⟨received_decoded bytes, ?_⟩
  have waits : (after bytes).next = none := reader.next_settled (idle.feed bytes)
  obtain nothing | ⟨message, receiver', last, exited⟩ := close_cases waits
  · exact .inl (Reader.handedOver_of_waiting nothing)
  · right
    refine ⟨message, ?_⟩
    have nothing : reader.handedOver receiver' = [] :=
      Reader.handedOver_of_waiting (next_of_exited exited)
    rw [Reader.handedOver_of_next last, nothing, List.append_nil]

end Streams

end TrainWatch.Verified.Wire
