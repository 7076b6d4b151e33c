import TrainWatch.Library.Framing
import TrainWatch.Stomp.Frames

/-! # The receiver thread

One round of its loop takes a frame off the buffered reader and calls `receive` of the
client or the server with it.  A command that is unknown is skipped up to its NUL and
reported; any other exception ends the thread with a last report.  A round needs all of
its frame: until that has arrived it blocks.  Past the end of the stream a line is null,
and a read gives -1, which is no NUL.
-/

namespace TrainWatch.Stomp

open TrainWatch.Java TrainWatch.Library

/-- The characters that have arrived and not been read; a carriage return was the last line
    end, and a newline right behind it belongs to it; the peer has closed its side. -/
structure BufferedReader where
  input : List Char
  skipLF : Bool
  ended : Bool
deriving DecidableEq, Repr

/-- A read is done, has thrown, or needs characters that are not there. -/
inductive Reading (α : Type) where
  | done (value : α) (reader : BufferedReader)
  | threw (message : Option String)
  | more

namespace BufferedReader

def pending (reader : BufferedReader) : List Char :=
  if reader.skipLF = true ∧ reader.input.head? = some '\n' then reader.input.tail else reader.input

def feed (reader : BufferedReader) (bytes : List UInt8) : BufferedReader :=
  if reader.ended then reader else { reader with input := reader.input ++ bytes.map decodeAscii }

def close (reader : BufferedReader) : BufferedReader := { reader with ended := true }

def inLine (c : Char) : Bool := !lineEnd c

/-- A line without its end, or null at the end of the stream; `none` while the line is not complete.
    -/
def readLine (reader : BufferedReader) : Option (Option (List Char) × BufferedReader) :=
  match reader.pending.dropWhile inLine with
  | terminator :: rest =>
    some (some (reader.pending.takeWhile inLine),
      { reader with input := rest, skipLF := terminator = '\r' })
  | [] =>
    if reader.ended then
      some (if reader.pending = [] then none else some reader.pending,
        { reader with input := [], skipLF := false })
    else none

def notNul (c : Char) : Bool := c ≠ '\x00'

/-- The characters up to a NUL, which is read too. -/
def readToNul (reader : BufferedReader) : Option (List Char × BufferedReader) :=
  match reader.pending.dropWhile notNul with
  | _ :: rest =>
    some (reader.pending.takeWhile notNul, { reader with input := rest, skipLF := false })
  | [] => none

/-! ### What the reads do -/

section Reads

variable {reader reader' : BufferedReader}

theorem length_pending (reader : BufferedReader) : reader.pending.length ≤ reader.input.length := by
  unfold pending
  split
  · rw [List.length_tail]
    omega
  · exact Nat.le_refl _

theorem mem_pending {c : Char} (member : c ∈ reader.pending) : c ∈ reader.input := by
  unfold pending at member
  split at member
  · exact List.mem_of_mem_tail member
  · exact member

theorem pending_of_not_skip (skip : reader.skipLF = false) : reader.pending = reader.input := by
  simp [pending, skip]

theorem feed_of_ended (ended : reader.ended = true) (more : List UInt8) :
    reader.feed more = reader := by
  rw [feed, if_pos ended]

theorem pending_feed (live : reader.ended = false) (some_ : reader.pending ≠ [])
    (more : List UInt8) :
    (reader.feed more).pending = reader.pending ++ more.map decodeAscii := by
  obtain ⟨input, skipLF, ended⟩ := reader
  cases live
  cases input with
  | nil => simp [pending] at some_
  | cons c input =>
    by_cases skipped : skipLF = true ∧ c = '\n'
    · simp [feed, pending, skipped]
    · simp [feed, pending, skipped]

theorem readLine_eq_some (live : reader.ended = false) {line : Option (List Char)} :
    reader.readLine = some (line, reader') ↔ ∃ letters stop rest, reader.pending = letters ++
      stop :: rest ∧
      (∀ c ∈ letters, inLine c = true) ∧ inLine stop = false ∧ line = some letters ∧
        reader' = { reader with input := rest, skipLF := stop = '\r' } := by
  constructor
  · intro read
    unfold readLine at read
    split at read
    · rename_i stop rest found
      obtain ⟨whole, within, stops⟩ := of_dropWhile_eq_cons found
      cases read
      exact ⟨_, stop, rest, whole, within, stops, rfl, rfl⟩
    · rw [if_neg (by simp [live])] at read
      cases read
  · rintro ⟨letters, stop, rest, whole, within, stops, rfl, rfl⟩
    rw [readLine, whole, dropWhile_stop within stops, takeWhile_stop within stops]

theorem readToNul_eq_some {body : List Char} : reader.readToNul = some (body, reader') ↔
    ∃ rest, reader.pending = body ++ '\x00' :: rest ∧ '\x00' ∉ body ∧
      reader' = { reader with input := rest, skipLF := false } := by
  constructor
  · intro read
    unfold readToNul at read
    split at read
    · rename_i stop rest found
      obtain ⟨whole, within, stops⟩ := of_dropWhile_eq_cons found
      have isNul : stop = '\x00' := by simpa [notNul] using stops
      subst isNul
      cases read
      exact ⟨rest, whole, fun member => by simpa [notNul] using within _ member, rfl⟩
    · cases read
  · rintro ⟨rest, whole, absent, rfl⟩
    have within : ∀ c ∈ body, notNul c = true := by
      intro c member
      have different : c ≠ '\x00' := fun same => absent (same ▸ member)
      simpa [notNul] using different
    rw [readToNul, whole, dropWhile_stop within rfl, takeWhile_stop within rfl]

theorem ended_readLine {line : Option (List Char)} (read : reader.readLine = some (line, reader')) :
    reader'.ended = reader.ended := by
  unfold readLine at read
  split at read
  · cases read
    rfl
  · split at read
    · cases read
      rfl
    · cases read

theorem ended_readToNul {body : List Char} (read : reader.readToNul = some (body, reader')) :
    reader'.ended = reader.ended := by
  obtain ⟨rest, _, _, rfl⟩ := readToNul_eq_some.mp read
  rfl

theorem length_readLine {line : List Char} (read : reader.readLine = some (some line, reader')) :
    reader'.input.length < reader.input.length := by
  have pending := length_pending reader
  unfold readLine at read
  split at read
  · rename_i stop rest found
    have whole := congrArg List.length (of_dropWhile_eq_cons found).1
    cases read
    simp only [List.length_append, List.length_cons] at whole
    show rest.length < reader.input.length
    omega
  · split at read
    · split at read
      · simp at read
      · rename_i nonempty
        have positive := List.length_pos_iff.mpr nonempty
        simp only [Option.some.injEq, Prod.mk.injEq] at read
        rw [← read.2]
        show 0 < reader.input.length
        omega
    · cases read

theorem length_readToNul {body : List Char} (read : reader.readToNul = some (body, reader')) :
    reader'.input.length < reader.input.length := by
  obtain ⟨rest, whole, _, rfl⟩ := readToNul_eq_some.mp read
  have pending := length_pending reader
  rw [whole, List.length_append, List.length_cons] at pending
  show rest.length < reader.input.length
  omega

theorem letters_readLine {line : List Char} (read : reader.readLine = some (some line, reader')) :
    (∀ c ∈ line, c ∈ reader.input ∧ lineEnd c = false) ∧ ∀ c ∈ reader'.input, c ∈ reader.input := by
  unfold readLine at read
  split at read
  · rename_i stop rest found
    obtain ⟨whole, within, _⟩ := of_dropWhile_eq_cons found
    cases read
    refine ⟨fun c member => ⟨?_, by simpa [inLine] using within c member⟩, fun c member => ?_⟩
    · exact mem_pending (List.takeWhile_subset _ member)
    · apply mem_pending
      rw [whole]
      exact List.mem_append_right _ (List.mem_cons_of_mem _ member)
  · rename_i found
    split at read
    · split at read
      · simp at read
      · simp only [Option.some.injEq, Prod.mk.injEq] at read
        obtain ⟨rfl, rfl⟩ := read
        refine ⟨fun c member => ⟨mem_pending member, ?_⟩, fun c member => by cases member⟩
        simpa [inLine] using List.dropWhile_eq_nil_iff.mp found c member
    · cases read

/-! ### What arrives later changes no completed read -/

theorem ne_nil_of_whole {before rest : List Char} {stop : Char}
    (whole : reader.pending = before ++ stop :: rest) :
    reader.pending ≠ [] := by
  rw [whole]
  simp

theorem readLine_feed {line : Option (List Char)} (read : reader.readLine = some (line, reader'))
    (more : List UInt8) :
    (reader.feed more).readLine = some (line, reader'.feed more) := by
  cases ended : reader.ended with
  | true => rw [feed_of_ended ended, feed_of_ended ((ended_readLine read).trans ended), read]
  | false =>
    obtain ⟨letters, stop, rest, whole, within, stops, rfl, rfl⟩ := (readLine_eq_some ended).mp read
    have live : (reader.feed more).ended = false := by simp [feed, ended]
    refine (readLine_eq_some live).mpr ⟨letters, stop, rest ++ more.map decodeAscii, ?_, within,
      stops, rfl, ?_⟩
    · rw [pending_feed ended (ne_nil_of_whole whole), whole, List.append_assoc, List.cons_append]
    · simp [feed, ended]

theorem readToNul_feed {body : List Char} (read : reader.readToNul = some (body, reader'))
    (more : List UInt8) :
    (reader.feed more).readToNul = some (body, reader'.feed more) := by
  cases ended : reader.ended with
  | true => rw [feed_of_ended ended, feed_of_ended ((ended_readToNul read).trans ended), read]
  | false =>
    obtain ⟨rest, whole, absent, rfl⟩ := readToNul_eq_some.mp read
    refine readToNul_eq_some.mpr ⟨rest ++ more.map decodeAscii, ?_, absent, ?_⟩
    · rw [pending_feed ended (ne_nil_of_whole whole), whole, List.append_assoc, List.cons_append]
    · simp [feed, ended]

end Reads

/-! ## Headers -/

def notColon (c : Char) : Bool := c ≠ ':'

/-- The header lines up to an empty one, put into the map; a line without a colon is cut at -1. -/
def readHeaders (reader : BufferedReader) (headers : Headers) : Reading Headers :=
  match _read : reader.readLine with
  | none => .more
  | some (none, _) => .threw none
  | some (some [], reader') => .done headers reader'
  | some (some (c :: line), reader') =>
    match (c :: line).dropWhile notColon with
    | [] => .threw (some "String index out of range: -1")
    | _ :: v =>
        readHeaders reader' (headers.set (trim (String.ofList ((c :: line).takeWhile notColon)))
        (some (trim (String.ofList v))))
termination_by reader.input.length
decreasing_by exact length_readLine _read

end BufferedReader

/-- A completed read, and more characters behind what is left. -/
def Reading.feed {α : Type} (more : List UInt8) : Reading α → Reading α
  | .done value reader => .done value (reader.feed more)
  | .threw message => .threw message
  | .more => .more

namespace BufferedReader

section Headers

variable {reader reader' : BufferedReader} {headers headers' : Headers}

theorem readHeaders_colon {key value : List Char}
    (read : reader.readLine = some (some (key ++ ':' :: value), reader'))
    (noColon : ':' ∉ key) : reader.readHeaders headers =
      reader'.readHeaders
        (headers.set (trim (String.ofList key)) (some (trim (String.ofList value)))) := by
  have within : ∀ c ∈ key, notColon c = true := by
    intro c member
    have different : c ≠ ':' := fun same => noColon (same ▸ member)
    simpa [notColon] using different
  have found : (key ++ ':' :: value).dropWhile notColon = ':' :: value := dropWhile_stop within rfl
  have before : (key ++ ':' :: value).takeWhile notColon = key := takeWhile_stop within rfl
  obtain ⟨c, line, letters⟩ : ∃ c line, key ++ ':' :: value = c :: line := by cases key <;> simp
  rw [letters] at read found before
  rw [readHeaders, read]
  simp only [found, before]

theorem readHeaders_more (read : reader.readLine = none) : reader.readHeaders headers = .more := by
  rw [readHeaders, read]

theorem readHeaders_null (read : reader.readLine = some (none, reader')) :
    reader.readHeaders headers = .threw none := by
  rw [readHeaders, read]

theorem readHeaders_empty (read : reader.readLine = some (some [], reader')) :
    reader.readHeaders headers = .done headers reader' := by
  rw [readHeaders, read]

theorem readHeaders_noColon {line : List Char} (read : reader.readLine = some (some line, reader'))
    (nonempty : line ≠ [])
    (noColon : ':' ∉ line) :
    reader.readHeaders headers = .threw (some "String index out of range: -1") := by
  have within : line.dropWhile notColon = [] := by
    rw [List.dropWhile_eq_nil_iff]
    intro c member
    have different : c ≠ ':' := fun same => noColon (same ▸ member)
    simpa [notColon] using different
  cases line with
  | nil => exact absurd rfl nonempty
  | cons c line =>
    rw [readHeaders, read]
    simp only [within]

/-- Induction on the header lines, up to the one that ends the loop. -/
theorem headers_induction {motive : BufferedReader → Headers → Prop}
    (waits : ∀ reader headers, reader.readLine = none → motive reader headers)
    (null : ∀ reader headers reader', reader.readLine = some (none, reader') →
      motive reader headers)
    (empty : ∀ reader headers reader', reader.readLine = some (some [], reader') →
      motive reader headers)
    (noColon : ∀ reader headers line reader', reader.readLine = some (some line, reader') →
      line ≠ [] → ':' ∉ line →
      motive reader headers)
    (colon : ∀ reader headers key value reader', reader.readLine =
      some (some (key ++ ':' :: value), reader') →
      ':' ∉ key →
        motive reader'
        (headers.set (trim (String.ofList key)) (some (trim (String.ofList value)))) →
        motive reader headers)
    (reader : BufferedReader) (headers : Headers) : motive reader headers := by
  cases read : reader.readLine with
  | none => exact waits reader headers read
  | some result =>
    obtain ⟨line, reader'⟩ := result
    cases line with
    | none => exact null reader headers reader' read
    | some line =>
      by_cases split : ':' ∈ line
      · obtain ⟨key, value, whole, absent⟩ := List.eq_append_cons_of_mem split
        -- each header line takes at least its end off the input
        have shorter := length_readLine read
        have later := headers_induction waits null empty noColon colon reader'
          (headers.set (trim (String.ofList key)) (some (trim (String.ofList value))))
        exact colon reader headers key value reader' (whole ▸ read) absent later
      · cases line with
        | nil => exact empty reader headers reader' read
        | cons c line => exact noColon reader headers _ reader' read (List.cons_ne_nil c line) split
termination_by reader.input.length

theorem readHeaders_feed {reading : Reading Headers} (read : reader.readHeaders headers = reading)
    (complete : reading ≠ .more) (more : List UInt8) :
    (reader.feed more).readHeaders headers = reading.feed more := by
  induction reader, headers using headers_induction with
  | waits reader headers line => exact absurd (read.symm.trans (readHeaders_more line)) complete
  | null reader headers rest line =>
      rw [← read, readHeaders_null line, readHeaders_null (readLine_feed line more), Reading.feed]
  | empty reader headers rest line =>
    rw [← read, readHeaders_empty line, readHeaders_empty (readLine_feed line more), Reading.feed]
  | noColon reader headers letters rest line nonempty absent =>
    rw [← read, readHeaders_noColon line nonempty absent,
      readHeaders_noColon (readLine_feed line more) nonempty absent,
      Reading.feed]
  | colon reader headers key value rest line absent inductionHypothesis =>
    rw [readHeaders_colon line absent] at read
    rw [readHeaders_colon (readLine_feed line more) absent, inductionHypothesis read]

theorem readHeaders_shorter (read : reader.readHeaders headers = .done headers' reader') :
    reader'.input.length < reader.input.length ∧ reader'.ended = reader.ended := by
  induction reader, headers using headers_induction with
  | waits reader headers line => rw [readHeaders_more line] at read; cases read
  | null reader headers rest line => rw [readHeaders_null line] at read; cases read
  | noColon reader headers letters rest line nonempty absent =>
    rw [readHeaders_noColon line nonempty absent] at read
    cases read
  | empty reader headers rest line =>
    rw [readHeaders_empty line] at read
    cases read
    exact ⟨length_readLine line, ended_readLine line⟩
  | colon reader headers key value rest line absent inductionHypothesis =>
    rw [readHeaders_colon line absent] at read
    obtain ⟨shorter, same⟩ := inductionHypothesis read
    exact ⟨Nat.lt_trans shorter (length_readLine line), same.trans (ended_readLine line)⟩

theorem readHeaders_wellFormed {charset : Char → Prop} (letters : ∀ c ∈ reader.input, charset c)
    (before : ∀ item ∈ headers.items, HeaderWellFormed charset item)
    (read : reader.readHeaders headers = .done headers' reader') :
    (∀ item ∈ headers'.items, HeaderWellFormed charset item) ∧ ∀ c ∈ reader'.input, charset c := by
  induction reader, headers using headers_induction with
  | waits reader headers line => rw [readHeaders_more line] at read; cases read
  | null reader headers rest line => rw [readHeaders_null line] at read; cases read
  | noColon reader headers letters rest line nonempty absent =>
    rw [readHeaders_noColon line nonempty absent] at read
    cases read
  | empty reader headers rest line =>
    rw [readHeaders_empty line] at read
    cases read
    exact ⟨before, fun c member => letters c ((letters_readLine line).2 c member)⟩
  | colon reader headers key value rest line absent inductionHypothesis =>
    rw [readHeaders_colon line absent] at read
    obtain ⟨inLine, left⟩ := letters_readLine line
    refine inductionHypothesis (fun c member => letters c (left c member)) ?_ read
    intro item member
    obtain rfl | earlier := Dict.mem_items_set member
    · refine ⟨fun c member => ?_, trim_idem _, _, rfl, fun c member => ?_, trim_idem _⟩
      · have inKey : c ∈ key := by simpa using mem_trim member
        obtain ⟨there, noEnd⟩ := inLine c (List.mem_append_left _ inKey)
        exact ⟨letters c there, fun same => absent (same ▸ inKey), noEnd⟩
      · have inValue : c ∈ value := by simpa using mem_trim member
        obtain ⟨there, noEnd⟩ := inLine c (List.mem_append_right _ (List.mem_cons_of_mem _ inValue))
        exact ⟨letters c there, noEnd⟩
    · exact before item earlier

/-! ### The end of the stream -/

theorem pending_close (reader : BufferedReader) : reader.close.pending = reader.pending := rfl

theorem readLine_close {letters : List Char}
    (read : reader.close.readLine = some (some letters, reader')) :
    (∃ rest, reader.readLine = some (some letters, rest) ∧ reader' = rest.close) ∨
      letters ≠ [] ∧ reader' = ⟨[], false, true⟩ := by
  unfold readLine at read
  rw [pending_close] at read
  split at read
  · rename_i stop rest found
    cases read
    left
    refine ⟨{ reader with input := rest, skipLF := stop = '\r' }, ?_, rfl⟩
    rw [readLine, found]
  · rename_i found
    right
    rw [if_pos (show reader.close.ended = true from rfl)] at read
    split at read
    · simp at read
    · rename_i nonempty
      simp only [Option.some.injEq, Prod.mk.injEq] at read
      exact ⟨read.1 ▸ nonempty, read.2.symm⟩

theorem readToNul_close {body : List Char} (read : reader.close.readToNul = some (body, reader')) :
    ∃ rest, reader.readToNul = some (body, rest) := by
  obtain ⟨rest, whole, absent, rfl⟩ := readToNul_eq_some.mp read
  exact ⟨_, readToNul_eq_some.mpr ⟨rest, whole, absent, rfl⟩⟩

theorem readHeaders_nothing (headers : Headers) :
    readHeaders ⟨[], false, true⟩ headers = .threw none := by
  have line : readLine ⟨[], false, true⟩ = some (none, ⟨[], false, true⟩) := rfl
  exact readHeaders_null line

theorem readHeaders_close (read : reader.close.readHeaders headers = .done headers' reader') :
    ∃ rest, reader.readHeaders headers = .done headers' rest ∧ reader' = rest.close := by
  generalize same : reader.close = closed at read
  induction closed, headers using headers_induction generalizing reader with
  | waits closed headers line => rw [readHeaders_more line] at read; cases read
  | null closed headers rest line => rw [readHeaders_null line] at read; cases read
  | noColon closed headers letters rest line nonempty absent =>
    rw [readHeaders_noColon line nonempty absent] at read
    cases read
  | empty closed headers rest line =>
    subst same
    rw [readHeaders_empty line] at read
    cases read
    obtain ⟨rest', line', rfl⟩ | ⟨nonempty, _⟩ := readLine_close line
    · exact ⟨rest', readHeaders_empty line', rfl⟩
    · exact absurd rfl nonempty
  | colon closed headers key value rest line absent inductionHypothesis =>
    subst same
    rw [readHeaders_colon line absent] at read
    obtain ⟨rest', line', rfl⟩ | ⟨_, rfl⟩ := readLine_close line
    · rw [readHeaders_colon line' absent]
      exact inductionHypothesis rfl read
    · rw [readHeaders_nothing] at read
      cases read

theorem readLine_written {letters : List Char} (inOneLine : ∀ c ∈ letters, lineEnd c = false)
    (rest : List Char) :
    readLine ⟨letters ++ '\n' :: rest, false, false⟩ = some (some letters, ⟨rest, false, false⟩) :=
  (readLine_eq_some rfl).mpr ⟨letters, '\n', rest, pending_of_not_skip rfl,
    fun c member => by simp [inLine, inOneLine c member], rfl, rfl, rfl⟩

/-- The header that a line is read as, cut at its first colon. -/
def headerRead (line : List Char) : String × Option String :=
  (trim (String.ofList (line.takeWhile notColon)),
    some (trim (String.ofList ((line.dropWhile notColon).drop 1))))

theorem headerRead_colon {key : List Char} (noColon : ':' ∉ key) (value : List Char) :
    headerRead (key ++ ':' :: value) =
      (trim (String.ofList key), some (trim (String.ofList value))) := by
  have within : ∀ c ∈ key, notColon c = true := by
    intro c member
    have different : c ≠ ':' := fun same => noColon (same ▸ member)
    simpa [notColon] using different
  rw [headerRead, takeWhile_stop within rfl, dropWhile_stop within rfl, List.drop_one,
    List.tail_cons]

/-- A header that stays on its line. -/
def HeaderLine (line : List Char) : Prop := ':' ∈ line ∧ ∀ c ∈ line, lineEnd c = false

/-- Written header lines are put into the map, one after the other. -/
theorem readHeaders_lines {lines : List (List Char)} (written : ∀ line ∈ lines, HeaderLine line)
    (headers : Headers)
    (rest : List Char) : readHeaders ⟨lines.flatMap (· ++ ['\n']) ++ rest, false, false⟩ headers =
      readHeaders ⟨rest, false, false⟩
        ((lines.map headerRead).foldl (fun read item => read.set item.1 item.2) headers) := by
  induction lines generalizing headers with
  | nil => rfl
  | cons line lines inductionHypothesis =>
    have later := inductionHypothesis fun other member =>
      written other (List.mem_cons_of_mem line member)
    obtain ⟨colon, inOneLine⟩ := written line List.mem_cons_self
    obtain ⟨key, value, rfl, noColon⟩ := List.eq_append_cons_of_mem colon
    have read := readLine_written inOneLine (lines.flatMap (· ++ ['\n']) ++ rest)
    have text : ((key ++ ':' :: value) :: lines).flatMap (· ++ ['\n']) ++ rest =
        (key ++ ':' :: value) ++ '\n' :: (lines.flatMap (· ++ ['\n']) ++ rest) := by simp
    rw [text, readHeaders_colon read noColon, later, List.map_cons, List.foldl_cons,
      headerRead_colon noColon]

theorem readHeaders_written {lines : List (List Char)} (written : ∀ line ∈ lines, HeaderLine line)
    (rest : List Char) :
    readHeaders ⟨lines.flatMap (· ++ ['\n']) ++ '\n' :: rest, false, false⟩ Dict.empty =
      .done (Dict.ofPairs (lines.map headerRead)) ⟨rest, false, false⟩ := by
  have line : readLine ⟨[] ++ '\n' :: rest, false, false⟩ = some (some [], ⟨rest, false, false⟩) :=
    readLine_written (by simp) rest
  rw [readHeaders_lines written]
  exact readHeaders_empty line

theorem headerRead_wellFormed {charset : Char → Prop} {item : String × Option String}
    (wellFormed : HeaderWellFormed charset item) :
    HeaderLine (Transmitter.headerText item) ∧ headerRead (Transmitter.headerText item) = item := by
  obtain ⟨keyLetters, keyTrimmed, value, isValue, valueLetters, valueTrimmed⟩ := wellFormed
  have noColon : ':' ∉ item.1.toList := fun member => (keyLetters _ member).2.1 rfl
  rw [Transmitter.headerText, isValue]
  refine ⟨⟨by simp, fun c member => ?_⟩, ?_⟩
  · obtain key | rfl | letter := by simpa [concatOperand] using member
    · exact (keyLetters c key).2.2
    · rfl
    · exact (valueLetters c letter).2
  · rw [headerRead_colon noColon, concatOperand, Option.getD_some, String.ofList_toList,
      String.ofList_toList, keyTrimmed,
      valueTrimmed, ← isValue]

theorem headerRead_asAscii {charset : Char → Prop} {item : String × Option String}
    (wellFormed : HeaderWellFormed charset item) :
    headerRead ((Transmitter.headerText item).map asAscii) =
      (textAsAscii item.1, item.2.map textAsAscii) := by
  obtain ⟨keyLetters, keyTrimmed, value, isValue, _, valueTrimmed⟩ := wellFormed
  have noColon : ':' ∉ item.1.toList.map asAscii := by
    intro member
    obtain ⟨c, letter, same⟩ := List.mem_map.mp member
    obtain kept | replaced := asAscii_cases c
    · exact (keyLetters c letter).2.1 (kept.symm.trans same)
    · rw [replaced] at same
      cases same
  have line : (Transmitter.headerText item).map asAscii = item.1.toList.map asAscii ++ ':' ::
      value.toList.map asAscii := by
    rw [Transmitter.headerText, isValue, List.map_append]
    rfl
  rw [line, headerRead_colon noColon, isValue]
  show (trim (textAsAscii item.1), some (trim (textAsAscii value))) = _
  rw [trim_textAsAscii, trim_textAsAscii, keyTrimmed, valueTrimmed]
  rfl

end Headers

end BufferedReader

def Call.headerLines (call : Call) : List (List Char) :=
  (call.headers.getD Dict.empty).items.map fun item => (Transmitter.headerText item).map asAscii

/-- The call at the other end, whatever its characters are: each header is cut at the first colon of
    its line and trimmed, of two with one name the later stays, and what is not US-ASCII is a
    question mark. -/
def Call.reread (call : Call) : Call :=
  ⟨call.command, some (Dict.ofPairs (call.headerLines.map BufferedReader.headerRead)),
    some (String.ofList ((call.body.getD "").toList.map asAscii))⟩

/-! ## The thread -/

structure Receiver where
  input : BufferedReader
  exited : Bool

namespace Receiver

open BufferedReader

def idle : Receiver := ⟨⟨[], false, false⟩, false⟩

def feed (receiver : Receiver) (bytes : List UInt8) : Receiver :=
  { receiver with input := receiver.input.feed bytes }

/-- The frame whose first line has been read. -/
def readFrame (line : List Char) (input : BufferedReader) : Option (List Call × Receiver) :=
  match Command.valueOf (String.ofList line) with
  | .error message => input.readToNul.map fun result =>
    ([⟨.error, none, some (message ++ "\n")⟩], ⟨result.2, false⟩)
  | .ok command =>
    match input.readHeaders Dict.empty with
    | .more => none
    -- the exception leaves the loop, and with it the thread
    | .threw message => some ([⟨.error, none, message⟩], ⟨input, true⟩)
    | .done headers input' => input'.readToNul.map fun result =>
      ([⟨command, some headers, some (String.ofList result.1)⟩], ⟨result.2, false⟩)

/-- One round of the loop, with the calls of `receive` it makes; `none` when nothing is ready, or
    not enough. -/
def next (receiver : Receiver) : Option (List Call × Receiver) :=
  if receiver.exited ∨ receiver.input.pending = [] then none
  else
    match receiver.input.readLine with
    | none => none
    | some (none, input) => some ([⟨.error, none, none⟩], ⟨input, true⟩)
    | some (some [], input) => some ([], ⟨input, false⟩)
    | some (some (c :: line), input) => readFrame (c :: line) input

/-- What is left to read; nothing once the thread has exited. -/
def size (receiver : Receiver) : Nat :=
  if receiver.exited then 0 else receiver.input.input.length + 1

theorem size_running (input : BufferedReader) : size ⟨input, false⟩ = input.input.length + 1 := rfl

/-! ### What a round does -/

/-- The four ways a round can go. -/
inductive Round (input : BufferedReader) : List Call → Receiver → Prop where
  | blank {rest : BufferedReader} (line : input.readLine = some (some [], rest)) :
      Round input [] ⟨rest, false⟩
  | unknown {letters skipped : List Char} {rest rest' : BufferedReader} {message : String}
      (line : input.readLine = some (some letters, rest)) (nonempty : letters ≠ [])
      (word : Command.valueOf (String.ofList letters) = .error message) (skip : rest.readToNul =
        some (skipped, rest')) :
      Round input [⟨.error, none, some (message ++ "\n")⟩] ⟨rest', false⟩
  | threw {letters : List Char} {rest : BufferedReader} {command : Command}
      {message : Option String}
      (line : input.readLine = some (some letters, rest)) (nonempty : letters ≠ [])
      (word : Command.valueOf (String.ofList letters) = .ok command)
      (lines : rest.readHeaders Dict.empty = .threw message) :
        Round input [⟨.error, none, message⟩] ⟨rest, true⟩
  | frame {letters body : List Char} {rest rest' rest'' : BufferedReader} {command : Command}
      {headers : Headers}
      (line : input.readLine = some (some letters, rest)) (nonempty : letters ≠ [])
      (word : Command.valueOf (String.ofList letters) = .ok command)
      (lines : rest.readHeaders Dict.empty = .done headers rest') (toNul : rest'.readToNul =
        some (body, rest'')) :
      Round input [⟨command, some headers, some (String.ofList body)⟩] ⟨rest'', false⟩

theorem pending_of_null {input rest : BufferedReader} (line : input.readLine = some (none, rest)) :
    input.pending = [] := by
  unfold readLine at line
  split at line
  · simp at line
  · split at line
    · split at line
      · assumption
      · simp at line
    · cases line

theorem readFrame_eq_some {letters : List Char} {input rest : BufferedReader} {calls : List Call}
    {receiver' : Receiver}
    (line : input.readLine = some (some letters, rest)) (nonempty : letters ≠ []) :
    readFrame letters rest = some (calls, receiver') → Round input calls receiver' := by
  intro read
  unfold readFrame at read
  split at read
  · rename_i message word
    obtain ⟨result, skip, same⟩ := Option.map_eq_some_iff.mp read
    cases same
    exact .unknown line nonempty word skip
  · rename_i command word
    split at read
    · cases read
    · rename_i message lines
      cases read
      exact .threw line nonempty word lines
    · rename_i headers input' lines
      obtain ⟨result, toNul, same⟩ := Option.map_eq_some_iff.mp read
      cases same
      exact .frame line nonempty word lines toNul

theorem next_eq_some {receiver receiver' : Receiver} {calls : List Call} :
    receiver.next = some (calls, receiver') ↔
    receiver.exited = false ∧ receiver.input.pending ≠
      [] ∧ Round receiver.input calls receiver' := by
  constructor
  · intro read
    unfold next at read
    split at read
    · cases read
    · rename_i ready
      rw [not_or, Bool.not_eq_true] at ready
      refine ⟨ready.1, ready.2, ?_⟩
      split at read
      · cases read
      · rename_i line
        -- null is the end of the stream, which leaves nothing pending
        exact absurd (pending_of_null line) ready.2
      · rename_i line
        cases read
        exact .blank line
      · rename_i c letters rest line
        exact readFrame_eq_some line (List.cons_ne_nil c letters) read
  · rintro ⟨running, ready, round⟩
    have goes : ¬ (receiver.exited = true ∨ receiver.input.pending = []) := by simp [running, ready]
    rw [next, if_neg goes]
    cases round with
    | blank line => rw [line]
    | unknown line nonempty word skip =>
      rename_i letters _ _ _ _
      cases letters with
      | nil => exact absurd rfl nonempty
      | cons c letters => simp only [line, readFrame, word, skip, Option.map_some]
    | threw line nonempty word lines =>
      rename_i letters _ _ _
      cases letters with
      | nil => exact absurd rfl nonempty
      | cons c letters => simp only [line, readFrame, word, lines]
    | frame line nonempty word lines toNul =>
      rename_i letters _ _ _ _ _ _
      cases letters with
      | nil => exact absurd rfl nonempty
      | cons c letters => simp only [line, readFrame, word, lines, toNul, Option.map_some]

section Rounds

variable {input : BufferedReader} {calls : List Call} {receiver receiver' : Receiver}

theorem Round.smaller (round : Round input calls receiver') :
    receiver'.size < input.input.length + 1 := by
  cases round with
  | blank line =>
    have shorter := length_readLine line
    rw [size_running]
    omega
  | unknown line _ _ skip =>
    have shorter := length_readLine line
    have shorter' := length_readToNul skip
    rw [size_running]
    omega
  | threw _ _ _ _ => exact Nat.succ_pos _
  | frame line _ _ lines toNul =>
    have shorter := length_readLine line
    have shorter' := (readHeaders_shorter lines).1
    have shorter'' := length_readToNul toNul
    rw [size_running]
    omega

/-- A round that could be made is made alike with more behind it. -/
theorem Round.feed (round : Round input calls receiver') (more : List UInt8) :
    Round (input.feed more) calls (receiver'.feed more) := by
  cases round with
  | blank line => exact .blank (readLine_feed line more)
  | unknown line nonempty word skip =>
    exact .unknown (readLine_feed line more) nonempty word (readToNul_feed skip more)
  | threw line nonempty word lines =>
    have later := readHeaders_feed lines (by simp) more
    exact .threw (readLine_feed line more) nonempty word later
  | frame line nonempty word lines toNul =>
    have later := readHeaders_feed lines (by simp) more
    exact .frame (readLine_feed line more) nonempty word later (readToNul_feed toNul more)

theorem next_smaller (round : receiver.next = some (calls, receiver')) :
    receiver'.size < receiver.size := by
  obtain ⟨running, _, round⟩ := next_eq_some.mp round
  have smaller := round.smaller
  rw [size.eq_def receiver, running, if_neg Bool.false_ne_true]
  exact smaller

theorem feed_ready {input : BufferedReader} (ready : input.pending ≠ []) (more : List UInt8) :
    (input.feed more).pending ≠ [] := by
  cases ended : input.ended with
  | true => rw [feed_of_ended ended]; exact ready
  | false =>
    rw [pending_feed ended ready]
    simp [ready]

theorem next_feed (round : receiver.next = some (calls, receiver')) (more : List UInt8) :
    (receiver.feed more).next = some (calls, receiver'.feed more) := by
  obtain ⟨running, ready, round⟩ := next_eq_some.mp round
  exact next_eq_some.mpr ⟨running, feed_ready ready more, round.feed more⟩

/-- Well-formed frames, and reports of what was not one. -/
def Frame (charset : Char → Prop) (call : Call) : Prop :=
  call.headers.isSome ∧ call.body.isSome ∧ WellFormed charset call

def Report (call : Call) : Prop := call.command = .error ∧ call.headers = none

theorem Round.frames {charset : Char → Prop} (round : Round input calls receiver')
    (letters : ∀ c ∈ input.input, charset c) :
    (∀ c ∈ receiver'.input.input, charset c) ∧ ∀ call ∈ calls, Frame charset call ∨
    Report call := by
  -- the body ends at the first NUL, and what is left are later characters of the input
  have body : ∀ (reader reader' : BufferedReader) (text : List Char),
    (∀ c ∈ reader.input, charset c) →
      reader.readToNul = some (text, reader') → (∀ c ∈ reader'.input, charset c) ∧
        ∀ c ∈ text, charset c ∧ c ≠ '\x00' := by
    intro reader reader' text letters toNul
    obtain ⟨rest, whole, absent, rfl⟩ := readToNul_eq_some.mp toNul
    have there : ∀ c ∈ text ++ '\x00' :: rest, charset c := fun c member =>
      letters c (mem_pending (whole ▸ member))
    refine ⟨fun c member => there c (List.mem_append_right _ (List.mem_cons_of_mem _ member)),
      fun c member => ?_⟩
    exact ⟨there c (List.mem_append_left _ member), fun same => absent (same ▸ member)⟩
  cases round with
  | blank line =>
    refine ⟨fun c member => letters c ((letters_readLine line).2 c member), ?_⟩
    intro call member
    cases member
  | unknown line nonempty word skip =>
    have left := fun c member => letters c ((letters_readLine line).2 c member)
    refine ⟨(body _ _ _ left skip).1, ?_⟩
    intro call member
    cases List.mem_singleton.mp member
    exact .inr ⟨rfl, rfl⟩
  | threw line nonempty word lines =>
    refine ⟨fun c member => letters c ((letters_readLine line).2 c member), ?_⟩
    intro call member
    cases List.mem_singleton.mp member
    exact .inr ⟨rfl, rfl⟩
  | frame line nonempty word lines toNul =>
    have left := fun c member => letters c ((letters_readLine line).2 c member)
    obtain ⟨wellFormed, left'⟩ :=
      readHeaders_wellFormed left (by intro item member; cases member) lines
    obtain ⟨left'', text⟩ := body _ _ _ left' toNul
    refine ⟨left'', ?_⟩
    intro call member
    cases List.mem_singleton.mp member
    refine .inl ⟨rfl, rfl, ⟨?_, ?_⟩⟩
    · intro headers same
      cases same
      exact wellFormed
    · intro b same
      cases same
      simpa using text

def close (receiver : Receiver) : Receiver := { receiver with input := receiver.input.close }

/-- What the thread does with a frame that was cut off: it never hands it over. -/
theorem cutOff (running : receiver.exited = false) (waits : receiver.next = none)
    (ready : receiver.input.pending ≠ [])
    (round : Round receiver.input.close calls receiver') :
    ∃ message, calls = [⟨.error, none, message⟩] ∧ receiver'.exited = true := by
  -- before the close the round could not be completed, so it needs the end of the stream
  have stuck : ∀ calls receiver', ¬ Round receiver.input calls receiver' := by
    intro calls receiver' round
    rw [next_eq_some.mpr ⟨running, ready, round⟩] at waits
    cases waits
  cases round with
  | blank line =>
    obtain ⟨rest, line', _⟩ | ⟨nonempty, _⟩ := readLine_close line
    · exact absurd (.blank line') (stuck _ _)
    · exact absurd rfl nonempty
  | unknown line nonempty word skip =>
    obtain ⟨rest, line', rfl⟩ | ⟨_, rfl⟩ := readLine_close line
    · obtain ⟨rest', skip'⟩ := readToNul_close skip
      exact absurd (.unknown line' nonempty word skip') (stuck _ _)
    · cases skip
  | threw line nonempty word lines => exact ⟨_, rfl, rfl⟩
  | frame line nonempty word lines toNul =>
    obtain ⟨rest, line', rfl⟩ | ⟨_, rfl⟩ := readLine_close line
    · obtain ⟨rest', lines', rfl⟩ := readHeaders_close lines
      obtain ⟨rest'', toNul'⟩ := readToNul_close toNul
      exact absurd (.frame line' nonempty word lines' toNul') (stuck _ _)
    · rw [readHeaders_nothing] at lines
      cases lines

theorem close_cases (waits : receiver.next = none) : receiver.close.next = none ∨
    ∃ message receiver', receiver.close.next = some ([⟨.error, none, message⟩], receiver') ∧
      receiver'.exited = true := by
  cases last : receiver.close.next with
  | none => exact .inl rfl
  | some result =>
    obtain ⟨calls, receiver'⟩ := result
    obtain ⟨running, ready, round⟩ := next_eq_some.mp last
    have cut : ∃ message, calls = [⟨.error, none, message⟩] ∧ receiver'.exited = true :=
      cutOff (show receiver.exited = false from running) waits ready round
    obtain ⟨message, rfl, exited⟩ := cut
    exact .inr ⟨message, receiver', rfl, exited⟩

theorem next_of_exited (exited : receiver.exited = true) : receiver.next = none := by
  rw [next, if_pos (.inl exited)]

end Rounds

theorem feed_nil (receiver : Receiver) : receiver.feed [] = receiver := by
  simp [feed, BufferedReader.feed]

theorem feed_append (receiver : Receiver) (first second : List UInt8) :
    receiver.feed (first ++ second) = (receiver.feed first).feed second := by
  cases ended : receiver.input.ended with
  | true => simp [feed, BufferedReader.feed, ended]
  | false => simp [feed, BufferedReader.feed, ended]

/-- The receiver as a reader of bytes that hands over calls. -/
def reader : Reader Receiver UInt8 Call where
  next := next
  feed := feed
  size := size
  next_smaller := next_smaller
  feed_nil := feed_nil
  feed_append := feed_append
  next_feed := next_feed

end Receiver

end TrainWatch.Stomp
