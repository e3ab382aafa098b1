/-
The lines that are typed into a session.  The reader polls for the input so
that it can look at the flag for a shutdown, and keeps the bytes of a line
that has not come to its end.  What it sends is compared with the lines of the
whole input, however the system cuts the input into pieces.
-/
import Shph.RatchetAudit

namespace Shph.Stdin

open BufferedLines ByteCodec

section Model

/-- `MAX_STDIN_LINE_BYTES`. -/
def maxStdinLineBytes : Nat := 64 * 1024

/-- The size of the buffer a read fills. -/
def readBytes : Nat := 4096

/-- What one read gives. -/
structure Chunk where
  bytes : Bytes
  nonempty : bytes ≠ []
  fits : bytes.length ≤ readBytes

/-- What `poll` and `read` come back with before the input ends.  After an
interrupted call of either the flag is looked at once more. -/
inductive StdinEvent where
  | idle
  | interrupted
  | failed (kind : IoErrorKind)
  | data (chunk : Chunk)

/-- A read of no bytes, or a poll that reports that the other end is gone. -/
inductive StdinEnd where
  | closed
  | hangup
deriving DecidableEq

/-- The flag for a shutdown each time it is looked at, and the end that is
reported when the events are used up. -/
structure StdinSystem where
  shutdownRequested : Nat → Bool
  finish : StdinEnd

structure StdinState where
  pending : Bytes
  events : List StdinEvent
  checks : Nat

def tooLong : ShphError :=
  .protocol "stdin line exceeds the 64 KiB safety limit"

def notUtf8 : ShphError := .invalidArgument "stdin line is not valid UTF-8"

def isLineEnd (byte : UInt8) : Bool := byte == 10 || byte == 13

/-- The bytes without the newlines and carriage returns at their end. -/
def trimLine (bytes : Bytes) : Bytes := bytes.rdropWhile isLineEnd

def decodeLine (bytes : Bytes) : Except ShphError String :=
  okOr (String.fromUTF8? ⟨(trimLine bytes).toArray⟩) notUtf8

/-- Up to the first newline, and what stands behind it. -/
def takeLine (pending : Bytes) : Option (Bytes × Bytes) :=
  (pending.findIdx? (· == newline)).map fun index =>
    (pending.take (index + 1), pending.drop (index + 1))

/-- `read_stdin_line_unix`. -/
def readStdinLine (system : StdinSystem) (pending : Bytes) (checks : Nat)
    (events : List StdinEvent) :
    Except ShphError (Option String × StdinState) :=
  if system.shutdownRequested checks then
    .ok (none, ⟨pending, events, checks + 1⟩)
  else
    match takeLine pending with
    | some (bytes, rest) =>
        (decodeLine bytes).map fun line =>
          (some line, ⟨rest, events, checks + 1⟩)
    | none =>
        if maxStdinLineBytes < pending.length then .error tooLong
        else
          match events with
          | [] =>
              if system.finish = .closed ∨ pending = [] then
                .ok (none, ⟨pending, [], checks + 1⟩)
              else
                (decodeLine pending).map fun line =>
                  (some line, ⟨[], [], checks + 1⟩)
          | .idle :: events => readStdinLine system pending (checks + 1) events
          | .interrupted :: events =>
              if system.shutdownRequested (checks + 1) then
                .ok (none, ⟨pending, events, checks + 2⟩)
              else readStdinLine system pending (checks + 2) events
          | .failed kind :: _ => .error (.io kind)
          | .data chunk :: events =>
              if maxStdinLineBytes < pending.length + chunk.bytes.length then
                .error tooLong
              else
                readStdinLine system (pending ++ chunk.bytes) (checks + 1)
                  events
termination_by structural events

/-- The bytes that are still to come. -/
def received : List StdinEvent → Bytes
  | [] => []
  | .data chunk :: events => chunk.bytes ++ received events
  | .idle :: events => received events
  | .interrupted :: events => received events
  | .failed _ :: events => received events

def StdinState.size (state : StdinState) : Nat :=
  state.pending.length + (received state.events).length

end Model

section Lines

theorem takeLine_of_notMem {pending : Bytes} (hpending : newline ∉ pending) :
    takeLine pending = none := by
  rw [takeLine, findIdx?_of_notMem hpending, Option.map_none]

theorem takeLine_line {front : Bytes} (rest : Bytes)
    (hfront : newline ∉ front) :
    takeLine (front ++ newline :: rest) = some (front ++ [newline], rest) := by
  rw [takeLine, findIdx?_line rest hfront, Option.map_some,
    List.take_append, List.take_of_length_le (Nat.le_succ _),
    List.drop_append, List.drop_of_length_le (Nat.le_succ _)]
  simp

theorem takeLine_append {pending bytes rest : Bytes}
    (hline : takeLine pending = some (bytes, rest)) :
    bytes ≠ [] ∧ pending = bytes ++ rest := by
  by_cases hmem : newline ∈ pending
  · obtain ⟨front, behind, hsplit, hfront⟩ := List.eq_append_cons_of_mem hmem
    rw [hsplit, takeLine_line behind hfront] at hline
    cases hline
    exact ⟨by simp, by simp [hsplit]⟩
  · rw [takeLine_of_notMem hmem] at hline
    cases hline

/-- A line that was read leaves less to read. -/
theorem readStdinLine_lt {system : StdinSystem} {pending : Bytes}
    {checks : Nat} {events : List StdinEvent} {line : String}
    {next : StdinState}
    (hread : readStdinLine system pending checks events =
      .ok (some line, next)) :
    next.size < pending.length + (received events).length := by
  fun_induction readStdinLine system pending checks events with
  | case1 events pending checks hflag => simp at hread
  | case2 events pending checks hflag bytes rest hline =>
      cases hdecode : decodeLine bytes with
      | error error =>
          rw [hdecode] at hread
          cases hread
      | ok text =>
          rw [hdecode] at hread
          cases hread
          obtain ⟨hbytes, hrest⟩ := takeLine_append hline
          rw [hrest, List.length_append]
          change rest.length + (received events).length < _
          have hlength := List.length_pos_iff.mpr hbytes
          omega
  | case3 events pending checks hflag hnone hlong => cases hread
  | case4 pending checks hflag hnone hshort hend => simp at hread
  | case5 pending checks hflag hnone hshort hend =>
      cases hdecode : decodeLine pending with
      | error error =>
          rw [hdecode] at hread
          cases hread
      | ok text =>
          rw [hdecode] at hread
          cases hread
          rw [not_or] at hend
          have hlength := List.length_pos_iff.mpr hend.2
          change 0 + 0 < _
          omega
  | case6 pending checks hflag hnone hshort events ih => exact ih hread
  | case7 pending checks hflag hnone hshort events hagain => simp at hread
  | case8 pending checks hflag hnone hshort events hagain ih =>
      exact ih hread
  | case9 pending checks hflag hnone hshort kind events => cases hread
  | case10 pending checks hflag hnone hshort chunk events hfull => cases hread
  | case11 pending checks hflag hnone hshort chunk events hfull ih =>
      have hless := ih hread
      rw [List.length_append] at hless
      rw [received, List.length_append]
      omega

end Lines

section Stream

variable {S : Type}

/-- The session after the loop, the frames it took, and how the loop ended. -/
structure StdinRun (S : Type) where
  session : S
  sent : List Bytes
  outcome : Except ShphError Unit

/-- `stream_stdin_lines`. -/
def streamStdinLines (system : StdinSystem)
    (sendFrame : S → Bytes → Except ShphError Unit × S) (session : S)
    (state : StdinState) : StdinRun S :=
  if system.shutdownRequested state.checks then ⟨session, [], .ok ()⟩
  else
    match hread : readStdinLine system state.pending (state.checks + 1)
        state.events with
    | .error error => ⟨session, [], .error error⟩
    | .ok (none, _) => ⟨session, [], .ok ()⟩
    | .ok (some line, next) =>
        have : next.size < state.size := readStdinLine_lt hread
        let payload := textBytes (trimLineEnd line)
        match sendFrame session payload with
        | (.error error, session) => ⟨session, [], .error error⟩
        | (.ok _, session) =>
            let run := streamStdinLines system sendFrame session next
            { run with sent := payload :: run.sent }
termination_by state.size

/-- The frame for a line of the input. -/
def frameOf (line : Bytes) : Except ShphError Bytes := do
  ensure (line.length ≤ maxStdinLineBytes) tooLong
  ensure (String.fromUTF8? ⟨(trimLine line).toArray⟩).isSome notUtf8
  return trimLine line

/-- What is to be sent for the lines, up to the first that is refused. -/
def frames : List Bytes → List Bytes × Except ShphError Unit
  | [] => ([], .ok ())
  | line :: rest =>
      match frameOf line with
      | .error error => ([], .error error)
      | .ok payload => (payload :: (frames rest).1, (frames rest).2)

/-- The session takes the frames one after the other. -/
def Carries (sendFrame : S → Bytes → Except ShphError Unit × S) :
    S → List Bytes → Prop
  | _, [] => True
  | session, payload :: rest =>
      (sendFrame session payload).1 = .ok () ∧
        Carries sendFrame (sendFrame session payload).2 rest

/-- A line that has a frame. -/
def Good (line : Bytes) : Prop := ∃ payload, frameOf line = .ok payload

/-- Every piece finds room behind the unfinished line it arrives at, unless
that line is too long by itself, and the last line has its newline when the
input is closed.  Nothing is asked behind a line without a frame. -/
structure Fits (finish : StdinEnd) (pending : Bytes)
    (events : List StdinEvent) : Prop where
  room : ∀ before chunk after, events = before ++ .data chunk :: after →
    (∀ line ∈ lines (finished (pending ++ received before)), Good line) →
    (unfinished (pending ++ received before)).length + chunk.bytes.length ≤
        maxStdinLineBytes ∨
      ∀ line ∈ (lines (unfinished (pending ++ received before) ++
          (chunk.bytes ++ received after))).head?,
        maxStdinLineBytes < line.length
  lastLine : finish = .closed →
    (∀ line ∈ lines (finished (pending ++ received events)), Good line) →
    unfinished (pending ++ received events) = [] ∨
      maxStdinLineBytes < (unfinished (pending ++ received events)).length

section Frame

/-- The text of a trimmed line is sent as it is. -/
theorem textBytes_trimLineEnd {bytes : Bytes} {line : String}
    (hline : decodeLine bytes = .ok line) :
    textBytes (trimLineEnd line) = trimLine bytes := by
  rw [decodeLine, okOr_eq_ok_iff] at hline
  have hbytes := eq_textBytes_of_fromUTF8? hline
  have hend : trimLineEnd line = line := by
    rw [trimLineEnd, ← String.toList_inj, String.toList_ofList,
      List.rdropWhile_eq_self_iff]
    intro hne hlast
    rw [decide_eq_true_eq] at hlast
    rw [textBytes_eq_flatMap] at hbytes
    rw [← List.dropLast_append_getLast hne, List.flatMap_append,
      List.flatMap_singleton] at hbytes
    generalize line.toList.getLast hne = last at hlast hbytes
    have hone : ∃ byte, isLineEnd byte = true ∧
        String.utf8EncodeChar last = [byte] := by
      rcases hlast with rfl | rfl
      · exact ⟨13, by decide, by decide⟩
      · exact ⟨10, by decide, by decide⟩
    obtain ⟨byte, hbyte, hencode⟩ := hone
    rw [hencode] at hbytes
    have htrim : trimLine bytes ≠ [] := by simp [hbytes]
    have hnot := List.rdropWhile_last_not isLineEnd bytes htrim
    apply hnot
    have hget : (trimLine bytes).getLast htrim = byte := by
      simp [hbytes]
    exact hget ▸ hbyte
  rw [hend, hbytes]

theorem decodeLine_error {bytes : Bytes} {error : ShphError}
    (hdecode : decodeLine bytes = .error error) : error = notUtf8 := by
  unfold decodeLine at hdecode
  cases htext : String.fromUTF8? ⟨(trimLine bytes).toArray⟩ with
  | none =>
      rw [htext] at hdecode
      exact (Except.error.inj hdecode).symm
  | some text =>
      rw [htext] at hdecode
      cases hdecode

theorem frameOf_of_le {bytes : Bytes}
    (hlength : bytes.length ≤ maxStdinLineBytes) :
    frameOf bytes = (decodeLine bytes).map fun _ => trimLine bytes := by
  rw [frameOf, decodeLine]
  cases String.fromUTF8? ⟨(trimLine bytes).toArray⟩ with
  | none => simp [ensure, hlength, okOr, Except.map, bind, Except.bind]
  | some text =>
      simp [ensure, hlength, okOr, Except.map, bind, Except.bind, pure,
        Except.pure]

theorem frameOf_of_lt {bytes : Bytes}
    (hlength : maxStdinLineBytes < bytes.length) :
    frameOf bytes = .error tooLong := by
  rw [frameOf, ensure, if_neg (Nat.not_le.mpr hlength)]
  rfl

end Frame

section Conditions

variable {finish : StdinEnd} {pending front rest : Bytes}
  {events : List StdinEvent}

theorem received_append (before after : List StdinEvent) :
    received (before ++ after) = received before ++ received after := by
  induction before with
  | nil => rfl
  | cons event before ih =>
      cases event with
      | data chunk => rw [List.cons_append, received, received, ih,
          List.append_assoc]
      | _ => exact ih

theorem fits_line (hfront : newline ∉ front) :
    Fits finish (front ++ newline :: rest) events ↔
      (Good (front ++ [newline]) → Fits finish rest events) := by
  have hlines : ∀ bytes, lines (finished
      (front ++ newline :: rest ++ bytes)) =
        (front ++ [newline]) :: lines (finished (rest ++ bytes)) := by
    intro bytes
    rw [List.append_assoc, List.cons_append, finished_line,
      lines_line hfront]
  have hrest : ∀ bytes, unfinished (front ++ newline :: rest ++ bytes) =
      unfinished (rest ++ bytes) := by
    intro bytes
    rw [List.append_assoc, List.cons_append, unfinished_line]
  constructor
  · intro hfits hgood
    constructor
    · intro before chunk after hevents hlinesGood
      have hroom := hfits.room before chunk after hevents
      rw [hlines, hrest, List.forall_mem_cons] at hroom
      exact hroom ⟨hgood, hlinesGood⟩
    · intro hclosed hlinesGood
      have hlast := hfits.lastLine hclosed
      rw [hlines, hrest, List.forall_mem_cons] at hlast
      exact hlast ⟨hgood, hlinesGood⟩
  · intro hfits
    constructor
    · intro before chunk after hevents hlinesGood
      rw [hlines, List.forall_mem_cons] at hlinesGood
      rw [hrest]
      exact (hfits hlinesGood.1).room before chunk after hevents hlinesGood.2
    · intro hclosed hlinesGood
      rw [hlines, List.forall_mem_cons] at hlinesGood
      rw [hrest]
      exact (hfits hlinesGood.1).lastLine hclosed hlinesGood.2

/-- An event that brings nothing asks for nothing. -/
theorem fits_skip {event : StdinEvent} (hempty : received [event] = []) :
    Fits finish pending (event :: events) ↔ Fits finish pending events := by
  have hreceived : ∀ later, received (event :: later) = received later := by
    intro later
    rw [← List.singleton_append, received_append, hempty, List.nil_append]
  constructor
  · intro hfits
    constructor
    · intro before chunk after hevents hgood
      have hroom := hfits.room (event :: before) chunk after
        (by rw [hevents]; rfl)
      rw [hreceived] at hroom
      exact hroom hgood
    · rw [← hreceived]
      exact hfits.lastLine
  · intro hfits
    constructor
    · intro before chunk after hevents hgood
      cases before with
      | nil =>
          cases hevents
          have hnone : chunk.bytes = [] := by
            rw [received, received, List.append_nil] at hempty
            exact hempty
          exact absurd hnone chunk.nonempty
      | cons first before =>
          obtain ⟨rfl, hlater⟩ := List.cons.inj hevents
          rw [hreceived] at hgood ⊢
          exact hfits.room before chunk after hlater hgood
    · rw [hreceived]
      exact hfits.lastLine

theorem fits_data {chunk : Chunk} (hpending : newline ∉ pending) :
    Fits finish pending (.data chunk :: events) ↔
      (pending.length + chunk.bytes.length ≤ maxStdinLineBytes ∨
        ∀ line ∈ (lines (pending ++ (chunk.bytes ++ received events))).head?,
          maxStdinLineBytes < line.length) ∧
        Fits finish (pending ++ chunk.bytes) events := by
  have hreceived : ∀ later, pending ++ received (.data chunk :: later) =
      pending ++ chunk.bytes ++ received later := by
    intro later
    rw [received, List.append_assoc]
  constructor
  · intro hfits
    refine ⟨?_, ?_, ?_⟩
    · have hroom := hfits.room [] chunk events rfl
      rw [received, List.append_nil, finished_of_notMem hpending,
        unfinished_of_notMem hpending] at hroom
      exact hroom (by simp [lines])
    · intro before other after hevents hgood
      have hroom := hfits.room (.data chunk :: before) other after
        (by rw [hevents]; rfl)
      rw [hreceived] at hroom
      exact hroom hgood
    · rw [← hreceived]
      exact hfits.lastLine
  · rintro ⟨hhere, hfits⟩
    constructor
    · intro before other after hevents hgood
      cases before with
      | nil =>
          cases hevents
          rw [received, List.append_nil, unfinished_of_notMem hpending]
          exact hhere
      | cons first before =>
          obtain ⟨rfl, hlater⟩ := List.cons.inj hevents
          rw [hreceived] at hgood ⊢
          exact hfits.room before other after hlater hgood
    · rw [hreceived]
      exact hfits.lastLine

theorem fits_nil (hpending : newline ∉ pending) :
    Fits finish pending [] ↔
      (finish = .closed → pending = [] ∨
        maxStdinLineBytes < pending.length) := by
  constructor
  · intro hfits hclosed
    have hlast := hfits.lastLine hclosed
    rw [received, List.append_nil, finished_of_notMem hpending,
      unfinished_of_notMem hpending] at hlast
    exact hlast (by simp [lines])
  · intro hlast
    constructor
    · intro before chunk after hevents
      exact absurd hevents (by simp)
    · intro hclosed _
      rw [received, List.append_nil, unfinished_of_notMem hpending]
      exact hlast hclosed

theorem not_good_of_lt {line : Bytes}
    (hlength : maxStdinLineBytes < line.length) : ¬ Good line := by
  rintro ⟨payload, hframe⟩
  rw [frameOf_of_lt hlength] at hframe
  cases hframe

/-- When the first line is too long nothing else matters. -/
theorem fits_of_tooLong
    (hfirst : ∀ line ∈ (lines (pending ++ received events)).head?,
      maxStdinLineBytes < line.length) :
    Fits finish pending events := by
  have hsplit : ∀ bytes behind, pending ++ received events = bytes ++ behind →
      (∀ line ∈ lines (finished bytes), Good line) →
      finished bytes = [] ∧ unfinished bytes = bytes := by
    intro bytes behind hbytes hgood
    have hnone : finished bytes = [] := by
      by_contra hne
      obtain ⟨line, others, hlines⟩ := List.exists_cons_of_ne_nil
        (mt (lines_eq_nil_iff _).mp hne)
      rw [hbytes, ← finished_append_unfinished bytes, List.append_assoc,
        lines_append (finished_last bytes), hlines] at hfirst
      rw [hlines] at hgood
      exact not_good_of_lt (hfirst line (by simp))
        (hgood line List.mem_cons_self)
    have hwhole := finished_append_unfinished bytes
    rw [hnone, List.nil_append] at hwhole
    exact ⟨hnone, hwhole⟩
  constructor
  · intro before chunk after hevents hgood
    have hbytes : pending ++ received events = pending ++ received before ++
        (chunk.bytes ++ received after) := by
      rw [hevents, received_append, received, List.append_assoc]
    rw [(hsplit _ _ hbytes hgood).2, ← hbytes]
    exact .inr hfirst
  · intro _ hgood
    obtain ⟨hnone, hwhole⟩ := hsplit _ [] (List.append_nil _).symm hgood
    rw [hwhole]
    by_cases hempty : pending ++ received events = []
    · exact .inl hempty
    · have hnewline := newline_notMem_unfinished (pending ++ received events)
      rw [hwhole] at hnewline
      rw [lines_unfinished hnewline hempty] at hfirst
      exact .inr (hfirst _ rfl)

end Conditions

section Agreement

variable {system : StdinSystem}
  {sendFrame : S → Bytes → Except ShphError Unit × S} {session : S}
  {pending : Bytes} {checks : Nat} {events : List StdinEvent}

/-- One turn of the loop, for what the reader came back with. -/
def turn (system : StdinSystem)
    (sendFrame : S → Bytes → Except ShphError Unit × S) (session : S) :
    Except ShphError (Option String × StdinState) → StdinRun S
  | .error error => ⟨session, [], .error error⟩
  | .ok (none, _) => ⟨session, [], .ok ()⟩
  | .ok (some line, next) =>
      match sendFrame session (textBytes (trimLineEnd line)) with
      | (.error error, session) => ⟨session, [], .error error⟩
      | (.ok _, session) =>
          let run := streamStdinLines system sendFrame session next
          { run with sent := textBytes (trimLineEnd line) :: run.sent }

theorem streamStdinLines_eq {state : StdinState}
    (hflag : system.shutdownRequested state.checks = false) :
    streamStdinLines system sendFrame session state =
      turn system sendFrame session (readStdinLine system state.pending
        (state.checks + 1) state.events) := by
  rw [streamStdinLines, if_neg (Bool.not_eq_true _ ▸ hflag)]
  split
  · rename_i hread
    exact (congrArg (turn system sendFrame session) hread).symm
  · rename_i hread
    exact (congrArg (turn system sendFrame session) hread).symm
  · rename_i hread
    exact (congrArg (turn system sendFrame session) hread).symm

/-- What is asked of the loop in a state: it sends what is to be sent for the
lines of everything that is still to come, and ends as it should. -/
def Agrees (system : StdinSystem)
    (sendFrame : S → Bytes → Except ShphError Unit × S) (session : S)
    (state : StdinState) : Prop :=
  let run := streamStdinLines system sendFrame session state
  let wanted := frames (lines (state.pending ++ received state.events))
  run.sent = wanted.1 ∧ run.outcome = wanted.2

/-- The loop agrees exactly when the pieces fit and the session takes the
frames. -/
def Exact (system : StdinSystem)
    (sendFrame : S → Bytes → Except ShphError Unit × S) (session : S)
    (state : StdinState) : Prop :=
  Agrees system sendFrame session state ↔
    Carries sendFrame session
        (frames (lines (state.pending ++ received state.events))).1 ∧
      Fits system.finish state.pending state.events

variable (hflag : ∀ check, system.shutdownRequested check = false)

include hflag

/-- A whole line in the buffer is the next frame. -/
theorem exact_line {front rest : Bytes} (hfront : newline ∉ front)
    (hlength : (front ++ newline :: rest).length ≤ maxStdinLineBytes)
    (hrest : ∀ session checks,
      Exact system sendFrame session ⟨rest, events, checks⟩) :
    Exact system sendFrame session
      ⟨front ++ newline :: rest, events, checks⟩ := by
  have hshort : (front ++ [newline]).length ≤ maxStdinLineBytes := by
    simp only [List.length_append, List.length_cons, List.length_nil]
      at hlength ⊢
    omega
  have hread : readStdinLine system (front ++ newline :: rest) (checks + 1)
      events = (decodeLine (front ++ [newline])).map fun line =>
        (some line, ⟨rest, events, checks + 2⟩) := by
    rw [readStdinLine.eq_def, if_neg (by rw [hflag]; exact Bool.false_ne_true),
      takeLine_line rest hfront]
  unfold Exact Agrees
  dsimp only
  rw [streamStdinLines_eq (hflag _), hread, List.append_assoc,
    List.cons_append, lines_line hfront, frames, frameOf_of_le hshort,
    fits_line hfront]
  cases hdecode : decodeLine (front ++ [newline]) with
  | error error =>
      have hbad : ¬ Good (front ++ [newline]) := by
        rintro ⟨payload, hframe⟩
        rw [frameOf_of_le hshort, hdecode] at hframe
        cases hframe
      simp [Except.map, turn, hbad, Carries]
  | ok line =>
      have hgood : Good (front ++ [newline]) :=
        ⟨_, by rw [frameOf_of_le hshort, hdecode]; rfl⟩
      simp only [Except.map, turn, textBytes_trimLineEnd hdecode, hgood,
        forall_const, Carries]
      cases hsend : sendFrame session (trimLine (front ++ [newline])) with
      | mk result next =>
          cases result with
          | error error => simp
          | ok taken =>
              have hexact := hrest next (checks + 2)
              unfold Exact Agrees at hexact
              simpa using hexact

/-- Without a whole line the reader polls. -/
theorem readStdinLine_poll (hpending : newline ∉ pending)
    (hlength : pending.length ≤ maxStdinLineBytes) :
    readStdinLine system pending checks events =
      match events with
      | [] =>
          if system.finish = .closed ∨ pending = [] then
            .ok (none, ⟨pending, [], checks + 1⟩)
          else
            (decodeLine pending).map fun line =>
              (some line, ⟨[], [], checks + 1⟩)
      | .idle :: events => readStdinLine system pending (checks + 1) events
      | .interrupted :: events =>
          readStdinLine system pending (checks + 2) events
      | .failed kind :: _ => .error (.io kind)
      | .data chunk :: events =>
          if maxStdinLineBytes < pending.length + chunk.bytes.length then
            .error tooLong
          else
            readStdinLine system (pending ++ chunk.bytes) (checks + 1)
              events := by
  have hfalse : ∀ check, ¬ system.shutdownRequested check = true := by
    intro check
    rw [hflag]
    exact Bool.false_ne_true
  rw [readStdinLine.eq_def, if_neg (hfalse _), takeLine_of_notMem hpending]
  dsimp only
  rw [if_neg (Nat.not_lt.mpr hlength)]
  split
  · rfl
  · rfl
  · rw [if_neg (hfalse _)]
  · rfl
  · rfl

/-- An event that brings nothing changes nothing. -/
theorem exact_skip {event : StdinEvent} (later : Nat)
    (hempty : received [event] = [])
    (hread : readStdinLine system pending (checks + 1) (event :: events) =
      readStdinLine system pending (later + 1) events)
    (hrest : Exact system sendFrame session ⟨pending, events, later⟩) :
    Exact system sendFrame session ⟨pending, event :: events, checks⟩ := by
  have hreceived : received (event :: events) = received events := by
    rw [← List.singleton_append, received_append, hempty, List.nil_append]
  unfold Exact Agrees at hrest ⊢
  dsimp only at hrest ⊢
  rw [streamStdinLines_eq (hflag _)] at hrest ⊢
  dsimp only at hrest ⊢
  rw [hread, fits_skip hempty, hreceived]
  exact hrest

/-- A piece joins the unfinished line, or the loop stops: rightly only when
the line is too long. -/
theorem exact_data {chunk : Chunk} (hpending : newline ∉ pending)
    (hlength : pending.length ≤ maxStdinLineBytes)
    (hrest : pending.length + chunk.bytes.length ≤ maxStdinLineBytes →
      Exact system sendFrame session
        ⟨pending ++ chunk.bytes, events, checks + 1⟩) :
    Exact system sendFrame session
      ⟨pending, .data chunk :: events, checks⟩ := by
  have hbytes : pending ++ received (.data chunk :: events) =
      pending ++ (chunk.bytes ++ received events) := by rw [received]
  by_cases hfull : maxStdinLineBytes < pending.length + chunk.bytes.length
  · have hstops : streamStdinLines system sendFrame session
        ⟨pending, .data chunk :: events, checks⟩ =
          ⟨session, [], .error tooLong⟩ := by
      rw [streamStdinLines_eq (hflag _),
        readStdinLine_poll hflag hpending hlength]
      dsimp only
      rw [if_pos hfull]
      rfl
    obtain ⟨line, others, hlines⟩ := List.exists_cons_of_ne_nil
      (mt (lines_eq_nil_iff (pending ++ (chunk.bytes ++ received events))).mp
        (by simp [chunk.nonempty]))
    unfold Exact Agrees
    dsimp only
    rw [hstops, fits_data hpending, hbytes, hlines, frames, List.head?_cons]
    dsimp only
    by_cases hlong : maxStdinLineBytes < line.length
    · have hfits : Fits system.finish (pending ++ chunk.bytes) events := by
        apply fits_of_tooLong
        rw [List.append_assoc, hlines]
        rintro first hfirst
        rw [← Option.some.inj hfirst]
        exact hlong
      simp [frameOf_of_lt hlong, Carries, hfits, hlong]
    · have hroom : ¬ (pending.length + chunk.bytes.length ≤
          maxStdinLineBytes ∨ ∀ first ∈ some line,
            maxStdinLineBytes < first.length) := by
        rintro (hroom | hfirst)
        · exact absurd hfull (Nat.not_lt.mpr hroom)
        · exact hlong (hfirst line rfl)
      refine iff_of_false ?_ fun hboth => hroom hboth.2.1
      rintro ⟨hsent, houtcome⟩
      rw [frameOf_of_le (Nat.not_lt.mp hlong)] at hsent houtcome
      cases hdecode : decodeLine line with
      | error error =>
          rw [hdecode, decodeLine_error hdecode] at houtcome
          cases houtcome
      | ok text =>
          rw [hdecode] at hsent
          cases hsent
  · have hexact := hrest (Nat.not_lt.mp hfull)
    unfold Exact Agrees at hexact ⊢
    dsimp only at hexact ⊢
    rw [streamStdinLines_eq (hflag _)] at hexact ⊢
    dsimp only at hexact ⊢
    rw [readStdinLine_poll hflag hpending hlength]
    dsimp only
    rw [if_neg hfull, fits_data hpending, hbytes]
    rw [List.append_assoc] at hexact
    rw [hexact]
    simp [Nat.not_lt.mp hfull]

/-- At the end the unfinished line is the last frame, or is lost. -/
theorem exact_end (hpending : newline ∉ pending)
    (hlength : pending.length ≤ maxStdinLineBytes) :
    Exact system sendFrame session ⟨pending, [], checks⟩ := by
  have hdone : ∀ (session : S) checks,
      streamStdinLines system sendFrame session ⟨[], [], checks⟩ =
        ⟨session, [], .ok ()⟩ := by
    intro session checks
    rw [streamStdinLines_eq (hflag _),
      readStdinLine_poll hflag List.not_mem_nil (Nat.zero_le _)]
    dsimp only
    rw [if_pos (.inr rfl)]
    rfl
  unfold Exact Agrees
  dsimp only
  rw [fits_nil hpending, received, List.append_nil]
  by_cases hempty : pending = []
  · subst hempty
    rw [hdone]
    simp [lines, frames, Carries]
  · rw [streamStdinLines_eq (hflag _),
      readStdinLine_poll hflag hpending hlength,
      lines_unfinished hpending hempty, frames, frameOf_of_le hlength]
    dsimp only
    by_cases hclosed : system.finish = .closed
    · rw [if_pos (.inl hclosed)]
      refine iff_of_false ?_ ?_
      · rintro ⟨hsent, houtcome⟩
        cases hdecode : decodeLine pending with
        | error error =>
            rw [hdecode] at houtcome
            cases houtcome
        | ok text =>
            rw [hdecode] at hsent
            cases hsent
      · rintro ⟨-, hlast⟩
        rcases hlast hclosed with hnil | hlong
        · exact hempty hnil
        · exact absurd hlong (Nat.not_lt.mpr hlength)
    · rw [if_neg (by simp [hclosed, hempty])]
      cases hdecode : decodeLine pending with
      | error error => simp [Except.map, turn, Carries, hclosed]
      | ok line =>
          simp only [Except.map, turn, textBytes_trimLineEnd hdecode, Carries]
          cases hsend : sendFrame session (trimLine pending) with
          | mk result next =>
              cases result with
              | error error => simp
              | ok taken => simp [hdone, frames, Carries, hclosed]

/-- The step over one event, once the whole lines are out of the buffer. -/
theorem exact_of_unbroken
    (hunbroken : ∀ (session : S) pending checks, newline ∉ pending →
      pending.length ≤ maxStdinLineBytes →
      Exact system sendFrame session ⟨pending, events, checks⟩)
    (hlength : pending.length ≤ maxStdinLineBytes) :
    Exact system sendFrame session ⟨pending, events, checks⟩ := by
  induction hcount : pending.length using Nat.strongRecOn
    generalizing session pending checks with
  | ind count ih =>
      by_cases hmem : newline ∈ pending
      · obtain ⟨front, rest, rfl, hfront⟩ := List.eq_append_cons_of_mem hmem
        have hbytes : (front ++ newline :: rest).length =
            front.length + (rest.length + 1) := List.length_append
        refine exact_line hflag hfront hlength fun next checks => ?_
        exact ih rest.length (by omega) (by omega) rfl
      · exact hunbroken session pending checks hmem hlength

theorem exact_run (hreads : ∀ kind, .failed kind ∉ events)
    (hlength : pending.length ≤ maxStdinLineBytes) :
    Exact system sendFrame session ⟨pending, events, checks⟩ := by
  induction events generalizing session pending checks with
  | nil =>
      exact exact_of_unbroken hflag
        (fun _ _ _ hnewline hshort => exact_end hflag hnewline hshort) hlength
  | cons event events ih =>
      have hlater : ∀ kind, .failed kind ∉ events := fun kind hkind =>
        hreads kind (List.mem_cons_of_mem _ hkind)
      apply exact_of_unbroken hflag _ hlength
      intro session pending checks hnewline hshort
      cases event with
      | idle =>
          apply exact_skip hflag (checks + 1) rfl
          · rw [readStdinLine_poll hflag hnewline hshort]
          · exact ih hlater hshort
      | interrupted =>
          apply exact_skip hflag (checks + 2) rfl
          · rw [readStdinLine_poll hflag hnewline hshort]
          · exact ih hlater hshort
      | failed kind => exact absurd List.mem_cons_self (hreads kind)
      | data chunk =>
          apply exact_data hflag hnewline hshort
          intro hroom
          exact ih hlater (by rw [List.length_append]; exact hroom)

end Agreement

/-- The frames are those of the lines exactly when every piece fits, the last
line is not lost and the session takes them. -/
theorem streamStdinLines_frames_iff {system : StdinSystem}
    {sendFrame : S → Bytes → Except ShphError Unit × S} {session : S}
    {events : List StdinEvent}
    (hflag : ∀ check, system.shutdownRequested check = false)
    (hreads : ∀ kind, .failed kind ∉ events) :
    ((streamStdinLines system sendFrame session ⟨[], events, 0⟩).sent =
          (frames (lines (received events))).1 ∧
        (streamStdinLines system sendFrame session ⟨[], events, 0⟩).outcome =
          (frames (lines (received events))).2) ↔
      Carries sendFrame session (frames (lines (received events))).1 ∧
        Fits system.finish [] events :=
  exact_run hflag hreads (Nat.zero_le _)

end Stream

section Samples

/-- A session that takes every frame. -/
def takeAll (_ : Unit) (_ : Bytes) : Except ShphError Unit × Unit :=
  (.ok (), ())

theorem carries_takeAll (payloads : List Bytes) :
    Carries takeAll () payloads := by
  induction payloads with
  | nil => exact trivial
  | cons payload payloads ih => exact ⟨rfl, ih⟩

def undisturbed (finish : StdinEnd) : StdinSystem := ⟨fun _ => false, finish⟩

def word : Chunk := ⟨textBytes "abc", by decide, by decide⟩

def twoLines : Chunk := ⟨textBytes "a\r\nb", by decide, by decide⟩

theorem frameOf_text {line : Bytes} {text : String}
    (hlength : line.length ≤ maxStdinLineBytes)
    (htrim : trimLine line = textBytes text) :
    frameOf line = .ok (textBytes text) := by
  rw [frameOf_of_le hlength, decodeLine, htrim, fromUTF8?_textBytes]
  rfl

theorem frames_twoLines :
    frames (lines (received [.idle, .data twoLines])) =
      ([textBytes "a", textBytes "b"], .ok ()) := by
  have hlines : lines (received [.idle, .data twoLines]) =
      [textBytes "a\r\n", textBytes "b"] := by decide
  have hfirst : frameOf (textBytes "a\r\n") = .ok (textBytes "a") :=
    frameOf_text (by decide) (by decide)
  have hsecond : frameOf (textBytes "b") = .ok (textBytes "b") :=
    frameOf_text (by decide) (by decide)
  rw [hlines, frames, frames, hfirst, hsecond]
  rfl

theorem two_lines_are_sent :
    (streamStdinLines (undisturbed .hangup) takeAll ()
        ⟨[], [.idle, .data twoLines], 0⟩).sent =
      [textBytes "a", textBytes "b"] ∧
    (streamStdinLines (undisturbed .hangup) takeAll ()
        ⟨[], [.idle, .data twoLines], 0⟩).outcome = .ok () := by
  have hfits : Fits .hangup [] [.idle, .data twoLines] := by
    rw [fits_skip rfl, fits_data List.not_mem_nil]
    have hbytes : ([] ++ twoLines.bytes : Bytes) =
        textBytes "a\r" ++ newline :: textBytes "b" := by decide
    refine ⟨.inl (by decide), ?_⟩
    rw [hbytes, fits_line (by decide)]
    intro _
    rw [fits_nil (by decide)]
    intro hclosed
    cases hclosed
  have hrun := (@streamStdinLines_frames_iff Unit (undisturbed .hangup)
    takeAll () _ (fun _ => rfl) (by simp)).mpr ⟨carries_takeAll _, hfits⟩
  rw [frames_twoLines] at hrun
  exact hrun

/-- A last line without a newline is lost when the input is closed. -/
theorem last_line_is_lost :
    (streamStdinLines (undisturbed .closed) takeAll ()
        ⟨[], [.data word], 0⟩).sent = [] ∧
      frames (lines (received [.data word])) =
        ([textBytes "abc"], .ok ()) := by
  constructor
  · rw [streamStdinLines_eq rfl]
    rfl
  · have hlines : lines (received [.data word]) = [textBytes "abc"] := by
      decide
    have hframe : frameOf (textBytes "abc") = .ok (textBytes "abc") :=
      frameOf_text (by decide) (by decide)
    rw [hlines, frames, frames, hframe]

end Samples

end Shph.Stdin
