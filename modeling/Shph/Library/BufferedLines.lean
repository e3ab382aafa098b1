/-
Reading lines of bounded length through a buffered reader.  A refill asks the
file for at most one buffer and gets as many bytes as the system gives, so
that a line may arrive in any number of pieces.
-/
import Shph.Library.Bytes

namespace BufferedLines

open ByteCodec

def bufferCapacity : Nat := 8192

def newline : UInt8 := 10

/-- The unread part of the buffer and of the file behind it.  `readSize` is
how much the system gives when so many bytes of the file are left. -/
structure BufReader where
  buffer : Bytes
  file : Bytes
  readSize : Nat → Nat

namespace BufReader

def new (readSize : Nat → Nat) (file : Bytes) : BufReader :=
  ⟨[], file, readSize⟩

/-- Everything the reader has not handed out. -/
def pending (reader : BufReader) : Bytes := reader.buffer ++ reader.file

/-- A read gives at least one byte unless the file has ended. -/
def chunk (reader : BufReader) : Nat :=
  max 1 (min (reader.readSize reader.file.length) bufferCapacity)

def fillBuf (reader : BufReader) : BufReader :=
  if reader.buffer = [] then
    { reader with
      buffer := reader.file.take reader.chunk
      file := reader.file.drop reader.chunk }
  else reader

def consume (reader : BufReader) (count : Nat) : BufReader :=
  { reader with buffer := reader.buffer.drop count }

@[simp] theorem fillBuf_pending (reader : BufReader) :
    reader.fillBuf.pending = reader.pending := by
  unfold fillBuf
  split
  · rename_i hempty
    simp [pending, hempty]
  · rfl

theorem fillBuf_buffer_eq_nil {reader : BufReader}
    (hempty : reader.fillBuf.buffer = []) : reader.pending = [] := by
  unfold fillBuf at hempty
  split at hempty
  · rename_i hbuffer
    have hchunk : reader.chunk ≠ 0 := by
      have hpositive : 1 ≤ reader.chunk := Nat.le_max_left _ _
      omega
    rcases List.take_eq_nil_iff.mp hempty with hzero | hfile
    · exact absurd hzero hchunk
    · simp [pending, hbuffer, hfile]
  · contradiction

theorem pending_consume {reader : BufReader} {count : Nat}
    (hcount : count ≤ reader.buffer.length) :
    (reader.consume count).pending = reader.pending.drop count := by
  simp [pending, consume, List.drop_append, Nat.sub_eq_zero_of_le hcount]

end BufReader

/-- Up to the first newline of the buffer, and the newline with it. -/
def takeLength (buffer : Bytes) : Nat :=
  match buffer.findIdx? (· == newline) with
  | some index => index + 1
  | none => buffer.length

theorem takeLength_le (buffer : Bytes) : takeLength buffer ≤ buffer.length := by
  unfold takeLength
  split
  · rename_i index hindex
    exact (List.findIdx?_eq_some_iff_getElem.mp hindex).1
  · exact Nat.le_refl _

theorem takeLength_pos {buffer : Bytes} (hbuffer : buffer ≠ []) :
    0 < takeLength buffer := by
  unfold takeLength
  split
  · exact Nat.succ_pos _
  · exact List.length_pos_iff.mpr hbuffer

theorem pending_consume_takeLength (reader : BufReader) :
    (reader.fillBuf.consume (takeLength reader.fillBuf.buffer)).pending =
      reader.pending.drop (takeLength reader.fillBuf.buffer) := by
  rw [BufReader.pending_consume (takeLength_le _), BufReader.fillBuf_pending]

theorem take_append_pending (reader : BufReader) :
    reader.fillBuf.buffer.take (takeLength reader.fillBuf.buffer) ++
      (reader.fillBuf.consume (takeLength reader.fillBuf.buffer)).pending =
      reader.pending := by
  rw [← BufReader.fillBuf_pending reader, BufReader.pending,
    BufReader.pending, BufReader.consume, ← List.append_assoc,
    List.take_append_drop]

theorem pending_consume_lt {reader : BufReader}
    (hbuffer : reader.fillBuf.buffer ≠ []) :
    (reader.fillBuf.consume (takeLength reader.fillBuf.buffer)).pending.length <
      reader.pending.length := by
  have hpos := takeLength_pos hbuffer
  have hle := takeLength_le reader.fillBuf.buffer
  have hpending : reader.fillBuf.buffer.length ≤ reader.pending.length := by
    rw [← BufReader.fillBuf_pending, BufReader.pending, List.length_append]
    exact Nat.le_add_right _ _
  rw [pending_consume_takeLength, List.length_drop]
  omega

/-- Extend `line` up to and including the next newline, or to the end of the
file.  `none` if the line does not fit in `limit` bytes. -/
def readBoundedLine (limit : Nat) (reader : BufReader) (line : Bytes) :
    Option (Bytes × BufReader) :=
  let filled := reader.fillBuf
  if filled.buffer = [] then some (line, filled)
  else
    let take := takeLength filled.buffer
    if line.length + take > limit then none
    else
      let line := line ++ filled.buffer.take take
      let reader := filled.consume take
      if line.getLast? = some newline then some (line, reader)
      else readBoundedLine limit reader line
termination_by reader.pending.length
decreasing_by exact pending_consume_lt ‹_›

/-- No byte is lost or read twice. -/
theorem readBoundedLine_append {limit : Nat} {reader next : BufReader}
    {line result : Bytes}
    (hread : readBoundedLine limit reader line = some (result, next)) :
    result ++ next.pending = line ++ reader.pending := by
  fun_induction readBoundedLine limit reader line with
  | case1 reader line filled hbuffer =>
      rw [Option.some.injEq, Prod.mk.injEq] at hread
      rw [← hread.1, ← hread.2, BufReader.fillBuf_pending]
  | case2 reader line filled hbuffer take hlimit => simp at hread
  | case3 reader line filled hbuffer take hlimit line' reader' hlast =>
      rw [Option.some.injEq, Prod.mk.injEq] at hread
      rw [← hread.1, ← hread.2, List.append_assoc, take_append_pending]
  | case4 reader line filled hbuffer take hlimit line' reader' hlast ih =>
      rw [ih hread, List.append_assoc, take_append_pending]

theorem readBoundedLine_lt {limit : Nat} {reader next : BufReader}
    {line : Bytes} (hread : readBoundedLine limit reader [] = some (line, next))
    (hline : line ≠ []) : next.pending.length < reader.pending.length := by
  have hbytes := congrArg List.length (readBoundedLine_append hread)
  have hlength := List.length_pos_iff.mpr hline
  rw [List.length_append, List.nil_append] at hbytes
  omega

theorem findIdx?_of_notMem {buffer : Bytes} (hbuffer : newline ∉ buffer) :
    buffer.findIdx? (· == newline) = none := by
  rw [List.findIdx?_eq_none_iff]
  intro byte hbyte
  rw [beq_eq_false_iff_ne]
  rintro rfl
  exact hbuffer hbyte

theorem findIdx?_line {front : Bytes} (rest : Bytes)
    (hfront : newline ∉ front) :
    (front ++ newline :: rest).findIdx? (· == newline) =
      some front.length := by
  rw [List.findIdx?_append, findIdx?_of_notMem hfront]
  simp [List.findIdx?_cons]

theorem takeLength_of_notMem {buffer : Bytes} (hbuffer : newline ∉ buffer) :
    takeLength buffer = buffer.length := by
  rw [takeLength, findIdx?_of_notMem hbuffer]

theorem takeLength_append {front : Bytes} (rest : Bytes)
    (hfront : newline ∉ front) :
    takeLength (front ++ newline :: rest) = front.length + 1 := by
  rw [takeLength, findIdx?_line rest hfront]

/-- At the end of the file nothing is added. -/
theorem readBoundedLine_nil {limit : Nat} {reader : BufReader} (line : Bytes)
    (hpending : reader.pending = []) :
    readBoundedLine limit reader line = some (line, reader.fillBuf) := by
  have hbuffer : reader.fillBuf.buffer = [] := by
    rw [← BufReader.fillBuf_pending, BufReader.pending] at hpending
    exact (List.append_eq_nil_iff.mp hpending).1
  rw [readBoundedLine, if_pos hbuffer]

/-- A refilled buffer holds the whole rest of the line or a piece of it. -/
theorem fillBuf_split {reader : BufReader} {front rest : Bytes}
    (hpending : reader.pending = front ++ newline :: rest) :
    (∃ tail, reader.fillBuf.buffer = front ++ newline :: tail) ∨
      ∃ later, front = reader.fillBuf.buffer ++ later := by
  rw [← BufReader.fillBuf_pending, BufReader.pending,
    List.append_eq_append_iff] at hpending
  rcases hpending with ⟨later, hlater, -⟩ | ⟨tail, htail, hrest⟩
  · exact Or.inr ⟨later, hlater⟩
  · cases tail with
    | nil => exact Or.inr ⟨[], by simpa using htail.symm⟩
    | cons byte tail =>
        rw [List.cons_append, List.cons.injEq] at hrest
        exact Or.inl ⟨tail, by rw [htail, hrest.1]⟩

/-- However the refills cut it, a line is read whole exactly when it fits. -/
theorem readBoundedLine_line (limit : Nat) {reader : BufReader}
    {line front rest : Bytes} (hline : newline ∉ line)
    (hfront : newline ∉ front)
    (hpending : reader.pending = front ++ newline :: rest) :
    (line.length + (front.length + 1) ≤ limit ∧
      ∃ next, next.pending = rest ∧ readBoundedLine limit reader line =
        some (line ++ (front ++ [newline]), next)) ∨
    (limit < line.length + (front.length + 1) ∧
      readBoundedLine limit reader line = none) := by
  -- Every refill that does not reach the newline leaves less of the file.
  induction hlength : reader.pending.length using Nat.strongRecOn
    generalizing reader line front with
  | ind length ih =>
      have hbuffer : reader.fillBuf.buffer ≠ [] := by
        intro hempty
        rw [BufReader.fillBuf_buffer_eq_nil hempty] at hpending
        simp at hpending
      have hnext := pending_consume_takeLength reader
      have hless := pending_consume_lt hbuffer
      rw [readBoundedLine, if_neg hbuffer]
      rcases fillBuf_split hpending with ⟨tail, htail⟩ | ⟨later, hlater⟩
      · have htake : takeLength reader.fillBuf.buffer = front.length + 1 := by
          rw [htail, takeLength_append tail hfront]
        have hpiece : reader.fillBuf.buffer.take (front.length + 1) =
            front ++ [newline] := by
          rw [htail, List.take_append,
            List.take_of_length_le (Nat.le_succ front.length)]
          simp
        rw [htake] at hnext ⊢
        by_cases hlimit : limit < line.length + (front.length + 1)
        · exact Or.inr ⟨hlimit, if_pos hlimit⟩
        · refine Or.inl ⟨Nat.le_of_not_lt hlimit,
            reader.fillBuf.consume (front.length + 1), ?_, ?_⟩
          · rw [hnext, hpending, List.drop_append]
            simp
          · change (if limit < line.length + (front.length + 1) then none
              else _) = _
            rw [if_neg hlimit, hpiece]
            simp
      · have hpiece : newline ∉ reader.fillBuf.buffer := fun hmem =>
          hfront (hlater ▸ List.mem_append_left later hmem)
        have htake := takeLength_of_notMem hpiece
        rw [htake] at hnext hless ⊢
        have hrest : (reader.fillBuf.consume
            reader.fillBuf.buffer.length).pending = later ++ newline :: rest := by
          rw [hnext, hpending, hlater, List.append_assoc, List.drop_left]
        have hline' : newline ∉ line ++ reader.fillBuf.buffer := by
          simp [hline, hpiece]
        have hlast : (line ++ reader.fillBuf.buffer).getLast? ≠
            some newline := fun hsome =>
          hline' (List.mem_of_getLast? hsome)
        have hcount : front.length =
            reader.fillBuf.buffer.length + later.length := by
          rw [hlater, List.length_append]
        by_cases hlimit : limit < line.length + reader.fillBuf.buffer.length
        · exact Or.inr ⟨by omega, if_pos hlimit⟩
        · rw [if_neg hlimit, List.take_length, if_neg hlast]
          have hstep := ih _ (hlength ▸ hless) hline'
            (fun hmem => hfront (hlater ▸ List.mem_append_right _ hmem))
            hrest rfl
          rw [List.length_append] at hstep
          rw [hcount, hlater]
          simpa [Nat.add_assoc] using hstep

/-- A last line without a newline is read whole exactly when it fits. -/
theorem readBoundedLine_unfinished {limit : Nat} {reader : BufReader}
    {line : Bytes} (hline : newline ∉ line) (hlength : line.length ≤ limit)
    (hpending : newline ∉ reader.pending) :
    (line.length + reader.pending.length ≤ limit ∧
      ∃ next, next.pending = [] ∧ readBoundedLine limit reader line =
        some (line ++ reader.pending, next)) ∨
    (limit < line.length + reader.pending.length ∧
      readBoundedLine limit reader line = none) := by
  induction hcount : reader.pending.length using Nat.strongRecOn
    generalizing reader line with
  | ind count ih =>
      rw [readBoundedLine]
      by_cases hbuffer : reader.fillBuf.buffer = []
      · have hempty := BufReader.fillBuf_buffer_eq_nil hbuffer
        rw [if_pos hbuffer, ← hcount, hempty]
        refine Or.inl ⟨hlength, reader.fillBuf, ?_, by simp⟩
        rw [BufReader.fillBuf_pending, hempty]
      · have hsplit := take_append_pending reader
        have hless := pending_consume_lt hbuffer
        have hpiece : newline ∉ reader.fillBuf.buffer := by
          intro hmem
          apply hpending
          rw [← BufReader.fillBuf_pending, BufReader.pending]
          exact List.mem_append_left _ hmem
        rw [takeLength_of_notMem hpiece] at hsplit hless
        rw [List.take_length] at hsplit
        have hlater : newline ∉ (reader.fillBuf.consume
            reader.fillBuf.buffer.length).pending := fun hmem =>
          hpending (hsplit ▸ List.mem_append_right _ hmem)
        have hbytes := congrArg List.length hsplit
        rw [List.length_append] at hbytes
        have hline' : newline ∉ line ++ reader.fillBuf.buffer := by
          simp [hline, hpiece]
        have hlast : (line ++ reader.fillBuf.buffer).getLast? ≠
            some newline := fun hsome =>
          hline' (List.mem_of_getLast? hsome)
        rw [if_neg hbuffer, takeLength_of_notMem hpiece]
        by_cases hlimit : limit < line.length + reader.fillBuf.buffer.length
        · exact Or.inr ⟨by omega, if_pos hlimit⟩
        · rw [if_neg hlimit, List.take_length, if_neg hlast]
          have hstep := ih _ (hcount ▸ hless) hline'
            (by rw [List.length_append]; omega) hlater rfl
          rw [List.length_append, List.append_assoc, hsplit, Nat.add_assoc,
            hbytes, hcount] at hstep
          exact hstep

/-- The lines of a file, each with its newline.  The last one may lack it. -/
def lines : Bytes → List Bytes
  | [] => []
  | byte :: rest =>
      if byte = newline then [newline] :: lines rest
      else
        match lines rest with
        | [] => [[byte]]
        | line :: others => (byte :: line) :: others

theorem lines_eq_nil_iff (bytes : Bytes) : lines bytes = [] ↔ bytes = [] := by
  cases bytes with
  | nil => simp [lines]
  | cons byte rest =>
      simp only [lines, reduceCtorEq, iff_false]
      split
      · simp
      · split <;> simp

theorem lines_line {front : Bytes} (hfront : newline ∉ front) (rest : Bytes) :
    lines (front ++ newline :: rest) = (front ++ [newline]) :: lines rest := by
  induction front with
  | nil => simp [lines]
  | cons byte front ih =>
      rw [List.mem_cons, not_or] at hfront
      rw [List.cons_append, lines, if_neg (Ne.symm hfront.1), ih hfront.2]
      rfl

theorem lines_unfinished {bytes : Bytes} (hbytes : newline ∉ bytes)
    (hnonempty : bytes ≠ []) : lines bytes = [bytes] := by
  induction bytes with
  | nil => contradiction
  | cons byte rest ih =>
      rw [List.mem_cons, not_or] at hbytes
      rw [lines, if_neg (Ne.symm hbytes.1)]
      by_cases hrest : rest = []
      · rw [hrest]
        rfl
      · rw [ih hbytes.2 hrest]

/-- After a newline the lines start afresh. -/
theorem lines_append {front : Bytes}
    (hfront : front = [] ∨ front.getLast? = some newline) (rest : Bytes) :
    lines (front ++ rest) = lines front ++ lines rest := by
  induction front with
  | nil => rfl
  | cons byte front ih =>
      by_cases hempty : front = []
      · subst hempty
        have hbyte : byte = newline := by simpa using hfront
        simp [hbyte, lines]
      · have hlast : front.getLast? = some newline := by
          simpa [List.getLast?_cons, Option.getD_eq_iff, hempty] using hfront
        have hrest := ih (Or.inr hlast)
        rw [List.cons_append, lines, lines, hrest]
        split
        · rfl
        · cases hlines : lines front with
          | nil => exact absurd ((lines_eq_nil_iff front).mp hlines) hempty
          | cons line others => rfl

/-- One read takes the first line of what is left, if it fits. -/
theorem readBoundedLine_first (limit : Nat) {reader : BufReader}
    (hpending : reader.pending ≠ []) :
    ∃ line rest, line ≠ [] ∧ lines reader.pending = line :: lines rest ∧
      ((line.length ≤ limit ∧ ∃ next, next.pending = rest ∧
          readBoundedLine limit reader [] = some (line, next)) ∨
        (limit < line.length ∧ readBoundedLine limit reader [] = none)) := by
  by_cases hmem : newline ∈ reader.pending
  · obtain ⟨front, rest, hsplit, hfront⟩ := List.eq_append_cons_of_mem hmem
    refine ⟨front ++ [newline], rest, by simp, ?_, ?_⟩
    · rw [hsplit, lines_line hfront]
    · simpa using readBoundedLine_line limit List.not_mem_nil hfront hsplit
  · refine ⟨reader.pending, [], hpending, ?_, ?_⟩
    · rw [lines_unfinished hmem hpending]
      rfl
    · simpa using readBoundedLine_unfinished List.not_mem_nil
        (Nat.zero_le limit) hmem

/-- What stands after the last newline. -/
def unfinished (file : Bytes) : Bytes := file.rtakeWhile (· ≠ newline)

def finished (file : Bytes) : Bytes := file.rdropWhile (· ≠ newline)

theorem finished_append_unfinished (file : Bytes) :
    finished file ++ unfinished file = file :=
  List.rdropWhile_append_rtakeWhile

theorem newline_notMem_unfinished (file : Bytes) :
    newline ∉ unfinished file := by
  intro hmem
  simpa using List.mem_rtakeWhile_imp hmem

theorem finished_last (file : Bytes) :
    finished file = [] ∨ (finished file).getLast? = some newline := by
  by_cases hempty : finished file = []
  · exact Or.inl hempty
  · have hlast := List.rdropWhile_last_not (· ≠ newline) file hempty
    have hnewline : (finished file).getLast hempty = newline :=
      of_not_not (mt decide_eq_true hlast)
    rw [List.getLast?_eq_some_getLast hempty, hnewline]
    exact Or.inr rfl

theorem unfinished_line (front rest : Bytes) :
    unfinished (front ++ newline :: rest) = unfinished rest := by
  induction rest using List.reverseRecOn with
  | nil =>
      rw [unfinished, unfinished, List.rtakeWhile_nil]
      exact List.rtakeWhile_concat_neg _ _ _ (by decide)
  | append_singleton rest byte ih =>
      rw [← List.cons_append, ← List.append_assoc, unfinished, unfinished,
        List.rtakeWhile_concat, List.rtakeWhile_concat]
      rw [unfinished, unfinished] at ih
      rw [ih]

theorem finished_line (front rest : Bytes) :
    finished (front ++ newline :: rest) =
      front ++ newline :: finished rest := by
  have hwhole := finished_append_unfinished (front ++ newline :: rest)
  rw [unfinished_line] at hwhole
  apply List.append_cancel_right
  rw [hwhole, List.append_assoc, List.cons_append,
    finished_append_unfinished]

theorem unfinished_of_notMem {bytes : Bytes} (hbytes : newline ∉ bytes) :
    unfinished bytes = bytes := by
  rw [unfinished, List.rtakeWhile_eq_self_iff]
  intro byte hbyte
  rw [decide_eq_true_eq]
  rintro rfl
  exact hbytes hbyte

theorem finished_of_notMem {bytes : Bytes} (hbytes : newline ∉ bytes) :
    finished bytes = [] := by
  have hwhole := finished_append_unfinished bytes
  rw [unfinished_of_notMem hbytes] at hwhole
  exact List.append_left_eq_self.mp hwhole

/-- The line appended to a file joins what stands after its last newline. -/
theorem lines_append_line (file : Bytes) {text : Bytes}
    (htext : newline ∉ text) :
    lines (file ++ (text ++ [newline])) =
      lines (finished file) ++ [unfinished file ++ (text ++ [newline])] := by
  have hjoined : newline ∉ unfinished file ++ text := by
    simp [newline_notMem_unfinished, htext]
  have hbytes : file ++ (text ++ [newline]) =
      finished file ++ ((unfinished file ++ text) ++ [newline]) := by
    conv_lhs => rw [← finished_append_unfinished file]
    simp
  rw [hbytes, lines_append (finished_last file), lines_line hjoined]
  simp [lines]

/-- In UTF-8 only the newline character has a newline byte. -/
theorem newline_notMem_utf8EncodeChar {char : Char} (hchar : char ≠ '\n') :
    newline ∉ String.utf8EncodeChar char := by
  have hvalue : char.val.toNat ≠ 10 := by
    intro heq
    exact hchar (Char.ext (UInt32.toNat_inj.mp heq))
  have hbyte (number : Nat) (hnumber : number % 256 ≠ 10) :
      newline ≠ UInt8.ofNat number := by
    intro heq
    have htoNat := congrArg UInt8.toNat heq
    rw [UInt8.toNat_ofNat'] at htoNat
    exact hnumber htoNat.symm
  unfold String.utf8EncodeChar
  intro hmem
  dsimp only at hmem
  split_ifs at hmem <;>
    simp only [List.mem_cons, List.not_mem_nil, or_false] at hmem
  · exact hbyte _ (by omega) hmem
  · rcases hmem with h | h
    · exact hbyte _ (by omega) h
    · exact hbyte _ (by omega) h
  · rcases hmem with h | h | h
    · exact hbyte _ (by omega) h
    · exact hbyte _ (by omega) h
    · exact hbyte _ (by omega) h
  · rcases hmem with h | h | h | h
    · exact hbyte _ (by omega) h
    · exact hbyte _ (by omega) h
    · exact hbyte _ (by omega) h
    · exact hbyte _ (by omega) h

theorem newline_notMem_toUTF8 {text : String} (htext : '\n' ∉ text.toList) :
    newline ∉ text.toUTF8.data.toList := by
  have hbytes : text.toUTF8.data.toList =
      text.toList.flatMap String.utf8EncodeChar := by
    rw [String.toUTF8_eq_toByteArray, ← String.utf8Encode_toList]
    simp [List.utf8Encode]
  rw [hbytes, List.mem_flatMap]
  rintro ⟨char, hchar, hmem⟩
  refine newline_notMem_utf8EncodeChar ?_ hmem
  rintro rfl
  exact htext hchar

end BufferedLines
