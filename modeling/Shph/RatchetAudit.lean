/-
The ratchet audit journal: one line of JSON for every event, appended to a
file that is then pruned to its last entries.  The journal is read back line
by line through a buffer, under limits for the file, a line and the number of
entries.
-/
import Shph.Handshake
import Shph.Library.BufferedLines
import Shph.Library.FlatJson

namespace Shph

open ByteCodec BufferedLines StatefulRun

def maxAuditFileBytes : Nat := 8 * 1024 * 1024

def maxAuditLineBytes : Nat := 64 * 1024

def maxAuditEntries : Nat := 100000

structure RatchetAuditConfig where
  maxEntries : Nat
deriving Repr, DecidableEq

structure RatchetAuditRecord where
  tsMs : UInt64
  localFingerprint : String
  peerFingerprint : String
  transcriptHash : String
  role : String
  transport : String
deriving Repr, DecidableEq

/-- The JSON form of a record.  The text is one compact object and control
characters inside its strings are escaped. -/
structure AuditCodec where
  toText : RatchetAuditRecord → String
  fromText : String → Except String RatchetAuditRecord
  fromText_toText : ∀ record, fromText (toText record) = .ok record
  toText_object : ∀ record, ∃ fields,
    (toText record).toList = '{' :: (fields ++ ['}'])
  toText_newline : ∀ record, '\n' ∉ (toText record).toList

/-- What `char::is_whitespace` accepts. -/
def isWhitespace (char : Char) : Bool :=
  let code := char.toNat
  (9 ≤ code && code ≤ 13) || code == 0x20 || code == 0x85 || code == 0xA0 ||
    code == 0x1680 || (0x2000 ≤ code && code ≤ 0x200A) || code == 0x2028 ||
    code == 0x2029 || code == 0x202F || code == 0x205F || code == 0x3000

def trimLineEnd (text : String) : String :=
  String.ofList (text.toList.rdropWhile fun char => char = '\r' ∨ char = '\n')

/-- `trim().is_empty()`. -/
def isBlank (text : String) : Bool := text.toList.all isWhitespace

/-- The loop both readers of the journal share: every line that is not blank
goes to `body` with the state so far. -/
def forLines {σ : Type} (body : σ → String → Except ShphError σ) (state : σ)
    (reader : BufReader) : Except ShphError σ :=
  match hread : readBoundedLine maxAuditLineBytes reader [] with
  | none => .error (.io .invalidData)
  | some (line, next) =>
      if hend : line = [] then .ok state
      else
        have : next.pending.length < reader.pending.length :=
          readBoundedLine_lt hread hend
        match String.fromUTF8? ⟨line.toArray⟩ with
        | none => .error (.protocol "audit entry is not valid UTF-8")
        | some text =>
            if isBlank (trimLineEnd text) then forLines body state next
            else
              match body state (trimLineEnd text) with
              | .error error => .error error
              | .ok state => forLines body state next
termination_by reader.pending.length

/-- What one line holds: a blank one nothing, any other its text. -/
def lineText (line : Bytes) : Except ShphError (Option String) := do
  ensure (line.length ≤ maxAuditLineBytes) (.io .invalidData)
  match String.fromUTF8? ⟨line.toArray⟩ with
  | none => .error (.protocol "audit entry is not valid UTF-8")
  | some text =>
      return if isBlank (trimLineEnd text) then none
        else some (trimLineEnd text)

/-- What the loop does with one line. -/
def visitLine {σ : Type} (body : σ → String → Except ShphError σ) (state : σ)
    (line : Bytes) : Except ShphError σ := do
  match ← lineText line with
  | none => return state
  | some text => body state text

/-- `now_unix_ms`: the milliseconds since the epoch, unless the system clock
stands before it. -/
def nowUnixMs (clock : Option Nat) : Except ShphError UInt64 :=
  okOr (clock.map UInt64.ofNat) (.internal "system time before unix epoch")

section Journal

variable (codec : AuditCodec)

def auditLine (record : RatchetAuditRecord) : Bytes :=
  textBytes (codec.toText record ++ "\n")

def journalBytes (records : List RatchetAuditRecord) : Bytes :=
  records.flatMap (auditLine codec)

def parseRecord (line : String) : Except ShphError RatchetAuditRecord :=
  match codec.fromText line with
  | .ok record => .ok record
  | .error message => .error (.protocol s!"invalid audit entry: {message}")

/-- Opening for append creates the file. -/
def writeJsonlLine (journal : Option Bytes) (record : RatchetAuditRecord) :
    Option Bytes :=
  some (journal.getD [] ++ auditLine codec record)

/-- One entry of the ring that holds the last `keep` records. -/
def pushRing (keep : Nat) (ring : List RatchetAuditRecord) (line : String) :
    Except ShphError (List RatchetAuditRecord) := do
  let record ← parseRecord codec line
  let ring := ring ++ [record]
  return if ring.length > keep then ring.tail else ring

/-- A journal with fewer than `keep` records stays as it is; any other one is
replaced by the records of the ring. -/
def pruneJsonl (readSize : Nat → Nat) (clock : Option Nat)
    (journal : Option Bytes) (maxEntries : Nat) :
    Except ShphError (Option Bytes) :=
  match journal with
  | none => .ok none
  | some file => do
      ensure (file.length ≤ maxAuditFileBytes) (.resourceExhausted
        "ratchet audit journal exceeds the 8 MiB safety limit")
      let keep := max 1 (min maxEntries maxAuditEntries)
      let records ← forLines (pushRing codec keep) [] (.new readSize file)
      if records.length < keep then return some file
      else
        -- The second reading of the clock names the temporary file.
        let _ ← nowUnixMs clock
        return some (journalBytes codec records)

/-- One call: the event, the two readings of the clock and how the system cuts
the reads of the pruning pass. -/
structure AuditAppend where
  localFingerprint : String
  peerFingerprint : String
  transcriptHash : String
  role : String
  transport : String
  clock : Option Nat
  pruneClock : Option Nat
  readSize : Nat → Nat

def AuditAppend.record (call : AuditAppend) (tsMs : UInt64) :
    RatchetAuditRecord where
  tsMs := tsMs
  localFingerprint := call.localFingerprint
  peerFingerprint := call.peerFingerprint
  transcriptHash := call.transcriptHash
  role := call.role
  transport := call.transport

/-- A failed pruning pass leaves the appended line in the journal. -/
def appendRatchetAuditEvent (policy : RatchetAuditConfig)
    (journal : Option Bytes) (call : AuditAppend) :
    Except ShphError Unit × Option Bytes :=
  let maxEntries := max policy.maxEntries 1
  match nowUnixMs call.clock with
  | .error error => (.error error, journal)
  | .ok tsMs =>
      let journal := writeJsonlLine codec journal (call.record tsMs)
      match pruneJsonl codec call.readSize call.pruneClock journal
        maxEntries with
      | .error error => (.error error, journal)
      | .ok journal => (.ok (), journal)

def pushEntry (entries : List RatchetAuditRecord) (line : String) :
    Except ShphError (List RatchetAuditRecord) := do
  ensure (entries.length < maxAuditEntries) (.resourceExhausted
    "ratchet audit journal contains too many entries")
  let record ← parseRecord codec line
  return entries ++ [record]

def readRatchetAuditEvents (readSize : Nat → Nat) (journal : Option Bytes) :
    Except ShphError (List RatchetAuditRecord) :=
  match journal with
  | none => .ok []
  | some file => do
      ensure (file.length ≤ maxAuditFileBytes) (.resourceExhausted
        "ratchet audit journal exceeds the 8 MiB safety limit")
      forLines (pushEntry codec) [] (.new readSize file)

/-- What a reader of the journal does with one stored record. -/
def visitRecord {σ : Type} (body : σ → String → Except ShphError σ) (state : σ)
    (record : RatchetAuditRecord) : Except ShphError σ := do
  ensure ((auditLine codec record).length ≤ maxAuditLineBytes)
    (.io .invalidData)
  body state (codec.toText record)

variable {codec : AuditCodec}

theorem auditLine_eq (record : RatchetAuditRecord) :
    auditLine codec record =
      textBytes (codec.toText record) ++ [newline] := by
  unfold auditLine textBytes
  rw [String.toUTF8_eq_toByteArray, String.toByteArray_append]
  simp only [ByteArray.data_append, Array.toList_append]
  rfl

theorem newline_notMem_text (record : RatchetAuditRecord) :
    newline ∉ textBytes (codec.toText record) :=
  newline_notMem_toUTF8 (codec.toText_newline record)

theorem trimLineEnd_newline (text : String) :
    trimLineEnd (text ++ "\n") = trimLineEnd text := by
  unfold trimLineEnd
  rw [String.toList_append]
  exact congrArg _ (List.rdropWhile_concat_pos _ _ _ (by decide))

/-- An entry at the end of a line loses nothing. -/
theorem trimLineEnd_text (front : String) (record : RatchetAuditRecord) :
    trimLineEnd (front ++ codec.toText record) =
      front ++ codec.toText record := by
  obtain ⟨fields, hfields⟩ := codec.toText_object record
  have htext : (front ++ codec.toText record).toList =
      (front.toList ++ '{' :: fields) ++ ['}'] := by
    simp [String.toList_append, hfields]
  unfold trimLineEnd
  rw [htext, List.rdropWhile_concat_neg _ _ _ (by decide), ← htext,
    String.ofList_toList]

theorem isBlank_text (front : String) (record : RatchetAuditRecord) :
    isBlank (front ++ codec.toText record) = false := by
  obtain ⟨fields, hfields⟩ := codec.toText_object record
  have hbrace : isWhitespace '{' = false := by decide
  rw [isBlank, String.toList_append, hfields, List.all_append, List.all_cons,
    hbrace, Bool.false_and, Bool.and_false]

/-- What a line holds whose end is an entry. -/
theorem lineText_text (front : String) (record : RatchetAuditRecord) :
    lineText (textBytes front ++ auditLine codec record) = do
      ensure ((textBytes front ++ auditLine codec record).length ≤
        maxAuditLineBytes) (.io .invalidData)
      return some (front ++ codec.toText record) := by
  have hbytes : textBytes front ++ auditLine codec record =
      textBytes (front ++ codec.toText record ++ "\n") := by
    rw [auditLine, ← textBytes_append, String.append_assoc]
  rw [lineText, hbytes, fromUTF8?_textBytes]
  simp only [trimLineEnd_newline, trimLineEnd_text, isBlank_text]
  rfl

section ForLines

variable {σ : Type} {body : σ → String → Except ShphError σ} {state : σ}
  {reader next : BufReader}

theorem forLines_end (hpending : reader.pending = []) :
    forLines body state reader = .ok state := by
  rw [forLines]
  split
  · rename_i hread
    rw [readBoundedLine_nil [] hpending] at hread
    simp at hread
  · rename_i line next hread
    rw [readBoundedLine_nil [] hpending, Option.some.injEq,
      Prod.mk.injEq] at hread
    rw [dif_pos hread.1.symm]

theorem forLines_tooLong
    (hread : readBoundedLine maxAuditLineBytes reader [] = none) :
    forLines body state reader = .error (.io .invalidData) := by
  rw [forLines]
  split
  · rfl
  · rename_i hsome
    rw [hread] at hsome
    simp at hsome

theorem forLines_next {line : Bytes} (hline : line ≠ [])
    (hfits : line.length ≤ maxAuditLineBytes)
    (hread : readBoundedLine maxAuditLineBytes reader [] =
      some (line, next)) :
    forLines body state reader =
      visitLine body state line >>= fun state =>
        forLines body state next := by
  rw [forLines]
  split
  · rename_i hnone
    rw [hread] at hnone
    simp at hnone
  · rename_i line' other hsome
    rw [hread, Option.some.injEq, Prod.mk.injEq] at hsome
    obtain ⟨rfl, rfl⟩ := hsome
    rw [dif_neg hline, visitLine, lineText, ensure, if_pos hfits]
    cases String.fromUTF8? ⟨line.toArray⟩ with
    | none => rfl
    | some text =>
        by_cases hblank : isBlank (trimLineEnd text) = true
        · simp only [hblank, if_true]
          rfl
        · simp only [hblank]
          cases hbody : body state (trimLineEnd text) with
          | error error => simp [bind, Except.bind, hbody, pure, Except.pure]
          | ok state => simp [bind, Except.bind, hbody, pure, Except.pure]

/-- Reading visits the lines of the file in order, however the file is cut
into reads. -/
theorem forLines_lines (reader : BufReader) (state : σ) :
    forLines body state reader =
      (lines reader.pending).foldlM (visitLine body) state := by
  induction hlength : reader.pending.length using Nat.strongRecOn
    generalizing reader state with
  | ind length ih =>
      by_cases hempty : reader.pending = []
      · rw [forLines_end hempty, hempty]
        rfl
      · obtain ⟨line, rest, hline, hlines, hread⟩ :=
          readBoundedLine_first maxAuditLineBytes hempty
        rw [hlines, List.foldlM_cons]
        rcases hread with ⟨hfits, next, rfl, hread⟩ | ⟨hlong, hread⟩
        · have hless := readBoundedLine_lt hread hline
          rw [forLines_next hline hfits hread]
          exact congrArg _ (funext fun state =>
            ih _ (hlength ▸ hless) next state rfl)
        · rw [forLines_tooLong hread, visitLine, lineText, ensure,
            if_neg (Nat.not_le.mpr hlong)]
          rfl

theorem visitLine_auditLine (record : RatchetAuditRecord) :
    visitLine body state (auditLine codec record) =
      visitRecord codec body state record := by
  have htext : lineText (textBytes "" ++ auditLine codec record) = _ :=
    lineText_text "" record
  rw [String.empty_append, show textBytes "" = [] from rfl,
    List.nil_append] at htext
  rw [visitLine, visitRecord, htext, bind_assoc]
  rfl

theorem lines_journalBytes (records : List RatchetAuditRecord) :
    lines (journalBytes codec records) = records.map (auditLine codec) := by
  induction records with
  | nil => rfl
  | cons record records ih =>
      rw [journalBytes, List.flatMap_cons, auditLine_eq, List.append_assoc,
        List.singleton_append, lines_line (newline_notMem_text record),
        ← auditLine_eq, List.map_cons]
      exact congrArg _ ih

/-- Reading a stored journal visits its records in order. -/
theorem forLines_journal (reader : BufReader)
    {records : List RatchetAuditRecord}
    (hpending : reader.pending = journalBytes codec records) :
    forLines body state reader =
      records.foldlM (visitRecord codec body) state := by
  rw [forLines_lines, hpending, lines_journalBytes, List.foldlM_map]
  congr 1
  funext state record
  exact visitLine_auditLine record

end ForLines

/-- The lines a reader accepts. -/
def LinesFit (codec : AuditCodec) (records : List RatchetAuditRecord) : Prop :=
  ∀ record ∈ records, (auditLine codec record).length ≤ maxAuditLineBytes

theorem parseRecord_text (record : RatchetAuditRecord) :
    parseRecord codec (codec.toText record) = .ok record := by
  rw [parseRecord, codec.fromText_toText]

/-- The last `keep` of a list do not depend on what was cut off earlier. -/
theorem rtake_rtake_append {α : Type} (keep : Nat) (front rest : List α) :
    (front.rtake keep ++ rest).rtake keep = (front ++ rest).rtake keep := by
  rw [List.rtake_eq_reverse_take_reverse, List.rtake_eq_reverse_take_reverse,
    List.rtake_eq_reverse_take_reverse, List.reverse_append,
    List.reverse_append, List.reverse_reverse, List.take_append,
    List.take_append, List.take_take, Nat.min_eq_left (Nat.sub_le _ _)]

theorem pushRing_text {keep : Nat} {ring : List RatchetAuditRecord}
    (hring : ring.length ≤ keep) (record : RatchetAuditRecord) :
    pushRing codec keep ring (codec.toText record) =
      .ok ((ring ++ [record]).rtake keep) := by
  have hlength : (ring ++ [record]).length = ring.length + 1 := by simp
  rw [pushRing, parseRecord_text, List.rtake, hlength]
  change Except.ok _ = _
  congr 1
  split
  · rename_i hover
    rw [hlength] at hover
    rw [show ring.length + 1 - keep = 1 by omega, List.drop_one]
  · rename_i hroom
    rw [hlength] at hroom
    rw [Nat.sub_eq_zero_of_le (by omega), List.drop_zero]

/-- The pruning pass ends with the last `keep` records, unless a line is too
long. -/
theorem foldlM_pushRing {keep : Nat} {ring result : List RatchetAuditRecord}
    (hring : ring.length ≤ keep) (records : List RatchetAuditRecord) :
    records.foldlM (visitRecord codec (pushRing codec keep)) ring =
        .ok result ↔
      LinesFit codec records ∧ result = (ring ++ records).rtake keep := by
  induction records generalizing ring with
  | nil =>
      have hall : ring.rtake keep = ring := by
        rw [List.rtake, Nat.sub_eq_zero_of_le hring, List.drop_zero]
      simp [LinesFit, pure, Except.pure, hall, eq_comm]
  | cons record records ih =>
      have hnext : ((ring ++ [record]).rtake keep).length ≤ keep := by
        rw [List.rtake, List.length_drop]
        omega
      have hrest := ih hnext
      rw [rtake_rtake_append, List.append_assoc,
        List.singleton_append] at hrest
      rw [List.foldlM_cons, visitRecord, ensure, LinesFit,
        List.forall_mem_cons]
      by_cases hline : (auditLine codec record).length ≤ maxAuditLineBytes
      · rw [if_pos hline]
        change (pushRing codec keep ring (codec.toText record) >>= _) = _ ↔ _
        rw [pushRing_text hring]
        exact hrest.trans (by simp [LinesFit, hline])
      · rw [if_neg hline]
        exact iff_of_false (fun hok => nomatch hok) fun hfit => hline hfit.1.1

theorem foldlM_pushEntry {entries : List RatchetAuditRecord}
    {records : List RatchetAuditRecord} (hfit : LinesFit codec records)
    (hcount : entries.length + records.length ≤ maxAuditEntries) :
    records.foldlM (visitRecord codec (pushEntry codec)) entries =
      .ok (entries ++ records) := by
  induction records generalizing entries with
  | nil => simp [pure, Except.pure]
  | cons record records ih =>
      rw [LinesFit, List.forall_mem_cons] at hfit
      rw [List.length_cons] at hcount
      have hcount' : (entries ++ [record]).length + records.length ≤
          maxAuditEntries := by
        rw [List.length_append, List.length_singleton]
        omega
      have hrest := ih hfit.2 hcount'
      rw [List.append_assoc, List.singleton_append] at hrest
      rw [List.foldlM_cons, visitRecord, ensure, if_pos hfit.1]
      change (pushEntry codec entries (codec.toText record) >>= _) = _
      rw [pushEntry, ensure, if_pos (by omega), parseRecord_text]
      exact hrest

/-- How many records a policy keeps. -/
def RatchetAuditConfig.keep (policy : RatchetAuditConfig) : Nat :=
  max 1 (min policy.maxEntries maxAuditEntries)

/-- What a journal that was appended to by this code looks like. -/
structure Stores (codec : AuditCodec) (records : List RatchetAuditRecord)
    (journal : Option Bytes) : Prop where
  bytes : journal.getD [] = journalBytes codec records
  size : (journalBytes codec records).length ≤ maxAuditFileBytes
  lines : LinesFit codec records

theorem journalBytes_append (front rest : List RatchetAuditRecord) :
    journalBytes codec (front ++ rest) =
      journalBytes codec front ++ journalBytes codec rest :=
  List.flatMap_append

theorem journalBytes_rtake_length_le (records : List RatchetAuditRecord)
    (keep : Nat) : (journalBytes codec (records.rtake keep)).length ≤
      (journalBytes codec records).length := by
  have hsplit : records = records.take (records.length - keep) ++
      records.rtake keep := (List.take_append_drop _ _).symm
  conv_rhs => rw [hsplit, journalBytes_append, List.length_append]
  exact Nat.le_add_left _ _

/-- Cutting off the oldest records keeps the limits. -/
theorem Stores.rtake {records : List RatchetAuditRecord}
    {journal : Option Bytes} (hstores : Stores codec records journal)
    (keep : Nat) : Stores codec (records.rtake keep)
      (some (journalBytes codec (records.rtake keep))) where
  bytes := rfl
  size := Nat.le_trans (journalBytes_rtake_length_le records keep)
    hstores.size
  lines := fun record hmem => hstores.lines record (List.mem_of_mem_drop hmem)

theorem readRatchetAuditEvents_of_stores
    {records : List RatchetAuditRecord} {journal : Option Bytes}
    (hstores : Stores codec records journal)
    (hcount : records.length ≤ maxAuditEntries) (readSize : Nat → Nat) :
    readRatchetAuditEvents codec readSize journal = .ok records := by
  have hfile (file : Bytes) (hbytes : file = journalBytes codec records) :
      readRatchetAuditEvents codec readSize (some file) = .ok records := by
    rw [readRatchetAuditEvents, ensure, if_pos (hbytes ▸ hstores.size)]
    change forLines _ _ _ = _
    rw [forLines_journal (.new readSize file) hbytes,
      foldlM_pushEntry hstores.lines (by simpa using hcount)]
    rfl
  cases journal with
  | some file => exact hfile file hstores.bytes
  | none =>
      cases records with
      | nil => rfl
      | cons record records =>
          have hbytes := hstores.bytes
          simp [journalBytes, auditLine_eq] at hbytes

theorem rtake_length_lt {α : Type} {keep : Nat} (items : List α) :
    (items.rtake keep).length < keep ↔ items.length < keep := by
  rw [List.rtake, List.length_drop]
  omega

/-- When pruning succeeds, and with what, from the pass over the lines. -/
theorem pruneJsonl_of_pass (readSize : Nat → Nat) (clock : Option Nat)
    (file : Bytes) (policy : RatchetAuditConfig) (journal : Option Bytes) :
    pruneJsonl codec readSize clock (some file) (max policy.maxEntries 1) =
        .ok journal ↔
      file.length ≤ maxAuditFileBytes ∧
        ∃ ring, forLines (pushRing codec policy.keep) []
            (.new readSize file) = .ok ring ∧
          (ring.length < policy.keep ∧ journal = some file ∨
            policy.keep ≤ ring.length ∧ clock.isSome = true ∧
              journal = some (journalBytes codec ring)) := by
  have hkeep : max 1 (min (max policy.maxEntries 1) maxAuditEntries) =
      policy.keep := by
    unfold RatchetAuditConfig.keep maxAuditEntries
    omega
  unfold pruneJsonl
  simp only [hkeep, bind_eq_ok_iff, ensure_eq_ok_iff]
  constructor
  · rintro ⟨-, hsize, ring, hring, hjournal⟩
    refine ⟨hsize, ring, hring, ?_⟩
    by_cases hfew : ring.length < policy.keep
    · rw [if_pos hfew] at hjournal
      exact Or.inl ⟨hfew, (Except.ok.inj hjournal).symm⟩
    · rw [if_neg hfew, bind_eq_ok_iff] at hjournal
      obtain ⟨now, hnow, hjournal⟩ := hjournal
      rw [nowUnixMs, okOr_eq_ok_iff, Option.map_eq_some_iff] at hnow
      obtain ⟨ms, rfl, -⟩ := hnow
      exact Or.inr ⟨Nat.le_of_not_lt hfew, rfl,
        (Except.ok.inj hjournal).symm⟩
  · rintro ⟨hsize, ring, hring, hcases⟩
    refine ⟨(), hsize, ring, hring, ?_⟩
    rcases hcases with ⟨hfew, rfl⟩ | ⟨hmany, hclock, rfl⟩
    · rw [if_pos hfew]
      rfl
    · obtain ⟨ms, rfl⟩ := Option.isSome_iff_exists.mp hclock
      rw [if_neg (Nat.not_lt.mpr hmany)]
      rfl

/-- When the pruning pass over a stored journal succeeds, and with what. -/
theorem pruneJsonl_eq_ok_iff (readSize : Nat → Nat) (clock : Option Nat)
    (records : List RatchetAuditRecord) (policy : RatchetAuditConfig)
    (journal : Option Bytes) :
    pruneJsonl codec readSize clock (some (journalBytes codec records))
        (max policy.maxEntries 1) = .ok journal ↔
      Stores codec records (some (journalBytes codec records)) ∧
        (records.length < policy.keep ∧
            journal = some (journalBytes codec records) ∨
          policy.keep ≤ records.length ∧ clock.isSome ∧
            journal = some (journalBytes codec
              (records.rtake policy.keep))) := by
  have hring : (records.rtake policy.keep).length < policy.keep ↔ _ :=
    rtake_length_lt records
  have hpass (ring : List RatchetAuditRecord) :
      forLines (pushRing codec policy.keep) []
          (.new readSize (journalBytes codec records)) = .ok ring ↔
        LinesFit codec records ∧ ring = records.rtake policy.keep := by
    rw [forLines_journal (.new readSize (journalBytes codec records)) rfl]
    exact foldlM_pushRing (Nat.zero_le _) records
  simp only [pruneJsonl_of_pass, hpass]
  constructor
  · rintro ⟨hsize, _, ⟨hlines, rfl⟩, hcases⟩
    rw [hring, ← not_lt, hring, not_lt] at hcases
    exact ⟨⟨rfl, hsize, hlines⟩, hcases⟩
  · rintro ⟨hstores, hcases⟩
    rw [← hring, ← not_lt, ← hring, not_lt] at hcases
    exact ⟨hstores.size, _, ⟨hstores.lines, rfl⟩, hcases⟩

theorem pruneJsonl_of_stores (policy : RatchetAuditConfig)
    {records : List RatchetAuditRecord}
    (hstores : Stores codec records (some (journalBytes codec records)))
    (readSize : Nat → Nat) {clock : Option Nat} (hclock : clock.isSome) :
    ∃ journal, pruneJsonl codec readSize clock
      (some (journalBytes codec records)) (max policy.maxEntries 1) =
        .ok journal := by
  simp only [pruneJsonl_eq_ok_iff]
  rcases Nat.lt_or_ge records.length policy.keep with hfew | hmany
  · exact ⟨_, hstores, Or.inl ⟨hfew, rfl⟩⟩
  · exact ⟨_, hstores, Or.inr ⟨hmany, hclock, rfl⟩⟩

/-- The record a call adds, if its clock can be read. -/
def AuditAppend.record? (call : AuditAppend) : Option RatchetAuditRecord :=
  call.clock.map fun ms => call.record (UInt64.ofNat ms)

theorem writeJsonlLine_of_bytes {journal : Option Bytes}
    {stored : List RatchetAuditRecord}
    (hbytes : journal.getD [] = journalBytes codec stored)
    (record : RatchetAuditRecord) :
    writeJsonlLine codec journal record =
      some (journalBytes codec (stored ++ [record])) := by
  rw [writeJsonlLine, hbytes, journalBytes_append]
  simp [journalBytes]

/-- A call whose clock can be read succeeds exactly if the pruning pass over
the longer journal does, and leaves what that pass leaves. -/
theorem appendRatchetAuditEvent_eq_ok_iff {policy : RatchetAuditConfig}
    {journal next : Option Bytes} {call : AuditAppend}
    {stored : List RatchetAuditRecord}
    (hbytes : journal.getD [] = journalBytes codec stored) :
    appendRatchetAuditEvent codec policy journal call = (.ok (), next) ↔
      ∃ record, call.record? = some record ∧
        pruneJsonl codec call.readSize call.pruneClock
          (some (journalBytes codec (stored ++ [record])))
          (max policy.maxEntries 1) = .ok next := by
  unfold appendRatchetAuditEvent AuditAppend.record?
  cases hclock : call.clock with
  | none => simp [nowUnixMs, okOr]
  | some ms =>
      simp only [nowUnixMs, okOr, Option.map_some, Option.some.injEq,
        exists_eq_left', writeJsonlLine_of_bytes hbytes]
      split
      · rename_i hprune
        simp [hprune]
      · rename_i hprune
        simp [hprune]

/-- A call that succeeds leaves the last records of the journal it found and
its own. -/
theorem appendRatchetAuditEvent_stores {policy : RatchetAuditConfig}
    {journal : Option Bytes} {call : AuditAppend}
    {stored : List RatchetAuditRecord} (hstores : Stores codec stored journal)
    (hok : (appendRatchetAuditEvent codec policy journal call).1 = .ok ()) :
    ∃ record, call.record? = some record ∧
      Stores codec ((stored ++ [record]).rtake policy.keep)
        (appendRatchetAuditEvent codec policy journal call).2 := by
  generalize happend : appendRatchetAuditEvent codec policy journal call =
    outcome at hok ⊢
  obtain ⟨result, next⟩ := outcome
  subst hok
  obtain ⟨record, hrecord, hprune⟩ :=
    (appendRatchetAuditEvent_eq_ok_iff hstores.bytes).mp happend
  refine ⟨record, hrecord, ?_⟩
  obtain ⟨hgrown, ⟨hfew, hnext⟩ | ⟨-, -, hnext⟩⟩ :=
    (pruneJsonl_eq_ok_iff _ _ _ _ _).mp hprune
  · have hall : (stored ++ [record]).rtake policy.keep =
        stored ++ [record] := by
      rw [List.rtake, Nat.sub_eq_zero_of_le (Nat.le_of_lt hfew),
        List.drop_zero]
    rw [hall, hnext]
    exact hgrown
  · rw [hnext]
    exact hgrown.rtake policy.keep

/-- A run of calls that all succeed leaves the last records in the journal. -/
theorem appendRatchetAuditEvent_run (policy : RatchetAuditConfig)
    (calls : List AuditAppend)
    (hok : ∀ entry ∈ trace (appendRatchetAuditEvent codec policy) none calls,
      entry.2 = .ok ()) :
    ∃ records : List RatchetAuditRecord,
      calls.map AuditAppend.record? = records.map some ∧
      Stores codec (records.rtake policy.keep)
        (final (appendRatchetAuditEvent codec policy) none calls) := by
  induction calls using List.reverseRecOn with
  | nil =>
      refine ⟨[], rfl, ?_⟩
      rw [List.rtake_nil]
      exact ⟨rfl, Nat.zero_le _, fun record hmem => nomatch hmem⟩
  | append_singleton calls call ih =>
      rw [trace_snoc, List.forall_mem_append] at hok
      obtain ⟨records, hrecords, hstores⟩ := ih hok.1
      obtain ⟨record, hrecord, hnext⟩ := appendRatchetAuditEvent_stores
        hstores (hok.2 _ (List.mem_singleton_self _))
      refine ⟨records ++ [record], ?_, ?_⟩
      · rw [List.map_append, List.map_append, hrecords, List.map_singleton,
          List.map_singleton, hrecord]
      · rw [final_snoc, ← rtake_rtake_append]
        exact hnext

/-- Calls whose clocks can be read and whose records fit in one journal all
succeed. -/
theorem appendRatchetAuditEvent_run_ok (policy : RatchetAuditConfig)
    {calls : List AuditAppend} {records : List RatchetAuditRecord}
    (hrecords : calls.map AuditAppend.record? = records.map some)
    (hclock : ∀ call ∈ calls, call.pruneClock.isSome)
    (hsize : (journalBytes codec records).length ≤ maxAuditFileBytes)
    (hlines : LinesFit codec records) :
    ∀ entry ∈ trace (appendRatchetAuditEvent codec policy) none calls,
      entry.2 = .ok () := by
  induction calls using List.reverseRecOn generalizing records with
  | nil => exact fun entry hmem => nomatch hmem
  | append_singleton calls call ih =>
      rw [List.map_append, List.append_eq_map_iff] at hrecords
      obtain ⟨before, last, rfl, hbefore, hlast⟩ := hrecords
      obtain ⟨record, rfl, hrecord⟩ := List.map_eq_singleton_iff.mp hlast
      rw [LinesFit, List.forall_mem_append] at hlines
      rw [journalBytes_append, List.length_append] at hsize
      have hok := ih hbefore.symm
        (fun other hmem => hclock other (List.mem_append_left _ hmem))
        (by omega) hlines.1
      obtain ⟨others, hothers, hstores⟩ :=
        appendRatchetAuditEvent_run policy calls hok
      have hsame : others = before := by
        rw [hothers] at hbefore
        exact List.map_injective_iff.mpr (Option.some_injective _) hbefore.symm
      subst hsame
      have hgrown : Stores codec (others.rtake policy.keep ++ [record])
          (some (journalBytes codec (others.rtake policy.keep ++ [record]))) := by
        refine ⟨rfl, ?_, ?_⟩
        · rw [journalBytes_append, List.length_append]
          exact Nat.le_trans (Nat.add_le_add_right
            (journalBytes_rtake_length_le others policy.keep) _) hsize
        · exact List.forall_mem_append.mpr ⟨hstores.lines, hlines.2⟩
      rw [trace_snoc, List.forall_mem_append]
      refine ⟨hok, ?_⟩
      rw [List.forall_mem_singleton]
      obtain ⟨next, hprune⟩ := pruneJsonl_of_stores policy hgrown
        call.readSize (hclock call (List.mem_append_right _ (by simp)))
      exact congrArg Prod.fst ((appendRatchetAuditEvent_eq_ok_iff
        hstores.bytes).mpr ⟨record, hrecord.symm, hprune⟩)

/-- After any run of calls that all succeed, on a journal that was missing
before the first, reading returns the last records in the order of the
calls. -/
theorem readRatchetAuditEvents_last (policy : RatchetAuditConfig)
    (calls : List AuditAppend)
    (hok : ∀ entry ∈ trace (appendRatchetAuditEvent codec policy) none calls,
      entry.2 = .ok ())
    (readSize : Nat → Nat) :
    ∃ records : List RatchetAuditRecord,
      calls.map AuditAppend.record? = records.map some ∧
      readRatchetAuditEvents codec readSize
          (final (appendRatchetAuditEvent codec policy) none calls) =
        .ok (records.rtake
          (min calls.length (max 1 (min policy.maxEntries 100000)))) := by
  obtain ⟨records, hrecords, hstores⟩ :=
    appendRatchetAuditEvent_run policy calls hok
  have hcount : calls.length = records.length := by
    simpa using congrArg List.length hrecords
  have hlimit : (records.rtake policy.keep).length ≤ maxAuditEntries := by
    rw [List.rtake, List.length_drop, RatchetAuditConfig.keep,
      maxAuditEntries]
    omega
  refine ⟨records, hrecords, ?_⟩
  rw [readRatchetAuditEvents_of_stores hstores hlimit readSize, hcount,
    List.rtake, List.rtake, RatchetAuditConfig.keep, maxAuditEntries]
  congr 2
  omega

end Journal

namespace RatchetAuditWitness

open FlatJson

def fieldNames : List String :=
  ["ts_ms", "local_fingerprint", "peer_fingerprint", "transcript_hash",
    "role", "transport"]

def fields (record : RatchetAuditRecord) : List (String × Value) :=
  [("ts_ms", .number record.tsMs.toNat),
    ("local_fingerprint", .text record.localFingerprint),
    ("peer_fingerprint", .text record.peerFingerprint),
    ("transcript_hash", .text record.transcriptHash),
    ("role", .text record.role), ("transport", .text record.transport)]

def ofFields : List (String × Value) → Except String RatchetAuditRecord
  | [(_, .number tsMs), (_, .text localFingerprint),
      (_, .text peerFingerprint), (_, .text transcriptHash), (_, .text role),
      (_, .text transport)] =>
      if tsMs < 2 ^ 64 then
        .ok ⟨UInt64.ofNat tsMs, localFingerprint, peerFingerprint,
          transcriptHash, role, transport⟩
      else .error "number out of range"
  | _ => .error "invalid type"

/-- The compact object that the serialiser writes. -/
def codec : AuditCodec where
  toText := fun record => writeText (fields record)
  fromText := fun text =>
    match readText fieldNames text with
    | some fields => ofFields fields
    | none => .error "expected value"
  fromText_toText := by
    intro record
    have hread : readText fieldNames (writeText (fields record)) =
        some (fields record) := readText_writeText (fields record)
    have htime := record.tsMs.toNat_lt
    simp only [hread]
    simp only [fields, ofFields, if_pos htime, UInt64.ofNat_toNat]
  toText_object := by
    intro record
    exact ⟨(writeFields '{' (fields record)).tail, by
      rw [writeText, String.toList_ofList]
      rfl⟩
  toText_newline := fun record => writeText_ne_newline (fields record)

/-- One event as a session logs it. -/
def call (peer : String) (ms : Nat) : AuditAppend where
  localFingerprint := "local"
  peerFingerprint := peer
  transcriptHash := "tx"
  role := "connect"
  transport := "tcp"
  clock := some ms
  pruneClock := some ms
  readSize := fun _ => 16

def record (peer : String) (ms : Nat) : RatchetAuditRecord :=
  (call peer ms).record (UInt64.ofNat ms)

def calls : List AuditAppend :=
  [call "peer-1" 1000, call "peer-2" 2000, call "peer-3" 3000]

def records : List RatchetAuditRecord :=
  [record "peer-1" 1000, record "peer-2" 2000, record "peer-3" 3000]

theorem records_fit : (journalBytes codec records).length ≤ maxAuditFileBytes ∧
    LinesFit codec records := by
  constructor
  · decide +kernel
  · unfold LinesFit
    decide +kernel

/-- Three events under a limit of two. -/
theorem readRatchetAuditEvents_last_two :
    (∀ entry ∈ trace (appendRatchetAuditEvent codec ⟨2⟩) none calls,
      entry.2 = .ok ()) ∧
    readRatchetAuditEvents codec (fun _ => 16)
        (final (appendRatchetAuditEvent codec ⟨2⟩) none calls) =
      .ok [record "peer-2" 2000, record "peer-3" 3000] := by
  have hrecords : calls.map AuditAppend.record? = records.map some := rfl
  have hok := appendRatchetAuditEvent_run_ok ⟨2⟩ hrecords
    (by simp [calls, call]) records_fit.1 records_fit.2
  obtain ⟨stored, hstored, hread⟩ :=
    readRatchetAuditEvents_last ⟨2⟩ calls hok fun _ => 16
  have hsame : stored = records := by
    rw [hrecords] at hstored
    exact List.map_injective_iff.mpr (Option.some_injective _) hstored.symm
  rw [hsame] at hread
  exact ⟨hok, hread⟩

end RatchetAuditWitness

end Shph
