/-
What a refused append leaves in the ratchet audit journal.  The new line is in
the file before the pruning pass applies its limits, so that a call returns an
error only after the journal has changed.
-/
import Shph.Library.RingWindow
import Shph.RatchetAudit

namespace Shph

open ByteCodec BufferedLines RingWindow

section Refusal

/-- The record of one line, if it holds one. -/
def lineRecord (codec : AuditCodec) (line : Bytes) :
    Except ShphError (Option RatchetAuditRecord) := do
  match ← lineText line with
  | none => return none
  | some text => return some (← parseRecord codec text)

/-- The records of some lines, if every line is accepted. -/
def linesRecords (codec : AuditCodec) :
    List Bytes → Option (List RatchetAuditRecord)
  | [] => some []
  | line :: rest => do
      let entry ← (lineRecord codec line).toOption
      let records ← linesRecords codec rest
      return entry.toList ++ records

/-- The text after the last newline of a file. -/
def unfinishedText (file : Bytes) : String :=
  (String.fromUTF8? ⟨(unfinished file).toArray⟩).getD ""

/-- What the pruning pass asks of a file that held `count` records once a line
for `record` is at its end. -/
structure Accepts (codec : AuditCodec) (policy : RatchetAuditConfig)
    (file : Bytes) (count : Nat) (pruneClock : Option Nat)
    (record : RatchetAuditRecord) : Prop where
  size : file.length + (auditLine codec record).length ≤ maxAuditFileBytes
  line : (unfinished file).length + (auditLine codec record).length ≤
    maxAuditLineBytes
  entry : (codec.fromText
    (unfinishedText file ++ codec.toText record)).isOk = true
  clock : count + 1 < policy.keep ∨ pruneClock.isSome = true

/-- JSON allows these four characters around a value. -/
def isJsonWhitespace (char : Char) : Bool :=
  char = ' ' || char = '\t' || char = '\n' || char = '\r'

/-- The parser refuses a text that goes on after the value. -/
def AuditCodec.RejectsTrailing (codec : AuditCodec) : Prop :=
  ∀ text tail record, codec.fromText text = .ok record →
    (∃ char ∈ tail.toList, isJsonWhitespace char = false) →
    ∀ other, codec.fromText (text ++ tail) ≠ .ok other

variable {codec : AuditCodec}

theorem toOption_eq_some_iff {ε α : Type} {result : Except ε α} {value : α} :
    result.toOption = some value ↔ result = .ok value := by
  cases result <;> simp [Except.toOption]

@[simp] theorem linesRecords_nil : linesRecords codec [] = some [] := rfl

theorem linesRecords_cons_eq_some_iff {line : Bytes} {rest : List Bytes}
    {records : List RatchetAuditRecord} :
    linesRecords codec (line :: rest) = some records ↔
      ∃ entry others, lineRecord codec line = .ok entry ∧
        linesRecords codec rest = some others ∧
        records = entry.toList ++ others := by
  simp only [linesRecords, Option.bind_eq_bind, Option.bind_eq_some_iff,
    toOption_eq_some_iff, Option.pure_def, Option.some.injEq]
  constructor
  · rintro ⟨entry, hentry, others, hothers, rfl⟩
    exact ⟨entry, others, hentry, hothers, rfl⟩
  · rintro ⟨entry, others, hentry, hothers, rfl⟩
    exact ⟨entry, hentry, others, hothers, rfl⟩

theorem linesRecords_append_eq_some_iff {front rest : List Bytes}
    {records : List RatchetAuditRecord} :
    linesRecords codec (front ++ rest) = some records ↔
      ∃ before after, linesRecords codec front = some before ∧
        linesRecords codec rest = some after ∧ records = before ++ after := by
  induction front generalizing records with
  | nil => simp [linesRecords]
  | cons line front ih =>
      simp only [List.cons_append, linesRecords_cons_eq_some_iff, ih]
      constructor
      · rintro ⟨entry, others, hentry, ⟨before, after, hbefore, hafter, rfl⟩,
          rfl⟩
        exact ⟨entry.toList ++ before, after,
          ⟨entry, before, hentry, hbefore, rfl⟩, hafter,
          (List.append_assoc _ _ _).symm⟩
      · rintro ⟨_, after, ⟨entry, before, hentry, hbefore, rfl⟩, hafter, rfl⟩
        exact ⟨entry, before ++ after, hentry,
          ⟨before, after, hbefore, hafter, rfl⟩, List.append_assoc _ _ _⟩

theorem parseRecord_eq_ok_iff {text : String} {record : RatchetAuditRecord} :
    parseRecord codec text = .ok record ↔ codec.fromText text = .ok record := by
  rw [parseRecord]
  cases codec.fromText text <;> simp

/-- A visited line is blank, or its text goes through `body`. -/
theorem visitLine_eq_ok_iff {σ : Type} {body : σ → String → Except ShphError σ}
    {state next : σ} {line : Bytes} :
    visitLine body state line = .ok next ↔
      (lineText line = .ok none ∧ next = state) ∨
        ∃ text, lineText line = .ok (some text) ∧
          body state text = .ok next := by
  rw [visitLine, bind_eq_ok_iff]
  constructor
  · rintro ⟨_ | text, htext, hnext⟩
    · exact Or.inl ⟨htext, (Except.ok.inj hnext).symm⟩
    · exact Or.inr ⟨text, htext, hnext⟩
  · rintro (⟨htext, rfl⟩ | ⟨text, htext, hnext⟩)
    · exact ⟨none, htext, rfl⟩
    · exact ⟨some text, htext, hnext⟩

theorem lineRecord_eq_ok_iff {line : Bytes}
    {entry : Option RatchetAuditRecord} :
    lineRecord codec line = .ok entry ↔
      (lineText line = .ok none ∧ entry = none) ∨
        ∃ text record, lineText line = .ok (some text) ∧
          codec.fromText text = .ok record ∧ entry = some record := by
  rw [lineRecord, bind_eq_ok_iff]
  constructor
  · rintro ⟨_ | text, htext, hentry⟩
    · exact Or.inl ⟨htext, (Except.ok.inj hentry).symm⟩
    · obtain ⟨record, hrecord, hentry⟩ := bind_eq_ok_iff.mp hentry
      exact Or.inr ⟨text, record, htext, parseRecord_eq_ok_iff.mp hrecord,
        (Except.ok.inj hentry).symm⟩
  · rintro (⟨htext, rfl⟩ | ⟨text, record, htext, hrecord, rfl⟩)
    · exact ⟨none, htext, rfl⟩
    · refine ⟨some text, htext, ?_⟩
      change (do let record ← parseRecord codec text; _) = _
      rw [parseRecord_eq_ok_iff.mpr hrecord]
      rfl

theorem pushRing_eq_ok_iff {keep : Nat} {ring next : List RatchetAuditRecord}
    (hring : ring.length ≤ keep) {text : String} :
    pushRing codec keep ring text = .ok next ↔
      ∃ record, codec.fromText text = .ok record ∧
        next = (ring ++ [record]).rtake keep := by
  rw [pushRing, bind_eq_ok_iff]
  refine exists_congr fun record => ?_
  rw [parseRecord_eq_ok_iff]
  refine and_congr_right fun hrecord => ?_
  have hpush : pushRing codec keep ring (codec.toText record) = _ :=
    pushRing_text hring record
  rw [pushRing, parseRecord_text] at hpush
  change Except.ok _ = _ at hpush
  change Except.ok _ = _ ↔ _
  rw [hpush, Except.ok.injEq, eq_comm]

theorem visitLine_pushRing_eq_ok_iff {keep : Nat}
    {ring next : List RatchetAuditRecord} (hring : ring.length ≤ keep)
    {line : Bytes} :
    visitLine (pushRing codec keep) ring line = .ok next ↔
      ∃ entry, lineRecord codec line = .ok entry ∧
        next = (ring ++ entry.toList).rtake keep := by
  simp only [visitLine_eq_ok_iff, pushRing_eq_ok_iff hring,
    lineRecord_eq_ok_iff]
  constructor
  · rintro (⟨htext, rfl⟩ | ⟨text, htext, record, hrecord, rfl⟩)
    · exact ⟨none, Or.inl ⟨htext, rfl⟩,
        by simp [rtake_of_length_le hring]⟩
    · exact ⟨some record, Or.inr ⟨text, record, htext, hrecord, rfl⟩, rfl⟩
  · rintro ⟨entry, ⟨htext, rfl⟩ | ⟨text, record, htext, hrecord, rfl⟩, rfl⟩
    · exact Or.inl ⟨htext, by simp [rtake_of_length_le hring]⟩
    · exact Or.inr ⟨text, htext, record, hrecord, rfl⟩

/-- The pruning pass over any file ends with the last `keep` records. -/
theorem foldlM_visitLine_pushRing {keep : Nat}
    {ring result : List RatchetAuditRecord} (hring : ring.length ≤ keep)
    (fileLines : List Bytes) :
    fileLines.foldlM (visitLine (pushRing codec keep)) ring = .ok result ↔
      ∃ records, linesRecords codec fileLines = some records ∧
        result = (ring ++ records).rtake keep := by
  induction fileLines generalizing ring with
  | nil =>
      simp [linesRecords, pure, Except.pure, rtake_of_length_le hring,
        eq_comm]
  | cons line rest ih =>
      have hlength (entry : Option RatchetAuditRecord) :
          ((ring ++ entry.toList).rtake keep).length ≤ keep := by
        rw [List.rtake, List.length_drop]
        omega
      simp only [List.foldlM_cons, bind_eq_ok_iff,
        visitLine_pushRing_eq_ok_iff hring, linesRecords_cons_eq_some_iff]
      constructor
      · rintro ⟨_, ⟨entry, hentry, rfl⟩, hrest⟩
        obtain ⟨others, hothers, rfl⟩ := (ih (hlength entry)).mp hrest
        refine ⟨_, ⟨entry, others, hentry, hothers, rfl⟩, ?_⟩
        rw [rtake_rtake_append, List.append_assoc]
      · rintro ⟨_, ⟨entry, others, hentry, hothers, rfl⟩, rfl⟩
        refine ⟨_, ⟨entry, hentry, rfl⟩, (ih (hlength entry)).mpr
          ⟨others, hothers, ?_⟩⟩
        rw [rtake_rtake_append, List.append_assoc]

theorem pushEntry_eq_ok_iff {entries next : List RatchetAuditRecord}
    {text : String} :
    pushEntry codec entries text = .ok next ↔
      ∃ record, codec.fromText text = .ok record ∧
        entries.length + 1 ≤ maxAuditEntries ∧ next = entries ++ [record] := by
  simp only [pushEntry, bind_eq_ok_iff, ensure_eq_ok_iff, parseRecord_eq_ok_iff,
    pure_eq_ok_iff]
  constructor
  · rintro ⟨-, hcount, record, hrecord, rfl⟩
    exact ⟨record, hrecord, hcount, rfl⟩
  · rintro ⟨record, hrecord, hcount, rfl⟩
    exact ⟨(), hcount, record, hrecord, rfl⟩

theorem visitLine_pushEntry_eq_ok_iff {entries next : List RatchetAuditRecord}
    (hentries : entries.length ≤ maxAuditEntries) {line : Bytes} :
    visitLine (pushEntry codec) entries line = .ok next ↔
      ∃ entry, lineRecord codec line = .ok entry ∧
        next.length ≤ maxAuditEntries ∧ next = entries ++ entry.toList := by
  simp only [visitLine_eq_ok_iff, pushEntry_eq_ok_iff, lineRecord_eq_ok_iff]
  constructor
  · rintro (⟨htext, rfl⟩ | ⟨text, htext, record, hrecord, hcount, rfl⟩)
    · exact ⟨none, Or.inl ⟨htext, rfl⟩, hentries, by simp⟩
    · exact ⟨some record, Or.inr ⟨text, record, htext, hrecord, rfl⟩,
        by simpa using hcount, rfl⟩
  · rintro ⟨entry, ⟨htext, rfl⟩ | ⟨text, record, htext, hrecord, rfl⟩, hcount,
      rfl⟩
    · exact Or.inl ⟨htext, by simp⟩
    · exact Or.inr ⟨text, htext, record, hrecord, by simpa using hcount, rfl⟩

/-- Reading any file returns the records of its lines, if there are not too
many. -/
theorem foldlM_visitLine_pushEntry {entries result : List RatchetAuditRecord}
    (hentries : entries.length ≤ maxAuditEntries) (fileLines : List Bytes) :
    fileLines.foldlM (visitLine (pushEntry codec)) entries = .ok result ↔
      ∃ records, linesRecords codec fileLines = some records ∧
        result.length ≤ maxAuditEntries ∧ result = entries ++ records := by
  induction fileLines generalizing entries with
  | nil =>
      simp only [List.foldlM_nil, linesRecords, pure_eq_ok_iff,
        Option.some.injEq]
      constructor
      · rintro rfl
        exact ⟨[], rfl, hentries, by simp⟩
      · rintro ⟨_, rfl, -, rfl⟩
        simp
  | cons line rest ih =>
      simp only [List.foldlM_cons, bind_eq_ok_iff,
        visitLine_pushEntry_eq_ok_iff hentries, linesRecords_cons_eq_some_iff]
      constructor
      · rintro ⟨_, ⟨entry, hentry, hcount, rfl⟩, hrest⟩
        obtain ⟨others, hothers, hresult, rfl⟩ := (ih hcount).mp hrest
        exact ⟨_, ⟨entry, others, hentry, hothers, rfl⟩, hresult,
          List.append_assoc _ _ _⟩
      · rintro ⟨_, ⟨entry, others, hentry, hothers, rfl⟩, hresult, rfl⟩
        rw [← List.append_assoc] at hresult
        have hcount : (entries ++ entry.toList).length ≤ maxAuditEntries := by
          rw [List.length_append] at hresult
          omega
        exact ⟨_, ⟨entry, hentry, hcount, rfl⟩, (ih hcount).mpr
          ⟨others, hothers, by rw [← List.append_assoc]; exact hresult,
            (List.append_assoc _ _ _).symm⟩⟩

/-- When a journal can be read, and what is returned. -/
theorem readRatchetAuditEvents_eq_ok_iff {readSize : Nat → Nat}
    {journal : Option Bytes} {records : List RatchetAuditRecord} :
    readRatchetAuditEvents codec readSize journal = .ok records ↔
      (journal.getD []).length ≤ maxAuditFileBytes ∧
        linesRecords codec (lines (journal.getD [])) = some records ∧
        records.length ≤ maxAuditEntries := by
  cases journal with
  | none =>
      simp only [readRatchetAuditEvents, Option.getD_none, lines,
        linesRecords, Except.ok.injEq, Option.some.injEq]
      constructor
      · rintro rfl
        simp
      · exact fun hall => hall.2.1
  | some file =>
      have hpass : forLines (pushEntry codec) [] (.new readSize file) =
          .ok records ↔ linesRecords codec (lines file) = some records ∧
            records.length ≤ maxAuditEntries := by
        rw [forLines_lines, foldlM_visitLine_pushEntry (Nat.zero_le _)]
        constructor
        · rintro ⟨_, hlines, hcount, rfl⟩
          exact ⟨hlines, hcount⟩
        · rintro ⟨hlines, hcount⟩
          exact ⟨records, hlines, hcount, rfl⟩
      simp only [readRatchetAuditEvents, bind_eq_ok_iff, ensure_eq_ok_iff,
        Option.getD_some, hpass]
      constructor
      · rintro ⟨-, hsize, hlines⟩
        exact ⟨hsize, hlines⟩
      · rintro ⟨hsize, hlines⟩
        exact ⟨(), hsize, hlines⟩

/-- When the pruning pass over a file succeeds. -/
theorem pruneJsonl_succeeds_iff {readSize : Nat → Nat} {clock : Option Nat}
    {policy : RatchetAuditConfig} {file : Bytes} :
    (∃ journal, pruneJsonl codec readSize clock (some file)
        (max policy.maxEntries 1) = .ok journal) ↔
      file.length ≤ maxAuditFileBytes ∧
        ∃ records, linesRecords codec (lines file) = some records ∧
          (records.length < policy.keep ∨ clock.isSome = true) := by
  have hpass (ring : List RatchetAuditRecord) :
      forLines (pushRing codec policy.keep) [] (.new readSize file) =
        .ok ring ↔ ∃ records, linesRecords codec (lines file) = some records ∧
          ring = records.rtake policy.keep := by
    rw [forLines_lines, foldlM_visitLine_pushRing (Nat.zero_le _)]
    rfl
  simp only [pruneJsonl_of_pass, hpass]
  constructor
  · rintro ⟨journal, hsize, _, ⟨records, hrecords, rfl⟩, hcases⟩
    refine ⟨hsize, records, hrecords, ?_⟩
    rw [rtake_length_lt] at hcases
    rcases hcases with ⟨hfew, -⟩ | ⟨-, hclock, -⟩
    · exact Or.inl hfew
    · exact Or.inr hclock
  · rintro ⟨hsize, records, hrecords, hclock⟩
    by_cases hfew : records.length < policy.keep
    · exact ⟨_, hsize, _, ⟨records, hrecords, rfl⟩,
        Or.inl ⟨(rtake_length_lt records).mpr hfew, rfl⟩⟩
    · exact ⟨_, hsize, _, ⟨records, hrecords, rfl⟩,
        Or.inr ⟨Nat.le_of_not_lt (mt (rtake_length_lt records).mp hfew),
          hclock.resolve_left hfew, rfl⟩⟩

theorem lines_finished (file : Bytes) :
    lines file = lines (finished file) ++ lines (unfinished file) := by
  conv_lhs => rw [← finished_append_unfinished file]
  exact lines_append (finished_last file) _

/-- The part after the last newline is one line or none. -/
theorem linesRecords_unfinished {file : Bytes}
    {records : List RatchetAuditRecord}
    (hrecords : linesRecords codec (lines (unfinished file)) = some records) :
    ∃ text, String.fromUTF8? ⟨(unfinished file).toArray⟩ = some text ∧
      (records = [] ∨ ∃ record, records = [record] ∧
        codec.fromText (trimLineEnd text) = .ok record) := by
  by_cases hempty : unfinished file = []
  · rw [hempty] at hrecords ⊢
    refine ⟨"", fromUTF8?_textBytes "", Or.inl ?_⟩
    exact (Option.some.inj hrecords).symm
  · rw [lines_unfinished (newline_notMem_unfinished file) hempty,
      linesRecords_cons_eq_some_iff] at hrecords
    obtain ⟨entry, others, hentry, hothers, rfl⟩ := hrecords
    cases hothers
    simp only [lineRecord_eq_ok_iff, lineText, bind_eq_ok_iff] at hentry
    cases htext : String.fromUTF8? ⟨(unfinished file).toArray⟩ with
    | none => simp [htext] at hentry
    | some text =>
        refine ⟨text, rfl, ?_⟩
        simp only [htext, pure_eq_ok_iff] at hentry
        rcases hentry with ⟨-, rfl⟩ | ⟨found, record, ⟨-, -, hfound⟩, hrecord,
          rfl⟩
        · exact Or.inl rfl
        · rw [Option.ite_none_left_eq_some, Option.some.injEq] at hfound
          rw [← hfound.2] at hrecord
          exact Or.inr ⟨record, rfl, hrecord⟩

/-- The records of a file with one more line: what was after the last newline
now belongs to the new entry. -/
theorem linesRecords_longer {file : Bytes} {text : String}
    (htext : String.fromUTF8? ⟨(unfinished file).toArray⟩ = some text)
    {record : RatchetAuditRecord} {records : List RatchetAuditRecord} :
    linesRecords codec (lines (file ++ auditLine codec record)) =
        some records ↔
      (unfinished file).length + (auditLine codec record).length ≤
          maxAuditLineBytes ∧
        ∃ before entry, linesRecords codec (lines (finished file)) =
            some before ∧
          codec.fromText (text ++ codec.toText record) = .ok entry ∧
          records = before ++ [entry] := by
  have hbytes := eq_textBytes_of_fromUTF8? htext
  have hline : lineText (textBytes text ++ auditLine codec record) = _ :=
    lineText_text text record
  rw [← hbytes, List.length_append] at hline
  rw [auditLine_eq, lines_append_line file (newline_notMem_text record),
    ← auditLine_eq, linesRecords_append_eq_some_iff]
  simp only [linesRecords_cons_eq_some_iff, linesRecords_nil,
    lineRecord_eq_ok_iff, hline, bind_eq_ok_iff, ensure_eq_ok_iff,
    pure_eq_ok_iff]
  constructor
  · rintro ⟨before, _, hbefore, ⟨entry, _, hentry, hnil, rfl⟩, rfl⟩
    cases hnil
    rcases hentry with ⟨⟨-, -, hnone⟩, -⟩ | ⟨found, parsed, ⟨-, hfits, hfound⟩,
      hparsed, rfl⟩
    · simp at hnone
    · rw [Option.some.injEq] at hfound
      rw [← hfound] at hparsed
      exact ⟨hfits, before, parsed, hbefore, hparsed, rfl⟩
  · rintro ⟨hfits, before, entry, hbefore, hentry, rfl⟩
    exact ⟨before, [entry], hbefore, ⟨some entry, [], Or.inr ⟨_, entry,
      ⟨(), hfits, rfl⟩, hentry, rfl⟩, rfl, rfl⟩, rfl⟩

theorem trimLineEnd_append (text : String) :
    ∃ ending, text = trimLineEnd text ++ ending := by
  refine ⟨String.ofList (text.toList.rtakeWhile fun char =>
    char = '\r' ∨ char = '\n'), ?_⟩
  rw [trimLineEnd, ← String.ofList_append, List.rdropWhile_append_rtakeWhile,
    String.ofList_toList]

theorem brace_mem_toText (record : RatchetAuditRecord) :
    '{' ∈ (codec.toText record).toList := by
  obtain ⟨fields, hfields⟩ := codec.toText_object record
  simp [hfields]

/-- A journal that can be read and whose longer version can be read too had
only blanks after its last newline, and gains one record. -/
theorem records_longer (hrejects : codec.RejectsTrailing) {file : Bytes}
    {record : RatchetAuditRecord} {records after : List RatchetAuditRecord}
    (hrecords : linesRecords codec (lines file) = some records)
    (hafter : linesRecords codec (lines (file ++ auditLine codec record)) =
      some after) : after.length = records.length + 1 := by
  rw [lines_finished, linesRecords_append_eq_some_iff] at hrecords
  obtain ⟨before, last, hbefore, hlast, rfl⟩ := hrecords
  obtain ⟨text, htext, hcases⟩ := linesRecords_unfinished hlast
  obtain ⟨-, before', entry, hbefore', hentry, rfl⟩ :=
    (linesRecords_longer htext).mp hafter
  cases hbefore.symm.trans hbefore'
  rcases hcases with rfl | ⟨old, rfl, hold⟩
  · simp
  · obtain ⟨ending, hending⟩ := trimLineEnd_append text
    rw [hending, String.append_assoc] at hentry
    refine absurd hentry (hrejects _ _ old hold ⟨'{', ?_, by decide⟩ entry)
    rw [String.toList_append]
    exact List.mem_append_right _ (brace_mem_toText record)

/-- When the pruning pass accepts the line it finds at the end of a journal
that could be read. -/
theorem pruneJsonl_accepts_iff (readSize : Nat → Nat) (clock : Option Nat)
    (hrejects : codec.RejectsTrailing)
    {policy : RatchetAuditConfig} {file : Bytes}
    {records : List RatchetAuditRecord} {record : RatchetAuditRecord}
    (hrecords : linesRecords codec (lines file) = some records) :
    (∃ journal, pruneJsonl codec readSize clock
        (some (file ++ auditLine codec record)) (max policy.maxEntries 1) =
          .ok journal) ↔
      Accepts codec policy file records.length clock record := by
  have hsplit := hrecords
  rw [lines_finished, linesRecords_append_eq_some_iff] at hsplit
  obtain ⟨before, last, hbefore, hlast, -⟩ := hsplit
  obtain ⟨text, htext, -⟩ := linesRecords_unfinished hlast
  have hunfinished : unfinishedText file = text := by
    rw [unfinishedText, htext, Option.getD_some]
  rw [pruneJsonl_succeeds_iff, List.length_append]
  constructor
  · rintro ⟨hsize, after, hafter, hclock⟩
    rw [records_longer hrejects hrecords hafter] at hclock
    obtain ⟨hline, -, entry, -, hentry, -⟩ :=
      (linesRecords_longer htext).mp hafter
    exact ⟨hsize, hline, by rw [hunfinished, hentry]; rfl, hclock⟩
  · intro haccepts
    have hparse := haccepts.entry
    rw [hunfinished] at hparse
    cases hentry : codec.fromText (text ++ codec.toText record) with
    | error message => simp [hentry, Except.isOk, Except.toBool] at hparse
    | ok entry =>
        have hafter := (linesRecords_longer htext).mpr
          ⟨haccepts.line, before, entry, hbefore, hentry, rfl⟩
        refine ⟨haccepts.size, _, hafter, ?_⟩
        rw [records_longer hrejects hrecords hafter]
        exact haccepts.clock

/-- What a call does, from its clock and the pruning pass. -/
theorem appendRatchetAuditEvent_cases (codec : AuditCodec)
    (policy : RatchetAuditConfig)
    (journal : Option Bytes) (call : AuditAppend) :
    (call.record? = none ∧
      (appendRatchetAuditEvent codec policy journal call).2 = journal) ∨
    ∃ record, call.record? = some record ∧
      ((∃ next, pruneJsonl codec call.readSize call.pruneClock
            (some (journal.getD [] ++ auditLine codec record))
            (max policy.maxEntries 1) = .ok next ∧
          appendRatchetAuditEvent codec policy journal call =
            (.ok (), next)) ∨
        ∃ error, pruneJsonl codec call.readSize call.pruneClock
            (some (journal.getD [] ++ auditLine codec record))
            (max policy.maxEntries 1) = .error error ∧
          appendRatchetAuditEvent codec policy journal call =
            (.error error,
              some (journal.getD [] ++ auditLine codec record))) := by
  unfold appendRatchetAuditEvent AuditAppend.record?
  cases call.clock with
  | none => exact Or.inl ⟨rfl, rfl⟩
  | some ms =>
      refine Or.inr ⟨_, rfl, ?_⟩
      simp only [nowUnixMs, okOr, Option.map_some, writeJsonlLine]
      split
      · rename_i error hprune
        exact Or.inr ⟨error, hprune, rfl⟩
      · rename_i next hprune
        exact Or.inl ⟨next, hprune, rfl⟩

/-- A call that returns an error leaves every record of a journal that could
be read, and nothing else, exactly if the call could not fail once its line
was written. -/
theorem refused_append_keeps_journal_iff (hrejects : codec.RejectsTrailing)
    (policy : RatchetAuditConfig) (journal : Option Bytes)
    (call : AuditAppend) (readSize : Nat → Nat)
    (records : List RatchetAuditRecord)
    (hread : readRatchetAuditEvents codec readSize journal = .ok records) :
    (∀ error, (appendRatchetAuditEvent codec policy journal call).1 =
        .error error →
      ∀ readSize, readRatchetAuditEvents codec readSize
        (appendRatchetAuditEvent codec policy journal call).2 =
          .ok records) ↔
      ∀ record, call.record? = some record →
        Accepts codec policy (journal.getD []) records.length call.pruneClock
          record := by
  have hkept := readRatchetAuditEvents_eq_ok_iff.mp hread
  rcases appendRatchetAuditEvent_cases codec policy journal call with
    ⟨hrecord, hsame⟩ | ⟨record, hrecord, ⟨next, hprune, happend⟩ |
      ⟨error, hprune, happend⟩⟩
  · rw [hrecord, hsame]
    refine iff_of_true (fun error _ readSize => ?_) (by simp)
    exact readRatchetAuditEvents_eq_ok_iff.mpr hkept
  · refine iff_of_true (by simp [happend]) ?_
    intro other hother
    cases hrecord.symm.trans hother
    exact (pruneJsonl_accepts_iff _ _ hrejects hkept.2.1).mp ⟨next, hprune⟩
  · refine iff_of_false ?_ ?_
    · intro hkeeps
      have hagain := hkeeps error (by rw [happend]) readSize
      rw [happend, readRatchetAuditEvents_eq_ok_iff] at hagain
      have hlonger := records_longer hrejects hkept.2.1 hagain.2.1
      omega
    · intro haccepts
      obtain ⟨next, hok⟩ := (pruneJsonl_accepts_iff call.readSize
        call.pruneClock hrejects hkept.2.1).mpr (haccepts record hrecord)
      rw [hprune] at hok
      simp at hok

end Refusal

namespace RatchetAuditWitness

theorem rejectsTrailing : codec.RejectsTrailing := by
  intro text tail record hrecord htail other
  obtain ⟨char, hchar, -⟩ := htail
  have htail' : tail ≠ "" := by
    rintro rfl
    simp at hchar
  have hread : (FlatJson.readText fieldNames text).isSome := by
    cases hfields : FlatJson.readText fieldNames text with
    | none => simp [codec, hfields] at hrecord
    | some fields => rfl
  simp [codec, FlatJson.readText_append hread htail']

/-- A journal with one record whose last byte, the newline, is missing. -/
def unterminated : Bytes := textBytes (codec.toText (record "peer-1" 1000))

theorem newline_notMem_unterminated : newline ∉ unterminated :=
  newline_notMem_text _

theorem unfinished_unterminated : unfinished unterminated = unterminated := by
  rw [unfinished, List.rtakeWhile_eq_self_iff]
  intro byte hbyte
  simp only [decide_eq_true_eq]
  rintro rfl
  exact newline_notMem_unterminated hbyte

theorem unterminated_length : unterminated.length ≤ maxAuditLineBytes := by
  have hfits := records_fit.2 (record "peer-1" 1000) (by simp [records])
  rw [auditLine_eq, List.length_append, ← unterminated] at hfits
  exact Nat.le_trans (Nat.le_add_right _ _) hfits

theorem lines_unterminated : lines unterminated = [unterminated] := by
  apply lines_unfinished newline_notMem_unterminated
  intro hempty
  have htext := fromUTF8?_textBytes (codec.toText (record "peer-1" 1000))
  rw [← unterminated, hempty, show ([] : Bytes) = textBytes "" from rfl,
    fromUTF8?_textBytes, Option.some.injEq] at htext
  have hbrace : '{' ∈ (codec.toText (record "peer-1" 1000)).toList :=
    brace_mem_toText _
  simp [← htext] at hbrace

theorem lineRecord_unterminated :
    lineRecord codec unterminated = .ok (some (record "peer-1" 1000)) := by
  have htrim : trimLineEnd ("" ++ codec.toText (record "peer-1" 1000)) = _ :=
    trimLineEnd_text "" _
  have hblank : isBlank ("" ++ codec.toText (record "peer-1" 1000)) = _ :=
    isBlank_text "" _
  rw [String.empty_append] at htrim hblank
  refine lineRecord_eq_ok_iff.mpr (Or.inr
    ⟨codec.toText (record "peer-1" 1000), record "peer-1" 1000, ?_,
      codec.fromText_toText _, rfl⟩)
  rw [lineText, ensure, if_pos unterminated_length, unterminated,
    fromUTF8?_textBytes]
  simp only [htrim, hblank]
  rfl

theorem linesRecords_unterminated :
    linesRecords codec (lines unterminated) =
      some [record "peer-1" 1000] := by
  rw [lines_unterminated, linesRecords_cons_eq_some_iff]
  exact ⟨_, [], lineRecord_unterminated, rfl, rfl⟩

theorem linesRecords_joined (second : RatchetAuditRecord)
    (records : List RatchetAuditRecord) :
    linesRecords codec (lines (unterminated ++ auditLine codec second)) ≠
      some records := by
  intro hrecords
  have htext := fromUTF8?_textBytes (codec.toText (record "peer-1" 1000))
  rw [← unterminated, ← unfinished_unterminated] at htext
  obtain ⟨-, -, entry, -, hentry, -⟩ := (linesRecords_longer htext).mp hrecords
  exact rejectsTrailing _ _ _ (codec.fromText_toText _)
    ⟨'{', brace_mem_toText second, by decide⟩ entry hentry

theorem read_unterminated :
    readRatchetAuditEvents codec (fun _ => 16) (some unterminated) =
      .ok [record "peer-1" 1000] :=
  readRatchetAuditEvents_eq_ok_iff.mpr
    ⟨Nat.le_trans unterminated_length (by decide), linesRecords_unterminated,
      by decide⟩

/-- A call that cannot read the clock is refused before it writes. -/
theorem refused_append_keeps_journal_unclocked :
    let clockless := { call "peer-2" 2000 with clock := none }
    (∃ error, (appendRatchetAuditEvent codec ⟨2⟩ (some unterminated)
        clockless).1 = .error error) ∧
      ∀ error, (appendRatchetAuditEvent codec ⟨2⟩ (some unterminated)
          clockless).1 = .error error →
        ∀ readSize, readRatchetAuditEvents codec readSize
          (appendRatchetAuditEvent codec ⟨2⟩ (some unterminated)
            clockless).2 = .ok [record "peer-1" 1000] := by
  refine ⟨⟨_, rfl⟩, ?_⟩
  refine (refused_append_keeps_journal_iff rejectsTrailing ⟨2⟩
    (some unterminated) { call "peer-2" 2000 with clock := none }
    (fun _ => 16) _ read_unterminated).mpr ?_
  rintro _ ⟨⟩

/-- The next event joins the unfinished line.  The call is refused, and from
then on so is every attempt to read the journal. -/
theorem refused_append_spoils_journal :
    readRatchetAuditEvents codec (fun _ => 16) (some unterminated) =
      .ok [record "peer-1" 1000] ∧
    (∃ error, (appendRatchetAuditEvent codec ⟨2⟩ (some unterminated)
      (call "peer-2" 2000)).1 = .error error) ∧
    ∀ readSize records, readRatchetAuditEvents codec readSize
      (appendRatchetAuditEvent codec ⟨2⟩ (some unterminated)
        (call "peer-2" 2000)).2 ≠ .ok records := by
  refine ⟨read_unterminated, ?_⟩
  rcases appendRatchetAuditEvent_cases codec ⟨2⟩
      (some unterminated) (call "peer-2" 2000) with
    ⟨hnone, -⟩ | ⟨second, -, ⟨next, hprune, -⟩ | ⟨error, -, happend⟩⟩
  · simp [AuditAppend.record?, call] at hnone
  · obtain ⟨-, records, hrecords, -⟩ := pruneJsonl_succeeds_iff.mp
      ⟨next, hprune⟩
    exact absurd hrecords (linesRecords_joined second records)
  · rw [happend]
    refine ⟨⟨error, rfl⟩, fun readSize records hread => ?_⟩
    exact linesRecords_joined second records
      (readRatchetAuditEvents_eq_ok_iff.mp hread).2.1

end RatchetAuditWitness

end Shph
