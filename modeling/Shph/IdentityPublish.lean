/-
What the directory provider makes of the records that are published.  The
file of a record is named by its hash, and a file that is there already is
compared byte for byte.  Writing a record as JSON is a parameter.
-/
import Shph.IdentityDirectory
import Shph.SessionDirectory

namespace Shph.Identity

open ByteCodec Checked StatefulRun

structure PublishReceipt where
  recordHash : Hash32
deriving Repr, DecidableEq

def IdentityRecord.toJsonBytes (crypto : RecordCrypto)
    (toJson : IdentityRecord → Bytes) (record : IdentityRecord) :
    Except IdentityError Bytes := do
  record.validateStructure crypto
  require ((toJson record).length ≤ maxRecordBytes)
    (.invalidRecord "serialized record exceeds the safety limit")
  pure (toJson record)

/-- The directories below the root, each with its files by name. -/
abbrev Disk := KeyTable String (KeyTable String Bytes)

/-- The files of a directory come in an order that is up to the system. -/
structure ReadOrder where
  order : Hash32 → List DirectoryEntry → List DirectoryEntry
  perm : ∀ subject entries, (order subject entries).Perm entries

namespace LocalDirectoryProvider

def subjectDir (subject : Hash32) : String := hexEncode subject.val

/-- The sequence in at least twenty digits, then the hash. -/
def recordName (record : IdentityRecord) (hash : Hash32) : String :=
  String.ofList ((toString record.sequence.toNat).toList.leftpad 20 '0') ++
    "-" ++ hexEncode hash.val ++ ".json"

/-- The bytes of the file of a record and the hash in its name. -/
def prepare (crypto : RecordCrypto) (toJson : IdentityRecord → Bytes)
    (record : IdentityRecord) : Except IdentityError (Bytes × Hash32) := do
  record.validateStructure crypto
  let bytes ← record.toJsonBytes crypto toJson
  let hash ← record.recordHash crypto
  pure (bytes, hash)

def publish (crypto : RecordCrypto) (toJson : IdentityRecord → Bytes)
    (disk : Disk) (record : IdentityRecord) :
    Except IdentityError PublishReceipt × Disk :=
  match prepare crypto toJson record with
  | .error error => (.error error, disk)
  | .ok (bytes, hash) =>
      let directory := subjectDir record.subject
      let files := (disk.get directory).getD .empty
      let name := recordName record hash
      match files.get name with
      | none => (.ok ⟨hash⟩, disk.set directory (files.set name bytes))
      | some existing =>
          -- the hard link fails, and the directory is there with its file
          if maxRecordBytes < existing.length then (.error .io, disk)
          else if existing ≠ bytes then
            (.error (.conflict record.sequence), disk)
          else (.ok ⟨hash⟩, disk)

/-- The provider as it reads what was published. -/
def ofDisk (order : ReadOrder) (disk : Disk) : LocalDirectoryProvider where
  listing subject := (disk.get (subjectDir subject)).map fun files =>
    order.order subject (files.entries.map fun file => ⟨file.1, false, file.2⟩)

end LocalDirectoryProvider

open LocalDirectoryProvider

variable {crypto : RecordCrypto} {toJson : IdentityRecord → Bytes}
  {parse : Bytes → Option IdentityRecord} {disk : Disk}
  {record : IdentityRecord}

/-- A record that passes its checks and fits in a file. -/
structure Storable (crypto : RecordCrypto) (toJson : IdentityRecord → Bytes)
    (record : IdentityRecord) : Prop where
  valid : record.validateStructure crypto = .ok ()
  length_le : (toJson record).length ≤ maxRecordBytes

theorem recordHash_of_valid
    (hvalid : record.validateStructure crypto = .ok ()) :
    record.recordHash crypto = .ok (hashOf crypto record) :=
  recordHash_eq_ok_iff.mpr ⟨validateStructure_eq_ok_iff.mp hvalid, rfl⟩

theorem valid_of_recordHash {hash : Hash32}
    (hhash : record.recordHash crypto = .ok hash) :
    record.validateStructure crypto = .ok () ∧ hashOf crypto record = hash := by
  obtain ⟨hvalid, hsame⟩ := recordHash_eq_ok_iff.mp hhash
  exact ⟨validateStructure_eq_ok_iff.mpr hvalid, hsame⟩

theorem prepare_eq_ok_iff {bytes : Bytes} {hash : Hash32} :
    prepare crypto toJson record = .ok (bytes, hash) ↔
      Storable crypto toJson record ∧ toJson record = bytes ∧
        hashOf crypto record = hash := by
  simp only [prepare, IdentityRecord.toJsonBytes, bind_eq_ok, exists_const,
    require_eq_ok_iff, pure_eq_ok, Prod.mk.injEq]
  constructor
  · rintro ⟨_, hvalid, _, ⟨_, _, hlength, rfl⟩, _, hhash, rfl, rfl⟩
    exact ⟨⟨hvalid, hlength⟩, rfl, (valid_of_recordHash hhash).2⟩
  · rintro ⟨hstorable, rfl, rfl⟩
    exact ⟨(), hstorable.valid, _, ⟨(), hstorable.valid,
      hstorable.length_le, rfl⟩, _, recordHash_of_valid hstorable.valid, rfl,
      rfl⟩

/-- The name and the bytes of the file of a record. -/
def fileOf (crypto : RecordCrypto) (toJson : IdentityRecord → Bytes)
    (record : IdentityRecord) : String × Bytes :=
  (recordName record (hashOf crypto record), toJson record)

def filesOf (disk : Disk) (subject : Hash32) : List (String × Bytes) :=
  match disk.get (subjectDir subject) with
  | some files => files.entries
  | none => []

theorem subjectDir_inj {left right : Hash32}
    (heq : subjectDir left = subjectDir right) : left = right :=
  FixedBytes.ext (hexEncode_inj heq)

theorem filesOf_set (disk : Disk) (subject other : Hash32)
    (files : KeyTable String Bytes) :
    filesOf (disk.set (subjectDir subject) files) other =
      if other = subject then files.entries else filesOf disk other := by
  by_cases hsame : other = subject
  · rw [if_pos hsame, hsame, filesOf, KeyTable.get_set_self]
  · have hne : subjectDir other ≠ subjectDir subject :=
      fun heq => hsame (subjectDir_inj heq)
    rw [if_neg hsame, filesOf, KeyTable.get_set_of_ne hne, filesOf]

theorem entries_getD (disk : Disk) (subject : Hash32) :
    ((disk.get (subjectDir subject)).getD .empty).entries =
      filesOf disk subject := by
  rw [filesOf]
  cases disk.get (subjectDir subject) with
  | none => rfl
  | some files => rfl

/-- The names in a directory are distinct. -/
theorem filesOf_nodup (disk : Disk) (subject : Hash32) :
    ((filesOf disk subject).map Prod.fst).Nodup := by
  rw [← entries_getD]
  exact KeyTable.nodup _

/-- What publishing does: nothing, a new file, or a look at the old one. -/
theorem publish_cases (crypto : RecordCrypto)
    (toJson : IdentityRecord → Bytes) (disk : Disk)
    (record : IdentityRecord) :
    (∃ error, publish crypto toJson disk record = (.error error, disk) ∧
      ¬ Storable crypto toJson record) ∨
    (Storable crypto toJson record ∧
      (fileOf crypto toJson record).1 ∉
        (filesOf disk record.subject).map Prod.fst ∧
      ∃ after, publish crypto toJson disk record =
          (.ok ⟨hashOf crypto record⟩, after) ∧
        ∀ subject, filesOf after subject =
          if subject = record.subject then
            filesOf disk record.subject ++ [fileOf crypto toJson record]
          else filesOf disk subject) ∨
    (Storable crypto toJson record ∧ ∃ existing,
      ((fileOf crypto toJson record).1, existing) ∈
        filesOf disk record.subject ∧
      publish crypto toJson disk record =
        (if maxRecordBytes < existing.length then .error .io
        else if existing ≠ toJson record then
          .error (.conflict record.sequence)
        else .ok ⟨hashOf crypto record⟩, disk)) := by
  cases hprepare : prepare crypto toJson record with
  | error error =>
      refine Or.inl ⟨error, by rw [publish, hprepare], fun hstorable => ?_⟩
      have hok := prepare_eq_ok_iff.mpr ⟨hstorable, rfl, rfl⟩
      rw [hprepare] at hok
      cases hok
  | ok prepared =>
      obtain ⟨bytes, hash⟩ := prepared
      obtain ⟨hstorable, rfl, rfl⟩ := prepare_eq_ok_iff.mp hprepare
      have hentries := entries_getD disk record.subject
      right
      cases hget : ((disk.get (subjectDir record.subject)).getD .empty).get
          (recordName record (hashOf crypto record)) with
      | none =>
          left
          have hnew := KeyTable.get_eq_none_iff.mp hget
          refine ⟨hstorable, hentries ▸ hnew, disk.set
            (subjectDir record.subject) (((disk.get (subjectDir
              record.subject)).getD .empty).set (recordName record
                (hashOf crypto record)) (toJson record)), ?_, ?_⟩
          · rw [publish, hprepare]
            simp only [hget]
          · intro subject
            rw [filesOf_set, KeyTable.entries_set_of_new hnew, hentries]
            rfl
      | some existing =>
          right
          have hmem := KeyTable.get_eq_some_iff.mp hget
          refine ⟨hstorable, existing, hentries ▸ hmem, ?_⟩
          rw [publish, hprepare]
          simp only [hget]
          split
          · rfl
          · split <;> rfl

/-- Every file is that of a record kept, in the order they came. -/
structure Keeps (crypto : RecordCrypto) (toJson : IdentityRecord → Bytes)
    (kept : List IdentityRecord) (disk : Disk) : Prop where
  storable : ∀ record ∈ kept, Storable crypto toJson record
  files : ∀ subject, filesOf disk subject =
    (kept.filter fun record => record.subject = subject).map
      (fileOf crypto toJson)

theorem keeps_empty : Keeps crypto toJson [] .empty where
  storable _ hrecord := absurd hrecord List.not_mem_nil
  files _ := rfl

section Keeping

variable {kept : List IdentityRecord}

theorem Keeps.mem_files (hkeeps : Keeps crypto toJson kept disk)
    {subject : Hash32} {file : String × Bytes} :
    file ∈ filesOf disk subject ↔ ∃ old ∈ kept, old.subject = subject ∧
      fileOf crypto toJson old = file := by
  rw [hkeeps.files, List.mem_map]
  simp only [List.mem_filter, decide_eq_true_eq, and_assoc]

/-- A name stands for one text. -/
theorem eq_of_same_name {subject : Hash32} {name : String}
    {left right : Bytes} (hleft : (name, left) ∈ filesOf disk subject)
    (hright : (name, right) ∈ filesOf disk subject) : left = right := by
  have hsame := List.inj_on_of_nodup_map (filesOf_nodup disk subject) hleft
    hright rfl
  exact congrArg Prod.snd hsame

/-- Publishing keeps what was there, and the record if it succeeds. -/
theorem Keeps.after_publish (hkeeps : Keeps crypto toJson kept disk)
    (hread : ∀ old ∈ kept, toJson old = toJson record → old = record) :
    ∃ after, Keeps crypto toJson after
        (publish crypto toJson disk record).2 ∧
      ∀ other, other ∈ after ↔ other ∈ kept ∨ other = record ∧
        ∃ receipt, (publish crypto toJson disk record).1 = .ok receipt := by
  rcases publish_cases crypto toJson disk record with
    ⟨error, hpublish, -⟩ | ⟨hstorable, -, next, hpublish, hfiles⟩ |
      ⟨hstorable, existing, hexisting, hpublish⟩
  · -- the record cannot be stored
    rw [hpublish]
    refine ⟨kept, hkeeps, fun other => ?_⟩
    simp
  · -- there is a new file
    rw [hpublish]
    refine ⟨kept ++ [record], ⟨?_, ?_⟩, fun other => ?_⟩
    · intro other hother
      rcases List.mem_append.mp hother with hold | hnew
      · exact hkeeps.storable other hold
      · rw [List.mem_singleton.mp hnew]
        exact hstorable
    · intro subject
      rw [hfiles, List.filter_append, List.map_append, ← hkeeps.files]
      by_cases hsubject : subject = record.subject
      · rw [if_pos hsubject, hsubject]
        simp
      · have hother : decide (record.subject = subject) = false :=
          decide_eq_false (Ne.symm hsubject)
        rw [if_neg hsubject, List.filter_singleton, hother]
        simp
    · simp
  · -- the name is taken
    rw [hpublish]
    refine ⟨kept, hkeeps, fun other => ?_⟩
    obtain ⟨old, hold, -, hfile⟩ := hkeeps.mem_files.mp hexisting
    have hbytes : toJson old = existing := congrArg Prod.snd hfile
    constructor
    · exact Or.inl
    · rintro (hother | ⟨rfl, receipt, hok⟩)
      · exact hother
      · by_cases hsame : existing = toJson other
        · rw [← hread old hold (hbytes.trans hsame)]
          exact hold
        · dsimp only at hok
          rw [if_pos hsame] at hok
          split at hok <;> cases hok

/-- Under a name that is taken the same text is accepted, no other. -/
theorem Keeps.publish_taken (hkeeps : Keeps crypto toJson kept disk)
    {stored : IdentityRecord} (hstored : stored ∈ kept)
    (hstorable : Storable crypto toJson record)
    (hsubject : record.subject = stored.subject)
    (hsequence : record.sequence = stored.sequence)
    (hhash : hashOf crypto record = hashOf crypto stored) :
    (publish crypto toJson disk record).1 =
      if toJson record = toJson stored then .ok ⟨hashOf crypto stored⟩
      else .error (.conflict record.sequence) := by
  have hname : (fileOf crypto toJson record).1 =
      (fileOf crypto toJson stored).1 := by
    rw [fileOf, fileOf, recordName, recordName, hsequence, hhash]
  have hlength := (hkeeps.storable stored hstored).length_le
  have hmem : fileOf crypto toJson stored ∈ filesOf disk record.subject :=
    hkeeps.mem_files.mpr ⟨stored, hstored, hsubject.symm, rfl⟩
  rcases publish_cases crypto toJson disk record with
    ⟨error, -, hnot⟩ | ⟨-, hnew, -⟩ | ⟨-, existing, hexisting, hpublish⟩
  · exact absurd hstorable hnot
  · exact absurd (List.mem_map.mpr ⟨_, hmem, hname.symm⟩) hnew
  · rw [hname] at hexisting
    have hbytes : existing = toJson stored := eq_of_same_name hexisting hmem
    rw [hpublish, hbytes, if_neg (Nat.not_lt.mpr hlength), hhash]
    by_cases hsame : toJson record = toJson stored
    · rw [if_pos hsame, hsame, if_neg (not_not_intro rfl)]
    · rw [if_neg hsame, if_pos fun heq => hsame heq.symm]

theorem Keeps.publish_again_iff (hkeeps : Keeps crypto toJson kept disk)
    {stored : IdentityRecord} (hstored : stored ∈ kept)
    (hvalid : record.validateStructure crypto = .ok ())
    (hsubject : record.subject = stored.subject)
    (hsequence : record.sequence = stored.sequence)
    (hhash : hashOf crypto record = hashOf crypto stored) :
    (publish crypto toJson disk record).1 =
        .ok ⟨hashOf crypto stored⟩ ↔ toJson record = toJson stored := by
  have hlength := (hkeeps.storable stored hstored).length_le
  constructor
  · intro hok
    rcases publish_cases crypto toJson disk record with
      ⟨error, hpublish, -⟩ | ⟨hstorable, -⟩ | ⟨hstorable, -⟩
    · rw [hpublish] at hok
      cases hok
    all_goals
      rw [hkeeps.publish_taken hstored hstorable hsubject hsequence
        hhash] at hok
      by_contra hother
      rw [if_neg hother] at hok
      cases hok
  · intro hsame
    have hstorable : Storable crypto toJson record := ⟨hvalid, hsame ▸ hlength⟩
    rw [hkeeps.publish_taken hstored hstorable hsubject hsequence hhash,
      if_pos hsame]

end Keeping

section Fetching

variable {subject : Hash32} {kept : List IdentityRecord}

/-- A file that is read as a record of the subject. -/
structure Readable (crypto : RecordCrypto)
    (parse : Bytes → Option IdentityRecord) (subject : Hash32)
    (entry : DirectoryEntry) : Prop where
  extension : entry.hasJsonExtension = true
  file : entry.isSymlink = false
  length_le : entry.bytes.length ≤ maxRecordBytes
  parsed : ∃ record, fromJsonBytes crypto parse entry.bytes = some record ∧
    record.subject = subject

/-- A directory of readable files is returned if it is not too large. -/
theorem fetchEntries_readable {entries : List DirectoryEntry}
    {before : List IdentityRecord}
    (hbefore : before.length ≤ maxProviderRecords)
    (hread : ∀ entry ∈ entries, Readable crypto parse subject entry) :
    fetchEntries crypto parse subject before.length before entries =
      if before.length + entries.length ≤ maxProviderRecords then
        .ok (before ++ entries.filterMap fun entry =>
          fromJsonBytes crypto parse entry.bytes)
      else .error (.providerUnavailable
        "local-directory returned too many records") := by
  induction entries generalizing before with
  | nil =>
      rw [fetchEntries, if_pos (by simpa using hbefore)]
      simp
  | cons entry rest ih =>
      rw [List.forall_mem_cons] at hread
      obtain ⟨⟨hextension, hfile, hlength, record, hrecord, hsubject⟩,
        hrest⟩ := hread
      have hindex : ¬ maxProviderEntries ≤ before.length := by
        unfold maxProviderEntries maxProviderRecords at *
        omega
      have hkept : ¬ (¬ entry.hasJsonExtension = true ∨
          entry.isSymlink = true ∨ maxRecordBytes < entry.bytes.length) := by
        rw [hextension, hfile]
        simpa using hlength
      rw [fetchEntries, if_neg hindex, if_neg hkept, hrecord]
      simp only [hsubject, if_true]
      by_cases hfull : maxProviderRecords ≤ before.length
      · rw [if_pos hfull, if_neg]
        rw [List.length_cons]
        omega
      · have hnext : (before ++ [record]).length = before.length + 1 := by
          rw [List.length_append, List.length_singleton]
        have hrecords := ih (by rw [hnext]; omega) hrest
        have hmore : ((entry :: rest).filterMap fun entry =>
            fromJsonBytes crypto parse entry.bytes) =
              record :: rest.filterMap fun entry =>
                fromJsonBytes crypto parse entry.bytes :=
          List.filterMap_cons_some hrecord
        rw [hnext] at hrecords
        rw [if_neg hfull, hrecords, hmore, List.append_assoc,
          List.singleton_append, List.length_cons, Nat.add_assoc,
          Nat.add_comm 1]

theorem hasJsonExtension_recordName (hash : Hash32) (bytes : Bytes) :
    DirectoryEntry.hasJsonExtension
      ⟨recordName record hash, false, bytes⟩ = true := by
  rw [DirectoryEntry.hasJsonExtension, Bool.and_eq_true,
    List.isSuffixOf_iff_suffix, decide_eq_true_eq]
  simp only [recordName, String.toList_append]
  refine ⟨List.suffix_append _ _, ?_⟩
  simp only [List.length_append]
  have hdash : "-".toList.length = 1 := rfl
  have hjson : ".json".toList.length = 5 := rfl
  omega

/-- The file of a record is read as that record. -/
theorem fromJsonBytes_toJson (hstorable : Storable crypto toJson record)
    (hround : parse (toJson record) = some record) :
    fromJsonBytes crypto parse (toJson record) = some record := by
  rw [fromJsonBytes, if_neg (Nat.not_lt.mpr hstorable.length_le), hround]
  simp only [hstorable.valid]

/-- The records of a subject come back together or not at all. -/
theorem Keeps.fetch (hkeeps : Keeps crypto toJson kept disk)
    (hround : ∀ record ∈ kept, parse (toJson record) = some record)
    (order : ReadOrder) (subject : Hash32) :
    let mine := kept.filter fun record => record.subject = subject
    ∃ fetched, fetched.Perm mine ∧
      (ofDisk order disk).fetch crypto parse subject =
        if mine.length ≤ maxProviderRecords then .ok fetched
        else .error (.providerUnavailable
          "local-directory returned too many records") := by
  intro mine
  have hfiles := hkeeps.files subject
  rw [filesOf] at hfiles
  rw [LocalDirectoryProvider.fetch, ofDisk]
  dsimp only
  cases hdirectory : disk.get (subjectDir subject) with
  | none =>
      rw [hdirectory] at hfiles
      have hnone : mine = [] := List.map_eq_nil_iff.mp hfiles.symm
      refine ⟨[], by rw [hnone], ?_⟩
      rw [hnone]
      rfl
  | some files =>
      rw [hdirectory] at hfiles
      dsimp only at hfiles
      have hperm := order.perm subject
        (files.entries.map fun file => ⟨file.1, false, file.2⟩)
      rw [Option.map_some]
      dsimp only
      generalize order.order subject (files.entries.map fun file =>
        (⟨file.1, false, file.2⟩ : DirectoryEntry)) = entries at hperm ⊢
      rw [hfiles, List.map_map] at hperm
      have hmine : ∀ record ∈ mine, Storable crypto toJson record ∧
          parse (toJson record) = some record ∧ record.subject = subject := by
        intro record hrecord
        obtain ⟨hmem, hsubject⟩ := List.mem_filter.mp hrecord
        exact ⟨hkeeps.storable record hmem, hround record hmem,
          of_decide_eq_true hsubject⟩
      have hread : ∀ entry ∈ entries, Readable crypto parse subject entry := by
        intro entry hentry
        obtain ⟨record, hrecord, rfl⟩ :=
          List.mem_map.mp (hperm.mem_iff.mp hentry)
        obtain ⟨hstorable, hparsed, hsubject⟩ := hmine record hrecord
        exact ⟨hasJsonExtension_recordName _ _, rfl, hstorable.length_le,
          record, fromJsonBytes_toJson hstorable hparsed, hsubject⟩
      have hrecords : (entries.filterMap fun entry =>
          fromJsonBytes crypto parse entry.bytes).Perm mine := by
        have hback : (mine.filterMap fun record =>
            fromJsonBytes crypto parse (toJson record)) = mine := by
          rw [List.filterMap_congr fun record hrecord =>
            fromJsonBytes_toJson (hmine record hrecord).1
              (hmine record hrecord).2.1, List.filterMap_some]
        refine (hperm.filterMap _).trans ?_
        rw [List.filterMap_map]
        exact .of_eq hback
      have hlength : entries.length = mine.length := by
        rw [hperm.length_eq, List.length_map]
      refine ⟨_, hrecords, ?_⟩
      have hempty : ([] : List IdentityRecord).length ≤ maxProviderRecords :=
        Nat.zero_le _
      have hfetch := fetchEntries_readable hempty hread
      rw [List.nil_append, List.length_nil, Nat.zero_add, hlength] at hfetch
      exact hfetch

end Fetching

section Run

/-- Calls to publish with what they returned. -/
abbrev PublishHistory :=
  List (IdentityRecord × Except IdentityError PublishReceipt)

/-- The records whose publication succeeded. -/
def published (history : PublishHistory) : List IdentityRecord :=
  (successes history).map Prod.fst

/-- The different hashes among the records published for a subject. -/
def publishedHashes (crypto : RecordCrypto) (history : PublishHistory)
    (subject : Hash32) : List Hash32 :=
  (((published history).filter fun record => record.subject = subject).map
    (hashOf crypto)).dedup

/-- The records published for the subject, one for each hash. -/
structure ReturnsPublished (crypto : RecordCrypto) (history : PublishHistory)
    (subject : Hash32) (fetched : List IdentityRecord) : Prop where
  mem_iff : ∀ record, record ∈ fetched ↔
    record ∈ published history ∧ record.subject = subject
  distinct : (fetched.map (hashOf crypto)).Nodup

/-- A call that succeeds returns the hash of the record. -/
theorem receipt_of_publish {receipt : PublishReceipt}
    (hok : (publish crypto toJson disk record).1 = .ok receipt) :
    receipt = ⟨hashOf crypto record⟩ := by
  rcases publish_cases crypto toJson disk record with
    ⟨error, hpublish, -⟩ | ⟨-, -, next, hpublish, -⟩ |
      ⟨-, existing, -, hpublish⟩
  · rw [hpublish] at hok
    cases hok
  · rw [hpublish] at hok
    exact (Except.ok.inj hok).symm
  · rw [hpublish] at hok
    dsimp only at hok
    split at hok
    · cases hok
    · split at hok
      · cases hok
      · exact (Except.ok.inj hok).symm

theorem successes_snoc (history : PublishHistory) (record : IdentityRecord)
    (result : Except IdentityError PublishReceipt)
    (entry : IdentityRecord × PublishReceipt) :
    entry ∈ successes (history ++ [(record, result)]) ↔
      entry ∈ successes history ∨
        entry.1 = record ∧ result = .ok entry.2 := by
  rw [successes_append, List.mem_append]
  cases result with
  | error error => simp
  | ok receipt =>
      rw [successes_singleton_ok, List.mem_singleton, Prod.ext_iff,
        Except.ok.injEq, eq_comm (a := receipt)]

/-- After any run the disk keeps the records published, and their receipts
are their hashes. -/
structure Kept (crypto : RecordCrypto) (toJson : IdentityRecord → Bytes)
    (records : List IdentityRecord) (history : PublishHistory)
    (disk : Disk) (kept : List IdentityRecord) : Prop where
  keeps : Keeps crypto toJson kept disk
  mem_iff : ∀ record, record ∈ kept ↔ record ∈ published history
  subset : ∀ record ∈ kept, record ∈ records
  receipts : ∀ entry ∈ successes history, entry.2 = ⟨hashOf crypto entry.1⟩

theorem kept_run {records : List IdentityRecord}
    (hround : ∀ record ∈ records, parse (toJson record) = some record) :
    ∃ kept, Kept crypto toJson records
      (trace (publish crypto toJson) .empty records)
      (final (publish crypto toJson) .empty records) kept := by
  apply history_invariant_of_mem (P := fun history disk =>
    ∃ kept, Kept crypto toJson records history disk kept)
  · exact ⟨[], keeps_empty, fun _ => Iff.rfl,
      fun _ hrecord => absurd hrecord List.not_mem_nil,
      fun _ hentry => absurd hentry List.not_mem_nil⟩
  · rintro history disk record hrecord ⟨kept, hkept⟩
    have hread : ∀ old ∈ kept, toJson old = toJson record → old = record := by
      intro old hold hsame
      have hparsed := hround old (hkept.subset old hold)
      rw [hsame, hround record hrecord] at hparsed
      exact (Option.some.inj hparsed).symm
    obtain ⟨after, hafter, hmem⟩ := hkept.keeps.after_publish hread
    refine ⟨after, hafter, fun other => ?_, fun other hother => ?_, ?_⟩
    · rw [hmem, hkept.mem_iff, published, published, List.mem_map,
        List.mem_map]
      simp only [successes_snoc]
      constructor
      · rintro (⟨entry, hentry, rfl⟩ | ⟨rfl, receipt, hok⟩)
        · exact ⟨entry, Or.inl hentry, rfl⟩
        · exact ⟨(other, receipt), Or.inr ⟨rfl, hok⟩, rfl⟩
      · rintro ⟨entry, hentry | ⟨hsame, hok⟩, rfl⟩
        · exact Or.inl ⟨entry, hentry, rfl⟩
        · exact Or.inr ⟨hsame, entry.2, hok⟩
    · rcases (hmem other).mp hother with hold | ⟨rfl, -⟩
      · exact hkept.subset other hold
      · exact hrecord
    · intro entry hentry
      rcases (successes_snoc _ _ _ _).mp hentry with hold | ⟨hsame, hok⟩
      · exact hkept.receipts entry hold
      · rw [hsame]
        exact receipt_of_publish hok

/-- Without collisions the records kept for a subject have distinct hashes:
equal hashes are those of one record in two orders, and both orders have the
same file. -/
theorem Keeps.hashes_nodup {kept : List IdentityRecord}
    (hkeeps : Keeps crypto toJson kept disk)
    (hcollision : ∀ left ∈ kept, ∀ right ∈ kept,
      hashOf crypto left = hashOf crypto right →
        hashBytes left = hashBytes right) (subject : Hash32) :
    ((kept.filter fun record => record.subject = subject).map
      (hashOf crypto)).Nodup := by
  have hnames := filesOf_nodup disk subject
  rw [hkeeps.files, List.map_map] at hnames
  refine List.Nodup.map_on ?_ (List.Nodup.of_map _ hnames)
  intro left hleft right hright hhash
  have hmemLeft := List.mem_of_mem_filter hleft
  have hmemRight := List.mem_of_mem_filter hright
  obtain ⟨hbodyLeft, hsignedLeft⟩ := validateStructure_eq_ok_iff.mp
    (hkeeps.storable left hmemLeft).valid
  obtain ⟨hbodyRight, hsignedRight⟩ := validateStructure_eq_ok_iff.mp
    (hkeeps.storable right hmemRight).valid
  have hsame := reordered_of_hashBytes hbodyLeft hsignedLeft hbodyRight
    hsignedRight (hcollision left hmemLeft right hmemRight hhash)
  apply List.inj_on_of_nodup_map hnames hleft hright
  simp only [Function.comp, fileOf, recordName, hsame.1.sequence, hhash]

theorem publishedHashes_length {records kept : List IdentityRecord}
    {history : PublishHistory}
    (hkept : Kept crypto toJson records history disk kept)
    {subject : Hash32} (hnodup : ((kept.filter fun record =>
      record.subject = subject).map (hashOf crypto)).Nodup) :
    (publishedHashes crypto history subject).length =
      (kept.filter fun record => record.subject = subject).length := by
  rw [← List.length_map (f := hashOf crypto)]
  apply List.Perm.length_eq
  rw [publishedHashes, List.perm_ext_iff_of_nodup (List.nodup_dedup _) hnodup]
  intro hash
  simp only [List.mem_dedup, List.mem_map, List.mem_filter, hkept.mem_iff]

/-- After any run, a subject's records are all returned just when at most as
many were published as a provider may return, and what has the hash of a
published record is accepted again just when it is that record, its lists in
the same order. -/
theorem published_fetch_iff {records : List IdentityRecord}
    (hround : ∀ record ∈ records, parse (toJson record) = some record)
    (hcollision : ∀ left ∈ records, ∀ right ∈ records,
      hashOf crypto left = hashOf crypto right →
        hashBytes left = hashBytes right) (order : ReadOrder) :
    let history := trace (publish crypto toJson) .empty records
    let disk := final (publish crypto toJson) .empty records
    (∀ subject, (∃ fetched, (ofDisk order disk).fetch crypto parse subject =
        .ok fetched ∧ ReturnsPublished crypto history subject fetched) ↔
      (publishedHashes crypto history subject).length ≤
        maxProviderRecords) ∧
    ∀ stored receipt, (stored, receipt) ∈ successes history →
      ∀ record, parse (toJson record) = some record →
        record.recordHash crypto = .ok receipt.recordHash →
        record.subject = stored.subject →
        record.sequence = stored.sequence →
          ((publish crypto toJson disk record).1 = .ok receipt ↔
            record = stored) := by
  intro history disk
  obtain ⟨kept, hkept⟩ : ∃ kept, Kept crypto toJson records history disk
    kept := kept_run hround
  have hreadable : ∀ record ∈ kept, parse (toJson record) = some record :=
    fun record hrecord => hround record (hkept.subset record hrecord)
  have hdistinct := hkept.keeps.hashes_nodup fun left hleft right hright =>
    hcollision left (hkept.subset left hleft) right
      (hkept.subset right hright)
  constructor
  · intro subject
    obtain ⟨fetched, hperm, hfetch⟩ :=
      hkept.keeps.fetch hreadable order subject
    rw [publishedHashes_length hkept (hdistinct subject)]
    constructor
    · rintro ⟨other, hother, -⟩
      by_contra hmany
      rw [hfetch, if_neg hmany] at hother
      cases hother
    · intro hfew
      refine ⟨fetched, hfetch.trans (if_pos hfew), fun record => ?_, ?_⟩
      · rw [hperm.mem_iff, List.mem_filter, decide_eq_true_eq,
          hkept.mem_iff]
      · exact (hperm.map _).nodup_iff.mpr (hdistinct subject)
  · intro stored receipt hsuccess record hparsed hhash hsubject hsequence
    have hstored : stored ∈ kept :=
      (hkept.mem_iff stored).mpr (List.mem_map.mpr ⟨_, hsuccess, rfl⟩)
    have hreceipt : receipt = ⟨hashOf crypto stored⟩ :=
      hkept.receipts _ hsuccess
    obtain ⟨hvalid, hsame⟩ := valid_of_recordHash hhash
    rw [hreceipt] at hsame ⊢
    rw [hkept.keeps.publish_again_iff hstored hvalid hsubject hsequence hsame]
    constructor
    · intro htext
      have hback := hreadable stored hstored
      rw [← htext, hparsed] at hback
      exact Option.some.inj hback
    · rintro rfl
      rfl

end Run

namespace IdentityWitness

/-- A key as it is written. -/
def keyJson (keyId role algorithm publicKey : String) : List String :=
  ["    \x7b\n      \"key_id\": \"", keyId, "\",\n      \"role\": \"", role,
    "\",\n      \"algorithm\": \"", algorithm,
    "\",\n      \"public_key\": \"", publicKey,
    "\",\n      \"not_before\": 1000,\n      \"not_after\": 5000,\n",
    "      \"previous_key_id\": null\n    \x7d"]

def signatureJson (keyId signature : String) : List String :=
  ["    \x7b\n      \"key_id\": \"", keyId,
    "\",\n      \"algorithm\": \"ed25519\",\n      \"signature\": \"",
    signature, "\"\n    \x7d"]

def rootKeyId : String :=
  "69297a0d4a2ce28cb612f3ae42bef009fdb5424ff151bf48a9c59696e57ad139"

def recoveryKeyId : String :=
  "ee13a5773edb291c9bfb7ad2c029627cd1f371e34b3b712ed0e74fbe4de50add"

def bindingKeyId : String :=
  "fa9c24a6b00fdeca1f87054e40a664184467d81a45d11c63854e57a2f809577d"

def keysJson : List (List String) :=
  [keyJson rootKeyId "root-signing" "ed25519"
      "iojj3XQJ8ZX9UtstPLpdcspnCb8dlBIb83SIAbQPb1w=",
    keyJson recoveryKeyId "recovery-signing" "ed25519"
      "gTl3Dqh9F19Wo1Rmw0x+zMuNipG07jeiXfYPW4/Js5Q=",
    keyJson bindingKeyId "identity-binding" "x25519"
      "hSDwCYkwp1R0i33ctD73Wg2/Og0mOBr066SpjqqbTmo="]

def signaturesJson : List (List String) :=
  [signatureJson rootKeyId ("k8uD1JTfI7aEq1h/Zp6NQsHcGRbVghvd7CS3h+cg1wy" ++
      "oguC2If5uIvQTN7SoTb/vZpl52wcE94F4MH/XVH8lDA=="),
    signatureJson recoveryKeyId ("cI2L6NQ+h3z11k8o/eaIp/H3xuG8eYKPX4A9bYD" ++
      "kEN+jOttvcJ9qlLHOokfzoV2nfiSv+BdH/sDErHvM42DWDw==")]

/-- The text of the record with its keys and signatures in some order. -/
def recordJson (keys signatures : List (List String)) : Bytes :=
  fileBytes (["\x7b\n  \"version\": 1,\n  \"subject\": \"",
    "3a9b3aaf127f3284fecef1cd28159c8f706ea11d14a2aaa6add7080a53b3366d",
    "\",\n  \"signature_profile\": \"ed25519\",\n  \"sequence\": 1,\n",
    "  \"issued_at\": 1001,\n  \"expires_at\": 2000,\n",
    "  \"previous_record\": null,\n  \"status\": \x7b\n",
    "    \"state\": \"active\"\n  \x7d,\n  \"keys\": [\n"] ++
    (keys.intersperse [",\n"]).flatten ++
    ["\n  ],\n  \"endpoints\": [\n    \x7b\n      \"transport\": \"tcp\",\n",
      "      \"address\": \"192.0.2.1:7000\",\n      \"priority\": 0\n",
      "    \x7d\n  ],\n  \"capabilities\": [\n    \"relay\"\n  ],\n",
      "  \"signatures\": [\n"] ++
    (signatures.intersperse [",\n"]).flatten ++ ["\n  ]\n\x7d"])

def firstText : Bytes := recordJson keysJson signaturesJson

def reversedText : Bytes := recordJson keysJson.reverse signaturesJson.reverse

/-- What is written for the two records. -/
def writeTexts (record : IdentityRecord) : Bytes :=
  if record = first then firstText
  else if record = firstReversed then reversedText
  else []

def readTexts (bytes : Bytes) : Option IdentityRecord :=
  if bytes = firstText then some first
  else if bytes = reversedText then some firstReversed
  else none

theorem reversedText_ne : reversedText ≠ firstText := by decide +kernel

theorem firstReversed_ne : firstReversed ≠ first := by decide

theorem writeTexts_first : writeTexts first = firstText := if_pos rfl

theorem writeTexts_firstReversed : writeTexts firstReversed = reversedText := by
  rw [writeTexts, if_neg firstReversed_ne, if_pos rfl]

theorem readTexts_writeTexts : ∀ record ∈ [first, firstReversed],
    readTexts (writeTexts record) = some record := by
  intro record hrecord
  simp only [List.mem_cons, List.not_mem_nil, or_false] at hrecord
  rcases hrecord with rfl | rfl
  · rw [writeTexts_first, readTexts, if_pos rfl]
  · rw [writeTexts_firstReversed, readTexts, if_neg reversedText_ne,
      if_pos rfl]

theorem reordered_first : Reordered first firstReversed :=
  ⟨⟨rfl, rfl, rfl, rfl, rfl, rfl, rfl, rfl, (List.reverse_perm _).symm,
    .refl _, .refl _⟩, (List.reverse_perm _).symm⟩

theorem hashBytes_firstReversed : hashBytes firstReversed = hashBytes first :=
  (hashBytes_eq_of_reordered verified_first.body reordered_first).symm

theorem hashOf_firstReversed :
    hashOf firstCrypto firstReversed = hashOf firstCrypto first := by
  rw [hashOf, hashBytes_firstReversed, hashOf]

theorem storable_first : Storable firstCrypto writeTexts first where
  valid := by decide
  length_le := by
    rw [writeTexts_first]
    decide +kernel

theorem storable_firstReversed :
    Storable firstCrypto writeTexts firstReversed where
  valid := by decide
  length_le := by
    rw [writeTexts_firstReversed]
    decide +kernel

/-- Into an empty directory the first record goes. -/
theorem publish_first :
    ∃ after, publish firstCrypto writeTexts .empty first =
      (.ok ⟨hashOf firstCrypto first⟩, after) ∧
        Keeps firstCrypto writeTexts [first] after := by
  rcases publish_cases firstCrypto writeTexts .empty first with
    ⟨error, -, hnot⟩ | ⟨hstorable, -, after, hpublish, hfiles⟩ |
      ⟨-, existing, hexisting, -⟩
  · exact absurd storable_first hnot
  · refine ⟨after, hpublish, fun record hrecord => ?_, fun subject => ?_⟩
    · rw [List.mem_singleton.mp hrecord]
      exact hstorable
    · rw [hfiles, List.filter_singleton]
      by_cases hsubject : subject = first.subject
      · rw [if_pos hsubject, decide_eq_true hsubject.symm]
        rfl
      · rw [if_neg hsubject, decide_eq_false (Ne.symm hsubject)]
        rfl
  · cases hexisting

theorem reordered_copy_conflicts :
    ∃ receipt after, publish firstCrypto writeTexts .empty first =
        (.ok receipt, after) ∧
      firstReversed.recordHash firstCrypto = .ok receipt.recordHash ∧
      firstReversed.subject = first.subject ∧
      firstReversed.sequence = first.sequence ∧
      (publish firstCrypto writeTexts after firstReversed).1 =
        .error (.conflict 1) := by
  obtain ⟨after, hpublish, hkeeps⟩ := publish_first
  refine ⟨_, after, hpublish, ?_, rfl, rfl, ?_⟩
  · rw [recordHash_of_valid storable_firstReversed.valid,
      hashOf_firstReversed]
  · rw [hkeeps.publish_taken (List.mem_singleton_self _)
      storable_firstReversed rfl rfl hashOf_firstReversed, if_neg]
    · rfl
    · rw [writeTexts_first, writeTexts_firstReversed]
      exact reversedText_ne

/-- The files as they are stored. -/
def storedOrder : ReadOrder := ⟨fun _ entries => entries, fun _ _ => .refl _⟩

theorem published_fetch_iff_first :
    let history := trace (publish firstCrypto writeTexts) .empty [first]
    let disk := final (publish firstCrypto writeTexts) .empty [first]
    (∃ fetched, (ofDisk storedOrder disk).fetch firstCrypto readTexts
        subject = .ok fetched ∧
      ReturnsPublished firstCrypto history subject fetched) ∧
    (publish firstCrypto writeTexts disk firstReversed).1 ≠
      .ok ⟨hashOf firstCrypto first⟩ := by
  intro history disk
  have hround : ∀ record ∈ [first],
      readTexts (writeTexts record) = some record :=
    fun record hrecord => readTexts_writeTexts record
      (List.mem_cons.mpr (Or.inl (List.mem_singleton.mp hrecord)))
  have hcollision : ∀ left ∈ [first], ∀ right ∈ [first],
      hashOf firstCrypto left = hashOf firstCrypto right →
        hashBytes left = hashBytes right := by
    intro left hleft right hright _
    rw [List.mem_singleton.mp hleft, List.mem_singleton.mp hright]
  obtain ⟨hfetch, hagain⟩ := @published_fetch_iff firstCrypto writeTexts
    readTexts [first] hround hcollision storedOrder
  obtain ⟨after, hpublish, -⟩ := publish_first
  have hsuccess : (first, ⟨hashOf firstCrypto first⟩) ∈ successes history := by
    simp only [history, trace_cons, trace_nil, hpublish,
      successes_singleton_ok, List.mem_singleton]
  constructor
  · apply (hfetch subject).mpr
    refine Nat.le_trans (List.dedup_sublist _).length_le ?_
    rw [List.length_map]
    refine Nat.le_trans (List.length_filter_le _ _) ?_
    rw [published, List.length_map]
    refine Nat.le_trans (successes_length_le _) ?_
    rw [trace_length]
    exact Nat.le_of_ble_eq_true rfl
  · intro hok
    have hparsed := readTexts_writeTexts firstReversed
      (List.mem_cons_of_mem _ (List.mem_singleton_self _))
    have hsame := hagain first _ hsuccess firstReversed hparsed
    rw [recordHash_of_valid storable_firstReversed.valid,
      hashOf_firstReversed] at hsame
    dsimp only at hsame
    exact firstReversed_ne ((hsame rfl rfl rfl).mp hok)

end IdentityWitness

end Shph.Identity
