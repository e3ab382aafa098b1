/-
What the file operations do to a directory of plain files, and how far a scan
within its budgets gets.  Both adapters keep nothing else in a queue directory
while its envelopes are sent and received.
-/
import Shph.FileSpool
import Shph.Library.Decimal
import Shph.Library.FlatJson

namespace Shph

open ByteCodec Decimal

namespace Entries

theorem lookup_eq_some_of_mem {entries : Entries} {name : String} {node : Node}
    (hnodup : (entries.map Prod.fst).Nodup) (hmem : (name, node) ∈ entries) :
    entries.lookup name = some node := by
  induction entries with
  | nil => simp at hmem
  | cons entry entries ih =>
      rw [List.map_cons, List.nodup_cons] at hnodup
      rcases List.mem_cons.mp hmem with rfl | hmem
      · exact List.lookup_cons_self
      · have hne : name ≠ entry.1 := by
          rintro rfl
          exact hnodup.1 (List.mem_map.mpr ⟨(entry.1, node), hmem, rfl⟩)
        rw [List.lookup_cons, beq_false_of_ne hne]
        exact ih hnodup.2 hmem

theorem lookup_eq_none_of_forall {entries : Entries} {name : String}
    (hfresh : ∀ entry ∈ entries, entry.1 ≠ name) :
    entries.lookup name = none := by
  rw [List.lookup_eq_none_iff]
  intro entry hmem
  simpa using (hfresh entry hmem).symm

theorem remove_eq_self {entries : Entries} {name : String}
    (hfresh : ∀ entry ∈ entries, entry.1 ≠ name) :
    entries.remove name = entries := by
  rw [remove, List.filter_eq_self]
  intro entry hmem
  simpa using hfresh entry hmem

end Entries

theorem freshName_of_free {taken : String → Bool} {name : Nat → Nat → String}
    {attempts attempt counter : Nat}
    (hfree : taken (name counter attempt) = false) :
    freshName taken name (attempts + 1) attempt counter =
      (some (name counter attempt), counter + 1) := by
  simp [freshName, hfree]

/-- The names the adapters use for temporary and claimed files. -/
def isHidden (name : String) : Bool := name.toList.head? = some '.'

@[simp] theorem isHidden_tempFileName (name : String) (pid counter : Nat) :
    isHidden (tempFileName name pid counter) = true := by
  simp [isHidden, tempFileName, ToString.toString]

@[simp] theorem isHidden_claimedFileName (name : String)
    (pid counter attempt : Nat) :
    isHidden (claimedFileName name pid counter attempt) = true := by
  simp [isHidden, claimedFileName, ToString.toString]

theorem textBytes_inj {left right : String}
    (heq : textBytes left = textBytes right) : left = right := by
  apply String.toByteArray_inj.mp
  apply ByteArray.ext
  exact Array.toList_inj.mp heq

namespace FileSystem

@[simp] theorem entries_setEntries (fs : FileSystem) (directory : String)
    (entries : Entries) :
    (fs.setEntries directory entries).entries directory = entries := by
  simp [FileSystem.entries, setEntries]

@[simp] theorem lookup_setEntries (fs : FileSystem) (directory : String)
    (entries : Entries) :
    (fs.setEntries directory entries).lookup directory =
      .directory entries := by
  simp [setEntries]

@[simp] theorem entries_tempFileCounter (fs : FileSystem) (directory : String)
    (counter : Nat) :
    { fs with tempFileCounter := counter }.entries directory =
      fs.entries directory := rfl

/-- The directory holds exactly these files, and none of them is hidden. -/
structure Holds (fs : FileSystem) (directory : String)
    (files : List (String × Bytes)) : Prop where
  lookup_ne : fs.lookup directory ≠ .notDirectory
  perm : (fs.entries directory).Perm
    (files.map fun file => (file.1, .file file.2))
  nodup : (files.map Prod.fst).Nodup
  visible : ∀ file ∈ files, isHidden file.1 = false

variable {fs : FileSystem} {directory : String} {files : List (String × Bytes)}

theorem Holds.nodup_entries (hholds : fs.Holds directory files) :
    ((fs.entries directory).map Prod.fst).Nodup := by
  have hperm := hholds.perm.map Prod.fst
  rw [hperm.nodup_iff, List.map_map]
  exact hholds.nodup

theorem Holds.mem_entries_iff (hholds : fs.Holds directory files)
    (entry : String × Node) :
    entry ∈ fs.entries directory ↔
      ∃ bytes, entry.2 = .file bytes ∧ (entry.1, bytes) ∈ files := by
  rw [hholds.perm.mem_iff, List.mem_map]
  constructor
  · rintro ⟨file, hmem, rfl⟩
    exact ⟨file.2, rfl, hmem⟩
  · rintro ⟨bytes, hnode, hmem⟩
    exact ⟨(entry.1, bytes), hmem, by rw [← hnode]⟩

theorem Holds.find_of_mem (hholds : fs.Holds directory files) {name : String}
    {bytes : Bytes} (hmem : (name, bytes) ∈ files) :
    fs.find directory name = some (.file bytes) :=
  Entries.lookup_eq_some_of_mem hholds.nodup_entries
    ((hholds.mem_entries_iff (name, .file bytes)).mpr ⟨bytes, rfl, hmem⟩)

theorem Holds.find_hidden (hholds : fs.Holds directory files) {name : String}
    (hhidden : isHidden name = true) : fs.find directory name = none := by
  apply Entries.lookup_eq_none_of_forall
  rintro entry hentry rfl
  obtain ⟨bytes, _, hmem⟩ := (hholds.mem_entries_iff entry).mp hentry
  simp [hholds.visible _ hmem] at hhidden

theorem Holds.find_file (hholds : fs.Holds directory files) {name : String}
    {node : Node} (hfind : fs.find directory name = some node) :
    ∃ bytes, node = .file bytes := by
  obtain ⟨front, back, hsplit, _⟩ := List.lookup_eq_some_iff.mp hfind
  have hentry : (name, node) ∈ fs.entries directory := by simp [hsplit]
  obtain ⟨bytes, hnode, _⟩ := (hholds.mem_entries_iff _).mp hentry
  exact ⟨bytes, hnode⟩

theorem Holds.of_missing (hmissing : fs.lookup directory = .missing) :
    fs.Holds directory [] :=
  ⟨by simp [hmissing], by simp [FileSystem.entries, hmissing], by simp,
    by simp⟩

theorem Holds.remove (hholds : fs.Holds directory files) (name : String) :
    ((fs.entries directory).remove name).Perm
      ((files.filter fun file => file.1 ≠ name).map fun file =>
        (file.1, .file file.2)) := by
  have hfilter := hholds.perm.filter fun entry => decide (entry.1 ≠ name)
  rwa [List.filter_map] at hfilter

theorem Holds.filter_nodup (hholds : fs.Holds directory files)
    (name : String) :
    ((files.filter fun file => file.1 ≠ name).map Prod.fst).Nodup :=
  hholds.nodup.sublist (List.filter_sublist.map Prod.fst)

theorem Holds.createDirAll (hholds : fs.Holds directory files) :
    ∃ next, fs.createDirAll directory = (.ok (), next) ∧
      next.Holds directory files := by
  unfold FileSystem.createDirAll
  cases hlookup : fs.lookup directory with
  | missing =>
      have hempty : fs.entries directory = [] := by
        simp [FileSystem.entries, hlookup]
      refine ⟨_, rfl, by simp, ?_, hholds.nodup, hholds.visible⟩
      rw [entries_setEntries, ← hempty]
      exact hholds.perm
  | notDirectory => exact absurd hlookup hholds.lookup_ne
  | directory entries => exact ⟨fs, rfl, hholds⟩

/-- Writing replaces a file of the same name and touches no other file. -/
theorem Holds.write (hholds : fs.Holds directory files) {name : String}
    (hvisible : isHidden name = false) (bytes : Bytes) :
    ∃ next, fs.writeFileAtomically directory name bytes = (.ok (), next) ∧
      next.Holds directory
        ((files.filter fun file => file.1 ≠ name) ++ [(name, bytes)]) := by
  obtain ⟨created, hcreate, hcreated⟩ := hholds.createDirAll
  have hfile (node : Node) (hnode : ∀ bytes, node ≠ .file bytes) :
      created.find directory name ≠ some node := by
    intro hfind
    obtain ⟨old, hold⟩ := hcreated.find_file hfind
    exact hnode old hold
  have htemp : (created.find directory (tempFileName name created.processId
      created.tempFileCounter)).isSome = false := by
    rw [hcreated.find_hidden (by simp)]
    rfl
  have hfresh := @freshName_of_free
    (fun temp => (created.find directory temp).isSome)
    (fun counter _ => tempFileName name created.processId counter) 31 0
    created.tempFileCounter htemp
  refine ⟨({ created with
      tempFileCounter := created.tempFileCounter + 1 }).setEntries directory
        ((created.entries directory).put name (.file bytes)), ?_, by simp, ?_,
      ?_, ?_⟩
  · have hsecond : ({ created with tempFileCounter :=
          created.tempFileCounter + 1 }).find directory name ≠
        some .directory := hfile .directory (by simp)
    simp only [writeFileAtomically, hcreate,
      if_neg (hfile .symlink (by simp)), hfresh, reduceCtorEq, if_false,
      if_neg hsecond, entries_tempFileCounter]
  · rw [entries_setEntries, List.map_append]
    exact (hcreated.remove name).append_right _
  · rw [List.map_append, List.nodup_append]
    refine ⟨hholds.filter_nodup name, by simp, ?_⟩
    rintro old hold new hnew rfl
    simp_all
  · intro file hmem
    rcases List.mem_append.mp hmem with hmem | hmem
    · exact hholds.visible file (List.mem_filter.mp hmem).1
    · rw [List.mem_singleton.mp hmem]
      exact hvisible

/-- Claiming takes one file away; what is left once the claimed file has been
removed is the directory without it. -/
theorem Holds.claim (hholds : fs.Holds directory files) {name : String}
    {bytes : Bytes} (hmem : (name, bytes) ∈ files) :
    ∃ target next,
      fs.claimFile directory name =
          (.ok (some ⟨directory, name, target⟩), next) ∧
        next.find directory target = some (.file bytes) ∧
        (next.removeFile directory target).Holds directory
          (files.filter fun file => file.1 ≠ name) := by
  have htarget : (fs.find directory (claimedFileName name fs.processId
      fs.tempFileCounter 0)).isSome = false := by
    rw [hholds.find_hidden (by simp)]
    rfl
  have hfresh := @freshName_of_free
    (fun target => (fs.find directory target).isSome)
    (claimedFileName name fs.processId) 31 0 fs.tempFileCounter htarget
  generalize htargetName : claimedFileName name fs.processId
    fs.tempFileCounter 0 = target at hfresh
  have hhidden : isHidden target = true := by
    rw [← htargetName]
    simp
  have hfree : ∀ entry ∈ (fs.entries directory).remove name,
      entry.1 ≠ target := by
    rintro entry hentry rfl
    obtain ⟨old, _, hold⟩ := (hholds.mem_entries_iff entry).mp
      (List.mem_filter.mp hentry).1
    simp [hholds.visible _ hold] at hhidden
  have hput : ((fs.entries directory).remove name).put target (.file bytes) =
      (fs.entries directory).remove name ++ [(target, .file bytes)] := by
    rw [Entries.put]
    exact congrArg (· ++ _) (Entries.remove_eq_self hfree)
  refine ⟨target, ({ fs with
      tempFileCounter := fs.tempFileCounter + 1 }).rename directory name target
        (.file bytes), ?_, ?_, ?_⟩
  · simp only [claimFile, hholds.find_of_mem hmem, hfresh]
  · rw [find, rename, entries_setEntries, entries_tempFileCounter, hput,
      List.lookup_append, Entries.lookup_eq_none_of_forall hfree]
    simp
  · refine ⟨by simp [removeFile], ?_, hholds.filter_nodup name, ?_⟩
    · rw [removeFile, rename, entries_setEntries, entries_setEntries,
        entries_tempFileCounter, hput, Entries.remove, List.filter_append]
      have hleft : ((fs.entries directory).remove name).filter
          (fun entry => entry.1 ≠ target) = (fs.entries directory).remove name :=
        Entries.remove_eq_self hfree
      rw [hleft]
      simpa using hholds.remove name
    · intro file hfile
      exact hholds.visible file (List.mem_filter.mp hfile).1

end FileSystem

/-- A name that is not empty before its dot has the extension behind it. -/
theorem pathExtension_append {front extension : String}
    (hfront : front.toList ≠ []) (hplain : '.' ∉ extension.toList) :
    pathExtension (front ++ "." ++ extension) = extension := by
  have hlast : (front ++ "." ++ extension).toList.rtakeWhile (· ≠ '.') =
      extension.toList := by
    have hall : ∀ char ∈ extension.toList.reverse,
        (decide (char ≠ '.')) = true := by
      intro char hchar
      rw [List.mem_reverse] at hchar
      simpa using ne_of_mem_of_not_mem hchar hplain
    simp only [List.rtakeWhile, String.toList_append, List.reverse_append]
    rw [List.takeWhile_append_of_pos hall]
    simp
  have hlength := List.length_pos_of_ne_nil hfront
  unfold pathExtension
  dsimp only
  rw [hlast, if_pos, String.ofList_toList]
  have hdot : ".".toList.length = 1 := rfl
  simp only [String.toList_append, List.length_append, hdot]
  omega

theorem saturatingAdd_le_iff {left right bound : Nat} (hbound : bound < u64Max) :
    saturatingAdd left right ≤ bound ↔ left + right ≤ bound := by
  unfold saturatingAdd
  omega

theorem saturatingAdd_of_le {left right bound : Nat}
    (hbound : bound < u64Max) (hle : left + right ≤ bound) :
    saturatingAdd left right = left + right :=
  min_eq_left (hle.trans hbound.le)

theorem accountScanEntry_eq_ok_iff {scanned next : Nat} :
    accountScanEntry scanned = .ok next ↔
      scanned + 1 ≤ maxQueueScanEntries ∧ next = scanned + 1 := by
  have hbound : maxQueueScanEntries < u64Max := by decide
  simp only [accountScanEntry, bind_eq_ok_iff, ensure_eq_ok_iff,
    saturatingAdd_le_iff hbound, exists_const, pure_eq_ok_iff]
  apply and_congr_right
  intro hle
  rw [saturatingAdd_of_le hbound hle]
  exact eq_comm

theorem accountScanBytes_eq_ok_iff {scannedBytes bytes next : Nat} :
    accountScanBytes scannedBytes bytes = .ok next ↔
      scannedBytes + bytes ≤ maxQueueScanBytes ∧
        next = scannedBytes + bytes := by
  have hbound : maxQueueScanBytes < u64Max := by decide
  simp only [accountScanBytes, bind_eq_ok_iff, ensure_eq_ok_iff,
    saturatingAdd_le_iff hbound, exists_const, pure_eq_ok_iff]
  apply and_congr_right
  intro hle
  rw [saturatingAdd_of_le hbound hle]
  exact eq_comm

theorem accountCandidateMemory_eq_ok_iff {candidateMemory next : Nat}
    {path : String} {metadata : List String} :
    accountCandidateMemory candidateMemory path metadata = .ok next ↔
      (∀ value ∈ metadata, value.utf8ByteSize ≤ maxAdapterMetadataBytes) ∧
        candidateMemory + candidateCost path metadata ≤
          maxQueueCandidateMemory ∧
        next = candidateMemory + candidateCost path metadata := by
  have hbound : maxQueueCandidateMemory < u64Max := by decide
  simp only [accountCandidateMemory, bind_eq_ok_iff, ensure_eq_ok_iff,
    saturatingAdd_le_iff hbound, exists_const, pure_eq_ok_iff]
  apply and_congr_right
  intro _
  apply and_congr_right
  intro hle
  rw [saturatingAdd_of_le hbound hle]
  exact eq_comm

section Sizes

theorem safePathComponent_length_le (sha256 : Bytes → FixedBytes 32)
    (input : String) : (safePathComponent sha256 input).length ≤ 57 := by
  simp only [safePathComponent, String.length_append]
  generalize hreadable : (input.toList.take 24).map (fun char =>
    if char.isAlphanum || char = '-' || char = '_' then char else '_') =
      readable
  have hlength : readable.length ≤ 24 := by
    rw [← hreadable, List.length_map, List.length_take]
    exact Nat.min_le_left _ _
  have hstart : (String.ofList
      (if readable = [] then ['_'] else readable)).length ≤ 24 := by
    rw [String.length_ofList]
    split
    · decide
    · exact hlength
  generalize hdigest : sha256 (textBytes "shph/path-component/v1\x00" ++
    bigEndian 8 input.utf8ByteSize ++ textBytes input) = digest
  have hhex : (hexEncode (digest.val.take 16)).length ≤ 32 := by
    rw [hexEncode, String.length_ofList]
    simp [List.length_flatMap]
    omega
  have hdash : "-".length = 1 := rfl
  omega

theorem pathJoin_length_le (base component : String) :
    (pathJoin base component).length ≤ base.length + 1 + component.length := by
  have hslash : "/".length = 1 := rfl
  unfold pathJoin
  split <;> simp only [String.length_append] <;> omega

theorem utf8ByteSize_le (text : String) :
    text.utf8ByteSize ≤ 4 * text.length := by
  have hle := FlatJson.utf8ByteSize_ofList_le text.toList
  rwa [String.ofList_toList, String.length_toList] at hle

theorem candidateCost_le (path : String) (metadata : List String) :
    candidateCost path metadata ≤
      128 + path.utf8ByteSize + (metadata.map String.utf8ByteSize).sum := by
  unfold candidateCost saturatingAdd
  omega

theorem sum_map_le_mul {α : Type} {items : List α} {value : α → Nat}
    {bound : Nat} (hbound : ∀ item ∈ items, value item ≤ bound) :
    (items.map value).sum ≤ items.length * bound := by
  have hle := List.sum_le_card_nsmul (items.map value) bound
    (by simpa using hbound)
  simpa using hle

end Sizes

section Capacity

variable {maxFileBytes fixedEnvelopeBytes length : Nat}

/-- The envelope of a plaintext of this length fits the file. -/
def PlaintextFits (maxFileBytes fixedEnvelopeBytes length : Nat) : Prop :=
  saturatingAdd fixedEnvelopeBytes
    (base64EncodedLen (saturatingAdd length shroudAeadOverhead)) ≤ maxFileBytes

theorem base64EncodedLen_eq (bytes : Nat) :
    base64EncodedLen bytes =
      if bytes + 2 ≤ u64Max then min ((bytes + 2) / 3 * 4) u64Max
      else u64Max := by
  unfold base64EncodedLen checkedAdd
  by_cases hadd : bytes + 2 ≤ u64Max
  · rw [if_pos hadd, if_pos hadd]
    dsimp only
    unfold checkedMul
    by_cases hmul : (bytes + 2) / 3 * 4 ≤ u64Max
    · rw [if_pos hmul, Option.getD_some, min_eq_left hmul]
    · rw [if_neg hmul, Option.getD_none, min_eq_right (by omega)]
  · rw [if_neg hadd, if_neg hadd]

theorem base64EncodedLen_mono {left right : Nat} (hle : left ≤ right) :
    base64EncodedLen left ≤ base64EncodedLen right := by
  rw [base64EncodedLen_eq, base64EncodedLen_eq]
  split <;> split <;> omega

theorem PlaintextFits.of_le
    (hfits : PlaintextFits maxFileBytes fixedEnvelopeBytes length)
    {shorter : Nat} (hle : shorter ≤ length) :
    PlaintextFits maxFileBytes fixedEnvelopeBytes shorter := by
  have hsealed : saturatingAdd shorter shroudAeadOverhead ≤
      saturatingAdd length shroudAeadOverhead := by
    unfold saturatingAdd
    omega
  have hmono := base64EncodedLen_mono hsealed
  unfold PlaintextFits at hfits ⊢
  unfold saturatingAdd at hfits hmono ⊢
  omega

/-- The search never ends below a length whose envelope fits. -/
theorem PlaintextFits.le_search
    (hfits : PlaintextFits maxFileBytes fixedEnvelopeBytes length)
    (steps low high : Nat) (hsteps : high - low ≤ steps)
    (hhigh : length ≤ high) :
    length ≤ searchPlaintext maxFileBytes fixedEnvelopeBytes steps low
      high := by
  induction steps generalizing low high with
  | zero =>
      rw [searchPlaintext]
      omega
  | succ steps ih =>
      rw [searchPlaintext]
      split
      · rename_i hlt
        dsimp only
        split
        · exact ih _ _ (by omega) hhigh
        · rename_i hlarge
          apply ih _ _ (by omega)
          by_contra hbeyond
          exact hlarge (hfits.of_le (by omega))
      · omega

theorem PlaintextFits.validate {payload : Bytes}
    (hfits : PlaintextFits maxFileBytes fixedEnvelopeBytes payload.length)
    (hfixed : fixedEnvelopeBytes ≤ maxFileBytes)
    (hlength : payload.length ≤ maxFileBytes) :
    validateFileAdapterPayload payload
        (maxPlaintextForFileAdapter maxFileBytes fixedEnvelopeBytes)
        maxFileBytes = .ok () := by
  rw [validateFileAdapterPayload, ensure_eq_ok_iff, maxPlaintextForFileAdapter,
    if_neg (Nat.not_lt.mpr hfixed)]
  exact hfits.le_search _ _ _ (Nat.sub_le _ _) hlength

end Capacity

namespace SeenLog

variable {Key : Type} [DecidableEq Key]

theorem mem_evict_imp_mem {limit : Nat} {keys order : List Key} {key : Key}
    (hmem : key ∈ (evict limit keys order).keys) : key ∈ keys := by
  induction order generalizing keys with
  | nil => exact hmem
  | cons oldest order ih =>
      rw [evict] at hmem
      split at hmem
      · exact (List.mem_filter.mp (ih hmem)).1
      · exact hmem

/-- Marking a key adds no other key. -/
theorem mem_mark_imp {limit : Nat} {log : SeenLog Key} {key old : Key}
    (hmem : old ∈ (log.mark limit key).keys) : old = key ∨ old ∈ log.keys := by
  unfold mark at hmem
  split at hmem
  · exact Or.inr (mem_evict_imp_mem hmem)
  · exact List.mem_cons.mp (mem_evict_imp_mem hmem)

end SeenLog

/-- What an entry costs a scan that keeps it as a candidate. -/
structure EntryCost (Candidate : Type) where
  bytes : Nat
  memory : Nat
  candidate : Candidate

def ScanContext.charge {Candidate : Type} (scan : ScanContext Candidate)
    (cost : EntryCost Candidate) : ScanContext Candidate :=
  { scanned := scan.scanned + 1
    scannedBytes := scan.scannedBytes + cost.bytes
    candidateMemory := scan.candidateMemory + cost.memory
    candidates := scan.candidates ++ [cost.candidate] }

/-- The budgets a scan has left are enough for these entries. -/
def ScanContext.Affords {Candidate : Type} (scan : ScanContext Candidate)
    (costs : List (EntryCost Candidate)) : Prop :=
  scan.scanned + costs.length ≤ maxQueueScanEntries ∧
    scan.scannedBytes + (costs.map EntryCost.bytes).sum ≤ maxQueueScanBytes ∧
    scan.candidateMemory + (costs.map EntryCost.memory).sum ≤
      maxQueueCandidateMemory

section Visit

variable {Candidate : Type}
  {visit : String × Node → ScanContext Candidate → FileSystem →
    Except ShphError (ScanContext Candidate) × FileSystem}

theorem visitEntries_map {ι : Type} {fs : FileSystem}
    (entry : ι → String × Node) (cost : ι → EntryCost Candidate)
    (items : List ι)
    (hvisit : ∀ item ∈ items, ∀ scan : ScanContext Candidate,
      scan.Affords [cost item] →
        visit (entry item) scan fs = (.ok (scan.charge (cost item)), fs))
    (scan : ScanContext Candidate) (hafford : scan.Affords (items.map cost)) :
    ∃ next, visitEntries visit (items.map entry) scan fs = (.ok next, fs) ∧
      next.candidates = scan.candidates ++
        items.map fun item => (cost item).candidate := by
  induction items generalizing scan with
  | nil => exact ⟨scan, rfl, by simp⟩
  | cons item items ih =>
      obtain ⟨hentries, hbytes, hmemory⟩ := hafford
      simp only [List.map_cons, List.length_cons, List.sum_cons]
        at hentries hbytes hmemory
      have hfirst : scan.Affords [cost item] := by
        refine ⟨?_, ?_, ?_⟩
        · rw [List.length_singleton]
          omega
        · rw [List.map_singleton, List.sum_singleton]
          omega
        · rw [List.map_singleton, List.sum_singleton]
          omega
      have hrest : (scan.charge (cost item)).Affords (items.map cost) := by
        refine ⟨?_, ?_, ?_⟩ <;> simp only [ScanContext.charge] <;> omega
      obtain ⟨next, hnext, hcandidates⟩ := ih
        (fun other hother => hvisit other (by simp [hother]))
        (scan.charge (cost item)) hrest
      refine ⟨next, ?_, ?_⟩
      · rw [List.map_cons, visitEntries, hvisit item (by simp) scan hfirst]
        exact hnext
      · rw [hcandidates]
        simp [ScanContext.charge]

theorem ScanContext.Affords.perm {scan : ScanContext Candidate}
    {costs costs' : List (EntryCost Candidate)} (hafford : scan.Affords costs)
    (hperm : costs.Perm costs') : scan.Affords costs' := by
  refine ⟨?_, ?_, ?_⟩
  · rw [← hperm.length_eq]
    exact hafford.1
  · rw [← (hperm.map EntryCost.bytes).sum_eq]
    exact hafford.2.1
  · rw [← (hperm.map EntryCost.memory).sum_eq]
    exact hafford.2.2

theorem ScanContext.Affords.tail {scan : ScanContext Candidate}
    {cost : EntryCost Candidate} {costs : List (EntryCost Candidate)}
    (hafford : scan.Affords (cost :: costs)) : scan.Affords costs := by
  obtain ⟨hentries, hbytes, hmemory⟩ := hafford
  simp only [List.map_cons, List.length_cons, List.sum_cons]
    at hentries hbytes hmemory
  refine ⟨?_, ?_, ?_⟩ <;> omega

/-- A scan that keeps every entry and can afford them all finds all their
candidates, whatever the order of the listing. -/
theorem visitEntries_of_affords {ι : Type} {fs : FileSystem}
    (entry : ι → String × Node) (cost : ι → EntryCost Candidate)
    {listing : Entries} {items : List ι}
    (hperm : listing.Perm (items.map entry))
    (hvisit : ∀ item ∈ items, ∀ scan : ScanContext Candidate,
      scan.Affords [cost item] →
        visit (entry item) scan fs = (.ok (scan.charge (cost item)), fs))
    (hafford : (ScanContext.new Candidate).Affords (items.map cost)) :
    ∃ next, visitEntries visit listing (ScanContext.new Candidate) fs =
        (.ok next, fs) ∧
      next.candidates.Perm (items.map fun item => (cost item).candidate) := by
  obtain ⟨order, rfl, horder⟩ :
      ∃ order : List ι, listing = order.map entry ∧ order.Perm items := by
    have hcomp := congrFun (congrFun (List.eq_map_comp_perm entry) listing)
      items
    exact hcomp.mpr hperm
  obtain ⟨next, hnext, hcandidates⟩ := visitEntries_map entry cost order
    (fun item hitem => hvisit item (horder.mem_iff.mp hitem))
    (ScanContext.new Candidate) (hafford.perm (horder.symm.map cost))
  refine ⟨next, hnext, ?_⟩
  rw [hcandidates]
  exact horder.map fun item => (cost item).candidate

/-- A directory with more entries than a scan may look at ends the scan. -/
theorem visitEntries_error_of_length
    (hcount : ∀ entry scan fs next, (visit entry scan fs).1 = .ok next →
      scan.scanned + 1 ≤ next.scanned ∧ next.scanned ≤ maxQueueScanEntries)
    (listing : Entries) (scan : ScanContext Candidate) (fs : FileSystem)
    (hstart : scan.scanned ≤ maxQueueScanEntries)
    (hmany : maxQueueScanEntries < scan.scanned + listing.length) :
    ∃ error, (visitEntries visit listing scan fs).1 = .error error := by
  induction listing generalizing scan fs with
  | nil =>
      rw [List.length_nil] at hmany
      omega
  | cons entry listing ih =>
      rw [visitEntries]
      cases hfirst : visit entry scan fs with
      | mk result after =>
          cases result with
          | error error => exact ⟨error, rfl⟩
          | ok next =>
              obtain ⟨hmore, hle⟩ := hcount entry scan fs next (by rw [hfirst])
              rw [List.length_cons] at hmany
              exact ih next after hle (by omega)

end Visit

end Shph
