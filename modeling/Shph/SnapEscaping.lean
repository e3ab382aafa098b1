/-
The text that is hashed for the id of a candidate.  It is written in two steps,
the compact JSON text and then the characters outside ASCII in its strings,
and compared with JSON text that is written in ASCII in one step.
-/
import Shph.Library.AsciiJson
import Shph.SnapPlanning

namespace Shph.SnapPath

open AsciiJson ByteCodec FlatJson JsonTree

/-- The delete character, the only one that the two writers treat differently:
it belongs to ASCII and cannot be printed. -/
def delete : Char := Char.ofNat 127

/-- What escaping leaves of a piece of a string. -/
def escapeAtom : Atom → List Char
  | .plain char _ => if char.toNat < 128 then [char] else escapeNonAscii char
  | .escaped letter => ['\\', letter]

def quoteEscaped (body : List Atom) : List Char :=
  '"' :: (body.flatMap escapeAtom ++ ['"'])

section Escaping

theorem escapeNonAsciiJson_atoms (body : List Atom) (rest : List Char) :
    escapeNonAsciiJson true false (body.flatMap Atom.render ++ rest) =
      body.flatMap escapeAtom ++ escapeNonAsciiJson true false rest := by
  induction body with
  | nil => rfl
  | cons atom body ih =>
      rw [List.flatMap_cons, List.flatMap_cons, List.append_assoc,
        List.append_assoc, ← ih]
      cases atom with
      | plain char hplain =>
          rw [Atom.render, List.singleton_append, escapeNonAsciiJson,
            if_neg hplain.2, if_neg hplain.1, escapeAtom]
          split_ifs
          · rfl
          · rfl
      | escaped letter => rfl

theorem escapeNonAsciiJson_outside {chars : List Char}
    (hplain : chars.all isOutside = true) (rest : List Char) :
    escapeNonAsciiJson false false (chars ++ rest) =
      chars ++ escapeNonAsciiJson false false rest := by
  induction chars with
  | nil => rfl
  | cons char chars ih =>
      rw [List.all_cons, Bool.and_eq_true] at hplain
      have hchar : (char == '"') = false := by
        rw [beq_eq_false_iff_ne]
        rintro rfl
        exact absurd hplain.1 (by decide)
      rw [List.cons_append, escapeNonAsciiJson, hchar, ih hplain.2,
        List.cons_append]

/-- Between the strings of a document nothing changes. -/
theorem escapeNonAsciiJson_document (document : List (Piece (List Atom))) :
    escapeNonAsciiJson false false (render quoteAtoms document) =
      render quoteEscaped document := by
  induction document with
  | nil => rfl
  | cons piece document ih =>
      rw [render, render, List.flatMap_cons, List.flatMap_cons, ← render,
        ← render, ← ih]
      cases piece with
      | outside chars hplain => exact escapeNonAsciiJson_outside hplain _
      | literal body =>
          change '"' :: escapeNonAsciiJson true false
            ((body.flatMap Atom.render ++ ['"']) ++ _) = _
          rw [List.append_assoc, escapeNonAsciiJson_atoms, Piece.render,
            quoteEscaped]
          simp [escapeNonAsciiJson]

/-- The text of a character after both steps. -/
def escapeTwice (char : Char) : List Char :=
  if char = delete then [delete] else asciiEscape char

theorem render_atomsOf (char : Char) :
    (atomsOf char).flatMap Atom.render = escapeChar char := by
  unfold atomsOf
  split
  · rename_i letter hshort
    rw [escapeChar, hshort]
    rfl
  · rename_i hshort
    have hchar : escapeChar char = if char.toNat < 32 then
        ['\\', 'u', '0', '0', FlatJson.hexDigit (char.toNat / 16),
          FlatJson.hexDigit (char.toNat % 16)]
        else [char] := by rw [escapeChar, hshort]
    rw [hchar]
    split_ifs with hcontrol
    · have hdiv : char.toNat / 16 % 16 = char.toNat / 16 :=
        Nat.mod_eq_of_lt (by omega)
      have hzero : FlatJson.hexDigit (0 % 16) = '0' := by decide
      simp [hexAtom, Atom.render, hdiv, hzero]
    · rfl

theorem escapeNonAscii_eq {char : Char} (hchar : 127 < char.toNat) :
    escapeNonAscii char = asciiEscape char := by
  have hshort : shortEscape char = none := by
    cases hletter : shortEscape char with
    | none => rfl
    | some letter =>
        have hsmall := (shortEscape_ascii hletter).2.2.1
        omega
  have hprint : ¬ (32 ≤ char.toNat ∧ char.toNat ≤ 126) := by omega
  rw [asciiEscape, hshort]
  dsimp only
  rw [if_neg hprint]
  by_cases hsmall : char.toNat < 0x10000
  · rw [if_pos hsmall, escapeNonAscii, if_pos (Nat.le_of_lt_succ hsmall)]
    rfl
  · have hmax := (toNat_valid char).2
    rw [if_neg hsmall, escapeNonAscii, if_neg (by omega),
      shiftRight_and (by omega), or_and]
    rfl

theorem escapeAtom_atomsOf (char : Char) :
    (atomsOf char).flatMap escapeAtom = escapeTwice char := by
  unfold atomsOf escapeTwice
  split
  · rename_i letter hshort
    have hdelete : char ≠ delete := by
      rintro rfl
      have hnone : shortEscape delete = none := by decide
      rw [hnone] at hshort
      cases hshort
    rw [if_neg hdelete, asciiEscape, hshort]
    rfl
  · rename_i hshort
    split_ifs with hcontrol hdelete hdelete
    · rw [hdelete] at hcontrol
      exact absurd hcontrol (by decide)
    · have hcode : char.toNat / 4096 % 16 = 0 ∧ char.toNat / 256 % 16 = 0 := by
        omega
      have hletter : escapeAtom (.escaped 'u') = ['\\', 'u'] := rfl
      have hascii : ∀ value, escapeAtom (hexAtom value) =
          [FlatJson.hexDigit (value % 16)] := by
        intro value
        exact if_pos (Nat.lt_succ_of_lt (hexDigit_ascii value).1)
      rw [asciiEscape, hshort]
      dsimp only
      rw [if_neg (by omega), if_pos (by omega), codeUnit, hcode.1, hcode.2]
      simp only [List.flatMap_cons, List.flatMap_nil, hascii, hletter,
        List.cons_append, List.nil_append, Nat.zero_mod]
    · subst hdelete
      rfl
    · have hother : char.toNat ≠ 127 := by
        intro hcode
        apply hdelete
        rw [delete, ← hcode, Char.ofNat_toNat]
      rw [List.flatMap_singleton, escapeAtom]
      split_ifs with hascii
      · rw [asciiEscape, hshort]
        exact (if_pos (by omega)).symm
      · exact escapeNonAscii_eq (by omega)

/-- A string after both steps. -/
def quoteTwice (text : List Char) : List Char :=
  '"' :: (text.flatMap escapeTwice ++ ['"'])

theorem quoteAtoms_atomsOf (text : List Char) :
    quoteAtoms (text.flatMap atomsOf) = quote text := by
  rw [quoteAtoms, quote, escape, List.flatMap_assoc]
  simp only [render_atomsOf]

theorem quoteEscaped_atomsOf (text : List Char) :
    quoteEscaped (text.flatMap atomsOf) = quoteTwice text := by
  rw [quoteEscaped, quoteTwice, List.flatMap_assoc]
  simp only [escapeAtom_atomsOf]

theorem escapeNonAsciiJson_render (document : List (Piece (List Char))) :
    escapeNonAsciiJson false false (render quote document) =
      render quoteTwice document := by
  have hspelled := render_map (fun text : List Char => text.flatMap atomsOf)
    quoteAtoms document
  simp only [quoteAtoms_atomsOf] at hspelled
  rw [← hspelled, escapeNonAsciiJson_document, render_map]
  simp only [quoteEscaped_atomsOf]

theorem escapeNonAsciiJson_quote (text : List Char) :
    escapeNonAsciiJson false false (quote text) = quoteTwice text := by
  have hdocument := escapeNonAsciiJson_render [.literal text]
  rw [render, render, List.flatMap_singleton, List.flatMap_singleton]
    at hdocument
  exact hdocument

theorem delete_notMem_asciiQuote (text : List Char) :
    delete ∉ asciiQuote text := by
  intro hdelete
  rw [asciiQuote, List.mem_cons, List.mem_append, List.mem_flatMap]
    at hdelete
  rcases hdelete with hopen | ⟨char, -, hchar⟩ | hclose
  · exact absurd hopen (by decide)
  · exact absurd (asciiEscape_ascii char delete hchar) (by decide)
  · exact absurd hclose (by decide)

theorem delete_mem_quoteTwice {text : List Char} :
    delete ∈ quoteTwice text ↔ delete ∈ text := by
  rw [quoteTwice, List.mem_cons, List.mem_append, List.mem_flatMap]
  constructor
  · rintro (hopen | ⟨char, hchar, hdelete⟩ | hclose)
    · exact absurd hopen (by decide)
    · unfold escapeTwice at hdelete
      split_ifs at hdelete with hsame
      · exact hsame ▸ hchar
      · exact absurd (asciiEscape_ascii char delete hdelete) (by decide)
    · exact absurd hclose (by decide)
  · intro hdelete
    exact .inr (.inl ⟨delete, hdelete, List.mem_singleton_self _⟩)

theorem quoteTwice_of_notMem {text : List Char} (hdelete : delete ∉ text) :
    quoteTwice text = asciiQuote text := by
  rw [quoteTwice, asciiQuote]
  congr 2
  apply List.flatMap_congr
  intro char hchar
  apply if_neg
  rintro rfl
  exact hdelete hchar

/-- The two writers agree on a document exactly when no string of it has the
delete character. -/
theorem render_quoteTwice_iff (document : List (Piece (List Char))) :
    render quoteTwice document = render asciiQuote document ↔
      ∀ text ∈ literals document, delete ∉ text := by
  constructor
  · intro hsame text htext hdelete
    have hmem : delete ∈ render quoteTwice document :=
      (mem_render_iff (by decide)).mpr
        ⟨text, htext, delete_mem_quoteTwice.mpr hdelete⟩
    rw [hsame, mem_render_iff (by decide)] at hmem
    obtain ⟨other, -, hother⟩ := hmem
    exact delete_notMem_asciiQuote other hother
  · intro hnone
    exact render_congr fun text htext =>
      quoteTwice_of_notMem (hnone text htext)

theorem quoteTwice_ascii (text : List Char) :
    ∀ char ∈ quoteTwice text, char.toNat < 128 := by
  simp only [quoteTwice, List.forall_mem_cons, List.forall_mem_append,
    List.mem_flatMap]
  refine ⟨by decide, ?_, by simp⟩
  rintro written ⟨char, -, hwritten⟩
  unfold escapeTwice at hwritten
  split_ifs at hwritten
  · rw [List.mem_singleton.mp hwritten]
    decide
  · exact Nat.lt_succ_of_lt (asciiEscape_ascii char written hwritten)

theorem readString_quoteTwice (text rest : List Char) :
    readString (text.flatMap escapeTwice ++ '"' :: rest) =
      some (text, rest) := by
  induction text with
  | nil => exact readString_quote rest
  | cons char text ih =>
      have hread : ∀ behind, takeChar (escapeTwice char ++ behind) =
          some (char, behind) ∧
            (escapeTwice char ++ behind).head? ≠ some '"' := by
        intro behind
        unfold escapeTwice
        split_ifs with hdelete
        · subst hdelete
          exact ⟨rfl, by simp [delete]⟩
        · exact ⟨takeChar_asciiEscape char behind,
            asciiEscape_head char behind⟩
      rw [List.flatMap_cons, List.append_assoc,
        readString_char (hread _).2 (hread _).1, ih]
      rfl

theorem readQuoted_quoteTwice (text : List Char) :
    readQuoted (quoteTwice text) = some text := by
  rw [quoteTwice, readQuoted, readString_quoteTwice text []]
  rfl

end Escaping

namespace SnapCandidate

variable (text : SnapText) (numbers : NumberText) (candidate : SnapCandidate)

/-- The text that is hashed. -/
def canonicalText : List Char :=
  escapeNonAsciiJson false false (text.valueJson candidate.idPayload).toList

/-- The payload of the id as JSON text in ASCII. -/
def asciiText : List Char :=
  render asciiQuote (pieces numbers candidate.idPayload)

/-- The id that is computed from the text in ASCII. -/
def asciiId : String :=
  String.ofList ((hexEncode (text.sha256
    (textBytes (String.ofList (candidate.asciiText numbers)))).val).toList.take
      16)

/-- The texts of a profile that the id depends on. -/
def idTexts : List String :=
  [candidate.adapter, candidate.targetHost, candidate.source] ++
    candidate.allowedFallback ++
    [candidate.sni, candidate.tlsCaFile, candidate.tlsCertSha256,
      candidate.wsPath, candidate.routeFile, candidate.edgeLabel,
      candidate.shroudProfile].filterMap id

theorem delete_notMem_idTexts_iff :
    (∀ value ∈ candidate.idTexts, delete ∉ value.toList) ↔
      delete ∉ candidate.adapter.toList ∧ delete ∉ candidate.targetHost.toList ∧
        delete ∉ candidate.source.toList ∧
        (∀ value ∈ candidate.allowedFallback, delete ∉ value.toList) ∧
        (∀ value ∈ candidate.sni, delete ∉ value.toList) ∧
        (∀ value ∈ candidate.tlsCaFile, delete ∉ value.toList) ∧
        (∀ value ∈ candidate.tlsCertSha256, delete ∉ value.toList) ∧
        (∀ value ∈ candidate.wsPath, delete ∉ value.toList) ∧
        (∀ value ∈ candidate.routeFile, delete ∉ value.toList) ∧
        (∀ value ∈ candidate.edgeLabel, delete ∉ value.toList) ∧
        ∀ value ∈ candidate.shroudProfile, delete ∉ value.toList := by
  have hoption : ∀ (value : Option String) (rest : List (Option String)),
      (∀ text ∈ (value :: rest).filterMap id, delete ∉ text.toList) ↔
        (∀ text ∈ value, delete ∉ text.toList) ∧
          ∀ text ∈ rest.filterMap id, delete ∉ text.toList := by
    intro value rest
    cases value with
    | none => simp
    | some value => simp
  simp only [idTexts, List.forall_mem_append, List.forall_mem_cons, hoption,
    List.filterMap_nil, List.not_mem_nil, false_imp_iff, forall_const,
    and_true, and_assoc]

/-- The names of the payload. -/
def idNames : List String :=
  ["kind", "adapter", "target_ip", "target_port", "tls_enabled", "sni",
    "tls_ca_file", "tls_cert_sha256", "ws_path", "route_file", "source",
    "priority", "weight", "timeout_sec", "allowed_fallback", "edge_label",
    "shroud_profile"]

/-- The strings of the payload are constants and the texts of the candidate. -/
theorem delete_notMem_idPayload_iff {numbers : NumberText} :
    (∀ found ∈ literals (pieces numbers candidate.idPayload),
        delete ∉ found) ↔
      ∀ value ∈ candidate.idTexts, delete ∉ value.toList := by
  have hnames : ∀ name ∈ idNames, delete ∉ name.toList := by decide
  have hdirect : delete ∉ "direct".toList := by decide
  have hbridge : delete ∉ "bridge".toList := by decide
  have htimeout : ∀ value : Option Binary64,
      (∀ found ∈ literals (pieces numbers
        (.ofOption .ofBinary64 value)), delete ∉ found) ↔ True := by
    intro value
    cases value with
    | none => simp [Json.ofOption, pieces, literals]
    | some value =>
        rw [Json.ofOption, Json.ofBinary64]
        split_ifs
        · exact forall_number _
        · simp [pieces, literals]
  have htls : ∀ value : Bool, (∀ found ∈ literals (pieces numbers
      (.bool value)), delete ∉ found) ↔ True := by
    intro value
    cases value with
    | true => simp [pieces, literals]
    | false => simp [pieces, literals]
  have hdistinct : idNames.Nodup := by decide
  rw [candidate.delete_notMem_idTexts_iff, idPayload,
    forall_ofMembers (by exact hdistinct)]
  simp only [idNames, List.forall_mem_cons, List.not_mem_nil, false_imp_iff,
    forall_const, and_true] at hnames
  simp only [List.forall_mem_cons, List.not_mem_nil, false_imp_iff,
    and_true, forall_string, forall_ofOption, forall_ofStrings, htimeout,
    htls, Json.ofUInt16, forall_number, hnames]
  cases candidate.kind with
  | direct => tauto
  | bridge => tauto

end SnapCandidate

/-- Of the characters only the delete character keeps the two steps from
writing what is written in one: of a string, and of the payload of an id.
Between the strings of a document nothing changes in any case. -/
theorem escaping_is_ascii_iff {text : SnapText} {numbers : NumberText}
    (hwrite : ∀ value, (text.valueJson value).toList =
      render quote (pieces numbers value)) :
    (∀ string : List Char,
      (escapeNonAsciiJson false false (quote string) = asciiQuote string ∧
        (∀ char ∈ escapeNonAsciiJson false false (quote string),
          char.toNat < 128) ∧
        readQuoted (escapeNonAsciiJson false false (quote string)) =
          some string) ↔ delete ∉ string) ∧
      (∀ document : List (Piece (List Atom)),
        escapeNonAsciiJson false false (render quoteAtoms document) =
          render quoteEscaped document) ∧
      ∀ candidate : SnapCandidate,
        (candidate.canonicalText text = candidate.asciiText numbers ↔
          ∀ value ∈ candidate.idTexts, delete ∉ value.toList) ∧
        ((∀ value ∈ candidate.idTexts, delete ∉ value.toList) →
          candidate.computeId text = candidate.asciiId text numbers) := by
  have hcandidate : ∀ candidate : SnapCandidate,
      candidate.canonicalText text = candidate.asciiText numbers ↔
        ∀ value ∈ candidate.idTexts, delete ∉ value.toList := by
    intro candidate
    rw [SnapCandidate.canonicalText, SnapCandidate.asciiText, hwrite,
      escapeNonAsciiJson_render, render_quoteTwice_iff,
      candidate.delete_notMem_idPayload_iff]
  refine ⟨fun string => ?_, escapeNonAsciiJson_document, fun candidate =>
    ⟨hcandidate candidate, fun hnone => ?_⟩⟩
  · rw [escapeNonAsciiJson_quote]
    constructor
    · rintro ⟨hsame, -⟩ hdelete
      rw [← delete_mem_quoteTwice, hsame] at hdelete
      exact delete_notMem_asciiQuote string hdelete
    · intro hnone
      exact ⟨quoteTwice_of_notMem hnone, quoteTwice_ascii string,
        readQuoted_quoteTwice string⟩
  · have hsame := (hcandidate candidate).mpr hnone
    rw [SnapCandidate.computeId, SnapCandidate.asciiId, ← hsame,
      SnapCandidate.canonicalText]

section Samples

theorem digits_outside (value : Nat) :
    (Nat.toDigits 10 value).all isOutside = true := by
  rw [List.all_eq_true]
  intro char hchar
  have hdigit := Nat.isDigit_of_mem_toDigits (by decide) (by decide) hchar
  rw [isOutside, Char.isAlphanum, hdigit, Bool.or_true, Bool.true_or,
    Bool.true_or]

/-- Whole numbers in digits.  No other number is written in the samples. -/
def wholeNumbers : NumberText where
  write
    | .posInt value => Nat.toDigits 10 value.toNat
    | .negInt value => '-' :: Nat.toDigits 10 value.natAbs
    | .float _ => ['0', '.', '0']
  plain number := by
    cases number with
    | posInt value => exact digits_outside _
    | negInt value =>
        rw [List.all_cons, digits_outside, Bool.and_true]
        rfl
    | float value => rfl

/-- Only values are written here. -/
def compactText : SnapText where
  addresses := ⟨fun _ => none, fun _ => "", fun _ => none⟩
  profileJson _ := ""
  valueJson value := String.ofList (render quote (pieces wholeNumbers value))
  sha256 _ := .replicate 32 0

def snowRelay : SnapCandidate where
  kind := .bridge
  adapter := "bridge-tls"
  transport := "tcp"
  targetHost := "127.0.0.4"
  targetPort := 443
  source := "bridge:relay-\u2603"
  priority := 10
  weight := 100
  timeoutSec := none
  allowedFallback := []
  edgeLabel := some "edge"
  routeFile := none
  tlsEnabled := some true
  sni := some "localhost"
  tlsCaFile := none
  tlsCertSha256 := none
  wsPath := none
  shroudProfile := none
  relayIp := some "127.0.0.3"
  relayPort := some 3
  keyFile := some "relay.key"
  operatorServiceContract := none
  candidateId := ""
  insertionIndex := 0

theorem snow_relay_is_ascii :
    snowRelay.canonicalText compactText = snowRelay.asciiText wholeNumbers ∧
      snowRelay.computeId compactText =
        snowRelay.asciiId compactText wholeNumbers := by
  have hnone : ∀ value ∈ snowRelay.idTexts, delete ∉ value.toList := by decide
  obtain ⟨-, -, hcandidate⟩ := @escaping_is_ascii_iff compactText wholeNumbers
    fun _ => String.toList_ofList
  exact ⟨(hcandidate snowRelay).1.mpr hnone, (hcandidate snowRelay).2 hnone⟩

/-- The delete character stays as it is. -/
theorem delete_is_not_escaped :
    escapeNonAsciiJson false false (quote [delete]) = ['"', delete, '"'] ∧
      asciiQuote [delete] =
        ['"', '\\', 'u', '0', '0', '7', 'f', '"'] := by
  decide

end Samples

end Shph.SnapPath
