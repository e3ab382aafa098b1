/-
JSON text in ASCII.  Strings in which every character outside printable ASCII
is written with its code units, a reader of JSON strings that joins pairs of
surrogates, and documents as pieces, the strings among the rest.
-/
import Shph.Library.FlatJson
import Shph.Library.JsonTree

namespace AsciiJson

open FlatJson JsonTree

section Strings

/-- A code unit in four digits behind a backslash. -/
def codeUnit (unit : Nat) : List Char :=
  ['\\', 'u', hexDigit (unit / 4096 % 16), hexDigit (unit / 256 % 16),
    hexDigit (unit / 16 % 16), hexDigit (unit % 16)]

/-- The text of a character in a string of ASCII. -/
def asciiEscape (char : Char) : List Char :=
  match shortEscape char with
  | some letter => ['\\', letter]
  | none =>
      if 32 ≤ char.toNat ∧ char.toNat ≤ 126 then [char]
      else if char.toNat < 0x10000 then codeUnit char.toNat
      else
        let code := char.toNat - 0x10000
        codeUnit (0xd800 ||| (code >>> 10 &&& 0x3ff)) ++
          codeUnit (0xdc00 ||| (code &&& 0x3ff))

def asciiQuote (text : List Char) : List Char :=
  '"' :: (text.flatMap asciiEscape ++ ['"'])

def hexOf (char : Char) : Option Nat :=
  let code := char.toNat
  if 48 ≤ code ∧ code ≤ 57 then some (code - 48)
  else if 97 ≤ code ∧ code ≤ 102 then some (code - 87)
  else if 65 ≤ code ∧ code ≤ 70 then some (code - 55)
  else none

def takeDigits : List Char → Option (Nat × List Char)
  | first :: second :: third :: fourth :: rest => do
      let first ← hexOf first
      let second ← hexOf second
      let third ← hexOf third
      let fourth ← hexOf fourth
      return (((first * 16 + second) * 16 + third) * 16 + fourth, rest)
  | _ => none

/-- The character of a pair of surrogates. -/
def joinPair (high low : Nat) : Option Char :=
  if high ≤ 0xdbff ∧ 0xdc00 ≤ low ∧ low ≤ 0xdfff then
    some (Char.ofNat (0x10000 + (high - 0xd800) * 1024 + (low - 0xdc00)))
  else none

def isSurrogate (unit : Nat) : Bool := 0xd800 ≤ unit && unit ≤ 0xdfff

/-- The second half of a pair of surrogates. -/
def takeLow (high : Nat) : List Char → Option (Char × List Char)
  | '\\' :: 'u' :: rest => do
      let (low, rest) ← takeDigits rest
      let char ← joinPair high low
      return (char, rest)
  | _ => none

def letterOf (letter : Char) : Option Char :=
  if letter = '/' then some '/' else shortUnescape letter

/-- The first character of a string. -/
def takeChar : List Char → Option (Char × List Char)
  | '\\' :: 'u' :: rest => do
      let (unit, rest) ← takeDigits rest
      if isSurrogate unit then takeLow unit rest
      else some (Char.ofNat unit, rest)
  | '\\' :: letter :: rest => (letterOf letter).map fun char => (char, rest)
  | char :: rest =>
      if char = '\\' ∨ char.toNat < 32 then none else some (char, rest)
  | [] => none

theorem takeDigits_lt {chars rest : List Char} {unit : Nat}
    (htake : takeDigits chars = some (unit, rest)) :
    rest.length < chars.length := by
  unfold takeDigits at htake
  split at htake
  · simp only [Option.bind_eq_bind, Option.bind_eq_some_iff] at htake
    obtain ⟨_, -, _, -, _, -, _, -, htake⟩ := htake
    cases htake
    simp only [List.length_cons]
    omega
  · cases htake

theorem takeLow_lt {chars rest : List Char} {high : Nat} {char : Char}
    (htake : takeLow high chars = some (char, rest)) :
    rest.length < chars.length := by
  unfold takeLow at htake
  split at htake
  · simp only [Option.bind_eq_bind, Option.bind_eq_some_iff] at htake
    obtain ⟨⟨low, behind⟩, hdigits, char, -, htake⟩ := htake
    cases htake
    have hless := takeDigits_lt hdigits
    simp only [List.length_cons]
    omega
  · cases htake

theorem takeChar_lt {chars rest : List Char} {char : Char}
    (htake : takeChar chars = some (char, rest)) :
    rest.length < chars.length := by
  unfold takeChar at htake
  split at htake
  · simp only [Option.bind_eq_bind, Option.bind_eq_some_iff] at htake
    obtain ⟨⟨unit, behind⟩, hdigits, htake⟩ := htake
    have hless := takeDigits_lt hdigits
    dsimp only at htake
    split_ifs at htake
    · have hlow := takeLow_lt htake
      simp only [List.length_cons]
      omega
    · cases htake
      simp only [List.length_cons]
      omega
  · obtain ⟨found, -, htake⟩ := Option.map_eq_some_iff.mp htake
    cases htake
    simp only [List.length_cons]
    omega
  · split_ifs at htake
    cases htake
    exact Nat.lt_succ_self _
  · cases htake

/-- Read up to the closing quotation mark. -/
def readString (chars : List Char) : Option (List Char × List Char) :=
  if chars.head? = some '"' then some ([], chars.tail)
  else
    match htake : takeChar chars with
    | none => none
    | some (char, rest) =>
        have : rest.length < chars.length := takeChar_lt htake
        (readString rest).map fun result => (char :: result.1, result.2)
termination_by chars.length

/-- The text of a string that is everything there is. -/
def readQuoted : List Char → Option (List Char)
  | '"' :: rest => (readString rest).bind fun result =>
      if result.2 = [] then some result.1 else none
  | _ => none

theorem readString_quote (rest : List Char) :
    readString ('"' :: rest) = some ([], rest) := by
  rw [readString]
  exact if_pos rfl

theorem readString_char {chars rest : List Char} {char : Char}
    (hhead : chars.head? ≠ some '"')
    (htake : takeChar chars = some (char, rest)) :
    readString chars =
      (readString rest).map fun result => (char :: result.1, result.2) := by
  rw [readString, if_neg hhead]
  split
  · rename_i hnone
    rw [htake] at hnone
    cases hnone
  · rename_i hsome
    rw [htake] at hsome
    cases hsome
    rfl

theorem hexOf_hexDigit {value : Nat} (hvalue : value < 16) :
    hexOf (hexDigit value) = some value := by
  have hall : ∀ digit : Fin 16, hexOf (hexDigit digit.val) = some digit.val :=
    by decide
  exact hall ⟨value, hvalue⟩

/-- The digits of a code unit are read as the unit. -/
theorem takeDigits_codeUnit {unit : Nat} (hunit : unit < 65536)
    (rest : List Char) :
    takeDigits ((codeUnit unit).drop 2 ++ rest) = some (unit, rest) := by
  have hdigit : ∀ value, hexOf (hexDigit (value % 16)) = some (value % 16) :=
    fun value => hexOf_hexDigit (Nat.mod_lt _ (by decide))
  have hvalue : ((unit / 4096 % 16 * 16 + unit / 256 % 16) * 16 +
      unit / 16 % 16) * 16 + unit % 16 = unit := by omega
  simp only [codeUnit, List.drop_succ_cons, List.drop_zero, List.cons_append,
    List.nil_append, takeDigits, hdigit, Option.bind_eq_bind,
    Option.bind_some, hvalue]
  rfl

theorem shiftRight_and {code : Nat} (hcode : code < 1048576) :
    0xd800 ||| (code >>> 10 &&& 0x3ff) = 0xd800 + code / 1024 := by
  have hhigh : code / 1024 < 2 ^ 10 := by omega
  have hmask : code >>> 10 &&& 0x3ff = code / 1024 := by
    rw [Nat.shiftRight_eq_div_pow]
    have hand := Nat.and_two_pow_sub_one_eq_mod (code / 1024) 10
    rw [Nat.mod_eq_of_lt hhigh] at hand
    exact hand
  rw [hmask]
  exact (Nat.two_pow_add_eq_or_of_lt hhigh 54).symm

theorem or_and (code : Nat) :
    0xdc00 ||| (code &&& 0x3ff) = 0xdc00 + code % 1024 := by
  have hmask : code &&& 0x3ff = code % 1024 :=
    Nat.and_two_pow_sub_one_eq_mod code 10
  have hlow : code % 1024 < 2 ^ 10 := Nat.mod_lt _ (by decide)
  rw [hmask]
  exact (Nat.two_pow_add_eq_or_of_lt hlow 55).symm

/-- A character is no half of a pair. -/
theorem toNat_valid (char : Char) :
    (char.toNat < 0xd800 ∨ 0xdfff < char.toNat) ∧ char.toNat < 0x110000 := by
  rcases char.valid with hlow | ⟨hhigh, hmax⟩
  · exact ⟨.inl hlow, Nat.lt_trans hlow (by decide)⟩
  · exact ⟨.inr hhigh, hmax⟩

theorem takeChar_codeUnit {char : Char} (hunit : char.toNat < 65536)
    (rest : List Char) :
    takeChar (codeUnit char.toNat ++ rest) = some (char, rest) := by
  have hdigits := takeDigits_codeUnit hunit rest
  have hvalid := toNat_valid char
  have hsingle : isSurrogate char.toNat = false := by
    rw [isSurrogate, Bool.and_eq_false_iff, decide_eq_false_iff_not,
      decide_eq_false_iff_not]
    omega
  have hsplit : codeUnit char.toNat ++ rest =
      '\\' :: 'u' :: ((codeUnit char.toNat).drop 2 ++ rest) := rfl
  rw [hsplit, takeChar, hdigits]
  simp [hsingle]

theorem joinPair_eq {high low code : Nat} {char : Char}
    (hchar : char.toNat = 0x10000 + code) (hcode : code < 1048576)
    (hhigh : high = 0xd800 + code / 1024)
    (hlow : low = 0xdc00 + code % 1024) :
    joinPair high low = some char := by
  have hvalue : 0x10000 + (high - 0xd800) * 1024 + (low - 0xdc00) =
      char.toNat := by omega
  rw [joinPair, if_pos (by omega), hvalue, Char.ofNat_toNat]

theorem takeChar_pair {high low code : Nat} {char : Char}
    (hchar : char.toNat = 0x10000 + code) (hcode : code < 1048576)
    (hhigh : high = 0xd800 + code / 1024)
    (hlow : low = 0xdc00 + code % 1024) (rest : List Char) :
    takeChar (codeUnit high ++ (codeUnit low ++ rest)) =
      some (char, rest) := by
  have hfirst := takeDigits_codeUnit (show high < 65536 by omega)
    (codeUnit low ++ rest)
  have hsecond := takeDigits_codeUnit (show low < 65536 by omega) rest
  have hpair : isSurrogate high = true := by
    rw [isSurrogate, Bool.and_eq_true, decide_eq_true_eq, decide_eq_true_eq]
    omega
  have hjoin := joinPair_eq hchar hcode hhigh hlow
  have hsplit : ∀ unit behind, codeUnit unit ++ behind =
      '\\' :: 'u' :: ((codeUnit unit).drop 2 ++ behind) := fun _ _ => rfl
  rw [hsplit, takeChar, hfirst]
  simp only [Option.bind_eq_bind, Option.bind_some, hpair, if_true]
  rw [hsplit, takeLow, hsecond]
  simp [hjoin]

theorem shortEscape_ascii {char letter : Char}
    (hshort : shortEscape char = some letter) :
    letterOf letter = some char ∧ letter ≠ 'u' ∧ char.toNat < 127 ∧
      letter.toNat < 127 := by
  unfold shortEscape at hshort
  split_ifs at hshort with h₁ h₂ h₃ h₄ h₅ h₆ h₇
  all_goals
    rw [Option.some.injEq] at hshort
    subst hshort
    first | subst h₁ | subst h₂ | subst h₃ | subst h₄ | subst h₅ | subst h₆
          | subst h₇
    decide

/-- A text of ASCII is read as the character it stands for. -/
theorem takeChar_asciiEscape (char : Char) (rest : List Char) :
    takeChar (asciiEscape char ++ rest) = some (char, rest) := by
  unfold asciiEscape
  cases hshort : shortEscape char with
  | some letter =>
      obtain ⟨hback, hu, -⟩ := shortEscape_ascii hshort
      simp [takeChar, hback]
  | none =>
      have hplain := shortEscape_eq_none hshort
      dsimp only
      split_ifs with hprint hsmall
      · have hcontrol : ¬ char.toNat < 32 := Nat.not_lt.mpr hprint.1
        simp [takeChar, hplain.2, hcontrol]
      · exact takeChar_codeUnit hsmall rest
      · have hmax := (toNat_valid char).2
        rw [shiftRight_and (by omega), or_and, List.append_assoc]
        exact takeChar_pair (by omega) (by omega) rfl rfl rest

theorem asciiEscape_head (char : Char) (rest : List Char) :
    (asciiEscape char ++ rest).head? ≠ some '"' := by
  unfold asciiEscape
  cases hshort : shortEscape char with
  | some letter => simp
  | none =>
      have hplain := shortEscape_eq_none hshort
      dsimp only
      split_ifs
      · simp [hplain.1]
      · simp [codeUnit]
      · simp [codeUnit]

theorem hexDigit_ascii (value : Nat) :
    (hexDigit (value % 16)).toNat < 127 ∧ hexDigit (value % 16) ≠ '"' ∧
      hexDigit (value % 16) ≠ '\\' := by
  have hall : ∀ digit : Fin 16, (hexDigit digit.val).toNat < 127 ∧
      hexDigit digit.val ≠ '"' ∧ hexDigit digit.val ≠ '\\' := by decide
  exact hall ⟨value % 16, Nat.mod_lt _ (by decide)⟩

theorem codeUnit_ascii (unit : Nat) :
    ∀ char ∈ codeUnit unit, char.toNat < 127 := by
  simp only [codeUnit, List.forall_mem_cons, List.not_mem_nil,
    false_imp_iff, forall_const, and_true]
  exact ⟨by decide, by decide, (hexDigit_ascii _).1, (hexDigit_ascii _).1,
    (hexDigit_ascii _).1, (hexDigit_ascii _).1⟩

theorem asciiEscape_ascii (char : Char) :
    ∀ written ∈ asciiEscape char, written.toNat < 127 := by
  unfold asciiEscape
  cases hshort : shortEscape char with
  | some letter =>
      obtain ⟨-, -, -, hletter⟩ := shortEscape_ascii hshort
      simp [hletter]
  | none =>
      dsimp only
      split_ifs with hprint
      · rw [List.forall_mem_singleton]
        exact Nat.lt_succ_of_le hprint.2
      · exact codeUnit_ascii _
      · rw [List.forall_mem_append]
        exact ⟨codeUnit_ascii _, codeUnit_ascii _⟩

end Strings

section Documents

/-- A piece of the text between the quotation marks of a string. -/
inductive Atom where
  | plain (char : Char) (plain : char ≠ '"' ∧ char ≠ '\\')
  | escaped (letter : Char)

def Atom.render : Atom → List Char
  | .plain char _ => [char]
  | .escaped letter => ['\\', letter]

/-- A string of a document, however it is spelled. -/
def quoteAtoms (body : List Atom) : List Char :=
  '"' :: (body.flatMap Atom.render ++ ['"'])

def hexAtom (value : Nat) : Atom :=
  .plain (hexDigit (value % 16)) (hexDigit_ascii value).2

/-- The spelling that `quote` gives a character. -/
def atomsOf (char : Char) : List Atom :=
  match hshort : shortEscape char with
  | some letter => [.escaped letter]
  | none =>
      if char.toNat < 32 then
        [.escaped 'u', hexAtom 0, hexAtom 0, hexAtom (char.toNat / 16),
          hexAtom char.toNat]
      else [.plain char (shortEscape_eq_none hshort)]

/-- The characters that stand outside the strings of a document. -/
def isOutside (char : Char) : Bool :=
  char.isAlphanum || char ∈ ['[', ']', '{', '}', ':', ',', '+', '-', '.'] ||
    char ∈ [' ', '\t', '\n', '\r']

/-- A document in pieces: its strings, and what stands between them. -/
inductive Piece (S : Type) where
  | outside (chars : List Char) (plain : chars.all isOutside = true)
  | literal (text : S)

def Piece.render {S : Type} (quoteText : S → List Char) :
    Piece S → List Char
  | .outside chars _ => chars
  | .literal text => quoteText text

def render {S : Type} (quoteText : S → List Char) (pieces : List (Piece S)) :
    List Char :=
  pieces.flatMap (Piece.render quoteText)

def Piece.map {S T : Type} (change : S → T) : Piece S → Piece T
  | .outside chars free => .outside chars free
  | .literal text => .literal (change text)

/-- How the numbers of a document are written. -/
structure NumberText where
  write : Number → List Char
  plain : ∀ number, (write number).all isOutside = true

def separator : Bool → List Char
  | true => [',']
  | false => []

theorem separator_plain (later : Bool) :
    (separator later).all isOutside = true := by
  cases later with
  | true => rfl
  | false => rfl

mutual

/-- The compact text of a value. -/
def pieces (numbers : NumberText) : Json → List (Piece (List Char))
  | .null => [.outside ['n', 'u', 'l', 'l'] (by decide)]
  | .bool true => [.outside ['t', 'r', 'u', 'e'] (by decide)]
  | .bool false => [.outside ['f', 'a', 'l', 's', 'e'] (by decide)]
  | .number number => [.outside (numbers.write number) (numbers.plain number)]
  | .string text => [.literal text.toList]
  | .array items =>
      .outside ['['] (by decide) :: (itemPieces numbers false items ++
        [.outside [']'] (by decide)])
  | .object members =>
      .outside ['{'] (by decide) :: (memberPieces numbers false members ++
        [.outside ['}'] (by decide)])

def itemPieces (numbers : NumberText) (later : Bool) :
    List Json → List (Piece (List Char))
  | [] => []
  | item :: rest =>
      .outside (separator later) (separator_plain later) ::
        (pieces numbers item ++ itemPieces numbers true rest)

def memberPieces (numbers : NumberText) (later : Bool) :
    List (String × Json) → List (Piece (List Char))
  | [] => []
  | (name, value) :: rest =>
      .outside (separator later) (separator_plain later) ::
        .literal name.toList :: .outside [':'] (by decide) ::
          (pieces numbers value ++ memberPieces numbers true rest)

end

/-- The strings of a document. -/
def literals {S : Type} (document : List (Piece S)) : List S :=
  document.filterMap fun
    | .outside _ _ => none
    | .literal text => some text

/-- Spelling the strings first makes no difference. -/
theorem render_map {S T : Type} (change : S → T) (quoteText : T → List Char)
    (document : List (Piece S)) :
    render quoteText (document.map (Piece.map change)) =
      render (fun text => quoteText (change text)) document := by
  rw [render, render, List.flatMap_map]
  congr 1
  funext piece
  cases piece with
  | outside chars plain => rfl
  | literal text => rfl

theorem render_congr {S : Type} {left right : S → List Char}
    {document : List (Piece S)}
    (hsame : ∀ text ∈ literals document, left text = right text) :
    render left document = render right document := by
  induction document with
  | nil => rfl
  | cons piece document ih =>
      rw [render, render, List.flatMap_cons, List.flatMap_cons, ← render,
        ← render]
      cases piece with
      | outside chars plain => rw [Piece.render, Piece.render, ih hsame]
      | literal text =>
          rw [Piece.render, Piece.render, hsame text List.mem_cons_self,
            ih fun other hother => hsame other (List.mem_cons_of_mem _ hother)]

/-- A character of the text that does not stand outside the strings stands in
one of them. -/
theorem mem_render_iff {S : Type} {quoteText : S → List Char}
    {document : List (Piece S)} {char : Char} (hchar : isOutside char = false) :
    char ∈ render quoteText document ↔
      ∃ text ∈ literals document, char ∈ quoteText text := by
  rw [render, List.mem_flatMap]
  constructor
  · rintro ⟨piece, hpiece, hmem⟩
    cases piece with
    | outside chars plain =>
        rw [List.all_eq_true.mp plain char hmem] at hchar
        cases hchar
    | literal text =>
        exact ⟨text, List.mem_filterMap.mpr ⟨_, hpiece, rfl⟩, hmem⟩
  · rintro ⟨text, htext, hmem⟩
    obtain ⟨piece, hpiece, hsome⟩ := List.mem_filterMap.mp htext
    cases piece with
    | outside chars plain => cases hsome
    | literal other =>
        cases hsome
        exact ⟨_, hpiece, hmem⟩

section Values

variable {numbers : NumberText} {good : List Char → Prop}

theorem literals_append {S : Type} (front rest : List (Piece S)) :
    literals (front ++ rest) = literals front ++ literals rest :=
  List.filterMap_append

theorem forall_itemPieces (later : Bool) (items : List Json) :
    (∀ text ∈ literals (itemPieces numbers later items), good text) ↔
      ∀ item ∈ items, ∀ text ∈ literals (pieces numbers item), good text := by
  induction items generalizing later with
  | nil => simp [itemPieces, literals]
  | cons item rest ih =>
      rw [itemPieces, List.forall_mem_cons, ← ih true,
        ← List.forall_mem_append, ← literals_append]
      rfl

theorem forall_memberPieces (later : Bool) (members : List (String × Json)) :
    (∀ text ∈ literals (memberPieces numbers later members), good text) ↔
      ∀ member ∈ members, good member.1.toList ∧
        ∀ text ∈ literals (pieces numbers member.2), good text := by
  induction members generalizing later with
  | nil => simp [memberPieces, literals]
  | cons member rest ih =>
      obtain ⟨name, value⟩ := member
      rw [memberPieces, List.forall_mem_cons, ← ih true, and_assoc,
        ← List.forall_mem_append, ← literals_append,
        ← List.forall_mem_cons (p := good)]
      rfl

/-- The strings of an object are its names and the strings of its values. -/
theorem forall_ofMembers {members : List (String × Json)}
    (hnodup : (members.map Prod.fst).Nodup) :
    (∀ text ∈ literals (pieces numbers (.ofMembers members)), good text) ↔
      ∀ member ∈ members, good member.1.toList ∧
        ∀ text ∈ literals (pieces numbers member.2), good text := by
  have hperm := OrderedTable.ofEntries_perm hnodup
  have hliterals : literals (pieces numbers (.ofMembers members)) =
      literals (memberPieces numbers false
        (OrderedTable.ofEntries members)) := by
    rw [Json.ofMembers, pieces]
    exact (literals_append _ _).trans (List.append_nil _)
  rw [hliterals, forall_memberPieces]
  exact ⟨fun hall member hmember => hall member (hperm.mem_iff.mpr hmember),
    fun hall member hmember => hall member (hperm.mem_iff.mp hmember)⟩

theorem forall_string (text : String) :
    (∀ found ∈ literals (pieces numbers (.string text)), good found) ↔
      good text.toList := by
  simp [pieces, literals]

theorem forall_ofStrings (values : List String) :
    (∀ text ∈ literals (pieces numbers (.ofStrings values)), good text) ↔
      ∀ value ∈ values, good value.toList := by
  have hliterals : literals (pieces numbers (.ofStrings values)) =
      literals (itemPieces numbers false (values.map .string)) := by
    rw [Json.ofStrings, pieces]
    exact (literals_append _ _).trans (List.append_nil _)
  rw [hliterals, forall_itemPieces, List.forall_mem_map]
  simp only [forall_string]

theorem forall_ofOption (value : Option String) :
    (∀ text ∈ literals (pieces numbers (.ofOption .string value)),
        good text) ↔ ∀ text ∈ value, good text.toList := by
  cases value with
  | none => simp [Json.ofOption, pieces, literals]
  | some value => simp [Json.ofOption, forall_string]

theorem forall_number (number : Number) :
    (∀ text ∈ literals (pieces numbers (.number number)), good text) ↔
      True := by
  simp [pieces, literals]

end Values

end Documents

end AsciiJson
