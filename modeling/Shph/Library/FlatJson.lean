/-
Compact JSON objects whose values are strings and natural numbers, in a fixed
order of fields.  Writing escapes what a JSON string may not contain; reading
follows the expected field names and gives back exactly what was written.
-/
import Shph.Library.Bytes

namespace FlatJson

open ByteCodec

inductive Value where
  | text (value : String)
  | number (value : Nat)
deriving Repr, DecidableEq

def hexDigit (value : Nat) : Char :=
  if value < 10 then Char.ofNat (48 + value) else Char.ofNat (87 + value)

def hexValue (char : Char) : Nat :=
  if char.toNat < 58 then char.toNat - 48 else char.toNat - 87

/-- The letter of a character that has a two-character escape. -/
def shortEscape (char : Char) : Option Char :=
  if char = '"' then some '"'
  else if char = '\\' then some '\\'
  else if char = '\n' then some 'n'
  else if char = '\r' then some 'r'
  else if char = '\t' then some 't'
  else if char = Char.ofNat 8 then some 'b'
  else if char = Char.ofNat 12 then some 'f'
  else none

def shortUnescape (letter : Char) : Option Char :=
  if letter = '"' then some '"'
  else if letter = '\\' then some '\\'
  else if letter = 'n' then some '\n'
  else if letter = 'r' then some '\r'
  else if letter = 't' then some '\t'
  else if letter = 'b' then some (Char.ofNat 8)
  else if letter = 'f' then some (Char.ofNat 12)
  else none

/-- The remaining control characters are written with their code. -/
def escapeChar (char : Char) : List Char :=
  match shortEscape char with
  | some letter => ['\\', letter]
  | none =>
      if char.toNat < 32 then
        ['\\', 'u', '0', '0', hexDigit (char.toNat / 16),
          hexDigit (char.toNat % 16)]
      else [char]

def escape (text : List Char) : List Char := text.flatMap escapeChar

def quote (text : List Char) : List Char := '"' :: (escape text ++ ['"'])

/-- Read up to the closing quotation mark. -/
def takeString : List Char → Option (List Char × List Char)
  | [] => none
  | '"' :: rest => some ([], rest)
  | '\\' :: 'u' :: '0' :: '0' :: high :: low :: rest =>
      (takeString rest).map fun result =>
        (Char.ofNat (hexValue high * 16 + hexValue low) :: result.1, result.2)
  | '\\' :: letter :: rest =>
      (shortUnescape letter).bind fun char =>
        (takeString rest).map fun result => (char :: result.1, result.2)
  | char :: rest =>
      (takeString rest).map fun result => (char :: result.1, result.2)

def writeValue : Value → List Char
  | .text value => quote value.toList
  | .number value => Nat.toDigits 10 value

def takeValue : List Char → Option (Value × List Char)
  | '"' :: rest =>
      (takeString rest).map fun result =>
        (.text (String.ofList result.1), result.2)
  | chars =>
      let digits := chars.takeWhile Char.isDigit
      if digits = [] then none
      else some (.number (Nat.ofDigitChars 10 digits 0),
        chars.dropWhile Char.isDigit)

def fieldStart (lead : Char) (name : String) : List Char :=
  lead :: (quote name.toList ++ [':'])

/-- The fields of an object, each after the separator before it. -/
def writeFields (lead : Char) : List (String × Value) → List Char
  | [] => []
  | field :: rest =>
      fieldStart lead field.1 ++ (writeValue field.2 ++ writeFields ',' rest)

def takeFields (lead : Char) :
    List String → List Char → Option (List (String × Value) × List Char)
  | [], chars => some ([], chars)
  | name :: names, chars => do
      let chars ← (fieldStart lead name).isPrefixOf? chars
      let (value, chars) ← takeValue chars
      let (fields, chars) ← takeFields ',' names chars
      return ((name, value) :: fields, chars)

def writeObject (fields : List (String × Value)) : Bytes :=
  (String.ofList (writeFields '{' fields ++ ['}'])).toUTF8.data.toList

def readObject (names : List String) (bytes : Bytes) :
    Option (List (String × Value)) := do
  let text ← String.fromUTF8? ⟨bytes.toArray⟩
  let (fields, rest) ← takeFields '{' names text.toList
  if rest = ['}'] then return fields else none

theorem shortUnescape_shortEscape {char letter : Char}
    (hshort : shortEscape char = some letter) :
    shortUnescape letter = some char ∧ letter ≠ 'u' := by
  unfold shortEscape at hshort
  split_ifs at hshort with h₁ h₂ h₃ h₄ h₅ h₆ h₇
  all_goals
    rw [Option.some.injEq] at hshort
    subst hshort
    first | subst h₁ | subst h₂ | subst h₃ | subst h₄ | subst h₅ | subst h₆
          | subst h₇
    decide

theorem shortEscape_eq_none {char : Char} (hshort : shortEscape char = none) :
    char ≠ '"' ∧ char ≠ '\\' := by
  constructor <;> rintro rfl <;> simp [shortEscape] at hshort

theorem hexValue_hexDigit {char : Char} (hcontrol : char.toNat < 32) :
    Char.ofNat (hexValue (hexDigit (char.toNat / 16)) * 16 +
      hexValue (hexDigit (char.toNat % 16))) = char := by
  have hall : ∀ code : Fin 32, hexValue (hexDigit (code.val / 16)) * 16 +
      hexValue (hexDigit (code.val % 16)) = code.val := by decide
  rw [hall ⟨char.toNat, hcontrol⟩, Char.ofNat_toNat]

theorem takeString_escapeChar (char : Char) (chars : List Char) :
    takeString (escapeChar char ++ chars) =
      (takeString chars).map fun result => (char :: result.1, result.2) := by
  unfold escapeChar
  cases hshort : shortEscape char with
  | some letter =>
      obtain ⟨hback, hu⟩ := shortUnescape_shortEscape hshort
      simp [takeString, hback, hu]
  | none =>
      have hplain := shortEscape_eq_none hshort
      by_cases hcontrol : char.toNat < 32
      · simp [hcontrol, takeString, hexValue_hexDigit hcontrol]
      · simp [hcontrol, takeString, hplain]

theorem takeString_escape (text rest : List Char) :
    takeString (escape text ++ '"' :: rest) = some (text, rest) := by
  induction text with
  | nil => simp [escape, takeString]
  | cons char text ih =>
      change takeString ((escapeChar char ++ escape text) ++ '"' :: rest) = _
      rw [List.append_assoc, takeString_escapeChar, ih]
      rfl

/-- A number ends where the text after it stops being digits. -/
theorem takeValue_digits {digits rest : List Char} (hnonempty : digits ≠ [])
    (hdigits : ∀ char ∈ digits, char.isDigit = true)
    (hrest : ∀ char ∈ rest.head?, char.isDigit = false) :
    takeValue (digits ++ rest) =
      some (.number (Nat.ofDigitChars 10 digits 0), rest) := by
  have hstop : rest.takeWhile Char.isDigit = [] ∧
      rest.dropWhile Char.isDigit = rest := by
    cases rest with
    | nil => simp
    | cons char rest => simp [hrest char (by simp)]
  have htake : (digits ++ rest).takeWhile Char.isDigit = digits := by
    rw [List.takeWhile_append_of_pos hdigits, hstop.1, List.append_nil]
  have hdrop : (digits ++ rest).dropWhile Char.isDigit = rest := by
    rw [List.dropWhile_append_of_pos hdigits, hstop.2]
  have hquote : ∀ tail, digits ++ rest ≠ '"' :: tail := by
    intro tail heq
    cases digits with
    | nil => exact hnonempty rfl
    | cons char digits =>
        rw [List.cons_append, List.cons.injEq] at heq
        have hdigit := hdigits char (by simp)
        rw [heq.1] at hdigit
        exact absurd hdigit (by decide)
  unfold takeValue
  split
  · rename_i tail heq
    exact absurd heq (hquote tail)
  · simp only [htake, hdrop, if_neg hnonempty]

theorem takeValue_writeValue (value : Value) {rest : List Char}
    (hrest : ∀ char ∈ rest.head?, char.isDigit = false) :
    takeValue (writeValue value ++ rest) = some (value, rest) := by
  cases value with
  | text value =>
      simp only [writeValue, quote, List.cons_append, List.append_assoc,
        List.nil_append, takeValue, takeString_escape]
      simp
  | number value =>
      have hdigits : ∀ char ∈ Nat.toDigits 10 value, char.isDigit = true :=
        fun char hmem => Nat.isDigit_of_mem_toDigits (by decide) (by decide) hmem
      rw [writeValue, takeValue_digits Nat.toDigits_ne_nil hdigits hrest,
        Nat.ofDigitChars_ten_toDigits]

theorem writeFields_head (fields : List (String × Value)) (rest : List Char)
    (hrest : ∀ char ∈ rest.head?, char.isDigit = false) :
    ∀ char ∈ (writeFields ',' fields ++ rest).head?, char.isDigit = false := by
  cases fields with
  | nil => exact hrest
  | cons field fields =>
      intro char hchar
      rw [writeFields, fieldStart, List.cons_append, List.cons_append,
        List.head?_cons, Option.mem_some_iff] at hchar
      subst hchar
      rfl

theorem takeFields_writeFields (lead : Char) (fields : List (String × Value))
    {rest : List Char}
    (hrest : ∀ char ∈ rest.head?, char.isDigit = false) :
    takeFields lead (fields.map Prod.fst) (writeFields lead fields ++ rest) =
      some (fields, rest) := by
  induction fields generalizing lead with
  | nil => rfl
  | cons field fields ih =>
      have hstart : (fieldStart lead field.1).isPrefixOf?
          (fieldStart lead field.1 ++
            (writeValue field.2 ++ (writeFields ',' fields ++ rest))) =
          some (writeValue field.2 ++ (writeFields ',' fields ++ rest)) :=
        List.isPrefixOf?_eq_some_iff_append_eq.mpr rfl
      have hvalue := takeValue_writeValue field.2
        (writeFields_head fields rest hrest)
      simp only [List.map_cons, takeFields, writeFields, List.append_assoc,
        hstart, hvalue, ih, Option.bind_eq_bind, Option.bind_some]
      rfl

theorem escape_length_le (text : List Char) :
    (escape text).length ≤ 6 * text.length := by
  induction text with
  | nil => simp [escape]
  | cons char text ih =>
      have hchar : (escapeChar char).length ≤ 6 := by
        unfold escapeChar
        split
        · simp
        · split <;> simp
      change (escapeChar char ++ escape text).length ≤ _
      rw [List.length_append, List.length_cons]
      omega

/-- How many characters a value takes at most. -/
def Value.maxLength : Value → Nat
  | .text value => 6 * value.length + 2
  | .number value => (Nat.toDigits 10 value).length

theorem writeValue_length_le (value : Value) :
    (writeValue value).length ≤ value.maxLength := by
  cases value with
  | text value =>
      have hescape := escape_length_le value.toList
      rw [String.length_toList] at hescape
      simp only [writeValue, quote, List.length_cons, List.length_append,
        List.length_nil, Value.maxLength]
      omega
  | number value => exact Nat.le_refl _

theorem writeFields_length_le (lead : Char) (fields : List (String × Value)) :
    (writeFields lead fields).length ≤
      (fields.map fun field =>
        6 * field.1.length + 4 + field.2.maxLength).sum := by
  induction fields generalizing lead with
  | nil => simp [writeFields]
  | cons field fields ih =>
      have hname := escape_length_le field.1.toList
      rw [String.length_toList] at hname
      have hvalue := writeValue_length_le field.2
      have hrest := ih ','
      simp only [writeFields, fieldStart, quote, List.length_append,
        List.length_cons, List.length_nil, List.map_cons, List.sum_cons]
      omega

theorem utf8ByteSize_ofList_le (chars : List Char) :
    (String.ofList chars).utf8ByteSize ≤ 4 * chars.length := by
  induction chars with
  | nil => simp
  | cons char chars ih =>
      rw [String.ofList_cons, String.utf8ByteSize_append,
        String.utf8ByteSize_singleton, List.length_cons]
      have hsize := Char.utf8Size_le_four char
      omega

/-- A bound on the size of an object from the sizes of its fields. -/
theorem writeObject_length_le (fields : List (String × Value)) :
    (writeObject fields).length ≤ 4 * ((fields.map fun field =>
      6 * field.1.length + 4 + field.2.maxLength).sum + 1) := by
  have hfields := writeFields_length_le '{' fields
  calc (writeObject fields).length
      = (String.ofList (writeFields '{' fields ++ ['}'])).utf8ByteSize := rfl
    _ ≤ 4 * (writeFields '{' fields ++ ['}']).length :=
        utf8ByteSize_ofList_le _
    _ ≤ _ := by
        rw [List.length_append, List.length_singleton]
        omega

/-- How many bytes a value takes. -/
def Value.size (value : Value) : Nat := String.utf8Len (writeValue value)

/-- The size of an object is that of its fields, in their order. -/
theorem writeObject_length (fields : List (String × Value)) :
    (writeObject fields).length =
      String.utf8Len (writeFields '{' fields) + 1 := by
  change (String.ofList (writeFields '{' fields ++ ['}'])).utf8ByteSize = _
  rw [String.utf8ByteSize_ofList, String.utf8Len_append]
  rfl

theorem utf8Len_writeFields_cons (lead : Char) (field : String × Value)
    (fields : List (String × Value)) :
    String.utf8Len (writeFields lead (field :: fields)) =
      String.utf8Len (fieldStart lead field.1) + field.2.size +
        String.utf8Len (writeFields ',' fields) := by
  rw [writeFields, String.utf8Len_append, String.utf8Len_append,
    ← Nat.add_assoc]
  rfl

/-- A text with nothing to escape takes its own bytes and the quotation
marks. -/
theorem Value.size_text {text : String}
    (hplain : ∀ char ∈ text.toList, escapeChar char = [char]) :
    (Value.text text).size = text.utf8ByteSize + 2 := by
  have hescape : ∀ chars : List Char,
      (∀ char ∈ chars, escapeChar char = [char]) → escape chars = chars := by
    intro chars hchars
    induction chars with
    | nil => rfl
    | cons char chars ih =>
        obtain ⟨hchar, hrest⟩ := List.forall_mem_cons.mp hchars
        rw [escape, List.flatMap_cons, hchar, ← escape, ih hrest]
        rfl
  have hquote : '"'.utf8Size = 1 := by decide
  rw [Value.size, writeValue, quote, hescape _ hplain, String.utf8Len_cons,
    String.utf8Len_append, String.utf8Len_cons, hquote,
    ← String.utf8ByteSize_ofList, String.ofList_toList]
  rfl

theorem escapeChar_of_isDigit {char : Char} (hdigit : char.isDigit = true) :
    escapeChar char = [char] := by
  have hcode : 48 ≤ char.toNat := by
    simp only [Char.isDigit, Bool.and_eq_true, decide_eq_true_eq] at hdigit
    exact hdigit.1
  have hne : ∀ other : Char, other.isDigit = false → char ≠ other := by
    rintro other hother rfl
    rw [hdigit] at hother
    cases hother
  have hshort : shortEscape char = none := by
    rw [shortEscape, if_neg (hne _ (by decide)), if_neg (hne _ (by decide)),
      if_neg (hne _ (by decide)), if_neg (hne _ (by decide)),
      if_neg (hne _ (by decide)), if_neg (hne _ (by decide)),
      if_neg (hne _ (by decide))]
  rw [escapeChar, hshort]
  exact if_neg (by omega)

/-- The same object as a string. -/
def writeText (fields : List (String × Value)) : String :=
  String.ofList (writeFields '{' fields ++ ['}'])

def readText (names : List String) (text : String) :
    Option (List (String × Value)) := do
  let (fields, rest) ← takeFields '{' names text.toList
  if rest = ['}'] then return fields else none

theorem readText_writeText (fields : List (String × Value)) :
    readText (fields.map Prod.fst) (writeText fields) = some fields := by
  have htake : takeFields '{' (fields.map Prod.fst)
      (writeFields '{' fields ++ ['}']) = some (fields, ['}']) :=
    takeFields_writeFields '{' fields (by simp)
  simp only [readText, writeText, String.toList_ofList, htake,
    Option.bind_eq_bind, Option.bind_some, if_true]
  rfl

theorem takeString_append {chars value rest : List Char}
    (htake : takeString chars = some (value, rest)) (tail : List Char) :
    takeString (chars ++ tail) = some (value, rest ++ tail) := by
  fun_induction takeString chars generalizing value rest with
  | case1 => simp at htake
  | case2 rest' =>
      obtain ⟨rfl, rfl⟩ := htake
      rfl
  | case3 high low rest' ih =>
      obtain ⟨⟨value', rest''⟩, hrest, heq⟩ := Option.map_eq_some_iff.mp htake
      rw [Prod.mk.injEq] at heq
      simp only [List.cons_append, takeString, ih hrest, Option.map_some]
      rw [heq.1, ← heq.2]
  | case4 letter rest' hplain ih =>
      obtain ⟨char, hchar, hmap⟩ := Option.bind_eq_some_iff.mp htake
      obtain ⟨⟨value', rest''⟩, hrest, heq⟩ := Option.map_eq_some_iff.mp hmap
      rw [Prod.mk.injEq] at heq
      have hletter : letter ≠ 'u' := by
        rintro rfl
        simp [shortUnescape] at hchar
      simp [takeString, ih hrest, hletter, hchar, ← heq.1, ← heq.2]
  | case5 char rest' hquote hcode hletter ih =>
      obtain ⟨⟨value', rest''⟩, hrest, heq⟩ := Option.map_eq_some_iff.mp htake
      rw [Prod.mk.injEq] at heq
      have hslash : char ≠ '\\' := by
        rintro rfl
        cases rest' with
        | nil => simp [takeString] at hrest
        | cons letter rest' => exact hletter letter rest' rfl rfl
      simp [takeString, ih hrest, hslash, ← heq.1, ← heq.2]

theorem takeValue_append {chars rest : List Char} {value : Value}
    (htake : takeValue chars = some (value, rest)) (hrest : rest ≠ [])
    (tail : List Char) :
    takeValue (chars ++ tail) = some (value, rest ++ tail) := by
  unfold takeValue at htake
  split at htake
  · obtain ⟨⟨text, after⟩, htext, heq⟩ := Option.map_eq_some_iff.mp htake
    rw [Prod.mk.injEq] at heq
    simp [takeValue, takeString_append htext, ← heq.1, ← heq.2]
  · have hsplit : chars.takeWhile Char.isDigit ++
        chars.dropWhile Char.isDigit = chars :=
      List.takeWhile_append_dropWhile
    by_cases hdigits : chars.takeWhile Char.isDigit = []
    · simp [hdigits] at htake
    · rw [if_neg hdigits, Option.some.injEq, Prod.mk.injEq] at htake
      obtain ⟨rfl, rfl⟩ := htake
      have hstop : ∀ char ∈ (chars.dropWhile Char.isDigit ++ tail).head?,
          char.isDigit = false := by
        intro char hchar
        rw [List.head?_append_of_ne_nil _ hrest, List.head?_eq_some_head hrest,
          Option.mem_some_iff] at hchar
        rw [← hchar]
        exact List.head_dropWhile_not _ hrest
      conv_lhs => rw [← hsplit, List.append_assoc]
      exact takeValue_digits hdigits
        (fun char hmem => List.mem_takeWhile_imp hmem) hstop

theorem takeFields_append {lead : Char} {names : List String}
    {chars rest : List Char} {fields : List (String × Value)}
    (htake : takeFields lead names chars = some (fields, rest))
    (hrest : rest ≠ []) (tail : List Char) :
    takeFields lead names (chars ++ tail) = some (fields, rest ++ tail) := by
  induction names generalizing lead chars fields with
  | nil =>
      obtain ⟨rfl, rfl⟩ := htake
      rfl
  | cons name names ih =>
      simp only [takeFields, Option.bind_eq_bind, Option.bind_eq_some_iff] at htake
      obtain ⟨after, hstart, ⟨value, others⟩, hvalue, ⟨found, left⟩, hfound,
        heq⟩ := htake
      rw [Option.pure_def, Option.some.injEq, Prod.mk.injEq] at heq
      obtain ⟨rfl, rfl⟩ := heq
      have hothers : others ≠ [] := by
        rintro rfl
        cases names with
        | nil => exact hrest (congrArg Prod.snd (Option.some.inj hfound)).symm
        | cons name names =>
            simp [takeFields, fieldStart, List.isPrefixOf?] at hfound
      have hprefix := List.isPrefixOf?_eq_some_iff_append_eq.mp hstart
      have hstart' : (fieldStart lead name).isPrefixOf? (chars ++ tail) =
          some (after ++ tail) := by
        rw [List.isPrefixOf?_eq_some_iff_append_eq, ← hprefix,
          List.append_assoc]
      simp only [takeFields, hstart', takeValue_append hvalue hothers,
        ih hfound, Option.bind_eq_bind, Option.bind_some]
      rfl

/-- Nothing may follow an object. -/
theorem readText_append {names : List String} {text tail : String}
    (hread : (readText names text).isSome) (htail : tail ≠ "") :
    readText names (text ++ tail) = none := by
  obtain ⟨fields, hfields⟩ := Option.isSome_iff_exists.mp hread
  simp only [readText, Option.bind_eq_bind, Option.bind_eq_some_iff] at hfields
  obtain ⟨⟨found, rest⟩, htake, hend⟩ := hfields
  have hrest : rest = ['}'] := by
    by_contra hne
    simp [hne] at hend
  have hlonger := takeFields_append htake (by simp [hrest]) tail.toList
  have htail' : tail.toList ≠ [] := by simpa using htail
  simp [readText, String.toList_append, hlonger, hrest, htail']

/-- Reading with the names that were written gives the fields back. -/
theorem readObject_writeObject (fields : List (String × Value)) :
    readObject (fields.map Prod.fst) (writeObject fields) = some fields := by
  have htext (text : String) :
      String.fromUTF8? ⟨text.toUTF8.data.toList.toArray⟩ = some text := by
    rw [Array.toArray_toList]
    exact dif_pos text.isValidUTF8
  have hread : readObject (fields.map Prod.fst) (writeObject fields) =
      (String.fromUTF8? ⟨(writeText fields).toUTF8.data.toList.toArray⟩).bind
        (readText (fields.map Prod.fst)) := rfl
  rw [hread, htext, Option.bind_some, readText_writeText]

theorem escapeChar_ne_newline (char : Char) :
    '\n' ∉ escapeChar char := by
  have hdigit : ∀ code : Fin 16, hexDigit code.val ≠ '\n' := by decide
  unfold escapeChar
  cases hshort : shortEscape char with
  | some letter =>
      have hletter : letter ≠ '\n' := by
        unfold shortEscape at hshort
        split_ifs at hshort <;> simp at hshort <;> subst hshort <;> decide
      simp [hletter.symm]
  | none =>
      have hplain : char ≠ '\n' := by
        rintro rfl
        simp [shortEscape] at hshort
      by_cases hcontrol : char.toNat < 32
      · have hhigh := hdigit ⟨char.toNat / 16, by omega⟩
        have hlow := hdigit ⟨char.toNat % 16, Nat.mod_lt _ (by decide)⟩
        simp [hcontrol, hhigh.symm, hlow.symm]
      · simp [hcontrol, hplain.symm]

theorem quote_ne_newline (text : List Char) : '\n' ∉ quote text := by
  have hescape : '\n' ∉ escape text := by
    rw [escape, List.mem_flatMap]
    rintro ⟨char, -, hmem⟩
    exact escapeChar_ne_newline char hmem
  simp [quote, hescape]

theorem writeValue_ne_newline (value : Value) : '\n' ∉ writeValue value := by
  cases value with
  | text value => exact quote_ne_newline value.toList
  | number value =>
      intro hmem
      have hdigit := Nat.isDigit_of_mem_toDigits (by decide) (by decide) hmem
      exact absurd hdigit (by decide)

theorem writeFields_ne_newline {lead : Char} (hlead : lead ≠ '\n')
    (fields : List (String × Value)) : '\n' ∉ writeFields lead fields := by
  induction fields generalizing lead with
  | nil => simp [writeFields]
  | cons field fields ih =>
      have hname := quote_ne_newline field.1.toList
      have hvalue := writeValue_ne_newline field.2
      have hrest := @ih ',' (by decide)
      simp [writeFields, fieldStart, hlead.symm, hname, hvalue, hrest]

/-- An object is written on one line. -/
theorem writeText_ne_newline (fields : List (String × Value)) :
    '\n' ∉ (writeText fields).toList := by
  have hfields := @writeFields_ne_newline '{' (by decide) fields
  rw [writeText, String.toList_ofList]
  simp [hfields]

end FlatJson
