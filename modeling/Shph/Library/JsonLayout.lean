/-
JSON objects and arrays in the two layouts a serializer writes, on one line and
indented.  The members come with the text of their values, so nested values are
written from the inside, and the size of an object follows from the sizes of
its members.
-/
import Shph.Library.Base64
import Shph.Library.FlatJson

namespace JsonLayout

open ByteCodec FlatJson

inductive Layout where
  | compact
  | pretty
deriving Repr, DecidableEq

/-- The line break before a member at this depth. -/
def Layout.newline : Layout → Nat → List Char
  | .compact, _ => []
  | .pretty, depth => '\n' :: List.replicate (2 * depth) ' '

def Layout.colon : Layout → List Char
  | .compact => [':']
  | .pretty => [':', ' ']

/-- The members of an object at this depth, each after the separator before
it. -/
def writeMembers (layout : Layout) (depth : Nat) (lead : Char) :
    List (String × List Char) → List Char
  | [] => []
  | member :: rest =>
      lead :: (layout.newline (depth + 1) ++ (quote member.1.toList ++
        (layout.colon ++ (member.2 ++ writeMembers layout depth ',' rest))))

/-- An object without members stays on its line in both layouts. -/
def object (layout : Layout) (depth : Nat)
    (members : List (String × List Char)) : List Char :=
  if members = [] then ['{', '}']
  else writeMembers layout depth '{' members ++ (layout.newline depth ++ ['}'])

/-- The values of an array at this depth, each after the separator before
it. -/
def writeValues (layout : Layout) (depth : Nat) (lead : Char) :
    List (List Char) → List Char
  | [] => []
  | value :: rest =>
      lead :: (layout.newline (depth + 1) ++
        (value ++ writeValues layout depth ',' rest))

def array (layout : Layout) (depth : Nat) (values : List (List Char)) :
    List Char :=
  if values = [] then ['[', ']']
  else writeValues layout depth '[' values ++ (layout.newline depth ++ [']'])

section Sizes

def Layout.newlineBytes : Layout → Nat → Nat
  | .compact, _ => 0
  | .pretty, depth => 2 * depth + 1

def Layout.colonBytes : Layout → Nat
  | .compact => 1
  | .pretty => 2

/-- How many bytes a text takes between its quotation marks, with them. -/
def quoteBytes (text : String) : Nat := String.utf8Len (quote text.toList)

/-- How many bytes a member takes, from the size of its value. -/
def memberBytes (layout : Layout) (depth : Nat) (member : String × Nat) : Nat :=
  1 + layout.newlineBytes (depth + 1) + quoteBytes member.1 +
    layout.colonBytes + member.2

/-- How many bytes an object takes, from the sizes of its values. -/
def objectBytes (layout : Layout) (depth : Nat)
    (members : List (String × Nat)) : Nat :=
  if members = [] then 2
  else (members.map (memberBytes layout depth)).sum +
    layout.newlineBytes depth + 1

/-- No character is written with fewer bytes than one. -/
theorem length_le_quoteBytes (text : String) :
    text.toList.length ≤ quoteBytes text := by
  have hescape : ∀ chars : List Char,
      chars.length ≤ String.utf8Len (escape chars) := by
    intro chars
    induction chars with
    | nil => exact Nat.le_refl _
    | cons char chars ih =>
        have hchar : 0 < String.utf8Len (escapeChar char) := by
          cases hwritten : escapeChar char with
          | nil =>
              rw [escapeChar] at hwritten
              split at hwritten
              · cases hwritten
              · split at hwritten <;> cases hwritten
          | cons first rest =>
              rw [String.utf8Len_cons]
              have hfirst := first.utf8Size_pos
              omega
        rw [escape] at ih ⊢
        rw [List.flatMap_cons, String.utf8Len_append, List.length_cons]
        omega
  have hall := hescape text.toList
  rw [quoteBytes, quote, String.utf8Len_cons, String.utf8Len_append]
  omega

theorem utf8Len_newline (layout : Layout) (depth : Nat) :
    String.utf8Len (layout.newline depth) = layout.newlineBytes depth := by
  have hspaces : ∀ count,
      String.utf8Len (List.replicate count ' ') = count := by
    intro count
    induction count with
    | zero => rfl
    | succ count ih =>
        rw [List.replicate_succ, String.utf8Len_cons, ih]
        rfl
  cases layout with
  | compact => rfl
  | pretty =>
      rw [Layout.newline, String.utf8Len_cons, hspaces]
      rfl

theorem utf8Len_colon (layout : Layout) :
    String.utf8Len layout.colon = layout.colonBytes := by
  cases layout <;> decide

theorem utf8Len_writeMembers (layout : Layout) (depth : Nat) {lead : Char}
    (hlead : lead.utf8Size = 1) (members : List (String × List Char)) :
    String.utf8Len (writeMembers layout depth lead members) =
      ((members.map (Prod.map id String.utf8Len)).map
        (memberBytes layout depth)).sum := by
  induction members generalizing lead with
  | nil => rfl
  | cons member members ih =>
      have hcomma : ','.utf8Size = 1 := by decide
      simp only [writeMembers, String.utf8Len_cons, String.utf8Len_append,
        hlead, utf8Len_newline, utf8Len_colon, ih hcomma, List.map_cons,
        List.sum_cons, memberBytes, quoteBytes, Prod.map, id]
      omega

/-- The size of an object is settled by the sizes of its members' values. -/
theorem utf8Len_object (layout : Layout) (depth : Nat)
    (members : List (String × List Char)) :
    String.utf8Len (object layout depth members) =
      objectBytes layout depth (members.map (Prod.map id String.utf8Len)) := by
  by_cases hempty : members = []
  · subst hempty
    rfl
  · have hsizes : members.map (Prod.map id String.utf8Len) ≠ [] := by
      simpa using hempty
    rw [object, if_neg hempty, objectBytes, if_neg hsizes,
      String.utf8Len_append, String.utf8Len_append,
      utf8Len_writeMembers layout depth (by decide), utf8Len_newline,
      ← Nat.add_assoc]
    rfl

theorem escapeChar_base64 (bytes : Bytes) :
    ∀ char ∈ (Base64.encode bytes).toList, escapeChar char = [char] := by
  rw [Base64.encode, String.toList_ofList]
  apply Base64.forall_mem_encodeDigits
  · intro value hvalue
    have hall : ∀ value : Fin 64,
        escapeChar (Base64.digit value) = [Base64.digit value] := by decide
    exact hall ⟨value, hvalue⟩
  · decide

/-- A Base64 text has nothing to escape. -/
theorem size_base64 (bytes : Bytes) :
    (Value.text (Base64.encode bytes)).size =
      (bytes.length + 2) / 3 * 4 + 2 := by
  rw [Value.size_text (escapeChar_base64 bytes), Base64.encode_utf8ByteSize]

end Sizes

end JsonLayout
