/-
The directory of a session.  The path components of two nodes are joined by
dashes, and components have dashes inside them; that the nodes can be told
from the joined name rests on the bound on the readable part and on the digest
having a fixed length and no dashes.
-/
import Shph.Library.Delimited
import Shph.OfflineMeshQueue

namespace Shph

open ByteCodec Delimited

/-- What is hashed for a path component. -/
def pathMessage (input : String) : Bytes :=
  textBytes "shph/path-component/v1\x00" ++
    bigEndian 8 input.utf8ByteSize ++ textBytes input

/-- The part of the digest that a path component has. -/
def pathDigest (sha256 : Bytes → FixedBytes 32) (input : String) : Bytes :=
  (sha256 (pathMessage input)).val.take 16

/-- The shortened digest tells the messages of these inputs apart. -/
def CollisionFree (sha256 : Bytes → FixedBytes 32) (inputs : List String) :
    Prop :=
  ∀ left ∈ inputs, ∀ right ∈ inputs,
    pathDigest sha256 left = pathDigest sha256 right →
      pathMessage left = pathMessage right

/-- The characters of a path component. -/
def pathChar (char : Char) : Bool :=
  char.isAlphanum || char = '-' || char = '_'

def readablePrefix (input : String) : List Char :=
  let readable := (input.toList.take 24).map fun char =>
    if pathChar char then char else '_'
  if readable = [] then ['_'] else readable

theorem pathMessage_inj {left right : String}
    (hmessage : pathMessage left = pathMessage right) : left = right := by
  simp only [pathMessage, List.append_assoc] at hmessage
  have hbehind := List.append_cancel_left hmessage
  have hwidth : (bigEndian 8 left.utf8ByteSize).length =
      (bigEndian 8 right.utf8ByteSize).length := by
    simp
  exact textBytes_inj (List.append_inj hbehind hwidth).2

section Hex

theorem hexDigit_inj {left right : Nat} (hleft : left < 16)
    (hright : right < 16) (hdigit : hexDigit left = hexDigit right) :
    left = right := by
  have hall : ∀ left : Fin 16, ∀ right : Fin 16,
      hexDigit left = hexDigit right → left = right := by decide
  exact congrArg Fin.val (hall ⟨left, hleft⟩ ⟨right, hright⟩ hdigit)

theorem hexDigit_isAlphanum {value : Nat} (hvalue : value < 16) :
    (hexDigit value).isAlphanum = true := by
  have hall : ∀ value : Fin 16, (hexDigit value).isAlphanum = true := by
    decide
  exact hall ⟨value, hvalue⟩

theorem byte_div_lt (byte : UInt8) : byte.toNat / 16 < 16 := by
  have hbyte := byte.toNat_lt
  omega

theorem hexEncode_toList (bytes : Bytes) :
    (hexEncode bytes).toList = bytes.flatMap fun byte =>
      [hexDigit (byte.toNat / 16), hexDigit (byte.toNat % 16)] := by
  rw [hexEncode, String.toList_ofList]

theorem length_hexEncode (bytes : Bytes) :
    (hexEncode bytes).toList.length = 2 * bytes.length := by
  rw [hexEncode_toList]
  induction bytes with
  | nil => rfl
  | cons byte bytes ih =>
      rw [List.flatMap_cons, List.length_append, ih]
      change 2 + 2 * bytes.length = 2 * (bytes.length + 1)
      omega

theorem hexEncode_inj {left right : Bytes}
    (hhex : hexEncode left = hexEncode right) : left = right := by
  have hchars := congrArg String.toList hhex
  rw [hexEncode_toList, hexEncode_toList] at hchars
  induction left generalizing right with
  | nil =>
      cases right with
      | nil => rfl
      | cons byte bytes => cases hchars
  | cons byte bytes ih =>
      cases right with
      | nil => cases hchars
      | cons other others =>
          simp only [List.flatMap_cons, List.cons_append, List.nil_append,
            List.cons.injEq] at hchars
          obtain ⟨hhigh, hlow, hrest⟩ := hchars
          have hdiv := hexDigit_inj (byte_div_lt byte) (byte_div_lt other)
            hhigh
          have hmod := hexDigit_inj (Nat.mod_lt _ (by decide))
            (Nat.mod_lt _ (by decide)) hlow
          have hbyte : byte = other := by
            apply UInt8.toNat_inj.mp
            rw [← Nat.div_add_mod byte.toNat 16, hdiv, hmod,
              Nat.div_add_mod]
          rw [hbyte, ih (by rw [hexEncode, hrest, ← hexEncode]) hrest]

theorem hexEncode_isAlphanum {bytes : Bytes} {char : Char}
    (hchar : char ∈ (hexEncode bytes).toList) : char.isAlphanum = true := by
  rw [hexEncode_toList] at hchar
  simp only [List.mem_flatMap, List.mem_cons, List.not_mem_nil,
    or_false] at hchar
  obtain ⟨byte, -, rfl | rfl⟩ := hchar
  · exact hexDigit_isAlphanum (byte_div_lt byte)
  · exact hexDigit_isAlphanum (Nat.mod_lt _ (by decide))

end Hex

section Component

variable (sha256 : Bytes → FixedBytes 32)

theorem safePathComponent_toList (input : String) :
    (safePathComponent sha256 input).toList = readablePrefix input ++
      '-' :: (hexEncode (pathDigest sha256 input)).toList := by
  simp only [safePathComponent, String.toList_append, String.toList_ofList,
    List.append_assoc]
  rfl

theorem readablePrefix_length (input : String) :
    1 ≤ (readablePrefix input).length ∧ (readablePrefix input).length ≤ 24 := by
  unfold readablePrefix
  dsimp only
  split
  · exact ⟨Nat.le_refl _, by decide⟩
  · rename_i hreadable
    refine ⟨List.length_pos_iff.mpr hreadable, ?_⟩
    rw [List.length_map, List.length_take]
    exact Nat.min_le_left _ _

theorem readablePrefix_pathChar {input : String} {char : Char}
    (hchar : char ∈ readablePrefix input) : pathChar char = true := by
  unfold readablePrefix at hchar
  dsimp only at hchar
  split at hchar
  · rw [List.mem_singleton] at hchar
    rw [hchar]
    rfl
  · obtain ⟨original, -, rfl⟩ := List.mem_map.mp hchar
    split
    · assumption
    · rfl

theorem hexEncode_pathDigest_length (input : String) :
    (hexEncode (pathDigest sha256 input)).toList.length = 32 := by
  rw [length_hexEncode, pathDigest, List.length_take, FixedBytes.length_eq]
  rfl

theorem safePathComponent_length (input : String) :
    34 ≤ (safePathComponent sha256 input).toList.length ∧
      (safePathComponent sha256 input).toList.length ≤ 57 := by
  have hreadable := readablePrefix_length input
  rw [safePathComponent_toList, List.length_append, List.length_cons,
    hexEncode_pathDigest_length]
  omega

theorem safePathComponent_pathChar {input : String} {char : Char}
    (hchar : char ∈ (safePathComponent sha256 input).toList) :
    pathChar char = true := by
  rw [safePathComponent_toList, List.mem_append, List.mem_cons] at hchar
  obtain hchar | rfl | hchar := hchar
  · exact readablePrefix_pathChar hchar
  · rfl
  · rw [pathChar, hexEncode_isAlphanum hchar]
    rfl

/-- The last characters of a component are its digest. -/
theorem drop_safePathComponent (input : String) :
    (safePathComponent sha256 input).toList.drop
        ((safePathComponent sha256 input).toList.length - 32) =
      (hexEncode (pathDigest sha256 input)).toList := by
  have hhex := hexEncode_pathDigest_length sha256 input
  rw [safePathComponent_toList, List.append_cons]
  apply List.drop_left'
  rw [List.length_append, List.length_append, List.length_append, hhex]
  rfl

theorem dash_notMem_digest (input : String) :
    '-' ∉ (safePathComponent sha256 input).toList.drop
      ((safePathComponent sha256 input).toList.length - 32) := by
  rw [drop_safePathComponent]
  intro hdash
  exact absurd (hexEncode_isAlphanum hdash) (by decide)

variable {sha256}

/-- Components of inputs whose digests do not collide are different. -/
theorem safePathComponent_inj {inputs : List String}
    (hfree : CollisionFree sha256 inputs) {left right : String}
    (hleft : left ∈ inputs) (hright : right ∈ inputs)
    (heq : safePathComponent sha256 left = safePathComponent sha256 right) :
    left = right := by
  have hdigest : (hexEncode (pathDigest sha256 left)).toList =
      (hexEncode (pathDigest sha256 right)).toList := by
    rw [← drop_safePathComponent, ← drop_safePathComponent, heq]
  apply pathMessage_inj
  apply hfree left hleft right hright
  exact hexEncode_inj (String.toList_inj.mp hdigest)

end Component

section Session

variable (sha256 : Bytes → FixedBytes 32)

/-- The identifier is made of the components of the two nodes in one of the
two orders. -/
theorem offlineSessionId_eq (nodeA nodeB : String) :
    ∃ first second, s(first, second) = s(nodeA, nodeB) ∧
      (offlineSessionId sha256 nodeA nodeB).toList =
        (safePathComponent sha256 first).toList ++
          '-' :: '-' :: (safePathComponent sha256 second).toList := by
  unfold offlineSessionId
  dsimp only
  split
  · refine ⟨nodeA, nodeB, rfl, ?_⟩
    rw [String.toList_append, String.toList_append, List.append_assoc]
    rfl
  · refine ⟨nodeB, nodeA, Sym2.eq_swap, ?_⟩
    rw [String.toList_append, String.toList_append, List.append_assoc]
    rfl

/-- Nothing but the two components can be read from an identifier: a dash of
one reading would lie in the digest of the other. -/
theorem components_of_session_eq {first second first' second' : String}
    (heq : (safePathComponent sha256 first).toList ++
        '-' :: '-' :: (safePathComponent sha256 second).toList =
      (safePathComponent sha256 first').toList ++
        '-' :: '-' :: (safePathComponent sha256 second').toList) :
    safePathComponent sha256 first = safePathComponent sha256 first' ∧
      safePathComponent sha256 second = safePathComponent sha256 second' := by
  have hlength := safePathComponent_length sha256 first
  have hlength' := safePathComponent_length sha256 first'
  obtain ⟨hfirst, hrest⟩ := append_delimiter_inj heq
    (dash_notMem_digest sha256 first) (dash_notMem_digest sha256 first')
    (by omega) (by omega)
  exact ⟨String.toList_inj.mp hfirst,
    String.toList_inj.mp (List.cons.inj hrest).2⟩

variable {sha256}

theorem offlineSessionId_inj {nodeA nodeB nodeC nodeD : String}
    (hfree : CollisionFree sha256 [nodeA, nodeB, nodeC, nodeD])
    (heq : offlineSessionId sha256 nodeA nodeB =
      offlineSessionId sha256 nodeC nodeD) :
    s(nodeA, nodeB) = s(nodeC, nodeD) := by
  obtain ⟨first, second, hpair, hchars⟩ :=
    offlineSessionId_eq sha256 nodeA nodeB
  obtain ⟨first', second', hpair', hchars'⟩ :=
    offlineSessionId_eq sha256 nodeC nodeD
  rw [heq, hchars'] at hchars
  obtain ⟨hfirst, hsecond⟩ := components_of_session_eq sha256 hchars.symm
  have hnodes : ∀ {node : String}, node ∈ s(first, second) →
      node ∈ [nodeA, nodeB, nodeC, nodeD] := by
    intro node hnode
    rw [hpair, Sym2.mem_iff] at hnode
    obtain rfl | rfl := hnode
    · exact List.mem_cons_self
    · exact List.mem_cons_of_mem _ List.mem_cons_self
  have hnodes' : ∀ {node : String}, node ∈ s(first', second') →
      node ∈ [nodeA, nodeB, nodeC, nodeD] := by
    intro node hnode
    rw [hpair', Sym2.mem_iff] at hnode
    apply List.mem_cons_of_mem _ (List.mem_cons_of_mem _ _)
    obtain rfl | rfl := hnode
    · exact List.mem_cons_self
    · exact List.mem_cons_of_mem _ List.mem_cons_self
  rw [← hpair, ← hpair',
    safePathComponent_inj hfree (hnodes (Sym2.mem_mk_left _ _))
      (hnodes' (Sym2.mem_mk_left _ _)) hfirst,
    safePathComponent_inj hfree (hnodes (Sym2.mem_mk_right _ _))
      (hnodes' (Sym2.mem_mk_right _ _)) hsecond]

/-- A name that can be used as one component of a path. -/
structure PathComponent (name : String) : Prop where
  nonempty : name ≠ ""
  bytes : name.utf8ByteSize ≤ 57
  chars : ∀ char ∈ name.toList, pathChar char = true
  single : '/' ∉ name.toList ∧ '\\' ∉ name.toList
  named : name ≠ "." ∧ name ≠ ".."

theorem utf8Size_of_pathChar {char : Char} (hchar : pathChar char = true) :
    char.utf8Size = 1 := by
  rw [Char.utf8Size_eq_one_iff]
  simp only [pathChar, Char.isAlphanum, Char.isAlpha, Char.isUpper,
    Char.isLower, Char.isDigit, Bool.or_eq_true, Bool.and_eq_true,
    decide_eq_true_eq] at hchar
  obtain (((hupper | hlower) | hdigit) | rfl) | rfl := hchar
  · exact Nat.le_trans hupper.2 (by decide)
  · exact Nat.le_trans hlower.2 (by decide)
  · exact Nat.le_trans hdigit.2 (by decide)
  · decide
  · decide

theorem utf8Len_eq_length {chars : List Char}
    (hchars : ∀ char ∈ chars, pathChar char = true) :
    String.utf8Len chars = chars.length := by
  induction chars with
  | nil => rfl
  | cons char chars ih =>
      have hsize := utf8Size_of_pathChar (hchars char List.mem_cons_self)
      rw [String.utf8Len_cons, hsize, List.length_cons,
        ih fun other hother => hchars other (List.mem_cons_of_mem _ hother)]

theorem safePathComponent_pathComponent (sha256 : Bytes → FixedBytes 32)
    (input : String) : PathComponent (safePathComponent sha256 input) := by
  have hchars : ∀ char ∈ (safePathComponent sha256 input).toList,
      pathChar char = true :=
    fun char hchar => safePathComponent_pathChar sha256 hchar
  have hlength := safePathComponent_length sha256 input
  have hname : ∀ name : String, name.toList.length < 34 →
      safePathComponent sha256 input ≠ name := by
    intro name hshort heq
    rw [heq] at hlength
    omega
  refine ⟨hname _ (by decide), ?_, hchars, ⟨?_, ?_⟩, hname _ (by decide),
    hname _ (by decide)⟩
  · rw [← String.ofList_toList (s := safePathComponent sha256 input),
      String.utf8ByteSize_ofList, utf8Len_eq_length hchars]
    exact hlength.2
  · intro hslash
    exact absurd (hchars _ hslash) (by decide)
  · intro hslash
    exact absurd (hchars _ hslash) (by decide)

/-- The directory of a session belongs to the two nodes and to no others, and
the names it is made of are path components. -/
theorem session_directory_identity (sha256 : Bytes → FixedBytes 32)
    (nodeA nodeB nodeC nodeD : String)
    (hfree : CollisionFree sha256 [nodeA, nodeB, nodeC, nodeD]) :
    (offlineSessionId sha256 nodeA nodeB =
        offlineSessionId sha256 nodeC nodeD ↔
      s(nodeA, nodeB) = s(nodeC, nodeD)) ∧
    ∀ input, PathComponent (safePathComponent sha256 input) := by
  refine ⟨⟨offlineSessionId_inj hfree, ?_⟩,
    safePathComponent_pathComponent sha256⟩
  intro hpair
  obtain ⟨rfl, rfl⟩ | ⟨rfl, rfl⟩ := Sym2.eq_iff.mp hpair
  · rfl
  · exact offlineSessionId_comm sha256 nodeA nodeB

end Session

namespace SessionWitness

/-- The digest for the node `a/b`. -/
def slashDigest : FixedBytes 32 :=
  ⟨[105, 7, 152, 57, 157, 55, 168, 169, 112, 129, 173, 163, 249, 134, 57, 41,
    122, 226, 108, 143, 72, 113, 198, 172, 105, 158, 29, 137, 76, 213, 17,
    30], rfl⟩

/-- The digest for the node `a_b`. -/
def underscoreDigest : FixedBytes 32 :=
  ⟨[138, 38, 43, 13, 32, 128, 232, 240, 183, 192, 190, 80, 51, 153, 194, 163,
    232, 87, 230, 142, 216, 131, 197, 137, 133, 178, 117, 47, 142, 43, 249,
    101], rfl⟩

/-- The digest for the node `peer`. -/
def peerDigest : FixedBytes 32 :=
  ⟨[248, 233, 178, 240, 245, 26, 53, 54, 114, 65, 133, 12, 8, 151, 111, 88,
    245, 130, 14, 176, 236, 187, 20, 46, 83, 73, 244, 76, 222, 218, 179,
    212], rfl⟩

/-- SHA-256 on the messages of the three nodes. -/
def sha256 (bytes : Bytes) : FixedBytes 32 :=
  if bytes = pathMessage "a/b" then slashDigest
  else if bytes = pathMessage "a_b" then underscoreDigest
  else peerDigest

theorem message_ne {left right : String} (hne : left ≠ right) :
    pathMessage left ≠ pathMessage right :=
  fun hmessage => hne (pathMessage_inj hmessage)

theorem digest_slash : pathDigest sha256 "a/b" = slashDigest.val.take 16 := by
  rw [pathDigest, sha256, if_pos rfl]

theorem digest_underscore :
    pathDigest sha256 "a_b" = underscoreDigest.val.take 16 := by
  rw [pathDigest, sha256, if_neg (message_ne (by decide)), if_pos rfl]

theorem digest_peer : pathDigest sha256 "peer" = peerDigest.val.take 16 := by
  rw [pathDigest, sha256, if_neg (message_ne (by decide)),
    if_neg (message_ne (by decide))]

theorem collisionFree : CollisionFree sha256 ["a/b", "peer", "a_b", "peer"] := by
  intro left hleft right hright heq
  simp only [List.mem_cons, List.not_mem_nil, or_false] at hleft hright
  obtain rfl | rfl | rfl | rfl := hleft <;>
    obtain rfl | rfl | rfl | rfl := hright <;>
    first
    | rfl
    | simp only [digest_slash, digest_underscore, digest_peer] at heq
      exact absurd heq (by decide)

/-- Nodes that differ in a character that is replaced have different session
directories. -/
theorem session_directory_identity_replaced :
    CollisionFree sha256 ["a/b", "peer", "a_b", "peer"] ∧
      offlineSessionId sha256 "a/b" "peer" ≠
        offlineSessionId sha256 "a_b" "peer" := by
  have hidentity := (session_directory_identity sha256 "a/b" "peer" "a_b"
    "peer" collisionFree).1
  refine ⟨collisionFree, fun heq => ?_⟩
  exact absurd (hidentity.mp heq) (by decide)

end SessionWitness

end Shph
