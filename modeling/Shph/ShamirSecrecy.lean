/-
Secrecy of the shares.  Fewer shares than the threshold fit every secret, and
each secret through exactly one choice of the random coefficients, so they do
not favour any secret of their length.
-/
import Shph.ShamirRecovery

namespace Shph

open ByteCodec Interpolation

section Field

variable {p : Nat} [hprime : Fact p.Prime]

theorem natCast_map_inj {left right : List Nat} (hleft : ∀ x ∈ left, x < p)
    (hright : ∀ x ∈ right, x < p)
    (heq : left.map (fun x : Nat => (x : ZMod p)) =
      right.map (fun x : Nat => (x : ZMod p))) : left = right := by
  have hback (xs : List Nat) (hxs : ∀ x ∈ xs, x < p) :
      (xs.map (fun x : Nat => (x : ZMod p))).map ZMod.val = xs := by
    rw [List.map_map]
    conv_rhs => rw [← List.map_id xs]
    apply List.map_congr_left
    intro x hx
    exact ZMod.val_natCast_of_lt (hxs x hx)
  rw [← hback left hleft, heq, hback right hright]

theorem natCast_map_val (elements : List (ZMod p)) :
    (elements.map ZMod.val).map (fun x : Nat => (x : ZMod p)) = elements := by
  rw [List.map_map]
  conv_rhs => rw [← List.map_id elements]
  apply List.map_congr_left
  intro element _
  exact ZMod.natCast_zmod_val element

/-- A polynomial takes values at some points and has a constant term exactly
if, over the field, it takes them at the points and at zero. -/
theorem gfEval_map_eq_iff {byte : Nat} {xs values : List Nat}
    (hvalues : ∀ value ∈ values, value < p) (coeffs : List Nat) :
    xs.map (fun x => gfEval (byte :: coeffs) x p) = values ↔
      ((0 :: xs).map fun x : Nat => (x : ZMod p)).map
          (horner ((byte :: coeffs).map fun coeff : Nat => (coeff : ZMod p))) =
        (byte :: values).map fun value : Nat => (value : ZMod p) := by
  have hzero : horner
      ((byte :: coeffs).map fun coeff : Nat => (coeff : ZMod p)) 0 = byte := by
    rw [List.map_cons, horner, List.foldr_cons, mul_zero, zero_add]
  have hcasts : (xs.map fun x : Nat => (x : ZMod p)).map
      (horner ((byte :: coeffs).map fun coeff : Nat => (coeff : ZMod p))) =
        (xs.map fun x => gfEval (byte :: coeffs) x p).map
          fun value : Nat => (value : ZMod p) := by
    rw [List.map_map, List.map_map]
    apply List.map_congr_left
    intro x _
    exact (gfEval_cast (byte :: coeffs) x).symm
  generalize (byte :: coeffs).map (fun coeff : Nat => (coeff : ZMod p)) =
    lifted at hzero hcasts ⊢
  rw [List.map_cons, List.map_cons, Nat.cast_zero, hzero, hcasts,
    List.map_cons, List.cons.injEq]
  constructor
  · rintro rfl
    exact ⟨rfl, rfl⟩
  · rintro ⟨_, heq⟩
    apply natCast_map_inj _ hvalues heq
    intro value hvalue
    obtain ⟨x, _, rfl⟩ := List.mem_map.mp hvalue
    exact gfEval_lt hprime.out.pos _ _

/-- One value fewer than there are coefficients leaves every constant term
possible, with exactly one choice of the others. -/
theorem existsUnique_gfEval {byte : Nat} {xs values : List Nat}
    (hnodup : xs.Nodup) (hxs : ∀ x ∈ xs, 1 ≤ x ∧ x < p)
    (hlength : values.length = xs.length)
    (hvalues : ∀ value ∈ values, value < p) :
    ∃! coeffs : List Nat, coeffs.length = xs.length ∧
      (∀ coeff ∈ coeffs, coeff < p) ∧
      xs.map (fun x => gfEval (byte :: coeffs) x p) = values := by
  have hpoints : ((0 :: xs).map fun x : Nat => (x : ZMod p)).Nodup := by
    have hdistinct : (0 :: xs).Nodup := by
      rw [List.nodup_cons]
      refine ⟨?_, hnodup⟩
      intro hmem
      exact absurd (hxs 0 hmem).1 (by decide)
    apply hdistinct.map_on
    have hlt : ∀ x ∈ 0 :: xs, x < p := by
      intro x hx
      rcases List.mem_cons.mp hx with rfl | hx
      · exact hprime.out.pos
      · exact (hxs x hx).2
    intro left hleft right hright heq
    rw [← ZMod.val_natCast_of_lt (hlt left hleft), heq,
      ZMod.val_natCast_of_lt (hlt right hright)]
  obtain ⟨full, ⟨hfull, htakes⟩, hunique⟩ := existsUnique_horner hpoints
    (show ((byte :: values).map fun value : Nat => (value : ZMod p)).length =
      ((0 :: xs).map fun x : Nat => (x : ZMod p)).length by simp [hlength])
  cases full with
  | nil => simp at hfull
  | cons constant rest =>
      rw [List.length_cons, List.length_map, List.length_cons,
        Nat.add_right_cancel_iff] at hfull
      have hconstant : constant = byte := by
        have hhead := congrArg List.head? htakes
        rw [List.map_cons, List.map_cons, Nat.cast_zero, List.map_cons,
          List.head?_cons, List.head?_cons, Option.some.injEq, horner,
          List.foldr_cons, mul_zero, zero_add] at hhead
        exact hhead
      have hcast : (byte :: rest.map ZMod.val).map
          (fun coeff : Nat => (coeff : ZMod p)) = constant :: rest := by
        rw [List.map_cons, natCast_map_val, hconstant]
      refine ⟨rest.map ZMod.val, ⟨?_, ?_, ?_⟩, ?_⟩
      · rw [List.length_map, hfull]
      · intro coeff hcoeff
        obtain ⟨element, _, rfl⟩ := List.mem_map.mp hcoeff
        exact ZMod.val_lt element
      · rw [gfEval_map_eq_iff hvalues, hcast]
        exact htakes
      · rintro coeffs ⟨hcount, hbounded, htaken⟩
        rw [gfEval_map_eq_iff hvalues] at htaken
        have hsame := hunique _ ⟨by simp [hcount], htaken⟩
        rw [List.map_cons, List.cons.injEq] at hsame
        apply natCast_map_inj hbounded
        · intro coeff hcoeff
          obtain ⟨element, _, rfl⟩ := List.mem_map.mp hcoeff
          exact ZMod.val_lt element
        · rw [hsame.2, natCast_map_val]

end Field

/-- A source that replays a script of words. -/
abbrev scripted : RandomSource where
  State := List UInt64
  nextU64
    | [] => (0, [])
    | word :: words => (word, words)

/-- The script that makes the sampler draw these coefficients, row by row. -/
def script (rows : List (List Nat)) : List UInt64 :=
  rows.flatMap fun row => row.map UInt64.ofNat

/-- The random coefficients of a secret: for each of its bytes a row of field
elements, one fewer than the threshold. -/
structure Coefficients (threshold : Nat) (secret : Bytes)
    (rows : List (List Nat)) : Prop where
  length_eq : rows.length = secret.length
  row_length : ∀ row ∈ rows, row.length = threshold - 1
  row_lt : ∀ row ∈ rows, ∀ coeff ∈ row, coeff < shamirPrime

/-- The polynomials with the bytes of the secret as constant terms. -/
def dealtPolys (secret : Bytes) (rows : List (List Nat)) : List (List Nat) :=
  List.zipWith (fun byte row => byte.toNat :: row) secret rows

theorem sampleFieldElement_lt {source : RandomSource} {fuel : Nat}
    {state next : source.State} {coeff : Nat}
    (hsome : sampleFieldElement source shamirPrime fuel state =
      some (coeff, next)) : coeff < shamirPrime := by
  induction fuel generalizing state with
  | zero => simp [sampleFieldElement] at hsome
  | succ fuel ih =>
      rw [sampleFieldElement] at hsome
      dsimp only at hsome
      split at hsome
      · rw [Option.some.injEq, Prod.mk.injEq] at hsome
        rw [← hsome.1]
        exact Nat.mod_lt _ (by decide)
      · exact ih hsome

theorem sampleCoefficients_lt {source : RandomSource} {fuel count : Nat}
    {state next : source.State} {coeffs : List Nat}
    (hsome : sampleCoefficients source fuel count state =
      some (coeffs, next)) : ∀ coeff ∈ coeffs, coeff < shamirPrime := by
  induction count generalizing state coeffs next with
  | zero =>
      rw [sampleCoefficients, Option.some.injEq, Prod.mk.injEq] at hsome
      rw [← hsome.1]
      simp
  | succ count ih =>
      simp only [sampleCoefficients, bind, Option.bind_eq_some_iff, pure,
        Option.some.injEq, Prod.mk.injEq] at hsome
      obtain ⟨⟨first, _⟩, hfirst, ⟨rest, _⟩, hrest, rfl, _⟩ := hsome
      rw [List.forall_mem_cons]
      exact ⟨sampleFieldElement_lt hfirst, ih hrest⟩

theorem sampleFieldElement_scripted {coeff : Nat} (hcoeff : coeff < shamirPrime)
    (rest : List UInt64) :
    sampleFieldElement scripted shamirPrime 1 (UInt64.ofNat coeff :: rest) =
      some (coeff, rest) := by
  have hword : (UInt64.ofNat coeff).toNat = coeff := by
    rw [UInt64.toNat_ofNat']
    apply Nat.mod_eq_of_lt
    exact hcoeff.trans (by decide)
  have hdraw : scripted.nextU64 (UInt64.ofNat coeff :: rest) =
    (UInt64.ofNat coeff, rest) := rfl
  have hbelow : coeff < 2 ^ 64 / shamirPrime * shamirPrime :=
    hcoeff.trans (by decide)
  rw [sampleFieldElement, hdraw]
  dsimp only
  rw [hword, if_pos hbelow, Nat.mod_eq_of_lt hcoeff]

theorem sampleCoefficients_scripted {row : List Nat}
    (hrow : ∀ coeff ∈ row, coeff < shamirPrime) (rest : List UInt64) :
    sampleCoefficients scripted 1 row.length (row.map UInt64.ofNat ++ rest) =
      some (row, rest) := by
  induction row with
  | nil => rfl
  | cons coeff row ih =>
      rw [List.forall_mem_cons] at hrow
      rw [List.map_cons, List.cons_append, List.length_cons,
        sampleCoefficients, sampleFieldElement_scripted hrow.1]
      simp only [bind, Option.bind_some, ih hrow.2]
      rfl

theorem Coefficients.cons {threshold : Nat} {byte : UInt8} {secret : Bytes}
    {row : List Nat} {rows : List (List Nat)}
    (hcoeffs : Coefficients threshold (byte :: secret) (row :: rows)) :
    row.length = threshold - 1 ∧ (∀ coeff ∈ row, coeff < shamirPrime) ∧
      Coefficients threshold secret rows := by
  refine ⟨hcoeffs.row_length row (by simp), hcoeffs.row_lt row (by simp), ?_⟩
  refine ⟨?_, fun other hother => hcoeffs.row_length other (by simp [hother]),
    fun other hother => hcoeffs.row_lt other (by simp [hother])⟩
  have hlength := hcoeffs.length_eq
  rwa [List.length_cons, List.length_cons, Nat.add_right_cancel_iff] at hlength

/-- With a script the loop deals exactly the scripted polynomials. -/
theorem splitRows_scripted {threshold : Nat} {secret : Bytes}
    {rows : List (List Nat)} (hcoeffs : Coefficients threshold secret rows)
    (start : List (List UInt16)) :
    splitRows scripted 1 threshold secret (script rows) start =
      some (start.mapIdx fun idx row =>
        row ++ shareRow (dealtPolys secret rows) (idx + 1)) := by
  induction secret generalizing rows start with
  | nil =>
      rw [splitRows, Option.some.injEq]
      apply List.ext_getElem
      · simp
      · intro idx hleft hright
        simp [dealtPolys, shareRow]
  | cons byte secret ih =>
      cases rows with
      | nil => exact absurd hcoeffs.length_eq (by simp)
      | cons row rows =>
          obtain ⟨hlength, hlt, hrest⟩ := hcoeffs.cons
          have hscript : script (row :: rows) =
            row.map UInt64.ofNat ++ script rows := rfl
          rw [splitRows, hscript, ← hlength,
            sampleCoefficients_scripted hlt]
          simp only [bind, Option.bind_some]
          rw [ih hrest]
          simp [pushValues, List.mapIdx_mapIdx, shareRow, dealtPolys,
            Function.comp_def]

/-- Whatever the source draws, a script draws it too. -/
theorem splitRows_eq_scripted {source : RandomSource} {fuel threshold : Nat}
    {secret : Bytes} {state : source.State} {start result : List (List UInt16)}
    (hsome : splitRows source fuel threshold secret state start =
      some result) :
    ∃ rows, Coefficients threshold secret rows ∧
      splitRows scripted 1 threshold secret (script rows) start =
        some result := by
  induction secret generalizing state start with
  | nil =>
      exact ⟨[], ⟨rfl, by simp, by simp⟩, hsome⟩
  | cons byte secret ih =>
      simp only [splitRows, bind, Option.bind_eq_some_iff] at hsome
      obtain ⟨⟨row, next⟩, hrow, hrest⟩ := hsome
      have hlength := sampleCoefficients_length hrow
      have hlt := sampleCoefficients_lt hrow
      obtain ⟨rows, hcoeffs, hrows⟩ := ih hrest
      refine ⟨row :: rows, ⟨by simp [hcoeffs.length_eq], ?_, ?_⟩, ?_⟩
      · rw [List.forall_mem_cons]
        exact ⟨hlength, hcoeffs.row_length⟩
      · rw [List.forall_mem_cons]
        exact ⟨hlt, hcoeffs.row_lt⟩
      · have hscript : script (row :: rows) =
          row.map UInt64.ofNat ++ script rows := rfl
        rw [splitRows, hscript, ← hlength, sampleCoefficients_scripted hlt]
        exact hrows

theorem splitSecret_eq_ok_iff (source : RandomSource) (fuel : Nat)
    (state : source.State) {secret : Bytes} {config : ShamirConfig}
    (henabled : config.enabled = true) (hvalid : ¬ config.invalid)
    (hsecret : secret.length ≤ maxShamirSecretBytes)
    (shares : List ShamirShare) :
    splitSecret source fuel state secret config = .ok shares ↔
      ∃ rows, splitRows source fuel config.threshold secret state
          (List.replicate config.shares []) = some rows ∧
        shares = rows.mapIdx fun idx row =>
          { index := UInt8.ofNat (idx + 1)
            payloadB64 := encodeU16Array row } := by
  have hdisabled : ¬ config.enabled = false := by simp [henabled]
  simp only [splitSecret, if_neg hdisabled, bind_eq_ok_iff, ensure_eq_ok_iff,
    okOr_eq_ok_iff, exists_const, pure_eq_ok_iff]
  constructor
  · rintro ⟨_, _, rows, hrows, heq⟩
    exact ⟨rows, hrows, heq.symm⟩
  · rintro ⟨rows, hrows, heq⟩
    exact ⟨hvalid, hsecret, rows, hrows, heq.symm⟩

/-- The shares of a scripted split, point by point. -/
theorem splitSecret_scripted {config : ShamirConfig} {secret : Bytes}
    {rows : List (List Nat)} (henabled : config.enabled = true)
    (hvalid : ¬ config.invalid) (hsecret : secret.length ≤ maxShamirSecretBytes)
    (hcoeffs : Coefficients config.threshold secret rows) :
    splitSecret scripted 1 (script rows) secret config =
      .ok ((List.range config.shares).map fun idx =>
        shareAt (dealtPolys secret rows) (idx + 1)) := by
  rw [splitSecret_eq_ok_iff scripted 1 (script rows) henabled hvalid hsecret]
  refine ⟨_, splitRows_scripted hcoeffs _, ?_⟩
  apply List.ext_getElem
  · simp
  · intro idx hleft hright
    simp [shareAt]

/-- A share somebody holds: its index and a value for each byte. -/
def observedShare (seen : Nat × List Nat) : ShamirShare :=
  { index := UInt8.ofNat seen.1
    payloadB64 := encodeU16Array (seen.2.map UInt16.ofNat) }

/-- A share is among those of a split exactly if its values are those of the
polynomials at its index. -/
theorem observedShare_mem_iff {shares : Nat} {polys : List (List Nat)}
    {seen : Nat × List Nat} (hshares : shares ≤ 255)
    (hpolys : polys.length ≤ maxShamirSecretBytes)
    (hindex : 1 ≤ seen.1 ∧ seen.1 ≤ shares)
    (hlength : seen.2.length = polys.length)
    (hvalues : ∀ value ∈ seen.2, value ≤ 256) :
    observedShare seen ∈ ((List.range shares).map fun idx =>
        shareAt polys (idx + 1)) ↔
      polys.map (fun poly => gfEval poly seen.1 shamirPrime) = seen.2 := by
  have hwords : shareRow polys seen.1 = seen.2.map UInt16.ofNat ↔
      polys.map (fun poly => gfEval poly seen.1 shamirPrime) = seen.2 := by
    have hback : (seen.2.map UInt16.ofNat).map UInt16.toNat = seen.2 := by
      rw [List.map_map]
      conv_rhs => rw [← List.map_id seen.2]
      apply List.map_congr_left
      intro value hvalue
      have hle := hvalues value hvalue
      simp only [Function.comp_apply, UInt16.toNat_ofNat', id]
      omega
    have hrow : (shareRow polys seen.1).map UInt16.toNat =
        polys.map fun poly => gfEval poly seen.1 shamirPrime := by
      rw [shareRow, List.map_map]
      apply List.map_congr_left
      intro poly _
      exact shareValue_toNat poly seen.1
    constructor
    · intro heq
      rw [← hrow, heq, hback]
    · intro heq
      rw [← heq, List.map_map]
      rfl
  rw [← hwords, List.mem_map]
  constructor
  · rintro ⟨idx, hidx, heq⟩
    rw [List.mem_range] at hidx
    rw [shareAt, observedShare, ShamirShare.mk.injEq] at heq
    have hsame : idx + 1 = seen.1 := by
      have hnat := congrArg UInt8.toNat heq.1
      rwa [index_toNat (by omega), index_toNat (by omega)] at hnat
    rw [hsame] at heq
    have hdecoded := congrArg decodeU16Array heq.2
    rw [decodeU16Array_encodeU16Array (by simpa using hpolys),
      decodeU16Array_encodeU16Array (by simpa [hlength] using hpolys),
      Except.ok.injEq] at hdecoded
    exact hdecoded
  · intro heq
    refine ⟨seen.1 - 1, List.mem_range.mpr (by omega), ?_⟩
    have hpoint : seen.1 - 1 + 1 = seen.1 := by omega
    rw [hpoint, shareAt, observedShare, heq]

theorem existsUnique_list {α : Type} {count : Nat} {P : Nat → α → Prop}
    (hunique : ∀ index < count, ∃! item, P index item) :
    ∃! items : List α, items.length = count ∧
      ∀ index item, items[index]? = some item → P index item := by
  let chosen (index : Fin count) : α :=
    Classical.choose (hunique index.val index.isLt).exists
  refine ⟨List.ofFn chosen, ⟨List.length_ofFn, ?_⟩, ?_⟩
  · intro index item hitem
    rw [List.getElem?_ofFn] at hitem
    split at hitem
    · rename_i hindex
      rw [← Option.some.inj hitem]
      exact Classical.choose_spec (hunique index hindex).exists
    · cases hitem
  · rintro items ⟨hlength, hitems⟩
    apply List.ext_getElem (by simp [hlength])
    intro index hleft hright
    have hindex : index < count := hlength ▸ hleft
    apply (hunique index hindex).unique
    · exact hitems index _ (List.getElem?_eq_getElem hleft)
    · rw [List.getElem_ofFn]
      exact Classical.choose_spec (hunique index hindex).exists

/-- The rows a byte of the secret can have once some shares are known. -/
def FitsByte (threshold : Nat) (secret : Bytes)
    (observed : List (Nat × List Nat)) (index : Nat) (row : List Nat) : Prop :=
  row.length = threshold - 1 ∧ (∀ coeff ∈ row, coeff < shamirPrime) ∧
    (observed.map Prod.fst).map (fun x =>
        gfEval ((secret.getD index 0).toNat :: row) x shamirPrime) =
      observed.map fun seen => seen.2.getD index 0

theorem dealtPolys_getElem? {secret : Bytes} {rows : List (List Nat)}
    (hlength : rows.length = secret.length) {index : Nat} {row : List Nat}
    (hrow : rows[index]? = some row) :
    (dealtPolys secret rows)[index]? =
      some ((secret.getD index 0).toNat :: row) := by
  obtain ⟨hindex, _⟩ := List.getElem?_eq_some_iff.mp hrow
  rw [hlength] at hindex
  rw [dealtPolys, List.getElem?_zipWith, hrow,
    List.getElem?_eq_getElem hindex, List.getD_eq_getElem _ _ hindex]

/-- The coefficients that explain the shares are those that fit every byte. -/
theorem explains_iff {config : ShamirConfig} {secret : Bytes}
    {observed : List (Nat × List Nat)} (henabled : config.enabled = true)
    (hvalid : ¬ config.invalid) (hsecret : secret.length ≤ maxShamirSecretBytes)
    (hobserved : ∀ seen ∈ observed, (1 ≤ seen.1 ∧ seen.1 ≤ config.shares) ∧
      seen.2.length = secret.length ∧ ∀ value ∈ seen.2, value ≤ 256)
    (rows : List (List Nat)) :
    (Coefficients config.threshold secret rows ∧ ∃ shares,
        splitSecret scripted 1 (script rows) secret config = .ok shares ∧
          ∀ seen ∈ observed, observedShare seen ∈ shares) ↔
      rows.length = secret.length ∧ ∀ index row, rows[index]? = some row →
        FitsByte config.threshold secret observed index row := by
  have hshares : config.shares ≤ 255 := by
    simp only [ShamirConfig.invalid, not_or] at hvalid
    omega
  have hmem (hlength : rows.length = secret.length)
      {seen : Nat × List Nat} (hseen : seen ∈ observed) :
      observedShare seen ∈ ((List.range config.shares).map fun idx =>
          shareAt (dealtPolys secret rows) (idx + 1)) ↔
        (dealtPolys secret rows).map
          (fun poly => gfEval poly seen.1 shamirPrime) = seen.2 := by
    obtain ⟨hindex, hcount, hvalues⟩ := hobserved seen hseen
    have hpolys : (dealtPolys secret rows).length = secret.length := by
      simp [dealtPolys, hlength]
    exact observedShare_mem_iff hshares (hpolys ▸ hsecret) hindex
      (hcount.trans hpolys.symm) hvalues
  constructor
  · rintro ⟨hcoeffs, shares, hsplit, hall⟩
    rw [splitSecret_scripted henabled hvalid hsecret hcoeffs,
      Except.ok.injEq] at hsplit
    refine ⟨hcoeffs.length_eq, ?_⟩
    intro index row hrow
    have hin := List.mem_of_getElem? hrow
    refine ⟨hcoeffs.row_length row hin, hcoeffs.row_lt row hin, ?_⟩
    rw [List.map_map]
    apply List.map_congr_left
    intro seen hseen
    have hvalues := (hmem hcoeffs.length_eq hseen).mp
      (hsplit ▸ hall seen hseen)
    have hvalue := congrArg (fun values => values.getD index 0) hvalues
    simpa [List.getD_eq_getElem?_getD, List.getElem?_map,
      dealtPolys_getElem? hcoeffs.length_eq hrow] using hvalue
  · rintro ⟨hlength, hfits⟩
    have hrow (row : List Nat) (hin : row ∈ rows) :
        row.length = config.threshold - 1 ∧
          ∀ coeff ∈ row, coeff < shamirPrime := by
      obtain ⟨index, hindex⟩ := List.mem_iff_getElem?.mp hin
      exact ⟨(hfits index row hindex).1, (hfits index row hindex).2.1⟩
    have hcoeffs : Coefficients config.threshold secret rows :=
      ⟨hlength, fun row hin => (hrow row hin).1,
        fun row hin => (hrow row hin).2⟩
    refine ⟨hcoeffs, _, splitSecret_scripted henabled hvalid hsecret hcoeffs,
      ?_⟩
    intro seen hseen
    rw [hmem hlength hseen]
    have hcount := (hobserved seen hseen).2.1
    apply List.ext_getElem
    · simp [dealtPolys, hlength, hcount]
    · intro index hleft hright
      have hindex : index < rows.length := by
        rw [hlength, ← hcount]
        exact hright
      obtain ⟨row, hsome⟩ : ∃ row, rows[index]? = some row :=
        ⟨_, List.getElem?_eq_getElem hindex⟩
      have hvalues := (hfits index row hsome).2.2
      rw [List.map_map] at hvalues
      have hvalue := List.map_inj_left.mp hvalues seen hseen
      rw [List.getD_eq_getElem _ _ hright] at hvalue
      rw [List.getElem_map, ← hvalue]
      have hpoly := dealtPolys_getElem? hlength hsome
      have hget := (List.getElem?_eq_some_iff.mp hpoly).2
      rw [hget]
      rfl

/-- Secrecy.  Shares that number one fewer than the threshold, with whatever
values, belong to a split of every secret, and exactly one choice of the
random coefficients makes `splitSecret` produce them. -/
theorem splitSecret_secrecy (config : ShamirConfig) (secret : Bytes)
    (observed : List (Nat × List Nat)) (henabled : config.enabled = true)
    (hpolicy : 1 ≤ config.threshold ∧ config.threshold ≤ config.shares ∧
      config.shares ≤ 255)
    (hsecret : secret.length ≤ maxShamirSecretBytes)
    (hcount : observed.length = config.threshold - 1)
    (hnodup : (observed.map Prod.fst).Nodup)
    (hobserved : ∀ seen ∈ observed, (1 ≤ seen.1 ∧ seen.1 ≤ config.shares) ∧
      seen.2.length = secret.length ∧ ∀ value ∈ seen.2, value ≤ 256) :
    (∀ (source : RandomSource) (fuel : Nat) (state : source.State) shares,
        splitSecret source fuel state secret config = .ok shares →
        ∃ rows, Coefficients config.threshold secret rows ∧
          splitSecret scripted 1 (script rows) secret config = .ok shares) ∧
      ∃! rows : List (List Nat), Coefficients config.threshold secret rows ∧
        ∃ shares,
          splitSecret scripted 1 (script rows) secret config = .ok shares ∧
            ∀ seen ∈ observed, observedShare seen ∈ shares := by
  have hvalid : ¬ config.invalid := by
    simp only [ShamirConfig.invalid, not_or]
    omega
  constructor
  · intro source fuel state shares hsplit
    rw [splitSecret_eq_ok_iff source fuel state henabled hvalid hsecret]
      at hsplit
    obtain ⟨result, hresult, rfl⟩ := hsplit
    obtain ⟨rows, hcoeffs, hrows⟩ := splitRows_eq_scripted hresult
    refine ⟨rows, hcoeffs, ?_⟩
    rw [splitSecret_eq_ok_iff scripted 1 (script rows) henabled hvalid hsecret]
    exact ⟨result, hrows, rfl⟩
  · rw [existsUnique_congr
      (explains_iff henabled hvalid hsecret hobserved)]
    apply existsUnique_list
    intro index hindex
    have hfits := @existsUnique_gfEval shamirPrime _
      (secret.getD index 0).toNat (observed.map Prod.fst)
      (observed.map fun seen => seen.2.getD index 0) hnodup
    rw [List.length_map, List.length_map, hcount] at hfits
    apply hfits
    · intro x hx
      obtain ⟨seen, hseen, rfl⟩ := List.mem_map.mp hx
      have hrange := (hobserved seen hseen).1
      simp only [shamirPrime]
      omega
    · rfl
    · intro value hvalue
      obtain ⟨seen, hseen, rfl⟩ := List.mem_map.mp hvalue
      obtain ⟨_, hlength, hvalues⟩ := hobserved seen hseen
      rw [← hlength] at hindex
      rw [List.getD_eq_getElem _ _ hindex]
      have hle := hvalues _ (List.getElem_mem hindex)
      simp only [shamirPrime]
      omega

namespace ShamirWitness

/-- The third share of a split of one byte into three. -/
def seenShare : Nat × List Nat := (3, [256])

/-- One share of three says nothing about the byte it belongs to. -/
theorem splitSecret_secrecy_one_of_three :
    (∃! rows : List (List Nat), Coefficients 2 [0] rows ∧ ∃ shares,
        splitSecret scripted 1 (script rows) [0] config = .ok shares ∧
          ∀ seen ∈ [seenShare], observedShare seen ∈ shares) ∧
      ∃! rows : List (List Nat), Coefficients 2 [255] rows ∧ ∃ shares,
        splitSecret scripted 1 (script rows) [255] config = .ok shares ∧
          ∀ seen ∈ [seenShare], observedShare seen ∈ shares :=
  ⟨(splitSecret_secrecy config [0] [seenShare] rfl (by decide) (by decide)
      (by decide) (by decide) (by decide)).2,
    (splitSecret_secrecy config [255] [seenShare] rfl (by decide) (by decide)
      (by decide) (by decide) (by decide)).2⟩

end ShamirWitness

end Shph
