/-
What a recovery returns for arbitrary shares.  The shares that pass the checks
determine one polynomial for each position of the secret.  Its constant term
is one of 257 field elements while a byte has 256 values, and the recovery
narrows the one to the other without a check.
-/
import Shph.ShamirRecovery

namespace Shph

open ByteCodec Interpolation Polynomial

/-- The words of a share, if its payload can be read. -/
def ShamirShare.words (share : ShamirShare) : List UInt16 :=
  (decodeU16Array share.payloadB64).toOption.getD []

/-- The checks that one share has to pass on its own. -/
structure ShareAccepted (config : ShamirConfig) (share : ShamirShare) :
    Prop where
  readable : decodeU16Array share.payloadB64 = .ok share.words
  index : share.index ≠ 0 ∧ share.index.toNat ≤ config.shares
  field : ∀ value ∈ share.words, value ≤ 256

/-- The size of all payloads together. -/
def shareBytes (shares : List ShamirShare) : Nat :=
  (shares.map fun share => 2 * share.words.length).sum

/-- Everything that the recovery checks. -/
structure SharesAccepted (config : ShamirConfig) (shares : List ShamirShare) :
    Prop where
  enough : config.threshold ≤ shares.length
  few : shares.length ≤ config.shares
  each : ∀ share ∈ shares, ShareAccepted config share
  distinct : (shares.map ShamirShare.index).Nodup
  bytes : shareBytes shares ≤ maxShamirRecoveryBytes
  lengths : ∃ length, ∀ share ∈ shares, share.words.length = length

/-- What the loop over the shares collects. -/
def gathered (config : ShamirConfig) (shares : List ShamirShare) :
    Recovery where
  decoded := (shares.take config.threshold).map fun share =>
    (share.index.toNat, share.words)
  lens := (shares.map fun share => share.words.length).toFinset
  indices := (shares.map ShamirShare.index).toFinset
  decodedBytes := shareBytes shares

section Loop

variable {config : ShamirConfig} {share : ShamirShare} {recovery : Recovery}

theorem shareBytes_append (left right : List ShamirShare) :
    shareBytes (left ++ right) =
      shareBytes left + shareBytes right := by
  simp [shareBytes]

theorem shareBytes_snoc (done : List ShamirShare) (share : ShamirShare) :
    shareBytes (done ++ [share]) =
      shareBytes done + 2 * share.words.length := by
  simp [shareBytes]

theorem take_snoc {α : Type} (items : List α) (item : α) (count : Nat) :
    (items ++ [item]).take count =
      if (items.take count).length < count then items.take count ++ [item]
      else items.take count := by
  rw [List.take_append, List.length_take]
  split
  · rename_i hroom
    have hone : [item].length ≤ count - items.length := by
      simp only [List.length_singleton]
      omega
    rw [List.take_of_length_le hone]
  · rename_i hfull
    have hzero : count - items.length = 0 := by omega
    rw [hzero, List.take_zero, List.append_nil]

theorem gathered_snoc (done : List ShamirShare) (share : ShamirShare) :
    gathered config (done ++ [share]) =
      { decoded :=
          if (gathered config done).decoded.length < config.threshold then
            (gathered config done).decoded ++
              [(share.index.toNat, share.words)]
          else (gathered config done).decoded
        lens := insert share.words.length (gathered config done).lens
        indices := insert share.index (gathered config done).indices
        decodedBytes := shareBytes done + 2 * share.words.length } := by
  unfold gathered
  rw [Recovery.mk.injEq]
  refine ⟨?_, ?_, ?_, shareBytes_snoc done share⟩
  · dsimp only
    rw [take_snoc, List.length_map]
    split
    · rw [List.map_append]
      rfl
    · rfl
  · ext length
    simp
  · ext index
    simp

theorem words_of_readable {values : List UInt16}
    (hread : decodeU16Array share.payloadB64 = .ok values) :
    share.words = values := by
  simp [ShamirShare.words, hread, Except.toOption]

/-- One more share is added exactly if it passes the checks. -/
theorem add_eq_ok_iff {done : List ShamirShare}
    (hdone : shareBytes done ≤ maxShamirRecoveryBytes) :
    Recovery.add config (gathered config done) share = .ok recovery ↔
      ShareAccepted config share ∧ share.index ∉ done.map ShamirShare.index ∧
      shareBytes (done ++ [share]) ≤ maxShamirRecoveryBytes ∧
      recovery = gathered config (done ++ [share]) := by
  unfold Recovery.add
  cases hread : decodeU16Array share.payloadB64 with
  | error error =>
      constructor
      · intro hadd
        cases hadd
      · rintro ⟨haccepted, -⟩
        rw [haccepted.readable] at hread
        cases hread
  | ok values =>
      have hwords := words_of_readable hread
      have hindices : (gathered config done).indices =
          (done.map ShamirShare.index).toFinset := rfl
      rw [gathered_snoc, shareBytes_snoc, hwords]
      simp only [bind_eq_ok_iff, ensure_eq_ok_iff, okOr_eq_ok_iff,
        checkedAdd_eq_some_iff, exists_const, pure_eq_ok_iff, hindices,
        List.mem_toFinset, saturatingMul]
      change shareBytes done ≤ 8 * 1024 * 1024 at hdone
      have hbytes : (gathered config done).decodedBytes = shareBytes done :=
        rfl
      constructor
      · rintro ⟨bytes, ⟨hsum, rfl⟩, hlimit, hindex, hfresh, hfield, rfl⟩
        change _ ≤ 8 * 1024 * 1024 at hlimit
        unfold u64Max at hsum hlimit
        have hsize : (gathered config done).decodedBytes +
            min (values.length * 2) u64Max =
              shareBytes done + 2 * values.length := by
          unfold u64Max
          omega
        refine ⟨⟨?_, ?_, ?_⟩, hfresh, ?_, ?_⟩
        · rw [hread, hwords]
        · push Not at hindex
          exact hindex
        · rw [hwords]
          push Not at hfield
          exact fun value hvalue => UInt16.not_lt.mp (hfield value hvalue)
        · change _ ≤ 8 * 1024 * 1024
          omega
        · rw [hsize]
      · rintro ⟨⟨-, hindex, hfield⟩, hfresh, hlimit, rfl⟩
        change _ ≤ 8 * 1024 * 1024 at hlimit
        have hsize : (gathered config done).decodedBytes +
            min (values.length * 2) u64Max =
              shareBytes done + 2 * values.length := by
          unfold u64Max
          omega
        refine ⟨_, ⟨?_, hsize.symm⟩, hlimit, ?_, hfresh, ?_, rfl⟩
        · rw [hsize]
          unfold u64Max
          omega
        · push Not
          exact hindex
        · push Not
          rw [hwords] at hfield
          exact fun value hvalue => UInt16.not_lt.mpr (hfield value hvalue)

/-- The loop gets through exactly if all shares pass. -/
theorem foldlM_add_eq_ok_iff (rest done : List ShamirShare)
    (hdone : shareBytes done ≤ maxShamirRecoveryBytes)
    (hnodup : (done.map ShamirShare.index).Nodup) :
    rest.foldlM (Recovery.add config) (gathered config done) = .ok recovery ↔
      (∀ share ∈ rest, ShareAccepted config share) ∧
      ((done ++ rest).map ShamirShare.index).Nodup ∧
      shareBytes (done ++ rest) ≤ maxShamirRecoveryBytes ∧
      recovery = gathered config (done ++ rest) := by
  induction rest generalizing done with
  | nil =>
      simp only [List.foldlM_nil, pure_eq_ok_iff, List.append_nil,
        List.not_mem_nil, false_implies, implies_true, true_and]
      constructor
      · rintro rfl
        exact ⟨hnodup, hdone, rfl⟩
      · rintro ⟨-, -, rfl⟩
        rfl
  | cons share rest ih =>
      have hsplit : done ++ share :: rest = (done ++ [share]) ++ rest := by simp
      rw [List.foldlM_cons, bind_eq_ok_iff, List.forall_mem_cons, hsplit]
      constructor
      · rintro ⟨added, hadd, hrest⟩
        obtain ⟨haccepted, hfresh, hbytes, rfl⟩ := (add_eq_ok_iff hdone).mp hadd
        have hmore : ((done ++ [share]).map ShamirShare.index).Nodup := by
          rw [List.map_append, List.map_singleton]
          exact hnodup.append (List.nodup_singleton _)
            (List.disjoint_singleton.mpr hfresh)
        obtain ⟨heach, hothers, htotal, rfl⟩ :=
          (ih (done ++ [share]) hbytes hmore).mp hrest
        exact ⟨⟨haccepted, heach⟩, hothers, htotal, rfl⟩
      · rintro ⟨⟨haccepted, heach⟩, hothers, htotal, rfl⟩
        have hmore : ((done ++ [share]).map ShamirShare.index).Nodup := by
          rw [List.map_append] at hothers
          exact hothers.of_append_left
        have hbytes : shareBytes (done ++ [share]) ≤
            maxShamirRecoveryBytes := by
          rw [shareBytes_append] at htotal
          omega
        have hfresh : share.index ∉ done.map ShamirShare.index := by
          rw [List.map_append, List.map_singleton] at hmore
          exact List.disjoint_singleton.mp (List.disjoint_of_nodup_append hmore)
        exact ⟨_, (add_eq_ok_iff hdone).mpr ⟨haccepted, hfresh, hbytes, rfl⟩,
          (ih (done ++ [share]) hbytes hmore).mpr
            ⟨heach, hothers, htotal, rfl⟩⟩

end Loop

theorem gathered_nil (config : ShamirConfig) :
    gathered config [] = Recovery.empty := by
  simp [gathered, Recovery.empty, shareBytes]

section Accepted

variable {config : ShamirConfig} {shares : List ShamirShare}

theorem gathered_lens_card (hnonempty : shares ≠ []) :
    (gathered config shares).lens.card = 1 ↔
      ∃ length, ∀ share ∈ shares, share.words.length = length := by
  rw [Finset.card_eq_one]
  obtain ⟨first, rest, rfl⟩ := List.exists_cons_of_ne_nil hnonempty
  constructor
  · rintro ⟨length, hlens⟩
    refine ⟨length, fun share hshare => ?_⟩
    rw [← Finset.mem_singleton, ← hlens, gathered, List.mem_toFinset]
    exact List.mem_map.mpr ⟨share, hshare, rfl⟩
  · rintro ⟨length, hlengths⟩
    refine ⟨length, ?_⟩
    ext other
    rw [gathered, List.mem_toFinset, List.mem_map, Finset.mem_singleton]
    constructor
    · rintro ⟨share, hshare, rfl⟩
      exact hlengths share hshare
    · rintro rfl
      exact ⟨first, List.mem_cons_self, hlengths first List.mem_cons_self⟩

/-- A recovery gets through exactly if the shares pass all checks. -/
theorem recoverSecretFromShares_eq_ok_iff {secret : Bytes}
    (henabled : config.enabled = true) (hvalid : ¬ config.invalid) :
    recoverSecretFromShares shares config = .ok secret ↔
      SharesAccepted config shares ∧ ∃ first ∈ shares.head?,
        secret = (List.range first.words.length).map
          (recoverByte config (gathered config shares).decoded) := by
  have hdisabled : ¬ config.enabled = false := by simp [henabled]
  have hchecked : validateShamirConfig config = .ok () := by
    rw [validateShamirConfig, ensure_eq_ok_iff]
    exact fun hboth => hvalid hboth.2
  have hthreshold : 0 < config.threshold := by
    simp only [ShamirConfig.invalid, not_or] at hvalid
    omega
  have hhead : (gathered config shares).decoded.head? =
      shares.head?.map fun share => (share.index.toNat, share.words) := by
    obtain ⟨count, hcount⟩ := Nat.exists_eq_succ_of_ne_zero hthreshold.ne'
    cases shares <;> simp [gathered, hcount]
  have hcard : (shares.map ShamirShare.index).Nodup →
      (gathered config shares).indices.card = shares.length := by
    intro hnodup
    rw [gathered, List.toFinset_card_of_nodup hnodup, List.length_map]
  rw [recoverSecretFromShares, if_neg hdisabled]
  simp only [bind_eq_ok_iff, ensure_eq_ok_iff, okOr_eq_ok_iff, exists_const,
    pure_eq_ok_iff, hchecked, ← gathered_nil config, foldlM_add_eq_ok_iff shares
    [] (Nat.zero_le _) List.nodup_nil, List.nil_append, Nat.not_lt, true_and]
  constructor
  · rintro ⟨henough, hfew, _, ⟨heach, hnodup, hbytes, rfl⟩, -, hlens, first,
      hfirst, rfl⟩
    have hnonempty : shares ≠ [] := by
      rintro rfl
      simp at henough
      omega
    refine ⟨⟨henough, hfew, heach, hnodup, hbytes,
      (gathered_lens_card hnonempty).mp hlens⟩, ?_⟩
    rw [hhead, Option.map_eq_some_iff] at hfirst
    obtain ⟨share, hshare, rfl⟩ := hfirst
    exact ⟨share, hshare, rfl⟩
  · rintro ⟨⟨henough, hfew, heach, hnodup, hbytes, hlengths⟩, first, hfirst,
      rfl⟩
    have hnonempty : shares ≠ [] := by
      rintro rfl
      cases hfirst
    refine ⟨henough, hfew, _, ⟨heach, hnodup, hbytes, rfl⟩, ?_,
      (gathered_lens_card hnonempty).mpr hlengths,
      (first.index.toNat, first.words), ?_, rfl⟩
    · rw [hcard hnodup]
      exact henough
    · rw [hhead, hfirst]
      rfl

end Accepted

/-- The points that the first shares give for a position of the secret. -/
def pointsAt (config : ShamirConfig) (shares : List ShamirShare)
    (position : Nat) : List (Nat × Nat) :=
  (shares.take config.threshold).map fun share =>
    (share.index.toNat, (share.words.getD position 0).toNat)

/-- A polynomial of a degree below the threshold through these points. -/
def Through (threshold : Nat) (points : List (Nat × Nat))
    (f : (ZMod shamirPrime)[X]) : Prop :=
  f.degree < (threshold : WithBot Nat) ∧
    ∀ point ∈ points, f.eval (point.1 : ZMod shamirPrime) = point.2

/-- The one polynomial through the points of the position has this constant
term. -/
def ConstantTerm (config : ShamirConfig) (shares : List ShamirShare)
    (position : Nat) (term : ZMod shamirPrime) : Prop :=
  ∃ f, Through config.threshold (pointsAt config shares position) f ∧
    (∀ g, Through config.threshold (pointsAt config shares position) g →
      g = f) ∧
    f.coeff 0 = term

section ConstantTerm

variable {config : ShamirConfig} {shares : List ShamirShare}

/-- The points of accepted shares: as many as the threshold, at distinct
elements of the field. -/
theorem pointsAt_distinct (hvalid : ¬ config.invalid)
    (haccepted : SharesAccepted config shares) (position : Nat) :
    (pointsAt config shares position).length = config.threshold ∧
      (∀ point ∈ pointsAt config shares position, point.1 < shamirPrime) ∧
      (((pointsAt config shares position).map
        (fieldPoint shamirPrime)).map Prod.fst).Nodup := by
  have hshares : config.shares ≤ 255 := by
    simp only [ShamirConfig.invalid, not_or] at hvalid
    omega
  have hindex : ∀ share ∈ shares.take config.threshold,
      share.index.toNat < shamirPrime := by
    intro share hshare
    have hbound := (haccepted.each share (List.mem_of_mem_take hshare)).index.2
    unfold shamirPrime
    omega
  have hplaces : ∀ point ∈ pointsAt config shares position,
      point.1 < shamirPrime := by
    intro point hpoint
    obtain ⟨share, hshare, rfl⟩ := List.mem_map.mp hpoint
    exact hindex share hshare
  refine ⟨?_, hplaces, ?_⟩
  · rw [pointsAt, List.length_map, List.length_take,
      Nat.min_eq_left haccepted.enough]
  · apply fieldPoint_nodup hplaces
    rw [pointsAt, List.map_map]
    have hnodup : ((shares.take config.threshold).map
        ShamirShare.index).Nodup :=
      haccepted.distinct.sublist ((List.take_sublist _ _).map _)
    have htoNat := hnodup.map fun _ _ => UInt8.toNat_inj.mp
    rwa [List.map_map] at htoNat

theorem through_iff (hvalid : ¬ config.invalid)
    (haccepted : SharesAccepted config shares) {position : Nat}
    {f : (ZMod shamirPrime)[X]} :
    Through config.threshold (pointsAt config shares position) f ↔
      f.degree < (((pointsAt config shares position).map
        (fieldPoint shamirPrime)).length : WithBot Nat) ∧
      ∀ point ∈ (pointsAt config shares position).map
        (fieldPoint shamirPrime), f.eval point.1 = point.2 := by
  rw [Through, List.length_map,
    (pointsAt_distinct hvalid haccepted position).1, List.forall_mem_map]
  rfl

/-- The code computes the constant term of a polynomial through the points. -/
theorem coeff_zero_of_through (hvalid : ¬ config.invalid)
    (haccepted : SharesAccepted config shares) {position : Nat}
    {f : (ZMod shamirPrime)[X]}
    (hthrough : Through config.threshold (pointsAt config shares position) f) :
    f.coeff 0 = ((gfLagrangeOrigin (pointsAt config shares position)
      shamirPrime : Nat) : ZMod shamirPrime) := by
  obtain ⟨-, hsmall, hnodup⟩ := pointsAt_distinct hvalid haccepted position
  obtain ⟨hdegree, hvalues⟩ := (through_iff hvalid haccepted).mp hthrough
  rw [coeff_zero_eq_eval_zero,
    eval_zero_eq_valueAtOrigin hnodup hdegree hvalues,
    gfLagrangeOrigin_cast (by decide) hsmall]

theorem constantTerm_iff (hvalid : ¬ config.invalid)
    (haccepted : SharesAccepted config shares) (position : Nat)
    (term : ZMod shamirPrime) :
    ConstantTerm config shares position term ↔
      ((gfLagrangeOrigin (pointsAt config shares position) shamirPrime : Nat) :
        ZMod shamirPrime) = term := by
  obtain ⟨-, -, hnodup⟩ := pointsAt_distinct hvalid haccepted position
  obtain ⟨f, hf, hunique⟩ := existsUnique_through hnodup
  have hthrough := (through_iff hvalid haccepted).mpr hf
  constructor
  · rintro ⟨g, hg, -, rfl⟩
    exact (coeff_zero_of_through hvalid haccepted hg).symm
  · rintro rfl
    exact ⟨f, hthrough,
      fun g hg => hunique g ((through_iff hvalid haccepted).mp hg),
      coeff_zero_of_through hvalid haccepted hthrough⟩

theorem recoverByte_gathered (position : Nat) :
    recoverByte config (gathered config shares).decoded position =
      UInt8.ofNat (gfLagrangeOrigin (pointsAt config shares position)
        shamirPrime) := by
  rw [recoverByte, gathered, ← List.map_take, List.take_take, Nat.min_self,
    List.map_map]
  rfl

theorem gfLagrangeOrigin_lt (points : List (Nat × Nat)) :
    gfLagrangeOrigin points shamirPrime < shamirPrime :=
  Nat.mod_lt _ (by decide)

/-- Narrowing an element of the field to a byte keeps it, unless it is the one
element that is no byte. -/
theorem narrowed_eq_iff {value : Nat} (hvalue : value < shamirPrime) :
    (value : ZMod shamirPrime) = ((UInt8.ofNat value).toNat : Nat) ↔
      (value : ZMod shamirPrime) ≠ ((256 : Nat) : ZMod shamirPrime) := by
  unfold shamirPrime at hvalue ⊢
  rw [ZMod.natCast_eq_natCast_iff', Ne, ZMod.natCast_eq_natCast_iff',
    UInt8.toNat_ofNat']
  omega

end ConstantTerm

/-- A recovery returns the constant terms exactly if none of them is the one
field element that is no byte. -/
theorem recovery_constantTerm_iff (config : ShamirConfig)
    (henabled : config.enabled = true) (hvalid : ¬ config.invalid)
    (shares : List ShamirShare) :
    (∀ secret, recoverSecretFromShares shares config = .ok secret →
      ∀ (position : Nat) (byte : UInt8), secret[position]? = some byte →
        ConstantTerm config shares position (byte.toNat : Nat)) ↔
    (SharesAccepted config shares → ∀ share ∈ shares,
      ∀ position < share.words.length,
        ¬ ConstantTerm config shares position (256 : Nat)) := by
  have hbyte : SharesAccepted config shares → ∀ position,
      ConstantTerm config shares position ((recoverByte config
        (gathered config shares).decoded position).toNat : Nat) ↔
      ¬ ConstantTerm config shares position (256 : Nat) := by
    intro haccepted position
    rw [constantTerm_iff hvalid haccepted, constantTerm_iff hvalid haccepted,
      recoverByte_gathered]
    exact narrowed_eq_iff (gfLagrangeOrigin_lt _)
  constructor
  · intro hclaim haccepted share hshare position hposition
    obtain ⟨length, hlengths⟩ := haccepted.lengths
    obtain ⟨first, rest, hshares⟩ :=
      List.exists_cons_of_ne_nil (List.ne_nil_of_mem hshare)
    have hfirst : first ∈ shares.head? := by
      rw [hshares]
      rfl
    have hmem : first ∈ shares := List.mem_of_mem_head? hfirst
    rw [← hbyte haccepted position]
    refine hclaim _ ((recoverSecretFromShares_eq_ok_iff henabled hvalid).mpr
      ⟨haccepted, first, hfirst, rfl⟩) position _ ?_
    rw [hlengths share hshare, ← hlengths first hmem] at hposition
    rw [List.getElem?_map, List.getElem?_range hposition]
    rfl
  · intro hcondition secret hok position byte hget
    obtain ⟨haccepted, first, hfirst, rfl⟩ :=
      (recoverSecretFromShares_eq_ok_iff henabled hvalid).mp hok
    rw [List.getElem?_map, Option.map_eq_some_iff] at hget
    obtain ⟨_, hrange, rfl⟩ := hget
    obtain ⟨hposition, rfl⟩ := List.getElem?_eq_some_iff.mp hrange
    rw [List.length_range] at hposition
    rw [List.getElem_range, hbyte haccepted position]
    exact hcondition haccepted first (List.mem_of_mem_head? hfirst) position
      hposition

namespace ShamirWitness

/-- Two shares on the constant polynomial 1, and two on 256. -/
def ones : List ShamirShare := [⟨1, "AQA="⟩, ⟨2, "AQA="⟩]

def noByte : List ShamirShare := [⟨1, "AAE="⟩, ⟨2, "AAE="⟩]

theorem accepted {payload : String} {value : UInt16}
    (hread : decodeU16Array payload = .ok [value]) (hvalue : value ≤ 256) :
    SharesAccepted config [⟨1, payload⟩, ⟨2, payload⟩] := by
  have hwords : ∀ index, (ShamirShare.mk index payload).words = [value] :=
    fun _ => words_of_readable hread
  refine ⟨by simp [config], by simp [config], ?_, by simp, ?_, 1, ?_⟩
  · simp only [List.forall_mem_cons, List.not_mem_nil, false_implies,
      implies_true, and_true]
    exact ⟨⟨by rw [hwords]; exact hread, by simp [config],
        by simpa [hwords]⟩,
      ⟨by rw [hwords]; exact hread, by simp [config], by simpa [hwords]⟩⟩
  · simp [shareBytes, hwords, maxShamirRecoveryBytes]
  · simp [hwords]

/-- The points of the two shares lie on a constant polynomial. -/
theorem origin_constant {payload : String} {value : UInt16}
    (hread : decodeU16Array payload = .ok [value]) (hvalue : value ≤ 256) :
    gfLagrangeOrigin (pointsAt config [⟨1, payload⟩, ⟨2, payload⟩] 0)
      shamirPrime = value.toNat := by
  have hwords : ∀ index, (ShamirShare.mk index payload).words = [value] :=
    fun _ => words_of_readable hread
  have hthrough : Through config.threshold
      (pointsAt config [⟨1, payload⟩, ⟨2, payload⟩] 0)
      (C (value.toNat : ZMod shamirPrime)) := by
    refine ⟨lt_of_le_of_lt degree_C_le (by simp [config]), ?_⟩
    simp [pointsAt, config, hwords]
  have hsame := coeff_zero_of_through (by decide) (accepted hread hvalue)
    hthrough
  rw [coeff_C_zero, ZMod.natCast_eq_natCast_iff'] at hsame
  have hsmall : value.toNat < shamirPrime := by
    have hle := UInt16.le_iff_toNat_le.mp hvalue
    change value.toNat ≤ 256 at hle
    unfold shamirPrime
    omega
  rw [Nat.mod_eq_of_lt hsmall,
    Nat.mod_eq_of_lt (gfLagrangeOrigin_lt _)] at hsame
  exact hsame.symm

theorem recovered {payload : String} {value : UInt16}
    (hread : decodeU16Array payload = .ok [value]) (hvalue : value ≤ 256) :
    recoverSecretFromShares [⟨1, payload⟩, ⟨2, payload⟩] config =
      .ok [UInt8.ofNat value.toNat] := by
  have hwords : (ShamirShare.mk 1 payload).words = [value] :=
    words_of_readable hread
  refine (recoverSecretFromShares_eq_ok_iff rfl (by decide)).mpr
    ⟨accepted hread hvalue, _, rfl, ?_⟩
  rw [hwords]
  simp [recoverByte_gathered, origin_constant hread hvalue]

end ShamirWitness

open ShamirWitness in
theorem recovery_constantTerm_ones :
    recoverSecretFromShares ones config = .ok [1] ∧
      ConstantTerm config ones 0 ((1 : UInt8).toNat : Nat) := by
  have hread : decodeU16Array "AQA=" = .ok [1] := by decide
  have hok : recoverSecretFromShares ones config = .ok [1] :=
    recovered hread (by decide)
  refine ⟨hok, (recovery_constantTerm_iff config rfl (by decide) ones).mpr ?_
    [1] hok 0 1 rfl⟩
  intro haccepted share hshare position hposition
  have hwords : ∀ index, (ShamirShare.mk index "AQA=").words = [1] :=
    fun _ => words_of_readable hread
  have hzero : position = 0 := by
    simp only [ones, List.mem_cons, List.not_mem_nil, or_false] at hshare
    rcases hshare with rfl | rfl
    · simpa [hwords] using hposition
    · simpa [hwords] using hposition
  rw [hzero, constantTerm_iff (by decide) haccepted]
  unfold ones
  rw [origin_constant hread (by decide)]
  decide

open ShamirWitness in
/-- The recovery answers 0 where the constant term is 256. -/
theorem recovery_narrows_no_byte :
    recoverSecretFromShares noByte config = .ok [0] ∧
      ConstantTerm config noByte 0 (256 : Nat) ∧
      ¬ ConstantTerm config noByte 0 ((0 : UInt8).toNat : Nat) := by
  have hread : decodeU16Array "AAE=" = .ok [256] := by decide
  have haccepted : SharesAccepted config noByte :=
    accepted hread (by decide)
  refine ⟨recovered hread (by decide), ?_, ?_⟩
  · rw [constantTerm_iff (by decide) haccepted]
    unfold noByte
    rw [origin_constant hread (by decide)]
    rfl
  · rw [constantTerm_iff (by decide) haccepted]
    unfold noByte
    rw [origin_constant hread (by decide)]
    decide

end Shph
