/-
Shroud cells.  Every cell of a profile has the profile's size and holds a
header, the type of the frame, the length of the payload, the payload and
zeros; a cell that is accepted is the only one for its type and payload.
-/
import Shph.Error
import Shph.Library.Bytes
import Shph.Library.Indexed

namespace Shph

open ByteCodec Checked Indexed

/-- A profile of fixed-size cells.  Intervals are in nanoseconds. -/
structure ShroudProfile where
  name : String
  cellSize : Nat
  sendInterval : Nat
  chaffInterval : Nat
  maxPayloadChunk : Nat
  deterministicPadding : Bool
deriving Repr, DecidableEq

namespace ShroudProfile

def payloadCapacity (profile : ShroudProfile) : Nat := profile.cellSize - 5

def isValid (profile : ShroudProfile) : Bool :=
  64 ≤ profile.cellSize && profile.cellSize ≤ 16 * 1024 &&
    0 < profile.maxPayloadChunk &&
    profile.maxPayloadChunk ≤ profile.payloadCapacity &&
    profile.sendInterval ≠ 0 && profile.chaffInterval ≠ 0

def balanced : ShroudProfile :=
  ⟨"balanced", 1024, 25 * 10 ^ 6, 250 * 10 ^ 6, 768, true⟩

def lowLatency : ShroudProfile :=
  ⟨"low-latency", 512, 5 * 10 ^ 6, 100 * 10 ^ 6, 384, true⟩

def bulk : ShroudProfile :=
  ⟨"bulk", 4096, 10 * 10 ^ 6, 500 * 10 ^ 6, 3072, true⟩

def randomizedLab : ShroudProfile :=
  ⟨"randomized-lab", 1024, 25 * 10 ^ 6, 250 * 10 ^ 6, 768, false⟩

def extremeLab : ShroudProfile :=
  ⟨"extreme-lab", 8192, 20 * 10 ^ 6, 1000 * 10 ^ 6, 6144, false⟩

def tunedLow : ShroudProfile :=
  ⟨"tuned-low", 256, 3 * 10 ^ 6, 150 * 10 ^ 6, 192, false⟩

def tunedMedium : ShroudProfile :=
  ⟨"tuned-medium", 768, 10 * 10 ^ 6, 350 * 10 ^ 6, 700, false⟩

def tunedHigh : ShroudProfile :=
  ⟨"tuned-high", 1360, 5 * 10 ^ 6, 500 * 10 ^ 6, 1200, false⟩

def profiles : List ShroudProfile :=
  [balanced, lowLatency, bulk, randomizedLab, extremeLab, tunedLow,
    tunedMedium, tunedHigh]

theorem cellSize_of_isValid {profile : ShroudProfile}
    (hvalid : profile.isValid = true) :
    64 ≤ profile.cellSize ∧ profile.cellSize ≤ 16 * 1024 := by
  simp only [isValid, Bool.and_eq_true, decide_eq_true_eq] at hvalid
  exact hvalid.1.1.1.1

end ShroudProfile

def shroudFrameHeader : Bytes := [0x53, 0x44]

def shroudFrameData : UInt8 := 0x01

def shroudFrameChaff : UInt8 := 0x02

/-- `Vec::resize`. -/
def resize (bytes : Bytes) (size : Nat) (fill : UInt8) : Bytes :=
  bytes.take size ++ List.replicate (size - bytes.length) fill

structure ShroudCell where
  data : Bytes
deriving Repr, DecidableEq

def ShroudCell.new (profile : ShroudProfile) (frameType : UInt8)
    (payload : Bytes) : Except ShphError ShroudCell := do
  ensure (profile.isValid = true) (.protocol "invalid cell size")
  ensure (frameType = shroudFrameData ∨ frameType = shroudFrameChaff)
    (.protocol "unsupported frame type")
  ensure (payload.length ≤ profile.payloadCapacity)
    (.protocol "payload exceeds cell capacity")
  let cell := shroudFrameHeader ++ [frameType] ++
    bigEndian 2 payload.length ++ payload
  return ⟨resize cell profile.cellSize 0⟩

def encodeCell (profile : ShroudProfile) (frameType : UInt8)
    (payload : Bytes) : Except ShphError Bytes :=
  ShroudCell.data <$> ShroudCell.new profile frameType payload

def decodeCellPayload (profile : ShroudProfile) (cell : Bytes) :
    Except (Stop ShphError) (Option Bytes) := do
  check (profile.isValid = true) (.protocol "invalid cell size")
  check (cell.length = profile.cellSize) (.protocol "cell size mismatch")
  let start ← range? cell 0 2
  check (start = shroudFrameHeader) (.protocol "frame header mismatch")
  let frameType ← at? cell 2
  let high ← at? cell 3
  let low ← at? cell 4
  let payloadLen := ofBigEndian [high, low]
  check (payloadLen ≤ profile.payloadCapacity)
    (.protocol "payload length exceeds cell capacity")
  let padding ← range? cell (5 + payloadLen) cell.length
  check (∀ byte ∈ padding, byte = 0) (.protocol "non-canonical cell padding")
  if frameType = shroudFrameData then
    let payload ← range? cell 5 (5 + payloadLen)
    return some payload
  else if frameType = shroudFrameChaff then return none
  else .error (.returned (.protocol "unsupported frame type"))

/-- The cell of a frame: the layout both directions have to agree on. -/
def cellBytes (size : Nat) (frameType : UInt8) (payload : Bytes) : Bytes :=
  shroudFrameHeader ++ [frameType] ++ bigEndian 2 payload.length ++ payload ++
    List.replicate (size - (5 + payload.length)) 0

theorem cellBytes_length {size : Nat} (frameType : UInt8) {payload : Bytes}
    (hfits : 5 + payload.length ≤ size) :
    (cellBytes size frameType payload).length = size := by
  simp [cellBytes, shroudFrameHeader]
  omega

section Codec

variable {profile : ShroudProfile} {cell : Bytes}

theorem encodeCell_eq_ok_iff {frameType : UInt8} {payload : Bytes} :
    encodeCell profile frameType payload = .ok cell ↔
      profile.isValid = true ∧
      (frameType = shroudFrameData ∨ frameType = shroudFrameChaff) ∧
      payload.length ≤ profile.payloadCapacity ∧
      cellBytes profile.cellSize frameType payload = cell := by
  have hresize : profile.isValid = true →
      payload.length ≤ profile.payloadCapacity →
      resize (shroudFrameHeader ++ [frameType] ++ bigEndian 2 payload.length ++
          payload) profile.cellSize 0 =
        cellBytes profile.cellSize frameType payload := by
    intro hvalid hfits
    have hsize := ShroudProfile.cellSize_of_isValid hvalid
    unfold ShroudProfile.payloadCapacity at hfits
    have hlength : (shroudFrameHeader ++ [frameType] ++
        bigEndian 2 payload.length ++ payload).length =
          5 + payload.length := by
      simp [shroudFrameHeader]
      omega
    rw [resize, hlength, List.take_of_length_le (by omega), cellBytes]
  unfold encodeCell ShroudCell.new
  constructor
  · intro hencode
    cases hnew : ShroudCell.new profile frameType payload with
    | error error =>
        unfold ShroudCell.new at hnew
        rw [hnew] at hencode
        cases hencode
    | ok made =>
        unfold ShroudCell.new at hnew
        rw [hnew] at hencode
        simp only [bind_eq_ok_iff, ensure_eq_ok_iff, exists_const,
          pure_eq_ok_iff] at hnew
        obtain ⟨hvalid, htype, hfits, rfl⟩ := hnew
        refine ⟨hvalid, htype, hfits, ?_⟩
        rw [← hresize hvalid hfits]
        exact Except.ok.inj hencode
  · rintro ⟨hvalid, htype, hfits, rfl⟩
    rw [← hresize hvalid hfits]
    simp [ensure, hvalid, htype, hfits, bind, Except.bind, pure, Except.pure,
      Functor.map, Except.map]

/-- A cell that is long enough, taken apart at its fixed positions. -/
theorem exists_fields {size : Nat} (hlength : cell.length = size)
    (hsize : 5 ≤ size) :
    ∃ first second frameType high low rest,
      cell = first :: second :: frameType :: high :: low :: rest ∧
      rest.length = size - 5 := by
  match cell, hlength with
  | first :: second :: frameType :: high :: low :: rest, hlength =>
      refine ⟨first, second, frameType, high, low, rest, rfl, ?_⟩
      simp only [List.length_cons] at hlength
      omega
  | [], hlength => simp at hlength; omega
  | [_], hlength => simp at hlength; omega
  | [_, _], hlength => simp at hlength; omega
  | [_, _, _], hlength => simp at hlength; omega
  | [_, _, _, _], hlength => simp at hlength; omega

/-- What the decoder does with a cell of the right size. -/
theorem decodeCellPayload_fields (hvalid : profile.isValid = true)
    {first second frameType high low : UInt8} {rest : Bytes}
    (hlength : rest.length = profile.cellSize - 5) {result : Option Bytes} :
    decodeCellPayload profile
        (first :: second :: frameType :: high :: low :: rest) = .ok result ↔
      [first, second] = shroudFrameHeader ∧
      ofBigEndian [high, low] ≤ profile.payloadCapacity ∧
      (∀ byte ∈ rest.drop (ofBigEndian [high, low]), byte = 0) ∧
      (frameType = shroudFrameData ∧
          result = some (rest.take (ofBigEndian [high, low])) ∨
        frameType = shroudFrameChaff ∧ result = none) := by
  have hsize := ShroudProfile.cellSize_of_isValid hvalid
  have htotal : (first :: second :: frameType :: high :: low :: rest).length =
      profile.cellSize := by
    simp only [List.length_cons]
    omega
  have hfits : ofBigEndian [high, low] ≤ profile.payloadCapacity →
      5 + ofBigEndian [high, low] ≤ profile.cellSize := by
    unfold ShroudProfile.payloadCapacity
    omega
  have hpadding : (rest.drop (ofBigEndian [high, low])).length ≤
      profile.cellSize - (5 + ofBigEndian [high, low]) := by
    rw [List.length_drop]
    omega
  have hdrop : (first :: second :: frameType :: high :: low :: rest).drop
      (5 + ofBigEndian [high, low]) = rest.drop (ofBigEndian [high, low]) := by
    rw [Nat.add_comm]
    generalize ofBigEndian [high, low] = payloadLen
    rfl
  have hlast : ofBigEndian [high, low] ≤ profile.payloadCapacity →
      ((if frameType = shroudFrameData then do
          let payload ← range?
            (first :: second :: frameType :: high :: low :: rest) 5
            (5 + ofBigEndian [high, low])
          pure (some payload)
        else if frameType = shroudFrameChaff then pure none
        else .error (.returned (.protocol "unsupported frame type")) :
          Except (Stop ShphError) (Option Bytes)) = .ok result ↔
        (frameType = shroudFrameData ∧
            result = some (rest.take (ofBigEndian [high, low])) ∨
          frameType = shroudFrameChaff ∧ result = none)) := by
    intro hcapacity
    have hkinds : shroudFrameData ≠ shroudFrameChaff := by decide
    by_cases hdata : frameType = shroudFrameData
    · have hpayload : range? (E := ShphError)
          (first :: second :: frameType :: high :: low :: rest) 5
          (5 + ofBigEndian [high, low]) =
            .ok (rest.take (ofBigEndian [high, low])) := by
        rw [range?_eq_ok_iff, htotal, Nat.add_sub_cancel_left]
        exact ⟨⟨Nat.le_add_right _ _, hfits hcapacity⟩, rfl⟩
      rw [if_pos hdata, hpayload]
      simp [bind, Except.bind, pure, Except.pure, hdata, hkinds, eq_comm]
    · rw [if_neg hdata]
      by_cases hchaff : frameType = shroudFrameChaff
      · simp [hchaff, hkinds.symm, pure, Except.pure, eq_comm]
      · simp [hdata, hchaff]
  simp only [decodeCellPayload, bind_eq_ok, check_eq_ok_iff, range?_eq_ok_iff,
    at?_eq_ok_iff, exists_const, hvalid, htotal, List.getElem?_cons_zero,
    List.getElem?_cons_succ, Option.some.injEq, exists_eq_left', hdrop,
    List.drop_zero, List.take_succ_cons, List.take_zero, true_and,
    List.take_of_length_le hpadding]
  constructor
  · rintro ⟨_, ⟨-, rfl⟩, hheader, hcapacity, _, ⟨-, rfl⟩, hzeros, hresult⟩
    exact ⟨hheader, hcapacity, hzeros, (hlast hcapacity).mp hresult⟩
  · rintro ⟨hheader, hcapacity, hzeros, hresult⟩
    exact ⟨_, ⟨by omega, rfl⟩, hheader, hcapacity, _,
      ⟨⟨hfits hcapacity, Nat.le_refl _⟩, rfl⟩, hzeros,
      (hlast hcapacity).mpr hresult⟩

theorem decodeCellPayload_eq_ok_iff {result : Option Bytes} :
    decodeCellPayload profile cell = .ok result ↔
      profile.isValid = true ∧ ∃ frameType payload,
        payload.length ≤ profile.payloadCapacity ∧
        cellBytes profile.cellSize frameType payload = cell ∧
        (frameType = shroudFrameData ∧ result = some payload ∨
          frameType = shroudFrameChaff ∧ result = none) := by
  constructor
  · intro hdecode
    have hchecks := hdecode
    simp only [decodeCellPayload, bind_eq_ok, check_eq_ok_iff,
      exists_const] at hchecks
    obtain ⟨hvalid, hlength, -⟩ := hchecks
    have hsize := ShroudProfile.cellSize_of_isValid hvalid
    obtain ⟨first, second, frameType, high, low, rest, rfl, hrest⟩ :=
      exists_fields hlength (by omega)
    obtain ⟨hheader, hcapacity, hzeros, hresult⟩ :=
      (decodeCellPayload_fields hvalid hrest).mp hdecode
    have hfits : ofBigEndian [high, low] ≤ rest.length := by
      rw [hrest]
      exact hcapacity
    have htake : (rest.take (ofBigEndian [high, low])).length =
        ofBigEndian [high, low] := List.length_take_of_le hfits
    have hpadding : rest.drop (ofBigEndian [high, low]) =
        List.replicate (profile.cellSize - (5 + ofBigEndian [high, low])) 0 := by
      rw [List.eq_replicate_iff]
      refine ⟨?_, hzeros⟩
      rw [List.length_drop]
      omega
    refine ⟨hvalid, frameType, rest.take (ofBigEndian [high, low]), ?_, ?_,
      hresult⟩
    · rw [htake]
      exact hcapacity
    · have hback : bigEndian 2 (ofBigEndian [high, low]) = [high, low] :=
        bigEndian_ofBigEndian [high, low]
      rw [cellBytes, htake, hback, ← hpadding, ← hheader, List.append_assoc,
        List.take_append_drop]
      rfl
  · rintro ⟨hvalid, frameType, payload, hcapacity, rfl, hresult⟩
    have hsize := ShroudProfile.cellSize_of_isValid hvalid
    have hfits : 5 + payload.length ≤ profile.cellSize := by
      unfold ShroudProfile.payloadCapacity at hcapacity
      omega
    have hwidth : payload.length < 256 ^ 2 := by omega
    obtain ⟨high, low, hlen⟩ : ∃ high low,
        bigEndian 2 payload.length = [high, low] := ⟨_, _, rfl⟩
    have hback : ofBigEndian [high, low] = payload.length := by
      rw [← hlen, ofBigEndian_bigEndian hwidth]
    have hcell : cellBytes profile.cellSize frameType payload =
        0x53 :: 0x44 :: frameType :: high :: low :: (payload ++
          List.replicate (profile.cellSize - (5 + payload.length)) 0) := by
      rw [cellBytes, hlen]
      rfl
    rw [hcell, decodeCellPayload_fields hvalid, hback,
      List.take_left, List.drop_left]
    · refine ⟨rfl, hcapacity, ?_, hresult⟩
      intro byte hbyte
      exact List.eq_of_mem_replicate hbyte
    · rw [List.length_append, List.length_replicate]
      omega

/-- No access of the decoder is out of bounds. -/
theorem safe_decodeCellPayload (profile : ShroudProfile) (cell : Bytes) :
    Safe (decodeCellPayload profile cell) := by
  unfold decodeCellPayload
  refine safe_check_bind fun hvalid => safe_check_bind fun hlength => ?_
  have hsize := ShroudProfile.cellSize_of_isValid hvalid
  refine safe_bind (safe_range? (by omega) (by omega)) fun _ _ => ?_
  refine safe_check_bind fun _ => ?_
  refine safe_bind (safe_at? (by omega)) fun frameType _ => ?_
  refine safe_bind (safe_at? (by omega)) fun high _ => ?_
  refine safe_bind (safe_at? (by omega)) fun low _ => ?_
  refine safe_check_bind fun hcapacity => ?_
  have hfits : 5 + ofBigEndian [high, low] ≤ cell.length := by
    unfold ShroudProfile.payloadCapacity at hcapacity
    omega
  refine safe_bind (safe_range? hfits (Nat.le_refl _)) fun _ _ => ?_
  refine safe_check_bind fun _ => ?_
  split
  · exact safe_bind (safe_range? (Nat.le_add_right _ _) hfits)
      fun payload _ => safe_ok (some payload)
  · split
    · exact safe_ok none
    · exact safe_returned _

end Codec

/-- The decoder accepts exactly the cells that the encoder makes, and gives
back what is in them. -/
theorem cell_format_canonical (profile : ShroudProfile)
    (hvalid : profile.isValid = true) (cell : Bytes) :
    (∀ payload, decodeCellPayload profile cell = .ok (some payload) ↔
      encodeCell profile shroudFrameData payload = .ok cell) ∧
    (decodeCellPayload profile cell = .ok none ↔
      ∃ payload, payload.length ≤ profile.payloadCapacity ∧
        encodeCell profile shroudFrameChaff payload = .ok cell) ∧
    (∀ other payload, decodeCellPayload profile cell = .ok (some payload) →
      decodeCellPayload profile other = .ok (some payload) → cell = other) ∧
    ∀ frameType payload, encodeCell profile frameType payload = .ok cell →
      cell.length = profile.cellSize := by
  have hdata : ∀ bytes payload,
      decodeCellPayload profile bytes = .ok (some payload) ↔
        encodeCell profile shroudFrameData payload = .ok bytes := by
    intro bytes payload
    rw [decodeCellPayload_eq_ok_iff, encodeCell_eq_ok_iff]
    constructor
    · rintro ⟨-, frameType, _, hcapacity, hbytes, ⟨rfl, hsame⟩ | ⟨-, hnone⟩⟩
      · cases hsame
        exact ⟨hvalid, Or.inl rfl, hcapacity, hbytes⟩
      · cases hnone
    · rintro ⟨-, -, hcapacity, hbytes⟩
      exact ⟨hvalid, _, payload, hcapacity, hbytes, Or.inl ⟨rfl, rfl⟩⟩
  refine ⟨hdata cell, ?_, ?_, ?_⟩
  · rw [decodeCellPayload_eq_ok_iff]
    constructor
    · rintro ⟨-, frameType, payload, hcapacity, hbytes,
        ⟨-, hsome⟩ | ⟨rfl, -⟩⟩
      · cases hsome
      · exact ⟨payload, hcapacity, encodeCell_eq_ok_iff.mpr
          ⟨hvalid, Or.inr rfl, hcapacity, hbytes⟩⟩
    · rintro ⟨payload, hcapacity, hencode⟩
      obtain ⟨-, -, -, hbytes⟩ := encodeCell_eq_ok_iff.mp hencode
      exact ⟨hvalid, _, payload, hcapacity, hbytes, Or.inr ⟨rfl, rfl⟩⟩
  · intro other payload hcell hother
    have hsame := (hdata cell payload).mp hcell
    rw [(hdata other payload).mp hother] at hsame
    exact (Except.ok.inj hsame).symm
  · intro frameType payload hencode
    obtain ⟨-, -, hcapacity, rfl⟩ := encodeCell_eq_ok_iff.mp hencode
    have hsize := ShroudProfile.cellSize_of_isValid hvalid
    unfold ShroudProfile.payloadCapacity at hcapacity
    exact cellBytes_length frameType (by omega)

theorem cell_format_canonical_tunedLow :
    ShroudProfile.tunedLow.isValid = true ∧
      decodeCellPayload .tunedLow (cellBytes 256 shroudFrameData [1, 2, 3]) =
        .ok (some [1, 2, 3]) :=
  ⟨by decide, ((cell_format_canonical .tunedLow (by decide) _).1 [1, 2, 3]).mpr
    (encodeCell_eq_ok_iff.mpr ⟨by decide, Or.inl rfl, by decide, rfl⟩)⟩

end Shph
