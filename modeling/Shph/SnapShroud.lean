/-
The cells of the SNAP shroud.  A byte stream leaves in cells of one size, with
chaff cells in between, and comes back as the payloads of the data cells; a
cell that is accepted is the only one for its type and payload.
-/
import Shph.ControlPlanePlan
import Shph.Library.Indexed
import Shph.Library.Layout

namespace Shph.SnapAdapter

open ByteCodec Checked Indexed

def snapShroudCellMagic : Bytes := textBytes "SNP-CEL1"

def snapShroudVersion : UInt8 := 1

def snapShroudCellHeaderBytes : Nat := 12

/-- The interval is in milliseconds. -/
structure SnapShroudProfile where
  id : UInt8
  cellSize : Nat
  maxPayload : Nat
  chaffInterval : Nat
deriving Repr, DecidableEq

inductive SnapShroudFrame where
  | data (payload : Bytes)
  | chaff
deriving Repr, DecidableEq

/-- The bytes a frame delivers. -/
def SnapShroudFrame.bytes : SnapShroudFrame → Bytes
  | .data payload => payload
  | .chaff => []

def resolveSnapShroudProfile (name : Option String) :
    Except ShphError SnapShroudProfile :=
  let normalized := String.ofList
    ((ControlPlane.trim (name.getD "balanced")).toList.map Char.toLower)
  if normalized = "low-latency" ∨ normalized = "interactive" then
    .ok ⟨2, 512, 384, 100⟩
  else if normalized = "balanced" ∨ normalized = "default" ∨
      normalized = "stealth-safe" then .ok ⟨1, 1024, 768, 250⟩
  else if normalized = "bulk" ∨ normalized = "bulk-transfer" then
    .ok ⟨3, 4096, 3072, 500⟩
  else .error (.config
    "SNAP shroud_profile is not supported by the versioned SNAP-Shroud framing")

/-- A payload fits into a cell with its header, and its length into the
length field. -/
structure SnapShroudProfile.Fits (profile : SnapShroudProfile) : Prop where
  cell : snapShroudCellHeaderBytes + profile.maxPayload ≤ profile.cellSize
  width : profile.maxPayload < 2 ^ 16

def encodeSnapShroudCell (profile : SnapShroudProfile) (frameType : UInt8)
    (payload : Bytes) : Except ShphError Bytes := do
  ensure (¬ (payload.length > profile.maxPayload ∨
      payload.length + snapShroudCellHeaderBytes > profile.cellSize ∨
      ¬ (frameType = 1 ∨ frameType = 2) ∨ frameType = 2 ∧ payload ≠ []))
    (.protocol "SNAP-Shroud cell exceeds its versioned frame bounds")
  let header := snapShroudCellMagic ++ [snapShroudVersion, frameType] ++
    bigEndian 2 payload.length
  return header ++ payload ++ List.replicate
    (profile.cellSize - (snapShroudCellHeaderBytes + payload.length)) 0

/-- The frame of a cell whose length and padding are checked. -/
def frameOfType (cell : Bytes) (frameType : UInt8) (payloadLen : Nat) :
    Except (Stop ShphError) SnapShroudFrame := do
  if frameType = 1 then
    let payload ← range? cell snapShroudCellHeaderBytes
      (snapShroudCellHeaderBytes + payloadLen)
    return .data payload
  else if frameType = 2 ∧ payloadLen = 0 then return .chaff
  else .error (.returned (.protocol "SNAP-Shroud frame type is invalid"))

def decodeSnapShroudCell (profile : SnapShroudProfile) (cell : Bytes) :
    Except (Stop ShphError) SnapShroudFrame := do
  let invalid := .protocol "SNAP-Shroud cell magic or version is invalid"
  check (cell.length = profile.cellSize) invalid
  let magic ← range? cell 0 8
  check (magic = snapShroudCellMagic) invalid
  let version ← at? cell 8
  check (version = snapShroudVersion) invalid
  let high ← at? cell 10
  let low ← at? cell 11
  let payloadLen := ofBigEndian [high, low]
  check (¬ (payloadLen > profile.maxPayload ∨
      payloadLen + snapShroudCellHeaderBytes > cell.length))
    (.protocol "SNAP-Shroud cell payload length is invalid")
  let padding ← range? cell (snapShroudCellHeaderBytes + payloadLen)
    cell.length
  check (∀ byte ∈ padding, byte = 0)
    (.protocol "SNAP-Shroud cell padding is invalid")
  let frameType ← at? cell 9
  frameOfType cell frameType payloadLen

/-- One cell from the bytes that are still to come before the end of the
stream, and what is left of them.  No frame is a clean end. -/
def readSnapShroudCell (profile : SnapShroudProfile) (stream : Bytes) :
    Except (Stop ShphError) (Option SnapShroudFrame × Bytes) := do
  -- the first byte is read into the first place of the cell
  let _ ← range? (List.replicate profile.cellSize (0 : UInt8)) 0 1
  match stream with
  | [] => return (none, [])
  | first :: rest =>
      check (profile.cellSize - 1 ≤ rest.length)
        (.protocol "SNAP-Shroud cell was truncated")
      let frame ← decodeSnapShroudCell profile
        (first :: rest.take (profile.cellSize - 1))
      return (some frame, rest.drop (profile.cellSize - 1))

theorem readSnapShroudCell_lt {profile : SnapShroudProfile}
    {stream rest : Bytes} {frame : SnapShroudFrame}
    (hread : readSnapShroudCell profile stream = .ok (some frame, rest)) :
    rest.length < stream.length := by
  unfold readSnapShroudCell at hread
  cases stream with
  | nil =>
      simp [bind_eq_ok, pure, Except.pure] at hread
  | cons first tail =>
      simp only [bind_eq_ok, check_eq_ok_iff, pure_eq_ok, Prod.mk.injEq]
        at hread
      obtain ⟨_, -, _, -, _, -, -, rfl⟩ := hread
      simp only [List.length_drop, List.length_cons]
      omega

/-- The loop that takes cells off the link and writes their payloads: what is
written, and how the loop ends. -/
def incoming (profile : SnapShroudProfile) (stream : Bytes) :
    Bytes × Except (Stop ShphError) Unit :=
  match _hread : readSnapShroudCell profile stream with
  | .error error => ([], .error error)
  | .ok (none, _) => ([], .ok ())
  | .ok (some frame, rest) =>
      ((frame.bytes ++ (incoming profile rest).1), (incoming profile rest).2)
termination_by stream.length
decreasing_by
  all_goals exact readSnapShroudCell_lt (by assumption)

/-- What wakes the loop in the other direction: a read of the local stream,
empty at its end, or the chaff timer. -/
inductive Outgoing where
  | read (chunk : Bytes)
  | tick
deriving Repr, DecidableEq

/-- The cells the loop writes, and its result once it has one. -/
def outgoing (profile : SnapShroudProfile) :
    List Outgoing → Bytes × Option (Except ShphError Unit)
  | [] => ([], none)
  | event :: events =>
      let write frameType payload :=
        match encodeSnapShroudCell profile frameType payload with
        | .error error => ([], some (.error error))
        | .ok cell =>
            (cell ++ (outgoing profile events).1, (outgoing profile events).2)
      match event with
      | .read [] => ([], some (.ok ()))
      | .read chunk => write 1 chunk
      | .tick => write 2 []

/-- The type a frame has in its cell. -/
def SnapShroudFrame.frameType : SnapShroudFrame → UInt8
  | .data _ => 1
  | .chaff => 2

/-- The cell of a frame. -/
def cellBytes (profile : SnapShroudProfile) (frame : SnapShroudFrame) :
    Bytes :=
  [snapShroudCellMagic, [snapShroudVersion], [frame.frameType],
    bigEndian 2 frame.bytes.length, frame.bytes, List.replicate
      (profile.cellSize - (snapShroudCellHeaderBytes + frame.bytes.length))
      0].flatten

theorem magic_length : snapShroudCellMagic.length = 8 := by decide

theorem cellBytes_length {profile : SnapShroudProfile} (hfits : profile.Fits)
    {frame : SnapShroudFrame} (hframe : frame.bytes.length ≤ profile.maxPayload) :
    (cellBytes profile frame).length = profile.cellSize := by
  have hcell := hfits.cell
  simp only [cellBytes, List.length_flatten, List.map_cons, List.map_nil,
    List.sum_cons, List.sum_nil, magic_length, List.length_singleton,
    bigEndian_length, List.length_replicate]
  unfold snapShroudCellHeaderBytes at hcell ⊢
  omega

/-- The encoder makes the cells of the frames whose payload is not too
long. -/
theorem encode_eq_ok_iff {profile : SnapShroudProfile} (hfits : profile.Fits)
    {frameType : UInt8} {payload cell : Bytes} :
    encodeSnapShroudCell profile frameType payload = .ok cell ↔
      ∃ frame : SnapShroudFrame, frame.frameType = frameType ∧
        frame.bytes = payload ∧ payload.length ≤ profile.maxPayload ∧
        cell = cellBytes profile frame := by
  have hcell := hfits.cell
  have hkinds : (1 : UInt8) ≠ 2 := by decide
  simp only [encodeSnapShroudCell, bind_eq_ok_iff, ensure_eq_ok_iff,
    exists_const, pure_eq_ok_iff, not_or, not_and_or, not_not, Nat.not_lt,
    gt_iff_lt]
  constructor
  · rintro ⟨⟨hpayload, -, htype, hempty⟩, rfl⟩
    rcases htype with rfl | rfl
    · exact ⟨.data payload, rfl, rfl, hpayload, by
        simp [cellBytes, SnapShroudFrame.frameType, SnapShroudFrame.bytes]⟩
    · obtain rfl := hempty.resolve_left (fun hne => hne rfl)
      exact ⟨.chaff, rfl, rfl, hpayload, by
        simp [cellBytes, SnapShroudFrame.frameType, SnapShroudFrame.bytes]⟩
  · rintro ⟨frame, rfl, rfl, hpayload, rfl⟩
    refine ⟨⟨hpayload, by omega, ?_⟩, by simp [cellBytes]⟩
    cases frame with
    | data payload => exact ⟨Or.inl rfl, Or.inl hkinds⟩
    | chaff => exact ⟨Or.inr rfl, Or.inr rfl⟩

theorem frameOfType_eq_ok_iff {cell : Bytes} {frameType : UInt8}
    {payloadLen : Nat} {frame : SnapShroudFrame}
    (hroom : 12 + payloadLen ≤ cell.length) :
    frameOfType cell frameType payloadLen = .ok frame ↔
      frame.frameType = frameType ∧ slice cell 12 payloadLen = frame.bytes := by
  have hlength : (slice cell 12 payloadLen).length = payloadLen :=
    slice_length hroom
  have hpayload : range? (E := ShphError) cell snapShroudCellHeaderBytes
      (snapShroudCellHeaderBytes + payloadLen) =
        .ok (slice cell 12 payloadLen) := by
    unfold snapShroudCellHeaderBytes
    rw [range?_eq_ok_iff, Nat.add_sub_cancel_left]
    exact ⟨⟨Nat.le_add_right _ _, hroom⟩, rfl⟩
  have hkinds : (1 : UInt8) ≠ 2 := by decide
  unfold frameOfType
  split
  · rename_i hdata
    rw [hpayload]
    cases frame <;>
      simp [bind, Except.bind, pure, Except.pure, SnapShroudFrame.frameType,
        SnapShroudFrame.bytes, hdata]
  · rename_i hdata
    split
    · rename_i hchaff
      obtain ⟨rfl, rfl⟩ := hchaff
      cases frame <;>
        simp [pure, Except.pure, SnapShroudFrame.frameType,
          SnapShroudFrame.bytes, slice]
    · rename_i hchaff
      cases frame with
      | data payload =>
          simp [SnapShroudFrame.frameType, Ne.symm hdata]
      | chaff =>
          simp only [reduceCtorEq, SnapShroudFrame.frameType,
            SnapShroudFrame.bytes, false_iff]
          rintro ⟨rfl, hempty⟩
          rw [hempty] at hlength
          exact hchaff ⟨rfl, hlength.symm⟩

/-- The fields of a cell. -/
theorem cellBytes_fields (profile : SnapShroudProfile)
    (frame : SnapShroudFrame) :
    slices 0 [8, 1, 1, 2, frame.bytes.length,
        profile.cellSize - (12 + frame.bytes.length)]
        (cellBytes profile frame) =
      [snapShroudCellMagic, [snapShroudVersion], [frame.frameType],
        bigEndian 2 frame.bytes.length, frame.bytes, List.replicate
          (profile.cellSize - (12 + frame.bytes.length)) 0] :=
  slices_flatten (by simp [magic_length, snapShroudCellHeaderBytes])

/-- The decoder accepts the cells of the frames whose payload is not too
long. -/
theorem decode_eq_ok_iff {profile : SnapShroudProfile} (hfits : profile.Fits)
    {cell : Bytes} {frame : SnapShroudFrame} :
    decodeSnapShroudCell profile cell = .ok frame ↔
      frame.bytes.length ≤ profile.maxPayload ∧
        cell = cellBytes profile frame := by
  have hcell := hfits.cell
  have hwidth := hfits.width
  unfold snapShroudCellHeaderBytes at hcell
  simp only [decodeSnapShroudCell, bind_eq_ok, check_eq_ok_iff,
    range?_eq_ok_iff, at?_eq_ok_iff, exists_const]
  constructor
  · rintro ⟨hlength, _, ⟨-, rfl⟩, hmagic, version, hversion, rfl, high, hhigh,
      low, hlow, hbounds, _, ⟨-, rfl⟩, hzeros, frameType, htype, hframe⟩
    rw [not_or, Nat.not_lt, Nat.not_lt] at hbounds
    unfold snapShroudCellHeaderBytes at hbounds hzeros
    have hroom : 12 + ofBigEndian [high, low] ≤ cell.length := by omega
    obtain ⟨rfl, hpayload⟩ := (frameOfType_eq_ok_iff hroom).mp hframe
    have hlen : frame.bytes.length = ofBigEndian [high, low] := by
      rw [← hpayload, slice_length hroom]
    have hnumber : slice cell 10 2 = bigEndian 2 frame.bytes.length := by
      rw [slice_two_eq_iff.mpr ⟨hhigh, hlow⟩, hlen]
      exact (bigEndian_ofBigEndian [high, low]).symm
    have hpadding : slice cell (12 + frame.bytes.length)
        (profile.cellSize - (12 + frame.bytes.length)) =
          List.replicate (profile.cellSize - (12 + frame.bytes.length)) 0 := by
      rw [← hlength, List.eq_replicate_iff, hlen]
      exact ⟨slice_length (by omega), hzeros⟩
    refine ⟨by omega, ?_⟩
    rw [← @flatten_slices [8, 1, 1, 2, frame.bytes.length,
      profile.cellSize - (12 + frame.bytes.length)] cell
      (by simp only [List.sum_cons, List.sum_nil]; omega)]
    simp only [slices, Nat.zero_add, Nat.reduceAdd]
    rw [show slice cell 0 8 = snapShroudCellMagic from hmagic,
      slice_one_eq_iff.mpr hversion, slice_one_eq_iff.mpr htype, hnumber,
      hpadding, show slice cell 12 frame.bytes.length = frame.bytes by
        rw [hlen, hpayload]]
    rfl
  · rintro ⟨hpayload, rfl⟩
    have hlength := cellBytes_length hfits hpayload
    have hfields := cellBytes_fields profile frame
    simp only [slices, Nat.zero_add, Nat.reduceAdd, List.cons.injEq,
      and_true] at hfields
    obtain ⟨hmagic, hversion, htype, hnumber, hbytes, hpadding⟩ := hfields
    obtain ⟨high, low, hlen⟩ : ∃ high low,
        bigEndian 2 frame.bytes.length = [high, low] := ⟨_, _, rfl⟩
    have hback : ofBigEndian [high, low] = frame.bytes.length := by
      rw [← hlen, ofBigEndian_bigEndian (by omega)]
    rw [hlen, slice_two_eq_iff] at hnumber
    refine ⟨hlength, _, ⟨⟨by omega, by omega⟩, rfl⟩, hmagic, _,
      slice_one_eq_iff.mp hversion, rfl, high, hnumber.1, low, hnumber.2, ?_⟩
    unfold snapShroudCellHeaderBytes
    rw [hback, hlength]
    refine ⟨by omega, _, ⟨⟨by omega, Nat.le_refl _⟩, hpadding⟩, ?_, _,
      slice_one_eq_iff.mp htype, ?_⟩
    · intro byte hbyte
      exact List.eq_of_mem_replicate hbyte
    · exact (frameOfType_eq_ok_iff (by omega)).mpr ⟨rfl, hbytes⟩

section Stream

variable {profile : SnapShroudProfile}

/-- The error of a link that ends inside a cell. -/
def truncated : Stop ShphError :=
  .returned (.protocol "SNAP-Shroud cell was truncated")

theorem cellSize_pos (hfits : profile.Fits) : 0 < profile.cellSize := by
  have hcell := hfits.cell
  unfold snapShroudCellHeaderBytes at hcell
  omega

theorem first_place (hfits : profile.Fits) :
    range? (E := ShphError) (List.replicate profile.cellSize (0 : UInt8)) 0 1 =
      .ok [0] := by
  obtain ⟨size, hsize⟩ := Nat.exists_eq_succ_of_ne_zero
    (cellSize_pos hfits).ne'
  rw [range?_eq_ok_iff, hsize]
  simp [List.replicate_succ]

theorem read_end (hfits : profile.Fits) :
    readSnapShroudCell profile [] = .ok (none, []) := by
  rw [readSnapShroudCell, first_place hfits]
  rfl

theorem read_cell (hfits : profile.Fits) {frame : SnapShroudFrame}
    (hframe : frame.bytes.length ≤ profile.maxPayload) (rest : Bytes) :
    readSnapShroudCell profile (cellBytes profile frame ++ rest) =
      .ok (some frame, rest) := by
  have hlength := cellBytes_length hfits hframe
  have hdecode := (decode_eq_ok_iff hfits).mpr ⟨hframe, rfl⟩
  have hpos := cellSize_pos hfits
  cases hcell : cellBytes profile frame with
  | nil =>
      rw [hcell] at hlength
      simp only [List.length_nil] at hlength
      omega
  | cons first tail =>
      rw [hcell] at hlength hdecode
      have htail : tail.length = profile.cellSize - 1 := by
        rw [← hlength, List.length_cons, Nat.add_sub_cancel]
      rw [List.cons_append, readSnapShroudCell, first_place hfits]
      simp only [bind_eq_ok, check_eq_ok_iff, Except.ok.injEq, pure,
        Except.pure, List.take_left' htail, List.drop_left' htail,
        List.length_append]
      exact ⟨_, rfl, (), by omega, frame, hdecode, rfl⟩

theorem read_short (hfits : profile.Fits) {stream : Bytes}
    (hsome : stream ≠ []) (hshort : stream.length < profile.cellSize) :
    readSnapShroudCell profile stream = .error truncated := by
  cases stream with
  | nil => exact absurd rfl hsome
  | cons first rest =>
      rw [List.length_cons] at hshort
      have hcheck : check (profile.cellSize - 1 ≤ rest.length)
          (ShphError.protocol "SNAP-Shroud cell was truncated") =
            .error truncated := if_neg (by omega)
      rw [readSnapShroudCell, first_place hfits]
      simp only [hcheck]
      rfl

theorem incoming_end (hfits : profile.Fits) :
    incoming profile [] = ([], .ok ()) := by
  rw [incoming]
  split
  · rename_i error hread
    rw [read_end hfits] at hread
    cases hread
  · rfl
  · rename_i frame rest hread
    rw [read_end hfits] at hread
    cases hread

theorem incoming_short (hfits : profile.Fits) {stream : Bytes}
    (hsome : stream ≠ []) (hshort : stream.length < profile.cellSize) :
    incoming profile stream = ([], .error truncated) := by
  have htruncated := read_short hfits hsome hshort
  rw [incoming]
  split <;> rename_i hread <;> rw [htruncated] at hread <;> cases hread
  rfl

theorem incoming_cell (hfits : profile.Fits) {frame : SnapShroudFrame}
    (hframe : frame.bytes.length ≤ profile.maxPayload) (rest : Bytes) :
    incoming profile (cellBytes profile frame ++ rest) =
      (frame.bytes ++ (incoming profile rest).1,
        (incoming profile rest).2) := by
  have hcell := read_cell hfits hframe rest
  rw [incoming]
  split <;> rename_i hread <;> rw [hcell] at hread <;> cases hread
  rfl

/-- Cells in front of what follows deliver their payloads first. -/
theorem incoming_cells (hfits : profile.Fits) {frames : List SnapShroudFrame}
    (hframes : ∀ frame ∈ frames, frame.bytes.length ≤ profile.maxPayload)
    (rest : Bytes) :
    incoming profile (frames.flatMap (cellBytes profile) ++ rest) =
      (frames.flatMap SnapShroudFrame.bytes ++ (incoming profile rest).1,
        (incoming profile rest).2) := by
  induction frames with
  | nil => rfl
  | cons frame frames ih =>
      rw [List.forall_mem_cons] at hframes
      rw [List.flatMap_cons, List.flatMap_cons, List.append_assoc,
        incoming_cell hfits hframes.1, ih hframes.2, List.append_assoc]

/-- The cell a loop writes at an event that does not end it. -/
def Outgoing.frame : Outgoing → SnapShroudFrame
  | .read chunk => .data chunk
  | .tick => .chaff

/-- What a read of the local stream returns before its end. -/
def Outgoing.Admissible (profile : SnapShroudProfile) : Outgoing → Prop
  | .read chunk => chunk ≠ [] ∧ chunk.length ≤ profile.maxPayload
  | .tick => True

theorem Outgoing.Admissible.frame_le {event : Outgoing}
    (hevent : event.Admissible profile) :
    event.frame.bytes.length ≤ profile.maxPayload := by
  cases event with
  | read chunk => exact hevent.2
  | tick => exact Nat.zero_le _

theorem outgoing_event (hfits : profile.Fits) {event : Outgoing}
    (hevent : event.Admissible profile) (events : List Outgoing) :
    outgoing profile (event :: events) =
      (cellBytes profile event.frame ++ (outgoing profile events).1,
        (outgoing profile events).2) := by
  have hencode : encodeSnapShroudCell profile event.frame.frameType
      event.frame.bytes = .ok (cellBytes profile event.frame) :=
    (encode_eq_ok_iff hfits).mpr ⟨_, rfl, rfl, hevent.frame_le, rfl⟩
  cases event with
  | read chunk =>
      cases chunk with
      | nil => exact absurd rfl hevent.1
      | cons byte chunk =>
          simp only [outgoing]
          simp only [Outgoing.frame, SnapShroudFrame.frameType,
            SnapShroudFrame.bytes] at hencode ⊢
          rw [hencode]
  | tick =>
      simp only [outgoing]
      simp only [Outgoing.frame, SnapShroudFrame.frameType,
        SnapShroudFrame.bytes] at hencode ⊢
      rw [hencode]

/-- The loop writes a cell for every chunk and every tick up to the end of the
local stream. -/
theorem outgoing_events (hfits : profile.Fits) {events : List Outgoing}
    (hevents : ∀ event ∈ events, event.Admissible profile) :
    outgoing profile (events ++ [.read []]) =
      ((events.map Outgoing.frame).flatMap (cellBytes profile),
        some (.ok ())) := by
  induction events with
  | nil => rfl
  | cons event events ih =>
      rw [List.forall_mem_cons] at hevents
      rw [List.cons_append, outgoing_event hfits hevents.1, ih hevents.2,
        List.map_cons, List.flatMap_cons]

/-- A stream of cells that is cut inside a cell: the cells before it, and a
part of it. -/
theorem take_cells {cells : List Bytes} {size cut : Nat}
    (hcells : ∀ cell ∈ cells, cell.length = size)
    (hcut : cut ≤ cells.flatten.length) :
    ∃ part, cells.flatten.take cut =
        (cells.take (cut / size)).flatten ++ part ∧
      part.length = cut % size := by
  have hlengths : cells.map List.length = List.replicate cells.length size :=
    List.eq_replicate_iff.mpr ⟨List.length_map _, by simpa using hcells⟩
  have htotal : cells.flatten.length = cells.length * size := by
    rw [List.length_flatten, hlengths, List.sum_replicate, smul_eq_mul]
  have hwhole : cut / size ≤ cells.length := by
    rw [htotal] at hcut
    exact Nat.div_le_of_le_mul (by rwa [Nat.mul_comm])
  have hfront : ((cells.map List.length).take (cut / size)).sum =
      cut / size * size := by
    rw [hlengths, List.take_replicate, List.sum_replicate, smul_eq_mul,
      Nat.min_eq_left hwhole]
  refine ⟨(cells.flatten.drop (cut / size * size)).take (cut % size), ?_, ?_⟩
  · rw [← List.take_sum_flatten, hfront, ← List.take_add,
      Nat.div_add_mod']
  · rw [List.length_take, List.length_drop]
    have hsplit := Nat.div_add_mod' cut size
    omega

end Stream

/-- What a chunking delivers. -/
def localBytes (events : List Outgoing) : Bytes :=
  events.flatMap fun event => event.frame.bytes

/-- A byte stream that is read in chunks, with chaff in between, comes back as
it was and then ends; cut inside a cell it gives what the whole cells before
the cut hold, and an error.  The cells that are decoded are the ones that are
encoded. -/
theorem snap_shroud_stream {profile : SnapShroudProfile}
    (hfits : profile.Fits) :
    (∀ events, (∀ event ∈ events, Outgoing.Admissible profile event) →
      ∃ stream, outgoing profile (events ++ [.read []]) =
          (stream, some (.ok ())) ∧
        incoming profile stream = (localBytes events, .ok ()) ∧
        ∀ cut, cut ≤ stream.length → cut % profile.cellSize ≠ 0 →
          incoming profile (stream.take cut) =
            (localBytes (events.take (cut / profile.cellSize)),
              .error truncated)) ∧
    ∀ cell, cell.length = profile.cellSize →
      ((∃ frame, decodeSnapShroudCell profile cell = .ok frame) ↔
        ∃ frameType payload,
          encodeSnapShroudCell profile frameType payload = .ok cell) := by
  constructor
  · intro events hevents
    have hframes : ∀ frame ∈ events.map Outgoing.frame,
        frame.bytes.length ≤ profile.maxPayload := by
      simp only [List.forall_mem_map]
      exact fun event hevent => (hevents event hevent).frame_le
    refine ⟨_, outgoing_events hfits hevents, ?_, ?_⟩
    · have hwhole := incoming_cells hfits hframes []
      rw [List.append_nil, incoming_end hfits, List.append_nil] at hwhole
      rw [hwhole, localBytes, List.flatMap_map]
    · intro cut hcut hinside
      have hcells : ∀ cell ∈ (events.map Outgoing.frame).map
          (cellBytes profile), cell.length = profile.cellSize := by
        rw [List.forall_mem_map]
        exact fun frame hframe => cellBytes_length hfits (hframes frame hframe)
      rw [List.flatMap_def] at hcut ⊢
      obtain ⟨part, htake, hpart⟩ := take_cells hcells hcut
      have hsome : part ≠ [] := by
        rintro rfl
        exact hinside (by simpa using hpart.symm)
      have hshort : part.length < profile.cellSize := by
        rw [hpart]
        exact Nat.mod_lt _ (cellSize_pos hfits)
      rw [htake, ← List.map_take, ← List.flatMap_def,
        incoming_cells hfits
          (fun frame hframe => hframes frame (List.mem_of_mem_take hframe)),
        incoming_short hfits hsome hshort, List.append_nil, ← List.map_take,
        localBytes, List.flatMap_map]
  · intro cell _
    constructor
    · rintro ⟨frame, hdecode⟩
      obtain ⟨hframe, hbytes⟩ := (decode_eq_ok_iff hfits).mp hdecode
      exact ⟨frame.frameType, frame.bytes, (encode_eq_ok_iff hfits).mpr
        ⟨frame, rfl, rfl, hframe, hbytes⟩⟩
    · rintro ⟨frameType, payload, hencode⟩
      obtain ⟨frame, -, rfl, hframe, hbytes⟩ :=
        (encode_eq_ok_iff hfits).mp hencode
      exact ⟨frame, (decode_eq_ok_iff hfits).mpr ⟨hframe, hbytes⟩⟩

theorem snap_shroud_stream_balanced :
    ∃ profile, resolveSnapShroudProfile none = .ok profile ∧
      ∃ stream, outgoing profile [.read [1, 2, 3], .tick, .read [4], .read []] =
          (stream, some (.ok ())) ∧
        incoming profile stream = ([1, 2, 3, 4], .ok ()) := by
  refine ⟨⟨1, 1024, 768, 250⟩, by decide, ?_⟩
  have hfits : SnapShroudProfile.Fits ⟨1, 1024, 768, 250⟩ :=
    ⟨by decide, by decide⟩
  obtain ⟨stream, hstream, hback, -⟩ := (snap_shroud_stream hfits).1
    [.read [1, 2, 3], .tick, .read [4]] (by simp [Outgoing.Admissible])
  exact ⟨stream, hstream, hback⟩

end Shph.SnapAdapter
