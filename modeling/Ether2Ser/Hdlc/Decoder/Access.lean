import Ether2Ser.Control.Traced
import Ether2Ser.Hdlc.Decoder

open Traced
open ether2ser.hdlc_common

namespace ether2ser.hdlc_decoder

/-- A read of the frame's bytes or a write to the output buffer. -/
inductive DecodeAccess where
  | frame_read (index : Nat)
  | out_write (index : Nat)
  deriving DecidableEq, Repr

/-- The decoders together with their accesses, in program order. -/
abbrev Decoding := Traced DecodeAccess

namespace decoding

def read_frame (frame : HdlcFrame) (index : Nat) : Decoding UInt8 := do
  access (.frame_read index)
  pure (frame.payload.getD index 0)

def write_out (payload : List UInt8) (byte : UInt8) : Decoding (List UInt8) := do
  access (.out_write payload.length)
  pure (payload ++ [byte])

/-- The comparison of both ends with the flag. The last byte is read only if
the first one is a flag. -/
def lacks_flags (frame : HdlcFrame) : Decoding Bool := do
  let first ← read_frame frame 0
  if first ≠ HDLC_FLAG_BYTE then pure true
  else do
    let last ← read_frame frame (frame.length - 1)
    pure (last ≠ HDLC_FLAG_BYTE)

def decode_byte_loop (frame : HdlcFrame) (out_capacity : Nat) :
    List Nat → Bool → List UInt8 → Decoding (Except HdlcDecodeError (List UInt8))
  | [], _, payload => pure (.ok payload)
  | frame_cntr :: rest, found_escape, payload => do
    let byte ← read_frame frame frame_cntr
    if byte = HDLC_ESCAPE_BYTE then decode_byte_loop frame out_capacity rest true payload
    else if payload.length ≥ out_capacity then pure (.error .payload_too_long)
    else do
      let byte ← read_frame frame frame_cntr
      let payload ← write_out payload (if found_escape then byte ^^^ HDLC_ESCAPE_XOR else byte)
      decode_byte_loop frame out_capacity rest false payload

def decode_byte (frame : HdlcFrame) (out_capacity : Nat) : Decoding (Except HdlcDecodeError (List UInt8)) :=
  if out_capacity = 0 then pure (.error .invalid_frame)
  else do
    let invalid ← lacks_flags frame
    if invalid then pure (.error .invalid_frame)
    else do
      match ← decode_byte_loop frame out_capacity (List.range' 1 (frame.length - 1 - 1)) false [] with
      | .error error => pure (.error error)
      | .ok payload => pure (hdlc_check_crc payload)

def dec_get_out_bit (decoder : HdlcDecoder) (frame : HdlcFrame) : Decoding UInt8 := do
  let byte ← read_frame frame (hdlc_dec_byte_idx decoder.raw_bit_index)
  pure ((byte >>> UInt8.ofNat (hdlc_dec_bit_pos decoder)) &&& 1)

def get_bit_loop (frame : HdlcFrame) :
    Nat → HdlcDecoder → UInt8 → Decoding (HdlcDecoderBitType × HdlcDecoder × UInt8)
  | 0, decoder, out_bit => pure (.HDLC_BIT_EOF, decoder, out_bit)
  | left + 1, decoder, out_bit => do
    let raw_bit ← dec_get_out_bit decoder frame
    let decoder := { decoder with raw_bit_index := decoder.raw_bit_index + 1 }
    if decoder.skip_next_zero then
      if raw_bit ≠ 0 then pure (.HDLC_BIT_ERR, decoder, out_bit)
      else get_bit_loop frame left { decoder with skip_next_zero := false, ones_run := 0 } out_bit
    else if raw_bit ≠ 0 then
      let decoder := { decoder with ones_run := decoder.ones_run + 1 }
      if decoder.ones_run = HDLC_BIT_STUFF_ONES_LIMIT then
        pure (.HDLC_BIT_OK, { decoder with skip_next_zero := true }, raw_bit)
      else pure (.HDLC_BIT_OK, decoder, raw_bit)
    else pure (.HDLC_BIT_OK, { decoder with ones_run := 0 }, raw_bit)

def get_bit (decoder : HdlcDecoder) (frame : HdlcFrame) : Decoding (HdlcDecoderBitType × HdlcDecoder × UInt8) :=
  get_bit_loop frame (raw_bits_total frame - decoder.raw_bit_index) decoder 0

def get_byte_loop (frame : HdlcFrame) :
    List Nat → HdlcDecoder → UInt8 → Decoding (HdlcDecoderBitType × HdlcDecoder × UInt8)
  | [], decoder, byte => pure (.HDLC_BIT_OK, decoder, byte)
  | i :: rest, decoder, byte => do
    match ← get_bit decoder frame with
    | (.HDLC_BIT_OK, decoder, bit) =>
      let bit_position := if decoder.lsb_first then i else CHAR_BIT - 1 - i
      get_byte_loop frame rest decoder (byte ||| (bit <<< UInt8.ofNat bit_position))
    | (bit_result, decoder, _) => pure (bit_result, decoder, byte)

def get_byte (decoder : HdlcDecoder) (frame : HdlcFrame) : Decoding (HdlcDecoderBitType × HdlcDecoder × UInt8) :=
  get_byte_loop frame (List.range CHAR_BIT) decoder 0

def decode_loop (frame : HdlcFrame) (out_capacity : Nat) :
    Nat → HdlcDecoder → List UInt8 → Decoding (Option (Except HdlcDecodeError (List UInt8)))
  | 0, _, _ => pure none
  | turns + 1, decoder, payload => do
    match ← get_byte decoder frame with
    | (.HDLC_BIT_EOF, _, _) => pure (some (.ok payload))
    | (.HDLC_BIT_ERR, _, _) => pure (some (.error .unstuff_error))
    | (.HDLC_BIT_OK, decoder, out_byte) =>
      if payload.length ≥ out_capacity then pure (some (.error .payload_too_long))
      else do
        let payload ← write_out payload out_byte
        decode_loop frame out_capacity turns decoder payload

/-- `none` would mean that the byte loop does not end. -/
def decode (frame : HdlcFrame) (out_capacity : Nat) (lsb_first : Bool) :
    Decoding (Option (Except HdlcDecodeError (List UInt8))) :=
  if out_capacity = 0 ∨ frame.length < 2 then pure (some (.error .invalid_frame))
  else do
    let invalid ← lacks_flags frame
    if invalid then pure (some (.error .invalid_frame))
    else do
      let decoder : HdlcDecoder := { ones_run := 0, raw_bit_index := 0, skip_next_zero := false, lsb_first }
      match ← decode_loop frame out_capacity (raw_bits_total frame + 1) decoder [] with
      | none => pure none
      | some (.error error) => pure (some (.error error))
      | some (.ok payload) => pure (some (hdlc_check_crc payload))

@[simp]
theorem value_read_frame (frame : HdlcFrame) (index : Nat) :
    (read_frame frame index).value = frame.payload.getD index 0 := rfl

@[simp]
theorem value_write_out (payload : List UInt8) (byte : UInt8) : (write_out payload byte).value = payload ++ [byte] :=
  rfl

theorem value_lacks_flags (frame : HdlcFrame) :
    (lacks_flags frame).value = decide (frame.payload.getD 0 0 ≠ HDLC_FLAG_BYTE ∨
      frame.payload.getD (frame.length - 1) 0 ≠ HDLC_FLAG_BYTE) := by
  by_cases hfirst : frame.payload.getD 0 0 ≠ HDLC_FLAG_BYTE
  · rw [lacks_flags, value_bind, value_read_frame, if_pos hfirst, decide_eq_true (Or.inl hfirst)]
    rfl
  · rw [lacks_flags, value_bind, value_read_frame, if_neg hfirst, value_bind, value_read_frame, value_pure,
      decide_eq_decide]
    exact (or_iff_right hfirst).symm

theorem value_decode_byte_loop (frame : HdlcFrame) (out_capacity : Nat) (indices : List Nat) (found_escape : Bool)
    (payload : List UInt8) :
    (decode_byte_loop frame out_capacity indices found_escape payload).value =
      hdlc_decode_byte_loop frame out_capacity indices found_escape payload := by
  induction indices generalizing found_escape payload with
  | nil => rfl
  | cons index indices ih =>
    rw [decode_byte_loop, hdlc_decode_byte_loop, value_bind, value_read_frame]
    split
    · exact ih true payload
    · split
      · rfl
      · exact ih false _

/-- The accesses belong to the byte-escaping decoder of the model. -/
theorem value_decode_byte (frame : HdlcFrame) (out_capacity : Nat) :
    (decode_byte frame out_capacity).value = hdlc_decode_byte frame out_capacity := by
  unfold decode_byte hdlc_decode_byte
  by_cases hzero : out_capacity = 0
  · simp [hzero]
  · simp only [hzero, if_false, false_or, value_bind, value_lacks_flags, decide_eq_true_eq, value_ite, value_pure,
      value_decode_byte_loop]
    split
    · rfl
    · cases hdlc_decode_byte_loop frame out_capacity (List.range' 1 (frame.length - 1 - 1)) false [] with
      | error error => rfl
      | ok payload => rfl

theorem value_get_bit_loop (frame : HdlcFrame) (left : Nat) (decoder : HdlcDecoder) (out_bit : UInt8) :
    (get_bit_loop frame left decoder out_bit).value = hdlc_get_bit_loop frame left decoder out_bit := by
  induction left generalizing decoder with
  | zero => rfl
  | succ left ih =>
    simp only [get_bit_loop, hdlc_get_bit_loop, value_bind, value_ite, value_pure, ih]
    rfl

theorem value_get_bit (decoder : HdlcDecoder) (frame : HdlcFrame) :
    (get_bit decoder frame).value = hdlc_get_bit decoder frame := value_get_bit_loop _ _ _ _

theorem value_get_byte_loop (frame : HdlcFrame) (indices : List Nat) (decoder : HdlcDecoder) (byte : UInt8) :
    (get_byte_loop frame indices decoder byte).value = hdlc_get_byte_loop frame indices decoder byte := by
  induction indices generalizing decoder byte with
  | nil => rfl
  | cons i indices ih =>
    rw [get_byte_loop, hdlc_get_byte_loop, value_bind, value_get_bit]
    obtain ⟨bit_result, next, bit⟩ := hdlc_get_bit decoder frame
    cases bit_result with
    | HDLC_BIT_OK => exact ih _ _
    | HDLC_BIT_EOF => rfl
    | HDLC_BIT_ERR => rfl

theorem value_get_byte (decoder : HdlcDecoder) (frame : HdlcFrame) :
    (get_byte decoder frame).value = hdlc_get_byte decoder frame := value_get_byte_loop _ _ _ _

theorem value_decode_loop (frame : HdlcFrame) (out_capacity turns : Nat) (decoder : HdlcDecoder)
    (payload : List UInt8) :
    (decode_loop frame out_capacity turns decoder payload).value =
      hdlc_decode_loop frame out_capacity turns decoder payload := by
  induction turns generalizing decoder payload with
  | zero => rfl
  | succ turns ih =>
    rw [decode_loop, hdlc_decode_loop, value_bind, value_get_byte]
    obtain ⟨bit_result, next, out_byte⟩ := hdlc_get_byte decoder frame
    cases bit_result with
    | HDLC_BIT_OK => simp only [value_ite, value_pure, value_bind, value_write_out, ih]
    | HDLC_BIT_EOF => rfl
    | HDLC_BIT_ERR => rfl

/-- The accesses belong to the bit-stuffing decoder of the model, whose loop
ends. -/
theorem value_decode (frame : HdlcFrame) (out_capacity : Nat) (lsb_first : Bool) :
    (decode frame out_capacity lsb_first).value = some (hdlc_decode frame out_capacity lsb_first) := by
  unfold decode hdlc_decode
  by_cases hshort : out_capacity = 0 ∨ frame.length < 2
  · rw [if_pos hshort, if_pos (by tauto)]
    rfl
  · rw [if_neg hshort]
    simp only [← or_assoc, hshort, false_or]
    simp only [value_bind, value_lacks_flags, decide_eq_true_eq, value_ite, value_pure, value_decode_loop]
    split
    · rfl
    · obtain ⟨result, hresult⟩ := Option.isSome_iff_exists.mp (@hdlc_decode_loop_isSome frame out_capacity
        (raw_bits_total frame + 1) { ones_run := 0, raw_bit_index := 0, skip_next_zero := false, lsb_first } []
        (Nat.lt_succ_self _))
      simp only [hresult, Option.get_some]
      cases result with
      | error error => rfl
      | ok payload => rfl

end decoding

section

variable {α β : Type} {frame : HdlcFrame} {start out_capacity : Nat}

/-- The indices of the output buffer that are written, in program order. -/
def written (traced : Decoding α) : List Nat :=
  traced.accesses.filterMap fun
    | .frame_read _ => none
    | .out_write index => some index

/-- A read of one of the frame's bytes. -/
def ReadInside (frame : HdlcFrame) : DecodeAccess → Prop
  | .frame_read index => index < frame.length
  | .out_write _ => False

/-- Only the frame's bytes are read, and the output is filled byte by byte from
`start` on, inside its capacity. -/
structure StaysInside (frame : HdlcFrame) (start out_capacity : Nat) (traced : Decoding α) : Prop where
  reads : ∀ index, .frame_read index ∈ traced.accesses → index < frame.length
  writes : ∃ count, written traced = List.range' start count ∧ start + count ≤ out_capacity

theorem StaysInside.silent (hstart : start ≤ out_capacity) (value : α) :
    StaysInside frame start out_capacity (pure value : Decoding α) where
  reads := by
    intro index hindex
    cases hindex
  writes := ⟨0, rfl, hstart⟩

/-- Reads of the frame may stand in front. -/
theorem StaysInside.after_reads {traced : Decoding α} {next : α → Decoding β}
    (htraced : Safe (ReadInside frame) traced) (hnext : StaysInside frame start out_capacity (next traced.value)) :
    StaysInside frame start out_capacity (traced >>= next) where
  reads := by
    intro index hindex
    obtain hindex | hindex := List.mem_append.mp hindex
    · exact htraced _ hindex
    · exact hnext.reads index hindex
  writes := by
    have hsilent : written traced = [] := by
      apply List.filterMap_eq_nil_iff.mpr
      intro e he
      cases e with
      | frame_read index => rfl
      | out_write index => exact (htraced _ he).elim
    obtain ⟨count, hcount, hroom⟩ := hnext.writes
    refine ⟨count, ?_, hroom⟩
    rw [← hcount, ← List.nil_append (written (next traced.value)), ← hsilent]
    exact List.filterMap_append

/-- What makes no access may stand behind. -/
theorem StaysInside.before_silent {traced : Decoding α} {next : α → Decoding β}
    (htraced : StaysInside frame start out_capacity traced) (hnext : ∀ value, (next value).accesses = []) :
    StaysInside frame start out_capacity (traced >>= next) := by
  have haccesses : (traced >>= next).accesses = traced.accesses :=
    (congrArg (traced.accesses ++ ·) (hnext traced.value)).trans (List.append_nil _)
  refine ⟨?_, ?_⟩
  · rw [haccesses]
    exact htraced.reads
  · unfold written
    rw [haccesses]
    exact htraced.writes

/-- A write at the next free index may stand in front. -/
theorem StaysInside.after_write {payload : List UInt8} {byte : UInt8} {next : List UInt8 → Decoding β}
    (hnext : StaysInside frame (payload ++ [byte]).length out_capacity (next (payload ++ [byte]))) :
    StaysInside frame payload.length out_capacity (decoding.write_out payload byte >>= next) where
  reads := by
    intro index hindex
    obtain hindex | hindex := List.mem_cons.mp hindex
    · cases hindex
    · exact hnext.reads index hindex
  writes := by
    obtain ⟨count, hcount, hroom⟩ := hnext.writes
    rw [List.length_append, List.length_singleton] at hcount hroom
    refine ⟨count + 1, ?_, by omega⟩
    rw [List.range'_succ, ← hcount]
    rfl

end

namespace decoding

section

variable {frame : HdlcFrame} {out_capacity : Nat}

theorem safe_read_frame {index : Nat} (hindex : index < frame.length) :
    Safe (ReadInside frame) (read_frame frame index) :=
  Safe.bind (@safe_access _ (ReadInside frame) (.frame_read index) hindex) (safe_pure _)

theorem safe_lacks_flags (hframe : 0 < frame.length) : Safe (ReadInside frame) (lacks_flags frame) := by
  refine (safe_read_frame hframe).bind ?_
  split
  · exact safe_pure _
  · exact (safe_read_frame (by omega)).bind (safe_pure _)

/-- The raw bits end before the closing flag. -/
theorem hdlc_dec_byte_idx_lt {raw_bit_index : Nat} (h : raw_bit_index < raw_bits_total frame) :
    hdlc_dec_byte_idx raw_bit_index < frame.length := by
  unfold raw_bits_total at h
  unfold hdlc_dec_byte_idx
  split at h
  · rw [CHAR_BIT] at h ⊢
    omega
  · omega

theorem safe_get_bit_loop {left : Nat} {decoder : HdlcDecoder} {out_bit : UInt8}
    (hleft : left = 0 ∨ decoder.raw_bit_index + left ≤ raw_bits_total frame) :
    Safe (ReadInside frame) (get_bit_loop frame left decoder out_bit) := by
  induction left generalizing decoder with
  | zero => exact safe_pure _
  | succ left ih =>
    refine Safe.bind ((safe_read_frame (hdlc_dec_byte_idx_lt (by omega))).bind (safe_pure _)) ?_
    dsimp only
    split
    · split
      · exact safe_pure _
      · exact ih (by dsimp only; omega)
    · split
      · split
        · exact safe_pure _
        · exact safe_pure _
      · exact safe_pure _

theorem safe_get_byte_loop (indices : List Nat) (decoder : HdlcDecoder) (byte : UInt8) :
    Safe (ReadInside frame) (get_byte_loop frame indices decoder byte) := by
  induction indices generalizing decoder byte with
  | nil => exact safe_pure _
  | cons i indices ih =>
    refine Safe.bind (safe_get_bit_loop (by omega)) ?_
    obtain ⟨bit_result, next, bit⟩ := (get_bit decoder frame).value
    cases bit_result with
    | HDLC_BIT_OK => exact ih _ _
    | HDLC_BIT_EOF => exact safe_pure _
    | HDLC_BIT_ERR => exact safe_pure _

theorem safe_get_byte (decoder : HdlcDecoder) : Safe (ReadInside frame) (get_byte decoder frame) :=
  safe_get_byte_loop _ _ _

theorem stays_inside_decode_byte_loop {indices : List Nat} {found_escape : Bool} {payload : List UInt8}
    (hindices : ∀ index ∈ indices, index < frame.length) (hpayload : payload.length ≤ out_capacity) :
    StaysInside frame payload.length out_capacity
      (decode_byte_loop frame out_capacity indices found_escape payload) := by
  induction indices generalizing found_escape payload with
  | nil => exact .silent hpayload _
  | cons index indices ih =>
    have hindex := hindices index List.mem_cons_self
    have hrest : ∀ index ∈ indices, index < frame.length := fun i hi => hindices i (List.mem_cons_of_mem _ hi)
    refine .after_reads (safe_read_frame hindex) ?_
    split
    · exact ih hrest hpayload
    · split
      · exact .silent hpayload _
      · refine .after_reads (safe_read_frame hindex) (.after_write (ih hrest ?_))
        rw [List.length_append, List.length_singleton]
        omega

theorem stays_inside_decode_loop {turns : Nat} {decoder : HdlcDecoder} {payload : List UInt8}
    (hpayload : payload.length ≤ out_capacity) :
    StaysInside frame payload.length out_capacity (decode_loop frame out_capacity turns decoder payload) := by
  induction turns generalizing decoder payload with
  | zero => exact .silent hpayload _
  | succ turns ih =>
    refine .after_reads (safe_get_byte decoder) ?_
    obtain ⟨bit_result, next, out_byte⟩ := (get_byte decoder frame).value
    cases bit_result with
    | HDLC_BIT_EOF => exact .silent hpayload _
    | HDLC_BIT_ERR => exact .silent hpayload _
    | HDLC_BIT_OK =>
      dsimp only
      split
      · exact .silent hpayload _
      · refine .after_write (ih ?_)
        rw [List.length_append, List.length_singleton]
        omega

theorem stays_inside_decode_byte (hframe : 0 < frame.length ∨ out_capacity = 0) :
    StaysInside frame 0 out_capacity (decode_byte frame out_capacity) := by
  unfold decode_byte
  split
  · exact .silent (Nat.zero_le _) _
  · rename_i hcapacity
    refine .after_reads (safe_lacks_flags (hframe.resolve_right hcapacity)) ?_
    split
    · exact .silent (Nat.zero_le _) _
    · have hindices : ∀ index ∈ List.range' 1 (frame.length - 1 - 1), index < frame.length := by
        intro index hindex
        rw [List.mem_range'_1] at hindex
        omega
      refine StaysInside.before_silent
        (@stays_inside_decode_byte_loop frame out_capacity _ false [] hindices (Nat.zero_le _)) fun result => ?_
      cases result with
      | error error => rfl
      | ok payload => rfl

theorem stays_inside_decode (lsb_first : Bool) :
    StaysInside frame 0 out_capacity (decode frame out_capacity lsb_first) := by
  unfold decode
  split
  · exact .silent (Nat.zero_le _) _
  · rename_i hguard
    refine .after_reads (safe_lacks_flags (by omega)) ?_
    split
    · exact .silent (Nat.zero_le _) _
    · refine StaysInside.before_silent
        (@stays_inside_decode_loop frame out_capacity _ _ [] (Nat.zero_le _)) fun result => ?_
      obtain _ | error | payload := result
      · rfl
      · rfl
      · rfl

/-- Without a byte in the frame, the comparison with the opening flag already
reads behind it. -/
theorem not_stays_inside_decode_byte (hframe : frame.length = 0) (hcapacity : out_capacity ≠ 0) :
    ¬StaysInside frame 0 out_capacity (decode_byte frame out_capacity) := by
  intro h
  have hread : .frame_read 0 ∈ (decode_byte frame out_capacity).accesses := by
    rw [decode_byte, if_neg hcapacity]
    exact List.mem_cons_self
  have := h.reads 0 hread
  omega

end

end decoding

/-- Both decoders end. They read the frame inside its bytes and write no more
than the output holds exactly if the frame has a byte or the output has no room:
the byte-escaping decoder lacks the length check of the other one. -/
theorem decoders_stay_inside_iff (frame : HdlcFrame) (out_capacity : Nat) :
    (decoding.decode_byte frame out_capacity).value = hdlc_decode_byte frame out_capacity ∧
    (∀ lsb_first, (decoding.decode frame out_capacity lsb_first).value =
      some (hdlc_decode frame out_capacity lsb_first)) ∧
    (StaysInside frame 0 out_capacity (decoding.decode_byte frame out_capacity) ∧
      (∀ lsb_first, StaysInside frame 0 out_capacity (decoding.decode frame out_capacity lsb_first)) ↔
      0 < frame.length ∨ out_capacity = 0) := by
  refine ⟨decoding.value_decode_byte frame out_capacity, decoding.value_decode frame out_capacity, ?_, ?_⟩
  · rintro ⟨hbyte, -⟩
    by_contra hcondition
    rw [not_or] at hcondition
    exact decoding.not_stays_inside_decode_byte (by omega) hcondition.2 hbyte
  · intro hcondition
    exact ⟨decoding.stays_inside_decode_byte hcondition, decoding.stays_inside_decode⟩

/-- Given an empty buffer, the byte-escaping decoder reads its first byte. -/
theorem hdlc_decode_byte_reads_behind_empty_frame :
    ¬StaysInside (.empty 0) 0 1 (decoding.decode_byte (.empty 0) 1) :=
  decoding.not_stays_inside_decode_byte rfl Nat.one_ne_zero

end ether2ser.hdlc_decoder
