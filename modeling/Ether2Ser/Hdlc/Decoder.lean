import Ether2Ser.Bits.Stuffing
import Ether2Ser.Hdlc.Common

open ether2ser.hdlc_common

namespace ether2ser.hdlc_decoder

def HDLC_BIT_STUFF_ONES_LIMIT : Nat := 5

/-- `hdlc_decode_stats_t`. -/
structure HdlcDecodeStats where
  invalid_frame : Nat
  too_short : Nat
  payload_too_long : Nat
  unstuff_error : Nat
  crc_mismatch : Nat
  deriving DecidableEq, Repr

/-- The abort paths of the decoders, named after the counter each increments. -/
inductive HdlcDecodeError where
  | invalid_frame
  | too_short
  | payload_too_long
  | unstuff_error
  | crc_mismatch
  deriving DecidableEq, Repr

/-- The increment made on an abort path. -/
def HdlcDecodeStats.record (stats : HdlcDecodeStats) : HdlcDecodeError → HdlcDecodeStats
  | .invalid_frame => { stats with invalid_frame := stats.invalid_frame + 1 }
  | .too_short => { stats with too_short := stats.too_short + 1 }
  | .payload_too_long => { stats with payload_too_long := stats.payload_too_long + 1 }
  | .unstuff_error => { stats with unstuff_error := stats.unstuff_error + 1 }
  | .crc_mismatch => { stats with crc_mismatch := stats.crc_mismatch + 1 }

/-- `hdlc_decoder_t`. -/
structure HdlcDecoder where
  ones_run : Nat
  raw_bit_index : Nat
  skip_next_zero : Bool
  lsb_first : Bool
  deriving DecidableEq, Repr

/-- `hdlc_decoder_bit_type_t`. -/
inductive HdlcDecoderBitType where
  | HDLC_BIT_OK
  | HDLC_BIT_EOF
  | HDLC_BIT_ERR
  deriving DecidableEq, Repr

/-- `HDLC_DEC_BYTE_IDX`. -/
def hdlc_dec_byte_idx (raw_bit_index : Nat) : Nat := 1 + raw_bit_index / CHAR_BIT

/-- `HDLC_DEC_BIT_POS`. -/
def hdlc_dec_bit_pos (decoder : HdlcDecoder) : Nat :=
  if decoder.lsb_first then decoder.raw_bit_index % CHAR_BIT else 7 - decoder.raw_bit_index % CHAR_BIT

/-- `HDLC_DEC_GET_OUT_BIT`. -/
def hdlc_dec_get_out_bit (decoder : HdlcDecoder) (frame : HdlcFrame) : UInt8 :=
  (frame.payload.getD (hdlc_dec_byte_idx decoder.raw_bit_index) 0 >>> UInt8.ofNat (hdlc_dec_bit_pos decoder)) &&& 1

def raw_bits_total (frame : HdlcFrame) : Nat := if frame.length > 2 then (frame.length - 2) * CHAR_BIT else 0

/-- The loop of `hdlc_get_bit`. Its first argument is the number of raw bits
left, which is zero exactly when the loop condition fails. -/
def hdlc_get_bit_loop (frame : HdlcFrame) : Nat → HdlcDecoder → UInt8 → HdlcDecoderBitType × HdlcDecoder × UInt8
  | 0, decoder, out_bit => (.HDLC_BIT_EOF, decoder, out_bit)
  | left + 1, decoder, out_bit =>
    let raw_bit := hdlc_dec_get_out_bit decoder frame
    let decoder := { decoder with raw_bit_index := decoder.raw_bit_index + 1 }
    if decoder.skip_next_zero then
      if raw_bit ≠ 0 then (.HDLC_BIT_ERR, decoder, out_bit)
      else hdlc_get_bit_loop frame left { decoder with skip_next_zero := false, ones_run := 0 } out_bit
    else if raw_bit ≠ 0 then
      let decoder := { decoder with ones_run := decoder.ones_run + 1 }
      if decoder.ones_run = HDLC_BIT_STUFF_ONES_LIMIT then
        (.HDLC_BIT_OK, { decoder with skip_next_zero := true }, raw_bit)
      else (.HDLC_BIT_OK, decoder, raw_bit)
    else (.HDLC_BIT_OK, { decoder with ones_run := 0 }, raw_bit)

def hdlc_get_bit (decoder : HdlcDecoder) (frame : HdlcFrame) : HdlcDecoderBitType × HdlcDecoder × UInt8 :=
  hdlc_get_bit_loop frame (raw_bits_total frame - decoder.raw_bit_index) decoder 0

/-- The loop of `hdlc_get_byte` over the bit numbers still to be read. -/
def hdlc_get_byte_loop (frame : HdlcFrame) :
    List Nat → HdlcDecoder → UInt8 → HdlcDecoderBitType × HdlcDecoder × UInt8
  | [], decoder, byte => (.HDLC_BIT_OK, decoder, byte)
  | i :: rest, decoder, byte =>
    match hdlc_get_bit decoder frame with
    | (.HDLC_BIT_OK, decoder, bit) =>
      let bit_position := if decoder.lsb_first then i else CHAR_BIT - 1 - i
      hdlc_get_byte_loop frame rest decoder (byte ||| (bit <<< UInt8.ofNat bit_position))
    | (bit_result, decoder, _) => (bit_result, decoder, byte)

def hdlc_get_byte (decoder : HdlcDecoder) (frame : HdlcFrame) : HdlcDecoderBitType × HdlcDecoder × UInt8 :=
  hdlc_get_byte_loop frame (List.range CHAR_BIT) decoder 0

/-- The byte loop of `hdlc_decode`, with `none` when the turns allowed by the
first argument do not reach its end. -/
def hdlc_decode_loop (frame : HdlcFrame) (out_capacity : Nat) :
    Nat → HdlcDecoder → List UInt8 → Option (Except HdlcDecodeError (List UInt8))
  | 0, _, _ => none
  | turns + 1, decoder, payload =>
    match hdlc_get_byte decoder frame with
    | (.HDLC_BIT_EOF, _, _) => some (.ok payload)
    | (.HDLC_BIT_ERR, _, _) => some (.error .unstuff_error)
    | (.HDLC_BIT_OK, decoder, out_byte) =>
      if payload.length ≥ out_capacity then some (.error .payload_too_long)
      else hdlc_decode_loop frame out_capacity turns decoder (payload ++ [out_byte])

theorem hdlc_get_bit_loop_advances {frame : HdlcFrame} {left : Nat} {decoder next : HdlcDecoder} {out bit : UInt8}
    (h : hdlc_get_bit_loop frame left decoder out = (.HDLC_BIT_OK, next, bit)) :
    decoder.raw_bit_index < next.raw_bit_index ∧ next.raw_bit_index ≤ decoder.raw_bit_index + left := by
  induction left generalizing decoder with
  | zero => simp [hdlc_get_bit_loop] at h
  | succ left ih =>
    simp only [hdlc_get_bit_loop] at h
    split at h
    · split at h
      · simp at h
      · have := ih h
        simp only at this
        omega
    · split at h
      · split at h <;> obtain ⟨-, rfl, -⟩ := h <;> simp
      · obtain ⟨-, rfl, -⟩ := h
        simp

theorem hdlc_get_bit_advances {frame : HdlcFrame} {decoder next : HdlcDecoder} {bit : UInt8}
    (h : hdlc_get_bit decoder frame = (.HDLC_BIT_OK, next, bit)) :
    raw_bits_total frame - next.raw_bit_index < raw_bits_total frame - decoder.raw_bit_index := by
  have := hdlc_get_bit_loop_advances h
  omega

theorem hdlc_get_byte_loop_advances {frame : HdlcFrame} {indices : List Nat} {decoder next : HdlcDecoder}
    {acc byte : UInt8} (h : hdlc_get_byte_loop frame indices decoder acc = (.HDLC_BIT_OK, next, byte)) :
    raw_bits_total frame - next.raw_bit_index + indices.length ≤ raw_bits_total frame - decoder.raw_bit_index := by
  induction indices generalizing decoder acc with
  | nil =>
    obtain ⟨-, rfl, -⟩ := h
    simp
  | cons i indices ih =>
    simp only [hdlc_get_byte_loop] at h
    split at h
    · rename_i middle bit hbit
      have hfirst := hdlc_get_bit_advances hbit
      have hrest := ih h
      simp only [List.length_cons]
      omega
    · rename_i hne _
      obtain ⟨rfl, -, -⟩ := h
      exact (hne rfl).elim

/-- The byte loop of `hdlc_decode` ends: every turn that continues consumes
raw bits. -/
theorem hdlc_decode_loop_isSome {frame : HdlcFrame} {out_capacity turns : Nat} {decoder : HdlcDecoder}
    {payload : List UInt8} (h : raw_bits_total frame - decoder.raw_bit_index < turns) :
    (hdlc_decode_loop frame out_capacity turns decoder payload).isSome := by
  induction turns generalizing decoder payload with
  | zero => omega
  | succ turns ih =>
    rw [hdlc_decode_loop]
    split
    · rfl
    · rfl
    · rename_i next byte hbyte
      have := hdlc_get_byte_loop_advances hbyte
      simp only [CHAR_BIT, List.length_range] at this
      split
      · rfl
      · exact ih (by omega)

/-- The end of the decoders: split the decoded bytes into payload and
checksum and compare the checksum. -/
def hdlc_check_crc (payload : List UInt8) : Except HdlcDecodeError (List UInt8) :=
  let outbyte_ctr := payload.length
  if outbyte_ctr < 2 then .error .too_short
  else
    let crc16 := crcOfBytes (payload.getD (outbyte_ctr - 2) 0) (payload.getD (outbyte_ctr - 1) 0)
    let payload_length := outbyte_ctr - 2
    if crc16 ≠ hdlc_crc16 (payload.take payload_length) then .error .crc_mismatch
    else .ok (payload.take payload_length)

/-- Decode a bit-stuffed frame and check its checksum. A failure names the
statistics counter that the source increments before it aborts. -/
def hdlc_decode (frame : HdlcFrame) (out_capacity : Nat) (lsb_first : Bool) :
    Except HdlcDecodeError (List UInt8) :=
  if out_capacity = 0 ∨ frame.length < 2 ∨ frame.payload.getD 0 0 ≠ HDLC_FLAG_BYTE ∨
      frame.payload.getD (frame.length - 1) 0 ≠ HDLC_FLAG_BYTE then .error .invalid_frame
  else do
    let decoder : HdlcDecoder := { ones_run := 0, raw_bit_index := 0, skip_next_zero := false, lsb_first }
    let payload ← (hdlc_decode_loop frame out_capacity (raw_bits_total frame + 1) decoder []).get
      (hdlc_decode_loop_isSome (Nat.lt_succ_self _))
    hdlc_check_crc payload

/-- The loop of `hdlc_decode_byte` over the frame positions still to be read. -/
def hdlc_decode_byte_loop (frame : HdlcFrame) (out_capacity : Nat) :
    List Nat → Bool → List UInt8 → Except HdlcDecodeError (List UInt8)
  | [], _, payload => .ok payload
  | frame_cntr :: rest, found_escape, payload =>
    let byte := frame.payload.getD frame_cntr 0
    if byte = HDLC_ESCAPE_BYTE then hdlc_decode_byte_loop frame out_capacity rest true payload
    else if payload.length ≥ out_capacity then .error .payload_too_long
    else hdlc_decode_byte_loop frame out_capacity rest false
      (payload ++ [if found_escape then byte ^^^ HDLC_ESCAPE_XOR else byte])

/-- Decode a byte-escaped frame and check its checksum. Nothing checks the
length of the frame; bytes that it does not have are read as zero here. -/
def hdlc_decode_byte (frame : HdlcFrame) (out_capacity : Nat) : Except HdlcDecodeError (List UInt8) :=
  if out_capacity = 0 ∨ frame.payload.getD 0 0 ≠ HDLC_FLAG_BYTE ∨
      frame.payload.getD (frame.length - 1) 0 ≠ HDLC_FLAG_BYTE then .error .invalid_frame
  else do
    let payload ← hdlc_decode_byte_loop frame out_capacity (List.range' 1 (frame.length - 1 - 1)) false []
    hdlc_check_crc payload

end ether2ser.hdlc_decoder
