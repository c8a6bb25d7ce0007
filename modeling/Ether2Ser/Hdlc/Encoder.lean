import Ether2Ser.Bits.Stuffing
import Ether2Ser.Hdlc.Common

open Bits
open ether2ser.hdlc_common

namespace ether2ser.hdlc_encoder

def HDLC_BIT_STUFF_ONES_LIMIT : Nat := 5

/-- `HDLC_TRY_PUT_BYTE`, with `none` for the jump to the error label. -/
def hdlc_try_put_byte (byte : UInt8) (frame : HdlcFrame) : Option HdlcFrame :=
  if frame.length + 1 > frame.capacity then none
  else some { frame with payload := frame.payload ++ [byte] }

def hdlc_escape_if_needed (byte : UInt8) (frame : HdlcFrame) : Option HdlcFrame :=
  if byte = HDLC_FLAG_BYTE ∨ byte = HDLC_ESCAPE_BYTE then do
    let frame ← hdlc_try_put_byte HDLC_ESCAPE_BYTE frame
    hdlc_try_put_byte (byte ^^^ HDLC_ESCAPE_XOR) frame
  else hdlc_try_put_byte byte frame

/-- The body of `hdlc_encode_byte` up to its abort label. -/
def hdlc_encode_byte_body (payload : List UInt8) (frame : HdlcFrame) : Option HdlcFrame :=
  if frame.capacity < 2 ∨ frame.length ≠ 0 then none
  else do
    let frame ← hdlc_try_put_byte HDLC_FLAG_BYTE frame
    let frame ← payload.foldlM (fun frame byte => hdlc_escape_if_needed byte frame) frame
    let crc16 := hdlc_crc16 payload
    let frame ← hdlc_escape_if_needed ((crc16 >>> 8) &&& 0xFF).toUInt8 frame
    let frame ← hdlc_escape_if_needed (crc16 &&& 0xFF).toUInt8 frame
    hdlc_try_put_byte HDLC_FLAG_BYTE frame

/-- Encode a payload into a byte-escaped frame. On every failure the frame is
left empty. -/
def hdlc_encode_byte (payload : List UInt8) (frame : HdlcFrame) : Bool × HdlcFrame :=
  match hdlc_encode_byte_body payload frame with
  | some frame => (true, frame)
  | none => (false, { frame with payload := [] })

/-- `hdlc_encoder_t`. -/
structure HdlcEncoder where
  out_byte : UInt8
  out_bits_used : Nat
  ones_run : Nat
  lsb_first : Bool
  deriving DecidableEq, Repr

/-- `SHIFT_IN_BIT`. -/
def shift_in_bit (out_byte : UInt8) (bitorder : Bool) (bit : UInt8) (bitpos : Nat) : UInt8 :=
  if bitorder then out_byte ||| (bit <<< UInt8.ofNat bitpos)
  else out_byte ||| (bit <<< UInt8.ofNat (7 - bitpos))

/-- `ENCODER_TRY_FLUSH_BYTE_OUT`. -/
def encoder_try_flush_byte_out (encoder : HdlcEncoder) (frame : HdlcFrame) : Option (HdlcEncoder × HdlcFrame) :=
  if encoder.out_bits_used + 1 = CHAR_BIT then do
    let frame ← hdlc_try_put_byte encoder.out_byte frame
    some ({ encoder with out_bits_used := 0, out_byte := 0 }, frame)
  else some ({ encoder with out_bits_used := encoder.out_bits_used + 1 }, frame)

/-- `ENCODER_ZERO_PAD_AND_DRAIN`. -/
def encoder_zero_pad_and_drain (encoder : HdlcEncoder) (frame : HdlcFrame) : Option (HdlcEncoder × HdlcFrame) :=
  if encoder.out_bits_used > 0 then do
    let frame ← hdlc_try_put_byte encoder.out_byte frame
    some ({ encoder with out_byte := 0, ones_run := 0, out_bits_used := 0 }, frame)
  else some (encoder, frame)

def hdlc_put_bit (encoder : HdlcEncoder) (bit : Bool) (frame : HdlcFrame) : Option (HdlcEncoder × HdlcFrame) := do
  let bitmask : UInt8 := if bit then 1 else 0
  let encoder := { encoder with
    ones_run := if bit then encoder.ones_run + 1 else 0
    out_byte := shift_in_bit encoder.out_byte encoder.lsb_first bitmask encoder.out_bits_used }
  let (encoder, frame) ← encoder_try_flush_byte_out encoder frame
  if encoder.ones_run = HDLC_BIT_STUFF_ONES_LIMIT then
    encoder_try_flush_byte_out { encoder with
      out_byte := shift_in_bit encoder.out_byte encoder.lsb_first 0 encoder.out_bits_used
      ones_run := 0 } frame
  else some (encoder, frame)

def hdlc_put_byte (encoder : HdlcEncoder) (byte : UInt8) (frame : HdlcFrame) : Option (HdlcEncoder × HdlcFrame) :=
  (List.range CHAR_BIT).foldlM (fun state i =>
    let bit_pos := if state.1.lsb_first then i else CHAR_BIT - 1 - i
    let bit := (byte >>> UInt8.ofNat bit_pos) &&& 1 ≠ 0
    hdlc_put_bit state.1 bit state.2) (encoder, frame)

/-- The body of `hdlc_encode` up to its abort label. -/
def hdlc_encode_body (payload : List UInt8) (frame : HdlcFrame) (lsb_first : Bool) : Option HdlcFrame :=
  if frame.capacity < 2 ∨ frame.length ≠ 0 then none
  else do
    let frame ← hdlc_try_put_byte HDLC_FLAG_BYTE frame
    let encoder : HdlcEncoder := { out_byte := 0, out_bits_used := 0, ones_run := 0, lsb_first }
    let (encoder, frame) ← payload.foldlM (fun state byte => hdlc_put_byte state.1 byte state.2) (encoder, frame)
    let crc16 := hdlc_crc16 payload
    let (encoder, frame) ← hdlc_put_byte encoder ((crc16 >>> 8) &&& 0xFF).toUInt8 frame
    let (encoder, frame) ← hdlc_put_byte encoder (crc16 &&& 0xFF).toUInt8 frame
    let (_, frame) ← encoder_zero_pad_and_drain encoder frame
    hdlc_try_put_byte HDLC_FLAG_BYTE frame

/-- Encode a payload into a bit-stuffed frame. On every failure the frame is
left empty. -/
def hdlc_encode (payload : List UInt8) (frame : HdlcFrame) (lsb_first : Bool) : Bool × HdlcFrame :=
  match hdlc_encode_body payload frame lsb_first with
  | some frame => (true, frame)
  | none => (false, { frame with payload := [] })

end ether2ser.hdlc_encoder
