import Ether2Ser.Control.Traced
import Ether2Ser.Hdlc.Encoder

open Traced
open ether2ser.hdlc_common

namespace ether2ser.hdlc_encoder

/-- The encoder together with the indices of the frame buffer that it writes. -/
abbrev Encoding := OptionT (Traced Nat)

namespace encoding

def try_put_byte (byte : UInt8) (frame : HdlcFrame) : Encoding HdlcFrame :=
  if frame.length + 1 > frame.capacity then failure
  else do
    OptionT.lift (access frame.length)
    pure { frame with payload := frame.payload ++ [byte] }

def try_flush_byte_out (encoder : HdlcEncoder) (frame : HdlcFrame) : Encoding (HdlcEncoder × HdlcFrame) :=
  if encoder.out_bits_used + 1 = CHAR_BIT then do
    let frame ← try_put_byte encoder.out_byte frame
    pure ({ encoder with out_bits_used := 0, out_byte := 0 }, frame)
  else pure ({ encoder with out_bits_used := encoder.out_bits_used + 1 }, frame)

def zero_pad_and_drain (encoder : HdlcEncoder) (frame : HdlcFrame) : Encoding (HdlcEncoder × HdlcFrame) :=
  if encoder.out_bits_used > 0 then do
    let frame ← try_put_byte encoder.out_byte frame
    pure ({ encoder with out_byte := 0, ones_run := 0, out_bits_used := 0 }, frame)
  else pure (encoder, frame)

def put_bit (encoder : HdlcEncoder) (bit : Bool) (frame : HdlcFrame) : Encoding (HdlcEncoder × HdlcFrame) := do
  let bitmask : UInt8 := if bit then 1 else 0
  let encoder := { encoder with
    ones_run := if bit then encoder.ones_run + 1 else 0
    out_byte := shift_in_bit encoder.out_byte encoder.lsb_first bitmask encoder.out_bits_used }
  let (encoder, frame) ← try_flush_byte_out encoder frame
  if encoder.ones_run = HDLC_BIT_STUFF_ONES_LIMIT then
    try_flush_byte_out { encoder with
      out_byte := shift_in_bit encoder.out_byte encoder.lsb_first 0 encoder.out_bits_used
      ones_run := 0 } frame
  else pure (encoder, frame)

def put_byte (encoder : HdlcEncoder) (byte : UInt8) (frame : HdlcFrame) : Encoding (HdlcEncoder × HdlcFrame) :=
  (List.range CHAR_BIT).foldlM (fun state i =>
    let bit_pos := if state.1.lsb_first then i else CHAR_BIT - 1 - i
    let bit := (byte >>> UInt8.ofNat bit_pos) &&& 1 ≠ 0
    put_bit state.1 bit state.2) (encoder, frame)

def encode_body (payload : List UInt8) (frame : HdlcFrame) (lsb_first : Bool) : Encoding HdlcFrame :=
  if frame.capacity < 2 ∨ frame.length ≠ 0 then failure
  else do
    let frame ← try_put_byte HDLC_FLAG_BYTE frame
    let encoder : HdlcEncoder := { out_byte := 0, out_bits_used := 0, ones_run := 0, lsb_first }
    let (encoder, frame) ← payload.foldlM (fun state byte => put_byte state.1 byte state.2) (encoder, frame)
    let crc16 := hdlc_crc16 payload
    let (encoder, frame) ← put_byte encoder ((crc16 >>> 8) &&& 0xFF).toUInt8 frame
    let (encoder, frame) ← put_byte encoder (crc16 &&& 0xFF).toUInt8 frame
    let (_, frame) ← zero_pad_and_drain encoder frame
    try_put_byte HDLC_FLAG_BYTE frame

def encode (payload : List UInt8) (frame : HdlcFrame) (lsb_first : Bool) : Traced Nat (Bool × HdlcFrame) := do
  match ← (encode_body payload frame lsb_first).run with
  | some frame => pure (true, frame)
  | none => pure (false, { frame with payload := [] })

@[simp]
theorem value_try_put_byte (byte : UInt8) (frame : HdlcFrame) :
    (try_put_byte byte frame).run.value = hdlc_try_put_byte byte frame := by
  unfold try_put_byte hdlc_try_put_byte
  split
  · rfl
  · rfl

@[simp]
theorem value_try_flush_byte_out (encoder : HdlcEncoder) (frame : HdlcFrame) :
    (try_flush_byte_out encoder frame).run.value = encoder_try_flush_byte_out encoder frame := by
  unfold try_flush_byte_out encoder_try_flush_byte_out
  split
  · rw [value_run_bind, value_try_put_byte]
    rfl
  · rfl

@[simp]
theorem value_zero_pad_and_drain (encoder : HdlcEncoder) (frame : HdlcFrame) :
    (zero_pad_and_drain encoder frame).run.value = encoder_zero_pad_and_drain encoder frame := by
  unfold zero_pad_and_drain encoder_zero_pad_and_drain
  split
  · rw [value_run_bind, value_try_put_byte]
    rfl
  · rfl

@[simp]
theorem value_put_bit (encoder : HdlcEncoder) (bit : Bool) (frame : HdlcFrame) :
    (put_bit encoder bit frame).run.value = hdlc_put_bit encoder bit frame := by
  unfold put_bit hdlc_put_bit
  rw [value_run_bind, value_try_flush_byte_out]
  refine congrArg (Option.bind _) (funext fun state => ?_)
  simp only [value_run_ite, value_try_flush_byte_out, value_run_pure]

@[simp]
theorem value_put_byte (encoder : HdlcEncoder) (byte : UInt8) (frame : HdlcFrame) :
    (put_byte encoder byte frame).run.value = hdlc_put_byte encoder byte frame := by
  simp only [put_byte, hdlc_put_byte, value_run_foldlM, value_put_bit]

theorem value_encode_body (payload : List UInt8) (frame : HdlcFrame) (lsb_first : Bool) :
    (encode_body payload frame lsb_first).run.value = hdlc_encode_body payload frame lsb_first := by
  simp only [encode_body, hdlc_encode_body, value_run_ite, value_run_bind, value_run_failure, value_try_put_byte,
    value_run_foldlM, value_put_byte, value_zero_pad_and_drain]
  rfl

/-- The writes belong to the encoder of the model. -/
theorem value_encode (payload : List UInt8) (frame : HdlcFrame) (lsb_first : Bool) :
    (encode payload frame lsb_first).value = hdlc_encode payload frame lsb_first := by
  rw [encode, value_bind, value_encode_body, hdlc_encode]
  cases hdlc_encode_body payload frame lsb_first with
  | none => rfl
  | some written => rfl

section

variable {capacity : Nat} {encoder : HdlcEncoder} {frame : HdlcFrame}

theorem ensures_try_put_byte (byte : UInt8) (hcapacity : frame.capacity = capacity) :
    Ensures (· < capacity) (try_put_byte byte frame) (·.capacity = capacity) := by
  unfold try_put_byte
  split
  · exact ensures_failure
  · rename_i hroom
    exact (ensures_access (by omega)).bind fun _ _ => ensures_pure hcapacity

theorem ensures_try_flush_byte_out (hcapacity : frame.capacity = capacity) :
    Ensures (· < capacity) (try_flush_byte_out encoder frame) (·.2.capacity = capacity) := by
  unfold try_flush_byte_out
  split
  · exact (ensures_try_put_byte _ hcapacity).bind fun _ hkept => ensures_pure hkept
  · exact ensures_pure hcapacity

theorem ensures_zero_pad_and_drain (hcapacity : frame.capacity = capacity) :
    Ensures (· < capacity) (zero_pad_and_drain encoder frame) (·.2.capacity = capacity) := by
  unfold zero_pad_and_drain
  split
  · exact (ensures_try_put_byte _ hcapacity).bind fun _ hkept => ensures_pure hkept
  · exact ensures_pure hcapacity

theorem ensures_put_bit (bit : Bool) (hcapacity : frame.capacity = capacity) :
    Ensures (· < capacity) (put_bit encoder bit frame) (·.2.capacity = capacity) := by
  refine (ensures_try_flush_byte_out hcapacity).bind fun state hkept => ?_
  dsimp only
  split
  · exact ensures_try_flush_byte_out hkept
  · exact ensures_pure hkept

theorem ensures_put_byte (byte : UInt8) (hcapacity : frame.capacity = capacity) :
    Ensures (· < capacity) (put_byte encoder byte frame) (·.2.capacity = capacity) :=
  ensures_foldlM (fun _ _ hkept => ensures_put_bit _ hkept) hcapacity

theorem ensures_encode_body (payload : List UInt8) (lsb_first : Bool) (hcapacity : frame.capacity = capacity) :
    Ensures (· < capacity) (encode_body payload frame lsb_first) (·.capacity = capacity) := by
  unfold encode_body
  split
  · exact ensures_failure
  · refine (ensures_try_put_byte _ hcapacity).bind fun frame hkept => ?_
    refine (ensures_foldlM (fun _ _ hkept => ensures_put_byte _ hkept) hkept).bind fun state hkept => ?_
    refine (ensures_put_byte _ hkept).bind fun state hkept => ?_
    refine (ensures_put_byte _ hkept).bind fun state hkept => ?_
    refine (ensures_zero_pad_and_drain hkept).bind fun state hkept => ?_
    exact ensures_try_put_byte _ hkept

end

/-- The encoder writes the frame buffer only below its capacity, whether it
succeeds or not. -/
theorem safe_encode (payload : List UInt8) (frame : HdlcFrame) (lsb_first : Bool) :
    Safe (· < frame.capacity) (encode payload frame lsb_first) := by
  refine (ensures_encode_body payload lsb_first rfl).accesses.bind ?_
  cases (encode_body payload frame lsb_first).run.value with
  | none => exact safe_pure _
  | some written => exact safe_pure _

end encoding

end ether2ser.hdlc_encoder
