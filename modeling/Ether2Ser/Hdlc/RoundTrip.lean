import Ether2Ser.Hdlc.Encoder.Frame
import Ether2Ser.Hdlc.Decoder.Frame

open Bits
open ether2ser.hdlc_common ether2ser.hdlc_encoder ether2ser.hdlc_decoder

namespace ether2ser.hdlc

/-- A successful encoder has written the frame of its payload. -/
theorem frame_of_hdlc_encode {payload : List UInt8} {capacity : Nat} {lsbFirst : Bool} {frame : HdlcFrame}
    (hencode : hdlc_encode payload (.empty capacity) lsbFirst = (true, frame)) :
    frame = { payload := encodedFrame lsbFirst payload, capacity } ∧
      (encodedFrame lsbFirst payload).length ≤ capacity := by
  rw [hdlc_encode_eq] at hencode
  split at hencode
  · rename_i hfits
    simp only [Prod.mk.injEq, true_and] at hencode
    exact ⟨hencode.symm, hfits⟩
  · simp at hencode

/-- Both flags and the two checksum bytes make a frame at least four bytes
longer than its payload. -/
theorem length_add_four_le_encodedFrame (lsbFirst : Bool) (payload : List UInt8) :
    payload.length + 4 ≤ (encodedFrame lsbFirst payload).length := by
  have hstuff := length_le_length_stuff hdlc_encoder.HDLC_BIT_STUFF_ONES_LIMIT 0
    (bytesBits lsbFirst (payload ++ crcBytes (hdlc_crc16 payload)))
  rw [length_bytesBits, List.length_append, length_crcBytes] at hstuff
  have hpacked := length_packBits lsbFirst (contentBits lsbFirst payload)
  simp only [encodedFrame, contentBits, List.length_cons, List.length_append, List.length_nil] at hpacked ⊢
  omega

/-- Worst-case stuffing adds one bit for every five. -/
theorem length_encodedFrame_le (lsbFirst : Bool) (payload : List UInt8) :
    (encodedFrame lsbFirst payload).length ≤ 2 + (6 * (payload.length + 2) + 4) / 5 := by
  have hstuff := @length_stuff_le hdlc_encoder.HDLC_BIT_STUFF_ONES_LIMIT 0
    (bytesBits lsbFirst (payload ++ crcBytes (hdlc_crc16 payload))) (by decide : 0 < _)
  rw [length_bytesBits, List.length_append, length_crcBytes, hdlc_encoder.HDLC_BIT_STUFF_ONES_LIMIT] at hstuff
  have hpacked := length_packBits lsbFirst (contentBits lsbFirst payload)
  simp only [encodedFrame, contentBits, List.length_cons, List.length_append, List.length_nil,
    hdlc_encoder.HDLC_BIT_STUFF_ONES_LIMIT] at hpacked ⊢
  omega

/-- The decoder recovers the payload of an encoded frame, whatever space is
left in the frame's own buffer. -/
theorem hdlc_decode_encodedFrame (lsbFirst : Bool) (payload : List UInt8) (capacity : Nat) {out_capacity : Nat}
    (hout : payload.length + 2 ≤ out_capacity) :
    hdlc_decode { payload := encodedFrame lsbFirst payload, capacity } out_capacity lsbFirst = .ok payload := by
  have hinside : interiorBits lsbFirst { payload := encodedFrame lsbFirst payload, capacity } =
      contentBits lsbFirst payload ++ List.replicate (padLength (contentBits lsbFirst payload).length) false := by
    rw [← bytesBits_packBits lsbFirst]
    simp [interiorBits, encodedFrame]
  have hdestuff : destuff hdlc_decoder.HDLC_BIT_STUFF_ONES_LIMIT 0
      (interiorBits lsbFirst { payload := encodedFrame lsbFirst payload, capacity }) =
      (bytesBits lsbFirst (payload ++ crcBytes (hdlc_crc16 payload)) ++
        List.replicate (padLength (contentBits lsbFirst payload).length) false, false) := by
    have hstuff := @destuff_stuff_append hdlc_decoder.HDLC_BIT_STUFF_ONES_LIMIT 0
      (bytesBits lsbFirst (payload ++ crcBytes (hdlc_crc16 payload)))
      (List.replicate (padLength (contentBits lsbFirst payload).length) false) (by decide : 0 < _)
    rw [destuff_replicate_false (stuffRun_lt _ (by decide))] at hstuff
    rw [hinside]
    exact hstuff
  have hpad : padLength (contentBits lsbFirst payload).length < 8 := Nat.mod_lt _ (by decide)
  have hlast :
      (encodedFrame lsbFirst payload).getD ((encodedFrame lsbFirst payload).length - 1) 0 = HDLC_FLAG_BYTE := by
    simp [encodedFrame, List.getD_eq_getElem?_getD]
  have hfour := length_add_four_le_encodedFrame lsbFirst payload
  rw [hdlc_decode_eq (by omega) (by simp only [HdlcFrame.length]; omega) rfl hlast hdestuff,
    wholeBytes_bytesBits_append _ (by simpa using hpad)]
  simp only [List.length_append, length_bytesBits, List.length_replicate, length_crcBytes, Bool.false_eq_true, if_false]
  rw [if_neg (by omega), hdlc_check_crc_append]

/-- Codec round trip: whatever the encoder accepts, in either bit order and at
any frame capacity, the decoder returns unchanged. -/
theorem hdlc_decode_of_hdlc_encode (payload : List UInt8) (lsbFirst : Bool) (capacity out_capacity : Nat)
    (frame : HdlcFrame) (hencode : hdlc_encode payload (.empty capacity) lsbFirst = (true, frame))
    (hout : payload.length + 2 ≤ out_capacity) : hdlc_decode frame out_capacity lsbFirst = .ok payload := by
  obtain ⟨rfl, -⟩ := frame_of_hdlc_encode hencode
  exact hdlc_decode_encodedFrame lsbFirst payload capacity hout

/-- A payload whose ones run through the byte boundary and force stuffing. -/
theorem hdlc_decode_of_hdlc_encode_ones :
    hdlc_encode [0xFF, 0x7E] (.empty 16) true =
        (true, { payload := encodedFrame true [0xFF, 0x7E], capacity := 16 }) ∧
      hdlc_decode { payload := encodedFrame true [0xFF, 0x7E], capacity := 16 } 4 true = .ok [0xFF, 0x7E] :=
  ⟨by decide +kernel, hdlc_decode_of_hdlc_encode [0xFF, 0x7E] true 16 4 _ (by decide +kernel) (by decide)⟩

end ether2ser.hdlc
