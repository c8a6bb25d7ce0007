import Ether2Ser.Hdlc.Decoder.Bits

open Bits
open ether2ser.hdlc_common

namespace ether2ser.hdlc_decoder

/-- Reading the remaining bits of a byte consumes them from the destuffed rest
of the frame, or reports why the rest is too short. -/
theorem hdlc_get_byte_loop_read {lsbFirst : Bool} {frame : HdlcFrame} (count : Nat) {seen : List Bool}
    {index run : Nat} {bits : List Bool} {bad : Bool} (hcount : seen.length + count = 8)
    (hrun : run ≤ HDLC_BIT_STUFF_ONES_LIMIT)
    (hrest : destuff HDLC_BIT_STUFF_ONES_LIMIT run ((interiorBits lsbFirst frame).drop index) = (bits, bad)) :
    let result := hdlc_get_byte_loop frame (List.range' seen.length count) (decoderAt lsbFirst index run)
      (byteOfBits lsbFirst seen)
    if bits.length < count then result.1 = if bad then .HDLC_BIT_ERR else .HDLC_BIT_EOF
    else ∃ next run', result =
        (.HDLC_BIT_OK, decoderAt lsbFirst next run', byteOfBits lsbFirst (seen ++ bits.take count)) ∧
      run' ≤ HDLC_BIT_STUFF_ONES_LIMIT ∧
      destuff HDLC_BIT_STUFF_ONES_LIMIT run' ((interiorBits lsbFirst frame).drop next) = (bits.drop count, bad) := by
  induction count generalizing seen index run bits with
  | zero =>
    simp only [Nat.not_lt_zero, if_false]
    exact ⟨index, run, by simp [hdlc_get_byte_loop], hrun, by simpa using hrest⟩
  | succ count ih =>
    have hread := @hdlc_get_bit_read lsbFirst frame index _ hrun
    rw [hrest] at hread
    simp only [List.range'_succ, hdlc_get_byte_loop]
    generalize hdlc_get_bit (decoderAt lsbFirst index run) frame = result at hread
    cases hread with
    | eof decoder out => simp
    | err decoder out => simp
    | @ok b bits bad next run' hnext hrun' hrest' =>
      have hlen : (seen ++ [b]).length + count = 8 := by simp; omega
      have hstep := ih hlen hrun' hrest'
      have hbyte : byteOfBits lsbFirst seen |||
          ((if b then 1 else 0) <<< UInt8.ofNat (if lsbFirst then seen.length else CHAR_BIT - 1 - seen.length)) =
          byteOfBits lsbFirst (seen ++ [b]) := byteOfBits_or_shiftLeft b (by omega)
      simp only [List.length_append, List.length_singleton] at hstep
      simp only [show (decoderAt lsbFirst next run').lsb_first = lsbFirst from rfl, hbyte, List.length_cons,
        Nat.add_lt_add_iff_right, List.take_succ_cons, List.drop_succ_cons]
      simpa using hstep

/-- Reading a byte takes eight destuffed bits. -/
theorem hdlc_get_byte_read {lsbFirst : Bool} {frame : HdlcFrame} {index run : Nat} {bits : List Bool} {bad : Bool}
    (hrun : run ≤ HDLC_BIT_STUFF_ONES_LIMIT)
    (hrest : destuff HDLC_BIT_STUFF_ONES_LIMIT run ((interiorBits lsbFirst frame).drop index) = (bits, bad)) :
    let result := hdlc_get_byte (decoderAt lsbFirst index run) frame
    if bits.length < 8 then result.1 = if bad then .HDLC_BIT_ERR else .HDLC_BIT_EOF
    else ∃ next run', result = (.HDLC_BIT_OK, decoderAt lsbFirst next run', byteOfBits lsbFirst (bits.take 8)) ∧
      run' ≤ HDLC_BIT_STUFF_ONES_LIMIT ∧
      destuff HDLC_BIT_STUFF_ONES_LIMIT run' ((interiorBits lsbFirst frame).drop next) = (bits.drop 8, bad) := by
  have hzero : byteOfBits lsbFirst [] = 0 := by cases lsbFirst <;> decide
  have hread := hdlc_get_byte_loop_read 8 (by simp : [].length + 8 = 8) hrun hrest
  simpa only [hdlc_get_byte, List.range_eq_range', CHAR_BIT, hzero, List.length_nil, List.nil_append] using hread

/-- The byte loop collects the whole bytes of the destuffed rest. Running out
of output space is noticed at the byte that does not fit, a stuffing violation
only if all bytes before it did. -/
theorem hdlc_decode_loop_eq {lsbFirst : Bool} {frame : HdlcFrame} {out_capacity : Nat} (turns : Nat) {index run : Nat}
    {bits : List Bool} {bad : Bool} (payload : List UInt8) (hturns : raw_bits_total frame - index < turns)
    (hrun : run ≤ HDLC_BIT_STUFF_ONES_LIMIT)
    (hrest : destuff HDLC_BIT_STUFF_ONES_LIMIT run ((interiorBits lsbFirst frame).drop index) = (bits, bad))
    (hroom : payload.length ≤ out_capacity) :
    hdlc_decode_loop frame out_capacity turns (decoderAt lsbFirst index run) payload =
      some (if out_capacity < payload.length + bits.length / 8 then .error .payload_too_long
        else if bad then .error .unstuff_error else .ok (payload ++ wholeBytes lsbFirst bits)) := by
  induction turns generalizing index run bits payload with
  | zero => omega
  | succ turns ih =>
    have hread := hdlc_get_byte_read hrun hrest
    by_cases hshort : bits.length < 8
    · have hnone : wholeBytes lsbFirst bits = [] := wholeBytes_bytesBits_append [] hshort
      simp only [hshort, if_true] at hread
      have hfits : ¬ out_capacity < payload.length + bits.length / 8 := by omega
      rw [if_neg hfits, hnone, List.append_nil, hdlc_decode_loop]
      cases bad with
      | true =>
        split <;> simp_all
      | false =>
        split <;> simp_all
    · simp only [hshort, if_false] at hread
      obtain ⟨next, run', hbyte, hrun', hrest'⟩ := hread
      have hadvance := hdlc_get_byte_loop_advances hbyte
      simp only [CHAR_BIT, List.length_range,
        show ∀ i r, (decoderAt lsbFirst i r).raw_bit_index = i from fun _ _ => rfl]
        at hadvance
      rw [hdlc_decode_loop, hbyte]
      by_cases hfull : payload.length ≥ out_capacity
      · have hover : out_capacity < payload.length + bits.length / 8 := by omega
        simp [hfull, hover]
      · have hwhole := @wholeBytes_of_le lsbFirst _ (Nat.le_of_not_lt hshort)
        have hdrop : payload.length + 1 + (bits.drop 8).length / 8 = payload.length + bits.length / 8 := by
          rw [List.length_drop]
          omega
        have hstep := ih (payload ++ [byteOfBits lsbFirst (bits.take 8)]) (by omega) hrun' hrest' (by simp; omega)
        simp only [List.length_append, List.length_singleton, hdrop] at hstep
        simp only [hfull, if_false, hstep, hwhole, List.append_assoc, List.singleton_append]

/-- What the decoder does with the interior of a frame between two flags. -/
theorem hdlc_decode_eq {lsbFirst : Bool} {frame : HdlcFrame} {out_capacity : Nat} (hcapacity : 0 < out_capacity)
    (hlength : 2 ≤ frame.length) (hopen : frame.payload.getD 0 0 = HDLC_FLAG_BYTE)
    (hclose : frame.payload.getD (frame.length - 1) 0 = HDLC_FLAG_BYTE) {bits : List Bool} {bad : Bool}
    (hbits : destuff HDLC_BIT_STUFF_ONES_LIMIT 0 (interiorBits lsbFirst frame) = (bits, bad)) :
    hdlc_decode frame out_capacity lsbFirst =
      if out_capacity < bits.length / 8 then .error .payload_too_long
      else if bad then .error .unstuff_error
      else hdlc_check_crc (wholeBytes lsbFirst bits) := by
  have hrest : destuff HDLC_BIT_STUFF_ONES_LIMIT 0 ((interiorBits lsbFirst frame).drop 0) = (bits, bad) := by
    simpa using hbits
  have hloop := @hdlc_decode_loop_eq _ _ out_capacity (raw_bits_total frame + 1) 0 0 _ _ [] (by omega) (by decide)
    hrest (by simp)
  have hguard : ¬ (out_capacity = 0 ∨ frame.length < 2 ∨ frame.payload.getD 0 0 ≠ HDLC_FLAG_BYTE ∨
      frame.payload.getD (frame.length - 1) 0 ≠ HDLC_FLAG_BYTE) := by
    rintro (h | h | h | h)
    · omega
    · omega
    · exact h hopen
    · exact h hclose
  have hstart : decoderAt lsbFirst 0 0 =
      { ones_run := 0, raw_bit_index := 0, skip_next_zero := false, lsb_first := lsbFirst } := rfl
  rw [hdlc_decode, if_neg hguard]
  simp only [← hstart, hloop, Option.get_some, List.length_nil, Nat.zero_add, List.nil_append]
  split_ifs <;> rfl

/-- What the check at the end of the decoders tests. -/
theorem hdlc_check_crc_append_two (payload : List UInt8) (high low : UInt8) :
    hdlc_check_crc (payload ++ [high, low]) =
      if crcOfBytes high low = hdlc_crc16 payload then .ok payload else .error .crc_mismatch := by
  have hlength : (payload ++ [high, low]).length = payload.length + 2 := List.length_append
  have hhigh : (payload ++ [high, low]).getD payload.length 0 = high := by
    simp [List.getD_eq_getElem?_getD]
  have hlow : (payload ++ [high, low]).getD (payload.length + 1) 0 = low := by
    simp [List.getD_eq_getElem?_getD]
  simp only [hdlc_check_crc, hlength, Nat.add_sub_cancel, show payload.length + 2 - 1 = payload.length + 1 by omega,
    hhigh, hlow, List.take_left]
  rw [if_neg (by omega)]
  split_ifs <;> simp_all

/-- Bytes that end with their checksum pass the check. -/
theorem hdlc_check_crc_append (payload : List UInt8) :
    hdlc_check_crc (payload ++ crcBytes (hdlc_crc16 payload)) = .ok payload := by
  rw [crcBytes, hdlc_check_crc_append_two, if_pos (crcOfBytes_crcBytes _)]

end ether2ser.hdlc_decoder
