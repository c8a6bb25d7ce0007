import Ether2Ser.Hdlc.Decoder

open Bits
open ether2ser.hdlc_common

namespace ether2ser.hdlc_decoder

/-- The bits between the two flag bytes of a frame, in serial order. -/
def interiorBits (lsbFirst : Bool) (frame : HdlcFrame) : List Bool := bytesBits lsbFirst frame.payload.tail.dropLast

/-- The decoder before raw bit `index`, behind a run of `run` ones. The source
marks the bit to be skipped exactly while the run is complete. -/
def decoderAt (lsbFirst : Bool) (index run : Nat) : HdlcDecoder :=
  { ones_run := run
    raw_bit_index := index
    skip_next_zero := decide (run = HDLC_BIT_STUFF_ONES_LIMIT)
    lsb_first := lsbFirst }

theorem length_interiorBits {lsbFirst : Bool} {frame : HdlcFrame} :
    (interiorBits lsbFirst frame).length = raw_bits_total frame := by
  have hinside : (interiorBits lsbFirst frame).length = 8 * (frame.length - 1 - 1) := by
    simp [interiorBits, HdlcFrame.length]
  rw [hinside, raw_bits_total, CHAR_BIT]
  split <;> omega

/-- The raw bit the decoder reads is the interior bit at its index. -/
theorem hdlc_dec_get_out_bit_eq {lsbFirst : Bool} {frame : HdlcFrame} {index run : Nat} {b : Bool}
    (hbit : (interiorBits lsbFirst frame)[index]? = some b) :
    hdlc_dec_get_out_bit (decoderAt lsbFirst index run) frame = if b then 1 else 0 := by
  rw [interiorBits, getElem?_bytesBits, Option.map_eq_some_iff] at hbit
  obtain ⟨byte, hbyte, rfl⟩ := hbit
  have hread : frame.payload.getD (hdlc_dec_byte_idx index) 0 = byte := by
    obtain ⟨hlt, heq⟩ := List.getElem?_eq_some_iff.mp hbyte
    rw [List.getElem_dropLast, List.getElem_tail] at heq
    simp only [List.length_dropLast, List.length_tail] at hlt
    rw [List.getD_eq_getElem?_getD, hdlc_dec_byte_idx, CHAR_BIT, Nat.add_comm, List.getElem?_eq_getElem (by omega), heq]
    rfl
  have hpos : hdlc_dec_bit_pos (decoderAt lsbFirst index run) = bitPos lsbFirst (index % 8) := rfl
  rw [hdlc_dec_get_out_bit, hpos, show (decoderAt lsbFirst index run).raw_bit_index = index from rfl, hread,
    shiftRight_and_one (bitPos_lt (Nat.mod_lt _ (by decide)))]

/-- What reading a bit returns, given the destuffed rest of the frame. -/
inductive BitRead (lsbFirst : Bool) (frame : HdlcFrame) (index : Nat) :
    List Bool × Bool → HdlcDecoderBitType × HdlcDecoder × UInt8 → Prop where
  | eof (decoder : HdlcDecoder) (out : UInt8) : BitRead lsbFirst frame index ([], false) (.HDLC_BIT_EOF, decoder, out)
  | err (decoder : HdlcDecoder) (out : UInt8) : BitRead lsbFirst frame index ([], true) (.HDLC_BIT_ERR, decoder, out)
  | ok {b : Bool} {bits : List Bool} {bad : Bool} {next run : Nat} (hnext : index < next)
      (hrun : run ≤ HDLC_BIT_STUFF_ONES_LIMIT)
      (hrest : destuff HDLC_BIT_STUFF_ONES_LIMIT run ((interiorBits lsbFirst frame).drop next) = (bits, bad)) :
      BitRead lsbFirst frame index (b :: bits, bad)
        (.HDLC_BIT_OK, decoderAt lsbFirst next run, if b then 1 else 0)

theorem BitRead.of_succ {lsbFirst : Bool} {frame : HdlcFrame} {index : Nat} {rest : List Bool × Bool}
    {result : HdlcDecoderBitType × HdlcDecoder × UInt8} (h : BitRead lsbFirst frame (index + 1) rest result) :
    BitRead lsbFirst frame index rest result := by
  cases h with
  | eof decoder out => exact .eof decoder out
  | err decoder out => exact .err decoder out
  | ok hnext hrun hrest => exact .ok (by omega) hrun hrest

theorem hdlc_get_bit_loop_read {lsbFirst : Bool} {frame : HdlcFrame} (left : Nat) {index run : Nat} (out : UInt8)
    (hrun : run ≤ HDLC_BIT_STUFF_ONES_LIMIT) (hleft : left = raw_bits_total frame - index) :
    BitRead lsbFirst frame index (destuff HDLC_BIT_STUFF_ONES_LIMIT run ((interiorBits lsbFirst frame).drop index))
      (hdlc_get_bit_loop frame left (decoderAt lsbFirst index run) out) := by
  induction left generalizing index run with
  | zero =>
    have hnil : (interiorBits lsbFirst frame).drop index = [] := by
      rw [List.drop_eq_nil_iff, length_interiorBits]
      omega
    rw [hnil]
    exact .eof _ _
  | succ left ih =>
    have hlt : index < (interiorBits lsbFirst frame).length := by
      rw [length_interiorBits]
      omega
    obtain ⟨b, hb⟩ : ∃ b, (interiorBits lsbFirst frame)[index]? = some b := ⟨_, List.getElem?_eq_getElem hlt⟩
    have hdrop : (interiorBits lsbFirst frame).drop index = b :: (interiorBits lsbFirst frame).drop (index + 1) := by
      rw [List.drop_eq_getElem_cons hlt]
      rw [List.getElem?_eq_getElem hlt, Option.some.injEq] at hb
      rw [hb]
    have hraw := @hdlc_dec_get_out_bit_eq lsbFirst frame index run _ hb
    rw [hdrop, hdlc_get_bit_loop, hraw]
    by_cases hfull : run = HDLC_BIT_STUFF_ONES_LIMIT
    · cases b with
      | true =>
        simp only [destuff, hfull, if_true]
        exact .err _ _
      | false =>
        have hread := @ih (index + 1) 0 (by decide) (by omega)
        simp only [destuff, hfull, if_true]
        exact hread.of_succ
    · have hskip : (decoderAt lsbFirst index run).skip_next_zero = false := by simp [decoderAt, hfull]
      simp only [destuff, hfull, if_false, hskip, Bool.false_eq_true]
      cases b with
      | false => exact .ok (Nat.lt_succ_self _) (Nat.zero_le _) rfl
      | true =>
        have hnext := @BitRead.ok lsbFirst frame _ true _ _ _ (run + 1)
          (Nat.lt_succ_self index) (by omega) rfl
        by_cases hlast : run + 1 = HDLC_BIT_STUFF_ONES_LIMIT
        · simpa [decoderAt, hlast] using hnext
        · simpa [decoderAt, hlast, hfull] using hnext

theorem hdlc_get_bit_read {lsbFirst : Bool} {frame : HdlcFrame} {index run : Nat}
    (hrun : run ≤ HDLC_BIT_STUFF_ONES_LIMIT) :
    BitRead lsbFirst frame index (destuff HDLC_BIT_STUFF_ONES_LIMIT run ((interiorBits lsbFirst frame).drop index))
      (hdlc_get_bit (decoderAt lsbFirst index run) frame) :=
  hdlc_get_bit_loop_read _ 0 hrun rfl

end ether2ser.hdlc_decoder
