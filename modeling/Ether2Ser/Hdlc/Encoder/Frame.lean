import Ether2Ser.Hdlc.Encoder

open Bits
open ether2ser.hdlc_common

namespace ether2ser.hdlc_encoder

/-- The bits between the flags of a frame, before padding: payload and
big-endian checksum, stuffed. -/
def contentBits (lsbFirst : Bool) (payload : List UInt8) : List Bool :=
  stuff HDLC_BIT_STUFF_ONES_LIMIT 0 (bytesBits lsbFirst (payload ++ crcBytes (hdlc_crc16 payload)))

/-- The complete frame of a payload. -/
def encodedFrame (lsbFirst : Bool) (payload : List UInt8) : List UInt8 :=
  HDLC_FLAG_BYTE :: packBits lsbFirst (contentBits lsbFirst payload) ++ [HDLC_FLAG_BYTE]

/-- Encoder and frame once `bits` have been emitted behind the opening flag. -/
def written (lsbFirst : Bool) (capacity run : Nat) (bits : List Bool) : HdlcEncoder × HdlcFrame :=
  ({ out_byte := byteOfBits lsbFirst (partialBits bits)
     out_bits_used := (partialBits bits).length
     ones_run := run
     lsb_first := lsbFirst },
   { payload := HDLC_FLAG_BYTE :: wholeBytes lsbFirst bits
     capacity })

/-- The same, if the whole bytes among `bits` fit into the frame. -/
def writtenIfFits (lsbFirst : Bool) (capacity run : Nat) (bits : List Bool) : Option (HdlcEncoder × HdlcFrame) :=
  if 1 + bits.length / 8 ≤ capacity then some (written lsbFirst capacity run bits) else none

theorem writtenIfFits_of_le {lsbFirst : Bool} {capacity run : Nat} {bits : List Bool}
    (h : 1 + bits.length / 8 ≤ capacity) :
    writtenIfFits lsbFirst capacity run bits = some (written lsbFirst capacity run bits) := if_pos h

theorem writtenIfFits_of_not_le {lsbFirst : Bool} {capacity run : Nat} {bits : List Bool}
    (h : ¬ 1 + bits.length / 8 ≤ capacity) : writtenIfFits lsbFirst capacity run bits = none := if_neg h

/-- Shifting one more bit into a partial byte appends it in serial order. -/
theorem shift_in_bit_byteOfBits {lsbFirst : Bool} {bits : List Bool} (b : Bool) (hlen : bits.length < 8) :
    shift_in_bit (byteOfBits lsbFirst bits) lsbFirst (if b then 1 else 0) bits.length =
      byteOfBits lsbFirst (bits ++ [b]) := by
  rw [← byteOfBits_or_shiftLeft b hlen]
  cases lsbFirst <;> rfl

/-- Emitting one raw bit succeeds exactly when the byte it may complete fits
into the frame. -/
theorem encoder_try_flush_byte_out_written {lsbFirst : Bool} {capacity : Nat} {bits : List Bool} (run : Nat)
    (b : Bool) (hfit : 1 + bits.length / 8 ≤ capacity) :
    encoder_try_flush_byte_out
      { out_byte := shift_in_bit (byteOfBits lsbFirst (partialBits bits)) lsbFirst (if b then 1 else 0)
          (partialBits bits).length
        out_bits_used := (partialBits bits).length
        ones_run := run
        lsb_first := lsbFirst }
      { payload := HDLC_FLAG_BYTE :: wholeBytes lsbFirst bits, capacity } =
    writtenIfFits lsbFirst capacity run (bits ++ [b]) := by
  obtain ⟨bs, rest, rfl, hrest⟩ := exists_bytesBits_append lsbFirst bits
  simp only [List.length_append, length_bytesBits] at hfit
  simp only [writtenIfFits, written, wholeBytes_bytesBits_append bs hrest, partialBits_bytesBits_append bs hrest,
    shift_in_bit_byteOfBits b hrest, encoder_try_flush_byte_out, CHAR_BIT]
  by_cases hfull : rest.length + 1 = 8
  · have hbyte : bytesBits lsbFirst bs ++ rest ++ [b] =
        bytesBits lsbFirst (bs ++ [byteOfBits lsbFirst (rest ++ [b])]) ++ [] := by
      rw [bytesBits_append, bytesBits_cons, byteBits_byteOfBits (by simp; omega)]
      simp [hfull]
    have hlen : (bytesBits lsbFirst bs ++ rest ++ [b]).length / 8 = bs.length + 1 := by simp; omega
    have hzero : byteOfBits lsbFirst [] = 0 := by cases lsbFirst <;> decide
    rw [hlen, hbyte, wholeBytes_bytesBits_append _ (by simp), partialBits_bytesBits_append _ (by simp)]
    by_cases hroom : 1 + (bs.length + 1) ≤ capacity
    · have hok : ¬ bs.length + 1 + 1 > capacity := by omega
      simp [hfull, hroom, hok, hdlc_try_put_byte, HdlcFrame.length, hzero]
    · have hfail : bs.length + 1 + 1 > capacity := by omega
      simp [hfull, hroom, hfail, hdlc_try_put_byte, HdlcFrame.length]
  · have hlen : 1 + (bytesBits lsbFirst bs ++ rest ++ [b]).length / 8 ≤ capacity := by simp; omega
    rw [if_pos hlen, List.append_assoc, wholeBytes_bytesBits_append _ (by simp; omega),
      partialBits_bytesBits_append _ (by simp; omega)]
    simp [hfull]

/-- Emitting one data bit appends it, with the zero stuffed behind it if it
completes a run. -/
theorem hdlc_put_bit_written {lsbFirst : Bool} {capacity run : Nat} {bits : List Bool} (b : Bool)
    (hfit : 1 + bits.length / 8 ≤ capacity) :
    hdlc_put_bit (written lsbFirst capacity run bits).1 b (written lsbFirst capacity run bits).2 =
      writtenIfFits lsbFirst capacity (stuffRun HDLC_BIT_STUFF_ONES_LIMIT run [b])
        (bits ++ stuff HDLC_BIT_STUFF_ONES_LIMIT run [b]) := by
  have hflush := @encoder_try_flush_byte_out_written lsbFirst _ _ (if b then run + 1 else 0) b hfit
  simp only [hdlc_put_bit, written, hflush, HDLC_BIT_STUFF_ONES_LIMIT]
  by_cases hnext : 1 + (bits ++ [b]).length / 8 ≤ capacity
  · have hstuffed := @encoder_try_flush_byte_out_written lsbFirst _ _ 0 false hnext
    rw [writtenIfFits_of_le hnext]
    simp only [written, Option.bind_eq_bind, Option.bind_some]
    cases b with
    | false => exact (writtenIfFits_of_le hnext).symm
    | true =>
      by_cases hfull : run + 1 = 5
      · simp only [if_true, hfull, stuff, stuffRun, Bool.false_eq_true, if_false] at hstuffed ⊢
        rw [hstuffed]
        simp
      · simp only [if_true, stuff, stuffRun, hfull, if_false]
        exact (writtenIfFits_of_le hnext).symm
  · have hlong : ¬ 1 + (bits ++ stuff 5 run [b]).length / 8 ≤ capacity := by
      have hle : 1 ≤ (stuff 5 run [b]).length := by cases b <;> simp [stuff]; split <;> simp
      simp only [List.length_append, List.length_singleton] at hnext ⊢
      omega
    rw [writtenIfFits_of_not_le hnext, writtenIfFits_of_not_le hlong]
    rfl

/-- Emitting the bits of a byte at the given serial positions appends them,
stuffed. Once a byte did not fit, nothing later does. -/
private theorem foldlM_hdlc_put_bit_written {lsbFirst : Bool} {capacity : Nat} (byte : UInt8) (indices : List Nat)
    (hindices : ∀ i ∈ indices, i < 8) (run : Nat) (bits : List Bool) :
    (writtenIfFits lsbFirst capacity run bits).bind (fun state => indices.foldlM (fun state i =>
      let bit_pos := if state.1.lsb_first then i else CHAR_BIT - 1 - i
      let bit := (byte >>> UInt8.ofNat bit_pos) &&& 1 ≠ 0
      hdlc_put_bit state.1 bit state.2) state) =
    writtenIfFits lsbFirst capacity
      (stuffRun HDLC_BIT_STUFF_ONES_LIMIT run (indices.map fun i => bitAt byte (bitPos lsbFirst i)))
      (bits ++ stuff HDLC_BIT_STUFF_ONES_LIMIT run (indices.map fun i => bitAt byte (bitPos lsbFirst i))) := by
  induction indices generalizing run bits with
  | nil => simp [stuff, stuffRun]
  | cons i indices ih =>
    by_cases hfit : 1 + bits.length / 8 ≤ capacity
    · have hbit : decide ((byte >>> UInt8.ofNat (if lsbFirst then i else CHAR_BIT - 1 - i)) &&& 1 ≠ 0) =
          bitAt byte (bitPos lsbFirst i) := by
        have hpos := @bitPos_lt lsbFirst _ (hindices i (by simp))
        rw [show (if lsbFirst then i else CHAR_BIT - 1 - i) = bitPos lsbFirst i from rfl, shiftRight_and_one hpos]
        cases bitAt byte (bitPos lsbFirst i) <;> rfl
      have htail := ih (fun j hj => hindices j (by simp [hj]))
        (stuffRun HDLC_BIT_STUFF_ONES_LIMIT run [bitAt byte (bitPos lsbFirst i)])
        (bits ++ stuff HDLC_BIT_STUFF_ONES_LIMIT run [bitAt byte (bitPos lsbFirst i)])
      rw [writtenIfFits_of_le hfit, Option.bind_some, List.foldlM_cons]
      simp only [show (written lsbFirst capacity run bits).1.lsb_first = lsbFirst from rfl, hbit,
        hdlc_put_bit_written _ hfit, Option.bind_eq_bind]
      rw [htail, List.append_assoc, ← stuff_cons, ← stuffRun_cons, List.map_cons]
    · have hlong : ∀ tail : List Bool, ¬ 1 + (bits ++ tail).length / 8 ≤ capacity := by
        intro tail
        rw [List.length_append]
        omega
      rw [writtenIfFits_of_not_le hfit, writtenIfFits_of_not_le (hlong _)]
      rfl

/-- Emitting a byte string emits its stuffed bits in serial order. -/
theorem foldlM_hdlc_put_byte_written {lsbFirst : Bool} {capacity : Nat} (bytes : List UInt8) (run : Nat)
    (bits : List Bool) :
    (writtenIfFits lsbFirst capacity run bits).bind
      (fun state => bytes.foldlM (fun state byte => hdlc_put_byte state.1 byte state.2) state) =
    writtenIfFits lsbFirst capacity (stuffRun HDLC_BIT_STUFF_ONES_LIMIT run (bytesBits lsbFirst bytes))
      (bits ++ stuff HDLC_BIT_STUFF_ONES_LIMIT run (bytesBits lsbFirst bytes)) := by
  induction bytes generalizing run bits with
  | nil => simp [stuff, stuffRun]
  | cons byte bytes ih =>
    have hbyte := @foldlM_hdlc_put_bit_written lsbFirst capacity byte (List.range 8)
      (fun i hi => List.mem_range.mp hi) run bits
    have htail := ih (stuffRun HDLC_BIT_STUFF_ONES_LIMIT run (byteBits lsbFirst byte))
      (bits ++ stuff HDLC_BIT_STUFF_ONES_LIMIT run (byteBits lsbFirst byte))
    rw [bytesBits_cons, stuff_append, stuffRun_append, ← List.append_assoc, ← htail]
    simp only [List.foldlM_cons, Option.bind_eq_bind, ← Option.bind_assoc]
    congr 1

private theorem encoder_zero_pad_and_drain_written {lsbFirst : Bool} {capacity run : Nat} {bits : List Bool}
    (hfit : 1 + bits.length / 8 ≤ capacity) :
    (encoder_zero_pad_and_drain (written lsbFirst capacity run bits).1 (written lsbFirst capacity run bits).2).map
      Prod.snd =
    if 1 + (packBits lsbFirst bits).length ≤ capacity then
      some { payload := HDLC_FLAG_BYTE :: packBits lsbFirst bits, capacity } else none := by
  obtain ⟨bs, rest, rfl, hrest⟩ := exists_bytesBits_append lsbFirst bits
  simp only [List.length_append, length_bytesBits] at hfit
  simp only [written, encoder_zero_pad_and_drain, wholeBytes_bytesBits_append bs hrest,
    partialBits_bytesBits_append bs hrest, packBits_bytesBits_append]
  by_cases hpad : rest = []
  · have hroom : 1 + bs.length ≤ capacity := by omega
    simp [hpad, packBits, hroom]
  · have hpos : 0 < rest.length := List.length_pos_of_ne_nil hpad
    simp only [packBits_of_lt hpad hrest, gt_iff_lt, hpos, if_true, hdlc_try_put_byte, HdlcFrame.length,
      List.length_cons, List.length_append, List.length_nil]
    by_cases hroom : 1 + (bs.length + 1) ≤ capacity
    · have hok : ¬ capacity < bs.length + 1 + 1 := by omega
      simp [hroom, hok]
    · have hfail : capacity < bs.length + 1 + 1 := by omega
      simp [hroom, hfail]

private theorem hdlc_encode_body_eq_bind {capacity : Nat} (payload : List UInt8) (lsbFirst : Bool)
    (hcapacity : 2 ≤ capacity) :
    hdlc_encode_body payload (.empty capacity) lsbFirst =
      (((writtenIfFits lsbFirst capacity 0 []).bind fun state =>
        (payload ++ crcBytes (hdlc_crc16 payload)).foldlM (fun state byte => hdlc_put_byte state.1 byte state.2)
          state).bind fun state =>
      ((encoder_zero_pad_and_drain state.1 state.2).map Prod.snd).bind fun frame =>
      hdlc_try_put_byte HDLC_FLAG_BYTE frame) := by
  have hstart : written lsbFirst capacity 0 [] =
      ({ out_byte := 0, out_bits_used := 0, ones_run := 0, lsb_first := lsbFirst },
       { payload := [HDLC_FLAG_BYTE], capacity }) := by
    cases lsbFirst <;> rfl
  have hfits : 1 + ([] : List Bool).length / 8 ≤ capacity := by simp; omega
  rw [writtenIfFits_of_le hfits, hstart, hdlc_encode_body, if_neg (by simp [HdlcFrame.empty, HdlcFrame.length]; omega)]
  have hflag : hdlc_try_put_byte HDLC_FLAG_BYTE (.empty capacity) = some { payload := [HDLC_FLAG_BYTE], capacity } := by
    simp [hdlc_try_put_byte, HdlcFrame.empty, HdlcFrame.length]
    omega
  rw [hflag]
  simp only [Option.bind_eq_bind, Option.bind_some, crcBytes, List.foldlM_append, List.foldlM_cons, List.foldlM_nil,
    Option.bind_assoc, Option.pure_def, Option.bind_map]
  rfl

/-- The encoder writes the frame of its payload exactly when that frame fits;
otherwise it fails and leaves the frame empty. -/
theorem hdlc_encode_eq (payload : List UInt8) (capacity : Nat) (lsbFirst : Bool) :
    hdlc_encode payload (.empty capacity) lsbFirst =
      if (encodedFrame lsbFirst payload).length ≤ capacity then
        (true, { payload := encodedFrame lsbFirst payload, capacity })
      else (false, .empty capacity) := by
  have hlen : (encodedFrame lsbFirst payload).length =
      (packBits lsbFirst (contentBits lsbFirst payload)).length + 2 := by
    simp [encodedFrame]
  have hbody : hdlc_encode_body payload (.empty capacity) lsbFirst =
      if (encodedFrame lsbFirst payload).length ≤ capacity then
        some { payload := encodedFrame lsbFirst payload, capacity } else none := by
    by_cases hcapacity : 2 ≤ capacity
    · rw [hdlc_encode_body_eq_bind payload lsbFirst hcapacity, foldlM_hdlc_put_byte_written, List.nil_append]
      change (writtenIfFits lsbFirst capacity _ (contentBits lsbFirst payload)).bind _ = _
      have hpacked := length_packBits lsbFirst (contentBits lsbFirst payload)
      by_cases hfit : 1 + (contentBits lsbFirst payload).length / 8 ≤ capacity
      · rw [writtenIfFits_of_le hfit, Option.bind_some, encoder_zero_pad_and_drain_written hfit]
        by_cases hroom : 1 + (packBits lsbFirst (contentBits lsbFirst payload)).length ≤ capacity
        · rw [if_pos hroom, Option.bind_some, hdlc_try_put_byte]
          by_cases hclose : (encodedFrame lsbFirst payload).length ≤ capacity
          · rw [if_pos hclose, if_neg (by simp [HdlcFrame.length]; omega)]
            rfl
          · rw [if_neg hclose, if_pos (by simp [HdlcFrame.length]; omega)]
        · rw [if_neg hroom, if_neg (by omega)]
          rfl
      · rw [writtenIfFits_of_not_le hfit, if_neg (by omega)]
        rfl
    · rw [hdlc_encode_body, if_pos (Or.inl (by simp [HdlcFrame.empty]; omega)), if_neg (by omega)]
  rw [hdlc_encode, hbody]
  split_ifs <;> rfl

end ether2ser.hdlc_encoder
