import Ether2Ser.Bits.Lfsr
import Ether2Ser.Hdlc.Decoder.Frame

open Bits
open ether2ser.hdlc_common ether2ser.hdlc_decoder

namespace ether2ser.hdlc_common

/-- The register that `crc16_ccitt_false` steps. -/
def ccitt : Lfsr 16 := ⟨HDLC_CRC16_CCITT_POLY.toBitVec⟩

/-- A byte where the CRC adds it, in the upper half of the register. -/
def crcSymbol (byte : UInt8) : BitVec 16 := (byte.toUInt16 <<< 8).toBitVec

/-- The register after all bytes, the checksum included. -/
def crcResidue (bytes : List UInt8) : UInt16 := bytes.foldl crc16_byte HDLC_CRC16_CCITT_INIT

theorem ccitt_odd : ccitt.poly.getLsbD 0 = true := by decide

theorem ccitt_even : Lfsr.parity ccitt.poly = true := by decide

theorem msb_mask_ne_zero_iff (crc16 : UInt16) :
    crc16 &&& HDLC_CRC16_CCITT_MSB_MASK ≠ 0 ↔ crc16.toBitVec.msb = true := by
  have hmask : (crc16 &&& HDLC_CRC16_CCITT_MSB_MASK).toBitVec =
      if crc16.toBitVec.getLsbD 15 then BitVec.twoPow 16 15 else 0 := by
    rw [UInt16.toBitVec_and]
    exact BitVec.and_twoPow _ 15
  rw [BitVec.msb_eq_getLsbD_last, ne_eq, ← UInt16.toBitVec_inj, hmask]
  cases hbit : crc16.toBitVec.getLsbD 15 with
  | false => simp
  | true => simp

theorem toBitVec_crc16_shift (crc16 : UInt16) : (crc16_shift crc16).toBitVec = ccitt.shift crc16.toBitVec := by
  unfold crc16_shift Lfsr.shift
  simp only [msb_mask_ne_zero_iff]
  split
  · rfl
  · rfl

theorem toBitVec_repeat_crc16_shift (n : Nat) (crc16 : UInt16) :
    (Nat.repeat crc16_shift n crc16).toBitVec = ccitt.shifts n crc16.toBitVec := by
  induction n with
  | zero => rfl
  | succ n ih => rw [Nat.repeat, toBitVec_crc16_shift, ih, ccitt.shifts_add n 1, Lfsr.shifts, Lfsr.shifts]

theorem toBitVec_crc16_byte (crc16 : UInt16) (byte : UInt8) :
    (crc16_byte crc16 byte).toBitVec = ccitt.absorb 8 crc16.toBitVec (crcSymbol byte) :=
  toBitVec_repeat_crc16_shift 8 _

theorem toBitVec_foldl_crc16_byte (crc16 : UInt16) (bytes : List UInt8) :
    (bytes.foldl crc16_byte crc16).toBitVec = ccitt.residue 8 crc16.toBitVec (bytes.map crcSymbol) := by
  induction bytes generalizing crc16 with
  | nil => rfl
  | cons byte bytes ih =>
    rw [List.foldl_cons, ih, toBitVec_crc16_byte]
    rfl

theorem hdlc_crc16_eq (payload : List UInt8) : hdlc_crc16 payload = crcResidue payload := by
  have hmask : ∀ crc16 : UInt16, crc16 &&& HDLC_CRC16_CCITT_INIT = crc16 := by
    intro crc16
    apply UInt16.toNat_inj.mp
    rw [UInt16.toNat_and]
    exact (Nat.and_two_pow_sub_one_eq_mod crc16.toNat 16).trans (Nat.mod_eq_of_lt crc16.toNat_lt)
  exact hmask _

theorem getLsbD_crcSymbol {byte : UInt8} {i : Nat} (hi : i < 16) :
    (crcSymbol byte).getLsbD i = (decide (8 ≤ i) && bitAt byte (i - 8)) := by
  have hsymbol : crcSymbol byte = byte.toBitVec.setWidth 16 <<< 8 := rfl
  have hle : (!decide (i < 8)) = decide (8 ≤ i) := by
    rw [← decide_not, decide_eq_decide]
    exact Nat.not_lt
  rw [hsymbol, BitVec.getLsbD_shiftLeft, BitVec.getLsbD_setWidth, hle, bitAt]
  simp [hi, show i - 8 < 16 by omega]

/-- Two bytes read as a checksum are the two symbols, the second one eight
shifts earlier. -/
theorem shifts_crcOfBytes (high low : UInt8) :
    ccitt.shifts 8 (crcOfBytes high low).toBitVec = ccitt.shifts 8 (crcSymbol high) ^^^ crcSymbol low := by
  have hlow : ccitt.shifts 8 (low.toBitVec.setWidth 16) = crcSymbol low := by
    apply Lfsr.shifts_of_high_zero
    intro i hi
    rw [BitVec.getLsbD_setWidth, BitVec.getLsbD_of_ge _ _ (show 8 ≤ i by omega), Bool.and_false]
  have hjoin : (crcOfBytes high low).toBitVec = crcSymbol high ^^^ low.toBitVec.setWidth 16 := by
    have hor : (crcOfBytes high low).toBitVec = crcSymbol high ||| low.toBitVec.setWidth 16 := rfl
    apply BitVec.eq_of_getLsbD_eq
    intro i hi
    rw [hor, BitVec.getLsbD_or, BitVec.getLsbD_xor, getLsbD_crcSymbol hi, BitVec.getLsbD_setWidth]
    by_cases hlow : i < 8
    · have hhigh : ¬ 8 ≤ i := by omega
      simp [hhigh]
    · rw [BitVec.getLsbD_of_ge _ _ (show 8 ≤ i by omega)]
      simp
  rw [hjoin, Lfsr.shifts_xor, hlow]

theorem eq_zero_iff_toBitVec (crc16 : UInt16) : crc16 = 0 ↔ crc16.toBitVec = 0 := UInt16.toBitVec_inj.symm

/-- The register is cleared by its own two bytes and by no others. -/
theorem crc16_byte_crc16_byte_eq_zero_iff (crc16 : UInt16) (high low : UInt8) :
    crc16_byte (crc16_byte crc16 high) low = 0 ↔ crcOfBytes high low = crc16 := by
  rw [eq_zero_iff_toBitVec, toBitVec_crc16_byte, toBitVec_crc16_byte, Lfsr.absorb, Lfsr.shifts_eq_zero_iff ccitt_odd,
    Lfsr.absorb, Lfsr.shifts_xor, BitVec.xor_assoc, ← shifts_crcOfBytes, ← Lfsr.shifts_xor,
    Lfsr.shifts_eq_zero_iff ccitt_odd, ← UInt16.toBitVec_inj]
  constructor
  · intro h
    exact (BitVec.xor_eq_zero_iff.mp h).symm
  · intro h
    exact BitVec.xor_eq_zero_iff.mpr h.symm

/-- Zero bytes never clear the register. -/
theorem foldl_crc16_byte_replicate_zero_eq_zero_iff (crc16 : UInt16) (count : Nat) :
    (List.replicate count 0).foldl crc16_byte crc16 = 0 ↔ crc16 = 0 := by
  have hsymbol : crcSymbol 0 = 0 := rfl
  rw [eq_zero_iff_toBitVec, toBitVec_foldl_crc16_byte, List.map_replicate, hsymbol,
    Lfsr.residue_replicate_zero_eq_zero_iff ccitt_odd, ← eq_zero_iff_toBitVec]

/-- The bytes end with the big-endian checksum of those before. -/
def EndsWithCrc (bytes : List UInt8) : Prop :=
  2 ≤ bytes.length ∧
    bytes.drop (bytes.length - 2) = crcBytes (hdlc_crc16 (bytes.take (bytes.length - 2)))

theorem exists_append_two {bytes : List UInt8} (htwo : 2 ≤ bytes.length) :
    ∃ payload high low, bytes = payload ++ [high, low] := by
  have hlength : (bytes.drop (bytes.length - 2)).length = 2 := by
    rw [List.length_drop]
    omega
  obtain ⟨high, low, hlast⟩ := List.length_eq_two.mp hlength
  exact ⟨bytes.take (bytes.length - 2), high, low, by rw [← hlast, List.take_append_drop]⟩

theorem crcResidue_append_two (payload : List UInt8) (high low : UInt8) :
    crcResidue (payload ++ [high, low]) = 0 ↔ crcOfBytes high low = hdlc_crc16 payload := by
  rw [crcResidue, List.foldl_append, hdlc_crc16_eq]
  exact crc16_byte_crc16_byte_eq_zero_iff _ high low

/-- The checksum is right exactly when it clears the register. -/
theorem endsWithCrc_iff_crcResidue {bytes : List UInt8} (htwo : 2 ≤ bytes.length) :
    EndsWithCrc bytes ↔ crcResidue bytes = 0 := by
  obtain ⟨payload, high, low, rfl⟩ := exists_append_two htwo
  rw [crcResidue_append_two, EndsWithCrc, List.length_append, List.length_cons, List.length_singleton,
    Nat.add_sub_cancel, List.drop_left, List.take_left, eq_crcBytes_iff]
  exact and_iff_right (Nat.le_add_left 2 _)

end ether2ser.hdlc_common

namespace ether2ser.hdlc_decoder

theorem hdlc_check_crc_eq {bytes : List UInt8} (htwo : 2 ≤ bytes.length) :
    hdlc_check_crc bytes =
      if crcResidue bytes = 0 then .ok (bytes.take (bytes.length - 2)) else .error .crc_mismatch := by
  obtain ⟨payload, high, low, rfl⟩ := exists_append_two htwo
  simp only [hdlc_check_crc_append_two, crcResidue_append_two, List.length_append, List.length_cons, List.length_nil,
    Nat.add_sub_cancel, List.take_left]

/-- The zeros between a closing and an opening flag never pass for a frame: no
number of zero bytes clears the checksum. -/
theorem hdlc_decode_idle_gap (k capacity out_capacity : Nat) (lsb_first : Bool) :
    (∃ error, hdlc_decode { payload := HDLC_FLAG_BYTE :: List.replicate k 0 ++ [HDLC_FLAG_BYTE], capacity } out_capacity
      lsb_first = .error error) ∧ hdlc_crc16 (List.replicate k 0) ≠ 0 := by
  have hnonzero : ∀ count, crcResidue (List.replicate count 0) ≠ 0 := by
    intro count hzero
    rw [crcResidue, foldl_crc16_byte_replicate_zero_eq_zero_iff] at hzero
    cases hzero
  refine ⟨?_, hdlc_crc16_eq _ ▸ hnonzero k⟩
  generalize hframe : HdlcFrame.mk (HDLC_FLAG_BYTE :: List.replicate k 0 ++ [HDLC_FLAG_BYTE]) capacity = frame
  have hpayload : frame.payload = HDLC_FLAG_BYTE :: List.replicate k 0 ++ [HDLC_FLAG_BYTE] := by rw [← hframe]
  obtain rfl | hcapacity := Nat.eq_zero_or_pos out_capacity
  · exact ⟨_, if_pos (.inl rfl)⟩
  have hinside : interiorBits lsb_first frame = bytesBits lsb_first (List.replicate k 0) := by
    simp [interiorBits, hpayload]
  have hdestuff : destuff HDLC_BIT_STUFF_ONES_LIMIT 0 (interiorBits lsb_first frame) =
      (bytesBits lsb_first (List.replicate k 0), false) := by
    rw [hinside, bytesBits_replicate_zero, destuff_replicate_false (by decide)]
  have hlength : frame.length = k + 2 := by simp [HdlcFrame.length, hpayload]
  have hclose : frame.payload.getD (frame.length - 1) 0 = HDLC_FLAG_BYTE := by
    rw [hlength, hpayload, List.getD_eq_getElem?_getD, List.getElem?_append_right (by simp)]
    simp
  have hwhole : wholeBytes lsb_first (bytesBits lsb_first (List.replicate k 0)) = List.replicate k 0 := by
    have happend := @wholeBytes_bytesBits_append lsb_first (List.replicate k 0) [] (by simp)
    rwa [List.append_nil] at happend
  rw [hdlc_decode_eq hcapacity (by omega) (by rw [hpayload]; rfl) hclose hdestuff, hwhole]
  by_cases hlong : out_capacity < (bytesBits lsb_first (List.replicate k 0)).length / 8
  · exact ⟨_, if_pos hlong⟩
  · rw [if_neg hlong, if_neg (by simp)]
    by_cases htwo : 2 ≤ k
    · rw [hdlc_check_crc_eq (by simpa using htwo), if_neg (hnonzero k)]
      exact ⟨_, rfl⟩
    · exact ⟨.too_short, if_pos (by simpa using htwo)⟩

end ether2ser.hdlc_decoder
