import Ether2Ser.Hdlc.Crc

open Bits
open ether2ser.hdlc_decoder

namespace ether2ser.hdlc_common

/-- The bits in which two byte strings differ, in serial order. -/
def bitErrors (lsbFirst : Bool) (x y : List UInt8) : List Bool :=
  List.zipWith xor (bytesBits lsbFirst x) (bytesBits lsbFirst y)

/-- All errors lie within some `width` consecutive bits. -/
def Burst (width : Nat) (errors : List Bool) : Prop := ∃ p, ∀ i, errors[i]? = some true → p ≤ i ∧ i < p + width

def xorBytes (x y : List UInt8) : List UInt8 := List.zipWith (· ^^^ ·) x y

theorem byteBits_xor (lsbFirst : Bool) (a b : UInt8) :
    byteBits lsbFirst (a ^^^ b) = List.zipWith xor (byteBits lsbFirst a) (byteBits lsbFirst b) := by
  simp [byteBits, List.zipWith_map, bitAt]

theorem bitErrors_eq (lsbFirst : Bool) {x y : List UInt8} (hlength : y.length = x.length) :
    bitErrors lsbFirst x y = bytesBits lsbFirst (xorBytes x y) := by
  induction x generalizing y with
  | nil =>
    obtain rfl : y = [] := List.length_eq_zero_iff.mp hlength
    rfl
  | cons a x ih =>
    cases y with
    | nil => cases hlength
    | cons b y =>
      rw [bitErrors, bytesBits_cons, bytesBits_cons, List.zipWith_append (by simp), ← byteBits_xor, xorBytes,
        List.zipWith_cons_cons, bytesBits_cons]
      exact congrArg _ (ih (Nat.succ.inj hlength))

theorem crcSymbol_xor (a b : UInt8) : crcSymbol (a ^^^ b) = crcSymbol a ^^^ crcSymbol b := by
  apply BitVec.eq_of_getLsbD_eq
  intro i hi
  rw [BitVec.getLsbD_xor, getLsbD_crcSymbol hi, getLsbD_crcSymbol hi, getLsbD_crcSymbol hi]
  cases decide (8 ≤ i) <;> simp [bitAt]

/-- Two byte strings that clear the register differ by one that keeps it
clear. -/
theorem foldl_crc16_byte_xorBytes {x y : List UInt8} (hlength : y.length = x.length) (hx : crcResidue x = 0)
    (hy : crcResidue y = 0) : (xorBytes x y).foldl crc16_byte 0 = 0 := by
  have hmap : (xorBytes x y).map crcSymbol = List.zipWith (· ^^^ ·) (x.map crcSymbol) (y.map crcSymbol) := by
    simp [xorBytes, List.zipWith_map, List.map_zipWith, crcSymbol_xor]
  have hlinear := ccitt.residue_xor 8 HDLC_CRC16_CCITT_INIT.toBitVec HDLC_CRC16_CCITT_INIT.toBitVec
    (x.map crcSymbol) (y.map crcSymbol) (by rw [List.length_map, List.length_map, hlength])
  rw [crcResidue, eq_zero_iff_toBitVec, toBitVec_foldl_crc16_byte] at hx hy
  rw [← hmap, hx, hy, BitVec.xor_self, BitVec.xor_self] at hlinear
  rw [eq_zero_iff_toBitVec, toBitVec_foldl_crc16_byte]
  exact hlinear

theorem parity_crcSymbol (byte : UInt8) :
    Lfsr.parity (crcSymbol byte) = decide ((byteBits false byte).count true % 2 = 1) := by
  have hall : ∀ n < 256, Lfsr.parity (crcSymbol (UInt8.ofNat n)) =
      decide ((byteBits false (UInt8.ofNat n)).count true % 2 = 1) := by decide +kernel
  have hbyte := hall byte.toNat byte.toNat_lt
  rwa [UInt8.ofNat_toNat] at hbyte

theorem count_true_append_odd (as bs : List Bool) :
    decide ((as ++ bs).count true % 2 = 1) =
      ((decide (as.count true % 2 = 1)) ^^ (decide (bs.count true % 2 = 1))) := by
  rw [List.count_append]
  obtain ha | ha := Nat.mod_two_eq_zero_or_one (as.count true)
  · obtain hb | hb := Nat.mod_two_eq_zero_or_one (bs.count true)
    · simp [Nat.add_mod, ha, hb]
    · simp [Nat.add_mod, ha, hb]
  · obtain hb | hb := Nat.mod_two_eq_zero_or_one (bs.count true)
    · simp [Nat.add_mod, ha, hb]
    · simp [Nat.add_mod, ha, hb]

theorem foldl_parity_crcSymbol (bytes : List UInt8) (odd : Bool) :
    (bytes.map crcSymbol).foldl (fun odd symbol => odd ^^ Lfsr.parity symbol) odd =
      (odd ^^ decide ((bytesBits false bytes).count true % 2 = 1)) := by
  induction bytes generalizing odd with
  | nil => simp
  | cons byte bytes ih =>
    rw [List.map_cons, List.foldl_cons, ih, parity_crcSymbol, bytesBits_cons, count_true_append_odd, Bool.xor_assoc]

/-- An odd number of ones leaves an odd number of ones in the register. -/
theorem foldl_crc16_byte_ne_zero_of_odd {bytes : List UInt8} (hodd : (bytesBits false bytes).count true % 2 = 1) :
    bytes.foldl crc16_byte 0 ≠ 0 := by
  intro hzero
  rw [eq_zero_iff_toBitVec, toBitVec_foldl_crc16_byte] at hzero
  have hparity := Lfsr.parity_residue ccitt_even 8 (0 : UInt16).toBitVec (bytes.map crcSymbol)
  rw [hzero, foldl_parity_crcSymbol, decide_eq_true hodd] at hparity
  cases hparity

/-- No byte and its checksum fill a window of sixteen bits across three bytes,
whatever the bit order. -/
theorem short_burst_check : ∀ lsbFirst ∈ [false, true], ∀ phase < 8, ∀ n < 256,
    (∀ j < phase, bitAt (UInt8.ofNat n) (bitPos lsbFirst j) = false) →
    (∀ j < 8, phase ≤ j → bitAt (crc16_byte 0 (UInt8.ofNat n) &&& 0xFF).toUInt8 (bitPos lsbFirst j) = false) →
    n = 0 := by decide +kernel

theorem short_burst_zero {lsbFirst : Bool} {phase : Nat} {first second third : UInt8} (hphase : phase < 8)
    (hcrc : crcOfBytes second third = crc16_byte 0 first)
    (hfirst : ∀ j < phase, bitAt first (bitPos lsbFirst j) = false)
    (hthird : ∀ j < 8, phase ≤ j → bitAt third (bitPos lsbFirst j) = false) :
    first = 0 ∧ second = 0 ∧ third = 0 := by
  have hlow : (crc16_byte 0 first &&& 0xFF).toUInt8 = third := by
    have hbytes := crcBytes_crcOfBytes second third
    rw [hcrc, crcBytes, List.cons.injEq, List.cons.injEq] at hbytes
    exact hbytes.2.1
  have hcheck := short_burst_check lsbFirst (by cases lsbFirst <;> simp) phase hphase first.toNat first.toNat_lt
  rw [UInt8.ofNat_toNat, hlow] at hcheck
  obtain rfl : first = 0 := UInt8.toNat_inj.mp (hcheck hfirst hthird)
  have hzero : crcOfBytes second third = crcOfBytes 0 0 := hcrc.trans (by decide)
  have hbytes := crcBytes_crcOfBytes second third
  rw [hzero, crcBytes_crcOfBytes, List.cons.injEq, List.cons.injEq] at hbytes
  exact ⟨rfl, hbytes.1.symm, hbytes.2.1.symm⟩

theorem bitAt_zero (i : Nat) : bitAt 0 i = false := BitVec.getLsbD_zero

theorem eq_zero_of_bits {lsbFirst : Bool} {byte : UInt8} (h : ∀ j < 8, bitAt byte (bitPos lsbFirst j) = false) :
    byte = 0 := by
  apply eq_of_bitAt
  intro i hi
  rw [bitAt_zero, ← @bitPos_bitPos lsbFirst i hi]
  exact h _ (bitPos_lt hi)

/-- Bits outside a burst are zero, also behind the end. -/
theorem bitAt_eq_false_of_outside {lsbFirst : Bool} {bytes : List UInt8} {p width count k j : Nat} {byte : UInt8}
    (hp : ∀ i, (bytesBits lsbFirst bytes)[i]? = some true → p ≤ i ∧ i < p + width)
    (hbyte : (bytes ++ List.replicate count 0)[k]? = some byte) (hj : j < 8)
    (hout : 8 * k + j < p ∨ p + width ≤ 8 * k + j) : bitAt byte (bitPos lsbFirst j) = false := by
  by_cases hk : k < bytes.length
  · rw [List.getElem?_append_left hk] at hbyte
    have hserial := getElem?_bytesBits lsbFirst bytes (8 * k + j)
    rw [show (8 * k + j) / 8 = k by omega, show (8 * k + j) % 8 = j by omega, hbyte, Option.map_some] at hserial
    rw [← Bool.not_eq_true]
    intro htrue
    have hinside := hp _ (hserial.trans (congrArg some htrue))
    omega
  · rw [List.getElem?_append_right (by omega), List.getElem?_replicate] at hbyte
    split at hbyte
    · cases hbyte
      exact bitAt_zero _
    · cases hbyte

theorem eq_replicate_zero {bytes : List UInt8} (h : ∀ (k : Nat) (byte : UInt8), bytes[k]? = some byte → byte = 0) :
    bytes = List.replicate bytes.length 0 := by
  rw [List.eq_replicate_iff]
  refine ⟨rfl, fun byte hmem => ?_⟩
  obtain ⟨k, hk⟩ := List.mem_iff_getElem?.mp hmem
  exact h k byte hk

/-- Bytes that are zero outside three places. -/
theorem exists_three_of_zero_outside {bytes : List UInt8} {before : Nat} (hlong : before + 3 ≤ bytes.length)
    (hzero : ∀ (k : Nat) (byte : UInt8), bytes[k]? = some byte → k < before ∨ before + 2 < k → byte = 0) :
    ∃ first second third after,
      bytes = List.replicate before 0 ++ first :: second :: third :: List.replicate after 0 := by
  have htake : bytes.take before = List.replicate before 0 := by
    have hall := @eq_replicate_zero (bytes.take before) fun k byte hk => by
      rw [List.getElem?_take] at hk
      split at hk
      · rename_i hbefore
        exact hzero k byte hk (.inl hbefore)
      · cases hk
    rwa [List.length_take_of_le (by omega)] at hall
  have hdrop : bytes.drop (before + 3) = List.replicate (bytes.length - (before + 3)) 0 := by
    have hall := @eq_replicate_zero (bytes.drop (before + 3)) fun k byte hk => by
      rw [List.getElem?_drop] at hk
      exact hzero _ byte hk (.inr (by omega))
    rwa [List.length_drop] at hall
  refine ⟨bytes[before], bytes[before + 1], bytes[before + 2], bytes.length - (before + 3), ?_⟩
  rw [← hdrop, ← htake, ← List.drop_eq_getElem_cons, ← List.drop_eq_getElem_cons, ← List.drop_eq_getElem_cons,
    List.take_append_drop]

/-- A burst lies in three consecutive bytes, behind its phase in the first and
in front of it in the third. -/
theorem Burst.exists_three {lsbFirst : Bool} {bytes : List UInt8} (hburst : Burst 16 (bytesBits lsbFirst bytes))
    (hne : ∃ byte ∈ bytes, byte ≠ 0) :
    ∃ before phase first second third after, phase < 8 ∧
      bytes ++ List.replicate 3 0 = List.replicate before 0 ++ first :: second :: third :: List.replicate after 0 ∧
      (∀ j < phase, bitAt first (bitPos lsbFirst j) = false) ∧
      ∀ j < 8, phase ≤ j → bitAt third (bitPos lsbFirst j) = false := by
  obtain ⟨p, hp⟩ := hburst
  have hbyte : ∀ (k : Nat) (byte : UInt8), (bytes ++ List.replicate 3 0)[k]? = some byte →
      k < p / 8 ∨ p / 8 + 2 < k → byte = 0 := by
    intro k byte hget hout
    apply eq_zero_of_bits
    intro j hj
    exact bitAt_eq_false_of_outside hp hget hj (by omega)
  have hinside : p / 8 < bytes.length := by
    obtain ⟨byte, hmem, hnonzero⟩ := hne
    obtain ⟨k, hget⟩ := List.mem_iff_getElem?.mp hmem
    obtain ⟨hk, -⟩ := List.getElem?_eq_some_iff.mp hget
    by_contra hout
    apply hnonzero
    apply hbyte k byte _ (.inl (by omega))
    rw [List.getElem?_append_left hk, hget]
  obtain ⟨first, second, third, after, hbytes⟩ := exists_three_of_zero_outside
    (by rw [List.length_append, List.length_replicate]; omega) hbyte
  refine ⟨p / 8, p % 8, first, second, third, after, Nat.mod_lt _ (by omega), hbytes, ?_, ?_⟩
  · intro j hj
    have hfirst : (bytes ++ List.replicate 3 0)[p / 8]? = some first := by rw [hbytes]; simp
    exact bitAt_eq_false_of_outside hp hfirst (by omega) (.inl (by omega))
  · intro j hj hphase
    have hthird : (bytes ++ List.replicate 3 0)[p / 8 + 2]? = some third := by rw [hbytes]; simp
    exact bitAt_eq_false_of_outside hp hthird hj (.inr (by omega))

/-- A burst of at most sixteen bits never leaves the register clear. -/
theorem foldl_crc16_byte_ne_zero_of_burst {lsbFirst : Bool} {bytes : List UInt8}
    (hburst : Burst 16 (bytesBits lsbFirst bytes)) (hne : ∃ byte ∈ bytes, byte ≠ 0) :
    bytes.foldl crc16_byte 0 ≠ 0 := by
  intro hzero
  obtain ⟨before, phase, first, second, third, after, hphase, hbytes, hfirst, hthird⟩ := hburst.exists_three hne
  have hpadded : (bytes ++ List.replicate 3 0).foldl crc16_byte 0 = 0 := by
    rw [List.foldl_append, foldl_crc16_byte_replicate_zero_eq_zero_iff]
    exact hzero
  have hbefore : (List.replicate before 0).foldl crc16_byte 0 = 0 :=
    (foldl_crc16_byte_replicate_zero_eq_zero_iff 0 before).mpr rfl
  rw [hbytes, List.foldl_append, hbefore, List.foldl_cons, List.foldl_cons, List.foldl_cons,
    foldl_crc16_byte_replicate_zero_eq_zero_iff, crc16_byte_crc16_byte_eq_zero_iff] at hpadded
  obtain ⟨rfl, rfl, rfl⟩ := short_burst_zero hphase hpadded hfirst hthird
  obtain ⟨byte, hmem, hbyte⟩ := hne
  have hin : byte ∈ bytes ++ List.replicate 3 0 := List.mem_append_left _ hmem
  rw [hbytes] at hin
  simp only [List.mem_append, List.mem_cons, List.mem_replicate] at hin
  grind

theorem exists_ne_zero_of_ne {x y : List UInt8} (hlength : y.length = x.length) (hne : y ≠ x) :
    ∃ byte ∈ xorBytes x y, byte ≠ 0 := by
  induction x generalizing y with
  | nil => exact absurd (List.length_eq_zero_iff.mp hlength) hne
  | cons a x ih =>
    cases y with
    | nil => cases hlength
    | cons b y =>
      rw [xorBytes, List.zipWith_cons_cons]
      by_cases hhead : a = b
      · subst hhead
        obtain ⟨byte, hmem, hbyte⟩ := ih (Nat.succ.inj hlength) (fun htail => hne (congrArg _ htail))
        exact ⟨byte, List.mem_cons_of_mem _ hmem, hbyte⟩
      · refine ⟨a ^^^ b, List.mem_cons_self, fun hzero => hhead ?_⟩
        exact UInt8.xor_eq_zero_iff.mp hzero

/-- The checksum detects every odd number of bit errors, and every burst of at
most sixteen bits in the order of the checksum or in that of the line. -/
theorem crc_detects_errors (x y : List UInt8) (hx : EndsWithCrc x) (hlength : y.length = x.length) (hne : y ≠ x)
    (herrors : (bitErrors false x y).count true % 2 = 1 ∨ ∃ lsbFirst, Burst 16 (bitErrors lsbFirst x y)) :
    ¬ EndsWithCrc y ∧ hdlc_check_crc y = .error .crc_mismatch := by
  have htwo : 2 ≤ y.length := hlength ▸ hx.1
  have hdifference : (xorBytes x y).foldl crc16_byte 0 ≠ 0 := by
    obtain hodd | ⟨lsbFirst, hburst⟩ := herrors
    · rw [bitErrors_eq false hlength] at hodd
      exact foldl_crc16_byte_ne_zero_of_odd hodd
    · rw [bitErrors_eq lsbFirst hlength] at hburst
      exact foldl_crc16_byte_ne_zero_of_burst hburst (exists_ne_zero_of_ne hlength hne)
  have hy : crcResidue y ≠ 0 := fun hzero =>
    hdifference (foldl_crc16_byte_xorBytes hlength ((endsWithCrc_iff_crcResidue hx.1).mp hx) hzero)
  rw [endsWithCrc_iff_crcResidue htwo, hdlc_check_crc_eq htwo, if_neg hy]
  exact ⟨hy, rfl⟩

/-- Sixteen consecutive bits on the line, from the last one of the first byte
on. -/
theorem crc_detects_errors_across_bytes :
    hdlc_check_crc [0x81, 0xFD, 0x7C, 0xAD, 0xAD] = .error .crc_mismatch := by
  have hburst : Burst 16 (bitErrors true [0x01, 0x02, 0x03, 0xAD, 0xAD] [0x81, 0xFD, 0x7C, 0xAD, 0xAD]) := by
    refine ⟨7, fun i herror => ?_⟩
    have hinside : ∀ i < 40,
        (bitErrors true [0x01, 0x02, 0x03, 0xAD, 0xAD] [0x81, 0xFD, 0x7C, 0xAD, 0xAD])[i]? = some true →
        7 ≤ i ∧ i < 7 + 16 := by decide +kernel
    obtain ⟨hlt, -⟩ := List.getElem?_eq_some_iff.mp herror
    exact hinside i (by simpa [bitErrors] using hlt) herror
  exact (crc_detects_errors [0x01, 0x02, 0x03, 0xAD, 0xAD] [0x81, 0xFD, 0x7C, 0xAD, 0xAD]
    ⟨by decide, by decide +kernel⟩ rfl (by decide) (.inr ⟨true, hburst⟩)).2

end ether2ser.hdlc_common
