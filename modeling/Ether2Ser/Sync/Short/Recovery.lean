import Ether2Ser.Bits.Window
import Ether2Ser.Sync.Locked.Reception
import Ether2Ser.Sync.Receiver
import Ether2Ser.Sync.Short

open Bits
open ether2ser.error ether2ser.hdlc_common

namespace ether2ser.hdlc_sync

/-- A bit of a byte by its place on the line. -/
def lineBit (lsbFirst : Bool) (byte : UInt8) (t : Nat) : Bool := bitAt byte (bitPos lsbFirst t)

theorem eq_of_lineBit {lsbFirst : Bool} {a b : UInt8} (h : ∀ t < 8, lineBit lsbFirst a t = lineBit lsbFirst b t) :
    a = b := by
  apply eq_of_bitAt
  intro i hi
  have hbit := h (bitPos lsbFirst i) (bitPos_lt hi)
  rwa [lineBit, lineBit, bitPos_bitPos hi] at hbit

section

variable {bit_offset : Nat} (hpos : 0 < bit_offset) (hoffset : bit_offset < 8)
include hpos hoffset

theorem bitAt_composed_right {j : Nat} (hj : j < 8) (first second : UInt8) :
    bitAt (composed bit_offset true first second) j =
      if j + bit_offset < 8 then bitAt first (j + bit_offset) else bitAt second (j + bit_offset - 8) := by
  rw [composed, if_neg (Nat.ne_of_gt hpos), if_pos rfl, bitAt_or, bitAt_shiftRight hoffset,
    bitAt_shiftLeft (by omega) hj, Nat.add_comm bit_offset j]
  split
  · rw [decide_eq_false (by omega), Bool.false_and, Bool.or_false]
  · rw [bitAt_of_le (by omega), Bool.false_or, decide_eq_true (by omega), Bool.true_and]
    congr 1
    omega

theorem bitAt_composed_left {j : Nat} (hj : j < 8) (first second : UInt8) :
    bitAt (composed bit_offset false first second) j =
      if bit_offset ≤ j then bitAt first (j - bit_offset) else bitAt second (j + 8 - bit_offset) := by
  rw [composed, if_neg (Nat.ne_of_gt hpos), if_neg Bool.false_ne_true, bitAt_or, bitAt_shiftLeft hoffset hj,
    bitAt_shiftRight (by omega)]
  split
  · rename_i hle
    rw [decide_eq_true hle, Bool.true_and, bitAt_of_le (show 8 ≤ 8 - bit_offset + j by omega), Bool.or_false]
  · rename_i hlt
    rw [decide_eq_false hlt, Bool.false_and, Bool.false_or]
    congr 1
    omega

end

section

variable {lsbFirst : Bool} {bit_offset t : Nat}

/-- Composing two bytes in line order reads eight bits across their boundary. -/
theorem lineBit_composed_along (hoffset : bit_offset < 8) (ht : t < 8) (first second : UInt8) :
    lineBit lsbFirst (composed bit_offset lsbFirst first second) t =
      if t + bit_offset < 8 then lineBit lsbFirst first (t + bit_offset)
      else lineBit lsbFirst second (t + bit_offset - 8) := by
  obtain rfl | hpos := Nat.eq_zero_or_pos bit_offset
  · rw [composed, if_pos rfl, if_pos (by omega)]
    rfl
  · cases lsbFirst with
    | true => exact bitAt_composed_right hpos hoffset ht first second
    | false =>
      rw [lineBit, bitAt_composed_left hpos hoffset (bitPos_lt ht)]
      simp only [lineBit, bitPos, Bool.false_eq_true, if_false]
      split
      · rw [if_pos (by omega)]
        congr 1
        omega
      · rw [if_neg (by omega)]
        congr 1
        omega

/-- Composing two bytes against line order swaps the parts of each. -/
theorem lineBit_composed_against (hpos : 0 < bit_offset) (hoffset : bit_offset < 8) (ht : t < 8)
    (first second : UInt8) :
    lineBit lsbFirst (composed bit_offset (!lsbFirst) first second) t =
      if bit_offset ≤ t then lineBit lsbFirst first (t - bit_offset)
      else lineBit lsbFirst second (t + 8 - bit_offset) := by
  cases lsbFirst with
  | true => exact bitAt_composed_left hpos hoffset ht first second
  | false =>
    rw [lineBit, Bool.not_false, bitAt_composed_right hpos hoffset (bitPos_lt ht)]
    simp only [lineBit, bitPos, Bool.false_eq_true, if_false]
    split
    · rw [if_pos (by omega)]
      congr 1
      omega
    · rw [if_neg (by omega)]
      congr 1
      omega

end

/-- A frame shifted on the line by some zero bits and filled up with zeros to
one more byte. -/
def shiftedFrame (lsbFirst : Bool) (shift : Nat) (frame : List UInt8) : List UInt8 :=
  packBits lsbFirst (List.replicate shift false ++ (bytesBits lsbFirst frame ++ List.replicate (8 - shift) false))

section

variable {lsbFirst : Bool} {shift : Nat} {frame : List UInt8}

theorem length_shiftedFrame (hshift : shift < 8) : (shiftedFrame lsbFirst shift frame).length = frame.length + 1 := by
  simp only [shiftedFrame, length_packBits, List.length_append, List.length_replicate, length_bytesBits]
  omega

example : shiftedFrame false 1 [0x7E, 0xFF, 0xFF, 0x7E] = [0x3F, 0x7F, 0xFF, 0xBF, 0x00] := by decide

theorem lineBit_getD {bytes : List UInt8} {k t : Nat} (hk : k < bytes.length) (ht : t < 8) :
    lineBit lsbFirst (bytes.getD k 0) t = (bytesBits lsbFirst bytes).getD (8 * k + t) false := by
  have hdiv : (8 * k + t) / 8 = k := by omega
  have hmod : (8 * k + t) % 8 = t := by omega
  rw [List.getD_eq_getElem?_getD, List.getD_eq_getElem?_getD, getElem?_bytesBits, hdiv, hmod,
    List.getElem?_eq_getElem hk]
  rfl

theorem lineBit_shiftedFrame (hshift : shift < 8) {k t : Nat} (hk : k < frame.length + 1) (ht : t < 8) :
    lineBit lsbFirst ((shiftedFrame lsbFirst shift frame).getD k 0) t =
      (List.replicate shift false ++ (bytesBits lsbFirst frame ++ List.replicate (8 - shift) false)).getD (8 * k + t)
        false := by
  rw [lineBit_getD (by rw [length_shiftedFrame hshift]; exact hk) ht, shiftedFrame, bytesBits_packBits]
  have hpad : padLength (List.replicate shift false ++
      (bytesBits lsbFirst frame ++ List.replicate (8 - shift) false)).length = 0 := by
    simp only [padLength, List.length_append, List.length_replicate, length_bytesBits]
    omega
  rw [hpad, List.replicate_zero, List.append_nil]

theorem getD_shiftedBits_of_lt {t : Nat} (ht : t < shift) :
    (List.replicate shift false ++ (bytesBits lsbFirst frame ++ List.replicate (8 - shift) false)).getD t false =
      false := by
  rw [List.getD_append _ _ _ _ (by rw [List.length_replicate]; exact ht), List.getD_replicate _ ht]

theorem getD_shiftedBits_add {t : Nat} (ht : t < 8 * frame.length) :
    (List.replicate shift false ++ (bytesBits lsbFirst frame ++ List.replicate (8 - shift) false)).getD (shift + t)
      false = (bytesBits lsbFirst frame).getD t false := by
  rw [List.getD_append_right _ _ _ _ (by rw [List.length_replicate]; omega), List.length_replicate,
    Nat.add_sub_cancel_left, List.getD_append _ _ _ _ (by rw [length_bytesBits]; exact ht)]

/-- At the shift and in the direction of the line, the aligned bytes are those
of the frame. -/
theorem composed_shiftedFrame (hshift : shift < 8) {k : Nat} (hk : k < frame.length) :
    composed shift lsbFirst ((shiftedFrame lsbFirst shift frame).getD k 0)
      ((shiftedFrame lsbFirst shift frame).getD (k + 1) 0) = frame.getD k 0 := by
  apply eq_of_lineBit
  intro t ht
  rw [lineBit_composed_along hshift ht, lineBit_getD hk ht, ← @getD_shiftedBits_add lsbFirst shift frame _ (by omega)]
  split
  · rw [lineBit_shiftedFrame hshift (by omega) (by omega)]
    congr 1
    omega
  · rw [lineBit_shiftedFrame hshift (by omega) (by omega)]
    congr 1
    omega

theorem lineBit_flag {t : Nat} (ht : t < 8) : lineBit lsbFirst HDLC_FLAG_BYTE t = decide (0 < t ∧ t < 7) := by
  have hall : ∀ lsbFirst : Bool, ∀ t < 8, lineBit lsbFirst HDLC_FLAG_BYTE t = decide (0 < t ∧ t < 7) := by decide
  exact hall lsbFirst t ht

/-- The first raw byte holds the zeros of the shift and the start of the flag. -/
theorem lineBit_shiftedFrame_zero (hshift : shift < 8) (hflag : frame.getD 0 0 = HDLC_FLAG_BYTE)
    (hframe : 0 < frame.length) {t : Nat} (ht : t < 8) :
    lineBit lsbFirst ((shiftedFrame lsbFirst shift frame).getD 0 0) t = decide (shift < t ∧ t < shift + 7) := by
  rw [lineBit_shiftedFrame hshift (by omega) ht, Nat.mul_zero, Nat.zero_add]
  by_cases hzero : t < shift
  · rw [getD_shiftedBits_of_lt hzero, decide_eq_false (by omega)]
  · have hbit := @lineBit_getD lsbFirst frame 0 (t - shift) hframe (by omega)
    rw [Nat.mul_zero, Nat.zero_add, hflag, lineBit_flag (by omega)] at hbit
    have hindex : t = shift + (t - shift) := by omega
    rw [hindex, getD_shiftedBits_add (by omega), ← hbit, decide_eq_decide]
    omega

/-- The second raw byte begins with the rest of the flag. -/
theorem lineBit_shiftedFrame_one (hshift : shift < 8) (hflag : frame.getD 0 0 = HDLC_FLAG_BYTE)
    (hframe : 0 < frame.length) {t : Nat} (ht : t < shift) :
    lineBit lsbFirst ((shiftedFrame lsbFirst shift frame).getD 1 0) t = decide (t + 1 < shift) := by
  have hbit := @lineBit_getD lsbFirst frame 0 (8 + t - shift) hframe (by omega)
  rw [Nat.mul_zero, Nat.zero_add, hflag, lineBit_flag (by omega)] at hbit
  have hindex : 8 * 1 + t = shift + (8 + t - shift) := by omega
  rw [lineBit_shiftedFrame hshift (by omega) (by omega), hindex, getD_shiftedBits_add (by omega), ← hbit,
    decide_eq_decide]
  omega

/-- In the direction of the line, no flag starts before the shift. -/
theorem composed_along_ne_flag (hshift : shift < 8) (hflag : frame.getD 0 0 = HDLC_FLAG_BYTE)
    (hframe : 0 < frame.length) {bit_pos : Nat} (hbit : bit_pos < shift) :
    composed bit_pos lsbFirst ((shiftedFrame lsbFirst shift frame).getD 0 0)
      ((shiftedFrame lsbFirst shift frame).getD 1 0) ≠ HDLC_FLAG_BYTE := by
  intro hcomposed
  have hone := congrArg (lineBit lsbFirst · 1) hcomposed
  rw [lineBit_composed_along (by omega) (by omega), if_pos (by omega),
    lineBit_shiftedFrame_zero hshift hflag hframe (by omega), lineBit_flag (by omega), decide_eq_decide] at hone
  omega

/-- Nor does one up to the shift in the other direction. -/
theorem composed_against_ne_flag (hshift : shift < 8) (hflag : frame.getD 0 0 = HDLC_FLAG_BYTE)
    (hframe : 0 < frame.length) {bit_pos : Nat} (hpos : 0 < bit_pos) (hbit : bit_pos ≤ shift) :
    composed bit_pos (!lsbFirst) ((shiftedFrame lsbFirst shift frame).getD 0 0)
      ((shiftedFrame lsbFirst shift frame).getD 1 0) ≠ HDLC_FLAG_BYTE := by
  intro hcomposed
  obtain rfl | hlt : bit_pos = 7 ∨ bit_pos ≤ 6 := by omega
  · have hzero := congrArg (lineBit lsbFirst · 0) hcomposed
    rw [lineBit_composed_against hpos (by omega) (by omega), if_neg (by omega),
      lineBit_shiftedFrame_one hshift hflag hframe (by omega), lineBit_flag (by omega), decide_eq_decide] at hzero
    omega
  · have hsix := congrArg (lineBit lsbFirst · 6) hcomposed
    have hseven := congrArg (lineBit lsbFirst · 7) hcomposed
    rw [lineBit_composed_against hpos (by omega) (by omega), if_pos (by omega),
      lineBit_shiftedFrame_zero hshift hflag hframe (by omega), lineBit_flag (by omega), decide_eq_decide]
      at hsix hseven
    omega

end

/-- The opening at the shift of the frame, in the direction of the line. A
shift by zero has no direction. -/
def trueOpening (lsbFirst : Bool) (shift : Nat) : HdlcSyncOpening where
  start_index := 0
  bit_pos := shift
  shift_right := lsbFirst && decide (shift ≠ 0)

theorem composed_trueOpening (lsbFirst : Bool) (shift : Nat) (first second : UInt8) :
    composed shift (trueOpening lsbFirst shift).shift_right first second = composed shift lsbFirst first second := by
  by_cases hzero : shift = 0
  · rw [composed, composed, if_pos hzero, if_pos hzero]
  · rw [trueOpening, decide_eq_true hzero, Bool.and_true]

/-- The order of the exhaustive search around one bit phase of its first
start. -/
theorem openings_from_zero {shift : Nat} (hshift : shift < 8) (count : Nat) :
    openings_from 0 (count + 1) =
      (List.range shift).flatMap (fun bit_pos => [⟨0, bit_pos, false⟩, ⟨0, bit_pos, true⟩]) ++
        (⟨0, shift, false⟩ :: ⟨0, shift, true⟩ ::
          ((List.range' (shift + 1) (7 - shift)).flatMap (fun bit_pos => [⟨0, bit_pos, false⟩, ⟨0, bit_pos, true⟩]) ++
            openings_from 1 count)) := by
  have hrange : List.range HDLC_BITS_PER_BYTE = List.range shift ++ shift :: List.range' (shift + 1) (7 - shift) := by
    rw [List.range_eq_range', List.range_eq_range', ← List.range'_succ, HDLC_BITS_PER_BYTE,
      show 8 = shift + (7 - shift + 1) by omega, ← List.range'_append_1, Nat.zero_add]
  have hfirst : openings_from 0 (count + 1) =
      (List.range HDLC_BITS_PER_BYTE).flatMap (fun bit_pos => [⟨0, bit_pos, false⟩, ⟨0, bit_pos, true⟩]) ++
        openings_from 1 count := by
    rw [openings_from, List.range'_succ, List.flatMap_cons]
    rfl
  rw [hfirst, hrange, List.flatMap_append, List.flatMap_cons, List.append_assoc, List.append_assoc]
  rfl

theorem le_start_of_mem_openings_from {start count : Nat} {opening : HdlcSyncOpening}
    (hmem : opening ∈ openings_from start count) : start ≤ opening.start_index := by
  simp only [openings_from, List.mem_flatMap, List.mem_range'_1, List.mem_range, List.mem_cons, List.not_mem_nil,
    or_false] at hmem
  obtain ⟨first, hfirst, bit_pos, -, hopening⟩ := hmem
  obtain rfl | rfl := hopening
  · exact hfirst.1
  · exact hfirst.1

/-- What the exhaustive search tries before the true opening and behind it. -/
theorem exists_openings_split (lsbFirst : Bool) {shift : Nat} (hshift : shift < 8) (count : Nat) :
    ∃ earlier later, openings_from 0 (count + 1) = earlier ++ trueOpening lsbFirst shift :: later ∧
      (∀ opening ∈ earlier, opening.start_index = 0 ∧ (opening.bit_pos < shift ∨
        opening.bit_pos = shift ∧ opening.shift_right = false ∧ (trueOpening lsbFirst shift).shift_right = true)) ∧
      ∀ opening ∈ later, opening.bit_pos ≠ 0 ∨ opening.shift_right = true ∨ 1 ≤ opening.start_index := by
  have hopenings := openings_from_zero hshift count
  generalize hearlier : (List.range shift).flatMap
    (fun bit_pos => [(⟨0, bit_pos, false⟩ : HdlcSyncOpening), ⟨0, bit_pos, true⟩]) = earlier at hopenings
  generalize hlater : (List.range' (shift + 1) (7 - shift)).flatMap
    (fun bit_pos => [(⟨0, bit_pos, false⟩ : HdlcSyncOpening), ⟨0, bit_pos, true⟩]) = later at hopenings
  have hbefore : ∀ opening ∈ earlier, opening.start_index = 0 ∧ opening.bit_pos < shift := by
    intro opening hmem
    simp only [← hearlier, List.mem_flatMap, List.mem_range, List.mem_cons, List.not_mem_nil, or_false] at hmem
    obtain ⟨bit_pos, hlt, rfl | rfl⟩ := hmem
    · exact ⟨rfl, hlt⟩
    · exact ⟨rfl, hlt⟩
  have hbehind : ∀ opening ∈ later ++ openings_from 1 count,
      opening.bit_pos ≠ 0 ∨ opening.shift_right = true ∨ 1 ≤ opening.start_index := by
    intro opening hmem
    obtain hmem | hmem := List.mem_append.mp hmem
    · simp only [← hlater, List.mem_flatMap, List.mem_range'_1, List.mem_cons, List.not_mem_nil, or_false] at hmem
      obtain ⟨bit_pos, hlt, rfl | rfl⟩ := hmem
      · exact .inl (by dsimp only; omega)
      · exact .inl (by dsimp only; omega)
    · exact .inr (.inr (le_start_of_mem_openings_from hmem))
  cases hright : (trueOpening lsbFirst shift).shift_right with
  | false =>
    have htrue : trueOpening lsbFirst shift = ⟨0, shift, false⟩ := congrArg (HdlcSyncOpening.mk 0 shift) hright
    refine ⟨earlier, ⟨0, shift, true⟩ :: (later ++ openings_from 1 count), by rw [hopenings, htrue], ?_, ?_⟩
    · exact fun opening hmem => ⟨(hbefore opening hmem).1, .inl (hbefore opening hmem).2⟩
    · intro opening hmem
      obtain rfl | hmem := List.mem_cons.mp hmem
      · exact .inr (.inl rfl)
      · exact hbehind opening hmem
  | true =>
    have htrue : trueOpening lsbFirst shift = ⟨0, shift, true⟩ := congrArg (HdlcSyncOpening.mk 0 shift) hright
    refine ⟨earlier ++ [⟨0, shift, false⟩], later ++ openings_from 1 count, ?_, ?_, hbehind⟩
    · rw [hopenings, htrue, List.append_assoc]
      rfl
    · intro opening hmem
      obtain hmem | hmem := List.mem_append.mp hmem
      · exact ⟨(hbefore opening hmem).1, .inl (hbefore opening hmem).2⟩
      · rw [List.mem_singleton.mp hmem]
        exact ⟨rfl, .inr ⟨rfl, rfl, rfl⟩⟩

section

variable {accumulator : HdlcSyncAccumulator} {lsbFirst : Bool} {shift : Nat} {body : List UInt8}

/-- The accumulator holds a frame with flags at its ends only, shifted on the
line. -/
structure HoldsShifted (accumulator : HdlcSyncAccumulator) (lsbFirst : Bool) (shift : Nat) (body : List UInt8) :
    Prop where
  buffer_eq : accumulator.buffer =
    shiftedFrame lsbFirst shift (HDLC_FLAG_BYTE :: (body ++ [HDLC_FLAG_BYTE]))
  sync : accumulator.sync_byte = HDLC_FLAG_BYTE
  shift_lt : shift < 8
  body_ne : ∀ byte ∈ body, byte ≠ HDLC_FLAG_BYTE
  two_le : 2 ≤ body.length

theorem HoldsShifted.position_eq (h : HoldsShifted accumulator lsbFirst shift body) :
    accumulator.position = body.length + 3 := by
  rw [HdlcSyncAccumulator.position, h.buffer_eq, length_shiftedFrame h.shift_lt]
  simp

theorem HoldsShifted.received (h : HoldsShifted accumulator lsbFirst shift body) {k : Nat} (hk : k < body.length + 2)
    (bit_pos : Nat) : accumulator.Received bit_pos k := by
  have hposition := h.position_eq
  exact ⟨by omega, fun _ => by omega⟩

/-- The aligned bytes at the true opening are those of the frame. -/
theorem HoldsShifted.aligned (h : HoldsShifted accumulator lsbFirst shift body) {k : Nat} (hk : k < body.length + 2) :
    hdlc_sync_get_aligned_byte accumulator k shift (trueOpening lsbFirst shift).shift_right =
      some ((HDLC_FLAG_BYTE :: (body ++ [HDLC_FLAG_BYTE])).getD k 0) := by
  rw [hdlc_sync_get_aligned_byte_of_received h.shift_lt (h.received hk shift), composed_trueOpening, h.buffer_eq,
    composed_shiftedFrame h.shift_lt (by rw [List.length_cons, List.length_append]; exact hk)]

theorem HoldsShifted.aligned_last (h : HoldsShifted accumulator lsbFirst shift body) :
    hdlc_sync_get_aligned_byte accumulator (body.length + 1) shift (trueOpening lsbFirst shift).shift_right =
      some accumulator.sync_byte := by
  rw [h.aligned (by omega), h.sync]
  simp

theorem HoldsShifted.aligned_body (h : HoldsShifted accumulator lsbFirst shift body) {i : Nat} (hi : 1 ≤ i)
    (hlt : i < body.length + 1) :
    ∃ byte, hdlc_sync_get_aligned_byte accumulator i shift (trueOpening lsbFirst shift).shift_right = some byte ∧
      byte ≠ accumulator.sync_byte := by
  obtain ⟨k, rfl⟩ : ∃ k, i = k + 1 := ⟨i - 1, by omega⟩
  refine ⟨_, h.aligned (by omega), ?_⟩
  rw [List.getD_cons_succ, List.getD_append _ _ _ _ (by omega), h.sync]
  apply h.body_ne
  rw [List.getD_eq_getElem _ _ (by omega)]
  exact List.getElem_mem _

theorem HoldsShifted.map_aligned (h : HoldsShifted accumulator lsbFirst shift body) :
    (List.range' 0 (body.length + 2)).map
      (hdlc_sync_get_aligned_byte accumulator · shift (trueOpening lsbFirst shift).shift_right) =
      (HDLC_FLAG_BYTE :: (body ++ [HDLC_FLAG_BYTE])).map some := by
  apply List.ext_getElem
  · simp
  · intro k hk hframe
    rw [List.length_map, List.length_range'] at hk
    rw [List.getElem_map, List.getElem_map, List.getElem_range', Nat.zero_add, Nat.one_mul, h.aligned hk,
      List.getD_eq_getElem]

/-- No opening that is tried before the true one shows a flag. -/
theorem HoldsShifted.not_sync (h : HoldsShifted accumulator lsbFirst shift body) {bit_pos : Nat} {shift_right : Bool}
    (hbefore : bit_pos < shift ∨
      bit_pos = shift ∧ shift_right = false ∧ (trueOpening lsbFirst shift).shift_right = true) :
    aligned_is_sync accumulator 0 bit_pos shift_right = false := by
  have hshift := h.shift_lt
  have hframe : 0 < (HDLC_FLAG_BYTE :: (body ++ [HDLC_FLAG_BYTE])).length := Nat.succ_pos _
  rw [aligned_is_sync, hdlc_sync_get_aligned_byte_of_received (by rw [HDLC_BITS_PER_BYTE]; omega)
    (h.received (by omega) bit_pos), h.sync, h.buffer_eq, beq_eq_false_iff_ne, ne_eq, Option.some.injEq]
  by_cases hdirection : shift_right = lsbFirst
  · subst hdirection
    refine composed_along_ne_flag hshift rfl hframe ?_
    obtain hlt | ⟨rfl, rfl, htrue⟩ := hbefore
    · exact hlt
    · cases htrue
  · obtain rfl : shift_right = !lsbFirst := Bool.eq_not.mpr hdirection
    obtain rfl | hpos := Nat.eq_zero_or_pos bit_pos
    · have hlt : 0 < shift := by
        obtain hlt | ⟨rfl, -, htrue⟩ := hbefore
        · exact hlt
        · rw [trueOpening, Bool.and_eq_true, decide_eq_true_eq] at htrue
          exact absurd rfl htrue.2
      exact @composed_along_ne_flag lsbFirst shift _ hshift rfl hframe 0 hlt
    · exact composed_against_ne_flag hshift rfl hframe hpos (by omega)

theorem HoldsShifted.candidateSize_of_before (h : HoldsShifted accumulator lsbFirst shift body) {bit_pos : Nat}
    {shift_right : Bool}
    (hbefore : bit_pos < shift ∨
      bit_pos = shift ∧ shift_right = false ∧ (trueOpening lsbFirst shift).shift_right = true) :
    candidateSize accumulator ⟨0, bit_pos, shift_right⟩ = none := by
  unfold candidateSize
  split
  · rfl
  · rw [if_pos]
    rw [h.not_sync hbefore]
    rfl

/-- The true opening begins a candidate as long as the frame. -/
theorem HoldsShifted.candidateSize_trueOpening (h : HoldsShifted accumulator lsbFirst shift body) :
    candidateSize accumulator (trueOpening lsbFirst shift) = some (body.length + 2) := by
  have hposition := h.position_eq
  have htwo := h.two_le
  have hopening : aligned_is_sync accumulator 0 shift (trueOpening lsbFirst shift).shift_right = true := by
    rw [aligned_is_sync, h.aligned (by omega), h.sync]
    rfl
  have hdirection : ¬(shift = 0 ∧ (trueOpening lsbFirst shift).shift_right = true) := by
    rintro ⟨hzero, hright⟩
    rw [trueOpening, Bool.and_eq_true, decide_eq_true_eq] at hright
    exact hright.2 hzero
  have hprobe := @hdlc_sync_probe_closing_eq accumulator shift 1 (accumulator.position - 1) 1 (body.length + 1) _
    (by omega) (by omega) (by rw [HDLC_SYNC_MIN_FRAME_SIZE_BYTES]; omega) (fun _ => h.aligned_body) h.aligned_last
  rw [show 1 + (body.length + 1 - 1) + 1 = body.length + 2 by omega] at hprobe
  exact candidateSize_eq_some hdirection hopening hprobe

/-- No other opening begins a longer one. -/
theorem HoldsShifted.candidateSize_le (h : HoldsShifted accumulator lsbFirst shift body) {opening : HdlcSyncOpening}
    (hopening : opening.bit_pos ≠ 0 ∨ opening.shift_right = true ∨ 1 ≤ opening.start_index) {frame_size : Nat}
    (hsize : candidateSize accumulator opening = some frame_size) : frame_size ≤ body.length + 2 := by
  have hposition := h.position_eq
  obtain ⟨hle, hlt⟩ := hdlc_sync.candidateSize_le hsize
  obtain hshifted | hright | hstart := hopening
  · have := hlt hshifted
    omega
  · by_cases hzero : opening.bit_pos = 0
    · rw [candidateSize, if_pos ⟨hzero, hright⟩] at hsize
      cases hsize
    · have := hlt hzero
      omega
  · omega

/-- The exhaustive search selects the true opening. -/
theorem HoldsShifted.find_opening (h : HoldsShifted accumulator lsbFirst shift body) (hlength : body.length ≤ 61) :
    hdlc_sync_find_opening accumulator 0 = some (trueOpening lsbFirst shift) := by
  have hposition := h.position_eq
  have htwo := h.two_le
  obtain ⟨earlier, later, hopenings, hearlier, hlater⟩ :=
    exists_openings_split lsbFirst h.shift_lt (body.length + 1)
  have hcount : accumulator.position - 1 = body.length + 1 + 1 := by omega
  have hshort : hdlc_sync_find_complete_candidate_short accumulator 0 = some (trueOpening lsbFirst shift) := by
    refine hdlc_sync_find_complete_candidate_short_eq ?_ ?_ (hcount ▸ hopenings) ?_ h.candidateSize_trueOpening ?_
    · rw [HDLC_SYNC_MIN_FRAME_SIZE_BYTES]
      omega
    · rw [HDLC_SYNC_SHORT_BUFFER_SEARCH_LIMIT]
      omega
    · rintro ⟨start_index, bit_pos, shift_right⟩ hmem
      obtain ⟨rfl, hbefore⟩ := hearlier _ hmem
      exact h.candidateSize_of_before hbefore
    · intro opening hmem size hsize
      exact h.candidateSize_le (hlater opening hmem) hsize
  rw [hdlc_sync_find_opening, hshort]

/-- The true opening closes at the end of the frame. -/
theorem HoldsShifted.closesAt (h : HoldsShifted accumulator lsbFirst shift body) (out_frame : HdlcFrame) :
    ClosesAt (hdlc_sync_lock (restCursor accumulator out_frame) (trueOpening lsbFirst shift)).accumulator []
      (body.length + 1) := by
  have htwo := h.two_le
  have haligned : ∀ k, ({ (hdlc_sync_lock (restCursor accumulator out_frame)
      (trueOpening lsbFirst shift)).accumulator with buffer := accumulator.buffer ++ [] } :
        HdlcSyncAccumulator).alignedAt k =
      hdlc_sync_get_aligned_byte accumulator k shift (trueOpening lsbFirst shift).shift_right := by
    intro k
    rw [List.append_nil]
    rfl
  refine ⟨?_, (haligned _).trans h.aligned_last, ?_⟩
  · dsimp only [hdlc_sync_lock, trueOpening]
    omega
  · intro i hstart hlt
    dsimp only [hdlc_sync_lock, trueOpening] at hstart
    obtain ⟨byte, hbyte, hne⟩ := h.aligned_body (by omega) hlt
    refine ne_of_eq_of_ne ((haligned i).trans hbyte) ?_
    intro hsync
    exact hne (Option.some_inj.mp hsync)

/-- One poll recovers the frame. -/
theorem HoldsShifted.poll (h : HoldsShifted accumulator lsbFirst shift body) (hlength : body.length ≤ 61)
    (hhunting : accumulator.state = .HDLC_SYNC_STATE_HUNTING) (hprocessed : accumulator.processed = 0)
    {out_frame : HdlcFrame} (hcapacity : body.length + 2 ≤ out_frame.capacity) :
    LockedPoll (hdlc_sync_lock (restCursor accumulator out_frame) (trueOpening lsbFirst shift)).accumulator
      out_frame.capacity (body.length + 1) (hdlc_sync_acc_poll accumulator out_frame) := by
  have hposition := h.position_eq
  have hfound := h.find_opening hlength
  have hturn : pollLoop.body (restCursor accumulator out_frame) =
      .inl (hdlc_sync_lock (restCursor accumulator out_frame) (trueOpening lsbFirst shift)) := by
    refine hdlc_sync_poll_turn_lock ?_ hhunting ?_
    · simp only [restCursor, hprocessed]
      omega
    · rw [restCursor, hprocessed]
      exact hfound
  rw [hdlc_sync_acc_poll_hunting (by omega) (by omega) hhunting, Loop.Terminating.run_of_inl hturn]
  obtain ⟨hinside, hsync⟩ := hdlc_sync_find_opening_inside hfound
  have hcarries : Carries (hdlc_sync_lock (restCursor accumulator out_frame) (trueOpening lsbFirst shift)).accumulator
      out_frame.capacity (hdlc_sync_lock (restCursor accumulator out_frame) (trueOpening lsbFirst shift)) :=
    ⟨.lock hinside hsync, (fun hstate => by cases hstate), ⟨_, rfl⟩, rfl⟩
  refine hcarries.run (h.closesAt out_frame) ?_ ?_
  · dsimp only [hdlc_sync_lock, trueOpening]
    rw [HDLC_SYNC_MAX_REASONABLE_FRAME_SIZE_BYTES]
    omega
  · dsimp only [hdlc_sync_lock, trueOpening]
    omega

end

/-- The reported bit offset is that of the equivalent left shift. -/
theorem reported_bit_offset (lsbFirst : Bool) {shift : Nat} (hshift : shift < 8) :
    (if (trueOpening lsbFirst shift).shift_right ∧ shift > 0 then HDLC_BITS_PER_BYTE - shift else shift) =
      if lsbFirst then (8 - shift) % 8 else shift := by
  rw [trueOpening, HDLC_BITS_PER_BYTE]
  cases lsbFirst with
  | false => rfl
  | true =>
    simp only [Bool.true_and, decide_eq_true_eq, if_true]
    split
    · omega
    · omega

/-- A short frame is recovered at any phase and in either bit order: received
as a whole by a fresh accumulator, it is what the first poll reports. -/
theorem hdlc_sync_recovers_short_frame (body : List UInt8) (hbody : ∀ byte ∈ body, byte ≠ HDLC_FLAG_BYTE)
    (hmin : 2 ≤ body.length) (hmax : body.length ≤ 61) (lsbFirst : Bool) (shift : Nat) (hshift : shift < 8)
    (out_frame : HdlcFrame) (hcapacity : body.length + 2 ≤ out_frame.capacity) :
    let frame := HDLC_FLAG_BYTE :: (body ++ [HDLC_FLAG_BYTE])
    let accumulator := process_bytes (hdlc_sync_acc_init HDLC_FLAG_BYTE) (shiftedFrame lsbFirst shift frame)
    let polled := hdlc_sync_acc_poll accumulator out_frame
    accumulator.position = frame.length + 1 ∧
    polled.result = .E2S_ERR_HDLC_ACC_FRAME_READY ∧ polled.out_frame.payload = frame ∧
    polled.accumulator.state = .HDLC_SYNC_STATE_HUNTING ∧ polled.accumulator.candidate_start = 0 ∧
    polled.accumulator.bit_offset = if lsbFirst then (8 - shift) % 8 else shift := by
  intro frame accumulator polled
  have hlength : (shiftedFrame lsbFirst shift frame).length = frame.length + 1 := length_shiftedFrame hshift
  have hframe : frame.length = body.length + 2 := by simp [frame]
  have haccumulator : accumulator =
      { hdlc_sync_acc_init HDLC_FLAG_BYTE with buffer := shiftedFrame lsbFirst shift frame } := by
    refine process_bytes_of_le ?_
    rw [RX_HDLC_SYNC_MAX_BUFFER_SIZE, hlength, hframe]
    change 0 + _ ≤ _
    omega
  have hholds : HoldsShifted accumulator lsbFirst shift body :=
    ⟨by rw [haccumulator], by rw [haccumulator]; rfl, hshift, hbody, hmin⟩
  have hpoll := @HoldsShifted.poll _ _ _ _ hholds hmax (by rw [haccumulator]; rfl) (by rw [haccumulator]; rfl) _
    hcapacity
  refine ⟨by rw [hholds.position_eq, hframe], ?_⟩
  cases hpoll with
  | waits hmissing hresult hsame hlocked hassembles hkept => exact absurd (hholds.received (by omega) _) hmissing
  | closes hreceived hresult hclosed hpayload =>
    refine ⟨hresult, ?_, ?_, ?_, ?_⟩
    · apply List.map_injective_iff.mpr fun _ _ h => Option.some_inj.mp h
      exact hpayload.trans hholds.map_aligned
    · rw [hclosed]
      rfl
    · rw [hclosed]
      rfl
    · rw [hclosed]
      exact reported_bit_offset lsbFirst hshift

theorem hdlc_sync_recovers_short_frame_of_four :
    let accumulator := process_bytes (hdlc_sync_acc_init HDLC_FLAG_BYTE) (shiftedFrame true 3 [0x7E, 0xFF, 0xFF, 0x7E])
    (hdlc_sync_acc_poll accumulator (.empty 4)).out_frame.payload = [0x7E, 0xFF, 0xFF, 0x7E] ∧
      (hdlc_sync_acc_poll accumulator (.empty 4)).accumulator.bit_offset = 5 := by
  obtain ⟨-, -, hpayload, -, -, hoffset⟩ := hdlc_sync_recovers_short_frame [0xFF, 0xFF] (by simp [HDLC_FLAG_BYTE])
    (by decide) (by decide) true 3 (by decide) (.empty 4) (by decide)
  exact ⟨hpayload, hoffset⟩

end ether2ser.hdlc_sync
