import Ether2Ser.Bits.Window
import Ether2Ser.Hdlc.Stream
import Ether2Ser.Sync.Poll

open Bits
open ether2ser.hdlc_common ether2ser.hdlc

namespace ether2ser.hdlc_sync

/-- The received bits in line order. -/
def HdlcSyncAccumulator.rawBits (accumulator : HdlcSyncAccumulator) : List Bool := bytesBits true accumulator.buffer

@[simp]
theorem length_rawBits (accumulator : HdlcSyncAccumulator) :
    accumulator.rawBits.length = 8 * accumulator.position := length_bytesBits true accumulator.buffer

/-- At a right shift, the aligned byte is the eight received bits from the bit
phase on. It is available once the last of them has been received. -/
theorem hdlc_sync_get_aligned_byte_eq {accumulator : HdlcSyncAccumulator} {raw_index bit_offset : Nat}
    {shift_right : Bool} (hoffset : bit_offset < 8) (hright : bit_offset = 0 ∨ shift_right = true) :
    hdlc_sync_get_aligned_byte accumulator raw_index bit_offset shift_right =
      if 8 * raw_index + bit_offset + 8 ≤ 8 * accumulator.position then
        some (byteAt true accumulator.rawBits (8 * raw_index + bit_offset))
      else none := by
  by_cases hreceived : accumulator.Received bit_offset raw_index
  · rw [hdlc_sync_get_aligned_byte_of_received hoffset hreceived]
    obtain ⟨hinside, hnext⟩ := hreceived
    by_cases hzero : bit_offset = 0
    · rw [composed, if_pos hzero, hzero, if_pos (by omega), getD_eq_byteAt hinside]
      rfl
    · have hbehind := hnext hzero
      rw [composed, if_neg hzero, if_pos (hright.resolve_left hzero), if_pos (by omega),
        shiftRight_or_shiftLeft_eq_byteAt (Nat.pos_of_ne_zero hzero) hoffset hbehind]
      rfl
  · rw [hdlc_sync_get_aligned_byte_of_missing hreceived, if_neg]
    rw [HdlcSyncAccumulator.Received, not_and_or, Classical.not_imp] at hreceived
    omega

/-- The eight received bits from a bit position on are the sync byte. -/
def HdlcSyncAccumulator.SyncAt (accumulator : HdlcSyncAccumulator) (bit : Nat) : Prop :=
  OccursAt (byteBits true accumulator.sync_byte) bit accumulator.rawBits

theorem syncAt_iff_flag {accumulator : HdlcSyncAccumulator} (hsync : accumulator.sync_byte = HDLC_FLAG_BYTE)
    (bit : Nat) : accumulator.SyncAt bit ↔ OccursAt flagBits bit accumulator.rawBits := by
  rw [HdlcSyncAccumulator.SyncAt, hsync, byteBits_flag]

theorem HdlcSyncAccumulator.SyncAt.le {accumulator : HdlcSyncAccumulator} {bit : Nat} (h : accumulator.SyncAt bit) :
    bit + 8 ≤ 8 * accumulator.position := by
  have hlength := List.IsPrefix.length_le h
  rw [length_byteBits, List.length_drop, length_rawBits] at hlength
  omega

/-- The aligned byte at a right shift is the sync byte exactly where the
received bits show it. -/
theorem aligned_is_sync_iff {accumulator : HdlcSyncAccumulator} {raw_index bit_offset : Nat} {shift_right : Bool}
    (hoffset : bit_offset < 8) (hright : bit_offset = 0 ∨ shift_right = true) :
    aligned_is_sync accumulator raw_index bit_offset shift_right ↔
      accumulator.SyncAt (8 * raw_index + bit_offset) := by
  unfold aligned_is_sync
  rw [hdlc_sync_get_aligned_byte_eq hoffset hright, beq_iff_eq]
  split
  · rename_i hle
    rw [Option.some.injEq, byteAt_eq_iff_occursAt (by simpa using hle)]
    rfl
  · rename_i hlt
    simp only [reduceCtorEq, false_iff]
    intro hoccurs
    exact hlt hoccurs.le

/-- An opening names the first sync byte among the received bits behind the
start of a search, as far as it starts before the last received byte. -/
structure FirstSync (accumulator : HdlcSyncAccumulator) (scan_index : Nat) (opening : HdlcSyncOpening) : Prop where
  bit_pos_lt : opening.bit_pos < 8
  right : opening.shift_right = decide (opening.bit_pos ≠ 0)
  le_start : search_start scan_index ≤ opening.start_index
  start_lt : opening.start_index + 1 < accumulator.position
  occurs : accumulator.SyncAt (8 * opening.start_index + opening.bit_pos)
  first : ∀ j, 8 * search_start scan_index ≤ j → j < 8 * opening.start_index + opening.bit_pos → ¬accumulator.SyncAt j

section

variable {accumulator : HdlcSyncAccumulator}

private theorem not_syncAt_of_find_none {start : Nat}
    (hfind : shifted_bit_positions.find? (aligned_is_sync accumulator start · true) = none)
    (hzero : ¬aligned_is_sync accumulator start 0 false) :
    ∀ bit_pos < 8, ¬accumulator.SyncAt (8 * start + bit_pos) := by
  intro bit_pos hlt
  obtain rfl | hpos := Nat.eq_zero_or_pos bit_pos
  · rwa [aligned_is_sync_iff (by omega) (.inl rfl)] at hzero
  · have hmiss := List.find?_range'_eq_none.mp hfind bit_pos (by omega) (by simp [HDLC_BITS_PER_BYTE]; omega)
    rwa [Bool.not_eq_true', ← Bool.not_eq_true, aligned_is_sync_iff hlt (.inr rfl)] at hmiss

/-- A turn of the fast search that fails has seen no sync byte start in its
byte. -/
theorem hdlc_sync_find_opening_at_none {start : Nat}
    (hnone : hdlc_sync_find_opening_at accumulator false start = none) :
    ∀ bit_pos < 8, ¬accumulator.SyncAt (8 * start + bit_pos) := by
  unfold hdlc_sync_find_opening_at at hnone
  split at hnone
  · cases hnone
  · rename_i hzero
    split at hnone
    · cases hnone
    · rename_i hfind
      exact not_syncAt_of_find_none hfind hzero

/-- A turn of the fast search that succeeds finds the first sync byte that
starts in its byte. -/
theorem hdlc_sync_find_opening_at_some {start : Nat} {opening : HdlcSyncOpening}
    (hsome : hdlc_sync_find_opening_at accumulator false start = some opening) :
    opening.start_index = start ∧ opening.bit_pos < 8 ∧ opening.shift_right = decide (opening.bit_pos ≠ 0) ∧
      accumulator.SyncAt (8 * start + opening.bit_pos) ∧
      ∀ bit_pos < opening.bit_pos, ¬accumulator.SyncAt (8 * start + bit_pos) := by
  unfold hdlc_sync_find_opening_at at hsome
  split at hsome
  · rename_i hzero
    cases hsome
    rw [aligned_is_sync_iff (by omega) (.inl rfl)] at hzero
    exact ⟨rfl, by simp, rfl, hzero, by simp⟩
  · rename_i hzero
    rw [aligned_is_sync_iff (by omega) (.inl rfl)] at hzero
    split at hsome
    · rename_i found hfind
      cases hsome
      obtain ⟨hflag, hmem, hbefore⟩ := List.find?_range'_eq_some.mp hfind
      rw [List.mem_range'_1, HDLC_BITS_PER_BYTE] at hmem
      rw [aligned_is_sync_iff (by omega) (.inr rfl)] at hflag
      refine ⟨rfl, by simp; omega, (decide_eq_true (by dsimp only; omega)).symm, hflag, ?_⟩
      intro bit_pos hlt
      obtain rfl | hpos := Nat.eq_zero_or_pos bit_pos
      · exact hzero
      · have hmiss := hbefore bit_pos (by omega) hlt
        rwa [Bool.not_eq_true', ← Bool.not_eq_true, aligned_is_sync_iff (by simp at hlt; omega) (.inr rfl)] at hmiss
    · cases hsome

/-- The fast search fails only if no sync byte starts behind the start of the
search and before the last received byte. -/
theorem hdlc_sync_find_opening_candidate_none {scan_index : Nat}
    (hnone : hdlc_sync_find_opening_candidate accumulator scan_index false = none) :
    ∀ j, 8 * search_start scan_index ≤ j → j < 8 * (accumulator.position - 1) → ¬accumulator.SyncAt j := by
  intro j hstart hj
  unfold hdlc_sync_find_opening_candidate at hnone
  rw [if_neg (by omega), if_neg (by omega), List.findSome?_eq_none_iff] at hnone
  have hturn := hnone (j / 8) (by rw [List.mem_range'_1]; omega)
  have hmiss := hdlc_sync_find_opening_at_none hturn (j % 8) (Nat.mod_lt _ (by omega))
  rwa [Nat.div_add_mod] at hmiss

/-- The fast search finds the first sync byte. -/
theorem hdlc_sync_find_opening_candidate_some {scan_index : Nat} {opening : HdlcSyncOpening}
    (hsome : hdlc_sync_find_opening_candidate accumulator scan_index false = some opening) :
    FirstSync accumulator scan_index opening := by
  unfold hdlc_sync_find_opening_candidate at hsome
  split at hsome
  · cases hsome
  · rename_i htwo
    dsimp only at hsome
    split at hsome
    · cases hsome
    · obtain ⟨before, start, after, hrange, hturn, hbefore⟩ := List.findSome?_eq_some_iff.mp hsome
      obtain ⟨k, hk, rfl, htail⟩ := List.range'_eq_append_iff.mp hrange
      obtain ⟨hstart, hpos, -⟩ := List.range'_eq_cons_iff.mp htail.symm
      obtain ⟨rfl, hlt, hright, hoccurs, hfirst⟩ := hdlc_sync_find_opening_at_some hturn
      rw [Nat.mul_one] at hstart
      refine ⟨hlt, hright, by omega, by omega, hoccurs, ?_⟩
      intro j hlow hj
      by_cases hbyte : j / 8 < opening.start_index
      · have hmiss := hdlc_sync_find_opening_at_none (hbefore (j / 8) (by rw [List.mem_range'_1]; omega)) (j % 8)
          (Nat.mod_lt _ (by omega))
        rwa [Nat.div_add_mod] at hmiss
      · have hmiss := hfirst (j - 8 * opening.start_index) (by omega)
        rwa [show 8 * opening.start_index + (j - 8 * opening.start_index) = j by omega] at hmiss

end

/-- An opening names the first flag among the received bits. -/
structure FirstFlag (accumulator : HdlcSyncAccumulator) (opening : HdlcSyncOpening) : Prop where
  bit_pos_lt : opening.bit_pos < 8
  right : opening.bit_pos = 0 ∨ opening.shift_right = true
  start_lt : opening.start_index + 1 < accumulator.position
  occurs : OccursAt flagBits (8 * opening.start_index + opening.bit_pos) accumulator.rawBits
  first : ∀ j < 8 * opening.start_index + opening.bit_pos, ¬ OccursAt flagBits j accumulator.rawBits

section

variable {accumulator : HdlcSyncAccumulator} (hsync : accumulator.sync_byte = HDLC_FLAG_BYTE)
include hsync

/-- A search from the start of the buffer finds the first flag. -/
theorem FirstSync.firstFlag {opening : HdlcSyncOpening} (h : FirstSync accumulator 0 opening) :
    FirstFlag accumulator opening where
  bit_pos_lt := h.bit_pos_lt
  right := by
    rw [h.right, decide_eq_true_eq]
    exact em _
  start_lt := h.start_lt
  occurs := (syncAt_iff_flag hsync _).mp h.occurs
  first := fun j hj hflag => h.first j (Nat.zero_le _) hj ((syncAt_iff_flag hsync j).mpr hflag)

/-- A search from the start of the buffer fails only if no flag starts before
the last received byte. -/
theorem not_flag_of_find_opening_candidate_none
    (hnone : hdlc_sync_find_opening_candidate accumulator 0 false = none) :
    ∀ j < 8 * (accumulator.position - 1), ¬ OccursAt flagBits j accumulator.rawBits := by
  intro j hj hflag
  exact hdlc_sync_find_opening_candidate_none hnone j (Nat.zero_le _) hj ((syncAt_iff_flag hsync j).mpr hflag)

end

end ether2ser.hdlc_sync
