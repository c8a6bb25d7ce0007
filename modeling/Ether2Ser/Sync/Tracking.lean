import Ether2Ser.Hdlc.Stream.Flags
import Ether2Ser.Sync.Search

open Bits
open ether2ser.error ether2ser.hdlc_common ether2ser.hdlc

namespace ether2ser.hdlc_sync

/-- The bits still held by the receiver, followed by those not yet read. -/
def HdlcSyncAccumulator.lineBits (accumulator : HdlcSyncAccumulator) (unread : List UInt8) : List Bool :=
  bytesBits true (accumulator.buffer ++ unread)

/-- A hunting receiver stands before the next transmission: ahead of it are at
most a rest of the closing flag it has accepted and then the line. -/
structure Hunts (cursor : HdlcSyncCursor) (unread : List UInt8) (slack : Nat) (ts : List (Transmission true))
    (lastGap : Nat) : Prop where
  hunting : cursor.accumulator.state = .HDLC_SYNC_STATE_HUNTING
  sync : cursor.accumulator.sync_byte = HDLC_FLAG_BYTE
  scan_zero : cursor.scan_index = 0
  line : ∃ k > 0, cursor.accumulator.lineBits unread = flagBits.drop k ++ streamBits ts lastGap
  position_le : cursor.accumulator.position ≤ slack + 1

/-- A locked receiver has the start and the bit phase of a transmission's
frame and has stored its bytes up to the cursor. -/
structure Follows (cursor : HdlcSyncCursor) (unread : List UInt8) (slack lead : Nat) (t : Transmission true)
    (ts : List (Transmission true)) (lastGap : Nat) : Prop where
  locked : cursor.accumulator.state ≠ .HDLC_SYNC_STATE_HUNTING
  sync : cursor.accumulator.sync_byte = HDLC_FLAG_BYTE
  offset_lt : cursor.accumulator.bit_offset < 8
  right : cursor.accumulator.bit_offset = 0 ∨ cursor.accumulator.align_shift_right = true
  line : (cursor.accumulator.lineBits unread).drop
    (8 * cursor.accumulator.candidate_start + cursor.accumulator.bit_offset) =
      bytesBits true t.frame.payload ++ streamBits ts lastGap
  start_lt : cursor.accumulator.candidate_start < cursor.scan_index
  syncing : cursor.accumulator.state = .HDLC_SYNC_STATE_SYNCING →
    cursor.scan_index = cursor.accumulator.candidate_start + 1
  unfinished : cursor.scan_index - cursor.accumulator.candidate_start < t.frame.length
  stored : cursor.out_frame.payload =
    t.frame.payload.take (cursor.scan_index - cursor.accumulator.candidate_start)
  scan_le : cursor.scan_index ≤ cursor.accumulator.position
  start_le : cursor.accumulator.candidate_start ≤ lead
  position_lt : 8 * cursor.accumulator.position < 8 * (cursor.scan_index + 1 + slack) + cursor.accumulator.bit_offset

/-- The receiver is in step with a line on which the given payloads are still
to come. `slack` bounds the bytes received since the last poll and `lead` the
bytes kept in front of a candidate. -/
inductive Tracks (cursor : HdlcSyncCursor) (unread : List UInt8) (slack lead : Nat) : List (List UInt8) → Prop where
  | hunts {ts : List (Transmission true)} {lastGap : Nat} (h : Hunts cursor unread slack ts lastGap)
      (hsize : ∀ t ∈ ts, t.frame.length ≤ HDLC_SYNC_MAX_REASONABLE_FRAME_SIZE_BYTES) :
      Tracks cursor unread slack lead (ts.map (·.payload))
  | follows {t : Transmission true} {ts : List (Transmission true)} {lastGap : Nat}
      (h : Follows cursor unread slack lead t ts lastGap)
      (hfits : t.frame.length ≤ HDLC_SYNC_MAX_REASONABLE_FRAME_SIZE_BYTES)
      (hsize : ∀ t ∈ ts, t.frame.length ≤ HDLC_SYNC_MAX_REASONABLE_FRAME_SIZE_BYTES) :
      Tracks cursor unread slack lead (t.payload :: ts.map (·.payload))

theorem lineBits_eq (accumulator : HdlcSyncAccumulator) (unread : List UInt8) :
    accumulator.lineBits unread = accumulator.rawBits ++ bytesBits true unread :=
  bytesBits_append true accumulator.buffer unread

theorem drop_lineBits {accumulator : HdlcSyncAccumulator} {n : Nat} (hn : n ≤ accumulator.position)
    (unread : List UInt8) :
    (accumulator.lineBits unread).drop (8 * n) = bytesBits true (accumulator.buffer.drop n ++ unread) := by
  rw [HdlcSyncAccumulator.lineBits, drop_bytesBits, List.drop_append_of_le_length hn]

theorem occursAt_lineBits {accumulator : HdlcSyncAccumulator} {unread : List UInt8} {j : Nat}
    (h : OccursAt flagBits j accumulator.rawBits) : OccursAt flagBits j (accumulator.lineBits unread) := by
  rw [lineBits_eq]
  exact h.append_right _

theorem occursAt_rawBits {accumulator : HdlcSyncAccumulator} {unread : List UInt8} {j : Nat}
    (h : OccursAt flagBits j (accumulator.lineBits unread)) (hinside : j + 8 ≤ 8 * accumulator.position) :
    OccursAt flagBits j accumulator.rawBits := by
  rw [lineBits_eq] at h
  exact h.of_append (by rw [length_rawBits]; exact hinside)

/-- The first flag of the line opens the next frame. -/
theorem Hunts.line_of_firstFlag {cursor : HdlcSyncCursor} {unread : List UInt8} {slack : Nat}
    {ts : List (Transmission true)} {lastGap : Nat} (h : Hunts cursor unread slack ts lastGap)
    {opening : HdlcSyncOpening} (hfirst : FirstFlag cursor.accumulator opening) :
    ∃ t ts', ts = t :: ts' ∧
      (cursor.accumulator.lineBits unread).drop (8 * opening.start_index + opening.bit_pos) =
        bytesBits true t.frame.payload ++ streamBits ts' lastGap := by
  obtain ⟨k, hk, hline⟩ := h.line
  have hoccurs := @occursAt_lineBits _ unread _ hfirst.occurs
  rw [hline] at hoccurs
  obtain ⟨hbehind, hflag⟩ := occursAt_of_residue_append hk (head?_streamBits_ne_true ts lastGap) hoccurs
  cases ts with
  | nil =>
    have hmem := mem_flagPositions_of_occursAt hflag
    simp [flagPositions] at hmem
  | cons t ts =>
    have hgap := gap_le_of_occursAt hflag
    have hopen := @occursAt_of_mem_flagPositions _ (t :: ts) lastGap 0 t.gap (by simp [flagPositions])
    rw [Nat.sub_zero, ← occursAt_length_add (flagBits.drop k), ← hline] at hopen
    have hstart : (flagBits.drop k).length + t.gap = 8 * opening.start_index + opening.bit_pos := by
      by_contra hne
      have hinside : (flagBits.drop k).length + t.gap + 8 ≤ 8 * cursor.accumulator.position := by
        have hlt := hfirst.start_lt
        have hbit := hfirst.bit_pos_lt
        omega
      exact hfirst.first _ (by omega) (occursAt_rawBits hopen hinside)
    refine ⟨t, ts, rfl, ?_⟩
    rw [hline, ← hstart, List.drop_length_add_append, streamBits, List.drop_left' (List.length_replicate ..)]

/-- It locks the receiver on that frame. -/
theorem Hunts.lock {cursor : HdlcSyncCursor} {unread : List UInt8} {slack lead : Nat} {ts : List (Transmission true)}
    {lastGap : Nat} (h : Hunts cursor unread slack ts lastGap) (hlead : slack ≤ lead) {opening : HdlcSyncOpening}
    (hfirst : FirstFlag cursor.accumulator opening) :
    ∃ t ts', ts = t :: ts' ∧ Follows (hdlc_sync_lock cursor opening) unread slack lead t ts' lastGap := by
  obtain ⟨t, ts', rfl, hline⟩ := h.line_of_firstFlag hfirst
  have hfour := t.four_le_length_frame
  have hlt := hfirst.start_lt
  have hposition := h.position_le
  refine ⟨t, ts', rfl, ?_⟩
  exact
    { locked := by simp [hdlc_sync_lock]
      sync := h.sync
      offset_lt := hfirst.bit_pos_lt
      right := hfirst.right
      line := hline
      start_lt := Nat.lt_succ_self _
      syncing := fun _ => rfl
      unfinished := by
        simp only [hdlc_sync_lock]
        omega
      stored := by
        have hhead := t.getElem?_frame_zero
        simp only [hdlc_sync_lock, h.sync, Nat.add_sub_cancel_left]
        rw [List.take_one, List.head?_eq_getElem?, hhead]
        rfl
      scan_le := Nat.le_of_lt hlt
      start_le := by
        simp only [hdlc_sync_lock]
        omega
      position_lt := by
        simp only [hdlc_sync_lock, HdlcSyncAccumulator.position] at hposition ⊢
        omega }

/-- What is dropped when no flag has been found was idle, up to a rest of the
last closing flag. -/
theorem Hunts.exists_dropped {cursor : HdlcSyncCursor} {unread : List UInt8} {slack : Nat}
    {ts : List (Transmission true)} {lastGap : Nat} (h : Hunts cursor unread slack ts lastGap)
    (hnone : ∀ j < 8 * (cursor.accumulator.position - 1), ¬ OccursAt flagBits j cursor.accumulator.rawBits) :
    ∃ k > 0, ∃ ts' : List (Transmission true), ∃ lastGap',
      (cursor.accumulator.lineBits unread).drop (8 * (cursor.accumulator.position - 1)) =
        flagBits.drop k ++ streamBits ts' lastGap' ∧
      ts'.map (·.payload) = ts.map (·.payload) ∧ ts'.map (·.frame) = ts.map (·.frame) := by
  obtain ⟨k, hk, hline⟩ := h.line
  by_cases hone : cursor.accumulator.position ≤ 1
  · have hzero : cursor.accumulator.position - 1 = 0 := by omega
    refine ⟨k, hk, ts, lastGap, ?_, rfl, rfl⟩
    rw [hzero, ← hline]
    rfl
  · have hresidue : (flagBits.drop k).length ≤ 8 * (cursor.accumulator.position - 1) := by
      simp only [List.length_drop, flagBits, List.length_cons, List.length_nil]
      omega
    have hidle : ∀ i < 8 * (cursor.accumulator.position - 1) - (flagBits.drop k).length,
        ¬ OccursAt flagBits i (streamBits ts lastGap) := by
      intro i hi hoccurs
      rw [← occursAt_length_add (flagBits.drop k), ← hline] at hoccurs
      exact hnone _ (by omega) (occursAt_rawBits hoccurs (by omega))
    obtain ⟨ts', lastGap', hdrop, hpayload, hframe⟩ := exists_drop_streamBits hidle
    refine ⟨8, by decide, ts', lastGap', ?_, hpayload, hframe⟩
    rw [hline, List.drop_append, List.drop_eq_nil_of_le hresidue, hdrop]
    rfl

/-- The aligned byte at the cursor of a locked receiver is the next byte of
the frame. -/
theorem Follows.aligned_eq {cursor : HdlcSyncCursor} {unread : List UInt8} {slack lead : Nat} {t : Transmission true}
    {ts : List (Transmission true)} {lastGap : Nat} (h : Follows cursor unread slack lead t ts lastGap) :
    cursor.aligned =
      if 8 * cursor.scan_index + cursor.accumulator.bit_offset + 8 ≤ 8 * cursor.accumulator.position then
        t.frame.payload[cursor.scan_index - cursor.accumulator.candidate_start]?
      else none := by
  rw [HdlcSyncCursor.aligned, hdlc_sync_get_aligned_byte_eq h.offset_lt h.right]
  split
  · rename_i hinside
    have hstart := h.start_lt
    have hlt : cursor.scan_index - cursor.accumulator.candidate_start < t.frame.payload.length := h.unfinished
    have hindex : 8 * cursor.scan_index + cursor.accumulator.bit_offset =
        8 * cursor.accumulator.candidate_start + cursor.accumulator.bit_offset +
          8 * (cursor.scan_index - cursor.accumulator.candidate_start) := by omega
    have hbyte := @byteAt_append_left true _ (bytesBits true unread) _
      (show 8 * cursor.scan_index + cursor.accumulator.bit_offset + 8 ≤ cursor.accumulator.rawBits.length by simpa)
    rw [← hbyte, ← lineBits_eq, hindex, ← byteAt_drop, h.line, byteAt_append_left (by rw [length_bytesBits]; omega),
      ← getD_eq_byteAt hlt, List.getD_eq_getElem?_getD, List.getElem?_eq_getElem hlt]
    rfl
  · rfl

theorem Follows.length_out_frame {cursor : HdlcSyncCursor} {unread : List UInt8} {slack lead : Nat}
    {t : Transmission true} {ts : List (Transmission true)} {lastGap : Nat}
    (h : Follows cursor unread slack lead t ts lastGap) :
    cursor.out_frame.length = cursor.scan_index - cursor.accumulator.candidate_start := by
  have hlt : cursor.scan_index - cursor.accumulator.candidate_start < t.frame.payload.length := h.unfinished
  rw [HdlcFrame.length, h.stored, List.length_take]
  omega

/-- A byte that is not the closing flag leaves the frame unfinished. -/
theorem Follows.not_last {cursor : HdlcSyncCursor} {unread : List UInt8} {slack lead : Nat} {t : Transmission true}
    {ts : List (Transmission true)} {lastGap : Nat} (h : Follows cursor unread slack lead t ts lastGap)
    {aligned : UInt8}
    (hbyte : t.frame.payload[cursor.scan_index - cursor.accumulator.candidate_start]? = some aligned)
    (hinside : cursor.accumulator.state = .HDLC_SYNC_STATE_SYNCED → aligned ≠ cursor.accumulator.sync_byte) :
    cursor.scan_index - cursor.accumulator.candidate_start + 1 < t.frame.length := by
  have hunfinished := h.unfinished
  by_contra hend
  cases hstate : cursor.accumulator.state with
  | HDLC_SYNC_STATE_HUNTING => exact h.locked hstate
  | HDLC_SYNC_STATE_SYNCING =>
    have hscan := h.syncing hstate
    have hfour := t.four_le_length_frame
    omega
  | HDLC_SYNC_STATE_SYNCED =>
    have hindex : cursor.scan_index - cursor.accumulator.candidate_start = t.frame.length - 1 := by omega
    rw [hindex, t.getElem?_frame_last, Option.some.injEq] at hbyte
    exact hinside hstate (hbyte.symm.trans h.sync.symm)

/-- Storing it keeps the receiver on the frame. -/
theorem Follows.store {cursor : HdlcSyncCursor} {unread : List UInt8} {slack lead : Nat} {t : Transmission true}
    {ts : List (Transmission true)} {lastGap : Nat} (h : Follows cursor unread slack lead t ts lastGap)
    {aligned : UInt8}
    (haligned : cursor.aligned = some aligned)
    (hinside : cursor.accumulator.state = .HDLC_SYNC_STATE_SYNCED → aligned ≠ cursor.accumulator.sync_byte) :
    Follows
      { accumulator := { cursor.accumulator with state := .HDLC_SYNC_STATE_SYNCED }
        out_frame := { cursor.out_frame with payload := cursor.out_frame.payload ++ [aligned] }
        scan_index := cursor.scan_index + 1 } unread slack lead t ts lastGap := by
  have hstart := h.start_lt
  have hposition := h.position_lt
  rw [h.aligned_eq] at haligned
  split at haligned
  case isFalse => cases haligned
  case isTrue hreceived =>
    have hlast := h.not_last haligned hinside
    exact
      { locked := by simp
        sync := h.sync
        offset_lt := h.offset_lt
        right := h.right
        line := h.line
        start_lt := by
          simp only
          omega
        syncing := by simp
        unfinished := by
          simp only
          omega
        stored := by
          simp only
          rw [h.stored, Nat.sub_add_comm (Nat.le_of_lt hstart), List.take_add_one, haligned]
          rfl
        scan_le := by
          simp only [HdlcSyncAccumulator.position] at hreceived ⊢
          omega
        start_le := h.start_le
        position_lt := by
          simp only [HdlcSyncAccumulator.position] at hposition ⊢
          omega }

end ether2ser.hdlc_sync
