import Ether2Ser.Sync.Consume
import Ether2Ser.Sync.Tracking

open Bits
open ether2ser.error ether2ser.hdlc_common ether2ser.hdlc

namespace ether2ser.hdlc_sync

/-- The exhaustive search of short buffers does not change which opening a
hunting poll locks on. -/
def ShortSearchAgrees (accumulator : HdlcSyncAccumulator) : Prop :=
  hdlc_sync_find_opening accumulator accumulator.processed =
    hdlc_sync_find_opening_candidate accumulator accumulator.processed false

instance (accumulator : HdlcSyncAccumulator) : Decidable (ShortSearchAgrees accumulator) :=
  inferInstanceAs (Decidable (_ = _))

/-- A receiver in step with the line has finished a poll: either it needs more
bytes, or it has the frame of the next payload and is in step behind it once
the candidate is accepted. -/
inductive PollTracks (unread : List UInt8) (slack lead : Nat) (payloads : List (List UInt8)) (polled : HdlcSyncPolled) :
    Prop where
  | waits (hresult : polled.result = .E2S_OK)
      (htracks : Tracks (restCursor polled.accumulator polled.out_frame) unread 0 lead payloads)
  | ready (t : Transmission true) (rest : List (List UInt8)) (hresult : polled.result = .E2S_ERR_HDLC_ACC_FRAME_READY)
      (hpayloads : payloads = t.payload :: rest)
      (hfits : t.frame.length ≤ HDLC_SYNC_MAX_REASONABLE_FRAME_SIZE_BYTES)
      (hframe : polled.out_frame.payload = t.frame.payload)
      (htracks : ∀ out_frame,
        Tracks (restCursor (hdlc_sync_acc_consume_candidate polled.accumulator true) out_frame) unread slack lead rest)

/-- Scanning stops in a hunting receiver. -/
theorem Hunts.finalize {cursor : HdlcSyncCursor} {unread : List UInt8} {slack : Nat} {ts : List (Transmission true)}
    {lastGap : Nat} (h : Hunts cursor unread slack ts lastGap) {scan_index : Nat}
    (hscan : scan_index = cursor.accumulator.position)
    (hnone : ∀ j < 8 * (cursor.accumulator.position - 1), ¬ OccursAt flagBits j cursor.accumulator.rawBits) :
    ∃ ts' : List (Transmission true), ∃ lastGap',
      Hunts (restCursor (hdlc_sync_finalize_poll_no_frame cursor.accumulator scan_index) cursor.out_frame) unread 0 ts'
        lastGap' ∧
      ts'.map (·.payload) = ts.map (·.payload) ∧ ts'.map (·.frame) = ts.map (·.frame) := by
  obtain ⟨k, hk, ts', lastGap', hline, hpayload, hframe⟩ := h.exists_dropped hnone
  refine ⟨ts', lastGap', ?_, hpayload, hframe⟩
  rw [hdlc_sync_finalize_poll_no_frame_hunting h.hunting, hscan]
  exact
    { hunting := h.hunting
      sync := h.sync
      scan_zero := rfl
      line := by
        refine ⟨k, hk, ?_⟩
        rw [← hline, drop_lineBits (Nat.sub_le _ _)]
        rfl
      position_le := by
        simp only [restCursor, HdlcSyncAccumulator.position, List.length_drop]
        omega }

/-- Scanning stops in a locked receiver that lacks the next byte. -/
theorem Follows.finalize {cursor : HdlcSyncCursor} {unread : List UInt8} {slack lead : Nat} {t : Transmission true}
    {ts : List (Transmission true)} {lastGap : Nat} (h : Follows cursor unread slack lead t ts lastGap)
    (syncing synced : UInt32)
    (hmissing : 8 * cursor.accumulator.position < 8 * (cursor.scan_index + 1) + cursor.accumulator.bit_offset) :
    Follows
      (restCursor
        (hdlc_sync_finalize_poll_no_frame
          { cursor.accumulator with lookahead_wait_syncing := syncing, lookahead_wait_synced := synced }
          cursor.scan_index) cursor.out_frame) unread 0 lead t ts lastGap := by
  have hfinalize := @hdlc_sync_finalize_poll_no_frame_locked
    { cursor.accumulator with lookahead_wait_syncing := syncing, lookahead_wait_synced := synced } cursor.scan_index
    h.locked
  rw [hfinalize]
  exact { h with position_lt := hmissing }

/-- The closing flag is the last byte of the frame. -/
theorem Follows.last {cursor : HdlcSyncCursor} {unread : List UInt8} {slack lead : Nat} {t : Transmission true}
    {ts : List (Transmission true)} {lastGap : Nat} (h : Follows cursor unread slack lead t ts lastGap)
    (haligned : cursor.aligned = some cursor.accumulator.sync_byte) :
    cursor.scan_index - cursor.accumulator.candidate_start + 1 = t.frame.length ∧
      cursor.scan_index + 1 ≤ cursor.accumulator.position ∧
      cursor.out_frame.payload ++ [cursor.accumulator.sync_byte] = t.frame.payload := by
  have hstart := h.start_lt
  have hunfinished := h.unfinished
  rw [h.aligned_eq] at haligned
  split at haligned
  case isFalse => cases haligned
  case isTrue hreceived =>
    have hlast : cursor.scan_index - cursor.accumulator.candidate_start + 1 = t.frame.length := by
      by_contra hne
      rw [h.sync] at haligned
      exact t.getElem?_frame_ne_flag (by omega) (by omega) haligned
    refine ⟨hlast, by omega, ?_⟩
    calc cursor.out_frame.payload ++ [cursor.accumulator.sync_byte]
        = t.frame.payload.take (cursor.scan_index - cursor.accumulator.candidate_start + 1) := by
          rw [h.stored, List.take_add_one, haligned]
          rfl
      _ = t.frame.payload := by
          rw [hlast, HdlcFrame.length, List.take_length]

/-- What follows the raw bytes of a complete frame: the bits of its closing
flag that share their last byte with the line behind it. -/
theorem Follows.drop_line {cursor : HdlcSyncCursor} {unread : List UInt8} {slack lead : Nat} {t : Transmission true}
    {ts : List (Transmission true)} {lastGap : Nat} (h : Follows cursor unread slack lead t ts lastGap)
    (hlast : cursor.scan_index - cursor.accumulator.candidate_start + 1 = t.frame.length) :
    (cursor.accumulator.lineBits unread).drop (8 * (cursor.scan_index + 1)) =
      flagBits.drop (8 - cursor.accumulator.bit_offset) ++ streamBits ts lastGap := by
  have hstart := h.start_lt
  have hoffset := h.offset_lt
  have hframe : bytesBits true t.frame.payload =
      bytesBits true (t.frame.payload.take (t.frame.length - 1)) ++ flagBits := by
    have hsplit := @List.take_add_one _ t.frame.payload (t.frame.length - 1)
    rw [t.getElem?_frame_last, Nat.sub_add_cancel (by omega), HdlcFrame.length, List.take_length] at hsplit
    calc bytesBits true t.frame.payload
        = bytesBits true (t.frame.payload.take (t.frame.length - 1) ++ [HDLC_FLAG_BYTE]) := congrArg _ hsplit
      _ = bytesBits true (t.frame.payload.take (t.frame.length - 1)) ++ flagBits := by
          rw [bytesBits_append, bytesBits_cons, byteBits_flag, bytesBits_nil, List.append_nil]
  have hindex : 8 * (cursor.scan_index + 1) =
      8 * cursor.accumulator.candidate_start + cursor.accumulator.bit_offset +
        ((bytesBits true (t.frame.payload.take (t.frame.length - 1))).length +
          (8 - cursor.accumulator.bit_offset)) := by
    rw [length_bytesBits, List.length_take, HdlcFrame.length] at *
    omega
  rw [hindex, ← List.drop_drop, h.line, hframe, List.append_assoc, List.drop_length_add_append,
    List.drop_append_of_le_length (by simp [flagBits])]

/-- Accepting the complete frame leaves the receiver hunting behind it. -/
theorem Follows.consume {cursor : HdlcSyncCursor} {unread : List UInt8} {slack lead : Nat} {t : Transmission true}
    {ts : List (Transmission true)} {lastGap : Nat} (h : Follows cursor unread slack lead t ts lastGap)
    (haligned : cursor.aligned = some cursor.accumulator.sync_byte)
    (hcap : cursor.accumulator.position < RX_HDLC_SYNC_MAX_BUFFER_SIZE - 16) {accumulator : HdlcSyncAccumulator}
    (hbuffer : accumulator.buffer = cursor.accumulator.buffer)
    (hsync : accumulator.sync_byte = cursor.accumulator.sync_byte) (hvalid : accumulator.candidate_valid = true)
    (hend : accumulator.candidate_end = cursor.scan_index + 1) (out_frame : HdlcFrame) :
    Hunts (restCursor (hdlc_sync_acc_consume_candidate accumulator true) out_frame) unread slack ts lastGap := by
  obtain ⟨hlast, hscan, -⟩ := h.last haligned
  have hoffset := h.offset_lt
  have hposition : accumulator.position = cursor.accumulator.position := congrArg List.length hbuffer
  have hconsumed : accumulator.consumed true = cursor.scan_index + 1 := hend
  have hslack := h.position_lt
  have hkept : (accumulator.buffer.drop (accumulator.consumed true)).length =
      accumulator.position - (cursor.scan_index + 1) := by
    rw [List.length_drop, hconsumed]
    rfl
  rw [hdlc_sync_acc_consume_candidate_eq hvalid (by omega), hdlc_sync_hard_cap_of_lt]
  swap
  · rw [position_reset_hunting_state]
    simp only [HdlcSyncAccumulator.position] at hcap hposition hkept ⊢
    omega
  exact
    { hunting := rfl
      sync := hsync.trans h.sync
      scan_zero := rfl
      line := by
        refine ⟨8 - cursor.accumulator.bit_offset, by omega, ?_⟩
        rw [← h.drop_line hlast, drop_lineBits hscan, ← hbuffer, ← hconsumed]
        rfl
      position_le := by
        simp only [restCursor, hdlc_sync_reset_hunting_state, HdlcSyncAccumulator.position] at hposition hslack hkept ⊢
        omega }

/-- What the turns of a poll keep: the receiver stays in step, and while it
hunts its two searches agree. -/
structure TracksTurn (unread : List UInt8) (slack lead capacity position : Nat) (payloads : List (List UInt8))
    (cursor : HdlcSyncCursor) : Prop where
  tracks : Tracks cursor unread slack lead payloads
  capacity_eq : cursor.out_frame.capacity = capacity
  position_eq : cursor.accumulator.position = position
  agrees : cursor.accumulator.state = .HDLC_SYNC_STATE_HUNTING →
    hdlc_sync_find_opening cursor.accumulator cursor.scan_index =
      hdlc_sync_find_opening_candidate cursor.accumulator cursor.scan_index false

section

variable {unread : List UInt8} {slack lead capacity position : Nat} {payloads : List (List UInt8)}

theorem TracksTurn.firstFlag {cursor : HdlcSyncCursor}
    (h : TracksTurn unread slack lead capacity position payloads cursor)
    (hhunting : cursor.accumulator.state = .HDLC_SYNC_STATE_HUNTING) {opening : HdlcSyncOpening}
    (hfound : hdlc_sync_find_opening cursor.accumulator cursor.scan_index = some opening) :
    FirstFlag cursor.accumulator opening := by
  rw [h.agrees hhunting] at hfound
  cases h.tracks with
  | hunts hhunts hsize =>
    rw [hhunts.scan_zero] at hfound
    exact (hdlc_sync_find_opening_candidate_some hfound).firstFlag hhunts.sync
  | follows hfollows hfits hsize => exact absurd hhunting hfollows.locked

theorem TracksTurn.step (hlead : slack ≤ lead) {cursor next : HdlcSyncCursor}
    (h : TracksTurn unread slack lead capacity position payloads cursor)
    (hturn : hdlc_sync_poll_turn cursor = .inl next) :
    TracksTurn unread slack lead capacity position payloads next := by
  cases pollProgress_of_inl hturn with
  | lock opening hinside hhunting hfound =>
    have hfirst := h.firstFlag hhunting hfound
    refine ⟨?_, h.capacity_eq, h.position_eq, fun hstate => by cases hstate⟩
    cases h.tracks with
    | hunts hhunts hsize =>
      obtain ⟨t, ts, rfl, hfollows⟩ := hhunts.lock hlead hfirst
      exact .follows hfollows (hsize t (by simp)) (fun t ht => hsize t (by simp [ht]))
    | follows hfollows hfits hsize => exact absurd hhunting hfollows.locked
  | oversized hinside hlocked hlong =>
    cases h.tracks with
    | hunts hhunts hsize => exact absurd hhunts.hunting hlocked
    | follows hfollows hfits hsize =>
      have hlength := hfollows.length_out_frame
      have hunfinished := hfollows.unfinished
      omega
  | store aligned hinside hlocked hshort hroom haligned hflag =>
    refine ⟨?_, h.capacity_eq, h.position_eq, fun hstate => by cases hstate⟩
    cases h.tracks with
    | hunts hhunts hsize => exact absurd hhunts.hunting hlocked
    | follows hfollows hfits hsize => exact .follows (hfollows.store haligned hflag) hfits hsize

theorem Tracks.of_hunts_map {cursor : HdlcSyncCursor} {slack' : Nat} {ts ts' : List (Transmission true)} {lastGap : Nat}
    (h : Hunts cursor unread slack' ts' lastGap) (hpayload : ts'.map (·.payload) = ts.map (·.payload))
    (hframe : ts'.map (·.frame) = ts.map (·.frame))
    (hsize : ∀ t ∈ ts, t.frame.length ≤ HDLC_SYNC_MAX_REASONABLE_FRAME_SIZE_BYTES) :
    Tracks cursor unread slack' lead (ts.map (·.payload)) := by
  rw [← hpayload]
  refine .hunts h ?_
  intro t ht
  have hmem : t.frame ∈ ts.map (·.frame) := by
    rw [← hframe]
    exact List.mem_map_of_mem ht
  obtain ⟨u, hu, huframe⟩ := List.mem_map.mp hmem
  rw [← huframe]
  exact hsize u hu

/-- Leaving the loop at the end of the received bytes. -/
theorem TracksTurn.exhausted {cursor : HdlcSyncCursor}
    (h : TracksTurn unread slack lead capacity position payloads cursor)
    (hend : cursor.accumulator.position ≤ cursor.scan_index) :
    Tracks (restCursor (hdlc_sync_finalize_poll_no_frame cursor.accumulator cursor.scan_index) cursor.out_frame) unread
      0 lead payloads := by
  cases h.tracks with
  | hunts hhunts hsize =>
    have hzero := hhunts.scan_zero
    obtain ⟨ts', lastGap', hhunts', hpayload, hframe⟩ := @Hunts.finalize _ _ _ _ _ hhunts cursor.scan_index (by omega)
      (by intro j hj; omega)
    exact Tracks.of_hunts_map hhunts' hpayload hframe hsize
  | follows hfollows hfits hsize =>
    have hfinal := hfollows.finalize cursor.accumulator.lookahead_wait_syncing cursor.accumulator.lookahead_wait_synced
      (by omega)
    exact .follows hfinal hfits hsize

/-- Leaving the loop with a result. -/
theorem TracksTurn.exit (hcapacity : HDLC_SYNC_MAX_REASONABLE_FRAME_SIZE_BYTES ≤ capacity)
    (hcap : position < RX_HDLC_SYNC_MAX_BUFFER_SIZE - 16) {cursor : HdlcSyncCursor} {polled : HdlcSyncPolled}
    (h : TracksTurn unread slack lead capacity position payloads cursor)
    (hturn : hdlc_sync_poll_turn cursor = .inr polled) :
    PollTracks unread slack lead payloads polled ∧ polled.out_frame.capacity = capacity := by
  have hposition := h.position_eq
  cases pollExit_of_inr hturn with
  | exhausted hend =>
    exact ⟨.waits rfl (h.exhausted hend), h.capacity_eq⟩
  | overflow hinside hlocked hshort hfull =>
    have hsame := h.capacity_eq
    omega
  | miss hinside hhunting hnone =>
    refine ⟨.waits rfl ?_, h.capacity_eq⟩
    rw [h.agrees hhunting] at hnone
    cases h.tracks with
    | hunts hhunts hsize =>
      rw [hhunts.scan_zero] at hnone
      obtain ⟨ts', lastGap', hhunts', hpayload, hframe⟩ :=
        hhunts.finalize rfl (not_flag_of_find_opening_candidate_none hhunts.sync hnone)
      exact Tracks.of_hunts_map hhunts' hpayload hframe hsize
    | follows hfollows hfits hsize => exact absurd hhunting hfollows.locked
  | wait syncing synced hinside hlocked hshort hnone =>
    refine ⟨.waits rfl ?_, h.capacity_eq⟩
    cases h.tracks with
    | hunts hhunts hsize => exact absurd hhunts.hunting hlocked
    | follows hfollows hfits hsize =>
      have hmissing :
          8 * cursor.accumulator.position < 8 * (cursor.scan_index + 1) + cursor.accumulator.bit_offset := by
        have hunfinished : cursor.scan_index - cursor.accumulator.candidate_start < _ := hfollows.unfinished
        rw [hfollows.aligned_eq] at hnone
        split at hnone
        · rw [List.getElem?_eq_getElem hunfinished] at hnone
          cases hnone
        · omega
      exact .follows (hfollows.finalize syncing synced hmissing) hfits hsize
  | close hinside hsynced hshort hroom haligned =>
    refine ⟨?_, h.capacity_eq⟩
    cases h.tracks with
    | hunts hhunts hsize =>
      have hhunting := hhunts.hunting
      rw [hsynced] at hhunting
      cases hhunting
    | follows hfollows hfits hsize =>
      obtain ⟨-, -, hframe⟩ := hfollows.last haligned
      refine .ready _ _ rfl rfl hfits hframe fun out_frame => ?_
      refine .hunts (hfollows.consume haligned (by omega) ?_ ?_ ?_ ?_ out_frame) hsize <;> rfl

/-- A receiver with at most one byte has nothing to read. -/
theorem Tracks.of_position_lt_two {cursor : HdlcSyncCursor} (h : Tracks cursor unread slack lead payloads)
    (hshort : cursor.accumulator.position < 2) : Tracks cursor unread 0 lead payloads := by
  cases h with
  | hunts hhunts hsize => exact .hunts { hhunts with position_le := by omega } hsize
  | follows hfollows hfits hsize =>
    have hstart := hfollows.start_lt
    have hscan := hfollows.scan_le
    exact .follows { hfollows with position_lt := by omega } hfits hsize

/-- A poll keeps a receiver in step with the line, provided the exhaustive
search does not interfere and the buffer stays clear of its hard cap. -/
theorem Tracks.poll {accumulator : HdlcSyncAccumulator} {out_frame : HdlcFrame}
    (h : Tracks (restCursor accumulator out_frame) unread slack lead payloads) (hlead : slack ≤ lead)
    (hcapacity : HDLC_SYNC_MAX_REASONABLE_FRAME_SIZE_BYTES ≤ out_frame.capacity)
    (hcap : accumulator.position < RX_HDLC_SYNC_MAX_BUFFER_SIZE - 16)
    (hagrees : accumulator.state = .HDLC_SYNC_STATE_HUNTING → ShortSearchAgrees accumulator) :
    PollTracks unread slack lead payloads (hdlc_sync_acc_poll accumulator out_frame) ∧
      (hdlc_sync_acc_poll accumulator out_frame).out_frame.capacity = out_frame.capacity := by
  have hturn : TracksTurn unread slack lead out_frame.capacity accumulator.position payloads
      (restCursor accumulator out_frame) := ⟨h, rfl, rfl, hagrees⟩
  unfold hdlc_sync_acc_poll
  split
  case isTrue hzero => simp [hzero, HDLC_SYNC_MAX_REASONABLE_FRAME_SIZE_BYTES] at hcapacity
  split
  case isTrue hempty => exact ⟨.waits rfl (h.of_position_lt_two (hempty ▸ Nat.zero_lt_two)), rfl⟩
  split
  case isTrue hshort => exact ⟨.waits rfl (h.of_position_lt_two hshort.2.2), rfl⟩
  obtain ⟨last, hlast, hexit⟩ := pollLoop.exists_exit _ (fun _ _ => TracksTurn.step hlead) hturn
  exact hlast.exit hcapacity hcap hexit

end

end ether2ser.hdlc_sync
