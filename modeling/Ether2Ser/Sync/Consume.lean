import Ether2Ser.Sync.Poll

open ether2ser.error ether2ser.hdlc_common

namespace ether2ser.hdlc_sync

/-- The end of `hdlc_sync_acc_consume_candidate`: a buffer that is nearly full
keeps only a small tail. -/
def hdlc_sync_hard_cap (accumulator : HdlcSyncAccumulator) : HdlcSyncAccumulator :=
  if accumulator.position ≥ RX_HDLC_SYNC_MAX_BUFFER_SIZE - 16 then
    let keep := 16
    let drop := accumulator.position - keep
    let accumulator := { accumulator with
      hardcap_drop_events := accumulator.hardcap_drop_events + 1
      hardcap_drop_bytes := accumulator.hardcap_drop_bytes + UInt32.ofNat drop }
    { hdlc_sync_drop_prefix accumulator drop with processed := 0 }
  else accumulator

def hdlc_sync_acc_consume_candidate (accumulator : HdlcSyncAccumulator) (accept : Bool) : HdlcSyncAccumulator :=
  if !accumulator.candidate_valid then accumulator
  else
    let drop := if accept then accumulator.candidate_end else accumulator.candidate_start + 1
    let drop := min drop accumulator.position
    let accumulator :=
      if drop > 0 then
        hdlc_sync_drop_prefix { accumulator with consume_count := accumulator.consume_count + 1 } drop
      else accumulator
    hdlc_sync_hard_cap (hdlc_sync_reset_hunting_state accumulator)

theorem hdlc_sync_finalize_poll_no_frame_locked {accumulator : HdlcSyncAccumulator} {scan_index : Nat}
    (hlocked : accumulator.state ≠ .HDLC_SYNC_STATE_HUNTING) :
    hdlc_sync_finalize_poll_no_frame accumulator scan_index = { accumulator with processed := scan_index } := by
  simp [hdlc_sync_finalize_poll_no_frame, hlocked]

private theorem drop_min_length {α : Type} (l : List α) (n : Nat) : l.drop (min n l.length) = l.drop n :=
  List.drop_eq_drop_iff.mpr (by simp)

/-- A hunting receiver keeps the last byte it has scanned. -/
theorem hdlc_sync_finalize_poll_no_frame_hunting {accumulator : HdlcSyncAccumulator} {scan_index : Nat}
    (hhunting : accumulator.state = .HDLC_SYNC_STATE_HUNTING) :
    hdlc_sync_finalize_poll_no_frame accumulator scan_index =
      { accumulator with buffer := accumulator.buffer.drop (scan_index - 1), processed := 0 } := by
  have hdrop : (if scan_index > 0 then scan_index - 1 else 0) = scan_index - 1 := by
    split
    · rfl
    · omega
  simp only [hdlc_sync_finalize_poll_no_frame, hhunting, ne_eq, not_true_eq_false, if_false, hdrop,
    hdlc_sync_drop_prefix_eq, HdlcSyncAccumulator.position, drop_min_length]

/-- The raw bytes that consuming a candidate drops. -/
def HdlcSyncAccumulator.consumed (accumulator : HdlcSyncAccumulator) (accept : Bool) : Nat :=
  if accept then accumulator.candidate_end else accumulator.candidate_start + 1

/-- Consuming a candidate drops its bytes and whatever the hard cap takes. -/
theorem hdlc_sync_acc_consume_candidate_eq {accumulator : HdlcSyncAccumulator} {accept : Bool}
    (hvalid : accumulator.candidate_valid = true) (hpos : 0 < min (accumulator.consumed accept) accumulator.position) :
    hdlc_sync_acc_consume_candidate accumulator accept =
      hdlc_sync_hard_cap (hdlc_sync_reset_hunting_state
        { accumulator with
          buffer := accumulator.buffer.drop (accumulator.consumed accept)
          consume_count := accumulator.consume_count + 1 }) := by
  unfold hdlc_sync_acc_consume_candidate
  simp only [hvalid, Bool.not_true, Bool.false_eq_true, if_false]
  rw [← HdlcSyncAccumulator.consumed, if_pos hpos]
  simp only [hdlc_sync_drop_prefix_eq, HdlcSyncAccumulator.position, drop_min_length, hdlc_sync_reset_hunting_state]

theorem hdlc_sync_hard_cap_of_lt {accumulator : HdlcSyncAccumulator}
    (hlt : accumulator.position < RX_HDLC_SYNC_MAX_BUFFER_SIZE - 16) : hdlc_sync_hard_cap accumulator = accumulator :=
  if_neg (Nat.not_le_of_lt hlt)

theorem hdlc_sync_hard_cap_cases {accumulator : HdlcSyncAccumulator} (hprocessed : accumulator.processed = 0) :
    ∃ dropped events bytes, hdlc_sync_hard_cap accumulator =
      { accumulator with
        buffer := accumulator.buffer.drop dropped
        hardcap_drop_events := events
        hardcap_drop_bytes := bytes } := by
  unfold hdlc_sync_hard_cap
  split
  · simp only [hdlc_sync_drop_prefix_eq, hprocessed]
    exact ⟨_, _, _, rfl⟩
  · exact ⟨0, _, _, rfl⟩

theorem position_hard_cap_le (accumulator : HdlcSyncAccumulator) :
    (hdlc_sync_hard_cap accumulator).position ≤ accumulator.position := by
  unfold hdlc_sync_hard_cap
  split
  · simp [hdlc_sync_drop_prefix_eq, HdlcSyncAccumulator.position]
  · exact Nat.le_refl _

theorem position_finalize_poll_no_frame_le (accumulator : HdlcSyncAccumulator) (scan_index : Nat) :
    (hdlc_sync_finalize_poll_no_frame accumulator scan_index).position ≤ accumulator.position := by
  by_cases hhunting : accumulator.state = .HDLC_SYNC_STATE_HUNTING
  · rw [hdlc_sync_finalize_poll_no_frame_hunting hhunting]
    simp [HdlcSyncAccumulator.position]
  · rw [hdlc_sync_finalize_poll_no_frame_locked hhunting]
    exact Nat.le_refl _

theorem hdlc_sync_poll_turn_position_le {cursor next : HdlcSyncCursor}
    (hturn : hdlc_sync_poll_turn cursor = .inl next) :
    next.accumulator.position ≤ cursor.accumulator.position := by
  cases pollProgress_of_inl hturn with
  | lock opening hinside hhunting hfound =>
    exact Nat.le_refl _
  | store aligned hinside hlocked hshort hroom haligned hflag =>
    exact Nat.le_refl _
  | oversized hinside hlocked hlong =>
    simp [hdlc_sync_reject_oversized_candidate]

theorem hdlc_sync_poll_exit_position_le {cursor : HdlcSyncCursor} {polled : HdlcSyncPolled}
    (hturn : hdlc_sync_poll_turn cursor = .inr polled) :
    polled.accumulator.position ≤ cursor.accumulator.position := by
  cases pollExit_of_inr hturn with
  | exhausted hend => exact position_finalize_poll_no_frame_le _ _
  | miss hinside hhunting hnone => exact position_finalize_poll_no_frame_le _ _
  | wait syncing synced hinside hlocked hshort hnone => exact position_finalize_poll_no_frame_le _ _
  | overflow hinside hlocked hshort hfull => exact Nat.le_refl _
  | close hinside hsynced hshort hroom haligned => exact Nat.le_refl _

/-- No poll adds raw bytes. -/
theorem position_acc_poll_le (accumulator : HdlcSyncAccumulator) (out_frame : HdlcFrame) :
    (hdlc_sync_acc_poll accumulator out_frame).accumulator.position ≤ accumulator.position := by
  obtain hidle | ⟨last, hlast, hexit⟩ := hdlc_sync_acc_poll_cases accumulator out_frame
    (fun cursor => cursor.accumulator.position ≤ accumulator.position)
    (fun _ _ hle hturn => Nat.le_trans (hdlc_sync_poll_turn_position_le hturn) hle) (Nat.le_refl _)
  · exact Nat.le_of_eq (congrArg (·.accumulator.position) hidle)
  · exact Nat.le_trans (hdlc_sync_poll_exit_position_le hexit) hlast

/-- A frame is reported only with a candidate that holds received bytes. -/
theorem hdlc_sync_poll_turn_frame_ready {cursor : HdlcSyncCursor} {polled : HdlcSyncPolled}
    (hturn : hdlc_sync_poll_turn cursor = .inr polled) (hready : polled.result = .E2S_ERR_HDLC_ACC_FRAME_READY) :
    polled.accumulator.candidate_valid = true ∧ 0 < polled.accumulator.candidate_end ∧
      0 < polled.accumulator.position := by
  cases pollExit_of_inr hturn with
  | exhausted hend =>
    cases hready
  | miss hinside hhunting hnone =>
    cases hready
  | wait syncing synced hinside hlocked hshort hnone =>
    cases hready
  | overflow hinside hlocked hshort hfull =>
    cases hready
  | close hinside hsynced hshort hroom haligned =>
    exact ⟨rfl, Nat.succ_pos _, Nat.lt_of_le_of_lt (Nat.zero_le _) hinside⟩

theorem hdlc_sync_acc_poll_frame_ready {accumulator : HdlcSyncAccumulator} {out_frame : HdlcFrame}
    (hready : (hdlc_sync_acc_poll accumulator out_frame).result = .E2S_ERR_HDLC_ACC_FRAME_READY) :
    (hdlc_sync_acc_poll accumulator out_frame).accumulator.candidate_valid = true ∧
      0 < (hdlc_sync_acc_poll accumulator out_frame).accumulator.candidate_end ∧
      0 < (hdlc_sync_acc_poll accumulator out_frame).accumulator.position := by
  obtain hidle | ⟨last, -, hexit⟩ := hdlc_sync_acc_poll_cases accumulator out_frame (fun _ => True)
    (fun _ _ _ _ => trivial) trivial
  · rw [hidle] at hready
    cases hready
  · exact hdlc_sync_poll_turn_frame_ready hexit hready

/-- Consuming a candidate always drops received bytes. -/
theorem position_consume_candidate_lt {accumulator : HdlcSyncAccumulator} (accept : Bool)
    (hvalid : accumulator.candidate_valid = true) (hend : 0 < accumulator.candidate_end)
    (hpos : 0 < accumulator.position) :
    (hdlc_sync_acc_consume_candidate accumulator accept).position < accumulator.position := by
  have hdrop : 0 < accumulator.consumed accept := by
    cases accept with
    | true => exact hend
    | false => exact Nat.succ_pos _
  rw [hdlc_sync_acc_consume_candidate_eq hvalid (by omega)]
  refine Nat.lt_of_le_of_lt (position_hard_cap_le _) ?_
  rw [position_reset_hunting_state]
  simp only [HdlcSyncAccumulator.position, List.length_drop] at hpos ⊢
  omega

/-- After a poll has reported a frame, consuming it leaves fewer raw bytes than
before the poll, whatever the verdict. -/
theorem position_consume_of_frame_ready {accumulator : HdlcSyncAccumulator} {out_frame : HdlcFrame}
    (hready : (hdlc_sync_acc_poll accumulator out_frame).result = .E2S_ERR_HDLC_ACC_FRAME_READY) (accept : Bool) :
    (hdlc_sync_acc_consume_candidate (hdlc_sync_acc_poll accumulator out_frame).accumulator accept).position <
      accumulator.position := by
  obtain ⟨hvalid, hend, hpos⟩ := hdlc_sync_acc_poll_frame_ready hready
  exact Nat.lt_of_lt_of_le (position_consume_candidate_lt accept hvalid hend hpos)
    (position_acc_poll_le accumulator out_frame)

end ether2ser.hdlc_sync
