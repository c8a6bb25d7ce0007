import Ether2Ser.Control.Loop
import Ether2Ser.Sync.Accumulator
import Ether2Ser.System.Error

open ether2ser.error ether2ser.hdlc_common

namespace ether2ser.hdlc_sync

/-- `HDLC_SYNC_POLL_STEP_RESULT_T`. The error step carries the code that the
source returns through a parameter. -/
inductive HdlcSyncPollStepResult where
  | HDLC_SYNC_POLL_STEP_PROGRESS
  | HDLC_SYNC_POLL_STEP_STOP
  | HDLC_SYNC_POLL_STEP_FRAME_READY
  | HDLC_SYNC_POLL_STEP_ERROR (error_code : E2sError)
  deriving DecidableEq, Repr

/-- What the steps of one poll work on: the accumulator, the caller's frame
and the raw cursor local to the poll. -/
structure HdlcSyncCursor where
  accumulator : HdlcSyncAccumulator
  out_frame : HdlcFrame
  scan_index : Nat
  deriving DecidableEq, Repr

def hdlc_sync_reject_oversized_candidate (cursor : HdlcSyncCursor) : HdlcSyncCursor :=
  let drop := min (cursor.accumulator.candidate_start + 1) cursor.accumulator.position
  { accumulator := hdlc_sync_reset_hunting_state <| hdlc_sync_drop_prefix cursor.accumulator drop
    out_frame := { cursor.out_frame with payload := [] }
    scan_index := 0 }

/-- The opening that a hunting step locks on: the exhaustive search of short
buffers first, the fast search otherwise. -/
def hdlc_sync_find_opening (accumulator : HdlcSyncAccumulator) (scan_index : Nat) : Option HdlcSyncOpening :=
  match hdlc_sync_find_complete_candidate_short accumulator scan_index with
  | some opening => some opening
  | none => hdlc_sync_find_opening_candidate accumulator scan_index false

/-- The transition from hunting to syncing at a selected opening. -/
def hdlc_sync_lock (cursor : HdlcSyncCursor) (opening : HdlcSyncOpening) : HdlcSyncCursor where
  accumulator := { cursor.accumulator with
    state := .HDLC_SYNC_STATE_SYNCING
    bit_offset := opening.bit_pos
    align_shift_right := opening.shift_right
    candidate_start := opening.start_index
    candidate_valid := false }
  out_frame := { cursor.out_frame with payload := [cursor.accumulator.sync_byte] }
  scan_index := opening.start_index + 1

def hdlc_sync_step_hunting (cursor : HdlcSyncCursor) : HdlcSyncPollStepResult × HdlcSyncCursor :=
  match hdlc_sync_find_opening cursor.accumulator cursor.scan_index with
  | none => (.HDLC_SYNC_POLL_STEP_STOP, { cursor with scan_index := cursor.accumulator.position })
  | some opening => (.HDLC_SYNC_POLL_STEP_PROGRESS, hdlc_sync_lock cursor opening)

/-- The part that `hdlc_sync_step_syncing` and `hdlc_sync_step_synced` share:
the guard against a false lock, the wait for raw bytes, the capacity check and
the store of the aligned byte. -/
def hdlc_sync_step_locked (count_wait : HdlcSyncAccumulator → HdlcSyncAccumulator)
    (stored : UInt8 → HdlcSyncCursor → HdlcSyncPollStepResult × HdlcSyncCursor) (cursor : HdlcSyncCursor) :
    HdlcSyncPollStepResult × HdlcSyncCursor :=
  let accumulator := cursor.accumulator
  let out_frame := cursor.out_frame
  if out_frame.length ≥ HDLC_SYNC_MAX_REASONABLE_FRAME_SIZE_BYTES then
    (.HDLC_SYNC_POLL_STEP_PROGRESS, hdlc_sync_reject_oversized_candidate cursor)
  else
    match hdlc_sync_get_aligned_byte accumulator cursor.scan_index accumulator.bit_offset
      accumulator.align_shift_right with
    | none =>
      (.HDLC_SYNC_POLL_STEP_STOP,
        if accumulator.bit_offset ≠ 0 then { cursor with accumulator := count_wait accumulator } else cursor)
    | some aligned =>
      if out_frame.length ≥ out_frame.capacity then
        (.HDLC_SYNC_POLL_STEP_ERROR .E2S_ERR_HDLC_DECODE_PAYLOAD_TOO_LONG,
          { cursor with
            accumulator := { accumulator with state := .HDLC_SYNC_STATE_HUNTING, bit_offset := 0 }
            out_frame := { out_frame with payload := [] } })
      else stored aligned { cursor with out_frame := { out_frame with payload := out_frame.payload ++ [aligned] } }

def count_wait_syncing (accumulator : HdlcSyncAccumulator) : HdlcSyncAccumulator :=
  { accumulator with lookahead_wait_syncing := accumulator.lookahead_wait_syncing + 1 }

/-- After the first byte behind the opening flag. -/
def stored_syncing (_aligned : UInt8) (cursor : HdlcSyncCursor) : HdlcSyncPollStepResult × HdlcSyncCursor :=
  (.HDLC_SYNC_POLL_STEP_PROGRESS,
    { cursor with
      accumulator := { cursor.accumulator with state := .HDLC_SYNC_STATE_SYNCED }
      scan_index := cursor.scan_index + 1 })

def hdlc_sync_step_syncing : HdlcSyncCursor → HdlcSyncPollStepResult × HdlcSyncCursor :=
  hdlc_sync_step_locked count_wait_syncing stored_syncing

/-- The accumulator once the closing flag of a candidate has been stored. The
reported bit offset is that of the equivalent left shift. -/
def hdlc_sync_close_candidate (accumulator : HdlcSyncAccumulator) (scan_index : Nat) : HdlcSyncAccumulator :=
  { accumulator with
    frame_ready_count := accumulator.frame_ready_count + 1
    state := .HDLC_SYNC_STATE_HUNTING
    candidate_end := scan_index + 1
    candidate_valid := true
    bit_offset :=
      if accumulator.align_shift_right ∧ accumulator.bit_offset > 0 then HDLC_BITS_PER_BYTE - accumulator.bit_offset
      else accumulator.bit_offset }

def count_wait_synced (accumulator : HdlcSyncAccumulator) : HdlcSyncAccumulator :=
  { accumulator with lookahead_wait_synced := accumulator.lookahead_wait_synced + 1 }

/-- After a later byte, which may be the closing flag. -/
def stored_synced (aligned : UInt8) (cursor : HdlcSyncCursor) : HdlcSyncPollStepResult × HdlcSyncCursor :=
  if aligned ≠ cursor.accumulator.sync_byte then
    (.HDLC_SYNC_POLL_STEP_PROGRESS, { cursor with scan_index := cursor.scan_index + 1 })
  else
    (.HDLC_SYNC_POLL_STEP_FRAME_READY,
      { cursor with
        accumulator := hdlc_sync_close_candidate cursor.accumulator cursor.scan_index
        scan_index := cursor.scan_index + 1 })

def hdlc_sync_step_synced : HdlcSyncCursor → HdlcSyncPollStepResult × HdlcSyncCursor :=
  hdlc_sync_step_locked count_wait_synced stored_synced

/-- The dispatch of the poll loop on the state of the accumulator. -/
def hdlc_sync_step (cursor : HdlcSyncCursor) : HdlcSyncPollStepResult × HdlcSyncCursor :=
  match cursor.accumulator.state with
  | .HDLC_SYNC_STATE_HUNTING => hdlc_sync_step_hunting cursor
  | .HDLC_SYNC_STATE_SYNCING => hdlc_sync_step_syncing cursor
  | .HDLC_SYNC_STATE_SYNCED => hdlc_sync_step_synced cursor

def hdlc_sync_finalize_poll_no_frame (accumulator : HdlcSyncAccumulator) (scan_index : Nat) : HdlcSyncAccumulator :=
  let accumulator := { accumulator with processed := scan_index }
  if accumulator.state ≠ .HDLC_SYNC_STATE_HUNTING then accumulator
  else
    let drop := if accumulator.processed > 0 then accumulator.processed - 1 else 0
    let drop := min drop accumulator.position
    { hdlc_sync_drop_prefix accumulator drop with processed := 0 }

/-- What a poll leaves behind: its result code, the accumulator and the frame. -/
structure HdlcSyncPolled where
  result : E2sError
  accumulator : HdlcSyncAccumulator
  out_frame : HdlcFrame
  deriving DecidableEq, Repr

/-- One turn of the poll loop. -/
def hdlc_sync_poll_turn (cursor : HdlcSyncCursor) : HdlcSyncCursor ⊕ HdlcSyncPolled :=
  if cursor.scan_index < cursor.accumulator.position then
    match hdlc_sync_step cursor with
    | (.HDLC_SYNC_POLL_STEP_PROGRESS, next) => .inl next
    | (.HDLC_SYNC_POLL_STEP_FRAME_READY, last) =>
      .inr ⟨.E2S_ERR_HDLC_ACC_FRAME_READY, { last.accumulator with processed := 0 }, last.out_frame⟩
    | (.HDLC_SYNC_POLL_STEP_ERROR error_code, last) => .inr ⟨error_code, last.accumulator, last.out_frame⟩
    | (.HDLC_SYNC_POLL_STEP_STOP, last) =>
      .inr ⟨.E2S_OK, hdlc_sync_finalize_poll_no_frame last.accumulator last.scan_index, last.out_frame⟩
  else .inr ⟨.E2S_OK, hdlc_sync_finalize_poll_no_frame cursor.accumulator cursor.scan_index, cursor.out_frame⟩

/-- The aligned byte at the cursor of a locked accumulator. -/
def HdlcSyncCursor.aligned (cursor : HdlcSyncCursor) : Option UInt8 :=
  hdlc_sync_get_aligned_byte cursor.accumulator cursor.scan_index cursor.accumulator.bit_offset
    cursor.accumulator.align_shift_right

/-- Everything that one step of a poll can do. -/
inductive PollStep (cursor : HdlcSyncCursor) : HdlcSyncPollStepResult × HdlcSyncCursor → Prop where
  | miss (hhunting : cursor.accumulator.state = .HDLC_SYNC_STATE_HUNTING)
      (hnone : hdlc_sync_find_opening cursor.accumulator cursor.scan_index = none) :
      PollStep cursor (.HDLC_SYNC_POLL_STEP_STOP, { cursor with scan_index := cursor.accumulator.position })
  | lock (opening : HdlcSyncOpening) (hhunting : cursor.accumulator.state = .HDLC_SYNC_STATE_HUNTING)
      (hfound : hdlc_sync_find_opening cursor.accumulator cursor.scan_index = some opening) :
      PollStep cursor (.HDLC_SYNC_POLL_STEP_PROGRESS, hdlc_sync_lock cursor opening)
  | oversized (hlocked : cursor.accumulator.state ≠ .HDLC_SYNC_STATE_HUNTING)
      (hlong : HDLC_SYNC_MAX_REASONABLE_FRAME_SIZE_BYTES ≤ cursor.out_frame.length) :
      PollStep cursor (.HDLC_SYNC_POLL_STEP_PROGRESS, hdlc_sync_reject_oversized_candidate cursor)
  | wait (syncing synced : UInt32) (hlocked : cursor.accumulator.state ≠ .HDLC_SYNC_STATE_HUNTING)
      (hshort : cursor.out_frame.length < HDLC_SYNC_MAX_REASONABLE_FRAME_SIZE_BYTES) (hnone : cursor.aligned = none) :
      PollStep cursor (.HDLC_SYNC_POLL_STEP_STOP,
        { cursor with
          accumulator := { cursor.accumulator with
            lookahead_wait_syncing := syncing
            lookahead_wait_synced := synced } })
  | overflow (hlocked : cursor.accumulator.state ≠ .HDLC_SYNC_STATE_HUNTING)
      (hshort : cursor.out_frame.length < HDLC_SYNC_MAX_REASONABLE_FRAME_SIZE_BYTES)
      (hfull : cursor.out_frame.capacity ≤ cursor.out_frame.length) :
      PollStep cursor (.HDLC_SYNC_POLL_STEP_ERROR .E2S_ERR_HDLC_DECODE_PAYLOAD_TOO_LONG,
        { cursor with
          accumulator := { cursor.accumulator with state := .HDLC_SYNC_STATE_HUNTING, bit_offset := 0 }
          out_frame := { cursor.out_frame with payload := [] } })
  | store (aligned : UInt8) (hlocked : cursor.accumulator.state ≠ .HDLC_SYNC_STATE_HUNTING)
      (hshort : cursor.out_frame.length < HDLC_SYNC_MAX_REASONABLE_FRAME_SIZE_BYTES)
      (hroom : cursor.out_frame.length < cursor.out_frame.capacity) (haligned : cursor.aligned = some aligned)
      (hinside : cursor.accumulator.state = .HDLC_SYNC_STATE_SYNCED → aligned ≠ cursor.accumulator.sync_byte) :
      PollStep cursor (.HDLC_SYNC_POLL_STEP_PROGRESS,
        { accumulator := { cursor.accumulator with state := .HDLC_SYNC_STATE_SYNCED }
          out_frame := { cursor.out_frame with payload := cursor.out_frame.payload ++ [aligned] }
          scan_index := cursor.scan_index + 1 })
  | close (hsynced : cursor.accumulator.state = .HDLC_SYNC_STATE_SYNCED)
      (hshort : cursor.out_frame.length < HDLC_SYNC_MAX_REASONABLE_FRAME_SIZE_BYTES)
      (hroom : cursor.out_frame.length < cursor.out_frame.capacity)
      (haligned : cursor.aligned = some cursor.accumulator.sync_byte) :
      PollStep cursor (.HDLC_SYNC_POLL_STEP_FRAME_READY,
        { accumulator := hdlc_sync_close_candidate cursor.accumulator cursor.scan_index
          out_frame := { cursor.out_frame with payload := cursor.out_frame.payload ++ [cursor.accumulator.sync_byte] }
          scan_index := cursor.scan_index + 1 })

theorem pollStep_hunting {cursor : HdlcSyncCursor} (hhunting : cursor.accumulator.state = .HDLC_SYNC_STATE_HUNTING) :
    PollStep cursor (hdlc_sync_step_hunting cursor) := by
  unfold hdlc_sync_step_hunting
  split
  · rename_i hnone
    exact .miss hhunting hnone
  · rename_i opening hfound
    exact .lock opening hhunting hfound

/-- The shared part of the two locked steps, up to what follows the store. -/
theorem pollStep_locked {cursor : HdlcSyncCursor} {count_wait : HdlcSyncAccumulator → HdlcSyncAccumulator}
    {stored : UInt8 → HdlcSyncCursor → HdlcSyncPollStepResult × HdlcSyncCursor}
    (hlocked : cursor.accumulator.state ≠ .HDLC_SYNC_STATE_HUNTING)
    (hwait : ∃ syncing synced, count_wait cursor.accumulator =
      { cursor.accumulator with lookahead_wait_syncing := syncing, lookahead_wait_synced := synced })
    (hstored : ∀ aligned, cursor.out_frame.length < HDLC_SYNC_MAX_REASONABLE_FRAME_SIZE_BYTES →
      cursor.out_frame.length < cursor.out_frame.capacity → cursor.aligned = some aligned →
      PollStep cursor (stored aligned
        { cursor with
          out_frame := { cursor.out_frame with payload := cursor.out_frame.payload ++ [aligned] } })) :
    PollStep cursor (hdlc_sync_step_locked count_wait stored cursor) := by
  unfold hdlc_sync_step_locked
  dsimp only
  split
  · rename_i hlong
    exact .oversized hlocked hlong
  · rename_i hshort
    split
    · rename_i hnone
      split
      · obtain ⟨syncing, synced, hwait⟩ := hwait
        rw [hwait]
        exact .wait syncing synced hlocked (Nat.lt_of_not_le hshort) hnone
      · exact .wait cursor.accumulator.lookahead_wait_syncing cursor.accumulator.lookahead_wait_synced hlocked
          (Nat.lt_of_not_le hshort) hnone
    · rename_i aligned haligned
      split
      · rename_i hfull
        exact .overflow hlocked (Nat.lt_of_not_le hshort) hfull
      · rename_i hroom
        exact hstored aligned (Nat.lt_of_not_le hshort) (Nat.lt_of_not_le hroom) haligned

theorem pollStep_syncing {cursor : HdlcSyncCursor} (hsyncing : cursor.accumulator.state = .HDLC_SYNC_STATE_SYNCING) :
    PollStep cursor (hdlc_sync_step_syncing cursor) := by
  have hlocked : cursor.accumulator.state ≠ .HDLC_SYNC_STATE_HUNTING := by simp [hsyncing]
  refine pollStep_locked hlocked ⟨_, _, rfl⟩ fun aligned hshort hroom haligned => ?_
  exact .store aligned hlocked hshort hroom haligned (by simp [hsyncing])

theorem pollStep_synced {cursor : HdlcSyncCursor} (hsynced : cursor.accumulator.state = .HDLC_SYNC_STATE_SYNCED) :
    PollStep cursor (hdlc_sync_step_synced cursor) := by
  have hlocked : cursor.accumulator.state ≠ .HDLC_SYNC_STATE_HUNTING := by simp [hsynced]
  refine pollStep_locked hlocked ⟨_, _, rfl⟩ fun aligned hshort hroom haligned => ?_
  unfold stored_synced
  split
  · rename_i hinside
    have hstep := PollStep.store aligned hlocked hshort hroom haligned (fun _ => hinside)
    rwa [← hsynced] at hstep
  · rename_i hflag
    obtain rfl : aligned = cursor.accumulator.sync_byte := not_not.mp hflag
    exact .close hsynced hshort hroom haligned

theorem hdlc_sync_step_pollStep (cursor : HdlcSyncCursor) : PollStep cursor (hdlc_sync_step cursor) := by
  unfold hdlc_sync_step
  split
  · rename_i hhunting
    exact pollStep_hunting hhunting
  · rename_i hsyncing
    exact pollStep_syncing hsyncing
  · rename_i hsynced
    exact pollStep_synced hsynced

/-- Everything that a turn of the poll loop can go on with. -/
inductive PollProgress (cursor : HdlcSyncCursor) : HdlcSyncCursor → Prop where
  | lock (opening : HdlcSyncOpening) (hinside : cursor.scan_index < cursor.accumulator.position)
      (hhunting : cursor.accumulator.state = .HDLC_SYNC_STATE_HUNTING)
      (hfound : hdlc_sync_find_opening cursor.accumulator cursor.scan_index = some opening) :
      PollProgress cursor (hdlc_sync_lock cursor opening)
  | oversized (hinside : cursor.scan_index < cursor.accumulator.position)
      (hlocked : cursor.accumulator.state ≠ .HDLC_SYNC_STATE_HUNTING)
      (hlong : HDLC_SYNC_MAX_REASONABLE_FRAME_SIZE_BYTES ≤ cursor.out_frame.length) :
      PollProgress cursor (hdlc_sync_reject_oversized_candidate cursor)
  | store (aligned : UInt8) (hinside : cursor.scan_index < cursor.accumulator.position)
      (hlocked : cursor.accumulator.state ≠ .HDLC_SYNC_STATE_HUNTING)
      (hshort : cursor.out_frame.length < HDLC_SYNC_MAX_REASONABLE_FRAME_SIZE_BYTES)
      (hroom : cursor.out_frame.length < cursor.out_frame.capacity) (haligned : cursor.aligned = some aligned)
      (hflag : cursor.accumulator.state = .HDLC_SYNC_STATE_SYNCED → aligned ≠ cursor.accumulator.sync_byte) :
      PollProgress cursor
        { accumulator := { cursor.accumulator with state := .HDLC_SYNC_STATE_SYNCED }
          out_frame := { cursor.out_frame with payload := cursor.out_frame.payload ++ [aligned] }
          scan_index := cursor.scan_index + 1 }

theorem pollProgress_of_inl {cursor next : HdlcSyncCursor} (hturn : hdlc_sync_poll_turn cursor = .inl next) :
    PollProgress cursor next := by
  unfold hdlc_sync_poll_turn at hturn
  split at hturn
  case isFalse => cases hturn
  case isTrue hinside =>
    have hstep := hdlc_sync_step_pollStep cursor
    generalize hdlc_sync_step cursor = outcome at hturn hstep
    cases hstep with
    | miss hhunting hnone => cases hturn
    | wait syncing synced hlocked hshort hnone => cases hturn
    | overflow hlocked hshort hfull => cases hturn
    | close hsynced hshort hroom haligned => cases hturn
    | lock opening hhunting hfound =>
      cases hturn
      exact .lock opening hinside hhunting hfound
    | oversized hlocked hlong =>
      cases hturn
      exact .oversized hinside hlocked hlong
    | store aligned hlocked hshort hroom haligned hflag =>
      cases hturn
      exact .store aligned hinside hlocked hshort hroom haligned hflag

/-- Everything that the poll loop can leave with. -/
inductive PollExit (cursor : HdlcSyncCursor) : HdlcSyncPolled → Prop where
  | exhausted (hend : cursor.accumulator.position ≤ cursor.scan_index) :
      PollExit cursor
        ⟨.E2S_OK, hdlc_sync_finalize_poll_no_frame cursor.accumulator cursor.scan_index, cursor.out_frame⟩
  | miss (hinside : cursor.scan_index < cursor.accumulator.position)
      (hhunting : cursor.accumulator.state = .HDLC_SYNC_STATE_HUNTING)
      (hnone : hdlc_sync_find_opening cursor.accumulator cursor.scan_index = none) :
      PollExit cursor
        ⟨.E2S_OK, hdlc_sync_finalize_poll_no_frame cursor.accumulator cursor.accumulator.position, cursor.out_frame⟩
  | wait (syncing synced : UInt32) (hinside : cursor.scan_index < cursor.accumulator.position)
      (hlocked : cursor.accumulator.state ≠ .HDLC_SYNC_STATE_HUNTING)
      (hshort : cursor.out_frame.length < HDLC_SYNC_MAX_REASONABLE_FRAME_SIZE_BYTES) (hnone : cursor.aligned = none) :
      PollExit cursor
        ⟨.E2S_OK,
          hdlc_sync_finalize_poll_no_frame
            { cursor.accumulator with lookahead_wait_syncing := syncing, lookahead_wait_synced := synced }
            cursor.scan_index,
          cursor.out_frame⟩
  | overflow (hinside : cursor.scan_index < cursor.accumulator.position)
      (hlocked : cursor.accumulator.state ≠ .HDLC_SYNC_STATE_HUNTING)
      (hshort : cursor.out_frame.length < HDLC_SYNC_MAX_REASONABLE_FRAME_SIZE_BYTES)
      (hfull : cursor.out_frame.capacity ≤ cursor.out_frame.length) :
      PollExit cursor
        ⟨.E2S_ERR_HDLC_DECODE_PAYLOAD_TOO_LONG,
          { cursor.accumulator with state := .HDLC_SYNC_STATE_HUNTING, bit_offset := 0 },
          { cursor.out_frame with payload := [] }⟩
  | close (hinside : cursor.scan_index < cursor.accumulator.position)
      (hsynced : cursor.accumulator.state = .HDLC_SYNC_STATE_SYNCED)
      (hshort : cursor.out_frame.length < HDLC_SYNC_MAX_REASONABLE_FRAME_SIZE_BYTES)
      (hroom : cursor.out_frame.length < cursor.out_frame.capacity)
      (haligned : cursor.aligned = some cursor.accumulator.sync_byte) :
      PollExit cursor
        ⟨.E2S_ERR_HDLC_ACC_FRAME_READY,
          { hdlc_sync_close_candidate cursor.accumulator cursor.scan_index with processed := 0 },
          { cursor.out_frame with payload := cursor.out_frame.payload ++ [cursor.accumulator.sync_byte] }⟩

theorem pollExit_of_inr {cursor : HdlcSyncCursor} {polled : HdlcSyncPolled}
    (hturn : hdlc_sync_poll_turn cursor = .inr polled) : PollExit cursor polled := by
  unfold hdlc_sync_poll_turn at hturn
  split at hturn
  case isFalse hend =>
    cases hturn
    exact .exhausted (Nat.le_of_not_lt hend)
  case isTrue hinside =>
    have hstep := hdlc_sync_step_pollStep cursor
    generalize hdlc_sync_step cursor = outcome at hturn hstep
    cases hstep with
    | lock opening hhunting hfound => cases hturn
    | oversized hlocked hlong => cases hturn
    | store aligned hlocked hshort hroom haligned hflag => cases hturn
    | miss hhunting hnone =>
      cases hturn
      exact .miss hinside hhunting hnone
    | wait syncing synced hlocked hshort hnone =>
      cases hturn
      exact .wait syncing synced hinside hlocked hshort hnone
    | overflow hlocked hshort hfull =>
      cases hturn
      exact .overflow hinside hlocked hshort hfull
    | close hsynced hshort hroom haligned =>
      cases hturn
      exact .close hinside hsynced hshort hroom haligned

/-- Every turn of the poll loop shortens the buffer, leaves hunting or moves
the cursor on. -/
def pollVariant (cursor : HdlcSyncCursor) : Nat :=
  let position := cursor.accumulator.position
  position * (position + 2) +
    if cursor.accumulator.state = .HDLC_SYNC_STATE_HUNTING then position + 1 else position - cursor.scan_index

theorem hdlc_sync_poll_turn_decreases {cursor next : HdlcSyncCursor} (hturn : hdlc_sync_poll_turn cursor = .inl next) :
    pollVariant next < pollVariant cursor := by
  cases pollProgress_of_inl hturn with
  | lock opening hinside hhunting hfound =>
    have hposition : (hdlc_sync_lock cursor opening).accumulator.position = cursor.accumulator.position := rfl
    have hstate : (hdlc_sync_lock cursor opening).accumulator.state = .HDLC_SYNC_STATE_SYNCING := rfl
    have hscan : (hdlc_sync_lock cursor opening).scan_index = opening.start_index + 1 := rfl
    simp only [pollVariant, hposition, hstate, hscan, hhunting, if_true, reduceCtorEq, if_false]
    omega
  | store aligned hinside hlocked hshort hroom haligned hflag =>
    simp only [pollVariant, hlocked, if_false, reduceCtorEq, HdlcSyncAccumulator.position] at hinside ⊢
    omega
  | oversized hinside hlocked hlong =>
    have hposition : (hdlc_sync_reject_oversized_candidate cursor).accumulator.position =
        cursor.accumulator.position -
          min (cursor.accumulator.candidate_start + 1) cursor.accumulator.position := by
      simp [hdlc_sync_reject_oversized_candidate]
    have hstate : (hdlc_sync_reject_oversized_candidate cursor).accumulator.state = .HDLC_SYNC_STATE_HUNTING := rfl
    simp only [pollVariant, hposition, hstate, if_true, hlocked, if_false]
    generalize cursor.accumulator.position = position at hinside ⊢
    obtain ⟨rest, hrest⟩ : ∃ rest, position = rest + 1 := ⟨position - 1, by omega⟩
    have hle : position - min (cursor.accumulator.candidate_start + 1) position ≤ rest := by omega
    generalize position - min (cursor.accumulator.candidate_start + 1) position = kept at hle ⊢
    have hmul : kept * (kept + 2) ≤ rest * (rest + 2) := Nat.mul_le_mul hle (by omega)
    have hexpand : position * (position + 2) = rest * (rest + 2) + 2 * rest + 3 := by
      rw [hrest]
      simp only [Nat.add_mul, Nat.mul_add]
      omega
    omega

/-- The loop of `hdlc_sync_acc_poll`. -/
def pollLoop : Loop.Terminating HdlcSyncCursor HdlcSyncPolled where
  body := hdlc_sync_poll_turn
  variant := pollVariant
  decreases := fun _ _ => hdlc_sync_poll_turn_decreases

/-- The cursor with which a poll starts. -/
def restCursor (accumulator : HdlcSyncAccumulator) (out_frame : HdlcFrame) : HdlcSyncCursor where
  accumulator := accumulator
  out_frame := out_frame
  scan_index := accumulator.processed

def hdlc_sync_acc_poll (accumulator : HdlcSyncAccumulator) (out_frame : HdlcFrame) : HdlcSyncPolled :=
  if out_frame.capacity = 0 then ⟨.E2S_OK, accumulator, out_frame⟩
  else if accumulator.position = 0 then ⟨.E2S_OK, accumulator, out_frame⟩
  else if accumulator.state ≠ .HDLC_SYNC_STATE_HUNTING ∧ accumulator.bit_offset ≠ 0 ∧ accumulator.position < 2 then
    ⟨.E2S_OK, accumulator, out_frame⟩
  else pollLoop.run { accumulator, out_frame, scan_index := accumulator.processed }

/-- Invariant rule: a poll returns at once, or it leaves its loop from a cursor
that satisfies the invariant of its turns. -/
theorem hdlc_sync_acc_poll_cases (accumulator : HdlcSyncAccumulator) (out_frame : HdlcFrame)
    (invariant : HdlcSyncCursor → Prop)
    (hstep : ∀ cursor next, invariant cursor → hdlc_sync_poll_turn cursor = .inl next → invariant next)
    (hinit : invariant (restCursor accumulator out_frame)) :
    hdlc_sync_acc_poll accumulator out_frame = ⟨.E2S_OK, accumulator, out_frame⟩ ∨
      ∃ last, invariant last ∧ hdlc_sync_poll_turn last = .inr (hdlc_sync_acc_poll accumulator out_frame) := by
  unfold hdlc_sync_acc_poll
  split
  · exact .inl rfl
  · split
    · exact .inl rfl
    · split
      · exact .inl rfl
      · exact .inr (pollLoop.exists_exit invariant hstep hinit)

theorem hdlc_sync_poll_turn_lock {cursor : HdlcSyncCursor} {opening : HdlcSyncOpening}
    (hinside : cursor.scan_index < cursor.accumulator.position)
    (hhunting : cursor.accumulator.state = .HDLC_SYNC_STATE_HUNTING)
    (hfound : hdlc_sync_find_opening cursor.accumulator cursor.scan_index = some opening) :
    hdlc_sync_poll_turn cursor = .inl (hdlc_sync_lock cursor opening) := by
  have hstep : hdlc_sync_step cursor = (.HDLC_SYNC_POLL_STEP_PROGRESS, hdlc_sync_lock cursor opening) := by
    rw [hdlc_sync_step, hhunting]
    dsimp only
    rw [hdlc_sync_step_hunting, hfound]
  rw [hdlc_sync_poll_turn, if_pos hinside, hstep]

/-- Nothing keeps a poll of a hunting accumulator with raw bytes from its loop. -/
theorem hdlc_sync_acc_poll_hunting {accumulator : HdlcSyncAccumulator} {out_frame : HdlcFrame}
    (hcapacity : out_frame.capacity ≠ 0) (hposition : accumulator.position ≠ 0)
    (hhunting : accumulator.state = .HDLC_SYNC_STATE_HUNTING) :
    hdlc_sync_acc_poll accumulator out_frame = pollLoop.run (restCursor accumulator out_frame) := by
  unfold hdlc_sync_acc_poll
  rw [if_neg hcapacity, if_neg hposition, if_neg (fun hguard => hguard.1 hhunting)]
  rfl

end ether2ser.hdlc_sync
