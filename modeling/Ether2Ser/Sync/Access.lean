import Ether2Ser.Control.Traced
import Ether2Ser.Sync.Poll

open ether2ser.error ether2ser.hdlc_common

namespace ether2ser.hdlc_sync

/-- A read of the raw buffer or a write to the caller's frame buffer, each
with its index and the number of valid cells at that moment. -/
inductive Access where
  | raw_read (index position : Nat)
  | frame_write (index capacity : Nat)
  deriving DecidableEq, Repr

def Access.InBounds : Access → Prop
  | .raw_read index position => index < position
  | .frame_write index capacity => index < capacity

/-- The functions of a poll together with their accesses, in program order. -/
abbrev Polling := Traced Access

def read_raw (accumulator : HdlcSyncAccumulator) (index : Nat) : Polling UInt8 := do
  Traced.access (.raw_read index accumulator.position)
  pure (accumulator.buffer.getD index 0)

def write_frame (out_frame : HdlcFrame) (index : Nat) : Polling Unit :=
  Traced.access (.frame_write index out_frame.capacity)

namespace polling

/-- The `memmove` reads every byte behind the dropped ones. -/
def drop_prefix (accumulator : HdlcSyncAccumulator) (drop_count : Nat) : Polling HdlcSyncAccumulator := do
  if drop_count = 0 then pure accumulator
  else if drop_count ≥ accumulator.position then pure { accumulator with buffer := [], processed := 0 }
  else
    let remaining := accumulator.position - drop_count
    (List.range' drop_count remaining).foldlM (fun _ index => do
      let _ ← read_raw accumulator index
      pure ()) ()
    pure { accumulator with buffer := accumulator.buffer.drop drop_count }

def reject_oversized_candidate (cursor : HdlcSyncCursor) : Polling HdlcSyncCursor := do
  let drop := min (cursor.accumulator.candidate_start + 1) cursor.accumulator.position
  let accumulator ← drop_prefix cursor.accumulator drop
  pure
    { accumulator := hdlc_sync_reset_hunting_state accumulator
      out_frame := { cursor.out_frame with payload := [] }
      scan_index := 0 }

def get_aligned_byte (accumulator : HdlcSyncAccumulator) (raw_index bit_offset : Nat) (shift_right : Bool) :
    Polling (Option UInt8) :=
  if raw_index ≥ accumulator.position ∨ bit_offset ≥ HDLC_BITS_PER_BYTE then pure none
  else if bit_offset = 0 then do
    let byte ← read_raw accumulator raw_index
    pure (some byte)
  else if raw_index + 1 ≥ accumulator.position then pure none
  else do
    let byte ← read_raw accumulator raw_index
    let next ← read_raw accumulator (raw_index + 1)
    if shift_right then
      pure (some ((byte >>> UInt8.ofNat bit_offset) ||| (next <<< UInt8.ofNat (HDLC_BITS_PER_BYTE - bit_offset))))
    else
      pure (some ((byte <<< UInt8.ofNat bit_offset) ||| (next >>> UInt8.ofNat (HDLC_BITS_PER_BYTE - bit_offset))))

def aligned_is_sync (accumulator : HdlcSyncAccumulator) (raw_index bit_offset : Nat) (shift_right : Bool) :
    Polling Bool := do
  let aligned ← get_aligned_byte accumulator raw_index bit_offset shift_right
  pure (aligned == some accumulator.sync_byte)

/-- The loop over the bit phases in one direction. -/
def find_shifted (accumulator : HdlcSyncAccumulator) (start : Nat) (shift_right : Bool) : Polling (Option Nat) :=
  Traced.findSome? (fun bit_pos => do
    let is_sync ← aligned_is_sync accumulator start bit_pos shift_right
    pure (if is_sync then some bit_pos else none)) shifted_bit_positions

def find_opening_at (accumulator : HdlcSyncAccumulator) (allow_left_shift : Bool) (start : Nat) :
    Polling (Option HdlcSyncOpening) := do
  if ← aligned_is_sync accumulator start 0 false then pure (some ⟨start, 0, false⟩)
  else
    match ← find_shifted accumulator start true with
    | some bit_pos => pure (some ⟨start, bit_pos, true⟩)
    | none =>
      if allow_left_shift then do
        let found ← find_shifted accumulator start false
        pure (found.map (⟨start, ·, false⟩))
      else pure none

def find_opening_candidate (accumulator : HdlcSyncAccumulator) (scan_index : Nat) (allow_left_shift : Bool) :
    Polling (Option HdlcSyncOpening) :=
  if accumulator.position < 2 then pure none
  else
    let start := search_start scan_index
    if start ≥ accumulator.position - 1 then pure none
    else Traced.findSome? (find_opening_at accumulator allow_left_shift)
      (List.range' start (accumulator.position - 1 - start))

def probe_closing (accumulator : HdlcSyncAccumulator) (bit_pos : Nat) (shift_right : Bool) :
    List Nat → Nat → Polling (Option Nat)
  | [], _ => pure none
  | probe :: probes, frame_size => do
    match ← get_aligned_byte accumulator probe bit_pos shift_right with
    | none => pure none
    | some probe_byte =>
      if probe_byte = accumulator.sync_byte ∧ frame_size + 1 ≥ HDLC_SYNC_MIN_FRAME_SIZE_BYTES then
        pure (some (frame_size + 1))
      else probe_closing accumulator bit_pos shift_right probes (frame_size + 1)

def try_candidate_short (accumulator : HdlcSyncAccumulator) (best : Option (HdlcSyncOpening × Nat))
    (opening : HdlcSyncOpening) : Polling (Option (HdlcSyncOpening × Nat)) := do
  if opening.bit_pos = 0 ∧ opening.shift_right then pure best
  else if !(← aligned_is_sync accumulator opening.start_index opening.bit_pos opening.shift_right) then pure best
  else
    match ← probe_closing accumulator opening.bit_pos opening.shift_right
      (List.range' (opening.start_index + 1) (accumulator.position - (opening.start_index + 1))) 1 with
    | none => pure best
    | some frame_size =>
      match best with
      | none => pure (some (opening, frame_size))
      | some (_, best_frame_size) =>
        if frame_size > best_frame_size then pure (some (opening, frame_size)) else pure best

def find_complete_candidate_short (accumulator : HdlcSyncAccumulator) (scan_index : Nat) :
    Polling (Option HdlcSyncOpening) :=
  if accumulator.position < HDLC_SYNC_MIN_FRAME_SIZE_BYTES ∨
      accumulator.position > HDLC_SYNC_SHORT_BUFFER_SEARCH_LIMIT then pure none
  else
    let start := search_start scan_index
    if start ≥ accumulator.position - 1 then pure none
    else do
      let best ← (openings_from start (accumulator.position - 1 - start)).foldlM (try_candidate_short accumulator) none
      pure (best.map (·.1))

def find_opening (accumulator : HdlcSyncAccumulator) (scan_index : Nat) : Polling (Option HdlcSyncOpening) := do
  match ← find_complete_candidate_short accumulator scan_index with
  | some opening => pure (some opening)
  | none => find_opening_candidate accumulator scan_index false

def step_hunting (cursor : HdlcSyncCursor) : Polling (HdlcSyncPollStepResult × HdlcSyncCursor) := do
  match ← find_opening cursor.accumulator cursor.scan_index with
  | none => pure (.HDLC_SYNC_POLL_STEP_STOP, { cursor with scan_index := cursor.accumulator.position })
  | some opening =>
    write_frame cursor.out_frame 0
    pure (.HDLC_SYNC_POLL_STEP_PROGRESS, hdlc_sync_lock cursor opening)

def step_locked (count_wait : HdlcSyncAccumulator → HdlcSyncAccumulator)
    (stored : UInt8 → HdlcSyncCursor → HdlcSyncPollStepResult × HdlcSyncCursor) (cursor : HdlcSyncCursor) :
    Polling (HdlcSyncPollStepResult × HdlcSyncCursor) := do
  let accumulator := cursor.accumulator
  let out_frame := cursor.out_frame
  if out_frame.length ≥ HDLC_SYNC_MAX_REASONABLE_FRAME_SIZE_BYTES then
    let next ← reject_oversized_candidate cursor
    pure (.HDLC_SYNC_POLL_STEP_PROGRESS, next)
  else
    match ← get_aligned_byte accumulator cursor.scan_index accumulator.bit_offset accumulator.align_shift_right with
    | none =>
      pure (.HDLC_SYNC_POLL_STEP_STOP,
        if accumulator.bit_offset ≠ 0 then { cursor with accumulator := count_wait accumulator } else cursor)
    | some aligned =>
      if out_frame.length ≥ out_frame.capacity then
        pure (.HDLC_SYNC_POLL_STEP_ERROR .E2S_ERR_HDLC_DECODE_PAYLOAD_TOO_LONG,
          { cursor with
            accumulator := { accumulator with state := .HDLC_SYNC_STATE_HUNTING, bit_offset := 0 }
            out_frame := { out_frame with payload := [] } })
      else
        write_frame out_frame out_frame.length
        pure (stored aligned
          { cursor with out_frame := { out_frame with payload := out_frame.payload ++ [aligned] } })

def step (cursor : HdlcSyncCursor) : Polling (HdlcSyncPollStepResult × HdlcSyncCursor) :=
  match cursor.accumulator.state with
  | .HDLC_SYNC_STATE_HUNTING => step_hunting cursor
  | .HDLC_SYNC_STATE_SYNCING => step_locked count_wait_syncing stored_syncing cursor
  | .HDLC_SYNC_STATE_SYNCED => step_locked count_wait_synced stored_synced cursor

def finalize_poll_no_frame (accumulator : HdlcSyncAccumulator) (scan_index : Nat) : Polling HdlcSyncAccumulator := do
  let accumulator := { accumulator with processed := scan_index }
  if accumulator.state ≠ .HDLC_SYNC_STATE_HUNTING then pure accumulator
  else
    let drop := if accumulator.processed > 0 then accumulator.processed - 1 else 0
    let drop := min drop accumulator.position
    let accumulator ← drop_prefix accumulator drop
    pure { accumulator with processed := 0 }

def poll_turn (cursor : HdlcSyncCursor) : Polling (HdlcSyncCursor ⊕ HdlcSyncPolled) := do
  if cursor.scan_index < cursor.accumulator.position then
    match ← step cursor with
    | (.HDLC_SYNC_POLL_STEP_PROGRESS, next) => pure (.inl next)
    | (.HDLC_SYNC_POLL_STEP_FRAME_READY, last) =>
      pure (.inr ⟨.E2S_ERR_HDLC_ACC_FRAME_READY, { last.accumulator with processed := 0 }, last.out_frame⟩)
    | (.HDLC_SYNC_POLL_STEP_ERROR error_code, last) => pure (.inr ⟨error_code, last.accumulator, last.out_frame⟩)
    | (.HDLC_SYNC_POLL_STEP_STOP, last) =>
      let accumulator ← finalize_poll_no_frame last.accumulator last.scan_index
      pure (.inr ⟨.E2S_OK, accumulator, last.out_frame⟩)
  else
    let accumulator ← finalize_poll_no_frame cursor.accumulator cursor.scan_index
    pure (.inr ⟨.E2S_OK, accumulator, cursor.out_frame⟩)

/-- `hdlc_sync_acc_poll` with its accesses. -/
def acc_poll (accumulator : HdlcSyncAccumulator) (out_frame : HdlcFrame) : Polling (Option HdlcSyncPolled) :=
  if out_frame.capacity = 0 then pure (some ⟨.E2S_OK, accumulator, out_frame⟩)
  else if accumulator.position = 0 then pure (some ⟨.E2S_OK, accumulator, out_frame⟩)
  else if accumulator.state ≠ .HDLC_SYNC_STATE_HUNTING ∧ accumulator.bit_offset ≠ 0 ∧ accumulator.position < 2 then
    pure (some ⟨.E2S_OK, accumulator, out_frame⟩)
  else
    let cursor := { accumulator, out_frame, scan_index := accumulator.processed }
    Traced.iterate poll_turn (pollVariant cursor + 1) cursor

@[simp]
theorem value_drop_prefix (accumulator : HdlcSyncAccumulator) (drop_count : Nat) :
    (Traced.value <| drop_prefix accumulator drop_count) = hdlc_sync_drop_prefix accumulator drop_count := by
  unfold drop_prefix hdlc_sync_drop_prefix
  split
  · rfl
  · split <;> rfl

@[simp]
theorem value_reject_oversized_candidate (cursor : HdlcSyncCursor) :
    (reject_oversized_candidate cursor).value = hdlc_sync_reject_oversized_candidate cursor := by
  simp [reject_oversized_candidate, hdlc_sync_reject_oversized_candidate]

@[simp]
theorem value_get_aligned_byte (accumulator : HdlcSyncAccumulator) (raw_index bit_offset : Nat) (shift_right : Bool) :
    (get_aligned_byte accumulator raw_index bit_offset shift_right).value =
      hdlc_sync_get_aligned_byte accumulator raw_index bit_offset shift_right := by
  unfold get_aligned_byte hdlc_sync_get_aligned_byte
  split
  · rfl
  · split
    · rfl
    · split
      · rfl
      · cases shift_right <;> rfl

@[simp]
theorem value_aligned_is_sync (accumulator : HdlcSyncAccumulator) (raw_index bit_offset : Nat) (shift_right : Bool) :
    (aligned_is_sync accumulator raw_index bit_offset shift_right).value =
      hdlc_sync.aligned_is_sync accumulator raw_index bit_offset shift_right := by
  simp [aligned_is_sync, hdlc_sync.aligned_is_sync]

@[simp]
theorem value_find_shifted (accumulator : HdlcSyncAccumulator) (start : Nat) (shift_right : Bool) :
    (find_shifted accumulator start shift_right).value =
      shifted_bit_positions.find? (hdlc_sync.aligned_is_sync accumulator start · shift_right) := by
  rw [find_shifted, Traced.value_findSome?, List.find?_eq_findSome?_guard]
  congr 1
  funext bit_pos
  simp [Option.guard]

@[simp]
theorem value_find_opening_at (accumulator : HdlcSyncAccumulator) (allow_left_shift : Bool) (start : Nat) :
    (find_opening_at accumulator allow_left_shift start).value =
      hdlc_sync_find_opening_at accumulator allow_left_shift start := by
  simp only [find_opening_at, hdlc_sync_find_opening_at, Traced.value_bind, value_aligned_is_sync, Traced.value_ite,
    Traced.value_pure, value_find_shifted]
  congr 1
  cases shifted_bit_positions.find? (hdlc_sync.aligned_is_sync accumulator start · true) with
  | some bit_pos => rfl
  | none => simp

@[simp]
theorem value_find_opening_candidate (accumulator : HdlcSyncAccumulator) (scan_index : Nat) (allow_left_shift : Bool) :
    (find_opening_candidate accumulator scan_index allow_left_shift).value =
      hdlc_sync_find_opening_candidate accumulator scan_index allow_left_shift := by
  simp [find_opening_candidate, hdlc_sync_find_opening_candidate, Traced.value_findSome?]

@[simp]
theorem value_probe_closing (accumulator : HdlcSyncAccumulator) (bit_pos : Nat) (shift_right : Bool) (probes : List Nat)
    (frame_size : Nat) :
    (probe_closing accumulator bit_pos shift_right probes frame_size).value =
      hdlc_sync_probe_closing accumulator bit_pos shift_right probes frame_size := by
  induction probes generalizing frame_size with
  | nil => rfl
  | cons probe probes ih =>
    rw [probe_closing, hdlc_sync_probe_closing, Traced.value_bind, value_get_aligned_byte]
    cases hdlc_sync_get_aligned_byte accumulator probe bit_pos shift_right with
    | none => rfl
    | some probe_byte => simp [ih]

@[simp]
theorem value_try_candidate_short (accumulator : HdlcSyncAccumulator) (best : Option (HdlcSyncOpening × Nat))
    (opening : HdlcSyncOpening) :
    (try_candidate_short accumulator best opening).value = hdlc_sync_try_candidate_short accumulator best opening := by
  simp only [try_candidate_short, hdlc_sync_try_candidate_short, Traced.value_ite, Traced.value_bind, Traced.value_pure,
    value_aligned_is_sync, value_probe_closing]
  congr 2
  cases hdlc_sync_probe_closing accumulator opening.bit_pos opening.shift_right
    (List.range' (opening.start_index + 1) (accumulator.position - (opening.start_index + 1))) 1 with
  | none => rfl
  | some frame_size =>
    cases best with
    | none => rfl
    | some best => simp

@[simp]
theorem value_find_complete_candidate_short (accumulator : HdlcSyncAccumulator) (scan_index : Nat) :
    (find_complete_candidate_short accumulator scan_index).value =
      hdlc_sync_find_complete_candidate_short accumulator scan_index := by
  simp [find_complete_candidate_short, hdlc_sync_find_complete_candidate_short, Traced.value_foldlM]

@[simp]
theorem value_find_opening (accumulator : HdlcSyncAccumulator) (scan_index : Nat) :
    (find_opening accumulator scan_index).value = hdlc_sync_find_opening accumulator scan_index := by
  rw [find_opening, hdlc_sync_find_opening, Traced.value_bind, value_find_complete_candidate_short]
  cases hdlc_sync_find_complete_candidate_short accumulator scan_index with
  | none => exact value_find_opening_candidate accumulator scan_index false
  | some opening => rfl

@[simp]
theorem value_step (cursor : HdlcSyncCursor) : (step cursor).value = hdlc_sync_step cursor := by
  have hhunting : (step_hunting cursor).value = hdlc_sync_step_hunting cursor := by
    rw [step_hunting, hdlc_sync_step_hunting, Traced.value_bind, value_find_opening]
    cases hdlc_sync_find_opening cursor.accumulator cursor.scan_index with
    | none => rfl
    | some opening => rfl
  have hlocked : ∀ count_wait stored,
      (step_locked count_wait stored cursor).value = hdlc_sync_step_locked count_wait stored cursor := by
    intro count_wait stored
    simp only [step_locked, hdlc_sync_step_locked, Traced.value_ite, Traced.value_bind, Traced.value_pure,
      value_reject_oversized_candidate, value_get_aligned_byte]
    congr 1
    cases hdlc_sync_get_aligned_byte cursor.accumulator cursor.scan_index cursor.accumulator.bit_offset
      cursor.accumulator.align_shift_right with
    | none => rfl
    | some aligned => simp
  unfold step hdlc_sync_step
  cases cursor.accumulator.state with
  | HDLC_SYNC_STATE_HUNTING => exact hhunting
  | HDLC_SYNC_STATE_SYNCING => exact hlocked count_wait_syncing stored_syncing
  | HDLC_SYNC_STATE_SYNCED => exact hlocked count_wait_synced stored_synced

@[simp]
theorem value_finalize_poll_no_frame (accumulator : HdlcSyncAccumulator) (scan_index : Nat) :
    (finalize_poll_no_frame accumulator scan_index).value =
      hdlc_sync_finalize_poll_no_frame accumulator scan_index := by
  simp [finalize_poll_no_frame, hdlc_sync_finalize_poll_no_frame]

theorem value_poll_turn (cursor : HdlcSyncCursor) : (poll_turn cursor).value = hdlc_sync_poll_turn cursor := by
  simp only [poll_turn, hdlc_sync_poll_turn, Traced.value_ite, Traced.value_bind, Traced.value_pure,
    value_finalize_poll_no_frame, value_step]
  congr 1
  obtain ⟨result, next⟩ := hdlc_sync_step cursor
  cases result <;> simp

/-- The accesses belong to the poll of the model. -/
theorem value_acc_poll (accumulator : HdlcSyncAccumulator) (out_frame : HdlcFrame) :
    (acc_poll accumulator out_frame).value = some (hdlc_sync_acc_poll accumulator out_frame) := by
  have hturn : (fun cursor => (poll_turn cursor).value) = pollLoop.body := funext value_poll_turn
  simp only [acc_poll, hdlc_sync_acc_poll, Traced.value_ite, Traced.value_pure, Traced.value_iterate, hturn]
  split
  · rfl
  · split
    · rfl
    · split
      · rfl
      · simp [Loop.Terminating.run, pollLoop]

end polling

end ether2ser.hdlc_sync
