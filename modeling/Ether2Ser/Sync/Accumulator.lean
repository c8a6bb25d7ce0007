import Ether2Ser.Hdlc.Common

open ether2ser.hdlc_common

namespace ether2ser.hdlc_sync

def RX_HDLC_SYNC_MAX_BUFFER_SIZE : Nat := 8192

def HDLC_BITS_PER_BYTE : Nat := 8
def HDLC_SYNC_MIN_FRAME_SIZE_BYTES : Nat := 4
def HDLC_SYNC_MAX_REASONABLE_FRAME_SIZE_BYTES : Nat := 2048
def HDLC_SYNC_SHORT_BUFFER_SEARCH_LIMIT : Nat := 64

/-- `HDLC_SYNC_STATE_T`. -/
inductive HdlcSyncState where
  | HDLC_SYNC_STATE_HUNTING
  | HDLC_SYNC_STATE_SYNCING
  | HDLC_SYNC_STATE_SYNCED
  deriving DecidableEq, Repr

/-- `HDLC_SYNC_ACCUMULATOR_T`. The list holds the received bytes of the raw
buffer, so that its length is the position field. -/
structure HdlcSyncAccumulator where
  buffer : List UInt8
  processed : Nat
  candidate_start : Nat
  candidate_end : Nat
  candidate_valid : Bool
  bit_offset : Nat
  align_shift_right : Bool
  state : HdlcSyncState
  sync_byte : UInt8
  lookahead_wait_syncing : UInt32
  lookahead_wait_synced : UInt32
  frame_ready_count : UInt32
  consume_count : UInt32
  hardcap_drop_events : UInt32
  hardcap_drop_bytes : UInt32
  deriving DecidableEq, Repr

namespace HdlcSyncAccumulator

def position (accumulator : HdlcSyncAccumulator) : Nat := accumulator.buffer.length

end HdlcSyncAccumulator

/-- The accumulator after `hdlc_sync_acc_init`, which assigns every field. -/
def hdlc_sync_acc_init (sync_byte : UInt8) : HdlcSyncAccumulator where
  buffer := []
  processed := 0
  candidate_start := 0
  candidate_end := 0
  candidate_valid := false
  bit_offset := 0
  align_shift_right := false
  state := .HDLC_SYNC_STATE_HUNTING
  sync_byte := sync_byte
  lookahead_wait_syncing := 0
  lookahead_wait_synced := 0
  frame_ready_count := 0
  consume_count := 0
  hardcap_drop_events := 0
  hardcap_drop_bytes := 0

def hdlc_sync_acc_process_byte (accumulator : HdlcSyncAccumulator) (byte : UInt8) : Bool × HdlcSyncAccumulator :=
  if accumulator.position ≥ RX_HDLC_SYNC_MAX_BUFFER_SIZE then (false, accumulator)
  else (true, { accumulator with buffer := accumulator.buffer ++ [byte] })

def hdlc_sync_drop_prefix (accumulator : HdlcSyncAccumulator) (drop_count : Nat) : HdlcSyncAccumulator :=
  if drop_count = 0 then accumulator
  else if drop_count ≥ accumulator.position then { accumulator with buffer := [], processed := 0 }
  else { accumulator with buffer := accumulator.buffer.drop drop_count }

def hdlc_sync_reset_hunting_state (accumulator : HdlcSyncAccumulator) : HdlcSyncAccumulator :=
  { accumulator with
    processed := 0
    candidate_start := 0
    candidate_end := 0
    candidate_valid := false
    state := .HDLC_SYNC_STATE_HUNTING
    bit_offset := 0
    align_shift_right := false }

/-- One aligned byte of the raw stream at the selected bit phase, if all the
raw bytes it needs have been received. -/
def hdlc_sync_get_aligned_byte (accumulator : HdlcSyncAccumulator) (raw_index bit_offset : Nat) (shift_right : Bool) :
    Option UInt8 :=
  if raw_index ≥ accumulator.position ∨ bit_offset ≥ HDLC_BITS_PER_BYTE then none
  else if bit_offset = 0 then some (accumulator.buffer.getD raw_index 0)
  else if raw_index + 1 ≥ accumulator.position then none
  else if shift_right then
    some ((accumulator.buffer.getD raw_index 0 >>> UInt8.ofNat bit_offset) |||
      (accumulator.buffer.getD (raw_index + 1) 0 <<< UInt8.ofNat (HDLC_BITS_PER_BYTE - bit_offset)))
  else
    some ((accumulator.buffer.getD raw_index 0 <<< UInt8.ofNat bit_offset) |||
      (accumulator.buffer.getD (raw_index + 1) 0 >>> UInt8.ofNat (HDLC_BITS_PER_BYTE - bit_offset)))

/-- Whether the aligned byte at a bit phase is available and the sync byte. -/
def aligned_is_sync (accumulator : HdlcSyncAccumulator) (raw_index bit_offset : Nat) (shift_right : Bool) : Bool :=
  hdlc_sync_get_aligned_byte accumulator raw_index bit_offset shift_right == some accumulator.sync_byte

/-- The output parameters of the two searches for an opening flag. -/
structure HdlcSyncOpening where
  start_index : Nat
  bit_pos : Nat
  shift_right : Bool
  deriving DecidableEq, Repr

/-- The bit phases with a direction, in the order of the loops over them. -/
def shifted_bit_positions : List Nat := List.range' 1 (HDLC_BITS_PER_BYTE - 1)

/-- Where both searches start: one raw byte before the cursor, so that a flag
across the boundary is not missed. -/
def search_start (scan_index : Nat) : Nat := if scan_index > 0 then scan_index - 1 else 0

/-- One turn of the loop of `hdlc_sync_find_opening_candidate`. -/
def hdlc_sync_find_opening_at (accumulator : HdlcSyncAccumulator) (allow_left_shift : Bool) (start : Nat) :
    Option HdlcSyncOpening :=
  if aligned_is_sync accumulator start 0 false then some ⟨start, 0, false⟩
  else
    match shifted_bit_positions.find? (aligned_is_sync accumulator start · true) with
    | some bit_pos => some ⟨start, bit_pos, true⟩
    | none =>
      if allow_left_shift then
        (shifted_bit_positions.find? (aligned_is_sync accumulator start · false)).map (⟨start, ·, false⟩)
      else none

def hdlc_sync_find_opening_candidate (accumulator : HdlcSyncAccumulator) (scan_index : Nat)
    (allow_left_shift : Bool) : Option HdlcSyncOpening :=
  if accumulator.position < 2 then none
  else
    let start := search_start scan_index
    if start ≥ accumulator.position - 1 then none
    else (List.range' start (accumulator.position - 1 - start)).findSome?
      (hdlc_sync_find_opening_at accumulator allow_left_shift)

/-- The probe loop for the closing flag: the size of the candidate that the
given opening begins, if it is complete and long enough. -/
def hdlc_sync_probe_closing (accumulator : HdlcSyncAccumulator) (bit_pos : Nat) (shift_right : Bool) :
    List Nat → Nat → Option Nat
  | [], _ => none
  | probe :: probes, frame_size =>
    match hdlc_sync_get_aligned_byte accumulator probe bit_pos shift_right with
    | none => none
    | some probe_byte =>
      if probe_byte = accumulator.sync_byte ∧ frame_size + 1 ≥ HDLC_SYNC_MIN_FRAME_SIZE_BYTES then some (frame_size + 1)
      else hdlc_sync_probe_closing accumulator bit_pos shift_right probes (frame_size + 1)

/-- One turn of the three nested loops of the exhaustive search. The longest
complete candidate is kept, the first one among equals. -/
def hdlc_sync_try_candidate_short (accumulator : HdlcSyncAccumulator) (best : Option (HdlcSyncOpening × Nat))
    (opening : HdlcSyncOpening) : Option (HdlcSyncOpening × Nat) :=
  if opening.bit_pos = 0 ∧ opening.shift_right then best
  else if !aligned_is_sync accumulator opening.start_index opening.bit_pos opening.shift_right then best
  else
    match hdlc_sync_probe_closing accumulator opening.bit_pos opening.shift_right
      (List.range' (opening.start_index + 1) (accumulator.position - (opening.start_index + 1))) 1 with
    | none => best
    | some frame_size =>
      match best with
      | none => some (opening, frame_size)
      | some (_, best_frame_size) => if frame_size > best_frame_size then some (opening, frame_size) else best

/-- The openings of the exhaustive search in the order of its loops. -/
def openings_from (start count : Nat) : List HdlcSyncOpening :=
  (List.range' start count).flatMap fun start => (List.range HDLC_BITS_PER_BYTE).flatMap fun bit_pos =>
    [⟨start, bit_pos, false⟩, ⟨start, bit_pos, true⟩]

def hdlc_sync_find_complete_candidate_short (accumulator : HdlcSyncAccumulator) (scan_index : Nat) :
    Option HdlcSyncOpening :=
  if accumulator.position < HDLC_SYNC_MIN_FRAME_SIZE_BYTES ∨
      accumulator.position > HDLC_SYNC_SHORT_BUFFER_SEARCH_LIMIT then none
  else
    let start := search_start scan_index
    if start ≥ accumulator.position - 1 then none
    else ((openings_from start (accumulator.position - 1 - start)).foldl
      (hdlc_sync_try_candidate_short accumulator) none).map (·.1)

/-- The raw bytes that the aligned byte at an index is made of have been
received. -/
def HdlcSyncAccumulator.Received (accumulator : HdlcSyncAccumulator) (bit_offset raw_index : Nat) : Prop :=
  raw_index < accumulator.position ∧ (bit_offset ≠ 0 → raw_index + 1 < accumulator.position)

/-- The aligned byte that two neighbouring raw bytes give. -/
def composed (bit_offset : Nat) (shift_right : Bool) (first second : UInt8) : UInt8 :=
  if bit_offset = 0 then first
  else if shift_right then (first >>> UInt8.ofNat bit_offset) ||| (second <<< UInt8.ofNat (8 - bit_offset))
  else (first <<< UInt8.ofNat bit_offset) ||| (second >>> UInt8.ofNat (8 - bit_offset))

section

variable {accumulator : HdlcSyncAccumulator}

/-- An aligned byte depends on two raw bytes and on nothing else that has been
received. -/
theorem hdlc_sync_get_aligned_byte_of_received {bit_offset raw_index : Nat} (hoffset : bit_offset < HDLC_BITS_PER_BYTE)
    (hreceived : accumulator.Received bit_offset raw_index) (shift_right : Bool) :
    hdlc_sync_get_aligned_byte accumulator raw_index bit_offset shift_right =
      some (composed bit_offset shift_right (accumulator.buffer.getD raw_index 0)
        (accumulator.buffer.getD (raw_index + 1) 0)) := by
  obtain ⟨hinside, hnext⟩ := hreceived
  unfold hdlc_sync_get_aligned_byte composed
  rw [if_neg (by omega)]
  split
  · rfl
  · rename_i hshifted
    have := hnext hshifted
    rw [if_neg (by omega)]
    cases shift_right with
    | true => rfl
    | false => rfl

theorem hdlc_sync_get_aligned_byte_of_missing {bit_offset raw_index : Nat}
    (hmissing : ¬accumulator.Received bit_offset raw_index) (shift_right : Bool) :
    hdlc_sync_get_aligned_byte accumulator raw_index bit_offset shift_right = none := by
  rw [HdlcSyncAccumulator.Received, not_and_or, Classical.not_imp] at hmissing
  unfold hdlc_sync_get_aligned_byte
  split
  · rfl
  · rw [if_neg (by omega), if_pos (by omega)]

theorem received_of_aligned {bit_offset raw_index : Nat} {shift_right : Bool} {aligned : UInt8}
    (haligned : hdlc_sync_get_aligned_byte accumulator raw_index bit_offset shift_right = some aligned) :
    accumulator.Received bit_offset raw_index := by
  by_contra hmissing
  rw [hdlc_sync_get_aligned_byte_of_missing hmissing] at haligned
  cases haligned

end

/-- Dropping raw bytes clears the cursor only if nothing is left. -/
theorem hdlc_sync_drop_prefix_eq (accumulator : HdlcSyncAccumulator) (drop_count : Nat) :
    hdlc_sync_drop_prefix accumulator drop_count =
      { accumulator with
        buffer := accumulator.buffer.drop drop_count
        processed := if drop_count ≠ 0 ∧ accumulator.position ≤ drop_count then 0 else accumulator.processed } := by
  unfold hdlc_sync_drop_prefix
  split
  · rename_i hzero
    simp [hzero]
  · rename_i hpos
    split
    · rename_i hall
      have hnil : accumulator.buffer.drop drop_count = [] := List.drop_eq_nil_of_le hall
      simp [hpos, hall, hnil]
    · rename_i hsome
      simp [hsome]

@[simp]
theorem position_drop_prefix (accumulator : HdlcSyncAccumulator) (drop_count : Nat) :
    (HdlcSyncAccumulator.position <| hdlc_sync_drop_prefix accumulator drop_count) =
      accumulator.position - drop_count := by
  rw [hdlc_sync_drop_prefix_eq]
  exact List.length_drop

@[simp]
theorem position_reset_hunting_state (accumulator : HdlcSyncAccumulator) :
    (hdlc_sync_reset_hunting_state accumulator).position = accumulator.position := rfl

end ether2ser.hdlc_sync
