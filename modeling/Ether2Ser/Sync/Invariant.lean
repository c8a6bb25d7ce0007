import Ether2Ser.Sync.Consume
import Ether2Ser.Sync.Safety
import Mathlib.Logic.Relation

open ether2ser.error ether2ser.hdlc_common

namespace ether2ser.hdlc_sync

/-- An accumulator with the frame its polls fill. `awaiting` says that the last
poll has reported a frame which has not been consumed yet. -/
structure ReceiveState where
  accumulator : HdlcSyncAccumulator
  out_frame : HdlcFrame
  awaiting : Bool

/-- What a caller may do. The event loop also empties the frame when it has
consumed a candidate, and all its resets leave a fresh accumulator and an
empty frame. -/
inductive ReceiveStep : ReceiveState → ReceiveState → Prop where
  | init (s : ReceiveState) (sync_byte : UInt8) :
      ReceiveStep s { s with accumulator := hdlc_sync_acc_init sync_byte, awaiting := false }
  | process_byte (s : ReceiveState) (byte : UInt8) :
      ReceiveStep s { s with accumulator := (hdlc_sync_acc_process_byte s.accumulator byte).2 }
  | poll (s : ReceiveState) (hconsumed : s.awaiting = false) :
      ReceiveStep s
        { accumulator := (hdlc_sync_acc_poll s.accumulator s.out_frame).accumulator
          out_frame := (hdlc_sync_acc_poll s.accumulator s.out_frame).out_frame
          awaiting := (hdlc_sync_acc_poll s.accumulator s.out_frame).result = .E2S_ERR_HDLC_ACC_FRAME_READY }
  | consume (s : ReceiveState) (accept clear : Bool) (hawaiting : s.awaiting = true) :
      ReceiveStep s
        { accumulator := hdlc_sync_acc_consume_candidate s.accumulator accept
          out_frame := if clear then { s.out_frame with payload := [] } else s.out_frame
          awaiting := false }
  | reset (s : ReceiveState) :
      ReceiveStep s
        { accumulator := hdlc_sync_acc_init HDLC_FLAG_BYTE
          out_frame := { s.out_frame with payload := [] }
          awaiting := false }

/-- The state after the first `hdlc_sync_acc_init`. -/
def ReceiveState.start (sync_byte : UInt8) (out_frame : HdlcFrame) : ReceiveState where
  accumulator := hdlc_sync_acc_init sync_byte
  out_frame := out_frame
  awaiting := false

/-- What relates the cursor, the candidate, the state and the frame between
two calls. -/
structure ReceiveInvariant (s : ReceiveState) : Prop where
  capacity_pos : 0 < s.out_frame.capacity
  position_le : s.accumulator.position ≤ RX_HDLC_SYNC_MAX_BUFFER_SIZE
  processed_le : s.accumulator.processed ≤ s.accumulator.position
  bit_offset_lt : s.accumulator.bit_offset < HDLC_BITS_PER_BYTE
  length_le : s.out_frame.length ≤ s.out_frame.capacity
  locked : s.accumulator.state ≠ .HDLC_SYNC_STATE_HUNTING →
    s.accumulator.candidate_start < s.accumulator.processed ∧
      s.out_frame.length = s.accumulator.processed - s.accumulator.candidate_start
  synced : s.accumulator.state = .HDLC_SYNC_STATE_SYNCED →
    s.accumulator.candidate_start + 2 ≤ s.accumulator.processed
  valid : s.accumulator.candidate_valid = true → s.awaiting = true ∧
    s.accumulator.state = .HDLC_SYNC_STATE_HUNTING ∧
    s.accumulator.candidate_start + 3 ≤ s.accumulator.candidate_end ∧
    s.accumulator.candidate_end ≤ s.accumulator.position
  reported : s.awaiting = true → s.accumulator.candidate_valid = true

/-- The same relation for the cursor of a running poll. -/
structure CursorInvariant (cursor : HdlcSyncCursor) : Prop where
  capacity_pos : 0 < cursor.out_frame.capacity
  position_le : cursor.accumulator.position ≤ RX_HDLC_SYNC_MAX_BUFFER_SIZE
  processed_le : cursor.accumulator.processed ≤ cursor.accumulator.position
  scan_le : cursor.scan_index ≤ cursor.accumulator.position
  bit_offset_lt : cursor.accumulator.bit_offset < HDLC_BITS_PER_BYTE
  length_le : cursor.out_frame.length ≤ cursor.out_frame.capacity
  locked : cursor.accumulator.state ≠ .HDLC_SYNC_STATE_HUNTING →
    cursor.accumulator.candidate_start < cursor.scan_index ∧
      cursor.out_frame.length = cursor.scan_index - cursor.accumulator.candidate_start
  synced : cursor.accumulator.state = .HDLC_SYNC_STATE_SYNCED →
    cursor.accumulator.candidate_start + 2 ≤ cursor.scan_index
  invalid : cursor.accumulator.candidate_valid = false

/-- An opening inside the buffer at an existing bit phase. -/
def HdlcSyncOpening.Inside (opening : HdlcSyncOpening) (position : Nat) : Prop :=
  opening.start_index + 1 < position ∧ opening.bit_pos < HDLC_BITS_PER_BYTE

theorem hdlc_sync_find_opening_at_inside {accumulator : HdlcSyncAccumulator} {allow_left_shift : Bool} {start : Nat}
    {opening : HdlcSyncOpening} (hfound : hdlc_sync_find_opening_at accumulator allow_left_shift start = some opening) :
    opening.start_index = start ∧ opening.bit_pos < HDLC_BITS_PER_BYTE ∧
      aligned_is_sync accumulator start opening.bit_pos opening.shift_right := by
  have hbit : ∀ (p : Nat → Bool) (bit_pos : Nat), shifted_bit_positions.find? p = some bit_pos →
      bit_pos < HDLC_BITS_PER_BYTE ∧ p bit_pos := by
    intro p bit_pos hfind
    obtain ⟨hflag, hmem, -⟩ := List.find?_range'_eq_some.mp hfind
    rw [List.mem_range'_1, HDLC_BITS_PER_BYTE] at hmem
    rw [HDLC_BITS_PER_BYTE]
    exact ⟨by omega, hflag⟩
  unfold hdlc_sync_find_opening_at at hfound
  split at hfound
  · rename_i hflag
    cases hfound
    exact ⟨rfl, Nat.succ_pos _, hflag⟩
  · split at hfound
    · rename_i bit_pos hfind
      cases hfound
      exact ⟨rfl, hbit _ _ hfind⟩
    · split at hfound
      · obtain ⟨bit_pos, hfind, rfl⟩ := Option.map_eq_some_iff.mp hfound
        exact ⟨rfl, hbit _ _ hfind⟩
      · cases hfound

theorem hdlc_sync_find_opening_candidate_inside {accumulator : HdlcSyncAccumulator} {scan_index : Nat}
    {allow_left_shift : Bool} {opening : HdlcSyncOpening}
    (hfound : hdlc_sync_find_opening_candidate accumulator scan_index allow_left_shift = some opening) :
    opening.Inside accumulator.position ∧
      aligned_is_sync accumulator opening.start_index opening.bit_pos opening.shift_right := by
  unfold hdlc_sync_find_opening_candidate at hfound
  split at hfound
  · cases hfound
  · dsimp only at hfound
    split at hfound
    · cases hfound
    · obtain ⟨start, hmem, hturn⟩ := List.exists_of_findSome?_eq_some hfound
      obtain ⟨hstart, hbit, hflag⟩ := hdlc_sync_find_opening_at_inside hturn
      rw [List.mem_range'_1] at hmem
      exact ⟨⟨by omega, hbit⟩, hstart ▸ hflag⟩

theorem hdlc_sync_try_candidate_short_cases (accumulator : HdlcSyncAccumulator) (best : Option (HdlcSyncOpening × Nat))
    (opening : HdlcSyncOpening) :
    hdlc_sync_try_candidate_short accumulator best opening = best ∨
      aligned_is_sync accumulator opening.start_index opening.bit_pos opening.shift_right ∧
        ∃ frame_size, hdlc_sync_try_candidate_short accumulator best opening = some (opening, frame_size) := by
  unfold hdlc_sync_try_candidate_short
  split
  · exact .inl rfl
  · split
    · exact .inl rfl
    · rename_i hsync
      rw [Bool.not_eq_true', Bool.not_eq_false] at hsync
      split
      · exact .inl rfl
      · rename_i frame_size _
        split
        · exact .inr ⟨hsync, frame_size, rfl⟩
        · split
          · exact .inr ⟨hsync, frame_size, rfl⟩
          · exact .inl rfl

theorem mem_of_foldl_try_candidate_short {accumulator : HdlcSyncAccumulator} (openings : List HdlcSyncOpening)
    {best : Option (HdlcSyncOpening × Nat)} {found : HdlcSyncOpening × Nat}
    (hfound : openings.foldl (hdlc_sync_try_candidate_short accumulator) best = some found) :
    best = some found ∨ found.1 ∈ openings ∧
      aligned_is_sync accumulator found.1.start_index found.1.bit_pos found.1.shift_right := by
  induction openings generalizing best with
  | nil => exact .inl hfound
  | cons opening openings ih =>
    obtain hnext | ⟨hmem, hsync⟩ := ih hfound
    · obtain hkept | ⟨hsync, frame_size, hnew⟩ := hdlc_sync_try_candidate_short_cases accumulator best opening
      · exact .inl (hkept.symm.trans hnext)
      · rw [hnew, Option.some.injEq] at hnext
        rw [← hnext]
        exact .inr ⟨List.mem_cons_self .., hsync⟩
    · exact .inr ⟨List.mem_cons_of_mem _ hmem, hsync⟩

theorem hdlc_sync_find_complete_candidate_short_inside {accumulator : HdlcSyncAccumulator} {scan_index : Nat}
    {opening : HdlcSyncOpening}
    (hfound : hdlc_sync_find_complete_candidate_short accumulator scan_index = some opening) :
    opening.Inside accumulator.position ∧
      aligned_is_sync accumulator opening.start_index opening.bit_pos opening.shift_right := by
  unfold hdlc_sync_find_complete_candidate_short at hfound
  split at hfound
  · cases hfound
  · dsimp only at hfound
    split at hfound
    · cases hfound
    · obtain ⟨best, hbest, rfl⟩ := Option.map_eq_some_iff.mp hfound
      obtain hnone | ⟨hmem, hflag⟩ := mem_of_foldl_try_candidate_short _ hbest
      · cases hnone
      · refine ⟨?_, hflag⟩
        simp only [openings_from, List.mem_flatMap, List.mem_range'_1, List.mem_range, List.mem_cons,
          List.not_mem_nil, or_false] at hmem
        obtain ⟨start, hstart, bit_pos, hbit, hopening⟩ := hmem
        obtain hopening | hopening := hopening <;> rw [hopening] <;> exact ⟨by simp only; omega, hbit⟩

theorem hdlc_sync_find_opening_inside {accumulator : HdlcSyncAccumulator} {scan_index : Nat} {opening : HdlcSyncOpening}
    (hfound : hdlc_sync_find_opening accumulator scan_index = some opening) :
    opening.Inside accumulator.position ∧
      aligned_is_sync accumulator opening.start_index opening.bit_pos opening.shift_right := by
  unfold hdlc_sync_find_opening at hfound
  split at hfound
  · rename_i hshort
    cases hfound
    exact hdlc_sync_find_complete_candidate_short_inside hshort
  · exact hdlc_sync_find_opening_candidate_inside hfound

theorem CursorInvariant.step {cursor next : HdlcSyncCursor} (h : CursorInvariant cursor)
    (hturn : hdlc_sync_poll_turn cursor = .inl next) : CursorInvariant next := by
  cases pollProgress_of_inl hturn with
  | lock opening hinside hhunting hfound =>
    obtain ⟨⟨hstart, hbit⟩, -⟩ := hdlc_sync_find_opening_inside hfound
    exact
      { h with
        scan_le := Nat.le_of_lt hstart
        bit_offset_lt := hbit
        length_le := h.capacity_pos
        locked := fun _ => ⟨Nat.lt_succ_self _, (Nat.add_sub_cancel_left ..).symm⟩
        synced := by simp [hdlc_sync_lock]
        invalid := rfl }
  | oversized hinside hlocked hlong =>
    have hposition := h.position_le
    exact
      { capacity_pos := h.capacity_pos
        position_le := by
          simp only [hdlc_sync_reject_oversized_candidate, position_reset_hunting_state, position_drop_prefix]
          omega
        processed_le := Nat.zero_le _
        scan_le := Nat.zero_le _
        bit_offset_lt := Nat.succ_pos _
        length_le := Nat.zero_le _
        locked := fun hstate => absurd rfl hstate
        synced := fun hstate => by cases hstate
        invalid := rfl }
  | store aligned hinside hlocked hshort hroom haligned hflag =>
    obtain ⟨hstart, hlength⟩ := h.locked hlocked
    have hstored : cursor.out_frame.payload.length = cursor.scan_index - cursor.accumulator.candidate_start := hlength
    exact
      { h with
        scan_le := hinside
        length_le := by
          simp only [HdlcFrame.length, List.length_append, List.length_singleton] at hroom ⊢
          omega
        locked := by
          intro _
          simp only [HdlcFrame.length, List.length_append, List.length_singleton]
          omega
        synced := by
          intro _
          simp only
          omega }

theorem CursorInvariant.finalize {cursor : HdlcSyncCursor} (h : CursorInvariant cursor) {scan_index : Nat}
    (syncing synced : UInt32)
    (hlocked : cursor.accumulator.state ≠ .HDLC_SYNC_STATE_HUNTING → scan_index = cursor.scan_index) :
    ReceiveInvariant
      { accumulator := hdlc_sync_finalize_poll_no_frame
          { cursor.accumulator with lookahead_wait_syncing := syncing, lookahead_wait_synced := synced } scan_index
        out_frame := cursor.out_frame
        awaiting := false } := by
  have hposition := h.position_le
  by_cases hhunting : cursor.accumulator.state = .HDLC_SYNC_STATE_HUNTING
  · have hfinal := @hdlc_sync_finalize_poll_no_frame_hunting
      { cursor.accumulator with lookahead_wait_syncing := syncing, lookahead_wait_synced := synced } scan_index hhunting
    rw [hfinal]
    exact
      { capacity_pos := h.capacity_pos
        position_le := by
          simp only [HdlcSyncAccumulator.position, List.length_drop] at hposition ⊢
          omega
        processed_le := Nat.zero_le _
        bit_offset_lt := h.bit_offset_lt
        length_le := h.length_le
        locked := fun hstate => absurd hhunting hstate
        synced := fun hstate => by
          rw [hhunting] at hstate
          cases hstate
        valid := fun hvalid => by
          rw [h.invalid] at hvalid
          cases hvalid
        reported := fun hawaiting => by cases hawaiting }
  · have hfinal := @hdlc_sync_finalize_poll_no_frame_locked
      { cursor.accumulator with lookahead_wait_syncing := syncing, lookahead_wait_synced := synced } scan_index hhunting
    rw [hfinal, hlocked hhunting]
    exact
      { capacity_pos := h.capacity_pos
        position_le := hposition
        processed_le := h.scan_le
        bit_offset_lt := h.bit_offset_lt
        length_le := h.length_le
        locked := h.locked
        synced := h.synced
        valid := fun hvalid => by
          rw [h.invalid] at hvalid
          cases hvalid
        reported := fun hawaiting => by cases hawaiting }

theorem CursorInvariant.exit {cursor : HdlcSyncCursor} (h : CursorInvariant cursor) {polled : HdlcSyncPolled}
    (hturn : hdlc_sync_poll_turn cursor = .inr polled) :
    ReceiveInvariant
      { accumulator := polled.accumulator
        out_frame := polled.out_frame
        awaiting := polled.result = .E2S_ERR_HDLC_ACC_FRAME_READY } := by
  cases pollExit_of_inr hturn with
  | exhausted hend =>
    exact h.finalize _ _ (fun _ => rfl)
  | miss hinside hhunting hnone =>
    exact h.finalize _ _ (fun hlocked => absurd hhunting hlocked)
  | wait syncing synced hinside hlocked hshort hnone =>
    exact h.finalize syncing synced (fun _ => rfl)
  | overflow hinside hlocked hshort hfull =>
    exact
      { capacity_pos := h.capacity_pos
        position_le := h.position_le
        processed_le := h.processed_le
        bit_offset_lt := Nat.succ_pos _
        length_le := Nat.zero_le _
        locked := fun hstate => absurd rfl hstate
        synced := fun hstate => by cases hstate
        valid := fun hvalid => by
          simp only [h.invalid] at hvalid
          cases hvalid
        reported := fun hawaiting => by cases hawaiting }
  | close hinside hsynced hshort hroom haligned =>
    have hstart := h.synced hsynced
    have hbit := h.bit_offset_lt
    exact
      { capacity_pos := h.capacity_pos
        position_le := h.position_le
        processed_le := Nat.zero_le _
        bit_offset_lt := by
          simp only [hdlc_sync_close_candidate, HDLC_BITS_PER_BYTE] at hbit ⊢
          split <;> omega
        length_le := by
          simp only [HdlcFrame.length, List.length_append, List.length_singleton] at hroom ⊢
          omega
        locked := fun hstate => absurd rfl hstate
        synced := fun hstate => by cases hstate
        valid := fun _ => ⟨by simp, rfl, by simp only [hdlc_sync_close_candidate]; omega, hinside⟩
        reported := fun _ => rfl }

/-- A poll keeps the relation, whatever the raw bytes are. -/
theorem ReceiveInvariant.poll {s : ReceiveState} (h : ReceiveInvariant s) (hconsumed : s.awaiting = false) :
    ReceiveInvariant
      { accumulator := (hdlc_sync_acc_poll s.accumulator s.out_frame).accumulator
        out_frame := (hdlc_sync_acc_poll s.accumulator s.out_frame).out_frame
        awaiting := (hdlc_sync_acc_poll s.accumulator s.out_frame).result = .E2S_ERR_HDLC_ACC_FRAME_READY } := by
  have hinvalid : s.accumulator.candidate_valid = false := by
    rw [← Bool.not_eq_true]
    intro hvalid
    obtain ⟨hawaiting, -⟩ := h.valid hvalid
    rw [hconsumed] at hawaiting
    cases hawaiting
  have hidle : ReceiveInvariant { s with awaiting := false } := by
    rw [← hconsumed]
    exact h
  have hcursor : CursorInvariant
      { accumulator := s.accumulator, out_frame := s.out_frame, scan_index := s.accumulator.processed } :=
    { capacity_pos := h.capacity_pos
      position_le := h.position_le
      processed_le := h.processed_le
      scan_le := h.processed_le
      bit_offset_lt := h.bit_offset_lt
      length_le := h.length_le
      locked := h.locked
      synced := h.synced
      invalid := hinvalid }
  obtain hpoll | ⟨last, hlast, hexit⟩ := hdlc_sync_acc_poll_cases s.accumulator s.out_frame CursorInvariant
    (fun _ _ h hturn => h.step hturn) hcursor
  · rw [hpoll]
    exact hidle
  · exact hlast.exit hexit

/-- A hunting accumulator without a candidate and with a fresh cursor. -/
theorem receiveInvariant_of_idle {accumulator : HdlcSyncAccumulator} {out_frame : HdlcFrame}
    (hcapacity : 0 < out_frame.capacity) (hlength : out_frame.length ≤ out_frame.capacity)
    (hposition : accumulator.position ≤ RX_HDLC_SYNC_MAX_BUFFER_SIZE) (hprocessed : accumulator.processed = 0)
    (hbit : accumulator.bit_offset = 0) (hhunting : accumulator.state = .HDLC_SYNC_STATE_HUNTING)
    (hinvalid : accumulator.candidate_valid = false) :
    ReceiveInvariant { accumulator, out_frame, awaiting := false } where
  capacity_pos := hcapacity
  position_le := hposition
  processed_le := hprocessed ▸ Nat.zero_le _
  bit_offset_lt := hbit ▸ Nat.succ_pos _
  length_le := hlength
  locked := fun hstate => absurd hhunting hstate
  synced := fun hstate => by
    rw [hhunting] at hstate
    cases hstate
  valid := fun hvalid => by
    rw [hinvalid] at hvalid
    cases hvalid
  reported := fun hawaiting => by cases hawaiting

theorem ReceiveInvariant.process_byte {s : ReceiveState} (h : ReceiveInvariant s) (byte : UInt8) :
    ReceiveInvariant { s with accumulator := (hdlc_sync_acc_process_byte s.accumulator byte).2 } := by
  unfold hdlc_sync_acc_process_byte
  split
  · exact h
  · rename_i hroom
    have hposition : ({ s.accumulator with buffer := s.accumulator.buffer ++ [byte] } : HdlcSyncAccumulator).position =
        s.accumulator.position + 1 := List.length_append
    have hprocessed := h.processed_le
    exact
      { h with
        position_le := by
          rw [hposition]
          omega
        processed_le := by
          rw [hposition]
          exact Nat.le_succ_of_le hprocessed
        valid := fun hvalid => by
          obtain ⟨hawaiting, hhunting, hstart, hend⟩ := h.valid hvalid
          exact ⟨hawaiting, hhunting, hstart, by rw [hposition]; exact Nat.le_succ_of_le hend⟩ }

theorem ReceiveInvariant.consume {s : ReceiveState} (h : ReceiveInvariant s) (hawaiting : s.awaiting = true)
    (accept clear : Bool) :
    ReceiveInvariant
      { accumulator := hdlc_sync_acc_consume_candidate s.accumulator accept
        out_frame := if clear then { s.out_frame with payload := [] } else s.out_frame
        awaiting := false } := by
  have hvalid := h.reported hawaiting
  obtain ⟨-, -, hstart, hend⟩ := h.valid hvalid
  have hpos : 0 < min (s.accumulator.consumed accept) s.accumulator.position := by
    rw [HdlcSyncAccumulator.consumed]
    split <;> omega
  obtain ⟨dropped, events, bytes, hcap⟩ := hdlc_sync_hard_cap_cases
    (show (hdlc_sync_reset_hunting_state
      { s.accumulator with
        buffer := s.accumulator.buffer.drop (s.accumulator.consumed accept)
        consume_count := s.accumulator.consume_count + 1 }).processed = 0 from rfl)
  have hposition := h.position_le
  rw [hdlc_sync_acc_consume_candidate_eq hvalid hpos, hcap]
  refine receiveInvariant_of_idle ?_ ?_ ?_ rfl rfl rfl rfl
  · cases clear <;> exact h.capacity_pos
  · cases clear
    · exact h.length_le
    · exact Nat.zero_le _
  · simp only [hdlc_sync_reset_hunting_state, HdlcSyncAccumulator.position, List.length_drop] at hposition ⊢
    omega

theorem ReceiveStep.preserves {s next : ReceiveState} (hstep : ReceiveStep s next) (h : ReceiveInvariant s) :
    ReceiveInvariant next := by
  cases hstep with
  | init sync_byte => exact receiveInvariant_of_idle h.capacity_pos h.length_le (Nat.zero_le _) rfl rfl rfl rfl
  | process_byte byte => exact h.process_byte byte
  | poll hconsumed => exact h.poll hconsumed
  | consume accept clear hawaiting => exact h.consume hawaiting accept clear
  | reset => exact receiveInvariant_of_idle h.capacity_pos (Nat.zero_le _) (Nat.zero_le _) rfl rfl rfl rfl

/-- In every state that calls and resets can reach, cursor, candidate bounds,
state and frame length fit together, and the next poll stays inside both
buffers. -/
theorem receive_invariant_of_reachable (sync_byte : UInt8) (out_frame : HdlcFrame)
    (hcapacity : 1 ≤ out_frame.capacity) (hlength : out_frame.length ≤ out_frame.capacity) (s : ReceiveState)
    (hreach : Relation.ReflTransGen ReceiveStep (.start sync_byte out_frame) s) :
    s.accumulator.position ≤ RX_HDLC_SYNC_MAX_BUFFER_SIZE ∧
    s.accumulator.processed ≤ s.accumulator.position ∧
    s.accumulator.bit_offset ≤ 7 ∧
    s.out_frame.length ≤ s.out_frame.capacity ∧
    (s.accumulator.state = .HDLC_SYNC_STATE_SYNCING ∨ s.accumulator.state = .HDLC_SYNC_STATE_SYNCED →
      s.accumulator.candidate_start < s.accumulator.processed ∧
        s.out_frame.length = s.accumulator.processed - s.accumulator.candidate_start) ∧
    (s.accumulator.candidate_valid = true →
      s.accumulator.state = .HDLC_SYNC_STATE_HUNTING ∧
        s.accumulator.candidate_start + 3 ≤ s.accumulator.candidate_end ∧
        s.accumulator.candidate_end ≤ s.accumulator.position) ∧
    (polling.acc_poll s.accumulator s.out_frame).value = some (hdlc_sync_acc_poll s.accumulator s.out_frame) ∧
    ∀ access ∈ (polling.acc_poll s.accumulator s.out_frame).accesses, access.InBounds := by
  have h : ReceiveInvariant s := by
    induction hreach with
    | refl => exact receiveInvariant_of_idle hcapacity hlength (Nat.zero_le _) rfl rfl rfl rfl
    | tail _ hstep ih => exact hstep.preserves ih
  refine ⟨h.position_le, h.processed_le, Nat.le_of_lt_succ h.bit_offset_lt, h.length_le, ?_, ?_,
    polling.value_acc_poll _ _, polling.inBounds_acc_poll _ _⟩
  · rintro (hstate | hstate)
    · exact h.locked (by simp [hstate])
    · exact h.locked (by simp [hstate])
  · exact fun hvalid => (h.valid hvalid).2

/-- A flag and two further bytes have been polled. -/
def afterFlag : ReceiveState where
  accumulator := (hdlc_sync_acc_poll (feed [0x7E, 0x01, 0x02]) (.empty 8)).accumulator
  out_frame := (hdlc_sync_acc_poll (feed [0x7E, 0x01, 0x02]) (.empty 8)).out_frame
  awaiting := (hdlc_sync_acc_poll (feed [0x7E, 0x01, 0x02]) (.empty 8)).result = .E2S_ERR_HDLC_ACC_FRAME_READY
where
  feed (bytes : List UInt8) : HdlcSyncAccumulator :=
    bytes.foldl (fun accumulator byte => (hdlc_sync_acc_process_byte accumulator byte).2)
      (hdlc_sync_acc_init HDLC_FLAG_BYTE)

theorem receive_invariant_of_reachable_after_flag :
    afterFlag.accumulator.state = .HDLC_SYNC_STATE_SYNCED ∧
      afterFlag.accumulator.candidate_start < afterFlag.accumulator.processed ∧
      afterFlag.out_frame.length = afterFlag.accumulator.processed - afterFlag.accumulator.candidate_start := by
  have hsynced : afterFlag.accumulator.state = .HDLC_SYNC_STATE_SYNCED := by decide +kernel
  refine ⟨hsynced, ?_⟩
  obtain ⟨-, -, -, -, hlocked, -⟩ := receive_invariant_of_reachable HDLC_FLAG_BYTE (.empty 8) (by decide) (by decide)
    afterFlag (((((Relation.ReflTransGen.refl.tail (.process_byte _ 0x7E)).tail (.process_byte _ 0x01)).tail
      (.process_byte _ 0x02)).tail (.poll _ rfl)))
  exact hlocked (.inr hsynced)

end ether2ser.hdlc_sync
