import Ether2Ser.Sync.Invariant
import Mathlib.Data.List.GetD

open ether2ser.error ether2ser.hdlc_common

namespace ether2ser.hdlc_sync

/-- The aligned byte at a raw index, at the bit phase of the accumulator. -/
def HdlcSyncAccumulator.alignedAt (accumulator : HdlcSyncAccumulator) (raw_index : Nat) : Option UInt8 :=
  hdlc_sync_get_aligned_byte accumulator raw_index accumulator.bit_offset accumulator.align_shift_right

section

variable {accumulator : HdlcSyncAccumulator}

theorem isSome_alignedAt_iff (hoffset : accumulator.bit_offset < HDLC_BITS_PER_BYTE) (raw_index : Nat) :
    (accumulator.alignedAt raw_index).isSome ↔ accumulator.Received accumulator.bit_offset raw_index := by
  unfold HdlcSyncAccumulator.alignedAt
  by_cases hreceived : accumulator.Received accumulator.bit_offset raw_index
  · rw [hdlc_sync_get_aligned_byte_of_received hoffset hreceived]
    exact iff_of_true rfl hreceived
  · rw [hdlc_sync_get_aligned_byte_of_missing hreceived]
    exact iff_of_false Bool.false_ne_true hreceived

/-- Further raw bytes do not change an aligned byte. -/
theorem alignedAt_append (hoffset : accumulator.bit_offset < HDLC_BITS_PER_BYTE) {raw_index : Nat}
    (hreceived : accumulator.Received accumulator.bit_offset raw_index) (bytes : List UInt8) :
    ({ accumulator with buffer := accumulator.buffer ++ bytes } : HdlcSyncAccumulator).alignedAt raw_index =
      accumulator.alignedAt raw_index := by
  have hposition : ({ accumulator with buffer := accumulator.buffer ++ bytes } : HdlcSyncAccumulator).position =
      accumulator.position + bytes.length := List.length_append
  obtain ⟨hinside, hnext⟩ := hreceived
  have hfirst : (accumulator.buffer ++ bytes).getD raw_index 0 = accumulator.buffer.getD raw_index 0 :=
    List.getD_append _ _ _ _ hinside
  have hlonger : ({ accumulator with buffer := accumulator.buffer ++ bytes } : HdlcSyncAccumulator).Received
      accumulator.bit_offset raw_index := by
    rw [HdlcSyncAccumulator.Received, hposition]
    exact ⟨by omega, fun hshifted => by have := hnext hshifted; omega⟩
  unfold HdlcSyncAccumulator.alignedAt
  rw [hdlc_sync_get_aligned_byte_of_received hoffset ⟨hinside, hnext⟩,
    hdlc_sync_get_aligned_byte_of_received hoffset hlonger]
  dsimp only
  rw [hfirst]
  by_cases hshifted : accumulator.bit_offset = 0
  · rw [composed, composed, if_pos hshifted, if_pos hshifted]
  · rw [List.getD_append _ _ _ _ (hnext hshifted)]

theorem HdlcSyncAccumulator.Received.mono {bit_offset i j : Nat} (hreceived : accumulator.Received bit_offset j)
    (hle : i ≤ j) : accumulator.Received bit_offset i := by
  obtain ⟨hinside, hnext⟩ := hreceived
  exact ⟨by omega, fun hshifted => by have := hnext hshifted; omega⟩

end

/-- What a locked receiver has assembled: the aligned bytes from the opening
flag up to the cursor, none of which closes the candidate. -/
structure Assembles (cursor : HdlcSyncCursor) : Prop where
  offset_lt : cursor.accumulator.bit_offset < HDLC_BITS_PER_BYTE
  start_lt : cursor.accumulator.candidate_start < cursor.scan_index
  scan_le : cursor.scan_index ≤ cursor.accumulator.position
  syncing : cursor.accumulator.state = .HDLC_SYNC_STATE_SYNCING →
    cursor.scan_index = cursor.accumulator.candidate_start + 1
  synced : cursor.accumulator.state = .HDLC_SYNC_STATE_SYNCED →
    cursor.accumulator.candidate_start + 2 ≤ cursor.scan_index
  stored : cursor.out_frame.payload.map some =
    (List.range' cursor.accumulator.candidate_start (cursor.scan_index - cursor.accumulator.candidate_start)).map
      cursor.accumulator.alignedAt
  unclosed : ∀ i, cursor.accumulator.candidate_start + 2 ≤ i → i < cursor.scan_index →
    cursor.accumulator.alignedAt i ≠ some cursor.accumulator.sync_byte

section

variable {cursor next : HdlcSyncCursor} {polled : HdlcSyncPolled}

theorem Assembles.length_out_frame (h : Assembles cursor) :
    cursor.out_frame.length = cursor.scan_index - cursor.accumulator.candidate_start := by
  have hlength := congrArg List.length h.stored
  rwa [List.length_map, List.length_map, List.length_range'] at hlength

/-- What has been stored has been received. -/
theorem Assembles.received (h : Assembles cursor) {i : Nat} (hstart : cursor.accumulator.candidate_start ≤ i)
    (hscan : i < cursor.scan_index) : cursor.accumulator.Received cursor.accumulator.bit_offset i := by
  apply (isSome_alignedAt_iff h.offset_lt i).mp
  have hmem : cursor.accumulator.alignedAt i ∈ cursor.out_frame.payload.map some := by
    rw [h.stored]
    apply List.mem_map_of_mem
    rw [List.mem_range'_1]
    omega
  obtain ⟨byte, -, hbyte⟩ := List.mem_map.mp hmem
  rw [← hbyte]
  rfl

theorem Assembles.lock {opening : HdlcSyncOpening} (hinside : opening.Inside cursor.accumulator.position)
    (hsync : aligned_is_sync cursor.accumulator opening.start_index opening.bit_pos opening.shift_right) :
    Assembles (hdlc_sync_lock cursor opening) where
  offset_lt := hinside.2
  start_lt := Nat.lt_succ_self _
  scan_le := Nat.le_of_lt hinside.1
  syncing := fun _ => rfl
  synced := fun hstate => by cases hstate
  stored := by
    have hopening : (hdlc_sync_lock cursor opening).accumulator.alignedAt opening.start_index =
        some cursor.accumulator.sync_byte := eq_of_beq hsync
    have hcount : (hdlc_sync_lock cursor opening).scan_index -
        (hdlc_sync_lock cursor opening).accumulator.candidate_start = 1 := Nat.add_sub_cancel_left ..
    rw [hcount, List.range'_one]
    exact congrArg (· :: []) hopening.symm
  unclosed := by
    intro i hstart hscan
    simp only [hdlc_sync_lock] at hstart hscan
    omega

theorem Assembles.store (h : Assembles cursor) {aligned : UInt8}
    (hinside : cursor.scan_index < cursor.accumulator.position) (haligned : cursor.aligned = some aligned)
    (hflag : cursor.accumulator.state = .HDLC_SYNC_STATE_SYNCED → aligned ≠ cursor.accumulator.sync_byte)
    (hlocked : cursor.accumulator.state ≠ .HDLC_SYNC_STATE_HUNTING) :
    Assembles
      { accumulator := { cursor.accumulator with state := .HDLC_SYNC_STATE_SYNCED }
        out_frame := { cursor.out_frame with payload := cursor.out_frame.payload ++ [aligned] }
        scan_index := cursor.scan_index + 1 } := by
  have hstart := h.start_lt
  exact
    { offset_lt := h.offset_lt
      start_lt := Nat.lt_succ_of_lt hstart
      scan_le := hinside
      syncing := fun hstate => by cases hstate
      synced := fun _ => by dsimp only; omega
      stored := by
        have hcount : cursor.scan_index + 1 - cursor.accumulator.candidate_start =
            cursor.scan_index - cursor.accumulator.candidate_start + 1 := by omega
        have hlast : cursor.accumulator.candidate_start +
            (cursor.scan_index - cursor.accumulator.candidate_start) = cursor.scan_index := by omega
        dsimp only
        rw [hcount, List.range'_1_concat, List.map_append, List.map_append, h.stored, hlast]
        exact congrArg (_ ++ [·]) haligned.symm
      unclosed := by
        intro i hi hscan
        obtain hbefore | rfl := Nat.lt_succ_iff_lt_or_eq.mp hscan
        · exact h.unclosed i hi hbefore
        · intro hclosing
          cases hstate : cursor.accumulator.state with
          | HDLC_SYNC_STATE_HUNTING => exact hlocked hstate
          | HDLC_SYNC_STATE_SYNCING =>
            have hfirst := h.syncing hstate
            simp only at hi
            omega
          | HDLC_SYNC_STATE_SYNCED =>
            apply hflag hstate
            exact Option.some_inj.mp (haligned.symm.trans hclosing) }

theorem Assembles.step (h : cursor.accumulator.state ≠ .HDLC_SYNC_STATE_HUNTING → Assembles cursor)
    (hturn : hdlc_sync_poll_turn cursor = .inl next) :
    next.accumulator.state ≠ .HDLC_SYNC_STATE_HUNTING → Assembles next := by
  intro hnext
  cases pollProgress_of_inl hturn with
  | lock opening hinside hhunting hfound =>
    obtain ⟨hopening, hsync⟩ := hdlc_sync_find_opening_inside hfound
    exact .lock hopening hsync
  | oversized hinside hlocked hlong => exact absurd rfl hnext
  | store aligned hinside hlocked hshort hroom haligned hflag =>
    exact (h hlocked).store hinside haligned hflag hlocked

/-- A poll that ends without a frame keeps what a locked receiver has
assembled. -/
theorem Assembles.finalize (h : Assembles cursor) (hlocked : cursor.accumulator.state ≠ .HDLC_SYNC_STATE_HUNTING)
    (syncing synced : UInt32) :
    Assembles (restCursor
      (hdlc_sync_finalize_poll_no_frame
        { cursor.accumulator with lookahead_wait_syncing := syncing, lookahead_wait_synced := synced }
        cursor.scan_index) cursor.out_frame) := by
  have hfinal := @hdlc_sync_finalize_poll_no_frame_locked
    { cursor.accumulator with lookahead_wait_syncing := syncing, lookahead_wait_synced := synced }
    cursor.scan_index hlocked
  rw [hfinal]
  exact
    { offset_lt := h.offset_lt
      start_lt := h.start_lt
      scan_le := h.scan_le
      syncing := h.syncing
      synced := h.synced
      stored := h.stored
      unclosed := h.unclosed }

theorem state_finalize_poll_no_frame (accumulator : HdlcSyncAccumulator) (scan_index : Nat) :
    (hdlc_sync_finalize_poll_no_frame accumulator scan_index).state = accumulator.state := by
  by_cases hhunting : accumulator.state = .HDLC_SYNC_STATE_HUNTING
  · rw [hdlc_sync_finalize_poll_no_frame_hunting hhunting]
  · rw [hdlc_sync_finalize_poll_no_frame_locked hhunting]

theorem Assembles.exit (h : cursor.accumulator.state ≠ .HDLC_SYNC_STATE_HUNTING → Assembles cursor)
    (hturn : hdlc_sync_poll_turn cursor = .inr polled) :
    (polled.accumulator.state ≠ .HDLC_SYNC_STATE_HUNTING →
      Assembles (restCursor polled.accumulator polled.out_frame)) ∧
    (polled.result = .E2S_ERR_HDLC_ACC_FRAME_READY → polled.accumulator.state = .HDLC_SYNC_STATE_HUNTING) := by
  cases pollExit_of_inr hturn with
  | exhausted hend =>
    refine ⟨fun hlocked => ?_, fun hready => by cases hready⟩
    rw [state_finalize_poll_no_frame] at hlocked
    exact (h hlocked).finalize hlocked _ _
  | miss hinside hhunting hnone =>
    refine ⟨fun hlocked => ?_, fun hready => by cases hready⟩
    rw [state_finalize_poll_no_frame] at hlocked
    exact absurd hhunting hlocked
  | wait syncing synced hinside hlocked hshort hnone =>
    exact ⟨fun _ => (h hlocked).finalize hlocked syncing synced, fun hready => by cases hready⟩
  | overflow hinside hlocked hshort hfull => exact ⟨fun hlocked => absurd rfl hlocked, fun _ => rfl⟩
  | close hinside hsynced hshort hroom haligned => exact ⟨fun hlocked => absurd rfl hlocked, fun _ => rfl⟩

end

/-- Between two calls, a locked receiver has assembled what it has scanned. -/
structure LockedInvariant (s : ReceiveState) : Prop where
  assembles : s.accumulator.state ≠ .HDLC_SYNC_STATE_HUNTING → Assembles (restCursor s.accumulator s.out_frame)
  awaiting : s.awaiting = true → s.accumulator.state = .HDLC_SYNC_STATE_HUNTING

theorem lockedInvariant_of_hunting {s : ReceiveState} (hhunting : s.accumulator.state = .HDLC_SYNC_STATE_HUNTING) :
    LockedInvariant s where
  assembles := fun hlocked => absurd hhunting hlocked
  awaiting := fun _ => hhunting

theorem Assembles.append {accumulator : HdlcSyncAccumulator} {out_frame : HdlcFrame}
    (h : Assembles (restCursor accumulator out_frame)) (bytes : List UInt8) :
    Assembles (restCursor { accumulator with buffer := accumulator.buffer ++ bytes } out_frame) := by
  have hkept : ∀ i, accumulator.candidate_start ≤ i → i < accumulator.processed →
      ({ accumulator with buffer := accumulator.buffer ++ bytes } : HdlcSyncAccumulator).alignedAt i =
        accumulator.alignedAt i := by
    intro i hstart hscan
    exact alignedAt_append h.offset_lt (h.received hstart hscan) bytes
  exact
    { offset_lt := h.offset_lt
      start_lt := h.start_lt
      scan_le := Nat.le_trans h.scan_le (by simp [restCursor, HdlcSyncAccumulator.position])
      syncing := h.syncing
      synced := h.synced
      stored := by
        refine h.stored.trans (List.map_congr_left fun i hi => (hkept i ?_ ?_).symm)
        · exact (List.mem_range'_1.mp hi).1
        · have hstart := h.start_lt
          rw [List.mem_range'_1] at hi
          simp only [restCursor] at hstart hi
          omega
      unclosed := by
        intro i hstart hscan
        refine ne_of_eq_of_ne (hkept i ?_ hscan) (h.unclosed i hstart hscan)
        exact Nat.le_trans (Nat.le_add_right _ _) hstart }

theorem LockedInvariant.process_byte {s : ReceiveState} (h : LockedInvariant s) (byte : UInt8) :
    LockedInvariant { s with accumulator := (hdlc_sync_acc_process_byte s.accumulator byte).2 } := by
  unfold hdlc_sync_acc_process_byte
  split
  · exact h
  · exact ⟨fun hlocked => (h.assembles hlocked).append [byte], h.awaiting⟩

theorem LockedInvariant.poll {s : ReceiveState} (h : LockedInvariant s) (hconsumed : s.awaiting = false) :
    LockedInvariant
      { accumulator := (hdlc_sync_acc_poll s.accumulator s.out_frame).accumulator
        out_frame := (hdlc_sync_acc_poll s.accumulator s.out_frame).out_frame
        awaiting := (hdlc_sync_acc_poll s.accumulator s.out_frame).result = .E2S_ERR_HDLC_ACC_FRAME_READY } := by
  have hidle : LockedInvariant { s with awaiting := false } := by
    rw [← hconsumed]
    exact h
  obtain hpoll | ⟨last, hlast, hexit⟩ := hdlc_sync_acc_poll_cases s.accumulator s.out_frame
    (fun cursor => cursor.accumulator.state ≠ .HDLC_SYNC_STATE_HUNTING → Assembles cursor)
    (fun _ _ => Assembles.step) h.assembles
  · rw [hpoll]
    exact hidle
  · obtain ⟨hassembles, hready⟩ := Assembles.exit hlast hexit
    exact ⟨hassembles, fun hawaiting => hready (of_decide_eq_true hawaiting)⟩

theorem LockedInvariant.consume {s : ReceiveState} (h : LockedInvariant s) (hawaiting : s.awaiting = true)
    (accept clear : Bool) :
    LockedInvariant
      { accumulator := hdlc_sync_acc_consume_candidate s.accumulator accept
        out_frame := if clear then { s.out_frame with payload := [] } else s.out_frame
        awaiting := false } := by
  apply lockedInvariant_of_hunting
  dsimp only
  unfold hdlc_sync_acc_consume_candidate
  split
  · exact h.awaiting hawaiting
  · dsimp only
    obtain ⟨dropped, events, bytes, hcap⟩ := @hdlc_sync_hard_cap_cases (hdlc_sync_reset_hunting_state _) rfl
    rw [hcap]
    rfl

theorem ReceiveStep.preserves_locked {s next : ReceiveState} (hstep : ReceiveStep s next) (h : LockedInvariant s) :
    LockedInvariant next := by
  cases hstep with
  | init sync_byte => exact lockedInvariant_of_hunting rfl
  | process_byte byte => exact h.process_byte byte
  | poll hconsumed => exact h.poll hconsumed
  | consume accept clear hawaiting => exact h.consume hawaiting accept clear
  | reset => exact lockedInvariant_of_hunting rfl

theorem lockedInvariant_of_reachable {sync_byte : UInt8} {out_frame : HdlcFrame} {s : ReceiveState}
    (hreach : Relation.ReflTransGen ReceiveStep (.start sync_byte out_frame) s) : LockedInvariant s := by
  induction hreach with
  | refl => exact lockedInvariant_of_hunting rfl
  | tail _ hstep ih => exact hstep.preserves_locked ih

end ether2ser.hdlc_sync
