import Ether2Ser.Sync.Drain
import Ether2Ser.Sync.Receiver

open ether2ser.error ether2ser.hdlc_common

namespace ether2ser.hdlc_sync

/-- Drain a state. A candidate that has been reported already is consumed
first. -/
def ReceiveState.drain (verdict : Nat → Bool) (s : ReceiveState) : HdlcSyncAccumulator :=
  let accumulator := if s.awaiting then hdlc_sync_acc_consume_candidate s.accumulator (verdict 0) else s.accumulator
  let backlog : Backlog :=
    { accumulator
      out_frame := s.out_frame
      verdicts := if s.awaiting then 1 else 0
      process_results := []
      poll_results := []
      hard_caps := [] }
  (backlog.drain verdict).accumulator

/-- The cursor with the candidate that a poll follows first: the one it has
locked on, or else the opening that its search selects. -/
def ReceiveState.candidate (s : ReceiveState) : Option HdlcSyncCursor :=
  let cursor : HdlcSyncCursor := ⟨s.accumulator, s.out_frame, s.accumulator.processed⟩
  if s.accumulator.state = .HDLC_SYNC_STATE_HUNTING then
    (hdlc_sync_find_opening s.accumulator s.accumulator.processed).map (hdlc_sync_lock cursor)
  else some cursor

/-- The candidate grows beyond the largest size inside the buffer, or its
closing flag has been received. -/
def HdlcSyncCursor.CandidateEnds (cursor : HdlcSyncCursor) : Prop :=
  let accumulator := cursor.accumulator
  accumulator.candidate_start + HDLC_SYNC_MAX_REASONABLE_FRAME_SIZE_BYTES < accumulator.position ∨
    ∃ closing, cursor.scan_index ≤ closing ∧ accumulator.candidate_start + 2 ≤ closing ∧
      hdlc_sync_get_aligned_byte accumulator closing accumulator.bit_offset accumulator.align_shift_right =
        some accumulator.sync_byte

theorem position_finalize_poll_no_frame_locked {accumulator : HdlcSyncAccumulator} {scan_index : Nat}
    (hlocked : accumulator.state ≠ .HDLC_SYNC_STATE_HUNTING) :
    (hdlc_sync_finalize_poll_no_frame accumulator scan_index).position = accumulator.position := by
  rw [hdlc_sync_finalize_poll_no_frame_locked hlocked]
  rfl

section

variable {cursor next : HdlcSyncCursor} {polled : HdlcSyncPolled}

/-- A full buffer whose candidate does not end in it. -/
structure Stuck (cursor : HdlcSyncCursor) : Prop where
  full : RX_HDLC_SYNC_MAX_BUFFER_SIZE ≤ cursor.accumulator.position
  locked : cursor.accumulator.state ≠ .HDLC_SYNC_STATE_HUNTING
  endless : ¬ cursor.CandidateEnds

theorem Stuck.step (h : Stuck cursor) (hcursor : FitCursor cursor) (hprogress : PollProgress cursor next) :
    Stuck next := by
  cases hprogress with
  | lock opening hinside hhunting hfound => exact absurd hhunting h.locked
  | oversized hinside hlocked hlong =>
    obtain ⟨hstart, hlength⟩ := hcursor.locked hlocked
    exact absurd (.inl (by omega)) h.endless
  | store aligned hinside hlocked hshort hroom haligned hflag =>
    refine ⟨h.full, by simp, ?_⟩
    rintro (hlong | ⟨closing, hscan, hstart, hclosing⟩)
    · exact h.endless (.inl hlong)
    · exact h.endless (.inr ⟨closing, Nat.le_of_succ_le hscan, hstart, hclosing⟩)

theorem Stuck.exit (h : Stuck cursor) (hcursor : FitCursor cursor) (hexit : PollExit cursor polled) :
    polled.result = .E2S_OK ∧ RX_HDLC_SYNC_MAX_BUFFER_SIZE ≤ polled.accumulator.position := by
  cases hexit with
  | exhausted hend => exact ⟨rfl, le_of_le_of_eq h.full (position_finalize_poll_no_frame_locked h.locked).symm⟩
  | miss hinside hhunting hnone => exact absurd hhunting h.locked
  | wait syncing synced hinside hlocked hshort hnone =>
    refine ⟨rfl, le_of_le_of_eq h.full ?_⟩
    symm
    apply position_finalize_poll_no_frame_locked
    exact hlocked
  | overflow hinside hlocked hshort hfull =>
    have hcapacity := hcursor.capacity_le
    omega
  | close hinside hsynced hshort hroom haligned =>
    exact absurd (.inr ⟨_, Nat.le_refl _, hcursor.synced hsynced, haligned⟩) h.endless

/-- A buffer with room, or a candidate that ends in it. -/
def Moves (cursor : HdlcSyncCursor) : Prop :=
  cursor.accumulator.position < RX_HDLC_SYNC_MAX_BUFFER_SIZE ∨
    cursor.accumulator.state ≠ .HDLC_SYNC_STATE_HUNTING ∧ cursor.CandidateEnds

theorem Moves.step (h : Moves cursor) (hcursor : FitCursor cursor) (hprogress : PollProgress cursor next) :
    Moves next := by
  have hposition := hcursor.position_le
  cases hprogress with
  | lock opening hinside hhunting hfound =>
    obtain hroom | ⟨hlocked, -⟩ := h
    · exact .inl hroom
    · exact absurd hhunting hlocked
  | oversized hinside hlocked hlong =>
    left
    simp only [hdlc_sync_reject_oversized_candidate, position_reset_hunting_state, position_drop_prefix]
    omega
  | store aligned hinside hlocked hshort hroom haligned hflag =>
    obtain hroom | ⟨-, hlong | ⟨closing, hscan, hstart, hclosing⟩⟩ := h
    · exact .inl hroom
    · exact .inr ⟨by simp, .inl hlong⟩
    · refine .inr ⟨by simp, .inr ⟨closing, ?_, hstart, hclosing⟩⟩
      apply Nat.lt_of_le_of_ne hscan
      rintro rfl
      cases hstate : cursor.accumulator.state with
      | HDLC_SYNC_STATE_HUNTING => exact hlocked hstate
      | HDLC_SYNC_STATE_SYNCING =>
        have hfirst := hcursor.syncing hstate
        omega
      | HDLC_SYNC_STATE_SYNCED =>
        apply hflag hstate
        exact Option.some_inj.mp (haligned.symm.trans hclosing)

/-- Without a frame, a poll that moves leaves room. -/
theorem Moves.exit (h : Moves cursor) (hcursor : FitCursor cursor) (hexit : PollExit cursor polled) :
    polled.result = .E2S_ERR_HDLC_ACC_FRAME_READY ∨
      polled.accumulator.position < RX_HDLC_SYNC_MAX_BUFFER_SIZE := by
  have hfinal : ∀ (accumulator : HdlcSyncAccumulator) (scan_index : Nat),
      accumulator.position < RX_HDLC_SYNC_MAX_BUFFER_SIZE →
      (hdlc_sync_finalize_poll_no_frame accumulator scan_index).position < RX_HDLC_SYNC_MAX_BUFFER_SIZE :=
    fun accumulator scan_index hroom =>
      Nat.lt_of_le_of_lt (position_finalize_poll_no_frame_le accumulator scan_index) hroom
  cases hexit with
  | exhausted hend =>
    obtain hroom | ⟨hlocked, hlong | ⟨closing, hscan, hstart, hclosing⟩⟩ := h
    · exact .inr (hfinal _ _ hroom)
    · have hshort := hcursor.short hlocked
      omega
    · have hinside := (received_of_aligned hclosing).1
      omega
  | miss hinside hhunting hnone =>
    obtain hroom | ⟨hlocked, -⟩ := h
    · exact .inr (hfinal _ _ hroom)
    · exact absurd hhunting hlocked
  | wait syncing synced hinside hlocked hshort hnone =>
    have hlast := hcursor.position_le_of_aligned_none hnone
    obtain hroom | ⟨-, hlong | ⟨closing, hscan, hstart, hclosing⟩⟩ := h
    · exact .inr (hfinal _ _ hroom)
    · obtain ⟨hbehind, hlength⟩ := hcursor.locked hlocked
      omega
    · have hbefore := (received_of_aligned hclosing).1
      obtain rfl : closing = cursor.scan_index := by omega
      rw [HdlcSyncCursor.aligned, hclosing] at hnone
      cases hnone
  | overflow hinside hlocked hshort hfull =>
    have hcapacity := hcursor.capacity_le
    omega
  | close hinside hsynced hshort hroom haligned => exact .inl rfl

end

section

variable {s : ReceiveState}

/-- A poll with a candidate runs from the cursor of that candidate. -/
theorem FitState.poll_of_candidate (h : FitState s) (hconsumed : s.awaiting = false) {cursor : HdlcSyncCursor}
    (hcandidate : s.candidate = some cursor) (hpos : 0 < s.accumulator.position) :
    FitCursor cursor ∧ cursor.accumulator.state ≠ .HDLC_SYNC_STATE_HUNTING ∧
      cursor.accumulator.position = s.accumulator.position ∧
      hdlc_sync_acc_poll s.accumulator s.out_frame = pollLoop.run cursor := by
  unfold ReceiveState.candidate at hcandidate
  dsimp only at hcandidate
  rw [h.poll_eq]
  split at hcandidate
  · rename_i hhunting
    obtain ⟨opening, hfound, rfl⟩ := Option.map_eq_some_iff.mp hcandidate
    have hturn : hdlc_sync_poll_turn ⟨s.accumulator, s.out_frame, s.accumulator.processed⟩ =
        .inl (hdlc_sync_lock ⟨s.accumulator, s.out_frame, s.accumulator.processed⟩ opening) := by
      have hinside : s.accumulator.processed < s.accumulator.position := by rwa [h.fresh hhunting]
      simp only [hdlc_sync_poll_turn, hinside, if_true, hdlc_sync_step, hhunting, hdlc_sync_step_hunting, hfound]
    exact ⟨(h.cursor hconsumed).step hturn, by simp [hdlc_sync_lock], rfl, Loop.Terminating.run_of_inl hturn⟩
  · rename_i hlocked
    cases hcandidate
    exact ⟨h.cursor hconsumed, hlocked, rfl, rfl⟩

/-- Hunting without an opening leaves at most one byte. -/
theorem FitState.poll_of_no_candidate (h : FitState s) (hcandidate : s.candidate = none)
    (hpos : 0 < s.accumulator.position) :
    (hdlc_sync_acc_poll s.accumulator s.out_frame).result = .E2S_OK ∧
      (hdlc_sync_acc_poll s.accumulator s.out_frame).accumulator.position ≤ 1 := by
  unfold ReceiveState.candidate at hcandidate
  dsimp only at hcandidate
  split at hcandidate
  · rename_i hhunting
    have hnone := Option.map_eq_none_iff.mp hcandidate
    have hinside : s.accumulator.processed < s.accumulator.position := by rwa [h.fresh hhunting]
    have hturn : hdlc_sync_poll_turn ⟨s.accumulator, s.out_frame, s.accumulator.processed⟩ =
        .inr ⟨.E2S_OK, hdlc_sync_finalize_poll_no_frame s.accumulator s.accumulator.position, s.out_frame⟩ := by
      simp only [hdlc_sync_poll_turn, hinside, if_true, hdlc_sync_step, hhunting, hdlc_sync_step_hunting, hnone]
    have hrun : pollLoop.run ⟨s.accumulator, s.out_frame, s.accumulator.processed⟩ = _ :=
      Loop.Terminating.run_of_inr hturn
    rw [h.poll_eq, hrun]
    refine ⟨rfl, (rests_finalize_hunting hhunting (Nat.le_refl _)).hunting ?_⟩
    rw [hdlc_sync_finalize_poll_no_frame_hunting hhunting]
    exact hhunting
  · cases hcandidate

/-- The state of a buffer that the next poll empties at least a little. -/
def ReceiveState.Moves (s : ReceiveState) : Prop :=
  s.accumulator.position < RX_HDLC_SYNC_MAX_BUFFER_SIZE ∨ ∀ cursor, s.candidate = some cursor → cursor.CandidateEnds

theorem FitState.poll_of_moves (h : FitState s) (hconsumed : s.awaiting = false) (hmoves : s.Moves) :
    (hdlc_sync_acc_poll s.accumulator s.out_frame).result = .E2S_ERR_HDLC_ACC_FRAME_READY ∨
      (hdlc_sync_acc_poll s.accumulator s.out_frame).accumulator.position < RX_HDLC_SYNC_MAX_BUFFER_SIZE := by
  obtain hroom | hends := hmoves
  · obtain ⟨last, hfit, hlast, hexit⟩ := h.exists_exit hconsumed hdlc_sync.Moves
      (fun _ _ hcursor h hprogress => h.step hcursor hprogress) (.inl hroom)
    exact hlast.exit hfit (pollExit_of_inr hexit)
  · by_cases hpos : 0 < s.accumulator.position
    · cases hcandidate : s.candidate with
      | none =>
        obtain ⟨-, hposition⟩ := h.poll_of_no_candidate hcandidate hpos
        exact .inr (Nat.lt_of_le_of_lt hposition (by decide))
      | some cursor =>
        obtain ⟨hcursor, hlocked, -, hrun⟩ := h.poll_of_candidate hconsumed hcandidate hpos
        obtain ⟨last, hfit, hlast, hexit⟩ := hcursor.exists_exit hdlc_sync.Moves
          (fun _ _ hcursor h hprogress => h.step hcursor hprogress) (.inr ⟨hlocked, hends cursor hcandidate⟩)
        rw [hrun]
        exact hlast.exit hfit (pollExit_of_inr hexit)
    · obtain ⟨last, hfit, hlast, hexit⟩ := h.exists_exit hconsumed hdlc_sync.Moves
        (fun _ _ hcursor h hprogress => h.step hcursor hprogress)
        (.inl (Nat.lt_of_le_of_lt (Nat.le_of_not_lt hpos) (by decide)))
      exact hlast.exit hfit (pollExit_of_inr hexit)

theorem FitState.poll_of_not_moves (h : FitState s) (hconsumed : s.awaiting = false) (hstuck : ¬ s.Moves) :
    (hdlc_sync_acc_poll s.accumulator s.out_frame).result = .E2S_OK ∧
      RX_HDLC_SYNC_MAX_BUFFER_SIZE ≤ (hdlc_sync_acc_poll s.accumulator s.out_frame).accumulator.position := by
  simp only [ReceiveState.Moves, not_or, not_forall, Nat.not_lt] at hstuck
  obtain ⟨hfull, cursor, hcandidate, hendless⟩ := hstuck
  obtain ⟨hcursor, hlocked, hposition, hrun⟩ := h.poll_of_candidate hconsumed hcandidate
    (Nat.lt_of_lt_of_le (by decide) hfull)
  obtain ⟨last, hfit, hlast, hexit⟩ := hcursor.exists_exit Stuck
    (fun _ _ hcursor h hprogress => h.step hcursor hprogress)
    ⟨hposition ▸ hfull, hlocked, hendless⟩
  rw [hrun]
  exact hlast.exit hfit (pollExit_of_inr hexit)

end

/-- A drain leaves room exactly if the buffer it starts from can move. -/
theorem drain_room_iff (verdict : Nat → Bool) {backlog : Backlog}
    (h : FitState ⟨backlog.accumulator, backlog.out_frame, false⟩) :
    (backlog.drain verdict).accumulator.position < RX_HDLC_SYNC_MAX_BUFFER_SIZE ↔
      ReceiveState.Moves ⟨backlog.accumulator, backlog.out_frame, false⟩ := by
  constructor
  · intro hroom
    by_contra hstuck
    obtain ⟨hresult, hfull⟩ := h.poll_of_not_moves rfl hstuck
    have hturn : backlog.drainTurn verdict = .inr
        { backlog with
          accumulator := (hdlc_sync_acc_poll backlog.accumulator backlog.out_frame).accumulator
          out_frame := (hdlc_sync_acc_poll backlog.accumulator backlog.out_frame).out_frame
          poll_results := backlog.poll_results ++ [.E2S_OK] } := by
      simp only at hresult
      simp [Backlog.drainTurn, hresult]
    have hdrain : backlog.drain verdict = _ := Loop.Terminating.run_of_inr hturn
    rw [hdrain] at hroom
    exact absurd hroom (Nat.not_lt_of_le hfull)
  · intro hmoves
    obtain ⟨last, ⟨hfit, hlast⟩, hexit⟩ := (backlogLoop verdict).exists_exit
      (fun backlog => FitState ⟨backlog.accumulator, backlog.out_frame, false⟩ ∧
        ReceiveState.Moves ⟨backlog.accumulator, backlog.out_frame, false⟩)
      (fun backlog next hbacklog hturn =>
        ⟨fitState_drainTurn hbacklog.1 hturn,
          .inl (Nat.lt_of_lt_of_le (Backlog.drainTurn_decreases hturn) hbacklog.1.position_le)⟩)
      ⟨h, hmoves⟩
    have hpolled := hfit.poll_of_moves rfl hlast
    change last.drainTurn verdict = .inr (backlog.drain verdict) at hexit
    unfold Backlog.drainTurn at hexit
    simp only at hexit
    split at hexit
    · cases hexit
    · rename_i hready
      rw [← Sum.inr.inj hexit]
      exact hpolled.resolve_left hready

/-- A drain that begins with the consumption of a candidate leaves room. -/
theorem ReceiveState.drain_room_iff {s : ReceiveState} (verdict : Nat → Bool) (h : FitState s) :
    (s.drain verdict).position < RX_HDLC_SYNC_MAX_BUFFER_SIZE ↔ s.awaiting = true ∨ s.Moves := by
  have hposition := h.position_le
  cases hawaiting : s.awaiting with
  | false =>
    have hidle : FitState ⟨s.accumulator, s.out_frame, false⟩ := hawaiting ▸ h
    simp only [ReceiveState.drain, hawaiting, Bool.false_eq_true, if_false, false_or]
    rw [hdlc_sync.drain_room_iff verdict hidle]
    rfl
  | true =>
    have hconsumed := h.consume hawaiting (verdict 0) false
    obtain ⟨-, -, hstart, hend⟩ := h.valid (h.reported hawaiting)
    have hless := position_consume_candidate_lt (verdict 0) (h.reported hawaiting) (by omega) (by omega)
    simp only [ReceiveState.drain, hawaiting, if_true, true_or, iff_true]
    rw [hdlc_sync.drain_room_iff verdict hconsumed]
    exact .inl (Nat.lt_of_lt_of_le hless hposition)

/-- In every reachable state, a drain leaves room for the next byte exactly if
a reported candidate is still to be consumed, the buffer is not full, or the
candidate that the first poll follows ends inside the buffer. -/
theorem drained_accepts_byte_iff (verdict : Nat → Bool) (sync_byte : UInt8) (out_frame : HdlcFrame)
    (hcapacity : 2048 ≤ out_frame.capacity) (hlength : out_frame.length ≤ out_frame.capacity) (s : ReceiveState)
    (hreach : Relation.ReflTransGen ReceiveStep (.start sync_byte out_frame) s) :
    ((s.drain verdict).position < RX_HDLC_SYNC_MAX_BUFFER_SIZE ∧
      ∀ byte, (hdlc_sync_acc_process_byte (s.drain verdict) byte).1 = true) ↔
    s.awaiting = true ∨ s.accumulator.position < RX_HDLC_SYNC_MAX_BUFFER_SIZE ∨
      ∀ cursor, s.candidate = some cursor → cursor.CandidateEnds := by
  have hroom := ReceiveState.drain_room_iff verdict (fitState_of_reachable hcapacity hlength hreach)
  have haccept : (s.drain verdict).position < RX_HDLC_SYNC_MAX_BUFFER_SIZE →
      ∀ byte, (hdlc_sync_acc_process_byte (s.drain verdict) byte).1 = true := by
    intro hlt byte
    rw [hdlc_sync_acc_process_byte, if_neg (Nat.not_le_of_lt hlt)]
  constructor
  · exact fun hdrained => hroom.mp hdrained.1
  · intro hmoves
    have hlt := hroom.mpr hmoves
    exact ⟨hlt, haccept hlt⟩

/-- A flag and idle bytes behind it. -/
def earlyFlag (idle : Nat) : List UInt8 := 0x7E :: List.replicate idle 0x00

/-- The search of a long buffer that begins with a flag finds that flag. -/
theorem hdlc_sync_find_opening_earlyFlag {accumulator : HdlcSyncAccumulator} {idle : Nat}
    (hbuffer : accumulator.buffer = earlyFlag idle) (hsync : accumulator.sync_byte = HDLC_FLAG_BYTE)
    (hlong : HDLC_SYNC_SHORT_BUFFER_SEARCH_LIMIT ≤ idle) :
    hdlc_sync_find_opening accumulator 0 = some ⟨0, 0, false⟩ := by
  have hposition : accumulator.position = idle + 1 := by simp [HdlcSyncAccumulator.position, hbuffer, earlyFlag]
  have hpos : 0 < idle := Nat.lt_of_lt_of_le (by decide) hlong
  have hshort : hdlc_sync_find_complete_candidate_short accumulator 0 = none := by
    unfold hdlc_sync_find_complete_candidate_short
    rw [if_pos (by omega)]
  have hfirst : hdlc_sync_find_opening_at accumulator false 0 = some ⟨0, 0, false⟩ := by
    have hfound : aligned_is_sync accumulator 0 0 false = true := by
      unfold aligned_is_sync hdlc_sync_get_aligned_byte
      rw [if_neg (by rw [hposition, HDLC_BITS_PER_BYTE]; omega), if_pos rfl, hbuffer, hsync]
      rfl
    rw [hdlc_sync_find_opening_at, if_pos hfound]
  obtain ⟨more, rfl⟩ := Nat.exists_eq_add_of_lt hpos
  unfold hdlc_sync_find_opening
  rw [hshort]
  simp only
  unfold hdlc_sync_find_opening_candidate
  rw [if_neg (by omega)]
  simp only [search_start, gt_iff_lt, Nat.lt_irrefl, if_false, Nat.sub_zero]
  rw [if_neg (by omega), hposition, Nat.add_sub_cancel, List.range'_succ, List.findSome?_cons, hfirst]

theorem reachable_process_bytes (bytes : List UInt8) {start s : ReceiveState}
    (hreach : Relation.ReflTransGen ReceiveStep start s) :
    Relation.ReflTransGen ReceiveStep start { s with accumulator := process_bytes s.accumulator bytes } := by
  induction bytes generalizing s with
  | nil => exact hreach
  | cons byte bytes ih => exact ih (hreach.tail (.process_byte s byte))

/-- The receiver has been given a flag and idle bytes since its start. -/
def filledEarly (idle : Nat) : ReceiveState where
  accumulator := process_bytes (hdlc_sync_acc_init HDLC_FLAG_BYTE) (earlyFlag idle)
  out_frame := .empty 2048
  awaiting := false

theorem reachable_filledEarly (idle : Nat) :
    Relation.ReflTransGen ReceiveStep (.start HDLC_FLAG_BYTE (.empty 2048)) (filledEarly idle) :=
  reachable_process_bytes (earlyFlag idle) .refl

/-- The candidate of a buffer that an early flag and idle bytes fill grows too
long inside it. -/
theorem candidateEnds_filledEarly {idle : Nat} (hfull : idle + 1 = RX_HDLC_SYNC_MAX_BUFFER_SIZE) :
    (filledEarly idle).accumulator.position = RX_HDLC_SYNC_MAX_BUFFER_SIZE ∧
      ∀ cursor, (filledEarly idle).candidate = some cursor → cursor.CandidateEnds := by
  have hlength : (earlyFlag idle).length = idle + 1 := by simp [earlyFlag]
  have hfilled : (filledEarly idle).accumulator =
      { hdlc_sync_acc_init HDLC_FLAG_BYTE with buffer := [] ++ earlyFlag idle } := by
    apply process_bytes_of_le
    rw [hlength, hfull]
    exact Nat.le_of_eq (Nat.zero_add _)
  have hposition : (filledEarly idle).accumulator.position = RX_HDLC_SYNC_MAX_BUFFER_SIZE := by
    rw [hfilled, ← hfull]
    exact hlength
  refine ⟨hposition, fun cursor hcandidate => ?_⟩
  have hfound := @hdlc_sync_find_opening_earlyFlag (filledEarly idle).accumulator idle (by rw [hfilled]; rfl)
    (by rw [hfilled]; rfl)
    (by rw [RX_HDLC_SYNC_MAX_BUFFER_SIZE] at hfull; rw [HDLC_SYNC_SHORT_BUFFER_SEARCH_LIMIT]; omega)
  have hhunting : (filledEarly idle).accumulator.state = .HDLC_SYNC_STATE_HUNTING := by rw [hfilled]; rfl
  have hprocessed : (filledEarly idle).accumulator.processed = 0 := by rw [hfilled]; rfl
  simp only [ReceiveState.candidate, hhunting, if_true, hprocessed, hfound, Option.map_some, Option.some_inj]
    at hcandidate
  subst hcandidate
  left
  change 0 + HDLC_SYNC_MAX_REASONABLE_FRAME_SIZE_BYTES < (filledEarly idle).accumulator.position
  rw [hposition]
  decide

/-- A full buffer whose candidate ends in it. -/
theorem drained_accepts_byte_iff_filled :
    (filledEarly 8191).accumulator.position = RX_HDLC_SYNC_MAX_BUFFER_SIZE ∧
      ((filledEarly 8191).drain fun _ => true).position < RX_HDLC_SYNC_MAX_BUFFER_SIZE ∧
        ∀ byte, (hdlc_sync_acc_process_byte ((filledEarly 8191).drain fun _ => true) byte).1 = true := by
  obtain ⟨hfull, hends⟩ := @candidateEnds_filledEarly 8191 rfl
  refine ⟨hfull, ?_⟩
  have hdrained := drained_accepts_byte_iff (fun _ => true) HDLC_FLAG_BYTE (.empty 2048) (by decide) (by decide)
    (filledEarly 8191) (reachable_filledEarly 8191)
  exact hdrained.mpr (.inr (.inr hends))

/-- Idle bytes and a flag that starts in the last two places. -/
def lateFlag (idle : Nat) : List UInt8 := List.replicate idle 0x00 ++ [0x7E, 0x00]

section

variable {accumulator : HdlcSyncAccumulator} {idle : Nat}

/-- Before the late flag there is none, at any alignment. -/
theorem hdlc_sync_find_opening_at_lateFlag (hbuffer : accumulator.buffer = lateFlag idle)
    (hsync : accumulator.sync_byte = HDLC_FLAG_BYTE) {start : Nat} (hstart : start < idle) :
    hdlc_sync_find_opening_at accumulator false start = none := by
  have hposition : accumulator.position = idle + 2 := by simp [HdlcSyncAccumulator.position, hbuffer, lateFlag]
  have hbyte : accumulator.buffer.getD start 0 = 0 := by
    simp [hbuffer, lateFlag, List.getD, List.getElem?_append, hstart]
  have hnext : accumulator.buffer.getD (start + 1) 0 = 0 ∨ accumulator.buffer.getD (start + 1) 0 = 0x7E := by
    by_cases hlast : start + 1 < idle
    · left
      simp [hbuffer, lateFlag, List.getD, List.getElem?_append, hlast]
    · right
      obtain rfl : idle = start + 1 := by omega
      simp [hbuffer, lateFlag, List.getD]
  have hzero : ¬ aligned_is_sync accumulator start 0 false = true := by
    unfold aligned_is_sync hdlc_sync_get_aligned_byte
    rw [if_neg (by rw [hposition, HDLC_BITS_PER_BYTE]; omega), if_pos rfl, hbyte, hsync]
    decide
  have hshifted : ∀ bit_pos ∈ shifted_bit_positions,
      ¬ ((0 : UInt8) >>> UInt8.ofNat bit_pos ||| 0 <<< UInt8.ofNat (HDLC_BITS_PER_BYTE - bit_pos)) = HDLC_FLAG_BYTE ∧
      ¬ ((0 : UInt8) >>> UInt8.ofNat bit_pos ||| 0x7E <<< UInt8.ofNat (HDLC_BITS_PER_BYTE - bit_pos)) =
        HDLC_FLAG_BYTE := by
    decide
  have hmiss : ∀ bit_pos ∈ shifted_bit_positions, ¬ aligned_is_sync accumulator start bit_pos true = true := by
    intro bit_pos hmem
    have hbounds := hmem
    rw [shifted_bit_positions, List.mem_range'_1, HDLC_BITS_PER_BYTE] at hbounds
    unfold aligned_is_sync hdlc_sync_get_aligned_byte
    rw [if_neg (by rw [hposition, HDLC_BITS_PER_BYTE]; omega), if_neg (by omega), if_neg (by omega), if_pos rfl, hbyte,
      hsync]
    obtain hzero | hflag := hnext
    · rw [hzero, beq_iff_eq, Option.some_inj]
      exact (hshifted bit_pos hmem).1
    · rw [hflag, beq_iff_eq, Option.some_inj]
      exact (hshifted bit_pos hmem).2
  unfold hdlc_sync_find_opening_at
  rw [if_neg hzero, List.find?_eq_none.mpr hmiss]
  rfl

/-- The search of a long buffer finds the late flag. -/
theorem hdlc_sync_find_opening_lateFlag (hbuffer : accumulator.buffer = lateFlag idle)
    (hsync : accumulator.sync_byte = HDLC_FLAG_BYTE) (hlong : HDLC_SYNC_SHORT_BUFFER_SEARCH_LIMIT ≤ idle) :
    hdlc_sync_find_opening accumulator 0 = some ⟨idle, 0, false⟩ := by
  have hposition : accumulator.position = idle + 2 := by simp [HdlcSyncAccumulator.position, hbuffer, lateFlag]
  have hshort : hdlc_sync_find_complete_candidate_short accumulator 0 = none := by
    unfold hdlc_sync_find_complete_candidate_short
    rw [if_pos (by omega)]
  have hbefore : (List.range' 0 idle).findSome? (hdlc_sync_find_opening_at accumulator false) = none := by
    rw [List.findSome?_eq_none_iff]
    intro start hmem
    rw [List.mem_range'_1] at hmem
    exact hdlc_sync_find_opening_at_lateFlag hbuffer hsync (by omega)
  have hlast : hdlc_sync_find_opening_at accumulator false idle = some ⟨idle, 0, false⟩ := by
    have hflag : accumulator.buffer.getD idle 0 = 0x7E := by
      simp [hbuffer, lateFlag, List.getD]
    have hfound : aligned_is_sync accumulator idle 0 false = true := by
      unfold aligned_is_sync hdlc_sync_get_aligned_byte
      rw [if_neg (by rw [hposition, HDLC_BITS_PER_BYTE]; omega), if_pos rfl, hflag, hsync]
      decide
    rw [hdlc_sync_find_opening_at, if_pos hfound]
  have hrange : List.range' 0 (idle + 1) = List.range' 0 idle ++ [idle] := by simp [List.range'_1_concat]
  unfold hdlc_sync_find_opening
  rw [hshort]
  simp only
  unfold hdlc_sync_find_opening_candidate
  rw [if_neg (by omega)]
  simp only [search_start, gt_iff_lt, Nat.lt_irrefl, if_false, Nat.sub_zero]
  rw [if_neg (by omega), show accumulator.position - 1 = idle + 1 by omega, hrange, List.findSome?_append, hbefore]
  simp [hlast]

end

/-- The receiver has been given idle bytes and a late flag since its start. -/
def filledLate (idle : Nat) : ReceiveState where
  accumulator := process_bytes (hdlc_sync_acc_init HDLC_FLAG_BYTE) (lateFlag idle)
  out_frame := .empty 2048
  awaiting := false

theorem reachable_filledLate (idle : Nat) :
    Relation.ReflTransGen ReceiveStep (.start HDLC_FLAG_BYTE (.empty 2048)) (filledLate idle) :=
  reachable_process_bytes (lateFlag idle) .refl

/-- A late flag that fills the buffer leaves a receiver that cannot move. -/
theorem not_moves_filledLate {idle : Nat} (hfull : idle + 2 = RX_HDLC_SYNC_MAX_BUFFER_SIZE) :
    ¬ (filledLate idle).Moves := by
  have hlength : (lateFlag idle).length = idle + 2 := by simp [lateFlag]
  have hfilled : (filledLate idle).accumulator =
      { hdlc_sync_acc_init HDLC_FLAG_BYTE with buffer := [] ++ lateFlag idle } := by
    apply process_bytes_of_le
    rw [hlength, hfull]
    exact Nat.le_of_eq (Nat.zero_add _)
  have hposition : (filledLate idle).accumulator.position = idle + 2 := by rw [hfilled]; exact hlength
  have hcandidate : (filledLate idle).candidate =
      some (hdlc_sync_lock ⟨(filledLate idle).accumulator, (filledLate idle).out_frame, 0⟩ ⟨idle, 0, false⟩) := by
    have hfound := @hdlc_sync_find_opening_lateFlag (filledLate idle).accumulator idle (by rw [hfilled]; rfl)
      (by rw [hfilled]; rfl)
      (by rw [RX_HDLC_SYNC_MAX_BUFFER_SIZE] at hfull; rw [HDLC_SYNC_SHORT_BUFFER_SEARCH_LIMIT]; omega)
    have hhunting : (filledLate idle).accumulator.state = .HDLC_SYNC_STATE_HUNTING := by rw [hfilled]; rfl
    have hprocessed : (filledLate idle).accumulator.processed = 0 := by rw [hfilled]; rfl
    simp only [ReceiveState.candidate, hhunting, if_true, hprocessed, hfound, Option.map_some]
  rintro (hroom | hends)
  · omega
  · obtain hlong | ⟨closing, hscan, hstart, hclosing⟩ := hends _ hcandidate
    · have hsame : idle + HDLC_SYNC_MAX_REASONABLE_FRAME_SIZE_BYTES < (filledLate idle).accumulator.position := hlong
      rw [HDLC_SYNC_MAX_REASONABLE_FRAME_SIZE_BYTES] at hsame
      omega
    · have hinside : closing < (filledLate idle).accumulator.position := (received_of_aligned hclosing).1
      have hbehind : idle + 2 ≤ closing := hstart
      omega

/-- A lock on a flag in the last two places of a full buffer is never left
again: no further byte is accepted. -/
theorem drained_refuses_byte :
    Relation.ReflTransGen ReceiveStep (.start HDLC_FLAG_BYTE (.empty 2048)) (filledLate 8190) ∧
      ¬ ((filledLate 8190).drain fun _ => true).position < RX_HDLC_SYNC_MAX_BUFFER_SIZE ∧
      (hdlc_sync_acc_process_byte ((filledLate 8190).drain fun _ => true) 0x7E).1 = false := by
  have hreach := reachable_filledLate 8190
  have hfull : ¬ ((filledLate 8190).drain fun _ => true).position < RX_HDLC_SYNC_MAX_BUFFER_SIZE := by
    rw [ReceiveState.drain_room_iff (fun _ => true) (fitState_of_reachable (by decide) (by decide) hreach)]
    rintro (hawaiting | hmoves)
    · cases hawaiting
    · exact not_moves_filledLate rfl hmoves
  refine ⟨hreach, hfull, ?_⟩
  rw [hdlc_sync_acc_process_byte, if_pos (Nat.le_of_not_lt hfull)]

end ether2ser.hdlc_sync
