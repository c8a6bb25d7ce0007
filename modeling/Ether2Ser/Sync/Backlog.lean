import Ether2Ser.Sync.Drain

open ether2ser.error ether2ser.hdlc_common

namespace ether2ser.hdlc_sync

/-- The bytes a drain works on: fewer than two frames of the largest size while
hunting, and as many behind the start of a candidate, which itself lies within
the first two. -/
structure Backlogged (accumulator : HdlcSyncAccumulator) : Prop where
  hunting : accumulator.state = .HDLC_SYNC_STATE_HUNTING →
    accumulator.position < 2 * HDLC_SYNC_MAX_REASONABLE_FRAME_SIZE_BYTES
  locked : accumulator.state ≠ .HDLC_SYNC_STATE_HUNTING →
    accumulator.candidate_start < 2 * HDLC_SYNC_MAX_REASONABLE_FRAME_SIZE_BYTES ∧
      accumulator.position ≤ accumulator.candidate_start + 2 * HDLC_SYNC_MAX_REASONABLE_FRAME_SIZE_BYTES

theorem backlogged_of_hunting {accumulator : HdlcSyncAccumulator}
    (hhunting : accumulator.state = .HDLC_SYNC_STATE_HUNTING)
    (hposition : accumulator.position < 2 * HDLC_SYNC_MAX_REASONABLE_FRAME_SIZE_BYTES) : Backlogged accumulator :=
  ⟨fun _ => hposition, fun hstate => absurd hhunting hstate⟩

theorem backlogged_of_locked {accumulator : HdlcSyncAccumulator}
    (hlocked : accumulator.state ≠ .HDLC_SYNC_STATE_HUNTING)
    (hbounds : accumulator.candidate_start < 2 * HDLC_SYNC_MAX_REASONABLE_FRAME_SIZE_BYTES ∧
      accumulator.position ≤ accumulator.candidate_start + 2 * HDLC_SYNC_MAX_REASONABLE_FRAME_SIZE_BYTES) :
    Backlogged accumulator :=
  ⟨fun hstate => absurd hstate hlocked, fun _ => hbounds⟩

theorem Backlogged.step {cursor next : HdlcSyncCursor} (h : Backlogged cursor.accumulator)
    (hprogress : PollProgress cursor next) : Backlogged next.accumulator := by
  cases hprogress with
  | lock opening hinside hhunting hfound =>
    obtain ⟨⟨hstart, -⟩, -⟩ := hdlc_sync_find_opening_inside hfound
    have hposition := h.hunting hhunting
    refine backlogged_of_locked (by simp [hdlc_sync_lock]) ?_
    have hsame : (hdlc_sync_lock cursor opening).accumulator.position = cursor.accumulator.position := rfl
    rw [hsame]
    simp only [hdlc_sync_lock]
    omega
  | oversized hinside hlocked hlong =>
    obtain ⟨hstart, hposition⟩ := h.locked hlocked
    refine backlogged_of_hunting rfl ?_
    simp only [hdlc_sync_reject_oversized_candidate, position_reset_hunting_state, position_drop_prefix]
    omega
  | store aligned hinside hlocked hshort hroom haligned hflag =>
    exact backlogged_of_locked (by simp) (h.locked hlocked)

/-- Consuming the candidate that a poll reports leaves fewer bytes than the
hard cap tolerates. -/
theorem Backlogged.consume {cursor : HdlcSyncCursor} {polled : HdlcSyncPolled} (h : Backlogged cursor.accumulator)
    (hcursor : CursorInvariant cursor) (hexit : PollExit cursor polled)
    (hready : polled.result = .E2S_ERR_HDLC_ACC_FRAME_READY) (accept : Bool) :
    Backlogged (hdlc_sync_acc_consume_candidate polled.accumulator accept) ∧
      (hdlc_sync_acc_consume_candidate polled.accumulator accept).hardcap_drop_events =
        polled.accumulator.hardcap_drop_events := by
  cases hexit with
  | exhausted hend => cases hready
  | miss hinside hhunting hnone => cases hready
  | wait syncing synced hinside hlocked hshort hnone => cases hready
  | overflow hinside hlocked hshort hfull => cases hready
  | close hinside hsynced hshort hroom haligned =>
    have hlocked : cursor.accumulator.state ≠ .HDLC_SYNC_STATE_HUNTING := by simp [hsynced]
    obtain ⟨hstart, hposition⟩ := h.locked hlocked
    obtain ⟨hscan, -⟩ := hcursor.locked hlocked
    generalize haccumulator :
      ({ hdlc_sync_close_candidate cursor.accumulator cursor.scan_index with processed := 0 } :
        HdlcSyncAccumulator) = closed
    have hvalid : closed.candidate_valid = true := by rw [← haccumulator]; rfl
    have hdropped : cursor.accumulator.candidate_start + 1 ≤ closed.consumed accept := by
      rw [← haccumulator, HdlcSyncAccumulator.consumed]
      simp only [hdlc_sync_close_candidate]
      split <;> omega
    have hsame : closed.buffer = cursor.accumulator.buffer := by rw [← haccumulator]; rfl
    have hlength : (closed.buffer.drop (closed.consumed accept)).length <
        2 * HDLC_SYNC_MAX_REASONABLE_FRAME_SIZE_BYTES := by
      rw [hsame, List.length_drop]
      simp only [HdlcSyncAccumulator.position, HDLC_SYNC_MAX_REASONABLE_FRAME_SIZE_BYTES] at hposition ⊢
      omega
    have hpos : 0 < min (closed.consumed accept) closed.position := by
      simp only [HdlcSyncAccumulator.position, hsame] at hinside ⊢
      omega
    rw [hdlc_sync_acc_consume_candidate_eq hvalid hpos, hdlc_sync_hard_cap_of_lt ?_]
    · exact ⟨backlogged_of_hunting rfl hlength, rfl⟩
    · rw [position_reset_hunting_state]
      exact Nat.lt_trans hlength (by decide)

/-- Between two drains the candidate still starts within the first two frames
of the largest size. -/
structure Rested (accumulator : HdlcSyncAccumulator) : Prop extends Rests accumulator where
  start_lt : accumulator.state ≠ .HDLC_SYNC_STATE_HUNTING →
    accumulator.candidate_start < 2 * HDLC_SYNC_MAX_REASONABLE_FRAME_SIZE_BYTES

theorem Backlogged.rested {cursor : HdlcSyncCursor} {polled : HdlcSyncPolled} (h : Backlogged cursor.accumulator)
    (hexit : PollExit cursor polled) (hrests : Rests polled.accumulator) : Rested polled.accumulator := by
  refine { hrests with start_lt := ?_ }
  have hfinal : ∀ (accumulator : HdlcSyncAccumulator) (scan_index : Nat),
      accumulator.state = cursor.accumulator.state →
      accumulator.candidate_start = cursor.accumulator.candidate_start →
      (hdlc_sync_finalize_poll_no_frame accumulator scan_index).state ≠ .HDLC_SYNC_STATE_HUNTING →
      (hdlc_sync_finalize_poll_no_frame accumulator scan_index).candidate_start <
        2 * HDLC_SYNC_MAX_REASONABLE_FRAME_SIZE_BYTES := by
    intro accumulator scan_index hstate hstart hlocked
    by_cases hhunting : accumulator.state = .HDLC_SYNC_STATE_HUNTING
    · rw [hdlc_sync_finalize_poll_no_frame_hunting hhunting] at hlocked
      exact absurd hhunting hlocked
    · rw [hdlc_sync_finalize_poll_no_frame_locked hhunting]
      rw [hstate] at hhunting
      exact hstart ▸ (h.locked hhunting).1
  cases hexit with
  | exhausted hend => exact hfinal _ _ rfl rfl
  | miss hinside hhunting hnone => exact hfinal _ _ rfl rfl
  | wait syncing synced hinside hlocked hshort hnone => exact hfinal _ _ rfl rfl
  | overflow hinside hlocked hshort hfull => exact fun hstate => absurd rfl hstate
  | close hinside hsynced hshort hroom haligned => exact fun hstate => absurd rfl hstate

/-- What holds in every turn of a drain. -/
structure BacklogInvariant (backlog : Backlog) : Prop where
  fit : FitState ⟨backlog.accumulator, backlog.out_frame, false⟩
  accepted : ∀ appended ∈ backlog.process_results, appended = true
  polled : ∀ result ∈ backlog.poll_results, result ≠ .E2S_ERR_HDLC_DECODE_PAYLOAD_TOO_LONG
  uncapped : ∀ capped ∈ backlog.hard_caps, capped = false

theorem forall_mem_concat {α : Type} {p : α → Prop} {l : List α} {a : α} (hl : ∀ x ∈ l, p x) (ha : p a) :
    ∀ x ∈ l ++ [a], p x := by
  intro x hx
  obtain hx | hx := List.mem_append.mp hx
  · exact hl x hx
  · rw [List.mem_singleton.mp hx]
    exact ha

/-- The exit of the poll that a turn of the drain begins with. -/
theorem BacklogInvariant.poll_exit {backlog : Backlog} (h : BacklogInvariant backlog)
    (hbacklogged : Backlogged backlog.accumulator) :
    ∃ last, FitCursor last ∧ Backlogged last.accumulator ∧
      hdlc_sync_poll_turn last = .inr (hdlc_sync_acc_poll backlog.accumulator backlog.out_frame) :=
  h.fit.exists_exit rfl (fun cursor => Backlogged cursor.accumulator) (fun _ _ _ h hprogress => h.step hprogress)
    hbacklogged

theorem BacklogInvariant.turn {verdict : Nat → Bool} {backlog next : Backlog} (h : BacklogInvariant backlog)
    (hbacklogged : Backlogged backlog.accumulator) (hturn : backlog.drainTurn verdict = .inl next) :
    BacklogInvariant next ∧ Backlogged next.accumulator := by
  obtain ⟨last, hfit, hlast, hexit⟩ := h.poll_exit hbacklogged
  have hnext := fitState_drainTurn h.fit hturn
  unfold Backlog.drainTurn at hturn
  simp only at hturn
  split at hturn
  · rename_i hready
    cases hturn
    obtain ⟨hconsumed, hevents⟩ := hlast.consume hfit.toCursorInvariant (pollExit_of_inr hexit) hready
      (verdict backlog.verdicts)
    refine ⟨⟨hnext, h.accepted, ?_, ?_⟩, hconsumed⟩
    · exact forall_mem_concat h.polled (by simp [hready])
    · exact forall_mem_concat h.uncapped (by simp [hevents])
  · cases hturn

theorem BacklogInvariant.leave {verdict : Nat → Bool} {backlog last : Backlog} (h : BacklogInvariant backlog)
    (hbacklogged : Backlogged backlog.accumulator) (hturn : backlog.drainTurn verdict = .inr last) :
    BacklogInvariant last ∧ Rested last.accumulator := by
  obtain ⟨cursor, hfit, hcursor, hexit⟩ := h.poll_exit hbacklogged
  have hpoll := h.fit.poll rfl
  unfold Backlog.drainTurn at hturn
  simp only at hturn
  split at hturn
  · cases hturn
  · rename_i hready
    cases hturn
    obtain ⟨hresult, hrests⟩ | hresult := h.fit.pollRests rfl
    · refine ⟨⟨?_, h.accepted, ?_, h.uncapped⟩, hcursor.rested (pollExit_of_inr hexit) hrests⟩
      · simp only [hready, decide_false] at hpoll
        exact hpoll
      · exact forall_mem_concat h.polled (by simp [hresult])
    · exact absurd hresult hready

theorem BacklogInvariant.drain {verdict : Nat → Bool} {backlog : Backlog} (h : BacklogInvariant backlog)
    (hbacklogged : Backlogged backlog.accumulator) :
    BacklogInvariant (backlog.drain verdict) ∧ Rested (backlog.drain verdict).accumulator := by
  obtain ⟨last, ⟨hlast, hlogged⟩, hexit⟩ := (backlogLoop verdict).exists_exit
    (fun backlog => BacklogInvariant backlog ∧ Backlogged backlog.accumulator)
    (fun _ _ hturn hnext => hturn.1.turn hturn.2 hnext) ⟨h, hbacklogged⟩
  exact hlast.leave hlogged hexit

/-- Bytes that fit into the raw buffer are all accepted. -/
theorem BacklogInvariant.process_bytes {backlog : Backlog} (h : BacklogInvariant backlog) (chunk : List UInt8)
    (hroom : backlog.accumulator.position + chunk.length ≤ RX_HDLC_SYNC_MAX_BUFFER_SIZE) :
    BacklogInvariant (chunk.foldl Backlog.process_byte backlog) ∧
      (chunk.foldl Backlog.process_byte backlog).accumulator =
        { backlog.accumulator with buffer := backlog.accumulator.buffer ++ chunk } := by
  induction chunk generalizing backlog with
  | nil => exact ⟨h, by simp⟩
  | cons byte chunk ih =>
    have hbyte : hdlc_sync_acc_process_byte backlog.accumulator byte =
        (true, { backlog.accumulator with buffer := backlog.accumulator.buffer ++ [byte] }) := by
      rw [hdlc_sync_acc_process_byte, if_neg]
      rw [List.length_cons] at hroom
      omega
    have hnext : backlog.process_byte byte =
        { backlog with
          accumulator := { backlog.accumulator with buffer := backlog.accumulator.buffer ++ [byte] }
          process_results := backlog.process_results ++ [true] } := by
      rw [Backlog.process_byte, hbyte]
    have hfit := h.fit.process_byte byte
    rw [hbyte] at hfit
    obtain ⟨hinvariant, haccumulator⟩ := @ih (backlog.process_byte byte)
      (by
        rw [hnext]
        exact ⟨hfit, forall_mem_concat h.accepted rfl, h.polled, h.uncapped⟩)
      (by
        rw [hnext]
        simp only [HdlcSyncAccumulator.position, List.length_append, List.length_cons, List.length_nil] at hroom ⊢
        omega)
    refine ⟨hinvariant, ?_⟩
    rw [List.foldl_cons, haccumulator, hnext]
    simp

theorem BacklogInvariant.receive (verdict : Nat → Bool) {backlog : Backlog} {chunk : List UInt8}
    (h : BacklogInvariant backlog) (hrested : Rested backlog.accumulator)
    (hchunk : chunk.length ≤ HDLC_SYNC_MAX_REASONABLE_FRAME_SIZE_BYTES) :
    BacklogInvariant (backlog.receive verdict chunk) ∧ Rested (backlog.receive verdict chunk).accumulator := by
  have hbounds : backlog.accumulator.position < 3 * HDLC_SYNC_MAX_REASONABLE_FRAME_SIZE_BYTES := by
    by_cases hhunting : backlog.accumulator.state = .HDLC_SYNC_STATE_HUNTING
    · have hposition := hrested.hunting hhunting
      rw [HDLC_SYNC_MAX_REASONABLE_FRAME_SIZE_BYTES]
      omega
    · have hposition := hrested.locked hhunting
      have hstart := hrested.start_lt hhunting
      omega
  obtain ⟨hinvariant, haccumulator⟩ := h.process_bytes chunk (by
    rw [RX_HDLC_SYNC_MAX_BUFFER_SIZE]
    rw [HDLC_SYNC_MAX_REASONABLE_FRAME_SIZE_BYTES] at hbounds hchunk
    omega)
  apply hinvariant.drain
  rw [haccumulator]
  constructor
  · intro hhunting
    have hposition := hrested.hunting hhunting
    simp only [HdlcSyncAccumulator.position, List.length_append, HDLC_SYNC_MAX_REASONABLE_FRAME_SIZE_BYTES]
      at hposition hchunk ⊢
    omega
  · intro hlocked
    have hposition := hrested.locked hlocked
    have hstart := hrested.start_lt hlocked
    simp only [HdlcSyncAccumulator.position, List.length_append] at hposition ⊢
    omega

theorem BacklogInvariant.receiveAll (verdict : Nat → Bool) {backlog : Backlog} {chunks : List (List UInt8)}
    (h : BacklogInvariant backlog) (hrested : Rested backlog.accumulator)
    (hchunks : ∀ chunk ∈ chunks, chunk.length ≤ HDLC_SYNC_MAX_REASONABLE_FRAME_SIZE_BYTES) :
    BacklogInvariant (backlog.receiveAll verdict chunks) ∧
      Rested (backlog.receiveAll verdict chunks).accumulator := by
  induction chunks generalizing backlog with
  | nil => exact ⟨h, hrested⟩
  | cons chunk chunks ih =>
    obtain ⟨hnext, hrests⟩ := h.receive verdict hrested (hchunks chunk List.mem_cons_self)
    exact ih hnext hrests (fun chunk hmem => hchunks chunk (List.mem_cons_of_mem _ hmem))

/-- Whatever is received in chunks of at most 2048 bytes, and whatever the
verdicts are, no byte is refused, no poll overflows the frame, the hard cap is
never applied, and every drain leaves a bounded backlog. -/
theorem backlog_bounded (verdict : Nat → Bool) (sync_byte : UInt8) (out_frame : HdlcFrame)
    (hcapacity : 2048 ≤ out_frame.capacity) (hlength : out_frame.length ≤ out_frame.capacity)
    (chunks : List (List UInt8)) (hchunks : ∀ chunk ∈ chunks, chunk.length ≤ 2048) :
    let backlog := Backlog.receiveAll verdict (.start sync_byte out_frame) chunks
    (∀ appended ∈ backlog.process_results, appended = true) ∧
    (∀ result ∈ backlog.poll_results, result ≠ .E2S_ERR_HDLC_DECODE_PAYLOAD_TOO_LONG) ∧
    (∀ capped ∈ backlog.hard_caps, capped = false) ∧
    (backlog.accumulator.state ≠ .HDLC_SYNC_STATE_HUNTING →
      backlog.accumulator.position ≤ backlog.accumulator.candidate_start + 2048) ∧
    (backlog.accumulator.state = .HDLC_SYNC_STATE_HUNTING → backlog.accumulator.position ≤ 1) := by
  have hstart : BacklogInvariant (.start sync_byte out_frame) :=
    ⟨fitState_start sync_byte hcapacity hlength, by simp [Backlog.start], by simp [Backlog.start],
      by simp [Backlog.start]⟩
  have hrested : Rested (Backlog.start sync_byte out_frame).accumulator :=
    ⟨⟨fun _ => Nat.zero_le _, fun hstate => absurd rfl hstate⟩, fun hstate => absurd rfl hstate⟩
  obtain ⟨hinvariant, hrests⟩ := hstart.receiveAll verdict hrested hchunks
  exact ⟨hinvariant.accepted, hinvariant.polled, hinvariant.uncapped, hrests.locked, hrests.hunting⟩

/-- A flag, two bytes and the next flag complete a candidate, which is rejected. -/
theorem backlog_bounded_rejected :
    let backlog := Backlog.receiveAll (fun _ => false) (.start HDLC_FLAG_BYTE (.empty 2048))
      [[0x7E, 0x01, 0x02], [0x03, 0x7E]]
    backlog.verdicts = 1 ∧ ∀ capped ∈ backlog.hard_caps, capped = false := by
  have hbounded := backlog_bounded (fun _ => false) HDLC_FLAG_BYTE (.empty 2048) (by decide) (by decide)
    [[0x7E, 0x01, 0x02], [0x03, 0x7E]] (by decide)
  obtain ⟨-, -, huncapped, -⟩ := hbounded
  exact ⟨by decide +kernel, huncapped⟩

end ether2ser.hdlc_sync
