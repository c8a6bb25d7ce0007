import Ether2Ser.Sync.Invariant

open ether2ser.error ether2ser.hdlc_common

namespace ether2ser.hdlc_sync

/-- An accumulator with the frame its polls fill, the number of verdicts given
so far, the results of all calls and, for each consumed candidate, whether the
hard cap has been applied. -/
structure Backlog where
  accumulator : HdlcSyncAccumulator
  out_frame : HdlcFrame
  verdicts : Nat
  process_results : List Bool
  poll_results : List E2sError
  hard_caps : List Bool
  deriving DecidableEq, Repr

def Backlog.start (sync_byte : UInt8) (out_frame : HdlcFrame) : Backlog where
  accumulator := hdlc_sync_acc_init sync_byte
  out_frame := out_frame
  verdicts := 0
  process_results := []
  poll_results := []
  hard_caps := []

def Backlog.process_byte (backlog : Backlog) (byte : UInt8) : Backlog :=
  let (appended, accumulator) := hdlc_sync_acc_process_byte backlog.accumulator byte
  { backlog with accumulator, process_results := backlog.process_results ++ [appended] }

/-- Poll, and consume a reported candidate with the next verdict. -/
def Backlog.drainTurn (verdict : Nat → Bool) (backlog : Backlog) : Backlog ⊕ Backlog :=
  let polled := hdlc_sync_acc_poll backlog.accumulator backlog.out_frame
  let poll_results := backlog.poll_results ++ [polled.result]
  if polled.result = .E2S_ERR_HDLC_ACC_FRAME_READY then
    let accumulator := hdlc_sync_acc_consume_candidate polled.accumulator (verdict backlog.verdicts)
    let capped := accumulator.hardcap_drop_events ≠ polled.accumulator.hardcap_drop_events
    .inl
      { backlog with
        accumulator
        out_frame := polled.out_frame
        verdicts := backlog.verdicts + 1
        poll_results
        hard_caps := backlog.hard_caps ++ [decide capped] }
  else .inr { backlog with accumulator := polled.accumulator, out_frame := polled.out_frame, poll_results }

theorem Backlog.drainTurn_decreases {verdict : Nat → Bool} {backlog next : Backlog}
    (hturn : backlog.drainTurn verdict = .inl next) : next.accumulator.position < backlog.accumulator.position := by
  unfold Backlog.drainTurn at hturn
  simp only at hturn
  split at hturn
  · rename_i hready
    cases hturn
    exact position_consume_of_frame_ready hready _
  · cases hturn

/-- The drain loop, for any verdicts. -/
def backlogLoop (verdict : Nat → Bool) : Loop.Terminating Backlog Backlog where
  body := Backlog.drainTurn verdict
  variant := fun backlog => backlog.accumulator.position
  decreases := fun _ _ => Backlog.drainTurn_decreases

def Backlog.drain (verdict : Nat → Bool) (backlog : Backlog) : Backlog := (backlogLoop verdict).run backlog

/-- Append a chunk of raw bytes and drain. -/
def Backlog.receive (verdict : Nat → Bool) (backlog : Backlog) (chunk : List UInt8) : Backlog :=
  (chunk.foldl Backlog.process_byte backlog).drain verdict

/-- Chunks with a drain after each of them. -/
def Backlog.receiveAll (verdict : Nat → Bool) (backlog : Backlog) (chunks : List (List UInt8)) : Backlog :=
  chunks.foldl (Backlog.receive verdict) backlog

/-- The relation between two calls when frames of the largest size fit: a
hunting poll starts at the first byte and no candidate outgrows that size. -/
structure FitState (s : ReceiveState) : Prop extends ReceiveInvariant s where
  capacity_le : HDLC_SYNC_MAX_REASONABLE_FRAME_SIZE_BYTES ≤ s.out_frame.capacity
  fresh : s.accumulator.state = .HDLC_SYNC_STATE_HUNTING → s.accumulator.processed = 0
  short : s.accumulator.state ≠ .HDLC_SYNC_STATE_HUNTING →
    s.accumulator.processed ≤ s.accumulator.candidate_start + HDLC_SYNC_MAX_REASONABLE_FRAME_SIZE_BYTES
  syncing : s.accumulator.state = .HDLC_SYNC_STATE_SYNCING →
    s.accumulator.processed = s.accumulator.candidate_start + 1

/-- The same relation for the cursor of a running poll. -/
structure FitCursor (cursor : HdlcSyncCursor) : Prop extends CursorInvariant cursor where
  capacity_le : HDLC_SYNC_MAX_REASONABLE_FRAME_SIZE_BYTES ≤ cursor.out_frame.capacity
  fresh : cursor.accumulator.state = .HDLC_SYNC_STATE_HUNTING → cursor.scan_index = 0
  short : cursor.accumulator.state ≠ .HDLC_SYNC_STATE_HUNTING →
    cursor.scan_index ≤ cursor.accumulator.candidate_start + HDLC_SYNC_MAX_REASONABLE_FRAME_SIZE_BYTES
  syncing : cursor.accumulator.state = .HDLC_SYNC_STATE_SYNCING →
    cursor.scan_index = cursor.accumulator.candidate_start + 1

theorem FitCursor.step {cursor next : HdlcSyncCursor} (h : FitCursor cursor)
    (hturn : hdlc_sync_poll_turn cursor = .inl next) : FitCursor next := by
  have hcursor := h.toCursorInvariant.step hturn
  cases pollProgress_of_inl hturn with
  | lock opening hinside hhunting hfound =>
    exact
      { hcursor with
        capacity_le := h.capacity_le
        fresh := by simp [hdlc_sync_lock]
        short := fun _ => by
          simp only [hdlc_sync_lock, HDLC_SYNC_MAX_REASONABLE_FRAME_SIZE_BYTES]
          omega
        syncing := fun _ => rfl }
  | oversized hinside hlocked hlong =>
    exact
      { hcursor with
        capacity_le := h.capacity_le
        fresh := fun _ => rfl
        short := fun hstate => absurd rfl hstate
        syncing := fun hstate => by cases hstate }
  | store aligned hinside hlocked hshort hroom haligned hflag =>
    obtain ⟨hstart, hlength⟩ := h.locked hlocked
    exact
      { hcursor with
        capacity_le := h.capacity_le
        fresh := by simp
        short := fun _ => by
          simp only
          omega
        syncing := by simp }

/-- Without a frame a poll leaves at most one byte of a hunting buffer and at
most a frame of the largest size behind the start of a candidate. -/
structure Rests (accumulator : HdlcSyncAccumulator) : Prop where
  hunting : accumulator.state = .HDLC_SYNC_STATE_HUNTING → accumulator.position ≤ 1
  locked : accumulator.state ≠ .HDLC_SYNC_STATE_HUNTING →
    accumulator.position ≤ accumulator.candidate_start + HDLC_SYNC_MAX_REASONABLE_FRAME_SIZE_BYTES

/-- A locked cursor waits only for the byte behind the last one. -/
theorem CursorInvariant.position_le_of_aligned_none {cursor : HdlcSyncCursor} (h : CursorInvariant cursor)
    (hnone : cursor.aligned = none) : cursor.accumulator.position ≤ cursor.scan_index + 1 := by
  have hbit := h.bit_offset_lt
  unfold HdlcSyncCursor.aligned hdlc_sync_get_aligned_byte at hnone
  split at hnone
  · omega
  · split at hnone
    · cases hnone
    · split at hnone
      · omega
      · split at hnone <;> cases hnone

theorem rests_finalize_locked {accumulator : HdlcSyncAccumulator} {scan_index : Nat}
    (hlocked : accumulator.state ≠ .HDLC_SYNC_STATE_HUNTING)
    (hposition : accumulator.position ≤ accumulator.candidate_start + HDLC_SYNC_MAX_REASONABLE_FRAME_SIZE_BYTES) :
    Rests (hdlc_sync_finalize_poll_no_frame accumulator scan_index) := by
  rw [hdlc_sync_finalize_poll_no_frame_locked hlocked]
  exact ⟨fun hstate => absurd hstate hlocked, fun _ => hposition⟩

theorem rests_finalize_hunting {accumulator : HdlcSyncAccumulator} {scan_index : Nat}
    (hhunting : accumulator.state = .HDLC_SYNC_STATE_HUNTING) (hscanned : accumulator.position ≤ scan_index) :
    Rests (hdlc_sync_finalize_poll_no_frame accumulator scan_index) := by
  rw [hdlc_sync_finalize_poll_no_frame_hunting hhunting]
  refine ⟨fun _ => ?_, fun hstate => absurd hhunting hstate⟩
  simp only [HdlcSyncAccumulator.position, List.length_drop] at hscanned ⊢
  omega

/-- What a poll of a frame of the largest size leaves: a candidate, or an
accumulator at rest. -/
def PollRests (polled : HdlcSyncPolled) : Prop :=
  polled.result = .E2S_OK ∧ Rests polled.accumulator ∨ polled.result = .E2S_ERR_HDLC_ACC_FRAME_READY

theorem FitCursor.rests {cursor : HdlcSyncCursor} {polled : HdlcSyncPolled} (h : FitCursor cursor)
    (hexit : PollExit cursor polled) : PollRests polled := by
  have hcapacity := h.capacity_le
  cases hexit with
  | exhausted hend =>
    refine .inl ⟨rfl, ?_⟩
    by_cases hhunting : cursor.accumulator.state = .HDLC_SYNC_STATE_HUNTING
    · exact rests_finalize_hunting hhunting hend
    · exact rests_finalize_locked hhunting (Nat.le_trans hend (h.short hhunting))
  | miss hinside hhunting hnone => exact .inl ⟨rfl, rests_finalize_hunting hhunting (Nat.le_refl _)⟩
  | wait syncing synced hinside hlocked hshort hnone =>
    have hlast := h.position_le_of_aligned_none hnone
    obtain ⟨hstart, hlength⟩ := h.locked hlocked
    refine .inl ⟨rfl, rests_finalize_locked hlocked ?_⟩
    simp only [HdlcSyncAccumulator.position] at hlast ⊢
    omega
  | overflow hinside hlocked hshort hfull => omega
  | close hinside hsynced hshort hroom haligned => exact .inr rfl

/-- Leaving without a frame keeps the relation, with the cursor of a candidate
as the next one to start from. -/
theorem FitCursor.finalize {cursor : HdlcSyncCursor} (h : FitCursor cursor) {accumulator : HdlcSyncAccumulator}
    {scan_index : Nat} {awaiting : Bool} (hstate : accumulator.state = cursor.accumulator.state)
    (hstart : accumulator.candidate_start = cursor.accumulator.candidate_start)
    (hscan : cursor.accumulator.state ≠ .HDLC_SYNC_STATE_HUNTING → scan_index = cursor.scan_index)
    (hinvariant : ReceiveInvariant
      ⟨hdlc_sync_finalize_poll_no_frame accumulator scan_index, cursor.out_frame, awaiting⟩) :
    FitState ⟨hdlc_sync_finalize_poll_no_frame accumulator scan_index, cursor.out_frame, awaiting⟩ := by
  by_cases hhunting : accumulator.state = .HDLC_SYNC_STATE_HUNTING
  · rw [hdlc_sync_finalize_poll_no_frame_hunting hhunting] at hinvariant ⊢
    exact
      { hinvariant with
        capacity_le := h.capacity_le
        fresh := fun _ => rfl
        short := fun hlocked => absurd hhunting hlocked
        syncing := fun hsyncing => by
          rw [hhunting] at hsyncing
          cases hsyncing }
  · rw [hdlc_sync_finalize_poll_no_frame_locked hhunting] at hinvariant ⊢
    rw [hstate] at hhunting
    refine
      { hinvariant with
        capacity_le := h.capacity_le
        fresh := fun hhunts => absurd (hstate ▸ hhunts) hhunting
        short := fun _ => ?_
        syncing := fun hsyncing => ?_ }
    · simp only [hscan hhunting, hstart]
      exact h.short hhunting
    · simp only [hscan hhunting, hstart]
      exact h.syncing (hstate ▸ hsyncing)

theorem FitCursor.exit {cursor : HdlcSyncCursor} {polled : HdlcSyncPolled} (h : FitCursor cursor)
    (hturn : hdlc_sync_poll_turn cursor = .inr polled) :
    FitState
      { accumulator := polled.accumulator
        out_frame := polled.out_frame
        awaiting := polled.result = .E2S_ERR_HDLC_ACC_FRAME_READY } := by
  have hinvariant := h.toCursorInvariant.exit hturn
  cases pollExit_of_inr hturn with
  | exhausted hend => exact h.finalize rfl rfl (fun _ => rfl) hinvariant
  | miss hinside hhunting hnone => exact h.finalize rfl rfl (fun hlocked => absurd hhunting hlocked) hinvariant
  | wait syncing synced hinside hlocked hshort hnone => exact h.finalize rfl rfl (fun _ => rfl) hinvariant
  | overflow hinside hlocked hshort hfull =>
    have hcapacity := h.capacity_le
    omega
  | close hinside hsynced hshort hroom haligned =>
    exact
      { hinvariant with
        capacity_le := h.capacity_le
        fresh := fun _ => rfl
        short := fun hstate => absurd rfl hstate
        syncing := fun hstate => by cases hstate }

theorem FitState.cursor {s : ReceiveState} (h : FitState s) (hconsumed : s.awaiting = false) :
    FitCursor ⟨s.accumulator, s.out_frame, s.accumulator.processed⟩ where
  capacity_pos := h.capacity_pos
  position_le := h.position_le
  processed_le := h.processed_le
  scan_le := h.processed_le
  bit_offset_lt := h.bit_offset_lt
  length_le := h.length_le
  locked := h.locked
  synced := h.synced
  invalid := by
    rw [← Bool.not_eq_true]
    intro hvalid
    obtain ⟨hawaiting, -⟩ := h.valid hvalid
    rw [hconsumed] at hawaiting
    cases hawaiting
  capacity_le := h.capacity_le
  fresh := h.fresh
  short := h.short
  syncing := h.syncing

/-- The early returns of a poll agree with its loop. -/
theorem FitState.poll_eq {s : ReceiveState} (h : FitState s) :
    hdlc_sync_acc_poll s.accumulator s.out_frame =
      pollLoop.run ⟨s.accumulator, s.out_frame, s.accumulator.processed⟩ := by
  have hprocessed := h.processed_le
  have hexhausted : s.accumulator.position ≤ s.accumulator.processed →
      pollLoop.run ⟨s.accumulator, s.out_frame, s.accumulator.processed⟩ =
        ⟨.E2S_OK, s.accumulator, s.out_frame⟩ := by
    intro hend
    have hfinal : hdlc_sync_finalize_poll_no_frame s.accumulator s.accumulator.processed = s.accumulator := by
      by_cases hhunting : s.accumulator.state = .HDLC_SYNC_STATE_HUNTING
      · have hzero := h.fresh hhunting
        rw [hdlc_sync_finalize_poll_no_frame_hunting hhunting]
        generalize s.accumulator = accumulator at hzero ⊢
        cases accumulator
        cases hzero
        rfl
      · rw [hdlc_sync_finalize_poll_no_frame_locked hhunting]
    have hturn : hdlc_sync_poll_turn ⟨s.accumulator, s.out_frame, s.accumulator.processed⟩ =
        .inr ⟨.E2S_OK, s.accumulator, s.out_frame⟩ := by
      rw [hdlc_sync_poll_turn, if_neg (Nat.not_lt_of_le hend), hfinal]
    exact Loop.Terminating.run_of_inr hturn
  unfold hdlc_sync_acc_poll
  split
  case isTrue hzero => exact absurd hzero (Nat.pos_iff_ne_zero.mp h.capacity_pos)
  split
  case isTrue hempty => exact (hexhausted (by omega)).symm
  split
  case isTrue hlocked =>
    obtain ⟨hstart, -⟩ := h.locked hlocked.1
    exact (hexhausted (by omega)).symm
  rfl

/-- The poll loop runs from a cursor to an exit, both inside the relation and
any further invariant of its turns. -/
theorem FitCursor.exists_exit {cursor : HdlcSyncCursor} (h : FitCursor cursor) (invariant : HdlcSyncCursor → Prop)
    (hstep : ∀ cursor next, FitCursor cursor → invariant cursor → PollProgress cursor next → invariant next)
    (hinit : invariant cursor) :
    ∃ last, FitCursor last ∧ invariant last ∧ hdlc_sync_poll_turn last = .inr (pollLoop.run cursor) := by
  obtain ⟨last, ⟨hfit, hlast⟩, hexit⟩ := pollLoop.exists_exit (fun cursor => FitCursor cursor ∧ invariant cursor)
    (fun cursor next hcursor hturn =>
      ⟨hcursor.1.step hturn, hstep cursor next hcursor.1 hcursor.2 (pollProgress_of_inl hturn)⟩)
    ⟨h, hinit⟩
  exact ⟨last, hfit, hlast, hexit⟩

theorem FitState.exists_exit {s : ReceiveState} (h : FitState s) (hconsumed : s.awaiting = false)
    (invariant : HdlcSyncCursor → Prop)
    (hstep : ∀ cursor next, FitCursor cursor → invariant cursor → PollProgress cursor next → invariant next)
    (hinit : invariant ⟨s.accumulator, s.out_frame, s.accumulator.processed⟩) :
    ∃ last, FitCursor last ∧ invariant last ∧
      hdlc_sync_poll_turn last = .inr (hdlc_sync_acc_poll s.accumulator s.out_frame) := by
  rw [h.poll_eq]
  exact (h.cursor hconsumed).exists_exit invariant hstep hinit

theorem FitState.poll {s : ReceiveState} (h : FitState s) (hconsumed : s.awaiting = false) :
    FitState
      { accumulator := (hdlc_sync_acc_poll s.accumulator s.out_frame).accumulator
        out_frame := (hdlc_sync_acc_poll s.accumulator s.out_frame).out_frame
        awaiting := (hdlc_sync_acc_poll s.accumulator s.out_frame).result = .E2S_ERR_HDLC_ACC_FRAME_READY } := by
  obtain ⟨last, hlast, -, hexit⟩ := h.exists_exit hconsumed (fun _ => True) (fun _ _ _ _ _ => trivial) trivial
  exact hlast.exit hexit

theorem FitState.pollRests {s : ReceiveState} (h : FitState s) (hconsumed : s.awaiting = false) :
    PollRests (hdlc_sync_acc_poll s.accumulator s.out_frame) := by
  obtain ⟨last, hlast, -, hexit⟩ := h.exists_exit hconsumed (fun _ => True) (fun _ _ _ _ _ => trivial) trivial
  exact hlast.rests (pollExit_of_inr hexit)

theorem FitState.process_byte {s : ReceiveState} (h : FitState s) (byte : UInt8) :
    FitState { s with accumulator := (hdlc_sync_acc_process_byte s.accumulator byte).2 } := by
  have hinvariant := h.toReceiveInvariant.process_byte byte
  have hframe : ∃ buffer, (hdlc_sync_acc_process_byte s.accumulator byte).2 = { s.accumulator with buffer } := by
    unfold hdlc_sync_acc_process_byte
    split
    · exact ⟨_, rfl⟩
    · exact ⟨_, rfl⟩
  obtain ⟨buffer, hbuffer⟩ := hframe
  rw [hbuffer] at hinvariant ⊢
  exact { hinvariant with capacity_le := h.capacity_le, fresh := h.fresh, short := h.short, syncing := h.syncing }

/-- A hunting accumulator with a fresh cursor satisfies the relation. -/
theorem fitState_of_fresh {s : ReceiveState} (hinvariant : ReceiveInvariant s)
    (hcapacity : HDLC_SYNC_MAX_REASONABLE_FRAME_SIZE_BYTES ≤ s.out_frame.capacity)
    (hhunting : s.accumulator.state = .HDLC_SYNC_STATE_HUNTING) (hprocessed : s.accumulator.processed = 0) :
    FitState s :=
  { hinvariant with
    capacity_le := hcapacity
    fresh := fun _ => hprocessed
    short := fun hstate => absurd hhunting hstate
    syncing := fun hstate => by
      rw [hhunting] at hstate
      cases hstate }

theorem state_consume_candidate {accumulator : HdlcSyncAccumulator} (accept : Bool)
    (hvalid : accumulator.candidate_valid = true) :
    (hdlc_sync_acc_consume_candidate accumulator accept).state = .HDLC_SYNC_STATE_HUNTING ∧
      (hdlc_sync_acc_consume_candidate accumulator accept).processed = 0 := by
  have hreset : ∃ base, hdlc_sync_acc_consume_candidate accumulator accept =
      hdlc_sync_hard_cap (hdlc_sync_reset_hunting_state base) := by
    unfold hdlc_sync_acc_consume_candidate
    rw [if_neg (by simp [hvalid])]
    exact ⟨_, rfl⟩
  obtain ⟨base, hbase⟩ := hreset
  obtain ⟨dropped, events, bytes, hcap⟩ := @hdlc_sync_hard_cap_cases (hdlc_sync_reset_hunting_state base) rfl
  rw [hbase, hcap]
  exact ⟨rfl, rfl⟩

theorem FitState.consume {s : ReceiveState} (h : FitState s) (hawaiting : s.awaiting = true) (accept clear : Bool) :
    FitState
      { accumulator := hdlc_sync_acc_consume_candidate s.accumulator accept
        out_frame := if clear then { s.out_frame with payload := [] } else s.out_frame
        awaiting := false } := by
  obtain ⟨hstate, hprocessed⟩ := state_consume_candidate accept (h.reported hawaiting)
  refine fitState_of_fresh (h.toReceiveInvariant.consume hawaiting accept clear) ?_ hstate hprocessed
  cases clear <;> exact h.capacity_le

theorem fitState_drainTurn {verdict : Nat → Bool} {backlog next : Backlog}
    (h : FitState ⟨backlog.accumulator, backlog.out_frame, false⟩) (hturn : backlog.drainTurn verdict = .inl next) :
    FitState ⟨next.accumulator, next.out_frame, false⟩ := by
  have hpoll := h.poll rfl
  unfold Backlog.drainTurn at hturn
  simp only at hturn
  split at hturn
  · rename_i hready
    cases hturn
    exact hpoll.consume (by simp [hready]) _ false
  · cases hturn

theorem ReceiveStep.preserves_fit {s next : ReceiveState} (hstep : ReceiveStep s next) (h : FitState s) :
    FitState next := by
  have hinvariant := hstep.preserves h.toReceiveInvariant
  cases hstep with
  | init sync_byte => exact fitState_of_fresh hinvariant h.capacity_le rfl rfl
  | process_byte byte => exact h.process_byte byte
  | poll hconsumed => exact h.poll hconsumed
  | consume accept clear hawaiting => exact h.consume hawaiting accept clear
  | reset => exact fitState_of_fresh hinvariant h.capacity_le rfl rfl

theorem fitState_start (sync_byte : UInt8) {out_frame : HdlcFrame}
    (hcapacity : HDLC_SYNC_MAX_REASONABLE_FRAME_SIZE_BYTES ≤ out_frame.capacity)
    (hlength : out_frame.length ≤ out_frame.capacity) : FitState (.start sync_byte out_frame) := by
  have hpos : 0 < out_frame.capacity := Nat.lt_of_lt_of_le (Nat.succ_pos _) hcapacity
  exact fitState_of_fresh (receiveInvariant_of_idle hpos hlength (Nat.zero_le _) rfl rfl rfl rfl) hcapacity rfl rfl

theorem fitState_of_reachable {sync_byte : UInt8} {out_frame : HdlcFrame} {s : ReceiveState}
    (hcapacity : HDLC_SYNC_MAX_REASONABLE_FRAME_SIZE_BYTES ≤ out_frame.capacity)
    (hlength : out_frame.length ≤ out_frame.capacity)
    (hreach : Relation.ReflTransGen ReceiveStep (.start sync_byte out_frame) s) : FitState s := by
  induction hreach with
  | refl => exact fitState_start sync_byte hcapacity hlength
  | tail _ hstep ih => exact hstep.preserves_fit ih

end ether2ser.hdlc_sync
