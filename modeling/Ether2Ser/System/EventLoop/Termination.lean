import Ether2Ser.System.EventLoop

open ether2ser.error ether2ser.hdlc_common ether2ser.hdlc_decoder ether2ser.hdlc_sync

namespace ether2ser.event_loop

variable {σ : Type}

/-- `decode_hdlc_to_udp_tx` with the verdict of the decoder left open. -/
def decodeWith (verdict : Except HdlcDecodeError (List UInt8)) (state : LoopState σ) : LoopState σ :=
  let state :=
    { app := { state.app with
        stats := { state.app.stats with hdlc_frame_ready := state.app.stats.hdlc_frame_ready + 1 } }
      runtime := { state.runtime with
        work_done := true
        last_frame_ready_bytes := state.app.stats.serial_rx_bytes } }
  let state :=
    match verdict with
    | .ok payload => acceptDecoded state payload
    | .error error => rejectDecoded state error
  { state with app := { state.app with
      reconstructed_frame := { state.app.reconstructed_frame with payload := [] } } }

theorem decode_hdlc_to_udp_tx_eq_decodeWith (state : LoopState σ) :
    decode_hdlc_to_udp_tx state = decodeWith (hdlc_decode state.app.reconstructed_frame TX_BUF_SIZE true) state := rfl

/-- The loop of `drain_hdlc_frames_to_udp` beside the number of frames that it
has been told are ready. The verdict on each may depend on its number and on
its bytes. -/
def drainTurnWith (verdict : Nat → HdlcFrame → Except HdlcDecodeError (List UInt8)) (draining : LoopState σ × Nat) :
    (LoopState σ × Nat) ⊕ (LoopState σ × Nat) :=
  let (state, frames_ready) := draining
  let polled := hdlc_sync_acc_poll state.app.accumulator state.app.reconstructed_frame
  let state := { state with
    app := { state.app with accumulator := polled.accumulator, reconstructed_frame := polled.out_frame } }
  if polled.result = .E2S_ERR_HDLC_ACC_FRAME_READY then
    .inl (decodeWith (verdict frames_ready polled.out_frame) state, frames_ready + 1)
  else if polled.result ≠ .E2S_OK then .inr ({ state with app := state.app.resync }, frames_ready)
  else .inr (state, frames_ready)

section

variable {verdict : Nat → HdlcFrame → Except HdlcDecodeError (List UInt8)}

/-- Whatever the verdict, the candidate is consumed or the accumulator reset. -/
theorem accumulator_decodeWith (verdict : Except HdlcDecodeError (List UInt8)) (state : LoopState σ) :
    (∃ accept, (decodeWith verdict state).app.accumulator =
        hdlc_sync_acc_consume_candidate state.app.accumulator accept) ∨
      (decodeWith verdict state).app.accumulator = hdlc_sync_acc_init HDLC_FLAG_BYTE := by
  cases verdict with
  | ok payload => exact .inl ⟨true, rfl⟩
  | error error =>
    unfold decodeWith rejectDecoded
    dsimp only
    split
    · exact .inr rfl
    · exact .inl ⟨false, rfl⟩

/-- A turn that goes on has one more frame and fewer raw bytes. -/
theorem drainTurnWith_shrinks {draining next : LoopState σ × Nat} (hturn : drainTurnWith verdict draining = .inl next) :
    next.2 = draining.2 + 1 ∧ next.1.app.accumulator.position < draining.1.app.accumulator.position := by
  obtain ⟨state, frames_ready⟩ := draining
  unfold drainTurnWith at hturn
  dsimp only at hturn
  split at hturn
  · rename_i hready
    have hconsumed := position_consume_of_frame_ready hready
    cases hturn
    refine ⟨rfl, ?_⟩
    rcases @accumulator_decodeWith σ _ _ with ⟨accept, hnext⟩ | hnext
    · rw [hnext]
      exact hconsumed accept
    · rw [hnext]
      exact Nat.zero_lt_of_lt (hconsumed true)
  · split at hturn <;> cases hturn

theorem frames_ready_of_leave {draining last : LoopState σ × Nat} (hturn : drainTurnWith verdict draining = .inr last) :
    last.2 = draining.2 := by
  unfold drainTurnWith at hturn
  dsimp only at hturn
  split at hturn
  · cases hturn
  · split at hturn
    · cases hturn
      rfl
    · cases hturn
      rfl

end

/-- The loop over the frames, for any verdicts. -/
def verdictLoop (verdict : Nat → HdlcFrame → Except HdlcDecodeError (List UInt8)) :
    Loop.Terminating (LoopState σ × Nat) (LoopState σ × Nat) where
  body := drainTurnWith verdict
  variant := fun draining => draining.1.app.accumulator.position
  decreases := fun _ _ hturn => (drainTurnWith_shrinks hturn).2

/-- Every frame that is ready costs a raw byte. -/
theorem frames_ready_le (verdict : Nat → HdlcFrame → Except HdlcDecodeError (List UInt8)) (state : LoopState σ) :
    ((verdictLoop verdict).run (state, 0)).2 ≤ state.app.accumulator.position := by
  obtain ⟨last, hlast, hexit⟩ := (verdictLoop verdict).exists_exit
    (fun draining => draining.2 + draining.1.app.accumulator.position ≤ state.app.accumulator.position)
    (fun draining next hle hturn => by
      obtain ⟨hcount, hless⟩ := drainTurnWith_shrinks hturn
      omega)
    (show (state, 0).2 + (state, 0).1.app.accumulator.position ≤ _ from Nat.le_of_eq (Nat.zero_add _))
  have hcount := frames_ready_of_leave hexit
  omega

/-- With the verdicts of the decoder, it is the loop of the event loop. -/
theorem verdictLoop_hdlc_decode (state : LoopState σ) :
    ((verdictLoop fun _ frame => hdlc_decode frame TX_BUF_SIZE true).run (state, 0)).1 =
      drain_hdlc_frames_to_udp state := by
  refine @Loop.Terminating.run_related _ _ _ _ _ framesLoop (fun draining state => draining.1 = state)
    (fun (drained : LoopState σ × Nat) state => drained.1 = state) ?_ (state, 0) state rfl
  rintro ⟨state, frames_ready⟩ _ rfl
  unfold verdictLoop framesLoop drainTurnWith drainTurn
  dsimp only
  split
  · rw [decode_hdlc_to_udp_tx_eq_decodeWith]
    exact .inl rfl
  · split
    · exact .inr rfl
    · exact .inr rfl

/-- Receive processing ends. A poll leaves its loop within the turns that its
variant bounds, from any accumulator and frame. For any verdicts, draining
leaves its loop after at most as many frames as there are raw bytes. No poll
adds raw bytes, and consuming a reported candidate or rejecting an oversized
one takes some away. -/
theorem receive_processing_terminates :
    (∀ cursor, Loop.iterate hdlc_sync_poll_turn (pollVariant cursor + 1) cursor = some (pollLoop.run cursor)) ∧
    (∀ (verdict : Nat → HdlcFrame → Except HdlcDecodeError (List UInt8)) (state : LoopState σ),
      ∃ drained frames_ready,
        Loop.iterate (drainTurnWith verdict) (state.app.accumulator.position + 1) (state, 0) =
          some (drained, frames_ready) ∧
        frames_ready ≤ state.app.accumulator.position) ∧
    (∀ state : LoopState σ, ∃ frames_ready,
      Loop.iterate (drainTurnWith fun _ frame => hdlc_decode frame TX_BUF_SIZE true)
        (state.app.accumulator.position + 1) (state, 0) = some (drain_hdlc_frames_to_udp state, frames_ready)) ∧
    (∀ accumulator out_frame,
      (hdlc_sync_acc_poll accumulator out_frame).accumulator.position ≤ accumulator.position) ∧
    (∀ accumulator out_frame accept,
      (hdlc_sync_acc_poll accumulator out_frame).result = .E2S_ERR_HDLC_ACC_FRAME_READY →
      (hdlc_sync_acc_consume_candidate (hdlc_sync_acc_poll accumulator out_frame).accumulator accept).position <
        (hdlc_sync_acc_poll accumulator out_frame).accumulator.position) ∧
    (∀ cursor : HdlcSyncCursor, 0 < cursor.accumulator.position →
      (hdlc_sync_reject_oversized_candidate cursor).accumulator.position < cursor.accumulator.position) := by
  refine ⟨pollLoop.iterate_eq_run, fun verdict state => ?_, fun state => ?_, position_acc_poll_le,
    fun accumulator out_frame accept hready => ?_, fun cursor hposition => ?_⟩
  · exact ⟨_, _, (verdictLoop verdict).iterate_eq_run (state, 0), frames_ready_le verdict state⟩
  · have hrun := (verdictLoop fun _ frame => hdlc_decode frame TX_BUF_SIZE true).iterate_eq_run (state, 0)
    rw [← verdictLoop_hdlc_decode]
    exact ⟨_, hrun⟩
  · obtain ⟨hvalid, hend, hpos⟩ := hdlc_sync_acc_poll_frame_ready hready
    exact position_consume_candidate_lt accept hvalid hend hpos
  · simp only [hdlc_sync_reject_oversized_candidate, position_reset_hunting_state, position_drop_prefix]
    omega

end ether2ser.event_loop
