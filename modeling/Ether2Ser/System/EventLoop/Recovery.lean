import Ether2Ser.Hdlc.Stream.Held
import Ether2Ser.Sync.Drain
import Ether2Ser.System.EventLoop.Delivery

open Bits
open ether2ser.error ether2ser.hdlc ether2ser.hdlc_common ether2ser.hdlc_sync ether2ser.pio_tx_rx_driver
open ether2ser.tx_queue

namespace ether2ser.event_loop

variable {σ : Type} {hw : TxHardware σ}

/-- The receive path between two calls of the synchroniser, when no candidate is
waiting to be consumed. -/
def LoopState.receiveState (state : LoopState σ) : ReceiveState where
  accumulator := state.app.accumulator
  out_frame := state.app.reconstructed_frame
  awaiting := false

/-- A call of the synchroniser that keeps its sync byte. -/
def FlagStep (s next : ReceiveState) : Prop :=
  ReceiveStep s next ∧ (s.accumulator.sync_byte = HDLC_FLAG_BYTE → next.accumulator.sync_byte = HDLC_FLAG_BYTE)

/-- What the loop does to its receive path is a sequence of such calls. -/
def Drives (state next : LoopState σ) : Prop := Relation.ReflTransGen FlagStep state.receiveState next.receiveState

/-- What every such call keeps. -/
theorem Drives.keeps {state next : LoopState σ} (h : Drives state next) {invariant : ReceiveState → Prop}
    (hstep : ∀ s s', FlagStep s s' → invariant s → invariant s') (hstart : invariant state.receiveState) :
    invariant next.receiveState := by
  unfold Drives at h
  generalize next.receiveState = reached at h
  induction h with
  | refl => exact hstart
  | tail _ hlast ih => exact hstep _ _ hlast ih

theorem Drives.fit {state next : LoopState σ} (h : Drives state next) (hfit : FitState state.receiveState) :
    FitState next.receiveState :=
  h.keeps (fun _ _ hstep => hstep.1.preserves_fit) hfit

theorem sync_byte_acc_process_byte (accumulator : HdlcSyncAccumulator) (byte : UInt8) :
    (hdlc_sync_acc_process_byte accumulator byte).2.sync_byte = accumulator.sync_byte := by
  unfold hdlc_sync_acc_process_byte
  split <;> rfl

theorem sync_byte_dropped (accumulator : HdlcSyncAccumulator) (drop_count : Nat) :
    (HdlcSyncAccumulator.sync_byte <| hdlc_sync_drop_prefix accumulator drop_count) = accumulator.sync_byte := by
  rw [hdlc_sync_drop_prefix_eq]

theorem sync_byte_finalize_poll_no_frame (accumulator : HdlcSyncAccumulator) (scan_index : Nat) :
    (hdlc_sync_finalize_poll_no_frame accumulator scan_index).sync_byte = accumulator.sync_byte := by
  by_cases hhunting : accumulator.state = .HDLC_SYNC_STATE_HUNTING
  · rw [hdlc_sync_finalize_poll_no_frame_hunting hhunting]
  · rw [hdlc_sync_finalize_poll_no_frame_locked hhunting]

theorem sync_byte_acc_poll (accumulator : HdlcSyncAccumulator) (out_frame : HdlcFrame) :
    (hdlc_sync_acc_poll accumulator out_frame).accumulator.sync_byte = accumulator.sync_byte := by
  obtain hidle | ⟨last, hlast, hexit⟩ := hdlc_sync_acc_poll_cases accumulator out_frame
    (fun cursor => cursor.accumulator.sync_byte = accumulator.sync_byte)
    (by
      intro cursor next hcursor hturn
      cases pollProgress_of_inl hturn with
      | lock => exact hcursor
      | oversized => exact (sync_byte_dropped _ _).trans hcursor
      | store => exact hcursor)
    rfl
  · rw [hidle]
  · rw [← hlast]
    generalize hdlc_sync_acc_poll accumulator out_frame = polled at hexit
    cases pollExit_of_inr hexit with
    | exhausted => exact sync_byte_finalize_poll_no_frame _ _
    | miss => exact sync_byte_finalize_poll_no_frame _ _
    | wait => exact sync_byte_finalize_poll_no_frame _ _
    | overflow => rfl
    | close => rfl

theorem sync_byte_acc_consume_candidate (accumulator : HdlcSyncAccumulator) (accept : Bool) :
    (hdlc_sync_acc_consume_candidate accumulator accept).sync_byte = accumulator.sync_byte := by
  have hcap : ∀ accumulator : HdlcSyncAccumulator,
      (hdlc_sync_hard_cap accumulator).sync_byte = accumulator.sync_byte := by
    intro accumulator
    unfold hdlc_sync_hard_cap
    split
    · exact sync_byte_dropped _ _
    · rfl
  have hreset : ∀ accumulator : HdlcSyncAccumulator,
      (hdlc_sync_reset_hunting_state accumulator).sync_byte = accumulator.sync_byte := fun _ => rfl
  unfold hdlc_sync_acc_consume_candidate
  simp only
  split
  · rfl
  · rw [hcap, hreset]
    generalize min (if accept then _ else _) accumulator.position = drop
    split
    · exact sync_byte_dropped _ _
    · rfl

theorem drives_of_rxHalf_eq {state next : LoopState σ} (h : next.rxHalf = state.rxHalf) : Drives state next := by
  simp only [LoopState.rxHalf, RxHalf.mk.injEq] at h
  have hsame : next.receiveState = state.receiveState := by
    rw [LoopState.receiveState, h.2.1, h.2.2.1]
    rfl
  rw [Drives, hsame]

theorem drives_receiveByte (state : LoopState σ) (rx_byte : UInt8) : Drives state (receiveByte state rx_byte) := by
  have hprocess : FlagStep state.receiveState
      { state.receiveState with
        accumulator := (hdlc_sync_acc_process_byte state.app.accumulator rx_byte).2 } :=
    ⟨.process_byte state.receiveState rx_byte, (sync_byte_acc_process_byte state.app.accumulator rx_byte).trans⟩
  unfold receiveByte
  simp only
  split
  · exact .refl
  · generalize hdlc_sync_acc_process_byte state.app.accumulator rx_byte = result at hprocess
    obtain ⟨accepted, accumulator⟩ := result
    cases accepted <;> exact .single hprocess

theorem drives_drain_rx_until_empty (state : LoopState σ) (rx : List UInt8) :
    Drives state (drain_rx_until_empty state rx) :=
  List.foldlRecOn (motive := fun next => Drives state next) rx _ .refl fun _ hdriven rx_byte _ =>
    hdriven.trans (drives_receiveByte _ rx_byte)

/-- A resync starts over with the flag as the sync byte. -/
theorem drives_resync {state next : LoopState σ}
    (haccumulator : next.app.accumulator = hdlc_sync_acc_init HDLC_FLAG_BYTE)
    (hframe : next.app.reconstructed_frame = { state.app.reconstructed_frame with payload := [] }) :
    Drives state next := by
  have hnext : next.receiveState = { accumulator := hdlc_sync_acc_init HDLC_FLAG_BYTE
                                     out_frame := { state.app.reconstructed_frame with payload := [] }
                                     awaiting := false } := by
    rw [LoopState.receiveState, haccumulator, hframe]
  rw [Drives, hnext]
  exact .single ⟨.reset state.receiveState, fun _ => rfl⟩

theorem drives_poll_hdlc_idle_timeout (state : LoopState σ) (now_us : Nat) :
    Drives state (poll_hdlc_idle_timeout state now_us) := by
  unfold poll_hdlc_idle_timeout
  simp only
  split
  · exact drives_resync rfl rfl
  · exact .refl

theorem drives_poll_hdlc_no_progress (state : LoopState σ) : Drives state (poll_hdlc_no_progress state) := by
  unfold poll_hdlc_no_progress
  simp only
  split_ifs
  all_goals first
    | exact .refl
    | exact drives_resync rfl rfl

/-- A decoded frame is emptied. -/
theorem reconstructed_frame_decode_hdlc_to_udp_tx (state : LoopState σ) :
    (decode_hdlc_to_udp_tx state).app.reconstructed_frame = { state.app.reconstructed_frame with payload := [] } := by
  unfold decode_hdlc_to_udp_tx
  simp only
  split
  · rfl
  · unfold rejectDecoded
    simp only
    split <;> rfl

/-- A turn polls, and consumes the candidate or starts over. -/
theorem drives_drainTurn (state : LoopState σ) :
    (∀ next, drainTurn state = .inl next → Drives state next) ∧
      ∀ last, drainTurn state = .inr last → Drives state last := by
  have hpoll : FlagStep state.receiveState
      { accumulator := (hdlc_sync_acc_poll state.app.accumulator state.app.reconstructed_frame).accumulator
        out_frame := (hdlc_sync_acc_poll state.app.accumulator state.app.reconstructed_frame).out_frame
        awaiting := (hdlc_sync_acc_poll state.app.accumulator state.app.reconstructed_frame).result =
          .E2S_ERR_HDLC_ACC_FRAME_READY } :=
    ⟨.poll state.receiveState rfl, (sync_byte_acc_poll _ _).trans⟩
  unfold drainTurn
  simp only
  generalize hdlc_sync_acc_poll state.app.accumulator state.app.reconstructed_frame = polled at hpoll
  by_cases hready : polled.result = .E2S_ERR_HDLC_ACC_FRAME_READY
  · rw [if_pos hready]
    refine ⟨fun next hnext => ?_, fun last hlast => by cases hlast⟩
    cases hnext
    rw [decide_eq_true hready] at hpoll
    refine .tail (.single hpoll) ?_
    obtain ⟨accept, hconsumed⟩ | hfresh := accumulator_decode_hdlc_to_udp_tx
      { state with
        app := { state.app with accumulator := polled.accumulator, reconstructed_frame := polled.out_frame } }
    · rw [LoopState.receiveState, hconsumed, reconstructed_frame_decode_hdlc_to_udp_tx]
      exact ⟨.consume _ accept true rfl, (sync_byte_acc_consume_candidate _ accept).trans⟩
    · rw [LoopState.receiveState, hfresh, reconstructed_frame_decode_hdlc_to_udp_tx]
      exact ⟨.reset _, fun _ => rfl⟩
  · rw [if_neg hready]
    rw [decide_eq_false hready] at hpoll
    refine ⟨fun next hnext => ?_, fun last hlast => ?_⟩
    · split at hnext <;> cases hnext
    · split at hlast
      · cases hlast
        refine .tail (.single hpoll) ?_
        exact ⟨.reset _, fun _ => rfl⟩
      · cases hlast
        exact .single hpoll

theorem drives_drain_hdlc_frames_to_udp (state : LoopState σ) : Drives state (drain_hdlc_frames_to_udp state) := by
  obtain ⟨last, hlast, hexit⟩ := framesLoop.exists_exit (fun turn : LoopState σ => Drives state turn)
    (fun turn next hturn hbody => hturn.trans ((drives_drainTurn turn).1 next hbody)) .refl
  exact hlast.trans ((drives_drainTurn last).2 _ hexit)

/-- The events leave the receive path alone, whatever settings they change. -/
theorem receive_event_dispatch (event : DataPathEvent) (app : AppCtx σ) :
    (event_dispatch hw app event).accumulator = app.accumulator ∧
      (event_dispatch hw app event).reconstructed_frame = app.reconstructed_frame ∧
      (event_dispatch hw app event).udp_tx = app.udp_tx := by
  cases event with
  | set_v24_baudrate baudrate =>
    unfold event_dispatch
    simp only
    split <;> exact ⟨rfl, rfl, rfl⟩
  | set_v24_polarities => exact ⟨rfl, rfl, rfl⟩
  | set_v24_clock_mode external_clock =>
    unfold event_dispatch
    simp only
    split <;> exact ⟨rfl, rfl, rfl⟩
  | other => exact ⟨rfl, rfl, rfl⟩

theorem receive_finishIteration (state : LoopState σ) (input : LoopInput) :
    (finishIteration hw state input).receiveState = state.receiveState ∧
      (finishIteration hw state input).app.udp_tx = state.app.udp_tx := by
  have hevents : ∀ (events : List DataPathEvent) (app : AppCtx σ),
      (events.foldl (event_dispatch hw) app).accumulator = app.accumulator ∧
        (events.foldl (event_dispatch hw) app).reconstructed_frame = app.reconstructed_frame ∧
        (events.foldl (event_dispatch hw) app).udp_tx = app.udp_tx := by
    intro events app
    induction events generalizing app with
    | nil => exact ⟨rfl, rfl, rfl⟩
    | cons event events ih =>
      obtain ⟨haccumulator, hframe, hsent⟩ := @receive_event_dispatch σ hw event app
      obtain ⟨haccumulator', hframe', hsent'⟩ := ih (event_dispatch hw app event)
      exact ⟨haccumulator'.trans haccumulator, hframe'.trans hframe, hsent'.trans hsent⟩
  have hcounted : (countRxStall (update_statistics state) input.rx_stall).receiveState = state.receiveState ∧
      (countRxStall (update_statistics state) input.rx_stall).app.udp_tx = state.app.udp_tx := by
    unfold countRxStall
    split <;> exact ⟨rfl, rfl⟩
  rw [← hcounted.1, ← hcounted.2]
  simp only [LoopState.receiveState, finishIteration, poll_and_dispatch_events, hevents, and_self]

theorem drives_beforeFrames (state : LoopState σ) (input : LoopInput) : Drives state (beforeFrames hw state input) := by
  have hserved := drives_of_rxHalf_eq (@rxHalf_serveTransmit σ hw
    (update_rx_drain_stats (drain_rx_until_empty state input.rx_early) input.rx_early.length input.early_us)
    input.datagram)
  have hbefore : Drives state (beforeDrain hw state input) :=
    (drives_drain_rx_until_empty state input.rx_early).trans hserved
  exact (hbefore.trans (drives_drain_rx_until_empty _ input.rx)).trans
    (drives_poll_hdlc_idle_timeout (beforeTimeout hw state input) input.now_us)

theorem drives_iteration (state : LoopState σ) (input : LoopInput) :
    Drives state (event_loop_iteration hw state input) := by
  have hdriven := ((@drives_beforeFrames σ hw state input).trans (drives_drain_hdlc_frames_to_udp _)).trans
    (drives_poll_hdlc_no_progress _)
  rw [event_loop_iteration_eq, Drives, (receive_finishIteration _ input).1]
  exact hdriven

theorem drives_run (state : LoopState σ) (inputs : List LoopInput) : Drives state (event_loop_run hw state inputs) :=
  List.foldlRecOn (motive := fun next => Drives state next) inputs _ .refl fun _ hdriven input _ =>
    hdriven.trans (drives_iteration _ input)

theorem fit_boot (v24_config : V24Config) (tx_rts_holdoff_us : Nat) (pio : σ) :
    FitState (LoopState.boot v24_config tx_rts_holdoff_us pio).receiveState :=
  @fitState_start HDLC_FLAG_BYTE (.empty RX_HDLC_SYNC_MAX_BUFFER_SIZE) (by decide) (Nat.zero_le _)

/-- With every frame decoded, the accumulator rests. -/
theorem rests_drain_hdlc_frames_to_udp {state : LoopState σ} (hfit : FitState state.receiveState) :
    Rests (drain_hdlc_frames_to_udp state).app.accumulator := by
  obtain ⟨last, hlast, hexit⟩ := framesLoop.exists_exit (fun turn : LoopState σ => FitState turn.receiveState)
    (fun turn next hturn hbody => ((drives_drainTurn turn).1 next hbody).fit hturn) hfit
  change drainTurn last = .inr (drain_hdlc_frames_to_udp state) at hexit
  have hrests := hlast.pollRests rfl
  unfold drainTurn at hexit
  simp only at hexit
  simp only [LoopState.receiveState] at hrests
  generalize hdlc_sync_acc_poll last.app.accumulator last.app.reconstructed_frame = polled at hexit hrests
  obtain ⟨hok, hrests⟩ | hready := hrests
  · rw [hok, if_neg (by decide), if_neg (by decide)] at hexit
    injection hexit with hexit
    rw [← hexit]
    exact hrests
  · rw [if_pos hready] at hexit
    cases hexit

/-- The accumulator rests at the end of every iteration. -/
theorem rests_iteration {state : LoopState σ} (hfit : FitState state.receiveState) (input : LoopInput) :
    Rests (event_loop_iteration hw state input).app.accumulator := by
  have hframes : FitState (beforeFrames hw state input).receiveState := (drives_beforeFrames state input).fit hfit
  have hdrained := rests_drain_hdlc_frames_to_udp hframes
  have hprogress : ∀ state : LoopState σ, Rests state.app.accumulator →
      Rests (poll_hdlc_no_progress state).app.accumulator := by
    intro state hrests
    unfold poll_hdlc_no_progress
    simp only
    split_ifs
    all_goals first
      | exact hrests
      | exact ⟨fun _ => Nat.zero_le 1, fun hlocked => absurd rfl hlocked⟩
  have hsame := (@receive_finishIteration σ hw
    (poll_hdlc_no_progress (drain_hdlc_frames_to_udp (beforeFrames hw state input))) input).1
  rw [← event_loop_iteration_eq] at hsame
  have haccumulator := congrArg ReceiveState.accumulator hsame
  change (event_loop_iteration hw state input).app.accumulator = _ at haccumulator
  rw [haccumulator]
  exact hprogress _ hdrained

theorem rests_run {state : LoopState σ} (hfit : FitState state.receiveState) (hrests : Rests state.app.accumulator)
    (inputs : List LoopInput) : Rests (event_loop_run hw state inputs).app.accumulator := by
  rcases List.eq_nil_or_concat inputs with rfl | ⟨before, input, rfl⟩
  · exact hrests
  · have hbefore : FitState (event_loop_run hw state before).receiveState := (drives_run state before).fit hfit
    rw [List.concat_eq_append, event_loop_run, List.foldl_append]
    exact rests_iteration hbefore input

/-- The loop uses the synchroniser as it is meant to be used: however its inputs
come, and whatever settings they change, each state of the receive path is reached
by the calls and resets that the synchroniser allows, and its accumulator rests. -/
theorem event_loop_refines_receive (hw : TxHardware σ) (v24_config : V24Config) (tx_rts_holdoff_us : Nat) (pio : σ)
    (inputs : List LoopInput) :
    Relation.ReflTransGen ReceiveStep (.start HDLC_FLAG_BYTE (.empty RX_HDLC_SYNC_MAX_BUFFER_SIZE))
        (event_loop_run hw (.boot v24_config tx_rts_holdoff_us pio) inputs).receiveState ∧
      (event_loop_run hw (.boot v24_config tx_rts_holdoff_us pio) inputs).app.accumulator.sync_byte =
        HDLC_FLAG_BYTE ∧
      Rests (event_loop_run hw (.boot v24_config tx_rts_holdoff_us pio) inputs).app.accumulator := by
  have hdriven := @drives_run σ hw (.boot v24_config tx_rts_holdoff_us pio) inputs
  refine ⟨hdriven.lift id fun _ _ hstep => hstep.1, hdriven.keeps (fun _ _ hstep => hstep.2) rfl, ?_⟩
  exact rests_run (fit_boot _ _ _) ⟨fun _ => Nat.zero_le 1, fun hlocked => absurd rfl hlocked⟩ inputs

/-- Nothing arrives for longer than the idle timeout. -/
structure Silent (state : LoopState σ) (input : LoopInput) : Prop where
  rx_early : input.rx_early = []
  rx : input.rx = []
  received : state.runtime.last_rx_byte_us ≠ 0
  late : input.now_us - state.runtime.last_rx_byte_us > HDLC_SYNC_IDLE_TIMEOUT_US

/-- Nothing is left of what has been received so far. -/
structure Quiet (state : LoopState σ) : Prop where
  hunting : state.app.accumulator.state = .HDLC_SYNC_STATE_HUNTING
  position_zero : state.app.accumulator.position = 0
  length_zero : state.app.reconstructed_frame.length = 0

/-- A drain that reads nothing. -/
theorem rxHalf_update_rx_drain_stats_nil (state : LoopState σ) (now_us : Nat) :
    (update_rx_drain_stats (drain_rx_until_empty state []) ([] : List UInt8).length now_us).rxHalf = state.rxHalf := by
  rw [drain_rx_until_empty, List.foldl_nil, List.length_nil]
  rfl

theorem Silent.rxHalf_beforeTimeout {state : LoopState σ} {input : LoopInput} (h : Silent state input) :
    (beforeTimeout hw state input).rxHalf = state.rxHalf := by
  rw [beforeTimeout, h.rx, rxHalf_update_rx_drain_stats_nil, beforeDrain, rxHalf_serveTransmit, h.rx_early,
    rxHalf_update_rx_drain_stats_nil]

/-- The timeout gives up on whatever is in progress. -/
theorem quiet_poll_hdlc_idle_timeout {state : LoopState σ} {now_us : Nat}
    (hreceived : state.runtime.last_rx_byte_us ≠ 0)
    (hlate : now_us - state.runtime.last_rx_byte_us > HDLC_SYNC_IDLE_TIMEOUT_US) :
    Quiet (poll_hdlc_idle_timeout state now_us) ∧
      (poll_hdlc_idle_timeout state now_us).app.udp_tx = state.app.udp_tx := by
  unfold poll_hdlc_idle_timeout
  simp only
  split
  · exact ⟨⟨rfl, rfl, rfl⟩, rfl⟩
  · rename_i hnothing
    simp only [hreceived, hlate, ne_eq, not_false_eq_true, and_self, and_true, not_or, not_not] at hnothing
    exact ⟨⟨hnothing.1, Nat.eq_zero_of_not_pos hnothing.2.1, Nat.eq_zero_of_not_pos hnothing.2.2⟩, rfl⟩

theorem Silent.quiet_beforeFrames {state : LoopState σ} {input : LoopInput} (h : Silent state input) :
    Quiet (beforeFrames hw state input) ∧ (beforeFrames hw state input).app.udp_tx = state.app.udp_tx := by
  have hsame := @Silent.rxHalf_beforeTimeout σ hw state input h
  have hlast := congrArg RxHalf.last_rx_byte_us hsame
  have hsent := congrArg RxHalf.udp_tx hsame
  change (beforeTimeout hw state input).runtime.last_rx_byte_us = state.runtime.last_rx_byte_us at hlast
  change (beforeTimeout hw state input).app.udp_tx = state.app.udp_tx at hsent
  have hquiet := @quiet_poll_hdlc_idle_timeout σ (beforeTimeout hw state input) input.now_us
    (by rw [hlast]; exact h.received) (by rw [hlast]; exact h.late)
  rw [hsent] at hquiet
  exact hquiet

theorem Quiet.drain_hdlc_frames_to_udp {state : LoopState σ} (h : Quiet state) :
    drain_hdlc_frames_to_udp state = state := by
  have hpoll : hdlc_sync_acc_poll state.app.accumulator state.app.reconstructed_frame =
      ⟨.E2S_OK, state.app.accumulator, state.app.reconstructed_frame⟩ := by
    unfold hdlc_sync_acc_poll
    rw [h.position_zero]
    split <;> rfl
  apply Loop.Terminating.run_of_inr
  change drainTurn state = .inr state
  unfold drainTurn
  simp only [hpoll]
  rfl

/-- With nothing in progress, no progress is expected. -/
theorem poll_hdlc_no_progress_of_idle {state : LoopState σ}
    (hidle : ¬ (state.app.accumulator.state ≠ .HDLC_SYNC_STATE_HUNTING ∨
      state.app.accumulator.candidate_valid = true ∨ state.app.reconstructed_frame.length > 0)) :
    ∃ last_frame_ready_bytes, poll_hdlc_no_progress state =
      { state with runtime := { state.runtime with last_frame_ready_bytes } } := by
  unfold poll_hdlc_no_progress
  simp only
  rw [if_neg fun hprogress => hidle hprogress.2.1]
  exact ⟨_, rfl⟩

/-- Silence leaves nothing behind, whatever has been received before. -/
theorem Silent.iteration {state : LoopState σ} {input : LoopInput} (h : Silent state input)
    (hfit : FitState state.receiveState) :
    Quiet (event_loop_iteration hw state input) ∧
      (event_loop_iteration hw state input).app.udp_tx = state.app.udp_tx := by
  obtain ⟨hquiet, hsent⟩ := @Silent.quiet_beforeFrames σ hw state input h
  have hframes : FitState (beforeFrames hw state input).receiveState := (drives_beforeFrames state input).fit hfit
  have hinvalid : (beforeFrames hw state input).app.accumulator.candidate_valid ≠ true :=
    fun hvalid => Bool.false_ne_true (hframes.valid hvalid).1
  have hidle : ¬ ((beforeFrames hw state input).app.accumulator.state ≠ .HDLC_SYNC_STATE_HUNTING ∨
      (beforeFrames hw state input).app.accumulator.candidate_valid = true ∨
      (beforeFrames hw state input).app.reconstructed_frame.length > 0) := by
    rw [hquiet.hunting, hquiet.length_zero]
    simp [hinvalid]
  obtain ⟨ready_bytes, hprogress⟩ := poll_hdlc_no_progress_of_idle hidle
  obtain ⟨hsame, hkept⟩ := @receive_finishIteration σ hw (poll_hdlc_no_progress (beforeFrames hw state input)) input
  rw [event_loop_iteration_eq, hquiet.drain_hdlc_frames_to_udp]
  rw [hprogress] at hsame hkept ⊢
  refine ⟨?_, hkept.trans hsent⟩
  simp only [LoopState.receiveState, ReceiveState.mk.injEq] at hsame
  exact ⟨by rw [hsame.1, hquiet.hunting], by rw [hsame.1, hquiet.position_zero], by rw [hsame.2.1, hquiet.length_zero]⟩

/-- A quiet receive path is in step with whatever line begins now. -/
theorem Quiet.tracks {state : LoopState σ} (h : Quiet state) (hfit : FitState state.receiveState)
    (hflag : state.app.accumulator.sync_byte = HDLC_FLAG_BYTE) {ts : List (Transmission true)} {lastGap : Nat}
    {bytes : List UInt8} (hbits : bytesBits true bytes = streamBits ts lastGap)
    (hsize : ∀ t ∈ ts, t.frame.length ≤ HDLC_SYNC_MAX_REASONABLE_FRAME_SIZE_BYTES) (lead : Nat) :
    state.Tracks bytes 0 lead (ts.map (·.payload)) where
  line := .hunts
    { hunting := h.hunting
      sync := hflag
      scan_zero := hfit.fresh h.hunting
      line := by
        refine ⟨8, by decide, ?_⟩
        have hbuffer : state.app.accumulator.buffer = [] := List.length_eq_zero_iff.mp h.position_zero
        rw [lineBits_eq, ← hbits]
        simp only [restCursor, HdlcSyncAccumulator.rawBits, hbuffer]
        rfl
      position_le := by
        have hposition := h.position_zero
        simp only [restCursor]
        omega } hsize
  capacity_le := hfit.capacity_le

/-- From a quiet receive path on, the frames of the line are delivered. -/
theorem Quiet.delivers {state : LoopState σ} (h : Quiet state) (hfit : FitState state.receiveState)
    (hflag : state.app.accumulator.sync_byte = HDLC_FLAG_BYTE)
    (hinternal : state.app.v24_config.external_clock = false) {ts : List (Transmission true)} {lastGap : Nat}
    {inputs : List LoopInput} {unread : List UInt8}
    (hbits : bytesBits true (serialBytes inputs ++ unread) = streamBits ts lastGap)
    (hsize : ∀ t ∈ ts, t.frame.length ≤ HDLC_SYNC_MAX_REASONABLE_FRAME_SIZE_BYTES)
    (hkeeps : ∀ input ∈ inputs, KeepsSettings input.events)
    (hresyncs : (event_loop_run hw state inputs).resyncs = state.resyncs)
    (hclear : ∀ accumulator ∈ loopPolls hw state inputs, PollClear accumulator) :
    ∃ taken rest, ts.map (·.payload) = taken ++ rest ∧
      (event_loop_run hw state inputs).app.udp_tx = state.app.udp_tx ++ taken ∧ (unread = [] → rest = []) := by
  have htracks := h.tracks hfit hflag hbits hsize RX_HDLC_SYNC_MAX_BUFFER_SIZE
  obtain ⟨taken, rest, hpayloads, hrest, hsent⟩ := htracks.run hinternal hkeeps hresyncs hclear
  refine ⟨taken, rest, hpayloads, hsent, ?_⟩
  rintro rfl
  exact hdlc_sync.Tracks.payloads_eq_nil hrest.line

/-- A silence after any run. -/
structure SilentAfter (hw : TxHardware σ) (boot : LoopState σ) (past : List LoopInput)
    (silence : LoopInput) : Prop where
  silent : Silent (event_loop_run hw boot past) silence
  internal : (event_loop_run hw boot (past ++ [silence])).app.v24_config.external_clock = false

/-- Recovery: whatever the bridge has received and however its settings have
changed, once nothing has arrived for longer than the idle timeout, the frames that
begin from then on are delivered in order, and all of them once they have been
read, as long as it stays on its internal clock, no resync is counted and no poll
meets the hard cap or the exhaustive search. -/
theorem delivers_after_silence (hw : TxHardware σ) (v24_config : V24Config) (tx_rts_holdoff_us : Nat) (pio : σ)
    {past later : List LoopInput} {silence : LoopInput}
    (hsilence : SilentAfter hw (.boot v24_config tx_rts_holdoff_us pio) past silence) {ts : List (Transmission true)}
    {lastGap : Nat} {unread : List UInt8}
    (hbits : bytesBits true (serialBytes later ++ unread) = streamBits ts lastGap)
    (hsize : ∀ t ∈ ts, t.frame.length ≤ HDLC_SYNC_MAX_REASONABLE_FRAME_SIZE_BYTES)
    (hkeeps : ∀ input ∈ later, KeepsSettings input.events)
    (hresyncs : (event_loop_run hw (.boot v24_config tx_rts_holdoff_us pio) (past ++ silence :: later)).resyncs =
      (event_loop_run hw (.boot v24_config tx_rts_holdoff_us pio) (past ++ [silence])).resyncs)
    (hclear : ∀ accumulator ∈
      loopPolls hw (event_loop_run hw (.boot v24_config tx_rts_holdoff_us pio) (past ++ [silence])) later,
      PollClear accumulator) :
    ∃ taken rest, ts.map (·.payload) = taken ++ rest ∧
      (event_loop_run hw (.boot v24_config tx_rts_holdoff_us pio) (past ++ silence :: later)).app.udp_tx =
        (event_loop_run hw (.boot v24_config tx_rts_holdoff_us pio) past).app.udp_tx ++ taken ∧
      (unread = [] → rest = []) := by
  have hbefore : ∀ inputs, Drives (.boot v24_config tx_rts_holdoff_us pio)
      (event_loop_run hw (.boot v24_config tx_rts_holdoff_us pio) inputs) := drives_run _
  have hlast : event_loop_run hw (.boot v24_config tx_rts_holdoff_us pio) (past ++ [silence]) =
      event_loop_iteration hw (event_loop_run hw (.boot v24_config tx_rts_holdoff_us pio) past) silence :=
    List.foldl_append
  have hlater : event_loop_run hw (.boot v24_config tx_rts_holdoff_us pio) (past ++ silence :: later) =
      event_loop_run hw (event_loop_run hw (.boot v24_config tx_rts_holdoff_us pio) (past ++ [silence])) later := by
    rw [hlast]
    exact List.foldl_append
  obtain ⟨hquiet, hsent⟩ := @Silent.iteration σ hw _ _ hsilence.silent ((hbefore past).fit (fit_boot _ _ _))
  rw [← hlast] at hquiet hsent
  rw [hlater] at hresyncs ⊢
  rw [← hsent]
  exact hquiet.delivers ((hbefore _).fit (fit_boot _ _ _)) ((hbefore _).keeps (fun _ _ hstep => hstep.2) rfl)
    hsilence.internal hbits hsize hkeeps hresyncs hclear

/-- A cut frame, a silence, and a whole frame. -/
def cutFrame : List LoopInput := [{ LoopInput.idle with rx := [0x7E, 0x41, 0x55, 0xFF], now_us := 1000 }]

def thirtyMilliseconds : LoopInput := { LoopInput.idle with early_us := 30000, now_us := 30000 }

def wholeFrame : List LoopInput := [{ LoopInput.idle with rx := [0x7E, 2, 0xC1, 0xB2, 0x7E], now_us := 31000 }]

theorem delivers_after_silence_one :
    (event_loop_run txLine (.boot { baudrate := 9600, external_clock := false } 4305 (.boot []))
      (cutFrame ++ thirtyMilliseconds :: wholeFrame)).app.udp_tx =
    (event_loop_run txLine (.boot { baudrate := 9600, external_clock := false } 4305 (.boot []))
      cutFrame).app.udp_tx ++ [[2]] := by
  obtain ⟨taken, rest, hpayloads, hsent, hall⟩ :=
    @delivers_after_silence _ txLine { baudrate := 9600, external_clock := false } 4305 (.boot []) cutFrame wholeFrame
      thirtyMilliseconds ⟨⟨rfl, rfl, by decide +kernel, by decide +kernel⟩, by decide +kernel⟩
      [Transmission.exact true 0 [2]] 0 [] (by decide +kernel) (by decide +kernel) (by decide) (by decide +kernel)
      (by decide +kernel)
  rw [hall rfl, List.append_nil] at hpayloads
  rw [hsent, ← hpayloads]
  rfl

end ether2ser.event_loop
