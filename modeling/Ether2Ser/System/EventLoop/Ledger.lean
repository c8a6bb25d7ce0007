import Ether2Ser.System.EventLoop.Throttle

open ether2ser.error ether2ser.hdlc_common ether2ser.hdlc_decoder ether2ser.hdlc_encoder ether2ser.hdlc_sync
open ether2ser.pio_tx_rx_driver ether2ser.ringbuffer ether2ser.tx_queue

namespace ether2ser.event_loop

variable {σ : Type} {hw : TxHardware σ}

/-- What the loop keeps about the serial bytes on their way to the network. -/
structure RxLedger where
  serial_rx_bytes : Nat
  hunt_idle_drop_bytes : Nat
  serial_rx_drop_acc_full : Nat
  hdlc_frame_ready : Nat
  hdlc_decode_ok : Nat
  hdlc_decode_fail : Nat
  udp_tx_frames : Nat
  reasons : HdlcDecodeStats

def LoopState.rxLedger (state : LoopState σ) : RxLedger where
  serial_rx_bytes := state.app.stats.serial_rx_bytes
  hunt_idle_drop_bytes := state.app.stats.hunt_idle_drop_bytes
  serial_rx_drop_acc_full := state.app.stats.serial_rx_drop_acc_full
  hdlc_frame_ready := state.app.stats.hdlc_frame_ready
  hdlc_decode_ok := state.app.stats.hdlc_decode_ok
  hdlc_decode_fail := state.app.stats.hdlc_decode_fail
  udp_tx_frames := state.app.stats.udp_tx_frames
  reasons := state.app.hdlc_decode_stats

/-- Whether a received byte is appended to the accumulator. -/
def appends (state : LoopState σ) (rx_byte : UInt8) : Bool :=
  !(event_loop_should_drop_hunt_idle_byte state.app rx_byte state.runtime.hunt_idle_run_length).1 &&
    (hdlc_sync_acc_process_byte state.app.accumulator rx_byte).1

/-- The bytes of a receive drain that are appended to the accumulator. -/
def appendedInDrain (state : LoopState σ) : List UInt8 → Nat
  | [] => 0
  | rx_byte :: rx => (if appends state rx_byte then 1 else 0) + appendedInDrain (receiveByte state rx_byte) rx

/-- The state in which the second receive drain of an iteration begins. -/
def beforeDrain (hw : TxHardware σ) (state : LoopState σ) (input : LoopInput) : LoopState σ :=
  serveTransmit hw
    (update_rx_drain_stats (drain_rx_until_empty state input.rx_early) input.rx_early.length input.early_us)
    input.datagram

/-- The state in which an iteration looks at the idle timeout. -/
def beforeTimeout (hw : TxHardware σ) (state : LoopState σ) (input : LoopInput) : LoopState σ :=
  update_rx_drain_stats (drain_rx_until_empty (beforeDrain hw state input) input.rx) input.rx.length input.now_us

/-- The state in which the frames of an iteration are drained. -/
def beforeFrames (hw : TxHardware σ) (state : LoopState σ) (input : LoopInput) : LoopState σ :=
  poll_hdlc_idle_timeout
    (update_rx_drain_stats (drain_rx_until_empty (beforeDrain hw state input) input.rx) input.rx.length input.now_us)
    input.now_us

/-- The end of an iteration: statistics and events. -/
def finishIteration (hw : TxHardware σ) (state : LoopState σ) (input : LoopInput) : LoopState σ :=
  let state := poll_and_dispatch_events hw (countRxStall (update_statistics state) input.rx_stall) input.events
  { state with runtime := { state.runtime with work_done := false } }

theorem event_loop_iteration_eq (hw : TxHardware σ) (state : LoopState σ) (input : LoopInput) :
    event_loop_iteration hw state input =
      finishIteration hw (poll_hdlc_no_progress (drain_hdlc_frames_to_udp (beforeFrames hw state input))) input := rfl

/-- The bytes that a run of the loop appends to the accumulator. -/
def appendedBytes (hw : TxHardware σ) (state : LoopState σ) : List LoopInput → Nat
  | [] => 0
  | input :: inputs =>
    appendedInDrain state input.rx_early + appendedInDrain (beforeDrain hw state input) input.rx +
      appendedBytes hw (event_loop_iteration hw state input) inputs

/-- The reasons for which frames have been rejected. -/
def HdlcDecodeStats.total (stats : HdlcDecodeStats) : Nat :=
  stats.invalid_frame + stats.too_short + stats.payload_too_long + stats.unstuff_error + stats.crc_mismatch

theorem total_record (stats : HdlcDecodeStats) (error : HdlcDecodeError) :
    HdlcDecodeStats.total (stats.record error) = HdlcDecodeStats.total stats + 1 := by
  cases error <;> simp only [HdlcDecodeStats.total, HdlcDecodeStats.record] <;> omega

/-- Every reported frame has been decoded or rejected for one reason, and every
decoded one has been sent. -/
structure FramesBalanced (ledger : RxLedger) : Prop where
  ready_eq : ledger.hdlc_frame_ready = ledger.hdlc_decode_ok + ledger.hdlc_decode_fail
  sent_eq : ledger.udp_tx_frames = ledger.hdlc_decode_ok
  fail_eq : ledger.hdlc_decode_fail = HdlcDecodeStats.total ledger.reasons

theorem framesBalanced_decode_hdlc_to_udp_tx {state : LoopState σ} (h : FramesBalanced state.rxLedger) :
    FramesBalanced (decode_hdlc_to_udp_tx state).rxLedger := by
  obtain ⟨hready, hsent, hfail⟩ := h
  simp only [LoopState.rxLedger] at hready hsent hfail
  unfold decode_hdlc_to_udp_tx
  simp only
  split
  · refine ⟨?_, congrArg (· + 1) hsent, hfail⟩
    simp only [acceptDecoded, LoopState.rxLedger]
    omega
  · rename_i error _
    have hreason := total_record state.app.hdlc_decode_stats error
    unfold rejectDecoded
    simp only
    split <;> refine ⟨?_, hsent, ?_⟩ <;> simp only [LoopState.rxLedger] <;> omega

/-- A turn over the frames counts frames only. -/
structure SameBytes (ledger other : RxLedger) : Prop where
  received : other.serial_rx_bytes = ledger.serial_rx_bytes
  idle : other.hunt_idle_drop_bytes = ledger.hunt_idle_drop_bytes
  full : other.serial_rx_drop_acc_full = ledger.serial_rx_drop_acc_full

theorem SameBytes.trans {first second third : RxLedger} (h : SameBytes first second) (h' : SameBytes second third) :
    SameBytes first third :=
  ⟨h'.received.trans h.received, h'.idle.trans h.idle, h'.full.trans h.full⟩

theorem sameBytes_decode_hdlc_to_udp_tx (state : LoopState σ) :
    SameBytes state.rxLedger (decode_hdlc_to_udp_tx state).rxLedger := by
  unfold decode_hdlc_to_udp_tx
  simp only
  split
  · exact ⟨rfl, rfl, rfl⟩
  · unfold rejectDecoded
    simp only
    split <;> exact ⟨rfl, rfl, rfl⟩

theorem rxLedger_drainTurn_inl {state next : LoopState σ} (hturn : drainTurn state = .inl next)
    (h : FramesBalanced state.rxLedger) : FramesBalanced next.rxLedger ∧ SameBytes state.rxLedger next.rxLedger := by
  unfold drainTurn at hturn
  simp only at hturn
  split at hturn
  · cases hturn
    refine ⟨framesBalanced_decode_hdlc_to_udp_tx h, ?_⟩
    exact ⟨(sameBytes_decode_hdlc_to_udp_tx _).received, (sameBytes_decode_hdlc_to_udp_tx _).idle,
      (sameBytes_decode_hdlc_to_udp_tx _).full⟩
  · split at hturn <;> cases hturn

theorem rxLedger_drainTurn_inr {state last : LoopState σ} (hturn : drainTurn state = .inr last) :
    last.rxLedger = state.rxLedger := by
  unfold drainTurn at hturn
  simp only at hturn
  split at hturn
  · cases hturn
  · split at hturn <;> cases hturn <;> rfl

theorem rxLedger_drain_hdlc_frames_to_udp {state : LoopState σ} (h : FramesBalanced state.rxLedger) :
    FramesBalanced (drain_hdlc_frames_to_udp state).rxLedger ∧
      SameBytes state.rxLedger (drain_hdlc_frames_to_udp state).rxLedger := by
  obtain ⟨last, ⟨hbalanced, hsame⟩, hexit⟩ := framesLoop.exists_exit
    (fun turn : LoopState σ => FramesBalanced turn.rxLedger ∧ SameBytes state.rxLedger turn.rxLedger)
    (fun turn next hturn hbody =>
      ⟨(rxLedger_drainTurn_inl hbody hturn.1).1, hturn.2.trans (rxLedger_drainTurn_inl hbody hturn.1).2⟩)
    ⟨h, rfl, rfl, rfl⟩
  have hlast : (drain_hdlc_frames_to_udp state).rxLedger = last.rxLedger := rxLedger_drainTurn_inr hexit
  rw [hlast]
  exact ⟨hbalanced, hsame⟩

/-- A received byte is appended or counted in one of the two drop counters. -/
theorem rxLedger_receiveByte (state : LoopState σ) (rx_byte : UInt8) :
    ∃ hunt_idle_drop_bytes serial_rx_drop_acc_full,
      (receiveByte state rx_byte).rxLedger =
        { state.rxLedger with hunt_idle_drop_bytes, serial_rx_drop_acc_full } ∧
      hunt_idle_drop_bytes + serial_rx_drop_acc_full + (if appends state rx_byte then 1 else 0) =
        state.rxLedger.hunt_idle_drop_bytes + state.rxLedger.serial_rx_drop_acc_full + 1 := by
  unfold receiveByte appends
  simp only
  split
  · rename_i hdrop
    refine ⟨_, _, rfl, ?_⟩
    simp only [hdrop, Bool.not_true, Bool.false_and, Bool.false_eq_true, if_false, LoopState.rxLedger]
    omega
  · rename_i hdrop
    rw [Bool.not_eq_true] at hdrop
    split
    · rename_i accumulator happend
      refine ⟨_, _, rfl, ?_⟩
      simp only [hdrop, happend, Bool.not_false, Bool.and_self, if_true, LoopState.rxLedger]
    · rename_i accumulator hfull
      refine ⟨_, _, rfl, ?_⟩
      simp only [hdrop, hfull, Bool.not_false, Bool.and_false, Bool.false_eq_true, if_false, LoopState.rxLedger]
      omega

theorem rxLedger_drain_rx_until_empty (state : LoopState σ) (rx : List UInt8) :
    ∃ hunt_idle_drop_bytes serial_rx_drop_acc_full,
      (drain_rx_until_empty state rx).rxLedger =
        { state.rxLedger with hunt_idle_drop_bytes, serial_rx_drop_acc_full } ∧
      hunt_idle_drop_bytes + serial_rx_drop_acc_full + appendedInDrain state rx =
        state.rxLedger.hunt_idle_drop_bytes + state.rxLedger.serial_rx_drop_acc_full + rx.length := by
  unfold drain_rx_until_empty
  induction rx generalizing state with
  | nil => exact ⟨_, _, rfl, rfl⟩
  | cons rx_byte rx ih =>
    obtain ⟨idle, full, hbyte, hcount⟩ := rxLedger_receiveByte state rx_byte
    obtain ⟨idle', full', hrest, hcounts⟩ := ih (receiveByte state rx_byte)
    rw [hbyte] at hrest hcounts
    refine ⟨idle', full', hrest, ?_⟩
    simp only [appendedInDrain, List.length_cons] at hcounts ⊢
    omega

theorem rxLedger_update_rx_drain_stats (state : LoopState σ) (rx_drained now_us : Nat) :
    (update_rx_drain_stats state rx_drained now_us).rxLedger =
      { state.rxLedger with serial_rx_bytes := state.rxLedger.serial_rx_bytes + rx_drained } := rfl

theorem rxLedger_poll_and_enqueue_udp_rx (state : LoopState σ) (datagram : Option (List UInt8)) :
    (poll_and_enqueue_udp_rx state datagram).rxLedger = state.rxLedger := by
  unfold poll_and_enqueue_udp_rx
  cases datagram with
  | none => rfl
  | some payload =>
    simp only
    split_ifs <;> rfl

theorem rxLedger_update_udp_rx_throttle_state (state : LoopState σ) :
    (update_udp_rx_throttle_state state).rxLedger = state.rxLedger := by
  unfold update_udp_rx_throttle_state
  simp only
  split_ifs <;> rfl

theorem rxLedger_serveTransmit (state : LoopState σ) (datagram : Option (List UInt8)) :
    (serveTransmit hw state datagram).rxLedger = state.rxLedger := by
  have hthrottle : (update_udp_rx_throttle_state (pollTxPipeline hw state)).rxLedger = state.rxLedger :=
    rxLedger_update_udp_rx_throttle_state _
  unfold serveTransmit
  generalize update_udp_rx_throttle_state (pollTxPipeline hw state) = throttled at hthrottle ⊢
  simp only
  split
  · exact (rxLedger_poll_and_enqueue_udp_rx _ datagram).trans hthrottle
  · exact hthrottle

/-- The transmit side leaves the settings and the accumulator alone. -/
theorem serveTransmit_keeps (state : LoopState σ) (datagram : Option (List UInt8)) :
    (serveTransmit hw state datagram).app.v24_config = state.app.v24_config ∧
      (serveTransmit hw state datagram).app.accumulator = state.app.accumulator := by
  have hthrottle :
      (update_udp_rx_throttle_state (pollTxPipeline hw state)).app.v24_config = state.app.v24_config ∧
        (update_udp_rx_throttle_state (pollTxPipeline hw state)).app.accumulator = state.app.accumulator := by
    unfold update_udp_rx_throttle_state
    simp only
    split_ifs <;> exact ⟨rfl, rfl⟩
  unfold serveTransmit
  generalize update_udp_rx_throttle_state (pollTxPipeline hw state) = throttled at hthrottle ⊢
  simp only
  split
  · unfold poll_and_enqueue_udp_rx
    cases datagram with
    | none => exact hthrottle
    | some payload =>
      simp only
      split_ifs <;> exact hthrottle
  · exact hthrottle

theorem rxLedger_poll_hdlc_idle_timeout (state : LoopState σ) (now_us : Nat) :
    (poll_hdlc_idle_timeout state now_us).rxLedger = state.rxLedger := by
  unfold poll_hdlc_idle_timeout
  simp only
  split <;> rfl

theorem rxLedger_poll_hdlc_no_progress (state : LoopState σ) :
    (poll_hdlc_no_progress state).rxLedger = state.rxLedger := by
  unfold poll_hdlc_no_progress
  simp only
  split_ifs <;> rfl

/-- No event of the control plane reaches the decoder. -/
theorem poll_and_dispatch_events_keeps_decoder (state : LoopState σ) (events : List DataPathEvent) :
    (poll_and_dispatch_events hw state events).app.stats = state.app.stats ∧
      (poll_and_dispatch_events hw state events).app.hdlc_decode_stats = state.app.hdlc_decode_stats ∧
      (poll_and_dispatch_events hw state events).app.accumulator = state.app.accumulator := by
  unfold poll_and_dispatch_events
  simp only
  obtain ⟨v24_config, driver, hevents⟩ := @foldl_event_dispatch_frame σ hw (events.take _) state.app
  rw [hevents]
  exact ⟨rfl, rfl, rfl⟩

theorem countRxStall_keeps_decoder (state : LoopState σ) (rx_stall : Bool) :
    (countRxStall state rx_stall).rxLedger = state.rxLedger ∧
      (countRxStall state rx_stall).app.stats.decode_fail = state.app.stats.decode_fail := by
  unfold countRxStall
  split <;> exact ⟨rfl, rfl⟩

/-- At the end of an iteration, what the decoder has counted is copied into the
statistics. -/
theorem rxLedger_finishIteration (state : LoopState σ) (input : LoopInput) :
    (finishIteration hw state input).rxLedger = state.rxLedger ∧
      (finishIteration hw state input).app.stats.decode_fail = state.app.hdlc_decode_stats := by
  obtain ⟨hstats, hreasons, -⟩ := @poll_and_dispatch_events_keeps_decoder σ hw
    (countRxStall (update_statistics state) input.rx_stall) input.events
  obtain ⟨hledger, hcopied⟩ := countRxStall_keeps_decoder (update_statistics state) input.rx_stall
  constructor
  · simp only [finishIteration, LoopState.rxLedger, hstats, hreasons]
    exact hledger
  · simp only [finishIteration, hstats]
    exact hcopied

/-- The books of the receive path at the end of an iteration, given the number
of bytes that have been appended to the accumulator. -/
structure RxBalanced (state : LoopState σ) (appended : Nat) : Prop where
  frames : FramesBalanced state.rxLedger
  bytes_eq : state.rxLedger.serial_rx_bytes =
    state.rxLedger.hunt_idle_drop_bytes + state.rxLedger.serial_rx_drop_acc_full + appended
  copied : state.app.stats.decode_fail = state.app.hdlc_decode_stats

theorem RxBalanced.iteration {state : LoopState σ} {appended : Nat} (h : RxBalanced state appended)
    (input : LoopInput) :
    RxBalanced (event_loop_iteration hw state input)
      (appended + (appendedInDrain state input.rx_early + appendedInDrain (beforeDrain hw state input) input.rx)) := by
  obtain ⟨idle, full, hearly, hcount⟩ := rxLedger_drain_rx_until_empty state input.rx_early
  have hbefore : (beforeDrain hw state input).rxLedger =
      { state.rxLedger with
        serial_rx_bytes := state.rxLedger.serial_rx_bytes + input.rx_early.length
        hunt_idle_drop_bytes := idle
        serial_rx_drop_acc_full := full } := by
    rw [beforeDrain, rxLedger_serveTransmit, rxLedger_update_rx_drain_stats, hearly]
  obtain ⟨idle', full', hdrain, hcounts⟩ := rxLedger_drain_rx_until_empty (beforeDrain hw state input) input.rx
  rw [hbefore] at hdrain hcounts
  have hledger : (beforeFrames hw state input).rxLedger =
      { state.rxLedger with
        serial_rx_bytes := state.rxLedger.serial_rx_bytes + input.rx_early.length + input.rx.length
        hunt_idle_drop_bytes := idle'
        serial_rx_drop_acc_full := full' } := by
    rw [beforeFrames, rxLedger_poll_hdlc_idle_timeout, rxLedger_update_rx_drain_stats, hdrain]
  have hframes : FramesBalanced (beforeFrames hw state input).rxLedger := by
    rw [hledger]
    exact ⟨h.frames.ready_eq, h.frames.sent_eq, h.frames.fail_eq⟩
  obtain ⟨hbalanced, hsame⟩ := rxLedger_drain_hdlc_frames_to_udp hframes
  obtain ⟨hfinish, hcopied⟩ := @rxLedger_finishIteration σ hw
    (poll_hdlc_no_progress (drain_hdlc_frames_to_udp (beforeFrames hw state input))) input
  rw [← event_loop_iteration_eq] at hfinish hcopied
  have hend := hfinish.trans (rxLedger_poll_hdlc_no_progress _)
  refine ⟨hend ▸ hbalanced, ?_, ?_⟩
  · rw [hend, hsame.received, hsame.idle, hsame.full, hledger]
    have hbytes := h.bytes_eq
    simp only at hcounts ⊢
    omega
  · exact hcopied.trans (congrArg RxLedger.reasons hfinish).symm

theorem RxBalanced.run {state : LoopState σ} {appended : Nat} (h : RxBalanced state appended)
    (inputs : List LoopInput) :
    RxBalanced (event_loop_run hw state inputs) (appended + appendedBytes hw state inputs) := by
  induction inputs generalizing state appended with
  | nil => exact h
  | cons input inputs ih =>
    have hrun := ih (@RxBalanced.iteration σ hw state appended h input)
    rw [appendedBytes, ← Nat.add_assoc appended]
    exact hrun

/-- Every datagram has been queued, dropped at a full queue, or has failed to
encode. -/
def TxBalanced (ledger : TxLedger) : Prop :=
  ledger.udp_rx_frames = ledger.hdlc_tx_frames + ledger.tx_queue_drop_frames +
    ledger.enqueue_results.count .E2S_ERR_HDLC_ENCODE_FAILED

/-- An enqueue succeeds, finds the queue full, or fails in the encoder. -/
theorem tx_queue_enqueue_udp_frame_result (queue : TxQueue) (payload : List UInt8) :
    (tx_queue_enqueue_udp_frame queue payload).1 = .E2S_OK ∨
      (tx_queue_enqueue_udp_frame queue payload).1 = .E2S_ERR_TX_QUEUE_FULL ∨
      (tx_queue_enqueue_udp_frame queue payload).1 = .E2S_ERR_HDLC_ENCODE_FAILED := by
  unfold tx_queue_enqueue_udp_frame
  split
  · exact .inr (.inl rfl)
  · rename_i hroom
    split
    · exact .inr (.inr rfl)
    · rename_i frame _
      rw [RbPushBack, if_neg hroom]
      exact .inl rfl

theorem txBalanced_poll_and_enqueue {state : LoopState σ} (h : TxBalanced state.ledger)
    (datagram : Option (List UInt8)) : TxBalanced (poll_and_enqueue_udp_rx state datagram).ledger := by
  unfold poll_and_enqueue_udp_rx
  cases datagram with
  | none => exact h
  | some payload =>
    simp only [TxBalanced, LoopState.ledger] at h
    obtain hresult | hresult | hresult := tx_queue_enqueue_udp_frame_result state.app.tx_queue payload
    · simp only [hresult, if_true, TxBalanced, LoopState.ledger, List.count_append]
      rw [show [E2sError.E2S_OK].count .E2S_ERR_HDLC_ENCODE_FAILED = 0 from rfl]
      omega
    · simp only [hresult, if_true, if_false, reduceCtorEq, TxBalanced, LoopState.ledger, List.count_append]
      rw [show [E2sError.E2S_ERR_TX_QUEUE_FULL].count .E2S_ERR_HDLC_ENCODE_FAILED = 0 from rfl]
      omega
    · simp only [hresult, if_false, reduceCtorEq, TxBalanced, LoopState.ledger, List.count_append]
      rw [show [E2sError.E2S_ERR_HDLC_ENCODE_FAILED].count .E2S_ERR_HDLC_ENCODE_FAILED = 1 from rfl]
      omega

theorem txBalanced_serveTransmit {state : LoopState σ} (h : TxBalanced state.ledger)
    (datagram : Option (List UInt8)) : TxBalanced (serveTransmit hw state datagram).ledger := by
  have hthrottle : TxBalanced (update_udp_rx_throttle_state (pollTxPipeline hw state)).ledger := by
    rw [ledger_update_udp_rx_throttle_state]
    exact h
  unfold serveTransmit
  generalize update_udp_rx_throttle_state (pollTxPipeline hw state) = throttled at hthrottle ⊢
  simp only
  split
  · exact txBalanced_poll_and_enqueue hthrottle datagram
  · exact hthrottle

theorem txBalanced_run {state : LoopState σ} (h : TxBalanced state.ledger) (inputs : List LoopInput) :
    TxBalanced (event_loop_run hw state inputs).ledger := by
  unfold event_loop_run
  induction inputs generalizing state with
  | nil => exact h
  | cons input inputs ih =>
    apply ih
    rw [ledger_event_loop_iteration]
    apply txBalanced_serveTransmit
    rw [ledger_update_rx_drain_stats, ledger_drain_rx_until_empty]
    exact h

/-- The books of the pipeline balance at the end of every iteration: frames,
serial bytes and datagrams are all accounted for. -/
theorem pipeline_ledger (hw : TxHardware σ) (v24_config : V24Config) (tx_rts_holdoff_us : Nat) (pio : σ)
    (inputs : List LoopInput) :
    let boot := LoopState.boot v24_config tx_rts_holdoff_us pio
    let app := (event_loop_run hw boot inputs).app
    app.stats.hdlc_frame_ready = app.stats.hdlc_decode_ok + app.stats.hdlc_decode_fail ∧
    app.stats.udp_tx_frames = app.stats.hdlc_decode_ok ∧
    app.stats.hdlc_decode_fail =
      app.stats.decode_fail.invalid_frame + app.stats.decode_fail.too_short + app.stats.decode_fail.payload_too_long +
        app.stats.decode_fail.unstuff_error + app.stats.decode_fail.crc_mismatch ∧
    app.stats.serial_rx_bytes =
      app.stats.hunt_idle_drop_bytes + app.stats.serial_rx_drop_acc_full + appendedBytes hw boot inputs ∧
    app.stats.udp_rx_frames =
      app.stats.hdlc_tx_frames + app.stats.tx_queue_drop_frames +
        app.enqueue_results.count .E2S_ERR_HDLC_ENCODE_FAILED := by
  intro boot app
  have hboot : RxBalanced boot 0 := ⟨⟨rfl, rfl, rfl⟩, rfl, rfl⟩
  have hrx := @RxBalanced.run σ hw boot 0 hboot inputs
  rw [Nat.zero_add] at hrx
  have hempty : TxBalanced boot.ledger := rfl
  have htx := @txBalanced_run σ hw boot hempty inputs
  refine ⟨hrx.frames.ready_eq, hrx.frames.sent_eq, ?_, hrx.bytes_eq, htx⟩
  have hfail := hrx.frames.fail_eq
  rw [LoopState.rxLedger, ← hrx.copied] at hfail
  exact hfail

end ether2ser.event_loop
