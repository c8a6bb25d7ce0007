import Ether2Ser.Sync.Receiver
import Ether2Ser.System.TxPipeline

open ether2ser.error ether2ser.hdlc_common ether2ser.hdlc_decoder ether2ser.hdlc_sync ether2ser.pio_tx_rx_driver
open ether2ser.tx_queue

namespace ether2ser.event_loop

def TX_QUEUE_HIGH_WM : Nat := 48
def TX_QUEUE_LOW_WM : Nat := 12
def EVENT_LOOP_MAX_EVENTS_AT_ONCE : Nat := 20
def EVENT_LOOP_MAX_EVENTS_WHILE_TX_ACTIVE : Nat := 2
def HDLC_DECODE_FAIL_STREAK_LIMIT : Nat := 4
def HDLC_SYNC_IDLE_TIMEOUT_US : Nat := 20000
def HDLC_SYNC_NO_PROGRESS_MAX_BYTES : Nat := 2048
def HDLC_SYNC_NO_PROGRESS_MAX_BYTES_EXTERNAL : Nat := 12288
def TX_BUF_SIZE : Nat := 8192
def UINT8_MAX : Nat := 255

/-- `payload_statistics_t`, less the counters of the log, the event queue and
the Ethernet chip. -/
structure PayloadStatistics where
  udp_rx_frames : Nat
  hdlc_tx_frames : Nat
  serial_rx_bytes : Nat
  hdlc_frame_ready : Nat
  hdlc_decode_ok : Nat
  hdlc_decode_fail : Nat
  udp_tx_frames : Nat
  udp_rx_throttle_enter : Nat
  udp_rx_throttle_skips : Nat
  sync_lookahead_wait_syncing : Nat
  sync_lookahead_wait_synced : Nat
  sync_candidate_consume : Nat
  sync_hardcap_drop_events : Nat
  sync_hardcap_drop_bytes : Nat
  decode_fail : HdlcDecodeStats
  resync_idle_timeout_count : Nat
  resync_hard_fail_count : Nat
  resync_no_progress_count : Nat
  tx_queue_used_max : Nat
  tx_queue_drop_frames : Nat
  accumulator_pos_max : Nat
  rx_fifo_stall_events : Nat
  serial_rx_drop_acc_full : Nat
  hunt_idle_drop_bytes : Nat
  deriving DecidableEq, Repr

def PayloadStatistics.zero : PayloadStatistics where
  udp_rx_frames := 0
  hdlc_tx_frames := 0
  serial_rx_bytes := 0
  hdlc_frame_ready := 0
  hdlc_decode_ok := 0
  hdlc_decode_fail := 0
  udp_tx_frames := 0
  udp_rx_throttle_enter := 0
  udp_rx_throttle_skips := 0
  sync_lookahead_wait_syncing := 0
  sync_lookahead_wait_synced := 0
  sync_candidate_consume := 0
  sync_hardcap_drop_events := 0
  sync_hardcap_drop_bytes := 0
  decode_fail := { invalid_frame := 0, too_short := 0, payload_too_long := 0, unstuff_error := 0, crc_mismatch := 0 }
  resync_idle_timeout_count := 0
  resync_hard_fail_count := 0
  resync_no_progress_count := 0
  tx_queue_used_max := 0
  tx_queue_drop_frames := 0
  accumulator_pos_max := 0
  rx_fifo_stall_events := 0
  serial_rx_drop_acc_full := 0
  hunt_idle_drop_bytes := 0

/-- The data path of `app_ctx_t`, with the driver and the decoder's counters it
works on. The last two fields record the datagrams handed to `w5500_udp_tx` and the
results of the enqueues. -/
structure AppCtx (σ : Type) where
  v24_config : V24Config
  reconstructed_frame : HdlcFrame
  accumulator : HdlcSyncAccumulator
  tx_queue : TxQueue
  stats : PayloadStatistics
  hdlc_decode_stats : HdlcDecodeStats
  driver : TxDriver σ
  udp_tx : List (List UInt8)
  enqueue_results : List E2sError

/-- `event_loop_runtime_t`, without the byte just read. -/
structure EventLoopRuntime where
  hdlc_decode_fail_streak : Nat
  last_rx_byte_us : Nat
  last_frame_ready_bytes : Nat
  hunt_idle_run_length : Nat
  work_done : Bool
  udp_rx_throttled : Bool
  deriving DecidableEq, Repr

def EventLoopRuntime.zero : EventLoopRuntime where
  hdlc_decode_fail_streak := 0
  last_rx_byte_us := 0
  last_frame_ready_bytes := 0
  hunt_idle_run_length := 0
  work_done := false
  udp_rx_throttled := false

structure LoopState (σ : Type) where
  app : AppCtx σ
  runtime : EventLoopRuntime

variable {σ : Type}

/-- The application after `init_app` and `tx_queue_init`. -/
def LoopState.boot (v24_config : V24Config) (tx_rts_holdoff_us : Nat) (pio : σ) : LoopState σ where
  app :=
    { v24_config
      reconstructed_frame := .empty RX_HDLC_SYNC_MAX_BUFFER_SIZE
      accumulator := hdlc_sync_acc_init HDLC_FLAG_BYTE
      tx_queue := tx_queue_init
      stats := .zero
      hdlc_decode_stats := PayloadStatistics.zero.decode_fail
      driver := .boot tx_rts_holdoff_us pio
      udp_tx := []
      enqueue_results := [] }
  runtime := .zero

/-- Whether a received byte is dropped, and the run of idle bytes after it. -/
def event_loop_should_drop_hunt_idle_byte (app : AppCtx σ) (rx_byte : UInt8) (idle_run_length : Nat) : Bool × Nat :=
  let in_external_hunting := app.v24_config.external_clock && app.accumulator.state == .HDLC_SYNC_STATE_HUNTING
  if !in_external_hunting then (false, 0)
  else if rx_byte = 0x00 ∨ rx_byte = 0xFF then
    if idle_run_length ≥ 2 then (true, idle_run_length) else (false, idle_run_length + 1)
  else (false, 0)

/-- The body of the loop of `drain_rx_until_empty`. -/
def receiveByte (state : LoopState σ) (rx_byte : UInt8) : LoopState σ :=
  let (drop, hunt_idle_run_length) :=
    event_loop_should_drop_hunt_idle_byte state.app rx_byte state.runtime.hunt_idle_run_length
  let runtime := { state.runtime with work_done := true, hunt_idle_run_length }
  if drop then
    { app := { state.app with
        stats := { state.app.stats with hunt_idle_drop_bytes := state.app.stats.hunt_idle_drop_bytes + 1 } }
      runtime }
  else
    match hdlc_sync_acc_process_byte state.app.accumulator rx_byte with
    | (true, accumulator) => { app := { state.app with accumulator }, runtime }
    | (false, accumulator) =>
      { app := { state.app with
          accumulator
          stats := { state.app.stats with serial_rx_drop_acc_full := state.app.stats.serial_rx_drop_acc_full + 1 } }
        runtime }

/-- Read what the receive FIFO yields until it is empty. -/
def drain_rx_until_empty (state : LoopState σ) (rx : List UInt8) : LoopState σ := rx.foldl receiveByte state

def update_rx_drain_stats (state : LoopState σ) (rx_drained now_us : Nat) : LoopState σ where
  app := { state.app with
    stats := { state.app.stats with
      serial_rx_bytes := state.app.stats.serial_rx_bytes + rx_drained
      accumulator_pos_max :=
        if state.app.accumulator.position > state.app.stats.accumulator_pos_max then state.app.accumulator.position
        else state.app.stats.accumulator_pos_max } }
  runtime := { state.runtime with
    last_rx_byte_us := if rx_drained > 0 then now_us else state.runtime.last_rx_byte_us }

/-- Take a datagram from the Ethernet chip, if there is one, into the queue. -/
def poll_and_enqueue_udp_rx (state : LoopState σ) (datagram : Option (List UInt8)) : LoopState σ :=
  match datagram with
  | none => state
  | some payload =>
    let (enqueue_result, tx_queue) := tx_queue_enqueue_udp_frame state.app.tx_queue payload
    let app := { state.app with
      tx_queue
      stats := { state.app.stats with udp_rx_frames := state.app.stats.udp_rx_frames + 1 }
      enqueue_results := state.app.enqueue_results ++ [enqueue_result] }
    if enqueue_result = .E2S_OK then
      { app := { app with stats := { app.stats with hdlc_tx_frames := app.stats.hdlc_tx_frames + 1 } }
        runtime := { state.runtime with work_done := true } }
    else if enqueue_result = .E2S_ERR_TX_QUEUE_FULL then
      { state with
        app := { app with stats := { app.stats with tx_queue_drop_frames := app.stats.tx_queue_drop_frames + 1 } } }
    else { state with app }

/-- `poll_tx_pipeline` on the application. -/
def pollTxPipeline (hw : TxHardware σ) (state : LoopState σ) : LoopState σ :=
  let (bytes_drained, tx_queue, driver) := poll_tx_pipeline hw state.app.tx_queue state.app.driver
  { app := { state.app with tx_queue, driver }
    runtime := if bytes_drained > 0 then { state.runtime with work_done := true } else state.runtime }

/-- Start over with a fresh accumulator and an empty frame. -/
def AppCtx.resync (app : AppCtx σ) : AppCtx σ :=
  { app with
    accumulator := hdlc_sync_acc_init HDLC_FLAG_BYTE
    reconstructed_frame := { app.reconstructed_frame with payload := [] } }

def poll_hdlc_idle_timeout (state : LoopState σ) (now_us : Nat) : LoopState σ :=
  let frame_in_progress := state.app.accumulator.state ≠ .HDLC_SYNC_STATE_HUNTING ∨
    state.app.accumulator.position > 0 ∨ state.app.reconstructed_frame.length > 0
  if frame_in_progress ∧ state.runtime.last_rx_byte_us ≠ 0 ∧
      now_us - state.runtime.last_rx_byte_us > HDLC_SYNC_IDLE_TIMEOUT_US then
    { app := AppCtx.resync { state.app with
        stats := { state.app.stats with
          resync_idle_timeout_count := state.app.stats.resync_idle_timeout_count + 1 } }
      runtime := { state.runtime with hdlc_decode_fail_streak := 0 } }
  else state

/-- The accepting branch of `decode_hdlc_to_udp_tx`, which hands the payload to
`w5500_udp_tx` and counts it whether or not `sendto` takes it. -/
def acceptDecoded (state : LoopState σ) (payload : List UInt8) : LoopState σ where
  app := { state.app with
    stats := { state.app.stats with
      hdlc_decode_ok := state.app.stats.hdlc_decode_ok + 1
      udp_tx_frames := state.app.stats.udp_tx_frames + 1 }
    udp_tx := state.app.udp_tx ++ [payload]
    accumulator := hdlc_sync_acc_consume_candidate state.app.accumulator true }
  runtime := { state.runtime with hdlc_decode_fail_streak := 0 }

/-- A failure streak saturates at the largest byte. -/
def nextFailStreak (hdlc_decode_fail_streak : Nat) : Nat :=
  if hdlc_decode_fail_streak < UINT8_MAX then hdlc_decode_fail_streak + 1 else hdlc_decode_fail_streak

/-- The rejecting branch of `decode_hdlc_to_udp_tx`. -/
def rejectDecoded (state : LoopState σ) (error : HdlcDecodeError) : LoopState σ :=
  let hdlc_decode_fail_streak := nextFailStreak state.runtime.hdlc_decode_fail_streak
  let app := { state.app with
    stats := { state.app.stats with hdlc_decode_fail := state.app.stats.hdlc_decode_fail + 1 }
    hdlc_decode_stats := state.app.hdlc_decode_stats.record error
    accumulator := hdlc_sync_acc_consume_candidate state.app.accumulator false }
  if hdlc_decode_fail_streak ≥ HDLC_DECODE_FAIL_STREAK_LIMIT then
    { app := { app with
        stats := { app.stats with resync_hard_fail_count := app.stats.resync_hard_fail_count + 1 }
        accumulator := hdlc_sync_acc_init HDLC_FLAG_BYTE }
      runtime := { state.runtime with hdlc_decode_fail_streak := 0 } }
  else { app, runtime := { state.runtime with hdlc_decode_fail_streak } }

def decode_hdlc_to_udp_tx (state : LoopState σ) : LoopState σ :=
  let state :=
    { app := { state.app with
        stats := { state.app.stats with hdlc_frame_ready := state.app.stats.hdlc_frame_ready + 1 } }
      runtime := { state.runtime with
        work_done := true
        last_frame_ready_bytes := state.app.stats.serial_rx_bytes } }
  let state :=
    match hdlc_decode state.app.reconstructed_frame TX_BUF_SIZE true with
    | .ok payload => acceptDecoded state payload
    | .error error => rejectDecoded state error
  { state with app := { state.app with
      reconstructed_frame := { state.app.reconstructed_frame with payload := [] } } }

/-- One turn of the loop of `drain_hdlc_frames_to_udp`. -/
def drainTurn (state : LoopState σ) : LoopState σ ⊕ LoopState σ :=
  let polled := hdlc_sync_acc_poll state.app.accumulator state.app.reconstructed_frame
  let state := { state with
    app := { state.app with accumulator := polled.accumulator, reconstructed_frame := polled.out_frame } }
  if polled.result = .E2S_ERR_HDLC_ACC_FRAME_READY then .inl (decode_hdlc_to_udp_tx state)
  else if polled.result ≠ .E2S_OK then .inr { state with app := state.app.resync }
  else .inr state

/-- A decoded candidate is consumed, unless a streak of failures resets the
accumulator. -/
theorem accumulator_decode_hdlc_to_udp_tx (state : LoopState σ) :
    (∃ accept, (decode_hdlc_to_udp_tx state).app.accumulator =
        hdlc_sync_acc_consume_candidate state.app.accumulator accept) ∨
      (decode_hdlc_to_udp_tx state).app.accumulator = hdlc_sync_acc_init HDLC_FLAG_BYTE := by
  unfold decode_hdlc_to_udp_tx
  simp only
  split
  · exact .inl ⟨true, rfl⟩
  · unfold rejectDecoded
    simp only
    split
    · exact .inr rfl
    · exact .inl ⟨false, rfl⟩

theorem drainTurn_decreases {state next : LoopState σ} (hturn : drainTurn state = .inl next) :
    next.app.accumulator.position < state.app.accumulator.position := by
  unfold drainTurn at hturn
  simp only at hturn
  split at hturn
  · rename_i hready
    have hconsumed := position_consume_of_frame_ready hready
    cases hturn
    rcases @accumulator_decode_hdlc_to_udp_tx σ _ with ⟨accept, hnext⟩ | hnext
    · rw [hnext]
      exact hconsumed accept
    · rw [hnext]
      exact Nat.zero_lt_of_lt (hconsumed true)
  · split at hturn <;> cases hturn

/-- The loop over the frames the accumulator holds. -/
def framesLoop : Loop.Terminating (LoopState σ) (LoopState σ) where
  body := drainTurn
  variant := fun state => state.app.accumulator.position
  decreases := fun _ _ => drainTurn_decreases

def drain_hdlc_frames_to_udp (state : LoopState σ) : LoopState σ := framesLoop.run state

def poll_hdlc_no_progress (state : LoopState σ) : LoopState σ :=
  let decode_in_progress := state.app.accumulator.state ≠ .HDLC_SYNC_STATE_HUNTING ∨
    state.app.accumulator.candidate_valid = true ∨ state.app.reconstructed_frame.length > 0
  let last_frame_ready_bytes :=
    if ¬decode_in_progress then state.app.stats.serial_rx_bytes else state.runtime.last_frame_ready_bytes
  let have_decode_lock := state.app.stats.hdlc_decode_ok > 0
  let no_progress_max_bytes :=
    if state.app.v24_config.external_clock then HDLC_SYNC_NO_PROGRESS_MAX_BYTES_EXTERNAL
    else HDLC_SYNC_NO_PROGRESS_MAX_BYTES
  if have_decode_lock ∧ decode_in_progress ∧ state.app.stats.serial_rx_bytes > last_frame_ready_bytes ∧
      state.app.stats.serial_rx_bytes - last_frame_ready_bytes > no_progress_max_bytes then
    { app := AppCtx.resync { state.app with
        stats := { state.app.stats with resync_no_progress_count := state.app.stats.resync_no_progress_count + 1 } }
      runtime := { state.runtime with
        hdlc_decode_fail_streak := 0
        last_frame_ready_bytes := state.app.stats.serial_rx_bytes } }
  else { state with runtime := { state.runtime with last_frame_ready_bytes } }

def update_statistics (state : LoopState σ) : LoopState σ :=
  { state with
    app := { state.app with
      stats := { state.app.stats with
        sync_lookahead_wait_syncing := state.app.accumulator.lookahead_wait_syncing.toNat
        sync_lookahead_wait_synced := state.app.accumulator.lookahead_wait_synced.toNat
        sync_candidate_consume := state.app.accumulator.consume_count.toNat
        sync_hardcap_drop_events := state.app.accumulator.hardcap_drop_events.toNat
        sync_hardcap_drop_bytes := state.app.accumulator.hardcap_drop_bytes.toNat
        decode_fail := state.app.hdlc_decode_stats
        tx_queue_used_max :=
          if tx_queue_get_count state.app.tx_queue > state.app.stats.tx_queue_used_max then
            tx_queue_get_count state.app.tx_queue
          else state.app.stats.tx_queue_used_max } } }

def update_udp_rx_throttle_state (state : LoopState σ) : LoopState σ :=
  let tx_q_used := tx_queue_get_count state.app.tx_queue
  if !state.runtime.udp_rx_throttled ∧ tx_q_used ≥ TX_QUEUE_HIGH_WM then
    { app := { state.app with
        stats := { state.app.stats with udp_rx_throttle_enter := state.app.stats.udp_rx_throttle_enter + 1 } }
      runtime := { state.runtime with udp_rx_throttled := true } }
  else if state.runtime.udp_rx_throttled ∧ tx_q_used ≤ TX_QUEUE_LOW_WM then
    { state with runtime := { state.runtime with udp_rx_throttled := false } }
  else state

/-- Count a stall that `rx_clock_poll_stall` reports. -/
def countRxStall (state : LoopState σ) (rx_stall : Bool) : LoopState σ :=
  if rx_stall then
    { state with
      app := { state.app with
        stats := { state.app.stats with rx_fifo_stall_events := state.app.stats.rx_fifo_stall_events + 1 } } }
  else state

/-- The events that reach the data path. Every other event leaves its state alone,
though a line may take a pin from it. -/
inductive DataPathEvent where
  | set_v24_baudrate (baudrate : UInt32)
  | set_v24_polarities
  | set_v24_clock_mode (external_clock : Bool)
  | other
  deriving DecidableEq, Repr

/-- `event_dispatch`, for the data path. -/
def event_dispatch (hw : TxHardware σ) (app : AppCtx σ) : DataPathEvent → AppCtx σ
  | .set_v24_baudrate baudrate =>
    if app.v24_config.baudrate ≠ baudrate then
      let (v24_config, v24_runtime) := reinit_v24_config app.v24_config app.driver.v24_runtime baudrate
      { app with v24_config, driver := tx_clock_update_settings hw { app.driver with v24_runtime } }
    else app
  | .set_v24_polarities => { app with driver := tx_clock_update_settings hw app.driver }
  | .set_v24_clock_mode external_clock =>
    if app.v24_config.external_clock ≠ external_clock ∧ tx_queue_is_empty app.tx_queue then
      { app with v24_config := { app.v24_config with external_clock } }
    else app
  | .other => app

def poll_and_dispatch_events (hw : TxHardware σ) (state : LoopState σ) (events : List DataPathEvent) : LoopState σ :=
  let tx_active := !tx_queue_is_empty state.app.tx_queue
  let max_events_per_iteration :=
    if tx_active then EVENT_LOOP_MAX_EVENTS_WHILE_TX_ACTIVE else EVENT_LOOP_MAX_EVENTS_AT_ONCE
  { state with app := (events.take max_events_per_iteration).foldl (event_dispatch hw) state.app }

/-- What one iteration of the loop meets: the bytes of both receive drains with
the clock after each, the datagram the Ethernet chip has ready, the stall flag
of the receiver and the queued events. -/
structure LoopInput where
  rx_early : List UInt8
  early_us : Nat
  datagram : Option (List UInt8)
  rx : List UInt8
  now_us : Nat
  rx_stall : Bool
  events : List DataPathEvent
  deriving DecidableEq, Repr

/-- The throttled half of an iteration: transmit, then accept a datagram unless
the queue is above its watermarks. -/
def serveTransmit (hw : TxHardware σ) (state : LoopState σ) (datagram : Option (List UInt8)) : LoopState σ :=
  let state := update_udp_rx_throttle_state (pollTxPipeline hw state)
  if !state.runtime.udp_rx_throttled then poll_and_enqueue_udp_rx state datagram
  else { state with
    app := { state.app with
      stats := { state.app.stats with udp_rx_throttle_skips := state.app.stats.udp_rx_throttle_skips + 1 } } }

/-- The body of `event_loop`. -/
def event_loop_iteration (hw : TxHardware σ) (state : LoopState σ) (input : LoopInput) : LoopState σ :=
  let state := update_rx_drain_stats (drain_rx_until_empty state input.rx_early) input.rx_early.length input.early_us
  let state := serveTransmit hw state input.datagram
  let state := update_rx_drain_stats (drain_rx_until_empty state input.rx) input.rx.length input.now_us
  let state := poll_hdlc_idle_timeout state input.now_us
  let state := drain_hdlc_frames_to_udp state
  let state := poll_hdlc_no_progress state
  let state := update_statistics state
  let state := countRxStall state input.rx_stall
  let state := poll_and_dispatch_events hw state input.events
  { state with runtime := { state.runtime with work_done := false } }

/-- The iterations of `event_loop`. -/
def event_loop_run (hw : TxHardware σ) (state : LoopState σ) (inputs : List LoopInput) : LoopState σ :=
  inputs.foldl (event_loop_iteration hw) state

end ether2ser.event_loop
